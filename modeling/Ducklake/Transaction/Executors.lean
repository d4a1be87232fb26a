import Ducklake.Transaction.Changes.Change
import Ducklake.Transaction.TransactionChanges

/-!
# Executors

The functions of `transaction/executors` that turn the changes of a transaction into rows.
They receive the rows collected so far and the state of the attempt, and return both.
-/

set_option autoImplicit false

namespace Ducklake.Transaction.Executors

open Lib Caches Spec

/-! ## Schemas, views and macros -/

def createSchema (changes : TransactionChanges) (state : CommitState) (schemaRef : SchemaRef)
    (name : Text) (path : DucklakePath) : TransactionChanges × CommitState :=
  let (schemaId, state) := state.schemaId schemaRef
  ({ changes with
    newSchemas := changes.newSchemas ++ [{
      schemaId := schemaId
      schemaName := name
      path := path.display
      pathIsRelative := path.isRelative }] }, state)

def deleteSchema (changes : TransactionChanges) (state : CommitState) (schemaRef : SchemaRef) :
    TransactionChanges × CommitState :=
  let (schemaId, state) := state.schemaId schemaRef
  ({ changes with droppedSchemas := changes.droppedSchemas ++ [schemaId] }, state)

def objectTagRows (objectId : Int) (tags : Tags) : List DucklakeTag :=
  tags.entries.map fun tag => { objectId := objectId, key := tag.1, value := tag.2 }

def createView (changes : TransactionChanges) (state : CommitState) (schemaRef : SchemaRef)
    (viewRef : ViewRef) (name : QualifiedName) (sql dialect : Text)
    (columnAliases : Option (List Text)) (tags : Tags) : TransactionChanges × CommitState :=
  let (viewId, state) := state.viewId viewRef
  let (schemaId, state) := state.schemaId schemaRef
  ({ changes with
    newViews := changes.newViews ++ [{
      viewId := viewId
      schemaId := schemaId
      viewName := name.name
      dialect := dialect
      sql := sql
      columnAliases := some (Utils.formatIdentifierList (columnAliases.getD [])) }]
    newTags := changes.newTags ++ objectTagRows viewId tags }, state)

def deleteView (changes : TransactionChanges) (state : CommitState) (viewRef : ViewRef) :
    TransactionChanges × CommitState :=
  let (viewId, state) := state.viewId viewRef
  ({ changes with droppedViews := changes.droppedViews ++ [viewId] }, state)

def macroImplRows (macroId : Int) (macroType : MacroType)
    (implementations : List MacroImplementation) : List DucklakeMacroImpl :=
  implementations.zipIdx.map fun entry => {
    macroId := macroId
    implId := entry.2
    dialect := entry.1.dialect
    sql := entry.1.sql
    type := macroType.display }

def macroParameterRows (macroId : Int) (implementations : List MacroImplementation) :
    List DucklakeMacroParameters :=
  implementations.zipIdx.flatMap fun implementation =>
    implementation.1.parameters.zipIdx.map fun entry => {
      macroId := macroId
      implId := implementation.2
      columnId := entry.2
      parameterName := entry.1.name
      parameterType := entry.1.dataType
      defaultValue := some (entry.1.defaultValue.getD "NULL".toList)
      defaultValueType := entry.1.defaultValueType }

def createMacro (changes : TransactionChanges) (state : CommitState) (schemaRef : SchemaRef)
    (macroRef : MacroRef) (name : QualifiedName) (macroType : MacroType)
    (implementations : List MacroImplementation) : TransactionChanges × CommitState :=
  let (macroId, state) := state.macroId macroRef
  let (schemaId, state) := state.schemaId schemaRef
  ({ changes with
    newMacros := changes.newMacros ++ [{
      schemaId := schemaId
      macroId := macroId
      macroName := name.name }]
    newMacroImpls := changes.newMacroImpls ++ macroImplRows macroId macroType implementations
    newMacroParameters :=
      changes.newMacroParameters ++ macroParameterRows macroId implementations }, state)

def deleteMacro (changes : TransactionChanges) (state : CommitState) (macroRef : MacroRef) :
    TransactionChanges × CommitState :=
  let (macroId, state) := state.macroId macroRef
  ({ changes with droppedMacros := changes.droppedMacros ++ [macroId] }, state)

/-! ## Columns -/

def toDefaultValueColumns (env : Environment) (dtype : DataType) :
    ColumnDefault → Option Text × Option Text × Option Text
  | .literal value => (some (env.formatValueOpt value),
      some (if dtype.isNested then [] else "literal".toList), some "duckdb".toList)
  | .expression dialect expression =>
      (some expression, some "expression".toList, some dialect)

/-- The row of a flattened column; `columnIds` are the ids of all flattened columns. -/
def columnRow (env : Environment) (tableId : Int) (parentColumnId : Option Int)
    (columnIds : List Int) (flat : FlattenedColumn) (columnId : Int) : DucklakeColumn :=
  let defaults := toDefaultValueColumns env flat.column.dtype flat.column.defaultValue
  { columnId := columnId
    tableId := tableId
    -- The column id also serves as the order.
    columnOrder := some columnId
    columnName := flat.column.name
    columnType := flat.column.dtype.display
    initialDefault := flat.column.initialDefault.map env.formatValue
    defaultValue := defaults.1
    nullsAllowed := flat.column.nullable
    parentColumn := (flat.parentIndex.bind fun index => columnIds[index]?).or parentColumnId
    defaultValueType := defaults.2.1
    defaultValueDialect := defaults.2.2 }

/-- `add_column_to_buffers`: the rows and tag rows of a column tree.  `columnRefs` refers to the
flattened columns; an update refers to the root only and must not meet a nested column. -/
def columnRows (env : Environment) (state : CommitState) (tableId : Int)
    (parentColumnRef : Option ColumnRef) (columnRefs : List ColumnRef) (column : Column) :
    DucklakeResult (List DucklakeColumn × List DucklakeColumnTag) :=
  let columnIds := columnRefs.map state.columnId
  let flattened := column.flatten
  if columnIds.length < flattened.length then .error (.panicked "column_ids[i]".toList)
  else
    let entries := flattened.zip columnIds
    .ok (entries.map fun entry => columnRow env tableId (parentColumnRef.map state.columnId)
        columnIds entry.1 entry.2,
      entries.flatMap fun entry => entry.1.column.tags.entries.map fun tag =>
        { tableId := tableId, columnId := entry.2, key := tag.1, value := tag.2 })

def addTableColumn (env : Environment) (changes : TransactionChanges) (state : CommitState)
    (parentColumnRef : Option ColumnRef) (columnRefs : List ColumnRef) (column : Column) :
    DucklakeResult (TransactionChanges × CommitState) :=
  match columnRefs with
  | [] => .error (.panicked "column_refs[0]".toList)
  | first :: _ => do
      let (tableId, state) := state.tableId first.tableRef
      let (rows, tags) ← columnRows env state tableId parentColumnRef columnRefs column
      if column.tags.isEmpty then
        .ok ({ changes with
          newColumns := changes.newColumns ++ rows.map (.new state.snapshotId)
          newColumnTags := changes.newColumnTags ++ tags }, state)
      else .error (.panicked "todo".toList)

def updateTableColumn (env : Environment) (changes : TransactionChanges) (state : CommitState)
    (parentColumnRef : Option ColumnRef) (columnRef : ColumnRef) (column : Column) :
    DucklakeResult (TransactionChanges × CommitState) := do
  let (tableId, state) := state.tableId columnRef.tableRef
  let columnId := state.columnId columnRef
  -- Tags have their own updates.
  let (rows, _) ← columnRows env state tableId parentColumnRef [columnRef] column
  .ok ({ changes with
    retiredColumns := changes.retiredColumns ++ [(tableId, columnId)]
    newColumns := (changes.newColumns.filter fun row =>
        row.entity.tableId ≠ tableId ∨ row.entity.columnId ≠ columnId) ++
      rows.map (.new state.snapshotId) }, state)

def endPending {α : Type} (snapshotId : Int) (selects : α → Bool) (rows : List (Versioned α)) :
    List (Versioned α) :=
  rows.map fun row =>
    if selects row.entity then { row with endSnapshot := some snapshotId } else row

def removeTableColumn (changes : TransactionChanges) (state : CommitState)
    (columnRef : ColumnRef) : TransactionChanges × CommitState :=
  let (tableId, state) := state.tableId columnRef.tableRef
  let columnId := state.columnId columnRef
  ({ changes with
    retiredColumns := changes.retiredColumns ++ [(tableId, columnId)]
    newColumns := endPending state.snapshotId
      (fun row => row.tableId = tableId ∧ row.columnId = columnId) changes.newColumns }, state)

def editColumnTag (changes : TransactionChanges) (state : CommitState) (columnRef : ColumnRef)
    (edit : TagChange) : TransactionChanges × CommitState :=
  let (tableId, state) := state.tableId columnRef.tableRef
  ({ changes with
    columnTags := changes.columnTags ++ [((tableId, state.columnId columnRef), edit)] }, state)

def addTableColumnTag (changes : TransactionChanges) (state : CommitState)
    (columnRef : ColumnRef) (tag : Tag) : TransactionChanges × CommitState :=
  editColumnTag changes state columnRef { key := tag.key, value := some tag.value }

def removeTableColumnTag (changes : TransactionChanges) (state : CommitState)
    (columnRef : ColumnRef) (key : Text) : TransactionChanges × CommitState :=
  editColumnTag changes state columnRef { key := key, value := none }

/-! ## Tables -/

def createPartitioning (changes : TransactionChanges) (state : CommitState) (tableRef : TableRef)
    (tableId : Int) (partitionColumnRefs : List ColumnRef) (partitionColumns : Partition) :
    DucklakeResult (TransactionChanges × CommitState) := do
  let (partitionId, state) ← state.partitionId tableRef
  .ok ({ changes with
    newPartitionInfo := changes.newPartitionInfo ++
      [.new state.snapshotId { partitionId := partitionId, tableId := tableId }]
    newPartitionColumns := changes.newPartitionColumns ++
      (partitionColumns.zipIdx.zip partitionColumnRefs).map fun entry => {
        partitionId := partitionId
        tableId := tableId
        partitionKeyIndex := entry.1.2
        columnId := state.columnId entry.2
        transform := entry.1.1.transform.display } }, state)

def createPartitioningOpt (changes : TransactionChanges) (state : CommitState)
    (tableRef : TableRef) (tableId : Int) (partitionColumnRefs : Option (List ColumnRef))
    (partitionColumns : Option Partition) : DucklakeResult (TransactionChanges × CommitState) :=
  match partitionColumnRefs, partitionColumns with
  | some refs, some columns => createPartitioning changes state tableRef tableId refs columns
  | _, _ => .ok (changes, state)

def createSortInfo (changes : TransactionChanges) (state : CommitState) (tableId : Int)
    (expressions : SortInfo) : TransactionChanges × CommitState :=
  let (sortId, state) := state.sortInfoId
  ({ changes with
    newSortInfo := changes.newSortInfo ++
      [.new state.snapshotId { sortId := sortId, tableId := tableId }]
    newSortExpressions := changes.newSortExpressions ++
      expressions.zipIdx.map fun entry => {
        sortId := sortId
        tableId := tableId
        sortKeyIndex := entry.2
        expression := some entry.1.expression
        dialect := some entry.1.dialect
        sortDirection := some entry.1.direction.display
        nullOrder := some entry.1.nullOrder.display } }, state)

def createSortInfoOpt (changes : TransactionChanges) (state : CommitState) (tableId : Int)
    (expressions : Option SortInfo) : TransactionChanges × CommitState :=
  match expressions with
  | some expressions => createSortInfo changes state tableId expressions
  | none => (changes, state)

def tableColumnRows (env : Environment) (state : CommitState) (tableId : Int)
    (columns : List (Column × List ColumnRef)) :
    DucklakeResult (List (List DucklakeColumn × List DucklakeColumnTag)) :=
  columns.mapM fun entry => columnRows env state tableId none entry.2 entry.1

def createTable (env : Environment) (changes : TransactionChanges) (state : CommitState)
    (schemaRef : SchemaRef) (tableRef : TableRef) (columnRefs : List (List ColumnRef))
    (partitionColumnRefs : Option (List ColumnRef)) (name : QualifiedName)
    (columns : List Column) (retiredColumns : List DucklakeColumn)
    (partitionColumns : Option Partition) (sortInfo : Option SortInfo) (path : DucklakePath)
    (tags : Tags) : DucklakeResult (TransactionChanges × CommitState) := do
  let (tableId, state) := state.tableId tableRef
  let (schemaId, state) := state.schemaId schemaRef
  let rows ← tableColumnRows env state tableId (columns.zip columnRefs)
  let changes := { changes with
    newTables := changes.newTables ++ [{
      tableId := tableId
      schemaId := schemaId
      tableName := name.name
      path := path.display
      pathIsRelative := true }]
    -- An empty snapshot interval keeps retired columns out of every schema.
    newColumns := changes.newColumns ++
      (rows.flatMap Prod.fst).map (.new state.snapshotId) ++
      retiredColumns.map fun column => {
        beginSnapshot := state.snapshotId
        endSnapshot := some state.snapshotId
        entity := { column with tableId := tableId } }
    newColumnTags := changes.newColumnTags ++ rows.flatMap Prod.snd }
  let (changes, state) ←
    createPartitioningOpt changes state tableRef tableId partitionColumnRefs partitionColumns
  let (changes, state) := createSortInfoOpt changes state tableId sortInfo
  .ok ({ changes with newTags := changes.newTags ++ objectTagRows tableId tags }, state)

def renameTable (changes : TransactionChanges) (state : CommitState) (tableRef : TableRef)
    (name : QualifiedName) : TransactionChanges × CommitState :=
  let (tableId, state) := state.tableId tableRef
  if changes.newTables.any fun table => table.tableId = tableId then
    ({ changes with
      newTables := changes.newTables.map fun table =>
        if table.tableId = tableId then { table with tableName := name.name } else table }, state)
  else
    ({ changes with renamedTables := changes.renamedTables.insert tableId name.name }, state)

def updateTablePartitioning (changes : TransactionChanges) (state : CommitState)
    (tableRef : TableRef) (partitionColumnRefs : Option (List ColumnRef))
    (partitionColumns : Option Partition) : DucklakeResult (TransactionChanges × CommitState) :=
  let (tableId, state) := state.tableId tableRef
  let changes := { changes with
    retiredPartitionTables := changes.retiredPartitionTables ++ [tableId]
    newPartitionInfo := endPending state.snapshotId (fun info => info.tableId = tableId)
      changes.newPartitionInfo }
  createPartitioningOpt changes state tableRef tableId partitionColumnRefs partitionColumns

def updateTableSortInfo (changes : TransactionChanges) (state : CommitState)
    (tableRef : TableRef) (expressions : Option SortInfo) : TransactionChanges × CommitState :=
  let (tableId, state) := state.tableId tableRef
  let changes := { changes with
    retiredSortTables := changes.retiredSortTables ++ [tableId]
    newSortInfo := endPending state.snapshotId (fun info => info.tableId = tableId)
      changes.newSortInfo }
  createSortInfoOpt changes state tableId expressions

def deleteTable (changes : TransactionChanges) (state : CommitState) (tableRef : TableRef)
    (detachFiles : Bool) : TransactionChanges × CommitState :=
  let (tableId, state) := state.tableId tableRef
  ({ changes with
    droppedTables := changes.droppedTables ++ [tableId]
    detachedTables :=
      if detachFiles then changes.detachedTables ++ [tableId] else changes.detachedTables }, state)

def editTableTag (changes : TransactionChanges) (state : CommitState) (tableRef : TableRef)
    (edit : TagChange) : TransactionChanges × CommitState :=
  let (tableId, state) := state.tableId tableRef
  ({ changes with tableTags := changes.tableTags ++ [(tableId, edit)] }, state)

def addTableTag (changes : TransactionChanges) (state : CommitState) (tableRef : TableRef)
    (tag : Tag) : TransactionChanges × CommitState :=
  editTableTag changes state tableRef { key := tag.key, value := some tag.value }

def removeTableTag (changes : TransactionChanges) (state : CommitState) (tableRef : TableRef)
    (key : Text) : TransactionChanges × CommitState :=
  editTableTag changes state tableRef { key := key, value := none }

/-! ## Data -/

/-- What a file or a batch tells about one of its columns. -/
structure WrittenColumn where
  columnId : Int
  nullCount : Option Nat
  containsNan : Option Bool
  minValue : Option Value
  maxValue : Option Value

def updateColumnStats (column : WrittenColumn) (stats : ColumnStats) : ColumnStats :=
  ((((stats.updateContainsNull (column.nullCount.map fun count => count > 0)).updateContainsNan
    column.containsNan).updateMinValue column.minValue).updateMaxValue column.maxValue)

def updateTableStats (numRows : Nat) (columns : List WrittenColumn) (stats : TableStats) :
    TableStats :=
  columns.foldl (fun stats column =>
    stats.modifyColumnStats column.columnId (updateColumnStats column))
    ((stats.advanceRowId numRows).addRecordCount numRows)

def fileWrittenColumns (state : CommitState) (file : CommitDataFile) : List WrittenColumn :=
  file.columnStats.entries.map fun entry => {
    columnId := state.columnId entry.1
    nullCount := entry.2.nullCount
    containsNan := entry.2.containsNan
    minValue := entry.2.minValue
    maxValue := entry.2.maxValue }

def batchWrittenColumns (state : CommitState) (data : CommitInlineData) : List WrittenColumn :=
  data.columnStats.entries.map fun entry => {
    columnId := state.columnId entry.1
    nullCount := entry.2.nullCount
    containsNan := entry.2.containsNan
    minValue := entry.2.minValue
    maxValue := entry.2.maxValue }

def updateTableStatsFromFile (state : CommitState) (tableId : Int) (file : CommitDataFile) :
    CommitState :=
  state.modifyTableStats tableId fun stats =>
    updateTableStats file.numRows (fileWrittenColumns state file)
      (stats.addFileSizeBytes (file.fileSizeBytes.map Int.ofNat))

def updateTableStatsFromInlineData (state : CommitState) (tableId : Int)
    (data : CommitInlineData) : CommitState :=
  state.modifyTableStats tableId
    (updateTableStats data.recordBatch.numRows (batchWrittenColumns state data))

def addDeleteFile (tableId dataFileId : Int) (collected : List DucklakeDeleteFile × CommitState)
    (file : CommitDeleteFile) : List DucklakeDeleteFile × CommitState :=
  let (deleteFileId, state) := collected.2.fileId
  (collected.1 ++ [{
    deleteFileId := deleteFileId
    tableId := tableId
    dataFileId := dataFileId
    path := file.path.display
    pathIsRelative := file.path.isRelative
    deleteCount := some file.numDeletes
    fileSizeBytes := file.fileSizeBytes
    footerSize := file.footerSizeBytes
    encryptionKey := file.encryptionKey }], state)

def filePartitionId (state : CommitState) (tableRef : TableRef) (file : CommitDataFile) :
    DucklakeResult (Option Int × CommitState) :=
  match file.partitionValues with
  | none => .ok (none, state)
  | some _ => do
      let (partitionId, state) ← state.partitionId tableRef
      .ok (some partitionId, state)

def addDataFile (env : Environment) (tableRef : TableRef) (tableId : Int)
    (collected : TransactionChanges × CommitState) (file : CommitDataFile) :
    DucklakeResult (TransactionChanges × CommitState) := do
  let (changes, state) := collected
  let (fileId, state) := state.fileId
  let rowIdStart := (state.tableStatsOf tableId).nextRowId
  let state := updateTableStatsFromFile state tableId file
  let (partitionId, state) ← filePartitionId state tableRef file
  let (deleteFiles, state) := file.deleteFiles.foldl (addDeleteFile tableId fileId)
    (changes.deleteFiles, state)
  .ok ({ changes with
    dataFiles := changes.dataFiles ++ [{
      dataFileId := fileId
      tableId := tableId
      fileOrder := some fileId
      path := file.path.display
      pathIsRelative := file.path.isRelative
      recordCount := file.numRows
      fileSizeBytes := file.fileSizeBytes
      footerSize := file.footerSizeBytes
      rowIdStart := some rowIdStart
      partitionId := partitionId
      encryptionKey := file.encryptionKey }]
    deleteFiles := deleteFiles
    inlineDeletes := changes.inlineDeletes ++ file.inlineDeletes.map fun rowId =>
      (tableId, { fileId := fileId, rowId := rowId, beginSnapshot := state.snapshotId })
    partitionValues := changes.partitionValues ++
      (file.partitionValues.getD []).zipIdx.map fun entry => {
        dataFileId := fileId
        tableId := tableId
        partitionKeyIndex := entry.2
        partitionValue := entry.1 }
    columnStats := changes.columnStats ++ file.columnStats.entries.map fun entry => {
      dataFileId := fileId
      tableId := tableId
      columnId := state.columnId entry.1
      columnSizeBytes := entry.2.sizeBytes
      nullCount := entry.2.nullCount
      minValue := entry.2.minValue.map env.formatValue
      maxValue := entry.2.maxValue.map env.formatValue
      containsNan := entry.2.containsNan } }, state)

def writeTableData (env : Environment) (changes : TransactionChanges) (state : CommitState)
    (tableRef : TableRef) (dataFiles : List CommitDataFile) :
    DucklakeResult (TransactionChanges × CommitState) := do
  let (tableId, state) := state.tableId tableRef
  let (changes, state) ← dataFiles.foldlM (addDataFile env tableRef tableId) (changes, state)
  .ok (changes.addWrittenColumns tableId (dataFiles.flatMap fun file =>
    file.columnStats.keys.map state.columnId), state)

def addInlineBatch (tableId : Int) (collected : TransactionChanges × CommitState)
    (data : CommitInlineData) : TransactionChanges × CommitState :=
  let (changes, state) := collected
  ({ changes with
    inlineData := changes.inlineData ++ [(tableId, {
      rowIdStart := (state.tableStatsOf tableId).nextRowId
      beginSnapshot := state.snapshotId
      data := data.recordBatch })] },
    updateTableStatsFromInlineData state tableId data)

def writeTableInlineData (changes : TransactionChanges) (state : CommitState)
    (tableRef : TableRef) (data : List CommitInlineData) : TransactionChanges × CommitState :=
  let (tableId, state) := state.tableId tableRef
  let (changes, state) := data.foldl (addInlineBatch tableId) (changes, state)
  (changes.addWrittenColumns tableId (data.flatMap fun batch =>
    batch.columnStats.keys.map state.columnId), state)

/-- `create_inlined_data_table`: nothing happens when the final schema cannot be inlined. -/
def createInlinedTable (env : Environment) (collected : TransactionChanges × CommitState)
    (tableRef : TableRef) : TransactionChanges × CommitState :=
  let (tableId, state) := collected.2.tableId tableRef
  let schema := state.tableSchema tableRef
  if env.dialect.supportsDataInlining schema then
    ({ collected.1 with inlineTables := collected.1.inlineTables.insert tableId schema }, state)
  else (collected.1, state)

end Ducklake.Transaction.Executors
