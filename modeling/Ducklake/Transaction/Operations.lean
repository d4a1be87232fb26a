import Ducklake.Catalog.Load
import Ducklake.Io.Schema
import Ducklake.Io.Statistics
import Ducklake.Transaction.Changes.Change
import Ducklake.Transaction.CommitState

/-!
# Operations of a transaction

The methods of `Transaction` in `schema.rs`, `table.rs`, `view.rs` and `macro_.rs`.  Each of
them changes the transaction's local catalog and records what `commit` has to write.
-/

set_option autoImplicit false

namespace Ducklake

open Lib Utils Caches Spec Transaction

structure Transaction where
  /-- The snapshot at which the transaction was started. -/
  snapshot : SnapshotInfo
  /-- The catalog of that snapshot. -/
  startCatalog : Catalog
  /-- The transaction-local catalog. -/
  catalog : Catalog
  /-- The changes performed within this transaction. -/
  changes : List Change

/-- Strategy when the presence or absence of an entity conflicts with the operation. -/
inductive IfExistsStrategy where
  | fail
  | skip
  deriving DecidableEq, Repr

namespace Transaction

def new (snapshot : SnapshotInfo) (catalog : Catalog) : Transaction where
  snapshot := snapshot
  startCatalog := catalog
  catalog := catalog
  changes := []

def record (tx : Transaction) (catalog : Catalog) (change : Change) : Transaction :=
  { tx with catalog := catalog, changes := tx.changes ++ [change] }

/-! ## Views and macros -/

def createView (env : Environment) (name : QualifiedName) (sql : Text)
    (columnAliases : Option (List Text)) (tags : Option Tags) (ifExists : IfExistsStrategy)
    (tx : Transaction) : DucklakeResult Transaction :=
  if ifExists = .skip ∧ (tx.catalog.viewRef name).isOk then .ok tx
  else do
    let sql ← env.parseSelectQuery sql
    let tags := tags.getD default
    let dialect := "duckdb".toList
    let ((schemaRef, viewRef), catalog) ← tx.catalog.addView {
      name := name, sql := sql, dialect := dialect, columnAliases := columnAliases, tags := tags }
    .ok (tx.record catalog
      (.createView schemaRef viewRef name sql dialect columnAliases tags))

def deleteView (name : QualifiedName) (ifNotExists : IfExistsStrategy) (tx : Transaction) :
    DucklakeResult Transaction :=
  if ifNotExists = .skip ∧ ¬(tx.catalog.viewRef name).isOk then .ok tx
  else do
    let viewRef ← tx.catalog.viewRef name
    let catalog ← tx.catalog.deleteView viewRef
    .ok (tx.record catalog (.deleteView viewRef))

def createMacro (env : Environment) (name : QualifiedName) (macroType : MacroType)
    (implementations : List MacroImplementation) (ifExists : IfExistsStrategy)
    (tx : Transaction) : DucklakeResult Transaction :=
  if ifExists = .skip ∧ (tx.catalog.macroRef name macroType).isOk then .ok tx
  else do
    let implementations ← env.validateImplementations macroType implementations
    let ((schemaRef, macroRef), catalog) ← tx.catalog.addMacro {
      name := name, macroType := macroType, implementations := implementations }
    .ok (tx.record catalog (.createMacro schemaRef macroRef name macroType implementations))

def deleteMacro (name : QualifiedName) (macroType : MacroType)
    (ifNotExists : IfExistsStrategy) (tx : Transaction) : DucklakeResult Transaction :=
  if ifNotExists = .skip ∧ ¬(tx.catalog.macroRef name macroType).isOk then .ok tx
  else do
    let macroRef ← tx.catalog.macroRef name macroType
    let catalog ← tx.catalog.deleteMacro macroRef
    .ok (tx.record catalog (.deleteMacro macroRef macroType))

/-! ## Lifecycle of tables -/

/-- One more than the ids of the transferred and the retired columns. -/
def transferNextColumnId (columns : List Column) (retired : List DucklakeColumn) : Int :=
  (((columns.flatMap Column.flatten).filterMap fun flat => flat.column.fieldId) ++
    retired.map DucklakeColumn.columnId).max?.getD 0 + 1

def createTableInner (env : Environment) (name : QualifiedName) (columns : List Column)
    (partitionColumns : Option Partition) (sortInfo : Option SortInfo) (path : Option Text)
    (tags : Option Tags) (ifExists : IfExistsStrategy)
    (retiredColumns : Option (List DucklakeColumn)) (tx : Transaction) :
    DucklakeResult Transaction :=
  if ifExists = .skip ∧ (tx.catalog.tableRef name).isOk then .ok tx
  else do
    let path ← env.parsePath (path.getD name.name)
    let path := env.ensureDirectory path
    let tags := tags.getD default
    let schema ← Schema.ofColumns columns
    let (added, catalog) ← tx.catalog.addTable {
        name := name
        schema := schema
        partitioning := partitionColumns
        sortInfo := sortInfo
        tags := tags } path
      (retiredColumns.map (transferNextColumnId columns))
    .ok (tx.record catalog (.createTable added.schemaRef added.tableRef added.columnRefs
      added.partitionColumnRefs name columns (retiredColumns.getD []) partitionColumns sortInfo
      path tags))

def createTable (env : Environment) (name : QualifiedName) (columns : List Column)
    (partitionColumns : Option Partition) (sortInfo : Option SortInfo) (path : Option Text)
    (tags : Option Tags) (ifExists : IfExistsStrategy) (tx : Transaction) :
    DucklakeResult Transaction :=
  createTableInner env name columns partitionColumns sortInfo path tags ifExists none tx

/-- Create a table with the source's field ids, reserving the ids of its dropped columns. -/
def createTransferTable (env : Environment) (name : QualifiedName) (info : TableInfo)
    (retiredColumns : List DucklakeColumn) (tx : Transaction) : DucklakeResult Transaction :=
  createTableInner env name info.schema.columns.values info.partitioning info.sortInfo none
    (some info.tags) .fail (some retiredColumns) tx

def deleteTableInner (name : QualifiedName) (detachFiles : Bool) (tx : Transaction) :
    DucklakeResult Transaction := do
  let tableRef ← tx.catalog.tableRef name
  let catalog ← tx.catalog.deleteTable tableRef
  .ok (tx.record catalog (.deleteTable tableRef detachFiles))

def deleteTable (name : QualifiedName) (ifNotExists : IfExistsStrategy) (tx : Transaction) :
    DucklakeResult Transaction :=
  if ifNotExists = .skip ∧ ¬(tx.catalog.tableRef name).isOk then .ok tx
  else deleteTableInner name false tx

/-! ## Schemas -/

def createSchema (env : Environment) (name : Text) (path : Option Text)
    (ifExists : IfExistsStrategy) (tx : Transaction) : DucklakeResult Transaction :=
  if ifExists = .skip ∧ (tx.catalog.schemaRef name).isOk then .ok tx
  else do
    let path ← env.parsePath (path.getD name)
    let path := env.ensureDirectory path
    let (schemaRef, catalog) ← tx.catalog.addSchema name path
    .ok (tx.record catalog (.createSchema schemaRef name path))

def deleteSchemaContents (name : Text) (tx : Transaction) : DucklakeResult Transaction := do
  let schemaRef ← tx.catalog.schemaRef name
  let tx ← ((tx.catalog.listTables schemaRef).map fun ref => (tx.catalog.table ref).name).foldlM
    (fun tx name => deleteTable name .fail tx) tx
  let tx ← ((tx.catalog.listViews schemaRef).map fun ref => (tx.catalog.view ref).name).foldlM
    (fun tx name => deleteView name .fail tx) tx
  ((tx.catalog.listMacros schemaRef).map fun ref =>
    ((tx.catalog.macro_ ref).name, (tx.catalog.macro_ ref).macroType)).foldlM
    (fun tx entry => deleteMacro entry.1 entry.2 .fail tx) tx

def emptySchema (name : Text) (cascade : Bool) (tx : Transaction) : DucklakeResult Transaction :=
  if cascade then deleteSchemaContents name tx else .ok tx

def deleteSchema (name : Text) (cascade : Bool) (ifNotExists : IfExistsStrategy)
    (tx : Transaction) : DucklakeResult Transaction :=
  if ifNotExists = .skip ∧ ¬(tx.catalog.schemaRef name).isOk then .ok tx
  else do
    let tx ← emptySchema name cascade tx
    let schemaRef ← tx.catalog.schemaRef name
    let catalog ← tx.catalog.deleteSchema schemaRef
    .ok (tx.record catalog (.deleteSchema schemaRef))

/-! ## Data -/

/-- The statistics of a written column, unless they show a null that the column forbids. -/
def commitColumnStats {α : Type} (catalog : Catalog) (tableRef : TableRef)
    (nullCount : α → Option Nat) (entry : Int × α) : DucklakeResult (ColumnRef × α) :=
  match (catalog.tableSchema tableRef).columnsById.get? entry.1 with
  | some column =>
      if !column.nullable ∧ (nullCount entry.2).getD 0 > 0 then
        .error (.invalidNullValue column.name)
      else (catalog.columnRefById tableRef entry.1).map fun ref => (ref, entry.2)
  | none => (catalog.columnRefById tableRef entry.1).map fun ref => (ref, entry.2)

/-- The partition values of a file: the user's, if they cover the table's partition columns. -/
def commitPartitionValues (env : Environment) (partitioning : Option Partition)
    (file : TransferDataFile) : Option (List (Option Text)) :=
  match file.partitionValues, partitioning, file.dataFile.partitionValues with
  | some values, _, _ => some values
  | none, some target, some values => target.mapM fun column =>
      (values.get? column.column).map fun value => value.map env.formatValue
  | none, _, _ => none

def commitDeleteFile (env : Environment) (file : ScanDeleteFile) :
    DucklakeResult CommitDeleteFile := do
  let path ← env.parsePath file.path
  .ok {
    path := path
    encryptionKey := file.encryptionKey
    numDeletes := file.numDeletes
    fileSizeBytes := file.fileSizeBytes
    footerSizeBytes := file.footerSizeBytes }

def commitDataFile (env : Environment) (catalog : Catalog) (tableRef : TableRef)
    (entry : TransferDataFile × DucklakePath × DataFileStatistics) :
    DucklakeResult CommitDataFile := do
  let (file, path, stats) := entry
  let columnStats ← stats.columnStats.entries.mapM
    (commitColumnStats catalog tableRef FileColumnStats.nullCount)
  let deleteFiles ← file.deleteFiles.mapM (commitDeleteFile env)
  .ok {
    path := path
    encryptionKey := file.dataFile.encryptionKey
    partitionValues := commitPartitionValues env (catalog.partitioning tableRef) file
    numRows := stats.numRows
    fileSizeBytes := stats.fileSizeBytes
    footerSizeBytes := stats.footerSizeBytes
    columnStats := IndexMap.ofList columnStats
    deleteFiles := deleteFiles
    inlineDeletes := file.inlineDeletes }

def fileStatistics (env : Environment) (basePaths : List DucklakePath)
    (entry : TransferDataFile × DucklakePath) : DucklakeResult DataFileStatistics :=
  match entry.1.dataFile.statistics with
  | some stats => .ok stats
  | none => env.readFileStatistics (basePaths ++ [entry.2]) entry.1.dataFile.encryptionKey

/-- The paths of the schema and the table that a file's path is relative to. -/
def tableBasePaths (catalog : Catalog) (tableRef : TableRef) : DucklakeResult (List DucklakePath) := do
  let schemaRef ← catalog.parentSchema (catalog.table tableRef).name
  .ok [(catalog.schema schemaRef).path, (catalog.table tableRef).path]

def writeTableTransferDataFiles (env : Environment) (name : QualifiedName)
    (dataFiles : List TransferDataFile) (tx : Transaction) : DucklakeResult Transaction := do
  let tableRef ← tx.catalog.tableRef name
  let basePaths ← tableBasePaths tx.catalog tableRef
  if dataFiles.any fun file => file.dataFile.encryptionKey.isSome ≠ env.encrypted then
    .error (.invalidChanges (if env.encrypted then
      "cannot register an unencrypted file in an encrypted catalog".toList
      else "cannot register an encrypted file in an unencrypted catalog".toList))
  else
    let paths ← dataFiles.mapM fun file => env.parsePath file.dataFile.path
    let statistics ← (dataFiles.zip paths).mapM (fileStatistics env basePaths)
    let commitDataFiles ← (dataFiles.zip (paths.zip statistics)).mapM
      (commitDataFile env tx.catalog tableRef)
    .ok (tx.record tx.catalog (.writeTableDataFiles tableRef commitDataFiles))

def writeTableDataFiles (env : Environment) (name : QualifiedName)
    (dataFiles : List WriteDataFile) (tx : Transaction) : DucklakeResult Transaction :=
  writeTableTransferDataFiles env name (dataFiles.map fun file => {
    dataFile := file, partitionValues := none, deleteFiles := [], inlineDeletes := [] }) tx

def commitInlineData (env : Environment) (catalog : Catalog) (tableRef : TableRef)
    (batch : Io.RecordBatch) : DucklakeResult CommitInlineData := do
  let schema := catalog.tableSchema tableRef
  let batch ← Io.matchToSchema env batch schema
  let columnStats ← (Io.computeRecordBatchStatistics schema batch).entries.mapM
    (commitColumnStats catalog tableRef ArrayColumnStats.nullCount)
  .ok { recordBatch := batch, columnStats := IndexMap.ofList columnStats }

def writeTableInlineData (env : Environment) (name : QualifiedName)
    (data : List Io.RecordBatch) (tx : Transaction) : DucklakeResult Transaction := do
  let tableRef ← tx.catalog.tableRef name
  if env.dialect.supportsDataInlining (tx.catalog.tableSchema tableRef) then
    let data ← data.mapM (commitInlineData env tx.catalog tableRef)
    .ok (tx.record tx.catalog (.writeTableInlineData tableRef data))
  else .error (.invalidChanges
    "cannot inline data for this table; write Parquet files instead".toList)

/-! ## Metadata of tables -/

def renameTable (oldName : QualifiedName) (newName : Text) (tx : Transaction) :
    DucklakeResult Transaction :=
  if oldName.name = newName then .ok tx
  else do
    let tableRef ← tx.catalog.tableRef oldName
    let catalog ← tx.catalog.renameTable tableRef newName
    .ok (tx.record catalog
      (.renameTable tableRef { schema := oldName.schema, name := newName }))

def updateTablePartitioning (name : QualifiedName) (partitionColumns : Option Partition)
    (tx : Transaction) : DucklakeResult Transaction := do
  let tableRef ← tx.catalog.tableRef name
  let (partitionColumnRefs, catalog) ← tx.catalog.updatePartitioning tableRef partitionColumns
  .ok (tx.record catalog (.updateTablePartitioning tableRef partitionColumnRefs partitionColumns))

def updateTableSortInfo (name : QualifiedName) (expressions : Option SortInfo)
    (tx : Transaction) : DucklakeResult Transaction := do
  let tableRef ← tx.catalog.tableRef name
  let catalog ← tx.catalog.updateSortInfo tableRef expressions
  .ok (tx.record catalog (.updateTableSortInfo tableRef expressions))

def addTableTag (name : QualifiedName) (key value : Text) (tx : Transaction) :
    DucklakeResult Transaction := do
  let tableRef ← tx.catalog.tableRef name
  let catalog := tx.catalog.modifyTable tableRef fun table =>
    { table with tags := table.tags.insert key value }
  .ok (tx.record catalog (.addTableTag tableRef { key := key, value := value }))

def removeTableTag (name : QualifiedName) (key : Text) (tx : Transaction) :
    DucklakeResult Transaction := do
  let tableRef ← tx.catalog.tableRef name
  let tags ← Catalog.removeTag (tx.catalog.table tableRef).tags key
  let catalog := tx.catalog.modifyTable tableRef fun table => { table with tags := tags }
  .ok (tx.record catalog (.removeTableTag tableRef key))

/-! ## Columns -/

def columnByPath (catalog : Catalog) (name : QualifiedName) (column : List Text) :
    DucklakeResult ColumnRef := do
  let tableRef ← catalog.tableRef name
  catalog.columnRef tableRef column

def recordColumn (tx : Transaction) (catalog : Catalog) (ref : ColumnRef) : Transaction :=
  tx.record catalog (.updateTableColumn (catalog.parentRef ref) ref (catalog.columnInfo ref))

def addTableColumn (db : Database) (name : QualifiedName) (column : Column)
    (parentPath : List Text) (tx : Transaction) : DucklakeResult Transaction := do
  let tableRef ← tx.catalog.tableRef name
  let catalog ← tx.catalog.ensureNextColumnId db tableRef
  let ((parentColumnRef, columnRefs), catalog) ← catalog.addColumn tableRef parentPath column
  .ok (tx.record catalog (.addTableColumn parentColumnRef columnRefs column))

def removeTableColumn (name : QualifiedName) (column : List Text) (tx : Transaction) :
    DucklakeResult Transaction := do
  let ref ← columnByPath tx.catalog name column
  let (columnRefs, catalog) ← tx.catalog.removeColumn ref
  .ok { tx with
    catalog := catalog
    changes := tx.changes ++ columnRefs.map .removeTableColumn }

def renameTableColumn (name : QualifiedName) (column : List Text) (newName : Text)
    (tx : Transaction) : DucklakeResult Transaction :=
  match column.getLast? with
  | none => .error (.panicked "column.0.last()".toList)
  | some last =>
      if last = newName then .ok tx
      else do
        let ref ← columnByPath tx.catalog name column
        let catalog ← tx.catalog.renameColumn ref newName
        let tx := tx.recordColumn catalog ref
        if catalog.sortInfoIncludesColumn ref then
          .ok (tx.record catalog
            (.updateTableSortInfo ref.tableRef (some ((catalog.sortInfo ref.tableRef).getD []))))
        else .ok tx

def updateTableColumnDefault (name : QualifiedName) (column : List Text)
    (defaultValue : ColumnDefault) (tx : Transaction) : DucklakeResult Transaction := do
  let ref ← columnByPath tx.catalog name column
  .ok (tx.recordColumn
    (tx.catalog.modifyColumn ref fun column => { column with defaultValue := defaultValue }) ref)

/-- Whether the statistics of the start snapshot show nulls in a column. -/
def showsNulls (stats : TableStatsMap) (tableId columnId : Int) : Bool :=
  match stats.get? tableId with
  | none => false
  | some table =>
      match table.columnStatsOf columnId with
      | none => false
      | some column => column.containsNull.getD false

/-- `stats` are the statistics of the start snapshot, loaded when they are needed. -/
def updateTableColumnNullability (stats : DucklakeResult TableStatsMap) (name : QualifiedName)
    (column : List Text) (nullable : Bool) (tx : Transaction) : DucklakeResult Transaction := do
  let ref ← columnByPath tx.catalog name column
  let tx' := tx.recordColumn
    (tx.catalog.modifyColumn ref fun column => { column with nullable := nullable }) ref
  if (tx.catalog.column ref).nullable = nullable then .ok tx
  else if nullable then .ok tx'
  else
    let stats ← stats
    match (tx.catalog.table ref.tableRef).id with
    | none => .error (.panicked "table.id()".toList)
    | some tableId =>
        if showsNulls stats tableId (tx.catalog.column ref).id then
          .error (.invalidNullabilityChange (formatIdentifier column))
        else .ok tx'

/-! ## Data types of columns -/

/-- `EitherOrBoth` -/
inductive EitherOrBoth (α β : Type) where
  | both (left : α) (right : β)
  | left (left : α)
  | right (right : β)

/-- `merge_join_by` over sorted items; the fuel is the number of items. -/
def mergeJoin {α β : Type} (compareKeys : α → β → Ordering) :
    Nat → List α → List β → List (EitherOrBoth α β)
  | 0, _, _ => []
  | _ + 1, [], rights => rights.map .right
  | _ + 1, lefts, [] => lefts.map .left
  | fuel + 1, left :: lefts, right :: rights =>
      match compareKeys left right with
      | .eq => .both left right :: mergeJoin compareKeys fuel lefts rights
      | .lt => .left left :: mergeJoin compareKeys fuel lefts (right :: rights)
      | .gt => .right right :: mergeJoin compareKeys fuel (left :: lefts) rights

/-- `iter_index_map_diff` and `iter_vec_diff`: both sides sorted by name. -/
def columnDiff (old new : List Column) : List (EitherOrBoth Column Column) :=
  let sort := sortByKey fun (a b : Column) => compareText a.name b.name ≠ .gt
  mergeJoin (fun a b => compareText a.name b.name) (old.length + new.length) (sort old) (sort new)

/-- `update_table_column_dtype_recursive`; the fuel bounds the depth of the types. -/
def updateDtypeRecursive (db : Database) (name : QualifiedName) :
    Nat → List Text → DataType → DataType → Transaction → DucklakeResult Transaction
  | 0, _, _, _, _ => .error (.panicked "update_table_column_dtype_recursive".toList)
  | fuel + 1, path, existing, target, tx =>
      if existing = target then .ok tx
      else
        match existing, target with
        | .primitive source, .primitive type =>
            if source.canPromoteTo type then do
              let ref ← columnByPath tx.catalog name path
              .ok (tx.recordColumn (tx.catalog.modifyColumn ref fun column =>
                { column with dtype := .primitive type }) ref)
            else .error (.invalidCast existing.display target.display)
        | .struct oldFields, .struct newFields =>
            (columnDiff oldFields newFields).foldlM (fun tx item =>
              match item with
              | .both old new =>
                  updateDtypeRecursive db name fuel (path ++ [old.name]) old.dtype new.dtype tx
              | .left old => removeTableColumn name (path ++ [old.name]) tx
              | .right new => addTableColumn db name new path tx) tx
        | .list oldInner, .list newInner =>
            updateDtypeRecursive db name fuel (path ++ ["element".toList]) oldInner.dtype
              newInner.dtype tx
        | .map oldKey oldValue, .map newKey newValue => do
            let tx ← updateDtypeRecursive db name fuel (path ++ ["key".toList]) oldKey.dtype
              newKey.dtype tx
            updateDtypeRecursive db name fuel (path ++ ["value".toList]) oldValue.dtype
              newValue.dtype tx
        | _, _ => .error (.invalidCast existing.display target.display)

def updateTableColumnDtype (db : Database) (name : QualifiedName) (column : List Text)
    (dtype : DataType) (tx : Transaction) : DucklakeResult Transaction := do
  let ref ← columnByPath tx.catalog name column
  let existing := tx.catalog.columnInfo ref
  updateDtypeRecursive db name existing.flatten.length column existing.dtype dtype tx

/-- `update_table_schema`: the guard of the source reverts everything when a step fails. -/
def updateTableSchema (db : Database) (stats : DucklakeResult TableStatsMap)
    (name : QualifiedName) (newColumns : List Column) (tx : Transaction) :
    DucklakeResult Transaction := do
  let tableRef ← tx.catalog.tableRef name
  let oldColumns := (tx.catalog.tableSchema tableRef).columns.values
  let schema ← Schema.ofColumns newColumns
  (columnDiff oldColumns schema.columns.values).foldlM (fun tx item =>
    match item with
    | .both _ column => do
        let tx ← updateTableColumnDtype db name [column.name] column.dtype tx
        let tx ← updateTableColumnDefault name [column.name] column.defaultValue tx
        updateTableColumnNullability stats name [column.name] column.nullable tx
    | .left column => removeTableColumn name [column.name] tx
    | .right column => addTableColumn db name column [] tx) tx

/-! ## Tags of columns -/

def addTableColumnTag (name : QualifiedName) (column : List Text) (key value : Text)
    (tx : Transaction) : DucklakeResult Transaction := do
  let ref ← columnByPath tx.catalog name column
  let catalog := tx.catalog.modifyColumn ref fun column =>
    { column with tags := column.tags.insert key value }
  .ok (tx.record catalog (.addTableColumnTag ref { key := key, value := value }))

def removeTableColumnTag (name : QualifiedName) (column : List Text) (key : Text)
    (tx : Transaction) : DucklakeResult Transaction := do
  let ref ← columnByPath tx.catalog name column
  let tags ← Catalog.removeTag (tx.catalog.column ref).tags key
  let catalog := tx.catalog.modifyColumn ref fun column => { column with tags := tags }
  .ok (tx.record catalog (.removeTableColumnTag ref key))

end Transaction

/-! ## Operations as data -/

inductive Operation where
  | createSchema (name : Text) (path : Option Text) (ifExists : IfExistsStrategy)
  | deleteSchema (name : Text) (cascade : Bool) (ifNotExists : IfExistsStrategy)
  | createTable (name : QualifiedName) (columns : List Column)
      (partitionColumns : Option Partition) (sortInfo : Option SortInfo) (path : Option Text)
      (tags : Option Tags) (ifExists : IfExistsStrategy)
  | createTransferTable (name : QualifiedName) (info : TableInfo)
      (retiredColumns : List DucklakeColumn)
  | deleteTable (name : QualifiedName) (ifNotExists : IfExistsStrategy)
  | deleteTableTransferringFileOwnership (name : QualifiedName)
  | writeTableDataFiles (name : QualifiedName) (dataFiles : List WriteDataFile)
  | writeTableTransferDataFiles (name : QualifiedName) (dataFiles : List TransferDataFile)
  | writeTableInlineData (name : QualifiedName) (data : List Io.RecordBatch)
  | renameTable (oldName : QualifiedName) (newName : Text)
  | updateTableSchema (name : QualifiedName) (columns : List Column)
  | addTableColumn (name : QualifiedName) (column : Column) (parentPath : List Text)
  | removeTableColumn (name : QualifiedName) (column : List Text)
  | renameTableColumn (name : QualifiedName) (column : List Text) (newName : Text)
  | updateTableColumnDtype (name : QualifiedName) (column : List Text) (dtype : DataType)
  | updateTableColumnDefault (name : QualifiedName) (column : List Text)
      (defaultValue : ColumnDefault)
  | updateTableColumnNullability (name : QualifiedName) (column : List Text) (nullable : Bool)
  | updateTablePartitioning (name : QualifiedName) (partitionColumns : Option Partition)
  | updateTableSortInfo (name : QualifiedName) (expressions : Option SortInfo)
  | addTableTag (name : QualifiedName) (key value : Text)
  | removeTableTag (name : QualifiedName) (key : Text)
  | addTableColumnTag (name : QualifiedName) (column : List Text) (key value : Text)
  | removeTableColumnTag (name : QualifiedName) (column : List Text) (key : Text)
  | createView (name : QualifiedName) (sql : Text) (columnAliases : Option (List Text))
      (tags : Option Tags) (ifExists : IfExistsStrategy)
  | deleteView (name : QualifiedName) (ifNotExists : IfExistsStrategy)
  | createMacro (name : QualifiedName) (macroType : MacroType)
      (implementations : List MacroImplementation) (ifExists : IfExistsStrategy)
  | deleteMacro (name : QualifiedName) (macroType : MacroType) (ifNotExists : IfExistsStrategy)

namespace Operation

/-- Whether only a transfer of tables between two DuckLakes calls the method. -/
def isTransfer : Operation → Bool
  | createTransferTable .. => true
  | deleteTableTransferringFileOwnership .. => true
  | writeTableTransferDataFiles .. => true
  | _ => false

/-- Call the method; `db` and `stats` are what it reads from the metadata database. -/
def execute (env : Environment) (db : Database) (stats : DucklakeResult TableStatsMap)
    (tx : Transaction) : Operation → DucklakeResult Transaction
  | createSchema name path ifExists => tx.createSchema env name path ifExists
  | deleteSchema name cascade ifNotExists => tx.deleteSchema name cascade ifNotExists
  | createTable name columns partitionColumns sortInfo path tags ifExists =>
      tx.createTable env name columns partitionColumns sortInfo path tags ifExists
  | createTransferTable name info retiredColumns =>
      tx.createTransferTable env name info retiredColumns
  | deleteTable name ifNotExists => tx.deleteTable name ifNotExists
  | deleteTableTransferringFileOwnership name => tx.deleteTableInner name true
  | writeTableDataFiles name dataFiles => tx.writeTableDataFiles env name dataFiles
  | writeTableTransferDataFiles name dataFiles =>
      tx.writeTableTransferDataFiles env name dataFiles
  | writeTableInlineData name data => tx.writeTableInlineData env name data
  | renameTable oldName newName => tx.renameTable oldName newName
  | updateTableSchema name columns => tx.updateTableSchema db stats name columns
  | addTableColumn name column parentPath => tx.addTableColumn db name column parentPath
  | removeTableColumn name column => tx.removeTableColumn name column
  | renameTableColumn name column newName => tx.renameTableColumn name column newName
  | updateTableColumnDtype name column dtype => tx.updateTableColumnDtype db name column dtype
  | updateTableColumnDefault name column defaultValue =>
      tx.updateTableColumnDefault name column defaultValue
  | updateTableColumnNullability name column nullable =>
      tx.updateTableColumnNullability stats name column nullable
  | updateTablePartitioning name partitionColumns =>
      tx.updateTablePartitioning name partitionColumns
  | updateTableSortInfo name expressions => tx.updateTableSortInfo name expressions
  | addTableTag name key value => tx.addTableTag name key value
  | removeTableTag name key => tx.removeTableTag name key
  | addTableColumnTag name column key value => tx.addTableColumnTag name column key value
  | removeTableColumnTag name column key => tx.removeTableColumnTag name column key
  | createView name sql columnAliases tags ifExists =>
      tx.createView env name sql columnAliases tags ifExists
  | deleteView name ifNotExists => tx.deleteView name ifNotExists
  | createMacro name macroType implementations ifExists =>
      tx.createMacro env name macroType implementations ifExists
  | deleteMacro name macroType ifNotExists => tx.deleteMacro name macroType ifNotExists

/-- The transaction after a method that returned an error: only the next column id that
`add_table_column` fetched for its table stays. -/
def afterError (db : Database) (tx : Transaction) : Operation → Transaction
  | addTableColumn name _ _ =>
      match tx.catalog.tableRef name >>= tx.catalog.ensureNextColumnId db with
      | .ok catalog => { tx with catalog := catalog }
      | .error _ => tx
  | _ => tx

end Operation

end Ducklake
