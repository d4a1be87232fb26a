import Mathlib.Logic.Relation
import Ducklake.Transaction.Attempt
import Ducklake.Transaction.Recorded

/-!
# How an attempt collects rows

Applying a set of changes is a sequence of small steps.  A step resolves an object to its id, or
collects the rows of one change for objects that are resolved already.
-/

set_option autoImplicit false

namespace Ducklake.Transaction

open Lib Caches Spec CommitState

/-! ## Parts of changes -/

namespace Change

def partitions : Change → Option (TableRef × List ColumnRef × Partition)
  | createTable _ tableRef _ (some refs) _ _ _ (some partition) _ _ _ =>
      some (tableRef, refs, partition)
  | updateTablePartitioning tableRef (some refs) (some partition) =>
      some (tableRef, refs, partition)
  | _ => none

def sorts : Change → Option (TableRef × SortInfo)
  | createTable _ tableRef _ _ _ _ _ _ sortInfo _ _ => sortInfo.map fun info => (tableRef, info)
  | updateTableSortInfo tableRef sortInfo => sortInfo.map fun info => (tableRef, info)
  | _ => none

def tableTagEdit : Change → Option (TableRef × TagChange)
  | addTableTag tableRef tag => some (tableRef, { key := tag.key, value := some tag.value })
  | removeTableTag tableRef key => some (tableRef, { key := key, value := none })
  | _ => none

def columnTagEdit : Change → Option (ColumnRef × TagChange)
  | addTableColumnTag columnRef tag =>
      some (columnRef, { key := tag.key, value := some tag.value })
  | removeTableColumnTag columnRef key => some (columnRef, { key := key, value := none })
  | _ => none

end Change

/-! ## Steps -/

inductive Collects (env : Environment) (changes : List Change) :
    TransactionChanges × CommitState → TransactionChanges × CommitState → Prop where
  | resolved {rows : TransactionChanges} {state : CommitState} (key : ObjectRef)
      (present : state.catalog.Has key) :
      Collects env changes (rows, state) (rows, (state.objectId key).2)
  | createdSchema {rows : TransactionChanges} {state : CommitState} {schemaRef : SchemaRef}
      {name : Text} {path : DucklakePath} {schemaId : Int}
      (member : .createSchema schemaRef name path ∈ changes)
      (found : state.catalog.idOf (.schema schemaRef) = some schemaId) :
      Collects env changes (rows, state) ({ rows with
        newSchemas := rows.newSchemas ++ [{
          schemaId := schemaId
          schemaName := name
          path := path.display
          pathIsRelative := path.isRelative }] }, state)
  | deletedSchema {rows : TransactionChanges} {state : CommitState} {schemaRef : SchemaRef}
      {schemaId : Int}
      (member : .deleteSchema schemaRef ∈ changes)
      (found : state.catalog.idOf (.schema schemaRef) = some schemaId) :
      Collects env changes (rows, state)
        ({ rows with droppedSchemas := rows.droppedSchemas ++ [schemaId] }, state)
  | createdView {rows : TransactionChanges} {state : CommitState} {schemaRef : SchemaRef}
      {viewRef : ViewRef} {name : QualifiedName} {sql dialect : Text}
      {columnAliases : Option (List Text)} {tags : Tags} {viewId schemaId : Int}
      (member : .createView schemaRef viewRef name sql dialect columnAliases tags ∈ changes)
      (found : state.catalog.idOf (.view viewRef) = some viewId)
      (located : state.catalog.idOf (.schema schemaRef) = some schemaId) :
      Collects env changes (rows, state) ({ rows with
        newViews := rows.newViews ++ [{
          viewId := viewId
          schemaId := schemaId
          viewName := name.name
          dialect := dialect
          sql := sql
          columnAliases := some (Utils.formatIdentifierList (columnAliases.getD [])) }]
        newTags := rows.newTags ++ Executors.objectTagRows viewId tags }, state)
  | deletedView {rows : TransactionChanges} {state : CommitState} {viewRef : ViewRef}
      {viewId : Int}
      (member : .deleteView viewRef ∈ changes)
      (found : state.catalog.idOf (.view viewRef) = some viewId) :
      Collects env changes (rows, state)
        ({ rows with droppedViews := rows.droppedViews ++ [viewId] }, state)
  | createdMacro {rows : TransactionChanges} {state : CommitState} {schemaRef : SchemaRef}
      {macroRef : MacroRef} {name : QualifiedName} {macroType : MacroType}
      {implementations : List MacroImplementation} {macroId schemaId : Int}
      (member : .createMacro schemaRef macroRef name macroType implementations ∈ changes)
      (found : state.catalog.idOf (.macro_ macroRef) = some macroId)
      (located : state.catalog.idOf (.schema schemaRef) = some schemaId) :
      Collects env changes (rows, state) ({ rows with
        newMacros := rows.newMacros ++ [{
          schemaId := schemaId
          macroId := macroId
          macroName := name.name }]
        newMacroImpls := rows.newMacroImpls ++
          Executors.macroImplRows macroId macroType implementations
        newMacroParameters := rows.newMacroParameters ++
          Executors.macroParameterRows macroId implementations }, state)
  | deletedMacro {rows : TransactionChanges} {state : CommitState} {macroRef : MacroRef}
      {macroType : MacroType} {macroId : Int}
      (member : .deleteMacro macroRef macroType ∈ changes)
      (found : state.catalog.idOf (.macro_ macroRef) = some macroId) :
      Collects env changes (rows, state)
        ({ rows with droppedMacros := rows.droppedMacros ++ [macroId] }, state)
  | createdTable {rows : TransactionChanges} {state : CommitState} {schemaRef : SchemaRef}
      {tableRef : TableRef} {columnRefs : List (List ColumnRef)}
      {partitionColumnRefs : Option (List ColumnRef)} {name : QualifiedName}
      {columns : List Column} {retiredColumns : List DucklakeColumn}
      {partitionColumns : Option Partition} {sortInfo : Option SortInfo} {path : DucklakePath}
      {tags : Tags} {tableId schemaId : Int}
      {built : List (List DucklakeColumn × List DucklakeColumnTag)}
      (member : .createTable schemaRef tableRef columnRefs partitionColumnRefs name columns
        retiredColumns partitionColumns sortInfo path tags ∈ changes)
      (found : state.catalog.idOf (.table tableRef) = some tableId)
      (located : state.catalog.idOf (.schema schemaRef) = some schemaId)
      (success : Executors.tableColumnRows env state tableId (columns.zip columnRefs) =
        .ok built) :
      Collects env changes (rows, state) ({ rows with
        newTables := rows.newTables ++ [{
          tableId := tableId
          schemaId := schemaId
          tableName := name.name
          path := path.display
          pathIsRelative := true }]
        newColumns := rows.newColumns ++ (built.flatMap Prod.fst).map (.new state.snapshotId) ++
          retiredColumns.map fun column => {
            beginSnapshot := state.snapshotId
            endSnapshot := some state.snapshotId
            entity := { column with tableId := tableId } }
        newColumnTags := rows.newColumnTags ++ built.flatMap Prod.snd }, state)
  | tagged {rows : TransactionChanges} {state : CommitState} {schemaRef : SchemaRef}
      {tableRef : TableRef} {columnRefs : List (List ColumnRef)}
      {partitionColumnRefs : Option (List ColumnRef)} {name : QualifiedName}
      {columns : List Column} {retiredColumns : List DucklakeColumn}
      {partitionColumns : Option Partition} {sortInfo : Option SortInfo} {path : DucklakePath}
      {tags : Tags} {tableId : Int}
      (member : .createTable schemaRef tableRef columnRefs partitionColumnRefs name columns
        retiredColumns partitionColumns sortInfo path tags ∈ changes)
      (found : state.catalog.idOf (.table tableRef) = some tableId) :
      Collects env changes (rows, state)
        ({ rows with newTags := rows.newTags ++ Executors.objectTagRows tableId tags }, state)
  | partitioned {rows : TransactionChanges} {state : CommitState} {change : Change}
      {tableRef : TableRef} {refs : List ColumnRef} {partition : Partition}
      {tableId partitionId : Int}
      (member : change ∈ changes)
      (specified : change.partitions = some (tableRef, refs, partition))
      (found : state.catalog.idOf (.table tableRef) = some tableId)
      (foundPartition : state.catalog.idOf (.partition tableRef) = some partitionId) :
      Collects env changes (rows, state) ({ rows with
        newPartitionInfo := rows.newPartitionInfo ++
          [.new state.snapshotId { partitionId := partitionId, tableId := tableId }]
        newPartitionColumns := rows.newPartitionColumns ++
          (partition.zipIdx.zip refs).map fun entry => {
            partitionId := partitionId
            tableId := tableId
            partitionKeyIndex := entry.1.2
            columnId := state.columnId entry.2
            transform := entry.1.1.transform.display } }, state)
  | sorted {rows : TransactionChanges} {state : CommitState} {change : Change}
      {tableRef : TableRef} {expressions : SortInfo} {tableId : Int}
      (member : change ∈ changes)
      (specified : change.sorts = some (tableRef, expressions))
      (found : state.catalog.idOf (.table tableRef) = some tableId) :
      Collects env changes (rows, state) (Executors.createSortInfo rows state tableId expressions)
  | renamedPending {rows : TransactionChanges} {state : CommitState} {tableRef : TableRef}
      {name : QualifiedName} {tableId : Int}
      (member : .renameTable tableRef name ∈ changes)
      (found : state.catalog.idOf (.table tableRef) = some tableId)
      (pending : rows.newTables.any fun table => table.tableId = tableId) :
      Collects env changes (rows, state) ({ rows with
        newTables := rows.newTables.map fun table =>
          if table.tableId = tableId then { table with tableName := name.name } else table }, state)
  | renamed {rows : TransactionChanges} {state : CommitState} {tableRef : TableRef}
      {name : QualifiedName} {tableId : Int}
      (member : .renameTable tableRef name ∈ changes)
      (found : state.catalog.idOf (.table tableRef) = some tableId)
      (stored : ¬rows.newTables.any fun table => table.tableId = tableId) :
      Collects env changes (rows, state)
        ({ rows with renamedTables := rows.renamedTables.insert tableId name.name }, state)
  | retiredPartitioning {rows : TransactionChanges} {state : CommitState} {tableRef : TableRef}
      {refs : Option (List ColumnRef)} {partition : Option Partition} {tableId : Int}
      (member : .updateTablePartitioning tableRef refs partition ∈ changes)
      (found : state.catalog.idOf (.table tableRef) = some tableId) :
      Collects env changes (rows, state) ({ rows with
        retiredPartitionTables := rows.retiredPartitionTables ++ [tableId]
        newPartitionInfo := Executors.endPending state.snapshotId
          (fun info => info.tableId = tableId) rows.newPartitionInfo }, state)
  | retiredSortInfo {rows : TransactionChanges} {state : CommitState} {tableRef : TableRef}
      {expressions : Option SortInfo} {tableId : Int}
      (member : .updateTableSortInfo tableRef expressions ∈ changes)
      (found : state.catalog.idOf (.table tableRef) = some tableId) :
      Collects env changes (rows, state) ({ rows with
        retiredSortTables := rows.retiredSortTables ++ [tableId]
        newSortInfo := Executors.endPending state.snapshotId
          (fun info => info.tableId = tableId) rows.newSortInfo }, state)
  | deletedTable {rows : TransactionChanges} {state : CommitState} {tableRef : TableRef}
      {detachFiles : Bool} {tableId : Int}
      (member : .deleteTable tableRef detachFiles ∈ changes)
      (found : state.catalog.idOf (.table tableRef) = some tableId) :
      Collects env changes (rows, state) ({ rows with
        droppedTables := rows.droppedTables ++ [tableId]
        detachedTables :=
          if detachFiles then rows.detachedTables ++ [tableId] else rows.detachedTables }, state)
  | editedTableTag {rows : TransactionChanges} {state : CommitState} {change : Change}
      {tableRef : TableRef} {edit : TagChange} {tableId : Int}
      (member : change ∈ changes)
      (specified : change.tableTagEdit = some (tableRef, edit))
      (found : state.catalog.idOf (.table tableRef) = some tableId) :
      Collects env changes (rows, state)
        ({ rows with tableTags := rows.tableTags ++ [(tableId, edit)] }, state)
  | editedColumnTag {rows : TransactionChanges} {state : CommitState} {change : Change}
      {columnRef : ColumnRef} {edit : TagChange} {tableId : Int}
      (member : change ∈ changes)
      (specified : change.columnTagEdit = some (columnRef, edit))
      (found : state.catalog.idOf (.table columnRef.tableRef) = some tableId) :
      Collects env changes (rows, state) ({ rows with
        columnTags := rows.columnTags ++ [((tableId, state.columnId columnRef), edit)] }, state)
  | addedColumn {rows : TransactionChanges} {state : CommitState} {parent : Option ColumnRef}
      {first : ColumnRef} {rest : List ColumnRef} {column : Column} {tableId : Int}
      {built : List DucklakeColumn × List DucklakeColumnTag}
      (member : .addTableColumn parent (first :: rest) column ∈ changes)
      (found : state.catalog.idOf (.table first.tableRef) = some tableId)
      (success : Executors.columnRows env state tableId parent (first :: rest) column = .ok built) :
      Collects env changes (rows, state) ({ rows with
        newColumns := rows.newColumns ++ built.1.map (.new state.snapshotId)
        newColumnTags := rows.newColumnTags ++ built.2 }, state)
  | updatedColumn {rows : TransactionChanges} {state : CommitState} {parent : Option ColumnRef}
      {columnRef : ColumnRef} {column : Column} {tableId : Int}
      {built : List DucklakeColumn × List DucklakeColumnTag}
      (member : .updateTableColumn parent columnRef column ∈ changes)
      (found : state.catalog.idOf (.table columnRef.tableRef) = some tableId)
      (success : Executors.columnRows env state tableId parent [columnRef] column = .ok built) :
      Collects env changes (rows, state) ({ rows with
        retiredColumns := rows.retiredColumns ++ [(tableId, state.columnId columnRef)]
        newColumns := (rows.newColumns.filter fun row =>
            row.entity.tableId ≠ tableId ∨ row.entity.columnId ≠ state.columnId columnRef) ++
          built.1.map (.new state.snapshotId) }, state)
  | removedColumn {rows : TransactionChanges} {state : CommitState} {columnRef : ColumnRef}
      {tableId : Int}
      (member : .removeTableColumn columnRef ∈ changes)
      (found : state.catalog.idOf (.table columnRef.tableRef) = some tableId) :
      Collects env changes (rows, state) ({ rows with
        retiredColumns := rows.retiredColumns ++ [(tableId, state.columnId columnRef)]
        newColumns := Executors.endPending state.snapshotId
          (fun row => row.tableId = tableId ∧ row.columnId = state.columnId columnRef)
          rows.newColumns }, state)
  | wroteFile {before after : TransactionChanges × CommitState} {tableRef : TableRef}
      {dataFiles : List CommitDataFile} {file : CommitDataFile} {tableId : Int}
      (member : .writeTableDataFiles tableRef dataFiles ∈ changes)
      (inside : file ∈ dataFiles)
      (found : before.2.catalog.idOf (.table tableRef) = some tableId)
      (success : Executors.addDataFile env tableRef tableId before file = .ok after) :
      Collects env changes before after
  | wroteBatch {collected : TransactionChanges × CommitState} {tableRef : TableRef}
      {data : List CommitInlineData} {batch : CommitInlineData} {tableId : Int}
      (member : .writeTableInlineData tableRef data ∈ changes)
      (inside : batch ∈ data)
      (found : collected.2.catalog.idOf (.table tableRef) = some tableId) :
      Collects env changes collected (Executors.addInlineBatch tableId collected batch)
  | counted {rows : TransactionChanges} {state : CommitState} {change : Change}
      {tableRef : TableRef} {tableId : Int} {columnIds : List Int}
      (member : change ∈ changes)
      (written : change.requiresTableStats = true)
      (affected : change.affectedTableRef = some tableRef)
      (found : state.catalog.idOf (.table tableRef) = some tableId) :
      Collects env changes (rows, state) (rows.addWrittenColumns tableId columnIds, state)
  | inlined {collected : TransactionChanges × CommitState} {change : Change}
      {tableRef : TableRef}
      (member : change ∈ changes)
      (changed : change.tableRefWithSchemaChange = some tableRef) :
      Collects env changes collected (Executors.createInlinedTable env collected tableRef)
  | discarded {rows : TransactionChanges} {state : CommitState} :
      Collects env changes (rows, state) (rows, state.fileId.2)

abbrev Collected (env : Environment) (changes : List Change) :=
  Relation.ReflTransGen (Collects env changes)

/-! ## Executors take steps -/

section

variable {env : Environment} {changes : List Change}
variable {rows : TransactionChanges} {state : CommitState}

theorem collected_resolved
    (key : ObjectRef)
    (present : state.catalog.Has key) :
    Collected env changes (rows, state) (rows, (state.objectId key).2) :=
  .single (.resolved key present)

variable (env changes rows) in
theorem collected_resolved_two
    (key other : ObjectRef)
    (present : state.catalog.Has key)
    (presentOther : state.catalog.Has other) :
    Collected env changes (rows, state) (rows, ((state.objectId key).2.objectId other).2) ∧
      ((state.objectId key).2.objectId other).2.catalog.idOf key = some (state.objectId key).1 ∧
      ((state.objectId key).2.objectId other).2.catalog.idOf other =
        some ((state.objectId key).2.objectId other).1 := by
  have extends_ := objectId_extends state key
  have extendsOther := objectId_extends (state.objectId key).2 other
  have remains : (state.objectId key).2.catalog.Has other := (extends_.has other).mpr presentOther
  exact ⟨(collected_resolved key present).tail (.resolved other remains),
    extendsOther.kept key _ (idOf_objectId state key present),
    idOf_objectId _ other remains⟩

theorem createPartitioningOpt_collected
    (change : Change)
    (member : change ∈ changes)
    (tableRef : TableRef)
    (tableId : Int)
    (refs : Option (List ColumnRef))
    (partition : Option Partition)
    (specified : ∀ some_refs some_partition, refs = some some_refs →
      partition = some some_partition →
      change.partitions = some (tableRef, some_refs, some_partition))
    (present : state.catalog.Has (.table tableRef))
    (found : state.catalog.idOf (.table tableRef) = some tableId)
    (result : TransactionChanges × CommitState)
    (success : Executors.createPartitioningOpt rows state tableRef tableId refs partition =
      .ok result) :
    Collected env changes (rows, state) result := by
  unfold Executors.createPartitioningOpt at success
  split at success
  · rename_i some_refs some_partition
    obtain ⟨defined, rfl⟩ := Executors.createPartitioning_eq_ok rows state _ _ _ _ _ success
    have partitioned : state.catalog.Has (.partition tableRef) := ⟨present, defined⟩
    have extends_ := objectId_extends state (.partition tableRef)
    rw [← extends_.snapshotId]
    exact (collected_resolved _ partitioned).tail (.partitioned member (specified _ _ rfl rfl)
      (extends_.kept _ _ found) (idOf_objectId state _ partitioned))
  · cases success
    exact .refl

theorem createSortInfoOpt_collected
    (change : Change)
    (member : change ∈ changes)
    (tableRef : TableRef)
    (tableId : Int)
    (expressions : Option SortInfo)
    (specified : ∀ some_expressions, expressions = some some_expressions →
      change.sorts = some (tableRef, some_expressions))
    (found : state.catalog.idOf (.table tableRef) = some tableId) :
    Collected env changes (rows, state)
      (Executors.createSortInfoOpt rows state tableId expressions) := by
  unfold Executors.createSortInfoOpt
  split
  · exact .single (.sorted member (specified _ rfl) found)
  · exact .refl

/-- A new table has the rows of its columns; its specifications and tags follow. -/
theorem createTable_steps
    (schemaRef : SchemaRef)
    (tableRef : TableRef)
    (columnRefs : List (List ColumnRef))
    (partitionColumnRefs : Option (List ColumnRef))
    (name : QualifiedName)
    (columns : List Column)
    (retiredColumns : List DucklakeColumn)
    (partitionColumns : Option Partition)
    (sortInfo : Option SortInfo)
    (path : DucklakePath)
    (tags : Tags)
    (member : .createTable schemaRef tableRef columnRefs partitionColumnRefs name columns
      retiredColumns partitionColumns sortInfo path tags ∈ changes)
    (present : state.catalog.Has (.table tableRef))
    (presentSchema : state.catalog.Has (.schema schemaRef))
    (result : TransactionChanges × CommitState)
    (success : Executors.createTable env rows state schemaRef tableRef columnRefs
      partitionColumnRefs name columns retiredColumns partitionColumns sortInfo path tags =
      .ok result) :
    ∃ resolved tableId schemaId built,
      Collected env changes (rows, state) (rows, resolved) ∧
      resolved.catalog.idOf (.table tableRef) = some tableId ∧
      resolved.catalog.idOf (.schema schemaRef) = some schemaId ∧
      Executors.tableColumnRows env resolved tableId (columns.zip columnRefs) = .ok built ∧
      Collected env changes ({ rows with
        newTables := rows.newTables ++ [{
          tableId := tableId
          schemaId := schemaId
          tableName := name.name
          path := path.display
          pathIsRelative := true }]
        newColumns := rows.newColumns ++ (built.flatMap Prod.fst).map (.new resolved.snapshotId) ++
          retiredColumns.map fun column => {
            beginSnapshot := resolved.snapshotId
            endSnapshot := some resolved.snapshotId
            entity := { column with tableId := tableId } }
        newColumnTags := rows.newColumnTags ++ built.flatMap Prod.snd }, resolved) result := by
  obtain ⟨built, builtOk, success⟩ := bind_eq_ok.mp success
  obtain ⟨partitioned, partitions, success⟩ := bind_eq_ok.mp success
  obtain rfl := Except.ok.inj success
  obtain ⟨resolved, found, located⟩ :=
    collected_resolved_two env changes rows (.table tableRef) (.schema schemaRef) present
      presentSchema
  have remains : ((state.objectId (.table tableRef)).2.objectId
      (.schema schemaRef)).2.catalog.Has (.table tableRef) :=
    (((objectId_extends state _).trans (objectId_extends _ _)).has _).mpr present
  have extends_ := Executors.createPartitioningOpt_extends _ _ _ _ _ _ _ partitions
  have foundLater := extends_.kept _ _ found
  have foundLast := (Executors.createSortInfoOpt_extends partitioned.1 partitioned.2
    (state.objectId (.table tableRef)).1 sortInfo).kept _ _ foundLater
  refine ⟨_, _, _, built, resolved, found, located, builtOk,
    (createPartitioningOpt_collected _ member tableRef _ partitionColumnRefs partitionColumns
      ?_ remains found partitioned partitions).trans
    ((createSortInfoOpt_collected _ member tableRef _ sortInfo ?_ foundLater).tail
      (.tagged member foundLast))⟩
  · rintro refs partition rfl rfl
    rfl
  · rintro expressions rfl
    rfl

theorem createTable_collected
    (schemaRef : SchemaRef)
    (tableRef : TableRef)
    (columnRefs : List (List ColumnRef))
    (partitionColumnRefs : Option (List ColumnRef))
    (name : QualifiedName)
    (columns : List Column)
    (retiredColumns : List DucklakeColumn)
    (partitionColumns : Option Partition)
    (sortInfo : Option SortInfo)
    (path : DucklakePath)
    (tags : Tags)
    (member : .createTable schemaRef tableRef columnRefs partitionColumnRefs name columns
      retiredColumns partitionColumns sortInfo path tags ∈ changes)
    (present : state.catalog.Has (.table tableRef))
    (presentSchema : state.catalog.Has (.schema schemaRef))
    (result : TransactionChanges × CommitState)
    (success : Executors.createTable env rows state schemaRef tableRef columnRefs
      partitionColumnRefs name columns retiredColumns partitionColumns sortInfo path tags =
      .ok result) :
    Collected env changes (rows, state) result := by
  obtain ⟨resolved, _, _, built, earlier, found, located, builtOk, later⟩ :=
    createTable_steps schemaRef tableRef columnRefs partitionColumnRefs name columns retiredColumns
      partitionColumns sortInfo path tags member present presentSchema result success
  exact (earlier.tail (.createdTable member found located builtOk)).trans later

theorem collected_of_resolved
    (key : ObjectRef)
    (present : state.catalog.Has key)
    (result : TransactionChanges × CommitState)
    (step : (state.objectId key).2.catalog.idOf key = some (state.objectId key).1 →
      Collects env changes (rows, (state.objectId key).2) result) :
    Collected env changes (rows, state) result :=
  (collected_resolved key present).tail (step (idOf_objectId state key present))

theorem writeTableData_collected
    (tableRef : TableRef)
    (dataFiles : List CommitDataFile)
    (member : .writeTableDataFiles tableRef dataFiles ∈ changes)
    (present : state.catalog.Has (.table tableRef))
    (result : TransactionChanges × CommitState)
    (success : Executors.writeTableData env rows state tableRef dataFiles = .ok result) :
    Collected env changes (rows, state) result := by
  obtain ⟨written, files, success⟩ := bind_eq_ok.mp success
  obtain rfl := Except.ok.inj success
  have found := idOf_objectId state (.table tableRef) present
  have steps : (state.objectId (.table tableRef)).2.Extends written.2 ∧
      Collected env changes (rows, (state.objectId (.table tableRef)).2) written := by
    refine foldlM_invariant (fun collected =>
      (state.objectId (.table tableRef)).2.Extends collected.2 ∧
      Collected env changes (rows, (state.objectId (.table tableRef)).2) collected)
      ⟨.refl _, .refl⟩ ?_ files
    rintro collected file next inside ⟨extends_, before⟩ stepped
    exact ⟨extends_.trans (Executors.addDataFile_extends env _ _ _ _ _ stepped),
      before.tail (.wroteFile member inside (extends_.kept _ _ found) stepped)⟩
  exact ((collected_resolved _ present).trans steps.2).tail
    (.counted member rfl rfl (steps.1.kept _ _ found))

theorem writeTableInlineData_collected
    (tableRef : TableRef)
    (data : List CommitInlineData)
    (member : .writeTableInlineData tableRef data ∈ changes)
    (present : state.catalog.Has (.table tableRef)) :
    Collected env changes (rows, state)
      (Executors.writeTableInlineData rows state tableRef data) := by
  have found := idOf_objectId state (.table tableRef) present
  have steps : ∀ (batches : List CommitInlineData) (collected : TransactionChanges × CommitState),
      (∀ batch ∈ batches, batch ∈ data) →
      collected.2.catalog.idOf (.table tableRef) = some (state.objectId (.table tableRef)).1 →
      Collected env changes collected (batches.foldl
        (Executors.addInlineBatch (state.objectId (.table tableRef)).1) collected) := by
    intro batches
    induction batches with
    | nil => exact fun _ _ _ => .refl
    | cons batch rest ih =>
        intro collected inside found
        have first := inside batch (by simp)
        exact .head (.wroteBatch member first found)
          (ih _ (fun other later => inside other (List.mem_cons_of_mem _ later)) found)
  refine ((collected_resolved _ present).trans (steps data _ (fun _ inside => inside) found)).tail
    (.counted member rfl rfl ?_)
  exact (foldl_extends _ (Executors.addInlineBatch_extends _) data (rows, _)).kept _ _ found

theorem editColumnTag_collected
    (change : Change)
    (member : change ∈ changes)
    (columnRef : ColumnRef)
    (edit : TagChange)
    (specified : change.columnTagEdit = some (columnRef, edit))
    (present : state.catalog.Has (.table columnRef.tableRef)) :
    Collected env changes (rows, state) (Executors.editColumnTag rows state columnRef edit) :=
  (collected_resolved (.table columnRef.tableRef) present).tail
    (.editedColumnTag member specified (idOf_objectId state _ present))

theorem addTableColumn_collected
    (parent : Option ColumnRef)
    (first : ColumnRef)
    (rest : List ColumnRef)
    (column : Column)
    (member : .addTableColumn parent (first :: rest) column ∈ changes)
    (present : state.catalog.Has (.table first.tableRef))
    (result : TransactionChanges × CommitState)
    (success : Executors.addTableColumn env rows state parent (first :: rest) column =
      .ok result) :
    Collected env changes (rows, state) result := by
  obtain ⟨built, builtTags, builtOk, rfl⟩ :=
    Executors.addTableColumn_eq_ok env rows state parent first rest column result success
  rw [← (objectId_extends state (.table first.tableRef)).snapshotId]
  exact (collected_resolved (.table first.tableRef) present).tail
    (.addedColumn member (idOf_objectId state _ present) builtOk)

theorem updateTableColumn_collected
    (parent : Option ColumnRef)
    (columnRef : ColumnRef)
    (column : Column)
    (member : .updateTableColumn parent columnRef column ∈ changes)
    (present : state.catalog.Has (.table columnRef.tableRef))
    (result : TransactionChanges × CommitState)
    (success : Executors.updateTableColumn env rows state parent columnRef column = .ok result) :
    Collected env changes (rows, state) result := by
  obtain ⟨built, builtOk, success⟩ := bind_eq_ok.mp success
  obtain rfl := Except.ok.inj success
  exact (collected_resolved (.table columnRef.tableRef) present).tail
    (.updatedColumn member (idOf_objectId state _ present) builtOk)

theorem removeTableColumn_collected
    (columnRef : ColumnRef)
    (member : .removeTableColumn columnRef ∈ changes)
    (present : state.catalog.Has (.table columnRef.tableRef)) :
    Collected env changes (rows, state) (Executors.removeTableColumn rows state columnRef) :=
  (collected_resolved (.table columnRef.tableRef) present).tail
    (.removedColumn member (idOf_objectId state _ present))

theorem Change.apply_collected
    (change : Change)
    (member : change ∈ changes)
    (present : ∀ key ∈ change.objects, state.catalog.Has key)
    (result : TransactionChanges × CommitState)
    (success : change.apply env (rows, state) = .ok result) :
    Collected env changes (rows, state) result := by
  cases change with
  | createSchema schemaRef name path =>
      obtain rfl := Except.ok.inj success
      exact collected_of_resolved (.schema schemaRef) (present _ (by simp [Change.objects])) _
        fun found => .createdSchema member found
  | deleteSchema schemaRef =>
      obtain rfl := Except.ok.inj success
      exact collected_of_resolved (.schema schemaRef) (present _ (by simp [Change.objects])) _
        fun found => .deletedSchema member found
  | createView schemaRef viewRef name sql dialect columnAliases tags =>
      obtain rfl := Except.ok.inj success
      obtain ⟨resolved, found, located⟩ :=
        collected_resolved_two env changes rows (.view viewRef) (.schema schemaRef)
          (present _ (by simp [Change.objects])) (present _ (by simp [Change.objects]))
      exact resolved.tail (.createdView member found located)
  | deleteView viewRef =>
      obtain rfl := Except.ok.inj success
      exact collected_of_resolved (.view viewRef) (present _ (by simp [Change.objects])) _
        fun found => .deletedView member found
  | createMacro schemaRef macroRef name macroType implementations =>
      obtain rfl := Except.ok.inj success
      obtain ⟨resolved, found, located⟩ :=
        collected_resolved_two env changes rows (.macro_ macroRef) (.schema schemaRef)
          (present _ (by simp [Change.objects])) (present _ (by simp [Change.objects]))
      exact resolved.tail (.createdMacro member found located)
  | deleteMacro macroRef macroType =>
      obtain rfl := Except.ok.inj success
      exact collected_of_resolved (.macro_ macroRef) (present _ (by simp [Change.objects])) _
        fun found => .deletedMacro member found
  | createTable schemaRef tableRef columnRefs partitionColumnRefs name columns retiredColumns
      partitionColumns sortInfo path tags =>
      exact createTable_collected _ _ _ _ _ _ _ _ _ _ _ member
        (present _ (by simp [Change.objects])) (present _ (by simp [Change.objects])) result success
  | writeTableDataFiles tableRef dataFiles =>
      exact writeTableData_collected _ _ member (present _ (by simp [Change.objects,
        Change.affectedTableRef])) result success
  | writeTableInlineData tableRef data =>
      obtain rfl := Except.ok.inj success
      exact writeTableInlineData_collected _ _ member (present _ (by simp [Change.objects,
        Change.affectedTableRef]))
  | renameTable tableRef name =>
      obtain rfl := Except.ok.inj success
      refine collected_of_resolved (.table tableRef) (present _ (by simp [Change.objects,
        Change.affectedTableRef])) _ fun found => ?_
      unfold Executors.renameTable
      rw [tableId_eq]
      dsimp only
      split
      · rename_i pending
        exact .renamedPending member found pending
      · rename_i stored
        exact .renamed member found stored
  | updateTablePartitioning tableRef refs partition =>
      have presentTable := present (.table tableRef) (by simp [Change.objects,
        Change.affectedTableRef])
      have found := idOf_objectId state (.table tableRef) presentTable
      have remains := ((objectId_extends state (.table tableRef)).has _).mpr presentTable
      refine ((collected_resolved _ presentTable).tail (.retiredPartitioning member found)).trans
        (createPartitioningOpt_collected _ member tableRef _ refs partition ?_ remains found
          result success)
      rintro some_refs some_partition rfl rfl
      rfl
  | updateTableSortInfo tableRef expressions =>
      obtain rfl := Except.ok.inj success
      have presentTable := present (.table tableRef) (by simp [Change.objects,
        Change.affectedTableRef])
      have found := idOf_objectId state (.table tableRef) presentTable
      refine ((collected_resolved _ presentTable).tail (.retiredSortInfo member found)).trans
        (createSortInfoOpt_collected _ member tableRef _ expressions ?_ found)
      rintro some_expressions rfl
      rfl
  | deleteTable tableRef detachFiles =>
      obtain rfl := Except.ok.inj success
      exact collected_of_resolved (.table tableRef) (present _ (by simp [Change.objects,
        Change.affectedTableRef])) _ fun found => .deletedTable member found
  | addTableTag tableRef tag | removeTableTag tableRef key =>
      obtain rfl := Except.ok.inj success
      exact collected_of_resolved (.table tableRef) (present _ (by simp [Change.objects,
        Change.affectedTableRef])) _ fun found => .editedTableTag member rfl found
  | addTableColumnTag columnRef tag | removeTableColumnTag columnRef key =>
      obtain rfl := Except.ok.inj success
      exact editColumnTag_collected _ member columnRef _ rfl (present _ (by simp [Change.objects,
        Change.affectedTableRef]))
  | addTableColumn parent columnRefs column =>
      cases columnRefs with
      | nil => cases success
      | cons first rest =>
          exact addTableColumn_collected parent first rest column member (present _ (by
            simp [Change.objects, Change.affectedTableRef])) result success
  | updateTableColumn parent columnRef column =>
      exact updateTableColumn_collected parent columnRef column member (present _ (by
        simp [Change.objects, Change.affectedTableRef])) result success
  | removeTableColumn columnRef =>
      obtain rfl := Except.ok.inj success
      exact removeTableColumn_collected columnRef member (present _ (by simp [Change.objects,
        Change.affectedTableRef]))

end

/-! ## An attempt takes steps -/

theorem ChangeSet.apply_collected
    (env : Environment)
    (set : ChangeSet)
    (state : CommitState)
    (result : TransactionChanges × CommitState)
    (present : ∀ change ∈ set.changes, ∀ key ∈ change.objects, state.catalog.Has key)
    (success : set.apply env state = .ok result) :
    Collected env set.changes (.empty, state) result := by
  obtain ⟨_, _, success⟩ := bind_eq_ok.mp success
  obtain ⟨collected, executed, success⟩ := bind_eq_ok.mp success
  obtain rfl := Except.ok.inj success
  have afterChanges : state.Extends collected.2 ∧
      Collected env set.changes (.empty, state) collected := by
    refine foldlM_invariant (fun collected => state.Extends collected.2 ∧
      Collected env set.changes (.empty, state) collected) ⟨.refl _, .refl⟩ ?_ executed
    rintro before change next member ⟨extends_, steps⟩ stepped
    refine ⟨extends_.trans (Change.apply_extends env before next change stepped),
      steps.trans (Change.apply_collected change member (fun key object => ?_) next stepped)⟩
    exact (extends_.has key).mpr (present change member key object)
  have afterInlining : ∀ (refs : List TableRef) (before : TransactionChanges × CommitState),
      (∀ ref ∈ refs, ref ∈ set.tableRefsWithSchemaChanges) →
      Collected env set.changes before (refs.foldl (Executors.createInlinedTable env) before) := by
    intro refs
    induction refs with
    | nil => exact fun _ _ => .refl
    | cons ref rest ih =>
        intro before inside
        have first := inside ref (by simp)
        rw [tableRefsWithSchemaChanges, List.mem_eraseDups] at first
        obtain ⟨change, member, changed⟩ := List.mem_filterMap.mp first
        exact .head (.inlined member changed)
          (ih _ fun other later => inside other (List.mem_cons_of_mem _ later))
  refine (afterChanges.2.trans (afterInlining _ collected fun _ inside => inside)).trans ?_
  unfold bumpFileId
  split
  · exact .single .discarded
  · exact .refl

end Ducklake.Transaction
