import Ducklake.Transaction.Resolution

/-!
# The state through an attempt

Every executor, every description of a change and so a whole attempt only extends the state
that it starts from.
-/

set_option autoImplicit false

namespace Ducklake.Transaction

open Lib Caches Spec CommitState

namespace Executors

/-! ## Executors -/

section

variable (env : Environment) (changes : TransactionChanges) (state : CommitState)

theorem createSchema_extends (schemaRef : SchemaRef) (name : Text) (path : DucklakePath) :
    state.Extends (createSchema changes state schemaRef name path).2 :=
  objectId_extends state (.schema schemaRef)

theorem deleteSchema_extends (schemaRef : SchemaRef) :
    state.Extends (deleteSchema changes state schemaRef).2 :=
  objectId_extends state (.schema schemaRef)

theorem createView_extends (schemaRef : SchemaRef) (viewRef : ViewRef) (name : QualifiedName)
    (sql dialect : Text) (columnAliases : Option (List Text)) (tags : Tags) :
    state.Extends
      (createView changes state schemaRef viewRef name sql dialect columnAliases tags).2 :=
  (objectId_extends state (.view viewRef)).trans (objectId_extends _ (.schema schemaRef))

theorem deleteView_extends (viewRef : ViewRef) :
    state.Extends (deleteView changes state viewRef).2 :=
  objectId_extends state (.view viewRef)

theorem createMacro_extends (schemaRef : SchemaRef) (macroRef : MacroRef) (name : QualifiedName)
    (macroType : MacroType) (implementations : List MacroImplementation) :
    state.Extends
      (createMacro changes state schemaRef macroRef name macroType implementations).2 :=
  (objectId_extends state (.macro_ macroRef)).trans (objectId_extends _ (.schema schemaRef))

theorem deleteMacro_extends (macroRef : MacroRef) :
    state.Extends (deleteMacro changes state macroRef).2 :=
  objectId_extends state (.macro_ macroRef)

theorem addTableColumn_eq_ok
    (parentColumnRef : Option ColumnRef)
    (first : ColumnRef)
    (rest : List ColumnRef)
    (column : Column)
    (result : TransactionChanges × CommitState)
    (success :
      addTableColumn env changes state parentColumnRef (first :: rest) column = .ok result) :
    ∃ rows tags,
      columnRows env (state.tableId first.tableRef).2 (state.tableId first.tableRef).1
        parentColumnRef (first :: rest) column = .ok (rows, tags) ∧
      result = ({ changes with
        newColumns := changes.newColumns ++ rows.map (.new state.snapshotId)
        newColumnTags := changes.newColumnTags ++ tags }, (state.tableId first.tableRef).2) := by
  have same : (state.tableId first.tableRef).2.snapshotId = state.snapshotId :=
    (objectId_extends state (.table first.tableRef)).snapshotId
  unfold addTableColumn at success
  dsimp only at success
  obtain ⟨⟨rows, tags⟩, built, success⟩ := bind_eq_ok.mp success
  rw [same] at success
  split at success
  · cases success
    exact ⟨rows, tags, built, rfl⟩
  · cases success

theorem addTableColumn_extends
    (parentColumnRef : Option ColumnRef)
    (columnRefs : List ColumnRef)
    (column : Column)
    (result : TransactionChanges × CommitState)
    (success : addTableColumn env changes state parentColumnRef columnRefs column = .ok result) :
    state.Extends result.2 := by
  cases columnRefs with
  | nil => cases success
  | cons first rest =>
      obtain ⟨rows, tags, _, rfl⟩ :=
        addTableColumn_eq_ok env changes state parentColumnRef first rest column result success
      exact objectId_extends state (.table first.tableRef)

theorem updateTableColumn_extends
    (parentColumnRef : Option ColumnRef)
    (columnRef : ColumnRef)
    (column : Column)
    (result : TransactionChanges × CommitState)
    (success : updateTableColumn env changes state parentColumnRef columnRef column = .ok result) :
    state.Extends result.2 := by
  obtain ⟨rows, _, success⟩ := bind_eq_ok.mp success
  cases success
  exact objectId_extends state (.table columnRef.tableRef)

theorem removeTableColumn_extends (columnRef : ColumnRef) :
    state.Extends (removeTableColumn changes state columnRef).2 :=
  objectId_extends state (.table columnRef.tableRef)

theorem editColumnTag_extends (columnRef : ColumnRef) (edit : TagChange) :
    state.Extends (editColumnTag changes state columnRef edit).2 :=
  objectId_extends state (.table columnRef.tableRef)

theorem createPartitioning_eq_ok
    (tableRef : TableRef)
    (tableId : Int)
    (partitionColumnRefs : List ColumnRef)
    (partitionColumns : Partition)
    (result : TransactionChanges × CommitState)
    (success : createPartitioning changes state tableRef tableId partitionColumnRefs
      partitionColumns = .ok result) :
    (state.catalog.table tableRef).partition.isSome ∧ result = ({ changes with
      newPartitionInfo := changes.newPartitionInfo ++ [.new state.snapshotId {
        partitionId := (state.objectId (.partition tableRef)).1
        tableId := tableId }]
      newPartitionColumns := changes.newPartitionColumns ++
        (partitionColumns.zipIdx.zip partitionColumnRefs).map fun entry => {
          partitionId := (state.objectId (.partition tableRef)).1
          tableId := tableId
          partitionKeyIndex := entry.1.2
          columnId := (state.objectId (.partition tableRef)).2.columnId entry.2
          transform := entry.1.1.transform.display } },
      (state.objectId (.partition tableRef)).2) := by
  obtain ⟨resolved, found, success⟩ := bind_eq_ok.mp success
  obtain ⟨defined, rfl⟩ := (partitionId_eq_ok _ _ _).mp found
  refine ⟨defined, ?_⟩
  have same := (objectId_extends state (.partition tableRef)).snapshotId
  rw [← same]
  exact (Except.ok.inj success).symm

theorem createPartitioning_extends
    (tableRef : TableRef)
    (tableId : Int)
    (partitionColumnRefs : List ColumnRef)
    (partitionColumns : Partition)
    (result : TransactionChanges × CommitState)
    (success : createPartitioning changes state tableRef tableId partitionColumnRefs
      partitionColumns = .ok result) :
    state.Extends result.2 := by
  obtain ⟨_, rfl⟩ := createPartitioning_eq_ok changes state _ _ _ _ _ success
  exact objectId_extends state (.partition tableRef)

theorem createPartitioningOpt_extends
    (tableRef : TableRef)
    (tableId : Int)
    (partitionColumnRefs : Option (List ColumnRef))
    (partitionColumns : Option Partition)
    (result : TransactionChanges × CommitState)
    (success : createPartitioningOpt changes state tableRef tableId partitionColumnRefs
      partitionColumns = .ok result) :
    state.Extends result.2 := by
  unfold createPartitioningOpt at success
  split at success
  · exact createPartitioning_extends changes state tableRef tableId _ _ result success
  · cases success
    exact .refl state

theorem createSortInfoOpt_extends (tableId : Int) (expressions : Option SortInfo) :
    state.Extends (createSortInfoOpt changes state tableId expressions).2 := by
  unfold createSortInfoOpt
  split
  · exact catalogId_extends state
  · exact .refl state

theorem createTable_extends
    (schemaRef : SchemaRef)
    (tableRef : TableRef)
    (columnRefs : List (List ColumnRef))
    (partitionColumnRefs : Option (List ColumnRef))
    (name : QualifiedName)
    (columns : List Column)
    (retiredColumns : List DucklakeColumn)
    (partitionColumns : Option Partition)
    (sortInfo : Option SortInfo)
    (path : DucklakePath)
    (tags : Tags)
    (result : TransactionChanges × CommitState)
    (success : createTable env changes state schemaRef tableRef columnRefs partitionColumnRefs
      name columns retiredColumns partitionColumns sortInfo path tags = .ok result) :
    state.Extends result.2 := by
  obtain ⟨rows, _, success⟩ := bind_eq_ok.mp success
  obtain ⟨partitioned, partitions, success⟩ := bind_eq_ok.mp success
  cases success
  exact (((objectId_extends state (.table tableRef)).trans
    (objectId_extends _ (.schema schemaRef))).trans
      (createPartitioningOpt_extends _ _ _ _ _ _ _ partitions)).trans
        (createSortInfoOpt_extends _ _ _ _)

theorem renameTable_extends (tableRef : TableRef) (name : QualifiedName) :
    state.Extends (renameTable changes state tableRef name).2 := by
  unfold renameTable
  dsimp only
  split <;> exact objectId_extends state (.table tableRef)

theorem updateTablePartitioning_extends
    (tableRef : TableRef)
    (partitionColumnRefs : Option (List ColumnRef))
    (partitionColumns : Option Partition)
    (result : TransactionChanges × CommitState)
    (success : updateTablePartitioning changes state tableRef partitionColumnRefs
      partitionColumns = .ok result) :
    state.Extends result.2 :=
  (objectId_extends state (.table tableRef)).trans
    (createPartitioningOpt_extends _ _ _ _ _ _ result success)

theorem updateTableSortInfo_extends (tableRef : TableRef) (expressions : Option SortInfo) :
    state.Extends (updateTableSortInfo changes state tableRef expressions).2 :=
  (objectId_extends state (.table tableRef)).trans (createSortInfoOpt_extends _ _ _ _)

theorem deleteTable_extends (tableRef : TableRef) (detachFiles : Bool) :
    state.Extends (deleteTable changes state tableRef detachFiles).2 :=
  objectId_extends state (.table tableRef)

theorem editTableTag_extends (tableRef : TableRef) (edit : TagChange) :
    state.Extends (editTableTag changes state tableRef edit).2 :=
  objectId_extends state (.table tableRef)

end

theorem addDeleteFile_extends (tableId dataFileId : Int)
    (collected : List DucklakeDeleteFile × CommitState) (file : CommitDeleteFile) :
    collected.2.Extends (addDeleteFile tableId dataFileId collected file).2 :=
  fileId_extends collected.2

theorem filePartitionId_extends
    (state : CommitState)
    (tableRef : TableRef)
    (file : CommitDataFile)
    (result : Option Int × CommitState)
    (success : filePartitionId state tableRef file = .ok result) :
    state.Extends result.2 := by
  unfold filePartitionId at success
  split at success
  · cases success
    exact .refl state
  · obtain ⟨resolved, found, success⟩ := bind_eq_ok.mp success
    obtain ⟨_, rfl⟩ := (partitionId_eq_ok _ _ _).mp found
    cases success
    exact objectId_extends state (.partition tableRef)

theorem addDataFile_extends
    (env : Environment)
    (tableRef : TableRef)
    (tableId : Int)
    (collected : TransactionChanges × CommitState)
    (file : CommitDataFile)
    (result : TransactionChanges × CommitState)
    (success : addDataFile env tableRef tableId collected file = .ok result) :
    collected.2.Extends result.2 := by
  obtain ⟨partitioned, found, success⟩ := bind_eq_ok.mp success
  cases success
  exact (((fileId_extends collected.2).trans (modifyTableStats_extends _ _ _)).trans
    (filePartitionId_extends _ tableRef file _ found)).trans
      (foldl_extends _ (addDeleteFile_extends tableId _) _ (collected.1.deleteFiles, _))

theorem writeTableData_extends
    (env : Environment)
    (changes : TransactionChanges)
    (state : CommitState)
    (tableRef : TableRef)
    (dataFiles : List CommitDataFile)
    (result : TransactionChanges × CommitState)
    (success : writeTableData env changes state tableRef dataFiles = .ok result) :
    state.Extends result.2 := by
  obtain ⟨written, files, success⟩ := bind_eq_ok.mp success
  cases success
  exact foldlM_invariant (fun collected => state.Extends collected.2)
    (objectId_extends state (.table tableRef))
    (fun collected file next _ before stepped =>
      before.trans (addDataFile_extends env tableRef _ collected file next stepped)) files

theorem addInlineBatch_extends (tableId : Int) (collected : TransactionChanges × CommitState)
    (data : CommitInlineData) :
    collected.2.Extends (addInlineBatch tableId collected data).2 :=
  modifyTableStats_extends _ _ _

theorem writeTableInlineData_extends (changes : TransactionChanges) (state : CommitState)
    (tableRef : TableRef) (data : List CommitInlineData) :
    state.Extends (writeTableInlineData changes state tableRef data).2 :=
  (objectId_extends state (.table tableRef)).trans
    (foldl_extends _ (addInlineBatch_extends _) _ (changes, _))

theorem createInlinedTable_extends (env : Environment)
    (collected : TransactionChanges × CommitState) (tableRef : TableRef) :
    collected.2.Extends (createInlinedTable env collected tableRef).2 := by
  unfold createInlinedTable
  dsimp only
  split <;> exact objectId_extends collected.2 (.table tableRef)

end Executors

/-! ## Changes -/

theorem Change.apply_extends
    (env : Environment)
    (collected result : TransactionChanges × CommitState)
    (change : Change)
    (success : change.apply env collected = .ok result) :
    collected.2.Extends result.2 := by
  cases change with
  | createSchema schemaRef name path =>
      cases success
      exact Executors.createSchema_extends _ _ _ _ _
  | deleteSchema schemaRef =>
      cases success
      exact Executors.deleteSchema_extends _ _ _
  | createTable schemaRef tableRef columnRefs partitionColumnRefs name columns retiredColumns
      partitionColumns sortInfo path tags =>
      exact Executors.createTable_extends env _ _ _ _ _ _ _ _ _ _ _ _ _ result success
  | writeTableDataFiles tableRef dataFiles =>
      exact Executors.writeTableData_extends env _ _ _ _ result success
  | writeTableInlineData tableRef data =>
      cases success
      exact Executors.writeTableInlineData_extends _ _ _ _
  | renameTable tableRef name =>
      cases success
      exact Executors.renameTable_extends _ _ _ _
  | updateTablePartitioning tableRef partitionColumnRefs partitionColumns =>
      exact Executors.updateTablePartitioning_extends _ _ _ _ _ result success
  | updateTableSortInfo tableRef expressions =>
      cases success
      exact Executors.updateTableSortInfo_extends _ _ _ _
  | deleteTable tableRef detachFiles =>
      cases success
      exact Executors.deleteTable_extends _ _ _ _
  | addTableTag tableRef tag =>
      cases success
      exact Executors.editTableTag_extends _ _ _ _
  | removeTableTag tableRef key =>
      cases success
      exact Executors.editTableTag_extends _ _ _ _
  | createView schemaRef viewRef name sql dialect columnAliases tags =>
      cases success
      exact Executors.createView_extends _ _ _ _ _ _ _ _ _
  | deleteView viewRef =>
      cases success
      exact Executors.deleteView_extends _ _ _
  | createMacro schemaRef macroRef name macroType implementations =>
      cases success
      exact Executors.createMacro_extends _ _ _ _ _ _ _
  | deleteMacro macroRef macroType =>
      cases success
      exact Executors.deleteMacro_extends _ _ _
  | addTableColumn parentColumnRef columnRefs column =>
      exact Executors.addTableColumn_extends env _ _ _ _ _ result success
  | updateTableColumn parentColumnRef columnRef column =>
      exact Executors.updateTableColumn_extends env _ _ _ _ _ result success
  | removeTableColumn columnRef =>
      cases success
      exact Executors.removeTableColumn_extends _ _ _
  | addTableColumnTag columnRef tag =>
      cases success
      exact Executors.editColumnTag_extends _ _ _ _
  | removeTableColumnTag columnRef key =>
      cases success
      exact Executors.editColumnTag_extends _ _ _ _

theorem Change.appliedChange_extends (state : CommitState) (change : Change) :
    state.Extends (change.appliedChange state).2 := by
  cases change with
  | createSchema | createTable | renameTable | createView => exact .refl state
  | createMacro schemaRef macroRef name macroType => cases macroType <;> exact .refl state
  | deleteMacro macroRef macroType => cases macroType <;> exact objectId_extends state (.macro_ macroRef)
  | deleteSchema schemaRef => exact objectId_extends state (.schema schemaRef)
  | deleteView viewRef => exact objectId_extends state (.view viewRef)
  | updateTablePartitioning tableRef | updateTableSortInfo tableRef | addTableTag tableRef
  | removeTableTag tableRef | deleteTable tableRef | writeTableDataFiles tableRef
  | writeTableInlineData tableRef => exact objectId_extends state (.table tableRef)
  | addTableColumn _ columnRefs => exact objectId_extends state (.table (columnRefs.headD _).tableRef)
  | updateTableColumn _ columnRef | removeTableColumn columnRef | addTableColumnTag columnRef
  | removeTableColumnTag columnRef => exact objectId_extends state (.table columnRef.tableRef)

/-! ## Change sets -/

theorem ChangeSet.appliedChangeSet_extends (set : ChangeSet) (state : CommitState) :
    state.Extends (set.appliedChangeSet state).2 :=
  collect_extends Change.appliedChange Change.appliedChange_extends set.changes state

theorem ChangeSet.bumpFileId_extends (set : ChangeSet) (state : CommitState) :
    state.Extends (set.bumpFileId state) := by
  unfold bumpFileId
  split
  · exact fileId_extends state
  · exact .refl state

theorem ChangeSet.apply_extends
    (env : Environment)
    (set : ChangeSet)
    (state : CommitState)
    (result : TransactionChanges × CommitState)
    (success : set.apply env state = .ok result) :
    state.Extends result.2 := by
  obtain ⟨_, _, success⟩ := bind_eq_ok.mp success
  obtain ⟨collected, applied, success⟩ := bind_eq_ok.mp success
  cases success
  have executed : state.Extends collected.2 :=
    foldlM_invariant (fun collected => state.Extends collected.2) (.refl state)
      (fun collected change next _ before stepped =>
        before.trans (Change.apply_extends env collected next change stepped)) applied
  exact (executed.trans (foldl_extends _ (Executors.createInlinedTable_extends env) _
    collected)).trans (set.bumpFileId_extends _)

/-- What a prepared commit knows about its state, with the steps in between. -/
theorem prepareCommit_eq_ok
    (env : Environment)
    (set : ChangeSet)
    (state : CommitState)
    (prepared : PreparedCommit)
    (success : prepareCommit env set state = .ok prepared) :
    ∃ applied : CommitState, set.apply env state = .ok (prepared.changes, applied) ∧
      prepared.appliedChanges = (set.appliedChangeSet applied).1 ∧
      (set.appliedChangeSet applied).2.Extends prepared.state := by
  obtain ⟨⟨changes, applied⟩, executed, success⟩ := bind_eq_ok.mp success
  dsimp only at success
  split at success
  · cases success
  · cases success
    refine ⟨applied, executed, rfl, ?_⟩
    exact ((collect_extends tableId (fun state ref => objectId_extends state (.table ref)) _ _).trans
      (collect_extends tableId (fun state ref => objectId_extends state (.table ref)) _ _)).trans
        (collect_extends tableId (fun state ref => objectId_extends state (.table ref)) _ _)

theorem prepareCommit_extends
    (env : Environment)
    (set : ChangeSet)
    (state : CommitState)
    (prepared : PreparedCommit)
    (success : prepareCommit env set state = .ok prepared) :
    state.Extends prepared.state := by
  obtain ⟨applied, executed, _, later⟩ := prepareCommit_eq_ok env set state prepared success
  exact ((ChangeSet.apply_extends env set state _ executed).trans
    (set.appliedChangeSet_extends applied)).trans later

end Ducklake.Transaction
