import Ducklake.Lib.Rewrites
import Ducklake.Transaction.Histories
import Ducklake.Transaction.NewIds
import Ducklake.Transaction.RecordedTables

/-!
# Altered tables

An attempt ends rows by their keys only for tables that it is recorded to alter, and begins rows
only for these tables and for objects that it creates.
-/

set_option autoImplicit false

namespace Ducklake.Transaction

open Lib Caches Spec CommitState

/-! ## Changes -/

/-- A change that is recorded as an alteration refers to the table with the id. -/
def Alters (changes : List Change) (state : CommitState) (id : Int) : Prop :=
  ∃ change ∈ changes, ∃ ref, change.recordedTable = some (ref, .alteredTable) ∧
    state.catalog.idOf (.table ref) = some id

def Creates (changes : List Change) (state : CommitState) (id : Int) : Prop :=
  ∃ change ∈ changes, ∃ key, change.created = some key ∧ state.catalog.idOf key = some id

theorem Alters.extends
    {changes : List Change}
    {state later : CommitState}
    {id : Int}
    (alters : Alters changes state id)
    (extends_ : state.Extends later) :
    Alters changes later id := by
  obtain ⟨change, member, ref, recorded, found⟩ := alters
  exact ⟨change, member, ref, recorded, extends_.kept _ _ found⟩

theorem Creates.extends
    {changes : List Change}
    {state later : CommitState}
    {id : Int}
    (creates : Creates changes state id)
    (extends_ : state.Extends later) :
    Creates changes later id := by
  obtain ⟨change, member, key, made, found⟩ := creates
  exact ⟨change, member, key, made, extends_.kept _ _ found⟩

namespace Change

variable (change : Change) (tableRef : TableRef)

theorem recorded_of_partitions
    (refs : List ColumnRef)
    (partition : Partition)
    (specified : change.partitions = some (tableRef, refs, partition)) :
    change.recordedTable = some (tableRef, .alteredTable) ∨
      change.created = some (.table tableRef) := by
  unfold partitions at specified
  split at specified
  · cases specified
    exact Or.inr rfl
  · cases specified
    exact Or.inl rfl
  · cases specified

theorem recorded_of_sorts
    (expressions : SortInfo)
    (specified : change.sorts = some (tableRef, expressions)) :
    change.recordedTable = some (tableRef, .alteredTable) ∨
      change.created = some (.table tableRef) := by
  unfold sorts at specified
  split at specified
  · obtain ⟨_, _, same⟩ := Option.map_eq_some_iff.mp specified
    cases same
    exact Or.inr rfl
  · obtain ⟨_, _, same⟩ := Option.map_eq_some_iff.mp specified
    cases same
    exact Or.inl rfl
  · cases specified

theorem recorded_of_tableTagEdit
    (edit : TagChange)
    (specified : change.tableTagEdit = some (tableRef, edit)) :
    change.recordedTable = some (tableRef, .alteredTable) := by
  cases change with
  | addTableTag | removeTableTag =>
      cases specified
      rfl
  | _ => cases specified

theorem recorded_of_columnTagEdit
    (columnRef : ColumnRef)
    (edit : TagChange)
    (specified : change.columnTagEdit = some (columnRef, edit)) :
    change.recordedTable = some (columnRef.tableRef, .alteredTable) := by
  cases change with
  | addTableColumnTag | removeTableColumnTag =>
      cases specified
      rfl
  | _ => cases specified

end Change

/-! ## Collected rows -/

/-- The owners of the rows that an attempt ends and begins.  Files are detached with a drop. -/
structure TransactionChanges.OwnedBy (rows : TransactionChanges) (alters creates : Int → Prop) :
    Prop where
  retiredColumns : ∀ key ∈ rows.retiredColumns, alters key.1
  retiredPartitions : ∀ id ∈ rows.retiredPartitionTables, alters id
  retiredSorts : ∀ id ∈ rows.retiredSortTables, alters id
  tableTagEdits : ∀ edit ∈ rows.tableTags, alters edit.1
  columnTagEdits : ∀ edit ∈ rows.columnTags, alters edit.1.1
  tags : ∀ row ∈ rows.newTags, alters row.objectId ∨ creates row.objectId
  columns : Versioned.Entities (fun column => alters column.tableId ∨ creates column.tableId)
    rows.newColumns
  columnTags : ∀ row ∈ rows.newColumnTags, alters row.tableId ∨ creates row.tableId
  partitionInfo : Versioned.Entities (fun info => alters info.tableId ∨ creates info.tableId)
    rows.newPartitionInfo
  sortInfo : Versioned.Entities (fun info => alters info.tableId ∨ creates info.tableId)
    rows.newSortInfo
  detached : ∀ id ∈ rows.detachedTables, id ∈ rows.droppedTables

namespace TransactionChanges.OwnedBy

variable {rows next : TransactionChanges} {alters creates altersLater createsLater : Int → Prop}

theorem mono
    (owned : rows.OwnedBy alters creates)
    (altered : ∀ id, alters id → altersLater id)
    (created : ∀ id, creates id → createsLater id) :
    rows.OwnedBy altersLater createsLater where
  retiredColumns key member := altered _ (owned.retiredColumns key member)
  retiredPartitions id member := altered _ (owned.retiredPartitions id member)
  retiredSorts id member := altered _ (owned.retiredSorts id member)
  tableTagEdits edit member := altered _ (owned.tableTagEdits edit member)
  columnTagEdits edit member := altered _ (owned.columnTagEdits edit member)
  tags row member := (owned.tags row member).imp (altered _) (created _)
  columns row member := (owned.columns row member).imp (altered _) (created _)
  columnTags row member := (owned.columnTags row member).imp (altered _) (created _)
  partitionInfo row member := (owned.partitionInfo row member).imp (altered _) (created _)
  sortInfo row member := (owned.sortInfo row member).imp (altered _) (created _)
  detached := owned.detached

theorem of_same
    (owned : rows.OwnedBy alters creates)
    (same : SameExceptData rows next) :
    next.OwnedBy alters creates := by
  rw [same]
  exact { owned with }

end TransactionChanges.OwnedBy

theorem ownedBy_empty (alters creates : Int → Prop) :
    TransactionChanges.empty.OwnedBy alters creates := by
  constructor <;> simp [TransactionChanges.empty, Versioned.Entities.nil]

section

variable {env : Environment} {changes : List Change}
variable {before after : TransactionChanges × CommitState}

theorem Collects.ownedBy
    (owned : before.1.OwnedBy (Alters changes before.2) (Creates changes before.2))
    (step : Collects env changes before after) :
    after.1.OwnedBy (Alters changes after.2) (Creates changes after.2) := by
  have grown := owned.mono (fun _ alters => Alters.extends alters step.extends)
    fun _ creates => Creates.extends creates step.extends
  have altered : ∀ {change : Change} {ref : TableRef} {id : Int}, change ∈ changes →
      change.recordedTable = some (ref, .alteredTable) →
      before.2.catalog.idOf (.table ref) = some id → Alters changes after.2 id :=
    fun member recorded found => ⟨_, member, _, recorded, step.extends.kept _ _ found⟩
  have created : ∀ {change : Change} {key : ObjectRef} {id : Int}, change ∈ changes →
      change.created = some key → before.2.catalog.idOf key = some id →
      Creates changes after.2 id :=
    fun member made found => ⟨_, member, _, made, step.extends.kept _ _ found⟩
  cases step with
  | createdView member found located =>
      refine { grown with tags := forall_mem_append grown.tags fun row inside => Or.inr ?_ }
      rw [objectTagRows_objectId _ _ row inside]
      exact created member rfl found
  | createdTable member found located success =>
      have made := created member rfl found
      obtain ⟨rows, tags⟩ := tableColumnRows_tableId env _ _ _ _ success
      refine { grown with
        columns := (grown.columns.append
          (.map_new _ _ fun row inside => Or.inr ?_)).append fun row inside => Or.inr ?_
        columnTags := forall_mem_append grown.columnTags fun row inside => Or.inr ?_ }
      · rw [rows row inside]
        exact made
      · obtain ⟨column, _, rfl⟩ := List.mem_map.mp inside
        exact made
      · rw [tags row inside]
        exact made
  | tagged member found =>
      refine { grown with tags := forall_mem_append grown.tags fun row inside => Or.inr ?_ }
      rw [objectTagRows_objectId _ _ row inside]
      exact created member rfl found
  | partitioned member specified found =>
      refine { grown with partitionInfo := grown.partitionInfo.append (.singleton ?_) }
      exact (Change.recorded_of_partitions _ _ _ _ specified).imp
        (fun recorded => altered member recorded found) fun made => created member made found
  | sorted member specified found =>
      refine { grown with sortInfo := grown.sortInfo.append (.singleton ?_) }
      exact (Change.recorded_of_sorts _ _ _ specified).imp
        (fun recorded => altered member recorded found) fun made => created member made found
  | retiredPartitioning member found =>
      refine { grown with
        retiredPartitions := forall_mem_append grown.retiredPartitions ?_
        partitionInfo := ?_ }
      · rw [List.forall_mem_singleton]
        exact altered member rfl found
      · dsimp only
        exact endPending_entities _ _ grown.partitionInfo
  | retiredSortInfo member found =>
      refine { grown with
        retiredSorts := forall_mem_append grown.retiredSorts ?_
        sortInfo := ?_ }
      · rw [List.forall_mem_singleton]
        exact altered member rfl found
      · dsimp only
        exact endPending_entities _ _ grown.sortInfo
  | @deletedTable rows state tableRef detachFiles tableId member found =>
      refine { grown with detached := fun id inside => ?_ }
      have old : id ∈ rows.detachedTables → id ∈ rows.droppedTables ++ [tableId] :=
        fun detached => List.mem_append_left _ (grown.detached id detached)
      cases detachFiles with
      | true => exact (List.mem_append.mp inside).elim old (List.mem_append_right _)
      | false => exact old inside
  | editedTableTag member specified found =>
      refine { grown with tableTagEdits := forall_mem_append grown.tableTagEdits ?_ }
      rw [List.forall_mem_singleton]
      exact altered member (Change.recorded_of_tableTagEdit _ _ _ specified) found
  | editedColumnTag member specified found =>
      refine { grown with columnTagEdits := forall_mem_append grown.columnTagEdits ?_ }
      rw [List.forall_mem_singleton]
      exact altered member (Change.recorded_of_columnTagEdit _ _ _ specified) found
  | addedColumn member found success =>
      have recorded := altered member rfl found
      obtain ⟨rows, tags⟩ := columnRows_tableId env _ _ _ _ _ _ success
      refine { grown with
        columns := grown.columns.append (.map_new _ _ fun row inside => Or.inl ?_)
        columnTags := forall_mem_append grown.columnTags fun row inside => Or.inl ?_ }
      · rw [rows row inside]
        exact recorded
      · rw [tags row inside]
        exact recorded
  | updatedColumn member found success =>
      have recorded := altered member rfl found
      obtain ⟨rows, _⟩ := columnRows_tableId env _ _ _ _ _ _ success
      refine { grown with
        retiredColumns := forall_mem_append grown.retiredColumns ?_
        columns := (grown.columns.filter _).append (.map_new _ _ fun row inside => Or.inl ?_) }
      · rw [List.forall_mem_singleton]
        exact recorded
      · rw [rows row inside]
        exact recorded
  | removedColumn member found =>
      refine { grown with
        retiredColumns := forall_mem_append grown.retiredColumns ?_
        columns := ?_ }
      · rw [List.forall_mem_singleton]
        exact altered member rfl found
      · dsimp only
        exact endPending_entities _ _ grown.columns
  | wroteFile member inside found success =>
      exact grown.of_same (addDataFile_same env _ _ _ _ _ success)
  | inlined => exact grown.of_same (createInlinedTable_same env _ _)
  | _ => exact { grown with }

theorem Collected.ownedBy
    {start : CommitState}
    (steps : Collected env changes (.empty, start) after) :
    after.1.OwnedBy (Alters changes after.2) (Creates changes after.2) := by
  induction steps with
  | refl => exact ownedBy_empty _ _
  | tail _ step ih => exact step.ownedBy ih

end

theorem prepareCommit_ownedBy
    (env : Environment)
    (set : ChangeSet)
    (state : CommitState)
    (prepared : PreparedCommit)
    (present : ∀ change ∈ set.changes, ∀ key ∈ change.objects, state.catalog.Has key)
    (success : prepareCommit env set state = .ok prepared) :
    prepared.changes.OwnedBy (Alters set.changes prepared.state)
      (Creates set.changes prepared.state) := by
  obtain ⟨applied, executed, _, later⟩ := prepareCommit_eq_ok env set state prepared success
  have extends_ := (set.appliedChangeSet_extends applied).trans later
  exact (Collected.ownedBy (set.apply_collected env state _ present executed)).mono
    (fun _ alters => Alters.extends alters extends_) fun _ creates => Creates.extends creates extends_

/-! ## Written rows -/

/-- What a commit ends and begins, kind by kind. -/
structure Database.Rewrites (state : CommitState) (changes : TransactionChanges)
    (alters creates : Int → Prop) (before after : Database) : Prop where
  schemas : Versioned.Rewrites state.snapshotId (fun row => row.schemaId ∈ changes.droppedSchemas)
    (fun _ => True) before.schemas after.schemas
  tables : Versioned.Rewrites state.snapshotId (fun row => row.tableId ∈ changes.droppedTables ∨
    changes.renamedTables.contains row.tableId = true) (fun _ => True) before.tables after.tables
  views : Versioned.Rewrites state.snapshotId (fun row => row.viewId ∈ changes.droppedViews)
    (fun _ => True) before.views after.views
  macros : Versioned.Rewrites state.snapshotId (fun row => row.macroId ∈ changes.droppedMacros)
    (fun _ => True) before.macros after.macros
  columns : Versioned.Rewrites state.snapshotId
    (fun row => row.tableId ∈ changes.droppedTables ∨ alters row.tableId)
    (fun row => alters row.tableId ∨ creates row.tableId) before.columns after.columns
  columnTags : Versioned.Rewrites state.snapshotId
    (fun row => row.tableId ∈ changes.droppedTables ∨ alters row.tableId)
    (fun row => alters row.tableId ∨ creates row.tableId) before.columnTags after.columnTags
  tags : Versioned.Rewrites state.snapshotId
    (fun row => (row.objectId ∈ changes.droppedTables ∨ row.objectId ∈ changes.droppedSchemas ∨
      row.objectId ∈ changes.droppedViews) ∨ alters row.objectId)
    (fun row => alters row.objectId ∨ creates row.objectId) before.tags after.tags
  partitionInfo : Versioned.Rewrites state.snapshotId
    (fun row => row.tableId ∈ changes.droppedTables ∨ alters row.tableId)
    (fun row => alters row.tableId ∨ creates row.tableId) before.partitionInfo after.partitionInfo
  sortInfo : Versioned.Rewrites state.snapshotId
    (fun row => row.tableId ∈ changes.droppedTables ∨ alters row.tableId)
    (fun row => alters row.tableId ∨ creates row.tableId) before.sortInfo after.sortInfo
  dataFiles : Versioned.Rewrites state.snapshotId
    (fun row => row.tableId ∈ changes.droppedTables) (fun _ => True)
    before.dataFiles after.dataFiles
  deleteFiles : Versioned.Rewrites state.snapshotId
    (fun row => row.tableId ∈ changes.droppedTables) (fun _ => True)
    before.deleteFiles after.deleteFiles

section

variable {α κ : Type} {snapshot : Int} {ends begins : α → Prop}

theorem rewrites_persistTableRenames
    (endsTable beginsTable : DucklakeTable → Prop)
    (renames : IndexMap Int Text)
    (tables : List (Versioned DucklakeTable))
    (allowed : ∀ table, beginsTable table) :
    Versioned.Rewrites snapshot endsTable beginsTable tables
      (persistTableRenames snapshot renames tables) := by
  refine .append _ _ fun row member => ?_
  obtain ⟨old, _, copied⟩ := List.mem_filterMap.mp member
  split at copied
  · obtain ⟨name, _, rfl⟩ := Option.map_eq_some_iff.mp copied
    exact ⟨rfl, allowed _⟩
  · cases copied

theorem rewrites_persistTags
    (selects : κ → Text → α → Bool)
    (entity : κ → Text → Text → α)
    (edits : List (κ × TagChange))
    (ended : ∀ edit ∈ edits, ∀ row, selects edit.1 edit.2.key row = true → ends row)
    (begun : ∀ edit ∈ edits, ∀ value, begins (entity edit.1 edit.2.key value))
    (rows : List (Versioned α)) :
    Versioned.Rewrites snapshot ends begins rows
      (persistTags snapshot selects entity rows edits) := by
  refine .foldl _ edits (fun edit member rows => ?_) rows
  refine (Versioned.Rewrites.retire _ (ended edit member) rows).trans (.append _ _ fun row new => ?_)
  obtain ⟨value, _, rfl⟩ := Option.map_eq_some_iff.mp (Option.mem_toList.mp new)
  exact ⟨rfl, begun edit member value⟩

end

theorem written_rewrites
    (env : Environment)
    (state : CommitState)
    (changes : TransactionChanges)
    (db : Database)
    (alters creates : Int → Prop)
    (owned : changes.OwnedBy alters creates)
    (fresh : changes.FreshAt state.snapshotId) :
    Database.Rewrites state changes alters creates db (written env state changes db) where
  schemas := (Versioned.Rewrites.retire _ (fun _ => of_decide_eq_true) _).trans
    (.append_new _ _ fun _ _ => trivial)
  tables := by
    refine (Versioned.Rewrites.retire _ (fun row selected => ?_) _).trans
      ((rewrites_persistTableRenames _ _ _ _ fun _ => trivial).trans
        (.append_new _ _ fun _ _ => trivial))
    simpa using selected
  views := (Versioned.Rewrites.retire _ (fun _ => of_decide_eq_true) _).trans
    (.append_new _ _ fun _ _ => trivial)
  macros := (Versioned.Rewrites.retire _ (fun _ => of_decide_eq_true) _).trans
    (.append_new _ _ fun _ _ => trivial)
  columns := by
    refine (Versioned.Rewrites.retire _ (fun row selected => ?_) _).trans
      (.append _ _ fun row new => ⟨(fresh.columns row new).1, owned.columns row new⟩)
    simp only [Bool.or_eq_true, decide_eq_true_eq] at selected
    exact selected.imp_right (owned.retiredColumns _)
  columnTags := by
    simp only [written, persistStatistics]
    refine ((Versioned.Rewrites.retire _ (fun row selected => ?_) _).trans
      (.append_new _ _ owned.columnTags)).trans
        (rewrites_persistTags _ _ _ (fun edit member row selected => ?_) (fun edit member _ => ?_) _)
    · exact Or.inl (of_decide_eq_true selected)
    · have same : row.tableId = edit.1.1 := congrArg Prod.fst (of_decide_eq_true selected).1
      exact Or.inr (same ▸ owned.columnTagEdits edit member)
    · exact Or.inl (owned.columnTagEdits edit member)
  tags := by
    simp only [written, persistStatistics]
    refine ((Versioned.Rewrites.retire _ (fun row selected => ?_) _).trans
      (.append_new _ _ owned.tags)).trans
        (rewrites_persistTags _ _ _ (fun edit member row selected => ?_) (fun edit member _ => ?_) _)
    · simp only [Bool.or_eq_true, decide_eq_true_eq, or_assoc] at selected
      exact Or.inl selected
    · exact Or.inr ((of_decide_eq_true selected).1 ▸ owned.tableTagEdits edit member)
    · exact Or.inl (owned.tableTagEdits edit member)
  partitionInfo := by
    refine (Versioned.Rewrites.retire _ (fun row selected => ?_) _).trans
      (.append _ _ fun row new => ⟨(fresh.partitionInfo row new).1, owned.partitionInfo row new⟩)
    simp only [Bool.or_eq_true, decide_eq_true_eq] at selected
    exact selected.imp_right (owned.retiredPartitions _)
  sortInfo := by
    refine (Versioned.Rewrites.retire _ (fun row selected => ?_) _).trans
      (.append _ _ fun row new => ⟨(fresh.sortInfo row new).1, owned.sortInfo row new⟩)
    simp only [Bool.or_eq_true, decide_eq_true_eq] at selected
    exact selected.imp_right (owned.retiredSorts _)
  dataFiles := by
    refine ((Versioned.Rewrites.filter _ (fun row detached => ?_) _).trans
      (.retire _ (fun _ => of_decide_eq_true) _)).trans (.append_new _ _ fun _ _ => trivial)
    exact owned.detached _ (not_not.mp (of_decide_eq_false detached))
  deleteFiles := by
    refine ((Versioned.Rewrites.filter _ (fun row detached => ?_) _).trans
      (.retire _ (fun _ => of_decide_eq_true) _)).trans (.append_new _ _ fun _ _ => trivial)
    exact owned.detached _ (not_not.mp (of_decide_eq_false detached))

theorem persistCommit_rewrites
    (env : Environment)
    (now : Int)
    (prepared : PreparedCommit)
    (before after : Database)
    (alters creates : Int → Prop)
    (owned : prepared.changes.OwnedBy alters creates)
    (fresh : prepared.changes.FreshAt prepared.state.snapshotId)
    (success : persistCommit env now prepared before = .ok after) :
    Database.Rewrites prepared.state prepared.changes alters creates before after := by
  have same := persistCommit_same env now prepared before after success
  unfold SameExceptSnapshots at same
  rw [same]
  exact { written_rewrites env prepared.state prepared.changes before alters creates owned fresh with }

end Ducklake.Transaction
