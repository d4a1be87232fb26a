import Ducklake.Lib.History
import Ducklake.Transaction.Collects

/-!
# Rows that an attempt collects

Writes of data leave the collected catalog rows alone, and every collected row begins with the
snapshot that the attempt would create.
-/

set_option autoImplicit false

namespace Ducklake.Transaction

open Lib Caches Spec CommitState

/-! ## Writes of data -/

/-- Only the rows of data files, inline data and statistics differ. -/
def SameExceptData (before after : TransactionChanges) : Prop :=
  after = { before with
    dataFiles := after.dataFiles
    partitionValues := after.partitionValues
    columnStats := after.columnStats
    deleteFiles := after.deleteFiles
    inlineDeletes := after.inlineDeletes
    inlineTables := after.inlineTables
    inlineData := after.inlineData
    writtenColumns := after.writtenColumns }

theorem SameExceptData.trans
    {first second third : TransactionChanges}
    (earlier : SameExceptData first second)
    (later : SameExceptData second third) :
    SameExceptData first third := by
  unfold SameExceptData at *
  rw [later, earlier]

theorem addDataFile_same
    (env : Environment)
    (tableRef : TableRef)
    (tableId : Int)
    (before after : TransactionChanges × CommitState)
    (file : CommitDataFile)
    (success : Executors.addDataFile env tableRef tableId before file = .ok after) :
    SameExceptData before.1 after.1 := by
  obtain ⟨partitioned, _, success⟩ := bind_eq_ok.mp success
  obtain rfl := Except.ok.inj success
  rfl

theorem createInlinedTable_same
    (env : Environment)
    (collected : TransactionChanges × CommitState)
    (tableRef : TableRef) :
    SameExceptData collected.1 (Executors.createInlinedTable env collected tableRef).1 := by
  unfold Executors.createInlinedTable
  dsimp only
  split <;> rfl

section

variable {env : Environment} {changes : List Change}
variable {before after : TransactionChanges × CommitState}

theorem Collects.same
    (step : Collects env changes before after)
    (dataOnly : ∀ change ∈ changes, change.changesSchema = false) :
    SameExceptData before.1 after.1 := by
  cases step with
  | resolved | wroteBatch | counted | discarded => rfl
  | wroteFile member inside found success => exact addDataFile_same env _ _ _ _ _ success
  | inlined member changed => exact createInlinedTable_same env _ _
  | createdSchema member | deletedSchema member | createdView member | deletedView member
  | createdMacro member | deletedMacro member | createdTable member | tagged member
  | renamedPending member | renamed member | retiredPartitioning member | retiredSortInfo member
  | deletedTable member | addedColumn member | updatedColumn member | removedColumn member =>
      exact nomatch dataOnly _ member
  | @partitioned _ _ change _ _ _ _ _ member specified
  | @sorted _ _ change _ _ _ member specified
  | @editedTableTag _ _ change _ _ _ member specified
  | @editedColumnTag _ _ change _ _ _ member specified =>
      have changed : change.changesSchema = true := by
        cases change <;> first | rfl | cases specified
      rw [dataOnly change member] at changed
      cases changed

theorem Collected.same
    (steps : Collected env changes before after)
    (dataOnly : ∀ change ∈ changes, change.changesSchema = false) :
    SameExceptData before.1 after.1 := by
  induction steps with
  | refl => rfl
  | tail _ step ih => exact ih.trans (step.same dataOnly)

theorem ChangeSet.apply_same
    (env : Environment)
    (set : ChangeSet)
    (state : CommitState)
    (result : TransactionChanges × CommitState)
    (present : ∀ change ∈ set.changes, ∀ key ∈ change.objects, state.catalog.Has key)
    (dataOnly : set.changesSchema = false)
    (success : set.apply env state = .ok result) :
    SameExceptData .empty result.1 := by
  have plain : ∀ change ∈ set.changes, change.changesSchema = false := fun change member => by
    simpa using List.any_eq_false.mp dataOnly change member
  exact (set.apply_collected env state result present success).same plain

/-! ## One change after the other -/

theorem createInlinedTables_same
    (env : Environment)
    (refs : List TableRef)
    (collected : TransactionChanges × CommitState) :
    SameExceptData collected.1 (refs.foldl (Executors.createInlinedTable env) collected).1 ∧
      collected.2.Extends (refs.foldl (Executors.createInlinedTable env) collected).2 := by
  induction refs generalizing collected with
  | nil => exact ⟨rfl, .refl _⟩
  | cons ref rest ih =>
      obtain ⟨same, extends_⟩ := ih (Executors.createInlinedTable env collected ref)
      exact ⟨(createInlinedTable_same env collected ref).trans same,
        (Executors.createInlinedTable_extends env collected ref).trans extends_⟩

/-- The rule for applying a set: what holds of the changes taken so far, and of what was collected
for them, is kept by the steps of the next change. -/
theorem ChangeSet.apply_run
    (env : Environment)
    (set : ChangeSet)
    (state : CommitState)
    (result : TransactionChanges × CommitState)
    (holds : List Change → TransactionChanges × CommitState → Prop)
    (present : ∀ change ∈ set.changes, ∀ key ∈ change.objects, state.catalog.Has key)
    (initial : holds [] (.empty, state))
    (step : ∀ done change rest before after, set.changes = done ++ change :: rest →
      state.Extends before.2 → holds done before → change.apply env before = .ok after →
        Collected env [change] before after → holds (done ++ [change]) after)
    (success : set.apply env state = .ok result) :
    ∃ collected, state.Extends collected.2 ∧ holds set.changes collected ∧
      SameExceptData collected.1 result.1 ∧ collected.2.Extends result.2 := by
  obtain ⟨_, _, success⟩ := bind_eq_ok.mp success
  obtain ⟨collected, executed, success⟩ := bind_eq_ok.mp success
  obtain rfl := Except.ok.inj success
  have run := foldlM_prefix (fun done collected => state.Extends collected.2 ∧ holds done collected)
    ⟨.refl _, initial⟩ (fun done change rest before after split held stepped => by
      have member : change ∈ set.changes := by simp [split]
      refine ⟨held.1.trans (Change.apply_extends env before after change stepped),
        step done change rest before after split held.1 held.2 stepped ?_⟩
      exact change.apply_collected (List.mem_singleton_self _)
        (fun key object => (held.1.has key).mpr (present change member key object)) after stepped)
    executed
  obtain ⟨same, extends_⟩ :=
    createInlinedTables_same env set.tableRefsWithSchemaChanges collected
  exact ⟨collected, run.1, run.2, same, extends_.trans (set.bumpFileId_extends _)⟩

/-! ## The state -/

theorem Collects.extends (step : Collects env changes before after) :
    before.2.Extends after.2 := by
  cases step with
  | resolved key => exact objectId_extends _ key
  | sorted => exact catalogId_extends _
  | discarded => exact fileId_extends _
  | wroteFile member inside found success =>
      exact Executors.addDataFile_extends env _ _ _ _ _ success
  | wroteBatch => exact Executors.addInlineBatch_extends _ _ _
  | inlined => exact Executors.createInlinedTable_extends env _ _
  | _ => exact .refl _

theorem Collected.extends (steps : Collected env changes before after) :
    before.2.Extends after.2 := by
  induction steps with
  | refl => exact .refl _
  | tail _ step ih => exact ih.trans step.extends

/-! ## Fresh rows -/

/-- The collected rows that carry their own interval are rows of the snapshot. -/
structure TransactionChanges.FreshAt (changes : TransactionChanges) (snapshot : Int) :
    Prop where
  columns : ∀ row ∈ changes.newColumns, row.Fresh snapshot
  partitionInfo : ∀ row ∈ changes.newPartitionInfo, row.Fresh snapshot
  sortInfo : ∀ row ∈ changes.newSortInfo, row.Fresh snapshot

theorem TransactionChanges.FreshAt.of_same
    {rows next : TransactionChanges}
    {snapshot : Int}
    (fresh : rows.FreshAt snapshot)
    (same : SameExceptData rows next) :
    next.FreshAt snapshot := by
  rw [same]
  exact { fresh with }

theorem endPending_fresh
    {α : Type}
    (snapshot : Int)
    (selects : α → Bool)
    (rows : List (Versioned α))
    (fresh : ∀ row ∈ rows, row.Fresh snapshot) :
    ∀ row ∈ Executors.endPending snapshot selects rows, row.Fresh snapshot := by
  intro row member
  obtain ⟨old, inside, rfl⟩ := List.mem_map.mp member
  split
  · exact ⟨(fresh old inside).1, Or.inr rfl⟩
  · exact fresh old inside

theorem append_fresh
    {α : Type}
    (snapshot : Int)
    (rows added : List (Versioned α))
    (fresh : ∀ row ∈ rows, row.Fresh snapshot)
    (freshAdded : ∀ row ∈ added, row.Fresh snapshot) :
    ∀ row ∈ rows ++ added, row.Fresh snapshot := by
  intro row member
  rcases List.mem_append.mp member with inside | inside
  · exact fresh row inside
  · exact freshAdded row inside

theorem map_new_fresh
    {α : Type}
    (snapshot : Int)
    (entities : List α) :
    ∀ row ∈ entities.map (Versioned.new snapshot), row.Fresh snapshot := by
  intro row member
  obtain ⟨entity, _, rfl⟩ := List.mem_map.mp member
  exact Versioned.fresh_new entity

theorem Collects.freshAt
    {snapshot : Int}
    (step : Collects env changes before after)
    (fresh : before.1.FreshAt snapshot)
    (current : before.2.snapshotId = snapshot) :
    after.1.FreshAt snapshot := by
  subst current
  cases step with
  | createdTable =>
      refine { fresh with columns := append_fresh _ _ _ (append_fresh _ _ _ fresh.columns
        (map_new_fresh _ _)) ?_ }
      intro row member
      obtain ⟨column, _, rfl⟩ := List.mem_map.mp member
      exact ⟨rfl, Or.inr rfl⟩
  | addedColumn =>
      exact { fresh with columns := append_fresh _ _ _ fresh.columns (map_new_fresh _ _) }
  | updatedColumn =>
      refine { fresh with columns := append_fresh _ _ _ ?_ (map_new_fresh _ _) }
      intro row member
      exact fresh.columns row (List.mem_of_mem_filter member)
  | removedColumn =>
      refine { fresh with columns := ?_ }
      dsimp only
      exact endPending_fresh _ _ _ fresh.columns
  | partitioned =>
      refine { fresh with partitionInfo := append_fresh _ _ _ fresh.partitionInfo ?_ }
      rw [List.forall_mem_singleton]
      exact Versioned.fresh_new _
  | retiredPartitioning =>
      refine { fresh with partitionInfo := ?_ }
      dsimp only
      exact endPending_fresh _ _ _ fresh.partitionInfo
  | sorted =>
      refine { fresh with sortInfo := append_fresh _ _ _ fresh.sortInfo ?_ }
      rw [List.forall_mem_singleton]
      exact Versioned.fresh_new _
  | retiredSortInfo =>
      refine { fresh with sortInfo := ?_ }
      dsimp only
      exact endPending_fresh _ _ _ fresh.sortInfo
  | wroteFile member inside found success =>
      exact fresh.of_same (addDataFile_same env _ _ _ _ _ success)
  | inlined => exact fresh.of_same (createInlinedTable_same env _ _)
  | _ => exact { fresh with }

theorem Collected.freshAt
    {snapshot : Int}
    (steps : Collected env changes before after)
    (fresh : before.1.FreshAt snapshot)
    (current : before.2.snapshotId = snapshot) :
    after.1.FreshAt snapshot := by
  induction steps with
  | refl => exact fresh
  | tail earlier step ih =>
      exact step.freshAt ih ((Collected.extends earlier).snapshotId.trans current)

theorem freshAt_empty (snapshot : Int) : TransactionChanges.empty.FreshAt snapshot where
  columns := by simp [TransactionChanges.empty]
  partitionInfo := by simp [TransactionChanges.empty]
  sortInfo := by simp [TransactionChanges.empty]

/-! ## Files of dropped tables -/

/-- Only a transfer of tables detaches the files of the tables it drops. -/
def Change.detaches : Change → Bool
  | deleteTable _ detachFiles => detachFiles
  | _ => false

theorem Collects.detachedTables
    (step : Collects env changes before after)
    (owned : ∀ change ∈ changes, change.detaches = false) :
    after.1.detachedTables = before.1.detachedTables := by
  cases step with
  | deletedTable member =>
      have kept := owned _ member
      simp only [Change.detaches] at kept
      simp [kept]
  | wroteFile member inside found success =>
      rw [addDataFile_same env _ _ _ _ _ success]
  | inlined => rw [createInlinedTable_same env _ _]
  | _ => rfl

theorem Collected.detachedTables
    (steps : Collected env changes before after)
    (owned : ∀ change ∈ changes, change.detaches = false) :
    after.1.detachedTables = before.1.detachedTables := by
  induction steps with
  | refl => rfl
  | tail _ step ih => exact (step.detachedTables owned).trans ih

end

end Ducklake.Transaction
