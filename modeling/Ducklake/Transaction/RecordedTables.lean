import Ducklake.Transaction.Attempt
import Ducklake.Transaction.Recorded

/-!
# Tables of recorded changes

Which existing table a change refers to, and that an attempt records the change with the id of
that table.
-/

set_option autoImplicit false

namespace Ducklake.Transaction

open Lib Caches Spec

namespace Change

/-- The table that a change refers to by its id, and the kind under which it is recorded. -/
def recordedTable : Change → Option (TableRef × (Int → AppliedChange))
  | updateTablePartitioning tableRef .. | updateTableSortInfo tableRef _
  | addTableTag tableRef _ | removeTableTag tableRef _ => some (tableRef, .alteredTable)
  | updateTableColumn _ columnRef _ | removeTableColumn columnRef
  | addTableColumnTag columnRef _ | removeTableColumnTag columnRef _ =>
      some (columnRef.tableRef, .alteredTable)
  | addTableColumn _ (first :: _) _ => some (first.tableRef, .alteredTable)
  | deleteTable tableRef _ => some (tableRef, .droppedTable)
  | writeTableDataFiles tableRef _ => some (tableRef, .insertedIntoTable)
  | writeTableInlineData tableRef _ => some (tableRef, .inlinedInsert)
  | _ => none

/-- The table whose definition or data a change extends. -/
def worksOn (change : Change) : Option TableRef :=
  if change.deletedTable.isSome then none else change.recordedTable.map Prod.fst

theorem appliedChange_of_recordedTable
    (change : Change)
    (state : CommitState)
    (ref : TableRef)
    (kind : Int → AppliedChange)
    (recorded : change.recordedTable = some (ref, kind)) :
    change.appliedChange state =
      (kind (state.objectId (.table ref)).1, (state.objectId (.table ref)).2) := by
  cases change with
  | addTableColumn parent refs column =>
      cases refs with
      | nil => cases recorded
      | cons first rest =>
          cases recorded
          rfl
  | updateTablePartitioning | updateTableSortInfo | addTableTag | removeTableTag
  | updateTableColumn | removeTableColumn | addTableColumnTag | removeTableColumnTag
  | deleteTable | writeTableDataFiles | writeTableInlineData =>
      cases recorded
      rfl
  | _ => cases recorded

theorem objects_of_affectedTable
    (change : Change)
    (ref : TableRef)
    (affected : change.affectedTableRef = some ref) :
    .table ref ∈ change.objects := by
  cases change with
  | createTable =>
      obtain rfl := Option.some.inj affected
      exact List.mem_cons_self
  | createSchema | deleteSchema | createView | deleteView | createMacro | deleteMacro =>
      cases affected
  | _ => simp [objects, affected]

theorem affectedTable_of_recordedTable
    (change : Change)
    (ref : TableRef)
    (kind : Int → AppliedChange)
    (recorded : change.recordedTable = some (ref, kind)) :
    change.affectedTableRef = some ref := by
  cases change with
  | addTableColumn parent refs column =>
      cases refs with
      | nil => cases recorded
      | cons first rest =>
          cases recorded
          rfl
  | updateTablePartitioning | updateTableSortInfo | addTableTag | removeTableTag
  | updateTableColumn | removeTableColumn | addTableColumnTag | removeTableColumnTag
  | deleteTable | writeTableDataFiles | writeTableInlineData =>
      cases recorded
      rfl
  | _ => cases recorded

theorem objects_of_recordedTable
    (change : Change)
    (ref : TableRef)
    (kind : Int → AppliedChange)
    (recorded : change.recordedTable = some (ref, kind)) :
    .table ref ∈ change.objects :=
  change.objects_of_affectedTable ref (change.affectedTable_of_recordedTable ref kind recorded)

end Change

namespace CommitState

theorem collect_mem
    {α β : Type}
    (resolve : CommitState → α → β × CommitState)
    (step : ∀ (state : CommitState) item, state.Extends (resolve state item).2)
    (items : List α)
    (state : CommitState)
    (item : α)
    (member : item ∈ items) :
    ∃ middle, state.Extends middle ∧ (resolve middle item).1 ∈ (collect resolve state items).1 ∧
      (resolve middle item).2.Extends (collect resolve state items).2 := by
  induction items generalizing state with
  | nil => cases member
  | cons first rest ih =>
      rcases List.mem_cons.mp member with rfl | later
      · exact ⟨state, .refl _, by simp [collect], collect_extends resolve step rest _⟩
      · obtain ⟨middle, earlier, inside, afterwards⟩ := ih (resolve state first).2 later
        exact ⟨middle, (step state first).trans earlier, by simp [collect, inside], afterwards⟩

end CommitState

theorem ChangeSet.recorded_mem
    (set : ChangeSet)
    (state : CommitState)
    (change : Change)
    (ref : TableRef)
    (kind : Int → AppliedChange)
    (id : Int)
    (member : change ∈ set.changes)
    (recorded : change.recordedTable = some (ref, kind))
    (present : state.catalog.Has (.table ref))
    (found : (set.appliedChangeSet state).2.catalog.idOf (.table ref) = some id) :
    kind id ∈ (set.appliedChangeSet state).1.changes := by
  obtain ⟨middle, earlier, inside, later⟩ := CommitState.collect_mem Change.appliedChange
    Change.appliedChange_extends set.changes state change member
  rw [change.appliedChange_of_recordedTable middle ref kind recorded] at inside later
  have resolved := CommitState.idOf_objectId middle (.table ref) ((earlier.has _).mpr present)
  have same := later.kept _ _ resolved
  have final : (set.appliedChangeSet state).2.catalog.idOf (.table ref) =
      some (middle.objectId (.table ref)).1 := same
  rw [found] at final
  cases final
  exact (AppliedChangeSet.mem_new _ _).mpr inside

end Ducklake.Transaction
