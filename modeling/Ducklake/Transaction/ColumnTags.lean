import Ducklake.Transaction.NewColumns

/-!
# Tags of columns

Every tag that a commit stores for a column belongs to a column that has a row: one that the commit
writes, or one that was stored when the transaction started.
-/

set_option autoImplicit false

namespace Ducklake

open Lib Caches Spec Transaction

namespace Transaction

/-! ## Collected tags -/

theorem columnRows_tags
    (env : Environment)
    (state : CommitState)
    (tableId : Int)
    (parent : Option ColumnRef)
    (refs : List ColumnRef)
    (column : Column)
    (built : List DucklakeColumn × List DucklakeColumnTag)
    (success : Executors.columnRows env state tableId parent refs column = .ok built) :
    ∀ tag ∈ built.2, ∃ row ∈ built.1, row.tableId = tag.tableId ∧ row.columnId = tag.columnId := by
  unfold Executors.columnRows at success
  dsimp only at success
  split at success
  · cases success
  · obtain rfl := Except.ok.inj success
    intro tag member
    obtain ⟨entry, inside, tagged⟩ := List.mem_flatMap.mp member
    obtain ⟨_, _, rfl⟩ := List.mem_map.mp tagged
    exact ⟨_, List.mem_map_of_mem inside, rfl, rfl⟩

theorem tableColumnRows_tags
    (env : Environment)
    (state : CommitState)
    (tableId : Int)
    (columns : List (Column × List ColumnRef))
    (built : List (List DucklakeColumn × List DucklakeColumnTag))
    (success : Executors.tableColumnRows env state tableId columns = .ok built) :
    ∀ tag ∈ built.flatMap Prod.snd, ∃ row ∈ built.flatMap Prod.fst,
      row.tableId = tag.tableId ∧ row.columnId = tag.columnId := by
  intro tag member
  obtain ⟨rows, inside, own⟩ := List.mem_flatMap.mp member
  obtain ⟨index, bound, rfl⟩ := List.mem_iff_getElem.mp inside
  have entry := List.forall₂_iff_get.mp (mapM_eq_ok.mp success)
  obtain ⟨row, listed, same⟩ := columnRows_tags env state tableId none _ _ _
    (entry.2 index (by rw [entry.1]; exact bound) bound) tag own
  exact ⟨row, List.mem_flatMap.mpr ⟨_, inside, listed⟩, same⟩

/-- Every collected tag is one of a column that has a row, and every collected edit of a tag is that
of a change. -/
structure TagsOfColumns (changes : List Change)
    (collected : TransactionChanges × CommitState) : Prop where
  rows : ∀ tag ∈ collected.1.newColumnTags,
    (tag.tableId, tag.columnId) ∈ collected.1.columnKeys
  edits : ∀ edit ∈ collected.1.columnTags, ∃ change ∈ changes, ∃ column,
    change.columnTagEdit = some (column, edit.2) ∧
      collected.2.catalog.idOf (.table column.tableRef) = some edit.1.1 ∧
        collected.2.columnId column = edit.1.2

section

variable {env : Environment} {changes : List Change}
variable {before after : TransactionChanges × CommitState}

theorem TagsOfColumns.of_same
    (tags : TagsOfColumns changes before)
    (rows : TransactionChanges)
    (later : CommitState)
    (same : SameExceptData before.1 rows)
    (extends_ : before.2.Extends later) :
    TagsOfColumns changes (rows, later) := by
  rw [same]
  refine ⟨tags.rows, fun edit listed => ?_⟩
  obtain ⟨change, member, column, specified, found, id⟩ := tags.edits edit listed
  exact ⟨change, member, column, specified, extends_.kept _ _ found,
    (columnId_of_extends extends_ column).trans id⟩

theorem Collects.tagsOfColumns
    (tags : TagsOfColumns changes before)
    (step : Collects env changes before after) :
    TagsOfColumns changes after := by
  have extends_ := step.extends
  have keys := step.columnKeys_subset
  have rows : ∀ tag ∈ before.1.newColumnTags,
      (tag.tableId, tag.columnId) ∈ after.1.columnKeys := fun tag listed =>
    keys (tags.rows tag listed)
  have edits : ∀ edit ∈ before.1.columnTags, ∃ change ∈ changes, ∃ column,
      change.columnTagEdit = some (column, edit.2) ∧
        after.2.catalog.idOf (.table column.tableRef) = some edit.1.1 ∧
          after.2.columnId column = edit.1.2 := by
    intro edit listed
    obtain ⟨change, member, column, specified, found, id⟩ := tags.edits edit listed
    exact ⟨change, member, column, specified, extends_.kept _ _ found,
      (columnId_of_extends extends_ column).trans id⟩
  cases step with
  | createdTable member found located success =>
      refine ⟨List.forall_mem_append.mpr ⟨rows, fun tag listed => ?_⟩, edits⟩
      obtain ⟨row, inside, table, id⟩ := tableColumnRows_tags env _ _ _ _ success tag listed
      rw [← table, ← id]
      exact List.mem_map.mpr ⟨_, List.mem_append_left _
        (List.mem_append_right _ (List.mem_map_of_mem inside)), rfl⟩
  | addedColumn member found success =>
      refine ⟨List.forall_mem_append.mpr ⟨rows, fun tag listed => ?_⟩, edits⟩
      obtain ⟨row, inside, table, id⟩ := columnRows_tags env _ _ _ _ _ _ success tag listed
      rw [← table, ← id]
      exact List.mem_map.mpr ⟨_, List.mem_append_right _ (List.mem_map_of_mem inside), rfl⟩
  | editedColumnTag member specified found =>
      refine ⟨rows, List.forall_mem_append.mpr ⟨edits, ?_⟩⟩
      rw [List.forall_mem_singleton]
      exact ⟨_, member, _, specified, found, rfl⟩
  | wroteFile member inside found success =>
      exact tags.of_same _ _ (addDataFile_same env _ _ _ _ _ success) extends_
  | inlined =>
      exact tags.of_same _ _ (createInlinedTable_same env _ _) extends_
  | _ => exact ⟨rows, edits⟩

theorem Collected.tagsOfColumns
    (tags : TagsOfColumns changes before)
    (steps : Collected env changes before after) :
    TagsOfColumns changes after := by
  induction steps with
  | refl => exact tags
  | tail _ step ih => exact step.tagsOfColumns ih

theorem prepareCommit_tagsOfColumns
    (set : ChangeSet)
    (state : CommitState)
    (prepared : PreparedCommit)
    (present : ∀ change ∈ set.changes, ∀ key ∈ change.objects, state.catalog.Has key)
    (success : prepareCommit env set state = .ok prepared) :
    TagsOfColumns set.changes (prepared.changes, prepared.state) := by
  obtain ⟨applied, executed, _, later⟩ := prepareCommit_eq_ok env set state prepared success
  have collected := (set.apply_collected env state _ present executed).tagsOfColumns
    ⟨by simp [TransactionChanges.empty], by simp [TransactionChanges.empty]⟩
  exact collected.of_same _ _ rfl ((set.appliedChangeSet_extends applied).trans later)

end

/-! ## Columns whose tags are edited -/

theorem Change.introduces_of_newColumns
    (change : Change)
    (owns : change.OwnsColumns)
    (column : ColumnRef)
    (member : column ∈ change.newColumns) :
    ∃ ids, change.introduces = some (column.tableRef, change.newColumns, ids) := by
  have affected := owns column (change.newColumns_subset member)
  cases change with
  | createTable => exact ⟨_, congrArg (fun ref => some (ref, _)) (Option.some.inj affected)⟩
  | addTableColumn _ columnRefs =>
      cases columnRefs with
      | nil => cases member
      | cons first rest =>
          exact ⟨[], congrArg (fun ref => some (ref, _)) (Option.some.inj affected)⟩
  | _ => cases member

theorem exists_creates_keepLast
    {tx : Transaction}
    (first : tx.CreatedFirst)
    (owns : ∀ change ∈ tx.changes, change.OwnsColumns)
    (change : Change)
    (member : change ∈ tx.changes)
    (column : ColumnRef)
    (creates : change.Creates column) :
    ∃ last ∈ keepLast tx.changes, last.deletedTable = none ∧
      last.affectedTableRef = some column.tableRef ∧ (last.Whole → column ∈ last.newColumns) := by
  obtain ⟨last, kept, same⟩ := List.mem_map.mp
    ((mem_map_keepLast tx.changes change.hashable).mpr (List.mem_map_of_mem member))
  have recorded := (keepLast_sublist tx.changes).subset kept
  refine ⟨last, kept, ?_⟩
  rcases creates with ⟨made, whole⟩ | added
  · have madeLast : last.created = some (.table column.tableRef) := by
      cases change <;> cases made
      cases last <;> cases same
      rfl
    obtain rfl := first.unique change last member recorded _ made madeLast
    cases change <;> cases made
    exact ⟨rfl, rfl, whole⟩
  · have affected := owns change member column (change.addedColumns_subset added)
    cases change with
    | addTableColumn parent columnRefs _ =>
        cases last <;> cases same
        exact ⟨rfl, affected, fun _ => added⟩
    | _ => cases added

/-- A column that the transaction creates is created by a change that is applied, when a change to
its table is. -/
theorem exists_introduces
    {tx : Transaction}
    (first : tx.CreatedFirst)
    (owns : ∀ change ∈ tx.changes, change.OwnsColumns)
    (whole : ∀ change ∈ (ChangeSet.new tx.changes).changes, change.Whole)
    (creator edit : Change)
    (member : creator ∈ tx.changes)
    (column : ColumnRef)
    (creates : creator.Creates column)
    (applied : edit ∈ (ChangeSet.new tx.changes).changes)
    (affected : edit.affectedTableRef = some column.tableRef)
    (kept : edit.deletedTable = none) :
    ∃ change ∈ (ChangeSet.new tx.changes).changes, ∃ columns ids,
      change.introduces = some (column.tableRef, columns, ids) ∧ column ∈ columns := by
  obtain ⟨last, listed, keptLast, own, newColumn⟩ :=
    exists_creates_keepLast first owns creator member column creates
  have inside := ChangeSet.mem_new_of_table tx.changes last edit column.tableRef listed own keptLast
    applied affected kept
  have created := newColumn (whole last inside)
  obtain ⟨ids, introduces⟩ := last.introduces_of_newColumns
    (owns last (ChangeSet.mem_of_mem_new _ last inside)) column created
  exact ⟨last, inside, _, ids, introduces, created⟩

end Transaction

end Ducklake
