import Ducklake.Catalog.LoadedColumns

/-!
# Runs of column edits

The views of the columns agree from new and from loaded tables on, until a column is removed or
one is added whose fields hide each other.
-/

set_option autoImplicit false

namespace Ducklake

open Lib Spec

namespace CatalogColumns

/-! ## Edits -/

inductive ColumnEdit where
  | add (parentPath : List Text) (column : Column)
  | rename (path : List Text) (newName : Text)
  | remove (path : List Text)
  | retype (path : List Text) (type : PrimitiveType)

def parentByPath (columns : CatalogColumns) (path : List Text) :
    DucklakeResult (Option ArenaIdx) :=
  if path.isEmpty then .ok none else (columns.arenaIdxByPath path).map some

/-- One mutation of the columns, at a path.  The counter of a loaded table is taken from the
database before the first column is added. -/
def edit (next : Int) (columns : CatalogColumns) : ColumnEdit → DucklakeResult CatalogColumns
  | .add parentPath column => do
      let parent ← columns.parentByPath parentPath
      let numbered := { columns with nextColumnId := some (columns.nextColumnId.getD next) }
      let (_, columns) ← numbered.addColumn parent column
      .ok columns
  | .rename path newName => do
      let idx ← columns.arenaIdxByPath path
      columns.renameColumn idx newName
  | .remove path => do
      let idx ← columns.arenaIdxByPath path
      .ok (columns.removeColumn idx).2
  | .retype path type => do
      let idx ← columns.arenaIdxByPath path
      match (columns.column idx).dtype with
      | .primitive source =>
          if source.canPromoteTo type then
            .ok (columns.modifyColumn idx fun column => { column with dtype := .primitive type })
          else .error (.invalidCast (DataType.primitive source).display
            (DataType.primitive type).display)
      | _ => .error (.invalidCast (columns.schemaColumnFromArenaIndex idx).dtype.display
          (DataType.primitive type).display)

/-- A sequence of mutations; those that fail change nothing. -/
def edits (next : Int) (columns : CatalogColumns) (edits : List ColumnEdit) : CatalogColumns :=
  edits.foldl (fun columns edit => (columns.edit next edit).toOption.getD columns) columns

/-- No column is removed, and no struct of an added column has two fields of one name. -/
def ColumnEdit.keepsViews : ColumnEdit → Bool
  | .add _ column => column.distinctFields
  | .rename .. => true
  | .remove _ => false
  | .retype .. => true

section

variable {columns after : CatalogColumns} {next : Int}

/-! ## Runs -/

theorem edit_live
    (edit : ColumnEdit)
    (live : columns.Live next)
    (kept : edit.keepsViews = true)
    (success : columns.edit next edit = .ok after) :
    after.Live next := by
  have located : ∀ path idx, columns.arenaIdxByPath path = .ok idx → idx < columns.arena.length :=
    live.rooted.linked.closed.arenaIdxByPath
  cases edit with
  | add parentPath column =>
      obtain ⟨parent, _, success⟩ := bind_eq_ok.mp success
      obtain ⟨⟨idxs, result⟩, added, success⟩ := bind_eq_ok.mp success
      obtain rfl := Except.ok.inj success
      have counted : Live next
          { columns with nextColumnId := some (columns.nextColumnId.getD next) } :=
        ⟨live.numbered.of_same rfl rfl rfl, live.rooted.linked.of_same rfl rfl,
          live.rooted.reached, live.rooted.below⟩
      obtain ⟨grown, named, adding⟩ := addColumn_eq_ok column idxs added
      refine ⟨addColumn_numbered parent column idxs counted.rooted.linked.closed
        counted.numbered added, ?_⟩
      rw [adding.added]
      exact counted.rooted.add column false adding.found adding.fresh adding.placed
        adding.siblings kept
  | rename path newName =>
      obtain ⟨idx, found, success⟩ := bind_eq_ok.mp success
      obtain ⟨named, renames⟩ := renameColumn_eq_ok idx newName success
      exact renames.live success live (located path idx found)
  | remove path => cases kept
  | retype path type =>
      obtain ⟨idx, found, success⟩ := bind_eq_ok.mp success
      split at success
      · rename_i source typed
        split at success
        · obtain rfl := Except.ok.inj success
          exact live.retype idx source type typed
        · cases success
      · cases success

theorem edits_live
    (steps : List ColumnEdit)
    (live : columns.Live next)
    (kept : ∀ edit ∈ steps, edit.keepsViews = true) :
    (columns.edits next steps).Live next := by
  induction steps generalizing columns with
  | nil => exact live
  | cons edit rest ih =>
      refine ih ?_ fun later member => kept later (List.mem_cons_of_mem _ member)
      cases result : columns.edit next edit with
      | error error =>
          dsimp only
          rw [result]
          exact live
      | ok after =>
          dsimp only
          rw [result]
          exact edit_live edit live (kept edit List.mem_cons_self) result

end

/-- The columns of a table that was created, transferred or loaded. -/
inductive Started (next : Int) (columns : CatalogColumns) : Prop where
  | created
      (schema : Schema)
      (unique : (schema.columns.values.map Column.name).Nodup)
      (distinct : ∀ column ∈ schema.columns.values, column.distinctFields = true)
      (success : fromSchema schema none = .ok columns)
  | transferred
      (schema : Schema)
      (nextColumnId : Int)
      (unique : (schema.columns.values.map Column.name).Nodup)
      (distinct : ∀ column ∈ schema.columns.values, column.distinctFields = true)
      (ids : ((schema.columns.values.flatMap Column.flatten).filterMap
        fun flat => flat.column.fieldId).Nodup)
      (below : ∀ id ∈ (schema.columns.values.flatMap Column.flatten).filterMap
        (fun flat => flat.column.fieldId), id < nextColumnId)
      (success : fromSchema schema (some nextColumnId) = .ok columns)
  | loaded
      (env : Environment)
      (rows : List DucklakeColumn)
      (tags : List DucklakeColumnTag)
      (links : RowsLinked rows)
      (below : ∀ row ∈ rows, row.columnId < next)
      (success : fromDucklake env rows tags = .ok columns)

theorem Started.live
    {next : Int}
    {columns : CatalogColumns}
    (started : columns.Started next) :
    columns.Live next := by
  cases started with
  | created schema unique distinct success =>
      exact fromSchema_live schema next unique distinct success
  | transferred schema nextColumnId unique distinct ids below success =>
      exact fromSchema_transfer_live schema next nextColumnId unique distinct ids below success
  | loaded env rows tags links below success =>
      exact fromDucklake_live env rows tags columns next links below success

/-- Without removals, the views agree after every sequence of edits. -/
theorem edits_viewsAgree
    (next : Int)
    (columns : CatalogColumns)
    (steps : List ColumnEdit)
    (started : columns.Started next)
    (kept : ∀ edit ∈ steps, edit.keepsViews = true) :
    (columns.edits next steps).ViewsAgree :=
  (edits_live steps started.live kept).viewsAgree

def singleColumn : Schema :=
  ⟨IndexMap.ofList [("a".toList,
    .mk "a".toList (.primitive .int32) true default none (.literal none) none)]⟩

def singleColumns : CatalogColumns where
  arena := [⟨1, "a".toList, .primitive .int32, none, true, default, none, .literal none⟩]
  byId := .ofList [(1, 0)]
  rootColumns := .ofList [("a".toList, 0)]
  nextColumnId := some 2

theorem edits_viewsAgree_singleColumns :
    (singleColumns.edits 1 [
      .add [] (.mk "b".toList (.list (.mk "element".toList (.primitive .int32) true default none
        (.literal none) none)) true default none (.literal none) none),
      .rename ["a".toList] "c".toList]).ViewsAgree :=
  edits_viewsAgree 1 singleColumns _
    (.created singleColumn (by decide +kernel) (by decide +kernel) (by decide +kernel))
    (by decide +kernel)

/-! ## Removal -/

theorem get?_foldl_erase
    (deletions : List Int)
    (byId : IndexMap Int ArenaIdx)
    (id : Int)
    (removed : id ∈ deletions ∨ byId.get? id = none) :
    (deletions.foldl (fun byId id => byId.erase id) byId).get? id = none := by
  induction deletions generalizing byId with
  | nil =>
      rcases removed with impossible | missing
      · cases impossible
      · exact missing
  | cons first rest ih =>
      refine ih _ ?_
      rw [IndexMap.get?_erase]
      by_cases same : id = first
      · exact Or.inr (if_pos same)
      · rw [if_neg same]
        rcases removed with member | missing
        · exact Or.inl ((List.mem_cons.mp member).resolve_left same)
        · exact Or.inr missing

/-- A removed column leaves the id index, and is still found by its path. -/
theorem remove_not_viewsAgree
    (next : Int)
    (columns after : CatalogColumns)
    (path : List Text)
    (success : columns.edit next (.remove path) = .ok after) :
    ¬after.ViewsAgree := by
  obtain ⟨idx, found, success⟩ := bind_eq_ok.mp success
  obtain rfl := Except.ok.inj success
  intro agree
  obtain ⟨id, entry⟩ := (agree.byId idx).mpr ⟨path, found⟩
  obtain rfl := agree.ids id idx entry
  have deleted : idx ∈ columns.aggregateColumnIndices columns.arena.length idx := by
    unfold aggregateColumnIndices
    split <;> simp
  have missing := get?_foldl_erase
    ((columns.aggregateColumnIndices columns.arena.length idx).map
      fun idx => (columns.column idx).id) columns.byId (columns.column idx).id
    (Or.inl (List.mem_map_of_mem deleted))
  rw [List.foldl_map] at missing
  rw [show (columns.removeColumn idx).2.byId.get? ((columns.removeColumn idx).2.column idx).id =
    none from missing] at entry
  cases entry

/-- The removed column of a table is still there, and its name stays taken. -/
theorem edits_singleColumns_remove :
    fromSchema singleColumn none = .ok singleColumns ∧
      ¬(singleColumns.edits 1 [.remove ["a".toList]]).ViewsAgree ∧
      (singleColumns.edits 1 [.remove ["a".toList]]).arenaIdxByPath ["a".toList] = .ok 0 ∧
      (singleColumns.edits 1 [.remove ["a".toList]]).edit 1 (.add []
        (.mk "a".toList (.primitive .int32) true default none (.literal none) none)) =
          .error (columnAlreadyExists "a".toList) := by
  refine ⟨by decide +kernel, ?_, by decide +kernel, by decide +kernel⟩
  exact remove_not_viewsAgree 1 singleColumns _ ["a".toList] rfl

end CatalogColumns

end Ducklake
