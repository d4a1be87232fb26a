import Ducklake.Catalog.Columns
import Ducklake.Lib.Except
import Ducklake.Typedefs.Flatten

/-!
# Column trees in the arena

A column tree that is added to a table stands in one piece in the arena.  The indices collected
below its root are those of all its columns, unless fields of one name hide each other.
-/

set_option autoImplicit false

namespace Ducklake

open Lib

theorem ofColumns_eq_ok
    (columns : List Column)
    (schema : Schema)
    (success : Schema.ofColumns columns = .ok schema) :
    schema.columns.values = columns ∧ (columns.map Column.name).Nodup := by
  obtain ⟨map, inserted, rfl⟩ := map_eq_ok.mp success
  have steps : ∀ (rest : List Column) (before after : IndexMap Text Column),
      rest.foldlM Schema.insertColumn before = .ok after →
      after.entries = before.entries ++ rest.map fun column => (column.name, column) := by
    intro rest
    induction rest with
    | nil =>
        intro before after success
        obtain rfl := Except.ok.inj success
        simp
    | cons column rest ih =>
        intro before after success
        obtain ⟨middle, added, success⟩ := bind_eq_ok.mp success
        unfold Schema.insertColumn at added
        split at added
        · cases added
        · rename_i fresh
          obtain rfl := Except.ok.inj added
          have absent : column.name ∉ before.entries.map Prod.fst := fun inside =>
            fresh ((IndexMap.contains_iff before column.name).mpr inside)
          have entries : (before.insert column.name column).entries =
              before.entries ++ [(column.name, column)] :=
            IndexMap.insertEntries_of_notMem _ _ _ absent
          rw [ih _ after success, entries]
          simp
  have entries := steps columns .empty map inserted
  have unique := map.unique
  simp only [IndexMap.empty, List.nil_append] at entries
  rw [entries] at unique
  exact ⟨by simp [IndexMap.values, entries, Function.comp_def],
    by simpa [Function.comp_def] using unique⟩

namespace CatalogColumns

/-- The entry of the arena that a flattened column gets, apart from its id. -/
structure EntryOf (columns : CatalogColumns) (first : ArenaIdx) (parent : Option ArenaIdx)
    (whole : List FlattenedColumn) (position : Nat) (flat : FlattenedColumn) : Prop where
  dtype : flatDataType flat.column.dtype
    ((Column.positionsBelow position 0 whole).map (first + ·)) =
      .ok (columns.column (first + position)).dtype
  name : (columns.column (first + position)).name = flat.column.name
  parentColumn : (columns.column (first + position)).parentColumn =
    (flat.parentIndex.map (first + ·)).or parent
  nullable : (columns.column (first + position)).nullable = flat.column.nullable
  tags : (columns.column (first + position)).tags = flat.column.tags
  initialDefault : (columns.column (first + position)).initialDefault = flat.column.initialDefault
  defaultValue : (columns.column (first + position)).defaultValue = flat.column.defaultValue

def Continues (before after : CatalogColumns) : Prop :=
  ∃ added, after.arena = before.arena ++ added

theorem Continues.refl (columns : CatalogColumns) : columns.Continues columns :=
  ⟨[], by simp⟩

theorem Continues.trans
    {first second third : CatalogColumns}
    (earlier : first.Continues second)
    (later : second.Continues third) :
    first.Continues third := by
  obtain ⟨added, grown⟩ := earlier
  obtain ⟨addedLater, grownLater⟩ := later
  exact ⟨added ++ addedLater, by rw [grownLater, grown, List.append_assoc]⟩

theorem Continues.column
    {before after : CatalogColumns}
    (continues : before.Continues after)
    (idx : ArenaIdx)
    (inside : idx < before.arena.length) :
    after.column idx = before.column idx := by
  obtain ⟨added, grown⟩ := continues
  simp [CatalogColumns.column, grown, List.getD_eq_getElem?_getD,
    List.getElem?_append_left inside]

theorem Continues.length_le
    {before after : CatalogColumns}
    (continues : before.Continues after) :
    before.arena.length ≤ after.arena.length := by
  obtain ⟨added, grown⟩ := continues
  rw [grown, List.length_append]
  omega

theorem EntryOf.continues
    {before after : CatalogColumns}
    {first : ArenaIdx}
    {parent : Option ArenaIdx}
    {whole : List FlattenedColumn}
    {position : Nat}
    {flat : FlattenedColumn}
    (entry : before.EntryOf first parent whole position flat)
    (continues : before.Continues after)
    (inside : first + position < before.arena.length) :
    after.EntryOf first parent whole position flat := by
  have same := continues.column (first + position) inside
  constructor <;> rw [same]
  · exact entry.dtype
  · exact entry.name
  · exact entry.parentColumn
  · exact entry.nullable
  · exact entry.tags
  · exact entry.initialDefault
  · exact entry.defaultValue

/-! ## Adding a tree -/

theorem addFlattenedColumn_pushes
    (first : ArenaIdx)
    (whole : List FlattenedColumn)
    (parent : Option ArenaIdx)
    (preserve : Bool)
    (before after : CatalogColumns)
    (position : Nat)
    (flat : FlattenedColumn)
    (success : addFlattenedColumn first whole parent preserve before (position, flat) =
      .ok after) :
    ∃ (dtype : CatalogDataType) (id : Int) (taken : CatalogColumns),
      flatDataType flat.column.dtype (whole.zipIdx.filterMap fun entry =>
        if entry.1.parentIndex = some position then some (first + entry.2) else none) = .ok dtype ∧
      (taken.arena = before.arena ∧ taken.rootColumns = before.rootColumns ∧
        taken.byId = before.byId) ∧
      after = taken.pushColumn {
        id := id
        name := flat.column.name
        dtype := dtype
        parentColumn := (flat.parentIndex.map (first + ·)).or parent
        nullable := flat.column.nullable
        tags := flat.column.tags
        initialDefault := flat.column.initialDefault
        defaultValue := flat.column.defaultValue } := by
  obtain ⟨dtype, typed, success⟩ := bind_eq_ok.mp success
  dsimp only at success
  split at success
  · split at success
    · exact ⟨dtype, _, before, typed, ⟨rfl, rfl, rfl⟩, (Except.ok.inj success).symm⟩
    · cases success
  · obtain ⟨⟨id, taken⟩, numbered, success⟩ := bind_eq_ok.mp success
    refine ⟨dtype, id, taken, typed, ?_, (Except.ok.inj success).symm⟩
    unfold takeColumnId at numbered
    split at numbered
    · cases numbered
      exact ⟨rfl, rfl, rfl⟩
    · cases numbered

/-- The children of a flattened column, at their positions in the arena. -/
theorem childIdxs_eq
    (first : ArenaIdx)
    (whole : List FlattenedColumn)
    (position : Nat) :
    (whole.zipIdx.filterMap fun entry =>
      if entry.1.parentIndex = some position then some (first + entry.2) else none) =
      (Column.positionsBelow position 0 whole).map (first + ·) := by
  rw [Column.positionsBelow, List.map_filterMap]
  refine List.filterMap_congr fun entry _ => ?_
  split <;> rfl

theorem addFlattenedColumn_eq_ok
    (first : ArenaIdx)
    (whole : List FlattenedColumn)
    (parent : Option ArenaIdx)
    (preserve : Bool)
    (before after : CatalogColumns)
    (position : Nat)
    (flat : FlattenedColumn)
    (placed : before.arena.length = first + position)
    (success : addFlattenedColumn first whole parent preserve before (position, flat) =
      .ok after) :
    before.Continues after ∧ after.arena.length = first + position + 1 ∧
      after.rootColumns = before.rootColumns ∧
      after.EntryOf first parent whole position flat := by
  obtain ⟨dtype, id, taken, typed, same, rfl⟩ :=
    addFlattenedColumn_pushes first whole parent preserve before after position flat success
  rw [childIdxs_eq] at typed
  have last : ∀ column : CatalogColumn,
      (taken.pushColumn column).column (first + position) = column := by
    intro column
    rw [← placed, ← same.1]
    simp [CatalogColumns.column, pushColumn]
  refine ⟨⟨_, by rw [pushColumn, same.1]⟩, ?_, same.2.1, ?_⟩
  · rw [pushColumn, List.length_append, same.1, placed, List.length_singleton]
  · constructor <;> rw [last]
    exact typed

theorem foldlM_addFlattenedColumn
    (first : ArenaIdx)
    (whole : List FlattenedColumn)
    (parent : Option ArenaIdx)
    (preserve : Bool)
    (rest : List FlattenedColumn)
    (position : Nat)
    (before after : CatalogColumns)
    (placed : before.arena.length = first + position)
    (success : ((rest.zipIdx position).map Prod.swap).foldlM
      (addFlattenedColumn first whole parent preserve) before = .ok after) :
    before.Continues after ∧ after.arena.length = first + position + rest.length ∧
      after.rootColumns = before.rootColumns ∧
      ∀ index flat, rest[index]? = some flat →
        after.EntryOf first parent whole (position + index) flat := by
  induction rest generalizing position before with
  | nil =>
      obtain rfl := Except.ok.inj success
      exact ⟨.refl _, placed, rfl, fun index flat found => nomatch found⟩
  | cons head tail ih =>
      obtain ⟨middle, added, success⟩ := bind_eq_ok.mp success
      obtain ⟨continues, size, roots, entry⟩ :=
        addFlattenedColumn_eq_ok first whole parent preserve before middle position head placed added
      obtain ⟨continuesLater, sizeLater, rootsLater, entries⟩ :=
        ih (position + 1) middle size success
      refine ⟨continues.trans continuesLater, ?_, rootsLater.trans roots, ?_⟩
      · rw [sizeLater, List.length_cons]
        omega
      · intro index flat found
        cases index with
        | zero =>
            obtain rfl := Option.some.inj found
            exact entry.continues continuesLater (by rw [size]; exact Nat.lt_succ_self _)
        | succ index =>
            have later := entries index flat (by simpa using found)
            rwa [Nat.add_assoc, Nat.add_comm 1] at later

theorem addColumnToArena_eq_ok
    (before after : CatalogColumns)
    (column : Column)
    (parent : Option ArenaIdx)
    (preserve : Bool)
    (idxs : List ArenaIdx)
    (success : before.addColumnToArena column parent preserve = .ok (idxs, after)) :
    idxs = List.range' before.arena.length column.size ∧ before.Continues after ∧
      after.arena.length = before.arena.length + column.size ∧
      after.rootColumns = before.rootColumns ∧
      ∀ position flat, column.flatten[position]? = some flat →
        after.EntryOf before.arena.length parent column.flatten position flat := by
  obtain ⟨columns, added, success⟩ := bind_eq_ok.mp success
  obtain ⟨rfl, rfl⟩ := Prod.mk.inj (Except.ok.inj success)
  obtain ⟨continues, size, roots, entries⟩ :=
    foldlM_addFlattenedColumn _ column.flatten parent preserve column.flatten 0 before columns rfl added
  refine ⟨by rw [Column.length_flatten], continues, ?_, roots, ?_⟩
  · rw [size, Column.length_flatten, Nat.add_zero]
  · simpa using entries

/-! ## The columns below a root -/

/-- All entries of a tree stand behind each other from the first index on. -/
structure Laid (columns : CatalogColumns) (first : ArenaIdx) (parent : Option ArenaIdx)
    (root : Column) : Prop where
  inside : first + root.size ≤ columns.arena.length
  entries : ∀ position flat, root.flatten[position]? = some flat →
    columns.EntryOf first parent root.flatten position flat

theorem Laid.continues
    {before after : CatalogColumns}
    {first : ArenaIdx}
    {parent : Option ArenaIdx}
    {root : Column}
    (laid : before.Laid first parent root)
    (continues : before.Continues after) :
    after.Laid first parent root where
  inside := Nat.le_trans laid.inside continues.length_le
  entries position flat found := by
    have below : position < root.size := by
      rw [← Column.length_flatten]
      exact (List.getElem?_eq_some_iff.mp found).1
    exact (laid.entries position flat found).continues continues
      (Nat.lt_of_lt_of_le (Nat.add_lt_add_left below first) laid.inside)

theorem addColumnToArena_laid
    (before after : CatalogColumns)
    (column : Column)
    (parent : Option ArenaIdx)
    (preserve : Bool)
    (idxs : List ArenaIdx)
    (success : before.addColumnToArena column parent preserve = .ok (idxs, after)) :
    after.Laid before.arena.length parent column := by
  obtain ⟨_, _, size, _, entries⟩ :=
    addColumnToArena_eq_ok before after column parent preserve idxs success
  exact ⟨Nat.le_of_eq size.symm, entries⟩

/-- The children of an entry are the trees of the column's children; a struct loses the fields
whose name comes again. -/
theorem children_flatDataType
    (dtype : DataType)
    (idxs : List ArenaIdx)
    (result : CatalogDataType)
    (full : idxs.length = dtype.children.length)
    (success : flatDataType dtype idxs = .ok result) :
    (children result).Subperm idxs ∧
      ((children result).length = idxs.length ↔
        ∀ fields, dtype = .struct fields → (fields.map Column.name).Nodup) := by
  unfold flatDataType at success
  split at success
  · obtain rfl := Except.ok.inj success
    obtain rfl : idxs = [] := List.length_eq_zero_iff.mp full
    simp [children]
  · obtain rfl := Except.ok.inj success
    rename_i item rest
    obtain rfl : rest = [] := by simpa [DataType.children] using full
    simp [children, List.Subperm.refl]
  · obtain rfl := Except.ok.inj success
    rename_i key value rest
    obtain rfl : rest = [] := by simpa [DataType.children] using full
    simp [children, List.Subperm.refl]
  · obtain rfl := Except.ok.inj success
    rename_i fields child rest
    have zipped : ((fields.map Column.name).zip (child :: rest)).map Prod.snd = child :: rest := by
      rw [List.map_snd_zip]
      simpa [DataType.children] using Nat.le_of_eq full
    have keys : ((fields.map Column.name).zip (child :: rest)).map Prod.fst =
        fields.map Column.name := by
      rw [List.map_fst_zip]
      simpa [DataType.children] using Nat.le_of_eq full.symm
    obtain ⟨kept, permuted, inside⟩ :=
      IndexMap.ofList_subperm ((fields.map Column.name).zip (child :: rest))
    refine ⟨⟨kept.map Prod.snd, permuted.map Prod.snd, zipped ▸ inside.map Prod.snd⟩, ?_⟩
    have size : ((fields.map Column.name).zip (child :: rest)).length = (child :: rest).length := by
      rw [← List.length_map Prod.snd, zipped]
    rw [children, IndexMap.values, List.length_map, ← size,
      IndexMap.length_ofList_eq_iff, keys]
    simp
  · cases success

section

variable {columns : CatalogColumns} {first : ArenaIdx} {parent : Option ArenaIdx} {root : Column}

theorem Laid.children
    (laid : columns.Laid first parent root)
    (start : Nat)
    (above : Option Nat)
    (column : Column)
    (piece : Column.PieceOf root.flatten start above column) :
    flatDataType column.dtype
      ((Column.starts (start + 1) column.dtype.children).map (first + ·)) =
        .ok (columns.column (first + start)).dtype := by
  have entry := laid.entries start ⟨column, above⟩ piece.root
  rw [← piece.positions]
  exact entry.dtype

/-- With different names, the children of an entry are the children of the column in order. -/
theorem children_of_distinct
    (dtype : DataType)
    (idxs : List ArenaIdx)
    (result : CatalogDataType)
    (full : idxs.length = dtype.children.length)
    (distinct : ∀ fields, dtype = .struct fields → (fields.map Column.name).Nodup)
    (success : flatDataType dtype idxs = .ok result) :
    CatalogColumns.children result = idxs := by
  unfold flatDataType at success
  split at success
  · obtain rfl := Except.ok.inj success
    exact (List.length_eq_zero_iff.mp full).symm
  · obtain rfl := Except.ok.inj success
    rename_i item rest
    obtain rfl : rest = [] := by simpa [DataType.children] using full
    rfl
  · obtain rfl := Except.ok.inj success
    rename_i key value rest
    obtain rfl : rest = [] := by simpa [DataType.children] using full
    rfl
  · obtain rfl := Except.ok.inj success
    rename_i fields child rest
    have keys : ((fields.map Column.name).zip (child :: rest)).map Prod.fst =
        fields.map Column.name := by
      rw [List.map_fst_zip]
      simpa [DataType.children] using Nat.le_of_eq full.symm
    have unique : (((fields.map Column.name).zip (child :: rest)).map Prod.fst).Nodup := by
      rw [keys]
      exact distinct fields rfl
    rw [CatalogColumns.children, IndexMap.values, IndexMap.ofList_entries_of_nodup _ unique,
      List.map_snd_zip]
    simpa [DataType.children] using Nat.le_of_eq full
  · cases success

theorem sum_map_add_length_le
    {α : Type}
    (f : α → Nat)
    (positive : ∀ item, 1 ≤ f item)
    (few many : List α)
    (inside : few.Subperm many) :
    (few.map f).sum + many.length ≤ (many.map f).sum + few.length := by
  obtain ⟨kept, permuted, sub⟩ := inside
  have sums : (few.map f).sum = (kept.map f).sum := (permuted.symm.map f).sum_nat
  rw [sums, ← permuted.length_eq]
  clear sums permuted
  induction sub with
  | slnil => exact Nat.le_refl _
  | cons head _ ih =>
      have more := positive head
      simp only [List.map_cons, List.sum_cons, List.length_cons]
      omega
  | cons_cons head _ ih =>
      simp only [List.map_cons, List.sum_cons, List.length_cons]
      omega

theorem aggregateColumnIndices_pos (fuel : Nat) (idx : ArenaIdx) :
    1 ≤ (columns.aggregateColumnIndices fuel idx).length := by
  cases fuel <;> simp [aggregateColumnIndices]

/-- The sizes of siblings bound what is collected below their indices. -/
theorem sum_starts_le
    (f : ArenaIdx → Nat)
    (siblings : List Column)
    (start : ArenaIdx)
    (bounded : ∀ front child back, siblings = front ++ child :: back →
      f (start + Column.sizeOfAll front) ≤ child.size) :
    (((Column.starts start siblings).map f).sum ≤ Column.sizeOfAll siblings) ∧
      (Column.sizeOfAll siblings ≤ ((Column.starts start siblings).map f).sum →
        ∀ front child back, siblings = front ++ child :: back →
          child.size ≤ f (start + Column.sizeOfAll front)) := by
  induction siblings generalizing start with
  | nil => simp [Column.starts, Column.sizeOfAll]
  | cons first rest ih =>
      have head : f start ≤ first.size := by simpa [Column.sizeOfAll] using bounded [] first rest rfl
      obtain ⟨below, tight⟩ := ih (start + first.size) (by
        intro front child back split
        have bound := bounded (first :: front) child back (by rw [split, List.cons_append])
        rwa [Column.sizeOfAll, ← Nat.add_assoc] at bound)
      simp only [Column.starts, Column.sizeOfAll, List.map_cons, List.sum_cons]
      refine ⟨by omega, fun full front child back split => ?_⟩
      cases front with
      | nil =>
          obtain ⟨rfl, rfl⟩ := List.cons.inj split
          simp only [Column.sizeOfAll, Nat.add_zero]
          omega
      | cons other front =>
          obtain ⟨rfl, inner⟩ := List.cons.inj split
          have later := tight (by omega) front child back inner
          rwa [Column.sizeOfAll, ← Nat.add_assoc]

/-- Below a root at most as many columns are collected as the tree has, and fewer if fields of
one name hide each other. -/
theorem Laid.length_aggregate
    (laid : columns.Laid first parent root)
    (column : Column)
    (fuel start : Nat)
    (above : Option Nat)
    (piece : Column.PieceOf root.flatten start above column) :
    (columns.aggregateColumnIndices fuel (first + start)).length ≤ column.size ∧
      (column.size ≤ (columns.aggregateColumnIndices fuel (first + start)).length →
        column.distinctFields = true) := by
  induction column using Column.induct generalizing fuel start above with
  | step column ih =>
      have whole := Column.size_eq column
      have typed := laid.children start above column piece
      have full : ((Column.starts (start + 1) column.dtype.children).map (first + ·)).length =
          column.dtype.children.length := by
        rw [List.length_map, Column.length_starts]
      cases fuel with
      | zero =>
          refine ⟨column.size_pos, fun small => ?_⟩
          have none : column.dtype.children = [] := by
            cases kids : column.dtype.children with
            | nil => rfl
            | cons first rest =>
                have positive := first.size_pos
                rw [kids, Column.sizeOfAll] at whole
                simp only [aggregateColumnIndices, List.length_singleton] at small
                omega
          rw [Column.distinctFields_iff, none]
          refine ⟨fun fields shape => ?_, by simp⟩
          rw [shape] at none
          simp [show fields = [] from none]
      | succ fuel =>
          obtain ⟨inside, sameLength⟩ := children_flatDataType column.dtype _ _ full typed
          have below := sum_map_add_length_le
            (fun idx => (columns.aggregateColumnIndices fuel idx).length)
            (aggregateColumnIndices_pos fuel) _ _ inside
          have pieces : ∀ front child back, column.dtype.children = front ++ child :: back →
              Column.PieceOf root.flatten (start + 1 + Column.sizeOfAll front) (some start) child :=
            fun front child back => piece.child front back child
          obtain ⟨bounded, tight⟩ := sum_starts_le
            (fun position => (columns.aggregateColumnIndices fuel (first + position)).length)
            column.dtype.children (start + 1) fun front child back split =>
              (ih child (by simp [split]) fuel _ _ (pieces front child back split)).1
          have collected : (columns.aggregateColumnIndices (fuel + 1) (first + start)).length =
              1 + ((CatalogColumns.children (columns.column (first + start)).dtype).map
                fun idx => (columns.aggregateColumnIndices fuel idx).length).sum := by
            rw [aggregateColumnIndices, List.length_cons, List.length_flatMap, Nat.add_comm]
          rw [List.map_map] at below
          rw [collected]
          have fewer := inside.length_le
          simp only [Function.comp_def] at below
          refine ⟨by omega, fun small => ?_⟩
          rw [Column.distinctFields_iff]
          refine ⟨sameLength.mp (by omega), fun child member => ?_⟩
          obtain ⟨front, back, split⟩ := List.append_of_mem member
          exact (ih child member fuel _ _ (pieces front child back split)).2
            (tight (by omega) front child back split)

/-- The indices of a tree without hidden fields are those of one piece of the arena. -/
theorem Laid.aggregate_eq
    (laid : columns.Laid first parent root)
    (column : Column)
    (fuel start : Nat)
    (above : Option Nat)
    (piece : Column.PieceOf root.flatten start above column)
    (distinct : column.distinctFields = true)
    (enough : column.size ≤ fuel + 1) :
    columns.aggregateColumnIndices fuel (first + start) =
      List.range' (first + start) column.size := by
  induction column using Column.induct generalizing fuel start above with
  | step column ih =>
      obtain ⟨names, below⟩ := (Column.distinctFields_iff column).mp distinct
      have whole := Column.size_eq column
      have typed := laid.children start above column piece
      have kids := children_of_distinct column.dtype _ _
        (by rw [List.length_map, Column.length_starts]) names typed
      cases fuel with
      | zero =>
          have one : column.size = 1 := by
            have positive := column.size_pos
            omega
          rw [one]
          rfl
      | succ fuel =>
          have behind : ∀ (siblings : List Column) (position : Nat),
              (∀ front child back, siblings = front ++ child :: back →
                columns.aggregateColumnIndices fuel (first + (position + Column.sizeOfAll front)) =
                  List.range' (first + (position + Column.sizeOfAll front)) child.size) →
              ((Column.starts position siblings).map (first + ·)).flatMap
                  (columns.aggregateColumnIndices fuel) =
                List.range' (first + position) (Column.sizeOfAll siblings) := by
            intro siblings
            induction siblings with
            | nil => exact fun _ _ => rfl
            | cons head rest restIh =>
                intro position each
                have headIndices := each [] head rest rfl
                have restIndices := restIh (position + head.size) (by
                  intro front child back split
                  have indices := each (head :: front) child back (by rw [split, List.cons_append])
                  rwa [Column.sizeOfAll, ← Nat.add_assoc position] at indices)
                simp only [Column.sizeOfAll, Nat.add_zero] at headIndices
                rw [Column.starts, List.map_cons, List.flatMap_cons, headIndices, restIndices,
                  Column.sizeOfAll, ← Nat.add_assoc, List.range'_append_1]
          rw [aggregateColumnIndices, kids, behind _ (start + 1), whole, List.range'_succ, Nat.add_assoc]
          intro front child back split
          have member : child ∈ column.dtype.children := by simp [split]
          have small := Column.size_le_sizeOfAll _ child member
          exact ih child member fuel _ _ (piece.child front back child split) (below child member)
            (by omega)

/-! ## Tables of a schema -/

/-- The columns of a schema stand in the arena one tree after the other. -/
theorem fromSchema_eq_ok
    (schema : Schema)
    (nextColumnId : Option Int)
    (columns : CatalogColumns)
    (unique : (schema.columns.values.map Column.name).Nodup)
    (success : fromSchema schema nextColumnId = .ok columns) :
    List.Forall₂ (fun idx column => columns.Laid idx none column) columns.rootColumns.values
      schema.columns.values ∧
      columns.rootColumns.keys = schema.columns.values.map Column.name := by
  have steps : ∀ (rest : List Column) (before after : CatalogColumns) (done : List Column),
      (((done ++ rest).map Column.name).Nodup) →
      before.rootColumns.keys = done.map Column.name →
      List.Forall₂ (fun idx column => before.Laid idx none column) before.rootColumns.values done →
      rest.foldlM (fun columns column => do
        let added ← columns.addColumnToArena column none nextColumnId.isSome
        .ok { added.2 with
          rootColumns := added.2.rootColumns.insert column.name columns.arena.length })
        before = Except.ok (ε := DucklakeError) after →
      List.Forall₂ (fun idx column => after.Laid idx none column) after.rootColumns.values
        (done ++ rest) ∧ after.rootColumns.keys = (done ++ rest).map Column.name := by
    intro rest
    induction rest with
    | nil =>
        intro before after done _ keys laid success
        obtain rfl := Except.ok.inj success
        simpa using ⟨laid, keys⟩
    | cons column rest ih =>
        intro before after done unique keys laid success
        obtain ⟨middle, added, success⟩ := bind_eq_ok.mp success
        obtain ⟨⟨idxs, grown⟩, placed, added⟩ := bind_eq_ok.mp added
        obtain rfl := Except.ok.inj added
        obtain ⟨_, continues, _, roots, _⟩ :=
          addColumnToArena_eq_ok before grown column none _ idxs placed
        have fresh : column.name ∉ before.rootColumns.entries.map Prod.fst := by
          intro inside
          rw [show before.rootColumns.entries.map Prod.fst = done.map Column.name from keys] at inside
          rw [List.map_append, List.nodup_append] at unique
          exact unique.2.2 _ inside column.name (by simp) rfl
        have appended : (grown.rootColumns.insert column.name before.arena.length).entries =
            before.rootColumns.entries ++ [(column.name, before.arena.length)] := by
          rw [roots]
          exact IndexMap.insertEntries_of_notMem _ _ _ fresh
        have result := ih { grown with
            rootColumns := grown.rootColumns.insert column.name before.arena.length } after
          (done ++ [column]) (by simpa using unique)
          (by
            rw [IndexMap.keys, appended, List.map_append, List.map_append]
            exact congrArg (· ++ [column.name]) keys)
          (by
            rw [IndexMap.values, appended, List.map_append]
            refine List.rel_append ?_ (.cons ?_ .nil)
            · exact laid.imp fun idx column old => old.continues continues
            · exact (addColumnToArena_laid before grown column none _ idxs placed).continues
                ⟨[], by simp⟩) success
        simpa using result
  simpa using steps schema.columns.values (new (some (nextColumnId.getD 1))) columns []
    (by simpa using unique) rfl .nil success

/-- The trees of a schema start right behind each other and fill the arena. -/
theorem fromSchema_positions
    (schema : Schema)
    (nextColumnId : Option Int)
    (columns : CatalogColumns)
    (unique : (schema.columns.values.map Column.name).Nodup)
    (success : fromSchema schema nextColumnId = .ok columns) :
    columns.rootColumns.values = Column.starts 0 schema.columns.values ∧
      columns.arena.length = Column.sizeOfAll schema.columns.values := by
  have steps : ∀ (rest : List Column) (before after : CatalogColumns),
      (rest.map Column.name).Nodup →
      (∀ column ∈ rest, column.name ∉ before.rootColumns.keys) →
      rest.foldlM (fun columns column => do
        let added ← columns.addColumnToArena column none nextColumnId.isSome
        .ok { added.2 with
          rootColumns := added.2.rootColumns.insert column.name columns.arena.length })
        before = Except.ok (ε := DucklakeError) after →
      after.rootColumns.values =
          before.rootColumns.values ++ Column.starts before.arena.length rest ∧
        after.arena.length = before.arena.length + Column.sizeOfAll rest := by
    intro rest
    induction rest with
    | nil =>
        intro before after _ _ success
        obtain rfl := Except.ok.inj success
        simp [Column.starts, Column.sizeOfAll]
    | cons column rest ih =>
        intro before after unique absent success
        obtain ⟨middle, added, success⟩ := bind_eq_ok.mp success
        obtain ⟨⟨idxs, grown⟩, placed, added⟩ := bind_eq_ok.mp added
        obtain rfl := Except.ok.inj added
        obtain ⟨_, _, size, roots, _⟩ :=
          addColumnToArena_eq_ok before grown column none _ idxs placed
        have appended : (grown.rootColumns.insert column.name before.arena.length).entries =
            before.rootColumns.entries ++ [(column.name, before.arena.length)] := by
          rw [roots]
          exact IndexMap.insertEntries_of_notMem _ _ _ (absent column (List.mem_cons_self ..))
        obtain ⟨notLater, uniqueRest⟩ := List.nodup_cons.mp unique
        obtain ⟨values, length⟩ := ih { grown with
            rootColumns := grown.rootColumns.insert column.name before.arena.length } after
          uniqueRest
          (by
            intro later member listed
            rw [IndexMap.keys, appended, List.map_append, List.mem_append] at listed
            rcases listed with old | new
            · exact absent later (List.mem_cons_of_mem _ member) old
            · have same : later.name = column.name := List.mem_singleton.mp new
              exact notLater (same ▸ List.mem_map_of_mem member)) success
        constructor
        · rw [values, IndexMap.values, appended, List.map_append, size, Column.starts,
            List.append_assoc]
          rfl
        · rw [length, size, Column.sizeOfAll, Nat.add_assoc]
  have run := steps schema.columns.values (new (some (nextColumnId.getD 1))) columns unique
    (by intro column _ listed; cases listed) success
  simpa [new, IndexMap.values, IndexMap.empty] using run

/-- When no field hides another one, the indices of all roots are those of the arena. -/
theorem flatten_rootColumnIndices
    (schema : Schema)
    (nextColumnId : Option Int)
    (columns : CatalogColumns)
    (unique : (schema.columns.values.map Column.name).Nodup)
    (success : fromSchema schema nextColumnId = .ok columns)
    (whole : List.Forall₂ (fun (column : Column) (indices : List ArenaIdx) =>
      column.size ≤ indices.length) schema.columns.values columns.rootColumnIndices) :
    columns.rootColumnIndices.flatten = List.range columns.arena.length := by
  obtain ⟨laid, _⟩ := fromSchema_eq_ok schema nextColumnId columns unique success
  obtain ⟨values, length⟩ := fromSchema_positions schema nextColumnId columns unique success
  have behind : ∀ (trees : List Column) (position : Nat),
      List.Forall₂ (fun idx column => columns.Laid idx none column)
        (Column.starts position trees) trees →
      List.Forall₂ (fun (column : Column) (indices : List ArenaIdx) =>
        column.size ≤ indices.length) trees ((Column.starts position trees).map
          (columns.aggregateColumnIndices columns.arena.length)) →
      ((Column.starts position trees).map
        (columns.aggregateColumnIndices columns.arena.length)).flatten =
          List.range' position (Column.sizeOfAll trees) := by
    intro trees
    induction trees with
    | nil => exact fun _ _ _ => rfl
    | cons tree rest ih =>
        intro position laid whole
        rw [Column.starts] at laid whole
        cases laid with
        | cons first later =>
            rw [List.map_cons] at whole
            cases whole with
            | cons full fullLater =>
                have piece := Column.pieceOf_flatten tree
                have distinct := (first.length_aggregate tree columns.arena.length 0 none piece).2
                  full
                have indices := first.aggregate_eq tree columns.arena.length 0 none piece distinct
                  (Nat.le_succ_of_le (Nat.le_trans (Nat.le_add_left _ _) first.inside))
                rw [Column.starts, List.map_cons, List.flatten_cons, ih _ later fullLater,
                  Column.sizeOfAll, ← List.range'_append_1]
                exact congrArg (· ++ _) indices
  rw [rootColumnIndices, values] at whole ⊢
  rw [values] at laid
  rw [behind schema.columns.values 0 laid whole, length, List.range_eq_range']

end

end CatalogColumns

end Ducklake
