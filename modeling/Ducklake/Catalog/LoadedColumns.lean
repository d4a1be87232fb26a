import Ducklake.Catalog.LiveColumns

/-!
# Live columns of loaded tables

The columns of a loaded table are live if its rows refer to each other as they should.
-/

set_option autoImplicit false

namespace Ducklake

open Lib Spec

def isNestedType (columnType : Text) : Prop :=
  columnType = "list".toList ∨ columnType = "struct".toList ∨ columnType = "map".toList

/-- The rows of a table's columns: every parent stands before its children and is nested. -/
structure RowsLinked (rows : List DucklakeColumn) : Prop where
  unique : (rows.map DucklakeColumn.columnId).Nodup
  parents : ∀ (child : ArenaIdx) (row : DucklakeColumn) (id : Int),
    (sortByOrder rows)[child]? = some row → row.parentColumn = some id →
    ∃ (parent : ArenaIdx) (above : DucklakeColumn), parent < child ∧ (sortByOrder rows)[parent]? = some above ∧
      above.columnId = id ∧ isNestedType above.columnType

/-! ## Types -/

theorem foldlM_fields
    (children : List (DucklakeColumn × ArenaIdx))
    (fields : IndexMap Text ArenaIdx)
    (success : children.foldlM (fun (fields : IndexMap Text ArenaIdx) child =>
      if fields.contains child.1.columnName then
        .error (CatalogColumns.columnAlreadyExists child.1.columnName)
      else .ok (fields.insert child.1.columnName child.2)) .empty =
        Except.ok (ε := DucklakeError) fields) :
    (∀ child ∈ children, fields.get? child.1.columnName = some child.2) ∧
      ∀ name idx, fields.get? name = some idx →
        ∃ child ∈ children, child.1.columnName = name ∧ child.2 = idx := by
  refine foldlM_prefix (fun done (fields : IndexMap Text ArenaIdx) =>
    (∀ child ∈ done, fields.get? child.1.columnName = some child.2) ∧
      ∀ name idx, fields.get? name = some idx →
        ∃ child ∈ done, child.1.columnName = name ∧ child.2 = idx)
    ⟨by simp, by simp⟩ ?_ success
  rintro done child rest before after _ ⟨known, listed⟩ stepped
  split at stepped
  · cases stepped
  · rename_i fresh
    obtain rfl := Except.ok.inj stepped
    constructor
    · refine List.forall_mem_append.mpr ⟨fun other member => ?_, ?_⟩
      · rw [IndexMap.get?_insert_of_ne]
        · exact known other member
        · intro same
          refine fresh ((IndexMap.contains_iff _ _).mpr (List.mem_map_of_mem
            (same ▸ (IndexMap.get?_eq_some_iff _ _ _).mp (known other member))))
      · simp
    · intro name idx found
      rw [IndexMap.get?_insert] at found
      split at found
      · rename_i same
        cases found
        exact ⟨child, by simp, same.symm, rfl⟩
      · obtain ⟨other, member, named⟩ := listed name idx found
        exact ⟨other, List.mem_append_left _ member, named⟩

theorem fields_columnTypeFromDucklake
    (columnType : Text)
    (children : List (DucklakeColumn × ArenaIdx))
    (fields : IndexMap Text ArenaIdx)
    (success : columnTypeFromDucklake columnType children = .ok (.struct fields))
    (name : Text)
    (idx : ArenaIdx)
    (found : fields.get? name = some idx) :
    ∃ child ∈ children, child.1.columnName = name ∧ child.2 = idx := by
  unfold columnTypeFromDucklake at success
  split at success
  · split at success <;> cases success
  · split at success
    · dsimp only at success
      obtain ⟨result, folded, success⟩ := bind_eq_ok.mp success
      obtain rfl := CatalogDataType.struct.inj (Except.ok.inj success)
      obtain ⟨child, member, named⟩ := (foldlM_fields _ _ folded).2 name idx found
      exact ⟨child, by simpa [sortByKey, List.mem_insertionSort] using member, named⟩
    · split at success
      · split at success
        · cases success
        · dsimp only at success
          split at success <;> cases success
      · obtain ⟨type, _, impossible⟩ := map_eq_ok.mp success
        cases impossible

theorem children_columnTypeFromDucklake
    (columnType : Text)
    (children : List (DucklakeColumn × ArenaIdx))
    (dtype : CatalogDataType)
    (nested : isNestedType columnType)
    (success : columnTypeFromDucklake columnType children = .ok dtype)
    (child : DucklakeColumn × ArenaIdx)
    (member : child ∈ children) :
    child.2 ∈ CatalogColumns.children dtype := by
  unfold columnTypeFromDucklake at success
  split at success
  · split at success
    · obtain rfl := Except.ok.inj success
      rw [List.mem_singleton.mp member]
      exact List.mem_singleton.mpr rfl
    · cases success
  · rename_i notList
    split at success
    · dsimp only at success
      obtain ⟨fields, folded, success⟩ := bind_eq_ok.mp success
      obtain rfl := Except.ok.inj success
      have found := (foldlM_fields _ _ folded).1 child
        (by simpa [sortByKey, List.mem_insertionSort] using member)
      exact (IndexMap.mem_values_iff _ _).mpr ⟨_, found⟩
    · rename_i notStruct
      split at success
      · split at success
        · cases success
        · rename_i two
          dsimp only at success
          split at success
          · cases success
          · cases success
          · rename_i key value keyFound valueFound
            obtain rfl := Except.ok.inj success
            -- one of the two children is the key, and the other one is not
            obtain ⟨keys, keysEq⟩ := List.getLast?_eq_some_iff.mp keyFound
            obtain ⟨values, valuesEq⟩ := List.getLast?_eq_some_iff.mp valueFound
            have count := List.length_eq_length_filter_add (l := children)
              fun entry => decide (entry.1.columnName = "key".toList)
            simp only [← decide_not] at count
            change children.length = (children.filter _).length + (children.filter _).length at count
            rw [keysEq, valuesEq, List.length_append, List.length_append] at count
            have full : children.length = 2 := Decidable.not_not.mp two
            simp only [List.length_singleton] at count
            obtain rfl : keys = [] := List.length_eq_zero_iff.mp (by omega)
            obtain rfl : values = [] := List.length_eq_zero_iff.mp (by omega)
            by_cases isKey : child.1.columnName = "key".toList
            · have inside : child ∈ children.filter
                  fun entry => decide (entry.1.columnName = "key".toList) :=
                List.mem_filter.mpr ⟨member, decide_eq_true isKey⟩
              rw [keysEq] at inside
              rw [List.mem_singleton.mp inside]
              exact List.mem_cons_self
            · have inside : child ∈ children.filter
                  fun entry => decide (entry.1.columnName ≠ "key".toList) :=
                List.mem_filter.mpr ⟨member, decide_eq_true isKey⟩
              rw [valuesEq] at inside
              rw [List.mem_singleton.mp inside]
              exact List.mem_cons_of_mem _ (List.mem_singleton.mpr rfl)
      · rename_i notMap
        rcases nested with isList | isStruct | isMap
        · exact absurd isList notList
        · exact absurd isStruct notStruct
        · exact absurd isMap notMap

namespace CatalogColumns

/-! ## Rows -/

/-- The entries of a loaded arena are those of the sorted rows. -/
structure LoadedFrom (sorted : List DucklakeColumn) (columns : CatalogColumns)
    (loaded : List DucklakeColumn) : Prop where
  size : columns.arena.length = loaded.length
  indexed : columns.Indexed
  rows : ∀ idx row, loaded[idx]? = some row → (columns.column idx).name = row.columnName ∧
    ParentOf sorted row (columns.column idx).parentColumn ∧
    columnTypeFromDucklake row.columnType
      (sorted.zipIdx.filter fun entry => entry.1.parentColumn = some row.columnId) =
        .ok (columns.column idx).dtype
  roots : ∀ name idx, columns.rootColumns.get? name = some idx ↔
    ∃ row, loaded[idx]? = some row ∧ row.columnName = name ∧ row.parentColumn = none

theorem fromDucklake_loadedFrom
    (env : Environment)
    (rows : List DucklakeColumn)
    (tags : List DucklakeColumnTag)
    (columns : CatalogColumns)
    (success : fromDucklake env rows tags = .ok columns) :
    columns.LoadedFrom (sortByOrder rows) (sortByOrder rows) := by
  refine fromDucklake_invariant env rows tags columns
    (fun loaded columns => columns.LoadedFrom (sortByOrder rows) loaded) ?_ ?_ success
  · refine ⟨rfl, new_indexed none, ?_, ?_⟩
    · intro idx row found
      cases found
    · simp [new]
  · intro loaded row rest before after column split known loads
    have old : ∀ idx, idx < loaded.length → after.column idx = before.column idx := by
      intro idx inside
      rw [← known.size] at inside
      simp [CatalogColumns.column, loads.arena, List.getD_eq_getElem?_getD,
        List.getElem?_append_left inside]
    have last : after.column loaded.length = column := by
      rw [← known.size]
      simp [CatalogColumns.column, loads.arena]
    refine ⟨?_, ?_, ?_, ?_⟩
    · simp [loads.arena, known.size]
    · exact known.indexed.push column loads.arena (by rw [loads.byId, loads.id])
    · intro idx entry found
      rcases (getElem?_append_singleton_iff _ _ _ _).mp found with before | ⟨rfl, rfl⟩
      · rw [old idx (List.getElem?_eq_some_iff.mp before).1]
        exact known.rows idx entry before
      · rw [last]
        exact ⟨loads.name, loads.parentColumn, loads.dtype⟩
    · intro name idx
      rw [loads.rootColumns]
      have parent := loads.parentColumn
      unfold ParentOf at parent
      split at parent
      · rename_i top
        rw [parent, if_neg (by simp), IndexMap.get?_insert, known.size]
        have fresh := loads.distinct parent
        split
        · rename_i same
          subst same
          constructor
          · intro found
            cases found
            exact ⟨row, (getElem?_append_singleton_iff _ _ _ _).mpr (Or.inr ⟨rfl, rfl⟩), rfl, top⟩
          · rintro ⟨entry, found, name, topEntry⟩
            rcases (getElem?_append_singleton_iff _ _ _ _).mp found with earlier | ⟨same, _⟩
            · have taken := (known.roots row.columnName idx).mpr ⟨entry, earlier, name, topEntry⟩
              rw [IndexMap.contains, taken] at fresh
              cases fresh
            · exact congrArg some same.symm
        · rename_i distinct
          rw [known.roots]
          constructor
          · rintro ⟨entry, found, named⟩
            exact ⟨entry, (getElem?_append_singleton_iff _ _ _ _).mpr (Or.inl found), named⟩
          · rintro ⟨entry, found, name, topEntry⟩
            rcases (getElem?_append_singleton_iff _ _ _ _).mp found with earlier | ⟨_, rfl⟩
            · exact ⟨entry, earlier, name, topEntry⟩
            · exact absurd name.symm distinct
      · rename_i id nested
        rw [if_pos parent.1, known.roots]
        constructor
        · rintro ⟨entry, found, named⟩
          exact ⟨entry, (getElem?_append_singleton_iff _ _ _ _).mpr (Or.inl found), named⟩
        · rintro ⟨entry, found, name, top⟩
          rcases (getElem?_append_singleton_iff _ _ _ _).mp found with old | ⟨_, rfl⟩
          · exact ⟨entry, old, name, top⟩
          · rw [nested] at top
            cases top

theorem get?_positions
    (sorted : List DucklakeColumn)
    (unique : (sorted.map DucklakeColumn.columnId).Nodup)
    (id : Int)
    (idx : ArenaIdx) :
    (IndexMap.ofList (sorted.zipIdx.map fun entry => (entry.1.columnId, entry.2))).get? id =
      some idx ↔ ∃ row, sorted[idx]? = some row ∧ row.columnId = id := by
  have keys : ((sorted.zipIdx.map fun entry => (entry.1.columnId, entry.2)).map Prod.fst).Nodup := by
    have same : ((sorted.zipIdx.map fun entry => (entry.1.columnId, entry.2)).map Prod.fst) =
        sorted.map DucklakeColumn.columnId := by
      conv_rhs => rw [← List.zipIdx_map_fst 0 sorted, List.map_map]
      rw [List.map_map]
      rfl
    rwa [same]
  rw [IndexMap.get?_eq_some_iff, IndexMap.ofList_entries_of_nodup _ keys, List.mem_map]
  constructor
  · rintro ⟨⟨row, place⟩, member, same⟩
    cases same
    exact ⟨row, by simpa using List.mem_zipIdx_iff_getElem?.mp member, rfl⟩
  · rintro ⟨row, found, rfl⟩
    exact ⟨(row, idx), List.mem_zipIdx_iff_getElem?.mpr (by simpa using found), rfl⟩

section

variable {sorted : List DucklakeColumn} {columns : CatalogColumns}

theorem LoadedFrom.row
    (loaded : columns.LoadedFrom sorted sorted)
    (idx : ArenaIdx)
    (inside : idx < columns.arena.length) :
    ∃ row, sorted[idx]? = some row :=
  ⟨_, List.getElem?_eq_getElem (loaded.size ▸ inside)⟩

theorem LoadedFrom.child
    (loaded : columns.LoadedFrom sorted sorted)
    (parent child : ArenaIdx)
    (member : child ∈ CatalogColumns.children (columns.column parent).dtype) :
    ∃ above row, sorted[parent]? = some above ∧ sorted[child]? = some row ∧
      row.parentColumn = some above.columnId := by
  have inside : parent < columns.arena.length := by
    by_contra outside
    rw [column_of_length_le _ _ (Nat.le_of_not_lt outside)] at member
    cases member
  obtain ⟨above, found⟩ := loaded.row parent inside
  obtain ⟨_, _, typed⟩ := loaded.rows parent above found
  obtain ⟨⟨row, place⟩, listed, rfl⟩ :=
    List.mem_map.mp (mem_columnTypeFromDucklake _ _ _ typed child member)
  obtain ⟨known, names⟩ := List.mem_filter.mp listed
  exact ⟨above, row, found, by simpa using List.mem_zipIdx_iff_getElem?.mp known,
    of_decide_eq_true names⟩

theorem LoadedFrom.linked
    (loaded : columns.LoadedFrom sorted sorted)
    (unique : (sorted.map DucklakeColumn.columnId).Nodup)
    (closed : columns.Closed) :
    columns.Linked where
  closed := closed
  roots name idx found := by
    obtain ⟨row, entry, named, top⟩ := (loaded.roots name idx).mp found
    obtain ⟨sameName, parent, _⟩ := loaded.rows idx row entry
    rw [ParentOf, top] at parent
    exact ⟨sameName.trans named, parent⟩
  parents parent child member := by
    obtain ⟨above, row, found, entry, names⟩ := loaded.child parent child member
    obtain ⟨_, parentOf, _⟩ := loaded.rows child row entry
    rw [ParentOf, names] at parentOf
    exact parentOf.2.trans ((get?_positions sorted unique _ parent).mpr ⟨above, found, rfl⟩)
  fields parent fields typed name child found := by
    have member : child ∈ CatalogColumns.children (columns.column parent).dtype := by
      rw [typed]
      exact (IndexMap.mem_values_iff _ _).mpr ⟨name, found⟩
    obtain ⟨above, _, foundAbove, _, _⟩ := loaded.child parent child member
    obtain ⟨_, _, typedAbove⟩ := loaded.rows parent above foundAbove
    rw [typed] at typedAbove
    obtain ⟨⟨row, place⟩, listed, named, rfl⟩ :=
      fields_columnTypeFromDucklake _ _ fields typedAbove name child found
    have entry := List.mem_zipIdx_iff_getElem?.mp (List.mem_of_mem_filter listed)
    obtain ⟨sameName, _, _⟩ := loaded.rows place row (by simpa using entry)
    exact sameName.trans named

end

theorem fromDucklake_live
    (env : Environment)
    (rows : List DucklakeColumn)
    (tags : List DucklakeColumnTag)
    (columns : CatalogColumns)
    (next : Int)
    (links : RowsLinked rows)
    (below : ∀ row ∈ rows, row.columnId < next)
    (success : fromDucklake env rows tags = .ok columns) :
    columns.Live next := by
  obtain ⟨counter, ids⟩ := fromDucklake_ids env rows tags columns success
  have loaded := fromDucklake_loadedFrom env rows tags columns success
  have permuted : (sortByOrder rows).Perm rows := List.perm_insertionSort _ rows
  have unique : ((sortByOrder rows).map DucklakeColumn.columnId).Nodup :=
    (permuted.map _).nodup_iff.mpr links.unique
  have linked := loaded.linked unique (fromDucklake_closed env rows tags success)
  refine ⟨⟨ids ▸ unique, loaded.indexed, ?_⟩, linked, ?_, ?_⟩
  · rw [counter, ids]
    intro id member
    obtain ⟨row, inside, rfl⟩ := List.mem_map.mp member
    exact below row (permuted.mem_iff.mp inside)
  · intro idx inside
    obtain ⟨row, found⟩ := loaded.row idx inside
    obtain ⟨name, parent, _⟩ := loaded.rows idx row found
    cases top : row.parentColumn with
    | none =>
        rw [ParentOf, top] at parent
        exact Or.inl ⟨parent, (loaded.roots _ idx).mpr ⟨row, found, name.symm, top⟩⟩
    | some id =>
        obtain ⟨place, above, before, foundAbove, rfl, nested⟩ := links.parents idx row id found top
        rw [ParentOf, top] at parent
        refine Or.inr ⟨place, parent.2.trans
          ((get?_positions _ unique _ place).mpr ⟨above, foundAbove, rfl⟩), ?_⟩
        obtain ⟨_, _, typed⟩ := loaded.rows place above foundAbove
        refine children_columnTypeFromDucklake _ _ _ nested typed (row, idx) ?_
        exact List.mem_filter.mpr ⟨List.mem_zipIdx_iff_getElem?.mpr (by simpa using found),
          decide_eq_true top⟩
  · intro parent child member
    obtain ⟨above, row, found, entry, names⟩ := loaded.child parent child member
    obtain ⟨place, named, before, foundNamed, sameId, _⟩ := links.parents child row _ entry names
    have same : parent = place := by
      have first := (get?_positions _ unique above.columnId parent).mpr ⟨above, found, rfl⟩
      have second := (get?_positions _ unique above.columnId place).mpr ⟨named, foundNamed, sameId⟩
      rw [first] at second
      exact Option.some.inj second
    rw [same]
    exact before

end CatalogColumns

end Ducklake
