import Ducklake.Catalog.AddedTrees
import Ducklake.Catalog.LoadedColumns

/-!
# Keys and values of maps

The key and the value of a map are different columns, in new and in loaded tables and after every
change.  With the links between columns this makes the columns of a table a forest.
-/

set_option autoImplicit false

namespace Ducklake

open Lib Spec

namespace CatalogColumns

section

variable {columns before after : CatalogColumns}

theorem MapsApart.of_maps
    (apart : before.MapsApart)
    (kept : ∀ idx key value, (after.column idx).dtype = .map key value →
      (before.column idx).dtype = .map key value) :
    after.MapsApart :=
  fun idx key value typed => apart idx key value (kept idx key value typed)

theorem MapsApart.of_arena
    (apart : before.MapsApart)
    (arena : after.arena = before.arena) :
    after.MapsApart := by
  refine apart.of_maps fun idx key value typed => ?_
  unfold column at typed ⊢
  rwa [arena] at typed

theorem new_mapsApart (nextColumnId : Option Int) : (new nextColumnId).MapsApart := by
  intro idx key value typed
  rw [column_of_length_le _ _ (Nat.zero_le _)] at typed
  cases typed

theorem MapsApart.modifyColumn
    (apart : columns.MapsApart)
    (idx : ArenaIdx)
    (update : CatalogColumn → CatalogColumn)
    (dtype : ∀ column, (update column).dtype = column.dtype ∨
      ∀ key value, (update column).dtype ≠ .map key value) :
    (columns.modifyColumn idx update).MapsApart := by
  refine apart.of_maps fun other key value typed => ?_
  by_cases same : other = idx
  · subst same
    by_cases inside : other < columns.arena.length
    · rw [column_modifyColumn_self _ _ _ inside] at typed
      rcases dtype (columns.column other) with kept | never
      · rwa [kept] at typed
      · exact absurd typed (never key value)
    · rw [column_of_length_le _ _ (by rw [length_modifyColumn]; exact Nat.le_of_not_lt inside)]
        at typed
      cases typed
  · rwa [column_modifyColumn_of_ne _ _ _ _ same] at typed

theorem MapsApart.setSiblings
    (apart : columns.MapsApart)
    (parent : Option ArenaIdx)
    (named : IndexMap Text ArenaIdx) :
    (columns.setSiblings parent named).MapsApart := by
  cases parent with
  | none => exact apart.of_arena rfl
  | some idx => exact apart.modifyColumn idx _ fun _ => Or.inr fun _ _ => nofun

theorem renameColumn_mapsApart
    (idx : ArenaIdx)
    (newName : Text)
    (apart : columns.MapsApart)
    (success : columns.renameColumn idx newName = .ok after) :
    after.MapsApart := by
  obtain ⟨named, renames⟩ := renameColumn_eq_ok idx newName success
  rw [renames.renamed]
  exact (apart.setSiblings _ _).modifyColumn idx _ fun _ => Or.inl rfl

/-! ## Added trees -/

theorem Laid.mapsApart
    {first : ArenaIdx}
    {parent : Option ArenaIdx}
    {root : Column}
    (laid : columns.Laid first parent root)
    (idx key value : ArenaIdx)
    (low : first ≤ idx)
    (inside : idx < first + root.size)
    (typed : (columns.column idx).dtype = .map key value) :
    key ≠ value := by
  have split : first + (idx - first) = idx := Nat.add_sub_cancel' low
  obtain ⟨above, column, piece, _⟩ := laid.entry_of_position (idx - first)
    (Nat.sub_lt_left_of_lt_add low inside)
  have dtype := laid.children _ above column piece
  rw [split, typed] at dtype
  cases kind : column.dtype with
  | primitive type =>
      rw [kind] at dtype
      cases dtype
  | list inner =>
      rw [kind] at dtype
      cases dtype
  | struct fields =>
      rw [kind] at dtype
      cases fields <;> cases dtype
  | map keyColumn valueColumn =>
      rw [kind] at dtype
      obtain ⟨rfl, rfl⟩ := CatalogDataType.map.inj (Except.ok.inj dtype)
      have positive := keyColumn.size_pos
      intro same
      have offsets := Nat.add_left_cancel same
      omega

theorem addColumnToArena_mapsApart
    (column : Column)
    (parent : Option ArenaIdx)
    (preserve : Bool)
    (idxs : List ArenaIdx)
    (apart : columns.MapsApart)
    (success : columns.addColumnToArena column parent preserve = .ok (idxs, after)) :
    after.MapsApart := by
  obtain ⟨_, continues, size, _, _⟩ := addColumnToArena_eq_ok _ _ _ _ _ _ success
  have laid := addColumnToArena_laid _ _ _ _ _ _ success
  intro idx key value typed
  by_cases old : idx < columns.arena.length
  · rw [continues.column idx old] at typed
    exact apart idx key value typed
  · have inside : idx < after.arena.length := by
      by_contra outside
      rw [column_of_length_le _ _ (Nat.le_of_not_lt outside)] at typed
      cases typed
    exact laid.mapsApart idx key value (Nat.le_of_not_lt old) (size ▸ inside) typed

theorem addColumn_mapsApart
    (parent : Option ArenaIdx)
    (column : Column)
    (idxs : List ArenaIdx)
    (apart : columns.MapsApart)
    (success : columns.addColumn parent column = .ok (idxs, after)) :
    after.MapsApart := by
  obtain ⟨grown, named, adding⟩ := addColumn_eq_ok column idxs success
  rw [adding.added]
  exact (addColumnToArena_mapsApart column parent false _ apart adding.placed).setSiblings _ _

theorem fromSchema_mapsApart
    (schema : Schema)
    (nextColumnId : Option Int)
    (success : fromSchema schema nextColumnId = .ok columns) :
    columns.MapsApart := by
  refine foldlM_invariant MapsApart (new_mapsApart _) ?_ success
  intro before column result _ apart stepped
  obtain ⟨⟨idxs, grown⟩, added, stepped⟩ := bind_eq_ok.mp stepped
  obtain rfl := Except.ok.inj stepped
  exact (addColumnToArena_mapsApart column none _ idxs apart added).of_arena rfl

/-! ## Loaded columns -/

theorem columnTypeFromDucklake_mapsApart
    (columnType : Text)
    (rows : List DucklakeColumn)
    (selects : DucklakeColumn × ArenaIdx → Bool)
    (key value : ArenaIdx)
    (success : columnTypeFromDucklake columnType (rows.zipIdx.filter selects) =
      .ok (.map key value)) :
    key ≠ value := by
  unfold columnTypeFromDucklake at success
  split at success
  · split at success <;> cases success
  · split at success
    · obtain ⟨_, _, success⟩ := bind_eq_ok.mp success
      cases success
    · split at success
      · split at success
        · cases success
        · dsimp only at success
          split at success
          · cases success
          · cases success
          · rename_i keyRow valueRow keyFound valueFound
            obtain ⟨rfl, rfl⟩ := CatalogDataType.map.inj (Except.ok.inj success)
            obtain ⟨keyListed, isKey⟩ := List.mem_filter.mp (List.mem_of_getLast? keyFound)
            obtain ⟨valueListed, notKey⟩ := List.mem_filter.mp (List.mem_of_getLast? valueFound)
            intro same
            have keyRows := List.mem_zipIdx_iff_getElem?.mp (List.mem_of_mem_filter keyListed)
            have valueRows := List.mem_zipIdx_iff_getElem?.mp (List.mem_of_mem_filter valueListed)
            rw [same, valueRows] at keyRows
            rw [← Option.some.inj keyRows] at isKey
            exact absurd (of_decide_eq_true isKey) (of_decide_eq_true notKey)
      · obtain ⟨_, _, impossible⟩ := map_eq_ok.mp success
        cases impossible

theorem LoadedFrom.mapsApart
    {sorted : List DucklakeColumn}
    (loaded : columns.LoadedFrom sorted sorted) :
    columns.MapsApart := by
  intro idx key value typed
  have inside : idx < columns.arena.length := by
    by_contra outside
    rw [column_of_length_le _ _ (Nat.le_of_not_lt outside)] at typed
    cases typed
  obtain ⟨row, found⟩ := loaded.row idx inside
  obtain ⟨_, _, built⟩ := loaded.rows idx row found
  rw [typed] at built
  exact columnTypeFromDucklake_mapsApart row.columnType sorted _ key value built

end

end CatalogColumns

end Ducklake
