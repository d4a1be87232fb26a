import Ducklake.Catalog.ColumnViews
import Ducklake.Lib.Climb

/-!
# Paths to columns

A path leads down the links between columns, and the parents lead back.  It visits no column
twice, so the arena is deep enough for the types that are shown below it.
-/

set_option autoImplicit false

namespace Ducklake

open Lib Spec

namespace CatalogColumns

def above (columns : CatalogColumns) (idx : ArenaIdx) : Option ArenaIdx :=
  (columns.column idx).parentColumn

section

variable {columns : CatalogColumns}

theorem Linked.above_of_childByName
    (linked : columns.Linked)
    (idx child : ArenaIdx)
    (part : Text)
    (stepped : columns.childByName idx part = some child) :
    columns.above child = some idx :=
  linked.parents idx child (mem_children_of_childByName idx child part stepped)

theorem arenaIdxByPath_last
    (path : List Text)
    (idx : ArenaIdx)
    (found : columns.arenaIdxByPath path = .ok idx) :
    (∃ root, path = [root] ∧ columns.rootColumns.get? root = some idx) ∨
      ∃ front part parent, path = front ++ [part] ∧ columns.arenaIdxByPath front = .ok parent ∧
        columns.childByName parent part = some idx := by
  obtain ⟨root, parts, start, rfl, rooted, walked⟩ := (arenaIdxByPath_eq_ok _ _).mp found
  rcases List.eq_nil_or_concat parts with rfl | ⟨front, part, rfl⟩
  · obtain rfl : start = idx := Option.some.inj walked
    exact Or.inl ⟨root, rfl, rooted⟩
  · rw [List.concat_eq_append, List.foldlM_append] at walked
    obtain ⟨parent, walkedFront, stepped⟩ := Option.bind_eq_some_iff.mp walked
    refine Or.inr ⟨root :: front, part, parent, by simp, ?_, by simpa using stepped⟩
    exact (arenaIdxByPath_eq_ok _ _).mpr ⟨root, front, start, rfl, rooted, walkedFront⟩

theorem Linked.climb_path
    (linked : columns.Linked)
    (steps : Nat)
    (path : List Text)
    (idx : ArenaIdx)
    (length : path.length = steps + 1)
    (found : columns.arenaIdxByPath path = .ok idx) :
    (∃ root, climb columns.above steps idx = some root ∧ columns.above root = none) ∧
      ∀ between ≤ steps, ∃ place, climb columns.above between idx = some place ∧
        place < columns.arena.length := by
  have inside := linked.closed.arenaIdxByPath path idx found
  have here : ∃ place, climb columns.above 0 idx = some place ∧ place < columns.arena.length :=
    ⟨idx, rfl, inside⟩
  induction steps generalizing path idx with
  | zero =>
      rcases arenaIdxByPath_last path idx found with ⟨root, rfl, rooted⟩ | ⟨front, _, _, rfl, prior, _⟩
      · refine ⟨⟨idx, rfl, (linked.roots root idx rooted).2⟩, fun between low => ?_⟩
        obtain rfl := Nat.le_zero.mp low
        exact here
      · obtain rfl : front = [] := by simpa using length
        cases prior
  | succ steps ih =>
      rcases arenaIdxByPath_last path idx found with ⟨root, rfl, _⟩ |
        ⟨front, part, parent, rfl, prior, stepped⟩
      · cases length
      · have up := linked.above_of_childByName parent idx part stepped
        have shorter : front.length = steps + 1 := by simpa using length
        have insideParent := linked.closed.arenaIdxByPath front parent prior
        obtain ⟨top, between⟩ := ih front parent shorter prior insideParent ⟨parent, rfl, insideParent⟩
        have onward : ∀ more, climb columns.above (more + 1) idx = climb columns.above more parent := by
          intro more
          conv_lhs => unfold climb
          rw [up]
          rfl
        refine ⟨by rwa [onward], fun count low => ?_⟩
        cases count with
        | zero => exact here
        | succ count =>
            rw [onward]
            exact between count (Nat.le_of_succ_le_succ low)

theorem Linked.length_path_le
    (linked : columns.Linked)
    (path : List Text)
    (idx : ArenaIdx)
    (found : columns.arenaIdxByPath path = .ok idx) :
    path.length ≤ columns.arena.length := by
  obtain ⟨root, parts, _, rfl, _⟩ := (arenaIdxByPath_eq_ok _ _).mp found
  obtain ⟨⟨top, ends, isTop⟩, between⟩ := linked.climb_path parts.length _ idx rfl found
  exact climb_lt columns.above columns.arena.length parts.length idx top ends isTop between

/-- The column at a path is found among its siblings, if these have names. -/
theorem Linked.get?_siblings
    (linked : columns.Linked)
    (path : List Text)
    (idx : ArenaIdx)
    (found : columns.arenaIdxByPath path = .ok idx)
    (named : IndexMap Text ArenaIdx)
    (siblings : columns.siblings (columns.column idx).parentColumn = .ok named) :
    named.get? (columns.column idx).name = some idx := by
  rcases arenaIdxByPath_last path idx found with ⟨root, rfl, rooted⟩ |
    ⟨front, part, parent, rfl, _, stepped⟩
  · obtain ⟨name, top⟩ := linked.roots root idx rooted
    rw [top] at siblings
    cases siblings
    rwa [name]
  · have up := linked.above_of_childByName parent idx part stepped
    unfold above at up
    rw [up] at siblings
    obtain ⟨_, typed⟩ := siblings_lt named parent siblings
    unfold childByName at stepped
    rw [typed] at stepped
    rwa [linked.fields parent named typed part idx stepped]

/-! ## Types below a path -/

theorem dtype_schemaColumn_eq (fuel : Nat) (idx : ArenaIdx) :
    ∃ child : ArenaIdx → Column,
      (∀ rest, fuel = rest + 1 → child = columns.schemaColumn rest) ∧
      (columns.schemaColumn fuel idx).dtype = match (columns.column idx).dtype with
        | .primitive type => .primitive type
        | .list item => .list (child item)
        | .struct fields => .struct (fields.values.map child)
        | .map key value => .map (child key) (child value) := by
  conv => enter [1, child, 2, 1]; unfold schemaColumn
  exact ⟨_, fun rest enough => by subst enough; rfl, rfl⟩

/-- A path leads to a column that is shown with a type. -/
def ShownAt (columns : CatalogColumns) (path : List Text) (dtype : DataType) : Prop :=
  ∃ idx fuel, columns.arenaIdxByPath path = .ok idx ∧
    dtype = (columns.schemaColumn fuel idx).dtype ∧ columns.arena.length ≤ path.length + fuel

/-- What a shown type says about a column and the columns below it. -/
def ShowsBelow (columns : CatalogColumns) (path : List Text) (idx : ArenaIdx) : DataType → Prop
  | .primitive type => (columns.column idx).dtype = .primitive type
  | .list inner => (∃ item, (columns.column idx).dtype = .list item) ∧
      columns.ShownAt (path ++ ["element".toList]) inner.dtype
  | .struct fields => (∃ named, (columns.column idx).dtype = .struct named) ∧
      ∀ field ∈ fields, columns.ShownAt (path ++ [field.name]) field.dtype
  | .map key value => (∃ keyIdx valueIdx, (columns.column idx).dtype = .map keyIdx valueIdx) ∧
      columns.ShownAt (path ++ ["key".toList]) key.dtype ∧
      columns.ShownAt (path ++ ["value".toList]) value.dtype

theorem Linked.showsBelow
    (linked : columns.Linked)
    (path : List Text)
    (dtype : DataType)
    (shown : columns.ShownAt path dtype) :
    ∃ idx, columns.arenaIdxByPath path = .ok idx ∧ columns.ShowsBelow path idx dtype := by
  obtain ⟨idx, fuel, found, rfl, enough⟩ := shown
  obtain ⟨child, continues, shape⟩ := @dtype_schemaColumn_eq columns fuel idx
  -- The fuel lasts for every child: a path to it is no longer than the arena.
  have below : ∀ place part, columns.childByName idx part = some place →
      (child place).name = (columns.column place).name ∧
        columns.ShownAt (path ++ [part]) (child place).dtype := by
    intro place part stepped
    have reached := arenaIdxByPath_append path part idx place found stepped
    have short := linked.length_path_le _ _ reached
    rw [List.length_append, List.length_singleton] at short
    obtain ⟨rest, rfl⟩ : ∃ rest, fuel = rest + 1 := ⟨fuel - 1, by omega⟩
    rw [continues rest rfl]
    refine ⟨name_schemaColumn rest place, place, rest, reached, rfl, ?_⟩
    rw [List.length_append, List.length_singleton]
    omega
  refine ⟨idx, found, ?_⟩
  rw [shape]
  cases typed : (columns.column idx).dtype with
  | primitive type => exact typed
  | list item =>
      refine ⟨⟨item, typed⟩, (below item _ ?_).2⟩
      unfold childByName
      rw [typed]
      exact if_pos rfl
  | struct fields =>
      refine ⟨⟨fields, typed⟩, fun field member => ?_⟩
      obtain ⟨place, listed, rfl⟩ := List.mem_map.mp member
      obtain ⟨name, entry⟩ := (IndexMap.mem_values_iff _ _).mp listed
      have stepped : columns.childByName idx name = some place := by
        unfold childByName
        rw [typed]
        exact entry
      obtain ⟨named, shown⟩ := below place name stepped
      rw [named, linked.fields idx fields typed name place entry]
      exact shown
  | map key value =>
      refine ⟨⟨key, value, typed⟩, (below key _ ?_).2, (below value _ ?_).2⟩
      · unfold childByName
        rw [typed]
        exact if_pos rfl
      · unfold childByName
        rw [typed]
        exact (if_neg (by decide)).trans (if_pos rfl)

end

end CatalogColumns

end Ducklake
