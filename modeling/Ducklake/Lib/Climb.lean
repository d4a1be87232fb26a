import Mathlib.Data.List.Nodup
import Mathlib.Data.List.Perm.Subperm

/-!
# Climbing to a root

Some things have one thing above them.  A climb that ends at a thing without one visits nothing
twice, so among finitely many things it is short.
-/

set_option autoImplicit false

namespace Ducklake.Lib

variable {α : Type}

def climb (up : α → Option α) : Nat → α → Option α
  | 0, item => some item
  | steps + 1, item => up item >>= climb up steps

section

variable (up : α → Option α)

theorem climb_add
    (first second : Nat)
    (item : α) :
    climb up (first + second) item = climb up first item >>= climb up second := by
  induction first generalizing item with
  | zero =>
      rw [Nat.zero_add]
      rfl
  | succ first ih =>
      rw [Nat.succ_add]
      unfold climb
      cases up item with
      | none => rfl
      | some above => exact ih above

theorem climb_root
    (steps : Nat)
    (root : α)
    (top : up root = none)
    (reached : (climb up steps root).isSome) :
    steps = 0 := by
  cases steps with
  | zero => rfl
  | succ steps =>
      unfold climb at reached
      rw [top] at reached
      cases reached

theorem climb_injective
    (steps : Nat)
    (item root : α)
    (ends : climb up steps item = some root)
    (top : up root = none)
    (lower higher : Nat)
    (ordered : lower ≤ higher)
    (inside : higher ≤ steps)
    (same : climb up lower item = climb up higher item) :
    lower = higher := by
  obtain ⟨rest, rfl⟩ := Nat.exists_eq_add_of_le inside
  obtain ⟨gap, rfl⟩ := Nat.exists_eq_add_of_le ordered
  -- From the thing that comes twice, the root is reached after the rest alone.
  have early : climb up (lower + rest) item = some root := by
    rw [climb_add, same, ← climb_add]
    exact ends
  have later : climb up ((lower + rest) + gap) item = some root := by
    rw [show lower + rest + gap = lower + gap + rest by omega]
    exact ends
  rw [climb_add, early] at later
  have stays := climb_root up gap root top (Option.isSome_iff_exists.mpr ⟨root, later⟩)
  omega

end

theorem climb_lt
    (up : Nat → Option Nat)
    (bound steps item root : Nat)
    (ends : climb up steps item = some root)
    (top : up root = none)
    (below : ∀ between ≤ steps, ∃ place, climb up between item = some place ∧ place < bound) :
    steps < bound := by
  let visited := (List.range (steps + 1)).map fun between => (climb up between item).getD 0
  have distinct : visited.Nodup := by
    refine List.Nodup.map_on ?_ List.nodup_range
    intro first firstInside second secondInside same
    rw [List.mem_range] at firstInside secondInside
    obtain ⟨firstPlace, firstFound, _⟩ := below first (by omega)
    obtain ⟨secondPlace, secondFound, _⟩ := below second (by omega)
    rw [firstFound, secondFound] at same
    obtain rfl : firstPlace = secondPlace := same
    have both := firstFound.trans secondFound.symm
    rcases Nat.le_total first second with ordered | ordered
    · exact climb_injective up steps item root ends top first second ordered (by omega) both
    · exact (climb_injective up steps item root ends top second first ordered (by omega)
        both.symm).symm
  have inside : visited ⊆ List.range bound := by
    intro place member
    obtain ⟨between, listed, rfl⟩ := List.mem_map.mp member
    rw [List.mem_range] at listed
    obtain ⟨place, found, low⟩ := below between (by omega)
    rw [found]
    exact List.mem_range.mpr low
  have counted := (distinct.subperm inside).length_le
  simp only [visited, List.length_map, List.length_range] at counted
  omega

end Ducklake.Lib
