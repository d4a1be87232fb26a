import Mathlib.Algebra.GroupWithZero.Nat
import Mathlib.Data.List.Basic

/-!
# Consecutive ranges

Items of some sizes receive ranges of numbers from a counter, one behind the other.
-/

set_option autoImplicit false

namespace Ducklake.Lib

universe u

section

variable {α : Type u} (size : α → Nat)

def totalSize (items : List α) : Nat :=
  (items.map size).sum

def allocate (next : Int) : List α → List (Int × α)
  | [] => []
  | item :: rest => (next, item) :: allocate (next + size item) rest

@[simp] theorem totalSize_nil : totalSize size [] = 0 := rfl

@[simp] theorem totalSize_cons (item : α) (rest : List α) :
    totalSize size (item :: rest) = size item + totalSize size rest := by
  simp [totalSize]

theorem totalSize_append (first second : List α) :
    totalSize size (first ++ second) = totalSize size first + totalSize size second := by
  simp [totalSize]

theorem allocate_append (next : Int) (first second : List α) :
    allocate size next (first ++ second) =
      allocate size next first ++ allocate size (next + totalSize size first) second := by
  induction first generalizing next with
  | nil => simp [allocate]
  | cons item rest ih =>
      have moved : next + size item + totalSize size rest =
          next + totalSize size (item :: rest) := by
        rw [totalSize_cons]
        omega
      rw [List.cons_append, allocate, ih, moved]
      rfl

@[simp] theorem map_snd_allocate (next : Int) (items : List α) :
    (allocate size next items).map Prod.snd = items := by
  induction items generalizing next with
  | nil => rfl
  | cons item rest ih => rw [allocate, List.map_cons, ih]

theorem allocate_within (next : Int) (items : List α) :
    ∀ range ∈ allocate size next items,
      next ≤ range.1 ∧ range.1 + size range.2 ≤ next + totalSize size items := by
  induction items generalizing next with
  | nil => simp [allocate]
  | cons item rest ih =>
      rw [allocate, totalSize_cons]
      refine List.forall_mem_cons.mpr ⟨by dsimp only; omega, fun range member => ?_⟩
      obtain ⟨above, below⟩ := ih _ range member
      omega

end

end Ducklake.Lib
