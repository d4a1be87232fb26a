import Mathlib.Data.List.DropRight

/-!
# Trimming

Removing the symbols of a class from both ends of a list.
-/

set_option autoImplicit false

namespace Ducklake.Lib

universe u

variable {α : Type u} (blank : α → Bool)

def trimStart (items : List α) : List α :=
  items.dropWhile blank

def trimEnd (items : List α) : List α :=
  items.rdropWhile blank

def trim (items : List α) : List α :=
  trimEnd blank (trimStart blank items)

theorem trimEnd_concat (items : List α) (last : α) :
    trimEnd blank (items ++ [last]) =
      if blank last then trimEnd blank items else items ++ [last] :=
  List.rdropWhile_concat _ _ _

theorem trimStart_append_cons (front : List α) (sep : α) (back : List α)
    (solid : blank sep = false) :
    trimStart blank (front ++ sep :: back) = trimStart blank front ++ sep :: back := by
  induction front with
  | nil => simp [trimStart, solid]
  | cons head tail ih =>
      cases first : blank head with
      | true => simpa [trimStart, first] using ih
      | false => simp [trimStart, first]

theorem trimEnd_append_cons (front : List α) (sep : α) (back : List α)
    (solid : blank sep = false) :
    trimEnd blank (front ++ sep :: back) = front ++ sep :: trimEnd blank back := by
  induction back using List.reverseRecOn with
  | nil => simp [trimEnd, solid]
  | append_singleton init last ih =>
      have regroup : front ++ sep :: (init ++ [last]) = (front ++ sep :: init) ++ [last] := by simp
      rw [regroup, trimEnd_concat, trimEnd_concat, ih]
      split
      · rfl
      · simp

theorem trimEnd_cons (head : α) (tail : List α) :
    trimEnd blank (head :: tail) =
      if (trimEnd blank tail).isEmpty then (if blank head then [] else [head])
      else head :: trimEnd blank tail := by
  induction tail using List.reverseRecOn with
  | nil => simp [trimEnd, List.rdropWhile_singleton]
  | append_singleton init last ih =>
      have regroup : head :: (init ++ [last]) = (head :: init) ++ [last] := rfl
      rw [regroup, trimEnd_concat, trimEnd_concat, ih]
      split
      · rfl
      · simp

theorem trimStart_trimEnd (items : List α) :
    trimStart blank (trimEnd blank items) = trimEnd blank (trimStart blank items) := by
  induction items with
  | nil => rfl
  | cons head tail ih =>
      rw [trimEnd_cons]
      cases first : blank head with
      | true =>
          have skipped : trimStart blank (head :: tail) = trimStart blank tail := by
            simp [trimStart, first]
          rw [skipped, ← ih]
          split
          · rename_i empty
            rw [List.isEmpty_iff.mp empty]
            rfl
          · simp [trimStart, first]
      | false =>
          have kept : trimStart blank (head :: tail) = head :: tail := by
            simp [trimStart, first]
          rw [kept, trimEnd_cons, first]
          split <;> simp [trimStart, first]

@[simp] theorem trimStart_idem (items : List α) :
    trimStart blank (trimStart blank items) = trimStart blank items :=
  List.dropWhile_idempotent _ _

@[simp] theorem trimEnd_idem (items : List α) :
    trimEnd blank (trimEnd blank items) = trimEnd blank items :=
  List.rdropWhile_idempotent _ _

@[simp] theorem trim_trimStart (items : List α) :
    trim blank (trimStart blank items) = trim blank items := by
  simp [trim]

@[simp] theorem trim_trimEnd (items : List α) :
    trim blank (trimEnd blank items) = trim blank items := by
  rw [trim, trimStart_trimEnd, trimEnd_idem, trim]

theorem trim_cons_blank (head : α) (tail : List α) (first : blank head = true) :
    trim blank (head :: tail) = trim blank tail := by
  simp [trim, trimStart, first]

theorem trim_append_cons (front : List α) (sep : α) (back : List α)
    (solid : blank sep = false) :
    trim blank (front ++ sep :: back) = trimStart blank front ++ sep :: trimEnd blank back := by
  rw [trim, trimStart_append_cons _ _ _ _ solid, trimEnd_append_cons _ _ _ _ solid]

theorem trim_enclosed (first : α) (inner : List α) (last : α)
    (firstSolid : blank first = false) (lastSolid : blank last = false) :
    trim blank (first :: (inner ++ [last])) = first :: (inner ++ [last]) := by
  have start : trimStart blank (first :: (inner ++ [last])) = first :: (inner ++ [last]) := by
    simp [trimStart, firstSolid]
  have regroup : first :: (inner ++ [last]) = (first :: inner) ++ [last] := rfl
  rw [trim, start, regroup, trimEnd_concat, lastSolid]
  rfl

theorem trimStart_subset (items : List α) : trimStart blank items ⊆ items :=
  (List.dropWhile_sublist _).subset

theorem trimEnd_subset (items : List α) : trimEnd blank items ⊆ items :=
  (List.rdropWhile_prefix _ _).subset

end Ducklake.Lib
