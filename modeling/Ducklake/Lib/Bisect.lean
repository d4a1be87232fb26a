import Mathlib.Data.List.Basic

/-!
# Bisection

A search for the place in a list where a condition stops to hold, and the items of a sorted list
that it finds between two bounds.
-/

set_option autoImplicit false

namespace Ducklake.Lib

section

variable {α : Type} (before : α → Bool) (items : List α)

/-- The place between `low` and `high` in front of which are the items that come before it. -/
def bisectFrom (low high : Nat) : Nat :=
  if low < high then
    match items[(low + high) / 2]? with
    | some item =>
        if before item then bisectFrom ((low + high) / 2 + 1) high
        else bisectFrom low ((low + high) / 2)
    | none => low
  else low
termination_by high - low

def bisect : Nat :=
  bisectFrom before items 0 items.length

/-- No item that comes before the place stands behind one that does not. -/
def IsPartitioned : Prop :=
  items.Pairwise fun first second => before second = true → before first = true

structure SeparatesAt (place : Nat) : Prop where
  front : ∀ index item, items[index]? = some item → index < place → before item = true
  back : ∀ index item, items[index]? = some item → place ≤ index → before item = false

variable {before items}

theorem IsPartitioned.earlier
    (partitioned : IsPartitioned before items)
    {index index' : Nat}
    {item item' : α}
    (at_ : items[index]? = some item)
    (at' : items[index']? = some item')
    (ordered : index ≤ index')
    (holds : before item' = true) :
    before item = true := by
  rcases Nat.lt_or_eq_of_le ordered with less | rfl
  · obtain ⟨bound, rfl⟩ := List.getElem?_eq_some_iff.mp at_
    obtain ⟨bound', rfl⟩ := List.getElem?_eq_some_iff.mp at'
    exact List.pairwise_iff_getElem.mp partitioned index index' bound bound' less holds
  · rw [Option.some.inj (at_.symm.trans at')]
    exact holds

theorem bisectFrom_separatesAt
    (partitioned : IsPartitioned before items)
    (low high : Nat)
    (ordered : low ≤ high)
    (bounded : high ≤ items.length)
    (front : ∀ index item, items[index]? = some item → index < low → before item = true)
    (back : ∀ index item, items[index]? = some item → high ≤ index → before item = false) :
    SeparatesAt before items (bisectFrom before items low high) := by
  fun_induction bisectFrom before items low high with
  | case1 low high more item found holds ih =>
      apply ih (by omega) bounded _ back
      intro index other at_ less
      exact partitioned.earlier at_ found (by omega) holds
  | case2 low high more item found fails ih =>
      apply ih (by omega) (by omega) front
      intro index other at_ greater
      rw [← Bool.not_eq_true]
      exact fun holds => fails (partitioned.earlier found at_ greater holds)
  | case3 low high more missing =>
      have := List.getElem?_eq_none_iff.mp missing
      omega
  | case4 low high done =>
      obtain rfl : low = high := by omega
      exact ⟨front, back⟩

theorem bisect_separatesAt (partitioned : IsPartitioned before items) :
    SeparatesAt before items (bisect before items) := by
  apply bisectFrom_separatesAt partitioned 0 items.length (Nat.zero_le _) (Nat.le_refl _)
  · intro _ _ _ negative
    omega
  · intro index item at_ behind
    rw [List.getElem?_eq_none behind] at at_
    cases at_

theorem SeparatesAt.mem_take {place : Nat} (separates : SeparatesAt before items place)
    (item : α) : item ∈ items.take place ↔ item ∈ items ∧ before item = true := by
  constructor
  · intro member
    obtain ⟨index, at_⟩ := List.mem_iff_getElem?.mp member
    rw [List.getElem?_take] at at_
    split at at_
    · rename_i less
      exact ⟨List.mem_of_getElem? at_, separates.front index item at_ less⟩
    · cases at_
  · rintro ⟨member, holds⟩
    obtain ⟨index, at_⟩ := List.mem_iff_getElem?.mp member
    have less : index < place := by
      apply Nat.lt_of_not_le
      intro behind
      rw [separates.back index item at_ behind] at holds
      cases holds
    apply List.mem_of_getElem? (i := index)
    rw [List.getElem?_take, if_pos less]
    exact at_

theorem SeparatesAt.mem_drop {place : Nat} (separates : SeparatesAt before items place)
    (item : α) : item ∈ items.drop place ↔ item ∈ items ∧ before item = false := by
  constructor
  · intro member
    obtain ⟨index, at_⟩ := List.mem_iff_getElem?.mp member
    rw [List.getElem?_drop] at at_
    exact ⟨List.mem_of_getElem? at_, separates.back _ item at_ (Nat.le_add_right _ _)⟩
  · rintro ⟨member, fails⟩
    rw [← List.take_append_drop place items] at member
    rcases List.mem_append.mp member with front | back
    · rw [((separates.mem_take item).mp front).2] at fails
      cases fails
    · exact back

end

/-! ## Sorted lists -/

section

variable {α : Type} [LE α] [DecidableLE α]

/-- The place in front of the items that are not below the value. -/
def bisectLeft (items : List α) (value : α) : Nat :=
  bisect (fun item => !decide (value ≤ item)) items

/-- The place behind the items that are not above the value. -/
def bisectRight (items : List α) (value : α) : Nat :=
  bisect (fun item => decide (item ≤ value)) items

variable [Std.IsLinearPreorder α]

theorem bisectLeft_separatesAt {items : List α} (sorted : items.Pairwise (· ≤ ·)) (value : α) :
    SeparatesAt (fun item => !decide (value ≤ item)) items (bisectLeft items value) := by
  apply bisect_separatesAt
  refine sorted.imp ?_
  intro first second ordered below
  rw [Bool.not_eq_true', decide_eq_false_iff_not] at below ⊢
  exact fun above => below (Std.le_trans above ordered)

theorem bisectRight_separatesAt {items : List α} (sorted : items.Pairwise (· ≤ ·)) (value : α) :
    SeparatesAt (fun item => decide (item ≤ value)) items (bisectRight items value) := by
  apply bisect_separatesAt
  refine sorted.imp ?_
  intro first second ordered below
  rw [decide_eq_true_iff] at below ⊢
  exact Std.le_trans ordered below

/-- The items from one place up to another are the items between the bounds. -/
theorem mem_between_bisections {items : List α} (sorted : items.Pairwise (· ≤ ·))
    (lower upper item : α) :
    item ∈ (items.take (bisectRight items upper)).drop (bisectLeft items lower) ↔
      item ∈ items ∧ lower ≤ item ∧ item ≤ upper := by
  have left := bisectLeft_separatesAt sorted lower
  have right := bisectRight_separatesAt sorted upper
  constructor
  · intro member
    obtain ⟨listed, below⟩ := (right.mem_take item).mp (List.mem_of_mem_drop member)
    rw [List.drop_take] at member
    have above := ((left.mem_drop item).mp (List.mem_of_mem_take member)).2
    exact ⟨listed, by simpa using above, by simpa using below⟩
  · rintro ⟨member, above, below⟩
    have front := (right.mem_take item).mpr ⟨member, by simpa using below⟩
    rw [← List.take_append_drop (bisectLeft items lower) (items.take _)] at front
    rcases List.mem_append.mp front with less | found
    · rw [List.take_take] at less
      have early := ((left.mem_take item).mp
        (List.take_subset_take_left items (Nat.min_le_left _ _) less)).2
      simp [above] at early
    · exact found

end

end Ducklake.Lib
