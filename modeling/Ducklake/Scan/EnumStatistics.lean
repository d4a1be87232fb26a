import Mathlib.Data.Char
import Mathlib.Data.List.Lex
import Ducklake.Lib.Bisect
import Ducklake.Lib.IndexMap
import Ducklake.Error

/-!
# Statistics of enum columns

`_enum_statistics` of `polars/scan.py`: the bounds of a file are in lexical order, while polars
orders an enum by its categories.
-/

set_option autoImplicit false

namespace Ducklake.Scan

open Lib

abbrev Bounds := Option Text × Option Text

def enumOrder (categories : List Text) : IndexMap Text Nat :=
  .ofList categories.zipIdx

/-- `lexical_categories[start:stop]` for the interval of the bounds. -/
def candidates (categories : List Text) (lower upper : Text) : List Text :=
  let lexicalCategories := categories.mergeSort (· ≤ ·)
  let start := bisectLeft lexicalCategories lower
  let stop := bisectRight lexicalCategories upper
  (lexicalCategories.take stop).drop start

/-- The index of a category.  All keys that the order is asked for are in it. -/
def orderKey (categories : List Text) (category : Text) : Nat :=
  ((enumOrder categories).get? category).getD 0

def bounds (categories : List Text) : Bounds → Bounds
  | (some lower, some upper) =>
      ((candidates categories lower upper).minOn? (orderKey categories),
        (candidates categories lower upper).maxOn? (orderKey categories))
  | _ => (none, none)

def enumStatistics (minimum maximum : List (Option Text)) (categories : List Text) :
    List (Option Text) × List (Option Text) :=
  let converted := (minimum.zip maximum).map (bounds categories)
  (converted.map Prod.fst, converted.map Prod.snd)

/-! ## Soundness -/

/-- A category that a file with these bounds can hold. -/
def InBounds (categories : List Text) (file : Bounds) (category : Text) : Prop :=
  category ∈ categories ∧
    ∃ lower ∈ file.1, ∃ upper ∈ file.2, lower ≤ category ∧ category ≤ upper

/-- Bounds by the order of the categories: the least of them in which all categories lie that a file
can hold. -/
inductive Encloses (categories : List Text) (file : Bounds) : Bounds → Prop
  | nothing : (∀ category, ¬ InBounds categories file category) →
      Encloses categories file (none, none)
  | interval (low high : Text) :
      InBounds categories file low → InBounds categories file high →
      (∀ category, InBounds categories file category →
        categories.idxOf low ≤ categories.idxOf category ∧
          categories.idxOf category ≤ categories.idxOf high) →
      Encloses categories file (some low, some high)

theorem mem_candidates (categories : List Text) (lower upper category : Text) :
    category ∈ candidates categories lower upper ↔
      InBounds categories (some lower, some upper) category := by
  have sorted : (categories.mergeSort (· ≤ ·)).Pairwise (· ≤ ·) := by
    simpa using @List.pairwise_mergeSort Text (fun a b => decide (a ≤ b))
      (fun a b c => by simpa using Std.le_trans) (fun a b => by simpa using Std.le_total) categories
  rw [candidates, mem_between_bisections sorted, List.mem_mergeSort]
  simp [InBounds]

theorem orderKey_eq (categories : List Text) (distinct : categories.Nodup) (category : Text)
    (member : category ∈ categories) :
    orderKey categories category = categories.idxOf category := by
  have keys : (categories.zipIdx.map Prod.fst).Nodup := by simpa using distinct
  have found : (enumOrder categories).get? category = some (categories.idxOf category) := by
    rw [IndexMap.get?_eq_some_iff, enumOrder, IndexMap.ofList_entries_of_nodup _ keys,
      List.mk_mem_zipIdx_iff_getElem?]
    exact List.getElem?_idxOf member
  rw [orderKey, found, Option.getD_some]

theorem bounds_encloses (categories : List Text) (distinct : categories.Nodup) (file : Bounds) :
    Encloses categories file (bounds categories file) := by
  obtain ⟨_ | lower, _ | upper⟩ := file
  · exact .nothing fun category inBounds => by simp [InBounds] at inBounds
  · exact .nothing fun category inBounds => by simp [InBounds] at inBounds
  · exact .nothing fun category inBounds => by simp [InBounds] at inBounds
  · have inBounds := mem_candidates categories lower upper
    have key : ∀ category ∈ candidates categories lower upper,
        orderKey categories category = categories.idxOf category :=
      fun category member => orderKey_eq categories distinct category ((inBounds category).mp member).1
    rw [bounds]
    by_cases empty : candidates categories lower upper = []
    · rw [empty]
      apply Encloses.nothing
      intro category within
      have member := (inBounds category).mpr within
      rw [empty] at member
      cases member
    · have low := List.minOn_mem (f := orderKey categories) (h := empty)
      have high := List.maxOn_mem (f := orderKey categories) (h := empty)
      rw [List.minOn?_eq_some_minOn empty, List.maxOn?_eq_some_maxOn empty]
      apply Encloses.interval _ _ ((inBounds _).mp low) ((inBounds _).mp high)
      intro category within
      have member := (inBounds category).mpr within
      rw [← key _ low, ← key _ high, ← key category member]
      exact ⟨List.apply_minOn_le_of_mem member, List.le_apply_maxOn_of_mem member⟩

/-- For all files, the converted bounds enclose what the files can hold, and nothing less does. -/
theorem enumStatistics_encloses
    (categories : List Text)
    (distinct : categories.Nodup)
    (minimum maximum : List (Option Text)) :
    List.Forall₂ (Encloses categories) (minimum.zip maximum)
      ((enumStatistics minimum maximum categories).1.zip
        (enumStatistics minimum maximum categories).2) := by
  rw [enumStatistics]
  dsimp only
  rw [List.zip_map', List.forall₂_map_right_iff, List.forall₂_map_right_iff, List.forall₂_same]
  exact fun file _ => bounds_encloses categories distinct file

def sizes : List Text :=
  ["small".toList, "medium".toList, "large".toList]

/-- Two categories are in the interval, and its upper bound is no category. -/
theorem enumStatistics_encloses_sizes :
    List.Forall₂ (Encloses sizes) [(some "large".toList, some "o".toList)]
      ((enumStatistics [some "large".toList] [some "o".toList] sizes).1.zip
        (enumStatistics [some "large".toList] [some "o".toList] sizes).2) ∧
      InBounds sizes (some "large".toList, some "o".toList) "medium".toList :=
  ⟨enumStatistics_encloses sizes (by decide) [some "large".toList] [some "o".toList],
    by decide, _, rfl, _, rfl, by decide, by decide⟩

end Ducklake.Scan
