import Ducklake.Io.ParquetStatistics

/-!
# The bounds of an array

`find_min` and `find_max` of `io/arrow/aggregate.rs`: the smallest and the largest value of an
array, in the order of its storage and in that of its values.
-/

set_option autoImplicit false

namespace Ducklake.Io

open Lib

/-! ## Bounds -/

/-- A value of an array that bounds all others, missing if the array has only nulls. -/
structure Bounds (values : List (Option Scalar)) (within : Value → Value → Prop)
    (found : Option Value) : Prop where
  missing : found = none ↔ ∀ value ∈ values, value = none
  member : ∀ bound, found = some bound → ∃ value, some value ∈ values ∧ bound = .scalar value
  bounds : ∀ bound, found = some bound → ∀ value, some value ∈ values →
    within bound (.scalar value)

/-- The first value in the order of the storage is also the first one in that of values. -/
def FirstOfBoth (before value : Scalar → Scalar → Bool) (items : List Scalar) : Prop :=
  items = [] ∨ ∃ first ∈ items, (∀ other ∈ items, before other first = false) ∧
    ∀ other ∈ items, value other first = false

theorem mem_filterMap_id (values : List (Option Scalar)) (value : Scalar) :
    value ∈ values.filterMap id ↔ some value ∈ values := by
  simp

theorem filterMap_id_eq_nil (values : List (Option Scalar)) :
    values.filterMap id = [] ↔ ∀ value ∈ values, value = none := by
  simp [List.filterMap_eq_nil_iff]

/-! ## The bounds that are found -/

section

variable {type : PrimitiveType}

theorem aggregated_eq (value : Scalar) (typed : value.hasType type = true)
    (other : type ≠ .json) : aggregated type value = some (.scalar value) := by
  have variant := ((hasType_iff value).mp typed).1
  cases type with
  | variant | geometry => cases variant
  | json => exact absurd rfl other
  | _ => rfl

/-- The value that an array is searched for is the first one by value, unless it is chosen by bytes
and another one is first by value. -/
theorem Chooses.firstOfBoth_iff
    {before value : Scalar → Scalar → Bool}
    {within : Value → Value → Prop}
    (chooses : Chooses type before value within)
    (items : List Scalar)
    (typed : ∀ item ∈ items, item.hasType type = true)
    (ordered : ∀ item ∈ items, item.isUnordered = false)
    (least : Scalar)
    (member : least ∈ items)
    (lowest : ∀ item ∈ items, before item least = false) :
    (type.isBytewise = true → FirstOfBoth before value items) ↔
      ∀ item ∈ items, value item least = false := by
  constructor
  · intro first item inside
    cases bytewise : type.isBytewise with
    | true =>
        rcases first bytewise with rfl | ⟨other, listed, firstInBytes, firstByValue⟩
        · cases inside
        · have same := chooses.first bytewise other least (typed other listed)
            (typed least member) (lowest other listed) (firstInBytes least member)
          exact same ▸ firstByValue item inside
    | false =>
        have variant := ((hasType_iff least).mp (typed least member)).1
        have itemVariant := ((hasType_iff item).mp (typed item inside)).1
        have ranks := chooses.ranks bytewise _ variant
        rw [ranks.ordered item least (Option.some.inj (itemVariant.symm.trans variant)) rfl
          (ordered item inside) (ordered least member)]
        exact lowest item inside
  · exact fun first _ => Or.inr ⟨least, member, lowest, first⟩

/-- Only the order decides whether a bound is right, but for the bound of JSON texts. -/
theorem bounds_iff
    {before value : Scalar → Scalar → Bool}
    {within : Value → Value → Prop}
    (chooses : Chooses type before value within)
    (values : List (Option Scalar))
    (typed : ∀ item, some item ∈ values → item.hasType type = true)
    (numbers : ∀ item, some item ∈ values → item.isUnordered = false) :
    Bounds values within ((leastBy before (values.filterMap id)).bind (aggregated type)) ↔
      (values.filterMap id = [] ∨ type ≠ .json) ∧
        (type.isBytewise = true → FirstOfBoth before value (values.filterMap id)) := by
  have present : ∀ item ∈ values.filterMap id, item.hasType type = true := by
    intro item member
    exact typed item ((mem_filterMap_id values item).mp member)
  have ordered : ∀ item ∈ values.filterMap id, item.isUnordered = false := by
    intro item member
    exact numbers item ((mem_filterMap_id values item).mp member)
  cases chosen : leastBy before (values.filterMap id) with
  | none =>
      have empty := (leastBy_eq_none before _).mp chosen
      refine iff_of_true ⟨?_, ?_, ?_⟩ ⟨Or.inl empty, fun _ => Or.inl empty⟩
      · exact iff_of_true rfl ((filterMap_id_eq_nil values).mp empty)
      · intro bound found
        cases found
      · intro bound found
        cases found
  | some least =>
      have member := leastBy_mem before _ least chosen
      have variant := ((hasType_iff least).mp (present least member)).1
      have variants : ∀ item ∈ values.filterMap id, OfVariant least.variant item :=
        fun item inside => Option.some.inj
          (((hasType_iff item).mp (present item inside)).1.symm.trans variant)
      have lowest := (leastBy_eq_some (chooses.weak least.variant) _ variants least chosen).2
      have filled : values.filterMap id ≠ [] := List.ne_nil_of_mem member
      rw [Option.bind_some]
      by_cases text : type = .json
      · refine iff_of_false (fun bounds => ?_) (fun right => right.1.elim filled (· text))
        obtain ⟨found, converts⟩ := aggregated_typed least (present least member)
        have within_ := bounds.bounds _ converts least ((mem_filterMap_id values _).mp member)
        have comparable := ((chooses.aggregated_iff least least (present least member)
          (present least member) _ converts).mp within_).1
        rw [text] at comparable
        cases comparable
      · have first := chooses.firstOfBoth_iff _ present ordered least member lowest
        have agrees : ∀ item ∈ values.filterMap id,
            (within (.scalar least) (.scalar item) ↔ value item least = false) :=
          fun item inside => chooses.agrees least item (ordered least member)
            (ordered item inside) (variants item inside).symm
        rw [aggregated_eq least (present least member) text, first]
        constructor
        · intro bounds
          refine ⟨Or.inr text, fun item inside => (agrees item inside).mp ?_⟩
          exact bounds.bounds _ rfl item ((mem_filterMap_id values item).mp inside)
        · rintro ⟨-, firstByValue⟩
          constructor
          · exact iff_of_false (by simp) fun none_left =>
              filled ((filterMap_id_eq_nil values).mpr none_left)
          · intro bound found
            exact ⟨least, (mem_filterMap_id values _).mp member, (Option.some.inj found).symm⟩
          · intro bound found item listed
            obtain rfl := Option.some.inj found
            have inside := (mem_filterMap_id values item).mpr listed
            exact (agrees item inside).mpr (firstByValue item inside)

/-- The bounds of an array are right but for JSON texts, whose bounds are strings, and for the types
whose values are stored as bytes: there the first value in byte order has to be the first one by
value, and likewise the last. -/
theorem findBounds_iff
    (values : List (Option Scalar))
    (typed : ∀ item, some item ∈ values → item.hasType type = true)
    (numbers : ∀ item, some item ∈ values → item.isUnordered = false) :
    (Bounds values AtMost (findMin type values) ∧ Bounds values AtLeast (findMax type values)) ↔
      (values.filterMap id = [] ∨ type ≠ .json) ∧
        (type.isBytewise = true →
          FirstOfBoth physicalLess valueLess (values.filterMap id) ∧
            FirstOfBoth (fun a b => physicalLess b a) (fun a b => valueLess b a)
              (values.filterMap id)) := by
  have least := bounds_iff (chooses_physicalLess type) values typed numbers
  have greatest := bounds_iff (chooses_flipped type) values typed numbers
  rw [findMin, findMax, least, greatest, forall_and]
  tauto

end

/-- The first of these bytes is 1 for the number 1, and 0 for 256. -/
theorem findMin_int128 :
    ¬ Bounds [some (.int128 1), some (.int128 256)] AtMost
      (findMin .int128 [some (.int128 1), some (.int128 256)]) := by
  intro bounds
  have within := bounds.bounds (.scalar (.int128 256)) (by decide +kernel) (.int128 1) (by decide)
  unfold AtMost at within
  revert within
  decide +kernel

theorem findBounds_iff_int32 :
    Bounds [some (.int32 5), none, some (.int32 (-3))] AtMost
        (findMin .int32 [some (.int32 5), none, some (.int32 (-3))]) ∧
      Bounds [some (.int32 5), none, some (.int32 (-3))] AtLeast
        (findMax .int32 [some (.int32 5), none, some (.int32 (-3))]) := by
  refine (@findBounds_iff .int32 _ ?_ ?_).mpr
    ⟨Or.inr (by decide), fun bytewise => by cases bytewise⟩
  · simp only [List.mem_cons, Option.some.injEq, reduceCtorEq, false_or, List.not_mem_nil, or_false]
    rintro item (rfl | rfl) <;> decide
  · simp only [List.mem_cons, Option.some.injEq, reduceCtorEq, false_or, List.not_mem_nil, or_false]
    rintro item (rfl | rfl) <;> decide

end Ducklake.Io
