import Mathlib.Algebra.GroupWithZero.Nat
import Mathlib.Algebra.Ring.Int.Defs
import Ducklake.Io.PhysicalOrder

/-!
# Statistics of a Parquet file

`derive_column_stats` of `io/parquet/statistics.rs`: the statistics of a column from those of its
row groups, some of which may be missing.
-/

set_option autoImplicit false

namespace Ducklake.Io

open Lib

/-! ## Row groups -/

/-- The values of a column in one row group, and what the metadata tells of them.  The bounds need
not be right, a null count is. -/
structure RowGroup (type : PrimitiveType) where
  compressedSize : Int
  values : List (Option Scalar)
  min : Option Scalar
  max : Option Scalar
  nullCount : Option Nat
  valuesTyped : ∀ value ∈ values.filterMap id, value.hasType type = true
  minTyped : ∀ value ∈ min, value.hasType type = true
  maxTyped : ∀ value ∈ max, value.hasType type = true
  counted : ∀ count ∈ nullCount, count = values.count none

/-- `aggregate::sum` of an array of 64-bit numbers: nulls are skipped. -/
def sumCounts (counts : List (Option Nat)) : Option Nat :=
  if counts.all Option.isNone then none else some ((counts.filterMap id).sum % 2 ^ 64)

/-- The statistics of a column.  Each of the three arrays is missing if its conversion failed. -/
def deriveColumnStats (type : PrimitiveType) (sizes : List Int)
    (mins maxes : Option (List (Option Scalar))) (nullCounts : Option (List (Option Nat))) :
    FileColumnStats where
  sizeBytes := some (sizes.sum % 2 ^ 64).toNat
  minValue := mins.bind (findMin type)
  maxValue := maxes.bind (findMax type)
  nullCount := nullCounts.bind sumCounts
  containsNan := none

section

variable {type : PrimitiveType}

/-- The statistics of a column of a file.  The flags say which conversions succeed. -/
def fileColumnStats (groups : List (RowGroup type)) (minsRead maxesRead countsRead : Bool) :
    FileColumnStats :=
  deriveColumnStats type (groups.map RowGroup.compressedSize)
    (if minsRead then some (groups.map RowGroup.min) else none)
    (if maxesRead then some (groups.map RowGroup.max) else none)
    (if countsRead then some (groups.map RowGroup.nullCount) else none)

def columnValues (groups : List (RowGroup type)) : List Scalar :=
  groups.flatMap fun group => group.values.filterMap id

def columnNulls (groups : List (RowGroup type)) : Nat :=
  (groups.map fun group => group.values.count none).sum

def AtMost (a b : Value) : Prop :=
  a.partialCmp b = some .lt ∨ a.partialCmp b = some .eq

def AtLeast (a b : Value) : Prop :=
  a.partialCmp b = some .gt ∨ a.partialCmp b = some .eq

/-- What statistics say is right for the values of all row groups.  Nothing bounds a NaN. -/
structure SoundStats (stats : FileColumnStats) (groups : List (RowGroup type)) : Prop where
  minimum : ∀ least, stats.minValue = some least →
    ∀ value ∈ columnValues groups, value.isNan = false → AtMost least (.scalar value)
  maximum : ∀ greatest, stats.maxValue = some greatest →
    ∀ value ∈ columnValues groups, value.isNan = false → AtLeast greatest (.scalar value)
  nulls : ∀ count, stats.nullCount = some count → count = columnNulls groups

/-! ## Bounds -/

/-- Some stored bound covers each value.  Where arrays are ordered by bytes it is the first bound in
that order; and a NaN must not be the first of the bounds. -/
def Covers (type : PrimitiveType) (before : Scalar → Scalar → Bool) (within : Value → Value → Prop)
    (stored values : List Scalar) : Prop :=
  ∀ item ∈ values, item.isNan = false → type.comparesBounds = true ∧
    (∃ bound ∈ stored, within (.scalar bound) (.scalar item) ∧
      (type.isBytewise = true → ∀ other ∈ stored, before other bound = false)) ∧
    ∀ nan ∈ stored, nan.isNan = true → ∃ other ∈ stored, before other nan = true

theorem leastBy_eq_none (less : Scalar → Scalar → Bool) (items : List Scalar) :
    leastBy less items = none ↔ items = [] := by
  cases items with
  | nil => exact ⟨fun _ => rfl, fun _ => rfl⟩
  | cons item rest =>
      rw [leastBy]
      split
      · simp
      · split <;> simp

/-- What `leastBy` finds is one of the items, and no other comes before it. -/
theorem leastBy_eq_some
    {before : Scalar → Scalar → Bool}
    {among : Scalar → Prop}
    (weak : StrictWeak before among)
    (items : List Scalar)
    (all : ∀ item ∈ items, among item)
    (least : Scalar)
    (found : leastBy before items = some least) :
    least ∈ items ∧ ∀ item ∈ items, before item least = false := by
  have irrefl : ∀ item, among item → before item item = false := by
    intro item member
    cases self : before item item with
    | false => rfl
    | true => exact self.symm.trans (weak.asymm item item member member self)
  induction items generalizing least with
  | nil => cases found
  | cons head rest ih =>
      obtain ⟨first, all⟩ := List.forall_mem_cons.mp all
      rw [leastBy] at found
      split at found
      · rename_i none_left
        obtain rfl := Option.some.inj found
        obtain rfl := (leastBy_eq_none before rest).mp none_left
        exact ⟨List.mem_cons_self, List.forall_mem_cons.mpr ⟨irrefl head first, by simp⟩⟩
      · rename_i second inRest
        obtain ⟨member, lowest⟩ := ih all second inRest
        split at found
        · rename_i smaller
          obtain rfl := Option.some.inj found
          exact ⟨List.mem_cons_of_mem _ member, List.forall_mem_cons.mpr
            ⟨weak.asymm second head (all second member) first smaller, lowest⟩⟩
        · rename_i notSmaller
          obtain rfl := Option.some.inj found
          refine ⟨List.mem_cons_self, List.forall_mem_cons.mpr ⟨irrefl head first, ?_⟩⟩
          intro item inside
          exact weak.negTrans item second head (all item inside) (all second member) first
            (lowest item inside) (by simpa using notSmaller)

/-- How bounds of a type are chosen by one order and are right by another one. -/
structure Chooses (type : PrimitiveType) (before value : Scalar → Scalar → Bool)
    (within : Value → Value → Prop) : Prop where
  weak : ∀ variant, StrictWeak before (OfVariant variant)
  ranks : type.isBytewise = false → ∀ variant, type.scalarVariant = some variant →
    Ranks before value variant
  first : type.isBytewise = true → ∀ a b, a.hasType type = true → b.hasType type = true →
    before a b = false → before b a = false → a = b
  /-- Only ordered scalars of one variant are comparable. -/
  compared : ∀ a b : Scalar, within (.scalar a) (.scalar b) →
    a.isUnordered = false ∧ b.isUnordered = false ∧ a.variant = b.variant
  agrees : ∀ a b : Scalar, a.isUnordered = false → b.isUnordered = false → a.variant = b.variant →
    (within (.scalar a) (.scalar b) ↔ value b a = false)

theorem hasType_iff (value : Scalar) :
    value.hasType type = true ↔
      type.scalarVariant = some value.variant ∧ value.fitsBytes = true := by
  simp [Scalar.hasType]

theorem bytewise_iff (variant : Nat) (typed : type.scalarVariant = some variant) :
    type.isBytewise = true ↔ variant = 5 ∨ variant = 10 ∨ variant = 15 := by
  cases type <;> simp_all [PrimitiveType.scalarVariant, PrimitiveType.isBytewise] <;> omega

theorem isSome_partialCmp_scalar (a b : Scalar) (ordered : a.isUnordered = false)
    (other : b.isUnordered = false) (same : a.variant = b.variant) :
    (a.partialCmp b).isSome = true := by
  cases a with
  | interval => cases ordered
  | float32 x =>
      cases b with
      | float32 y => exact isSome_partialCmp x y (by simpa using ordered) (by simpa using other)
      | _ => cases same
  | float64 x =>
      cases b with
      | float64 y => exact isSome_partialCmp x y (by simpa using ordered) (by simpa using other)
      | _ => cases same
  | _ =>
      cases b <;> first
        | rfl
        | cases same

theorem compared_of_isSome (a b : Scalar) (some_ : (a.partialCmp b).isSome = true) :
    a.isUnordered = false ∧ b.isUnordered = false ∧ a.variant = b.variant := by
  have ordered : ¬ (a.isUnordered = true ∨ b.isUnordered = true) := by
    intro either
    rw [partialCmp_of_isUnordered a b either] at some_
    cases some_
  rw [not_or, Bool.not_eq_true, Bool.not_eq_true] at ordered
  refine ⟨ordered.1, ordered.2, ?_⟩
  rw [Scalar.partialCmp_eq] at some_
  split at some_
  · assumption
  · cases some_

theorem valueLess_false_iff (a b : Scalar) (ordered : a.isUnordered = false)
    (other : b.isUnordered = false) (same : a.variant = b.variant) :
    (AtMost (.scalar a) (.scalar b) ↔ valueLess b a = false) ∧
      (AtLeast (.scalar a) (.scalar b) ↔ valueLess a b = false) := by
  obtain ⟨order, compared⟩ :=
    Option.isSome_iff_exists.mp (isSome_partialCmp_scalar a b ordered other same)
  have swapped := (Scalar.partialCmp_lawful a).swap b
  unfold AtMost AtLeast valueLess
  rw [Value.partialCmp, swapped, compared]
  cases order <;> simp

theorem chooses_physicalLess (type : PrimitiveType) :
    Chooses type physicalLess valueLess AtMost where
  weak := strictWeak_physicalLess
  ranks valued variant typed := by
    refine ranks_physicalLess variant ?_
    have bytewise := (bytewise_iff variant typed).not.mp (by simp [valued])
    tauto
  first bytewise a b left right := by
    obtain ⟨leftVariant, leftFits⟩ := (hasType_iff a).mp left
    obtain ⟨rightVariant, rightFits⟩ := (hasType_iff b).mp right
    exact eq_of_physicalLess a b leftFits rightFits
      (Option.some.inj (leftVariant.symm.trans rightVariant))
      ((bytewise_iff _ leftVariant).mp bytewise)
  compared a b within := by
    refine compared_of_isSome a b ?_
    rcases within with less | same
    · rw [Value.partialCmp] at less
      rw [less]
      rfl
    · rw [Value.partialCmp] at same
      rw [same]
      rfl
  agrees a b ordered other same := (valueLess_false_iff a b ordered other same).1

theorem chooses_flipped (type : PrimitiveType) :
    Chooses type (fun a b => physicalLess b a) (fun a b => valueLess b a) AtLeast where
  weak variant := ((chooses_physicalLess type).weak variant).flip
  ranks valued variant typed := ((chooses_physicalLess type).ranks valued variant typed).flip
  first bytewise a b left right notBefore notAfter :=
    (chooses_physicalLess type).first bytewise a b left right notAfter notBefore
  compared a b within := by
    refine compared_of_isSome a b ?_
    rcases within with greater | same
    · rw [Value.partialCmp] at greater
      rw [greater]
      rfl
    · rw [Value.partialCmp] at same
      rw [same]
      rfl
  agrees a b ordered other same := (valueLess_false_iff a b ordered other same).2

/-! ## Values of the statistics -/

theorem aggregated_typed (value : Scalar) (typed : value.hasType type = true) :
    ∃ converted, aggregated type value = some (.scalar converted) := by
  have variant := ((hasType_iff value).mp typed).1
  cases type with
  | variant | geometry => cases variant
  | json =>
      cases value with
      | json text => exact ⟨_, rfl⟩
      | _ => cases variant
  | _ => exact ⟨value, rfl⟩

theorem isUnordered_eq (value : Scalar) (typed : value.hasType type = true)
    (comparable : type.comparesBounds = true) : value.isUnordered = value.isNan := by
  have variant := ((hasType_iff value).mp typed).1
  cases value with
  | interval =>
      cases type with
      | interval => cases comparable
      | _ => cases variant
  | float32 | float64 => simp [Scalar.isNan]
  | _ => rfl

theorem isBytewise_of_isNan (value : Scalar) (typed : value.hasType type = true)
    (nan : value.isNan = true) : type.isBytewise = false := by
  have variant := ((hasType_iff value).mp typed).1
  cases value with
  | float32 | float64 => cases type <;> first | rfl | cases variant
  | _ => cases nan

/-- The bound of a comparable type is one of the scalars; the bound of JSON texts is a string. -/
theorem Chooses.aggregated_iff
    {before value : Scalar → Scalar → Bool}
    {within : Value → Value → Prop}
    (chooses : Chooses type before value within)
    (least item : Scalar)
    (leastTyped : least.hasType type = true)
    (itemTyped : item.hasType type = true)
    (found : Value)
    (converts : aggregated type least = some found) :
    within found (.scalar item) ↔
      type.comparesBounds = true ∧ within (.scalar least) (.scalar item) := by
  have leastVariant := ((hasType_iff least).mp leastTyped).1
  have itemVariant := ((hasType_iff item).mp itemTyped).1
  cases type with
  | variant | geometry => cases leastVariant
  | json =>
      cases least with
      | json text =>
          obtain rfl := Option.some.inj converts
          refine iff_of_false (fun compared => ?_) (fun both => by cases both.1)
          have same := (chooses.compared _ _ compared).2.2
          rw [← Option.some.inj itemVariant] at same
          cases same
      | _ => cases leastVariant
  | interval =>
      refine iff_of_false (fun compared => ?_) (fun both => by cases both.1)
      obtain rfl := Option.some.inj converts
      have ordered := (chooses.compared _ _ compared).1
      cases least with
      | interval => cases ordered
      | _ => cases leastVariant
  | _ =>
      obtain rfl := Option.some.inj converts
      exact ⟨fun compared => ⟨rfl, compared⟩, And.right⟩

/-- The chosen bound is right for a value just when a stored one is, and a NaN is not chosen. -/
theorem Chooses.covered_iff
    {before value : Scalar → Scalar → Bool}
    {within : Value → Value → Prop}
    (chooses : Chooses type before value within)
    (stored : List Scalar)
    (storedTyped : ∀ bound ∈ stored, bound.hasType type = true)
    (item : Scalar)
    (itemTyped : item.hasType type = true)
    (least : Scalar)
    (member : least ∈ stored)
    (lowest : ∀ bound ∈ stored, before bound least = false)
    (comparable : type.comparesBounds = true) :
    within (.scalar least) (.scalar item) ↔
      (∃ bound ∈ stored, within (.scalar bound) (.scalar item) ∧
        (type.isBytewise = true → ∀ other ∈ stored, before other bound = false)) ∧
      ∀ nan ∈ stored, nan.isNan = true → ∃ other ∈ stored, before other nan = true := by
  have variant := ((hasType_iff item).mp itemTyped).1
  have ofVariant : ∀ bound ∈ stored, OfVariant item.variant bound := by
    intro bound inside
    exact Option.some.inj (((hasType_iff bound).mp (storedTyped bound inside)).1.symm.trans variant)
  constructor
  · intro covers
    refine ⟨⟨least, member, covers, fun _ => lowest⟩, fun nan inside isNan => ?_⟩
    have ranks := chooses.ranks (isBytewise_of_isNan nan (storedTyped nan inside) isNan) _ variant
    have unordered := isUnordered_eq nan (storedTyped nan inside) comparable
    rcases ranks.apart nan least (ofVariant nan inside) (ofVariant least member)
      (unordered.trans isNan) (chooses.compared _ _ covers).1 with first | last
    · rw [lowest nan inside] at first
      cases first
    · exact ⟨least, member, last⟩
  · rintro ⟨⟨bound, inside, covers, firstInBytes⟩, numbers⟩
    cases bytewise : type.isBytewise with
    | true =>
        have same := chooses.first bytewise bound least (storedTyped bound inside)
          (storedTyped least member) (lowest bound inside) (firstInBytes bytewise least member)
        exact same ▸ covers
    | false =>
        have ranks := chooses.ranks bytewise _ variant
        obtain ⟨boundOrdered, itemOrdered, same⟩ := chooses.compared _ _ covers
        have leastOrdered : least.isUnordered = false := by
          rw [isUnordered_eq least (storedTyped least member) comparable, ← Bool.not_eq_true]
          intro isNan
          obtain ⟨other, listed, first⟩ := numbers least member isNan
          rw [lowest other listed] at first
          cases first
        rw [chooses.agrees bound item boundOrdered itemOrdered same,
          ranks.ordered item bound rfl same itemOrdered boundOrdered] at covers
        rw [chooses.agrees least item leastOrdered itemOrdered (ofVariant least member),
          ranks.ordered item least rfl (ofVariant least member) itemOrdered leastOrdered]
        exact ranks.weak.negTrans item bound least rfl same (ofVariant least member) covers
          (lowest bound inside)

/-- The chosen bound is right just when there is none, or the stored bounds cover the values. -/
theorem Chooses.bound_iff
    {before value : Scalar → Scalar → Bool}
    {within : Value → Value → Prop}
    (chooses : Chooses type before value within)
    (stored values : List Scalar)
    (storedTyped : ∀ bound ∈ stored, bound.hasType type = true)
    (valuesTyped : ∀ item ∈ values, item.hasType type = true) :
    (∀ found, (leastBy before stored).bind (aggregated type) = some found →
        ∀ item ∈ values, item.isNan = false → within found (.scalar item)) ↔
      stored = [] ∨ Covers type before within stored values := by
  cases chosen : leastBy before stored with
  | none => simp [(leastBy_eq_none before stored).mp chosen]
  | some least =>
      have filled : stored ≠ [] := by
        rintro rfl
        cases chosen
      obtain ⟨bound, boundMember⟩ := List.exists_mem_of_ne_nil stored filled
      have typed := ((hasType_iff bound).mp (storedTyped bound boundMember)).1
      have variants : ∀ item ∈ stored, OfVariant bound.variant item := fun item inside =>
        Option.some.inj (((hasType_iff item).mp (storedTyped item inside)).1.symm.trans typed)
      obtain ⟨member, lowest⟩ :=
        leastBy_eq_some (chooses.weak bound.variant) stored variants least chosen
      obtain ⟨found, converts⟩ := aggregated_typed least (storedTyped least member)
      simp only [Option.bind_some, converts, Option.some.injEq, forall_eq', filled, false_or]
      refine forall₃_congr fun item inside _ => ?_
      rw [chooses.aggregated_iff least item (storedTyped least member) (valuesTyped item inside) _
        converts]
      exact and_congr_right fun comparable => chooses.covered_iff stored storedTyped item
        (valuesTyped item inside) least member lowest comparable

/-! ## Sound statistics -/

/-- When the statistics of a column are right: each bound is missing or covers the values, also those
of row groups without a stored bound; and no row group without a null count has nulls. -/
structure Complete (groups : List (RowGroup type)) (minsRead maxesRead countsRead : Bool) : Prop where
  minimum : minsRead = false ∨ groups.filterMap RowGroup.min = [] ∨
    Covers type physicalLess AtMost (groups.filterMap RowGroup.min) (columnValues groups)
  maximum : maxesRead = false ∨ groups.filterMap RowGroup.max = [] ∨
    Covers type (fun a b => physicalLess b a) AtLeast (groups.filterMap RowGroup.max)
      (columnValues groups)
  nulls : countsRead = false ∨ (∀ group ∈ groups, group.nullCount = none) ∨
    columnNulls groups < 2 ^ 64 ∧
      ∀ group ∈ groups, group.nullCount = none → group.values.count none = 0

theorem columnValues_typed (groups : List (RowGroup type)) :
    ∀ value ∈ columnValues groups, value.hasType type = true := by
  intro value member
  obtain ⟨group, _, inside⟩ := List.mem_flatMap.mp member
  exact group.valuesTyped value inside

theorem filterMap_typed (groups : List (RowGroup type)) (bound : RowGroup type → Option Scalar)
    (typed : ∀ group : RowGroup type, ∀ value ∈ bound group, value.hasType type = true) :
    ∀ value ∈ groups.filterMap bound, value.hasType type = true := by
  intro value member
  obtain ⟨group, _, found⟩ := List.mem_filterMap.mp member
  exact typed group value found

theorem leastBy_mem (before : Scalar → Scalar → Bool) (items : List Scalar) (least : Scalar)
    (found : leastBy before items = some least) : least ∈ items := by
  induction items generalizing least with
  | nil => cases found
  | cons head rest ih =>
      rw [leastBy] at found
      split at found
      · rw [← Option.some.inj found]
        exact List.mem_cons_self
      · rename_i second inRest
        split at found
        · rw [← Option.some.inj found]
          exact List.mem_cons_of_mem _ (ih second inRest)
        · rw [← Option.some.inj found]
          exact List.mem_cons_self

theorem sum_missing (groups : List (RowGroup type)) :
    (groups.filterMap RowGroup.nullCount).sum + (groups.map fun group =>
      if group.nullCount = none then group.values.count none else 0).sum = columnNulls groups := by
  unfold columnNulls
  induction groups with
  | nil => rfl
  | cons group rest ih =>
      cases stored : group.nullCount with
      | none =>
          rw [List.filterMap_cons_none stored, List.map_cons, List.map_cons, List.sum_cons,
            List.sum_cons, if_pos stored, ← ih]
          omega
      | some count =>
          have right := group.counted count stored
          rw [List.filterMap_cons_some stored, List.map_cons, List.map_cons, List.sum_cons,
            List.sum_cons, List.sum_cons, if_neg (by simp [stored]), ← ih, right]
          omega

theorem nulls_iff (groups : List (RowGroup type)) :
    (∀ count, sumCounts (groups.map RowGroup.nullCount) = some count → count = columnNulls groups) ↔
      (∀ group ∈ groups, group.nullCount = none) ∨ columnNulls groups < 2 ^ 64 ∧
        ∀ group ∈ groups, group.nullCount = none → group.values.count none = 0 := by
  have total := sum_missing groups
  have counts : (groups.map RowGroup.nullCount).filterMap id =
      groups.filterMap RowGroup.nullCount := by
    rw [List.filterMap_map]
    rfl
  have allMissing : (groups.map RowGroup.nullCount).all Option.isNone = true ↔
      ∀ group ∈ groups, group.nullCount = none := by
    simp [List.all_eq_true]
  have noneMissing : (groups.map fun group =>
      if group.nullCount = none then group.values.count none else 0).sum = 0 ↔
        ∀ group ∈ groups, group.nullCount = none → group.values.count none = 0 := by
    rw [List.sum_eq_zero_iff_forall_eq_nat]
    simp only [List.mem_map, forall_exists_index, and_imp, forall_apply_eq_imp_iff₂,
      ite_eq_right_iff]
  by_cases missing : ∀ group ∈ groups, group.nullCount = none
  · have none_left : sumCounts (groups.map RowGroup.nullCount) = none :=
      if_pos (allMissing.mpr missing)
    rw [none_left]
    exact ⟨fun _ => Or.inl missing, fun _ count absurd_ => (Option.some_ne_none count absurd_.symm).elim⟩
  · have some_left : sumCounts (groups.map RowGroup.nullCount) =
        some ((groups.filterMap RowGroup.nullCount).sum % 2 ^ 64) := by
      rw [sumCounts, if_neg (fun all => missing (allMissing.mp all)), counts]
    rw [some_left, ← noneMissing]
    simp only [Option.some.injEq, forall_eq', missing, false_or]
    omega

/-- The statistics of a column are right just when they are complete. -/
theorem fileColumnStats_sound_iff
    (groups : List (RowGroup type))
    (minsRead maxesRead countsRead : Bool) :
    SoundStats (fileColumnStats groups minsRead maxesRead countsRead) groups ↔
      Complete groups minsRead maxesRead countsRead := by
  have flatten : ∀ bound : RowGroup type → Option Scalar,
      (groups.map bound).filterMap id = groups.filterMap bound := by
    intro bound
    rw [List.filterMap_map]
    rfl
  have values := columnValues_typed groups
  have mins := filterMap_typed groups RowGroup.min RowGroup.minTyped
  have maxes := filterMap_typed groups RowGroup.max RowGroup.maxTyped
  have minimum : (∀ least, (fileColumnStats groups minsRead maxesRead countsRead).minValue =
      some least → ∀ value ∈ columnValues groups, value.isNan = false →
        AtMost least (.scalar value)) ↔
      (minsRead = false ∨ groups.filterMap RowGroup.min = [] ∨
        Covers type physicalLess AtMost (groups.filterMap RowGroup.min) (columnValues groups)) := by
    cases minsRead with
    | false => simp [fileColumnStats, deriveColumnStats]
    | true =>
        simp only [fileColumnStats, deriveColumnStats, if_true, Option.bind_some, findMin, flatten,
          Bool.true_eq_false, false_or]
        exact (chooses_physicalLess type).bound_iff _ _ mins values
  have maximum : (∀ greatest, (fileColumnStats groups minsRead maxesRead countsRead).maxValue =
      some greatest → ∀ value ∈ columnValues groups, value.isNan = false →
        AtLeast greatest (.scalar value)) ↔
      (maxesRead = false ∨ groups.filterMap RowGroup.max = [] ∨
        Covers type (fun a b => physicalLess b a) AtLeast (groups.filterMap RowGroup.max)
          (columnValues groups)) := by
    cases maxesRead with
    | false => simp [fileColumnStats, deriveColumnStats]
    | true =>
        simp only [fileColumnStats, deriveColumnStats, if_true, Option.bind_some, findMax, flatten,
          Bool.true_eq_false, false_or]
        exact (chooses_flipped type).bound_iff _ _ maxes values
  have nulls : (∀ count, (fileColumnStats groups minsRead maxesRead countsRead).nullCount =
      some count → count = columnNulls groups) ↔
      (countsRead = false ∨ (∀ group ∈ groups, group.nullCount = none) ∨
        columnNulls groups < 2 ^ 64 ∧
          ∀ group ∈ groups, group.nullCount = none → group.values.count none = 0) := by
    cases countsRead with
    | false => simp [fileColumnStats, deriveColumnStats]
    | true =>
        simp only [fileColumnStats, deriveColumnStats, if_true, Option.bind_some, Bool.true_eq_false,
          false_or]
        exact nulls_iff groups
  constructor
  · rintro ⟨minimumSound, maximumSound, nullsSound⟩
    exact ⟨minimum.mp minimumSound, maximum.mp maximumSound, nulls.mp nullsSound⟩
  · rintro ⟨minimumComplete, maximumComplete, nullsComplete⟩
    exact ⟨minimum.mpr minimumComplete, maximum.mpr maximumComplete, nulls.mpr nullsComplete⟩

end

def halfWithStatistics : List (RowGroup .int32) := [
  { compressedSize := 1, values := [some (.int32 5)], min := some (.int32 5),
    max := some (.int32 5), nullCount := some 0, valuesTyped := by decide, minTyped := by decide,
    maxTyped := by decide, counted := by decide },
  { compressedSize := 1, values := [some (.int32 1), some (.int32 9), none], min := none,
    max := none, nullCount := none, valuesTyped := by decide, minTyped := by decide,
    maxTyped := by decide, counted := by decide }]

/-- The bounds and the null count of the first row group stand for both. -/
theorem fileColumnStats_halfWithStatistics :
    (fileColumnStats halfWithStatistics true true true).minValue = some (.scalar (.int32 5)) ∧
      (fileColumnStats halfWithStatistics true true true).nullCount = some 0 ∧
      ¬ SoundStats (fileColumnStats halfWithStatistics true true true) halfWithStatistics := by
  have least : (fileColumnStats halfWithStatistics true true true).minValue =
      some (.scalar (.int32 5)) := by decide +kernel
  refine ⟨least, by decide +kernel, fun sound => ?_⟩
  have bound := sound.minimum _ least (.int32 1) (by decide +kernel) rfl
  unfold AtMost at bound
  revert bound
  decide +kernel

end Ducklake.Io
