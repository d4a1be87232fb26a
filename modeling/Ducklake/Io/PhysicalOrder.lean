import Mathlib.Tactic.NormNum
import Ducklake.Io.Statistics
import Ducklake.Typedefs.ScalarOrder

/-!
# The order of arrays

The order in which the smallest and the largest value of an array are found, among the scalars of
one type.
-/

set_option autoImplicit false

namespace Ducklake

open Lib

/-! ## Scalars of a type -/

/-- The values that the fixed-size bytes of an array can stand for. -/
def Scalar.fitsBytes : Scalar → Bool
  | .int128 value => -2 ^ 127 ≤ value && value < 2 ^ 127
  | .uint128 value => value < 2 ^ 128
  | .timeTz nanoseconds offset =>
      nanoseconds % 1000 == 0 && nanoseconds < 1000 * 2 ^ 40 && -2 ^ 23 ≤ offset && offset < 2 ^ 23
  | _ => true

def PrimitiveType.scalarVariant : PrimitiveType → Option Nat
  | boolean => some 0
  | int8 => some 1
  | int16 => some 2
  | int32 => some 3
  | int64 => some 4
  | int128 => some 5
  | uint8 => some 6
  | uint16 => some 7
  | uint32 => some 8
  | uint64 => some 9
  | uint128 => some 10
  | float32 => some 11
  | float64 => some 12
  | decimal _ _ => some 13
  | time => some 14
  | timeTz => some 15
  | date => some 16
  | timestamp _ => some 17
  | timestampTz => some 18
  | interval => some 19
  | varchar => some 20
  | blob => some 21
  | json => some 22
  | uuid => some 23
  | variant | geometry => none

def Scalar.hasType (value : Scalar) (type : PrimitiveType) : Bool :=
  type.scalarVariant == some value.variant && value.fitsBytes

/-- Arrays of these types hold fixed-size bytes that stand for numbers. -/
def PrimitiveType.isBytewise : PrimitiveType → Bool
  | int128 | uint128 | timeTz => true
  | _ => false

/-- The types whose bounds are comparable with their values: intervals are in no order, and the bound
of JSON texts is a string. -/
def PrimitiveType.comparesBounds : PrimitiveType → Bool
  | json | interval => false
  | _ => true

def Scalar.isNan : Scalar → Bool
  | .float32 value | .float64 value => value == .nan
  | _ => false

/-- A NaN or an interval. -/
def Scalar.isUnordered (value : Scalar) : Bool :=
  !value.key.isReflexive

namespace Io

/-! ## Bytes -/

theorem littleEndianBytes_inj (width a b : Nat)
    (same : littleEndianBytes a width = littleEndianBytes b width) :
    a % 256 ^ width = b % 256 ^ width := by
  induction width generalizing a b with
  | zero => simp [Nat.mod_one]
  | succ width ih =>
      obtain ⟨low, high⟩ := List.cons.inj same
      rw [Nat.pow_succ', Nat.mod_mul, Nat.mod_mul, low, ih _ _ high]

theorem length_littleEndianBytes (width a : Nat) : (littleEndianBytes a width).length = width := by
  induction width generalizing a with
  | zero => rfl
  | succ width ih => rw [littleEndianBytes, List.length_cons, ih]

theorem eq_of_fixedSizeBytes (a b : Scalar) (bytes : List Nat) (fits : a.fitsBytes = true)
    (other : b.fitsBytes = true) (variant : a.variant = b.variant)
    (left : fixedSizeBytes a = some bytes) (right : fixedSizeBytes b = some bytes) : a = b := by
  cases a with
  | int128 x =>
      cases b with
      | int128 y =>
          have same := littleEndianBytes_inj 16 _ _
            ((Option.some.inj left).trans (Option.some.inj right).symm)
          simp only [twosComplement, Scalar.fitsBytes, Bool.and_eq_true, decide_eq_true_eq]
            at same fits other
          norm_num at same
          congr 1
          omega
      | _ => cases variant
  | uint128 x =>
      cases b with
      | uint128 y =>
          have same := littleEndianBytes_inj 16 _ _
            ((Option.some.inj left).trans (Option.some.inj right).symm)
          simp only [Scalar.fitsBytes, decide_eq_true_eq] at fits other
          norm_num at same
          congr 1
          omega
      | _ => cases variant
  | timeTz x offset =>
      cases b with
      | timeTz y offset' =>
          have same := (Option.some.inj left).trans (Option.some.inj right).symm
          obtain ⟨micros, offsets⟩ := List.append_inj same (by
            rw [length_littleEndianBytes, length_littleEndianBytes])
          have micros := littleEndianBytes_inj 5 _ _ micros
          have offsets := littleEndianBytes_inj 3 _ _ offsets
          simp only [twosComplement, Scalar.fitsBytes, Bool.and_eq_true, decide_eq_true_eq,
            beq_iff_eq] at offsets fits other
          norm_num at micros offsets
          congr 1
          · omega
          · omega
      | _ => cases variant
  | _ => cases left

/-! ## Strict weak orders of scalars -/

theorem floatLess_iff (a b : FloatValue) :
    floatLess a b = true ↔ a ≠ .nan ∧ (b = .nan ∨ a.partialCmp b = some .lt) := by
  cases a <;> cases b <;> simp [floatLess]

theorem floatLess_numbers (a b : FloatValue) (number : a ≠ .nan) (other : b ≠ .nan) :
    floatLess a b = (a.partialCmp b == some .lt) := by
  cases a <;> cases b <;> simp_all [floatLess]

theorem isSome_partialCmp (a b : FloatValue) (number : a ≠ .nan) (other : b ≠ .nan) :
    (a.partialCmp b).isSome = true := by
  cases a <;> cases b <;> simp_all [FloatValue.partialCmp]

theorem strictWeak_floatLess : StrictWeak floatLess fun _ => True := by
  have numbers := LawfulPartialCmp.strictWeak FloatValue.partialCmp_lawful
    (fun value => value ≠ .nan) isSome_partialCmp
  constructor
  · intro a b _ _ before
    obtain ⟨number, nan | less⟩ := (floatLess_iff a b).mp before
    · rw [← Bool.not_eq_true, floatLess_iff]
      exact fun after => after.1 nan
    · have other : b ≠ .nan := by
        rintro rfl
        simp at less
      have back := numbers.asymm a b number other (by simpa using less)
      rw [← Bool.not_eq_true, floatLess_iff]
      rintro ⟨_, nan | greater⟩
      · exact number nan
      · simp [greater] at back
  · intro a b c _ _ _ first second
    rw [← Bool.not_eq_true, floatLess_iff] at first second ⊢
    rintro ⟨number, rest⟩
    obtain ⟨other, notLess⟩ := not_or.mp fun case => first ⟨number, case⟩
    obtain ⟨third, notLess'⟩ := not_or.mp fun case => second ⟨other, case⟩
    have outer := numbers.negTrans a b c number other third (by simpa using notLess)
      (by simpa using notLess')
    rcases rest with nan | less
    · exact third nan
    · simp [less] at outer

theorem strictWeak_sequences {α : Type} [Ord α] [Std.TransOrd α] :
    StrictWeak (fun a b : List α => compareSequences compare a b == .lt) fun _ => True := by
  have lawful := LawfulPartialCmp.strictWeak
    (lawfulPartialCmp_of_transCmp (List.compareLex (compare : α → α → Ordering)))
    (fun _ => True) (fun _ _ _ _ => rfl)
  refine lawful.on id fun a b _ _ => ?_
  rw [compareSequences_eq]
  cases h : List.compareLex compare a b <;> simp [h]

def OfVariant (variant : Nat) (value : Scalar) : Prop :=
  value.variant = variant

def floatOf : Scalar → FloatValue
  | .float32 value | .float64 value => value
  | _ => .nan

def partsOf : Scalar → List Int
  | .interval months delta => intervalParts months delta
  | _ => []

def isPlain (variant : Nat) : Bool :=
  !(variant == 5 || variant == 10 || variant == 11 || variant == 12 || variant == 15 ||
    variant == 19)

theorem fixedSizeBytes_of_variant (value : Scalar)
    (bytewise : value.variant = 5 ∨ value.variant = 10 ∨ value.variant = 15) :
    ∃ bytes, fixedSizeBytes value = some bytes := by
  cases value with
  | int128 | uint128 | timeTz => exact ⟨_, rfl⟩
  | _ => simp [Scalar.variant] at bytewise

theorem physicalLess_bytes (a b : Scalar) (left right : List Nat)
    (leftBytes : fixedSizeBytes a = some left) (rightBytes : fixedSizeBytes b = some right) :
    physicalLess a b = (compareSequences compare left right == .lt) := by
  simp only [physicalLess, leftBytes, rightBytes]

theorem physicalLess_plain (a b : Scalar) (plain : isPlain a.variant = true) :
    physicalLess a b = (a.partialCmp b == some .lt) := by
  cases a with
  | int128 | uint128 | float32 | float64 | timeTz | interval => cases plain
  | _ => rfl

theorem isSome_partialCmp_plain (a b : Scalar) (plain : isPlain a.variant = true)
    (same : a.variant = b.variant) : (a.partialCmp b).isSome = true := by
  cases a with
  | int128 | uint128 | float32 | float64 | timeTz | interval => cases plain
  | _ =>
      cases b <;> first
        | rfl
        | cases same

theorem strictWeak_bytes (variant : Nat) (bytewise : variant = 5 ∨ variant = 10 ∨ variant = 15) :
    StrictWeak physicalLess (OfVariant variant) := by
  refine strictWeak_sequences.on (fun value => (fixedSizeBytes value).getD []) ?_
  rintro a b rfl other
  obtain ⟨left, leftBytes⟩ := fixedSizeBytes_of_variant a bytewise
  obtain ⟨right, rightBytes⟩ := fixedSizeBytes_of_variant b (by
    rw [OfVariant] at other
    rwa [other])
  rw [physicalLess_bytes a b left right leftBytes rightBytes, leftBytes, rightBytes]
  rfl

theorem strictWeak_float (variant : Nat) (float : variant = 11 ∨ variant = 12) :
    StrictWeak physicalLess (OfVariant variant) := by
  refine strictWeak_floatLess.on floatOf ?_
  rintro a b rfl other
  cases a with
  | float32 x | float64 x =>
      cases b <;> first
        | rfl
        | cases other
  | _ => simp [Scalar.variant] at float

theorem strictWeak_interval : StrictWeak physicalLess (OfVariant 19) := by
  refine (@strictWeak_sequences Int _ _).on partsOf ?_
  intro a b interval other
  cases a with
  | interval =>
      cases b with
      | interval => rfl
      | _ => cases other
  | _ => cases interval

theorem strictWeak_plain (variant : Nat) (plain : isPlain variant = true) :
    StrictWeak physicalLess (OfVariant variant) := by
  have values := LawfulPartialCmp.strictWeak Scalar.partialCmp_lawful
    (OfVariant variant) (fun a b left right =>
      isSome_partialCmp_plain a b (by rwa [left]) (left.trans (Eq.symm right)))
  constructor
  · intro a b left right before
    rw [physicalLess_plain a b (by rwa [left])] at before
    rw [physicalLess_plain b a (by rwa [right])]
    exact values.asymm a b left right before
  · intro a b c left middle right first second
    rw [physicalLess_plain a b (by rwa [left])] at first
    rw [physicalLess_plain b c (by rwa [middle])] at second
    rw [physicalLess_plain a c (by rwa [left])]
    exact values.negTrans a b c left middle right first second

theorem strictWeak_physicalLess (variant : Nat) :
    StrictWeak physicalLess (OfVariant variant) := by
  by_cases plain : isPlain variant = true
  · exact strictWeak_plain variant plain
  · simp only [isPlain, Bool.not_eq_true', Bool.not_eq_false, Bool.or_eq_true, beq_iff_eq] at plain
    rcases plain with ((((int128 | uint128) | float32) | float64) | timeTz) | rfl
    · exact strictWeak_bytes variant (Or.inl int128)
    · exact strictWeak_bytes variant (Or.inr (Or.inl uint128))
    · exact strictWeak_float variant (Or.inl float32)
    · exact strictWeak_float variant (Or.inr float64)
    · exact strictWeak_bytes variant (Or.inr (Or.inr timeTz))
    · exact strictWeak_interval

/-! ## The order of arrays and that of values -/

/-- `partial_cmp` is `Less`. -/
def valueLess (a b : Scalar) : Bool :=
  a.partialCmp b == some .lt

/-- How the order in which a bound is chosen agrees with the order of values, but for those values
that are in no order. -/
structure Ranks (before value : Scalar → Scalar → Bool) (variant : Nat) : Prop where
  weak : StrictWeak before (OfVariant variant)
  ordered : ∀ a b, OfVariant variant a → OfVariant variant b → a.isUnordered = false →
    b.isUnordered = false → value a b = before a b
  unordered : ∀ a b, a.isUnordered = true ∨ b.isUnordered = true → value a b = false
  apart : ∀ a b, OfVariant variant a → OfVariant variant b → a.isUnordered = true →
    b.isUnordered = false → before a b = true ∨ before b a = true

theorem Ranks.flip
    {before value : Scalar → Scalar → Bool}
    {variant : Nat}
    (ranks : Ranks before value variant) :
    Ranks (fun a b => before b a) (fun a b => value b a) variant where
  weak := ranks.weak.flip
  ordered a b left right first second := ranks.ordered b a right left second first
  unordered a b either := ranks.unordered b a (Or.symm either)
  apart a b left right first second := Or.symm (ranks.apart a b left right first second)

@[simp] theorem isUnordered_float32 (value : FloatValue) :
    (Scalar.float32 value).isUnordered = (value == .nan) := by
  simp [Scalar.isUnordered, Scalar.key, ScalarKey.isReflexive, bne]

@[simp] theorem isUnordered_float64 (value : FloatValue) :
    (Scalar.float64 value).isUnordered = (value == .nan) := by
  simp [Scalar.isUnordered, Scalar.key, ScalarKey.isReflexive, bne]

theorem partialCmp_of_isUnordered (a b : Scalar)
    (either : a.isUnordered = true ∨ b.isUnordered = true) : a.partialCmp b = none := by
  rw [Scalar.partialCmp_eq]
  split
  · simp only [Scalar.isUnordered, Bool.not_eq_true'] at either
    rcases either with unordered | unordered
    · cases key : a.key <;> cases other : b.key <;>
        simp_all [ScalarKey.isReflexive, ScalarKey.partialCmp]
    · cases key : b.key <;> cases other : a.key <;>
        simp_all [ScalarKey.isReflexive, ScalarKey.partialCmp]
  · rfl

theorem ranks_physicalLess (variant : Nat)
    (valued : variant ≠ 5 ∧ variant ≠ 10 ∧ variant ≠ 15) :
    Ranks physicalLess valueLess variant where
  weak := strictWeak_physicalLess variant
  ordered a b left right first second := by
    subst left
    cases a with
    | int128 | uint128 | timeTz => simp [Scalar.variant] at valued
    | interval => cases first
    | float32 x =>
        cases b with
        | float32 y => exact (floatLess_numbers x y (by simpa using first) (by simpa using second)).symm
        | _ => cases right
    | float64 x =>
        cases b with
        | float64 y => exact (floatLess_numbers x y (by simpa using first) (by simpa using second)).symm
        | _ => cases right
    | _ => rfl
  unordered a b either := by
    rw [valueLess, partialCmp_of_isUnordered a b either]
    rfl
  apart a b left right first second := by
    subst left
    cases a with
    | float32 x =>
        cases b with
        | float32 y => exact Or.inr ((floatLess_iff y x).mpr
            ⟨by simpa using second, Or.inl (by simpa using first)⟩)
        | _ => cases right
    | float64 x =>
        cases b with
        | float64 y => exact Or.inr ((floatLess_iff y x).mpr
            ⟨by simpa using second, Or.inl (by simpa using first)⟩)
        | _ => cases right
    | interval =>
        cases b with
        | interval => cases second
        | _ => cases right
    | _ => cases first

/-- Two scalars of a type of which neither comes first in the order of their bytes. -/
theorem eq_of_physicalLess (a b : Scalar) (fits : a.fitsBytes = true) (other : b.fitsBytes = true)
    (same : a.variant = b.variant) (bytewise : a.variant = 5 ∨ a.variant = 10 ∨ a.variant = 15)
    (notLess : physicalLess a b = false) (notGreater : physicalLess b a = false) : a = b := by
  obtain ⟨left, leftBytes⟩ := fixedSizeBytes_of_variant a bytewise
  obtain ⟨right, rightBytes⟩ := fixedSizeBytes_of_variant b (by rwa [← same])
  rw [physicalLess_bytes a b left right leftBytes rightBytes] at notLess
  rw [physicalLess_bytes b a right left rightBytes leftBytes] at notGreater
  rw [compareSequences_eq] at notLess notGreater
  have swapped : List.compareLex compare right left =
      (List.compareLex compare left right).swap := Std.OrientedCmp.eq_swap
  have equal : left = right := by
    rw [swapped] at notGreater
    have undecided : List.compareLex compare left right = .eq := by
      cases order : List.compareLex compare left right <;> simp_all
    exact Std.LawfulEqCmp.eq_of_compare undecided
  rw [← equal] at rightBytes
  exact eq_of_fixedSizeBytes a b left fits other same leftBytes rightBytes

end Io

end Ducklake
