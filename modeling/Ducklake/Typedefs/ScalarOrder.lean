import Mathlib.Algebra.Order.Ring.Rat
import Ducklake.Lib.PartialOrders
import Ducklake.Typedefs.Value

/-!
# The order of scalars

Two scalars compare by their variant first, which has to be the same, and then by a key of one of a
few ordered types.
-/

set_option autoImplicit false

namespace Ducklake

open Lib

/-! ## Sequences, floats and decimals -/

theorem compareSequences_eq {α : Type} (compareItems : α → α → Ordering) (a b : List α) :
    compareSequences compareItems a b = List.compareLex compareItems a b := by
  induction a generalizing b with
  | nil => cases b <;> rfl
  | cons x xs ih =>
      cases b with
      | nil => rfl
      | cons y ys =>
          rw [compareSequences, List.compareLex_cons_cons, ih]
          cases compareItems x y <;> rfl

theorem transCmp_on {α : Type} (number : α → Nat) :
    Std.TransCmp fun a b : α => compare (number a) (number b) where
  eq_swap := Std.OrientedCmp.eq_swap
  isLE_trans := Std.TransCmp.isLE_trans

theorem compareSequences_lawful {α : Type} (number : α → Nat) :
    LawfulPartialCmp fun a b : List α =>
      some (compareSequences (fun c d => compare (number c) (number d)) a b) := by
  have := transCmp_on number
  simp only [compareSequences_eq]
  exact lawfulPartialCmp_of_transCmp _

theorem transCmp_compareText : Std.TransCmp compareText := by
  have lawful := transCmp_on Char.toNat
  have same : compareText = List.compareLex fun c d => compare c.toNat d.toNat := by
    funext a b
    exact compareSequences_eq _ a b
  rw [same]
  infer_instance

theorem compareSequences_eq_eq {α : Type} (number : α → Nat) (injective : number.Injective)
    (a b : List α) :
    compareSequences (fun c d => compare (number c) (number d)) a b = .eq ↔ a = b := by
  have : Std.LawfulEqCmp fun c d : α => compare (number c) (number d) := {
    compare_self := Std.ReflCmp.compare_self
    eq_of_compare := fun same => injective (Std.LawfulEqCmp.eq_of_compare same) }
  rw [compareSequences_eq]
  exact Std.LawfulEqCmp.compare_eq_iff_eq

def compareRat (a b : ℚ) : Ordering :=
  if a < b then .lt else if a = b then .eq else .gt

theorem compareRat_eq (a b : ℚ) : compareRat a b = compare a b :=
  (LinearOrder.compare_eq_compareOfLessAndEq a b).symm

theorem compareRat_lawful : LawfulPartialCmp fun a b => some (compareRat a b) := by
  simp only [compareRat_eq]
  exact lawfulPartialCmp_of_transCmp _

theorem compareRat_eq_eq (a b : ℚ) : compareRat a b = .eq ↔ a = b := by
  rw [compareRat_eq]
  exact compare_eq_iff_eq

namespace FloatValue

/-- Negative infinity, the finite numbers, positive infinity. -/
def part : FloatValue → Nat
  | negativeInfinity => 0
  | nan | finite _ => 1
  | positiveInfinity => 2

def size : FloatValue → ℚ
  | finite value => value
  | nan | negativeInfinity | positiveInfinity => 0

@[simp] theorem partialCmp_nan_right (a : FloatValue) : a.partialCmp nan = none := by
  cases a <;> rfl

@[simp] theorem nan_partialCmp (b : FloatValue) : nan.partialCmp b = none := rfl

theorem partialCmp_eq (a b : FloatValue) (number : a ≠ nan) (other : b ≠ nan) :
    a.partialCmp b = lexicographic (some (compare a.part b.part))
      (some (compareRat a.size b.size)) := by
  cases a with
  | nan => exact absurd rfl number
  | negativeInfinity | finite | positiveInfinity =>
      cases b with
      | nan => exact absurd rfl other
      | negativeInfinity | finite | positiveInfinity => rfl

theorem partialCmp_lawful : LawfulPartialCmp partialCmp := by
  intro a
  constructor
  · intro b
    by_cases number : a = nan
    · simp [number]
    by_cases other : b = nan
    · simp [other]
    rw [partialCmp_eq a b number other, partialCmp_eq b a other number, ← lexicographic_swap,
      (compareRat_lawful a.size).swap b.size]
    exact congrArg (lexicographic · _) (congrArg some Std.OrientedCmp.eq_swap)
  · intro b c
    by_cases first : a = nan
    · rw [first]
      exact composes_of_none_left _ _
    by_cases second : b = nan
    · rw [second, partialCmp_nan_right]
      exact composes_of_none_left _ _
    by_cases third : c = nan
    · rw [third, partialCmp_nan_right]
      exact composes_of_none_right _ _
    rw [partialCmp_eq a b first second, partialCmp_eq b c second third,
      partialCmp_eq a c first third]
    exact ((lawfulPartialCmp_of_transCmp compare a.part).trans b.part c.part).lexicographic
      ((compareRat_lawful a.size).trans b.size c.size)

theorem partialCmp_eq_some_eq (a b : FloatValue) :
    a.partialCmp b = some .eq ↔ a = b ∧ a ≠ nan := by
  by_cases first : a = nan
  · simp [first]
  by_cases second : b = nan
  · simp [second]
  rw [partialCmp_eq a b first second, lexicographic_eq_some_eq, Option.some.injEq,
    Option.some.injEq, compareRat_eq_eq, Std.LawfulEqCmp.compare_eq_iff_eq]
  cases a <;> cases b <;> simp_all [part, size]

end FloatValue

/-! ## Keys -/

inductive ScalarKey where
  | integer (value : Int)
  | natural (value : Nat)
  | float (value : FloatValue)
  | decimal (value : ℚ)
  | text (text : Text)
  | bytes (bytes : List UInt8)
  | incomparable

def ScalarKey.partialCmp : ScalarKey → ScalarKey → Option Ordering
  | integer a, integer b => some (compare a b)
  | natural a, natural b => some (compare a b)
  | float a, float b => a.partialCmp b
  | decimal a, decimal b => some (compareRat a b)
  | text a, text b => some (compareText a b)
  | bytes a, bytes b => some (compareSequences (fun c d => compare c.toNat d.toNat) a b)
  | _, _ => none

namespace ScalarKey

theorem partialCmp_lawful : LawfulPartialCmp partialCmp := by
  intro a
  constructor
  · intro b
    cases a <;> cases b
    case integer.integer a b => exact (lawfulPartialCmp_of_transCmp compare a).swap b
    case natural.natural a b => exact (lawfulPartialCmp_of_transCmp compare a).swap b
    case float.float a b => exact (FloatValue.partialCmp_lawful a).swap b
    case decimal.decimal a b => exact (compareRat_lawful a).swap b
    case text.text a b => exact (compareSequences_lawful Char.toNat a).swap b
    case bytes.bytes a b => exact (compareSequences_lawful UInt8.toNat a).swap b
    all_goals rfl
  · intro b c
    cases a <;> cases b
    case integer.integer a b =>
      cases c
      case integer c => exact (lawfulPartialCmp_of_transCmp compare a).trans b c
      all_goals exact composes_of_none_right _ _
    case natural.natural a b =>
      cases c
      case natural c => exact (lawfulPartialCmp_of_transCmp compare a).trans b c
      all_goals exact composes_of_none_right _ _
    case float.float a b =>
      cases c
      case float c => exact (FloatValue.partialCmp_lawful a).trans b c
      all_goals exact composes_of_none_right _ _
    case decimal.decimal a b =>
      cases c
      case decimal c => exact (compareRat_lawful a).trans b c
      all_goals exact composes_of_none_right _ _
    case text.text a b =>
      cases c
      case text c => exact (compareSequences_lawful Char.toNat a).trans b c
      all_goals exact composes_of_none_right _ _
    case bytes.bytes a b =>
      cases c
      case bytes c => exact (compareSequences_lawful UInt8.toNat a).trans b c
      all_goals exact composes_of_none_right _ _
    all_goals exact composes_of_none_left _ _

def isReflexive : ScalarKey → Bool
  | float value => value != .nan
  | incomparable => false
  | _ => true

theorem partialCmp_eq_some_eq (a b : ScalarKey) :
    a.partialCmp b = some .eq ↔ a = b ∧ a.isReflexive = true := by
  cases a <;> cases b <;> simp [partialCmp, isReflexive]
  case float.float a b => exact FloatValue.partialCmp_eq_some_eq a b
  case decimal.decimal a b => exact compareRat_eq_eq a b
  case text.text a b =>
    exact compareSequences_eq_eq Char.toNat (fun c d same => Char.toNat_inj.mp same) a b
  case bytes.bytes a b =>
    exact compareSequences_eq_eq UInt8.toNat (fun c d same => UInt8.toNat_inj.mp same) a b

end ScalarKey

namespace Scalar

def variant : Scalar → Nat
  | boolean _ => 0
  | int8 _ => 1
  | int16 _ => 2
  | int32 _ => 3
  | int64 _ => 4
  | int128 _ => 5
  | uint8 _ => 6
  | uint16 _ => 7
  | uint32 _ => 8
  | uint64 _ => 9
  | uint128 _ => 10
  | float32 _ => 11
  | float64 _ => 12
  | decimal _ => 13
  | time _ => 14
  | timeTz _ _ => 15
  | date _ => 16
  | timestamp _ => 17
  | timestampTz _ => 18
  | interval _ _ => 19
  | varchar _ => 20
  | blob _ => 21
  | json _ => 22
  | uuid _ => 23

def key : Scalar → ScalarKey
  | boolean value => .natural value.toNat
  | int8 value | int16 value | int32 value | int64 value | int128 value | date value
  | timestamp value | timestampTz value => .integer value
  | uint8 value | uint16 value | uint32 value | uint64 value | uint128 value | time value
  | timeTz value _ | uuid value => .natural value
  | float32 value | float64 value => .float value
  | decimal value => .decimal value
  | interval _ _ => .incomparable
  | varchar text | json text => .text text
  | blob bytes => .bytes bytes

theorem partialCmp_eq (a b : Scalar) :
    a.partialCmp b = if a.variant = b.variant then a.key.partialCmp b.key else none := by
  cases a <;> cases b <;> rfl

theorem partialCmp_lawful : LawfulPartialCmp partialCmp := by
  intro a
  constructor
  · intro b
    rw [partialCmp_eq a b, partialCmp_eq b a]
    by_cases same : a.variant = b.variant
    · rw [if_pos same, if_pos same.symm, (ScalarKey.partialCmp_lawful a.key).swap]
    · rw [if_neg same, if_neg (Ne.symm same)]
      rfl
  · intro b c
    rw [partialCmp_eq a b, partialCmp_eq b c, partialCmp_eq a c]
    by_cases left : a.variant = b.variant
    · by_cases right : b.variant = c.variant
      · rw [if_pos left, if_pos right, if_pos (left.trans right)]
        exact (ScalarKey.partialCmp_lawful _).trans _ _
      · rw [if_neg right]
        exact composes_of_none_right _ _
    · rw [if_neg left]
      exact composes_of_none_left _ _

/-- `==`, where no NaN equals itself. -/
def beq : Scalar → Scalar → Bool
  | float32 a, float32 b | float64 a, float64 b => a != .nan && a == b
  | a, b => a == b

def isInterval : Scalar → Bool
  | interval _ _ => true
  | _ => false

def isTimeTz : Scalar → Bool
  | timeTz _ _ => true
  | _ => false

/-- Scalars other than times with a time zone are told apart by their keys. -/
theorem eq_of_key (a b : Scalar) (variant : a.variant = b.variant) (key : a.key = b.key)
    (zoneless : a.isTimeTz = false) (comparable : a.isInterval = false) : a = b := by
  cases a <;> cases b <;> simp_all [Scalar.variant, Scalar.key, isTimeTz, isInterval]
  case boolean.boolean a b => cases a <;> cases b <;> simp_all

theorem beq_iff (a b : Scalar) (comparable : a.isInterval = false) :
    a.beq b = true ↔ a = b ∧ a.key.isReflexive = true := by
  cases a with
  | float32 value | float64 value => cases b <;> simp [beq, key, ScalarKey.isReflexive, and_comm]
  | interval => cases comparable
  | _ => simp [beq, key, ScalarKey.isReflexive]

theorem partialCmp_of_beq (a b : Scalar) (same : a.beq b = true)
    (comparable : a.isInterval = false) : a.partialCmp b = some .eq := by
  obtain ⟨rfl, reflexive⟩ := (beq_iff a b comparable).mp same
  rw [partialCmp_eq, if_pos rfl]
  exact (ScalarKey.partialCmp_eq_some_eq _ _).mpr ⟨rfl, reflexive⟩

theorem beq_of_partialCmp (a b : Scalar) (zoneless : a.isTimeTz = false)
    (equal : a.partialCmp b = some .eq) : a.beq b = true ∧ a.isInterval = false := by
  rw [partialCmp_eq] at equal
  split at equal
  · rename_i variant
    obtain ⟨key, reflexive⟩ := (ScalarKey.partialCmp_eq_some_eq _ _).mp equal
    have comparable : a.isInterval = false := by
      cases a with
      | interval => cases reflexive
      | _ => rfl
    exact ⟨(beq_iff a b comparable).mpr
      ⟨eq_of_key a b variant key zoneless comparable, reflexive⟩, comparable⟩
  · cases equal

end Scalar

end Ducklake
