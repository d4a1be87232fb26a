import Mathlib.Data.Rat.Defs
import Ducklake.Error

/-!
# Values

`Value` of `typedefs/value/mod.rs` and its partial order.  The non-nested variants are
grouped in `Scalar`.
-/

set_option autoImplicit false

namespace Ducklake

/-- A floating-point number: the two zeros are one value. -/
inductive FloatValue where
  | nan
  | negativeInfinity
  | finite (value : Rat)
  | positiveInfinity
  deriving DecidableEq, Repr

def FloatValue.partialCmp : FloatValue → FloatValue → Option Ordering
  | nan, _ => none
  | _, nan => none
  | negativeInfinity, negativeInfinity => some .eq
  | negativeInfinity, _ => some .lt
  | _, negativeInfinity => some .gt
  | finite a, finite b => some (if a < b then .lt else if a = b then .eq else .gt)
  | finite _, positiveInfinity => some .lt
  | positiveInfinity, finite _ => some .gt
  | positiveInfinity, positiveInfinity => some .eq

/-- The non-nested values.  Times are counted in nanoseconds, dates in days. -/
inductive Scalar where
  | boolean (value : Bool)
  | int8 (value : Int)
  | int16 (value : Int)
  | int32 (value : Int)
  | int64 (value : Int)
  | int128 (value : Int)
  | uint8 (value : Nat)
  | uint16 (value : Nat)
  | uint32 (value : Nat)
  | uint64 (value : Nat)
  | uint128 (value : Nat)
  | float32 (value : FloatValue)
  | float64 (value : FloatValue)
  | decimal (value : Rat)
  | time (nanoseconds : Nat)
  | timeTz (nanoseconds : Nat) (offset : Int)
  | date (days : Int)
  | timestamp (nanoseconds : Int)
  | timestampTz (nanoseconds : Int)
  | interval (months : Nat) (delta : Int)
  | varchar (text : Text)
  | blob (bytes : List UInt8)
  | json (text : Text)
  | uuid (value : Nat)
  deriving DecidableEq, Repr

/-- Lexicographic comparison of sequences; texts compare by their code points. -/
def compareSequences {α : Type} (compareItems : α → α → Ordering) : List α → List α → Ordering
  | [], [] => .eq
  | [], _ :: _ => .lt
  | _ :: _, [] => .gt
  | a :: as, b :: bs =>
      match compareItems a b with
      | .eq => compareSequences compareItems as bs
      | unequal => unequal

def compareText (a b : Text) : Ordering :=
  compareSequences (fun c d => compare c.toNat d.toNat) a b

def Scalar.partialCmp : Scalar → Scalar → Option Ordering
  | boolean a, boolean b => some (compare a.toNat b.toNat)
  | int8 a, int8 b => some (compare a b)
  | int16 a, int16 b => some (compare a b)
  | int32 a, int32 b => some (compare a b)
  | int64 a, int64 b => some (compare a b)
  | int128 a, int128 b => some (compare a b)
  | uint8 a, uint8 b => some (compare a b)
  | uint16 a, uint16 b => some (compare a b)
  | uint32 a, uint32 b => some (compare a b)
  | uint64 a, uint64 b => some (compare a b)
  | uint128 a, uint128 b => some (compare a b)
  | float32 a, float32 b => a.partialCmp b
  | float64 a, float64 b => a.partialCmp b
  | decimal a, decimal b => some (if a < b then .lt else if a = b then .eq else .gt)
  | time a, time b => some (compare a b)
  | timeTz a _, timeTz b _ => some (compare a b)
  | date a, date b => some (compare a b)
  | timestamp a, timestamp b => some (compare a b)
  | timestampTz a, timestampTz b => some (compare a b)
  | varchar a, varchar b => some (compareText a b)
  | blob a, blob b => some (compareSequences (fun c d => compare c.toNat d.toNat) a b)
  | json a, json b => some (compareText a b)
  | uuid a, uuid b => some (compare a b)
  -- Intervals cannot be compared, and neither can different variants.
  | _, _ => none

inductive Value where
  | scalar (value : Scalar)
  | list (items : List (Option Value))
  | struct (fields : List (Text × Option Value))
  | map (entries : List (Value × Option Value))

namespace Value

mutual

def partialCmp : Value → Value → Option Ordering
  | scalar a, scalar b => a.partialCmp b
  | list a, list b => partialCmpItems a b
  | struct a, struct b => partialCmpFields a b
  | map a, map b => partialCmpEntries a b
  | _, _ => none

def partialCmpOption : Option Value → Option Value → Option Ordering
  | none, none => some .eq
  | none, some _ => some .lt
  | some _, none => some .gt
  | some a, some b => partialCmp a b

def partialCmpItems : List (Option Value) → List (Option Value) → Option Ordering
  | [], [] => some .eq
  | [], _ :: _ => some .lt
  | _ :: _, [] => some .gt
  | a :: as, b :: bs =>
      match partialCmpOption a b with
      | some .eq => partialCmpItems as bs
      | unequal => unequal

/-- Structs compare by their entries in iteration order, then by their lengths. -/
def partialCmpFields : List (Text × Option Value) → List (Text × Option Value) → Option Ordering
  | [], [] => some .eq
  | [], _ :: _ => some .lt
  | _ :: _, [] => some .gt
  | (key, a) :: as, (other, b) :: bs =>
      match compareText key other with
      | .eq =>
          match partialCmpOption a b with
          | some .eq => partialCmpFields as bs
          | unequal => unequal
      | unequal => some unequal

def partialCmpEntries : List (Value × Option Value) → List (Value × Option Value) → Option Ordering
  | [], [] => some .eq
  | [], _ :: _ => some .lt
  | _ :: _, [] => some .gt
  | (key, a) :: as, (other, b) :: bs =>
      match partialCmp key other with
      | some .eq =>
          match partialCmpOption a b with
          | some .eq => partialCmpEntries as bs
          | unequal => unequal
      | unequal => unequal

end

mutual

def decEq : (a b : Value) → Decidable (a = b)
  | scalar a, scalar b => decidable_of_iff (a = b) (by simp)
  | list a, list b => @decidable_of_iff _ (a = b) (by simp) (decEqItems a b)
  | struct a, struct b => @decidable_of_iff _ (a = b) (by simp) (decEqFields a b)
  | map a, map b => @decidable_of_iff _ (a = b) (by simp) (decEqEntries a b)
  | scalar _, list _ => isFalse (by simp)
  | scalar _, struct _ => isFalse (by simp)
  | scalar _, map _ => isFalse (by simp)
  | list _, scalar _ => isFalse (by simp)
  | list _, struct _ => isFalse (by simp)
  | list _, map _ => isFalse (by simp)
  | struct _, scalar _ => isFalse (by simp)
  | struct _, list _ => isFalse (by simp)
  | struct _, map _ => isFalse (by simp)
  | map _, scalar _ => isFalse (by simp)
  | map _, list _ => isFalse (by simp)
  | map _, struct _ => isFalse (by simp)

def decEqOption : (a b : Option Value) → Decidable (a = b)
  | none, none => isTrue rfl
  | none, some _ => isFalse (by simp)
  | some _, none => isFalse (by simp)
  | some a, some b => @decidable_of_iff _ (a = b) (by simp) (decEq a b)

def decEqItems : (a b : List (Option Value)) → Decidable (a = b)
  | [], [] => isTrue rfl
  | [], _ :: _ => isFalse (by simp)
  | _ :: _, [] => isFalse (by simp)
  | a :: as, b :: bs =>
      @decidable_of_iff _ (a = b ∧ as = bs) (by simp)
        (@instDecidableAnd _ _ (decEqOption a b) (decEqItems as bs))

def decEqFields : (a b : List (Text × Option Value)) → Decidable (a = b)
  | [], [] => isTrue rfl
  | [], _ :: _ => isFalse (by simp)
  | _ :: _, [] => isFalse (by simp)
  | (key, a) :: as, (other, b) :: bs =>
      @decidable_of_iff _ ((key = other ∧ a = b) ∧ as = bs) (by simp)
        (@instDecidableAnd _ _ (@instDecidableAnd _ _ inferInstance (decEqOption a b))
          (decEqFields as bs))

def decEqEntries : (a b : List (Value × Option Value)) → Decidable (a = b)
  | [], [] => isTrue rfl
  | [], _ :: _ => isFalse (by simp)
  | _ :: _, [] => isFalse (by simp)
  | (key, a) :: as, (other, b) :: bs =>
      @decidable_of_iff _ ((key = other ∧ a = b) ∧ as = bs) (by simp)
        (@instDecidableAnd _ _ (@instDecidableAnd _ _ (decEq key other) (decEqOption a b))
          (decEqEntries as bs))

end

instance : DecidableEq Value := decEq

end Value

end Ducklake
