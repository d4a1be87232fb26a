import Mathlib.Algebra.GroupWithZero.Nat
import Ducklake.Typedefs.Schema

/-!
# Record batches

The Arrow arrays and record batches that an inline write receives.  An array of a nested type
keeps the child arrays as Arrow lays them out, also below a null parent and outside the part that a
sliced list or map covers.
-/

set_option autoImplicit false

namespace Ducklake.Io

inductive ArrowArray where
  /-- An array of the type `Null`. -/
  | null (length : Nat)
  | leaf (type : PrimitiveType) (values : List (Option Scalar))
  /-- The lengths of the lists, null lists included.  From `start` on, they cover the child array
  one after the other. -/
  | list (validity : List Bool) (start : Nat) (lengths : List Nat) (values : ArrowArray)
  | struct (validity : List Bool) (fields : List (Text × ArrowArray))
  | map (validity : List Bool) (start : Nat) (lengths : List Nat) (keys values : ArrowArray)

namespace ArrowArray

def length : ArrowArray → Nat
  | null length => length
  | leaf _ values => values.length
  | list validity _ _ _ => validity.length
  | struct validity _ => validity.length
  | map validity _ _ _ _ => validity.length

def validity : ArrowArray → List Bool
  | null length => List.replicate length false
  | leaf _ values => values.map Option.isSome
  | list validity _ _ _ => validity
  | struct validity _ => validity
  | map validity _ _ _ _ => validity

def nullCount (array : ArrowArray) : Nat :=
  array.validity.count false

mutual

/-- Some entries of an array.  The children of lists and maps stay whole. -/
def slice (offset length : Nat) : ArrowArray → ArrowArray
  | null total => .null (min length (total - offset))
  | leaf type values => .leaf type ((values.drop offset).take length)
  | list validity start lengths values =>
      .list ((validity.drop offset).take length) (start + (lengths.take offset).sum)
        ((lengths.drop offset).take length) values
  | struct validity fields =>
      .struct ((validity.drop offset).take length) (sliceFields offset length fields)
  | map validity start lengths keys values =>
      .map ((validity.drop offset).take length) (start + (lengths.take offset).sum)
        ((lengths.drop offset).take length) keys values

def sliceFields (offset length : Nat) : List (Text × ArrowArray) → List (Text × ArrowArray)
  | [] => []
  | (name, array) :: rest => (name, array.slice offset length) :: sliceFields offset length rest

end

mutual

def decEq : (a b : ArrowArray) → Decidable (a = b)
  | null a, null b => decidable_of_iff (a = b) (by simp)
  | leaf type values, leaf type' values' =>
      decidable_of_iff (type = type' ∧ values = values') (by simp)
  | list validity start lengths values, list validity' start' lengths' values' =>
      @decidable_of_iff _ (values = values' ∧ validity = validity' ∧ start = start' ∧
          lengths = lengths')
        (by simp; tauto) (@instDecidableAnd _ _ (decEq values values') inferInstance)
  | struct validity fields, struct validity' fields' =>
      @decidable_of_iff _ (fields = fields' ∧ validity = validity')
        (by simp; tauto) (@instDecidableAnd _ _ (decEqFields fields fields') inferInstance)
  | map validity start lengths keys values, map validity' start' lengths' keys' values' =>
      @decidable_of_iff _ ((keys = keys' ∧ values = values') ∧ validity = validity' ∧
          start = start' ∧ lengths = lengths')
        (by simp; tauto) (@instDecidableAnd _ _
          (@instDecidableAnd _ _ (decEq keys keys') (decEq values values')) inferInstance)
  | null _, leaf _ _ => isFalse (by simp)
  | null _, list _ _ _ _ => isFalse (by simp)
  | null _, struct _ _ => isFalse (by simp)
  | null _, map _ _ _ _ _ => isFalse (by simp)
  | leaf _ _, null _ => isFalse (by simp)
  | leaf _ _, list _ _ _ _ => isFalse (by simp)
  | leaf _ _, struct _ _ => isFalse (by simp)
  | leaf _ _, map _ _ _ _ _ => isFalse (by simp)
  | list _ _ _ _, null _ => isFalse (by simp)
  | list _ _ _ _, leaf _ _ => isFalse (by simp)
  | list _ _ _ _, struct _ _ => isFalse (by simp)
  | list _ _ _ _, map _ _ _ _ _ => isFalse (by simp)
  | struct _ _, null _ => isFalse (by simp)
  | struct _ _, leaf _ _ => isFalse (by simp)
  | struct _ _, list _ _ _ _ => isFalse (by simp)
  | struct _ _, map _ _ _ _ _ => isFalse (by simp)
  | map _ _ _ _ _, null _ => isFalse (by simp)
  | map _ _ _ _ _, leaf _ _ => isFalse (by simp)
  | map _ _ _ _ _, list _ _ _ _ => isFalse (by simp)
  | map _ _ _ _ _, struct _ _ => isFalse (by simp)

def decEqFields : (a b : List (Text × ArrowArray)) → Decidable (a = b)
  | [], [] => isTrue rfl
  | [], _ :: _ => isFalse (by simp)
  | _ :: _, [] => isFalse (by simp)
  | (name, a) :: as, (name', b) :: bs =>
      @decidable_of_iff _ ((a = b ∧ as = bs) ∧ name = name') (by simp; tauto)
        (@instDecidableAnd _ _ (@instDecidableAnd _ _ (decEq a b) (decEqFields as bs))
          inferInstance)

end

instance : DecidableEq ArrowArray := decEq

end ArrowArray

structure RecordBatch where
  numRows : Nat
  columns : List (Text × ArrowArray)
  deriving DecidableEq

end Ducklake.Io
