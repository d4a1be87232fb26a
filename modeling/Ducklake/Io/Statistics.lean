import Mathlib.Algebra.GroupWithZero.Nat
import Ducklake.Typedefs.Data

/-!
# Statistics of a record batch

`compute_record_batch_statistics` of `io/arrow/statistics.rs` and the smallest and largest
value of an array, found by the order of its physical values.
-/

set_option autoImplicit false

namespace Ducklake.Io

open Lib

/-! ## The order of physical values -/

def littleEndianBytes (value : Nat) : Nat → List Nat
  | 0 => []
  | width + 1 => value % 256 :: littleEndianBytes (value / 256) width

def twosComplement (value : Int) (width : Nat) : Nat :=
  (value % (Nat.pow 256 width : Int)).toNat

/-- Fixed-size binary arrays hold these bytes and are compared byte by byte. -/
def fixedSizeBytes : Scalar → Option (List Nat)
  | .int128 value => some (littleEndianBytes (twosComplement value 16) 16)
  | .uint128 value => some (littleEndianBytes value 16)
  | .timeTz nanoseconds offset =>
      some (littleEndianBytes (nanoseconds / 1000) 5 ++
        littleEndianBytes (twosComplement offset 3) 3)
  | _ => none

/-- Months, whole days and the rest of the delta of an interval. -/
def intervalParts (months : Nat) (delta : Int) : List Int :=
  [months, delta.tdiv 86400000000000, delta.tmod 86400000000000]

def floatLess (a b : FloatValue) : Bool :=
  match a, b with
  | .nan, _ => false
  | _, .nan => true
  | _, _ => a.partialCmp b == some .lt

/-- Whether a value stands before another one in the order that arrays are aggregated by. -/
def physicalLess (a b : Scalar) : Bool :=
  match fixedSizeBytes a, fixedSizeBytes b with
  | some left, some right => compareSequences compare left right == .lt
  | _, _ =>
      match a, b with
      | .float32 left, .float32 right => floatLess left right
      | .float64 left, .float64 right => floatLess left right
      | .interval months delta, .interval months' delta' =>
          compareSequences compare (intervalParts months delta) (intervalParts months' delta') == .lt
      | _, _ => a.partialCmp b == some .lt

def leastBy (less : Scalar → Scalar → Bool) : List Scalar → Option Scalar
  | [] => none
  | value :: rest =>
      match leastBy less rest with
      | none => some value
      | some least => if less least value then some least else some value

/-- Texts of a JSON column are aggregated as strings. -/
def aggregated (type : PrimitiveType) (value : Scalar) : Option Value :=
  match type, value with
  | .variant, _ | .geometry, _ => none
  | .json, .json text => some (.scalar (.varchar text))
  | _, _ => some (.scalar value)

def findMin (type : PrimitiveType) (values : List (Option Scalar)) : Option Value :=
  (leastBy physicalLess (values.filterMap id)).bind (aggregated type)

def findMax (type : PrimitiveType) (values : List (Option Scalar)) : Option Value :=
  (leastBy (fun a b => physicalLess b a) (values.filterMap id)).bind (aggregated type)

/-! ## Statistics of arrays -/

mutual

/-- Nested types have no statistics of their own; their leaves have.  An array is always of the
type of its column.  The part that a list covers is taken from its child; the children of a map are
taken whole. -/
def computeArrayStatistics (result : IndexMap Int ArrayColumnStats) (array : ArrowArray) :
    Column → IndexMap Int ArrayColumnStats
  | .mk _ dtype _ _ _ _ fieldId => computeTypeStatistics result array fieldId dtype

def computeTypeStatistics (result : IndexMap Int ArrayColumnStats) (array : ArrowArray)
    (fieldId : Option Int) : DataType → IndexMap Int ArrayColumnStats
  | .primitive type =>
      match fieldId, array with
      | some id, .leaf _ values => result.insert id {
          minValue := findMin type values
          maxValue := findMax type values
          nullCount := some (values.count none)
          containsNan := none }
      | _, _ => result
  | .list inner =>
      match array with
      | .list _ start lengths values =>
          computeArrayStatistics result (values.slice start lengths.sum) inner
      | _ => result
  | .struct columns =>
      match array with
      | .struct _ fields => computeFieldStatistics result (fields.map Prod.snd) columns
      | _ => result
  | .map key value =>
      match array with
      | .map _ _ _ keys values =>
          computeArrayStatistics (computeArrayStatistics result keys key) values value
      | _ => result

def computeFieldStatistics (result : IndexMap Int ArrayColumnStats) (arrays : List ArrowArray) :
    List Column → IndexMap Int ArrayColumnStats
  | [] => result
  | column :: rest =>
      match arrays with
      | [] => result
      | array :: arrays =>
          computeFieldStatistics (computeArrayStatistics result array column) arrays rest

end

def computeRecordBatchStatistics (schema : Schema) (batch : RecordBatch) :
    IndexMap Int ArrayColumnStats :=
  batch.columns.foldl (fun result field =>
    match schema.columns.get? field.1 with
    | some column => computeArrayStatistics result field.2 column
    | none => result) .empty

end Ducklake.Io
