import Ducklake.Lib.IndexMap
import Ducklake.Typedefs.Value

/-!
# Columns and data types

`Column`, `ColumnDefault`, `DataType` and `Schema` of `typedefs/schema`, and the flattening of
a column tree.  The non-nested data types are grouped in `PrimitiveType`.
-/

set_option autoImplicit false

namespace Ducklake

open Lib Utils

abbrev Tags := IndexMap Text Text

structure Tag where
  key : Text
  value : Text
  deriving DecidableEq, Repr

inductive TimestampPrecision where
  | seconds
  | milliseconds
  | microseconds
  | nanoseconds
  deriving DecidableEq, Repr

inductive PrimitiveType where
  | boolean
  | int8
  | int16
  | int32
  | int64
  | int128
  | uint8
  | uint16
  | uint32
  | uint64
  | uint128
  | float32
  | float64
  | decimal (precision scale : Nat)
  | time
  | timeTz
  | date
  | timestamp (precision : TimestampPrecision)
  | timestampTz
  | interval
  | varchar
  | blob
  | json
  | variant
  | geometry
  | uuid
  deriving DecidableEq, Repr

inductive ColumnDefault where
  | literal (value : Option Value)
  | expression (dialect expression : Text)
  deriving DecidableEq

mutual

inductive DataType where
  | primitive (type : PrimitiveType)
  | list (inner : Column)
  | struct (fields : List Column)
  | map (key value : Column)

inductive Column where
  | mk (name : Text) (dtype : DataType) (nullable : Bool) (tags : Tags)
      (initialDefault : Option Value) (defaultValue : ColumnDefault) (fieldId : Option Int)

end

namespace Column

def name : Column → Text
  | mk name .. => name

def dtype : Column → DataType
  | mk _ dtype .. => dtype

def nullable : Column → Bool
  | mk _ _ nullable .. => nullable

def tags : Column → Tags
  | mk _ _ _ tags .. => tags

/-- The value read from data files written before the column was added. -/
def initialDefault : Column → Option Value
  | mk _ _ _ _ initialDefault _ _ => initialDefault

/-- The value of the column in new rows that do not specify one. -/
def defaultValue : Column → ColumnDefault
  | mk _ _ _ _ _ defaultValue _ => defaultValue

def fieldId : Column → Option Int
  | mk _ _ _ _ _ _ fieldId => fieldId

end Column

namespace PrimitiveType

/-- Whether this type can be widened to the target type during schema evolution. -/
def canPromoteTo : PrimitiveType → PrimitiveType → Bool
  | int8, int16 | int8, int32 | int8, int64 => true
  | int16, int32 | int16, int64 => true
  | int32, int64 => true
  | uint8, uint16 | uint8, uint32 | uint8, uint64 => true
  | uint16, uint32 | uint16, uint64 => true
  | uint32, uint64 => true
  | float32, float64 => true
  | _, _ => false

def display : PrimitiveType → Text
  | boolean => "boolean".toList
  | int8 => "int8".toList
  | int16 => "int16".toList
  | int32 => "int32".toList
  | int64 => "int64".toList
  | int128 => "int128".toList
  | uint8 => "uint8".toList
  | uint16 => "uint16".toList
  | uint32 => "uint32".toList
  | uint64 => "uint64".toList
  | uint128 => "uint128".toList
  | float32 => "float32".toList
  | float64 => "float64".toList
  | decimal precision scale =>
      "decimal(".toList ++ Nat.toDigits 10 precision ++ ", ".toList ++ Nat.toDigits 10 scale ++
        ")".toList
  | time => "time".toList
  | timeTz => "timetz".toList
  | date => "date".toList
  | timestamp .seconds => "timestamp_s".toList
  | timestamp .milliseconds => "timestamp_ms".toList
  | timestamp .microseconds => "timestamp".toList
  | timestamp .nanoseconds => "timestamp_ns".toList
  | timestampTz => "timestamptz".toList
  | interval => "interval".toList
  | varchar => "varchar".toList
  | blob => "blob".toList
  | json => "json".toList
  | variant => "variant".toList
  | geometry => "geometry".toList
  | uuid => "uuid".toList

def named : List PrimitiveType :=
  [boolean, int8, int16, int32, int64, int128, uint8, uint16, uint32, uint64, uint128, float32,
    float64, time, timeTz, date, timestamp .seconds, timestamp .milliseconds,
    timestamp .microseconds, timestamp .nanoseconds, timestampTz, interval, varchar, blob, json,
    variant, geometry, uuid]

/-- `\s` in a regular expression. -/
def isRegexSpace (c : Char) : Bool :=
  c.toNat ∈ [9, 10, 11, 12, 13, 32, 0x85, 0xA0, 0x1680, 0x2028, 0x2029, 0x202F, 0x205F, 0x3000] ||
    (0x2000 ≤ c.toNat && c.toNat ≤ 0x200A)

/-- `^decimal\((\d+),\s*(\d+)\)$` with both numbers below 256. -/
def parseDecimal (s : Text) : Option PrimitiveType :=
  match s.dropPrefix? "decimal(".toList with
  | none => none
  | some rest =>
      let precision := rest.takeWhile Char.isDigit
      match rest.dropWhile Char.isDigit with
      | ',' :: rest =>
          let rest := rest.dropWhile isRegexSpace
          let scale := rest.takeWhile Char.isDigit
          let numbers := (Nat.ofDigitChars 10 precision 0, Nat.ofDigitChars 10 scale 0)
          if rest.dropWhile Char.isDigit = [')'] ∧ precision ≠ [] ∧ scale ≠ [] ∧
              numbers.1 < 256 ∧ numbers.2 < 256 then
            some (decimal numbers.1 numbers.2)
          else none
      | _ => none

/-- `parse_primitive` -/
def parse (s : Text) : DucklakeResult PrimitiveType :=
  match named.find? fun type => type.display = s with
  | some type => .ok type
  | none =>
      match parseDecimal s with
      | some type => .ok type
      | none => .error (.invalidDataType s)

end PrimitiveType

namespace DataType

def canPromoteTo : DataType → DataType → Bool
  | primitive source, primitive target => source.canPromoteTo target
  | _, _ => false

/-- Whether the data type is a nested type (i.e. list, struct, or map). -/
def isNested : DataType → Bool
  | primitive _ => false
  | _ => true

def display : DataType → Text
  | primitive type => type.display
  | list _ => "list".toList
  | struct _ => "struct".toList
  | map _ _ => "map".toList

mutual

/-- Whether this type can be encoded in an inline data table by the SDK. -/
def supportsDataInlining : DataType → Bool
  | primitive .variant => false
  | primitive .geometry => false
  | primitive _ => true
  | list inner => columnSupportsDataInlining inner
  | struct fields => fieldsSupportDataInlining fields
  | map key value => columnSupportsDataInlining key && columnSupportsDataInlining value

def columnSupportsDataInlining : Column → Bool
  | .mk _ dtype .. => supportsDataInlining dtype

def fieldsSupportDataInlining : List Column → Bool
  | [] => true
  | field :: rest => columnSupportsDataInlining field && fieldsSupportDataInlining rest

end

mutual

def decEq : (a b : DataType) → Decidable (a = b)
  | primitive a, primitive b => decidable_of_iff (a = b) (by simp)
  | list a, list b => @decidable_of_iff _ (a = b) (by simp) (decEqColumn a b)
  | struct a, struct b => @decidable_of_iff _ (a = b) (by simp) (decEqFields a b)
  | map key value, map key' value' =>
      @decidable_of_iff _ (key = key' ∧ value = value') (by simp)
        (@instDecidableAnd _ _ (decEqColumn key key') (decEqColumn value value'))
  | primitive _, list _ => isFalse (by simp)
  | primitive _, struct _ => isFalse (by simp)
  | primitive _, map _ _ => isFalse (by simp)
  | list _, primitive _ => isFalse (by simp)
  | list _, struct _ => isFalse (by simp)
  | list _, map _ _ => isFalse (by simp)
  | struct _, primitive _ => isFalse (by simp)
  | struct _, list _ => isFalse (by simp)
  | struct _, map _ _ => isFalse (by simp)
  | map _ _, primitive _ => isFalse (by simp)
  | map _ _, list _ => isFalse (by simp)
  | map _ _, struct _ => isFalse (by simp)

def decEqColumn : (a b : Column) → Decidable (a = b)
  | .mk name dtype nullable tags initialDefault defaultValue fieldId,
    .mk name' dtype' nullable' tags' initialDefault' defaultValue' fieldId' =>
      @decidable_of_iff _ (dtype = dtype' ∧ name = name' ∧ nullable = nullable' ∧ tags = tags' ∧
          initialDefault = initialDefault' ∧ defaultValue = defaultValue' ∧ fieldId = fieldId')
        (by simp; tauto) (@instDecidableAnd _ _ (decEq dtype dtype') inferInstance)

def decEqFields : (a b : List Column) → Decidable (a = b)
  | [], [] => isTrue rfl
  | [], _ :: _ => isFalse (by simp)
  | _ :: _, [] => isFalse (by simp)
  | a :: as, b :: bs =>
      @decidable_of_iff _ (a = b ∧ as = bs) (by simp)
        (@instDecidableAnd _ _ (decEqColumn a b) (decEqFields as bs))

end

instance : DecidableEq DataType := decEq

end DataType

instance : DecidableEq Column := DataType.decEqColumn

/-! ## Flattening -/

structure FlattenedColumn where
  column : Column
  /-- The parent index among the flattened columns of a single original column. -/
  parentIndex : Option Nat
  deriving DecidableEq

namespace Column

mutual

def flattenInto (parentIndex : Option Nat) (flattened : List FlattenedColumn) :
    Column → List FlattenedColumn
  | .mk name dtype nullable tags initialDefault defaultValue fieldId =>
      flattenChildren flattened.length
        (flattened ++
          [⟨.mk name dtype nullable tags initialDefault defaultValue fieldId, parentIndex⟩]) dtype

def flattenChildren (parentIndex : Nat) (flattened : List FlattenedColumn) :
    DataType → List FlattenedColumn
  | .primitive _ => flattened
  | .list inner => flattenInto (some parentIndex) flattened inner
  | .struct fields => flattenFields parentIndex flattened fields
  | .map key value =>
      flattenInto (some parentIndex) (flattenInto (some parentIndex) flattened key) value

def flattenFields (parentIndex : Nat) (flattened : List FlattenedColumn) :
    List Column → List FlattenedColumn
  | [] => flattened
  | field :: rest =>
      flattenFields parentIndex (flattenInto (some parentIndex) flattened field) rest

end

/-- Turn a column tree into the list of its columns, parents first. -/
def flatten (column : Column) : List FlattenedColumn :=
  flattenInto none [] column

mutual

/-- Columns of a tree with a field id, children after their parent. -/
def walk : Column → List (Int × Column)
  | .mk name dtype nullable tags initialDefault defaultValue fieldId =>
      (fieldId.map fun id =>
        (id, Column.mk name dtype nullable tags initialDefault defaultValue fieldId)).toList ++
        walkChildren dtype

def walkChildren : DataType → List (Int × Column)
  | .primitive _ => []
  | .list inner => walk inner
  | .struct fields => walkFields fields
  | .map key value => walk key ++ walk value

def walkFields : List Column → List (Int × Column)
  | [] => []
  | field :: rest => walk field ++ walkFields rest

end

end Column

/-! ## Schema -/

structure Schema where
  columns : IndexMap Text Column
  deriving DecidableEq

namespace Schema

def insertColumn (columns : IndexMap Text Column) (column : Column) :
    DucklakeResult (IndexMap Text Column) :=
  if columns.contains column.name then .error (.duplicateColumnName column.name)
  else .ok (columns.insert column.name column)

def ofColumns (columns : List Column) : DucklakeResult Schema :=
  (columns.foldlM insertColumn IndexMap.empty).map Schema.mk

def columnsById (schema : Schema) : IndexMap Int Column :=
  IndexMap.ofList (schema.columns.values.flatMap Column.walk)

end Schema

/-! ## Dialects -/

inductive Dialect where
  | postgres
  | mySql
  | sqlite
  deriving DecidableEq, Repr

/-- The largest number of columns of an inline data table, system columns included. -/
def Dialect.maxColumns : Dialect → Nat
  | postgres => 1600
  | mySql => 0
  | sqlite => 2000

def nextMultipleOf (n multiple : Nat) : Nat :=
  (n + multiple - 1) / multiple * multiple

/-- The width and alignment of a column in the storage types of Postgres. -/
def postgresStorage : DataType → Nat × Nat
  | .primitive .boolean => (1, 1)
  | .primitive .int8 | .primitive .int16 => (2, 2)
  | .primitive .int32 | .primitive .uint8 | .primitive .uint16 | .primitive .float32 => (4, 4)
  | .primitive .int64 | .primitive .uint32 | .primitive .float64 | .primitive .time => (8, 8)
  | .primitive .timeTz => (12, 8)
  | .primitive .interval => (16, 8)
  | .primitive .uuid => (16, 1)
  | _ => (24, 4)

/-- Whether a row of the schema fits a page of Postgres, next to the tuple header, the null
bitmap and three system columns. -/
def inlineRowFits (schema : Schema) : Bool :=
  let columns := schema.columns.values
  let header := nextMultipleOf (23 + (columns.length + 3 + 7) / 8) 8 + 3 * 8
  let size := columns.foldl (fun size column =>
    nextMultipleOf size (postgresStorage column.dtype).2 + (postgresStorage column.dtype).1) header
  size ≤ 8160

/-- Whether the catalog backend can store the entire schema in an inline data table. -/
def Dialect.supportsDataInlining (dialect : Dialect) (schema : Schema) : Bool :=
  schema.columns.entries.length + 3 ≤ dialect.maxColumns &&
    (schema.columns.values.all fun column =>
      column.dtype.supportsDataInlining && dialect ≠ .mySql) &&
    (dialect ≠ .postgres || inlineRowFits schema)

end Ducklake
