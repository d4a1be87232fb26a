import Mathlib.Algebra.GroupWithZero.Nat
import Ducklake.Io.ParquetStatistics

/-!
# Physical values

`io/arrow/conversion.rs`: the values of Arrow arrays and their conversion into dates, times and
decimals, and the statistics that are computed with it.
-/

set_option autoImplicit false

namespace Ducklake.Io

open Lib

/-! ## Arrow types -/

inductive TimeUnit where
  | second
  | millisecond
  | microsecond
  | nanosecond
  deriving DecidableEq, Repr

inductive IntervalUnit where
  | yearMonth
  | dayTime
  | monthDayNano
  deriving DecidableEq, Repr

inductive LeafType where
  | boolean
  | int8
  | int16
  | int32
  | int64
  | uint8
  | uint16
  | uint32
  | uint64
  | float32
  | float64
  | decimal128 (precision : Nat) (scale : Int)
  | date32
  | time64 (unit : TimeUnit)
  | timestamp (unit : TimeUnit) (timezone : Option Text)
  | interval (unit : IntervalUnit)
  | utf8
  | largeUtf8
  | utf8View
  | binary
  | largeBinary
  | binaryView
  | fixedSizeBinary (width : Nat)
  | dictionary (values : LeafType)
  | other (name : Text)
  deriving DecidableEq, Repr

inductive Extension where
  | opaque_ (typeName : Text)
  | json
  | uuid
  | geoarrowWkb
  deriving DecidableEq, Repr

structure LeafField where
  type : LeafType
  extension : Option Extension
  deriving DecidableEq, Repr

inductive Physical where
  | boolean (value : Bool)
  | integer (value : Int)
  | float (value : FloatValue)
  | monthDayNano (months days nanoseconds : Int)
  | text (text : Text)
  | bytes (bytes : List UInt8)
  deriving DecidableEq, Repr

structure LeafArray where
  type : LeafType
  values : List (Option Physical)
  deriving DecidableEq, Repr

def precisionOf : TimeUnit → TimestampPrecision
  | .second => .seconds
  | .millisecond => .milliseconds
  | .microsecond => .microseconds
  | .nanosecond => .nanoseconds

def unitOf : TimestampPrecision → TimeUnit
  | .seconds => .second
  | .milliseconds => .millisecond
  | .microseconds => .microsecond
  | .nanoseconds => .nanosecond

/-- `Column::try_from_arrow_field`, for the fields without children. -/
def LeafField.dtype (field : LeafField) : DucklakeResult PrimitiveType :=
  match field.type with
  | .boolean => .ok .boolean
  | .int8 => .ok .int8
  | .int16 => .ok .int16
  | .int32 => .ok .int32
  | .int64 => .ok .int64
  | .uint8 => .ok .uint8
  | .uint16 => .ok .uint16
  | .uint32 => .ok .uint32
  | .uint64 => .ok .uint64
  | .float32 => .ok .float32
  | .float64 => .ok .float64
  -- `*scale as u8`
  | .decimal128 precision scale => .ok (.decimal precision (scale % 256).toNat)
  | .date32 => .ok .date
  | .time64 unit =>
      match unit with
      | .microsecond | .nanosecond => .ok .time
      | _ => .error (.unsupportedArrowDataType "Time64".toList)
  | .timestamp unit none => .ok (.timestamp (precisionOf unit))
  | .timestamp unit (some _) =>
      match unit with
      | .microsecond => .ok .timestampTz
      | _ => .error (.unsupportedArrowDataType "Timestamp".toList)
  | .interval _ => .ok .interval
  | .utf8 | .largeUtf8 | .utf8View =>
      if field.extension = some .json then .ok .json else .ok .varchar
  | .binary | .largeBinary | .binaryView =>
      if field.extension = some .geoarrowWkb then .ok .geometry else .ok .blob
  | .fixedSizeBinary width =>
      match field.extension with
      | some (.opaque_ typeName) =>
          if width = 8 then .ok .timeTz
          else if width = 16 then
            if typeName = "hugeint".toList then .ok .int128
            else if typeName = "uhugeint".toList then .ok .uint128
            else .error (.unsupportedArrowDataType typeName)
          else .error (.unsupportedArrowDataType "FixedSizeBinary".toList)
      | some .uuid =>
          if width = 16 then .ok .uuid
          else .error (.unsupportedArrowDataType "FixedSizeBinary".toList)
      | _ => .error (.unsupportedArrowDataType "FixedSizeBinary".toList)
  | .dictionary _ => .error (.unsupportedArrowDataType "Dictionary".toList)
  | .other name => .error (.unsupportedArrowDataType name)

/-- The Arrow type of the columns of a type, with the storage struct of variants left out. -/
def LeafType.ofType : PrimitiveType → LeafType
  | .boolean => .boolean
  | .int8 => .int8
  | .int16 => .int16
  | .int32 => .int32
  | .int64 => .int64
  | .int128 => .fixedSizeBinary 16
  | .uint8 => .uint8
  | .uint16 => .uint16
  | .uint32 => .uint32
  | .uint64 => .uint64
  | .uint128 => .fixedSizeBinary 16
  | .float32 => .float32
  | .float64 => .float64
  -- `*scale as i8`
  | .decimal precision scale =>
      .decimal128 precision (if scale < 128 then scale else (scale : Int) - 256)
  | .time => .time64 .microsecond
  | .timeTz => .fixedSizeBinary 8
  | .date => .date32
  | .timestamp precision => .timestamp (unitOf precision) none
  | .timestampTz => .timestamp .microsecond (some "UTC".toList)
  | .interval => .interval .monthDayNano
  | .varchar | .json => .utf8View
  | .blob | .geometry => .largeBinary
  | .variant => .other "Struct".toList
  | .uuid => .fixedSizeBinary 16

/-! ## Conversions -/

/-- The checked constructors of `rust_decimal` and `chrono`, with the ranges they document. -/
structure ValueTypes where
  /-- `Decimal::try_from_i128_with_scale` -/
  decimal : Int → Nat → Option Rat
  /-- `NaiveTime::from_num_seconds_from_midnight_opt`, in nanoseconds -/
  time : Nat → Nat → Option Nat
  /-- `FixedOffset::east_opt` -/
  offset : Int → Option Int
  /-- `Date32Type::to_naive_date_opt`, in days -/
  date : Int → Option Int
  /-- `DateTime::from_timestamp`, in nanoseconds -/
  timestamp : Int → Nat → Option Int
  decimal_isSome : ∀ mantissa scale, (decimal mantissa scale).isSome = true ↔
    scale ≤ 28 ∧ -2 ^ 96 < mantissa ∧ mantissa < 2 ^ 96
  time_isSome : ∀ seconds nanoseconds, (time seconds nanoseconds).isSome = true ↔
    seconds < 86400 ∧ nanoseconds < 2000000000 ∧ (1000000000 ≤ nanoseconds → seconds % 60 = 59)
  offset_isSome : ∀ seconds, (offset seconds).isSome = true ↔ -86400 < seconds ∧ seconds < 86400
  date_isSome : ∀ days, (date days).isSome = true ↔ -96465292 ≤ days ∧ days ≤ 95026236
  timestamp_isSome : ∀ seconds nanoseconds, nanoseconds < 1000000000 →
    ((timestamp seconds nanoseconds).isSome = true ↔
      -96465292 ≤ seconds / 86400 ∧ seconds / 86400 ≤ 95026236)

def unwrap {α : Type} (site : Text) : Option α → DucklakeResult α
  | some value => .ok value
  | none => .error (.panicked site)

def unsignedValue : List UInt8 → Nat
  | [] => 0
  | byte :: rest => byte.toNat + 256 * unsignedValue rest

/-- Two's complement -/
def signedValue (bytes : List UInt8) : Int :=
  if 2 * unsignedValue bytes < 256 ^ bytes.length then unsignedValue bytes
  else unsignedValue bytes - 256 ^ bytes.length

/-- `as u32` -/
def wrapU32 (value : Int) : Nat :=
  (value % 2 ^ 32).toNat

/-- `+` and `*` of 64-bit integers panic on overflow. -/
def checkedI64 (value : Int) : DucklakeResult Int :=
  if -2 ^ 63 ≤ value ∧ value < 2 ^ 63 then .ok value
  else .error (.panicked "attempt to compute with overflow".toList)

def unitsPerSecond : TimeUnit → Nat
  | .second => 1
  | .millisecond => 1000
  | .microsecond => 1000000
  | .nanosecond => 1000000000

section

variable (types : ValueTypes)

def decimalFromPhysical (scale : Nat) (value : Int) : DucklakeResult Rat :=
  unwrap "Decimal::from_i128_with_scale".toList (types.decimal value scale)

/-- Rust divides towards zero. -/
def timeFromPhysical (unit : TimeUnit) (value : Int) : DucklakeResult Nat :=
  match unit with
  | .microsecond => unwrap "from_num_seconds_from_midnight_opt".toList
      (types.time (wrapU32 (value.tdiv 1000000)) (wrapU32 (value.tmod 1000000 * 1000)))
  | .nanosecond => unwrap "from_num_seconds_from_midnight_opt".toList
      (types.time (wrapU32 (value.tdiv 1000000000)) (wrapU32 (value.tmod 1000000000)))
  | _ => .error (.panicked "unreachable".toList)

def timeTzFromPhysical (bytes : List UInt8) : DucklakeResult (Nat × Int) := do
  if bytes.length < 8 then .error (.panicked "slice index".toList)
  else
    let time ← timeFromPhysical types .microsecond (unsignedValue (bytes.take 5))
    let offset ← unwrap "FixedOffset::east_opt".toList
      (types.offset (signedValue ((bytes.drop 5).take 3)))
    .ok (time, offset)

def dateFromPhysical (value : Int) : DucklakeResult Int :=
  unwrap "to_naive_date_opt".toList (types.date value)

/-- `DateTime::from_timestamp_nanos` has no checks. -/
def timestampFromPhysical (unit : TimeUnit) (value : Int) : DucklakeResult Int :=
  match unit with
  | .nanosecond => .ok value
  | _ => unwrap "DateTime::from_timestamp".toList
      (types.timestamp (value / unitsPerSecond unit)
        (value % unitsPerSecond unit * (1000000000 / unitsPerSecond unit)).toNat)

def intervalFromPhysical (months days nanoseconds : Int) : DucklakeResult (Nat × Int) := do
  let micros ← checkedI64 (days * 86400000000)
  let micros ← checkedI64 (micros + nanoseconds.tdiv 1000)
  .ok (wrapU32 months, micros * 1000)

def arrayFromSlice (width : Nat) (bytes : List UInt8) : DucklakeResult (List UInt8) :=
  if bytes.length = width then .ok bytes
  else .error (.panicked "TryFromSliceError".toList)

/-- The value of an element of an array.  Arrays are downcast by the type of the column, times by
that of the array. -/
def fromPhysical (dtype : PrimitiveType) (type : LeafType) (value : Physical) :
    DucklakeResult Scalar :=
  match dtype, value with
  | .boolean, .boolean value => .ok (.boolean value)
  | .int8, .integer value => .ok (.int8 value)
  | .int16, .integer value => .ok (.int16 value)
  | .int32, .integer value => .ok (.int32 value)
  | .int64, .integer value => .ok (.int64 value)
  | .uint8, .integer value => .ok (.uint8 value.toNat)
  | .uint16, .integer value => .ok (.uint16 value.toNat)
  | .uint32, .integer value => .ok (.uint32 value.toNat)
  | .uint64, .integer value => .ok (.uint64 value.toNat)
  | .float32, .float value => .ok (.float32 value)
  | .float64, .float value => .ok (.float64 value)
  | .int128, .bytes bytes => (arrayFromSlice 16 bytes).map fun bytes => .int128 (signedValue bytes)
  | .uint128, .bytes bytes =>
      (arrayFromSlice 16 bytes).map fun bytes => .uint128 (unsignedValue bytes)
  -- The bytes of an identifier stand in the order of their significance.
  | .uuid, .bytes bytes =>
      (arrayFromSlice 16 bytes).map fun bytes => .uuid (unsignedValue bytes.reverse)
  | .decimal _ scale, .integer value => (decimalFromPhysical types scale value).map .decimal
  | .time, .integer value =>
      match type with
      | .time64 unit => (timeFromPhysical types unit value).map .time
      | _ => .error (.panicked "unreachable".toList)
  | .timeTz, .bytes bytes =>
      (timeTzFromPhysical types bytes).map fun found => .timeTz found.1 found.2
  | .date, .integer value => (dateFromPhysical types value).map .date
  | .timestamp precision, .integer value =>
      (timestampFromPhysical types (unitOf precision) value).map .timestamp
  | .timestampTz, .integer value =>
      (timestampFromPhysical types .microsecond value).map .timestampTz
  | .interval, .monthDayNano months days nanoseconds =>
      (intervalFromPhysical months days nanoseconds).map fun found => .interval found.1 found.2
  | .varchar, .text text => .ok (.varchar text)
  | .json, .text text => .ok (.json text)
  | .blob, .bytes bytes => .ok (.blob bytes)
  | .variant, _ => .error (.unsupportedArrowDataType "variant inline data".toList)
  | .geometry, _ => .error (.unsupportedArrowDataType "geometry inline data".toList)
  | _, _ => .error (.panicked "downcast_ref".toList)

end

/-! ## Bounds of arrays -/

def Physical.less : Physical → Physical → Bool
  | .boolean a, .boolean b => !a && b
  | .integer a, .integer b => a < b
  | .float a, .float b => floatLess a b
  | .monthDayNano months days nanoseconds, .monthDayNano months' days' nanoseconds' =>
      compareSequences compare [months, days, nanoseconds] [months', days', nanoseconds'] == .lt
  | .text a, .text b => compareText a b == .lt
  | .bytes a, .bytes b => compareSequences (fun x y => compare x.toNat y.toNat) a b == .lt
  | _, _ => false

instance : Min Physical :=
  ⟨fun a b => if b.less a then b else a⟩

instance : Max Physical :=
  ⟨fun a b => if a.less b then b else a⟩

/-- The array types that the aggregates of a column are written for. -/
def downcasts : PrimitiveType → LeafType → Bool
  | .boolean, .boolean | .int8, .int8 | .int16, .int16 | .int32, .int32 | .int64, .int64 => true
  | .uint8, .uint8 | .uint16, .uint16 | .uint32, .uint32 | .uint64, .uint64 => true
  | .float32, .float32 | .float64, .float64 => true
  | .int128, .fixedSizeBinary _ | .uint128, .fixedSizeBinary _ => true
  | .timeTz, .fixedSizeBinary _ | .uuid, .fixedSizeBinary _ => true
  | .decimal _ _, .decimal128 _ _ => true
  | .time, .time64 .microsecond | .time, .time64 .nanosecond => true
  | .date, .date32 => true
  | .timestamp _, .timestamp _ _ => true
  | .timestampTz, .timestamp .microsecond _ => true
  | .interval, .interval .monthDayNano => true
  | .varchar, .utf8 | .varchar, .largeUtf8 | .varchar, .utf8View => true
  | .json, .utf8 | .json, .largeUtf8 | .json, .utf8View => true
  | .blob, .binary | .blob, .largeBinary | .blob, .binaryView => true
  | .variant, _ | .geometry, _ => true
  | _, _ => false

namespace LeafArray

variable (types : ValueTypes)

def elements (array : LeafArray) : List Physical :=
  array.values.filterMap id

/-- `aggregate!` -/
def aggregate (dtype : PrimitiveType) (array : LeafArray) (best : Option Physical) :
    DucklakeResult (Option Value) :=
  if array.values.isEmpty || dtype = .variant || dtype = .geometry then .ok none
  else if downcasts dtype array.type then
    match best with
    | none => .ok none
    | some value => (fromPhysical types dtype array.type value).map (aggregated dtype)
  else .error (.panicked "downcast_ref".toList)

def findMin (dtype : PrimitiveType) (array : LeafArray) : DucklakeResult (Option Value) :=
  array.aggregate types dtype array.elements.min?

def findMax (dtype : PrimitiveType) (array : LeafArray) : DucklakeResult (Option Value) :=
  array.aggregate types dtype array.elements.max?

end LeafArray

/-! ## Statistics of batches -/

/-- The arrays of a batch, with the part of a child array that the offsets of a list cover. -/
inductive PhysicalArray where
  | leaf (array : LeafArray)
  | list (covered : PhysicalArray)
  | struct (fields : List PhysicalArray)
  | map (keys values : PhysicalArray)

section

variable (types : ValueTypes)

mutual

/-- `compute_array_statistics` -/
def columnStatistics (result : IndexMap Int ArrayColumnStats) (array : PhysicalArray) :
    Column → DucklakeResult (IndexMap Int ArrayColumnStats)
  | .mk _ dtype _ _ _ _ fieldId => typeStatistics result array fieldId dtype

def typeStatistics (result : IndexMap Int ArrayColumnStats) (array : PhysicalArray)
    (fieldId : Option Int) : DataType → DucklakeResult (IndexMap Int ArrayColumnStats)
  | .primitive dtype =>
      match fieldId, array with
      | none, _ => .ok result
      | some id, .leaf array => do
          let minValue ← array.findMin types dtype
          let maxValue ← array.findMax types dtype
          .ok (result.insert id {
            minValue := minValue
            maxValue := maxValue
            nullCount := some (array.values.count none)
            containsNan := none })
      | _, _ => .error (.panicked "downcast_ref".toList)
  | .list inner =>
      match array with
      | .list covered => columnStatistics result covered inner
      | _ => .error (.panicked "unreachable".toList)
  | .struct columns =>
      match array with
      | .struct fields => fieldStatistics result fields columns
      | _ => .error (.panicked "downcast_ref".toList)
  | .map key value =>
      match array with
      | .map keys values => do
          let result ← columnStatistics result keys key
          columnStatistics result values value
      | _ => .error (.panicked "downcast_ref".toList)

def fieldStatistics (result : IndexMap Int ArrayColumnStats) (arrays : List PhysicalArray) :
    List Column → DucklakeResult (IndexMap Int ArrayColumnStats)
  | [] => .ok result
  | column :: rest =>
      match arrays with
      | [] => .ok result
      | array :: arrays => do
          let result ← columnStatistics result array column
          fieldStatistics result arrays rest

end

def batchStatistics (schema : Schema) (batch : List (Text × PhysicalArray)) :
    DucklakeResult (IndexMap Int ArrayColumnStats) :=
  batch.foldlM (fun result field =>
    match schema.columns.get? field.1 with
    | some column => columnStatistics types result field.2 column
    | none => .ok result) .empty

/-! ## Fields of files -/

/-- A field of an Arrow schema.  Lists of any kind have one child, and so have maps. -/
inductive SchemaField where
  | leaf (field : LeafField) (id : Option Int)
  | struct (fields : List SchemaField)
  | list (item : SchemaField)
  | map (entries : SchemaField)

/-- The values of a dictionary. -/
def LeafType.valueType : LeafType → LeafType
  | .dictionary values => values
  | type => type

/-- The statistics of a dictionary are those of its values. -/
def LeafField.valueField (field : LeafField) : LeafField :=
  { field with type := field.type.valueType }

mutual

/-- `fields_by_id`: of the fields with one id the last one is found. -/
def walk (out : IndexMap Int LeafField) : SchemaField → IndexMap Int LeafField
  | .leaf field (some id) => out.insert id field
  | .leaf _ none => out
  | .struct fields => walkFields out fields
  | .list item => walk out item
  | .map entries => walk out entries

def walkFields (out : IndexMap Int LeafField) : List SchemaField → IndexMap Int LeafField
  | [] => out
  | field :: rest => walkFields (walk out field) rest

end

/-- A leaf column of a Parquet file: the compressed sizes and the statistics of its row groups, as
they are read for a field of an Arrow type. -/
structure ParquetColumn where
  id : Option Int
  path : List Text
  sizes : List Int
  mins : LeafType → Option (List (Option Physical))
  maxes : LeafType → Option (List (Option Physical))
  nullCounts : Option (List (Option Nat))

structure ParquetFile where
  fields : List (Text × SchemaField)
  columns : List ParquetColumn

def ParquetFile.fieldsById (file : ParquetFile) : IndexMap Int LeafField :=
  walkFields .empty (file.fields.map Prod.snd)

/-! ## Statistics of files -/

/-- The arrays of a `StatisticsConverter`, as far as the row groups can be converted. -/
structure StatisticsConverter where
  mins : Option LeafArray
  maxes : Option LeafArray
  nullCounts : Option (List (Option Nat))

/-- The statistics of a dictionary column are arrays of its values. -/
def ParquetColumn.converter (column : ParquetColumn) (type : LeafType) : StatisticsConverter where
  mins := (column.mins type.valueType).map (LeafArray.mk type.valueType)
  maxes := (column.maxes type.valueType).map (LeafArray.mk type.valueType)
  nullCounts := column.nullCounts

/-- Nothing is read for nested fields. -/
def StatisticsConverter.nulls (type : LeafType) (groups : Nat) : StatisticsConverter where
  mins := some ⟨type, List.replicate groups none⟩
  maxes := some ⟨type, List.replicate groups none⟩
  nullCounts := some (List.replicate groups none)

/-- The converter of a column at the top level is made for the first field of its name, that of a
nested column for the field that has its id. -/
def ParquetFile.converter (file : ParquetFile) (field : LeafField) (column : ParquetColumn) :
    DucklakeResult StatisticsConverter :=
  match column.path with
  | [name] =>
      match file.fields.find? (fun field => field.1 = name) with
      | none => .error (.parquet (name ++ " not found in schema".toList))
      | some (_, .leaf named _) =>
          match file.columns.find? (fun other => other.path = [name]) with
          | some first => .ok (first.converter named.type)
          | none => .ok (.nulls named.type column.sizes.length)
      | some (_, .struct _) => .ok (.nulls (.other "Struct".toList) column.sizes.length)
      | some (_, .list _) => .ok (.nulls (.other "List".toList) column.sizes.length)
      | some (_, .map _) => .ok (.nulls (.other "Map".toList) column.sizes.length)
  | _ => .ok (column.converter field.type)

def sumSizes (sizes : List Int) : DucklakeResult Int :=
  sizes.foldlM (fun sum size => checkedI64 (sum + size)) 0

/-- Statistics that cannot be read are missing. -/
def readBound (find : LeafArray → DucklakeResult (Option Value)) :
    Option LeafArray → DucklakeResult (Option Value)
  | some array => find array
  | none => .ok none

/-- `derive_column_stats`, with the panics of its conversions. -/
def StatisticsConverter.deriveColumnStats (converter : StatisticsConverter) (field : LeafField)
    (sizes : List Int) : DucklakeResult FileColumnStats := do
  let sizeBytes ← sumSizes sizes
  let dtype ← field.valueField.dtype
  let minValue ← readBound (LeafArray.findMin types dtype) converter.mins
  let maxValue ← readBound (LeafArray.findMax types dtype) converter.maxes
  .ok {
    sizeBytes := some (sizeBytes % 2 ^ 64).toNat
    minValue := minValue
    maxValue := maxValue
    nullCount := converter.nullCounts.bind sumCounts
    containsNan := none }

/-- Columns without an id or a field are passed over. -/
def ParquetFile.readColumn (file : ParquetFile) (result : IndexMap Int FileColumnStats)
    (column : ParquetColumn) : DucklakeResult (IndexMap Int FileColumnStats) :=
  match column.id with
  | none => .ok result
  | some id =>
      match file.fieldsById.get? id with
      | none => .ok result
      | some field => do
          let converter ← file.converter field column
          let stats ← converter.deriveColumnStats types field column.sizes
          .ok (result.insert id stats)

/-- The loop of `read_file_statistics` -/
def fileStatistics (file : ParquetFile) : DucklakeResult (IndexMap Int FileColumnStats) :=
  file.columns.foldlM (file.readColumn types) .empty

end

end Ducklake.Io
