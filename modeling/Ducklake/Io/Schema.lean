import Ducklake.Environment
import Ducklake.Lib.Except

/-!
# Matching a batch to a schema

`match_to_schema` of `io/arrow/schema.rs` for inline writes: fields are matched by name, values
are widened to the types of the schema, and missing columns take their default.  Where the
source hands an array of the target's type on unchanged, matching its children gives the same
array, as the nulls below a non-nullable child field are null in the parent.
-/

set_option autoImplicit false

namespace Ducklake.Io

mutual

def newNullArray (length : Nat) : DataType → ArrowArray
  | .primitive type => .leaf type (List.replicate length none)
  | .list inner => .list (List.replicate length false) 0 (List.replicate length 0)
      (newNullChild 0 inner)
  | .struct fields => .struct (List.replicate length false) (newNullFields length fields)
  | .map key value => .map (List.replicate length false) 0 (List.replicate length 0)
      (newNullChild 0 key) (newNullChild 0 value)

def newNullChild (length : Nat) : Column → ArrowArray
  | .mk _ dtype .. => newNullArray length dtype

def newNullFields (length : Nat) : List Column → List (Text × ArrowArray)
  | [] => []
  | field :: rest => (field.name, newNullChild length field) :: newNullFields length rest

end

def broadcast (env : Environment) (value : Value) (dtype : DataType) (length : Nat) :
    DucklakeResult ArrowArray :=
  match value, dtype with
  | .scalar (.timestamp _), .list _ | .scalar (.timestamp _), .struct _
  | .scalar (.timestamp _), .map _ _ =>
      .error (.schemaError "timestamp default requires a timestamp column".toList)
  | .scalar (.timestamp nanoseconds), .primitive type =>
      match type with
      | .timestamp _ => env.broadcastScalar (.timestamp nanoseconds) dtype length
      | _ => .error (.schemaError "timestamp default requires a timestamp column".toList)
  | .scalar scalar, _ => env.broadcastScalar scalar dtype length
  | _, _ => .error (.schemaError "nested literal defaults are unsupported".toList)

def generateColumn (env : Environment) (column : Column) (length : Nat) :
    DucklakeResult ArrowArray :=
  match column.defaultValue with
  | .expression _ _ => .error (.schemaError
      ("expression default for '".toList ++ column.name ++ "' is unsupported".toList))
  | .literal (some value) => broadcast env value column.dtype length
  | .literal none => .ok (newNullArray length column.dtype)

/-- `check_nullability`: a null is accepted below a null of the parent only. -/
def checkNullability (column : Column) (array : ArrowArray) (parent : Option (List Bool)) :
    DucklakeResult Unit :=
  let covered := match parent with
    | none => false
    | some validity => (array.validity.zip validity).all fun entry => entry.1 || !entry.2
  if !column.nullable && array.nullCount > 0 && !covered then
    .error (.invalidNullValue column.name)
  else .ok ()

def checkFields (parent : Option (List Bool)) : List (Column × ArrowArray) → DucklakeResult Unit
  | [] => .ok ()
  | (column, array) :: rest => do
      checkNullability column array parent
      checkFields parent rest

/-- A scalar in the representation of the type that it is widened to. -/
def promoteScalar : PrimitiveType → Scalar → Scalar
  | .int16, .int8 value => .int16 value
  | .int32, .int8 value | .int32, .int16 value => .int32 value
  | .int64, .int8 value | .int64, .int16 value | .int64, .int32 value => .int64 value
  | .uint16, .uint8 value => .uint16 value
  | .uint32, .uint8 value | .uint32, .uint16 value => .uint32 value
  | .uint64, .uint8 value | .uint64, .uint16 value | .uint64, .uint32 value => .uint64 value
  | .float64, .float32 value => .float64 value
  | .json, .varchar text => .json text
  | _, scalar => scalar

def matchLeaf (source target : PrimitiveType) (values : List (Option Scalar)) :
    DucklakeResult ArrowArray :=
  if source = target || source.canPromoteTo target || (source = .varchar && target = .json) then
    .ok (.leaf target (values.map (·.map (promoteScalar target))))
  else .error (.invalidCast source.display target.display)

/-- The position of a field removed from the source fields. -/
def takeField (name : Text) : List (Text × ArrowArray) →
    Option (ArrowArray × List (Text × ArrowArray))
  | [] => none
  | field :: rest =>
      if field.1 = name then some (field.2, rest)
      else (takeField name rest).map fun found => (found.1, field :: found.2)

def firstDuplicate : List Text → Option Text
  | [] => none
  | name :: rest => if name ∈ rest then some name else firstDuplicate rest

def arrayTypeName : ArrowArray → Text
  | .null _ => "null".toList
  | .leaf type _ => type.display
  | .list .. => "list".toList
  | .struct .. => "struct".toList
  | .map .. => "map".toList

mutual

def matchColumn (env : Environment) (array : ArrowArray) : DataType → DucklakeResult ArrowArray
  | .primitive target =>
      match array with
      | .null length => .ok (newNullArray length (.primitive target))
      | .leaf source values => matchLeaf source target values
      | _ => .error (.invalidCast (arrayTypeName array) target.display)
  | .list inner =>
      match array with
      | .null length => .ok (newNullArray length (.list inner))
      | .list validity start lengths values => do
          let values ← matchChild env values none inner
          .ok (.list validity start lengths values)
      | _ => .error (.invalidCast (arrayTypeName array) "list".toList)
  | .struct columns =>
      match array with
      | .null length => .ok (newNullArray length (.struct columns))
      | .struct validity fields => do
          if let some name := firstDuplicate (fields.map Prod.fst) then
            .error (.schemaError ("duplicate field: ".toList ++ name))
          let arrays ← matchFields env fields validity.length columns
          checkFields (some validity) (columns.zip arrays)
          .ok (.struct validity ((columns.map Column.name).zip arrays))
      | _ => .error (.invalidCast (arrayTypeName array) "struct".toList)
  | .map key value =>
      match array with
      | .null length => .ok (newNullArray length (.map key value))
      | .map validity start lengths keys values => do
          let keys ← matchChild env keys none key
          let values ← matchChild env values none value
          .ok (.map validity start lengths keys values)
      | _ => .error (.invalidCast (arrayTypeName array) "map".toList)

def matchChild (env : Environment) (array : ArrowArray) (parent : Option (List Bool)) :
    Column → DucklakeResult ArrowArray
  | .mk name dtype nullable tags initialDefault defaultValue fieldId => do
      let array ← matchColumn env array dtype
      checkNullability (.mk name dtype nullable tags initialDefault defaultValue fieldId)
        array parent
      .ok array

/-- The arrays of the columns, each matched with the source field of its name.  Fields that no
column takes are an error. -/
def matchFields (env : Environment) (source : List (Text × ArrowArray)) (length : Nat) :
    List Column → DucklakeResult (List ArrowArray)
  | [] =>
      if source.isEmpty then .ok []
      else .error (.schemaError "unexpected columns in inline data".toList)
  | .mk name dtype nullable tags initialDefault defaultValue fieldId :: rest =>
      match takeField name source with
      | some (array, source) => do
          let array ← matchColumn env array dtype
          let arrays ← matchFields env source length rest
          .ok (array :: arrays)
      | none => do
          let array ← generateColumn env
            (.mk name dtype nullable tags initialDefault defaultValue fieldId) length
          let arrays ← matchFields env source length rest
          .ok (array :: arrays)

end

def matchToSchema (env : Environment) (batch : RecordBatch) (schema : Schema) :
    DucklakeResult RecordBatch := do
  if let some name := firstDuplicate (batch.columns.map Prod.fst) then
    .error (.schemaError ("duplicate field: ".toList ++ name))
  let columns := schema.columns.values
  let arrays ← matchFields env batch.columns batch.numRows columns
  checkFields none (columns.zip arrays)
  .ok { numRows := batch.numRows, columns := (columns.map Column.name).zip arrays }

end Ducklake.Io
