import Ducklake.Io.Schema
import Ducklake.Spec.Entities
import Mathlib.Algebra.BigOperators.Group.List.Basic
import Mathlib.Algebra.GroupWithZero.Nat
import Mathlib.Data.List.Sort

/-!
# Stored inline rows

Inline rows as they are read back: the arrays of all batches one behind the other, matched to the
schema of a later snapshot by the ids of the fields.
-/

set_option autoImplicit false

namespace Ducklake.Io

open Lib Spec

/-! ## Reading -/

namespace ArrowArray

def part {α : Type} (range : Nat × Nat) (items : List α) : List α :=
  (items.drop range.1).take range.2

def childRange (start : Nat) (lengths : List Nat) (range : Nat × Nat) : Nat × Nat :=
  (start + (lengths.take range.1).sum, (part range lengths).sum)

mutual

/-- Parts of two arrays of one type, one behind the other. -/
def concat (range other : Nat × Nat) : ArrowArray → ArrowArray → ArrowArray
  | leaf type values, leaf _ more => .leaf type (part range values ++ part other more)
  | list validity start lengths values, list moreValidity moreStart moreLengths more =>
      .list (part range validity ++ part other moreValidity) 0
        (part range lengths ++ part other moreLengths)
        (values.concat (childRange start lengths range) (childRange moreStart moreLengths other)
          more)
  | struct validity fields, struct moreValidity more =>
      .struct (part range validity ++ part other moreValidity) (concatFields range other fields more)
  | map validity start lengths keys values, map moreValidity moreStart moreLengths moreKeys more =>
      .map (part range validity ++ part other moreValidity) 0
        (part range lengths ++ part other moreLengths)
        (keys.concat (childRange start lengths range) (childRange moreStart moreLengths other)
          moreKeys)
        (values.concat (childRange start lengths range) (childRange moreStart moreLengths other)
          more)
  | null _, _ => .null (range.2 + other.2)
  | array, _ => array.slice range.1 range.2

def concatFields (range other : Nat × Nat) :
    List (Text × ArrowArray) → List (Text × ArrowArray) → List (Text × ArrowArray)
  | (name, array) :: rest, (_, more) :: others =>
      (name, array.concat range other more) :: concatFields range other rest others
  | [], _ | _, [] => []

end

def append (array other : ArrowArray) : ArrowArray :=
  array.concat (0, array.length) (0, other.length) other

end ArrowArray

structure StoredRows where
  numRows : Nat
  columns : List (Column × ArrowArray)

/-- `decode_rows` for the column of a schema: its values in all batches. -/
def decodeColumn (table : InlinedDataTable) (batches : List InlinedBatch) (column : Column) :
    DucklakeResult (Column × ArrowArray) :=
  if table.columns.contains column.name then
    .ok (column, (batches.filterMap fun batch =>
      (batch.data.columns.find? fun field => field.1 = column.name).map Prod.snd).foldl
        ArrowArray.append (newNullArray 0 column.dtype))
  else .error (.database ("no such column: ".toList ++ column.name))

/-- `fetch_all_arrow` for the rows of an inline data table that a snapshot sees, by their ids. -/
def fetchAllArrow (table : InlinedDataTable) (schema : Schema) (snapshotId : Int) :
    DucklakeResult StoredRows := do
  let batches := (table.batches.filter fun batch => batch.beginSnapshot ≤ snapshotId).insertionSort
    fun batch other => batch.rowIdStart ≤ other.rowIdStart
  let columns ← schema.columns.values.mapM (decodeColumn table batches)
  if columns.isEmpty then
    .error (.schemaError "must either specify a row count or at least one column".toList)
  else .ok { numRows := (batches.map fun batch => batch.data.numRows).sum, columns := columns }

/-! ## Matching -/

mutual

/-- Arrow types are equal: so are the names, ids and nullability of the children. -/
def sameArrowType : DataType → DataType → Bool
  | .primitive type, .primitive other => type = other
  | .list inner, .list other => sameArrowField inner other
  | .struct fields, .struct others => sameArrowFields fields others
  | .map key value, .map otherKey otherValue =>
      sameArrowField key otherKey && sameArrowField value otherValue
  | _, _ => false

def sameArrowField : Column → Column → Bool
  | .mk name dtype nullable _ _ _ fieldId, .mk name' dtype' nullable' _ _ _ fieldId' =>
      name = name' && nullable = nullable' && fieldId = fieldId' && sameArrowType dtype dtype'

def sameArrowFields : List Column → List Column → Bool
  | [], [] => true
  | field :: rest, other :: others => sameArrowField field other && sameArrowFields rest others
  | [], _ :: _ | _ :: _, [] => false

end

/-- `generate_column` with the initial default. -/
def generateInitial (env : Environment) (column : Column) (length : Nat) :
    DucklakeResult ArrowArray :=
  match column.initialDefault with
  | some value => broadcast env value column.dtype length
  | none => .ok (newNullArray length column.dtype)

def takeFieldById (id : Int) : List (Column × ArrowArray) →
    Option ((Column × ArrowArray) × List (Column × ArrowArray))
  | [] => none
  | field :: rest =>
      if field.1.fieldId = some id then some (field, rest)
      else (takeFieldById id rest).map fun found => (found.1, field :: found.2)

def firstDuplicateId : List Int → Option Int
  | [] => none
  | id :: rest => if id ∈ rest then some id else firstDuplicateId rest

def checkIds (fields : List Column) : DucklakeResult Unit :=
  match firstDuplicateId (fields.filterMap Column.fieldId) with
  | some id => .error (.schemaError ("duplicate field: ".toList ++ (toString id).toList))
  | none => .ok ()

def dataTypeName : DataType → Text
  | .primitive type => type.display
  | .list _ => "list".toList
  | .struct _ => "struct".toList
  | .map _ _ => "map".toList

mutual

/-- `match_column` for stored rows: a nested array of the target's type is handed on. -/
def matchStored (env : Environment) (source : DataType) (array : ArrowArray) :
    DataType → DucklakeResult ArrowArray
  | .primitive target =>
      match source, array with
      | .primitive type, .leaf _ values => matchLeaf type target values
      | _, _ => .error (.invalidCast (dataTypeName source) target.display)
  | .list inner =>
      if sameArrowType source (.list inner) then .ok array
      else match source, array with
      | .list column, .list validity start lengths values => do
          let values ← matchStoredChild env column values inner
          checkNullability inner values none
          .ok (.list validity start lengths values)
      | _, _ => .error (.invalidCast (dataTypeName source) "list".toList)
  | .struct columns =>
      if sameArrowType source (.struct columns) then .ok array
      else match source, array with
      | .struct fields, .struct validity arrays => do
          checkIds fields
          let arrays ← matchStoredFields env (fields.zip (arrays.map Prod.snd)) validity.length
            columns
          checkFields (some validity) (columns.zip arrays)
          .ok (.struct validity ((columns.map Column.name).zip arrays))
      | _, _ => .error (.invalidCast (dataTypeName source) "struct".toList)
  | .map key value =>
      if sameArrowType source (.map key value) then .ok array
      else match source, array with
      | .map sourceKey sourceValue, .map validity start lengths keys values => do
          let keys ← matchStoredChild env sourceKey keys key
          let values ← matchStoredChild env sourceValue values value
          checkNullability key keys none
          checkNullability value values none
          .ok (.map validity start lengths keys values)
      | _, _ => .error (.invalidCast (dataTypeName source) "map".toList)

/-- `match_child`: a child with another id is a new one. -/
def matchStoredChild (env : Environment) (source : Column) (array : ArrowArray) :
    Column → DucklakeResult ArrowArray
  | .mk name dtype nullable tags initialDefault defaultValue fieldId =>
      if source.fieldId ≠ fieldId then
        generateInitial env (.mk name dtype nullable tags initialDefault defaultValue fieldId)
          array.length
      else matchStored env source.dtype array dtype

/-- The arrays of the columns, each matched with the source field of its id. -/
def matchStoredFields (env : Environment) (source : List (Column × ArrowArray)) (length : Nat) :
    List Column → DucklakeResult (List ArrowArray)
  | [] => .ok []
  | .mk name dtype nullable tags initialDefault defaultValue fieldId :: rest =>
      match fieldId.bind (takeFieldById · source) with
      | some ((field, array), source) => do
          let array ← matchStored env field.dtype array dtype
          let arrays ← matchStoredFields env source length rest
          .ok (array :: arrays)
      | none => do
          let array ← generateInitial env
            (.mk name dtype nullable tags initialDefault defaultValue fieldId) length
          let arrays ← matchStoredFields env source length rest
          .ok (array :: arrays)

end

/-- `match_to_schema` with the initial defaults of the columns. -/
def matchRows (env : Environment) (rows : StoredRows) (schema : Schema) :
    DucklakeResult RecordBatch := do
  checkIds (rows.columns.map Prod.fst)
  let columns := schema.columns.values
  let arrays ← matchStoredFields env rows.columns rows.numRows columns
  checkFields none (columns.zip arrays)
  .ok { numRows := rows.numRows, columns := (columns.map Column.name).zip arrays }

/-! ## Rows are neither lost nor added -/

theorem matchRows_numRows
    (env : Environment)
    (rows : StoredRows)
    (schema : Schema)
    (batch : RecordBatch)
    (success : matchRows env rows schema = .ok batch) :
    batch.numRows = rows.numRows := by
  obtain ⟨_, _, success⟩ := bind_eq_ok.mp success
  obtain ⟨arrays, _, success⟩ := bind_eq_ok.mp success
  obtain ⟨_, _, success⟩ := bind_eq_ok.mp success
  obtain rfl := Except.ok.inj success
  rfl

/-- The number of rows of an inline data table that a snapshot sees. -/
def visibleRows (table : InlinedDataTable) (snapshotId : Int) : Nat :=
  ((table.batches.filter fun batch => batch.beginSnapshot ≤ snapshotId).map fun batch =>
    batch.data.numRows).sum

theorem fetchAllArrow_numRows
    (table : InlinedDataTable)
    (schema : Schema)
    (snapshotId : Int)
    (rows : StoredRows)
    (success : fetchAllArrow table schema snapshotId = .ok rows) :
    rows.numRows = visibleRows table snapshotId := by
  obtain ⟨columns, _, success⟩ := bind_eq_ok.mp success
  split at success
  · cases success
  · obtain rfl := Except.ok.inj success
    exact ((List.perm_insertionSort _ _).map _).sum_eq

end Ducklake.Io
