import Ducklake.Io.Conversion
import Ducklake.Transaction.Changes.AppliedChange

/-!
# Arrow fields

`typedefs/schema/arrow.rs`: columns as Arrow fields and back, with the field ids and the extension
types that are kept in the metadata of a field.
-/

set_option autoImplicit false

namespace Ducklake.Io

open Lib

/-! ## Fields -/

abbrev Metadata := IndexMap Text Text

mutual

inductive ArrowType where
  | leaf (type : LeafType)
  | list (inner : ArrowField)
  | largeList (inner : ArrowField)
  | struct (fields : List ArrowField)
  | map (entries : ArrowField) (sorted : Bool)

inductive ArrowField where
  | mk (name : Text) (dataType : ArrowType) (nullable : Bool) (metadata : Metadata)

end

def extensionNameKey : Text := "ARROW:extension:name".toList

def extensionMetadataKey : Text := "ARROW:extension:metadata".toList

def parquetFieldIdKey : Text := "PARQUET:field_id".toList

def opaqueNames : List Text :=
  ["hugeint".toList, "uhugeint".toList, "time_tz".toList]

/-- The metadata of the extension types of `arrow_schema`, which reads what it has written. -/
structure ExtensionTypes where
  opaqueText : Text → Text
  readOpaque : Text → Option Text
  jsonText : Text
  readsJson : Option Text → Bool
  readOpaque_opaqueText : ∀ typeName ∈ opaqueNames,
    readOpaque (opaqueText typeName) = some typeName
  readsJson_jsonText : readsJson (some jsonText) = true

/-- The extension type that `try_extension_type` finds in the metadata of a field. -/
def ExtensionTypes.extension (types : ExtensionTypes) (metadata : Metadata) : Option Extension :=
  match metadata.get? extensionNameKey with
  | none => none
  | some name =>
      let text := metadata.get? extensionMetadataKey
      if name = "arrow.opaque".toList then (text.bind types.readOpaque).map .opaque_
      else if name = "arrow.json".toList then if types.readsJson text then some .json else none
      else if name = "arrow.uuid".toList then if text = none then some .uuid else none
      else if name = "geoarrow.wkb".toList then some .geoarrowWkb
      else none

/-! ## Columns to fields -/

def ofExtension (name : String) (text : Option Text) : Metadata :=
  match text with
  | some text =>
      (IndexMap.empty.insert extensionNameKey name.toList).insert extensionMetadataKey text
  | none => IndexMap.empty.insert extensionNameKey name.toList

def ExtensionTypes.metadata (types : ExtensionTypes) : DataType → Metadata
  | .primitive .int128 => ofExtension "arrow.opaque" (some (types.opaqueText "hugeint".toList))
  | .primitive .uint128 => ofExtension "arrow.opaque" (some (types.opaqueText "uhugeint".toList))
  | .primitive .timeTz => ofExtension "arrow.opaque" (some (types.opaqueText "time_tz".toList))
  | .primitive .json => ofExtension "arrow.json" (some types.jsonText)
  | .primitive .variant => ofExtension "arrow.parquet.variant" none
  | .primitive .geometry => ofExtension "geoarrow.wkb" (some "\x7b\x7d".toList)
  | .primitive .uuid => ofExtension "arrow.uuid" none
  | _ => .empty

def withFieldId (fieldId : Option Int) (metadata : Metadata) : Metadata :=
  match fieldId with
  | some fieldId => metadata.insert parquetFieldIdKey (Transaction.displayId fieldId)
  | none => metadata

mutual

def toArrowField (types : ExtensionTypes) : Column → ArrowField
  | .mk name dtype nullable _ _ _ fieldId =>
      .mk name (toArrowType types dtype) nullable (withFieldId fieldId (types.metadata dtype))

def toArrowType (types : ExtensionTypes) : DataType → ArrowType
  | .primitive .variant =>
      .struct [.mk "metadata".toList (.leaf .binary) false .empty,
        .mk "value".toList (.leaf .binary) true .empty]
  | .primitive type => .leaf (.ofType type)
  | .list inner => .largeList (toArrowField types inner)
  | .struct fields => .struct (toArrowFields types fields)
  | .map key value =>
      .map (.mk "entries".toList (.struct [toArrowField types key, toArrowField types value]) false
        .empty) false

def toArrowFields (types : ExtensionTypes) : List Column → List ArrowField
  | [] => []
  | field :: fields => toArrowField types field :: toArrowFields types fields

end

/-! ## Fields to columns -/

/-- `str::parse` for `i64` -/
def parseFieldId (text : Text) : Option Int :=
  (Transaction.parseId text).toOption

def Column.named (name : Text) : Column → Column
  | .mk _ dtype nullable tags initialDefault defaultValue fieldId =>
      .mk name dtype nullable tags initialDefault defaultValue fieldId

mutual

def ofArrowField (types : ExtensionTypes) : ArrowField → DucklakeResult Column
  | .mk name dataType nullable metadata => do
      let dtype ← ofArrowType types metadata dataType
      return .mk name dtype nullable .empty none (.literal none)
        ((metadata.get? parquetFieldIdKey).bind parseFieldId)

def ofArrowType (types : ExtensionTypes) (metadata : Metadata) :
    ArrowType → DucklakeResult DataType
  | .leaf type => (LeafField.dtype ⟨type, types.extension metadata⟩).map .primitive
  | .list inner | .largeList inner => do
      let innerType ← ofArrowField types inner
      return .list (Column.named "element".toList innerType)
  | .struct fields =>
      if metadata.get? extensionNameKey = some "arrow.parquet.variant".toList then
        .ok (.primitive .variant)
      else (ofArrowFields types fields).map .struct
  | .map (.mk _ (.struct (key :: value :: _)) _ _) _ => do
      let keyType ← ofArrowField types key
      let valueType ← ofArrowField types value
      return .map keyType valueType
  | .map (.mk _ (.struct [key]) _ _) _ => do
      let _ ← ofArrowField types key
      .error (.panicked "index out of bounds".toList)
  | .map (.mk _ (.struct []) _ _) _ => .error (.panicked "index out of bounds".toList)
  | .map _ _ => .error (.panicked "map entries field must have a struct data type".toList)

def ofArrowFields (types : ExtensionTypes) : List ArrowField → DucklakeResult (List Column)
  | [] => .ok []
  | field :: fields => do
      let column ← ofArrowField types field
      let columns ← ofArrowFields types fields
      return column :: columns

end

/-! ## What a field keeps -/

mutual

/-- A column with what an Arrow field keeps of it: names, types, nullability and field ids.  The
child of a list has a fixed name. -/
def Column.kept : Column → Column
  | .mk name dtype nullable _ _ _ fieldId =>
      .mk name (DataType.kept dtype) nullable .empty none (.literal none) fieldId

def DataType.kept : DataType → DataType
  | .primitive type => .primitive type
  | .list inner => .list (Column.named "element".toList (Column.kept inner))
  | .struct fields => .struct (keptFields fields)
  | .map key value => .map (Column.kept key) (Column.kept value)

def keptFields : List Column → List Column
  | [] => []
  | field :: fields => Column.kept field :: keptFields fields

end

mutual

/-- The numbers of a column are in the ranges of their types: bytes in a decimal type, and `i64`
for field ids. -/
def Column.isInRange : Column → Bool
  | .mk _ dtype _ _ _ _ fieldId =>
      DataType.isInRange dtype && fieldId.all fun id => -2 ^ 63 ≤ id ∧ id < 2 ^ 63

def DataType.isInRange : DataType → Bool
  | .primitive (.decimal precision scale) => precision < 256 ∧ scale < 256
  | .primitive _ => true
  | .list inner => Column.isInRange inner
  | .struct fields => fieldsInRange fields
  | .map key value => Column.isInRange key && Column.isInRange value

def fieldsInRange : List Column → Bool
  | [] => true
  | field :: fields => Column.isInRange field && fieldsInRange fields

end

/-! ## Round trip -/

section

variable (types : ExtensionTypes)

theorem get?_withFieldId (fieldId : Option Int) (metadata : Metadata) (key : Text)
    (other : key ≠ parquetFieldIdKey) :
    (withFieldId fieldId metadata).get? key = metadata.get? key := by
  cases fieldId with
  | none => rfl
  | some id => exact IndexMap.get?_insert_of_ne metadata _ _ _ other

theorem extension_withFieldId (fieldId : Option Int) (metadata : Metadata) :
    types.extension (withFieldId fieldId metadata) = types.extension metadata := by
  rw [ExtensionTypes.extension, get?_withFieldId _ _ extensionNameKey (by decide),
    get?_withFieldId _ _ extensionMetadataKey (by decide)]
  rfl

theorem get?_ofExtension (name : String) (text : Option Text) :
    (ofExtension name text).get? extensionNameKey = some name.toList ∧
      (ofExtension name text).get? extensionMetadataKey = text ∧
      (ofExtension name text).get? parquetFieldIdKey = none := by
  have names : extensionNameKey ≠ extensionMetadataKey := by decide
  have ids : parquetFieldIdKey ≠ extensionNameKey ∧ parquetFieldIdKey ≠ extensionMetadataKey := by
    decide
  cases text <;> simp [ofExtension, IndexMap.get?_insert, names, names.symm, ids]

theorem extension_ofExtension (name : String) (text : Option Text) :
    types.extension (ofExtension name text) =
      if name.toList = "arrow.opaque".toList then (text.bind types.readOpaque).map .opaque_
      else if name.toList = "arrow.json".toList then if types.readsJson text then some .json else none
      else if name.toList = "arrow.uuid".toList then if text = none then some .uuid else none
      else if name.toList = "geoarrow.wkb".toList then some .geoarrowWkb
      else none := by
  obtain ⟨atName, atMetadata, -⟩ := get?_ofExtension name text
  rw [ExtensionTypes.extension, atName, atMetadata]

theorem extension_opaque (typeName : Text) (known : typeName ∈ opaqueNames) :
    types.extension (ofExtension "arrow.opaque" (some (types.opaqueText typeName))) =
      some (.opaque_ typeName) := by
  rw [extension_ofExtension, if_pos rfl, Option.bind_some,
    types.readOpaque_opaqueText typeName known, Option.map_some]

theorem fieldId_metadata (dtype : DataType) : (types.metadata dtype).get? parquetFieldIdKey = none := by
  unfold ExtensionTypes.metadata
  split
  all_goals first | exact (get?_ofExtension _ _).2.2 | rfl

theorem parseFieldId_displayId (id : Int) (fits : -2 ^ 63 ≤ id ∧ id < 2 ^ 63) :
    parseFieldId (Transaction.displayId id) = some id := by
  have read : Transaction.FitsI64 id := ⟨by omega, by omega⟩
  rw [parseFieldId, Transaction.parseId_displayId id read]
  rfl

theorem fieldId_toArrowField (dtype : DataType) (fieldId : Option Int)
    (fits : (fieldId.all fun id => -2 ^ 63 ≤ id ∧ id < 2 ^ 63) = true) :
    ((withFieldId fieldId (types.metadata dtype)).get? parquetFieldIdKey).bind parseFieldId =
      fieldId := by
  cases fieldId with
  | none => rw [withFieldId, fieldId_metadata, Option.bind_none]
  | some id =>
      rw [withFieldId, IndexMap.get?_insert_self, Option.bind_some]
      exact parseFieldId_displayId id (by simpa using fits)

theorem dtype_ofType (type : PrimitiveType) (plain : type ≠ .variant)
    (fits : DataType.isInRange (.primitive type) = true) :
    LeafField.dtype ⟨.ofType type, types.extension (types.metadata (.primitive type))⟩ =
      .ok type := by
  cases type with
  | variant => exact absurd rfl plain
  | decimal precision scale =>
      obtain ⟨_, scaleFits⟩ : precision < 256 ∧ scale < 256 := by simpa [DataType.isInRange] using fits
      simp only [LeafType.ofType, LeafField.dtype, Except.ok.injEq, PrimitiveType.decimal.injEq,
        true_and]
      split <;> omega
  | timestamp precision => cases precision <;> rfl
  | int128 =>
      rw [ExtensionTypes.metadata, extension_opaque types _ (by decide)]
      rfl
  | uint128 =>
      rw [ExtensionTypes.metadata, extension_opaque types _ (by decide)]
      rfl
  | timeTz =>
      rw [ExtensionTypes.metadata, extension_opaque types _ (by decide)]
      rfl
  | json =>
      have json : types.extension (types.metadata (.primitive .json)) = some .json := by
        rw [ExtensionTypes.metadata, extension_ofExtension, if_neg (by decide), if_pos rfl,
          types.readsJson_jsonText]
        rfl
      rw [json]
      rfl
  | _ => rfl

mutual

theorem ofArrowField_toArrowField : ∀ column : Column, Column.isInRange column = true →
    ofArrowField types (toArrowField types column) = .ok (Column.kept column)
  | .mk name dtype nullable tags initialDefault defaultValue fieldId => by
      intro fits
      rw [Column.isInRange, Bool.and_eq_true] at fits
      rw [toArrowField, ofArrowField, ofArrowType_toArrowType dtype fieldId fits.1, Column.kept]
      simp only [bind, Except.bind, pure, Except.pure]
      rw [fieldId_toArrowField types dtype fieldId fits.2]

theorem ofArrowType_toArrowType : ∀ (dtype : DataType) (fieldId : Option Int),
    DataType.isInRange dtype = true →
    ofArrowType types (withFieldId fieldId (types.metadata dtype)) (toArrowType types dtype) =
      .ok (DataType.kept dtype)
  | .primitive type => by
      intro fieldId fits
      by_cases variant : type = .variant
      · subst variant
        have named : (withFieldId fieldId (types.metadata (.primitive .variant))).get?
            extensionNameKey = some "arrow.parquet.variant".toList := by
          rw [get?_withFieldId _ _ _ (by decide)]
          exact (get?_ofExtension _ _).1
        rw [toArrowType, ofArrowType, if_pos named, DataType.kept]
      · rw [toArrowType, ofArrowType, extension_withFieldId, dtype_ofType types type variant fits,
          DataType.kept]
        · rfl
        · exact variant
  | .list inner => by
      intro fieldId fits
      rw [DataType.isInRange] at fits
      rw [toArrowType, ofArrowType, ofArrowField_toArrowField inner fits, DataType.kept]
      rfl
  | .struct fields => by
      intro fieldId fits
      rw [DataType.isInRange] at fits
      have unnamed : (withFieldId fieldId (types.metadata (.struct fields))).get?
          extensionNameKey = none :=
        get?_withFieldId _ _ _ (by decide)
      rw [toArrowType, ofArrowType, if_neg (by simp [unnamed]),
        ofArrowFields_toArrowFields fields fits, DataType.kept]
      rfl
  | .map key value => by
      intro fieldId fits
      rw [DataType.isInRange, Bool.and_eq_true] at fits
      rw [toArrowType, ofArrowType, ofArrowField_toArrowField key fits.1,
        ofArrowField_toArrowField value fits.2, DataType.kept]
      rfl

theorem ofArrowFields_toArrowFields : ∀ fields : List Column, fieldsInRange fields = true →
    ofArrowFields types (toArrowFields types fields) = .ok (keptFields fields)
  | [] => fun _ => rfl
  | field :: fields => by
      intro fits
      rw [fieldsInRange, Bool.and_eq_true] at fits
      rw [toArrowFields, ofArrowFields, ofArrowField_toArrowField field fits.1,
        ofArrowFields_toArrowFields fields fits.2, keptFields]
      rfl

end

end

/-- A column is read back from its field with its name, its nullability, its field id and its type,
in which the same holds of each column at any depth. -/
theorem arrowField_roundTrip
    (types : ExtensionTypes)
    (column : Column)
    (inRange : Column.isInRange column = true) :
    ∃ back, ofArrowField types (toArrowField types column) = .ok back ∧
      back.name = column.name ∧
      back.dtype = DataType.kept column.dtype ∧
      back.nullable = column.nullable ∧
      back.fieldId = column.fieldId := by
  refine ⟨Column.kept column, ofArrowField_toArrowField types column inRange, ?_⟩
  cases column with
  | mk => exact ⟨rfl, rfl, rfl, rfl⟩

def ExtensionTypes.json : ExtensionTypes where
  opaqueText typeName :=
    "\x7b\"type_name\":\"".toList ++ typeName ++ "\",\"vendor_name\":\"DuckLake\"\x7d".toList
  readOpaque text := opaqueNames.find? fun typeName =>
    text = "\x7b\"type_name\":\"".toList ++ typeName ++
      "\",\"vendor_name\":\"DuckLake\"\x7d".toList
  jsonText := "\x7b\x7d".toList
  readsJson text := text = some [] ∨ text = some "\x7b\x7d".toList
  readOpaque_opaqueText := by decide
  readsJson_jsonText := by decide

def wideInt : Column :=
  .mk "wide".toList (.primitive .int128) false .empty none (.literal none) (some 3)

/-- A list of structs of an extension type, with ids at each level. -/
def nestedColumn : Column :=
  .mk "items".toList (.list (.mk "item".toList (.struct [wideInt]) true .empty none (.literal none)
    (some 2))) true .empty none (.literal none) (some 1)

theorem arrowField_roundTrip_nestedColumn :
    ∃ back, ofArrowField .json (toArrowField .json nestedColumn) = .ok back ∧
      back.name = "items".toList ∧
      back.dtype = .list (.mk "element".toList (.struct [wideInt]) true .empty none (.literal none)
        (some 2)) ∧
      back.nullable = true ∧
      back.fieldId = some 1 :=
  arrowField_roundTrip .json nestedColumn (by decide)

end Ducklake.Io
