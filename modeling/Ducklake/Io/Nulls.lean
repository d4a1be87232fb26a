import Mathlib.Algebra.BigOperators.Group.List.Basic
import Mathlib.Algebra.GroupWithZero.Nat
import Ducklake.Io.RecordBatch

/-!
# Nulls in arrays

The logical values of an array, and the nulls that a column forbids in them.
-/

set_option autoImplicit false

namespace Ducklake.Io

/-! ## Logical values -/

/-- A logical value.  There is none behind the end of an array. -/
inductive Datum where
  | absent
  | null
  | scalar (value : Scalar)
  | list (items : List Datum)
  | struct (fields : List Datum)
  | map (keys values : List Datum)

namespace ArrowArray

/-- The positions of a child array that the list or map at an index covers. -/
def covered (start : Nat) (lengths : List Nat) (index : Nat) : List Nat :=
  List.range' (start + (lengths.take index).sum) (lengths.getD index 0)

mutual

/-- The logical value at an index: a null hides what is stored below it. -/
def datum (index : Nat) : ArrowArray → Datum
  | null length => if index < length then .null else .absent
  | leaf _ values =>
      match values[index]? with
      | none => .absent
      | some none => .null
      | some (some value) => .scalar value
  | list validity start lengths values =>
      match validity[index]? with
      | none => .absent
      | some false => .null
      | some true => .list ((covered start lengths index).map fun position => values.datum position)
  | struct validity fields =>
      match validity[index]? with
      | none => .absent
      | some false => .null
      | some true => .struct (datumFields index fields)
  | map validity start lengths keys values =>
      match validity[index]? with
      | none => .absent
      | some false => .null
      | some true => .map ((covered start lengths index).map fun position => keys.datum position)
          ((covered start lengths index).map fun position => values.datum position)

def datumFields (index : Nat) : List (Text × ArrowArray) → List Datum
  | [] => []
  | (_, array) :: rest => array.datum index :: datumFields index rest

end

end ArrowArray

/-! ## Forbidden nulls -/

mutual

/-- A value has a null that its column forbids, with nothing above it that is null. -/
def Forbidden : Column → Datum → Prop
  | .mk _ dtype nullable _ _ _ _, datum => (nullable = false ∧ datum = .null) ∨
      ForbiddenBelow dtype datum

def ForbiddenBelow : DataType → Datum → Prop
  | .primitive _, _ => False
  | .list inner, datum =>
      match datum with
      | .list items => ∃ item ∈ items, Forbidden inner item
      | _ => False
  | .struct columns, datum =>
      match datum with
      | .struct fields => ForbiddenFields columns fields
      | _ => False
  | .map key value, datum =>
      match datum with
      | .map keys values => (∃ entry ∈ keys, Forbidden key entry) ∨
          ∃ entry ∈ values, Forbidden value entry
      | _ => False

def ForbiddenFields : List Column → List Datum → Prop
  | [], _ => False
  | column :: columns, data =>
      match data with
      | [] => False
      | datum :: rest => Forbidden column datum ∨ ForbiddenFields columns rest

end

/-! ## Nulls that are read

Every stored null that a check reads is listed by whether a row shows it. -/

/-- The positions of a child array that lists or maps at shown positions cover. -/
def coveredBy (shown : Nat → Bool) (validity : List Bool) (start : Nat) (lengths : List Nat)
    (position : Nat) : Bool :=
  (List.range validity.length).any fun index =>
    shown index && validity[index]? == some true &&
      (ArrowArray.covered start lengths index).contains position

/-- The positions of the children of structs at shown positions. -/
def insideOf (shown : Nat → Bool) (validity : List Bool) (position : Nat) : Bool :=
  shown position && validity[position]? == some true

/-- The nulls of an array, without those below a null of the parent. -/
def ownNulls (shown : Nat → Bool) (parent : Option (List Bool)) (column : Column)
    (array : ArrowArray) : List Bool :=
  if column.nullable then []
  else ((List.range array.validity.length).filter fun index =>
    array.validity[index]? == some false && match parent with
      | none => true
      | some validity => validity[index]? == some true).map shown

def fieldNulls (shown : Nat → Bool) (parent : Option (List Bool))
    (fields : List (Column × ArrowArray)) : List Bool :=
  fields.flatMap fun field => ownNulls shown parent field.1 field.2

mutual

/-- The nulls that `match_column` reads in the children of an array. -/
def nullsBelow (shown : Nat → Bool) (array : ArrowArray) : DataType → List Bool
  | .primitive _ => []
  | .list inner =>
      match array with
      | .list validity start lengths values =>
          nullsOfChild (coveredBy shown validity start lengths) values inner
      | _ => []
  | .struct columns =>
      match array with
      | .struct validity fields =>
          nullsOfFields (insideOf shown validity) (fields.map Prod.snd) columns ++
            fieldNulls shown (some validity) (columns.zip (fields.map Prod.snd))
      | _ => []
  | .map key value =>
      match array with
      | .map validity start lengths keys values =>
          nullsOfChild (coveredBy shown validity start lengths) keys key ++
            nullsOfChild (coveredBy shown validity start lengths) values value
      | _ => []

/-- The whole child array of lists or maps is read. -/
def nullsOfChild (shown : Nat → Bool) (array : ArrowArray) : Column → List Bool
  | .mk name dtype nullable tags initialDefault defaultValue fieldId =>
      nullsBelow shown array dtype ++
        ownNulls shown none (.mk name dtype nullable tags initialDefault defaultValue fieldId) array

def nullsOfFields (shown : Nat → Bool) (arrays : List ArrowArray) : List Column → List Bool
  | [] => []
  | .mk _ dtype _ _ _ _ _ :: columns =>
      match arrays with
      | [] => []
      | array :: arrays => nullsBelow shown array dtype ++ nullsOfFields shown arrays columns

end

structure Leaf where
  id : Int
  column : Column
  type : PrimitiveType
  values : List (Option Scalar)
  shown : Nat → Bool

/-- All nulls of a leaf, also those below a null. -/
def Leaf.nulls (leaf : Leaf) : List Bool :=
  ((List.range leaf.values.length).filter fun index => leaf.values[index]? == some none).map leaf.shown

mutual

/-- The leaves of an array: of a list, only the part that it covers. -/
def leafArrays (shown : Nat → Bool) (array : ArrowArray) : Column → List Leaf
  | .mk name dtype nullable tags initialDefault defaultValue fieldId =>
      leafArraysBelow shown array (.mk name dtype nullable tags initialDefault defaultValue fieldId) dtype

def leafArraysBelow (shown : Nat → Bool) (array : ArrowArray) (column : Column) : DataType → List Leaf
  | .primitive type =>
      match column.fieldId, array with
      | some id, .leaf _ values => [⟨id, column, type, values, shown⟩]
      | _, _ => []
  | .list inner =>
      match array with
      | .list validity start lengths values =>
          leafArrays (fun position => coveredBy shown validity start lengths (start + position))
            (values.slice start lengths.sum) inner
      | _ => []
  | .struct columns =>
      match array with
      | .struct validity fields =>
          leafArraysOfFields (insideOf shown validity) (fields.map Prod.snd) columns
      | _ => []
  | .map key value =>
      match array with
      | .map validity start lengths keys values =>
          leafArrays (coveredBy shown validity start lengths) keys key ++
            leafArrays (coveredBy shown validity start lengths) values value
      | _ => []

def leafArraysOfFields (shown : Nat → Bool) (arrays : List ArrowArray) : List Column → List Leaf
  | [] => []
  | column :: columns =>
      match arrays with
      | [] => []
      | array :: arrays => leafArrays shown array column ++ leafArraysOfFields shown arrays columns

end

/-- The nulls that the statistics of a leaf show. -/
def Leaf.forbiddenNulls (leaf : Leaf) : List Bool :=
  if leaf.column.nullable then [] else leaf.nulls

/-! ## Batches -/

namespace RecordBatch

def rows (batch : RecordBatch) : List (List Datum) :=
  (List.range batch.numRows).map fun index => ArrowArray.datumFields index batch.columns

def isRow (batch : RecordBatch) (index : Nat) : Bool :=
  decide (index < batch.numRows)

/-- The leaves of a batch with the columns of a schema. -/
def leafArrays (columns : List Column) (batch : RecordBatch) : List Leaf :=
  leafArraysOfFields batch.isRow (batch.columns.map Prod.snd) columns

/-- The nulls of columns that are not nullable, as far as the checks of an inline write read them:
for each of them, whether a row shows it. -/
def nullsRead (columns : List Column) (batch : RecordBatch) : List Bool :=
  nullsOfFields batch.isRow (batch.columns.map Prod.snd) columns ++
    fieldNulls batch.isRow none (columns.zip (batch.columns.map Prod.snd)) ++
      (batch.leafArrays columns).flatMap Leaf.forbiddenNulls

end RecordBatch

/-! ## A shown null is a forbidden one -/

theorem forbidden_iff (column : Column) (datum : Datum) :
    Forbidden column datum ↔ (column.nullable = false ∧ datum = .null) ∨
      ForbiddenBelow column.dtype datum := by
  cases column
  rw [Forbidden]
  rfl

theorem forbiddenFields_iff (columns : List Column) (data : List Datum) :
    ForbiddenFields columns data ↔ ∃ entry ∈ columns.zip data, Forbidden entry.1 entry.2 := by
  induction columns generalizing data with
  | nil => simp [ForbiddenFields]
  | cons column columns ih =>
      cases data with
      | nil => simp [ForbiddenFields]
      | cons datum rest => simp [ForbiddenFields, ih]

namespace ArrowArray

theorem datumFields_eq (index : Nat) (fields : List (Text × ArrowArray)) :
    datumFields index fields = (fields.map Prod.snd).map fun array => array.datum index := by
  induction fields with
  | nil => rfl
  | cons field rest ih =>
      rw [datumFields, ih]
      rfl

theorem datum_eq_null_iff (array : ArrowArray) (index : Nat) :
    array.datum index = .null ↔ array.validity[index]? = some false := by
  cases array with
  | null length =>
      simp only [datum, validity, List.getElem?_replicate]
      split <;> simp
  | leaf type values =>
      simp only [datum, validity, List.getElem?_map]
      rcases values[index]? with _ | _ | value <;> simp
  | list validity start lengths values | struct validity fields
  | map validity start lengths keys values =>
      simp only [datum, ArrowArray.validity]
      rcases validity[index]? with _ | _ | _ <;> simp

end ArrowArray

theorem coveredBy_iff
    (shown : Nat → Bool)
    (validity : List Bool)
    (start : Nat)
    (lengths : List Nat)
    (position : Nat) :
    coveredBy shown validity start lengths position = true ↔
      ∃ index, shown index = true ∧ validity[index]? = some true ∧
        position ∈ ArrowArray.covered start lengths index := by
  unfold coveredBy
  rw [List.any_eq_true]
  constructor
  · rintro ⟨index, _, covers⟩
    simp only [Bool.and_eq_true, beq_iff_eq, List.contains_iff_mem] at covers
    exact ⟨index, covers.1.1, covers.1.2, covers.2⟩
  · rintro ⟨index, visible, valid, covers⟩
    refine ⟨index, List.mem_range.mpr (List.getElem?_eq_some_iff.mp valid).1, ?_⟩
    simp [visible, valid, covers]

/-- What holds at a covered position holds in a list or map at a shown position. -/
theorem exists_coveredBy_iff
    (shown : Nat → Bool)
    (validity : List Bool)
    (start : Nat)
    (lengths : List Nat)
    (holds : Nat → Prop) :
    (∃ position, coveredBy shown validity start lengths position = true ∧ holds position) ↔
      ∃ index, shown index = true ∧ validity[index]? = some true ∧
        ∃ position ∈ ArrowArray.covered start lengths index, holds position := by
  constructor
  · rintro ⟨position, covers, found⟩
    obtain ⟨index, visible, valid, inside⟩ := (coveredBy_iff _ _ _ _ _).mp covers
    exact ⟨index, visible, valid, position, inside, found⟩
  · rintro ⟨index, visible, valid, position, inside, found⟩
    exact ⟨position, (coveredBy_iff _ _ _ _ _).mpr ⟨index, visible, valid, inside⟩, found⟩

theorem insideOf_iff (shown : Nat → Bool) (validity : List Bool) (position : Nat) :
    insideOf shown validity position = true ↔
      shown position = true ∧ validity[position]? = some true := by
  simp [insideOf]

theorem true_mem_ownNulls
    (shown : Nat → Bool)
    (parent : Option (List Bool))
    (column : Column)
    (array : ArrowArray) :
    true ∈ ownNulls shown parent column array ↔
      ∃ index, shown index = true ∧ (column.nullable = false ∧ array.datum index = .null) ∧
        ∀ validity, parent = some validity → validity[index]? = some true := by
  unfold ownNulls
  split
  · rename_i nullable
    simp [nullable]
  · rename_i required
    have required : column.nullable = false := by simpa using required
    rw [List.mem_map]
    constructor
    · rintro ⟨index, kept, visible⟩
      obtain ⟨_, kept⟩ := List.mem_filter.mp kept
      obtain ⟨null, valid⟩ := Bool.and_eq_true_iff.mp kept
      refine ⟨index, visible, ⟨required, (array.datum_eq_null_iff index).mpr (by simpa using null)⟩,
        ?_⟩
      rintro validity rfl
      simpa using valid
    · rintro ⟨index, visible, ⟨_, null⟩, valid⟩
      have null := (array.datum_eq_null_iff index).mp null
      refine ⟨index, List.mem_filter.mpr ⟨List.mem_range.mpr (List.getElem?_eq_some_iff.mp null).1,
        ?_⟩, visible⟩
      cases parent with
      | none => simp [null]
      | some validity => simp [null, valid validity rfl]

theorem true_mem_fieldNulls
    (shown : Nat → Bool)
    (parent : Option (List Bool))
    (fields : List (Column × ArrowArray)) :
    true ∈ fieldNulls shown parent fields ↔
      ∃ index, shown index = true ∧
        (∀ validity, parent = some validity → validity[index]? = some true) ∧
        ∃ field ∈ fields, field.1.nullable = false ∧ field.2.datum index = .null := by
  unfold fieldNulls
  rw [List.mem_flatMap]
  constructor
  · rintro ⟨field, member, found⟩
    obtain ⟨index, visible, null, valid⟩ := (true_mem_ownNulls _ _ _ _).mp found
    exact ⟨index, visible, valid, field, member, null⟩
  · rintro ⟨index, visible, valid, field, member, null⟩
    exact ⟨field, member, (true_mem_ownNulls _ _ _ _).mpr ⟨index, visible, null, valid⟩⟩

theorem forbiddenFields_datumFields
    (columns : List Column)
    (index : Nat)
    (fields : List (Text × ArrowArray)) :
    ForbiddenFields columns (ArrowArray.datumFields index fields) ↔
      (∃ entry ∈ columns.zip (fields.map Prod.snd),
        ForbiddenBelow entry.1.dtype (entry.2.datum index)) ∨
      ∃ entry ∈ columns.zip (fields.map Prod.snd),
        entry.1.nullable = false ∧ entry.2.datum index = .null := by
  rw [forbiddenFields_iff, ArrowArray.datumFields_eq, List.zip_map_right]
  simp only [List.mem_map, forbidden_iff]
  constructor
  · rintro ⟨_, ⟨entry, member, rfl⟩, own | below⟩
    · exact Or.inr ⟨entry, member, own⟩
    · exact Or.inl ⟨entry, member, below⟩
  · rintro (⟨entry, member, below⟩ | ⟨entry, member, own⟩)
    · exact ⟨_, ⟨entry, member, rfl⟩, Or.inr below⟩
    · exact ⟨_, ⟨entry, member, rfl⟩, Or.inl own⟩

mutual

theorem true_mem_nullsBelow (shown : Nat → Bool) (array : ArrowArray) : ∀ dtype : DataType,
    true ∈ nullsBelow shown array dtype ↔
      ∃ index, shown index = true ∧ ForbiddenBelow dtype (array.datum index)
  | .primitive _ => by simp [nullsBelow, ForbiddenBelow]
  | .list inner => by
      cases array with
      | list validity start lengths values =>
          rw [nullsBelow, true_mem_nullsOfChild, exists_coveredBy_iff]
          refine exists_congr fun index => and_congr_right fun _ => ?_
          simp only [ArrowArray.datum]
          rcases validity[index]? with _ | _ | _ <;> simp [ForbiddenBelow]
      | _ =>
          simp only [nullsBelow, ArrowArray.datum, List.not_mem_nil, false_iff, not_exists, not_and]
          intro index _
          split <;> simp [ForbiddenBelow]
  | .struct columns => by
      cases array with
      | struct validity fields =>
          have fieldsOf : ∀ index, ForbiddenBelow (.struct columns)
              ((ArrowArray.struct validity fields).datum index) ↔ validity[index]? = some true ∧
                ForbiddenFields columns (ArrowArray.datumFields index fields) := by
            intro index
            simp only [ArrowArray.datum]
            rcases validity[index]? with _ | _ | _ <;> simp [ForbiddenBelow]
          rw [nullsBelow, List.mem_append, true_mem_nullsOfFields, true_mem_fieldNulls, ← exists_or]
          refine exists_congr fun index => ?_
          rw [fieldsOf, forbiddenFields_datumFields, insideOf_iff]
          simp only [Option.some.injEq, forall_eq', and_assoc, ← and_or_left]
      | _ =>
          simp only [nullsBelow, ArrowArray.datum, List.not_mem_nil, false_iff, not_exists, not_and]
          intro index _
          split <;> simp [ForbiddenBelow]
  | .map key value => by
      cases array with
      | map validity start lengths keys values =>
          rw [nullsBelow, List.mem_append, true_mem_nullsOfChild, true_mem_nullsOfChild,
            exists_coveredBy_iff, exists_coveredBy_iff, ← exists_or]
          refine exists_congr fun index => ?_
          rw [← and_or_left]
          refine and_congr_right fun _ => ?_
          simp only [ArrowArray.datum]
          rcases validity[index]? with _ | _ | _ <;> simp [ForbiddenBelow]
      | _ =>
          simp only [nullsBelow, ArrowArray.datum, List.not_mem_nil, false_iff, not_exists, not_and]
          intro index _
          split <;> simp [ForbiddenBelow]

theorem true_mem_nullsOfChild (shown : Nat → Bool) (array : ArrowArray) : ∀ column : Column,
    true ∈ nullsOfChild shown array column ↔
      ∃ index, shown index = true ∧ Forbidden column (array.datum index)
  | .mk name dtype nullable tags initialDefault defaultValue fieldId => by
      have below := true_mem_nullsBelow shown array dtype
      rw [nullsOfChild, List.mem_append, below, true_mem_ownNulls]
      simp only [forbidden_iff]
      constructor
      · rintro (⟨index, visible, found⟩ | ⟨index, visible, own, _⟩)
        · exact ⟨index, visible, Or.inr found⟩
        · exact ⟨index, visible, Or.inl own⟩
      · rintro ⟨index, visible, own | found⟩
        · exact Or.inr ⟨index, visible, own, by simp⟩
        · exact Or.inl ⟨index, visible, found⟩

theorem true_mem_nullsOfFields (shown : Nat → Bool) (arrays : List ArrowArray) :
    ∀ columns : List Column, true ∈ nullsOfFields shown arrays columns ↔
      ∃ index, shown index = true ∧
        ∃ entry ∈ columns.zip arrays, ForbiddenBelow entry.1.dtype (entry.2.datum index)
  | [] => by simp [nullsOfFields]
  | .mk name dtype nullable tags initialDefault defaultValue fieldId :: columns => by
      cases arrays with
      | nil => simp [nullsOfFields]
      | cons array arrays =>
          rw [nullsOfFields, List.mem_append, true_mem_nullsBelow, true_mem_nullsOfFields,
            ← exists_or]
          refine exists_congr fun index => ?_
          rw [← and_or_left, List.zip_cons_cons, List.exists_mem_cons_iff]
          rfl

end

/-! ## Nulls of leaves -/

namespace ArrowArray

theorem covered_slice
    (start offset length : Nat)
    (lengths : List Nat)
    (index : Nat)
    (inside : index < length) :
    covered (start + (lengths.take offset).sum) ((lengths.drop offset).take length) index =
      covered start lengths (offset + index) := by
  have sums : (lengths.take (offset + index)).sum =
      (lengths.take offset).sum + ((lengths.drop offset).take index).sum := by
    rw [List.take_add, List.sum_append]
  have short : ((lengths.drop offset).take length).take index = (lengths.drop offset).take index := by
    rw [List.take_take, Nat.min_eq_left (Nat.le_of_lt inside)]
  unfold covered
  rw [sums, short, Nat.add_assoc]
  simp [List.getD_eq_getElem?_getD, inside]

theorem getElem?_part
    {α : Type}
    (items : List α)
    (offset length index : Nat) :
    ((items.drop offset).take length)[index]? =
      if index < length then items[offset + index]? else none := by
  rw [List.getElem?_take, List.getElem?_drop]

mutual

theorem datum_slice (offset length index : Nat) : ∀ array : ArrowArray,
    (array.slice offset length).datum index =
      if index < length then array.datum (offset + index) else .absent
  | .null total => by
      by_cases inside : index < length
      · have same : index < min length (total - offset) ↔ offset + index < total := by omega
        simp only [slice, datum, same, if_pos inside]
      · have outside : ¬ index < min length (total - offset) := by omega
        simp only [slice, datum, if_neg outside, if_neg inside]
  | .leaf type values => by
      by_cases inside : index < length
      · simp only [slice, datum, getElem?_part, if_pos inside]
      · simp only [slice, datum, getElem?_part, if_neg inside]
  | .list validity start lengths values => by
      by_cases inside : index < length
      · simp only [slice, datum, getElem?_part, if_pos inside,
          covered_slice start offset length lengths index inside]
      · simp only [slice, datum, getElem?_part, if_neg inside]
  | .struct validity fields => by
      by_cases inside : index < length
      · simp only [slice, datum, getElem?_part, if_pos inside,
          datumFields_slice offset length index inside fields]
      · simp only [slice, datum, getElem?_part, if_neg inside]
  | .map validity start lengths keys values => by
      by_cases inside : index < length
      · simp only [slice, datum, getElem?_part, if_pos inside,
          covered_slice start offset length lengths index inside]
      · simp only [slice, datum, getElem?_part, if_neg inside]

theorem datumFields_slice (offset length index : Nat) (inside : index < length) :
    ∀ fields : List (Text × ArrowArray),
      datumFields index (sliceFields offset length fields) = datumFields (offset + index) fields
  | [] => rfl
  | (name, array) :: rest => by
      rw [sliceFields, datumFields, datumFields, datum_slice offset length index array,
        if_pos inside, datumFields_slice offset length index inside rest]

end

end ArrowArray

theorem Leaf.shown_of_forbiddenNulls
    (leaf : Leaf)
    (found : true ∈ leaf.forbiddenNulls) :
    leaf.column.nullable = false ∧
      ∃ index, leaf.shown index = true ∧ leaf.values[index]? = some none := by
  unfold Leaf.forbiddenNulls at found
  split at found
  · cases found
  · rename_i required
    obtain ⟨index, kept, visible⟩ := List.mem_map.mp found
    exact ⟨by simpa using required, index, visible, by simpa using (List.mem_filter.mp kept).2⟩

theorem not_forbidden_absent (column : Column) : ¬ Forbidden column .absent := by
  rw [forbidden_iff]
  cases column.dtype <;> simp [ForbiddenBelow]

mutual

theorem forbidden_of_leaf (shown : Nat → Bool) (array : ArrowArray) : ∀ column : Column,
    ∀ leaf ∈ leafArrays shown array column, true ∈ leaf.forbiddenNulls →
      ∃ index, shown index = true ∧ Forbidden column (array.datum index)
  | .mk name dtype nullable tags initialDefault defaultValue fieldId => by
      intro leaf member found
      rw [leafArrays] at member
      obtain ⟨index, visible, forbidden⟩ := forbidden_of_leafBelow shown array
        (.mk name dtype nullable tags initialDefault defaultValue fieldId) dtype leaf member found
      exact ⟨index, visible, (forbidden_iff _ _).mpr forbidden⟩

theorem forbidden_of_leafBelow (shown : Nat → Bool) (array : ArrowArray) (column : Column) :
    ∀ dtype : DataType, ∀ leaf ∈ leafArraysBelow shown array column dtype,
      true ∈ leaf.forbiddenNulls → ∃ index, shown index = true ∧
        ((column.nullable = false ∧ array.datum index = .null) ∨
          ForbiddenBelow dtype (array.datum index))
  | .primitive type => by
      intro leaf member found
      cases array with
      | leaf source values =>
          simp only [leafArraysBelow] at member
          cases identified : column.fieldId with
          | none => simp [identified] at member
          | some id =>
              obtain ⟨required, index, visible, null⟩ := leaf.shown_of_forbiddenNulls found
              rw [identified] at member
              obtain rfl := List.mem_singleton.mp member
              refine ⟨index, visible, Or.inl ⟨required, ?_⟩⟩
              simp only [ArrowArray.datum]
              rw [null]
      | _ => simp [leafArraysBelow] at member
  | .list inner => by
      intro leaf member found
      cases array with
      | list validity start lengths values =>
          rw [leafArraysBelow] at member
          obtain ⟨position, visible, forbidden⟩ := forbidden_of_leaf _ _ inner leaf member found
          rw [ArrowArray.datum_slice] at forbidden
          split at forbidden
          · obtain ⟨index, visible, forbidden⟩ := (true_mem_nullsBelow shown
              (.list validity start lengths values) (.list inner)).mp
              ((true_mem_nullsOfChild _ values inner).mpr ⟨start + position, visible, forbidden⟩)
            exact ⟨index, visible, Or.inr forbidden⟩
          · exact absurd forbidden (not_forbidden_absent inner)
      | _ => simp [leafArraysBelow] at member
  | .struct columns => by
      intro leaf member found
      cases array with
      | struct validity fields =>
          rw [leafArraysBelow] at member
          obtain ⟨index, visible, forbidden⟩ :=
            forbidden_of_leafOfFields _ _ columns leaf member found
          obtain ⟨visible, valid⟩ := (insideOf_iff _ _ _).mp visible
          refine ⟨index, visible, Or.inr ?_⟩
          simp only [ArrowArray.datum]
          rw [valid]
          refine (forbiddenFields_iff _ _).mpr ?_
          rwa [ArrowArray.datumFields_eq]
      | _ => simp [leafArraysBelow] at member
  | .map key value => by
      intro leaf member found
      cases array with
      | map validity start lengths keys values =>
          have shows : true ∈ nullsBelow shown (.map validity start lengths keys values)
              (.map key value) := by
            rw [nullsBelow, List.mem_append, true_mem_nullsOfChild, true_mem_nullsOfChild]
            rw [leafArraysBelow] at member
            rcases List.mem_append.mp member with ofKey | ofValue
            · exact Or.inl (forbidden_of_leaf _ keys key leaf ofKey found)
            · exact Or.inr (forbidden_of_leaf _ values value leaf ofValue found)
          obtain ⟨index, visible, forbidden⟩ := (true_mem_nullsBelow _ _ _).mp shows
          exact ⟨index, visible, Or.inr forbidden⟩
      | _ => simp [leafArraysBelow] at member

theorem forbidden_of_leafOfFields (shown : Nat → Bool) (arrays : List ArrowArray) :
    ∀ columns : List Column, ∀ leaf ∈ leafArraysOfFields shown arrays columns,
      true ∈ leaf.forbiddenNulls → ∃ index, shown index = true ∧
        ∃ entry ∈ columns.zip (arrays.map (ArrowArray.datum index)), Forbidden entry.1 entry.2
  | [] => by simp [leafArraysOfFields]
  | column :: columns => by
      intro leaf member found
      cases arrays with
      | nil => cases member
      | cons array arrays =>
          rw [leafArraysOfFields] at member
          rcases List.mem_append.mp member with first | later
          · obtain ⟨index, visible, forbidden⟩ :=
              forbidden_of_leaf shown array column leaf first found
            exact ⟨index, visible, (column, array.datum index), by simp, forbidden⟩
          · obtain ⟨index, visible, entry, inside, forbidden⟩ :=
              forbidden_of_leafOfFields shown arrays columns leaf later found
            exact ⟨index, visible, entry, List.mem_cons_of_mem _ inside, forbidden⟩

end

/-! ## Batches with forbidden nulls -/

theorem RecordBatch.true_mem_nullsRead
    (columns : List Column)
    (batch : RecordBatch) :
    true ∈ batch.nullsRead columns ↔ ∃ row ∈ batch.rows, ForbiddenFields columns row := by
  have rows : (∃ row ∈ batch.rows, ForbiddenFields columns row) ↔
      ∃ index, batch.isRow index = true ∧
        ForbiddenFields columns (ArrowArray.datumFields index batch.columns) := by
    simp [RecordBatch.rows, RecordBatch.isRow]
  have matched : true ∈ nullsOfFields batch.isRow (batch.columns.map Prod.snd) columns ++
      fieldNulls batch.isRow none (columns.zip (batch.columns.map Prod.snd)) ↔
        ∃ row ∈ batch.rows, ForbiddenFields columns row := by
    rw [rows, List.mem_append, true_mem_nullsOfFields, true_mem_fieldNulls, ← exists_or]
    refine exists_congr fun index => ?_
    rw [forbiddenFields_datumFields, ← and_or_left]
    simp
  unfold RecordBatch.nullsRead
  rw [List.mem_append, matched, or_iff_left_iff_imp]
  intro inLeaf
  obtain ⟨leaf, member, found⟩ := List.mem_flatMap.mp inLeaf
  obtain ⟨index, visible, forbidden⟩ := forbidden_of_leafOfFields _ _ columns leaf member found
  rw [rows]
  refine ⟨index, visible, (forbiddenFields_iff _ _).mpr ?_⟩
  rwa [ArrowArray.datumFields_eq]

end Ducklake.Io
