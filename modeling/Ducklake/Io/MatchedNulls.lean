import Ducklake.Io.Nulls
import Ducklake.Io.Schema
import Ducklake.Io.Statistics

/-!
# Nulls and matching

Matching a batch to a schema is a conversion to the types of the schema, and a check of the nulls
that it reads.
-/

set_option autoImplicit false

namespace Ducklake.Io

open Lib

/-! ## Conversion -/

mutual

/-- The conversion of an array to a type, whatever its nulls are. -/
def convertColumn (env : Environment) (array : ArrowArray) : DataType → DucklakeResult ArrowArray
  | .primitive target =>
      match array with
      | .null length => .ok (newNullArray length (.primitive target))
      | .leaf source values => matchLeaf source target values
      | _ => .error (.invalidCast (arrayTypeName array) target.display)
  | .list inner =>
      match array with
      | .null length => .ok (newNullArray length (.list inner))
      | .list validity start lengths values =>
          (convertChild env values inner).map fun values => .list validity start lengths values
      | _ => .error (.invalidCast (arrayTypeName array) "list".toList)
  | .struct columns =>
      match array with
      | .null length => .ok (newNullArray length (.struct columns))
      | .struct validity fields =>
          match firstDuplicate (fields.map Prod.fst) with
          | some name => .error (.schemaError ("duplicate field: ".toList ++ name))
          | none => (convertFields env fields validity.length columns).map fun arrays =>
              .struct validity ((columns.map Column.name).zip arrays)
      | _ => .error (.invalidCast (arrayTypeName array) "struct".toList)
  | .map key value =>
      match array with
      | .null length => .ok (newNullArray length (.map key value))
      | .map validity start lengths keys values => do
          let keys ← convertChild env keys key
          let values ← convertChild env values value
          .ok (.map validity start lengths keys values)
      | _ => .error (.invalidCast (arrayTypeName array) "map".toList)

def convertChild (env : Environment) (array : ArrowArray) : Column → DucklakeResult ArrowArray
  | .mk _ dtype .. => convertColumn env array dtype

def convertFields (env : Environment) (source : List (Text × ArrowArray)) (length : Nat) :
    List Column → DucklakeResult (List ArrowArray)
  | [] =>
      if source.isEmpty then .ok []
      else .error (.schemaError "unexpected columns in inline data".toList)
  | .mk name dtype nullable tags initialDefault defaultValue fieldId :: rest =>
      match takeField name source with
      | some (array, source) => do
          let array ← convertColumn env array dtype
          let arrays ← convertFields env source length rest
          .ok (array :: arrays)
      | none => do
          let array ← generateColumn env
            (.mk name dtype nullable tags initialDefault defaultValue fieldId) length
          let arrays ← convertFields env source length rest
          .ok (array :: arrays)

end

/-- A batch in the types of a schema, with the defaults of the columns that it does not have. -/
def convertToSchema (env : Environment) (batch : RecordBatch) (schema : Schema) :
    DucklakeResult RecordBatch :=
  match firstDuplicate (batch.columns.map Prod.fst) with
  | some name => .error (.schemaError ("duplicate field: ".toList ++ name))
  | none =>
      (convertFields env batch.columns batch.numRows schema.columns.values).map fun arrays =>
        { numRows := batch.numRows
          columns := (schema.columns.values.map Column.name).zip arrays }

theorem length_convertFields
    (env : Environment)
    (source : List (Text × ArrowArray))
    (length : Nat)
    (columns : List Column)
    (arrays : List ArrowArray)
    (success : convertFields env source length columns = .ok arrays) :
    arrays.length = columns.length := by
  induction columns generalizing source arrays with
  | nil =>
      unfold convertFields at success
      split at success
      · cases success
        rfl
      · cases success
  | cons column rest ih =>
      cases column
      unfold convertFields at success
      split at success
      · obtain ⟨array, _, success⟩ := bind_eq_ok.mp success
        obtain ⟨arrays, others, success⟩ := bind_eq_ok.mp success
        obtain rfl := Except.ok.inj success
        exact congrArg Nat.succ (ih _ _ others)
      · obtain ⟨array, _, success⟩ := bind_eq_ok.mp success
        obtain ⟨arrays, others, success⟩ := bind_eq_ok.mp success
        obtain rfl := Except.ok.inj success
        exact congrArg Nat.succ (ih _ _ others)

/-! ## What is matched is converted -/

theorem convertColumn_struct
    (env : Environment)
    (validity : List Bool)
    (fields : List (Text × ArrowArray))
    (columns : List Column)
    (unique : firstDuplicate (fields.map Prod.fst) = none) :
    convertColumn env (.struct validity fields) (.struct columns) =
      (convertFields env fields validity.length columns).map fun arrays =>
        .struct validity ((columns.map Column.name).zip arrays) := by
  unfold convertColumn
  dsimp only
  rw [unique]

mutual

theorem matchColumn_converts (env : Environment) (array result : ArrowArray) : ∀ dtype : DataType,
    matchColumn env array dtype = .ok result → convertColumn env array dtype = .ok result
  | .primitive target => by
      unfold matchColumn convertColumn
      exact id
  | .list inner => by
      intro success
      unfold matchColumn at success
      unfold convertColumn
      split at success
      · exact success
      · obtain ⟨values, matched, success⟩ := bind_eq_ok.mp success
        exact map_eq_ok.mpr ⟨values, matchChild_converts env _ values none inner matched,
          Except.ok.inj success⟩
      · cases success
  | .struct columns => by
      intro success
      unfold matchColumn at success
      unfold convertColumn
      split at success
      · exact success
      · rename_i validity fields
        have unique : firstDuplicate (fields.map Prod.fst) = none := by
          cases duplicate : firstDuplicate (fields.map Prod.fst) with
          | none => rfl
          | some name =>
              rw [duplicate] at success
              cases success
        rw [unique] at success
        obtain ⟨arrays, matched, success⟩ := bind_eq_ok.mp success
        obtain ⟨_, _, success⟩ := bind_eq_ok.mp success
        obtain rfl := Except.ok.inj success
        exact (convertColumn_struct env validity fields columns unique).trans
          (map_eq_ok.mpr ⟨arrays, matchFields_converts env _ _ arrays columns matched, rfl⟩)
      · cases success
  | .map key value => by
      intro success
      unfold matchColumn at success
      unfold convertColumn
      split at success
      · exact success
      · obtain ⟨keys, matchedKeys, success⟩ := bind_eq_ok.mp success
        obtain ⟨values, matched, success⟩ := bind_eq_ok.mp success
        exact bind_eq_ok.mpr ⟨keys, matchChild_converts env _ keys none key matchedKeys,
          bind_eq_ok.mpr ⟨values, matchChild_converts env _ values none value matched, success⟩⟩
      · cases success

theorem matchChild_converts (env : Environment) (array result : ArrowArray)
    (parent : Option (List Bool)) : ∀ column : Column,
    matchChild env array parent column = .ok result → convertChild env array column = .ok result
  | .mk name dtype nullable tags initialDefault defaultValue fieldId => by
      intro success
      obtain ⟨_, matched, success⟩ := bind_eq_ok.mp success
      obtain ⟨_, _, success⟩ := bind_eq_ok.mp success
      obtain rfl := Except.ok.inj success
      exact matchColumn_converts env array _ dtype matched

theorem matchFields_converts (env : Environment) (source : List (Text × ArrowArray))
    (length : Nat) (arrays : List ArrowArray) : ∀ columns : List Column,
    matchFields env source length columns = .ok arrays →
      convertFields env source length columns = .ok arrays
  | [] => by
      unfold matchFields convertFields
      exact id
  | .mk name dtype nullable tags initialDefault defaultValue fieldId :: rest => by
      intro success
      unfold matchFields at success
      unfold convertFields
      cases taken : takeField name source with
      | some found =>
          rw [taken] at success
          obtain ⟨array, matched, success⟩ := bind_eq_ok.mp success
          obtain ⟨others, matchedOthers, success⟩ := bind_eq_ok.mp success
          refine bind_eq_ok.mpr ⟨array, matchColumn_converts env _ array dtype matched, ?_⟩
          exact bind_eq_ok.mpr ⟨others, matchFields_converts env _ length others rest matchedOthers,
            success⟩
      | none =>
          rw [taken] at success
          obtain ⟨array, generated, success⟩ := bind_eq_ok.mp success
          obtain ⟨others, matchedOthers, success⟩ := bind_eq_ok.mp success
          refine bind_eq_ok.mpr ⟨array, generated, ?_⟩
          exact bind_eq_ok.mpr ⟨others, matchFields_converts env _ length others rest matchedOthers,
            success⟩

end

/-! ## What is converted is matched, unless a null is read -/

def IsInvalidNull (err : DucklakeError) : Prop :=
  ∃ name, err = .invalidNullValue name

theorem ownNulls_ne_nil_iff
    (shown : Nat → Bool)
    (parent : Option (List Bool))
    (column : Column)
    (array : ArrowArray) :
    ownNulls shown parent column array ≠ [] ↔ column.nullable = false ∧
      ∃ index : Nat, array.validity[index]? = some false ∧
        ∀ validity : List Bool, parent = some validity → validity[index]? = some true := by
  unfold ownNulls
  split
  · rename_i nullable
    simp [nullable]
  · rename_i required
    have required : column.nullable = false := by simpa using required
    rw [ne_eq, List.map_eq_nil_iff, List.filter_eq_nil_iff]
    push Not
    constructor
    · rintro ⟨index, _, kept⟩
      obtain ⟨null, valid⟩ := Bool.and_eq_true_iff.mp kept
      refine ⟨required, index, by simpa using null, ?_⟩
      rintro validity rfl
      simpa using valid
    · rintro ⟨_, index, null, valid⟩
      refine ⟨index, List.mem_range.mpr (List.getElem?_eq_some_iff.mp null).1, ?_⟩
      cases parent with
      | none => simp [null]
      | some validity => simp [null, valid validity rfl]

theorem succeedsIf_ite
    {α ε : Type}
    (nulls : List Bool)
    (rejected : Bool)
    (rejects : rejected = true ↔ nulls ≠ [])
    (failure : ε → Prop)
    (err : ε)
    (fails : failure err)
    (value : α) :
    SucceedsIf nulls.isEmpty failure (if rejected then .error err else .ok value) := by
  cases rejected with
  | true => exact ⟨by simpa using rejects.mp rfl, fails⟩
  | false =>
      have nothing := not_not.mp (mt rejects.mpr Bool.false_ne_true)
      rw [nothing]
      exact .ok value

theorem checkNullability_succeedsIf
    (shown : Nat → Bool)
    (parent : Option (List Bool))
    (column : Column)
    (array : ArrowArray) :
    SucceedsIf (ownNulls shown parent column array).isEmpty IsInvalidNull
      (checkNullability column array parent) := by
  have read := ownNulls_ne_nil_iff shown parent column array
  have nulls : array.nullCount > 0 ↔ ∃ index : Nat, array.validity[index]? = some false := by
    rw [ArrowArray.nullCount, gt_iff_lt, List.count_pos_iff, List.mem_iff_getElem?]
  refine succeedsIf_ite _ _ (Iff.trans ?_ read.symm) _ _ ⟨column.name, rfl⟩ ()
  cases parent with
  | none => simp [nulls]
  | some validity =>
      have uncovered : ((array.validity.zip validity).all fun entry => entry.1 || !entry.2) = false ↔
          ∃ index : Nat, array.validity[index]? = some false ∧ validity[index]? = some true := by
        rw [List.all_eq_false]
        constructor
        · rintro ⟨⟨own, parent⟩, member, bare⟩
          obtain ⟨index, found⟩ := List.mem_iff_getElem?.mp member
          obtain ⟨found, foundParent⟩ := List.getElem?_zip_eq_some.mp found
          cases own <;> cases parent <;> simp at bare
          exact ⟨index, found, foundParent⟩
        · rintro ⟨index, found, foundParent⟩
          exact ⟨(false, true), List.mem_iff_getElem?.mpr
            ⟨index, List.getElem?_zip_eq_some.mpr ⟨found, foundParent⟩⟩, by simp⟩
      simp only [Option.some.injEq, forall_eq', Bool.and_eq_true, Bool.not_eq_true',
        decide_eq_true_eq, nulls, uncovered, and_assoc]
      refine and_congr_right fun _ => ⟨fun both => both.2, fun bare => ⟨?_, bare⟩⟩
      obtain ⟨index, null, _⟩ := bare
      exact ⟨index, null⟩

theorem isEmpty_append {α : Type} (items others : List α) :
    (items ++ others).isEmpty = (items.isEmpty && others.isEmpty) := by
  cases items <;> rfl

theorem isEmpty_flatMap {α β : Type} (items : List α) (f : α → List β) :
    (items.flatMap f).isEmpty = items.all fun item => (f item).isEmpty := by
  induction items with
  | nil => rfl
  | cons item rest ih => rw [List.flatMap_cons, isEmpty_append, ih, List.all_cons]

theorem checkFields_succeedsIf
    (shown : Nat → Bool)
    (parent : Option (List Bool))
    (fields : List (Column × ArrowArray)) :
    SucceedsIf (fieldNulls shown parent fields).isEmpty IsInvalidNull
      (checkFields parent fields) := by
  induction fields with
  | nil => exact .ok ()
  | cons field rest ih =>
      rw [fieldNulls, List.flatMap_cons, isEmpty_append]
      exact (checkNullability_succeedsIf shown parent field.1 field.2).bind fun _ _ => ih

/-! ## Generated columns -/

theorem ownNulls_of_nullParent
    (shown : Nat → Bool)
    (length : Nat)
    (column : Column)
    (array : ArrowArray) :
    ownNulls shown (some (List.replicate length false)) column array = [] := by
  by_contra read
  obtain ⟨_, index, _, valid⟩ := (ownNulls_ne_nil_iff _ _ _ _).mp read
  simpa [List.getElem?_replicate] using valid _ rfl

theorem ownNulls_of_empty
    (shown : Nat → Bool)
    (column : Column)
    (array : ArrowArray)
    (empty : array.validity = []) :
    ownNulls shown none column array = [] := by
  by_contra read
  obtain ⟨_, index, null, _⟩ := (ownNulls_ne_nil_iff _ _ _ _).mp read
  rw [empty] at null
  cases null

theorem validity_newNullArray (dtype : DataType) : (newNullArray 0 dtype).validity = [] := by
  cases dtype <;> rfl

mutual

theorem nullsBelow_newNullArray (shown : Nat → Bool) (length : Nat) : ∀ dtype : DataType,
    nullsBelow shown (newNullArray length dtype) dtype = []
  | .primitive _ => by rw [nullsBelow]
  | .list inner => nullsOfChild_newNullChild _ inner
  | .struct fields => by
      rw [newNullArray, nullsBelow, nullsOfFields_newNullFields, List.nil_append, fieldNulls]
      exact List.flatMap_eq_nil_iff.mpr fun field _ => ownNulls_of_nullParent _ _ _ _
  | .map key value => by
      rw [newNullArray, nullsBelow, nullsOfChild_newNullChild, nullsOfChild_newNullChild]
      rfl

theorem nullsOfChild_newNullChild (shown : Nat → Bool) : ∀ column : Column,
    nullsOfChild shown (newNullChild 0 column) column = []
  | .mk name dtype nullable tags initialDefault defaultValue fieldId => by
      rw [newNullChild, nullsOfChild, nullsBelow_newNullArray,
        ownNulls_of_empty _ _ _ (validity_newNullArray dtype)]
      rfl

theorem nullsOfFields_newNullFields (shown : Nat → Bool) (length : Nat) : ∀ fields : List Column,
    nullsOfFields shown ((newNullFields length fields).map Prod.snd) fields = []
  | [] => rfl
  | .mk name dtype nullable tags initialDefault defaultValue fieldId :: rest => by
      rw [newNullFields, newNullChild, List.map_cons, nullsOfFields, nullsBelow_newNullArray,
        nullsOfFields_newNullFields]
      rfl

end

def BroadcastsFilled (env : Environment) : Prop :=
  ∀ scalar dtype length array, env.broadcastScalar scalar dtype length = .ok array →
    ∀ shown, nullsBelow shown array dtype = []

theorem nullsBelow_generateColumn
    (env : Environment)
    (filled : BroadcastsFilled env)
    (column : Column)
    (length : Nat)
    (array : ArrowArray)
    (success : generateColumn env column length = .ok array)
    (shown : Nat → Bool) :
    nullsBelow shown array column.dtype = [] := by
  unfold generateColumn at success
  split at success
  · cases success
  · unfold broadcast at success
    split at success
    · cases success
    · cases success
    · cases success
    · split at success
      · exact filled _ _ _ _ success shown
      · cases success
    · exact filled _ _ _ _ success shown
    · cases success
  · obtain rfl := Except.ok.inj success
    exact nullsBelow_newNullArray shown length column.dtype

/-! ## Matching fails if a null is read -/

theorem map_snd_zip_names
    (columns : List Column)
    (arrays : List ArrowArray)
    (same : arrays.length = columns.length) :
    ((columns.map Column.name).zip arrays).map Prod.snd = arrays :=
  List.map_snd_zip (by simp [same])

mutual

theorem matchColumn_succeedsIf (env : Environment) (filled : BroadcastsFilled env)
    (shown : Nat → Bool) (array result : ArrowArray) : ∀ dtype : DataType,
    convertColumn env array dtype = .ok result →
      SucceedsIf (nullsBelow shown result dtype).isEmpty IsInvalidNull (matchColumn env array dtype)
  | .primitive target => by
      intro success
      have same : matchColumn env array (.primitive target) =
          convertColumn env array (.primitive target) := by
        cases array <;> rfl
      rw [same, success, nullsBelow]
      exact .ok result
  | .list inner => by
      intro success
      cases array with
      | null length =>
          obtain rfl := Except.ok.inj success
          rw [nullsBelow_newNullArray]
          exact .ok _
      | list validity start lengths values =>
          obtain ⟨converted, child, rfl⟩ := map_eq_ok.mp success
          rw [nullsBelow, matchColumn]
          exact (matchChild_succeedsIf env filled _ values converted inner child).bind_ok
      | _ => cases success
  | .struct columns => by
      intro success
      cases array with
      | null length =>
          obtain rfl := Except.ok.inj success
          rw [nullsBelow_newNullArray]
          exact .ok _
      | struct validity fields =>
          unfold convertColumn at success
          unfold matchColumn
          dsimp only at success ⊢
          cases duplicate : firstDuplicate (fields.map Prod.fst) with
          | some name =>
              rw [duplicate] at success
              cases success
          | none =>
              rw [duplicate] at success
              obtain ⟨arrays, converted, rfl⟩ := map_eq_ok.mp success
              rw [nullsBelow, map_snd_zip_names columns arrays
                (length_convertFields env fields validity.length columns arrays converted),
                isEmpty_append]
              refine (matchFields_succeedsIf env filled _ fields validity.length arrays columns
                converted).bind fun value matched => ?_
              obtain rfl := Except.ok.inj (converted.symm.trans
                (matchFields_converts env fields validity.length value columns matched))
              exact (checkFields_succeedsIf shown (some validity) (columns.zip arrays)).bind_ok
      | _ => cases success
  | .map key value => by
      intro success
      cases array with
      | null length =>
          obtain rfl := Except.ok.inj success
          rw [nullsBelow_newNullArray]
          exact .ok _
      | map validity start lengths keys values =>
          obtain ⟨convertedKeys, childKeys, success⟩ := bind_eq_ok.mp success
          obtain ⟨converted, child, success⟩ := bind_eq_ok.mp success
          obtain rfl := Except.ok.inj success
          rw [nullsBelow, matchColumn, isEmpty_append]
          refine (matchChild_succeedsIf env filled _ keys convertedKeys key childKeys).bind
            fun _ _ => ?_
          exact (matchChild_succeedsIf env filled _ values converted value child).bind_ok
      | _ => cases success

theorem matchChild_succeedsIf (env : Environment) (filled : BroadcastsFilled env)
    (shown : Nat → Bool) (array result : ArrowArray) : ∀ column : Column,
    convertChild env array column = .ok result →
      SucceedsIf (nullsOfChild shown result column).isEmpty IsInvalidNull
        (matchChild env array none column)
  | .mk name dtype nullable tags initialDefault defaultValue fieldId => by
      intro success
      rw [convertChild] at success
      rw [nullsOfChild, isEmpty_append]
      refine (matchColumn_succeedsIf env filled shown array result dtype success).bind
        fun value matched => ?_
      obtain rfl := Except.ok.inj (success.symm.trans
        (matchColumn_converts env array value dtype matched))
      exact (checkNullability_succeedsIf shown none _ result).bind_ok

theorem matchFields_succeedsIf (env : Environment) (filled : BroadcastsFilled env)
    (shown : Nat → Bool) (source : List (Text × ArrowArray)) (length : Nat)
    (arrays : List ArrowArray) : ∀ columns : List Column,
    convertFields env source length columns = .ok arrays →
      SucceedsIf (nullsOfFields shown arrays columns).isEmpty IsInvalidNull
        (matchFields env source length columns)
  | [] => by
      intro success
      have same : matchFields env source length [] = convertFields env source length [] := by
        rw [matchFields, convertFields]
      rw [same, success, nullsOfFields]
      exact .ok arrays
  | .mk name dtype nullable tags initialDefault defaultValue fieldId :: rest => by
      intro success
      unfold convertFields at success
      unfold matchFields
      cases taken : takeField name source with
      | some found =>
          rw [taken] at success
          obtain ⟨array, converted, success⟩ := bind_eq_ok.mp success
          obtain ⟨others, convertedOthers, success⟩ := bind_eq_ok.mp success
          obtain rfl := Except.ok.inj success
          rw [nullsOfFields, isEmpty_append]
          refine (matchColumn_succeedsIf env filled shown _ array dtype converted).bind
            fun _ _ => ?_
          exact (matchFields_succeedsIf env filled shown _ length others rest convertedOthers).bind_ok
      | none =>
          rw [taken] at success
          obtain ⟨array, generated, success⟩ := bind_eq_ok.mp success
          obtain ⟨others, convertedOthers, success⟩ := bind_eq_ok.mp success
          obtain rfl := Except.ok.inj success
          have nothing := nullsBelow_generateColumn env filled _ length array generated shown
          rw [Column.dtype] at nothing
          rw [nullsOfFields, nothing, List.nil_append, generated]
          exact (matchFields_succeedsIf env filled shown _ length others rest convertedOthers).bind_ok

end

theorem convertToSchema_eq_ok
    (env : Environment)
    (batch converted : RecordBatch)
    (schema : Schema)
    (success : convertToSchema env batch schema = .ok converted) :
    ∃ arrays, convertFields env batch.columns batch.numRows schema.columns.values = .ok arrays ∧
      arrays.length = schema.columns.values.length ∧
      converted = ⟨batch.numRows, (schema.columns.values.map Column.name).zip arrays⟩ ∧
      firstDuplicate (batch.columns.map Prod.fst) = none := by
  unfold convertToSchema at success
  split at success
  · cases success
  · rename_i unique
    obtain ⟨arrays, fields, rfl⟩ := map_eq_ok.mp success
    exact ⟨arrays, fields, length_convertFields env _ _ _ arrays fields, rfl, unique⟩

def RecordBatch.matchedNulls (columns : List Column) (batch : RecordBatch) : List Bool :=
  nullsOfFields batch.isRow (batch.columns.map Prod.snd) columns ++
    fieldNulls batch.isRow none (columns.zip (batch.columns.map Prod.snd))

theorem matchToSchema_succeedsIf
    (env : Environment)
    (filled : BroadcastsFilled env)
    (batch converted : RecordBatch)
    (schema : Schema)
    (success : convertToSchema env batch schema = .ok converted) :
    SucceedsIf (converted.matchedNulls schema.columns.values).isEmpty IsInvalidNull
        (matchToSchema env batch schema) ∧
      ∀ result, matchToSchema env batch schema = .ok result → result = converted := by
  obtain ⟨arrays, fields, same, rfl, unique⟩ := convertToSchema_eq_ok env batch converted schema success
  unfold matchToSchema
  rw [unique]
  dsimp only
  refine ⟨?_, fun result matched => ?_⟩
  · rw [RecordBatch.matchedNulls, map_snd_zip_names schema.columns.values arrays same,
      isEmpty_append]
    refine (matchFields_succeedsIf env filled _ batch.columns batch.numRows arrays _ fields).bind
      fun value matched => ?_
    obtain rfl := Except.ok.inj (fields.symm.trans
      (matchFields_converts env batch.columns batch.numRows value _ matched))
    exact (checkFields_succeedsIf _ none (schema.columns.values.zip arrays)).bind_ok
  · obtain ⟨value, matched, checked⟩ := bind_eq_ok.mp matched
    obtain ⟨_, _, checked⟩ := bind_eq_ok.mp checked
    obtain rfl := Except.ok.inj (fields.symm.trans
      (matchFields_converts env batch.columns batch.numRows value _ matched))
    exact (Except.ok.inj checked).symm

/-! ## Statistics are those of the leaves -/

def Leaf.statistics (leaf : Leaf) : ArrayColumnStats where
  minValue := findMin leaf.type leaf.values
  maxValue := findMax leaf.type leaf.values
  nullCount := some (leaf.values.count none)
  containsNan := none

theorem Leaf.nulls_eq_nil_iff (leaf : Leaf) : leaf.nulls = [] ↔ leaf.values.count none = 0 := by
  rw [Leaf.nulls, List.map_eq_nil_iff, List.filter_eq_nil_iff, List.count_eq_zero,
    List.mem_iff_getElem?]
  simp only [List.mem_range, beq_iff_eq, not_exists]
  exact ⟨fun none_ index found => none_ index (List.getElem?_eq_some_iff.mp found).1 found,
    fun none_ index _ => none_ index⟩

mutual

theorem computeArrayStatistics_eq (shown : Nat → Bool) (result : IndexMap Int ArrayColumnStats)
    (array : ArrowArray) : ∀ column : Column,
    computeArrayStatistics result array column = (leafArrays shown array column).foldl
      (fun result leaf => result.insert leaf.id leaf.statistics) result
  | .mk name dtype nullable tags initialDefault defaultValue fieldId => by
      rw [computeArrayStatistics, leafArrays]
      exact computeTypeStatistics_eq shown result array
        (.mk name dtype nullable tags initialDefault defaultValue fieldId) dtype

theorem computeTypeStatistics_eq (shown : Nat → Bool) (result : IndexMap Int ArrayColumnStats)
    (array : ArrowArray) (column : Column) : ∀ dtype : DataType,
    computeTypeStatistics result array column.fieldId dtype =
      (leafArraysBelow shown array column dtype).foldl
        (fun result leaf => result.insert leaf.id leaf.statistics) result
  | .primitive type => by
      simp only [computeTypeStatistics, leafArraysBelow]
      cases column.fieldId <;> cases array <;> rfl
  | .list inner => by
      cases array with
      | list validity start lengths values =>
          rw [computeTypeStatistics, leafArraysBelow]
          exact computeArrayStatistics_eq _ result _ inner
      | _ => rfl
  | .struct columns => by
      cases array with
      | struct validity fields =>
          rw [computeTypeStatistics, leafArraysBelow]
          exact computeFieldStatistics_eq _ result _ columns
      | _ => rfl
  | .map key value => by
      cases array with
      | map validity start lengths keys values =>
          rw [computeTypeStatistics, leafArraysBelow, List.foldl_append,
            computeArrayStatistics_eq (coveredBy shown validity start lengths) result keys key,
            computeArrayStatistics_eq (coveredBy shown validity start lengths) _ values value]
      | _ => rfl

theorem computeFieldStatistics_eq (shown : Nat → Bool) (result : IndexMap Int ArrayColumnStats)
    (arrays : List ArrowArray) : ∀ columns : List Column,
    computeFieldStatistics result arrays columns = (leafArraysOfFields shown arrays columns).foldl
      (fun result leaf => result.insert leaf.id leaf.statistics) result
  | [] => rfl
  | column :: rest => by
      cases arrays with
      | nil => rfl
      | cons array arrays =>
          rw [computeFieldStatistics, leafArraysOfFields, List.foldl_append,
            computeArrayStatistics_eq shown result array column,
            computeFieldStatistics_eq shown _ arrays rest]

end

mutual

theorem leafArrays_sublist_walk (shown : Nat → Bool) (array : ArrowArray) : ∀ column : Column,
    ((leafArrays shown array column).map fun leaf => (leaf.id, leaf.column)).Sublist column.walk
  | .mk name dtype nullable tags initialDefault defaultValue fieldId => by
      rw [leafArrays, Column.walk]
      exact leafArraysBelow_sublist_walk shown array
        (.mk name dtype nullable tags initialDefault defaultValue fieldId) dtype

theorem leafArraysBelow_sublist_walk (shown : Nat → Bool) (array : ArrowArray) (column : Column) :
    ∀ dtype : DataType,
      ((leafArraysBelow shown array column dtype).map fun leaf => (leaf.id, leaf.column)).Sublist
        ((column.fieldId.map fun id => (id, column)).toList ++ Column.walkChildren dtype)
  | .primitive type => by
      simp only [leafArraysBelow]
      cases column.fieldId <;> cases array <;> simp
  | .list inner => by
      cases array with
      | list validity start lengths values =>
          rw [leafArraysBelow, Column.walkChildren]
          exact (leafArrays_sublist_walk _ _ inner).trans (List.sublist_append_right _ _)
      | _ => exact List.nil_sublist _
  | .struct columns => by
      cases array with
      | struct validity fields =>
          rw [leafArraysBelow, Column.walkChildren]
          exact (leafArraysOfFields_sublist_walk _ _ columns).trans (List.sublist_append_right _ _)
      | _ => exact List.nil_sublist _
  | .map key value => by
      cases array with
      | map validity start lengths keys values =>
          rw [leafArraysBelow, Column.walkChildren, List.map_append]
          exact ((leafArrays_sublist_walk _ _ key).append (leafArrays_sublist_walk _ _ value)).trans
            (List.sublist_append_right _ _)
      | _ => exact List.nil_sublist _

theorem leafArraysOfFields_sublist_walk (shown : Nat → Bool) (arrays : List ArrowArray) :
    ∀ columns : List Column,
      ((leafArraysOfFields shown arrays columns).map fun leaf => (leaf.id, leaf.column)).Sublist
        (Column.walkFields columns)
  | [] => List.nil_sublist _
  | column :: rest => by
      cases arrays with
      | nil => exact List.nil_sublist _
      | cons array arrays =>
          rw [leafArraysOfFields, Column.walkFields, List.map_append]
          exact (leafArrays_sublist_walk shown array column).append
            (leafArraysOfFields_sublist_walk shown arrays rest)

end

end Ducklake.Io
