import Mathlib.Algebra.BigOperators.Group.List.Basic
import Ducklake.Io.Ranges

/-!
# Panics of statistics

The statistics of a batch or a file are computed without a panic exactly if its arrays hold only
values that can be converted.
-/

set_option autoImplicit false

namespace Ducklake.Io

open Lib

/-! ## Batches -/

mutual

/-- The array has the type of the column, as the arrays of a matched batch do. -/
def Conforms (array : PhysicalArray) : Column → Prop
  | .mk _ dtype .. => ConformsType array dtype

def ConformsType (array : PhysicalArray) : DataType → Prop
  | .primitive dtype =>
      match array with
      | .leaf leaf => leaf.type = LeafType.ofType dtype ∧ leaf.Legal
      | _ => False
  | .list inner =>
      match array with
      | .list covered => Conforms covered inner
      | _ => False
  | .struct columns =>
      match array with
      | .struct fields => ConformFields fields columns
      | _ => False
  | .map key value =>
      match array with
      | .map keys values => Conforms keys key ∧ Conforms values value
      | _ => False

def ConformFields (arrays : List PhysicalArray) : List Column → Prop
  | [] => arrays = []
  | column :: rest =>
      match arrays with
      | [] => False
      | array :: arrays => Conforms array column ∧ ConformFields arrays rest

end

mutual

/-- The arrays that hold the values of a column, with their types. -/
def leaves (array : PhysicalArray) : Column → List (PrimitiveType × LeafArray)
  | .mk _ dtype .. => leavesOfType array dtype

def leavesOfType (array : PhysicalArray) : DataType → List (PrimitiveType × LeafArray)
  | .primitive dtype =>
      match array with
      | .leaf leaf => [(dtype, leaf)]
      | _ => []
  | .list inner =>
      match array with
      | .list covered => leaves covered inner
      | _ => []
  | .struct columns =>
      match array with
      | .struct fields => leavesOfFields fields columns
      | _ => []
  | .map key value =>
      match array with
      | .map keys values => leaves keys key ++ leaves values value
      | _ => []

def leavesOfFields (arrays : List PhysicalArray) : List Column → List (PrimitiveType × LeafArray)
  | [] => []
  | column :: rest =>
      match arrays with
      | [] => []
      | array :: arrays => leaves array column ++ leavesOfFields arrays rest

end

section

variable (types : ValueTypes)

def AllConvertible (found : List (PrimitiveType × LeafArray)) : Prop :=
  ∀ leaf ∈ found, leaf.2.Convertible types leaf.1

mutual

theorem panics_columnStatistics (result : IndexMap Int ArrayColumnStats) (array : PhysicalArray) :
    (column : Column) → Conforms array column → AllConvertible types (leaves array column) →
      panics (columnStatistics types result array column) = false
  | .mk _ dtype _ _ _ _ fieldId, conforms, convertible =>
      panics_typeStatistics result array fieldId dtype conforms convertible

theorem panics_typeStatistics (result : IndexMap Int ArrayColumnStats) (array : PhysicalArray)
    (fieldId : Option Int) : (dtype : DataType) → ConformsType array dtype →
      AllConvertible types (leavesOfType array dtype) →
        panics (typeStatistics types result array fieldId dtype) = false
  | .primitive dtype, conforms, convertible => by
      cases array with
      | leaf leaf =>
          have downcast : leaf.Downcasts dtype := Or.inr
            ((congrArg (downcasts dtype) conforms.1).trans (downcasts_ofType dtype))
          have elements := convertible (dtype, leaf) (.head _)
          cases fieldId with
          | none => rfl
          | some id =>
              refine panics_bind_eq_false.mpr
                ⟨(leaf.panics_findMin types dtype elements).mpr downcast, fun _ _ => ?_⟩
              refine panics_bind_eq_false.mpr
                ⟨(leaf.panics_findMax types dtype elements).mpr downcast, fun _ _ => ?_⟩
              rfl
      | _ => exact conforms.elim
  | .list inner, conforms, convertible => by
      cases array with
      | list covered => exact panics_columnStatistics result covered inner conforms convertible
      | _ => exact conforms.elim
  | .struct columns, conforms, convertible => by
      cases array with
      | struct fields => exact panics_fieldStatistics result fields columns conforms convertible
      | _ => exact conforms.elim
  | .map key value, conforms, convertible => by
      cases array with
      | map keys values =>
          obtain ⟨ofKeys, ofValues⟩ := List.forall_mem_append.mp convertible
          refine panics_bind_eq_false.mpr
            ⟨panics_columnStatistics result keys key conforms.1 ofKeys, fun found _ => ?_⟩
          exact panics_columnStatistics found values value conforms.2 ofValues
      | _ => exact conforms.elim

theorem panics_fieldStatistics (result : IndexMap Int ArrayColumnStats)
    (arrays : List PhysicalArray) :
    (columns : List Column) → ConformFields arrays columns →
      AllConvertible types (leavesOfFields arrays columns) →
        panics (fieldStatistics types result arrays columns) = false
  | [], _, _ => rfl
  | column :: rest, conforms, convertible => by
      cases arrays with
      | nil => exact conforms.elim
      | cons array arrays =>
          obtain ⟨ofFirst, ofRest⟩ := List.forall_mem_append.mp convertible
          refine panics_bind_eq_false.mpr
            ⟨panics_columnStatistics result array column conforms.1 ofFirst, fun found _ => ?_⟩
          exact panics_fieldStatistics found arrays rest conforms.2 ofRest

end

mutual

theorem conforms_leaves (array : PhysicalArray) :
    (column : Column) → Conforms array column → ∀ leaf ∈ leaves array column,
      leaf.2.type = LeafType.ofType leaf.1 ∧ leaf.2.Legal
  | .mk _ dtype .., conforms => conforms_leavesOfType array dtype conforms

theorem conforms_leavesOfType (array : PhysicalArray) :
    (dtype : DataType) → ConformsType array dtype → ∀ leaf ∈ leavesOfType array dtype,
      leaf.2.type = LeafType.ofType leaf.1 ∧ leaf.2.Legal
  | .primitive dtype, conforms => by
      cases array with
      | leaf leaf =>
          intro found member
          obtain rfl := List.mem_singleton.mp member
          exact conforms
      | _ => exact conforms.elim
  | .list inner, conforms => by
      cases array with
      | list covered => exact conforms_leaves covered inner conforms
      | _ => exact conforms.elim
  | .struct columns, conforms => by
      cases array with
      | struct fields => exact conforms_leavesOfFields fields columns conforms
      | _ => exact conforms.elim
  | .map key value, conforms => by
      cases array with
      | map keys values =>
          exact List.forall_mem_append.mpr
            ⟨conforms_leaves keys key conforms.1, conforms_leaves values value conforms.2⟩
      | _ => exact conforms.elim

theorem conforms_leavesOfFields (arrays : List PhysicalArray) :
    (columns : List Column) → ConformFields arrays columns →
      ∀ leaf ∈ leavesOfFields arrays columns,
        leaf.2.type = LeafType.ofType leaf.1 ∧ leaf.2.Legal
  | [], _ => fun _ member => nomatch member
  | column :: rest, conforms => by
      cases arrays with
      | nil => exact conforms.elim
      | cons array arrays =>
          exact List.forall_mem_append.mpr
            ⟨conforms_leaves array column conforms.1,
              conforms_leavesOfFields arrays rest conforms.2⟩

end

def BatchConforms (schema : Schema) (batch : List (Text × PhysicalArray)) : Prop :=
  ∀ field ∈ batch, ∃ column, schema.columns.get? field.1 = some column ∧ Conforms field.2 column

def fieldLeaves (schema : Schema) (field : Text × PhysicalArray) :
    List (PrimitiveType × LeafArray) :=
  match schema.columns.get? field.1 with
  | some column => leaves field.2 column
  | none => []

def batchLeaves (schema : Schema) (batch : List (Text × PhysicalArray)) :
    List (PrimitiveType × LeafArray) :=
  batch.flatMap (fieldLeaves schema)

/-- Neither the statistics of the batch nor the conversion of an element panics. -/
def SafeBatch (schema : Schema) (batch : List (Text × PhysicalArray)) : Prop :=
  panics (batchStatistics types schema batch) = false ∧
    AllConvertible types (batchLeaves schema batch)

theorem safeBatch_iff (schema : Schema) (batch : List (Text × PhysicalArray))
    (conforms : BatchConforms schema batch) :
    SafeBatch types schema batch ↔
      ∀ leaf ∈ batchLeaves schema batch, ∀ value, some value ∈ leaf.2.values →
        InRange leaf.1 leaf.2.type value := by
  have typed : ∀ leaf ∈ batchLeaves schema batch,
      leaf.2.type = LeafType.ofType leaf.1 ∧ leaf.2.Legal := by
    intro leaf member
    obtain ⟨field, listed, inside⟩ := List.mem_flatMap.mp member
    obtain ⟨column, known, fits⟩ := conforms field listed
    unfold fieldLeaves at inside
    rw [known] at inside
    exact conforms_leaves field.2 column fits leaf inside
  have elements : AllConvertible types (batchLeaves schema batch) ↔
      ∀ leaf ∈ batchLeaves schema batch, ∀ value, some value ∈ leaf.2.values →
        InRange leaf.1 leaf.2.type value := by
    refine forall₂_congr fun leaf member => ?_
    obtain ⟨same, legal⟩ := typed leaf member
    exact leaf.2.convertible_iff types leaf.1
      ((congrArg (downcasts leaf.1) same).trans (downcasts_ofType leaf.1)) legal
  refine Iff.trans ⟨fun safe => safe.2, fun convertible => ⟨?_, convertible⟩⟩ elements
  apply panics_foldlM
  intro field listed result
  obtain ⟨column, known, fits⟩ := conforms field listed
  have ofField : AllConvertible types (leaves field.2 column) := by
    intro leaf member
    refine convertible leaf (List.mem_flatMap.mpr ⟨field, listed, ?_⟩)
    unfold fieldLeaves
    rw [known]
    exact member
  rw [known]
  exact panics_columnStatistics types result field.2 column fits ofField

end

/-! ## Files -/

section

variable {α β : Type}

theorem panics_bind_iff {computation : DucklakeResult α} {next : α → DucklakeResult β}
    {after : Prop} (only : OnlyPanics computation)
    (rest : ∀ value, panics (next value) = false ↔ after) :
    panics (computation >>= next) = false ↔ panics computation = false ∧ after := by
  rw [panics_bind_eq_false]
  refine and_congr_right fun safe => ?_
  obtain ⟨value, found⟩ := only.ok safe
  exact ⟨fun all => (rest value).mp (all value found), fun holds other _ => (rest other).mpr holds⟩

theorem panics_foldlM_iff {γ : Type} {step : β → γ → DucklakeResult β} {safe : γ → Prop}
    {inputs : List γ}
    (only : ∀ input ∈ inputs, ∀ state, OnlyPanics (step state input))
    (decides : ∀ input ∈ inputs, ∀ state, panics (step state input) = false ↔ safe input)
    (state : β) :
    panics (inputs.foldlM step state) = false ↔ ∀ input ∈ inputs, safe input := by
  induction inputs generalizing state with
  | nil => simp [panics, pure, Except.pure]
  | cons input rest ih =>
      rw [List.foldlM_cons, List.forall_mem_cons, ← decides input (.head _) state]
      refine panics_bind_iff (only input (.head _) state) fun next => ?_
      exact ih (fun other member => only other (.tail _ member))
        (fun other member => decides other (.tail _ member)) next

end

theorem onlyPanics_checkedI64 (value : Int) : OnlyPanics (checkedI64 value) := by
  unfold checkedI64
  split
  · exact onlyPanics_ok _
  · exact onlyPanics_panicked _

def SumsFit (sizes : List Int) : Prop :=
  ∀ read, SignedRange 64 (sizes.take read).sum

theorem panics_sumSizes (sizes : List Int) :
    panics (sumSizes sizes) = false ↔ SumsFit sizes := by
  have from_ : ∀ start, SignedRange 64 start →
      (panics (sizes.foldlM (fun sum size => checkedI64 (sum + size)) start) = false ↔
        ∀ read, SignedRange 64 (start + (sizes.take read).sum)) := by
    induction sizes with
    | nil =>
        intro start within
        simpa [panics, pure, Except.pure] using within
    | cons size rest ih =>
        intro start within
        rw [List.foldlM_cons, panics_bind_eq_false, panics_checkedI64]
        constructor
        · rintro ⟨next, safe⟩ read
          cases read with
          | zero => simpa using within
          | succ read =>
              have summed := (ih (start + size) next).mp (safe _ (if_pos next)) read
              rw [List.take_succ_cons, List.sum_cons, ← Int.add_assoc]
              exact summed
        · intro fits
          have next : SignedRange 64 (start + size) := by simpa using fits 1
          refine ⟨next, fun value found => ?_⟩
          obtain rfl := Except.ok.inj ((if_pos next).symm.trans found)
          refine (ih (start + size) next).mpr fun read => ?_
          have summed := fits (read + 1)
          rwa [List.take_succ_cons, List.sum_cons, ← Int.add_assoc] at summed
  have found := from_ 0 (by unfold SignedRange; decide)
  simp only [Int.zero_add] at found
  exact found

theorem onlyPanics_sumSizes (sizes : List Int) : OnlyPanics (sumSizes sizes) := by
  unfold sumSizes
  generalize (0 : Int) = start
  induction sizes generalizing start with
  | nil => exact onlyPanics_ok start
  | cons size rest ih => exact (onlyPanics_checkedI64 _).bind ih

section

variable (types : ValueTypes)

theorem onlyPanics_arrayFromSlice (width : Nat) (bytes : List UInt8) :
    OnlyPanics (arrayFromSlice width bytes) := by
  unfold arrayFromSlice
  split
  · exact onlyPanics_ok _
  · exact onlyPanics_panicked _

theorem onlyPanics_timeTz (bytes : List UInt8) : OnlyPanics (timeTzFromPhysical types bytes) := by
  unfold timeTzFromPhysical
  split
  · exact onlyPanics_panicked _
  · refine (onlyPanics_time types _ _).bind fun _ => ?_
    exact (onlyPanics_unwrap _ _).bind fun _ => onlyPanics_ok _

theorem onlyPanics_timestamp (unit : TimeUnit) (value : Int) :
    OnlyPanics (timestampFromPhysical types unit value) := by
  unfold timestampFromPhysical
  split
  · exact onlyPanics_ok _
  · exact onlyPanics_unwrap _ _

theorem onlyPanics_interval (months days nanoseconds : Int) :
    OnlyPanics (intervalFromPhysical months days nanoseconds) :=
  (onlyPanics_checkedI64 _).bind fun _ => (onlyPanics_checkedI64 _).bind fun _ => onlyPanics_ok _

theorem onlyPanics_fromPhysical (dtype : PrimitiveType) (type : LeafType) (value : Physical)
    (encoded : dtype ≠ .variant ∧ dtype ≠ .geometry) :
    OnlyPanics (fromPhysical types dtype type value) := by
  unfold fromPhysical
  split
  all_goals first
    | exact onlyPanics_ok _
    | exact onlyPanics_panicked _
    | exact (onlyPanics_arrayFromSlice _ _).map _
    | exact (onlyPanics_unwrap _ _).map _
    | exact (onlyPanics_timeTz types _).map _
    | exact (onlyPanics_timestamp types _ _).map _
    | exact (onlyPanics_interval _ _ _).map _
    | exact absurd rfl encoded.1
    | exact absurd rfl encoded.2
    | skip
  -- The unit of a time is that of its array.
  split
  · exact (onlyPanics_time types _ _).map _
  · exact onlyPanics_panicked _

theorem LeafArray.onlyPanics_aggregate (dtype : PrimitiveType) (array : LeafArray)
    (best : Option Physical) : OnlyPanics (array.aggregate types dtype best) := by
  unfold LeafArray.aggregate
  split
  · exact onlyPanics_ok _
  · rename_i aggregated_
    simp only [Bool.or_eq_true, decide_eq_true_eq, not_or] at aggregated_
    split
    · cases best with
      | none => exact onlyPanics_ok _
      | some value =>
          exact (onlyPanics_fromPhysical types dtype _ value
            ⟨aggregated_.1.2, aggregated_.2⟩).map _
    · exact onlyPanics_panicked _

/-! ## Columns of a file -/

def StatisticsConverter.bounds (converter : StatisticsConverter) : List LeafArray :=
  converter.mins.toList ++ converter.maxes.toList

theorem StatisticsConverter.forall_bounds (converter : StatisticsConverter)
    (holds : LeafArray → Prop) :
    (∀ array ∈ converter.bounds, holds array) ↔
      (∀ array ∈ converter.mins, holds array) ∧ ∀ array ∈ converter.maxes, holds array := by
  simp only [bounds, List.mem_append, Option.mem_toList, Option.mem_def, or_imp, forall_and]

theorem panics_readBound {find : LeafArray → DucklakeResult (Option Value)}
    {holds : LeafArray → Prop} (bound : Option LeafArray)
    (decides : ∀ array ∈ bound, (panics (find array) = false ↔ holds array)) :
    panics (readBound find bound) = false ↔ ∀ array ∈ bound, holds array := by
  cases bound with
  | none => simp [readBound, panics]
  | some array => simpa [readBound] using decides array rfl

theorem onlyPanics_readBound {find : LeafArray → DucklakeResult (Option Value)}
    (bound : Option LeafArray) (only : ∀ array, OnlyPanics (find array)) :
    OnlyPanics (readBound find bound) := by
  cases bound with
  | none => exact onlyPanics_ok _
  | some array => exact only array

theorem panics_deriveColumnStats (converter : StatisticsConverter) (field : LeafField)
    (sizes : List Int) (dtype : PrimitiveType) (typed : field.valueField.dtype = .ok dtype)
    (convertible : ∀ array ∈ converter.bounds, array.Convertible types dtype) :
    panics (converter.deriveColumnStats types field sizes) = false ↔
      SumsFit sizes ∧ ∀ array ∈ converter.bounds, array.Downcasts dtype := by
  obtain ⟨lows, highs⟩ := (converter.forall_bounds _).mp convertible
  have lowest : panics (readBound (LeafArray.findMin types dtype) converter.mins) = false ↔
      ∀ array ∈ converter.mins, array.Downcasts dtype :=
    panics_readBound converter.mins fun mins present =>
      mins.panics_findMin types dtype (lows mins present)
  have greatest : panics (readBound (LeafArray.findMax types dtype) converter.maxes) = false ↔
      ∀ array ∈ converter.maxes, array.Downcasts dtype :=
    panics_readBound converter.maxes fun maxes present =>
      maxes.panics_findMax types dtype (highs maxes present)
  unfold StatisticsConverter.deriveColumnStats
  rw [converter.forall_bounds, ← panics_sumSizes, ← lowest, ← greatest]
  refine panics_bind_iff (onlyPanics_sumSizes _) fun size => ?_
  rw [typed]
  refine panics_bind_iff
    (onlyPanics_readBound _ fun array => array.onlyPanics_aggregate types dtype _) fun low => ?_
  exact iff_of_eq (congrArg (· = false) (panics_bind_of_safe fun _ => rfl))

theorem onlyPanics_deriveColumnStats (converter : StatisticsConverter) (field : LeafField)
    (sizes : List Int) (dtype : PrimitiveType) (typed : field.valueField.dtype = .ok dtype) :
    OnlyPanics (converter.deriveColumnStats types field sizes) := by
  unfold StatisticsConverter.deriveColumnStats
  refine (onlyPanics_sumSizes _).bind fun size => ?_
  rw [typed]
  refine (onlyPanics_ok dtype).bind fun dtype => ?_
  refine OnlyPanics.bind
    (onlyPanics_readBound _ fun array => array.onlyPanics_aggregate types dtype _) fun low => ?_
  exact OnlyPanics.bind
    (onlyPanics_readBound _ fun array => array.onlyPanics_aggregate types dtype _)
    fun high => onlyPanics_ok _

/-- The fields that statistics are read for have types that are accepted for a table, a column at the
top level is one of the fields, and all statistics are legal. -/
structure ParquetFile.Accepted (file : ParquetFile) : Prop where
  typed : ∀ id field, file.fieldsById.get? id = some field →
    ∃ dtype, field.valueField.dtype = .ok dtype
  named : ∀ column ∈ file.columns, ∀ name, column.path = [name] →
    ∃ field, (name, field) ∈ file.fields
  legal : ∀ column ∈ file.columns, ∀ type, ∀ array ∈ (column.converter type).bounds, array.Legal

/-- The arrays of a column are aggregated as those of a type. -/
def ParquetFile.Reads (file : ParquetFile) (column : ParquetColumn) (dtype : PrimitiveType)
    (converter : StatisticsConverter) : Prop :=
  ∃ id, column.id = some id ∧ ∃ field, file.fieldsById.get? id = some field ∧
    field.valueField.dtype = .ok dtype ∧ file.converter field column = .ok converter

namespace ParquetFile.Accepted

variable {file : ParquetFile} (accepted : file.Accepted)

include accepted

theorem converter_eq_ok (field : LeafField) (column : ParquetColumn)
    (member : column ∈ file.columns) :
    ∃ converter, file.converter field column = .ok converter := by
  unfold ParquetFile.converter
  split
  · rename_i name path
    obtain ⟨named, listed⟩ := accepted.named column member name path
    have present : (file.fields.find? fun field => field.1 = name).isSome = true :=
      List.find?_isSome.mpr ⟨_, listed, decide_eq_true rfl⟩
    split
    · rename_i absent
      rw [absent] at present
      cases present
    · split
      · exact ⟨_, rfl⟩
      · exact ⟨_, rfl⟩
    · exact ⟨_, rfl⟩
    · exact ⟨_, rfl⟩
    · exact ⟨_, rfl⟩
  · exact ⟨_, rfl⟩

omit accepted in
theorem nulls_legal (type : LeafType) (groups : Nat) :
    ∀ array ∈ (StatisticsConverter.nulls type groups).bounds, array.Legal := by
  refine (StatisticsConverter.forall_bounds _ _).mpr ⟨?_, ?_⟩ <;>
    (rintro array ⟨⟩ value present; cases (List.mem_replicate.mp present).2)

theorem converter_legal (field : LeafField) (column : ParquetColumn)
    (member : column ∈ file.columns) (converter : StatisticsConverter)
    (made : file.converter field column = .ok converter) :
    ∀ array ∈ converter.bounds, array.Legal := by
  unfold ParquetFile.converter at made
  split at made
  · split at made
    · cases made
    · split at made
      · rename_i first found
        obtain rfl := Except.ok.inj made
        exact accepted.legal first (List.mem_of_find?_eq_some found) _
      · obtain rfl := Except.ok.inj made
        exact nulls_legal _ _
    · obtain rfl := Except.ok.inj made
      exact nulls_legal _ _
    · obtain rfl := Except.ok.inj made
      exact nulls_legal _ _
    · obtain rfl := Except.ok.inj made
      exact nulls_legal _ _
  · obtain rfl := Except.ok.inj made
    exact accepted.legal column member _

end ParquetFile.Accepted

theorem panics_readColumn (file : ParquetFile) (accepted : file.Accepted) (column : ParquetColumn)
    (member : column ∈ file.columns)
    (convertible : ∀ dtype converter, file.Reads column dtype converter →
      ∀ array ∈ converter.bounds, array.Convertible types dtype)
    (result : IndexMap Int FileColumnStats) :
    OnlyPanics (file.readColumn types result column) ∧
      (panics (file.readColumn types result column) = false ↔
        ∀ dtype converter, file.Reads column dtype converter →
          SumsFit column.sizes ∧ ∀ array ∈ converter.bounds, array.Downcasts dtype) := by
  unfold ParquetFile.readColumn
  cases identified : column.id with
  | none =>
      refine ⟨onlyPanics_ok _, iff_of_true rfl fun dtype converter reads => ?_⟩
      obtain ⟨id, known, -⟩ := reads
      rw [identified] at known
      cases known
  | some id =>
      dsimp only
      cases found : file.fieldsById.get? id with
      | none =>
          refine ⟨onlyPanics_ok _, iff_of_true rfl fun dtype converter reads => ?_⟩
          obtain ⟨id', known, field, listed, -⟩ := reads
          obtain rfl := Option.some.inj (identified.symm.trans known)
          rw [found] at listed
          cases listed
      | some field =>
          obtain ⟨dtype, typed⟩ := accepted.typed id field found
          obtain ⟨converter, made⟩ := accepted.converter_eq_ok field column member
          have read : ∀ dtype' converter', file.Reads column dtype' converter' ↔
              dtype = dtype' ∧ converter = converter' := by
            intro dtype' converter'
            unfold ParquetFile.Reads
            simp only [identified, Option.some.injEq, exists_eq_left', found, typed, made,
              Except.ok.injEq]
          have elements := convertible dtype converter ((read _ _).mpr ⟨rfl, rfl⟩)
          have only := onlyPanics_deriveColumnStats types converter field column.sizes dtype typed
          dsimp only
          rw [made]
          refine ⟨only.bind fun _ => onlyPanics_ok _, ?_⟩
          change panics (_ >>= fun stats => Except.ok (result.insert id stats)) = false ↔ _
          rw [panics_bind_of_safe fun _ => rfl,
            panics_deriveColumnStats types converter field column.sizes dtype typed elements]
          constructor
          · intro safe dtype' converter' reads
            obtain ⟨rfl, rfl⟩ := (read _ _).mp reads
            exact safe
          · intro safe
            exact safe dtype converter ((read _ _).mpr ⟨rfl, rfl⟩)

/-- Neither the statistics of the file nor the conversion of one of them panics. -/
def SafeFile (file : ParquetFile) : Prop :=
  panics (fileStatistics types file) = false ∧
    ∀ column ∈ file.columns, ∀ dtype converter, file.Reads column dtype converter →
      ∀ array ∈ converter.bounds, array.Convertible types dtype

theorem safeFile_iff (file : ParquetFile) (accepted : file.Accepted) :
    SafeFile types file ↔
      ∀ column ∈ file.columns, ∀ dtype converter, file.Reads column dtype converter →
        SumsFit column.sizes ∧ ∀ array ∈ converter.bounds, array.Downcasts dtype ∧
          ∀ value, some value ∈ array.values → InRange dtype array.type value := by
  have elements : ∀ column ∈ file.columns, ∀ dtype converter,
      file.Reads column dtype converter → ∀ array ∈ converter.bounds, array.Downcasts dtype →
        (array.Convertible types dtype ↔
          ∀ value, some value ∈ array.values → InRange dtype array.type value) := by
    intro column member dtype converter reads array bound downcasts
    obtain ⟨id, -, field, -, -, made⟩ := reads
    have legal := accepted.converter_legal field column member converter made array bound
    rcases downcasts with empty | downcast
    · unfold LeafArray.Convertible
      simp [empty]
    · exact array.convertible_iff types dtype downcast legal
  have statistics : (∀ column ∈ file.columns, ∀ dtype converter,
      file.Reads column dtype converter → ∀ array ∈ converter.bounds,
        array.Convertible types dtype) →
          (panics (fileStatistics types file) = false ↔ ∀ column ∈ file.columns,
            ∀ dtype converter, file.Reads column dtype converter → SumsFit column.sizes ∧
              ∀ array ∈ converter.bounds, array.Downcasts dtype) := by
    intro convertible
    have step := fun column member =>
      panics_readColumn types file accepted column member (convertible column member)
    exact panics_foldlM_iff (fun column member state => (step column member state).1)
      (fun column member state => (step column member state).2) _
  constructor
  · rintro ⟨safe, convertible⟩ column member dtype converter reads
    obtain ⟨sums, downcasts⟩ :=
      (statistics convertible).mp safe column member dtype converter reads
    refine ⟨sums, fun array bound => ⟨downcasts array bound, ?_⟩⟩
    exact (elements column member dtype converter reads array bound (downcasts array bound)).mp
      (convertible column member dtype converter reads array bound)
  · intro meets
    have convertible : ∀ column ∈ file.columns, ∀ dtype converter,
        file.Reads column dtype converter → ∀ array ∈ converter.bounds,
          array.Convertible types dtype := by
      intro column member dtype converter reads array bound
      obtain ⟨downcasts, inRange⟩ := (meets column member dtype converter reads).2 array bound
      exact (elements column member dtype converter reads array bound downcasts).mpr inRange
    refine ⟨(statistics convertible).mpr ?_, convertible⟩
    intro column member dtype converter reads
    obtain ⟨sums, bounds⟩ := meets column member dtype converter reads
    exact ⟨sums, fun array bound => (bounds array bound).1⟩

/-! ## Batches and files -/

/-- Statistics and conversions are free of panics exactly on the arrays whose values all fit the
logical type; a file also needs sizes without overflow, and statistics that can be downcast to the
type of the field that has the id of their column. -/
theorem safe_iff
    (schema : Schema)
    (batch : List (Text × PhysicalArray))
    (conforms : BatchConforms schema batch)
    (file : ParquetFile)
    (accepted : file.Accepted) :
    (SafeBatch types schema batch ↔
        ∀ leaf ∈ batchLeaves schema batch, ∀ value, some value ∈ leaf.2.values →
          InRange leaf.1 leaf.2.type value) ∧
      (SafeFile types file ↔
        ∀ column ∈ file.columns, ∀ dtype converter, file.Reads column dtype converter →
          SumsFit column.sizes ∧ ∀ array ∈ converter.bounds, array.Downcasts dtype ∧
            ∀ value, some value ∈ array.values → InRange dtype array.type value) :=
  ⟨safeBatch_iff types schema batch conforms, safeFile_iff types file accepted⟩

end

/-! ## A decimal, an interval and a shared id -/

/-- The documented ranges, with the plain values in them. -/
def plainTypes : ValueTypes where
  decimal mantissa scale :=
    if scale ≤ 28 ∧ -2 ^ 96 < mantissa ∧ mantissa < 2 ^ 96 then some (mkRat mantissa (10 ^ scale))
    else none
  time seconds nanoseconds :=
    if seconds < 86400 ∧ nanoseconds < 2000000000 ∧ (1000000000 ≤ nanoseconds → seconds % 60 = 59)
    then some (seconds * 1000000000 + nanoseconds) else none
  offset seconds := if -86400 < seconds ∧ seconds < 86400 then some seconds else none
  date days := if -96465292 ≤ days ∧ days ≤ 95026236 then some days else none
  timestamp seconds nanoseconds :=
    if -96465292 ≤ seconds / 86400 ∧ seconds / 86400 ≤ 95026236 then
      some (seconds * 1000000000 + nanoseconds) else none
  decimal_isSome _ _ := by split <;> simp_all
  time_isSome _ _ := by split <;> simp_all
  offset_isSome _ := by split <;> simp_all
  date_isSome _ := by split <;> simp_all
  timestamp_isSome _ _ _ := by split <;> simp_all

def oneColumn (dtype : PrimitiveType) : Schema :=
  ⟨.ofList [("c".toList, .mk "c".toList (.primitive dtype) true .empty none (.literal none)
    (some 1))]⟩

def oneArray (type : LeafType) (value : Physical) : List (Text × PhysicalArray) :=
  [("c".toList, .leaf ⟨type, [some value]⟩)]

/-- A column at the top level whose row group stores the same bound twice, if it is read as the
type. -/
def oneGroup (id : Int) (name : Text) (type : LeafType) (stored : Option Physical) :
    ParquetColumn where
  id := some id
  path := [name]
  sizes := [64]
  mins read := some [if read = type then stored else none]
  maxes read := some [if read = type then stored else none]
  nullCounts := some [some 0]

/-- The interval type of Parquet is read as days and milliseconds, without statistics. -/
def intervalFile : ParquetFile where
  fields := [("c".toList, .leaf ⟨.interval .dayTime, none⟩ (some 1))]
  columns := [oneGroup 1 "c".toList (.interval .dayTime) none]

def sharedId : ParquetFile where
  fields := [("a".toList, .leaf ⟨.int32, none⟩ (some 1)),
    ("b".toList, .leaf ⟨.utf8, none⟩ (some 1))]
  columns := [oneGroup 1 "a".toList .int32 (some (.integer 5)),
    oneGroup 1 "b".toList .utf8 (some (.text "x".toList))]

theorem conforms_oneArray (dtype : PrimitiveType) (value : Physical)
    (legal : value.Legal (LeafType.ofType dtype)) :
    BatchConforms (oneColumn dtype) (oneArray (LeafType.ofType dtype) value) := by
  intro field listed
  obtain rfl := List.mem_singleton.mp listed
  refine ⟨_, rfl, rfl, fun found member => ?_⟩
  obtain rfl := Option.some.inj (List.mem_singleton.mp member)
  exact legal

theorem oneGroup_legal (id : Int) (name : Text) (type : LeafType) (stored : Option Physical)
    (legal : ∀ value, stored = some value → value.Legal type) (read : LeafType) :
    ∀ array ∈ ((oneGroup id name type stored).converter read).bounds, array.Legal := by
  have either : ∀ value, some value ∈ [if read.valueType = type then stored else none] →
      value.Legal read.valueType := by
    intro value member
    have found := List.mem_singleton.mp member
    split at found
    · rename_i same
      exact same ▸ legal value found.symm
    · cases found
  refine (StatisticsConverter.forall_bounds _ _).mpr ⟨?_, ?_⟩
  · rintro array ⟨⟩
    exact either
  · rintro array ⟨⟩
    exact either

theorem accepted_intervalFile : intervalFile.Accepted where
  typed id field found := by
    change (IndexMap.insert .empty 1 _).get? id = some field at found
    rw [IndexMap.get?_insert] at found
    split at found
    · obtain rfl := Option.some.inj found
      exact ⟨.interval, rfl⟩
    · cases found
  named column member name path := by
    obtain rfl := List.mem_singleton.mp member
    obtain rfl := (List.cons.inj path).1
    exact ⟨_, .head _⟩
  legal column member := by
    obtain rfl := List.mem_singleton.mp member
    exact oneGroup_legal _ _ _ _ (fun value absurd_ => by cases absurd_)

theorem accepted_sharedId : sharedId.Accepted where
  typed id field found := by
    change (IndexMap.insert (IndexMap.insert .empty 1 _) 1 _).get? id = some field at found
    rw [IndexMap.get?_insert, IndexMap.get?_insert] at found
    split at found
    · obtain rfl := Option.some.inj found
      exact ⟨.varchar, rfl⟩
    · cases found
  named column member name path := by
    simp only [sharedId, List.mem_cons, List.not_mem_nil, or_false] at member
    rcases member with rfl | rfl
    · obtain rfl := (List.cons.inj path).1
      exact ⟨_, .head _⟩
    · obtain rfl := (List.cons.inj path).1
      exact ⟨_, .tail _ (.head _)⟩
  legal column member := by
    simp only [sharedId, List.mem_cons, List.not_mem_nil, or_false] at member
    rcases member with rfl | rfl
    · refine oneGroup_legal _ _ _ _ fun value stored => ?_
      obtain rfl := Option.some.inj stored
      exact ⟨by decide, by decide⟩
    · refine oneGroup_legal _ _ _ _ fun value stored => ?_
      obtain rfl := Option.some.inj stored
      exact trivial

/-- 2^96 has 29 digits, and is more than a decimal with 96 bits holds.  The statistics of the first of
two columns with one id are aggregated as those of the second. -/
theorem unsafe_decimal_interval :
    (BatchConforms (oneColumn (.decimal 38 0)) (oneArray (.decimal128 38 0) (.integer (2 ^ 96))) ∧
        ¬ SafeBatch plainTypes (oneColumn (.decimal 38 0))
          (oneArray (.decimal128 38 0) (.integer (2 ^ 96)))) ∧
      (intervalFile.Accepted ∧ ¬ SafeFile plainTypes intervalFile) ∧
      sharedId.Accepted ∧ ¬ SafeFile plainTypes sharedId := by
  refine ⟨⟨conforms_oneArray (.decimal 38 0) _ ?_, fun safe => ?_⟩,
    ⟨accepted_intervalFile, fun safe => ?_⟩, accepted_sharedId, fun safe => ?_⟩
  · exact ⟨by decide, by decide⟩
  · exact absurd safe.1 (by decide +kernel)
  · exact absurd safe.1 (by decide +kernel)
  · exact absurd safe.1 (by decide +kernel)

theorem safe_iff_date :
    (SafeBatch plainTypes (oneColumn .date) (oneArray .date32 (.integer 20000)) ↔
        ∀ leaf ∈ batchLeaves (oneColumn .date) (oneArray .date32 (.integer 20000)),
          ∀ value, some value ∈ leaf.2.values → InRange leaf.1 leaf.2.type value) ∧
      (SafeFile plainTypes sharedId ↔
        ∀ column ∈ sharedId.columns, ∀ dtype converter, sharedId.Reads column dtype converter →
          SumsFit column.sizes ∧ ∀ array ∈ converter.bounds, array.Downcasts dtype ∧
            ∀ value, some value ∈ array.values → InRange dtype array.type value) :=
  safe_iff plainTypes (oneColumn .date) _
    (conforms_oneArray .date (.integer 20000) ⟨by decide, by decide⟩) sharedId accepted_sharedId

end Ducklake.Io
