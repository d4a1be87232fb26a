import Ducklake.Io.FilepathGenerator
import Ducklake.Transaction.Operations

/-!
# Sinks

`polars/sink.py`: the columns by which a frame is split into files, and the way of their values
through the callbacks of the sink to the rows of the catalog.
-/

set_option autoImplicit false

namespace Ducklake.Polars

open Lib

/-! ## Frames -/

/-- The types that the partition transforms tell apart. -/
inductive Dtype where
  | boolean | date | datetime | float32 | float64 | int8 | int16 | int32 | int64 | string | binary
  | other
  deriving DecidableEq

structure Series (Cell : Type) where
  dtype : Dtype
  cells : List Cell
  deriving DecidableEq

abbrev Frame (Cell : Type) := IndexMap Text (Series Cell)

structure Expressions (Cell : Type) where
  year : Cell → Cell
  month : Cell → Cell
  day : Cell → Cell
  hour : Cell → Cell
  castInt64 : Cell → Cell
  castFloat64 : Cell → Cell
  /-- `expr == 0.0`, which holds of no null. -/
  isZero : Cell → Bool
  zero : Cell
  reinterpretInt64 : Cell → Cell
  mm3Hash : Cell → Option (BitVec 32)
  integer : Option Nat → Cell
  /-- The type of a transformed column. -/
  dtype : PartitionTransform → Dtype → Dtype
  /-- A cell as a value. -/
  value : Cell → Option Value
  /-- A cell as a Python object, from which the value is read. -/
  rowValue : Cell → Option Value

variable {Cell : Type} (polars : Expressions Cell)

/-! ## Partition columns -/

def bucketOf (numBuckets : Nat) (cell : Cell) : Cell :=
  polars.integer ((polars.mm3Hash cell).bind fun hash =>
    -- a remainder by zero is null
    if numBuckets = 0 then none else some ((hash &&& 0x7FFFFFFF#32).toNat % numBuckets))

/-- `_create_bucket_partition`, unless it raises. -/
def createBucketPartition (dtype : Dtype) (numBuckets : Nat) : Option (Cell → Cell) :=
  match dtype with
  | .boolean | .date | .datetime => some fun cell => bucketOf polars numBuckets (polars.castInt64 cell)
  | .float32 | .float64 =>
      some fun cell =>
        let cell := polars.castFloat64 cell
        -- all zeros are the positive one
        let cell := if polars.isZero cell then polars.zero else cell
        bucketOf polars numBuckets (polars.reinterpretInt64 cell)
  | .int8 | .int16 | .int32 | .int64 | .string | .binary => some (bucketOf polars numBuckets)
  | .other => none

def transformCell (transform : PartitionTransform) (dtype : Dtype) : Option (Cell → Cell) :=
  match transform with
  | .bucket numBuckets => createBucketPartition polars dtype numBuckets
  | .year => some polars.year
  | .month => some polars.month
  | .day => some polars.day
  | .hour => some polars.hour
  | .identity => some id

def transformSeries (transform : PartitionTransform) (series : Series Cell) :
    Option (Series Cell) :=
  (transformCell polars transform series.dtype).map fun apply =>
    { dtype := polars.dtype transform series.dtype, cells := series.cells.map apply }

def transformedColumn (frame : Frame Cell) (key : PartitionColumn) : Option (Series Cell) :=
  (frame.get? key.column).bind (transformSeries polars key.transform)

def partitionColumnPrefix : Text :=
  "__ducklake_partition__".toList

def partitionName (key : PartitionColumn) : Text :=
  partitionColumnPrefix ++ key.column

/-- `with_columns` for a partition column. -/
def withPartitionColumn (frame : Frame Cell) (key : PartitionColumn) : Option (Frame Cell) :=
  (transformedColumn polars frame key).map fun series => frame.insert (partitionName key) series

/-- The frame of `_prepare_partitions`. -/
def preparePartitions (frame : Frame Cell) (partitioning : Partition) : Option (Frame Cell) :=
  partitioning.foldlM (withPartitionColumn polars) frame

/-- The names of `_prepare_partitions`, by which polars splits the rows.  It is taken to accept a
name more than once. -/
def partitionColumns (partitioning : Partition) : List Text :=
  partitioning.map partitionName

/-! ## Files -/

/-- A file that polars writes: the rows of the frame in it and the row of its partition keys. -/
structure WrittenFile (Cell : Type) where
  rows : List Nat
  partitionKeys : IndexMap Text Cell
  id : Io.FileId

/-- The keys of a file are the cells of all its rows in the key columns. -/
structure WrittenFile.SplitBy (file : WrittenFile Cell) (frame : Frame Cell) (keys : List Text) :
    Prop where
  names : ∀ name, name ∈ file.partitionKeys.keys ↔ name ∈ keys
  agrees : ∀ row ∈ file.rows, ∀ name cell, file.partitionKeys.get? name = some cell →
    ((frame.get? name).bind fun series => series.cells[row]?) = some cell

/-- `str.removeprefix` -/
def removePrefix (start text : Text) : Text :=
  (stripPrefix start text).getD text

/-- The values of partition keys under the names of their columns, in a dictionary. -/
def namedValues (partitionKeys : IndexMap Text Cell) : IndexMap Text (Option Value) :=
  .ofList (partitionKeys.entries.map fun entry =>
    (removePrefix partitionColumnPrefix entry.1, polars.rowValue entry.2))

section Callbacks

variable {U : Type} (env : Environment) (generator : Io.DataFilePathGenerator U)

def filePath (file : WrittenFile Cell) : Text :=
  generator.generateRelative env (namedValues polars file.partitionKeys) file.id

/-- `_file_path_provider_callback` on the cache of the sink. -/
def filePathProviderCallback (partitionValueCache : IndexMap Text (IndexMap Text Cell))
    (file : WrittenFile Cell) : IndexMap Text (IndexMap Text Cell) :=
  partitionValueCache.insert (filePath polars env generator file) file.partitionKeys

/-- A file of `_sinked_paths_callback`, unless its path is not in the cache. -/
def sinkedFile (basePath : Text) (partitionValueCache : IndexMap Text (IndexMap Text Cell))
    (encryptionKey : Option Text) (path : Text) : Option WriteDataFile :=
  let relativePath := removePrefix basePath path
  (partitionValueCache.get? relativePath).map fun partitions =>
    { path := relativePath
      encryptionKey := encryptionKey
      statistics := none
      partitionValues := some (namedValues polars partitions) }

/-- The files of `_sinked_paths_callback` after polars has written all files. -/
def sinkedPathsCallback (basePath : Text) (encryptionKey : Option Text)
    (files sinked : List (WrittenFile Cell)) : Option (List WriteDataFile) :=
  let cache := files.foldl (filePathProviderCallback polars env generator) .empty
  sinked.mapM fun file =>
    sinkedFile polars basePath cache encryptionKey (basePath ++ filePath polars env generator file)

end Callbacks

/-- The values that `write_data_files` records for a file. -/
def recordedValues (env : Environment) (partitioning : Partition) (dataFile : WriteDataFile) :
    Option (List (Option Text)) :=
  Transaction.commitPartitionValues env (some partitioning)
    { dataFile := dataFile, partitionValues := none, deleteFiles := [], inlineDeletes := [] }

/-! ## Transforms -/

/-- What the transforms of partition columns stand for: the parts of a point in time, the hash of a
value in a column of some type, and the types of transformed columns; and what is left of a value in
a Python object. -/
structure Transforms where
  year : Value → Value
  month : Value → Value
  day : Value → Value
  hour : Value → Value
  hash : Dtype → Value → BitVec 32
  dtype : PartitionTransform → Dtype → Dtype
  python : Value → Value

def Transforms.apply (transforms : Transforms) (transform : PartitionTransform) (dtype : Dtype)
    (value : Option Value) : Option Value :=
  match transform with
  | .bucket numBuckets =>
      if numBuckets = 0 then none
      else value.map fun value =>
        .scalar (.int64 ((transforms.hash dtype value).toNat % 2 ^ 31 % numBuckets : Nat))
  | .year => value.map transforms.year
  | .month => value.map transforms.month
  | .day => value.map transforms.day
  | .hour => value.map transforms.hour
  | .identity => value

/-- The expressions of polars compute the transforms of the values of cells. -/
structure Expressions.Computes (transforms : Transforms) : Prop where
  year : ∀ cell, polars.value (polars.year cell) = (polars.value cell).map transforms.year
  month : ∀ cell, polars.value (polars.month cell) = (polars.value cell).map transforms.month
  day : ∀ cell, polars.value (polars.day cell) = (polars.value cell).map transforms.day
  hour : ∀ cell, polars.value (polars.hour cell) = (polars.value cell).map transforms.hour
  integer : ∀ count, polars.value (polars.integer count) =
    count.map fun count : Nat => .scalar (.int64 count)
  hash : ∀ dtype ∈ [.int8, .int16, .int32, .int64, .string, .binary], ∀ cell,
    polars.mm3Hash cell = (polars.value cell).map (transforms.hash dtype)
  hashInt64 : ∀ dtype ∈ [.boolean, .date, .datetime], ∀ cell,
    polars.mm3Hash (polars.castInt64 cell) = (polars.value cell).map (transforms.hash dtype)
  hashFloat : ∀ dtype ∈ [.float32, .float64], ∀ cell, polars.isZero (polars.castFloat64 cell) = false →
    polars.mm3Hash (polars.reinterpretInt64 (polars.castFloat64 cell)) =
      (polars.value cell).map (transforms.hash dtype)
  /-- All zeros have the hash of one of them. -/
  hashZero : ∀ dtype ∈ [.float32, .float64], ∀ cell, polars.isZero (polars.castFloat64 cell) = true →
    polars.mm3Hash (polars.reinterpretInt64 polars.zero) =
      (polars.value cell).map (transforms.hash dtype)
  dtype : polars.dtype = transforms.dtype
  python : ∀ cell, polars.rowValue cell = (polars.value cell).map transforms.python

/-- What a column holds in a row of a frame: a value, in a column of some type. -/
def held (frame : Frame Cell) (row : Nat) (column : Text) : Option (Dtype × Option Value) :=
  (frame.get? column).bind fun series =>
    series.cells[row]?.map fun cell => (series.dtype, polars.value cell)

variable (transforms : Transforms)

def Transforms.expected (holds : Text → Option (Dtype × Option Value)) (key : PartitionColumn) :
    Option (Option Value) :=
  (holds key.column).map fun cell => transforms.apply key.transform cell.1 cell.2

/-- A row with the value of a key, under the name of the key. -/
def Transforms.add (holds : Text → Option (Dtype × Option Value)) (key : PartitionColumn)
    (column : Text) : Option (Dtype × Option Value) :=
  if column = partitionName key then
    (holds key.column).map fun cell =>
      (transforms.dtype key.transform cell.1, transforms.apply key.transform cell.1 cell.2)
  else holds column

/-- There is a value for each partition column: its transform, in each row of the file. -/
structure RecordsTransforms (env : Environment) (frame : Frame Cell) (partitioning : Partition)
    (file : WrittenFile Cell) (values : List (Option Text)) : Prop where
  count : values.length = partitioning.length
  transformed : ∀ (position : Nat) key, partitioning[position]? = some key → ∀ row ∈ file.rows,
    ∃ value, transforms.expected (held polars frame row) key = some value ∧
      values[position]? = some (value.map env.formatValue)

/-- In a row, the last key of the sink over the column of a partition column gives the same text as
the partition column's own transform. -/
def SameTransform (env : Environment) (frame : Frame Cell) (partitioning : Partition)
    (key : PartitionColumn) (row : Nat) : Prop :=
  ∀ front last back, partitioning = front ++ last :: back → last.column = key.column →
    (∀ later ∈ back, later.column ≠ key.column) →
      ∃ written value,
        transforms.expected (front.foldl transforms.add (held polars frame row)) last =
            some written ∧
          transforms.expected (held polars frame row) key = some value ∧
          (written.map transforms.python).map env.formatValue = value.map env.formatValue

/-! ## Lookups -/

theorem mapM_eq_some_iff {α β : Type} (f : α → Option β) (items : List α) (values : List β) :
    items.mapM f = some values ↔ items.map f = values.map some := by
  induction items generalizing values with
  | nil => cases values <;> simp
  | cons item items ih =>
      rw [List.mapM_cons, List.map_cons]
      cases values with
      | nil => cases f item <;> cases items.mapM f <;> simp
      | cons value values =>
          rw [List.map_cons, List.cons.injEq, ← ih]
          cases f item <;> cases items.mapM f <;> simp

theorem exists_map_some {α β : Type} (f : α → Option β) (items : List α)
    (defined : ∀ item ∈ items, (f item).isSome = true) :
    ∃ values : List β, items.map f = values.map some := by
  induction items with
  | nil => exact ⟨[], rfl⟩
  | cons item items ih =>
      obtain ⟨value, isValue⟩ := Option.isSome_iff_exists.mp (defined item List.mem_cons_self)
      obtain ⟨values, same⟩ := ih fun other member => defined other (List.mem_cons_of_mem _ member)
      exact ⟨value :: values, by rw [List.map_cons, List.map_cons, isValue, same]⟩

theorem removePrefix_append (start rest : Text) : removePrefix start (start ++ rest) = rest := by
  rw [removePrefix, (stripPrefix_eq_some_iff start _ rest).mpr rfl]
  rfl

theorem removePrefix_partitionName (key : PartitionColumn) :
    removePrefix partitionColumnPrefix (partitionName key) = key.column :=
  removePrefix_append partitionColumnPrefix key.column

theorem get?_namedValues (partitionKeys : IndexMap Text Cell) (partitioning : Partition)
    (names : ∀ name, name ∈ partitionKeys.keys ↔ name ∈ partitionColumns partitioning)
    (key : PartitionColumn) :
    (namedValues polars partitionKeys).get? key.column =
      (partitionKeys.get? (partitionName key)).map polars.rowValue := by
  have isName : ∀ entry ∈ partitionKeys.entries, ∃ other ∈ partitioning,
      entry.1 = partitionName other := by
    intro entry member
    obtain ⟨other, inside, same⟩ :=
      List.mem_map.mp ((names entry.1).mp (List.mem_map_of_mem member))
    exact ⟨other, inside, same.symm⟩
  have functional : ∀ entry ∈ partitionKeys.entries, ∀ other ∈ partitionKeys.entries,
      removePrefix partitionColumnPrefix entry.1 = removePrefix partitionColumnPrefix other.1 →
        entry = other := by
    intro entry member other inside same
    obtain ⟨first, -, isFirst⟩ := isName entry member
    obtain ⟨second, -, isSecond⟩ := isName other inside
    rw [isFirst, isSecond, removePrefix_partitionName, removePrefix_partitionName] at same
    apply List.inj_on_of_nodup_map partitionKeys.unique member inside
    rw [isFirst, isSecond, partitionName, partitionName, same]
  ext value
  rw [namedValues, IndexMap.get?_ofList_of_functional, Option.map_eq_some_iff, List.mem_map]
  · constructor
    · rintro ⟨entry, member, same⟩
      obtain ⟨column, rfl⟩ := Prod.mk.inj same
      obtain ⟨other, -, isOther⟩ := isName entry member
      rw [isOther, removePrefix_partitionName] at column
      refine ⟨entry.2, (IndexMap.get?_eq_some_iff _ _ _).mpr ?_, rfl⟩
      rw [partitionName, ← column, ← partitionName, ← isOther]
      exact member
    · rintro ⟨cell, found, rfl⟩
      refine ⟨_, (IndexMap.get?_eq_some_iff _ _ _).mp found, ?_⟩
      rw [removePrefix_partitionName]
  · intro entry member other inside same
    obtain ⟨first, isFirst, rfl⟩ := List.mem_map.mp member
    obtain ⟨second, isSecond, rfl⟩ := List.mem_map.mp inside
    rw [functional first isFirst second isSecond same]

/-! ## Columns of the prepared frame -/

theorem partitionName_inj (key other : PartitionColumn) :
    partitionName key = partitionName other ↔ key.column = other.column := by
  rw [partitionName, partitionName, List.append_cancel_left_eq]

theorem withPartitionColumn_eq_some (frame next : Frame Cell) (key : PartitionColumn)
    (added : withPartitionColumn polars frame key = some next) :
    ∃ series, transformedColumn polars frame key = some series ∧
      next = frame.insert (partitionName key) series := by
  obtain ⟨series, transformed, rfl⟩ := Option.map_eq_some_iff.mp added
  exact ⟨series, transformed, rfl⟩

/-- Columns for other columns leave the partition column of a column alone. -/
theorem get?_preparePartitions_of_other (frame prepared : Frame Cell) (keys : Partition)
    (key : PartitionColumn)
    (ready : preparePartitions polars frame keys = some prepared)
    (others : ∀ other ∈ keys, other.column ≠ key.column) :
    prepared.get? (partitionName key) = frame.get? (partitionName key) := by
  induction keys generalizing frame with
  | nil =>
      rw [Option.some.inj ready]
  | cons first rest ih =>
      rw [preparePartitions, List.foldlM_cons] at ready
      obtain ⟨next, added, ready⟩ := Option.bind_eq_some_iff.mp ready
      obtain ⟨series, -, rfl⟩ := withPartitionColumn_eq_some polars frame next first added
      rw [ih _ ready fun other later => others other (List.mem_cons_of_mem _ later)]
      apply IndexMap.get?_insert_of_ne
      rw [ne_eq, partitionName_inj]
      exact (others first List.mem_cons_self).symm

/-- A partition column is the transform of the last key over its column, on the frame with the
columns of the keys in front. -/
theorem get?_preparePartitions (frame prepared : Frame Cell) (front back : Partition)
    (key : PartitionColumn)
    (ready : preparePartitions polars frame (front ++ key :: back) = some prepared)
    (last : ∀ later ∈ back, later.column ≠ key.column) :
    ∃ middle series, preparePartitions polars frame front = some middle ∧
      transformedColumn polars middle key = some series ∧
      prepared.get? (partitionName key) = some series := by
  rw [preparePartitions, List.foldlM_append] at ready
  obtain ⟨middle, prefix_, ready⟩ := Option.bind_eq_some_iff.mp ready
  rw [List.foldlM_cons] at ready
  obtain ⟨next, added, ready⟩ := Option.bind_eq_some_iff.mp ready
  obtain ⟨series, transformed, rfl⟩ := withPartitionColumn_eq_some polars middle next key added
  refine ⟨middle, series, prefix_, transformed, ?_⟩
  rw [get?_preparePartitions_of_other polars _ prepared back key ready last]
  exact IndexMap.get?_insert_self _ _ _

/-! ## Values of the prepared frame -/

section

variable {polars transforms} (computes : polars.Computes transforms)

include computes

theorem Expressions.Computes.bucketOf (numBuckets : Nat) (dtype : Dtype) (cell : Cell)
    (value : Option Value)
    (hashed : polars.mm3Hash cell = value.map (transforms.hash dtype)) :
    polars.value (bucketOf polars numBuckets cell) =
      transforms.apply (.bucket numBuckets) dtype value := by
  have masked : ∀ hash : BitVec 32, (hash &&& 0x7FFFFFFF#32).toNat = hash.toNat % 2 ^ 31 :=
    fun hash => Nat.and_two_pow_sub_one_eq_mod hash.toNat 31
  rw [Polars.bucketOf, computes.integer, hashed, Transforms.apply]
  split
  · cases value <;> rfl
  · cases value with
    | none => rfl
    | some value => simp [masked]

theorem Expressions.Computes.transformCell (transform : PartitionTransform) (dtype : Dtype)
    (apply : Cell → Cell)
    (isTransform : transformCell polars transform dtype = some apply)
    (cell : Cell) :
    polars.value (apply cell) = transforms.apply transform dtype (polars.value cell) := by
  cases transform with
  | identity =>
      obtain rfl := Option.some.inj isTransform
      rfl
  | year =>
      obtain rfl := Option.some.inj isTransform
      exact computes.year cell
  | month =>
      obtain rfl := Option.some.inj isTransform
      exact computes.month cell
  | day =>
      obtain rfl := Option.some.inj isTransform
      exact computes.day cell
  | hour =>
      obtain rfl := Option.some.inj isTransform
      exact computes.hour cell
  | bucket numBuckets =>
      rw [Polars.transformCell] at isTransform
      cases dtype with
      | boolean | date | datetime =>
          obtain rfl := Option.some.inj isTransform
          exact computes.bucketOf _ _ _ _ (computes.hashInt64 _ (by simp) cell)
      | float32 | float64 =>
          obtain rfl := Option.some.inj isTransform
          apply computes.bucketOf
          split
          · exact computes.hashZero _ (by simp) cell ‹_›
          · exact computes.hashFloat _ (by simp) cell (Bool.eq_false_iff.mpr ‹_›)
      | int8 | int16 | int32 | int64 | string | binary =>
          obtain rfl := Option.some.inj isTransform
          exact computes.bucketOf _ _ _ _ (computes.hash _ (by simp) cell)
      | other => cases isTransform

theorem Expressions.Computes.transformedColumn (frame : Frame Cell) (key : PartitionColumn)
    (series : Series Cell)
    (transformed : transformedColumn polars frame key = some series)
    (row : Nat) :
    (series.cells[row]?.map fun cell => (series.dtype, polars.value cell)) =
      (held polars frame row key.column).map fun cell =>
        (transforms.dtype key.transform cell.1, transforms.apply key.transform cell.1 cell.2) := by
  obtain ⟨source, found, transformed⟩ := Option.bind_eq_some_iff.mp transformed
  obtain ⟨apply, isTransform, rfl⟩ := Option.map_eq_some_iff.mp transformed
  rw [held, found, Option.bind_some, List.getElem?_map, computes.dtype]
  cases source.cells[row]? with
  | none => rfl
  | some cell =>
      simp [computes.transformCell key.transform source.dtype apply isTransform cell]

theorem Expressions.Computes.expected (frame : Frame Cell) (key : PartitionColumn)
    (series : Series Cell)
    (transformed : Polars.transformedColumn polars frame key = some series)
    (row : Nat)
    (cell : Cell)
    (isCell : series.cells[row]? = some cell) :
    transforms.expected (held polars frame row) key = some (polars.value cell) := by
  have columns := computes.transformedColumn frame key series transformed row
  rw [isCell] at columns
  have values := congrArg (Option.map Prod.snd) columns
  rw [Option.map_map, Option.map_map] at values
  exact values.symm

theorem Expressions.Computes.held_preparePartitions (frame prepared : Frame Cell) (keys : Partition)
    (ready : preparePartitions polars frame keys = some prepared)
    (row : Nat) :
    held polars prepared row = keys.foldl transforms.add (held polars frame row) := by
  induction keys generalizing frame with
  | nil =>
      rw [Option.some.inj ready]
      rfl
  | cons first rest ih =>
      rw [preparePartitions, List.foldlM_cons] at ready
      obtain ⟨next, added, ready⟩ := Option.bind_eq_some_iff.mp ready
      obtain ⟨series, transformed, rfl⟩ := withPartitionColumn_eq_some polars frame next first added
      rw [ih _ ready, List.foldl_cons]
      congr 1
      ext1 column
      rw [Transforms.add, ← computes.transformedColumn frame first series transformed row, held,
        IndexMap.get?_insert]
      split
      · rfl
      · rfl

end

theorem exists_last {α : Type} (p : α → Prop) [DecidablePred p] (items : List α)
    (some_ : ∃ item ∈ items, p item) :
    ∃ front last back, items = front ++ last :: back ∧ p last ∧ ∀ later ∈ back, ¬ p later := by
  induction items with
  | nil =>
      obtain ⟨_, member, _⟩ := some_
      cases member
  | cons first rest ih =>
      by_cases later : ∃ item ∈ rest, p item
      · obtain ⟨front, last, back, rfl, holds, none_⟩ := ih later
        exact ⟨first :: front, last, back, rfl, holds, none_⟩
      · obtain ⟨item, member, holds⟩ := some_
        rcases List.mem_cons.mp member with rfl | inside
        · exact ⟨[], item, rest, rfl, holds, fun other inside found => later ⟨other, inside, found⟩⟩
        · exact absurd ⟨item, inside, holds⟩ later

/-! ## Values of a file -/

section

variable {U : Type} (env : Environment) (generator : Io.DataFilePathGenerator U)

theorem get?_cache (files : List (WrittenFile Cell)) (distinct : (files.map WrittenFile.id).Nodup)
    (file : WrittenFile Cell) (member : file ∈ files) :
    (files.foldl (filePathProviderCallback polars env generator) .empty).get?
        (filePath polars env generator file) = some file.partitionKeys := by
  have same : files.foldl (filePathProviderCallback polars env generator) .empty =
      .ofList (files.map fun file => (filePath polars env generator file, file.partitionKeys)) := by
    rw [IndexMap.ofList, List.foldl_map]
    rfl
  rw [same, IndexMap.get?_ofList_of_functional]
  · exact List.mem_map.mpr ⟨file, member, rfl⟩
  · intro entry isEntry other isOther paths
    obtain ⟨first, inFirst, rfl⟩ := List.mem_map.mp isEntry
    obtain ⟨second, inSecond, rfl⟩ := List.mem_map.mp isOther
    have ids := Io.DataFilePathGenerator.id_of_generateRelative_eq env generator _ _ _ _ paths
    rw [List.inj_on_of_nodup_map distinct inFirst inSecond ids]

theorem partitionValues_of_sinked (basePath : Text) (encryptionKey : Option Text)
    (files sinked : List (WrittenFile Cell)) (written : List WriteDataFile)
    (distinct : (files.map WrittenFile.id).Nodup)
    (reported : ∀ file ∈ sinked, file ∈ files)
    (success : sinkedPathsCallback polars env generator basePath encryptionKey files sinked =
      some written)
    (index : Nat) (file : WrittenFile Cell) (dataFile : WriteDataFile)
    (isFile : sinked[index]? = some file) (isData : written[index]? = some dataFile) :
    dataFile.partitionValues = some (namedValues polars file.partitionKeys) := by
  have all := congrArg (fun items => items[index]?) ((mapM_eq_some_iff _ _ _).mp success)
  simp only [List.getElem?_map, isFile, isData, Option.map_some, sinkedFile,
    removePrefix_append] at all
  rw [get?_cache polars env generator files distinct file
    (reported file (List.mem_of_getElem? isFile))] at all
  rw [← Option.some.inj (Option.some.inj all)]

theorem written_of_sinked (basePath : Text) (encryptionKey : Option Text)
    (files sinked : List (WrittenFile Cell)) (written : List WriteDataFile)
    (success : sinkedPathsCallback polars env generator basePath encryptionKey files sinked =
      some written)
    (index : Nat) (file : WrittenFile Cell) (isFile : sinked[index]? = some file) :
    ∃ dataFile, written[index]? = some dataFile := by
  have all := congrArg (fun items => items[index]?) ((mapM_eq_some_iff _ _ _).mp success)
  simp only [List.getElem?_map, isFile, Option.map_some] at all
  obtain ⟨dataFile, isData, -⟩ := Option.map_eq_some_iff.mp all.symm
  exact ⟨dataFile, isData⟩

/-- What is recorded for a partition column, by the keys of the file. -/
def recordedValue (partitionKeys : IndexMap Text Cell) (key : PartitionColumn) :
    Option (Option Text) :=
  (partitionKeys.get? (partitionName key)).map fun cell =>
    (polars.rowValue cell).map env.formatValue

theorem recordedValues_eq_some_iff (partitioning target : Partition)
    (partitionKeys : IndexMap Text Cell)
    (names : ∀ name, name ∈ partitionKeys.keys ↔ name ∈ partitionColumns partitioning)
    (dataFile : WriteDataFile)
    (isValues : dataFile.partitionValues = some (namedValues polars partitionKeys))
    (values : List (Option Text)) :
    recordedValues env target dataFile = some values ↔
      target.map (recordedValue polars env partitionKeys) = values.map some := by
  unfold recordedValues Transaction.commitPartitionValues
  dsimp only
  rw [isValues]
  dsimp only
  rw [mapM_eq_some_iff]
  have each : ∀ key ∈ target,
      (((namedValues polars partitionKeys).get? key.column).map fun value =>
        value.map env.formatValue) = recordedValue polars env partitionKeys key := by
    intro key _
    rw [get?_namedValues polars partitionKeys partitioning names key, Option.map_map]
    rfl
  rw [List.map_congr_left each]

theorem recordedValue_isSome_iff (partitioning : Partition) (partitionKeys : IndexMap Text Cell)
    (names : ∀ name, name ∈ partitionKeys.keys ↔ name ∈ partitionColumns partitioning)
    (key : PartitionColumn) :
    (recordedValue polars env partitionKeys key).isSome = true ↔
      key.column ∈ partitioning.map PartitionColumn.column := by
  have present : (partitionKeys.get? (partitionName key)).isSome = true ↔
      partitionName key ∈ partitionKeys.keys := by
    rw [← not_iff_not, Bool.not_eq_true, Option.isSome_eq_false_iff, Option.isNone_iff_eq_none]
    exact IndexMap.get?_eq_none_iff _ _
  rw [recordedValue, Option.isSome_map, present, names, partitionColumns, List.mem_map, List.mem_map]
  simp only [partitionName_inj]

theorem covered_of_recordedValues (partitioning target : Partition)
    (partitionKeys : IndexMap Text Cell)
    (names : ∀ name, name ∈ partitionKeys.keys ↔ name ∈ partitionColumns partitioning)
    (values : List (Option Text))
    (recorded : target.map (recordedValue polars env partitionKeys) = values.map some) :
    ∀ key ∈ target, key.column ∈ partitioning.map PartitionColumn.column := by
  intro key isKey
  rw [← recordedValue_isSome_iff polars env partitioning _ names key]
  have inside := List.mem_map_of_mem (f := recordedValue polars env partitionKeys) isKey
  rw [recorded] at inside
  obtain ⟨value, -, same⟩ := List.mem_map.mp inside
  rw [← same]
  rfl

/-- The value recorded for a partition column is the last key's transform of its column. -/
theorem recordedValue_iff (computes : polars.Computes transforms) (frame prepared : Frame Cell)
    (partitioning : Partition)
    (ready : preparePartitions polars frame partitioning = some prepared)
    (file : WrittenFile Cell)
    (split : file.SplitBy prepared (partitionColumns partitioning))
    (key : PartitionColumn)
    (covered : key.column ∈ partitioning.map PartitionColumn.column)
    (row : Nat)
    (inFile : row ∈ file.rows)
    (value : Option Text)
    (recorded : recordedValue polars env file.partitionKeys key = some value) :
    (∃ own, transforms.expected (held polars frame row) key = some own ∧
        value = own.map env.formatValue) ↔
      SameTransform polars transforms env frame partitioning key row := by
  obtain ⟨found, isKey, rfl⟩ := Option.map_eq_some_iff.mp recorded
  have inRow := split.agrees row inFile _ found isKey
  rw [computes.python]
  -- What the frame holds in the partition column is what the last key over the column reads.
  have written : ∀ front last back, partitioning = front ++ last :: back →
      last.column = key.column → (∀ later ∈ back, later.column ≠ key.column) →
      transforms.expected (front.foldl transforms.add (held polars frame row)) last =
        some (polars.value found) := by
    intro front last back shape column none_
    rw [shape] at ready
    obtain ⟨middle, series, reached, transformed, atName⟩ :=
      get?_preparePartitions polars frame prepared front back last ready (by rwa [column])
    rw [(partitionName_inj last key).mpr column] at atName
    rw [atName] at inRow
    rw [← computes.held_preparePartitions frame middle front reached row]
    exact computes.expected middle last series transformed row found inRow
  constructor
  · rintro ⟨own, isOwn, same⟩ front last back shape column none_
    exact ⟨_, own, written front last back shape column none_, isOwn, same⟩
  · intro agrees
    obtain ⟨other, member, column⟩ := List.mem_map.mp covered
    obtain ⟨front, last, back, shape, sameColumn, none_⟩ :=
      exists_last (fun other => other.column = key.column) partitioning ⟨other, member, column⟩
    obtain ⟨read, own, isRead, isOwn, same⟩ := agrees front last back shape sameColumn none_
    rw [written front last back shape sameColumn none_] at isRead
    obtain rfl := Option.some.inj isRead
    exact ⟨own, isOwn, same⟩

theorem Transforms.foldl_add_of_unprefixed (holds : Text → Option (Dtype × Option Value))
    (keys : Partition) (column : Text)
    (unprefixed : ∀ key ∈ keys, column ≠ partitionName key) :
    keys.foldl transforms.add holds column = holds column := by
  induction keys generalizing holds with
  | nil => rfl
  | cons first rest ih =>
      rw [List.foldl_cons, ih _ fun key later => unprefixed key (List.mem_cons_of_mem _ later),
        Transforms.add, if_neg (unprefixed first List.mem_cons_self)]

/-- Keys over different columns, none of which is a partition column, are their own transforms. -/
theorem sameTransform_of_distinct
    (faithful : ∀ value, env.formatValue (transforms.python value) = env.formatValue value)
    (frame : Frame Cell)
    (partitioning : Partition)
    (distinct : (partitioning.map PartitionColumn.column).Nodup)
    (unprefixed : ∀ key ∈ partitioning, ∀ other ∈ partitioning, key.column ≠ partitionName other)
    (key : PartitionColumn)
    (member : key ∈ partitioning)
    (row : Nat)
    (value : Option Value)
    (isValue : transforms.expected (held polars frame row) key = some value) :
    SameTransform polars transforms env frame partitioning key row := by
  intro front last back shape column _
  have inside : last ∈ partitioning := by
    rw [shape]
    exact List.mem_append_right _ List.mem_cons_self
  obtain rfl := List.inj_on_of_nodup_map distinct inside member column
  have same := transforms.foldl_add_of_unprefixed (held polars frame row) front last.column
    fun other isOther => unprefixed last member other (by
      rw [shape]
      exact List.mem_append_left _ isOther)
  refine ⟨value, value, ?_, isValue, ?_⟩
  · rw [Transforms.expected, same]
    exact isValue
  · rw [Option.map_map]
    exact Option.map_congr fun value _ => faithful value

end

/-! ## Concrete sinks -/

def laborDay : Expressions (Option Value) where
  year := Option.map fun _ => .scalar (.int32 2024)
  month := Option.map fun _ => .scalar (.int32 5)
  day := Option.map fun _ => .scalar (.int32 1)
  hour := Option.map fun _ => .scalar (.int32 0)
  castInt64 := id
  castFloat64 := id
  isZero _ := false
  zero := none
  reinterpretInt64 := id
  mm3Hash := Option.map fun _ => 0
  integer := Option.map fun count => .scalar (.int64 count)
  dtype transform dtype := if transform = .identity then dtype else .int32
  value := id
  rowValue := id

def laborDayTransforms : Transforms where
  year _ := .scalar (.int32 2024)
  month _ := .scalar (.int32 5)
  day _ := .scalar (.int32 1)
  hour _ := .scalar (.int32 0)
  hash _ _ := 0
  dtype transform dtype := if transform = .identity then dtype else .int32
  python := id

theorem laborDay_computes : laborDay.Computes laborDayTransforms where
  year _ := rfl
  month _ := rfl
  day _ := rfl
  hour _ := rfl
  integer _ := rfl
  hash _ _ _ := rfl
  hashInt64 _ _ _ := rfl
  hashFloat _ _ _ _ := rfl
  hashZero _ _ _ zero := absurd zero (by simp [laborDay])
  dtype := rfl
  python cell := by cases cell <;> rfl

def integerEnvironment : Environment :=
  { Environment.plain with
    formatValue := fun value => match value with
      | .scalar (.int32 value) => Nat.toDigits 10 value.toNat
      | .scalar (.varchar text) => text
      | _ => [] }

def visits : Frame (Option Value) :=
  .ofList [("day".toList, ⟨.date, [some (.scalar (.date 19844))]⟩),
    ("city".toList, ⟨.string, [some (.scalar (.varchar "Ulm".toList))]⟩)]

def visitsFile (keys : List (Text × Option Value)) : WrittenFile (Option Value) where
  rows := [0]
  partitionKeys := .ofList keys
  id := Io.someId

def byYearAndCity : Partition :=
  [⟨"day".toList, .year⟩, ⟨"city".toList, .identity⟩]

def yearAndCityFile : WrittenFile (Option Value) :=
  visitsFile [(partitionName ⟨"day".toList, .year⟩, some (.scalar (.int32 2024))),
    (partitionName ⟨"city".toList, .identity⟩, some (.scalar (.varchar "Ulm".toList)))]

def byYearAndMonth : Partition :=
  [⟨"day".toList, .year⟩, ⟨"day".toList, .month⟩]

/-- Both keys over the column have one partition column. -/
def yearAndMonthFile : WrittenFile (Option Value) :=
  visitsFile [(partitionName ⟨"day".toList, .month⟩, some (.scalar (.int32 5)))]

theorem WrittenFile.splitBy_of_entries (frame : Frame (Option Value))
    (file : WrittenFile (Option Value))
    (keys : List Text)
    (names : ∀ name, name ∈ file.partitionKeys.keys ↔ name ∈ keys)
    (cells : ∀ row ∈ file.rows, ∀ entry ∈ file.partitionKeys.entries,
      ((frame.get? entry.1).bind fun series => series.cells[row]?) = some entry.2) :
    file.SplitBy frame keys where
  names := names
  agrees row inFile _ _ found := cells row inFile _ ((IndexMap.get?_eq_some_iff _ _ _).mp found)

def sinkVisits (file : WrittenFile (Option Value)) : Option (List WriteDataFile) :=
  sinkedPathsCallback laborDay integerEnvironment Io.warehouse "s3://bucket/lake/".toList none [file]
    [file]

/-- The file has the cells of its row in the prepared frame. -/
def holdsCells (file : WrittenFile (Option Value)) (frame : Frame (Option Value)) : Bool :=
  file.rows.all fun row => file.partitionKeys.entries.all fun entry =>
    ((frame.get? entry.1).bind fun series => series.cells[row]?) = some entry.2

theorem splitBy_of_holdsCells (partitioning : Partition) (prepared : Frame (Option Value))
    (file : WrittenFile (Option Value))
    (ready : preparePartitions laborDay visits partitioning = some prepared)
    (names : ∀ name, name ∈ file.partitionKeys.keys ↔ name ∈ partitionColumns partitioning)
    (holds : (preparePartitions laborDay visits partitioning).any (holdsCells file) = true) :
    file.SplitBy prepared (partitionColumns partitioning) := by
  rw [ready, Option.any_some, holdsCells] at holds
  apply WrittenFile.splitBy_of_entries prepared file _ names
  intro row inFile entry member
  exact of_decide_eq_true (List.all_eq_true.mp (List.all_eq_true.mp holds row inFile) entry member)

end Ducklake.Polars
