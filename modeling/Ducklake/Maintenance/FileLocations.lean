import Ducklake.Io.FilepathGenerator
import Ducklake.Io.StorePath
import Ducklake.Maintenance.ScheduledFiles

/-!
# Locations of files

The way of a stored path: it is read, joined to the paths of its table, resolved to a store and
scheduled for deletion.
-/

set_option autoImplicit false

namespace Ducklake.Maintenance

open Lib Io

/-- The path of a schema, a table or a file in its row, or the default for an empty one. -/
structure PathRow where
  path : Text
  isRelative : Bool
  deriving DecidableEq

section

variable {U P : Type} (urls : Urls U) (objects : ObjectPaths P)

def PathRow.read (row : PathRow) : DucklakeResult (Io.DucklakePath U) :=
  Io.DucklakePath.new urls row.path row.isRelative

/-- What the paths of a schema, a table and a file give below the data path of the catalog: the
data path of the table, the path of the file and its location. -/
def locateFile (root : Io.DucklakePath U) (schema table file : PathRow) :
    DucklakeResult (Io.DucklakePath U × Io.DucklakePath U × Io.DucklakePath U) := do
  let schemaPath ← schema.read urls
  let tablePath ← table.read urls
  let dataPath ← tableDataPath urls root schemaPath tablePath
  let filePath ← file.read urls
  let location ← dataPath.join urls filePath
  .ok (dataPath, filePath, location)

/-- The object of a file and the path by which it is deleted. -/
def handleFile (currentDir : Text) (tableId : Int) (root : Io.DucklakePath U)
    (schema table file : PathRow) : DucklakeResult (P × Io.DucklakePath U) := do
  let (dataPath, filePath, location) ← locateFile urls root schema table file
  let deletion ← buildDeletionFilePath urls filePath tableId (.ofList [(tableId, dataPath)]) root
  let resolved ← location.resolve urls currentDir
  let object ← resolved.object objects
  .ok (object, deletion)

/-! ## What paths designate -/

/-- A relative path stands for itself, any other one for a URL. -/
inductive Reads : PathRow → Io.DucklakePath U → Prop
  | relative (path : Text) : Reads ⟨path, true⟩ (.relative path)
  | file (path : Text) (url : U) : Io.DucklakePath.isAbsoluteFile path = true →
      urls.fromFilePath path = some url → Reads ⟨path, false⟩ (.absolute url)
  | url (path : Text) (url : U) : Io.DucklakePath.isAbsoluteFile path = false →
      urls.parse path = some url → Reads ⟨path, false⟩ (.absolute url)

inductive Below : Io.DucklakePath U → Io.DucklakePath U → Io.DucklakePath U → Prop
  | absolute (base : Io.DucklakePath U) (url : U) : Below base (.absolute url) (.absolute url)
  | url (base url : U) (path : Text) : urls.join base path = some url →
      Below (.absolute base) (.relative path) (.absolute url)
  | directory (base path : Text) : base.getLast? = some '/' →
      Below (.relative base) (.relative path) (.relative (base ++ path))

/-- The rows of a file and its table designate a location. -/
def Designates (root : Io.DucklakePath U) (schema table file : PathRow)
    (location : Io.DucklakePath U) : Prop :=
  ∃ dataPath filePath, Reads urls file filePath ∧ Below urls dataPath filePath location ∧
    ∃ schemaPath tablePath schemaLocation, Reads urls schema schemaPath ∧
      Reads urls table tablePath ∧ Below urls root schemaPath schemaLocation ∧
      Below urls schemaLocation tablePath dataPath

/-- A URL has an object: a file has a path on this host, and an object has a bucket and a key.  The
URLs of other schemes are refused. -/
def HasUrlObject (url : U) : Prop :=
  let parts := urls.parts url
  if parts.scheme = "file".toList then
    ∃ path, urls.toFilePath url = some path ∧ (objects.fromAbsolutePath path).isSome = true
  else if parts.scheme = "s3".toList ∨ parts.scheme = "gs".toList ∨ parts.scheme = "az".toList ∨
      parts.scheme = "abfs".toList then
    (urls.hostStr url).isSome = true ∧ (objects.parse parts.path).isSome = true
  else True

def HasObject (currentDir : Text) : Io.DucklakePath U → Prop
  | .absolute url => HasUrlObject urls objects url
  | .relative path =>
      ∃ url, urls.fromFilePath (currentDir ++ '/' :: path) = some url ∧
        HasUrlObject urls objects url

/-! ## Reading and joining -/

theorem onlyPanics_unwrap {α : Type} (site : String) (found : Option α) :
    OnlyPanics (Io.DucklakePath.unwrap site found) := by
  cases found with
  | some value => exact onlyPanics_ok value
  | none => exact onlyPanics_panicked _

theorem unwrap_eq_ok {α : Type} (site : String) (found : Option α) (value : α) :
    Io.DucklakePath.unwrap site found = .ok value ↔ found = some value := by
  cases found with
  | some other => exact ⟨fun same => congrArg some (Except.ok.inj same),
      fun same => congrArg Except.ok (Option.some.inj same)⟩
  | none =>
      constructor
      · intro failed
        cases failed
      · intro missing
        cases missing

theorem onlyPanics_read (row : PathRow) : OnlyPanics (row.read urls) := by
  rw [PathRow.read, Io.DucklakePath.new]
  split
  · exact onlyPanics_ok _
  · split
    · exact (onlyPanics_unwrap _ _).map _
    · exact (onlyPanics_unwrap _ _).map _

theorem read_eq_ok_iff (row : PathRow) (path : Io.DucklakePath U) :
    row.read urls = .ok path ↔ Reads urls row path := by
  obtain ⟨text, isRelative⟩ := row
  rw [PathRow.read, Io.DucklakePath.new]
  cases isRelative with
  | true =>
      rw [if_pos rfl]
      constructor
      · intro same
        rw [← Except.ok.inj same]
        exact .relative text
      · intro reads
        cases reads
        rfl
  | false =>
      rw [if_neg Bool.false_ne_true]
      cases isFile : Io.DucklakePath.isAbsoluteFile text with
      | true =>
          rw [if_pos rfl, map_eq_ok]
          constructor
          · rintro ⟨url, found, rfl⟩
            exact .file text url isFile ((unwrap_eq_ok _ _ _).mp found)
          · intro reads
            cases reads with
            | file _ url _ found => exact ⟨url, (unwrap_eq_ok _ _ _).mpr found, rfl⟩
            | url _ _ noFile _ => exact absurd (noFile.symm.trans isFile) Bool.false_ne_true
      | false =>
          rw [if_neg Bool.false_ne_true, map_eq_ok]
          constructor
          · rintro ⟨url, found, rfl⟩
            exact .url text url isFile ((unwrap_eq_ok _ _ _).mp found)
          · intro reads
            cases reads with
            | file _ _ file _ => exact absurd (isFile.symm.trans file) Bool.false_ne_true
            | url _ url _ found => exact ⟨url, (unwrap_eq_ok _ _ _).mpr found, rfl⟩

theorem onlyPanics_join (base path : Io.DucklakePath U) : OnlyPanics (base.join urls path) := by
  cases path with
  | absolute url => cases base <;> exact onlyPanics_ok _
  | relative path =>
      cases base with
      | absolute base => exact (onlyPanics_unwrap _ _).map _
      | relative base =>
          rw [Io.DucklakePath.join]
          split
          · exact onlyPanics_ok _
          · exact onlyPanics_panicked _

theorem join_eq_ok_iff (base path location : Io.DucklakePath U) :
    base.join urls path = .ok location ↔ Below urls base path location := by
  cases path with
  | absolute url =>
      have joined : base.join urls (.absolute url) = .ok (.absolute url) := by
        cases base <;> rfl
      rw [joined]
      constructor
      · intro same
        rw [← Except.ok.inj same]
        exact .absolute base url
      · intro below
        cases below
        rfl
  | relative path =>
      cases base with
      | absolute base =>
          rw [Io.DucklakePath.join, map_eq_ok]
          constructor
          · rintro ⟨url, joined, rfl⟩
            exact .url base url path ((unwrap_eq_ok _ _ _).mp joined)
          · intro below
            cases below with
            | url _ url _ joined => exact ⟨url, (unwrap_eq_ok _ _ _).mpr joined, rfl⟩
      | relative base =>
          rw [Io.DucklakePath.join]
          split_ifs with slash
          · constructor
            · intro same
              rw [← Except.ok.inj same]
              exact .directory base path slash
            · intro below
              cases below
              rfl
          · constructor
            · intro failed
              cases failed
            · intro below
              cases below with
              | directory _ _ ends => exact absurd ends slash

/-! ## Locations -/

theorem locateFile_eq_ok_iff (root : Io.DucklakePath U) (schema table file : PathRow)
    (dataPath filePath location : Io.DucklakePath U) :
    locateFile urls root schema table file = .ok (dataPath, filePath, location) ↔
      Reads urls file filePath ∧ Below urls dataPath filePath location ∧
        ∃ schemaPath tablePath schemaLocation, Reads urls schema schemaPath ∧
          Reads urls table tablePath ∧ Below urls root schemaPath schemaLocation ∧
          Below urls schemaLocation tablePath dataPath := by
  simp only [← read_eq_ok_iff, ← join_eq_ok_iff]
  rw [locateFile]
  constructor
  · intro success
    obtain ⟨schemaPath, isSchema, success⟩ := bind_eq_ok.mp success
    obtain ⟨tablePath, isTable, success⟩ := bind_eq_ok.mp success
    obtain ⟨data, isData, success⟩ := bind_eq_ok.mp success
    obtain ⟨found, isFile, success⟩ := bind_eq_ok.mp success
    obtain ⟨place, isPlace, success⟩ := bind_eq_ok.mp success
    obtain ⟨schemaLocation, below, isData⟩ := bind_eq_ok.mp isData
    obtain ⟨rfl, same⟩ := Prod.mk.inj (Except.ok.inj success)
    obtain ⟨rfl, rfl⟩ := Prod.mk.inj same
    exact ⟨isFile, isPlace, schemaPath, tablePath, schemaLocation, isSchema, isTable, below, isData⟩
  · rintro ⟨isFile, isPlace, schemaPath, tablePath, schemaLocation, isSchema, isTable, below, isData⟩
    exact bind_eq_ok.mpr ⟨schemaPath, isSchema, bind_eq_ok.mpr ⟨tablePath, isTable,
      bind_eq_ok.mpr ⟨dataPath, bind_eq_ok.mpr ⟨schemaLocation, below, isData⟩,
        bind_eq_ok.mpr ⟨filePath, isFile, bind_eq_ok.mpr ⟨location, isPlace, rfl⟩⟩⟩⟩⟩

theorem onlyPanics_locateFile (root : Io.DucklakePath U) (schema table file : PathRow) :
    OnlyPanics (locateFile urls root schema table file) := by
  apply (onlyPanics_read urls schema).bind
  intro schemaPath
  apply (onlyPanics_read urls table).bind
  intro tablePath
  apply OnlyPanics.bind
  · apply (onlyPanics_join urls root schemaPath).bind
    intro schemaLocation
    exact onlyPanics_join urls schemaLocation tablePath
  · intro dataPath
    apply (onlyPanics_read urls file).bind
    intro filePath
    apply (onlyPanics_join urls dataPath filePath).bind
    intro location
    exact onlyPanics_ok _

theorem panics_bind_iff_exists {α β : Type} {computation : DucklakeResult α}
    {next : α → DucklakeResult β} (only : OnlyPanics computation) :
    panics (computation >>= next) = false ↔
      ∃ value, computation = .ok value ∧ panics (next value) = false := by
  rw [panics_bind_eq_false]
  constructor
  · rintro ⟨safe, rest⟩
    obtain ⟨value, success⟩ := only.ok safe
    exact ⟨value, success, rest value success⟩
  · rintro ⟨value, success, safe⟩
    rw [success]
    refine ⟨rfl, fun other same => ?_⟩
    rw [← Except.ok.inj same]
    exact safe

theorem buildDeletionFilePath_isOk (root dataPath filePath location : Io.DucklakePath U)
    (tableId : Int)
    (joined : dataPath.join urls filePath = .ok location) :
    ∃ deletion, buildDeletionFilePath urls filePath tableId (.ofList [(tableId, dataPath)]) root =
      .ok deletion := by
  rw [buildDeletionFilePath]
  cases filePath with
  | absolute url => exact ⟨.absolute url, rfl⟩
  | relative path =>
      have found : (IndexMap.ofList [(tableId, dataPath)]).get? tableId = some dataPath :=
        IndexMap.get?_insert_self _ _ _
      rw [if_neg (by simp [Io.DucklakePath.isRelative]), found, Io.DucklakePath.unwrap]
      simp only [bind, Except.bind, joined]
      split
      · exact ⟨_, rfl⟩
      · exact ⟨_, rfl⟩

/-! ## Objects -/

theorem panics_unwrap_path {α : Type} (site : String) (found : Option α) :
    panics (Io.DucklakePath.unwrap site found) = false ↔ found.isSome = true := by
  cases found <;> simp [Io.DucklakePath.unwrap, panics, DucklakeError.isPanic]

theorem panics_inBucket_object (store : Text → Store) (url : U)
    (bucketed : ∀ bucket path, StorePath.object objects ⟨store bucket, path⟩ =
      Io.DucklakePath.unwrap "ObjectStorePath::parse" (objects.parse path)) :
    panics (StorePath.inBucket urls store url >>= StorePath.object objects) = false ↔
      (urls.hostStr url).isSome = true ∧ (objects.parse (urls.parts url).path).isSome = true := by
  rw [StorePath.inBucket, panics_bind_iff_exists ((onlyPanics_unwrap _ _).map _)]
  constructor
  · rintro ⟨resolved, isResolved, safe⟩
    obtain ⟨bucket, host, rfl⟩ := map_eq_ok.mp isResolved
    rw [bucketed, panics_unwrap_path] at safe
    rw [(unwrap_eq_ok _ _ _).mp host]
    exact ⟨rfl, safe⟩
  · rintro ⟨host, key⟩
    obtain ⟨bucket, isBucket⟩ := Option.isSome_iff_exists.mp host
    refine ⟨_, map_eq_ok.mpr ⟨bucket, (unwrap_eq_ok _ _ _).mpr isBucket, rfl⟩, ?_⟩
    rw [bucketed, panics_unwrap_path]
    exact key

theorem panics_object_iff (url : U) :
    panics (StorePath.new urls url >>= StorePath.object objects) = false ↔
      HasUrlObject urls objects url := by
  rw [StorePath.new, HasUrlObject]
  by_cases file : (urls.parts url).scheme = "file".toList
  · rw [if_pos file, if_pos file, panics_bind_iff_exists ((onlyPanics_unwrap _ _).map _)]
    constructor
    · rintro ⟨resolved, isResolved, safe⟩
      obtain ⟨path, isPath, rfl⟩ := map_eq_ok.mp isResolved
      exact ⟨path, (unwrap_eq_ok _ _ _).mp isPath, (panics_unwrap_path _ _).mp safe⟩
    · rintro ⟨path, isPath, key⟩
      exact ⟨_, map_eq_ok.mpr ⟨path, (unwrap_eq_ok _ _ _).mpr isPath, rfl⟩,
        (panics_unwrap_path _ _).mpr key⟩
  rw [if_neg file, if_neg file]
  by_cases s3 : (urls.parts url).scheme = "s3".toList
  · rw [if_pos s3, if_pos (Or.inl s3)]
    exact panics_inBucket_object urls objects .s3 url fun _ _ => rfl
  rw [if_neg s3]
  by_cases gs : (urls.parts url).scheme = "gs".toList
  · rw [if_pos gs, if_pos (Or.inr (Or.inl gs))]
    exact panics_inBucket_object urls objects .gcs url fun _ _ => rfl
  rw [if_neg gs]
  by_cases azure : (urls.parts url).scheme = "az".toList ∨ (urls.parts url).scheme = "abfs".toList
  · rw [if_pos azure, if_pos (Or.inr (Or.inr azure))]
    exact panics_inBucket_object urls objects .azure url fun _ _ => rfl
  · rw [if_neg azure, if_neg fun some_ =>
      some_.elim s3 fun later => later.elim gs azure]
    exact iff_of_true rfl trivial

theorem panics_resolve_object_iff (currentDir : Text) (location : Io.DucklakePath U) :
    panics (location.resolve urls currentDir >>= StorePath.object objects) = false ↔
      HasObject urls objects currentDir location := by
  cases location with
  | absolute url => exact panics_object_iff urls objects url
  | relative path =>
      have assoc : (Io.DucklakePath.relative path : Io.DucklakePath U).resolve urls currentDir >>=
            StorePath.object objects =
          (Io.DucklakePath.unwrap "Url::from_file_path"
            (urls.fromFilePath (currentDir ++ '/' :: path))) >>= fun url =>
              StorePath.new urls url >>= StorePath.object objects :=
        bind_assoc _ _ _
      rw [assoc, panics_bind_iff_exists (onlyPanics_unwrap _ _), HasObject]
      simp only [unwrap_eq_ok, panics_object_iff]

/-- The stored paths of a file reach no panic if they designate a location that has an object. -/
theorem panics_handleFile_iff
    (currentDir : Text)
    (tableId : Int)
    (root : Io.DucklakePath U)
    (schema table file : PathRow) :
    panics (handleFile urls objects currentDir tableId root schema table file) = false ↔
      ∃ location, Designates urls root schema table file location ∧
        HasObject urls objects currentDir location := by
  rw [handleFile, panics_bind_iff_exists (onlyPanics_locateFile urls root schema table file)]
  have rest : ∀ dataPath filePath location,
      locateFile urls root schema table file = .ok (dataPath, filePath, location) →
      (panics (do
        let deletion ←
          buildDeletionFilePath urls filePath tableId (.ofList [(tableId, dataPath)]) root
        let resolved ← location.resolve urls currentDir
        let object ← resolved.object objects
        .ok (object, deletion)) = false ↔ HasObject urls objects currentDir location) := by
    intro dataPath filePath location located
    obtain ⟨-, below, -⟩ := (locateFile_eq_ok_iff urls root schema table file _ _ _).mp located
    obtain ⟨deletion, built⟩ := buildDeletionFilePath_isOk urls root dataPath filePath location tableId
      ((join_eq_ok_iff urls _ _ _).mpr below)
    have kept : ∀ resolved : StorePath,
        panics (resolved.object objects >>= fun object => .ok (object, deletion)) =
          panics (resolved.object objects) :=
      fun resolved => panics_bind_of_safe fun _ => rfl
    rw [built, ← panics_resolve_object_iff]
    change panics (location.resolve urls currentDir >>= fun resolved =>
      resolved.object objects >>= fun object => .ok (object, deletion)) = false ↔ _
    rw [panics_bind_eq_false, panics_bind_eq_false]
    simp only [kept]
  constructor
  · rintro ⟨⟨dataPath, filePath, location⟩, located, safe⟩
    obtain ⟨reads, below, table_⟩ :=
      (locateFile_eq_ok_iff urls root schema table file _ _ _).mp located
    exact ⟨location, ⟨dataPath, filePath, reads, below, table_⟩,
      (rest dataPath filePath location located).mp safe⟩
  · rintro ⟨location, ⟨dataPath, filePath, designates⟩, object⟩
    have located := (locateFile_eq_ok_iff urls root schema table file _ _ _).mpr designates
    exact ⟨_, located, (rest dataPath filePath location located).mpr object⟩

end

/-! ## Concrete paths -/

def isObjectSegment (segment : Text) : Bool :=
  !segment.isEmpty && !(segment = ".".toList) && !(segment = "..".toList) &&
    segment.all fun c => 32 ≤ c.toNat && !(c.toNat = 127)

/-- For runs on concrete inputs: the segments of a path, none of which is empty, a dot segment or
has control characters. -/
def plainObjects : ObjectPaths (List Text) where
  parse path :=
    let segments := ((stripPrefix ['/'] path).getD path).splitOn '/'
    if segments.all isObjectSegment then some segments else none
  fromAbsolutePath path :=
    let segments := ((stripPrefix ['/'] path).getD path).splitOn '/'
    if segments.all isObjectSegment then some segments else none

/-- A file can be registered by a path with an empty directory, but its object panics. -/
theorem panics_handleFile_emptySegment :
    Io.DucklakePath.fromStr plainParser "day//f.parquet".toList =
        .ok (.relative "day//f.parquet".toList) ∧
      panics (handleFile Urls.plain plainObjects [] 1 (.absolute dataUrl) ⟨"main/".toList, true⟩
        ⟨"t/".toList, true⟩ ⟨"day//f.parquet".toList, true⟩) = true := by
  constructor
  · decide
  · decide +kernel

end Ducklake.Maintenance
