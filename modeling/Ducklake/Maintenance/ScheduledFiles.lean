import Ducklake.Io.Path
import Ducklake.Lib.IndexMap

/-!
# Files scheduled for deletion

The paths that `maintenance/expire_snapshots.rs` schedules for deletion, and those that
`maintenance/cleanup_old_files.rs` reads back.
-/

set_option autoImplicit false

namespace Ducklake

open Lib

structure Spec.DucklakeFilesScheduledForDeletion where
  dataFileId : Int
  path : Text
  pathIsRelative : Bool
  scheduleStart : Int
  deriving DecidableEq

namespace Maintenance

open Io Spec

variable {U : Type} (urls : Urls U)

/-- `TableView::data_path` and `query_table_data_path` -/
def tableDataPath (baseDataPath schemaPath tablePath : Io.DucklakePath U) :
    DucklakeResult (Io.DucklakePath U) := do
  let dataPath ← baseDataPath.join urls schemaPath
  dataPath.join urls tablePath

def buildDeletionFilePath (path : Io.DucklakePath U) (tableId : Int)
    (pathByTableId : IndexMap Int (Io.DucklakePath U)) (baseDataPath : Io.DucklakePath U) :
    DucklakeResult (Io.DucklakePath U) :=
  if !path.isRelative then .ok path
  else do
    let tableDataPath ← DucklakePath.unwrap "path_by_table_id" (pathByTableId.get? tableId)
    let fullPath ← tableDataPath.join urls path
    match stripPrefix (baseDataPath.display urls) (fullPath.display urls) with
    | some suffix => .ok (.relative suffix)
    | none => .ok fullPath

def scheduledFile (fileId now : Int) (fullPath : Io.DucklakePath U) :
    DucklakeFilesScheduledForDeletion where
  dataFileId := fileId
  path := fullPath.display urls
  pathIsRelative := fullPath.isRelative
  scheduleStart := now

def resolveScheduled (dataPath : Io.DucklakePath U) (row : DucklakeFilesScheduledForDeletion) :
    DucklakeResult (Io.DucklakePath U) := do
  let stored ← DucklakePath.new urls row.path row.pathIsRelative
  dataPath.join urls stored

/-! ## Resolving a scheduled path -/

/-- What follows the data path in the location of a file is a path below it. -/
def StaysBelow (dataPath location : Io.DucklakePath U) : Prop :=
  ∀ rest, location.display urls = dataPath.display urls ++ rest →
    match dataPath, location with
    | .absolute base, .absolute _ =>
        (urls.parts base).IsDirectory ∧ isRelativePath (urls.parts base).scheme rest = true
    | .relative _, .absolute _ => False
    | _, .relative _ => True

variable {urls}

theorem resolveScheduled_absolute
    (standard : urls.Standard)
    (dataPath : Io.DucklakePath U)
    (fileId now : Int)
    (url : U) :
    resolveScheduled urls dataPath (scheduledFile urls fileId now (.absolute url)) =
      .ok (.absolute url) := by
  have read := DucklakePath.new_display standard (.absolute url)
  rw [resolveScheduled, scheduledFile, read]
  cases dataPath <;> rfl

theorem join_relative_eq_ok
    (base path : Io.DucklakePath U)
    (joined : Text)
    (success : base.join urls path = .ok (.relative joined)) :
    ∃ directory tail, base = .relative directory ∧ path = .relative tail ∧
      directory.getLast? = some '/' ∧ joined = directory ++ tail := by
  cases path with
  | absolute => cases base <;> cases success
  | relative tail =>
      cases base with
      | absolute base =>
          obtain ⟨_, _, impossible⟩ := map_eq_ok.mp success
          cases impossible
      | relative directory =>
          change (if _ then _ else _) = _ at success
          split_ifs at success with slash
          obtain rfl := DucklakePath.relative.inj (Except.ok.inj success)
          exact ⟨directory, tail, rfl, rfl, slash, rfl⟩

theorem join_absolute_eq_ok_iff
    (base url : U)
    (rest : Text) :
    DucklakePath.join urls (.absolute base) (.relative rest) = .ok (.absolute url) ↔
      urls.join base rest = some url := by
  rw [DucklakePath.join]
  cases joined : urls.join base rest with
  | none => simp [DucklakePath.unwrap, Except.map]
  | some other => simp [DucklakePath.unwrap, Except.map]

/-- Joining what follows the data path in a URL gives the URL back if it stays below. -/
theorem join_rest_of_absolute
    (standard : urls.Standard)
    (dataPath : Io.DucklakePath U)
    (url : U)
    (rest : Text)
    (continues : urls.text url = dataPath.display urls ++ rest) :
    (StaysBelow urls dataPath (.absolute url) →
      dataPath.join urls (.relative rest) = .ok (.absolute url)) ∧
    ((∀ base, dataPath = .absolute base → (urls.parts base).IsDirectory) →
      dataPath.join urls (.relative rest) = .ok (.absolute url) →
        StaysBelow urls dataPath (.absolute url)) := by
  cases dataPath with
  | relative base =>
      refine ⟨fun below => (below rest continues).elim, fun _ joined => ?_⟩
      change (if _ then _ else _) = _ at joined
      split_ifs at joined
      cases joined
  | absolute base =>
      rw [join_absolute_eq_ok_iff]
      constructor
      · intro below
        obtain ⟨directory, relative⟩ := below rest continues
        exact (standard.join_eq_iff base url directory rest continues).mpr relative
      · intro directories joined other otherContinues
        have directory := directories base rfl
        obtain rfl := List.append_cancel_left (continues.symm.trans otherContinues)
        exact ⟨directory, (standard.join_eq_iff base url directory rest continues).mp joined⟩

/-- The stored path of a file resolves to the location of the file. -/
def ResolvesBack (urls : Urls U) (dataPath path location : Io.DucklakePath U)
    (fileId tableId now : Int) (pathByTableId : IndexMap Int (Io.DucklakePath U)) : Prop :=
  (do
    let fullPath ← buildDeletionFilePath urls path tableId pathByTableId dataPath
    resolveScheduled urls dataPath (scheduledFile urls fileId now fullPath)) = .ok location

theorem buildDeletionFilePath_of_relative
    (dataPath tablePath location : Io.DucklakePath U)
    (tail : Text)
    (tableId : Int)
    (pathByTableId : IndexMap Int (Io.DucklakePath U))
    (known : pathByTableId.get? tableId = some tablePath)
    (located : tablePath.join urls (.relative tail) = .ok location) :
    buildDeletionFilePath urls (.relative tail) tableId pathByTableId dataPath =
      match stripPrefix (dataPath.display urls) (location.display urls) with
      | some suffix => .ok (.relative suffix)
      | none => .ok location := by
  have relative : ¬ (!(DucklakePath.relative tail : Io.DucklakePath U).isRelative) = true := by
    simp [DucklakePath.isRelative]
  rw [buildDeletionFilePath, if_neg relative, known]
  change (tablePath.join urls (.relative tail) >>= _) = _
  rw [located]
  rfl

/-- A file's scheduled path leads back to the file whenever what it leaves out of the file's
location is a directory in front of a relative path, and for a data path that is a directory only
then. -/
theorem resolvesBack_iff_staysBelow
    (standard : urls.Standard)
    (dataPath schemaPath tablePath path tableDataPath_ location : Io.DucklakePath U)
    (fileId tableId now : Int)
    (pathByTableId : IndexMap Int (Io.DucklakePath U))
    (tableAt : tableDataPath urls dataPath schemaPath tablePath = .ok tableDataPath_)
    (known : pathByTableId.get? tableId = some tableDataPath_)
    (located : tableDataPath_.join urls path = .ok location) :
    (path.isRelative = false ∨ StaysBelow urls dataPath location →
      ResolvesBack urls dataPath path location fileId tableId now pathByTableId) ∧
    ((∀ url, dataPath = .absolute url → (urls.parts url).IsDirectory) →
      ResolvesBack urls dataPath path location fileId tableId now pathByTableId →
        path.isRelative = false ∨ StaysBelow urls dataPath location) := by
  cases path with
  | absolute url =>
      have own : location = .absolute url := by
        cases tableDataPath_ <;> exact (Except.ok.inj located).symm
      rw [own]
      exact ⟨fun _ => resolveScheduled_absolute standard dataPath fileId now url,
        fun _ _ => Or.inl rfl⟩
  | relative tail =>
      have stored := buildDeletionFilePath_of_relative dataPath tableDataPath_ location tail tableId
        pathByTableId known located
      have notAbsolute : ¬ (DucklakePath.relative tail : Io.DucklakePath U).isRelative = false := by
        simp [DucklakePath.isRelative]
      unfold ResolvesBack
      rw [stored]
      cases location with
      | relative joined =>
          obtain ⟨below, _, rfl, _, _, rfl⟩ := join_relative_eq_ok _ _ _ located
          obtain ⟨data, dataAt, belowAt⟩ := bind_eq_ok.mp tableAt
          obtain ⟨data, _, rfl, _, _, rfl⟩ := join_relative_eq_ok _ _ _ belowAt
          obtain ⟨base, _, rfl, _, slash, rfl⟩ := join_relative_eq_ok _ _ _ dataAt
          rw [DucklakePath.display, DucklakePath.display, List.append_assoc, List.append_assoc,
            (stripPrefix_eq_some_iff base _ _).mpr rfl]
          refine ⟨fun _ => if_pos slash, fun _ _ => Or.inr fun _ _ => trivial⟩
      | absolute url =>
          cases stripped : stripPrefix (dataPath.display urls)
              (DucklakePath.display urls (.absolute url)) with
          | none =>
              refine ⟨fun _ => resolveScheduled_absolute standard dataPath fileId now url,
                fun _ _ => Or.inr fun rest continues => ?_⟩
              rw [(stripPrefix_eq_some_iff _ _ _).mpr continues] at stripped
              cases stripped
          | some suffix =>
              obtain ⟨enough, needed⟩ := join_rest_of_absolute standard dataPath url suffix
                ((stripPrefix_eq_some_iff _ _ _).mp stripped)
              exact ⟨fun holds => enough (holds.resolve_left notAbsolute),
                fun directory resolved => Or.inr (needed directory resolved)⟩

def bucketUrl (path : Text) (wellFormed : UrlParts.WellFormed
    ⟨⟨path, none, none⟩, "s3".toList, some "bucket".toList⟩) : { url : UrlParts // url.WellFormed } :=
  ⟨⟨⟨path, none, none⟩, "s3".toList, some "bucket".toList⟩, wellFormed⟩

def dataUrl : { url : UrlParts // url.WellFormed } :=
  bucketUrl "/data/".toList (by decide)

theorem resolvesBack_iff_staysBelow_dataUrl :
    ResolvesBack Urls.plain (.absolute dataUrl) (.relative "day=1/f.parquet".toList)
      (.absolute (bucketUrl "/data/main/t/day=1/f.parquet".toList (by decide))) 3 1 0
      (.ofList [(1, .absolute (bucketUrl "/data/main/t/".toList (by decide)))]) := by
  refine (resolvesBack_iff_staysBelow Urls.plain_standard (.absolute dataUrl)
    (.relative "main/".toList) (.relative "t/".toList) (.relative "day=1/f.parquet".toList)
    (.absolute (bucketUrl "/data/main/t/".toList (by decide))) _ 3 1 0 _ (by decide +kernel) rfl
    (by decide +kernel)).1 (Or.inr fun rest continues => ?_)
  have below : rest = "main/t/day=1/f.parquet".toList :=
    List.append_cancel_left (continues.symm.trans (by decide +kernel))
  rw [below]
  exact ⟨⟨rfl, by decide, rfl, rfl⟩, by decide⟩

/-- Below the data path, the path of the schema looks like a scheme. -/
theorem not_resolvesBack_schemeLike :
    ∃ tablePath location,
      tableDataPath Urls.plain (.absolute dataUrl)
        (.absolute (bucketUrl "/data/region:eu/".toList (by decide))) (.relative "t/".toList) =
          .ok tablePath ∧
      tablePath.join Urls.plain (.relative "f.parquet".toList) = .ok location ∧
      location.display Urls.plain = "s3://bucket/data/region:eu/t/f.parquet".toList ∧
      ¬ ResolvesBack Urls.plain (.absolute dataUrl) (.relative "f.parquet".toList) location 3 1 0
        (.ofList [(1, tablePath)]) := by
  refine ⟨.absolute (bucketUrl "/data/region:eu/t/".toList (by decide)),
    .absolute (bucketUrl "/data/region:eu/t/f.parquet".toList (by decide)), ?_⟩
  unfold ResolvesBack
  decide +kernel

end Maintenance

end Ducklake
