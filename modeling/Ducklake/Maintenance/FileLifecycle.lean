import Ducklake.Maintenance.CleanupOldFiles
import Ducklake.Maintenance.RetainedSnapshots

/-!
# The life of a file's row

`mark_data_files_for_deletion` of `maintenance/expire_snapshots.rs` moves the rows of files that no
retained snapshot sees to `ducklake_files_scheduled_for_deletion`, from where
`maintenance/cleanup_old_files.rs` takes them.
-/

set_option autoImplicit false

namespace Ducklake.Maintenance

open Lib Io Spec

/-! ## Scheduling -/

structure ExpiredFile where
  fileId : Int
  tableId : Int
  path : Text
  pathIsRelative : Bool
  deriving DecidableEq

def expiredDataFiles (db : Database) : List ExpiredFile :=
  (db.dataFiles.filter (inactive db)).map fun row => {
    fileId := row.entity.dataFileId
    tableId := row.entity.tableId
    path := row.entity.path
    pathIsRelative := row.entity.pathIsRelative }

def expiredDeleteFiles (db : Database) : List ExpiredFile :=
  (db.deleteFiles.filter (inactive db)).map fun row => {
    fileId := row.entity.deleteFileId
    tableId := row.entity.tableId
    path := row.entity.path
    pathIsRelative := row.entity.pathIsRelative }

section

variable {U : Type} (urls : Urls U) (catalog : Catalog) (base : Io.DucklakePath U)

/-- The path of a table from the catalog, or from the first of its rows with their schemas. -/
def tablePath (db : Database) (tableId : Int) : DucklakeResult (Io.DucklakePath U) :=
  match catalog.tableRefById tableId with
  | .ok ref => dataPath urls base catalog ref
  | .error _ =>
      let rows := innerJoin (fun table schema => schema.entity.schemaId = table.entity.schemaId)
        (db.tables.filter fun table => table.entity.tableId = tableId) db.schemas
      match rows with
      | [] => .error .rowNotFound
      | (table, schema) :: _ => queryTableDataPath urls base schema.entity table.entity

def pathByTableId (db : Database) (files : List ExpiredFile) :
    DucklakeResult (IndexMap Int (Io.DucklakePath U)) :=
  (files.map ExpiredFile.tableId).eraseDups.foldlM (fun paths tableId =>
    if paths.contains tableId then .ok paths
    else (tablePath urls catalog base db tableId).map (paths.insert tableId)) .empty

/-- The rows that `mark_data_files_for_deletion` inserts. -/
def filesScheduledForDeletion (now : Int) (db : Database) :
    DucklakeResult (List DucklakeFilesScheduledForDeletion) := do
  let files := expiredDataFiles db ++ expiredDeleteFiles db
  let paths ← pathByTableId urls catalog base db files
  files.mapM fun file => do
    let path ← Io.DucklakePath.new urls file.path file.pathIsRelative
    let fullPath ← buildDeletionFilePath urls path file.tableId paths base
    .ok (scheduledFile urls file.fileId now fullPath)

/-- `expire_snapshots_filtered`, with the schedule. -/
def expireAndSchedule (filter : SnapshotFilter) (now : Int) (db : Database)
    (scheduled : List DucklakeFilesScheduledForDeletion) :
    DucklakeResult (Database × List DucklakeFilesScheduledForDeletion) := do
  let added ← filesScheduledForDeletion urls catalog base now (withoutExpired filter db)
  let db ← expireSnapshots catalog filter db
  .ok (db, scheduled ++ added)

end

/-! ## Maintenance -/

/-- The metadata database with its schedule, and the objects of all stores. -/
structure Maintained (P : Type) where
  db : Database
  stored : Stored P

inductive MaintenanceLabel where
  | expire (catalog : Catalog) (filter : SnapshotFilter) (now : Int)
  | cleanup (surroundings : Surroundings) (filter : CleanupFilter) (dryRun : Bool)

section

variable {U P : Type} [DecidableEq P] (urls : Urls U) (paths : ObjectPaths P) (currentDir : Text)
variable (base : Io.DucklakePath U)

def maintenanceStep (state : Maintained P) : MaintenanceLabel → Option (Maintained P)
  | .expire catalog filter now =>
      match expireAndSchedule urls catalog base filter now state.db state.stored.scheduled with
      | .ok (db, scheduled) => some {
          db := db
          stored := { state.stored with scheduled := scheduled } }
      | .error _ => some state
  | .cleanup surroundings filter dryRun => some { state with
      stored := (cleanupOldFilesFiltered urls paths currentDir surroundings base filter dryRun
        state.stored).1 }

end

def scheduledIds (scheduled : List DucklakeFilesScheduledForDeletion) : List Int :=
  scheduled.map DucklakeFilesScheduledForDeletion.dataFileId

/-- Every file has one row at most, either in the catalog or in the schedule, and what is scheduled
is a file of the catalog from which maintenance started that no remaining snapshot sees. -/
structure FilesAccounted (start db : Database)
    (scheduled : List DucklakeFilesScheduledForDeletion) : Prop where
  once : (db.fileIds ++ scheduledIds scheduled).Nodup
  started : ∀ id ∈ db.fileIds ++ scheduledIds scheduled, id ∈ start.fileIds
  dataFiles : ∀ row ∈ start.dataFiles, row ∈ db.dataFiles ∨ seenBy db.snapshots row = false
  deleteFiles : ∀ row ∈ start.deleteFiles, row ∈ db.deleteFiles ∨ seenBy db.snapshots row = false

section

variable {start db : Database} {scheduled : List DucklakeFilesScheduledForDeletion}

theorem FilesAccounted.unseenData
    (accounted : FilesAccounted start db scheduled)
    (row : Versioned DucklakeDataFile)
    (member : row ∈ start.dataFiles)
    (waits : row.entity.dataFileId ∈ scheduledIds scheduled) :
    seenBy db.snapshots row = false := by
  refine (accounted.dataFiles row member).resolve_left fun stored => ?_
  obtain ⟨_, _, apart⟩ := List.nodup_append.mp accounted.once
  exact apart _ (List.mem_append_left _ (List.mem_map_of_mem stored)) _ waits rfl

theorem FilesAccounted.unseenDeletes
    (accounted : FilesAccounted start db scheduled)
    (row : Versioned DucklakeDeleteFile)
    (member : row ∈ start.deleteFiles)
    (waits : row.entity.deleteFileId ∈ scheduledIds scheduled) :
    seenBy db.snapshots row = false := by
  refine (accounted.deleteFiles row member).resolve_left fun stored => ?_
  obtain ⟨_, _, apart⟩ := List.nodup_append.mp accounted.once
  exact apart _ (List.mem_append_right _ (List.mem_map_of_mem stored)) _ waits rfl

end

/-! ## One expiration -/

section

variable {U : Type} {urls : Urls U} {catalog : Catalog} {base : Io.DucklakePath U}
variable {latest : DucklakeSnapshot} {db after : Database}

theorem scheduledIds_filesScheduledForDeletion
    (now : Int)
    (added : List DucklakeFilesScheduledForDeletion)
    (success : filesScheduledForDeletion urls catalog base now db = .ok added) :
    scheduledIds added =
      (expiredDataFiles db ++ expiredDeleteFiles db).map ExpiredFile.fileId := by
  obtain ⟨paths, _, mapped⟩ := bind_eq_ok.mp success
  have built := mapM_eq_ok.mp mapped
  clear success mapped
  unfold scheduledIds
  generalize expiredDataFiles db ++ expiredDeleteFiles db = files at built
  induction built with
  | nil => rfl
  | @cons file row files rows each _ ih =>
      obtain ⟨path, _, each⟩ := bind_eq_ok.mp each
      obtain ⟨fullPath, _, each⟩ := bind_eq_ok.mp each
      obtain rfl := Except.ok.inj each
      rw [List.map_cons, List.map_cons, ih]
      rfl

theorem map_fileId_expired :
    (expiredDataFiles db ++ expiredDeleteFiles db).map ExpiredFile.fileId =
      (db.dataFiles.filter (inactive db)).map (fun row => row.entity.dataFileId) ++
        (db.deleteFiles.filter (inactive db)).map fun row => row.entity.deleteFileId := by
  rw [List.map_append, expiredDataFiles, expiredDeleteFiles, List.map_map, List.map_map]
  rfl

theorem map_filter_perm
    {α : Type}
    (key : α → Int)
    (selects : α → Bool)
    (rows : List α) :
    (rows.map key).Perm ((rows.filter fun row => !selects row).map key ++
      (rows.filter selects).map key) := by
  rw [← List.map_append]
  exact ((List.filter_append_perm selects rows).symm.trans List.perm_append_comm).map key

theorem expireAndSchedule_fileIds
    (filter : SnapshotFilter)
    (now : Int)
    (scheduled : List DucklakeFilesScheduledForDeletion)
    (result : Database × List DucklakeFilesScheduledForDeletion)
    (distinct : db.fileIds.Nodup)
    (success : expireAndSchedule urls catalog base filter now db scheduled = .ok result) :
    (db.fileIds ++ scheduledIds scheduled).Perm
      (result.1.fileIds ++ scheduledIds result.2) := by
  obtain ⟨added, addedOk, success⟩ := bind_eq_ok.mp success
  obtain ⟨next, expired, success⟩ := bind_eq_ok.mp success
  obtain rfl := Except.ok.inj success
  have expires := expires_of_expireSnapshots catalog filter db next distinct expired
  have ids := scheduledIds_filesScheduledForDeletion now added addedOk
  rw [map_fileId_expired] at ids
  have split : (withoutExpired filter db).fileIds.Perm (next.fileIds ++ scheduledIds added) := by
    have dataIds := map_filter_perm (fun row => row.entity.dataFileId)
      (inactive (withoutExpired filter db)) (withoutExpired filter db).dataFiles
    have deleteIds := map_filter_perm (fun row => row.entity.deleteFileId)
      (inactive (withoutExpired filter db)) (withoutExpired filter db).deleteFiles
    rw [ids]
    unfold Database.fileIds
    rw [expires.dataFiles, expires.deleteFiles]
    refine (dataIds.append deleteIds).trans ?_
    simpa only [List.append_assoc] using (List.perm_append_comm_assoc _ _ _).append_left _
  have joined : scheduledIds (scheduled ++ added) =
      scheduledIds scheduled ++ scheduledIds added := List.map_append
  rw [joined]
  refine (split.append_right _).trans ?_
  rw [List.append_assoc]
  exact List.perm_append_comm.append_left _

/-! ## All steps -/

theorem FilesAccounted.expire
    {start : Database}
    {scheduled : List DucklakeFilesScheduledForDeletion}
    (accounted : FilesAccounted start db scheduled)
    (expirable : Expirable latest db)
    (filter : SnapshotFilter)
    (now : Int)
    (result : Database × List DucklakeFilesScheduledForDeletion)
    (success : expireAndSchedule urls catalog base filter now db scheduled = .ok result) :
    FilesAccounted start result.1 result.2 ∧ Expirable latest result.1 := by
  have moved := expireAndSchedule_fileIds filter now scheduled result expirable.fileIds success
  obtain ⟨added, _, success⟩ := bind_eq_ok.mp success
  obtain ⟨next, expired, success⟩ := bind_eq_ok.mp success
  obtain rfl := Except.ok.inj success
  obtain ⟨remains, left, retained⟩ := expirable.expire catalog filter expired
  have unseen : ∀ {α : Type} (row : Versioned α), seenBy db.snapshots row = false →
      seenBy next.snapshots row = false := by
    intro α row gone
    rw [seenBy, List.any_eq_false] at gone ⊢
    exact fun snapshot member => gone snapshot (retained snapshot member).1
  refine ⟨⟨moved.nodup_iff.mp accounted.once, fun id member => ?_, fun row member => ?_,
    fun row member => ?_⟩, remains⟩
  · exact accounted.started id (moved.mem_iff.mpr member)
  · rw [left.dataFiles, List.mem_filter]
    rcases accounted.dataFiles row member with stored | gone
    · cases seen : seenBy next.snapshots row with
      | true => exact Or.inl ⟨stored, rfl⟩
      | false => exact Or.inr rfl
    · exact Or.inr (unseen row gone)
  · rw [left.deleteFiles, List.mem_filter]
    rcases accounted.deleteFiles row member with stored | gone
    · cases seen : seenBy next.snapshots row with
      | true => exact Or.inl ⟨stored, rfl⟩
      | false => exact Or.inr rfl
    · exact Or.inr (unseen row gone)

end

theorem cleanup_scheduled
    {U P : Type}
    [DecidableEq P]
    (urls : Urls U)
    (paths : ObjectPaths P)
    (currentDir : Text)
    (surroundings : Surroundings)
    (base : Io.DucklakePath U)
    (filter : CleanupFilter)
    (dryRun : Bool)
    (stored : Stored P) :
    (cleanupOldFilesFiltered urls paths currentDir surroundings base filter dryRun
      stored).1.scheduled.Sublist stored.scheduled := by
  unfold cleanupOldFilesFiltered
  dsimp only
  split
  · exact .refl _
  · split
    · exact .refl _
    · split
      · exact .refl _
      · split
        · exact .refl _
        · exact List.filter_sublist

theorem FilesAccounted.cleanup
    {start db : Database}
    {scheduled left : List DucklakeFilesScheduledForDeletion}
    (accounted : FilesAccounted start db scheduled)
    (cleaned : left.Sublist scheduled) :
    FilesAccounted start db left := by
  have ids : (db.fileIds ++ scheduledIds left).Sublist (db.fileIds ++ scheduledIds scheduled) :=
    (cleaned.map _).append_left _
  exact { accounted with
    once := accounted.once.sublist ids
    started := fun id member => accounted.started id (ids.subset member) }

/-- What holds of all that maintenance leaves of a catalog. -/
structure MaintainedFrom {P : Type} (latest : DucklakeSnapshot) (start : Database)
    (state : Maintained P) : Prop where
  accounted : FilesAccounted start state.db state.stored.scheduled
  expirable : Expirable latest state.db
  retained : ∀ snapshot ∈ state.db.snapshots, snapshot ∈ start.snapshots ∧
    ∀ env, KeepsSnapshot env start state.db snapshot.snapshotId

theorem maintainedFrom_start
    {P : Type}
    {latest : DucklakeSnapshot}
    {start : Database}
    (expirable : Expirable latest start)
    (objects : List (Store × P)) :
    MaintainedFrom latest start ⟨start, ⟨objects, []⟩⟩ := by
  refine ⟨⟨?_, ?_, fun _ member => Or.inl member, fun _ member => Or.inl member⟩, expirable,
    fun snapshot member => ⟨member, fun env => .refl start⟩⟩
  · exact (List.append_nil _).symm ▸ expirable.fileIds
  · intro id member
    rwa [scheduledIds, List.map_nil, List.append_nil] at member

/-- In every run of expirations and cleanups, each file is accounted for, and no retained snapshot
notices. -/
theorem maintainedFrom_of_reaches
    {U P : Type}
    [DecidableEq P]
    (urls : Urls U)
    (paths : ObjectPaths P)
    (currentDir : Text)
    (base : Io.DucklakePath U)
    (latest : DucklakeSnapshot)
    (start : Database)
    (expirable : Expirable latest start)
    (objects : List (Store × P))
    (state : Maintained P)
    (run : Reaches (maintenanceStep urls paths currentDir base) (fun _ _ => True)
      ⟨start, ⟨objects, []⟩⟩ state) :
    MaintainedFrom latest start state := by
  refine run.invariant (MaintainedFrom latest start) (maintainedFrom_start expirable objects) ?_
  intro state label next held _ stepped
  cases label with
  | expire catalog filter now =>
      unfold maintenanceStep at stepped
      dsimp only at stepped
      split at stepped
      · rename_i db scheduled success
        obtain rfl := Option.some.inj stepped
        obtain ⟨accounted, remains⟩ :=
          held.accounted.expire held.expirable filter now (db, scheduled) success
        obtain ⟨_, _, success⟩ := bind_eq_ok.mp success
        obtain ⟨_, expired, success⟩ := bind_eq_ok.mp success
        obtain rfl := congrArg Prod.fst (Except.ok.inj success)
        obtain ⟨_, _, retained⟩ := held.expirable.expire catalog filter expired
        refine ⟨accounted, remains, fun snapshot member => ?_⟩
        obtain ⟨before, kept⟩ := retained snapshot member
        obtain ⟨first, keptBefore⟩ := held.retained snapshot before
        exact ⟨first, fun env => (keptBefore env).trans (kept env)⟩
      · obtain rfl := Option.some.inj stepped
        exact held
  | cleanup surroundings filter dryRun =>
      obtain rfl := Option.some.inj stepped
      exact { held with accounted := held.accounted.cleanup (cleanup_scheduled ..) }

end Ducklake.Maintenance
