import Ducklake.Lib.Runs
import Ducklake.Maintenance.DeleteOrphanedFiles
import Ducklake.Maintenance.FileLifecycle

/-!
# Deletions of orphaned files under way

Deletions of orphaned files next to uploads, commits, expirations and cleanups.  A deletion reads
the catalog, the rows of files and the schedule one after the other, and deletes what it lists
later, while the rows change.
-/

set_option autoImplicit false

namespace Ducklake.Maintenance

open Lib Io Spec Transaction

/-! ## States -/

inductive DeletionPhase (P : Type) where
  | started
  | loaded (catalog : Catalog)
  | queried (catalog : Catalog) (files : List TableFile)
  | listing (store : Store) (directory : P) (referenced orphans : List P)
  | finished

structure Deletion (P : Type) where
  maxAge : Option Int
  phase : DeletionPhase P

/-- The metadata database with its schedule, the objects of all stores and when they were written,
and the deletions. -/
structure Lake (P : Type) where
  db : Database
  stored : Stored P
  modified : Store × P → Int
  deletions : List (Deletion P)

inductive DeletionMove (P : Type) where
  | loadCatalog (catalog : Catalog)
  | queryFiles
  | querySchedule
  /-- A page of the listing. -/
  | list (page : List P)
  /-- Requests for some of the orphans. -/
  | delete (locations : List P) (reply : Nat → Reply)
  | finish

inductive LakeLabel (P : Type) where
  | upload (object : Store × P) (now : Int)
  | commit (now : Int) (prepared : PreparedCommit)
  | expire (catalog : Catalog) (filter : SnapshotFilter) (now : Int)
  | cleanup (surroundings : Surroundings) (filter : CleanupFilter) (dryRun : Bool)
  | start (maxAge : Option Int)
  | move (index : Nat) (move : DeletionMove P)

section

variable {U P : Type} [DecidableEq P] (urls : Urls U) (paths : ObjectPaths P) (currentDir : Text)
variable (base : Io.DucklakePath U) (env : Environment) (below : P → P → Bool)

def Lake.setPhase (lake : Lake P) (index : Nat) (deletion : Deletion P)
    (phase : DeletionPhase P) : Lake P :=
  { lake with deletions := lake.deletions.set index { deletion with phase := phase } }

def querySchedule (lake : Lake P) (index : Nat) (deletion : Deletion P) (catalog : Catalog)
    (files : List TableFile) : Lake P :=
  let read := do
    let referenced ← collectReferencedLocations urls paths currentDir base catalog files
      lake.stored.scheduled
    let (store, directory) ← dataDirectory urls paths currentDir base
    .ok (DeletionPhase.listing store directory referenced [])
  lake.setPhase index deletion (match read with
    | .ok phase => phase
    | .error _ => .finished)

def deletionStep (lake : Lake P) (index : Nat) (deletion : Deletion P) :
    DeletionMove P → Option (Lake P)
  | .loadCatalog catalog =>
      match deletion.phase with
      | .started => some (lake.setPhase index deletion (.loaded catalog))
      | _ => none
  | .queryFiles =>
      match deletion.phase with
      | .loaded catalog =>
          some (lake.setPhase index deletion (.queried catalog (tableFiles lake.db)))
      | _ => none
  | .querySchedule =>
      match deletion.phase with
      | .queried catalog files =>
          some (querySchedule urls paths currentDir base lake index deletion catalog files)
      | _ => none
  | .list page =>
      match deletion.phase with
      | .listing store directory referenced orphans =>
          let listed := page.filter fun location =>
            location ∈ listBelow below store directory lake.stored.objects
          some (lake.setPhase index deletion (.listing store directory referenced
            (orphans ++ listed.filter fun location => isOrphan referenced deletion.maxAge
              (lake.modified (store, location)) location)))
      | _ => none
  | .delete locations reply =>
      match deletion.phase with
      | .listing store _ _ orphans =>
          let requested := locations.filter fun location => location ∈ orphans
          some { lake with stored := { lake.stored with
            objects := (deleteObjects reply store requested lake.stored.objects).1 } }
      | _ => none
  | .finish => some (lake.setPhase index deletion .finished)

def lakeStep (lake : Lake P) : LakeLabel P → Option (Lake P)
  | .upload object now => some { lake with
      stored := { lake.stored with objects := object :: lake.stored.objects }
      modified := Function.update lake.modified object now }
  | .commit now prepared =>
      match persistCommit env now prepared lake.db with
      | .ok db => some { lake with db := db }
      | .error _ => some lake
  | .expire catalog filter now =>
      match expireAndSchedule urls catalog base filter now lake.db lake.stored.scheduled with
      | .ok (db, scheduled) => some { lake with
          db := db
          stored := { lake.stored with scheduled := scheduled } }
      | .error _ => some lake
  | .cleanup surroundings filter dryRun => some { lake with
      stored := (cleanupOldFilesFiltered urls paths currentDir surroundings base filter dryRun
        lake.stored).1 }
  | .start maxAge => some { lake with
      deletions := lake.deletions ++ [{ maxAge := maxAge, phase := .started }] }
  | .move index move => lake.deletions[index]?.bind fun deletion =>
      deletionStep urls paths currentDir base below lake index deletion move

end

/-! ## The files of the catalog -/

section

variable {U P : Type} (urls : Urls U) (paths : ObjectPaths P) (currentDir : Text)
variable (base : Io.DucklakePath U) (tableAt : Int → Io.DucklakePath U)

/-- The object of a file whose table has the location. -/
def fileObject (file : TableFile) : DucklakeResult (Store × P) := do
  let filePath ← Io.DucklakePath.new urls file.path file.pathIsRelative
  let path ← (tableAt file.tableId).join urls filePath
  let resolved ← path.resolve urls currentDir
  let object ← resolved.object paths
  .ok (resolved.store, object)

/-- The objects that rows of data and delete files name. -/
def fileObjects (db : Database) : Set (Store × P) :=
  { object | ∃ file ∈ tableFiles db, fileObject urls paths currentDir tableAt file = .ok object }

def scheduledObjects (scheduled : List DucklakeFilesScheduledForDeletion) : Set (Store × P) :=
  { object | ∃ row ∈ scheduled, namedObject urls paths currentDir base row = .ok object }

/-- The catalog has the tables at their locations. -/
def Settled (catalog : Catalog) : Prop :=
  ∀ tableId ref location, catalog.tableRefById tableId = .ok ref →
    dataPath urls base catalog ref = .ok location → location = tableAt tableId

def newFiles (changes : TransactionChanges) : List TableFile :=
  changes.dataFiles.map dataFilePath ++ changes.deleteFiles.map deleteFilePath

/-- An expiration finds the tables at their locations and schedules files by paths that lead back
to them. -/
structure SchedulesInPlace (catalog : Catalog) (now : Int) (db : Database) : Prop where
  tables : ∀ tableId location, tablePath urls catalog base db tableId = .ok location →
    location = tableAt tableId
  files : ∀ file ∈ expiredDataFiles db ++ expiredDeleteFiles db, ∀ path location known,
    Io.DucklakePath.new urls file.path file.pathIsRelative = .ok path →
      (tableAt file.tableId).join urls path = .ok location →
        known.get? file.tableId = some (tableAt file.tableId) →
          ResolvesBack urls base path location file.fileId file.tableId now known

variable {paths currentDir base tableAt}

/-- Tables stay where they are, and while a deletion is running, files are only uploaded to places
that it has not found orphaned and only added to the catalog if their age protects them from it. -/
def Orderly (paths : ObjectPaths P) (currentDir : Text) (base : Io.DucklakePath U)
    (tableAt : Int → Io.DucklakePath U) (lake : Lake P) : LakeLabel P → Prop
  | .upload object now => lake.modified object ≤ now ∧ ∀ deletion ∈ lake.deletions,
      ∀ directory referenced orphans,
        deletion.phase = .listing object.1 directory referenced orphans → object.2 ∉ orphans
  | .commit _ prepared => ∀ file ∈ newFiles prepared.changes, ∀ object,
      fileObject urls paths currentDir tableAt file = .ok object →
        ∀ deletion ∈ lake.deletions, deletion.phase ≠ .finished →
          Sweep.spares deletion.maxAge (lake.modified object) = true
  | .expire catalog filter now =>
      SchedulesInPlace urls base tableAt catalog now (withoutExpired filter lake.db)
  | .cleanup .. => True
  | .start _ => True
  | .move _ (.loadCatalog catalog) => Settled urls base tableAt catalog
  | .move .. => True

end

/-! ## Deletions as sweeps -/

section

variable {U P : Type} (urls : Urls U) (paths : ObjectPaths P) (currentDir : Text)
variable (base : Io.DucklakePath U) (tableAt : Int → Io.DucklakePath U)

/-- The objects that a deletion has read and those that it is going to delete. -/
def Deletion.sweep (deletion : Deletion P) : Sweep (Store × P) where
  limit := deletion.maxAge
  phase := match deletion.phase with
    | .started => .started
    | .loaded _ => .started
    | .queried _ files => .halfway
        { object | ∃ file ∈ files, fileObject urls paths currentDir tableAt file = .ok object }
    | .listing store _ referenced orphans =>
        .dooming { object | object.2 ∈ referenced }
          { object | object.1 = store ∧ object.2 ∈ orphans }
    | .finished => .finished

def Lake.heap (lake : Lake P) : Heap (Store × P) where
  primary := fileObjects urls paths currentDir tableAt lake.db
  secondary := scheduledObjects urls paths currentDir base lake.stored.scheduled
  written := lake.modified

def Lake.swept (lake : Lake P) : Swept (Store × P) where
  heap := lake.heap urls paths currentDir base tableAt
  sweeps := lake.deletions.map (Deletion.sweep urls paths currentDir tableAt)

/-- A catalog that a deletion has read has the tables at their locations. -/
def Deletion.Reads (deletion : Deletion P) : Prop :=
  match deletion.phase with
  | .loaded catalog => Settled urls base tableAt catalog
  | .queried catalog _ => Settled urls base tableAt catalog
  | _ => True

end

section

variable {U P : Type} {urls : Urls U} {paths : ObjectPaths P} {currentDir : Text}
variable {base : Io.DucklakePath U} {tableAt : Int → Io.DucklakePath U}

/-! ## Locations -/

theorem fileObject_eq_ok
    (file : TableFile)
    (object : Store × P) :
    fileObject urls paths currentDir tableAt file = .ok object ↔
      ∃ filePath, Io.DucklakePath.new urls file.path file.pathIsRelative = .ok filePath ∧
        ∃ path, (tableAt file.tableId).join urls filePath = .ok path ∧
          ∃ resolved, path.resolve urls currentDir = .ok resolved ∧
            resolved.object paths = .ok object.2 ∧ resolved.store = object.1 := by
  constructor
  · intro success
    obtain ⟨filePath, isFile, success⟩ := bind_eq_ok.mp success
    obtain ⟨path, isPath, success⟩ := bind_eq_ok.mp success
    obtain ⟨resolved, isResolved, success⟩ := bind_eq_ok.mp success
    obtain ⟨found, isObject, success⟩ := bind_eq_ok.mp success
    obtain rfl := Except.ok.inj success
    exact ⟨filePath, isFile, path, isPath, resolved, isResolved, isObject, rfl⟩
  · rintro ⟨filePath, isFile, path, isPath, resolved, isResolved, isObject, sameStore⟩
    refine bind_eq_ok.mpr ⟨filePath, isFile, bind_eq_ok.mpr ⟨path, isPath,
      bind_eq_ok.mpr ⟨resolved, isResolved, bind_eq_ok.mpr ⟨object.2, isObject, ?_⟩⟩⟩⟩
    rw [sameStore]

theorem referencedFile_of_fileObject
    {catalog : Catalog}
    (settled : Settled urls base tableAt catalog)
    (file : TableFile)
    (object : Store × P)
    (named : fileObject urls paths currentDir tableAt file = .ok object)
    (location : P)
    (found : referencedFile urls paths currentDir base catalog file = .ok location) :
    object.2 = location := by
  obtain ⟨filePath, isFile, path, isPath, resolved, isResolved, isObject, _⟩ :=
    (fileObject_eq_ok file object).mp named
  obtain ⟨readPath, isRead, found⟩ := bind_eq_ok.mp found
  obtain ⟨ref, isRef, found⟩ := bind_eq_ok.mp found
  obtain ⟨tablePath, located, found⟩ := bind_eq_ok.mp found
  obtain ⟨joined, isJoined, found⟩ := bind_eq_ok.mp found
  obtain ⟨place, isPlace, found⟩ := bind_eq_ok.mp found
  have present := toOption_eq_some.mp ((unwrap_eq_ok _ _ _).mp isRef)
  obtain rfl := settled file.tableId ref tablePath present located
  obtain rfl := Except.ok.inj (isFile.symm.trans isRead)
  obtain rfl := Except.ok.inj (isPath.symm.trans isJoined)
  obtain rfl := Except.ok.inj (isResolved.symm.trans isPlace)
  exact Except.ok.inj (isObject.symm.trans found)

theorem referencedScheduled_of_namedObject
    (row : DucklakeFilesScheduledForDeletion)
    (object : Store × P)
    (named : namedObject urls paths currentDir base row = .ok object) :
    referencedScheduled urls paths currentDir base row = .ok object.2 := by
  obtain ⟨location, isLocation, resolved, isResolved, isObject, _⟩ :=
    (namedObject_eq_ok urls paths currentDir base row object).mp named
  exact bind_eq_ok.mpr ⟨location, isLocation, bind_eq_ok.mpr ⟨resolved, isResolved, isObject⟩⟩

/-! ## Commits -/

theorem tableFiles_persistCommit
    (env : Environment)
    (now : Int)
    (prepared : PreparedCommit)
    (db next : Database)
    (success : persistCommit env now prepared db = .ok next)
    (file : TableFile)
    (member : file ∈ tableFiles next) :
    (file ∈ tableFiles db ∧ file.tableId ∉ prepared.changes.detachedTables) ∨
      file ∈ newFiles prepared.changes := by
  have same := persistCommit_same env now prepared db next success
  unfold SameExceptSnapshots at same
  rw [same] at member
  unfold tableFiles written persistStatistics retireRows detachTables at member
  dsimp only at member
  rw [entity_insertNew, entity_insertNew, entity_retire, entity_retire, List.map_append,
    List.map_append] at member
  have attached : ∀ {α : Type} (rows : List (Versioned α)) (path : α → TableFile),
      file ∈ ((rows.filter fun row => (path row.entity).tableId ∉ prepared.changes.detachedTables).map
        Versioned.entity).map path →
          file ∈ (rows.map Versioned.entity).map path ∧
            file.tableId ∉ prepared.changes.detachedTables := by
    intro α rows path inside
    have fewer : (rows.filter fun row => decide
        ((path row.entity).tableId ∉ prepared.changes.detachedTables)).Sublist rows :=
      List.filter_sublist
    refine ⟨((fewer.map Versioned.entity).map path).subset inside, ?_⟩
    obtain ⟨entity, listed, isFile⟩ := List.mem_map.mp inside
    obtain ⟨row, kept, isEntity⟩ := List.mem_map.mp listed
    rw [← isFile, ← isEntity]
    exact of_decide_eq_true (List.mem_filter.mp kept).2
  unfold tableFiles newFiles
  rw [List.mem_append, List.mem_append]
  cases List.mem_append.mp member with
  | inl data =>
      cases List.mem_append.mp data with
      | inl old =>
          obtain ⟨inside, kept⟩ := attached _ dataFilePath old
          exact Or.inl ⟨Or.inl inside, kept⟩
      | inr new => exact Or.inr (Or.inl new)
  | inr deletes =>
      cases List.mem_append.mp deletes with
      | inl old =>
          obtain ⟨inside, kept⟩ := attached _ deleteFilePath old
          exact Or.inl ⟨Or.inr inside, kept⟩
      | inr new => exact Or.inr (Or.inr new)

/-! ## Expirations -/

theorem get?_of_foldlM
    {catalog : Catalog}
    {db : Database}
    (tableIds : List Int)
    (start known : IndexMap Int (Io.DucklakePath U))
    (found : ∀ tableId location, start.get? tableId = some location →
      tablePath urls catalog base db tableId = .ok location)
    (success : tableIds.foldlM (fun paths tableId =>
      if paths.contains tableId then .ok paths
      else (tablePath urls catalog base db tableId).map (paths.insert tableId)) start = .ok known) :
    (∀ tableId location, known.get? tableId = some location →
      tablePath urls catalog base db tableId = .ok location) ∧
    ∀ tableId, start.contains tableId = true ∨ tableId ∈ tableIds →
      known.contains tableId = true := by
  induction tableIds generalizing start with
  | nil =>
      obtain rfl := Except.ok.inj success
      exact ⟨found, fun tableId either => either.resolve_right (by simp)⟩
  | cons first rest ih =>
      rw [List.foldlM_cons] at success
      obtain ⟨next, stepped, success⟩ := bind_eq_ok.mp success
      by_cases contained : start.contains first = true
      · rw [if_pos contained] at stepped
        obtain rfl := Except.ok.inj stepped
        obtain ⟨paths, contains⟩ := ih start found success
        refine ⟨paths, fun tableId either => ?_⟩
        cases either with
        | inl old => exact contains tableId (Or.inl old)
        | inr listed =>
            cases List.mem_cons.mp listed with
            | inl same => exact contains tableId (Or.inl (same ▸ contained))
            | inr later => exact contains tableId (Or.inr later)
      · rw [if_neg contained] at stepped
        obtain ⟨location, isLocation, rfl⟩ := map_eq_ok.mp stepped
        obtain ⟨paths, contains⟩ := ih (start.insert first location)
          (fun tableId other isOther => by
            rw [IndexMap.get?_insert] at isOther
            split at isOther
            · rename_i same
              obtain rfl := Option.some.inj isOther
              rw [same]
              exact isLocation
            · exact found tableId other isOther) success
        refine ⟨paths, fun tableId either => contains tableId ?_⟩
        rw [IndexMap.contains, IndexMap.get?_insert]
        by_cases same : tableId = first
        · exact Or.inl (by simp [same])
        · rw [if_neg same]
          exact either.imp id fun listed => (List.mem_cons.mp listed).resolve_left same

theorem get?_pathByTableId
    {catalog : Catalog}
    {db : Database}
    (files : List ExpiredFile)
    (known : IndexMap Int (Io.DucklakePath U))
    (success : pathByTableId urls catalog base db files = .ok known)
    (file : ExpiredFile)
    (member : file ∈ files) :
    ∃ location, tablePath urls catalog base db file.tableId = .ok location ∧
      known.get? file.tableId = some location := by
  obtain ⟨paths, contains⟩ := get?_of_foldlM _ _ _ (fun _ _ absent => by simp at absent) success
  have contained := contains file.tableId
    (Or.inr (List.mem_eraseDups.mpr (List.mem_map_of_mem member)))
  obtain ⟨location, isLocation⟩ := Option.isSome_iff_exists.mp contained
  exact ⟨location, paths _ _ isLocation, isLocation⟩

def ExpiredFile.tableFile (file : ExpiredFile) : TableFile where
  tableId := file.tableId
  path := file.path
  pathIsRelative := file.pathIsRelative

theorem mem_tableFiles_of_expired
    (db : Database)
    (file : ExpiredFile)
    (expired : file ∈ expiredDataFiles db ++ expiredDeleteFiles db) :
    file.tableFile ∈ tableFiles db := by
  unfold tableFiles
  rw [List.mem_append]
  cases List.mem_append.mp expired with
  | inl data =>
      obtain ⟨row, inside, rfl⟩ := List.mem_map.mp data
      left
      exact List.mem_map_of_mem (f := dataFilePath)
        (List.mem_map_of_mem (List.mem_of_mem_filter inside))
  | inr deletes =>
      obtain ⟨row, inside, rfl⟩ := List.mem_map.mp deletes
      right
      exact List.mem_map_of_mem (f := deleteFilePath)
        (List.mem_map_of_mem (List.mem_of_mem_filter inside))

theorem fileObject_of_scheduled
    {catalog : Catalog}
    {now : Int}
    {db : Database}
    (inPlace : SchedulesInPlace urls base tableAt catalog now db)
    (added : List DucklakeFilesScheduledForDeletion)
    (success : filesScheduledForDeletion urls catalog base now db = .ok added)
    (row : DucklakeFilesScheduledForDeletion)
    (member : row ∈ added)
    (object : Store × P)
    (named : namedObject urls paths currentDir base row = .ok object) :
    object ∈ fileObjects urls paths currentDir tableAt db := by
  obtain ⟨known, isKnown, mapped⟩ := bind_eq_ok.mp success
  obtain ⟨file, expired, built⟩ := exists_of_mapM_eq_ok mapped row member
  obtain ⟨path, isPath, built⟩ := bind_eq_ok.mp built
  obtain ⟨fullPath, isFull, built⟩ := bind_eq_ok.mp built
  obtain rfl := Except.ok.inj built
  obtain ⟨table, isTable, found⟩ := get?_pathByTableId _ known isKnown file expired
  obtain rfl := inPlace.tables file.tableId table isTable
  obtain ⟨location, joined⟩ : ∃ location,
      (tableAt file.tableId).join urls path = .ok location := by
    cases path with
    | absolute url => exact ⟨.absolute url, (join_eq_ok_iff urls _ _ _).mpr (.absolute _ url)⟩
    | relative tail =>
        rw [buildDeletionFilePath, if_neg (by simp [Io.DucklakePath.isRelative]), found] at isFull
        obtain ⟨table, sameTable, isFull⟩ := bind_eq_ok.mp isFull
        obtain rfl := Except.ok.inj sameTable
        obtain ⟨location, joined, _⟩ := bind_eq_ok.mp isFull
        exact ⟨location, joined⟩
  have back := inPlace.files file expired path location known isPath joined found
  obtain ⟨other, isOther, resolves⟩ := bind_eq_ok.mp back
  obtain rfl := Except.ok.inj (isFull.symm.trans isOther)
  obtain ⟨place, isPlace, resolved, isResolved, isObject, sameStore⟩ :=
    (namedObject_eq_ok urls paths currentDir base _ object).mp named
  obtain rfl := Except.ok.inj (resolves.symm.trans isPlace)
  exact ⟨file.tableFile, mem_tableFiles_of_expired db file expired,
    (fileObject_eq_ok file.tableFile object).mpr
      ⟨path, isPath, location, joined, resolved, isResolved, isObject, sameStore⟩⟩

variable (paths currentDir) in
/-- The files of an expired catalog are some of those before, and the schedule names some of them
besides what it named. -/
theorem expireAndSchedule_objects
    {catalog : Catalog}
    {filter : SnapshotFilter}
    {now : Int}
    {db : Database}
    (inPlace : SchedulesInPlace urls base tableAt catalog now (withoutExpired filter db))
    (scheduled : List DucklakeFilesScheduledForDeletion)
    (result : Database × List DucklakeFilesScheduledForDeletion)
    (success : expireAndSchedule urls catalog base filter now db scheduled = .ok result) :
    fileObjects urls paths currentDir tableAt result.1 ⊆
        fileObjects urls paths currentDir tableAt db ∧
      scheduledObjects urls paths currentDir base result.2 ⊆
        fileObjects urls paths currentDir tableAt db ∪
          scheduledObjects urls paths currentDir base scheduled := by
  obtain ⟨added, addedOk, success⟩ := bind_eq_ok.mp success
  obtain ⟨next, expired, success⟩ := bind_eq_ok.mp success
  obtain rfl := Except.ok.inj success
  constructor
  · rintro object ⟨file, member, named⟩
    refine ⟨file, ?_, named⟩
    obtain ⟨marked, markedOk, finished⟩ := bind_eq_ok.mp expired
    obtain rfl := Except.ok.inj finished
    unfold markDataFilesForDeletion at markedOk
    dsimp only at markedOk
    split at markedOk
    · obtain rfl := Except.ok.inj markedOk
      unfold tableFiles at member ⊢
      rw [List.mem_append] at member ⊢
      refine member.imp (fun data => ?_) fun deletes => ?_
      · exact ((List.filter_sublist.map Versioned.entity).map dataFilePath).subset data
      · exact ((List.filter_sublist.map Versioned.entity).map deleteFilePath).subset deletes
    · cases markedOk
  · rintro object ⟨row, member, named⟩
    cases List.mem_append.mp member with
    | inl old => exact Or.inr ⟨row, old, named⟩
    | inr new => exact Or.inl (fileObject_of_scheduled inPlace added addedOk row new object named)

/-! ## Steps -/

theorem swept_change
    (lake next : Lake P)
    (same : next.deletions = lake.deletions)
    (tolerated : ∀ deletion ∈ lake.deletions, deletion.phase ≠ .finished →
      (deletion.sweep urls paths currentDir tableAt).Tolerates
        (lake.heap urls paths currentDir base tableAt)
        (next.heap urls paths currentDir base tableAt)) :
    Swept.Step (lake.swept urls paths currentDir base tableAt)
      (next.swept urls paths currentDir base tableAt) := by
  have changed := Swept.Step.change (lake.swept urls paths currentDir base tableAt)
    (next.heap urls paths currentDir base tableAt)
    (fun sweep member running => by
      obtain ⟨deletion, listed, rfl⟩ := List.mem_map.mp member
      refine tolerated deletion listed fun finished => running ?_
      unfold Deletion.sweep
      rw [finished])
  unfold Lake.swept at changed ⊢
  rw [same]
  exact changed

theorem swept_advance
    (lake : Lake P)
    (index : Nat)
    (deletion : Deletion P)
    (phase : DeletionPhase P)
    (found : lake.deletions[index]? = some deletion)
    (advanced : Sweep.Advances (lake.heap urls paths currentDir base tableAt)
      (deletion.sweep urls paths currentDir tableAt)
      (Deletion.sweep urls paths currentDir tableAt { deletion with phase := phase })) :
    Swept.Step (lake.swept urls paths currentDir base tableAt)
      ((lake.setPhase index deletion phase).swept urls paths currentDir base tableAt) := by
  have step := Swept.Step.advance (lake.swept urls paths currentDir base tableAt) index
    (deletion.sweep urls paths currentDir tableAt)
    (Deletion.sweep urls paths currentDir tableAt { deletion with phase := phase })
    (by
      unfold Lake.swept
      rw [List.getElem?_map, found]
      rfl) advanced
  unfold Lake.swept at step ⊢
  unfold Lake.setPhase
  rw [List.map_set]
  exact step

theorem swept_setPhase
    (lake : Lake P)
    (index : Nat)
    (deletion : Deletion P)
    (phase : DeletionPhase P)
    (found : lake.deletions[index]? = some deletion)
    (same : Deletion.sweep urls paths currentDir tableAt { deletion with phase := phase } =
      deletion.sweep urls paths currentDir tableAt) :
    (lake.setPhase index deletion phase).swept urls paths currentDir base tableAt =
      lake.swept urls paths currentDir base tableAt := by
  obtain ⟨inside, isDeletion⟩ := List.getElem?_eq_some_iff.mp found
  have kept : lake.deletions.set index deletion = lake.deletions := by
    rw [← isDeletion]
    exact List.set_getElem_self inside
  unfold Lake.swept Lake.setPhase
  rw [List.map_set, same, ← List.map_set, kept]
  rfl

/-- What a deletion knows once it has resolved the rows that it has read. -/
theorem advances_querySchedule
    (lake : Lake P)
    (deletion : Deletion P)
    (catalog : Catalog)
    (files : List TableFile)
    (store : Store)
    (directory : P)
    (referenced : List P)
    (reading : deletion.phase = .queried catalog files)
    (settled : Settled urls base tableAt catalog)
    (collected : collectReferencedLocations urls paths currentDir base catalog files
      lake.stored.scheduled = .ok referenced) :
    Sweep.Advances (lake.heap urls paths currentDir base tableAt)
      (deletion.sweep urls paths currentDir tableAt)
      (Deletion.sweep urls paths currentDir tableAt
        { deletion with phase := .listing store directory referenced [] }) := by
  have known := mem_collectReferencedLocations collected
  have nothing : { object : Store × P | object.1 = store ∧ object.2 ∈ ([] : List P) } = ∅ := by
    simp
  unfold Deletion.sweep
  rw [reading]
  dsimp only
  rw [nothing]
  apply Sweep.Advances.noteSecondary
  · rintro object ⟨file, member, named⟩
    obtain ⟨ofTables, tables, _⟩ := bind_eq_ok.mp collected
    obtain ⟨location, _, found⟩ := mem_of_mapM_eq_ok tables file member
    have same := referencedFile_of_fileObject settled file object named location found
    exact (known object.2).mpr (Or.inl ⟨file, member, same ▸ found⟩)
  · rintro object ⟨row, member, named⟩
    exact (known object.2).mpr
      (Or.inr ⟨row, member, referencedScheduled_of_namedObject row object named⟩)

section

variable [DecidableEq P] {below : P → P → Bool}

/-- A deletion deletes objects, or it moves on with a settled catalog, and its sweep with it. -/
theorem deletionStep_cases
    (lake next : Lake P)
    (index : Nat)
    (deletion : Deletion P)
    (move : DeletionMove P)
    (reads : deletion.Reads urls base tableAt)
    (settles : ∀ catalog, move = .loadCatalog catalog → Settled urls base tableAt catalog)
    (stepped : deletionStep urls paths currentDir base below lake index deletion move = some next) :
    (∃ objects, next = { lake with stored := { lake.stored with objects := objects } }) ∨
      ∃ phase, next = lake.setPhase index deletion phase ∧
        Deletion.Reads urls base tableAt { deletion with phase := phase } ∧
        (Deletion.sweep urls paths currentDir tableAt { deletion with phase := phase } =
            deletion.sweep urls paths currentDir tableAt ∨
          Sweep.Advances (lake.heap urls paths currentDir base tableAt)
            (deletion.sweep urls paths currentDir tableAt)
            (Deletion.sweep urls paths currentDir tableAt { deletion with phase := phase })) := by
  unfold deletionStep at stepped
  cases move with
  | loadCatalog catalog =>
      dsimp only at stepped
      split at stepped
      · rename_i phase
        obtain rfl := Option.some.inj stepped
        refine Or.inr ⟨_, rfl, settles catalog rfl, Or.inl ?_⟩
        unfold Deletion.sweep
        rw [phase]
      · cases stepped
  | queryFiles =>
      dsimp only at stepped
      split at stepped
      · rename_i catalog phase
        obtain rfl := Option.some.inj stepped
        unfold Deletion.Reads at reads
        rw [phase] at reads
        refine Or.inr ⟨_, rfl, reads, Or.inr ?_⟩
        unfold Deletion.sweep
        rw [phase]
        exact .notePrimary _ _ (Set.Subset.refl _)
      · cases stepped
  | querySchedule =>
      dsimp only at stepped
      split at stepped
      · rename_i catalog files phase
        obtain rfl := Option.some.inj stepped
        unfold Deletion.Reads at reads
        rw [phase] at reads
        refine Or.inr ⟨_, rfl, ?_⟩
        split
        · rename_i resolved success
          obtain ⟨referenced, collected, success⟩ := bind_eq_ok.mp success
          obtain ⟨⟨store, directory⟩, _, success⟩ := bind_eq_ok.mp success
          obtain rfl := Except.ok.inj success
          exact ⟨trivial, Or.inr (advances_querySchedule lake deletion catalog files store directory
            referenced phase reads collected)⟩
        · exact ⟨trivial, Or.inr (.finish _)⟩
      · cases stepped
  | list page =>
      dsimp only at stepped
      split at stepped
      · rename_i store directory referenced orphans phase
        obtain rfl := Option.some.inj stepped
        refine Or.inr ⟨_, rfl, trivial, Or.inr ?_⟩
        unfold Deletion.sweep
        rw [phase]
        apply Sweep.Advances.doom
        rintro ⟨_, location⟩ ⟨same, member⟩
        obtain rfl : _ = store := same
        cases List.mem_append.mp member with
        | inl known => exact Or.inl ⟨rfl, known⟩
        | inr new =>
            obtain ⟨_, orphan⟩ := List.mem_filter.mp new
            exact Or.inr ((isOrphan_eq_true_iff _ _ _ _).mp orphan)
      · cases stepped
  | delete locations reply =>
      dsimp only at stepped
      split at stepped
      · obtain rfl := Option.some.inj stepped
        exact Or.inl ⟨_, rfl⟩
      · cases stepped
  | finish =>
      obtain rfl := Option.some.inj stepped
      exact Or.inr ⟨_, rfl, trivial, Or.inr (.finish _)⟩

/-- A move keeps what the deletions have read, and it is one of their sweeps or nothing to them. -/
theorem deletionStep_refines
    (lake next : Lake P)
    (index : Nat)
    (deletion : Deletion P)
    (move : DeletionMove P)
    (found : lake.deletions[index]? = some deletion)
    (reads : ∀ deletion ∈ lake.deletions, deletion.Reads urls base tableAt)
    (settles : ∀ catalog, move = .loadCatalog catalog → Settled urls base tableAt catalog)
    (stepped : deletionStep urls paths currentDir base below lake index deletion move = some next) :
    (∀ deletion ∈ next.deletions, deletion.Reads urls base tableAt) ∧
      (next.swept urls paths currentDir base tableAt = lake.swept urls paths currentDir base tableAt ∨
        Swept.Step (lake.swept urls paths currentDir base tableAt)
          (next.swept urls paths currentDir base tableAt)) := by
  cases deletionStep_cases lake next index deletion move
      (reads deletion (List.mem_of_getElem? found)) settles stepped with
  | inl deleted =>
      obtain ⟨objects, rfl⟩ := deleted
      exact ⟨reads, Or.inl rfl⟩
  | inr moved =>
      obtain ⟨phase, rfl, readsNew, sweeps⟩ := moved
      constructor
      · intro other member
        cases List.mem_or_eq_of_mem_set member with
        | inl old => exact reads other old
        | inr same => exact same ▸ readsNew
      · cases sweeps with
        | inl same => exact Or.inl (swept_setPhase lake index deletion phase found same)
        | inr advanced => exact Or.inr (swept_advance lake index deletion phase found advanced)

/-! ## Other steps -/

theorem tolerates_upload
    (lake : Lake P)
    (object : Store × P)
    (now : Int)
    (orderly : Orderly urls paths currentDir base tableAt lake (.upload object now))
    (objects : List (Store × P))
    (deletion : Deletion P)
    (member : deletion ∈ lake.deletions) :
    (deletion.sweep urls paths currentDir tableAt).Tolerates
      (lake.heap urls paths currentDir base tableAt)
      (Lake.heap urls paths currentDir base tableAt { lake with
        stored := { lake.stored with objects := objects }
        modified := Function.update lake.modified object now }) := by
  obtain ⟨later, untouched⟩ := orderly
  constructor
  case primary => exact fun place primary => Or.inl primary
  case secondary => exact fun place secondary => Or.inr secondary
  case younger =>
    intro place
    change lake.modified place ≤ Function.update lake.modified object now place
    by_cases same : place = object
    · rw [same, Function.update_self]
      exact later
    · rw [Function.update_of_ne same]
  case untouched =>
    intro place doomed
    change Function.update lake.modified object now place = lake.modified place
    apply Function.update_of_ne
    rintro rfl
    unfold Deletion.sweep Sweep.doomed at doomed
    cases phase : deletion.phase with
    | listing store directory referenced orphans =>
        rw [phase] at doomed
        obtain ⟨same, orphan⟩ := doomed
        exact untouched deletion member directory referenced orphans (same ▸ phase) orphan
    | started => simp [phase] at doomed
    | loaded => simp [phase] at doomed
    | queried => simp [phase] at doomed
    | finished => simp [phase] at doomed

theorem lakeStep_refines
    (env : Environment)
    (lake next : Lake P)
    (label : LakeLabel P)
    (reads : ∀ deletion ∈ lake.deletions, deletion.Reads urls base tableAt)
    (orderly : Orderly urls paths currentDir base tableAt lake label)
    (stepped : lakeStep urls paths currentDir base env below lake label = some next) :
    (∀ deletion ∈ next.deletions, deletion.Reads urls base tableAt) ∧
      (next.swept urls paths currentDir base tableAt = lake.swept urls paths currentDir base tableAt ∨
        Swept.Step (lake.swept urls paths currentDir base tableAt)
          (next.swept urls paths currentDir base tableAt)) := by
  cases label with
  | upload object now =>
      obtain rfl := Option.some.inj stepped
      refine ⟨reads, Or.inr (swept_change lake _ rfl ?_)⟩
      intro deletion member _
      exact tolerates_upload lake object now orderly _ deletion member
  | commit now prepared =>
      unfold lakeStep at stepped
      dsimp only at stepped
      split at stepped
      · rename_i db success
        obtain rfl := Option.some.inj stepped
        refine ⟨reads, Or.inr (swept_change lake _ rfl ?_)⟩
        intro deletion member running
        refine Sweep.Tolerates.of_written rfl ?_ fun object secondary => Or.inr secondary
        rintro object ⟨file, listed, named⟩
        cases tableFiles_persistCommit env now prepared lake.db db success file listed with
        | inl old => exact Or.inl ⟨file, old.1, named⟩
        | inr new => exact Or.inr (orderly file new object named deletion member running)
      · obtain rfl := Option.some.inj stepped
        exact ⟨reads, Or.inl rfl⟩
  | expire catalog filter now =>
      unfold lakeStep at stepped
      dsimp only at stepped
      split at stepped
      · rename_i db scheduled success
        obtain rfl := Option.some.inj stepped
        obtain ⟨files, schedule⟩ := expireAndSchedule_objects paths currentDir orderly
          lake.stored.scheduled (db, scheduled) success
        refine ⟨reads, Or.inr (swept_change lake _ rfl ?_)⟩
        intro deletion _ _
        exact Sweep.Tolerates.of_written rfl (fun object primary => Or.inl (files primary)) schedule
      · obtain rfl := Option.some.inj stepped
        exact ⟨reads, Or.inl rfl⟩
  | cleanup surroundings filter dryRun =>
      obtain rfl := Option.some.inj stepped
      refine ⟨reads, Or.inr (swept_change lake _ rfl ?_)⟩
      intro deletion _ _
      refine Sweep.Tolerates.of_written rfl (fun object primary => Or.inl primary) ?_
      rintro object ⟨row, listed, named⟩
      have kept := cleanup_scheduled urls paths currentDir surroundings base filter dryRun lake.stored
      exact Or.inr ⟨row, kept.subset listed, named⟩
  | start maxAge =>
      obtain rfl := Option.some.inj stepped
      constructor
      · intro deletion member
        cases List.mem_append.mp member with
        | inl old => exact reads deletion old
        | inr new =>
            rw [List.mem_singleton.mp new]
            trivial
      · right
        have started := Swept.Step.start (lake.swept urls paths currentDir base tableAt) maxAge
        unfold Lake.swept at started ⊢
        rw [List.map_append]
        exact started
  | move index move =>
      obtain ⟨deletion, found, stepped⟩ := Option.bind_eq_some_iff.mp stepped
      refine deletionStep_refines lake next index deletion move found reads ?_ stepped
      rintro catalog rfl
      exact orderly

/-! ## A deletion alone -/

omit [DecidableEq P] in
theorem getElem?_setPhase
    (lake : Lake P)
    (index : Nat)
    (deletion : Deletion P)
    (phase : DeletionPhase P)
    (found : lake.deletions[index]? = some deletion) :
    (lake.setPhase index deletion phase).deletions[index]? =
      some { deletion with phase := phase } := by
  obtain ⟨inside, _⟩ := List.getElem?_eq_some_iff.mp found
  exact List.getElem?_set_self inside

section

variable (urls) (paths) (currentDir) (base) (below)

theorem lakeStep_move
    (env : Environment)
    (lake next : Lake P)
    (index : Nat)
    (deletion : Deletion P)
    (move : DeletionMove P)
    (found : lake.deletions[index]? = some deletion)
    (stepped : deletionStep urls paths currentDir base below lake index deletion move = some next) :
    lakeStep urls paths currentDir base env below lake (.move index move) = some next := by
  rw [lakeStep, found]
  exact stepped

theorem deletionStep_querySchedule
    (lake : Lake P)
    (index : Nat)
    (maxAge : Option Int)
    (catalog : Catalog)
    (files : List TableFile)
    (store : Store)
    (directory : P)
    (referenced : List P)
    (collected : collectReferencedLocations urls paths currentDir base catalog files
      lake.stored.scheduled = .ok referenced)
    (isDirectory : dataDirectory urls paths currentDir base = .ok (store, directory)) :
    deletionStep urls paths currentDir base below lake index ⟨maxAge, .queried catalog files⟩
      .querySchedule = some (lake.setPhase index ⟨maxAge, .queried catalog files⟩
        (.listing store directory referenced [])) := by
  unfold deletionStep Maintenance.querySchedule
  dsimp only
  rw [collected, isDirectory]
  rfl

theorem filter_mem_self
    (locations : List P) :
    (locations.filter fun location => location ∈ locations) = locations := by
  apply List.filter_eq_self.mpr
  intro location member
  exact decide_eq_true member

theorem deletionStep_list
    (lake : Lake P)
    (index : Nat)
    (maxAge : Option Int)
    (store : Store)
    (directory : P)
    (referenced : List P) :
    deletionStep urls paths currentDir base below lake index
      ⟨maxAge, .listing store directory referenced []⟩
        (.list (listBelow below store directory lake.stored.objects)) =
      some (lake.setPhase index ⟨maxAge, .listing store directory referenced []⟩
        (.listing store directory referenced
          ((listBelow below store directory lake.stored.objects).filter fun location =>
            isOrphan referenced maxAge (lake.modified (store, location)) location))) := by
  unfold deletionStep
  dsimp only
  rw [filter_mem_self]
  rfl

theorem deletionStep_delete
    (lake : Lake P)
    (index : Nat)
    (maxAge : Option Int)
    (store : Store)
    (directory : P)
    (referenced orphans : List P)
    (reply : Nat → Reply) :
    deletionStep urls paths currentDir base below lake index
      ⟨maxAge, .listing store directory referenced orphans⟩ (.delete orphans reply) =
      some { lake with stored := { lake.stored with
        objects := (deleteObjects reply store orphans lake.stored.objects).1 } } := by
  unfold deletionStep
  dsimp only
  rw [filter_mem_self]

theorem moves_of_findOrphans
    (env : Environment)
    (text : P → Text)
    (replies : StoreReplies)
    (catalog : Catalog)
    (lake : Lake P)
    (index : Nat)
    (maxAge : Option Int)
    (store : Store)
    (orphans : List P)
    (started : lake.deletions[index]? = some ⟨maxAge, .started⟩)
    (writable : replies.writable = true)
    (found : findOrphans urls paths currentDir base below replies maxAge catalog lake.modified lake.db
      lake.stored = .ok (store, orphans)) :
    ∃ page next, [.loadCatalog catalog, .queryFiles, .querySchedule, .list page,
        .delete orphans replies.deletion].foldlM (fun lake move =>
          lakeStep urls paths currentDir base env below lake (.move index move)) lake = some next ∧
      next.stored = (deleteOrphanedFilesFiltered urls paths currentDir base text below replies maxAge
        false catalog lake.modified lake.db lake.stored).1 := by
  have outcome : (deleteOrphanedFilesFiltered urls paths currentDir base text below replies maxAge
      false catalog lake.modified lake.db lake.stored).1 = { lake.stored with
        objects := (deleteObjects replies.deletion store orphans lake.stored.objects).1 } := by
    rw [deleteOrphanedFilesFiltered, found]
    simp [writable]
  obtain ⟨referenced, collected, found⟩ := bind_eq_ok.mp found
  obtain ⟨⟨listed, directory⟩, isDirectory, found⟩ := bind_eq_ok.mp found
  obtain ⟨_, _, found⟩ := bind_eq_ok.mp found
  obtain ⟨rfl, rfl⟩ := Prod.mk.inj (Except.ok.inj found)
  have loaded := getElem?_setPhase lake index _ (.loaded catalog) started
  have queried := getElem?_setPhase _ index _ (.queried catalog (tableFiles lake.db)) loaded
  have resolved := getElem?_setPhase _ index _ (.listing listed directory referenced []) queried
  have marked := getElem?_setPhase _ index _ (.listing listed directory referenced
    ((listBelow below listed directory lake.stored.objects).filter fun location =>
      isOrphan referenced maxAge (lake.modified (listed, location)) location)) resolved
  have moves : ∀ {before between after : Lake P} {move : DeletionMove P}
      {rest : List (DeletionMove P)},
      lakeStep urls paths currentDir base env below before (.move index move) = some between →
        rest.foldlM (fun lake move =>
          lakeStep urls paths currentDir base env below lake (.move index move)) between = some after →
        (move :: rest).foldlM (fun lake move =>
          lakeStep urls paths currentDir base env below lake (.move index move)) before =
            some after := by
    intro before between after move rest first later
    rw [List.foldlM_cons, first]
    exact later
  refine ⟨_, _, moves (lakeStep_move urls paths currentDir base below env _ _ _ _ _ started rfl)
    (moves (lakeStep_move urls paths currentDir base below env _ _ _ _ _ loaded rfl)
      (moves (lakeStep_move urls paths currentDir base below env _ _ _ _ _ queried
          (deletionStep_querySchedule urls paths currentDir base below _ _ _ _ _ _ _ _ collected
            isDirectory))
        (moves (lakeStep_move urls paths currentDir base below env _ _ _ _ _ resolved
            (deletionStep_list urls paths currentDir base below _ _ _ _ _ _))
          (moves (lakeStep_move urls paths currentDir base below env _ _ _ _ _ marked
              (deletionStep_delete urls paths currentDir base below _ _ _ _ _ _ _ _))
            rfl)))), outcome.symm⟩

end

end

end

end Ducklake.Maintenance
