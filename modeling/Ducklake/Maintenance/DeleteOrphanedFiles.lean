import Ducklake.Lib.Sweeps
import Ducklake.Maintenance.CleanupOldFiles
import Ducklake.Maintenance.TablePaths

/-!
# Deleting orphaned files

`maintenance/delete_orphaned_files.rs`: the objects below the data path that no row of a data file,
a delete file or a scheduled file names are deleted, if they are old enough.
-/

set_option autoImplicit false

namespace Ducklake

open Lib

/-- `display_location`.  The text of an object's path is the one of the `object_store` crate. -/
def Io.Store.displayLocation {P : Type} (text : P → Text) (location : P) : Io.Store → Text
  | .local => '/' :: text location
  | .s3 bucket => "s3://".toList ++ bucket ++ '/' :: text location
  | .gcs bucket => "gs://".toList ++ bucket ++ '/' :: text location
  | .azure container => "az://".toList ++ container ++ '/' :: text location

namespace Maintenance

open Io Spec

/-- A row of the query for the paths of data and delete files. -/
structure TableFile where
  tableId : Int
  path : Text
  pathIsRelative : Bool
  deriving DecidableEq

def dataFilePath (file : DucklakeDataFile) : TableFile where
  tableId := file.tableId
  path := file.path
  pathIsRelative := file.pathIsRelative

def deleteFilePath (file : DucklakeDeleteFile) : TableFile where
  tableId := file.tableId
  path := file.path
  pathIsRelative := file.pathIsRelative

/-- `data_file_query` -/
def tableFiles (db : Database) : List TableFile :=
  (db.dataFiles.map Versioned.entity).map dataFilePath ++
    (db.deleteFiles.map Versioned.entity).map deleteFilePath

/-! ## The function -/

section

variable {U P : Type} (urls : Urls U) (paths : ObjectPaths P) (currentDir : Text)
variable (base : Io.DucklakePath U)

/-- The location of a file, whose table must be in the catalog. -/
def referencedFile (catalog : Catalog) (file : TableFile) : DucklakeResult P := do
  let filePath ← Io.DucklakePath.new urls file.path file.pathIsRelative
  let ref ← Io.DucklakePath.unwrap "catalog.table" (catalog.tableRefById file.tableId).toOption
  let tablePath ← dataPath urls base catalog ref
  let path ← tablePath.join urls filePath
  let resolved ← path.resolve urls currentDir
  resolved.object paths

def referencedScheduled (row : DucklakeFilesScheduledForDeletion) : DucklakeResult P := do
  let path ← resolveScheduled urls base row
  let resolved ← path.resolve urls currentDir
  resolved.object paths

/-- `collect_referenced_locations`, once the rows are read. -/
def collectReferencedLocations (catalog : Catalog) (files : List TableFile)
    (scheduled : List DucklakeFilesScheduledForDeletion) : DucklakeResult (List P) := do
  let ofTables ← files.mapM (referencedFile urls paths currentDir base catalog)
  let ofSchedule ← scheduled.mapM (referencedScheduled urls paths currentDir base)
  .ok (ofTables ++ ofSchedule)

variable [DecidableEq P]

def isOrphan (referenced : List P) (maxAge : Option Int) (modified : Int) (location : P) : Bool :=
  decide (location ∉ referenced) && !Sweep.spares maxAge modified

def dataDirectory : DucklakeResult (Store × P) := do
  let resolved ← base.resolve urls currentDir
  let directory ← resolved.object paths
  .ok (resolved.store, directory)

def listBelow (below : P → P → Bool) (store : Store) (directory : P) (objects : List (Store × P)) :
    List P :=
  (objects.filter fun object => object.1 = store && below directory object.2).map Prod.snd

/-- How the stores reply and whether the catalog may be written to. -/
structure StoreReplies where
  writable : Bool
  listing : DucklakeResult Unit
  deletion : Nat → Reply

/-- What is known before the first object is deleted: the referenced locations and what the store
of the data path has listed. -/
def findOrphans (below : P → P → Bool) (replies : StoreReplies) (maxAge : Option Int)
    (catalog : Catalog) (modified : Store × P → Int) (db : Database) (stored : Stored P) :
    DucklakeResult (Store × List P) := do
  let referenced ← collectReferencedLocations urls paths currentDir base catalog (tableFiles db)
    stored.scheduled
  let (store, directory) ← dataDirectory urls paths currentDir base
  let _ ← replies.listing
  .ok (store, (listBelow below store directory stored.objects).filter fun location =>
    isOrphan referenced maxAge (modified (store, location)) location)

def deleteOrphanedFilesFiltered (text : P → Text) (below : P → P → Bool) (replies : StoreReplies)
    (maxAge : Option Int) (dryRun : Bool) (catalog : Catalog) (modified : Store × P → Int)
    (db : Database) (stored : Stored P) : Stored P × DucklakeResult (List Text) :=
  match findOrphans urls paths currentDir base below replies maxAge catalog modified db stored with
  | .error err => (stored, .error err)
  | .ok (store, orphans) =>
      let displayed := orphans.map fun location => store.displayLocation text location
      if dryRun then (stored, .ok displayed)
      else if !replies.writable then (stored, .error .readonlyDucklake)
      else
        let (objects, deletion) := deleteObjects replies.deletion store orphans stored.objects
        ({ stored with objects := objects }, deletion.map fun _ => displayed)

end

/-! ## What a deletion is for -/

section

variable {U P : Type} (urls : Urls U) (paths : ObjectPaths P) (currentDir : Text)
variable (base : Io.DucklakePath U) (catalog : Catalog) (db : Database)
variable (scheduled : List DucklakeFilesScheduledForDeletion)

/-- Some row of the metadata database names the location. -/
def Referenced (location : P) : Prop :=
  (∃ file ∈ tableFiles db, referencedFile urls paths currentDir base catalog file = .ok location) ∨
    ∃ row ∈ scheduled, referencedScheduled urls paths currentDir base row = .ok location

/-- Every row leads to the location of an object. -/
structure Resolves : Prop where
  files : ∀ file ∈ tableFiles db, ∃ location : P,
    referencedFile urls paths currentDir base catalog file = .ok location
  scheduled : ∀ row ∈ scheduled, ∃ location : P,
    referencedScheduled urls paths currentDir base row = .ok location

/-- An object below the data path that no row names, and whose age does not protect it. -/
structure Orphan (below : P → P → Bool) (maxAge : Option Int) (modified : Store × P → Int)
    (stored : Stored P) (object : Store × P) : Prop where
  present : object ∈ stored.objects
  directory : ∃ directory, dataDirectory urls paths currentDir base = .ok (object.1, directory) ∧
    below directory object.2 = true
  unreferenced : ¬ Referenced urls paths currentDir base catalog db stored.scheduled object.2
  old : Sweep.spares maxAge (modified object) = false

/-- What the deletion of orphaned files does: nothing unless every row leads to an object, and then
it takes away orphans only, all of them if no request fails.  It fails as long as files are left
of a table that the snapshot does not see. -/
structure DeletesOrphans (below : P → P → Bool) (replies : StoreReplies) (maxAge : Option Int)
    (dryRun : Bool) (modified : Store × P → Int) (stored : Stored P)
    (outcome : Stored P × DucklakeResult (List Text)) : Prop where
  scheduled : outcome.1.scheduled = stored.scheduled
  objects : outcome.1.objects ⊆ stored.objects
  deleted : ∀ object ∈ stored.objects, object ∉ outcome.1.objects →
    Orphan urls paths currentDir base catalog db below maxAge modified stored object ∧
      Resolves urls paths currentDir base catalog db stored.scheduled (P := P) ∧
      dryRun = false ∧ replies.writable = true
  succeeds : ∀ displayed, outcome.2 = .ok displayed →
    Resolves urls paths currentDir base catalog db stored.scheduled (P := P) ∧
      (dryRun = false → ∀ object,
        Orphan urls paths currentDir base catalog db below maxAge modified stored object →
          object ∉ outcome.1.objects)
  fails : ∀ err, outcome.2 = .error err → outcome.1 ≠ stored → ∃ index message removed,
    replies.deletion index = .failed message removed ∧ err = .objectStore message
  unseen : ∀ env snapshot, Catalog.load env db snapshot = .ok catalog → ∀ file ∈ tableFiles db,
    (∀ row ∈ Versioned.entitiesAt snapshot db.tables, row.tableId ≠ file.tableId) →
      outcome.1 = stored ∧ outcome.2.isOk = false

end

/-! ## Collected locations -/

section

variable {U P : Type} {urls : Urls U} {paths : ObjectPaths P} {currentDir : Text}
variable {base : Io.DucklakePath U} {catalog : Catalog} {db : Database}
variable {scheduled : List DucklakeFilesScheduledForDeletion} {referenced : List P}

theorem mem_mapM_iff
    {α β : Type}
    {f : α → DucklakeResult β}
    {inputs : List α}
    {results : List β}
    (success : inputs.mapM f = .ok results)
    (result : β) :
    result ∈ results ↔ ∃ input ∈ inputs, f input = .ok result := by
  constructor
  · exact exists_of_mapM_eq_ok success result
  · rintro ⟨input, member, computed⟩
    obtain ⟨other, inside, same⟩ := mem_of_mapM_eq_ok success input member
    obtain rfl := Except.ok.inj (computed.symm.trans same)
    exact inside

theorem mem_collectReferencedLocations
    {files : List TableFile}
    (success : collectReferencedLocations urls paths currentDir base catalog files scheduled =
      .ok referenced)
    (location : P) :
    location ∈ referenced ↔
      (∃ file ∈ files, referencedFile urls paths currentDir base catalog file = .ok location) ∨
        ∃ row ∈ scheduled, referencedScheduled urls paths currentDir base row = .ok location := by
  obtain ⟨ofTables, tables, success⟩ := bind_eq_ok.mp success
  obtain ⟨ofSchedule, schedule, success⟩ := bind_eq_ok.mp success
  obtain rfl := Except.ok.inj success
  rw [List.mem_append]
  apply or_congr
  · exact mem_mapM_iff tables location
  · exact mem_mapM_iff schedule location

theorem resolves_of_collected
    (success : collectReferencedLocations urls paths currentDir base catalog (tableFiles db)
      scheduled = .ok referenced) :
    Resolves urls paths currentDir base catalog db scheduled (P := P) := by
  obtain ⟨ofTables, tables, success⟩ := bind_eq_ok.mp success
  obtain ⟨ofSchedule, schedule, success⟩ := bind_eq_ok.mp success
  constructor
  · intro file member
    obtain ⟨location, _, found⟩ := mem_of_mapM_eq_ok tables file member
    exact ⟨location, found⟩
  · intro row member
    obtain ⟨location, _, found⟩ := mem_of_mapM_eq_ok schedule row member
    exact ⟨location, found⟩

/-- As long as the files of a table that the snapshot does not see have rows, nothing resolves. -/
theorem not_resolves_of_unseen
    (env : Environment)
    (snapshot : Int)
    (loaded : Catalog.load env db snapshot = .ok catalog)
    (file : TableFile)
    (member : file ∈ tableFiles db)
    (unseen : ∀ row ∈ Versioned.entitiesAt snapshot db.tables, row.tableId ≠ file.tableId) :
    ¬ Resolves urls paths currentDir base catalog db scheduled (P := P) := by
  intro resolves
  obtain ⟨location, found⟩ := resolves.files file member
  obtain ⟨_, _, found⟩ := bind_eq_ok.mp found
  obtain ⟨ref, isRef, found⟩ := bind_eq_ok.mp found
  obtain ⟨_, located, _⟩ := bind_eq_ok.mp found
  obtain ⟨schemaRef, parent, _⟩ := bind_eq_ok.mp located
  have present := toOption_eq_some.mp ((unwrap_eq_ok _ _ _).mp isRef)
  obtain ⟨row, seen, _, _, _, _, own, _⟩ :=
    Catalog.load_paths env db snapshot catalog loaded file.tableId ref present schemaRef parent
  exact unseen row seen own

end

/-! ## The result -/

section

variable {U P : Type} [DecidableEq P] (urls : Urls U) (paths : ObjectPaths P) (currentDir : Text)
variable (base : Io.DucklakePath U) (catalog : Catalog) (db : Database)

omit [DecidableEq P] in
theorem mem_listBelow
    (below : P → P → Bool)
    (store : Store)
    (directory location : P)
    (objects : List (Store × P)) :
    location ∈ listBelow below store directory objects ↔
      (store, location) ∈ objects ∧ below directory location = true := by
  unfold listBelow
  simp only [List.mem_map, List.mem_filter, Bool.and_eq_true, decide_eq_true_eq]
  constructor
  · rintro ⟨object, ⟨member, rfl, inside⟩, rfl⟩
    exact ⟨member, inside⟩
  · rintro ⟨member, inside⟩
    exact ⟨(store, location), ⟨member, rfl, inside⟩, rfl⟩

theorem isOrphan_eq_true_iff
    (referenced : List P)
    (maxAge : Option Int)
    (modified : Int)
    (location : P) :
    isOrphan referenced maxAge modified location = true ↔
      location ∉ referenced ∧ Sweep.spares maxAge modified = false := by
  simp [isOrphan]

/-- What is found are exactly the orphans, and every row leads to an object. -/
theorem orphans_of_findOrphans
    (below : P → P → Bool)
    (replies : StoreReplies)
    (maxAge : Option Int)
    (modified : Store × P → Int)
    (stored : Stored P)
    (store : Store)
    (orphans : List P)
    (found : findOrphans urls paths currentDir base below replies maxAge catalog modified db stored =
      .ok (store, orphans)) :
    Resolves urls paths currentDir base catalog db stored.scheduled (P := P) ∧
      ∀ object : Store × P,
        Orphan urls paths currentDir base catalog db below maxAge modified stored object ↔
          object.1 = store ∧ object.2 ∈ orphans := by
  obtain ⟨referenced, collected, found⟩ := bind_eq_ok.mp found
  obtain ⟨⟨listed, directory⟩, isDirectory, found⟩ := bind_eq_ok.mp found
  obtain ⟨_, _, found⟩ := bind_eq_ok.mp found
  obtain ⟨rfl, rfl⟩ := Prod.mk.inj (Except.ok.inj found)
  refine ⟨resolves_of_collected collected, fun object => ?_⟩
  obtain ⟨store, location⟩ := object
  have named := mem_collectReferencedLocations collected location
  constructor
  · intro orphan
    obtain ⟨other, isOther, inside⟩ := orphan.directory
    obtain ⟨rfl, rfl⟩ := Prod.mk.inj (Except.ok.inj (isDirectory.symm.trans isOther))
    refine ⟨rfl, List.mem_filter.mpr ⟨?_, ?_⟩⟩
    · exact (mem_listBelow _ _ _ _ _).mpr ⟨orphan.present, inside⟩
    · exact (isOrphan_eq_true_iff _ _ _ _).mpr ⟨fun member => orphan.unreferenced (named.mp member),
        orphan.old⟩
  · rintro ⟨same, member⟩
    obtain rfl : store = listed := same
    obtain ⟨inside, old⟩ := List.mem_filter.mp member
    obtain ⟨present, inside⟩ := (mem_listBelow _ _ _ _ _).mp inside
    obtain ⟨unnamed, old⟩ := (isOrphan_eq_true_iff _ _ _ _).mp old
    exact {
      present := present
      directory := ⟨directory, isDirectory, inside⟩
      unreferenced := fun referenced => unnamed (named.mpr referenced)
      old := old }

theorem exists_of_forM_eq_error
    {α : Type}
    (f : α → DucklakeResult Unit)
    (inputs : List α)
    (err : DucklakeError)
    (failed : inputs.forM f = .error err) :
    ∃ input ∈ inputs, f input = .error err := by
  induction inputs with
  | nil => cases failed
  | cons head tail ih =>
      rw [List.forM_eq_forM, List.forM_cons, ← List.forM_eq_forM] at failed
      cases first : f head with
      | error other =>
          rw [first] at failed
          exact ⟨head, List.mem_cons_self, first.trans failed⟩
      | ok _ =>
          rw [first] at failed
          obtain ⟨input, member, same⟩ := ih failed
          exact ⟨input, List.mem_cons_of_mem _ member, same⟩

theorem failed_of_deleteObjects
    (reply : Nat → Reply)
    (store : Store)
    (locations : List P)
    (objects : List (Store × P))
    (err : DucklakeError)
    (failed : (deleteObjects reply store locations objects).2 = .error err) :
    ∃ index message removed, reply index = .failed message removed ∧ err = .objectStore message := by
  obtain ⟨request, _, failed⟩ := exists_of_forM_eq_error _ _ _ failed
  unfold Reply.result at failed
  split at failed
  · cases failed
  · rename_i message removed isReply
    exact ⟨request.2, message, removed, isReply, (Except.error.inj failed).symm⟩

section

variable (below : P → P → Bool) (replies : StoreReplies) (maxAge : Option Int) (dryRun : Bool)
variable (modified : Store × P → Int) (stored : Stored P)

omit [DecidableEq P] in
theorem deletesOrphans_of_unchanged
    (result : DucklakeResult (List Text))
    (success : ∀ displayed, result = .ok displayed →
      Resolves urls paths currentDir base catalog db stored.scheduled (P := P) ∧ dryRun = true) :
    DeletesOrphans urls paths currentDir base catalog db below replies maxAge dryRun modified stored
      (stored, result) where
  scheduled := rfl
  objects := List.Subset.refl _
  deleted _ present gone := absurd present gone
  succeeds displayed isOk := by
    obtain ⟨resolves, dry⟩ := success displayed isOk
    refine ⟨resolves, fun wet => ?_⟩
    rw [dry] at wet
    cases wet
  fails _ _ changed := absurd rfl changed
  unseen env snapshot loaded file member none := by
    refine ⟨rfl, ?_⟩
    cases result with
    | error => rfl
    | ok displayed =>
        obtain ⟨resolves, _⟩ := success displayed rfl
        exact absurd resolves (not_resolves_of_unseen env snapshot loaded file member none)

theorem deletesOrphans_of_deleteObjects
    (store : Store)
    (orphans : List P)
    (shown : List Text)
    (dry : dryRun = false)
    (writable : replies.writable = true)
    (found : findOrphans urls paths currentDir base below replies maxAge catalog modified db stored =
      .ok (store, orphans)) :
    DeletesOrphans urls paths currentDir base catalog db below replies maxAge dryRun modified stored
      ({ stored with
          objects := (deleteObjects replies.deletion store orphans stored.objects).1 },
        (deleteObjects replies.deletion store orphans stored.objects).2.map fun _ => shown) := by
  obtain ⟨resolves, exactly⟩ := orphans_of_findOrphans urls paths currentDir base catalog db below
    replies maxAge modified stored store orphans found
  constructor
  case scheduled => rfl
  case objects => exact deleteObjects_subset _ _ _ _
  case deleted =>
    intro object present gone
    have requested := requested_of_deleteObjects _ _ _ _ object present gone
    exact ⟨(exactly object).mpr requested, resolves, dry, writable⟩
  case succeeds =>
    intro displayed success
    refine ⟨resolves, fun _ object orphan => ?_⟩
    obtain ⟨_, served, _⟩ := map_eq_ok.mp success
    obtain ⟨same, member⟩ := (exactly object).mp orphan
    have gone := gone_of_deleteObjects _ _ _ _ served object.2 member
    rw [← same] at gone ⊢
    exact gone
  case fails =>
    intro err failed _
    cases deletion : (deleteObjects replies.deletion store orphans stored.objects).2 with
    | ok served =>
        rw [deletion] at failed
        cases failed
    | error other =>
        rw [deletion] at failed
        obtain rfl := Except.error.inj failed
        exact failed_of_deleteObjects _ _ _ _ _ deletion
  case unseen =>
    intro env snapshot loaded file member none
    exact absurd resolves (not_resolves_of_unseen env snapshot loaded file member none)

end

end

end Maintenance

end Ducklake
