import Ducklake.Maintenance.OrphanDeletions

/-!
# Orphaned files and the catalog

No deletion of orphaned files takes away what the catalog refers to.
-/

set_option autoImplicit false

namespace Ducklake.Maintenance

open Lib Io Spec Transaction

section

variable {U P : Type} [DecidableEq P] {urls : Urls U} {paths : ObjectPaths P} {currentDir : Text}
variable {base : Io.DucklakePath U} {tableAt : Int → Io.DucklakePath U} {below : P → P → Bool}

/-! ## The result -/

/-- In every state, what the deletions have read covers what is referred to. -/
theorem safe_of_reaches
    (env : Environment)
    (start lake : Lake P)
    (idle : start.deletions = [])
    (run : Reaches (lakeStep urls paths currentDir base env below)
      (Orderly urls paths currentDir base tableAt) start lake) :
    (lake.swept urls paths currentDir base tableAt).Safe ∧
      ∀ deletion ∈ lake.deletions, deletion.Reads urls base tableAt := by
  refine run.invariant (fun lake => (lake.swept urls paths currentDir base tableAt).Safe ∧
    ∀ deletion ∈ lake.deletions, deletion.Reads urls base tableAt) ?_ ?_
  · constructor
    · unfold Lake.swept
      rw [idle]
      exact fun sweep member => absurd member List.not_mem_nil
    · rw [idle]
      exact fun deletion member => absurd member List.not_mem_nil
  · rintro state label next ⟨safe, reads⟩ orderly stepped
    obtain ⟨still, refines⟩ := lakeStep_refines env state next label reads orderly stepped
    refine ⟨?_, still⟩
    cases refines with
    | inl same => rwa [same]
    | inr step => exact safe.step step

/-- No deletion of orphaned files takes an object away that a data file, a delete file or a
scheduled file names, however commits, expirations, cleanups and other deletions run next to it. -/
theorem named_of_delete
    (urls : Urls U)
    (paths : ObjectPaths P)
    (currentDir : Text)
    (base : Io.DucklakePath U)
    (env : Environment)
    (below : P → P → Bool)
    (tableAt : Int → Io.DucklakePath U)
    (start lake next : Lake P)
    (idle : start.deletions = [])
    (run : Reaches (lakeStep urls paths currentDir base env below)
      (Orderly urls paths currentDir base tableAt) start lake)
    (index : Nat)
    (locations : List P)
    (reply : Nat → Reply)
    (stepped : lakeStep urls paths currentDir base env below lake
      (.move index (.delete locations reply)) = some next)
    (object : Store × P)
    (named : object ∈ fileObjects urls paths currentDir tableAt lake.db ∨
      object ∈ scheduledObjects urls paths currentDir base lake.stored.scheduled)
    (present : object ∈ lake.stored.objects) :
    object ∈ next.stored.objects := by
  obtain ⟨safe, _⟩ := safe_of_reaches env start lake idle run
  obtain ⟨deletion, found, stepped⟩ := Option.bind_eq_some_iff.mp stepped
  unfold deletionStep at stepped
  dsimp only at stepped
  split at stepped
  · rename_i store directory referenced orphans phase
    obtain rfl := Option.some.inj stepped
    by_contra gone
    obtain ⟨same, requested⟩ := requested_of_deleteObjects _ _ _ _ object present gone
    have orphan := of_decide_eq_true (List.mem_filter.mp requested).2
    have listed := List.mem_map_of_mem (f := Deletion.sweep urls paths currentDir tableAt)
      (List.mem_of_getElem? found)
    refine safe.unreferenced _ listed object ?_ named
    unfold Deletion.sweep Sweep.doomed
    rw [phase]
    exact ⟨same, orphan⟩
  · cases stepped

end

/-! ## Tables with stored paths -/

theorem settled_of_placed
    {U : Type}
    (urls : Urls U)
    (env : Environment)
    (base : Io.DucklakePath U)
    (tableAt : Int → Io.DucklakePath U)
    (db : Database)
    (placed : ∀ row ∈ db.tables, ∃ place schema, Placed row.entity.tableId place schema db ∧
      HasPaths place schema ∧ ∀ schemaPath, (schemaPath = schema.path ∨
        schemaPath = pathOrDefault schema.path schema.schemaName) → ∀ location,
          locate urls base schemaPath schema.pathIsRelative place.path place.pathIsRelative =
            .ok location → location = tableAt row.entity.tableId)
    (snapshot : Int)
    (catalog : Catalog)
    (loaded : Catalog.load env db snapshot = .ok catalog) :
    Settled urls base tableAt catalog := by
  intro tableId ref location found located
  obtain ⟨schemaRef, parent, _⟩ := bind_eq_ok.mp located
  obtain ⟨seen, tableSeen, _, _, _, _, own, _⟩ :=
    Catalog.load_paths env db snapshot catalog loaded tableId ref found schemaRef parent
  obtain ⟨row, inside, rfl⟩ := List.mem_map.mp tableSeen
  obtain rfl := own
  obtain ⟨place, schema, isPlaced, paths, below⟩ := placed row (List.mem_of_mem_filter inside)
  obtain ⟨schemaPath, filled, isLocated⟩ := isPlaced.location_of_hasPaths paths
    (Or.inl ⟨snapshot, catalog, ref, loaded, found, located⟩)
  exact below schemaPath filled location isLocated

/-! ## A deletion that runs next to an insert -/

/-- The paths of objects, where a directory may end with a slash. -/
def directoryObjects : ObjectPaths (List Text) where
  parse path := plainObjects.parse (if path.getLast? = some '/' then path.dropLast else path)
  fromAbsolutePath := plainObjects.fromAbsolutePath

def bucketObject (name : String) : Store × List Text :=
  (.s3 "bucket".toList, ["data".toList, "main".toList, "t".toList, name.toList])

def insertedFile : DucklakeDataFile where
  dataFileId := 0
  tableId := 1
  fileOrder := none
  path := "new.parquet".toList
  pathIsRelative := true
  recordCount := 1
  fileSizeBytes := none
  footerSize := none
  rowIdStart := none
  partitionId := none
  encryptionKey := none

/-- A table, a file of a transaction that has not committed, and one of a writer that crashed. -/
def crashedLake : Lake (List Text) where
  db := storedTable "t/".toList
  stored := ⟨[bucketObject "new.parquet", bucketObject "old.parquet"], []⟩
  modified object := if object = bucketObject "new.parquet" then 5 else 0
  deletions := []

def storedCatalog : Catalog :=
  (Catalog.load .plain (storedTable "t/".toList) 0).toOption.getD .new

theorem load_storedTable :
    Catalog.load .plain (storedTable "t/".toList) 0 = .ok storedCatalog := by
  have isOk : (Catalog.load .plain (storedTable "t/".toList) 0).isOk = true := by decide +kernel
  unfold storedCatalog
  cases loaded : Catalog.load .plain (storedTable "t/".toList) 0 with
  | ok catalog => rfl
  | error err =>
      rw [loaded] at isOk
      cases isOk

def storedTableAt (_ : Int) : Io.DucklakePath { url : UrlParts // url.WellFormed } :=
  .absolute (bucketUrl "/data/main/t/".toList (by decide))

theorem settled_storedCatalog :
    Settled Urls.plain (.absolute dataUrl) storedTableAt storedCatalog := by
  apply settled_of_placed Urls.plain .plain _ _ (storedTable "t/".toList) _ 0 _ load_storedTable
  intro row member
  obtain rfl := List.mem_singleton.mp member
  refine ⟨_, _, placed_storedTable "t/".toList, ⟨by decide, Or.inl (by decide)⟩, ?_⟩
  intro schemaPath filled location located
  have same : schemaPath = "main/".toList := by
    rcases filled with stored | default
    · exact stored
    · exact default.trans (by decide)
  subst same
  exact Except.ok.inj (located.symm.trans (by decide +kernel))

def insertCommit : PreparedCommit where
  changes := { TransactionChanges.empty with dataFiles := [insertedFile] }
  state := .new ⟨0, 0, 2, 0⟩ .new true .empty
  appliedChanges := .new []
  tableIdsWithSchemaChanges := []

def plainLakeStep : Lake (List Text) → LakeLabel (List Text) → Option (Lake (List Text)) :=
  lakeStep Urls.plain directoryObjects [] (.absolute dataUrl) .plain List.isPrefixOf

def queriedLake : Option (Lake (List Text)) :=
  [.start (some 3), .move 0 (.loadCatalog storedCatalog), .move 0 .queryFiles].foldlM plainLakeStep
    crashedLake

/-- It lists the objects after the insert is committed. -/
def listedLake : Option (Lake (List Text)) := do
  let lake ← queriedLake
  let lake ← plainLakeStep lake (.commit 0 insertCommit)
  let lake ← plainLakeStep lake (.move 0 .querySchedule)
  plainLakeStep lake (.move 0 (.list (crashedLake.stored.objects.map Prod.snd)))

theorem orderly_insertCommit
    (lake : Lake (List Text))
    (queried : queriedLake = some lake) :
    Orderly Urls.plain directoryObjects [] (.absolute dataUrl) storedTableAt lake
      (.commit 0 insertCommit) := by
  have reads : ∀ {α : Type} (read : Lake (List Text) → α) (value : α),
      queriedLake.map read = some value → read lake = value := by
    intro α read value known
    rw [queried] at known
    exact Option.some.inj known
  have limits := reads (fun lake => lake.deletions.map Deletion.maxAge) [some 3] (by decide +kernel)
  have written := reads (fun lake => lake.modified (bucketObject "new.parquet")) 5
    (by decide +kernel)
  intro file added object named deletion member _
  obtain rfl := List.mem_singleton.mp added
  have isObject : fileObject Urls.plain directoryObjects [] storedTableAt (dataFilePath insertedFile) =
      .ok (bucketObject "new.parquet") := by decide +kernel
  obtain rfl := Except.ok.inj (named.symm.trans isObject)
  have limit : deletion.maxAge ∈ lake.deletions.map Deletion.maxAge := List.mem_map_of_mem member
  rw [limits] at limit
  rw [List.mem_singleton.mp limit, written]
  decide

/-- The writer's file is deleted, and the inserted one is not, although the deletion has read the
rows before the insert was committed. -/
theorem named_of_delete_insert :
    ∃ lake next, listedLake = some lake ∧
      plainLakeStep lake (.move 0 (.delete (crashedLake.stored.objects.map Prod.snd)
        fun _ => .gone)) = some next ∧
      bucketObject "old.parquet" ∉ next.stored.objects ∧
      bucketObject "new.parquet" ∈ next.stored.objects := by
  obtain ⟨lake, listed, deletes⟩ : ∃ lake, listedLake = some lake ∧
      (plainLakeStep lake (.move 0 (.delete (crashedLake.stored.objects.map Prod.snd)
        fun _ => .gone))).map (fun lake => decide
          (bucketObject "old.parquet" ∈ lake.stored.objects)) = some false :=
    Option.bind_eq_some_iff.mp (by decide +kernel)
  obtain ⟨next, deleted, gone⟩ := Option.map_eq_some_iff.mp deletes
  have reads : ∀ {α : Type} (read : Lake (List Text) → α) (value : α),
      listedLake.map read = some value → read lake = value := by
    intro α read value known
    rw [listed] at known
    exact Option.some.inj known
  have files := reads (fun lake => tableFiles lake.db) [dataFilePath insertedFile]
    (by decide +kernel)
  have present := reads (fun lake => lake.stored.objects) crashedLake.stored.objects
    (by decide +kernel)
  have moved := listed
  unfold listedLake at moved
  obtain ⟨queried, isQueried, moved⟩ := Option.bind_eq_some_iff.mp moved
  obtain ⟨committed, commits, moved⟩ := Option.bind_eq_some_iff.mp moved
  obtain ⟨resolved, resolves, lists⟩ := Option.bind_eq_some_iff.mp moved
  have run : Reaches plainLakeStep
      (Orderly Urls.plain directoryObjects [] (.absolute dataUrl) storedTableAt) crashedLake lake := by
    refine .tail (.tail (.tail (.of_foldlM _ (fun state label member => ?_) isQueried)
      (orderly_insertCommit _ isQueried) commits) ?_ resolves) ?_ lists
    · simp only [List.mem_cons, List.not_mem_nil, or_false] at member
      obtain rfl | rfl | rfl := member
      · trivial
      · exact settled_storedCatalog
      · trivial
    · exact trivial
    · exact trivial
  refine ⟨lake, next, listed, deleted, of_decide_eq_false gone, ?_⟩
  refine named_of_delete Urls.plain directoryObjects [] (.absolute dataUrl) .plain List.isPrefixOf
    storedTableAt crashedLake lake next rfl run 0 _ _ deleted _ (Or.inl ?_) ?_
  · refine ⟨dataFilePath insertedFile, ?_, by decide +kernel⟩
    rw [files]
    exact List.mem_singleton_self _
  · rw [present]
    decide

end Ducklake.Maintenance
