import Ducklake.Maintenance.SafeDeletions

/-!
# Tables that were moved away

`delete_table_transferring_file_ownership`: a move removes the rows of a table's files from the
source, whose data path still has the objects.
-/

set_option autoImplicit false

namespace Ducklake.Maintenance

open Lib Io Spec Transaction

/-- The files of a table that a move detached are orphans of the source: once they are old, a
deletion there takes them away from the catalog that owns them now. -/
theorem gone_of_detached
    {U P : Type}
    [DecidableEq P]
    (urls : Urls U)
    (paths : ObjectPaths P)
    (currentDir : Text)
    (base : Io.DucklakePath U)
    (env : Environment)
    (text : P → Text)
    (below : P → P → Bool)
    (replies : StoreReplies)
    (maxAge : Option Int)
    (modified : Store × P → Int)
    (now : Int)
    (prepared : PreparedCommit)
    (db next : Database)
    (committed : persistCommit env now prepared db = .ok next)
    (catalog : Catalog)
    (stored : Stored P)
    (object : Store × P)
    (owned : ∀ file ∈ tableFiles db,
      referencedFile urls paths currentDir base catalog file = .ok object.2 →
        file.tableId ∈ prepared.changes.detachedTables)
    (unclaimed : ∀ file ∈ newFiles prepared.changes,
      referencedFile urls paths currentDir base catalog file ≠ .ok object.2)
    (unscheduled : ∀ row ∈ stored.scheduled,
      referencedScheduled urls paths currentDir base row ≠ .ok object.2)
    (directory : P)
    (inDirectory : dataDirectory urls paths currentDir base = .ok (object.1, directory))
    (isBelow : below directory object.2 = true)
    (old : Sweep.spares maxAge (modified object) = false)
    (displayed : List Text)
    (success : (deleteOrphanedFilesFiltered urls paths currentDir base text below replies maxAge
      false catalog modified next stored).2 = .ok displayed) :
    object ∉ (deleteOrphanedFilesFiltered urls paths currentDir base text below replies maxAge
      false catalog modified next stored).1.objects := by
  unfold deleteOrphanedFilesFiltered at success ⊢
  cases found : findOrphans urls paths currentDir base below replies maxAge catalog modified next
      stored with
  | error err =>
      rw [found] at success
      cases success
  | ok result =>
      obtain ⟨store, orphans⟩ := result
      rw [found] at success
      cases writable : replies.writable with
      | false =>
          simp only [writable, Bool.not_false, if_true, Bool.false_eq_true, if_false] at success
          cases success
      | true =>
          simp only [writable, Bool.not_true, Bool.false_eq_true, if_false] at success ⊢
          have deletes := deletesOrphans_of_deleteObjects urls paths currentDir base catalog next
            below replies maxAge false modified stored store orphans
            (orphans.map fun location => store.displayLocation text location) rfl writable found
          by_cases present : object ∈ stored.objects
          · refine (deletes.succeeds displayed success).2 rfl object {
              present := present
              directory := ⟨directory, inDirectory, isBelow⟩
              unreferenced := ?_
              old := old }
            intro referenced
            cases referenced with
            | inl byFile =>
                obtain ⟨file, listed, named⟩ := byFile
                cases tableFiles_persistCommit env now prepared db next committed file listed with
                | inl kept => exact kept.2 (owned file kept.1 named)
                | inr new => exact unclaimed file new named
            | inr bySchedule =>
                obtain ⟨row, listed, named⟩ := bySchedule
                exact unscheduled row listed named
          · exact fun left => present (deletes.objects left)

/-! ## A table that is moved -/

def sharedObjects : Stored (List Text) :=
  ⟨[bucketObject "new.parquet"], []⟩

def ownedDatabase : Database :=
  { storedTable "t/".toList with dataFiles := [.new 0 insertedFile] }

def moveCommit : PreparedCommit where
  changes := { TransactionChanges.empty with droppedTables := [1], detachedTables := [1] }
  state := .new ⟨0, 0, 2, 1⟩ .new true .empty
  appliedChanges := .new []
  tableIdsWithSchemaChanges := []

def orphansAfterMove (db : Database) (catalog : Catalog) :
    Stored (List Text) × DucklakeResult (List Text) :=
  deleteOrphanedFilesFiltered Urls.plain directoryObjects [] (.absolute dataUrl)
    (fun path => ['/'].intercalate path) List.isPrefixOf ⟨true, .ok (), fun _ => .gone⟩ none false
    catalog (fun _ => 0) db sharedObjects

theorem gone_of_detached_moved :
    ∃ next catalog, persistCommit .plain 0 moveCommit ownedDatabase = .ok next ∧
      Catalog.load .plain next 1 = .ok catalog ∧
      bucketObject "new.parquet" ∈ sharedObjects.objects ∧
      bucketObject "new.parquet" ∉ (orphansAfterMove next catalog).1.objects := by
  obtain ⟨next, committed, deleted⟩ := bind_eq_ok.mp (show
    (persistCommit .plain 0 moveCommit ownedDatabase >>= fun next => Catalog.load .plain next 1 >>=
      fun catalog => (orphansAfterMove next catalog).2) =
        .ok ["s3://bucket/data/main/t/new.parquet".toList] by decide +kernel)
  obtain ⟨catalog, loaded, success⟩ := bind_eq_ok.mp deleted
  refine ⟨next, catalog, committed, loaded, by decide, ?_⟩
  refine gone_of_detached Urls.plain directoryObjects [] (.absolute dataUrl) .plain _ _ _ none _ 0
    moveCommit ownedDatabase next committed catalog sharedObjects _ ?_ ?_ ?_
    ["data".toList] (by decide +kernel) (by decide) rfl _ success
  · intro file listed _
    obtain rfl := List.mem_singleton.mp listed
    decide
  · exact fun file listed => absurd listed List.not_mem_nil
  · exact fun row listed => absurd listed List.not_mem_nil

end Ducklake.Maintenance
