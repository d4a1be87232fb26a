import Ducklake.Interleaving.RowIds
import Ducklake.Maintenance.TablePaths
import Ducklake.Scan.Agreement
import Ducklake.Transaction.FileOwners

/-!
# Scanned tables

In every run, the statistics of a table are those of its scan.
-/

set_option autoImplicit false

namespace Ducklake

open Lib Caches Spec Maintenance Transaction Scan

theorem Transaction.FilesOwned.deletesOwnFiles
    {db : Database}
    (files : FilesOwned db) :
    DeletesOwnFiles db := by
  intro delete stored file storedFile same
  obtain ⟨entity, inside, ids, tables⟩ := files.owned delete.entity (List.mem_map_of_mem stored)
  obtain ⟨other, otherStored, rfl⟩ := List.mem_map.mp inside
  rw [← tables, List.inj_on_of_nodup_map files.unique otherStored storedFile (ids.trans same)]

namespace System

theorem reachable_filesOwned
    (env : Environment)
    (now : Int)
    (sys : System)
    (run : Reachable env WithoutExpiration now sys) :
    FilesOwned sys.db := by
  refine reachable_stored env _ now sys FilesOwned (fun _ _ permitted => permitted)
    ⟨List.nodup_nil, fun _ impossible => by cases impossible⟩ ?_ run
  intro sys next latest commit time _ _ _ _ files _ committing
  obtain ⟨stats, success⟩ := committing.sound.prepared
  exact files.committed env time _ _
    (prepareCommit_deletesHaveFiles env _ _ _ committing.sound.tx.present success)
    committing.persisted

/-- What a listing reports for a table is what a scan of the table finds at the same snapshot: its
rows without those that are deleted and with the inline rows, and the number and sizes of its
files. -/
theorem statistics_of_scan
    (env : Environment)
    (now : Int)
    (sys : System)
    (run : Reachable env WithoutExpiration now sys)
    {U : Type}
    (urls : Io.Urls U)
    (dataPath : Io.DucklakePath U)
    (info : SnapshotInfo)
    (catalog : Catalog)
    (tableId : Int)
    (scan : ScanResult)
    (scanned : scanTable env urls sys.db info catalog dataPath tableId = .ok scan) :
    (∀ ids stats, ids.Nodup → tableId ∈ ids → loadStatistics sys.db ids info.id = .ok stats →
        stats.get? tableId = some scan.statistics) ∧
      ∀ listed schema listing, listTablesWithStatistics sys.db listed info.id schema = .ok listing →
        ∀ entry ∈ listing, entry.1.id = tableId → entry.2 = scan.statistics := by
  have owned := (reachable_filesOwned env now sys run).deletesOwnFiles
  refine ⟨fun ids stats unique inside success => ?_, fun listed schema listing success entry inside
    same => ?_⟩
  · obtain ⟨counts, counted, reported⟩ :=
      loadStatistics_get? sys.db owned ids unique info.id stats success tableId inside
    rw [reported, scanTable_statistics env urls sys.db info catalog dataPath tableId scan scanned
      counts counted]
  · obtain ⟨counts, counted, reported⟩ :=
      (listTablesWithStatistics_spec sys.db owned listed info.id schema listing success).2 entry inside
    rw [same] at counted reported
    rw [reported, scanTable_statistics env urls sys.db info catalog dataPath tableId scan scanned
      counts counted]

theorem mixedWrites_permitted : ∀ label ∈ mixedWrites, label.isExpiration = false := by
  decide

/-- Three data files with nine rows, and four inline rows. -/
theorem statistics_of_scan_mixedWrites :
    ∃ sys info catalog scan stats, Reachable .plain WithoutExpiration 0 sys ∧
      Catalog.load .plain sys.db info.id = .ok catalog ∧
      scanTable .plain Io.Urls.plain sys.db info catalog (.absolute dataUrl) 1 = .ok scan ∧
      loadStatistics sys.db [1] info.id = .ok stats ∧ stats.get? 1 = some scan.statistics ∧
      scan.statistics = ⟨13, 4, 0, 3, some 300, some 100, some 100⟩ := by
  obtain ⟨sys, taken, read⟩ : ∃ sys, mixedWrites.foldlM (step .plain) (init 0) = some sys ∧
      (do
        let info ← (latestSnapshot sys.db).toOption
        let catalog ← (Catalog.load .plain sys.db info.id).toOption
        let scan ← (scanTable .plain Io.Urls.plain sys.db info catalog (.absolute dataUrl)
          1).toOption
        let stats ← (loadStatistics sys.db [1] info.id).toOption
        some (stats.get? 1)) = some (some ⟨13, 4, 0, 3, some 300, some 100, some 100⟩) :=
    Option.bind_eq_some_iff.mp (by decide +kernel)
  obtain ⟨info, latest, read⟩ := Option.bind_eq_some_iff.mp read
  obtain ⟨catalog, loaded, read⟩ := Option.bind_eq_some_iff.mp read
  obtain ⟨scan, scanned, read⟩ := Option.bind_eq_some_iff.mp read
  obtain ⟨stats, reported, read⟩ := Option.bind_eq_some_iff.mp read
  have run : Reachable .plain WithoutExpiration 0 sys :=
    Reaches.of_foldlM mixedWrites (fun _ => mixedWrites_permitted) taken
  have agree := (statistics_of_scan .plain 0 sys run Io.Urls.plain (.absolute dataUrl) info catalog 1
    scan (toOption_eq_some.mp scanned)).1 [1] stats (by decide) (by decide)
      (toOption_eq_some.mp reported)
  refine ⟨sys, info, catalog, scan, stats, run, toOption_eq_some.mp loaded,
    toOption_eq_some.mp scanned, toOption_eq_some.mp reported, agree, ?_⟩
  exact Option.some.inj (agree.symm.trans (Option.some.inj read))

end System

end Ducklake
