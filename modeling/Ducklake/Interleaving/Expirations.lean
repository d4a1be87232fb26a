import Ducklake.Interleaving.LiveTables
import Ducklake.Interleaving.RowIds
import Ducklake.Maintenance.FileLifecycle

/-!
# Expirations after a run

The catalog that transactions leave behind, in whatever order they were interleaved, can be
expired without a retained snapshot noticing.
-/

set_option autoImplicit false

namespace Ducklake

open Lib Caches Spec Maintenance Transaction

/-! ## Inline data tables -/

/-- Every inline data table is registered once, under its own name. -/
structure Spec.Database.InlinedRegistered (db : Database) : Prop where
  registered : db.inlinedDataTables.map DucklakeInlinedDataTables.tableName =
    db.inlinedData.map InlinedDataTable.name
  distinct : (db.inlinedData.map InlinedDataTable.name).Nodup

namespace Transaction

theorem createInlinedDataTable_registered
    (schemaVersion : Int)
    (before after : Database)
    (table : Int × Schema)
    (known : before.InlinedRegistered)
    (success : createInlinedDataTable schemaVersion before table = .ok after) :
    after.InlinedRegistered := by
  unfold createInlinedDataTable at success
  dsimp only at success
  split at success
  · cases success
  · rename_i absent
    obtain rfl := Except.ok.inj success
    constructor
    · rw [List.map_append, List.map_append, known.registered]
      rfl
    · rw [List.map_append]
      refine List.nodup_append.mpr ⟨known.distinct, List.nodup_singleton _, ?_⟩
      rintro name old _ new rfl
      obtain ⟨existing, stored, same⟩ := List.mem_map.mp old
      refine absent (List.any_eq_true.mpr ⟨existing, stored, decide_eq_true ?_⟩)
      exact same.trans (List.mem_singleton.mp new)

theorem persistInlineBatch_registered
    (before after : Database)
    (entry : Int × InlinedBatch)
    (known : before.InlinedRegistered)
    (success : persistInlineBatch before entry = .ok after) :
    after.InlinedRegistered := by
  unfold persistInlineBatch at success
  split at success
  · cases success
  · rename_i name _
    obtain rfl := Except.ok.inj success
    have names : (appendBatch before name entry.2).inlinedData.map InlinedDataTable.name =
        before.inlinedData.map InlinedDataTable.name := by
      unfold appendBatch
      rw [List.map_map]
      refine List.map_congr_left fun table _ => ?_
      rw [Function.comp_apply]
      split <;> rfl
    constructor
    · rw [names]
      exact known.registered
    · rw [names]
      exact known.distinct

theorem persistInlineData_registered
    (dialect : Dialect)
    (schemaVersion : Int)
    (changes : TransactionChanges)
    (before after : Database)
    (known : before.InlinedRegistered)
    (success : persistInlineData dialect schemaVersion changes before = .ok after) :
    after.InlinedRegistered := by
  unfold persistInlineData at success
  split at success
  · split at success
    · obtain rfl := Except.ok.inj success
      exact known
    · cases success
  · obtain ⟨between, created, appended⟩ := bind_eq_ok.mp success
    have first := foldlM_invariant Database.InlinedRegistered known
      (fun state entry next _ registered stepped =>
        createInlinedDataTable_registered schemaVersion state next entry registered stepped) created
    exact foldlM_invariant Database.InlinedRegistered first
      (fun state entry next _ registered stepped =>
        persistInlineBatch_registered state next entry registered stepped) appended

theorem persistCommit_registered
    (env : Environment)
    (now : Int)
    (prepared : PreparedCommit)
    (before after : Database)
    (known : before.InlinedRegistered)
    (success : persistCommit env now prepared before = .ok after) :
    after.InlinedRegistered := by
  obtain ⟨rows, persisted, _, rfl⟩ := persistCommit_eq_ok env now prepared before after success
  obtain ⟨catalogRows, inserted, persisted⟩ := bind_eq_ok.mp persisted
  obtain ⟨files, filesOk, persisted⟩ := bind_eq_ok.mp persisted
  obtain ⟨inlined, inlinedOk, finished⟩ := bind_eq_ok.mp persisted
  obtain ⟨schemas, _, inserted⟩ := bind_eq_ok.mp inserted
  obtain ⟨dataFiles, _, filesOk⟩ := bind_eq_ok.mp filesOk
  obtain ⟨deleteFiles, _, filesOk⟩ := bind_eq_ok.mp filesOk
  obtain rfl := Except.ok.inj inserted
  obtain rfl := Except.ok.inj filesOk
  have between : inlined.InlinedRegistered := by
    refine persistInlineData_registered _ _ _ _ _ ?_ inlinedOk
    exact ⟨known.registered, known.distinct⟩
  obtain rfl := Except.ok.inj finished
  exact ⟨between.registered, between.distinct⟩

end Transaction

namespace System

theorem reachable_registered
    (env : Environment)
    (now : Int)
    (sys : System)
    (run : Reachable env WithoutExpiration now sys) :
    sys.db.InlinedRegistered := by
  refine reachable_stored env _ now sys Database.InlinedRegistered (fun _ _ permitted => permitted)
    ⟨rfl, List.nodup_nil⟩ ?_ run
  intro sys next latest commit time _ _ _ _ registered _ committing
  exact persistCommit_registered env time _ _ _ registered committing.persisted

/-! ## File ids -/

def FileIdsCounted (sys : System) : Prop :=
  ∀ info ∈ sys.known, info.id = sys.history.length →
    0 ≤ info.nextFileId ∧ FromCounter 0 info.nextFileId sys.db.fileIds

theorem reachable_fileIdsCounted
    (env : Environment)
    (now : Int)
    (sys : System)
    (run : Reachable env WithoutExpiration now sys) :
    sys.FileIdsCounted := by
  refine reachable_committed env now sys FileIdsCounted ?_ ?_ ?_ run
  · intro info member _
    rw [List.mem_singleton.mp member]
    exact ⟨Int.le_refl 0, fromCounter_nil 0 0⟩
  · intro sys next db known history counted
    unfold FileIdsCounted
    rw [db, known, history]
    exact counted
  · intro sys latest commit time _ fileIds counted committing _ info member newest
    obtain ⟨stats, success⟩ := committing.sound.prepared
    obtain ⟨positive, before⟩ := fileIds latest counted.newest counted.id
    have grows : latest.nextFileId ≤ commit.prepared.state.nextFileId := by
      rw [← committing.base]
      exact (prepareCommit_extends env _ _ _ success).nextFileId
    have collected := prepareCommit_fileIds env _ _ _ committing.sound.tx.present success
    change FromCounter commit.base.nextFileId _ _ at collected
    rw [committing.base] at collected
    have after := persistCommit_fileIds env time _ _ _ _ before collected positive grows
      committing.persisted
    have last : info = .ofSnapshot (commit.prepared.state.snapshot time) := by
      rcases List.mem_append.mp member with old | new
      · have bound : info.id ≤ latest.id := by
          rcases counted.older info old with rfl | ⟨below, _⟩ <;> omega
        have length := counted.id
        change info.id = ((sys.history ++ [commit]).length : Int) at newest
        rw [List.length_append, List.length_singleton] at newest
        omega
      · exact List.mem_singleton.mp new
    rw [last]
    exact ⟨Int.le_trans positive grows, after⟩

theorem reachable_expirable
    (env : Environment)
    (now : Int)
    (sys : System)
    (run : Reachable env WithoutExpiration now sys) :
    ∃ latest, Expirable latest sys.db := by
  obtain ⟨latest, counted⟩ := reachable_counted env now sys run
  have registered := reachable_registered env now sys run
  have fileIds := (reachable_fileIdsCounted env now sys run latest counted.newest counted.id).2
  have newest := counted.newest
  rw [← counted.snapshots] at newest
  obtain ⟨row, stored, rfl⟩ := List.mem_map.mp newest
  refine ⟨row, stored, fun snapshot member => ?_, counted.until_, fileIds.distinct, ?_⟩
  · have known : SnapshotInfo.ofSnapshot snapshot ∈ sys.known := by
      rw [← counted.snapshots]
      exact List.mem_map_of_mem member
    rcases counted.older _ known with same | ⟨below, _⟩
    · exact Int.le_of_eq (congrArg SnapshotInfo.id same)
    · exact Int.le_of_lt below
  · rw [registered.registered]
    exact registered.distinct

section

variable {U P : Type} [DecidableEq P]

/-- What expirations and cleanups make of the catalog. -/
def MaintainedAs (urls : Io.Urls U) (paths : Io.ObjectPaths P) (currentDir : Text)
    (base : Io.DucklakePath U) (sys : System) (state : Maintained P) : Prop :=
  ∃ objects, Reaches (maintenanceStep urls paths currentDir base) (fun _ _ => True)
    ⟨sys.db, ⟨objects, []⟩⟩ state

/-- A run with files and batches whose table is dropped in the end. -/
def droppingWrites : List Label :=
  mixedWrites ++ .begin :: working 3 ⟨3, 1, 2, 3⟩ [.deleteTable writtenTable .fail] ++
    committing 3 ⟨3, 1, 2, 3⟩

theorem droppingWrites_permitted : ∀ label ∈ droppingWrites, label.isExpiration = false := by
  decide

/-- Expire some snapshots of the run, one selection after the other, with the latest catalog. -/
def expiringVersions (selections : List (List Int)) (sys : System) :
    Option (Maintained (List Text)) := do
  let catalog ← (Catalog.load .plain sys.db 4).toOption
  (selections.map fun ids => .expire catalog (.versions ids) 0).foldlM
    (maintenanceStep Io.Urls.plain plainObjects [] (.absolute dataUrl)) ⟨sys.db, ⟨[], []⟩⟩

theorem maintainedAs_expiringVersions
    (selections : List (List Int))
    (sys : System)
    (state : Maintained (List Text))
    (expired : expiringVersions selections sys = some state) :
    sys.MaintainedAs Io.Urls.plain plainObjects [] (.absolute dataUrl) state := by
  obtain ⟨catalog, _, taken⟩ := Option.bind_eq_some_iff.mp expired
  exact ⟨[], Reaches.of_foldlM _ (fun _ _ _ => trivial) taken⟩

/-- However the transactions were interleaved and whatever is expired and cleaned up afterwards:
the latest snapshot stays, a retained snapshot loads the catalog that it had and scans read the
same rows in its tables, and an expiration leaves the rows that retained snapshots see, and the
other versions of the tables that they see. -/
theorem retained_of_maintained
    (env : Environment)
    (now : Int)
    (sys : System)
    (run : Reachable env WithoutExpiration now sys)
    (urls : Io.Urls U)
    (paths : Io.ObjectPaths P)
    (currentDir : Text)
    (base : Io.DucklakePath U)
    (state : Maintained P)
    (maintained : sys.MaintainedAs urls paths currentDir base state) :
    (∃ latest, latestId sys.db = some latest ∧ latestId state.db = some latest) ∧
      (∀ snapshot ∈ state.db.snapshots, snapshot ∈ sys.db.snapshots ∧
        KeepsSnapshot env sys.db state.db snapshot.snapshotId) ∧
      ∀ catalog filter next, expireSnapshots catalog filter state.db = .ok next →
        LeavesSeen state.db next := by
  obtain ⟨latest, expirable⟩ := reachable_expirable env now sys run
  obtain ⟨objects, steps⟩ := maintained
  have held := maintainedFrom_of_reaches urls paths currentDir base latest sys.db expirable objects
    state steps
  refine ⟨⟨latest.snapshotId, expirable.latestId, held.expirable.latestId⟩,
    fun snapshot member => ?_, fun catalog filter next success => ?_⟩
  · obtain ⟨known, kept⟩ := held.retained snapshot member
    exact ⟨known, kept env⟩
  · exact (held.expirable.expire catalog filter success).2.1

/-- The snapshot with two of the three files keeps its table. -/
theorem retained_of_maintained_droppingWrites :
    ∃ sys state, Reachable .plain WithoutExpiration 0 sys ∧
      sys.MaintainedAs Io.Urls.plain plainObjects [] (.absolute dataUrl) state ∧
      state.db.snapshots.map DucklakeSnapshot.snapshotId = [0, 2, 4] ∧
      state.db.fileIds = [0, 1] ∧
      ∀ snapshot ∈ state.db.snapshots, KeepsSnapshot .plain sys.db state.db snapshot.snapshotId := by
  obtain ⟨sys, taken, read⟩ : ∃ sys, droppingWrites.foldlM (step .plain) (init 0) = some sys ∧
      ((expiringVersions [[1, 3]] sys).map fun state =>
        (state.db.snapshots.map DucklakeSnapshot.snapshotId, state.db.fileIds)) =
          some ([0, 2, 4], [0, 1]) :=
    Option.bind_eq_some_iff.mp (by decide +kernel)
  obtain ⟨state, expired, shape⟩ := Option.map_eq_some_iff.mp read
  obtain ⟨snapshots, files⟩ := Prod.mk.inj shape
  have run : Reachable .plain WithoutExpiration 0 sys :=
    Reaches.of_foldlM droppingWrites (fun _ => droppingWrites_permitted) taken
  have maintained := maintainedAs_expiringVersions _ sys state expired
  obtain ⟨_, retained, _⟩ := retained_of_maintained .plain 0 sys run _ _ _ _ state maintained
  exact ⟨sys, state, run, maintained, snapshots, files,
    fun snapshot member => (retained snapshot member).2⟩

/-- However the transactions were interleaved and whatever is expired and cleaned up afterwards: no
file is both in the catalog and scheduled for deletion, none is scheduled twice, and a scheduled
file is one of the run's that no snapshot sees any more.  An expiration schedules what it removes. -/
theorem filesAccounted_of_maintained
    (env : Environment)
    (now : Int)
    (sys : System)
    (run : Reachable env WithoutExpiration now sys)
    (urls : Io.Urls U)
    (paths : Io.ObjectPaths P)
    (currentDir : Text)
    (base : Io.DucklakePath U)
    (state : Maintained P)
    (maintained : sys.MaintainedAs urls paths currentDir base state) :
    FilesAccounted sys.db state.db state.stored.scheduled ∧
      (∀ row ∈ sys.db.dataFiles, row.entity.dataFileId ∈ scheduledIds state.stored.scheduled →
        seenBy state.db.snapshots row = false) ∧
      (∀ row ∈ sys.db.deleteFiles, row.entity.deleteFileId ∈ scheduledIds state.stored.scheduled →
        seenBy state.db.snapshots row = false) ∧
      ∀ catalog filter time next, expireAndSchedule urls catalog base filter time state.db
          state.stored.scheduled = .ok next →
        (state.db.fileIds ++ scheduledIds state.stored.scheduled).Perm
          (next.1.fileIds ++ scheduledIds next.2) := by
  obtain ⟨latest, expirable⟩ := reachable_expirable env now sys run
  obtain ⟨objects, steps⟩ := maintained
  have held := maintainedFrom_of_reaches urls paths currentDir base latest sys.db expirable objects
    state steps
  exact ⟨held.accounted, held.accounted.unseenData, held.accounted.unseenDeletes,
    fun catalog filter time next success =>
      expireAndSchedule_fileIds filter time _ next held.expirable.fileIds success⟩

/-- All three files are scheduled, the last one first. -/
theorem filesAccounted_of_maintained_droppingWrites :
    ∃ sys state, Reachable .plain WithoutExpiration 0 sys ∧
      sys.MaintainedAs Io.Urls.plain plainObjects [] (.absolute dataUrl) state ∧
      state.db.fileIds = [] ∧ scheduledIds state.stored.scheduled = [2, 0, 1] ∧
      FilesAccounted sys.db state.db state.stored.scheduled := by
  obtain ⟨sys, taken, read⟩ : ∃ sys, droppingWrites.foldlM (step .plain) (init 0) = some sys ∧
      ((expiringVersions [[1, 3], [2]] sys).map fun state =>
        (state.db.fileIds, scheduledIds state.stored.scheduled)) = some ([], [2, 0, 1]) :=
    Option.bind_eq_some_iff.mp (by decide +kernel)
  obtain ⟨state, expired, shape⟩ := Option.map_eq_some_iff.mp read
  obtain ⟨files, scheduled⟩ := Prod.mk.inj shape
  have run : Reachable .plain WithoutExpiration 0 sys :=
    Reaches.of_foldlM droppingWrites (fun _ => droppingWrites_permitted) taken
  have maintained := maintainedAs_expiringVersions _ sys state expired
  obtain ⟨accounted, _⟩ := filesAccounted_of_maintained .plain 0 sys run _ _ _ _ state maintained
  exact ⟨sys, state, run, maintained, files, scheduled, accounted⟩

end

end System

end Ducklake
