import Ducklake.Interleaving.DroppedTables
import Ducklake.Transaction.WrittenStats

/-!
# Coherence of cached statistics

The statistics cache has one entry for each schema version and next file id.  The commits that
write statistics take a new one of the two, as long as they write some file with their files.
-/

set_option autoImplicit false

namespace Ducklake

open Lib Caches Spec Maintenance Transaction

/-! ## What a commit writes -/

def Transaction.SnapshotInfo.statsKey (info : SnapshotInfo) : Int × Int :=
  (info.schemaVersion, info.nextFileId)

def Spec.Database.nextRowId (db : Database) (tableId : Int) : Int :=
  (statsRow db.tableStats tableId).elim 0 DucklakeTableStats.nextRowId

def Spec.Database.recordCount (db : Database) (tableId : Int) : Int :=
  ((statsRow db.tableStats tableId).bind DucklakeTableStats.recordCount).getD 0

namespace Commit

/-- Everything that a commit writes to a table, in the order of its changes. -/
def writesTo (commit : Commit) (tableId : Int) : List Write :=
  Transaction.writesTo commit.prepared.state.catalog tableId
    (ChangeSet.new commit.tx.changes).changes

/-- The pair by which the statistics of the commit's snapshot are cached. -/
def statsKey (commit : Commit) : Int × Int :=
  (commit.prepared.state.schemaVersion, commit.prepared.state.nextFileId)

/-- The rows that a commit writes to each table have consecutive ids, starting at the next row id
that was stored before, and the stored counts are raised by their number. -/
structure AllocatesRowIds (commit : Commit) : Prop where
  files : ∀ tableId, fileRanges commit.prepared.changes tableId =
    (allocate Write.numRows (commit.before.nextRowId tableId)
      (commit.writesTo tableId)).filterMap Write.fileRange
  batches : ∀ tableId, batchRanges commit.prepared.changes tableId =
    (allocate Write.numRows (commit.before.nextRowId tableId)
      (commit.writesTo tableId)).filterMap Write.batchRange
  nextRowId : ∀ tableId, commit.after.nextRowId tableId =
    commit.before.nextRowId tableId + totalSize Write.numRows (commit.writesTo tableId)
  recordCount : ∀ tableId, commit.after.recordCount tableId =
    commit.before.recordCount tableId + totalSize Write.numRows (commit.writesTo tableId)

end Commit

/-- The statistics of a table in an attempt are the stored ones. -/
structure Transaction.CommitState.CountsFrom (state : CommitState) (db : Database)
    (tableId : Int) : Prop where
  nextRowId : (state.tableStatsOf tableId).nextRowId = db.nextRowId tableId
  recordCount : (state.tableStatsOf tableId).recordCount.getD 0 = db.recordCount tableId
  isPersisted : (state.tableStatsOf tableId).isPersisted = true ↔
    tableId ∈ db.tableStats.map DucklakeTableStats.tableId

theorem Transaction.Change.worksOn_of_writes
    (change : Change)
    (ref : TableRef)
    (writes : List Write)
    (written : change.writes = some (ref, writes)) :
    change.worksOn = some ref := by
  cases change with
  | writeTableDataFiles | writeTableInlineData =>
      obtain ⟨rfl, _⟩ := Prod.mk.inj (Option.some.inj written)
      rfl
  | _ => cases written

theorem Transaction.Change.exists_of_writesTable
    (change : Change)
    (catalog : Catalog)
    (tableId : Int)
    (written : change.writesTable catalog tableId = true) :
    ∃ ref writes, change.writes = some (ref, writes) ∧
      catalog.idOf (.table ref) = some tableId := by
  unfold Change.writesTable at written
  cases shape : change.writes with
  | none =>
      rw [shape] at written
      cases written
  | some entry =>
      rw [shape] at written
      exact ⟨entry.1, entry.2, rfl, by simpa using written⟩

theorem Transaction.ChangeSet.requiresTableStats_of_writesTable
    (set : ChangeSet)
    (change : Change)
    (member : change ∈ set.changes)
    (catalog : Catalog)
    (tableId : Int)
    (written : change.writesTable catalog tableId = true) :
    set.requiresTableStats = true := by
  refine List.any_eq_true.mpr ⟨change, member, ?_⟩
  obtain ⟨ref, writes, shape, _⟩ := change.exists_of_writesTable catalog tableId written
  cases change with
  | writeTableDataFiles | writeTableInlineData => rfl
  | _ => cases shape

theorem Transaction.Change.writesTo_eq_nil
    (change : Change)
    (catalog : Catalog)
    (tableId : Int)
    (unwritten : change.writesTable catalog tableId = false) :
    change.writesTo catalog tableId = [] := by
  unfold Change.writesTable at unwritten
  unfold Change.writesTo
  cases shape : change.writes with
  | none => rfl
  | some entry =>
      rw [shape] at unwritten
      exact if_neg (by simpa using unwritten)

namespace System

section

variable {env : Environment} {sys next : System} {latest : SnapshotInfo} {commit : Commit}
variable {now time : Int} {stats : TableStatsMap}

/-! ## Statistics of written tables -/

theorem Committing.counts_of_written
    (run : Reachable env WithoutExpiration now sys)
    (counted : sys.Counted latest)
    (committing : Committing env sys latest commit time)
    (inOrder : (sys.recordCommit commit time).SnapshotsInOrder)
    (visible : commit.tx.IdsVisible sys.db)
    (idsBelow : ∀ row ∈ sys.db.tableStats, row.tableId < latest.nextCatalogId)
    (matching : MatchesRows stats sys.db latest.id)
    (change : Change)
    (member : change ∈ (ChangeSet.new commit.tx.changes).changes)
    (tableId : Int)
    (written : change.writesTable commit.prepared.state.catalog tableId = true) :
    (stats.get? tableId).map TableStats.counts =
      (statsRow sys.db.tableStats tableId).map fun row => (loadTable row).counts := by
  obtain ⟨ref, writes, shape, found⟩ := change.exists_of_writesTable _ tableId written
  obtain ⟨any, success⟩ := committing.sound.prepared
  rcases (prepareCommit_extends env _ _ _ success).fresh _ _ found with given | ⟨new, _⟩
  · have live := live_of_worksOn env now sys latest commit time run committing inOrder visible change
      ref tableId member (change.worksOn_of_writes ref writes shape) given
    obtain ⟨row, stored, alive, rfl⟩ := (Versioned.mem_liveKeys tableId).mp live
    refine matching.seen _ (List.mem_map.mpr ⟨row.entity, List.mem_map.mpr ⟨row, ?_, rfl⟩, rfl⟩)
    refine List.mem_filter.mpr ⟨stored, ?_⟩
    have began := (counted.until_.tables row stored).1
    have none_ : row.endSnapshot = none := by simpa [Versioned.isLive] using alive
    simp [Versioned.visibleAt, none_, began]
  · have above : latest.nextCatalogId ≤ tableId := by
      rw [← committing.base]
      exact new
    have noRow : statsRow sys.db.tableStats tableId = none := by
      refine Option.not_isSome_iff_eq_none.mp fun stored => ?_
      obtain ⟨row, inside, same⟩ := List.mem_map.mp ((statsRow_isSome_iff _ _).mp stored)
      have below := idsBelow row inside
      omega
    have hidden : tableId ∉ (Versioned.entitiesAt latest.id sys.db.tables).map
        DucklakeTable.tableId := by
      intro shown
      obtain ⟨entity, listed, same⟩ := List.mem_map.mp shown
      have below := counted.idsBelow.tables.entitiesAt latest.id entity listed
      omega
    rw [noRow, matching.unseen tableId hidden]
    rfl

theorem countsFrom_of_counts
    (state : CommitState)
    (db : Database)
    (tableId : Int)
    (same : (state.tableStats.get? tableId).map TableStats.counts =
      (statsRow db.tableStats tableId).map fun row => (loadTable row).counts) :
    state.CountsFrom db tableId := by
  have all : (state.tableStatsOf tableId).nextRowId = db.nextRowId tableId ∧
      (state.tableStatsOf tableId).recordCount.getD 0 = db.recordCount tableId ∧
      ((state.tableStatsOf tableId).isPersisted = true ↔
        (statsRow db.tableStats tableId).isSome = true) := by
    unfold CommitState.tableStatsOf Database.nextRowId Database.recordCount
    cases loaded : state.tableStats.get? tableId with
    | none =>
        rw [loaded] at same
        rw [Option.map_eq_none_iff.mp same.symm]
        exact ⟨rfl, rfl, by decide⟩
    | some counted =>
        rw [loaded] at same
        obtain ⟨row, stored, counts⟩ := Option.map_eq_some_iff.mp same.symm
        obtain ⟨nextRowId, rest⟩ := Prod.mk.inj counts
        obtain ⟨recordCount, rest⟩ := Prod.mk.inj rest
        obtain ⟨_, isPersisted⟩ := Prod.mk.inj rest
        rw [stored]
        refine ⟨nextRowId.symm, ?_, ?_⟩
        · exact congrArg (fun count : Option Int => count.getD 0) recordCount.symm
        · simp only [Option.getD_some, Option.isSome_some, iff_true]
          exact isPersisted.symm
  exact ⟨all.1, all.2.1, all.2.2.trans (statsRow_isSome_iff _ tableId)⟩

theorem Committing.tableStats_eq
    (committing : Committing env sys latest commit time) :
    commit.after.tableStats = commit.prepared.changes.writtenColumns.keys.foldl
        (persistTableStats commit.prepared.state) sys.db.tableStats ∧
      commit.after.tableColumnStats = (changedColumns commit.prepared.state
        commit.prepared.changes.writtenColumns).foldl (persistColumnStats env commit.prepared.state)
          sys.db.tableColumnStats := by
  have after := persistCommit_same env time _ _ _ committing.persisted
  unfold SameExceptSnapshots at after
  rw [after]
  exact ⟨rfl, rfl⟩

theorem Committing.allocates
    (run : Reachable env WithoutExpiration now sys)
    (counted : sys.Counted latest)
    (committing : Committing env sys latest commit time)
    (inOrder : (sys.recordCommit commit time).SnapshotsInOrder)
    (visible : commit.tx.IdsVisible sys.db)
    (unique : (sys.db.tableStats.map DucklakeTableStats.tableId).Nodup)
    (idsBelow : ∀ row ∈ sys.db.tableStats, row.tableId < latest.nextCatalogId)
    (success : prepareCommit env (ChangeSet.new commit.tx.changes)
      (.new commit.base commit.tx.catalog (ChangeSet.new commit.tx.changes).changesSchema stats) =
        .ok commit.prepared)
    (matching : (ChangeSet.new commit.tx.changes).requiresTableStats = true →
      MatchesRows stats sys.db latest.id) :
    commit.AllocatesRowIds ∧
      (commit.after.tableStats.map DucklakeTableStats.tableId).Nodup ∧
      ∀ row ∈ commit.after.tableStats, row.tableId < commit.prepared.state.nextCatalogId := by
  have allots := prepareCommit_allots env _ _ _ committing.sound.tx.present success
  have before := committing.before
  -- Written tables start from the stored counts.
  have starts : ∀ tableId ∈ commit.prepared.changes.writtenColumns.keys,
      (CommitState.new commit.base commit.tx.catalog
        (ChangeSet.new commit.tx.changes).changesSchema stats).CountsFrom sys.db tableId := by
    intro tableId key
    obtain ⟨change, member, written⟩ := (allots tableId).1.mp key
    have required := ChangeSet.requiresTableStats_of_writesTable _ change member _ tableId written
    exact countsFrom_of_counts _ sys.db tableId
      (committing.counts_of_written run counted inOrder visible idsBelow (matching required) change
        member tableId written)
  have silent : ∀ tableId ∉ commit.prepared.changes.writtenColumns.keys,
      commit.writesTo tableId = [] := by
    intro tableId absent
    refine List.flatMap_eq_nil_iff.mpr fun change member => ?_
    have unwritten : change.writesTable commit.prepared.state.catalog tableId ≠ true :=
      fun written => absent ((allots tableId).1.mpr ⟨change, member, written⟩)
    exact change.writesTo_eq_nil _ tableId (by simpa using unwritten)
  obtain ⟨uniqueAfter, rows⟩ := persistTableStats_all commit.prepared.state
    commit.prepared.changes.writtenColumns.keys sys.db.tableStats
    commit.prepared.changes.writtenColumns.unique unique fun tableId key => by
      rw [(allots tableId).2.isPersisted]
      exact (starts tableId key).isPersisted
  obtain ⟨tableStats, _⟩ := committing.tableStats_eq
  rw [← tableStats] at uniqueAfter rows
  have ranges : ∀ tableId, allocate Write.numRows ((CommitState.new commit.base commit.tx.catalog
      (ChangeSet.new commit.tx.changes).changesSchema stats).tableStatsOf tableId).nextRowId
        (commit.writesTo tableId) =
      allocate Write.numRows (commit.before.nextRowId tableId) (commit.writesTo tableId) := by
    intro tableId
    by_cases key : tableId ∈ commit.prepared.changes.writtenColumns.keys
    · rw [(starts tableId key).nextRowId, before]
    · rw [silent tableId key]
      rfl
  refine ⟨?_, uniqueAfter, ?_⟩
  · constructor
    case files =>
      exact fun tableId => (allots tableId).2.files.trans
        (congrArg (List.filterMap Write.fileRange) (ranges tableId))
    case batches =>
      exact fun tableId => (allots tableId).2.batches.trans
        (congrArg (List.filterMap Write.batchRange) (ranges tableId))
    case nextRowId =>
      intro tableId
      unfold Database.nextRowId
      rw [rows tableId, before]
      by_cases key : tableId ∈ commit.prepared.changes.writtenColumns.keys
      · rw [if_pos key]
        exact (allots tableId).2.nextRowId.trans
          (congrArg (· + _) (starts tableId key).nextRowId)
      · simp [key, silent tableId key]
    case recordCount =>
      intro tableId
      unfold Database.recordCount
      rw [rows tableId, before]
      by_cases key : tableId ∈ commit.prepared.changes.writtenColumns.keys
      · rw [if_pos key]
        exact (allots tableId).2.recordCount.trans
          (congrArg (· + _) (starts tableId key).recordCount)
      · simp [key, silent tableId key]
  · intro row member
    have grows := (committing.rows counted).grows
    rw [committing.base] at grows
    have stored := (statsRow_isSome_iff _ row.tableId).mpr (List.mem_map_of_mem member)
    rw [rows row.tableId] at stored
    by_cases key : row.tableId ∈ commit.prepared.changes.writtenColumns.keys
    · obtain ⟨change, _, written⟩ := (allots row.tableId).1.mp key
      obtain ⟨ref, _, _, found⟩ := change.exists_of_writesTable _ _ written
      rcases (prepareCommit_extends env _ _ _ success).fresh _ _ found with given | ⟨_, new⟩
      · have below := counted.idOf_lt commit.tx committing.sound.tx committing.starts _ _ given
        omega
      · exact new
    · rw [if_neg key] at stored
      obtain ⟨other, inside, same⟩ := List.mem_map.mp ((statsRow_isSome_iff _ _).mp stored)
      have below := idsBelow other inside
      omega

/-! ## Commits without statistics -/

/-- Writes without a file or a batch, to tables that have statistics. -/
def WritesNothing (db : Database) (tx : Ducklake.Transaction) : Prop :=
  ∀ change ∈ (ChangeSet.new tx.changes).changes, ∀ ref writes,
    change.writes = some (ref, writes) → writes = [] ∧
      ∃ id ∈ db.tableStats.map DucklakeTableStats.tableId, tx.catalog.idOf (.table ref) = some id

/-- Stored statistics did not change since a commit. -/
def SameStats (commit : Commit) (db : Database) : Prop :=
  commit.after.tableStats = db.tableStats ∧ commit.after.tableColumnStats = db.tableColumnStats

theorem Committing.sameStats
    (run : Reachable env WithoutExpiration now sys)
    (counted : sys.Counted latest)
    (committing : Committing env sys latest commit time)
    (inOrder : (sys.recordCommit commit time).SnapshotsInOrder)
    (visible : commit.tx.IdsVisible sys.db)
    (unique : (sys.db.tableStats.map DucklakeTableStats.tableId).Nodup)
    (idsBelow : ∀ row ∈ sys.db.tableStats, row.tableId < latest.nextCatalogId)
    (success : prepareCommit env (ChangeSet.new commit.tx.changes)
      (.new commit.base commit.tx.catalog (ChangeSet.new commit.tx.changes).changesSchema stats) =
        .ok commit.prepared)
    (matching : (ChangeSet.new commit.tx.changes).requiresTableStats = true →
      MatchesRows stats sys.db latest.id)
    (nothing : WritesNothing sys.db commit.tx) :
    SameStats commit sys.db := by
  have present := committing.sound.tx.present
  have extends_ := prepareCommit_extends env _ _ _ success
  have same : commit.prepared.state.tableStats = stats :=
    prepareCommit_sameStats env _ _ _ (fun change member ref writes written =>
      (nothing change member ref writes written).1) present success
  obtain ⟨tableStats, columnStats⟩ := committing.tableStats_eq
  constructor
  · rw [tableStats]
    refine persistTableStats_of_stored _ _ _ unique fun tableId key => ?_
    obtain ⟨change, member, written⟩ :=
      (prepareCommit_allots env _ _ _ present success tableId).1.mp key
    obtain ⟨ref, writes, shape, found⟩ := change.exists_of_writesTable _ tableId written
    obtain ⟨_, id, stored, given⟩ := nothing change member ref writes shape
    have id_eq : id = tableId := Option.some.inj ((extends_.kept _ _ given).symm.trans found)
    rw [id_eq] at stored
    obtain ⟨row, rowOf⟩ := Option.isSome_iff_exists.mp ((statsRow_isSome_iff _ tableId).mpr stored)
    have counts := committing.counts_of_written run counted inOrder visible idsBelow
      (matching (ChangeSet.requiresTableStats_of_writesTable _ change member _ tableId written)) change
        member tableId written
    rw [rowOf] at counts
    obtain ⟨loaded, get, counts⟩ := Option.map_eq_some_iff.mp counts
    have own : commit.prepared.state.tableStatsOf tableId = loaded := by
      rw [CommitState.tableStatsOf, same, get, Option.getD_some]
    obtain ⟨nextRowId, rest⟩ := Prod.mk.inj counts
    obtain ⟨recordCount, rest⟩ := Prod.mk.inj rest
    obtain ⟨fileSizeBytes, isPersisted⟩ := Prod.mk.inj rest
    refine ⟨by rw [own, isPersisted]; rfl, ?_⟩
    rw [rowOf, writtenStats, own, nextRowId, recordCount, fileSizeBytes,
      ← ((statsRow_eq_some_iff _ tableId row unique).mp rowOf).2]
    rfl
  · rw [columnStats, changedColumns_of_sameStats]
    · rfl
    · rw [same]
      exact extends_.originalTableStats.symm

def WithoutStats (db : Database) : Prop :=
  db.tableStats = [] ∧ db.tableColumnStats = []

theorem Committing.sameCatalogRows
    (committing : Committing env sys latest commit time)
    (kept : (ChangeSet.new commit.tx.changes).changesSchema = false) :
    SameCatalogRows sys.db commit.after := by
  obtain ⟨_, success⟩ := committing.sound.prepared
  obtain ⟨applied, executed, _, _⟩ := prepareCommit_eq_ok env _ _ _ success
  exact persistCommit_sameCatalogRows env time commit.prepared sys.db commit.after
    (ChangeSet.apply_same env _ _ _ committing.sound.tx.present kept executed) committing.persisted

/-! ## The invariant -/

def FreshStats (env : Environment) (db : Database) (snapshotId : Int) (stats : TableStatsMap) :
    Prop :=
  ∃ catalog, Catalog.load env db snapshotId = .ok catalog ∧
    Caches.load env catalog db snapshotId = .ok stats

def SeesAlike (db : Database) (snapshot other : Int) : Prop :=
  Versioned.entitiesAt snapshot db.tables = Versioned.entitiesAt other db.tables ∧
    Versioned.entitiesAt snapshot db.columns = Versioned.entitiesAt other db.columns

/-- The statistics with which an attempt was prepared are fresh if its key is the latest one. -/
def PreparedFrom (env : Environment) (db : Database) (latest : SnapshotInfo) (party : Party) : Prop :=
  ∀ tx attempt base prepared, party.phase = .prepared tx attempt base prepared →
    ∃ stats, prepareCommit env (ChangeSet.new tx.changes)
        (.new base tx.catalog (ChangeSet.new tx.changes).changesSchema stats) = .ok prepared ∧
      ((ChangeSet.new tx.changes).requiresTableStats = true → base.statsKey = latest.statsKey →
        FreshStats env db latest.id stats)

structure StatsCoherent (env : Environment) (sys : System) (latest : SnapshotInfo) : Prop where
  first : ⟨0, 0, 1, 0⟩ ∈ sys.known
  unique : (sys.db.tableStats.map DucklakeTableStats.tableId).Nodup
  idsBelow : ∀ row ∈ sys.db.tableStats, row.tableId < latest.nextCatalogId
  fileIds : ∀ info ∈ sys.known, info.nextFileId ≤ latest.nextFileId
  seen : ∀ info ∈ sys.known, info.schemaVersion = latest.schemaVersion →
    SeesAlike sys.db info.id latest.id
  keys : ∀ entry ∈ sys.statistics, ∃ info ∈ sys.known, info.statsKey = entry.1
  entries : ∀ entry ∈ sys.statistics, entry.1 = latest.statsKey →
    FreshStats env sys.db latest.id entry.2
  attempts : ∀ party ∈ sys.parties, PreparedFrom env sys.db latest party
  initial : latest.statsKey = (0, 0) → WithoutStats sys.db
  fromInitial : ∀ commit ∈ sys.history, commit.statsKey = (0, 0) → WithoutStats commit.after
  committed : ∀ commit ∈ sys.history, (∃ info ∈ sys.known, info.statsKey = commit.statsKey) ∧
    (commit.statsKey = latest.statsKey → SameStats commit sys.db)
  pairs : ∀ first ∈ sys.history, ∀ second ∈ sys.history, first.statsKey = second.statsKey →
    SameStats first second.after
  allocated : ∀ commit ∈ sys.history, commit.AllocatesRowIds
  grows : ∀ commit ∈ sys.history, ∀ tableId,
    commit.after.nextRowId tableId ≤ sys.db.nextRowId tableId
  ordered : sys.history.Pairwise fun earlier later =>
    ∀ tableId, earlier.after.nextRowId tableId ≤ later.before.nextRowId tableId

theorem StatsCoherent.setParty
    (coherent : sys.StatsCoherent env latest)
    (index : Nat)
    (party : Party)
    (prepared : PreparedFrom env sys.db latest party) :
    (sys.setParty index party).StatsCoherent env latest := by
  refine { coherent with attempts := fun other member => ?_ }
  rcases List.mem_or_eq_of_mem_set member with inside | rfl
  · exact coherent.attempts other inside
  · exact prepared

theorem StatsCoherent.rememberCatalog
    (coherent : sys.StatsCoherent env latest)
    (info : SnapshotInfo)
    (catalog : Catalog) :
    (sys.rememberCatalog info catalog).StatsCoherent env latest :=
  { coherent with }

theorem StatsCoherent.statsAt
    (coherent : sys.StatsCoherent env latest)
    (info : SnapshotInfo)
    (catalog : Catalog)
    (source : Source)
    (read : sys.statsAt env info catalog source = some (.ok stats))
    (current : info.statsKey = latest.statsKey)
    (loaded : Catalog.load env sys.db latest.id = .ok catalog) :
    FreshStats env sys.db latest.id stats := by
  unfold System.statsAt at read
  split at read
  · split at read
    · rename_i key entry found
      split at read
      · rename_i same
        cases read
        exact coherent.entries _ (List.mem_of_getElem? found) (same.trans current)
      · cases read
    · cases read
  · rename_i snapshot
    split at read
    · rename_i made
      obtain ⟨known, version, _⟩ := made
      have sees := coherent.seen snapshot known (version.trans (congrArg Prod.fst current))
      refine ⟨catalog, loaded, ?_⟩
      rw [← load_congr env catalog rfl rfl sees.1 sees.2]
      exact Option.some.inj read
    · cases read

theorem StatsCoherent.key_of_statsAt
    (coherent : sys.StatsCoherent env latest)
    (info : SnapshotInfo)
    (catalog : Catalog)
    (source : Source)
    (read : sys.statsAt env info catalog source = some (.ok stats)) :
    ∃ other ∈ sys.known, other.statsKey = info.statsKey := by
  unfold System.statsAt at read
  split at read
  · split at read
    · rename_i key entry found
      split at read
      · rename_i same
        obtain ⟨other, known, made⟩ := coherent.keys _ (List.mem_of_getElem? found)
        exact ⟨other, known, made.trans same⟩
      · cases read
    · cases read
  · rename_i snapshot
    split at read
    · rename_i made
      exact ⟨snapshot, made.1, Prod.ext made.2.1 made.2.2⟩
    · cases read

theorem StatsCoherent.rememberStats
    (coherent : sys.StatsCoherent env latest)
    (info : SnapshotInfo)
    (result : DucklakeResult TableStatsMap)
    (known : ∀ stats, result = .ok stats → ∃ other ∈ sys.known, other.statsKey = info.statsKey)
    (fresh : ∀ stats, result = .ok stats → info.statsKey = latest.statsKey →
      FreshStats env sys.db latest.id stats) :
    (sys.rememberStats info result).StatsCoherent env latest := by
  cases result with
  | error => exact coherent
  | ok stats =>
      refine { coherent with keys := ?_, entries := ?_ }
      · intro entry member
        rcases List.mem_append.mp member with old | new
        · exact coherent.keys entry old
        · rw [List.mem_singleton.mp new]
          exact known stats rfl
      · intro entry member current
        rcases List.mem_append.mp member with old | new
        · exact coherent.entries entry old current
        · rw [List.mem_singleton.mp new] at current ⊢
          exact fresh stats rfl current

/-- Whether the statistics that a transaction writes get a cache entry of their own, or there are
none. -/
def CountsWrites (db : Database) (tx : Ducklake.Transaction) : Prop :=
  (ChangeSet.new tx.changes).changesSchema = true ∨
    (ChangeSet.new tx.changes).takesFileId = true ∨ WritesNothing db tx

/-- A commit that does not change the schema sees the tables and columns of the latest snapshot. -/
theorem Committing.seesAlike
    (counted : sys.Counted latest)
    (committing : Committing env sys latest commit time)
    (kept : (ChangeSet.new commit.tx.changes).changesSchema = false) :
    Versioned.entitiesAt commit.prepared.state.snapshotId commit.after.tables =
        Versioned.entitiesAt latest.id sys.db.tables ∧
      Versioned.entitiesAt commit.prepared.state.snapshotId commit.after.columns =
        Versioned.entitiesAt latest.id sys.db.columns := by
  have older := Int.le_of_lt (counted.start_lt committing latest counted.newest)
  have same := committing.sameCatalogRows kept
  unfold SameCatalogRows at same
  rw [same]
  exact ⟨counted.until_.tables.entitiesAt_eq older, counted.until_.columns.entitiesAt_eq older⟩

theorem Committing.keeps_of_sharedVersion
    (counted : sys.Counted latest)
    (committing : Committing env sys latest commit time)
    (info : SnapshotInfo)
    (known : info ∈ sys.known)
    (sharedVersion : info.schemaVersion = commit.prepared.state.schemaVersion) :
    (ChangeSet.new commit.tx.changes).changesSchema = false ∧
      info.schemaVersion = latest.schemaVersion := by
  have version := (committing.rows counted).schemaVersion
  have belowVersion : info.schemaVersion ≤ latest.schemaVersion := by
    rcases counted.older info known with rfl | ⟨_, below, _⟩
    · exact Int.le_refl _
    · exact below
  rw [committing.base] at version
  cases changed : (ChangeSet.new commit.tx.changes).changesSchema with
  | true =>
      rw [changed, if_pos rfl] at version
      omega
  | false =>
      rw [changed, if_neg (by simp)] at version
      exact ⟨rfl, by omega⟩

theorem StatsCoherent.key_of_shared
    (counted : sys.Counted latest)
    (coherent : sys.StatsCoherent env latest)
    (committing : Committing env sys latest commit time)
    (fileId : latest.nextFileId ≤ commit.prepared.state.nextFileId)
    (info : SnapshotInfo)
    (known : info ∈ sys.known)
    (key : info.statsKey = commit.statsKey) :
    commit.statsKey = latest.statsKey := by
  obtain ⟨sameVersion, sameFile⟩ := Prod.mk.inj key
  have belowFile := coherent.fileIds info known
  obtain ⟨_, version⟩ := committing.keeps_of_sharedVersion counted info known sameVersion
  refine Prod.ext (sameVersion.symm.trans version) ?_
  change commit.prepared.state.nextFileId = latest.nextFileId
  omega

theorem StatsCoherent.quiet
    (run : Reachable env WithoutExpiration now sys)
    (counted : sys.Counted latest)
    (coherent : sys.StatsCoherent env latest)
    (committing : Committing env sys latest commit time)
    (inOrder : (sys.recordCommit commit time).SnapshotsInOrder)
    (visible : commit.tx.IdsVisible sys.db)
    (success : prepareCommit env (ChangeSet.new commit.tx.changes)
      (.new commit.base commit.tx.catalog (ChangeSet.new commit.tx.changes).changesSchema stats) =
        .ok commit.prepared)
    (matching : (ChangeSet.new commit.tx.changes).requiresTableStats = true →
      MatchesRows stats sys.db latest.id)
    (counts : CountsWrites sys.db commit.tx)
    (key : commit.statsKey = latest.statsKey) :
    SameStats commit sys.db ∧ ∀ stats, FreshStats env sys.db latest.id stats →
      FreshStats env commit.after commit.prepared.state.snapshotId stats := by
  obtain ⟨sameVersion, sameFile⟩ := Prod.mk.inj key
  obtain ⟨kept, _⟩ :=
    committing.keeps_of_sharedVersion counted latest counted.newest sameVersion.symm
  have nothing : WritesNothing sys.db commit.tx := by
    rcases counts with changed | takes | nothing
    · rw [kept] at changed
      cases changed
    · have taken : commit.base.nextFileId < commit.prepared.state.nextFileId :=
        prepareCommit_nextFileId env _ _ _ takes success
      rw [committing.base] at taken
      omega
    · exact nothing
  have same := committing.sameStats run counted inOrder visible coherent.unique coherent.idsBelow
    success matching nothing
  obtain ⟨tables, columns⟩ := committing.seesAlike counted kept
  refine ⟨same, ?_⟩
  rintro stats ⟨catalog, catalogLoaded, loaded⟩
  refine ⟨catalog, ?_, ?_⟩
  · rw [load_of_sameCatalogRows env sys.db commit.after latest.id _ counted.until_
      (Int.le_of_lt (counted.start_lt committing latest counted.newest))
      (committing.sameCatalogRows kept)]
    exact catalogLoaded
  · rw [load_congr env catalog same.1 same.2 tables columns]
    exact loaded

theorem SameStats.trans
    {earlier later : Commit}
    {db : Database}
    (first : SameStats earlier db)
    (second : SameStats later db) :
    SameStats earlier later.after :=
  ⟨first.1.trans second.1.symm, first.2.trans second.2.symm⟩

theorem StatsCoherent.recordCommit
    (run : Reachable env WithoutExpiration now sys)
    (counted : sys.Counted latest)
    (coherent : sys.StatsCoherent env latest)
    (committing : Committing env sys latest commit time)
    (inOrder : (sys.recordCommit commit time).SnapshotsInOrder)
    (visible : commit.tx.IdsVisible sys.db)
    (success : prepareCommit env (ChangeSet.new commit.tx.changes)
      (.new commit.base commit.tx.catalog (ChangeSet.new commit.tx.changes).changesSchema stats) =
        .ok commit.prepared)
    (fresh : (ChangeSet.new commit.tx.changes).requiresTableStats = true →
      FreshStats env sys.db latest.id stats)
    (counts : CountsWrites sys.db commit.tx) :
    (sys.recordCommit commit time).StatsCoherent env
      (.ofSnapshot (commit.prepared.state.snapshot time)) := by
  have matching : (ChangeSet.new commit.tx.changes).requiresTableStats = true →
      MatchesRows stats sys.db latest.id := by
    intro required
    obtain ⟨catalog, _, loaded⟩ := fresh required
    exact load_matchesRows env catalog sys.db latest.id stats coherent.unique loaded
  obtain ⟨allocated, unique, idsBelow⟩ := committing.allocates run counted inOrder visible
    coherent.unique coherent.idsBelow success matching
  have fileId : latest.nextFileId ≤ commit.prepared.state.nextFileId := by
    rw [← committing.base]
    exact (prepareCommit_extends env _ _ _ success).nextFileId
  have shared := fun info known key =>
    coherent.key_of_shared counted committing fileId info known key
  have quiet := fun key =>
    coherent.quiet run counted committing inOrder visible success matching counts key
  have withNew : ∀ earlier ∈ sys.history, earlier.statsKey = commit.statsKey →
      SameStats earlier commit.after := by
    intro earlier member current
    obtain ⟨⟨info, known, key⟩, unchanged⟩ := coherent.committed earlier member
    have same := shared info known (key.trans current)
    exact (unchanged (current.trans same)).trans (quiet same).1
  have empty : commit.statsKey = (0, 0) → WithoutStats commit.after := by
    intro current
    have same := shared ⟨0, 0, 1, 0⟩ coherent.first current.symm
    obtain ⟨tableStats, columnStats⟩ := coherent.initial (same.symm.trans current)
    exact ⟨(quiet same).1.1.trans tableStats, (quiet same).1.2.trans columnStats⟩
  have last : SnapshotInfo.ofSnapshot (commit.prepared.state.snapshot time) ∈
      (sys.recordCommit commit time).known :=
    List.mem_append_right _ (List.mem_singleton_self _)
  constructor
  case unique => exact unique
  case idsBelow => exact idsBelow
  case fileIds =>
    refine List.forall_mem_append.mpr ⟨fun info known => ?_, fun info new => ?_⟩
    · exact Int.le_trans (coherent.fileIds info known) fileId
    · rw [List.mem_singleton.mp new]
  case seen =>
    refine List.forall_mem_append.mpr ⟨fun info known sameVersion => ?_, fun info new _ => ?_⟩
    · obtain ⟨kept, version⟩ :=
        committing.keeps_of_sharedVersion counted info known sameVersion
      have saw := coherent.seen info known version
      obtain ⟨tables, columns⟩ := committing.seesAlike counted kept
      have updates := persistCommit_catalogUpdates env time _ _ _ (committing.rows counted).fresh
        committing.persisted
      have infoOlder := counted.start_lt committing info known
      refine ⟨?_, ?_⟩
      · exact ((updates.tables.sameAt infoOlder).entitiesAt_eq).trans (saw.1.trans tables.symm)
      · exact ((updates.columns.sameAt infoOlder).entitiesAt_eq).trans (saw.2.trans columns.symm)
    · rw [List.mem_singleton.mp new]
      exact ⟨rfl, rfl⟩
  case keys =>
    intro entry member
    obtain ⟨info, known, key⟩ := coherent.keys entry member
    exact ⟨info, List.mem_append_left _ known, key⟩
  case entries =>
    intro entry member current
    obtain ⟨info, known, key⟩ := coherent.keys entry member
    have same := shared info known (key.trans current)
    exact (quiet same).2 _ (coherent.entries entry member (current.trans same))
  case attempts =>
    intro party member tx attempt base prepared phase
    obtain ⟨stats, success, fresh⟩ := coherent.attempts party member tx attempt base prepared phase
    refine ⟨stats, success, fun required current => ?_⟩
    have same := shared base (counted.bases party member base (by rw [phase]; rfl)) current
    exact (quiet same).2 _ (fresh required (current.trans same))
  case initial => exact empty
  case first => exact List.mem_append_left _ coherent.first
  case fromInitial =>
    refine List.forall_mem_append.mpr ⟨coherent.fromInitial, fun own new current => ?_⟩
    rw [List.mem_singleton.mp new] at current ⊢
    exact empty current
  case committed =>
    refine List.forall_mem_append.mpr ⟨fun earlier member => ?_, fun own new => ?_⟩
    · obtain ⟨⟨info, known, key⟩, _⟩ := coherent.committed earlier member
      exact ⟨⟨info, List.mem_append_left _ known, key⟩, withNew earlier member⟩
    · rw [List.mem_singleton.mp new]
      exact ⟨⟨_, last, rfl⟩, fun _ => ⟨rfl, rfl⟩⟩
  case pairs =>
    intro first firstMember second secondMember key
    rcases List.mem_append.mp firstMember with oldFirst | newFirst <;>
      rcases List.mem_append.mp secondMember with oldSecond | newSecond
    · exact coherent.pairs first oldFirst second oldSecond key
    · rw [List.mem_singleton.mp newSecond] at key ⊢
      exact withNew first oldFirst key
    · rw [List.mem_singleton.mp newFirst] at key ⊢
      obtain ⟨tableStats, columnStats⟩ := withNew second oldSecond key.symm
      exact ⟨tableStats.symm, columnStats.symm⟩
    · rw [List.mem_singleton.mp newFirst, List.mem_singleton.mp newSecond]
      exact ⟨rfl, rfl⟩
  case allocated =>
    refine List.forall_mem_append.mpr ⟨coherent.allocated, fun own new => ?_⟩
    rw [List.mem_singleton.mp new]
    exact allocated
  case grows =>
    refine List.forall_mem_append.mpr ⟨fun earlier member tableId => ?_, fun own new tableId => ?_⟩
    · have raised := allocated.nextRowId tableId
      rw [committing.before] at raised
      have before := coherent.grows earlier member tableId
      change _ ≤ commit.after.nextRowId tableId
      omega
    · rw [List.mem_singleton.mp new]
      exact Int.le_refl _
  case ordered =>
    refine List.pairwise_append.mpr ⟨coherent.ordered, List.pairwise_singleton _ _, ?_⟩
    intro earlier member own new tableId
    rw [List.mem_singleton.mp new, committing.before]
    exact coherent.grows earlier member tableId

/-! ## Steps -/

theorem StatsCoherent.reads
    {base : SnapshotInfo}
    {required : Bool}
    (counted : sys.Counted latest)
    (catalogs : sys.Coherent env)
    (coherent : sys.StatsCoherent env latest)
    (reads : Reads env sys base required stats next) :
    next.StatsCoherent env latest ∧
      (required = true → base.statsKey = latest.statsKey → FreshStats env sys.db latest.id stats) := by
  cases reads with
  | skipped => exact ⟨coherent, fun required => by cases required⟩
  | @read catalog _ _ _ catalogRead statsRead =>
      have remembered := coherent.rememberCatalog base catalog
      have fresh : base.statsKey = latest.statsKey → FreshStats env sys.db latest.id stats :=
        fun current => remembered.statsAt base catalog _ statsRead current
          (catalogs.catalogAt base _ catalog catalogRead latest counted.newest
            (congrArg Prod.fst current))
      refine ⟨remembered.rememberStats base (.ok stats) ?_ ?_, fun _ => fresh⟩
      · exact fun _ _ => remembered.key_of_statsAt base catalog _ statsRead
      · intro read same
        cases same
        exact fresh

theorem StatsCoherent.gathers
    (counted : sys.Counted latest)
    (catalogs : sys.Coherent env)
    (coherent : sys.StatsCoherent env latest)
    (gathers : Gathers env sys next) :
    next.StatsCoherent env latest := by
  cases gathers with
  | nothing => exact coherent
  | catalog read => exact coherent.rememberCatalog _ _
  | stats reads => exact (coherent.reads counted catalogs reads).1

theorem StatsCoherent.advances
    (counted : sys.Counted latest)
    (catalogs : sys.Coherent env)
    (coherent : sys.StatsCoherent env latest)
    (sound : sys.Sound env)
    (index : Nat)
    (party : Party)
    (member : party ∈ sys.parties)
    (move : Move)
    (advances : Advances env sys index party move next)
    (recorded : next.history = sys.history) :
    next.StatsCoherent env latest := by
  have plain : ∀ other : Party, (∀ tx attempt base prepared,
      other.phase ≠ .prepared tx attempt base prepared) → ∀ db, PreparedFrom env db latest other :=
    fun other unprepared db tx attempt base prepared phase =>
      absurd phase (unprepared tx attempt base prepared)
  cases advances with
  | loaded phase read =>
      exact (coherent.rememberCatalog _ _).setParty index _
        (plain _ (fun _ _ _ _ phase => by cases phase) _)
  | @operated tx result operation source stats phase read executed =>
      refine StatsCoherent.setParty ?_ index _ (plain _ (fun _ _ _ _ phase => by cases phase) _)
      have starts : (party.start.schemaVersion, tx.startCatalog) ∈ sys.catalogs := by
        have working : party.phase.transaction = some tx := by rw [phase]; rfl
        rw [← ((sound.parties party member).transaction tx working).2]
        exact counted.transactions.parties party member tx working
      refine coherent.rememberStats party.start stats ?_ ?_
      · intro stats same
        exact coherent.key_of_statsAt _ _ source (same ▸ read)
      · intro stats same current
        refine coherent.statsAt party.start tx.startCatalog source (same ▸ read) current ?_
        exact catalogs.entries _ starts latest counted.newest (congrArg Prod.fst current)
  | submitted | refused | refreshed | checked =>
      exact coherent.setParty index _ (plain _ (fun _ _ _ _ phase => by cases phase) _)
  | prepared phase reads success =>
      obtain ⟨remembered, fresh⟩ := coherent.reads counted catalogs reads
      refine remembered.setParty index _ ?_
      intro tx attempt base prepared phase
      cases phase
      rw [reads.same]
      exact ⟨_, success, fresh⟩
  | committed =>
      have longer := congrArg List.length recorded
      simp [System.recordCommit, System.setPhase, System.setParty] at longer
  | ended unfinished gathers =>
      exact (coherent.gathers counted catalogs gathers).setParty index _
        (plain _ (fun _ _ _ _ phase => by cases phase) _)

end

/-! ## Runs -/

/-- Transactions only, and each commit gives its statistics a cache entry of their own. -/
def CountsEveryWrite (sys : System) (label : Label) : Prop :=
  label.isExpiration = false ∧ ∀ index time, label = .move index (.persist time) →
    ∀ party ∈ sys.parties[index]?, ∀ tx attempt base prepared,
      party.phase = .prepared tx attempt base prepared → CountsWrites sys.db tx

theorem reachable_statsCoherent
    (env : Environment)
    (now : Int)
    (sys : System)
    (run : Reachable env CountsEveryWrite now sys) :
    ∃ latest, sys.Counted latest ∧ sys.StatsCoherent env latest := by
  refine run.invariant_of_reached (fun sys => ∃ latest, sys.Counted latest ∧
    sys.StatsCoherent env latest) ⟨_, init_counted now, ?_⟩ ?_
  · constructor <;> simp [init, initCatalog, SeesAlike, WithoutStats]
  · rintro sys label next run ⟨latest, counted, coherent⟩ permitted stepped
    have plain : Reachable env WithoutExpiration now sys := run.mono fun _ _ allowed => allowed.1
    have catalogs := reachable_coherent env now sys plain
    obtain ⟨newest, countedNext⟩ := reachable_counted env now next (plain.tail permitted.1 stepped)
    -- Without a commit the latest snapshot is still the same.
    have same : next.known = sys.known → next.history = sys.history → newest = latest := by
      intro known history
      refine counted.latest_of_id newest (known ▸ countedNext.newest) ?_
      rw [countedNext.id, history]
    cases step_outcome env sys next label stepped with
    | began read =>
        refine ⟨latest, same rfl rfl ▸ countedNext, { coherent with attempts := ?_ }⟩
        refine List.forall_mem_append.mpr ⟨coherent.attempts, fun party new => ?_⟩
        rw [List.mem_singleton.mp new]
        intro tx attempt base prepared phase
        cases phase
    | unchanged => exact ⟨latest, counted, coherent⟩
    | expired | kept => cases permitted.1
    | @moved index party move next found advances =>
        have member := List.mem_of_getElem? found
        have sound := reachable_sound env _ now sys run
        rcases advances.outcome with ⟨_, known, history⟩ |
          ⟨tx, attempt, base, prepared, time, after, rfl, phase, success, rfl⟩
        · exact ⟨latest, same known history ▸ countedNext, StatsCoherent.advances counted catalogs
            coherent sound index party member move advances history⟩
        · have committing := committing_of_success counted (numbered_of_withoutExpiration plain) sound
            (reachable_partitionsPending env _ now sys run) index party member tx attempt base prepared
              time after phase success
          have working : party.phase.transaction = some tx := by rw [phase]; rfl
          obtain ⟨stats, prepares, fresh⟩ :=
            coherent.attempts party member tx attempt base prepared phase
          have current : base.statsKey = latest.statsKey :=
            congrArg SnapshotInfo.statsKey committing.base
          have recorded := coherent.recordCommit plain counted committing
            (numbered_of_withoutExpiration (plain.tail permitted.1 stepped)).inOrder
            ((reachable_idsVisible env now sys plain).parties party member tx working).holds prepares
            (fun required => fresh required current)
            (permitted.2 index time rfl party found tx attempt base prepared phase)
          have newestIs := (counted.recordCommit _ time committing).latest_of_id newest
            countedNext.newest countedNext.id
          exact ⟨_, newestIs ▸ countedNext, recorded.setParty index _ fun _ _ _ _ phase => by
            cases phase⟩

end System

end Ducklake
