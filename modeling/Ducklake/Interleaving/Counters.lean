import Ducklake.Interleaving.TimeTravel
import Ducklake.Transaction.Bounds

/-!
# The counters of a run

Without expiration the latest snapshot has counted every id, every version and every row that the
run has stored, and each transaction works on a catalog that was read at a committed snapshot.
-/

set_option autoImplicit false

namespace Ducklake

open Lib Caches Spec Maintenance Transaction

theorem Spec.Database.IdsBelow.visible
    {db : Database}
    {limit : Int}
    (ids : db.IdsBelow limit)
    (snapshot : Int)
    (key : ObjectRef)
    (id : Int)
    (visible : id ∈ Catalog.visibleIds db snapshot key) :
    id < limit := by
  cases key with
  | schema ref =>
      obtain ⟨row, member, rfl⟩ := List.mem_map.mp visible
      exact ids.schemas.entitiesAt snapshot row member
  | table ref =>
      obtain ⟨row, member, rfl⟩ := List.mem_map.mp visible
      exact ids.tables.entitiesAt snapshot row member
  | view ref =>
      obtain ⟨row, member, rfl⟩ := List.mem_map.mp visible
      exact ids.views.entitiesAt snapshot row member
  | macro_ ref =>
      obtain ⟨row, member, rfl⟩ := List.mem_map.mp visible
      exact ids.macros.entitiesAt snapshot row member
  | partition ref =>
      obtain ⟨row, member, rfl⟩ := List.mem_map.mp visible
      exact (ids.partitionInfo.entitiesAt snapshot row member).1

/-- The snapshot that an attempt builds on, or is going to. -/
def Phase.base : Phase → Option SnapshotInfo
  | .attempting _ _ base | .prepared _ _ base _ | .checking _ _ _ base => some base
  | .starting | .active _ | .failed .. | .finished _ => none

namespace System

/-- A cache entry was made for a committed snapshot and has ids that are counted. -/
structure Knows (sys : System) (latest : SnapshotInfo) (entry : Int × Catalog) : Prop where
  version : ∃ info ∈ sys.known, info.schemaVersion = entry.1
  ids : ∀ key id, entry.2.idOf key = some id → id < latest.nextCatalogId

/-- The transaction works on a catalog that was read for the version it started at. -/
def StartsFrom (sys : System) (tx : Ducklake.Transaction) : Prop :=
  (tx.snapshot.schemaVersion, tx.startCatalog) ∈ sys.catalogs

structure Counted (sys : System) (latest : SnapshotInfo) : Prop where
  snapshots : sys.db.snapshots.map SnapshotInfo.ofSnapshot = sys.known
  newest : latest ∈ sys.known
  id : latest.id = sys.history.length
  older : ∀ info ∈ sys.known, info = latest ∨ info.id < latest.id ∧
    info.schemaVersion ≤ latest.schemaVersion ∧ info.nextCatalogId ≤ latest.nextCatalogId
  idsBelow : sys.db.IdsBelow latest.nextCatalogId
  until_ : sys.db.Until latest.id
  catalogs : ∀ entry ∈ sys.catalogs, sys.Knows latest entry
  starts : ∀ party ∈ sys.parties, party.start ∈ sys.known
  bases : ∀ party ∈ sys.parties, ∀ base, party.phase.base = some base → base ∈ sys.known
  transactions : sys.Transactions sys.StartsFrom
  recorded : ∀ commit ∈ sys.history, commit.start ∈ sys.known ∧ ∃ info ∈ sys.known,
    info.id = commit.snapshotId ∧ info.schemaVersion = commit.prepared.state.schemaVersion

section

variable {env : Environment} {sys next : System} {latest : SnapshotInfo}

/-! ## Reads -/

theorem Counted.latest_of_id
    (counted : sys.Counted latest)
    (info : SnapshotInfo)
    (known : info ∈ sys.known)
    (id : info.id = sys.history.length) :
    info = latest := by
  have latestId := counted.id
  rcases counted.older info known with same | ⟨below, _⟩
  · exact same
  · omega

theorem Counted.catalogAt
    (counted : sys.Counted latest)
    (info : SnapshotInfo)
    (source : Source)
    (catalog : Catalog)
    (read : sys.catalogAt env info source = some (.ok catalog)) :
    sys.Knows latest (info.schemaVersion, catalog) := by
  unfold System.catalogAt at read
  split at read
  · split at read
    · rename_i version entry found
      split at read
      · rename_i same
        cases read
        exact same ▸ counted.catalogs _ (List.mem_of_getElem? found)
      · cases read
    · cases read
  · rename_i snapshot
    split at read
    · rename_i made
      have loaded := Catalog.load_loaded env sys.db _ catalog (Option.some.inj read)
      exact ⟨⟨snapshot, made.1, made.2⟩, fun key id found =>
        counted.idsBelow.visible _ key id (loaded.ids key id found)⟩
    · cases read

theorem Counted.of_same
    (counted : sys.Counted latest)
    (statistics : List ((Int × Int) × TableStatsMap)) :
    { sys with statistics := statistics }.Counted latest := by
  have transactions := counted.transactions
  exact { counted with
    catalogs := fun entry member => { counted.catalogs entry member with }
    transactions := { transactions with } }

theorem Counted.rememberStats
    (counted : sys.Counted latest)
    (info : SnapshotInfo)
    (stats : DucklakeResult TableStatsMap) :
    (sys.rememberStats info stats).Counted latest := by
  rw [rememberStats_same]
  exact counted.of_same _

theorem Counted.rememberCatalog
    (counted : sys.Counted latest)
    (info : SnapshotInfo)
    (source : Source)
    (catalog : Catalog)
    (read : sys.catalogAt env info source = some (.ok catalog)) :
    (sys.rememberCatalog info catalog).Counted latest := by
  refine { counted with catalogs := ?_, transactions := ?_ }
  · intro entry member
    rcases List.mem_append.mp member with old | new
    · exact { counted.catalogs entry old with }
    · rw [List.mem_singleton.mp new]
      exact { counted.catalogAt info source catalog read with }
  · exact {
      parties := fun party member tx working =>
        List.mem_append_left _ (counted.transactions.parties party member tx working)
      commits := fun commit member =>
        List.mem_append_left _ (counted.transactions.commits commit member) }

theorem Reads.catalogs
    {base : SnapshotInfo}
    {required : Bool}
    {stats : TableStatsMap}
    (reads : Reads env sys base required stats next) :
    ∀ entry ∈ sys.catalogs, entry ∈ next.catalogs := by
  cases reads with
  | skipped => exact fun entry inside => inside
  | read catalogRead statsRead => exact fun entry inside => List.mem_append_left _ inside

theorem Counted.reads
    (counted : sys.Counted latest)
    (base : SnapshotInfo)
    (required : Bool)
    (stats : TableStatsMap)
    (reads : Reads env sys base required stats next) :
    next.Counted latest := by
  cases reads with
  | skipped => exact counted
  | read catalogRead statsRead =>
      exact (counted.rememberCatalog _ _ _ catalogRead).rememberStats base _

theorem Counted.gathers
    (counted : sys.Counted latest)
    (gathers : Gathers env sys next) :
    next.Counted latest := by
  cases gathers with
  | nothing => exact counted
  | catalog read => exact counted.rememberCatalog _ _ _ read
  | stats reads => exact counted.reads _ _ _ reads

theorem Counted.setParty
    (counted : sys.Counted latest)
    (index : Nat)
    (party : Party)
    (start : party.start ∈ sys.known)
    (base : ∀ base, party.phase.base = some base → base ∈ sys.known)
    (working : ∀ tx, party.phase.transaction = some tx → sys.StartsFrom tx) :
    (sys.setParty index party).Counted latest := by
  refine { counted with
    catalogs := fun entry member => { counted.catalogs entry member with }
    starts := ?_, bases := ?_, transactions := ?_ }
  · intro other member
    rcases List.mem_or_eq_of_mem_set member with inside | rfl
    · exact counted.starts other inside
    · exact start
  · intro other member
    rcases List.mem_or_eq_of_mem_set member with inside | rfl
    · exact counted.bases other inside
    · exact base
  · refine { counted.transactions with parties := ?_ }
    intro other member
    rcases List.mem_or_eq_of_mem_set member with inside | rfl
    · exact counted.transactions.parties other inside
    · exact working

/-! ## Commits -/

/-- What a commit that succeeded knows about the system before it. -/
structure Committing (env : Environment) (sys : System) (latest : SnapshotInfo)
    (commit : Commit) (now : Int) : Prop where
  sound : commit.Sound env
  before : commit.before = sys.db
  persisted : persistCommit env now commit.prepared sys.db = .ok commit.after
  base : commit.base = latest
  starts : sys.StartsFrom commit.tx
  start : commit.start ∈ sys.known
  pending : commit.tx.PartitionsPending

/-- The catalog of a transaction has no more ids than the one it started with. -/
theorem idOf_of_sound
    (tx : Ducklake.Transaction)
    (sound : tx.Sound)
    (key : ObjectRef)
    (id : Int)
    (found : tx.catalog.idOf key = some id) :
    tx.startCatalog.idOf key = some id := by
  cases key with
  | partition ref => exact sound.work.catalog.partitionId ref id found
  | schema ref | table ref | view ref | macro_ ref =>
      exact (sound.work.catalog.idOf _ rfl).symm.trans found

theorem Counted.idOf_lt
    (counted : sys.Counted latest)
    (tx : Ducklake.Transaction)
    (sound : tx.Sound)
    (starts : sys.StartsFrom tx)
    (key : ObjectRef)
    (id : Int)
    (found : tx.catalog.idOf key = some id) :
    id < latest.nextCatalogId :=
  (counted.catalogs _ starts).ids key id (idOf_of_sound tx sound key id found)

/-- The rows that a commit collected, with the ids that its attempt gave out. -/
structure CollectedRows (commit : Commit) : Prop where
  newIds : commit.prepared.changes.NewIds commit.base.nextCatalogId
    commit.prepared.state.nextCatalogId
  owners : commit.prepared.changes.OwnersBelow commit.prepared.state.nextCatalogId
  fresh : commit.prepared.changes.FreshAt commit.prepared.state.snapshotId
  grows : commit.base.nextCatalogId ≤ commit.prepared.state.nextCatalogId
  snapshotId : commit.prepared.state.snapshotId = commit.base.id + 1
  schemaVersion : commit.prepared.state.schemaVersion = commit.base.schemaVersion +
    if (ChangeSet.new commit.tx.changes).changesSchema then 1 else 0

theorem Committing.rows
    {commit : Commit}
    {now : Int}
    (counted : sys.Counted latest)
    (committing : Committing env sys latest commit now) :
    CollectedRows commit := by
  obtain ⟨stats, success⟩ := committing.sound.prepared
  have extends_ := prepareCommit_extends env _ _ _ success
  have present := committing.sound.tx.present
  have bounded := counted.idOf_lt commit.tx committing.sound.tx committing.starts
  rw [← committing.base] at bounded
  exact {
    newIds := prepareCommit_newIds env _ _ _ present
      (unresolved_new commit.tx _ stats committing.sound.tx committing.pending) success
    owners := prepareCommit_ownersBelow env _ _ _ present bounded success
    fresh := prepareCommit_freshAt env _ _ _ present success
    grows := extends_.nextCatalogId
    snapshotId := extends_.snapshotId
    schemaVersion := extends_.schemaVersion }

theorem Counted.recordCommit
    (counted : sys.Counted latest)
    (commit : Commit)
    (now : Int)
    (committing : Committing env sys latest commit now) :
    (sys.recordCommit commit now).Counted
      (.ofSnapshot (commit.prepared.state.snapshot now)) := by
  have rows := committing.rows counted
  have base := committing.base
  obtain ⟨snapshots, _, _⟩ := persistCommit_snapshots env now _ _ _ committing.persisted
  have grows : latest.nextCatalogId ≤ commit.prepared.state.nextCatalogId := base ▸ rows.grows
  have id : commit.prepared.state.snapshotId = latest.id + 1 := base ▸ rows.snapshotId
  have version : latest.schemaVersion ≤ commit.prepared.state.schemaVersion := by
    rw [rows.schemaVersion, base]
    split <;> omega
  obtain ⟨idsBelow, until_⟩ := persistCommit_bounds env now commit.prepared latest.nextCatalogId
    latest.id counted.idsBelow counted.until_ (base ▸ rows.newIds) rows.owners rows.fresh grows
    (by omega) committing.persisted
  have keeps : ∀ info ∈ sys.known, info ∈ (sys.recordCommit commit now).known :=
    fun info member => List.mem_append_left _ member
  have last : SnapshotInfo.ofSnapshot (commit.prepared.state.snapshot now) ∈
      (sys.recordCommit commit now).known := List.mem_append_right _ (by simp)
  constructor
  case snapshots =>
    change commit.after.snapshots.map SnapshotInfo.ofSnapshot = _
    rw [snapshots, List.map_append, counted.snapshots]
    rfl
  case newest => exact last
  case id =>
    have before := counted.id
    change commit.prepared.state.snapshotId = ((sys.history ++ [commit]).length : Int)
    rw [List.length_append, List.length_singleton]
    omega
  case older =>
    intro info member
    rcases List.mem_append.mp member with old | new
    · right
      change info.id < commit.prepared.state.snapshotId ∧
        info.schemaVersion ≤ commit.prepared.state.schemaVersion ∧
          info.nextCatalogId ≤ commit.prepared.state.nextCatalogId
      rcases counted.older info old with rfl | ⟨_, _, _⟩ <;> omega
    · exact Or.inl (List.mem_singleton.mp new)
  case idsBelow => exact idsBelow
  case until_ => exact until_
  case catalogs =>
    intro entry member
    obtain ⟨⟨info, known, made⟩, ids⟩ := counted.catalogs entry member
    exact ⟨⟨info, keeps info known, made⟩, fun key id found =>
      Int.lt_of_lt_of_le (ids key id found) grows⟩
  case starts => exact fun party member => keeps _ (counted.starts party member)
  case bases => exact fun party member base found => keeps _ (counted.bases party member base found)
  case transactions =>
    refine ⟨counted.transactions.parties, fun other member => ?_⟩
    rcases List.mem_append.mp member with old | new
    · exact counted.transactions.commits other old
    · rw [List.mem_singleton.mp new]
      exact committing.starts
  case recorded =>
    intro other member
    rcases List.mem_append.mp member with old | new
    · obtain ⟨start, info, known, facts⟩ := counted.recorded other old
      exact ⟨keeps _ start, info, keeps info known, facts⟩
    · rw [List.mem_singleton.mp new]
      exact ⟨keeps _ committing.start, _, last, rfl, rfl⟩

/-! ## Steps -/

/-- A party that comes to its database transaction without an error commits on the latest
snapshot. -/
theorem committing_of_success
    (counted : sys.Counted latest)
    (numbered : sys.Numbered)
    (sound : sys.Sound env)
    (pending : sys.Transactions Ducklake.Transaction.PartitionsPending)
    (index : Nat)
    (party : Party)
    (member : party ∈ sys.parties)
    (tx : Ducklake.Transaction)
    (attempt : Nat)
    (base : SnapshotInfo)
    (prepared : PreparedCommit)
    (now : Int)
    (after : Database)
    (phase : party.phase = .prepared tx attempt base prepared)
    (success : persistCommit env now prepared sys.db = .ok after) :
    Committing env sys latest {
      party := index
      start := party.start
      tx := tx
      base := base
      prepared := prepared
      checked := party.checked
      before := sys.db
      after := after } now := by
  have working : party.phase.transaction = some tx := by rw [phase]; rfl
  have partySound := sound.parties party member
  unfold Party.Sound at partySound
  rw [phase] at partySound
  obtain ⟨submitted, prepares⟩ := partySound
  have tracked := numbered.tracks party member (by rw [phase]; rfl)
  have progress := tracked.progress
  rw [phase] at progress
  obtain ⟨checked, stateId⟩ := progress
  obtain ⟨_, _, untaken⟩ := persistCommit_snapshots env now prepared sys.db after success
  rw [stateId] at untaken
  exact {
    sound := ⟨submitted.sound, submitted.snapshot, submitted.checked, prepares, now, success⟩
    before := rfl
    persisted := success
    base := counted.latest_of_id base (counted.bases party member base (by rw [phase]; rfl))
      (numbered.base_latest party base tracked checked untaken)
    starts := counted.transactions.parties party member tx working
    start := counted.starts party member
    pending := pending.parties party member tx working }

theorem Counted.advances
    (counted : sys.Counted latest)
    (numbered : sys.Numbered)
    (sound : sys.Sound env)
    (pending : sys.Transactions Ducklake.Transaction.PartitionsPending)
    (index : Nat)
    (party : Party)
    (member : party ∈ sys.parties)
    (move : Move)
    (advances : Advances env sys index party move next) :
    ∃ latest, next.Counted latest := by
  have start := counted.starts party member
  have base := counted.bases party member
  have own := counted.transactions.parties party member
  cases advances with
  | @loaded source catalog phase read =>
      refine ⟨latest, (counted.rememberCatalog _ _ _ read).setParty index _ start
        (fun _ found => by cases found) fun tx working => ?_⟩
      cases working
      exact List.mem_append_right _ (by simp [Ducklake.Transaction.new])
  | @operated tx result operation source stats phase read executed =>
      rw [rememberStats_same]
      refine ⟨latest, (counted.of_same _).setParty index _ start
        (fun _ found => by cases found) fun other working => ?_⟩
      cases working
      rw [phase] at own
      have partySound := ((sound.parties party member).transaction tx (by rw [phase]; rfl)).1
      have extension := (operated_edited _ _ executed).extends partySound.catalog
      unfold StartsFrom
      rw [extension.snapshot, extension.startCatalog]
      exact own tx rfl
  | submitted phase filled =>
      rw [phase] at own
      refine ⟨latest, counted.setParty index _ start (fun base found => ?_) own⟩
      cases found
      exact start
  | prepared phase reads success =>
      rw [phase] at base own
      have middle := counted.reads _ _ _ reads
      have same := reads.same
      refine ⟨latest, middle.setParty index _ ?_ (fun other found => ?_) fun tx working => ?_⟩
      · rw [same]
        exact start
      · rw [same]
        exact base other found
      · exact reads.catalogs _ (own tx working)
  | @committed tx attempt base prepared now after phase success =>
      have committing := committing_of_success counted numbered sound pending index party member tx
        attempt base prepared now after phase success
      exact ⟨_, (counted.recordCommit _ now committing).setParty index _
        (List.mem_append_left _ start) (fun _ found => by cases found) fun _ working => by
          cases working⟩
  | refused phase failure retryable =>
      rw [phase] at own
      exact ⟨latest, counted.setParty index _ start (fun _ found => by cases found) own⟩
  | refreshed phase read =>
      rw [phase] at own
      refine ⟨latest, counted.setParty index _ start (fun base found => ?_) own⟩
      cases found
      obtain ⟨⟨row, inside, rfl⟩, _⟩ := latestSnapshot_eq_ok sys.db _ read
      rw [← counted.snapshots]
      exact List.mem_map_of_mem inside
  | checked phase read compatible below =>
      rw [phase] at base own
      exact ⟨latest, counted.setParty index _ start base own⟩
  | ended unfinished gathers =>
      have middle := counted.gathers gathers
      have same := gathers.same
      refine ⟨latest, middle.setParty index _ ?_ (fun _ found => by cases found) fun _ working => by
        cases working⟩
      rw [same]
      exact start

end

/-! ## Runs -/

theorem init_counted (now : Int) :
    (init now).Counted { id := 0, schemaVersion := 0, nextCatalogId := 1, nextFileId := 0 } where
  snapshots := rfl
  newest := by simp [init]
  id := rfl
  older info member := Or.inl (List.mem_singleton.mp member)
  idsBelow := by
    constructor <;> simp [init, initCatalog, Versioned.Entities, Versioned.new]
  until_ := by
    constructor <;> simp [init, initCatalog, Versioned.Until, Versioned.new]
  catalogs := by simp [init]
  starts := by simp [init]
  bases := by simp [init]
  transactions := ⟨by simp [init], by simp [init]⟩
  recorded := by simp [init]

theorem reachable_partitionsPending
    (env : Environment)
    (allowed : System → Label → Prop)
    (now : Int)
    (sys : System)
    (run : Reachable env allowed now sys) :
    sys.Transactions Ducklake.Transaction.PartitionsPending :=
  reachable_edited env allowed now sys
    (fun _ _ _ => by simp [Ducklake.Transaction.PartitionsPending, Ducklake.Transaction.new])
    (fun _ _ _ tx changes catalog sound pending edit => pending.edit tx changes catalog sound edit)
    run

theorem reachable_counted
    (env : Environment)
    (now : Int)
    (sys : System)
    (run : Reachable env WithoutExpiration now sys) :
    ∃ latest, sys.Counted latest := by
  refine run.invariant_of_reached (fun sys => ∃ latest, sys.Counted latest)
    ⟨_, init_counted now⟩ ?_
  rintro sys label next run ⟨latest, counted⟩ transactional stepped
  cases step_outcome env sys next label stepped with
  | began read =>
      obtain ⟨⟨row, inside, rfl⟩, _⟩ := latestSnapshot_eq_ok sys.db _ read
      have known : SnapshotInfo.ofSnapshot row ∈ sys.known := by
        rw [← counted.snapshots]
        exact List.mem_map_of_mem inside
      refine ⟨latest, { counted with
        catalogs := fun entry member => { counted.catalogs entry member with }
        starts := ?_, bases := ?_, transactions := ?_ }⟩
      · intro party member
        rcases List.mem_append.mp member with old | new
        · exact counted.starts party old
        · rw [List.mem_singleton.mp new]
          exact known
      · intro party member base found
        rcases List.mem_append.mp member with old | new
        · exact counted.bases party old base found
        · rw [List.mem_singleton.mp new] at found
          cases found
      · refine { counted.transactions with parties := ?_ }
        intro party member tx working
        rcases List.mem_append.mp member with old | new
        · exact counted.transactions.parties party old tx working
        · rw [List.mem_singleton.mp new] at working
          cases working
  | unchanged => exact ⟨latest, counted⟩
  | moved found advances =>
      exact counted.advances (numbered_of_withoutExpiration run)
        (reachable_sound env _ now sys run) (reachable_partitionsPending env _ now sys run) _ _
        (List.mem_of_getElem? found) _ advances
  | expired | kept => cases transactional

end System

end Ducklake
