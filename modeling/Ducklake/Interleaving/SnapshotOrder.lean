import Ducklake.Interleaving.Steps
import Ducklake.Transaction.Attempt
import Ducklake.Transaction.Persistence

/-!
# The order of snapshots

Conflicts are looked for only after the database refused a snapshot id that was taken.  As long
as the snapshots since the start of every open transaction stay in the database, an attempt that
builds on an old snapshot meets a taken id, so that ids increase and every change is checked.
-/

set_option autoImplicit false

namespace Ducklake

open Lib Caches Spec Maintenance Transaction

/-! ## The latest snapshot -/

namespace Transaction

def newer (newest : Option DucklakeSnapshot) (row : DucklakeSnapshot) : Option DucklakeSnapshot :=
  if newest.all fun previous => previous.snapshotId < row.snapshotId then some row else newest

theorem foldl_newer
    (rows : List DucklakeSnapshot)
    (start : Option DucklakeSnapshot)
    (result : DucklakeSnapshot)
    (found : rows.foldl newer start = some result) :
    (result ∈ rows ∨ start = some result) ∧
      (∀ row ∈ rows, row.snapshotId ≤ result.snapshotId) ∧
      ∀ row, start = some row → row.snapshotId ≤ result.snapshotId := by
  induction rows generalizing start with
  | nil =>
      refine ⟨Or.inr found, by simp, ?_⟩
      rintro row rfl
      cases found
      exact Int.le_refl _
  | cons head tail ih =>
      obtain ⟨member, bounded, startBounded⟩ := ih (newer start head) found
      unfold newer at member startBounded
      split at member
      · rename_i replaced
        simp only [replaced, if_true] at startBounded
        have headBounded := startBounded head rfl
        refine ⟨?_, by simpa using ⟨headBounded, bounded⟩, ?_⟩
        · rcases member with later | same
          · exact Or.inl (List.mem_cons_of_mem _ later)
          · cases same
            exact Or.inl (by simp)
        · rintro row rfl
          have below : row.snapshotId < head.snapshotId := by simpa using replaced
          omega
      · rename_i stays
        simp only [stays] at startBounded
        obtain ⟨previous, rfl⟩ : ∃ previous, start = some previous := by
          cases start with
          | none => simp at stays
          | some previous => exact ⟨previous, rfl⟩
        have above : head.snapshotId ≤ previous.snapshotId := by simpa using stays
        have previousBounded := startBounded previous rfl
        refine ⟨?_, ?_, startBounded⟩
        · rcases member with later | same
          · exact Or.inl (List.mem_cons_of_mem _ later)
          · exact Or.inr same
        · simp only [List.forall_mem_cons]
          exact ⟨by omega, bounded⟩

theorem latestSnapshot_eq_ok
    (db : Database)
    (info : SnapshotInfo)
    (success : latestSnapshot db = .ok info) :
    (∃ row ∈ db.snapshots, info = .ofSnapshot row) ∧
      ∀ row ∈ db.snapshots, row.snapshotId ≤ info.id := by
  unfold latestSnapshot at success
  dsimp only at success
  split at success
  · rename_i row found
    cases success
    obtain ⟨member, bounded, _⟩ := foldl_newer db.snapshots none row found
    rcases member with inside | impossible
    · exact ⟨⟨row, inside, rfl⟩, bounded⟩
    · cases impossible
  · cases success

end Transaction

/-! ## The invariant -/

def snapshotIds (db : Database) : List Int :=
  db.snapshots.map DucklakeSnapshot.snapshotId

/-- The changes of every commit behind the start and up to the base were checked. -/
def CheckedUpTo (history : List Commit) (party : Party) (base : SnapshotInfo) : Prop :=
  party.start.id ≤ base.id ∧ base.id ≤ history.length ∧
    ∀ commit ∈ history, party.start.id < commit.snapshotId → commit.snapshotId ≤ base.id →
      commit.changesRow ∈ party.checked

def Progress (history : List Commit) (party : Party) : Phase → Prop
  | .attempting _ _ base => CheckedUpTo history party base
  | .prepared _ _ base prepared =>
      CheckedUpTo history party base ∧ prepared.state.snapshotId = base.id + 1
  | .checking _ _ _ latest => party.start.id ≤ latest.id ∧ latest.id ≤ history.length
  | _ => True

/-- What the database still has for an open transaction. -/
structure Tracks (db : Database) (history : List Commit) (party : Party) : Prop where
  start : 0 ≤ party.start.id ∧ party.start.id ≤ history.length
  retained : ∀ commit ∈ history, party.start.id < commit.snapshotId →
    commit.snapshotId ∈ snapshotIds db ∧ commit.changesRow ∈ db.snapshotChanges
  progress : Progress history party party.phase

/-- A later commit has a larger id, and was checked against the earlier one if that was
committed after its start. -/
def Follows (earlier later : Commit) : Prop :=
  earlier.snapshotId < later.snapshotId ∧
    (later.start.id < earlier.snapshotId → earlier.changesRow ∈ later.checked)

/-- Every commit gets an id above all earlier ones and is checked against all changes since its
start. -/
def System.SnapshotsInOrder (sys : System) : Prop :=
  sys.history.Pairwise Follows ∧ ∀ commit ∈ sys.history, 0 < commit.snapshotId

structure System.Numbered (sys : System) : Prop where
  ids : sys.history.map Commit.snapshotId =
    (List.range sys.history.length).map fun (index : Nat) => (index : Int) + 1
  newest : (sys.history.length : Int) ∈ snapshotIds sys.db
  bounded : ∀ id ∈ snapshotIds sys.db, id ≤ sys.history.length
  tracks : ∀ party ∈ sys.parties, party.phase.isFinished = false →
    Tracks sys.db sys.history party
  inOrder : sys.SnapshotsInOrder

theorem CheckedUpTo.append
    {history : List Commit}
    {party : Party}
    {base : SnapshotInfo}
    (checked : CheckedUpTo history party base)
    (commit : Commit)
    (next : commit.snapshotId = (history.length : Int) + 1) :
    CheckedUpTo (history ++ [commit]) party base := by
  obtain ⟨above, below, rows⟩ := checked
  refine ⟨above, by rw [List.length_append]; omega, ?_⟩
  intro earlier earlierMember later bounded
  rcases List.mem_append.mp earlierMember with old | new
  · exact rows earlier old later bounded
  · rw [List.mem_singleton.mp new, next] at bounded
    omega

theorem Progress.append
    {history : List Commit}
    {party : Party}
    (phase : Phase)
    (progress : Progress history party phase)
    (commit : Commit)
    (next : commit.snapshotId = (history.length : Int) + 1) :
    Progress (history ++ [commit]) party phase := by
  cases phase with
  | starting | active | failed | finished => trivial
  | attempting => exact CheckedUpTo.append progress commit next
  | prepared => exact ⟨progress.1.append commit next, progress.2⟩
  | checking =>
      have bound := progress.2
      exact ⟨progress.1, by rw [List.length_append]; omega⟩

/-- A commit leaves what the other open transactions rely on. -/
theorem Tracks.append
    {before after : Database}
    {history : List Commit}
    {party : Party}
    (tracked : Tracks before history party)
    (commit : Commit)
    (next : commit.snapshotId = (history.length : Int) + 1)
    (ids : snapshotIds after = snapshotIds before ++ [commit.snapshotId])
    (changes : after.snapshotChanges = before.snapshotChanges ++ [commit.changesRow]) :
    Tracks after (history ++ [commit]) party where
  start := ⟨tracked.start.1, by rw [List.length_append]; have bound := tracked.start.2; omega⟩
  retained := by
    intro earlier earlierMember later
    rw [ids, changes, List.mem_append, List.mem_append]
    rcases List.mem_append.mp earlierMember with old | new
    · exact (tracked.retained earlier old later).imp Or.inl Or.inl
    · rw [List.mem_singleton.mp new]
      exact ⟨Or.inr List.mem_cons_self, Or.inr List.mem_cons_self⟩
  progress := tracked.progress.append _ commit next

/-- Expiration that leaves every snapshot behind the start of an open transaction. -/
def System.RetainsInterim (sys : System) : System.Label → Prop
  | .expire filter _ _ => ∀ party ∈ sys.parties, party.phase.isFinished = false →
      ∀ id ∈ findExpiredSnapshots filter sys.db, id ≤ party.start.id
  | _ => True

namespace System

instance (sys : System) (label : Label) : Decidable (sys.RetainsInterim label) :=
  match label with
  | .expire filter _ _ => inferInstanceAs (Decidable (∀ party ∈ sys.parties,
      party.phase.isFinished = false →
        ∀ id ∈ findExpiredSnapshots filter sys.db, id ≤ party.start.id))
  | .begin | .move .. => isTrue trivial

theorem retainsInterim_of_withoutExpiration
    (sys : System)
    (label : Label)
    (transactional : WithoutExpiration sys label) :
    sys.RetainsInterim label := by
  cases label with
  | begin | move => trivial
  | expire => cases transactional

section

variable {sys next : System}

theorem Numbered.mem_history
    (numbered : sys.Numbered)
    (id : Int) :
    (∃ commit ∈ sys.history, commit.snapshotId = id) ↔ 1 ≤ id ∧ id ≤ sys.history.length := by
  have members : (∃ commit ∈ sys.history, commit.snapshotId = id) ↔
      id ∈ sys.history.map Commit.snapshotId := by simp
  rw [members, numbered.ids]
  simp only [List.mem_map, List.mem_range]
  constructor
  · rintro ⟨index, bound, rfl⟩
    omega
  · rintro ⟨low, high⟩
    exact ⟨(id - 1).toNat, by omega, by omega⟩

theorem Numbered.latest
    (numbered : sys.Numbered)
    (info : SnapshotInfo)
    (read : latestSnapshot sys.db = .ok info) :
    info.id = sys.history.length := by
  obtain ⟨⟨row, member, rfl⟩, bounded⟩ := latestSnapshot_eq_ok sys.db info read
  obtain ⟨newest, newestMember, newestId⟩ := List.mem_map.mp numbered.newest
  have above := bounded newest newestMember
  have below := numbered.bounded row.snapshotId (List.mem_map_of_mem member)
  simp only [SnapshotInfo.ofSnapshot] at above ⊢
  omega

/-- Moves that neither write to the database nor commit only have to account for their party. -/
theorem Numbered.of_party
    (numbered : sys.Numbered)
    (index : Nat)
    (party : Party)
    (sameDb : next.db = sys.db)
    (sameHistory : next.history = sys.history)
    (parties : next.parties = sys.parties.set index party)
    (tracked : party.phase.isFinished = false → Tracks sys.db sys.history party) :
    next.Numbered where
  ids := by rw [sameHistory, numbered.ids]
  newest := by rw [sameHistory, sameDb]; exact numbered.newest
  bounded := by rw [sameHistory, sameDb]; exact numbered.bounded
  tracks other member unfinished := by
    rw [sameHistory, sameDb]
    rw [parties] at member
    rcases List.mem_or_eq_of_mem_set member with inside | rfl
    · exact numbered.tracks other inside unfinished
    · exact tracked unfinished
  inOrder := by unfold SnapshotsInOrder; rw [sameHistory]; exact numbered.inOrder

/-! ## Steps -/

theorem Reads.same
    {env : Environment}
    {base : SnapshotInfo}
    {required : Bool}
    {stats : TableStatsMap}
    (reads : Reads env sys base required stats next) :
    next = { sys with catalogs := next.catalogs, statistics := next.statistics } := by
  cases reads <;> rfl

theorem Gathers.same
    {env : Environment}
    (gathers : Gathers env sys next) :
    next = { sys with catalogs := next.catalogs, statistics := next.statistics } := by
  cases gathers with
  | nothing => rfl
  | catalog _ => rfl
  | stats reads => exact reads.same

theorem rememberStats_same
    (sys : System)
    (info : SnapshotInfo)
    (stats : DucklakeResult TableStatsMap) :
    sys.rememberStats info stats = { sys with
      statistics := (sys.rememberStats info stats).statistics } := by
  cases stats <;> rfl

theorem Numbered.base_latest
    (numbered : sys.Numbered)
    (party : Party)
    (base : SnapshotInfo)
    (tracked : Tracks sys.db sys.history party)
    (checked : CheckedUpTo sys.history party base)
    (untaken : base.id + 1 ∉ snapshotIds sys.db) :
    base.id = sys.history.length := by
  obtain ⟨above, below, _⟩ := checked
  obtain ⟨startLow, _⟩ := tracked.start
  by_contra older
  obtain ⟨commit, member, commitId⟩ := (numbered.mem_history (base.id + 1)).mpr (by omega)
  have kept := (tracked.retained commit member (by omega)).1
  rw [commitId] at kept
  exact untaken kept

theorem Numbered.of_phase
    (numbered : sys.Numbered)
    (index : Nat)
    (party : Party)
    (phase : Phase)
    (member : party ∈ sys.parties)
    (unfinished : party.phase.isFinished = false)
    (catalogs : List (Int × Catalog))
    (statistics : List ((Int × Int) × TableStatsMap))
    (progress : Progress sys.history party phase) :
    ({ sys with catalogs := catalogs, statistics := statistics }.setPhase index party
      phase).Numbered := by
  have tracked := numbered.tracks party member unfinished
  exact numbered.of_party index { party with phase := phase } rfl rfl rfl fun _ =>
    { start := tracked.start, retained := tracked.retained, progress := progress }

/-- A commit takes the next id. -/
theorem Numbered.committed
    (numbered : sys.Numbered)
    (index : Nat)
    (party : Party)
    (member : party ∈ sys.parties)
    (env : Environment)
    (tx : Ducklake.Transaction)
    (attempt : Nat)
    (base : SnapshotInfo)
    (prepared : PreparedCommit)
    (now : Int)
    (after : Database)
    (phase : party.phase = .prepared tx attempt base prepared)
    (success : persistCommit env now prepared sys.db = .ok after) :
    ((sys.recordCommit {
      party := index
      start := party.start
      tx := tx
      base := base
      prepared := prepared
      checked := party.checked
      before := sys.db
      after := after } now).setPhase index party
        (.finished (.ok (some prepared.state.snapshotId)))).Numbered := by
  have tracked := numbered.tracks party member (by rw [phase]; rfl)
  have progress := tracked.progress
  rw [phase] at progress
  obtain ⟨checked, stateId⟩ := progress
  obtain ⟨snapshots, snapshotChanges, untaken⟩ :=
    persistCommit_snapshots env now prepared sys.db after success
  rw [stateId] at untaken
  have baseId := numbered.base_latest party base tracked checked untaken
  have ids : snapshotIds after = snapshotIds sys.db ++ [(sys.history.length : Int) + 1] := by
    simp [snapshotIds, snapshots, CommitState.snapshot, stateId, baseId]
  have below : ∀ commit ∈ sys.history, 1 ≤ commit.snapshotId ∧
      commit.snapshotId ≤ sys.history.length := fun commit inside =>
    (numbered.mem_history _).mp ⟨commit, inside, rfl⟩
  let commit : Commit := {
    party := index
    start := party.start
    tx := tx
    base := base
    prepared := prepared
    checked := party.checked
    before := sys.db
    after := after }
  have commitId : commit.snapshotId = (sys.history.length : Int) + 1 := by
    rw [← baseId, ← stateId]
    rfl
  refine {
    ids := ?_
    newest := ?_
    bounded := ?_
    tracks := ?_
    inOrder := ?_ }
  · change (sys.history ++ [commit]).map Commit.snapshotId = _
    rw [List.map_append, numbered.ids]
    simp [setPhase, setParty, recordCommit, List.range_succ, commitId]
  · change ((sys.history ++ [commit]).length : Int) ∈ snapshotIds after
    rw [ids]
    simp
  · change ∀ id ∈ snapshotIds after, id ≤ ((sys.history ++ [commit]).length : Int)
    intro id inside
    rw [ids, List.mem_append, List.mem_singleton] at inside
    rw [List.length_append, List.length_singleton]
    rcases inside with old | rfl
    · have bound := numbered.bounded id old
      omega
    · omega
  · intro other otherMember unfinished
    change Tracks after (sys.history ++ [commit]) other
    rcases List.mem_or_eq_of_mem_set otherMember with inside | rfl
    · refine (numbered.tracks other inside unfinished).append commit commitId ?_ ?_
      · rw [ids, commitId]
      · rw [snapshotChanges]
        rfl
    · cases unfinished
  · obtain ⟨ordered, positive⟩ := numbered.inOrder
    constructor
    · change (sys.history ++ [commit]).Pairwise Follows
      rw [List.pairwise_append]
      refine ⟨ordered, List.pairwise_singleton _ _, ?_⟩
      intro earlier earlierMember later laterMember
      rw [List.mem_singleton.mp laterMember]
      have bounds := below earlier earlierMember
      refine ⟨by rw [commitId]; omega, fun afterStart => ?_⟩
      exact checked.2.2 earlier earlierMember afterStart (by omega)
    · change ∀ earlier ∈ sys.history ++ [commit], 0 < earlier.snapshotId
      intro earlier earlierMember
      rcases List.mem_append.mp earlierMember with old | new
      · exact positive earlier old
      · rw [List.mem_singleton.mp new, commitId]
        omega

theorem Numbered.advances
    (numbered : sys.Numbered)
    (env : Environment)
    (index : Nat)
    (party : Party)
    (member : party ∈ sys.parties)
    (move : Move)
    (advances : Advances env sys index party move next) :
    next.Numbered := by
  cases advances with
  | loaded phase read => exact numbered.of_phase index party _ member (by rw [phase]; rfl) _ _ trivial
  | @operated tx result operation source stats phase read executed =>
      rw [rememberStats_same]
      exact numbered.of_phase index party _ member (by rw [phase]; rfl) _ _ trivial
  | submitted phase filled =>
      have tracked := numbered.tracks party member (by rw [phase]; rfl)
      refine numbered.of_phase index party _ member (by rw [phase]; rfl) sys.catalogs
        sys.statistics ⟨Int.le_refl _, tracked.start.2, ?_⟩
      intro commit _ above below
      omega
  | prepared phase reads success =>
      have tracked := numbered.tracks party member (by rw [phase]; rfl)
      have progress := tracked.progress
      rw [phase] at progress
      have extended := prepareCommit_extends env _ _ _ success
      rw [reads.same]
      exact numbered.of_phase index party _ member (by rw [phase]; rfl) _ _
        ⟨progress, extended.snapshotId⟩
  | committed phase success =>
      exact numbered.committed index party member env _ _ _ _ _ _ phase success
  | refused phase failure retryable =>
      exact numbered.of_phase index party _ member (by rw [phase]; rfl) sys.catalogs
        sys.statistics trivial
  | refreshed phase read =>
      have tracked := numbered.tracks party member (by rw [phase]; rfl)
      have latestId := numbered.latest _ read
      have startBound := tracked.start.2
      exact numbered.of_phase index party _ member (by rw [phase]; rfl) sys.catalogs
        sys.statistics ⟨by omega, by omega⟩
  | @checked tx attempt prepared latest interim phase read compatible below =>
      have tracked := numbered.tracks party member (by rw [phase]; rfl)
      have progress := tracked.progress
      rw [phase] at progress
      refine numbered.of_party index _ rfl rfl rfl fun _ => {
        start := tracked.start
        retained := tracked.retained
        progress := ⟨progress.1, progress.2, ?_⟩ }
      intro commit commitMember above bounded
      have kept := (tracked.retained commit commitMember above).2
      refine List.mem_append_right _ (List.mem_filter.mpr ⟨kept, ?_⟩)
      have low : party.start.id + 1 ≤ commit.snapshotId := above
      exact decide_eq_true ⟨low, bounded⟩
  | ended unfinished gathers =>
      have same := gathers.same
      refine numbered.of_party index _ (by rw [same]; rfl) (by rw [same]; rfl) (by rw [same]; rfl)
        fun opened => ?_
      cases opened

/-- Expiration keeps the latest snapshot and what open transactions rely on. -/
theorem Numbered.expired
    (numbered : sys.Numbered)
    (filter : SnapshotFilter)
    (info : SnapshotInfo)
    (source : Source)
    (catalog : Catalog)
    (after : Database)
    (retains : sys.RetainsInterim (.expire filter info source))
    (success : expireSnapshots catalog filter sys.db = .ok after) :
    ({ sys.rememberCatalog info catalog with db := after }).Numbered := by
  obtain ⟨snapshots, snapshotChanges⟩ := expireSnapshots_snapshots catalog filter sys.db after success
  have ids : ∀ id, id ∈ snapshotIds after ↔
      id ∈ snapshotIds sys.db ∧ id ∉ findExpiredSnapshots filter sys.db := by
    intro id
    simp only [snapshotIds, snapshots, List.mem_map, List.mem_filter, decide_eq_true_eq]
    constructor
    · rintro ⟨row, ⟨inside, kept⟩, rfl⟩
      exact ⟨⟨row, inside, rfl⟩, kept⟩
    · rintro ⟨⟨row, inside, rfl⟩, kept⟩
      exact ⟨row, ⟨inside, kept⟩, rfl⟩
  have latest : (snapshotIds sys.db).max? = some (sys.history.length : Int) := by
    rw [List.max?_eq_some_iff]
    exact ⟨numbered.newest, numbered.bounded⟩
  refine {
    ids := numbered.ids
    newest := (ids _).mpr ⟨numbered.newest, max_notMem_findExpiredSnapshots filter sys.db _ latest⟩
    bounded := fun id inside => numbered.bounded id ((ids id).mp inside).1
    tracks := ?_
    inOrder := numbered.inOrder }
  intro party member unfinished
  obtain ⟨start, retained, progress⟩ := numbered.tracks party member unfinished
  refine { start := start, retained := ?_, progress := progress }
  intro commit commitMember above
  obtain ⟨present, row⟩ := retained commit commitMember above
  have kept : commit.snapshotId ∈ snapshotIds after := by
    refine (ids _).mpr ⟨present, fun expired => ?_⟩
    have bound := retains party member unfinished _ expired
    omega
  refine ⟨kept, ?_⟩
  rw [snapshotChanges, List.mem_filter]
  exact ⟨row, by simpa [Commit.changesRow, snapshotIds] using kept⟩

theorem Numbered.step
    (numbered : sys.Numbered)
    (env : Environment)
    (label : Label)
    (retains : sys.RetainsInterim label)
    (stepped : System.step env sys label = some next) :
    next.Numbered := by
  cases step_outcome env sys next label stepped with
  | began read =>
      have startId := numbered.latest _ read
      refine { numbered with tracks := ?_ }
      intro party member unfinished
      rcases List.mem_append.mp member with old | new
      · exact numbered.tracks party old unfinished
      · rw [List.mem_singleton.mp new]
        refine { start := by dsimp only; omega, retained := ?_, progress := trivial }
        intro commit commitMember above
        have bound := ((numbered.mem_history _).mp ⟨commit, commitMember, rfl⟩).2
        dsimp only at above
        omega
  | unchanged => exact numbered
  | moved found advances =>
      exact numbered.advances env _ _ (List.mem_of_getElem? found) _ advances
  | expired read success => exact numbered.expired _ _ _ _ _ retains success
  | kept read => exact { numbered with }

end

theorem init_numbered (now : Int) : (init now).Numbered where
  ids := rfl
  newest := by simp [init, snapshotIds, initCatalog]
  bounded := by simp [init, snapshotIds, initCatalog]
  tracks := by simp [init]
  inOrder := by simp [SnapshotsInOrder, init]

theorem reachable_numbered
    (env : Environment)
    (now : Int)
    (sys : System)
    (run : Reachable env RetainsInterim now sys) :
    sys.Numbered :=
  run.invariant Numbered (init_numbered now)
    (fun _ label _ numbered retains stepped => numbered.step env label retains stepped)

/-- While expiration leaves what open transactions have not seen, snapshot ids increase and
every commit was checked against all changes since its start. -/
theorem snapshotsInOrder_of_retainsInterim
    (env : Environment)
    (now : Int)
    (sys : System)
    (run : Reachable env RetainsInterim now sys) :
    sys.SnapshotsInOrder :=
  (reachable_numbered env now sys run).inOrder

/-- The second transaction starts behind a snapshot that expires while it is open; the third one
starts with it and is refused once. -/
def expiredStart : List Label :=
  [.begin] ++
    working 0 ⟨0, 0, 1, 0⟩ [.createSchema "a".toList none .fail] ++ committing 0 ⟨0, 0, 1, 0⟩ ++
    [.begin, .begin, .expire (.versions [0]) ⟨1, 1, 2, 0⟩ (.load ⟨1, 1, 2, 0⟩)] ++
    working 1 ⟨1, 1, 2, 0⟩ [.createSchema "b".toList none .fail] ++
    working 2 ⟨1, 1, 2, 0⟩ [.createSchema "c".toList none .fail] ++
    committing 2 ⟨1, 1, 2, 0⟩ ++ committing 1 ⟨1, 1, 2, 0⟩ ++ retrying 1 ++ attempt 1 ⟨2, 2, 3, 0⟩

theorem snapshotsInOrder_expiredStart :
    ∃ final, Reachable .plain RetainsInterim 0 final ∧
      final.db.snapshots.map DucklakeSnapshot.snapshotId = [1, 2, 3] ∧
      final.history.map Commit.snapshotId = [1, 2, 3] ∧ final.SnapshotsInOrder := by
  obtain ⟨final, taken, shape⟩ := Option.map_eq_some_iff.mp
    (show (expiredStart.foldlM (fun sys label =>
        if decide (sys.RetainsInterim label) = true then System.step .plain sys label else none)
          (init 0)).map (fun sys => (sys.db.snapshots.map DucklakeSnapshot.snapshotId,
            sys.history.map Commit.snapshotId)) = some ([1, 2, 3], [1, 2, 3]) by
      decide +kernel)
  obtain ⟨stored, committed⟩ := Prod.mk.inj shape
  have run : Reachable .plain RetainsInterim 0 final :=
    Reaches.of_checked (fun sys label => decide (sys.RetainsInterim label))
      (fun _ _ => of_decide_eq_true) expiredStart taken
  exact ⟨final, run, stored, committed, snapshotsInOrder_of_retainsInterim .plain 0 final run⟩

/-- Two snapshots follow the start of the first transaction, one of them expires. -/
def expiredInterim : List Label :=
  [.begin, .begin] ++
    working 1 ⟨0, 0, 1, 0⟩ [.createSchema "a".toList none .fail] ++ committing 1 ⟨0, 0, 1, 0⟩ ++
    [.begin] ++
    working 2 ⟨1, 1, 2, 0⟩ [.createSchema "b".toList none .fail] ++ committing 2 ⟨1, 1, 2, 0⟩ ++
    [.expire (.versions [1]) ⟨2, 2, 3, 0⟩ (.load ⟨2, 2, 3, 0⟩)] ++
    working 0 ⟨0, 0, 1, 0⟩ [.deleteSchema "main".toList false .fail] ++
    committing 0 ⟨0, 0, 1, 0⟩

/-- Without the condition a commit can take the id of an expired snapshot, unchecked. -/
theorem snapshotsInOrder_fails :
    ¬∀ (env : Environment) (now : Int) (sys : System),
      Reachable env (fun _ _ => True) now sys → sys.SnapshotsInOrder := by
  intro inOrder
  obtain ⟨final, taken, ids⟩ : ∃ final,
      expiredInterim.foldlM (System.step .plain) (init 0) = some final ∧
        final.history.map Commit.snapshotId = [1, 2, 1] :=
    Option.map_eq_some_iff.mp (by decide +kernel)
  have run : Reachable .plain (fun _ _ => True) 0 final :=
    Reaches.of_foldlM expiredInterim (fun _ _ _ => trivial) taken
  have increasing : (final.history.map Commit.snapshotId).Pairwise (· < ·) :=
    List.pairwise_map.mpr ((inOrder .plain 0 final run).1.imp And.left)
  rw [ids] at increasing
  exact absurd increasing (by decide)

end System

end Ducklake
