import Mathlib.Data.Finset.Max
import Ducklake.Caches.Snapshot
import Ducklake.Interleaving.SnapshotOrder
import Ducklake.Interleaving.TimeTravel

/-!
# The times of snapshots

Clients read the clock in their own attempts to commit, while the primary key decides which of them
gets the next snapshot.  A step of a client is interrupted between the reading and the row.
-/

set_option autoImplicit false

namespace Ducklake

open Lib Caches Spec Transaction

/-- Times that a database stores do not change places. -/
def MonotoneTimes (stored : Int → Int) : Prop :=
  ∀ earlier later, earlier ≤ later → stored earlier ≤ stored later

/-- A system with the clock of its clients, and the times that they have read for the snapshots
that they are about to write. -/
structure Clocked where
  sys : System
  clock : Int
  readings : Nat → Option Int

def Phase.isPrepared : Phase → Bool
  | prepared .. => true
  | _ => false

namespace Clocked

inductive Label where
  /-- The clock shows a later time. -/
  | tick (now : Int)
  /-- `UtcDateTime::now` in an attempt. -/
  | read (index : Nat)
  | system (label : System.Label)

/-- The row of a snapshot has the time that was read for it, as the database stores it. -/
def hasTime (stored : Int → Int) (readings : Nat → Option Int) : System.Label → Bool
  | .move index (.persist now) => (readings index).map stored = some now
  | _ => true

/-- A reading does not outlive the next move of its client. -/
def readingsAfter (readings : Nat → Option Int) : System.Label → Nat → Option Int
  | .move index _, other => if other = index then none else readings other
  | _, other => readings other

def step (env : Environment) (stored : Int → Int) (state : Clocked) : Label → Option Clocked
  | .tick now => if state.clock ≤ now then some { state with clock := now } else none
  | .read index =>
      if state.sys.parties[index]?.any fun party => party.phase.isPrepared then
        some { state with
          readings := fun other => if other = index then some state.clock else state.readings other }
      else none
  | .system label =>
      if hasTime stored state.readings label then
        (System.step env state.sys label).map fun sys =>
          { state with sys := sys, readings := readingsAfter state.readings label }
      else none

def init (stored : Int → Int) (now : Int) : Clocked where
  sys := System.init (stored now)
  clock := now
  readings _ := none

def WithoutExpiration (_ : Clocked) : Label → Prop
  | .system label => label.isExpiration = false
  | _ => True

abbrev Reachable (env : Environment) (stored : Int → Int) (now : Int) (state : Clocked) : Prop :=
  Reaches (step env stored) WithoutExpiration (init stored now) state

section

variable {env : Environment} {stored : Int → Int} {now : Int} {state : Clocked}

theorem Reachable.system (run : Reachable env stored now state) :
    System.Reachable env System.WithoutExpiration (stored now) state.sys := by
  induction run with
  | refl => exact .refl
  | @tail state next label run permitted stepped ih =>
      cases label with
      | tick time =>
          simp only [step] at stepped
          split at stepped
          · obtain rfl := Option.some.inj stepped
            exact ih
          · cases stepped
      | read index =>
          simp only [step] at stepped
          split at stepped
          · obtain rfl := Option.some.inj stepped
            exact ih
          · cases stepped
      | system label =>
          simp only [step] at stepped
          split at stepped
          · obtain ⟨sys, moved, rfl⟩ := Option.map_eq_some_iff.mp stepped
            exact ih.tail permitted moved
          · cases stepped

/-! ## What a step changes -/

theorem parties_of_advances {sys next : System} {index : Nat} {party : Party} {move : System.Move}
    (advances : System.Advances env sys index party move next) :
    ∃ moved, next.parties = sys.parties.set index moved := by
  cases advances with
  | loaded | submitted | committed | refused | refreshed | checked => exact ⟨_, rfl⟩
  | operated phase read result =>
      rw [System.rememberStats_same]
      exact ⟨_, rfl⟩
  | prepared phase reads success =>
      rw [reads.same]
      exact ⟨_, rfl⟩
  | ended unfinished gathers =>
      rw [gathers.same]
      exact ⟨_, rfl⟩

theorem db_of_advances {sys next : System} {index : Nat} {party : Party} {move : System.Move}
    (advances : System.Advances env sys index party move next) :
    next.db = sys.db ∨ ∃ tx attempt base prepared time after,
      party.phase = .prepared tx attempt base prepared ∧ move = .persist time ∧
        persistCommit env time prepared sys.db = .ok after ∧ next.db = after := by
  cases advances with
  | loaded | submitted | refused | refreshed | checked => exact .inl rfl
  | operated phase read result =>
      rw [System.rememberStats_same]
      exact .inl rfl
  | prepared phase reads success =>
      rw [reads.same]
      exact .inl rfl
  | committed phase success => exact .inr ⟨_, _, _, _, _, _, phase, rfl, success, rfl⟩
  | ended unfinished gathers =>
      rw [gathers.same]
      exact .inl rfl

/-! ## The invariant -/

/-- The snapshots up to the one that an attempt builds on are older than the attempt's reading. -/
structure Timely (stored : Int → Int) (state : Clocked) : Prop where
  ordered : ∀ row ∈ state.sys.db.snapshots, ∀ later ∈ state.sys.db.snapshots,
    row.snapshotId ≤ later.snapshotId → row.snapshotTime ≤ later.snapshotTime
  past : ∀ row ∈ state.sys.db.snapshots, row.snapshotTime ≤ stored state.clock
  readings : ∀ index reading party tx attempt base prepared,
    state.readings index = some reading → state.sys.parties[index]? = some party →
      party.phase = .prepared tx attempt base prepared →
        reading ≤ state.clock ∧ ∀ row ∈ state.sys.db.snapshots,
          row.snapshotId ≤ base.id → row.snapshotTime ≤ stored reading

theorem init_timely : Timely stored (init stored now) where
  ordered := by simp [init, System.init, Spec.initCatalog]
  past := by simp [init, System.init, Spec.initCatalog]
  readings _ _ _ _ _ _ _ read := by cases read

theorem Timely.tick (timely : Timely stored state) (monotone : MonotoneTimes stored) (time : Int)
    (later : state.clock ≤ time) : Timely stored { state with clock := time } where
  ordered := timely.ordered
  past row member := (timely.past row member).trans (monotone _ _ later)
  readings index reading party tx attempt base prepared read found phase := by
    obtain ⟨past, covered⟩ :=
      timely.readings index reading party tx attempt base prepared read found phase
    exact ⟨past.trans later, covered⟩

theorem Timely.read (timely : Timely stored state) (index : Nat) :
    Timely stored { state with
      readings := fun other => if other = index then some state.clock
        else state.readings other } where
  ordered := timely.ordered
  past := timely.past
  readings other reading party tx attempt base prepared read found phase := by
    dsimp only at read
    split at read
    · obtain rfl := Option.some.inj read
      exact ⟨le_rfl, fun row member _ => timely.past row member⟩
    · exact timely.readings other reading party tx attempt base prepared read found phase

/-- A step that writes no snapshot keeps the readings of the clients that it does not move. -/
theorem Timely.of_sameDb
    (timely : Timely stored state)
    (sys : System)
    (readings : Nat → Option Int)
    (sameDb : sys.db = state.sys.db)
    (kept : ∀ index reading party, readings index = some reading →
      sys.parties[index]? = some party → party.phase.isPrepared = true →
        state.readings index = some reading ∧ state.sys.parties[index]? = some party) :
    Timely stored { state with sys := sys, readings := readings } where
  ordered := by
    dsimp only
    rw [sameDb]
    exact timely.ordered
  past := by
    dsimp only
    rw [sameDb]
    exact timely.past
  readings index reading party tx attempt base prepared read found phase := by
    dsimp only at read found ⊢
    rw [sameDb]
    obtain ⟨read, found⟩ := kept index reading party read found (by rw [phase]; rfl)
    exact timely.readings index reading party tx attempt base prepared read found phase

theorem kept_of_set {sys next : System} {readings : Nat → Option Int} (index : Nat) (moved : Party)
    (move : System.Move) (parties : next.parties = sys.parties.set index moved) (other : Nat)
    (reading : Int) (party : Party)
    (read : readingsAfter readings (.move index move) other = some reading)
    (found : next.parties[other]? = some party) :
    readings other = some reading ∧ sys.parties[other]? = some party ∧ other ≠ index := by
  simp only [readingsAfter] at read
  split at read
  · cases read
  · rename_i apart
    rw [parties, List.getElem?_set_ne (Ne.symm apart)] at found
    exact ⟨read, found, apart⟩

/-- The id of a snapshot that is committed is above all others, and its time was read after the
others were there. -/
theorem Timely.committed
    (timely : Timely stored state)
    (monotone : MonotoneTimes stored)
    (numbered : state.sys.Numbered)
    (index : Nat)
    (party : Party)
    (found : state.sys.parties[index]? = some party)
    (tx : Ducklake.Transaction)
    (attempt : Nat)
    (base : SnapshotInfo)
    (prepared : PreparedCommit)
    (time : Int)
    (next : System)
    (phase : party.phase = .prepared tx attempt base prepared)
    (success : persistCommit env time prepared state.sys.db = .ok next.db)
    (timed : (state.readings index).map stored = some time)
    (moved : Party)
    (parties : next.parties = state.sys.parties.set index moved) :
    Timely stored { state with
      sys := next
      readings := readingsAfter state.readings (.move index (.persist time)) } := by
  obtain ⟨reading, read, rfl⟩ := Option.map_eq_some_iff.mp timed
  obtain ⟨past, covered⟩ :=
    timely.readings index reading party tx attempt base prepared read found phase
  have tracked := numbered.tracks party (List.mem_of_getElem? found) (by rw [phase]; rfl)
  have progress := tracked.progress
  rw [phase] at progress
  obtain ⟨checked, stateId⟩ := progress
  obtain ⟨snapshots, -, untaken⟩ := persistCommit_snapshots env _ prepared _ _ success
  have latest : base.id = state.sys.history.length :=
    numbered.base_latest party base tracked checked (by rwa [stateId] at untaken)
  have below : ∀ row ∈ state.sys.db.snapshots, row.snapshotId ≤ base.id := by
    intro row member
    rw [latest]
    exact numbered.bounded row.snapshotId (List.mem_map_of_mem member)
  have older : ∀ row ∈ state.sys.db.snapshots, row.snapshotTime ≤ stored reading :=
    fun row member => covered row member (below row member)
  have members : ∀ row ∈ next.db.snapshots, row ∈ state.sys.db.snapshots ∨
      row = prepared.state.snapshot (stored reading) := by
    intro row member
    rw [snapshots] at member
    simpa using member
  constructor
  · intro row member later laterMember ids
    rcases members row member with old | rfl <;> rcases members later laterMember with old' | rfl
    · exact timely.ordered row old later old' ids
    · exact older row old
    · have above := below later old'
      change prepared.state.snapshotId ≤ later.snapshotId at ids
      omega
    · exact le_rfl
  · intro row member
    rcases members row member with old | rfl
    · exact timely.past row old
    · exact monotone _ _ past
  · intro other otherReading otherParty otherTx otherAttempt otherBase otherPrepared read' found'
      phase'
    obtain ⟨read', found', apart⟩ :=
      kept_of_set index moved (.persist (stored reading)) parties other otherReading otherParty
        read' found'
    obtain ⟨past', covered'⟩ := timely.readings other otherReading otherParty otherTx otherAttempt
      otherBase otherPrepared read' found' phase'
    refine ⟨past', ?_⟩
    intro row member ids
    rcases members row member with old | rfl
    · exact covered' row old ids
    · -- the base of every other attempt is a snapshot that was there before
      have otherTracked := numbered.tracks otherParty (List.mem_of_getElem? found')
        (by rw [phase']; rfl)
      have otherProgress := otherTracked.progress
      rw [phase'] at otherProgress
      have known := otherProgress.1.2.1
      change prepared.state.snapshotId ≤ otherBase.id at ids
      omega

theorem readings_of_after {readings : Nat → Option Int} (label : System.Label) (index : Nat)
    (reading : Int) (read : readingsAfter readings label index = some reading) :
    readings index = some reading := by
  cases label with
  | begin | expire => exact read
  | move moved move =>
      simp only [readingsAfter] at read
      split at read
      · cases read
      · exact read

theorem Timely.system
    (timely : Timely stored state)
    (monotone : MonotoneTimes stored)
    (numbered : state.sys.Numbered)
    (label : System.Label)
    (transactional : label.isExpiration = false)
    (timed : hasTime stored state.readings label = true)
    (next : System)
    (stepped : System.step env state.sys label = some next) :
    Timely stored { state with
      sys := next
      readings := readingsAfter state.readings label } := by
  cases System.step_outcome env state.sys next label stepped with
  | began =>
      refine timely.of_sameDb _ _ rfl ?_
      intro index reading party read found prepared
      refine ⟨read, ?_⟩
      rcases Nat.lt_or_ge index state.sys.parties.length with inside | outside
      · rwa [List.getElem?_append_left inside] at found
      · rw [List.getElem?_append_right outside] at found
        rw [List.mem_singleton.mp (List.mem_of_getElem? found)] at prepared
        cases prepared
  | unchanged =>
      refine timely.of_sameDb _ _ rfl ?_
      intro index reading party read found _
      exact ⟨readings_of_after label index reading read, found⟩
  | @moved index party move _ found advances =>
      obtain ⟨moved, parties⟩ := parties_of_advances advances
      rcases db_of_advances advances with same |
        ⟨tx, attempt, base, prepared, time, after, phase, rfl, success, rfl⟩
      · refine timely.of_sameDb _ _ same ?_
        intro other reading otherParty read found' _
        obtain ⟨read, found', _⟩ :=
          kept_of_set index moved move parties other reading otherParty read found'
        exact ⟨read, found'⟩
      · exact timely.committed monotone numbered index party found tx attempt base prepared time next
          phase success (of_decide_eq_true timed) moved parties
  | expired | kept => cases transactional

theorem reachable_timely (monotone : MonotoneTimes stored) (run : Reachable env stored now state) :
    Timely stored state := by
  refine run.invariant_of_reached (Timely stored) init_timely ?_
  intro state label next run timely permitted stepped
  cases label with
  | tick time =>
      simp only [step] at stepped
      split at stepped
      · rename_i later
        obtain rfl := Option.some.inj stepped
        exact timely.tick monotone time later
      · cases stepped
  | read index =>
      simp only [step] at stepped
      split at stepped
      · obtain rfl := Option.some.inj stepped
        exact timely.read index
      · cases stepped
  | system label =>
      simp only [step] at stepped
      split at stepped
      · rename_i timed
        obtain ⟨sys, moved, rfl⟩ := Option.map_eq_some_iff.mp stepped
        have numbered := System.numbered_of_withoutExpiration (Reachable.system run)
        exact timely.system monotone numbered label permitted timed sys moved
      · cases stepped

end

/-! ## Time travel -/

/-- The snapshot with the greatest id among those up to a timestamp. -/
def IsLatest (db : Database) (timestamp : Int) (row : DucklakeSnapshot) : Prop :=
  row ∈ db.snapshots ∧ row.snapshotTime ≤ timestamp ∧
    ∀ other ∈ db.snapshots, other.snapshotTime ≤ timestamp → other.snapshotId ≤ row.snapshotId

/-- The latest time up to a timestamp is the time of one snapshot only. -/
def Untied (db : Database) (timestamp : Int) : Prop :=
  ∀ row ∈ db.snapshots, ∀ other ∈ db.snapshots,
    row.snapshotTime ≤ timestamp → other.snapshotTime = row.snapshotTime →
      (∀ third ∈ db.snapshots, third.snapshotTime ≤ timestamp →
        third.snapshotTime ≤ row.snapshotTime) →
      other.snapshotId = row.snapshotId

/-- The texts of the times from the year 0 to the year 9999 are in the order of the times.  Later
times have a sign in front, which comes before all digits. -/
structure Rfc3339 (texts : Int → Text) (first last : Int) : Prop where
  ordered : ∀ time other, first ≤ time → time ≤ last → first ≤ other → other ≤ last →
    (compareText (texts time) (texts other) ≠ .gt ↔ time ≤ other)
  signed : ∀ time later, first ≤ time → time ≤ last → last < later →
    compareText (texts time) (texts later) = .gt

theorem exists_isLatest
    (db : Database)
    (timestamp : Int)
    (some_ : ∃ row ∈ db.snapshots, row.snapshotTime ≤ timestamp) :
    ∃ row, IsLatest db timestamp row := by
  obtain ⟨row, member, until_⟩ := some_
  obtain ⟨latest, inside, greatest⟩ := Finset.exists_max_image
    (db.snapshots.filter fun row => row.snapshotTime ≤ timestamp).toFinset
    DucklakeSnapshot.snapshotId ⟨row, by simp [member, until_]⟩
  simp only [List.mem_toFinset, List.mem_filter, decide_eq_true_eq] at inside greatest
  exact ⟨latest, inside.1, inside.2, fun other otherMember otherUntil =>
    greatest other ⟨otherMember, otherUntil⟩⟩

section

variable (texts : Int → Text) (dialect : Dialect)

/-- Whatever row the database begins with, it is the one with the greatest id. -/
def FindsGreatestId (db : Database) (timestamp : Int) : Prop :=
  ∀ choice : Choice DucklakeSnapshot, ∃ row, IsLatest db timestamp row ∧
    loadForTimestamp texts dialect choice db timestamp = .ok (.ofSnapshot row)

/-- The database compares the latest snapshot as one up to the timestamp, and no other snapshot up to
it as one of that time or a later one. -/
def TellsLatest (db : Database) (timestamp : Int) : Prop :=
  ∀ row, IsLatest db timestamp row →
    storedAtMost texts dialect row.snapshotTime timestamp = true ∧
      ∀ other ∈ db.snapshots, storedAtMost texts dialect other.snapshotTime timestamp = true →
        storedAtMost texts dialect row.snapshotTime other.snapshotTime = true →
          other.snapshotId = row.snapshotId

variable (db : Database) (timestamp : Int)
  (ordered : ∀ row ∈ db.snapshots, ∀ later ∈ db.snapshots,
    row.snapshotId ≤ later.snapshotId → row.snapshotTime ≤ later.snapshotTime)

include ordered

theorem findsGreatestId_iff (some_ : ∃ row ∈ db.snapshots, row.snapshotTime ≤ timestamp) :
    FindsGreatestId texts dialect db timestamp ↔ TellsLatest texts dialect db timestamp := by
  obtain ⟨last, isLatest⟩ := exists_isLatest db timestamp some_
  -- two rows with the greatest id have one time
  have sameTime : ∀ row other, IsLatest db timestamp row → other ∈ db.snapshots →
      other.snapshotId = row.snapshotId → other.snapshotTime = row.snapshotTime := by
    intro row other latest member sameId
    exact Int.le_antisymm (ordered other member row latest.1 sameId.le)
      (ordered row latest.1 other member sameId.ge)
  constructor
  · intro finds row latest
    -- the database may begin with any of the rows that it takes for the newest
    have greatest : ∀ other ∈ newestRows texts dialect (snapshotsUntil texts dialect db timestamp),
        other.snapshotId = row.snapshotId := by
      intro other member
      obtain ⟨found, foundLatest, loaded⟩ := finds (.preferring other)
      have chosen : loadForTimestamp texts dialect (.preferring other) db timestamp =
          .ok (.ofSnapshot other) := by
        rw [loadForTimestamp, Choice.first_preferring other _ member]
      have same := congrArg SnapshotInfo.id (Except.ok.inj (chosen.symm.trans loaded))
      exact same.trans (Int.le_antisymm (latest.2.2 found foundLatest.1 foundLatest.2.1)
        (foundLatest.2.2 row latest.1 latest.2.1))
    obtain ⟨newest, newestMember⟩ : ∃ newest,
        newest ∈ newestRows texts dialect (snapshotsUntil texts dialect db timestamp) := by
      refine List.exists_mem_of_ne_nil _ fun none_left => ?_
      obtain ⟨found, -, loaded⟩ := finds (.preferring row)
      rw [loadForTimestamp, none_left] at loaded
      cases loaded
    obtain ⟨inside, above⟩ := (mem_newestRows texts dialect _ newest).mp newestMember
    obtain ⟨member, until_⟩ := (mem_snapshotsUntil texts dialect db timestamp newest).mp inside
    have time := sameTime row newest latest member (greatest newest newestMember)
    rw [time] at until_ above
    refine ⟨until_, fun other otherMember otherUntil later => greatest other ?_⟩
    refine (mem_newestRows texts dialect _ other).mpr
      ⟨(mem_snapshotsUntil texts dialect db timestamp other).mpr ⟨otherMember, otherUntil⟩, ?_⟩
    exact fun third thirdMember =>
      storedAtMost_trans texts dialect _ _ _ (above third thirdMember) later
  · intro tells choice
    obtain ⟨until_, others⟩ := tells last isLatest
    have inside := (mem_snapshotsUntil texts dialect db timestamp last).mpr ⟨isLatest.1, until_⟩
    obtain ⟨row, newest, loaded⟩ :=
      loadForTimestamp_ok texts dialect choice db timestamp (List.ne_nil_of_mem inside)
    obtain ⟨rowInside, above⟩ := (mem_newestRows texts dialect _ row).mp newest
    obtain ⟨member, rowUntil⟩ := (mem_snapshotsUntil texts dialect db timestamp row).mp rowInside
    have sameId := others row member rowUntil (above last inside)
    refine ⟨row, ⟨member, ?_, ?_⟩, loaded⟩
    · rw [sameTime last row isLatest member sameId]
      exact isLatest.2.1
    · rw [sameId]
      exact isLatest.2.2

/-- Where the database compares times, only a tie can hide the greatest id. -/
theorem tellsLatest_iff_untied
    (some_ : ∃ row ∈ db.snapshots, row.snapshotTime ≤ timestamp)
    (until_ : ∀ row ∈ db.snapshots,
      (storedAtMost texts dialect row.snapshotTime timestamp = true ↔
        row.snapshotTime ≤ timestamp))
    (compared : ∀ row ∈ db.snapshots, ∀ other ∈ db.snapshots,
      (storedAtMost texts dialect row.snapshotTime other.snapshotTime = true ↔
        row.snapshotTime ≤ other.snapshotTime)) :
    TellsLatest texts dialect db timestamp ↔ Untied db timestamp := by
  constructor
  · intro tells row member other otherMember rowUntil sameTime latest
    obtain ⟨last, isLatest⟩ := exists_isLatest db timestamp some_
    have time : last.snapshotTime = row.snapshotTime := Int.le_antisymm
      (latest last isLatest.1 isLatest.2.1)
      (ordered row member last isLatest.1 (isLatest.2.2 row member rowUntil))
    have found : ∀ tied ∈ db.snapshots, tied.snapshotTime = row.snapshotTime →
        tied.snapshotId = last.snapshotId := by
      intro tied tiedMember tiedTime
      refine (tells last isLatest).2 tied tiedMember ((until_ tied tiedMember).mpr ?_)
        ((compared last isLatest.1 tied tiedMember).mpr ?_)
      · exact tiedTime.trans_le rowUntil
      · exact (time.trans tiedTime.symm).le
    exact (found other otherMember sameTime).trans (found row member rfl).symm
  · intro untied row latest
    refine ⟨(until_ row latest.1).mpr latest.2.1, ?_⟩
    intro other member otherUntil later
    have before := (until_ other member).mp otherUntil
    have time : other.snapshotTime = row.snapshotTime := Int.le_antisymm
      (ordered other member row latest.1 (latest.2.2 other member before))
      ((compared row latest.1 other member).mp later)
    refine untied row latest.1 other member latest.2.1 time fun third thirdMember thirdUntil => ?_
    exact ordered third thirdMember row latest.1 (latest.2.2 third thirdMember thirdUntil)

/-- Texts hide the greatest id behind a tie, and behind a timestamp with a sign. -/
theorem tellsLatest_iff
    (some_ : ∃ row ∈ db.snapshots, row.snapshotTime ≤ timestamp)
    (first last : Int)
    (rfc3339 : Rfc3339 texts first last)
    (within : dialect = .sqlite → ∀ row ∈ db.snapshots,
      first ≤ row.snapshotTime ∧ row.snapshotTime ≤ last) :
    TellsLatest texts dialect db timestamp ↔
      Untied db timestamp ∧ (dialect = .sqlite → timestamp ≤ last) := by
  cases dialect with
  | postgres | mySql =>
      rw [tellsLatest_iff_untied texts _ db timestamp ordered some_
        (fun row _ => by simp [storedAtMost]) (fun row _ other _ => by simp [storedAtMost])]
      exact (and_iff_left fun absurd_ => by cases absurd_).symm
  | sqlite =>
      have range := within rfl
      by_cases early : timestamp ≤ last
      · have lower : first ≤ timestamp := by
          obtain ⟨row, member, before⟩ := some_
          exact (range row member).1.trans before
        rw [tellsLatest_iff_untied texts _ db timestamp ordered some_, and_iff_left fun _ => early]
        · intro row member
          rw [storedAtMost, bne_iff_ne]
          exact rfc3339.ordered _ _ (range row member).1 (range row member).2 lower early
        · intro row member other otherMember
          rw [storedAtMost, bne_iff_ne]
          exact rfc3339.ordered _ _ (range row member).1 (range row member).2
            (range other otherMember).1 (range other otherMember).2
      · refine iff_of_false (fun tells => ?_) (fun right => early (right.2 rfl))
        obtain ⟨row, isLatest⟩ := exists_isLatest db timestamp some_
        have compared := (tells row isLatest).1
        rw [storedAtMost, bne_iff_ne] at compared
        exact compared (rfc3339.signed _ _ (range row isLatest.1).1 (range row isLatest.1).2
          (Int.lt_of_not_ge early))

end

/-- Times do not decrease with the ids; and from the time of a snapshot on, the snapshot with the
greatest id is found if and only if the database tells it from the others: if the latest time up to
the timestamp is not shared, and the timestamp is not one that SQLite stores with a sign. -/
theorem timeTravel_findsGreatestId_iff
    (env : Environment)
    (stored : Int → Int)
    (monotone : MonotoneTimes stored)
    (now : Int)
    (state : Clocked)
    (run : Reachable env stored now state)
    (dialect : Dialect)
    (texts : Int → Text)
    (first last : Int)
    (rfc3339 : Rfc3339 texts first last) :
    (∀ row ∈ state.sys.db.snapshots, ∀ later ∈ state.sys.db.snapshots,
      row.snapshotId ≤ later.snapshotId → row.snapshotTime ≤ later.snapshotTime) ∧
    ∀ timestamp, (∃ row ∈ state.sys.db.snapshots, row.snapshotTime ≤ timestamp) →
      (FindsGreatestId texts dialect state.sys.db timestamp ↔
        TellsLatest texts dialect state.sys.db timestamp) ∧
      ((dialect = .sqlite → ∀ row ∈ state.sys.db.snapshots,
          first ≤ row.snapshotTime ∧ row.snapshotTime ≤ last) →
        (TellsLatest texts dialect state.sys.db timestamp ↔
          Untied state.sys.db timestamp ∧ (dialect = .sqlite → timestamp ≤ last))) := by
  have timely := reachable_timely monotone run
  refine ⟨timely.ordered, fun timestamp some_ => ⟨?_, ?_⟩⟩
  · exact findsGreatestId_iff texts dialect state.sys.db timestamp timely.ordered some_
  · exact tellsLatest_iff texts dialect state.sys.db timestamp timely.ordered some_ first last
      rfc3339

/-! ## Two snapshots at one time -/

/-- The texts of the first ten seconds of 1970, and of the first second of the year 10000. -/
def secondTexts (time : Int) : Text :=
  if 0 ≤ time ∧ time < 10 then
    "1970-01-01T00:00:0".toList ++ [Char.ofNat (48 + time.toNat)] ++ "+00:00".toList
  else "+10000-01-01T00:00:00+00:00".toList

theorem rfc3339_secondTexts : Rfc3339 secondTexts 0 9 where
  ordered time other lower upper otherLower otherUpper := by
    have all : ∀ time other : Fin 10,
        (compareText (secondTexts time.val) (secondTexts other.val) ≠ .gt ↔ time ≤ other) := by
      decide +kernel
    have found := all ⟨time.toNat, by omega⟩ ⟨other.toNat, by omega⟩
    simp only [Int.toNat_of_nonneg lower, Int.toNat_of_nonneg otherLower] at found
    rw [found, Fin.mk_le_mk]
    omega
  signed time later lower upper above := by
    have sign : secondTexts later = "+10000-01-01T00:00:00+00:00".toList := if_neg (by omega)
    have digits : secondTexts time = "1970-01-01T00:00:0".toList ++
        [Char.ofNat (48 + time.toNat)] ++ "+00:00".toList := if_pos (by omega)
    rw [sign, digits]
    rfl

/-- A transaction that creates a schema, when the clock shows a time. -/
def creatingAt (time : Int) : List Label :=
  (System.Label.begin :: System.working 0 ⟨0, 0, 1, 0⟩ [.createSchema "s".toList none .fail]).map
      .system ++
    [.system (.move 0 .submit),
      .system (.move 0 (.prepare (.load ⟨0, 0, 1, 0⟩) (.load ⟨0, 0, 1, 0⟩))),
      .tick time, .read 0, .system (.move 0 (.persist time))]

theorem creatingAt_permitted (time : Int) (state : Clocked) :
    ∀ label ∈ creatingAt time, WithoutExpiration state label := by
  simp [creatingAt, System.working, WithoutExpiration, System.Label.isExpiration]

/-- The clock shows the same time for the first snapshot and for the second; and in the year 10000
SQLite finds no snapshot. -/
theorem not_findsGreatestId_tied :
    (∃ state, Reachable .plain id 0 state ∧
      (∃ row ∈ state.sys.db.snapshots, row.snapshotTime ≤ 0) ∧
        ¬ FindsGreatestId secondTexts .postgres state.sys.db 0) ∧
    ∃ state, Reachable .plain id 0 state ∧
      (∃ row ∈ state.sys.db.snapshots, row.snapshotTime ≤ 253402300800) ∧
        ¬ FindsGreatestId secondTexts .sqlite state.sys.db 253402300800 := by
  constructor
  · obtain ⟨state, taken, snapshots⟩ := Option.map_eq_some_iff.mp
      (show ((creatingAt 0).foldlM (step .plain id) (init id 0)).map
        (fun state => state.sys.db.snapshots) = some [⟨0, 0, 0, 1, 0⟩, ⟨1, 0, 1, 2, 0⟩] by
          decide +kernel)
    have run : Reachable .plain id 0 state :=
      .of_foldlM _ (fun state => creatingAt_permitted 0 state) taken
    refine ⟨state, run, ⟨⟨0, 0, 0, 1, 0⟩, by simp [snapshots], le_rfl⟩, fun finds => ?_⟩
    obtain ⟨row, latest, loaded⟩ := finds (.preferring ⟨0, 0, 0, 1, 0⟩)
    rw [loadForTimestamp, snapshotsUntil, snapshots] at loaded
    have same := congrArg SnapshotInfo.id (Except.ok.inj loaded)
    have least := latest.2.2 ⟨1, 0, 1, 2, 0⟩ (by simp [snapshots]) le_rfl
    change 0 = row.snapshotId at same
    change 1 ≤ row.snapshotId at least
    omega
  · refine ⟨init id 0, .refl, ⟨⟨0, 0, 0, 1, 0⟩, .head _, by decide⟩, fun finds => ?_⟩
    obtain ⟨row, -, loaded⟩ := finds (.preferring ⟨0, 0, 0, 1, 0⟩)
    have empty : newestRows secondTexts .sqlite
        (snapshotsUntil secondTexts .sqlite (init id 0).sys.db 253402300800) = [] := by
      decide +kernel
    rw [loadForTimestamp, empty] at loaded
    cases loaded

theorem timeTravel_findsGreatestId_iff_ticking :
    ∃ state, Reachable .plain id 0 state ∧ FindsGreatestId secondTexts .sqlite state.sys.db 5 ∧
      state.sys.db.snapshots.map DucklakeSnapshot.snapshotTime = [0, 5] := by
  obtain ⟨state, taken, snapshots⟩ := Option.map_eq_some_iff.mp
    (show ((creatingAt 5).foldlM (step .plain id) (init id 0)).map
      (fun state => state.sys.db.snapshots) = some [⟨0, 0, 0, 1, 0⟩, ⟨1, 5, 1, 2, 0⟩] by
        decide +kernel)
  have run : Reachable .plain id 0 state :=
    .of_foldlM _ (fun state => creatingAt_permitted 5 state) taken
  refine ⟨state, run, ?_, by rw [snapshots]; rfl⟩
  obtain ⟨finds, tells⟩ := (timeTravel_findsGreatestId_iff .plain id (fun _ _ le => le) 0 state run
    .sqlite secondTexts 0 9 rfc3339_secondTexts).2 5
      ⟨⟨0, 0, 0, 1, 0⟩, by simp [snapshots], by decide⟩
  refine finds.mpr ((tells fun _ => ?_).mpr ⟨?_, fun _ => by decide⟩)
  · simp [snapshots]
  · simp [Untied, snapshots]

end Clocked

end Ducklake
