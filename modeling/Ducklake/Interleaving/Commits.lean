import Ducklake.Catalog.Loaded
import Ducklake.Interleaving.SnapshotOrder
import Ducklake.Transaction.Recorded

/-!
# Transactions and commits of a run

Every transaction of a run was worked on with operations only, and every commit was prepared from
its transaction and checked against what the transaction had not seen.
-/

set_option autoImplicit false

namespace Ducklake

open Lib Caches Spec Maintenance Transaction

/-! ## What holds of a transaction in each phase -/

/-- An attempt on a snapshot came to the database transaction. -/
def Prepared (env : Environment) (tx : Transaction) (base : SnapshotInfo)
    (prepared : PreparedCommit) : Prop :=
  ∃ stats, prepareCommit env (ChangeSet.new tx.changes)
    (.new base tx.catalog (ChangeSet.new tx.changes).changesSchema stats) = .ok prepared

/-- The changes of a transaction were found compatible with those of a snapshot. -/
def CheckedAgainst (tx : Transaction) (row : DucklakeSnapshotChanges) : Prop :=
  ∃ start state other, start.catalog = tx.catalog ∧ CommitState.Extends start state ∧
    AppliedChangeSet.parse row.changesMade = .ok other ∧
    ((ChangeSet.new tx.changes).appliedChangeSet state).1.checkConflict other tx.catalog = .ok ()

structure Submitted (party : Party) (tx : Transaction) : Prop where
  sound : tx.Sound
  snapshot : tx.snapshot = party.start
  checked : ∀ row ∈ party.checked, CheckedAgainst tx row

def Party.Sound (env : Environment) (party : Party) : Prop :=
  match party.phase with
  | .starting => party.checked = []
  | .active tx => tx.Sound ∧ tx.snapshot = party.start ∧ party.checked = []
  | .attempting tx _ _ => Submitted party tx
  | .prepared tx _ base prepared => Submitted party tx ∧ Prepared env tx base prepared
  | .failed tx _ prepared | .checking tx _ prepared _ =>
      Submitted party tx ∧ ∃ base, Prepared env tx base prepared
  | .finished _ => True

structure Commit.Sound (env : Environment) (commit : Commit) : Prop where
  tx : commit.tx.Sound
  snapshot : commit.tx.snapshot = commit.start
  checked : ∀ row ∈ commit.checked, CheckedAgainst commit.tx row
  prepared : Prepared env commit.tx commit.base commit.prepared
  persisted : ∃ now, persistCommit env now commit.prepared commit.before = .ok commit.after

/-- The objects of all changes are in the catalog that an attempt starts with. -/
theorem Transaction.Sound.present
    {tx : Transaction}
    (sound : tx.Sound) :
    ∀ change ∈ (ChangeSet.new tx.changes).changes, ∀ key ∈ change.objects, tx.catalog.Has key :=
  fun change member key object =>
    (sound.recorded change (ChangeSet.mem_of_mem_new _ change member)).present key object

structure System.Sound (env : Environment) (sys : System) : Prop where
  catalogs : ∀ entry ∈ sys.catalogs, entry.2.WellFormed
  parties : ∀ party ∈ sys.parties, party.Sound env
  commits : ∀ commit ∈ sys.history, commit.Sound env

/-! ## The invariant -/

namespace System

section

variable {env : Environment} {sys next : System}

theorem Sound.catalogAt
    (sound : sys.Sound env)
    (info : SnapshotInfo)
    (source : Source)
    (catalog : Catalog)
    (read : sys.catalogAt env info source = some (.ok catalog)) :
    catalog.WellFormed := by
  unfold System.catalogAt at read
  split at read
  · rename_i index
    split at read
    · rename_i version entry found
      split at read
      · cases read
        exact sound.catalogs _ (List.mem_of_getElem? found)
      · cases read
    · cases read
  · split at read
    · have success := Option.some.inj read
      exact (Catalog.load_loaded env sys.db _ catalog success).wellFormed
    · cases read

theorem Sound.rememberCatalog
    (sound : sys.Sound env)
    (info base : SnapshotInfo)
    (source : Source)
    (catalog : Catalog)
    (read : sys.catalogAt env info source = some (.ok catalog)) :
    (sys.rememberCatalog base catalog).Sound env where
  catalogs entry member := by
    rcases List.mem_append.mp member with old | new
    · exact sound.catalogs entry old
    · rw [List.mem_singleton.mp new]
      exact sound.catalogAt info source catalog read
  parties := sound.parties
  commits := sound.commits

theorem Sound.rememberStats
    (sound : sys.Sound env)
    (info : SnapshotInfo)
    (stats : DucklakeResult TableStatsMap) :
    (sys.rememberStats info stats).Sound env := by
  rw [rememberStats_same]
  exact { sound with }

theorem Sound.reads
    (sound : sys.Sound env)
    (base : SnapshotInfo)
    (required : Bool)
    (stats : TableStatsMap)
    (reads : Reads env sys base required stats next) :
    next.Sound env := by
  cases reads with
  | skipped => exact sound
  | read catalogRead statsRead =>
      exact (sound.rememberCatalog base base _ _ catalogRead).rememberStats base _

theorem Sound.gathers
    (sound : sys.Sound env)
    (gathers : Gathers env sys next) :
    next.Sound env := by
  cases gathers with
  | nothing => exact sound
  | catalog read => exact sound.rememberCatalog _ _ _ _ read
  | stats reads => exact sound.reads _ _ _ reads

theorem Sound.setParty
    (sound : sys.Sound env)
    (index : Nat)
    (party : Party)
    (partySound : party.Sound env) :
    (sys.setParty index party).Sound env where
  catalogs := sound.catalogs
  parties other member := by
    rcases List.mem_or_eq_of_mem_set member with inside | rfl
    · exact sound.parties other inside
    · exact partySound
  commits := sound.commits

theorem checkedAgainst_of_check
    (db : Database)
    (party : Party)
    (tx : Ducklake.Transaction)
    (base latest : SnapshotInfo)
    (prepared : PreparedCommit)
    (interim : List AppliedChangeSet)
    (prepares : Prepared env tx base prepared)
    (read : getSnapshotChanges db party.start.id latest.id = .ok interim)
    (compatible : checkInterimChanges tx.catalog
      ((ChangeSet.new tx.changes).appliedChangeSet prepared.state).1 interim = .ok ()) :
    ∀ row ∈ snapshotChangesBetween db party.start.id latest.id, CheckedAgainst tx row := by
  intro row member
  obtain ⟨stats, success⟩ := prepares
  obtain ⟨other, inside, parsed⟩ := mem_of_mapM_eq_ok read row member
  exact ⟨_, prepared.state, other, rfl, prepareCommit_extends env _ _ _ success, parsed,
    forM_eq_ok.mp compatible other inside⟩

theorem Sound.advances
    (sound : sys.Sound env)
    (index : Nat)
    (party : Party)
    (member : party ∈ sys.parties)
    (move : Move)
    (advances : Advances env sys index party move next) :
    next.Sound env := by
  have partySound := sound.parties party member
  unfold Party.Sound at partySound
  cases advances with
  | loaded phase read =>
      rw [phase] at partySound
      refine (sound.rememberCatalog _ _ _ _ read).setParty index _ ?_
      exact ⟨sound_new _ _ (sound.catalogAt _ _ _ read), rfl, partySound⟩
  | operated phase read result =>
      rw [phase] at partySound
      obtain ⟨txSound, snapshot, unchecked⟩ := partySound
      refine (sound.rememberStats _ _).setParty index _ ?_
      have extension := (operated_edited _ _ result).extends txSound.catalog
      exact ⟨txSound.extends _ extension, extension.snapshot.trans snapshot, unchecked⟩
  | submitted phase filled =>
      rw [phase] at partySound
      obtain ⟨txSound, snapshot, unchecked⟩ := partySound
      exact sound.setParty index _ ⟨txSound, snapshot, by simp [unchecked]⟩
  | prepared phase reads success =>
      rw [phase] at partySound
      exact (sound.reads _ _ _ reads).setParty index _ ⟨{ partySound with }, _, success⟩
  | @committed tx attempt base prepared now after phase success =>
      rw [phase] at partySound
      obtain ⟨submitted, prepares⟩ := partySound
      have recorded : (sys.recordCommit {
          party := index
          start := party.start
          tx := tx
          base := base
          prepared := prepared
          checked := party.checked
          before := sys.db
          after := after } now).Sound env := {
        catalogs := sound.catalogs
        parties := sound.parties
        commits := by
          intro commit commitMember
          rcases List.mem_append.mp commitMember with old | new
          · exact sound.commits commit old
          · rw [List.mem_singleton.mp new]
            exact ⟨submitted.sound, submitted.snapshot, submitted.checked, prepares, now, success⟩ }
      exact recorded.setParty index _ trivial
  | refused phase failure retryable =>
      rw [phase] at partySound
      exact sound.setParty index _ ⟨{ partySound.1 with }, _, partySound.2⟩
  | refreshed phase read =>
      rw [phase] at partySound
      exact sound.setParty index _ ⟨{ partySound.1 with }, partySound.2⟩
  | checked phase read compatible below =>
      rw [phase] at partySound
      obtain ⟨submitted, base, prepares⟩ := partySound
      refine sound.setParty index _ ?_
      refine { sound := submitted.sound, snapshot := submitted.snapshot, checked := ?_ }
      intro row rowMember
      rcases List.mem_append.mp rowMember with old | new
      · exact submitted.checked row old
      · exact checkedAgainst_of_check sys.db party _ base _ _ _ prepares read compatible row new
  | ended unfinished gathers => exact (sound.gathers gathers).setParty index _ trivial

theorem Sound.step
    (sound : sys.Sound env)
    (label : Label)
    (stepped : System.step env sys label = some next) :
    next.Sound env := by
  cases step_outcome env sys next label stepped with
  | began read =>
      refine { sound with parties := ?_ }
      intro party member
      rcases List.mem_append.mp member with old | new
      · exact sound.parties party old
      · rw [List.mem_singleton.mp new]
        rfl
  | unchanged => exact sound
  | moved found advances => exact sound.advances _ _ (List.mem_of_getElem? found) _ advances
  | expired read success =>
      exact { sound.rememberCatalog _ _ _ _ read with }
  | kept read => exact sound.rememberCatalog _ _ _ _ read

end

theorem init_sound (env : Environment) (now : Int) : (init now).Sound env where
  catalogs := by simp [init]
  parties := by simp [init]
  commits := by simp [init]

theorem reachable_sound
    (env : Environment)
    (allowed : System → Label → Prop)
    (now : Int)
    (sys : System)
    (run : Reachable env allowed now sys) :
    sys.Sound env :=
  run.invariant (System.Sound env) (init_sound env now)
    (fun _ label _ sound _ stepped => sound.step label stepped)

/-! ## What holds of every transaction -/

end System

def Phase.transaction : Phase → Option Transaction
  | .active tx | .attempting tx _ _ | .prepared tx _ _ _ | .failed tx _ _ | .checking tx _ _ _ =>
      some tx
  | .starting | .finished _ => none

theorem Party.Sound.transaction
    {env : Environment}
    {party : Party}
    (sound : party.Sound env)
    (tx : Transaction)
    (working : party.phase.transaction = some tx) :
    tx.Sound ∧ tx.snapshot = party.start := by
  unfold Party.Sound at sound
  cases phase : party.phase with
  | starting | finished =>
      rw [phase] at working
      cases working
  | active other =>
      rw [phase] at sound working
      cases working
      exact ⟨sound.1, sound.2.1⟩
  | attempting other =>
      rw [phase] at sound working
      cases working
      exact ⟨sound.sound, sound.snapshot⟩
  | prepared other | failed other | checking other =>
      rw [phase] at sound working
      cases working
      exact ⟨sound.1.sound, sound.1.snapshot⟩

namespace System

/-- Something holds of all transactions, the open and the committed ones. -/
structure Transactions (sys : System) (holds : Ducklake.Transaction → Prop) : Prop where
  parties : ∀ party ∈ sys.parties, ∀ tx, party.phase.transaction = some tx → holds tx
  commits : ∀ commit ∈ sys.history, holds commit.tx

section

variable {env : Environment} {sys next : System} {holds : Ducklake.Transaction → Prop}

theorem Transactions.setPhase
    (transactions : sys.Transactions holds)
    (index : Nat)
    (party : Party)
    (phase : Phase)
    (sound : ∀ tx, phase.transaction = some tx → holds tx) :
    (sys.setPhase index party phase).Transactions holds where
  parties other member tx working := by
    rcases List.mem_or_eq_of_mem_set member with inside | rfl
    · exact transactions.parties other inside tx working
    · exact sound tx working
  commits := transactions.commits

theorem Transactions.of_same
    (transactions : sys.Transactions holds)
    (catalogs : List (Int × Catalog))
    (statistics : List ((Int × Int) × TableStatsMap)) :
    { sys with catalogs := catalogs, statistics := statistics }.Transactions holds :=
  { transactions with }

theorem Transactions.advances
    (transactions : sys.Transactions holds)
    (index : Nat)
    (party : Party)
    (member : party ∈ sys.parties)
    (move : Move)
    (initial : ∀ source catalog, sys.catalogAt env party.start source = some (.ok catalog) →
      holds (.new party.start catalog))
    (worked : ∀ operation source stats tx next, move = .operate operation source →
      party.phase.transaction = some tx → holds tx →
        Edited env sys.db stats operation tx next → holds next)
    (advances : Advances env sys index party move next) :
    next.Transactions holds := by
  have own := transactions.parties party member
  cases advances with
  | loaded phase read =>
      refine (transactions.of_same _ _).setPhase index party _ fun tx working => ?_
      cases working
      exact initial _ _ read
  | operated phase read result =>
      have working : party.phase.transaction = some _ := congrArg Phase.transaction phase
      rw [rememberStats_same]
      refine (transactions.of_same _ _).setPhase index party _ fun tx worked_ => ?_
      cases worked_
      exact worked _ _ _ _ _ rfl working (own _ working) (operated_edited _ _ result)
  | submitted phase filled =>
      rw [phase] at own
      exact transactions.setPhase index party _ own
  | prepared phase reads success =>
      rw [phase] at own
      rw [reads.same]
      exact (transactions.of_same _ _).setPhase index party _ own
  | @committed tx attempt base prepared now after phase success =>
      rw [phase] at own
      have recorded : (sys.recordCommit {
          party := index
          start := party.start
          tx := tx
          base := base
          prepared := prepared
          checked := party.checked
          before := sys.db
          after := after } now).Transactions holds := {
        parties := transactions.parties
        commits := by
          intro commit commitMember
          rcases List.mem_append.mp commitMember with old | new
          · exact transactions.commits commit old
          · rw [List.mem_singleton.mp new]
            exact own tx rfl }
      exact recorded.setPhase index party _ fun tx working => nomatch working
  | refused phase failure retryable =>
      rw [phase] at own
      exact transactions.setPhase index party _ own
  | refreshed phase read =>
      rw [phase] at own
      exact transactions.setPhase index party _ own
  | checked phase read compatible below =>
      rw [phase] at own
      exact transactions.setPhase index _ _ own
  | ended unfinished gathers =>
      rw [gathers.same]
      exact (transactions.of_same _ _).setPhase index _ _ fun tx working => nomatch working

/-- What holds of a new transaction and survives the operations of a run holds of all. -/
theorem reachable_transactions
    (env : Environment)
    (allowed : System → Label → Prop)
    (now : Int)
    (sys : System)
    (initial : ∀ info catalog, holds (.new info catalog))
    (worked : ∀ state index operation source stats tx next,
      allowed state (.move index (.operate operation source)) → holds tx →
      Edited env state.db stats operation tx next → holds next)
    (run : Reachable env allowed now sys) :
    sys.Transactions holds := by
  refine run.invariant (fun sys => sys.Transactions holds) ⟨by simp [init], by simp [init]⟩ ?_
  intro sys label next transactions permitted stepped
  cases step_outcome env sys next label stepped with
  | began read =>
      refine { transactions with parties := ?_ }
      intro party member tx working
      rcases List.mem_append.mp member with old | new
      · exact transactions.parties party old tx working
      · rw [List.mem_singleton.mp new] at working
        cases working
  | unchanged => exact transactions
  | moved found advances =>
      refine transactions.advances _ _ (List.mem_of_getElem? found) _
        (fun _ catalog _ => initial _ catalog) ?_ advances
      rintro operation source stats tx next rfl _
      exact worked sys _ operation source stats tx next permitted
  | expired read success => exact { transactions with }
  | kept read => exact { transactions with }

/-- What holds of new transactions and survives every edit holds of all transactions. -/
theorem reachable_edited
    (env : Environment)
    (allowed : System → Label → Prop)
    (now : Int)
    (sys : System)
    (initial : ∀ info catalog, catalog.WellFormed → holds (.new info catalog))
    (edited : ∀ db stats method (tx : Ducklake.Transaction) changes catalog, tx.Sound →
      holds tx → Edit env db stats method tx.catalog changes catalog →
        holds { tx with catalog := catalog, changes := tx.changes ++ changes })
    (run : Reachable env allowed now sys) :
    sys.Transactions holds := by
  have guarded : sys.Transactions fun tx =>
      tx.startCatalog.WellFormed → tx.Sound ∧ holds tx := by
    refine reachable_transactions env allowed now sys (fun info catalog sound =>
      ⟨sound_new info catalog sound, initial info catalog sound⟩) ?_ run
    intro state index operation source stats tx next _ before work
    have start : next.startCatalog = tx.startCatalog := by
      induction work with
      | refl => rfl
      | tail _ edit ih =>
          obtain ⟨changes, _, result⟩ := edit
          rw [result]
          exact ih
    rw [start]
    intro sound
    obtain ⟨txSound, held⟩ := before sound
    exact ⟨txSound.extends next (Edited.extends txSound.catalog work),
      Edited.invariant holds txSound held (edited _ _ _) work⟩
  have all := reachable_sound env allowed now sys run
  constructor
  · intro party member tx working
    have sound := (all.parties party member).transaction tx working
    exact (guarded.parties party member tx working sound.1.startCatalog).2
  · intro commit member
    exact (guarded.commits commit member (all.commits commit member).tx.startCatalog).2

end

/-! ## Steps that commit -/

theorem step_commits
    (env : Environment)
    (sys next : System)
    (label : Label)
    (transactional : label.isExpiration = false)
    (stepped : step env sys label = some next) :
    (next.db = sys.db ∧ next.known = sys.known ∧ next.history = sys.history) ∨
      ∃ commit now, persistCommit env now commit.prepared sys.db = .ok commit.after ∧
        next.db = commit.after ∧
        next.known = sys.known ++ [.ofSnapshot (commit.prepared.state.snapshot now)] ∧
        next.history = sys.history ++ [commit] := by
  cases step_outcome env sys next label stepped with
  | began read => exact Or.inl ⟨rfl, rfl, rfl⟩
  | unchanged => exact Or.inl ⟨rfl, rfl, rfl⟩
  | expired | kept => cases transactional
  | @moved index party move next found advances =>
      cases advances with
      | loaded | submitted | refused | refreshed | checked => exact Or.inl ⟨rfl, rfl, rfl⟩
      | operated =>
          rw [rememberStats_same]
          exact Or.inl ⟨rfl, rfl, rfl⟩
      | prepared phase reads =>
          rw [reads.same]
          exact Or.inl ⟨rfl, rfl, rfl⟩
      | ended unfinished gathers =>
          rw [gathers.same]
          exact Or.inl ⟨rfl, rfl, rfl⟩
      | @committed tx attempt base prepared now after phase success =>
          exact Or.inr ⟨{
            party := index
            start := party.start
            tx := tx
            base := base
            prepared := prepared
            checked := party.checked
            before := sys.db
            after := after }, now, success, rfl, rfl, rfl⟩

end System

end Ducklake
