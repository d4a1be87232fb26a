import Ducklake.Interleaving.CacheCoherence
import Ducklake.Interleaving.Interim

/-!
# Transactions and the database that they read

The rule for what holds of every transaction together with the rows that are stored: it holds of a
transaction that has just loaded its catalog, and operations and the commits of others keep it.
-/

set_option autoImplicit false

namespace Ducklake

open Lib Caches Spec Maintenance Transaction

namespace System

/-! ## Steps that commit -/

theorem Advances.outcome
    {env : Environment}
    {sys next : System}
    {index : Nat}
    {party : Party}
    {move : Move}
    (advances : Advances env sys index party move next) :
    (next.db = sys.db ∧ next.known = sys.known ∧ next.history = sys.history) ∨
      ∃ tx attempt base prepared time after, move = .persist time ∧
        party.phase = .prepared tx attempt base prepared ∧
        persistCommit env time prepared sys.db = .ok after ∧
        next = (sys.recordCommit {
          party := index
          start := party.start
          tx := tx
          base := base
          prepared := prepared
          checked := party.checked
          before := sys.db
          after := after } time).setPhase index party
            (.finished (.ok (some prepared.state.snapshotId))) := by
  cases advances with
  | loaded | submitted | refused | refreshed | checked => exact Or.inl ⟨rfl, rfl, rfl⟩
  | operated =>
      rw [rememberStats_same]
      exact Or.inl ⟨rfl, rfl, rfl⟩
  | prepared phase reads =>
      rw [reads.same]
      exact Or.inl ⟨rfl, rfl, rfl⟩
  | ended unfinished gathers =>
      rw [gathers.same]
      exact Or.inl ⟨rfl, rfl, rfl⟩
  | committed phase success => exact Or.inr ⟨_, _, _, _, _, _, rfl, phase, success, rfl⟩

inductive StepCommits (env : Environment) (sys next : System) : Prop where
  | nothing
      (db : next.db = sys.db)
      (known : next.known = sys.known)
      (history : next.history = sys.history)
  | one {latest : SnapshotInfo} {commit : Commit} {time : Int}
      (counted : sys.Counted latest)
      (committing : Committing env sys latest commit time)
      (db : next.db = commit.after)
      (known : next.known = sys.known ++ [.ofSnapshot (commit.prepared.state.snapshot time)])
      (history : next.history = sys.history ++ [commit])

theorem stepCommits_of_reachable
    (env : Environment)
    (now : Int)
    (sys next : System)
    (label : Label)
    (run : Reachable env WithoutExpiration now sys)
    (transactional : label.isExpiration = false)
    (stepped : step env sys label = some next) :
    StepCommits env sys next := by
  obtain ⟨latest, counted⟩ := reachable_counted env now sys run
  cases step_outcome env sys next label stepped with
  | began | unchanged => exact .nothing rfl rfl rfl
  | expired | kept => cases transactional
  | @moved index party move next found advances =>
      rcases advances.outcome with ⟨db, known, history⟩ |
        ⟨tx, attempt, base, prepared, time, after, rfl, phase, success, rfl⟩
      · exact .nothing db known history
      · exact .one counted (committing_of_success counted (numbered_of_withoutExpiration run)
          (reachable_sound env _ now sys run) (reachable_partitionsPending env _ now sys run)
          index party (List.mem_of_getElem? found) _ _ _ _ _ _ phase success) rfl rfl rfl

theorem reachable_committed
    (env : Environment)
    (now : Int)
    (sys : System)
    (holds : System → Prop)
    (initial : holds (init now))
    (same : ∀ sys next : System, next.db = sys.db → next.known = sys.known →
      next.history = sys.history → holds sys → holds next)
    (committed : ∀ (sys : System) latest commit time, Reachable env WithoutExpiration now sys →
      holds sys → sys.Counted latest → Committing env sys latest commit time →
        (sys.recordCommit commit time).SnapshotsInOrder → holds (sys.recordCommit commit time))
    (run : Reachable env WithoutExpiration now sys) :
    holds sys := by
  refine run.invariant_of_reached holds initial ?_
  intro sys label next run held transactional stepped
  cases stepCommits_of_reachable env now sys next label run transactional stepped with
  | nothing db known history => exact same sys next db known history held
  | @one latest commit time counted committing db known history =>
      refine same _ next db known history (committed sys _ _ _ run held counted committing ?_)
      have inOrder := (numbered_of_withoutExpiration (run.tail transactional stepped)).inOrder
      unfold SnapshotsInOrder at inOrder
      rw [history] at inOrder
      exact inOrder

/-! ## Transactions with what is stored -/

/-- A transaction that started at a committed snapshot, with what holds of it and the rows. -/
structure Grounded (holds : Database → Ducklake.Transaction → Prop) (sys : System)
    (tx : Ducklake.Transaction) : Prop where
  snapshot : tx.snapshot ∈ sys.known
  sound : tx.Sound
  holds : holds sys.db tx

section

variable {env : Environment} {sys : System} {holds : Database → Ducklake.Transaction → Prop}

theorem Grounded.edited
    {stats : DucklakeResult TableStatsMap}
    {method : Operation}
    {tx next : Ducklake.Transaction}
    (grounded : sys.Grounded holds tx)
    (step : ∀ tx changes catalog, sys.Grounded holds tx →
      Edit env sys.db stats method tx.catalog changes catalog →
        holds sys.db { tx with catalog := catalog, changes := tx.changes ++ changes })
    (edited : Edited env sys.db stats method tx next) :
    sys.Grounded holds next := by
  induction edited with
  | refl => exact grounded
  | @tail middle last earlier edit ih =>
      obtain ⟨changes, edit, result⟩ := edit
      rw [result]
      exact {
        snapshot := ih.snapshot
        sound := ih.sound.extends _ (Edited.extends ih.sound.catalog (.of_edit edit))
        holds := step middle changes _ ih edit }

theorem Transactions.mono
    {weaker : Ducklake.Transaction → Prop}
    {holds : Ducklake.Transaction → Prop}
    (transactions : sys.Transactions holds)
    (weakens : ∀ tx, holds tx → weaker tx) :
    sys.Transactions weaker where
  parties party member tx working := weakens tx (transactions.parties party member tx working)
  commits commit member := weakens _ (transactions.commits commit member)

theorem reachable_grounded
    (env : Environment)
    (allowed : System → Label → Prop)
    (now : Int)
    (sys : System)
    (holds : Database → Ducklake.Transaction → Prop)
    (transactional : ∀ sys label, allowed sys label → WithoutExpiration sys label)
    (initial : ∀ sys : System, Reachable env allowed now sys → ∀ info ∈ sys.known, ∀ catalog,
      catalog.WellFormed → Catalog.load env sys.db info.id = .ok catalog →
        holds sys.db (.new info catalog))
    (edited : ∀ (sys : System) index operation source stats, Reachable env allowed now sys →
      allowed sys (.move index (.operate operation source)) → ∀ tx changes catalog,
        sys.Grounded holds tx →
        Edit env sys.db stats operation tx.catalog changes catalog →
          holds sys.db { tx with catalog := catalog, changes := tx.changes ++ changes })
    (committed : ∀ (sys : System) latest commit time, Reachable env allowed now sys →
      sys.Counted latest → Committing env sys latest commit time →
        ∀ tx, sys.Grounded holds tx → holds commit.after tx)
    (run : Reachable env allowed now sys) :
    sys.Transactions (sys.Grounded holds) := by
  refine run.invariant_of_reached (fun sys => sys.Transactions (sys.Grounded holds))
    ⟨by simp [init], by simp [init]⟩ ?_
  intro sys label next run transactions permitted stepped
  have plain := run.mono transactional
  have sound := reachable_sound env _ now sys run
  obtain ⟨latest, counted⟩ := reachable_counted env now sys plain
  -- The parties and commits of the next system, still with the rows of this one.
  have worked : next.Transactions (sys.Grounded holds) := by
    cases step_outcome env sys next label stepped with
    | began read =>
        refine { transactions with parties := ?_ }
        intro party member tx working
        rcases List.mem_append.mp member with old | new
        · exact transactions.parties party old tx working
        · rw [List.mem_singleton.mp new] at working
          cases working
    | unchanged => exact transactions
    | @moved index party move next found advances =>
        have member := List.mem_of_getElem? found
        refine transactions.advances _ _ member _ ?_ ?_ advances
        · intro source catalog read
          have loaded := (reachable_coherent env now sys plain).catalogAt _ _ _ read _
            (counted.starts party member) rfl
          have wellFormed := sound.catalogAt _ _ _ read
          exact {
            snapshot := counted.starts party member
            sound := sound_new _ _ wellFormed
            holds := initial sys run _ (counted.starts party member) _ wellFormed loaded }
        · rintro operation source stats tx result rfl working grounded work
          exact grounded.edited (edited sys _ _ _ stats run permitted) work
    | expired | kept => cases transactional _ _ permitted
  cases stepCommits_of_reachable env now sys next label plain (transactional _ _ permitted)
      stepped with
  | nothing db known history =>
      refine worked.mono fun tx grounded => ?_
      exact ⟨known ▸ grounded.snapshot, grounded.sound, db ▸ grounded.holds⟩
  | one counted committing db known history =>
      refine worked.mono fun tx grounded => ?_
      refine ⟨?_, grounded.sound, ?_⟩
      · rw [known]
        exact List.mem_append_left _ grounded.snapshot
      · rw [db]
        exact committed sys _ _ _ run counted committing tx grounded

end

end System

end Ducklake
