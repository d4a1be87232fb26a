import Ducklake.System

/-!
# What a step can do

Every outcome of a step, said once.
-/

set_option autoImplicit false

namespace Ducklake.System

open Lib Caches Spec Maintenance Transaction

/-- The statistics that an attempt builds on, and the system that has read them. -/
inductive Reads (env : Environment) (sys : System) (base : SnapshotInfo) :
    Bool → TableStatsMap → System → Prop where
  | skipped : Reads env sys base false .empty sys
  | read {catalog : Catalog} {stats : TableStatsMap} {catalogSource statsSource : Source}
      (catalogRead : sys.catalogAt env base catalogSource = some (.ok catalog))
      (statsRead : (sys.rememberCatalog base catalog).statsAt env base catalog statsSource =
        some (.ok stats)) :
      Reads env sys base true stats
        ((sys.rememberCatalog base catalog).rememberStats base (.ok stats))

/-- The system before it ends a transaction without a commit. -/
inductive Gathers (env : Environment) (sys : System) : System → Prop where
  | nothing : Gathers env sys sys
  | catalog {base : SnapshotInfo} {catalog : Catalog} {source : Source}
      (catalogRead : sys.catalogAt env base source = some (.ok catalog)) :
      Gathers env sys (sys.rememberCatalog base catalog)
  | stats {base : SnapshotInfo} {required : Bool} {stats : TableStatsMap} {middle : System}
      (reads : Reads env sys base required stats middle) : Gathers env sys middle

inductive Advances (env : Environment) (sys : System) (index : Nat) (party : Party) :
    Move → System → Prop where
  | loaded {source : Source} {catalog : Catalog}
      (phase : party.phase = .starting)
      (read : sys.catalogAt env party.start source = some (.ok catalog)) :
      Advances env sys index party (.loadCatalog source)
        ((sys.rememberCatalog party.start catalog).setPhase index party
          (.active (.new party.start catalog)))
  | operated {tx next : Ducklake.Transaction} {operation : Operation} {source : Source}
      {stats : DucklakeResult TableStatsMap}
      (phase : party.phase = .active tx)
      (read : sys.statsAt env party.start tx.startCatalog source = some stats)
      (result : operation.execute env sys.db stats tx = .ok next ∨
        (∃ err, operation.execute env sys.db stats tx = .error err) ∧
          next = operation.afterError sys.db tx) :
      Advances env sys index party (.operate operation source)
        ((sys.rememberStats party.start stats).setPhase index party (.active next))
  | submitted {tx : Ducklake.Transaction}
      (phase : party.phase = .active tx)
      (filled : (ChangeSet.new tx.changes).isEmpty = false) :
      Advances env sys index party .submit
        (sys.setPhase index party (.attempting tx 0 party.start))
  | prepared {tx : Ducklake.Transaction} {attempt : Nat} {base : SnapshotInfo}
      {stats : TableStatsMap} {middle : System} {prepared : PreparedCommit}
      {catalogSource statsSource : Source}
      (phase : party.phase = .attempting tx attempt base)
      (reads : Reads env sys base (ChangeSet.new tx.changes).requiresTableStats stats middle)
      (success : prepareCommit env (ChangeSet.new tx.changes)
        (.new base tx.catalog (ChangeSet.new tx.changes).changesSchema stats) = .ok prepared) :
      Advances env sys index party (.prepare catalogSource statsSource)
        (middle.setPhase index party (.prepared tx attempt base prepared))
  | committed {tx : Ducklake.Transaction} {attempt : Nat} {base : SnapshotInfo}
      {prepared : PreparedCommit} {now : Int} {after : Database}
      (phase : party.phase = .prepared tx attempt base prepared)
      (success : persistCommit env now prepared sys.db = .ok after) :
      Advances env sys index party (.persist now) ((sys.recordCommit {
        party := index
        start := party.start
        tx := tx
        base := base
        prepared := prepared
        checked := party.checked
        before := sys.db
        after := after } now).setPhase index party
          (.finished (.ok (some prepared.state.snapshotId))))
  | refused {tx : Ducklake.Transaction} {attempt : Nat} {base : SnapshotInfo}
      {prepared : PreparedCommit} {now : Int} {err : DucklakeError}
      (phase : party.phase = .prepared tx attempt base prepared)
      (failure : persistCommit env now prepared sys.db = .error err)
      (retryable : isRetryable (attempt = maxRetryCount) err) :
      Advances env sys index party (.persist now)
        (sys.setPhase index party (.failed tx attempt prepared))
  | refreshed {tx : Ducklake.Transaction} {attempt : Nat} {prepared : PreparedCommit}
      {latest : SnapshotInfo}
      (phase : party.phase = .failed tx attempt prepared)
      (read : latestSnapshot sys.db = .ok latest) :
      Advances env sys index party .refresh
        (sys.setPhase index party (.checking tx attempt prepared latest))
  | checked {tx : Ducklake.Transaction} {attempt : Nat} {prepared : PreparedCommit}
      {latest : SnapshotInfo} {interim : List AppliedChangeSet}
      (phase : party.phase = .checking tx attempt prepared latest)
      (read : getSnapshotChanges sys.db party.start.id latest.id = .ok interim)
      (compatible : checkInterimChanges tx.catalog
        ((ChangeSet.new tx.changes).appliedChangeSet prepared.state).1 interim = .ok ())
      (below : attempt < maxRetryCount) :
      Advances env sys index party .check (sys.setPhase index { party with
        checked := party.checked ++ snapshotChangesBetween sys.db party.start.id latest.id }
          (.attempting tx (attempt + 1) latest))
  | ended {middle : System} {result : DucklakeResult (Option Int)}
      {seen : List DucklakeSnapshotChanges} {move : Move}
      (unfinished : party.phase.isFinished = false)
      (gathers : Gathers env sys middle) :
      Advances env sys index party move
        (middle.setPhase index { party with checked := seen } (.finished result))

section

variable (env : Environment) (sys next : System) (index : Nat) (party : Party)

theorem loadCatalog_advances
    (source : Source)
    (success : sys.loadCatalog env index party source = some next) :
    Advances env sys index party (.loadCatalog source) next := by
  unfold loadCatalog at success
  split at success
  · rename_i phase
    obtain ⟨result, read, rfl⟩ := Option.map_eq_some_iff.mp success
    cases result with
    | ok catalog => exact .loaded phase read
    | error err =>
        exact .ended (by rw [phase]; rfl) .nothing
  · cases success

theorem operate_advances
    (operation : Operation)
    (source : Source)
    (success : sys.operate env index party operation source = some next) :
    Advances env sys index party (.operate operation source) next := by
  unfold operate at success
  split at success
  · rename_i tx phase
    obtain ⟨stats, read, rfl⟩ := Option.map_eq_some_iff.mp success
    refine .operated phase read ?_
    cases executed : operation.execute env sys.db stats tx with
    | ok result => exact Or.inl rfl
    | error err => exact Or.inr ⟨⟨err, rfl⟩, rfl⟩
  · cases success

theorem submit_advances
    (success : sys.submit index party = some next) :
    Advances env sys index party .submit next := by
  unfold submit at success
  split at success
  · rename_i tx phase
    split at success
    · cases success
      exact .ended (by rw [phase]; rfl) .nothing
    · rename_i filled
      cases success
      exact .submitted phase (by simpa using filled)
  · cases success

theorem prepareWith_advances
    (tx : Ducklake.Transaction)
    (attempt : Nat)
    (base : SnapshotInfo)
    (stats : TableStatsMap)
    (middle : System)
    (catalogSource statsSource : Source)
    (phase : party.phase = .attempting tx attempt base)
    (reads : Reads env sys base (ChangeSet.new tx.changes).requiresTableStats stats middle) :
    Advances env sys index party (.prepare catalogSource statsSource)
      (middle.prepareWith env index party tx attempt base stats) := by
  unfold prepareWith
  dsimp only
  split
  · rename_i prepared success
    exact .prepared phase reads success
  · exact .ended (by rw [phase]; rfl) (.stats reads)

theorem prepare_advances
    (catalogSource statsSource : Source)
    (success : sys.prepare env index party catalogSource statsSource = some next) :
    Advances env sys index party (.prepare catalogSource statsSource) next := by
  unfold prepare at success
  split at success
  · rename_i tx attempt base phase
    cases required : (ChangeSet.new tx.changes).requiresTableStats with
    | false =>
        simp only [required, Bool.false_eq_true, if_false, Option.some.injEq] at success
        subst success
        exact prepareWith_advances env sys index party tx attempt base .empty sys _ _ phase
          (required ▸ .skipped)
    | true =>
        simp only [required, if_true] at success
        cases catalogRead : sys.catalogAt env base catalogSource with
        | none => simp [catalogRead] at success
        | some catalogResult =>
            cases catalogResult with
            | error err =>
                simp only [catalogRead, Option.some.injEq] at success
                subst success
                exact .ended (by rw [phase]; rfl) .nothing
            | ok catalog =>
                simp only [catalogRead] at success
                cases statsRead : (sys.rememberCatalog base catalog).statsAt env base catalog
                    statsSource with
                | none => simp [statsRead] at success
                | some statsResult =>
                    cases statsResult with
                    | error err =>
                        simp only [statsRead, Option.some.injEq] at success
                        subst success
                        exact .ended (by rw [phase]; rfl) (.catalog catalogRead)
                    | ok stats =>
                        simp only [statsRead, Option.some.injEq] at success
                        subst success
                        exact prepareWith_advances env sys index party tx attempt base stats _ _ _
                          phase (required ▸ .read catalogRead statsRead)
  · cases success

theorem persist_advances
    (now : Int)
    (success : sys.persist env index party now = some next) :
    Advances env sys index party (.persist now) next := by
  unfold persist at success
  split at success
  · rename_i tx attempt base prepared phase
    split at success
    · rename_i after persisted
      cases success
      exact .committed phase persisted
    · rename_i err failure
      split at success
      · rename_i retryable
        cases success
        exact .refused phase failure retryable
      · cases success
        exact .ended (by rw [phase]; rfl) .nothing
  · cases success

theorem refresh_advances
    (success : sys.refresh index party = some next) :
    Advances env sys index party .refresh next := by
  unfold refresh at success
  split at success
  · rename_i tx attempt prepared phase
    split at success
    · rename_i latest read
      cases success
      exact .refreshed phase read
    · cases success
      exact .ended (by rw [phase]; rfl) .nothing
  · cases success

theorem check_advances
    (success : sys.check index party = some next) :
    Advances env sys index party .check next := by
  unfold check at success
  split at success
  · rename_i tx attempt prepared latest phase
    dsimp only at success
    split at success
    · cases success
      exact .ended (by rw [phase]; rfl) .nothing
    · rename_i verdict
      obtain ⟨interim, read, compatible⟩ := bind_eq_ok.mp verdict
      split at success
      · rename_i below
        cases success
        exact .checked phase read compatible below
      · cases success
        exact .ended (by rw [phase]; rfl) .nothing
  · cases success

theorem moveParty_advances
    (move : Move)
    (success : sys.moveParty env index party move = some next) :
    Advances env sys index party move next := by
  cases move with
  | loadCatalog source => exact loadCatalog_advances env sys next index party source success
  | operate operation source =>
      exact operate_advances env sys next index party operation source success
  | submit => exact submit_advances env sys next index party success
  | prepare catalogSource statsSource =>
      exact prepare_advances env sys next index party catalogSource statsSource success
  | persist now => exact persist_advances env sys next index party now success
  | refresh => exact refresh_advances env sys next index party success
  | check => exact check_advances env sys next index party success
  | abandon =>
      simp only [moveParty] at success
      split at success
      · cases success
      · rename_i unfinished
        cases success
        exact .ended (by simpa using unfinished) .nothing

end

/-- The outcomes of any step. -/
inductive Outcome (env : Environment) (sys : System) : Label → System → Prop where
  | began {info : SnapshotInfo} (read : latestSnapshot sys.db = .ok info) :
      Outcome env sys .begin { sys with
        parties := sys.parties ++ [{ start := info, phase := .starting, checked := [] }] }
  | unchanged {label : Label} : Outcome env sys label sys
  | moved {index : Nat} {party : Party} {move : Move} {next : System}
      (found : sys.parties[index]? = some party)
      (advances : Advances env sys index party move next) : Outcome env sys (.move index move) next
  | expired {filter : SnapshotFilter} {info : SnapshotInfo} {source : Source} {catalog : Catalog}
      {after : Database}
      (read : sys.catalogAt env info source = some (.ok catalog))
      (success : expireSnapshots catalog filter sys.db = .ok after) :
      Outcome env sys (.expire filter info source)
        { sys.rememberCatalog info catalog with db := after }
  | kept {filter : SnapshotFilter} {info : SnapshotInfo} {source : Source} {catalog : Catalog}
      (read : sys.catalogAt env info source = some (.ok catalog)) :
      Outcome env sys (.expire filter info source) (sys.rememberCatalog info catalog)

theorem step_outcome
    (env : Environment)
    (sys next : System)
    (label : Label)
    (stepped : step env sys label = some next) :
    Outcome env sys label next := by
  cases label with
  | begin =>
      simp only [step, Option.some.injEq, begin] at stepped
      split at stepped
      · rename_i info read
        subst stepped
        exact .began read
      · subst stepped
        exact .unchanged
  | move index move =>
      obtain ⟨party, found, moved⟩ := Option.bind_eq_some_iff.mp stepped
      exact .moved found (moveParty_advances env sys next index party move moved)
  | expire filter info source =>
      simp only [step, expire] at stepped
      split at stepped
      · cases stepped
      · cases stepped
        exact .unchanged
      · rename_i catalog read
        split at stepped
        · rename_i after success
          cases stepped
          exact .expired read success
        · cases stepped
          exact .kept read

end Ducklake.System
