import Ducklake.Interleaving.Commits
import Ducklake.Transaction.Histories

/-!
# Time travel

What a committed snapshot sees stays the same under all later commits, as long as no tables are
transferred and no snapshots expire.
-/

set_option autoImplicit false

namespace Ducklake

open Lib Caches Spec Maintenance Transaction

/-! ## Files stay where they are -/

section

variable {env : Environment} {db : Database} {stats : DucklakeResult TableStatsMap}
variable {method : Operation}

theorem Edit.detaches
    {before after : Catalog}
    {changes : List Change}
    (edit : Edit env db stats method before changes after) :
    ∀ change ∈ changes, change.detaches = true → method.isTransfer = true := by
  cases edit with
  | deleteTable owned found success =>
      rw [List.forall_mem_singleton]
      exact owned
  | removeColumn found success =>
      intro change member
      obtain ⟨ref, _, rfl⟩ := List.mem_map.mp member
      exact fun impossible => nomatch impossible
  | ensureNextColumnId found success => simp
  | _ =>
      rw [List.forall_mem_singleton]
      exact fun impossible => nomatch impossible

/-- The transaction leaves all files to the tables they belong to. -/
def Transaction.KeepsFiles (tx : Transaction) : Prop :=
  ∀ change ∈ tx.changes, change.detaches = false

theorem Transaction.KeepsFiles.edited
    {tx next : Transaction}
    (keeps : tx.KeepsFiles)
    (plain : method.isTransfer = false)
    (edited : Edited env db stats method tx next) :
    next.KeepsFiles := by
  induction edited with
  | refl => exact keeps
  | tail _ edit ih =>
      obtain ⟨changes, edit, result⟩ := edit
      intro change member
      rw [result] at member
      rcases List.mem_append.mp member with old | new
      · exact ih change old
      · have owned := edit.detaches change new
        simpa [plain] using owned

end

namespace System

def Label.isTransfer : Label → Bool
  | .move _ (.operate operation _) => operation.isTransfer
  | _ => false

/-- Commits of any operations, but those of a table transfer. -/
def CommitsOnly (_ : System) (label : Label) : Prop :=
  label.isExpiration = false ∧ label.isTransfer = false

theorem withoutExpiration_of_commitsOnly
    (sys : System)
    (label : Label)
    (commits : CommitsOnly sys label) :
    WithoutExpiration sys label :=
  commits.1

theorem commitsOnly_keepsFiles
    (env : Environment)
    (now : Int)
    (sys : System)
    (run : Reachable env CommitsOnly now sys) :
    sys.Transactions Ducklake.Transaction.KeepsFiles := by
  refine reachable_transactions env CommitsOnly now sys
    (fun _ _ => by simp [Ducklake.Transaction.KeepsFiles, Ducklake.Transaction.new]) ?_ run
  intro state index operation source stats tx next permitted keeps edited
  have plain : operation.isTransfer = false := permitted.2
  exact keeps.edited plain edited

/-! ## Ids of the committed snapshots -/

section

variable {env : Environment} {now : Int} {sys next : System} {label : Label}

theorem numbered_of_withoutExpiration
    (run : Reachable env WithoutExpiration now sys) :
    sys.Numbered :=
  reachable_numbered env now sys (run.mono retainsInterim_of_withoutExpiration)

theorem snapshotId_of_appended
    (numbered : next.Numbered)
    (commit : Commit)
    (history : next.history = sys.history ++ [commit]) :
    commit.snapshotId = sys.history.length + 1 := by
  have ids := numbered.ids
  rw [history, List.length_append, List.length_singleton, List.range_succ, List.map_append,
    List.map_append] at ids
  simpa using (List.append_inj ids (by simp)).2

theorem known_le_length
    (run : Reachable env WithoutExpiration now sys) :
    ∀ info ∈ sys.known, info.id ≤ sys.history.length := by
  refine run.invariant_of_reached (fun sys => ∀ info ∈ sys.known, info.id ≤ sys.history.length)
    (by simp [init]) ?_
  intro sys label next run bounded transactional stepped
  rcases step_commits env sys next label transactional stepped with
    ⟨_, known, history⟩ | ⟨commit, time, _, _, known, history⟩
  · rw [known, history]
    exact bounded
  · have latest := snapshotId_of_appended
      (numbered_of_withoutExpiration (run.tail transactional stepped)) commit history
    rw [known, history, List.length_append, List.length_singleton]
    intro info member
    rcases List.mem_append.mp member with old | new
    · have below := bounded info old
      omega
    · rw [List.mem_singleton.mp new]
      exact Int.le_of_eq latest

/-! ## Stability -/

theorem step_updates
    (run : Reachable env CommitsOnly now sys)
    (permitted : CommitsOnly sys label)
    (stepped : step env sys label = some next) :
    next.db = sys.db ∨ sys.db.Updates (sys.history.length + 1) next.db := by
  have transactional := withoutExpiration_of_commitsOnly sys label permitted
  have extended : Reachable env CommitsOnly now next := run.tail permitted stepped
  rcases step_commits env sys next label transactional stepped with
    ⟨same, _, _⟩ | ⟨commit, time, persisted, db, _, history⟩
  · exact Or.inl same
  · right
    have member : commit ∈ next.history := by simp [history]
    have sound := (reachable_sound env _ now next extended).commits commit member
    obtain ⟨stats, success⟩ := sound.prepared
    have keeps := (commitsOnly_keepsFiles env now next extended).commits commit member
    have latest := snapshotId_of_appended (numbered_of_withoutExpiration
      (extended.mono withoutExpiration_of_commitsOnly)) commit history
    rw [db, ← latest]
    exact prepareCommit_updates env _ _ commit.prepared time sys.db commit.after sound.tx.present
      (fun change inside => keeps change (ChangeSet.mem_of_mem_new _ change inside)) success
      persisted

end

/-- Every snapshot sees the same rows after any later commits as it saw before. -/
theorem sameAt_of_commitsOnly
    (env : Environment)
    (now : Int)
    (sys later : System)
    (info : SnapshotInfo)
    (run : Reachable env CommitsOnly now sys)
    (known : info ∈ sys.known)
    (continued : Reaches (step env) CommitsOnly sys later) :
    sys.db.SameAt info.id later.db := by
  have stable : Reachable env CommitsOnly now later ∧ info ∈ later.known ∧
      sys.db.SameAt info.id later.db := by
    refine continued.invariant (fun state => Reachable env CommitsOnly now state ∧
      info ∈ state.known ∧ sys.db.SameAt info.id state.db) ⟨run, known, .refl _ _⟩ ?_
    rintro state label next ⟨reached, member, same⟩ permitted stepped
    have transactional := withoutExpiration_of_commitsOnly state label permitted
    have bound := known_le_length (reached.mono withoutExpiration_of_commitsOnly) info member
    refine ⟨reached.tail permitted stepped, ?_, same.trans ?_⟩
    · rcases step_commits env state next label transactional stepped with
        ⟨_, unchanged, _⟩ | ⟨commit, time, _, _, appended, _⟩
      · rw [unchanged]
        exact member
      · rw [appended]
        exact List.mem_append_left _ member
    · rcases step_updates reached permitted stepped with unchanged | updates
      · rw [unchanged]
        exact .refl _ _
      · exact updates.sameAt (by omega)
  exact stable.2.2

def createdSchema : List Label :=
  .begin :: working 0 ⟨0, 0, 1, 0⟩ [.createSchema "a".toList none .fail] ++
    committing 0 ⟨0, 0, 1, 0⟩

def droppedSchema : List Label :=
  .begin :: working 1 ⟨1, 1, 2, 0⟩ [.deleteSchema "a".toList false .fail] ++
    committing 1 ⟨1, 1, 2, 0⟩

theorem sameAt_droppedSchema :
    ∃ sys later, createdSchema.foldlM (step .plain) (init 0) = some sys ∧
      droppedSchema.foldlM (step .plain) sys = some later ∧
      later.history.map Commit.snapshotId = [1, 2] ∧ sys.db.SameAt 1 later.db := by
  have runs : (createdSchema.foldlM (step .plain) (init 0)).bind (fun sys =>
      (droppedSchema.foldlM (step .plain) sys).map fun later =>
        (sys.known, later.history.map Commit.snapshotId)) =
      some ([⟨0, 0, 1, 0⟩, ⟨1, 1, 2, 0⟩], [1, 2]) := by decide +kernel
  obtain ⟨sys, created, runs⟩ := Option.bind_eq_some_iff.mp runs
  obtain ⟨later, dropped, facts⟩ := Option.map_eq_some_iff.mp runs
  obtain ⟨known, ids⟩ := Prod.mk.inj facts
  have createdPermitted : ∀ label ∈ createdSchema,
      label.isExpiration = false ∧ label.isTransfer = false := by decide
  have droppedPermitted : ∀ label ∈ droppedSchema,
      label.isExpiration = false ∧ label.isTransfer = false := by decide
  exact ⟨sys, later, created, dropped, ids,
    sameAt_of_commitsOnly .plain 0 sys later ⟨1, 1, 2, 0⟩
      (Reaches.of_foldlM createdSchema (fun _ => createdPermitted) created) (by simp [known])
      (Reaches.of_foldlM droppedSchema (fun _ => droppedPermitted) dropped)⟩

end System

end Ducklake
