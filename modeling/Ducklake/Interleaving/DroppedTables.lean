import Ducklake.Interleaving.LiveTables

/-!
# Dropped tables

A table that some snapshot sees is live as long as no later commit records its drop.  So the
tables that a commit writes to are live when it commits.
-/

set_option autoImplicit false

namespace Ducklake

open Lib Caches Spec Maintenance Transaction

/-! ## Recorded drops -/

namespace Transaction

def DropsDeleted (changes : List Change) (collected : TransactionChanges × CommitState) : Prop :=
  ∀ id ∈ collected.1.droppedTables, ∃ ref detachFiles, .deleteTable ref detachFiles ∈ changes ∧
    collected.2.catalog.idOf (.table ref) = some id

theorem Collects.dropsDeleted
    {env : Environment}
    {changes : List Change}
    {before after : TransactionChanges × CommitState}
    (deleted : DropsDeleted changes before)
    (step : Collects env changes before after) :
    DropsDeleted changes after := by
  have extends_ := step.extends
  have kept : ∀ id ∈ before.1.droppedTables, ∃ ref detachFiles,
      .deleteTable ref detachFiles ∈ changes ∧ after.2.catalog.idOf (.table ref) = some id := by
    intro id dropped
    obtain ⟨ref, detachFiles, member, found⟩ := deleted id dropped
    exact ⟨ref, detachFiles, member, extends_.kept _ _ found⟩
  cases step with
  | deletedTable member found =>
      refine List.forall_mem_append.mpr ⟨kept, fun id inside => ?_⟩
      rw [List.mem_singleton.mp inside]
      exact ⟨_, _, member, found⟩
  | wroteFile member inside found success =>
      have same := addDataFile_same env _ _ _ _ _ success
      unfold SameExceptData at same
      intro id dropped
      rw [same] at dropped
      exact kept id dropped
  | @inlined _ _ ref member changed =>
      have same := createInlinedTable_same env before ref
      unfold SameExceptData at same
      intro id dropped
      rw [same] at dropped
      exact kept id dropped
  | _ => exact kept

theorem Collected.dropsDeleted
    {env : Environment}
    {changes : List Change}
    {before after : TransactionChanges × CommitState}
    (deleted : DropsDeleted changes before)
    (steps : Collected env changes before after) :
    DropsDeleted changes after := by
  induction steps with
  | refl => exact deleted
  | tail _ step ih => exact step.dropsDeleted ih

theorem droppedTable_deleted
    (env : Environment)
    (tx : Transaction)
    (base : SnapshotInfo)
    (prepared : PreparedCommit)
    (sound : tx.Sound)
    (prepares : Prepared env tx base prepared)
    (id : Int)
    (dropped : id ∈ prepared.changes.droppedTables) :
    ∃ ref detachFiles, .deleteTable ref detachFiles ∈ (ChangeSet.new tx.changes).changes ∧
      prepared.state.catalog.idOf (.table ref) = some id := by
  obtain ⟨stats, success⟩ := prepares
  obtain ⟨applied, executed, _, later⟩ := prepareCommit_eq_ok env _ _ _ success
  have nothing : ∀ state, DropsDeleted (ChangeSet.new tx.changes).changes
      (TransactionChanges.empty, state) := fun _ _ member => absurd member List.not_mem_nil
  have deleted := Collected.dropsDeleted (nothing _)
    (ChangeSet.apply_collected env _ _ _ sound.present executed)
  obtain ⟨ref, detachFiles, member, found⟩ := deleted id dropped
  exact ⟨ref, detachFiles, member,
    later.kept _ _ ((ChangeSet.appliedChangeSet_extends _ applied).kept _ _ found)⟩

theorem droppedTable_recorded
    (env : Environment)
    (tx : Transaction)
    (base : SnapshotInfo)
    (prepared : PreparedCommit)
    (sound : tx.Sound)
    (prepares : Prepared env tx base prepared)
    (id : Int)
    (dropped : id ∈ prepared.changes.droppedTables) :
    .droppedTable id ∈ prepared.appliedChanges.changes := by
  obtain ⟨ref, detachFiles, member, found⟩ :=
    droppedTable_deleted env tx base prepared sound prepares id dropped
  exact Prepared.recorded_mem env tx base prepared sound prepares _ ref .droppedTable id member rfl
    found

theorem written_liveTables_eq
    (env : Environment)
    (state : CommitState)
    (changes : TransactionChanges)
    (db : Database)
    (latest : Int)
    (bounded : Versioned.Until latest db.tables)
    (older : latest < state.snapshotId)
    (id : Int)
    (live : id ∈ Versioned.liveKeys DucklakeTable.tableId db.tables)
    (kept : id ∉ changes.droppedTables) :
    id ∈ Versioned.liveKeys DucklakeTable.tableId (written env state changes db).tables := by
  change id ∈ Versioned.liveKeys DucklakeTable.tableId (persistTableRenames state.snapshotId
    changes.renamedTables (Versioned.retire state.snapshotId (fun row =>
      decide (row.tableId ∈ changes.droppedTables) || changes.renamedTables.contains row.tableId)
        db.tables) ++ changes.newTables.map (.new state.snapshotId))
  rw [Versioned.liveKeys_append, liveKeys_renamed (fun id => decide (id ∈ changes.droppedTables)) _
    bounded older]
  refine List.mem_append_left _ (List.mem_append.mpr ?_)
  cases renamed : changes.renamedTables.contains id with
  | true => exact Or.inr (List.mem_filter.mpr ⟨live, renamed⟩)
  | false => exact Or.inl (List.mem_filter.mpr ⟨live, by simp [kept, renamed]⟩)

end Transaction

/-! ## Runs -/

namespace System

/-- The table of each row is live, or a commit behind the end of the row recorded its drop. -/
def DropsRecorded (sys : System) : Prop :=
  ∀ row ∈ sys.db.tables,
    row.entity.tableId ∈ Versioned.liveKeys DucklakeTable.tableId sys.db.tables ∨
      ∃ commit ∈ sys.history,
        .droppedTable row.entity.tableId ∈ commit.prepared.appliedChanges.changes ∧
          ∀ finish, row.endSnapshot = some finish → finish ≤ commit.snapshotId

theorem reachable_dropsRecorded
    (env : Environment)
    (now : Int)
    (sys : System)
    (run : Reachable env WithoutExpiration now sys) :
    sys.DropsRecorded := by
  refine reachable_committed env now sys DropsRecorded (by simp [DropsRecorded, init, initCatalog])
    ?_ ?_ run
  · intro sys next db known history held
    unfold DropsRecorded at *
    rwa [db, history]
  · intro sys latest commit time _ held counted committing _ row member
    have rows := committing.rows counted
    have older := counted.start_lt committing latest counted.newest
    have bounded := (counted.recordCommit commit time committing).until_.tables
    have after := persistCommit_same env time _ _ _ committing.persisted
    unfold SameExceptSnapshots at after
    have liveAfter : ∀ id ∈ Versioned.liveKeys DucklakeTable.tableId sys.db.tables,
        id ∉ commit.prepared.changes.droppedTables →
          id ∈ Versioned.liveKeys DucklakeTable.tableId commit.after.tables := by
      intro id live kept
      rw [after]
      exact written_liveTables_eq env _ _ _ latest.id counted.until_.tables older id live kept
    change row ∈ commit.after.tables at member
    change row.entity.tableId ∈ Versioned.liveKeys DucklakeTable.tableId commit.after.tables ∨
      ∃ other ∈ sys.history ++ [commit], _
    by_cases dropped : row.entity.tableId ∈ commit.prepared.changes.droppedTables
    · refine Or.inr ⟨commit, List.mem_append_right _ (List.mem_singleton_self _), ?_, ?_⟩
      · exact droppedTable_recorded env commit.tx commit.base commit.prepared committing.sound.tx
          committing.sound.prepared _ dropped
      · exact (bounded row member).2
    · have fresh : row.isLive = true →
          row.entity.tableId ∈ Versioned.liveKeys DucklakeTable.tableId commit.after.tables :=
        fun live => (Versioned.mem_liveKeys _).mpr ⟨row, member, live, rfl⟩
      rw [after] at member
      rcases List.mem_append.mp member with stored | created
      · rcases List.mem_append.mp stored with old | renamed
        · obtain ⟨before, inside, rfl⟩ := List.mem_map.mp old
          rw [Versioned.retireRow_entity] at dropped ⊢
          by_cases live : before.entity.tableId ∈
              Versioned.liveKeys DucklakeTable.tableId sys.db.tables
          · exact Or.inl (liveAfter _ live dropped)
          · obtain ⟨other, listed, recorded, ends⟩ := (held before inside).resolve_left live
            refine Or.inr ⟨other, List.mem_append_left _ listed, recorded, fun finish ended => ?_⟩
            refine ends finish ?_
            have notLive : before.isLive = false := by
              cases alive : before.isLive with
              | false => rfl
              | true => exact absurd ((Versioned.mem_liveKeys _).mpr ⟨before, inside, alive, rfl⟩) live
            rcases Versioned.kept_retireRow _ before with same | ⟨missing, _⟩
            · rwa [same] at ended
            · simp [Versioned.isLive, missing] at notLive
        · obtain ⟨before, _, copied⟩ := List.mem_filterMap.mp renamed
          split at copied
          · obtain ⟨name, _, rfl⟩ := Option.map_eq_some_iff.mp copied
            exact Or.inl (fresh rfl)
          · cases copied
      · obtain ⟨table, _, rfl⟩ := List.mem_map.mp created
        exact Or.inl (fresh rfl)

/-- A table with an id that a commit writes to is live when it commits. -/
theorem live_of_worksOn
    (env : Environment)
    (now : Int)
    (sys : System)
    (latest : SnapshotInfo)
    (commit : Commit)
    (time : Int)
    (run : Reachable env WithoutExpiration now sys)
    (committing : Committing env sys latest commit time)
    (inOrder : (sys.recordCommit commit time).SnapshotsInOrder)
    (visible : commit.tx.IdsVisible sys.db)
    (change : Change)
    (ref : TableRef)
    (id : Int)
    (member : change ∈ (ChangeSet.new commit.tx.changes).changes)
    (works : change.worksOn = some ref)
    (found : commit.tx.catalog.idOf (.table ref) = some id) :
    id ∈ Versioned.liveKeys DucklakeTable.tableId sys.db.tables := by
  have seen : id ∈ (Versioned.entitiesAt commit.tx.snapshot.id sys.db.tables).map
    DucklakeTable.tableId := visible (.table ref) id found
  obtain ⟨entity, listed, rfl⟩ := List.mem_map.mp seen
  obtain ⟨row, shown, rfl⟩ := List.mem_map.mp listed
  obtain ⟨stored, sees⟩ := List.mem_filter.mp shown
  rcases reachable_dropsRecorded env now sys run row stored with live | dropped
  · exact live
  · obtain ⟨other, listed, recorded, ends⟩ := dropped
    by_cases alive : row.isLive = true
    · exact (Versioned.mem_liveKeys _).mpr ⟨row, stored, alive, rfl⟩
    · have follows := follows_of_inOrder inOrder other listed
      have interim : commit.start.id < other.snapshotId := by
        rw [← committing.sound.snapshot]
        cases ended : row.endSnapshot with
        | none => simp [Versioned.isLive, ended] at alive
        | some finish =>
            have before := ends finish ended
            simp only [Versioned.visibleAt, ended, Bool.and_eq_true, decide_eq_true_eq] at sees
            omega
      exact absurd recorded (follows.untouched env other commit change ref _ committing.sound interim
        member works found).2

end System

end Ducklake
