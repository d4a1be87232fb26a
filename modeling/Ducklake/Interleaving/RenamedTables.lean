import Ducklake.Interleaving.DroppedTables

/-!
# Renamed tables

Every change to a table but its name is recorded with the table's id and conflicts with a drop of
the table.  A new name is recorded as the creation of a table, which does not.  So a transaction
that only renames a table commits after the table was dropped, and its commit renames nothing.
-/

set_option autoImplicit false

namespace Ducklake

open Lib Caches Spec Maintenance Transaction

namespace Transaction

/-! ## Changes to a table -/

/-- The table that a change renames, alters, tags or writes rows to. -/
def Change.usedTable : Change → Option TableRef
  | .renameTable tableRef _ => some tableRef
  | change => change.worksOn

def Change.recordsId (change : Change) (ref : TableRef) : Prop :=
  change.recordedTable.map Prod.fst = some ref

theorem Change.renames_of_usedTable
    (change : Change)
    (ref : TableRef)
    (used : change.usedTable = some ref)
    (unrecorded : ¬change.recordsId ref) :
    ∃ name, change = .renameTable ref name := by
  have works : change.worksOn = some ref → change.recordsId ref := by
    intro works
    unfold worksOn at works
    split at works
    · cases works
    · exact works
  cases change with
  | renameTable tableRef name => exact ⟨name, by rw [Option.some.inj used]⟩
  | _ => exact absurd (works used) unrecorded

def HashableChange.recordedTable : HashableChange → Option TableRef
  | .updateTablePartitioning tableRef | .updateTableSortInfo tableRef | .deleteTable tableRef
  | .addTableTag tableRef _ | .removeTableTag tableRef _
  | .writeTableDataFiles tableRef _ | .writeTableInlineData tableRef => some tableRef
  | .updateTableColumn columnRef | .removeTableColumn columnRef
  | .addTableColumnTag columnRef _ | .removeTableColumnTag columnRef _ => some columnRef.tableRef
  | .addTableColumn columnRefs => columnRefs.head?.map ColumnRef.tableRef
  | _ => none

theorem Change.recordedTable_hashable (change : Change) :
    change.recordedTable.map Prod.fst = change.hashable.recordedTable := by
  cases change with
  | addTableColumn parent refs column => cases refs <;> rfl
  | _ => rfl

theorem Change.affected_of_recordsId
    (change : Change)
    (ref : TableRef)
    (records : change.recordsId ref) :
    change.affectedTableRef = some ref := by
  obtain ⟨⟨_, kind⟩, recorded, rfl⟩ := Option.map_eq_some_iff.mp records
  exact change.affectedTable_of_recordedTable _ kind recorded

theorem ChangeSet.exists_recordsId
    (changes : List Change)
    (change : Change)
    (ref : TableRef)
    (member : change ∈ changes)
    (records : change.recordsId ref)
    (stored : ∀ change ∈ changes, change.createdTable ≠ some ref) :
    ∃ kept ∈ (ChangeSet.new changes).changes, kept.recordsId ref := by
  by_cases deleted : ∃ detachFiles, .deleteTable ref detachFiles ∈ keepLast changes
  · obtain ⟨detachFiles, last⟩ := deleted
    refine ⟨_, mem_new_of_mem_cancelTables changes _ ref (List.mem_filter.mpr ⟨last, ?_⟩) rfl, rfl⟩
    refine decide_eq_true fun created => ?_
    obtain ⟨creation, listed, made⟩ := List.mem_filterMap.mp created
    exact stored creation ((keepLast_sublist changes).subset listed) made
  · obtain ⟨last, listed, same⟩ := List.mem_map.mp
      ((mem_map_keepLast changes change.hashable).mpr (List.mem_map_of_mem member))
    have recordsLast : last.recordsId ref := by
      unfold Change.recordsId at records ⊢
      rw [Change.recordedTable_hashable] at records ⊢
      rwa [same]
    have affected := last.affected_of_recordsId ref recordsLast
    have kept : last.deletedTable = none := by
      cases last with
      | deleteTable tableRef detachFiles =>
          obtain rfl := Option.some.inj affected
          exact absurd ⟨detachFiles, listed⟩ deleted
      | _ => rfl
    refine ⟨last, mem_new_of_mem_cancelTables changes last ref (List.mem_filter.mpr ⟨listed, ?_⟩)
      affected, recordsLast⟩
    rw [kept, affected]
    refine decide_eq_true fun dropped => ?_
    obtain ⟨deletion, inside, drops⟩ := List.mem_filterMap.mp dropped
    cases deletion with
    | deleteTable tableRef detachFiles =>
        obtain rfl := Option.some.inj drops
        exact deleted ⟨detachFiles, inside⟩
    | _ => cases drops

theorem AppliedChange.conflicts_of_recordsId
    (catalog : Catalog)
    (change : Change)
    (ref : TableRef)
    (kind : Int → AppliedChange)
    (id : Int)
    (recorded : change.recordedTable = some (ref, kind)) :
    (kind id).checkConflict (.droppedTable id) catalog ≠ .ok () := by
  by_cases works : change.worksOn = some ref
  · exact (AppliedChange.conflicts_of_worksOn catalog change ref kind id works recorded).2
  · cases change with
    | deleteTable =>
        cases recorded
        simp [AppliedChange.checkConflict, AppliedChange.conflictIf]
    | _ => exact absurd (congrArg (Option.map Prod.fst) recorded) works

/-! ## Tables of an attempt -/

def KeptByChange (changes : List Change) (collected : TransactionChanges × CommitState) : Prop :=
  ∀ id, id ∈ collected.1.newTables.map DucklakeTable.tableId ∨
      collected.1.renamedTables.contains id = true →
    ∃ change ∈ changes, ∃ ref, change.affectedTableRef = some ref ∧ change.deletedTable = none ∧
      collected.2.catalog.idOf (.table ref) = some id

theorem Collects.keptByChange
    {env : Environment}
    {changes : List Change}
    {before after : TransactionChanges × CommitState}
    (kept : KeptByChange changes before)
    (step : Collects env changes before after) :
    KeptByChange changes after := by
  have extends_ := step.extends
  have held : ∀ id, id ∈ before.1.newTables.map DucklakeTable.tableId ∨
      before.1.renamedTables.contains id = true →
        ∃ change ∈ changes, ∃ ref, change.affectedTableRef = some ref ∧
          change.deletedTable = none ∧ after.2.catalog.idOf (.table ref) = some id := by
    intro id listed
    obtain ⟨change, member, ref, affected, notDrop, found⟩ := kept id listed
    exact ⟨change, member, ref, affected, notDrop, extends_.kept _ _ found⟩
  cases step with
  | createdTable member found located success =>
      rintro id (new | renamed)
      · rw [List.map_append, List.mem_append] at new
        rcases new with old | new
        · exact held id (Or.inl old)
        · obtain rfl := List.mem_singleton.mp new
          exact ⟨_, member, _, rfl, rfl, found⟩
      · exact held id (Or.inr renamed)
  | @renamedPending rows state tableRef name tableId member found pending =>
      rintro id (new | renamed)
      · refine held id (Or.inl ?_)
        rw [List.map_map] at new
        refine (List.map_congr_left fun table _ => ?_) ▸ new
        simp only [Function.comp_apply]
        split <;> rfl
      · exact held id (Or.inr renamed)
  | @renamed rows state tableRef name tableId member found stored =>
      rintro id (new | renamed)
      · exact held id (Or.inl new)
      · by_cases same : id = tableId
        · exact ⟨_, member, _, rfl, rfl, same ▸ found⟩
        · refine held id (Or.inr ?_)
          rwa [IndexMap.contains, IndexMap.get?_insert_of_ne _ _ _ _ same] at renamed
  | wroteFile member inside found success =>
      have same := addDataFile_same env _ _ _ _ _ success
      unfold SameExceptData at same
      intro id listed
      rw [same] at listed
      exact held id listed
  | @inlined _ _ ref member changed =>
      have same := createInlinedTable_same env before ref
      unfold SameExceptData at same
      intro id listed
      rw [same] at listed
      exact held id listed
  | _ => exact held

theorem Collected.keptByChange
    {env : Environment}
    {changes : List Change}
    {before after : TransactionChanges × CommitState}
    (kept : KeptByChange changes before)
    (steps : Collected env changes before after) :
    KeptByChange changes after := by
  induction steps with
  | refl => exact kept
  | tail _ step ih => exact step.keptByChange ih

theorem droppedTable_notKept
    (env : Environment)
    (tx : Transaction)
    (base : SnapshotInfo)
    (start : CommitState)
    (prepared : PreparedCommit)
    (sound : tx.Sound)
    (prepares : Prepared env tx base prepared)
    (attempted : Attempted start prepared.state (ChangeSet.new tx.changes).changes)
    (injective : ∀ ref other id, start.catalog.idOf (.table ref) = some id →
      start.catalog.idOf (.table other) = some id → ref = other)
    (id : Int)
    (dropped : id ∈ prepared.changes.droppedTables) :
    id ∉ prepared.changes.newTables.map DucklakeTable.tableId ∧
      prepared.changes.renamedTables.contains id = false := by
  obtain ⟨ref, detachFiles, deletion, found⟩ :=
    droppedTable_deleted env tx base prepared sound prepares id dropped
  obtain ⟨stats, success⟩ := prepares
  obtain ⟨applied, executed, _, later⟩ := prepareCommit_eq_ok env _ _ _ success
  have remains := (ChangeSet.appliedChangeSet_extends (ChangeSet.new tx.changes) applied).trans later
  have nothing : ∀ state, KeptByChange (ChangeSet.new tx.changes).changes
      (TransactionChanges.empty, state) := by
    rintro state id (listed | renamed)
    · exact absurd listed List.not_mem_nil
    · cases renamed
  have kept := Collected.keptByChange (nothing _)
    (ChangeSet.apply_collected env _ _ _ sound.present executed)
  have absent : ¬(id ∈ prepared.changes.newTables.map DucklakeTable.tableId ∨
      prepared.changes.renamedTables.contains id = true) := by
    intro listed
    obtain ⟨change, member, other, affected, notDrop, foundOther⟩ := kept id listed
    have same : prepared.state.knownId (.table ref) = prepared.state.knownId (.table other) := by
      rw [CommitState.knownId_of_some _ _ _ found,
        CommitState.knownId_of_some _ _ _ (remains.kept _ _ foundOther)]
    obtain rfl := attempted.table_injective injective _ change deletion member ref other
      (Change.objects_of_affectedTable _ ref rfl) (change.objects_of_affectedTable other affected) same
    exact ChangeSet.notMem_deleted_of_mem_new tx.changes change ref detachFiles member affected
      notDrop deletion
  exact ⟨fun new => absent (Or.inl new), by simpa using fun renamed => absent (Or.inr renamed)⟩

theorem written_liveTables_subset
    (env : Environment)
    (state : CommitState)
    (changes : TransactionChanges)
    (db : Database)
    (latest : Int)
    (bounded : Versioned.Until latest db.tables)
    (older : latest < state.snapshotId)
    (id : Int)
    (live : id ∈ Versioned.liveKeys DucklakeTable.tableId (written env state changes db).tables) :
    id ∈ changes.newTables.map DucklakeTable.tableId ∨
      id ∈ Versioned.liveKeys DucklakeTable.tableId db.tables ∧
        (id ∈ changes.droppedTables → changes.renamedTables.contains id = true) := by
  change id ∈ Versioned.liveKeys DucklakeTable.tableId (persistTableRenames state.snapshotId
    changes.renamedTables (Versioned.retire state.snapshotId (fun row =>
      decide (row.tableId ∈ changes.droppedTables) || changes.renamedTables.contains row.tableId)
        db.tables) ++ changes.newTables.map (.new state.snapshotId)) at live
  rw [Versioned.liveKeys_append, Versioned.liveKeys_map_new,
    liveKeys_renamed (fun id => decide (id ∈ changes.droppedTables)) _ bounded older] at live
  rcases List.mem_append.mp live with old | new
  · right
    rcases List.mem_append.mp old with kept | renamed
    · obtain ⟨before, stays⟩ := List.mem_filter.mp kept
      refine ⟨before, fun dropped => ?_⟩
      simp [dropped] at stays
    · obtain ⟨before, again⟩ := List.mem_filter.mp renamed
      exact ⟨before, fun _ => again⟩
  · exact Or.inl new

end Transaction

/-! ## Commits -/

namespace Commit

/-- The commit renames, alters, tags or writes rows to a table that was there at its start. -/
def Uses (commit : Commit) (tableId : Int) : Prop :=
  ∃ change ∈ commit.tx.changes, ∃ ref, change.usedTable = some ref ∧
    commit.tx.startCatalog.idOf (.table ref) = some tableId

def Drops (commit : Commit) (tableId : Int) : Prop :=
  tableId ∈ commit.prepared.changes.droppedTables

end Commit

namespace System

/-- No commit uses a table that another one dropped since its start. -/
def SparesDropped (sys : System) : Prop :=
  ∀ earlier ∈ sys.history, ∀ later ∈ sys.history, later.start.id < earlier.snapshotId →
    earlier.snapshotId < later.snapshotId → ∀ id, earlier.Drops id → ¬later.Uses id

def RenamesLive (db : Database) (tx : Ducklake.Transaction) : Prop :=
  ∀ ref name id, .renameTable ref name ∈ tx.changes →
    tx.startCatalog.idOf (.table ref) = some id → (∀ change ∈ tx.changes, ¬change.recordsId ref) →
      id ∈ Versioned.liveKeys DucklakeTable.tableId db.tables

/-- Transactions only, and an attempt that is built on the latest snapshot finds the tables live
that it only renames. -/
def RenamesLiveTables (sys : System) (label : Label) : Prop :=
  label.isExpiration = false ∧ ∀ index time, label = .move index (.persist time) →
    ∀ party ∈ sys.parties[index]?, ∀ tx attempt base prepared,
      party.phase = .prepared tx attempt base prepared →
        (∀ row ∈ sys.db.snapshots, row.snapshotId ≤ base.id) → RenamesLive sys.db tx

section

variable {env : Environment} {sys : System} {latest : SnapshotInfo} {commit : Commit} {time : Int}

theorem Committing.notLive_of_drops
    (counted : sys.Counted latest)
    (committing : Committing env sys latest commit time)
    (first : commit.tx.CreatedFirst)
    (apart : TablesApart commit.tx)
    (id : Int)
    (drops : commit.Drops id) :
    id ∉ Versioned.liveKeys DucklakeTable.tableId commit.after.tables := by
  obtain ⟨start, catalog, next, attempted⟩ := committing.attempted counted first
  obtain ⟨notNew, notRenamed⟩ := droppedTable_notKept env commit.tx commit.base start commit.prepared
    committing.sound.tx committing.sound.prepared attempted (catalog ▸ apart) id drops
  rw [persistCommit_same env time _ _ _ committing.persisted]
  intro live
  rcases written_liveTables_subset env _ _ _ latest.id counted.until_.tables
    (counted.start_lt committing latest counted.newest) id live with new | ⟨_, kept⟩
  · exact notNew new
  · rw [kept drops] at notRenamed
    cases notRenamed

theorem Committing.notLive
    (counted : sys.Counted latest)
    (committing : Committing env sys latest commit time)
    (id : Int)
    (below : id < latest.nextCatalogId)
    (gone : id ∉ Versioned.liveKeys DucklakeTable.tableId sys.db.tables) :
    id ∉ Versioned.liveKeys DucklakeTable.tableId commit.after.tables := by
  rw [persistCommit_same env time _ _ _ committing.persisted]
  intro live
  rcases written_liveTables_subset env _ _ _ latest.id counted.until_.tables
    (counted.start_lt committing latest counted.newest) id live with new | ⟨before, _⟩
  · obtain ⟨row, member, rfl⟩ := List.mem_map.mp new
    have given := ((committing.rows counted).newIds.tables row member).1
    rw [committing.base] at given
    omega
  · exact gone before

theorem Committing.lt_of_drops
    (counted : sys.Counted latest)
    (committing : Committing env sys latest commit time)
    (id : Int)
    (drops : commit.Drops id) :
    id < commit.prepared.state.nextCatalogId := by
  obtain ⟨ref, _, _, found⟩ := droppedTable_deleted env commit.tx commit.base commit.prepared
    committing.sound.tx committing.sound.prepared id drops
  obtain ⟨stats, success⟩ := committing.sound.prepared
  rcases (prepareCommit_extends env _ _ _ success).fresh _ _ found with given | ⟨_, new⟩
  · have below := counted.idOf_lt commit.tx committing.sound.tx committing.starts _ _ given
    have grows := (committing.rows counted).grows
    rw [committing.base] at grows
    omega
  · exact new

end

/-! ## Runs -/

/-- A dropped table is gone for good. -/
def DropsFinal (sys : System) : Prop :=
  ∀ commit ∈ sys.history, ∀ id, commit.Drops id →
    id ∉ Versioned.liveKeys DucklakeTable.tableId sys.db.tables ∧
      ∃ info ∈ sys.known, id < info.nextCatalogId

theorem reachable_dropsFinal
    (env : Environment)
    (now : Int)
    (sys : System)
    (run : Reachable env WithoutExpiration now sys) :
    sys.DropsFinal := by
  refine run.invariant_of_reached DropsFinal (fun _ member => absurd member List.not_mem_nil) ?_
  intro sys label next run held permitted stepped
  have reached := run.tail permitted stepped
  cases stepCommits_of_reachable env now sys next label run permitted stepped with
  | nothing db known history =>
      unfold DropsFinal at held ⊢
      rwa [db, known, history]
  | @one latest commit time counted committing db known history =>
      have recorded : commit ∈ next.history := by
        rw [history]
        exact List.mem_append_right _ (List.mem_singleton_self _)
      have first := (reachable_createdFirst env _ now next reached).commits commit recorded
      have apart := (reachable_tablesApart env now next reached).commits commit recorded
      unfold DropsFinal
      rw [db, known, history]
      refine List.forall_mem_append.mpr ⟨fun earlier member id drops => ?_, ?_⟩
      · obtain ⟨gone, info, inside, below⟩ := held earlier member id drops
        refine ⟨committing.notLive counted id ?_ gone, info, List.mem_append_left _ inside, below⟩
        rcases counted.older info inside with rfl | ⟨_, _, _⟩ <;> omega
      · rw [List.forall_mem_singleton]
        intro id drops
        exact ⟨committing.notLive_of_drops counted first apart id drops, _,
          List.mem_append_right _ (List.mem_singleton_self _), committing.lt_of_drops counted id drops⟩

section

variable {env : Environment} {sys : System} {latest : SnapshotInfo} {commit : Commit} {now time : Int}

theorem Committing.not_uses
    (run : Reachable env WithoutExpiration now sys)
    (committing : Committing env sys latest commit time)
    (inOrder : (sys.recordCommit commit time).SnapshotsInOrder)
    (renames : RenamesLive sys.db commit.tx)
    (earlier : Commit)
    (member : earlier ∈ sys.history)
    (interim : commit.start.id < earlier.snapshotId)
    (id : Int)
    (drops : earlier.Drops id) :
    ¬commit.Uses id := by
  rintro ⟨change, listed, ref, used, found⟩
  have sound := committing.sound.tx
  have given : commit.tx.catalog.idOf (.table ref) = some id :=
    (sound.work.catalog.idOf _ rfl).trans found
  by_cases recorded : ∃ other ∈ commit.tx.changes, other.recordsId ref
  · obtain ⟨other, inside, records⟩ := recorded
    have stored : ∀ change ∈ commit.tx.changes, change.createdTable ≠ some ref := by
      intro creation member made
      have absent : creation.created = some (.table ref) := by
        cases creation with
        | createTable => exact congrArg (Option.map ObjectRef.table) made
        | _ => cases made
      rw [sound.idOf_created creation member _ absent] at given
      cases given
    obtain ⟨kept, survives, recordsKept⟩ :=
      ChangeSet.exists_recordsId commit.tx.changes other ref inside records stored
    obtain ⟨⟨_, kind⟩, shape, rfl⟩ := Option.map_eq_some_iff.mp recordsKept
    have past := (reachable_sound env _ now sys run).commits earlier member
    have dropped := droppedTable_recorded env earlier.tx earlier.base earlier.prepared past.tx
      past.prepared id drops
    have checked := committing.sound.checked _ ((follows_of_inOrder inOrder earlier member).2 interim)
    exact AppliedChange.conflicts_of_recordsId commit.tx.catalog kept _ kind id shape
      (checked.compatible commit.tx earlier.changesRow _ kept _ kind id sound rfl survives shape given
        _ dropped (AppliedChange.readable_altered id).2)
  · have unrecorded : ∀ other ∈ commit.tx.changes, ¬other.recordsId ref :=
      fun other inside records => recorded ⟨other, inside, records⟩
    obtain ⟨name, rfl⟩ := change.renames_of_usedTable ref used (unrecorded change listed)
    exact (reachable_dropsFinal env now sys run earlier member id drops).1
      (renames ref name id listed found unrecorded)

end

/-! ## A table that is renamed and dropped -/

def droppedTableName : QualifiedName := ⟨"main".toList, "t".toList⟩

/-- Two transactions start after a table was created: the first one to commit calls `earlier`, the
other one calls `later` and is refused once. -/
def changedMeanwhile (earlier later : Operation) : List Label :=
  .begin :: working 0 ⟨0, 0, 1, 0⟩ [.createTable droppedTableName
    [.mk "a".toList (.primitive .int32) true default none (.literal none) none]
      none none none none .fail] ++ committing 0 ⟨0, 0, 1, 0⟩ ++
  [.begin, .begin] ++ working 1 ⟨1, 1, 2, 0⟩ [later] ++ working 2 ⟨1, 1, 2, 0⟩ [earlier] ++
  committing 2 ⟨1, 1, 2, 0⟩ ++ committing 1 ⟨1, 1, 2, 0⟩ ++ retrying 1 ++ attempt 1 ⟨2, 2, 2, 0⟩

def renamesLive (sys : System) (label : Label) : Bool :=
  !label.isExpiration && sys.parties.all fun party =>
    party.phase.transaction.all fun tx => tx.changes.all fun change =>
      match change with
      | .renameTable ref _ => (tx.startCatalog.idOf (.table ref)).all fun id =>
          decide (id ∈ Versioned.liveKeys DucklakeTable.tableId sys.db.tables)
      | _ => true

theorem renamesLiveTables_of_renamesLive
    (sys : System)
    (label : Label)
    (checked : renamesLive sys label = true) :
    sys.RenamesLiveTables label := by
  obtain ⟨transactional, live⟩ := Bool.and_eq_true_iff.mp checked
  refine ⟨by simpa using transactional, ?_⟩
  intro index time _ party found tx attempt base prepared phase _ ref name id listed stored _
  have working : party.phase.transaction = some tx := by rw [phase]; rfl
  have changes := List.all_eq_true.mp live party (List.mem_of_getElem? found)
  rw [working] at changes
  have renamed := List.all_eq_true.mp changes _ listed
  simpa [stored] using renamed

/-! ## The result -/

theorem sparesDropped_of_renamesLiveTables
    (env : Environment)
    (now : Int)
    (sys : System)
    (run : Reachable env RenamesLiveTables now sys) :
    sys.SparesDropped := by
  refine run.invariant_of_reached SparesDropped (fun _ member => absurd member List.not_mem_nil) ?_
  intro sys label next run held permitted stepped
  have plain : Reachable env WithoutExpiration now sys := run.mono fun _ _ allowed => allowed.1
  have inOrder := (numbered_of_withoutExpiration (plain.tail permitted.1 stepped)).inOrder
  obtain ⟨latest, counted⟩ := reachable_counted env now sys plain
  cases step_outcome env sys next label stepped with
  | began | unchanged => exact held
  | expired | kept => cases permitted.1
  | @moved index party move next found advances =>
      rcases advances.outcome with ⟨_, _, history⟩ |
        ⟨tx, attempt, base, prepared, time, after, rfl, phase, success, rfl⟩
      · unfold SparesDropped at held ⊢
        rwa [history]
      · have committing := committing_of_success counted (numbered_of_withoutExpiration plain)
          (reachable_sound env _ now sys plain) (reachable_partitionsPending env _ now sys plain)
          index party (List.mem_of_getElem? found) tx attempt base prepared time after phase success
        have newest : ∀ row ∈ sys.db.snapshots, row.snapshotId ≤ base.id := by
          intro row member
          have known : SnapshotInfo.ofSnapshot row ∈ sys.known := by
            rw [← counted.snapshots]
            exact List.mem_map_of_mem member
          rw [show base = latest from committing.base]
          rcases counted.older _ known with same | ⟨older, _, _⟩
          · exact le_of_eq (congrArg SnapshotInfo.id same)
          · exact le_of_lt older
        have renames := permitted.2 index time rfl party found tx attempt base prepared phase newest
        refine List.forall_mem_append.mpr ⟨fun earlier member => ?_, ?_⟩
        · refine List.forall_mem_append.mpr ⟨held earlier member, ?_⟩
          rw [List.forall_mem_singleton]
          intro interim _ id drops
          exact committing.not_uses plain inOrder renames earlier member interim id drops
        · rw [List.forall_mem_singleton]
          refine List.forall_mem_append.mpr ⟨fun later member _ below => ?_, ?_⟩
          · have above := (@follows_of_inOrder _ _ time inOrder later member).1
            omega
          · rw [List.forall_mem_singleton]
            exact fun _ below => absurd below (lt_irrefl _)

/-- The drop of a renamed table. -/
theorem sparesDropped_of_renamesLiveTables_renamedFirst :
    ∃ sys, Reachable .plain RenamesLiveTables 0 sys ∧
      sys.history.map (fun commit => (commit.snapshotId, commit.start.id,
        commit.prepared.changes.renamedTables.keys, commit.prepared.changes.droppedTables)) =
          [(1, 0, [], []), (2, 1, [1], []), (3, 1, [], [1])] ∧
      sys.SparesDropped := by
  obtain ⟨sys, taken, history⟩ : ∃ sys, (changedMeanwhile
      (.renameTable droppedTableName "u".toList) (.deleteTable droppedTableName .fail)).foldlM
        (fun sys label => if renamesLive sys label = true then step .plain sys label else none)
          (init 0) = some sys ∧
      sys.history.map (fun commit => (commit.snapshotId, commit.start.id,
        commit.prepared.changes.renamedTables.keys, commit.prepared.changes.droppedTables)) =
          [(1, 0, [], []), (2, 1, [1], []), (3, 1, [], [1])] :=
    Option.map_eq_some_iff.mp (by decide +kernel)
  have run : Reachable .plain RenamesLiveTables 0 sys :=
    Reaches.of_checked renamesLive renamesLiveTables_of_renamesLive _ taken
  exact ⟨sys, run, history, sparesDropped_of_renamesLiveTables .plain 0 sys run⟩

/-- A transaction commits its new name of a table that was dropped meanwhile. -/
theorem not_sparesDropped_renamedLast :
    ¬∀ (env : Environment) (now : Int) (sys : System),
      Reachable env WithoutExpiration now sys → sys.SparesDropped := by
  intro spares
  obtain ⟨sys, taken, history⟩ : ∃ sys, (changedMeanwhile
      (.deleteTable droppedTableName .fail) (.renameTable droppedTableName "u".toList)).foldlM
        (step .plain) (init 0) = some sys ∧
      sys.history.map (fun commit => (commit.snapshotId, commit.start.id,
        commit.prepared.changes.droppedTables,
        commit.tx.changes.any fun change => change.usedTable = some ⟨0⟩ ∧
          commit.tx.startCatalog.idOf (.table ⟨0⟩) = some 1)) =
        [(1, 0, [], false), (2, 1, [1], false), (3, 1, [], true)] :=
    Option.map_eq_some_iff.mp (by decide +kernel)
  have transactional : ∀ label ∈ changedMeanwhile (.deleteTable droppedTableName .fail)
      (.renameTable droppedTableName "u".toList), label.isExpiration = false := by decide
  have run : Reachable .plain WithoutExpiration 0 sys :=
    Reaches.of_foldlM _ (fun _ => transactional) taken
  have held := spares .plain 0 sys run
  match listed : sys.history with
  | [_, earlier, later] =>
      rw [listed] at history
      simp only [List.map_cons, List.map_nil, List.cons.injEq, Prod.mk.injEq] at history
      obtain ⟨_, ⟨dropId, _, drops, _⟩, ⟨laterId, start, _, used⟩, _⟩ := history
      obtain ⟨change, inside, uses⟩ := List.any_eq_true.mp used
      have dropped : earlier.Drops 1 := by simp [Commit.Drops, drops]
      exact held earlier (by simp [listed]) later (by simp [listed]) (by omega) (by omega) 1 dropped
        ⟨change, inside, _, of_decide_eq_true uses⟩
  | [] | [_] | [_, _] | _ :: _ :: _ :: _ :: _ =>
      rw [listed] at history
      simp at history

end System

end Ducklake
