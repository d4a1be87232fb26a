import Ducklake.Interleaving.Grounded
import Ducklake.Transaction.ColumnRows
import Ducklake.Transfer

/-!
# The ids of added columns through a run

A column that a commit adds to a table gets an id above all ids that were ever recorded for the
table.
-/

set_option autoImplicit false

namespace Ducklake

open Lib Caches Spec Maintenance Transaction

/-! ## Ids at the start of a transaction -/

def Transaction.IdsVisible (db : Database) (tx : Transaction) : Prop :=
  ∀ key id, tx.catalog.idOf key = some id → id ∈ Catalog.visibleIds db tx.snapshot.id key

theorem Spec.Database.CatalogUpdates.visibleIds
    {before after : Database}
    {snapshot creates : Int}
    (updates : before.CatalogUpdates creates after)
    (older : snapshot < creates)
    (key : ObjectRef) :
    Catalog.visibleIds after snapshot key = Catalog.visibleIds before snapshot key := by
  cases key with
  | schema => exact congrArg _ (updates.schemas.sameAt older).entitiesAt_eq
  | table => exact congrArg _ (updates.tables.sameAt older).entitiesAt_eq
  | view => exact congrArg _ (updates.views.sameAt older).entitiesAt_eq
  | macro_ => exact congrArg _ (updates.macros.sameAt older).entitiesAt_eq
  | partition => exact congrArg _ (updates.partitionInfo.sameAt older).entitiesAt_eq

namespace System

/-- A commit creates a snapshot behind the start of every transaction. -/
theorem Counted.start_lt
    {env : Environment}
    {sys : System}
    {latest : SnapshotInfo}
    {commit : Commit}
    {time : Int}
    (counted : sys.Counted latest)
    (committing : Committing env sys latest commit time)
    (info : SnapshotInfo)
    (known : info ∈ sys.known) :
    info.id < commit.prepared.state.snapshotId := by
  have created := (committing.rows counted).snapshotId
  rw [committing.base] at created
  rcases counted.older info known with rfl | ⟨below, _⟩ <;> omega

theorem reachable_idsVisible
    (env : Environment)
    (now : Int)
    (sys : System)
    (run : Reachable env WithoutExpiration now sys) :
    sys.Transactions (sys.Grounded fun db tx => tx.IdsVisible db) := by
  refine reachable_grounded env _ now sys _ (fun _ _ permitted => permitted) ?_ ?_ ?_ run
  · intro sys _ info _ catalog _ loaded
    exact (Catalog.load_loaded env sys.db info.id catalog loaded).ids
  · intro sys index operation source stats _ _ tx changes catalog grounded edit key id found
    refine grounded.holds key id ?_
    cases key with
    | partition ref => exact edit.grows.partitionId ref id found
    | schema ref | table ref | view ref | macro_ ref => rwa [edit.grows.idOf _ rfl] at found
  · intro sys latest commit time _ counted committing tx grounded key id found
    rw [(persistCommit_catalogUpdates env time _ _ _ (committing.rows counted).fresh
      committing.persisted).visibleIds (counted.start_lt committing _ grounded.snapshot)]
    exact grounded.holds key id found

theorem reachable_columnsNumbered
    (env : Environment)
    (now : Int)
    (sys : System)
    (run : Reachable env WithoutExpiration now sys) :
    sys.Transactions (sys.Grounded fun db tx => tx.ColumnsNumbered db) := by
  refine reachable_grounded env _ now sys _ (fun _ _ permitted => permitted) ?_ ?_ ?_ run
  · intro sys _ info _ catalog _ loaded
    exact columnsNumbered_new env info catalog loaded
  · intro sys index operation source stats _ _ tx changes catalog grounded edit
    exact grounded.holds.edit edit.grows (edit.tables grounded.sound.catalog)
  · intro sys latest commit time _ counted committing tx grounded
    exact grounded.holds.committed (persistCommit_catalogUpdates env time _ _ _
      (committing.rows counted).fresh committing.persisted).columns
        (counted.start_lt committing _ grounded.snapshot)

/-! ## Where stored rows come from -/

/-- The rows of the tables and of their columns with the commits that wrote them. -/
structure Recorded (sys : System) : Prop where
  commits : ∀ commit ∈ sys.history, CollectedRows commit
  columns : ∀ row ∈ sys.db.columns, ∃ commit ∈ sys.history,
    row.beginSnapshot = commit.snapshotId ∧
      ∃ pending ∈ commit.prepared.changes.newColumns, pending.entity = row.entity
  tables : ∀ commit ∈ sys.history, ∀ row ∈ sys.db.tables,
    row.beginSnapshot < commit.snapshotId → row.entity.tableId < commit.base.nextCatalogId
  owners : ∀ commit ∈ sys.history, ∀ row ∈ sys.db.columns,
    row.beginSnapshot < commit.snapshotId → row.entity.tableId < commit.base.nextCatalogId
  stored : ∀ commit ∈ sys.history, ∀ pending ∈ commit.prepared.changes.newColumns,
    ∃ row ∈ sys.db.columns, row.beginSnapshot = commit.snapshotId ∧ row.entity = pending.entity

section

variable {env : Environment} {sys : System} {latest : SnapshotInfo} {commit : Commit} {time : Int}

theorem follows_of_inOrder
    (inOrder : (sys.recordCommit commit time).SnapshotsInOrder)
    (earlier : Commit)
    (member : earlier ∈ sys.history) :
    Follows earlier commit :=
  (List.pairwise_append.mp inOrder.1).2.2 earlier member commit (List.mem_singleton_self _)

theorem older_recordCommit
    {α : Type}
    {before after : List (Versioned α)}
    (committing : Committing env sys latest commit time)
    (inOrder : (sys.recordCommit commit time).SnapshotsInOrder)
    (idOf : α → Int)
    (updates : Versioned.Updates commit.prepared.state.snapshotId before after)
    (older : ∀ earlier ∈ sys.history, ∀ row ∈ before,
      row.beginSnapshot < earlier.snapshotId → idOf row.entity < earlier.base.nextCatalogId)
    (below : Versioned.Entities (fun entity => idOf entity < latest.nextCatalogId) before) :
    ∀ earlier ∈ sys.history ++ [commit], ∀ row ∈ after,
      row.beginSnapshot < earlier.snapshotId → idOf row.entity < earlier.base.nextCatalogId := by
  obtain ⟨update, added, keeps, fresh, rfl⟩ := updates
  refine List.forall_mem_append.mpr ⟨fun earlier listed row member began => ?_, ?_⟩
  · rcases List.mem_append.mp member with old | new
    · obtain ⟨before, inside, rfl⟩ := List.mem_map.mp old
      rw [(keeps before).beginSnapshot] at began
      rw [(keeps before).entity]
      exact older earlier listed before inside began
    · have begins := (fresh row new).1
      have later := (follows_of_inOrder inOrder earlier listed).1
      change earlier.snapshotId < commit.prepared.state.snapshotId at later
      omega
  · rw [List.forall_mem_singleton]
    intro row member began
    change row.beginSnapshot < commit.prepared.state.snapshotId at began
    rcases List.mem_append.mp member with old | new
    · obtain ⟨before, inside, rfl⟩ := List.mem_map.mp old
      rw [(keeps before).entity, committing.base]
      exact below before inside
    · have begins := (fresh row new).1
      omega

theorem Recorded.recordCommit
    (recorded : sys.Recorded)
    (counted : sys.Counted latest)
    (committing : Committing env sys latest commit time)
    (inOrder : (sys.recordCommit commit time).SnapshotsInOrder) :
    (sys.recordCommit commit time).Recorded := by
  have rows := committing.rows counted
  have same := persistCommit_same env time _ _ _ committing.persisted
  have updates := persistCommit_catalogUpdates env time _ _ _ rows.fresh committing.persisted
  have columns : commit.after.columns = (retireRows commit.prepared.state.snapshotId
      commit.prepared.changes sys.db).columns ++ commit.prepared.changes.newColumns := by
    rw [same]
    rfl
  have last : commit ∈ sys.history ++ [commit] := by simp
  constructor
  case commits =>
    exact List.forall_mem_append.mpr ⟨recorded.commits, by simpa using rows⟩
  case columns =>
    intro row member
    change row ∈ commit.after.columns at member
    rw [columns] at member
    rcases List.mem_append.mp member with old | new
    · obtain ⟨before, inside, rfl⟩ := List.mem_map.mp old
      obtain ⟨earlier, listed, began, pending, written, entity⟩ := recorded.columns before inside
      refine ⟨earlier, List.mem_append_left _ listed, ?_, pending, written, ?_⟩
      · rw [(Versioned.kept_retireRow _ _).beginSnapshot, began]
      · rw [(Versioned.kept_retireRow _ _).entity, entity]
    · exact ⟨commit, last, (rows.fresh.columns row new).1, row, new, rfl⟩
  case tables =>
    exact older_recordCommit committing inOrder DucklakeTable.tableId updates.tables
      recorded.tables counted.idsBelow.tables
  case owners =>
    exact older_recordCommit committing inOrder DucklakeColumn.tableId updates.columns
      recorded.owners counted.idsBelow.columns
  case stored =>
    refine List.forall_mem_append.mpr ⟨fun earlier listed pending written => ?_, ?_⟩
    · obtain ⟨row, member, began, entity⟩ := recorded.stored earlier listed pending written
      obtain ⟨update, added, keeps, _, after⟩ := updates.columns
      refine ⟨update row, ?_, (keeps row).beginSnapshot.trans began, (keeps row).entity.trans entity⟩
      change _ ∈ commit.after.columns
      rw [after]
      exact List.mem_append_left _ (List.mem_map_of_mem member)
    · rw [List.forall_mem_singleton]
      intro pending written
      refine ⟨pending, ?_, (rows.fresh.columns pending written).1, rfl⟩
      change _ ∈ commit.after.columns
      rw [columns]
      exact List.mem_append_right _ written

end

theorem reachable_recorded
    (env : Environment)
    (now : Int)
    (sys : System)
    (run : Reachable env WithoutExpiration now sys) :
    sys.Recorded := by
  refine reachable_committed env now sys Recorded ?_ ?_ ?_ run
  · constructor <;> simp [init, initCatalog]
  · intro sys next db known history recorded
    exact {
      commits := history ▸ recorded.commits
      columns := by
        rw [db, history]
        exact recorded.columns
      tables := by
        rw [db, history]
        exact recorded.tables
      owners := by
        rw [db, history]
        exact recorded.owners
      stored := by
        rw [db, history]
        exact recorded.stored }
  · intro sys latest commit time _ recorded counted committing inOrder
    exact recorded.recordCommit counted committing inOrder

/-! ## Commits and the columns that they record -/

end System

namespace Commit

/-- The commit gave an id to a column of a table, or reserved one. -/
def Records (commit : Commit) (tableId columnId : Int) : Prop :=
  ∃ change ∈ (ChangeSet.new commit.tx.changes).changes, ∃ ref columns ids,
    change.introduces = some (ref, columns, ids) ∧
      commit.prepared.state.catalog.idOf (.table ref) = some tableId ∧
        (columnId ∈ columns.map commit.prepared.state.columnId ∨ columnId ∈ ids)

/-- The commit added a column to an existing table or to one that it created. -/
def Adds (commit : Commit) (tableId columnId : Int) : Prop :=
  ∃ parent refs column,
    .addTableColumn parent refs column ∈ (ChangeSet.new commit.tx.changes).changes ∧
      ∃ ref ∈ refs, commit.prepared.state.catalog.idOf (.table ref.tableRef) = some tableId ∧
        columnId = commit.prepared.state.columnId ref

/-- The objects of the catalog keep their ids and their columns through the attempt. -/
theorem Sound.state
    {env : Environment}
    {commit : Commit}
    (sound : commit.Sound env) :
    ∃ start : CommitState, start.catalog = commit.tx.catalog ∧
      start.nextCatalogId = commit.base.nextCatalogId ∧ start.Extends commit.prepared.state := by
  obtain ⟨stats, success⟩ := sound.prepared
  exact ⟨_, rfl, rfl, prepareCommit_extends env _ _ _ success⟩

theorem Sound.columnId
    {env : Environment}
    {commit : Commit}
    (sound : commit.Sound env)
    (ref : ColumnRef) :
    commit.prepared.state.columnId ref = (commit.tx.catalog.column ref).id := by
  obtain ⟨start, catalog, _, extends_⟩ := sound.state
  rw [columnId_of_extends extends_, CommitState.columnId, catalog]

theorem Sound.mem_newColumns
    {env : Environment}
    {commit : Commit}
    (sound : commit.Sound env)
    (fits : ∀ change ∈ commit.tx.changes, change.Fits)
    (tableId columnId : Int)
    (records : commit.Records tableId columnId) :
    ∃ pending ∈ commit.prepared.changes.newColumns, pending.entity.tableId = tableId ∧
      pending.entity.columnId = columnId := by
  obtain ⟨change, member, ref, columns, ids, introduces, found, listed⟩ := records
  obtain ⟨stats, success⟩ := sound.prepared
  obtain ⟨owner, foundOwner, own, reserved⟩ := prepareCommit_hasRows env _ _ _ sound.tx.present
    (fun change member => fits change (ChangeSet.mem_of_mem_new _ change member)) success change
    member ref columns ids introduces
  rw [found] at foundOwner
  cases foundOwner
  have key : (tableId, columnId) ∈ commit.prepared.changes.columnKeys := by
    rcases listed with given | taken
    · obtain ⟨column, inside, rfl⟩ := List.mem_map.mp given
      exact own column inside
    · exact reserved columnId taken
  obtain ⟨pending, inside, same⟩ := List.mem_map.mp key
  exact ⟨pending, inside, congrArg Prod.fst same, congrArg Prod.snd same⟩

end Commit

namespace System

theorem reachable_fits
    (env : Environment)
    (now : Int)
    (sys : System)
    (run : Reachable env WithoutExpiration now sys) :
    sys.Transactions fun tx => ∀ change ∈ tx.changes, change.Fits := by
  refine reachable_edited env _ now sys ?_ ?_ run
  · intro info catalog _ change member
    cases member
  · intro db stats method tx changes catalog sound fits edit
    exact List.forall_mem_append.mpr ⟨fits, fits_of_edit tx.catalog catalog sound.catalog edit⟩

theorem follows_of_lt
    {sys : System}
    (inOrder : sys.SnapshotsInOrder)
    (earlier later : Commit)
    (member : earlier ∈ sys.history)
    (memberLater : later ∈ sys.history)
    (below : earlier.snapshotId < later.snapshotId) :
    Follows earlier later := by
  obtain ⟨front, back, split⟩ := List.append_of_mem memberLater
  have ordered := inOrder.1
  rw [split] at ordered member
  obtain ⟨_, after, across⟩ := List.pairwise_append.mp ordered
  rcases List.mem_append.mp member with before | behind
  · exact across earlier before later (List.mem_cons_self ..)
  · rcases List.mem_cons.mp behind with rfl | behind
    · omega
    · have above := ((List.pairwise_cons.mp after).1 earlier behind).1
      omega

/-- The columns of a table that a commit works on were stored before its transaction started. -/
theorem beginSnapshot_le_start
    (env : Environment)
    (now : Int)
    (sys : System)
    (run : Reachable env WithoutExpiration now sys)
    (commit : Commit)
    (member : commit ∈ sys.history)
    (change : Change)
    (ref : TableRef)
    (tableId : Int)
    (inside : change ∈ (ChangeSet.new commit.tx.changes).changes)
    (works : change.worksOn = some ref)
    (found : commit.tx.catalog.idOf (.table ref) = some tableId)
    (row : Versioned DucklakeColumn)
    (stored : row ∈ sys.db.columns)
    (owner : row.entity.tableId = tableId)
    (older : row.beginSnapshot < commit.snapshotId) :
    row.beginSnapshot ≤ commit.start.id := by
  have recorded := reachable_recorded env now sys run
  have sound := (reachable_sound env _ now sys run).commits
  have inOrder := (numbered_of_withoutExpiration run).inOrder
  by_contra interim
  obtain ⟨earlier, listed, began, pending, written, entity⟩ := recorded.columns row stored
  have soundEarlier := sound earlier listed
  obtain ⟨stats, success⟩ := soundEarlier.prepared
  obtain ⟨cause, causeMember, table, defines, foundCause⟩ := prepareCommit_columnsDefined env _ _ _
    soundEarlier.tx.present success pending written
  rw [entity, owner] at foundCause
  rcases defines with created | altered
  · -- The table is visible at the start, so no later commit created it.
    have visible := ((reachable_idsVisible env now sys run).commits commit member).holds _ _ found
    obtain ⟨tableEntity, seenAt, rfl⟩ := List.mem_map.mp visible
    obtain ⟨tableRow, filtered, rfl⟩ := List.mem_map.mp seenAt
    obtain ⟨tableStored, seen⟩ := List.mem_filter.mp filtered
    simp only [Versioned.visibleAt, Bool.and_eq_true, decide_eq_true_eq] at seen
    have start := (sound commit member).snapshot
    have bound := recorded.tables earlier listed tableRow tableStored (by
      rw [start] at seen
      omega)
    obtain ⟨start, catalog, next, extends_⟩ := soundEarlier.state
    have missing := soundEarlier.tx.idOf_created cause (ChangeSet.mem_of_mem_new _ _ causeMember)
      (.table table) created
    rcases extends_.fresh _ _ foundCause with old | given
    · rw [catalog, missing] at old
      cases old
    · omega
  · have follows := follows_of_lt inOrder earlier commit listed member (by omega)
    refine (follows.untouched env earlier commit change ref tableId (sound commit member) ?_ inside
      works found).1 ?_
    · omega
    · exact Prepared.recorded_mem env earlier.tx earlier.base earlier.prepared soundEarlier.tx
        soundEarlier.prepared cause table .alteredTable tableId causeMember altered foundCause

theorem lt_of_adds
    (env : Environment)
    (now : Int)
    (sys : System)
    (run : Reachable env WithoutExpiration now sys)
    (commit : Commit)
    (member : commit ∈ sys.history)
    (tableId columnId : Int)
    (adds : commit.Adds tableId columnId)
    (row : Versioned DucklakeColumn)
    (stored : row ∈ sys.db.columns)
    (owner : row.entity.tableId = tableId)
    (older : row.beginSnapshot < commit.snapshotId) :
    row.entity.columnId < columnId := by
  have sound := (reachable_sound env _ now sys run).commits commit member
  have numbered := ((reachable_columnsNumbered env now sys run).commits commit member).holds
  have fits := (reachable_fits env now sys run).commits commit member
  obtain ⟨parent, refs, column, inside, ref, listed, found, rfl⟩ := adds
  have recorded := ChangeSet.mem_of_mem_new _ _ inside
  obtain ⟨start, catalog, next, extends_⟩ := sound.state
  rw [sound.columnId]
  cases known : commit.tx.catalog.idOf (.table ref.tableRef) with
  | none =>
      -- The commit created the table, so no row before it mentions the table.
      have bound := (reachable_recorded env now sys run).owners commit member row stored older
      rcases extends_.fresh _ _ found with old | given
      · rw [catalog, known] at old
        cases old
      · omega
  | some id =>
      have kept := extends_.kept _ _ (catalog.symm ▸ known)
      rw [found] at kept
      cases kept
      have works : (Change.addTableColumn parent refs column).worksOn = some ref.tableRef := by
        obtain ⟨_, table, same⟩ := fits _ recorded
        cases refs with
        | nil => cases listed
        | cons first rest =>
            change some first.tableRef = some ref.tableRef
            rw [same first (by simp), same ref listed]
      have began := beginSnapshot_le_start env now sys run commit member _ ref.tableRef tableId inside
        works known row stored owner older
      rw [← sound.snapshot] at began
      exact numbered.fresh _ recorded ref listed tableId known _ ⟨row, stored, began, owner, rfl⟩

/-- The columns that a set's changes record for a table are those of the attempt's catalog. -/
theorem columnIds_of_sound
    {env : Environment}
    {commit : Commit}
    (sound : commit.Sound env)
    (change : Change)
    (ref : TableRef) :
    change.columnIds commit.prepared.state.catalog ref =
      change.columnIds commit.tx.catalog ref := by
  unfold Change.columnIds
  congr 1
  exact List.map_congr_left fun column _ => sound.columnId column

/-- Added columns get ids above all that were recorded for their table before. -/
structure ColumnIdsIncrease (sys : System) : Prop where
  /-- Above those of all rows that were stored for the table before the commit. -/
  stored : ∀ commit ∈ sys.history, ∀ row ∈ sys.db.columns,
    row.beginSnapshot < commit.snapshotId → ∀ columnId,
      commit.Adds row.entity.tableId columnId → row.entity.columnId < columnId
  /-- Above those that an earlier commit gave out or reserved. -/
  history : sys.history.Pairwise fun earlier later => ∀ tableId old new,
    earlier.Records tableId old → later.Adds tableId new → old < new
  /-- Above those of all changes before the addition in its transaction. -/
  transaction : ∀ commit ∈ sys.history, ∀ earlier later parent refs column,
    commit.tx.changes = earlier ++ .addTableColumn parent refs column :: later →
      ∀ ref ∈ refs, ∀ change ∈ earlier,
        ∀ id ∈ change.columnIds commit.prepared.state.catalog ref.tableRef,
          id < commit.prepared.state.columnId ref
  /-- A nested column is above the columns around it. -/
  nested : ∀ commit ∈ sys.history, ∀ parent refs column,
    .addTableColumn parent refs column ∈ commit.tx.changes →
      (refs.map commit.prepared.state.columnId).Pairwise (· < ·)
  /-- The ids that were retired in the source of a transferred table are recorded for it. -/
  transferred : ∀ commit ∈ sys.history, ∀ schemaRef ref columnRefs partitionRefs name columns retired
    partitioning sortInfo path tags,
    .createTable schemaRef ref columnRefs partitionRefs name columns retired partitioning sortInfo
        path tags ∈ (ChangeSet.new commit.tx.changes).changes →
      ∀ (source : Database) sourceId schema,
        retired = Transfer.retiredColumns source sourceId schema →
          ∃ tableId, commit.prepared.state.catalog.idOf (.table ref) = some tableId ∧
            ∀ row ∈ source.columns, row.entity.tableId = sourceId →
              row.entity.columnId ∉ Transfer.activeColumnIds schema →
                commit.Records tableId row.entity.columnId

/-- In every run of commits and transfers, no added column reuses an id of its table. -/
theorem columnIdsIncrease_of_reachable
    (env : Environment)
    (now : Int)
    (sys : System)
    (run : Reachable env WithoutExpiration now sys) :
    sys.ColumnIdsIncrease := by
  have sound := (reachable_sound env _ now sys run).commits
  have inOrder := (numbered_of_withoutExpiration run).inOrder
  have recorded := reachable_recorded env now sys run
  have fits := (reachable_fits env now sys run).commits
  have numbered := (reachable_columnsNumbered env now sys run).commits
  constructor
  case stored =>
    intro commit member row stored older columnId adds
    exact lt_of_adds env now sys run commit member _ columnId adds row stored rfl older
  case history =>
    refine inOrder.1.imp_of_mem fun {earlier later} member memberLater follows => ?_
    intro tableId old new records adds
    obtain ⟨pending, written, rfl, rfl⟩ :=
      (sound earlier member).mem_newColumns (fits earlier member) tableId old records
    obtain ⟨row, stored, began, entity⟩ := recorded.stored earlier member pending written
    rw [← entity] at adds ⊢
    exact lt_of_adds env now sys run later memberLater _ new adds row stored rfl
      (began ▸ follows.1)
  case transaction =>
    intro commit member earlier later parent refs column split ref listed change inside id given
    have ordered := (numbered commit member).holds.ordered
    rw [split] at ordered
    rw [columnIds_of_sound (sound commit member)] at given
    rw [(sound commit member).columnId]
    exact (List.pairwise_append.mp ordered).2.2 change inside _ (List.mem_cons_self ..) ref listed id
      given
  case nested =>
    intro commit member parent refs column recorded
    have increasing := (numbered commit member).holds.increasing _ recorded
    rwa [List.map_congr_left fun ref _ => (sound commit member).columnId ref]
  case transferred =>
    intro commit member schemaRef ref columnRefs partitionRefs name columns retired partitioning
      sortInfo path tags inside source sourceId schema transfer
    obtain ⟨stats, success⟩ := (sound commit member).prepared
    obtain ⟨tableId, found, _⟩ := prepareCommit_hasRows env _ _ _ (sound commit member).tx.present
      (fun change recorded => fits commit member change (ChangeSet.mem_of_mem_new _ change recorded))
      success _ inside ref columnRefs.flatten (retired.map DucklakeColumn.columnId) rfl
    refine ⟨tableId, found, fun row stored owner dropped => ?_⟩
    refine ⟨_, inside, ref, _, _, rfl, found, Or.inr ?_⟩
    rw [transfer]
    exact (Transfer.activeColumnIds_or_retiredColumns source sourceId schema row stored
      owner).resolve_left dropped

/-- A table comes from another catalog, which had dropped its column with id 7.  Later a column is
added, removed and another one added. -/
def transferredTable : List Label :=
  let column (name : String) (fieldId : Option Int) : Column :=
    .mk name.toList (.primitive .int32) true default none (.literal none) fieldId
  let table : QualifiedName := ⟨"main".toList, "t".toList⟩
  .begin :: working 0 ⟨0, 0, 1, 0⟩ [.createTransferTable table {
      name := table
      schema := ⟨.ofList [("a".toList, column "a" (some 3))]⟩
      partitioning := none
      sortInfo := none
      tags := default }
    [{
      columnId := 7
      tableId := 12
      columnOrder := some 7
      columnName := "b".toList
      columnType := "int32".toList
      initialDefault := none
      defaultValue := none
      nullsAllowed := true
      parentColumn := none
      defaultValueType := none
      defaultValueDialect := none }]] ++ committing 0 ⟨0, 0, 1, 0⟩ ++
  .begin :: working 1 ⟨1, 1, 2, 0⟩ [.addTableColumn table (column "b" none) [],
    .removeTableColumn table ["b".toList], .addTableColumn table (column "c" none) []] ++
    committing 1 ⟨1, 1, 2, 0⟩

theorem columnIdsIncrease_transferredTable :
    ∃ sys, transferredTable.foldlM (step .plain) (init 0) = some sys ∧
      sys.db.columns.map (fun row => (row.entity.columnId, row.beginSnapshot, row.endSnapshot)) =
        [(3, 1, none), (7, 1, some 1), (8, 2, some 2), (9, 2, none)] ∧
      sys.ColumnIdsIncrease := by
  obtain ⟨sys, taken, rows⟩ : ∃ sys,
      transferredTable.foldlM (step .plain) (init 0) = some sys ∧
        sys.db.columns.map (fun row => (row.entity.columnId, row.beginSnapshot, row.endSnapshot)) =
          [(3, 1, none), (7, 1, some 1), (8, 2, some 2), (9, 2, none)] :=
    Option.map_eq_some_iff.mp (by decide +kernel)
  have permitted : ∀ label ∈ transferredTable, label.isExpiration = false := by decide
  exact ⟨sys, taken, rows, columnIdsIncrease_of_reachable .plain 0 sys
    (Reaches.of_foldlM transferredTable (fun _ => permitted) taken)⟩

end System

end Ducklake
