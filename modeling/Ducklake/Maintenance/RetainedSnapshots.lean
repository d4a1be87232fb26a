import Ducklake.Catalog.VisibleReads
import Ducklake.Maintenance.TablePaths
import Ducklake.Scan.ScanTable
import Ducklake.Transaction.Bounds
import Ducklake.Transaction.FileIds

/-!
# What an expiration leaves

An expiration takes no row away that a retained snapshot reads.
-/

set_option autoImplicit false

namespace Ducklake.Maintenance

open Lib Spec Scan

/-! ## Rows that no snapshot sees -/

section

variable {α : Type}

theorem inactive_of_seen
    {db : Database}
    {snapshot : DucklakeSnapshot}
    (known : snapshot ∈ db.snapshots)
    (row : Versioned α)
    (seen : row.visibleAt snapshot.snapshotId = true) :
    inactive db row = false := by
  unfold inactive
  unfold Versioned.visibleAt at seen
  cases ended : row.endSnapshot with
  | none => rfl
  | some finish =>
      simp only [ended, Bool.and_eq_true, decide_eq_true_eq] at seen
      simp only [Bool.not_eq_false', List.any_eq_true, decide_eq_true_eq]
      exact ⟨snapshot, known, seen⟩

theorem inactive_eq_false_iff
    {db : Database}
    {latest : DucklakeSnapshot}
    (known : latest ∈ db.snapshots)
    (row : Versioned α)
    (begun : row.beginSnapshot ≤ latest.snapshotId) :
    inactive db row = false ↔
      ∃ snapshot ∈ db.snapshots, row.visibleAt snapshot.snapshotId = true := by
  constructor
  · intro active
    cases ended : row.endSnapshot with
    | none => exact ⟨latest, known, by simp [Versioned.visibleAt, ended, begun]⟩
    | some finish =>
        simp only [inactive, ended, Bool.not_eq_false', List.any_eq_true,
          decide_eq_true_eq] at active
        obtain ⟨snapshot, member, started, before⟩ := active
        exact ⟨snapshot, member, by simp [Versioned.visibleAt, ended, started, before]⟩
  · rintro ⟨snapshot, member, seen⟩
    exact inactive_of_seen member row seen

/-- A snapshot does not notice that rows are gone which it does not see. -/
theorem entitiesAt_filter
    (snapshot : Int)
    (keeps : Versioned α → Bool)
    (rows : List (Versioned α))
    (kept : ∀ row ∈ rows, row.visibleAt snapshot = true → keeps row = true) :
    Versioned.entitiesAt snapshot (rows.filter keeps) = Versioned.entitiesAt snapshot rows := by
  unfold Versioned.entitiesAt
  rw [List.filter_filter]
  refine congrArg (List.map Versioned.entity) (List.filter_congr fun row member => ?_)
  cases seen : row.visibleAt snapshot with
  | false => rfl
  | true => simp [kept row member seen]

theorem entitiesAt_filter_inactive
    {db : Database}
    {snapshot : DucklakeSnapshot}
    (known : snapshot ∈ db.snapshots)
    (rows : List (Versioned α)) :
    Versioned.entitiesAt snapshot.snapshotId (rows.filter fun row => !inactive db row) =
      Versioned.entitiesAt snapshot.snapshotId rows :=
  entitiesAt_filter _ _ rows fun row _ seen => by simp [inactive_of_seen known row seen]

theorem filter_owner
    (owner : α → Int)
    (gone : List Int)
    (rows : List α)
    (id : Int)
    (kept : id ∉ gone) :
    (rows.filter fun row => owner row ∉ gone).filter (fun row => owner row = id) =
      rows.filter fun row => owner row = id := by
  rw [List.filter_filter]
  refine List.filter_congr fun row _ => ?_
  by_cases own : owner row = id
  · simp [own, kept]
  · simp [own]

theorem entitiesAt_filter_owner
    (owner : α → Int)
    (gone : List Int)
    (rows : List (Versioned α))
    (snapshot id : Int)
    (kept : id ∉ gone) :
    (Versioned.entitiesAt snapshot (rows.filter fun row => owner row.entity ∉ gone)).filter
        (fun entity => owner entity = id) =
      (Versioned.entitiesAt snapshot rows).filter fun entity => owner entity = id := by
  have commuted : Versioned.entitiesAt snapshot (rows.filter fun row => owner row.entity ∉ gone) =
      (Versioned.entitiesAt snapshot rows).filter fun entity => owner entity ∉ gone := by
    unfold Versioned.entitiesAt
    rw [List.filter_filter, List.filter_map, List.filter_filter]
    refine congrArg (List.map Versioned.entity) (List.filter_congr fun row _ => ?_)
    exact Bool.and_comm _ _
  rw [commuted, filter_owner owner gone _ id kept]

theorem flatMap_filter_of_nil
    {β : Type}
    (rows : List α)
    (keeps : α → Bool)
    (f : α → List β)
    (empty : ∀ row ∈ rows, keeps row = false → f row = []) :
    (rows.filter keeps).flatMap f = rows.flatMap f := by
  induction rows with
  | nil => rfl
  | cons row rest ih =>
      have others := ih fun other member => empty other (List.mem_cons_of_mem _ member)
      cases kept : keeps row with
      | true => rw [List.filter_cons_of_pos kept, List.flatMap_cons, List.flatMap_cons, others]
      | false =>
          rw [List.filter_cons_of_neg (by simp [kept]), List.flatMap_cons,
            empty row List.mem_cons_self kept, others, List.nil_append]

theorem find?_filter_of_kept
    (rows : List α)
    (keeps finds : α → Bool)
    (kept : ∀ row, finds row = true → keeps row = true) :
    (rows.filter keeps).find? finds = rows.find? finds := by
  rw [List.find?_filter]
  refine congrFun (congrArg List.find? (funext fun row => ?_)) rows
  cases found : finds row with
  | true => simp [kept row found]
  | false => simp

theorem filter_key_notMem
    (key : α → Int)
    (rows : List α)
    (selects : α → Bool)
    (ids : List Int)
    (distinct : (rows.map key).Nodup)
    (listed : ∀ row ∈ rows, key row ∈ ids ↔ key row ∈ (rows.filter selects).map key) :
    rows.filter (fun row => key row ∉ ids) = rows.filter fun row => !selects row := by
  refine List.filter_congr fun row member => ?_
  have selected : key row ∈ (rows.filter selects).map key ↔ selects row = true := by
    rw [List.mem_map]
    constructor
    · rintro ⟨other, inside, same⟩
      obtain ⟨stored, chosen⟩ := List.mem_filter.mp inside
      rwa [← List.inj_on_of_nodup_map distinct stored member same]
    · exact fun chosen => ⟨row, List.mem_filter.mpr ⟨member, chosen⟩, rfl⟩
  cases chosen : selects row with
  | true => simp [(listed row member).mpr (selected.mpr chosen)]
  | false =>
      have absent : key row ∉ ids := fun inside => by
        simp [selected.mp ((listed row member).mp inside)] at chosen
      simp [absent]

end

/-! ## The rows that are left -/

def withoutExpired (filter : SnapshotFilter) (db : Database) : Database :=
  deleteSnapshots (findExpiredSnapshots filter db) db

/-- What is left of the rows once the expired snapshots are gone. -/
structure Expires (rest after : Database) : Prop where
  snapshots : after.snapshots = rest.snapshots
  schemas : after.schemas = rest.schemas.filter fun row => !inactive rest row
  tags : after.tags = rest.tags.filter fun row => !inactive rest row
  macros : after.macros = rest.macros.filter fun row => !inactive rest row
  views : after.views = rest.views.filter fun row => !inactive rest row
  dataFiles : after.dataFiles = rest.dataFiles.filter fun row => !inactive rest row
  deleteFiles : after.deleteFiles = rest.deleteFiles.filter fun row => !inactive rest row
  tables : after.tables =
    rest.tables.filter fun row => row.entity.tableId ∉ findExpiredTables rest
  columns : after.columns =
    rest.columns.filter fun row => row.entity.tableId ∉ findExpiredTables rest
  columnTags : after.columnTags =
    rest.columnTags.filter fun row => row.entity.tableId ∉ findExpiredTables rest
  partitionInfo : after.partitionInfo =
    rest.partitionInfo.filter fun row => row.entity.tableId ∉ findExpiredTables rest
  partitionColumns : after.partitionColumns =
    rest.partitionColumns.filter fun row => row.tableId ∉ findExpiredTables rest
  sortInfo : after.sortInfo =
    rest.sortInfo.filter fun row => row.entity.tableId ∉ findExpiredTables rest
  sortExpressions : after.sortExpressions =
    rest.sortExpressions.filter fun row => row.tableId ∉ findExpiredTables rest
  macroImpls : after.macroImpls = rest.macroImpls.filter fun row =>
    row.macroId ∈ after.macros.map fun row => row.entity.macroId
  macroParameters : after.macroParameters = rest.macroParameters.filter fun row =>
    row.macroId ∈ after.macros.map fun row => row.entity.macroId
  fileColumnStats : after.fileColumnStats = rest.fileColumnStats.filter fun row =>
    row.dataFileId ∈ after.dataFiles.map fun row => row.entity.dataFileId
  filePartitionValues : after.filePartitionValues = rest.filePartitionValues.filter fun row =>
    row.dataFileId ∈ after.dataFiles.map fun row => row.entity.dataFileId
  schemaVersions : after.schemaVersions =
    rest.schemaVersions.filter fun row => row.tableId.all (· ∉ findExpiredTables rest)
  tableStats : after.tableStats =
    rest.tableStats.filter fun row => row.tableId ∉ findExpiredTables rest
  tableColumnStats : after.tableColumnStats =
    rest.tableColumnStats.filter fun row => row.tableId ∉ findExpiredTables rest
  inlinedDeletes : after.inlinedDeletes = rest.inlinedDeletes
  inlinedDataTables : after.inlinedDataTables =
    rest.inlinedDataTables.filter fun row => row.tableId ∉ findExpiredTables rest
  inlinedData : after.inlinedData = rest.inlinedData.filter fun table =>
    table.name ∉ (rest.inlinedDataTables.filter fun row =>
      row.tableId ∈ findExpiredTables rest).map DucklakeInlinedDataTables.tableName

/-- With distinct file ids, exactly the inactive files are taken away. -/
theorem markDataFilesForDeletion_eq_ok
    (catalog : Catalog)
    (rest marked : Database)
    (distinct : rest.fileIds.Nodup)
    (success : markDataFilesForDeletion catalog rest = .ok marked) :
    marked = { rest with
      dataFiles := rest.dataFiles.filter fun row => !inactive rest row
      deleteFiles := rest.deleteFiles.filter fun row => !inactive rest row } := by
  obtain ⟨dataIds, deleteIds, apart⟩ := List.nodup_append.mp distinct
  unfold markDataFilesForDeletion at success
  dsimp only at success
  split at success
  · obtain rfl := Except.ok.inj success
    rw [filter_key_notMem (fun row => row.entity.dataFileId) rest.dataFiles (inactive rest) _
        dataIds fun row member => ?_,
      filter_key_notMem (fun row => row.entity.deleteFileId) rest.deleteFiles (inactive rest) _
        deleteIds fun row member => ?_]
    · refine List.mem_append.trans (or_iff_right fun inside => ?_)
      obtain ⟨other, expired, same⟩ := List.mem_map.mp inside
      exact apart _ (List.mem_map_of_mem (List.mem_of_mem_filter expired)) _
        (List.mem_map_of_mem member) same
    · refine List.mem_append.trans (or_iff_left fun inside => ?_)
      obtain ⟨other, expired, same⟩ := List.mem_map.mp inside
      exact apart _ (List.mem_map_of_mem member) _
        (List.mem_map_of_mem (List.mem_of_mem_filter expired)) same.symm
  · cases success

theorem expires_of_expireSnapshots
    (catalog : Catalog)
    (filter : SnapshotFilter)
    (db after : Database)
    (distinct : db.fileIds.Nodup)
    (success : expireSnapshots catalog filter db = .ok after) :
    Expires (withoutExpired filter db) after := by
  obtain ⟨marked, markedOk, finished⟩ := bind_eq_ok.mp success
  have same := markDataFilesForDeletion_eq_ok catalog (withoutExpired filter db) marked distinct
    markedOk
  subst same
  obtain rfl := Except.ok.inj finished
  constructor <;> rfl

/-! ## What retained snapshots see -/

/-- Scanning a table reads the same rows at the snapshot. -/
structure ScansSame (before after : Database) (snapshot tableId : Int) : Prop where
  dataFiles : dataFilesQuery after tableId snapshot = dataFilesQuery before tableId snapshot
  columnStats : columnStatsQuery after tableId snapshot = columnStatsQuery before tableId snapshot
  deleteFiles : deleteFilesQuery after tableId snapshot = deleteFilesQuery before tableId snapshot
  inlinedDeletes :
    inlinedDeletesQuery after tableId snapshot = inlinedDeletesQuery before tableId snapshot
  inlinedDataTables : inlinedDataTablesQuery after tableId = inlinedDataTablesQuery before tableId
  inlinedData : ∀ table ∈ inlinedDataTablesQuery before tableId,
    inlinedDataTable after table = inlinedDataTable before table

/-- The snapshot has the same catalog, and the same data in every table of it. -/
structure KeepsSnapshot (env : Environment) (before after : Database) (snapshot : Int) :
    Prop where
  tables : Versioned.entitiesAt snapshot after.tables = Versioned.entitiesAt snapshot before.tables
  catalog : Catalog.load env after snapshot = Catalog.load env before snapshot
  scans : ∀ table ∈ Versioned.entitiesAt snapshot before.tables,
    ScansSame before after snapshot table.tableId

theorem ScansSame.trans
    {first second third : Database}
    {snapshot tableId : Int}
    (earlier : ScansSame first second snapshot tableId)
    (later : ScansSame second third snapshot tableId) :
    ScansSame first third snapshot tableId where
  dataFiles := later.dataFiles.trans earlier.dataFiles
  columnStats := later.columnStats.trans earlier.columnStats
  deleteFiles := later.deleteFiles.trans earlier.deleteFiles
  inlinedDeletes := later.inlinedDeletes.trans earlier.inlinedDeletes
  inlinedDataTables := later.inlinedDataTables.trans earlier.inlinedDataTables
  inlinedData table member :=
    (later.inlinedData table (earlier.inlinedDataTables ▸ member)).trans
      (earlier.inlinedData table member)

section

variable {env : Environment} {snapshot : Int}

theorem KeepsSnapshot.refl (db : Database) : KeepsSnapshot env db db snapshot :=
  ⟨rfl, rfl, fun _ _ => ⟨rfl, rfl, rfl, rfl, rfl, fun _ _ => rfl⟩⟩

theorem KeepsSnapshot.trans
    {first second third : Database}
    (earlier : KeepsSnapshot env first second snapshot)
    (later : KeepsSnapshot env second third snapshot) :
    KeepsSnapshot env first third snapshot where
  tables := later.tables.trans earlier.tables
  catalog := later.catalog.trans earlier.catalog
  scans table visible :=
    (earlier.scans table visible).trans (later.scans table (earlier.tables ▸ visible))

end

section

variable {rest after : Database} {snapshot : DucklakeSnapshot}

theorem seen_notMem_findExpiredTables
    (known : snapshot ∈ rest.snapshots)
    (table : DucklakeTable)
    (visible : table ∈ Versioned.entitiesAt snapshot.snapshotId rest.tables) :
    table.tableId ∉ findExpiredTables rest := by
  obtain ⟨row, inside, rfl⟩ := List.mem_map.mp visible
  obtain ⟨stored, seen⟩ := List.mem_filter.mp inside
  have active := inactive_of_seen known row seen
  intro expired
  have unseen := (List.mem_filter.mp expired).2
  rw [Bool.not_eq_true', List.any_eq_false] at unseen
  exact unseen row stored (by simp [active])

theorem Expires.readsVisible
    (expires : Expires rest after)
    (known : snapshot ∈ rest.snapshots) :
    Catalog.ReadsVisible rest after snapshot.snapshotId := by
  have spared := fun table visible => seen_notMem_findExpiredTables known table visible
  have macros : Versioned.entitiesAt snapshot.snapshotId after.macros =
      Versioned.entitiesAt snapshot.snapshotId rest.macros := by
    rw [expires.macros, entitiesAt_filter_inactive known]
  have macroKept : ∀ entity ∈ Versioned.entitiesAt snapshot.snapshotId rest.macros,
      entity.macroId ∈ after.macros.map fun row => row.entity.macroId := by
    intro entity visible
    rw [← macros] at visible
    obtain ⟨row, inside, rfl⟩ := List.mem_map.mp visible
    exact List.mem_map_of_mem (List.mem_of_mem_filter inside)
  constructor
  case schemas => rw [expires.schemas, entitiesAt_filter_inactive known]
  case views => rw [expires.views, entitiesAt_filter_inactive known]
  case macros => exact macros
  case tags => rw [expires.tags, entitiesAt_filter_inactive known]
  case tables =>
    rw [expires.tables]
    refine entitiesAt_filter _ _ _ fun row stored seen => decide_eq_true ?_
    exact spared row.entity (List.mem_map_of_mem (List.mem_filter.mpr ⟨stored, seen⟩))
  case columns =>
    intro table visible
    rw [expires.columns, entitiesAt_filter_owner DucklakeColumn.tableId _ _ _ _
      (spared table visible)]
  case columnTags =>
    intro table visible
    rw [expires.columnTags, entitiesAt_filter_owner DucklakeColumnTag.tableId _ _ _ _
      (spared table visible)]
  case partitionInfo =>
    intro table visible
    rw [expires.partitionInfo, entitiesAt_filter_owner DucklakePartitionInfo.tableId _ _ _ _
      (spared table visible)]
  case sortInfo =>
    intro table visible
    rw [expires.sortInfo, entitiesAt_filter_owner DucklakeSortInfo.tableId _ _ _ _
      (spared table visible)]
  case partitionColumns =>
    intro table visible
    rw [expires.partitionColumns, filter_owner DucklakePartitionColumn.tableId _ _ _
      (spared table visible)]
  case sortExpressions =>
    intro table visible
    rw [expires.sortExpressions, filter_owner DucklakeSortExpression.tableId _ _ _
      (spared table visible)]
  case macroImpls =>
    intro entity visible
    rw [expires.macroImpls, List.filter_filter]
    refine List.filter_congr fun row _ => ?_
    by_cases own : row.macroId = entity.macroId
    · simp only [own, macroKept entity visible, decide_true, Bool.and_self]
    · simp only [own, decide_false, Bool.false_and]
  case macroParameters =>
    intro entity visible
    rw [expires.macroParameters, List.filter_filter]
    refine List.filter_congr fun row _ => ?_
    by_cases own : row.macroId = entity.macroId
    · simp only [own, macroKept entity visible, decide_true, Bool.and_self]
    · simp only [own, decide_false, Bool.false_and]

theorem Expires.scansSame
    (expires : Expires rest after)
    (names : (rest.inlinedDataTables.map DucklakeInlinedDataTables.tableName).Nodup)
    (known : snapshot ∈ rest.snapshots)
    (table : DucklakeTable)
    (visible : table ∈ Versioned.entitiesAt snapshot.snapshotId rest.tables) :
    ScansSame rest after snapshot.snapshotId table.tableId := by
  have spared := seen_notMem_findExpiredTables known table visible
  have dataFiles : Versioned.entitiesAt snapshot.snapshotId after.dataFiles =
      Versioned.entitiesAt snapshot.snapshotId rest.dataFiles := by
    rw [expires.dataFiles, entitiesAt_filter_inactive known]
  constructor
  case dataFiles => rw [dataFilesQuery, dataFilesQuery, dataFiles]
  case deleteFiles =>
    rw [deleteFilesQuery, deleteFilesQuery, expires.deleteFiles, entitiesAt_filter_inactive known]
  case inlinedDeletes => rw [inlinedDeletesQuery, inlinedDeletesQuery, expires.inlinedDeletes]
  case inlinedDataTables =>
    rw [inlinedDataTablesQuery, inlinedDataTablesQuery, expires.inlinedDataTables,
      filter_owner DucklakeInlinedDataTables.tableId _ _ _ spared]
  case columnStats =>
    -- The statistics of a file that is gone have no file to join.
    unfold columnStatsQuery
    rw [dataFiles, expires.fileColumnStats]
    unfold innerJoin
    rw [List.filter_comm, List.map_flatMap, List.map_flatMap]
    refine flatMap_filter_of_nil _ _ _ fun stats member dropped => ?_
    rw [List.map_eq_nil_iff, List.map_eq_nil_iff, List.filter_eq_nil_iff]
    intro file seen same
    rw [← dataFiles] at seen
    obtain ⟨row, inside, rfl⟩ := List.mem_map.mp seen
    have kept : stats.dataFileId ∈ after.dataFiles.map fun row => row.entity.dataFileId := by
      rw [of_decide_eq_true same]
      exact List.mem_map_of_mem (List.mem_of_mem_filter inside)
    simp [kept] at dropped
  case inlinedData =>
    intro registered member
    obtain ⟨stored, own⟩ := List.mem_filter.mp member
    have named : registered.tableName ∉ (rest.inlinedDataTables.filter fun row =>
        row.tableId ∈ findExpiredTables rest).map DucklakeInlinedDataTables.tableName := by
      intro inside
      obtain ⟨other, expired, same⟩ := List.mem_map.mp inside
      obtain ⟨otherStored, otherExpired⟩ := List.mem_filter.mp expired
      rw [List.inj_on_of_nodup_map names otherStored stored same] at otherExpired
      rw [of_decide_eq_true own] at otherExpired
      exact spared (of_decide_eq_true otherExpired)
    unfold inlinedDataTable
    rw [expires.inlinedData, find?_filter_of_kept _ _ _ fun entry found => ?_]
    rw [of_decide_eq_true found]
    exact decide_eq_true named

theorem Expires.keepsSnapshot
    (expires : Expires rest after)
    (names : (rest.inlinedDataTables.map DucklakeInlinedDataTables.tableName).Nodup)
    (known : snapshot ∈ rest.snapshots)
    (env : Environment) :
    KeepsSnapshot env rest after snapshot.snapshotId where
  tables := (expires.readsVisible known).tables
  catalog := (expires.readsVisible known).load env
  scans table visible := expires.scansSame names known table visible

end

/-! ## Which rows are left -/

def seenBy {α : Type} (snapshots : List DucklakeSnapshot) (row : Versioned α) : Bool :=
  snapshots.any fun snapshot => row.visibleAt snapshot.snapshotId

/-- A snapshot sees some version of the table, if it has versions at all. -/
def leavesTable (db : Database) (snapshots : List DucklakeSnapshot) (tableId : Int) : Bool :=
  let versions := db.tables.filter fun row => row.entity.tableId = tableId
  versions.isEmpty || versions.any (seenBy snapshots)

/-- Exactly these rows are left: of schemas, views, macros, tags and files those that a retained
snapshot sees; all versions of the tables of which it sees a version, with all rows that belong to
them; and the rows that belong to the macros and files that are left. -/
structure LeavesSeen (before after : Database) : Prop where
  schemas : after.schemas = before.schemas.filter (seenBy after.snapshots)
  views : after.views = before.views.filter (seenBy after.snapshots)
  macros : after.macros = before.macros.filter (seenBy after.snapshots)
  tags : after.tags = before.tags.filter (seenBy after.snapshots)
  dataFiles : after.dataFiles = before.dataFiles.filter (seenBy after.snapshots)
  deleteFiles : after.deleteFiles = before.deleteFiles.filter (seenBy after.snapshots)
  tables : after.tables = before.tables.filter fun row => before.tables.any fun other =>
    other.entity.tableId = row.entity.tableId && seenBy after.snapshots other
  columns : after.columns =
    before.columns.filter fun row => leavesTable before after.snapshots row.entity.tableId
  columnTags : after.columnTags =
    before.columnTags.filter fun row => leavesTable before after.snapshots row.entity.tableId
  partitionInfo : after.partitionInfo =
    before.partitionInfo.filter fun row => leavesTable before after.snapshots row.entity.tableId
  partitionColumns : after.partitionColumns =
    before.partitionColumns.filter fun row => leavesTable before after.snapshots row.tableId
  sortInfo : after.sortInfo =
    before.sortInfo.filter fun row => leavesTable before after.snapshots row.entity.tableId
  sortExpressions : after.sortExpressions =
    before.sortExpressions.filter fun row => leavesTable before after.snapshots row.tableId
  inlinedDataTables : after.inlinedDataTables =
    before.inlinedDataTables.filter fun row => leavesTable before after.snapshots row.tableId
  schemaVersions : after.schemaVersions =
    before.schemaVersions.filter fun row => row.tableId.all (leavesTable before after.snapshots)
  tableStats : after.tableStats =
    before.tableStats.filter fun row => leavesTable before after.snapshots row.tableId
  tableColumnStats : after.tableColumnStats =
    before.tableColumnStats.filter fun row => leavesTable before after.snapshots row.tableId
  macroImpls : after.macroImpls = before.macroImpls.filter fun row =>
    row.macroId ∈ after.macros.map fun row => row.entity.macroId
  macroParameters : after.macroParameters = before.macroParameters.filter fun row =>
    row.macroId ∈ after.macros.map fun row => row.entity.macroId
  fileColumnStats : after.fileColumnStats = before.fileColumnStats.filter fun row =>
    row.dataFileId ∈ after.dataFiles.map fun row => row.entity.dataFileId
  filePartitionValues : after.filePartitionValues = before.filePartitionValues.filter fun row =>
    row.dataFileId ∈ after.dataFiles.map fun row => row.entity.dataFileId

/-- A catalog of a latest snapshot, whose files and inline data tables can be told apart. -/
structure Expirable (latest : DucklakeSnapshot) (db : Database) : Prop where
  known : latest ∈ db.snapshots
  newest : ∀ snapshot ∈ db.snapshots, snapshot.snapshotId ≤ latest.snapshotId
  until_ : db.Until latest.snapshotId
  fileIds : db.fileIds.Nodup
  inlined : (db.inlinedDataTables.map DucklakeInlinedDataTables.tableName).Nodup

section

variable {latest : DucklakeSnapshot} {db rest after : Database}

theorem Expirable.inactive_eq
    {α : Type}
    (expirable : Expirable latest db)
    {rows : List (Versioned α)}
    (bounded : Versioned.Until latest.snapshotId rows)
    (row : Versioned α)
    (member : row ∈ rows) :
    (!inactive db row) = seenBy db.snapshots row := by
  have begun := (bounded row member).1
  have iff_ := inactive_eq_false_iff expirable.known row begun
  rw [Bool.eq_iff_iff, Bool.not_eq_true', iff_, seenBy, List.any_eq_true]

theorem Expirable.filter_inactive
    {α : Type}
    (expirable : Expirable latest db)
    {rows : List (Versioned α)}
    (bounded : Versioned.Until latest.snapshotId rows) :
    rows.filter (fun row => !inactive db row) = rows.filter (seenBy db.snapshots) :=
  List.filter_congr fun row member => expirable.inactive_eq bounded row member

theorem Expirable.latestId
    (expirable : Expirable latest db) :
    latestId db = some latest.snapshotId := by
  refine List.max?_eq_some_iff.mpr ⟨List.mem_map_of_mem expirable.known, fun id member => ?_⟩
  obtain ⟨snapshot, inside, rfl⟩ := List.mem_map.mp member
  exact expirable.newest snapshot inside

theorem Expirable.withoutExpired
    (expirable : Expirable latest db)
    (filter : SnapshotFilter) :
    Expirable latest (withoutExpired filter db) where
  known := by
    refine List.mem_filter.mpr ⟨expirable.known, decide_eq_true ?_⟩
    exact max_notMem_findExpiredSnapshots filter db _ expirable.latestId
  newest snapshot member := expirable.newest snapshot (List.mem_of_mem_filter member)
  until_ := { expirable.until_ with }
  fileIds := expirable.fileIds
  inlined := expirable.inlined

theorem mem_findExpiredTables (id : Int) :
    id ∈ findExpiredTables rest ↔ (∃ row ∈ rest.tables, row.entity.tableId = id) ∧
      ∀ row ∈ rest.tables, row.entity.tableId = id → inactive rest row = true := by
  unfold findExpiredTables
  rw [List.mem_filter, List.mem_map, Bool.not_eq_true', List.any_eq_false]
  constructor
  · rintro ⟨⟨row, inside, rfl⟩, active⟩
    refine ⟨⟨row, List.mem_of_mem_filter inside, rfl⟩, fun other member same => ?_⟩
    simpa [same] using active other member
  · rintro ⟨⟨row, member, rfl⟩, gone⟩
    refine ⟨⟨row, List.mem_filter.mpr ⟨member, gone row member rfl⟩, rfl⟩, ?_⟩
    intro other inside same
    simp only [Bool.not_eq_true', decide_eq_true_eq] at same
    rw [gone other inside same.1] at same
    cases same.2

theorem Expirable.notMem_findExpiredTables
    (expirable : Expirable latest rest)
    (id : Int) :
    decide (id ∉ findExpiredTables rest) = leavesTable rest rest.snapshots id := by
  have active := expirable.inactive_eq expirable.until_.tables
  rw [Bool.eq_iff_iff, decide_eq_true_eq, mem_findExpiredTables, leavesTable, Bool.or_eq_true,
    List.isEmpty_iff, List.filter_eq_nil_iff, List.any_eq_true]
  constructor
  · intro kept
    by_contra none_seen
    obtain ⟨versions, unseen⟩ := not_or.mp none_seen
    push Not at versions
    obtain ⟨row, member, same⟩ := versions
    refine kept ⟨⟨row, member, of_decide_eq_true same⟩, fun other inside sameId => ?_⟩
    by_contra found
    rw [Bool.not_eq_true] at found
    refine unseen ⟨other, List.mem_filter.mpr ⟨inside, decide_eq_true sameId⟩, ?_⟩
    rw [← active other inside, found]
    rfl
  · rintro (empty | ⟨other, found, seen⟩) ⟨⟨row, member, same⟩, gone⟩
    · exact empty row member (decide_eq_true same)
    · obtain ⟨inside, sameId⟩ := List.mem_filter.mp found
      rw [← active other inside, gone other inside (of_decide_eq_true sameId)] at seen
      cases seen

theorem leavesTable_version
    (row : Versioned DucklakeTable)
    (member : row ∈ rest.tables)
    (snapshots : List DucklakeSnapshot) :
    leavesTable rest snapshots row.entity.tableId = rest.tables.any fun other =>
      other.entity.tableId = row.entity.tableId && seenBy snapshots other := by
  have versions : (rest.tables.filter fun other =>
      other.entity.tableId = row.entity.tableId) ≠ [] :=
    List.ne_nil_of_mem (List.mem_filter.mpr ⟨member, decide_eq_true rfl⟩)
  rw [leavesTable]
  simp only [List.isEmpty_eq_false_iff.mpr versions, Bool.false_or, List.any_filter]

theorem Expires.leavesSeen
    (expires : Expires rest after)
    (expirable : Expirable latest rest) :
    LeavesSeen rest after := by
  have left : ∀ id, decide (id ∉ findExpiredTables rest) = leavesTable rest after.snapshots id := by
    rw [expires.snapshots]
    exact expirable.notMem_findExpiredTables
  constructor
  case schemas =>
    rw [expires.schemas, expires.snapshots, expirable.filter_inactive expirable.until_.schemas]
  case views =>
    rw [expires.views, expires.snapshots, expirable.filter_inactive expirable.until_.views]
  case macros =>
    rw [expires.macros, expires.snapshots, expirable.filter_inactive expirable.until_.macros]
  case tags =>
    rw [expires.tags, expires.snapshots, expirable.filter_inactive expirable.until_.tags]
  case dataFiles =>
    rw [expires.dataFiles, expires.snapshots,
      expirable.filter_inactive expirable.until_.dataFiles]
  case deleteFiles =>
    rw [expires.deleteFiles, expires.snapshots,
      expirable.filter_inactive expirable.until_.deleteFiles]
  case tables =>
    rw [expires.tables]
    refine List.filter_congr fun row member => ?_
    rw [left, leavesTable_version row member]
  case columns => simp only [expires.columns, left]
  case columnTags => simp only [expires.columnTags, left]
  case partitionInfo => simp only [expires.partitionInfo, left]
  case partitionColumns => simp only [expires.partitionColumns, left]
  case sortInfo => simp only [expires.sortInfo, left]
  case sortExpressions => simp only [expires.sortExpressions, left]
  case inlinedDataTables => simp only [expires.inlinedDataTables, left]
  case schemaVersions => simp only [expires.schemaVersions, left]
  case tableStats => simp only [expires.tableStats, left]
  case tableColumnStats => simp only [expires.tableColumnStats, left]
  case macroImpls => exact expires.macroImpls
  case macroParameters => exact expires.macroParameters
  case fileColumnStats => exact expires.fileColumnStats
  case filePartitionValues => exact expires.filePartitionValues

theorem Expires.fileIds_sublist
    (expires : Expires rest after) :
    after.fileIds.Sublist rest.fileIds := by
  unfold Database.fileIds
  rw [expires.dataFiles, expires.deleteFiles]
  exact (List.filter_sublist.map _).append (List.filter_sublist.map _)

theorem Expires.expirable
    (expires : Expires rest after)
    (expirable : Expirable latest rest) :
    Expirable latest after where
  known := expires.snapshots ▸ expirable.known
  newest := expires.snapshots ▸ expirable.newest
  fileIds := expirable.fileIds.sublist expires.fileIds_sublist
  inlined := by
    rw [expires.inlinedDataTables]
    exact expirable.inlined.sublist (List.filter_sublist.map _)
  until_ := {
    schemas := expires.schemas ▸ expirable.until_.schemas.filter _
    tables := expires.tables ▸ expirable.until_.tables.filter _
    views := expires.views ▸ expirable.until_.views.filter _
    macros := expires.macros ▸ expirable.until_.macros.filter _
    columns := expires.columns ▸ expirable.until_.columns.filter _
    tags := expires.tags ▸ expirable.until_.tags.filter _
    columnTags := expires.columnTags ▸ expirable.until_.columnTags.filter _
    partitionInfo := expires.partitionInfo ▸ expirable.until_.partitionInfo.filter _
    sortInfo := expires.sortInfo ▸ expirable.until_.sortInfo.filter _
    dataFiles := expires.dataFiles ▸ expirable.until_.dataFiles.filter _
    deleteFiles := expires.deleteFiles ▸ expirable.until_.deleteFiles.filter _ }

theorem Expirable.expire
    (expirable : Expirable latest db)
    (catalog : Catalog)
    (filter : SnapshotFilter)
    (success : expireSnapshots catalog filter db = .ok after) :
    Expirable latest after ∧ LeavesSeen db after ∧
      ∀ snapshot ∈ after.snapshots, snapshot ∈ db.snapshots ∧
        ∀ env, KeepsSnapshot env db after snapshot.snapshotId := by
  have expires := expires_of_expireSnapshots catalog filter db after expirable.fileIds success
  have rest := expirable.withoutExpired filter
  refine ⟨expires.expirable rest, { expires.leavesSeen rest with }, fun snapshot member => ?_⟩
  rw [expires.snapshots] at member
  refine ⟨List.mem_of_mem_filter member, fun env => ?_⟩
  have kept := expires.keepsSnapshot rest.inlined member env
  exact { kept with scans := fun table visible => { kept.scans table visible with } }

end

end Ducklake.Maintenance
