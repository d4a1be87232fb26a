import Ducklake.Catalog.Catalog
import Ducklake.Spec.Entities

/-!
# Expiring snapshots

`maintenance/expire_snapshots.rs`: deleting snapshots together with everything that only they
reach.  The list of files to delete from storage is not modelled.
-/

set_option autoImplicit false

namespace Ducklake.Maintenance

open Lib Spec

inductive SnapshotFilter where
  | olderThan (timestamp : Int)
  | versions (ids : List Int)
  deriving DecidableEq, Repr

def SnapshotFilter.selects : SnapshotFilter → DucklakeSnapshot → Bool
  | .olderThan timestamp, row => row.snapshotTime < timestamp
  | .versions ids, row => row.snapshotId ∈ ids

/-- `find_expired_snapshots`: the latest snapshot is retained. -/
def findExpiredSnapshots (filter : SnapshotFilter) (db : Database) : List Int :=
  ((db.snapshots.filter filter.selects).map DucklakeSnapshot.snapshotId).filter fun id =>
    (db.snapshots.map DucklakeSnapshot.snapshotId).max? ≠ some id

def deleteSnapshots (ids : List Int) (db : Database) : Database :=
  { db with snapshots := db.snapshots.filter fun row => row.snapshotId ∉ ids }

/-- `condition_inactive_snapshot`: the row has ended and no snapshot sees it. -/
def inactive {α : Type} (db : Database) (row : Versioned α) : Bool :=
  match row.endSnapshot with
  | none => false
  | some finish => !db.snapshots.any fun snapshot =>
      row.beginSnapshot ≤ snapshot.snapshotId ∧ snapshot.snapshotId < finish

/-- `find_expired_tables`: the tables without any version that a snapshot sees. -/
def findExpiredTables (db : Database) : List Int :=
  ((db.tables.filter (inactive db)).map fun row => row.entity.tableId).filter fun id =>
    !db.tables.any fun row => row.entity.tableId = id ∧ !inactive db row

/-- `query_table_data_path`: the path of a table comes from the catalog or from its rows. -/
def hasTablePath (catalog : Catalog) (db : Database) (tableId : Int) : Bool :=
  (catalog.tableRefById tableId).isOk || db.tables.any fun row =>
    row.entity.tableId = tableId ∧
      db.schemas.any fun schema => schema.entity.schemaId = row.entity.schemaId

def markDataFilesForDeletion (catalog : Catalog) (db : Database) : DucklakeResult Database :=
  let dataFiles := db.dataFiles.filter (inactive db)
  let deleteFiles := db.deleteFiles.filter (inactive db)
  let tableIds := dataFiles.map (fun row => row.entity.tableId) ++
    deleteFiles.map fun row => row.entity.tableId
  let fileIds := dataFiles.map (fun row => row.entity.dataFileId) ++
    deleteFiles.map fun row => row.entity.deleteFileId
  if tableIds.all (hasTablePath catalog db) then
    .ok { db with
      dataFiles := db.dataFiles.filter fun row => row.entity.dataFileId ∉ fileIds
      deleteFiles := db.deleteFiles.filter fun row => row.entity.deleteFileId ∉ fileIds }
  else .error .rowNotFound

def deleteTables (tableIds : List Int) (db : Database) : Database :=
  let inlined := (db.inlinedDataTables.filter fun row => row.tableId ∈ tableIds).map
    DucklakeInlinedDataTables.tableName
  { db with
    inlinedData := db.inlinedData.filter fun table => table.name ∉ inlined
    columnTags := db.columnTags.filter fun row => row.entity.tableId ∉ tableIds
    columns := db.columns.filter fun row => row.entity.tableId ∉ tableIds
    inlinedDataTables := db.inlinedDataTables.filter fun row => row.tableId ∉ tableIds
    partitionColumns := db.partitionColumns.filter fun row => row.tableId ∉ tableIds
    partitionInfo := db.partitionInfo.filter fun row => row.entity.tableId ∉ tableIds
    schemaVersions := db.schemaVersions.filter fun row => row.tableId.all (· ∉ tableIds)
    sortExpressions := db.sortExpressions.filter fun row => row.tableId ∉ tableIds
    sortInfo := db.sortInfo.filter fun row => row.entity.tableId ∉ tableIds
    tableColumnStats := db.tableColumnStats.filter fun row => row.tableId ∉ tableIds
    tableStats := db.tableStats.filter fun row => row.tableId ∉ tableIds
    tables := db.tables.filter fun row => row.entity.tableId ∉ tableIds }

/-- `delete_expired_catalog_objects`: first the catalog tables, then the rows that refer to what
is no longer there. -/
def deleteExpiredCatalogObjects (db : Database) : Database :=
  let macros := db.macros.filter fun row => !inactive db row
  { db with
    schemas := db.schemas.filter fun row => !inactive db row
    tags := db.tags.filter fun row => !inactive db row
    macros := macros
    views := db.views.filter fun row => !inactive db row
    snapshotChanges := db.snapshotChanges.filter fun row =>
      row.snapshotId ∈ db.snapshots.map DucklakeSnapshot.snapshotId
    macroImpls := db.macroImpls.filter fun row =>
      row.macroId ∈ macros.map fun row => row.entity.macroId
    macroParameters := db.macroParameters.filter fun row =>
      row.macroId ∈ macros.map fun row => row.entity.macroId
    fileColumnStats := db.fileColumnStats.filter fun row =>
      row.dataFileId ∈ db.dataFiles.map fun row => row.entity.dataFileId
    filePartitionValues := db.filePartitionValues.filter fun row =>
      row.dataFileId ∈ db.dataFiles.map fun row => row.entity.dataFileId }

/-- `expire_snapshots_filtered`, in one database transaction; the catalog is the one of the
latest snapshot read before. -/
def expireSnapshots (catalog : Catalog) (filter : SnapshotFilter) (db : Database) :
    DucklakeResult Database := do
  let db := deleteSnapshots (findExpiredSnapshots filter db) db
  let tableIds := findExpiredTables db
  let db ← markDataFilesForDeletion catalog db
  .ok (deleteExpiredCatalogObjects (deleteTables tableIds db))

theorem expireSnapshots_snapshots
    (catalog : Catalog)
    (filter : SnapshotFilter)
    (db next : Database)
    (success : expireSnapshots catalog filter db = .ok next) :
    next.snapshots =
        db.snapshots.filter (fun row => row.snapshotId ∉ findExpiredSnapshots filter db) ∧
      next.snapshotChanges = db.snapshotChanges.filter fun row =>
        row.snapshotId ∈ next.snapshots.map DucklakeSnapshot.snapshotId := by
  unfold expireSnapshots at success
  cases marked : markDataFilesForDeletion catalog
      (deleteSnapshots (findExpiredSnapshots filter db) db) with
  | error _ => simp [marked, bind, Except.bind] at success
  | ok between =>
      simp only [marked, bind, Except.bind, Except.ok.injEq] at success
      subst success
      unfold markDataFilesForDeletion at marked
      dsimp only at marked
      split at marked
      · cases marked
        exact ⟨rfl, rfl⟩
      · cases marked

theorem max_notMem_findExpiredSnapshots
    (filter : SnapshotFilter)
    (db : Database)
    (latest : Int)
    (newest : (db.snapshots.map DucklakeSnapshot.snapshotId).max? = some latest) :
    latest ∉ findExpiredSnapshots filter db := by
  simp [findExpiredSnapshots, newest]

end Ducklake.Maintenance
