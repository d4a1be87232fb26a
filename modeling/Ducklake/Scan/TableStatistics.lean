import Ducklake.Scan.ScanTable

/-!
# Statistics of tables

`table_statistics.rs`: aggregates over the catalog for all tables of a listing.
-/

set_option autoImplicit false

namespace Ducklake

open Lib Spec

/-- Aggregate storage statistics of a table at one snapshot. -/
@[ext] structure TableStatistics where
  numRows : Int
  numInlineRows : Nat
  numDeletedRows : Nat
  numDataFiles : Nat
  totalFileSizeBytes : Option Nat
  minFileSizeBytes : Option Nat
  maxFileSizeBytes : Option Nat
  deriving DecidableEq

namespace Scan

/-- Bounds the terms of a compound `SELECT` and the bound values. -/
def batchSize : Nat := 128

/-! ## Queries -/

/-- A row of the result of `files_query`. -/
structure FileTotals where
  count : Nat
  knownSizes : Nat
  rows : Nat
  size : Option Nat
  min : Option Nat
  max : Option Nat

def fileTotals (files : List DucklakeDataFile) : FileTotals :=
  let sizes := files.map DucklakeDataFile.fileSizeBytes
  { count := files.length
    knownSizes := (sizes.filterMap id).length
    rows := (files.map DucklakeDataFile.recordCount).sum
    size := sumOf sizes
    min := (sizes.filterMap id).min?
    max := (sizes.filterMap id).max? }

def filesQuery (db : Database) (ids : List Int) (snapshotId : Int) : List (Int × FileTotals) :=
  (groupBy DucklakeDataFile.tableId
    ((Versioned.entitiesAt snapshotId db.dataFiles).filter fun file => file.tableId ∈ ids)).map
      fun group => (group.1, fileTotals group.2)

def deletesQuery (db : Database) (ids : List Int) (snapshotId : Int) :
    List (Int × Option Nat) :=
  (groupBy (fun row : DucklakeDeleteFile × DucklakeDataFile => row.1.tableId)
    (innerJoin (fun delete file => delete.dataFileId = file.dataFileId)
      ((Versioned.entitiesAt snapshotId db.deleteFiles).filter fun file => file.tableId ∈ ids)
      (Versioned.entitiesAt snapshotId db.dataFiles))).map fun group =>
        (group.1, sumOf (group.2.map fun row => row.1.deleteCount))

def inlineQuery (db : Database) (ids : List Int) : List DucklakeInlinedDataTables :=
  db.inlinedDataTables.filter fun table => table.tableId ∈ ids

def inlineCount (db : Database) (snapshotId : Int) (table : DucklakeInlinedDataTables) :
    DucklakeResult (Int × Nat) :=
  (inlinedDataTable db table).map fun stored => (table.tableId, Io.visibleRows stored snapshotId)

/-- The deleted rows of the data files of a table that the snapshot sees. -/
def inlineDeletesCount (db : Database) (snapshotId tableId : Int) : Int × Nat :=
  (tableId, (innerJoin (fun (row : DucklakeInlinedDelete) file => row.fileId = file.dataFileId)
    (inlinedDeletesQuery db tableId snapshotId) (dataFilesQuery db tableId snapshotId)).length)

/-- `fetch_counts`: the queries of a batch are one compound query. -/
def fetchCounts (queries : List (DucklakeResult (Int × Nat))) : DucklakeResult (List (Int × Nat)) :=
  ((chunks batchSize queries).mapM fun (batch : List (DucklakeResult (Int × Nat))) =>
    batch.mapM id).map List.flatten

/-! ## Statistics -/

/-- A loop over `stats.get_mut(&id).unwrap()`. -/
def updateEach {β : Type} (change : β → TableStatistics → TableStatistics)
    (stats : IndexMap Int TableStatistics) (updates : List (Int × β)) :
    DucklakeResult (IndexMap Int TableStatistics) :=
  match updates.foldlM (fun stats entry => stats.update? entry.1 (change entry.2)) stats with
  | some stats => .ok stats
  | none => .error (.panicked "called `Option::unwrap()` on a `None` value".toList)

def noStatistics : TableStatistics where
  numRows := 0
  numInlineRows := 0
  numDeletedRows := 0
  numDataFiles := 0
  totalFileSizeBytes := some 0
  minFileSizeBytes := none
  maxFileSizeBytes := none

def setFiles (totals : FileTotals) (entry : TableStatistics) : TableStatistics :=
  { entry with
    numDataFiles := totals.count
    numRows := totals.rows
    totalFileSizeBytes := if totals.count = totals.knownSizes then totals.size else none
    minFileSizeBytes := totals.min
    maxFileSizeBytes := totals.max }

def setDeletes (count : Option Nat) (entry : TableStatistics) : TableStatistics :=
  { entry with numDeletedRows := count.getD 0 }

def addInlineRows (count : Nat) (entry : TableStatistics) : TableStatistics :=
  { entry with numInlineRows := entry.numInlineRows + count }

def addDeletes (count : Nat) (entry : TableStatistics) : TableStatistics :=
  { entry with numDeletedRows := entry.numDeletedRows + count }

def countRows (entry : TableStatistics) : TableStatistics :=
  { entry with numRows := entry.numRows + (entry.numInlineRows - entry.numDeletedRows) }

def inlineDeletes (db : Database) (ids : List Int) (snapshotId : Int)
    (stats : IndexMap Int TableStatistics) : List (DucklakeResult (Int × Nat)) :=
  (ids.filter fun id =>
    (stats.get? id).any (fun entry => entry.numDataFiles ≠ 0) &&
      db.inlinedDeletes.any fun entry => entry.1 = id).map fun id =>
        .ok (inlineDeletesCount db snapshotId id)

def loadStatistics (db : Database) (ids : List Int) (snapshotId : Int) :
    DucklakeResult (IndexMap Int TableStatistics) := do
  let stats := IndexMap.ofList (ids.map fun id => (id, noStatistics))
  let stats ← updateEach setFiles stats (filesQuery db ids snapshotId)
  let stats ← updateEach setDeletes stats (deletesQuery db ids snapshotId)
  let counts ← fetchCounts ((inlineQuery db ids).map (inlineCount db snapshotId))
  let stats ← updateEach addInlineRows stats counts
  let stats ←
    if stats.values.any fun entry => 0 < entry.numDataFiles then do
      let counts ← fetchCounts (inlineDeletes db ids snapshotId stats)
      updateEach addDeletes stats counts
    else .ok stats
  .ok (IndexMap.ofList (stats.entries.map fun entry => (entry.1, countRows entry.2)))

/-! ## Listings -/

structure Table where
  schemaId : Int
  id : Int
  deriving DecidableEq

def listTablesInSchema (catalog : Catalog) (schemaRef : SchemaRef) : DucklakeResult (List Table) :=
  (catalog.listTables schemaRef).mapM fun tableRef => do
    let schemaId ← Io.DucklakePath.unwrap "schema.id()" (catalog.schema schemaRef).id
    let id ← Io.DucklakePath.unwrap "t.id()" (catalog.table tableRef).id
    .ok { schemaId := schemaId, id := id }

def listTablesFromCatalog (catalog : Catalog) (schema : Option Text) :
    DucklakeResult (List Table) := do
  let schemas ← match schema with
    | some name => (catalog.schemaRef name).map fun ref => [ref]
    | none => .ok catalog.listSchemas
  (schemas.mapM (listTablesInSchema catalog)).map List.flatten

def takeStatistics : IndexMap Int TableStatistics → List Table →
    DucklakeResult (List (Table × TableStatistics))
  | _, [] => .ok []
  | statistics, table :: rest =>
      match statistics.get? table.id with
      | none => .error (.panicked "called `Option::unwrap()` on a `None` value".toList)
      | some stats => (takeStatistics (statistics.erase table.id) rest).map fun others =>
          (table, stats) :: others

/-- `list_tables_with_statistics`, with the catalog of the snapshot. -/
def listTablesWithStatistics (db : Database) (catalog : Catalog) (snapshotId : Int)
    (schema : Option Text) : DucklakeResult (List (Table × TableStatistics)) := do
  let tables ← listTablesFromCatalog catalog schema
  let batches ← (chunks batchSize (tables.map Table.id)).mapM fun ids =>
    loadStatistics db ids snapshotId
  takeStatistics (.ofList (batches.flatMap IndexMap.entries)) tables

end Scan

end Ducklake
