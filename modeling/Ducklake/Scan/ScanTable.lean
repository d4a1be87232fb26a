import Ducklake.Caches.Snapshot
import Ducklake.Catalog.Load
import Ducklake.Io.Path
import Ducklake.Io.StoredRows
import Ducklake.Lib.Queries
import Ducklake.Typedefs.Data

/-!
# Scans

`scan/mod.rs`: the data files of a table at a snapshot with what has been deleted from them, and its
inline rows.
-/

set_option autoImplicit false

namespace Ducklake

open Lib Spec Transaction

structure ScanDataFile where
  path : Text
  encryptionKey : Option Text
  statistics : DataFileStatistics
  deleteFiles : List ScanDeleteFile
  /-- The rows of the file that are deleted in the catalog. -/
  inlineDeletes : Option (List Int)

structure ScanResult where
  dataFiles : List ScanDataFile
  inlineData : List Io.RecordBatch

namespace Scan

/-! ## Queries -/

def dataFilesQuery (db : Database) (tableId snapshotId : Int) : List DucklakeDataFile :=
  (Versioned.entitiesAt snapshotId db.dataFiles).filter fun file => file.tableId = tableId

def columnStatsQuery (db : Database) (tableId snapshotId : Int) : List DucklakeFileColumnStats :=
  (innerJoin (fun stats file => stats.dataFileId = file.dataFileId)
    (db.fileColumnStats.filter fun stats => stats.tableId = tableId)
    (Versioned.entitiesAt snapshotId db.dataFiles)).map Prod.fst

def deleteFilesQuery (db : Database) (tableId snapshotId : Int) : List DucklakeDeleteFile :=
  (Versioned.entitiesAt snapshotId db.deleteFiles).filter fun file => file.tableId = tableId

def inlinedDataTablesQuery (db : Database) (tableId : Int) : List DucklakeInlinedDataTables :=
  db.inlinedDataTables.filter fun table => table.tableId = tableId

/-- The rows of a table that does not exist are none. -/
def inlinedDeletesQuery (db : Database) (tableId snapshotId : Int) : List DucklakeInlinedDelete :=
  ((db.inlinedDeletes.filter fun entry => entry.1 = tableId).map Prod.snd).filter fun row =>
    row.beginSnapshot ≤ snapshotId

/-! ## Parsing -/

section

variable {U : Type} (env : Environment) (urls : Io.Urls U)

def parseBound (dtype : DataType) : Option Text → DucklakeResult (Option Value)
  | some text => env.parseValue dtype text
  | none => .ok none

/-- There are no statistics of a column that is not in the catalog any more. -/
def parseColumnStats (columnDtypes : IndexMap Int DataType) (stats : DucklakeFileColumnStats) :
    DucklakeResult (Option (Int × FileColumnStats)) :=
  match columnDtypes.get? stats.columnId with
  | none => .ok none
  | some dtype => do
      let minValue ← parseBound env dtype stats.minValue
      let maxValue ← parseBound env dtype stats.maxValue
      .ok (some (stats.columnId, {
        sizeBytes := stats.columnSizeBytes
        minValue := minValue
        maxValue := maxValue
        nullCount := stats.nullCount
        containsNan := stats.containsNan }))

def resolvePath (basePath : Io.DucklakePath U) (path : Text) (isRelative : Bool) :
    DucklakeResult Text := do
  let path ← Io.DucklakePath.new urls path isRelative
  let path ← basePath.join urls path
  .ok (path.display urls)

def parseDataFile (columnDtypes : IndexMap Int DataType) (basePath : Io.DucklakePath U)
    (columnStats : List DucklakeFileColumnStats) (file : DucklakeDataFile) :
    DucklakeResult (Text × DataFileStatistics) := do
  let columnStats ← columnStats.mapM (parseColumnStats env columnDtypes)
  let path ← resolvePath urls basePath file.path file.pathIsRelative
  .ok (path, {
    numRows := file.recordCount
    fileSizeBytes := file.fileSizeBytes
    footerSizeBytes := file.footerSize
    columnStats := .ofList (columnStats.filterMap id) })

def parseDeleteFile (basePath : Io.DucklakePath U) (file : DucklakeDeleteFile) :
    DucklakeResult ScanDeleteFile := do
  let path ← resolvePath urls basePath file.path file.pathIsRelative
  .ok {
    path := path
    encryptionKey := file.encryptionKey
    numDeletes := file.deleteCount.getD 0
    fileSizeBytes := file.fileSizeBytes
    footerSizeBytes := file.footerSize }

/-! ## Scanning -/

def inlinedDataTable (db : Database) (table : DucklakeInlinedDataTables) :
    DucklakeResult InlinedDataTable :=
  match db.inlinedData.find? fun stored => stored.name = table.tableName with
  | some stored => .ok stored
  | none => .error (.database ("no such table: ".toList ++ table.tableName))

/-- The rows of an inline data table, matched to the schema that the scan returns. -/
def readInlinedData (db : Database) (info : SnapshotInfo) (tableId : Int) (targetSchema : Schema)
    (table : DucklakeInlinedDataTables) : DucklakeResult Io.RecordBatch := do
  let written ← Caches.getForSchemaVersion info db table.schemaVersion
  let catalog ← Catalog.load env db written.id
  let tableRef ← catalog.tableRefById tableId
  let stored ← inlinedDataTable db table
  let rows ← Io.fetchAllArrow stored (catalog.tableSchema tableRef) info.id
  Io.matchRows env rows targetSchema

def scanDataFile (columnDtypes : IndexMap Int DataType) (basePath : Io.DucklakePath U)
    (columnStats : IndexMap Int (List DucklakeFileColumnStats))
    (deleteFiles : IndexMap Int (List DucklakeDeleteFile))
    (inlineDeletes : IndexMap Int (List DucklakeInlinedDelete)) (file : DucklakeDataFile) :
    DucklakeResult ScanDataFile := do
  let (path, statistics) ← parseDataFile env urls columnDtypes basePath
    ((columnStats.get? file.dataFileId).getD []) file
  let deleteFiles ← ((deleteFiles.get? file.dataFileId).getD []).mapM
    (parseDeleteFile urls basePath)
  .ok {
    path := path
    encryptionKey := file.encryptionKey
    statistics := statistics
    deleteFiles := deleteFiles
    inlineDeletes := (inlineDeletes.get? file.dataFileId).map fun rows =>
      rows.map DucklakeInlinedDelete.rowId }

/-- `scan_table`, with the catalog of the snapshot. -/
def scanTable (db : Database) (info : SnapshotInfo) (catalog : Catalog)
    (dataPath : Io.DucklakePath U) (tableId : Int) : DucklakeResult ScanResult := do
  let tableRef ← catalog.tableRefById tableId
  let inlineData ← (inlinedDataTablesQuery db tableId).mapM
    (readInlinedData env db info tableId (catalog.tableSchema tableRef))
  let dataFiles ← (dataFilesQuery db tableId info.id).mapM
    (scanDataFile env urls (catalog.table tableRef).columns.columnDataTypes dataPath
      (collectBy DucklakeFileColumnStats.dataFileId (columnStatsQuery db tableId info.id))
      (collectBy DucklakeDeleteFile.dataFileId (deleteFilesQuery db tableId info.id))
      (collectBy DucklakeInlinedDelete.fileId (inlinedDeletesQuery db tableId info.id)))
  .ok {
    dataFiles := dataFiles
    inlineData := inlineData.filter fun batch => 0 < batch.numRows }

end

end Scan

end Ducklake
