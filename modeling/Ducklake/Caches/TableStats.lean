import Ducklake.Environment
import Ducklake.Spec.Entities

/-!
# Table statistics

`caches/table_stats.rs`: the statistics of the tables and columns a snapshot sees, how they are
loaded from the metadata database and how written data updates them.
-/

set_option autoImplicit false

namespace Ducklake.Caches

open Lib Spec

structure ColumnStats where
  containsNull : Option Bool
  containsNan : Option Bool
  minValue : Option Value
  maxValue : Option Value
  /-- Whether the database holds a row for the column. -/
  isPersisted : Bool
  deriving DecidableEq

structure TableStats where
  nextRowId : Int
  recordCount : Option Int
  fileSizeBytes : Option Int
  columnStats : IndexMap Int ColumnStats
  /-- Whether the database holds a row for the table. -/
  isPersisted : Bool
  deriving DecidableEq

abbrev TableStatsMap := IndexMap Int TableStats

instance : Inhabited ColumnStats := ⟨{
  containsNull := some false
  containsNan := some false
  minValue := none
  maxValue := none
  isPersisted := false }⟩

instance : Inhabited TableStats := ⟨{
  nextRowId := 0
  recordCount := some 0
  fileSizeBytes := some 0
  columnStats := .empty
  isPersisted := false }⟩

/-! ## Updates -/

namespace ColumnStats

/-- `update_contains_null` and `update_contains_nan`: an unknown flag stays unknown unless one
side is known to be set. -/
def mergeFlag : Option Bool → Option Bool → Option Bool
  | some old, some new => some (old || new)
  | none, some true => some true
  | some true, none => some true
  | _, _ => none

def updateContainsNull (stats : ColumnStats) (containsNull : Option Bool) : ColumnStats :=
  { stats with containsNull := mergeFlag stats.containsNull containsNull }

def updateContainsNan (stats : ColumnStats) (containsNan : Option Bool) : ColumnStats :=
  { stats with containsNan := mergeFlag stats.containsNan containsNan }

/-- `update_min_value` with `replaces = .gt`, `update_max_value` with `replaces = .lt`: when both
values are present and cannot be compared, none is kept. -/
def mergeBound (replaces : Ordering) : Option Value → Option Value → Option Value
  | some old, some new =>
      (old.partialCmp new).map fun ordering => if ordering = replaces then new else old
  | old, new => old.or new

def updateMinValue (stats : ColumnStats) (minValue : Option Value) : ColumnStats :=
  { stats with minValue := mergeBound .gt stats.minValue minValue }

def updateMaxValue (stats : ColumnStats) (maxValue : Option Value) : ColumnStats :=
  { stats with maxValue := mergeBound .lt stats.maxValue maxValue }

end ColumnStats

namespace TableStats

def columnStatsOf (stats : TableStats) (columnId : Int) : Option ColumnStats :=
  stats.columnStats.get? columnId

def advanceRowId (stats : TableStats) (recordCount : Int) : TableStats :=
  { stats with nextRowId := stats.nextRowId + recordCount }

def addRecordCount (stats : TableStats) (recordCount : Int) : TableStats :=
  { stats with recordCount := some (stats.recordCount.getD 0 + recordCount) }

def addFileSizeBytes (stats : TableStats) (fileSizeBytes : Option Int) : TableStats :=
  { stats with
    fileSizeBytes := match fileSizeBytes with
      | some size => some (stats.fileSizeBytes.getD 0 + size)
      | none => stats.fileSizeBytes }

/-- Update the statistics of a column, created on demand. -/
def modifyColumnStats (stats : TableStats) (columnId : Int)
    (update : ColumnStats → ColumnStats) : TableStats :=
  { stats with
    columnStats := stats.columnStats.insert columnId
      (update ((stats.columnStats.get? columnId).getD default)) }

end TableStats

/-! ## Loading -/

def tableStatsRows (db : Database) (snapshotId : Int) : List DucklakeTableStats :=
  db.tableStats.flatMap fun stat =>
    ((Versioned.entitiesAt snapshotId db.tables).filter
      fun table => table.tableId = stat.tableId).map fun _ => stat

def columnStatsRows (db : Database) (snapshotId : Int) : List DucklakeTableColumnStats :=
  db.tableColumnStats.flatMap fun stat =>
    ((Versioned.entitiesAt snapshotId db.columns).filter
      fun column => column.tableId = stat.tableId ∧ column.columnId = stat.columnId).map
        fun _ => stat

def loadTable (stat : DucklakeTableStats) : TableStats :=
  { nextRowId := stat.nextRowId
    recordCount := stat.recordCount
    fileSizeBytes := stat.fileSizeBytes
    columnStats := .empty
    isPersisted := true }

def loadBound (env : Environment) (dtype : DataType) (text : Option Text) :
    DucklakeResult (Option Value) :=
  match text with
  | none => .ok none
  | some text => env.parseValue dtype text

def loadColumn (env : Environment) (catalog : Catalog) (stats : TableStatsMap)
    (stat : DucklakeTableColumnStats) : DucklakeResult TableStatsMap :=
  let missing : DucklakeResult TableStatsMap :=
    .error (.panicked "column dtype not found for column in statistics".toList)
  match stats.get? stat.tableId, catalog.tableRefById stat.tableId with
  | some table, .ok ref =>
      match (catalog.table ref).columns.columnDataTypes.get? stat.columnId with
      | some dtype => do
          let minValue ← loadBound env dtype stat.minValue
          let maxValue ← loadBound env dtype stat.maxValue
          .ok (stats.insert stat.tableId { table with
            columnStats := table.columnStats.insert stat.columnId {
              containsNull := stat.containsNull
              containsNan := stat.containsNan
              minValue := minValue
              maxValue := maxValue
              isPersisted := true } })
      | none => missing
  | _, _ => missing

/-- `SnapshotTableStats::load`: every table with statistics must be in the catalog. -/
def load (env : Environment) (catalog : Catalog) (db : Database) (snapshotId : Int) :
    DucklakeResult TableStatsMap := do
  let stats := IndexMap.ofList
    ((tableStatsRows db snapshotId).map fun stat => (stat.tableId, loadTable stat))
  stats.keys.forM fun id => (catalog.tableRefById id).map fun _ => ()
  (columnStatsRows db snapshotId).foldlM (loadColumn env catalog) stats

end Ducklake.Caches
