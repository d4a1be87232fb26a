import Ducklake.Caches.TableStats

/-!
# The state of a commit attempt

`CommitState` of `commit_state.rs`: the counters of the snapshot that the attempt would create,
a copy of the transaction's catalog in which new objects receive their ids, and the statistics
that written data updates.
-/

set_option autoImplicit false

namespace Ducklake.Transaction

open Lib Caches Spec

structure SnapshotInfo where
  id : Int
  schemaVersion : Int
  nextCatalogId : Int
  nextFileId : Int
  deriving DecidableEq, Repr

def SnapshotInfo.ofSnapshot (snapshot : DucklakeSnapshot) : SnapshotInfo where
  id := snapshot.snapshotId
  schemaVersion := snapshot.schemaVersion
  nextCatalogId := snapshot.nextCatalogId
  nextFileId := snapshot.nextFileId

structure CommitState where
  snapshotId : Int
  schemaVersion : Int
  nextCatalogId : Int
  nextFileId : Int
  catalog : Catalog
  /-- Empty when no change needs statistics. -/
  tableStats : TableStatsMap
  originalTableStats : TableStatsMap

namespace CommitState

def new (info : SnapshotInfo) (catalog : Catalog) (schemaChanged : Bool)
    (tableStats : TableStatsMap) : CommitState where
  snapshotId := info.id + 1
  schemaVersion := info.schemaVersion + if schemaChanged then 1 else 0
  nextCatalogId := info.nextCatalogId
  nextFileId := info.nextFileId
  catalog := catalog
  tableStats := tableStats
  originalTableStats := tableStats

/-! ## Identifiers -/

def catalogId (state : CommitState) : Int × CommitState :=
  (state.nextCatalogId, { state with nextCatalogId := state.nextCatalogId + 1 })

def fileId (state : CommitState) : Int × CommitState :=
  (state.nextFileId, { state with nextFileId := state.nextFileId + 1 })

/-- The id of an object: the one it has, or a new one that is written to the catalog. -/
def resolve (id : Option Int) (register : Catalog → Int → Catalog) (state : CommitState) :
    Int × CommitState :=
  match id with
  | some id => (id, state)
  | none =>
      let (id, state) := state.catalogId
      (id, { state with catalog := register state.catalog id })

def schemaId (state : CommitState) (ref : SchemaRef) : Int × CommitState :=
  state.resolve (state.catalog.schema ref).id (Catalog.resolveSchemaId · ref)

def tableId (state : CommitState) (ref : TableRef) : Int × CommitState :=
  state.resolve (state.catalog.table ref).id (Catalog.resolveTableId · ref)

def viewId (state : CommitState) (ref : ViewRef) : Int × CommitState :=
  state.resolve (state.catalog.view ref).id (Catalog.resolveViewId · ref)

def macroId (state : CommitState) (ref : MacroRef) : Int × CommitState :=
  state.resolve (state.catalog.macro_ ref).id (Catalog.resolveMacroId · ref)

/-- The id of a table's partition; a table without one cannot be asked for it. -/
def partitionId (state : CommitState) (ref : TableRef) : DucklakeResult (Int × CommitState) :=
  if (state.catalog.table ref).partition.isSome then
    .ok (state.resolve (state.catalog.partitionId ref) (Catalog.resolvePartitionId · ref))
  else .error (.panicked "table must have partition info to resolve partition ID".toList)

def sortInfoId (state : CommitState) : Int × CommitState :=
  state.catalogId

def columnId (state : CommitState) (ref : ColumnRef) : Int :=
  (state.catalog.column ref).id

def tableSchema (state : CommitState) (ref : TableRef) : Schema :=
  state.catalog.tableSchema ref

/-! ## Statistics -/

/-- The statistics of a table, new ones when there are none. -/
def tableStatsOf (state : CommitState) (tableId : Int) : TableStats :=
  (state.tableStats.get? tableId).getD default

def modifyTableStats (state : CommitState) (tableId : Int)
    (update : TableStats → TableStats) : CommitState :=
  { state with
    tableStats := state.tableStats.insert tableId (update (state.tableStatsOf tableId)) }

def columnStatsIn (stats : TableStatsMap) (tableId columnId : Int) : Option ColumnStats :=
  (stats.get? tableId).bind fun table => table.columnStatsOf columnId

def columnStatsChanged (state : CommitState) (tableId columnId : Int) : Bool :=
  columnStatsIn state.tableStats tableId columnId ≠
    columnStatsIn state.originalTableStats tableId columnId

def snapshot (state : CommitState) (now : Int) : DucklakeSnapshot where
  snapshotId := state.snapshotId
  snapshotTime := now
  schemaVersion := state.schemaVersion
  nextCatalogId := state.nextCatalogId
  nextFileId := state.nextFileId

end CommitState

end Ducklake.Transaction
