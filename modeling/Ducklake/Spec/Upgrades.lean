import Ducklake.Spec.Entities

/-!
# Upgrading schema versions

`spec/upgrades`: 0.3 keeps one row for each schema version, 0.4 one for each table whose
definition begins or changes with it.  Rows of 0.3 are those without a table.
-/

set_option autoImplicit false

namespace Ducklake.Spec.Upgrades

open Lib

/-! ## Version 0.3 -/

/-- `upgrade_data` of 0.3: the least snapshot of every schema version. -/
def upgradeDataV03 (db : Database) : Database :=
  { db with
    schemaVersions := db.schemaVersions ++
      (db.snapshots.map DucklakeSnapshot.schemaVersion).eraseDups.filterMap fun schemaVersion =>
        ((db.snapshots.filter fun row => row.schemaVersion = schemaVersion).map
          DucklakeSnapshot.snapshotId).min?.map fun snapshotId => {
            beginSnapshot := snapshotId
            schemaVersion := schemaVersion
            tableId := none } }

/-! ## Version 0.4 -/

/-- `BETWEEN` of SQL. -/
def between (value low high : Int) : Bool :=
  low ≤ value && value ≤ high

/-- The rows of tables that are inserted for the rows of schema versions. -/
def joinTables (db : Database) : List DucklakeSchemaVersions :=
  (db.schemaVersions.filter fun version => version.tableId.isNone).flatMap fun version =>
    (db.tables.filter fun row =>
      between version.beginSnapshot row.beginSnapshot row.beginSnapshot).map fun row => {
        beginSnapshot := row.beginSnapshot
        schemaVersion := version.schemaVersion
        tableId := some row.entity.tableId }

/-- `upgrade_data` of 0.4, as far as it writes schema versions. -/
def upgradeDataV04 (db : Database) : Database :=
  { db with
    schemaVersions := (db.schemaVersions ++ joinTables db).filter fun row => row.tableId.isSome }

/-! ## Histories of 0.3 catalogs -/

inductive TableEffect where
  | create (table : DucklakeTable) (columns : List DucklakeColumn)
  | alter (tableId : Int) (newName : Option Text) (dropped : List Int)
      (added : List DucklakeColumn)
  | drop (tableId : Int)

namespace TableEffect

def tableId : TableEffect → Int
  | .create table _ => table.tableId
  | .alter tableId _ _ _ => tableId
  | .drop tableId => tableId

/-- Whether the definition of the table begins or changes. -/
def defines : TableEffect → Bool
  | .create .. => true
  | .alter .. => true
  | .drop _ => false

/-- Whether a row of `ducklake_table` begins: new tables and new names have one. -/
def writesTable : TableEffect → Bool
  | .create .. => true
  | .alter _ newName _ _ => newName.isSome
  | .drop _ => false

def applyTables (snapshotId : Int) (rows : List (Versioned DucklakeTable)) :
    TableEffect → List (Versioned DucklakeTable)
  | .create table _ => rows ++ [.new snapshotId table]
  | .alter _ none _ _ => rows
  | .alter tableId (some newName) _ _ =>
      Versioned.retire snapshotId (fun table => table.tableId = tableId) rows ++
        (Versioned.live rows).filterMap fun table =>
          if table.tableId = tableId then some (.new snapshotId { table with tableName := newName })
          else none
  | .drop tableId => Versioned.retire snapshotId (fun table => table.tableId = tableId) rows

def applyColumns (snapshotId : Int) (rows : List (Versioned DucklakeColumn)) :
    TableEffect → List (Versioned DucklakeColumn)
  | .create _ columns => rows ++ columns.map (.new snapshotId)
  | .alter tableId _ dropped added =>
      Versioned.retire snapshotId
        (fun column => column.tableId = tableId && decide (column.columnId ∈ dropped)) rows ++
          added.map (.new snapshotId)
  | .drop tableId => Versioned.retire snapshotId (fun column => column.tableId = tableId) rows

end TableEffect

/-- A commit of a 0.3 catalog: created and dropped schemas, and what happens to tables. -/
structure SchemaCommit where
  snapshotId : Int
  schemaVersion : Int
  createdSchemas : List DucklakeSchema
  droppedSchemas : List Int
  effects : List TableEffect

namespace SchemaCommit

def changesSchema (commit : SchemaCommit) : Bool :=
  !(commit.createdSchemas.isEmpty && commit.droppedSchemas.isEmpty && commit.effects.isEmpty)

def defined (commit : SchemaCommit) : List Int :=
  (commit.effects.filter TableEffect.defines).map TableEffect.tableId

def placed (commit : SchemaCommit) : List Int :=
  (commit.effects.filter TableEffect.writesTable).map TableEffect.tableId

def versionRow (commit : SchemaCommit) : DucklakeSchemaVersions where
  beginSnapshot := commit.snapshotId
  schemaVersion := commit.schemaVersion
  tableId := none

/-- Tables are created once, and live when they are altered. -/
structure Valid (commit : SchemaCommit) (db : Database) : Prop where
  distinct : (commit.effects.map TableEffect.tableId).Nodup
  fresh : ∀ table columns, .create table columns ∈ commit.effects →
    ∀ row ∈ db.tables, row.entity.tableId ≠ table.tableId
  live : ∀ tableId newName dropped added, .alter tableId newName dropped added ∈ commit.effects →
    ∃ table ∈ Versioned.live db.tables, table.tableId = tableId

/-- What a commit writes; the rows of other tables may change in any way. -/
structure Writes (commit : SchemaCommit) (before after : Database) : Prop where
  snapshots : ∃ latest row, before.snapshots.getLast? = some latest ∧
    after.snapshots = before.snapshots ++ [row] ∧ row.snapshotId = commit.snapshotId ∧
    row.schemaVersion = commit.schemaVersion ∧ commit.snapshotId = latest.snapshotId + 1 ∧
    commit.schemaVersion = latest.schemaVersion + (if commit.changesSchema then 1 else 0)
  schemaVersions : after.schemaVersions =
    before.schemaVersions ++ if commit.changesSchema then [commit.versionRow] else []
  schemas : after.schemas = Versioned.retire commit.snapshotId
    (fun schema => decide (schema.schemaId ∈ commit.droppedSchemas)) before.schemas ++
      commit.createdSchemas.map (.new commit.snapshotId)
  tables : after.tables =
    commit.effects.foldl (fun rows effect => effect.applyTables commit.snapshotId rows)
      before.tables
  columns : after.columns =
    commit.effects.foldl (fun rows effect => effect.applyColumns commit.snapshotId rows)
      before.columns

def write (before : Database) (commit : SchemaCommit) : Database :=
  { before with
    snapshots := before.snapshots ++ [{
      snapshotId := commit.snapshotId
      snapshotTime := 0
      schemaVersion := commit.schemaVersion
      nextCatalogId := 0
      nextFileId := 0 }]
    schemaVersions :=
      before.schemaVersions ++ if commit.changesSchema then [commit.versionRow] else []
    schemas := Versioned.retire commit.snapshotId
      (fun schema => decide (schema.schemaId ∈ commit.droppedSchemas)) before.schemas ++
        commit.createdSchemas.map (.new commit.snapshotId)
    tables := commit.effects.foldl (fun rows effect => effect.applyTables commit.snapshotId rows)
      before.tables
    columns := commit.effects.foldl (fun rows effect => effect.applyColumns commit.snapshotId rows)
      before.columns }

theorem write_writes
    (commit : SchemaCommit)
    (before : Database)
    (latest : DucklakeSnapshot)
    (last : before.snapshots.getLast? = some latest)
    (nextId : commit.snapshotId = latest.snapshotId + 1)
    (nextVersion : commit.schemaVersion =
      latest.schemaVersion + (if commit.changesSchema then 1 else 0)) :
    commit.Writes before (write before commit) where
  snapshots := ⟨latest, _, last, rfl, rfl, rfl, nextId, nextVersion⟩
  schemaVersions := rfl
  schemas := rfl
  tables := rfl
  columns := rfl

end SchemaCommit

/-- A new catalog; the first schema version begins with it. -/
def initCatalogV03 (now : Int) : Database :=
  { initCatalog now with
    schemaVersions := [{ beginSnapshot := 0, schemaVersion := 0, tableId := none }] }

inductive Produced : List SchemaCommit → Database → Prop where
  | init (now : Int) : Produced [] (initCatalogV03 now)
  | commit {history : List SchemaCommit} {commit : SchemaCommit} {before after : Database}
      (produced : Produced history before)
      (valid : commit.Valid before)
      (writes : commit.Writes before after) :
      Produced (history ++ [commit]) after

theorem Produced.write
    {history : List SchemaCommit}
    {before : Database}
    (produced : Produced history before)
    (commit : SchemaCommit)
    (latest : DucklakeSnapshot)
    (valid : commit.Valid before)
    (last : before.snapshots.getLast? = some latest)
    (nextId : commit.snapshotId = latest.snapshotId + 1)
    (nextVersion : commit.schemaVersion =
      latest.schemaVersion + (if commit.changesSchema then 1 else 0)) :
    Produced (history ++ [commit]) (SchemaCommit.write before commit) :=
  .commit produced valid (commit.write_writes before latest last nextId nextVersion)

end Ducklake.Spec.Upgrades
