import Ducklake.Transaction.CommitState

/-!
# Collected rows

`TransactionChanges` of `transaction_changes.rs`: what one commit attempt is going to write,
collected before any database access, and how it is written.
-/

set_option autoImplicit false

namespace Ducklake.Transaction

open Lib Spec

/-- An edit of a tag: a removal has no value. -/
structure TagChange where
  key : Text
  value : Option Text
  deriving DecidableEq

/-- Sets are lists here.  The tag edits of all objects are in one list, in order: the edits of
different objects do not touch the same rows. -/
structure TransactionChanges where
  newSchemas : List DucklakeSchema
  newTables : List DucklakeTable
  newViews : List DucklakeView
  newMacros : List DucklakeMacro
  newMacroImpls : List DucklakeMacroImpl
  newMacroParameters : List DucklakeMacroParameters
  newColumns : List (Versioned DucklakeColumn)
  newPartitionInfo : List (Versioned DucklakePartitionInfo)
  newPartitionColumns : List DucklakePartitionColumn
  newSortInfo : List (Versioned DucklakeSortInfo)
  newSortExpressions : List DucklakeSortExpression
  newTags : List DucklakeTag
  newColumnTags : List DucklakeColumnTag
  droppedSchemas : List Int
  droppedTables : List Int
  droppedViews : List Int
  droppedMacros : List Int
  detachedTables : List Int
  renamedTables : IndexMap Int Text
  retiredPartitionTables : List Int
  retiredSortTables : List Int
  retiredColumns : List (Int × Int)
  tableTags : List (Int × TagChange)
  columnTags : List ((Int × Int) × TagChange)
  dataFiles : List DucklakeDataFile
  partitionValues : List DucklakeFilePartitionValue
  columnStats : List DucklakeFileColumnStats
  deleteFiles : List DucklakeDeleteFile
  inlineDeletes : List (Int × DucklakeInlinedDelete)
  inlineTables : IndexMap Int Schema
  inlineData : List (Int × InlinedBatch)
  writtenColumns : IndexMap Int (List Int)

namespace TransactionChanges

/-- `TransactionChanges::default` -/
def empty : TransactionChanges where
  newSchemas := []
  newTables := []
  newViews := []
  newMacros := []
  newMacroImpls := []
  newMacroParameters := []
  newColumns := []
  newPartitionInfo := []
  newPartitionColumns := []
  newSortInfo := []
  newSortExpressions := []
  newTags := []
  newColumnTags := []
  droppedSchemas := []
  droppedTables := []
  droppedViews := []
  droppedMacros := []
  detachedTables := []
  renamedTables := .empty
  retiredPartitionTables := []
  retiredSortTables := []
  retiredColumns := []
  tableTags := []
  columnTags := []
  dataFiles := []
  partitionValues := []
  columnStats := []
  deleteFiles := []
  inlineDeletes := []
  inlineTables := .empty
  inlineData := []
  writtenColumns := .empty

/-- Record which statistics of a table need to be persisted. -/
def addWrittenColumns (changes : TransactionChanges) (tableId : Int) (columnIds : List Int) :
    TransactionChanges :=
  { changes with
    writtenColumns := changes.writtenColumns.insert tableId
      ((changes.writtenColumns.get? tableId).getD [] ++ columnIds) }

end TransactionChanges

/-! ## Persisting catalog rows -/

/-- `insert_entities` into a table with a primary key. -/
def insertUnique {α : Type} (table : String) (key : α → Int) (rows new : List α) :
    DucklakeResult (List α) :=
  if (rows ++ new).map key |>.Nodup then .ok (rows ++ new)
  else .error (.uniqueViolation table.toList)

def insertNew {α : Type} (snapshotId : Int) (rows : List (Versioned α)) (new : List α) :
    List (Versioned α) :=
  rows ++ new.map (Versioned.new snapshotId)

/-- `persist_table_renames`: copy the rows retired by this snapshot under their new names. -/
def persistTableRenames (snapshotId : Int) (renames : IndexMap Int Text)
    (tables : List (Versioned DucklakeTable)) : List (Versioned DucklakeTable) :=
  tables ++ tables.filterMap fun row =>
    if row.endSnapshot = some snapshotId then
      (renames.get? row.entity.tableId).map fun name =>
        .new snapshotId { row.entity with tableName := name }
    else none

/-- `persist_tags`: each edit retires the live values of its key, also values inserted earlier
in the same commit, and inserts the new one. -/
def persistTags {κ α : Type} (snapshotId : Int) (selects : κ → Text → α → Bool)
    (entity : κ → Text → Text → α) (rows : List (Versioned α)) (edits : List (κ × TagChange)) :
    List (Versioned α) :=
  edits.foldl (fun rows edit =>
    Versioned.retire snapshotId (selects edit.1 edit.2.key) rows ++
      (edit.2.value.map fun value => .new snapshotId (entity edit.1 edit.2.key value)).toList) rows

/-! ## Persisting data and statistics -/

/-- `DucklakeInlinedData::table_name` -/
def inlinedDataTableName (tableId schemaVersion : Int) : Text :=
  s!"ducklake_inlined_data_{tableId}_{schemaVersion}".toList

def createInlinedDataTable (schemaVersion : Int) (db : Database) (table : Int × Schema) :
    DucklakeResult Database :=
  let name := inlinedDataTableName table.1 schemaVersion
  if db.inlinedData.any fun existing => existing.name = name then
    .error (.tableAlreadyExists name)
  else .ok { db with
    inlinedData := db.inlinedData ++ [{
      name := name
      columns := table.2.columns.keys
      batches := [] }]
    inlinedDataTables := db.inlinedDataTables ++ [{
      tableId := table.1
      tableName := name
      schemaVersion := schemaVersion }] }

def latestInlinedDataTable (db : Database) (tableId : Int) : Option Text :=
  (db.inlinedDataTables.foldl (fun (latest : Option DucklakeInlinedDataTables) registration =>
    if registration.tableId = tableId ∧
        latest.all (fun previous => previous.schemaVersion < registration.schemaVersion) then
      some registration
    else latest) none).map DucklakeInlinedDataTables.tableName

def appendBatch (db : Database) (name : Text) (batch : InlinedBatch) : Database :=
  { db with
    inlinedData := db.inlinedData.map fun table =>
      if table.name = name then { table with batches := table.batches ++ [batch] } else table }

def persistInlineBatch (db : Database) (entry : Int × InlinedBatch) : DucklakeResult Database :=
  match latestInlinedDataTable db entry.1 with
  | none => .error .rowNotFound
  | some name => .ok (appendBatch db name entry.2)

/-- `persist_inline_data`.  A table created in this commit has the latest schema version. -/
def persistInlineData (dialect : Dialect) (schemaVersion : Int) (changes : TransactionChanges)
    (db : Database) : DucklakeResult Database := do
  if dialect = .mySql then
    if changes.inlineData.isEmpty then .ok db
    else .error (.panicked "data inlining is not yet implemented for MySQL".toList)
  else
    let db ← changes.inlineTables.entries.foldlM (createInlinedDataTable schemaVersion) db
    changes.inlineData.foldlM persistInlineBatch db

/-- Insert the row of a table's statistics, or update the one that is there. -/
def persistTableStats (state : CommitState) (rows : List DucklakeTableStats) (tableId : Int) :
    List DucklakeTableStats :=
  let stats := state.tableStatsOf tableId
  let entity : DucklakeTableStats := {
    tableId := tableId
    recordCount := stats.recordCount
    nextRowId := stats.nextRowId
    fileSizeBytes := stats.fileSizeBytes }
  if stats.isPersisted then
    rows.map fun row => if row.tableId = tableId then entity else row
  else rows ++ [entity]

def persistColumnStats (env : Environment) (state : CommitState)
    (rows : List DucklakeTableColumnStats) (key : Int × Int) : List DucklakeTableColumnStats :=
  let stats := ((state.tableStatsOf key.1).columnStatsOf key.2).getD default
  let entity : DucklakeTableColumnStats := {
    tableId := key.1
    columnId := key.2
    containsNull := stats.containsNull
    containsNan := stats.containsNan
    minValue := stats.minValue.map env.formatValue
    maxValue := stats.maxValue.map env.formatValue }
  if stats.isPersisted then
    rows.map fun row => if row.tableId = key.1 ∧ row.columnId = key.2 then entity else row
  else rows ++ [entity]

/-- The written columns whose statistics differ from the ones loaded. -/
def changedColumns (state : CommitState) (writtenColumns : IndexMap Int (List Int)) :
    List (Int × Int) :=
  writtenColumns.entries.flatMap fun entry =>
    (entry.2.eraseDups.filter fun columnId => state.columnStatsChanged entry.1 columnId).map
      fun columnId => (entry.1, columnId)

/-! ## Persisting a commit -/

def detachTables (changes : TransactionChanges) (db : Database) : Database :=
  { db with
    fileColumnStats := db.fileColumnStats.filter fun row => row.tableId ∉ changes.detachedTables
    filePartitionValues := db.filePartitionValues.filter
      fun row => row.tableId ∉ changes.detachedTables
    dataFiles := db.dataFiles.filter fun row => row.entity.tableId ∉ changes.detachedTables
    deleteFiles := db.deleteFiles.filter fun row => row.entity.tableId ∉ changes.detachedTables }

def retireRows (snapshotId : Int) (changes : TransactionChanges) (db : Database) : Database :=
  { db with
    tables := Versioned.retire snapshotId (fun row =>
      row.tableId ∈ changes.droppedTables || changes.renamedTables.contains row.tableId) db.tables
    schemas := Versioned.retire snapshotId (fun row =>
      row.schemaId ∈ changes.droppedSchemas) db.schemas
    views := Versioned.retire snapshotId (fun row => row.viewId ∈ changes.droppedViews) db.views
    macros := Versioned.retire snapshotId (fun row => row.macroId ∈ changes.droppedMacros) db.macros
    columns := Versioned.retire snapshotId (fun row => row.tableId ∈ changes.droppedTables ||
      (row.tableId, row.columnId) ∈ changes.retiredColumns) db.columns
    columnTags := Versioned.retire snapshotId (fun row =>
      row.tableId ∈ changes.droppedTables) db.columnTags
    dataFiles := Versioned.retire snapshotId (fun row =>
      row.tableId ∈ changes.droppedTables) db.dataFiles
    deleteFiles := Versioned.retire snapshotId (fun row =>
      row.tableId ∈ changes.droppedTables) db.deleteFiles
    partitionInfo := Versioned.retire snapshotId (fun row => row.tableId ∈ changes.droppedTables ||
      row.tableId ∈ changes.retiredPartitionTables) db.partitionInfo
    sortInfo := Versioned.retire snapshotId (fun row => row.tableId ∈ changes.droppedTables ||
      row.tableId ∈ changes.retiredSortTables) db.sortInfo
    tags := Versioned.retire snapshotId (fun row => row.objectId ∈ changes.droppedTables ||
      row.objectId ∈ changes.droppedSchemas || row.objectId ∈ changes.droppedViews) db.tags }

/-- Insert the new catalog rows, then apply the tag edits. -/
def insertRows (snapshotId : Int) (changes : TransactionChanges) (db : Database) :
    DucklakeResult Database := do
  let schemas ← insertUnique "ducklake_schema" (fun row => row.entity.schemaId) db.schemas
    (changes.newSchemas.map (.new snapshotId))
  .ok { db with
    schemas := schemas
    tables := insertNew snapshotId
      (persistTableRenames snapshotId changes.renamedTables db.tables) changes.newTables
    views := insertNew snapshotId db.views changes.newViews
    macros := insertNew snapshotId db.macros changes.newMacros
    macroImpls := db.macroImpls ++ changes.newMacroImpls
    macroParameters := db.macroParameters ++ changes.newMacroParameters
    columns := db.columns ++ changes.newColumns
    partitionInfo := db.partitionInfo ++ changes.newPartitionInfo
    partitionColumns := db.partitionColumns ++ changes.newPartitionColumns
    sortInfo := db.sortInfo ++ changes.newSortInfo
    sortExpressions := db.sortExpressions ++ changes.newSortExpressions
    tags := persistTags snapshotId (fun id key row => row.objectId = id ∧ row.key = key)
      (fun id key value => { objectId := id, key := key, value := value })
      (insertNew snapshotId db.tags changes.newTags) changes.tableTags
    columnTags := persistTags snapshotId
      (fun id key row => (row.tableId, row.columnId) = id ∧ row.key = key)
      (fun id key value => { tableId := id.1, columnId := id.2, key := key, value := value })
      (insertNew snapshotId db.columnTags changes.newColumnTags) changes.columnTags }

def persistFiles (snapshotId : Int) (changes : TransactionChanges) (db : Database) :
    DucklakeResult Database := do
  let dataFiles ← insertUnique "ducklake_data_file" (fun row => row.entity.dataFileId)
    db.dataFiles (changes.dataFiles.map (.new snapshotId))
  let deleteFiles ← insertUnique "ducklake_delete_file" (fun row => row.entity.deleteFileId)
    db.deleteFiles (changes.deleteFiles.map (.new snapshotId))
  .ok { db with
    dataFiles := dataFiles
    filePartitionValues := db.filePartitionValues ++ changes.partitionValues
    fileColumnStats := db.fileColumnStats ++ changes.columnStats
    deleteFiles := deleteFiles
    inlinedDeletes := db.inlinedDeletes ++ changes.inlineDeletes }

def persistStatistics (env : Environment) (state : CommitState) (changes : TransactionChanges)
    (db : Database) : Database :=
  { db with
    tableStats := changes.writtenColumns.keys.foldl (persistTableStats state) db.tableStats
    tableColumnStats := (changedColumns state changes.writtenColumns).foldl
      (persistColumnStats env state) db.tableColumnStats }

/-- `TransactionChanges::persist`, in dependency order. -/
def TransactionChanges.persist (env : Environment) (state : CommitState)
    (changes : TransactionChanges) (db : Database) : DucklakeResult Database := do
  let db ← insertRows state.snapshotId changes
    (retireRows state.snapshotId changes (detachTables changes db))
  let db ← persistFiles state.snapshotId changes db
  let db ← persistInlineData env.dialect state.schemaVersion changes db
  .ok (persistStatistics env state changes db)

end Ducklake.Transaction
