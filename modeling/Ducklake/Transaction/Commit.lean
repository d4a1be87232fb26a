import Ducklake.Transaction.Apply
import Ducklake.Transaction.Changes.Conflict

/-!
# One commit attempt

The parts of `Transaction::commit` that run without another transaction in between: applying
the changes and persisting them in one database transaction, and reading the changes of the
snapshots that were committed since the transaction started.
-/

set_option autoImplicit false

namespace Ducklake.Transaction

open Lib Caches Spec

/-- Everything an attempt knows before it opens the database transaction. -/
structure PreparedCommit where
  changes : TransactionChanges
  state : CommitState
  appliedChanges : AppliedChangeSet
  tableIdsWithSchemaChanges : List Int

/-- The part of `apply_changes` in front of the database transaction. -/
def prepareCommit (env : Environment) (set : ChangeSet) (state : CommitState) :
    DucklakeResult PreparedCommit := do
  let (changes, state) ← set.apply env state
  let (appliedChanges, state) := set.appliedChangeSet state
  let (inlineWrites, state) :=
    state.collect CommitState.tableId (set.changes.filterMap ChangeSet.inlineWrittenTable)
  let (createdTables, state) :=
    state.collect CommitState.tableId (set.changes.filterMap Change.createdTable)
  let (schemaChanges, state) :=
    state.collect CommitState.tableId set.tableRefsWithSchemaChanges
  if inlineWrites.any fun id => id ∈ schemaChanges ∧ id ∉ createdTables then
    .error (.panicked ("Cannot currently write inline data to a table that has schema changes" ++
      " within the same transaction").toList)
  else .ok {
    changes := changes
    state := state
    appliedChanges := appliedChanges
    tableIdsWithSchemaChanges := schemaChanges }

/-- `finalize_commit`: the snapshot, its changes and the new schema versions. -/
def finalizeCommit (now : Int) (prepared : PreparedCommit) (db : Database) :
    DucklakeResult Database := do
  let snapshots ← insertUnique "ducklake_snapshot" DucklakeSnapshot.snapshotId db.snapshots
    [prepared.state.snapshot now]
  let snapshotChanges ← insertUnique "ducklake_snapshot_changes"
    DucklakeSnapshotChanges.snapshotId db.snapshotChanges [{
      snapshotId := prepared.state.snapshotId
      changesMade := prepared.appliedChanges.display }]
  .ok { db with
    snapshots := snapshots
    snapshotChanges := snapshotChanges
    schemaVersions := db.schemaVersions ++ prepared.tableIdsWithSchemaChanges.map fun tableId => {
      beginSnapshot := prepared.state.snapshotId
      schemaVersion := prepared.state.schemaVersion
      tableId := some tableId } }

/-- The database transaction of a commit attempt: all rows or none. -/
def persistCommit (env : Environment) (now : Int) (prepared : PreparedCommit) (db : Database) :
    DucklakeResult Database := do
  let db ← prepared.changes.persist env prepared.state db
  finalizeCommit now prepared db

/-- The errors that make `commit` look at the latest snapshot and try again.  A table that
exists already is no reason in the last attempt. -/
def isRetryable (lastAttempt : Bool) : DucklakeError → Bool
  | .uniqueViolation _ => true
  | .tableAlreadyExists _ => !lastAttempt
  | _ => false

def maxRetryCount : Nat := 10

/-- `SnapshotInfo::load_latest` -/
def latestSnapshot (db : Database) : DucklakeResult SnapshotInfo :=
  let newest := db.snapshots.foldl (fun (newest : Option DucklakeSnapshot) row =>
    if newest.all fun previous => previous.snapshotId < row.snapshotId then some row else newest)
    none
  match newest with
  | some row => .ok (.ofSnapshot row)
  | none => .error .rowNotFound

/-- The changes of the snapshots behind the first and up to the second. -/
def snapshotChangesBetween (db : Database) (fromSnapshot toSnapshot : Int) :
    List DucklakeSnapshotChanges :=
  db.snapshotChanges.filter fun row =>
    fromSnapshot + 1 ≤ row.snapshotId ∧ row.snapshotId ≤ toSnapshot

def getSnapshotChanges (db : Database) (fromSnapshot toSnapshot : Int) :
    DucklakeResult (List AppliedChangeSet) :=
  (snapshotChangesBetween db fromSnapshot toSnapshot).mapM fun row =>
    AppliedChangeSet.parse row.changesMade

/-- The check that decides about another attempt. -/
def checkInterimChanges (catalog : Catalog) (applied : AppliedChangeSet)
    (interim : List AppliedChangeSet) : DucklakeResult Unit :=
  interim.forM fun other => applied.checkConflict other catalog

end Ducklake.Transaction
