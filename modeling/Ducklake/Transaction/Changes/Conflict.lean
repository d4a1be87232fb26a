import Ducklake.Catalog.Catalog
import Ducklake.Transaction.Changes.AppliedChangeSet

/-!
# Conflicts

`check_conflict` of `applied_change.rs`: which changes of a transaction conflict with the
changes that were committed after it started.
-/

set_option autoImplicit false

namespace Ducklake.Transaction

open Lib

namespace AppliedChange

def action : AppliedChange → Text
  | createdSchema _ | createdTable _ | createdView _ | createdScalarMacro _
  | createdTableMacro _ => "created".toList
  | droppedSchema _ | droppedTable _ | droppedView _ | droppedScalarMacro _
  | droppedTableMacro _ => "dropped".toList
  | alteredTable _ | alteredView _ => "altered".toList
  | compactedTable _ => "compacted".toList
  | insertedIntoTable _ | inlinedInsert _ => "inserted into".toList
  | deletedFromTable _ | inlinedDelete _ => "deleted from".toList
  | inlineFlush _ => "flushed inlined changes for".toList
  | mergeAdjacent _ => "merged adjacent changes for".toList
  | rewriteDelete _ => "rewrote delete file for".toList

def conflictIf (conflicts : Bool) (message : Text) : DucklakeResult Unit :=
  if conflicts then .error (.transactionConflict message) else .ok ()

/-- `attempting to {attempt} {subject} but {outcome} {action}` -/
def attempting (attempt : String) (subject : Text) (outcome : String) (other : AppliedChange) :
    Text :=
  "attempting to ".toList ++ attempt.toList ++ ' ' :: subject ++ " but ".toList ++
    outcome.toList ++ ' ' :: other.action

/-- A schema is dropped while an object with the given schema name is created.  The id is
looked up in the catalog of the transaction that checks for conflicts. -/
def checkSchemaDrop (catalog : Catalog) (schemaId : Int) (kind : String) (name : Text)
    (schemaName : Text) : DucklakeResult Unit := do
  let schema ← catalog.schemaRefById schemaId
  conflictIf ((catalog.schema schema).name = schemaName)
    ("attempting to drop schema with ID ".toList ++ displayId schemaId ++ " but ".toList ++
      kind.toList ++ ' ' :: name ++ " was created in it".toList)

def checkMacroSchemaDrop (catalog : Catalog) (schemaId : Int) (name : Text) :
    DucklakeResult Unit := do
  let _ ← catalog.schemaRefById schemaId
  let macroName ← QualifiedName.parse name
  checkSchemaDrop catalog schemaId "macro" macroName.display macroName.schema

/-- Whether a change conflicts with another one that was committed in the meantime. -/
def checkConflict (change other : AppliedChange) (catalog : Catalog) : DucklakeResult Unit :=
  match change with
  | createdSchema name =>
      match other with
      | createdSchema name' => conflictIf (name = name')
          (attempting "create schema" name.display "it was already" other)
      | _ => .ok ()
  | droppedSchema id =>
      match other with
      | droppedSchema id' => conflictIf (id = id')
          (attempting "drop schema with ID" (displayId id) "it was already" other)
      | createdTable name => checkSchemaDrop catalog id "table" name.display name.schema
      | createdView name => checkSchemaDrop catalog id "view" name.display name.schema
      | createdScalarMacro name => checkMacroSchemaDrop catalog id name
      | createdTableMacro name => checkMacroSchemaDrop catalog id name
      | _ => .ok ()
  | createdTable name =>
      match other with
      | droppedSchema id => checkSchemaDrop catalog id "table" name.display name.schema
      | createdTable name' => conflictIf (name = name')
          (attempting "create table" name.display "it was already" other)
      | createdView name' => conflictIf (name = name')
          (attempting "create relation" name.display "it was already" other)
      | _ => .ok ()
  | createdView name =>
      match other with
      | droppedSchema id => checkSchemaDrop catalog id "view" name.display name.schema
      | createdView name' => conflictIf (name = name')
          (attempting "create view" name.display "it was already" other)
      | createdTable name' => conflictIf (name = name')
          (attempting "create relation" name.display "it was already" other)
      | _ => .ok ()
  | createdScalarMacro name =>
      match other with
      | droppedSchema id => checkMacroSchemaDrop catalog id name
      | createdScalarMacro name' => conflictIf (eqIgnoreAsciiCase name name')
          (attempting "create macro" name "it was already" other)
      | _ => .ok ()
  | createdTableMacro name =>
      match other with
      | droppedSchema id => checkMacroSchemaDrop catalog id name
      | createdTableMacro name' => conflictIf (eqIgnoreAsciiCase name name')
          (attempting "create macro" name "it was already" other)
      | _ => .ok ()
  | droppedTable id =>
      match other with
      | droppedTable id' => conflictIf (id = id')
          (attempting "drop table with ID" (displayId id) "it was already" other)
      | _ => .ok ()
  | alteredTable id =>
      match other with
      | alteredTable id' | droppedTable id' => conflictIf (id = id')
          (attempting "alter table with ID" (displayId id) "it was" other)
      | _ => .ok ()
  | droppedView id =>
      match other with
      | droppedView id' => conflictIf (id = id')
          (attempting "drop view with ID" (displayId id) "it was already" other)
      | _ => .ok ()
  | alteredView id =>
      match other with
      | alteredView id' | droppedView id' => conflictIf (id = id')
          (attempting "alter view with ID" (displayId id) "it was" other)
      | _ => .ok ()
  | droppedScalarMacro id | droppedTableMacro id =>
      match other with
      | droppedScalarMacro id' | droppedTableMacro id' => conflictIf (id = id')
          (attempting "drop macro with ID" (displayId id) "it was already" other)
      | _ => .ok ()
  | insertedIntoTable id | inlinedInsert id =>
      match other with
      | droppedTable id' | alteredTable id' => conflictIf (id = id')
          (attempting "insert into table with ID" (displayId id) "the table was" other)
      | _ => .ok ()
  | deletedFromTable id | inlinedDelete id =>
      match other with
      | droppedTable id' | alteredTable id' | deletedFromTable id' | compactedTable id' =>
          conflictIf (id = id')
            (attempting "delete from table with ID" (displayId id) "the table was" other)
      | _ => .ok ()
  | compactedTable id =>
      match other with
      | droppedTable id' | deletedFromTable id' | inlinedDelete id' => conflictIf (id = id')
          (attempting "compact table with ID" (displayId id) "it was" other)
      | _ => .ok ()
  | inlineFlush _ | mergeAdjacent _ | rewriteDelete _ => .ok ()

end AppliedChange

namespace AppliedChangeSet

def checkConflict (set other : AppliedChangeSet) (catalog : Catalog) : DucklakeResult Unit :=
  set.changes.forM fun change => other.changes.forM fun otherChange =>
    change.checkConflict otherChange catalog

theorem checkConflict_eq_ok_iff
    (set other : AppliedChangeSet)
    (catalog : Catalog) :
    set.checkConflict other catalog = .ok () ↔
      ∀ change ∈ set.changes, ∀ otherChange ∈ other.changes,
        change.checkConflict otherChange catalog = .ok () := by
  rw [checkConflict, forM_eq_ok]
  simp only [forM_eq_ok]

end AppliedChangeSet

end Ducklake.Transaction
