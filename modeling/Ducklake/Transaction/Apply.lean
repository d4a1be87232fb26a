import Ducklake.Transaction.Changes.AppliedChangeSet
import Ducklake.Transaction.Executors

/-!
# Applying a change set

`ChangeSet::apply` and the applied changes of a set: every change is turned into rows, and
described for the conflict detection of other transactions.
-/

set_option autoImplicit false

namespace Ducklake.Transaction

open Lib

namespace Change

/-- How a change is recorded.  Objects without an id receive one. -/
def appliedChange (state : CommitState) : Change → AppliedChange × CommitState
  | createSchema _ name _ => (.createdSchema ⟨name⟩, state)
  | deleteSchema schemaRef => (state.schemaId schemaRef).map .droppedSchema id
  | createTable _ _ _ _ name .. => (.createdTable name, state)
  | renameTable _ name => (.createdTable name, state)
  | updateTablePartitioning tableRef .. => (state.tableId tableRef).map .alteredTable id
  | updateTableSortInfo tableRef _ => (state.tableId tableRef).map .alteredTable id
  | addTableTag tableRef _ => (state.tableId tableRef).map .alteredTable id
  | removeTableTag tableRef _ => (state.tableId tableRef).map .alteredTable id
  | addTableColumn _ columnRefs _ =>
      (state.tableId (columnRefs.headD ⟨⟨0⟩, 0⟩).tableRef).map .alteredTable id
  | updateTableColumn _ columnRef _ => (state.tableId columnRef.tableRef).map .alteredTable id
  | removeTableColumn columnRef => (state.tableId columnRef.tableRef).map .alteredTable id
  | addTableColumnTag columnRef _ => (state.tableId columnRef.tableRef).map .alteredTable id
  | removeTableColumnTag columnRef _ => (state.tableId columnRef.tableRef).map .alteredTable id
  | deleteTable tableRef _ => (state.tableId tableRef).map .droppedTable id
  | createView _ _ name .. => (.createdView name, state)
  | deleteView viewRef => (state.viewId viewRef).map .droppedView id
  | createMacro _ _ name macroType _ =>
      match macroType with
      | .scalar => (.createdScalarMacro name.display, state)
      | .table => (.createdTableMacro name.display, state)
  | deleteMacro macroRef macroType =>
      match macroType with
      | .scalar => (state.macroId macroRef).map .droppedScalarMacro id
      | .table => (state.macroId macroRef).map .droppedTableMacro id
  | writeTableDataFiles tableRef _ => (state.tableId tableRef).map .insertedIntoTable id
  | writeTableInlineData tableRef _ => (state.tableId tableRef).map .inlinedInsert id

def apply (env : Environment) (collected : TransactionChanges × CommitState) :
    Change → DucklakeResult (TransactionChanges × CommitState)
  | createSchema schemaRef name path =>
      .ok (Executors.createSchema collected.1 collected.2 schemaRef name path)
  | deleteSchema schemaRef => .ok (Executors.deleteSchema collected.1 collected.2 schemaRef)
  | createTable schemaRef tableRef columnRefs partitionColumnRefs name columns retiredColumns
      partitionColumns sortInfo path tags =>
      Executors.createTable env collected.1 collected.2 schemaRef tableRef columnRefs
        partitionColumnRefs name columns retiredColumns partitionColumns sortInfo path tags
  | writeTableDataFiles tableRef dataFiles =>
      Executors.writeTableData env collected.1 collected.2 tableRef dataFiles
  | writeTableInlineData tableRef data =>
      .ok (Executors.writeTableInlineData collected.1 collected.2 tableRef data)
  | renameTable tableRef name =>
      .ok (Executors.renameTable collected.1 collected.2 tableRef name)
  | updateTablePartitioning tableRef partitionColumnRefs partitionColumns =>
      Executors.updateTablePartitioning collected.1 collected.2 tableRef partitionColumnRefs
        partitionColumns
  | updateTableSortInfo tableRef expressions =>
      .ok (Executors.updateTableSortInfo collected.1 collected.2 tableRef expressions)
  | deleteTable tableRef detachFiles =>
      .ok (Executors.deleteTable collected.1 collected.2 tableRef detachFiles)
  | addTableTag tableRef tag => .ok (Executors.addTableTag collected.1 collected.2 tableRef tag)
  | removeTableTag tableRef key =>
      .ok (Executors.removeTableTag collected.1 collected.2 tableRef key)
  | createView schemaRef viewRef name sql dialect columnAliases tags =>
      .ok (Executors.createView collected.1 collected.2 schemaRef viewRef name sql dialect
        columnAliases tags)
  | deleteView viewRef => .ok (Executors.deleteView collected.1 collected.2 viewRef)
  | createMacro schemaRef macroRef name macroType implementations =>
      .ok (Executors.createMacro collected.1 collected.2 schemaRef macroRef name macroType
        implementations)
  | deleteMacro macroRef _ => .ok (Executors.deleteMacro collected.1 collected.2 macroRef)
  | addTableColumn parentColumnRef columnRefs column =>
      Executors.addTableColumn env collected.1 collected.2 parentColumnRef columnRefs column
  | updateTableColumn parentColumnRef columnRef column =>
      Executors.updateTableColumn env collected.1 collected.2 parentColumnRef columnRef column
  | removeTableColumn columnRef =>
      .ok (Executors.removeTableColumn collected.1 collected.2 columnRef)
  | addTableColumnTag columnRef tag =>
      .ok (Executors.addTableColumnTag collected.1 collected.2 columnRef tag)
  | removeTableColumnTag columnRef key =>
      .ok (Executors.removeTableColumnTag collected.1 collected.2 columnRef key)

end Change

namespace CommitState

def collect {α β : Type} (resolve : CommitState → α → β × CommitState) :
    CommitState → List α → List β × CommitState
  | state, [] => ([], state)
  | state, item :: rest =>
      let (first, state) := resolve state item
      let (others, state) := collect resolve state rest
      (first :: others, state)

end CommitState

namespace ChangeSet

def appliedChangeSet (set : ChangeSet) (state : CommitState) : AppliedChangeSet × CommitState :=
  let (applied, state) := CommitState.collect Change.appliedChange state set.changes
  (AppliedChangeSet.new applied, state)

/-- The schema may have changed after inline data was queued. -/
def validateInlineData (env : Environment) (state : CommitState) : Change → DucklakeResult Unit
  | .writeTableInlineData tableRef _ =>
      if env.dialect.supportsDataInlining (state.tableSchema tableRef) then .ok ()
      else .error (.invalidChanges
        "cannot inline data for this table; write Parquet files instead".toList)
  | _ => .ok ()

/-- Table stats are cached by file id, so that a commit that writes inline data without any data
file discards one. -/
def bumpFileId (set : ChangeSet) (state : CommitState) : CommitState :=
  if set.containsInlineDataWritesAndNoFileWrites then state.fileId.2 else state

def apply (env : Environment) (set : ChangeSet) (state : CommitState) :
    DucklakeResult (TransactionChanges × CommitState) := do
  set.changes.forM (validateInlineData env state)
  let collected ← set.changes.foldlM (Change.apply env) (TransactionChanges.empty, state)
  let (changes, state) :=
    set.tableRefsWithSchemaChanges.foldl (Executors.createInlinedTable env) collected
  .ok (changes, set.bumpFileId state)

def inlineWrittenTable : Change → Option TableRef
  | .writeTableInlineData tableRef _ => some tableRef
  | _ => none

end ChangeSet

end Ducklake.Transaction
