import Ducklake.Lib.Outcome
import Ducklake.Transaction.Operations

/-!
# Calls and what they leave behind

The methods of a transaction with the state that they leave when they fail.  Most of them change
the catalog in one step.  The others call methods one after the other: `delete_schema` without,
`update_table_schema` and `update_table_column_dtype` with a `TransactionGuard`.
-/

set_option autoImplicit false

namespace Ducklake

open Lib Caches Spec Transaction

namespace Catalog

/-! ## Entities without a schema

`add_table`, `add_view` and `add_macro` append the entity before they look for its schema. -/

def afterAddTable (catalog : Catalog) (info : TableInfo) (path : DucklakePath)
    (nextColumnId : Option Int) : Catalog :=
  if (catalog.tableRef info.name).isOk || (catalog.viewRef info.name).isOk then catalog
  else
    let built : DucklakeResult CatalogTable := do
      let columns ← CatalogColumns.fromSchema info.schema nextColumnId
      let partition ← traverseOption (CatalogTablePartition.fromPartition · columns)
        info.partitioning
      let sortInfo ← traverseOption (CatalogTableSortInfo.fromSortInfo · columns) info.sortInfo
      .ok {
        id := none
        name := info.name
        columns := columns
        partition := partition
        sortInfo := sortInfo
        tags := info.tags
        path := path }
    match built with
    | .ok table => { catalog with tableArena := catalog.tableArena.push table none }
    | .error _ => catalog

def afterAddView (catalog : Catalog) (info : ViewInfo) : Catalog :=
  if (catalog.viewRef info.name).isOk || (catalog.tableRef info.name).isOk then catalog
  else { catalog with
    viewArena := catalog.viewArena.push {
      id := none
      name := info.name
      sql := info.sql
      dialect := info.dialect
      columnAliases := info.columnAliases
      tags := info.tags } none }

def afterAddMacro (catalog : Catalog) (info : MacroInfo) : Catalog :=
  if (catalog.macroRef info.name info.macroType).isOk then catalog
  else { catalog with
    macroArena := catalog.macroArena.push {
      id := none
      name := info.name
      macroType := info.macroType
      implementations := info.implementations } none }

end Catalog

namespace Transaction

variable (tx : Transaction)

/-- The transaction with a catalog that a failed mutation left, if it came to the mutation. -/
def withLeftover (catalog : DucklakeResult Catalog) : Transaction :=
  match catalog with
  | .ok catalog => { tx with catalog := catalog }
  | .error _ => tx

def afterCreateTable (env : Environment) (name : QualifiedName) (columns : List Column)
    (partitionColumns : Option Partition) (sortInfo : Option SortInfo) (path : Option Text)
    (tags : Option Tags) (retiredColumns : Option (List DucklakeColumn)) : Transaction :=
  tx.withLeftover do
    let path ← env.parsePath (path.getD name.name)
    let schema ← Schema.ofColumns columns
    .ok (tx.catalog.afterAddTable {
        name := name
        schema := schema
        partitioning := partitionColumns
        sortInfo := sortInfo
        tags := tags.getD default } (env.ensureDirectory path)
      (retiredColumns.map (transferNextColumnId columns)))

def afterCreateView (env : Environment) (name : QualifiedName) (sql : Text)
    (columnAliases : Option (List Text)) (tags : Option Tags) : Transaction :=
  tx.withLeftover do
    let sql ← env.parseSelectQuery sql
    .ok (tx.catalog.afterAddView {
      name := name
      sql := sql
      dialect := "duckdb".toList
      columnAliases := columnAliases
      tags := tags.getD default })

def afterCreateMacro (env : Environment) (name : QualifiedName) (macroType : MacroType)
    (implementations : List MacroImplementation) : Transaction :=
  tx.withLeftover do
    let implementations ← env.validateImplementations macroType implementations
    .ok (tx.catalog.afterAddMacro {
      name := name, macroType := macroType, implementations := implementations })

end Transaction

/-- What a method that changes the catalog in one step leaves behind when it fails. -/
def Operation.leftover (env : Environment) (db : Database) (tx : Transaction) :
    Operation → Transaction
  | .createTable name columns partitionColumns sortInfo path tags _ =>
      tx.afterCreateTable env name columns partitionColumns sortInfo path tags none
  | .createTransferTable name info retiredColumns =>
      tx.afterCreateTable env name info.schema.columns.values info.partitioning info.sortInfo none
        (some info.tags) (some retiredColumns)
  | .createView name sql columnAliases tags _ =>
      tx.afterCreateView env name sql columnAliases tags
  | .createMacro name macroType implementations _ =>
      tx.afterCreateMacro env name macroType implementations
  | operation => operation.afterError db tx

namespace Transaction

/-! ## Calls one after the other -/

abbrev Call := Outcome DucklakeError Transaction

/-- The guard puts the catalog and the changes back. -/
def guard (tx : Transaction) (call : Call) : Call :=
  call.guarded fun state => { state with catalog := tx.catalog, changes := tx.changes }

def deleteSchemaContentsCall (name : Text) (tx : Transaction) : Call :=
  match tx.catalog.schemaRef name with
  | .error err => ⟨.error err, tx⟩
  | .ok schemaRef =>
      let tables := fun (tx : Transaction) =>
        Outcome.forEach (fun name tx => .ofExcept tx (deleteTable name .fail tx))
          ((tx.catalog.listTables schemaRef).map fun ref => (tx.catalog.table ref).name) tx
      let views := fun (tx : Transaction) =>
        Outcome.forEach (fun name tx => .ofExcept tx (deleteView name .fail tx))
          ((tx.catalog.listViews schemaRef).map fun ref => (tx.catalog.view ref).name) tx
      let macros := fun (tx : Transaction) =>
        Outcome.forEach (fun (entry : QualifiedName × MacroType) tx =>
            .ofExcept tx (deleteMacro entry.1 entry.2 .fail tx))
          ((tx.catalog.listMacros schemaRef).map fun ref =>
            ((tx.catalog.macro_ ref).name, (tx.catalog.macro_ ref).macroType)) tx
      ((tables tx).andThen views).andThen macros

def deleteSchemaCall (name : Text) (cascade : Bool) (ifNotExists : IfExistsStrategy)
    (tx : Transaction) : Call :=
  if ifNotExists = .skip ∧ ¬(tx.catalog.schemaRef name).isOk then ⟨.ok (), tx⟩
  else
    let emptied := if cascade then deleteSchemaContentsCall name tx else ⟨.ok (), tx⟩
    emptied.andThen fun tx => .ofExcept tx do
      let schemaRef ← tx.catalog.schemaRef name
      let catalog ← tx.catalog.deleteSchema schemaRef
      .ok (tx.record catalog (.deleteSchema schemaRef))

def addTableColumnCall (db : Database) (name : QualifiedName) (column : Column)
    (parentPath : List Text) (tx : Transaction) : Call :=
  .ofExcept ((Operation.addTableColumn name column parentPath).afterError db tx)
    (addTableColumn db name column parentPath tx)

def updateDtypeRecursiveCall (db : Database) (name : QualifiedName) :
    Nat → List Text → DataType → DataType → Transaction → Call
  | 0, _, _, _, tx => ⟨.error (.panicked "update_table_column_dtype_recursive".toList), tx⟩
  | fuel + 1, path, existing, target, tx =>
      if existing = target then ⟨.ok (), tx⟩
      else
        match existing, target with
        | .primitive source, .primitive type =>
            .ofExcept tx
              (if source.canPromoteTo type then do
                let ref ← columnByPath tx.catalog name path
                .ok (tx.recordColumn (tx.catalog.modifyColumn ref fun column =>
                  { column with dtype := .primitive type }) ref)
              else .error (.invalidCast existing.display target.display))
        | .struct oldFields, .struct newFields =>
            Outcome.forEach (fun item tx =>
              match item with
              | .both old new =>
                  updateDtypeRecursiveCall db name fuel (path ++ [old.name]) old.dtype new.dtype tx
              | .left old => .ofExcept tx (removeTableColumn name (path ++ [old.name]) tx)
              | .right new => addTableColumnCall db name new path tx)
              (columnDiff oldFields newFields) tx
        | .list oldInner, .list newInner =>
            updateDtypeRecursiveCall db name fuel (path ++ ["element".toList]) oldInner.dtype
              newInner.dtype tx
        | .map oldKey oldValue, .map newKey newValue =>
            (updateDtypeRecursiveCall db name fuel (path ++ ["key".toList]) oldKey.dtype
              newKey.dtype tx).andThen
              (updateDtypeRecursiveCall db name fuel (path ++ ["value".toList]) oldValue.dtype
                newValue.dtype)
        | _, _ => ⟨.error (.invalidCast existing.display target.display), tx⟩

def updateTableColumnDtypeCall (db : Database) (name : QualifiedName) (column : List Text)
    (dtype : DataType) (tx : Transaction) : Call :=
  match columnByPath tx.catalog name column with
  | .error err => ⟨.error err, tx⟩
  | .ok ref =>
      let existing := tx.catalog.columnInfo ref
      tx.guard
        (updateDtypeRecursiveCall db name existing.flatten.length column existing.dtype dtype tx)

def updateTableSchemaCall (db : Database) (stats : DucklakeResult TableStatsMap)
    (name : QualifiedName) (newColumns : List Column) (tx : Transaction) : Call :=
  match tx.catalog.tableRef name with
  | .error err => ⟨.error err, tx⟩
  | .ok tableRef => tx.guard
      (match Schema.ofColumns newColumns with
      | .error err => ⟨.error err, tx⟩
      | .ok schema => Outcome.forEach (fun item tx =>
          match item with
          | .both _ column =>
              ((updateTableColumnDtypeCall db name [column.name] column.dtype tx).andThen fun tx =>
                .ofExcept tx (updateTableColumnDefault name [column.name] column.defaultValue
                  tx)).andThen fun tx =>
                    .ofExcept tx (updateTableColumnNullability stats name [column.name]
                      column.nullable tx)
          | .left column => .ofExcept tx (removeTableColumn name [column.name] tx)
          | .right column => addTableColumnCall db name column [] tx)
          (columnDiff (tx.catalog.tableSchema tableRef).columns.values schema.columns.values) tx)

end Transaction

/-- Call a method: its result, and the transaction afterwards. -/
def Operation.call (env : Environment) (db : Database) (stats : DucklakeResult TableStatsMap)
    (tx : Transaction) : Operation → Transaction.Call
  | .deleteSchema name cascade ifNotExists => tx.deleteSchemaCall name cascade ifNotExists
  | .updateTableSchema name columns => tx.updateTableSchemaCall db stats name columns
  | .updateTableColumnDtype name column dtype => tx.updateTableColumnDtypeCall db name column dtype
  | operation => .ofExcept (operation.leftover env db tx) (operation.execute env db stats tx)

/-! ## Calls and operations agree -/

namespace Transaction

section

variable (tx : Transaction)

@[simp] theorem value_guard (call : Call) : (tx.guard call).value = call.value :=
  Outcome.value_guarded _ call

theorem value_deleteSchemaContentsCall (name : Text) :
    (deleteSchemaContentsCall name tx).value = deleteSchemaContents name tx := by
  unfold deleteSchemaContentsCall deleteSchemaContents
  cases tx.catalog.schemaRef name with
  | error err => rfl
  | ok schemaRef =>
      simp only [Outcome.value_andThen, Outcome.value_forEach, Outcome.value_ofExcept]
      exact bind_assoc _ _ _

theorem value_deleteSchemaCall (name : Text) (cascade : Bool) (ifNotExists : IfExistsStrategy) :
    (deleteSchemaCall name cascade ifNotExists tx).value =
      deleteSchema name cascade ifNotExists tx := by
  unfold deleteSchemaCall deleteSchema emptySchema
  split
  · rfl
  · simp only [Outcome.value_andThen, Outcome.value_ofExcept]
    cases cascade with
    | false => rfl
    | true => simp only [if_true, value_deleteSchemaContentsCall]

theorem value_updateDtypeRecursiveCall (db : Database) (name : QualifiedName) (fuel : Nat)
    (path : List Text) (existing target : DataType) :
    (updateDtypeRecursiveCall db name fuel path existing target tx).value =
      updateDtypeRecursive db name fuel path existing target tx := by
  induction fuel generalizing path existing target tx with
  | zero => rfl
  | succ fuel ih =>
      unfold updateDtypeRecursiveCall updateDtypeRecursive
      by_cases same : existing = target
      · rw [if_pos same, if_pos same]
        rfl
      · rw [if_neg same, if_neg same]
        cases existing with
        | primitive source =>
            cases target with
            | primitive type => exact Outcome.value_ofExcept _ _
            | _ => rfl
        | struct oldFields =>
            cases target with
            | struct newFields =>
                simp only [Outcome.value_forEach]
                refine congrArg (fun step => List.foldlM step tx _) ?_
                funext state item
                cases item with
                | both old new => exact ih _ _ _ _
                | left old => exact Outcome.value_ofExcept _ _
                | right new => exact Outcome.value_ofExcept _ _
            | _ => rfl
        | list oldInner =>
            cases target with
            | list newInner => exact ih _ _ _ _
            | _ => rfl
        | map oldKey oldValue =>
            cases target with
            | map newKey newValue => simp only [Outcome.value_andThen, ih]
            | _ => rfl

theorem value_updateTableColumnDtypeCall (db : Database) (name : QualifiedName)
    (column : List Text) (dtype : DataType) :
    (updateTableColumnDtypeCall db name column dtype tx).value =
      updateTableColumnDtype db name column dtype tx := by
  unfold updateTableColumnDtypeCall updateTableColumnDtype
  cases columnByPath tx.catalog name column with
  | error err => rfl
  | ok ref => exact (value_guard tx _).trans (value_updateDtypeRecursiveCall tx db name _ _ _ _)

theorem value_updateTableSchemaCall (db : Database) (stats : DucklakeResult TableStatsMap)
    (name : QualifiedName) (newColumns : List Column) :
    (updateTableSchemaCall db stats name newColumns tx).value =
      updateTableSchema db stats name newColumns tx := by
  unfold updateTableSchemaCall updateTableSchema
  cases tx.catalog.tableRef name with
  | error err => rfl
  | ok tableRef =>
      refine (value_guard tx _).trans ?_
      cases typed : Schema.ofColumns newColumns with
      | error err => rfl
      | ok schema =>
          refine (Outcome.value_forEach _ _ _).trans ?_
          refine congrArg (fun step => List.foldlM step tx _) ?_
          funext state item
          cases item with
          | both old column =>
              simp only [Outcome.value_andThen, Outcome.value_ofExcept,
                value_updateTableColumnDtypeCall]
              exact bind_assoc _ _ _
          | left column => exact Outcome.value_ofExcept _ _
          | right column => exact Outcome.value_ofExcept _ _

end

end Transaction

theorem Operation.value_call
    (env : Environment)
    (db : Database)
    (stats : DucklakeResult TableStatsMap)
    (tx : Transaction)
    (operation : Operation) :
    (operation.call env db stats tx).value = operation.execute env db stats tx := by
  cases operation with
  | deleteSchema name cascade ifNotExists => exact value_deleteSchemaCall tx name cascade ifNotExists
  | updateTableSchema name columns => exact value_updateTableSchemaCall tx db stats name columns
  | updateTableColumnDtype name column dtype =>
      exact value_updateTableColumnDtypeCall tx db name column dtype
  | _ => exact Outcome.value_ofExcept _ _

end Ducklake
