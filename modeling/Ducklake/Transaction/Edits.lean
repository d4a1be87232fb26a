import Ducklake.Lib.Except
import Ducklake.Transaction.Operations
import Mathlib.Logic.Relation

/-!
# What operations do

Every method of a transaction is a sequence of edits.  An edit is one successful mutation of the
local catalog together with the changes recorded for it.
-/

set_option autoImplicit false

namespace Ducklake

open Lib Caches Spec Transaction

/-- The columns of a table that the method transfers with their ids. -/
def Operation.transfers (columns : List Column) : Operation → Prop
  | .createTransferTable _ info _ => columns = info.schema.columns.values
  | _ => False

/-- The edits that a method makes when it reads `db` and `stats`. -/
inductive Edit (env : Environment) (db : Database) (stats : DucklakeResult TableStatsMap)
    (method : Operation) (before : Catalog) : List Change → Catalog → Prop where
  | createSchema {name : Text} {path : DucklakePath} {ref : SchemaRef} {after : Catalog}
      (success : before.addSchema name path = .ok (ref, after)) :
      Edit env db stats method before [.createSchema ref name path] after
  | deleteSchema {name : Text} {ref : SchemaRef} {after : Catalog}
      (found : before.schemaRef name = .ok ref)
      (success : before.deleteSchema ref = .ok after) :
      Edit env db stats method before [.deleteSchema ref] after
  | createTable {info : TableInfo} {columns : List Column} {path : DucklakePath}
      {retired : Option (List DucklakeColumn)} {added : Catalog.AddedTable} {after : Catalog}
      (preserved : retired.isSome = true → method.transfers columns)
      (typed : Schema.ofColumns columns = .ok info.schema)
      (success : before.addTable info path (retired.map (transferNextColumnId columns)) =
        .ok (added, after)) :
      Edit env db stats method before [.createTable added.schemaRef added.tableRef added.columnRefs
        added.partitionColumnRefs info.name columns (retired.getD []) info.partitioning
        info.sortInfo path info.tags] after
  | deleteTable {name : QualifiedName} {ref : TableRef} {detachFiles : Bool} {after : Catalog}
      (owned : detachFiles = true → method.isTransfer = true)
      (found : before.tableRef name = .ok ref)
      (success : before.deleteTable ref = .ok after) :
      Edit env db stats method before [.deleteTable ref detachFiles] after
  | writeDataFiles {name : QualifiedName} {ref : TableRef}
      {files : List (TransferDataFile × DucklakePath × DataFileStatistics)}
      {commitFiles : List CommitDataFile}
      (found : before.tableRef name = .ok ref)
      (built : files.mapM (commitDataFile env before ref) = .ok commitFiles) :
      Edit env db stats method before [.writeTableDataFiles ref commitFiles] before
  | writeInlineData {name : QualifiedName} {ref : TableRef} {batches : List Io.RecordBatch}
      {data : List CommitInlineData}
      (found : before.tableRef name = .ok ref)
      (supported : env.dialect.supportsDataInlining (before.tableSchema ref))
      (built : batches.mapM (commitInlineData env before ref) = .ok data) :
      Edit env db stats method before [.writeTableInlineData ref data] before
  | renameTable {name : QualifiedName} {newName : Text} {ref : TableRef} {after : Catalog}
      (distinct : name.name ≠ newName)
      (found : before.tableRef name = .ok ref)
      (success : before.renameTable ref newName = .ok after) :
      Edit env db stats method before [.renameTable ref { schema := name.schema, name := newName }] after
  | updatePartitioning {name : QualifiedName} {ref : TableRef} {partitioning : Option Partition}
      {columnRefs : Option (List ColumnRef)} {after : Catalog}
      (found : before.tableRef name = .ok ref)
      (success : before.updatePartitioning ref partitioning = .ok (columnRefs, after)) :
      Edit env db stats method before [.updateTablePartitioning ref columnRefs partitioning] after
  | updateSortInfo {name : QualifiedName} {ref : TableRef} {sortInfo : Option SortInfo}
      {after : Catalog}
      (found : before.tableRef name = .ok ref)
      (success : before.updateSortInfo ref sortInfo = .ok after) :
      Edit env db stats method before [.updateTableSortInfo ref sortInfo] after
  /-- After the rename of a column that the table is sorted by. -/
  | restateSortInfo {name : QualifiedName} {ref : ColumnRef}
      (found : before.tableRef name = .ok ref.tableRef)
      (sorted : before.sortInfoIncludesColumn ref) :
      Edit env db stats method before [.updateTableSortInfo ref.tableRef
        (some ((before.sortInfo ref.tableRef).getD []))] before
  | addTableTag {name : QualifiedName} {ref : TableRef} {key value : Text}
      (found : before.tableRef name = .ok ref) :
      Edit env db stats method before [.addTableTag ref { key := key, value := value }]
        (before.modifyTable ref fun table => { table with tags := table.tags.insert key value })
  | removeTableTag {name : QualifiedName} {ref : TableRef} {key : Text} {tags : Tags}
      (found : before.tableRef name = .ok ref)
      (success : Catalog.removeTag (before.table ref).tags key = .ok tags) :
      Edit env db stats method before [.removeTableTag ref key]
        (before.modifyTable ref fun table => { table with tags := tags })
  /-- The counter of a table's column ids is loaded. -/
  | ensureNextColumnId {name : QualifiedName} {ref : TableRef} {after : Catalog}
      (found : before.tableRef name = .ok ref)
      (success : Catalog.ensureNextColumnId db before ref = .ok after) :
      Edit env db stats method before [] after
  | addColumn {name : QualifiedName} {ref : TableRef} {path : List Text} {column : Column}
      {parent : Option ColumnRef} {columnRefs : List ColumnRef} {after : Catalog}
      (found : (before.tableRef name) = .ok ref)
      (success : before.addColumn ref path column = .ok ((parent, columnRefs), after)) :
      Edit env db stats method before [.addTableColumn parent columnRefs column] after
  | removeColumn {name : QualifiedName} {path : List Text} {ref : ColumnRef}
      {columnRefs : List ColumnRef} {after : Catalog}
      (found : columnByPath before name path = .ok ref)
      (success : before.removeColumn ref = .ok (columnRefs, after)) :
      Edit env db stats method before (columnRefs.map .removeTableColumn) after
  | renameColumn {name : QualifiedName} {path : List Text} {ref : ColumnRef} {newName : Text}
      {after : Catalog}
      (found : columnByPath before name path = .ok ref)
      (success : before.renameColumn ref newName = .ok after) :
      Edit env db stats method before
        [.updateTableColumn (after.parentRef ref) ref (after.columnInfo ref)] after
  | updateColumnDefault {name : QualifiedName} {path : List Text} {ref : ColumnRef}
      {defaultValue : ColumnDefault} {after : Catalog}
      (found : columnByPath before name path = .ok ref)
      (updated : after = before.modifyColumn ref fun column =>
        { column with defaultValue := defaultValue }) :
      Edit env db stats method before
        [.updateTableColumn (after.parentRef ref) ref (after.columnInfo ref)] after
  | updateColumnNullability {name : QualifiedName} {path : List Text} {ref : ColumnRef}
      {nullable : Bool} {after : Catalog}
      (found : columnByPath before name path = .ok ref)
      (guarded : nullable = true ∨ ∃ loaded tableId, stats = .ok loaded ∧
        (before.table ref.tableRef).id = some tableId ∧
        showsNulls loaded tableId (before.column ref).id = false)
      (updated : after = before.modifyColumn ref fun column =>
        { column with nullable := nullable }) :
      Edit env db stats method before
        [.updateTableColumn (after.parentRef ref) ref (after.columnInfo ref)] after
  | promoteColumn {name : QualifiedName} {path : List Text} {ref : ColumnRef}
      {source type : PrimitiveType} {after : Catalog}
      (found : columnByPath before name path = .ok ref)
      (promotes : source.canPromoteTo type)
      (updated : after = before.modifyColumn ref fun column =>
        { column with dtype := .primitive type }) :
      Edit env db stats method before
        [.updateTableColumn (after.parentRef ref) ref (after.columnInfo ref)] after
  | addColumnTag {name : QualifiedName} {path : List Text} {ref : ColumnRef} {key value : Text}
      (found : columnByPath before name path = .ok ref) :
      Edit env db stats method before [.addTableColumnTag ref { key := key, value := value }]
        (before.modifyColumn ref fun column =>
          { column with tags := column.tags.insert key value })
  | removeColumnTag {name : QualifiedName} {path : List Text} {ref : ColumnRef} {key : Text}
      {tags : Tags}
      (found : columnByPath before name path = .ok ref)
      (success : Catalog.removeTag (before.column ref).tags key = .ok tags) :
      Edit env db stats method before [.removeTableColumnTag ref key]
        (before.modifyColumn ref fun column => { column with tags := tags })
  | createView {info : ViewInfo} {schemaRef : SchemaRef} {viewRef : ViewRef} {after : Catalog}
      (success : before.addView info = .ok ((schemaRef, viewRef), after)) :
      Edit env db stats method before [.createView schemaRef viewRef info.name info.sql info.dialect
        info.columnAliases info.tags] after
  | deleteView {name : QualifiedName} {ref : ViewRef} {after : Catalog}
      (found : before.viewRef name = .ok ref)
      (success : before.deleteView ref = .ok after) :
      Edit env db stats method before [.deleteView ref] after
  | createMacro {info : MacroInfo} {schemaRef : SchemaRef} {macroRef : MacroRef}
      {after : Catalog}
      (success : before.addMacro info = .ok ((schemaRef, macroRef), after)) :
      Edit env db stats method before [.createMacro schemaRef macroRef info.name info.macroType
        info.implementations] after
  | deleteMacro {name : QualifiedName} {macroType : MacroType} {ref : MacroRef}
      {after : Catalog}
      (found : before.macroRef name macroType = .ok ref)
      (success : before.deleteMacro ref = .ok after) :
      Edit env db stats method before [.deleteMacro ref macroType] after

namespace Transaction

section

variable (env : Environment) (db : Database) (stats : DucklakeResult TableStatsMap)
variable (method : Operation)

def Edits (tx next : Transaction) : Prop :=
  ∃ changes, Edit env db stats method tx.catalog changes next.catalog ∧
    next = { tx with catalog := next.catalog, changes := tx.changes ++ changes }

def Edited : Transaction → Transaction → Prop :=
  Relation.ReflTransGen (Edits env db stats method)

variable {env db stats method} {tx : Transaction}

theorem Edited.of_edit
    {changes : List Change}
    {catalog : Catalog}
    (edit : Edit env db stats method tx.catalog changes catalog) :
    Edited env db stats method tx { tx with catalog := catalog, changes := tx.changes ++ changes } :=
  .single ⟨changes, edit, rfl⟩

theorem Edited.of_counted
    {name : QualifiedName}
    {ref : TableRef}
    {catalog : Catalog}
    (found : tx.catalog.tableRef name = .ok ref)
    (ensured : Catalog.ensureNextColumnId db tx.catalog ref = .ok catalog) :
    Edited env db stats method tx { tx with catalog := catalog } := by
  have edit : Edit env db stats method tx.catalog [] catalog := .ensureNextColumnId found ensured
  have edited := Edited.of_edit edit
  rwa [List.append_nil] at edited

theorem Edited.foldlM
    {α : Type}
    {f : Transaction → α → DucklakeResult Transaction}
    {items : List α}
    {next : Transaction}
    (step : ∀ state item result, f state item = .ok result → Edited env db stats method state result)
    (success : items.foldlM f tx = .ok next) :
    Edited env db stats method tx next :=
  foldlM_invariant (Edited env db stats method tx) .refl
    (fun state item result _ before stepped => before.trans (step state item result stepped))
    success

/-! ## Views, macros, tables and schemas -/

section

variable (next : Transaction)

theorem createView_edited
    (name : QualifiedName)
    (sql : Text)
    (columnAliases : Option (List Text))
    (tags : Option Tags)
    (ifExists : IfExistsStrategy)
    (success : tx.createView env name sql columnAliases tags ifExists = .ok next) :
    Edited env db stats method tx next := by
  unfold createView at success
  split at success
  · cases success
    exact .refl
  · obtain ⟨sql, _, success⟩ := bind_eq_ok.mp success
    obtain ⟨⟨⟨schemaRef, viewRef⟩, catalog⟩, added, success⟩ := bind_eq_ok.mp success
    cases success
    exact .of_edit (.createView added)

theorem deleteView_edited
    (name : QualifiedName)
    (ifNotExists : IfExistsStrategy)
    (success : tx.deleteView name ifNotExists = .ok next) :
    Edited env db stats method tx next := by
  unfold deleteView at success
  split at success
  · cases success
    exact .refl
  · obtain ⟨ref, found, success⟩ := bind_eq_ok.mp success
    obtain ⟨catalog, deleted, success⟩ := bind_eq_ok.mp success
    cases success
    exact .of_edit (.deleteView found deleted)

theorem createMacro_edited
    (name : QualifiedName)
    (macroType : MacroType)
    (implementations : List MacroImplementation)
    (ifExists : IfExistsStrategy)
    (success : tx.createMacro env name macroType implementations ifExists = .ok next) :
    Edited env db stats method tx next := by
  unfold createMacro at success
  split at success
  · cases success
    exact .refl
  · obtain ⟨implementations, _, success⟩ := bind_eq_ok.mp success
    obtain ⟨⟨⟨schemaRef, macroRef⟩, catalog⟩, added, success⟩ := bind_eq_ok.mp success
    cases success
    exact .of_edit (.createMacro added)

theorem deleteMacro_edited
    (name : QualifiedName)
    (macroType : MacroType)
    (ifNotExists : IfExistsStrategy)
    (success : tx.deleteMacro name macroType ifNotExists = .ok next) :
    Edited env db stats method tx next := by
  unfold deleteMacro at success
  split at success
  · cases success
    exact .refl
  · obtain ⟨ref, found, success⟩ := bind_eq_ok.mp success
    obtain ⟨catalog, deleted, success⟩ := bind_eq_ok.mp success
    cases success
    exact .of_edit (.deleteMacro found deleted)

theorem createTableInner_edited
    (name : QualifiedName)
    (columns : List Column)
    (partitionColumns : Option Partition)
    (sortInfo : Option SortInfo)
    (path : Option Text)
    (tags : Option Tags)
    (ifExists : IfExistsStrategy)
    (retiredColumns : Option (List DucklakeColumn))
    (preserved : retiredColumns.isSome = true → method.transfers columns)
    (success : tx.createTableInner env name columns partitionColumns sortInfo path tags ifExists
      retiredColumns = .ok next) :
    Edited env db stats method tx next := by
  unfold createTableInner at success
  split at success
  · cases success
    exact .refl
  · obtain ⟨path, _, success⟩ := bind_eq_ok.mp success
    obtain ⟨schema, typed, success⟩ := bind_eq_ok.mp success
    obtain ⟨⟨added, catalog⟩, created, success⟩ := bind_eq_ok.mp success
    cases success
    exact .of_edit (.createTable preserved typed created)

theorem deleteTableInner_edited
    (name : QualifiedName)
    (detachFiles : Bool)
    (owned : detachFiles = true → method.isTransfer = true)
    (success : tx.deleteTableInner name detachFiles = .ok next) :
    Edited env db stats method tx next := by
  obtain ⟨ref, found, success⟩ := bind_eq_ok.mp success
  obtain ⟨catalog, deleted, success⟩ := bind_eq_ok.mp success
  cases success
  exact .of_edit (.deleteTable owned found deleted)

theorem deleteTable_edited
    (name : QualifiedName)
    (ifNotExists : IfExistsStrategy)
    (success : tx.deleteTable name ifNotExists = .ok next) :
    Edited env db stats method tx next := by
  unfold deleteTable at success
  split at success
  · cases success
    exact .refl
  · exact deleteTableInner_edited next name false (by simp) success

theorem createSchema_edited
    (name : Text)
    (path : Option Text)
    (ifExists : IfExistsStrategy)
    (success : tx.createSchema env name path ifExists = .ok next) :
    Edited env db stats method tx next := by
  unfold createSchema at success
  split at success
  · cases success
    exact .refl
  · obtain ⟨path, _, success⟩ := bind_eq_ok.mp success
    obtain ⟨⟨ref, catalog⟩, added, success⟩ := bind_eq_ok.mp success
    cases success
    exact .of_edit (.createSchema added)

theorem deleteSchemaContents_edited
    (name : Text)
    (success : tx.deleteSchemaContents name = .ok next) :
    Edited env db stats method tx next := by
  obtain ⟨ref, _, success⟩ := bind_eq_ok.mp success
  obtain ⟨first, tables, success⟩ := bind_eq_ok.mp success
  obtain ⟨second, views, macros⟩ := bind_eq_ok.mp success
  have tablesEdited : Edited env db stats method tx first :=
    .foldlM (fun _ name result => deleteTable_edited result name .fail) tables
  have viewsEdited : Edited env db stats method first second :=
    .foldlM (fun _ name result => deleteView_edited result name .fail) views
  have macrosEdited : Edited env db stats method second next :=
    .foldlM (fun _ entry result => deleteMacro_edited result entry.1 entry.2 .fail)
      macros
  exact (tablesEdited.trans viewsEdited).trans macrosEdited

theorem deleteSchema_edited
    (name : Text)
    (cascade : Bool)
    (ifNotExists : IfExistsStrategy)
    (success : tx.deleteSchema name cascade ifNotExists = .ok next) :
    Edited env db stats method tx next := by
  unfold deleteSchema at success
  split at success
  · cases success
    exact .refl
  · obtain ⟨middle, emptied, success⟩ := bind_eq_ok.mp success
    obtain ⟨ref, found, success⟩ := bind_eq_ok.mp success
    obtain ⟨catalog, deleted, success⟩ := bind_eq_ok.mp success
    cases success
    have contents : Edited env db stats method tx middle := by
      unfold emptySchema at emptied
      split at emptied
      · exact deleteSchemaContents_edited middle name emptied
      · cases emptied
        exact .refl
    exact contents.trans (Edited.of_edit (.deleteSchema found deleted))

/-! ## Data and metadata of tables -/

theorem writeTableTransferDataFiles_edited
    (name : QualifiedName)
    (dataFiles : List TransferDataFile)
    (success : tx.writeTableTransferDataFiles env name dataFiles = .ok next) :
    Edited env db stats method tx next := by
  obtain ⟨ref, found, success⟩ := bind_eq_ok.mp success
  obtain ⟨basePaths, _, success⟩ := bind_eq_ok.mp success
  split at success
  · cases success
  · obtain ⟨paths, _, success⟩ := bind_eq_ok.mp success
    obtain ⟨statistics, _, success⟩ := bind_eq_ok.mp success
    obtain ⟨files, built, success⟩ := bind_eq_ok.mp success
    cases success
    exact .of_edit (.writeDataFiles found built)

theorem writeTableInlineData_edited
    (name : QualifiedName)
    (data : List Io.RecordBatch)
    (success : tx.writeTableInlineData env name data = .ok next) :
    Edited env db stats method tx next := by
  obtain ⟨ref, found, success⟩ := bind_eq_ok.mp success
  split at success
  · rename_i supported
    obtain ⟨data, built, success⟩ := bind_eq_ok.mp success
    cases success
    exact .of_edit (.writeInlineData found supported built)
  · cases success

theorem renameTable_edited
    (oldName : QualifiedName)
    (newName : Text)
    (success : tx.renameTable oldName newName = .ok next) :
    Edited env db stats method tx next := by
  unfold renameTable at success
  split at success
  · cases success
    exact .refl
  · rename_i distinct
    obtain ⟨ref, found, success⟩ := bind_eq_ok.mp success
    obtain ⟨catalog, renamed, success⟩ := bind_eq_ok.mp success
    cases success
    exact .of_edit (.renameTable distinct found renamed)

theorem updateTablePartitioning_edited
    (name : QualifiedName)
    (partitionColumns : Option Partition)
    (success : tx.updateTablePartitioning name partitionColumns = .ok next) :
    Edited env db stats method tx next := by
  obtain ⟨ref, found, success⟩ := bind_eq_ok.mp success
  obtain ⟨⟨columnRefs, catalog⟩, updated, success⟩ := bind_eq_ok.mp success
  cases success
  exact .of_edit (.updatePartitioning found updated)

theorem updateTableSortInfo_edited
    (name : QualifiedName)
    (expressions : Option SortInfo)
    (success : tx.updateTableSortInfo name expressions = .ok next) :
    Edited env db stats method tx next := by
  obtain ⟨ref, found, success⟩ := bind_eq_ok.mp success
  obtain ⟨catalog, updated, success⟩ := bind_eq_ok.mp success
  cases success
  exact .of_edit (.updateSortInfo found updated)

theorem addTableTag_edited
    (name : QualifiedName)
    (key value : Text)
    (success : tx.addTableTag name key value = .ok next) :
    Edited env db stats method tx next := by
  obtain ⟨ref, found, success⟩ := bind_eq_ok.mp success
  cases success
  exact .of_edit (.addTableTag found)

theorem removeTableTag_edited
    (name : QualifiedName)
    (key : Text)
    (success : tx.removeTableTag name key = .ok next) :
    Edited env db stats method tx next := by
  obtain ⟨ref, found, success⟩ := bind_eq_ok.mp success
  obtain ⟨tags, removed, success⟩ := bind_eq_ok.mp success
  cases success
  exact .of_edit (.removeTableTag found removed)

/-! ## Columns -/

theorem ensureNextColumnId_tableRef
    (db : Database)
    (catalog next : Catalog)
    (ref : TableRef)
    (name : QualifiedName)
    (success : Catalog.ensureNextColumnId db catalog ref = .ok next) :
    next.tableRef name = catalog.tableRef name := by
  unfold Catalog.ensureNextColumnId at success
  dsimp only at success
  split at success
  · cases success
    rfl
  · cases success
  · obtain ⟨_, _, success⟩ := bind_eq_ok.mp success
    cases success
    rfl

theorem addTableColumn_edited
    (name : QualifiedName)
    (column : Column)
    (parentPath : List Text)
    (success : tx.addTableColumn db name column parentPath = .ok next) :
    Edited env db stats method tx next := by
  obtain ⟨ref, found, success⟩ := bind_eq_ok.mp success
  obtain ⟨catalog, ensured, success⟩ := bind_eq_ok.mp success
  obtain ⟨⟨⟨parent, columnRefs⟩, result⟩, added, success⟩ := bind_eq_ok.mp success
  cases success
  have counted : Edited env db stats method tx { tx with catalog := catalog } :=
    .of_counted found ensured
  have foundAfter : catalog.tableRef name = .ok ref :=
    (ensureNextColumnId_tableRef db tx.catalog catalog ref name ensured).trans found
  exact counted.trans (Edited.of_edit (.addColumn foundAfter added))

theorem removeTableColumn_edited
    (name : QualifiedName)
    (column : List Text)
    (success : tx.removeTableColumn name column = .ok next) :
    Edited env db stats method tx next := by
  obtain ⟨ref, found, success⟩ := bind_eq_ok.mp success
  obtain ⟨⟨columnRefs, catalog⟩, removed, success⟩ := bind_eq_ok.mp success
  cases success
  exact .of_edit (.removeColumn found removed)

theorem tableRef_of_columnByPath
    (catalog : Catalog)
    (name : QualifiedName)
    (path : List Text)
    (ref : ColumnRef)
    (found : columnByPath catalog name path = .ok ref) :
    catalog.tableRef name = .ok ref.tableRef := by
  obtain ⟨tableRef, foundTable, found⟩ := bind_eq_ok.mp found
  obtain ⟨idx, _, found⟩ := bind_eq_ok.mp found
  cases found
  exact foundTable

theorem renameColumn_tableRef
    (catalog next : Catalog)
    (ref : ColumnRef)
    (newName : Text)
    (name : QualifiedName)
    (success : catalog.renameColumn ref newName = .ok next) :
    next.tableRef name = catalog.tableRef name := by
  obtain ⟨columns, _, success⟩ := bind_eq_ok.mp success
  cases success
  rfl

theorem renameTableColumn_edited
    (name : QualifiedName)
    (column : List Text)
    (newName : Text)
    (success : tx.renameTableColumn name column newName = .ok next) :
    Edited env db stats method tx next := by
  unfold renameTableColumn at success
  split at success
  · cases success
  · split at success
    · cases success
      exact .refl
    · obtain ⟨ref, found, success⟩ := bind_eq_ok.mp success
      obtain ⟨catalog, renamed, success⟩ := bind_eq_ok.mp success
      dsimp only at success
      have edited : Edited env db stats method tx (tx.recordColumn catalog ref) :=
        .of_edit (.renameColumn found renamed)
      split at success
      · rename_i sorted
        cases success
        have foundAfter : catalog.tableRef name = .ok ref.tableRef :=
          (renameColumn_tableRef tx.catalog catalog ref newName name renamed).trans
            (tableRef_of_columnByPath tx.catalog name column ref found)
        exact edited.trans (Edited.of_edit (.restateSortInfo foundAfter sorted))
      · cases success
        exact edited

theorem updateTableColumnDefault_edited
    (name : QualifiedName)
    (column : List Text)
    (defaultValue : ColumnDefault)
    (success : tx.updateTableColumnDefault name column defaultValue = .ok next) :
    Edited env db stats method tx next := by
  obtain ⟨ref, found, success⟩ := bind_eq_ok.mp success
  cases success
  exact .of_edit (.updateColumnDefault found rfl)

theorem updateTableColumnNullability_edited
    (name : QualifiedName)
    (column : List Text)
    (nullable : Bool)
    (success : tx.updateTableColumnNullability stats name column nullable = .ok next) :
    Edited env db stats method tx next := by
  obtain ⟨ref, found, success⟩ := bind_eq_ok.mp success
  dsimp only at success
  split at success
  · cases success
    exact .refl
  · split at success
    · rename_i allowed
      cases success
      exact .of_edit (.updateColumnNullability found (Or.inl allowed) rfl)
    · obtain ⟨loaded, read, success⟩ := bind_eq_ok.mp success
      split at success
      · cases success
      · rename_i tableId known
        split at success
        · cases success
        · rename_i clear
          cases success
          exact .of_edit (.updateColumnNullability found
            (Or.inr ⟨loaded, tableId, read, known, by simpa using clear⟩) rfl)

theorem updateDtypeRecursive_edited
    (name : QualifiedName)
    (fuel : Nat)
    (path : List Text)
    (existing target : DataType)
    (success : updateDtypeRecursive db name fuel path existing target tx = .ok next) :
    Edited env db stats method tx next := by
  induction fuel generalizing path existing target tx next with
  | zero => cases success
  | succ fuel ih =>
      unfold updateDtypeRecursive at success
      split at success
      · cases success
        exact .refl
      · split at success
        · split at success
          · rename_i promotes
            obtain ⟨ref, found, success⟩ := bind_eq_ok.mp success
            cases success
            exact .of_edit (.promoteColumn found promotes rfl)
          · cases success
        · refine .foldlM (fun state item result stepped => ?_) success
          cases item with
          | both old new => exact ih _ _ _ _ stepped
          | left old => exact removeTableColumn_edited _ _ _ stepped
          | right new => exact addTableColumn_edited _ _ _ _ stepped
        · exact ih _ _ _ _ success
        · obtain ⟨middle, keys, values⟩ := bind_eq_ok.mp success
          exact (ih _ _ _ _ keys).trans (ih _ _ _ _ values)
        · cases success

theorem updateTableColumnDtype_edited
    (name : QualifiedName)
    (column : List Text)
    (dtype : DataType)
    (success : tx.updateTableColumnDtype db name column dtype = .ok next) :
    Edited env db stats method tx next := by
  obtain ⟨ref, _, success⟩ := bind_eq_ok.mp success
  exact updateDtypeRecursive_edited next name _ _ _ _ success

theorem updateTableSchema_edited
    (name : QualifiedName)
    (newColumns : List Column)
    (success : tx.updateTableSchema db stats name newColumns = .ok next) :
    Edited env db stats method tx next := by
  obtain ⟨ref, _, success⟩ := bind_eq_ok.mp success
  obtain ⟨schema, _, success⟩ := bind_eq_ok.mp success
  refine .foldlM (fun state item result stepped => ?_) success
  cases item with
  | both old column =>
      obtain ⟨typed, retyped, stepped⟩ := bind_eq_ok.mp stepped
      obtain ⟨defaulted, valued, stepped⟩ := bind_eq_ok.mp stepped
      exact ((updateTableColumnDtype_edited _ _ _ _ retyped).trans
        (updateTableColumnDefault_edited _ _ _ _ valued)).trans
          (updateTableColumnNullability_edited _ _ _ _ stepped)
  | left column => exact removeTableColumn_edited _ _ _ stepped
  | right column => exact addTableColumn_edited _ _ _ _ stepped

theorem addTableColumnTag_edited
    (name : QualifiedName)
    (column : List Text)
    (key value : Text)
    (success : tx.addTableColumnTag name column key value = .ok next) :
    Edited env db stats method tx next := by
  obtain ⟨ref, found, success⟩ := bind_eq_ok.mp success
  cases success
  exact .of_edit (.addColumnTag found)

theorem removeTableColumnTag_edited
    (name : QualifiedName)
    (column : List Text)
    (key : Text)
    (success : tx.removeTableColumnTag name column key = .ok next) :
    Edited env db stats method tx next := by
  obtain ⟨ref, found, success⟩ := bind_eq_ok.mp success
  obtain ⟨tags, removed, success⟩ := bind_eq_ok.mp success
  cases success
  exact .of_edit (.removeColumnTag found removed)

/-! ## Operations -/

theorem execute_edited
    (operation : Operation)
    (success : operation.execute env db stats tx = .ok next) :
    Edited env db stats operation tx next := by
  cases operation with
  | createSchema name path ifExists => exact createSchema_edited next name path ifExists success
  | deleteSchema name cascade ifNotExists =>
      exact deleteSchema_edited next name cascade ifNotExists success
  | createTable name columns partitionColumns sortInfo path tags ifExists =>
      exact createTableInner_edited next name columns partitionColumns sortInfo path tags ifExists
        none (by simp) success
  | createTransferTable name info retiredColumns =>
      exact createTableInner_edited next name _ _ _ none _ .fail (some retiredColumns)
        (fun _ => rfl) success
  | deleteTable name ifNotExists => exact deleteTable_edited next name ifNotExists success
  | deleteTableTransferringFileOwnership name =>
      exact deleteTableInner_edited next name true (fun _ => rfl) success
  | writeTableDataFiles name dataFiles =>
      exact writeTableTransferDataFiles_edited next name _ success
  | writeTableTransferDataFiles name dataFiles =>
      exact writeTableTransferDataFiles_edited next name dataFiles success
  | writeTableInlineData name data => exact writeTableInlineData_edited next name data success
  | renameTable oldName newName => exact renameTable_edited next oldName newName success
  | updateTableSchema name columns => exact updateTableSchema_edited next name columns success
  | addTableColumn name column parentPath =>
      exact addTableColumn_edited next name column parentPath success
  | removeTableColumn name column => exact removeTableColumn_edited next name column success
  | renameTableColumn name column newName =>
      exact renameTableColumn_edited next name column newName success
  | updateTableColumnDtype name column dtype =>
      exact updateTableColumnDtype_edited next name column dtype success
  | updateTableColumnDefault name column defaultValue =>
      exact updateTableColumnDefault_edited next name column defaultValue success
  | updateTableColumnNullability name column nullable =>
      exact updateTableColumnNullability_edited next name column nullable success
  | updateTablePartitioning name partitionColumns =>
      exact updateTablePartitioning_edited next name partitionColumns success
  | updateTableSortInfo name expressions =>
      exact updateTableSortInfo_edited next name expressions success
  | addTableTag name key value => exact addTableTag_edited next name key value success
  | removeTableTag name key => exact removeTableTag_edited next name key success
  | addTableColumnTag name column key value =>
      exact addTableColumnTag_edited next name column key value success
  | removeTableColumnTag name column key =>
      exact removeTableColumnTag_edited next name column key success
  | createView name sql columnAliases tags ifExists =>
      exact createView_edited next name sql columnAliases tags ifExists success
  | deleteView name ifNotExists => exact deleteView_edited next name ifNotExists success
  | createMacro name macroType implementations ifExists =>
      exact createMacro_edited next name macroType implementations ifExists success
  | deleteMacro name macroType ifNotExists =>
      exact deleteMacro_edited next name macroType ifNotExists success

theorem afterError_edited
    (operation : Operation) :
    Edited env db stats method tx (operation.afterError db tx) := by
  cases operation with
  | addTableColumn name column parentPath =>
      unfold Operation.afterError
      dsimp only
      split
      · rename_i catalog success
        obtain ⟨ref, found, ensured⟩ := bind_eq_ok.mp success
        exact .of_counted found ensured
      · exact .refl
  | _ => exact .refl

theorem operated_edited
    (operation : Operation)
    (result : operation.execute env db stats tx = .ok next ∨
      (∃ err, operation.execute env db stats tx = .error err) ∧
        next = operation.afterError db tx) :
    Edited env db stats operation tx next := by
  rcases result with success | ⟨_, rfl⟩
  · exact execute_edited next operation success
  · exact afterError_edited operation

end
end

end Transaction

end Ducklake
