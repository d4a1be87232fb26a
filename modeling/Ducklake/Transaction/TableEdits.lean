import Ducklake.Transaction.Collects

/-!
# What edits do to tables

An edit leaves all tables alone, appends a new one, or updates a single one of them.
-/

set_option autoImplicit false

namespace Ducklake

open Lib Caches Spec Transaction

/-- Whether a change concerns neither the columns of a table nor its partitioning. -/
def Transaction.Change.keepsColumns : Change → Bool
  | createTable .. | updateTablePartitioning .. | addTableColumn .. | updateTableColumn ..
  | removeTableColumn _ | addTableColumnTag .. | removeTableColumnTag .. => false
  | _ => true

inductive TableUpdate (db : Database) (ref : TableRef) (table : CatalogTable) :
    List Change → CatalogTable → Prop where
  | described {change : Change} {updated : CatalogTable}
      (plain : change.keepsColumns = true)
      (id : updated.id = table.id)
      (columns : updated.columns = table.columns)
      (partition : updated.partition = table.partition) :
      TableUpdate db ref table [change] updated
  | partitioned {partitioning : Option Partition} {partition : Option CatalogTablePartition}
      (built : Catalog.traverseOption (CatalogTablePartition.fromPartition · table.columns)
        partitioning = .ok partition) :
      TableUpdate db ref table
        [.updateTablePartitioning ref (partition.map fun partition =>
          partition.columns.map fun column => ⟨ref, column.column⟩) partitioning]
        { table with partition := partition }
  | counted {tableId next : Int}
      (id : table.id = some tableId)
      (unset : table.columns.nextColumnId = none)
      (loaded : Catalog.loadNextColumnId db tableId = .ok next) :
      TableUpdate db ref table []
        { table with columns := { table.columns with nextColumnId := some next } }
  | addedColumn {parent : Option ArenaIdx} {column : Column} {idxs : List ArenaIdx}
      {columns : CatalogColumns}
      (success : table.columns.addColumn parent column = .ok (idxs, columns)) :
      TableUpdate db ref table
        [.addTableColumn (parent.map (ColumnRef.mk ref)) (idxs.map (ColumnRef.mk ref)) column]
        { table with columns := columns }
  | removedColumn {idx : ArenaIdx} {path : List Text}
      (reached : table.columns.arenaIdxByPath path = .ok idx) :
      TableUpdate db ref table
        ((table.columns.removeColumn idx).1.map fun removed =>
          .removeTableColumn ⟨ref, removed⟩)
        { table with columns := (table.columns.removeColumn idx).2 }
  | renamedColumn {idx : ArenaIdx} {path : List Text} {newName : Text} {columns : CatalogColumns}
      {parent : Option ColumnRef} {column : Column}
      (reached : table.columns.arenaIdxByPath path = .ok idx)
      (success : table.columns.renameColumn idx newName = .ok columns) :
      TableUpdate db ref table [.updateTableColumn parent ⟨ref, idx⟩ column]
        { table with columns := columns }
  | modifiedColumn {idx : ArenaIdx} {path : List Text} {update : CatalogColumn → CatalogColumn}
      {parent : Option ColumnRef} {column : Column}
      (reached : table.columns.arenaIdxByPath path = .ok idx)
      (id : ∀ column, (update column).id = column.id)
      (dtype : ∀ column, (update column).dtype = column.dtype ∨
        ∃ type, (update column).dtype = .primitive type)
      (placed : ∀ column, (update column).name = column.name ∧
        (update column).parentColumn = column.parentColumn) :
      TableUpdate db ref table [.updateTableColumn parent ⟨ref, idx⟩ column]
        { table with columns := table.columns.modifyColumn idx update }
  | taggedColumn {change : Change} {idx : ArenaIdx} {path : List Text} {edit : TagChange}
      {update : CatalogColumn → CatalogColumn}
      (edits : change.columnTagEdit = some (⟨ref, idx⟩, edit))
      (reached : table.columns.arenaIdxByPath path = .ok idx)
      (id : ∀ column, (update column).id = column.id)
      (dtype : ∀ column, (update column).dtype = column.dtype)
      (placed : ∀ column, (update column).name = column.name ∧
        (update column).parentColumn = column.parentColumn) :
      TableUpdate db ref table [change]
        { table with columns := table.columns.modifyColumn idx update }

inductive TablesEdited (db : Database) (before after : Catalog) (changes : List Change) :
    Prop where
  | same
      (arena : after.tableArena = before.tableArena)
      (plain : ∀ change ∈ changes, change.keepsColumns = true)
  | created {info : TableInfo} {columns : List Column} {path : DucklakePath}
      {retired : Option (List DucklakeColumn)} {schemaRef : SchemaRef}
      {tableColumns : CatalogColumns} {partition : Option CatalogTablePartition}
      {sortInfo : Option CatalogTableSortInfo}
      (typed : Schema.ofColumns columns = .ok info.schema)
      (built : CatalogColumns.fromSchema info.schema
        (retired.map (transferNextColumnId columns)) = .ok tableColumns)
      (specified : Catalog.traverseOption (CatalogTablePartition.fromPartition · tableColumns)
        info.partitioning = .ok partition)
      (arena : after.tableArena = before.tableArena.push {
        id := none
        name := info.name
        columns := tableColumns
        partition := partition
        sortInfo := sortInfo
        tags := info.tags
        path := path } none)
      (recorded : changes = [.createTable schemaRef ⟨before.tableArena.arena.length⟩
        (tableColumns.rootColumnIndices.map
          (·.map (ColumnRef.mk ⟨before.tableArena.arena.length⟩)))
        (partition.map fun partition => partition.columns.map fun column =>
          ⟨⟨before.tableArena.arena.length⟩, column.column⟩)
        info.name columns (retired.getD []) info.partitioning info.sortInfo path info.tags])
  | updated {ref : TableRef} {update : CatalogTable → CatalogTable}
      (present : before.Has (.table ref))
      (arena : after.tableArena = before.tableArena.modify ref.idx update)
      (updates : TableUpdate db ref (before.table ref) changes (update (before.table ref)))

section

variable {env : Environment} {db : Database} {stats : DucklakeResult TableStatsMap}
variable {method : Operation} {before after : Catalog} {changes : List Change}

theorem TablesEdited.of_modifyTable
    (ref : TableRef)
    (update : CatalogTable → CatalogTable)
    (present : before.Has (.table ref))
    (updates : TableUpdate db ref (before.table ref) changes (update (before.table ref))) :
    TablesEdited db before (before.modifyTable ref update) changes :=
  .updated present rfl updates

theorem Edit.tables
    (sound : before.WellFormed)
    (edit : Edit env db stats method before changes after) :
    TablesEdited db before after changes := by
  have column : ∀ {name : QualifiedName} {path : List Text} {ref : ColumnRef},
      columnByPath before name path = .ok ref → before.Has (.table ref.tableRef) := fun found =>
    sound.tableRef _ _ (tableRef_of_columnByPath _ _ _ _ found)
  have reached : ∀ {name : QualifiedName} {path : List Text} {ref : ColumnRef},
      columnByPath before name path = .ok ref →
        (before.table ref.tableRef).columns.arenaIdxByPath path = .ok ref.columnIdx := by
    intro name path ref found
    obtain ⟨table, _, found⟩ := bind_eq_ok.mp found
    obtain ⟨idx, located, found⟩ := bind_eq_ok.mp found
    cases found
    exact located
  cases edit with
  | createSchema success =>
      unfold Catalog.addSchema at success
      split at success
      · cases success
      · cases success
        exact .same rfl (by simp [Change.keepsColumns])
  | deleteSchema found success =>
      unfold Catalog.deleteSchema at success
      dsimp only at success
      split at success
      · cases success
      · cases success
        exact .same rfl (by simp [Change.keepsColumns])
  | createTable preserved typed success =>
      unfold Catalog.addTable at success
      split at success
      · cases success
      · split at success
        · cases success
        · obtain ⟨columns, built, success⟩ := bind_eq_ok.mp success
          obtain ⟨partition, specified, success⟩ := bind_eq_ok.mp success
          obtain ⟨sortInfo, _, success⟩ := bind_eq_ok.mp success
          obtain ⟨schema, _, success⟩ := bind_eq_ok.mp success
          cases success
          exact .created typed built specified rfl rfl
  | deleteTable owned found success =>
      obtain ⟨_, _, success⟩ := bind_eq_ok.mp success
      cases success
      exact .same rfl (by simp [Change.keepsColumns])
  | writeDataFiles | writeInlineData | restateSortInfo =>
      exact .same rfl (by simp [Change.keepsColumns])
  | renameTable distinct found success =>
      have present := sound.tableRef _ _ found
      obtain ⟨schema, _, success⟩ := bind_eq_ok.mp success
      dsimp only at success
      split at success
      · cases success
      · split at success
        · cases success
        · split at success
          · cases success
          · cases success
            exact .updated present rfl (.described rfl rfl rfl rfl)
  | updatePartitioning found success =>
      obtain ⟨partition, built, success⟩ := bind_eq_ok.mp success
      cases success
      exact .of_modifyTable _ _ (sound.tableRef _ _ found) (.partitioned built)
  | updateSortInfo found success =>
      obtain ⟨_, _, success⟩ := bind_eq_ok.mp success
      cases success
      exact .of_modifyTable _ _ (sound.tableRef _ _ found) (.described rfl rfl rfl rfl)
  | addTableTag found | removeTableTag found =>
      exact .of_modifyTable _ _ (sound.tableRef _ _ found) (.described rfl rfl rfl rfl)
  | ensureNextColumnId found success =>
      unfold Catalog.ensureNextColumnId at success
      dsimp only at success
      split at success
      · cases success
        exact .same rfl (by simp)
      · cases success
      · rename_i tableId unset id
        obtain ⟨next, loaded, success⟩ := bind_eq_ok.mp success
        cases success
        exact .of_modifyTable _ _ (sound.tableRef _ _ found) (.counted id unset loaded)
  | @addColumn _ ref path _ _ _ _ found success =>
      have above : ∀ parent, before.parentAt ref path = .ok parent →
          parent = (parent.map ColumnRef.columnIdx).map (ColumnRef.mk ref) := by
        intro parent located
        unfold Catalog.parentAt at located
        split at located
        · cases located
          rfl
        · obtain ⟨other, reached, rfl⟩ := map_eq_ok.mp located
          unfold Catalog.columnRef at reached
          obtain ⟨idx, _, reached⟩ := bind_eq_ok.mp reached
          cases reached
          rfl
      obtain ⟨parent, located, success⟩ := bind_eq_ok.mp success
      obtain ⟨⟨idxs, columns⟩, added, success⟩ := bind_eq_ok.mp success
      cases success
      have updates : TableUpdate db ref (before.table ref) _ _ := .addedColumn added
      rw [← above _ located] at updates
      exact .of_modifyTable _ _ (sound.tableRef _ _ found) updates
  | removeColumn found success =>
      unfold Catalog.removeColumn at success
      dsimp only at success
      split at success
      · cases success
      · split at success
        · cases success
        · cases success
          rw [List.map_map]
          exact .of_modifyTable _ _ (column found) (.removedColumn (reached found))
  | renameColumn found success =>
      obtain ⟨columns, renamed, success⟩ := bind_eq_ok.mp success
      cases success
      exact .of_modifyTable _ _ (column found) (.renamedColumn (reached found) renamed)
  | updateColumnDefault found updated | updateColumnNullability found guarded updated =>
      subst updated
      exact .of_modifyTable _ _ (column found)
        (.modifiedColumn (reached found) (fun _ => rfl) (fun _ => Or.inl rfl) fun _ => ⟨rfl, rfl⟩)
  | promoteColumn found promotes updated =>
      subst updated
      exact .of_modifyTable _ _ (column found)
        (.modifiedColumn (reached found) (fun _ => rfl) (fun _ => Or.inr ⟨_, rfl⟩) fun _ => ⟨rfl, rfl⟩)
  | addColumnTag found | removeColumnTag found =>
      exact .of_modifyTable _ _ (column found)
        (.taggedColumn rfl (reached found) (fun _ => rfl) (fun _ => rfl) fun _ => ⟨rfl, rfl⟩)
  | createView success =>
      unfold Catalog.addView at success
      split at success
      · cases success
      · split at success
        · cases success
        · obtain ⟨schema, _, success⟩ := bind_eq_ok.mp success
          cases success
          exact .same rfl (by simp [Change.keepsColumns])
  | deleteView found success =>
      obtain ⟨_, _, success⟩ := bind_eq_ok.mp success
      cases success
      exact .same rfl (by simp [Change.keepsColumns])
  | createMacro success =>
      unfold Catalog.addMacro at success
      split at success
      · cases success
      · obtain ⟨schema, _, success⟩ := bind_eq_ok.mp success
        cases success
        exact .same rfl (by simp [Change.keepsColumns])
  | deleteMacro found success =>
      obtain ⟨_, _, success⟩ := bind_eq_ok.mp success
      cases success
      exact .same rfl (by simp [Change.keepsColumns])

end

end Ducklake
