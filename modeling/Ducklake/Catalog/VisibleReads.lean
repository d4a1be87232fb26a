import Ducklake.Catalog.Reads

/-!
# What loading reads of the tables that are seen

Of columns, column tags and specifications, loading a catalog reads only what belongs to a table
that the snapshot sees, and of macros what belongs to a macro that it sees.
-/

set_option autoImplicit false

namespace Ducklake.Catalog

open Lib Spec

/-- The snapshot sees the same objects, and the same parts of every table and macro among them. -/
structure ReadsVisible (before after : Database) (snapshot : Int) : Prop where
  schemas : Versioned.entitiesAt snapshot after.schemas =
    Versioned.entitiesAt snapshot before.schemas
  tables : Versioned.entitiesAt snapshot after.tables = Versioned.entitiesAt snapshot before.tables
  views : Versioned.entitiesAt snapshot after.views = Versioned.entitiesAt snapshot before.views
  macros : Versioned.entitiesAt snapshot after.macros = Versioned.entitiesAt snapshot before.macros
  tags : Versioned.entitiesAt snapshot after.tags = Versioned.entitiesAt snapshot before.tags
  columns : ∀ table ∈ Versioned.entitiesAt snapshot before.tables,
    (Versioned.entitiesAt snapshot after.columns).filter (fun row => row.tableId = table.tableId) =
      (Versioned.entitiesAt snapshot before.columns).filter fun row => row.tableId = table.tableId
  columnTags : ∀ table ∈ Versioned.entitiesAt snapshot before.tables,
    (Versioned.entitiesAt snapshot after.columnTags).filter
        (fun row => row.tableId = table.tableId) =
      (Versioned.entitiesAt snapshot before.columnTags).filter
        fun row => row.tableId = table.tableId
  partitionInfo : ∀ table ∈ Versioned.entitiesAt snapshot before.tables,
    (Versioned.entitiesAt snapshot after.partitionInfo).filter
        (fun row => row.tableId = table.tableId) =
      (Versioned.entitiesAt snapshot before.partitionInfo).filter
        fun row => row.tableId = table.tableId
  sortInfo : ∀ table ∈ Versioned.entitiesAt snapshot before.tables,
    (Versioned.entitiesAt snapshot after.sortInfo).filter
        (fun row => row.tableId = table.tableId) =
      (Versioned.entitiesAt snapshot before.sortInfo).filter
        fun row => row.tableId = table.tableId
  partitionColumns : ∀ table ∈ Versioned.entitiesAt snapshot before.tables,
    after.partitionColumns.filter (fun row => row.tableId = table.tableId) =
      before.partitionColumns.filter fun row => row.tableId = table.tableId
  sortExpressions : ∀ table ∈ Versioned.entitiesAt snapshot before.tables,
    after.sortExpressions.filter (fun row => row.tableId = table.tableId) =
      before.sortExpressions.filter fun row => row.tableId = table.tableId
  macroImpls : ∀ entity ∈ Versioned.entitiesAt snapshot before.macros,
    after.macroImpls.filter (fun row => row.macroId = entity.macroId) =
      before.macroImpls.filter fun row => row.macroId = entity.macroId
  macroParameters : ∀ entity ∈ Versioned.entitiesAt snapshot before.macros,
    after.macroParameters.filter (fun row => row.macroId = entity.macroId) =
      before.macroParameters.filter fun row => row.macroId = entity.macroId

theorem filter_and_of_filter_eq
    {α : Type}
    (rows others : List α)
    (weak other : α → Prop)
    [DecidablePred weak]
    [DecidablePred other]
    (same : rows.filter (fun row => weak row) = others.filter fun row => weak row) :
    rows.filter (fun row => weak row ∧ other row) =
      others.filter fun row => weak row ∧ other row := by
  have swapped := filter_eq_of_filter_eq rows others weak other same
  simpa only [and_comm] using swapped

section

variable {before after : Database} {snapshot : Int}

theorem ReadsVisible.loadPartition
    (reads : ReadsVisible before after snapshot)
    (table : DucklakeTable)
    (visible : table ∈ Versioned.entitiesAt snapshot before.tables)
    (columns : CatalogColumns) :
    loadPartition after snapshot table columns = loadPartition before snapshot table columns := by
  have columnsOf : ∀ partitionId : Int,
      after.partitionColumns.filter
          (fun row => row.tableId = table.tableId ∧ row.partitionId = partitionId) =
        before.partitionColumns.filter
          fun row => row.tableId = table.tableId ∧ row.partitionId = partitionId :=
    fun partitionId => filter_and_of_filter_eq _ _ _ (fun row => row.partitionId = partitionId)
      (reads.partitionColumns table visible)
  unfold Catalog.loadPartition
  simp only [reads.partitionInfo table visible, columnsOf]

theorem ReadsVisible.loadSortInfo
    (reads : ReadsVisible before after snapshot)
    (table : DucklakeTable)
    (visible : table ∈ Versioned.entitiesAt snapshot before.tables)
    (columns : CatalogColumns) :
    loadSortInfo after snapshot table columns = loadSortInfo before snapshot table columns := by
  have expressionsOf : ∀ sortId : Int,
      after.sortExpressions.filter
          (fun row => row.tableId = table.tableId ∧ row.sortId = sortId) =
        before.sortExpressions.filter
          fun row => row.tableId = table.tableId ∧ row.sortId = sortId :=
    fun sortId => filter_and_of_filter_eq _ _ _ (fun row => row.sortId = sortId)
      (reads.sortExpressions table visible)
  unfold Catalog.loadSortInfo
  simp only [reads.sortInfo table visible, expressionsOf]

theorem ReadsVisible.setTable
    (reads : ReadsVisible before after snapshot)
    (env : Environment)
    (catalog : Catalog)
    (table : DucklakeTable)
    (visible : table ∈ Versioned.entitiesAt snapshot before.tables) :
    setTable env after snapshot catalog table = setTable env before snapshot catalog table := by
  unfold Catalog.setTable
  simp only [reads.columns table visible, reads.columnTags table visible, reads.tags,
    reads.loadPartition table visible, reads.loadSortInfo table visible]

theorem ReadsVisible.setView
    (reads : ReadsVisible before after snapshot)
    (catalog : Catalog)
    (view : DucklakeView) :
    setView after snapshot catalog view = setView before snapshot catalog view := by
  unfold Catalog.setView
  rw [reads.tags]

theorem ReadsVisible.setMacro
    (reads : ReadsVisible before after snapshot)
    (catalog : Catalog)
    (entity : DucklakeMacro)
    (visible : entity ∈ Versioned.entitiesAt snapshot before.macros) :
    setMacro after catalog entity = setMacro before catalog entity := by
  unfold Catalog.setMacro
  rw [reads.macroImpls entity visible]
  simp only [fromDucklake_congr _ _ _ _ _ (reads.macroParameters entity visible)]

/-- A snapshot that sees the same objects with the same parts has the same catalog. -/
theorem ReadsVisible.load
    (reads : ReadsVisible before after snapshot)
    (env : Environment) :
    load env after snapshot = load env before snapshot := by
  have tables : ∀ catalog, (Versioned.entitiesAt snapshot before.tables).foldlM
      (Catalog.setTable env after snapshot) catalog =
      (Versioned.entitiesAt snapshot before.tables).foldlM
        (Catalog.setTable env before snapshot) catalog := fun catalog =>
    foldlM_congr _ _ _ catalog fun table visible state => reads.setTable env state table visible
  have views : ∀ catalog, (Versioned.entitiesAt snapshot before.views).foldlM
      (Catalog.setView after snapshot) catalog =
      (Versioned.entitiesAt snapshot before.views).foldlM
        (Catalog.setView before snapshot) catalog := fun catalog =>
    foldlM_congr _ _ _ catalog fun view _ state => reads.setView state view
  have macros : ∀ catalog, (Versioned.entitiesAt snapshot before.macros).foldlM
      (Catalog.setMacro after) catalog =
      (Versioned.entitiesAt snapshot before.macros).foldlM
        (Catalog.setMacro before) catalog := fun catalog =>
    foldlM_congr _ _ _ catalog fun entity visible state => reads.setMacro state entity visible
  unfold Catalog.load
  rw [reads.schemas, reads.tables, reads.views, reads.macros]
  simp only [tables, views, macros]

end

end Ducklake.Catalog
