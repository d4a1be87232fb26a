import Ducklake.Catalog.Load
import Ducklake.Lib.History

/-!
# What loading a catalog reads

Two databases whose snapshots see the same rows, and the same parts of the visible specifications
and macros, have the same catalog there.
-/

set_option autoImplicit false

namespace Ducklake

open Lib Spec

namespace Catalog

/-- A snapshot of the second database reads what a snapshot of the first one reads. -/
structure ReadsAs (before : Database) (snapshot : Int) (after : Database) (later : Int) :
    Prop where
  schemas : Versioned.entitiesAt later after.schemas = Versioned.entitiesAt snapshot before.schemas
  tables : Versioned.entitiesAt later after.tables = Versioned.entitiesAt snapshot before.tables
  views : Versioned.entitiesAt later after.views = Versioned.entitiesAt snapshot before.views
  macros : Versioned.entitiesAt later after.macros = Versioned.entitiesAt snapshot before.macros
  columns : Versioned.entitiesAt later after.columns = Versioned.entitiesAt snapshot before.columns
  tags : Versioned.entitiesAt later after.tags = Versioned.entitiesAt snapshot before.tags
  columnTags : Versioned.entitiesAt later after.columnTags =
    Versioned.entitiesAt snapshot before.columnTags
  partitionInfo : Versioned.entitiesAt later after.partitionInfo =
    Versioned.entitiesAt snapshot before.partitionInfo
  sortInfo : Versioned.entitiesAt later after.sortInfo =
    Versioned.entitiesAt snapshot before.sortInfo
  partitionColumns : ∀ info ∈ Versioned.entitiesAt snapshot before.partitionInfo,
    after.partitionColumns.filter (fun column => column.partitionId = info.partitionId) =
      before.partitionColumns.filter fun column => column.partitionId = info.partitionId
  sortExpressions : ∀ info ∈ Versioned.entitiesAt snapshot before.sortInfo,
    after.sortExpressions.filter (fun expression => expression.sortId = info.sortId) =
      before.sortExpressions.filter fun expression => expression.sortId = info.sortId
  macroImpls : ∀ entity ∈ Versioned.entitiesAt snapshot before.macros,
    after.macroImpls.filter (fun row => row.macroId = entity.macroId) =
      before.macroImpls.filter fun row => row.macroId = entity.macroId
  macroParameters : ∀ entity ∈ Versioned.entitiesAt snapshot before.macros,
    after.macroParameters.filter (fun row => row.macroId = entity.macroId) =
      before.macroParameters.filter fun row => row.macroId = entity.macroId

/-- Rows selected by one condition agree when those selected by a weaker one do. -/
theorem filter_eq_of_filter_eq
    {α : Type}
    (rows others : List α)
    (weak other : α → Prop)
    [DecidablePred weak]
    [DecidablePred other]
    (same : rows.filter (fun row => weak row) = others.filter fun row => weak row) :
    rows.filter (fun row => other row ∧ weak row) =
      others.filter fun row => other row ∧ weak row := by
  have split : ∀ rows : List α, rows.filter (fun row => other row ∧ weak row) =
      (rows.filter fun row => weak row).filter fun row => other row := by
    intro rows
    rw [List.filter_filter]
    exact List.filter_congr fun row _ => by simp
  rw [split, split, same]

theorem foldlM_congr
    {α β : Type}
    (f g : β → α → DucklakeResult β)
    (items : List α)
    (start : β)
    (same : ∀ item ∈ items, ∀ state, f state item = g state item) :
    items.foldlM f start = items.foldlM g start := by
  induction items generalizing start with
  | nil => rfl
  | cons item rest ih =>
      rw [List.foldlM_cons, List.foldlM_cons, same item (by simp)]
      exact bind_congr fun state => ih state fun other later =>
        same other (List.mem_cons_of_mem _ later)

theorem fromDucklake_congr
    (id : Int)
    (name : QualifiedName)
    (implementations : List DucklakeMacroImpl)
    (parameters others : List DucklakeMacroParameters)
    (same : parameters.filter (fun row => row.macroId = id) =
      others.filter fun row => row.macroId = id) :
    CatalogMacro.fromDucklake id name implementations parameters =
      CatalogMacro.fromDucklake id name implementations others := by
  have each : ∀ implId : Nat,
      parameters.filter (fun row => row.macroId = id ∧ row.implId = implId) =
        others.filter fun row => row.macroId = id ∧ row.implId = implId := by
    intro implId
    have swapped := filter_eq_of_filter_eq parameters others (fun row => row.macroId = id)
      (fun row => row.implId = implId) same
    simpa only [and_comm] using swapped
  unfold CatalogMacro.fromDucklake
  simp only [each]

section

variable {before after : Database} {snapshot later : Int}

theorem ReadsAs.loadPartition
    (reads : ReadsAs before snapshot after later)
    (table : DucklakeTable)
    (columns : CatalogColumns) :
    loadPartition after later table columns = loadPartition before snapshot table columns := by
  unfold Catalog.loadPartition
  rw [reads.partitionInfo]
  dsimp only
  split
  · rfl
  · rename_i info selected
    have member : info ∈ (Versioned.entitiesAt snapshot before.partitionInfo).filter
        fun info => info.tableId = table.tableId := by rw [selected]; simp
    have same := filter_eq_of_filter_eq _ _ _ (fun column => column.tableId = table.tableId)
      (reads.partitionColumns info (List.mem_of_mem_filter member))
    rw [same]
  · rfl

theorem ReadsAs.loadSortInfo
    (reads : ReadsAs before snapshot after later)
    (table : DucklakeTable)
    (columns : CatalogColumns) :
    loadSortInfo after later table columns = loadSortInfo before snapshot table columns := by
  unfold Catalog.loadSortInfo
  rw [reads.sortInfo]
  dsimp only
  split
  · rfl
  · rename_i info selected
    have member : info ∈ (Versioned.entitiesAt snapshot before.sortInfo).filter
        fun info => info.tableId = table.tableId := by rw [selected]; simp
    have same := filter_eq_of_filter_eq _ _ _
      (fun expression => expression.tableId = table.tableId)
      (reads.sortExpressions info (List.mem_of_mem_filter member))
    rw [same]
  · rfl

theorem ReadsAs.setTable
    (reads : ReadsAs before snapshot after later)
    (env : Environment)
    (catalog : Catalog)
    (table : DucklakeTable) :
    setTable env after later catalog table = setTable env before snapshot catalog table := by
  unfold Catalog.setTable
  simp only [reads.columns, reads.columnTags, reads.tags, reads.loadPartition, reads.loadSortInfo]

theorem ReadsAs.setView
    (reads : ReadsAs before snapshot after later)
    (catalog : Catalog)
    (view : DucklakeView) :
    setView after later catalog view = setView before snapshot catalog view := by
  unfold Catalog.setView
  rw [reads.tags]

theorem ReadsAs.setMacro
    (reads : ReadsAs before snapshot after later)
    (catalog : Catalog)
    (entity : DucklakeMacro)
    (visible : entity ∈ Versioned.entitiesAt snapshot before.macros) :
    setMacro after catalog entity = setMacro before catalog entity := by
  unfold Catalog.setMacro
  rw [reads.macroImpls entity visible]
  simp only [fromDucklake_congr _ _ _ _ _ (reads.macroParameters entity visible)]

theorem ReadsAs.load
    (reads : ReadsAs before snapshot after later)
    (env : Environment) :
    load env after later = load env before snapshot := by
  unfold Catalog.load
  rw [reads.schemas, reads.tables, reads.views, reads.macros]
  have tables : ∀ catalog, (Versioned.entitiesAt snapshot before.tables).foldlM
      (Catalog.setTable env after later) catalog =
      (Versioned.entitiesAt snapshot before.tables).foldlM
        (Catalog.setTable env before snapshot) catalog := fun catalog =>
    foldlM_congr _ _ _ catalog fun table _ state => reads.setTable env state table
  have views : ∀ catalog, (Versioned.entitiesAt snapshot before.views).foldlM
      (Catalog.setView after later) catalog =
      (Versioned.entitiesAt snapshot before.views).foldlM
        (Catalog.setView before snapshot) catalog := fun catalog =>
    foldlM_congr _ _ _ catalog fun view _ state => reads.setView state view
  have macros : ∀ catalog, (Versioned.entitiesAt snapshot before.macros).foldlM
      (Catalog.setMacro after) catalog =
      (Versioned.entitiesAt snapshot before.macros).foldlM
        (Catalog.setMacro before) catalog := fun catalog =>
    foldlM_congr _ _ _ catalog fun entity visible state => reads.setMacro state entity visible
  simp only [tables, views, macros]

end

end Catalog

end Ducklake
