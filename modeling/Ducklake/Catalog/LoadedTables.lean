import Ducklake.Catalog.Load
import Ducklake.Catalog.Objects

/-!
# Loaded tables

A loaded catalog has one entry for each table row that the snapshot sees, in the order of the
rows, and the arena of its columns has one entry for each column row of the table.
-/

set_option autoImplicit false

namespace Ducklake

open Lib Spec

namespace CatalogColumns

/-- The ids of all columns in the arena, removed ones included. -/
def ids (columns : CatalogColumns) : List Int :=
  columns.arena.map CatalogColumn.id

theorem length_ids (columns : CatalogColumns) : columns.ids.length = columns.arena.length := by
  simp [ids]

theorem getElem?_ids
    (columns : CatalogColumns)
    (idx : ArenaIdx)
    (inside : idx < columns.arena.length) :
    columns.ids[idx]? = some (columns.column idx).id := by
  simp [ids, column, List.getD_eq_getElem?_getD, List.getElem?_eq_getElem inside]

def ParentOf (sorted : List DucklakeColumn) (row : DucklakeColumn) (parent : Option ArenaIdx) :
    Prop :=
  match row.parentColumn with
  | none => parent = none
  | some id => parent.isSome ∧ parent = (IndexMap.ofList
      (sorted.zipIdx.map fun entry => (entry.1.columnId, entry.2))).get? id

/-- What loading one row adds to the columns before it. -/
structure LoadsRow (env : Environment) (sorted : List DucklakeColumn)
    (tags : List DucklakeColumnTag) (before : CatalogColumns) (row : DucklakeColumn)
    (after : CatalogColumns) (column : CatalogColumn) : Prop where
  id : column.id = row.columnId
  name : column.name = row.columnName
  dtype : columnTypeFromDucklake row.columnType
    (sorted.zipIdx.filter fun entry => entry.1.parentColumn = some row.columnId) =
      .ok column.dtype
  parentColumn : ParentOf sorted row column.parentColumn
  nullable : column.nullable = row.nullsAllowed
  columnTags : column.tags = columnTags tags row.columnId
  initialDefault : initialDefaultFromDucklake env row column.dtype = .ok column.initialDefault
  defaultValue : defaultValueFromDucklake env row column.dtype = .ok column.defaultValue
  arena : after.arena = before.arena ++ [column]
  byId : after.byId = before.byId.insert row.columnId before.arena.length
  nextColumnId : after.nextColumnId = before.nextColumnId
  rootColumns : after.rootColumns = if column.parentColumn.isSome then before.rootColumns
    else before.rootColumns.insert row.columnName before.arena.length
  distinct : column.parentColumn = none → before.rootColumns.contains row.columnName = false

theorem fromDucklake_eq_foldlM
    (env : Environment)
    (rows : List DucklakeColumn)
    (tags : List DucklakeColumnTag) :
    ∃ body : CatalogColumns → DucklakeColumn → DucklakeResult CatalogColumns,
      fromDucklake env rows tags = (sortByOrder rows).foldlM body (new none) ∧
      ∀ before row after, body before row = .ok after →
        ∃ column, LoadsRow env (sortByOrder rows) tags before row after column := by
  refine ⟨_, rfl, ?_⟩
  intro before row after stepped
  dsimp only at stepped
  split at stepped
  · rename_i root
    obtain ⟨parent, found, stepped⟩ := bind_eq_ok.mp stepped
    cases found
    obtain ⟨dtype, typed, stepped⟩ := bind_eq_ok.mp stepped
    obtain ⟨initialDefault, initial, stepped⟩ := bind_eq_ok.mp stepped
    obtain ⟨defaultValue, default_, stepped⟩ := bind_eq_ok.mp stepped
    dsimp only at stepped
    split at stepped
    · cases stepped
    · rename_i absent
      cases stepped
      exact ⟨_, {
        id := rfl
        name := rfl
        dtype := typed
        parentColumn := by simp [ParentOf, root]
        nullable := rfl
        columnTags := rfl
        initialDefault := initial
        defaultValue := default_
        arena := rfl
        byId := rfl
        nextColumnId := rfl
        rootColumns := rfl
        distinct := fun _ => Bool.eq_false_iff.mpr absent }⟩
  · rename_i id above
    split at stepped
    · rename_i idx located
      obtain ⟨parent, found, stepped⟩ := bind_eq_ok.mp stepped
      cases found
      obtain ⟨dtype, typed, stepped⟩ := bind_eq_ok.mp stepped
      obtain ⟨initialDefault, initial, stepped⟩ := bind_eq_ok.mp stepped
      obtain ⟨defaultValue, default_, stepped⟩ := bind_eq_ok.mp stepped
      cases stepped
      exact ⟨_, {
        id := rfl
        name := rfl
        dtype := typed
        parentColumn := by simp [ParentOf, above, located]
        nullable := rfl
        columnTags := rfl
        initialDefault := initial
        defaultValue := default_
        arena := rfl
        byId := rfl
        nextColumnId := rfl
        rootColumns := rfl
        distinct := fun impossible => by cases impossible }⟩
    · cases stepped

theorem fromDucklake_invariant
    (env : Environment)
    (rows : List DucklakeColumn)
    (tags : List DucklakeColumnTag)
    (columns : CatalogColumns)
    (holds : List DucklakeColumn → CatalogColumns → Prop)
    (initial : holds [] (new none))
    (step : ∀ loaded row rest before after column,
      sortByOrder rows = loaded ++ row :: rest → holds loaded before →
        LoadsRow env (sortByOrder rows) tags before row after column →
          holds (loaded ++ [row]) after)
    (success : fromDucklake env rows tags = .ok columns) :
    holds (sortByOrder rows) columns := by
  obtain ⟨body, folds, loads⟩ := fromDucklake_eq_foldlM env rows tags
  rw [folds] at success
  refine foldlM_prefix holds initial ?_ success
  intro loaded row rest before after split held stepped
  obtain ⟨column, pushed⟩ := loads before row after stepped
  exact step loaded row rest before after column split held pushed

theorem fromDucklake_ids
    (env : Environment)
    (rows : List DucklakeColumn)
    (tags : List DucklakeColumnTag)
    (columns : CatalogColumns)
    (success : fromDucklake env rows tags = .ok columns) :
    columns.nextColumnId = none ∧
      columns.ids = (sortByOrder rows).map DucklakeColumn.columnId := by
  refine fromDucklake_invariant env rows tags columns (fun loaded columns =>
    columns.nextColumnId = none ∧ columns.ids = loaded.map DucklakeColumn.columnId)
    ⟨rfl, rfl⟩ ?_ success
  rintro loaded row rest before after column _ ⟨next, loadedIds⟩ loads
  refine ⟨loads.nextColumnId.trans next, ?_⟩
  unfold ids at loadedIds ⊢
  rw [loads.arena, List.map_append, loadedIds, List.map_append, List.map_singleton, loads.id]
  rfl

theorem mem_ids_fromDucklake
    (env : Environment)
    (rows : List DucklakeColumn)
    (tags : List DucklakeColumnTag)
    (columns : CatalogColumns)
    (success : fromDucklake env rows tags = .ok columns)
    (id : Int) :
    id ∈ columns.ids ↔ ∃ row ∈ rows, row.columnId = id := by
  rw [(fromDucklake_ids env rows tags columns success).2, List.mem_map]
  simp [sortByOrder, sortByKey, List.mem_insertionSort]

end CatalogColumns

namespace Catalog

structure LoadedTable (env : Environment) (db : Database) (snapshotId : Int)
    (row : DucklakeTable) (table : CatalogTable) : Prop where
  id : table.id = some row.tableId
  columns : CatalogColumns.fromDucklake env
    ((Versioned.entitiesAt snapshotId db.columns).filter
      fun column => column.tableId = row.tableId)
    ((Versioned.entitiesAt snapshotId db.columnTags).filter
      fun tag => tag.tableId = row.tableId) = .ok table.columns
  partition : loadPartition db snapshotId row table.columns = .ok table.partition
  sortInfo : loadSortInfo db snapshotId row table.columns = .ok table.sortInfo

theorem setTable_arena
    (env : Environment)
    (db : Database)
    (snapshotId : Int)
    (catalog next : Catalog)
    (row : DucklakeTable)
    (success : setTable env db snapshotId catalog row = .ok next) :
    ∃ table, next.tableArena.arena = catalog.tableArena.arena ++ [table] ∧
      LoadedTable env db snapshotId row table := by
  obtain ⟨schema, _, success⟩ := bind_eq_ok.mp success
  obtain ⟨columns, columnsOk, success⟩ := bind_eq_ok.mp success
  obtain ⟨partition, partitionOk, success⟩ := bind_eq_ok.mp success
  obtain ⟨sortInfo, sortInfoOk, success⟩ := bind_eq_ok.mp success
  cases success
  exact ⟨_, rfl, rfl, columnsOk, partitionOk, sortInfoOk⟩

theorem foldlM_setTable_arena
    (env : Environment)
    (db : Database)
    (snapshotId : Int)
    (rows : List DucklakeTable)
    (catalog next : Catalog)
    (success : rows.foldlM (setTable env db snapshotId) catalog = .ok next) :
    ∃ tables, next.tableArena.arena = catalog.tableArena.arena ++ tables ∧
      List.Forall₂ (LoadedTable env db snapshotId) rows tables := by
  induction rows generalizing catalog with
  | nil =>
      cases success
      exact ⟨[], by simp, .nil⟩
  | cons row rest ih =>
      rw [List.foldlM_cons] at success
      obtain ⟨middle, stepped, success⟩ := bind_eq_ok.mp success
      obtain ⟨table, appended, loaded⟩ := setTable_arena env db snapshotId catalog middle row stepped
      obtain ⟨tables, appendedLater, loadedLater⟩ := ih middle success
      exact ⟨table :: tables, by rw [appendedLater, appended, List.append_assoc]; rfl,
        .cons loaded loadedLater⟩

theorem load_tables
    (env : Environment)
    (db : Database)
    (snapshotId : Int)
    (catalog : Catalog)
    (success : load env db snapshotId = .ok catalog) :
    List.Forall₂ (LoadedTable env db snapshotId) (Versioned.entitiesAt snapshotId db.tables)
      catalog.tableArena.arena := by
  obtain ⟨withTables, tables, success⟩ := bind_eq_ok.mp success
  obtain ⟨withViews, views, macros⟩ := bind_eq_ok.mp success
  have schemas : ((Versioned.entitiesAt snapshotId db.schemas).foldl setSchema
      new).tableArena.arena = [] := by
    have kept : ∀ (schemas : List DucklakeSchema) (catalog : Catalog),
        (schemas.foldl setSchema catalog).tableArena = catalog.tableArena := by
      intro schemas
      induction schemas with
      | nil => exact fun _ => rfl
      | cons schema rest ih => exact fun catalog => ih (catalog.setSchema schema)
    rw [kept]
    rfl
  obtain ⟨loadedTables, appended, loaded⟩ :=
    foldlM_setTable_arena env db snapshotId _ _ withTables tables
  rw [schemas, List.nil_append] at appended
  have sameViews := foldlM_invariant (fun catalog : Catalog =>
      catalog.tableArena.arena = loadedTables) appended
    (fun state view next _ same stepped => by
      obtain ⟨schema, _, stepped⟩ := bind_eq_ok.mp stepped
      obtain ⟨aliases, _, stepped⟩ := bind_eq_ok.mp stepped
      cases stepped
      exact same) views
  have sameMacros := foldlM_invariant (fun catalog : Catalog =>
      catalog.tableArena.arena = loadedTables) sameViews
    (fun state entity next _ same stepped => by
      obtain ⟨schema, _, stepped⟩ := bind_eq_ok.mp stepped
      obtain ⟨macro_, _, stepped⟩ := bind_eq_ok.mp stepped
      cases stepped
      exact same) macros
  rw [sameMacros]
  exact loaded

/-- The table at a reference that the catalog has comes from a visible row. -/
theorem load_table
    (env : Environment)
    (db : Database)
    (snapshotId : Int)
    (catalog : Catalog)
    (success : load env db snapshotId = .ok catalog)
    (ref : TableRef)
    (present : catalog.Has (.table ref)) :
    ∃ row ∈ Versioned.entitiesAt snapshotId db.tables,
      LoadedTable env db snapshotId row (catalog.table ref) := by
  have loaded := load_tables env db snapshotId catalog success
  have inside : ref.idx < catalog.tableArena.arena.length := present
  have rowInside : ref.idx < (Versioned.entitiesAt snapshotId db.tables).length := by
    rw [loaded.length_eq]
    exact inside
  have same : catalog.table ref = catalog.tableArena.arena[ref.idx] := by
    simp [table, Arena.get, List.getD_eq_getElem?_getD, List.getElem?_eq_getElem inside]
  rw [same]
  exact ⟨_, List.getElem_mem rowInside, loaded.get rowInside inside⟩

end Catalog

end Ducklake
