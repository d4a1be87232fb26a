import Ducklake.Catalog.LoadedTables

/-!
# Paths of a loaded catalog

Every schema and every table of a loaded catalog has the path of its row, and a table has the name
of the schema that its row refers to.
-/

set_option autoImplicit false

namespace Ducklake

open Lib Spec

/-! ## Arenas -/

/-- The entities that an arena finds by id have that id. -/
def Arena.FindsOwn {α : Type} (arena : Arena α) (project : α → Option Int) : Prop :=
  ∀ id idx, arena.mapId id = some idx → ∃ entity, arena.arena[idx]? = some entity ∧
    project entity = some id

section

variable {α : Type} {arena : Arena α} {project : α → Option Int}

theorem Arena.FindsOwn.push
    (own : arena.FindsOwn project)
    (entity : α)
    (id : Int)
    (given : project entity = some id) :
    (arena.push entity (some id)).FindsOwn project := by
  intro other idx found
  change (arena.byId.insert id arena.arena.length).get? other = some idx at found
  change ∃ entity', (arena.arena ++ [entity])[idx]? = some entity' ∧ _
  rw [IndexMap.get?_insert] at found
  split at found
  · rename_i same
    obtain rfl := Option.some.inj found
    exact ⟨entity, by simp, by rw [given, same]⟩
  · obtain ⟨present, inside, same⟩ := own other idx found
    exact ⟨present, by rw [List.getElem?_append_left (List.getElem?_eq_some_iff.mp inside).1, inside],
      same⟩

theorem Arena.FindsOwn.modify
    (own : arena.FindsOwn project)
    (idx : ArenaIdx)
    (update : α → α)
    (kept : ∀ entity, project (update entity) = project entity) :
    (arena.modify idx update).FindsOwn project := by
  intro other at_ found
  obtain ⟨present, inside, same⟩ := own other at_ found
  change ∃ entity, (arena.arena.modify idx update)[at_]? = some entity ∧ _
  rw [List.getElem?_modify, inside]
  by_cases here : idx = at_
  · exact ⟨update present, by simp [here], (kept present).trans same⟩
  · exact ⟨present, by simp [here], same⟩

end

namespace Catalog

/-! ## Schemas and tables -/

def OfSchemaRow (row : DucklakeSchema) (schema : CatalogSchema) : Prop :=
  schema.id = some row.schemaId ∧ schema.name = row.schemaName ∧
    schema.path = .new (pathOrDefault row.path row.schemaName) row.pathIsRelative

def OfTableRow (row : DucklakeTable) (owner : DucklakeSchema) (table : CatalogTable) : Prop :=
  table.id = some row.tableId ∧ row.schemaId = owner.schemaId ∧
    table.name.schema = owner.schemaName ∧
    table.path = .new (pathOrDefault row.path row.tableName) row.pathIsRelative

structure FromRows (schemas : List DucklakeSchema) (tables : List DucklakeTable)
    (catalog : Catalog) : Prop where
  schemaRows : ∀ schema ∈ catalog.schemaArena.arena, ∃ row ∈ schemas, OfSchemaRow row schema
  tableRows : ∀ table ∈ catalog.tableArena.arena, ∃ row ∈ tables, ∃ owner ∈ schemas,
    OfTableRow row owner table
  names : ∀ name idx, catalog.schemas.get? name = some idx →
    ∃ schema, catalog.schemaArena.arena[idx]? = some schema ∧ schema.name = name
  schemaIds : catalog.schemaArena.FindsOwn CatalogSchema.id
  tableIds : catalog.tableArena.FindsOwn CatalogTable.id

section

variable {schemas : List DucklakeSchema} {tables : List DucklakeTable} {catalog : Catalog}

theorem fromRows_new : new.FromRows schemas tables where
  schemaRows _ member := nomatch member
  tableRows _ member := nomatch member
  names _ _ found := nomatch found
  schemaIds _ _ found := nomatch found
  tableIds _ _ found := nomatch found

theorem FromRows.setSchema
    (rows : catalog.FromRows schemas tables)
    (row : DucklakeSchema)
    (listed : row ∈ schemas) :
    (catalog.setSchema row).FromRows schemas tables where
  schemaRows schema member := by
    obtain old | new := List.mem_append.mp member
    · exact rows.schemaRows schema old
    · obtain rfl := List.mem_singleton.mp new
      exact ⟨row, listed, rfl, rfl, rfl⟩
  tableRows := rows.tableRows
  names name idx found := by
    change (catalog.schemas.insert row.schemaName catalog.schemaArena.arena.length).get? name = _
      at found
    change ∃ schema, (catalog.schemaArena.arena ++ [_])[idx]? = some schema ∧ _
    rw [IndexMap.get?_insert] at found
    split at found
    · rename_i same
      obtain rfl := Option.some.inj found
      exact ⟨_, List.getElem?_concat_length, same.symm⟩
    · obtain ⟨schema, inside, same⟩ := rows.names name idx found
      exact ⟨schema,
        by rw [List.getElem?_append_left (List.getElem?_eq_some_iff.mp inside).1, inside], same⟩
  schemaIds := rows.schemaIds.push _ row.schemaId rfl
  tableIds := rows.tableIds

theorem FromRows.modifySchema
    (rows : catalog.FromRows schemas tables)
    (ref : SchemaRef)
    (update : CatalogSchema → CatalogSchema)
    (kept : ∀ schema, (update schema).id = schema.id ∧ (update schema).name = schema.name ∧
      (update schema).path = schema.path) :
    (catalog.modifySchema ref update).FromRows schemas tables where
  schemaRows schema member := by
    obtain ⟨idx, inside⟩ := List.getElem?_of_mem member
    change (catalog.schemaArena.arena.modify ref.idx update)[idx]? = some schema at inside
    rw [List.getElem?_modify] at inside
    obtain ⟨old, oldInside, rfl⟩ := Option.map_eq_some_iff.mp inside
    obtain ⟨row, listed, id, name, path⟩ := rows.schemaRows old (List.mem_of_getElem? oldInside)
    refine ⟨row, listed, ?_⟩
    split
    · obtain ⟨sameId, sameName, samePath⟩ := kept old
      exact ⟨sameId.trans id, sameName.trans name, samePath.trans path⟩
    · exact ⟨id, name, path⟩
  tableRows := rows.tableRows
  names name idx found := by
    obtain ⟨schema, inside, same⟩ := rows.names name idx found
    change ∃ schema, (catalog.schemaArena.arena.modify ref.idx update)[idx]? = some schema ∧ _
    rw [List.getElem?_modify, inside]
    by_cases here : ref.idx = idx
    · exact ⟨update schema, by simp [here], (kept schema).2.1.trans same⟩
    · exact ⟨schema, by simp [here], same⟩
  schemaIds := rows.schemaIds.modify ref.idx update fun schema => (kept schema).1
  tableIds := rows.tableIds

theorem FromRows.expectSchema
    (rows : catalog.FromRows schemas tables)
    (entity : String)
    (id : Int)
    (ref : SchemaRef)
    (found : catalog.expectSchema entity id = .ok ref) :
    ∃ row ∈ schemas, row.schemaId = id ∧ (catalog.schema ref).name = row.schemaName := by
  unfold Catalog.expectSchema Catalog.schemaRefById at found
  cases located : catalog.schemaArena.mapId id with
  | none => simp [located] at found
  | some idx =>
      simp only [located, Except.ok.injEq] at found
      obtain rfl := found
      obtain ⟨schema, inside, own⟩ := rows.schemaIds id idx located
      obtain ⟨row, listed, rowId, name, _⟩ := rows.schemaRows schema (List.mem_of_getElem? inside)
      refine ⟨row, listed, Option.some.inj (rowId.symm.trans own), ?_⟩
      have same : catalog.schema ⟨idx⟩ = schema := by
        simp [Catalog.schema, Arena.get, List.getD_eq_getElem?_getD, inside]
      rw [same, name]

theorem FromRows.setTable
    (rows : catalog.FromRows schemas tables)
    (env : Environment)
    (db : Database)
    (snapshotId : Int)
    (row : DucklakeTable)
    (listed : row ∈ tables)
    (next : Catalog)
    (success : catalog.setTable env db snapshotId row = .ok next) :
    next.FromRows schemas tables := by
  obtain ⟨ref, found, success⟩ := bind_eq_ok.mp success
  obtain ⟨columns, _, success⟩ := bind_eq_ok.mp success
  obtain ⟨partition, _, success⟩ := bind_eq_ok.mp success
  obtain ⟨sortInfo, _, success⟩ := bind_eq_ok.mp success
  obtain ⟨owner, known, sameId, sameName⟩ := rows.expectSchema _ _ _ found
  obtain rfl := Except.ok.inj success
  refine FromRows.modifySchema ?_ _ _ fun _ => ⟨rfl, rfl, rfl⟩
  exact {
    schemaRows := rows.schemaRows
    tableRows := by
      intro table member
      obtain old | new := List.mem_append.mp member
      · exact rows.tableRows table old
      · obtain rfl := List.mem_singleton.mp new
        exact ⟨row, listed, owner, known, rfl, sameId.symm, sameName, rfl⟩
    names := rows.names
    schemaIds := rows.schemaIds
    tableIds := rows.tableIds.push _ row.tableId rfl }

theorem FromRows.setView
    (rows : catalog.FromRows schemas tables)
    (db : Database)
    (snapshotId : Int)
    (view : DucklakeView)
    (next : Catalog)
    (success : catalog.setView db snapshotId view = .ok next) :
    next.FromRows schemas tables := by
  obtain ⟨ref, _, success⟩ := bind_eq_ok.mp success
  obtain ⟨aliases, _, success⟩ := bind_eq_ok.mp success
  obtain rfl := Except.ok.inj success
  refine FromRows.modifySchema ?_ _ _ fun _ => ⟨rfl, rfl, rfl⟩
  exact { rows with }

theorem FromRows.setMacro
    (rows : catalog.FromRows schemas tables)
    (db : Database)
    (entity : DucklakeMacro)
    (next : Catalog)
    (success : catalog.setMacro db entity = .ok next) :
    next.FromRows schemas tables := by
  obtain ⟨ref, _, success⟩ := bind_eq_ok.mp success
  obtain ⟨loaded, _, success⟩ := bind_eq_ok.mp success
  obtain rfl := Except.ok.inj success
  refine FromRows.modifySchema ?_ _ _ fun _ => ⟨rfl, rfl, rfl⟩
  exact { rows with }

end

/-- A loaded catalog has the schemas and tables that the snapshot sees. -/
theorem load_fromRows
    (env : Environment)
    (db : Database)
    (snapshotId : Int)
    (catalog : Catalog)
    (success : load env db snapshotId = .ok catalog) :
    catalog.FromRows (Versioned.entitiesAt snapshotId db.schemas)
      (Versioned.entitiesAt snapshotId db.tables) := by
  obtain ⟨withTables, tables, success⟩ := bind_eq_ok.mp success
  obtain ⟨withViews, views, macros⟩ := bind_eq_ok.mp success
  have schemas : ∀ listed ⊆ Versioned.entitiesAt snapshotId db.schemas, ∀ start : Catalog,
      start.FromRows (Versioned.entitiesAt snapshotId db.schemas)
        (Versioned.entitiesAt snapshotId db.tables) →
      (listed.foldl setSchema start).FromRows (Versioned.entitiesAt snapshotId db.schemas)
        (Versioned.entitiesAt snapshotId db.tables) := by
    intro listed
    induction listed with
    | nil => exact fun _ _ rows => rows
    | cons row rest ih =>
        intro inside start rows
        exact ih (fun other member => inside (.tail _ member)) _
          (rows.setSchema row (inside (.head _)))
  have afterTables := foldlM_invariant (fun catalog : Catalog =>
      catalog.FromRows (Versioned.entitiesAt snapshotId db.schemas)
        (Versioned.entitiesAt snapshotId db.tables))
    (schemas _ (fun _ member => member) new fromRows_new)
    (fun state row next listed rows stepped =>
      rows.setTable env db snapshotId row listed next stepped) tables
  have afterViews := foldlM_invariant (fun catalog : Catalog =>
      catalog.FromRows (Versioned.entitiesAt snapshotId db.schemas)
        (Versioned.entitiesAt snapshotId db.tables)) afterTables
    (fun state view next _ rows stepped => rows.setView db snapshotId view next stepped) views
  exact foldlM_invariant (fun catalog : Catalog =>
      catalog.FromRows (Versioned.entitiesAt snapshotId db.schemas)
        (Versioned.entitiesAt snapshotId db.tables)) afterViews
    (fun state entity next _ rows stepped => rows.setMacro db entity next stepped) macros

theorem setTable_byId
    (env : Environment)
    (db : Database)
    (snapshotId : Int)
    (catalog next : Catalog)
    (row : DucklakeTable)
    (success : setTable env db snapshotId catalog row = .ok next) :
    next.tableArena.byId =
      catalog.tableArena.byId.insert row.tableId catalog.tableArena.arena.length := by
  obtain ⟨schema, _, success⟩ := bind_eq_ok.mp success
  obtain ⟨columns, _, success⟩ := bind_eq_ok.mp success
  obtain ⟨partition, _, success⟩ := bind_eq_ok.mp success
  obtain ⟨sortInfo, _, success⟩ := bind_eq_ok.mp success
  obtain rfl := Except.ok.inj success
  rfl

theorem load_finds
    (env : Environment)
    (db : Database)
    (snapshotId : Int)
    (catalog : Catalog)
    (success : load env db snapshotId = .ok catalog)
    (row : DucklakeTable)
    (seen : row ∈ Versioned.entitiesAt snapshotId db.tables) :
    ∃ ref, catalog.tableRefById row.tableId = .ok ref := by
  obtain ⟨withTables, tables, success⟩ := bind_eq_ok.mp success
  obtain ⟨withViews, views, macros⟩ := bind_eq_ok.mp success
  have listed : ∀ (rows : List DucklakeTable) (start next : Catalog),
      rows.foldlM (setTable env db snapshotId) start = .ok next →
        (∀ id ∈ start.tableArena.byId.keys, id ∈ next.tableArena.byId.keys) ∧
          ∀ row ∈ rows, row.tableId ∈ next.tableArena.byId.keys := by
    intro rows
    induction rows with
    | nil =>
        intro start next finished
        obtain rfl := Except.ok.inj finished
        exact ⟨fun _ member => member, fun _ member => nomatch member⟩
    | cons row rest ih =>
        intro start next taken
        rw [List.foldlM_cons] at taken
        obtain ⟨middle, stepped, taken⟩ := bind_eq_ok.mp taken
        obtain ⟨kept, added⟩ := ih middle next taken
        have stored := setTable_byId env db snapshotId start middle row stepped
        have keys : ∀ id, id = row.tableId ∨ id ∈ start.tableArena.byId.keys →
            id ∈ middle.tableArena.byId.keys := by
          intro id either
          rw [stored, ← IndexMap.contains_iff, IndexMap.contains, IndexMap.get?_insert]
          obtain rfl | old := either
          · simp
          · split
            · rfl
            · exact (IndexMap.contains_iff _ id).mpr old
        refine ⟨fun id old => kept id (keys id (Or.inr old)), ?_⟩
        exact List.forall_mem_cons.mpr ⟨kept _ (keys _ (Or.inl rfl)), added⟩
  have present := (listed _ _ _ tables).2 row seen
  have afterViews := foldlM_invariant (fun catalog : Catalog =>
      row.tableId ∈ catalog.tableArena.byId.keys) present
    (fun state view next _ found stepped => by
      obtain ⟨schema, _, stepped⟩ := bind_eq_ok.mp stepped
      obtain ⟨aliases, _, stepped⟩ := bind_eq_ok.mp stepped
      obtain rfl := Except.ok.inj stepped
      exact found) views
  have found := foldlM_invariant (fun catalog : Catalog =>
      row.tableId ∈ catalog.tableArena.byId.keys) afterViews
    (fun state entity next _ found stepped => by
      obtain ⟨schema, _, stepped⟩ := bind_eq_ok.mp stepped
      obtain ⟨macro_, _, stepped⟩ := bind_eq_ok.mp stepped
      obtain rfl := Except.ok.inj stepped
      exact found) macros
  obtain ⟨idx, located⟩ := Option.isSome_iff_exists.mp ((IndexMap.contains_iff _ _).mpr found)
  refine ⟨⟨idx⟩, ?_⟩
  unfold tableRefById Arena.mapId
  rw [located]

theorem load_paths
    (env : Environment)
    (db : Database)
    (snapshotId : Int)
    (catalog : Catalog)
    (success : load env db snapshotId = .ok catalog)
    (tableId : Int)
    (ref : TableRef)
    (found : catalog.tableRefById tableId = .ok ref)
    (schemaRef : SchemaRef)
    (parent : catalog.parentSchema (catalog.table ref).name = .ok schemaRef) :
    ∃ row ∈ Versioned.entitiesAt snapshotId db.tables,
      ∃ owner ∈ Versioned.entitiesAt snapshotId db.schemas,
        ∃ schema ∈ Versioned.entitiesAt snapshotId db.schemas,
          row.tableId = tableId ∧ row.schemaId = owner.schemaId ∧
            schema.schemaName = owner.schemaName ∧
            (catalog.table ref).path =
              .new (pathOrDefault row.path row.tableName) row.pathIsRelative ∧
            (catalog.schema schemaRef).path =
              .new (pathOrDefault schema.path schema.schemaName) schema.pathIsRelative := by
  have rows := load_fromRows env db snapshotId catalog success
  unfold tableRefById at found
  cases located : catalog.tableArena.mapId tableId with
  | none => simp [located] at found
  | some idx =>
      simp only [located, Except.ok.injEq] at found
      obtain rfl := found
      obtain ⟨table, tableInside, own⟩ := rows.tableIds tableId idx located
      have sameTable : catalog.table ⟨idx⟩ = table := by
        simp [Catalog.table, Arena.get, List.getD_eq_getElem?_getD, tableInside]
      obtain ⟨row, listed, owner, ownerListed, id, refers, name, path⟩ :=
        rows.tableRows table (List.mem_of_getElem? tableInside)
      rw [sameTable] at parent ⊢
      unfold parentSchema Catalog.schemaRef at parent
      cases named : catalog.schemas.get? table.name.schema with
      | none => simp [named] at parent
      | some schemaIdx =>
          simp only [named, Except.ok.injEq] at parent
          obtain rfl := parent
          obtain ⟨schema, schemaInside, schemaName⟩ := rows.names _ _ named
          have sameSchema : catalog.schema ⟨schemaIdx⟩ = schema := by
            simp [Catalog.schema, Arena.get, List.getD_eq_getElem?_getD, schemaInside]
          obtain ⟨schemaRow, schemaListed, _, rowName, schemaPath⟩ :=
            rows.schemaRows schema (List.mem_of_getElem? schemaInside)
          rw [sameSchema]
          exact ⟨row, listed, owner, ownerListed, schemaRow, schemaListed,
            Option.some.inj (id.symm.trans own), refers,
            rowName.symm.trans (schemaName.trans name), path, schemaPath⟩

end Catalog

end Ducklake
