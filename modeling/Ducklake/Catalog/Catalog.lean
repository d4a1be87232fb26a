import Ducklake.Catalog.Columns
import Ducklake.Typedefs.Objects

/-!
# The catalog

`Catalog` of `catalog/mod.rs` with its arenas, the lookups of `catalog/views` and the mutators
that a transaction applies to its local copy.
-/

set_option autoImplicit false

namespace Ducklake

open Lib Utils

/-! ## Arenas -/

/-- Append-only storage of entities with an index by entity id. -/
structure Arena (α : Type) where
  arena : List α
  byId : IndexMap Int ArenaIdx
  deriving DecidableEq

namespace Arena

variable {α : Type}

def new : Arena α :=
  { arena := [], byId := .empty }

/-- The index a pushed entity gets is the length of the arena before. -/
def push (arena : Arena α) (entity : α) (id : Option Int) : Arena α :=
  { arena := arena.arena ++ [entity]
    byId := match id with
      | some id => arena.byId.insert id arena.arena.length
      | none => arena.byId }

def registerId (arena : Arena α) (idx : ArenaIdx) (id : Int) : Arena α :=
  { arena with byId := arena.byId.insert id idx }

def mapId (arena : Arena α) (id : Int) : Option ArenaIdx :=
  arena.byId.get? id

def get [Inhabited α] (arena : Arena α) (idx : ArenaIdx) : α :=
  arena.arena.getD idx default

def modify (arena : Arena α) (idx : ArenaIdx) (update : α → α) : Arena α :=
  { arena with arena := arena.arena.modify idx update }

end Arena

/-! ## References

Opaque references to entities; they are static for the lifetime of a catalog and also exist for
entities that have no id yet. -/

structure SchemaRef where
  idx : ArenaIdx
  deriving DecidableEq, Repr

structure TableRef where
  idx : ArenaIdx
  deriving DecidableEq, Repr

structure ViewRef where
  idx : ArenaIdx
  deriving DecidableEq, Repr

structure MacroRef where
  idx : ArenaIdx
  deriving DecidableEq, Repr

structure ColumnRef where
  tableRef : TableRef
  columnIdx : ArenaIdx
  deriving DecidableEq, Repr

/-! ## Entities -/

structure CatalogSchema where
  id : Option Int
  name : Text
  tables : IndexMap Text ArenaIdx
  views : IndexMap Text ArenaIdx
  macros : IndexMap (Text × MacroType) ArenaIdx
  path : DucklakePath
  deriving DecidableEq

structure CatalogPartitionColumn where
  column : ArenaIdx
  transform : PartitionTransform
  deriving DecidableEq

structure CatalogTablePartition where
  id : Option Int
  columns : List CatalogPartitionColumn
  deriving DecidableEq

structure CatalogSortColumn where
  column : ArenaIdx
  dialect : Text
  direction : SortDirection
  nullOrder : NullOrder
  deriving DecidableEq

structure CatalogTableSortInfo where
  columns : List CatalogSortColumn
  deriving DecidableEq

structure CatalogTable where
  id : Option Int
  name : QualifiedName
  columns : CatalogColumns
  partition : Option CatalogTablePartition
  sortInfo : Option CatalogTableSortInfo
  tags : Tags
  path : DucklakePath
  deriving DecidableEq

structure CatalogView where
  id : Option Int
  name : QualifiedName
  sql : Text
  dialect : Text
  columnAliases : Option (List Text)
  tags : Tags
  deriving DecidableEq

structure CatalogMacro where
  id : Option Int
  name : QualifiedName
  macroType : MacroType
  implementations : List MacroImplementation
  deriving DecidableEq

instance : Inhabited CatalogSchema := ⟨none, [], default, default, default, .relative []⟩

instance : Inhabited CatalogTable :=
  ⟨none, ⟨[], []⟩, .new none, none, none, default, .relative []⟩

instance : Inhabited CatalogView := ⟨none, ⟨[], []⟩, [], [], none, default⟩

instance : Inhabited CatalogMacro := ⟨none, ⟨[], []⟩, .scalar, []⟩

/-- Point-in-time capture of the schemas, tables, views and macros of a DuckLake. -/
structure Catalog where
  schemaArena : Arena CatalogSchema
  tableArena : Arena CatalogTable
  viewArena : Arena CatalogView
  macroArena : Arena CatalogMacro
  schemas : IndexMap Text ArenaIdx
  deriving DecidableEq

namespace CatalogTablePartition

def fromPartition (partition : Partition) (columns : CatalogColumns) :
    DucklakeResult CatalogTablePartition := do
  let catalogColumns ← partition.mapM fun column => do
    let idx ← columns.arenaIdxByPath [column.column]
    .ok { column := idx, transform := column.transform }
  .ok { id := none, columns := catalogColumns }

def intoPartition (partition : CatalogTablePartition) (columns : CatalogColumns) : Partition :=
  partition.columns.map fun column =>
    { column := (columns.column column.column).name, transform := column.transform }

end CatalogTablePartition

namespace CatalogTableSortInfo

def columnByName (columns : CatalogColumns) (name : Text) : DucklakeResult ArenaIdx :=
  match columns.rootColumns.get? name with
  | some idx => .ok idx
  | none => .error (.notFound "column referenced by sort expression".toList name)

def fromSortInfo (sortInfo : SortInfo) (columns : CatalogColumns) :
    DucklakeResult CatalogTableSortInfo := do
  let sortColumns ← sortInfo.mapM fun expression => do
    if expression.expression.isEmpty || expression.dialect ≠ "duckdb".toList then
      .error (.invalidChanges
        "sort columns require a nonempty name and the DuckDB dialect".toList)
    else
      let idx ← columnByName columns expression.expression
      .ok {
        column := idx
        dialect := expression.dialect
        direction := expression.direction
        nullOrder := expression.nullOrder }
  .ok { columns := sortColumns }

def intoSortInfo (sortInfo : CatalogTableSortInfo) (columns : CatalogColumns) : SortInfo :=
  sortInfo.columns.map fun column => {
    expression := (columns.column column.column).name
    dialect := column.dialect
    direction := column.direction
    nullOrder := column.nullOrder }

def referencesColumn (sortInfo : CatalogTableSortInfo) (idx : ArenaIdx) : Bool :=
  sortInfo.columns.any fun column => column.column = idx

end CatalogTableSortInfo

namespace Catalog

def new : Catalog :=
  { schemaArena := .new, tableArena := .new, viewArena := .new, macroArena := .new,
    schemas := .empty }

/-! ## Entities by reference -/

def schema (catalog : Catalog) (ref : SchemaRef) : CatalogSchema :=
  catalog.schemaArena.get ref.idx

def table (catalog : Catalog) (ref : TableRef) : CatalogTable :=
  catalog.tableArena.get ref.idx

def view (catalog : Catalog) (ref : ViewRef) : CatalogView :=
  catalog.viewArena.get ref.idx

def macro_ (catalog : Catalog) (ref : MacroRef) : CatalogMacro :=
  catalog.macroArena.get ref.idx

def column (catalog : Catalog) (ref : ColumnRef) : CatalogColumn :=
  (catalog.table ref.tableRef).columns.column ref.columnIdx

def modifySchema (catalog : Catalog) (ref : SchemaRef)
    (update : CatalogSchema → CatalogSchema) : Catalog :=
  { catalog with schemaArena := catalog.schemaArena.modify ref.idx update }

def modifyTable (catalog : Catalog) (ref : TableRef)
    (update : CatalogTable → CatalogTable) : Catalog :=
  { catalog with tableArena := catalog.tableArena.modify ref.idx update }

def modifyColumn (catalog : Catalog) (ref : ColumnRef)
    (update : CatalogColumn → CatalogColumn) : Catalog :=
  catalog.modifyTable ref.tableRef fun table =>
    { table with columns := table.columns.modifyColumn ref.columnIdx update }

/-! ## References by name and by id -/

def schemaAlreadyExists (name : Text) : DucklakeError :=
  .alreadyExists "schema".toList name

def schemaNotFound (name : Text) : DucklakeError :=
  .notFound "schema".toList name

def tableAlreadyExists (name : QualifiedName) : DucklakeError :=
  .alreadyExists "table".toList name.display

def tableNotFound (name : QualifiedName) : DucklakeError :=
  .notFound "table".toList name.display

def viewAlreadyExists (name : QualifiedName) : DucklakeError :=
  .alreadyExists "view".toList name.display

def viewNotFound (name : QualifiedName) : DucklakeError :=
  .notFound "view".toList name.display

def macroAlreadyExists (name : QualifiedName) : DucklakeError :=
  .alreadyExists "macro".toList name.display

def macroNotFound (name : QualifiedName) : DucklakeError :=
  .notFound "macro".toList name.display

def schemaRef (catalog : Catalog) (name : Text) : DucklakeResult SchemaRef :=
  match catalog.schemas.get? name with
  | some idx => .ok ⟨idx⟩
  | none => .error (schemaNotFound name)

def schemaRefById (catalog : Catalog) (id : Int) : DucklakeResult SchemaRef :=
  match catalog.schemaArena.mapId id with
  | some idx => .ok ⟨idx⟩
  | none => .error (.entityNotFound id)

def tableRef (catalog : Catalog) (name : QualifiedName) : DucklakeResult TableRef := do
  let schema ← catalog.schemaRef name.schema
  match (catalog.schema schema).tables.get? name.name with
  | some idx => .ok ⟨idx⟩
  | none => .error (tableNotFound name)

def tableRefById (catalog : Catalog) (id : Int) : DucklakeResult TableRef :=
  match catalog.tableArena.mapId id with
  | some idx => .ok ⟨idx⟩
  | none => .error (.entityNotFound id)

def viewRef (catalog : Catalog) (name : QualifiedName) : DucklakeResult ViewRef := do
  let schema ← catalog.schemaRef name.schema
  match (catalog.schema schema).views.get? name.name with
  | some idx => .ok ⟨idx⟩
  | none => .error (viewNotFound name)

def macroRef (catalog : Catalog) (name : QualifiedName) (macroType : MacroType) :
    DucklakeResult MacroRef := do
  let schema ← catalog.schemaRef name.schema
  match (catalog.schema schema).macros.get? (asciiLowercase name.name, macroType) with
  | some idx => .ok ⟨idx⟩
  | none => .error (macroNotFound name)

def columnRef (catalog : Catalog) (table : TableRef) (path : List Text) :
    DucklakeResult ColumnRef := do
  let idx ← (catalog.table table).columns.arenaIdxByPath path
  .ok ⟨table, idx⟩

def columnRefById (catalog : Catalog) (table : TableRef) (id : Int) : DucklakeResult ColumnRef :=
  match (catalog.table table).columns.byId.get? id with
  | some idx => .ok ⟨table, idx⟩
  | none => .error (.columnNotFound id)

/-! ## Views on entities -/

def listSchemas (catalog : Catalog) : List SchemaRef :=
  catalog.schemas.values.map SchemaRef.mk

def listTables (catalog : Catalog) (schema : SchemaRef) : List TableRef :=
  (catalog.schema schema).tables.values.map TableRef.mk

def listViews (catalog : Catalog) (schema : SchemaRef) : List ViewRef :=
  (catalog.schema schema).views.values.map ViewRef.mk

def listMacros (catalog : Catalog) (schema : SchemaRef) : List MacroRef :=
  (catalog.schema schema).macros.values.map MacroRef.mk

def tableSchema (catalog : Catalog) (ref : TableRef) : Schema :=
  (catalog.table ref).columns.schema

def partitioning (catalog : Catalog) (ref : TableRef) : Option Partition :=
  (catalog.table ref).partition.map fun partition =>
    partition.intoPartition (catalog.table ref).columns

def sortInfo (catalog : Catalog) (ref : TableRef) : Option SortInfo :=
  (catalog.table ref).sortInfo.map fun sortInfo =>
    sortInfo.intoSortInfo (catalog.table ref).columns

def sortInfoIncludesColumn (catalog : Catalog) (ref : ColumnRef) : Bool :=
  match (catalog.table ref.tableRef).sortInfo with
  | some sortInfo => sortInfo.referencesColumn ref.columnIdx
  | none => false

def partitionId (catalog : Catalog) (ref : TableRef) : Option Int :=
  (catalog.table ref).partition.bind CatalogTablePartition.id

def columnInfo (catalog : Catalog) (ref : ColumnRef) : Column :=
  (catalog.table ref.tableRef).columns.schemaColumnFromArenaIndex ref.columnIdx

def parentRef (catalog : Catalog) (ref : ColumnRef) : Option ColumnRef :=
  (catalog.column ref).parentColumn.map (ColumnRef.mk ref.tableRef)

/-! ## Creation -/

def addSchema (catalog : Catalog) (name : Text) (path : DucklakePath) :
    DucklakeResult (SchemaRef × Catalog) :=
  if (catalog.schemaRef name).isOk then .error (schemaAlreadyExists name)
  else
    let idx := catalog.schemaArena.arena.length
    .ok (⟨idx⟩, { catalog with
      schemaArena := catalog.schemaArena.push {
        id := none
        name := name
        tables := .empty
        views := .empty
        macros := .empty
        path := path } none
      schemas := catalog.schemas.insert name idx })

structure AddedTable where
  schemaRef : SchemaRef
  tableRef : TableRef
  /-- The created columns, organized by root column. -/
  columnRefs : List (List ColumnRef)
  partitionColumnRefs : Option (List ColumnRef)

def traverseOption {α β : Type} (f : α → DucklakeResult β) : Option α → DucklakeResult (Option β)
  | none => .ok none
  | some value => (f value).map some

def addTable (catalog : Catalog) (info : TableInfo) (path : DucklakePath)
    (nextColumnId : Option Int) : DucklakeResult (AddedTable × Catalog) := do
  if let .ok existing := catalog.tableRef info.name then
    .error (tableAlreadyExists (catalog.table existing).name)
  else if let .ok existing := catalog.viewRef info.name then
    .error (viewAlreadyExists (catalog.view existing).name)
  else
    let columns ← CatalogColumns.fromSchema info.schema nextColumnId
    let partition ← traverseOption (CatalogTablePartition.fromPartition · columns)
      info.partitioning
    let sortInfo ← traverseOption (CatalogTableSortInfo.fromSortInfo · columns) info.sortInfo
    let tableIdx := catalog.tableArena.arena.length
    let schema ← catalog.schemaRef info.name.schema
    let catalog := { catalog with
      tableArena := catalog.tableArena.push {
        id := none
        name := info.name
        columns := columns
        partition := partition
        sortInfo := sortInfo
        tags := info.tags
        path := path } none }
    let catalog := catalog.modifySchema schema fun entity =>
      { entity with tables := entity.tables.insert info.name.name tableIdx }
    .ok ({
      schemaRef := schema
      tableRef := ⟨tableIdx⟩
      columnRefs := columns.rootColumnIndices.map (·.map (ColumnRef.mk ⟨tableIdx⟩))
      partitionColumnRefs := partition.map fun partition =>
        partition.columns.map fun column => ⟨⟨tableIdx⟩, column.column⟩ }, catalog)

def addView (catalog : Catalog) (info : ViewInfo) :
    DucklakeResult ((SchemaRef × ViewRef) × Catalog) := do
  if let .ok existing := catalog.viewRef info.name then
    .error (viewAlreadyExists (catalog.view existing).name)
  else if let .ok existing := catalog.tableRef info.name then
    .error (tableAlreadyExists (catalog.table existing).name)
  else
    let viewIdx := catalog.viewArena.arena.length
    let schema ← catalog.schemaRef info.name.schema
    let catalog := { catalog with
      viewArena := catalog.viewArena.push {
        id := none
        name := info.name
        sql := info.sql
        dialect := info.dialect
        columnAliases := info.columnAliases
        tags := info.tags } none }
    let catalog := catalog.modifySchema schema fun entity =>
      { entity with views := entity.views.insert info.name.name viewIdx }
    .ok ((schema, ⟨viewIdx⟩), catalog)

def addMacro (catalog : Catalog) (info : MacroInfo) :
    DucklakeResult ((SchemaRef × MacroRef) × Catalog) := do
  if let .ok existing := catalog.macroRef info.name info.macroType then
    .error (macroAlreadyExists (catalog.macro_ existing).name)
  else
    let macroIdx := catalog.macroArena.arena.length
    let schema ← catalog.schemaRef info.name.schema
    let catalog := { catalog with
      macroArena := catalog.macroArena.push {
        id := none
        name := info.name
        macroType := info.macroType
        implementations := info.implementations } none }
    let catalog := catalog.modifySchema schema fun entity =>
      { entity with
        macros := entity.macros.insert (asciiLowercase info.name.name, info.macroType) macroIdx }
    .ok ((schema, ⟨macroIdx⟩), catalog)

/-! ## Deletion -/

def deleteSchema (catalog : Catalog) (ref : SchemaRef) : DucklakeResult Catalog :=
  let entity := catalog.schema ref
  if !entity.tables.isEmpty || !entity.views.isEmpty || !entity.macros.isEmpty then
    .error (.invalidChanges
      ("cannot delete schema ".toList ++ entity.name ++ " which is not empty".toList))
  else .ok { catalog with schemas := catalog.schemas.erase entity.name }

/-- The schema that holds an entity, found by the entity's name. -/
def parentSchema (catalog : Catalog) (name : QualifiedName) : DucklakeResult SchemaRef :=
  match catalog.schemaRef name.schema with
  | .ok schema => .ok schema
  | .error _ => .error (.panicked "parent_schema".toList)

def deleteTable (catalog : Catalog) (ref : TableRef) : DucklakeResult Catalog := do
  let name := (catalog.table ref).name
  let schema ← catalog.parentSchema name
  .ok (catalog.modifySchema schema fun entity =>
    { entity with tables := entity.tables.erase name.name })

def deleteView (catalog : Catalog) (ref : ViewRef) : DucklakeResult Catalog := do
  let name := (catalog.view ref).name
  let schema ← catalog.parentSchema name
  .ok (catalog.modifySchema schema fun entity =>
    { entity with views := entity.views.erase name.name })

def deleteMacro (catalog : Catalog) (ref : MacroRef) : DucklakeResult Catalog := do
  let entity := catalog.macro_ ref
  let schema ← catalog.parentSchema entity.name
  .ok (catalog.modifySchema schema fun parent =>
    { parent with
      macros := parent.macros.erase (asciiLowercase entity.name.name, entity.macroType) })

/-! ## Changes of a table -/

def renameTable (catalog : Catalog) (ref : TableRef) (newName : Text) :
    DucklakeResult Catalog := do
  let name := (catalog.table ref).name
  let schema ← catalog.schemaRef name.schema
  let entity := catalog.schema schema
  let renamed : QualifiedName := { schema := name.schema, name := newName }
  if entity.tables.contains newName then .error (tableAlreadyExists renamed)
  else if entity.views.contains newName then .error (viewAlreadyExists renamed)
  else
    match entity.tables.get? name.name with
    | none => .error (.panicked "tables.remove".toList)
    | some idx =>
        let catalog := catalog.modifySchema schema fun entity =>
          { entity with tables := (entity.tables.erase name.name).insert newName idx }
        .ok (catalog.modifyTable ref fun table => { table with name := renamed })

/-- The column that a new column at a path becomes a child of. -/
def parentAt (catalog : Catalog) (ref : TableRef) (path : List Text) :
    DucklakeResult (Option ColumnRef) :=
  if path.isEmpty then .ok none else (catalog.columnRef ref path).map some

def addColumn (catalog : Catalog) (ref : TableRef) (path : List Text) (column : Column) :
    DucklakeResult ((Option ColumnRef × List ColumnRef) × Catalog) := do
  let parent ← catalog.parentAt ref path
  let (idxs, columns) ← (catalog.table ref).columns.addColumn
    (parent.map ColumnRef.columnIdx) column
  .ok ((parent, idxs.map (ColumnRef.mk ref)),
    catalog.modifyTable ref fun table => { table with columns := columns })

def updatePartitioning (catalog : Catalog) (ref : TableRef) (partitioning : Option Partition) :
    DucklakeResult (Option (List ColumnRef) × Catalog) := do
  let partition ← traverseOption
    (CatalogTablePartition.fromPartition · (catalog.table ref).columns) partitioning
  .ok (partition.map fun partition => partition.columns.map fun column => ⟨ref, column.column⟩,
    catalog.modifyTable ref fun table => { table with partition := partition })

def updateSortInfo (catalog : Catalog) (ref : TableRef) (sortInfo : Option SortInfo) :
    DucklakeResult Catalog := do
  let sortInfo ← traverseOption
    (CatalogTableSortInfo.fromSortInfo · (catalog.table ref).columns) sortInfo
  .ok (catalog.modifyTable ref fun table => { table with sortInfo := sortInfo })

def removeTag (tags : Tags) (key : Text) : DucklakeResult Tags :=
  if tags.contains key then .ok (tags.erase key)
  else .error (.notFound "tag".toList key)

/-! ## Changes of a column -/

def renameColumn (catalog : Catalog) (ref : ColumnRef) (newName : Text) :
    DucklakeResult Catalog := do
  let columns ← (catalog.table ref.tableRef).columns.renameColumn ref.columnIdx newName
  .ok (catalog.modifyTable ref.tableRef fun table => { table with columns := columns })

def removeColumn (catalog : Catalog) (ref : ColumnRef) :
    DucklakeResult (List ColumnRef × Catalog) :=
  let table := catalog.table ref.tableRef
  if table.partition.any fun partition =>
      partition.columns.any fun column => column.column = ref.columnIdx then
    .error (.invalidChanges ("cannot remove column from table as the table is partitioned by it" ++
      " - reset or change the partitioning on this table in order to drop this column").toList)
  else if table.sortInfo.any fun sortInfo => sortInfo.referencesColumn ref.columnIdx then
    .error (.invalidChanges ("cannot remove column from table as the table is sorted by it" ++
      " - reset or change the sort info on this table in order to drop this column").toList)
  else
    let removed := table.columns.removeColumn ref.columnIdx
    .ok (removed.1.map (ColumnRef.mk ref.tableRef),
      catalog.modifyTable ref.tableRef fun table => { table with columns := removed.2 })

/-! ## Resolution of pending ids -/

def resolveSchemaId (catalog : Catalog) (ref : SchemaRef) (id : Int) : Catalog :=
  let catalog := catalog.modifySchema ref fun schema => { schema with id := some id }
  { catalog with schemaArena := catalog.schemaArena.registerId ref.idx id }

def resolveTableId (catalog : Catalog) (ref : TableRef) (id : Int) : Catalog :=
  let catalog := catalog.modifyTable ref fun table => { table with id := some id }
  { catalog with tableArena := catalog.tableArena.registerId ref.idx id }

def resolveViewId (catalog : Catalog) (ref : ViewRef) (id : Int) : Catalog :=
  { catalog with
    viewArena := (catalog.viewArena.modify ref.idx fun view => { view with id := some id }).registerId
      ref.idx id }

def resolveMacroId (catalog : Catalog) (ref : MacroRef) (id : Int) : Catalog :=
  { catalog with
    macroArena := (catalog.macroArena.modify ref.idx
      fun entity => { entity with id := some id }).registerId ref.idx id }

def resolvePartitionId (catalog : Catalog) (ref : TableRef) (id : Int) : Catalog :=
  catalog.modifyTable ref fun table =>
    { table with partition := table.partition.map fun partition =>
      { partition with id := some id } }

end Catalog

end Ducklake
