import Mathlib.Data.List.Sort
import Ducklake.Environment
import Ducklake.Lib.Except
import Ducklake.Spec.Entities

/-!
# Loading the catalog

`Catalog::load` of `catalog/load.rs`: the catalog that a snapshot sees, built from the rows of
the metadata database in the order in which they are stored.  Rows are grouped by selection:
the rows that a snapshot sees hold every object once.
-/

set_option autoImplicit false

namespace Ducklake

open Lib Spec Utils

/-! ## Columns -/

/-- A missing order sorts first. -/
def orderLe : Option Int → Option Int → Bool
  | none, _ => true
  | some _, none => false
  | some a, some b => a ≤ b

def sortByKey {α : Type} (le : α → α → Bool) (items : List α) : List α :=
  items.insertionSort fun a b => le a b = true

def sortByOrder (columns : List DucklakeColumn) : List DucklakeColumn :=
  sortByKey (fun a b => orderLe a.columnOrder b.columnOrder) columns

def columnTags (tags : List DucklakeColumnTag) (columnId : Int) : Tags :=
  IndexMap.ofList ((tags.filter fun tag => tag.columnId = columnId).map fun tag =>
    (tag.key, tag.value))

/-- The type of a column whose children stand at the given positions of the arena. -/
def columnTypeFromDucklake (columnType : Text) (children : List (DucklakeColumn × ArenaIdx)) :
    DucklakeResult CatalogDataType :=
  if columnType = "list".toList then
    match children with
    | [child] => .ok (.list child.2)
    | _ => .error (.invalidDataType ("list must have exactly one child element but found ".toList ++
        Nat.toDigits 10 children.length))
  else if columnType = "struct".toList then do
    let sorted := sortByKey (fun a b => orderLe a.1.columnOrder b.1.columnOrder) children
    let fields ← sorted.foldlM (fun (fields : IndexMap Text ArenaIdx) child =>
      if fields.contains child.1.columnName then
        .error (CatalogColumns.columnAlreadyExists child.1.columnName)
      else .ok (fields.insert child.1.columnName child.2)) .empty
    .ok (.struct fields)
  else if columnType = "map".toList then
    if children.length ≠ 2 then
      .error (.invalidDataType
        ("map must have exactly two child elements (key and value) but found ".toList ++
          Nat.toDigits 10 children.length))
    else
      let keys := children.filter fun child => child.1.columnName = "key".toList
      let values := children.filter fun child => child.1.columnName ≠ "key".toList
      match keys.getLast?, values.getLast? with
      | none, _ => .error (.invalidDataType "map must have a child element named 'key'".toList)
      | _, none => .error (.invalidDataType "map must have a child element named 'value'".toList)
      | some key, some value => .ok (.map key.2 value.2)
  else (PrimitiveType.parse columnType).map .primitive

def nestedDefault {α : Type} (column : Text) : DucklakeResult α :=
  .error (.invalidDefault column "default value for non-primitive type is not supported".toList)

def initialDefaultFromDucklake (env : Environment) (column : DucklakeColumn)
    (dtype : CatalogDataType) : DucklakeResult (Option Value) :=
  match column.initialDefault, dtype with
  | none, _ => .ok none
  | some text, .primitive type => env.parseValue (.primitive type) text
  | some _, _ => nestedDefault column.columnName

def defaultValueFromDucklake (env : Environment) (column : DucklakeColumn)
    (dtype : CatalogDataType) : DucklakeResult ColumnDefault :=
  if column.defaultValueType = some "literal".toList then
    match column.defaultValue, dtype with
    | none, _ => .ok (.literal none)
    | some text, .primitive type => (env.parseValue (.primitive type) text).map .literal
    | some _, _ => nestedDefault column.columnName
  else if column.defaultValueType = some "expression".toList then
    match column.defaultValue with
    | some expression => .ok (.expression (column.defaultValueDialect.getD []) expression)
    | none => .error (.invalidDefault column.columnName
        "expression default value is missing expression".toList)
  else .ok (.literal none)

namespace CatalogColumns

/-- The columns of a table; a column's position in the sorted rows is its place in the arena. -/
def fromDucklake (env : Environment) (columns : List DucklakeColumn)
    (tags : List DucklakeColumnTag) : DucklakeResult CatalogColumns := do
  let sorted := sortByOrder columns
  let positions := IndexMap.ofList (sorted.zipIdx.map fun entry => (entry.1.columnId, entry.2))
  sorted.foldlM (fun (result : CatalogColumns) column => do
    let parent ← match column.parentColumn with
      | none => .ok none
      | some id =>
          match positions.get? id with
          | some idx => .ok (some idx)
          | none => .error (.panicked "id_to_arena_idx".toList)
    let children := sorted.zipIdx.filter fun entry => entry.1.parentColumn = some column.columnId
    let dtype ← columnTypeFromDucklake column.columnType children
    let initialDefault ← initialDefaultFromDucklake env column dtype
    let defaultValue ← defaultValueFromDucklake env column dtype
    let idx := result.arena.length
    let result := result.pushColumn {
      id := column.columnId
      name := column.columnName
      dtype := dtype
      parentColumn := parent
      nullable := column.nullsAllowed
      tags := columnTags tags column.columnId
      initialDefault := initialDefault
      defaultValue := defaultValue }
    match parent with
    | some _ => .ok result
    | none =>
        if result.rootColumns.contains column.columnName then
          .error (columnAlreadyExists column.columnName)
        else .ok { result with
          rootColumns := result.rootColumns.insert column.columnName idx }) (new none)

end CatalogColumns

/-! ## Partitioning and sort order -/

def CatalogTablePartition.fromDucklake (info : DucklakePartitionInfo)
    (partitionColumns : List DucklakePartitionColumn) (columns : CatalogColumns) :
    DucklakeResult CatalogTablePartition := do
  let sorted := sortByKey (fun a b => a.partitionKeyIndex ≤ b.partitionKeyIndex) partitionColumns
  let catalogColumns ← sorted.mapM fun column => do
    let transform ← PartitionTransform.parse column.transform
    match columns.byId.get? column.columnId with
    | some idx => .ok { column := idx, transform := transform }
    | none => .error (.panicked "partition column".toList)
  .ok { id := some info.partitionId, columns := catalogColumns }

def CatalogTableSortInfo.fromDucklake (info : DucklakeSortInfo)
    (expressions : List DucklakeSortExpression) (columns : CatalogColumns) :
    DucklakeResult CatalogTableSortInfo := do
  let sorted := sortByKey (fun a b => a.sortKeyIndex ≤ b.sortKeyIndex) expressions
  let sortColumns ← sorted.mapM fun expression => do
    match expression.expression with
    | none => .error (.invalidChanges
        ("sort ".toList ++ (toString info.sortId).toList ++ " has an empty expression".toList))
    | some name =>
        let idx ← columnByName columns name
        let direction ← SortDirection.parse (expression.sortDirection.getD "ASC".toList)
        let nullOrder ← NullOrder.parse (expression.nullOrder.getD "NULLS_LAST".toList)
        .ok {
          column := idx
          dialect := expression.dialect.getD "duckdb".toList
          direction := direction
          nullOrder := nullOrder }
  .ok { columns := sortColumns }

/-! ## Macros -/

def parameterFromDucklake (parameter : DucklakeMacroParameters) : MacroParameter where
  name := parameter.parameterName
  dataType := parameter.parameterType
  defaultValue := parameter.defaultValue.filter fun value =>
    !(parameter.defaultValueType = "unknown".toList && eqIgnoreAsciiCase value "NULL".toList)
  defaultValueType := parameter.defaultValueType

def CatalogMacro.fromDucklake (id : Int) (name : QualifiedName)
    (implementations : List DucklakeMacroImpl) (parameters : List DucklakeMacroParameters) :
    DucklakeResult CatalogMacro := do
  let sorted := sortByKey (fun a b => a.implId ≤ b.implId) implementations
  match sorted with
  | [] => .error (.invalidMacro
      ("macro ".toList ++ name.display ++ " has no implementations".toList))
  | first :: _ =>
      let macroType ← MacroType.parse first.type
      let implementations ← sorted.mapM fun implementation => do
        let type ← MacroType.parse implementation.type
        if type ≠ macroType then
          .error (.invalidMacro ("macro ".toList ++ name.display ++
            " mixes scalar and table implementations".toList))
        else .ok {
          dialect := implementation.dialect
          sql := implementation.sql
          parameters := (sortByKey (fun a b => a.columnId ≤ b.columnId)
            (parameters.filter fun parameter => parameter.macroId = id ∧
              parameter.implId = implementation.implId)).map parameterFromDucklake }
      .ok { id := some id, name := name, macroType := macroType,
            implementations := implementations }

/-! ## The catalog -/

/-- `default_empty_string` -/
def pathOrDefault (path name : Text) : Text :=
  if path.isEmpty then name ++ ['/'] else path

def objectTags (tags : List DucklakeTag) (objectId : Int) : Tags :=
  IndexMap.ofList ((tags.filter fun tag => tag.objectId = objectId).map fun tag =>
    (tag.key, tag.value))

namespace Catalog

def setSchema (catalog : Catalog) (schema : DucklakeSchema) : Catalog :=
  { catalog with
    schemaArena := catalog.schemaArena.push {
      id := some schema.schemaId
      name := schema.schemaName
      tables := .empty
      views := .empty
      macros := .empty
      path := .new (pathOrDefault schema.path schema.schemaName) schema.pathIsRelative
    } (some schema.schemaId)
    schemas := catalog.schemas.insert schema.schemaName catalog.schemaArena.arena.length }

def expectSchema (catalog : Catalog) (entity : String) (id : Int) : DucklakeResult SchemaRef :=
  match catalog.schemaRefById id with
  | .ok ref => .ok ref
  | .error _ => .error (.panicked
      (entity ++ " references the ID of non-existent schema").toList)

def loadPartition (db : Database) (snapshotId : Int) (table : DucklakeTable)
    (columns : CatalogColumns) : DucklakeResult (Option CatalogTablePartition) :=
  let infos := (Versioned.entitiesAt snapshotId db.partitionInfo).filter
    fun info => info.tableId = table.tableId
  match infos with
  | [] => .ok none
  | [info] => do
      let partitionColumns := db.partitionColumns.filter fun column =>
        column.tableId = table.tableId ∧ column.partitionId = info.partitionId
      if partitionColumns.isEmpty then
        .error (.invalidPartitions ("partition info exists for table ".toList ++
          table.tableName ++ " but no partition columns found".toList))
      else (CatalogTablePartition.fromDucklake info partitionColumns columns).map some
  | _ => .error (.invalidPartitions ("expected at most one partition for table ".toList ++
      table.tableName ++ " but found ".toList ++ Nat.toDigits 10 infos.length))

def loadSortInfo (db : Database) (snapshotId : Int) (table : DucklakeTable)
    (columns : CatalogColumns) : DucklakeResult (Option CatalogTableSortInfo) :=
  let infos := (Versioned.entitiesAt snapshotId db.sortInfo).filter
    fun info => info.tableId = table.tableId
  match infos with
  | [] => .ok none
  | [info] => do
      let expressions := db.sortExpressions.filter fun expression =>
        expression.tableId = table.tableId ∧ expression.sortId = info.sortId
      (CatalogTableSortInfo.fromDucklake info expressions columns).map some
  | _ => .error (.invalidChanges
      ("expected at most one active sort for table ".toList ++ table.tableName))

def setTable (env : Environment) (db : Database) (snapshotId : Int) (catalog : Catalog)
    (table : DucklakeTable) : DucklakeResult Catalog := do
  let schema ← catalog.expectSchema "table" table.schemaId
  let columns ← CatalogColumns.fromDucklake env
    ((Versioned.entitiesAt snapshotId db.columns).filter
      fun column => column.tableId = table.tableId)
    ((Versioned.entitiesAt snapshotId db.columnTags).filter
      fun tag => tag.tableId = table.tableId)
  let partition ← loadPartition db snapshotId table columns
  let sortInfo ← loadSortInfo db snapshotId table columns
  let idx := catalog.tableArena.arena.length
  let catalog := { catalog with
    tableArena := catalog.tableArena.push {
      id := some table.tableId
      name := { schema := (catalog.schema schema).name, name := table.tableName }
      columns := columns
      partition := partition
      sortInfo := sortInfo
      tags := objectTags (Versioned.entitiesAt snapshotId db.tags) table.tableId
      path := .new (pathOrDefault table.path table.tableName) table.pathIsRelative
    } (some table.tableId) }
  .ok (catalog.modifySchema schema fun entity =>
    { entity with tables := entity.tables.insert table.tableName idx })

def loadColumnAliases (aliases : Option Text) : DucklakeResult (Option (List Text)) :=
  match aliases.filter fun aliases => !aliases.isEmpty with
  | none => .ok none
  | some aliases =>
      match parseIdentifierList aliases with
      | some names => .ok (some names)
      | none => .error (.panicked
          "column_aliases must be a list of quoted identifiers".toList)

def setView (db : Database) (snapshotId : Int) (catalog : Catalog) (view : DucklakeView) :
    DucklakeResult Catalog := do
  let schema ← catalog.expectSchema "view" view.schemaId
  let columnAliases ← loadColumnAliases view.columnAliases
  let idx := catalog.viewArena.arena.length
  let catalog := { catalog with
    viewArena := catalog.viewArena.push {
      id := some view.viewId
      name := { schema := (catalog.schema schema).name, name := view.viewName }
      sql := view.sql
      dialect := view.dialect
      columnAliases := columnAliases
      tags := objectTags (Versioned.entitiesAt snapshotId db.tags) view.viewId
    } (some view.viewId) }
  .ok (catalog.modifySchema schema fun entity =>
    { entity with views := entity.views.insert view.viewName idx })

def setMacro (db : Database) (catalog : Catalog) (entity : DucklakeMacro) :
    DucklakeResult Catalog := do
  let schema ← catalog.expectSchema "macro" entity.schemaId
  let loaded ← CatalogMacro.fromDucklake entity.macroId
    { schema := (catalog.schema schema).name, name := entity.macroName }
    (db.macroImpls.filter fun implementation => implementation.macroId = entity.macroId)
    db.macroParameters
  let idx := catalog.macroArena.arena.length
  let catalog := { catalog with
    macroArena := catalog.macroArena.push loaded (some entity.macroId) }
  .ok (catalog.modifySchema schema fun parent =>
    { parent with
      macros := parent.macros.insert (asciiLowercase entity.macroName, loaded.macroType) idx })

def load (env : Environment) (db : Database) (snapshotId : Int) : DucklakeResult Catalog := do
  let catalog := (Versioned.entitiesAt snapshotId db.schemas).foldl setSchema new
  let catalog ← (Versioned.entitiesAt snapshotId db.tables).foldlM
    (setTable env db snapshotId) catalog
  let catalog ← (Versioned.entitiesAt snapshotId db.views).foldlM (setView db snapshotId) catalog
  (Versioned.entitiesAt snapshotId db.macros).foldlM (setMacro db) catalog

/-- `load_next_column_id`: one more than the largest id that any column of the table ever had. -/
def loadNextColumnId (db : Database) (tableId : Int) : DucklakeResult Int :=
  match ((db.columns.filter fun row => row.entity.tableId = tableId).map
      fun row => row.entity.columnId).max? with
  | some id => .ok (id + 1)
  -- The maximum of no rows is a null that does not decode as an integer.
  | none => .error .columnDecode

def ensureNextColumnId (db : Database) (catalog : Catalog) (ref : TableRef) :
    DucklakeResult Catalog := do
  let table := catalog.table ref
  match table.columns.nextColumnId, table.id with
  | some _, _ => .ok catalog
  | none, none => .error (.panicked "ensure_next_column_id".toList)
  | none, some tableId =>
      let next ← loadNextColumnId db tableId
      .ok (catalog.modifyTable ref fun table =>
        { table with columns := { table.columns with nextColumnId := some next } })

end Catalog

end Ducklake
