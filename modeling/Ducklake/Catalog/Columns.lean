import Ducklake.Typedefs.Schema

/-!
# Columns of a catalog table

`CatalogColumns` of `catalog/typedefs/columns.rs`: an append-only arena of the columns of a
table, nested ones included, with its lookups and mutators.
-/

set_option autoImplicit false

namespace Ducklake

open Lib Utils

abbrev ArenaIdx := Nat

inductive CatalogDataType where
  | primitive (type : PrimitiveType)
  | list (item : ArenaIdx)
  | struct (fields : IndexMap Text ArenaIdx)
  | map (key value : ArenaIdx)
  deriving DecidableEq

instance : Inhabited CatalogDataType := ⟨.primitive .boolean⟩

/-- A root column of a table or a child column of a nested type. -/
structure CatalogColumn where
  id : Int
  name : Text
  dtype : CatalogDataType
  parentColumn : Option ArenaIdx
  nullable : Bool
  tags : Tags
  initialDefault : Option Value
  defaultValue : ColumnDefault
  deriving DecidableEq

instance : Inhabited CatalogColumn := ⟨0, [], default, none, true, default, none, .literal none⟩

structure CatalogColumns where
  arena : List CatalogColumn
  byId : IndexMap Int ArenaIdx
  rootColumns : IndexMap Text ArenaIdx
  /-- Unset when the catalog is loaded; fetched from the database on first use. -/
  nextColumnId : Option Int
  deriving DecidableEq

namespace CatalogColumns

def new (nextColumnId : Option Int) : CatalogColumns :=
  { arena := [], byId := .empty, rootColumns := .empty, nextColumnId := nextColumnId }

def column (columns : CatalogColumns) (idx : ArenaIdx) : CatalogColumn :=
  columns.arena.getD idx default

def modifyColumn (columns : CatalogColumns) (idx : ArenaIdx)
    (update : CatalogColumn → CatalogColumn) : CatalogColumns :=
  { columns with arena := columns.arena.modify idx update }

def children : CatalogDataType → List ArenaIdx
  | .primitive _ => []
  | .list item => [item]
  | .struct fields => fields.values
  | .map key value => [key, value]

/-! ## Lookups -/

def columnPathNotFound (path : List Text) : DucklakeError :=
  .notFound "column".toList (formatIdentifier path)

def columnAlreadyExists (name : Text) : DucklakeError :=
  .alreadyExists "column".toList name

/-- Columns below and including one.  Children stand behind their parents in the arena, so
its length bounds the depth of the recursion. -/
def aggregateColumnIndices (columns : CatalogColumns) : Nat → ArenaIdx → List ArenaIdx
  | 0, idx => [idx]
  | fuel + 1, idx =>
      idx :: (children (columns.column idx).dtype).flatMap (columns.aggregateColumnIndices fuel)

def rootColumnIndices (columns : CatalogColumns) : List (List ArenaIdx) :=
  columns.rootColumns.values.map (columns.aggregateColumnIndices columns.arena.length)

/-- One step of a column path below the column at `idx`. -/
def childByName (columns : CatalogColumns) (idx : ArenaIdx) (part : Text) : Option ArenaIdx :=
  match (columns.column idx).dtype with
  | .struct fields => fields.get? part
  | .list item => if part = "element".toList then some item else none
  | .map key value =>
      if part = "key".toList then some key
      else if part = "value".toList then some value else none
  | .primitive _ => none

def arenaIdxByPath (columns : CatalogColumns) (path : List Text) : DucklakeResult ArenaIdx :=
  match path with
  | [] => .error (.panicked "path[0]".toList)
  | root :: parts =>
      match columns.rootColumns.get? root >>= fun idx => parts.foldlM columns.childByName idx with
      | some idx => .ok idx
      | none => .error (columnPathNotFound path)

/-! ## Rename -/

/-- The columns by name next to a column with the given parent. -/
def siblings (columns : CatalogColumns) (parent : Option ArenaIdx) :
    DucklakeResult (IndexMap Text ArenaIdx) :=
  match parent with
  | none => .ok columns.rootColumns
  | some idx =>
      match (columns.column idx).dtype with
      | .struct fields => .ok fields
      | _ => .error (.panicked "ensure_column_unique_at_parent".toList)

def setSiblings (columns : CatalogColumns) (parent : Option ArenaIdx)
    (named : IndexMap Text ArenaIdx) : CatalogColumns :=
  match parent with
  | none => { columns with rootColumns := named }
  | some idx => columns.modifyColumn idx fun column => { column with dtype := .struct named }

def ensureColumnUniqueAtParent (columns : CatalogColumns) (parent : Option ArenaIdx)
    (name : Text) : DucklakeResult (IndexMap Text ArenaIdx) := do
  let named ← columns.siblings parent
  if named.contains name then .error (columnAlreadyExists name) else .ok named

def renameColumn (columns : CatalogColumns) (idx : ArenaIdx) (newName : Text) :
    DucklakeResult CatalogColumns := do
  let parent := (columns.column idx).parentColumn
  let oldName := (columns.column idx).name
  let named ← columns.ensureColumnUniqueAtParent parent newName
  if named.contains oldName then
    .ok ((columns.setSiblings parent (named.replaceKey oldName newName idx)).modifyColumn idx
      fun column => { column with name := newName })
  else .error (.panicked "shift_remove_full".toList)

/-! ## Remove -/

/-- A removed column leaves the id index only; its name stays where it was. -/
def removeColumn (columns : CatalogColumns) (idx : ArenaIdx) : List ArenaIdx × CatalogColumns :=
  let deletions := columns.aggregateColumnIndices columns.arena.length idx
  (deletions, { columns with
    byId := deletions.foldl (fun byId idx => byId.erase (columns.column idx).id) columns.byId })

/-! ## Add -/

def pushColumn (columns : CatalogColumns) (column : CatalogColumn) : CatalogColumns :=
  { columns with
    arena := columns.arena ++ [column]
    byId := columns.byId.insert column.id columns.arena.length }

def takeColumnId (columns : CatalogColumns) : DucklakeResult (Int × CatalogColumns) :=
  match columns.nextColumnId with
  | some id => .ok (id, { columns with nextColumnId := some (id + 1) })
  | none => .error (.panicked "next_column_id".toList)

/-- The type of a flattened column, its children standing at the given positions. -/
def flatDataType (dtype : DataType) (childIdxs : List ArenaIdx) : DucklakeResult CatalogDataType :=
  match dtype, childIdxs with
  | .primitive type, _ => .ok (.primitive type)
  | .list _, item :: _ => .ok (.list item)
  | .map _ _, key :: value :: _ => .ok (.map key value)
  | .struct fields, child :: rest =>
      .ok (.struct (IndexMap.ofList ((fields.map Column.name).zip (child :: rest))))
  | _, _ => .error (.panicked "children_by_parent".toList)

def addFlattenedColumn (firstIdx : ArenaIdx) (flattened : List FlattenedColumn)
    (parent : Option ArenaIdx) (preserveColumnIds : Bool) (columns : CatalogColumns)
    (position : Nat × FlattenedColumn) : DucklakeResult CatalogColumns := do
  let flat := position.2
  let childIdxs := flattened.zipIdx.filterMap fun entry =>
    if entry.1.parentIndex = some position.1 then some (firstIdx + entry.2) else none
  let dtype ← flatDataType flat.column.dtype childIdxs
  let (id, columns) ←
    if preserveColumnIds then
      match flat.column.fieldId with
      | some id => .ok (id, columns)
      | none => .error (.panicked "transferred columns must have field IDs".toList)
    else columns.takeColumnId
  .ok (columns.pushColumn {
    id := id
    name := flat.column.name
    dtype := dtype
    parentColumn := (flat.parentIndex.map (firstIdx + ·)).or parent
    nullable := flat.column.nullable
    tags := flat.column.tags
    initialDefault := flat.column.initialDefault
    defaultValue := flat.column.defaultValue })

/-- Append a column tree to the arena without linking it to its siblings. -/
def addColumnToArena (columns : CatalogColumns) (column : Column) (parent : Option ArenaIdx)
    (preserveColumnIds : Bool) : DucklakeResult (List ArenaIdx × CatalogColumns) := do
  let firstIdx := columns.arena.length
  let flattened := column.flatten
  let columns ← (flattened.zipIdx.map Prod.swap).foldlM
    (addFlattenedColumn firstIdx flattened parent preserveColumnIds) columns
  .ok (List.range' firstIdx flattened.length, columns)

def addColumn (columns : CatalogColumns) (parent : Option ArenaIdx) (column : Column) :
    DucklakeResult (List ArenaIdx × CatalogColumns) := do
  let _ ← columns.ensureColumnUniqueAtParent parent column.name
  let firstIdx := columns.arena.length
  let (idxs, columns) ← columns.addColumnToArena column parent false
  let named ← columns.siblings parent
  .ok (idxs, columns.setSiblings parent (named.insert column.name firstIdx))

/-! ## Schemas -/

/-- The columns of a schema.  Without the next unused id of a transfer, ids start at one. -/
def fromSchema (schema : Schema) (nextColumnId : Option Int) : DucklakeResult CatalogColumns :=
  schema.columns.values.foldlM (fun columns column => do
    let firstIdx := columns.arena.length
    let (_, columns) ← columns.addColumnToArena column none nextColumnId.isSome
    .ok { columns with rootColumns := columns.rootColumns.insert column.name firstIdx })
    (new (some (nextColumnId.getD 1)))

/-- The column tree at an index; the recursion is bounded as in `aggregateColumnIndices`. -/
def schemaColumn (columns : CatalogColumns) : Nat → ArenaIdx → Column
  | fuel, idx =>
      let column := columns.column idx
      let child : ArenaIdx → Column :=
        match fuel with
        | 0 => fun _ => .mk [] (.struct []) true default none (.literal none) none
        | fuel + 1 => columns.schemaColumn fuel
      let dtype : DataType :=
        match column.dtype with
        | .primitive type => .primitive type
        | .list item => .list (child item)
        | .struct fields => .struct (fields.values.map child)
        | .map key value => .map (child key) (child value)
      .mk column.name dtype column.nullable column.tags column.initialDefault
        column.defaultValue (some column.id)

def schemaColumnFromArenaIndex (columns : CatalogColumns) (idx : ArenaIdx) : Column :=
  columns.schemaColumn columns.arena.length idx

/-- The columns shown to the user: removed root columns are left out. -/
def schema (columns : CatalogColumns) : Schema :=
  ⟨IndexMap.ofList ((columns.rootColumns.values.filter fun idx =>
    columns.byId.contains (columns.column idx).id).map fun idx =>
      ((columns.column idx).name, columns.schemaColumnFromArenaIndex idx))⟩

/-- The types of the columns by id, removed ones included. -/
def columnDataTypes (columns : CatalogColumns) : IndexMap Int DataType :=
  IndexMap.ofList ((columns.rootColumns.values.flatMap
    (columns.aggregateColumnIndices columns.arena.length)).map fun idx =>
      ((columns.column idx).id, (columns.schemaColumnFromArenaIndex idx).dtype))

end CatalogColumns

end Ducklake
