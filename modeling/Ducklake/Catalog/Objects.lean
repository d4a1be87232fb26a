import Ducklake.Catalog.Catalog

/-!
# Objects with an id

The objects of a catalog that have an id or receive one, and what giving one out changes.
-/

set_option autoImplicit false

namespace Ducklake

open Lib

inductive ObjectRef where
  | schema (ref : SchemaRef)
  | table (ref : TableRef)
  | view (ref : ViewRef)
  | macro_ (ref : MacroRef)
  | partition (ref : TableRef)
  deriving DecidableEq

namespace Arena

variable {α : Type} [Inhabited α]

theorem get_modify_self
    (arena : Arena α)
    (idx : ArenaIdx)
    (update : α → α)
    (present : idx < arena.arena.length) :
    (arena.modify idx update).get idx = update (arena.get idx) := by
  simp [get, modify, List.getD_eq_getElem?_getD, present]

theorem get_modify_of_ne
    (arena : Arena α)
    (idx other : ArenaIdx)
    (update : α → α)
    (distinct : other ≠ idx) :
    (arena.modify idx update).get other = arena.get other := by
  simp [get, modify, List.getD_eq_getElem?_getD, Ne.symm distinct]

theorem get_modify_of_absent
    (arena : Arena α)
    (idx other : ArenaIdx)
    (update : α → α)
    (absent : arena.arena.length ≤ idx) :
    (arena.modify idx update).get other = arena.get other := by
  by_cases same : other = idx
  · subst same
    simp [get, modify, List.getD_eq_getElem?_getD, absent]
  · exact get_modify_of_ne arena idx other update same

theorem map_get_modify
    {β : Type}
    (arena : Arena α)
    (idx other : ArenaIdx)
    (update : α → α)
    (project : α → β)
    (kept : ∀ entity, project (update entity) = project entity) :
    project ((arena.modify idx update).get other) = project (arena.get other) := by
  by_cases same : other = idx
  · subst same
    by_cases present : other < arena.arena.length
    · rw [get_modify_self arena other update present, kept]
    · rw [get_modify_of_absent arena other other update (Nat.le_of_not_lt present)]
  · rw [get_modify_of_ne arena idx other update same]

omit [Inhabited α] in
@[simp] theorem length_modify
    (arena : Arena α)
    (idx : ArenaIdx)
    (update : α → α) :
    (arena.modify idx update).arena.length = arena.arena.length := by
  simp [modify]

/-- A projection that a pushed entity shares with the default is kept everywhere. -/
theorem map_get_push
    {β : Type}
    (arena : Arena α)
    (entity : α)
    (id : Option Int)
    (idx : ArenaIdx)
    (project : α → β)
    (same : project entity = project default) :
    project ((arena.push entity id).get idx) = project (arena.get idx) := by
  simp only [get, push, List.getD_eq_getElem?_getD]
  rcases Nat.lt_trichotomy idx arena.arena.length with inside | last | outside
  · rw [List.getElem?_append_left inside]
  · subst last
    simp [same]
  · rw [List.getElem?_eq_none (by simp; omega), List.getElem?_eq_none (Nat.le_of_lt outside)]

theorem get_push_length
    (arena : Arena α)
    (entity : α)
    (id : Option Int) :
    (arena.push entity id).get arena.arena.length = entity := by
  simp [get, push]

theorem get_push_of_lt
    (arena : Arena α)
    (entity : α)
    (id : Option Int)
    (idx : ArenaIdx)
    (inside : idx < arena.arena.length) :
    (arena.push entity id).get idx = arena.get idx := by
  simp [get, push, List.getD_eq_getElem?_getD, List.getElem?_append_left inside]

theorem get_push_of_ne
    (arena : Arena α)
    (entity : α)
    (id : Option Int)
    (idx : ArenaIdx)
    (distinct : idx ≠ arena.arena.length) :
    (arena.push entity id).get idx = arena.get idx := by
  rcases Nat.lt_or_gt_of_ne distinct with inside | outside
  · exact get_push_of_lt arena entity id idx inside
  · have beyond : (arena.arena ++ [entity]).length ≤ idx := by
      rw [List.length_append, List.length_singleton]
      exact outside
    simp only [get, push, List.getD_eq_getElem?_getD]
    rw [List.getElem?_eq_none beyond, List.getElem?_eq_none (Nat.le_of_lt outside)]

end Arena

namespace Catalog

def idOf (catalog : Catalog) : ObjectRef → Option Int
  | .schema ref => (catalog.schema ref).id
  | .table ref => (catalog.table ref).id
  | .view ref => (catalog.view ref).id
  | .macro_ ref => (catalog.macro_ ref).id
  | .partition ref => catalog.partitionId ref

/-- Whether the catalog has the object, with or without an id. -/
def Has (catalog : Catalog) : ObjectRef → Prop
  | .schema ref => ref.idx < catalog.schemaArena.arena.length
  | .table ref => ref.idx < catalog.tableArena.arena.length
  | .view ref => ref.idx < catalog.viewArena.arena.length
  | .macro_ ref => ref.idx < catalog.macroArena.arena.length
  | .partition ref =>
      ref.idx < catalog.tableArena.arena.length ∧ (catalog.table ref).partition.isSome

def assign (catalog : Catalog) : ObjectRef → Int → Catalog
  | .schema ref => catalog.resolveSchemaId ref
  | .table ref => catalog.resolveTableId ref
  | .view ref => catalog.resolveViewId ref
  | .macro_ ref => catalog.resolveMacroId ref
  | .partition ref => catalog.resolvePartitionId ref

theorem schemaId_modifySchema
    (catalog : Catalog)
    (ref other : SchemaRef)
    (update : CatalogSchema → CatalogSchema)
    (sameId : ∀ entity, (update entity).id = entity.id) :
    ((catalog.modifySchema ref update).schema other).id = (catalog.schema other).id :=
  Arena.map_get_modify _ _ _ _ CatalogSchema.id sameId

theorem idOf_assign_of_ne
    (catalog : Catalog)
    (key other : ObjectRef)
    (id : Int)
    (distinct : other ≠ key) :
    (catalog.assign key id).idOf other = catalog.idOf other := by
  cases key with
  | schema ref =>
      cases other with
      | schema other =>
          refine congrArg CatalogSchema.id (Arena.get_modify_of_ne _ _ _ _ fun same => distinct ?_)
          exact congrArg (fun idx => ObjectRef.schema ⟨idx⟩) same
      | table _ | view _ | macro_ _ | partition _ => rfl
  | view ref =>
      cases other with
      | view other =>
          refine congrArg CatalogView.id (Arena.get_modify_of_ne _ _ _ _ fun same => distinct ?_)
          exact congrArg (fun idx => ObjectRef.view ⟨idx⟩) same
      | table _ | schema _ | macro_ _ | partition _ => rfl
  | macro_ ref =>
      cases other with
      | macro_ other =>
          refine congrArg CatalogMacro.id (Arena.get_modify_of_ne _ _ _ _ fun same => distinct ?_)
          exact congrArg (fun idx => ObjectRef.macro_ ⟨idx⟩) same
      | table _ | schema _ | view _ | partition _ => rfl
  | table ref =>
      cases other with
      | table other =>
          refine congrArg CatalogTable.id (Arena.get_modify_of_ne _ _ _ _ fun same => distinct ?_)
          exact congrArg (fun idx => ObjectRef.table ⟨idx⟩) same
      | partition other =>
          exact Arena.map_get_modify _ _ _ _
            (fun (table : CatalogTable) => table.partition.bind CatalogTablePartition.id) fun _ => rfl
      | schema _ | view _ | macro_ _ => rfl
  | partition ref =>
      cases other with
      | table other => exact Arena.map_get_modify _ _ _ _ CatalogTable.id fun _ => rfl
      | partition other =>
          refine congrArg (fun (table : CatalogTable) => table.partition.bind CatalogTablePartition.id)
            (Arena.get_modify_of_ne _ _ _ _ fun same => distinct ?_)
          exact congrArg (fun idx => ObjectRef.partition ⟨idx⟩) same
      | schema _ | view _ | macro_ _ => rfl

theorem idOf_assign_self
    (catalog : Catalog)
    (key : ObjectRef)
    (id : Int)
    (present : catalog.Has key) :
    (catalog.assign key id).idOf key = some id := by
  cases key with
  | schema ref => exact congrArg CatalogSchema.id (Arena.get_modify_self _ _ _ present)
  | table ref => exact congrArg CatalogTable.id (Arena.get_modify_self _ _ _ present)
  | view ref => exact congrArg CatalogView.id (Arena.get_modify_self _ _ _ present)
  | macro_ ref => exact congrArg CatalogMacro.id (Arena.get_modify_self _ _ _ present)
  | partition ref =>
      obtain ⟨inside, filled⟩ := present
      obtain ⟨partition, found⟩ := Option.isSome_iff_exists.mp filled
      have updated := congrArg (fun (table : CatalogTable) => table.partition.bind CatalogTablePartition.id)
        (Arena.get_modify_self catalog.tableArena ref.idx
          (fun (table : CatalogTable) => { table with partition := table.partition.map fun partition =>
            { partition with id := some id } }) inside)
      refine updated.trans ?_
      rw [show (catalog.tableArena.get ref.idx).partition = some partition from found]
      rfl

theorem idOf_assign_of_absent
    (catalog : Catalog)
    (key : ObjectRef)
    (id : Int)
    (absent : ¬catalog.Has key) :
    (catalog.assign key id).idOf key = catalog.idOf key := by
  cases key with
  | schema ref =>
      exact congrArg CatalogSchema.id (Arena.get_modify_of_absent _ _ _ _ (Nat.le_of_not_lt absent))
  | table ref =>
      exact congrArg CatalogTable.id (Arena.get_modify_of_absent _ _ _ _ (Nat.le_of_not_lt absent))
  | view ref =>
      exact congrArg CatalogView.id (Arena.get_modify_of_absent _ _ _ _ (Nat.le_of_not_lt absent))
  | macro_ ref =>
      exact congrArg CatalogMacro.id (Arena.get_modify_of_absent _ _ _ _ (Nat.le_of_not_lt absent))
  | partition ref =>
      by_cases inside : ref.idx < catalog.tableArena.arena.length
      · have empty : (catalog.tableArena.get ref.idx).partition = none := by
          cases found : (catalog.tableArena.get ref.idx).partition with
          | none => rfl
          | some partition => exact absurd ⟨inside, Option.isSome_iff_exists.mpr ⟨_, found⟩⟩ absent
        have updated := congrArg (fun (table : CatalogTable) => table.partition.bind CatalogTablePartition.id)
          (Arena.get_modify_self catalog.tableArena ref.idx
            (fun (table : CatalogTable) => { table with partition := table.partition.map fun partition =>
              { partition with id := some id } }) inside)
        refine updated.trans ?_
        simp [idOf, partitionId, table, empty]
      · exact congrArg (fun (table : CatalogTable) => table.partition.bind CatalogTablePartition.id)
          (Arena.get_modify_of_absent _ _ _ _ (Nat.le_of_not_lt inside))

theorem columns_assign
    (catalog : Catalog)
    (key : ObjectRef)
    (id : Int)
    (ref : TableRef) :
    ((catalog.assign key id).table ref).columns = (catalog.table ref).columns := by
  cases key with
  | schema _ | view _ | macro_ _ => rfl
  | table other => exact Arena.map_get_modify _ _ _ _ CatalogTable.columns fun _ => rfl
  | partition other => exact Arena.map_get_modify _ _ _ _ CatalogTable.columns fun _ => rfl

theorem has_assign
    (catalog : Catalog)
    (key other : ObjectRef)
    (id : Int) :
    (catalog.assign key id).Has other ↔ catalog.Has other := by
  have partitions : ∀ ref : TableRef, ((catalog.assign key id).table ref).partition.isSome =
      (catalog.table ref).partition.isSome := by
    intro ref
    cases key with
    | schema _ | view _ | macro_ _ => rfl
    | table other =>
        exact Arena.map_get_modify _ _ _ _ (fun (table : CatalogTable) => table.partition.isSome) fun _ => rfl
    | partition other =>
        exact Arena.map_get_modify _ _ _ _ (fun (table : CatalogTable) => table.partition.isSome)
          fun _ => Option.isSome_map
  have tables : (catalog.assign key id).tableArena.arena.length =
      catalog.tableArena.arena.length := by
    cases key with
    | schema _ | view _ | macro_ _ => rfl
    | table _ | partition _ => exact Arena.length_modify _ _ _
  cases other with
  | table ref => simp only [Has, tables]
  | partition ref => simp only [Has, tables, partitions]
  | schema ref =>
      cases key with
      | schema _ => exact iff_of_eq (congrArg _ (Arena.length_modify _ _ _))
      | table _ | view _ | macro_ _ | partition _ => rfl
  | view ref =>
      cases key with
      | view _ => exact iff_of_eq (congrArg _ (Arena.length_modify _ _ _))
      | table _ | schema _ | macro_ _ | partition _ => rfl
  | macro_ ref =>
      cases key with
      | macro_ _ => exact iff_of_eq (congrArg _ (Arena.length_modify _ _ _))
      | table _ | schema _ | view _ | partition _ => rfl

end Catalog

end Ducklake
