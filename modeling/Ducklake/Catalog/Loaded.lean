import Ducklake.Catalog.WellFormed

/-!
# Loaded catalogs

A catalog loaded at a snapshot is well-formed, and its ids are those of rows that the snapshot
sees.
-/

set_option autoImplicit false

namespace Ducklake

open Lib Spec

namespace Catalog

/-- The ids of the rows that a snapshot sees, by the kind of the object. -/
def visibleIds (db : Database) (snapshotId : Int) : ObjectRef → List Int
  | .schema _ => (Versioned.entitiesAt snapshotId db.schemas).map DucklakeSchema.schemaId
  | .table _ => (Versioned.entitiesAt snapshotId db.tables).map DucklakeTable.tableId
  | .view _ => (Versioned.entitiesAt snapshotId db.views).map DucklakeView.viewId
  | .macro_ _ => (Versioned.entitiesAt snapshotId db.macros).map DucklakeMacro.macroId
  | .partition _ =>
      (Versioned.entitiesAt snapshotId db.partitionInfo).map DucklakePartitionInfo.partitionId

structure Loaded (db : Database) (snapshotId : Int) (catalog : Catalog) : Prop where
  wellFormed : catalog.WellFormed
  ids : ∀ key id, catalog.idOf key = some id → id ∈ visibleIds db snapshotId key

/-! ## Loading one entity -/

section

variable {db : Database} {snapshotId : Int} {catalog next : Catalog}

theorem new_loaded (db : Database) (snapshotId : Int) : new.Loaded db snapshotId where
  wellFormed := {
    schemas := fun _ _ found => by cases found
    tables := fun _ _ _ found => by cases found
    views := fun _ _ _ found => by cases found
    macros := fun _ _ _ found => by cases found }
  ids key id found := by cases key <;> cases found

theorem id_of_push
    {α : Type}
    [Inhabited α]
    (arena : Arena α)
    (entity : α)
    (id : Option Int)
    (idx : ArenaIdx)
    (project : α → Option Int)
    (found : Int)
    (given : project ((arena.push entity id).get idx) = some found) :
    project entity = some found ∨ project (arena.get idx) = some found := by
  rcases Nat.lt_trichotomy idx arena.arena.length with inside | last | outside
  · rw [Arena.get_push_of_lt arena entity id idx inside] at given
    exact Or.inr given
  · subst last
    rw [Arena.get_push_length] at given
    exact Or.inl given
  · have absent : (arena.push entity id).get idx = arena.get idx := by
      simp only [Arena.get, Arena.push, List.getD_eq_getElem?_getD]
      rw [List.getElem?_eq_none (by simp; omega), List.getElem?_eq_none (Nat.le_of_lt outside)]
    rw [absent] at given
    exact Or.inr given

theorem Loaded.setSchema
    (loaded : catalog.Loaded db snapshotId)
    (schema : DucklakeSchema)
    (visible : schema ∈ Versioned.entitiesAt snapshotId db.schemas) :
    (catalog.setSchema schema).Loaded db snapshotId := by
  have children : ∀ {κ : Type} [DecidableEq κ] (project : CatalogSchema → IndexMap κ ArenaIdx)
      (ref : SchemaRef), project default = .empty →
      (∀ entity : CatalogSchema, entity.tables = .empty → entity.views = .empty →
        entity.macros = .empty → project entity = .empty) →
      project ((catalog.setSchema schema).schema ref) = project (catalog.schema ref) := by
    intro κ _ project ref atDefault atNew
    exact Arena.map_get_push _ _ _ _ project ((atNew _ rfl rfl rfl).trans atDefault.symm)
  refine ⟨?_, ?_⟩
  · exact {
      schemas := by
        intro name idx found
        simp only [Catalog.setSchema, Arena.push, List.length_append, List.length_singleton]
        exact KeepsBelow.insert (catalog.schemaArena.arena.length + 1) catalog.schemas
          schema.schemaName catalog.schemaArena.arena.length (Nat.lt_succ_self _)
          (fun name idx found => Nat.lt_succ_of_lt (loaded.wellFormed.schemas name idx found))
          name idx found
      tables := fun ref name idx found => loaded.wellFormed.tables ref name idx
        ((congrArg (fun map => IndexMap.get? map name)
          (children CatalogSchema.tables ref rfl fun _ tables _ _ => tables)).symm.trans found)
      views := fun ref name idx found => loaded.wellFormed.views ref name idx
        ((congrArg (fun map => IndexMap.get? map name)
          (children CatalogSchema.views ref rfl fun _ _ views _ => views)).symm.trans found)
      macros := fun ref key idx found => loaded.wellFormed.macros ref key idx
        ((congrArg (fun map => IndexMap.get? map key)
          (children CatalogSchema.macros ref rfl fun _ _ _ macros => macros)).symm.trans found) }
  · intro key id found
    cases key with
    | schema ref =>
        rcases id_of_push _ _ _ _ CatalogSchema.id id found with new | old
        · cases new
          exact List.mem_map_of_mem visible
        · exact loaded.ids (.schema ref) id old
    | table ref => exact loaded.ids (.table ref) id found
    | view ref => exact loaded.ids (.view ref) id found
    | macro_ ref => exact loaded.ids (.macro_ ref) id found
    | partition ref => exact loaded.ids (.partition ref) id found

theorem loadPartition_visible
    (table : DucklakeTable)
    (columns : CatalogColumns)
    (partition : Option CatalogTablePartition)
    (id : Int)
    (success : loadPartition db snapshotId table columns = .ok partition)
    (found : partition.bind CatalogTablePartition.id = some id) :
    id ∈ (Versioned.entitiesAt snapshotId db.partitionInfo).map
      DucklakePartitionInfo.partitionId := by
  unfold loadPartition at success
  dsimp only at success
  split at success
  · cases success
    cases found
  · rename_i info selected
    split at success
    · cases success
    · obtain ⟨loaded, built, rfl⟩ := map_eq_ok.mp success
      obtain ⟨_, _, built⟩ := bind_eq_ok.mp built
      cases built
      cases found
      have member : info ∈ (Versioned.entitiesAt snapshotId db.partitionInfo).filter
          fun info => info.tableId = table.tableId := by simp [selected]
      exact List.mem_map_of_mem (List.mem_filter.mp member).1
  · cases success

theorem Loaded.setTable
    (loaded : catalog.Loaded db snapshotId)
    (env : Environment)
    (table : DucklakeTable)
    (visible : table ∈ Versioned.entitiesAt snapshotId db.tables)
    (success : setTable env db snapshotId catalog table = .ok next) :
    next.Loaded db snapshotId := by
  obtain ⟨schema, _, success⟩ := bind_eq_ok.mp success
  obtain ⟨columns, _, success⟩ := bind_eq_ok.mp success
  obtain ⟨partition, partitionOk, success⟩ := bind_eq_ok.mp success
  obtain ⟨sortInfo, _, success⟩ := bind_eq_ok.mp success
  cases success
  apply Loaded.mk
  case wellFormed =>
    apply modifySchema_wellFormed
    · exact fun _ => rfl
    · exact KeepsBelow.insert _ _ _ _ (by simp [Arena.push])
    · exact .refl _ _
    · exact .refl _ _
    · exact { loaded.wellFormed with
        tables := fun ref name idx found => by
          simp only [Arena.push, List.length_append, List.length_singleton]
          exact Nat.lt_succ_of_lt (loaded.wellFormed.tables ref name idx found) }
  case ids =>
    intro key id found
    cases key with
    | schema ref =>
        refine loaded.ids (.schema ref) id (Eq.trans ?_ found)
        symm
        apply schemaId_modifySchema
        intro _
        rfl
    | table ref =>
        rcases id_of_push _ _ _ _ CatalogTable.id id found with new | old
        · cases new
          exact List.mem_map_of_mem visible
        · exact loaded.ids (.table ref) id old
    | view ref => exact loaded.ids (.view ref) id found
    | macro_ ref => exact loaded.ids (.macro_ ref) id found
    | partition ref =>
        rcases id_of_push _ _ _ _ (fun (table : CatalogTable) =>
          table.partition.bind CatalogTablePartition.id) id found with new | old
        · exact loadPartition_visible table columns partition id partitionOk new
        · exact loaded.ids (.partition ref) id old

theorem Loaded.setView
    (loaded : catalog.Loaded db snapshotId)
    (view : DucklakeView)
    (visible : view ∈ Versioned.entitiesAt snapshotId db.views)
    (success : setView db snapshotId catalog view = .ok next) :
    next.Loaded db snapshotId := by
  obtain ⟨schema, _, success⟩ := bind_eq_ok.mp success
  obtain ⟨aliases, _, success⟩ := bind_eq_ok.mp success
  cases success
  apply Loaded.mk
  case wellFormed =>
    apply modifySchema_wellFormed
    · exact fun _ => rfl
    · exact .refl _ _
    · exact KeepsBelow.insert _ _ _ _ (by simp [Arena.push])
    · exact .refl _ _
    · exact { loaded.wellFormed with
        views := fun ref name idx found => by
          simp only [Arena.push, List.length_append, List.length_singleton]
          exact Nat.lt_succ_of_lt (loaded.wellFormed.views ref name idx found) }
  case ids =>
    intro key id found
    cases key with
    | schema ref =>
        refine loaded.ids (.schema ref) id (Eq.trans ?_ found)
        symm
        apply schemaId_modifySchema
        intro _
        rfl
    | view ref =>
        rcases id_of_push _ _ _ _ CatalogView.id id found with new | old
        · cases new
          exact List.mem_map_of_mem visible
        · exact loaded.ids (.view ref) id old
    | table ref => exact loaded.ids (.table ref) id found
    | macro_ ref => exact loaded.ids (.macro_ ref) id found
    | partition ref => exact loaded.ids (.partition ref) id found

theorem fromDucklake_id
    (id : Int)
    (name : QualifiedName)
    (implementations : List DucklakeMacroImpl)
    (parameters : List DucklakeMacroParameters)
    (loaded : CatalogMacro)
    (success : CatalogMacro.fromDucklake id name implementations parameters = .ok loaded) :
    loaded.id = some id := by
  unfold CatalogMacro.fromDucklake at success
  dsimp only at success
  split at success
  · cases success
  · obtain ⟨_, _, success⟩ := bind_eq_ok.mp success
    obtain ⟨_, _, success⟩ := bind_eq_ok.mp success
    cases success
    rfl

theorem Loaded.setMacro
    (loaded : catalog.Loaded db snapshotId)
    (entity : DucklakeMacro)
    (visible : entity ∈ Versioned.entitiesAt snapshotId db.macros)
    (success : setMacro db catalog entity = .ok next) :
    next.Loaded db snapshotId := by
  obtain ⟨schema, _, success⟩ := bind_eq_ok.mp success
  obtain ⟨macro_, macroOk, success⟩ := bind_eq_ok.mp success
  cases success
  apply Loaded.mk
  case wellFormed =>
    apply modifySchema_wellFormed
    · exact fun _ => rfl
    · exact .refl _ _
    · exact .refl _ _
    · exact KeepsBelow.insert _ _ _ _ (by simp [Arena.push])
    · exact { loaded.wellFormed with
        macros := fun ref key idx found => by
          simp only [Arena.push, List.length_append, List.length_singleton]
          exact Nat.lt_succ_of_lt (loaded.wellFormed.macros ref key idx found) }
  case ids =>
    intro key id found
    cases key with
    | schema ref =>
        refine loaded.ids (.schema ref) id (Eq.trans ?_ found)
        symm
        apply schemaId_modifySchema
        intro _
        rfl
    | macro_ ref =>
        rcases id_of_push _ _ _ _ CatalogMacro.id id found with new | old
        · rw [fromDucklake_id _ _ _ _ _ macroOk] at new
          cases new
          exact List.mem_map_of_mem visible
        · exact loaded.ids (.macro_ ref) id old
    | table ref => exact loaded.ids (.table ref) id found
    | view ref => exact loaded.ids (.view ref) id found
    | partition ref => exact loaded.ids (.partition ref) id found

end

/-! ## Loading a catalog -/

theorem foldl_setSchema_loaded
    (db : Database)
    (snapshotId : Int)
    (schemas : List DucklakeSchema)
    (catalog : Catalog)
    (visible : ∀ schema ∈ schemas, schema ∈ Versioned.entitiesAt snapshotId db.schemas)
    (loaded : catalog.Loaded db snapshotId) :
    (schemas.foldl setSchema catalog).Loaded db snapshotId := by
  induction schemas generalizing catalog with
  | nil => exact loaded
  | cons schema rest ih =>
      exact ih _ (fun other member => visible other (List.mem_cons_of_mem _ member))
        (loaded.setSchema schema (visible schema (by simp)))

theorem load_loaded
    (env : Environment)
    (db : Database)
    (snapshotId : Int)
    (catalog : Catalog)
    (success : load env db snapshotId = .ok catalog) :
    catalog.Loaded db snapshotId := by
  obtain ⟨withTables, tables, success⟩ := bind_eq_ok.mp success
  obtain ⟨withViews, views, macros⟩ := bind_eq_ok.mp success
  have schemas := foldl_setSchema_loaded db snapshotId _ new (fun _ member => member)
    (new_loaded db snapshotId)
  have tablesLoaded := foldlM_invariant (Loaded db snapshotId) schemas
    (fun state table next member loaded stepped => loaded.setTable env table member stepped) tables
  have viewsLoaded := foldlM_invariant (Loaded db snapshotId) tablesLoaded
    (fun state view next member loaded stepped => loaded.setView view member stepped) views
  exact foldlM_invariant (Loaded db snapshotId) viewsLoaded
    (fun state entity next member loaded stepped => loaded.setMacro entity member stepped) macros

end Catalog

end Ducklake
