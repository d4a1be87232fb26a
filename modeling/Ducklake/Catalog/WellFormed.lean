import Ducklake.Catalog.Load
import Ducklake.Catalog.Objects
import Ducklake.Lib.Except

/-!
# Well-formed catalogs

The indexes of a catalog point into its arenas.  Every mutator keeps this, and only adds objects
without an id: references and ids stay what they are.
-/

set_option autoImplicit false

namespace Ducklake

open Lib Spec

namespace ObjectRef

def isPartition : ObjectRef → Bool
  | partition _ => true
  | _ => false

end ObjectRef

namespace Catalog

structure WellFormed (catalog : Catalog) : Prop where
  schemas : ∀ name idx, catalog.schemas.get? name = some idx →
    idx < catalog.schemaArena.arena.length
  tables : ∀ ref name idx, (catalog.schema ref).tables.get? name = some idx →
    idx < catalog.tableArena.arena.length
  views : ∀ ref name idx, (catalog.schema ref).views.get? name = some idx →
    idx < catalog.viewArena.arena.length
  macros : ∀ ref key idx, (catalog.schema ref).macros.get? key = some idx →
    idx < catalog.macroArena.arena.length

/-- The second catalog has the objects of the first one, with the same ids. -/
structure Grows (before after : Catalog) : Prop where
  idOf : ∀ key : ObjectRef, key.isPartition = false → after.idOf key = before.idOf key
  partitionId : ∀ ref id, after.partitionId ref = some id → before.partitionId ref = some id
  has : ∀ key : ObjectRef, key.isPartition = false → before.Has key → after.Has key
  wellFormed : before.WellFormed → after.WellFormed

namespace Grows

theorem refl (catalog : Catalog) : catalog.Grows catalog :=
  ⟨fun _ _ => rfl, fun _ _ found => found, fun _ _ present => present, id⟩

theorem trans
    {first second third : Catalog}
    (earlier : first.Grows second)
    (later : second.Grows third) :
    first.Grows third where
  idOf key plain := (later.idOf key plain).trans (earlier.idOf key plain)
  partitionId ref id found := earlier.partitionId ref id (later.partitionId ref id found)
  has key plain present := later.has key plain (earlier.has key plain present)
  wellFormed sound := later.wellFormed (earlier.wellFormed sound)

end Grows

/-! ## References -/

section

variable {catalog : Catalog}

theorem WellFormed.schemaRef
    (sound : catalog.WellFormed)
    (name : Text)
    (ref : SchemaRef)
    (found : catalog.schemaRef name = .ok ref) :
    catalog.Has (.schema ref) := by
  unfold Catalog.schemaRef at found
  split at found
  · rename_i idx entry
    cases found
    exact sound.schemas name idx entry
  · cases found

theorem WellFormed.tableRef
    (sound : catalog.WellFormed)
    (name : QualifiedName)
    (ref : TableRef)
    (found : catalog.tableRef name = .ok ref) :
    catalog.Has (.table ref) := by
  obtain ⟨schema, _, found⟩ := bind_eq_ok.mp found
  split at found
  · rename_i idx entry
    cases found
    exact sound.tables schema name.name idx entry
  · cases found

theorem WellFormed.viewRef
    (sound : catalog.WellFormed)
    (name : QualifiedName)
    (ref : ViewRef)
    (found : catalog.viewRef name = .ok ref) :
    catalog.Has (.view ref) := by
  obtain ⟨schema, _, found⟩ := bind_eq_ok.mp found
  split at found
  · rename_i idx entry
    cases found
    exact sound.views schema name.name idx entry
  · cases found

theorem WellFormed.macroRef
    (sound : catalog.WellFormed)
    (name : QualifiedName)
    (macroType : MacroType)
    (ref : MacroRef)
    (found : catalog.macroRef name macroType = .ok ref) :
    catalog.Has (.macro_ ref) := by
  obtain ⟨schema, _, found⟩ := bind_eq_ok.mp found
  split at found
  · rename_i idx entry
    cases found
    exact sound.macros schema _ idx entry
  · cases found

end

/-! ## Updates in place -/

theorem modifyTable_grows
    (catalog : Catalog)
    (ref : TableRef)
    (update : CatalogTable → CatalogTable)
    (sameId : ∀ table, (update table).id = table.id)
    (samePartition : ∀ table id, (update table).partition.bind CatalogTablePartition.id = some id →
      table.partition.bind CatalogTablePartition.id = some id) :
    catalog.Grows (catalog.modifyTable ref update) where
  idOf key plain := by
    cases key with
    | table other => exact Arena.map_get_modify _ _ _ _ CatalogTable.id sameId
    | partition _ => cases plain
    | schema _ | view _ | macro_ _ => rfl
  partitionId other id found := by
    have partitionOf : ∀ {first second : CatalogTable}, first = second →
        first.partition.bind CatalogTablePartition.id = some id →
          second.partition.bind CatalogTablePartition.id = some id := by
      rintro first _ rfl given
      exact given
    by_cases same : other = ref
    · subst same
      by_cases present : other.idx < catalog.tableArena.arena.length
      · exact samePartition _ id (partitionOf (Arena.get_modify_self _ _ _ present) found)
      · exact partitionOf (Arena.get_modify_of_absent _ _ _ _ (Nat.le_of_not_lt present)) found
    · exact partitionOf
        (Arena.get_modify_of_ne _ _ _ _ fun back => same (congrArg TableRef.mk back)) found
  has key plain present := by
    cases key with
    | table other =>
        exact Nat.lt_of_lt_of_eq present (Arena.length_modify _ _ _).symm
    | partition _ => cases plain
    | schema _ | view _ | macro_ _ => exact present
  wellFormed sound :=
    { schemas := sound.schemas
      views := sound.views
      macros := sound.macros
      tables := fun other name idx found =>
        Nat.lt_of_lt_of_eq (sound.tables other name idx found) (Arena.length_modify _ _ _).symm }

/-- An update of a table's data that leaves its id and its partitioning alone. -/
theorem modifyTable_grows_of_same
    (catalog : Catalog)
    (ref : TableRef)
    (update : CatalogTable → CatalogTable)
    (sameId : ∀ table, (update table).id = table.id)
    (samePartition : ∀ table, (update table).partition = table.partition) :
    catalog.Grows (catalog.modifyTable ref update) :=
  catalog.modifyTable_grows ref update sameId fun table id found => by
    rw [samePartition] at found
    exact found

theorem modifyColumn_grows
    (catalog : Catalog)
    (ref : ColumnRef)
    (update : CatalogColumn → CatalogColumn) :
    catalog.Grows (catalog.modifyColumn ref update) :=
  catalog.modifyTable_grows_of_same _ _ (fun _ => rfl) fun _ => rfl

/-- What an update of a schema may do to the index of one kind of objects. -/
def KeepsBelow {κ : Type} [DecidableEq κ] (bound : Nat) (before after : IndexMap κ ArenaIdx) :
    Prop :=
  (∀ key idx, before.get? key = some idx → idx < bound) →
    ∀ key idx, after.get? key = some idx → idx < bound

theorem KeepsBelow.refl {κ : Type} [DecidableEq κ] (bound : Nat) (map : IndexMap κ ArenaIdx) :
    KeepsBelow bound map map :=
  id

theorem KeepsBelow.insert
    {κ : Type}
    [DecidableEq κ]
    (bound : Nat)
    (map : IndexMap κ ArenaIdx)
    (key : κ)
    (idx : ArenaIdx)
    (below : idx < bound) :
    KeepsBelow bound map (map.insert key idx) := by
  intro before other value found
  rw [IndexMap.get?_insert] at found
  split at found
  · cases found
    exact below
  · exact before other value found

theorem KeepsBelow.erase
    {κ : Type}
    [DecidableEq κ]
    (bound : Nat)
    (map : IndexMap κ ArenaIdx)
    (key : κ) :
    KeepsBelow bound map (map.erase key) := by
  intro before other value found
  rw [IndexMap.get?_erase] at found
  split at found
  · cases found
  · exact before other value found

theorem modifySchema_grows
    (catalog : Catalog)
    (ref : SchemaRef)
    (update : CatalogSchema → CatalogSchema)
    (sameId : ∀ entity, (update entity).id = entity.id)
    (tables : KeepsBelow catalog.tableArena.arena.length (catalog.schema ref).tables
      (update (catalog.schema ref)).tables)
    (views : KeepsBelow catalog.viewArena.arena.length (catalog.schema ref).views
      (update (catalog.schema ref)).views)
    (macros : KeepsBelow catalog.macroArena.arena.length (catalog.schema ref).macros
      (update (catalog.schema ref)).macros) :
    catalog.Grows (catalog.modifySchema ref update) := by
  have schemaCases : ∀ other, (catalog.modifySchema ref update).schema other =
      update (catalog.schema ref) ∨
      (catalog.modifySchema ref update).schema other = catalog.schema other := by
    intro other
    by_cases same : other = ref
    · subst same
      by_cases present : other.idx < catalog.schemaArena.arena.length
      · exact Or.inl (Arena.get_modify_self _ _ _ present)
      · exact Or.inr (Arena.get_modify_of_absent _ _ _ _ (Nat.le_of_not_lt present))
    · exact Or.inr
        (Arena.get_modify_of_ne _ _ _ _ fun back => same (congrArg SchemaRef.mk back))
  exact {
    idOf := fun key plain => by
      cases key with
      | schema other => exact Arena.map_get_modify _ _ _ _ CatalogSchema.id sameId
      | table _ | view _ | macro_ _ | partition _ => rfl
    partitionId := fun _ _ found => found
    has := fun key plain present => by
      cases key with
      | schema other => exact Nat.lt_of_lt_of_eq present (Arena.length_modify _ _ _).symm
      | table _ | view _ | macro_ _ | partition _ => exact present
    wellFormed := fun sound => {
      schemas := fun name idx found =>
        Nat.lt_of_lt_of_eq (sound.schemas name idx found) (Arena.length_modify _ _ _).symm
      tables := fun other name idx found => by
        rcases schemaCases other with updated | unchanged
        · rw [updated] at found
          exact tables (sound.tables ref) name idx found
        · rw [unchanged] at found
          exact sound.tables other name idx found
      views := fun other name idx found => by
        rcases schemaCases other with updated | unchanged
        · rw [updated] at found
          exact views (sound.views ref) name idx found
        · rw [unchanged] at found
          exact sound.views other name idx found
      macros := fun other key idx found => by
        rcases schemaCases other with updated | unchanged
        · rw [updated] at found
          exact macros (sound.macros ref) key idx found
        · rw [unchanged] at found
          exact sound.macros other key idx found } }

theorem modifySchema_wellFormed
    (catalog : Catalog)
    (ref : SchemaRef)
    (update : CatalogSchema → CatalogSchema)
    (sameId : ∀ entity, (update entity).id = entity.id)
    (tables : KeepsBelow catalog.tableArena.arena.length (catalog.schema ref).tables
      (update (catalog.schema ref)).tables)
    (views : KeepsBelow catalog.viewArena.arena.length (catalog.schema ref).views
      (update (catalog.schema ref)).views)
    (macros : KeepsBelow catalog.macroArena.arena.length (catalog.schema ref).macros
      (update (catalog.schema ref)).macros)
    (sound : catalog.WellFormed) :
    (catalog.modifySchema ref update).WellFormed :=
  (modifySchema_grows catalog ref update sameId tables views macros).wellFormed sound

/-! ## New entities -/

theorem pushSchema_grows
    (catalog : Catalog)
    (entity : CatalogSchema)
    (pending : entity.id = none)
    (tables : entity.tables = .empty)
    (views : entity.views = .empty)
    (macros : entity.macros = .empty)
    (schemas : IndexMap Text ArenaIdx)
    (below : KeepsBelow (catalog.schemaArena.arena.length + 1) catalog.schemas schemas) :
    catalog.Grows { catalog with
      schemaArena := catalog.schemaArena.push entity none
      schemas := schemas } where
  idOf key plain := by
    cases key with
    | schema ref => exact Arena.map_get_push _ _ _ _ CatalogSchema.id pending
    | table _ | view _ | macro_ _ | partition _ => rfl
  partitionId _ _ found := found
  has key plain present := by
    cases key with
    | schema ref =>
        have grown : (catalog.schemaArena.push entity none).arena.length =
            catalog.schemaArena.arena.length + 1 := by simp [Arena.push]
        exact Nat.lt_of_lt_of_le (Nat.lt_succ_of_lt present) (Nat.le_of_eq grown.symm)
    | table _ | view _ | macro_ _ | partition _ => exact present
  wellFormed sound := {
    schemas := by
      have grown : (catalog.schemaArena.push entity none).arena.length =
          catalog.schemaArena.arena.length + 1 := by simp [Arena.push]
      intro name idx found
      dsimp only
      rw [grown]
      exact below (fun name idx found => Nat.lt_succ_of_lt (sound.schemas name idx found)) name idx
        found
    tables := fun ref name idx found => sound.tables ref name idx <|
      (congrArg (fun map => IndexMap.get? map name)
        (Arena.map_get_push catalog.schemaArena entity none ref.idx CatalogSchema.tables
          tables)).symm.trans found
    views := fun ref name idx found => sound.views ref name idx <|
      (congrArg (fun map => IndexMap.get? map name)
        (Arena.map_get_push catalog.schemaArena entity none ref.idx CatalogSchema.views
          views)).symm.trans found
    macros := fun ref key idx found => sound.macros ref key idx <|
      (congrArg (fun map => IndexMap.get? map key)
        (Arena.map_get_push catalog.schemaArena entity none ref.idx CatalogSchema.macros
          macros)).symm.trans found }

theorem pushTable_grows
    (catalog : Catalog)
    (entity : CatalogTable)
    (pending : entity.id = none)
    (pendingPartition : entity.partition.bind CatalogTablePartition.id = none) :
    catalog.Grows { catalog with tableArena := catalog.tableArena.push entity none } where
  idOf key plain := by
    cases key with
    | table ref => exact Arena.map_get_push _ _ _ _ CatalogTable.id pending
    | partition _ => cases plain
    | schema _ | view _ | macro_ _ => rfl
  partitionId ref id found :=
    (Arena.map_get_push _ _ _ _ (fun (table : CatalogTable) =>
      table.partition.bind CatalogTablePartition.id) pendingPartition).symm.trans found
  has key plain present := by
    cases key with
    | table ref =>
        simp only [Has, Arena.push, List.length_append, List.length_singleton]
        exact Nat.lt_succ_of_lt present
    | partition _ => cases plain
    | schema _ | view _ | macro_ _ => exact present
  wellFormed sound := {
    schemas := sound.schemas
    views := sound.views
    macros := sound.macros
    tables := fun ref name idx found => by
      simp only [Arena.push, List.length_append, List.length_singleton]
      exact Nat.lt_succ_of_lt (sound.tables ref name idx found) }

theorem pushView_grows
    (catalog : Catalog)
    (entity : CatalogView)
    (pending : entity.id = none) :
    catalog.Grows { catalog with viewArena := catalog.viewArena.push entity none } where
  idOf key plain := by
    cases key with
    | view ref => exact Arena.map_get_push _ _ _ _ CatalogView.id pending
    | partition _ => cases plain
    | schema _ | table _ | macro_ _ => rfl
  partitionId _ _ found := found
  has key plain present := by
    cases key with
    | view ref =>
        simp only [Has, Arena.push, List.length_append, List.length_singleton]
        exact Nat.lt_succ_of_lt present
    | partition _ => cases plain
    | schema _ | table _ | macro_ _ => exact present
  wellFormed sound := {
    schemas := sound.schemas
    tables := sound.tables
    macros := sound.macros
    views := fun ref name idx found => by
      simp only [Arena.push, List.length_append, List.length_singleton]
      exact Nat.lt_succ_of_lt (sound.views ref name idx found) }

theorem pushMacro_grows
    (catalog : Catalog)
    (entity : CatalogMacro)
    (pending : entity.id = none) :
    catalog.Grows { catalog with macroArena := catalog.macroArena.push entity none } where
  idOf key plain := by
    cases key with
    | macro_ ref => exact Arena.map_get_push _ _ _ _ CatalogMacro.id pending
    | partition _ => cases plain
    | schema _ | table _ | view _ => rfl
  partitionId _ _ found := found
  has key plain present := by
    cases key with
    | macro_ ref =>
        simp only [Has, Arena.push, List.length_append, List.length_singleton]
        exact Nat.lt_succ_of_lt present
    | partition _ => cases plain
    | schema _ | table _ | view _ => exact present
  wellFormed sound := {
    schemas := sound.schemas
    tables := sound.tables
    views := sound.views
    macros := fun ref key idx found => by
      simp only [Arena.push, List.length_append, List.length_singleton]
      exact Nat.lt_succ_of_lt (sound.macros ref key idx found) }

/-! ## Creation -/

structure Creates (before after : Catalog) (key : ObjectRef) : Prop where
  grows : before.Grows after
  absent : ¬before.Has key
  present : after.Has key

theorem addSchema_creates
    (catalog next : Catalog)
    (name : Text)
    (path : DucklakePath)
    (ref : SchemaRef)
    (success : catalog.addSchema name path = .ok (ref, next)) :
    Creates catalog next (.schema ref) := by
  unfold addSchema at success
  split at success
  · cases success
  · cases success
    refine ⟨pushSchema_grows catalog _ rfl rfl rfl rfl _ ?_, Nat.lt_irrefl _, ?_⟩
    · exact KeepsBelow.insert _ _ _ _ (Nat.lt_succ_self _)
    · simp [Has, Arena.push]

theorem fromPartition_pending
    (partition : Partition)
    (columns : CatalogColumns)
    (result : CatalogTablePartition)
    (success : CatalogTablePartition.fromPartition partition columns = .ok result) :
    result.id = none := by
  obtain ⟨_, _, success⟩ := bind_eq_ok.mp success
  cases success
  rfl

theorem traverseOption_eq_some
    {α β : Type}
    (f : α → DucklakeResult β)
    (input : Option α)
    (result : β)
    (success : traverseOption f input = .ok (some result)) :
    ∃ value, input = some value ∧ f value = .ok result := by
  cases input with
  | none => cases success
  | some value =>
      obtain ⟨output, applied, same⟩ := map_eq_ok.mp success
      cases same
      exact ⟨value, rfl, applied⟩

theorem partition_pending
    (partitioning : Option Partition)
    (columns : CatalogColumns)
    (result : Option CatalogTablePartition)
    (success : traverseOption (CatalogTablePartition.fromPartition · columns) partitioning =
      .ok result) :
    result.bind CatalogTablePartition.id = none := by
  cases result with
  | none => rfl
  | some partition =>
      obtain ⟨value, _, built⟩ := traverseOption_eq_some _ _ _ success
      exact fromPartition_pending value columns partition built

theorem addTable_creates
    (catalog next : Catalog)
    (info : TableInfo)
    (path : DucklakePath)
    (nextColumnId : Option Int)
    (added : AddedTable)
    (success : catalog.addTable info path nextColumnId = .ok (added, next)) :
    Creates catalog next (.table added.tableRef) ∧
      catalog.schemaRef info.name.schema = .ok added.schemaRef := by
  unfold addTable at success
  split at success
  · cases success
  · split at success
    · cases success
    · obtain ⟨columns, _, success⟩ := bind_eq_ok.mp success
      obtain ⟨partition, built, success⟩ := bind_eq_ok.mp success
      obtain ⟨sortInfo, _, success⟩ := bind_eq_ok.mp success
      obtain ⟨schema, found, success⟩ := bind_eq_ok.mp success
      cases success
      refine ⟨⟨?_, Nat.lt_irrefl _, ?_⟩, found⟩
      · refine (pushTable_grows catalog _ rfl (partition_pending _ _ _ built)).trans
          (modifySchema_grows _ _ _ (fun _ => rfl) ?_ (.refl _ _) (.refl _ _))
        exact KeepsBelow.insert _ _ _ _ (by simp [Arena.push])
      · simp [Has, modifySchema, Arena.push]

theorem addView_creates
    (catalog next : Catalog)
    (info : ViewInfo)
    (schemaRef : SchemaRef)
    (viewRef : ViewRef)
    (success : catalog.addView info = .ok ((schemaRef, viewRef), next)) :
    Creates catalog next (.view viewRef) ∧
      catalog.schemaRef info.name.schema = .ok schemaRef := by
  unfold addView at success
  split at success
  · cases success
  · split at success
    · cases success
    · obtain ⟨schema, found, success⟩ := bind_eq_ok.mp success
      cases success
      refine ⟨⟨?_, Nat.lt_irrefl _, ?_⟩, found⟩
      · refine (pushView_grows catalog _ rfl).trans
          (modifySchema_grows _ _ _ (fun _ => rfl) (.refl _ _) ?_ (.refl _ _))
        exact KeepsBelow.insert _ _ _ _ (by simp [Arena.push])
      · simp [Has, modifySchema, Arena.push]

theorem addMacro_creates
    (catalog next : Catalog)
    (info : MacroInfo)
    (schemaRef : SchemaRef)
    (macroRef : MacroRef)
    (success : catalog.addMacro info = .ok ((schemaRef, macroRef), next)) :
    Creates catalog next (.macro_ macroRef) ∧
      catalog.schemaRef info.name.schema = .ok schemaRef := by
  unfold addMacro at success
  split at success
  · cases success
  · obtain ⟨schema, found, success⟩ := bind_eq_ok.mp success
    cases success
    refine ⟨⟨?_, Nat.lt_irrefl _, ?_⟩, found⟩
    · refine (pushMacro_grows catalog _ rfl).trans
        (modifySchema_grows _ _ _ (fun _ => rfl) (.refl _ _) (.refl _ _) ?_)
      exact KeepsBelow.insert _ _ _ _ (by simp [Arena.push])
    · simp [Has, modifySchema, Arena.push]

/-! ## Deletion and renaming -/

section

variable (catalog next : Catalog)

theorem deleteSchema_grows
    (ref : SchemaRef)
    (success : catalog.deleteSchema ref = .ok next) :
    catalog.Grows next := by
  unfold deleteSchema at success
  dsimp only at success
  split at success
  · cases success
  · cases success
    exact {
      idOf := fun key _ => by cases key <;> rfl
      partitionId := fun _ _ found => found
      has := fun key _ present => by cases key <;> exact present
      wellFormed := fun sound => { sound with
        schemas := fun name idx found => KeepsBelow.erase _ _ _ sound.schemas name idx found } }

theorem deleteTable_grows
    (ref : TableRef)
    (success : catalog.deleteTable ref = .ok next) :
    catalog.Grows next := by
  obtain ⟨schema, _, success⟩ := bind_eq_ok.mp success
  cases success
  exact modifySchema_grows _ _ _ (fun _ => rfl) (.erase _ _ _) (.refl _ _) (.refl _ _)

theorem deleteView_grows
    (ref : ViewRef)
    (success : catalog.deleteView ref = .ok next) :
    catalog.Grows next := by
  obtain ⟨schema, _, success⟩ := bind_eq_ok.mp success
  cases success
  exact modifySchema_grows _ _ _ (fun _ => rfl) (.refl _ _) (.erase _ _ _) (.refl _ _)

theorem deleteMacro_grows
    (ref : MacroRef)
    (success : catalog.deleteMacro ref = .ok next) :
    catalog.Grows next := by
  obtain ⟨schema, _, success⟩ := bind_eq_ok.mp success
  cases success
  exact modifySchema_grows _ _ _ (fun _ => rfl) (.refl _ _) (.refl _ _) (.erase _ _ _)

theorem renameTable_grows
    (ref : TableRef)
    (newName : Text)
    (success : catalog.renameTable ref newName = .ok next) :
    catalog.Grows next := by
  obtain ⟨schema, _, success⟩ := bind_eq_ok.mp success
  dsimp only at success
  split at success
  · cases success
  · split at success
    · cases success
    · split at success
      · cases success
      · rename_i idx found
        cases success
        apply Grows.trans
        case later =>
          exact modifyTable_grows_of_same _ _ _ (fun _ => rfl) fun _ => rfl
        refine modifySchema_grows catalog schema _ (fun _ => rfl) ?_ (.refl _ _) (.refl _ _)
        intro below key other inserted
        exact KeepsBelow.insert _ _ newName idx (below _ idx found)
          (KeepsBelow.erase _ _ _ below) key other inserted

/-! ## Columns, partitioning and sort order -/

theorem addColumn_grows
    (ref : TableRef)
    (path : List Text)
    (column : Column)
    (refs : Option ColumnRef × List ColumnRef)
    (success : catalog.addColumn ref path column = .ok (refs, next)) :
    catalog.Grows next := by
  obtain ⟨parent, _, success⟩ := bind_eq_ok.mp success
  obtain ⟨added, _, success⟩ := bind_eq_ok.mp success
  cases success
  exact modifyTable_grows_of_same _ _ _ (fun _ => rfl) fun _ => rfl

theorem updatePartitioning_grows
    (ref : TableRef)
    (partitioning : Option Partition)
    (refs : Option (List ColumnRef))
    (success : catalog.updatePartitioning ref partitioning = .ok (refs, next)) :
    catalog.Grows next := by
  obtain ⟨partition, built, success⟩ := bind_eq_ok.mp success
  cases success
  refine modifyTable_grows _ _ _ (fun _ => rfl) fun table id found => ?_
  dsimp only at found
  rw [partition_pending _ _ _ built] at found
  cases found

theorem updateSortInfo_grows
    (ref : TableRef)
    (sortInfo : Option SortInfo)
    (success : catalog.updateSortInfo ref sortInfo = .ok next) :
    catalog.Grows next := by
  obtain ⟨_, _, success⟩ := bind_eq_ok.mp success
  cases success
  exact modifyTable_grows_of_same _ _ _ (fun _ => rfl) fun _ => rfl

theorem renameColumn_grows
    (ref : ColumnRef)
    (newName : Text)
    (success : catalog.renameColumn ref newName = .ok next) :
    catalog.Grows next := by
  obtain ⟨_, _, success⟩ := bind_eq_ok.mp success
  cases success
  exact modifyTable_grows_of_same _ _ _ (fun _ => rfl) fun _ => rfl

theorem removeColumn_grows
    (ref : ColumnRef)
    (refs : List ColumnRef)
    (success : catalog.removeColumn ref = .ok (refs, next)) :
    catalog.Grows next := by
  unfold removeColumn at success
  dsimp only at success
  split at success
  · cases success
  · split at success
    · cases success
    · cases success
      exact modifyTable_grows_of_same _ _ _ (fun _ => rfl) fun _ => rfl

theorem ensureNextColumnId_grows
    (db : Database)
    (ref : TableRef)
    (success : ensureNextColumnId db catalog ref = .ok next) :
    catalog.Grows next := by
  unfold ensureNextColumnId at success
  dsimp only at success
  split at success
  · cases success
    exact .refl catalog
  · cases success
  · obtain ⟨_, _, success⟩ := bind_eq_ok.mp success
    cases success
    exact modifyTable_grows_of_same _ _ _ (fun _ => rfl) fun _ => rfl

end

end Catalog

end Ducklake
