import Ducklake.Catalog.Names
import Ducklake.Transaction.Calls

/-!
# Failed calls change nothing

A call that returns an error leaves the recorded changes alone, and a catalog that no lookup tells
from the one before.  Methods that work in several steps are guarded, except for `delete_schema`:
its cascade cannot fail halfway, because the entries of a shown schema carry their own names.
-/

set_option autoImplicit false

namespace Ducklake

open Lib Caches Spec Transaction

/-! ## Lookups -/

/-- What the views on a table show: everything but the counter of column ids. -/
def CatalogTable.shown (table : CatalogTable) : CatalogTable :=
  { table with columns := { table.columns with nextColumnId := none } }

namespace Catalog

structure SameLookups (before after : Catalog) : Prop where
  listSchemas : after.listSchemas = before.listSchemas
  schemaRef : ∀ name, after.schemaRef name = before.schemaRef name
  schemaRefById : ∀ id, after.schemaRefById id = before.schemaRefById id
  schema : ∀ name ref, before.schemaRef name = .ok ref → after.schema ref = before.schema ref
  tableRef : ∀ name, after.tableRef name = before.tableRef name
  tableRefById : ∀ id, after.tableRefById id = before.tableRefById id
  table : ∀ name ref, before.tableRef name = .ok ref →
    (after.table ref).shown = (before.table ref).shown
  viewRef : ∀ name, after.viewRef name = before.viewRef name
  viewsById : ∀ id, after.viewArena.mapId id = before.viewArena.mapId id
  view : ∀ name ref, before.viewRef name = .ok ref → after.view ref = before.view ref
  macroRef : ∀ name type, after.macroRef name type = before.macroRef name type
  macrosById : ∀ id, after.macroArena.mapId id = before.macroArena.mapId id
  macro_ : ∀ name type ref, before.macroRef name type = .ok ref →
    after.macro_ ref = before.macro_ ref
  columnRef : ∀ name path, columnByPath after name path = columnByPath before name path
  columnInfo : ∀ name path ref, columnByPath before name path = .ok ref →
    after.columnInfo ref = before.columnInfo ref
  columnRefById : ∀ name ref, before.tableRef name = .ok ref → ∀ id,
    after.columnRefById ref id = before.columnRefById ref id

section

variable {before after : Catalog}

theorem columns_of_shown
    (ref : TableRef)
    (same : (after.table ref).shown = (before.table ref).shown) :
    (after.table ref).columns.arena = (before.table ref).columns.arena ∧
      (after.table ref).columns.byId = (before.table ref).columns.byId ∧
      (after.table ref).columns.rootColumns = (before.table ref).columns.rootColumns := by
  have arena : (after.table ref).shown.columns.arena = (before.table ref).shown.columns.arena := by
    rw [same]
  have byId : (after.table ref).shown.columns.byId = (before.table ref).shown.columns.byId := by
    rw [same]
  have roots : (after.table ref).shown.columns.rootColumns =
      (before.table ref).shown.columns.rootColumns := by
    rw [same]
  exact ⟨arena, byId, roots⟩

theorem arenaIdxByPath_of_same
    (columns other : CatalogColumns)
    (arena : other.arena = columns.arena)
    (roots : other.rootColumns = columns.rootColumns)
    (path : List Text) :
    other.arenaIdxByPath path = columns.arenaIdxByPath path := by
  have childByName : other.childByName = columns.childByName := by
    funext idx part
    unfold CatalogColumns.childByName CatalogColumns.column
    rw [arena]
  cases path with
  | nil => rfl
  | cons root parts =>
      unfold CatalogColumns.arenaIdxByPath
      dsimp only
      rw [roots, childByName]

theorem schemaColumn_of_same
    (columns other : CatalogColumns)
    (arena : other.arena = columns.arena)
    (fuel : Nat)
    (idx : ArenaIdx) :
    other.schemaColumn fuel idx = columns.schemaColumn fuel idx := by
  have column : other.column = columns.column := by
    funext idx
    unfold CatalogColumns.column
    rw [arena]
  induction fuel generalizing idx with
  | zero =>
      unfold CatalogColumns.schemaColumn
      rw [column]
  | succ fuel ih =>
      unfold CatalogColumns.schemaColumn
      rw [column]
      dsimp only
      rw [show other.schemaColumn fuel = columns.schemaColumn fuel from funext ih]

/-- Entities that were appended for a schema that is missing are not looked up. -/
theorem WellFormed.sameLookups
    (sound : before.WellFormed)
    (schemas : after.schemas = before.schemas)
    (schemaArena : after.schemaArena = before.schemaArena)
    (tablesById : after.tableArena.byId = before.tableArena.byId)
    (viewsById : after.viewArena.byId = before.viewArena.byId)
    (macrosById : after.macroArena.byId = before.macroArena.byId)
    (tables : ∀ ref : TableRef, before.Has (.table ref) →
      (after.table ref).shown = (before.table ref).shown)
    (views : ∀ ref : ViewRef, before.Has (.view ref) → after.view ref = before.view ref)
    (macros : ∀ ref : MacroRef, before.Has (.macro_ ref) → after.macro_ ref = before.macro_ ref) :
    before.SameLookups after := by
  have schemaRef : ∀ name, after.schemaRef name = before.schemaRef name := by
    intro name
    unfold Catalog.schemaRef
    rw [schemas]
  have schema : ∀ ref, after.schema ref = before.schema ref := by
    intro ref
    unfold Catalog.schema
    rw [schemaArena]
  have tableRef : ∀ name, after.tableRef name = before.tableRef name := by
    intro name
    unfold Catalog.tableRef
    rw [schemaRef]
    simp only [schema]
  have columnIdx : ∀ name ref, before.tableRef name = .ok ref → ∀ path,
      after.columnRef ref path = before.columnRef ref path := by
    intro name ref found path
    obtain ⟨arena, _, roots⟩ := columns_of_shown ref (tables ref (sound.tableRef name ref found))
    unfold Catalog.columnRef
    rw [arenaIdxByPath_of_same _ _ arena roots]
  constructor
  · unfold Catalog.listSchemas
    rw [schemas]
  · exact schemaRef
  · intro id
    unfold Catalog.schemaRefById
    rw [schemaArena]
  · exact fun _ ref _ => schema ref
  · exact tableRef
  · intro id
    unfold Catalog.tableRefById Arena.mapId
    rw [tablesById]
  · exact fun name ref found => tables ref (sound.tableRef name ref found)
  · intro name
    unfold Catalog.viewRef
    rw [schemaRef]
    simp only [schema]
  · intro id
    unfold Arena.mapId
    rw [viewsById]
  · exact fun name ref found => views ref (sound.viewRef name ref found)
  · intro name type
    unfold Catalog.macroRef
    rw [schemaRef]
    simp only [schema]
  · intro id
    unfold Arena.mapId
    rw [macrosById]
  · exact fun name type ref found => macros ref (sound.macroRef name type ref found)
  · intro name path
    unfold columnByPath
    rw [tableRef]
    cases found : before.tableRef name with
    | error err => rfl
    | ok ref => exact columnIdx name ref found path
  · intro name path ref found
    have foundTable := tableRef_of_columnByPath before name path ref found
    obtain ⟨arena, _, _⟩ :=
      columns_of_shown ref.tableRef (tables ref.tableRef (sound.tableRef name _ foundTable))
    unfold Catalog.columnInfo CatalogColumns.schemaColumnFromArenaIndex
    rw [schemaColumn_of_same _ _ arena, arena]
  · intro name ref found id
    obtain ⟨_, byId, _⟩ := columns_of_shown ref (tables ref (sound.tableRef name ref found))
    unfold Catalog.columnRefById
    rw [byId]

theorem WellFormed.sameLookups_refl (sound : before.WellFormed) : before.SameLookups before :=
  sound.sameLookups rfl rfl rfl rfl rfl (fun _ _ => rfl) (fun _ _ => rfl) (fun _ _ => rfl)

end

end Catalog

/-! ## One step that fails -/

namespace Transaction

structure Leaves (tx left : Transaction) : Prop where
  changes : left.changes = tx.changes
  lookups : tx.catalog.SameLookups left.catalog
  wellFormed : left.catalog.WellFormed
  named : left.catalog.Named

section

variable {tx : Transaction}

theorem Leaves.refl
    (sound : tx.catalog.WellFormed)
    (named : tx.catalog.Named) :
    tx.Leaves tx :=
  ⟨rfl, sound.sameLookups_refl, sound, named⟩

theorem leaves_withLeftover
    (sound : tx.catalog.WellFormed)
    (named : tx.catalog.Named)
    (leftover : DucklakeResult Catalog)
    (kept : ∀ catalog, leftover = .ok catalog → tx.Leaves { tx with catalog := catalog }) :
    tx.Leaves (tx.withLeftover leftover) := by
  cases leftover with
  | ok catalog => exact kept catalog rfl
  | error err => exact .refl sound named

theorem leaves_afterAddTable
    (sound : tx.catalog.WellFormed)
    (named : tx.catalog.Named)
    (info : TableInfo)
    (path : DucklakePath)
    (nextColumnId : Option Int) :
    tx.Leaves { tx with catalog := tx.catalog.afterAddTable info path nextColumnId } := by
  unfold Catalog.afterAddTable
  split
  · exact .refl sound named
  · dsimp only
    split
    · rename_i table built
      obtain ⟨columns, _, built⟩ := bind_eq_ok.mp built
      obtain ⟨partition, partitionOk, built⟩ := bind_eq_ok.mp built
      obtain ⟨sortInfo, _, built⟩ := bind_eq_ok.mp built
      cases built
      have grows := Catalog.pushTable_grows tx.catalog
        ⟨none, info.name, columns, partition, sortInfo, info.tags, path⟩ rfl
        (Catalog.partition_pending _ _ _ partitionOk)
      refine ⟨rfl, ?_, grows.wellFormed sound, named.pushTable sound _ none⟩
      exact sound.sameLookups rfl rfl rfl rfl rfl
        (fun ref present => congrArg CatalogTable.shown (Arena.get_push_of_lt _ _ _ _ present))
        (fun _ _ => rfl) fun _ _ => rfl
    · exact .refl sound named

theorem leaves_afterAddView
    (sound : tx.catalog.WellFormed)
    (named : tx.catalog.Named)
    (info : ViewInfo) :
    tx.Leaves { tx with catalog := tx.catalog.afterAddView info } := by
  unfold Catalog.afterAddView
  split
  · exact .refl sound named
  · refine ⟨rfl, ?_, (Catalog.pushView_grows tx.catalog _ rfl).wellFormed sound,
      named.pushView sound _ none⟩
    exact sound.sameLookups rfl rfl rfl rfl rfl (fun _ _ => rfl)
      (fun ref present => Arena.get_push_of_lt _ _ _ _ present) fun _ _ => rfl

theorem leaves_afterAddMacro
    (sound : tx.catalog.WellFormed)
    (named : tx.catalog.Named)
    (info : MacroInfo) :
    tx.Leaves { tx with catalog := tx.catalog.afterAddMacro info } := by
  unfold Catalog.afterAddMacro
  split
  · exact .refl sound named
  · refine ⟨rfl, ?_, (Catalog.pushMacro_grows tx.catalog _ rfl).wellFormed sound,
      named.pushMacro sound _ none⟩
    exact sound.sameLookups rfl rfl rfl rfl rfl (fun _ _ => rfl) (fun _ _ => rfl)
      fun ref present => Arena.get_push_of_lt _ _ _ _ present

theorem leaves_ensureNextColumnId
    (sound : tx.catalog.WellFormed)
    (named : tx.catalog.Named)
    (db : Database)
    (ref : TableRef)
    (catalog : Catalog)
    (ensured : Catalog.ensureNextColumnId db tx.catalog ref = .ok catalog) :
    tx.Leaves { tx with catalog := catalog } := by
  have grows := Catalog.ensureNextColumnId_grows tx.catalog catalog db ref ensured
  unfold Catalog.ensureNextColumnId at ensured
  dsimp only at ensured
  split at ensured
  · cases ensured
    exact .refl sound named
  · cases ensured
  · obtain ⟨next, _, ensured⟩ := bind_eq_ok.mp ensured
    cases ensured
    refine ⟨rfl, ?_, grows.wellFormed sound, named.modifyTable sound ref _ fun _ => rfl⟩
    exact sound.sameLookups rfl rfl rfl rfl rfl
      (fun _ _ => Arena.map_get_modify _ _ _ _ CatalogTable.shown fun _ => rfl)
      (fun _ _ => rfl) fun _ _ => rfl

theorem leaves_afterCreateTable
    (sound : tx.catalog.WellFormed)
    (named : tx.catalog.Named)
    (env : Environment)
    (name : QualifiedName)
    (columns : List Column)
    (partitionColumns : Option Partition)
    (sortInfo : Option SortInfo)
    (path : Option Text)
    (tags : Option Tags)
    (retiredColumns : Option (List DucklakeColumn)) :
    tx.Leaves (tx.afterCreateTable env name columns partitionColumns sortInfo path tags
      retiredColumns) := by
  refine leaves_withLeftover sound named _ fun catalog success => ?_
  obtain ⟨path, _, success⟩ := bind_eq_ok.mp success
  obtain ⟨schema, _, success⟩ := bind_eq_ok.mp success
  cases success
  exact leaves_afterAddTable sound named _ _ _

theorem leaves_leftover
    (sound : tx.catalog.WellFormed)
    (named : tx.catalog.Named)
    (env : Environment)
    (db : Database)
    (operation : Operation) :
    tx.Leaves (operation.leftover env db tx) := by
  cases operation with
  | createTable | createTransferTable =>
      exact leaves_afterCreateTable sound named env _ _ _ _ _ _ _
  | createView =>
      refine leaves_withLeftover sound named _ fun catalog success => ?_
      obtain ⟨sql, _, success⟩ := bind_eq_ok.mp success
      cases success
      exact leaves_afterAddView sound named _
  | createMacro =>
      refine leaves_withLeftover sound named _ fun catalog success => ?_
      obtain ⟨implementations, _, success⟩ := bind_eq_ok.mp success
      cases success
      exact leaves_afterAddMacro sound named _
  | addTableColumn name column parentPath =>
      unfold Operation.leftover Operation.afterError
      dsimp only
      split
      · rename_i catalog success
        obtain ⟨ref, _, ensured⟩ := bind_eq_ok.mp success
        exact leaves_ensureNextColumnId sound named db ref catalog ensured
      · exact .refl sound named
  | _ => exact .refl sound named

end

/-! ## The cascade of `delete_schema` -/

structure Draining (name : Text) (ref : SchemaRef) (tables views : List Text)
    (macros : List (Text × MacroType)) (tx : Transaction) : Prop where
  wellFormed : tx.catalog.WellFormed
  named : tx.catalog.Named
  found : tx.catalog.schemaRef name = .ok ref
  tables : (tx.catalog.schema ref).tables.keys = tables
  views : (tx.catalog.schema ref).views.keys = views
  macros : (tx.catalog.schema ref).macros.keys = macros

section

variable {name : Text} {ref : SchemaRef} {tx : Transaction} {tables views : List Text}
variable {macros : List (Text × MacroType)}

theorem get?_of_keys
    {κ α : Type}
    [DecidableEq κ]
    (map : IndexMap κ α)
    (key : κ)
    (rest : List κ)
    (keys : map.keys = key :: rest) :
    ∃ value, map.get? key = some value := by
  rw [← Option.isSome_iff_exists]
  exact (IndexMap.contains_iff map key).mpr (by simp [keys])

theorem keys_erase_head
    {κ α : Type}
    [DecidableEq κ]
    (map : IndexMap κ α)
    (key : κ)
    (rest : List κ)
    (keys : map.keys = key :: rest) :
    (map.erase key).keys = rest := by
  have unique : map.keys.Nodup := map.unique
  have erased : (map.erase key).keys = map.keys.filter fun other => other ≠ key := by
    simp [IndexMap.erase, IndexMap.keys, List.filter_map, Function.comp_def]
  rw [keys, List.nodup_cons] at unique
  rw [erased, keys, List.filter_cons_of_neg (by simp), List.filter_eq_self]
  intro other member
  exact decide_eq_true fun same => unique.1 (same ▸ member)

theorem Draining.present
    (draining : Draining name ref tables views macros tx) :
    ref.idx < tx.catalog.schemaArena.arena.length :=
  draining.wellFormed.schemas _ _ (Catalog.schemas_of_schemaRef name ref draining.found)

theorem Draining.deleteTable
    {key : Text}
    (draining : Draining name ref (key :: tables) views macros tx) :
    ∃ next, deleteTable ⟨name, key⟩ .fail tx = .ok next ∧
      Draining name ref tables views macros next := by
  obtain ⟨idx, held⟩ := get?_of_keys _ key tables draining.tables
  have found : tx.catalog.tableRef ⟨name, key⟩ = .ok ⟨idx⟩ := by
    refine bind_eq_ok.mpr ⟨ref, draining.found, ?_⟩
    rw [held]
  have entryName := draining.named.tableName _ _ found
  have deleted : tx.catalog.deleteTable ⟨idx⟩ = .ok (tx.catalog.modifySchema ref fun entity =>
      { entity with tables := entity.tables.erase key }) := by
    unfold Catalog.deleteTable Catalog.parentSchema
    rw [entryName]
    dsimp only
    rw [draining.found]
    rfl
  refine ⟨tx.record (tx.catalog.modifySchema ref fun entity =>
    { entity with tables := entity.tables.erase key }) (.deleteTable ⟨idx⟩ false), ?_, ?_⟩
  · unfold Transaction.deleteTable
    rw [if_neg (by simp)]
    exact bind_eq_ok.mpr ⟨_, found, bind_eq_ok.mpr ⟨_, deleted, rfl⟩⟩
  · have schema := Catalog.schema_modifySchema_self tx.catalog ref
      (fun entity => { entity with tables := entity.tables.erase key }) draining.present
    exact {
      wellFormed := (Catalog.deleteTable_grows _ _ _ deleted).wellFormed draining.wellFormed
      named := Catalog.deleteTable_named draining.named _ deleted
      found := draining.found
      tables := (congrArg (fun entity => entity.tables.keys) schema).trans
        (keys_erase_head _ key tables draining.tables)
      views := (congrArg (fun entity => entity.views.keys) schema).trans draining.views
      macros := (congrArg (fun entity => entity.macros.keys) schema).trans draining.macros }

theorem Draining.deleteView
    {key : Text}
    (draining : Draining name ref tables (key :: views) macros tx) :
    ∃ next, deleteView ⟨name, key⟩ .fail tx = .ok next ∧
      Draining name ref tables views macros next := by
  obtain ⟨idx, held⟩ := get?_of_keys _ key views draining.views
  have found : tx.catalog.viewRef ⟨name, key⟩ = .ok ⟨idx⟩ := by
    refine bind_eq_ok.mpr ⟨ref, draining.found, ?_⟩
    rw [held]
  have entryName := draining.named.views name ref.idx
    (Catalog.schemas_of_schemaRef name ref draining.found) key idx held
  have deleted : tx.catalog.deleteView ⟨idx⟩ = .ok (tx.catalog.modifySchema ref fun entity =>
      { entity with views := entity.views.erase key }) := by
    unfold Catalog.deleteView Catalog.parentSchema
    rw [entryName]
    dsimp only
    rw [draining.found]
    rfl
  refine ⟨tx.record (tx.catalog.modifySchema ref fun entity =>
    { entity with views := entity.views.erase key }) (.deleteView ⟨idx⟩), ?_, ?_⟩
  · unfold Transaction.deleteView
    rw [if_neg (by simp)]
    exact bind_eq_ok.mpr ⟨_, found, bind_eq_ok.mpr ⟨_, deleted, rfl⟩⟩
  · have schema := Catalog.schema_modifySchema_self tx.catalog ref
      (fun entity => { entity with views := entity.views.erase key }) draining.present
    exact {
      wellFormed := (Catalog.deleteView_grows _ _ _ deleted).wellFormed draining.wellFormed
      named := Catalog.deleteView_named draining.named _ deleted
      found := draining.found
      tables := (congrArg (fun entity => entity.tables.keys) schema).trans draining.tables
      views := (congrArg (fun entity => entity.views.keys) schema).trans
        (keys_erase_head _ key views draining.views)
      macros := (congrArg (fun entity => entity.macros.keys) schema).trans draining.macros }

theorem Draining.deleteMacro
    {macroName : Text}
    {macroType : MacroType}
    (draining : Draining name ref tables views
      ((asciiLowercase macroName, macroType) :: macros) tx) :
    ∃ next, deleteMacro ⟨name, macroName⟩ macroType .fail tx = .ok next ∧
      Draining name ref tables views macros next := by
  obtain ⟨idx, held⟩ := get?_of_keys _ _ macros draining.macros
  have found : tx.catalog.macroRef ⟨name, macroName⟩ macroType = .ok ⟨idx⟩ := by
    refine bind_eq_ok.mpr ⟨ref, draining.found, ?_⟩
    rw [held]
  obtain ⟨entrySchema, entryKey⟩ := draining.named.macros name ref.idx
    (Catalog.schemas_of_schemaRef name ref draining.found) _ idx held
  unfold Catalog.macroKey at entryKey
  have deleted : tx.catalog.deleteMacro ⟨idx⟩ = .ok (tx.catalog.modifySchema ref fun entity =>
      { entity with
        macros := entity.macros.erase (asciiLowercase macroName, macroType) }) := by
    unfold Catalog.deleteMacro Catalog.parentSchema
    dsimp only
    rw [entrySchema, entryKey, draining.found]
    rfl
  refine ⟨tx.record (tx.catalog.modifySchema ref fun entity =>
    { entity with macros := entity.macros.erase (asciiLowercase macroName, macroType) }) (.deleteMacro ⟨idx⟩ macroType), ?_, ?_⟩
  · unfold Transaction.deleteMacro
    rw [if_neg (by simp)]
    exact bind_eq_ok.mpr ⟨_, found, bind_eq_ok.mpr ⟨_, deleted, rfl⟩⟩
  · have schema := Catalog.schema_modifySchema_self tx.catalog ref
      (fun entity => { entity with
        macros := entity.macros.erase (asciiLowercase macroName, macroType) })
      draining.present
    exact {
      wellFormed := (Catalog.deleteMacro_grows _ _ _ deleted).wellFormed draining.wellFormed
      named := Catalog.deleteMacro_named draining.named _ deleted
      found := draining.found
      tables := (congrArg (fun entity => entity.tables.keys) schema).trans draining.tables
      views := (congrArg (fun entity => entity.views.keys) schema).trans draining.views
      macros := (congrArg (fun entity => entity.macros.keys) schema).trans
        (keys_erase_head _ _ macros draining.macros) }

theorem listTables_names
    (found : tx.catalog.schemaRef name = .ok ref)
    (named : tx.catalog.Named) :
    ((tx.catalog.listTables ref).map fun ref => (tx.catalog.table ref).name) =
      (tx.catalog.schema ref).tables.keys.map (QualifiedName.mk name) := by
  simp only [Catalog.listTables, IndexMap.values, IndexMap.keys, List.map_map]
  refine List.map_congr_left fun entry member => ?_
  exact named.tables name ref.idx (Catalog.schemas_of_schemaRef name ref found) entry.1 entry.2
    ((IndexMap.get?_eq_some_iff _ _ _).mpr member)

theorem listViews_names
    (found : tx.catalog.schemaRef name = .ok ref)
    (named : tx.catalog.Named) :
    ((tx.catalog.listViews ref).map fun ref => (tx.catalog.view ref).name) =
      (tx.catalog.schema ref).views.keys.map (QualifiedName.mk name) := by
  simp only [Catalog.listViews, IndexMap.values, IndexMap.keys, List.map_map]
  refine List.map_congr_left fun entry member => ?_
  exact named.views name ref.idx (Catalog.schemas_of_schemaRef name ref found) entry.1 entry.2
    ((IndexMap.get?_eq_some_iff _ _ _).mpr member)

theorem listMacros_names
    (found : tx.catalog.schemaRef name = .ok ref)
    (named : tx.catalog.Named) :
    let entries := (tx.catalog.listMacros ref).map fun ref =>
      ((tx.catalog.macro_ ref).name, (tx.catalog.macro_ ref).macroType)
    (∀ entry ∈ entries, entry.1.schema = name) ∧
      entries.map (fun entry => (asciiLowercase entry.1.name, entry.2)) =
        (tx.catalog.schema ref).macros.keys := by
  have entryOf : ∀ entry ∈ (tx.catalog.schema ref).macros.entries,
      (tx.catalog.macro_ ⟨entry.2⟩).name.schema = name ∧
        Catalog.macroKey (tx.catalog.macro_ ⟨entry.2⟩) = entry.1 := fun entry member =>
    named.macros name ref.idx (Catalog.schemas_of_schemaRef name ref found) entry.1 entry.2
      ((IndexMap.get?_eq_some_iff _ _ _).mpr member)
  constructor
  · intro entry member
    simp only [Catalog.listMacros, IndexMap.values, List.map_map, List.mem_map] at member
    obtain ⟨stored, inside, rfl⟩ := member
    exact (entryOf stored inside).1
  · simp only [Catalog.listMacros, IndexMap.values, IndexMap.keys, List.map_map]
    exact List.map_congr_left fun entry member => (entryOf entry member).2

theorem deleteSchemaContents_drains
    (wellFormed : tx.catalog.WellFormed)
    (named : tx.catalog.Named)
    (found : tx.catalog.schemaRef name = .ok ref) :
    ∃ next, deleteSchemaContents name tx = .ok next ∧ Draining name ref [] [] [] next := by
  -- Each list is the one of the transaction that the loops before it left.
  have tablesDrain := foldlM_drains
    (f := fun tx name => deleteTable name .fail tx)
    (fun (state : Transaction) names => ∃ keys, names = keys.map (QualifiedName.mk name) ∧
      Draining name ref keys (tx.catalog.schema ref).views.keys
        (tx.catalog.schema ref).macros.keys state)
    (by
      rintro state head rest ⟨keys, split, draining⟩
      cases keys with
      | nil => cases split
      | cons key keys =>
          obtain ⟨rfl, rfl⟩ := List.cons.inj split
          obtain ⟨next, deleted, left⟩ := draining.deleteTable
          exact ⟨next, deleted, keys, rfl, left⟩)
    _ tx ⟨_, listTables_names found named, wellFormed, named, found, rfl, rfl, rfl⟩
  obtain ⟨withoutTables, tablesDeleted, keys, noTables, first⟩ := tablesDrain
  obtain rfl : keys = [] := by simpa using noTables.symm
  have viewsDrain := foldlM_drains
    (f := fun tx name => deleteView name .fail tx)
    (fun (state : Transaction) names => ∃ keys, names = keys.map (QualifiedName.mk name) ∧
      Draining name ref [] keys (tx.catalog.schema ref).macros.keys state)
    (by
      rintro state head rest ⟨keys, split, draining⟩
      cases keys with
      | nil => cases split
      | cons key keys =>
          obtain ⟨rfl, rfl⟩ := List.cons.inj split
          obtain ⟨next, deleted, left⟩ := draining.deleteView
          exact ⟨next, deleted, keys, rfl, left⟩)
    _ withoutTables ⟨_, listViews_names first.found first.named, { first with views := rfl }⟩
  obtain ⟨withoutViews, viewsDeleted, keys, noViews, second⟩ := viewsDrain
  obtain rfl : keys = [] := by simpa using noViews.symm
  obtain ⟨ownSchema, ownKeys⟩ := listMacros_names second.found second.named
  have macrosDrain := foldlM_drains
    (f := fun tx (entry : QualifiedName × MacroType) => deleteMacro entry.1 entry.2 .fail tx)
    (fun (state : Transaction) entries => (∀ entry ∈ entries, entry.1.schema = name) ∧
      Draining name ref [] [] (entries.map fun entry => (asciiLowercase entry.1.name, entry.2))
        state)
    (by
      rintro state ⟨⟨schema, macroName⟩, macroType⟩ rest ⟨sameSchema, draining⟩
      obtain rfl : schema = name := sameSchema _ List.mem_cons_self
      obtain ⟨next, deleted, left⟩ := draining.deleteMacro
      exact ⟨next, deleted, fun entry member => sameSchema entry (List.mem_cons_of_mem _ member),
        left⟩)
    _ withoutViews ⟨ownSchema, { second with macros := ownKeys.symm }⟩
  obtain ⟨next, macrosDeleted, _, last⟩ := macrosDrain
  refine ⟨next, ?_, last⟩
  exact bind_eq_ok.mpr ⟨ref, found, bind_eq_ok.mpr ⟨_, tablesDeleted,
    bind_eq_ok.mpr ⟨_, viewsDeleted, macrosDeleted⟩⟩⟩

theorem isEmpty_of_keys
    {κ α : Type}
    (map : IndexMap κ α)
    (keys : map.keys = []) :
    map.isEmpty = true := by
  unfold IndexMap.keys at keys
  rw [List.map_eq_nil_iff] at keys
  simp [IndexMap.isEmpty, keys]

theorem deleteSchema_cascades
    (ifNotExists : IfExistsStrategy)
    (wellFormed : tx.catalog.WellFormed)
    (named : tx.catalog.Named)
    (found : tx.catalog.schemaRef name = .ok ref) :
    ∃ next, deleteSchema name true ifNotExists tx = .ok next := by
  obtain ⟨emptied, contents, drained⟩ := deleteSchemaContents_drains wellFormed named found
  have deleted : emptied.catalog.deleteSchema ref = .ok { emptied.catalog with
      schemas := emptied.catalog.schemas.erase (emptied.catalog.schema ref).name } := by
    unfold Catalog.deleteSchema
    dsimp only
    rw [isEmpty_of_keys _ drained.tables, isEmpty_of_keys _ drained.views,
      isEmpty_of_keys _ drained.macros]
    rfl
  refine ⟨emptied.record { emptied.catalog with
      schemas := emptied.catalog.schemas.erase (emptied.catalog.schema ref).name }
    (.deleteSchema ref), ?_⟩
  unfold deleteSchema
  rw [if_neg (by simp [found, Except.isOk, Except.toBool])]
  exact bind_eq_ok.mpr ⟨emptied, contents, bind_eq_ok.mpr ⟨ref, drained.found,
    bind_eq_ok.mpr ⟨_, deleted, rfl⟩⟩⟩

theorem deleteSchemaContentsCall_missing
    (err : DucklakeError)
    (missing : tx.catalog.schemaRef name = .error err) :
    deleteSchemaContentsCall name tx = ⟨.error err, tx⟩ := by
  unfold deleteSchemaContentsCall
  rw [missing]

theorem leaves_deleteSchemaCall
    (wellFormed : tx.catalog.WellFormed)
    (named : tx.catalog.Named)
    (cascade : Bool)
    (ifNotExists : IfExistsStrategy)
    (err : DucklakeError)
    (failed : (deleteSchemaCall name cascade ifNotExists tx).result = .error err) :
    tx.Leaves (deleteSchemaCall name cascade ifNotExists tx).state := by
  cases cascade with
  | false =>
      unfold deleteSchemaCall at failed ⊢
      split
      · exact .refl wellFormed named
      · rename_i shown
        rw [if_neg shown] at failed
        have left := Outcome.state_ofExcept tx _ err failed
        exact (congrArg tx.Leaves left).mpr (.refl wellFormed named)
  | true =>
      cases found : tx.catalog.schemaRef name with
      | ok ref =>
          obtain ⟨next, deleted⟩ := deleteSchema_cascades ifNotExists wellFormed named found
          have value := value_deleteSchemaCall tx name true ifNotExists
          rw [(Outcome.value_eq_error _ err).mpr failed, deleted] at value
          cases value
      | error missing =>
          unfold deleteSchemaCall
          split
          · exact .refl wellFormed named
          · dsimp only [if_true]
            rw [if_pos rfl, deleteSchemaContentsCall_missing missing found]
            exact .refl wellFormed named

end

/-! ## Calls -/

/-- The transactions that calls reach from the catalog of a snapshot. -/
inductive Reached (env : Environment) : Transaction → Prop where
  | begin {db : Database} {info : SnapshotInfo} {catalog : Catalog}
      (loaded : Catalog.load env db info.id = .ok catalog) :
      Reached env (.new info catalog)
  | called {tx : Transaction} {db : Database} {stats : DucklakeResult TableStatsMap}
      {operation : Operation}
      (reached : Reached env tx) :
      Reached env (operation.call env db stats tx).state

theorem leaves_call
    {tx : Transaction}
    (wellFormed : tx.catalog.WellFormed)
    (named : tx.catalog.Named)
    (env : Environment)
    (db : Database)
    (stats : DucklakeResult TableStatsMap)
    (operation : Operation)
    (err : DucklakeError)
    (failed : (operation.call env db stats tx).result = .error err) :
    tx.Leaves (operation.call env db stats tx).state := by
  have guarded : ∀ call : Call, (tx.guard call).result = .error err →
      tx.Leaves (tx.guard call).state := by
    intro call failed
    rw [guard, Outcome.state_guarded _ call err failed]
    exact ⟨rfl, wellFormed.sameLookups_refl, wellFormed, named⟩
  cases operation with
  | deleteSchema name cascade ifNotExists =>
      exact leaves_deleteSchemaCall wellFormed named cascade ifNotExists err failed
  | updateTableSchema name columns =>
      change (updateTableSchemaCall db stats name columns tx).result = .error err at failed
      change tx.Leaves (updateTableSchemaCall db stats name columns tx).state
      unfold updateTableSchemaCall at failed ⊢
      split
      · exact .refl wellFormed named
      · rename_i ref found
        rw [found] at failed
        exact guarded _ failed
  | updateTableColumnDtype name column dtype =>
      change (updateTableColumnDtypeCall db name column dtype tx).result = .error err at failed
      change tx.Leaves (updateTableColumnDtypeCall db name column dtype tx).state
      unfold updateTableColumnDtypeCall at failed ⊢
      split
      · exact .refl wellFormed named
      · rename_i ref found
        rw [found] at failed
        exact guarded _ failed
  | _ =>
      have left := Outcome.state_ofExcept _ _ err failed
      exact (congrArg tx.Leaves left).mpr (leaves_leftover wellFormed named env db _)

theorem Reached.sound
    {env : Environment}
    {tx : Transaction}
    (reached : Reached env tx) :
    tx.catalog.WellFormed ∧ tx.catalog.Named := by
  induction reached with
  | begin loaded =>
      exact ⟨(Catalog.load_loaded _ _ _ _ loaded).wellFormed, Catalog.load_named _ _ _ loaded⟩
  | @called tx db stats operation _ ih =>
      obtain ⟨wellFormed, named⟩ := ih
      cases result : (operation.call env db stats tx).result with
      | error err =>
          have left := leaves_call wellFormed named env db stats operation err result
          exact ⟨left.wellFormed, left.named⟩
      | ok _ =>
          have executed := Operation.value_call env db stats tx operation
          rw [(Outcome.value_eq_ok _ _).mpr ⟨result, rfl⟩] at executed
          have edited := execute_edited _ operation executed.symm
          exact ⟨(Edited.extends wellFormed edited).catalog.wellFormed wellFormed,
            Edited.named named wellFormed edited⟩

/-- An operation that returns an error has recorded nothing, and no lookup tells that it was
called. -/
theorem call_atomic
    (env : Environment)
    (tx : Transaction)
    (reached : Reached env tx)
    (db : Database)
    (stats : DucklakeResult TableStatsMap)
    (operation : Operation)
    (err : DucklakeError)
    (failed : (operation.call env db stats tx).result = .error err) :
    (operation.call env db stats tx).state.changes = tx.changes ∧
      tx.catalog.SameLookups (operation.call env db stats tx).state.catalog := by
  obtain ⟨wellFormed, named⟩ := reached.sound
  have left := leaves_call wellFormed named env db stats operation err failed
  exact ⟨left.changes, left.lookups⟩

/-- A table's new schema adds a column, and then fails at the type of another one. -/
def failedUpdate : Operation × Operation :=
  let column (name : String) (dtype : DataType) : Column :=
    .mk name.toList dtype true default none (.literal none) none
  let table : QualifiedName := ⟨"main".toList, "t".toList⟩
  (.createTable table [column "b" (.primitive .int32)] none none none none .fail,
    .updateTableSchema table [column "a" (.primitive .int32),
      column "b" (.list (column "element" (.primitive .int32)))])

theorem call_atomic_failedUpdate :
    ∃ catalog, Catalog.load .plain (initCatalog 0) 0 = .ok catalog ∧
      let created := (failedUpdate.1.call .plain (initCatalog 0) (.ok .empty)
        (.new ⟨0, 0, 1, 0⟩ catalog)).state
      let updated := failedUpdate.2.call .plain (initCatalog 0) (.ok .empty) created
      (∃ err, updated.result = .error err) ∧ created.changes.length = 1 ∧
        updated.state.changes = created.changes ∧
        created.catalog.SameLookups updated.state.catalog := by
  have runs : ((Catalog.load .plain (initCatalog 0) 0).toOption.map fun catalog =>
      let created := (failedUpdate.1.call .plain (initCatalog 0) (.ok .empty)
        (.new ⟨0, 0, 1, 0⟩ catalog)).state
      let updated := failedUpdate.2.call .plain (initCatalog 0) (.ok .empty) created
      (updated.result.isOk, created.changes.length)) = some (false, 1) := by
    decide +kernel
  obtain ⟨catalog, loaded, runs⟩ := Option.map_eq_some_iff.mp runs
  obtain ⟨failed, recorded⟩ := Prod.mk.inj runs
  have loaded := toOption_eq_some.mp loaded
  refine ⟨catalog, loaded, ?_⟩
  intro created updated
  obtain ⟨err, failed⟩ : ∃ err, updated.result = .error err := by
    cases result : updated.result with
    | ok _ =>
        change updated.result.isOk = false at failed
        rw [result] at failed
        cases failed
    | error err => exact ⟨err, rfl⟩
  have begun : Reached .plain (.new ⟨0, 0, 1, 0⟩ catalog) := .begin loaded
  have reached : Reached .plain created := .called begun
  exact ⟨⟨err, failed⟩, recorded,
    call_atomic .plain created reached (initCatalog 0) (.ok .empty) failedUpdate.2 err failed⟩

end Transaction

end Ducklake
