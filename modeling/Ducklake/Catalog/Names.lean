import Ducklake.Catalog.Loaded
import Ducklake.Transaction.Recorded

/-!
# Names of entities

The schemas that a catalog shows hold their tables, views and macros under the names that these
carry themselves.  A method that finds an entity by name, and then uses the name stored in the
entity, therefore stays at the same entry.
-/

set_option autoImplicit false

namespace Ducklake

open Lib Utils Spec

namespace Catalog

def macroKey (entity : CatalogMacro) : Text × MacroType :=
  (asciiLowercase entity.name.name, entity.macroType)

theorem schema_modifySchema_self
    (catalog : Catalog)
    (ref : SchemaRef)
    (update : CatalogSchema → CatalogSchema)
    (present : ref.idx < catalog.schemaArena.arena.length) :
    (catalog.modifySchema ref update).schema ref = update (catalog.schema ref) :=
  Arena.get_modify_self _ _ _ present

theorem schema_modifySchema_of_ne
    (catalog : Catalog)
    (ref other : SchemaRef)
    (update : CatalogSchema → CatalogSchema)
    (distinct : other ≠ ref) :
    (catalog.modifySchema ref update).schema other = catalog.schema other :=
  Arena.get_modify_of_ne _ _ _ _ fun same => distinct (congrArg SchemaRef.mk same)

structure Named (catalog : Catalog) : Prop where
  schemas : ∀ name idx, catalog.schemas.get? name = some idx → (catalog.schema ⟨idx⟩).name = name
  tables : ∀ name idx, catalog.schemas.get? name = some idx → ∀ key entry,
    (catalog.schema ⟨idx⟩).tables.get? key = some entry →
      (catalog.table ⟨entry⟩).name = ⟨name, key⟩
  views : ∀ name idx, catalog.schemas.get? name = some idx → ∀ key entry,
    (catalog.schema ⟨idx⟩).views.get? key = some entry →
      (catalog.view ⟨entry⟩).name = ⟨name, key⟩
  macros : ∀ name idx, catalog.schemas.get? name = some idx → ∀ key entry,
    (catalog.schema ⟨idx⟩).macros.get? key = some entry →
      (catalog.macro_ ⟨entry⟩).name.schema = name ∧ macroKey (catalog.macro_ ⟨entry⟩) = key

section

variable {catalog next : Catalog}

theorem new_named : new.Named where
  schemas _ _ found := by cases found
  tables _ _ found := by cases found
  views _ _ found := by cases found
  macros _ _ found := by cases found

theorem Named.of_same
    (named : catalog.Named)
    (sound : catalog.WellFormed)
    (schemas : next.schemas = catalog.schemas)
    (schemaArena : next.schemaArena = catalog.schemaArena)
    (tables : ∀ idx, idx < catalog.tableArena.arena.length →
      (next.table ⟨idx⟩).name = (catalog.table ⟨idx⟩).name)
    (views : ∀ idx, idx < catalog.viewArena.arena.length →
      (next.view ⟨idx⟩).name = (catalog.view ⟨idx⟩).name)
    (macros : ∀ idx, idx < catalog.macroArena.arena.length →
      (next.macro_ ⟨idx⟩).name = (catalog.macro_ ⟨idx⟩).name ∧
        macroKey (next.macro_ ⟨idx⟩) = macroKey (catalog.macro_ ⟨idx⟩)) :
    next.Named := by
  have schema : ∀ ref, next.schema ref = catalog.schema ref := by
    intro ref
    unfold Catalog.schema
    rw [schemaArena]
  constructor
  · intro name idx found
    rw [schema]
    exact named.schemas name idx (schemas ▸ found)
  · intro name idx found key entry held
    rw [schema] at held
    rw [tables entry (sound.tables _ _ _ held)]
    exact named.tables name idx (schemas ▸ found) key entry held
  · intro name idx found key entry held
    rw [schema] at held
    rw [views entry (sound.views _ _ _ held)]
    exact named.views name idx (schemas ▸ found) key entry held
  · intro name idx found key entry held
    rw [schema] at held
    obtain ⟨sameName, sameKey⟩ := macros entry (sound.macros _ _ _ held)
    rw [sameName, sameKey]
    exact named.macros name idx (schemas ▸ found) key entry held

theorem Named.modifySchema
    (named : catalog.Named)
    (ref : SchemaRef)
    (update : CatalogSchema → CatalogSchema)
    (sameName : ∀ entity, (update entity).name = entity.name)
    (tables : ∀ name, catalog.schemas.get? name = some ref.idx → ∀ key entry,
      (update (catalog.schema ref)).tables.get? key = some entry →
        (catalog.table ⟨entry⟩).name = ⟨name, key⟩)
    (views : ∀ name, catalog.schemas.get? name = some ref.idx → ∀ key entry,
      (update (catalog.schema ref)).views.get? key = some entry →
        (catalog.view ⟨entry⟩).name = ⟨name, key⟩)
    (macros : ∀ name, catalog.schemas.get? name = some ref.idx → ∀ key entry,
      (update (catalog.schema ref)).macros.get? key = some entry →
        (catalog.macro_ ⟨entry⟩).name.schema = name ∧ macroKey (catalog.macro_ ⟨entry⟩) = key) :
    (catalog.modifySchema ref update).Named := by
  have cases_ : ∀ other, (other = ref ∧ (catalog.modifySchema ref update).schema other =
      update (catalog.schema ref)) ∨
      (catalog.modifySchema ref update).schema other = catalog.schema other := by
    intro other
    by_cases same : other = ref
    · subst same
      by_cases present : other.idx < catalog.schemaArena.arena.length
      · exact Or.inl ⟨rfl, schema_modifySchema_self catalog other update present⟩
      · exact Or.inr (Arena.get_modify_of_absent _ _ _ _ (Nat.le_of_not_lt present))
    · exact Or.inr (schema_modifySchema_of_ne catalog ref other update same)
  constructor
  · intro name idx found
    rcases cases_ ⟨idx⟩ with ⟨rfl, updated⟩ | unchanged
    · rw [updated, sameName]
      exact named.schemas name idx found
    · rw [unchanged]
      exact named.schemas name idx found
  · intro name idx found key entry held
    rcases cases_ ⟨idx⟩ with ⟨rfl, updated⟩ | unchanged
    · rw [updated] at held
      exact tables name found key entry held
    · rw [unchanged] at held
      exact named.tables name idx found key entry held
  · intro name idx found key entry held
    rcases cases_ ⟨idx⟩ with ⟨rfl, updated⟩ | unchanged
    · rw [updated] at held
      exact views name found key entry held
    · rw [unchanged] at held
      exact named.views name idx found key entry held
  · intro name idx found key entry held
    rcases cases_ ⟨idx⟩ with ⟨rfl, updated⟩ | unchanged
    · rw [updated] at held
      exact macros name found key entry held
    · rw [unchanged] at held
      exact named.macros name idx found key entry held

/-! ## New entities -/

theorem Named.pushTable
    (named : catalog.Named)
    (sound : catalog.WellFormed)
    (entity : CatalogTable)
    (id : Option Int) :
    { catalog with tableArena := catalog.tableArena.push entity id }.Named :=
  named.of_same sound rfl rfl
    (fun _ inside => congrArg CatalogTable.name (Arena.get_push_of_lt _ _ _ _ inside))
    (fun _ _ => rfl) (fun _ _ => ⟨rfl, rfl⟩)

theorem Named.pushView
    (named : catalog.Named)
    (sound : catalog.WellFormed)
    (entity : CatalogView)
    (id : Option Int) :
    { catalog with viewArena := catalog.viewArena.push entity id }.Named :=
  named.of_same sound rfl rfl (fun _ _ => rfl)
    (fun _ inside => congrArg CatalogView.name (Arena.get_push_of_lt _ _ _ _ inside))
    (fun _ _ => ⟨rfl, rfl⟩)

theorem Named.pushMacro
    (named : catalog.Named)
    (sound : catalog.WellFormed)
    (entity : CatalogMacro)
    (id : Option Int) :
    { catalog with macroArena := catalog.macroArena.push entity id }.Named :=
  named.of_same sound rfl rfl (fun _ _ => rfl) (fun _ _ => rfl) fun idx inside =>
    have same := Arena.get_push_of_lt catalog.macroArena entity id idx inside
    ⟨congrArg CatalogMacro.name same, congrArg macroKey same⟩

theorem Named.pushSchema
    (named : catalog.Named)
    (sound : catalog.WellFormed)
    (entity : CatalogSchema)
    (id : Option Int)
    (tables : entity.tables = .empty)
    (views : entity.views = .empty)
    (macros : entity.macros = .empty) :
    { catalog with
      schemaArena := catalog.schemaArena.push entity id
      schemas := catalog.schemas.insert entity.name catalog.schemaArena.arena.length }.Named := by
  have cases_ : ∀ name idx,
      (catalog.schemas.insert entity.name catalog.schemaArena.arena.length).get? name = some idx →
        (name = entity.name ∧ (catalog.schemaArena.push entity id).get idx = entity) ∨
        (catalog.schemas.get? name = some idx ∧
          (catalog.schemaArena.push entity id).get idx = catalog.schemaArena.get idx) := by
    intro name idx found
    rw [IndexMap.get?_insert] at found
    split at found
    · rename_i same
      cases found
      exact Or.inl ⟨same, Arena.get_push_length _ _ _⟩
    · exact Or.inr ⟨found, Arena.get_push_of_lt _ _ _ _ (sound.schemas name idx found)⟩
  constructor
  · intro name idx found
    rcases cases_ name idx found with ⟨same, new⟩ | ⟨old, kept⟩
    · exact (congrArg CatalogSchema.name new).trans same.symm
    · exact (congrArg CatalogSchema.name kept).trans (named.schemas name idx old)
  · intro name idx found key entry held
    rcases cases_ name idx found with ⟨_, new⟩ | ⟨old, kept⟩
    · simp only [Catalog.schema, new, tables, IndexMap.get?_empty] at held
      cases held
    · simp only [Catalog.schema, kept] at held
      exact named.tables name idx old key entry held
  · intro name idx found key entry held
    rcases cases_ name idx found with ⟨_, new⟩ | ⟨old, kept⟩
    · simp only [Catalog.schema, new, views, IndexMap.get?_empty] at held
      cases held
    · simp only [Catalog.schema, kept] at held
      exact named.views name idx old key entry held
  · intro name idx found key entry held
    rcases cases_ name idx found with ⟨_, new⟩ | ⟨old, kept⟩
    · simp only [Catalog.schema, new, macros, IndexMap.get?_empty] at held
      cases held
    · simp only [Catalog.schema, kept] at held
      exact named.macros name idx old key entry held

theorem Named.insertTable
    (named : catalog.Named)
    (ref : SchemaRef)
    (key : Text)
    (idx : ArenaIdx)
    (name : (catalog.table ⟨idx⟩).name = ⟨(catalog.schema ref).name, key⟩) :
    (catalog.modifySchema ref fun entity =>
      { entity with tables := entity.tables.insert key idx }).Named := by
  refine named.modifySchema ref _ (fun _ => rfl) ?_ (fun name found => named.views name _ found)
    fun name found => named.macros name _ found
  intro shown found other entry held
  dsimp only at held
  rw [IndexMap.get?_insert] at held
  split at held
  · rename_i same
    cases held
    rw [name, named.schemas shown ref.idx found, same]
  · exact named.tables shown ref.idx found other entry held

theorem Named.insertView
    (named : catalog.Named)
    (ref : SchemaRef)
    (key : Text)
    (idx : ArenaIdx)
    (name : (catalog.view ⟨idx⟩).name = ⟨(catalog.schema ref).name, key⟩) :
    (catalog.modifySchema ref fun entity =>
      { entity with views := entity.views.insert key idx }).Named := by
  refine named.modifySchema ref _ (fun _ => rfl) (fun name found => named.tables name _ found) ?_
    fun name found => named.macros name _ found
  intro shown found other entry held
  dsimp only at held
  rw [IndexMap.get?_insert] at held
  split at held
  · rename_i same
    cases held
    rw [name, named.schemas shown ref.idx found, same]
  · exact named.views shown ref.idx found other entry held

theorem Named.insertMacro
    (named : catalog.Named)
    (ref : SchemaRef)
    (key : Text × MacroType)
    (idx : ArenaIdx)
    (name : (catalog.macro_ ⟨idx⟩).name.schema = (catalog.schema ref).name)
    (sameKey : macroKey (catalog.macro_ ⟨idx⟩) = key) :
    (catalog.modifySchema ref fun entity =>
      { entity with macros := entity.macros.insert key idx }).Named := by
  refine named.modifySchema ref _ (fun _ => rfl) (fun name found => named.tables name _ found)
    (fun name found => named.views name _ found) ?_
  intro shown found other entry held
  dsimp only at held
  rw [IndexMap.get?_insert] at held
  split at held
  · rename_i same
    cases held
    exact ⟨name.trans (named.schemas shown ref.idx found), sameKey.trans same.symm⟩
  · exact named.macros shown ref.idx found other entry held

/-! ## References -/

theorem schemas_of_schemaRef
    (name : Text)
    (ref : SchemaRef)
    (found : catalog.schemaRef name = .ok ref) :
    catalog.schemas.get? name = some ref.idx := by
  unfold schemaRef at found
  split at found
  · rename_i idx entry
    cases found
    exact entry
  · cases found

theorem Named.schemaName
    (named : catalog.Named)
    (name : Text)
    (ref : SchemaRef)
    (found : catalog.schemaRef name = .ok ref) :
    (catalog.schema ref).name = name :=
  named.schemas name ref.idx (schemas_of_schemaRef name ref found)

theorem Named.tableName
    (named : catalog.Named)
    (name : QualifiedName)
    (ref : TableRef)
    (found : catalog.tableRef name = .ok ref) :
    (catalog.table ref).name = name := by
  obtain ⟨schema, foundSchema, found⟩ := bind_eq_ok.mp found
  split at found
  · rename_i idx entry
    cases found
    exact named.tables _ _ (schemas_of_schemaRef _ _ foundSchema) name.name idx entry
  · cases found

/-! ## Mutators -/

theorem Named.modifyTable
    (named : catalog.Named)
    (sound : catalog.WellFormed)
    (ref : TableRef)
    (update : CatalogTable → CatalogTable)
    (sameName : ∀ table, (update table).name = table.name) :
    (catalog.modifyTable ref update).Named :=
  named.of_same sound rfl rfl
    (fun _ _ => Arena.map_get_modify _ _ _ _ CatalogTable.name sameName)
    (fun _ _ => rfl) (fun _ _ => ⟨rfl, rfl⟩)

theorem addSchema_named
    (named : catalog.Named)
    (sound : catalog.WellFormed)
    (name : Text)
    (path : DucklakePath)
    (ref : SchemaRef)
    (success : catalog.addSchema name path = .ok (ref, next)) :
    next.Named := by
  unfold addSchema at success
  split at success
  · cases success
  · cases success
    exact named.pushSchema sound _ none rfl rfl rfl

theorem addTable_named
    (named : catalog.Named)
    (sound : catalog.WellFormed)
    (info : TableInfo)
    (path : DucklakePath)
    (nextColumnId : Option Int)
    (added : AddedTable)
    (success : catalog.addTable info path nextColumnId = .ok (added, next)) :
    next.Named := by
  unfold addTable at success
  split at success
  · cases success
  · split at success
    · cases success
    · obtain ⟨columns, _, success⟩ := bind_eq_ok.mp success
      obtain ⟨partition, _, success⟩ := bind_eq_ok.mp success
      obtain ⟨sortInfo, _, success⟩ := bind_eq_ok.mp success
      obtain ⟨schema, found, success⟩ := bind_eq_ok.mp success
      cases success
      apply (named.pushTable sound _ none).insertTable
      exact (congrArg CatalogTable.name (Arena.get_push_length _ _ _)).trans
        (congrArg (QualifiedName.mk · info.name.name) (named.schemaName _ _ found).symm)

theorem addView_named
    (named : catalog.Named)
    (sound : catalog.WellFormed)
    (info : ViewInfo)
    (refs : SchemaRef × ViewRef)
    (success : catalog.addView info = .ok (refs, next)) :
    next.Named := by
  unfold addView at success
  split at success
  · cases success
  · split at success
    · cases success
    · obtain ⟨schema, found, success⟩ := bind_eq_ok.mp success
      cases success
      apply (named.pushView sound _ none).insertView
      exact (congrArg CatalogView.name (Arena.get_push_length _ _ _)).trans
        (congrArg (QualifiedName.mk · info.name.name) (named.schemaName _ _ found).symm)

theorem addMacro_named
    (named : catalog.Named)
    (sound : catalog.WellFormed)
    (info : MacroInfo)
    (refs : SchemaRef × MacroRef)
    (success : catalog.addMacro info = .ok (refs, next)) :
    next.Named := by
  unfold addMacro at success
  split at success
  · cases success
  · obtain ⟨schema, found, success⟩ := bind_eq_ok.mp success
    cases success
    have new := Arena.get_push_length catalog.macroArena
      ⟨none, info.name, info.macroType, info.implementations⟩ none
    apply (named.pushMacro sound _ none).insertMacro
    · exact (congrArg (fun entity => entity.name.schema) new).trans
        (named.schemaName _ _ found).symm
    · exact congrArg macroKey new

theorem deleteSchema_named
    (named : catalog.Named)
    (ref : SchemaRef)
    (success : catalog.deleteSchema ref = .ok next) :
    next.Named := by
  unfold deleteSchema at success
  dsimp only at success
  split at success
  · cases success
  · cases success
    have earlier : ∀ name idx, (catalog.schemas.erase (catalog.schema ref).name).get? name = some idx →
        catalog.schemas.get? name = some idx := by
      intro name idx found
      rw [IndexMap.get?_erase] at found
      split at found
      · cases found
      · exact found
    exact {
      schemas := fun name idx found => named.schemas name idx (earlier name idx found)
      tables := fun name idx found => named.tables name idx (earlier name idx found)
      views := fun name idx found => named.views name idx (earlier name idx found)
      macros := fun name idx found => named.macros name idx (earlier name idx found) }

theorem get?_of_erase
    {κ α : Type}
    [DecidableEq κ]
    (map : IndexMap κ α)
    (erased key : κ)
    (value : α)
    (found : (map.erase erased).get? key = some value) :
    key ≠ erased ∧ map.get? key = some value := by
  rw [IndexMap.get?_erase] at found
  split at found
  · cases found
  · rename_i distinct
    exact ⟨distinct, found⟩

theorem deleteTable_named
    (named : catalog.Named)
    (ref : TableRef)
    (success : catalog.deleteTable ref = .ok next) :
    next.Named := by
  obtain ⟨schema, _, success⟩ := bind_eq_ok.mp success
  cases success
  exact named.modifySchema schema _ (fun _ => rfl)
    (fun name found key entry held =>
      named.tables name _ found key entry (get?_of_erase _ _ _ _ held).2)
    (fun name found => named.views name _ found) fun name found => named.macros name _ found

theorem deleteView_named
    (named : catalog.Named)
    (ref : ViewRef)
    (success : catalog.deleteView ref = .ok next) :
    next.Named := by
  obtain ⟨schema, _, success⟩ := bind_eq_ok.mp success
  cases success
  exact named.modifySchema schema _ (fun _ => rfl) (fun name found => named.tables name _ found)
    (fun name found key entry held =>
      named.views name _ found key entry (get?_of_erase _ _ _ _ held).2)
    fun name found => named.macros name _ found

theorem deleteMacro_named
    (named : catalog.Named)
    (ref : MacroRef)
    (success : catalog.deleteMacro ref = .ok next) :
    next.Named := by
  obtain ⟨schema, _, success⟩ := bind_eq_ok.mp success
  cases success
  exact named.modifySchema schema _ (fun _ => rfl) (fun name found => named.tables name _ found)
    (fun name found => named.views name _ found)
    fun name found key entry held =>
      named.macros name _ found key entry (get?_of_erase _ _ _ _ held).2

/-- No other entry that is shown points to a renamed table: it would have the same name. -/
theorem renameTable_named
    (named : catalog.Named)
    (sound : catalog.WellFormed)
    (name : QualifiedName)
    (ref : TableRef)
    (newName : Text)
    (found : catalog.tableRef name = .ok ref)
    (success : catalog.renameTable ref newName = .ok next) :
    next.Named := by
  have ownName := named.tableName name ref found
  unfold renameTable at success
  rw [ownName] at success
  obtain ⟨schema, foundSchema, success⟩ := bind_eq_ok.mp success
  have entryOf : (catalog.schema schema).tables.get? name.name = some ref.idx := by
    obtain ⟨other, foundOther, held⟩ := bind_eq_ok.mp found
    rw [foundSchema] at foundOther
    cases foundOther
    split at held
    · rename_i idx entry
      cases held
      exact entry
    · cases held
  dsimp only at success
  split at success
  · cases success
  · split at success
    · cases success
    · rw [entryOf] at success
      cases success
      have stored := schemas_of_schemaRef name.schema schema foundSchema
      have present : ref.idx < catalog.tableArena.arena.length := sound.tables _ _ _ entryOf
      have renamed : (((catalog.modifySchema schema fun entity =>
          { entity with tables := (entity.tables.erase name.name).insert newName ref.idx }).modifyTable
            ref fun table => { table with name := ⟨name.schema, newName⟩ }).table ref).name =
              ⟨name.schema, newName⟩ :=
        congrArg CatalogTable.name (Arena.get_modify_self _ _ _ present)
      have kept : ∀ entry, (catalog.table ⟨entry⟩).name ≠ name →
          ((catalog.modifySchema schema fun entity =>
            { entity with tables := (entity.tables.erase name.name).insert newName ref.idx }).modifyTable
              ref fun table => { table with name := ⟨name.schema, newName⟩ }).table ⟨entry⟩ =
                catalog.table ⟨entry⟩ := by
        intro entry distinct
        refine Arena.get_modify_of_ne _ _ _ _ fun same => distinct ?_
        change entry = ref.idx at same
        rw [same]
        exact ownName
      constructor
      · intro shown idx foundShown
        refine Eq.trans ?_ (named.schemas shown idx foundShown)
        exact Arena.map_get_modify _ _ _ _ CatalogSchema.name fun _ => rfl
      · intro shown idx foundShown key entry held
        change ((catalog.modifySchema schema _).schema ⟨idx⟩).tables.get? key = some entry at held
        by_cases own : (⟨idx⟩ : SchemaRef) = schema
        · have sameName : shown = name.schema := by
            rw [← named.schemas shown idx foundShown, own]
            exact named.schemaName name.schema schema foundSchema
          rw [own, schema_modifySchema_self _ _ _ (sound.schemas _ _ stored)] at held
          dsimp only at held
          rw [IndexMap.get?_insert] at held
          split at held
          · rename_i newKey
            cases held
            rw [sameName, newKey]
            exact renamed
          · obtain ⟨oldKey, held⟩ := get?_of_erase _ _ _ _ held
            have entryName := named.tables shown idx foundShown key entry (own ▸ held)
            rw [kept entry (fun same => oldKey (by rw [← same, entryName]))]
            exact entryName
        · rw [schema_modifySchema_of_ne _ _ _ _ own] at held
          have entryName := named.tables shown idx foundShown key entry held
          rw [kept entry ?_]
          · exact entryName
          · intro same
            rw [entryName] at same
            rw [← same] at stored
            exact own (congrArg SchemaRef.mk (Option.some.inj (foundShown.symm.trans stored)))
      · intro shown idx foundShown key entry held
        have same := Arena.map_get_modify catalog.schemaArena schema.idx idx (fun entity =>
          { entity with tables := (entity.tables.erase name.name).insert newName ref.idx })
          CatalogSchema.views fun _ => rfl
        exact named.views shown idx foundShown key entry
          ((congrArg (IndexMap.get? · key) same).symm.trans held)
      · intro shown idx foundShown key entry held
        have same := Arena.map_get_modify catalog.schemaArena schema.idx idx (fun entity =>
          { entity with tables := (entity.tables.erase name.name).insert newName ref.idx })
          CatalogSchema.macros fun _ => rfl
        exact named.macros shown idx foundShown key entry
          ((congrArg (IndexMap.get? · key) same).symm.trans held)

/-! ## Loading -/

theorem setSchema_named
    (named : catalog.Named)
    (sound : catalog.WellFormed)
    (schema : DucklakeSchema) :
    (catalog.setSchema schema).Named :=
  named.pushSchema sound _ _ rfl rfl rfl

theorem setTable_named
    (named : catalog.Named)
    (sound : catalog.WellFormed)
    (env : Environment)
    (db : Database)
    (snapshotId : Int)
    (table : DucklakeTable)
    (success : setTable env db snapshotId catalog table = .ok next) :
    next.Named := by
  obtain ⟨schema, _, success⟩ := bind_eq_ok.mp success
  obtain ⟨columns, _, success⟩ := bind_eq_ok.mp success
  obtain ⟨partition, _, success⟩ := bind_eq_ok.mp success
  obtain ⟨sortInfo, _, success⟩ := bind_eq_ok.mp success
  cases success
  apply (named.pushTable sound _ _).insertTable
  exact congrArg CatalogTable.name (Arena.get_push_length _ _ _)

theorem setView_named
    (named : catalog.Named)
    (sound : catalog.WellFormed)
    (db : Database)
    (snapshotId : Int)
    (view : DucklakeView)
    (success : setView db snapshotId catalog view = .ok next) :
    next.Named := by
  obtain ⟨schema, _, success⟩ := bind_eq_ok.mp success
  obtain ⟨aliases, _, success⟩ := bind_eq_ok.mp success
  cases success
  apply (named.pushView sound _ _).insertView
  exact congrArg CatalogView.name (Arena.get_push_length _ _ _)

theorem fromDucklake_name
    (id : Int)
    (name : QualifiedName)
    (implementations : List DucklakeMacroImpl)
    (parameters : List DucklakeMacroParameters)
    (loaded : CatalogMacro)
    (success : CatalogMacro.fromDucklake id name implementations parameters = .ok loaded) :
    loaded.name = name := by
  unfold CatalogMacro.fromDucklake at success
  dsimp only at success
  split at success
  · cases success
  · obtain ⟨_, _, success⟩ := bind_eq_ok.mp success
    obtain ⟨_, _, success⟩ := bind_eq_ok.mp success
    cases success
    rfl

theorem setMacro_named
    (named : catalog.Named)
    (sound : catalog.WellFormed)
    (db : Database)
    (entity : DucklakeMacro)
    (success : setMacro db catalog entity = .ok next) :
    next.Named := by
  obtain ⟨schema, _, success⟩ := bind_eq_ok.mp success
  obtain ⟨loaded, built, success⟩ := bind_eq_ok.mp success
  cases success
  have name := fromDucklake_name _ _ _ _ _ built
  have new := Arena.get_push_length catalog.macroArena loaded (some entity.macroId)
  apply (named.pushMacro sound _ _).insertMacro
  · refine (congrArg (fun entity => entity.name.schema) new).trans ?_
    rw [name]
    rfl
  · refine (congrArg macroKey new).trans ?_
    rw [macroKey, name]

theorem foldl_setSchema_named
    (db : Database)
    (snapshotId : Int)
    (schemas : List DucklakeSchema)
    (visible : ∀ schema ∈ schemas, schema ∈ Versioned.entitiesAt snapshotId db.schemas)
    (named : catalog.Named)
    (loaded : catalog.Loaded db snapshotId) :
    (schemas.foldl setSchema catalog).Named := by
  induction schemas generalizing catalog with
  | nil => exact named
  | cons schema rest ih =>
      exact ih (fun other member => visible other (List.mem_cons_of_mem _ member))
        (setSchema_named named loaded.wellFormed schema)
        (loaded.setSchema schema (visible schema (by simp)))

theorem load_named
    (env : Environment)
    (db : Database)
    (snapshotId : Int)
    (success : load env db snapshotId = .ok catalog) :
    catalog.Named := by
  obtain ⟨withTables, tables, success⟩ := bind_eq_ok.mp success
  obtain ⟨withViews, views, macros⟩ := bind_eq_ok.mp success
  have schemas : ((Versioned.entitiesAt snapshotId db.schemas).foldl setSchema new).Named ∧
      ((Versioned.entitiesAt snapshotId db.schemas).foldl setSchema new).Loaded db snapshotId :=
    ⟨foldl_setSchema_named db snapshotId _ (fun _ member => member) new_named
      (new_loaded db snapshotId),
      foldl_setSchema_loaded db snapshotId _ new (fun _ member => member)
        (new_loaded db snapshotId)⟩
  have tablesNamed := foldlM_invariant
    (fun (state : Catalog) => state.Named ∧ state.Loaded db snapshotId) schemas
    (fun state table next member held stepped =>
      ⟨setTable_named held.1 held.2.wellFormed env db snapshotId table stepped,
        held.2.setTable env table member stepped⟩) tables
  have viewsNamed := foldlM_invariant
    (fun (state : Catalog) => state.Named ∧ state.Loaded db snapshotId) tablesNamed
    (fun state view next member held stepped =>
      ⟨setView_named held.1 held.2.wellFormed db snapshotId view stepped,
        held.2.setView view member stepped⟩) views
  exact (foldlM_invariant (fun (state : Catalog) => state.Named ∧ state.Loaded db snapshotId)
    viewsNamed (fun state entity next member held stepped =>
      ⟨setMacro_named held.1 held.2.wellFormed db entity stepped,
        held.2.setMacro entity member stepped⟩) macros).1

end

end Catalog

/-! ## Edits -/

theorem Edit.named
    {env : Environment}
    {db : Database}
    {stats : DucklakeResult Caches.TableStatsMap}
    {method : Operation}
    {before after : Catalog}
    {changes : List Transaction.Change}
    (named : before.Named)
    (sound : before.WellFormed)
    (edit : Edit env db stats method before changes after) :
    after.Named := by
  cases edit with
  | createSchema success => exact Catalog.addSchema_named named sound _ _ _ success
  | deleteSchema _ success => exact Catalog.deleteSchema_named named _ success
  | createTable _ _ success => exact Catalog.addTable_named named sound _ _ _ _ success
  | deleteTable _ _ success => exact Catalog.deleteTable_named named _ success
  | writeDataFiles | writeInlineData | restateSortInfo => exact named
  | renameTable _ found success => exact Catalog.renameTable_named named sound _ _ _ found success
  | updatePartitioning _ success =>
      obtain ⟨partition, _, success⟩ := bind_eq_ok.mp success
      cases success
      exact named.modifyTable sound _ _ fun _ => rfl
  | updateSortInfo _ success =>
      obtain ⟨sortInfo, _, success⟩ := bind_eq_ok.mp success
      cases success
      exact named.modifyTable sound _ _ fun _ => rfl
  | addTableTag | removeTableTag => exact named.modifyTable sound _ _ fun _ => rfl
  | ensureNextColumnId _ success =>
      unfold Catalog.ensureNextColumnId at success
      dsimp only at success
      split at success
      · cases success
        exact named
      · cases success
      · obtain ⟨next, _, success⟩ := bind_eq_ok.mp success
        cases success
        exact named.modifyTable sound _ _ fun _ => rfl
  | addColumn _ success =>
      obtain ⟨parent, _, success⟩ := bind_eq_ok.mp success
      obtain ⟨columns, _, success⟩ := bind_eq_ok.mp success
      cases success
      exact named.modifyTable sound _ _ fun _ => rfl
  | removeColumn _ success =>
      unfold Catalog.removeColumn at success
      dsimp only at success
      split at success
      · cases success
      · split at success
        · cases success
        · cases success
          exact named.modifyTable sound _ _ fun _ => rfl
  | renameColumn _ success =>
      obtain ⟨columns, _, success⟩ := bind_eq_ok.mp success
      cases success
      exact named.modifyTable sound _ _ fun _ => rfl
  | updateColumnDefault _ updated | promoteColumn _ _ updated =>
      rw [updated]
      exact named.modifyTable sound _ _ fun _ => rfl
  | updateColumnNullability _ _ updated =>
      rw [updated]
      exact named.modifyTable sound _ _ fun _ => rfl
  | addColumnTag | removeColumnTag => exact named.modifyTable sound _ _ fun _ => rfl
  | createView success => exact Catalog.addView_named named sound _ _ success
  | deleteView _ success => exact Catalog.deleteView_named named _ success
  | createMacro success => exact Catalog.addMacro_named named sound _ _ success
  | deleteMacro _ success => exact Catalog.deleteMacro_named named _ success

theorem Transaction.Edited.named
    {env : Environment}
    {db : Database}
    {stats : DucklakeResult Caches.TableStatsMap}
    {method : Operation}
    {tx next : Transaction}
    (named : tx.catalog.Named)
    (sound : tx.catalog.WellFormed)
    (edited : Edited env db stats method tx next) :
    next.catalog.Named := by
  induction edited with
  | refl => exact named
  | tail earlier edit ih =>
      obtain ⟨changes, edit, _⟩ := edit
      exact edit.named ih ((Edited.extends sound earlier).catalog.wellFormed sound)

end Ducklake
