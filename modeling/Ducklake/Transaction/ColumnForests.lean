import Ducklake.Catalog.ShownIds
import Ducklake.Transaction.NewColumns
import Ducklake.Transaction.SchemaUpdates

/-!
# The column forests of a transaction

In every table of a transaction the columns are a forest with different ids.
-/

set_option autoImplicit false

namespace Ducklake

open Lib Caches Spec Transaction

/-- The columns of a table are linked as trees, with different ids. -/
structure CatalogTable.Forest (table : CatalogTable) : Prop where
  ready : table.ColumnsReady
  maps : table.columns.MapsApart
  unique : table.columns.ids.Nodup

def Catalog.Forests (catalog : Catalog) : Prop :=
  ∀ ref, catalog.Has (.table ref) → (catalog.table ref).Forest

/-! ## Edits -/

section

variable {env : Environment} {db : Database} {stats : DucklakeResult TableStatsMap}
variable {method : Operation} {snapshot : Int} {ref : TableRef}

theorem TableUpdate.forest
    (table updated : CatalogTable)
    (changes : List Change)
    (forest : table.Forest)
    (numbered : table.Numbered db snapshot)
    (update : TableUpdate db ref table changes updated) :
    updated.Forest := by
  refine ⟨update.columnsReady _ _ _ forest.ready, ?_, ?_⟩
  · cases update with
    | described _ _ columns => rw [columns]; exact forest.maps
    | partitioned | removedColumn => exact forest.maps
    | counted => exact forest.maps.of_arena rfl
    | addedColumn success => exact CatalogColumns.addColumn_mapsApart _ _ _ forest.maps success
    | renamedColumn _ success =>
        exact CatalogColumns.renameColumn_mapsApart _ _ forest.maps success
    | modifiedColumn _ _ dtype =>
        refine forest.maps.modifyColumn _ _ fun column => ?_
        rcases dtype column with same | ⟨type, primitive⟩
        · exact Or.inl same
        · exact Or.inr fun key value map => by rw [primitive] at map; cases map
    | taggedColumn _ _ _ dtype =>
        exact forest.maps.modifyColumn _ _ fun column => Or.inl (dtype column)
  · cases update with
    | described _ _ columns => rw [columns]; exact forest.unique
    | partitioned | removedColumn | counted => exact forest.unique
    | @addedColumn parent column idxs columns success =>
        obtain ⟨_, _, next, counter, _, ids⟩ :=
          CatalogColumns.addColumn_ids parent column idxs numbered.closed success
        have old := numbered.below next counter
        dsimp only
        rw [ids, List.nodup_append]
        refine ⟨forest.unique, ?_, ?_⟩
        · refine List.Nodup.map (fun a b same => ?_) List.nodup_range
          omega
        · intro id member other added
          obtain ⟨offset, _, rfl⟩ := List.mem_map.mp added
          have bound := old id member
          omega
    | renamedColumn reached success =>
        have inside := numbered.closed.arenaIdxByPath _ _ reached
        dsimp only
        rw [(CatalogColumns.renameColumn_ids _ _ numbered.closed inside success).2.1]
        exact forest.unique
    | modifiedColumn _ id | taggedColumn _ _ id =>
        dsimp only
        rw [CatalogColumns.ids_modifyColumn _ _ _ id]
        exact forest.unique

theorem Edit.nodup_createdTable
    {before after : Catalog}
    {changes : List Change}
    (transfers : ∀ columns, method.transfers columns →
      ((columns.flatMap Column.flatten).filterMap fun flat => flat.column.fieldId).Nodup)
    (edit : Edit env db stats method before changes after)
    (change : Change)
    (member : change ∈ changes)
    (created : change.createdTable = some ref) :
    (after.table ref).columns.ids.Nodup := by
  cases edit with
  | createTable preserved typed success =>
      obtain rfl := List.mem_singleton.mp member
      cases created
      exact nodup_newTable_ids _ _ _ _ (fun given => transfers _ (preserved given)) typed
        (addTable_columns _ _ _ _ _ _ success).1
  | removeColumn found success =>
      obtain ⟨_, _, rfl⟩ := List.mem_map.mp member
      cases created
  | ensureNextColumnId => cases member
  | _ =>
      obtain rfl := List.mem_singleton.mp member
      cases created

theorem Edit.forests
    {before after : Catalog}
    {changes : List Change}
    (forests : before.Forests)
    (numbered : ∀ ref, (before.table ref).Numbered db snapshot)
    (sound : before.WellFormed)
    (transfers : ∀ columns, method.transfers columns →
      ((columns.flatMap Column.flatten).filterMap fun flat => flat.column.fieldId).Nodup)
    (edit : Edit env db stats method before changes after) :
    after.Forests := by
  have ready := TablesEdited.columnsReady (fun ref present => (forests ref present).ready)
    (edit.tables sound)
  intro other present
  cases edit.tables sound with
  | same arena =>
      have table : after.table other = before.table other := congrArg (·.get other.idx) arena
      rw [table]
      refine forests other ?_
      unfold Catalog.Has at present ⊢
      rwa [arena] at present
  | @created info columns path retired schemaRef tableColumns partition sortInfo typed built specified
      arena recorded =>
      by_cases new : other.idx = before.tableArena.arena.length
      · have table : (after.table other).columns = tableColumns := by
          unfold Catalog.table
          rw [arena, new, Arena.get_push_length]
        have same : other = ⟨before.tableArena.arena.length⟩ := by
          cases other
          exact congrArg TableRef.mk new
        refine ⟨ready other present, ?_, ?_⟩
        · rw [table]
          exact CatalogColumns.fromSchema_mapsApart _ _ built
        · refine edit.nodup_createdTable transfers _ (recorded ▸ List.mem_singleton_self _) ?_
          rw [same]
          rfl
      · have table : after.table other = before.table other := by
          unfold Catalog.table
          rw [arena, Arena.get_push_of_ne _ _ _ _ new]
        have low : other.idx < after.tableArena.arena.length := present
        rw [arena] at low
        simp only [Arena.push, List.length_append, List.length_singleton] at low
        rw [table]
        exact forests other (Nat.lt_of_le_of_ne (Nat.le_of_lt_succ low) new)
  | @updated ref update inside arena updates =>
      have low : other.idx < after.tableArena.arena.length := present
      rw [arena, Arena.length_modify] at low
      by_cases same : other = ref
      · subst same
        have table : after.table other = update (before.table other) := by
          unfold Catalog.table
          rw [arena, Arena.get_modify_self _ _ _ low]
        rw [table]
        exact updates.forest _ _ _ (forests other low) (numbered other)
      · have table : after.table other = before.table other := by
          unfold Catalog.table
          rw [arena, Arena.get_modify_of_ne]
          intro equal
          cases other
          cases ref
          exact same (congrArg TableRef.mk equal)
        rw [table]
        exact forests other low

end

/-! ## Loaded tables -/

theorem forests_load
    (env : Environment)
    (db : Database)
    (snapshotId : Int)
    (catalog : Catalog)
    (once : ((Versioned.entitiesAt snapshotId db.columns).map columnKey).Nodup)
    (success : Catalog.load env db snapshotId = .ok catalog) :
    catalog.Forests := by
  intro ref present
  obtain ⟨row, _, loaded⟩ := Catalog.load_table env db snapshotId catalog success ref present
  refine ⟨columnsReady_load env db snapshotId catalog once success ref present,
    (CatalogColumns.fromDucklake_loadedFrom env _ _ _ loaded.columns).mapsApart, ?_⟩
  rw [(CatalogColumns.fromDucklake_ids env _ _ _ loaded.columns).2]
  have sorted : (sortByOrder ((Versioned.entitiesAt snapshotId db.columns).filter
      fun column => column.tableId = row.tableId)).Perm _ := List.perm_insertionSort _ _
  exact (sorted.map _).nodup_iff.mpr (nodup_columnIds _ row.tableId once)

/-- A table that is read for a transfer comes with different ids of its columns. -/
theorem nodup_activeColumnIds_load
    (env : Environment)
    (db : Database)
    (snapshotId : Int)
    (catalog : Catalog)
    (once : ((Versioned.entitiesAt snapshotId db.columns).map columnKey).Nodup)
    (success : Catalog.load env db snapshotId = .ok catalog)
    (ref : TableRef)
    (present : catalog.Has (.table ref)) :
    (Transfer.activeColumnIds (catalog.table ref).columns.schema).Nodup := by
  have forest := forests_load env db snapshotId catalog once success ref present
  exact CatalogColumns.Treelike.nodup_activeColumnIds ⟨forest.ready.linked, forest.maps⟩
    forest.unique

/-! ## Tables by name -/

theorem Catalog.Forests.editing
    {db : Database}
    {catalog : Catalog}
    {snapshot : Int}
    (forests : catalog.Forests)
    (numbered : ∀ ref, (catalog.table ref).Numbered db snapshot)
    (sound : catalog.WellFormed)
    (name : QualifiedName)
    (ref : TableRef)
    (found : catalog.tableRef name = .ok ref) :
    Editing db name ref catalog := by
  have present := sound.tableRef name ref found
  obtain ⟨ready, maps, unique⟩ := forests ref present
  refine ⟨found, present, ⟨ready.linked, maps⟩, unique, ready.counted, (numbered ref).below, ?_⟩
  intro unset tableId next id loads columnId member
  obtain ⟨owner, same, stored⟩ := (numbered ref).loaded unset columnId member
  obtain rfl := Option.some.inj (same.symm.trans id)
  exact above_of_loadNextColumnId snapshot owner next loads columnId stored

end Ducklake
