import Ducklake.Catalog.LoadedColumns
import Ducklake.Transaction.Renewals
import Ducklake.Transaction.TableEdits

/-!
# Columns that calls can work on

The columns of a table are linked and can be numbered, from the load of the table on and through
every edit.
-/

set_option autoImplicit false

namespace Ducklake

open Lib Caches Spec Transaction

/-- The columns of a table are linked, and the counter of their ids is set or can be loaded. -/
structure CatalogTable.ColumnsReady (table : CatalogTable) : Prop where
  linked : table.columns.Linked
  counted : table.columns.nextColumnId.isSome ∨ table.id.isSome

def Catalog.ColumnsReady (catalog : Catalog) : Prop :=
  ∀ ref, catalog.Has (.table ref) → (catalog.table ref).ColumnsReady

/-! ## Edits -/

section

variable {db : Database} {ref : TableRef}

theorem TableUpdate.columnsReady
    (table updated : CatalogTable)
    (changes : List Change)
    (ready : table.ColumnsReady)
    (update : TableUpdate db ref table changes updated) :
    updated.ColumnsReady := by
  have closed := ready.linked.closed
  cases update with
  | described plain id columns =>
      refine ⟨columns ▸ ready.linked, ?_⟩
      rw [columns, id]
      exact ready.counted
  | partitioned built => exact { ready with }
  | counted id unset loaded => exact ⟨ready.linked.of_same rfl rfl, Or.inl rfl⟩
  | @addedColumn parent column idxs columns success =>
      obtain ⟨_, _, next, _, counter, _⟩ := CatalogColumns.addColumn_ids parent column idxs closed
        success
      exact ⟨CatalogColumns.addColumn_linked column idxs ready.linked success,
        Or.inl (by rw [counter]; rfl)⟩
  | @removedColumn idx path reached =>
      exact ⟨CatalogColumns.removeColumn_linked ready.linked idx, ready.counted⟩
  | @renamedColumn idx path newName columns parent column reached success =>
      have inside := closed.arenaIdxByPath path idx reached
      obtain ⟨_, _, counter⟩ := CatalogColumns.renameColumn_ids idx newName closed inside success
      refine ⟨CatalogColumns.renameColumn_linked idx newName ready.linked inside success, ?_⟩
      dsimp only
      rw [counter]
      exact ready.counted
  | @modifiedColumn idx path update parent column reached id dtype placed =>
      refine ⟨ready.linked.modifyColumn idx update (placed _).1 (placed _).2 ?_ ?_, ready.counted⟩
      · intro child member
        rcases dtype (table.columns.column idx) with same | ⟨type, primitive⟩
        · rwa [same] at member
        · rw [primitive] at member
          cases member
      · intro fields typed
        rcases dtype (table.columns.column idx) with same | ⟨type, primitive⟩
        · rwa [same] at typed
        · rw [primitive] at typed
          cases typed
  | @taggedColumn change idx path edit update edits reached id dtype placed =>
      refine ⟨ready.linked.modifyColumn idx update (placed _).1 (placed _).2 ?_ ?_, ready.counted⟩
      · intro child member
        rwa [dtype] at member
      · intro fields typed
        rwa [dtype] at typed

theorem TablesEdited.columnsReady
    {before after : Catalog}
    {changes : List Change}
    (ready : before.ColumnsReady)
    (edited : TablesEdited db before after changes) :
    after.ColumnsReady := by
  intro other present
  cases edited with
  | same arena =>
      have table : after.table other = before.table other := congrArg (·.get other.idx) arena
      rw [table]
      refine ready other ?_
      unfold Catalog.Has at present ⊢
      rwa [arena] at present
  | @created info columns path retired schemaRef tableColumns partition sortInfo typed built specified
      arena recorded =>
      by_cases new : other.idx = before.tableArena.arena.length
      · have table : (after.table other).columns = tableColumns := by
          unfold Catalog.table
          rw [arena, new, Arena.get_push_length]
        obtain ⟨_, preserved, counted⟩ := CatalogColumns.fromSchema_ids info.schema _ built
        refine ⟨by rw [table]; exact CatalogColumns.fromSchema_linked info.schema _ built, Or.inl ?_⟩
        rw [table]
        cases next : retired.map (transferNextColumnId columns) with
        | none => rw [(counted next).1]; rfl
        | some value => rw [(preserved value next).1]; rfl
      · have table : after.table other = before.table other := by
          unfold Catalog.table
          rw [arena, Arena.get_push_of_ne _ _ _ _ new]
        have low : other.idx < after.tableArena.arena.length := present
        rw [arena] at low
        have old : other.idx < before.tableArena.arena.length := by
          simp only [Arena.push, List.length_append, List.length_singleton] at low
          exact Nat.lt_of_le_of_ne (Nat.le_of_lt_succ low) new
        rw [table]
        exact ready other old
  | @updated ref update inside arena updates =>
      have low : other.idx < after.tableArena.arena.length := present
      rw [arena, Arena.length_modify] at low
      by_cases same : other = ref
      · subst same
        have table : after.table other = update (before.table other) := by
          unfold Catalog.table
          rw [arena, Arena.get_modify_self _ _ _ low]
        rw [table]
        exact updates.columnsReady _ _ _ (ready other low)
      · have table : after.table other = before.table other := by
          unfold Catalog.table
          rw [arena, Arena.get_modify_of_ne]
          intro equal
          cases other
          cases ref
          exact same (congrArg TableRef.mk equal)
        rw [table]
        exact ready other low

end

/-! ## Loaded tables -/

theorem nodup_columnIds
    (columns : List DucklakeColumn)
    (tableId : Int)
    (once : (columns.map columnKey).Nodup) :
    ((columns.filter fun column => column.tableId = tableId).map
      DucklakeColumn.columnId).Nodup := by
  have filtered := once.sublist ((List.filter_sublist
    (p := fun column : DucklakeColumn => decide (column.tableId = tableId))).map columnKey)
  refine List.Nodup.of_map (fun id => (tableId, id)) ?_
  rw [List.map_map]
  refine (congrArg List.Nodup (List.map_congr_left fun column member => ?_)).mp filtered
  have owner : column.tableId = tableId := by simpa using (List.mem_filter.mp member).2
  exact Prod.ext owner rfl

theorem columnsReady_load
    (env : Environment)
    (db : Database)
    (snapshotId : Int)
    (catalog : Catalog)
    (once : ((Versioned.entitiesAt snapshotId db.columns).map columnKey).Nodup)
    (success : Catalog.load env db snapshotId = .ok catalog) :
    catalog.ColumnsReady := by
  intro ref present
  obtain ⟨row, _, loaded⟩ := Catalog.load_table env db snapshotId catalog success ref present
  have from_ := CatalogColumns.fromDucklake_loadedFrom env _ _ _ loaded.columns
  have closed := CatalogColumns.fromDucklake_closed env _ _ loaded.columns
  refine ⟨from_.linked ?_ closed, Or.inr (by rw [loaded.id]; rfl)⟩
  have sorted : (sortByOrder ((Versioned.entitiesAt snapshotId db.columns).filter
      fun column => column.tableId = row.tableId)).Perm _ := List.perm_insertionSort _ _
  exact (sorted.map _).nodup_iff.mpr (nodup_columnIds _ row.tableId once)

end Ducklake
