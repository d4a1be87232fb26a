import Ducklake.Transaction.Renewals

/-!
# Where the columns of a transaction come from

Every column that a transaction knows of was stored when it started, or one of its changes creates
it; and a change gives different ids to the columns that it creates.
-/

set_option autoImplicit false

namespace Ducklake

open Lib Caches Spec Transaction

/-! ## Columns that changes create -/

namespace Transaction.Change

def newColumns : Change → List ColumnRef
  | createTable _ _ columnRefs .. => columnRefs.flatten
  | addTableColumn _ columnRefs _ => columnRefs
  | _ => []

def Whole : Change → Prop
  | createTable _ _ columnRefs _ _ columns .. =>
      List.Forall₂ (fun (column : Column) (refs : List ColumnRef) => column.size ≤ refs.length)
        columns columnRefs
  | _ => True

theorem newColumns_subset (change : Change) : change.newColumns ⊆ change.columnRefs := by
  cases change <;> simp [newColumns, columnRefs]

end Transaction.Change

/-- The references to the columns of a new table are those to its whole arena. -/
theorem newColumns_of_fromSchema
    (schema : Schema)
    (columns : List Column)
    (next : Option Int)
    (tableColumns : CatalogColumns)
    (tableRef : TableRef)
    (typed : Schema.ofColumns columns = .ok schema)
    (built : CatalogColumns.fromSchema schema next = .ok tableColumns)
    (whole : List.Forall₂ (fun (column : Column) (refs : List ColumnRef) =>
      column.size ≤ refs.length) columns
        (tableColumns.rootColumnIndices.map (·.map (ColumnRef.mk tableRef)))) :
    (tableColumns.rootColumnIndices.map (·.map (ColumnRef.mk tableRef))).flatten =
      (List.range tableColumns.arena.length).map (ColumnRef.mk tableRef) := by
  obtain ⟨values, unique⟩ := ofColumns_eq_ok columns schema typed
  rw [← List.map_flatten]
  congr 1
  refine CatalogColumns.flatten_rootColumnIndices schema next tableColumns (by rwa [values]) built ?_
  rw [values]
  rw [List.forall₂_map_right_iff] at whole
  exact whole.imp fun column indices enough => by rwa [List.length_map] at enough

theorem addTable_columns
    (before after : Catalog)
    (info : TableInfo)
    (path : DucklakePath)
    (next : Option Int)
    (added : Catalog.AddedTable)
    (success : before.addTable info path next = .ok (added, after)) :
    CatalogColumns.fromSchema info.schema next = .ok (after.table added.tableRef).columns ∧
      added.columnRefs = (after.table added.tableRef).columns.rootColumnIndices.map
        (·.map (ColumnRef.mk added.tableRef)) := by
  unfold Catalog.addTable at success
  split at success
  · cases success
  · split at success
    · cases success
    · obtain ⟨columns, built, success⟩ := bind_eq_ok.mp success
      obtain ⟨partition, _, success⟩ := bind_eq_ok.mp success
      obtain ⟨sortInfo, _, success⟩ := bind_eq_ok.mp success
      obtain ⟨schema, _, success⟩ := bind_eq_ok.mp success
      cases success
      have own := congrArg CatalogTable.columns (Arena.get_push_length before.tableArena {
        id := none
        name := info.name
        columns := columns
        partition := partition
        sortInfo := sortInfo
        tags := info.tags
        path := path } none)
      constructor
      · exact built.trans (congrArg Except.ok own.symm)
      · exact congrArg (fun columns : CatalogColumns => columns.rootColumnIndices.map
          (·.map (ColumnRef.mk ⟨before.tableArena.arena.length⟩))) own.symm

section

variable {env : Environment} {db : Database} {stats : DucklakeResult TableStatsMap}
variable {method : Operation} {changes : List Change}

theorem nodup_newTable_ids
    (schema : Schema)
    (columns : List Column)
    (retired : Option (List DucklakeColumn))
    (tableColumns : CatalogColumns)
    (transferred : retired.isSome = true →
      ((columns.flatMap Column.flatten).filterMap fun flat => flat.column.fieldId).Nodup)
    (typed : Schema.ofColumns columns = .ok schema)
    (built : CatalogColumns.fromSchema schema (retired.map (transferNextColumnId columns)) =
      .ok tableColumns) :
    tableColumns.ids.Nodup := by
  obtain ⟨_, taken, counted⟩ := CatalogColumns.fromSchema_ids _ _ built
  cases retired with
  | none =>
      rw [(counted rfl).2]
      refine List.nodup_range.map fun first second same => ?_
      omega
  | some retired =>
      rw [(taken _ rfl).2, (ofColumns_eq_ok _ _ typed).1]
      exact transferred rfl

theorem Edit.newColumns_nodup
    {before after : Catalog}
    (edit : Edit env db stats method before changes after)
    (transfers : ∀ columns, method.transfers columns →
      ((columns.flatMap Column.flatten).filterMap fun flat => flat.column.fieldId).Nodup)
    (increasing : ∀ change ∈ changes,
      (change.addedColumns.map fun column => (after.column column).id).Pairwise (· < ·)) :
    ∀ change ∈ changes, change.Whole →
      (change.newColumns.map fun column => (after.column column).id).Nodup := by
  intro change member whole
  cases edit with
  | createTable preserved typed success =>
      rw [List.mem_singleton] at member
      subst member
      obtain ⟨built, refs⟩ := addTable_columns _ _ _ _ _ _ success
      unfold Change.Whole at whole
      unfold Change.newColumns
      dsimp only at whole ⊢
      rw [refs] at whole ⊢
      rw [newColumns_of_fromSchema _ _ _ _ _ typed built whole, List.map_map]
      have ids := nodup_newTable_ids _ _ _ _ (fun given => transfers _ (preserved given)) typed built
      rwa [← CatalogColumns.map_column_id_range] at ids
  | addColumn found success =>
      rw [List.mem_singleton] at member
      subst member
      exact (increasing _ (List.mem_singleton_self _)).imp fun below same => by omega
  | removeColumn found success =>
      obtain ⟨_, _, rfl⟩ := List.mem_map.mp member
      exact List.nodup_nil
  | ensureNextColumnId => cases member
  | _ =>
      rw [List.mem_singleton] at member
      subst member
      exact List.nodup_nil

/-! ## Columns and their tables -/

/-- The columns of a change are those of the table that it affects. -/
def Transaction.Change.OwnsColumns (change : Change) : Prop :=
  ∀ column ∈ change.columnRefs, change.affectedTableRef = some column.tableRef

theorem Transaction.Change.OwnsColumns.mem_objects
    {change : Change}
    (owns : change.OwnsColumns)
    (column : ColumnRef)
    (member : column ∈ change.columnRefs) :
    .table column.tableRef ∈ change.objects := by
  have affected := owns column member
  cases change with
  | createTable =>
      obtain rfl := Option.some.inj affected
      exact List.mem_cons_self ..
  | addTableColumn | updateTableColumn | removeTableColumn | addTableColumnTag
  | removeTableColumnTag => simp [Change.objects, affected]
  | _ => cases member

theorem Edit.ownsColumns
    {before after : Catalog}
    (edit : Edit env db stats method before changes after) :
    ∀ change ∈ changes, change.OwnsColumns := by
  cases edit with
  | createTable _ typed success =>
      rw [List.forall_mem_singleton]
      intro column member
      obtain ⟨_, refs⟩ := addTable_columns _ _ _ _ _ _ success
      obtain ⟨part, listed, inside⟩ := List.mem_flatten.mp member
      rw [refs] at listed
      obtain ⟨indices, _, rfl⟩ := List.mem_map.mp listed
      obtain ⟨idx, _, rfl⟩ := List.mem_map.mp inside
      rfl
  | addColumn found success =>
      rw [List.forall_mem_singleton]
      intro column member
      have same := addColumn_refs _ _ _ _ _ success
      unfold Change.columnRefs at member
      obtain ⟨first, head⟩ := Option.isSome_iff_exists.mp
        (List.isSome_head?.mpr (List.ne_nil_of_mem member))
      rw [Change.affectedTableRef, head, Option.map_some, same first (List.mem_of_head? head),
        same column member]
  | removeColumn found success =>
      intro change member column inside
      obtain ⟨removed, _, rfl⟩ := List.mem_map.mp member
      rw [List.mem_singleton.mp inside]
      rfl
  | ensureNextColumnId => exact fun _ member => by cases member
  | renameColumn | updateColumnDefault | updateColumnNullability | promoteColumn | addColumnTag
  | removeColumnTag =>
      rw [List.forall_mem_singleton]
      intro column member
      rw [List.mem_singleton.mp member]
      rfl
  | _ =>
      rw [List.forall_mem_singleton]
      intro column member
      cases member

/-! ## Columns that have rows -/

theorem columnRows_enough
    (state : CommitState)
    (tableId : Int)
    (parent : Option ColumnRef)
    (refs : List ColumnRef)
    (column : Column)
    (built : List DucklakeColumn × List DucklakeColumnTag)
    (success : Executors.columnRows env state tableId parent refs column = .ok built) :
    column.size ≤ refs.length := by
  unfold Executors.columnRows at success
  dsimp only at success
  split at success
  · cases success
  · rename_i enough
    rwa [Nat.not_lt, List.length_map, Column.length_flatten] at enough

theorem tableColumnRows_enough
    (state : CommitState)
    (tableId : Int)
    (columns : List Column)
    (refs : List (List ColumnRef))
    (built : List (List DucklakeColumn × List DucklakeColumnTag))
    (few : List.Forall₂ (fun (column : Column) (refs : List ColumnRef) =>
      refs.length ≤ column.size) columns refs)
    (success : Executors.tableColumnRows env state tableId (columns.zip refs) = .ok built) :
    List.Forall₂ (fun (column : Column) (refs : List ColumnRef) => column.size ≤ refs.length)
      columns refs := by
  have pairs := mapM_eq_ok.mp success
  clear success
  induction few generalizing built with
  | nil => exact .nil
  | cons _ rest ih =>
      rw [List.zip_cons_cons] at pairs
      cases pairs with
      | cons own others => exact .cons (columnRows_enough _ _ _ _ _ _ own) (ih _ others)

theorem Transaction.Change.apply_whole
    {before after : TransactionChanges × CommitState}
    (change : Change)
    (fits : change.Fits)
    (success : change.apply env before = .ok after) :
    change.Whole := by
  cases change with
  | createTable schemaRef tableRef columnRefs partitionRefs name columns =>
      obtain ⟨_, _, _, built, _, _, _, rows, _⟩ :=
        createTable_eq_ok _ _ _ _ _ _ _ _ _ _ _ _ _ success
      exact tableColumnRows_enough _ _ _ _ built fits rows
  | _ => trivial

theorem prepareCommit_whole
    (set : ChangeSet)
    (state : CommitState)
    (prepared : PreparedCommit)
    (present : ∀ change ∈ set.changes, ∀ key ∈ change.objects, state.catalog.Has key)
    (fits : ∀ change ∈ set.changes, change.Fits)
    (success : prepareCommit env set state = .ok prepared) :
    ∀ change ∈ set.changes, change.Whole := by
  obtain ⟨applied, executed, _⟩ := prepareCommit_eq_ok env set state prepared success
  obtain ⟨_, _, whole, _⟩ := set.apply_run env state _ (fun done _ => ∀ change ∈ done, change.Whole)
    present (by simp)
    (fun done change rest before after split _ whole applies _ => by
      have member : change ∈ set.changes := by simp [split]
      rw [List.forall_mem_append, List.forall_mem_singleton]
      exact ⟨whole, change.apply_whole (fits change member) applies⟩)
    executed
  exact whole

/-! ## Columns that edits add -/

def Transaction.Change.Creates (change : Change) (column : ColumnRef) : Prop :=
  change.created = some (.table column.tableRef) ∧ (change.Whole → column ∈ change.newColumns) ∨
    column ∈ change.addedColumns

theorem TableUpdate.creates
    {ref : TableRef}
    {table updated : CatalogTable}
    (closed : table.columns.Closed)
    (update : TableUpdate db ref table changes updated)
    (idx : ArenaIdx)
    (inside : idx < updated.columns.arena.length) :
    idx < table.columns.arena.length ∨ ∃ change ∈ changes, change.Creates ⟨ref, idx⟩ := by
  have same : updated.columns.ids = table.columns.ids → idx < table.columns.arena.length := by
    intro ids
    rw [← CatalogColumns.length_ids, ← ids, CatalogColumns.length_ids]
    exact inside
  cases update with
  | described plain id columns => exact Or.inl (same (congrArg CatalogColumns.ids columns))
  | partitioned | counted => exact Or.inl inside
  | removedColumn => exact Or.inl (same rfl)
  | renamedColumn reached success =>
      obtain ⟨_, ids, _⟩ := CatalogColumns.renameColumn_ids _ _ closed
        (closed.arenaIdxByPath _ _ reached) success
      exact Or.inl (same ids)
  | modifiedColumn reached id =>
      exact Or.inl (same (CatalogColumns.ids_modifyColumn table.columns _ _ id))
  | taggedColumn edits reached id =>
      exact Or.inl (same (CatalogColumns.ids_modifyColumn table.columns _ _ id))
  | @addedColumn parent column idxs columns success =>
      obtain ⟨_, rfl, _, _, _, ids⟩ := CatalogColumns.addColumn_ids parent column idxs closed success
      have size : columns.arena.length = table.columns.arena.length + column.size := by
        rw [← CatalogColumns.length_ids, ids]
        simp [CatalogColumns.length_ids]
      by_cases old : idx < table.columns.arena.length
      · exact Or.inl old
      · refine Or.inr ⟨_, List.mem_singleton_self _, Or.inr (List.mem_map_of_mem ?_)⟩
        refine List.mem_range'_1.mpr ⟨Nat.le_of_not_lt old, ?_⟩
        rw [← size]
        exact inside

theorem TablesEdited.creates
    {old new : Catalog}
    (closed : ∀ ref, (old.table ref).columns.Closed)
    (edited : TablesEdited db old new changes)
    (column : ColumnRef)
    (inside : column.columnIdx < (new.table column.tableRef).columns.arena.length) :
    column.columnIdx < (old.table column.tableRef).columns.arena.length ∨
      ∃ change ∈ changes, change.Creates column := by
  cases edited with
  | same arena plain =>
      left
      rwa [Catalog.table, arena] at inside
  | @created info columns path retired schemaRef tableColumns partition sortInfo typed built
      specified arena recorded =>
      by_cases own : column.tableRef = ⟨old.tableArena.arena.length⟩
      · right
        rw [recorded]
        refine ⟨_, List.mem_singleton_self _, Or.inl ⟨by rw [own]; rfl, fun whole => ?_⟩⟩
        rw [Change.newColumns, newColumns_of_fromSchema _ _ _ _ _ typed built whole]
        rw [Catalog.table, arena, own, Arena.get_push_length] at inside
        exact List.mem_map.mpr ⟨column.columnIdx, List.mem_range.mpr inside, by rw [← own]⟩
      · left
        have outside : column.tableRef.idx ≠ old.tableArena.arena.length := fun same =>
          own (congrArg TableRef.mk same)
        rwa [Catalog.table, arena, Arena.get_push_of_ne _ _ _ _ outside] at inside
  | @updated ref update present arena updates =>
      by_cases own : column.tableRef = ref
      · subst own
        rw [Catalog.table, arena, Arena.get_modify_self _ _ _ present] at inside
        exact updates.creates (closed _) column.columnIdx inside
      · left
        rwa [Catalog.table, arena, Arena.get_modify_of_ne _ _ _ _ fun same =>
          own (congrArg TableRef.mk same)] at inside

/-! ## Transactions -/

/-- Every column of a transaction was stored when it started, or one of its changes creates it. -/
structure Transaction.ColumnsSourced (db : Database) (tx : Transaction) : Prop where
  sourced : ∀ column : ColumnRef,
    column.columnIdx < (tx.catalog.table column.tableRef).columns.arena.length →
      (∃ tableId, tx.catalog.idOf (.table column.tableRef) = some tableId ∧
        db.HasColumn tx.snapshot.id tableId (tx.catalog.column column).id) ∨
      ∃ change ∈ tx.changes, change.Creates column
  distinct : ∀ change ∈ tx.changes, change.Whole →
    (change.newColumns.map fun column => (tx.catalog.column column).id).Nodup

section

variable {tx : Transaction}

theorem Transaction.ColumnsSourced.edit
    {catalog : Catalog}
    (numbered : tx.ColumnsNumbered db)
    (sourced : tx.ColumnsSourced db)
    (sound : tx.catalog.WellFormed)
    (transfers : ∀ columns, method.transfers columns →
      ((columns.flatMap Column.flatten).filterMap fun flat => flat.column.fieldId).Nodup)
    (edit : Edit env db stats method tx.catalog changes catalog) :
    Transaction.ColumnsSourced db
      { tx with catalog := catalog, changes := tx.changes ++ changes } := by
  have tables := edit.tables sound
  have edited := tables.columnsEdited numbered.tables
  constructor
  case sourced =>
    intro column inside
    rcases tables.creates (fun ref => (numbered.tables ref).closed) column inside with old | new
    · rcases sourced.sourced column old with ⟨tableId, found, stored⟩ | ⟨change, member, creates⟩
      · refine Or.inl ⟨tableId, ?_, ?_⟩
        · exact (edit.grows.idOf _ rfl).trans found
        · dsimp only
          rw [Catalog.column, (edited.grows _).column_id _ old]
          exact stored
      · exact Or.inr ⟨change, List.mem_append_left _ member, creates⟩
    · obtain ⟨change, member, creates⟩ := new
      exact Or.inr ⟨change, List.mem_append_right _ member, creates⟩
  case distinct =>
    refine List.forall_mem_append.mpr ⟨fun change member whole => ?_,
      edit.newColumns_nodup transfers edited.increasing⟩
    have same : (change.newColumns.map fun column => (catalog.column column).id) =
        change.newColumns.map fun column => (tx.catalog.column column).id :=
      List.map_congr_left fun column listed => (edited.grows _).column_id _
        (numbered.inside change member column (change.newColumns_subset listed))
    rw [same]
    exact sourced.distinct change member whole

theorem columnsSourced_new
    (info : SnapshotInfo)
    (catalog : Catalog)
    (success : Catalog.load env db info.id = .ok catalog) :
    (Transaction.new info catalog).ColumnsSourced db where
  sourced column inside := by
    change column.columnIdx < (catalog.table column.tableRef).columns.arena.length at inside
    by_cases present : catalog.Has (.table column.tableRef)
    · obtain ⟨row, _, loads⟩ :=
        Catalog.load_table env db info.id catalog success column.tableRef present
      obtain ⟨unset, _⟩ := CatalogColumns.fromDucklake_ids env _ _ _ loads.columns
      exact Or.inl (loads.numbered.loaded unset _
        (List.mem_of_getElem? (CatalogColumns.getElem?_ids _ _ inside)))
    · have absent : catalog.table column.tableRef = default := by
        simp [Catalog.table, Arena.get, List.getElem?_eq_none (Nat.le_of_not_lt present)]
      rw [absent] at inside
      cases inside
  distinct _ member := by cases member

theorem Transaction.ColumnsSourced.committed
    {later : Database}
    {creates : Int}
    (sourced : tx.ColumnsSourced db)
    (updates : Versioned.Updates creates db.columns later.columns) :
    tx.ColumnsSourced later where
  sourced column inside := by
    rcases sourced.sourced column inside with ⟨tableId, found, stored⟩ | created
    · exact Or.inl ⟨tableId, found, stored.updated updates⟩
    · exact Or.inr created
  distinct := sourced.distinct

end

end

end Ducklake
