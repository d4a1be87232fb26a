import Ducklake.Transaction.ColumnNumbers
import Ducklake.Transaction.NewIds
import Ducklake.Transaction.RecordedTables

/-!
# The column rows of an attempt

Every collected column row comes from a change that creates or alters its table, and every column
that a change creates gets a row with its id, however the changes after it go on.
-/

set_option autoImplicit false

namespace Ducklake

open Lib Caches Spec Transaction

namespace Transaction

/-! ## Keys of column rows -/

/-- The table and the id of every column row collected so far. -/
def TransactionChanges.columnKeys (rows : TransactionChanges) : List (Int × Int) :=
  rows.newColumns.map fun row => (row.entity.tableId, row.entity.columnId)

theorem columnKeys_of_same
    (before after : TransactionChanges)
    (same : SameExceptData before after) :
    after.columnKeys = before.columnKeys := by
  rw [same]
  rfl

theorem columnRows_ids
    (env : Environment)
    (state : CommitState)
    (tableId : Int)
    (parent : Option ColumnRef)
    (refs : List ColumnRef)
    (column : Column)
    (built : List DucklakeColumn × List DucklakeColumnTag)
    (few : refs.length ≤ column.size)
    (success : Executors.columnRows env state tableId parent refs column = .ok built) :
    built.1.map DucklakeColumn.columnId = refs.map state.columnId := by
  unfold Executors.columnRows at success
  dsimp only at success
  split at success
  · cases success
  · obtain rfl := Except.ok.inj success
    rw [List.map_map]
    change (column.flatten.zip (refs.map state.columnId)).map Prod.snd = _
    exact List.map_snd_zip (by rwa [List.length_map, Column.length_flatten])

theorem mem_columnRows_keys
    (env : Environment)
    (state : CommitState)
    (tableId : Int)
    (parent : Option ColumnRef)
    (refs : List ColumnRef)
    (column : Column)
    (built : List DucklakeColumn × List DucklakeColumnTag)
    (few : refs.length ≤ column.size)
    (success : Executors.columnRows env state tableId parent refs column = .ok built)
    (ref : ColumnRef)
    (member : ref ∈ refs) :
    ∃ row ∈ built.1, row.tableId = tableId ∧ row.columnId = state.columnId ref := by
  have ids := columnRows_ids env state tableId parent refs column built few success
  have listed : state.columnId ref ∈ built.1.map DucklakeColumn.columnId := by
    rw [ids]
    exact List.mem_map_of_mem member
  obtain ⟨row, inside, same⟩ := List.mem_map.mp listed
  exact ⟨row, inside, (columnRows_tableId env state tableId parent refs column built success).1 row
    inside, same⟩

section

variable {env : Environment} {changes : List Change}
variable {before after : TransactionChanges × CommitState}

theorem Collects.columnKeys_subset (step : Collects env changes before after) :
    before.1.columnKeys ⊆ after.1.columnKeys := by
  cases step with
  | createdTable =>
      unfold TransactionChanges.columnKeys
      dsimp only
      rw [List.append_assoc, List.map_append]
      exact List.subset_append_left _ _
  | addedColumn =>
      unfold TransactionChanges.columnKeys
      dsimp only
      rw [List.map_append]
      exact List.subset_append_left _ _
  | @updatedColumn rows state parent columnRef column tableId built member found success =>
      intro key listed
      obtain ⟨row, inside, rfl⟩ := List.mem_map.mp listed
      unfold TransactionChanges.columnKeys
      dsimp only
      rw [List.map_append]
      by_cases same : row.entity.tableId = tableId ∧ row.entity.columnId = state.columnId columnRef
      · obtain ⟨other, listedOther, table, id⟩ := mem_columnRows_keys env state tableId parent
          [columnRef] column built column.size_pos success columnRef (List.mem_singleton_self _)
        refine List.mem_append_right _ (List.mem_map.mpr ⟨_, List.mem_map_of_mem listedOther, ?_⟩)
        rw [same.1, same.2, ← table, ← id]
        rfl
      · refine List.mem_append_left _ (List.mem_map_of_mem (List.mem_filter.mpr ⟨inside, ?_⟩))
        exact decide_eq_true (not_and_or.mp same)
  | @removedColumn rows state columnRef tableId =>
      intro key listed
      obtain ⟨row, inside, rfl⟩ := List.mem_map.mp listed
      refine List.mem_map.mpr ⟨_, List.mem_map_of_mem inside, ?_⟩
      dsimp only
      split <;> rfl
  | wroteFile member inside found success =>
      rw [columnKeys_of_same _ _ (addDataFile_same env _ _ _ _ _ success)]
      exact fun _ listed => listed
  | inlined =>
      rw [columnKeys_of_same _ _ (createInlinedTable_same env _ _)]
      exact fun _ listed => listed
  | _ => exact fun _ listed => listed

theorem Collected.columnKeys_subset (steps : Collected env changes before after) :
    before.1.columnKeys ⊆ after.1.columnKeys := by
  induction steps with
  | refl => exact fun _ listed => listed
  | tail _ step ih => exact fun _ listed => step.columnKeys_subset (ih listed)

/-! ## Where column rows come from -/

def Change.Defines (ref : TableRef) (change : Change) : Prop :=
  change.created = some (.table ref) ∨ change.recordedTable = some (ref, .alteredTable)

def ColumnsDefined (changes : List Change) (collected : TransactionChanges × CommitState) : Prop :=
  ∀ row ∈ collected.1.newColumns, ∃ change ∈ changes, ∃ ref, change.Defines ref ∧
    collected.2.catalog.idOf (.table ref) = some row.entity.tableId

theorem Collects.columnsDefined
    (defined : ColumnsDefined changes before)
    (step : Collects env changes before after) :
    ColumnsDefined changes after := by
  have extends_ := step.extends
  have kept : ∀ row ∈ before.1.newColumns, ∃ change ∈ changes, ∃ ref, change.Defines ref ∧
      after.2.catalog.idOf (.table ref) = some row.entity.tableId := by
    intro row listed
    obtain ⟨change, member, ref, defines, found⟩ := defined row listed
    exact ⟨change, member, ref, defines, extends_.kept _ _ found⟩
  cases step with
  | createdTable member found located success =>
      obtain ⟨owner, _⟩ := tableColumnRows_tableId env _ _ _ _ success
      refine List.forall_mem_append.mpr ⟨List.forall_mem_append.mpr ⟨kept, ?_⟩, ?_⟩
      · intro row listed
        obtain ⟨column, inside, rfl⟩ := List.mem_map.mp listed
        exact ⟨_, member, _, Or.inl rfl, (owner column inside).symm ▸ found⟩
      · intro row listed
        obtain ⟨column, inside, rfl⟩ := List.mem_map.mp listed
        exact ⟨_, member, _, Or.inl rfl, found⟩
  | addedColumn member found success =>
      obtain ⟨owner, _⟩ := columnRows_tableId env _ _ _ _ _ _ success
      refine List.forall_mem_append.mpr ⟨kept, fun row listed => ?_⟩
      obtain ⟨column, inside, rfl⟩ := List.mem_map.mp listed
      exact ⟨_, member, _, Or.inr rfl, (owner column inside).symm ▸ found⟩
  | updatedColumn member found success =>
      obtain ⟨owner, _⟩ := columnRows_tableId env _ _ _ _ _ _ success
      refine List.forall_mem_append.mpr
        ⟨fun row listed => kept row (List.mem_of_mem_filter listed), fun row listed => ?_⟩
      obtain ⟨column, inside, rfl⟩ := List.mem_map.mp listed
      exact ⟨_, member, _, Or.inr rfl, (owner column inside).symm ▸ found⟩
  | removedColumn =>
      intro row listed
      obtain ⟨old, inside, rfl⟩ := List.mem_map.mp listed
      split <;> exact kept old inside
  | wroteFile member inside found success =>
      have same := addDataFile_same env _ _ _ _ _ success
      intro row listed
      rw [same] at listed
      exact kept row listed
  | @inlined _ _ tableRef =>
      have same := createInlinedTable_same env before tableRef
      intro row listed
      rw [same] at listed
      exact kept row listed
  | _ => exact kept

theorem Collected.columnsDefined
    (defined : ColumnsDefined changes before)
    (steps : Collected env changes before after) :
    ColumnsDefined changes after := by
  induction steps with
  | refl => exact defined
  | tail _ step ih => exact step.columnsDefined ih

/-! ## New columns have rows -/

/-- The table that gets new columns, with the references to them and the ids that it takes over
from dropped columns of its source. -/
def Change.introduces : Change → Option (TableRef × List ColumnRef × List Int)
  | createTable _ tableRef columnRefs _ _ _ retiredColumns .. =>
      some (tableRef, columnRefs.flatten, retiredColumns.map DucklakeColumn.columnId)
  | addTableColumn _ (first :: rest) _ => some (first.tableRef, first :: rest, [])
  | _ => none

/-- There are no more references than columns, and those to added columns are of one table. -/
def Change.Fits : Change → Prop
  | createTable _ _ columnRefs _ _ columns .. =>
      List.Forall₂ (fun (column : Column) (refs : List ColumnRef) => refs.length ≤ column.size)
        columns columnRefs
  | addTableColumn _ columnRefs column => columnRefs.length ≤ column.size ∧
      ∃ tableRef, ∀ ref ∈ columnRefs, ref.tableRef = tableRef
  | _ => True

def Change.HasRows (change : Change) (collected : TransactionChanges × CommitState) : Prop :=
  ∀ ref columns ids, change.introduces = some (ref, columns, ids) → ∃ tableId,
    collected.2.catalog.idOf (.table ref) = some tableId ∧
      (∀ column ∈ columns, (tableId, collected.2.columnId column) ∈ collected.1.columnKeys) ∧
        ∀ id ∈ ids, (tableId, id) ∈ collected.1.columnKeys

theorem columnId_of_extends
    {state later : CommitState}
    (extends_ : state.Extends later)
    (ref : ColumnRef) :
    later.columnId ref = state.columnId ref := by
  rw [CommitState.columnId, CommitState.columnId, Catalog.column, Catalog.column, extends_.columns]

theorem Change.HasRows.collected
    {change : Change}
    (rows : change.HasRows before)
    (extends_ : before.2.Extends after.2)
    (keys : before.1.columnKeys ⊆ after.1.columnKeys) :
    change.HasRows after := by
  intro ref columns ids introduces
  obtain ⟨tableId, found, own, reserved⟩ := rows ref columns ids introduces
  refine ⟨tableId, extends_.kept _ _ found, fun column listed => ?_,
    fun id listed => keys (reserved id listed)⟩
  rw [columnId_of_extends extends_]
  exact keys (own column listed)

variable (env) in
theorem mem_tableColumnRows_keys
    (state : CommitState)
    (tableId : Int)
    (columns : List Column)
    (refs : List (List ColumnRef))
    (built : List (List DucklakeColumn × List DucklakeColumnTag))
    (few : List.Forall₂ (fun (column : Column) (refs : List ColumnRef) =>
      refs.length ≤ column.size) columns refs)
    (success : Executors.tableColumnRows env state tableId (columns.zip refs) = .ok built)
    (ref : ColumnRef)
    (member : ref ∈ refs.flatten) :
    ∃ row ∈ built.flatMap Prod.fst, row.tableId = tableId ∧ row.columnId = state.columnId ref := by
  have pairs := mapM_eq_ok.mp success
  clear success
  induction few generalizing built with
  | nil => cases member
  | @cons column first columns refs enough rest ih =>
      rw [List.zip_cons_cons] at pairs
      cases pairs with
      | cons head tail =>
          rw [List.flatMap_cons]
          rcases List.mem_append.mp member with own | later
          · obtain ⟨row, inside, keys⟩ := mem_columnRows_keys env state tableId none first column _
              enough head ref own
            exact ⟨row, List.mem_append_left _ inside, keys⟩
          · obtain ⟨row, inside, keys⟩ := ih _ later tail
            exact ⟨row, List.mem_append_right _ inside, keys⟩

theorem Change.apply_hasRows
    (change : Change)
    (fits : change.Fits)
    (present : ∀ key ∈ change.objects, before.2.catalog.Has key)
    (success : change.apply env before = .ok after) :
    change.HasRows after := by
  intro ref columns ids introduces
  cases change with
  | createTable schemaRef tableRef columnRefs partitionRefs name trees retired partitioning sortInfo
      path tags =>
      cases introduces
      obtain ⟨resolved, tableId, _, built, _, found, _, builtOk, later⟩ :=
        createTable_steps _ _ _ _ _ _ _ _ _ _ _ (List.mem_singleton_self _)
          (present _ (by simp [Change.objects])) (present _ (by simp [Change.objects])) after success
      have keys := later.columnKeys_subset
      refine ⟨tableId, (Collected.extends later).kept _ _ found, fun column listed => keys ?_,
        fun id listed => keys ?_⟩
      · obtain ⟨row, inside, table, id⟩ :=
          mem_tableColumnRows_keys env resolved tableId trees columnRefs built fits builtOk column listed
        rw [columnId_of_extends (Collected.extends later)]
        unfold TransactionChanges.columnKeys
        dsimp only
        rw [List.map_append, List.map_append]
        refine List.mem_append_left _ (List.mem_append_right _
          (List.mem_map.mpr ⟨_, List.mem_map_of_mem inside, ?_⟩))
        exact Prod.ext table id
      · obtain ⟨column, inside, rfl⟩ := List.mem_map.mp listed
        unfold TransactionChanges.columnKeys
        dsimp only
        rw [List.map_append]
        exact List.mem_append_right _ (List.mem_map.mpr ⟨_, List.mem_map_of_mem inside, rfl⟩)
  | addTableColumn parent refs column =>
      cases refs with
      | nil => cases introduces
      | cons first rest =>
          cases introduces
          obtain ⟨built, builtTags, builtOk, rfl⟩ :=
            Executors.addTableColumn_eq_ok env before.1 before.2 parent first rest column after success
          refine ⟨_, CommitState.idOf_objectId before.2 (.table first.tableRef)
            (present _ (by simp [Change.objects, Change.affectedTableRef])), ?_, by simp⟩
          intro ref listed
          obtain ⟨row, inside, table, id⟩ := mem_columnRows_keys env _ _ parent _ column _ fits.1
            builtOk ref listed
          unfold TransactionChanges.columnKeys
          dsimp only
          rw [List.map_append]
          refine List.mem_append_right _ (List.mem_map.mpr ⟨_, List.mem_map_of_mem inside, ?_⟩)
          exact Prod.ext table id
  | _ => cases introduces

theorem fits_of_keepsColumns
    (change : Change)
    (plain : change.keepsColumns = true) :
    change.Fits := by
  cases change <;> trivial

theorem fits_of_laid
    (columns : CatalogColumns)
    (tableRef : TableRef)
    (roots : List ArenaIdx)
    (trees : List Column)
    (laid : List.Forall₂ (fun idx column => columns.Laid idx none column) roots trees) :
    List.Forall₂ (fun (column : Column) (refs : List ColumnRef) => refs.length ≤ column.size) trees
      (roots.map fun idx =>
        (columns.aggregateColumnIndices columns.arena.length idx).map (ColumnRef.mk tableRef)) := by
  induction laid with
  | nil => exact .nil
  | @cons idx column _ _ first rest ih =>
      refine .cons ?_ ih
      rw [List.length_map]
      exact (first.length_aggregate column columns.arena.length 0 none
        (Column.pieceOf_flatten column)).1

theorem fits_of_edit
    {db : Database}
    {stats : DucklakeResult TableStatsMap}
    {method : Operation}
    (old new : Catalog)
    (sound : old.WellFormed)
    (edit : Edit env db stats method old changes new) :
    ∀ change ∈ changes, change.Fits := by
  cases edit.tables sound with
  | same arena plain => exact fun change member => fits_of_keepsColumns change (plain change member)
  | @created info columns _ _ _ tableColumns _ _ typed built _ _ recorded =>
      rw [recorded, List.forall_mem_singleton]
      obtain ⟨values, unique⟩ := ofColumns_eq_ok columns info.schema typed
      obtain ⟨laid, _⟩ := CatalogColumns.fromSchema_eq_ok info.schema _ tableColumns
        (by rwa [values]) built
      rw [values] at laid
      change List.Forall₂ _ columns _
      rw [CatalogColumns.rootColumnIndices, List.map_map]
      exact fits_of_laid tableColumns _ _ _ laid
  | @updated ref update _ _ updates =>
      generalize update (old.table ref) = updated at updates
      cases updates with
      | described plain =>
          rw [List.forall_mem_singleton]
          exact fits_of_keepsColumns _ plain
      | counted => simp
      | @addedColumn _ column idxs _ success =>
          rw [List.forall_mem_singleton]
          obtain ⟨_, _, success⟩ := bind_eq_ok.mp success
          obtain ⟨⟨_, columns⟩, added, success⟩ := bind_eq_ok.mp success
          obtain ⟨_, _, success⟩ := bind_eq_ok.mp success
          obtain ⟨rfl, _⟩ := Prod.mk.inj (Except.ok.inj success)
          obtain ⟨rfl, _⟩ := CatalogColumns.addColumnToArena_eq_ok _ _ _ _ _ _ added
          refine ⟨by simp, ref, fun column listed => ?_⟩
          obtain ⟨idx, _, rfl⟩ := List.mem_map.mp listed
          rfl
      | removedColumn =>
          intro change member
          obtain ⟨_, _, rfl⟩ := List.mem_map.mp member
          trivial
      | partitioned | renamedColumn | modifiedColumn =>
          rw [List.forall_mem_singleton]
          trivial
      | @taggedColumn change _ _ _ _ edits =>
          rw [List.forall_mem_singleton]
          cases change <;> trivial

/-! ## Prepared commits -/

section

variable (env) (set : ChangeSet) (state : CommitState) (prepared : PreparedCommit)

theorem prepareCommit_columnsDefined
    (present : ∀ change ∈ set.changes, ∀ key ∈ change.objects, state.catalog.Has key)
    (success : prepareCommit env set state = .ok prepared) :
    ColumnsDefined set.changes (prepared.changes, prepared.state) := by
  obtain ⟨applied, executed, _, later⟩ := prepareCommit_eq_ok env set state prepared success
  have defined := (set.apply_collected env state _ present executed).columnsDefined
    (fun row listed => by cases listed)
  intro row listed
  obtain ⟨change, member, ref, defines, found⟩ := defined row listed
  exact ⟨change, member, ref, defines,
    ((set.appliedChangeSet_extends applied).trans later).kept _ _ found⟩

theorem prepareCommit_hasRows
    (present : ∀ change ∈ set.changes, ∀ key ∈ change.objects, state.catalog.Has key)
    (fits : ∀ change ∈ set.changes, change.Fits)
    (success : prepareCommit env set state = .ok prepared) :
    ∀ change ∈ set.changes, change.HasRows (prepared.changes, prepared.state) := by
  obtain ⟨applied, executed, _, later⟩ := prepareCommit_eq_ok env set state prepared success
  have run := set.apply_run env state _
    (fun done collected => ∀ change ∈ done, change.HasRows collected) present (by simp)
    (fun done change rest before after split extends_ rows applies steps => by
      have member : change ∈ set.changes := by simp [split]
      refine List.forall_mem_append.mpr ⟨fun other listed => ?_, ?_⟩
      · exact (rows other listed).collected (Collected.extends steps) steps.columnKeys_subset
      · rw [List.forall_mem_singleton]
        exact change.apply_hasRows (fits change member)
          (fun key object => (extends_.has key).mpr (present change member key object)) applies)
    executed
  obtain ⟨collected, _, rows, same, extends_⟩ := run
  intro change member
  refine (rows change member).collected
    (extends_.trans ((set.appliedChangeSet_extends applied).trans later)) ?_
  exact fun key listed => (columnKeys_of_same _ _ same).symm ▸ listed

end

end

end Transaction

end Ducklake
