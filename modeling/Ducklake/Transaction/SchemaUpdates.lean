import Ducklake.Catalog.ShownRoots
import Ducklake.Transaction.RetypeSteps
import Ducklake.Transaction.RetypedTrees

/-!
# Updates of a table's schema

An update applies the difference between the shown columns and the given ones, column by column.
What is shown afterwards follows from the two lists.
-/

set_option autoImplicit false

namespace Ducklake

open Lib Caches Spec Transaction

namespace CatalogColumns

theorem Treelike.distinctFields_of_get?_schema
    {columns : CatalogColumns}
    (tree : columns.Treelike)
    (root : Text)
    (column : Column)
    (shown : columns.schema.columns.get? root = some column) :
    column.distinctFields = true := by
  have rooted := shown
  rw [tree.linked.get?_schema] at rooted
  obtain ⟨idx, found, _⟩ := Option.bind_eq_some_iff.mp rooted
  have reached := (arenaIdxByPath_root root idx).mpr found
  rw [tree.linked.eq_of_get?_schema root idx column reached shown]
  exact tree.distinctFields [root] idx _ reached (columns.lastsBelow_root root)

theorem schema_counted
    (columns : CatalogColumns)
    (next : Option Int) :
    { columns with nextColumnId := next }.schema = columns.schema := by
  have trees : { columns with nextColumnId := next }.schemaColumnFromArenaIndex =
      columns.schemaColumnFromArenaIndex := by
    funext idx
    exact schemaColumn_of_arena columns { columns with nextColumnId := next } rfl _ idx
  unfold schema
  rw [trees]
  rfl

end CatalogColumns

def Catalog.shown (catalog : Catalog) (ref : TableRef) (name : Text) : Option Column :=
  (catalog.tableSchema ref).columns.get? name

namespace Transaction

/-! ## Tables that are worked on -/

/-- A named table whose columns are a forest with different ids below the counter. -/
structure Editing (db : Database) (name : QualifiedName) (ref : TableRef) (catalog : Catalog) :
    Prop where
  found : catalog.tableRef name = .ok ref
  present : catalog.Has (.table ref)
  tree : (catalog.table ref).columns.Treelike
  unique : (catalog.table ref).columns.ids.Nodup
  counted : (catalog.table ref).columns.nextColumnId.isSome ∨ (catalog.table ref).id.isSome
  below : ∀ next, (catalog.table ref).columns.nextColumnId = some next →
    ∀ id ∈ (catalog.table ref).columns.ids, id < next
  loaded : (catalog.table ref).columns.nextColumnId = none → ∀ tableId next,
    (catalog.table ref).id = some tableId → Catalog.loadNextColumnId db tableId = .ok next →
      ∀ id ∈ (catalog.table ref).columns.ids, id < next

/-- One shown column of a table changes, and the others stay. -/
structure ShowsEdit (ref : TableRef) (root : Text) (edit : Column → Column → Prop)
    (before after : Catalog) : Prop where
  others : ∀ other, other ≠ root → after.shown ref other = before.shown ref other
  self : ∀ column, before.shown ref root = some column →
    ∃ column', after.shown ref root = some column' ∧ edit column column'

section

variable {db : Database} {name : QualifiedName} {ref : TableRef} {catalog before middle after : Catalog}

theorem Editing.columnsReady (editing : Editing db name ref catalog) :
    (catalog.table ref).ColumnsReady :=
  ⟨editing.tree.linked, editing.counted⟩

theorem Editing.next
    (editing : Editing db name ref catalog)
    (columns : CatalogColumns)
    (update : CatalogTable → CatalogTable)
    (updated : update (catalog.table ref) = { catalog.table ref with columns := columns })
    (tree : columns.Treelike)
    (ids : columns.ids = (catalog.table ref).columns.ids)
    (counter : columns.nextColumnId = (catalog.table ref).columns.nextColumnId) :
    Editing db name ref (catalog.modifyTable ref update) := by
  have table := (Catalog.table_modifyTable editing.present update).trans updated
  refine ⟨editing.found, Catalog.has_modifyTable editing.present _, ?_, ?_, ?_, ?_, ?_⟩
  all_goals rw [table]
  · exact tree
  · dsimp only
    rw [ids]
    exact editing.unique
  · dsimp only
    rw [counter]
    exact editing.counted
  · dsimp only
    rw [ids, counter]
    exact editing.below
  · dsimp only
    rw [ids, counter]
    exact editing.loaded

theorem shown_modifyTable
    (editing : Editing db name ref catalog)
    (columns : CatalogColumns)
    (update : CatalogTable → CatalogTable)
    (updated : update (catalog.table ref) = { catalog.table ref with columns := columns })
    (root : Text) :
    (catalog.modifyTable ref update).shown ref root = columns.schema.columns.get? root := by
  unfold Catalog.shown Catalog.tableSchema
  rw [Catalog.table_modifyTable editing.present update, updated]

theorem Editing.count
    (editing : Editing db name ref catalog)
    (success : catalog.ensureNextColumnId db ref = .ok after) :
    Editing db name ref after ∧
      (∃ next, (after.table ref).columns =
        { (catalog.table ref).columns with nextColumnId := some next }) ∧
      ∀ root, after.shown ref root = catalog.shown ref root := by
  unfold Catalog.ensureNextColumnId at success
  dsimp only at success
  split at success
  · rename_i next set
    obtain rfl := Except.ok.inj success
    refine ⟨editing, ⟨next, ?_⟩, fun _ => rfl⟩
    rw [← set]
  · cases success
  · rename_i tableId unset id
    obtain ⟨next, loads, success⟩ := bind_eq_ok.mp success
    obtain rfl := Except.ok.inj success
    have table := Catalog.table_modifyTable editing.present fun table =>
      { table with columns := { table.columns with nextColumnId := some next } }
    have bounded := editing.loaded unset tableId next id loads
    refine ⟨⟨editing.found, Catalog.has_modifyTable editing.present _, ?_, ?_, ?_, ?_, ?_⟩,
      ⟨next, by rw [table]⟩, fun root => ?_⟩
    · rw [table]
      exact ⟨editing.tree.linked.of_same rfl rfl, editing.tree.maps.of_arena rfl⟩
    · rw [table]
      exact editing.unique
    · rw [table]
      exact Or.inl rfl
    · rw [table]
      intro other same id member
      obtain rfl := Option.some.inj same
      exact bounded id member
    · rw [table]
      exact nofun
    · rw [shown_modifyTable editing { (catalog.table ref).columns with nextColumnId := some next } _
        rfl, CatalogColumns.schema_counted]
      rfl

theorem Editing.add
    {parent : Option ArenaIdx}
    {idxs : List ArenaIdx}
    {columns : CatalogColumns}
    (editing : Editing db name ref catalog)
    (column : Column)
    (success : (catalog.table ref).columns.addColumn parent column = .ok (idxs, columns)) :
    columns.Treelike ∧ columns.ids.Nodup ∧
      Editing db name ref (catalog.modifyTable ref fun table => { table with columns := columns }) := by
  have tree : columns.Treelike := ⟨CatalogColumns.addColumn_linked column idxs editing.tree.linked
    success, CatalogColumns.addColumn_mapsApart parent column idxs editing.tree.maps success⟩
  obtain ⟨_, _, next, counter, later, ids⟩ :=
    CatalogColumns.addColumn_ids parent column idxs editing.tree.linked.closed success
  have old := editing.below next counter
  have unique : columns.ids.Nodup := by
    rw [ids, List.nodup_append]
    refine ⟨editing.unique, ?_, ?_⟩
    · refine List.Nodup.map (fun a b same => ?_) List.nodup_range
      omega
    · intro id member other added
      obtain ⟨offset, _, rfl⟩ := List.mem_map.mp added
      have bound := old id member
      omega
  have table := Catalog.table_modifyTable editing.present fun table =>
    { table with columns := columns }
  refine ⟨tree, unique, editing.found, Catalog.has_modifyTable editing.present _, ?_, ?_, ?_, ?_, ?_⟩
  all_goals rw [table]
  · exact tree
  · exact unique
  · exact Or.inl (by dsimp only; rw [later]; rfl)
  · dsimp only
    rw [later, ids]
    intro other same id member
    obtain rfl := Option.some.inj same
    rcases List.mem_append.mp member with before | new
    · have bound := old id before
      omega
    · obtain ⟨offset, inside, rfl⟩ := List.mem_map.mp new
      have bound := List.mem_range.mp inside
      omega
  · dsimp only
    rw [later]
    exact nofun

/-! ## Steps -/

variable {tx next : Transaction}

theorem eq_ok_of_columnByPath
    (editing : Editing db name ref catalog)
    (path : List Text)
    (column : ColumnRef)
    (success : columnByPath catalog name path = .ok column) :
    ∃ idx, column = ⟨ref, idx⟩ ∧ (catalog.table ref).columns.arenaIdxByPath path = .ok idx := by
  obtain ⟨table, named, success⟩ := bind_eq_ok.mp success
  obtain rfl := Except.ok.inj (named.symm.trans editing.found)
  obtain ⟨idx, reached, success⟩ := bind_eq_ok.mp success
  exact ⟨idx, (Except.ok.inj success).symm, reached⟩

/-- A removed column is not shown any more if it is a root, and still shown otherwise. -/
theorem Editing.remove
    (editing : Editing db name ref tx.catalog)
    (path : List Text)
    (success : tx.removeTableColumn name path = .ok next) :
    Editing db name ref next.catalog ∧ ∀ root, next.catalog.shown ref root =
      if path = [root] then none else tx.catalog.shown ref root := by
  obtain ⟨column, located, success⟩ := bind_eq_ok.mp success
  obtain ⟨idx, rfl, reached⟩ := eq_ok_of_columnByPath editing path column located
  obtain ⟨⟨refs, catalog⟩, removed, success⟩ := bind_eq_ok.mp success
  obtain rfl := Except.ok.inj success
  unfold Catalog.removeColumn at removed
  dsimp only at removed
  split at removed
  · cases removed
  · split at removed
    · cases removed
    · obtain ⟨_, rfl⟩ := Prod.mk.inj (Except.ok.inj removed)
      refine ⟨editing.next _ _ rfl ⟨CatalogColumns.removeColumn_linked editing.tree.linked idx,
        editing.tree.maps.of_arena rfl⟩ rfl rfl, fun root => ?_⟩
      refine (shown_modifyTable editing _ _ rfl root).trans ?_
      exact editing.tree.get?_schema_removeColumn editing.unique path idx reached root

theorem Editing.addTableColumn
    (editing : Editing db name ref tx.catalog)
    (path : List Text)
    (column : Column)
    (success : tx.addTableColumn db name column path = .ok next) :
    ∃ counted parent idxs columns, tx.catalog.ensureNextColumnId db ref = .ok counted ∧
      (path = [] ∧ parent = none ∨ ∃ idx, parent = some idx ∧
        (counted.table ref).columns.arenaIdxByPath path = .ok idx) ∧
      (counted.table ref).columns.addColumn parent column = .ok (idxs, columns) ∧
      next.catalog = counted.modifyTable ref fun table => { table with columns := columns } := by
  obtain ⟨table, named, success⟩ := bind_eq_ok.mp success
  obtain rfl := Except.ok.inj (named.symm.trans editing.found)
  obtain ⟨counted, ensured, success⟩ := bind_eq_ok.mp success
  obtain ⟨⟨⟨above, refs⟩, catalog⟩, added, success⟩ := bind_eq_ok.mp success
  obtain rfl := Except.ok.inj success
  obtain ⟨parent, located, added⟩ := bind_eq_ok.mp added
  obtain ⟨⟨idxs, columns⟩, grown, added⟩ := bind_eq_ok.mp added
  obtain ⟨_, rfl⟩ := Prod.mk.inj (Except.ok.inj added)
  refine ⟨counted, _, idxs, columns, ensured, ?_, grown, rfl⟩
  unfold Catalog.parentAt at located
  split at located
  · rename_i empty
    obtain rfl := Except.ok.inj located
    exact Or.inl ⟨List.isEmpty_iff.mp empty, rfl⟩
  · obtain ⟨column, reached, rfl⟩ := map_eq_ok.mp located
    obtain ⟨idx, inside, made⟩ := bind_eq_ok.mp reached
    obtain rfl := Except.ok.inj made
    exact Or.inr ⟨idx, rfl, inside⟩

theorem Editing.addRoot
    (editing : Editing db name ref tx.catalog)
    (column : Column)
    (success : tx.addTableColumn db name column [] = .ok next) :
    Editing db name ref next.catalog ∧
      (∀ other, other ≠ column.name →
        next.catalog.shown ref other = tx.catalog.shown ref other) ∧
      ∃ copy, next.catalog.shown ref column.name = some copy ∧ DataType.Copies column copy := by
  obtain ⟨counted, parent, idxs, columns, ensured, place, added, result⟩ :=
    editing.addTableColumn [] column success
  obtain ⟨counting, _, same⟩ := editing.count ensured
  obtain rfl : parent = none := by
    rcases place with ⟨_, top⟩ | ⟨idx, _, reached⟩
    · exact top
    · cases reached
  obtain ⟨tree, unique, later⟩ := counting.add column added
  obtain ⟨grown, named, adding⟩ := CatalogColumns.addColumn_eq_ok column idxs added
  obtain ⟨others, shows⟩ := adding.get?_schema counting.tree tree.linked unique
  have shown := shown_modifyTable counting columns (fun table => { table with columns := columns }) rfl
  rw [result]
  refine ⟨later, fun other distinct => ?_, ?_⟩
  · rw [shown, others other distinct, ← same]
    rfl
  · rw [shown]
    exact shows

theorem Editing.addField
    (editing : Editing db name ref tx.catalog)
    (root : Text)
    (rest : List Text)
    (column : Column)
    (success : tx.addTableColumn db name column (root :: rest) = .ok next) :
    Editing db name ref next.catalog ∧
      ShowsEdit ref root (Column.EditAt (Column.AddsField column) rest) tx.catalog next.catalog := by
  obtain ⟨counted, parent, idxs, columns, ensured, place, added, result⟩ :=
    editing.addTableColumn (root :: rest) column success
  obtain ⟨counting, _, same⟩ := editing.count ensured
  obtain ⟨idx, rfl, reached⟩ : ∃ idx, parent = some idx ∧
      (counted.table ref).columns.arenaIdxByPath (root :: rest) = .ok idx :=
    place.resolve_left nofun
  obtain ⟨tree, unique, later⟩ := counting.add column added
  obtain ⟨grown, named, adding⟩ := CatalogColumns.addColumn_eq_ok column idxs added
  have changes := adding.changesAt counting.tree.linked (root :: rest) reached
  have roots : columns.rootColumns = (counted.table ref).columns.rootColumns := by
    obtain ⟨_, _, _, roots, _⟩ := CatalogColumns.addColumnToArena_eq_ok _ _ _ _ _ _ adding.placed
    rw [adding.added]
    exact roots
  obtain ⟨others, self⟩ := changes.get?_schema counting.tree tree.linked roots
    (fun other place found => by
      have inside := counting.tree.linked.root_lt other place found
      have kept : (columns.column place).id = ((counted.table ref).columns.column place).id := by
        by_cases parent : place = idx
        · rw [parent, adding.column_parent]
        · rw [adding.column_of_lt place inside fun same => parent (Option.some.inj same).symm]
      rw [kept]
      exact adding.idsAdded.contains unique place inside)
    (Column.AddsField column)
    (adding.addsField counting.tree tree.linked (root :: rest) reached)
  have shown := shown_modifyTable counting columns (fun table => { table with columns := columns }) rfl
  rw [result]
  refine ⟨later, ⟨fun other distinct => ?_, fun before found => ?_⟩⟩
  · rw [shown, others other distinct, ← same]
    rfl
  · rw [shown]
    rw [← same] at found
    exact self before found

theorem Editing.cast
    {start : Catalog}
    {done : List RetypeStep}
    (editing : Editing db name ref tx.catalog)
    (retyping : Retyping db name ref start done tx.catalog)
    (linked : (start.table ref).columns.Linked)
    (root : Text)
    (rest : List Text)
    (type : PrimitiveType)
    (fits : (RetypeStep.cast (root :: rest) type).Fits (start.table ref).columns)
    (success : RetypeStep.take db name tx (.cast (root :: rest) type) = .ok next) :
    Editing db name ref next.catalog ∧
      ShowsEdit ref root (Column.EditAt (Column.Casts type) rest) tx.catalog next.catalog := by
  obtain ⟨idx, source, reached, typed⟩ := fits
  have inside := linked.closed.arenaIdxByPath _ idx reached
  obtain ⟨wider, typedNow⟩ := retyping.extends_.primitives idx inside source typed
  have insideNow := Nat.lt_of_lt_of_le inside retyping.extends_.size
  have reachedNow := retyping.extends_.arenaIdxByPath _ idx reached
  unfold RetypeStep.take at success
  dsimp only at success
  rw [retyping.columnByPath _ idx reached] at success
  obtain rfl := Except.ok.inj success
  have modified := CatalogColumns.Extends.cast idx wider type typedNow insideNow
  have tree : ((tx.catalog.table ref).columns.modifyColumn idx fun column =>
      { column with dtype := .primitive type }).Treelike := by
    refine ⟨editing.tree.linked.modifyColumn idx _ rfl rfl (fun _ => nofun) fun _ => nofun, ?_⟩
    exact editing.tree.maps.modifyColumn idx _ fun _ => Or.inr fun _ _ => nofun
  have changes := CatalogColumns.changesAt_modifyColumn modified (root :: rest) idx _ reachedNow rfl
  obtain ⟨others, self⟩ := changes.get?_schema editing.tree tree.linked rfl
    (fun other place _ => by
      rw [CatalogColumns.map_column_modifyColumn _ _ _ _ CatalogColumn.id rfl]
      rfl)
    (Column.Casts type)
    fun fuel fuel' _ _ =>
      CatalogColumns.casts_schemaColumn idx wider type fuel fuel' insideNow typedNow rfl
  have shown := shown_modifyTable editing _ (fun table => { table with
    columns := table.columns.modifyColumn idx fun column => { column with dtype := .primitive type } })
    rfl
  refine ⟨editing.next _ _ rfl tree (CatalogColumns.ids_modifyColumn _ _ _ fun _ => rfl) rfl,
    ⟨fun other distinct => (shown other).trans (others other distinct), fun column found => ?_⟩⟩
  obtain ⟨column', found', edit⟩ := self column found
  exact ⟨column', (shown root).trans found', edit⟩

theorem Editing.take
    {start : Catalog}
    {done : List RetypeStep}
    (editing : Editing db name ref tx.catalog)
    (retyping : Retyping db name ref start done tx.catalog)
    (linked : (start.table ref).columns.Linked)
    (root : Text)
    (step : RetypeStep)
    (below : step.Below [root])
    (fits : step.Fits (start.table ref).columns)
    (success : step.take db name tx = .ok next) :
    Editing db name ref next.catalog ∧
      ShowsEdit ref root (step.On [root]) tx.catalog next.catalog := by
  cases step with
  | cast path type =>
      obtain ⟨rest, rfl⟩ := below
      obtain ⟨later, shows⟩ := editing.cast retyping linked root rest type fits success
      refine ⟨later, shows.others, fun column found => ?_⟩
      obtain ⟨column', found', edit⟩ := shows.self column found
      exact ⟨column', found', rest, rfl, edit⟩
  | remove path =>
      obtain ⟨part, rest, rfl⟩ := below
      obtain ⟨later, shows⟩ := editing.remove _ success
      have same : ∀ other, next.catalog.shown ref other = tx.catalog.shown ref other := fun other =>
        (shows other).trans (if_neg fun same => by simp at same)
      exact ⟨later, fun other _ => same other, fun column found => ⟨column, (same root).trans found, rfl⟩⟩
  | add path column =>
      obtain ⟨rest, rfl⟩ := below
      obtain ⟨later, shows⟩ := editing.addField root rest column success
      refine ⟨later, shows.others, fun before found => ?_⟩
      obtain ⟨column', found', edit⟩ := shows.self before found
      exact ⟨column', found', rest, rfl, edit⟩
  | refuse existing target => cases success

theorem Editing.steps
    {start : Catalog}
    {done : List RetypeStep}
    (editing : Editing db name ref tx.catalog)
    (retyping : Retyping db name ref start done tx.catalog)
    (linked : (start.table ref).columns.Linked)
    (root : Text)
    (steps : List RetypeStep)
    (below : ∀ step ∈ steps, step.Below [root])
    (fits : ∀ step ∈ steps, step.Fits (start.table ref).columns)
    (success : steps.foldlM (RetypeStep.take db name) tx = .ok next) :
    Editing db name ref next.catalog ∧
      ShowsEdit ref root (StepsOn [root] steps) tx.catalog next.catalog := by
  induction steps generalizing done tx with
  | nil =>
      obtain rfl := Except.ok.inj success
      exact ⟨editing, fun _ _ => rfl, fun column found => ⟨column, found, rfl⟩⟩
  | cons step rest ih =>
      rw [List.foldlM_cons] at success
      obtain ⟨middle, taken, success⟩ := bind_eq_ok.mp success
      have retyped : Retyping db name ref start (done ++ [step]) middle.catalog := by
        cases retyping.take linked step (fits step List.mem_cons_self) with
        | refused _ failure | panicked _ _ failure =>
            rw [failure] at taken
            cases taken
        | led _ _ taken' continues =>
            obtain rfl := Except.ok.inj (taken'.symm.trans taken)
            exact continues
      obtain ⟨edited, first⟩ := editing.take retyping linked root step
        (below step List.mem_cons_self) (fits step List.mem_cons_self) taken
      obtain ⟨final, later⟩ := ih edited retyped
        (fun step member => below step (List.mem_cons_of_mem _ member))
        (fun step member => fits step (List.mem_cons_of_mem _ member)) success
      refine ⟨final, fun other distinct =>
        (later.others other distinct).trans (first.others other distinct), fun column found => ?_⟩
      obtain ⟨column', found', edit⟩ := first.self column found
      obtain ⟨column'', found'', edits⟩ := later.self column' found'
      exact ⟨column'', found'', column', edit,
        edited.tree.distinctFields_of_get?_schema root column' found', edits⟩

/-! ## Updates of roots -/

theorem Editing.updateDtype
    (editing : Editing db name ref tx.catalog)
    (root : Text)
    (target : DataType)
    (success : tx.updateTableColumnDtype db name [root] target = .ok next) :
    Editing db name ref next.catalog ∧
      ShowsEdit ref root (fun column column' => ∃ dtype, column' = column.withDtype dtype ∧
        DataType.Updated column.dtype target dtype) tx.catalog next.catalog := by
  obtain ⟨column, located, success⟩ := bind_eq_ok.mp success
  obtain ⟨idx, rfl, reached⟩ := eq_ok_of_columnByPath editing [root] column located
  have linked := editing.tree.linked
  have enough : Column.sizeBelow (tx.catalog.columnInfo ⟨ref, idx⟩).dtype <
      (tx.catalog.columnInfo ⟨ref, idx⟩).flatten.length := by
    rw [Column.length_flatten]
    exact sizeBelow_lt_size _
  rw [updateDtypeRecursive_eq _ _ _ _ _ _ _ enough] at success
  have shown : (tx.catalog.table ref).columns.ShownAt [root]
      (tx.catalog.columnInfo ⟨ref, idx⟩).dtype :=
    ⟨idx, _, reached, rfl, Nat.le_add_left _ _⟩
  obtain ⟨later, shows⟩ := editing.steps
    (.initial editing.found editing.present editing.columnsReady) linked root _
    (below_of_mem_retypeSteps _ _ _ _)
    (fits_of_mem_retypeSteps _ linked _ [root] (tx.catalog.columnInfo ⟨ref, idx⟩).dtype target shown)
    success
  refine ⟨later, shows.others, fun column found => ?_⟩
  obtain ⟨column', found', edits⟩ := shows.self column found
  have same : tx.catalog.columnInfo ⟨ref, idx⟩ = column :=
    (linked.eq_of_get?_schema root idx column reached found).symm
  rw [same] at edits enough
  exact ⟨column', found', updated_of_stepsOn _ [root] column.dtype target column column' enough rfl
    (editing.tree.distinctFields_of_get?_schema root column found) edits⟩

theorem Editing.modifyRoot
    (editing : Editing db name ref catalog)
    (root : Text)
    (idx : ArenaIdx)
    (update : CatalogColumn → CatalogColumn)
    (reached : (catalog.table ref).columns.arenaIdxByPath [root] = .ok idx)
    (same : ∀ column, (update column).name = column.name ∧ (update column).dtype = column.dtype ∧
      (update column).id = column.id ∧ (update column).parentColumn = column.parentColumn) :
    Editing db name ref (catalog.modifyColumn ⟨ref, idx⟩ update) ∧
      ShowsEdit ref root (fun column column' => column'.dtype = column.dtype ∧
        column'.nullable = (update (catalog.column ⟨ref, idx⟩)).nullable ∧
        column'.defaultValue = (update (catalog.column ⟨ref, idx⟩)).defaultValue)
        catalog (catalog.modifyColumn ⟨ref, idx⟩ update) := by
  have linked := editing.tree.linked.modifyColumn idx update (same _).1 (same _).2.2.2
    (fun child member => by rwa [(same _).2.1] at member)
    (fun fields typed => by rwa [(same _).2.1] at typed)
  have tree : ((catalog.table ref).columns.modifyColumn idx update).Treelike :=
    ⟨linked, editing.tree.maps.modifyColumn idx update fun column => Or.inl (same column).2.1⟩
  obtain ⟨others, self⟩ := editing.tree.get?_schema_modifyColumn root idx update reached linked
    fun column => ⟨(same column).1, (same column).2.1, (same column).2.2.1⟩
  have shown := shown_modifyTable editing _ (fun table => { table with
    columns := table.columns.modifyColumn idx update }) rfl
  refine ⟨editing.next _ _ rfl tree
    (CatalogColumns.ids_modifyColumn _ _ _ fun column => (same column).2.2.1) rfl,
    fun other distinct => (shown other).trans (others other distinct), fun column found => ?_⟩
  obtain ⟨column', found', facts⟩ := self column found
  exact ⟨column', (shown root).trans found', facts⟩

theorem Editing.updateDefault
    (editing : Editing db name ref tx.catalog)
    (root : Text)
    (defaultValue : ColumnDefault)
    (success : tx.updateTableColumnDefault name [root] defaultValue = .ok next) :
    Editing db name ref next.catalog ∧
      ShowsEdit ref root (fun column column' => column'.dtype = column.dtype ∧
        column'.nullable = column.nullable ∧ column'.defaultValue = defaultValue)
        tx.catalog next.catalog := by
  obtain ⟨column, located, success⟩ := bind_eq_ok.mp success
  obtain ⟨idx, rfl, reached⟩ := eq_ok_of_columnByPath editing [root] column located
  obtain rfl := Except.ok.inj success
  obtain ⟨later, shows⟩ := editing.modifyRoot root idx
    (fun column => { column with defaultValue := defaultValue }) reached fun _ => ⟨rfl, rfl, rfl, rfl⟩
  refine ⟨later, shows.others, fun column found => ?_⟩
  obtain ⟨column', found', dtype, nullable, value⟩ := shows.self column found
  refine ⟨column', found', dtype, nullable.trans ?_, value⟩
  rw [editing.tree.linked.eq_of_get?_schema root idx column reached found]
  exact (CatalogColumns.described_schemaColumn _ idx).1.symm

theorem Editing.updateNullability
    (editing : Editing db name ref tx.catalog)
    (stats : DucklakeResult TableStatsMap)
    (root : Text)
    (nullable : Bool)
    (success : tx.updateTableColumnNullability stats name [root] nullable = .ok next) :
    Editing db name ref next.catalog ∧
      ShowsEdit ref root (fun column column' => column'.dtype = column.dtype ∧
        column'.nullable = nullable ∧ column'.defaultValue = column.defaultValue)
        tx.catalog next.catalog := by
  obtain ⟨column, located, success⟩ := bind_eq_ok.mp success
  obtain ⟨idx, rfl, reached⟩ := eq_ok_of_columnByPath editing [root] column located
  have self : ∀ column, tx.catalog.shown ref root = some column →
      column.nullable = (tx.catalog.column ⟨ref, idx⟩).nullable ∧
        column.defaultValue = (tx.catalog.column ⟨ref, idx⟩).defaultValue := by
    intro column found
    rw [editing.tree.linked.eq_of_get?_schema root idx column reached found]
    exact CatalogColumns.described_schemaColumn _ idx
  obtain ⟨later, shows⟩ := editing.modifyRoot root idx
    (fun column => { column with nullable := nullable }) reached fun _ => ⟨rfl, rfl, rfl, rfl⟩
  have changed : next.catalog = tx.catalog.modifyColumn ⟨ref, idx⟩ (fun column =>
        { column with nullable := nullable }) →
      Editing db name ref next.catalog ∧
        ShowsEdit ref root (fun column column' => column'.dtype = column.dtype ∧
          column'.nullable = nullable ∧ column'.defaultValue = column.defaultValue)
          tx.catalog next.catalog := by
    intro result
    rw [result]
    refine ⟨later, shows.others, fun column found => ?_⟩
    obtain ⟨column', found', dtype, sameNullable, value⟩ := shows.self column found
    exact ⟨column', found', dtype, sameNullable, value.trans (self column found).2.symm⟩
  dsimp only at success
  split at success
  · rename_i same
    obtain rfl := Except.ok.inj success
    exact ⟨editing, fun _ _ => rfl, fun column found =>
      ⟨column, found, rfl, (self column found).1.trans same, rfl⟩⟩
  · split at success
    · exact changed (congrArg Transaction.catalog (Except.ok.inj success).symm)
    · obtain ⟨loaded, _, success⟩ := bind_eq_ok.mp success
      split at success
      · cases success
      · split at success
        · cases success
        · exact changed (congrArg Transaction.catalog (Except.ok.inj success).symm)

/-! ## Updates of schemas -/

/-- What `update_table_schema` does for one item of the difference. -/
def updateItem (db : Database) (stats : DucklakeResult TableStatsMap) (name : QualifiedName)
    (tx : Transaction) : EitherOrBoth Column Column → DucklakeResult Transaction
  | .both _ column => do
      let tx ← updateTableColumnDtype db name [column.name] column.dtype tx
      let tx ← updateTableColumnDefault name [column.name] column.defaultValue tx
      updateTableColumnNullability stats name [column.name] column.nullable tx
  | .left column => removeTableColumn name [column.name] tx
  | .right column => addTableColumn db name column [] tx

/-- What a table shows under the name of an item after it was applied. -/
def ItemShown (before after : Option Column) : EitherOrBoth Column Column → Prop
  | .both _ new => ∀ column, before = some column → ∃ column', after = some column' ∧
      column'.Alike new ∧ DataType.Updated column.dtype new.dtype column'.dtype
  | .left _ => after = none
  | .right new => ∃ copy, after = some copy ∧ DataType.Copies new copy

theorem Editing.item
    (editing : Editing db name ref tx.catalog)
    (stats : DucklakeResult TableStatsMap)
    (item : EitherOrBoth Column Column)
    (paired : ∀ old new, item = .both old new → old.name = new.name)
    (success : updateItem db stats name tx item = .ok next) :
    Editing db name ref next.catalog ∧
      (∀ other, other ≠ item.name →
        next.catalog.shown ref other = tx.catalog.shown ref other) ∧
      ItemShown (tx.catalog.shown ref item.name) (next.catalog.shown ref item.name) item := by
  cases item with
  | both old new =>
      have names := paired old new rfl
      obtain ⟨first, retyped, success⟩ := bind_eq_ok.mp success
      obtain ⟨second, defaulted, nulled⟩ := bind_eq_ok.mp success
      obtain ⟨editing₁, shows₁⟩ := editing.updateDtype new.name new.dtype retyped
      obtain ⟨editing₂, shows₂⟩ := editing₁.updateDefault new.name new.defaultValue defaulted
      obtain ⟨editing₃, shows₃⟩ := editing₂.updateNullability stats new.name new.nullable nulled
      refine ⟨editing₃, fun other distinct => ?_, fun column found => ?_⟩
      · have distinct : other ≠ new.name := names ▸ distinct
        exact (shows₃.others other distinct).trans
          ((shows₂.others other distinct).trans (shows₁.others other distinct))
      · change tx.catalog.shown ref old.name = some column at found
        change ∃ column', next.catalog.shown ref old.name = some column' ∧ _
        rw [names] at found ⊢
        obtain ⟨column₁, found₁, dtype, rfl, updated⟩ := shows₁.self column found
        obtain ⟨column₂, found₂, dtype₂, _, default₂⟩ := shows₂.self _ found₁
        obtain ⟨column₃, found₃, dtype₃, nullable₃, default₃⟩ := shows₃.self column₂ found₂
        refine ⟨column₃, found₃, ⟨nullable₃, default₃.trans default₂⟩, ?_⟩
        rw [dtype₃, dtype₂, Column.dtype_withDtype]
        exact updated
  | left old =>
      obtain ⟨later, shows⟩ := editing.remove [old.name] success
      refine ⟨later, fun other distinct => ?_, ?_⟩
      · refine (shows other).trans (if_neg fun same => ?_)
        exact distinct (List.cons.inj same).1.symm
      · exact (shows old.name).trans (if_pos rfl)
  | right new =>
      obtain ⟨later, others, shows⟩ := editing.addRoot new success
      exact ⟨later, others, shows⟩

theorem Editing.items
    (editing : Editing db name ref tx.catalog)
    (stats : DucklakeResult TableStatsMap)
    (items : List (EitherOrBoth Column Column))
    (paired : ∀ old new, .both old new ∈ items → old.name = new.name)
    (distinct : (items.map EitherOrBoth.name).Nodup)
    (success : items.foldlM (updateItem db stats name) tx = .ok next) :
    Editing db name ref next.catalog ∧
      (∀ other ∉ items.map EitherOrBoth.name,
        next.catalog.shown ref other = tx.catalog.shown ref other) ∧
      ∀ item ∈ items,
        ItemShown (tx.catalog.shown ref item.name) (next.catalog.shown ref item.name) item := by
  induction items generalizing tx with
  | nil =>
      obtain rfl := Except.ok.inj success
      exact ⟨editing, fun _ _ => rfl, nofun⟩
  | cons first rest ih =>
      rw [List.foldlM_cons] at success
      obtain ⟨middle, applied, success⟩ := bind_eq_ok.mp success
      obtain ⟨fresh, distinct⟩ := List.nodup_cons.mp distinct
      obtain ⟨edited, others, shows⟩ := editing.item stats first
        (fun old new same => paired old new (same ▸ List.mem_cons_self)) applied
      obtain ⟨final, untouched, later⟩ := ih edited
        (fun old new member => paired old new (List.mem_cons_of_mem _ member)) distinct success
      refine ⟨final, fun other absent => ?_, fun item member => ?_⟩
      · rw [List.map_cons, List.mem_cons, not_or] at absent
        exact (untouched other absent.2).trans (others other absent.1)
      · rcases List.mem_cons.mp member with rfl | inside
        · rw [untouched _ fresh]
          exact shows
        · have apart : item.name ≠ first.name := fun same =>
            fresh (same ▸ List.mem_map_of_mem inside)
          rw [← others _ apart]
          exact later item inside

theorem Editing.fieldNamed_shown
    (editing : Editing db name ref catalog)
    (root : Text) :
    Column.fieldNamed (catalog.tableSchema ref).columns.values root = catalog.shown ref root := by
  have fields := Column.fieldNamed_values (catalog.tableSchema ref).columns id
    (fun root column found => CatalogColumns.name_of_get?_schema editing.tree.linked root column found)
    root
  rwa [List.map_id, Option.map_id] at fields

theorem Editing.updateSchema_shown
    (editing : Editing db name ref tx.catalog)
    (stats : DucklakeResult TableStatsMap)
    (columns : List Column)
    (success : tx.updateTableSchema db stats name columns = .ok next) :
    Editing db name ref next.catalog ∧ ∀ root,
      (Column.fieldNamed columns root = none → next.catalog.shown ref root = none) ∧
      ∀ new, Column.fieldNamed columns root = some new → ∃ column,
        next.catalog.shown ref root = some column ∧ column.Alike new ∧
          ((∃ old, tx.catalog.shown ref root = some old ∧
            DataType.Updated old.dtype new.dtype column.dtype) ∨
          (tx.catalog.shown ref root = none ∧ DataType.Agrees column.dtype new.dtype)) := by
  obtain ⟨table, named, success⟩ := bind_eq_ok.mp success
  obtain rfl := Except.ok.inj (named.symm.trans editing.found)
  obtain ⟨schema, typed, success⟩ := bind_eq_ok.mp success
  obtain ⟨values, newNames⟩ := ofColumns_eq_ok columns schema typed
  rw [values] at success
  have oldNames : ((tx.catalog.tableSchema table).columns.values.map Column.name).Nodup := by
    have keys : (tx.catalog.tableSchema table).columns.values.map Column.name =
        (tx.catalog.tableSchema table).columns.keys := by
      unfold IndexMap.values IndexMap.keys
      rw [List.map_map]
      exact List.map_congr_left fun entry inside => CatalogColumns.name_of_get?_schema
        editing.tree.linked entry.1 entry.2 ((IndexMap.get?_eq_some_iff _ _ _).mpr inside)
    rw [keys]
    exact (tx.catalog.tableSchema table).columns.unique
  generalize olds : (tx.catalog.tableSchema table).columns.values = old at success oldNames
  have before : ∀ root, Column.fieldNamed old root = tx.catalog.shown table root := fun root =>
    olds ▸ editing.fieldNamed_shown root
  have distinct := nodup_names_columnDiff old columns oldNames newNames
  obtain ⟨later, untouched, shows⟩ := editing.items stats (columnDiff old columns)
    (name_eq_of_both_mem old columns) distinct success
  refine ⟨later, fun root => ?_⟩
  have listed : ∀ column, tx.catalog.shown table root = some column →
      ∃ item ∈ columnDiff old columns, item.left? = some column ∧ item.name = root := by
    intro column found
    rw [← before] at found
    obtain ⟨inside, rfl⟩ := Column.mem_of_fieldNamed _ _ _ found
    obtain ⟨item, member, left⟩ := List.mem_filterMap.mp
      ((filterMap_left_columnDiff old columns).mem_iff.mpr inside)
    refine ⟨item, member, left, ?_⟩
    cases item with
    | both | left => cases left; rfl
    | right => cases left
  constructor
  · intro missing
    have absent := (Column.fieldNamed_eq_none_iff _ _).mp missing
    cases found : tx.catalog.shown table root with
    | none =>
        rw [untouched root, found]
        intro member
        obtain ⟨item, inside, same⟩ := List.mem_map.mp member
        cases item with
        | both o n =>
            obtain ⟨new, listedNew, same'⟩ := exists_of_written old columns _ inside root
              (congrArg some same)
            exact absent (same' ▸ List.mem_map_of_mem listedNew)
        | right n =>
            obtain ⟨new, listedNew, same'⟩ := exists_of_written old columns _ inside root
              (congrArg some same)
            exact absent (same' ▸ List.mem_map_of_mem listedNew)
        | left o =>
            have member := mem_of_columnDiff old columns _ o inside rfl
            have shown := Column.fieldNamed_of_mem old oldNames o member
            rw [before, show o.name = root from same, found] at shown
            cases shown
    | some column =>
        obtain ⟨item, inside, left, rfl⟩ := listed column found
        have shown := shows item inside
        cases item with
        | both o n =>
            obtain ⟨new, listedNew, same⟩ := exists_of_written old columns _ inside o.name rfl
            refine absurd ?_ absent
            change o.name ∈ columns.map Column.name
            rw [← same]
            exact List.mem_map_of_mem listedNew
        | left o => exact shown
        | right => cases left
  · intro new found
    obtain ⟨inside, rfl⟩ := Column.mem_of_fieldNamed _ _ _ found
    rcases both_or_right_mem old columns new inside with ⟨o, listedOld, same, member⟩ | member
    · have shown := shows _ member
      have foundOld : tx.catalog.shown table new.name = some o := by
        rw [← before, ← same]
        exact Column.fieldNamed_of_mem old oldNames o listedOld
      change ∀ column, tx.catalog.shown table o.name = some column → ∃ column',
        next.catalog.shown table o.name = some column' ∧ _ at shown
      rw [same] at shown
      obtain ⟨column', found', alike, updated⟩ := shown o foundOld
      exact ⟨column', found', alike, Or.inl ⟨o, foundOld, updated⟩⟩
    · obtain ⟨copy, shown, copies⟩ := shows _ member
      refine ⟨copy, shown, copies.alike, Or.inr ⟨?_, copies.dtype⟩⟩
      cases foundOld : tx.catalog.shown table new.name with
      | none => rfl
      | some column =>
          obtain ⟨item, insideItem, left, sameName⟩ := listed column foundOld
          obtain rfl := List.inj_on_of_nodup_map distinct insideItem member sameName
          cases left

/-- An update of a schema reaches the given columns exactly if it does not have to remove a column
below another one, nor to change the nullability or the default of one. -/
theorem Editing.updateSchema_agrees
    (editing : Editing db name ref tx.catalog)
    (stats : DucklakeResult TableStatsMap)
    (columns : List Column)
    (success : tx.updateTableSchema db stats name columns = .ok next) :
    DataType.Agrees (.struct (next.catalog.tableSchema ref).columns.values) (.struct columns) ↔
      ∀ root old new, tx.catalog.shown ref root = some old →
        Column.fieldNamed columns root = some new → DataType.Reaches old.dtype new.dtype := by
  obtain ⟨later, shown⟩ := editing.updateSchema_shown stats columns success
  have fields := later.fieldNamed_shown
  constructor
  · intro agrees root old new foundOld foundNew
    obtain ⟨column, found, _, updated | ⟨missing, _⟩⟩ := (shown root).2 new foundNew
    · obtain ⟨other, same, updated⟩ := updated
      obtain rfl := Option.some.inj (same.symm.trans foundOld)
      cases agrees with
      | struct _ _ _ _ inner =>
          exact updated.agrees_iff.mp (inner root column new ((fields root).trans found) foundNew)
    · rw [foundOld] at missing
      cases missing
  · intro reaches
    have each : ∀ root column new,
        Column.fieldNamed (next.catalog.tableSchema ref).columns.values root = some column →
          Column.fieldNamed columns root = some new →
            column.Alike new ∧ DataType.Agrees column.dtype new.dtype := by
      intro root column new found foundNew
      obtain ⟨other, shownNow, alike, updated⟩ := (shown root).2 new foundNew
      rw [fields, shownNow] at found
      obtain rfl := Option.some.inj found
      rcases updated with ⟨old, foundOld, updated⟩ | ⟨_, agrees⟩
      · exact ⟨alike, updated.agrees_iff.mpr (reaches root old new foundOld foundNew)⟩
      · exact ⟨alike, agrees⟩
    refine .struct _ columns (fun root => ?_)
      (fun root column new found foundNew => (each root column new found foundNew).1)
      fun root column new found foundNew => (each root column new found foundNew).2
    rw [fields]
    cases foundNew : Column.fieldNamed columns root with
    | none => rw [(shown root).1 foundNew]
    | some new =>
        obtain ⟨column, shownNow, _⟩ := (shown root).2 new foundNew
        rw [shownNow]
        rfl

end

end Transaction

end Ducklake
