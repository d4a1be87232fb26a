import Ducklake.Catalog.ColumnIds
import Ducklake.Lib.History
import Ducklake.Transaction.TableEdits

/-!
# The ids of added columns

The id counter of a table stays above the ids of all its columns: those that are stored, those that
were removed, and those that a transfer reserves.
-/

set_option autoImplicit false

namespace Ducklake

open Lib Caches Spec Transaction

/-! ## Columns of changes -/

namespace Transaction.Change

def columnRefs : Change → List ColumnRef
  | createTable _ _ columnRefs .. => columnRefs.flatten
  | addTableColumn _ columnRefs _ => columnRefs
  | updateTableColumn _ columnRef _ | removeTableColumn columnRef
  | addTableColumnTag columnRef _ | removeTableColumnTag columnRef _ => [columnRef]
  | _ => []

def addedColumns : Change → List ColumnRef
  | addTableColumn _ columnRefs _ => columnRefs
  | _ => []

/-- The ids that a new table takes over from dropped columns of its source. -/
def reservedIds (ref : TableRef) : Change → List Int
  | createTable _ tableRef _ _ _ _ retiredColumns .. =>
      if tableRef = ref then retiredColumns.map DucklakeColumn.columnId else []
  | _ => []

/-- The ids that a change records for the columns of a table. -/
def columnIds (catalog : Catalog) (ref : TableRef) (change : Change) : List Int :=
  (change.columnRefs.filter fun column => column.tableRef = ref).map
    (fun column => (catalog.column column).id) ++ change.reservedIds ref

theorem columnRefs_of_keepsColumns
    (change : Change)
    (plain : change.keepsColumns = true) :
    change.columnRefs = [] ∧ change.addedColumns = [] ∧ ∀ ref, change.reservedIds ref = [] := by
  cases change <;> first | exact ⟨rfl, rfl, fun _ => rfl⟩ | cases plain

theorem columnRefs_of_columnTagEdit
    (change : Change)
    (ref : ColumnRef)
    (edit : TagChange)
    (edits : change.columnTagEdit = some (ref, edit)) :
    change.columnRefs = [ref] ∧ change.addedColumns = [] ∧
      ∀ table, change.reservedIds table = [] := by
  cases change <;> cases edits <;> exact ⟨rfl, rfl, fun _ => rfl⟩

end Transaction.Change

/-! ## Stored columns -/

/-- A column of a table with a row that began at a snapshot or before it. -/
def Spec.Database.HasColumn (db : Database) (snapshot tableId columnId : Int) : Prop :=
  ∃ row ∈ db.columns, row.beginSnapshot ≤ snapshot ∧ row.entity.tableId = tableId ∧
    row.entity.columnId = columnId

theorem Spec.Database.HasColumn.of_updates
    {before after : Database}
    {snapshot creates tableId columnId : Int}
    (updates : Versioned.Updates creates before.columns after.columns)
    (older : snapshot < creates)
    (stored : after.HasColumn snapshot tableId columnId) :
    before.HasColumn snapshot tableId columnId := by
  obtain ⟨update, added, keeps, fresh, rows⟩ := updates
  obtain ⟨row, member, began, owner, id⟩ := stored
  rw [rows] at member
  rcases List.mem_append.mp member with old | new
  · obtain ⟨before, inside, rfl⟩ := List.mem_map.mp old
    rw [(keeps before).beginSnapshot] at began
    rw [(keeps before).entity] at owner id
    exact ⟨before, inside, began, owner, id⟩
  · have begins := (fresh row new).1
    omega

theorem Spec.Database.HasColumn.updated
    {before after : Database}
    {snapshot creates tableId columnId : Int}
    (updates : Versioned.Updates creates before.columns after.columns)
    (stored : before.HasColumn snapshot tableId columnId) :
    after.HasColumn snapshot tableId columnId := by
  obtain ⟨update, added, keeps, fresh, rows⟩ := updates
  obtain ⟨row, member, began, owner, id⟩ := stored
  refine ⟨update row, ?_, ?_, ?_, ?_⟩
  · rw [rows]
    exact List.mem_append_left _ (List.mem_map_of_mem member)
  · rwa [(keeps row).beginSnapshot]
  · rwa [(keeps row).entity]
  · rwa [(keeps row).entity]

/-! ## Tables -/

/-- The counter of a table, once it is set, is above the ids of its columns and of those stored
for it.  A table without one has stored columns only. -/
structure CatalogTable.Numbered (db : Database) (snapshot : Int) (table : CatalogTable) : Prop where
  closed : table.columns.Closed
  below : ∀ next, table.columns.nextColumnId = some next → ∀ id ∈ table.columns.ids, id < next
  above : ∀ next tableId, table.columns.nextColumnId = some next → table.id = some tableId →
    ∀ id, db.HasColumn snapshot tableId id → id < next
  loaded : table.columns.nextColumnId = none → ∀ id ∈ table.columns.ids, ∃ tableId,
    table.id = some tableId ∧ db.HasColumn snapshot tableId id

theorem numbered_default (db : Database) (snapshot : Int) :
    (default : CatalogTable).Numbered db snapshot where
  closed := CatalogColumns.new_linksBelow none _
  below _ counted := by cases counted
  above _ _ counted := by cases counted
  loaded _ id member := by cases member

/-- What the changes of an update do with the columns of the table. -/
structure ColumnsAdded (ref : TableRef) (changes : List Change)
    (before after : CatalogColumns) : Prop where
  grows : before.IdsGrow after
  inside : ∀ change ∈ changes, ∀ column ∈ change.columnRefs,
    column.tableRef = ref ∧ column.columnIdx < after.arena.length
  reserved : ∀ change ∈ changes, ∀ table, change.reservedIds table = []
  added : ∀ change ∈ changes, ∀ column ∈ change.addedColumns, column.tableRef = ref ∧
    ∃ next, before.nextColumnId = some next ∧ next ≤ (after.column column.columnIdx).id
  increasing : ∀ change ∈ changes, (change.addedColumns.map fun column =>
    (after.column column.columnIdx).id).Pairwise (· < ·)
  /-- Only a change of its own adds columns. -/
  single : ∀ change ∈ changes, change.addedColumns ≠ [] → changes = [change]

section

variable {db : Database} {ref : TableRef} {before after : CatalogColumns} {changes : List Change}

theorem ColumnsAdded.of_plain
    (grows : before.IdsGrow after)
    (plain : ∀ change ∈ changes, change.keepsColumns = true) :
    ColumnsAdded ref changes before after where
  grows := grows
  inside change member column inside := by
    rw [(change.columnRefs_of_keepsColumns (plain change member)).1] at inside
    cases inside
  reserved change member := (change.columnRefs_of_keepsColumns (plain change member)).2.2
  added change member column inside := by
    rw [(change.columnRefs_of_keepsColumns (plain change member)).2.1] at inside
    cases inside
  increasing change member := by
    simp [(change.columnRefs_of_keepsColumns (plain change member)).2.1]
  single change member added :=
    absurd (change.columnRefs_of_keepsColumns (plain change member)).2.1 added

theorem ColumnsAdded.of_existing
    (grows : before.IdsGrow after)
    (inside : ∀ change ∈ changes, ∀ column ∈ change.columnRefs,
      column.tableRef = ref ∧ column.columnIdx < after.arena.length)
    (existing : ∀ change ∈ changes, change.addedColumns = [] ∧
      ∀ table, change.reservedIds table = []) :
    ColumnsAdded ref changes before after where
  grows := grows
  inside := inside
  reserved change member := (existing change member).2
  added change member column inside := by
    rw [(existing change member).1] at inside
    cases inside
  increasing change member := by simp [(existing change member).1]
  single change member added := absurd (existing change member).1 added

theorem above_of_loadNextColumnId
    (snapshot tableId next : Int)
    (loaded : Catalog.loadNextColumnId db tableId = .ok next) :
    ∀ id, db.HasColumn snapshot tableId id → id < next := by
  rintro id ⟨row, member, _, owner, rfl⟩
  unfold Catalog.loadNextColumnId at loaded
  split at loaded
  · rename_i largest found
    obtain rfl := Except.ok.inj loaded
    have bound := (List.max?_eq_some_iff.mp found).2 row.entity.columnId
      (List.mem_map_of_mem (List.mem_filter.mpr ⟨member, by simpa using owner⟩))
    omega
  · cases loaded

theorem CatalogTable.Numbered.of_columns
    {snapshot : Int}
    {table updated : CatalogTable}
    (numbered : table.Numbered db snapshot)
    (id : updated.id = table.id)
    (closed : updated.columns.Closed)
    (ids : updated.columns.ids = table.columns.ids)
    (next : updated.columns.nextColumnId = table.columns.nextColumnId) :
    updated.Numbered db snapshot where
  closed := closed
  below := by
    rw [ids, next]
    exact numbered.below
  above := by
    rw [id, next]
    exact numbered.above
  loaded := by
    rw [id, ids, next]
    exact numbered.loaded

theorem CatalogTable.Numbered.modifyColumn
    {snapshot : Int}
    {table : CatalogTable}
    (numbered : table.Numbered db snapshot)
    (idx : ArenaIdx)
    (path : List Text)
    (update : CatalogColumn → CatalogColumn)
    (reached : table.columns.arenaIdxByPath path = .ok idx)
    (id : ∀ column, (update column).id = column.id)
    (dtype : ∀ column, (update column).dtype = column.dtype ∨
      CatalogColumns.children (update column).dtype = []) :
    CatalogTable.Numbered db snapshot
        { table with columns := table.columns.modifyColumn idx update } ∧
      idx < (table.columns.modifyColumn idx update).arena.length ∧
        table.columns.IdsGrow (table.columns.modifyColumn idx update) := by
  have ids := CatalogColumns.ids_modifyColumn table.columns idx update id
  have grows : table.columns.IdsGrow (table.columns.modifyColumn idx update) := .of_same ids rfl
  refine ⟨numbered.of_columns rfl ?_ ids rfl,
    Nat.lt_of_lt_of_le (numbered.closed.arenaIdxByPath path idx reached) grows.length_le, grows⟩
  refine (numbered.closed.modifyColumn idx update fun column member child below => ?_).mono _
    grows.length_le
  rcases dtype column with same | empty
  · rw [same] at below
    exact numbered.closed.children column member child below
  · rw [empty] at below
    cases below

theorem TableUpdate.numbered
    {snapshot : Int}
    {table updated : CatalogTable}
    (numbered : table.Numbered db snapshot)
    (update : TableUpdate db ref table changes updated) :
    updated.Numbered db snapshot ∧ ColumnsAdded ref changes table.columns updated.columns := by
  cases update with
  | described plain id columns =>
      refine ⟨numbered.of_columns id (columns ▸ numbered.closed) (by rw [columns])
        (by rw [columns]), ?_⟩
      rw [columns]
      exact .of_plain (.refl _) (by simpa using plain)
  | partitioned built =>
      refine ⟨numbered.of_columns rfl numbered.closed rfl rfl, .of_existing (.refl _) ?_ ?_⟩ <;>
        simp [Change.columnRefs, Change.addedColumns, Change.reservedIds]
  | @counted tableId next id unset loaded =>
      have above := above_of_loadNextColumnId snapshot tableId next loaded
      refine ⟨?_, .of_plain ⟨⟨[], by simp [CatalogColumns.ids]⟩, ?_⟩ (by simp)⟩
      · constructor
        case closed => exact ⟨numbered.closed.roots, numbered.closed.children⟩
        case below =>
          intro later counted columnId member
          obtain rfl := Option.some.inj counted
          obtain ⟨owner, found, stored⟩ := numbered.loaded unset columnId member
          rw [id] at found
          cases found
          exact above columnId stored
        case above =>
          intro later owner counted found
          obtain rfl := Option.some.inj counted
          rw [id] at found
          cases found
          exact above
        case loaded => exact fun missing => by cases missing
      · intro previous counted
        rw [unset] at counted
        cases counted
  | @addedColumn parent column idxs columns success =>
      obtain ⟨closed, rfl, next, counted, nextLater, ids⟩ :=
        CatalogColumns.addColumn_ids parent column idxs numbered.closed success
      have grows : table.columns.IdsGrow columns := by
        refine ⟨⟨_, ids⟩, fun previous found => ⟨_, nextLater, ?_⟩⟩
        rw [counted] at found
        cases found
        omega
      have numbers := CatalogColumns.map_column_id_range' _ ids
      rw [List.length_map, List.length_range] at numbers
      refine ⟨?_, ?_⟩
      · constructor
        case closed => exact closed
        case below =>
          intro later found id member
          rw [nextLater] at found
          obtain rfl := Option.some.inj found
          rw [ids] at member
          rcases List.mem_append.mp member with old | new
          · have := numbered.below next counted id old
            omega
          · obtain ⟨offset, inside, rfl⟩ := List.mem_map.mp new
            have := List.mem_range.mp inside
            omega
        case above =>
          intro later owner found id columnId stored
          rw [nextLater] at found
          obtain rfl := Option.some.inj found
          have := numbered.above next owner counted id columnId stored
          omega
        case loaded =>
          intro missing
          rw [nextLater] at missing
          cases missing
      · constructor
        case grows => exact grows
        case inside =>
          simp only [List.mem_singleton, forall_eq, Change.columnRefs, List.mem_map,
            forall_exists_index, and_imp, forall_apply_eq_imp_iff₂]
          intro idx member
          have size : columns.arena.length = table.columns.arena.length + column.size := by
            rw [← CatalogColumns.length_ids, ids]
            simp [CatalogColumns.length_ids]
          obtain ⟨offset, inside, rfl⟩ := List.mem_range'.mp member
          refine ⟨trivial, ?_⟩
          change table.columns.arena.length + 1 * offset < columns.arena.length
          omega
        case reserved => simp [Change.reservedIds]
        case added =>
          simp only [List.mem_singleton, forall_eq, Change.addedColumns, List.mem_map,
            forall_exists_index, and_imp, forall_apply_eq_imp_iff₂]
          intro idx member
          have listed := List.mem_map_of_mem (f := fun idx => (columns.column idx).id) member
          rw [numbers] at listed
          obtain ⟨offset, _, same⟩ := List.mem_map.mp listed
          refine ⟨trivial, next, counted, ?_⟩
          omega
        case increasing =>
          simp only [List.mem_singleton, forall_eq, Change.addedColumns, List.map_map]
          change ((List.range' _ _).map fun idx => (columns.column idx).id).Pairwise _
          rw [numbers, List.pairwise_map]
          exact List.pairwise_lt_range.imp fun below => by omega
        case single => simp
  | @removedColumn idx path reached =>
      refine ⟨numbered.of_columns rfl ⟨numbered.closed.roots, numbered.closed.children⟩ rfl rfl,
        .of_existing (.of_same rfl rfl) ?_ ?_⟩
      · intro change member column inside
        obtain ⟨removed, listed, rfl⟩ := List.mem_map.mp member
        rw [Change.columnRefs, List.mem_singleton] at inside
        subst inside
        exact ⟨rfl, numbered.closed.aggregateColumnIndices _ idx
          (numbered.closed.arenaIdxByPath path idx reached) removed listed⟩
      · intro change member
        obtain ⟨removed, _, rfl⟩ := List.mem_map.mp member
        exact ⟨rfl, fun _ => rfl⟩
  | @renamedColumn idx path newName columns parent column reached success =>
      have inside := numbered.closed.arenaIdxByPath path idx reached
      obtain ⟨closed, ids, next⟩ :=
        CatalogColumns.renameColumn_ids idx newName numbered.closed inside success
      have grows : table.columns.IdsGrow columns := .of_same ids next
      refine ⟨numbered.of_columns rfl closed ids next, .of_existing grows ?_ ?_⟩
      · simp only [List.mem_singleton, forall_eq, Change.columnRefs]
        exact ⟨trivial, Nat.lt_of_lt_of_le inside grows.length_le⟩
      · simp [Change.addedColumns, Change.reservedIds]
  | @modifiedColumn idx path update parent column reached id dtype _ =>
      obtain ⟨numbered, inside, grows⟩ :=
        numbered.modifyColumn idx path update reached id fun column => by
          rcases dtype column with same | ⟨type, primitive⟩
          · exact Or.inl same
          · exact Or.inr (by rw [primitive]; rfl)
      refine ⟨numbered, .of_existing grows ?_ ?_⟩
      · simp only [List.mem_singleton, forall_eq, Change.columnRefs]
        exact ⟨trivial, inside⟩
      · simp [Change.addedColumns, Change.reservedIds]
  | @taggedColumn change idx path edit update edits reached id dtype _ =>
      obtain ⟨numbered, inside, grows⟩ :=
        numbered.modifyColumn idx path update reached id fun column => Or.inl (dtype column)
      obtain ⟨refs, added, reserved⟩ := change.columnRefs_of_columnTagEdit _ edit edits
      refine ⟨numbered, .of_existing grows ?_ ?_⟩
      · simp only [List.mem_singleton, forall_eq, refs]
        exact ⟨trivial, inside⟩
      · simpa only [List.mem_singleton, forall_eq] using ⟨added, reserved⟩

/-! ## Edits -/

structure ColumnsEdited (db : Database) (snapshot : Int) (before after : Catalog)
    (changes : List Change) : Prop where
  tables : ∀ ref, (after.table ref).Numbered db snapshot
  grows : ∀ ref, (before.table ref).columns.IdsGrow (after.table ref).columns
  inside : ∀ change ∈ changes, ∀ column ∈ change.columnRefs,
    column.columnIdx < (after.table column.tableRef).columns.arena.length
  reserved : ∀ change ∈ changes, ∀ ref, ∀ id ∈ change.reservedIds ref, ∃ next,
    (after.table ref).columns.nextColumnId = some next ∧ id < next
  added : ∀ change ∈ changes, ∀ column ∈ change.addedColumns, ∃ next,
    (before.table column.tableRef).columns.nextColumnId = some next ∧
      next ≤ (after.column column).id
  increasing : ∀ change ∈ changes,
    (change.addedColumns.map fun column => (after.column column).id).Pairwise (· < ·)
  single : ∀ change ∈ changes, change.addedColumns ≠ [] → changes = [change]

theorem ColumnsAdded.edited
    {snapshot : Int}
    {old new : Catalog}
    (added : ColumnsAdded ref changes (old.table ref).columns (new.table ref).columns)
    (tables : ∀ ref, (new.table ref).Numbered db snapshot)
    (others : ∀ other, other ≠ ref → new.table other = old.table other) :
    ColumnsEdited db snapshot old new changes where
  tables := tables
  grows other := by
    by_cases same : other = ref
    · rw [same]
      exact added.grows
    · rw [others other same]
      exact .refl _
  inside change member column inside := by
    obtain ⟨same, bound⟩ := added.inside change member column inside
    rwa [same]
  reserved change member table id inside := by
    rw [added.reserved change member table] at inside
    cases inside
  added change member column inside := by
    obtain ⟨same, numbered⟩ := added.added change member column inside
    rw [Catalog.column, same]
    exact numbered
  increasing change member := by
    have same : (change.addedColumns.map fun column => (new.column column).id) =
        change.addedColumns.map fun column =>
          ((new.table ref).columns.column column.columnIdx).id := by
      refine List.map_congr_left fun column inside => ?_
      rw [Catalog.column, (added.added change member column inside).1]
    rw [same]
    exact added.increasing change member
  single := added.single

/-- The ids of a transferred table and those that it reserves are below its first new id. -/
theorem lt_transferNextColumnId
    (columns : List Column)
    (retired : List DucklakeColumn)
    (id : Int)
    (member : id ∈ (columns.flatMap Column.flatten).filterMap (fun flat => flat.column.fieldId) ∨
      id ∈ retired.map DucklakeColumn.columnId) :
    id < Transaction.transferNextColumnId columns retired := by
  unfold Transaction.transferNextColumnId
  have listed := List.mem_append.mpr member
  cases largest : (((columns.flatMap Column.flatten).filterMap fun flat => flat.column.fieldId) ++
      retired.map DucklakeColumn.columnId).max? with
  | none =>
      rw [List.max?_eq_none_iff.mp largest] at listed
      cases listed
  | some bound =>
      have := (List.max?_eq_some_iff.mp largest).2 id listed
      simp only [Option.getD_some]
      omega

theorem numbered_of_fromSchema
    (schema : Schema)
    (columns : List Column)
    (retired : Option (List DucklakeColumn))
    (tableColumns : CatalogColumns)
    (typed : Schema.ofColumns columns = .ok schema)
    (built : CatalogColumns.fromSchema schema
      (retired.map (Transaction.transferNextColumnId columns)) = .ok tableColumns) :
    tableColumns.Closed ∧ ∃ next, tableColumns.nextColumnId = some next ∧
      (∀ id ∈ tableColumns.ids, id < next) ∧
        ∀ id ∈ (retired.getD []).map DucklakeColumn.columnId, id < next := by
  obtain ⟨closed, preserved, counted⟩ := CatalogColumns.fromSchema_ids schema _ built
  refine ⟨closed, ?_⟩
  cases retired with
  | none =>
      obtain ⟨next, ids⟩ := counted rfl
      refine ⟨_, next, fun id member => ?_, by simp⟩
      rw [ids] at member
      obtain ⟨offset, inside, rfl⟩ := List.mem_map.mp member
      have := List.mem_range.mp inside
      omega
  | some retired =>
      obtain ⟨next, ids⟩ := preserved _ rfl
      rw [(ofColumns_eq_ok columns schema typed).1] at ids
      refine ⟨_, next, fun id member => ?_, fun id member => ?_⟩
      · rw [ids] at member
        exact lt_transferNextColumnId columns retired id (Or.inl member)
      · exact lt_transferNextColumnId columns retired id (Or.inr member)

theorem TablesEdited.columnsEdited
    {snapshot : Int}
    {old new : Catalog}
    (tables : ∀ ref, (old.table ref).Numbered db snapshot)
    (edited : TablesEdited db old new changes) :
    ColumnsEdited db snapshot old new changes := by
  cases edited with
  | same arena plain =>
      have same : ∀ ref, new.table ref = old.table ref := fun ref => by
        rw [Catalog.table, arena]
        rfl
      have added : ColumnsAdded ⟨0⟩ changes (old.table ⟨0⟩).columns (new.table ⟨0⟩).columns := by
        rw [same]
        exact .of_plain (.refl _) plain
      exact added.edited (fun ref => same ref ▸ tables ref) fun other _ => same other
  | @created info columns path retired schemaRef tableColumns partition sortInfo typed built
      specified arena recorded =>
      obtain ⟨closed, next, counted, below, reserved⟩ :=
        numbered_of_fromSchema info.schema columns retired tableColumns typed built
      let ref : TableRef := ⟨old.tableArena.arena.length⟩
      have others : ∀ other, other ≠ ref → new.table other = old.table other := by
        intro other distinct
        have outside : other.idx ≠ old.tableArena.arena.length := fun same =>
          distinct (congrArg TableRef.mk same)
        rw [Catalog.table, arena, Arena.get_push_of_ne _ _ _ _ outside]
        rfl
      have own : (new.table ref).columns = tableColumns ∧ (new.table ref).id = none := by
        rw [Catalog.table, arena, Arena.get_push_length]
        exact ⟨rfl, rfl⟩
      have absent : old.table ref = default := by
        simp [ref, Catalog.table, Arena.get]
      have columnsOf : ∀ change ∈ changes, ∀ column ∈ change.columnRefs, column.tableRef = ref ∧
          column.columnIdx < tableColumns.arena.length := by
        rw [recorded]
        intro change member column inside
        rw [List.mem_singleton.mp member] at inside
        obtain ⟨refs, listed, inside⟩ := List.mem_flatten.mp inside
        obtain ⟨idxs, root, rfl⟩ := List.mem_map.mp listed
        obtain ⟨idx, reached, rfl⟩ := List.mem_map.mp inside
        obtain ⟨first, rooted, rfl⟩ := List.mem_map.mp root
        exact ⟨rfl, closed.aggregateColumnIndices _ first (closed.roots first rooted) idx reached⟩
      constructor
      case tables =>
        intro other
        by_cases same : other = ref
        · rw [same]
          constructor
          case closed => exact own.1 ▸ closed
          case below =>
            rw [own.1]
            intro later found
            rw [counted] at found
            cases found
            exact below
          case above =>
            intro _ _ _ found
            rw [own.2] at found
            cases found
          case loaded =>
            rw [own.1]
            intro missing
            rw [counted] at missing
            cases missing
        · rw [others other same]
          exact tables other
      case grows =>
        intro other
        by_cases same : other = ref
        · rw [same, absent]
          exact ⟨⟨_, (List.nil_append _).symm⟩, fun _ found => by cases found⟩
        · rw [others other same]
          exact .refl _
      case inside =>
        intro change member column inside
        obtain ⟨same, bound⟩ := columnsOf change member column inside
        rwa [same, own.1]
      case reserved =>
        rw [recorded]
        intro change member other id inside
        rw [List.mem_singleton.mp member, Change.reservedIds] at inside
        split at inside
        · rename_i same
          rw [← same]
          refine ⟨next, ?_, reserved id inside⟩
          change (new.table ref).columns.nextColumnId = some next
          rw [own.1, counted]
        · cases inside
      case added => simp [recorded, Change.addedColumns]
      case increasing => simp [recorded, Change.addedColumns]
      case single => simp [recorded, Change.addedColumns]
  | @updated ref update present arena updates =>
      have others : ∀ other, other ≠ ref → new.table other = old.table other := by
        intro other distinct
        rw [Catalog.table, arena, Arena.get_modify_of_ne]
        · rfl
        · exact fun same => distinct (congrArg TableRef.mk same)
      have own : new.table ref = update (old.table ref) := by
        rw [Catalog.table, arena, Arena.get_modify_self _ _ _ present]
        rfl
      obtain ⟨numbered, added⟩ := updates.numbered (tables ref)
      rw [← own] at numbered added
      refine added.edited (fun other => ?_) others
      by_cases same : other = ref
      · rw [same]
        exact numbered
      · rw [others other same]
        exact tables other

/-! ## Transactions -/

/-- The ids of added columns are above those stored for their tables when the transaction started,
and above those of all changes before them. -/
structure Transaction.ColumnsNumbered (db : Database) (tx : Transaction) : Prop where
  tables : ∀ ref, (tx.catalog.table ref).Numbered db tx.snapshot.id
  inside : ∀ change ∈ tx.changes, ∀ column ∈ change.columnRefs,
    column.columnIdx < (tx.catalog.table column.tableRef).columns.arena.length
  reserved : ∀ change ∈ tx.changes, ∀ ref, ∀ id ∈ change.reservedIds ref, ∃ next,
    (tx.catalog.table ref).columns.nextColumnId = some next ∧ id < next
  fresh : ∀ change ∈ tx.changes, ∀ column ∈ change.addedColumns, ∀ tableId,
    (tx.catalog.table column.tableRef).id = some tableId →
      ∀ id, db.HasColumn tx.snapshot.id tableId id → id < (tx.catalog.column column).id
  increasing : ∀ change ∈ tx.changes,
    (change.addedColumns.map fun column => (tx.catalog.column column).id).Pairwise (· < ·)
  ordered : tx.changes.Pairwise fun earlier later => ∀ column ∈ later.addedColumns,
    ∀ id ∈ earlier.columnIds tx.catalog column.tableRef, id < (tx.catalog.column column).id

theorem Transaction.Change.addedColumns_subset (change : Change) :
    change.addedColumns ⊆ change.columnRefs := by
  cases change <;> simp [Change.addedColumns, Change.columnRefs]

theorem Transaction.ColumnsNumbered.edit
    {tx : Transaction}
    {catalog : Catalog}
    (numbered : tx.ColumnsNumbered db)
    (grows : tx.catalog.Grows catalog)
    (tables : TablesEdited db tx.catalog catalog changes) :
    Transaction.ColumnsNumbered db
      { tx with catalog := catalog, changes := tx.changes ++ changes } := by
  have edited := tables.columnsEdited numbered.tables
  have sameId : ∀ ref, (catalog.table ref).id = (tx.catalog.table ref).id := fun ref =>
    grows.idOf (.table ref) rfl
  have kept : ∀ change ∈ tx.changes, ∀ column ∈ change.columnRefs,
      (catalog.column column).id = (tx.catalog.column column).id := fun change member column listed =>
    (edited.grows _).column_id _ (numbered.inside change member column listed)
  have keptIds : ∀ change ∈ tx.changes, ∀ ref,
      change.columnIds catalog ref = change.columnIds tx.catalog ref := by
    intro change member ref
    unfold Transaction.Change.columnIds
    congr 1
    exact List.map_congr_left fun column listed =>
      kept change member column (List.mem_of_mem_filter listed)
  constructor
  case tables => exact edited.tables
  case inside =>
    refine List.forall_mem_append.mpr ⟨fun change member column listed => ?_, edited.inside⟩
    exact Nat.lt_of_lt_of_le (numbered.inside change member column listed)
      (edited.grows _).length_le
  case reserved =>
    refine List.forall_mem_append.mpr ⟨fun change member ref id reserved => ?_, edited.reserved⟩
    obtain ⟨next, counted, below⟩ := numbered.reserved change member ref id reserved
    obtain ⟨later, countedLater, above⟩ := (edited.grows ref).next next counted
    exact ⟨later, countedLater, Int.lt_of_lt_of_le below above⟩
  case fresh =>
    refine List.forall_mem_append.mpr ⟨fun change member column listed tableId found id stored => ?_,
      fun change member column listed tableId found id stored => ?_⟩
    · rw [kept change member column (change.addedColumns_subset listed)]
      exact numbered.fresh change member column listed tableId ((sameId _).symm.trans found) id
        stored
    · obtain ⟨next, counted, above⟩ := edited.added change member column listed
      exact Int.lt_of_lt_of_le ((numbered.tables _).above next tableId counted
        ((sameId _).symm.trans found) id stored) above
  case increasing =>
    refine List.forall_mem_append.mpr ⟨fun change member => ?_, edited.increasing⟩
    have same : (change.addedColumns.map fun column => (catalog.column column).id) =
        change.addedColumns.map fun column => (tx.catalog.column column).id :=
      List.map_congr_left fun column listed =>
        kept change member column (change.addedColumns_subset listed)
    rw [same]
    exact numbered.increasing change member
  case ordered =>
    refine List.pairwise_append.mpr ⟨?_, ?_, ?_⟩
    · refine numbered.ordered.imp_of_mem fun {earlier later} member memberLater below column listed
        id recorded => ?_
      rw [keptIds earlier member] at recorded
      rw [kept later memberLater column (later.addedColumns_subset listed)]
      exact below column listed id recorded
    · by_cases adds : ∃ change ∈ changes, change.addedColumns ≠ []
      · obtain ⟨change, member, adds⟩ := adds
        rw [edited.single change member adds]
        exact List.pairwise_singleton _ _
      · refine List.pairwise_of_forall_mem_list fun earlier _ later member column listed => ?_
        have none : later.addedColumns = [] := by
          by_contra some
          exact adds ⟨later, member, some⟩
        rw [none] at listed
        cases listed
    · intro earlier member later memberLater column listed id recorded
      obtain ⟨next, counted, above⟩ := edited.added later memberLater column listed
      rw [keptIds earlier member] at recorded
      refine Int.lt_of_lt_of_le ?_ above
      rcases List.mem_append.mp recorded with own | reserved
      · obtain ⟨other, inside, rfl⟩ := List.mem_map.mp own
        obtain ⟨listedOther, same⟩ := List.mem_filter.mp inside
        have owner : other.tableRef = column.tableRef := by simpa using same
        have bound := numbered.inside earlier member other listedOther
        rw [owner] at bound
        refine (numbered.tables _).below next counted _ (List.mem_of_getElem? (i := other.columnIdx) ?_)
        rw [Catalog.column, owner]
        exact CatalogColumns.getElem?_ids _ _ bound
      · obtain ⟨bound, found, below⟩ := numbered.reserved earlier member _ id reserved
        rw [counted] at found
        cases found
        exact below

theorem Catalog.LoadedTable.numbered
    {env : Environment}
    {snapshot : Int}
    {row : DucklakeTable}
    {table : CatalogTable}
    (loads : Catalog.LoadedTable env db snapshot row table) :
    table.Numbered db snapshot := by
  obtain ⟨unset, _⟩ := CatalogColumns.fromDucklake_ids env _ _ _ loads.columns
  constructor
  case closed => exact CatalogColumns.fromDucklake_closed env _ _ loads.columns
  case below =>
    intro next counted
    rw [unset] at counted
    cases counted
  case above =>
    intro next tableId counted
    rw [unset] at counted
    cases counted
  case loaded =>
    intro _ id member
    obtain ⟨column, listed, rfl⟩ :=
      (CatalogColumns.mem_ids_fromDucklake env _ _ _ loads.columns id).mp member
    obtain ⟨visible, owner⟩ := List.mem_filter.mp listed
    obtain ⟨stored, seen, rfl⟩ := List.mem_map.mp visible
    obtain ⟨inside, seen⟩ := List.mem_filter.mp seen
    refine ⟨row.tableId, loads.id, stored, inside, ?_, by simpa using owner, rfl⟩
    simp only [Versioned.visibleAt, Bool.and_eq_true, decide_eq_true_eq] at seen
    exact seen.1

theorem columnsNumbered_new
    (env : Environment)
    (info : SnapshotInfo)
    (catalog : Catalog)
    (success : Catalog.load env db info.id = .ok catalog) :
    (Transaction.new info catalog).ColumnsNumbered db where
  tables ref := by
    change (catalog.table ref).Numbered db info.id
    by_cases present : catalog.Has (.table ref)
    · obtain ⟨row, _, loads⟩ := Catalog.load_table env db info.id catalog success ref present
      exact loads.numbered
    · have absent : catalog.table ref = default := by
        simp [Catalog.table, Arena.get, List.getElem?_eq_none (Nat.le_of_not_lt present)]
      rw [absent]
      exact numbered_default db info.id
  inside _ member := by cases member
  reserved _ member := by cases member
  fresh _ member := by cases member
  increasing _ member := by cases member
  ordered := .nil

theorem Transaction.ColumnsNumbered.committed
    {tx : Transaction}
    {later : Database}
    {creates : Int}
    (numbered : tx.ColumnsNumbered db)
    (updates : Versioned.Updates creates db.columns later.columns)
    (older : tx.snapshot.id < creates) :
    tx.ColumnsNumbered later where
  tables ref := {
    closed := (numbered.tables ref).closed
    below := (numbered.tables ref).below
    above := fun next tableId counted id columnId stored =>
      (numbered.tables ref).above next tableId counted id columnId (stored.of_updates updates older)
    loaded := fun missing id member => by
      obtain ⟨tableId, found, stored⟩ := (numbered.tables ref).loaded missing id member
      exact ⟨tableId, found, stored.updated updates⟩ }
  inside := numbered.inside
  reserved := numbered.reserved
  fresh change member column listed tableId found id stored :=
    numbered.fresh change member column listed tableId found id (stored.of_updates updates older)
  increasing := numbered.increasing
  ordered := numbered.ordered

end

end Ducklake
