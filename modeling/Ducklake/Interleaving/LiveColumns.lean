import Ducklake.Interleaving.LiveTables
import Ducklake.Transaction.ColumnTags

/-!
# The columns of a run

No commit gives a column that is live a second live row, so no snapshot sees two rows of one
column.
-/

set_option autoImplicit false

namespace Ducklake

open Lib Caches Spec Maintenance Transaction

namespace System

/-- Transactions and transfers, where every transferred table comes with the different ids that the
columns of a table have in its source. -/
def TransfersColumnsOnce (_ : System) (label : Label) : Prop :=
  match label with
  | .expire .. => False
  | .move _ (.operate (.createTransferTable _ info _) _) =>
      (Transfer.activeColumnIds info.schema).Nodup
  | .begin | .move _ _ => True

theorem withoutExpiration_of_transfersColumnsOnce
    (sys : System)
    (label : Label)
    (permitted : TransfersColumnsOnce sys label) :
    WithoutExpiration sys label := by
  cases label with
  | expire => cases permitted
  | begin | move => rfl

theorem reachable_columnsSourced
    (env : Environment)
    (now : Int)
    (sys : System)
    (run : Reachable env TransfersColumnsOnce now sys) :
    sys.Transactions (sys.Grounded fun db tx => tx.ColumnsNumbered db ∧ tx.ColumnsSourced db) := by
  refine reachable_grounded env _ now sys _ withoutExpiration_of_transfersColumnsOnce ?_ ?_ ?_ run
  · intro sys _ info _ catalog _ loaded
    exact ⟨columnsNumbered_new env info catalog loaded, columnsSourced_new info catalog loaded⟩
  · intro sys index operation source stats _ permitted tx changes catalog grounded edit
    obtain ⟨numbered, sourced⟩ := grounded.holds
    refine ⟨numbered.edit edit.grows (edit.tables grounded.sound.catalog),
      sourced.edit numbered grounded.sound.catalog ?_ edit⟩
    intro columns transfers
    cases operation with
    | createTransferTable table info retired =>
        obtain rfl := transfers
        exact permitted
    | _ => cases transfers
  · intro sys latest commit time _ counted committing tx grounded
    obtain ⟨numbered, sourced⟩ := grounded.holds
    have updates := (persistCommit_catalogUpdates env time _ _ _ (committing.rows counted).fresh
      committing.persisted).columns
    exact ⟨numbered.committed updates (counted.start_lt committing _ grounded.snapshot),
      sourced.committed updates⟩

theorem reachable_ownsColumns
    (env : Environment)
    (allowed : System → Label → Prop)
    (now : Int)
    (sys : System)
    (run : Reachable env allowed now sys) :
    sys.Transactions fun tx => ∀ change ∈ tx.changes, change.OwnsColumns :=
  reachable_edited env allowed now sys (fun _ _ _ _ member => by cases member)
    (fun _ _ _ _ _ _ _ owns edit => List.forall_mem_append.mpr ⟨owns, edit.ownsColumns⟩) run

/-! ## Tags of columns -/

def StoresColumn (db : Database) (tableId columnId : Int) : Prop :=
  ∃ row ∈ db.columns, row.entity.tableId = tableId ∧ row.entity.columnId = columnId

theorem StoresColumn.updated
    {before after : Database}
    {creates tableId columnId : Int}
    (updates : Versioned.Updates creates before.columns after.columns)
    (stored : StoresColumn before tableId columnId) :
    StoresColumn after tableId columnId := by
  obtain ⟨update, added, keeps, _, rows⟩ := updates
  obtain ⟨row, member, owner, id⟩ := stored
  refine ⟨update row, ?_, ?_, ?_⟩
  · rw [rows]
    exact List.mem_append_left _ (List.mem_map_of_mem member)
  · rwa [(keeps row).entity]
  · rwa [(keeps row).entity]

def TagsCovered (db : Database) : Prop :=
  Versioned.Entities (fun tag => StoresColumn db tag.tableId tag.columnId) db.columnTags

section

variable {env : Environment} {now : Int} {sys next : System} {latest : SnapshotInfo}
variable {commit : Commit} {time : Int}

theorem storesColumn_of_columnKeys
    (committing : Committing env sys latest commit time)
    (tableId columnId : Int)
    (listed : (tableId, columnId) ∈ commit.prepared.changes.columnKeys) :
    StoresColumn commit.after tableId columnId := by
  obtain ⟨row, inside, same⟩ := List.mem_map.mp listed
  refine ⟨row, ?_, congrArg Prod.fst same, congrArg Prod.snd same⟩
  rw [persistCommit_same env time _ _ _ committing.persisted]
  exact List.mem_append_right _ inside

theorem storesColumn_of_edit
    (run : Reachable env TransfersColumnsOnce now next)
    (member : commit ∈ next.history)
    (db : next.db = commit.after)
    (committing : Committing env sys latest commit time)
    (edit : (Int × Int) × TagChange)
    (edited : edit ∈ commit.prepared.changes.columnTags) :
    StoresColumn commit.after edit.1.1 edit.1.2 := by
  have plain := run.mono withoutExpiration_of_transfersColumnsOnce
  have sound := committing.sound
  have first := (reachable_createdFirst env _ now next run).commits commit member
  have owns := (reachable_ownsColumns env _ now next run).commits commit member
  have fits := (reachable_fits env now next plain).commits commit member
  have fitsSet : ∀ change ∈ (ChangeSet.new commit.tx.changes).changes, change.Fits :=
    fun change inside => fits change (ChangeSet.mem_of_mem_new _ change inside)
  obtain ⟨numbered, sourced⟩ :=
    ((reachable_columnsSourced env now next run).commits commit member).holds
  rw [db] at numbered sourced
  obtain ⟨stats, success⟩ := sound.prepared
  obtain ⟨change, inside, column, specified, found, id⟩ :=
    (prepareCommit_tagsOfColumns _ _ _ sound.tx.present success).edits edit edited
  have recorded := ChangeSet.mem_of_mem_new _ _ inside
  obtain ⟨refs, _, _⟩ := change.columnRefs_of_columnTagEdit column _ specified
  have listed : column ∈ change.columnRefs := refs ▸ List.mem_singleton_self _
  rcases sourced.sourced column (numbered.inside change recorded column listed) with
    ⟨tableId, known, row, stored, _, owner, same⟩ | ⟨creator, recordedCreator, creates⟩
  · obtain ⟨start, catalog, _, extends_⟩ := sound.state
    have kept := extends_.kept _ _ (catalog.symm ▸ known)
    rw [found] at kept
    rw [← id, sound.columnId, Option.some.inj kept]
    exact ⟨row, stored, owner, same⟩
  · have kept : change.deletedTable = none := by
      cases change <;> first | rfl | cases specified
    obtain ⟨cause, insideCause, columns, ids, introduces, created⟩ :=
      exists_introduces first owns (prepareCommit_whole _ _ _ sound.tx.present fitsSet success)
        creator change recordedCreator column creates inside (owns change recorded column listed) kept
    obtain ⟨tableId, foundTable, own, _⟩ := prepareCommit_hasRows env _ _ _ sound.tx.present fitsSet
      success cause insideCause column.tableRef columns ids introduces
    rw [found] at foundTable
    obtain rfl := Option.some.inj foundTable
    rw [← id]
    exact storesColumn_of_columnKeys committing _ _ (own column created)

end

theorem reachable_tagsCovered
    (env : Environment)
    (now : Int)
    (sys : System)
    (run : Reachable env TransfersColumnsOnce now sys) :
    TagsCovered sys.db := by
  refine reachable_stored env _ now sys TagsCovered withoutExpiration_of_transfersColumnsOnce
    (fun row member => by cases member) ?_ run
  intro sys next latest commit time _ reached member db covered counted committing
  have updates := persistCommit_catalogUpdates env time _ _ _ (committing.rows counted).fresh
    committing.persisted
  obtain ⟨stats, success⟩ := committing.sound.prepared
  have tags := prepareCommit_tagsOfColumns _ _ _ committing.sound.tx.present success
  have rows : commit.after.columnTags = (written env commit.prepared.state commit.prepared.changes
      sys.db).columnTags := by
    rw [persistCommit_same env time _ _ _ committing.persisted]
  unfold TagsCovered
  rw [rows]
  simp only [written, persistStatistics]
  have old : Versioned.Entities (fun tag => StoresColumn commit.after tag.tableId tag.columnId)
      sys.db.columnTags := covered.mono fun tag stored => stored.updated updates.columns
  refine persistTags_entities _ _ _ (insertNew_entities _ (old.retire _ _) ?_) ?_
  · exact fun tag listed => storesColumn_of_columnKeys committing _ _ (tags.rows tag listed)
  · exact fun edit edited _ => storesColumn_of_edit reached member db committing edit edited

/-! ## Columns -/

section

variable {env : Environment} {now : Int} {sys next : System} {latest : SnapshotInfo}
variable {commit : Commit} {time : Int}

theorem attempted_columns
    (run : Reachable env TransfersColumnsOnce now next)
    (member : commit ∈ next.history)
    (db : next.db = commit.after)
    (counted : sys.Counted latest)
    (committing : Committing env sys latest commit time)
    (start : CommitState)
    (catalog : start.catalog = commit.tx.catalog)
    (nextId : start.nextCatalogId = latest.nextCatalogId)
    (attempted : Attempted start commit.prepared.state (ChangeSet.new commit.tx.changes).changes) :
    Attempted.Columns start commit.prepared.state (ChangeSet.new commit.tx.changes).changes
      (sys.db.columns.map fun row => columnKey row.entity) := by
  have plain := run.mono withoutExpiration_of_transfersColumnsOnce
  have sound := committing.sound
  have owns := (reachable_ownsColumns env _ now next run).commits commit member
  have fits := (reachable_fits env now next plain).commits commit member
  have recorded : ∀ change ∈ (ChangeSet.new commit.tx.changes).changes,
      change ∈ commit.tx.changes := fun change inside => ChangeSet.mem_of_mem_new _ change inside
  obtain ⟨numbered, sourced⟩ :=
    ((reachable_columnsSourced env now next run).commits commit member).holds
  obtain ⟨stats, success⟩ := sound.prepared
  have whole := prepareCommit_whole _ _ _ sound.tx.present
    (fun change inside => fits change (recorded change inside)) success
  constructor
  case owns => exact fun change inside => owns change (recorded change inside)
  case injective =>
    rw [catalog]
    exact (reachable_tablesApart env now next plain).commits commit member
  case distinct =>
    intro change inside
    have unique := sourced.distinct change (recorded change inside) (whole change inside)
    rwa [List.map_congr_left fun column _ => (sound.columnId column).symm] at unique
  case ordered =>
    refine (numbered.ordered.sublist ((deduplicate_sublist_keepLast _).trans
      (keepLast_sublist _))).imp fun {earlier later} order column added id listed => ?_
    rw [columnIds_of_sound sound] at listed
    rw [sound.columnId]
    exact order column added id listed
  case counted =>
    intro key stored
    obtain ⟨row, inside, rfl⟩ := List.mem_map.mp stored
    rw [nextId]
    exact counted.idsBelow.columns row inside
  case added =>
    intro change inside column added stored
    obtain ⟨row, listed, same⟩ := List.mem_map.mp stored
    -- The row is still there after the commit, and older than it.
    have rows := committing.rows counted
    obtain ⟨update, new, keeps, _, after⟩ := (persistCommit_catalogUpdates env time _ _ _ rows.fresh
      committing.persisted).columns
    have began := (counted.until_.columns row listed).1
    have older : latest.id < commit.prepared.state.snapshotId :=
      counted.start_lt committing latest counted.newest
    have object := (owns change (recorded change inside)).mem_objects column
      (change.addedColumns_subset added)
    have found := (attempted.knownId_of_mem change inside _ object).1
    have below := lt_of_adds env now next plain commit member _ (commit.prepared.state.columnId column)
      (by
        cases change with
        | addTableColumn parent columnRefs definition =>
            exact ⟨parent, columnRefs, definition, inside, column, added, found, rfl⟩
        | _ => cases added) (update row)
      (by
        rw [db, after]
        exact List.mem_append_left _ (List.mem_map_of_mem listed))
      (by
        rw [(keeps row).entity]
        exact congrArg Prod.fst same)
      (by
        rw [(keeps row).beginSnapshot]
        exact Int.lt_of_le_of_lt began older)
    rw [(keeps row).entity] at below
    have equal := congrArg Prod.snd same
    change row.entity.columnId = commit.prepared.state.columnId column at equal
    omega

end

end System

end Ducklake
