import Ducklake.Interleaving.LiveColumns
import Ducklake.Transaction.ColumnForests

/-!
# Disjoint versions of a run

The rows of one thing are versions of it.  Every commit leaves at most one of them live, so no
snapshot sees two.
-/

set_option autoImplicit false

namespace Ducklake

open Lib Caches Spec Maintenance Transaction

/-- The versions of one thing have disjoint intervals, and no snapshot sees two specifications of
one table. -/
structure Spec.Database.DisjointVersions (db : Database) : Prop where
  tables : Versioned.DisjointBy DucklakeTable.tableId db.tables
  tags : Versioned.DisjointBy tagKey db.tags
  columns : Versioned.DisjointBy columnKey db.columns
  columnTags : Versioned.DisjointBy columnTagKey db.columnTags
  partitionInfo : Versioned.DisjointBy DucklakePartitionInfo.tableId db.partitionInfo
  sortInfo : Versioned.DisjointBy DucklakeSortInfo.tableId db.sortInfo
  partitionedOnce : ∀ snapshot,
    ((Versioned.entitiesAt snapshot db.partitionInfo).map DucklakePartitionInfo.tableId).Nodup
  sortedOnce : ∀ snapshot,
    ((Versioned.entitiesAt snapshot db.sortInfo).map DucklakeSortInfo.tableId).Nodup

theorem Spec.Database.DisjointVersions.liveOnce
    {db : Database}
    (disjoint : db.DisjointVersions) :
    db.LiveOnce where
  tables := disjoint.tables.nodup_liveKeys
  tags := disjoint.tags.nodup_liveKeys
  columns := disjoint.columns.nodup_liveKeys
  columnTags := disjoint.columnTags.nodup_liveKeys
  partitionInfo := disjoint.partitionInfo.nodup_liveKeys
  sortInfo := disjoint.sortInfo.nodup_liveKeys

theorem Spec.Database.DisjointVersions.updates
    {before after : Database}
    {snapshot creates : Int}
    (disjoint : before.DisjointVersions)
    (bounded : before.Until snapshot)
    (older : snapshot < creates)
    (updates : before.CatalogUpdates creates after)
    (once : after.LiveOnce) :
    after.DisjointVersions := by
  have partitionInfo :=
    disjoint.partitionInfo.updates bounded.partitionInfo older updates.partitionInfo once.partitionInfo
  have sortInfo := disjoint.sortInfo.updates bounded.sortInfo older updates.sortInfo once.sortInfo
  exact {
    tables := disjoint.tables.updates bounded.tables older updates.tables once.tables
    tags := disjoint.tags.updates bounded.tags older updates.tags once.tags
    columns := disjoint.columns.updates bounded.columns older updates.columns once.columns
    columnTags :=
      disjoint.columnTags.updates bounded.columnTags older updates.columnTags once.columnTags
    partitionInfo := partitionInfo
    sortInfo := sortInfo
    partitionedOnce := partitionInfo.nodup_entitiesAt
    sortedOnce := sortInfo.nodup_entitiesAt }

namespace System

section

variable {env : Environment} {now : Int} {sys next : System} {latest : SnapshotInfo}
variable {commit : Commit} {time : Int}

theorem keepUnique_of_committing
    (run : Reachable env TransfersColumnsOnce now next)
    (member : commit ∈ next.history)
    (db : next.db = commit.after)
    (covered : TagsCovered sys.db)
    (counted : sys.Counted latest)
    (committing : Committing env sys latest commit time) :
    commit.prepared.changes.renewals.KeepUnique sys.db := by
  have first := (reachable_createdFirst env _ now next run).commits commit member
  have fits := (reachable_fits env now next
    (run.mono withoutExpiration_of_transfersColumnsOnce)).commits commit member
  obtain ⟨start, catalog, nextId, attempted⟩ := committing.attempted counted first
  have columns := attempted_columns run member db counted committing start catalog nextId attempted
  have stored : Versioned.liveKeys columnKey sys.db.columns ⊆
      sys.db.columns.map fun row => columnKey row.entity := by
    intro key live
    obtain ⟨row, inside, _, rfl⟩ := (Versioned.mem_liveKeys key).mp live
    exact List.mem_map_of_mem inside
  have below : ∀ {α κ : Type} (key : α → κ) (owner : κ → Int) (rows : List (Versioned α)),
      Versioned.Entities (fun entity => owner (key entity) < latest.nextCatalogId) rows →
        ∀ item ∈ Versioned.liveKeys key rows, owner item < start.nextCatalogId := by
    intro α κ key owner rows bounded item live
    obtain ⟨row, inside, _, rfl⟩ := (Versioned.mem_liveKeys item).mp live
    rw [nextId]
    exact bounded row inside
  have ids := counted.idsBelow
  constructor
  case tables =>
    exact committing.keepsUnique fits Renewals.tables rfl (fun _ _ => rfl) <| attempted.separate _
      (fun change _ => owned_renewals_tables _ change) (below _ id _ ids.tables)
  case tags =>
    exact committing.keepsUnique fits Renewals.tags rfl (fun _ _ => rfl) <| attempted.separate _
      (fun change _ => owned_renewals_tags _ change) (below _ Prod.fst _ ids.tags)
  case columns =>
    exact (committing.keepsUnique fits Renewals.columns rfl (fun _ _ => rfl)
      (attempted.separate_columns columns)).mono stored
  case columnTags =>
    refine committing.keepsUnique fits Renewals.columnTags rfl (fun _ _ => rfl)
      (attempted.separate_columnTags columns (fun change inside =>
        fits change (ChangeSet.mem_of_mem_new _ change inside)) ?_)
    intro key live
    obtain ⟨tag, inside, _, rfl⟩ := (Versioned.mem_liveKeys key).mp live
    obtain ⟨row, listed, owner, same⟩ := covered tag inside
    exact List.mem_map.mpr ⟨row, listed, Prod.ext owner same⟩
  case partitionInfo =>
    exact committing.keepsUnique fits Renewals.partitionInfo rfl (fun _ _ => rfl) <|
      attempted.separate _ (fun change _ => owned_renewals_partitionInfo _ change)
        (below _ id _ (ids.partitionInfo.mono fun _ bounds => bounds.2))
  case sortInfo =>
    exact committing.keepsUnique fits Renewals.sortInfo rfl (fun _ _ => rfl) <|
      attempted.separate _ (fun change _ => owned_renewals_sortInfo _ change)
        (below _ id _ (ids.sortInfo.mono fun _ bounds => bounds.2))

end

/-- The versions of everything that a run stores have disjoint intervals. -/
theorem disjointVersions_of_reachable
    (env : Environment)
    (now : Int)
    (sys : System)
    (run : Reachable env TransfersColumnsOnce now sys) :
    sys.db.DisjointVersions := by
  refine reachable_stored env _ now sys Database.DisjointVersions
    withoutExpiration_of_transfersColumnsOnce ?_ ?_ run
  · exact ⟨.nil, .nil, .nil, .nil, .nil, .nil, fun _ => .nil, fun _ => .nil⟩
  · intro sys next latest commit time run reached member db disjoint counted committing
    have older : latest.id < commit.prepared.state.snapshotId :=
      counted.start_lt committing latest counted.newest
    have keeps := keepUnique_of_committing reached member db (reachable_tagsCovered env now sys run)
      counted committing
    have once := written_liveOnce env commit.prepared.state commit.prepared.changes sys.db latest.id
      disjoint.liveOnce counted.until_ older keeps
    refine disjoint.updates counted.until_ older (persistCommit_catalogUpdates env time _ _ _
      (committing.rows counted).fresh committing.persisted) ?_
    rw [persistCommit_same env time _ _ _ committing.persisted]
    exact { once with }

/-- What is read of a table of such a catalog can be transferred into a run. -/
theorem transfersColumnsOnce_of_disjointVersions
    (env : Environment)
    (source : Database)
    (disjoint : source.DisjointVersions)
    (snapshotId : Int)
    (catalog : Catalog)
    (success : Catalog.load env source snapshotId = .ok catalog)
    (ref : TableRef)
    (present : catalog.Has (.table ref))
    (info : TableInfo)
    (read : info.schema = (catalog.table ref).columns.schema)
    (sys : System)
    (index : Nat)
    (name : QualifiedName)
    (retiredColumns : List DucklakeColumn)
    (stats : Source) :
    TransfersColumnsOnce sys
      (.move index (.operate (.createTransferTable name info retiredColumns) stats)) := by
  change (Transfer.activeColumnIds info.schema).Nodup
  rw [read]
  exact nodup_activeColumnIds_load env source snapshotId catalog
    (disjoint.columns.nodup_entitiesAt snapshotId) success ref present

/-- One transaction renames a table and a column, and changes a tag, the type of the column and the
partitioning, each of them twice. -/
def editedTwice : List Label :=
  let table (name : String) : QualifiedName := ⟨"main".toList, name.toList⟩
  let spec : Partition := [⟨"c".toList, .identity⟩]
  .begin :: working 0 ⟨0, 0, 1, 0⟩ [.createTable (table "t")
    [.mk "a".toList (.primitive .int8) true default none (.literal none) none]
    none none none none .fail] ++ committing 0 ⟨0, 0, 1, 0⟩ ++
  .begin :: working 1 ⟨1, 1, 2, 0⟩ [
    .renameTable (table "t") "u".toList, .renameTable (table "u") "v".toList,
    .renameTableColumn (table "v") ["a".toList] "b".toList,
    .renameTableColumn (table "v") ["b".toList] "c".toList,
    .updateTableColumnDtype (table "v") ["c".toList] (.primitive .int16),
    .updateTableColumnDtype (table "v") ["c".toList] (.primitive .int32),
    .addTableTag (table "v") "k".toList "x".toList, .addTableTag (table "v") "k".toList "y".toList,
    .updateTablePartitioning (table "v") (some spec), .updateTablePartitioning (table "v") none,
    .updateTablePartitioning (table "v") (some spec)] ++ committing 1 ⟨1, 1, 2, 0⟩

theorem disjointVersions_editedTwice :
    ∃ sys, editedTwice.foldlM (step .plain) (init 0) = some sys ∧
      sys.db.columns.map (fun row => (row.entity.columnName, row.beginSnapshot, row.endSnapshot)) =
        [("a".toList, 1, some 2), ("c".toList, 2, none)] ∧
      sys.db.partitionInfo.map (fun row => (row.beginSnapshot, row.endSnapshot)) = [(2, none)] ∧
      sys.db.DisjointVersions := by
  obtain ⟨sys, taken, rows⟩ : ∃ sys, editedTwice.foldlM (step .plain) (init 0) = some sys ∧
      (sys.db.columns.map fun row => (row.entity.columnName, row.beginSnapshot, row.endSnapshot),
        sys.db.partitionInfo.map fun row => (row.beginSnapshot, row.endSnapshot)) =
      ([("a".toList, 1, some 2), ("c".toList, 2, none)], [(2, none)]) :=
    Option.map_eq_some_iff.mp (by decide +kernel)
  have permitted : ∀ sys, ∀ label ∈ editedTwice, TransfersColumnsOnce sys label := by
    simp [editedTwice, working, committing, attempt, TransfersColumnsOnce]
  exact ⟨sys, taken, congrArg Prod.fst rows, congrArg Prod.snd rows,
    disjointVersions_of_reachable .plain 0 sys (Reaches.of_foldlM editedTwice permitted taken)⟩

end System

end Ducklake
