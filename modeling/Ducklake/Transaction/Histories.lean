import Ducklake.Transaction.Frames
import Ducklake.Transaction.Persistence

/-!
# Commits and older snapshots

A commit ends live rows and appends rows that begin with its snapshot, in every versioned table.
The snapshots before it do not notice.
-/

set_option autoImplicit false

namespace Ducklake

open Lib Spec Transaction

/-! ## All versioned tables -/

namespace Spec

/-- Every versioned table of the catalog changes as a new snapshot may change it. -/
structure Database.CatalogUpdates (snapshot : Int) (before after : Database) : Prop where
  schemas : Versioned.Updates snapshot before.schemas after.schemas
  tables : Versioned.Updates snapshot before.tables after.tables
  views : Versioned.Updates snapshot before.views after.views
  macros : Versioned.Updates snapshot before.macros after.macros
  columns : Versioned.Updates snapshot before.columns after.columns
  tags : Versioned.Updates snapshot before.tags after.tags
  columnTags : Versioned.Updates snapshot before.columnTags after.columnTags
  partitionInfo : Versioned.Updates snapshot before.partitionInfo after.partitionInfo
  sortInfo : Versioned.Updates snapshot before.sortInfo after.sortInfo

/-- Every versioned table changes as a new snapshot may change it. -/
structure Database.Updates (snapshot : Int) (before after : Database) : Prop
    extends before.CatalogUpdates snapshot after where
  dataFiles : Versioned.Updates snapshot before.dataFiles after.dataFiles
  deleteFiles : Versioned.Updates snapshot before.deleteFiles after.deleteFiles

/-- The snapshot sees the same rows of every versioned table, apart from ends beyond it. -/
structure Database.SameAt (snapshot : Int) (before after : Database) : Prop where
  schemas : Versioned.SameAt snapshot before.schemas after.schemas
  tables : Versioned.SameAt snapshot before.tables after.tables
  views : Versioned.SameAt snapshot before.views after.views
  macros : Versioned.SameAt snapshot before.macros after.macros
  columns : Versioned.SameAt snapshot before.columns after.columns
  tags : Versioned.SameAt snapshot before.tags after.tags
  columnTags : Versioned.SameAt snapshot before.columnTags after.columnTags
  partitionInfo : Versioned.SameAt snapshot before.partitionInfo after.partitionInfo
  sortInfo : Versioned.SameAt snapshot before.sortInfo after.sortInfo
  dataFiles : Versioned.SameAt snapshot before.dataFiles after.dataFiles
  deleteFiles : Versioned.SameAt snapshot before.deleteFiles after.deleteFiles

theorem Database.SameAt.refl (snapshot : Int) (db : Database) : db.SameAt snapshot db where
  schemas := .refl _
  tables := .refl _
  views := .refl _
  macros := .refl _
  columns := .refl _
  tags := .refl _
  columnTags := .refl _
  partitionInfo := .refl _
  sortInfo := .refl _
  dataFiles := .refl _
  deleteFiles := .refl _

theorem Database.SameAt.trans
    {snapshot : Int}
    {first second third : Database}
    (earlier : first.SameAt snapshot second)
    (later : second.SameAt snapshot third) :
    first.SameAt snapshot third where
  schemas := earlier.schemas.trans later.schemas
  tables := earlier.tables.trans later.tables
  views := earlier.views.trans later.views
  macros := earlier.macros.trans later.macros
  columns := earlier.columns.trans later.columns
  tags := earlier.tags.trans later.tags
  columnTags := earlier.columnTags.trans later.columnTags
  partitionInfo := earlier.partitionInfo.trans later.partitionInfo
  sortInfo := earlier.sortInfo.trans later.sortInfo
  dataFiles := earlier.dataFiles.trans later.dataFiles
  deleteFiles := earlier.deleteFiles.trans later.deleteFiles

theorem Database.Updates.sameAt
    {snapshot creates : Int}
    {before after : Database}
    (updates : before.Updates creates after)
    (older : snapshot < creates) :
    before.SameAt snapshot after where
  schemas := updates.schemas.sameAt older
  tables := updates.tables.sameAt older
  views := updates.views.sameAt older
  macros := updates.macros.sameAt older
  columns := updates.columns.sameAt older
  tags := updates.tags.sameAt older
  columnTags := updates.columnTags.sameAt older
  partitionInfo := updates.partitionInfo.sameAt older
  sortInfo := updates.sortInfo.sameAt older
  dataFiles := updates.dataFiles.sameAt older
  deleteFiles := updates.deleteFiles.sameAt older

theorem Database.CatalogUpdates.of_same
    {snapshot : Int}
    {before after : Database}
    (updates : before.CatalogUpdates snapshot after)
    (snapshots : List DucklakeSnapshot)
    (snapshotChanges : List DucklakeSnapshotChanges)
    (schemaVersions : List DucklakeSchemaVersions)
    (inlinedData : List InlinedDataTable)
    (inlinedDataTables : List DucklakeInlinedDataTables) :
    before.CatalogUpdates snapshot { after with
      snapshots := snapshots
      snapshotChanges := snapshotChanges
      schemaVersions := schemaVersions
      inlinedData := inlinedData
      inlinedDataTables := inlinedDataTables } :=
  { updates with }

theorem Database.Updates.of_same
    {snapshot : Int}
    {before after : Database}
    (updates : before.Updates snapshot after)
    (snapshots : List DucklakeSnapshot)
    (snapshotChanges : List DucklakeSnapshotChanges)
    (schemaVersions : List DucklakeSchemaVersions)
    (inlinedData : List InlinedDataTable)
    (inlinedDataTables : List DucklakeInlinedDataTables) :
    before.Updates snapshot { after with
      snapshots := snapshots
      snapshotChanges := snapshotChanges
      schemaVersions := schemaVersions
      inlinedData := inlinedData
      inlinedDataTables := inlinedDataTables } :=
  { updates with }

end Spec

/-! ## Rows of one commit -/

namespace Transaction

section

variable {α : Type} {snapshot : Int}

theorem insertNew_updates
    (rows : List (Versioned α))
    (new : List α) :
    Versioned.Updates snapshot rows (insertNew snapshot rows new) :=
  Versioned.updates_append_new rows new

theorem persistTableRenames_updates
    (renames : IndexMap Int Text)
    (tables : List (Versioned DucklakeTable)) :
    Versioned.Updates snapshot tables (persistTableRenames snapshot renames tables) := by
  refine Versioned.updates_append tables _ fun row member => ?_
  obtain ⟨old, _, copied⟩ := List.mem_filterMap.mp member
  split at copied
  · obtain ⟨name, _, rfl⟩ := Option.map_eq_some_iff.mp copied
    exact Versioned.fresh_new _
  · cases copied

theorem persistTags_updates
    {κ : Type}
    (selects : κ → Text → α → Bool)
    (entity : κ → Text → Text → α)
    (edits : List (κ × TagChange))
    (rows : List (Versioned α)) :
    Versioned.Updates snapshot rows (persistTags snapshot selects entity rows edits) := by
  induction edits generalizing rows with
  | nil => exact .refl rows
  | cons edit rest ih =>
      have inserted : ∀ row ∈ (edit.2.value.map fun value =>
          Versioned.new snapshot (entity edit.1 edit.2.key value)).toList,
          row.Fresh snapshot := by
        intro row member
        obtain ⟨value, _, rfl⟩ := Option.map_eq_some_iff.mp (Option.mem_toList.mp member)
        exact Versioned.fresh_new _
      exact ((Versioned.updates_retire _ rows).trans
        (Versioned.updates_append _ _ inserted)).trans (ih _)

end

theorem written_catalogUpdates
    (env : Environment)
    (state : CommitState)
    (changes : TransactionChanges)
    (before : Database)
    (fresh : changes.FreshAt state.snapshotId) :
    before.CatalogUpdates state.snapshotId (written env state changes before) where
  schemas := (Versioned.updates_retire _ _).trans (insertNew_updates _ _)
  tables := ((Versioned.updates_retire _ _).trans (persistTableRenames_updates _ _)).trans
    (insertNew_updates _ _)
  views := (Versioned.updates_retire _ _).trans (insertNew_updates _ _)
  macros := (Versioned.updates_retire _ _).trans (insertNew_updates _ _)
  columns := (Versioned.updates_retire _ _).trans (Versioned.updates_append _ _ fresh.columns)
  tags := by
    simp only [written, persistStatistics]
    exact ((Versioned.updates_retire _ _).trans (insertNew_updates _ _)).trans
      (persistTags_updates _ _ _ _)
  columnTags := by
    simp only [written, persistStatistics]
    exact ((Versioned.updates_retire _ _).trans (insertNew_updates _ _)).trans
      (persistTags_updates _ _ _ _)
  partitionInfo := (Versioned.updates_retire _ _).trans
    (Versioned.updates_append _ _ fresh.partitionInfo)
  sortInfo := (Versioned.updates_retire _ _).trans (Versioned.updates_append _ _ fresh.sortInfo)

theorem written_updates
    (env : Environment)
    (state : CommitState)
    (changes : TransactionChanges)
    (before : Database)
    (fresh : changes.FreshAt state.snapshotId)
    (owned : changes.detachedTables = []) :
    before.Updates state.snapshotId (written env state changes before) where
  toCatalogUpdates := written_catalogUpdates env state changes before fresh
  dataFiles := by
    have kept : (detachTables changes before).dataFiles = before.dataFiles := by
      simp [detachTables, owned]
    have updates : Versioned.Updates state.snapshotId (detachTables changes before).dataFiles
        (written env state changes before).dataFiles :=
      (Versioned.updates_retire _ _).trans (insertNew_updates _ _)
    rwa [kept] at updates
  deleteFiles := by
    have kept : (detachTables changes before).deleteFiles = before.deleteFiles := by
      simp [detachTables, owned]
    have updates : Versioned.Updates state.snapshotId (detachTables changes before).deleteFiles
        (written env state changes before).deleteFiles :=
      (Versioned.updates_retire _ _).trans (insertNew_updates _ _)
    rwa [kept] at updates

theorem persistCommit_catalogUpdates
    (env : Environment)
    (now : Int)
    (prepared : PreparedCommit)
    (before after : Database)
    (fresh : prepared.changes.FreshAt prepared.state.snapshotId)
    (success : persistCommit env now prepared before = .ok after) :
    before.CatalogUpdates prepared.state.snapshotId after := by
  obtain ⟨rows, persisted, _, rfl⟩ := persistCommit_eq_ok env now prepared before after success
  have same := persist_same env _ _ _ _ persisted
  unfold SameExceptInlined at same
  rw [same]
  exact Database.CatalogUpdates.of_same (written_catalogUpdates env _ _ before fresh) _ _ _ _ _

theorem persistCommit_updates
    (env : Environment)
    (now : Int)
    (prepared : PreparedCommit)
    (before after : Database)
    (fresh : prepared.changes.FreshAt prepared.state.snapshotId)
    (owned : prepared.changes.detachedTables = [])
    (success : persistCommit env now prepared before = .ok after) :
    before.Updates prepared.state.snapshotId after := by
  obtain ⟨rows, persisted, _, rfl⟩ := persistCommit_eq_ok env now prepared before after success
  have same := persist_same env _ _ _ _ persisted
  unfold SameExceptInlined at same
  rw [same]
  exact Database.Updates.of_same (written_updates env _ _ before fresh owned) _ _ _ _ _

theorem prepareCommit_freshAt
    (env : Environment)
    (set : ChangeSet)
    (state : CommitState)
    (prepared : PreparedCommit)
    (present : ∀ change ∈ set.changes, ∀ key ∈ change.objects, state.catalog.Has key)
    (success : prepareCommit env set state = .ok prepared) :
    prepared.changes.FreshAt prepared.state.snapshotId := by
  obtain ⟨applied, executed, _, later⟩ := prepareCommit_eq_ok env set state prepared success
  have collected := set.apply_collected env state _ present executed
  rw [(prepareCommit_extends env set state prepared success).snapshotId]
  exact collected.freshAt (freshAt_empty state.snapshotId) rfl

theorem prepareCommit_updates
    (env : Environment)
    (set : ChangeSet)
    (state : CommitState)
    (prepared : PreparedCommit)
    (now : Int)
    (before after : Database)
    (present : ∀ change ∈ set.changes, ∀ key ∈ change.objects, state.catalog.Has key)
    (owned : ∀ change ∈ set.changes, change.detaches = false)
    (success : prepareCommit env set state = .ok prepared)
    (persisted : persistCommit env now prepared before = .ok after) :
    before.Updates prepared.state.snapshotId after := by
  obtain ⟨applied, executed, _, later⟩ := prepareCommit_eq_ok env set state prepared success
  have collected := set.apply_collected env state _ present executed
  exact persistCommit_updates env now prepared before after
    (prepareCommit_freshAt env set state prepared present success)
    (collected.detachedTables owned) persisted

end Transaction

end Ducklake
