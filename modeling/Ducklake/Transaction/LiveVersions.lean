import Ducklake.Transaction.Bounds
import Ducklake.Transaction.Renewals

/-!
# Live rows after a commit

The keys of the live rows that a commit leaves are those before it without the ones of dropped
objects, renewed by what the attempt collected.
-/

set_option autoImplicit false

namespace Ducklake

open Lib Spec Transaction

/-- The live rows of each kind are of different things. -/
structure Spec.Database.LiveOnce (db : Database) : Prop where
  tables : (Versioned.liveKeys DucklakeTable.tableId db.tables).Nodup
  tags : (Versioned.liveKeys tagKey db.tags).Nodup
  columns : (Versioned.liveKeys columnKey db.columns).Nodup
  columnTags : (Versioned.liveKeys columnTagKey db.columnTags).Nodup
  partitionInfo : (Versioned.liveKeys DucklakePartitionInfo.tableId db.partitionInfo).Nodup
  sortInfo : (Versioned.liveKeys DucklakeSortInfo.tableId db.sortInfo).Nodup

namespace Transaction

section

variable {α κ : Type} [DecidableEq κ] {key : α → κ} {rows : List (Versioned α)}

theorem liveKeys_rewritten
    (snapshot : Int)
    (selects : α → Bool)
    (dropped : κ → Bool)
    (retired : List κ)
    (added : List (Versioned α))
    (same : ∀ entity, selects entity = true ↔
      dropped (key entity) = true ∨ key entity ∈ retired) :
    Versioned.liveKeys key (Versioned.retire snapshot selects rows ++ added) =
      Renewal.apply ((Versioned.liveKeys key rows).filter fun item => !dropped item)
        ⟨retired, Versioned.liveKeys key added⟩ := by
  rw [Versioned.liveKeys_append, Versioned.liveKeys_retire snapshot selects
    (fun item => dropped item || decide (item ∈ retired)) fun row _ => by
      rw [Bool.eq_iff_iff, same row.entity]
      simp]
  unfold Renewal.apply
  rw [List.filter_filter]
  congr 1
  refine List.filter_congr fun item _ => ?_
  by_cases ended : item ∈ retired <;> simp [ended]

/-! ## Renamed tables -/

theorem liveKeys_renamed
    {snapshot latest : Int}
    {tables : List (Versioned DucklakeTable)}
    (dropped : Int → Bool)
    (renames : IndexMap Int Text)
    (bounded : Versioned.Until latest tables)
    (older : latest < snapshot) :
    Versioned.liveKeys DucklakeTable.tableId (persistTableRenames snapshot renames
        (Versioned.retire snapshot (fun row => dropped row.tableId || renames.contains row.tableId)
          tables)) =
      (Versioned.liveKeys DucklakeTable.tableId tables).filter
          (fun id => !(dropped id || renames.contains id)) ++
        (Versioned.liveKeys DucklakeTable.tableId tables).filter renames.contains := by
  unfold persistTableRenames
  rw [Versioned.liveKeys_append, Versioned.liveKeys_retire snapshot _
    (fun id => dropped id || renames.contains id) fun _ _ => rfl]
  congr 1
  -- The rows that this snapshot ended are those that were live before.
  have copies : (Versioned.retire snapshot
      (fun row => dropped row.tableId || renames.contains row.tableId) tables).filterMap (fun row =>
        if row.endSnapshot = some snapshot then
          (renames.get? row.entity.tableId).map fun name =>
            Versioned.new snapshot { row.entity with tableName := name }
        else none) = tables.filterMap fun row =>
      if row.isLive then (renames.get? row.entity.tableId).map fun name =>
        Versioned.new snapshot { row.entity with tableName := name } else none := by
    unfold Versioned.retire
    rw [List.filterMap_map]
    refine List.filterMap_congr fun row member => ?_
    cases ended : row.endSnapshot with
    | some finish =>
        have before := (bounded row member).2 finish ended
        have kept : ¬finish = snapshot := by omega
        simp [Versioned.retireRow, Versioned.isLive, ended, kept]
    | none =>
        cases named : renames.get? row.entity.tableId with
        | some name => simp [Versioned.retireRow, Versioned.isLive, ended, named, IndexMap.contains]
        | none => simp [Versioned.isLive, ended, named]
  rw [copies]
  clear copies bounded
  induction tables with
  | nil => rfl
  | cons row rest ih =>
      unfold Versioned.liveKeys Versioned.live at *
      rw [List.filterMap_cons, List.filter_cons]
      cases alive : row.isLive with
      | false => simpa using ih
      | true =>
          cases named : renames.get? row.entity.tableId with
          | some name => simpa [named, IndexMap.contains, List.filter_cons] using ih
          | none => simpa [named, IndexMap.contains] using ih

theorem nodup_renamed
    (dropped : Int → Bool)
    (renames : IndexMap Int Text)
    (ids : List Int)
    (unique : ids.Nodup) :
    (ids.filter (fun id => !(dropped id || renames.contains id)) ++
      ids.filter renames.contains).Nodup := by
  refine List.nodup_append.mpr ⟨unique.filter _, unique.filter _, ?_⟩
  rintro id kept _ renamed rfl
  have ended := (List.mem_filter.mp kept).2
  simp [(List.mem_filter.mp renamed).2] at ended

/-! ## Edited tags -/

theorem nodup_persistTags
    {ι : Type}
    (snapshot : Int)
    (keyOf : ι → Text → κ)
    (selects : ι → Text → α → Bool)
    (entity : ι → Text → Text → α)
    (edits : List (ι × TagChange))
    (selected : ∀ id name tag, selects id name tag = decide (key tag = keyOf id name))
    (written : ∀ id name value, key (entity id name value) = keyOf id name)
    (unique : (Versioned.liveKeys key rows).Nodup) :
    (Versioned.liveKeys key (persistTags snapshot selects entity rows edits)).Nodup := by
  unfold persistTags
  induction edits generalizing rows with
  | nil => exact unique
  | cons edit rest ih =>
      refine ih ?_
      rw [liveKeys_rewritten snapshot _ (fun _ => false) [keyOf edit.1 edit.2.key] _
        (fun tag => by simp [selected])]
      refine Renewal.nodup_apply _ _ (unique.filter _) ?_ ?_
      · cases edit.2.value <;> simp [Versioned.liveKeys, Versioned.live, List.filter_cons]
      · cases edit.2.value <;>
          simp [Versioned.liveKeys, Versioned.live, List.filter_cons, written]

end

/-! ## Commits -/

/-- The renewals leave one live row of each thing that the database has. -/
structure Renewals.KeepUnique (renewals : Renewals) (db : Database) : Prop where
  tables : Renewal.KeepsUnique (Versioned.liveKeys DucklakeTable.tableId db.tables) renewals.tables
  tags : Renewal.KeepsUnique (Versioned.liveKeys tagKey db.tags) renewals.tags
  columns : Renewal.KeepsUnique (Versioned.liveKeys columnKey db.columns) renewals.columns
  columnTags : Renewal.KeepsUnique (Versioned.liveKeys columnTagKey db.columnTags)
    renewals.columnTags
  partitionInfo : Renewal.KeepsUnique
    (Versioned.liveKeys DucklakePartitionInfo.tableId db.partitionInfo) renewals.partitionInfo
  sortInfo : Renewal.KeepsUnique (Versioned.liveKeys DucklakeSortInfo.tableId db.sortInfo)
    renewals.sortInfo

theorem written_liveTables
    (env : Environment)
    (state : CommitState)
    (changes : TransactionChanges)
    (db : Database)
    (latest : Int)
    (once : (Versioned.liveKeys DucklakeTable.tableId db.tables).Nodup)
    (bounded : Versioned.Until latest db.tables)
    (older : latest < state.snapshotId)
    (keeps : Renewal.KeepsUnique (Versioned.liveKeys DucklakeTable.tableId db.tables)
      changes.renewals.tables) :
    (Versioned.liveKeys DucklakeTable.tableId (written env state changes db).tables).Nodup := by
  change (Versioned.liveKeys DucklakeTable.tableId (persistTableRenames state.snapshotId
    changes.renamedTables (Versioned.retire state.snapshotId (fun row =>
      decide (row.tableId ∈ changes.droppedTables) || changes.renamedTables.contains row.tableId)
        db.tables) ++ changes.newTables.map (.new state.snapshotId))).Nodup
  rw [Versioned.liveKeys_append, Versioned.liveKeys_map_new,
    liveKeys_renamed (fun id => decide (id ∈ changes.droppedTables)) _ bounded older,
    ← Renewal.apply_added]
  refine keeps _ (fun id member => ?_) (nodup_renamed _ _ _ once)
  rcases List.mem_append.mp member with kept | renamed
  · exact List.mem_of_mem_filter kept
  · exact List.mem_of_mem_filter renamed

theorem written_liveOnce
    (env : Environment)
    (state : CommitState)
    (changes : TransactionChanges)
    (db : Database)
    (latest : Int)
    (once : db.LiveOnce)
    (bounded : db.Until latest)
    (older : latest < state.snapshotId)
    (keeps : changes.renewals.KeepUnique db) :
    (written env state changes db).LiveOnce where
  tables := written_liveTables env state changes db latest once.tables bounded.tables older
    keeps.tables
  tags := by
    change (Versioned.liveKeys tagKey (persistTags state.snapshotId
      (fun id key row => row.objectId = id ∧ row.key = key)
      (fun id key value => { objectId := id, key := key, value := value })
      (insertNew state.snapshotId _ changes.newTags) changes.tableTags)).Nodup
    refine nodup_persistTags state.snapshotId Prod.mk _ _ changes.tableTags ?_ ?_ ?_
    · exact fun id name tag => decide_eq_decide.mpr Prod.mk_inj.symm
    · exact fun id name value => rfl
    · change (Versioned.liveKeys tagKey (Versioned.retire state.snapshotId (fun row =>
        decide (row.objectId ∈ changes.droppedTables) ||
          decide (row.objectId ∈ changes.droppedSchemas) ||
            decide (row.objectId ∈ changes.droppedViews)) db.tags ++
              changes.newTags.map (.new state.snapshotId))).Nodup
      rw [liveKeys_rewritten state.snapshotId _ (fun key =>
        decide (key.1 ∈ changes.droppedTables) || decide (key.1 ∈ changes.droppedSchemas) ||
          decide (key.1 ∈ changes.droppedViews)) [] _ (fun tag => by grind [tagKey]),
        Versioned.liveKeys_map_new]
      exact keeps.tags _ (fun _ member => List.mem_of_mem_filter member) (once.tags.filter _)
  columns := by
    change (Versioned.liveKeys columnKey (Versioned.retire state.snapshotId (fun row =>
      decide (row.tableId ∈ changes.droppedTables) ||
        decide ((row.tableId, row.columnId) ∈ changes.retiredColumns)) db.columns ++
          changes.newColumns)).Nodup
    rw [liveKeys_rewritten state.snapshotId _ (fun key => decide (key.1 ∈ changes.droppedTables))
      changes.retiredColumns]
    · exact keeps.columns _ (fun _ member => List.mem_of_mem_filter member) (once.columns.filter _)
    · exact fun column => by grind [columnKey]
  columnTags := by
    change (Versioned.liveKeys columnTagKey (persistTags state.snapshotId
      (fun id key row => (row.tableId, row.columnId) = id ∧ row.key = key)
      (fun id key value => { tableId := id.1, columnId := id.2, key := key, value := value })
      (insertNew state.snapshotId _ changes.newColumnTags) changes.columnTags)).Nodup
    refine nodup_persistTags state.snapshotId Prod.mk _ _ changes.columnTags ?_ ?_ ?_
    · exact fun id name tag => decide_eq_decide.mpr Prod.mk_inj.symm
    · exact fun id name value => rfl
    · change (Versioned.liveKeys columnTagKey (Versioned.retire state.snapshotId (fun row =>
        decide (row.tableId ∈ changes.droppedTables)) db.columnTags ++
          changes.newColumnTags.map (.new state.snapshotId))).Nodup
      rw [liveKeys_rewritten state.snapshotId _
        (fun key => decide (key.1.1 ∈ changes.droppedTables)) [] _
          (fun tag => by grind [columnTagKey]), Versioned.liveKeys_map_new]
      exact keeps.columnTags _ (fun _ member => List.mem_of_mem_filter member)
        (once.columnTags.filter _)
  partitionInfo := by
    change (Versioned.liveKeys DucklakePartitionInfo.tableId (Versioned.retire state.snapshotId
      (fun row => decide (row.tableId ∈ changes.droppedTables) ||
        decide (row.tableId ∈ changes.retiredPartitionTables)) db.partitionInfo ++
          changes.newPartitionInfo)).Nodup
    rw [liveKeys_rewritten state.snapshotId _ (fun id => decide (id ∈ changes.droppedTables))
      changes.retiredPartitionTables]
    · exact keeps.partitionInfo _ (fun _ member => List.mem_of_mem_filter member)
        (once.partitionInfo.filter _)
    · exact fun row => by simp
  sortInfo := by
    change (Versioned.liveKeys DucklakeSortInfo.tableId (Versioned.retire state.snapshotId
      (fun row => decide (row.tableId ∈ changes.droppedTables) ||
        decide (row.tableId ∈ changes.retiredSortTables)) db.sortInfo ++
          changes.newSortInfo)).Nodup
    rw [liveKeys_rewritten state.snapshotId _ (fun id => decide (id ∈ changes.droppedTables))
      changes.retiredSortTables]
    · exact keeps.sortInfo _ (fun _ member => List.mem_of_mem_filter member)
        (once.sortInfo.filter _)
    · exact fun row => by simp

end Transaction

end Ducklake
