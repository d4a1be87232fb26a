import Ducklake.Transaction.Histories
import Ducklake.Transaction.NewIds

/-!
# Bounds of stored rows

Stored rows mention no id that the latest snapshot has not counted and no snapshot after it, and
a commit moves both bounds with the snapshot that it creates.
-/

set_option autoImplicit false

namespace Ducklake

open Lib Spec Transaction

namespace Spec

structure Database.IdsBelow (db : Database) (limit : Int) : Prop where
  schemas : Versioned.Entities (fun row => row.schemaId < limit) db.schemas
  tables : Versioned.Entities (fun row => row.tableId < limit) db.tables
  views : Versioned.Entities (fun row => row.viewId < limit) db.views
  macros : Versioned.Entities (fun row => row.macroId < limit) db.macros
  macroImpls : ∀ row ∈ db.macroImpls, row.macroId < limit
  macroParameters : ∀ row ∈ db.macroParameters, row.macroId < limit
  columns : Versioned.Entities (fun row => row.tableId < limit) db.columns
  tags : Versioned.Entities (fun row => row.objectId < limit) db.tags
  columnTags : Versioned.Entities (fun row => row.tableId < limit) db.columnTags
  partitionInfo : Versioned.Entities (fun row => row.partitionId < limit ∧ row.tableId < limit)
    db.partitionInfo
  partitionColumns : ∀ row ∈ db.partitionColumns, row.partitionId < limit
  sortInfo : Versioned.Entities (fun row => row.sortId < limit ∧ row.tableId < limit) db.sortInfo
  sortExpressions : ∀ row ∈ db.sortExpressions, row.sortId < limit

/-- No stored row begins or ends after the snapshot. -/
structure Database.Until (db : Database) (snapshot : Int) : Prop where
  schemas : Versioned.Until snapshot db.schemas
  tables : Versioned.Until snapshot db.tables
  views : Versioned.Until snapshot db.views
  macros : Versioned.Until snapshot db.macros
  columns : Versioned.Until snapshot db.columns
  tags : Versioned.Until snapshot db.tags
  columnTags : Versioned.Until snapshot db.columnTags
  partitionInfo : Versioned.Until snapshot db.partitionInfo
  sortInfo : Versioned.Until snapshot db.sortInfo
  dataFiles : Versioned.Until snapshot db.dataFiles
  deleteFiles : Versioned.Until snapshot db.deleteFiles

theorem Database.IdsBelow.mono
    {db : Database}
    {limit later : Int}
    (ids : db.IdsBelow limit)
    (grows : limit ≤ later) :
    db.IdsBelow later where
  schemas := ids.schemas.mono fun _ below => Int.lt_of_lt_of_le below grows
  tables := ids.tables.mono fun _ below => Int.lt_of_lt_of_le below grows
  views := ids.views.mono fun _ below => Int.lt_of_lt_of_le below grows
  macros := ids.macros.mono fun _ below => Int.lt_of_lt_of_le below grows
  macroImpls row member := Int.lt_of_lt_of_le (ids.macroImpls row member) grows
  macroParameters row member := Int.lt_of_lt_of_le (ids.macroParameters row member) grows
  columns := ids.columns.mono fun _ below => Int.lt_of_lt_of_le below grows
  tags := ids.tags.mono fun _ below => Int.lt_of_lt_of_le below grows
  columnTags := ids.columnTags.mono fun _ below => Int.lt_of_lt_of_le below grows
  partitionInfo := ids.partitionInfo.mono fun _ below =>
    below.imp (Int.lt_of_lt_of_le · grows) (Int.lt_of_lt_of_le · grows)
  partitionColumns row member := Int.lt_of_lt_of_le (ids.partitionColumns row member) grows
  sortInfo := ids.sortInfo.mono fun _ below =>
    below.imp (Int.lt_of_lt_of_le · grows) (Int.lt_of_lt_of_le · grows)
  sortExpressions row member := Int.lt_of_lt_of_le (ids.sortExpressions row member) grows

end Spec

/-! ## Writing rows -/

namespace Transaction

section

variable {α : Type} {holds : α → Prop} {snapshot : Int} {rows : List (Versioned α)}

theorem insertNew_entities
    (new : List α)
    (old : Versioned.Entities holds rows)
    (each : ∀ entity ∈ new, holds entity) :
    Versioned.Entities holds (insertNew snapshot rows new) :=
  old.append (.map_new snapshot new each)

theorem persistTableRenames_entities
    {holds : DucklakeTable → Prop}
    {tables : List (Versioned DucklakeTable)}
    (renames : IndexMap Int Text)
    (renamed : ∀ table name, holds table → holds { table with tableName := name })
    (old : Versioned.Entities holds tables) :
    Versioned.Entities holds (persistTableRenames snapshot renames tables) := by
  refine old.append fun row member => ?_
  obtain ⟨before, inside, copied⟩ := List.mem_filterMap.mp member
  split at copied
  · obtain ⟨name, _, rfl⟩ := Option.map_eq_some_iff.mp copied
    exact renamed _ _ (old before inside)
  · cases copied

theorem persistTags_entities
    {κ : Type}
    (selects : κ → Text → α → Bool)
    (entity : κ → Text → Text → α)
    (edits : List (κ × TagChange))
    (old : Versioned.Entities holds rows)
    (each : ∀ edit ∈ edits, ∀ value, holds (entity edit.1 edit.2.key value)) :
    Versioned.Entities holds (persistTags snapshot selects entity rows edits) := by
  induction edits generalizing rows with
  | nil => exact old
  | cons edit rest ih =>
      have inserted : Versioned.Entities holds (edit.2.value.map fun value =>
          Versioned.new snapshot (entity edit.1 edit.2.key value)).toList := by
        intro row member
        obtain ⟨value, _, rfl⟩ := Option.map_eq_some_iff.mp (Option.mem_toList.mp member)
        exact each edit (by simp) value
      exact ih ((old.retire snapshot (selects edit.1 edit.2.key)).append inserted)
        fun later inside => each later (List.mem_cons_of_mem _ inside)

end

section

variable (env : Environment) {state : CommitState} {changes : TransactionChanges}
variable {before after : Database}

theorem written_idsBelow
    (first : Int)
    (ids : before.IdsBelow first)
    (new : changes.NewIds first state.nextCatalogId)
    (owners : changes.OwnersBelow state.nextCatalogId)
    (grows : first ≤ state.nextCatalogId) :
    (written env state changes before).IdsBelow state.nextCatalogId := by
  have old := ids.mono grows
  constructor
  case schemas =>
    exact insertNew_entities _ (old.schemas.retire _ _) fun row member =>
      (new.schemas row member).2
  case tables =>
    refine insertNew_entities _ (persistTableRenames_entities _ ?_ (old.tables.retire _ _))
      fun row member => (new.tables row member).2
    exact fun _ _ below => below
  case views =>
    exact insertNew_entities _ (old.views.retire _ _) fun row member => (new.views row member).2
  case macros =>
    exact insertNew_entities _ (old.macros.retire _ _) fun row member => (new.macros row member).2
  case macroImpls =>
    exact forall_mem_append old.macroImpls fun row member => (new.macroImpls row member).2
  case macroParameters =>
    exact forall_mem_append old.macroParameters fun row member =>
      (new.macroParameters row member).2
  case columns => exact (old.columns.retire _ _).append owners.columns
  case tags =>
    simp only [written, persistStatistics]
    exact persistTags_entities _ _ _ (insertNew_entities _ (old.tags.retire _ _)
      fun row member => (new.tags row member).2) fun edit member _ =>
        owners.tableTagEdits edit member
  case columnTags =>
    simp only [written, persistStatistics]
    exact persistTags_entities _ _ _ (insertNew_entities _ (old.columnTags.retire _ _)
      owners.columnTags) fun edit member _ => owners.columnTagEdits edit member
  case partitionInfo =>
    exact (old.partitionInfo.retire _ _).append fun row member =>
      ⟨(new.partitionInfo row member).2, owners.partitionInfo row member⟩
  case partitionColumns =>
    exact forall_mem_append old.partitionColumns fun row member =>
      (new.partitionColumns row member).2
  case sortInfo =>
    exact (old.sortInfo.retire _ _).append fun row member =>
      ⟨(new.sortInfo row member).2, owners.sortInfo row member⟩
  case sortExpressions =>
    exact forall_mem_append old.sortExpressions fun row member =>
      (new.sortExpressions row member).2

theorem written_until
    (snapshot : Int)
    (bounded : before.Until snapshot)
    (older : snapshot ≤ state.snapshotId)
    (fresh : changes.FreshAt state.snapshotId) :
    (written env state changes before).Until state.snapshotId := by
  have updates := written_catalogUpdates env state changes before fresh
  constructor
  case schemas => exact bounded.schemas.updates older updates.schemas
  case tables => exact bounded.tables.updates older updates.tables
  case views => exact bounded.views.updates older updates.views
  case macros => exact bounded.macros.updates older updates.macros
  case columns => exact bounded.columns.updates older updates.columns
  case tags => exact bounded.tags.updates older updates.tags
  case columnTags => exact bounded.columnTags.updates older updates.columnTags
  case partitionInfo => exact bounded.partitionInfo.updates older updates.partitionInfo
  case sortInfo => exact bounded.sortInfo.updates older updates.sortInfo
  case dataFiles =>
    exact (bounded.dataFiles.filter _).updates older
      ((Versioned.updates_retire _ _).trans (insertNew_updates _ _))
  case deleteFiles =>
    exact (bounded.deleteFiles.filter _).updates older
      ((Versioned.updates_retire _ _).trans (insertNew_updates _ _))

theorem persistCommit_bounds
    (now : Int)
    (prepared : PreparedCommit)
    (first snapshot : Int)
    (ids : before.IdsBelow first)
    (bounded : before.Until snapshot)
    (new : prepared.changes.NewIds first prepared.state.nextCatalogId)
    (owners : prepared.changes.OwnersBelow prepared.state.nextCatalogId)
    (fresh : prepared.changes.FreshAt prepared.state.snapshotId)
    (grows : first ≤ prepared.state.nextCatalogId)
    (older : snapshot ≤ prepared.state.snapshotId)
    (success : persistCommit env now prepared before = .ok after) :
    after.IdsBelow prepared.state.nextCatalogId ∧ after.Until prepared.state.snapshotId := by
  obtain ⟨rows, persisted, _, rfl⟩ := persistCommit_eq_ok env now prepared before after success
  have same := persist_same env _ _ _ _ persisted
  unfold SameExceptInlined at same
  rw [same]
  have idsBelow := written_idsBelow env first ids new owners grows
  have until_ := written_until env snapshot bounded older fresh
  exact ⟨{ idsBelow with }, { until_ with }⟩

end

end Transaction

end Ducklake
