import Ducklake.Transaction.Frames
import Ducklake.Transaction.Partitioning

/-!
# The ids of collected rows

The rows of new objects carry ids that the attempt gave out, and every row mentions only ids
below the counter of the attempt.
-/

set_option autoImplicit false

namespace Ducklake.Transaction

open Lib Caches Spec CommitState

/-- An id that was given out while the counter went from the first value to the limit. -/
def Given (first limit id : Int) : Prop :=
  first ≤ id ∧ id < limit

theorem Given.mono
    {first limit later id : Int}
    (given : Given first limit id)
    (grows : limit ≤ later) :
    Given first later id :=
  ⟨given.1, by have := given.2; omega⟩

/-! ## Ids of new objects -/

/-- The ids of all new objects were given out by the attempt. -/
structure TransactionChanges.NewIds (rows : TransactionChanges) (first limit : Int) : Prop where
  schemas : ∀ row ∈ rows.newSchemas, Given first limit row.schemaId
  tables : ∀ row ∈ rows.newTables, Given first limit row.tableId
  views : ∀ row ∈ rows.newViews, Given first limit row.viewId
  macros : ∀ row ∈ rows.newMacros, Given first limit row.macroId
  macroImpls : ∀ row ∈ rows.newMacroImpls, Given first limit row.macroId
  macroParameters : ∀ row ∈ rows.newMacroParameters, Given first limit row.macroId
  partitionInfo : Versioned.Entities (Given first limit ∘ DucklakePartitionInfo.partitionId)
    rows.newPartitionInfo
  partitionColumns : ∀ row ∈ rows.newPartitionColumns, Given first limit row.partitionId
  sortInfo : Versioned.Entities (Given first limit ∘ DucklakeSortInfo.sortId) rows.newSortInfo
  sortExpressions : ∀ row ∈ rows.newSortExpressions, Given first limit row.sortId
  tags : ∀ row ∈ rows.newTags, Given first limit row.objectId

theorem TransactionChanges.NewIds.mono
    {rows : TransactionChanges}
    {first limit later : Int}
    (ids : rows.NewIds first limit)
    (grows : limit ≤ later) :
    rows.NewIds first later where
  schemas row member := (ids.schemas row member).mono grows
  tables row member := (ids.tables row member).mono grows
  views row member := (ids.views row member).mono grows
  macros row member := (ids.macros row member).mono grows
  macroImpls row member := (ids.macroImpls row member).mono grows
  macroParameters row member := (ids.macroParameters row member).mono grows
  partitionInfo row member := (ids.partitionInfo row member).mono grows
  partitionColumns row member := (ids.partitionColumns row member).mono grows
  sortInfo row member := (ids.sortInfo row member).mono grows
  sortExpressions row member := (ids.sortExpressions row member).mono grows
  tags row member := (ids.tags row member).mono grows

theorem TransactionChanges.NewIds.of_same
    {rows next : TransactionChanges}
    {first limit : Int}
    (ids : rows.NewIds first limit)
    (same : SameExceptData rows next) :
    next.NewIds first limit := by
  rw [same]
  exact { ids with }

theorem newIds_empty (first limit : Int) : TransactionChanges.empty.NewIds first limit := by
  constructor <;> simp [TransactionChanges.empty, Versioned.Entities.nil]

theorem forall_mem_append
    {α : Type}
    {holds : α → Prop}
    {rows added : List α}
    (old : ∀ row ∈ rows, holds row)
    (new : ∀ row ∈ added, holds row) :
    ∀ row ∈ rows ++ added, holds row := by
  intro row member
  rcases List.mem_append.mp member with inside | inside
  · exact old row inside
  · exact new row inside

theorem endPending_entities
    {α : Type}
    {holds : α → Prop}
    {rows : List (Versioned α)}
    (snapshot : Int)
    (selects : α → Bool)
    (old : Versioned.Entities holds rows) :
    Versioned.Entities holds (Executors.endPending snapshot selects rows) := by
  intro row member
  obtain ⟨before, inside, rfl⟩ := List.mem_map.mp member
  split <;> exact old before inside

theorem macroImplRows_macroId
    (macroId : Int)
    (macroType : MacroType)
    (implementations : List MacroImplementation) :
    ∀ row ∈ Executors.macroImplRows macroId macroType implementations, row.macroId = macroId := by
  intro row member
  obtain ⟨entry, _, rfl⟩ := List.mem_map.mp member
  rfl

theorem macroParameterRows_macroId
    (macroId : Int)
    (implementations : List MacroImplementation) :
    ∀ row ∈ Executors.macroParameterRows macroId implementations, row.macroId = macroId := by
  intro row member
  obtain ⟨implementation, _, inside⟩ := List.mem_flatMap.mp member
  obtain ⟨entry, _, rfl⟩ := List.mem_map.mp inside
  rfl

theorem objectTagRows_objectId
    (objectId : Int)
    (tags : Tags) :
    ∀ row ∈ Executors.objectTagRows objectId tags, row.objectId = objectId := by
  intro row member
  obtain ⟨entry, _, rfl⟩ := List.mem_map.mp member
  rfl

/-- What the start of an attempt must know of its changes: created objects and written
specifications have no id yet. -/
structure Unresolved (changes : List Change) (start : CommitState) : Prop where
  created : ∀ change ∈ changes, ∀ key, change.created = some key →
    start.catalog.idOf key = none
  partitions : ∀ change ∈ changes, ∀ ref refs partition,
    change.partitions = some (ref, refs, partition) → start.catalog.idOf (.partition ref) = none

section

variable {env : Environment} {changes : List Change} {start : CommitState}
variable {before after : TransactionChanges × CommitState}

/-- An object without an id at the start got one that the attempt gave out. -/
theorem given_of_unresolved
    (state : CommitState)
    (extends_ : start.Extends state)
    (key : ObjectRef)
    (id : Int)
    (missing : start.catalog.idOf key = none)
    (found : state.catalog.idOf key = some id) :
    Given start.nextCatalogId state.nextCatalogId id := by
  rcases extends_.fresh key id found with old | new
  · rw [missing] at old
    cases old
  · exact new

theorem Collects.newIds
    (unresolved : Unresolved changes start)
    (extends_ : start.Extends before.2)
    (ids : before.1.NewIds start.nextCatalogId before.2.nextCatalogId)
    (step : Collects env changes before after) :
    after.1.NewIds start.nextCatalogId after.2.nextCatalogId := by
  have grown := ids.mono step.extends.nextCatalogId
  have given : ∀ {change : Change} {key : ObjectRef} {id : Int}, change ∈ changes →
      change.created = some key → before.2.catalog.idOf key = some id →
      Given start.nextCatalogId after.2.nextCatalogId id := fun member made found =>
    (given_of_unresolved _ extends_ _ _ (unresolved.created _ member _ made) found).mono
      step.extends.nextCatalogId
  cases step with
  | createdSchema member found =>
      refine { grown with schemas := forall_mem_append grown.schemas ?_ }
      rw [List.forall_mem_singleton]
      exact given member rfl found
  | createdView member found located =>
      refine { grown with
        views := forall_mem_append grown.views ?_
        tags := forall_mem_append grown.tags fun row inside => ?_ }
      · rw [List.forall_mem_singleton]
        exact given member rfl found
      · rw [objectTagRows_objectId _ _ row inside]
        exact given member rfl found
  | createdMacro member found located =>
      refine { grown with
        macros := forall_mem_append grown.macros ?_
        macroImpls := forall_mem_append grown.macroImpls fun row inside => ?_
        macroParameters := forall_mem_append grown.macroParameters fun row inside => ?_ }
      · rw [List.forall_mem_singleton]
        exact given member rfl found
      · rw [macroImplRows_macroId _ _ _ row inside]
        exact given member rfl found
      · rw [macroParameterRows_macroId _ _ row inside]
        exact given member rfl found
  | createdTable member found located success =>
      refine { grown with tables := forall_mem_append grown.tables ?_ }
      rw [List.forall_mem_singleton]
      exact given member rfl found
  | tagged member found =>
      refine { grown with tags := forall_mem_append grown.tags fun row inside => ?_ }
      rw [objectTagRows_objectId _ _ row inside]
      exact given member rfl found
  | partitioned member specified found foundPartition =>
      have givenPartition := given_of_unresolved _ extends_ _ _
        (unresolved.partitions _ member _ _ _ specified) foundPartition
      refine { grown with
        partitionInfo := grown.partitionInfo.append (.singleton givenPartition)
        partitionColumns := forall_mem_append grown.partitionColumns fun row inside => ?_ }
      obtain ⟨entry, _, rfl⟩ := List.mem_map.mp inside
      exact givenPartition
  | @sorted rows state change tableRef expressions tableId member specified found =>
      have taken : Given start.nextCatalogId (state.nextCatalogId + 1) state.nextCatalogId :=
        ⟨extends_.nextCatalogId, by omega⟩
      refine { grown with
        sortInfo := grown.sortInfo.append (.singleton taken)
        sortExpressions := forall_mem_append grown.sortExpressions fun row inside => ?_ }
      obtain ⟨entry, _, rfl⟩ := List.mem_map.mp inside
      exact taken
  | renamedPending member found pending =>
      refine { grown with tables := fun row inside => ?_ }
      obtain ⟨old, oldMember, rfl⟩ := List.mem_map.mp inside
      split <;> exact grown.tables old oldMember
  | retiredPartitioning =>
      refine { grown with partitionInfo := ?_ }
      dsimp only
      exact endPending_entities _ _ grown.partitionInfo
  | retiredSortInfo =>
      refine { grown with sortInfo := ?_ }
      dsimp only
      exact endPending_entities _ _ grown.sortInfo
  | wroteFile member inside found success =>
      exact grown.of_same (addDataFile_same env _ _ _ _ _ success)
  | inlined => exact grown.of_same (createInlinedTable_same env _ _)
  | _ => exact { grown with }

theorem Collected.newIds
    (unresolved : Unresolved changes start)
    (steps : Collected env changes (.empty, start) after) :
    after.1.NewIds start.nextCatalogId after.2.nextCatalogId := by
  induction steps with
  | refl => exact newIds_empty _ _
  | tail earlier step ih => exact step.newIds unresolved (Collected.extends earlier) ih

end

/-! ## Ids that rows mention -/

/-- The tables and objects that rows belong to have ids below the limit. -/
structure TransactionChanges.OwnersBelow (rows : TransactionChanges) (limit : Int) : Prop where
  columns : Versioned.Entities (fun column => column.tableId < limit) rows.newColumns
  columnTags : ∀ row ∈ rows.newColumnTags, row.tableId < limit
  partitionInfo : Versioned.Entities (fun info => info.tableId < limit) rows.newPartitionInfo
  sortInfo : Versioned.Entities (fun info => info.tableId < limit) rows.newSortInfo
  tableTagEdits : ∀ edit ∈ rows.tableTags, edit.1 < limit
  columnTagEdits : ∀ edit ∈ rows.columnTags, edit.1.1 < limit

theorem TransactionChanges.OwnersBelow.mono
    {rows : TransactionChanges}
    {limit later : Int}
    (owners : rows.OwnersBelow limit)
    (grows : limit ≤ later) :
    rows.OwnersBelow later where
  columns row member := Int.lt_of_lt_of_le (owners.columns row member) grows
  columnTags row member := Int.lt_of_lt_of_le (owners.columnTags row member) grows
  partitionInfo row member := Int.lt_of_lt_of_le (owners.partitionInfo row member) grows
  sortInfo row member := Int.lt_of_lt_of_le (owners.sortInfo row member) grows
  tableTagEdits edit member := Int.lt_of_lt_of_le (owners.tableTagEdits edit member) grows
  columnTagEdits edit member := Int.lt_of_lt_of_le (owners.columnTagEdits edit member) grows

theorem TransactionChanges.OwnersBelow.of_same
    {rows next : TransactionChanges}
    {limit : Int}
    (owners : rows.OwnersBelow limit)
    (same : SameExceptData rows next) :
    next.OwnersBelow limit := by
  rw [same]
  exact { owners with }

theorem ownersBelow_empty (limit : Int) : TransactionChanges.empty.OwnersBelow limit := by
  constructor <;> simp [TransactionChanges.empty, Versioned.Entities.nil]

theorem columnRows_tableId
    (env : Environment)
    (state : CommitState)
    (tableId : Int)
    (parent : Option ColumnRef)
    (refs : List ColumnRef)
    (column : Column)
    (rows : List DucklakeColumn × List DucklakeColumnTag)
    (success : Executors.columnRows env state tableId parent refs column = .ok rows) :
    (∀ row ∈ rows.1, row.tableId = tableId) ∧ ∀ row ∈ rows.2, row.tableId = tableId := by
  unfold Executors.columnRows at success
  dsimp only at success
  split at success
  · cases success
  · obtain rfl := Except.ok.inj success
    constructor
    · intro row member
      obtain ⟨entry, _, rfl⟩ := List.mem_map.mp member
      rfl
    · intro row member
      obtain ⟨entry, _, inside⟩ := List.mem_flatMap.mp member
      obtain ⟨tag, _, rfl⟩ := List.mem_map.mp inside
      rfl

theorem tableColumnRows_tableId
    (env : Environment)
    (state : CommitState)
    (tableId : Int)
    (columns : List (Column × List ColumnRef))
    (built : List (List DucklakeColumn × List DucklakeColumnTag))
    (success : Executors.tableColumnRows env state tableId columns = .ok built) :
    (∀ row ∈ built.flatMap Prod.fst, row.tableId = tableId) ∧
      ∀ row ∈ built.flatMap Prod.snd, row.tableId = tableId := by
  have each : ∀ rows ∈ built, (∀ row ∈ rows.1, row.tableId = tableId) ∧
      ∀ row ∈ rows.2, row.tableId = tableId := by
    intro rows member
    obtain ⟨index, inside, rfl⟩ := List.mem_iff_getElem.mp member
    have pairs := mapM_eq_ok.mp success
    have entry := List.forall₂_iff_get.mp pairs
    exact columnRows_tableId env state tableId none _ _ _ (entry.2 index (by rw [entry.1]; exact inside) inside)
  constructor
  · intro row member
    obtain ⟨rows, inside, own⟩ := List.mem_flatMap.mp member
    exact (each rows inside).1 row own
  · intro row member
    obtain ⟨rows, inside, own⟩ := List.mem_flatMap.mp member
    exact (each rows inside).2 row own

section

variable {env : Environment} {changes : List Change}
variable {before after : TransactionChanges × CommitState}

theorem Collects.ownersBelow
    (bounded : ∀ ref id, before.2.catalog.idOf (.table ref) = some id →
      id < before.2.nextCatalogId)
    (owners : before.1.OwnersBelow before.2.nextCatalogId)
    (step : Collects env changes before after) :
    after.1.OwnersBelow after.2.nextCatalogId := by
  have grown := owners.mono step.extends.nextCatalogId
  cases step with
  | createdTable member found located success =>
      have below := bounded _ _ found
      obtain ⟨rows, tags⟩ := tableColumnRows_tableId env _ _ _ _ success
      refine { grown with
        columns := (grown.columns.append
          (.map_new _ _ fun row inside => ?_)).append fun row inside => ?_
        columnTags := forall_mem_append grown.columnTags fun row inside => ?_ }
      · rw [rows row inside]
        exact below
      · obtain ⟨column, _, rfl⟩ := List.mem_map.mp inside
        exact below
      · rw [tags row inside]
        exact below
  | partitioned member specified found =>
      exact { grown with
        partitionInfo := grown.partitionInfo.append (.singleton (bounded _ _ found)) }
  | @sorted rows state change tableRef expressions tableId member specified found =>
      refine { grown with sortInfo := grown.sortInfo.append (.singleton ?_) }
      exact Int.lt_of_lt_of_le (bounded _ _ found) (catalogId_extends state).nextCatalogId
  | retiredPartitioning =>
      refine { grown with partitionInfo := ?_ }
      dsimp only
      exact endPending_entities _ _ grown.partitionInfo
  | retiredSortInfo =>
      refine { grown with sortInfo := ?_ }
      dsimp only
      exact endPending_entities _ _ grown.sortInfo
  | editedTableTag member specified found =>
      refine { grown with tableTagEdits := forall_mem_append grown.tableTagEdits ?_ }
      rw [List.forall_mem_singleton]
      exact bounded _ _ found
  | editedColumnTag member specified found =>
      refine { grown with columnTagEdits := forall_mem_append grown.columnTagEdits ?_ }
      rw [List.forall_mem_singleton]
      exact bounded _ _ found
  | addedColumn member found success =>
      have below := bounded _ _ found
      obtain ⟨rows, tags⟩ := columnRows_tableId env _ _ _ _ _ _ success
      refine { grown with
        columns := grown.columns.append (.map_new _ _ fun row inside => ?_)
        columnTags := forall_mem_append grown.columnTags fun row inside => ?_ }
      · rw [rows row inside]
        exact below
      · rw [tags row inside]
        exact below
  | updatedColumn member found success =>
      have below := bounded _ _ found
      obtain ⟨rows, _⟩ := columnRows_tableId env _ _ _ _ _ _ success
      refine { grown with
        columns := (grown.columns.filter _).append (.map_new _ _ fun row inside => ?_) }
      rw [rows row inside]
      exact below
  | removedColumn =>
      refine { grown with columns := ?_ }
      dsimp only
      exact endPending_entities _ _ grown.columns
  | wroteFile member inside found success =>
      exact grown.of_same (addDataFile_same env _ _ _ _ _ success)
  | inlined => exact grown.of_same (createInlinedTable_same env _ _)
  | _ => exact { grown with }

theorem Extends.bounded
    {start state : CommitState}
    (extends_ : start.Extends state)
    (bounded : ∀ key id, start.catalog.idOf key = some id → id < start.nextCatalogId)
    (key : ObjectRef)
    (id : Int)
    (found : state.catalog.idOf key = some id) :
    id < state.nextCatalogId := by
  rcases extends_.fresh key id found with old | new
  · exact Int.lt_of_lt_of_le (bounded key id old) extends_.nextCatalogId
  · exact new.2

theorem Collected.ownersBelow
    {start : CommitState}
    (bounded : ∀ key id, start.catalog.idOf key = some id → id < start.nextCatalogId)
    (steps : Collected env changes (.empty, start) after) :
    after.1.OwnersBelow after.2.nextCatalogId := by
  induction steps with
  | refl => exact ownersBelow_empty _
  | tail earlier step ih =>
      exact step.ownersBelow
        (fun ref => Extends.bounded (Collected.extends earlier) bounded (.table ref)) ih

end

/-! ## Prepared commits -/

/-- The changes of a transaction have not resolved their new objects when an attempt starts. -/
theorem unresolved_new
    (tx : Transaction)
    (base : SnapshotInfo)
    (stats : TableStatsMap)
    (sound : tx.Sound)
    (pending : tx.PartitionsPending) :
    Unresolved (ChangeSet.new tx.changes).changes
      (.new base tx.catalog (ChangeSet.new tx.changes).changesSchema stats) where
  created change member key made :=
    sound.idOf_created change (ChangeSet.mem_of_mem_new _ change member) key made
  partitions change member ref refs partition specified :=
    pending change (ChangeSet.mem_of_mem_new _ change member) ref refs partition specified

section

variable (env : Environment) (set : ChangeSet) (state : CommitState) (prepared : PreparedCommit)

theorem prepareCommit_newIds
    (present : ∀ change ∈ set.changes, ∀ key ∈ change.objects, state.catalog.Has key)
    (unresolved : Unresolved set.changes state)
    (success : prepareCommit env set state = .ok prepared) :
    prepared.changes.NewIds state.nextCatalogId prepared.state.nextCatalogId := by
  obtain ⟨applied, executed, _, later⟩ := prepareCommit_eq_ok env set state prepared success
  have collected := set.apply_collected env state _ present executed
  exact (collected.newIds unresolved).mono
    ((set.appliedChangeSet_extends applied).trans later).nextCatalogId

theorem prepareCommit_ownersBelow
    (present : ∀ change ∈ set.changes, ∀ key ∈ change.objects, state.catalog.Has key)
    (bounded : ∀ key id, state.catalog.idOf key = some id → id < state.nextCatalogId)
    (success : prepareCommit env set state = .ok prepared) :
    prepared.changes.OwnersBelow prepared.state.nextCatalogId := by
  obtain ⟨applied, executed, _, later⟩ := prepareCommit_eq_ok env set state prepared success
  have collected := set.apply_collected env state _ present executed
  exact (collected.ownersBelow bounded).mono
    ((set.appliedChangeSet_extends applied).trans later).nextCatalogId

end

end Ducklake.Transaction
