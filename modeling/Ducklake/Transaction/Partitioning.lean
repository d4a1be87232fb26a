import Ducklake.Transaction.TableEdits

/-!
# Partition specifications of a transaction

The last change of a table's partitioning decides whether the table is partitioned when the
transaction commits, and a specification of the transaction's own has no id until then.
-/

set_option autoImplicit false

namespace Ducklake

open Lib Caches Spec Transaction

namespace Transaction

def isPartitioned (catalog : Catalog) (ref : TableRef) : Bool :=
  (catalog.table ref).partition.isSome

/-! ## The last specification -/

/-- The specification that a change gives a table, if it changes the table's partitioning. -/
def Change.repartitions (ref : TableRef) : Change → Option (Option Partition)
  | updateTablePartitioning tableRef _ partitionColumns =>
      if tableRef = ref then some partitionColumns else none
  | _ => none

def lastPartitioning (ref : TableRef) (changes : List Change) : Option (Option Partition) :=
  (changes.filterMap (Change.repartitions ref)).getLast?

theorem lastPartitioning_append (ref : TableRef) (changes added : List Change) :
    lastPartitioning ref (changes ++ added) =
      (lastPartitioning ref added).or (lastPartitioning ref changes) := by
  rw [lastPartitioning, List.filterMap_append, List.getLast?_append]
  rfl

theorem lastPartitioning_of_forall
    (ref : TableRef)
    (changes : List Change)
    (none_ : ∀ change ∈ changes, change.repartitions ref = none) :
    lastPartitioning ref changes = none := by
  rw [lastPartitioning, List.filterMap_eq_nil_iff.mpr none_]
  rfl

theorem repartitions_of_keepsColumns
    (ref : TableRef)
    (change : Change)
    (plain : change.keepsColumns = true) :
    change.repartitions ref = none := by
  cases change <;> first | rfl | cases plain

theorem lastPartitioning_of_mem_keepLast
    (ref : TableRef)
    (refs : Option (List ColumnRef))
    (partitioning : Option Partition)
    (changes : List Change)
    (member : .updateTablePartitioning ref refs partitioning ∈ keepLast changes) :
    lastPartitioning ref changes = some partitioning := by
  have absent : ∀ rest : List Change,
      HashableChange.updateTablePartitioning ref ∉ rest.map Change.hashable →
      lastPartitioning ref rest = none := by
    intro rest missing
    refine lastPartitioning_of_forall ref rest fun change inside => ?_
    cases change with
    | updateTablePartitioning other _ _ =>
        have distinct : other ≠ ref := by
          rintro rfl
          exact missing (List.mem_map_of_mem inside)
        simp [Change.repartitions, distinct]
    | _ => rfl
  induction changes with
  | nil => cases member
  | cons change rest ih =>
      have shape : lastPartitioning ref (change :: rest) =
          (lastPartitioning ref rest).or (lastPartitioning ref [change]) :=
        lastPartitioning_append ref [change] rest
      rw [shape]
      unfold keepLast at member
      split at member
      · rw [ih member, Option.some_or]
      · rename_i last
        rcases List.mem_cons.mp member with same | later
        · subst same
          rw [absent rest last]
          simp [lastPartitioning, Change.repartitions]
        · rw [ih later, Option.some_or]

theorem mem_of_lastPartitioning
    (ref : TableRef)
    (changes : List Change)
    (partitioning : Option Partition)
    (last : lastPartitioning ref changes = some partitioning) :
    ∃ refs, .updateTablePartitioning ref refs partitioning ∈ changes := by
  obtain ⟨change, member, specified⟩ := List.mem_filterMap.mp (List.mem_of_getLast? last)
  cases change with
  | updateTablePartitioning other refs columns =>
      simp only [Change.repartitions] at specified
      split at specified
      · rename_i same
        cases same
        cases specified
        exact ⟨refs, member⟩
      · cases specified
  | _ => cases specified

/-! ## What the catalog of a transaction knows -/

/-- A table is partitioned according to the last change of its partitioning. -/
def PartitionsFollow (tx : Transaction) : Prop :=
  ∀ ref partitioning, lastPartitioning ref tx.changes = some partitioning →
    isPartitioned tx.catalog ref = partitioning.isSome

theorem isSome_traverseOption
    {α β : Type}
    (f : α → DucklakeResult β)
    (input : Option α)
    (result : Option β)
    (success : Catalog.traverseOption f input = .ok result) :
    result.isSome = input.isSome := by
  cases input with
  | none =>
      cases success
      rfl
  | some value =>
      obtain ⟨output, _, rfl⟩ := map_eq_ok.mp success
      rfl

section

variable {env : Environment} {db : Database} {stats : DucklakeResult TableStatsMap}
variable {method : Operation}

theorem Sound.has_repartitioned
    {tx : Transaction}
    (sound : tx.Sound)
    (ref : TableRef)
    (partitioning : Option Partition)
    (last : lastPartitioning ref tx.changes = some partitioning) :
    tx.catalog.Has (.table ref) := by
  obtain ⟨refs, member⟩ := mem_of_lastPartitioning ref tx.changes partitioning last
  exact (sound.recorded _ member).present (.table ref)
    (by simp [Change.objects, Change.affectedTableRef])

theorem PartitionsFollow.edit
    (tx : Transaction)
    (changes : List Change)
    (catalog : Catalog)
    (sound : tx.Sound)
    (follow : tx.PartitionsFollow)
    (edit : Edit env db stats method tx.catalog changes catalog) :
    { tx with catalog := catalog, changes := tx.changes ++ changes }.PartitionsFollow := by
  intro ref partitioning last
  rw [lastPartitioning_append] at last
  dsimp only
  have unspecified : (∀ change ∈ changes, change.repartitions ref = none) →
      lastPartitioning ref tx.changes = some partitioning := by
    intro none_
    rwa [lastPartitioning_of_forall ref changes none_, Option.none_or] at last
  cases edit.tables sound.catalog with
  | same arena plain =>
      have before := follow ref partitioning (unspecified fun change member =>
        repartitions_of_keepsColumns ref change (plain change member))
      rw [isPartitioned, Catalog.table, arena]
      exact before
  | created typed built specified arena recorded =>
      have lastBefore := unspecified (by
        rw [recorded, List.forall_mem_singleton]
        rfl)
      rw [isPartitioned, Catalog.table, arena, Arena.get_push_of_lt _ _ _ _
        (sound.has_repartitioned ref partitioning lastBefore)]
      exact follow ref partitioning lastBefore
  | @updated other update present arena updates =>
      have table : ∀ (keeps : ref = other → (update (tx.catalog.table other)).partition =
          (tx.catalog.table other).partition),
          isPartitioned catalog ref = isPartitioned tx.catalog ref := by
        intro keeps
        rw [isPartitioned, Catalog.table, arena]
        by_cases same : ref = other
        · subst same
          rw [Arena.get_modify_self _ _ _ present]
          exact congrArg Option.isSome (keeps rfl)
        · rw [Arena.get_modify_of_ne _ _ _ _ fun index => same (by cases ref; cases other; cases index; rfl)]
          rfl
      generalize after : update (tx.catalog.table other) = updatedTable at updates table
      cases updates with
      | described plain id columns partition =>
          rw [table fun _ => partition]
          refine follow ref partitioning (unspecified ?_)
          rw [List.forall_mem_singleton]
          exact repartitions_of_keepsColumns ref _ plain
      | @partitioned specification partition built =>
          by_cases same : other = ref
          · subst same
            have decided : lastPartitioning other [Change.updateTablePartitioning other
                (partition.map fun partition => partition.columns.map fun column =>
                  ColumnRef.mk other column.column) specification] = some specification := by
              simp [lastPartitioning, Change.repartitions]
            rw [decided, Option.some_or] at last
            rw [isPartitioned, Catalog.table, arena, Arena.get_modify_self _ _ _ present,
              ← Option.some.inj last, ← isSome_traverseOption _ _ _ built]
            exact congrArg (fun table => Option.isSome (CatalogTable.partition table)) after
          · rw [table fun impossible => absurd impossible.symm same]
            refine follow ref partitioning (unspecified ?_)
            rw [List.forall_mem_singleton]
            simp [Change.repartitions, same]
      | counted | addedColumn | renamedColumn | modifiedColumn =>
          rw [table fun _ => rfl]
          exact follow ref partitioning (unspecified (by simp [Change.repartitions]))
      | removedColumn =>
          rw [table fun _ => rfl]
          refine follow ref partitioning (unspecified fun change member => ?_)
          obtain ⟨_, _, rfl⟩ := List.mem_map.mp member
          rfl
      | @taggedColumn change _ _ _ _ edits =>
          rw [table fun _ => rfl]
          refine follow ref partitioning (unspecified ?_)
          rw [List.forall_mem_singleton]
          cases change <;> first | rfl | cases edits

/-! ## Specifications without an id -/

/-- The specifications that the transaction writes have no id yet. -/
def PartitionsPending (tx : Transaction) : Prop :=
  ∀ change ∈ tx.changes, ∀ ref refs partition,
    change.partitions = some (ref, refs, partition) → tx.catalog.partitionId ref = none

theorem partitions_of_keepsColumns
    (change : Change)
    (plain : change.keepsColumns = true) :
    change.partitions = none := by
  cases change <;> first | rfl | cases plain

theorem partitions_of_columnTagEdit
    (change : Change)
    (edit : ColumnRef × TagChange)
    (edits : change.columnTagEdit = some edit) :
    change.partitions = none := by
  cases change <;> first | rfl | cases edits

theorem Change.affectedTableRef_of_partitions
    (change : Change)
    (ref : TableRef)
    (refs : List ColumnRef)
    (partition : Partition)
    (specified : change.partitions = some (ref, refs, partition)) :
    change.affectedTableRef = some ref := by
  unfold Change.partitions at specified
  split at specified
  · cases specified
    rfl
  · cases specified
    rfl
  · cases specified

theorem partitionId_of_edit
    {before after : Catalog}
    {changes : List Change}
    (sound : before.WellFormed)
    (edit : Edit env db stats method before changes after) :
    ∀ change ∈ changes, ∀ ref refs partition,
      change.partitions = some (ref, refs, partition) → after.partitionId ref = none := by
  intro change member ref refs specification specified
  have none_ : change.keepsColumns = true → False := fun plain => by
    rw [partitions_of_keepsColumns change plain] at specified
    cases specified
  have affected := change.affectedTableRef_of_partitions ref refs specification specified
  cases edit.tables sound with
  | same arena plain => exact (none_ (plain change member)).elim
  | created typed built partitioned arena recorded =>
      rw [recorded, List.mem_singleton] at member
      subst member
      obtain rfl := Option.some.inj affected
      rw [Catalog.partitionId, Catalog.table, arena, Arena.get_push_length]
      exact Catalog.partition_pending _ _ _ partitioned
  | @updated other update present arena updates =>
      generalize after : update (before.table other) = updatedTable at updates
      cases updates with
      | described plain =>
          rw [List.mem_singleton.mp member] at none_
          exact (none_ plain).elim
      | @partitioned specification partition built =>
          rw [List.mem_singleton.mp member] at affected
          obtain rfl := Option.some.inj affected
          have pending := Catalog.partition_pending _ _ _ built
          rw [Catalog.partitionId, Catalog.table, arena, Arena.get_modify_self _ _ _ present]
          exact (congrArg (fun table => (CatalogTable.partition table).bind
            CatalogTablePartition.id) after).trans pending
      | counted => cases member
      | addedColumn | renamedColumn | modifiedColumn =>
          rw [List.mem_singleton.mp member] at specified
          cases specified
      | removedColumn =>
          obtain ⟨_, _, rfl⟩ := List.mem_map.mp member
          cases specified
      | taggedColumn edits =>
          rw [List.mem_singleton.mp member] at specified
          rw [partitions_of_columnTagEdit _ _ edits] at specified
          cases specified

theorem PartitionsPending.edit
    (tx : Transaction)
    (changes : List Change)
    (catalog : Catalog)
    (sound : tx.Sound)
    (pending : tx.PartitionsPending)
    (edit : Edit env db stats method tx.catalog changes catalog) :
    { tx with catalog := catalog, changes := tx.changes ++ changes }.PartitionsPending := by
  intro change member ref refs partition specified
  rcases List.mem_append.mp member with old | new
  · have before := pending change old ref refs partition specified
    cases after : catalog.partitionId ref with
    | none => rfl
    | some id =>
        have kept := edit.grows.partitionId ref id after
        rw [before] at kept
        cases kept
  · exact partitionId_of_edit sound.catalog edit change new ref refs partition specified

end

end Transaction

end Ducklake
