import Ducklake.Transaction.Renewals

/-!
# The ids of the objects of an attempt

When an attempt is prepared every object of its changes has an id, the ids of the objects that it
created were given out by the attempt, and no two objects that it mentions share one.
-/

set_option autoImplicit false

namespace Ducklake.Transaction

open Lib Caches Spec CommitState

/-! ## Objects that are resolved -/

section

variable {env : Environment} {before after : TransactionChanges × CommitState}

theorem resolved_of_extends
    (state later : CommitState)
    (key : ObjectRef)
    (present : state.catalog.Has key)
    (extends_ : (state.objectId key).2.Extends later) :
    ∃ id, later.catalog.idOf key = some id :=
  ⟨_, extends_.kept key _ (idOf_objectId state key present)⟩

theorem resolved_two
    (state later : CommitState)
    (first second : ObjectRef)
    (present : ∀ key ∈ [first, second], state.catalog.Has key)
    (extends_ : ((state.objectId first).2.objectId second).2.Extends later) :
    ∀ key ∈ [first, second], ∃ id, later.catalog.idOf key = some id := by
  have presentFirst := present first (by simp)
  have presentSecond := ((objectId_extends state first).has second).mpr (present second (by simp))
  rw [List.forall_mem_cons, List.forall_mem_singleton]
  exact ⟨resolved_of_extends state later first presentFirst
      ((objectId_extends _ second).trans extends_),
    resolved_of_extends _ later second presentSecond extends_⟩

theorem Change.apply_resolves
    (change : Change)
    (present : ∀ key ∈ change.objects, before.2.catalog.Has key)
    (success : change.apply env before = .ok after) :
    ∀ key ∈ change.objects, ∃ id, after.2.catalog.idOf key = some id := by
  have single : ∀ key, change.objects = [key] → (before.2.objectId key).2.Extends after.2 →
      ∀ other ∈ change.objects, ∃ id, after.2.catalog.idOf other = some id := by
    intro key own extends_
    rw [own, List.forall_mem_singleton]
    exact resolved_of_extends before.2 after.2 key (present key (by simp [own])) extends_
  cases change with
  | createSchema schemaRef | deleteSchema schemaRef =>
      obtain rfl := Except.ok.inj success
      exact single (.schema schemaRef) rfl (.refl _)
  | deleteView viewRef =>
      obtain rfl := Except.ok.inj success
      exact single (.view viewRef) rfl (.refl _)
  | deleteMacro macroRef =>
      obtain rfl := Except.ok.inj success
      exact single (.macro_ macroRef) rfl (.refl _)
  | createTable schemaRef tableRef =>
      obtain ⟨_, _, success⟩ := bind_eq_ok.mp success
      obtain ⟨partitioned, partitions, success⟩ := bind_eq_ok.mp success
      obtain rfl := Except.ok.inj success
      exact resolved_two before.2 _ (.table tableRef) (.schema schemaRef) present
        ((Executors.createPartitioningOpt_extends _ _ _ _ _ _ _ partitions).trans
          (Executors.createSortInfoOpt_extends _ _ _ _))
  | createView schemaRef viewRef =>
      obtain rfl := Except.ok.inj success
      exact resolved_two before.2 _ (.view viewRef) (.schema schemaRef) present (.refl _)
  | createMacro schemaRef macroRef =>
      obtain rfl := Except.ok.inj success
      exact resolved_two before.2 _ (.macro_ macroRef) (.schema schemaRef) present (.refl _)
  | writeTableDataFiles tableRef dataFiles =>
      obtain ⟨written, files, success⟩ := bind_eq_ok.mp success
      obtain rfl := Except.ok.inj success
      refine single (.table tableRef) rfl ?_
      exact foldlM_invariant (fun collected =>
          (before.2.objectId (.table tableRef)).2.Extends collected.2) (.refl _)
        (fun collected file next _ extends_ stepped =>
          extends_.trans (Executors.addDataFile_extends env _ _ collected file next stepped)) files
  | writeTableInlineData tableRef data =>
      obtain rfl := Except.ok.inj success
      exact single (.table tableRef) rfl
        (foldl_extends _ (Executors.addInlineBatch_extends _) data (before.1, _))
  | renameTable tableRef name =>
      obtain rfl := Except.ok.inj success
      refine single (.table tableRef) rfl ?_
      unfold Executors.renameTable
      dsimp only
      split <;> exact .refl _
  | updateTablePartitioning tableRef refs partition =>
      exact single (.table tableRef) rfl
        (Executors.createPartitioningOpt_extends _ _ _ _ _ _ _ success)
  | updateTableSortInfo tableRef expressions =>
      obtain rfl := Except.ok.inj success
      exact single (.table tableRef) rfl (Executors.createSortInfoOpt_extends _ _ _ _)
  | deleteTable tableRef | addTableTag tableRef | removeTableTag tableRef =>
      obtain rfl := Except.ok.inj success
      exact single (.table tableRef) rfl (.refl _)
  | addTableColumnTag columnRef | removeTableColumnTag columnRef | removeTableColumn columnRef =>
      obtain rfl := Except.ok.inj success
      exact single (.table columnRef.tableRef) rfl (.refl _)
  | updateTableColumn parent columnRef column =>
      obtain ⟨_, _, success⟩ := bind_eq_ok.mp success
      obtain rfl := Except.ok.inj success
      exact single (.table columnRef.tableRef) rfl (.refl _)
  | addTableColumn parent columnRefs column =>
      cases columnRefs with
      | nil => cases success
      | cons first rest =>
          obtain ⟨_, _, _, rfl⟩ :=
            Executors.addTableColumn_eq_ok env before.1 before.2 parent first rest column after success
          exact single (.table first.tableRef) rfl (.refl _)

theorem prepareCommit_resolves
    (set : ChangeSet)
    (state : CommitState)
    (prepared : PreparedCommit)
    (present : ∀ change ∈ set.changes, ∀ key ∈ change.objects, state.catalog.Has key)
    (success : prepareCommit env set state = .ok prepared) :
    ∀ change ∈ set.changes, ∀ key ∈ change.objects,
      ∃ id, prepared.state.catalog.idOf key = some id := by
  obtain ⟨applied, executed, _, last⟩ := prepareCommit_eq_ok env set state prepared success
  obtain ⟨collected, _, resolved, _, extends_⟩ := set.apply_run env state _
    (fun done collected => ∀ change ∈ done, ∀ key ∈ change.objects,
      ∃ id, collected.2.catalog.idOf key = some id)
    present (by simp)
    (fun done change rest before after split extends_ resolved applies _ => by
      have member : change ∈ set.changes := by simp [split]
      refine List.forall_mem_append.mpr ⟨fun other listed key object => ?_, ?_⟩
      · obtain ⟨id, found⟩ := resolved other listed key object
        exact ⟨id, (change.apply_extends env before after applies).kept key id found⟩
      · rw [List.forall_mem_singleton]
        exact change.apply_resolves
          (fun key object => (extends_.has key).mpr (present change member key object)) applies)
    executed
  intro change member key object
  obtain ⟨id, found⟩ := resolved change member key object
  exact ⟨id, ((extends_.trans (set.appliedChangeSet_extends applied)).trans last).kept key id found⟩

end

/-! ## Ids of objects -/

structure Attempted (start final : CommitState) (changes : List Change) : Prop where
  extends_ : start.Extends final
  bounded : ∀ key id, start.catalog.idOf key = some id → id < start.nextCatalogId
  unresolved : ∀ change ∈ changes, ∀ key, change.created = some key →
    start.catalog.idOf key = none
  resolved : ∀ change ∈ changes, ∀ key ∈ change.objects, ∃ id, final.catalog.idOf key = some id
  /-- An object is created before it is used. -/
  order : changes.Pairwise fun earlier later => ∀ key, later.created = some key →
    key ∉ earlier.objects

namespace Attempted

variable {start final : CommitState} {changes : List Change}

/-- An object that was known at the start has an id below the counter, any other one above. -/
theorem knownId_of_mem
    (attempted : Attempted start final changes)
    (change : Change)
    (member : change ∈ changes)
    (key : ObjectRef)
    (object : key ∈ change.objects) :
    final.catalog.idOf key = some (final.knownId key) ∧
      (start.catalog.idOf key = some (final.knownId key) ∨
        start.catalog.idOf key = none ∧ start.nextCatalogId ≤ final.knownId key) := by
  obtain ⟨id, found⟩ := attempted.resolved change member key object
  have same := final.knownId_of_some key id found
  rw [same]
  refine ⟨found, ?_⟩
  cases known : start.catalog.idOf key with
  | some old =>
      have kept := attempted.extends_.kept key old known
      rw [found] at kept
      exact Or.inl kept.symm
  | none =>
      rcases attempted.extends_.fresh key id found with old | given
      · rw [known] at old
        cases old
      · exact Or.inr ⟨rfl, given.1⟩

theorem le_knownId
    (attempted : Attempted start final changes)
    (change : Change)
    (member : change ∈ changes)
    (key : ObjectRef)
    (made : change.created = some key) :
    start.nextCatalogId ≤ final.knownId key := by
  obtain ⟨_, known⟩ :=
    attempted.knownId_of_mem change member key (change.created_mem_objects key made)
  rw [attempted.unresolved change member key made] at known
  rcases known with impossible | ⟨_, above⟩
  · cases impossible
  · exact above

theorem eq_of_created
    (attempted : Attempted start final changes)
    (change other : Change)
    (member : change ∈ changes)
    (memberOther : other ∈ changes)
    (key used : ObjectRef)
    (made : change.created = some key)
    (object : used ∈ other.objects)
    (same : final.knownId used = final.knownId key) :
    used = key := by
  have missing := attempted.unresolved change member key made
  have above := attempted.le_knownId change member key made
  obtain ⟨found, _⟩ :=
    attempted.knownId_of_mem change member key (change.created_mem_objects key made)
  obtain ⟨foundUsed, known⟩ := attempted.knownId_of_mem other memberOther used object
  rcases known with old | ⟨missingUsed, _⟩
  · have below := attempted.bounded used _ old
    omega
  · exact attempted.extends_.distinct used key _ missingUsed missing (same ▸ foundUsed) found

theorem table_injective
    (attempted : Attempted start final changes)
    (injective : ∀ ref other id, start.catalog.idOf (.table ref) = some id →
      start.catalog.idOf (.table other) = some id → ref = other)
    (change other : Change)
    (member : change ∈ changes)
    (memberOther : other ∈ changes)
    (ref used : TableRef)
    (object : .table ref ∈ change.objects)
    (objectOther : .table used ∈ other.objects)
    (same : final.knownId (.table ref) = final.knownId (.table used)) :
    ref = used := by
  obtain ⟨found, known⟩ := attempted.knownId_of_mem change member _ object
  obtain ⟨foundOther, knownOther⟩ := attempted.knownId_of_mem other memberOther _ objectOther
  rw [same] at found known
  rcases known with old | ⟨missing, above⟩
  · rcases knownOther with oldOther | ⟨_, above⟩
    · exact injective ref used _ old oldOther
    · have below := attempted.bounded _ _ old
      omega
  · rcases knownOther with oldOther | ⟨missingOther, _⟩
    · have below := attempted.bounded _ _ oldOther
      omega
    · exact ObjectRef.table.inj
        (attempted.extends_.distinct _ _ _ missing missingOther found foundOther)

/-! ## Keys of new objects -/

/-- The keys that a kind of renewal adds belong to objects of the change.  They are versions that
the change itself retired, or those of an object that it created. -/
structure Owned {κ : Type} (owner : κ → Int) (final : CommitState) (change : Change)
    (renewal : Renewal κ) : Prop where
  nodup : renewal.added.Nodup
  owned : ∀ key ∈ renewal.added, ∃ object ∈ change.objects, owner key = final.knownId object
  replaced : ∀ key ∈ renewal.added, key ∈ renewal.retired ∨
    ∃ object, change.created = some object ∧ owner key = final.knownId object

theorem separate
    {κ : Type}
    [DecidableEq κ]
    {owner : κ → Int}
    {live : List κ}
    (attempted : Attempted start final changes)
    (renewal : Change → Renewal κ)
    (owned : ∀ change ∈ changes, Owned owner final change (renewal change))
    (below : ∀ key ∈ live, owner key < start.nextCatalogId) :
    Renewal.Separate live (changes.map renewal) where
  own := by
    rw [List.forall_mem_map]
    exact fun change member => (owned change member).nodup
  apart := by
    rw [List.pairwise_map]
    refine attempted.order.imp_of_mem fun {earlier later} member memberLater order key added => ?_
    rcases (owned later memberLater).replaced key added with retired | ⟨object, made, same⟩
    · exact Or.inl retired
    · right
      intro before
      obtain ⟨used, inside, sameUsed⟩ := (owned earlier member).owned key before
      have equal := attempted.eq_of_created later earlier memberLater member object used made inside
        (sameUsed.symm.trans same)
      exact order object made (equal ▸ inside)
  fresh := by
    rw [List.forall_mem_map]
    intro change member key added
    rcases (owned change member).replaced key added with retired | ⟨object, made, same⟩
    · exact Or.inl retired
    · right
      intro old
      have bound := below key old
      have above := attempted.le_knownId change member object made
      omega

end Attempted

end Ducklake.Transaction
