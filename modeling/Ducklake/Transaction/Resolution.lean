import Ducklake.Catalog.Objects
import Ducklake.Lib.Except
import Ducklake.Transaction.Commit

/-!
# The ids that an attempt gives out

New objects receive ids from the counter of the snapshot that the attempt builds on.  An attempt
keeps every id it has once given out, and gives out none twice.
-/

set_option autoImplicit false

namespace Ducklake

open Lib Transaction

namespace Transaction.CommitState

/-- What the rest of an attempt may do to its state: give ids to objects that have none, take
file ids and update statistics. -/
structure Extends (before after : CommitState) : Prop where
  snapshotId : after.snapshotId = before.snapshotId
  schemaVersion : after.schemaVersion = before.schemaVersion
  originalTableStats : after.originalTableStats = before.originalTableStats
  nextCatalogId : before.nextCatalogId ≤ after.nextCatalogId
  nextFileId : before.nextFileId ≤ after.nextFileId
  has : ∀ key, after.catalog.Has key ↔ before.catalog.Has key
  columns : ∀ ref, (after.catalog.table ref).columns = (before.catalog.table ref).columns
  kept : ∀ key id, before.catalog.idOf key = some id → after.catalog.idOf key = some id
  fresh : ∀ key id, after.catalog.idOf key = some id →
    before.catalog.idOf key = some id ∨ before.nextCatalogId ≤ id ∧ id < after.nextCatalogId
  distinct : ∀ key other id, before.catalog.idOf key = none → before.catalog.idOf other = none →
    after.catalog.idOf key = some id → after.catalog.idOf other = some id → key = other

namespace Extends

theorem refl (state : CommitState) : state.Extends state where
  snapshotId := rfl
  schemaVersion := rfl
  originalTableStats := rfl
  nextCatalogId := Int.le_refl _
  nextFileId := Int.le_refl _
  has _ := Iff.rfl
  columns _ := rfl
  kept _ _ found := found
  fresh _ _ found := Or.inl found
  distinct key other id missing _ found := by simp [missing] at found

theorem trans
    {first second third : CommitState}
    (earlier : first.Extends second)
    (later : second.Extends third) :
    first.Extends third where
  snapshotId := later.snapshotId.trans earlier.snapshotId
  schemaVersion := later.schemaVersion.trans earlier.schemaVersion
  originalTableStats := later.originalTableStats.trans earlier.originalTableStats
  nextCatalogId := Int.le_trans earlier.nextCatalogId later.nextCatalogId
  nextFileId := Int.le_trans earlier.nextFileId later.nextFileId
  has key := (later.has key).trans (earlier.has key)
  columns ref := (later.columns ref).trans (earlier.columns ref)
  kept key id found := later.kept key id (earlier.kept key id found)
  fresh key id found := by
    have grows := earlier.nextCatalogId
    have growsLater := later.nextCatalogId
    rcases later.fresh key id found with middle | given
    · rcases earlier.fresh key id middle with first | given
      · exact Or.inl first
      · exact Or.inr (by omega)
    · exact Or.inr (by omega)
  distinct key other id missing missingOther found foundOther := by
    rcases later.fresh key id found with middle | given
    · rcases later.fresh other id foundOther with middleOther | givenOther
      · exact earlier.distinct key other id missing missingOther middle middleOther
      · rcases earlier.fresh key id middle with first | bound
        · simp [missing] at first
        · omega
    · rcases later.fresh other id foundOther with middleOther | givenOther
      · rcases earlier.fresh other id middleOther with first | bound
        · simp [missingOther] at first
        · omega
      · cases middle : second.catalog.idOf key with
        | some value =>
            have same := later.kept key value middle
            rw [found] at same
            cases same
            rcases earlier.fresh key id middle with first | bound
            · simp [missing] at first
            · omega
        | none =>
            cases middleOther : second.catalog.idOf other with
            | some value =>
                have same := later.kept other value middleOther
                rw [foundOther] at same
                cases same
                rcases earlier.fresh other id middleOther with first | bound
                · simp [missingOther] at first
                · omega
            | none => exact later.distinct key other id middle middleOther found foundOther

theorem of_tableStats
    (state : CommitState)
    (stats : Caches.TableStatsMap) :
    state.Extends { state with tableStats := stats } :=
  { refl state with }

end Extends

def objectId (state : CommitState) (key : ObjectRef) : Int × CommitState :=
  state.resolve (state.catalog.idOf key) fun catalog id => catalog.assign key id

theorem objectId_of_some
    (state : CommitState)
    (key : ObjectRef)
    (id : Int)
    (found : state.catalog.idOf key = some id) :
    state.objectId key = (id, state) := by
  simp [objectId, resolve, found]

theorem objectId_of_none
    (state : CommitState)
    (key : ObjectRef)
    (missing : state.catalog.idOf key = none) :
    state.objectId key = (state.nextCatalogId, { state with
      nextCatalogId := state.nextCatalogId + 1
      catalog := state.catalog.assign key state.nextCatalogId }) := by
  simp [objectId, resolve, missing, catalogId]

theorem objectId_extends
    (state : CommitState)
    (key : ObjectRef) :
    state.Extends (state.objectId key).2 := by
  cases found : state.catalog.idOf key with
  | some id =>
      rw [objectId_of_some state key id found]
      exact .refl state
  | none =>
      rw [objectId_of_none state key found]
      have self : ∀ id, (state.catalog.assign key state.nextCatalogId).idOf key = some id →
          id = state.nextCatalogId := by
        intro id given
        by_cases present : state.catalog.Has key
        · rw [Catalog.idOf_assign_self _ _ _ present] at given
          exact (Option.some.inj given).symm
        · rw [Catalog.idOf_assign_of_absent _ _ _ present, found] at given
          cases given
      exact {
        snapshotId := rfl
        schemaVersion := rfl
        originalTableStats := rfl
        nextCatalogId := by dsimp only; omega
        nextFileId := Int.le_refl _
        has := fun other => Catalog.has_assign _ _ _ _
        columns := fun ref => Catalog.columns_assign _ _ _ _
        kept := by
          intro other id before
          have distinct : other ≠ key := by
            rintro rfl
            simp [found] at before
          exact (Catalog.idOf_assign_of_ne _ _ _ _ distinct).trans before
        fresh := by
          intro other id after
          by_cases same : other = key
          · subst same
            have given := self id after
            exact Or.inr (by dsimp only; omega)
          · exact Or.inl ((Catalog.idOf_assign_of_ne _ _ _ _ same).symm.trans after)
        distinct := by
          intro first second id missing missingOther after afterOther
          by_cases same : first = key
          · by_cases sameOther : second = key
            · exact same.trans sameOther.symm
            · dsimp only at afterOther
              rw [Catalog.idOf_assign_of_ne _ _ _ _ sameOther, missingOther] at afterOther
              cases afterOther
          · dsimp only at after
            rw [Catalog.idOf_assign_of_ne _ _ _ _ same, missing] at after
            cases after }

theorem idOf_objectId
    (state : CommitState)
    (key : ObjectRef)
    (present : state.catalog.Has key) :
    (state.objectId key).2.catalog.idOf key = some (state.objectId key).1 := by
  cases found : state.catalog.idOf key with
  | some id => rw [objectId_of_some state key id found, found]
  | none =>
      rw [objectId_of_none state key found]
      exact Catalog.idOf_assign_self _ _ _ present

theorem tableId_eq (state : CommitState) (ref : TableRef) :
    state.tableId ref = state.objectId (.table ref) :=
  rfl

theorem partitionId_eq_ok
    (state : CommitState)
    (ref : TableRef)
    (result : Int × CommitState) :
    state.partitionId ref = .ok result ↔
      (state.catalog.table ref).partition.isSome ∧ state.objectId (.partition ref) = result := by
  unfold partitionId
  split
  · rename_i defined
    simp only [Except.ok.injEq, defined, true_and]
    rfl
  · rename_i missing
    simp [missing]

theorem catalogId_extends (state : CommitState) : state.Extends state.catalogId.2 :=
  { Extends.refl state with
    nextCatalogId := by dsimp only [catalogId]; omega
    fresh := fun _ _ found => Or.inl found }

theorem fileId_extends (state : CommitState) : state.Extends state.fileId.2 :=
  { Extends.refl state with nextFileId := by dsimp only [fileId]; omega }

theorem modifyTableStats_extends
    (state : CommitState)
    (tableId : Int)
    (update : Caches.TableStats → Caches.TableStats) :
    state.Extends (state.modifyTableStats tableId update) :=
  .of_tableStats state _

theorem foldl_extends
    {α β : Type}
    (f : β × CommitState → α → β × CommitState)
    (step : ∀ (collected : β × CommitState) item, collected.2.Extends (f collected item).2)
    (items : List α)
    (collected : β × CommitState) :
    collected.2.Extends (items.foldl f collected).2 := by
  induction items generalizing collected with
  | nil => exact .refl _
  | cons item rest ih => exact (step collected item).trans (ih _)

theorem collect_extends
    {α β : Type}
    (resolve : CommitState → α → β × CommitState)
    (step : ∀ (state : CommitState) item, state.Extends (resolve state item).2)
    (items : List α)
    (state : CommitState) :
    state.Extends (collect resolve state items).2 := by
  induction items generalizing state with
  | nil => exact .refl _
  | cons item rest ih => exact (step state item).trans (ih _)

end Transaction.CommitState

end Ducklake
