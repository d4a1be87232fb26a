import Ducklake.Interleaving.Commits
import Ducklake.Transaction.RecordedTables

/-!
# Commits between the start and the end of a transaction

A transaction that works on an existing table commits only if no commit since its start altered
or dropped the table.
-/

set_option autoImplicit false

namespace Ducklake

open Lib Caches Spec Maintenance Transaction

/-! ## What the check excludes -/

theorem Transaction.AppliedChange.readable_altered (id : Int) :
    (AppliedChange.alteredTable id).Readable ∧ (AppliedChange.droppedTable id).Readable := by
  simp [AppliedChange.Readable, AppliedChange.identifiers, AppliedChange.rawNames]

theorem Transaction.AppliedChange.conflicts_of_worksOn
    (catalog : Catalog)
    (change : Change)
    (ref : TableRef)
    (kind : Int → AppliedChange)
    (id : Int)
    (works : change.worksOn = some ref)
    (recorded : change.recordedTable = some (ref, kind)) :
    (kind id).checkConflict (.alteredTable id) catalog ≠ .ok () ∧
      (kind id).checkConflict (.droppedTable id) catalog ≠ .ok () := by
  have kinds : kind = AppliedChange.alteredTable ∨ kind = AppliedChange.insertedIntoTable ∨
      kind = AppliedChange.inlinedInsert := by
    cases change with
    | addTableColumn parent refs column =>
        cases refs with
        | nil => cases recorded
        | cons first rest =>
            cases recorded
            exact Or.inl rfl
    | deleteTable => cases works
    | updateTablePartitioning | updateTableSortInfo | addTableTag | removeTableTag
    | updateTableColumn | removeTableColumn | addTableColumnTag | removeTableColumnTag =>
        cases recorded
        exact Or.inl rfl
    | writeTableDataFiles =>
        cases recorded
        exact Or.inr (Or.inl rfl)
    | writeTableInlineData =>
        cases recorded
        exact Or.inr (Or.inr rfl)
    | _ => cases recorded
  rcases kinds with rfl | rfl | rfl <;> simp [AppliedChange.checkConflict, AppliedChange.conflictIf]

/-- What a change to a table is recorded as was compared with everything that is read back. -/
theorem CheckedAgainst.compatible
    (tx : Transaction)
    (row : DucklakeSnapshotChanges)
    (other : AppliedChangeSet)
    (change : Change)
    (ref : TableRef)
    (kind : Int → AppliedChange)
    (id : Int)
    (sound : tx.Sound)
    (checked : CheckedAgainst tx row)
    (text : row.changesMade = other.display)
    (member : change ∈ (ChangeSet.new tx.changes).changes)
    (recorded : change.recordedTable = some (ref, kind))
    (found : tx.catalog.idOf (.table ref) = some id) :
    ∀ interim ∈ other.changes, interim.Readable →
      (kind id).checkConflict interim tx.catalog = .ok () := by
  obtain ⟨start, state, read, startCatalog, extends_, parsed, compatible⟩ := checked
  rw [text] at parsed
  rw [AppliedChangeSet.checkConflict_eq_ok_iff] at compatible
  have present : start.catalog.Has (.table ref) := by
    rw [startCatalog]
    exact sound.present change member _ (change.objects_of_recordedTable ref kind recorded)
  have own := ChangeSet.recorded_mem (ChangeSet.new tx.changes) state change ref kind id member
    recorded ((extends_.has _).mpr present) ((ChangeSet.appliedChangeSet_extends _ state).kept _ _
      (extends_.kept _ _ (startCatalog ▸ found)))
  exact fun interim inside readable => compatible _ own _
    (AppliedChangeSet.read_of_parse_display other read parsed _ inside readable).1

theorem CheckedAgainst.untouched
    (tx : Transaction)
    (row : DucklakeSnapshotChanges)
    (other : AppliedChangeSet)
    (change : Change)
    (ref : TableRef)
    (id : Int)
    (sound : tx.Sound)
    (checked : CheckedAgainst tx row)
    (text : row.changesMade = other.display)
    (member : change ∈ (ChangeSet.new tx.changes).changes)
    (works : change.worksOn = some ref)
    (found : tx.catalog.idOf (.table ref) = some id) :
    .alteredTable id ∉ other.changes ∧ .droppedTable id ∉ other.changes := by
  obtain ⟨kind, recorded⟩ : ∃ kind, change.recordedTable = some (ref, kind) := by
    unfold Change.worksOn at works
    split at works
    · cases works
    · obtain ⟨⟨_, kind⟩, recorded, rfl⟩ := Option.map_eq_some_iff.mp works
      exact ⟨kind, recorded⟩
  have compatible := checked.compatible tx row other change ref kind id sound text member recorded
    found
  obtain ⟨altered, dropped⟩ :=
    AppliedChange.conflicts_of_worksOn tx.catalog change ref kind id works recorded
  obtain ⟨readableAltered, readableDropped⟩ := AppliedChange.readable_altered id
  exact ⟨fun inside => altered (compatible _ inside readableAltered),
    fun inside => dropped (compatible _ inside readableDropped)⟩

/-- Nothing altered or dropped a table between the start of a transaction that works on it and
its commit. -/
theorem Follows.untouched
    (env : Environment)
    (earlier later : Commit)
    (change : Change)
    (ref : TableRef)
    (id : Int)
    (follows : Follows earlier later)
    (sound : later.Sound env)
    (interim : later.start.id < earlier.snapshotId)
    (member : change ∈ (ChangeSet.new later.tx.changes).changes)
    (works : change.worksOn = some ref)
    (found : later.tx.catalog.idOf (.table ref) = some id) :
    .alteredTable id ∉ earlier.prepared.appliedChanges.changes ∧
      .droppedTable id ∉ earlier.prepared.appliedChanges.changes :=
  CheckedAgainst.untouched later.tx earlier.changesRow earlier.prepared.appliedChanges change ref id
    sound.tx (sound.checked _ (follows.2 interim)) rfl member works found

/-- The changes of a commit are recorded with the ids that its attempt gave out. -/
theorem Prepared.recorded_mem
    (env : Environment)
    (tx : Transaction)
    (base : SnapshotInfo)
    (prepared : PreparedCommit)
    (sound : tx.Sound)
    (prepares : Prepared env tx base prepared)
    (change : Change)
    (ref : TableRef)
    (kind : Int → AppliedChange)
    (id : Int)
    (member : change ∈ (ChangeSet.new tx.changes).changes)
    (recorded : change.recordedTable = some (ref, kind))
    (found : prepared.state.catalog.idOf (.table ref) = some id) :
    kind id ∈ prepared.appliedChanges.changes := by
  obtain ⟨stats, success⟩ := prepares
  obtain ⟨applied, executed, appliedChanges, later⟩ := prepareCommit_eq_ok env _ _ _ success
  have earlier := ChangeSet.apply_extends env _ _ _ executed
  have key := change.objects_of_recordedTable ref kind recorded
  have present : applied.catalog.Has (.table ref) :=
    (earlier.has _).mpr (sound.present change member _ key)
  rw [appliedChanges]
  obtain ⟨middle, reached, _, afterwards⟩ := CommitState.collect_mem Change.appliedChange
    Change.appliedChange_extends (ChangeSet.new tx.changes).changes applied change member
  rw [change.appliedChange_of_recordedTable middle ref kind recorded] at afterwards
  have resolved := afterwards.kept _ _
    (CommitState.idOf_objectId middle (.table ref) ((reached.has _).mpr present))
  have final := later.kept _ _ resolved
  rw [found] at final
  cases final
  exact ChangeSet.recorded_mem _ applied change ref kind _ member recorded present resolved

end Ducklake
