import Ducklake.Transaction.RowIds

/-!
# The statistics that an attempt writes

Statistics are cached by the schema version and the next file id of a snapshot.  An attempt that
writes statistics takes a file id, unless its data files are none at all.
-/

set_option autoImplicit false

namespace Ducklake.Transaction

open Lib Caches Spec CommitState

/-! ## File ids -/

def Change.writesDataFiles : Change → Bool
  | writeTableDataFiles _ dataFiles => !dataFiles.isEmpty
  | _ => false

def ChangeSet.takesFileId (set : ChangeSet) : Bool :=
  set.containsInlineDataWritesAndNoFileWrites || set.changes.any Change.writesDataFiles

theorem addDataFile_nextFileId
    (env : Environment)
    (tableRef : TableRef)
    (tableId : Int)
    (before after : TransactionChanges × CommitState)
    (file : CommitDataFile)
    (success : Executors.addDataFile env tableRef tableId before file = .ok after) :
    before.2.nextFileId < after.2.nextFileId := by
  obtain ⟨partitioned, located, success⟩ := bind_eq_ok.mp success
  obtain rfl := Except.ok.inj success
  have later := (Executors.filePartitionId_extends _ tableRef file _ located).trans
    (foldl_extends _ (Executors.addDeleteFile_extends tableId before.2.fileId.1) file.deleteFiles
      (before.1.deleteFiles, partitioned.2))
  have taken : before.2.nextFileId + 1 ≤ _ := later.nextFileId
  exact taken

theorem Change.apply_nextFileId
    (env : Environment)
    (change : Change)
    (writes : change.writesDataFiles = true)
    (before after : TransactionChanges × CommitState)
    (success : change.apply env before = .ok after) :
    before.2.nextFileId < after.2.nextFileId := by
  cases change with
  | writeTableDataFiles ref dataFiles =>
      obtain ⟨written, files, success⟩ := bind_eq_ok.mp success
      obtain rfl := Except.ok.inj success
      have filled : dataFiles ≠ [] := by
        rintro rfl
        cases writes
      obtain ⟨file, member⟩ := List.exists_mem_of_ne_nil dataFiles filled
      have raised := foldlM_raises (fun collected : TransactionChanges × CommitState =>
          collected.2.nextFileId)
        (fun before file after stepped => Int.le_of_lt
          (addDataFile_nextFileId env ref _ before after file stepped)) file member
        (fun before after stepped => addDataFile_nextFileId env ref _ before after file stepped) files
      exact Int.lt_of_le_of_lt (objectId_extends before.2 (.table ref)).nextFileId raised
  | _ => cases writes

theorem prepareCommit_nextFileId
    (env : Environment)
    (set : ChangeSet)
    (state : CommitState)
    (prepared : PreparedCommit)
    (takes : set.takesFileId = true)
    (success : prepareCommit env set state = .ok prepared) :
    state.nextFileId < prepared.state.nextFileId := by
  obtain ⟨applied, executed, extends_, _⟩ := prepareCommit_tableStats env set state prepared success
  refine Int.lt_of_lt_of_le ?_ extends_.nextFileId
  obtain ⟨_, _, executed⟩ := bind_eq_ok.mp executed
  obtain ⟨collected, changes, executed⟩ := bind_eq_ok.mp executed
  have inlined : ∀ (refs : List TableRef) (before : TransactionChanges × CommitState),
      before.2.nextFileId ≤ (refs.foldl (Executors.createInlinedTable env) before).2.nextFileId := by
    intro refs
    induction refs with
    | nil => exact fun _ => Int.le_refl _
    | cons ref rest ih =>
        exact fun before => Int.le_trans
          (Executors.createInlinedTable_extends env before ref).nextFileId (ih _)
  have afterwards := inlined set.tableRefsWithSchemaChanges collected
  have last : applied = set.bumpFileId
      (set.tableRefsWithSchemaChanges.foldl (Executors.createInlinedTable env) collected).2 :=
    (congrArg Prod.snd (Except.ok.inj executed)).symm
  have grows := fun (before : TransactionChanges × CommitState) change after stepped =>
    (Change.apply_extends env before after change stepped).nextFileId
  rw [ChangeSet.takesFileId, Bool.or_eq_true] at takes
  rw [last, ChangeSet.bumpFileId]
  rcases takes with inline | files
  · rw [if_pos inline]
    have first := foldlM_invariant (fun collected : TransactionChanges × CommitState =>
        state.nextFileId ≤ collected.2.nextFileId) (Int.le_refl _)
      (fun before change after _ reached stepped =>
        Int.le_trans reached (grows before change after stepped)) changes
    change _ < _ + 1
    omega
  · obtain ⟨change, member, writes⟩ := List.any_eq_true.mp files
    have first := foldlM_raises (fun collected : TransactionChanges × CommitState =>
      collected.2.nextFileId) grows change member
        (fun before after stepped => change.apply_nextFileId env writes before after stepped) changes
    dsimp only at first
    split
    · change _ < _ + 1
      omega
    · omega

/-! ## Attempts without data -/

theorem Change.apply_sameStats
    (env : Environment)
    (change : Change)
    (before after : TransactionChanges × CommitState)
    (nothing : ∀ ref writes, change.writes = some (ref, writes) → writes = [])
    (present : ∀ key ∈ change.objects, before.2.catalog.Has key)
    (success : change.apply env before = .ok after) :
    after.2.tableStats = before.2.tableStats := by
  cases written : change.writes with
  | none => exact (Change.apply_sameWrites change written present after success).tableStats
  | some entry =>
      cases change with
      | writeTableDataFiles ref dataFiles =>
          obtain rfl := List.map_eq_nil_iff.mp (nothing _ _ rfl)
          obtain rfl := Except.ok.inj success
          exact tableStats_objectId before.2 (.table ref)
      | writeTableInlineData ref data =>
          obtain rfl := List.map_eq_nil_iff.mp (nothing _ _ rfl)
          obtain rfl := Except.ok.inj success
          exact tableStats_objectId before.2 (.table ref)
      | _ => cases written

theorem prepareCommit_sameStats
    (env : Environment)
    (set : ChangeSet)
    (state : CommitState)
    (prepared : PreparedCommit)
    (nothing : ∀ change ∈ set.changes, ∀ ref writes, change.writes = some (ref, writes) → writes = [])
    (present : ∀ change ∈ set.changes, ∀ key ∈ change.objects, state.catalog.Has key)
    (success : prepareCommit env set state = .ok prepared) :
    prepared.state.tableStats = state.tableStats := by
  obtain ⟨applied, executed, _, same⟩ := prepareCommit_tableStats env set state prepared success
  obtain ⟨_, _, executed⟩ := bind_eq_ok.mp executed
  obtain ⟨collected, changes, executed⟩ := bind_eq_ok.mp executed
  have kept : state.Extends collected.2 ∧ collected.2.tableStats = state.tableStats := by
    refine foldlM_invariant (fun collected : TransactionChanges × CommitState =>
      state.Extends collected.2 ∧ collected.2.tableStats = state.tableStats) ⟨.refl _, rfl⟩ ?_ changes
    rintro before change after member ⟨extends_, stats⟩ stepped
    refine ⟨extends_.trans (Change.apply_extends env before after change stepped), ?_⟩
    refine (Change.apply_sameStats env change before after (nothing change member) ?_ stepped).trans
      stats
    exact fun key object => (extends_.has key).mpr (present change member key object)
  have inlined : ∀ (refs : List TableRef) (before : TransactionChanges × CommitState),
      (refs.foldl (Executors.createInlinedTable env) before).2.tableStats = before.2.tableStats := by
    intro refs
    induction refs with
    | nil => exact fun _ => rfl
    | cons ref rest ih =>
        exact fun before => (ih _).trans (createInlinedTable_sameWrites env before ref).tableStats
  have last : applied = set.bumpFileId
      (set.tableRefsWithSchemaChanges.foldl (Executors.createInlinedTable env) collected).2 :=
    (congrArg Prod.snd (Except.ok.inj executed)).symm
  have bumped : (set.bumpFileId (set.tableRefsWithSchemaChanges.foldl
      (Executors.createInlinedTable env) collected).2).tableStats = collected.2.tableStats := by
    unfold ChangeSet.bumpFileId
    split
    · exact inlined _ _
    · exact inlined _ _
  rw [same, last, bumped, kept.2]

theorem persistTableStats_of_stored
    (state : CommitState)
    (keys : List Int)
    (rows : List DucklakeTableStats)
    (unique : (rows.map DucklakeTableStats.tableId).Nodup)
    (stored : ∀ tableId ∈ keys, (state.tableStatsOf tableId).isPersisted = true ∧
      statsRow rows tableId = some (writtenStats state tableId)) :
    keys.foldl (persistTableStats state) rows = rows := by
  induction keys with
  | nil => rfl
  | cons key rest ih =>
      obtain ⟨⟨persisted, row⟩, stored⟩ := List.forall_mem_cons.mp stored
      have same : persistTableStats state rows key = rows := by
        unfold persistTableStats
        dsimp only
        rw [if_pos persisted]
        refine (List.map_congr_left fun other member => ?_).trans (List.map_id rows)
        split
        · rename_i own
          have found := (statsRow_eq_some_iff rows key other unique).mpr ⟨member, own⟩
          exact Option.some.inj (row.symm.trans found)
        · rfl
      rw [List.foldl_cons, same]
      exact ih stored

theorem changedColumns_of_sameStats (state : CommitState) (written : IndexMap Int (List Int))
    (same : state.tableStats = state.originalTableStats) :
    changedColumns state written = [] := by
  unfold changedColumns columnStatsChanged
  rw [same]
  simp

end Ducklake.Transaction
