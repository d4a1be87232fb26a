import Ducklake.Lib.Except
import Ducklake.Transaction.Commit

/-!
# What a commit writes

The contents of the metadata database after a database transaction of `commit` that succeeded.
-/

set_option autoImplicit false

namespace Ducklake.Transaction

open Lib Spec

theorem insertUnique_eq_ok
    {α : Type}
    (table : String)
    (key : α → Int)
    (rows new result : List α) :
    insertUnique table key rows new = .ok result ↔
      ((rows ++ new).map key).Nodup ∧ result = rows ++ new := by
  unfold insertUnique
  split
  · rename_i unique
    simp only [Except.ok.injEq]
    exact ⟨fun same => ⟨unique, same.symm⟩, fun both => both.2.symm⟩
  · rename_i repeated
    exact ⟨fun impossible => (by cases impossible), fun both => absurd both.1 repeated⟩

/-! ## Inline data -/

/-- Only the inline data tables and their registrations differ. -/
def SameExceptInlined (before after : Database) : Prop :=
  after = { before with
    inlinedData := after.inlinedData
    inlinedDataTables := after.inlinedDataTables }

theorem SameExceptInlined.trans
    {first second third : Database}
    (earlier : SameExceptInlined first second)
    (later : SameExceptInlined second third) :
    SameExceptInlined first third := by
  unfold SameExceptInlined at *
  rw [later, earlier]

theorem createInlinedDataTable_same
    (schemaVersion : Int)
    (before after : Database)
    (table : Int × Schema)
    (success : createInlinedDataTable schemaVersion before table = .ok after) :
    SameExceptInlined before after := by
  unfold createInlinedDataTable at success
  dsimp only at success
  split at success
  · cases success
  · cases success
    rfl

theorem persistInlineBatch_same
    (before after : Database)
    (entry : Int × InlinedBatch)
    (success : persistInlineBatch before entry = .ok after) :
    SameExceptInlined before after := by
  unfold persistInlineBatch at success
  split at success
  · cases success
  · cases success
    rfl

theorem persistInlineData_same
    (dialect : Dialect)
    (schemaVersion : Int)
    (changes : TransactionChanges)
    (before after : Database)
    (success : persistInlineData dialect schemaVersion changes before = .ok after) :
    SameExceptInlined before after := by
  unfold persistInlineData at success
  split at success
  · split at success
    · cases success
      rfl
    · cases success
  · obtain ⟨between, created, appended⟩ := bind_eq_ok.mp success
    have first : SameExceptInlined before between :=
      foldlM_invariant (SameExceptInlined before) (show SameExceptInlined before before from rfl)
        (fun state entry next _ so stepped =>
          so.trans (createInlinedDataTable_same schemaVersion state next entry stepped)) created
    exact foldlM_invariant (SameExceptInlined before) first
      (fun state entry next _ so stepped =>
        so.trans (persistInlineBatch_same state next entry stepped)) appended

/-! ## All rows -/

/-- The database with the rows of a commit, apart from its inline data. -/
def written (env : Environment) (state : CommitState) (changes : TransactionChanges)
    (db : Database) : Database :=
  let db := retireRows state.snapshotId changes (detachTables changes db)
  persistStatistics env state changes { db with
    schemas := insertNew state.snapshotId db.schemas changes.newSchemas
    tables := insertNew state.snapshotId
      (persistTableRenames state.snapshotId changes.renamedTables db.tables) changes.newTables
    views := insertNew state.snapshotId db.views changes.newViews
    macros := insertNew state.snapshotId db.macros changes.newMacros
    macroImpls := db.macroImpls ++ changes.newMacroImpls
    macroParameters := db.macroParameters ++ changes.newMacroParameters
    columns := db.columns ++ changes.newColumns
    partitionInfo := db.partitionInfo ++ changes.newPartitionInfo
    partitionColumns := db.partitionColumns ++ changes.newPartitionColumns
    sortInfo := db.sortInfo ++ changes.newSortInfo
    sortExpressions := db.sortExpressions ++ changes.newSortExpressions
    tags := persistTags state.snapshotId (fun id key row => row.objectId = id ∧ row.key = key)
      (fun id key value => { objectId := id, key := key, value := value })
      (insertNew state.snapshotId db.tags changes.newTags) changes.tableTags
    columnTags := persistTags state.snapshotId
      (fun id key row => (row.tableId, row.columnId) = id ∧ row.key = key)
      (fun id key value => { tableId := id.1, columnId := id.2, key := key, value := value })
      (insertNew state.snapshotId db.columnTags changes.newColumnTags) changes.columnTags
    dataFiles := insertNew state.snapshotId db.dataFiles changes.dataFiles
    filePartitionValues := db.filePartitionValues ++ changes.partitionValues
    fileColumnStats := db.fileColumnStats ++ changes.columnStats
    deleteFiles := insertNew state.snapshotId db.deleteFiles changes.deleteFiles
    inlinedDeletes := db.inlinedDeletes ++ changes.inlineDeletes }

theorem persist_same
    (env : Environment)
    (state : CommitState)
    (changes : TransactionChanges)
    (before after : Database)
    (success : changes.persist env state before = .ok after) :
    SameExceptInlined (written env state changes before) after := by
  obtain ⟨catalogRows, inserted, success⟩ := bind_eq_ok.mp success
  obtain ⟨files, persisted, success⟩ := bind_eq_ok.mp success
  obtain ⟨inlined, inlinedOk, finished⟩ := bind_eq_ok.mp success
  obtain ⟨schemas, schemasOk, inserted⟩ := bind_eq_ok.mp inserted
  obtain ⟨dataFiles, dataFilesOk, persisted⟩ := bind_eq_ok.mp persisted
  obtain ⟨deleteFiles, deleteFilesOk, persisted⟩ := bind_eq_ok.mp persisted
  obtain ⟨_, rfl⟩ := (insertUnique_eq_ok _ _ _ _ _).mp schemasOk
  obtain ⟨_, rfl⟩ := (insertUnique_eq_ok _ _ _ _ _).mp dataFilesOk
  obtain ⟨_, rfl⟩ := (insertUnique_eq_ok _ _ _ _ _).mp deleteFilesOk
  have same := persistInlineData_same _ _ _ _ _ inlinedOk
  obtain rfl := Except.ok.inj inserted
  obtain rfl := Except.ok.inj persisted
  obtain rfl := Except.ok.inj finished
  unfold SameExceptInlined at same
  rw [same]
  rfl

theorem persistCommit_eq_ok
    (env : Environment)
    (now : Int)
    (prepared : PreparedCommit)
    (before after : Database)
    (success : persistCommit env now prepared before = .ok after) :
    ∃ rows : Database,
      prepared.changes.persist env prepared.state before = .ok rows ∧
      ((rows.snapshots ++ [prepared.state.snapshot now]).map
        DucklakeSnapshot.snapshotId).Nodup ∧
      after = { rows with
        snapshots := rows.snapshots ++ [prepared.state.snapshot now]
        snapshotChanges := rows.snapshotChanges ++ [{
          snapshotId := prepared.state.snapshotId
          changesMade := prepared.appliedChanges.display }]
        schemaVersions := rows.schemaVersions ++
          prepared.tableIdsWithSchemaChanges.map fun tableId => {
            beginSnapshot := prepared.state.snapshotId
            schemaVersion := prepared.state.schemaVersion
            tableId := some tableId } } := by
  obtain ⟨rows, persisted, success⟩ := bind_eq_ok.mp success
  obtain ⟨snapshots, snapshotsOk, success⟩ := bind_eq_ok.mp success
  obtain ⟨snapshotChanges, changesOk, success⟩ := bind_eq_ok.mp success
  obtain ⟨unique, rfl⟩ := (insertUnique_eq_ok _ _ _ _ _).mp snapshotsOk
  obtain ⟨_, rfl⟩ := (insertUnique_eq_ok _ _ _ _ _).mp changesOk
  cases success
  exact ⟨rows, persisted, unique, rfl⟩

/-- Only snapshots and inline data differ. -/
def SameExceptSnapshots (before after : Database) : Prop :=
  after = { before with
    snapshots := after.snapshots
    snapshotChanges := after.snapshotChanges
    schemaVersions := after.schemaVersions
    inlinedData := after.inlinedData
    inlinedDataTables := after.inlinedDataTables }

theorem persistCommit_same
    (env : Environment)
    (now : Int)
    (prepared : PreparedCommit)
    (before after : Database)
    (success : persistCommit env now prepared before = .ok after) :
    SameExceptSnapshots (written env prepared.state prepared.changes before) after := by
  obtain ⟨rows, persisted, _, rfl⟩ := persistCommit_eq_ok env now prepared before after success
  have same := persist_same env _ _ _ _ persisted
  unfold SameExceptInlined at same
  unfold SameExceptSnapshots
  rw [same]

theorem persistCommit_snapshots
    (env : Environment)
    (now : Int)
    (prepared : PreparedCommit)
    (before after : Database)
    (success : persistCommit env now prepared before = .ok after) :
    after.snapshots = before.snapshots ++ [prepared.state.snapshot now] ∧
      after.snapshotChanges = before.snapshotChanges ++ [{
        snapshotId := prepared.state.snapshotId
        changesMade := prepared.appliedChanges.display }] ∧
      prepared.state.snapshotId ∉ before.snapshots.map DucklakeSnapshot.snapshotId := by
  obtain ⟨rows, persisted, unique, rfl⟩ := persistCommit_eq_ok env now prepared before after success
  have same := persist_same env _ _ _ _ persisted
  have snapshots : rows.snapshots = before.snapshots := by
    rw [same]
    rfl
  have snapshotChanges : rows.snapshotChanges = before.snapshotChanges := by
    rw [same]
    rfl
  refine ⟨by rw [snapshots], by rw [snapshotChanges], ?_⟩
  rw [snapshots, List.map_append, List.nodup_append] at unique
  intro member
  exact unique.2.2 _ member _ (List.mem_singleton.mpr rfl) rfl

end Ducklake.Transaction
