import Ducklake.Transaction.Collects
import Ducklake.Transaction.Persistence

/-!
# Owners of delete files

Every delete file is written together with its data file, and for the same table.
-/

set_option autoImplicit false

namespace Ducklake.Transaction

open Lib Caches Spec CommitState

/-- Every delete file has a data file, which is of the same table. -/
def DeletesHaveFiles (dataFiles : List DucklakeDataFile) (deleteFiles : List DucklakeDeleteFile) :
    Prop :=
  ∀ delete ∈ deleteFiles, ∃ file ∈ dataFiles,
    file.dataFileId = delete.dataFileId ∧ file.tableId = delete.tableId

theorem DeletesHaveFiles.append
    {dataFiles others : List DucklakeDataFile}
    {deleteFiles otherDeletes : List DucklakeDeleteFile}
    (first : DeletesHaveFiles dataFiles deleteFiles)
    (second : DeletesHaveFiles others otherDeletes) :
    DeletesHaveFiles (dataFiles ++ others) (deleteFiles ++ otherDeletes) := by
  intro delete member
  rcases List.mem_append.mp member with old | new
  · obtain ⟨file, inside, owned⟩ := first delete old
    exact ⟨file, List.mem_append_left _ inside, owned⟩
  · obtain ⟨file, inside, owned⟩ := second delete new
    exact ⟨file, List.mem_append_right _ inside, owned⟩

/-! ## Collected rows -/

theorem deleteFiles_foldl_addDeleteFile
    (tableId fileId : Int)
    (files : List CommitDeleteFile)
    (collected : List DucklakeDeleteFile × CommitState) :
    ∃ added, (files.foldl (Executors.addDeleteFile tableId fileId) collected).1 =
        collected.1 ++ added ∧
      ∀ delete ∈ added, delete.dataFileId = fileId ∧ delete.tableId = tableId := by
  induction files generalizing collected with
  | nil => exact ⟨[], (List.append_nil _).symm, by simp⟩
  | cons file rest ih =>
      obtain ⟨added, same, owned⟩ := ih (Executors.addDeleteFile tableId fileId collected file)
      unfold Executors.addDeleteFile at same
      dsimp only at same
      rw [List.append_assoc] at same
      exact ⟨_, same, List.forall_mem_cons.mpr ⟨⟨rfl, rfl⟩, owned⟩⟩

theorem addDataFile_deletesHaveFiles
    (env : Environment)
    (tableRef : TableRef)
    (tableId : Int)
    (before after : TransactionChanges × CommitState)
    (file : CommitDataFile)
    (owned : DeletesHaveFiles before.1.dataFiles before.1.deleteFiles)
    (success : Executors.addDataFile env tableRef tableId before file = .ok after) :
    DeletesHaveFiles after.1.dataFiles after.1.deleteFiles := by
  obtain ⟨partitioned, _, success⟩ := bind_eq_ok.mp success
  obtain rfl := Except.ok.inj success
  obtain ⟨added, same, own⟩ := deleteFiles_foldl_addDeleteFile tableId before.2.fileId.1
    file.deleteFiles (before.1.deleteFiles, partitioned.2)
  change DeletesHaveFiles _ (file.deleteFiles.foldl
    (Executors.addDeleteFile tableId before.2.fileId.1) (before.1.deleteFiles, partitioned.2)).1
  rw [same]
  refine owned.append fun delete member => ?_
  obtain ⟨ofFile, ofTable⟩ := own delete member
  exact ⟨_, List.mem_singleton_self _, ofFile.symm, ofTable.symm⟩

theorem Collects.deletesHaveFiles
    {env : Environment}
    {changes : List Change}
    {before after : TransactionChanges × CommitState}
    (step : Collects env changes before after)
    (owned : DeletesHaveFiles before.1.dataFiles before.1.deleteFiles) :
    DeletesHaveFiles after.1.dataFiles after.1.deleteFiles := by
  cases step with
  | wroteFile _ _ _ success =>
      exact addDataFile_deletesHaveFiles env _ _ _ _ _ owned success
  | inlined =>
      unfold Executors.createInlinedTable
      dsimp only
      split <;> exact owned
  | _ => exact owned

theorem prepareCommit_deletesHaveFiles
    (env : Environment)
    (set : ChangeSet)
    (state : CommitState)
    (prepared : PreparedCommit)
    (present : ∀ change ∈ set.changes, ∀ key ∈ change.objects, state.catalog.Has key)
    (success : prepareCommit env set state = .ok prepared) :
    DeletesHaveFiles prepared.changes.dataFiles prepared.changes.deleteFiles := by
  obtain ⟨applied, executed, _, _⟩ := prepareCommit_eq_ok env set state prepared success
  have collected := set.apply_collected env state _ present executed
  have run : ∀ {result}, Collected env set.changes (.empty, state) result →
      DeletesHaveFiles result.1.dataFiles result.1.deleteFiles := by
    intro result steps
    induction steps with
    | refl => exact fun _ impossible => by cases impossible
    | tail _ step ih => exact step.deletesHaveFiles ih
  exact run collected

/-! ## Stored rows -/

/-- The files of a catalog: their ids are unique, and delete files have their data files. -/
structure FilesOwned (db : Database) : Prop where
  unique : (db.dataFiles.map fun row => row.entity.dataFileId).Nodup
  owned : DeletesHaveFiles (db.dataFiles.map Versioned.entity) (db.deleteFiles.map Versioned.entity)

theorem persist_uniqueFiles
    (env : Environment)
    (state : CommitState)
    (changes : TransactionChanges)
    (before after : Database)
    (success : changes.persist env state before = .ok after) :
    ((written env state changes before).dataFiles.map fun row => row.entity.dataFileId).Nodup := by
  obtain ⟨catalogRows, inserted, success⟩ := bind_eq_ok.mp success
  obtain ⟨files, persisted, success⟩ := bind_eq_ok.mp success
  obtain ⟨schemas, _, inserted⟩ := bind_eq_ok.mp inserted
  obtain ⟨dataFiles, dataFilesOk, persisted⟩ := bind_eq_ok.mp persisted
  obtain rfl := Except.ok.inj inserted
  exact ((insertUnique_eq_ok _ _ _ _ _).mp dataFilesOk).1

theorem entity_retire
    {α : Type}
    (snapshotId : Int)
    (selects : α → Bool)
    (rows : List (Versioned α)) :
    (Versioned.retire snapshotId selects rows).map Versioned.entity =
      rows.map Versioned.entity := by
  rw [Versioned.retire, List.map_map]
  exact List.map_congr_left fun row _ => Versioned.retireRow_entity snapshotId selects row

theorem entity_insertNew
    {α : Type}
    (snapshotId : Int)
    (rows : List (Versioned α))
    (entities : List α) :
    (insertNew snapshotId rows entities).map Versioned.entity =
      rows.map Versioned.entity ++ entities := by
  have new : Versioned.entity ∘ (Versioned.new snapshotId : α → Versioned α) = id := rfl
  rw [insertNew, List.map_append, List.map_map, new, List.map_id]

theorem detachTables_deletesHaveFiles
    (changes : TransactionChanges)
    (db : Database)
    (owned : DeletesHaveFiles (db.dataFiles.map Versioned.entity)
      (db.deleteFiles.map Versioned.entity)) :
    DeletesHaveFiles ((detachTables changes db).dataFiles.map Versioned.entity)
      ((detachTables changes db).deleteFiles.map Versioned.entity) := by
  intro delete member
  obtain ⟨row, kept, rfl⟩ := List.mem_map.mp member
  obtain ⟨stored, attached⟩ := List.mem_filter.mp kept
  obtain ⟨file, inside, ids, tables⟩ := owned row.entity (List.mem_map_of_mem stored)
  obtain ⟨fileRow, storedFile, rfl⟩ := List.mem_map.mp inside
  refine ⟨_, List.mem_map_of_mem (List.mem_filter.mpr ⟨storedFile, ?_⟩), ids, tables⟩
  rwa [tables]

theorem written_deletesHaveFiles
    (env : Environment)
    (state : CommitState)
    (changes : TransactionChanges)
    (db : Database)
    (owned : DeletesHaveFiles (db.dataFiles.map Versioned.entity)
      (db.deleteFiles.map Versioned.entity))
    (collected : DeletesHaveFiles changes.dataFiles changes.deleteFiles) :
    DeletesHaveFiles ((written env state changes db).dataFiles.map Versioned.entity)
      ((written env state changes db).deleteFiles.map Versioned.entity) := by
  have kept := (detachTables_deletesHaveFiles changes db owned).append collected
  unfold written persistStatistics retireRows
  dsimp only
  rwa [entity_insertNew, entity_insertNew, entity_retire, entity_retire]

theorem FilesOwned.committed
    {before : Database}
    (files : FilesOwned before)
    (env : Environment)
    (now : Int)
    (prepared : PreparedCommit)
    (after : Database)
    (collected : DeletesHaveFiles prepared.changes.dataFiles prepared.changes.deleteFiles)
    (success : persistCommit env now prepared before = .ok after) :
    FilesOwned after := by
  obtain ⟨rows, persisted, _, rfl⟩ := persistCommit_eq_ok env now prepared before after success
  have unique := persist_uniqueFiles env _ _ _ _ persisted
  have owned := written_deletesHaveFiles env prepared.state prepared.changes before files.owned
    collected
  have same := persist_same env _ _ _ _ persisted
  unfold SameExceptInlined at same
  rw [same]
  exact ⟨unique, owned⟩

end Ducklake.Transaction
