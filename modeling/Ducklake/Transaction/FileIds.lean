import Ducklake.Transaction.FileOwners
import Ducklake.Transaction.NewIds

/-!
# File ids

Data files and delete files take their ids from one counter, so no two files of a catalog share an
id.
-/

set_option autoImplicit false

namespace Ducklake

open Lib Spec

def Spec.Database.fileIds (db : Database) : List Int :=
  db.dataFiles.map (fun row => row.entity.dataFileId) ++
    db.deleteFiles.map fun row => row.entity.deleteFileId

namespace Transaction

open Caches CommitState

def TransactionChanges.fileIds (rows : TransactionChanges) : List Int :=
  rows.dataFiles.map DucklakeDataFile.dataFileId ++
    rows.deleteFiles.map DucklakeDeleteFile.deleteFileId

/-! ## Ids of a counter -/

structure FromCounter (first limit : Int) (ids : List Int) : Prop where
  distinct : ids.Nodup
  given : ∀ id ∈ ids, Given first limit id

section

variable {first limit later : Int} {ids others : List Int}

theorem fromCounter_nil (first limit : Int) : FromCounter first limit [] :=
  ⟨List.nodup_nil, by simp⟩

theorem FromCounter.mono
    (counted : FromCounter first limit ids)
    (grows : limit ≤ later) :
    FromCounter first later ids :=
  ⟨counted.distinct, fun id member => (counted.given id member).mono grows⟩

theorem FromCounter.perm
    (counted : FromCounter first limit ids)
    (rearranged : ids.Perm others) :
    FromCounter first limit others :=
  ⟨rearranged.nodup_iff.mp counted.distinct, fun id member =>
    counted.given id (rearranged.mem_iff.mpr member)⟩

theorem FromCounter.next
    (counted : FromCounter first limit ids)
    (started : first ≤ limit) :
    FromCounter first (limit + 1) (limit :: ids) := by
  constructor
  · refine List.nodup_cons.mpr ⟨fun member => ?_, counted.distinct⟩
    have below := (counted.given limit member).2
    omega
  · intro id member
    rcases List.mem_cons.mp member with rfl | old
    · exact ⟨started, by omega⟩
    · exact (counted.given id old).mono (by omega)

/-- A counter that starts where another one has stopped gives out other ids. -/
theorem FromCounter.append
    {start : Int}
    (counted : FromCounter start first ids)
    (fresh : FromCounter first limit others)
    (started : start ≤ first)
    (grows : first ≤ limit) :
    FromCounter start limit (ids ++ others) := by
  constructor
  · refine List.nodup_append.mpr ⟨counted.distinct, fresh.distinct, ?_⟩
    rintro id old _ new rfl
    have below := (counted.given id old).2
    have above := (fresh.given id new).1
    omega
  · intro id member
    rcases List.mem_append.mp member with old | new
    · exact (counted.given id old).mono grows
    · have given := fresh.given id new
      exact ⟨Int.le_trans started given.1, given.2⟩

theorem FromCounter.sublist
    (counted : FromCounter first limit ids)
    (kept : others.Sublist ids) :
    FromCounter first limit others :=
  ⟨counted.distinct.sublist kept, fun id member => counted.given id (kept.subset member)⟩

end

/-! ## Collected files -/

theorem foldl_addDeleteFile_fileIds
    (tableId fileId first : Int)
    (dataIds : List Int)
    (files : List CommitDeleteFile)
    (collected : List DucklakeDeleteFile × CommitState)
    (started : first ≤ collected.2.nextFileId)
    (counted : FromCounter first collected.2.nextFileId
      (dataIds ++ collected.1.map DucklakeDeleteFile.deleteFileId)) :
    FromCounter first (files.foldl (Executors.addDeleteFile tableId fileId) collected).2.nextFileId
      (dataIds ++ (files.foldl (Executors.addDeleteFile tableId fileId) collected).1.map
        DucklakeDeleteFile.deleteFileId) := by
  induction files generalizing collected with
  | nil => exact counted
  | cons file rest ih =>
      refine ih (Executors.addDeleteFile tableId fileId collected file) ?_ ?_
      · change first ≤ collected.2.nextFileId + 1
        omega
      · refine (counted.next started).perm ?_
        unfold Executors.addDeleteFile
        rw [List.map_append, ← List.append_assoc]
        exact (List.perm_append_singleton _ _).symm

theorem addDataFile_fileIds
    (env : Environment)
    (tableRef : TableRef)
    (tableId first : Int)
    (before after : TransactionChanges × CommitState)
    (file : CommitDataFile)
    (started : first ≤ before.2.nextFileId)
    (counted : FromCounter first before.2.nextFileId before.1.fileIds)
    (success : Executors.addDataFile env tableRef tableId before file = .ok after) :
    FromCounter first after.2.nextFileId after.1.fileIds := by
  obtain ⟨partitioned, located, success⟩ := bind_eq_ok.mp success
  obtain rfl := Except.ok.inj success
  have grows : before.2.nextFileId + 1 ≤ partitioned.2.nextFileId :=
    (Executors.filePartitionId_extends _ tableRef file _ located).nextFileId
  unfold TransactionChanges.fileIds at counted ⊢
  have stays : first ≤ partitioned.2.nextFileId := by omega
  refine foldl_addDeleteFile_fileIds tableId before.2.fileId.1 first _ file.deleteFiles
    (before.1.deleteFiles, partitioned.2) stays ?_
  refine ((counted.next started).mono grows).perm ?_
  rw [List.map_append]
  exact (List.perm_append_singleton before.2.nextFileId _).symm.append_right _

theorem Collects.fileIds
    {env : Environment}
    {changes : List Change}
    {before after : TransactionChanges × CommitState}
    {first : Int}
    (started : first ≤ before.2.nextFileId)
    (counted : FromCounter first before.2.nextFileId before.1.fileIds)
    (step : Collects env changes before after) :
    FromCounter first after.2.nextFileId after.1.fileIds := by
  have grown := counted.mono step.extends.nextFileId
  cases step with
  | wroteFile _ _ _ success =>
      exact addDataFile_fileIds env _ _ first _ _ _ started counted success
  | inlined =>
      unfold Executors.createInlinedTable at grown ⊢
      dsimp only at grown ⊢
      split at grown <;> rename_i supported
      · rw [if_pos supported]
        exact grown
      · rw [if_neg supported]
        exact grown
  | _ => exact grown

theorem prepareCommit_fileIds
    (env : Environment)
    (set : ChangeSet)
    (state : CommitState)
    (prepared : PreparedCommit)
    (present : ∀ change ∈ set.changes, ∀ key ∈ change.objects, state.catalog.Has key)
    (success : prepareCommit env set state = .ok prepared) :
    FromCounter state.nextFileId prepared.state.nextFileId prepared.changes.fileIds := by
  obtain ⟨applied, executed, _, later⟩ := prepareCommit_eq_ok env set state prepared success
  have collected := set.apply_collected env state _ present executed
  have run : ∀ {result}, Collected env set.changes (.empty, state) result →
      state.nextFileId ≤ result.2.nextFileId ∧
        FromCounter state.nextFileId result.2.nextFileId result.1.fileIds := by
    intro result steps
    induction steps with
    | refl => exact ⟨Int.le_refl _, fromCounter_nil _ _⟩
    | tail _ step ih =>
        exact ⟨Int.le_trans ih.1 step.extends.nextFileId, step.fileIds ih.1 ih.2⟩
  exact (run collected).2.mono
    ((set.appliedChangeSet_extends applied).trans later).nextFileId

/-! ## Stored files -/

theorem map_entity
    {α β : Type}
    (rows : List (Versioned α))
    (key : α → β) :
    rows.map (fun row => key row.entity) = (rows.map Versioned.entity).map key := by
  rw [List.map_map]
  rfl

/-- A commit keeps the ids of the files that it does not detach, and adds those of its own. -/
theorem written_fileIds
    (env : Environment)
    (state : CommitState)
    (changes : TransactionChanges)
    (db : Database) :
    (written env state changes db).fileIds.Perm
      ((detachTables changes db).fileIds ++ changes.fileIds) := by
  unfold Database.fileIds TransactionChanges.fileIds written persistStatistics retireRows
  dsimp only
  rw [map_entity, map_entity, map_entity, map_entity, entity_insertNew, entity_insertNew,
    entity_retire, entity_retire, List.map_append, List.map_append]
  simpa only [List.append_assoc] using (List.perm_append_comm_assoc _ _ _).append_left _

theorem detachTables_fileIds
    (changes : TransactionChanges)
    (db : Database) :
    (detachTables changes db).fileIds.Sublist db.fileIds :=
  (List.filter_sublist.map _).append (List.filter_sublist.map _)

theorem persistCommit_fileIds
    (env : Environment)
    (now limit : Int)
    (prepared : PreparedCommit)
    (before after : Database)
    (counted : FromCounter 0 limit before.fileIds)
    (collected : FromCounter limit prepared.state.nextFileId prepared.changes.fileIds)
    (positive : 0 ≤ limit)
    (grows : limit ≤ prepared.state.nextFileId)
    (success : persistCommit env now prepared before = .ok after) :
    FromCounter 0 prepared.state.nextFileId after.fileIds := by
  have same := persistCommit_same env now prepared before after success
  unfold SameExceptSnapshots at same
  have ids : after.fileIds = (written env prepared.state prepared.changes before).fileIds := by
    rw [same]
    rfl
  rw [ids]
  refine FromCounter.perm ?_ (written_fileIds env _ _ before).symm
  exact (counted.sublist (detachTables_fileIds _ before)).append collected positive grows

end Transaction

end Ducklake
