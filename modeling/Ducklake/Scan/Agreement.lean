import Ducklake.Scan.TableStatistics

/-!
# Statistics and scans

The statistics of a table are what a scan of the table adds up to.
-/

set_option autoImplicit false

namespace Ducklake

open Lib Spec

/-! ## What a scan adds up to -/

namespace ScanDataFile

def numDeletes (file : ScanDataFile) : Nat :=
  (file.deleteFiles.map ScanDeleteFile.numDeletes).sum + (file.inlineDeletes.getD []).length

end ScanDataFile

namespace ScanResult

def fileRows (scan : ScanResult) : Nat :=
  (scan.dataFiles.map fun file => file.statistics.numRows).sum

def deletedRows (scan : ScanResult) : Nat :=
  (scan.dataFiles.map ScanDataFile.numDeletes).sum

def inlineRows (scan : ScanResult) : Nat :=
  (scan.inlineData.map Io.RecordBatch.numRows).sum

def fileSizes (scan : ScanResult) : List (Option Nat) :=
  scan.dataFiles.map fun file => file.statistics.fileSizeBytes

def statistics (scan : ScanResult) : TableStatistics where
  numRows := scan.fileRows - scan.deletedRows + scan.inlineRows
  numInlineRows := scan.inlineRows
  numDeletedRows := scan.deletedRows
  numDataFiles := scan.dataFiles.length
  totalFileSizeBytes :=
    if none ∈ scan.fileSizes then none else some (scan.fileSizes.filterMap id).sum
  minFileSizeBytes := (scan.fileSizes.filterMap id).min?
  maxFileSizeBytes := (scan.fileSizes.filterMap id).max?

end ScanResult

namespace Scan

/-! ## The loops over results -/

theorem updateEach_get?
    {β : Type}
    (change : β → TableStatistics → TableStatistics)
    (before after : IndexMap Int TableStatistics)
    (updates : List (Int × β))
    (success : updateEach change before updates = .ok after)
    (id : Int) :
    after.get? id = (before.get? id).map fun value =>
      (updates.filter fun entry => entry.1 = id).foldl (fun value entry => change entry.2 value)
        value := by
  unfold updateEach at success
  split at success
  · rename_i stats updated
    obtain rfl := Except.ok.inj success
    exact get?_foldlM_update change updates before stats updated id
  · cases success

theorem fetchCounts_eq_ok
    (queries : List (DucklakeResult (Int × Nat)))
    (counts : List (Int × Nat))
    (success : fetchCounts queries = .ok counts) :
    List.Forall₂ (fun query count => query = .ok count) queries counts := by
  obtain ⟨results, run, rfl⟩ := map_eq_ok.mp success
  have all := mapM_flatten_eq_ok id _ results run
  rw [flatten_chunks] at all
  exact mapM_eq_ok.mp all

/-! ## Data files -/

theorem filter_of_mem
    {α : Type}
    (owner : α → Int)
    (rows : List α)
    (ids : List Int)
    (id : Int)
    (listed : id ∈ ids) :
    (rows.filter fun row => owner row ∈ ids).filter (fun row => owner row = id) =
      rows.filter fun row => owner row = id := by
  rw [List.filter_filter]
  refine List.filter_congr fun row _ => ?_
  by_cases own : owner row = id
  · simp [own, listed]
  · simp [own]

theorem filter_map_groupBy
    {α β : Type}
    (owner : α → Int)
    (rows : List α)
    (aggregate : List α → β)
    (id : Int) :
    ((groupBy owner rows).map fun group => (group.1, aggregate group.2)).filter
        (fun entry => entry.1 = id) =
      if rows.filter (fun row => owner row = id) = [] then []
      else [(id, aggregate (rows.filter fun row => owner row = id))] := by
  rw [List.filter_map]
  change ((groupBy owner rows).filter fun group => group.1 = id).map _ = _
  rw [filter_groupBy]
  split <;> rfl

/-- The part of the statistics that comes from the data files. -/
def fileStatistics (files : List DucklakeDataFile) : TableStatistics :=
  let sizes := files.map DucklakeDataFile.fileSizeBytes
  { noStatistics with
    numRows := (files.map DucklakeDataFile.recordCount).sum
    numDataFiles := files.length
    totalFileSizeBytes := if none ∈ sizes then none else some (sizes.filterMap id).sum
    minFileSizeBytes := (sizes.filterMap id).min?
    maxFileSizeBytes := (sizes.filterMap id).max? }

theorem length_filterMap_id (values : List (Option Nat)) :
    values.length = (values.filterMap id).length ↔ none ∉ values := by
  induction values with
  | nil => simp
  | cons value rest ih =>
      have shorter := List.length_filterMap_le (fun value : Option Nat => value) rest
      cases value with
      | none =>
          simp only [List.filterMap_cons, id, List.length_cons, List.mem_cons, true_or,
            not_true_eq_false, iff_false]
          omega
      | some number => simpa using ih

theorem setFiles_fileTotals
    (files : List DucklakeDataFile)
    (some_ : files ≠ []) :
    setFiles (fileTotals files) noStatistics = fileStatistics files := by
  have known := length_filterMap_id (files.map DucklakeDataFile.fileSizeBytes)
  rw [List.length_map] at known
  unfold setFiles fileTotals fileStatistics
  congr 1
  by_cases missing : none ∈ files.map DucklakeDataFile.fileSizeBytes
  · rw [if_pos missing, if_neg (fun same => known.mp same missing)]
  · have filled : (files.map DucklakeDataFile.fileSizeBytes).filterMap id ≠ [] := by
      intro empty
      have length := known.mpr missing
      rw [empty] at length
      exact some_ (List.length_eq_zero_iff.mp length)
    rw [if_neg missing, if_pos (known.mpr missing)]
    exact if_neg filled

theorem filesQuery_statistics
    (db : Database)
    (ids : List Int)
    (snapshotId id : Int)
    (listed : id ∈ ids) :
    ((filesQuery db ids snapshotId).filter fun entry => entry.1 = id).foldl
        (fun value entry => setFiles entry.2 value) noStatistics =
      fileStatistics (dataFilesQuery db id snapshotId) := by
  unfold filesQuery
  rw [filter_map_groupBy, filter_of_mem _ _ _ _ listed]
  change List.foldl _ _ (if dataFilesQuery db id snapshotId = [] then [] else
    [(id, fileTotals (dataFilesQuery db id snapshotId))]) = _
  split
  · rename_i nothing
    rw [nothing]
    rfl
  · rename_i some_
    exact setFiles_fileTotals _ some_

/-! ## Deletions -/

/-- A delete file belongs to the table of its data file. -/
def DeletesOwnFiles (db : Database) : Prop :=
  ∀ delete ∈ db.deleteFiles, ∀ file ∈ db.dataFiles,
    delete.entity.dataFileId = file.entity.dataFileId → delete.entity.tableId = file.entity.tableId

/-- The rows that the delete files of a data file remove. -/
def deletedByFiles (db : Database) (snapshotId tableId : Int) (file : DucklakeDataFile) : Nat :=
  (((deleteFilesQuery db tableId snapshotId).filter fun delete =>
    delete.dataFileId = file.dataFileId).map fun delete => delete.deleteCount.getD 0).sum

/-- The rows of a data file that are deleted in the catalog. -/
def deletedInline (db : Database) (snapshotId tableId : Int) (file : DucklakeDataFile) : Nat :=
  ((inlinedDeletesQuery db tableId snapshotId).filter fun row => row.fileId = file.dataFileId).length

theorem stored_of_mem_entitiesAt
    {α : Type}
    (snapshotId : Int)
    (rows : List (Versioned α))
    (entity : α)
    (visible : entity ∈ Versioned.entitiesAt snapshotId rows) :
    ∃ row ∈ rows, row.entity = entity := by
  obtain ⟨row, inside, rfl⟩ := List.mem_map.mp visible
  exact ⟨row, List.mem_of_mem_filter inside, rfl⟩

/-- The deletions that are joined with data files, counted file by file. -/
theorem sum_joinedDeletes
    (db : Database)
    (owned : DeletesOwnFiles db)
    (snapshotId id : Int) :
    ((innerJoin (fun (delete : DucklakeDeleteFile) (file : DucklakeDataFile) =>
        delete.dataFileId = file.dataFileId) (deleteFilesQuery db id snapshotId)
      (Versioned.entitiesAt snapshotId db.dataFiles)).map fun row => row.1.deleteCount.getD 0).sum =
        ((dataFilesQuery db id snapshotId).map (deletedByFiles db snapshotId id)).sum := by
  have own : ∀ delete ∈ deleteFilesQuery db id snapshotId,
      ((Versioned.entitiesAt snapshotId db.dataFiles).map fun file =>
          if decide (delete.dataFileId = file.dataFileId) then delete.deleteCount.getD 0 else 0).sum =
        ((dataFilesQuery db id snapshotId).map fun file =>
          if decide (delete.dataFileId = file.dataFileId) then delete.deleteCount.getD 0
          else 0).sum := by
    intro delete listed
    obtain ⟨visible, table⟩ := List.mem_filter.mp listed
    obtain ⟨row, stored, rfl⟩ := stored_of_mem_entitiesAt _ _ _ visible
    rw [dataFilesQuery, sum_filter]
    refine congrArg List.sum (List.map_congr_left fun file inside => ?_)
    obtain ⟨other, storedFile, rfl⟩ := stored_of_mem_entitiesAt _ _ _ inside
    by_cases same : row.entity.dataFileId = other.entity.dataFileId
    · have tables := owned row stored other storedFile same
      rw [if_pos (decide_eq_true same), if_pos (decide_eq_true (by simpa [tables] using table))]
    · rw [if_neg (by simpa using same)]
      split <;> rfl
  refine (sum_innerJoin _ _ _ fun (delete : DucklakeDeleteFile) _ =>
    delete.deleteCount.getD 0).trans ?_
  rw [List.map_congr_left own, sum_comm]
  refine congrArg List.sum (List.map_congr_left fun file _ => ?_)
  exact (sum_filter (deleteFilesQuery db id snapshotId) _ _).symm

theorem deletesQuery_statistics
    (db : Database)
    (owned : DeletesOwnFiles db)
    (ids : List Int)
    (snapshotId id : Int)
    (listed : id ∈ ids)
    (entry : TableStatistics)
    (unset : entry.numDeletedRows = 0) :
    ((deletesQuery db ids snapshotId).filter fun update => update.1 = id).foldl
        (fun value update => setDeletes update.2 value) entry =
      { entry with numDeletedRows :=
        ((dataFilesQuery db id snapshotId).map (deletedByFiles db snapshotId id)).sum } := by
  have joined := sum_joinedDeletes db owned snapshotId id
  have part : (innerJoin (fun (delete : DucklakeDeleteFile) (file : DucklakeDataFile) =>
        delete.dataFileId = file.dataFileId)
      ((Versioned.entitiesAt snapshotId db.deleteFiles).filter fun file => file.tableId ∈ ids)
      (Versioned.entitiesAt snapshotId db.dataFiles)).filter (fun row => row.1.tableId = id) =
        innerJoin (fun delete file => delete.dataFileId = file.dataFileId)
          (deleteFilesQuery db id snapshotId) (Versioned.entitiesAt snapshotId db.dataFiles) := by
    refine (filter_innerJoin _ _ _ fun (delete : DucklakeDeleteFile) =>
      decide (delete.tableId = id)).trans ?_
    rw [filter_of_mem DucklakeDeleteFile.tableId _ _ _ listed]
    rfl
  have group := filter_map_groupBy
    (fun row : DucklakeDeleteFile × DucklakeDataFile => row.1.tableId)
    (innerJoin (fun (delete : DucklakeDeleteFile) (file : DucklakeDataFile) =>
        delete.dataFileId = file.dataFileId)
      ((Versioned.entitiesAt snapshotId db.deleteFiles).filter fun file => file.tableId ∈ ids)
      (Versioned.entitiesAt snapshotId db.dataFiles))
    (fun rows => sumOf (rows.map fun row => row.1.deleteCount)) id
  rw [part] at group
  refine (congrArg (List.foldl _ entry) group).trans ?_
  rw [← joined]
  split
  · rename_i nothing
    rw [nothing]
    exact TableStatistics.ext rfl rfl unset rfl rfl rfl rfl
  · refine TableStatistics.ext rfl rfl ?_ rfl rfl rfl rfl
    refine (sumOf_getD _).trans ?_
    rw [List.map_map]
    rfl

theorem inlineDeletesCount_eq
    (db : Database)
    (snapshotId id : Int) :
    inlineDeletesCount db snapshotId id =
      (id, ((dataFilesQuery db id snapshotId).map (deletedInline db snapshotId id)).sum) := by
  have ones : ∀ {α : Type} (rows : List α), (rows.map fun _ => 1).sum = rows.length := by simp
  have joined := sum_innerJoin
    (fun (row : DucklakeInlinedDelete) (file : DucklakeDataFile) =>
      decide (row.fileId = file.dataFileId))
    (inlinedDeletesQuery db id snapshotId) (dataFilesQuery db id snapshotId) fun _ _ => 1
  rw [sum_comm, ones] at joined
  unfold inlineDeletesCount
  rw [joined]
  refine congrArg (Prod.mk id) (congrArg List.sum (List.map_congr_left fun file _ => ?_))
  rw [deletedInline, ← ones, ← sum_filter]

/-! ## The statistics of one table -/

/-- The statistics of a table from its data files, the deletions in them and its inline rows. -/
def tableTotals (files : List DucklakeDataFile) (deleted inlineRows : Nat) : TableStatistics :=
  countRows { fileStatistics files with numInlineRows := inlineRows, numDeletedRows := deleted }

def deletedRows (db : Database) (snapshotId tableId : Int) : Nat :=
  ((dataFilesQuery db tableId snapshotId).map fun file =>
    deletedByFiles db snapshotId tableId file + deletedInline db snapshotId tableId file).sum

theorem foldl_addInlineRows (updates : List (Int × Nat)) (entry : TableStatistics) :
    updates.foldl (fun value update => addInlineRows update.2 value) entry =
      { entry with numInlineRows := entry.numInlineRows + (updates.map Prod.snd).sum } := by
  induction updates generalizing entry with
  | nil => rfl
  | cons update rest ih =>
      rw [List.foldl_cons, ih, List.map_cons, List.sum_cons, ← Nat.add_assoc]
      rfl

theorem foldl_addDeletes (updates : List (Int × Nat)) (entry : TableStatistics) :
    updates.foldl (fun value update => addDeletes update.2 value) entry =
      { entry with numDeletedRows := entry.numDeletedRows + (updates.map Prod.snd).sum } := by
  induction updates generalizing entry with
  | nil => rfl
  | cons update rest ih =>
      rw [List.foldl_cons, ih, List.map_cons, List.sum_cons, ← Nat.add_assoc]
      rfl

theorem inlineCounts_of_table
    (db : Database)
    (ids : List Int)
    (snapshotId id : Int)
    (listed : id ∈ ids)
    (counts : List (Int × Nat))
    (success : fetchCounts ((inlineQuery db ids).map (inlineCount db snapshotId)) = .ok counts) :
    (inlinedDataTablesQuery db id).mapM (inlineCount db snapshotId) =
      .ok (counts.filter fun count => count.1 = id) := by
  have all := List.forall₂_map_left_iff.mp (fetchCounts_eq_ok _ _ success)
  have own : inlinedDataTablesQuery db id =
      (inlineQuery db ids).filter fun table => table.tableId = id :=
    (filter_of_mem DucklakeInlinedDataTables.tableId _ _ _ listed).symm
  rw [own]
  refine mapM_eq_ok.mpr ?_
  clear own success
  generalize inlineQuery db ids = tables at all
  induction all with
  | nil => exact .nil
  | @cons table count tables counts counted _ ih =>
      obtain ⟨stored, _, rfl⟩ := map_eq_ok.mp counted
      by_cases same : table.tableId = id
      · subst same
        simpa using ⟨counted, ih⟩
      · simpa [same] using ih

/-- What `inline_deletes` counts for one table: nothing is skipped that would count. -/
theorem sum_inlineDeletes
    (db : Database)
    (ids : List Int)
    (unique : ids.Nodup)
    (snapshotId id : Int)
    (listed : id ∈ ids)
    (stats : IndexMap Int TableStatistics)
    (entry : TableStatistics)
    (found : stats.get? id = some entry)
    (files : entry.numDataFiles = (dataFilesQuery db id snapshotId).length)
    (counts : List (Int × Nat))
    (success : fetchCounts (inlineDeletes db ids snapshotId stats) = .ok counts) :
    ((counts.filter fun count => count.1 = id).map Prod.snd).sum =
      ((dataFilesQuery db id snapshotId).map (deletedInline db snapshotId id)).sum := by
  have all := List.forall₂_map_left_iff.mp (fetchCounts_eq_ok _ _ success)
  have results := List.forall₂_map_left_iff.mpr (all.imp fun _ _ => Except.ok.inj)
  rw [List.forall₂_eq_eq_eq] at results
  rw [← results, List.filter_map]
  change (List.map _ (List.map _ (List.filter (fun other => other = id) _))).sum = _
  rw [filter_eq_of_nodup _ (unique.filter _)]
  split
  · exact congrArg Prod.snd (inlineDeletesCount_eq db snapshotId id)
  · rename_i skipped
    have none_ : ∀ file ∈ dataFilesQuery db id snapshotId, deletedInline db snapshotId id file = 0 := by
      intro file scanned
      have counted : entry.numDataFiles ≠ 0 := by
        rw [files]
        exact Nat.ne_zero_of_lt (List.length_pos_of_mem scanned)
      have missing : ¬ db.inlinedDeletes.any (fun table => table.1 = id) = true := by
        intro exists_
        exact skipped (List.mem_filter.mpr ⟨listed, by simp [found, counted, exists_]⟩)
      have nothing : inlinedDeletesQuery db id snapshotId = [] := by
        have empty : (db.inlinedDeletes.filter fun table => table.1 = id) = [] :=
          List.filter_eq_nil_iff.mpr fun table stored own =>
            missing (List.any_eq_true.mpr ⟨table, stored, own⟩)
        rw [inlinedDeletesQuery, empty]
        rfl
      rw [deletedInline, nothing]
      rfl
    simp [List.map_congr_left none_]

theorem get?_ofList_map
    (ids : List Int)
    (id : Int)
    (listed : id ∈ ids) :
    (IndexMap.ofList (ids.map fun id => (id, noStatistics))).get? id = some noStatistics := by
  refine (IndexMap.get?_ofList_of_functional _ ?_ _ _).mpr (List.mem_map_of_mem listed)
  intro entry inside other otherInside _
  obtain ⟨_, _, rfl⟩ := List.mem_map.mp inside
  obtain ⟨_, _, rfl⟩ := List.mem_map.mp otherInside
  rfl

theorem get?_countRows
    (stats : IndexMap Int TableStatistics)
    (id : Int) :
    (IndexMap.ofList (stats.entries.map fun entry => (entry.1, countRows entry.2))).get? id =
      (stats.get? id).map countRows := by
  have keys : ((stats.entries.map fun entry => (entry.1, countRows entry.2)).map Prod.fst).Nodup := by
    rw [List.map_map]
    exact stats.unique
  rw [IndexMap.get?, IndexMap.ofList_entries_of_nodup _ keys, List.find?_map, IndexMap.get?]
  change ((stats.entries.find? fun entry => entry.1 = id).map _).map _ = _
  rw [Option.map_map, Option.map_map]
  rfl

theorem loadStatistics_get?
    (db : Database)
    (owned : DeletesOwnFiles db)
    (ids : List Int)
    (unique : ids.Nodup)
    (snapshotId : Int)
    (stats : IndexMap Int TableStatistics)
    (success : loadStatistics db ids snapshotId = .ok stats)
    (id : Int)
    (listed : id ∈ ids) :
    ∃ counts, (inlinedDataTablesQuery db id).mapM (inlineCount db snapshotId) = .ok counts ∧
      stats.get? id = some (tableTotals (dataFilesQuery db id snapshotId)
        (deletedRows db snapshotId id) (counts.map Prod.snd).sum) := by
  obtain ⟨withFiles, filesSet, success⟩ := bind_eq_ok.mp success
  obtain ⟨withDeletes, deletesSet, success⟩ := bind_eq_ok.mp success
  obtain ⟨counts, counted, success⟩ := bind_eq_ok.mp success
  obtain ⟨withRows, rowsAdded, success⟩ := bind_eq_ok.mp success
  have files : withFiles.get? id = some (fileStatistics (dataFilesQuery db id snapshotId)) := by
    rw [updateEach_get? _ _ _ _ filesSet, get?_ofList_map ids id listed, Option.map_some,
      filesQuery_statistics db ids snapshotId id listed]
  have deletes := updateEach_get? _ _ _ _ deletesSet id
  rw [files, Option.map_some, deletesQuery_statistics db owned ids snapshotId id listed _ rfl]
    at deletes
  have rows : withRows.get? id = some { fileStatistics (dataFilesQuery db id snapshotId) with
      numInlineRows := ((counts.filter fun count => count.1 = id).map Prod.snd).sum
      numDeletedRows :=
        ((dataFilesQuery db id snapshotId).map (deletedByFiles db snapshotId id)).sum } := by
    rw [updateEach_get? _ _ _ _ rowsAdded, deletes, Option.map_some, foldl_addInlineRows]
    exact congrArg some (TableStatistics.ext rfl (Nat.zero_add _) rfl rfl rfl rfl rfl)
  refine ⟨_, inlineCounts_of_table db ids snapshotId id listed counts counted, ?_⟩
  have complete : stats.get? id = (withRows.get? id).map fun entry => countRows
      (addDeletes ((dataFilesQuery db id snapshotId).map (deletedInline db snapshotId id)).sum
        entry) := by
    dsimp only at success
    split at success
    · obtain ⟨deleteCounts, deletesCounted, success⟩ := bind_eq_ok.mp success
      obtain ⟨complete, deletesAdded, success⟩ := bind_eq_ok.mp success
      obtain rfl := Except.ok.inj success
      have sum := sum_inlineDeletes db ids unique snapshotId id listed withRows _ rows rfl
        deleteCounts deletesCounted
      rw [get?_countRows, updateEach_get? _ _ _ _ deletesAdded, Option.map_map, ← sum, rows]
      exact congrArg (fun entry => some (countRows entry)) (foldl_addDeletes _ _)
    · rename_i noFiles
      obtain rfl := Except.ok.inj success
      have nothing : dataFilesQuery db id snapshotId = [] := by
        by_contra scanned
        have inside := List.mem_map_of_mem (f := Prod.snd)
          ((IndexMap.get?_eq_some_iff _ _ _).mp rows)
        exact noFiles (List.any_eq_true.mpr
          ⟨_, inside, decide_eq_true (List.length_pos_iff.mpr scanned)⟩)
      rw [get?_countRows, rows, nothing]
      rfl
  rw [complete, rows, Option.map_some, deletedRows, List.sum_map_add]
  rfl

theorem get?_updateEach_eq_none
    {β : Type}
    (change : β → TableStatistics → TableStatistics)
    (before after : IndexMap Int TableStatistics)
    (updates : List (Int × β))
    (success : updateEach change before updates = .ok after)
    (id : Int)
    (absent : before.get? id = none) :
    after.get? id = none := by
  rw [updateEach_get? _ _ _ _ success, absent]
  rfl

theorem mem_of_loadStatistics
    (db : Database)
    (ids : List Int)
    (snapshotId : Int)
    (stats : IndexMap Int TableStatistics)
    (success : loadStatistics db ids snapshotId = .ok stats)
    (id : Int)
    (entry : TableStatistics)
    (found : stats.get? id = some entry) :
    id ∈ ids := by
  by_contra other
  obtain ⟨withFiles, filesSet, success⟩ := bind_eq_ok.mp success
  obtain ⟨withDeletes, deletesSet, success⟩ := bind_eq_ok.mp success
  obtain ⟨counts, _, success⟩ := bind_eq_ok.mp success
  obtain ⟨withRows, rowsAdded, success⟩ := bind_eq_ok.mp success
  have initial : (IndexMap.ofList (ids.map fun id => (id, noStatistics))).get? id = none := by
    refine (IndexMap.get?_eq_none_iff _ _).mpr fun member => ?_
    rcases (IndexMap.mem_keys_foldl_insert _ _ _).mp member with inside | impossible
    · rw [List.map_map] at inside
      obtain ⟨_, listed, rfl⟩ := List.mem_map.mp inside
      exact other listed
    · cases impossible
  have rows := get?_updateEach_eq_none _ _ _ _ rowsAdded id
    (get?_updateEach_eq_none _ _ _ _ deletesSet id
      (get?_updateEach_eq_none _ _ _ _ filesSet id initial))
  dsimp only at success
  split at success
  · obtain ⟨deleteCounts, _, success⟩ := bind_eq_ok.mp success
    obtain ⟨complete, deletesAdded, success⟩ := bind_eq_ok.mp success
    obtain rfl := Except.ok.inj success
    rw [get?_countRows, get?_updateEach_eq_none _ _ _ _ deletesAdded id rows] at found
    cases found
  · obtain rfl := Except.ok.inj success
    rw [get?_countRows, rows] at found
    cases found

/-! ## Listings -/

/-- Every table has the statistics in the map, and no table is listed twice. -/
theorem takeStatistics_spec
    (statistics : IndexMap Int TableStatistics)
    (tables : List Table)
    (listing : List (Table × TableStatistics))
    (success : takeStatistics statistics tables = .ok listing) :
    listing.map Prod.fst = tables ∧ (tables.map Table.id).Nodup ∧
      ∀ entry ∈ listing, statistics.get? entry.1.id = some entry.2 := by
  induction tables generalizing statistics listing with
  | nil =>
      obtain rfl := Except.ok.inj success
      exact ⟨rfl, List.nodup_nil, by simp⟩
  | cons table rest ih =>
      unfold takeStatistics at success
      cases found : statistics.get? table.id with
      | none =>
          rw [found] at success
          cases success
      | some stats =>
          rw [found] at success
          obtain ⟨others, taken, rfl⟩ := map_eq_ok.mp success
          obtain ⟨same, unique, reported⟩ := ih _ others taken
          have apart : ∀ entry ∈ others, entry.1.id ≠ table.id ∧
              statistics.get? entry.1.id = some entry.2 := by
            intro entry listed
            have left := reported entry listed
            rw [IndexMap.get?_erase] at left
            split at left
            · cases left
            · rename_i distinct
              exact ⟨distinct, left⟩
          refine ⟨congrArg (table :: ·) same, List.nodup_cons.mpr ⟨?_, unique⟩, ?_⟩
          · intro twice
            rw [← same, List.map_map] at twice
            obtain ⟨entry, listed, equal⟩ := List.mem_map.mp twice
            exact (apart entry listed).1 equal
          · intro entry listed
            rcases List.mem_cons.mp listed with rfl | later
            · exact found
            · exact (apart entry later).2

theorem listTablesWithStatistics_spec
    (db : Database)
    (owned : DeletesOwnFiles db)
    (catalog : Catalog)
    (snapshotId : Int)
    (schema : Option Text)
    (listing : List (Table × TableStatistics))
    (success : listTablesWithStatistics db catalog snapshotId schema = .ok listing) :
    listTablesFromCatalog catalog schema = .ok (listing.map Prod.fst) ∧
      ∀ entry ∈ listing, ∃ counts,
        (inlinedDataTablesQuery db entry.1.id).mapM (inlineCount db snapshotId) = .ok counts ∧
          entry.2 = tableTotals (dataFilesQuery db entry.1.id snapshotId)
            (deletedRows db snapshotId entry.1.id) (counts.map Prod.snd).sum := by
  obtain ⟨tables, listed, success⟩ := bind_eq_ok.mp success
  obtain ⟨batches, loaded, taken⟩ := bind_eq_ok.mp success
  obtain ⟨same, unique, reported⟩ := takeStatistics_spec _ _ _ taken
  refine ⟨same ▸ listed, fun entry inside => ?_⟩
  have merged := (IndexMap.get?_eq_some_iff _ _ _).mp (reported entry inside)
  rcases IndexMap.mem_foldl_insert _ _ _ merged with member | impossible
  · obtain ⟨batch, loadedBatch, stored⟩ := List.mem_flatMap.mp member
    obtain ⟨ids, chunk, success⟩ := item_of_mem_mapM _ _ _ loaded batch loadedBatch
    have found := (IndexMap.get?_eq_some_iff _ _ _).mpr stored
    have uniqueChunk : ids.Nodup := by
      rw [← flatten_chunks batchSize (tables.map Table.id)] at unique
      exact (List.nodup_flatten.mp unique).1 ids chunk
    obtain ⟨counts, counted, totals⟩ := loadStatistics_get? db owned ids uniqueChunk snapshotId batch
      success entry.1.id (mem_of_loadStatistics db ids snapshotId batch success _ _ found)
    exact ⟨counts, counted, Option.some.inj (found.symm.trans totals)⟩
  · cases impossible

/-! ## What a scan finds -/

section

variable {U : Type} (env : Environment) (urls : Io.Urls U)

theorem inlineCount_of_readInlinedData
    (db : Database)
    (info : Transaction.SnapshotInfo)
    (tableId : Int)
    (targetSchema : Schema)
    (table : DucklakeInlinedDataTables)
    (batch : Io.RecordBatch)
    (success : readInlinedData env db info tableId targetSchema table = .ok batch) :
    inlineCount db info.id table = .ok (table.tableId, batch.numRows) := by
  obtain ⟨written, _, success⟩ := bind_eq_ok.mp success
  obtain ⟨catalog, _, success⟩ := bind_eq_ok.mp success
  obtain ⟨tableRef, _, success⟩ := bind_eq_ok.mp success
  obtain ⟨stored, found, success⟩ := bind_eq_ok.mp success
  obtain ⟨rows, fetched, matched⟩ := bind_eq_ok.mp success
  rw [inlineCount, found, Io.matchRows_numRows env _ _ _ matched,
    Io.fetchAllArrow_numRows _ _ _ _ fetched]
  rfl

theorem scanDataFile_spec
    (db : Database)
    (tableId snapshotId : Int)
    (columnDtypes : IndexMap Int DataType)
    (basePath : Io.DucklakePath U)
    (columnStats : IndexMap Int (List DucklakeFileColumnStats))
    (file : DucklakeDataFile)
    (scanned : ScanDataFile)
    (success : scanDataFile env urls columnDtypes basePath columnStats
      (collectBy DucklakeDeleteFile.dataFileId (deleteFilesQuery db tableId snapshotId))
      (collectBy DucklakeInlinedDelete.fileId (inlinedDeletesQuery db tableId snapshotId)) file =
        .ok scanned) :
    scanned.statistics.numRows = file.recordCount ∧
      scanned.statistics.fileSizeBytes = file.fileSizeBytes ∧
      scanned.numDeletes = deletedByFiles db snapshotId tableId file +
        deletedInline db snapshotId tableId file := by
  obtain ⟨⟨path, statistics⟩, parsed, success⟩ := bind_eq_ok.mp success
  obtain ⟨deleteFiles, deletes, success⟩ := bind_eq_ok.mp success
  obtain rfl := Except.ok.inj success
  obtain ⟨stats, _, parsed⟩ := bind_eq_ok.mp parsed
  obtain ⟨_, _, parsed⟩ := bind_eq_ok.mp parsed
  obtain ⟨rfl, rfl⟩ := Prod.mk.inj (Except.ok.inj parsed)
  refine ⟨rfl, rfl, ?_⟩
  have counts : deleteFiles.map ScanDeleteFile.numDeletes =
      ((deleteFilesQuery db tableId snapshotId).filter fun delete =>
        delete.dataFileId = file.dataFileId).map fun delete => delete.deleteCount.getD 0 := by
    rw [← get?_collectBy]
    refine map_eq_map_of_mapM _ _ _ deletes _ _ fun delete parsed success => ?_
    obtain ⟨_, _, success⟩ := bind_eq_ok.mp success
    obtain rfl := Except.ok.inj success
    rfl
  have rows : ∀ found : Option (List DucklakeInlinedDelete),
      ((found.map fun rows => rows.map DucklakeInlinedDelete.rowId).getD []).length =
        (found.getD []).length := by
    intro found
    cases found with
    | none => rfl
    | some rows => exact List.length_map _
  unfold ScanDataFile.numDeletes deletedByFiles deletedInline
  rw [rows, get?_collectBy, counts]

theorem scanTable_statistics
    (db : Database)
    (info : Transaction.SnapshotInfo)
    (catalog : Catalog)
    (dataPath : Io.DucklakePath U)
    (tableId : Int)
    (scan : ScanResult)
    (success : scanTable env urls db info catalog dataPath tableId = .ok scan)
    (counts : List (Int × Nat))
    (counted : (inlinedDataTablesQuery db tableId).mapM (inlineCount db info.id) = .ok counts) :
    scan.statistics = tableTotals (dataFilesQuery db tableId info.id)
      (deletedRows db info.id tableId) (counts.map Prod.snd).sum := by
  obtain ⟨tableRef, _, success⟩ := bind_eq_ok.mp success
  obtain ⟨inlineData, rowsRead, success⟩ := bind_eq_ok.mp success
  obtain ⟨dataFiles, filesRead, success⟩ := bind_eq_ok.mp success
  obtain rfl := Except.ok.inj success
  have inlineRows : ((inlineData.filter fun batch => 0 < batch.numRows).map
      Io.RecordBatch.numRows).sum = (counts.map Prod.snd).sum := by
    have visible : ∀ table count, inlineCount db info.id table = .ok count →
        count.2 = ((inlineCount db info.id table).toOption.map Prod.snd).getD 0 := by
      intro table count success
      rw [success]
      rfl
    have read := map_eq_map_of_mapM _ _ _ rowsRead Io.RecordBatch.numRows
      (fun table => ((inlineCount db info.id table).toOption.map Prod.snd).getD 0)
      fun table batch success =>
        visible table _ (inlineCount_of_readInlinedData env db info tableId _ table batch success)
    have present : ∀ batch ∈ inlineData,
        (if decide (0 < batch.numRows) then batch.numRows else 0) = batch.numRows := by
      intro batch _
      by_cases empty : 0 < batch.numRows
      · rw [if_pos (decide_eq_true empty)]
      · rw [if_neg (by simpa using empty)]
        omega
    rw [sum_filter, List.map_congr_left present, read,
      map_eq_map_of_mapM _ _ _ counted Prod.snd _ visible]
  have rows : dataFiles.map (fun file => file.statistics.numRows) =
      (dataFilesQuery db tableId info.id).map DucklakeDataFile.recordCount :=
    map_eq_map_of_mapM _ _ _ filesRead _ _ fun file scanned success =>
      (scanDataFile_spec env urls db tableId info.id _ _ _ file scanned success).1
  have sizes : dataFiles.map (fun file => file.statistics.fileSizeBytes) =
      (dataFilesQuery db tableId info.id).map DucklakeDataFile.fileSizeBytes :=
    map_eq_map_of_mapM _ _ _ filesRead _ _ fun file scanned success =>
      (scanDataFile_spec env urls db tableId info.id _ _ _ file scanned success).2.1
  have deletes : dataFiles.map ScanDataFile.numDeletes =
      (dataFilesQuery db tableId info.id).map fun file =>
        deletedByFiles db info.id tableId file + deletedInline db info.id tableId file :=
    map_eq_map_of_mapM _ _ _ filesRead _ _ fun file scanned success =>
      (scanDataFile_spec env urls db tableId info.id _ _ _ file scanned success).2.2
  have count : dataFiles.length = (dataFilesQuery db tableId info.id).length := by
    simpa using congrArg List.length rows
  refine TableStatistics.ext ?_ inlineRows (congrArg List.sum deletes) count ?_ ?_ ?_
  · have difference : ∀ rows deleted added : Int, rows - deleted + added =
        rows + (added - deleted) := by omega
    refine Eq.trans ?_ (difference _ _ _)
    unfold ScanResult.statistics ScanResult.fileRows ScanResult.deletedRows ScanResult.inlineRows
    dsimp only
    rw [rows, deletes, inlineRows]
    rfl
  · exact congrArg (fun sizes : List (Option Nat) =>
      if none ∈ sizes then none else some (sizes.filterMap id).sum) sizes
  · exact congrArg (fun sizes : List (Option Nat) => (sizes.filterMap id).min?) sizes
  · exact congrArg (fun sizes : List (Option Nat) => (sizes.filterMap id).max?) sizes

end

end Scan

end Ducklake
