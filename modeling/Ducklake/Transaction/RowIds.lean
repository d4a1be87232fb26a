import Ducklake.Caches.StoredStats
import Ducklake.Lib.Allocation
import Ducklake.Transaction.Collects

/-!
# Row ids

The rows that an attempt writes to a table receive consecutive ids, in the order of the changes:
each data file and each batch of inline data takes the next range.
-/

set_option autoImplicit false

namespace Ducklake.Transaction

open Lib Caches Spec CommitState

/-! ## Writes -/

inductive Write where
  | file (dataFile : CommitDataFile)
  | batch (data : CommitInlineData)

namespace Write

def numRows : Write → Nat
  | .file dataFile => dataFile.numRows
  | .batch data => data.recordBatch.numRows

/-- The row of `ducklake_data_file` for a file whose rows start at an id. -/
def fileRange : Int × Write → Option (Option Int × Nat × Text)
  | (start, .file dataFile) => some (some start, dataFile.numRows, dataFile.path.display)
  | (_, .batch _) => none

def batchRange : Int × Write → Option (Int × Io.RecordBatch)
  | (_, .file _) => none
  | (start, .batch data) => some (start, data.recordBatch)

end Write

def Change.writes : Change → Option (TableRef × List Write)
  | writeTableDataFiles tableRef dataFiles => some (tableRef, dataFiles.map .file)
  | writeTableInlineData tableRef data => some (tableRef, data.map .batch)
  | _ => none

def Change.writesTo (catalog : Catalog) (tableId : Int) (change : Change) : List Write :=
  match change.writes with
  | some (tableRef, writes) =>
      if catalog.idOf (.table tableRef) = some tableId then writes else []
  | none => []

def Change.writesTable (catalog : Catalog) (tableId : Int) (change : Change) : Bool :=
  change.writes.any fun entry => catalog.idOf (.table entry.1) = some tableId

/-- Everything that changes write to a table, in their order. -/
def writesTo (catalog : Catalog) (tableId : Int) (changes : List Change) : List Write :=
  changes.flatMap (Change.writesTo catalog tableId)

/-- Start, length and path of the files that are added to a table. -/
def fileRanges (changes : TransactionChanges) (tableId : Int) :
    List (Option Int × Nat × Text) :=
  (changes.dataFiles.filter fun row => row.tableId = tableId).map fun row =>
    (row.rowIdStart, row.recordCount, row.path)

/-- Start and rows of the batches that are added to a table. -/
def batchRanges (changes : TransactionChanges) (tableId : Int) : List (Int × Io.RecordBatch) :=
  (changes.inlineData.filter fun entry => entry.1 = tableId).map fun entry =>
    (entry.2.rowIdStart, entry.2.data)

/-! ## Steps -/

/-- Writes to a table receive the next ids, and its statistics count their rows. -/
structure Allots (tableId : Int) (writes : List Write)
    (before after : TransactionChanges × CommitState) : Prop where
  files : fileRanges after.1 tableId = fileRanges before.1 tableId ++
    (allocate Write.numRows (before.2.tableStatsOf tableId).nextRowId writes).filterMap
      Write.fileRange
  batches : batchRanges after.1 tableId = batchRanges before.1 tableId ++
    (allocate Write.numRows (before.2.tableStatsOf tableId).nextRowId writes).filterMap
      Write.batchRange
  nextRowId : (after.2.tableStatsOf tableId).nextRowId =
    (before.2.tableStatsOf tableId).nextRowId + totalSize Write.numRows writes
  recordCount : (after.2.tableStatsOf tableId).recordCount.getD 0 =
    (before.2.tableStatsOf tableId).recordCount.getD 0 + totalSize Write.numRows writes
  isPersisted : (after.2.tableStatsOf tableId).isPersisted =
    (before.2.tableStatsOf tableId).isPersisted

namespace Allots

theorem trans
    {tableId : Int}
    {earlier later : List Write}
    {first second third : TransactionChanges × CommitState}
    (allots : Allots tableId earlier first second)
    (allotsLater : Allots tableId later second third) :
    Allots tableId (earlier ++ later) first third where
  files := by
    rw [allotsLater.files, allots.files, allots.nextRowId, allocate_append, List.filterMap_append,
      List.append_assoc]
  batches := by
    rw [allotsLater.batches, allots.batches, allots.nextRowId, allocate_append,
      List.filterMap_append, List.append_assoc]
  nextRowId := by
    rw [allotsLater.nextRowId, allots.nextRowId, totalSize_append]
    omega
  recordCount := by
    rw [allotsLater.recordCount, allots.recordCount, totalSize_append]
    omega
  isPersisted := allotsLater.isPersisted.trans allots.isPersisted

theorem foldlM
    {α : Type}
    {tableId : Int}
    {f : TransactionChanges × CommitState → α →
      DucklakeResult (TransactionChanges × CommitState)}
    (writes : α → List Write)
    (start : ∀ before : TransactionChanges × CommitState, Allots tableId [] before before)
    (step : ∀ before item after, f before item = .ok after →
      Allots tableId (writes item) before after)
    (items : List α)
    (before after : TransactionChanges × CommitState)
    (success : items.foldlM f before = .ok after) :
    Allots tableId (items.flatMap writes) before after := by
  induction items generalizing before with
  | nil =>
      obtain rfl := Except.ok.inj success
      exact start before
  | cons item rest ih =>
      obtain ⟨middle, stepped, success⟩ := bind_eq_ok.mp success
      exact (step before item middle stepped).trans (ih middle success)

end Allots

/-- Nothing is written. -/
structure SameWrites (before after : TransactionChanges × CommitState) : Prop where
  dataFiles : after.1.dataFiles = before.1.dataFiles
  inlineData : after.1.inlineData = before.1.inlineData
  writtenColumns : after.1.writtenColumns = before.1.writtenColumns
  tableStats : after.2.tableStats = before.2.tableStats

namespace SameWrites

theorem refl (collected : TransactionChanges × CommitState) : SameWrites collected collected :=
  ⟨rfl, rfl, rfl, rfl⟩

theorem trans
    {first second third : TransactionChanges × CommitState}
    (earlier : SameWrites first second)
    (later : SameWrites second third) :
    SameWrites first third where
  dataFiles := later.dataFiles.trans earlier.dataFiles
  inlineData := later.inlineData.trans earlier.inlineData
  writtenColumns := later.writtenColumns.trans earlier.writtenColumns
  tableStats := later.tableStats.trans earlier.tableStats

theorem allots
    {before after : TransactionChanges × CommitState}
    (same : SameWrites before after)
    (tableId : Int) :
    Allots tableId [] before after := by
  have stats : after.2.tableStatsOf tableId = before.2.tableStatsOf tableId := by
    unfold tableStatsOf
    rw [same.tableStats]
  constructor
  case files => simp [fileRanges, same.dataFiles, allocate]
  case batches => simp [batchRanges, same.inlineData, allocate]
  case nextRowId => simp [stats]
  case recordCount => simp [stats]
  case isPersisted => rw [stats]

end SameWrites

theorem tableStats_objectId (state : CommitState) (key : ObjectRef) :
    (state.objectId key).2.tableStats = state.tableStats := by
  cases found : state.catalog.idOf key with
  | some id => rw [objectId_of_some state key id found]
  | none => rw [objectId_of_none state key found]

theorem createInlinedTable_sameWrites
    (env : Environment)
    (collected : TransactionChanges × CommitState)
    (tableRef : TableRef) :
    SameWrites collected (Executors.createInlinedTable env collected tableRef) := by
  unfold Executors.createInlinedTable
  rw [tableId_eq]
  dsimp only
  split
  · exact ⟨rfl, rfl, rfl, tableStats_objectId _ _⟩
  · exact ⟨rfl, rfl, rfl, tableStats_objectId _ _⟩

/-- Changes that write no data leave the data of the other changes alone. -/
theorem Collects.sameWrites
    {env : Environment}
    {changes : List Change}
    {before after : TransactionChanges × CommitState}
    (step : Collects env changes before after)
    (silent : ∀ change ∈ changes, change.writes = none) :
    SameWrites before after := by
  cases step with
  | resolved => exact ⟨rfl, rfl, rfl, tableStats_objectId _ _⟩
  | inlined => exact createInlinedTable_sameWrites env before _
  | wroteFile member | wroteBatch member => cases silent _ member
  | @counted _ _ change _ _ _ member written =>
      cases change with
      | writeTableDataFiles | writeTableInlineData => cases silent _ member
      | _ => cases written
  | _ => exact ⟨rfl, rfl, rfl, rfl⟩

/-! ## Statistics of the rows -/

theorem tableStatsOf_modifyTableStats (state : CommitState) (tableId : Int)
    (update : TableStats → TableStats) (other : Int) :
    (state.modifyTableStats tableId update).tableStatsOf other =
      if other = tableId then update (state.tableStatsOf tableId) else state.tableStatsOf other := by
  unfold modifyTableStats tableStatsOf
  dsimp only
  rw [IndexMap.get?_insert]
  split <;> rfl

theorem updateTableStats_counts (numRows : Nat) (columns : List Executors.WrittenColumn)
    (stats : TableStats) :
    (Executors.updateTableStats numRows columns stats).nextRowId = stats.nextRowId + numRows ∧
      (Executors.updateTableStats numRows columns stats).recordCount =
        some (stats.recordCount.getD 0 + numRows) ∧
      (Executors.updateTableStats numRows columns stats).isPersisted = stats.isPersisted := by
  have kept : ∀ (columns : List Executors.WrittenColumn) (stats : TableStats),
      (columns.foldl (fun stats column => stats.modifyColumnStats column.columnId
        (Executors.updateColumnStats column)) stats).nextRowId = stats.nextRowId ∧
      (columns.foldl (fun stats column => stats.modifyColumnStats column.columnId
        (Executors.updateColumnStats column)) stats).recordCount = stats.recordCount ∧
      (columns.foldl (fun stats column => stats.modifyColumnStats column.columnId
        (Executors.updateColumnStats column)) stats).isPersisted = stats.isPersisted := by
    intro columns
    induction columns with
    | nil => exact fun _ => ⟨rfl, rfl, rfl⟩
    | cons column rest ih => exact fun stats => ih _
  exact kept columns _

theorem allots_of_update
    (before after : TransactionChanges × CommitState)
    (tableId : Int)
    (write : Write)
    (files : ∀ other, fileRanges after.1 other = fileRanges before.1 other ++
      if other = tableId then
        (Write.fileRange ((before.2.tableStatsOf tableId).nextRowId, write)).toList else [])
    (batches : ∀ other, batchRanges after.1 other = batchRanges before.1 other ++
      if other = tableId then
        (Write.batchRange ((before.2.tableStatsOf tableId).nextRowId, write)).toList else [])
    (columns : List Executors.WrittenColumn)
    (start : TableStats)
    (same : start.nextRowId = (before.2.tableStatsOf tableId).nextRowId ∧
      start.recordCount = (before.2.tableStatsOf tableId).recordCount ∧
      start.isPersisted = (before.2.tableStatsOf tableId).isPersisted)
    (stats : ∀ other, after.2.tableStatsOf other =
      if other = tableId then Executors.updateTableStats write.numRows columns start
      else before.2.tableStatsOf other)
    (other : Int) :
    Allots other (if other = tableId then [write] else []) before after := by
  have filesOf := files other
  have batchesOf := batches other
  have statsOf := stats other
  by_cases own : other = tableId
  · subst own
    obtain ⟨nextRowId, recordCount, isPersisted⟩ :=
      updateTableStats_counts write.numRows columns start
    rw [if_pos rfl] at filesOf batchesOf statsOf ⊢
    constructor
    case files =>
      rw [filesOf]
      cases write <;> rfl
    case batches =>
      rw [batchesOf]
      cases write <;> rfl
    case nextRowId =>
      rw [statsOf, nextRowId, same.1]
      simp
    case recordCount =>
      rw [statsOf, recordCount, same.2.1]
      simp
    case isPersisted => rw [statsOf, isPersisted, same.2.2]
  · rw [if_neg own, List.append_nil] at filesOf batchesOf
    rw [if_neg own] at statsOf ⊢
    constructor <;> simp [filesOf, batchesOf, statsOf, allocate]

/-! ## Executors -/

theorem tableStats_filePartitionId
    (state : CommitState)
    (tableRef : TableRef)
    (file : CommitDataFile)
    (result : Option Int × CommitState)
    (success : Executors.filePartitionId state tableRef file = .ok result) :
    result.2.tableStats = state.tableStats := by
  unfold Executors.filePartitionId at success
  split at success
  · obtain rfl := Except.ok.inj success
    rfl
  · obtain ⟨partitioned, resolved, success⟩ := bind_eq_ok.mp success
    obtain rfl := Except.ok.inj success
    obtain ⟨_, rfl⟩ := (partitionId_eq_ok state tableRef partitioned).mp resolved
    exact tableStats_objectId state _

theorem tableStats_addDeleteFile (tableId fileId : Int) (files : List CommitDeleteFile)
    (collected : List DucklakeDeleteFile × CommitState) :
    (files.foldl (Executors.addDeleteFile tableId fileId) collected).2.tableStats =
      collected.2.tableStats := by
  induction files generalizing collected with
  | nil => rfl
  | cons file rest ih => exact ih _

theorem addDataFile_allots
    (env : Environment)
    (tableRef : TableRef)
    (tableId : Int)
    (before after : TransactionChanges × CommitState)
    (file : CommitDataFile)
    (success : Executors.addDataFile env tableRef tableId before file = .ok after)
    (other : Int) :
    Allots other (if other = tableId then [.file file] else []) before after := by
  obtain ⟨partitioned, located, success⟩ := bind_eq_ok.mp success
  obtain rfl := Except.ok.inj success
  have stats := (tableStats_addDeleteFile tableId before.2.fileId.1 file.deleteFiles
    (before.1.deleteFiles, partitioned.2)).trans (tableStats_filePartitionId _ _ _ _ located)
  refine allots_of_update before _ tableId (.file file) ?_ ?_
    (Executors.fileWrittenColumns before.2.fileId.2 file)
    ((before.2.tableStatsOf tableId).addFileSizeBytes (file.fileSizeBytes.map Int.ofNat))
    ⟨rfl, rfl, rfl⟩ ?_ other
  · intro other
    by_cases own : other = tableId
    · subst own
      simp [fileRanges, Write.fileRange]
      rfl
    · simp [fileRanges, own, Ne.symm own]
  · intro other
    simp [batchRanges, Write.batchRange]
  · intro other
    have updated := tableStatsOf_modifyTableStats before.2.fileId.2 tableId (fun stats =>
      Executors.updateTableStats file.numRows (Executors.fileWrittenColumns before.2.fileId.2 file)
        (stats.addFileSizeBytes (file.fileSizeBytes.map Int.ofNat))) other
    refine Eq.trans ?_ updated
    exact congrArg (fun map : TableStatsMap => (map.get? other).getD default) stats

theorem addInlineBatch_allots
    (tableId : Int)
    (before : TransactionChanges × CommitState)
    (data : CommitInlineData)
    (other : Int) :
    Allots other (if other = tableId then [.batch data] else []) before
      (Executors.addInlineBatch tableId before data) := by
  refine allots_of_update before _ tableId (.batch data) ?_ ?_
    (Executors.batchWrittenColumns before.2 data) (before.2.tableStatsOf tableId) ⟨rfl, rfl, rfl⟩
    (tableStatsOf_modifyTableStats before.2 tableId _) other
  · intro other
    simp [fileRanges, Write.fileRange, Executors.addInlineBatch]
  · intro other
    by_cases own : other = tableId
    · subst own
      simp [batchRanges, Write.batchRange, Executors.addInlineBatch]
    · simp [batchRanges, own, Ne.symm own, Executors.addInlineBatch]

theorem flatMap_own {α : Type} (own : Prop) [Decidable own] (write : α → Write) (items : List α) :
    (items.flatMap fun item => if own then [write item] else []) =
      if own then items.map write else [] := by
  split
  · exact List.map_eq_flatMap.symm
  · simp

theorem writeTableData_allots
    (env : Environment)
    (rows : TransactionChanges)
    (state : CommitState)
    (tableRef : TableRef)
    (dataFiles : List CommitDataFile)
    (result : TransactionChanges × CommitState)
    (success : Executors.writeTableData env rows state tableRef dataFiles = .ok result)
    (other : Int) :
    Allots other (if other = (state.objectId (.table tableRef)).1 then dataFiles.map .file else [])
      (rows, state) result := by
  obtain ⟨written, files, success⟩ := bind_eq_ok.mp success
  obtain rfl := Except.ok.inj success
  have resolved : SameWrites (rows, state) (rows, (state.objectId (.table tableRef)).2) :=
    ⟨rfl, rfl, rfl, tableStats_objectId state _⟩
  have writes := Allots.foldlM (fun file =>
      if other = (state.objectId (.table tableRef)).1 then [Write.file file] else [])
    (fun before => (SameWrites.refl before).allots other)
    (fun before file after stepped => addDataFile_allots env tableRef _ before after file stepped
      other) dataFiles _ _ files
  rw [flatMap_own] at writes
  have all := (resolved.allots other).trans writes
  exact { all with }

theorem writeTableInlineData_allots
    (rows : TransactionChanges)
    (state : CommitState)
    (tableRef : TableRef)
    (data : List CommitInlineData)
    (other : Int) :
    Allots other (if other = (state.objectId (.table tableRef)).1 then data.map .batch else [])
      (rows, state) (Executors.writeTableInlineData rows state tableRef data) := by
  have resolved : SameWrites (rows, state) (rows, (state.objectId (.table tableRef)).2) :=
    ⟨rfl, rfl, rfl, tableStats_objectId state _⟩
  have writes : ∀ before : TransactionChanges × CommitState, Allots other
      (data.flatMap fun batch =>
        if other = (state.objectId (.table tableRef)).1 then [Write.batch batch] else [])
      before (data.foldl (Executors.addInlineBatch (state.objectId (.table tableRef)).1) before) := by
    induction data with
    | nil => exact fun before => (SameWrites.refl before).allots other
    | cons batch rest ih =>
        exact fun before => (addInlineBatch_allots _ before batch other).trans (ih _)
  have all := (resolved.allots other).trans (writes _)
  rw [flatMap_own] at all
  exact { all with }

/-! ## Changes -/

section

variable {env : Environment} {rows : TransactionChanges} {state : CommitState}

theorem Change.apply_sameWrites
    (change : Change)
    (silent : change.writes = none)
    (present : ∀ key ∈ change.objects, state.catalog.Has key)
    (result : TransactionChanges × CommitState)
    (success : change.apply env (rows, state) = .ok result) :
    SameWrites (rows, state) result := by
  have steps := Change.apply_collected change (List.mem_singleton_self change) present result success
  clear success
  induction steps with
  | refl => exact .refl _
  | tail _ step ih =>
      exact ih.trans (step.sameWrites fun other member => List.mem_singleton.mp member ▸ silent)

theorem keys_addWrittenColumns (tableId : Int) (columnIds : List Int) (other : Int) :
    other ∈ (rows.addWrittenColumns tableId columnIds).writtenColumns.keys ↔
      other = tableId ∨ other ∈ rows.writtenColumns.keys :=
  IndexMap.mem_keys_insertEntries _ _ _ other

theorem writtenColumns_addInlineBatches (tableId : Int) (data : List CommitInlineData)
    (before : TransactionChanges × CommitState) :
    (data.foldl (Executors.addInlineBatch tableId) before).1.writtenColumns =
      before.1.writtenColumns := by
  induction data generalizing before with
  | nil => rfl
  | cons batch rest ih => exact ih _

theorem Change.apply_writes
    (change : Change)
    (tableRef : TableRef)
    (writes : List Write)
    (written : change.writes = some (tableRef, writes))
    (result : TransactionChanges × CommitState)
    (success : change.apply env (rows, state) = .ok result) :
    (state.objectId (.table tableRef)).2.Extends result.2 ∧
      (∀ other, other ∈ result.1.writtenColumns.keys ↔
        other = (state.objectId (.table tableRef)).1 ∨ other ∈ rows.writtenColumns.keys) ∧
      ∀ other, Allots other (if other = (state.objectId (.table tableRef)).1 then writes else [])
        (rows, state) result := by
  cases change with
  | writeTableDataFiles ref dataFiles =>
      obtain ⟨rfl, rfl⟩ := Prod.mk.inj (Option.some.inj written)
      have allots := writeTableData_allots env rows state ref dataFiles result success
      obtain ⟨collected, files, success⟩ := bind_eq_ok.mp success
      obtain rfl := Except.ok.inj success
      have reached : (state.objectId (.table ref)).2.Extends collected.2 ∧
          collected.1.writtenColumns = rows.writtenColumns := by
        refine foldlM_invariant (fun collected : TransactionChanges × CommitState =>
          (state.objectId (.table ref)).2.Extends collected.2 ∧
            collected.1.writtenColumns = rows.writtenColumns) ⟨.refl _, rfl⟩ ?_ files
        rintro before file next _ ⟨extends_, same⟩ stepped
        refine ⟨extends_.trans (Executors.addDataFile_extends env ref _ before file next stepped), ?_⟩
        obtain ⟨_, _, stepped⟩ := bind_eq_ok.mp stepped
        obtain rfl := Except.ok.inj stepped
        exact same
      refine ⟨reached.1, fun other => ?_, allots⟩
      have keys := @keys_addWrittenColumns collected.1 (state.objectId (.table ref)).1
        (dataFiles.flatMap fun file => file.columnStats.keys.map collected.2.columnId) other
      rwa [reached.2] at keys
  | writeTableInlineData ref data =>
      obtain ⟨rfl, rfl⟩ := Prod.mk.inj (Option.some.inj written)
      obtain rfl := Except.ok.inj success
      refine ⟨foldl_extends _ (Executors.addInlineBatch_extends _) data (rows, _), fun other => ?_,
        writeTableInlineData_allots rows state ref data⟩
      refine (keys_addWrittenColumns _ _ other).trans ?_
      rw [writtenColumns_addInlineBatches]
      rfl
  | _ => cases written

theorem Change.apply_allots
    (change : Change)
    (present : ∀ key ∈ change.objects, state.catalog.Has key)
    (catalog : Catalog)
    (result : TransactionChanges × CommitState)
    (later : ∀ key id, result.2.catalog.idOf key = some id → catalog.idOf key = some id)
    (success : change.apply env (rows, state) = .ok result)
    (other : Int) :
    (other ∈ result.1.writtenColumns.keys ↔
        change.writesTable catalog other = true ∨ other ∈ rows.writtenColumns.keys) ∧
      Allots other (change.writesTo catalog other) (rows, state) result := by
  cases written : change.writes with
  | none =>
      have same := Change.apply_sameWrites change written present result success
      have nothing : change.writesTo catalog other = [] := by simp [Change.writesTo, written]
      rw [nothing, same.writtenColumns]
      exact ⟨by simp [Change.writesTable, written], same.allots other⟩
  | some entry =>
      obtain ⟨tableRef, writes⟩ := entry
      obtain ⟨extends_, keys, allots⟩ :=
        Change.apply_writes change tableRef writes written result success
      have object : ObjectRef.table tableRef ∈ change.objects := by
        cases change with
        | writeTableDataFiles | writeTableInlineData =>
            obtain ⟨rfl, _⟩ := Prod.mk.inj (Option.some.inj written)
            simp [Change.objects, Change.affectedTableRef]
        | _ => cases written
      have found := later _ _ (extends_.kept _ _ (idOf_objectId state _ (present _ object)))
      have own : catalog.idOf (.table tableRef) = some other ↔
          other = (state.objectId (.table tableRef)).1 := by
        rw [found, Option.some.injEq, eq_comm]
      refine ⟨?_, ?_⟩
      · rw [keys]
        simp [Change.writesTable, written, own]
      · have same : change.writesTo catalog other =
            if other = (state.objectId (.table tableRef)).1 then writes else [] := by
          simp only [Change.writesTo, written, own]
        rw [same]
        exact allots other

theorem apply_all_allots
    (changes : List Change)
    (catalog : Catalog)
    (before after : TransactionChanges × CommitState)
    (present : ∀ change ∈ changes, ∀ key ∈ change.objects, before.2.catalog.Has key)
    (later : ∀ key id, after.2.catalog.idOf key = some id → catalog.idOf key = some id)
    (success : changes.foldlM (Change.apply env) before = .ok after)
    (other : Int) :
    (other ∈ after.1.writtenColumns.keys ↔
        (∃ change ∈ changes, change.writesTable catalog other = true) ∨
          other ∈ before.1.writtenColumns.keys) ∧
      Allots other (writesTo catalog other changes) before after := by
  induction changes generalizing before with
  | nil =>
      obtain rfl := Except.ok.inj success
      exact ⟨by simp, (SameWrites.refl before).allots other⟩
  | cons change rest ih =>
      obtain ⟨middle, stepped, success⟩ := bind_eq_ok.mp success
      obtain ⟨presentFirst, presentRest⟩ := List.forall_mem_cons.mp present
      have extends_ := Change.apply_extends env before middle change stepped
      have extendsRest : middle.2.Extends after.2 :=
        foldlM_invariant (fun collected : TransactionChanges × CommitState =>
          middle.2.Extends collected.2) (.refl _) (fun collected change next _ reached applied =>
            reached.trans (Change.apply_extends env collected next change applied)) success
      obtain ⟨keys, allots⟩ := Change.apply_allots change presentFirst catalog middle
        (fun key id found => later key id (extendsRest.kept key id found)) stepped other
      obtain ⟨keysRest, allotsRest⟩ := ih middle
        (fun change member key object => (extends_.has key).mpr (presentRest change member key object))
        success
      refine ⟨?_, allots.trans allotsRest⟩
      rw [keysRest, keys, List.exists_mem_cons_iff]
      exact or_left_comm.trans or_assoc.symm

end

theorem ChangeSet.apply_allots
    (env : Environment)
    (set : ChangeSet)
    (state : CommitState)
    (catalog : Catalog)
    (result : TransactionChanges × CommitState)
    (present : ∀ change ∈ set.changes, ∀ key ∈ change.objects, state.catalog.Has key)
    (later : ∀ key id, result.2.catalog.idOf key = some id → catalog.idOf key = some id)
    (success : set.apply env state = .ok result)
    (other : Int) :
    (other ∈ result.1.writtenColumns.keys ↔
        ∃ change ∈ set.changes, change.writesTable catalog other = true) ∧
      Allots other (writesTo catalog other set.changes) (.empty, state) result := by
  obtain ⟨_, _, success⟩ := bind_eq_ok.mp success
  obtain ⟨collected, executed, success⟩ := bind_eq_ok.mp success
  obtain rfl := Except.ok.inj success
  have inlined : ∀ (refs : List TableRef) (before : TransactionChanges × CommitState),
      SameWrites before (refs.foldl (Executors.createInlinedTable env) before) ∧
        before.2.Extends (refs.foldl (Executors.createInlinedTable env) before).2 := by
    intro refs
    induction refs with
    | nil => exact fun before => ⟨.refl before, .refl _⟩
    | cons ref rest ih =>
        intro before
        obtain ⟨same, extends_⟩ := ih (Executors.createInlinedTable env before ref)
        exact ⟨(createInlinedTable_sameWrites env before ref).trans same,
          (Executors.createInlinedTable_extends env before ref).trans extends_⟩
  obtain ⟨same, extends_⟩ := inlined set.tableRefsWithSchemaChanges collected
  have bumped : ∀ state : CommitState, state.Extends (set.bumpFileId state) ∧
      (set.bumpFileId state).tableStats = state.tableStats := by
    intro state
    unfold bumpFileId
    split
    · exact ⟨fileId_extends state, rfl⟩
    · exact ⟨.refl state, rfl⟩
  obtain ⟨extendsLast, sameStats⟩ := bumped
    (set.tableRefsWithSchemaChanges.foldl (Executors.createInlinedTable env) collected).2
  have all : SameWrites collected
      ((set.tableRefsWithSchemaChanges.foldl (Executors.createInlinedTable env) collected).1,
        set.bumpFileId
          (set.tableRefsWithSchemaChanges.foldl (Executors.createInlinedTable env) collected).2) :=
    { same with tableStats := sameStats.trans same.tableStats }
  obtain ⟨keys, allots⟩ := apply_all_allots set.changes catalog (.empty, state) collected present
    (fun key id found => later key id (extendsLast.kept _ _ (extends_.kept _ _ found))) executed other
  refine ⟨?_, ?_⟩
  · rw [all.writtenColumns, keys]
    exact or_iff_left List.not_mem_nil
  · have whole := allots.trans (all.allots other)
    rwa [List.append_nil] at whole

/-! ## Attempts -/

theorem collect_tableStats {α β : Type} (resolve : CommitState → α → β × CommitState)
    (step : ∀ state item, (resolve state item).2.tableStats = state.tableStats)
    (items : List α) (state : CommitState) :
    (collect resolve state items).2.tableStats = state.tableStats := by
  induction items generalizing state with
  | nil => rfl
  | cons item rest ih => exact (ih _).trans (step state item)

theorem appliedChange_tableStats (state : CommitState) (change : Change) :
    (change.appliedChange state).2.tableStats = state.tableStats := by
  cases change with
  | createSchema | createTable | renameTable | createView => rfl
  | createMacro _ _ _ macroType => cases macroType <;> rfl
  | deleteMacro macroRef macroType =>
      cases macroType with
      | scalar => exact tableStats_objectId state (.macro_ macroRef)
      | table => exact tableStats_objectId state (.macro_ macroRef)
  | deleteSchema schemaRef => exact tableStats_objectId state (.schema schemaRef)
  | deleteView viewRef => exact tableStats_objectId state (.view viewRef)
  | _ => exact tableStats_objectId state (.table _)

theorem prepareCommit_tableStats
    (env : Environment)
    (set : ChangeSet)
    (state : CommitState)
    (prepared : PreparedCommit)
    (success : prepareCommit env set state = .ok prepared) :
    ∃ applied : CommitState, set.apply env state = .ok (prepared.changes, applied) ∧
      applied.Extends prepared.state ∧ prepared.state.tableStats = applied.tableStats := by
  have tables : ∀ (refs : List TableRef) (state : CommitState),
      state.Extends (collect CommitState.tableId state refs).2 ∧
        (collect CommitState.tableId state refs).2.tableStats = state.tableStats := fun refs state =>
    ⟨collect_extends CommitState.tableId (fun state ref => objectId_extends state (.table ref)) _ _,
      collect_tableStats _ (fun state ref => tableStats_objectId state (.table ref)) _ _⟩
  obtain ⟨⟨changes, applied⟩, executed, success⟩ := bind_eq_ok.mp success
  dsimp only at success
  split at success
  · cases success
  · obtain rfl := Except.ok.inj success
    refine ⟨applied, executed, ?_, ?_⟩
    · exact (((set.appliedChangeSet_extends applied).trans (tables _ _).1).trans (tables _ _).1).trans
        (tables _ _).1
    · exact (tables _ _).2.trans ((tables _ _).2.trans ((tables _ _).2.trans
        (collect_tableStats _ appliedChange_tableStats set.changes applied)))

theorem prepareCommit_allots
    (env : Environment)
    (set : ChangeSet)
    (state : CommitState)
    (prepared : PreparedCommit)
    (present : ∀ change ∈ set.changes, ∀ key ∈ change.objects, state.catalog.Has key)
    (success : prepareCommit env set state = .ok prepared)
    (other : Int) :
    (other ∈ prepared.changes.writtenColumns.keys ↔
        ∃ change ∈ set.changes, change.writesTable prepared.state.catalog other = true) ∧
      Allots other (writesTo prepared.state.catalog other set.changes) (.empty, state)
        (prepared.changes, prepared.state) := by
  obtain ⟨applied, executed, extends_, same⟩ := prepareCommit_tableStats env set state prepared success
  obtain ⟨keys, allots⟩ := ChangeSet.apply_allots env set state prepared.state.catalog
    (prepared.changes, applied) present extends_.kept executed other
  have unchanged : SameWrites (prepared.changes, applied) (prepared.changes, prepared.state) :=
    ⟨rfl, rfl, rfl, same⟩
  have whole := allots.trans (unchanged.allots other)
  rw [List.append_nil] at whole
  exact ⟨keys, whole⟩

/-! ## Stored statistics -/

def writtenStats (state : CommitState) (tableId : Int) : DucklakeTableStats where
  tableId := tableId
  recordCount := (state.tableStatsOf tableId).recordCount
  nextRowId := (state.tableStatsOf tableId).nextRowId
  fileSizeBytes := (state.tableStatsOf tableId).fileSizeBytes

theorem persistTableStats_statsRow
    (state : CommitState)
    (rows : List DucklakeTableStats)
    (tableId : Int)
    (unique : (rows.map DucklakeTableStats.tableId).Nodup)
    (persisted : (state.tableStatsOf tableId).isPersisted = true ↔
      tableId ∈ rows.map DucklakeTableStats.tableId) :
    ((persistTableStats state rows tableId).map DucklakeTableStats.tableId).Nodup ∧
      ∀ other, statsRow (persistTableStats state rows tableId) other =
        if other = tableId then some (writtenStats state tableId) else statsRow rows other := by
  unfold persistTableStats
  dsimp only
  split
  · rename_i stored
    obtain ⟨row, member, same⟩ := List.mem_map.mp (persisted.mp stored)
    have kept : ∀ row : DucklakeTableStats,
        (if row.tableId = tableId then writtenStats state tableId else row).tableId =
          row.tableId := by
      intro row
      split
      · rename_i own
        exact own.symm
      · rfl
    refine ⟨?_, fun other => ?_⟩
    · rw [List.map_map]
      refine (congrArg List.Nodup (List.map_congr_left fun row _ => kept row)).mpr unique
    · rw [statsRow, List.find?_map]
      have same : (fun row : DucklakeTableStats => decide (row.tableId = other)) ∘
          (fun row => if row.tableId = tableId then writtenStats state tableId else row) =
            fun row => decide (row.tableId = other) := by
        funext row
        exact congrArg (fun id => decide (id = other)) (kept row)
      change Option.map (fun row => if row.tableId = tableId then writtenStats state tableId else row)
        (rows.find? (_ ∘ fun row =>
          if row.tableId = tableId then writtenStats state tableId else row)) = _
      rw [same]
      cases found : rows.find? fun row => row.tableId = other with
      | none =>
          have distinct : other ≠ tableId := by
            rintro rfl
            have absent := List.find?_eq_none.mp found row member
            simp_all
          rw [if_neg distinct, statsRow, found]
          rfl
      | some stored =>
          have own : stored.tableId = other := by simpa using List.find?_some found
          rw [Option.map_some, own, statsRow, found]
          split <;> rfl
  · rename_i missing
    have absent : tableId ∉ rows.map DucklakeTableStats.tableId := fun member =>
      missing (persisted.mpr member)
    refine ⟨?_, fun other => ?_⟩
    · rw [List.map_append, List.nodup_append]
      refine ⟨unique, List.nodup_singleton _, ?_⟩
      rintro id member other inside rfl
      have same : id = tableId := List.mem_singleton.mp inside
      exact absent (same ▸ member)
    · rw [statsRow, List.find?_append]
      by_cases own : other = tableId
      · subst own
        have none_ : rows.find? (fun row => row.tableId = other) = none :=
          Option.not_isSome_iff_eq_none.mp fun some_ =>
            absent ((statsRow_isSome_iff rows other).mp some_)
        rw [none_, if_pos rfl, Option.none_or, List.find?_cons_of_pos (by simp)]
        rfl
      · rw [if_neg own, List.find?_cons_of_neg (by simpa using Ne.symm own)]
        exact Option.or_none

theorem persistTableStats_all
    (state : CommitState)
    (keys : List Int)
    (rows : List DucklakeTableStats)
    (distinct : keys.Nodup)
    (unique : (rows.map DucklakeTableStats.tableId).Nodup)
    (persisted : ∀ tableId ∈ keys, (state.tableStatsOf tableId).isPersisted = true ↔
      tableId ∈ rows.map DucklakeTableStats.tableId) :
    ((keys.foldl (persistTableStats state) rows).map DucklakeTableStats.tableId).Nodup ∧
      ∀ other, statsRow (keys.foldl (persistTableStats state) rows) other =
        if other ∈ keys then some (writtenStats state other) else statsRow rows other := by
  induction keys generalizing rows with
  | nil => exact ⟨unique, fun other => by simp⟩
  | cons key rest ih =>
      obtain ⟨fresh, distinct⟩ := List.nodup_cons.mp distinct
      obtain ⟨own, persisted⟩ := List.forall_mem_cons.mp persisted
      obtain ⟨uniqueNext, stored⟩ := persistTableStats_statsRow state rows key unique own
      have kept : ∀ other ∈ rest, other ∈ (persistTableStats state rows key).map
          DucklakeTableStats.tableId ↔ other ∈ rows.map DucklakeTableStats.tableId := by
        intro other member
        have apart : other ≠ key := fun same => fresh (same ▸ member)
        rw [← statsRow_isSome_iff, ← statsRow_isSome_iff, stored, if_neg apart]
      obtain ⟨uniqueAll, storedAll⟩ := ih _ distinct uniqueNext fun other member =>
        (persisted other member).trans (kept other member).symm
      refine ⟨uniqueAll, fun other => ?_⟩
      rw [List.foldl_cons, storedAll, stored]
      by_cases later : other ∈ rest
      · simp [later]
      · by_cases same : other = key
        · simp [same]
        · simp [later, same]

end Ducklake.Transaction
