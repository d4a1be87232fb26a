import Ducklake.Lib.Intervals
import Ducklake.Lib.Renewal
import Ducklake.Transaction.ColumnRows

/-!
# Which versions a change ends and begins

For every kind of catalog row that a table or a view has, the keys that a change retires and those
that it adds.  What an attempt collects are the renewals of its changes, one after the other.
-/

set_option autoImplicit false

namespace Ducklake.Transaction

open Lib Caches Spec CommitState

def columnKey (column : DucklakeColumn) : Int × Int :=
  (column.tableId, column.columnId)

def tagKey (tag : DucklakeTag) : Int × Text :=
  (tag.objectId, tag.key)

def columnTagKey (tag : DucklakeColumnTag) : (Int × Int) × Text :=
  ((tag.tableId, tag.columnId), tag.key)

/-- The renewals of the catalog rows of tables and views. -/
@[ext]
structure Renewals where
  tables : Renewal Int
  tags : Renewal (Int × Text)
  columns : Renewal (Int × Int)
  columnTags : Renewal ((Int × Int) × Text)
  partitionInfo : Renewal Int
  sortInfo : Renewal Int

namespace Renewals

def nothing : Renewals where
  tables := .nothing
  tags := .nothing
  columns := .nothing
  columnTags := .nothing
  partitionInfo := .nothing
  sortInfo := .nothing

def andThen (earlier later : Renewals) : Renewals where
  tables := earlier.tables.andThen later.tables
  tags := earlier.tags.andThen later.tags
  columns := earlier.columns.andThen later.columns
  columnTags := earlier.columnTags.andThen later.columnTags
  partitionInfo := earlier.partitionInfo.andThen later.partitionInfo
  sortInfo := earlier.sortInfo.andThen later.sortInfo

@[simp] theorem andThen_nothing (renewals : Renewals) : renewals.andThen nothing = renewals := by
  simp [andThen, nothing]

end Renewals

/-- What the collected rows end and begin.  Renames keep a table's id. -/
def TransactionChanges.renewals (changes : TransactionChanges) : Renewals where
  tables := ⟨[], changes.newTables.map DucklakeTable.tableId⟩
  tags := ⟨[], changes.newTags.map tagKey⟩
  columns := ⟨changes.retiredColumns, Versioned.liveKeys columnKey changes.newColumns⟩
  columnTags := ⟨[], changes.newColumnTags.map columnTagKey⟩
  partitionInfo := ⟨changes.retiredPartitionTables,
    Versioned.liveKeys DucklakePartitionInfo.tableId changes.newPartitionInfo⟩
  sortInfo := ⟨changes.retiredSortTables,
    Versioned.liveKeys DucklakeSortInfo.tableId changes.newSortInfo⟩

namespace CommitState

def knownId (state : CommitState) (key : ObjectRef) : Int :=
  (state.catalog.idOf key).getD 0

theorem knownId_of_some
    (state : CommitState)
    (key : ObjectRef)
    (id : Int)
    (found : state.catalog.idOf key = some id) :
    state.knownId key = id := by
  simp [knownId, found]

theorem knownId_objectId
    (state later : CommitState)
    (key : ObjectRef)
    (present : state.catalog.Has key)
    (extends_ : (state.objectId key).2.Extends later) :
    later.knownId key = (state.objectId key).1 :=
  later.knownId_of_some key _ (extends_.kept key _ (idOf_objectId state key present))

end CommitState

/-! ## Changes -/

def columnTagKeys (state : CommitState) (tableId : Int) (refs : List ColumnRef)
    (column : Column) : List ((Int × Int) × Text) :=
  (column.flatten.zip (refs.map state.columnId)).flatMap fun entry =>
    entry.1.column.tags.keys.map fun key => ((tableId, entry.2), key)

/-- What a change ends and begins once its objects have ids. -/
def Change.renewals (state : CommitState) : Change → Renewals
  | createTable _ tableRef columnRefs partitionRefs _ columns _ partitioning sortInfo _ tags =>
      let tableId := state.knownId (.table tableRef)
      { tables := ⟨[], [tableId]⟩
        tags := ⟨[], tags.keys.map fun key => (tableId, key)⟩
        columns := ⟨[], columnRefs.flatten.map fun ref => (tableId, state.columnId ref)⟩
        columnTags := ⟨[], (columns.zip columnRefs).flatMap fun entry =>
          columnTagKeys state tableId entry.2 entry.1⟩
        partitionInfo :=
          ⟨[], if partitionRefs.isSome && partitioning.isSome then [tableId] else []⟩
        sortInfo := ⟨[], if sortInfo.isSome then [tableId] else []⟩ }
  | createView _ viewRef _ _ _ _ tags =>
      { Renewals.nothing with
        tags := ⟨[], tags.keys.map fun key => (state.knownId (.view viewRef), key)⟩ }
  | updateTablePartitioning tableRef refs partitioning =>
      let tableId := state.knownId (.table tableRef)
      { Renewals.nothing with
        partitionInfo :=
          ⟨[tableId], if refs.isSome && partitioning.isSome then [tableId] else []⟩ }
  | updateTableSortInfo tableRef sortInfo =>
      let tableId := state.knownId (.table tableRef)
      { Renewals.nothing with
        sortInfo := ⟨[tableId], if sortInfo.isSome then [tableId] else []⟩ }
  | addTableColumn _ (first :: rest) column =>
      let tableId := state.knownId (.table first.tableRef)
      { Renewals.nothing with
        columns := ⟨[], (first :: rest).map fun ref => (tableId, state.columnId ref)⟩
        columnTags := ⟨[], columnTagKeys state tableId (first :: rest) column⟩ }
  | updateTableColumn _ columnRef _ =>
      let key := (state.knownId (.table columnRef.tableRef), state.columnId columnRef)
      { Renewals.nothing with columns := ⟨[key], [key]⟩ }
  | removeTableColumn columnRef =>
      { Renewals.nothing with
        columns := ⟨[(state.knownId (.table columnRef.tableRef), state.columnId columnRef)], []⟩ }
  | _ => .nothing

section

variable {env : Environment} {changes : List Change}

theorem renewals_of_same
    (before after : TransactionChanges)
    (same : SameExceptData before after) :
    after.renewals = before.renewals := by
  rw [same]
  rfl

theorem map_tagKey_objectTagRows
    (objectId : Int)
    (tags : Tags) :
    (Executors.objectTagRows objectId tags).map tagKey =
      tags.keys.map fun key => (objectId, key) := by
  simp [Executors.objectTagRows, tagKey, IndexMap.keys, Function.comp_def]

theorem liveKeys_endPending
    {α κ : Type}
    [DecidableEq κ]
    (key : α → κ)
    (snapshot : Int)
    (retired : κ)
    (selects : α → Bool)
    (rows : List (Versioned α))
    (same : ∀ entity, selects entity = true ↔ key entity = retired) :
    Versioned.liveKeys key (Executors.endPending snapshot selects rows) =
      (Versioned.liveKeys key rows).filter fun item => item ∉ [retired] := by
  induction rows with
  | nil => rfl
  | cons row rest ih =>
      unfold Versioned.liveKeys Versioned.live Executors.endPending at *
      rw [List.map_cons, List.filter_cons, List.filter_cons]
      cases alive : row.isLive with
      | false =>
          by_cases selected : selects row.entity = true
          · simpa [selected, Versioned.isLive] using ih
          · simpa [selected, alive] using ih
      | true =>
          by_cases selected : selects row.entity = true
          · have equal := (same row.entity).mp selected
            simpa [selected, Versioned.isLive, equal] using ih
          · have distinct : key row.entity ≠ retired := fun equal =>
              selected ((same row.entity).mpr equal)
            simpa [selected, alive, distinct] using ih

theorem liveKeys_dropped
    {α κ : Type}
    [DecidableEq κ]
    (key : α → κ)
    (retired : κ)
    (keeps : Versioned α → Bool)
    (rows : List (Versioned α))
    (same : ∀ row, keeps row = true ↔ key row.entity ≠ retired) :
    Versioned.liveKeys key (rows.filter keeps) =
      (Versioned.liveKeys key rows).filter fun item => item ∉ [retired] := by
  refine Versioned.liveKeys_filter keeps _ fun row _ => ?_
  rw [Bool.eq_iff_iff, same row]
  simp

variable (env) in
theorem columnRows_tagKeys
    (state : CommitState)
    (tableId : Int)
    (parent : Option ColumnRef)
    (refs : List ColumnRef)
    (column : Column)
    (built : List DucklakeColumn × List DucklakeColumnTag)
    (success : Executors.columnRows env state tableId parent refs column = .ok built) :
    built.2.map columnTagKey = columnTagKeys state tableId refs column := by
  unfold Executors.columnRows at success
  dsimp only at success
  split at success
  · cases success
  · obtain rfl := Except.ok.inj success
    rw [List.map_flatMap, columnTagKeys]
    congr 1
    funext entry
    simp [columnTagKey, IndexMap.keys, Function.comp_def]

variable (env) in
theorem map_columnKey_columnRows
    (state : CommitState)
    (tableId : Int)
    (parent : Option ColumnRef)
    (refs : List ColumnRef)
    (column : Column)
    (built : List DucklakeColumn × List DucklakeColumnTag)
    (few : refs.length ≤ column.size)
    (success : Executors.columnRows env state tableId parent refs column = .ok built) :
    built.1.map columnKey = refs.map fun ref => (tableId, state.columnId ref) := by
  have ids := columnRows_ids env state tableId parent refs column built few success
  obtain ⟨owner, _⟩ := columnRows_tableId env state tableId parent refs column built success
  have keys : built.1.map columnKey =
      (built.1.map DucklakeColumn.columnId).map fun id => (tableId, id) := by
    rw [List.map_map]
    exact List.map_congr_left fun row listed => by simp [columnKey, owner row listed]
  rw [keys, ids, List.map_map]
  rfl

variable (env) in
theorem tableColumnRows_keys
    (state : CommitState)
    (tableId : Int)
    (columns : List Column)
    (refs : List (List ColumnRef))
    (built : List (List DucklakeColumn × List DucklakeColumnTag))
    (few : List.Forall₂ (fun (column : Column) (refs : List ColumnRef) =>
      refs.length ≤ column.size) columns refs)
    (success : Executors.tableColumnRows env state tableId (columns.zip refs) = .ok built) :
    (built.flatMap Prod.fst).map columnKey =
        refs.flatten.map (fun ref => (tableId, state.columnId ref)) ∧
      (built.flatMap Prod.snd).map columnTagKey =
        (columns.zip refs).flatMap fun entry => columnTagKeys state tableId entry.2 entry.1 := by
  have pairs := mapM_eq_ok.mp success
  clear success
  induction few generalizing built with
  | nil =>
      cases pairs
      exact ⟨rfl, rfl⟩
  | @cons column first columns refs enough rest ih =>
      rw [List.zip_cons_cons] at pairs
      cases pairs with
      | cons head tail =>
          obtain ⟨keys, tagKeys⟩ := ih _ tail
          rw [List.flatMap_cons, List.map_append, List.flatten_cons, List.map_append, keys,
            List.flatMap_cons, List.map_append, List.zip_cons_cons, List.flatMap_cons, tagKeys,
            columnRows_tagKeys env _ _ _ _ _ _ head,
            map_columnKey_columnRows env _ _ _ _ _ _ enough head]
          exact ⟨rfl, rfl⟩

/-! ## One change -/

section

variable {state later : CommitState}

theorem columnTagKeys_of_extends
    (extends_ : state.Extends later)
    (tableId : Int)
    (refs : List ColumnRef)
    (column : Column) :
    columnTagKeys later tableId refs column = columnTagKeys state tableId refs column := by
  unfold columnTagKeys
  rw [List.map_congr_left fun ref _ => columnId_of_extends extends_ ref]

theorem createPartitioningOpt_renewals
    (rows : TransactionChanges)
    (tableRef : TableRef)
    (tableId : Int)
    (refs : Option (List ColumnRef))
    (partition : Option Partition)
    (result : TransactionChanges × CommitState)
    (success : Executors.createPartitioningOpt rows state tableRef tableId refs partition =
      .ok result) :
    result.1.renewals = { rows.renewals with
      partitionInfo := ⟨rows.renewals.partitionInfo.retired, rows.renewals.partitionInfo.added ++
        if refs.isSome && partition.isSome then [tableId] else []⟩ } := by
  unfold Executors.createPartitioningOpt at success
  split at success
  · obtain ⟨_, rfl⟩ := Executors.createPartitioning_eq_ok rows state _ _ _ _ _ success
    unfold TransactionChanges.renewals
    dsimp only
    rw [Versioned.liveKeys_append]
    rfl
  · rename_i unspecified
    obtain rfl := Except.ok.inj success
    have absent : (refs.isSome && partition.isSome) = false := by
      cases refs with
      | none => rfl
      | some some_refs =>
          cases partition with
          | none => rfl
          | some some_partition => exact absurd rfl (unspecified some_refs some_partition rfl)
    simp [absent]

theorem createSortInfoOpt_renewals
    (rows : TransactionChanges)
    (state : CommitState)
    (tableId : Int)
    (expressions : Option SortInfo) :
    (Executors.createSortInfoOpt rows state tableId expressions).1.renewals =
      { rows.renewals with
        sortInfo := ⟨rows.renewals.sortInfo.retired, rows.renewals.sortInfo.added ++
          if expressions.isSome then [tableId] else []⟩ } := by
  cases expressions with
  | none => simp [Executors.createSortInfoOpt]
  | some expressions =>
      unfold Executors.createSortInfoOpt TransactionChanges.renewals
      dsimp only [Executors.createSortInfo]
      rw [Versioned.liveKeys_append]
      rfl

variable {rows : TransactionChanges}

variable (env) in
theorem createTable_eq_ok
    (schemaRef : SchemaRef)
    (tableRef : TableRef)
    (columnRefs : List (List ColumnRef))
    (partitionColumnRefs : Option (List ColumnRef))
    (name : QualifiedName)
    (columns : List Column)
    (retiredColumns : List DucklakeColumn)
    (partitionColumns : Option Partition)
    (sortInfo : Option SortInfo)
    (path : DucklakePath)
    (tags : Tags)
    (result : TransactionChanges × CommitState)
    (success : Executors.createTable env rows state schemaRef tableRef columnRefs
      partitionColumnRefs name columns retiredColumns partitionColumns sortInfo path tags =
      .ok result) :
    ∃ tableId schemaId resolved built partitioned,
      (state.objectId (.table tableRef)).1 = tableId ∧
      (state.objectId (.table tableRef)).2.Extends resolved ∧
      Executors.tableColumnRows env resolved tableId (columns.zip columnRefs) = .ok built ∧
      Executors.createPartitioningOpt { rows with
        newTables := rows.newTables ++ [{
          tableId := tableId
          schemaId := schemaId
          tableName := name.name
          path := path.display
          pathIsRelative := true }]
        newColumns := rows.newColumns ++ (built.flatMap Prod.fst).map (.new resolved.snapshotId) ++
          retiredColumns.map fun column => {
            beginSnapshot := resolved.snapshotId
            endSnapshot := some resolved.snapshotId
            entity := { column with tableId := tableId } }
        newColumnTags := rows.newColumnTags ++ built.flatMap Prod.snd } resolved tableRef tableId
        partitionColumnRefs partitionColumns = .ok partitioned ∧
      result = ({ (Executors.createSortInfoOpt partitioned.1 partitioned.2 tableId sortInfo).1 with
        newTags := (Executors.createSortInfoOpt partitioned.1 partitioned.2 tableId
          sortInfo).1.newTags ++ Executors.objectTagRows tableId tags },
        (Executors.createSortInfoOpt partitioned.1 partitioned.2 tableId sortInfo).2) := by
  obtain ⟨built, builtOk, success⟩ := bind_eq_ok.mp success
  obtain ⟨partitioned, partitions, success⟩ := bind_eq_ok.mp success
  exact ⟨_, _, _, built, partitioned, rfl,
    objectId_extends (state.objectId (.table tableRef)).2 (.schema schemaRef), builtOk, partitions,
    (Except.ok.inj success).symm⟩

theorem liveKeys_eq_nil
    {α κ : Type}
    (key : α → κ)
    (rows : List (Versioned α))
    (ended : ∀ row ∈ rows, row.isLive = false) :
    Versioned.liveKeys key rows = [] := by
  have none_live : rows.filter Versioned.isLive = [] :=
    List.filter_eq_nil_iff.mpr fun row member => by simp [ended row member]
  simp [Versioned.liveKeys, Versioned.live, none_live]

variable (env) in
theorem createTable_renewals
    (schemaRef : SchemaRef)
    (tableRef : TableRef)
    (columnRefs : List (List ColumnRef))
    (partitionColumnRefs : Option (List ColumnRef))
    (name : QualifiedName)
    (columns : List Column)
    (retiredColumns : List DucklakeColumn)
    (partitionColumns : Option Partition)
    (sortInfo : Option SortInfo)
    (path : DucklakePath)
    (tags : Tags)
    (fits : List.Forall₂ (fun (column : Column) (refs : List ColumnRef) =>
      refs.length ≤ column.size) columns columnRefs)
    (present : state.catalog.Has (.table tableRef))
    (result : TransactionChanges × CommitState)
    (success : Executors.createTable env rows state schemaRef tableRef columnRefs
      partitionColumnRefs name columns retiredColumns partitionColumns sortInfo path tags =
      .ok result)
    (extends_ : result.2.Extends later) :
    result.1.renewals = rows.renewals.andThen (Change.renewals later
      (.createTable schemaRef tableRef columnRefs partitionColumnRefs name columns retiredColumns
        partitionColumns sortInfo path tags)) := by
  obtain ⟨tableId, schemaId, resolved, built, partitioned, given, located, builtOk, partitions,
    rfl⟩ := createTable_eq_ok env _ _ _ _ _ _ _ _ _ _ _ result success
  have specified := (Executors.createPartitioningOpt_extends _ _ _ _ _ _ _ partitions).trans
    ((Executors.createSortInfoOpt_extends partitioned.1 partitioned.2 tableId sortInfo).trans
      extends_)
  have known : later.knownId (.table tableRef) = tableId :=
    (state.knownId_objectId later (.table tableRef) present (located.trans specified)).trans given
  have sameIds := columnId_of_extends specified
  have sameTags : ∀ entry : Column × List ColumnRef, columnTagKeys later tableId entry.2 entry.1 =
      columnTagKeys resolved tableId entry.2 entry.1 :=
    fun entry => columnTagKeys_of_extends specified tableId entry.2 entry.1
  obtain ⟨keys, tagKeys⟩ :=
    tableColumnRows_keys env resolved tableId columns columnRefs built fits builtOk
  have sorted := createSortInfoOpt_renewals partitioned.1 partitioned.2 tableId sortInfo
  rw [createPartitioningOpt_renewals _ tableRef _ _ _ _ partitions] at sorted
  refine Renewals.ext ?_ ?_ ?_ ?_ ?_ ?_
  · refine (congrArg Renewals.tables sorted).trans ?_
    simp [TransactionChanges.renewals, Renewals.andThen, Renewal.andThen, Change.renewals, known]
  · have before : (Executors.createSortInfoOpt partitioned.1 partitioned.2 tableId
        sortInfo).1.newTags.map tagKey = rows.newTags.map tagKey :=
      congrArg (fun renewals => renewals.tags.added) sorted
    simp [TransactionChanges.renewals, Renewals.andThen, Renewal.andThen, Change.renewals, known,
      before, map_tagKey_objectTagRows]
  · refine (congrArg Renewals.columns sorted).trans ?_
    simp [TransactionChanges.renewals, Renewals.andThen, Renewal.andThen, Change.renewals, known,
      Versioned.liveKeys_append, Versioned.liveKeys_map_new, keys, sameIds]
    refine liveKeys_eq_nil columnKey _ fun row member => ?_
    obtain ⟨column, _, rfl⟩ := List.mem_map.mp member
    rfl
  · refine (congrArg Renewals.columnTags sorted).trans ?_
    simp [TransactionChanges.renewals, Renewals.andThen, Renewal.andThen, Change.renewals, known,
      tagKeys, sameTags]
  · refine (congrArg Renewals.partitionInfo sorted).trans ?_
    simp [TransactionChanges.renewals, Renewals.andThen, Renewal.andThen, Change.renewals, known]
  · refine (congrArg Renewals.sortInfo sorted).trans ?_
    simp [TransactionChanges.renewals, Renewals.andThen, Renewal.andThen, Change.renewals, known]

theorem Change.apply_same
    {before after : TransactionChanges × CommitState}
    (change : Change)
    (present : ∀ key ∈ change.objects, before.2.catalog.Has key)
    (dataOnly : change.changesSchema = false)
    (success : change.apply env before = .ok after) :
    SameExceptData before.1 after.1 :=
  (change.apply_collected (List.mem_singleton_self _) present after success).same
    (List.forall_mem_singleton.mpr dataOnly)

theorem Change.apply_renewals
    {before after : TransactionChanges × CommitState}
    (change : Change)
    (fits : change.Fits)
    (present : ∀ key ∈ change.objects, before.2.catalog.Has key)
    (success : change.apply env before = .ok after)
    (extends_ : after.2.Extends later) :
    after.1.renewals = before.1.renewals.andThen (change.renewals later) := by
  cases change with
  | createSchema | deleteSchema | deleteView | createMacro | deleteMacro | deleteTable
  | addTableTag | removeTableTag | addTableColumnTag | removeTableColumnTag =>
      obtain rfl := Except.ok.inj success
      exact (Renewals.andThen_nothing _).symm
  | writeTableDataFiles | writeTableInlineData =>
      rw [renewals_of_same _ _ (Change.apply_same _ present rfl success)]
      exact (Renewals.andThen_nothing _).symm
  | renameTable tableRef name =>
      obtain rfl := Except.ok.inj success
      refine Eq.trans ?_ (Renewals.andThen_nothing _).symm
      unfold Executors.renameTable
      dsimp only
      split
      · have ids : ∀ (tableId : Int) (table : DucklakeTable), (if table.tableId = tableId then
            { table with tableName := name.name } else table).tableId = table.tableId := by
          intro tableId table
          split <;> rfl
        simp [TransactionChanges.renewals, Function.comp_def, ids]
      · rfl
  | createView schemaRef viewRef name sql dialect columnAliases tags =>
      obtain rfl := Except.ok.inj success
      have known := before.2.knownId_objectId later (.view viewRef)
        (present _ (by simp [Change.objects])) ((objectId_extends _ (.schema schemaRef)).trans extends_)
      have keys : (before.1.newTags ++
          Executors.objectTagRows (before.2.objectId (.view viewRef)).1 tags).map tagKey =
            before.1.newTags.map tagKey ++ tags.keys.map fun key =>
              (later.knownId (.view viewRef), key) := by
        rw [List.map_append, map_tagKey_objectTagRows, known]
      refine Renewals.ext (Renewal.andThen_nothing _).symm ?_ (Renewal.andThen_nothing _).symm
        (Renewal.andThen_nothing _).symm (Renewal.andThen_nothing _).symm
        (Renewal.andThen_nothing _).symm
      refine (congrArg (Renewal.mk []) keys).trans ?_
      simp [TransactionChanges.renewals, Renewals.andThen, Renewal.andThen, Change.renewals]
  | createTable =>
      exact createTable_renewals env _ _ _ _ _ _ _ _ _ _ _ fits
        (present _ (by simp [Change.objects])) after success extends_
  | updateTablePartitioning tableRef refs partition =>
      replace success : Executors.createPartitioningOpt { before.1 with
          retiredPartitionTables :=
            before.1.retiredPartitionTables ++ [(before.2.objectId (.table tableRef)).1]
          newPartitionInfo := Executors.endPending (before.2.objectId (.table tableRef)).2.snapshotId
            (fun info => info.tableId = (before.2.objectId (.table tableRef)).1)
            before.1.newPartitionInfo } (before.2.objectId (.table tableRef)).2 tableRef
          (before.2.objectId (.table tableRef)).1 refs partition = .ok after := success
      have known := before.2.knownId_objectId later (.table tableRef)
        (present _ (by simp [Change.objects, Change.affectedTableRef]))
        ((Executors.createPartitioningOpt_extends _ _ _ _ _ _ _ success).trans extends_)
      have ended := liveKeys_endPending DucklakePartitionInfo.tableId
        (before.2.objectId (.table tableRef)).2.snapshotId (before.2.objectId (.table tableRef)).1
        (fun info => info.tableId = (before.2.objectId (.table tableRef)).1)
        before.1.newPartitionInfo (by simp)
      rw [createPartitioningOpt_renewals _ tableRef _ _ _ _ success]
      refine Renewals.ext (Renewal.andThen_nothing _).symm (Renewal.andThen_nothing _).symm
        (Renewal.andThen_nothing _).symm (Renewal.andThen_nothing _).symm ?_
        (Renewal.andThen_nothing _).symm
      unfold Change.renewals Renewals.andThen
      dsimp only
      rw [known]
      unfold TransactionChanges.renewals
      dsimp only
      rw [ended]
      rfl
  | updateTableSortInfo tableRef expressions =>
      obtain rfl := Except.ok.inj success
      have known := before.2.knownId_objectId later (.table tableRef)
        (present _ (by simp [Change.objects, Change.affectedTableRef]))
        ((Executors.createSortInfoOpt_extends _ _ _ expressions).trans extends_)
      have ended := liveKeys_endPending DucklakeSortInfo.tableId
        (before.2.objectId (.table tableRef)).2.snapshotId (before.2.objectId (.table tableRef)).1
        (fun info => info.tableId = (before.2.objectId (.table tableRef)).1)
        before.1.newSortInfo (by simp)
      unfold Executors.updateTableSortInfo
      dsimp only
      rw [createSortInfoOpt_renewals]
      refine Renewals.ext (Renewal.andThen_nothing _).symm (Renewal.andThen_nothing _).symm
        (Renewal.andThen_nothing _).symm (Renewal.andThen_nothing _).symm
        (Renewal.andThen_nothing _).symm ?_
      unfold Change.renewals Renewals.andThen
      dsimp only
      rw [known]
      unfold TransactionChanges.renewals
      dsimp only
      rw [tableId_eq, ended]
      rfl
  | addTableColumn parent refs column =>
      cases refs with
      | nil => cases success
      | cons first rest =>
          obtain ⟨built, builtTags, builtOk, rfl⟩ :=
            Executors.addTableColumn_eq_ok env before.1 before.2 parent first rest column after success
          have known := before.2.knownId_objectId later (.table first.tableRef)
            (present _ (by simp [Change.objects, Change.affectedTableRef])) extends_
          have keys := map_columnKey_columnRows env _ _ parent _ column _ fits.1 builtOk
          have tagKeys := columnRows_tagKeys env _ _ parent _ column _ builtOk
          have sameIds := columnId_of_extends extends_
          rw [tableId_eq] at keys tagKeys extends_ sameIds
          refine Renewals.ext (Renewal.andThen_nothing _).symm (Renewal.andThen_nothing _).symm
            ?_ ?_ (Renewal.andThen_nothing _).symm (Renewal.andThen_nothing _).symm
          · simp only [TransactionChanges.renewals, Renewals.andThen, Renewal.andThen,
              Change.renewals, known, Versioned.liveKeys_append, Versioned.liveKeys_map_new, keys,
              sameIds]
            simp
          · simp only [TransactionChanges.renewals, Renewals.andThen, Renewal.andThen,
              Change.renewals, known, List.map_append, tagKeys, columnTagKeys_of_extends extends_]
            simp
  | updateTableColumn parent columnRef column =>
      obtain ⟨built, builtOk, success⟩ := bind_eq_ok.mp success
      obtain rfl := Except.ok.inj success
      have known := before.2.knownId_objectId later (.table columnRef.tableRef)
        (present _ (by simp [Change.objects, Change.affectedTableRef])) extends_
      have keys := map_columnKey_columnRows env _ _ parent [columnRef] column _ column.size_pos
        builtOk
      have sameId : later.columnId columnRef =
          (before.2.objectId (.table columnRef.tableRef)).2.columnId columnRef :=
        columnId_of_extends extends_ columnRef
      refine Renewals.ext (Renewal.andThen_nothing _).symm (Renewal.andThen_nothing _).symm
        ?_ (Renewal.andThen_nothing _).symm (Renewal.andThen_nothing _).symm
        (Renewal.andThen_nothing _).symm
      unfold Change.renewals Renewals.andThen
      dsimp only
      rw [known, sameId]
      unfold TransactionChanges.renewals Renewal.andThen
      dsimp only
      rw [Versioned.liveKeys_append, Versioned.liveKeys_map_new, keys,
        liveKeys_dropped columnKey ((before.2.objectId (.table columnRef.tableRef)).1,
          (before.2.objectId (.table columnRef.tableRef)).2.columnId columnRef)]
      · rfl
      · intro row
        rw [decide_eq_true_iff, ← not_and_or, ne_eq]
        exact not_congr Prod.mk_inj.symm
  | removeTableColumn columnRef =>
      obtain rfl := Except.ok.inj success
      have known := before.2.knownId_objectId later (.table columnRef.tableRef)
        (present _ (by simp [Change.objects, Change.affectedTableRef])) extends_
      have sameId : later.columnId columnRef =
          (before.2.objectId (.table columnRef.tableRef)).2.columnId columnRef :=
        columnId_of_extends extends_ columnRef
      have ended := liveKeys_endPending columnKey
        (before.2.objectId (.table columnRef.tableRef)).2.snapshotId
        ((before.2.objectId (.table columnRef.tableRef)).1,
          (before.2.objectId (.table columnRef.tableRef)).2.columnId columnRef)
        (fun row => row.tableId = (before.2.objectId (.table columnRef.tableRef)).1 ∧
          row.columnId = (before.2.objectId (.table columnRef.tableRef)).2.columnId columnRef)
        before.1.newColumns (by simp [columnKey])
      refine Renewals.ext (Renewal.andThen_nothing _).symm (Renewal.andThen_nothing _).symm
        ?_ (Renewal.andThen_nothing _).symm (Renewal.andThen_nothing _).symm
        (Renewal.andThen_nothing _).symm
      unfold Change.renewals Renewals.andThen
      dsimp only
      rw [known, sameId]
      unfold TransactionChanges.renewals Renewal.andThen
      dsimp only
      rw [List.append_nil, ← ended]
      rfl

/-! ## Prepared commits -/

variable (env) in
theorem prepareCommit_renewals
    (set : ChangeSet)
    (state : CommitState)
    (prepared : PreparedCommit)
    (present : ∀ change ∈ set.changes, ∀ key ∈ change.objects, state.catalog.Has key)
    (fits : ∀ change ∈ set.changes, change.Fits)
    (success : prepareCommit env set state = .ok prepared) :
    prepared.changes.renewals = (set.changes.map (Change.renewals prepared.state)).foldl
      Renewals.andThen .nothing := by
  obtain ⟨applied, executed, _, last⟩ := prepareCommit_eq_ok env set state prepared success
  have run := set.apply_run env state _
    (fun done collected => ∀ later, collected.2.Extends later → collected.1.renewals =
      (done.map (Change.renewals later)).foldl Renewals.andThen .nothing)
    present (fun _ _ => rfl)
    (fun done change rest before after split extends_ renewed applies _ later extendsLater => by
      have member : change ∈ set.changes := by simp [split]
      have onward := change.apply_extends env before after applies
      rw [List.map_append, List.foldl_append, ← renewed later (onward.trans extendsLater)]
      exact change.apply_renewals (fits change member)
        (fun key object => (extends_.has key).mpr (present change member key object)) applies
          extendsLater)
    executed
  obtain ⟨collected, _, renewed, same, extends_⟩ := run
  rw [renewals_of_same _ _ same]
  exact renewed _ (extends_.trans ((set.appliedChangeSet_extends applied).trans last))

/-! ## One kind of row -/

theorem foldl_andThen_kind
    {κ : Type}
    [DecidableEq κ]
    (kind : Renewals → Renewal κ)
    (andThen : ∀ earlier later : Renewals,
      kind (earlier.andThen later) = (kind earlier).andThen (kind later))
    (renewals : List Renewals)
    (first : Renewals) :
    kind (renewals.foldl Renewals.andThen first) =
      (renewals.map kind).foldl Renewal.andThen (kind first) := by
  rw [List.foldl_map]
  exact (List.foldl_hom kind fun earlier later => (andThen earlier later).symm).symm

end

end

end Ducklake.Transaction
