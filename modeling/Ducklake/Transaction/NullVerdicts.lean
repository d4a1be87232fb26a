import Ducklake.Catalog.ColumnViews
import Ducklake.Io.MatchedNulls
import Ducklake.Transaction.ColumnForests
import Ducklake.Transaction.Operations

/-!
# Verdicts on nulls

When an inline write is rejected because of a null.
-/

set_option autoImplicit false

namespace Ducklake.Transaction

open Lib Spec Io

/-! ## Statistics of a batch -/

theorem walkFields_eq (columns : List Column) :
    Column.walkFields columns = columns.flatMap Column.walk := by
  induction columns with
  | nil => rfl
  | cons column rest ih => rw [Column.walkFields, ih, List.flatMap_cons]

theorem tableSchema_named
    (catalog : Catalog)
    (tableRef : TableRef) :
    ∀ entry ∈ (catalog.tableSchema tableRef).columns.entries, entry.1 = entry.2.name := by
  intro entry member
  rcases IndexMap.mem_foldl_insert _ _ _ member with inside | impossible
  · obtain ⟨idx, _, rfl⟩ := List.mem_map.mp inside
    exact (CatalogColumns.name_schemaColumn _ idx).symm
  · cases impossible

theorem computeRecordBatchStatistics_eq
    (schema : Schema)
    (named : ∀ entry ∈ schema.columns.entries, entry.1 = entry.2.name)
    (shown : Nat → Bool)
    (numRows : Nat)
    (arrays : List ArrowArray) :
    computeRecordBatchStatistics schema
        ⟨numRows, (schema.columns.values.map Column.name).zip arrays⟩ =
      (leafArraysOfFields shown arrays schema.columns.values).foldl
        (fun result leaf => result.insert leaf.id leaf.statistics) .empty := by
  have found : ∀ column ∈ schema.columns.values, schema.columns.get? column.name = some column := by
    intro column member
    obtain ⟨entry, inside, rfl⟩ := List.mem_map.mp member
    refine (IndexMap.get?_eq_some_iff _ _ _).mpr ?_
    rwa [← named entry inside]
  unfold computeRecordBatchStatistics
  generalize schema.columns.values = columns at found
  generalize (IndexMap.empty : IndexMap Int ArrayColumnStats) = result
  induction columns generalizing arrays result with
  | nil => rfl
  | cons column rest ih =>
      cases arrays with
      | nil => rfl
      | cons array arrays =>
          obtain ⟨first, others⟩ := List.forall_mem_cons.mp found
          rw [List.map_cons, List.zip_cons_cons, List.foldl_cons, first, leafArraysOfFields,
            List.foldl_append, ← computeArrayStatistics_eq shown result array column]
          exact ih arrays others _

/-- What the catalog says about the columns of a table: they have ids of their own, by which they
are found. -/
structure ColumnsKnown (catalog : Catalog) (tableRef : TableRef) : Prop where
  unique : (((catalog.tableSchema tableRef).columns.values.flatMap Column.walk).map Prod.fst).Nodup
  known : ∀ entry ∈ (catalog.tableSchema tableRef).columns.values.flatMap Column.walk,
    ∃ ref, catalog.columnRefById tableRef entry.1 = .ok ref

theorem walk_eq (column : Column) :
    column.walk = (column.fieldId.map fun id => (id, column)).toList ++
      column.dtype.children.flatMap Column.walk := by
  obtain ⟨name, dtype, nullable, tags, initialDefault, defaultValue, fieldId⟩ := column
  cases dtype with
  | primitive => rfl
  | list inner => simp [Column.walk, Column.walkChildren, DataType.children, Column.dtype, Column.fieldId]
  | struct fields =>
      simp [Column.walk, Column.walkChildren, DataType.children, walkFields_eq, Column.dtype,
        Column.fieldId]
  | map key value => simp [Column.walk, Column.walkChildren, DataType.children, Column.dtype, Column.fieldId]

theorem map_fst_walk (column : Column) : column.walk.map Prod.fst = column.treeIds := by
  induction column using Column.induct with
  | step column ih =>
      rw [walk_eq, Column.treeIds_eq, List.map_append, List.map_flatMap, List.flatMap_congr ih]
      cases column.fieldId <;> rfl

theorem columnsKnown_load
    (env : Environment)
    (db : Database)
    (snapshotId : Int)
    (catalog : Catalog)
    (once : ((Versioned.entitiesAt snapshotId db.columns).map columnKey).Nodup)
    (success : Catalog.load env db snapshotId = .ok catalog)
    (ref : TableRef)
    (present : catalog.Has (.table ref)) :
    ColumnsKnown catalog ref := by
  have ids : ((catalog.tableSchema ref).columns.values.flatMap Column.walk).map Prod.fst =
      Transfer.activeColumnIds (catalog.table ref).columns.schema := by
    rw [List.map_flatMap, Transfer.activeColumnIds, List.filterMap_flatMap]
    exact List.flatMap_congr fun column _ => map_fst_walk column
  have forest := forests_load env db snapshotId catalog once success ref present
  obtain ⟨row, _, loaded⟩ := Catalog.load_table env db snapshotId catalog success ref present
  have indexed := (CatalogColumns.fromDucklake_loadedFrom env _ _ _ loaded.columns).indexed
  constructor
  · rw [ids]
    exact nodup_activeColumnIds_load env db snapshotId catalog once success ref present
  · intro entry member
    have stored : entry.1 ∈ (catalog.table ref).columns.ids := by
      refine forest.ready.linked.activeColumnIds_subset ?_
      rw [← ids]
      exact List.mem_map_of_mem member
    obtain ⟨idx, found⟩ := List.getElem?_of_mem stored
    refine ⟨⟨ref, idx⟩, ?_⟩
    unfold Catalog.columnRefById
    rw [(indexed forest.unique entry.1 idx).mpr found]

theorem ColumnsKnown.columnsById
    {catalog : Catalog}
    {tableRef : TableRef}
    (columns : ColumnsKnown catalog tableRef)
    (shown : Nat → Bool)
    (arrays : List ArrowArray)
    (leaf : Leaf)
    (member : leaf ∈ leafArraysOfFields shown arrays (catalog.tableSchema tableRef).columns.values) :
    (catalog.tableSchema tableRef).columnsById.get? leaf.id = some leaf.column ∧
      ∃ ref, catalog.columnRefById tableRef leaf.id = .ok ref := by
  have inside : (leaf.id, leaf.column) ∈
      (catalog.tableSchema tableRef).columns.values.flatMap Column.walk := by
    rw [← walkFields_eq]
    exact (leafArraysOfFields_sublist_walk shown arrays _).subset
      (List.mem_map_of_mem (f := fun leaf => (leaf.id, leaf.column)) member)
  refine ⟨(IndexMap.get?_ofList_of_functional _ ?_ _ _).mpr inside, columns.known _ inside⟩
  intro entry listed other otherListed same
  exact congrArg Prod.snd (List.inj_on_of_nodup_map columns.unique listed otherListed same)

theorem ColumnsKnown.entries_statistics
    {catalog : Catalog}
    {tableRef : TableRef}
    (columns : ColumnsKnown catalog tableRef)
    (shown : Nat → Bool)
    (numRows : Nat)
    (arrays : List ArrowArray) :
    (computeRecordBatchStatistics (catalog.tableSchema tableRef)
        ⟨numRows, ((catalog.tableSchema tableRef).columns.values.map Column.name).zip
          arrays⟩).entries =
      (leafArraysOfFields shown arrays (catalog.tableSchema tableRef).columns.values).map
        fun leaf => (leaf.id, leaf.statistics) := by
  have sublist := (leafArraysOfFields_sublist_walk shown arrays
    (catalog.tableSchema tableRef).columns.values).map Prod.fst
  rw [walkFields_eq, List.map_map] at sublist
  have unique : (((leafArraysOfFields shown arrays (catalog.tableSchema tableRef).columns.values).map
      fun leaf => (leaf.id, leaf.statistics)).map Prod.fst).Nodup := by
    rw [List.map_map]
    exact columns.unique.sublist sublist
  rw [computeRecordBatchStatistics_eq _ (tableSchema_named catalog tableRef) shown,
    ← IndexMap.ofList_entries_of_nodup _ unique, IndexMap.ofList, List.foldl_map]

theorem forbiddenNulls_ne_nil_iff (leaf : Leaf) :
    leaf.forbiddenNulls ≠ [] ↔ leaf.column.nullable = false ∧
      (leaf.statistics.nullCount).getD 0 > 0 := by
  unfold Leaf.forbiddenNulls
  cases required : leaf.column.nullable with
  | true => simp
  | false =>
      simp only [Bool.false_eq_true, if_false, true_and]
      rw [ne_eq, leaf.nulls_eq_nil_iff]
      exact Nat.pos_iff_ne_zero.symm

theorem commitColumnStats_succeedsIf
    (catalog : Catalog)
    (tableRef : TableRef)
    (leaf : Leaf)
    (found : (catalog.tableSchema tableRef).columnsById.get? leaf.id = some leaf.column)
    (ref : ColumnRef)
    (known : catalog.columnRefById tableRef leaf.id = .ok ref) :
    SucceedsIf leaf.forbiddenNulls.isEmpty IsInvalidNull
      (commitColumnStats catalog tableRef ArrayColumnStats.nullCount (leaf.id, leaf.statistics)) := by
  have read := forbiddenNulls_ne_nil_iff leaf
  unfold commitColumnStats
  rw [found]
  dsimp only
  split
  · rename_i rejected
    exact ⟨by simpa using read.mpr (by simpa using rejected), leaf.column.name, rfl⟩
  · rename_i accepted
    have nothing := not_not.mp (mt read.mp (by simpa using accepted))
    rw [nothing, known]
    exact .ok _

theorem mapM_map
    {α β γ ε : Type}
    (items : List α)
    (g : α → β)
    (f : β → Except ε γ) :
    (items.map g).mapM f = items.mapM fun item => f (g item) := by
  induction items with
  | nil => rfl
  | cons item rest ih => rw [List.map_cons, List.mapM_cons, List.mapM_cons, ih]

/-- A batch is rejected if a null is read in it that its column forbids. -/
theorem commitInlineData_succeedsIf
    (env : Environment)
    (filled : BroadcastsFilled env)
    (catalog : Catalog)
    (tableRef : TableRef)
    (columns : ColumnsKnown catalog tableRef)
    (batch converted : RecordBatch)
    (success : convertToSchema env batch (catalog.tableSchema tableRef) = .ok converted) :
    SucceedsIf (converted.nullsRead (catalog.tableSchema tableRef).columns.values).isEmpty
      IsInvalidNull (commitInlineData env catalog tableRef batch) := by
  obtain ⟨matched, same⟩ :=
    matchToSchema_succeedsIf env filled batch converted (catalog.tableSchema tableRef) success
  obtain ⟨arrays, _, sameLength, shape, _⟩ :=
    convertToSchema_eq_ok env batch converted (catalog.tableSchema tableRef) success
  have nulls : (converted.nullsRead (catalog.tableSchema tableRef).columns.values).isEmpty =
      ((converted.matchedNulls (catalog.tableSchema tableRef).columns.values).isEmpty &&
        (leafArraysOfFields converted.isRow arrays (catalog.tableSchema tableRef).columns.values).all
          fun leaf => leaf.forbiddenNulls.isEmpty) := by
    have own : converted.columns.map Prod.snd = arrays := by
      rw [shape]
      exact map_snd_zip_names _ arrays sameLength
    rw [RecordBatch.nullsRead, isEmpty_append, RecordBatch.leafArrays, own, isEmpty_flatMap,
      RecordBatch.matchedNulls, own]
  rw [nulls]
  refine matched.bind fun value success => ?_
  obtain rfl := same value success
  have entries := columns.entries_statistics value.isRow batch.numRows arrays
  rw [← shape] at entries
  refine SucceedsIf.bind_ok ?_
  rw [entries, mapM_map]
  refine SucceedsIf.mapM _ _ fun leaf member => ?_
  obtain ⟨found, ref, known⟩ := columns.columnsById value.isRow arrays leaf member
  exact commitColumnStats_succeedsIf catalog tableRef leaf found ref known

/-! ## Inline writes -/

def NullRejected (env : Environment) (name : QualifiedName) (data : List RecordBatch)
    (tx : Transaction) : Prop :=
  ∃ column, writeTableInlineData env name data tx = .error (.invalidNullValue column)

/-- Some row has a null that its column forbids, in a value all of whose ancestors are there. -/
def ShowsNull (columns : List Column) (rows : List (List Datum)) : Prop :=
  ∃ row ∈ rows, ForbiddenFields columns row

/-- Some null is read that its column forbids, but that no row shows. -/
def HidesNull (columns : List Column) (batches : List RecordBatch) : Prop :=
  ∃ batch ∈ batches, false ∈ batch.nullsRead columns

theorem showsNull_iff
    (columns : List Column)
    (batches : List RecordBatch) :
    ShowsNull columns (batches.flatMap RecordBatch.rows) ↔
      ∃ batch ∈ batches, true ∈ batch.nullsRead columns := by
  simp only [ShowsNull, List.mem_flatMap, RecordBatch.true_mem_nullsRead]
  constructor
  · rintro ⟨row, ⟨batch, member, inside⟩, forbidden⟩
    exact ⟨batch, member, row, inside, forbidden⟩
  · rintro ⟨batch, member, row, inside, forbidden⟩
    exact ⟨row, ⟨batch, member, inside⟩, forbidden⟩

section

variable {env : Environment} {tx : Transaction} {name : QualifiedName} {tableRef : TableRef}

/-- A write is rejected if a null is read, whether a row shows it or not. -/
theorem nullRejected_iff
    (filled : BroadcastsFilled env)
    (found : tx.catalog.tableRef name = .ok tableRef)
    (inlined : env.dialect.supportsDataInlining (tx.catalog.tableSchema tableRef) = true)
    (columns : ColumnsKnown tx.catalog tableRef)
    (data converted : List RecordBatch)
    (success : data.mapM (fun batch => convertToSchema env batch (tx.catalog.tableSchema tableRef)) =
      .ok converted) :
    NullRejected env name data tx ↔
      ∃ batch ∈ converted, batch.nullsRead (tx.catalog.tableSchema tableRef).columns.values ≠ [] := by
  have all := mapM_eq_ok.mp success
  have decided : SucceedsIf (converted.all fun batch =>
      (batch.nullsRead (tx.catalog.tableSchema tableRef).columns.values).isEmpty) IsInvalidNull
        (data.mapM (commitInlineData env tx.catalog tableRef)) := by
    clear success
    induction all with
    | nil => exact .ok []
    | @cons batch result rest others first _ ih =>
        rw [List.mapM_cons, List.all_cons]
        exact (commitInlineData_succeedsIf env filled tx.catalog tableRef columns batch result
          first).bind fun _ _ => ih.bind_ok
  have written : writeTableInlineData env name data tx =
      (data.mapM (commitInlineData env tx.catalog tableRef)).map fun data =>
        tx.record tx.catalog (.writeTableInlineData tableRef data) := by
    unfold writeTableInlineData
    rw [found]
    exact if_pos inlined
  have read : (∃ batch ∈ converted,
      batch.nullsRead (tx.catalog.tableSchema tableRef).columns.values ≠ []) ↔
        (converted.all fun batch =>
          (batch.nullsRead (tx.catalog.tableSchema tableRef).columns.values).isEmpty) = false := by
    rw [List.all_eq_false]
    simp
  unfold NullRejected
  rw [written, read]
  cases outcome : data.mapM (commitInlineData env tx.catalog tableRef) with
  | ok batches =>
      rw [outcome] at decided
      have accepted : (converted.all fun batch =>
        (batch.nullsRead (tx.catalog.tableSchema tableRef).columns.values).isEmpty) = true := decided
      rw [accepted]
      exact iff_of_false (fun ⟨_, failed⟩ => by cases failed) Bool.true_eq_false.mp
  | error err =>
      rw [outcome] at decided
      obtain ⟨rejected, column, rfl⟩ := decided
      exact iff_of_true ⟨column, rfl⟩ rejected

/-- An inline write is rejected exactly when a row shows a null that its column forbids, and so
writes of the same rows are treated the same, if and only if no null that is read is hidden, or a
row shows one as well. -/
theorem nullVerdict_exact_iff
    (filled : BroadcastsFilled env)
    (found : tx.catalog.tableRef name = .ok tableRef)
    (inlined : env.dialect.supportsDataInlining (tx.catalog.tableSchema tableRef) = true)
    (columns : ColumnsKnown tx.catalog tableRef)
    (first second firstConverted secondConverted : List RecordBatch)
    (firstMatches : first.mapM (fun batch =>
      convertToSchema env batch (tx.catalog.tableSchema tableRef)) = .ok firstConverted)
    (secondMatches : second.mapM (fun batch =>
      convertToSchema env batch (tx.catalog.tableSchema tableRef)) = .ok secondConverted) :
    let required := (tx.catalog.tableSchema tableRef).columns.values
    let rows := fun batches : List RecordBatch => batches.flatMap RecordBatch.rows
    ((NullRejected env name first tx ↔ ShowsNull required (rows firstConverted)) ∧
        (NullRejected env name second tx ↔ ShowsNull required (rows secondConverted)) ∧
        (rows firstConverted = rows secondConverted →
          (NullRejected env name first tx ↔ NullRejected env name second tx))) ↔
      (HidesNull required firstConverted → ShowsNull required (rows firstConverted)) ∧
        (HidesNull required secondConverted → ShowsNull required (rows secondConverted)) := by
  intro required rows
  have exact_ : ∀ data converted : List RecordBatch, data.mapM (fun batch =>
      convertToSchema env batch (tx.catalog.tableSchema tableRef)) = .ok converted →
        ((NullRejected env name data tx ↔ ShowsNull required (rows converted)) ↔
          (HidesNull required converted → ShowsNull required (rows converted))) := by
    intro data converted success
    rw [nullRejected_iff filled found inlined columns data converted success, showsNull_iff]
    constructor
    · rintro same ⟨batch, member, hidden⟩
      exact same.mp ⟨batch, member, List.ne_nil_of_mem hidden⟩
    · refine fun shown => ⟨?_, ?_⟩
      · rintro ⟨batch, member, read⟩
        obtain ⟨flag, inside⟩ := List.exists_mem_of_ne_nil _ read
        cases flag with
        | true => exact ⟨batch, member, inside⟩
        | false => exact shown ⟨batch, member, inside⟩
      · rintro ⟨batch, member, inside⟩
        exact ⟨batch, member, List.ne_nil_of_mem inside⟩
  rw [exact_ first firstConverted firstMatches, exact_ second secondConverted secondMatches]
  constructor
  · exact fun both => ⟨both.1, both.2.1⟩
  · intro both
    refine ⟨both.1, both.2, fun same => ?_⟩
    rw [(exact_ first firstConverted firstMatches).mpr both.1,
      (exact_ second secondConverted secondMatches).mpr both.2, same]

end

/-! ## A hidden null -/

def structTable : Catalog where
  schemaArena := ⟨[{
    id := some 0
    name := "main".toList
    tables := .ofList [("t".toList, 0)]
    views := .empty
    macros := .empty
    path := .relative "main/".toList }], .ofList [(0, 0)]⟩
  tableArena := ⟨[{
    id := some 1
    name := ⟨"main".toList, "t".toList⟩
    columns := {
      arena := [⟨1, "s".toList, .struct (.ofList [("a".toList, 1)]), none, true, default, none,
          .literal none⟩,
        ⟨2, "a".toList, .primitive .int32, some 0, false, default, none, .literal none⟩]
      byId := .ofList [(1, 0), (2, 1)]
      rootColumns := .ofList [("s".toList, 0)]
      nextColumnId := some 3 }
    partition := none
    sortInfo := none
    tags := default
    path := .relative "t/".toList }], .ofList [(1, 0)]⟩
  viewArena := ⟨[], .empty⟩
  macroArena := ⟨[], .empty⟩
  schemas := .ofList [("main".toList, 0)]

def structBatch (present : Bool) (value : Option Scalar) : RecordBatch :=
  ⟨1, [("s".toList, .struct [present] [("a".toList, .leaf .int32 [value])])]⟩

def structTransaction : Transaction :=
  .new ⟨1, 1, 2, 0⟩ structTable

theorem structTable_columnsKnown : ColumnsKnown structTable ⟨0⟩ where
  unique := by decide +kernel
  known := by
    have found : ∀ entry ∈ (structTable.tableSchema ⟨0⟩).columns.values.flatMap Column.walk,
        (structTable.columnRefById ⟨0⟩ entry.1).isOk = true := by
      decide +kernel
    intro entry member
    have known := found entry member
    cases located : structTable.columnRefById ⟨0⟩ entry.1 with
    | ok ref => exact ⟨ref, rfl⟩
    | error err =>
        rw [located] at known
        cases known

theorem broadcastsFilled_plain : BroadcastsFilled .plain :=
  fun _ _ _ _ impossible => by cases impossible

theorem nullRejected_structBatch_iff
    (present : Bool)
    (value : Option Scalar)
    (matches_ : [structBatch present value].mapM (fun batch =>
      convertToSchema .plain batch (structTable.tableSchema ⟨0⟩)) = .ok [structBatch present value]) :
    NullRejected .plain ⟨"main".toList, "t".toList⟩ [structBatch present value] structTransaction ↔
      (structBatch present value).nullsRead (structTable.tableSchema ⟨0⟩).columns.values ≠ [] := by
  refine (nullRejected_iff broadcastsFilled_plain
    (show structTransaction.catalog.tableRef ⟨"main".toList, "t".toList⟩ = .ok ⟨0⟩ from rfl)
    (by decide +kernel) structTable_columnsKnown _ _ matches_).trans ?_
  simp only [List.mem_singleton, exists_eq_left]
  exact Iff.rfl

/-- A null struct hides its fields: both batches have the row with that struct, but only one of
them is accepted. -/
theorem not_exact_hiddenNull :
    NullRejected .plain ⟨"main".toList, "t".toList⟩ [structBatch false none] structTransaction ∧
      ¬ ShowsNull (structTable.tableSchema ⟨0⟩).columns.values (structBatch false none).rows ∧
      (structBatch false none).rows = (structBatch false (some (.int32 0))).rows ∧
      ¬ NullRejected .plain ⟨"main".toList, "t".toList⟩ [structBatch false (some (.int32 0))]
        structTransaction := by
  refine ⟨(nullRejected_structBatch_iff _ _ rfl).mpr (by decide +kernel), ?_, rfl, ?_⟩
  · rw [ShowsNull, ← RecordBatch.true_mem_nullsRead]
    decide +kernel
  · rw [nullRejected_structBatch_iff _ _ rfl]
    decide +kernel

/-- The null of a struct that is there. -/
theorem nullVerdict_exact_iff_shownNull :
    (NullRejected .plain ⟨"main".toList, "t".toList⟩ [structBatch true none] structTransaction ↔
        ShowsNull (structTable.tableSchema ⟨0⟩).columns.values (structBatch true none).rows) ∧
      ShowsNull (structTable.tableSchema ⟨0⟩).columns.values (structBatch true none).rows := by
  have exact_ := (nullVerdict_exact_iff broadcastsFilled_plain
    (show structTransaction.catalog.tableRef ⟨"main".toList, "t".toList⟩ = .ok ⟨0⟩ from rfl)
    (by decide +kernel) structTable_columnsKnown [structBatch true none] [structBatch false
      (some (.int32 0))] [structBatch true none] [structBatch false (some (.int32 0))] rfl rfl).mpr
    ⟨fun hides => absurd hides (by unfold HidesNull; decide +kernel),
      fun hides => absurd hides (by unfold HidesNull; decide +kernel)⟩
  refine ⟨?_, ?_⟩
  · have rows : [structBatch true none].flatMap RecordBatch.rows = (structBatch true none).rows := by
      simp
    exact exact_.1.trans (iff_of_eq (congrArg _ rows))
  · rw [ShowsNull, ← RecordBatch.true_mem_nullsRead]
    decide +kernel

end Ducklake.Transaction
