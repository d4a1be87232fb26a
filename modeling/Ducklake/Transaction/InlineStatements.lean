import Ducklake.Db.Batch
import Ducklake.Transaction.KnownIds
import Ducklake.Transaction.RowIds

/-!
# Statements for inline data

The tables that `persist_inline_data` creates and the rows that it inserts, as statements: the names
of the columns and the number of bound values.
-/

set_option autoImplicit false

namespace Ducklake.Transaction

open Lib Caches Spec CommitState

/-! ## Statements -/

/-- The columns of `ducklake_inlined_data`. -/
def inlinedDataColumns : List Text :=
  ["row_id".toList, "begin_snapshot".toList, "end_snapshot".toList]

/-- The columns of the `CREATE TABLE` for the inline data of a schema. -/
def createdColumns (schema : Schema) : List Text :=
  inlinedDataColumns ++ schema.columns.keys

/-- An `INSERT` with a placeholder for every value. -/
structure ArrowInsert where
  columns : List Text
  numRows : Nat
  deriving DecidableEq

def ArrowInsert.binds (insert : ArrowInsert) : Nat :=
  insert.numRows * insert.columns.length

/-- `insert_all_arrow`: one statement for all rows of a batch. -/
def insertAllArrow (batch : InlinedBatch) : Option ArrowInsert :=
  if batch.data.numRows = 0 then none
  else some {
    columns := batch.data.columns.map Prod.fst ++ inlinedDataColumns
    numRows := batch.data.numRows }

structure InlineStatements where
  created : List (List Text)
  inserts : List ArrowInsert
  deriving DecidableEq

/-- The statements of `persist_inline_data`.  Nothing is written for MySQL. -/
def inlineStatements (dialect : Dialect) (changes : TransactionChanges) : InlineStatements :=
  if dialect = .mySql then { created := [], inserts := [] }
  else {
    created := changes.inlineTables.values.map createdColumns
    inserts := changes.inlineData.filterMap fun entry => insertAllArrow entry.2 }

/-- How a database takes the names of columns: two are the same if it folds them to one text, and
some it refuses, such as the empty name or names of its own system columns.  Every database takes
the names in `ducklake_inlined_data` and tells them apart. -/
structure Naming where
  fold : Text → Text
  refused : Text → Bool
  apart : (inlinedDataColumns.map fold).Nodup
  taken : inlinedDataColumns.any refused = false

/-- Names are compared as they are, and the empty name is refused. -/
def Naming.exact : Naming where
  fold name := name
  refused name := name.isEmpty
  apart := by decide
  taken := by decide

/-- The database can execute the statements: it takes the names of the columns of a new table,
which are different, and no statement binds too many values. -/
structure InlineStatements.Executable (dialect : Dialect) (naming : Naming)
    (statements : InlineStatements) : Prop where
  distinct : ∀ columns ∈ statements.created, (columns.map naming.fold).Nodup
  taken : ∀ columns ∈ statements.created, columns.any naming.refused = false
  bound : ∀ insert ∈ statements.inserts, insert.binds ≤ dialect.maxBindParams

/-! ## What the operations queued -/

/-- The columns of a schema have different names, none of which is reserved or refused. -/
structure SeparateNames (naming : Naming) (schema : Schema) : Prop where
  distinct : (schema.columns.keys.map naming.fold).Nodup
  unreserved : ∀ name ∈ schema.columns.keys, naming.fold name ∉
    inlinedDataColumns.map naming.fold
  taken : schema.columns.keys.any naming.refused = false

/-- The columns of inlined tables can stand beside those of `ducklake_inlined_data`, and the values
of every batch can be bound at once. -/
structure InlinesFit (dialect : Dialect) (naming : Naming) (catalog : Catalog)
    (set : ChangeSet) : Prop where
  names : ∀ ref ∈ set.tableRefsWithSchemaChanges,
    dialect.supportsDataInlining (catalog.tableSchema ref) = true →
      SeparateNames naming (catalog.tableSchema ref)
  sizes : ∀ ref data, .writeTableInlineData ref data ∈ set.changes → ∀ batch ∈ data,
    batch.recordBatch.numRows * (batch.recordBatch.columns.length + 3) ≤ dialect.maxBindParams

theorem separateNames_iff
    (naming : Naming)
    (schema : Schema) :
    SeparateNames naming schema ↔ ((createdColumns schema).map naming.fold).Nodup ∧
      (createdColumns schema).any naming.refused = false := by
  rw [createdColumns, List.map_append, List.nodup_append, List.any_append, naming.taken,
    Bool.false_or]
  constructor
  · intro separate
    refine ⟨⟨naming.apart, separate.distinct, ?_⟩, separate.taken⟩
    rintro system reserved second listed rfl
    obtain ⟨name, given, same⟩ := List.mem_map.mp listed
    exact separate.unreserved name given (same ▸ reserved)
  · rintro ⟨⟨_, distinct, disjoint⟩, taken⟩
    refine ⟨distinct, fun name listed reserved => ?_, taken⟩
    exact disjoint _ reserved _ (List.mem_map_of_mem listed) rfl

theorem binds_insertAllArrow
    (batch : InlinedBatch)
    (limit : Nat) :
    (∀ insert, insertAllArrow batch = some insert → insert.binds ≤ limit) ↔
      batch.data.numRows * (batch.data.columns.length + 3) ≤ limit := by
  unfold insertAllArrow
  split
  · rename_i empty
    simp [empty]
  · simp [ArrowInsert.binds, inlinedDataColumns]

theorem supportsDataInlining_mySql (schema : Schema) :
    Dialect.mySql.supportsDataInlining schema = false := by
  simp [Dialect.supportsDataInlining, Dialect.maxColumns]

/-! ## Tables that are created -/

namespace Change

theorem mem_objects_of_schemaChange
    (change : Change)
    (ref : TableRef)
    (changed : change.tableRefWithSchemaChange = some ref) :
    .table ref ∈ change.objects := by
  cases change with
  | addTableColumn parent columnRefs column =>
      cases columnRefs with
      | nil => cases changed
      | cons first rest =>
          cases changed
          simp [objects, affectedTableRef]
  | createTable | renameTable | updateTablePartitioning | updateTableColumn | removeTableColumn =>
      cases changed
      simp [objects, affectedTableRef]
  | _ => cases changed

end Change

theorem tableSchema_eq
    {start state : CommitState}
    (extends_ : start.Extends state)
    (ref : TableRef) :
    state.tableSchema ref = start.tableSchema ref :=
  congrArg CatalogColumns.schema (extends_.columns ref)

section

variable {env : Environment} {changes : List Change} {start : CommitState}
variable {before after : TransactionChanges × CommitState}

theorem createInlinedTable_eq
    (extends_ : start.Extends before.2)
    (ref : TableRef) :
    Executors.createInlinedTable env before ref =
      (if env.dialect.supportsDataInlining (start.tableSchema ref) = true then { before.1 with
        inlineTables := before.1.inlineTables.insert (before.2.objectId (.table ref)).1
          (start.tableSchema ref) } else before.1, (before.2.objectId (.table ref)).2) := by
  have same := tableSchema_eq (extends_.trans (objectId_extends before.2 (.table ref))) ref
  unfold Executors.createInlinedTable
  rw [tableId_eq]
  dsimp only
  rw [same]
  split <;> rfl

/-- Every table that is created has the schema of a table with schema changes. -/
def CreatesChanged (env : Environment) (start : CommitState) (changes : List Change)
    (rows : TransactionChanges) : Prop :=
  ∀ schema ∈ rows.inlineTables.values, ∃ change ∈ changes, ∃ ref,
    change.tableRefWithSchemaChange = some ref ∧ schema = start.tableSchema ref ∧
      env.dialect.supportsDataInlining schema = true

theorem CreatesChanged.createInlinedTable
    (creates : CreatesChanged env start changes before.1)
    (extends_ : start.Extends before.2)
    (change : Change)
    (member : change ∈ changes)
    (ref : TableRef)
    (changed : change.tableRefWithSchemaChange = some ref) :
    CreatesChanged env start changes (Executors.createInlinedTable env before ref).1 := by
  rw [createInlinedTable_eq extends_]
  dsimp only
  split
  · rename_i supported
    intro schema stored
    obtain ⟨entry, inside, rfl⟩ := List.mem_map.mp stored
    rcases IndexMap.mem_insertEntries _ _ _ entry inside with rfl | old
    · exact ⟨change, member, ref, changed, rfl, supported⟩
    · exact creates _ (List.mem_map_of_mem old)
  · exact creates

theorem Collects.createsChanged
    (step : Collects env changes before after)
    (extends_ : start.Extends before.2)
    (creates : CreatesChanged env start changes before.1) :
    CreatesChanged env start changes after.1 := by
  cases step with
  | inlined member changed => exact creates.createInlinedTable extends_ _ member _ changed
  | wroteFile member inside found success =>
      obtain ⟨_, _, success⟩ := bind_eq_ok.mp success
      obtain rfl := Except.ok.inj success
      exact creates
  | _ => exact creates

theorem Collected.createsChanged
    (steps : Collected env changes before after)
    (extends_ : start.Extends before.2)
    (creates : CreatesChanged env start changes before.1) :
    CreatesChanged env start changes after.1 := by
  induction steps with
  | refl => exact creates
  | tail earlier step ih =>
      exact step.createsChanged (extends_.trans (Collected.extends earlier)) ih

/-- A table has an entry of its own, unless it cannot be inlined. -/
def Created (env : Environment) (start : CommitState)
    (collected : TransactionChanges × CommitState) (ref : TableRef) : Prop :=
  env.dialect.supportsDataInlining (start.tableSchema ref) = true →
    ∃ id, collected.2.catalog.idOf (.table ref) = some id ∧
      collected.1.inlineTables.get? id = some (start.tableSchema ref)

theorem created_createInlinedTable
    (extends_ : start.Extends before.2)
    (ref : TableRef)
    (present : before.2.catalog.Has (.table ref)) :
    Created env start (Executors.createInlinedTable env before ref) ref := by
  intro supported
  rw [createInlinedTable_eq extends_, if_pos supported]
  exact ⟨_, idOf_objectId before.2 (.table ref) present, IndexMap.get?_insert_self _ _ _⟩

theorem Created.createInlinedTable
    {other : TableRef}
    (created : Created env start before other)
    (extends_ : start.Extends before.2)
    (ref : TableRef)
    (present : before.2.catalog.Has (.table ref))
    (apart : ∀ id, (before.2.objectId (.table ref)).2.catalog.idOf (.table ref) = some id →
      (before.2.objectId (.table ref)).2.catalog.idOf (.table other) = some id → ref = other) :
    Created env start (Executors.createInlinedTable env before ref) other := by
  intro supported
  obtain ⟨id, found, stored⟩ := created supported
  have kept := (objectId_extends before.2 (.table ref)).kept _ _ found
  rw [createInlinedTable_eq extends_]
  refine ⟨id, kept, ?_⟩
  dsimp only
  split
  · rw [IndexMap.get?_insert]
    split
    · rename_i same
      have own := idOf_objectId before.2 (.table ref) present
      rw [apart id (same ▸ own) kept]
    · exact stored
  · exact stored

theorem created_createInlinedTables
    (tables : List TableRef)
    (final : Catalog)
    (apart : ∀ ref ∈ tables, ∀ other ∈ tables, ∀ id, final.idOf (.table ref) = some id →
      final.idOf (.table other) = some id → ref = other)
    (refs done : List TableRef)
    (inside : ∀ ref ∈ refs, ref ∈ tables)
    (insideDone : ∀ ref ∈ done, ref ∈ tables)
    (before : TransactionChanges × CommitState)
    (extends_ : start.Extends before.2)
    (present : ∀ ref ∈ refs, before.2.catalog.Has (.table ref))
    (later : ∀ key id,
      (refs.foldl (Executors.createInlinedTable env) before).2.catalog.idOf key = some id →
        final.idOf key = some id)
    (created : ∀ ref ∈ done, Created env start before ref) :
    ∀ ref ∈ done ++ refs,
      Created env start (refs.foldl (Executors.createInlinedTable env) before) ref := by
  induction refs generalizing done before with
  | nil => simpa using created
  | cons ref rest ih =>
      have step := Executors.createInlinedTable_extends env before ref
      have whole := foldl_extends (Executors.createInlinedTable env)
        (Executors.createInlinedTable_extends env) rest
        (Executors.createInlinedTable env before ref)
      obtain ⟨first, others⟩ := List.forall_mem_cons.mp inside
      obtain ⟨presentFirst, presentOthers⟩ := List.forall_mem_cons.mp present
      have same : (Executors.createInlinedTable env before ref).2 =
          (before.2.objectId (.table ref)).2 := by
        rw [createInlinedTable_eq extends_]
      rw [← List.singleton_append, ← List.append_assoc]
      refine ih (done ++ [ref]) others ?_ (Executors.createInlinedTable env before ref)
        (extends_.trans step) (fun other listed => (step.has _).mpr (presentOthers other listed))
        later ?_
      · exact List.forall_mem_append.mpr ⟨insideDone, List.forall_mem_singleton.mpr first⟩
      · refine List.forall_mem_append.mpr ⟨fun other listed => ?_,
          List.forall_mem_singleton.mpr (created_createInlinedTable extends_ ref presentFirst)⟩
        refine (created other listed).createInlinedTable extends_ ref presentFirst ?_
        intro id own found
        rw [← same] at own found
        exact apart ref first other (insideDone other listed) id (later _ _ (whole.kept _ _ own))
          (later _ _ (whole.kept _ _ found))

end

/-! ## Batches that are inserted -/

theorem mem_writesTo
    (catalog : Catalog)
    (tableId : Int)
    (changes : List Change)
    (batch : CommitInlineData) :
    .batch batch ∈ writesTo catalog tableId changes ↔
      ∃ ref data, .writeTableInlineData ref data ∈ changes ∧
        catalog.idOf (.table ref) = some tableId ∧ batch ∈ data := by
  unfold writesTo
  rw [List.mem_flatMap]
  constructor
  · rintro ⟨change, member, written⟩
    unfold Change.writesTo at written
    cases change with
    | writeTableInlineData ref data =>
        simp only [Change.writes] at written
        split at written
        · rename_i own
          obtain ⟨_, inside, same⟩ := List.mem_map.mp written
          obtain rfl := Write.batch.inj same
          exact ⟨ref, data, member, own, inside⟩
        · cases written
    | writeTableDataFiles ref files =>
        simp only [Change.writes] at written
        split at written <;> simp at written
    | _ => cases written
  · rintro ⟨ref, data, member, own, inside⟩
    refine ⟨_, member, ?_⟩
    simp only [Change.writesTo, Change.writes, own, if_true]
    exact List.mem_map_of_mem inside

theorem mem_batchRanges (rows : TransactionChanges) (tableId start : Int) (data : Io.RecordBatch) :
    (start, data) ∈ batchRanges rows tableId ↔
      ∃ batch, (tableId, batch) ∈ rows.inlineData ∧ batch.rowIdStart = start ∧
        batch.data = data := by
  simp [batchRanges]

theorem prepareCommit_batches
    (env : Environment)
    (set : ChangeSet)
    (state : CommitState)
    (prepared : PreparedCommit)
    (present : ∀ change ∈ set.changes, ∀ key ∈ change.objects, state.catalog.Has key)
    (success : prepareCommit env set state = .ok prepared)
    (holds : Io.RecordBatch → Prop) :
    (∀ entry ∈ prepared.changes.inlineData, holds entry.2.data) ↔
      ∀ ref data, .writeTableInlineData ref data ∈ set.changes → ∀ batch ∈ data,
        holds batch.recordBatch := by
  have ranges := fun tableId =>
    (prepareCommit_allots env set state prepared present success tableId).2.batches
  constructor
  · intro all ref data member batch inside
    obtain ⟨tableId, found⟩ := prepareCommit_resolves set state prepared present success _ member
      (.table ref) (by simp [Change.objects, Change.affectedTableRef])
    have written := (mem_writesTo prepared.state.catalog tableId set.changes batch).mpr
      ⟨ref, data, member, found, inside⟩
    rw [← map_snd_allocate Write.numRows (CommitState.tableStatsOf state tableId).nextRowId
      (writesTo _ _ _)] at written
    obtain ⟨⟨start, _⟩, allocated, rfl⟩ := List.mem_map.mp written
    have listed : (start, batch.recordBatch) ∈ batchRanges prepared.changes tableId := by
      rw [ranges tableId]
      exact List.mem_append_right _ (List.mem_filterMap.mpr ⟨_, allocated, rfl⟩)
    obtain ⟨stored, inserted, _, same⟩ := (mem_batchRanges _ _ _ _).mp listed
    exact same ▸ all _ inserted
  · rintro all ⟨tableId, stored⟩ inserted
    have listed := (mem_batchRanges _ _ _ _).mpr ⟨stored, inserted, rfl, rfl⟩
    rw [ranges tableId] at listed
    rcases List.mem_append.mp listed with none_ | listed
    · cases none_
    · obtain ⟨⟨start, write⟩, allocated, ranged⟩ := List.mem_filterMap.mp listed
      cases write with
      | file => cases ranged
      | batch data =>
          have same := (Prod.mk.inj (Option.some.inj ranged)).2
          have written := List.mem_map_of_mem (f := Prod.snd) allocated
          rw [map_snd_allocate] at written
          obtain ⟨ref, all_, member, _, inside⟩ := (mem_writesTo _ _ _ _).mp written
          exact same ▸ all ref all_ member data inside

/-! ## Attempts -/

theorem mem_tableRefsWithSchemaChanges (set : ChangeSet) (ref : TableRef) :
    ref ∈ set.tableRefsWithSchemaChanges ↔
      ∃ change ∈ set.changes, change.tableRefWithSchemaChange = some ref := by
  rw [ChangeSet.tableRefsWithSchemaChanges, List.mem_eraseDups, List.mem_filterMap]

/-- An attempt creates exactly the tables with schema changes that can be inlined. -/
theorem prepareCommit_created
    (env : Environment)
    (set : ChangeSet)
    (state : CommitState)
    (prepared : PreparedCommit)
    (present : ∀ change ∈ set.changes, ∀ key ∈ change.objects, state.catalog.Has key)
    (success : prepareCommit env set state = .ok prepared)
    (apart : ∀ ref ∈ set.tableRefsWithSchemaChanges, ∀ other ∈ set.tableRefsWithSchemaChanges,
      ∀ id, prepared.state.catalog.idOf (.table ref) = some id →
        prepared.state.catalog.idOf (.table other) = some id → ref = other)
    (holds : Schema → Prop) :
    (∀ schema ∈ prepared.changes.inlineTables.values, holds schema) ↔
      ∀ ref ∈ set.tableRefsWithSchemaChanges,
        env.dialect.supportsDataInlining (state.tableSchema ref) = true →
          holds (state.tableSchema ref) := by
  obtain ⟨applied, executed, earlier, last⟩ := prepareCommit_eq_ok env set state prepared success
  constructor
  · intro all ref listed supported
    have whole := (set.appliedChangeSet_extends applied).trans last
    obtain ⟨_, _, executed⟩ := bind_eq_ok.mp executed
    obtain ⟨collected, ran, executed⟩ := bind_eq_ok.mp executed
    obtain ⟨rows, last⟩ := Prod.mk.inj (Except.ok.inj executed)
    have extends_ : state.Extends collected.2 :=
      foldlM_invariant (fun collected => state.Extends collected.2) (.refl state)
        (fun collected change next _ before stepped =>
          before.trans (Change.apply_extends env collected next change stepped)) ran
    have bumped : ∀ state : CommitState, state.Extends (set.bumpFileId state) := by
      intro state
      unfold ChangeSet.bumpFileId
      split
      · exact fileId_extends state
      · exact .refl state
    have tables : Created env state
        (set.tableRefsWithSchemaChanges.foldl (Executors.createInlinedTable env) collected) ref :=
      created_createInlinedTables set.tableRefsWithSchemaChanges prepared.state.catalog apart
        set.tableRefsWithSchemaChanges [] (fun _ inside => inside) (by simp) collected extends_
        (fun other changed => by
          obtain ⟨change, member, changes⟩ := (mem_tableRefsWithSchemaChanges set other).mp changed
          exact (extends_.has _).mpr
            (present change member _ (change.mem_objects_of_schemaChange other changes)))
        (fun key id found => whole.kept key id (last ▸ (bumped _).kept key id found))
        (by simp) ref listed
    obtain ⟨id, _, stored⟩ := tables supported
    exact all _ ((IndexMap.mem_values_iff _ _).mpr ⟨id, rows ▸ stored⟩)
  · intro all schema created
    have creates : CreatesChanged env state set.changes prepared.changes :=
      Collected.createsChanged (set.apply_collected env state _ present executed) (.refl state)
        (by simp [CreatesChanged, TransactionChanges.empty, IndexMap.values, IndexMap.empty])
    obtain ⟨change, member, ref, changed, rfl, supported⟩ := creates schema created
    exact all ref ((mem_tableRefsWithSchemaChanges set ref).mpr ⟨change, member, changed⟩) supported

theorem prepareCommit_mySql
    (env : Environment)
    (set : ChangeSet)
    (state : CommitState)
    (prepared : PreparedCommit)
    (success : prepareCommit env set state = .ok prepared)
    (mySql : env.dialect = .mySql)
    (ref : TableRef)
    (data : List CommitInlineData) :
    .writeTableInlineData ref data ∉ set.changes := by
  intro member
  obtain ⟨applied, executed, _, _⟩ := prepareCommit_eq_ok env set state prepared success
  obtain ⟨_, valid, _⟩ := bind_eq_ok.mp executed
  have accepted := forM_eq_ok.mp valid _ member
  simp [ChangeSet.validateInlineData, mySql, supportsDataInlining_mySql] at accepted

theorem prepareCommit_executable_iff
    (env : Environment)
    (set : ChangeSet)
    (state : CommitState)
    (prepared : PreparedCommit)
    (naming : Naming)
    (present : ∀ change ∈ set.changes, ∀ key ∈ change.objects, state.catalog.Has key)
    (success : prepareCommit env set state = .ok prepared)
    (apart : ∀ ref ∈ set.tableRefsWithSchemaChanges, ∀ other ∈ set.tableRefsWithSchemaChanges,
      ∀ id, prepared.state.catalog.idOf (.table ref) = some id →
        prepared.state.catalog.idOf (.table other) = some id → ref = other) :
    (inlineStatements env.dialect prepared.changes).Executable env.dialect naming ↔
      InlinesFit env.dialect naming state.catalog set := by
  have created := prepareCommit_created env set state prepared present success apart
    (SeparateNames naming)
  have inserted := prepareCommit_batches env set state prepared present success fun data =>
    data.numRows * (data.columns.length + 3) ≤ env.dialect.maxBindParams
  have bound := (forall_congr' fun entry : Int × InlinedBatch => imp_congr_right fun _ =>
    binds_insertAllArrow entry.2 env.dialect.maxBindParams).trans inserted
  by_cases mySql : env.dialect = .mySql
  · -- No table can be inlined, and no batch is accepted.
    rw [inlineStatements, if_pos mySql]
    refine ⟨fun _ => ⟨fun ref _ supported => ?_, fun ref data member => ?_⟩,
      fun _ => ⟨by simp, by simp, by simp⟩⟩
    · rw [mySql, supportsDataInlining_mySql] at supported
      cases supported
    · exact absurd member (prepareCommit_mySql env set state prepared success mySql ref data)
  · rw [inlineStatements, if_neg mySql]
    constructor
    · intro executable
      refine ⟨created.mp fun schema stored => ?_, bound.mp fun entry stored insert made => ?_⟩
      · exact (separateNames_iff naming schema).mpr
          ⟨executable.distinct _ (List.mem_map_of_mem stored),
            executable.taken _ (List.mem_map_of_mem stored)⟩
      · exact executable.bound insert (List.mem_filterMap.mpr ⟨entry, stored, made⟩)
    · intro fit
      constructor
      case distinct =>
        intro columns listed
        obtain ⟨schema, stored, rfl⟩ := List.mem_map.mp listed
        exact ((separateNames_iff naming schema).mp (created.mpr fit.names schema stored)).1
      case taken =>
        intro columns listed
        obtain ⟨schema, stored, rfl⟩ := List.mem_map.mp listed
        exact ((separateNames_iff naming schema).mp (created.mpr fit.names schema stored)).2
      case bound =>
        intro insert listed
        obtain ⟨entry, stored, made⟩ := List.mem_filterMap.mp listed
        exact bound.mpr fit.sizes entry stored insert made

end Ducklake.Transaction
