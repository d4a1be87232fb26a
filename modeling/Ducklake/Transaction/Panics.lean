import Ducklake.Catalog.Loaded
import Ducklake.Catalog.Trees
import Ducklake.Transaction.Partitioning

/-!
# Panics of a commit

Executors index into the references of columns and look up partition ids.  Whether all of them
are there depends only on the changes and on the tables' partitioning in the final catalog.
-/

set_option autoImplicit false

namespace Ducklake

open Lib Caches Spec Transaction

namespace Transaction

/-- The message for the combination that is not implemented yet. -/
def inlineWithSchemaChange : Text :=
  ("Cannot currently write inline data to a table that has schema changes" ++
    " within the same transaction").toList

def Panics (err : DucklakeError) : Prop :=
  ∃ text, err = .panicked text ∧ text ≠ inlineWithSchemaChange

/-- Whether an executor finds everything that it looks up for a change. -/
def Change.isApplicable (catalog : Catalog) : Change → Bool
  | createTable _ tableRef columnRefs partitionColumnRefs _ columns _ partitionColumns .. =>
      (columns.zip columnRefs).all (fun entry => entry.1.flatten.length ≤ entry.2.length) &&
        (!(partitionColumnRefs.isSome && partitionColumns.isSome) || isPartitioned catalog tableRef)
  | updateTablePartitioning tableRef partitionColumnRefs partitionColumns =>
      !(partitionColumnRefs.isSome && partitionColumns.isSome) || isPartitioned catalog tableRef
  | writeTableDataFiles tableRef dataFiles =>
      dataFiles.all fun file => file.partitionValues.isNone || isPartitioned catalog tableRef
  | addTableColumn _ columnRefs column =>
      !columnRefs.isEmpty && column.flatten.length ≤ columnRefs.length && column.tags.isEmpty
  | updateTableColumn _ _ column => column.flatten.length ≤ 1
  | _ => true

end Transaction

/-! ## Executors -/

namespace Transaction

theorem CommitState.Extends.isPartitioned
    {before after : CommitState}
    (extends_ : before.Extends after)
    (ref : TableRef) :
    isPartitioned after.catalog ref = isPartitioned before.catalog ref := by
  have bounded : ∀ catalog : Catalog, Transaction.isPartitioned catalog ref = true ↔
      catalog.Has (.partition ref) := by
    intro catalog
    refine ⟨fun filled => ⟨?_, filled⟩, fun present => present.2⟩
    rcases Nat.lt_or_ge ref.idx catalog.tableArena.arena.length with inside | outside
    · exact inside
    · have empty : catalog.table ref = default := by
        simp [Catalog.table, Arena.get, List.getElem?_eq_none outside]
      rw [Transaction.isPartitioned, empty] at filled
      cases filled
  rw [Bool.eq_iff_iff, bounded, bounded]
  exact extends_.has (.partition ref)

theorem CommitState.Extends.isApplicable
    {before after : CommitState}
    (extends_ : before.Extends after) :
    Change.isApplicable after.catalog = Change.isApplicable before.catalog := by
  funext change
  cases change <;> simp [Change.isApplicable, extends_.isPartitioned]

namespace Executors

section

variable (env : Environment) (changes : TransactionChanges) (state : CommitState)

theorem columnRows_succeeds
    (tableId : Int)
    (parent : Option ColumnRef)
    (columnRefs : List ColumnRef)
    (column : Column) :
    SucceedsIf (column.flatten.length ≤ columnRefs.length) Panics
      (columnRows env state tableId parent columnRefs column) := by
  unfold columnRows
  simp only [List.length_map]
  by_cases short : columnRefs.length < column.flatten.length
  · rw [if_pos short, decide_eq_false (Nat.not_le_of_lt short)]
    exact .error _ ⟨_, rfl, by decide⟩
  · rw [if_neg short, decide_eq_true (Nat.le_of_not_lt short)]
    exact .ok _

theorem partitionId_succeeds (tableRef : TableRef) :
    SucceedsIf (isPartitioned state.catalog tableRef) Panics (state.partitionId tableRef) := by
  unfold CommitState.partitionId isPartitioned
  split
  · rename_i defined
    rw [defined]
    exact .ok _
  · rename_i missing
    rw [Bool.not_eq_true] at missing
    rw [missing]
    exact .error _ ⟨_, rfl, by decide⟩

theorem createPartitioningOpt_succeeds
    (tableRef : TableRef)
    (tableId : Int)
    (partitionColumnRefs : Option (List ColumnRef))
    (partitionColumns : Option Partition) :
    SucceedsIf (!(partitionColumnRefs.isSome && partitionColumns.isSome) ||
        isPartitioned state.catalog tableRef) Panics
      (createPartitioningOpt changes state tableRef tableId partitionColumnRefs
        partitionColumns) := by
  unfold createPartitioningOpt
  cases partitionColumnRefs with
  | none => exact .ok _
  | some refs =>
      cases partitionColumns with
      | none => exact .ok _
      | some columns =>
          exact (partitionId_succeeds state tableRef).bind_ok

theorem filePartitionId_succeeds
    (tableRef : TableRef)
    (file : CommitDataFile) :
    SucceedsIf (file.partitionValues.isNone || isPartitioned state.catalog tableRef) Panics
      (filePartitionId state tableRef file) := by
  unfold filePartitionId
  cases file.partitionValues with
  | none => exact .ok _
  | some values =>
      exact (partitionId_succeeds state tableRef).bind_ok

theorem addDataFile_succeeds
    (tableRef : TableRef)
    (tableId : Int)
    (collected : TransactionChanges × CommitState)
    (file : CommitDataFile) :
    SucceedsIf (file.partitionValues.isNone || isPartitioned collected.2.catalog tableRef) Panics
      (addDataFile env tableRef tableId collected file) := by
  exact (filePartitionId_succeeds
    (updateTableStatsFromFile collected.2.fileId.2 tableId file) tableRef file).bind_ok

theorem writeTableData_succeeds
    (tableRef : TableRef)
    (dataFiles : List CommitDataFile) :
    SucceedsIf (dataFiles.all fun file =>
        file.partitionValues.isNone || isPartitioned state.catalog tableRef) Panics
      (writeTableData env changes state tableRef dataFiles) := by
  have extends_ := CommitState.objectId_extends state (.table tableRef)
  have files : SucceedsIf (dataFiles.all fun file =>
        file.partitionValues.isNone || isPartitioned state.catalog tableRef) Panics
      (dataFiles.foldlM (addDataFile env tableRef (state.objectId (.table tableRef)).1)
        (changes, (state.objectId (.table tableRef)).2)) := by
    refine SucceedsIf.foldlM dataFiles _ _ (fun collected => state.Extends collected.2) extends_ ?_
    intro collected file member before
    have decided := addDataFile_succeeds env tableRef (state.objectId (.table tableRef)).1
      collected file
    rw [before.isPartitioned] at decided
    exact ⟨decided, fun next success =>
      before.trans (addDataFile_extends env tableRef _ collected file next success)⟩
  exact files.bind_ok

theorem createTable_succeeds
    (schemaRef : SchemaRef)
    (tableRef : TableRef)
    (columnRefs : List (List ColumnRef))
    (partitionColumnRefs : Option (List ColumnRef))
    (name : QualifiedName)
    (columns : List Column)
    (retiredColumns : List DucklakeColumn)
    (partitionColumns : Option Partition)
    (sortInfo : Option SortInfo)
    (path : DucklakePath)
    (tags : Tags) :
    SucceedsIf ((columns.zip columnRefs).all (fun entry =>
          entry.1.flatten.length ≤ entry.2.length) &&
        (!(partitionColumnRefs.isSome && partitionColumns.isSome) ||
          isPartitioned state.catalog tableRef)) Panics
      (createTable env changes state schemaRef tableRef columnRefs partitionColumnRefs name columns
        retiredColumns partitionColumns sortInfo path tags) := by
  have extends_ := (CommitState.objectId_extends state (.table tableRef)).trans
    (CommitState.objectId_extends _ (.schema schemaRef))
  refine (SucceedsIf.mapM (columns.zip columnRefs) _ fun entry _ =>
    columnRows_succeeds env _ _ none entry.2 entry.1).bind fun built _ => ?_
  rw [← extends_.isPartitioned]
  exact (createPartitioningOpt_succeeds _ _ tableRef _ partitionColumnRefs partitionColumns).bind_ok

end

end Executors

/-! ## Changes -/

theorem Change.apply_succeeds
    (env : Environment)
    (collected : TransactionChanges × CommitState)
    (change : Change) :
    SucceedsIf (change.isApplicable collected.2.catalog) Panics (change.apply env collected) := by
  cases change with
  | createTable schemaRef tableRef columnRefs partitionColumnRefs name columns retiredColumns
      partitionColumns sortInfo path tags =>
      exact Executors.createTable_succeeds env _ _ _ _ _ _ _ _ _ _ _ _ _
  | writeTableDataFiles tableRef dataFiles =>
      exact Executors.writeTableData_succeeds env _ _ _ _
  | updateTablePartitioning tableRef partitionColumnRefs partitionColumns =>
      have extends_ := CommitState.objectId_extends collected.2 (.table tableRef)
      rw [Change.isApplicable, ← extends_.isPartitioned]
      exact Executors.createPartitioningOpt_succeeds _ _ tableRef _ partitionColumnRefs
        partitionColumns
  | addTableColumn parent columnRefs column =>
      cases columnRefs with
      | nil => exact .error _ ⟨_, rfl, by decide⟩
      | cons first rest =>
          refine (Executors.columnRows_succeeds env _ _ parent (first :: rest) column).bind
            fun rows _ => ?_
          dsimp only
          split
          · rename_i plain
            rw [plain]
            exact .ok _
          · rename_i tagged
            rw [Bool.not_eq_true] at tagged
            rw [tagged]
            exact .error _ ⟨_, rfl, by decide⟩
  | updateTableColumn parent columnRef column =>
      exact (Executors.columnRows_succeeds env
        (collected.2.objectId (.table columnRef.tableRef)).2 _ parent [columnRef] column).bind_ok
  | _ => exact .ok _

/-! ## Change sets -/

/-- Whether the inline data that a change writes can be stored with the final schema. -/
def Change.inlineDataFits (env : Environment) (state : CommitState) (change : Change) : Bool :=
  (ChangeSet.validateInlineData env state change).isOk

theorem validateInlineData_error
    (env : Environment)
    (state : CommitState)
    (change : Change)
    (err : DucklakeError)
    (failure : ChangeSet.validateInlineData env state change = .error err) :
    ¬Panics err := by
  rintro ⟨text, rfl, _⟩
  unfold ChangeSet.validateInlineData at failure
  split at failure
  · split at failure <;> cases failure
  · cases failure

theorem forM_validateInlineData
    (env : Environment)
    (state : CommitState)
    (changes : List Change) :
    (changes.forM (ChangeSet.validateInlineData env state) = .ok .unit ∧
        changes.all (Change.inlineDataFits env state) = true) ∨
      ∃ err, changes.forM (ChangeSet.validateInlineData env state) = .error err ∧ ¬Panics err ∧
        changes.all (Change.inlineDataFits env state) = false := by
  induction changes with
  | nil => exact Or.inl ⟨rfl, rfl⟩
  | cons change rest ih =>
      rw [List.forM_eq_forM, List.forM_cons, ← List.forM_eq_forM, List.all_cons]
      cases validated : ChangeSet.validateInlineData env state change with
      | ok _ =>
          have fits : change.inlineDataFits env state = true := by
            simp [Change.inlineDataFits, validated]
            rfl
          rw [fits, Bool.true_and]
          exact ih
      | error err =>
          refine Or.inr ⟨err, rfl, validateInlineData_error env state change err validated, ?_⟩
          have refused : change.inlineDataFits env state = false := by
            simp [Change.inlineDataFits, validated]
            rfl
          rw [refused, Bool.false_and]

/-- An attempt panics when all inline data can be stored but some executor misses something. -/
theorem prepareCommit_panics_iff
    (env : Environment)
    (set : ChangeSet)
    (state : CommitState) :
    (∃ err, prepareCommit env set state = .error err ∧ Panics err) ↔
      set.changes.all (Change.inlineDataFits env state) = true ∧
        set.changes.all (Change.isApplicable state.catalog) = false := by
  have applied : SucceedsIf (set.changes.all (Change.isApplicable state.catalog)) Panics
      (set.changes.foldlM (Change.apply env) (TransactionChanges.empty, state)) := by
    refine SucceedsIf.foldlM set.changes _ _ (fun collected => state.Extends collected.2)
      (.refl state) fun collected change member before => ⟨?_, fun next success =>
        before.trans (Change.apply_extends env collected next change success)⟩
    have decided := Change.apply_succeeds env collected change
    rwa [before.isApplicable] at decided
  rcases forM_validateInlineData env state set.changes with
    ⟨validated, fits⟩ | ⟨err, refused, harmless, unfit⟩
  · rw [fits]
    cases executed : set.changes.foldlM (Change.apply env) (TransactionChanges.empty, state) with
    | ok collected =>
        rw [executed] at applied
        rw [show set.changes.all (Change.isApplicable state.catalog) = true from applied]
        refine ⟨?_, fun impossible => nomatch impossible.2⟩
        rintro ⟨err, failure, text, rfl, other⟩
        unfold prepareCommit ChangeSet.apply at failure
        rw [validated] at failure
        simp only [executed, bind, Except.bind] at failure
        split at failure
        · cases failure
          exact absurd rfl other
        · cases failure
    | error err =>
        rw [executed] at applied
        obtain ⟨missing, panics⟩ := applied
        refine ⟨fun _ => ⟨rfl, missing⟩, fun _ => ⟨err, ?_, panics⟩⟩
        unfold prepareCommit ChangeSet.apply
        rw [validated]
        simp only [executed, bind, Except.bind]
  · rw [unfit]
    refine ⟨?_, fun impossible => nomatch impossible.1⟩
    rintro ⟨other, failure, panics⟩
    have same : prepareCommit env set state = .error err := by
      unfold prepareCommit ChangeSet.apply
      rw [refused]
      rfl
    rw [same] at failure
    cases failure
    exact absurd panics harmless

/-! ## Recorded changes -/

/-- Whether a commit can carry out a change that a transaction has recorded. -/
def Change.isCommittable (catalog : Catalog) : Change → Bool
  | createTable _ tableRef _ _ _ columns _ partitionColumns .. =>
      columns.all Column.distinctFields &&
        (partitionColumns.isNone || isPartitioned catalog tableRef)
  | writeTableDataFiles tableRef dataFiles =>
      dataFiles.all fun file => file.partitionValues.isNone || isPartitioned catalog tableRef
  | updateTableColumn _ _ column => column.dtype.children.isEmpty
  | _ => true

/-- How the references of a recorded change match its columns. -/
def Change.Matched : Change → Prop
  | createTable _ _ columnRefs partitionColumnRefs _ columns _ partitionColumns .. =>
      (columns.zip columnRefs).all (fun entry => entry.1.flatten.length ≤ entry.2.length) =
          columns.all Column.distinctFields ∧
        partitionColumnRefs.isSome = partitionColumns.isSome
  | updateTablePartitioning _ partitionColumnRefs partitionColumns =>
      partitionColumnRefs.isSome = partitionColumns.isSome
  | addTableColumn _ columnRefs column => columnRefs.length = column.size
  | _ => True

theorem Change.matched_of_keepsColumns
    (change : Change)
    (plain : change.keepsColumns = true) :
    change.Matched := by
  cases change <;> trivial

/-- There is a reference for every flattened column of the trees unless fields hide each other. -/
theorem references_suffice
    (columns : CatalogColumns)
    (tableRef : TableRef)
    (roots : List ArenaIdx)
    (trees : List Column)
    (laid : List.Forall₂ (fun idx column => columns.Laid idx none column) roots trees) :
    (trees.zip (roots.map fun idx =>
        (columns.aggregateColumnIndices columns.arena.length idx).map (ColumnRef.mk tableRef))).all
      (fun entry => entry.1.flatten.length ≤ entry.2.length) =
        trees.all Column.distinctFields := by
  induction laid with
  | nil => rfl
  | @cons idx column idxs trees first rest ih =>
      rw [List.map_cons, List.zip_cons_cons, List.all_cons, List.all_cons, ih]
      congr 1
      obtain ⟨few, tight⟩ := first.length_aggregate column columns.arena.length 0 none
        (Column.pieceOf_flatten column)
      rw [Bool.eq_iff_iff]
      simp only [List.length_map, Column.length_flatten, decide_eq_true_eq]
      refine ⟨tight, fun distinct => ?_⟩
      have enough : column.size ≤ columns.arena.length + 1 :=
        Nat.le_succ_of_le (Nat.le_trans (Nat.le_add_left _ _) first.inside)
      have indices := first.aggregate_eq column columns.arena.length 0 none
        (Column.pieceOf_flatten column) distinct enough
      exact Nat.le_of_eq ((congrArg List.length indices).trans List.length_range').symm

section

variable {env : Environment} {db : Database} {stats : DucklakeResult TableStatsMap}
variable {method : Operation}

theorem matched_of_edit
    (before after : Catalog)
    (changes : List Change)
    (sound : before.WellFormed)
    (edit : Edit env db stats method before changes after) :
    ∀ change ∈ changes, change.Matched := by
  cases edit.tables sound with
  | same arena plain => exact fun change member => change.matched_of_keepsColumns (plain change member)
  | @created info columns _ _ _ tableColumns partition _ typed built specified arena recorded =>
      rw [recorded, List.forall_mem_singleton]
      obtain ⟨values, unique⟩ := ofColumns_eq_ok columns info.schema typed
      obtain ⟨laid, _⟩ := CatalogColumns.fromSchema_eq_ok info.schema _ tableColumns
        (by rwa [values]) built
      rw [values] at laid
      refine ⟨?_, by rw [Option.isSome_map, isSome_traverseOption _ _ _ specified]⟩
      rw [CatalogColumns.rootColumnIndices, List.map_map]
      exact references_suffice tableColumns ⟨before.tableArena.arena.length⟩ _ _ laid
  | @updated ref update present arena updates =>
      generalize update (before.table ref) = updated at updates
      cases updates with
      | described plain =>
          rw [List.forall_mem_singleton]
          exact Change.matched_of_keepsColumns _ plain
      | partitioned built =>
          rw [List.forall_mem_singleton]
          exact (Option.isSome_map ..).trans (isSome_traverseOption _ _ _ built)
      | counted => simp
      | @addedColumn _ column _ _ success =>
          rw [List.forall_mem_singleton]
          obtain ⟨_, _, success⟩ := bind_eq_ok.mp success
          obtain ⟨⟨idxs, columns⟩, added, success⟩ := bind_eq_ok.mp success
          obtain ⟨_, _, success⟩ := bind_eq_ok.mp success
          obtain ⟨rfl, _⟩ := Prod.mk.inj (Except.ok.inj success)
          obtain ⟨rfl, _⟩ := CatalogColumns.addColumnToArena_eq_ok _ _ _ _ _ _ added
          simp [Change.Matched]
      | removedColumn =>
          intro change member
          obtain ⟨_, _, rfl⟩ := List.mem_map.mp member
          trivial
      | renamedColumn | modifiedColumn =>
          rw [List.forall_mem_singleton]
          trivial
      | @taggedColumn change _ _ _ _ edits =>
          rw [List.forall_mem_singleton]
          cases change <;> trivial

/-- What operations record matches the references and the partitioning of the catalog. -/
structure Consistent (tx : Transaction) : Prop where
  matched : ∀ change ∈ tx.changes, change.Matched
  follow : tx.PartitionsFollow

theorem Consistent.edited
    {tx next : Transaction}
    (sound : tx.Sound)
    (consistent : tx.Consistent)
    (edited : Edited env db stats method tx next) :
    next.Consistent := by
  refine edited.invariant Consistent sound consistent ?_
  intro tx changes catalog sound consistent edit
  refine ⟨fun change member => ?_, consistent.follow.edit tx changes catalog sound edit⟩
  rcases List.mem_append.mp member with old | new
  · exact consistent.matched change old
  · exact matched_of_edit tx.catalog catalog changes sound.catalog edit change new

theorem consistent_new (info : SnapshotInfo) (catalog : Catalog) :
    (Transaction.new info catalog).Consistent where
  matched := by simp [Transaction.new]
  follow ref partitioning last := by cases last

end

/-- For what a transaction has left to commit, the executors find everything exactly when the
changes are committable. -/
theorem Consistent.isApplicable_eq
    {tx : Transaction}
    (consistent : tx.Consistent)
    (untagged : ∀ parent refs column, .addTableColumn parent refs column ∈ tx.changes →
      column.tags.isEmpty = true)
    (change : Change)
    (member : change ∈ (ChangeSet.new tx.changes).changes) :
    change.isApplicable tx.catalog = change.isCommittable tx.catalog := by
  have recorded := ChangeSet.mem_of_mem_new _ change member
  have matched := consistent.matched change recorded
  cases change with
  | createTable schemaRef tableRef columnRefs partitionColumnRefs name columns retiredColumns
      partitionColumns =>
      obtain ⟨columnsMatch, partitionsMatch⟩ := matched
      rw [Change.isApplicable, Change.isCommittable, columnsMatch, partitionsMatch, Bool.and_self]
      cases partitionColumns <;> rfl
  | updateTablePartitioning tableRef refs partitioning =>
      have partitionsMatch : refs.isSome = partitioning.isSome := matched
      have last := consistent.follow tableRef partitioning
        (lastPartitioning_of_mem_keepLast tableRef refs partitioning tx.changes
          ((deduplicate_sublist_keepLast tx.changes).subset member))
      change (!(refs.isSome && partitioning.isSome) || isPartitioned tx.catalog tableRef) = true
      rw [partitionsMatch, Bool.and_self, last]
      cases partitioning <;> rfl
  | addTableColumn parent columnRefs column =>
      have full : columnRefs.length = column.size := matched
      have positive := column.size_pos
      have filled : columnRefs ≠ [] := by
        rintro rfl
        rw [List.length_nil] at full
        omega
      simp [Change.isApplicable, Change.isCommittable, filled, Column.length_flatten, full,
        untagged parent columnRefs column recorded]
  | updateTableColumn parent columnRef column =>
      rw [Change.isApplicable, Change.isCommittable, Column.length_flatten, Column.size_eq,
        Bool.eq_iff_iff, decide_eq_true_eq, List.isEmpty_iff]
      constructor
      · intro small
        cases children : column.dtype.children with
        | nil => rfl
        | cons first rest =>
            have positive := first.size_pos
            rw [children, Column.sizeOfAll] at small
            omega
      · intro none_
        simp [none_, Column.sizeOfAll]
  | _ => rfl

/-- Methods called one after the other, each with what it reads. -/
def perform (env : Environment)
    (calls : List (Operation × Database × DucklakeResult TableStatsMap)) (tx : Transaction) :
    DucklakeResult Transaction :=
  calls.foldlM (fun tx call => call.1.execute env call.2.1 call.2.2 tx) tx

theorem perform_consistent
    (env : Environment)
    (calls : List (Operation × Database × DucklakeResult TableStatsMap))
    (tx next : Transaction)
    (sound : tx.Sound)
    (consistent : tx.Consistent)
    (success : tx.perform env calls = .ok next) :
    next.Consistent := by
  have kept : next.Sound ∧ next.Consistent := by
    refine foldlM_invariant (fun tx => tx.Sound ∧ tx.Consistent) ⟨sound, consistent⟩ ?_ success
    rintro tx call next _ ⟨sound, consistent⟩ executed
    have edited := execute_edited next call.1 executed
    exact ⟨sound.extends next (edited.extends sound.catalog), consistent.edited sound edited⟩
  exact kept.2

/-- When the operations of a transaction succeeded, an attempt to commit it panics only when a
table to be created has a struct with two fields of one name, a column with nested columns was
updated, or a table that was partitioned for its creation or for its files is not any more. -/
theorem prepareCommit_avoids_panics_iff
    (env : Environment)
    (db : Database)
    (info base : SnapshotInfo)
    (catalog : Catalog)
    (calls : List (Operation × Database × DucklakeResult TableStatsMap))
    (tx : Transaction)
    (stats : TableStatsMap)
    (loaded : Catalog.load env db info.id = .ok catalog)
    (success : (Transaction.new info catalog).perform env calls = .ok tx)
    (untagged : ∀ parent refs column, .addTableColumn parent refs column ∈ tx.changes →
      column.tags.isEmpty = true) :
    let set := ChangeSet.new tx.changes
    let state := CommitState.new base tx.catalog set.changesSchema stats
    (∀ text, prepareCommit env set state = .error (.panicked text) →
        text = inlineWithSchemaChange) ↔
      (∃ change ∈ set.changes, change.inlineDataFits env state = false) ∨
        ∀ change ∈ set.changes, change.isCommittable tx.catalog = true := by
  intro set state
  have consistent := perform_consistent env calls _ tx
    (sound_new info catalog (Catalog.load_loaded env db info.id catalog loaded).wellFormed)
    (consistent_new info catalog) success
  have same : set.changes.all (Change.isApplicable state.catalog) =
      set.changes.all (Change.isCommittable tx.catalog) := by
    rw [Bool.eq_iff_iff, List.all_eq_true, List.all_eq_true]
    refine forall₂_congr fun change member => ?_
    rw [← consistent.isApplicable_eq untagged change member]
    exact Iff.rfl
  have panics := prepareCommit_panics_iff env set state
  rw [same] at panics
  have reached : (∀ text, prepareCommit env set state = .error (.panicked text) →
      text = inlineWithSchemaChange) ↔
      ¬∃ err, prepareCommit env set state = .error err ∧ Panics err := by
    constructor
    · rintro only ⟨err, failure, text, rfl, other⟩
      exact other (only text failure)
    · intro none_ text failure
      by_contra other
      exact none_ ⟨_, failure, text, rfl, other⟩
  rw [reached, panics, not_and_or, Bool.not_eq_true, Bool.not_eq_false, List.all_eq_false,
    List.all_eq_true]
  simp only [Bool.not_eq_true]

def renamedList : List (Operation × Database × DucklakeResult TableStatsMap) :=
  let element : Column := .mk "element".toList (.primitive .int32) true default none
    (.literal none) none
  let table : QualifiedName := { schema := "main".toList, name := "t".toList }
  [.createTable table [.mk "a".toList (.list element) true default none (.literal none) none]
      none none none none .fail,
    .renameTableColumn table ["a".toList] "b".toList].map
      fun operation => (operation, initCatalog 0, .ok .empty)

def panicSite {α : Type} : DucklakeResult α → Option Text
  | .error (.panicked site) => some site
  | _ => none

theorem panicSite_eq_some
    {α : Type}
    (computation : DucklakeResult α)
    (site : Text)
    (found : panicSite computation = some site) :
    computation = .error (.panicked site) := by
  unfold panicSite at found
  split at found
  · rw [Option.some.inj found]
  · cases found

theorem renamedList_runs :
    ∃ catalog tx, Catalog.load .plain (initCatalog 0) 0 = .ok catalog ∧
      (Transaction.new ⟨0, 0, 1, 0⟩ catalog).perform .plain renamedList = .ok tx ∧
      tx.changes.map Change.hashable = [.createTable ⟨0⟩, .updateTableColumn ⟨⟨0⟩, 0⟩] ∧
      prepareCommit .plain (ChangeSet.new tx.changes)
        (.new ⟨0, 0, 1, 0⟩ tx.catalog (ChangeSet.new tx.changes).changesSchema .empty) =
          .error (.panicked "column_ids[i]".toList) := by
  have runs : ((Catalog.load .plain (initCatalog 0) 0).toOption.bind fun catalog =>
      ((Transaction.new ⟨0, 0, 1, 0⟩ catalog).perform .plain renamedList).toOption.bind fun tx =>
        (panicSite (prepareCommit .plain (ChangeSet.new tx.changes)
          (.new ⟨0, 0, 1, 0⟩ tx.catalog (ChangeSet.new tx.changes).changesSchema .empty))).map
            fun site => (site, tx.changes.map Change.hashable)) =
      some ("column_ids[i]".toList, [.createTable ⟨0⟩, .updateTableColumn ⟨⟨0⟩, 0⟩]) := by
    decide +kernel
  obtain ⟨catalog, loaded, runs⟩ := Option.bind_eq_some_iff.mp runs
  obtain ⟨tx, performed, runs⟩ := Option.bind_eq_some_iff.mp runs
  obtain ⟨site, panicked, facts⟩ := Option.map_eq_some_iff.mp runs
  obtain ⟨rfl, kinds⟩ := Prod.mk.inj facts
  exact ⟨catalog, tx, toOption_eq_some.mp loaded, toOption_eq_some.mp performed, kinds,
    panicSite_eq_some _ _ panicked⟩

/-- Neither of the combinations that are not implemented occurs. -/
theorem prepareCommit_panics_renamedList :
    ∃ catalog tx, Catalog.load .plain (initCatalog 0) 0 = .ok catalog ∧
      (Transaction.new ⟨0, 0, 1, 0⟩ catalog).perform .plain renamedList = .ok tx ∧
      (∀ change ∈ tx.changes, change.isTableInlineDataWrite = false ∧
        ∀ parent refs column, change ≠ .addTableColumn parent refs column) ∧
      prepareCommit .plain (ChangeSet.new tx.changes)
        (.new ⟨0, 0, 1, 0⟩ tx.catalog (ChangeSet.new tx.changes).changesSchema .empty) =
          .error (.panicked "column_ids[i]".toList) := by
  obtain ⟨catalog, tx, loaded, performed, kinds, panicked⟩ := renamedList_runs
  refine ⟨catalog, tx, loaded, performed, ?_, panicked⟩
  intro change member
  have kind : change.hashable ∈ tx.changes.map Change.hashable := List.mem_map_of_mem member
  rw [kinds] at kind
  cases change with
  | writeTableInlineData | addTableColumn => simp [Change.hashable] at kind
  | _ => exact ⟨rfl, fun _ _ _ impossible => nomatch impossible⟩

theorem prepareCommit_avoids_panics_renamedList :
    ∃ catalog tx, Catalog.load .plain (initCatalog 0) 0 = .ok catalog ∧
      (Transaction.new ⟨0, 0, 1, 0⟩ catalog).perform .plain renamedList = .ok tx ∧
      ((∀ text, prepareCommit .plain (ChangeSet.new tx.changes)
          (.new ⟨0, 0, 1, 0⟩ tx.catalog (ChangeSet.new tx.changes).changesSchema .empty) =
            .error (.panicked text) → text = inlineWithSchemaChange) ↔
        (∃ change ∈ (ChangeSet.new tx.changes).changes, change.inlineDataFits .plain
          (.new ⟨0, 0, 1, 0⟩ tx.catalog (ChangeSet.new tx.changes).changesSchema .empty) =
            false) ∨
          ∀ change ∈ (ChangeSet.new tx.changes).changes,
            change.isCommittable tx.catalog = true) := by
  obtain ⟨catalog, tx, loaded, performed, kinds, _⟩ := renamedList_runs
  refine ⟨catalog, tx, loaded, performed, prepareCommit_avoids_panics_iff .plain (initCatalog 0)
    ⟨0, 0, 1, 0⟩ ⟨0, 0, 1, 0⟩ catalog renamedList tx .empty loaded performed ?_⟩
  intro parent refs column member
  have kind := List.mem_map_of_mem (f := Change.hashable) member
  rw [kinds] at kind
  simp [Change.hashable] at kind

end Transaction

end Ducklake
