import Ducklake.Catalog.Extensions
import Ducklake.Catalog.Totality
import Ducklake.Transaction.ReadyColumns
import Ducklake.Transaction.Retyping

/-!
# Runs of retype steps

The steps of an update work on paths that the steps before them keep.  So it is known beforehand
whether they come to a struct without fields, which cannot be added, or end before.
-/

set_option autoImplicit false

namespace Ducklake

open Lib Caches Spec Transaction

namespace Catalog

/-- Whether the partitioning or the sort order of the table uses a column. -/
def usesColumn (table : CatalogTable) (idx : ArenaIdx) : Bool :=
  (table.partition.any fun partition => partition.columns.any fun column => column.column = idx) ||
    table.sortInfo.any fun sortInfo => sortInfo.referencesColumn idx

section

variable {catalog : Catalog} {ref : TableRef}

theorem table_modifyTable
    (present : catalog.Has (.table ref))
    (update : CatalogTable → CatalogTable) :
    (catalog.modifyTable ref update).table ref = update (catalog.table ref) :=
  Arena.get_modify_self catalog.tableArena ref.idx update present

theorem has_modifyTable
    (present : catalog.Has (.table ref))
    (update : CatalogTable → CatalogTable) :
    (catalog.modifyTable ref update).Has (.table ref) :=
  (congrArg (ref.idx < ·) (Arena.length_modify catalog.tableArena ref.idx update)).mpr present

end

end Catalog

namespace Transaction

namespace RetypeStep

/-- Whether the step adds a field of a name to a struct. -/
def adds (columns : CatalogColumns) (idx : ArenaIdx) (name : Text) : RetypeStep → Bool
  | add parentPath column =>
      (columns.arenaIdxByPath parentPath).toOption = some idx && decide (name = column.name)
  | _ => false

def addsEmptyStruct : RetypeStep → Bool
  | add _ column => column.hasEmptyStruct
  | _ => false

/-- Whether a field of the name stands in the struct at a path, or was added to it before. -/
def isTaken (columns : CatalogColumns) (done : List RetypeStep) (path : List Text)
    (name : Text) : Bool :=
  (columns.arenaIdxByPath path).toOption.any fun idx =>
    (columns.siblings (some idx)).toOption.any fun named =>
      named.contains name || done.any fun step => step.adds columns idx name

/-- Whether the step is refused behind others, when all of them start at a state of the table. -/
def isRefused (db : Database) (catalog : Catalog) (ref : TableRef) (done : List RetypeStep) :
    RetypeStep → Bool
  | cast _ _ => false
  | remove path => ((catalog.table ref).columns.arenaIdxByPath path).toOption.any
      (Catalog.usesColumn (catalog.table ref))
  | add path column => !(catalog.ensureNextColumnId db ref).isOk ||
      isTaken (catalog.table ref).columns done path column.name
  | refuse _ _ => true

end RetypeStep

/-- Whether the steps come to a struct without fields before one of them is refused. -/
def reachesEmptyStruct (db : Database) (catalog : Catalog) (ref : TableRef)
    (done : List RetypeStep) : List RetypeStep → Bool
  | [] => false
  | step :: rest => !step.isRefused db catalog ref done &&
      (step.addsEmptyStruct || reachesEmptyStruct db catalog ref (done ++ [step]) rest)

/-! ## The state between steps -/

/-- A transaction after some steps of an update that began with another one. -/
structure Retyping (db : Database) (name : QualifiedName) (ref : TableRef) (start : Catalog)
    (done : List RetypeStep) (catalog : Catalog) : Prop where
  found : catalog.tableRef name = .ok ref
  present : catalog.Has (.table ref)
  ready : (catalog.table ref).ColumnsReady
  partition : (catalog.table ref).partition = (start.table ref).partition
  sortInfo : (catalog.table ref).sortInfo = (start.table ref).sortInfo
  id : (catalog.table ref).id = (start.table ref).id
  counter : (catalog.table ref).columns.nextColumnId = (start.table ref).columns.nextColumnId ∨
    ((catalog.table ref).columns.nextColumnId.isSome ∧ (start.ensureNextColumnId db ref).isOk)
  extends_ : (start.table ref).columns.Extends (catalog.table ref).columns fun idx name =>
    done.any fun step => step.adds (start.table ref).columns idx name

section

variable {db : Database} {name : QualifiedName} {ref : TableRef} {start catalog : Catalog}
variable {done : List RetypeStep}

theorem Retyping.initial
    (found : start.tableRef name = .ok ref)
    (present : start.Has (.table ref))
    (ready : (start.table ref).ColumnsReady) :
    Retyping db name ref start [] start where
  found := found
  present := present
  ready := ready
  partition := rfl
  sortInfo := rfl
  id := rfl
  counter := Or.inl rfl
  extends_ := .refl _

theorem Retyping.next
    (retyping : Retyping db name ref start done catalog)
    (columns : CatalogColumns)
    (update : CatalogTable → CatalogTable)
    (updated : update (catalog.table ref) = { catalog.table ref with columns := columns })
    (steps : List RetypeStep)
    (linked : columns.Linked)
    (counter : columns.nextColumnId = (catalog.table ref).columns.nextColumnId ∨
      (columns.nextColumnId.isSome ∧ (start.ensureNextColumnId db ref).isOk))
    (extends_ : (catalog.table ref).columns.Extends columns fun idx name =>
      steps.any fun step => step.adds (start.table ref).columns idx name) :
    Retyping db name ref start (done ++ steps) (catalog.modifyTable ref update) := by
  have table := (Catalog.table_modifyTable retyping.present update).trans updated
  refine ⟨retyping.found, Catalog.has_modifyTable retyping.present _, ?_, ?_, ?_, ?_, ?_, ?_⟩
  all_goals rw [table]
  · refine ⟨linked, ?_⟩
    rcases counter with same | ⟨set, _⟩
    · dsimp only
      rw [same]
      exact retyping.ready.counted
    · exact Or.inl set
  · exact retyping.partition
  · exact retyping.sortInfo
  · exact retyping.id
  · rcases counter with same | loaded
    · dsimp only
      rw [same]
      exact retyping.counter
    · exact Or.inr loaded
  · have both := retyping.extends_.trans extends_
    simpa only [List.any_append] using both

/-- What a step does behind others: it is refused, reaches a panic or leads on. -/
inductive TakesStep (db : Database) (name : QualifiedName) (ref : TableRef) (start : Catalog)
    (done : List RetypeStep) (tx : Transaction) (step : RetypeStep) : Prop where
  | refused {err : DucklakeError}
      (refuses : step.isRefused db start ref done = true)
      (failure : step.take db name tx = .error err)
      (ordinary : err.isPanic = false)
  | panicked {err : DucklakeError}
      (accepts : step.isRefused db start ref done = false)
      (empty : step.addsEmptyStruct = true)
      (failure : step.take db name tx = .error err)
      (panic : err.isPanic = true)
  | led {next : Transaction}
      (accepts : step.isRefused db start ref done = false)
      (filled : step.addsEmptyStruct = false)
      (success : step.take db name tx = .ok next)
      (retyping : Retyping db name ref start (done ++ [step]) next.catalog)

section

variable {tx : Transaction}

theorem Retyping.columnByPath
    (retyping : Retyping db name ref start done tx.catalog)
    (path : List Text)
    (idx : ArenaIdx)
    (reached : (start.table ref).columns.arenaIdxByPath path = .ok idx) :
    columnByPath tx.catalog name path = .ok ⟨ref, idx⟩ := by
  unfold Transaction.columnByPath Catalog.columnRef
  rw [retyping.found]
  change ((tx.catalog.table ref).columns.arenaIdxByPath path >>= _) = _
  rw [retyping.extends_.arenaIdxByPath path idx reached]
  rfl

theorem Retyping.cast
    (retyping : Retyping db name ref start done tx.catalog)
    (linked : (start.table ref).columns.Linked)
    (path : List Text)
    (type : PrimitiveType)
    (fits : (RetypeStep.cast path type).Fits (start.table ref).columns) :
    TakesStep db name ref start done tx (.cast path type) := by
  obtain ⟨idx, source, reached, typed⟩ := fits
  have inside := linked.closed.arenaIdxByPath path idx reached
  obtain ⟨wider, typedNow⟩ := retyping.extends_.primitives idx inside source typed
  have located := retyping.columnByPath path idx reached
  have insideNow := Nat.lt_of_lt_of_le inside retyping.extends_.size
  have taken : RetypeStep.take db name tx (.cast path type) = .ok (tx.recordColumn
      (tx.catalog.modifyColumn ⟨ref, idx⟩ fun column => { column with dtype := .primitive type })
      ⟨ref, idx⟩) := by
    unfold RetypeStep.take
    dsimp only
    rw [located]
    rfl
  refine .led rfl rfl taken (retyping.next ((tx.catalog.table ref).columns.modifyColumn idx
    fun column => { column with dtype := .primitive type }) _ rfl [.cast path type] ?_ (Or.inl rfl)
    (.cast idx wider type typedNow insideNow))
  · refine retyping.ready.linked.modifyColumn idx _ rfl rfl ?_ ?_
    · intro child impossible
      cases impossible
    · intro fields impossible
      cases impossible

theorem Retyping.remove
    (retyping : Retyping db name ref start done tx.catalog)
    (path : List Text)
    (fits : (RetypeStep.remove path).Fits (start.table ref).columns) :
    TakesStep db name ref start done tx (.remove path) := by
  obtain ⟨idx, reached⟩ := fits
  have located := retyping.columnByPath path idx reached
  have used : Catalog.usesColumn (tx.catalog.table ref) idx =
      Catalog.usesColumn (start.table ref) idx := by
    unfold Catalog.usesColumn
    rw [retyping.partition, retyping.sortInfo]
  have refuses : (RetypeStep.remove path).isRefused db start ref done =
      Catalog.usesColumn (tx.catalog.table ref) idx := by
    rw [used]
    unfold RetypeStep.isRefused
    dsimp only
    rw [reached]
    rfl
  have taken : RetypeStep.take db name tx (.remove path) =
      tx.catalog.removeColumn ⟨ref, idx⟩ >>= fun result => .ok { tx with
        catalog := result.2
        changes := tx.changes ++ result.1.map .removeTableColumn } := by
    unfold RetypeStep.take removeTableColumn
    dsimp only
    rw [located]
    rfl
  unfold Catalog.usesColumn at refuses
  unfold Catalog.removeColumn at taken
  dsimp only at taken
  split at taken
  · rename_i partitioned
    exact .refused (by rw [refuses, partitioned]; rfl) taken rfl
  · rename_i partitioned
    split at taken
    · rename_i sorted
      exact .refused (by rw [refuses, sorted, Bool.or_true]) taken rfl
    · rename_i sorted
      refine .led ?_ rfl taken (retyping.next ((tx.catalog.table ref).columns.removeColumn idx).2 _
        rfl [.remove path] (CatalogColumns.removeColumn_linked retyping.ready.linked idx)
        (Or.inl rfl) (.of_same rfl rfl))
      rw [refuses, Bool.eq_false_iff.mpr partitioned, Bool.eq_false_iff.mpr sorted]
      rfl

/-- The counter is set, or it is loaded as it would have been at the start. -/
theorem Retyping.count
    (retyping : Retyping db name ref start done tx.catalog) :
    (∃ counted, tx.catalog.ensureNextColumnId db ref = .ok counted ∧
      Retyping db name ref start done counted ∧
      (counted.table ref).columns.nextColumnId.isSome ∧
      (start.ensureNextColumnId db ref).isOk = true) ∨
    ∃ err, tx.catalog.ensureNextColumnId db ref = .error err ∧ err.isPanic = false ∧
      (start.ensureNextColumnId db ref).isOk = false := by
  cases set : (tx.catalog.table ref).columns.nextColumnId with
  | some next =>
      have ensured : tx.catalog.ensureNextColumnId db ref = .ok tx.catalog := by
        unfold Catalog.ensureNextColumnId
        dsimp only
        rw [set]
      refine Or.inl ⟨tx.catalog, ensured, retyping, by rw [set]; rfl, ?_⟩
      rcases retyping.counter with same | ⟨_, loads⟩
      · unfold Catalog.ensureNextColumnId
        dsimp only
        rw [← same, set]
        rfl
      · exact loads
  | none =>
      obtain ⟨tableId, id⟩ : ∃ tableId, (tx.catalog.table ref).id = some tableId := by
        rcases retyping.ready.counted with impossible | id
        · rw [set] at impossible
          cases impossible
        · exact Option.isSome_iff_exists.mp id
      have unset : (start.table ref).columns.nextColumnId = none := by
        rcases retyping.counter with same | ⟨impossible, _⟩
        · rw [← same, set]
        · rw [set] at impossible
          cases impossible
      have now : tx.catalog.ensureNextColumnId db ref =
          Catalog.loadNextColumnId db tableId >>= fun next =>
            .ok (tx.catalog.modifyTable ref fun table =>
              { table with columns := { table.columns with nextColumnId := some next } }) := by
        unfold Catalog.ensureNextColumnId
        dsimp only
        rw [set, id]
      have early : start.ensureNextColumnId db ref =
          Catalog.loadNextColumnId db tableId >>= fun next =>
            .ok (start.modifyTable ref fun table =>
              { table with columns := { table.columns with nextColumnId := some next } }) := by
        unfold Catalog.ensureNextColumnId
        dsimp only
        rw [unset, ← retyping.id, id]
      rw [now]
      cases loaded : Catalog.loadNextColumnId db tableId with
      | error err =>
          refine Or.inr ⟨err, rfl, ?_, by rw [early, loaded]; rfl⟩
          unfold Catalog.loadNextColumnId at loaded
          split at loaded
          · cases loaded
          · obtain rfl := Except.error.inj loaded
            rfl
      | ok next =>
          have table := Catalog.table_modifyTable retyping.present fun table =>
            { table with columns := { table.columns with nextColumnId := some next } }
          have counting := retyping.next { (tx.catalog.table ref).columns with
            nextColumnId := some next } (fun table =>
              { table with columns := { table.columns with nextColumnId := some next } }) rfl []
            (retyping.ready.linked.of_same rfl rfl) ?_ (.of_same rfl rfl)
          · rw [List.append_nil] at counting
            exact Or.inl ⟨_, rfl, counting, by rw [table]; rfl, by rw [early, loaded]; rfl⟩
          · refine Or.inr ⟨rfl, ?_⟩
            rw [early, loaded]
            rfl

theorem Retyping.add
    (retyping : Retyping db name ref start done tx.catalog)
    (path : List Text)
    (column : Column)
    (fits : (RetypeStep.add path column).Fits (start.table ref).columns) :
    TakesStep db name ref start done tx (.add path column) := by
  obtain ⟨filled, idx, fields, reached, typed⟩ := fits
  have begun : RetypeStep.take db name tx (.add path column) =
      tx.catalog.ensureNextColumnId db ref >>= fun catalog =>
        catalog.addColumn ref path column >>= fun result =>
          .ok (tx.record result.2 (.addTableColumn result.1.1 result.1.2 column)) := by
    unfold RetypeStep.take addTableColumn
    dsimp only
    rw [retyping.found]
    rfl
  have refuses : (RetypeStep.add path column).isRefused db start ref done =
      (!(start.ensureNextColumnId db ref).isOk || (fields.contains column.name ||
        done.any fun step => step.adds (start.table ref).columns idx column.name)) := by
    unfold RetypeStep.isRefused RetypeStep.isTaken CatalogColumns.siblings
    dsimp only
    rw [reached]
    dsimp only [Except.toOption, Option.any]
    rw [typed]
  rcases retyping.count with ⟨counted, ensured, counting, counter, loads⟩ |
    ⟨err, failed, ordinary, fails⟩
  · obtain ⟨more, typedNow, names⟩ := counting.extends_.structs idx fields typed
    rw [loads, Bool.not_true, Bool.false_or, ← names] at refuses
    have siblings : (counted.table ref).columns.siblings (some idx) = .ok more := by
      unfold CatalogColumns.siblings
      dsimp only
      rw [typedNow]
    have parent : counted.parentAt ref path = .ok (some ⟨ref, idx⟩) := by
      unfold Catalog.parentAt Catalog.columnRef
      rw [if_neg (by simpa using filled), counting.extends_.arenaIdxByPath path idx reached]
      rfl
    have adds : counted.addColumn ref path column =
        (counted.table ref).columns.addColumn (some idx) column >>= fun result =>
          .ok ((some ⟨ref, idx⟩, result.1.map (ColumnRef.mk ref)),
            counted.modifyTable ref fun table => { table with columns := result.2 }) := by
      unfold Catalog.addColumn
      rw [parent]
      rfl
    rw [ensured] at begun
    change _ = counted.addColumn ref path column >>= _ at begun
    rw [adds] at begun
    by_cases taken : more.contains column.name = true
    · rw [CatalogColumns.addColumn_taken column more siblings taken] at begun
      exact .refused (refuses.trans taken) begun rfl
    · have fresh := Bool.eq_false_iff.mpr taken
      have added := CatalogColumns.addColumn_succeedsIf column counter more siblings fresh
      cases outcome : (counted.table ref).columns.addColumn (some idx) column with
      | error err =>
          rw [outcome] at added begun
          exact .panicked (refuses.trans fresh)
            (by simpa [RetypeStep.addsEmptyStruct] using added.1) begun added.2
      | ok result =>
          rw [outcome] at added begun
          have whole : column.hasEmptyStruct = false := by simpa [SucceedsIf] using added
          obtain ⟨grown, named, adding⟩ :=
            CatalogColumns.addColumn_eq_ok column result.1 outcome
          obtain ⟨_, _, next, _, later, _⟩ := CatalogColumns.addColumn_ids (some idx) column
            result.1 counting.ready.linked.closed outcome
          refine .led (refuses.trans fresh) whole begun
            (counting.next result.2 (fun table => { table with columns := result.2 }) rfl
              [.add path column]
              (CatalogColumns.addColumn_linked column result.1 counting.ready.linked outcome)
              (Or.inr ⟨by rw [later]; rfl, loads⟩) ?_)
          have extends_ := CatalogColumns.Extends.add idx column adding
          refine (congrArg (CatalogColumns.Extends _ _) ?_).mp extends_
          funext other key
          unfold RetypeStep.adds
          simp [reached, Except.toOption, eq_comm]
  · rw [failed] at begun
    refine .refused ?_ begun ordinary
    rw [refuses, fails]
    rfl

theorem Retyping.take
    (retyping : Retyping db name ref start done tx.catalog)
    (linked : (start.table ref).columns.Linked)
    (step : RetypeStep)
    (fits : step.Fits (start.table ref).columns) :
    TakesStep db name ref start done tx step := by
  cases step with
  | cast path type => exact retyping.cast linked path type fits
  | remove path => exact retyping.remove path fits
  | add path column => exact retyping.add path column fits
  | refuse existing target => exact .refused rfl rfl rfl

theorem Retyping.panics
    (retyping : Retyping db name ref start done tx.catalog)
    (linked : (start.table ref).columns.Linked)
    (steps : List RetypeStep)
    (fits : ∀ step ∈ steps, step.Fits (start.table ref).columns) :
    panics (steps.foldlM (RetypeStep.take db name) tx) =
      reachesEmptyStruct db start ref done steps := by
  induction steps generalizing done tx with
  | nil => rfl
  | cons step rest ih =>
      rw [List.foldlM_cons]
      unfold reachesEmptyStruct
      cases retyping.take linked step (fits step List.mem_cons_self) with
      | refused refuses failure ordinary =>
          rw [panics_bind_error _ _ _ failure, ordinary, refuses]
          rfl
      | panicked accepts empty failure panic =>
          rw [panics_bind_error _ _ _ failure, panic, accepts, empty]
          rfl
      | led accepts filled success continues =>
          rw [panics_bind_ok _ _ _ success, accepts, filled,
            ih continues fun step member => fits step (List.mem_cons_of_mem _ member)]
          rfl

end

end

end Transaction

end Ducklake
