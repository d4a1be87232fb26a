import Ducklake.Interleaving.DisjointVersions
import Ducklake.Transaction.Totality

/-!
# Column operations in a run

The column trees of every transaction of a run are complete, so that a column operation panics
only in the calls of `Operation.reachesPanic`.
-/

set_option autoImplicit false

namespace Ducklake.System

open Lib Caches Spec Maintenance Transaction

def ColumnsSeenOnce (sys : System) (_ : Label) : Prop :=
  ∀ snapshot, ((Versioned.entitiesAt snapshot sys.db.columns).map columnKey).Nodup

/-! ## The catalogs of a step -/

section

variable {env : Environment} {sys next : System}

/-- The catalogs of `next` are those of `sys` and what was read in it. -/
def CatalogsFrom (env : Environment) (sys next : System) : Prop :=
  ∀ entry ∈ next.catalogs, entry ∈ sys.catalogs ∨
    ∃ info source, sys.catalogAt env info source = some (.ok entry.2)

theorem catalogsFrom_same (same : next.catalogs = sys.catalogs) : CatalogsFrom env sys next :=
  fun _ member => Or.inl ((congrArg (_ ∈ ·) same).mp member)

theorem catalogsFrom_remember
    (info base : SnapshotInfo)
    (source : Source)
    (catalog : Catalog)
    (read : sys.catalogAt env info source = some (.ok catalog))
    (same : next.catalogs = (sys.rememberCatalog base catalog).catalogs) :
    CatalogsFrom env sys next := by
  intro entry member
  rw [same] at member
  rcases List.mem_append.mp member with old | new
  · exact Or.inl old
  · rw [List.mem_singleton.mp new]
    exact Or.inr ⟨info, source, read⟩

theorem Reads.catalogsFrom
    {base : SnapshotInfo}
    {required : Bool}
    {stats : TableStatsMap}
    (reads : Reads env sys base required stats next) :
    CatalogsFrom env sys next := by
  cases reads with
  | skipped => exact catalogsFrom_same rfl
  | read catalogRead statsRead =>
      apply catalogsFrom_remember base base _ _ catalogRead
      rw [rememberStats_same]

theorem Gathers.catalogsFrom (gathers : Gathers env sys next) : CatalogsFrom env sys next := by
  cases gathers with
  | nothing => exact catalogsFrom_same rfl
  | catalog read => exact catalogsFrom_remember _ _ _ _ read rfl
  | stats reads => exact reads.catalogsFrom

theorem step_catalogs
    (label : Label)
    (stepped : step env sys label = some next) :
    CatalogsFrom env sys next := by
  cases step_outcome env sys next label stepped with
  | began read => exact catalogsFrom_same rfl
  | unchanged => exact catalogsFrom_same rfl
  | expired read success => exact catalogsFrom_remember _ _ _ _ read rfl
  | kept read => exact catalogsFrom_remember _ _ _ _ read rfl
  | moved found advances =>
      cases advances with
      | loaded phase read => exact catalogsFrom_remember _ _ _ _ read rfl
      | operated phase read result =>
          apply catalogsFrom_same
          rw [rememberStats_same]
          rfl
      | prepared phase reads success => exact reads.catalogsFrom
      | ended unfinished gathers => exact gathers.catalogsFrom
      | submitted | committed | refused | refreshed | checked => exact catalogsFrom_same rfl

/-! ## Complete column trees -/

/-- The column trees of all catalogs and of all transactions are complete. -/
structure ColumnsReady (sys : System) : Prop where
  catalogs : ∀ entry ∈ sys.catalogs, entry.2.ColumnsReady
  transactions : sys.Transactions fun tx => tx.catalog.ColumnsReady

theorem ColumnsReady.catalogAt
    (ready : sys.ColumnsReady)
    (once : ∀ snapshot, ((Versioned.entitiesAt snapshot sys.db.columns).map columnKey).Nodup)
    (info : SnapshotInfo)
    (source : Source)
    (catalog : Catalog)
    (read : sys.catalogAt env info source = some (.ok catalog)) :
    catalog.ColumnsReady := by
  unfold System.catalogAt at read
  split at read
  · split at read
    · rename_i version entry found
      split at read
      · cases read
        exact ready.catalogs _ (List.mem_of_getElem? found)
      · cases read
    · cases read
  · split at read
    · exact columnsReady_load env sys.db _ catalog (once _) (Option.some.inj read)
    · cases read

theorem columnsReady_edited
    (db : Database)
    (stats : DucklakeResult TableStatsMap)
    (operation : Operation)
    (tx worked : Ducklake.Transaction)
    (sound : tx.Sound)
    (ready : tx.catalog.ColumnsReady)
    (edited : Edited env db stats operation tx worked) :
    worked.catalog.ColumnsReady := by
  refine Edited.invariant (fun tx => tx.catalog.ColumnsReady) sound ready ?_ edited
  intro tx changes catalog sound ready edit
  exact TablesEdited.columnsReady ready (edit.tables sound.catalog)

theorem ColumnsReady.step
    (ready : sys.ColumnsReady)
    (sound : sys.Sound env)
    (label : Label)
    (once : ColumnsSeenOnce sys label)
    (stepped : System.step env sys label = some next) :
    next.ColumnsReady := by
  constructor
  · intro entry member
    rcases step_catalogs label stepped entry member with old | ⟨info, source, read⟩
    · exact ready.catalogs entry old
    · exact ready.catalogAt once info source entry.2 read
  · have transactions := ready.transactions
    cases step_outcome env sys next label stepped with
    | began read =>
        refine { transactions with parties := ?_ }
        intro party member tx working
        rcases List.mem_append.mp member with old | new
        · exact transactions.parties party old tx working
        · rw [List.mem_singleton.mp new] at working
          cases working
    | unchanged => exact transactions
    | expired read success => exact { transactions with }
    | kept read => exact { transactions with }
    | moved found advances =>
        have member := List.mem_of_getElem? found
        refine transactions.advances _ _ member _ ?_ ?_ advances
        · intro source catalog read
          exact ready.catalogAt once _ source catalog read
        · intro operation source stats tx worked _ working before edited
          have txSound := ((sound.parties _ member).transaction tx working).1
          exact columnsReady_edited _ _ _ _ _ txSound before edited

theorem reachable_columnsReady
    (env : Environment)
    (now : Int)
    (sys : System)
    (run : Reachable env ColumnsSeenOnce now sys) :
    sys.ColumnsReady := by
  refine run.invariant_of_reached System.ColumnsReady ⟨by simp [init], by simp [init], by simp [init]⟩
    ?_
  intro sys label next reached ready once stepped
  exact ready.step (reachable_sound env _ now sys reached) label once stepped

end

/-! ## Which calls panic -/

/-- Every operation on a column of an open transaction returns, but for the known calls. -/
theorem panics_columnOperation
    (env : Environment)
    (now : Int)
    (sys : System)
    (run : Reachable env ColumnsSeenOnce now sys)
    (party : Party)
    (member : party ∈ sys.parties)
    (tx : Ducklake.Transaction)
    (working : party.phase = .active tx)
    (operation : Operation)
    (column : operation.worksOnColumn = true)
    (stats : DucklakeResult TableStatsMap) :
    panics (operation.execute env sys.db stats tx) = operation.reachesPanic sys.db stats tx := by
  have open_ : party.phase.transaction = some tx := congrArg Phase.transaction working
  have sound := ((reachable_sound env _ now sys run).parties party member).transaction tx open_
  have ready := (reachable_columnsReady env now sys run).transactions.parties party member tx open_
  exact operation.panics_execute env sys.db stats tx sound.1.catalog ready column

/-- A transaction creates a table with a list and goes on. -/
def createdList : List Label :=
  let column (name : String) (dtype : DataType) : Column :=
    .mk name.toList dtype true default none (.literal none) none
  .begin :: working 0 ⟨0, 0, 1, 0⟩ [.createTable ⟨"main".toList, "t".toList⟩
    [column "a" (.list (column "element" (.primitive .int8)))] none none none none .fail]

/-- Rename the element of the list, add a struct without fields, and forbid nulls in the list. -/
def callsOnList : List Operation :=
  let table : QualifiedName := ⟨"main".toList, "t".toList⟩
  [.renameTableColumn table ["a".toList, "element".toList] "b".toList,
    .addTableColumn table (.mk "s".toList (.struct []) true default none (.literal none) none) [],
    .updateTableColumnNullability table ["a".toList] false]

theorem callsOnList_worksOnColumn :
    ∀ operation ∈ callsOnList, operation.worksOnColumn = true := by
  decide

theorem createdList_permitted : ∀ sys, ∀ label ∈ createdList, TransfersColumnsOnce sys label := by
  simp [createdList, working, TransfersColumnsOnce]

theorem createdList_run :
    ∃ sys party tx, createdList.foldlM (step .plain) (init 0) = some sys ∧ party ∈ sys.parties ∧
      party.phase = .active tx ∧
      ∀ operation ∈ callsOnList, panics (operation.execute .plain sys.db (.ok .empty) tx) = true := by
  -- Only an active transaction can be submitted.
  obtain ⟨sys, taken, called⟩ : ∃ sys, createdList.foldlM (step .plain) (init 0) = some sys ∧
      (sys.parties[0]?.bind fun party =>
        if (sys.submit 0 party).isSome then party.phase.transaction.map fun tx =>
          callsOnList.all fun operation => panics (operation.execute .plain sys.db (.ok .empty) tx)
        else none) = some true :=
    Option.map_eq_some_iff.mp (by decide +kernel)
  obtain ⟨party, found, called⟩ := Option.bind_eq_some_iff.mp called
  split at called
  · rename_i submitted
    unfold System.submit at submitted
    split at submitted
    · rename_i tx phase
      rw [phase] at called
      exact ⟨sys, party, tx, taken, List.mem_of_getElem? found, phase,
        List.all_eq_true.mp (Option.some.inj called)⟩
    · cases submitted
  · cases called

/-- Without expiration, and without a transfer that takes a column twice, no snapshot ever sees a
column twice. -/
theorem columnsSeenOnce_of_transfersColumnsOnce
    (env : Environment)
    (now : Int)
    (sys : System)
    (run : Reachable env TransfersColumnsOnce now sys) :
    Reachable env ColumnsSeenOnce now sys := by
  refine run.invariant_of_reached (Reachable env ColumnsSeenOnce now) .refl ?_
  intro sys label next reached seen permitted stepped
  exact seen.tail (fun snapshot =>
    (disjointVersions_of_reachable env now sys reached).columns.nodup_entitiesAt snapshot) stepped

/-- Three calls on columns of a table created in the same transaction, each of which panics. -/
theorem callsOnList_panic :
    ∃ sys party tx, Reachable .plain ColumnsSeenOnce 0 sys ∧ party ∈ sys.parties ∧
      party.phase = .active tx ∧
      ∀ operation ∈ callsOnList, operation.worksOnColumn = true ∧
        panics (operation.execute .plain sys.db (.ok .empty) tx) = true := by
  obtain ⟨sys, party, tx, taken, member, phase, called⟩ := createdList_run
  have run := Reaches.of_foldlM createdList createdList_permitted taken
  exact ⟨sys, party, tx, columnsSeenOnce_of_transfersColumnsOnce .plain 0 sys run, member, phase,
    fun operation listed => ⟨callsOnList_worksOnColumn operation listed, called operation listed⟩⟩

theorem panics_columnOperation_createdList :
    ∃ sys tx, createdList.foldlM (step .plain) (init 0) = some sys ∧
      ∀ operation ∈ callsOnList, operation.reachesPanic sys.db (.ok .empty) tx = true := by
  obtain ⟨sys, party, tx, taken, member, phase, called⟩ := createdList_run
  have run := columnsSeenOnce_of_transfersColumnsOnce .plain 0 sys
    (Reaches.of_foldlM createdList createdList_permitted taken)
  refine ⟨sys, tx, taken, fun operation listed => ?_⟩
  rw [← panics_columnOperation .plain 0 sys run party member tx phase operation
    (callsOnList_worksOnColumn operation listed) (.ok .empty)]
  exact called operation listed

end Ducklake.System
