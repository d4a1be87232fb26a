import Ducklake.Interleaving.ColumnCalls
import Ducklake.Transaction.ColumnForests

/-!
# Updates of schemas in a run

In every open transaction of a run an update of a schema shows the given columns afterwards, apart
from what it cannot do below a column.
-/

set_option autoImplicit false

namespace Ducklake.System

open Lib Caches Spec Maintenance Transaction

theorem reachable_forests
    (env : Environment)
    (now : Int)
    (sys : System)
    (run : Reachable env TransfersColumnsOnce now sys) :
    sys.Transactions (sys.Grounded fun db tx =>
      tx.ColumnsNumbered db ∧ tx.catalog.Forests) := by
  refine reachable_grounded env _ now sys _ withoutExpiration_of_transfersColumnsOnce ?_ ?_ ?_ run
  · intro sys reached info _ catalog _ loaded
    have once := (disjointVersions_of_reachable env now sys reached).columns.nodup_entitiesAt info.id
    exact ⟨columnsNumbered_new env info catalog loaded, forests_load env _ _ catalog once loaded⟩
  · intro sys index operation source stats _ permitted tx changes catalog grounded edit
    obtain ⟨numbered, forests⟩ := grounded.holds
    refine ⟨numbered.edit edit.grows (edit.tables grounded.sound.catalog),
      edit.forests forests numbered.tables grounded.sound.catalog ?_⟩
    intro columns transfers
    cases operation with
    | createTransferTable table info retired =>
        obtain rfl := transfers
        exact permitted
    | _ => cases transfers
  · intro sys latest commit time _ counted committing tx grounded
    obtain ⟨numbered, forests⟩ := grounded.holds
    have updates := (persistCommit_catalogUpdates env time _ _ _ (committing.rows counted).fresh
      committing.persisted).columns
    exact ⟨numbered.committed updates (counted.start_lt committing _ grounded.snapshot), forests⟩

/-- An update of a schema in an open transaction shows exactly the given columns, with their
nullability and defaults.  Their types are the given ones exactly if, below every column that stays,
it had no column to remove and no nullability or default to change. -/
theorem updateTableSchema_agrees
    (env : Environment)
    (now : Int)
    (sys : System)
    (run : Reachable env TransfersColumnsOnce now sys)
    (party : Party)
    (member : party ∈ sys.parties)
    (tx next : Ducklake.Transaction)
    (working : party.phase = .active tx)
    (stats : DucklakeResult TableStatsMap)
    (name : QualifiedName)
    (columns : List Column)
    (ref : TableRef)
    (found : tx.catalog.tableRef name = .ok ref)
    (success : tx.updateTableSchema sys.db stats name columns = .ok next) :
    (∀ root, ((next.catalog.tableSchema ref).columns.get? root).isSome = true ↔
      root ∈ columns.map Column.name) ∧
      (∀ new ∈ columns, ∀ column,
        (next.catalog.tableSchema ref).columns.get? new.name = some column → column.Alike new) ∧
      (DataType.Agrees (.struct (next.catalog.tableSchema ref).columns.values) (.struct columns) ↔
        ∀ old ∈ (tx.catalog.tableSchema ref).columns.values, ∀ new ∈ columns,
          old.name = new.name → DataType.Reaches old.dtype new.dtype) := by
  have open_ : party.phase.transaction = some tx := congrArg Phase.transaction working
  have grounded := (reachable_forests env now sys run).parties party member tx open_
  obtain ⟨numbered, forests⟩ := grounded.holds
  have editing := forests.editing numbered.tables grounded.sound.catalog name ref found
  obtain ⟨_, shown⟩ := editing.updateSchema_shown stats columns success
  have distinct : (columns.map Column.name).Nodup := by
    obtain ⟨_, _, success⟩ := bind_eq_ok.mp success
    obtain ⟨schema, typed, _⟩ := bind_eq_ok.mp success
    exact (ofColumns_eq_ok columns schema typed).2
  have given : ∀ new ∈ columns, Column.fieldNamed columns new.name = some new :=
    fun new inside => Column.fieldNamed_of_mem columns distinct new inside
  refine ⟨fun root => ?_, fun new inside column shownNow => ?_, ?_⟩
  · rw [← Column.isSome_fieldNamed]
    change (next.catalog.shown ref root).isSome = true ↔ _
    cases foundNew : Column.fieldNamed columns root with
    | none => rw [(shown root).1 foundNew]
    | some new =>
        obtain ⟨column, shownNow, _⟩ := (shown root).2 new foundNew
        rw [shownNow]
        simp
  · obtain ⟨other, shownOther, alike, _⟩ := (shown new.name).2 new (given new inside)
    obtain rfl := Option.some.inj (shownOther.symm.trans shownNow)
    exact alike
  · rw [editing.updateSchema_agrees stats columns success]
    constructor
    · intro reaches old listed new inside same
      obtain ⟨root, shownOld⟩ := (IndexMap.mem_values_iff _ _).mp listed
      have root_ := CatalogColumns.name_of_get?_schema editing.tree.linked root old shownOld
      refine reaches root old new shownOld ?_
      rw [← root_, same]
      exact given new inside
    · intro reaches root old new shownOld foundNew
      obtain ⟨inside, rfl⟩ := Column.mem_of_fieldNamed _ _ _ foundNew
      exact reaches old ((IndexMap.mem_values_iff _ _).mpr ⟨_, shownOld⟩) new inside
        (CatalogColumns.name_of_get?_schema editing.tree.linked _ old shownOld)

theorem eq_ok_of_isOk
    {ε α : Type}
    {result : Except ε α}
    (succeeds : result.isOk = true) :
    ∃ value, result = .ok value := by
  cases result with
  | error err => cases succeeds
  | ok value => exact ⟨value, rfl⟩

/-- A transaction creates a table with a struct and goes on. -/
def createdStruct : List Label :=
  let column (name : String) (dtype : DataType) : Column :=
    .mk name.toList dtype true default none (.literal none) none
  .begin :: working 0 ⟨0, 0, 1, 0⟩ [.createTable ⟨"main".toList, "t".toList⟩
    [column "a" (.struct [column "x" (.primitive .int8)]), column "b" (.primitive .int32)]
    none none none none .fail]

/-- The struct gets a wider field and another one, and the second column is replaced. -/
def widenedStruct : List Column :=
  let column (name : String) (dtype : DataType) : Column :=
    .mk name.toList dtype true default none (.literal none) none
  [column "a" (.struct [column "x" (.primitive .int16), column "y" (.primitive .int32)]),
    column "c" (.primitive .varchar)]

theorem createdStruct_permitted :
    ∀ sys, ∀ label ∈ createdStruct, TransfersColumnsOnce sys label := by
  simp [createdStruct, working, TransfersColumnsOnce]

theorem updateTableSchema_agrees_widenedStruct :
    ∃ (sys : System) (tx next : Ducklake.Transaction) (ref : TableRef),
      createdStruct.foldlM (step .plain) (init 0) = some sys ∧
      tx.catalog.tableRef ⟨"main".toList, "t".toList⟩ = .ok ref ∧
      tx.updateTableSchema sys.db (.ok .empty) ⟨"main".toList, "t".toList⟩ widenedStruct =
        .ok next ∧
      (∀ root, ((next.catalog.tableSchema ref).columns.get? root).isSome = true ↔
        root ∈ widenedStruct.map Column.name) := by
  -- Only an active transaction can be submitted.
  obtain ⟨sys, taken, called⟩ : ∃ sys, createdStruct.foldlM (step .plain) (init 0) = some sys ∧
      (sys.parties[0]?.bind fun party =>
        if (sys.submit 0 party).isSome then party.phase.transaction.map fun tx =>
          (tx.catalog.tableRef ⟨"main".toList, "t".toList⟩).isOk &&
            (tx.updateTableSchema sys.db (.ok .empty) ⟨"main".toList, "t".toList⟩
              widenedStruct).isOk
        else none) = some true :=
    Option.map_eq_some_iff.mp (by decide +kernel)
  obtain ⟨party, found, called⟩ := Option.bind_eq_some_iff.mp called
  split at called
  · rename_i submitted
    unfold System.submit at submitted
    split at submitted
    · rename_i tx phase
      rw [phase] at called
      obtain ⟨named, updated⟩ := Bool.and_eq_true_iff.mp (Option.some.inj called)
      obtain ⟨ref, named⟩ := eq_ok_of_isOk named
      obtain ⟨next, updated⟩ := eq_ok_of_isOk updated
      exact ⟨sys, tx, next, ref, taken, named, updated,
        (updateTableSchema_agrees .plain 0 sys
          (Reaches.of_foldlM createdStruct createdStruct_permitted taken) party
          (List.mem_of_getElem? found) tx next phase (.ok .empty) _ widenedStruct ref named
          updated).1⟩
    · cases submitted
  · cases called

end Ducklake.System
