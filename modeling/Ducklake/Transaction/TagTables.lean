import Mathlib.Data.Fin.VecNotation
import Ducklake.Transaction.Collects
import Ducklake.Transaction.Tags

/-!
# The tables of tags

The tags of objects and those of columns as tables in which edits are persisted, and the rows that
the persisted edits leave in the model of the database.
-/

set_option autoImplicit false

namespace Ducklake.Transaction

open Lib Lib.Sql Db Spec

/-! ## Values -/

inductive SqlValue where
  | int (value : Int)
  | text (value : Text)
  deriving DecidableEq

/-- Integers are compared exactly, texts as the database does. -/
def SqlValue.collation (texts : Collation Text) : Collation SqlValue where
  same
    | .int a, .int b => a = b
    | .text a, .text b => texts.same a b
    | _, _ => false
  refl a := by
    cases a with
    | int => simp
    | text value => exact texts.refl value
  symm a b same := by
    cases a <;> cases b <;> simp only [decide_eq_true_iff, Bool.false_eq_true] at same ⊢
    · exact same.symm
    · exact texts.symm _ _ same
  trans a b c first second := by
    cases a <;> cases b <;> cases c <;>
      simp only [decide_eq_true_iff, Bool.false_eq_true] at first second ⊢
    · exact first.trans second
    · exact texts.trans _ _ _ first second

/-! ## Tags of objects -/

inductive TagColumn where
  | objectId
  | beginSnapshot
  | endSnapshot
  | key
  | value
  deriving DecidableEq

def tagRow (row : Versioned DucklakeTag) : Row TagColumn SqlValue
  | .objectId => some (.int row.entity.objectId)
  | .beginSnapshot => some (.int row.beginSnapshot)
  | .endSnapshot => row.endSnapshot.map .int
  | .key => some (.text row.entity.key)
  | .value => some (.text row.entity.value)

def tagTable (texts : Collation Text) (snapshotId : Int) : TagTable Int TagColumn SqlValue 2 where
  collation := SqlValue.collation texts
  keys := ![.objectId, .key]
  endSnapshot := .endSnapshot
  keyValues id key := ![some (.int id), some (.text key)]
  entity id key value := tagRow (.new snapshotId { objectId := id, key := key, value := value })
  identified := by decide
  fits dialect := by cases dialect <;> decide
  keys_ne_end := by decide
  entity_keys id key value index := by
    match index with
    | 0 => rfl
    | 1 => rfl
  entity_live _ _ _ := rfl
  sameKey_self id key index := by
    match index with
    | 0 => exact congrArg some ((SqlValue.collation texts).refl _)
    | 1 => exact congrArg some ((SqlValue.collation texts).refl _)
  sameObject id other key otherKey same :=
    of_decide_eq_true (Option.some.inj (same 0))

/-! ## Tags of columns -/

inductive ColumnTagColumn where
  | tableId
  | columnId
  | beginSnapshot
  | endSnapshot
  | key
  | value
  deriving DecidableEq

def columnTagRow (row : Versioned DucklakeColumnTag) : Row ColumnTagColumn SqlValue
  | .tableId => some (.int row.entity.tableId)
  | .columnId => some (.int row.entity.columnId)
  | .beginSnapshot => some (.int row.beginSnapshot)
  | .endSnapshot => row.endSnapshot.map .int
  | .key => some (.text row.entity.key)
  | .value => some (.text row.entity.value)

def columnTagTable (texts : Collation Text) (snapshotId : Int) :
    TagTable (Int × Int) ColumnTagColumn SqlValue 3 where
  collation := SqlValue.collation texts
  keys := ![.tableId, .columnId, .key]
  endSnapshot := .endSnapshot
  keyValues id key := ![some (.int id.1), some (.int id.2), some (.text key)]
  entity id key value := columnTagRow
    (.new snapshotId { tableId := id.1, columnId := id.2, key := key, value := value })
  identified := by decide
  fits dialect := by cases dialect <;> decide
  keys_ne_end := by decide
  entity_keys id key value index := by
    match index with
    | 0 => rfl
    | 1 => rfl
    | 2 => rfl
  entity_live _ _ _ := rfl
  sameKey_self id key index := by
    match index with
    | 0 => exact congrArg some ((SqlValue.collation texts).refl _)
    | 1 => exact congrArg some ((SqlValue.collation texts).refl _)
    | 2 => exact congrArg some ((SqlValue.collation texts).refl _)
  sameObject id other key otherKey same :=
    Prod.ext (of_decide_eq_true (Option.some.inj (same 0)))
      (of_decide_eq_true (Option.some.inj (same 1)))

/-! ## Rows of the database -/

namespace TagTable

variable {κ C V α : Type} {K : Nat} [DecidableEq C]

/-- The rows of a table of tags, as entities with their snapshots. -/
structure Stores (table : TagTable κ C V K) (snapshotId : Int) (value : Int → V)
    (selects : κ → Text → α → Bool) (entity : κ → Text → Text → α)
    (store : Versioned α → Row C V) : Prop where
  isLive : ∀ row, (store row table.endSnapshot).isNone = row.isLive
  selects : ∀ object key row, Selects table.collation table.keys (table.keyValues object key)
    (store row) ↔ selects object key row.entity = true
  retires : ∀ row, withValues [(table.endSnapshot, some (value snapshotId))] (store row) =
    store { row with endSnapshot := some snapshotId }
  inserts : ∀ object key text,
    table.entity object key text = store (.new snapshotId (entity object key text))

variable {table : TagTable κ C V K} {snapshotId : Int} {value : Int → V}
  {selects : κ → Text → α → Bool} {entity : κ → Text → Text → α} {store : Versioned α → Row C V}

theorem Stores.retired
    (stores : table.Stores snapshotId value selects entity store)
    (edit : κ × TagChange)
    (row : Versioned α) :
    table.retired (value snapshotId) [edit] (store row) =
      store (Versioned.retireRow snapshotId (selects edit.1 edit.2.key) row) := by
  unfold TagTable.retired updateMatching Versioned.retireRow
  rw [stores.retires]
  refine (if_congr ?_ rfl rfl).trans (apply_ite store _ _ _).symm
  rw [holds_isNull, List.map_singleton, ← Option.isNone_iff_eq_none, stores.isLive,
    Bool.and_eq_true]
  simp [stores.selects]

/-- The edits of a commit in the model of the database are the edits one by one. -/
theorem Stores.persistTags
    (stores : table.Stores snapshotId value selects entity store)
    (edits : List (κ × TagChange))
    (rows : List (Versioned α)) :
    (Transaction.persistTags snapshotId selects entity rows edits).map store =
      table.applyInOrder (value snapshotId) edits (rows.map store) := by
  induction edits generalizing rows with
  | nil => rfl
  | cons edit rest ih =>
      have step : (Versioned.retire snapshotId (selects edit.1 edit.2.key) rows ++
          (edit.2.value.map fun text =>
            Versioned.new snapshotId (entity edit.1 edit.2.key text)).toList).map store =
          table.round (value snapshotId) [edit] (rows.map store) := by
        rw [List.map_append, Versioned.retire, round, List.map_map, List.map_map,
          List.flatMap_singleton, inserted]
        refine congrArg₂ (· ++ ·) (List.map_congr_left fun row _ => ?_) ?_
        · exact (stores.retired edit row).symm
        · cases edit.2.value with
          | none => rfl
          | some text => exact congrArg (fun row => [row]) (stores.inserts _ _ text).symm
      refine (ih _).trans ?_
      rw [step]
      rfl

end TagTable

theorem tagTable_stores (snapshotId : Int) :
    (tagTable .binary snapshotId).Stores snapshotId .int
      (fun id key (row : DucklakeTag) => row.objectId = id ∧ row.key = key)
      (fun id key value => { objectId := id, key := key, value := value }) tagRow where
  isLive row := by cases row.endSnapshot <;> simp [tagTable, tagRow, Versioned.isLive]
  selects id key row := by
    unfold Selects
    simp [tagTable, Fin.forall_fin_two, tagRow, Collation.equal, SqlValue.collation,
      Collation.binary]
  retires row := by
    funext column
    cases column <;> rfl
  inserts _ _ _ := rfl

theorem columnTagTable_stores (snapshotId : Int) :
    (columnTagTable .binary snapshotId).Stores snapshotId .int
      (fun id key (row : DucklakeColumnTag) => (row.tableId, row.columnId) = id ∧ row.key = key)
      (fun id key value => { tableId := id.1, columnId := id.2, key := key, value := value })
      columnTagRow where
  isLive row := by cases row.endSnapshot <;> simp [columnTagTable, columnTagRow, Versioned.isLive]
  selects id key row := by
    unfold Selects
    simp [columnTagTable, Fin.forall_fin_succ, columnTagRow, Collation.equal, SqlValue.collation,
      Collation.binary, Prod.ext_iff, and_assoc]
  retires row := by
    funext column
    cases column <;> rfl
  inserts _ _ _ := rfl

/-! ## Edits of a transaction -/

section

variable {β : Type} (edit : Change → Option β)

theorem getLast?_filterMap_keepLast
    (kind : ∀ change other, change.hashable = other.hashable →
      (edit change).isSome = (edit other).isSome)
    (changes : List Change) :
    ((keepLast changes).filterMap edit).getLast? = (changes.filterMap edit).getLast? := by
  induction changes with
  | nil => rfl
  | cons change rest ih =>
      unfold keepLast
      split
      · rename_i repeated
        obtain ⟨other, later, same⟩ := List.mem_map.mp repeated
        rw [ih, List.filterMap_cons]
        cases found : edit change with
        | none => rfl
        | some value =>
            have again : (edit other).isSome = true := by
              rw [kind other change same, found]
              rfl
            obtain ⟨last, edited⟩ := Option.isSome_iff_exists.mp again
            have nonempty : rest.filterMap edit ≠ [] :=
              List.ne_nil_of_mem (List.mem_filterMap.mpr ⟨other, later, edited⟩)
            obtain ⟨first, others, listed⟩ := List.exists_cons_of_ne_nil nonempty
            rw [listed]
            rfl
      · rw [List.filterMap_cons, List.filterMap_cons]
        cases edit change with
        | none => exact ih
        | some value => rw [List.getLast?_cons, List.getLast?_cons, ih]

theorem filterMap_filter_of_isSome
    (keeps : Change → Bool)
    (changes : List Change)
    (kept : ∀ change ∈ changes, (edit change).isSome = true → keeps change = true) :
    (changes.filter keeps).filterMap edit = changes.filterMap edit := by
  rw [List.filterMap_filter]
  refine List.filterMap_congr fun change member => ?_
  cases found : edit change with
  | none => exact ite_self _
  | some value => exact if_pos (kept change member (by rw [found]; rfl))

theorem getLast?_filterMap_new
    (tableRef : TableRef)
    (changes : List Change)
    (stays : ∀ change ∈ changes, change.deletedTable ≠ some tableRef)
    (kind : ∀ change other, change.hashable = other.hashable →
      (edit change).isSome = (edit other).isSome)
    (tags : ∀ change, (edit change).isSome = true → change.affectedTableRef = some tableRef ∧
      (change.tableTagEdit.isSome ∨ change.columnTagEdit.isSome)) :
    ((ChangeSet.new changes).changes.filterMap edit).getLast? =
      (changes.filterMap edit).getLast? := by
  have plain : ∀ change, (edit change).isSome = true →
      change.createdSchema = none ∧ change.deletedSchema = none ∧ change.createdView = none ∧
        change.deletedView = none ∧ change.createdMacro = none ∧ change.deletedMacro = none ∧
          change.deletedTable = none := by
    intro change edited
    have tag := (tags change edited).2
    cases change <;> first
      | exact ⟨rfl, rfl, rfl, rfl, rfl, rfl, rfl⟩
      | exact absurd tag (by simp [Change.tableTagEdit, Change.columnTagEdit])
  refine Eq.trans (congrArg List.getLast? ?_) (getLast?_filterMap_keepLast edit kind changes)
  change (deduplicate changes).filterMap edit = _
  unfold deduplicate cancelPairs cancelTables
  rw [filterMap_filter_of_isSome edit, filterMap_filter_of_isSome edit,
    filterMap_filter_of_isSome edit, filterMap_filter_of_isSome edit]
  · intro change _ edited
    obtain ⟨-, -, -, -, -, -, table⟩ := plain change edited
    rw [table, (tags change edited).1, Option.all_some, decide_eq_true_iff]
    intro deleted
    obtain ⟨other, member, found⟩ := List.mem_filterMap.mp deleted
    exact stays other ((keepLast_sublist changes).subset member) found
  · intro change _ edited
    obtain ⟨-, -, -, -, created, deleted, -⟩ := plain change edited
    rw [created, deleted]
    rfl
  · intro change _ edited
    obtain ⟨-, -, created, deleted, -⟩ := plain change edited
    rw [created, deleted]
    rfl
  · intro change _ edited
    obtain ⟨created, deleted, -⟩ := plain change edited
    rw [created, deleted]
    rfl

end

def HashableChange.tableTag : HashableChange → Option (TableRef × Text)
  | .addTableTag tableRef key | .removeTableTag tableRef key => some (tableRef, key)
  | _ => none

def HashableChange.columnTag : HashableChange → Option (ColumnRef × Text)
  | .addTableColumnTag columnRef key | .removeTableColumnTag columnRef key => some (columnRef, key)
  | _ => none

theorem tableTag_hashable (change : Change) :
    change.hashable.tableTag = change.tableTagEdit.map fun edit => (edit.1, edit.2.key) := by
  cases change <;> rfl

theorem columnTag_hashable (change : Change) :
    change.hashable.columnTag = change.columnTagEdit.map fun edit => (edit.1, edit.2.key) := by
  cases change <;> rfl

theorem isSome_filter_of_map
    {β γ : Type}
    (label : β → γ)
    (keeps : γ → Bool)
    {first second : Option β}
    (same : first.map label = second.map label) :
    (first.filter fun value => keeps (label value)).isSome =
      (second.filter fun value => keeps (label value)).isSome := by
  cases first <;> cases second <;> simp_all [Option.isSome_filter]

theorem lastTableTagEdit_new
    (tableRef : TableRef)
    (changes : List Change)
    (stays : ∀ change ∈ changes, change.deletedTable ≠ some tableRef)
    (sameKey : Text → Bool) :
    ((ChangeSet.new changes).changes.filterMap fun change =>
        change.tableTagEdit.filter fun edit => edit.1 = tableRef && sameKey edit.2.key).getLast? =
      (changes.filterMap fun change =>
        change.tableTagEdit.filter fun edit => edit.1 = tableRef && sameKey edit.2.key).getLast? := by
  refine getLast?_filterMap_new _ tableRef changes stays (fun change other same => ?_)
    fun change edited => ?_
  · refine isSome_filter_of_map (fun edit : TableRef × TagChange => (edit.1, edit.2.key))
      (fun tag => tag.1 = tableRef && sameKey tag.2) ?_
    rw [← tableTag_hashable, ← tableTag_hashable, same]
  · cases change <;> simp_all [Change.tableTagEdit, Option.isSome_filter, Change.affectedTableRef]

theorem lastColumnTagEdit_new
    (columnRef : ColumnRef)
    (changes : List Change)
    (stays : ∀ change ∈ changes, change.deletedTable ≠ some columnRef.tableRef)
    (sameKey : Text → Bool) :
    ((ChangeSet.new changes).changes.filterMap fun change =>
        change.columnTagEdit.filter fun edit => edit.1 = columnRef && sameKey edit.2.key).getLast? =
      (changes.filterMap fun change => change.columnTagEdit.filter fun edit =>
        edit.1 = columnRef && sameKey edit.2.key).getLast? := by
  refine getLast?_filterMap_new _ columnRef.tableRef changes stays (fun change other same => ?_)
    fun change edited => ?_
  · refine isSome_filter_of_map (fun edit : ColumnRef × TagChange => (edit.1, edit.2.key))
      (fun tag => tag.1 = columnRef && sameKey tag.2) ?_
    rw [← columnTag_hashable, ← columnTag_hashable, same]
  · cases change <;> simp_all [Change.columnTagEdit, Option.isSome_filter, Change.affectedTableRef]

/-- Edits of two tables in the order of a hash map, with a tag that is set, removed and set. -/
theorem persistTags_lastEdit_tables :
    ∃ result, (tagTable .binary 3).persistTags .sqlite (.int 3)
        [(7, [⟨['a'], some ['x']⟩]),
          (4, [⟨['a'], some ['x']⟩, ⟨['a'], none⟩, ⟨['b'], some ['y']⟩, ⟨['a'], some ['z']⟩])]
        [tagRow (.new 1 ⟨4, ['a'], ['w']⟩), tagRow (.new 1 ⟨5, ['a'], ['w']⟩)] = .ok result ∧
      (tagTable .binary 3).live 4 ['a'] result = [tagRow (.new 3 ⟨4, ['a'], ['z']⟩)] ∧
      (tagTable .binary 3).live 5 ['a'] result = (tagTable .binary 3).live 5 ['a']
        [tagRow (.new 1 ⟨4, ['a'], ['w']⟩), tagRow (.new 1 ⟨5, ['a'], ['w']⟩)] := by
  obtain ⟨result, executed, alive, -, -⟩ := (tagTable .binary 3).persistTags_lastEdit .sqlite
    (.int 3)
    [(4, ⟨['a'], some ['x']⟩), (4, ⟨['a'], none⟩), (7, ⟨['a'], some ['x']⟩),
      (4, ⟨['b'], some ['y']⟩), (4, ⟨['a'], some ['z']⟩)]
    [(7, [⟨['a'], some ['x']⟩]),
      (4, [⟨['a'], some ['x']⟩, ⟨['a'], none⟩, ⟨['b'], some ['y']⟩, ⟨['a'], some ['z']⟩])]
    (.swap ..) [tagRow (.new 1 ⟨4, ['a'], ['w']⟩), tagRow (.new 1 ⟨5, ['a'], ['w']⟩)]
  exact ⟨result, executed, alive 4 ['a'], alive 5 ['a']⟩

end Ducklake.Transaction
