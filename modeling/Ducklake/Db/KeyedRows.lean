import Mathlib.Algebra.GroupWithZero.Nat
import Mathlib.Algebra.Order.BigOperators.Group.List
import Mathlib.Algebra.Order.Group.Nat
import Mathlib.Data.List.Flatten
import Ducklake.Db.Batch
import Ducklake.Lib.Except

/-!
# Keyed rows

What the batches of `update_rows` and `copy_rows_with_updates` do to a table: the same as one
statement for each keyed row.
-/

set_option autoImplicit false

namespace Ducklake.Db

open Lib Lib.Sql

/-! ## Batches -/

section

variable {T Q S : Type} (fits : Nat → Bool) (dialect : Dialect) (binds : Q → Nat)
  (run : Q → S → S) (maxItems : Count) (query : List T → Q)

theorem batchSize_le (count result : Count) (found : batchSize fits count = some result) :
    result.1 ≤ count.1 ∧ fits result.1 = true := by
  fun_induction batchSize fits count with
  | case1 count here =>
      obtain rfl := Option.some.inj found
      exact ⟨Nat.le_refl _, here⟩
  | case2 => cases found
  | case3 count _ _ ih =>
      obtain ⟨smaller, here⟩ := ih found
      have half : (⟨count.1 / 2, by have := count.2; omega⟩ : Count).1 = count.1 / 2 := rfl
      exact ⟨by omega, here⟩

theorem exists_batchSize (single : fits 1 = true) (count : Count) :
    ∃ result, batchSize fits count = some result := by
  fun_induction batchSize fits count with
  | case1 count => exact ⟨count, rfl⟩
  | case2 count large one => exact absurd (by rw [one]; exact single) large
  | case3 count _ _ ih => exact ih

theorem batchSize_eq_none (none : ∀ count, 0 < count → fits count = false) (count : Count) :
    batchSize fits count = .none := by
  fun_induction batchSize fits count with
  | case1 count here => rw [none count.1 count.2] at here; cases here
  | case2 => rfl
  | case3 count _ _ ih => exact ih

/-- The batches are the items in order, none of them empty and each within the limits, up to an item
that does not fit alone. -/
theorem queriesWithin_exact
    (limit : Nat)
    (items : List T) :
    ∃ batches : List (List T),
      (∀ batch ∈ batches, batch ≠ [] ∧ batch.length ≤ maxItems.1 ∧ binds (query batch) ≤ limit) ∧
      ((batches.flatten = items ∧
          queriesWithin limit binds maxItems query items = batches.map fun batch =>
            .ok (query batch)) ∨
        ∃ item rest, batches.flatten ++ item :: rest = items ∧ limit < binds (query [item]) ∧
          queriesWithin limit binds maxItems query items =
            (batches.map fun batch => .ok (query batch)) ++ [.error tooManyParameters]) := by
  fun_induction queriesWithin limit binds maxItems query items with
  | case1 => exact ⟨[], by simp, Or.inl ⟨rfl, rfl⟩⟩
  | case2 items nonempty fitting count found ih =>
      obtain ⟨batches, within, exact_⟩ := ih
      obtain ⟨smaller, here⟩ := batchSize_le fitting _ count found
      have first : items.take count.1 ≠ [] ∧ (items.take count.1).length ≤ maxItems.1 ∧
          binds (query (items.take count.1)) ≤ limit := by
        refine ⟨?_, ?_, of_decide_eq_true here⟩
        · rw [Ne, List.take_eq_nil_iff]
          exact fun empty => empty.elim (fun zero => by have := count.2; omega) nonempty
        · rw [List.length_take]
          have bound : count.1 ≤ min items.length maxItems.1 := smaller
          omega
      refine ⟨items.take count.1 :: batches, List.forall_mem_cons.mpr ⟨first, within⟩, ?_⟩
      rcases exact_ with ⟨whole, queries⟩ | ⟨item, rest, whole, large, queries⟩
      · refine Or.inl ⟨?_, congrArg _ queries⟩
        rw [List.flatten_cons, whole, List.take_append_drop]
      · refine Or.inr ⟨item, rest, ?_, large, congrArg _ queries⟩
        rw [List.flatten_cons, List.append_assoc, whole, List.take_append_drop]
  | case3 items nonempty fitting none =>
      obtain ⟨item, rest, rfl⟩ := List.exists_cons_of_ne_nil nonempty
      refine ⟨[], by simp, Or.inr ⟨item, rest, rfl, ?_, rfl⟩⟩
      by_contra fits
      obtain ⟨count, found⟩ := exists_batchSize fitting
        (decide_eq_true (Nat.le_of_not_lt fits)) ⟨min (item :: rest).length maxItems,
          Nat.lt_min.mpr ⟨List.length_pos_iff.mpr nonempty, maxItems.2⟩⟩
      rw [none] at found
      cases found

theorem executeBatches_related
    (Related : S → S → Prop)
    (one : S → T → S)
    (items : List T)
    (fits : ∀ item ∈ items, binds (query [item]) ≤ dialect.maxBindParams)
    (agree : ∀ batch, batch <:+: items → ∀ left right, Related left right →
      Related (run (query batch) left) (batch.foldl one right))
    (left right : S)
    (related : Related left right) :
    ∃ result, executeBatches dialect binds run maxItems query items left = .ok result ∧
      Related result (items.foldl one right) := by
  unfold executeBatches batchQueries
  fun_induction queriesWithin dialect.maxBindParams binds maxItems query items
    generalizing left right with
  | case1 => exact ⟨left, rfl, related⟩
  | case2 items nonempty fitting count found ih =>
      have front := List.take_append_drop count.1 items
      obtain ⟨result, executed, same⟩ := ih
        (fun item member => fits item (List.mem_of_mem_drop member))
        (fun batch inside => agree batch (inside.trans (List.drop_suffix _ _).isInfix))
        (run (query (items.take count.1)) left) ((items.take count.1).foldl one right)
        (agree _ (List.take_prefix _ _).isInfix left right related)
      refine ⟨result, executed, ?_⟩
      rw [← List.foldl_append, front] at same
      exact same
  | case3 items nonempty fitting none =>
      obtain ⟨first, rest, rfl⟩ := List.exists_cons_of_ne_nil nonempty
      have single : fitting 1 = true := by
        exact decide_eq_true (fits first List.mem_cons_self)
      obtain ⟨count, found⟩ := exists_batchSize fitting single
        ⟨min (first :: rest).length maxItems,
          Nat.lt_min.mpr ⟨List.length_pos_iff.mpr nonempty, maxItems.2⟩⟩
      rw [none] at found
      cases found

theorem executeBatches_error
    (items : List T)
    (nonempty : items ≠ [])
    (large : ∀ batch, batch ≠ [] → dialect.maxBindParams < binds (query batch))
    (table : S) :
    executeBatches dialect binds run maxItems query items table = .error tooManyParameters := by
  have none : ∀ count, 0 < count →
      decide (binds (query (items.take count)) ≤ dialect.maxBindParams) = false := by
    intro count positive
    refine decide_eq_false (Nat.not_le_of_lt (large _ ?_))
    rw [Ne, List.take_eq_nil_iff]
    exact fun empty => empty.elim (fun zero => by omega) nonempty
  unfold executeBatches
  rw [batchQueries, queriesWithin, dif_neg nonempty]
  dsimp only
  rw [batchSize_eq_none _ none]
  rfl

/-- Statements that only grow with their rows: either every single row fits, or none does. -/
theorem executeBatches_cases
    (grows : ∀ batch other : List T, batch.length ≤ other.length →
      binds (query batch) ≤ binds (query other))
    (Related : S → S → Prop)
    (one : S → T → S)
    (items : List T)
    (agree : ∀ batch, batch <:+: items → ∀ left right, Related left right →
      Related (run (query batch) left) (batch.foldl one right))
    (left right : S)
    (related : Related left right) :
    if ∀ item ∈ items, binds (query [item]) ≤ dialect.maxBindParams then
      ∃ result, executeBatches dialect binds run maxItems query items left = .ok result ∧
        Related result (items.foldl one right)
    else executeBatches dialect binds run maxItems query items left = .error tooManyParameters := by
  split
  · rename_i fits
    exact executeBatches_related dialect binds run maxItems query Related one items fits agree
      left right related
  · rename_i large
    obtain ⟨item, large⟩ := not_forall.mp large
    obtain ⟨member, large⟩ := Classical.not_imp.mp large
    refine executeBatches_error dialect binds run maxItems query items
      (List.ne_nil_of_mem member) (fun batch nonempty => ?_) left
    have least := grows [item] batch (List.length_pos_iff.mpr nonempty)
    omega

end

/-! ## Rows that are matched -/

section

variable {C V : Type} {K N : Nat} (collation : Collation V) (keys : Fin K → C)

/-- The values of the key columns are the ones of a key. -/
def Selects (key : Fin K → Option V) (row : Row C V) : Prop :=
  ∀ index, collation.equal (row (keys index)) (key index) = some true

/-- Two keys that a database does not tell apart. -/
def SameKey (first second : Fin K → Option V) : Prop :=
  ∀ index, collation.equal (first index) (second index) = some true

instance (key : Fin K → Option V) (row : Row C V) : Decidable (Selects collation keys key row) :=
  inferInstanceAs (Decidable (∀ _, _))

instance (first second : Fin K → Option V) : Decidable (SameKey collation first second) :=
  inferInstanceAs (Decidable (∀ _, _))

theorem holds_matchingRow (key : Fin K → Option V) (row : Row C V) :
    (matchingRow keys key).holds collation row = true ↔ Selects collation keys key row := by
  unfold matchingRow
  rw [holds_foldl_and]
  simp [Selects]

theorem holds_matchingRows
    (identified : 0 < K)
    (rows : List (Fin K → Option V))
    (row : Row C V) :
    (matchingRows keys rows).holds collation row = true ↔
      ∃ key ∈ rows, Selects collation keys key row := by
  unfold matchingRows
  split
  · rename_i one
    subst one
    simp [Selects]
  · rw [holds_foldl_or]
    simp [holds_matchingRow]

theorem SameKey.of_selects
    {first second : Fin K → Option V}
    {row : Row C V}
    (one : Selects collation keys first row)
    (other : Selects collation keys second row) :
    SameKey collation first second := by
  intro index
  exact collation.equal_trans _ _ _ (collation.equal_symm _ _ (one index)) (other index)

theorem binds_matchingRow (key : Fin K → Option V) : (matchingRow keys key).binds = K := by
  unfold matchingRow
  rw [binds_foldl_and]
  simp [Condition.binds]

theorem binds_matchingRows (rows : List (Fin K → Option V)) :
    (matchingRows keys rows).binds = rows.length * K := by
  unfold matchingRows
  split
  · rename_i one
    simp [Condition.binds, one]
  · rw [binds_foldl_or]
    simp [Condition.binds, binds_matchingRow]

theorem binds_replacementValue (target : Keyed C K N) (items : List (Item V K N)) (index : Fin N) :
    (replacementValue target items index).binds = items.length * (K + 1) := by
  simp [replacementValue, Expr.binds, Function.comp_def, binds_matchingRow]

theorem binds_updateQuery (target : Keyed C K N) (items : List (Item V K N)) :
    (updateQuery target items).binds = N * (items.length * (K + 1)) + items.length * K := by
  simp [updateQuery, Update.binds, Function.comp_def, binds_replacementValue, binds_matchingRows]

def DistinctKeys (items : List (Item V K N)) : Prop :=
  items.Pairwise fun first second => ¬ SameKey collation first.1 second.1

def Keyed.itemOf (target : Keyed C K N) (items : List (Item V K N)) (row : Row C V) : Option (Item V K N) :=
  items.find? fun item => Selects collation target.keys item.1 row

theorem Keyed.itemOf_cons (target : Keyed C K N) (first : Item V K N) (rest : List (Item V K N)) (row : Row C V) :
    target.itemOf collation (first :: rest) row =
      if Selects collation target.keys first.1 row then some first
      else target.itemOf collation rest row := by
  unfold Keyed.itemOf
  rw [List.find?_cons]
  by_cases selected : Selects collation target.keys first.1 row
  · rw [decide_eq_true selected, if_pos selected]
  · rw [decide_eq_false selected, if_neg selected]

end

def withValues {C V : Type} [DecidableEq C] (values : List (C × Option V)) (row : Row C V) :
    Row C V := fun column =>
  match values.find? fun entry => entry.1 = column with
  | some (_, value) => value
  | none => row column

theorem foldl_map_rows {T R : Type} (items : List T) (update : T → R → R) (rows : List R) :
    items.foldl (fun rows item => rows.map (update item)) rows =
      rows.map fun row => items.foldl (fun row item => update item row) row := by
  induction items generalizing rows with
  | nil => exact (List.map_id _).symm
  | cons first rest ih =>
      rw [List.foldl_cons, ih, List.map_map]
      rfl

/-! ## Matching updates -/

section

variable {C V : Type} {K : Nat} [DecidableEq C] (collation : Collation V) (keys : Fin K → C)
  (values : List (C × Option V)) (filter : Condition C V)

/-- The same values for the rows of all keys that the filter lets through. -/
def updateMatching (rows : List (Fin K → Option V)) (row : Row C V) : Row C V :=
  if filter.holds collation row = true ∧ ∃ key ∈ rows, Selects collation keys key row then
    withValues values row
  else row

omit [DecidableEq C] in
theorem selects_of_keys
    {first second : Row C V}
    (same : ∀ index, first (keys index) = second (keys index))
    (key : Fin K → Option V) :
    Selects collation keys key first ↔ Selects collation keys key second :=
  forall_congr' fun index => by rw [same index]

theorem withValues_key
    (separate : ∀ entry ∈ values, ∀ index, entry.1 ≠ keys index)
    (row : Row C V)
    (index : Fin K) :
    withValues values row (keys index) = row (keys index) := by
  have absent : (values.find? fun entry => entry.1 = keys index) = none := by
    refine List.find?_eq_none.mpr fun entry member same => ?_
    exact separate entry member index (of_decide_eq_true same)
  rw [withValues, absent]

theorem withValues_withValues (row : Row C V) :
    withValues values (withValues values row) = withValues values row := by
  funext column
  unfold withValues
  cases values.find? fun entry => entry.1 = column <;> rfl

theorem selects_updateMatching
    (separate : ∀ entry ∈ values, ∀ index, entry.1 ≠ keys index)
    (rows : List (Fin K → Option V))
    (key : Fin K → Option V)
    (row : Row C V) :
    Selects collation keys key (updateMatching collation keys values filter rows row) ↔
      Selects collation keys key row := by
  unfold updateMatching
  split
  · exact selects_of_keys collation keys (withValues_key keys values separate row) key
  · rfl

theorem newRow_updateMatchingRows
    (identified : 0 < K)
    (rows : List (Fin K → Option V))
    (row : Row C V) :
    (matchingQuery keys values filter rows).newRow collation row =
      updateMatching collation keys values filter rows row := by
  have holds : (filter.and (matchingRows keys rows)).holds collation row = true ↔
      filter.holds collation row = true ∧ ∃ key ∈ rows, Selects collation keys key row := by
    rw [holds_and, holds_matchingRows collation keys identified]
  unfold Update.newRow updateMatching
  refine if_congr holds ?_ rfl
  funext column
  rw [matchingQuery, exprFor_map, withValues]
  cases values.find? fun entry => entry.1 = column <;> rfl

theorem foldl_updateMatching
    (separate : ∀ entry ∈ values, ∀ index, entry.1 ≠ keys index)
    (rows : List (Fin K → Option V))
    (row : Row C V) :
    rows.foldl (fun row key => updateMatching collation keys values filter [key] row) row =
      updateMatching collation keys values filter rows row := by
  induction rows generalizing row with
  | nil => simp [updateMatching]
  | cons first rest ih =>
      rw [List.foldl_cons, ih]
      have selects := selects_of_keys collation keys (withValues_key keys values separate row)
      by_cases holds : filter.holds collation row = true
      · by_cases selected : Selects collation keys first row
        · have here : updateMatching collation keys values filter [first] row =
              withValues values row :=
            if_pos ⟨holds, first, List.mem_singleton_self _, selected⟩
          have whole : updateMatching collation keys values filter (first :: rest) row =
              withValues values row :=
            if_pos ⟨holds, first, List.mem_cons_self, selected⟩
          rw [here, whole, updateMatching, withValues_withValues, ite_self]
        · simp [updateMatching, selected]
      · simp [updateMatching, holds]

omit [DecidableEq C] in
theorem binds_matchingQuery (rows : List (Fin K → Option V)) :
    (matchingQuery keys values filter rows).binds =
      values.length + filter.binds + rows.length * K := by
  simp [matchingQuery, Update.binds, Expr.binds, Condition.binds, binds_matchingRows,
    Function.comp_def, Nat.add_assoc]

theorem updateMatchingRows_eq
    (dialect : Dialect)
    (identified : 0 < K)
    (separate : ∀ entry ∈ values, ∀ index, entry.1 ≠ keys index)
    (fits : values.length + filter.binds + K ≤ dialect.maxBindParams)
    (rows : List (Fin K → Option V))
    (table : List (Row C V)) :
    updateMatchingRows dialect collation keys rows values filter table =
      .ok (table.map (updateMatching collation keys values filter rows)) := by
  have related := executeBatches_related dialect Update.binds (Update.run collation)
    (maxRowsPerKeyBatch dialect K) (matchingQuery keys values filter) Eq
    (fun table key => table.map (updateMatching collation keys values filter [key])) rows
    (fun key _ => by
      rw [binds_matchingQuery, List.length_singleton, Nat.one_mul]
      exact fits)
    (fun batch _ left right same => by
      rw [same, foldl_map_rows]
      refine List.map_congr_left fun row _ => ?_
      rw [foldl_updateMatching collation keys values filter separate]
      exact newRow_updateMatchingRows collation keys values filter identified batch row)
    table table rfl
  obtain ⟨result, executed, rfl⟩ := related
  rw [foldl_map_rows] at executed
  refine executed.trans (congrArg Except.ok (List.map_congr_left fun row _ => ?_))
  exact foldl_updateMatching collation keys values filter separate rows row

end

/-! ## Updates -/

section

variable {C V : Type} {K N : Nat} [DecidableEq C] (collation : Collation V)
  (target : Keyed C K N)

def Keyed.indexOf (column : C) : Option (Fin N) :=
  (List.finRange N).find? fun index => target.columns index = column

def Keyed.assigned (values : Fin N → Option V) (row : Row C V) : Row C V := fun column =>
  match target.indexOf column with
  | some index => values index
  | none => row column

theorem Keyed.columns_of_indexOf
    {column : C}
    {index : Fin N}
    (found : target.indexOf column = some index) :
    target.columns index = column := by
  unfold Keyed.indexOf at found
  exact of_decide_eq_true (List.find?_some (p := fun other => target.columns other = column) found)

theorem Keyed.indexOf_columns (index : Fin N) :
    target.indexOf (target.columns index) = some index := by
  cases found : target.indexOf (target.columns index) with
  | none =>
      have missing := List.find?_eq_none.mp found index (List.mem_finRange index)
      exact absurd (decide_eq_true rfl) missing
  | some other => rw [target.distinct (target.columns_of_indexOf found)]

theorem Keyed.indexOf_keys (index : Fin K) : target.indexOf (target.keys index) = none := by
  refine List.find?_eq_none.mpr fun other _ same => ?_
  exact target.separate index other (of_decide_eq_true same).symm

theorem Keyed.selects_assigned (key : Fin K → Option V) (values : Fin N → Option V)
    (row : Row C V) :
    Selects collation target.keys key (target.assigned values row) ↔
      Selects collation target.keys key row := by
  refine forall_congr' fun index => ?_
  rw [Keyed.assigned, target.indexOf_keys index]

def Keyed.updateRow (item : Item V K N) (row : Row C V) : Row C V :=
  if Selects collation target.keys item.1 row then target.assigned item.2 row else row

def Keyed.updateOne (table : List (Row C V)) (item : Item V K N) : List (Row C V) :=
  table.map (target.updateRow collation item)

/-- What the `CASE` expressions of a batch write. -/
def Keyed.replaced (items : List (Item V K N)) (row : Row C V) : Row C V :=
  match target.itemOf collation items row with
  | some item => target.assigned item.2 row
  | none => row

theorem eval_replacementValue (items : List (Item V K N)) (index : Fin N) (row : Row C V) :
    (replacementValue target items index).eval collation row =
      target.replaced collation items row (target.columns index) := by
  have same : (fun item : Item V K N => (matchingRow target.keys item.1).holds collation row) =
      fun item => decide (Selects collation target.keys item.1 row) := by
    funext item
    rw [Bool.eq_iff_iff, holds_matchingRow, decide_eq_true_iff]
  rw [replacementValue, eval_case, same, Keyed.replaced, Keyed.itemOf]
  cases items.find? fun item => decide (Selects collation target.keys item.1 row) with
  | none => rfl
  | some item => simp only [Keyed.assigned, target.indexOf_columns index]

theorem Keyed.replaced_of_indexOf_none
    (items : List (Item V K N))
    (row : Row C V)
    {column : C}
    (absent : target.indexOf column = none) :
    target.replaced collation items row column = row column := by
  unfold Keyed.replaced
  cases target.itemOf collation items row with
  | none => rfl
  | some item => simp only [Keyed.assigned, absent]

theorem Keyed.replaced_of_unmatched
    (items : List (Item V K N))
    (row : Row C V)
    (outside : ¬ (matchingRows target.keys (items.map Prod.fst)).holds collation row = true) :
    target.replaced collation items row = row := by
  rw [holds_matchingRows collation target.keys target.identified] at outside
  have none : target.itemOf collation items row = none := by
    refine List.find?_eq_none.mpr fun item member selected => outside ?_
    exact ⟨item.1, List.mem_map_of_mem member, of_decide_eq_true selected⟩
  rw [Keyed.replaced, none]

theorem run_updateQuery (items : List (Item V K N)) (table : List (Row C V)) :
    (updateQuery target items).run collation table =
      table.map (target.replaced collation items) := by
  refine List.map_congr_left fun row _ => ?_
  unfold Update.newRow
  split
  · funext column
    have expr : exprFor (updateQuery target items).assignments column =
        (target.indexOf column).map (replacementValue target items) := by
      exact exprFor_map _ _ _ _
    rw [expr]
    cases found : target.indexOf column with
    | none => exact (target.replaced_of_indexOf_none collation items row found).symm
    | some index =>
        rw [← target.columns_of_indexOf found]
        exact eval_replacementValue collation target items index row
  · rename_i outside
    exact (target.replaced_of_unmatched collation items row outside).symm

theorem Keyed.foldl_updateRow_of_none (items : List (Item V K N)) (row : Row C V)
    (none : ∀ item ∈ items, ¬ Selects collation target.keys item.1 row) :
    items.foldl (fun row item => target.updateRow collation item row) row = row := by
  induction items with
  | nil => rfl
  | cons first rest ih =>
      rw [List.foldl_cons, Keyed.updateRow, if_neg (none first List.mem_cons_self)]
      exact ih fun item member => none item (List.mem_cons_of_mem _ member)

theorem Keyed.foldl_updateRow
    (items : List (Item V K N))
    (distinct : DistinctKeys collation items)
    (row : Row C V) :
    items.foldl (fun row item => target.updateRow collation item row) row =
      target.replaced collation items row := by
  induction items with
  | nil => rfl
  | cons first rest ih =>
      obtain ⟨apart, others⟩ := List.pairwise_cons.mp distinct
      rw [List.foldl_cons, Keyed.updateRow]
      by_cases selected : Selects collation target.keys first.1 row
      · rw [if_pos selected, Keyed.replaced, target.itemOf_cons, if_pos selected]
        refine target.foldl_updateRow_of_none collation rest _ fun item member other => ?_
        rw [target.selects_assigned] at other
        exact apart item member (SameKey.of_selects collation target.keys selected other)
      · rw [if_neg selected, ih others, Keyed.replaced, Keyed.replaced, target.itemOf_cons,
          if_neg selected]

/-! ## Copies -/

variable (copied : Copied C V)

def Copied.fix (row : Row C V) : Row C V := withValues copied.fixed row

/-- A copy: the fixed values go before the ones of the item. -/
def Copied.copyOf (values : Fin N → Option V) (row : Row C V) : Row C V :=
  copied.fix (target.assigned values row)

def Copied.copies (table : List (Row C V)) (item : Item V K N) : List (Row C V) :=
  (table.filter fun row =>
    copied.filter.holds collation row && decide (Selects collation target.keys item.1 row)).map
      (copied.copyOf target item.2)

def Copied.copyOne (table : List (Row C V)) (item : Item V K N) : List (Row C V) :=
  table ++ copied.copies collation target table item

def Copied.Excluded : Prop :=
  ∀ (values : Fin N → Option V) (row : Row C V),
    copied.filter.holds collation (copied.copyOf target values row) = false

theorem Copied.copies_append (first second : List (Row C V)) (item : Item V K N) :
    copied.copies collation target (first ++ second) item =
      copied.copies collation target first item ++ copied.copies collation target second item := by
  simp only [Copied.copies, List.filter_append, List.map_append]

theorem Copied.copies_copies
    (excluded : copied.Excluded collation target)
    (table : List (Row C V))
    (first second : Item V K N) :
    copied.copies collation target (copied.copies collation target table first) second = [] := by
  unfold Copied.copies
  rw [List.map_eq_nil_iff, List.filter_eq_nil_iff]
  intro row member
  obtain ⟨source, -, rfl⟩ := List.mem_map.mp member
  rw [excluded first.2 source]
  exact Bool.false_ne_true

theorem Copied.foldl_copyOne
    (excluded : copied.Excluded collation target)
    (items : List (Item V K N))
    (table : List (Row C V)) :
    items.foldl (copied.copyOne collation target) table =
      table ++ items.flatMap (copied.copies collation target table) := by
  induction items generalizing table with
  | nil => simp
  | cons first rest ih =>
      have same : rest.flatMap (copied.copies collation target
          (copied.copyOne collation target table first)) =
          rest.flatMap (copied.copies collation target table) := by
        refine List.flatMap_congr fun item _ => ?_
        rw [Copied.copyOne, copied.copies_append,
          copied.copies_copies collation target excluded table first item, List.append_nil]
      rw [List.foldl_cons, ih, same, Copied.copyOne, List.flatMap_cons, List.append_assoc]

def Copied.sources (items : List (Item V K N)) (table : List (Row C V)) : List (Row C V) :=
  table.filter fun row =>
    copied.filter.holds collation row && (target.itemOf collation items row).isSome

/-- With distinct keys a batch copies what the single rows do, in the order of the table. -/
theorem Copied.sources_perm
    (items : List (Item V K N))
    (distinct : DistinctKeys collation items)
    (table : List (Row C V)) :
    ((copied.sources collation target items table).map fun row =>
        copied.fix (target.replaced collation items row)).Perm
      (items.flatMap (copied.copies collation target table)) := by
  induction items with
  | nil =>
      have empty : copied.sources collation target [] table = [] :=
        List.filter_eq_nil_iff.mpr fun row _ => by simp [Keyed.itemOf]
      rw [empty]
      exact .nil
  | cons first rest ih =>
      obtain ⟨apart, others⟩ := List.pairwise_cons.mp distinct
      have alone : ∀ row, Selects collation target.keys first.1 row →
          target.itemOf collation rest row = none := by
        intro row selected
        refine List.find?_eq_none.mpr fun item member other => ?_
        exact apart item member
          (SameKey.of_selects collation target.keys selected (of_decide_eq_true other))
      have parts := List.filter_append_perm
        (fun row => decide (Selects collation target.keys first.1 row))
        (copied.sources collation target (first :: rest) table)
      refine (parts.symm.map _).trans ?_
      rw [List.map_append, List.flatMap_cons]
      refine .append (.of_eq ?_) (.trans (.of_eq ?_) (ih others))
      · -- the rows of the first item
        have rows : (copied.sources collation target (first :: rest) table).filter
            (fun row => decide (Selects collation target.keys first.1 row)) =
            table.filter fun row => copied.filter.holds collation row &&
              decide (Selects collation target.keys first.1 row) := by
          rw [Copied.sources, List.filter_filter]
          refine List.filter_congr fun row _ => ?_
          by_cases selected : Selects collation target.keys first.1 row
          · simp [target.itemOf_cons, selected]
          · simp [selected]
        rw [rows, Copied.copies]
        refine List.map_congr_left fun row member => ?_
        have selected : Selects collation target.keys first.1 row := by
          have both := (List.mem_filter.mp member).2
          rw [Bool.and_eq_true] at both
          exact of_decide_eq_true both.2
        rw [Keyed.replaced, target.itemOf_cons, if_pos selected]
        rfl
      · -- no row of another item belongs to the first one
        have rows : (copied.sources collation target (first :: rest) table).filter
            (fun row => !decide (Selects collation target.keys first.1 row)) =
            copied.sources collation target rest table := by
          rw [Copied.sources, List.filter_filter]
          refine List.filter_congr fun row _ => ?_
          by_cases selected : Selects collation target.keys first.1 row
          · simp [selected, alone row selected]
          · simp [target.itemOf_cons, selected]
        rw [rows]
        refine List.map_congr_left fun row member => ?_
        have selected : ¬ Selects collation target.keys first.1 row := by
          intro selected
          have both := (List.mem_filter.mp member).2
          rw [alone row selected, Option.isSome_none, Bool.and_false] at both
          cases both
        rw [Keyed.replaced, target.itemOf_cons, if_neg selected]
        rfl

theorem eval_copiedValue
    (items : List (Item V K N))
    (column : C)
    (row : Row C V) :
    (copiedValue target copied items column).eval collation row =
      copied.fix (target.replaced collation items row) column := by
  unfold copiedValue Copied.fix withValues
  cases copied.fixed.find? fun entry => entry.1 = column with
  | some entry => rfl
  | none =>
      change (match target.indexOf column with | some index => _ | none => _ : Expr C V).eval _ _ = _
      cases found : target.indexOf column with
      | none => exact (target.replaced_of_indexOf_none collation items row found).symm
      | some index =>
          dsimp only
          rw [eval_replacementValue, target.columns_of_indexOf found]

theorem newRow_copyQuery (items : List (Item V K N)) (row : Row C V) :
    (copyQuery target copied items).newRow collation row =
      copied.fix (target.replaced collation items row) := by
  funext column
  have expr : exprFor (copyQuery target copied items).columns column =
      some (copiedValue target copied items column) := by
    have found : copied.allColumns.find? (fun other => other = column) = some column := by
      cases found : copied.allColumns.find? (fun other => other = column) with
      | none =>
          have missing := List.find?_eq_none.mp found column (copied.complete column)
          exact absurd (decide_eq_true rfl) missing
      | some other =>
          rw [of_decide_eq_true (List.find?_some (p := fun other => other = column) found)]
    exact (exprFor_map copied.allColumns id (copiedValue target copied items) column).trans
      (congrArg (Option.map _) found)
  rw [InsertSelect.newRow, expr]
  exact eval_copiedValue collation target copied items column row

theorem run_copyQuery (items : List (Item V K N)) (table : List (Row C V)) :
    (copyQuery target copied items).run collation table =
      table ++ (copied.sources collation target items table).map fun row =>
        copied.fix (target.replaced collation items row) := by
  have rows : table.filter ((copyQuery target copied items).filter.holds collation) =
      copied.sources collation target items table := by
    refine List.filter_congr fun row _ => ?_
    rw [Bool.eq_iff_iff, copyQuery, holds_and,
      holds_matchingRows collation target.keys target.identified, Bool.and_eq_true,
      Keyed.itemOf, List.find?_isSome]
    simp
  rw [InsertSelect.run, rows]
  refine congrArg (table ++ ·) (List.map_congr_left fun row _ => ?_)
  exact newRow_copyQuery collation target copied items row

theorem binds_copyQuery_le
    (items other : List (Item V K N))
    (fewer : items.length ≤ other.length) :
    (copyQuery target copied items).binds ≤ (copyQuery target copied other).binds := by
  have columns : ∀ column, (copiedValue target copied items column).binds ≤
      (copiedValue target copied other column).binds := by
    intro column
    unfold copiedValue
    split
    · exact Nat.le_refl _
    · split
      · rw [binds_replacementValue, binds_replacementValue]
        exact Nat.mul_le_mul_right _ fewer
      · exact Nat.le_refl _
  simp only [copyQuery, InsertSelect.binds, Condition.binds, binds_matchingRows, List.map_map,
    List.length_map]
  exact Nat.add_le_add (List.sum_le_sum fun column _ => columns column)
    (Nat.add_le_add_left (Nat.mul_le_mul_right _ fewer) _)

/-- The batches of an update and of a copy do what a statement for each keyed row does, wherever
they end; the rows of a copy come in another order.  Only a single row that is too large for a
statement is an error. -/
theorem batches_eq_keyedRows
    (dialect : Dialect)
    (items : List (Item V K N))
    (distinct : DistinctKeys collation items)
    (table : List (Row C V)) :
    (updateRows dialect collation target items table =
      if ∀ item ∈ items, (updateQuery target [item]).binds ≤ dialect.maxBindParams then
        .ok (items.foldl (target.updateOne collation) table)
      else .error tooManyParameters) ∧
    ∀ copied : Copied C V, copied.Excluded collation target →
      if ∀ item ∈ items, (copyQuery target copied [item]).binds ≤ dialect.maxBindParams then
        ∃ result, copyRowsWithUpdates dialect collation target copied items table = .ok result ∧
          result.Perm (items.foldl (copied.copyOne collation target) table)
      else copyRowsWithUpdates dialect collation target copied items table =
        .error tooManyParameters := by
  constructor
  · have cases := executeBatches_cases dialect Update.binds (Update.run collation)
      (maxRowsPerKeyBatch dialect K) (updateQuery target)
      (fun batch other fewer => by
        rw [binds_updateQuery, binds_updateQuery]
        exact Nat.add_le_add (Nat.mul_le_mul_left _ (Nat.mul_le_mul_right _ fewer))
          (Nat.mul_le_mul_right _ fewer))
      Eq (target.updateOne collation) items
      (fun batch inside left right same => by
        subst same
        rw [run_updateQuery]
        refine Eq.trans ?_ (foldl_map_rows batch (target.updateRow collation) left).symm
        refine List.map_congr_left fun row _ => ?_
        exact (target.foldl_updateRow collation batch
          (distinct.sublist inside.sublist) row).symm)
      table table rfl
    by_cases fits : ∀ item ∈ items, (updateQuery target [item]).binds ≤ dialect.maxBindParams
    · rw [if_pos fits] at cases ⊢
      obtain ⟨result, executed, rfl⟩ := cases
      exact executed
    · rw [if_neg fits] at cases ⊢
      exact cases
  · intro copied excluded
    refine executeBatches_cases dialect InsertSelect.binds (InsertSelect.run collation)
      (maxRowsPerKeyBatch dialect K) (copyQuery target copied)
      (binds_copyQuery_le target copied) List.Perm (copied.copyOne collation target) items
      (fun batch inside left right same => ?_) table table (.refl _)
    rw [run_copyQuery, copied.foldl_copyOne collation target excluded]
    refine .append same (.trans ?_ (copied.sources_perm collation target batch
      (distinct.sublist inside.sublist) right))
    exact (same.filter _).map _

end

/-! ## An example -/

def exampleTarget : Keyed (Fin 3) 1 1 where
  keys := fun _ => 0
  columns := fun _ => 1
  identified := by decide
  distinct := fun _ _ _ => Subsingleton.elim _ _
  separate := by decide

def exampleCopied : Copied (Fin 3) Nat where
  allColumns := [0, 1, 2]
  fixed := [(2, none)]
  filter := .eq 2 (some 7)
  complete := by decide

def exampleItems : List (Item Nat 1 1) :=
  [(fun _ => some 1, fun _ => some 5), (fun _ => some 2, fun _ => none)]

def exampleTable : List (Row (Fin 3) Nat) :=
  [fun column => if column = 2 then some 7 else some 1,
    fun column => if column = 2 then none else some 2, fun _ => none]

theorem batches_eq_keyedRows_two :
    updateRows .sqlite .binary exampleTarget exampleItems exampleTable =
      .ok (exampleItems.foldl (exampleTarget.updateOne .binary) exampleTable) ∧
    ∃ result, copyRowsWithUpdates .sqlite .binary exampleTarget exampleCopied exampleItems
        exampleTable = .ok result ∧
      result.Perm (exampleItems.foldl (exampleCopied.copyOne .binary exampleTarget)
        exampleTable) := by
  have both := batches_eq_keyedRows .binary exampleTarget .sqlite exampleItems
    (List.pairwise_pair.mpr fun same => absurd (same 0) (by decide)) exampleTable
  have copied := both.2 exampleCopied fun _ _ => rfl
  rw [if_pos (by simp [binds_updateQuery, Dialect.maxBindParams])] at both
  rw [if_pos (by decide)] at copied
  exact ⟨both.1, copied⟩

end Ducklake.Db
