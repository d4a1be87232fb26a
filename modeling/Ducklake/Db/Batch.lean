import Mathlib.Data.List.Infix
import Ducklake.Error
import Ducklake.Lib.Lists
import Ducklake.Lib.Sql
import Ducklake.Typedefs.Schema

/-!
# Batches of rows

The statements of `db/batch.rs`: rows that are matched by their keys, in batches that stay within
the parameter limits of a dialect.
-/

set_option autoImplicit false

namespace Ducklake

/-! ## Limits of a dialect -/

def Dialect.maxBindParams : Dialect → Nat
  | .postgres | .mySql => 65535
  | .sqlite => 32766

namespace Db

open Lib Lib.Sql

abbrev Count := { count : Nat // 0 < count }

/-- Compound keys generate `OR` chains, which have an expression limit in SQLite. -/
def maxRowsPerKeyBatch (dialect : Dialect) (keyColumns : Nat) : Count :=
  if 1 < keyColumns ∧ dialect = .sqlite then ⟨256, by decide⟩
  else ⟨dialect.maxBindParams, by cases dialect <;> decide⟩

/-! ## Conditions and expressions -/

section

variable {C V : Type} {K N : Nat}

/-- The columns that identify a row, and the columns that get new values.  No caller changes a
column that identifies. -/
structure Keyed (C : Type) (K N : Nat) where
  keys : Fin K → C
  columns : Fin N → C
  identified : 0 < K
  distinct : Function.Injective columns
  separate : ∀ key column, keys key ≠ columns column

def matchingRow (keys : Fin K → C) (row : Fin K → Option V) : Condition C V :=
  (List.finRange K).foldl (fun condition index => condition.and (.eq (keys index) (row index)))
    .always

def matchingRows (keys : Fin K → C) (rows : List (Fin K → Option V)) : Condition C V :=
  if one : K = 1 then
    let only : Fin K := ⟨0, one ▸ Nat.one_pos⟩
    .isIn (keys only) (rows.map fun row => row only)
  else rows.foldl (fun condition row => condition.or (matchingRow keys row)) .never

abbrev Item (V : Type) (K N : Nat) := (Fin K → Option V) × (Fin N → Option V)

def replacementValue (target : Keyed C K N) (rows : List (Item V K N)) (index : Fin N) :
    Expr C V :=
  .case (rows.map fun row => (matchingRow target.keys row.1, row.2 index)) (target.columns index)

/-! ## Batches -/

/-- Half the rows as long as the statement has too many parameters. -/
def batchSize (fits : Nat → Bool) (count : Count) : Option Count :=
  if fits count then some count
  else if single : count.1 = 1 then none
  else batchSize fits ⟨count.1 / 2, by have := count.2; omega⟩
termination_by count.1
decreasing_by have := count.2; omega

def tooManyParameters : DucklakeError :=
  .database "a single batch item exceeds the database bind parameter limit".toList

/-- `batch_queries` for a limit on the parameters of a statement. -/
def queriesWithin {T Q : Type} (limit : Nat) (binds : Q → Nat) (maxItems : Count)
    (query : List T → Q) (items : List T) : List (DucklakeResult Q) :=
  if nonempty : items = [] then []
  else
    let fits count := decide (binds (query (items.take count)) ≤ limit)
    match batchSize fits ⟨min items.length maxItems,
        Nat.lt_min.mpr ⟨List.length_pos_iff.mpr nonempty, maxItems.2⟩⟩ with
    | some count =>
        .ok (query (items.take count)) ::
          queriesWithin limit binds maxItems query (items.drop count)
    | none => [.error tooManyParameters]
termination_by items.length
decreasing_by
  have := List.length_pos_iff.mpr nonempty
  have := count.2
  rw [List.length_drop]
  omega

def batchQueries {T Q : Type} (dialect : Dialect) (binds : Q → Nat) (maxItems : Count)
    (query : List T → Q) (items : List T) : List (DucklakeResult Q) :=
  queriesWithin dialect.maxBindParams binds maxItems query items

/-- `execute_batches`: the first error ends the transaction. -/
def executeBatches {T Q S : Type} (dialect : Dialect) (binds : Q → Nat) (run : Q → S → S)
    (maxItems : Count) (query : List T → Q) (items : List T) (table : S) : DucklakeResult S :=
  (batchQueries dialect binds maxItems query items).foldlM
    (fun table query => query.map fun query => run query table) table

/-! ## Updates and copies -/

variable [DecidableEq C]

/-- The `UPDATE` of a batch in `update_matching_rows`. -/
def matchingQuery (keys : Fin K → C) (values : List (C × Option V)) (filter : Condition C V)
    (rows : List (Fin K → Option V)) : Update C V where
  assignments := values.map fun value => (value.1, .val value.2)
  filter := filter.and (matchingRows keys rows)

def updateMatchingRows (dialect : Dialect) (collation : Collation V) (keys : Fin K → C)
    (rows : List (Fin K → Option V)) (values : List (C × Option V)) (filter : Condition C V)
    (table : List (Row C V)) : DucklakeResult (List (Row C V)) :=
  executeBatches dialect Update.binds (Update.run collation) (maxRowsPerKeyBatch dialect K)
    (matchingQuery keys values filter) rows table

/-- The `UPDATE` of a batch in `update_rows`.  No expression reads a column that another assignment
writes, so it makes no difference whether a database runs them one after another. -/
def updateQuery (target : Keyed C K N) (rows : List (Item V K N)) : Update C V where
  assignments := (List.finRange N).map fun index =>
    (target.columns index, replacementValue target rows index)
  filter := matchingRows target.keys (rows.map Prod.fst)

def updateRows (dialect : Dialect) (collation : Collation V) (target : Keyed C K N)
    (rows : List (Item V K N)) (table : List (Row C V)) : DucklakeResult (List (Row C V)) :=
  executeBatches dialect Update.binds (Update.run collation) (maxRowsPerKeyBatch dialect K)
    (updateQuery target) rows table

/-- The columns of a table, the values that every copy gets, and the rows that are copied. -/
structure Copied (C V : Type) where
  allColumns : List C
  fixed : List (C × Option V)
  filter : Condition C V
  complete : ∀ column, column ∈ allColumns

def copiedValue (target : Keyed C K N) (copied : Copied C V) (rows : List (Item V K N))
    (column : C) : Expr C V :=
  match copied.fixed.find? fun entry => entry.1 = column with
  | some (_, value) => .val value
  | none =>
      match (List.finRange N).find? fun index => target.columns index = column with
      | some index => replacementValue target rows index
      | none => .col column

def copyQuery (target : Keyed C K N) (copied : Copied C V) (rows : List (Item V K N)) :
    InsertSelect C V where
  columns := copied.allColumns.map fun column => (column, copiedValue target copied rows column)
  filter := copied.filter.and (matchingRows target.keys (rows.map Prod.fst))

def copyRowsWithUpdates (dialect : Dialect) (collation : Collation V) (target : Keyed C K N)
    (copied : Copied C V) (rows : List (Item V K N)) (table : List (Row C V)) :
    DucklakeResult (List (Row C V)) :=
  executeBatches dialect InsertSelect.binds (InsertSelect.run collation)
    (maxRowsPerKeyBatch dialect K) (copyQuery target copied) rows table

end

end Db

end Ducklake
