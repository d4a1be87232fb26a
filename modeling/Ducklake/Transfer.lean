import Ducklake.Spec.Entities
import Ducklake.Typedefs.Schema
import Ducklake.Typedefs.Flatten
import Mathlib.Data.List.Sort

/-!
# Transfers of tables

What `transfer.rs` reads of a table that is copied or moved to another catalog.
-/

set_option autoImplicit false

namespace Ducklake.Transfer

open Lib Spec

def activeColumnIds (schema : Schema) : List Int :=
  (schema.columns.values.flatMap Column.flatten).filterMap fun flat => flat.column.fieldId

/-- `unique_by`: the first item of every key. -/
def uniqueBy {α κ : Type} [DecidableEq κ] (key : α → κ) (items : List α) : List α :=
  items.foldl (fun kept item =>
    if kept.any fun other => key other = key item then kept else kept ++ [item]) []

/-- The columns of a table that its schema does not show any more, the newest row of each. -/
def retiredColumns (db : Database) (tableId : Int) (schema : Schema) : List DucklakeColumn :=
  let columns := ((db.columns.filter fun row => row.entity.tableId = tableId).insertionSort
    fun row other => other.beginSnapshot ≤ row.beginSnapshot).map Versioned.entity
  uniqueBy DucklakeColumn.columnId
    (columns.filter fun column => column.columnId ∉ activeColumnIds schema)

theorem exists_mem_uniqueBy
    {α κ : Type}
    [DecidableEq κ]
    (key : α → κ)
    (items : List α)
    (item : α)
    (member : item ∈ items) :
    ∃ kept ∈ uniqueBy key items, key kept = key item := by
  have run : ∀ (rest kept : List α), (∃ other ∈ kept ++ rest, key other = key item) →
      ∃ other ∈ rest.foldl (fun kept item =>
        if kept.any fun other => key other = key item then kept else kept ++ [item]) kept,
        key other = key item := by
    intro rest
    induction rest with
    | nil =>
        intro kept found
        simpa using found
    | cons head tail ih =>
        rintro kept ⟨other, listed, same⟩
        rw [List.foldl_cons]
        refine ih _ ?_
        split
        · rename_i present
          rcases List.mem_append.mp listed with old | new
          · exact ⟨other, List.mem_append_left _ old, same⟩
          · rcases List.mem_cons.mp new with rfl | later
            · obtain ⟨first, inside, equal⟩ := List.any_eq_true.mp present
              have equalKeys : key first = key other := by simpa using equal
              exact ⟨first, List.mem_append_left _ inside, equalKeys.trans same⟩
            · exact ⟨other, List.mem_append_right _ later, same⟩
        · refine ⟨other, ?_, same⟩
          rw [List.append_assoc]
          exact listed
  exact run items [] ⟨item, by simpa using member, rfl⟩

/-- Every column that was ever stored for a table is shown by the schema or retired. -/
theorem activeColumnIds_or_retiredColumns
    (db : Database)
    (tableId : Int)
    (schema : Schema)
    (row : Versioned DucklakeColumn)
    (member : row ∈ db.columns)
    (owner : row.entity.tableId = tableId) :
    row.entity.columnId ∈ activeColumnIds schema ∨
      row.entity.columnId ∈ (retiredColumns db tableId schema).map DucklakeColumn.columnId := by
  by_cases active : row.entity.columnId ∈ activeColumnIds schema
  · exact Or.inl active
  · right
    obtain ⟨kept, listed, same⟩ := exists_mem_uniqueBy DucklakeColumn.columnId
      ((((db.columns.filter fun row => row.entity.tableId = tableId).insertionSort
        fun row other => other.beginSnapshot ≤ row.beginSnapshot).map Versioned.entity).filter
          fun column => column.columnId ∉ activeColumnIds schema) row.entity (by
        refine List.mem_filter.mpr ⟨List.mem_map_of_mem ?_, by simpa using active⟩
        rw [List.mem_insertionSort]
        exact List.mem_filter.mpr ⟨member, by simpa using owner⟩)
    exact List.mem_map.mpr ⟨kept, listed, same⟩

end Ducklake.Transfer
