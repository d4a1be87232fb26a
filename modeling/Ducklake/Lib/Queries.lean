import Mathlib.Algebra.BigOperators.Group.List.Basic
import Mathlib.Algebra.GroupWithZero.Nat
import Mathlib.Data.List.Nodup
import Ducklake.Lib.Except
import Ducklake.Lib.IndexMap
import Ducklake.Lib.Lists

/-!
# Queries with aggregates

Joins and groups of rows with their sums, and the maps in which a program collects such rows.
-/

set_option autoImplicit false

namespace Ducklake.Lib

universe u v w

/-! ## Joins and aggregates -/

section

variable {α : Type u} {β : Type v} {κ : Type w}

/-- `INNER JOIN` -/
def innerJoin (on : α → β → Bool) (left : List α) (right : List β) : List (α × β) :=
  left.flatMap fun row => (right.filter (on row)).map fun other => (row, other)

/-- `SUM`: the values that are not `NULL`, if there is one. -/
def sumOf (values : List (Option Nat)) : Option Nat :=
  if values.filterMap id = [] then none else some (values.filterMap id).sum

theorem sumOf_getD (values : List (Option Nat)) :
    (sumOf values).getD 0 = (values.map fun value => value.getD 0).sum := by
  have sums : (values.filterMap id).sum = (values.map fun value => value.getD 0).sum := by
    induction values with
    | nil => rfl
    | cons value rest ih =>
        cases value with
        | none => simpa using ih
        | some number => simpa using ih
  unfold sumOf
  split
  · rename_i nothing
    rw [← sums, nothing]
    rfl
  · exact sums

theorem sum_comm (left : List α) (right : List β) (f : α → β → Nat) :
    (left.map fun row => (right.map fun other => f row other).sum).sum =
      (right.map fun other => (left.map fun row => f row other).sum).sum := by
  induction left with
  | nil => simp
  | cons row rest ih => simp [ih, List.sum_map_add]

theorem sum_filter (rows : List α) (keep : α → Bool) (f : α → Nat) :
    ((rows.filter keep).map f).sum = (rows.map fun row => if keep row then f row else 0).sum := by
  induction rows with
  | nil => rfl
  | cons row rest ih => cases kept : keep row <;> simp [kept, ih]

theorem sum_flatMap (rows : List α) (f : α → List Nat) :
    (rows.flatMap f).sum = (rows.map fun row => (f row).sum).sum := by
  induction rows with
  | nil => rfl
  | cons row rest ih => simp [ih]

theorem filter_innerJoin
    (on : α → β → Bool)
    (left : List α)
    (right : List β)
    (keep : α → Bool) :
    (innerJoin on left right).filter (fun row => keep row.1) =
      innerJoin on (left.filter keep) right := by
  induction left with
  | nil => rfl
  | cons row rest ih =>
      unfold innerJoin at ih ⊢
      rw [List.flatMap_cons, List.filter_append, ih, List.filter_map]
      change ((right.filter (on row)).filter fun _ => keep row).map _ ++ _ = _
      cases kept : keep row with
      | true => simp [kept]
      | false => simp [kept]

theorem sum_innerJoin
    (on : α → β → Bool)
    (left : List α)
    (right : List β)
    (f : α → β → Nat) :
    ((innerJoin on left right).map fun row => f row.1 row.2).sum =
      (left.map fun row => (right.map fun other => if on row other then f row other else 0).sum).sum := by
  unfold innerJoin
  rw [List.map_flatMap, sum_flatMap]
  congr 1
  refine List.map_congr_left fun row _ => ?_
  rw [List.map_map]
  exact sum_filter right (on row) (f row)

variable [DecidableEq κ]

/-- `GROUP BY`: every key that occurs, with its rows. -/
def groupBy (key : α → κ) (rows : List α) : List (κ × List α) :=
  (rows.map key).eraseDups.map fun k => (k, rows.filter fun row => key row = k)

theorem filter_eq_of_nodup (items : List κ) (unique : items.Nodup) (k : κ) :
    items.filter (fun other => other = k) = if k ∈ items then [k] else [] := by
  induction items with
  | nil => rfl
  | cons item rest ih =>
      obtain ⟨absent, unique⟩ := List.nodup_cons.mp unique
      by_cases own : item = k
      · subst own
        simp [ih unique, absent]
      · simp [ih unique, own, Ne.symm own]

theorem filter_groupBy (key : α → κ) (rows : List α) (k : κ) :
    (groupBy key rows).filter (fun group => group.1 = k) =
      if rows.filter (fun row => key row = k) = [] then []
      else [(k, rows.filter fun row => key row = k)] := by
  have occurs : k ∈ (rows.map key).eraseDups ↔ ¬ rows.filter (fun row => key row = k) = [] := by
    rw [List.mem_eraseDups, List.mem_map, List.filter_eq_nil_iff]
    simp
  unfold groupBy
  rw [List.filter_map]
  change ((rows.map key).eraseDups.filter (fun other => other = k)).map _ = _
  rw [filter_eq_of_nodup _ (nodup_eraseDups _) k]
  by_cases member : k ∈ (rows.map key).eraseDups
  · rw [if_pos member, if_neg (occurs.mp member)]
    rfl
  · rw [if_neg member, if_pos (not_not.mp (member ∘ occurs.mpr))]
    rfl

def collectBy (key : α → κ) (rows : List α) : IndexMap κ (List α) :=
  rows.foldl (fun map row => map.alter (key row) fun known => known.getD [] ++ [row]) .empty

theorem get?_collectBy (key : α → κ) (rows : List α) (k : κ) :
    ((collectBy key rows).get? k).getD [] = rows.filter fun row => key row = k := by
  have run : ∀ (rows : List α) (map : IndexMap κ (List α)),
      ((rows.foldl (fun map row => map.alter (key row) fun known => known.getD [] ++ [row])
        map).get? k).getD [] = (map.get? k).getD [] ++ rows.filter fun row => key row = k := by
    intro rows
    induction rows with
    | nil => simp
    | cons row rest ih =>
        intro map
        rw [List.foldl_cons, ih, IndexMap.alter, IndexMap.get?_insert]
        by_cases own : key row = k
        · simp [own]
        · simp [own, Ne.symm own]
  simpa [collectBy] using run rows .empty

/-! ## Updates in a map -/

def IndexMap.update? (map : IndexMap κ α) (key : κ) (change : α → α) : Option (IndexMap κ α) :=
  (map.get? key).map fun value => map.insert key (change value)

/-- The values after a loop over updates: those of the own key, one after the other. -/
theorem get?_foldlM_update
    (change : β → α → α)
    (updates : List (κ × β))
    (before after : IndexMap κ α)
    (success : updates.foldlM (fun map entry => map.update? entry.1 (change entry.2)) before =
      some after)
    (key : κ) :
    after.get? key = (before.get? key).map fun value =>
      (updates.filter fun entry => entry.1 = key).foldl (fun value entry => change entry.2 value)
        value := by
  induction updates generalizing before with
  | nil =>
      obtain rfl := Option.some.inj success
      simp
  | cons entry rest ih =>
      rw [List.foldlM_cons] at success
      obtain ⟨next, updated, success⟩ := Option.bind_eq_some_iff.mp success
      obtain ⟨value, found, rfl⟩ := Option.map_eq_some_iff.mp updated
      rw [ih _ success, IndexMap.get?_insert]
      by_cases own : entry.1 = key
      · subst own
        simp [found]
      · rw [if_neg (Ne.symm own), List.filter_cons_of_neg (by simpa using own)]

end

/-! ## Batches -/

section

variable {α : Type u} {β : Type v} {ε : Type w}

/-- Parts of a list; all but the last have the size, which is not zero. -/
def chunks (size : Nat) : List α → List (List α)
  | [] => []
  | item :: rest => (item :: rest.take (size - 1)) :: chunks size (rest.drop (size - 1))
termination_by items => items.length
decreasing_by simp only [List.length_drop, List.length_cons]; omega

theorem flatten_chunks (size : Nat) (items : List α) : (chunks size items).flatten = items := by
  fun_induction chunks size items with
  | case1 => rfl
  | case2 item rest ih => simp [ih]

theorem mapM_flatten_eq_ok
    (f : α → Except ε β)
    (batches : List (List α))
    (results : List (List β))
    (success : batches.mapM (fun batch => batch.mapM f) = .ok results) :
    batches.flatten.mapM f = .ok results.flatten := by
  refine mapM_eq_ok.mpr (List.rel_flatten ?_)
  exact (mapM_eq_ok.mp success).imp fun _ _ stepped => mapM_eq_ok.mp stepped

theorem item_of_mem_mapM
    (f : α → Except ε β)
    (items : List α)
    (results : List β)
    (success : items.mapM f = .ok results)
    (result : β)
    (member : result ∈ results) :
    ∃ item ∈ items, f item = .ok result := by
  have related := mapM_eq_ok.mp success
  clear success
  induction related with
  | nil => cases member
  | cons head _ ih =>
      rcases List.mem_cons.mp member with rfl | later
      · exact ⟨_, by simp, head⟩
      · obtain ⟨item, inside, computed⟩ := ih later
        exact ⟨item, List.mem_cons_of_mem _ inside, computed⟩

/-- What is the same for every item and its result is the same for all. -/
theorem map_eq_map_of_mapM
    {γ : Type}
    (f : α → Except ε β)
    (items : List α)
    (results : List β)
    (success : items.mapM f = .ok results)
    (after : β → γ)
    (before : α → γ)
    (same : ∀ item result, f item = .ok result → after result = before item) :
    results.map after = items.map before := by
  have all := (mapM_eq_ok.mp success).imp fun item result stepped => (same item result stepped).symm
  rw [← List.forall₂_eq_eq_eq]
  exact (List.forall₂_map_left_iff.mpr (List.forall₂_map_right_iff.mpr all)).flip.imp
    fun _ _ => Eq.symm

end

end Ducklake.Lib
