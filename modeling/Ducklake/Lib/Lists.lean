import Mathlib.Data.List.Basic

/-!
# Lists

Facts about splitting, joining and removing repetitions.
-/

set_option autoImplicit false

namespace Ducklake.Lib

universe u

variable {α : Type u}

theorem notMem_of_mem_splitOn [BEq α] [LawfulBEq α] (sep : α) (items part : List α)
    (member : part ∈ items.splitOn sep) : sep ∉ part := by
  induction items generalizing part with
  | nil => simp_all
  | cons head tail ih =>
      rw [List.splitOn_cons_eq_if_modifyHead] at member
      split at member
      · rcases List.mem_cons.mp member with same | later
        · simp [same]
        · exact ih part later
      · rename_i distinct
        cases parts : tail.splitOn sep with
        | nil => exact absurd parts (List.splitOn_ne_nil sep tail)
        | cons first others =>
            rw [parts, List.modifyHead_cons, List.mem_cons] at member
            rcases member with same | later
            · subst same
              rw [List.mem_cons, not_or]
              refine ⟨?_, ih first (by simp [parts])⟩
              rintro rfl
              exact distinct BEq.rfl
            · exact ih part (by simp [parts, later])

theorem splitOn_intercalate_eq_flatMap [BEq α] [LawfulBEq α] (sep : α) (parts : List (List α))
    (filled : parts ≠ []) :
    ([sep].intercalate parts).splitOn sep = parts.flatMap fun part => part.splitOn sep := by
  induction parts with
  | nil => exact absurd rfl filled
  | cons first rest ih =>
      cases rest with
      | nil => simp
      | cons second rest =>
          have tail := ih (by simp)
          rw [List.intercalate_cons_cons, List.append_assoc, List.singleton_append,
            List.splitOn_append_cons_self, tail, ← List.flatMap_cons]

/-- A joined list: its first part, and each further part behind a separator. -/
theorem intercalate_cons_eq_append (sep : α) (first : List α) (rest : List (List α)) :
    [sep].intercalate (first :: rest) = first ++ (rest.map fun part => sep :: part).flatten := by
  induction rest generalizing first with
  | nil => simp
  | cons second rest ih => simp [List.intercalate_cons_cons, ih]

/-- The parts in front of and behind the first separator. -/
def splitOnce [BEq α] (sep : α) (items : List α) : Option (List α × List α) :=
  if items.contains sep then
    some (items.takeWhile fun item => item != sep, (items.dropWhile fun item => item != sep).tail)
  else none

theorem splitOnce_append [BEq α] [LawfulBEq α] (sep : α) (front back : List α)
    (absent : sep ∉ front) : splitOnce sep (front ++ sep :: back) = some (front, back) := by
  have passed : ∀ item ∈ front, (item != sep) = true := by
    intro item member
    rw [bne_iff_ne]
    rintro rfl
    exact absent member
  rw [splitOnce, if_pos (by simp), List.takeWhile_append_of_pos passed,
    List.dropWhile_append_of_pos passed]
  simp

theorem mem_intercalate_of_mem (sep : List α) {item : α} (parts : List (List α))
    (part : List α) (member : part ∈ parts) (inside : item ∈ part) :
    item ∈ sep.intercalate parts := by
  induction parts with
  | nil => cases member
  | cons first rest ih =>
      cases rest with
      | nil => simp_all
      | cons second rest =>
          rw [List.intercalate_cons_cons]
          rcases List.mem_cons.mp member with same | later
          · simp [← same, inside]
          · simp [ih later]

theorem nodup_eraseDups [BEq α] [LawfulBEq α] (items : List α) : items.eraseDups.Nodup := by
  induction size : items.length using Nat.strongRecOn generalizing items with
  | _ n ih =>
      cases items with
      | nil => simp
      | cons head tail =>
          have shorter : (tail.filter fun item => !item == head).length < n := by
            have bound := List.length_filter_le (fun item => !item == head) tail
            simp only [List.length_cons] at size
            omega
          rw [List.eraseDups_cons, List.nodup_cons, List.mem_eraseDups]
          exact ⟨by simp, ih _ shorter _ rfl⟩

theorem eraseDups_of_nodup [BEq α] [LawfulBEq α] (items : List α) (unique : items.Nodup) :
    items.eraseDups = items := by
  induction items with
  | nil => rfl
  | cons head tail ih =>
      obtain ⟨absent, tailUnique⟩ := List.nodup_cons.mp unique
      have kept : tail.filter (fun item => !item == head) = tail := by
        rw [List.filter_eq_self]
        intro item member
        simp only [Bool.not_eq_true', beq_eq_false_iff_ne]
        rintro rfl
        exact absent member
      rw [List.eraseDups_cons, kept, ih tailUnique]

theorem getElem?_append_singleton_iff
    {α : Type}
    (items : List α)
    (last item : α)
    (idx : Nat) :
    (items ++ [last])[idx]? = some item ↔
      items[idx]? = some item ∨ (idx = items.length ∧ item = last) := by
  by_cases inside : idx < items.length
  · rw [List.getElem?_append_left inside]
    simp [Nat.ne_of_lt inside]
  · have outside := Nat.le_of_not_lt inside
    rw [List.getElem?_append_right outside, List.getElem?_singleton,
      List.getElem?_eq_none outside]
    split
    · rename_i start
      have same : idx = items.length := Nat.le_antisymm (Nat.le_of_sub_eq_zero start) outside
      simp [same, eq_comm]
    · rename_i later
      have distinct : idx ≠ items.length := fun same => later (by omega)
      simp [distinct]

/-! ## Items by key -/

section

variable {α β : Type}

theorem filter_flatMap_of_unique
    (items : List α)
    (key : α → Int)
    (parts : α → List β)
    (label : β → Int)
    (labelled : ∀ item ∈ items, ∀ part ∈ parts item, label part = key item)
    (unique : (items.map key).Nodup)
    (item : α)
    (member : item ∈ items) :
    (items.flatMap parts).filter (fun part => label part = key item) = parts item := by
  induction items with
  | nil => cases member
  | cons first rest ih =>
      rw [List.map_cons, List.nodup_cons] at unique
      have labelledRest := fun other (inside : other ∈ rest) =>
        labelled other (List.mem_cons_of_mem _ inside)
      rw [List.flatMap_cons, List.filter_append]
      by_cases same : key first = key item
      · have notLater : item ∉ rest := fun later =>
          unique.1 (same ▸ List.mem_map_of_mem later)
        obtain rfl : item = first := (List.mem_cons.mp member).resolve_right notLater
        have keep : (parts item).filter (fun part => label part = key item) = parts item := by
          refine List.filter_eq_self.mpr fun part inside => ?_
          exact decide_eq_true (labelled item List.mem_cons_self part inside)
        have drop : (rest.flatMap parts).filter (fun part => label part = key item) = [] := by
          refine List.filter_eq_nil_iff.mpr fun part inside => ?_
          obtain ⟨other, later, below⟩ := List.mem_flatMap.mp inside
          rw [labelledRest other later part below, decide_eq_true_eq]
          intro equal
          exact unique.1 (equal ▸ List.mem_map_of_mem later)
        rw [keep, drop, List.append_nil]
      · have later : item ∈ rest := by
          refine (List.mem_cons.mp member).resolve_left ?_
          rintro rfl
          exact same rfl
        have drop : (parts first).filter (fun part => label part = key item) = [] := by
          refine List.filter_eq_nil_iff.mpr fun part inside => ?_
          rw [labelled first List.mem_cons_self part inside, decide_eq_true_eq]
          exact same
        rw [drop, List.nil_append]
        exact ih labelledRest unique.2 later

theorem filterMap_of_unique
    (items : List α)
    (key : α → Int)
    (update : α → β)
    (unique : (items.map key).Nodup)
    (item : α)
    (member : item ∈ items) :
    (items.filterMap fun other => if key other = key item then some (update other) else none) =
      [update item] := by
  induction items with
  | nil => cases member
  | cons first rest ih =>
      rw [List.map_cons, List.nodup_cons] at unique
      rw [List.filterMap_cons]
      by_cases same : key first = key item
      · have notLater : item ∉ rest := fun later => unique.1 (same ▸ List.mem_map_of_mem later)
        obtain rfl : item = first := (List.mem_cons.mp member).resolve_right notLater
        rw [if_pos rfl]
        refine congrArg (update item :: ·) (List.filterMap_eq_nil_iff.mpr fun other later => ?_)
        rw [if_neg]
        intro equal
        exact unique.1 (equal ▸ List.mem_map_of_mem later)
      · have later : item ∈ rest := by
          refine (List.mem_cons.mp member).resolve_left ?_
          rintro rfl
          exact same rfl
        rw [if_neg same]
        exact ih unique.2 later

theorem pairwise_trichotomy
    (items : List α)
    (before : α → α → Prop)
    (ordered : items.Pairwise before)
    (first second : α)
    (firstMember : first ∈ items)
    (secondMember : second ∈ items) :
    first = second ∨ before first second ∨ before second first := by
  induction items with
  | nil => cases firstMember
  | cons head tail ih =>
      obtain ⟨least, rest⟩ := List.pairwise_cons.mp ordered
      rcases List.mem_cons.mp firstMember with rfl | firstLater
      · rcases List.mem_cons.mp secondMember with rfl | secondLater
        · exact Or.inl rfl
        · exact Or.inr (Or.inl (least second secondLater))
      · rcases List.mem_cons.mp secondMember with rfl | secondLater
        · exact Or.inr (Or.inr (least first firstLater))
        · exact ih rest firstLater secondLater

end

end Ducklake.Lib
