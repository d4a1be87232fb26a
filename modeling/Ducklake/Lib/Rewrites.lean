import Ducklake.Lib.History

/-!
# Rewritten rows

Which rows an update may end or take away, and which ones it may begin.
-/

set_option autoImplicit false

namespace Ducklake.Lib.Versioned

universe u v

variable {α : Type u}

/-- Every row stays as it is unless its entity allows an end, and whatever does not come from an
old row begins with the snapshot and is allowed to. -/
structure Rewrites (snapshot : Int) (ends begins : α → Prop) (before after : List (Versioned α)) :
    Prop where
  kept : ∀ row ∈ before, row ∈ after ∨ ends row.entity
  origin : ∀ row ∈ after, (∃ old ∈ before, Kept snapshot old row) ∨
    row.beginSnapshot = snapshot ∧ begins row.entity

namespace Rewrites

variable {snapshot : Int} {ends begins : α → Prop}
variable {first second third : List (Versioned α)}

theorem refl (rows : List (Versioned α)) : Rewrites snapshot ends begins rows rows where
  kept _ member := Or.inl member
  origin row member := Or.inl ⟨row, member, .refl row⟩

theorem trans
    (earlier : Rewrites snapshot ends begins first second)
    (later : Rewrites snapshot ends begins second third) :
    Rewrites snapshot ends begins first third where
  kept row member := by
    rcases earlier.kept row member with stays | ended
    · exact later.kept row stays
    · exact Or.inr ended
  origin row member := by
    rcases later.origin row member with ⟨middle, inside, kept⟩ | fresh
    · rcases earlier.origin middle inside with ⟨old, stored, keptOld⟩ | ⟨began, allowed⟩
      · exact Or.inl ⟨old, stored, keptOld.trans kept⟩
      · refine Or.inr ⟨kept.beginSnapshot.trans began, ?_⟩
        rwa [kept.entity]
    · exact Or.inr fresh

theorem retire
    (selects : α → Bool)
    (allowed : ∀ entity, selects entity = true → ends entity)
    (rows : List (Versioned α)) :
    Rewrites snapshot ends begins rows (Versioned.retire snapshot selects rows) where
  kept row member := by
    cases selected : selects row.entity with
    | true => exact Or.inr (allowed _ selected)
    | false =>
        refine Or.inl (List.mem_map.mpr ⟨row, member, ?_⟩)
        exact Versioned.retireRow_of_not snapshot selects row selected
  origin row member := by
    obtain ⟨old, stored, rfl⟩ := List.mem_map.mp member
    exact Or.inl ⟨old, stored, kept_retireRow selects old⟩

theorem append
    (rows added : List (Versioned α))
    (fresh : ∀ row ∈ added, row.beginSnapshot = snapshot ∧ begins row.entity) :
    Rewrites snapshot ends begins rows (rows ++ added) where
  kept _ member := Or.inl (List.mem_append_left _ member)
  origin row member := by
    rcases List.mem_append.mp member with stored | new
    · exact Or.inl ⟨row, stored, .refl row⟩
    · exact Or.inr (fresh row new)

theorem append_new
    (rows : List (Versioned α))
    (entities : List α)
    (allowed : ∀ entity ∈ entities, begins entity) :
    Rewrites snapshot ends begins rows (rows ++ entities.map (.new snapshot)) := by
  refine append rows _ fun row member => ?_
  obtain ⟨entity, listed, rfl⟩ := List.mem_map.mp member
  exact ⟨rfl, allowed entity listed⟩

theorem filter
    (keeps : Versioned α → Bool)
    (allowed : ∀ row, keeps row = false → ends row.entity)
    (rows : List (Versioned α)) :
    Rewrites snapshot ends begins rows (rows.filter keeps) where
  kept row member := by
    cases stays : keeps row with
    | true => exact Or.inl (List.mem_filter.mpr ⟨member, stays⟩)
    | false => exact Or.inr (allowed row stays)
  origin row member := Or.inl ⟨row, List.mem_of_mem_filter member, .refl row⟩

theorem foldl
    {β : Type v}
    (step : List (Versioned α) → β → List (Versioned α))
    (items : List β)
    (each : ∀ item ∈ items, ∀ rows, Rewrites snapshot ends begins rows (step rows item))
    (rows : List (Versioned α)) :
    Rewrites snapshot ends begins rows (items.foldl step rows) := by
  induction items generalizing rows with
  | nil => exact refl rows
  | cons head tail ih =>
      have rest := ih (fun item member => each item (List.mem_cons_of_mem _ member)) (step rows head)
      exact (each head List.mem_cons_self rows).trans rest

end Rewrites

end Ducklake.Lib.Versioned
