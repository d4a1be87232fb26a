import Mathlib.Data.List.Basic

/-!
# Renewals

Keys that a history retires and adds again, and when no key is there twice.
-/

set_option autoImplicit false

namespace Ducklake.Lib

universe w

/-- One step of a history: some keys are retired, then some are added. -/
@[ext]
structure Renewal (κ : Type w) where
  retired : List κ
  added : List κ

namespace Renewal

variable {κ : Type w} [DecidableEq κ]

def nothing : Renewal κ := ⟨[], []⟩

def apply (live : List κ) (renewal : Renewal κ) : List κ :=
  live.filter (fun key => key ∉ renewal.retired) ++ renewal.added

def andThen (earlier later : Renewal κ) : Renewal κ where
  retired := earlier.retired ++ later.retired
  added := earlier.added.filter (fun key => key ∉ later.retired) ++ later.added

@[simp] theorem apply_nothing (live : List κ) : apply live nothing = live := by
  simp [apply, nothing]

@[simp] theorem andThen_nothing (renewal : Renewal κ) : renewal.andThen nothing = renewal := by
  simp [andThen, nothing]

theorem apply_added (live added : List κ) : apply live ⟨[], added⟩ = live ++ added := by
  simp [apply]

theorem apply_andThen
    (live : List κ)
    (earlier later : Renewal κ) :
    apply live (earlier.andThen later) = apply (apply live earlier) later := by
  simp only [apply, andThen, List.filter_append, List.filter_filter, List.append_assoc]
  congr 1
  refine List.filter_congr fun key _ => ?_
  by_cases first : key ∈ earlier.retired <;> by_cases second : key ∈ later.retired <;>
    simp [first, second]

theorem apply_foldl_andThen
    (live : List κ)
    (renewals : List (Renewal κ))
    (first : Renewal κ) :
    apply live (renewals.foldl andThen first) = renewals.foldl apply (apply live first) := by
  induction renewals generalizing first with
  | nil => rfl
  | cons renewal rest ih => rw [List.foldl_cons, List.foldl_cons, ih, apply_andThen]

theorem mem_apply
    (live : List κ)
    (renewal : Renewal κ)
    (key : κ)
    (member : key ∈ apply live renewal) :
    key ∈ renewal.added ∨ key ∈ live ∧ key ∉ renewal.retired := by
  rcases List.mem_append.mp member with old | new
  · obtain ⟨listed, kept⟩ := List.mem_filter.mp old
    exact Or.inr ⟨listed, by simpa using kept⟩
  · exact Or.inl new

theorem nodup_apply
    (live : List κ)
    (renewal : Renewal κ)
    (unique : live.Nodup)
    (own : renewal.added.Nodup)
    (fresh : ∀ key ∈ renewal.added, key ∈ renewal.retired ∨ key ∉ live) :
    (apply live renewal).Nodup := by
  refine List.nodup_append.mpr ⟨unique.filter _, own, ?_⟩
  rintro key member _ added rfl
  obtain ⟨listed, kept⟩ := List.mem_filter.mp member
  rcases fresh key added with retired | absent
  · simp [retired] at kept
  · exact absent listed

/-- Keys that are added are new each time, unless the same renewal retires them. -/
structure Separate (live : List κ) (renewals : List (Renewal κ)) : Prop where
  own : ∀ renewal ∈ renewals, renewal.added.Nodup
  apart : renewals.Pairwise fun earlier later =>
    ∀ key ∈ later.added, key ∈ later.retired ∨ key ∉ earlier.added
  fresh : ∀ renewal ∈ renewals, ∀ key ∈ renewal.added, key ∈ renewal.retired ∨ key ∉ live

theorem Separate.nodup
    {live : List κ}
    {renewals : List (Renewal κ)}
    (separate : Separate live renewals)
    (unique : live.Nodup) :
    (renewals.foldl apply live).Nodup := by
  induction renewals generalizing live with
  | nil => exact unique
  | cons renewal rest ih =>
      obtain ⟨own, apart, fresh⟩ := separate
      obtain ⟨ahead, apartLater⟩ := List.pairwise_cons.mp apart
      obtain ⟨ownFirst, ownRest⟩ := List.forall_mem_cons.mp own
      obtain ⟨freshFirst, freshRest⟩ := List.forall_mem_cons.mp fresh
      refine ih ⟨ownRest, apartLater, ?_⟩ (nodup_apply live renewal unique ownFirst freshFirst)
      intro later listed key added
      rcases ahead later listed key added with retired | notBefore
      · exact Or.inl retired
      · rcases freshRest later listed key added with retired | absent
        · exact Or.inl retired
        · right
          intro member
          rcases mem_apply live renewal key member with new | ⟨old, _⟩
          · exact notBefore new
          · exact absent old

/-- The renewal leaves no key twice, whichever of the keys are still there. -/
def KeepsUnique (keys : List κ) (renewal : Renewal κ) : Prop :=
  ∀ live, live ⊆ keys → live.Nodup → (apply live renewal).Nodup

theorem KeepsUnique.mono
    {keys fewer : List κ}
    {renewal : Renewal κ}
    (keeps : KeepsUnique keys renewal)
    (inside : fewer ⊆ keys) :
    KeepsUnique fewer renewal :=
  fun live among => keeps live fun _ member => inside (among member)

theorem Separate.keepsUnique
    {keys : List κ}
    {renewals : List (Renewal κ)}
    (separate : Separate keys renewals) :
    KeepsUnique keys (renewals.foldl andThen nothing) := by
  intro live inside unique
  rw [apply_foldl_andThen, apply_nothing]
  have fewer : Separate live renewals := { separate with
    fresh := fun renewal listed key added =>
      (separate.fresh renewal listed key added).imp_right fun absent old => absent (inside old) }
  exact fewer.nodup unique

end Renewal

end Ducklake.Lib
