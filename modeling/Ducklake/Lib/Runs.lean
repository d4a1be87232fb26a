import Mathlib.Data.List.Basic

/-!
# Runs

The states that a labelled step function reaches when every step is of an allowed kind, and the
induction over such runs.
-/

set_option autoImplicit false

namespace Ducklake.Lib

universe u v

variable {σ : Type u} {ℓ : Type v}

inductive Reaches (step : σ → ℓ → Option σ) (allowed : σ → ℓ → Prop) (start : σ) : σ → Prop where
  | refl : Reaches step allowed start start
  | tail {state next : σ} {label : ℓ} (run : Reaches step allowed start state)
      (permitted : allowed state label) (stepped : step state label = some next) :
      Reaches step allowed start next

variable {step : σ → ℓ → Option σ} {allowed stricter : σ → ℓ → Prop} {start final : σ}

/-- What holds at the start and survives every allowed step holds in every reached state. -/
theorem Reaches.invariant
    (holds : σ → Prop)
    (initial : holds start)
    (preserved : ∀ state label next, holds state → allowed state label →
      step state label = some next → holds next)
    (run : Reaches step allowed start final) :
    holds final := by
  induction run with
  | refl => exact initial
  | tail _ permitted stepped ih => exact preserved _ _ _ ih permitted stepped

theorem Reaches.invariant_of_reached
    (holds : σ → Prop)
    (initial : holds start)
    (preserved : ∀ state label next, Reaches step allowed start state → holds state →
      allowed state label → step state label = some next → holds next)
    (run : Reaches step allowed start final) :
    holds final := by
  induction run with
  | refl => exact initial
  | tail run permitted stepped ih => exact preserved _ _ _ run ih permitted stepped

theorem Reaches.mono
    (weaker : ∀ state label, stricter state label → allowed state label)
    (run : Reaches step stricter start final) :
    Reaches step allowed start final := by
  induction run with
  | refl => exact .refl
  | tail _ permitted stepped ih => exact .tail ih (weaker _ _ permitted) stepped

theorem Reaches.of_foldlM
    (labels : List ℓ)
    (permitted : ∀ state, ∀ label ∈ labels, allowed state label)
    (taken : labels.foldlM step start = some final) :
    Reaches step allowed start final := by
  have extend : ∀ (labels : List ℓ) (state : σ), Reaches step allowed start state →
      (∀ state, ∀ label ∈ labels, allowed state label) →
      labels.foldlM step state = some final → Reaches step allowed start final := by
    intro labels
    induction labels with
    | nil =>
        intro state run _ taken
        cases taken
        exact run
    | cons label rest ih =>
        intro state run permitted taken
        rw [List.foldlM_cons] at taken
        obtain ⟨next, stepped, taken⟩ := Option.bind_eq_some_iff.mp taken
        exact ih next (.tail run (permitted state label (by simp)) stepped)
          (fun state label member => permitted state label (List.mem_cons_of_mem _ member)) taken
  exact extend labels start .refl permitted taken

theorem Reaches.of_checked
    (check : σ → ℓ → Bool)
    (checked : ∀ state label, check state label = true → allowed state label)
    (labels : List ℓ)
    (taken : labels.foldlM
      (fun state label => if check state label = true then step state label else none) start =
        some final) :
    Reaches step allowed start final := by
  have run : Reaches (fun state label =>
      if check state label = true then step state label else none) (fun _ _ => True) start final :=
    .of_foldlM labels (fun _ _ _ => trivial) taken
  refine run.invariant (Reaches step allowed start) .refl ?_
  intro state label next reached _ stepped
  split at stepped
  · rename_i passed
    exact reached.tail (checked state label passed) stepped
  · cases stepped

end Ducklake.Lib
