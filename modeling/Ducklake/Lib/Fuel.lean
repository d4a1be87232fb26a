import Ducklake.Lib.Except

/-!
# Computations with fuel

A recursion that is not structural takes fuel.  It settles if more fuel makes no difference from
some amount on, and the fuel is not what it ends for.
-/

set_option autoImplicit false

namespace Ducklake.Lib

universe u

variable {ε α β : Type u}

/-- From some amount of fuel on, the result stays the same. -/
def SettlesTo (compute : Nat → Except ε α) (result : Except ε α) : Prop :=
  ∃ enough, ∀ fuel ≥ enough, compute fuel = result

/-- As `SettlesTo`, with a result other than the end of the fuel. -/
def Settles (outOfFuel : ε) (compute : Nat → Except ε α) : Prop :=
  ∃ result, result ≠ .error outOfFuel ∧ SettlesTo compute result

theorem SettlesTo.const (result : Except ε α) : SettlesTo (fun _ => result) result :=
  ⟨0, fun _ _ => rfl⟩

theorem SettlesTo.congr
    {compute compute' : Nat → Except ε α}
    {result : Except ε α}
    (settles : SettlesTo compute result)
    (same : ∀ fuel, compute' fuel = compute fuel) :
    SettlesTo compute' result := by
  obtain ⟨enough, stays⟩ := settles
  exact ⟨enough, fun fuel above => (same fuel).trans (stays fuel above)⟩

theorem SettlesTo.of_succ
    {compute : Nat → Except ε α}
    {result : Except ε α}
    (settles : SettlesTo (fun fuel => compute (fuel + 1)) result) :
    SettlesTo compute result := by
  obtain ⟨enough, stays⟩ := settles
  refine ⟨enough + 1, fun fuel above => ?_⟩
  obtain ⟨less, rfl⟩ := Nat.exists_eq_add_of_le above
  have step := stays (enough + less) (Nat.le_add_right _ _)
  dsimp only at step
  rwa [Nat.add_right_comm] at step

theorem SettlesTo.bind
    {compute : Nat → Except ε α}
    {value : α}
    {next : Nat → α → Except ε β}
    {result : Except ε β}
    (settles : SettlesTo compute (.ok value))
    (continues : SettlesTo (fun fuel => next fuel value) result) :
    SettlesTo (fun fuel => compute fuel >>= next fuel) result := by
  obtain ⟨enough, stays⟩ := settles
  obtain ⟨enough', stays'⟩ := continues
  refine ⟨max enough enough', fun fuel above => ?_⟩
  dsimp only
  rw [stays fuel (Nat.le_trans (Nat.le_max_left _ _) above)]
  exact stays' fuel (Nat.le_trans (Nat.le_max_right _ _) above)

theorem SettlesTo.bind_error
    {compute : Nat → Except ε α}
    {err : ε}
    {next : Nat → α → Except ε β}
    (settles : SettlesTo compute (.error err)) :
    SettlesTo (fun fuel => compute fuel >>= next fuel) (.error err) := by
  obtain ⟨enough, stays⟩ := settles
  refine ⟨enough, fun fuel above => ?_⟩
  dsimp only
  rw [stays fuel above]
  rfl

theorem SettlesTo.mapM
    {compute : Nat → α → Except ε β}
    (inputs : List α)
    (value : α → β)
    (each : ∀ input ∈ inputs, SettlesTo (fun fuel => compute fuel input) (.ok (value input))) :
    SettlesTo (fun fuel => inputs.mapM (compute fuel)) (.ok (inputs.map value)) := by
  induction inputs with
  | nil => exact .const _
  | cons head tail ih =>
      have rest := ih fun input member => each input (List.mem_cons_of_mem _ member)
      refine SettlesTo.congr ?_ fun fuel => List.mapM_cons
      exact (each head List.mem_cons_self).bind (rest.bind (.const _))

section

variable {outOfFuel : ε}

theorem Settles.of_succ
    {compute : Nat → Except ε α}
    (settles : Settles outOfFuel fun fuel => compute (fuel + 1)) :
    Settles outOfFuel compute := by
  obtain ⟨result, ends, settles⟩ := settles
  exact ⟨result, ends, settles.of_succ⟩

theorem Settles.congr
    {compute compute' : Nat → Except ε α}
    (settles : Settles outOfFuel compute)
    (same : ∀ fuel, compute' fuel = compute fuel) :
    Settles outOfFuel compute' := by
  obtain ⟨result, ends, settles⟩ := settles
  exact ⟨result, ends, settles.congr same⟩

theorem Settles.const
    (result : Except ε α)
    (ends : result ≠ .error outOfFuel) :
    Settles outOfFuel fun _ => result :=
  ⟨result, ends, .const result⟩

theorem Settles.ok (value : α) : Settles outOfFuel fun _ => (.ok value : Except ε α) :=
  .const _ fun impossible => by cases impossible

/-- The second computation only has to settle for values that the first one returns. -/
theorem Settles.bind
    {compute : Nat → Except ε α}
    {next : Nat → α → Except ε β}
    (settles : Settles outOfFuel compute)
    (continues : ∀ value fuel, compute fuel = .ok value →
      Settles outOfFuel fun fuel => next fuel value) :
    Settles outOfFuel fun fuel => compute fuel >>= next fuel := by
  obtain ⟨result, ends, settles⟩ := settles
  cases result with
  | error err => exact ⟨.error err, fun same => ends (congrArg _ (Except.error.inj same)),
      settles.bind_error⟩
  | ok value =>
      obtain ⟨enough, stays⟩ := settles
      obtain ⟨result, ends, after⟩ := continues value enough (stays enough (Nat.le_refl _))
      exact ⟨result, ends, SettlesTo.bind ⟨enough, stays⟩ after⟩

theorem Settles.mapM
    {compute : Nat → α → Except ε β}
    (inputs : List α)
    (each : ∀ input ∈ inputs, Settles outOfFuel fun fuel => compute fuel input) :
    Settles outOfFuel fun fuel => inputs.mapM (compute fuel) := by
  induction inputs with
  | nil => exact .ok _
  | cons head tail ih =>
      have rest := ih fun input member => each input (List.mem_cons_of_mem _ member)
      refine Settles.congr ?_ fun fuel => List.mapM_cons
      exact (each head List.mem_cons_self).bind fun _ _ _ => rest.bind fun _ _ _ => .ok _

end

end Ducklake.Lib
