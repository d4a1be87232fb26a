import Ducklake.Lib.Except

/-!
# Calls that leave a state behind

A method that changes its receiver step by step leaves a state also when it fails.  An outcome has
both, the result and the state; forgetting the state of a failure gives the usual exception, and
guards put a state back when a call fails.
-/

set_option autoImplicit false

namespace Ducklake.Lib

structure Outcome (ε σ : Type) where
  result : Except ε Unit
  state : σ

namespace Outcome

variable {ε σ α : Type}

def value (outcome : Outcome ε σ) : Except ε σ :=
  outcome.result.map fun _ => outcome.state

/-- A call that changes the state in one step. -/
def ofExcept (leftover : σ) : Except ε σ → Outcome ε σ
  | .ok state => ⟨.ok (), state⟩
  | .error err => ⟨.error err, leftover⟩

def andThen (outcome : Outcome ε σ) (next : σ → Outcome ε σ) : Outcome ε σ :=
  match outcome.result with
  | .ok _ => next outcome.state
  | .error _ => outcome

def forEach (call : α → σ → Outcome ε σ) : List α → σ → Outcome ε σ
  | [], state => ⟨.ok (), state⟩
  | item :: rest, state => (call item state).andThen (forEach call rest)

def guarded (restore : σ → σ) (outcome : Outcome ε σ) : Outcome ε σ :=
  match outcome.result with
  | .ok _ => outcome
  | .error err => ⟨.error err, restore outcome.state⟩

/-! ## The value of a call -/

@[simp] theorem value_ofExcept (leftover : σ) (result : Except ε σ) :
    (ofExcept leftover result).value = result := by
  cases result <;> rfl

@[simp] theorem value_andThen (outcome : Outcome ε σ) (next : σ → Outcome ε σ) :
    (outcome.andThen next).value = outcome.value >>= fun state => (next state).value := by
  obtain ⟨result, state⟩ := outcome
  cases result <;> rfl

@[simp] theorem value_guarded (restore : σ → σ) (outcome : Outcome ε σ) :
    (outcome.guarded restore).value = outcome.value := by
  obtain ⟨result, state⟩ := outcome
  cases result <;> rfl

@[simp] theorem value_forEach (call : α → σ → Outcome ε σ) (items : List α) (state : σ) :
    (forEach call items state).value =
      items.foldlM (fun state item => (call item state).value) state := by
  induction items generalizing state with
  | nil => rfl
  | cons item rest ih =>
      simp only [forEach, value_andThen, List.foldlM_cons]
      exact congrArg (Except.bind (call item state).value) (funext ih)

theorem value_eq_error (outcome : Outcome ε σ) (err : ε) :
    outcome.value = .error err ↔ outcome.result = .error err := by
  obtain ⟨result, state⟩ := outcome
  cases result with
  | ok _ => simp [value, Except.map]
  | error other =>
      constructor
      · intro same
        cases same
        rfl
      · intro same
        cases same
        rfl

theorem value_eq_ok (outcome : Outcome ε σ) (state : σ) :
    outcome.value = .ok state ↔ outcome.result = .ok () ∧ outcome.state = state := by
  obtain ⟨result, left⟩ := outcome
  cases result with
  | ok _ =>
      constructor
      · intro same
        cases same
        exact ⟨rfl, rfl⟩
      · rintro ⟨_, rfl⟩
        rfl
  | error other => simp [value, Except.map]

/-! ## The state of a failure -/

theorem state_ofExcept
    (leftover : σ)
    (result : Except ε σ)
    (err : ε)
    (failed : (ofExcept leftover result).result = .error err) :
    (ofExcept leftover result).state = leftover := by
  cases result with
  | ok _ => cases failed
  | error _ => rfl

theorem state_guarded
    (restore : σ → σ)
    (outcome : Outcome ε σ)
    (err : ε)
    (failed : (outcome.guarded restore).result = .error err) :
    (outcome.guarded restore).state = restore outcome.state := by
  obtain ⟨result, state⟩ := outcome
  cases result with
  | ok _ => cases failed
  | error _ => rfl

end Outcome

end Ducklake.Lib
