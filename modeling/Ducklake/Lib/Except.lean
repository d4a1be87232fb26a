import Mathlib.Data.List.Forall2

/-!
# Fallible computations

Rules for `Except` programs: what a successful bind, map or traversal did.
-/

set_option autoImplicit false

namespace Ducklake.Lib

universe u v w

variable {ε : Type u} {α β : Type v}

theorem bind_eq_ok
    {computation : Except ε α}
    {next : α → Except ε β}
    {result : β} :
    (computation >>= next) = .ok result ↔
      ∃ value, computation = .ok value ∧ next value = .ok result := by
  cases computation with
  | error _ => simp [bind, Except.bind]
  | ok value => simp [bind, Except.bind]

theorem map_eq_ok
    {computation : Except ε α}
    {f : α → β}
    {result : β} :
    computation.map f = .ok result ↔ ∃ value, computation = .ok value ∧ f value = result := by
  cases computation with
  | error _ => simp [Except.map]
  | ok value => simp [Except.map]

theorem toOption_eq_some
    {computation : Except ε α}
    {value : α} :
    computation.toOption = some value ↔ computation = .ok value := by
  cases computation with
  | error _ => simp [Except.toOption]
  | ok found => simp [Except.toOption]

theorem mapM_eq_ok
    {γ : Type w}
    {f : γ → Except ε α}
    {inputs : List γ}
    {results : List α} :
    inputs.mapM f = .ok results ↔
      List.Forall₂ (fun input result => f input = .ok result) inputs results := by
  induction inputs generalizing results with
  | nil =>
      simp only [List.mapM_nil, pure, Except.pure, Except.ok.injEq, List.forall₂_nil_left_iff]
      exact eq_comm
  | cons head tail ih =>
      rw [List.mapM_cons, bind_eq_ok, List.forall₂_cons_left_iff]
      constructor
      · rintro ⟨first, headOk, rest⟩
        obtain ⟨others, tailOk, shape⟩ := bind_eq_ok.mp rest
        cases shape
        exact ⟨first, others, headOk, ih.mp tailOk, rfl⟩
      · rintro ⟨first, others, headOk, tailOk, rfl⟩
        exact ⟨first, headOk, bind_eq_ok.mpr ⟨others, ih.mpr tailOk, rfl⟩⟩

theorem mem_of_mapM_eq_ok
    {γ : Type w}
    {f : γ → Except ε α}
    {inputs : List γ}
    {results : List α}
    (success : inputs.mapM f = .ok results)
    (input : γ)
    (member : input ∈ inputs) :
    ∃ result ∈ results, f input = .ok result := by
  have related := mapM_eq_ok.mp success
  clear success
  induction related with
  | nil => cases member
  | cons head _ ih =>
      rcases List.mem_cons.mp member with rfl | later
      · exact ⟨_, by simp, head⟩
      · obtain ⟨result, inside, computed⟩ := ih later
        exact ⟨result, List.mem_cons_of_mem _ inside, computed⟩

theorem mapM_isOk
    {γ : Type w}
    {f : γ → Except ε α}
    {inputs : List γ}
    (each : ∀ input ∈ inputs, ∃ result, f input = .ok result) :
    ∃ results, inputs.mapM f = .ok results := by
  induction inputs with
  | nil => exact ⟨[], rfl⟩
  | cons head tail ih =>
      obtain ⟨⟨first, headOk⟩, eachTail⟩ := List.forall_mem_cons.mp each
      obtain ⟨others, tailOk⟩ := ih eachTail
      exact ⟨first :: others, mapM_eq_ok.mpr (.cons headOk (mapM_eq_ok.mp tailOk))⟩

theorem exists_of_mapM_eq_ok
    {γ : Type w}
    {f : γ → Except ε α}
    {inputs : List γ}
    {results : List α}
    (success : inputs.mapM f = .ok results)
    (result : α)
    (member : result ∈ results) :
    ∃ input ∈ inputs, f input = .ok result := by
  have related := mapM_eq_ok.mp success
  clear success
  induction related with
  | nil => cases member
  | cons head _ ih =>
      rcases List.mem_cons.mp member with rfl | later
      · exact ⟨_, by simp, head⟩
      · obtain ⟨input, inside, computed⟩ := ih later
        exact ⟨input, List.mem_cons_of_mem _ inside, computed⟩

theorem forM_eq_ok
    {γ : Type w}
    {f : γ → Except ε PUnit.{v + 1}}
    {inputs : List γ} :
    inputs.forM f = .ok .unit ↔ ∀ input ∈ inputs, f input = .ok .unit := by
  induction inputs with
  | nil => simp [pure, Except.pure]
  | cons head tail ih =>
      rw [List.forM_eq_forM, List.forM_cons, ← List.forM_eq_forM, bind_eq_ok, List.forall_mem_cons, ← ih]
      constructor
      · rintro ⟨_, headOk, tailOk⟩
        exact ⟨headOk, tailOk⟩
      · rintro ⟨headOk, tailOk⟩
        exact ⟨_, headOk, tailOk⟩

theorem foldlM_invariant
    {γ : Type w}
    {f : α → γ → Except ε α}
    {inputs : List γ}
    {start result : α}
    (invariant : α → Prop)
    (initial : invariant start)
    (step : ∀ state input next, input ∈ inputs → invariant state → f state input = .ok next →
      invariant next)
    (success : inputs.foldlM f start = .ok result) :
    invariant result := by
  induction inputs generalizing start with
  | nil =>
      simp only [List.foldlM_nil, pure, Except.pure, Except.ok.injEq] at success
      exact success ▸ initial
  | cons head tail ih =>
      rw [List.foldlM_cons] at success
      obtain ⟨next, headOk, tailOk⟩ := bind_eq_ok.mp success
      exact ih (step start head next (by simp) initial headOk)
        (fun state input next member => step state input next (List.mem_cons_of_mem _ member))
        tailOk

theorem foldlM_raises
    {γ : Type w}
    {f : α → γ → Except ε α}
    {inputs : List γ}
    {start result : α}
    (measure : α → Int)
    (step : ∀ state input next, f state input = .ok next → measure state ≤ measure next)
    (input : γ)
    (member : input ∈ inputs)
    (raises : ∀ state next, f state input = .ok next → measure state < measure next)
    (success : inputs.foldlM f start = .ok result) :
    measure start < measure result := by
  induction inputs generalizing start with
  | nil => cases member
  | cons head tail ih =>
      rw [List.foldlM_cons] at success
      obtain ⟨next, headOk, tailOk⟩ := bind_eq_ok.mp success
      rcases List.mem_cons.mp member with rfl | later
      · have first := raises start next headOk
        have rest := foldlM_invariant (fun state => measure next ≤ measure state) (Int.le_refl _)
          (fun state input next _ before stepped => Int.le_trans before (step state input next stepped))
          tailOk
        exact Int.lt_of_lt_of_le first rest
      · exact Int.lt_of_le_of_lt (step start head next headOk) (ih later tailOk)

/-- A fold succeeds when every step does, from the states that the inputs left over describe. -/
theorem foldlM_drains
    {γ : Type w}
    {f : α → γ → Except ε α}
    (holds : α → List γ → Prop)
    (step : ∀ state input rest, holds state (input :: rest) →
      ∃ next, f state input = .ok next ∧ holds next rest)
    (inputs : List γ)
    (start : α)
    (initial : holds start inputs) :
    ∃ result, inputs.foldlM f start = .ok result ∧ holds result [] := by
  induction inputs generalizing start with
  | nil => exact ⟨start, rfl, initial⟩
  | cons head tail ih =>
      obtain ⟨next, stepped, held⟩ := step start head tail initial
      obtain ⟨result, folded, done⟩ := ih next held
      refine ⟨result, ?_, done⟩
      rw [List.foldlM_cons]
      exact bind_eq_ok.mpr ⟨next, stepped, folded⟩

/-- The invariant of a fold may speak about the inputs that were taken. -/
theorem foldlM_prefix
    {γ : Type w}
    {f : α → γ → Except ε α}
    {inputs : List γ}
    {start result : α}
    (invariant : List γ → α → Prop)
    (initial : invariant [] start)
    (step : ∀ done input rest state next, inputs = done ++ input :: rest → invariant done state →
      f state input = .ok next → invariant (done ++ [input]) next)
    (success : inputs.foldlM f start = .ok result) :
    invariant inputs result := by
  have run : ∀ (rest done : List γ) (state : α), inputs = done ++ rest → invariant done state →
      rest.foldlM f state = .ok result → invariant inputs result := by
    intro rest
    induction rest with
    | nil =>
        intro done state split held folded
        simp only [List.foldlM_nil, pure, Except.pure, Except.ok.injEq] at folded
        rw [split, List.append_nil, ← folded]
        exact held
    | cons head tail ih =>
        intro done state split held folded
        rw [List.foldlM_cons] at folded
        obtain ⟨next, stepped, folded⟩ := bind_eq_ok.mp folded
        exact ih (done ++ [head]) next (by rw [split, List.append_assoc]; rfl)
          (step done head tail state next split held stepped) folded
  exact run inputs [] start rfl initial success

/-! ## Steps of folds -/

section

variable {β : Type} {σ : Type}

theorem foldlM_singleton
    (f : σ → β → Except ε σ)
    (item : β)
    (state : σ) :
    [item].foldlM f state = f state item := by
  rw [List.foldlM_cons]
  exact bind_pure _

theorem foldlM_flatMap
    {γ : Type}
    (f : σ → β → Except ε σ)
    (expand : γ → List β)
    (items : List γ)
    (state : σ) :
    (items.flatMap expand).foldlM f state =
      items.foldlM (fun state item => (expand item).foldlM f state) state := by
  induction items generalizing state with
  | nil => rfl
  | cons head tail ih =>
      rw [List.flatMap_cons, List.foldlM_append, List.foldlM_cons]
      exact bind_congr fun next => ih next

theorem foldlM_congr
    (f g : σ → β → Except ε σ)
    (items : List β)
    (state : σ)
    (same : ∀ state, ∀ item ∈ items, f state item = g state item) :
    items.foldlM f state = items.foldlM g state := by
  induction items generalizing state with
  | nil => rfl
  | cons head tail ih =>
      rw [List.foldlM_cons, List.foldlM_cons, same state head List.mem_cons_self]
      exact bind_congr fun next => ih next fun state item member =>
        same state item (List.mem_cons_of_mem _ member)

end

/-! ## Computations whose success is known beforehand -/

/-- The computation succeeds if the condition holds, and fails with a known kind of error
otherwise. -/
def SucceedsIf (condition : Bool) (failure : ε → Prop) : Except ε α → Prop
  | .ok _ => condition = true
  | .error err => condition = false ∧ failure err

section

variable {failure : ε → Prop} {condition : Bool}

theorem SucceedsIf.ok (value : α) : SucceedsIf true failure (.ok value : Except ε α) :=
  rfl

theorem SucceedsIf.error
    (err : ε)
    (fails : failure err) :
    SucceedsIf false failure (.error err : Except ε α) :=
  ⟨rfl, fails⟩

theorem SucceedsIf.bind
    {conditionNext : Bool}
    {computation : Except ε α}
    {next : α → Except ε β}
    (first : SucceedsIf condition failure computation)
    (second : ∀ value, computation = .ok value → SucceedsIf conditionNext failure (next value)) :
    SucceedsIf (condition && conditionNext) failure (computation >>= next) := by
  cases computation with
  | ok value =>
      obtain rfl : condition = true := first
      rw [Bool.true_and]
      exact second value rfl
  | error err =>
      obtain ⟨rfl, fails⟩ := first
      exact ⟨rfl, fails⟩

theorem SucceedsIf.bind_ok
    {computation : Except ε α}
    {next : α → β}
    (first : SucceedsIf condition failure computation) :
    SucceedsIf condition failure (computation >>= fun value => .ok (next value)) := by
  rw [← Bool.and_true condition]
  exact first.bind fun value _ => .ok (next value)

theorem SucceedsIf.mapM
    {γ : Type w}
    {f : γ → Except ε α}
    (inputs : List γ)
    (conditions : γ → Bool)
    (each : ∀ input ∈ inputs, SucceedsIf (conditions input) failure (f input)) :
    SucceedsIf (inputs.all conditions) failure (inputs.mapM f) := by
  induction inputs with
  | nil => exact .ok []
  | cons head tail ih =>
      obtain ⟨first, others⟩ := List.forall_mem_cons.mp each
      rw [List.mapM_cons, List.all_cons]
      exact first.bind fun result _ => (ih others).bind_ok

theorem SucceedsIf.foldlM
    {γ : Type w}
    {f : α → γ → Except ε α}
    (inputs : List γ)
    (start : α)
    (conditions : γ → Bool)
    (invariant : α → Prop)
    (initial : invariant start)
    (step : ∀ state input, input ∈ inputs → invariant state →
      SucceedsIf (conditions input) failure (f state input) ∧
        ∀ next, f state input = .ok next → invariant next) :
    SucceedsIf (inputs.all conditions) failure (inputs.foldlM f start) := by
  induction inputs generalizing start with
  | nil => exact .ok start
  | cons head tail ih =>
      obtain ⟨decided, kept⟩ := step start head (by simp) initial
      rw [List.foldlM_cons, List.all_cons]
      exact decided.bind fun next success => ih next (kept next success)
        fun state input member => step state input (List.mem_cons_of_mem _ member)

end

end Ducklake.Lib
