import Mathlib.Data.Set.Basic

/-!
# Sweeps

Taking away what nothing refers to while references come and go.  A reference is primary or
secondary, and may turn from the one into the other.  A sweep notes the primary references, then
the secondary ones; of what it finds afterwards, it dooms the places that it has not noted, unless
they were written too recently.
-/

set_option autoImplicit false

namespace Ducklake.Lib

universe u

variable {L : Type u}

/-- The places that are referred to, and when each place was written. -/
structure Heap (L : Type u) where
  primary : Set L
  secondary : Set L
  written : L → Int

namespace Heap

def references (heap : Heap L) : Set L :=
  heap.primary ∪ heap.secondary

theorem notMem_references
    {heap : Heap L}
    {place : L}
    (free : place ∉ heap.primary)
    (alsoFree : place ∉ heap.secondary) :
    place ∉ heap.references := by
  intro referenced
  cases referenced with
  | inl primary => exact free primary
  | inr secondary => exact alsoFree secondary

end Heap

inductive SweepPhase (L : Type u) where
  | started
  | halfway (noted : Set L)
  | dooming (noted doomed : Set L)
  | finished

structure Sweep (L : Type u) where
  limit : Option Int
  phase : SweepPhase L

namespace Sweep

/-- What was written at the limit or later is left alone. -/
def spares (limit : Option Int) (written : Int) : Bool :=
  limit.any (· ≤ written)

theorem spares_mono
    {limit : Option Int}
    {earlier later : Int}
    (younger : earlier ≤ later)
    (spared : spares limit earlier = true) :
    spares limit later = true := by
  cases limit with
  | none => cases spared
  | some bound =>
      simp only [spares, Option.any_some, decide_eq_true_eq] at spared ⊢
      omega

/-- What a sweep has noted covers the references, and what it dooms has none. -/
def Safe (heap : Heap L) (sweep : Sweep L) : Prop :=
  match sweep.phase with
  | .started => True
  | .halfway noted => ∀ place ∈ heap.primary,
      place ∈ noted ∨ spares sweep.limit (heap.written place) = true
  | .dooming noted doomed =>
      (∀ place ∈ heap.references,
        place ∈ noted ∨ spares sweep.limit (heap.written place) = true) ∧
      ∀ place ∈ doomed, place ∉ heap.references ∧
        spares sweep.limit (heap.written place) = false
  | .finished => True

def isRunning (sweep : Sweep L) : Prop :=
  sweep.phase ≠ .finished

def doomed (sweep : Sweep L) : Set L :=
  match sweep.phase with
  | .dooming _ doomed => doomed
  | _ => ∅

/-- A change that a running sweep need not know of: it refers anew only to places that the sweep
spares, and writes only to places that the sweep has not doomed. -/
structure Tolerates (sweep : Sweep L) (before after : Heap L) : Prop where
  primary : ∀ place ∈ after.primary,
    place ∈ before.primary ∨ spares sweep.limit (before.written place) = true
  secondary : after.secondary ⊆ before.references
  younger : ∀ place, before.written place ≤ after.written place
  untouched : ∀ place ∈ sweep.doomed, after.written place = before.written place

theorem Tolerates.of_written
    {sweep : Sweep L}
    {before after : Heap L}
    (same : after.written = before.written)
    (primary : ∀ place ∈ after.primary,
      place ∈ before.primary ∨ spares sweep.limit (before.written place) = true)
    (secondary : after.secondary ⊆ before.references) :
    sweep.Tolerates before after where
  primary := primary
  secondary := secondary
  younger place := by rw [same]
  untouched place _ := by rw [same]

section

variable {sweep : Sweep L} {before after : Heap L}

theorem Tolerates.references
    (tolerated : sweep.Tolerates before after)
    (noted : Set L)
    (covered : ∀ place ∈ before.references,
      place ∈ noted ∨ spares sweep.limit (before.written place) = true) :
    ∀ place ∈ after.references,
      place ∈ noted ∨ spares sweep.limit (after.written place) = true := by
  intro place referenced
  have young : spares sweep.limit (before.written place) = true →
      spares sweep.limit (after.written place) = true := spares_mono (tolerated.younger place)
  cases referenced with
  | inl primary =>
      cases tolerated.primary place primary with
      | inl old => exact (covered place (Or.inl old)).imp_right young
      | inr spared => exact Or.inr (young spared)
  | inr secondary =>
      exact (covered place (tolerated.secondary secondary)).imp_right young

theorem Safe.of_tolerates
    (safe : sweep.Safe before)
    (tolerated : sweep.Tolerates before after) :
    sweep.Safe after := by
  obtain ⟨limit, phase⟩ := sweep
  cases phase with
  | started => trivial
  | finished => trivial
  | halfway noted =>
      intro place primary
      have young : spares limit (before.written place) = true →
          spares limit (after.written place) = true := spares_mono (tolerated.younger place)
      cases tolerated.primary place primary with
      | inl old => exact (safe place old).imp_right young
      | inr spared => exact Or.inr (young spared)
  | dooming noted doomed =>
      obtain ⟨covered, free⟩ := safe
      refine ⟨tolerated.references noted covered, fun place member => ?_⟩
      obtain ⟨unreferenced, old⟩ := free place member
      have same := tolerated.untouched place member
      constructor
      · apply Heap.notMem_references
        · intro primary
          cases tolerated.primary place primary with
          | inl before => exact unreferenced (Or.inl before)
          | inr spared => exact Bool.false_ne_true (old.symm.trans spared)
        · intro secondary
          exact unreferenced (tolerated.secondary secondary)
      · rw [same]
        exact old

end

inductive Advances (heap : Heap L) : Sweep L → Sweep L → Prop where
  | notePrimary (limit : Option Int) (noted : Set L) (all : heap.primary ⊆ noted) :
      Advances heap ⟨limit, .started⟩ ⟨limit, .halfway noted⟩
  | noteSecondary (limit : Option Int) (noted more : Set L) (both : noted ⊆ more)
      (all : heap.secondary ⊆ more) :
      Advances heap ⟨limit, .halfway noted⟩ ⟨limit, .dooming more ∅⟩
  | doom (limit : Option Int) (noted doomed more : Set L)
      (found : ∀ place ∈ more, place ∈ doomed ∨
        place ∉ noted ∧ spares limit (heap.written place) = false) :
      Advances heap ⟨limit, .dooming noted doomed⟩ ⟨limit, .dooming noted more⟩
  | finish (sweep : Sweep L) : Advances heap sweep ⟨sweep.limit, .finished⟩

theorem Safe.advance
    {heap : Heap L}
    {sweep next : Sweep L}
    (safe : sweep.Safe heap)
    (advanced : Advances heap sweep next) :
    next.Safe heap := by
  cases advanced with
  | notePrimary limit noted all => exact fun place primary => Or.inl (all primary)
  | noteSecondary limit noted more both all =>
      refine ⟨fun place referenced => ?_, fun place absent => absurd absent (by simp)⟩
      cases referenced with
      | inl primary => exact (safe place primary).imp_left fun member => both member
      | inr secondary => exact Or.inl (all secondary)
  | doom limit noted doomed more found =>
      obtain ⟨covered, free⟩ := safe
      refine ⟨covered, fun place member => ?_⟩
      cases found place member with
      | inl known => exact free place known
      | inr new =>
          obtain ⟨unnoted, old⟩ := new
          refine ⟨fun referenced => ?_, old⟩
          cases covered place referenced with
          | inl noted => exact unnoted noted
          | inr spared => exact Bool.false_ne_true (old.symm.trans spared)
  | finish => trivial

end Sweep

structure Swept (L : Type u) where
  heap : Heap L
  sweeps : List (Sweep L)

namespace Swept

inductive Step : Swept L → Swept L → Prop where
  | change (state : Swept L) (heap : Heap L)
      (tolerated : ∀ sweep ∈ state.sweeps, sweep.isRunning → sweep.Tolerates state.heap heap) :
      Step state { state with heap := heap }
  | start (state : Swept L) (limit : Option Int) :
      Step state { state with sweeps := state.sweeps ++ [⟨limit, .started⟩] }
  | advance (state : Swept L) (index : Nat) (sweep next : Sweep L)
      (found : state.sweeps[index]? = some sweep)
      (advanced : Sweep.Advances state.heap sweep next) :
      Step state { state with sweeps := state.sweeps.set index next }

def Safe (state : Swept L) : Prop :=
  ∀ sweep ∈ state.sweeps, sweep.Safe state.heap

theorem Safe.step
    {state next : Swept L}
    (safe : state.Safe)
    (stepped : Step state next) :
    next.Safe := by
  cases stepped with
  | change heap tolerated =>
      intro sweep member
      by_cases running : sweep.isRunning
      · exact (safe sweep member).of_tolerates (tolerated sweep member running)
      · have finished : sweep.phase = .finished := not_not.mp running
        unfold Sweep.Safe
        rw [finished]
        trivial
  | start limit =>
      intro sweep member
      cases List.mem_append.mp member with
      | inl old => exact safe sweep old
      | inr new =>
          rw [List.mem_singleton.mp new]
          trivial
  | advance index sweep next found advanced =>
      intro other member
      cases List.mem_or_eq_of_mem_set member with
      | inl old => exact safe other old
      | inr new =>
          rw [new]
          exact (safe sweep (List.mem_of_getElem? found)).advance advanced

theorem Safe.unreferenced
    {state : Swept L}
    (safe : state.Safe)
    (sweep : Sweep L)
    (member : sweep ∈ state.sweeps)
    (place : L)
    (doomed : place ∈ sweep.doomed) :
    place ∉ state.heap.references := by
  have held := safe sweep member
  obtain ⟨limit, phase⟩ := sweep
  cases phase with
  | dooming noted places => exact (held.2 place doomed).1
  | started => cases doomed
  | halfway => cases doomed
  | finished => cases doomed

end Swept

end Ducklake.Lib
