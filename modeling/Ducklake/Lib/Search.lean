import Ducklake.Lib.Regex

/-!
# Searching with regular expressions

The leftmost match of an expression in a text.
-/

set_option autoImplicit false

namespace Ducklake.Lib.Regex

universe u

variable {σ : Type u} (regex : Regex σ)

def find (input : List σ) : Option (List σ) :=
  (regex.findIter input).head?

/-- What is found is a word of the language, made of symbols of the text. -/
theorem matches_of_find
    (input found : List σ)
    (first : regex.find input = some found) :
    Matches regex found ∧ found ⊆ input :=
  regex.findIterFuel_sound input.length input found (List.mem_of_mem_head? first)

theorem find_eq_none_of_missing
    (input : List σ)
    (needed : σ)
    (needs : ∀ word, Matches regex word → needed ∈ word)
    (missing : needed ∉ input) :
    regex.find input = none := by
  cases first : regex.find input with
  | none => rfl
  | some found =>
      obtain ⟨matched, subset⟩ := regex.matches_of_find input found first
      exact absurd (subset (needs found matched)) missing

theorem find_append
    (front input : List σ)
    (skipped : ∀ symbol tail, symbol :: tail <:+ front →
      regex.run (symbol :: tail ++ input) = []) :
    regex.find (front ++ input) = regex.find input := by
  induction front with
  | nil => rfl
  | cons symbol tail ih =>
      have rest := ih fun other more inside =>
        skipped other more (inside.trans (List.suffix_cons symbol tail))
      have here := skipped symbol tail (List.suffix_refl _)
      rw [← rest]
      unfold find findIter
      rw [List.cons_append, List.length_cons,
        findIterFuel_skip regex _ symbol (tail ++ input) here]

/-- Where an expression without the empty word matches, the search ends. -/
theorem find_of_run
    (input : List σ)
    (consumes : ¬ Matches regex [])
    (here : regex.run input ≠ []) :
    ∃ found rest, regex.find input = some found ∧ (regex.run input).head? = some rest ∧
      Matches regex found ∧ input = found ++ rest := by
  obtain ⟨rest, others, shape⟩ := List.exists_cons_of_ne_nil here
  have first : (regex.run input).head? = some rest := by rw [shape, List.head?_cons]
  obtain ⟨found, matched, whole⟩ := regex.run_sound input rest (by simp [shape])
  refine ⟨found, rest, ?_, first, matched, whole⟩
  cases found with
  | nil => exact absurd matched consumes
  | cons head tail =>
      subst whole
      have hit := regex.findIterFuel_hit (tail ++ rest).length head tail rest first
      unfold find findIter
      rw [List.cons_append, List.length_cons]
      exact congrArg List.head? hit

/-- Greedy: as many repetitions as there are, up to a bound. -/
def upTo (body : Regex σ) : Nat → Regex σ
  | 0 => .eps
  | n + 1 => .alt (.seq body (upTo body n)) .eps

theorem head?_run_upTo
    (accepts : σ → Bool)
    (n : Nat)
    (word : List σ)
    (accepted : ∀ symbol ∈ word, accepts symbol = true)
    (fits : word.length ≤ n) :
    ((upTo (.sym accepts) n).run word).head? = some [] := by
  induction n generalizing word with
  | zero =>
      rw [List.length_eq_zero_iff.mp (Nat.le_zero.mp fits)]
      rfl
  | succ n ih =>
      cases word with
      | nil => rfl
      | cons symbol rest =>
          have inRest := ih rest (fun other member => accepted other (List.mem_cons_of_mem _ member))
            (Nat.le_of_succ_le_succ fits)
          have here := accepted symbol List.mem_cons_self
          simp only [upTo, run, here, if_true, List.flatMap_cons, List.flatMap_nil,
            List.append_nil, List.head?_append, inRest, Option.some_or]

end Ducklake.Lib.Regex
