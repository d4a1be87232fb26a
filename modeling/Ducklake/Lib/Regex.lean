import Mathlib.Data.List.Basic
import Ducklake.Lib.Lists

/-!
# Backtracking regular expressions

A small library for regular expressions under leftmost-first (Perl-like) semantics.
`run` lists the remainders of all matches of a prefix in the order in which a
backtracking matcher tries them, so the head of the list is the match the engine reports.
`Matches` is the language of an expression; `run_sound` and `run_complete` say that `run`
explores exactly that language.
-/

set_option autoImplicit false

namespace Ducklake.Lib

universe u

inductive Regex (σ : Type u) where
  | eps
  | sym (accepts : σ → Bool)
  | seq (first second : Regex σ)
  | alt (preferred fallback : Regex σ)
  | star (body : Regex σ)

namespace Regex

variable {σ : Type u}

def plus (body : Regex σ) : Regex σ :=
  .seq body (.star body)

/-- Greedy iteration of a matcher. An iteration that consumes nothing is not repeated. -/
def runStar (body : List σ → List (List σ)) : Nat → List σ → List (List σ)
  | 0, input => [input]
  | fuel + 1, input =>
      ((body input).filter fun rest => rest.length < input.length).flatMap
          (runStar body fuel) ++ [input]

/-- Remainders after matching a prefix, in backtracking order. -/
def run : Regex σ → List σ → List (List σ)
  | .eps, input => [input]
  | .sym _, [] => []
  | .sym accepts, head :: rest => if accepts head then [rest] else []
  | .seq first second, input => (first.run input).flatMap second.run
  | .alt preferred fallback, input => preferred.run input ++ fallback.run input
  | .star body, input => runStar body.run input.length input

/-- Whether the expression matches the whole input (`^…$`). -/
def isFullMatch (regex : Regex σ) (input : List σ) : Bool :=
  (regex.run input).any List.isEmpty

/-- Successive non-overlapping leftmost-first matches. A match of no symbols is skipped. -/
def findIterFuel (regex : Regex σ) : Nat → List σ → List (List σ)
  | 0, _ => []
  | _ + 1, [] => []
  | fuel + 1, head :: tail =>
      match (regex.run (head :: tail)).head? with
      | none => regex.findIterFuel fuel tail
      | some rest =>
          if rest.length < (head :: tail).length then
            (head :: tail).take ((head :: tail).length - rest.length) ::
              regex.findIterFuel fuel rest
          else regex.findIterFuel fuel tail

def findIter (regex : Regex σ) (input : List σ) : List (List σ) :=
  regex.findIterFuel input.length input

/-! ## Language -/

inductive Matches : Regex σ → List σ → Prop where
  | eps : Matches .eps []
  | sym {accepts : σ → Bool} {symbol : σ} (accepted : accepts symbol = true) :
      Matches (.sym accepts) [symbol]
  | seq {first second : Regex σ} {left right : List σ}
      (leftMatch : Matches first left) (rightMatch : Matches second right) :
      Matches (.seq first second) (left ++ right)
  | altLeft {preferred fallback : Regex σ} {word : List σ}
      (word_match : Matches preferred word) : Matches (.alt preferred fallback) word
  | altRight {preferred fallback : Regex σ} {word : List σ}
      (word_match : Matches fallback word) : Matches (.alt preferred fallback) word
  | starNil {body : Regex σ} : Matches (.star body) []
  | starCons {body : Regex σ} {left right : List σ}
      (leftMatch : Matches body left) (rightMatch : Matches (.star body) right) :
      Matches (.star body) (left ++ right)

theorem matches_sym_iff (accepts : σ → Bool) (word : List σ) :
    Matches (.sym accepts) word ↔ ∃ symbol, accepts symbol = true ∧ word = [symbol] := by
  constructor
  · rintro ⟨⟩
    rename_i symbol accepted
    exact ⟨symbol, accepted, rfl⟩
  · rintro ⟨symbol, accepted, rfl⟩
    exact .sym accepted

theorem matches_seq_iff (first second : Regex σ) (word : List σ) :
    Matches (.seq first second) word ↔
      ∃ left right, Matches first left ∧ Matches second right ∧ word = left ++ right := by
  constructor
  · rintro ⟨⟩
    rename_i left right leftMatch rightMatch
    exact ⟨left, right, leftMatch, rightMatch, rfl⟩
  · rintro ⟨left, right, leftMatch, rightMatch, rfl⟩
    exact .seq leftMatch rightMatch

theorem matches_alt_iff (preferred fallback : Regex σ) (word : List σ) :
    Matches (.alt preferred fallback) word ↔ Matches preferred word ∨ Matches fallback word := by
  constructor
  · rintro (_ | _)
    · exact Or.inl ‹_›
    · exact Or.inr ‹_›
  · rintro (matched | matched)
    · exact .altLeft matched
    · exact .altRight matched

theorem matches_star_iff (body : Regex σ) (word : List σ) :
    Matches (.star body) word ↔ ∃ words : List (List σ),
      (∀ part ∈ words, Matches body part) ∧ word = words.flatten := by
  constructor
  · intro matched
    generalize shape : Regex.star body = whole at matched
    induction matched with
    | starNil => exact ⟨[], by simp, rfl⟩
    | @starCons body' left right leftMatch rightMatch _ rightIh =>
        cases shape
        obtain ⟨words, all, rightEq⟩ := rightIh rfl
        refine ⟨left :: words, ?_, by simp [rightEq]⟩
        intro part member
        rcases List.mem_cons.mp member with same | later
        · exact same ▸ leftMatch
        · exact all part later
    | _ => cases shape
  · rintro ⟨words, all, rfl⟩
    induction words with
    | nil => exact .starNil
    | cons head rest ih =>
        exact .starCons (all head List.mem_cons_self)
          (ih fun part member => all part (List.mem_cons_of_mem _ member))

/-- A first word and any number of further words, each of them behind a separator. -/
theorem matches_separated_iff (first separator rest : Regex σ) (symbol : σ)
    (only : ∀ word, Matches separator word ↔ word = [symbol]) (word : List σ) :
    Matches (.seq first (.star (.seq separator rest))) word ↔
      ∃ head tail, Matches first head ∧ (∀ part ∈ tail, Matches rest part) ∧
        word = [symbol].intercalate (head :: tail) := by
  rw [matches_seq_iff]
  simp only [matches_star_iff, matches_seq_iff, only]
  constructor
  · rintro ⟨head, _, headMatch, ⟨words, all, rfl⟩, rfl⟩
    refine ⟨head, words.map List.tail, headMatch, ?_, ?_⟩
    · intro part member
      obtain ⟨word, inside, rfl⟩ := List.mem_map.mp member
      obtain ⟨_, right, rfl, rightMatch, rfl⟩ := all word inside
      exact rightMatch
    · rw [intercalate_cons_eq_append, List.map_map]
      refine congrArg (fun rest => head ++ List.flatten rest) ?_
      conv_lhs => rw [← List.map_id words]
      refine List.map_congr_left fun word inside => ?_
      obtain ⟨_, right, rfl, _, rfl⟩ := all word inside
      rfl
  · rintro ⟨head, tail, headMatch, all, rfl⟩
    refine ⟨head, _, headMatch, ⟨tail.map fun part => symbol :: part, ?_, rfl⟩,
      intercalate_cons_eq_append symbol head tail⟩
    intro word member
    obtain ⟨part, inside, rfl⟩ := List.mem_map.mp member
    exact ⟨[symbol], part, rfl, all part inside, rfl⟩

theorem Matches.seq_cons {first second : Regex σ} {symbol : σ} {word : List σ}
    (head : Matches first [symbol]) (tail : Matches second word) :
    Matches (.seq first second) (symbol :: word) :=
  .seq head tail

theorem runStar_sound (body : Regex σ)
    (bodySound : ∀ input rest, rest ∈ body.run input →
      ∃ word, Matches body word ∧ input = word ++ rest)
    (fuel : Nat) (input rest : List σ) (member : rest ∈ runStar body.run fuel input) :
    ∃ word, Matches (.star body) word ∧ input = word ++ rest := by
  induction fuel generalizing input with
  | zero =>
      simp only [runStar, List.mem_singleton] at member
      exact ⟨[], .starNil, by simp [member]⟩
  | succ fuel ih =>
      simp only [runStar, List.mem_append, List.mem_flatMap, List.mem_filter,
        List.mem_singleton] at member
      rcases member with ⟨middle, ⟨middleMember, _⟩, restMember⟩ | same
      · obtain ⟨left, leftMatch, inputEq⟩ := bodySound input middle middleMember
        obtain ⟨right, rightMatch, middleEq⟩ := ih middle restMember
        exact ⟨left ++ right, .starCons leftMatch rightMatch, by simp [inputEq, middleEq]⟩
      · exact ⟨[], .starNil, by simp [same]⟩

theorem run_sound (regex : Regex σ) (input rest : List σ) (member : rest ∈ regex.run input) :
    ∃ word, Matches regex word ∧ input = word ++ rest := by
  induction regex generalizing input rest with
  | eps =>
      simp only [run, List.mem_singleton] at member
      exact ⟨[], .eps, by simp [member]⟩
  | sym accepts =>
      cases input with
      | nil => simp [run] at member
      | cons head tail =>
          by_cases accepted : accepts head
          · simp only [run, accepted, if_true, List.mem_singleton] at member
            exact ⟨[head], .sym accepted, by simp [member]⟩
          · simp [run, accepted] at member
  | seq first second firstIh secondIh =>
      simp only [run, List.mem_flatMap] at member
      obtain ⟨middle, middleMember, restMember⟩ := member
      obtain ⟨left, leftMatch, inputEq⟩ := firstIh input middle middleMember
      obtain ⟨right, rightMatch, middleEq⟩ := secondIh middle rest restMember
      exact ⟨left ++ right, .seq leftMatch rightMatch, by simp [inputEq, middleEq]⟩
  | alt preferred fallback preferredIh fallbackIh =>
      simp only [run, List.mem_append] at member
      rcases member with member | member
      · obtain ⟨word, matched, inputEq⟩ := preferredIh input rest member
        exact ⟨word, .altLeft matched, inputEq⟩
      · obtain ⟨word, matched, inputEq⟩ := fallbackIh input rest member
        exact ⟨word, .altRight matched, inputEq⟩
  | star body bodyIh =>
      exact runStar_sound body bodyIh input.length input rest member

/-- With fuel for every symbol of the word, iteration reaches every word of the language. -/
theorem runStar_complete (body : Regex σ)
    (bodyComplete : ∀ word rest, Matches body word → rest ∈ body.run (word ++ rest))
    (word : List σ) (matched : Matches (.star body) word) (fuel : Nat)
    (enough : word.length ≤ fuel) (rest : List σ) :
    rest ∈ runStar body.run fuel (word ++ rest) := by
  generalize shape : Regex.star body = whole at matched
  induction matched generalizing fuel with
  | eps => cases shape
  | sym => cases shape
  | seq => cases shape
  | altLeft => cases shape
  | altRight => cases shape
  | starNil => cases fuel <;> simp [runStar]
  | @starCons body' left right leftMatch rightMatch _ rightIh =>
      cases shape
      cases left with
      | nil => exact rightIh fuel enough rfl
      | cons head tail =>
          cases fuel with
          | zero => simp at enough
          | succ fuel =>
              have enoughRight : right.length ≤ fuel := by
                simp only [List.cons_append, List.length_cons, List.length_append] at enough
                omega
              have stepped : right ++ rest ∈ body.run ((head :: tail) ++ (right ++ rest)) :=
                bodyComplete (head :: tail) (right ++ rest) leftMatch
              simp only [runStar, List.mem_append, List.mem_flatMap, List.mem_filter]
              refine Or.inl ⟨right ++ rest, ⟨?_, ?_⟩, rightIh fuel enoughRight rfl⟩
              · simpa using stepped
              · simp only [List.cons_append, List.length_cons, List.length_append,
                  decide_eq_true_eq]
                omega

theorem run_complete (regex : Regex σ) (word rest : List σ) (matched : Matches regex word) :
    rest ∈ regex.run (word ++ rest) := by
  induction regex generalizing word rest with
  | eps => cases matched; simp [run]
  | sym accepts =>
      cases matched with
      | sym accepted => simp [run, accepted]
  | seq first second firstIh secondIh =>
      cases matched with
      | @seq _ _ left right leftMatch rightMatch =>
          simp only [run, List.mem_flatMap]
          refine ⟨right ++ rest, ?_, secondIh right rest rightMatch⟩
          rw [List.append_assoc]
          exact firstIh left (right ++ rest) leftMatch
  | alt preferred fallback preferredIh fallbackIh =>
      simp only [run, List.mem_append]
      cases matched with
      | altLeft matched => exact Or.inl (preferredIh word rest matched)
      | altRight matched => exact Or.inr (fallbackIh word rest matched)
  | star body bodyIh =>
      simp only [run]
      exact runStar_complete body bodyIh word matched (word ++ rest).length (by simp) rest

theorem isFullMatch_iff (regex : Regex σ) (input : List σ) :
    regex.isFullMatch input = true ↔ Matches regex input := by
  simp only [isFullMatch, List.any_eq_true, List.isEmpty_iff]
  constructor
  · rintro ⟨rest, member, rfl⟩
    obtain ⟨word, matched, inputEq⟩ := run_sound regex input [] member
    simpa [inputEq] using matched
  · intro matched
    exact ⟨[], by simpa using run_complete regex input [] matched, rfl⟩

/-- Every reported match is a word of the language made of symbols of the input. -/
theorem findIterFuel_sound (regex : Regex σ) (fuel : Nat) (input found : List σ)
    (member : found ∈ regex.findIterFuel fuel input) :
    Matches regex found ∧ found ⊆ input := by
  induction fuel generalizing input with
  | zero => simp [findIterFuel] at member
  | succ fuel ih =>
      cases input with
      | nil => simp [findIterFuel] at member
      | cons head tail =>
          simp only [findIterFuel] at member
          cases first : (regex.run (head :: tail)).head? with
          | none =>
              simp only [first] at member
              obtain ⟨matched, subset⟩ := ih tail member
              exact ⟨matched, fun symbol inside => List.mem_cons_of_mem _ (subset inside)⟩
          | some rest =>
              simp only [first] at member
              obtain ⟨word, matched, inputEq⟩ :=
                run_sound regex _ rest (List.mem_of_mem_head? first)
              split at member
              · rcases List.mem_cons.mp member with same | later
                · have foundEq : found = word := by
                    rw [same, inputEq]
                    simp
                  subst foundEq
                  exact ⟨matched, by rw [inputEq]; exact List.subset_append_left _ _⟩
                · obtain ⟨laterMatch, subset⟩ := ih rest later
                  refine ⟨laterMatch, fun symbol inside => ?_⟩
                  rw [inputEq]
                  exact List.mem_append_right _ (subset inside)
              · obtain ⟨laterMatch, subset⟩ := ih tail member
                exact ⟨laterMatch, fun symbol inside => List.mem_cons_of_mem _ (subset inside)⟩

theorem findIterFuel_skip (regex : Regex σ) (fuel : Nat) (head : σ) (tail : List σ)
    (fails : regex.run (head :: tail) = []) :
    regex.findIterFuel (fuel + 1) (head :: tail) = regex.findIterFuel fuel tail := by
  simp [findIterFuel, fails]

/-- A non-empty first match is reported, and the search resumes behind it. -/
theorem findIterFuel_hit (regex : Regex σ) (fuel : Nat) (head : σ) (tail rest : List σ)
    (first : (regex.run (head :: tail ++ rest)).head? = some rest) :
    regex.findIterFuel (fuel + 1) (head :: tail ++ rest) =
      (head :: tail) :: regex.findIterFuel fuel rest := by
  have shorter : rest.length < (head :: (tail ++ rest)).length := by
    simp only [List.length_cons, List.length_append]
    omega
  have taken : (head :: (tail ++ rest)).length - rest.length = tail.length + 1 := by
    simp only [List.length_cons, List.length_append]
    omega
  rw [List.cons_append] at first ⊢
  simp only [findIterFuel, first, if_pos shorter, taken, List.take_succ_cons, List.take_left']

@[simp] theorem findIterFuel_nil (regex : Regex σ) (fuel : Nat) :
    regex.findIterFuel fuel [] = [] := by
  cases fuel <;> rfl

theorem findIter_of_head? (regex : Regex σ) (input : List σ) (filled : input ≠ [])
    (first : (regex.run input).head? = some []) : regex.findIter input = [input] := by
  obtain ⟨head, tail, rfl⟩ := List.exists_cons_of_ne_nil filled
  have hit := regex.findIterFuel_hit tail.length head tail [] (by simpa using first)
  rw [List.append_nil, findIterFuel_nil] at hit
  exact hit

/-- The search finds the words of a separated list, if each of them is a first match wherever the
list goes on or ends, and none starts with the separator. -/
theorem findIterFuel_intercalate (regex : Regex σ) (separator : σ) (words : List (List σ))
    (filled : ∀ word ∈ words, word ≠ [])
    (first : ∀ word ∈ words, ∀ follow : List σ, (∀ symbol ∈ follow.head?, symbol = separator) →
      (regex.run (word ++ follow)).head? = some follow)
    (apart : ∀ rest, regex.run (separator :: rest) = []) (fuel : Nat)
    (enough : ([separator].intercalate words).length ≤ fuel) :
    regex.findIterFuel fuel ([separator].intercalate words) = words := by
  induction words generalizing fuel with
  | nil => simp
  | cons word rest ih =>
      obtain ⟨head, tail, rfl⟩ := List.exists_cons_of_ne_nil (filled word List.mem_cons_self)
      have inRest := ih (fun other member => filled other (List.mem_cons_of_mem _ member))
        (fun other member => first other (List.mem_cons_of_mem _ member))
      cases fuel with
      | zero => cases rest <;> simp [List.intercalate_cons_cons] at enough
      | succ fuel =>
          cases rest with
          | nil =>
              have hit := regex.findIterFuel_hit fuel head tail []
                (first _ List.mem_cons_self [] (by simp))
              rw [List.append_nil] at hit
              rw [List.intercalate_singleton, hit, findIterFuel_nil]
          | cons next rest =>
              rw [List.intercalate_cons_cons] at enough ⊢
              have hit := regex.findIterFuel_hit fuel head tail
                (separator :: [separator].intercalate (next :: rest))
                (first _ List.mem_cons_self _ (by simp))
              simp only [List.append_assoc, List.singleton_append, List.length_append,
                List.length_cons] at enough ⊢
              rw [hit]
              cases fuel with
              | zero => omega
              | succ fuel =>
                  rw [findIterFuel_skip _ _ _ _ (apart _), inRest fuel (by omega)]

end Regex

end Ducklake.Lib
