import Ducklake.Utils.Grammar

/-!
# Comma-separated identifiers

`parseIdentifierList` reads a formatted list back if no name in it is empty, and rejects it
otherwise.
-/

set_option autoImplicit false

namespace Ducklake.Utils

open Ducklake.Lib Regex

/-! ## Reading a formatted list -/

theorem formatIdentifierList_eq (names : List Text) :
    formatIdentifierList names = [','].intercalate (names.map formatComponent) := by
  simp [formatIdentifierList, formatIdentifier]

theorem identifier_run_quote (rest : Text) :
    identifier.run ('"' :: rest) = quotedIdentifier.run ('"' :: rest) := by
  simp [identifier, unquotedIdentifier, isIdentifierStart, Regex.run]

theorem identifier_run_comma (rest : Text) : identifier.run (',' :: rest) = [] := by
  simp [identifier, unquotedIdentifier, quotedIdentifier, quoteSign, isIdentifierStart, Regex.run]

theorem findIter_formatIdentifierList (names : List Text) (filled : ∀ s ∈ names, s ≠ []) :
    identifier.findIter (formatIdentifierList names) = names.map formatComponent := by
  rw [Regex.findIter, formatIdentifierList_eq]
  refine identifier.findIterFuel_intercalate ',' _ ?_ ?_ identifier_run_comma _ (Nat.le_refl _)
  · intro word member
    obtain ⟨s, _, rfl⟩ := List.mem_map.mp member
    exact formatComponent_ne_nil s
  · intro word member follow separated
    obtain ⟨s, inside, rfl⟩ := List.mem_map.mp member
    have ends : follow.head? ≠ some '"' := fun quoted =>
      absurd (separated _ quoted) (by decide)
    have first := quotedIdentifier_head_formatComponent s follow (filled s inside) ends
    rw [formatComponent, List.cons_append] at first ⊢
    rwa [identifier_run_quote]

/-! ## The list pattern -/

theorem matches_identifier_iff (word : Text) :
    Matches identifier word ↔
      isBare word = true ∨ ∃ body, body ≠ [] ∧ word = formatComponent body := by
  rw [identifier, matches_alt_iff, matches_unquotedIdentifier_iff, matches_quotedIdentifier_iff]

theorem matches_comma_iff (word : Text) :
    Matches (.sym fun c => c == ',') word ↔ word = [','] := by
  simp [matches_sym_iff]

theorem matches_commaSeparatedIdentifiers_iff (s : Text) :
    Matches commaSeparatedIdentifiers s ↔
      ∃ parts : List Text, parts ≠ [] ∧ (∀ part ∈ parts, Matches identifier part) ∧
        s = [','].intercalate parts := by
  rw [commaSeparatedIdentifiers, matches_separated_iff _ _ _ _ matches_comma_iff]
  constructor
  · rintro ⟨head, tail, first, rest, rfl⟩
    exact ⟨head :: tail, List.cons_ne_nil _ _, List.forall_mem_cons.mpr ⟨first, rest⟩, rfl⟩
  · rintro ⟨parts, some_part, all, rfl⟩
    obtain ⟨head, tail, rfl⟩ := List.exists_cons_of_ne_nil some_part
    obtain ⟨first, rest⟩ := List.forall_mem_cons.mp all
    exact ⟨head, tail, first, rest, rfl⟩

theorem quote_closing_inj (s t follow next : Text) (ends : follow.head? ≠ some '"')
    (nextEnds : next.head? ≠ some '"') (same : quote s ++ '"' :: follow = quote t ++ '"' :: next) :
    s = t ∧ follow = next := by
  have closed : ∀ (c : Char) (rest after before : Text), before.head? ≠ some '"' →
      '"' :: before ≠ quote (c :: rest) ++ '"' :: after := by
    intro c rest after before plain same
    by_cases sign : c = '"'
    · rw [quote_cons, if_pos sign] at same
      exact plain (by rw [(List.cons.inj same).2]; rfl)
    · rw [quote_cons, if_neg sign] at same
      exact sign (List.cons.inj same).1.symm
  induction s generalizing t with
  | nil =>
      cases t with
      | nil => exact ⟨rfl, (List.cons.inj same).2⟩
      | cons d t => exact absurd same (closed d t next follow ends)
  | cons c s ih =>
      cases t with
      | nil => exact absurd same.symm (closed c s follow next nextEnds)
      | cons d t =>
          rw [quote_cons, quote_cons] at same
          obtain rfl : c = d := by
            split at same <;> split at same
            · exact Eq.trans ‹c = '"'› (Eq.symm ‹d = '"'›)
            · exact Eq.trans ‹c = '"'› (List.cons.inj same).1
            · exact Eq.trans (List.cons.inj same).1 (Eq.symm ‹d = '"'›)
            · exact (List.cons.inj same).1
          rw [List.append_assoc, List.append_assoc, List.append_cancel_left_eq] at same
          obtain ⟨rfl, rfl⟩ := ih t same
          exact ⟨rfl, rfl⟩

theorem head?_separated (rest : List Text) :
    (rest.map fun part => ',' :: part).flatten.head? ≠ some '"' := by
  cases rest <;> simp

theorem filled_of_separated (names parts : List Text)
    (read : ∀ part ∈ parts, Matches identifier part)
    (same : (parts.map fun part => ',' :: part).flatten =
      ((names.map formatComponent).map fun part => ',' :: part).flatten) :
    ∀ s ∈ names, s ≠ [] := by
  induction names generalizing parts with
  | nil => simp
  | cons name names ih =>
      cases parts with
      | nil => cases same
      | cons part parts =>
          obtain ⟨readFirst, readRest⟩ := List.forall_mem_cons.mp read
          rw [List.map_cons, List.map_cons, List.map_cons, List.flatten_cons, List.flatten_cons,
            List.cons_append, List.cons_append] at same
          have same := (List.cons.inj same).2
          rcases (matches_identifier_iff part).mp readFirst with bare | ⟨body, filled, rfl⟩
          · cases part with
            | nil => cases bare
            | cons c rest =>
                obtain rfl : c = '"' := (List.cons.inj same).1
                cases bare
          · simp only [formatComponent, List.cons_append, List.append_assoc, List.nil_append,
              List.cons.injEq, true_and] at same
            obtain ⟨rfl, rest⟩ := quote_closing_inj body name _ _ (head?_separated parts)
              (head?_separated _) same
            exact List.forall_mem_cons.mpr ⟨filled, ih parts readRest rest⟩

theorem commaSeparatedIdentifiers_format (names : List Text) (some_name : names ≠ []) :
    Matches commaSeparatedIdentifiers (formatIdentifierList names) ↔ ∀ s ∈ names, s ≠ [] := by
  rw [matches_commaSeparatedIdentifiers_iff, formatIdentifierList_eq]
  constructor
  · rintro ⟨parts, some_part, read, same⟩
    obtain ⟨name, names, rfl⟩ := List.exists_cons_of_ne_nil some_name
    obtain ⟨part, parts, rfl⟩ := List.exists_cons_of_ne_nil some_part
    rw [List.map_cons, intercalate_cons_eq_append, intercalate_cons_eq_append] at same
    exact filled_of_separated (name :: names) (part :: parts) read (congrArg (',' :: ·) same.symm)
  · intro filled
    refine ⟨names.map formatComponent, by simpa using some_name, ?_, rfl⟩
    intro part member
    obtain ⟨s, inside, rfl⟩ := List.mem_map.mp member
    exact (matches_identifier_iff _).mpr (Or.inr ⟨s, filled s inside, rfl⟩)

theorem formatIdentifierList_ne_nil (names : List Text) (some_name : names ≠ []) :
    formatIdentifierList names ≠ [] := by
  obtain ⟨name, names, rfl⟩ := List.exists_cons_of_ne_nil some_name
  rw [formatIdentifierList_eq, List.map_cons, intercalate_cons_eq_append]
  exact List.cons_ne_nil _ _

/-- A formatted list is read back, or rejected if it has an empty name. -/
theorem parseIdentifierList_formatIdentifierList (names : List Text) (some_name : names ≠ []) :
    parseIdentifierList (formatIdentifierList names) =
      if ∀ s ∈ names, s ≠ [] then some names else none := by
  have written : (formatIdentifierList names).isEmpty = false := by
    simp [formatIdentifierList_ne_nil names some_name]
  have matched := (isFullMatch_iff commaSeparatedIdentifiers _).trans
    (commaSeparatedIdentifiers_format names some_name)
  rw [parseIdentifierList, written, if_neg Bool.false_ne_true]
  by_cases filled : ∀ s ∈ names, s ≠ []
  · rw [if_pos (matched.mpr filled), if_pos filled, findIter_formatIdentifierList names filled]
    have single : ∀ s ∈ names,
        (parseIdentifier (formatComponent s)).bind List.head? = some s := by
      intro s member
      have parsed := parseIdentifier_formatIdentifier [s] (by simp) (by simpa using filled s member)
      rw [formatIdentifier_cons, if_pos rfl, List.append_nil] at parsed
      rw [parsed]
      rfl
    clear matched written some_name
    induction names with
    | nil => rfl
    | cons name names ih =>
        obtain ⟨first, rest⟩ := List.forall_mem_cons.mp single
        have tail := ih (List.forall_mem_cons.mp filled).2 rest
        simp only [List.map_cons, List.mapM_cons, first, tail]
        rfl
  · rw [if_neg (fun full => filled (matched.mp full)), if_neg filled]

end Ducklake.Utils
