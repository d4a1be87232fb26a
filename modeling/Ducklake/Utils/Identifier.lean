import Mathlib.Data.List.Basic
import Ducklake.Lib.Lists
import Ducklake.Lib.Regex

/-!
# Quoted identifiers

`parseIdentifier` and `formatIdentifier` of `utils/identifier.rs`, over texts as lists of
characters.  The patterns are the source's regular expressions: an interpolated pattern that
ends in a quote and is followed by `+` repeats that last quote only.
-/

set_option autoImplicit false

namespace Ducklake

open Ducklake.Lib

/-- A text as the sequence of its Unicode scalar values. -/
abbrev Text := List Char

namespace Utils

def isIdentifierStart (c : Char) : Bool :=
  c.isAlpha || c == '_'

def isIdentifierPart (c : Char) : Bool :=
  c.isAlphanum || c == '_'

/-- `[a-zA-Z_][a-zA-Z0-9_]*` -/
def unquotedIdentifier : Regex Char :=
  .seq (.sym isIdentifierStart) (.star (.sym isIdentifierPart))

def quoteSign : Regex Char :=
  .sym fun c => c == '"'

/-- `(?:[^"]|"")` -/
def quotedCharacter : Regex Char :=
  .alt (.sym fun c => c != '"') (.seq quoteSign quoteSign)

/-- `"((?:[^"]|"")+)"` -/
def quotedIdentifier : Regex Char :=
  .seq quoteSign (.seq (.plus quotedCharacter) quoteSign)

def dotSign : Regex Char :=
  .sym fun c => c == '.'

/-- `^{id}(\.{id}+)*$` for unquoted identifiers -/
def dotSeparatedUnquotedIdentifiers : Regex Char :=
  .seq unquotedIdentifier (.star (.seq dotSign (.plus unquotedIdentifier)))

/-- `^{id}(\.{id}+)*$` for quoted identifiers: the `+` repeats the closing quote. -/
def dotSeparatedQuotedIdentifiers : Regex Char :=
  .seq quotedIdentifier
    (.star (.seq dotSign (.seq quoteSign (.seq (.plus quotedCharacter) (.plus quoteSign)))))

def quote (s : Text) : Text :=
  s.flatMap fun c => if c = '"' then ['"', '"'] else [c]

def unquote : Text → Text
  | '"' :: '"' :: rest => '"' :: unquote rest
  | c :: rest => c :: unquote rest
  | [] => []

/-- The capture group of `quotedIdentifier`: a match without its first and last character. -/
def capturedGroup (found : Text) : Text :=
  found.tail.dropLast

/-- Parse an identifier into its dot-separated components. -/
def parseIdentifier (s : Text) : Option (List Text) :=
  if dotSeparatedUnquotedIdentifiers.isFullMatch s then
    some (s.splitOn '.')
  else if dotSeparatedQuotedIdentifiers.isFullMatch s then
    some ((quotedIdentifier.findIter s).map fun found => unquote (capturedGroup found))
  else none

def formatComponent (s : Text) : Text :=
  '"' :: (quote s ++ ['"'])

/-- Format an identifier from its components, quoting each component. -/
def formatIdentifier (components : List Text) : Text :=
  ['.'].intercalate (components.map formatComponent)

/-- `(?:{unquoted}|{quoted})` -/
def identifier : Regex Char :=
  .alt unquotedIdentifier quotedIdentifier

/-- `^{id}(,{id})*$` -/
def commaSeparatedIdentifiers : Regex Char :=
  .seq identifier (.star (.seq (.sym fun c => c == ',') identifier))

def parseIdentifierList (s : Text) : Option (List Text) :=
  if s.isEmpty then some []
  else if commaSeparatedIdentifiers.isFullMatch s then
    (identifier.findIter s).mapM fun found => (parseIdentifier found).bind List.head?
  else none

def formatIdentifierList (identifiers : List Text) : Text :=
  [','].intercalate (identifiers.map fun identifier => formatIdentifier [identifier])

/-! ## Quoting -/

@[simp] theorem quote_nil : quote [] = [] := rfl

theorem quote_cons (c : Char) (rest : Text) :
    quote (c :: rest) = (if c = '"' then ['"', '"'] else [c]) ++ quote rest := by
  simp [quote]

theorem unquote_cons_of_ne (c : Char) (rest : Text) (plain : c ≠ '"') :
    unquote (c :: rest) = c :: unquote rest := by
  rw [unquote]
  rintro rest' rfl
  exact absurd rfl plain

theorem unquote_quote (s : Text) : unquote (quote s) = s := by
  induction s with
  | nil => rfl
  | cons c rest ih =>
      rw [quote_cons]
      by_cases sign : c = '"'
      · simp [sign, unquote, ih]
      · simp [sign, unquote_cons_of_ne _ _ sign, ih]

theorem quote_subset (s : Text) : quote s ⊆ '"' :: s := by
  intro c inside
  simp only [quote, List.mem_flatMap] at inside
  obtain ⟨d, member, inside⟩ := inside
  split at inside
  · simp_all
  · simp_all

theorem unquote_subset (s : Text) : unquote s ⊆ s := by
  fun_induction unquote s with
  | case1 rest ih =>
      intro c inside
      rcases List.mem_cons.mp inside with same | later
      · simp [same]
      · exact List.mem_cons_of_mem _ (List.mem_cons_of_mem _ (ih later))
  | case2 c rest _ ih => exact List.cons_subset_cons c ih
  | case3 => exact List.Subset.refl []

theorem unquote_ne_nil (s : Text) (nonempty : s ≠ []) : unquote s ≠ [] := by
  fun_cases unquote s <;> simp_all

@[simp] theorem capturedGroup_formatComponent (s : Text) :
    capturedGroup (formatComponent s) = quote s := by
  simp [capturedGroup, formatComponent]

/-! ## The quoted pattern on a quoted text

`follow` is what comes behind the closing quote; it never starts with another quote. -/

theorem quotedCharacter_run_quote (c : Char) (rest : Text) :
    quotedCharacter.run (quote [c] ++ rest) = [rest] := by
  by_cases sign : c = '"'
  · simp [quote_cons, sign, quotedCharacter, quoteSign, Regex.run]
  · simp [quote_cons, sign, quotedCharacter, quoteSign, Regex.run]

theorem quotedCharacter_run_closing (follow : Text) (ends : follow.head? ≠ some '"') :
    quotedCharacter.run ('"' :: follow) = [] := by
  cases follow with
  | nil => simp [quotedCharacter, quoteSign, Regex.run]
  | cons c rest =>
      have plain : c ≠ '"' := by simpa using ends
      simp [quotedCharacter, quoteSign, Regex.run, plain]

/-- Greedy iteration over a quoted text stops in front of its closing quote. -/
theorem runStar_quote (s follow : Text) (ends : follow.head? ≠ some '"') (fuel : Nat)
    (enough : (quote s).length ≤ fuel) :
    ∃ others, Regex.runStar quotedCharacter.run fuel (quote s ++ '"' :: follow) =
      ('"' :: follow) :: others := by
  induction s generalizing fuel with
  | nil =>
      cases fuel with
      | zero => exact ⟨[], rfl⟩
      | succ fuel =>
          exact ⟨[], by simp [Regex.runStar, quotedCharacter_run_closing follow ends]⟩
  | cons c rest ih =>
      have split : quote (c :: rest) = quote [c] ++ quote rest := by simp [quote_cons]
      have positive : 0 < (quote [c]).length := by
        by_cases sign : c = '"' <;> simp [quote_cons, sign]
      rw [split, List.length_append] at enough
      cases fuel with
      | zero => omega
      | succ fuel =>
          obtain ⟨others, tailRun⟩ := ih fuel (by omega)
          have shorter : (quote rest ++ '"' :: follow).length <
              (quote [c] ++ (quote rest ++ '"' :: follow)).length := by
            simp only [List.length_append] at enough ⊢
            omega
          rw [split, List.append_assoc]
          refine ⟨others ++ [quote [c] ++ (quote rest ++ '"' :: follow)], ?_⟩
          rw [Regex.runStar, quotedCharacter_run_quote, List.filter_cons_of_pos (by simpa using shorter)]
          simp [tailRun]

theorem plus_run_quote (s follow : Text) (nonempty : s ≠ [])
    (ends : follow.head? ≠ some '"') :
    ∃ others, (Regex.plus quotedCharacter).run (quote s ++ '"' :: follow) =
      ('"' :: follow) :: others := by
  cases s with
  | nil => exact absurd rfl nonempty
  | cons c rest =>
      have split : quote (c :: rest) = quote [c] ++ quote rest := by simp [quote_cons]
      obtain ⟨others, starRun⟩ := runStar_quote rest follow ends
        (quote rest ++ '"' :: follow).length (by simp)
      refine ⟨others, ?_⟩
      rw [split, List.append_assoc, Regex.plus, Regex.run, quotedCharacter_run_quote]
      simpa [Regex.run] using starRun

theorem quotedIdentifier_head_formatComponent (s follow : Text) (nonempty : s ≠ [])
    (ends : follow.head? ≠ some '"') :
    (quotedIdentifier.run (formatComponent s ++ follow)).head? = some follow := by
  obtain ⟨others, plusRun⟩ := plus_run_quote s follow nonempty ends
  have shape : formatComponent s ++ follow = '"' :: (quote s ++ '"' :: follow) := by
    simp [formatComponent]
  rw [shape]
  simp [quotedIdentifier, Regex.run, quoteSign, plusRun]

theorem quotedIdentifier_run_dot (rest : Text) : quotedIdentifier.run ('.' :: rest) = [] := by
  simp [quotedIdentifier, quoteSign, Regex.run]

theorem formatIdentifier_cons (s : Text) (rest : List Text) :
    formatIdentifier (s :: rest) = formatComponent s ++
      (if rest = [] then [] else '.' :: formatIdentifier rest) := by
  cases rest with
  | nil => simp [formatIdentifier]
  | cons t rest => simp [formatIdentifier, List.intercalate_cons_cons]

theorem formatComponent_ne_nil (s : Text) : formatComponent s ≠ [] :=
  List.cons_ne_nil _ _

theorem findIter_formatIdentifier (components : List Text)
    (nonempty : ∀ s ∈ components, s ≠ []) (fuel : Nat)
    (enough : (formatIdentifier components).length ≤ fuel) :
    quotedIdentifier.findIterFuel fuel (formatIdentifier components) =
      components.map formatComponent := by
  refine quotedIdentifier.findIterFuel_intercalate '.' _ ?_ ?_ quotedIdentifier_run_dot fuel enough
  · intro word member
    obtain ⟨s, _, rfl⟩ := List.mem_map.mp member
    exact formatComponent_ne_nil s
  · intro word member follow separated
    obtain ⟨s, inside, rfl⟩ := List.mem_map.mp member
    refine quotedIdentifier_head_formatComponent s follow (nonempty s inside) fun quoted => ?_
    exact absurd (separated _ quoted) (by decide)

/-! ## Round trip -/

theorem quotedCharacters_match (s : Text) (nonempty : s ≠ []) :
    Regex.Matches (.plus quotedCharacter) (quote s) := by
  have single : ∀ c : Char, Regex.Matches quotedCharacter (quote [c]) := by
    intro c
    by_cases sign : c = '"'
    · subst sign
      exact .altRight (.seq_cons (.sym rfl) (.sym rfl))
    · simp only [quote_cons, sign, if_false, quote_nil, List.append_nil]
      exact .altLeft (.sym (by simpa using sign))
  have many : ∀ rest : Text, Regex.Matches (.star quotedCharacter) (quote rest) := by
    intro rest
    induction rest with
    | nil => exact .starNil
    | cons c rest ih =>
        have split : quote (c :: rest) = quote [c] ++ quote rest := by simp [quote_cons]
        rw [split]
        exact .starCons (single c) ih
  cases s with
  | nil => exact absurd rfl nonempty
  | cons c rest =>
      have split : quote (c :: rest) = quote [c] ++ quote rest := by simp [quote_cons]
      rw [split]
      exact .seq (single c) (many rest)

theorem quoteSign_match : Regex.Matches quoteSign ['"'] :=
  .sym rfl

theorem dotSign_match : Regex.Matches dotSign ['.'] :=
  .sym rfl

theorem formatIdentifier_match (components : List Text) (some_component : components ≠ [])
    (nonempty : ∀ s ∈ components, s ≠ []) :
    Regex.Matches dotSeparatedQuotedIdentifiers (formatIdentifier components) := by
  have component : ∀ s, s ≠ [] → Regex.Matches quotedIdentifier (formatComponent s) :=
    fun s filled => .seq_cons quoteSign_match
      (.seq (quotedCharacters_match s filled) quoteSign_match)
  have repeated : ∀ s, s ≠ [] → Regex.Matches
      (.seq quoteSign (.seq (.plus quotedCharacter) (.plus quoteSign))) (formatComponent s) := by
    intro s filled
    refine .seq_cons quoteSign_match (.seq (quotedCharacters_match s filled) ?_)
    exact .seq_cons quoteSign_match .starNil
  have following : ∀ rest : List Text, (∀ s ∈ rest, s ≠ []) →
      Regex.Matches (.star (.seq dotSign
          (.seq quoteSign (.seq (.plus quotedCharacter) (.plus quoteSign)))))
        (if rest = [] then [] else '.' :: formatIdentifier rest) := by
    intro rest filled
    induction rest with
    | nil => exact .starNil
    | cons s rest ih =>
        have tailMatch := ih fun t inside => filled t (List.mem_cons_of_mem _ inside)
        have headMatch := repeated s (filled s List.mem_cons_self)
        have whole := Regex.Matches.starCons
          (Regex.Matches.seq_cons dotSign_match headMatch) tailMatch
        simpa [formatIdentifier_cons] using whole
  cases components with
  | nil => exact absurd rfl some_component
  | cons s rest =>
      rw [formatIdentifier_cons]
      exact .seq (component s (nonempty s List.mem_cons_self))
        (following rest fun t inside => nonempty t (List.mem_cons_of_mem _ inside))

theorem not_unquoted_of_quote (rest : Text) :
    dotSeparatedUnquotedIdentifiers.isFullMatch ('"' :: rest) = false := by
  simp [Regex.isFullMatch, dotSeparatedUnquotedIdentifiers, unquotedIdentifier, Regex.run,
    isIdentifierStart]

theorem parseIdentifier_formatIdentifier (components : List Text)
    (some_component : components ≠ []) (nonempty : ∀ s ∈ components, s ≠ []) :
    parseIdentifier (formatIdentifier components) = some components := by
  have quoted : dotSeparatedQuotedIdentifiers.isFullMatch (formatIdentifier components) = true :=
    (Regex.isFullMatch_iff _ _).mpr (formatIdentifier_match components some_component nonempty)
  have unquoted : dotSeparatedUnquotedIdentifiers.isFullMatch (formatIdentifier components) =
      false := by
    cases components with
    | nil => exact absurd rfl some_component
    | cons s rest =>
        rw [formatIdentifier_cons]
        exact not_unquoted_of_quote _
  have found := findIter_formatIdentifier components nonempty _ (Nat.le_refl _)
  rw [parseIdentifier, if_neg (by simp [unquoted]), if_pos quoted, Regex.findIter, found]
  simp [Function.comp_def, unquote_quote]

/-! ## What parsing accepts -/

theorem unquotedIdentifier_ne_nil (word : Text) (matched : Regex.Matches unquotedIdentifier word) :
    word ≠ [] := by
  cases matched with
  | seq leftMatch _ => cases leftMatch; simp

theorem dot_notMem_unquotedIdentifier (word : Text)
    (matched : Regex.Matches unquotedIdentifier word) : '.' ∉ word := by
  have later : ∀ rest, Regex.Matches (.star (.sym isIdentifierPart)) rest → '.' ∉ rest := by
    intro rest restMatch
    generalize shape : Regex.star (.sym isIdentifierPart) = whole at restMatch
    induction restMatch with
    | starNil => simp
    | starCons leftMatch _ _ rightIh =>
        cases shape
        cases leftMatch with
        | sym accepted =>
            rw [List.singleton_append, List.mem_cons]
            rintro (same | inside)
            · subst same
              exact absurd accepted (by decide)
            · exact rightIh rfl inside
    | _ => cases shape
  cases matched with
  | seq leftMatch rightMatch =>
      cases leftMatch with
      | sym accepted =>
          rw [List.singleton_append, List.mem_cons]
          rintro (same | inside)
          · subst same
            exact absurd accepted (by decide)
          · exact later _ rightMatch inside

theorem plus_unquotedIdentifier (word : Text)
    (matched : Regex.Matches (.plus unquotedIdentifier) word) : word ≠ [] ∧ '.' ∉ word := by
  have later : ∀ rest, Regex.Matches (.star unquotedIdentifier) rest → '.' ∉ rest := by
    intro rest restMatch
    generalize shape : Regex.star unquotedIdentifier = whole at restMatch
    induction restMatch with
    | starNil => simp
    | starCons leftMatch _ _ rightIh =>
        cases shape
        rw [List.mem_append]
        rintro (inside | inside)
        · exact dot_notMem_unquotedIdentifier _ leftMatch inside
        · exact rightIh rfl inside
    | _ => cases shape
  cases matched with
  | seq leftMatch rightMatch =>
      refine ⟨?_, ?_⟩
      · simp [unquotedIdentifier_ne_nil _ leftMatch]
      · rw [List.mem_append]
        rintro (inside | inside)
        · exact dot_notMem_unquotedIdentifier _ leftMatch inside
        · exact later _ rightMatch inside

theorem dotSeparatedUnquotedIdentifiers_splitOn (s : Text)
    (matched : Regex.Matches dotSeparatedUnquotedIdentifiers s) :
    ∀ component ∈ s.splitOn '.', component ≠ [] := by
  have later : ∀ rest,
      Regex.Matches (.star (.seq dotSign (.plus unquotedIdentifier))) rest →
        ∀ first : Text, first ≠ [] → '.' ∉ first →
          ∀ component ∈ (first ++ rest).splitOn '.', component ≠ [] := by
    intro rest restMatch
    generalize shape : Regex.star (.seq dotSign (.plus unquotedIdentifier)) = whole at restMatch
    induction restMatch with
    | starNil =>
        intro first filled plain component member
        rw [List.append_nil, List.splitOn_eq_singleton plain, List.mem_singleton] at member
        exact member ▸ filled
    | starCons leftMatch _ _ rightIh =>
        cases shape
        intro first filled plain component member
        cases leftMatch with
        | seq dotMatch wordMatch =>
            cases dotMatch with
            | @sym _ symbol accepted =>
                have dot : symbol = '.' := by simpa using accepted
                obtain ⟨nextFilled, nextPlain⟩ := plus_unquotedIdentifier _ wordMatch
                rw [dot, List.singleton_append, List.cons_append,
                  List.splitOn_append_cons_self_of_not_mem plain, List.mem_cons] at member
                rcases member with same | member
                · exact same ▸ filled
                · exact rightIh rfl _ nextFilled nextPlain component member
    | _ => cases shape
  cases matched with
  | seq leftMatch rightMatch =>
      exact later _ rightMatch _ (unquotedIdentifier_ne_nil _ leftMatch)
        (dot_notMem_unquotedIdentifier _ leftMatch)

theorem capturedGroup_ne_nil (word : Text) (matched : Regex.Matches quotedIdentifier word) :
    capturedGroup word ≠ [] := by
  cases matched with
  | seq openMatch restMatch =>
      cases openMatch with
      | sym _ =>
          cases restMatch with
          | seq bodyMatch closeMatch =>
              cases closeMatch with
              | sym _ =>
                  cases bodyMatch with
                  | seq firstMatch _ =>
                      have filled : ∀ text, Regex.Matches quotedCharacter text → text ≠ [] := by
                        intro text textMatch
                        cases textMatch with
                        | altLeft matched => cases matched; simp
                        | altRight matched =>
                            cases matched with
                            | seq left _ => cases left; simp
                      have bodyFilled := filled _ firstMatch
                      simp [capturedGroup, bodyFilled]

theorem capturedGroup_subset (word : Text) : capturedGroup word ⊆ word := fun _ inside =>
  List.mem_of_mem_tail (List.dropLast_subset _ inside)

/-- Parsed components are never empty and use characters of the input only. -/
theorem parseIdentifier_sound (s : Text) (components : List Text)
    (success : parseIdentifier s = some components) (component : Text)
    (member : component ∈ components) : component ≠ [] ∧ component ⊆ s := by
  unfold parseIdentifier at success
  split at success
  · rename_i matched
    obtain rfl := Option.some.inj success
    refine ⟨dotSeparatedUnquotedIdentifiers_splitOn s ((Regex.isFullMatch_iff _ _).mp matched)
      component member, fun c inside => ?_⟩
    have joined : ['.'].intercalate (s.splitOn '.') = s := List.intercalate_splitOn '.'
    rw [← joined]
    exact mem_intercalate_of_mem _ _ component member inside
  · split at success
    · obtain rfl := Option.some.inj success
      obtain ⟨found, foundMember, rfl⟩ := List.mem_map.mp member
      obtain ⟨matched, subset⟩ := quotedIdentifier.findIterFuel_sound _ s found foundMember
      refine ⟨unquote_ne_nil _ (capturedGroup_ne_nil found matched), ?_⟩
      exact List.Subset.trans (unquote_subset _)
        (List.Subset.trans (capturedGroup_subset found) subset)
    · cases success

end Utils

end Ducklake
