import Mathlib.Data.Nat.Init
import Ducklake.Utils.Identifier

/-!
# What the identifier patterns accept

The language of each pattern of `utils/identifier.rs`, written without regular expressions, and
from these the texts that `parseIdentifier` accepts.
-/

set_option autoImplicit false

namespace Ducklake.Utils

open Ducklake.Lib Regex

/-! ## Quoted texts -/

theorem quote_append (s t : Text) : quote (s ++ t) = quote s ++ quote t := by
  simp [quote]

theorem matches_quoteSign_iff (word : Text) : Matches quoteSign word ↔ word = ['"'] := by
  simp [quoteSign, matches_sym_iff]

theorem matches_dotSign_iff (word : Text) : Matches dotSign word ↔ word = ['.'] := by
  simp [dotSign, matches_sym_iff]

theorem matches_quotedCharacter_iff (word : Text) :
    Matches quotedCharacter word ↔ ∃ c, word = quote [c] := by
  rw [quotedCharacter, matches_alt_iff, matches_sym_iff, matches_seq_iff]
  simp only [matches_quoteSign_iff, quote_cons, quote_nil, List.append_nil]
  constructor
  · rintro (⟨c, plain, rfl⟩ | ⟨left, right, rfl, rfl, rfl⟩)
    · exact ⟨c, by rw [if_neg (by simpa using plain)]⟩
    · exact ⟨'"', rfl⟩
  · rintro ⟨c, rfl⟩
    by_cases sign : c = '"'
    · exact Or.inr ⟨_, _, rfl, rfl, by simp [sign]⟩
    · exact Or.inl ⟨c, by simpa using sign, by rw [if_neg sign]⟩

theorem matches_quotedCharacters_iff (word : Text) :
    Matches (.star quotedCharacter) word ↔ ∃ body, word = quote body := by
  rw [matches_star_iff]
  constructor
  · rintro ⟨words, all, rfl⟩
    induction words with
    | nil => exact ⟨[], rfl⟩
    | cons head rest ih =>
        obtain ⟨c, headEq⟩ := (matches_quotedCharacter_iff head).mp (all head List.mem_cons_self)
        obtain ⟨body, restEq⟩ := ih fun part member => all part (List.mem_cons_of_mem _ member)
        exact ⟨[c] ++ body, by rw [quote_append, List.flatten_cons, headEq, restEq]⟩
  · rintro ⟨body, rfl⟩
    refine ⟨body.map fun c => quote [c], ?_, ?_⟩
    · intro part member
      obtain ⟨c, _, rfl⟩ := List.mem_map.mp member
      exact (matches_quotedCharacter_iff _).mpr ⟨c, rfl⟩
    · simp [quote, List.flatMap_def]

theorem matches_quotedBody_iff (word : Text) :
    Matches (.plus quotedCharacter) word ↔ ∃ body, body ≠ [] ∧ word = quote body := by
  rw [plus, matches_seq_iff]
  simp only [matches_quotedCharacter_iff, matches_quotedCharacters_iff]
  constructor
  · rintro ⟨_, _, ⟨c, rfl⟩, ⟨body, rfl⟩, rfl⟩
    exact ⟨[c] ++ body, by simp, (quote_append [c] body).symm⟩
  · rintro ⟨body, filled, rfl⟩
    obtain ⟨c, rest, rfl⟩ := List.exists_cons_of_ne_nil filled
    exact ⟨_, _, ⟨c, rfl⟩, ⟨rest, rfl⟩, quote_append [c] rest⟩

theorem matches_quotedIdentifier_iff (word : Text) :
    Matches quotedIdentifier word ↔ ∃ body, body ≠ [] ∧ word = formatComponent body := by
  rw [quotedIdentifier, matches_seq_iff]
  simp only [matches_seq_iff, matches_quoteSign_iff, matches_quotedBody_iff]
  constructor
  · rintro ⟨_, _, rfl, ⟨_, _, ⟨body, filled, rfl⟩, rfl, rfl⟩, rfl⟩
    exact ⟨body, filled, rfl⟩
  · rintro ⟨body, filled, rfl⟩
    exact ⟨_, _, rfl, ⟨_, _, ⟨body, filled, rfl⟩, rfl, rfl⟩, rfl⟩

/-! ## Components after the first

Behind a dot the pattern allows any number of closing quotes.  Pairs of them belong to the text, so
that what is left is one quote, or one too many. -/

theorem quote_append_quotes (body : Text) (filled : body ≠ []) (count : Nat) :
    ∃ inner, inner ≠ [] ∧ (quote body ++ List.replicate (count + 1) '"' = quote inner ++ ['"'] ∨
      quote body ++ List.replicate (count + 1) '"' = quote inner ++ ['"', '"']) := by
  induction count using Nat.twoStepInduction generalizing body with
  | zero => exact ⟨body, filled, Or.inl rfl⟩
  | one => exact ⟨body, filled, Or.inr rfl⟩
  | more count ih _ =>
      have pair : quote body ++ List.replicate (count + 2 + 1) '"' =
          quote (body ++ ['"']) ++ List.replicate (count + 1) '"' := by
        simp [quote_append, quote_cons, List.replicate_succ]
      rw [pair]
      exact ih (body ++ ['"']) (by simp)

theorem matches_quoteSigns_iff (word : Text) :
    Matches (.plus quoteSign) word ↔ ∃ count, word = List.replicate (count + 1) '"' := by
  rw [plus, matches_seq_iff]
  simp only [matches_quoteSign_iff, matches_star_iff]
  constructor
  · rintro ⟨_, _, rfl, ⟨words, all, rfl⟩, rfl⟩
    refine ⟨words.length, ?_⟩
    rw [List.eq_replicate_of_mem all, List.replicate_succ]
    simp
  · rintro ⟨count, rfl⟩
    refine ⟨_, _, rfl, ⟨List.replicate count ['"'], ?_, rfl⟩, ?_⟩
    · intro part member
      exact List.eq_of_mem_replicate member
    · simp [List.replicate_succ]

def ExtraQuote (part : Text) : Prop :=
  ∃ body, body ≠ [] ∧ part = formatComponent body ++ ['"']

def LaterComponent (part : Text) : Prop :=
  (∃ body, body ≠ [] ∧ part = formatComponent body) ∨ ExtraQuote part

theorem matches_laterComponent_iff (word : Text) :
    Matches (.seq quoteSign (.seq (.plus quotedCharacter) (.plus quoteSign))) word ↔
      LaterComponent word := by
  rw [matches_seq_iff]
  simp only [matches_seq_iff, matches_quoteSign_iff, matches_quotedBody_iff,
    matches_quoteSigns_iff]
  constructor
  · rintro ⟨_, _, rfl, ⟨_, _, ⟨body, filled, rfl⟩, ⟨count, rfl⟩, rfl⟩, rfl⟩
    obtain ⟨inner, innerFilled, single | double⟩ := quote_append_quotes body filled count
    · exact Or.inl ⟨inner, innerFilled, by rw [single]; rfl⟩
    · exact Or.inr ⟨inner, innerFilled, by rw [double]; simp [formatComponent]⟩
  · rintro (⟨body, filled, rfl⟩ | ⟨body, filled, rfl⟩)
    · exact ⟨_, _, rfl, ⟨_, _, ⟨body, filled, rfl⟩, ⟨0, rfl⟩, rfl⟩, rfl⟩
    · exact ⟨_, _, rfl, ⟨_, _, ⟨body, filled, rfl⟩, ⟨1, rfl⟩, rfl⟩, by simp [formatComponent]⟩

/-! ## Bare identifiers -/

/-- ASCII letters, digits and underscores, of which the first is no digit. -/
def isBare : Text → Bool
  | [] => false
  | c :: rest => isIdentifierStart c && rest.all isIdentifierPart

theorem isIdentifierPart_of_start (c : Char) (start : isIdentifierStart c = true) :
    isIdentifierPart c = true := by
  simp only [isIdentifierStart, isIdentifierPart, Char.isAlphanum, Bool.or_eq_true] at start ⊢
  rcases start with letter | underscore
  · exact Or.inl (Or.inl letter)
  · exact Or.inr underscore

theorem matches_unquotedIdentifier_iff (word : Text) :
    Matches unquotedIdentifier word ↔ isBare word = true := by
  have parts : ∀ rest, Matches (.star (.sym isIdentifierPart)) rest ↔
      rest.all isIdentifierPart = true := by
    intro rest
    rw [matches_star_iff, List.all_eq_true]
    constructor
    · rintro ⟨words, all, rfl⟩
      intro c inside
      obtain ⟨part, member, inside⟩ := List.mem_flatten.mp inside
      obtain ⟨symbol, accepted, rfl⟩ := (matches_sym_iff _ _).mp (all part member)
      rwa [List.mem_singleton.mp inside]
    · intro all
      refine ⟨rest.map fun c => [c], ?_, ?_⟩
      · intro part member
        obtain ⟨c, inside, rfl⟩ := List.mem_map.mp member
        exact .sym (all c inside)
      · exact (List.flatMap_singleton' rest).symm
  rw [unquotedIdentifier, matches_seq_iff]
  simp only [parts, matches_sym_iff]
  constructor
  · rintro ⟨_, rest, ⟨c, start, rfl⟩, all, rfl⟩
    simp [isBare, start, all]
  · intro bare
    cases word with
    | nil => cases bare
    | cons c rest =>
        obtain ⟨start, all⟩ := Bool.and_eq_true_iff.mp bare
        exact ⟨[c], rest, ⟨c, start, rfl⟩, all, rfl⟩

theorem isBare_append (first second : Text) (bare : isBare first = true)
    (parts : second.all isIdentifierPart = true) : isBare (first ++ second) = true := by
  cases first with
  | nil => cases bare
  | cons c rest =>
      obtain ⟨start, all⟩ := Bool.and_eq_true_iff.mp bare
      simp [isBare, start, all, parts]

theorem all_of_isBare (s : Text) (bare : isBare s = true) : s.all isIdentifierPart = true := by
  cases s with
  | nil => rfl
  | cons c rest =>
      obtain ⟨start, all⟩ := Bool.and_eq_true_iff.mp bare
      simp [isIdentifierPart_of_start c start, all]

theorem matches_unquotedIdentifiers_iff (word : Text) :
    Matches (.plus unquotedIdentifier) word ↔ isBare word = true := by
  rw [plus, matches_seq_iff]
  simp only [matches_unquotedIdentifier_iff, matches_star_iff]
  constructor
  · rintro ⟨first, _, bare, ⟨words, all, rfl⟩, rfl⟩
    refine isBare_append first _ bare (List.all_eq_true.mpr ?_)
    intro c inside
    obtain ⟨part, member, inside⟩ := List.mem_flatten.mp inside
    exact List.all_eq_true.mp (all_of_isBare part (all part member)) c inside
  · intro bare
    exact ⟨word, [], bare, ⟨[], by simp, rfl⟩, by simp⟩

/-! ## Dot-separated components -/

/-- The text has these components: all of them bare, or all of them quoted. -/
def WrittenAs (components : List Text) (s : Text) : Prop :=
  components ≠ [] ∧
    ((∀ c ∈ components, isBare c = true) ∧ s = ['.'].intercalate components ∨
      (∀ c ∈ components, c ≠ []) ∧ s = ['.'].intercalate (components.map formatComponent))

/-- Behind a dot, some quoted component is closed by one quote too many. -/
def Overclosed (s : Text) : Prop :=
  ∃ first rest, first ≠ [] ∧ (∀ part ∈ rest, LaterComponent part) ∧
    (∃ part ∈ rest, ExtraQuote part) ∧ s = ['.'].intercalate (formatComponent first :: rest)

theorem matches_dotSeparatedUnquotedIdentifiers_iff (s : Text) :
    Matches dotSeparatedUnquotedIdentifiers s ↔
      ∃ components : List Text, components ≠ [] ∧ (∀ c ∈ components, isBare c = true) ∧
        s = ['.'].intercalate components := by
  rw [dotSeparatedUnquotedIdentifiers, matches_separated_iff _ _ _ _ matches_dotSign_iff]
  simp only [matches_unquotedIdentifier_iff, matches_unquotedIdentifiers_iff]
  constructor
  · rintro ⟨head, tail, bare, rest, rfl⟩
    exact ⟨head :: tail, List.cons_ne_nil _ _, List.forall_mem_cons.mpr ⟨bare, rest⟩, rfl⟩
  · rintro ⟨components, some_component, bare, rfl⟩
    obtain ⟨head, tail, rfl⟩ := List.exists_cons_of_ne_nil some_component
    obtain ⟨first, rest⟩ := List.forall_mem_cons.mp bare
    exact ⟨head, tail, first, rest, rfl⟩

theorem matches_dotSeparatedQuotedIdentifiers_iff (s : Text) :
    Matches dotSeparatedQuotedIdentifiers s ↔
      ∃ (first : Text) (rest : List Text), first ≠ [] ∧ (∀ part ∈ rest, LaterComponent part) ∧
        s = ['.'].intercalate (formatComponent first :: rest) := by
  rw [dotSeparatedQuotedIdentifiers, matches_separated_iff _ _ _ _ matches_dotSign_iff]
  simp only [matches_quotedIdentifier_iff, matches_laterComponent_iff]
  constructor
  · rintro ⟨_, rest, ⟨first, filled, rfl⟩, later, rfl⟩
    exact ⟨first, rest, filled, later, rfl⟩
  · rintro ⟨first, rest, filled, later, rfl⟩
    exact ⟨_, rest, ⟨first, filled, rfl⟩, later, rfl⟩

theorem dot_notMem_of_isBare (s : Text) (bare : isBare s = true) : '.' ∉ s :=
  dot_notMem_unquotedIdentifier s ((matches_unquotedIdentifier_iff s).mpr bare)

theorem splitOn_bare (components : List Text) (some_component : components ≠ [])
    (bare : ∀ c ∈ components, isBare c = true) :
    (['.'].intercalate components).splitOn '.' = components :=
  List.splitOn_intercalate '.' (fun c member => dot_notMem_of_isBare c (bare c member))
    some_component

theorem formatted_of_laterComponents (parts : List Text)
    (later : ∀ part ∈ parts, LaterComponent part) (closed : ∀ part ∈ parts, ¬ ExtraQuote part) :
    ∃ bodies : List Text, (∀ body ∈ bodies, body ≠ []) ∧ parts = bodies.map formatComponent := by
  induction parts with
  | nil => exact ⟨[], by simp, rfl⟩
  | cons part rest ih =>
      obtain ⟨first, later⟩ := List.forall_mem_cons.mp later
      obtain ⟨closedFirst, closed⟩ := List.forall_mem_cons.mp closed
      obtain ⟨bodies, filled, rfl⟩ := ih later closed
      rcases first with ⟨body, bodyFilled, rfl⟩ | extra
      · exact ⟨body :: bodies, List.forall_mem_cons.mpr ⟨bodyFilled, filled⟩, rfl⟩
      · exact absurd extra closedFirst

theorem parseIdentifier_of_writtenAs (s : Text) (components : List Text)
    (written : WrittenAs components s) : parseIdentifier s = some components := by
  obtain ⟨some_component, ⟨bare, rfl⟩ | ⟨filled, rfl⟩⟩ := written
  · have matched := (isFullMatch_iff _ _).mpr
      ((matches_dotSeparatedUnquotedIdentifiers_iff _).mpr ⟨components, some_component, bare, rfl⟩)
    rw [parseIdentifier, if_pos matched, splitOn_bare components some_component bare]
  · exact parseIdentifier_formatIdentifier components some_component filled

theorem writtenAs_of_parseIdentifier (s : Text) (components : List Text)
    (success : parseIdentifier s = some components) : WrittenAs components s ∨ Overclosed s := by
  have read := success
  unfold parseIdentifier at read
  split at read
  · rename_i matched
    obtain ⟨parts, some_part, bare, rfl⟩ := (matches_dotSeparatedUnquotedIdentifiers_iff s).mp
      ((isFullMatch_iff _ _).mp matched)
    obtain rfl := Option.some.inj read
    rw [splitOn_bare parts some_part bare]
    exact Or.inl ⟨some_part, Or.inl ⟨bare, rfl⟩⟩
  · split at read
    · rename_i matched
      obtain ⟨first, rest, filled, later, rfl⟩ :=
        (matches_dotSeparatedQuotedIdentifiers_iff s).mp ((isFullMatch_iff _ _).mp matched)
      by_cases extra : ∃ part ∈ rest, ExtraQuote part
      · exact Or.inr ⟨first, rest, filled, later, extra, rfl⟩
      · obtain ⟨bodies, bodiesFilled, rfl⟩ := formatted_of_laterComponents rest later
          fun part member quote => extra ⟨part, member, quote⟩
        have written : WrittenAs (first :: bodies)
            (['.'].intercalate (formatComponent first :: bodies.map formatComponent)) :=
          ⟨List.cons_ne_nil _ _, Or.inr ⟨List.forall_mem_cons.mpr ⟨filled, bodiesFilled⟩, rfl⟩⟩
        have same := (parseIdentifier_of_writtenAs _ _ written).symm.trans success
        exact Or.inl (Option.some.inj same ▸ written)
    · cases read

/-- `parseIdentifier` accepts what is written as components and returns these, but for texts with a
quote too many; and it reads formatted components back. -/
theorem parseIdentifier_grammar (s : Text) (components : List Text) :
    (WrittenAs components s → parseIdentifier s = some components) ∧
      (parseIdentifier s = some components → WrittenAs components s ∨ Overclosed s) ∧
      (components ≠ [] → (∀ c ∈ components, c ≠ []) →
        parseIdentifier (formatIdentifier components) = some components) :=
  ⟨parseIdentifier_of_writtenAs s components, writtenAs_of_parseIdentifier s components,
    parseIdentifier_formatIdentifier components⟩

/-- A bare component may not stand beside a quoted one, and there is no identifier without
components. -/
theorem parseIdentifier_mixed :
    ['.'].intercalate ["a".toList, formatComponent "b".toList] = "a.\"b\"".toList ∧
      isBare "a".toList = true ∧ parseIdentifier "a.\"b\"".toList = none ∧
      parseIdentifier (formatIdentifier []) = none := by
  decide +kernel

end Ducklake.Utils
