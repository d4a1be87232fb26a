import Ducklake.Lib.IndexMap
import Ducklake.Spec.Literals.Nested

/-!
# Round trips of nested literals

When the text of a list, struct or map of texts is read back to the same entries.
-/

set_option autoImplicit false

namespace Ducklake.Spec.Literals

open Lib

/-! ## Tokens -/

inductive TokenState where
  | outside
  | inside
  | escaped

/-- A token can not go on at a separator outside of quotes. -/
def TokenState.next (sep : Char) : TokenState → Char → Option TokenState
  | outside, c => if c = '\'' then some inside else if c = sep then none else some outside
  | inside, c =>
      if c = '\'' then some outside else if c = '\\' then some escaped else some inside
  | escaped, c => if c = '\n' then none else some inside

theorem foldlM_star
    {α : Type}
    (next : α → Char → Option α)
    (body : Regex Char)
    (state : α)
    (loops : ∀ word, body.Matches word → word.foldlM next state = some state)
    (word : Text)
    (matched : (Regex.star body).Matches word) :
    word.foldlM next state = some state := by
  generalize shape : Regex.star body = whole at matched
  induction matched with
  | eps | sym | seq | altLeft | altRight => cases shape
  | starNil => rfl
  | starCons leftMatch _ _ rightIh =>
      cases shape
      rw [List.foldlM_append, loops _ leftMatch]
      exact rightIh rfl

theorem foldlM_of_quoted
    (sep : Char)
    (word : Text)
    (matched : (Regex.star (.alt (.sym fun c => c != '\'' && c != '\\')
      (.seq (.sym fun c => c == '\\') (.sym fun c => c != '\n')))).Matches word) :
    word.foldlM (TokenState.next sep) .inside = some .inside := by
  refine foldlM_star _ _ _ ?_ word matched
  intro cell cellMatch
  cases cellMatch with
  | altLeft plain =>
      cases plain with
      | sym accepted =>
          rw [Bool.and_eq_true, bne_iff_ne, bne_iff_ne] at accepted
          simp [TokenState.next, accepted.1, accepted.2]
  | altRight pair =>
      cases pair with
      | seq slash any =>
          cases slash with
          | sym slashed =>
              cases any with
              | sym single =>
                  rw [beq_iff_eq] at slashed
                  rw [bne_iff_ne] at single
                  simp [TokenState.next, slashed, single]

theorem foldlM_of_token
    (sep : Char)
    (word : Text)
    (matched : (token sep).Matches word) :
    word.foldlM (TokenState.next sep) .outside = some .outside := by
  refine foldlM_star _ _ _ ?_ word matched
  intro cell cellMatch
  cases cellMatch with
  | altLeft plain =>
      cases plain with
      | sym accepted =>
          rw [Bool.and_eq_true, bne_iff_ne, bne_iff_ne] at accepted
          simp [TokenState.next, accepted.1, accepted.2]
  | altRight quoted =>
      cases quoted with
      | seq opened rest =>
          cases rest with
          | seq content closed =>
              cases opened with
              | sym opening =>
                  cases closed with
                  | sym closing =>
                      rw [beq_iff_eq] at opening closing
                      have inner := foldlM_of_quoted sep _ content
                      rw [opening, closing, List.singleton_append, List.foldlM_cons]
                      simp [TokenState.next, List.foldlM_append, inner]

/-- A separator outside of quotes ends the first token, so that a text splits in one way. -/
theorem token_prefix_unique
    (sep : Char)
    (first second firstRest secondRest : Text)
    (distinct : sep ≠ '\'')
    (firstToken : (token sep).Matches first)
    (secondToken : (token sep).Matches second)
    (same : first ++ sep :: firstRest = second ++ sep :: secondRest) :
    first = second ∧ firstRest = secondRest := by
  have stuck : ∀ {short long rest : Text}, (token sep).Matches short → (token sep).Matches long →
      long ≠ short ++ sep :: rest := by
    rintro short long rest shortToken longToken rfl
    have runs := foldlM_of_token sep _ longToken
    rw [List.foldlM_append, foldlM_of_token sep _ shortToken] at runs
    simp [TokenState.next, distinct] at runs
  rcases List.append_eq_append_iff.mp same with ⟨middle, longer, shape⟩ | ⟨middle, longer, shape⟩
  · cases middle with
    | nil => simpa [longer] using shape
    | cons head tail =>
        obtain ⟨rfl, _⟩ := List.cons.inj shape
        exact absurd longer (stuck firstToken secondToken)
  · cases middle with
    | nil => simpa [longer, eq_comm] using shape
    | cons head tail =>
        obtain ⟨rfl, _⟩ := List.cons.inj shape
        exact absurd longer (stuck secondToken firstToken)

theorem token_matches_cons
    (sep c : Char)
    (rest : Text)
    (noQuote : c ≠ '\'')
    (noSep : c ≠ sep)
    (tail : (token sep).Matches rest) :
    (token sep).Matches (c :: rest) := by
  have cell : (Regex.sym fun d => d != '\'' && d != sep).Matches [c] := .sym (by simp [noQuote, noSep])
  exact Regex.Matches.starCons (.altLeft cell) tail

theorem token_matches_plain
    (sep : Char)
    (s : Text)
    (noQuote : '\'' ∉ s)
    (noSep : sep ∉ s) :
    (token sep).Matches s := by
  induction s with
  | nil => exact .starNil
  | cons c rest ih =>
      rw [List.mem_cons, not_or] at noQuote noSep
      exact token_matches_cons sep c rest (Ne.symm noQuote.1) (Ne.symm noSep.1)
        (ih noQuote.2 noSep.2)

theorem token_matches_quoteStr
    (sep : Char)
    (s : Text) :
    (token sep).Matches (quoteStr s) := by
  have content : (Regex.star (.alt (.sym fun c => c != '\'' && c != '\\')
      (.seq (.sym fun c => c == '\\') (.sym fun c => c != '\n')))).Matches (escapeQuotes s) := by
    induction s with
    | nil => exact .starNil
    | cons c rest ih =>
        rw [escapeQuotes_cons]
        split
        · rename_i escaped
          have pair : (Regex.seq (.sym fun c => c == '\\')
              (.sym fun c => c != '\n')).Matches ['\\', c] :=
            .seq_cons (.sym rfl) (.sym (by rcases escaped with rfl | rfl <;> rfl))
          exact .starCons (.altRight pair) ih
        · rename_i plain
          rw [not_or] at plain
          exact .starCons (.altLeft (.sym (by simp [plain.1, plain.2]))) ih
  have sign : (Regex.sym fun c => c == '\'').Matches ['\''] := .sym rfl
  have whole : (token sep).Matches ((['\''] ++ (escapeQuotes s ++ ['\''])) ++ []) :=
    .starCons (.altRight (.seq sign (.seq content sign))) .starNil
  simpa [quoteStr] using whole

/-! ## Splitting entries -/

theorem findSome?_eq_of_unique
    {α β : Type}
    (f : α → Option β)
    (items : List α)
    (item : α)
    (result : β)
    (member : item ∈ items)
    (found : f item = some result)
    (unique : ∀ other ∈ items, ∀ value, f other = some value → value = result) :
    items.findSome? f = some result := by
  cases search : items.findSome? f with
  | none =>
      rw [List.findSome?_eq_none_iff] at search
      rw [search item member] at found
      cases found
  | some value =>
      obtain ⟨other, otherMember, otherFound⟩ := List.exists_of_findSome?_eq_some search
      rw [unique other otherMember value otherFound]

theorem take_front (front back : Text) :
    (front ++ back).take ((front ++ back).length - back.length) = front := by
  simp

theorem splitOnEquals_tokens
    (key value : Text)
    (keyToken : (token '=').Matches key)
    (valueToken : (token '=').Matches value) :
    splitOnEquals (key ++ '=' :: value) = some (key, value) := by
  unfold splitOnEquals
  refine findSome?_eq_of_unique _ _ ('=' :: value) _ (Regex.run_complete _ _ _ keyToken) ?_ ?_
  · simp only [(Regex.isFullMatch_iff _ _).mpr valueToken, if_true, take_front]
  · intro rest member result found
    obtain ⟨word, wordToken, shape⟩ := Regex.run_sound _ _ _ member
    split at found
    · rename_i other
      split at found
      · rename_i otherToken
        obtain ⟨rfl, rfl⟩ := token_prefix_unique '=' _ _ _ _ (by decide) keyToken wordToken shape
        cases found
        rw [take_front]
      · cases found
    · cases found

theorem splitOnColon_tokens
    (key text value : Text)
    (keyToken : (token ':').Matches key)
    (behind : afterColon text = some value) :
    splitOnColon (key ++ ':' :: text) = some (key, value) := by
  unfold splitOnColon
  refine findSome?_eq_of_unique _ _ (':' :: text) _ (Regex.run_complete _ _ _ keyToken) ?_ ?_
  · simp only [behind, Option.map_some, take_front]
  · intro rest member result found
    obtain ⟨word, wordToken, shape⟩ := Regex.run_sound _ _ _ member
    split at found
    · rename_i other
      obtain ⟨otherValue, otherBehind, rfl⟩ := Option.map_eq_some_iff.mp found
      obtain ⟨rfl, rfl⟩ := token_prefix_unique ':' _ _ _ _ (by decide) keyToken wordToken shape
      rw [behind] at otherBehind
      cases otherBehind
      rw [take_front]
    · cases found

section

variable (sep : Char) (known : sep = '=' ∨ sep = ':') (s : Text)

include known

theorem notMem_of_not_special
    (plain : isSpecial s = false) :
    '\'' ∉ s ∧ sep ∉ s := by
  obtain ⟨_, noQuote, _, noEquals, noColon⟩ := (isSpecial_eq_false_iff s).mp plain
  rcases known with rfl | rfl
  · exact ⟨noQuote, noEquals⟩
  · exact ⟨noQuote, noColon⟩

theorem token_matches_trimStart :
    (token sep).Matches (trimStart isWhitespace (escapeStr s)) := by
  unfold escapeStr
  cases special : isSpecial s with
  | true => exact token_matches_quoteStr sep s
  | false =>
      obtain ⟨noQuote, noSep⟩ := notMem_of_not_special sep known s special
      exact token_matches_plain sep _ (fun inside => noQuote (trimStart_subset _ _ inside))
        fun inside => noSep (trimStart_subset _ _ inside)

theorem token_matches_trimEnd :
    (token sep).Matches (trimEnd isWhitespace (escapeStr s)) := by
  unfold escapeStr
  cases special : isSpecial s with
  | true =>
      have kept : trimEnd isWhitespace (quoteStr s) = quoteStr s := trim_quoteStr s
      rw [if_pos rfl, kept]
      exact token_matches_quoteStr sep s
  | false =>
      obtain ⟨noQuote, noSep⟩ := notMem_of_not_special sep known s special
      exact token_matches_plain sep _ (fun inside => noQuote (trimEnd_subset _ _ inside))
        fun inside => noSep (trimEnd_subset _ _ inside)

end

theorem splitOnEquals_trim (entry : Text × Text) :
    (splitOnEquals (trim isWhitespace (escapeStr entry.1 ++ '=' :: escapeStr entry.2))).map
      unescapePair = some (unescapeStr (trim isWhitespace (escapeStr entry.1)),
        unescapeStr (trim isWhitespace (escapeStr entry.2))) := by
  rw [trim_append_cons _ _ _ _ (by decide), splitOnEquals_tokens _ _
    (token_matches_trimStart '=' (Or.inl rfl) entry.1)
    (token_matches_trimEnd '=' (Or.inl rfl) entry.2)]
  simp [unescapePair]

theorem splitOnColon_trim (field : Text × Text) :
    (splitOnColon (trim isWhitespace (escapeStr field.1 ++ ':' :: ' ' :: escapeStr field.2))).map
      unescapePair = some (unescapeStr (trim isWhitespace (escapeStr field.1)),
        unescapeStr (trim isWhitespace (escapeStr field.2))) := by
  have keyToken := token_matches_trimStart ':' (Or.inr rfl) field.1
  have valueToken := token_matches_trimEnd ':' (Or.inr rfl) field.2
  have behind : afterColon (trimEnd isWhitespace (' ' :: escapeStr field.2)) =
      some (trimEnd isWhitespace (escapeStr field.2)) := by
    have matched := (Regex.isFullMatch_iff _ _).mpr valueToken
    rw [trimEnd_cons]
    split
    · rename_i empty
      rw [List.isEmpty_iff.mp empty] at matched ⊢
      simp [afterColon, matched, isWhitespace]
    · simp [afterColon, matched]
  rw [trim_append_cons _ _ _ _ (by decide), splitOnColon_tokens _ _ _ keyToken behind]
  simp [unescapePair]

/-! ## Round trips -/

theorem filterMap_map_eq_self
    {α β : Type}
    (items : List α)
    (text : α → β)
    (decode : β → Option α)
    (same : (items.map text).filterMap decode = items) :
    ∀ item ∈ items, decode (text item) = some item := by
  induction items with
  | nil => simp
  | cons item rest ih =>
      rw [List.map_cons, List.filterMap_cons] at same
      split at same
      · have bound := List.length_filterMap_le decode (rest.map text)
        rw [same, List.length_cons, List.length_map] at bound
        omega
      · rename_i value found
        obtain ⟨rfl, tail⟩ := List.cons.inj same
        exact List.forall_mem_cons.mpr ⟨found, ih tail⟩

section

variable {α : Type} (text : α → Text) (depths : α → Int × Int) (decode : Text → Option α)
variable (absorbs : ∀ item, Scanner.Absorbs (text item) (depths item)) (items : List α)
variable (filled : items ≠ [])

include absorbs filled

theorem length_finish_elements :
    (Scanner.start.scan ([',', ' '].intercalate (items.map text))).finish.length ≤
      items.length := by
  rw [Scanner.scan_elements text depths absorbs items _ rfl]
  simpa [Scanner.start] using Scanner.length_finish_settle text depths items Scanner.start rfl filled

/-- The elements are read back exactly if the brackets of every element but the last are
balanced, and every element is read back. -/
theorem filterMap_finish_eq_iff :
    (Scanner.start.scan ([',', ' '].intercalate (items.map text))).finish.filterMap decode = items ↔
      (∀ item ∈ items, decode (trim isWhitespace (text item)) = some item) ∧
        ∀ item ∈ items.dropLast, depths item = 0 := by
  have bound := length_finish_elements text depths absorbs items filled
  rw [Scanner.scan_elements text depths absorbs items _ rfl] at bound ⊢
  have split : (∀ item ∈ items.dropLast, depths item = 0) →
      (Scanner.start.settle text depths items).finish =
        items.map fun item => trim isWhitespace (text item) := fun balanced =>
    Scanner.finish_settle text depths items Scanner.start rfl ⟨rfl, rfl⟩ balanced
      (fun _ => rfl) filled
  constructor
  · intro same
    have kept := List.length_filterMap_le decode (Scanner.start.settle text depths items).finish
    rw [same] at kept
    have balanced := Scanner.balanced_of_length text depths items Scanner.start rfl ⟨rfl, rfl⟩
      (by simpa [Scanner.start] using kept)
    rw [split balanced] at same
    exact ⟨filterMap_map_eq_self items _ decode same, balanced⟩
  · rintro ⟨decoded, balanced⟩
    rw [split balanced, List.filterMap_map]
    have each : ∀ item ∈ items, (decode ∘ fun item => trim isWhitespace (text item)) item =
        some item := decoded
    rw [List.filterMap_congr each, List.filterMap_some]

end

theorem stripEnclosing_formatElements (opening closing : Char) (elements : List Text) :
    stripEnclosing opening closing (formatElements opening closing elements) =
      some ([',', ' '].intercalate elements) :=
  stripEnclosing_enclosed _ _ _

def ListReadable (items : List Text) : Prop :=
  items ≠ [[]] ∧ (∀ item ∈ items, Trimmed item) ∧ ∀ item ∈ items.dropLast, balance item = 0

/-- When the entries of a struct or map are read back. -/
def EntriesReadable (entries : List (Text × Text)) : Prop :=
  (∀ entry ∈ entries, Trimmed entry.1 ∧ Trimmed entry.2) ∧
    ∀ entry ∈ entries.dropLast, balance entry.1 + balance entry.2 = 0

theorem intercalate_isEmpty_of_ne
    (elements : List Text)
    (filled : elements ≠ [])
    (single : elements ≠ [[]]) :
    ([',', ' '].intercalate elements).isEmpty = false := by
  cases elements with
  | nil => exact absurd rfl filled
  | cons first rest =>
      cases rest with
      | nil =>
          cases first with
          | nil => exact absurd rfl single
          | cons => simp
      | cons second rest => simp [List.intercalate_cons_cons]

theorem parseList_formatList_iff (items : List Text) :
    parseList (formatList items) = .ok items ↔ ListReadable items := by
  unfold parseList formatList ListReadable
  rw [stripEnclosing_formatElements]
  simp only [Except.ok.injEq, parseCommaSeparated]
  by_cases none : items = []
  · subst none
    simp
  by_cases single : items = [[]]
  · subst single
    simp [escapeStr, isSpecial]
  have notBlank : items.map escapeStr ≠ [[]] := by
    intro blank
    cases items with
    | nil => exact none rfl
    | cons first rest =>
        cases rest with
        | cons => simp at blank
        | nil =>
            rw [List.map_singleton, List.singleton_inj] at blank
            refine single ?_
            unfold escapeStr at blank
            split at blank
            · cases blank
            · rw [blank]
  rw [intercalate_isEmpty_of_ne _ (by simpa using none) notBlank]
  have mapped : ∀ elements : List Text, elements.map unescapeStr =
      elements.filterMap fun element => some (unescapeStr element) := fun elements => by
    rw [← List.filterMap_eq_map]
    rfl
  rw [if_neg (by simp), mapped, filterMap_finish_eq_iff escapeStr balance
    (fun element => some (unescapeStr element)) Scanner.absorbs_escapeStr items none]
  simp [unescapeStr_trim_escapeStr_iff, single]

theorem absorbs_entry
    (sep : Text)
    (absorbsSep : Scanner.Absorbs sep 0)
    (entry : Text × Text) :
    Scanner.Absorbs (escapeStr entry.1 ++ (sep ++ escapeStr entry.2))
      (balance entry.1 + balance entry.2) := by
  have whole := (Scanner.absorbs_escapeStr entry.1).append
    (absorbsSep.append (Scanner.absorbs_escapeStr entry.2))
  have neutral : (0 : Int × Int) + balance entry.2 = balance entry.2 :=
    Prod.ext (Int.zero_add _) (Int.zero_add _)
  rwa [neutral] at whole

theorem decoded_entry_iff
    (entry : Text × Text)
    (result : Option (Text × Text))
    (decoded : result = some (unescapeStr (trim isWhitespace (escapeStr entry.1)),
      unescapeStr (trim isWhitespace (escapeStr entry.2)))) :
    result = some entry ↔ Trimmed entry.1 ∧ Trimmed entry.2 := by
  rw [decoded, Option.some_inj, Prod.ext_iff, unescapeStr_trim_escapeStr_iff,
    unescapeStr_trim_escapeStr_iff]

theorem parseMap_formatMap_iff (entries : List (Text × Text)) :
    parseMap (formatMap entries) = .ok entries ↔ EntriesReadable entries := by
  unfold parseMap formatMap EntriesReadable
  rw [stripEnclosing_formatElements]
  simp only [Except.ok.injEq, parseMapEntries, parseCommaSeparated]
  by_cases none : entries = []
  · subst none
    simp
  have notBlank : (entries.map fun entry => escapeStr entry.1 ++ '=' :: escapeStr entry.2) ≠
      [[]] := by
    intro blank
    have member : [] ∈ entries.map fun entry => escapeStr entry.1 ++ '=' :: escapeStr entry.2 := by
      simp [blank]
    simp at member
  have separator : Scanner.Absorbs ['='] 0 :=
    Scanner.absorbs_char '=' (by decide) (by decide)
  rw [intercalate_isEmpty_of_ne _ (by simpa using none) notBlank, if_neg (by simp),
    if_neg (by simp), filterMap_finish_eq_iff
      (fun entry => escapeStr entry.1 ++ '=' :: escapeStr entry.2) _ _
      (absorbs_entry ['='] separator) entries none]
  simp only [decoded_entry_iff _ _ (splitOnEquals_trim _)]

theorem parseStruct_formatStruct_iff (fields : IndexMap Text Text) :
    parseStruct (formatStruct fields) = .ok fields ↔ EntriesReadable fields.entries := by
  unfold parseStruct formatStruct EntriesReadable
  rw [stripEnclosing_formatElements]
  simp only [Except.ok.injEq, parseStructEntries, parseCommaSeparated]
  by_cases none : fields.entries = []
  · have empty : fields = .empty := IndexMap.ext none
    subst empty
    simp [IndexMap.empty]
  have notBlank : (fields.entries.map fun field =>
      escapeStr field.1 ++ ':' :: ' ' :: escapeStr field.2) ≠ [[]] := by
    intro blank
    have member : [] ∈ fields.entries.map fun field =>
        escapeStr field.1 ++ ':' :: ' ' :: escapeStr field.2 := by simp [blank]
    simp at member
  have separator : Scanner.Absorbs [':', ' '] 0 :=
    (Scanner.absorbs_char ':' (by decide) (by decide)).append
      (Scanner.absorbs_char ' ' (by decide) (by decide))
  have absorbs := absorbs_entry [':', ' '] separator
  have few := length_finish_elements
    (fun field => escapeStr field.1 ++ ':' :: ' ' :: escapeStr field.2) _ absorbs fields.entries none
  rw [intercalate_isEmpty_of_ne _ (by simpa using none) notBlank, if_neg (by simp),
    if_neg (by simp), IndexMap.ofList_eq_iff _ _
      ((List.length_filterMap_le _ _).trans few), filterMap_finish_eq_iff
      (fun field => escapeStr field.1 ++ ':' :: ' ' :: escapeStr field.2) _ _ absorbs
      fields.entries none]
  simp only [decoded_entry_iff _ _ (splitOnColon_trim _)]

/-- Exactly which lists, maps and structs of texts are read back from their text. -/
theorem parse_format_iff
    (items : List Text)
    (entries : List (Text × Text))
    (fields : IndexMap Text Text) :
    (parseList (formatList items) = .ok items ↔ ListReadable items) ∧
      (parseMap (formatMap entries) = .ok entries ↔ EntriesReadable entries) ∧
      (parseStruct (formatStruct fields) = .ok fields ↔ EntriesReadable fields.entries) :=
  ⟨parseList_formatList_iff items, parseMap_formatMap_iff entries,
    parseStruct_formatStruct_iff fields⟩

/-- A trailing blank is not quoted and gets lost. -/
theorem parse_format_blank :
    parseList (formatList ["a ".toList]) ≠ .ok ["a ".toList] := by
  decide

end Ducklake.Spec.Literals
