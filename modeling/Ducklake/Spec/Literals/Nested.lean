import Ducklake.Error
import Ducklake.Lib.IndexMap
import Ducklake.Lib.Trim
import Mathlib.Algebra.Group.Prod
import Mathlib.Algebra.Ring.Int.Defs

/-!
# Literals of nested values

The text form of lists, structs and maps of texts in `spec/literals/nested.rs`: a printer that
quotes when it has to and a scanner that keeps track of quotes and brackets.
-/

set_option autoImplicit false

namespace Ducklake.Spec.Literals

open Lib

def isWhitespace (c : Char) : Bool :=
  let code := c.toNat
  (9 ≤ code && code ≤ 13) || code == 32 || code == 0x85 || code == 0xA0 || code == 0x1680 ||
    (0x2000 ≤ code && code ≤ 0x200A) || code == 0x2028 || code == 0x2029 || code == 0x202F ||
    code == 0x205F || code == 0x3000

/-! ## Formatting -/

/-- The source escapes backslashes first, quotes second. -/
def escapeQuotes (s : Text) : Text :=
  (s.flatMap fun c => if c = '\\' then ['\\', '\\'] else [c]).flatMap fun c =>
    if c = '\'' then ['\\', '\''] else [c]

/-- Always quote a string with single quotes and escape internal quotes/backslashes. -/
def quoteStr (s : Text) : Text :=
  '\'' :: (escapeQuotes s ++ ['\''])

def isSpecial (s : Text) : Bool :=
  s.contains '\\' || s.contains '\'' || s.contains ',' || s.contains '=' || s.contains ':'

/-- Escape a string only if it contains special characters. -/
def escapeStr (s : Text) : Text :=
  if isSpecial s then quoteStr s else s

/-- Elements in brackets, joined by `, `. -/
def formatElements (opening closing : Char) (elements : List Text) : Text :=
  opening :: ([',', ' '].intercalate elements ++ [closing])

def formatList (items : List Text) : Text :=
  formatElements '[' ']' (items.map escapeStr)

def formatStruct (fields : IndexMap Text Text) : Text :=
  formatElements '{' '}' (fields.entries.map fun field =>
    escapeStr field.1 ++ ':' :: ' ' :: escapeStr field.2)

def formatMap (entries : List (Text × Text)) : Text :=
  formatElements '{' '}' (entries.map fun entry => escapeStr entry.1 ++ '=' :: escapeStr entry.2)

/-! ## Parsing -/

/-- `\\([\\'])` replaced by its group. -/
def unescapeQuotes : Text → Text
  | [] => []
  | [c] => [c]
  | c :: next :: rest =>
      if c = '\\' ∧ (next = '\\' ∨ next = '\'') then next :: unescapeQuotes rest
      else c :: unescapeQuotes (next :: rest)

/-- A text without a prefix and a suffix of one character. -/
def stripEnclosing (opening closing : Char) (s : Text) : Option Text :=
  match s with
  | [] => none
  | first :: rest =>
      if first = opening ∧ rest.getLast? = some closing then some rest.dropLast else none

/-- Unescape a string that may have been escaped by the corresponding formatter. -/
def unescapeStr (s : Text) : Text :=
  match stripEnclosing '\'' '\'' s with
  | some inner => unescapeQuotes inner
  | none => s

structure Scanner where
  elements : List Text
  current : Text
  inQuotes : Bool
  bracketDepth : Int
  braceDepth : Int
  deriving DecidableEq

namespace Scanner

def push (scanner : Scanner) (c : Char) : Scanner :=
  { scanner with current := scanner.current ++ [c] }

/-- One character that is not the first of an escape sequence. -/
def step (scanner : Scanner) (c : Char) : Scanner :=
  if scanner.inQuotes then
    { scanner.push c with inQuotes := c ≠ '\'' }
  else if c = '\'' then { scanner.push c with inQuotes := true }
  else if c = '[' then { scanner.push c with bracketDepth := scanner.bracketDepth + 1 }
  else if c = ']' then { scanner.push c with bracketDepth := scanner.bracketDepth - 1 }
  else if c = '{' then { scanner.push c with braceDepth := scanner.braceDepth + 1 }
  else if c = '}' then { scanner.push c with braceDepth := scanner.braceDepth - 1 }
  else if c = ',' ∧ scanner.bracketDepth = 0 ∧ scanner.braceDepth = 0 then
    { scanner with
      elements := scanner.elements ++ [trim isWhitespace scanner.current]
      current := [] }
  else scanner.push c

def scan : Scanner → Text → Scanner
  | scanner, [] => scanner
  | scanner, [c] => scanner.step c
  | scanner, c :: next :: rest =>
      if scanner.inQuotes = true ∧ c = '\\' ∧ (next = '\\' ∨ next = '\'') then
        scan ((scanner.push c).push next) rest
      else scan (scanner.step c) (next :: rest)

def start : Scanner :=
  { elements := [], current := [], inQuotes := false, bracketDepth := 0, braceDepth := 0 }

def finish (scanner : Scanner) : List Text :=
  scanner.elements ++ [trim isWhitespace scanner.current]

end Scanner

def parseCommaSeparated (s : Text) : List Text :=
  if s.isEmpty then [] else (Scanner.start.scan s).finish

/-- `(?:[^'{sep}]|'(?:[^'\\]|\\.)*')*` -/
def token (sep : Char) : Regex Char :=
  .star (.alt (.sym fun c => c != '\'' && c != sep)
    (.seq (.sym fun c => c == '\'')
      (.seq (.star (.alt (.sym fun c => c != '\'' && c != '\\')
        (.seq (.sym fun c => c == '\\') (.sym fun c => c != '\n'))))
        (.sym fun c => c == '\''))))

/-- The groups of `^({token})=({token})$`. -/
def splitOnEquals (s : Text) : Option (Text × Text) :=
  ((token '=').run s).findSome? fun rest =>
    match rest with
    | '=' :: value =>
        if (token '=').isFullMatch value then some (s.take (s.length - rest.length), value)
        else none
    | _ => none

/-- The second group behind a colon, with `: ?` tried greedily. -/
def afterColon (value : Text) : Option Text :=
  match value with
  | ' ' :: trimmed =>
      if (token ':').isFullMatch trimmed then some trimmed
      else if (token ':').isFullMatch value then some value else none
  | _ => if (token ':').isFullMatch value then some value else none

/-- The groups of `^({token}): ?({token})$`. -/
def splitOnColon (s : Text) : Option (Text × Text) :=
  ((token ':').run s).findSome? fun rest =>
    match rest with
    | ':' :: value => (afterColon value).map fun value => (s.take (s.length - rest.length), value)
    | _ => none

def unescapePair (pair : Text × Text) : Text × Text :=
  (unescapeStr (trim isWhitespace pair.1), unescapeStr (trim isWhitespace pair.2))

def parseStructEntries (s : Text) : IndexMap Text Text :=
  if s.isEmpty then .empty
  else IndexMap.ofList ((parseCommaSeparated s).filterMap fun entry =>
    (splitOnColon entry).map unescapePair)

def parseMapEntries (s : Text) : List (Text × Text) :=
  if s.isEmpty then []
  else (parseCommaSeparated s).filterMap fun entry => (splitOnEquals entry).map unescapePair

def parseList (s : Text) : DucklakeResult (List Text) :=
  match stripEnclosing '[' ']' s with
  | some inner => .ok ((parseCommaSeparated inner).map unescapeStr)
  | none => .error (.parsing ("list literal is not enclosed in brackets: ".toList ++ s))

def parseStruct (s : Text) : DucklakeResult (IndexMap Text Text) :=
  match stripEnclosing '{' '}' s with
  | some inner => .ok (parseStructEntries inner)
  | none => .error (.parsing ("struct literal is not enclosed in braces: ".toList ++ s))

def parseMap (s : Text) : DucklakeResult (List (Text × Text)) :=
  match stripEnclosing '{' '}' s with
  | some inner => .ok (parseMapEntries inner)
  | none => .error (.parsing ("map literal is not enclosed in braces: ".toList ++ s))

/-! ## Quoting -/

theorem isSpecial_eq_false_iff (s : Text) :
    isSpecial s = false ↔
      '\\' ∉ s ∧ '\'' ∉ s ∧ ',' ∉ s ∧ '=' ∉ s ∧ ':' ∉ s := by
  simp [isSpecial, and_assoc]

theorem escapeQuotes_cons (c : Char) (rest : Text) :
    escapeQuotes (c :: rest) =
      (if c = '\\' ∨ c = '\'' then ['\\', c] else [c]) ++ escapeQuotes rest := by
  by_cases slash : c = '\\'
  · simp [escapeQuotes, slash]
  · by_cases sign : c = '\''
    · simp [escapeQuotes, sign]
    · simp [escapeQuotes, slash, sign]

theorem unescapeQuotes_cons_of_ne (c : Char) (rest : Text) (plain : c ≠ '\\') :
    unescapeQuotes (c :: rest) = c :: unescapeQuotes rest := by
  cases rest with
  | nil => rfl
  | cons next rest => rw [unescapeQuotes, if_neg fun both => plain both.1]

theorem unescapeQuotes_escapeQuotes (s : Text) : unescapeQuotes (escapeQuotes s) = s := by
  induction s with
  | nil => rfl
  | cons c rest ih =>
      rw [escapeQuotes_cons]
      split
      · rename_i escaped
        rw [List.cons_append, List.cons_append, List.nil_append, unescapeQuotes,
          if_pos ⟨rfl, escaped⟩, ih]
      · rename_i plain
        rw [List.cons_append, List.nil_append, unescapeQuotes_cons_of_ne _ _ fun slash =>
          plain (Or.inl slash), ih]

theorem stripEnclosing_enclosed (opening closing : Char) (inner : Text) :
    stripEnclosing opening closing (opening :: (inner ++ [closing])) = some inner := by
  simp [stripEnclosing]

theorem unescapeStr_quoteStr (s : Text) : unescapeStr (quoteStr s) = s := by
  rw [unescapeStr, quoteStr, stripEnclosing_enclosed]
  exact unescapeQuotes_escapeQuotes s

theorem unescapeStr_of_notMem (s : Text) (plain : '\'' ∉ s) : unescapeStr s = s := by
  cases s with
  | nil => rfl
  | cons first rest =>
      have distinct : first ≠ '\'' := fun same => plain (by simp [same])
      simp [unescapeStr, stripEnclosing, distinct]

/-- Quoting protects from trimming; a text that is not quoted must have no blanks at its ends. -/
def Trimmed (s : Text) : Prop :=
  isSpecial s = true ∨ trim isWhitespace s = s

instance (s : Text) : Decidable (Trimmed s) :=
  inferInstanceAs (Decidable (_ ∨ _))

theorem trim_quoteStr (s : Text) : trim isWhitespace (quoteStr s) = quoteStr s :=
  trim_enclosed isWhitespace '\'' (escapeQuotes s) '\'' rfl rfl

theorem unescapeStr_trim_escapeStr_iff (s : Text) :
    unescapeStr (trim isWhitespace (escapeStr s)) = s ↔ Trimmed s := by
  unfold escapeStr Trimmed
  cases special : isSpecial s with
  | true => simp [trim_quoteStr, unescapeStr_quoteStr]
  | false =>
      have plain := ((isSpecial_eq_false_iff s).mp special).2.1
      have trimmedPlain : '\'' ∉ trim isWhitespace s := fun inside =>
        plain (trimStart_subset _ _ (trimEnd_subset _ _ inside))
      simp [unescapeStr_of_notMem _ trimmedPlain]

/-! ## Scanning -/

/-- How the brackets and braces of a text that is not quoted move the depths. -/
def balance (s : Text) : Int × Int :=
  if isSpecial s then 0
  else ((s.count '[' : Int) - s.count ']', (s.count '{' : Int) - s.count '}')

namespace Scanner

def absorb (scanner : Scanner) (text : Text) (depths : Int × Int) : Scanner :=
  { scanner with
    current := scanner.current ++ text
    bracketDepth := scanner.bracketDepth + depths.1
    braceDepth := scanner.braceDepth + depths.2 }

/-- Outside of quotes, scanning a text only appends it and moves the depths. -/
def Absorbs (text : Text) (depths : Int × Int) : Prop :=
  ∀ (scanner : Scanner) (rest : Text), scanner.inQuotes = false →
    scanner.scan (text ++ rest) = (scanner.absorb text depths).scan rest

theorem scan_cons_of_outside
    (scanner : Scanner)
    (c : Char)
    (rest : Text)
    (outside : scanner.inQuotes = false) :
    scanner.scan (c :: rest) = (scanner.step c).scan rest := by
  cases rest with
  | nil => rfl
  | cons next rest => rw [scan, if_neg fun both => by simp [outside] at both]

theorem scan_cons_of_ne
    (scanner : Scanner)
    (c : Char)
    (rest : Text)
    (plain : c ≠ '\\') :
    scanner.scan (c :: rest) = (scanner.step c).scan rest := by
  cases rest with
  | nil => rfl
  | cons next rest => rw [scan, if_neg fun both => plain both.2.1]

theorem Absorbs.nil : Absorbs [] 0 := by
  intro scanner rest _
  simp [absorb]

theorem Absorbs.append
    {first second : Text}
    {firstDepths secondDepths : Int × Int}
    (absorbsFirst : Absorbs first firstDepths)
    (absorbsSecond : Absorbs second secondDepths) :
    Absorbs (first ++ second) (firstDepths + secondDepths) := by
  intro scanner rest outside
  rw [List.append_assoc, absorbsFirst scanner _ outside,
    absorbsSecond (scanner.absorb first firstDepths) rest outside]
  simp [absorb, Int.add_assoc]

theorem absorbs_char
    (c : Char)
    (noQuote : c ≠ '\'')
    (noComma : c ≠ ',') :
    Absorbs [c] (([c].count '[' : Int) - [c].count ']', ([c].count '{' : Int) - [c].count '}') := by
  intro scanner rest outside
  rw [List.singleton_append, scan_cons_of_outside _ _ _ outside]
  refine congrArg (fun state => scan state rest) ?_
  unfold step
  rw [if_neg (by simp [outside]), if_neg noQuote]
  split
  · rename_i same
    simp [same, push, absorb]
  · split
    · rename_i _ same
      simp [same, push, absorb]
      omega
    · split
      · rename_i _ _ same
        simp [same, push, absorb]
      · split
        · rename_i _ _ _ same
          simp [same, push, absorb]
          omega
        · rename_i first second third fourth
          rw [if_neg fun both => noComma both.1]
          simp [push, absorb, first, second, third, fourth]

theorem absorbs_plain
    (s : Text)
    (noQuote : '\'' ∉ s)
    (noComma : ',' ∉ s) :
    Absorbs s ((s.count '[' : Int) - s.count ']', (s.count '{' : Int) - s.count '}') := by
  induction s with
  | nil => exact Absorbs.nil
  | cons c rest ih =>
      rw [List.mem_cons, not_or] at noQuote noComma
      have head := absorbs_char c (Ne.symm noQuote.1) (Ne.symm noComma.1)
      have whole := head.append (ih noQuote.2 noComma.2)
      have depths : ∀ d : Char, ((c :: rest).count d : Int) = [c].count d + rest.count d := by
        intro d
        rw [← List.singleton_append, List.count_append]
        exact Int.natCast_add _ _
      rw [List.singleton_append] at whole
      simp only [depths]
      convert whole using 1
      simp only [Prod.mk_add_mk, Prod.mk.injEq]
      constructor <;> omega

theorem scan_escapeQuotes
    (s rest : Text)
    (scanner : Scanner)
    (inside : scanner.inQuotes = true) :
    scanner.scan (escapeQuotes s ++ '\'' :: rest) =
      ({ scanner with
        current := scanner.current ++ escapeQuotes s ++ ['\'']
        inQuotes := false } : Scanner).scan rest := by
  induction s generalizing scanner with
  | nil =>
      rw [escapeQuotes, List.flatMap_nil, List.flatMap_nil, List.nil_append,
        scan_cons_of_ne _ _ _ (by decide)]
      simp [step, inside, push]
  | cons c tail ih =>
      rw [escapeQuotes_cons]
      split
      · rename_i escaped
        change scanner.scan ('\\' :: c :: (escapeQuotes tail ++ '\'' :: rest)) = _
        rw [scan, if_pos ⟨inside, rfl, escaped⟩, ih ((scanner.push '\\').push c) inside]
        simp [push]
      · rename_i plain
        rw [not_or] at plain
        have stays : (scanner.step c).inQuotes = true := by simp [step, inside, plain.2]
        rw [List.cons_append, List.nil_append, List.cons_append, scan_cons_of_ne _ _ _ plain.1,
          ih _ stays]
        simp [step, inside, push]

theorem absorbs_quoteStr (s : Text) : Absorbs (quoteStr s) 0 := by
  intro scanner rest outside
  have opened : (scanner.step '\'').inQuotes = true := by simp [step, outside, push]
  rw [quoteStr, List.cons_append, List.append_assoc, scan_cons_of_outside _ _ _ outside,
    List.singleton_append, scan_escapeQuotes _ _ _ opened]
  simp [step, outside, push, absorb]

theorem absorbs_escapeStr (s : Text) : Absorbs (escapeStr s) (balance s) := by
  unfold escapeStr balance
  cases special : isSpecial s with
  | true => exact absorbs_quoteStr s
  | false =>
      obtain ⟨_, noQuote, noComma, _⟩ := (isSpecial_eq_false_iff s).mp special
      exact absorbs_plain s noQuote noComma

/-! ## Elements -/

section

variable {α : Type} (text : α → Text) (depths : α → Int × Int)

/-- The scanner behind elements that are separated by `, `. -/
def settle (scanner : Scanner) : List α → Scanner
  | [] => scanner
  | [item] => scanner.absorb (text item) (depths item)
  | item :: next :: rest =>
      settle (((scanner.absorb (text item) (depths item)).step ',').push ' ') (next :: rest)

theorem step_comma_outside
    (scanner : Scanner)
    (outside : scanner.inQuotes = false) :
    (scanner.step ',').inQuotes = false ∧ (scanner.step ',').bracketDepth = scanner.bracketDepth ∧
      (scanner.step ',').braceDepth = scanner.braceDepth := by
  unfold step
  rw [if_neg (by simp [outside]), if_neg (by decide), if_neg (by decide), if_neg (by decide),
    if_neg (by decide), if_neg (by decide)]
  split <;> simp [push, outside]

theorem scan_elements
    (absorbs : ∀ item, Absorbs (text item) (depths item))
    (items : List α)
    (scanner : Scanner)
    (outside : scanner.inQuotes = false) :
    scanner.scan ([',', ' '].intercalate (items.map text)) = scanner.settle text depths items := by
  induction items generalizing scanner with
  | nil => rfl
  | cons item rest ih =>
      cases rest with
      | nil =>
          have absorbed := absorbs item scanner [] outside
          rw [List.append_nil] at absorbed
          simpa [settle, scan] using absorbed
      | cons next rest =>
          have apart := (step_comma_outside (scanner.absorb (text item) (depths item)) outside).1
          have shape : [',', ' '].intercalate ((item :: next :: rest).map text) =
              text item ++ ',' :: ' ' :: [',', ' '].intercalate ((next :: rest).map text) := by
            simp [List.intercalate_cons_cons]
          have blank : ∀ state : Scanner, state.inQuotes = false → state.step ' ' = state.push ' ' := by
            intro state plain
            simp [step, plain]
          rw [shape, absorbs item scanner _ outside,
            scan_cons_of_outside (scanner.absorb (text item) (depths item)) _ _ outside,
            scan_cons_of_outside _ _ _ apart, blank _ apart, ih (Scanner.push _ ' ') apart, settle]

theorem finish_settle
    (items : List α)
    (scanner : Scanner)
    (outside : scanner.inQuotes = false)
    (level : scanner.bracketDepth = 0 ∧ scanner.braceDepth = 0)
    (balanced : ∀ item ∈ items.dropLast, depths item = 0)
    (pending : ∀ suffix, trim isWhitespace (scanner.current ++ suffix) = trim isWhitespace suffix)
    (filled : items ≠ []) :
    (scanner.settle text depths items).finish =
      scanner.elements ++ items.map fun item => trim isWhitespace (text item) := by
  induction items generalizing scanner with
  | nil => exact absurd rfl filled
  | cons item rest ih =>
      cases rest with
      | nil => simp [settle, finish, absorb, pending]
      | cons next rest =>
          have still : depths item = 0 := balanced item (by simp)
          have later : ∀ other ∈ (next :: rest).dropLast, depths other = 0 := fun other member =>
            balanced other (List.mem_cons_of_mem _ member)
          have split : ((scanner.absorb (text item) (depths item)).step ',').push ' ' =
              { scanner with
                elements := scanner.elements ++ [trim isWhitespace (text item)]
                current := [' '] } := by
            simp [step, absorb, outside, level, still, pending, push]
          have blank : ∀ suffix : Text,
              trim isWhitespace ([' '] ++ suffix) = trim isWhitespace suffix := fun suffix =>
            trim_cons_blank isWhitespace ' ' suffix rfl
          rw [settle, split, ih { scanner with
            elements := scanner.elements ++ [trim isWhitespace (text item)]
            current := [' '] } outside level later blank (by simp)]
          simp

theorem length_finish_settle
    (items : List α)
    (scanner : Scanner)
    (outside : scanner.inQuotes = false)
    (filled : items ≠ []) :
    (scanner.settle text depths items).finish.length ≤ scanner.elements.length + items.length := by
  induction items generalizing scanner with
  | nil => exact absurd rfl filled
  | cons item rest ih =>
      cases rest with
      | nil => simp [settle, finish, absorb]
      | cons next rest =>
          have apart := (step_comma_outside (scanner.absorb (text item) (depths item)) outside).1
          have bound := ih (((scanner.absorb (text item) (depths item)).step ',').push ' ') apart
            (by simp)
          have grown : ((scanner.absorb (text item) (depths item)).step ',').elements.length ≤
              scanner.elements.length + 1 := by
            unfold step
            rw [if_neg (by simp [absorb, outside])]
            repeat' split
            all_goals simp [push, absorb]
          rw [settle]
          simp only [push, List.length_cons] at bound ⊢
          omega

theorem balanced_of_length
    (items : List α)
    (scanner : Scanner)
    (outside : scanner.inQuotes = false)
    (level : scanner.bracketDepth = 0 ∧ scanner.braceDepth = 0)
    (complete : scanner.elements.length + items.length ≤
      (scanner.settle text depths items).finish.length) :
    ∀ item ∈ items.dropLast, depths item = 0 := by
  induction items generalizing scanner with
  | nil => simp
  | cons item rest ih =>
      cases rest with
      | nil => simp
      | cons next rest =>
          have apart := step_comma_outside (scanner.absorb (text item) (depths item)) outside
          rw [settle] at complete
          have bound := length_finish_settle text depths (next :: rest)
            (((scanner.absorb (text item) (depths item)).step ',').push ' ') apart.1 (by simp)
          by_cases still : depths item = 0
          · have split : ((scanner.absorb (text item) (depths item)).step ',').push ' ' =
                { scanner with
                  elements := scanner.elements ++
                    [trim isWhitespace (scanner.current ++ text item)]
                  current := [' '] } := by
              simp [step, absorb, outside, level, still, push]
            rw [split] at complete
            have later := ih { scanner with
              elements := scanner.elements ++ [trim isWhitespace (scanner.current ++ text item)]
              current := [' '] } outside level (by
                simp only [List.length_append, List.length_cons, List.length_nil] at complete ⊢
                omega)
            intro other member
            rcases List.mem_cons.mp member with rfl | inside
            · exact still
            · exact later other inside
          · have moved : ¬(scanner.bracketDepth + (depths item).1 = 0 ∧
                scanner.braceDepth + (depths item).2 = 0) := by
              rw [level.1, level.2, Int.zero_add, Int.zero_add]
              exact fun both => still (Prod.ext both.1 both.2)
            have kept : ((scanner.absorb (text item) (depths item)).step ',').elements =
                scanner.elements := by
              simp [step, absorb, outside, moved, push]
            simp only [push, kept, List.length_cons] at bound complete
            omega

end

end Scanner

end Ducklake.Spec.Literals
