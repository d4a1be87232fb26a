import Mathlib.Data.List.DropRight
import Ducklake.Io.Conversion
import Ducklake.Lib.Except
import Ducklake.Lib.Search
import Ducklake.Spec.Literals.Times

/-!
# Intervals

The text form of `Interval` in `spec/literals/date.rs`.
-/

set_option autoImplicit false

namespace Ducklake.Spec.Literals

open Lib

/-! ## Values -/

/-- A time delta of the calendar library: whole nanoseconds within `i64::MAX` milliseconds. -/
structure TimeDelta where
  nanoseconds : Int
  lower : -((2 ^ 63 - 1) * 1000000) ≤ nanoseconds
  upper : nanoseconds ≤ (2 ^ 63 - 1) * 1000000
  deriving DecidableEq

namespace TimeDelta

def zero : TimeDelta :=
  ⟨0, by decide, by decide⟩

def isZero (delta : TimeDelta) : Bool :=
  delta.nanoseconds == 0

/-- `TimeDelta::microseconds`, which takes any `i64`. -/
def microseconds (micros : Int) : DucklakeResult TimeDelta :=
  if fits : -2 ^ 63 ≤ micros ∧ micros < 2 ^ 63 then
    .ok ⟨micros * 1000, by omega, by omega⟩
  else .error (.panicked "TimeDelta::microseconds".toList)

/-- The whole microseconds towards zero, if they fit an `i64`. -/
def numMicroseconds (delta : TimeDelta) : Option Int :=
  let micros := delta.nanoseconds.tdiv 1000
  if -2 ^ 63 ≤ micros ∧ micros < 2 ^ 63 then some micros else none

end TimeDelta

/-- Months are a `u32`. -/
structure Interval where
  months : Nat
  delta : TimeDelta
  monthsFit : months < 2 ^ 32
  deriving DecidableEq

namespace Interval

/-! ## Parsing -/

def word : Text → Regex Char
  | [] => .eps
  | c :: rest => .seq (character c) (word rest)

/-- `(\d+) unit s?` -/
def unitPattern (unit : Text) : Regex Char :=
  .seq (.plus decimalDigit) (.seq (word (' ' :: unit)) (.alt (character 's') .eps))

/-- `(?:\.(\d{1,6}))?` -/
def fractionPattern : Regex Char :=
  .alt (.seq (character '.') (.seq decimalDigit (Regex.upTo decimalDigit 5))) .eps

/-- `(\d{2}):(\d{2}):(\d{2})(?:\.(\d{1,6}))?` -/
def deltaPattern : Regex Char :=
  .seq decimalDigit (.seq decimalDigit (.seq (character ':')
    (.seq decimalDigit (.seq decimalDigit (.seq (character ':')
      (.seq decimalDigit (.seq decimalDigit fractionPattern)))))))

/-- `str::parse` of digits into an integer type below `bound`: only ASCII digits are read. -/
def parseInt (bound : Nat) (digits : Text) : DucklakeResult Nat :=
  match readNat digits with
  | none => .error (.parsing "invalid digit found in string".toList)
  | some n =>
      if n < bound then .ok n
      else .error (.parsing "number too large to fit in target type".toList)

/-- The number in front of a unit; the first group is the digits at the front of the match. -/
def parseUnit (bound : Nat) (unit s : Text) : DucklakeResult Nat :=
  match (unitPattern unit).find s with
  | none => .ok 0
  | some found => parseInt bound (found.takeWhile isDecimalDigit)

/-- `{:0<6}` -/
def padRight (width : Nat) (digits : Text) : Text :=
  digits ++ List.replicate (width - digits.length) '0'

/-- The microseconds of a match of the last pattern, whose groups stand at fixed places. -/
def parseClock (found : Text) : DucklakeResult Nat := do
  let hours ← parseInt (2 ^ 63) (found.take 2)
  let minutes ← parseInt (2 ^ 63) ((found.drop 3).take 2)
  let secs ← parseInt (2 ^ 63) ((found.drop 6).take 2)
  let micros ←
    if 8 < found.length then parseInt (2 ^ 63) (padRight 6 (found.drop 9)) else .ok 0
  .ok ((hours * 3600 + minutes * 60 + secs) * 1000000 + micros)

def parseDelta (s : Text) : DucklakeResult Nat :=
  match deltaPattern.find s with
  | none => .ok 0
  | some found => parseClock found

/-- `Months::new` of a sum of `u32`s, which panics on overflow. -/
def newMonths (months : Nat) (delta : TimeDelta) : DucklakeResult Interval :=
  if fits : months < 2 ^ 32 then .ok ⟨months, delta, fits⟩
  else .error (.panicked "attempt to compute with overflow".toList)

def parse (s : Text) : DucklakeResult Interval := do
  let numYears ← parseUnit (2 ^ 32) "year".toList s
  let numMonths ← parseUnit (2 ^ 32) "month".toList s
  let numDays ← parseUnit (2 ^ 63) "day".toList s
  let numMicroseconds ← parseDelta s
  let interval ← newMonths (numYears * 12 + numMonths) .zero
  let days ← Io.checkedI64 (numDays * 86400000000)
  let micros ← Io.checkedI64 (days + numMicroseconds)
  let delta ← TimeDelta.microseconds micros
  .ok { interval with delta := delta }

/-! ## Formatting -/

def formatSingularPlural (name : Text) (count : Nat) : Text :=
  if count > 1 then Nat.toDigits 10 count ++ ' ' :: name ++ ['s']
  else Nat.toDigits 10 count ++ ' ' :: name

/-- `push_str`, behind a blank if there is something in front. -/
def pushSpaced (result text : Text) : Text :=
  if result.isEmpty then text else result ++ ' ' :: text

def formatIntervalMonths (months : Nat) : Text :=
  let numYears := months / 12
  let numMonths := months % 12
  let result := if numYears > 0 then formatSingularPlural "year".toList numYears else []
  if numMonths > 0 then pushSpaced result (formatSingularPlural "month".toList numMonths)
  else result

/-- `trim_end_matches('0')` -/
def trimZeros (digits : Text) : Text :=
  digits.rdropWhile fun c => c == '0'

def formatFraction (micros : Nat) : Text :=
  if micros > 0 then '.' :: trimZeros (padded 6 micros) else []

def formatIntervalMicroseconds (micros : Nat) : Text :=
  let hours := micros / 3600000000
  let minutes := micros % 3600000000 / 60000000
  let seconds := micros % 60000000 / 1000000
  padded 2 hours ++ ':' :: padded 2 minutes ++ ':' :: padded 2 seconds ++
    formatFraction (micros % 1000000)

/-- `num_microseconds().unwrap_or(0) as u64` -/
def shownMicroseconds (delta : TimeDelta) : Nat :=
  ((delta.numMicroseconds.getD 0) % 2 ^ 64).toNat

def format (value : Interval) : Text :=
  let result := formatIntervalMonths value.months
  if value.delta.isZero then result
  else pushSpaced result (formatIntervalMicroseconds (shownMicroseconds value.delta))

/-! ## Searching for a unit -/

theorem matches_word_iff (text found : Text) : Regex.Matches (word text) found ↔ found = text := by
  induction text generalizing found with
  | nil =>
      constructor
      · rintro ⟨⟩
        rfl
      · rintro rfl
        exact .eps
  | cons c rest ih =>
      rw [word, Regex.matches_seq_iff]
      constructor
      · rintro ⟨left, right, leftMatch, rightMatch, rfl⟩
        obtain ⟨symbol, same, rfl⟩ := (Regex.matches_sym_iff _ left).mp leftMatch
        rw [(ih right).mp rightMatch, eq_of_beq same]
        rfl
      · rintro rfl
        exact ⟨[c], rest, .sym (beq_self_eq_true c), (ih rest).mpr rfl, rfl⟩

theorem matches_plus_sym_iff (accepts : Char → Bool) (found : Text) :
    Regex.Matches (.plus (.sym accepts)) found ↔
      found ≠ [] ∧ ∀ c ∈ found, accepts c = true := by
  have flat : ∀ words : List Text, (∀ part ∈ words, Regex.Matches (.sym accepts) part) →
      ∀ c ∈ words.flatten, accepts c = true := by
    intro words all c member
    obtain ⟨part, inside, member⟩ := List.mem_flatten.mp member
    obtain ⟨symbol, accepted, rfl⟩ := (Regex.matches_sym_iff accepts part).mp (all part inside)
    rwa [List.mem_singleton.mp member]
  rw [Regex.plus, Regex.matches_seq_iff]
  constructor
  · rintro ⟨left, right, leftMatch, rightMatch, rfl⟩
    obtain ⟨symbol, accepted, rfl⟩ := (Regex.matches_sym_iff accepts left).mp leftMatch
    obtain ⟨words, all, rfl⟩ := (Regex.matches_star_iff _ right).mp rightMatch
    refine ⟨List.cons_ne_nil _ _, fun c member => ?_⟩
    rcases List.mem_cons.mp member with rfl | later
    · exact accepted
    · exact flat words all c later
  · rintro ⟨filled, all⟩
    obtain ⟨symbol, rest, rfl⟩ := List.exists_cons_of_ne_nil filled
    refine ⟨[symbol], rest, .sym (all symbol List.mem_cons_self), ?_, rfl⟩
    refine (Regex.matches_star_iff _ rest).mpr ⟨rest.map fun c => [c], ?_, ?_⟩
    · intro part member
      obtain ⟨c, inside, rfl⟩ := List.mem_map.mp member
      exact .sym (all c (List.mem_cons_of_mem _ inside))
    · simp [← List.flatMap_def]

theorem matches_unitPattern
    (unit found : Text)
    (matched : Regex.Matches (unitPattern unit) found) :
    ∃ digits tail, digits ≠ [] ∧ (∀ c ∈ digits, isDecimalDigit c = true) ∧
      found = digits ++ ' ' :: (unit ++ tail) := by
  obtain ⟨digits, rest, digitsMatch, restMatch, rfl⟩ := (Regex.matches_seq_iff _ _ _).mp matched
  obtain ⟨name, tail, nameMatch, _, rfl⟩ := (Regex.matches_seq_iff _ _ _).mp restMatch
  obtain ⟨filled, decimal⟩ := (matches_plus_sym_iff _ _).mp digitsMatch
  rw [(matches_word_iff _ _).mp nameMatch]
  exact ⟨digits, tail, filled, decimal, rfl⟩

theorem run_unitPattern_ne_nil
    (unit digits rest : Text)
    (filled : digits ≠ [])
    (decimal : ∀ c ∈ digits, isDecimalDigit c = true) :
    (unitPattern unit).run (digits ++ ' ' :: (unit ++ rest)) ≠ [] := by
  have matched : Regex.Matches (unitPattern unit) (digits ++ ((' ' :: unit) ++ [])) :=
    .seq ((matches_plus_sym_iff _ _).mpr ⟨filled, decimal⟩)
      (.seq ((matches_word_iff _ _).mpr rfl) (.altRight .eps))
  have inside := Regex.run_complete _ _ rest matched
  rw [List.append_nil, List.append_assoc, List.cons_append] at inside
  exact List.ne_nil_of_mem inside

theorem isDecimalDigit_space : isDecimalDigit ' ' = false := by
  decide

theorem takeWhile_digits
    (digits rest : Text)
    (decimal : ∀ c ∈ digits, isDecimalDigit c = true) :
    (digits ++ ' ' :: rest).takeWhile isDecimalDigit = digits := by
  rw [List.takeWhile_append_of_pos decimal,
    List.takeWhile_cons_of_neg (by simp [isDecimalDigit_space]), List.append_nil]

/-- The digits in front of the first blank decide what is behind them. -/
theorem digits_inj
    (digits digits' rest rest' : Text)
    (decimal : ∀ c ∈ digits, isDecimalDigit c = true)
    (decimal' : ∀ c ∈ digits', isDecimalDigit c = true)
    (same : digits ++ ' ' :: rest = digits' ++ ' ' :: rest') :
    digits = digits' ∧ rest = rest' := by
  have front := congrArg (List.takeWhile isDecimalDigit) same
  rw [takeWhile_digits digits rest decimal, takeWhile_digits digits' rest' decimal'] at front
  subst front
  exact ⟨rfl, (List.cons.inj (List.append_cancel_left same)).2⟩

theorem parseUnit_here
    (bound : Nat)
    (unit digits rest : Text)
    (filled : digits ≠ [])
    (decimal : ∀ c ∈ digits, isDecimalDigit c = true) :
    parseUnit bound unit (digits ++ ' ' :: (unit ++ rest)) = parseInt bound digits := by
  have consumes : ¬ Regex.Matches (unitPattern unit) [] := by
    intro matched
    obtain ⟨_, _, _, _, empty⟩ := matches_unitPattern unit [] matched
    simp at empty
  obtain ⟨found, behind, first, _, matched, whole⟩ := Regex.find_of_run _ _ consumes
    (run_unitPattern_ne_nil unit digits rest filled decimal)
  obtain ⟨digits', tail, _, decimal', rfl⟩ := matches_unitPattern unit found matched
  rw [List.append_assoc, List.cons_append] at whole
  obtain ⟨rfl, _⟩ := digits_inj _ _ _ _ decimal decimal' whole
  rw [parseUnit, first]
  exact congrArg (parseInt bound) (takeWhile_digits digits _ decimal)

theorem parseUnit_missing
    (bound : Nat)
    (unit s : Text)
    (needed : Char)
    (inUnit : needed ∈ unit)
    (missing : needed ∉ s) :
    parseUnit bound unit s = .ok 0 := by
  have none : (unitPattern unit).find s = none := by
    refine Regex.find_eq_none_of_missing _ s needed (fun found matched => ?_) missing
    obtain ⟨digits, tail, _, _, rfl⟩ := matches_unitPattern unit found matched
    simp [inUnit]
  rw [parseUnit, none]

theorem parseUnit_behind
    (bound : Nat)
    (unit digits other s : Text)
    (decimal : ∀ c ∈ digits, isDecimalDigit c = true)
    (plain : ∀ c ∈ other, isDecimalDigit c = false)
    (apart : ¬ unit <+: other ++ s) :
    parseUnit bound unit (digits ++ ' ' :: other ++ s) = parseUnit bound unit s := by
  have skipped : (unitPattern unit).find (digits ++ ' ' :: other ++ s) =
      (unitPattern unit).find s := by
    refine Regex.find_append _ _ s fun symbol tail suffix => ?_
    by_contra runs
    obtain ⟨rest, inside⟩ := List.exists_mem_of_ne_nil _ runs
    obtain ⟨found, matched, whole⟩ := Regex.run_sound _ _ rest inside
    obtain ⟨digits', more, filled, decimal', rfl⟩ := matches_unitPattern unit found matched
    obtain ⟨first, others, rfl⟩ := List.exists_cons_of_ne_nil filled
    have starts : isDecimalDigit symbol = true := by
      rw [(List.cons.inj whole).1]
      exact decimal' first List.mem_cons_self
    obtain ⟨before, split⟩ := suffix
    rcases List.append_eq_append_iff.mp split with ⟨own, digitsEq, tailEq⟩ | ⟨own, _, tailEq⟩
    · have ownDecimal : ∀ c ∈ own, isDecimalDigit c = true := by
        intro c member
        refine decimal c ?_
        rw [digitsEq]
        exact List.mem_append_right _ member
      rw [tailEq, List.append_assoc, List.cons_append, List.append_assoc, List.cons_append] at whole
      obtain ⟨_, same⟩ := digits_inj _ _ _ _ ownDecimal decimal' whole
      exact apart ⟨more ++ rest, (List.append_assoc _ _ _).symm.trans same.symm⟩
    · have inOther : symbol ∈ ' ' :: other := by
        rw [tailEq]
        simp
      rcases List.mem_cons.mp inOther with rfl | member
      · cases isDecimalDigit_space.symm.trans starts
      · cases (plain symbol member).symm.trans starts
  rw [parseUnit, skipped]
  rfl

/-! ## The clock -/

theorem matches_deltaPattern
    (found : Text)
    (matched : Regex.Matches deltaPattern found) :
    ∃ first second rest, isDecimalDigit first = true ∧ isDecimalDigit second = true ∧
      found = first :: second :: ':' :: rest := by
  unfold deltaPattern decimalDigit character at matched
  simp only [Regex.matches_seq_iff, Regex.matches_sym_iff] at matched
  obtain ⟨_, _, ⟨first, firstDigit, rfl⟩, ⟨_, _, ⟨second, secondDigit, rfl⟩,
    ⟨_, rest, ⟨colon, same, rfl⟩, _, rfl⟩, rfl⟩, rfl⟩ := matched
  exact ⟨first, second, rest, firstDigit, secondDigit, by rw [eq_of_beq same]; rfl⟩

theorem parseDelta_missing
    (s : Text)
    (missing : ':' ∉ s) :
    parseDelta s = .ok 0 := by
  have none : deltaPattern.find s = none := by
    refine Regex.find_eq_none_of_missing _ s ':' (fun found matched => ?_) missing
    obtain ⟨_, _, _, _, _, rfl⟩ := matches_deltaPattern found matched
    simp
  rw [parseDelta, none]

/-- A match has two symbols in front of the first colon, so everything before these is passed
over. -/
theorem parseDelta_behind
    (front rest : Text)
    (first second : Char)
    (plain : ':' ∉ front)
    (firstDigit : first ≠ ':')
    (secondDigit : second ≠ ':') :
    parseDelta (front ++ first :: second :: ':' :: rest) =
      parseDelta (first :: second :: ':' :: rest) := by
  have skipped : deltaPattern.find (front ++ first :: second :: ':' :: rest) =
      deltaPattern.find (first :: second :: ':' :: rest) := by
    refine Regex.find_append _ front _ fun symbol tail suffix => ?_
    by_contra runs
    obtain ⟨behind, inside⟩ := List.exists_mem_of_ne_nil _ runs
    obtain ⟨found, matched, whole⟩ := Regex.run_sound _ _ behind inside
    obtain ⟨tens, ones, more, tensDigit, onesDigit, rfl⟩ := matches_deltaPattern found matched
    have inFront : ∀ c ∈ symbol :: tail, c ≠ ':' := fun c member same =>
      plain (suffix.subset (same ▸ member))
    rw [List.cons_append] at whole
    cases tail with
    | nil => exact secondDigit (List.cons.inj (List.cons.inj (List.cons.inj whole).2).2).1
    | cons next tail =>
        cases tail with
        | nil => exact firstDigit (List.cons.inj (List.cons.inj (List.cons.inj whole).2).2).1
        | cons last tail =>
            exact inFront last (by simp) (List.cons.inj (List.cons.inj (List.cons.inj whole).2).2).1
  rw [parseDelta, parseDelta, skipped]

theorem padRight_trimZeros (digits : Text) :
    padRight digits.length (trimZeros digits) = digits := by
  have zeros : digits.rtakeWhile (fun c => c == '0') =
      List.replicate (digits.rtakeWhile fun c => c == '0').length '0' := by
    refine List.eq_replicate_of_mem fun c member => ?_
    exact eq_of_beq (List.mem_rtakeWhile_imp (p := fun c => c == '0') member)
  have split := List.rdropWhile_append_rtakeWhile (p := fun c => c == '0') (l := digits)
  have length := congrArg List.length split
  rw [List.length_append] at length
  rw [padRight, trimZeros, (by omega : digits.length - (digits.rdropWhile fun c => c == '0').length =
    (digits.rtakeWhile fun c => c == '0').length), ← zeros, split]

theorem trimZeros_cuts (digits : Text) : trimZeros digits <+: digits :=
  List.rdropWhile_prefix _ digits

theorem trimZeros_padded_ne_nil
    (micros : Nat)
    (positive : 0 < micros) :
    trimZeros (padded 6 micros) ≠ [] := by
  intro empty
  have zeros := List.rdropWhile_eq_nil_iff.mp empty
  have all : padded 6 micros = List.replicate (padded 6 micros).length '0' :=
    List.eq_replicate_of_mem fun c member => eq_of_beq (zeros c member)
  have read := readNat_padded 6 micros
  rw [all, readNat] at read
  split at read
  · rw [Nat.ofDigitChars_replicate_zero, Nat.mul_zero] at read
    exact Nat.ne_of_lt positive (Option.some.inj read)
  · cases read

theorem head?_run_fractionPattern
    (micros : Nat)
    (fits : micros < 1000000) :
    (fractionPattern.run (formatFraction micros)).head? = some [] := by
  by_cases positive : micros > 0
  · obtain ⟨first, rest, shape⟩ :=
      List.exists_cons_of_ne_nil (trimZeros_padded_ne_nil micros positive)
    have cut := trimZeros_cuts (padded 6 micros)
    have decimal : ∀ c ∈ first :: rest, isDecimalDigit c = true := fun c member =>
      isDecimalDigit_of_isDigit c
        (isDigit_of_mem_padded 6 micros c (cut.subset (by rw [shape]; exact member)))
    have short := cut.length_le
    rw [length_padded 6 micros (by decide) fits, shape, List.length_cons] at short
    have whole := Regex.head?_run_upTo isDecimalDigit 5 rest
      (fun c member => decimal c (List.mem_cons_of_mem _ member)) (by omega)
    rw [formatFraction, if_pos positive, shape]
    simp only [fractionPattern, character, decimalDigit, Regex.run, beq_self_eq_true, if_true,
      decimal first List.mem_cons_self, List.flatMap_cons, List.flatMap_nil, List.append_nil,
      List.head?_append, whole, Option.some_or]
  · rw [formatFraction, if_neg positive]
    rfl

theorem parseDelta_clock
    (hours minutes seconds micros : Nat)
    (hoursFit : hours < 100)
    (minutesFit : minutes < 100)
    (secondsFit : seconds < 100)
    (microsFit : micros < 1000000) :
    parseDelta (padded 2 hours ++ ':' :: padded 2 minutes ++ ':' :: padded 2 seconds ++
        formatFraction micros) =
      .ok ((hours * 3600 + minutes * 60 + seconds) * 1000000 + micros) := by
  obtain ⟨h1, h2, hoursEq, h1Digit, h2Digit⟩ := padded_two hours hoursFit
  obtain ⟨m1, m2, minutesEq, m1Digit, m2Digit⟩ := padded_two minutes minutesFit
  obtain ⟨s1, s2, secondsEq, s1Digit, s2Digit⟩ := padded_two seconds secondsFit
  have hoursRead := readNat_padded 2 hours
  have minutesRead := readNat_padded 2 minutes
  have secondsRead := readNat_padded 2 seconds
  rw [hoursEq] at hoursRead ⊢
  rw [minutesEq] at minutesRead ⊢
  rw [secondsEq] at secondsRead ⊢
  simp only [List.cons_append, List.nil_append]
  have first : (deltaPattern.run (h1 :: h2 :: ':' :: m1 :: m2 :: ':' :: s1 :: s2 ::
      formatFraction micros)).head? = some [] := by
    simp only [deltaPattern, decimalDigit, character, Regex.run, isDecimalDigit_of_isDigit _ h1Digit,
      isDecimalDigit_of_isDigit _ h2Digit, isDecimalDigit_of_isDigit _ m1Digit,
      isDecimalDigit_of_isDigit _ m2Digit, isDecimalDigit_of_isDigit _ s1Digit,
      isDecimalDigit_of_isDigit _ s2Digit, beq_self_eq_true, if_true, List.flatMap_cons,
      List.flatMap_nil, List.append_nil]
    exact head?_run_fractionPattern micros microsFit
  have found : deltaPattern.find (h1 :: h2 :: ':' :: m1 :: m2 :: ':' :: s1 :: s2 ::
      formatFraction micros) = some (h1 :: h2 :: ':' :: m1 :: m2 :: ':' :: s1 :: s2 ::
      formatFraction micros) :=
    congrArg List.head? (Regex.findIter_of_head? _ _ (List.cons_ne_nil _ _) first)
  have hoursParsed : parseInt (2 ^ 63) [h1, h2] = .ok hours := by
    rw [parseInt, hoursRead]
    exact if_pos (by omega)
  have minutesParsed : parseInt (2 ^ 63) [m1, m2] = .ok minutes := by
    rw [parseInt, minutesRead]
    exact if_pos (by omega)
  have secondsParsed : parseInt (2 ^ 63) [s1, s2] = .ok seconds := by
    rw [parseInt, secondsRead]
    exact if_pos (by omega)
  rw [parseDelta, found]
  simp only [parseClock, List.take_succ_cons, List.take_zero, List.drop_succ_cons, List.drop_zero,
    hoursParsed, minutesParsed, secondsParsed, List.length_cons, bind, Except.bind]
  by_cases positive : micros > 0
  · have six := length_padded 6 micros (by decide) microsFit
    have put := padRight_trimZeros (padded 6 micros)
    rw [six] at put
    have microsParsed : parseInt (2 ^ 63) (padRight 6 (trimZeros (padded 6 micros))) =
        .ok micros := by
      rw [put, parseInt, readNat_padded]
      exact if_pos (by omega)
    rw [formatFraction, if_pos positive, List.length_cons, if_pos (by omega), List.drop_succ_cons,
      List.drop_zero, microsParsed]
  · rw [formatFraction, if_neg positive, List.length_nil, if_neg (by omega),
      Nat.eq_zero_of_not_pos positive]

theorem parseDelta_formatIntervalMicroseconds
    (front : Text)
    (micros : Nat)
    (plain : ':' ∉ front) :
    parseDelta (front ++ formatIntervalMicroseconds micros) = .ok (micros % 360000000000) := by
  obtain ⟨leading, digits, split⟩ := padded_two_split (micros / 3600000000)
  obtain ⟨tens, ones, two, tensDigit, onesDigit⟩ :=
    padded_two (micros / 3600000000 % 100) (Nat.mod_lt _ (by decide))
  have notColon : ∀ c : Char, c.isDigit = true → c ≠ ':' := by
    rintro _ digit rfl
    cases digit
  have clock := parseDelta_clock (micros / 3600000000 % 100) (micros % 3600000000 / 60000000)
    (micros % 60000000 / 1000000) (micros % 1000000) (Nat.mod_lt _ (by decide)) (by omega) (by omega)
    (Nat.mod_lt _ (by decide))
  have skipped := parseDelta_behind (front ++ leading) (padded 2 (micros % 3600000000 / 60000000) ++
    ':' :: padded 2 (micros % 60000000 / 1000000) ++ formatFraction (micros % 1000000)) tens ones
    (by
      rw [List.mem_append]
      rintro (member | member)
      · exact plain member
      · exact notColon _ (digits _ member) rfl)
    (notColon tens tensDigit) (notColon ones onesDigit)
  have total : (micros / 3600000000 % 100 * 3600 + micros % 3600000000 / 60000000 * 60 +
      micros % 60000000 / 1000000) * 1000000 + micros % 1000000 = micros % 360000000000 := by
    omega
  rw [two] at clock split
  rw [total] at clock
  simp only [List.append_assoc, List.cons_append, List.nil_append] at clock skipped
  rw [formatIntervalMicroseconds, split]
  simp only [List.append_assoc, List.cons_append, List.nil_append]
  rw [skipped, clock]

/-! ## The months -/

theorem parseInt_toDigits
    (bound n : Nat)
    (fits : n < bound) :
    parseInt bound (Nat.toDigits 10 n) = .ok n := by
  have read := readNat_padded 0 n
  rw [padded, Nat.zero_sub, List.replicate_zero, List.nil_append] at read
  rw [parseInt, read]
  exact if_pos fits

theorem isDecimalDigit_of_mem_toDigits
    (n : Nat)
    (c : Char)
    (member : c ∈ Nat.toDigits 10 n) :
    isDecimalDigit c = true :=
  isDecimalDigit_of_isDigit c (Nat.isDigit_of_mem_toDigits (by decide) (by decide) member)

def plural (count : Nat) : Text :=
  if count > 1 then ['s'] else []

theorem formatSingularPlural_eq (name : Text) (count : Nat) :
    formatSingularPlural name count = Nat.toDigits 10 count ++ ' ' :: (name ++ plural count) := by
  unfold formatSingularPlural plural
  split
  · rw [List.append_assoc, List.cons_append]
  · rw [List.append_nil]

theorem notMem_formatSingularPlural
    (name : Text)
    (count : Nat)
    (c : Char)
    (letter : c.isDigit = false)
    (notInName : c ∉ ' ' :: name ++ ['s']) :
    c ∉ formatSingularPlural name count := by
  rw [formatSingularPlural_eq]
  intro member
  rcases List.mem_append.mp member with digit | rest
  · have digit := Nat.isDigit_of_mem_toDigits (by decide) (by decide) digit
    cases letter.symm.trans digit
  · refine notInName ?_
    rcases List.mem_cons.mp rest with rfl | rest
    · simp
    · rcases List.mem_append.mp rest with inName | inPlural
      · simp [inName]
      · unfold plural at inPlural
        split at inPlural
        · simp [List.mem_singleton.mp inPlural]
        · cases inPlural

theorem parseUnit_formatSingularPlural
    (name rest : Text)
    (count : Nat)
    (fits : count < 2 ^ 32) :
    parseUnit (2 ^ 32) name (formatSingularPlural name count ++ rest) = .ok count := by
  rw [formatSingularPlural_eq, List.append_assoc, List.cons_append, List.append_assoc,
    parseUnit_here (2 ^ 32) name _ _ Nat.toDigits_ne_nil (isDecimalDigit_of_mem_toDigits count),
    parseInt_toDigits (2 ^ 32) count fits]

def yearsText (months : Nat) : Text :=
  if months / 12 > 0 then formatSingularPlural "year".toList (months / 12) else []

def monthsText (months : Nat) : Text :=
  if months % 12 > 0 then formatSingularPlural "month".toList (months % 12) else []

def blank (front back : Text) : Text :=
  if front.isEmpty || back.isEmpty then [] else [' ']

theorem formatIntervalMonths_eq (months : Nat) :
    formatIntervalMonths months =
      yearsText months ++ blank (yearsText months) (monthsText months) ++ monthsText months := by
  have filled : (monthsText months).isEmpty = !decide (months % 12 > 0) := by
    unfold monthsText
    by_cases some_months : months % 12 > 0
    · rw [if_pos some_months, formatSingularPlural_eq, decide_eq_true some_months]
      simp
    · rw [if_neg some_months, decide_eq_false some_months]
      rfl
  unfold formatIntervalMonths blank
  rw [filled]
  by_cases some_months : months % 12 > 0
  · rw [decide_eq_true some_months, monthsText, if_pos some_months]
    simp only [if_pos some_months, pushSpaced, Bool.not_true, Bool.or_false]
    change (if (yearsText months).isEmpty = true then _ else yearsText months ++ _) = _
    by_cases empty : (yearsText months).isEmpty = true
    · rw [if_pos empty, if_pos empty, List.isEmpty_iff.mp empty]
      rfl
    · rw [if_neg empty, if_neg empty, List.append_assoc]
      rfl
  · simp only [if_neg some_months, monthsText, List.append_nil]
    rw [decide_eq_false some_months, Bool.not_false, Bool.or_true, if_pos rfl, List.append_nil]
    rfl

theorem notMem_blank
    (front back : Text)
    (c : Char)
    (letter : c ≠ ' ') :
    c ∉ blank front back := by
  unfold blank
  split
  · simp
  · simpa using letter

theorem notMem_yearsText
    (months : Nat)
    (c : Char)
    (letter : c.isDigit = false)
    (other : c ∉ " years".toList) :
    c ∉ yearsText months := by
  unfold yearsText
  split
  · exact notMem_formatSingularPlural _ _ c letter other
  · simp

theorem notMem_monthsText
    (months : Nat)
    (c : Char)
    (letter : c.isDigit = false)
    (other : c ∉ " months".toList) :
    c ∉ monthsText months := by
  unfold monthsText
  split
  · exact notMem_formatSingularPlural _ _ c letter other
  · simp

theorem parseYears_formatIntervalMonths
    (months : Nat)
    (rest : Text)
    (fits : months < 2 ^ 32)
    (plain : 'y' ∉ rest) :
    parseUnit (2 ^ 32) "year".toList (formatIntervalMonths months ++ rest) = .ok (months / 12) := by
  rw [formatIntervalMonths_eq, List.append_assoc, List.append_assoc]
  by_cases some_years : months / 12 > 0
  · rw [yearsText, if_pos some_years]
    exact parseUnit_formatSingularPlural _ _ _ (by omega)
  · rw [Nat.eq_zero_of_not_pos some_years, yearsText, if_neg some_years]
    refine parseUnit_missing _ _ _ 'y' (by decide) ?_
    simp only [List.mem_append, not_or]
    exact ⟨List.not_mem_nil, notMem_blank _ _ 'y' (by decide),
      notMem_monthsText months 'y' rfl (by decide), plain⟩

theorem letters_of_all
    (text : Text)
    (all : (text.all fun c => !isDecimalDigit c) = true) :
    ∀ c ∈ text, isDecimalDigit c = false := by
  intro c member
  simpa using List.all_eq_true.mp all c member

theorem parseMonths_formatIntervalMonths
    (months : Nat)
    (rest : Text)
    (plain : 'm' ∉ rest) :
    parseUnit (2 ^ 32) "month".toList (formatIntervalMonths months ++ rest) =
      .ok (months % 12) := by
  rw [formatIntervalMonths_eq]
  by_cases some_months : months % 12 > 0
  · have here := parseUnit_formatSingularPlural "month".toList rest (months % 12) (by omega)
    rw [monthsText, if_pos some_months, List.append_assoc, List.append_assoc]
    by_cases some_years : months / 12 > 0
    · have letters : ∀ c ∈ "year".toList ++ plural (months / 12) ++ [' '],
          isDecimalDigit c = false := by
        unfold plural
        split
        · exact letters_of_all _ (by decide)
        · exact letters_of_all _ (by decide)
      have behind := parseUnit_behind (2 ^ 32) "month".toList (Nat.toDigits 10 (months / 12))
        ("year".toList ++ plural (months / 12) ++ [' '])
        (formatSingularPlural "month".toList (months % 12) ++ rest)
        (isDecimalDigit_of_mem_toDigits _) letters
        (fun starts => absurd (List.cons_prefix_cons.mp starts).1 (by decide))
      rw [here] at behind
      rw [← behind, yearsText, if_pos some_years, formatSingularPlural_eq "year".toList]
      simp [blank, formatSingularPlural_eq]
    · rw [yearsText, if_neg some_years]
      exact here
  · rw [Nat.eq_zero_of_not_pos some_months, monthsText, if_neg some_months]
    refine parseUnit_missing _ _ _ 'm' (by decide) ?_
    simp only [List.mem_append, not_or]
    exact ⟨⟨⟨notMem_yearsText months 'm' rfl (by decide), notMem_blank _ _ 'm' (by decide)⟩,
      List.not_mem_nil⟩, plain⟩

theorem notMem_formatIntervalMonths
    (months : Nat)
    (c : Char)
    (letter : c.isDigit = false)
    (other : c ∉ " years months".toList) :
    c ∉ formatIntervalMonths months := by
  rw [formatIntervalMonths_eq]
  simp only [List.mem_append, not_or]
  refine ⟨⟨notMem_yearsText months c letter fun member => other ?_,
    notMem_blank _ _ c fun same => other ?_⟩, notMem_monthsText months c letter fun member => other ?_⟩
  · exact List.mem_append_left " months".toList member
  · rw [same]
    decide
  · exact List.mem_append_right " years".toList member

/-! ## Round trip -/

theorem notMem_formatIntervalMicroseconds
    (micros : Nat)
    (c : Char)
    (letter : c.isDigit = false)
    (other : c ≠ ':' ∧ c ≠ '.') :
    c ∉ formatIntervalMicroseconds micros := by
  have digits : ∀ width n, c ∉ padded width n := by
    intro width n member
    cases letter.symm.trans (isDigit_of_mem_padded width n c member)
  have fraction : c ∉ formatFraction (micros % 1000000) := by
    unfold formatFraction
    split
    · rw [List.mem_cons, not_or]
      exact ⟨other.2, fun member => digits _ _ ((trimZeros_cuts _).subset member)⟩
    · exact List.not_mem_nil
  simp [formatIntervalMicroseconds, digits, fraction, other.1]

def clockText (delta : TimeDelta) : Text :=
  if delta.isZero then [] else formatIntervalMicroseconds (shownMicroseconds delta)

theorem format_eq (value : Interval) :
    format value = formatIntervalMonths value.months ++
      blank (formatIntervalMonths value.months) (clockText value.delta) ++
        clockText value.delta := by
  unfold format clockText
  by_cases zero : value.delta.isZero = true
  · simp [zero, blank]
  · have filled : (formatIntervalMicroseconds (shownMicroseconds value.delta)).isEmpty = false := by
      simp [formatIntervalMicroseconds]
    simp only [zero, Bool.false_eq_true, if_false, pushSpaced, blank, filled, Bool.or_false]
    split
    · rename_i empty
      rw [List.isEmpty_iff.mp empty]
      rfl
    · rw [List.append_assoc]
      rfl

/-- What is read back of a delta: the microseconds that are shown, below a hundred hours. -/
def readBack (delta : TimeDelta) : TimeDelta :=
  ⟨(shownMicroseconds delta % 360000000000 : Nat) * 1000, by omega, by omega⟩

theorem parse_of_parts
    (s : Text)
    (months numYears numMonths micros : Nat)
    (monthsFit : months < 2 ^ 32)
    (total : numYears * 12 + numMonths = months)
    (years : parseUnit (2 ^ 32) "year".toList s = .ok numYears)
    (rest : parseUnit (2 ^ 32) "month".toList s = .ok numMonths)
    (days : parseUnit (2 ^ 63) "day".toList s = .ok 0)
    (delta : parseDelta s = .ok micros)
    (microsFit : micros < 360000000000) :
    parse s = .ok ⟨months, ⟨micros * 1000, by omega, by omega⟩, monthsFit⟩ := by
  subst total
  have interval : newMonths (numYears * 12 + numMonths) .zero =
      .ok ⟨numYears * 12 + numMonths, .zero, monthsFit⟩ :=
    dif_pos monthsFit
  have noDays : Io.checkedI64 ((0 : Nat) * 86400000000) = .ok 0 := by
    rw [Int.natCast_zero, Int.zero_mul]
    exact if_pos (by omega)
  have sum : Io.checkedI64 (0 + micros) = .ok (micros : Int) := by
    rw [Int.zero_add]
    exact if_pos (by omega)
  have deltaEq : TimeDelta.microseconds micros =
      .ok ⟨micros * 1000, by omega, by omega⟩ :=
    dif_pos (by omega)
  unfold parse
  refine bind_eq_ok.mpr ⟨_, years, bind_eq_ok.mpr ⟨_, rest, bind_eq_ok.mpr ⟨_, days, ?_⟩⟩⟩
  refine bind_eq_ok.mpr ⟨_, delta, bind_eq_ok.mpr ⟨_, interval, ?_⟩⟩
  exact bind_eq_ok.mpr ⟨_, noDays, bind_eq_ok.mpr ⟨_, sum, bind_eq_ok.mpr ⟨_, deltaEq, rfl⟩⟩⟩

theorem parse_format_readBack (value : Interval) :
    parse (format value) = .ok { value with delta := readBack value.delta } := by
  have letters : ∀ c : Char, c.isDigit = false → c ≠ ':' ∧ c ≠ '.' → c ≠ ' ' →
      c ∉ blank (formatIntervalMonths value.months) (clockText value.delta) ++
        clockText value.delta := by
    intro c letter other notBlank
    rw [List.mem_append, not_or]
    refine ⟨notMem_blank _ _ c notBlank, ?_⟩
    unfold clockText
    split
    · exact List.not_mem_nil
    · exact notMem_formatIntervalMicroseconds _ c letter other
  have years := parseYears_formatIntervalMonths value.months _ value.monthsFit
    (letters 'y' rfl (by decide) (by decide))
  have months := parseMonths_formatIntervalMonths value.months _
    (letters 'm' rfl (by decide) (by decide))
  have days : parseUnit (2 ^ 63) "day".toList (formatIntervalMonths value.months ++
      (blank (formatIntervalMonths value.months) (clockText value.delta) ++
        clockText value.delta)) = .ok 0 := by
    refine parseUnit_missing _ _ _ 'd' (by decide) ?_
    rw [List.mem_append, not_or]
    exact ⟨notMem_formatIntervalMonths _ 'd' rfl (by decide),
      letters 'd' rfl (by decide) (by decide)⟩
  have colonless : ':' ∉ formatIntervalMonths value.months ++
      blank (formatIntervalMonths value.months) (clockText value.delta) := by
    rw [List.mem_append, not_or]
    exact ⟨notMem_formatIntervalMonths _ ':' rfl (by decide), notMem_blank _ _ ':' (by decide)⟩
  have delta : parseDelta (formatIntervalMonths value.months ++
      (blank (formatIntervalMonths value.months) (clockText value.delta) ++
        clockText value.delta)) = .ok (shownMicroseconds value.delta % 360000000000) := by
    rw [← List.append_assoc]
    by_cases zero : value.delta.isZero = true
    · have none_shown : shownMicroseconds value.delta = 0 := by
        rw [shownMicroseconds, TimeDelta.numMicroseconds, eq_of_beq zero]
        rfl
      rw [none_shown]
      refine parseDelta_missing _ ?_
      rw [clockText, if_pos zero, List.append_nil]
      rwa [clockText, if_pos zero] at colonless
    · rw [clockText, if_neg zero] at colonless ⊢
      exact parseDelta_formatIntervalMicroseconds _ _ colonless
  have total : value.months / 12 * 12 + value.months % 12 = value.months :=
    Nat.div_add_mod' value.months 12
  rw [format_eq, List.append_assoc]
  exact parse_of_parts _ _ _ _ _ value.monthsFit total years months days delta
    (Nat.mod_lt _ (by decide))

/-- The text of an interval is read back up to a time part of a hundred hours; just the intervals
below that, of whole microseconds that are not negative, come back the same. -/
theorem interval_parse_format (value : Interval) :
    parse (format value) = .ok { value with delta := readBack value.delta } ∧
      (parse (format value) = .ok value ↔
        0 ≤ value.delta.nanoseconds ∧ value.delta.nanoseconds % 1000 = 0 ∧
          value.delta.nanoseconds < 360000000000000) := by
  refine ⟨parse_format_readBack value, ?_⟩
  rw [parse_format_readBack]
  constructor
  · intro success
    have same := congrArg (fun interval => interval.delta.nanoseconds) (Except.ok.inj success)
    simp only [readBack] at same
    omega
  · rintro ⟨nonneg, whole, small⟩
    have towardsZero := Int.tdiv_eq_ediv_of_nonneg (b := 1000) nonneg
    have counted : value.delta.numMicroseconds = some (value.delta.nanoseconds.tdiv 1000) :=
      if_pos (by omega)
    have shown : ((shownMicroseconds value.delta % 360000000000 : Nat) : Int) * 1000 =
        value.delta.nanoseconds := by
      rw [shownMicroseconds, counted, Option.getD_some, towardsZero]
      omega
    have same : readBack value.delta = value.delta := by
      cases shape : value.delta with
      | mk nanoseconds lower upper =>
          rw [shape] at shown
          simpa only [readBack, TimeDelta.mk.injEq] using shown
    rw [same]

end Interval

end Ducklake.Spec.Literals
