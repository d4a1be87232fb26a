import Ducklake.Error
import Ducklake.Lib.Digits

/-!
# Times with a time zone

The text form of `TimeWithTimezone` in `spec/literals/date.rs`.  The text of the time of day is
that of the calendar library.
-/

set_option autoImplicit false

namespace Ducklake.Spec.Literals

open Lib

/-! ## Digits -/

/-- The zeros of the decimal digits of Unicode, each followed by the other nine. -/
def decimalZeros : List Nat := [
  0x30, 0x660, 0x6F0, 0x7C0, 0x966, 0x9E6, 0xA66, 0xAE6, 0xB66, 0xBE6, 0xC66, 0xCE6, 0xD66, 0xDE6,
  0xE50, 0xED0, 0xF20, 0x1040, 0x1090, 0x17E0, 0x1810, 0x1946, 0x19D0, 0x1A80, 0x1A90, 0x1B50,
  0x1BB0, 0x1C40, 0x1C50, 0xA620, 0xA8D0, 0xA900, 0xA9D0, 0xA9F0, 0xAA50, 0xABF0, 0xFF10, 0x104A0,
  0x10D30, 0x10D40, 0x11066, 0x110F0, 0x11136, 0x111D0, 0x112F0, 0x11450, 0x114D0, 0x11650, 0x116C0,
  0x116D0, 0x116DA, 0x11730, 0x118E0, 0x11950, 0x11BF0, 0x11C50, 0x11D50, 0x11DA0, 0x11F50, 0x16130,
  0x16A60, 0x16AC0, 0x16B50, 0x16D70, 0x1CCF0, 0x1D7CE, 0x1D7D8, 0x1D7E2, 0x1D7EC, 0x1D7F6, 0x1E140,
  0x1E2F0, 0x1E4F0, 0x1E5F1, 0x1E950, 0x1FBF0]

/-- `\d` -/
def isDecimalDigit (c : Char) : Bool :=
  decimalZeros.any fun first => first ≤ c.toNat && c.toNat < first + 10

theorem isDecimalDigit_of_isDigit (c : Char) (digit : c.isDigit = true) :
    isDecimalDigit c = true := by
  simp only [Char.isDigit, Bool.and_eq_true, decide_eq_true_eq] at digit
  obtain ⟨low, high⟩ := digit
  simp only [isDecimalDigit, decimalZeros, List.any_cons, Bool.or_eq_true, Bool.and_eq_true,
    decide_eq_true_eq]
  refine Or.inl ⟨low, ?_⟩
  exact Nat.lt_succ_of_le high

def decimalDigit : Regex Char :=
  .sym isDecimalDigit

def character (expected : Char) : Regex Char :=
  .sym fun c => c == expected

def twoDigits : Regex Char :=
  .seq decimalDigit decimalDigit

/-! ## Offsets -/

/-- A UTC offset of less than a day, in seconds. -/
structure FixedOffset where
  localMinusUtc : Int
  lower : -86400 < localMinusUtc
  upper : localMinusUtc < 86400
  deriving DecidableEq

namespace FixedOffset

def eastOpt (seconds : Int) : Option FixedOffset :=
  if within : -86400 < seconds ∧ seconds < 86400 then some ⟨seconds, within.1, within.2⟩ else none

def utc : FixedOffset :=
  ⟨0, by decide, by decide⟩

/-- `(\d{2})(?::(\d{2}))?` -/
def pattern : Regex Char :=
  .seq twoDigits (.alt (.seq (character ':') twoDigits) .eps)

/-- The first group of a match; digits that are not ASCII are read as zero. -/
def hours (found : Text) : Nat :=
  (readNat (found.take 2)).getD 0

def minutes (found : Text) : Nat :=
  if 2 < found.length then (readNat (found.drop 3)).getD 0 else 0

def read (offset : Text) : Option FixedOffset :=
  (pattern.findIter offset).head?.bind fun found =>
    eastOpt (hours found * 3600 + minutes found * 60)

end FixedOffset

/-! ## Times -/

structure TimeWithTimezone (NaiveTime : Type) where
  time : NaiveTime
  offset : FixedOffset
  deriving DecidableEq

namespace TimeWithTimezone

variable {NaiveTime : Type}

def parse (parseTime : Text → DucklakeResult NaiveTime) (s : Text) :
    DucklakeResult (TimeWithTimezone NaiveTime) :=
  match splitOnce '+' s with
  | some (time, offset) => do
      let offset ← match FixedOffset.read offset with
        | some offset => .ok offset
        | none => .error (.parsing ("invalid time zone offset: ".toList ++ offset))
      let time ← parseTime time
      .ok { time := time, offset := offset }
  | none => do
      let time ← parseTime s
      .ok { time := time, offset := .utc }

/-- Division truncates, so that the parts of a negative offset are negative or zero. -/
def format (formatTime : NaiveTime → Text) (value : TimeWithTimezone NaiveTime) : Text :=
  let offsetHours := value.offset.localMinusUtc.tdiv 3600
  let offsetMinutes := (value.offset.localMinusUtc.tmod 3600).tdiv 60
  formatTime value.time ++ '+' :: paddedInt 2 offsetHours ++
    if offsetMinutes ≠ 0 then ':' :: paddedInt 2 offsetMinutes else []

end TimeWithTimezone

/-! ## Round trip -/

theorem FixedOffset.eastOpt_eq_some
    (seconds : Int)
    (offset : FixedOffset)
    (success : eastOpt seconds = some offset) :
    offset.localMinusUtc = seconds := by
  unfold eastOpt at success
  split at success
  · exact congrArg FixedOffset.localMinusUtc (Option.some.inj success).symm
  · cases success

theorem FixedOffset.eastOpt_self (offset : FixedOffset) :
    eastOpt offset.localMinusUtc = some offset :=
  dif_pos ⟨offset.lower, offset.upper⟩

theorem FixedOffset.read_nonneg
    (text : Text)
    (offset : FixedOffset)
    (success : read text = some offset) :
    0 ≤ offset.localMinusUtc := by
  obtain ⟨found, _, success⟩ := Option.bind_eq_some_iff.mp success
  rw [eastOpt_eq_some _ offset success]
  omega

theorem FixedOffset.read_of_head?
    (text : Text)
    (filled : text ≠ [])
    (first : (pattern.run text).head? = some []) :
    read text = eastOpt (hours text * 3600 + minutes text * 60) := by
  rw [read, pattern.findIter_of_head? text filled first, List.head?_cons, Option.bind_some]

theorem FixedOffset.read_padded
    (hour minute : Nat)
    (hourFits : hour < 100)
    (minuteFits : minute < 100) :
    read (padded 2 hour ++ if minute ≠ 0 then ':' :: padded 2 minute else []) =
      eastOpt (hour * 3600 + minute * 60) := by
  obtain ⟨tens, ones, hourEq, tensDigit, onesDigit⟩ := padded_two hour hourFits
  have hourRead := readNat_padded 2 hour
  have tensDecimal := isDecimalDigit_of_isDigit tens tensDigit
  have onesDecimal := isDecimalDigit_of_isDigit ones onesDigit
  rw [hourEq] at hourRead ⊢
  by_cases some_minutes : minute ≠ 0
  · obtain ⟨minuteTens, minuteOnes, minuteEq, minuteTensDigit, minuteOnesDigit⟩ :=
      padded_two minute minuteFits
    have minuteRead := readNat_padded 2 minute
    have minuteTensDecimal := isDecimalDigit_of_isDigit minuteTens minuteTensDigit
    have minuteOnesDecimal := isDecimalDigit_of_isDigit minuteOnes minuteOnesDigit
    rw [minuteEq] at minuteRead
    rw [if_pos some_minutes, minuteEq, List.cons_append, List.cons_append, List.nil_append]
    have first : (pattern.run [tens, ones, ':', minuteTens, minuteOnes]).head? = some [] := by
      simp [pattern, twoDigits, decimalDigit, character, Regex.run, tensDecimal, onesDecimal,
        minuteTensDecimal, minuteOnesDecimal]
    have hoursEq : hours [tens, ones, ':', minuteTens, minuteOnes] = hour :=
      congrArg (Option.getD · 0) hourRead
    have minutesEq : minutes [tens, ones, ':', minuteTens, minuteOnes] = minute :=
      congrArg (Option.getD · 0) minuteRead
    rw [read_of_head? _ (List.cons_ne_nil _ _) first, hoursEq, minutesEq]
  · have first : (pattern.run [tens, ones]).head? = some [] := by
      simp [pattern, twoDigits, decimalDigit, character, Regex.run, tensDecimal, onesDecimal]
    have hoursEq : hours [tens, ones] = hour := congrArg (Option.getD · 0) hourRead
    have minutesEq : minutes [tens, ones] = minute := (not_not.mp some_minutes).symm
    rw [if_neg some_minutes, List.append_nil, read_of_head? _ (List.cons_ne_nil _ _) first, hoursEq,
      minutesEq]

section

variable {NaiveTime : Type}

theorem TimeWithTimezone.parse_nonneg
    (parseTime : Text → DucklakeResult NaiveTime)
    (s : Text)
    (value : TimeWithTimezone NaiveTime)
    (success : parse parseTime s = .ok value) :
    0 ≤ value.offset.localMinusUtc := by
  unfold parse at success
  split at success
  · rename_i time text _
    cases read : FixedOffset.read text with
    | none =>
        rw [read] at success
        cases success
    | some offset =>
        rw [read] at success
        cases parsed : parseTime time with
        | error err =>
            rw [parsed] at success
            cases success
        | ok time =>
            rw [parsed] at success
            obtain rfl := Except.ok.inj success
            exact FixedOffset.read_nonneg text offset read
  · cases parsed : parseTime s with
    | error err =>
        rw [parsed] at success
        cases success
    | ok time =>
        rw [parsed] at success
        obtain rfl := Except.ok.inj success
        exact Int.le_refl 0

/-- Behind the time of day, a non-negative offset is read to the minute. -/
theorem TimeWithTimezone.parse_format_nonneg
    (parseTime : Text → DucklakeResult NaiveTime)
    (formatTime : NaiveTime → Text)
    (reads : ∀ time, parseTime (formatTime time) = .ok time)
    (signless : ∀ time, '+' ∉ formatTime time)
    (value : TimeWithTimezone NaiveTime)
    (nonneg : 0 ≤ value.offset.localMinusUtc)
    (offset : FixedOffset)
    (minutes : offset.localMinusUtc =
      value.offset.localMinusUtc - value.offset.localMinusUtc % 60) :
    parse parseTime (format formatTime value) = .ok { value with offset := offset } := by
  obtain ⟨seconds, secondsEq⟩ := Int.eq_ofNat_of_zero_le nonneg
  have upper := value.offset.upper
  rw [secondsEq] at upper minutes
  have whole : value.offset.localMinusUtc.tdiv 3600 = ((seconds / 3600 : Nat) : Int) := by
    rw [secondsEq]
    rfl
  have rest : (value.offset.localMinusUtc.tmod 3600).tdiv 60 =
      ((seconds % 3600 / 60 : Nat) : Int) := by
    rw [secondsEq]
    rfl
  have text : format formatTime value = formatTime value.time ++ '+' ::
      (padded 2 (seconds / 3600) ++
        if seconds % 3600 / 60 ≠ 0 then ':' :: padded 2 (seconds % 3600 / 60) else []) := by
    unfold format
    rw [whole, rest]
    simp only [paddedInt, ne_eq, Int.natCast_eq_zero, List.append_assoc, List.cons_append]
  have read := FixedOffset.read_padded (seconds / 3600) (seconds % 3600 / 60) (by omega) (by omega)
  have total : ((seconds / 3600 : Nat) : Int) * 3600 + ((seconds % 3600 / 60 : Nat) : Int) * 60 =
      offset.localMinusUtc := by
    omega
  rw [total, FixedOffset.eastOpt_self] at read
  rw [parse, text, splitOnce_append '+' _ _ (signless value.time)]
  dsimp only
  rw [read, reads]
  rfl

/-- A time with a time zone is read back just when its offset is a non-negative number of whole
minutes. -/
theorem TimeWithTimezone.parse_format
    (parseTime : Text → DucklakeResult NaiveTime)
    (formatTime : NaiveTime → Text)
    (reads : ∀ time, parseTime (formatTime time) = .ok time)
    (signless : ∀ time, '+' ∉ formatTime time)
    (value : TimeWithTimezone NaiveTime) :
    parse parseTime (format formatTime value) = .ok value ↔
      0 ≤ value.offset.localMinusUtc ∧ value.offset.localMinusUtc % 60 = 0 := by
  have lower := value.offset.lower
  have upper := value.offset.upper
  constructor
  · intro success
    have nonneg := parse_nonneg parseTime _ value success
    have read := parse_format_nonneg parseTime formatTime reads signless value nonneg
      ⟨value.offset.localMinusUtc - value.offset.localMinusUtc % 60, by omega, by omega⟩ rfl
    have same := congrArg (fun value => value.offset.localMinusUtc)
      (Except.ok.inj (success.symm.trans read))
    dsimp only at same
    omega
  · rintro ⟨nonneg, minutes⟩
    exact parse_format_nonneg parseTime formatTime reads signless value nonneg value.offset
      (by omega)

end

/-! ## A negative offset -/

def halfPastNoon : Text :=
  "12:30:00".toList

def readHalfPastNoon (s : Text) : DucklakeResult Unit :=
  if s = halfPastNoon then .ok () else .error (.parsing s)

theorem TimeWithTimezone.parse_format_negative :
    format (fun _ => halfPastNoon) ⟨(), ⟨-5 * 3600, by decide, by decide⟩⟩ =
        "12:30:00+-5".toList ∧
      parse readHalfPastNoon "12:30:00+-5".toList =
        .error (.parsing "invalid time zone offset: -5".toList) ∧
      format (fun _ => halfPastNoon) ⟨(), ⟨-12 * 3600, by decide, by decide⟩⟩ =
        "12:30:00+-12".toList ∧
      parse readHalfPastNoon "12:30:00+-12".toList =
        .ok ⟨(), ⟨12 * 3600, by decide, by decide⟩⟩ := by
  decide +kernel

theorem TimeWithTimezone.parse_format_halfPastNoon :
    parse readHalfPastNoon (format (fun _ => halfPastNoon)
        ⟨(), ⟨5 * 3600 + 30 * 60, by decide, by decide⟩⟩) =
      .ok ⟨(), ⟨5 * 3600 + 30 * 60, by decide, by decide⟩⟩ :=
  (parse_format readHalfPastNoon (fun _ => halfPastNoon) (fun _ => if_pos rfl)
    (fun _ => by decide) _).mpr (by decide)

end Ducklake.Spec.Literals
