import Ducklake.Io.Conversion

/-!
# Values that can be converted

The values of an array that fit into a date, a time or a decimal: the others make a conversion
panic, and with it the bounds of the array.
-/

set_option autoImplicit false

namespace Ducklake.Io

open Lib

/-! ## Values of storage types -/

def SignedRange (bits : Nat) (value : Int) : Prop :=
  -2 ^ (bits - 1) ≤ value ∧ value < 2 ^ (bits - 1)

def UnsignedRange (bits : Nat) (value : Int) : Prop :=
  0 ≤ value ∧ value < 2 ^ bits

def Physical.Legal : LeafType → Physical → Prop
  | .boolean, .boolean _ => True
  | .int8, .integer value => SignedRange 8 value
  | .int16, .integer value => SignedRange 16 value
  | .int32, .integer value | .date32, .integer value => SignedRange 32 value
  | .int64, .integer value => SignedRange 64 value
  | .uint8, .integer value => UnsignedRange 8 value
  | .uint16, .integer value => UnsignedRange 16 value
  | .uint32, .integer value => UnsignedRange 32 value
  | .uint64, .integer value => UnsignedRange 64 value
  | .float32, .float _ | .float64, .float _ => True
  | .decimal128 _ _, .integer value => SignedRange 128 value
  | .time64 _, .integer value | .timestamp _ _, .integer value => SignedRange 64 value
  | .interval .yearMonth, .integer value => SignedRange 32 value
  | .interval .dayTime, .integer value => SignedRange 64 value
  | .interval .monthDayNano, .monthDayNano months days nanoseconds =>
      SignedRange 32 months ∧ SignedRange 32 days ∧ SignedRange 64 nanoseconds
  | .utf8, .text _ | .largeUtf8, .text _ | .utf8View, .text _ => True
  | .binary, .bytes _ | .largeBinary, .bytes _ | .binaryView, .bytes _ => True
  | .fixedSizeBinary width, .bytes stored => stored.length = width
  | .other _, _ => True
  | _, _ => False

def LeafArray.Legal (array : LeafArray) : Prop :=
  ∀ value, some value ∈ array.values → value.Legal array.type

def FirstToLastDay (day : Int) : Prop :=
  -96465292 ≤ day ∧ day ≤ 95026236

/-- The values that the logical type has room for. -/
def InRange : PrimitiveType → LeafType → Physical → Prop
  | .decimal _ scale, _, .integer mantissa =>
      scale ≤ 28 ∧ -2 ^ 96 < mantissa ∧ mantissa < 2 ^ 96
  | .time, .time64 unit, .integer value =>
      0 ≤ value.tmod (unitsPerSecond unit) ∧
        value.tdiv (unitsPerSecond unit) % 2 ^ 32 < 86400
  | .int128, _, .bytes bytes | .uint128, _, .bytes bytes | .uuid, _, .bytes bytes =>
      bytes.length = 16
  | .timeTz, _, .bytes bytes =>
      8 ≤ bytes.length ∧ unsignedValue (bytes.take 5) < 86400000000 ∧
        -86400 < signedValue ((bytes.drop 5).take 3) ∧
          signedValue ((bytes.drop 5).take 3) < 86400
  | .date, _, .integer days => FirstToLastDay days
  | .timestamp precision, _, .integer value =>
      precision = .nanoseconds ∨
        FirstToLastDay (value / unitsPerSecond (unitOf precision) / 86400)
  | .timestampTz, _, .integer value => FirstToLastDay (value / 1000000 / 86400)
  | .interval, _, .monthDayNano _ days nanoseconds =>
      SignedRange 64 (days * 86400000000) ∧
        SignedRange 64 (days * 86400000000 + nanoseconds.tdiv 1000)
  | _, _, _ => True

/-! ## Panics -/

section

variable {α β : Type}

theorem panics_map (computation : DucklakeResult α) (f : α → β) :
    panics (computation.map f) = panics computation := by
  cases computation <;> rfl

theorem panics_bind_eq_false {computation : DucklakeResult α} {next : α → DucklakeResult β} :
    panics (computation >>= next) = false ↔
      panics computation = false ∧
        ∀ value, computation = .ok value → panics (next value) = false := by
  cases computation with
  | error err => simp [bind, Except.bind, panics]
  | ok value => simp [bind, Except.bind, panics]

theorem panics_bind_of_safe {computation : DucklakeResult α} {next : α → DucklakeResult β}
    (safe : ∀ value, panics (next value) = false) :
    panics (computation >>= next) = panics computation := by
  cases computation with
  | error err => rfl
  | ok value => exact safe value

theorem panics_unwrap (site : Text) (found : Option α) :
    panics (unwrap site found) = false ↔ found.isSome = true := by
  cases found <;> simp [unwrap, panics, DucklakeError.isPanic]

theorem panics_foldlM {γ : Type} (step : β → γ → DucklakeResult β) (inputs : List γ)
    (safe : ∀ input ∈ inputs, ∀ state, panics (step state input) = false) (state : β) :
    panics (inputs.foldlM step state) = false := by
  induction inputs generalizing state with
  | nil => rfl
  | cons input rest ih =>
      rw [List.foldlM_cons, panics_bind_eq_false]
      refine ⟨safe input (.head _) state, fun next _ => ?_⟩
      exact ih (fun other member => safe other (.tail _ member)) next

/-- A computation whose only errors are panics. -/
def OnlyPanics (computation : DucklakeResult α) : Prop :=
  ∀ err, computation = .error err → err.isPanic = true

theorem OnlyPanics.ok {computation : DucklakeResult α} (only : OnlyPanics computation)
    (safe : panics computation = false) : ∃ value, computation = .ok value := by
  cases computation with
  | ok value => exact ⟨value, rfl⟩
  | error err =>
      have panicked := only err rfl
      simp [panics, panicked] at safe

theorem onlyPanics_ok {α : Type} (value : α) : OnlyPanics (.ok value : DucklakeResult α) :=
  fun _ failed => nomatch failed

theorem onlyPanics_panicked {α : Type} (site : Text) :
    OnlyPanics (.error (.panicked site) : DucklakeResult α) := by
  intro err failed
  obtain rfl := Except.error.inj failed
  rfl

theorem OnlyPanics.bind {computation : DucklakeResult α} {next : α → DucklakeResult β}
    (first : OnlyPanics computation) (rest : ∀ value, OnlyPanics (next value)) :
    OnlyPanics (computation >>= next) := by
  intro err failed
  cases computation with
  | ok value => exact rest value err failed
  | error err' =>
      obtain rfl : err' = err := Except.error.inj failed
      exact first err' rfl

theorem OnlyPanics.map {computation : DucklakeResult α} (only : OnlyPanics computation)
    (f : α → β) : OnlyPanics (computation.map f) := by
  intro err failed
  cases computation with
  | ok value => cases failed
  | error err' =>
      obtain rfl : err' = err := Except.error.inj failed
      exact only err' rfl

end

/-! ## Conversions -/

section

variable (types : ValueTypes)

theorem panics_checkedI64 (value : Int) :
    panics (checkedI64 value) = false ↔ SignedRange 64 value := by
  unfold checkedI64 SignedRange
  split <;> rename_i within
  · exact iff_of_true rfl within
  · exact iff_of_false Bool.noConfusion within

theorem unsignedValue_lt (bytes : List UInt8) : unsignedValue bytes < 256 ^ bytes.length := by
  induction bytes with
  | nil => decide
  | cons byte rest ih =>
      have small := byte.toNat_lt
      rw [unsignedValue, List.length_cons, Nat.pow_succ]
      omega

theorem panics_decimal (scale : Nat) (mantissa : Int) :
    panics (decimalFromPhysical types scale mantissa) = false ↔
      scale ≤ 28 ∧ -2 ^ 96 < mantissa ∧ mantissa < 2 ^ 96 :=
  (panics_unwrap _ _).trans (types.decimal_isSome mantissa scale)

theorem wrapU32_neg (value : Int) (lower : -2 ^ 32 ≤ value) (negative : value < 0) :
    (wrapU32 value : Int) = value + 2 ^ 32 := by
  have shifted : value % 2 ^ 32 = value + 2 ^ 32 := by
    rw [← Int.add_emod_right]
    exact Int.emod_eq_of_lt (by omega) (by omega)
  unfold wrapU32
  omega

/-- A negative remainder becomes more nanoseconds than a leap second has. -/
theorem time_isSome_iff (seconds nanoseconds : Int) (lower : -1000000000 < nanoseconds)
    (upper : nanoseconds < 1000000000) :
    (types.time (wrapU32 seconds) (wrapU32 nanoseconds)).isSome = true ↔
      0 ≤ nanoseconds ∧ seconds % 2 ^ 32 < 86400 := by
  rw [types.time_isSome]
  have before : wrapU32 seconds < 86400 ↔ seconds % 2 ^ 32 < 86400 := by
    unfold wrapU32
    omega
  obtain negative | positive : nanoseconds < 0 ∨ 0 ≤ nanoseconds := by omega
  · have wrapped := wrapU32_neg nanoseconds (by omega) negative
    omega
  · have same : wrapU32 nanoseconds = nanoseconds.toNat := by
      unfold wrapU32
      rw [Int.emod_eq_of_lt positive (by omega)]
    rw [before, same]
    omega

theorem panics_time (unit : TimeUnit) (value : Int)
    (read : unit = .microsecond ∨ unit = .nanosecond) :
    panics (timeFromPhysical types unit value) = false ↔
      0 ≤ value.tmod (unitsPerSecond unit) ∧
        value.tdiv (unitsPerSecond unit) % 2 ^ 32 < 86400 := by
  obtain rfl | rfl := read
  · have upper : value.tmod 1000000 < 1000000 := Int.tmod_lt_of_pos value (by decide)
    have lower : -1000000 < value.tmod 1000000 := Int.lt_tmod_of_pos value (by decide)
    rw [timeFromPhysical, panics_unwrap, time_isSome_iff types _ _ (by omega) (by omega)]
    change _ ↔ 0 ≤ value.tmod 1000000 ∧ value.tdiv 1000000 % 2 ^ 32 < 86400
    omega
  · have upper : value.tmod 1000000000 < 1000000000 := Int.tmod_lt_of_pos value (by decide)
    have lower : -1000000000 < value.tmod 1000000000 := Int.lt_tmod_of_pos value (by decide)
    rw [timeFromPhysical, panics_unwrap, time_isSome_iff types _ _ lower upper]
    rfl

theorem onlyPanics_unwrap {α : Type} (site : Text) (found : Option α) :
    OnlyPanics (unwrap site found) := by
  intro err failed
  cases found with
  | some value => cases failed
  | none =>
      obtain rfl := Except.error.inj failed
      rfl

theorem onlyPanics_time (unit : TimeUnit) (value : Int) :
    OnlyPanics (timeFromPhysical types unit value) := by
  cases unit with
  | microsecond => exact onlyPanics_unwrap _ _
  | nanosecond => exact onlyPanics_unwrap _ _
  | _ =>
      intro err failed
      obtain rfl := Except.error.inj failed
      rfl

theorem panics_timeTz (bytes : List UInt8) :
    panics (timeTzFromPhysical types bytes) = false ↔
      8 ≤ bytes.length ∧ unsignedValue (bytes.take 5) < 86400000000 ∧
        -86400 < signedValue ((bytes.drop 5).take 3) ∧
          signedValue ((bytes.drop 5).take 3) < 86400 := by
  unfold timeTzFromPhysical
  by_cases short : bytes.length < 8
  · rw [if_pos short]
    exact iff_of_false Bool.noConfusion fun all => absurd all.1 (Nat.not_le_of_lt short)
  rw [if_neg short, and_iff_right (Nat.le_of_not_lt short)]
  have small : unsignedValue (bytes.take 5) < 256 ^ 5 := by
    have bound := unsignedValue_lt (bytes.take 5)
    rwa [List.length_take, Nat.min_eq_left (by omega)] at bound
  have time : panics (timeFromPhysical types .microsecond (unsignedValue (bytes.take 5))) =
      false ↔ unsignedValue (bytes.take 5) < 86400000000 := by
    rw [panics_time types .microsecond _ (Or.inl rfl)]
    change 0 ≤ Int.tmod _ 1000000 ∧ Int.tdiv _ 1000000 % 2 ^ 32 < 86400 ↔ _
    rw [Int.tmod_eq_emod_of_nonneg (Int.natCast_nonneg _),
      Int.tdiv_eq_ediv_of_nonneg (Int.natCast_nonneg _)]
    omega
  rw [panics_bind_eq_false, time]
  refine and_congr_right fun within => ?_
  obtain ⟨found, converts⟩ := (onlyPanics_time types _ _).ok (time.mpr within)
  rw [← types.offset_isSome, ← panics_unwrap "FixedOffset::east_opt".toList]
  constructor
  · intro safe
    have rest := safe found converts
    rwa [panics_bind_of_safe fun _ => rfl] at rest
  · intro safe value _
    rwa [panics_bind_of_safe fun _ => rfl]

theorem panics_timestamp (unit : TimeUnit) (value : Int) :
    panics (timestampFromPhysical types unit value) = false ↔
      unit = .nanosecond ∨ FirstToLastDay (value / unitsPerSecond unit / 86400) := by
  unfold timestampFromPhysical FirstToLastDay
  cases unit with
  | nanosecond => simp [panics]
  | second =>
      rw [panics_unwrap, types.timestamp_isSome _ _ (by simp only [unitsPerSecond]; omega)]
      simp
  | millisecond =>
      rw [panics_unwrap, types.timestamp_isSome _ _ (by simp only [unitsPerSecond]; omega)]
      simp
  | microsecond =>
      rw [panics_unwrap, types.timestamp_isSome _ _ (by simp only [unitsPerSecond]; omega)]
      simp

theorem panics_interval (months days nanoseconds : Int) :
    panics (intervalFromPhysical months days nanoseconds) = false ↔
      SignedRange 64 (days * 86400000000) ∧
        SignedRange 64 (days * 86400000000 + nanoseconds.tdiv 1000) := by
  unfold intervalFromPhysical
  rw [panics_bind_eq_false, panics_checkedI64]
  refine and_congr_right fun within => ?_
  have product : checkedI64 (days * 86400000000) = .ok (days * 86400000000) := if_pos within
  rw [← panics_checkedI64]
  constructor
  · intro safe
    have rest := safe _ product
    rwa [panics_bind_of_safe fun _ => rfl] at rest
  · intro safe value same
    obtain rfl := Except.ok.inj (product.symm.trans same)
    rwa [panics_bind_of_safe fun _ => rfl]

theorem panics_arrayFromSlice (width : Nat) (bytes : List UInt8) :
    panics (arrayFromSlice width bytes) = false ↔ bytes.length = width := by
  unfold arrayFromSlice
  split <;> rename_i fits
  · exact iff_of_true rfl fits
  · exact iff_of_false Bool.noConfusion fits

theorem panics_fromPhysical (dtype : PrimitiveType) (type : LeafType) (value : Physical)
    (downcast : downcasts dtype type = true) (legal : value.Legal type) :
    panics (fromPhysical types dtype type value) = false ↔ InRange dtype type value := by
  cases dtype with
  | decimal precision scale =>
      cases type <;> cases downcast
      cases value <;> first | exact False.elim legal | skip
      exact (iff_of_eq (congrArg (· = false) (panics_map _ _))).trans
        (panics_decimal types scale _)
  | time =>
      cases type <;> first | cases downcast | skip
      cases value <;> first | exact False.elim legal | skip
      rename_i unit value
      have read : unit = .microsecond ∨ unit = .nanosecond := by
        cases unit with
        | microsecond => exact Or.inl rfl
        | nanosecond => exact Or.inr rfl
        | _ => cases downcast
      exact (iff_of_eq (congrArg (· = false) (panics_map _ _))).trans
        (panics_time types unit value read)
  | timeTz =>
      cases type <;> cases downcast
      cases value <;> first | exact False.elim legal | skip
      exact (iff_of_eq (congrArg (· = false) (panics_map _ _))).trans
        (panics_timeTz types _)
  | date =>
      cases type <;> cases downcast
      cases value <;> first | exact False.elim legal | skip
      exact (iff_of_eq (congrArg (· = false) (panics_map _ _))).trans
        ((panics_unwrap _ _).trans (types.date_isSome _))
  | timestamp precision =>
      cases type <;> cases downcast
      cases value <;> first | exact False.elim legal | skip
      refine (iff_of_eq (congrArg (· = false) (panics_map _ _))).trans
        ((panics_timestamp types _ _).trans (or_congr ?_ Iff.rfl))
      cases precision <;> decide
  | timestampTz =>
      cases type <;> first | cases downcast | skip
      cases value <;> first | exact False.elim legal | skip
      refine (iff_of_eq (congrArg (· = false) (panics_map _ _))).trans
        ((panics_timestamp types .microsecond _).trans ?_)
      exact or_iff_right TimeUnit.noConfusion
  | interval =>
      cases type <;> first | cases downcast | skip
      rename_i unit
      cases unit <;> cases downcast
      cases value <;> first | exact False.elim legal | skip
      exact (iff_of_eq (congrArg (· = false) (panics_map _ _))).trans (panics_interval _ _ _)
  | int128 | uint128 | uuid =>
      cases type <;> cases downcast
      cases value <;> first | exact False.elim legal | skip
      exact (iff_of_eq (congrArg (· = false) (panics_map _ _))).trans (panics_arrayFromSlice 16 _)
  | variant | geometry => exact iff_of_true rfl trivial
  | _ =>
      cases type <;> cases downcast
      all_goals cases value <;> first | exact False.elim legal | exact iff_of_true rfl trivial

end

theorem downcasts_ofType (dtype : PrimitiveType) :
    downcasts dtype (LeafType.ofType dtype) = true := by
  cases dtype <;> rfl

/-! ## Aggregates -/

instance : Std.MinEqOr Physical where
  min_eq_or a b := by
    change (if b.less a = true then b else a) = a ∨ (if b.less a = true then b else a) = b
    split
    · exact Or.inr rfl
    · exact Or.inl rfl

instance : Std.MaxEqOr Physical where
  max_eq_or a b := by
    change (if a.less b = true then b else a) = a ∨ (if a.less b = true then b else a) = b
    split
    · exact Or.inr rfl
    · exact Or.inl rfl

namespace LeafArray

variable (types : ValueTypes)

theorem mem_elements (array : LeafArray) (value : Physical) :
    value ∈ array.elements ↔ some value ∈ array.values := by
  simp [elements]

def Convertible (dtype : PrimitiveType) (array : LeafArray) : Prop :=
  ∀ value, some value ∈ array.values → panics (fromPhysical types dtype array.type value) = false

theorem convertible_iff (dtype : PrimitiveType) (array : LeafArray)
    (downcast : downcasts dtype array.type = true) (legal : array.Legal) :
    array.Convertible types dtype ↔
      ∀ value, some value ∈ array.values → InRange dtype array.type value :=
  forall₂_congr fun value member =>
    panics_fromPhysical types dtype array.type value downcast (legal value member)

/-- An array without elements is of any type. -/
def Downcasts (dtype : PrimitiveType) (array : LeafArray) : Prop :=
  array.values = [] ∨ downcasts dtype array.type = true

theorem panics_aggregate (dtype : PrimitiveType) (array : LeafArray) (best : Option Physical)
    (convertible : array.Convertible types dtype)
    (listed : ∀ value, best = some value → some value ∈ array.values) :
    panics (array.aggregate types dtype best) = false ↔ array.Downcasts dtype := by
  unfold aggregate Downcasts
  split
  · rename_i skipped
    refine iff_of_true rfl ?_
    simp only [Bool.or_eq_true, List.isEmpty_iff, decide_eq_true_eq] at skipped
    obtain (empty | rfl) | rfl := skipped
    · exact Or.inl empty
    · exact Or.inr rfl
    · exact Or.inr rfl
  · rename_i aggregated_
    simp only [Bool.or_eq_true, List.isEmpty_iff, not_or] at aggregated_
    rw [or_iff_right aggregated_.1.1]
    split
    · rename_i downcast
      refine iff_of_true ?_ downcast
      cases best with
      | none => rfl
      | some value =>
          exact (panics_map _ _).trans (convertible value (listed value rfl))
    · rename_i mismatch
      exact iff_of_false Bool.noConfusion mismatch

theorem panics_findMin (dtype : PrimitiveType) (array : LeafArray)
    (convertible : array.Convertible types dtype) :
    panics (array.findMin types dtype) = false ↔ array.Downcasts dtype :=
  array.panics_aggregate types dtype _ convertible fun value found =>
    (array.mem_elements value).mp (List.min?_mem found)

theorem panics_findMax (dtype : PrimitiveType) (array : LeafArray)
    (convertible : array.Convertible types dtype) :
    panics (array.findMax types dtype) = false ↔ array.Downcasts dtype :=
  array.panics_aggregate types dtype _ convertible fun value found =>
    (array.mem_elements value).mp (List.max?_mem found)

end LeafArray

end Ducklake.Io
