import Ducklake.Typedefs.ScalarOrder

/-!
# The order of values

`partial_cmp` swaps with its arguments and composes, for values of any depth; and when it says that
two values are equal.
-/

set_option autoImplicit false

namespace Ducklake.Value

open Lib

/-! ## Equality and order of fields -/

mutual

/-- `==`: structs are equal if each field of one is equal to the field of its name in the other. -/
def beq : Value → Value → Bool
  | scalar a, scalar b => a.beq b
  | list a, list b => beqItems a b
  | struct a, struct b => a.length == b.length && beqFields a b
  | map a, map b => beqEntries a b
  | _, _ => false

def beqOption : Option Value → Option Value → Bool
  | none, none => true
  | some a, some b => beq a b
  | _, _ => false

def beqItems : List (Option Value) → List (Option Value) → Bool
  | [], [] => true
  | a :: as, b :: bs => beqOption a b && beqItems as bs
  | _, _ => false

def beqFields : List (Text × Option Value) → List (Text × Option Value) → Bool
  | [], _ => true
  | (key, a) :: as, other =>
      (match other.lookup key with
      | some b => beqOption a b
      | none => false) && beqFields as other

def beqEntries : List (Value × Option Value) → List (Value × Option Value) → Bool
  | [], [] => true
  | (key, a) :: as, (other, b) :: bs => (beq key other && beqOption a b) && beqEntries as bs
  | _, _ => false

end

mutual

/-- Structs at the same place have their fields in the same order. -/
def sameOrder : Value → Value → Bool
  | scalar _, scalar _ => true
  | list a, list b => sameOrderItems a b
  | struct a, struct b => sameOrderFields a b
  | map a, map b => sameOrderEntries a b
  | _, _ => false

def sameOrderOption : Option Value → Option Value → Bool
  | none, none => true
  | some a, some b => sameOrder a b
  | _, _ => false

def sameOrderItems : List (Option Value) → List (Option Value) → Bool
  | [], [] => true
  | a :: as, b :: bs => sameOrderOption a b && sameOrderItems as bs
  | _, _ => false

def sameOrderFields : List (Text × Option Value) → List (Text × Option Value) → Bool
  | [], [] => true
  | (key, a) :: as, (other, b) :: bs =>
      (key == other && sameOrderOption a b) && sameOrderFields as bs
  | _, _ => false

def sameOrderEntries : List (Value × Option Value) → List (Value × Option Value) → Bool
  | [], [] => true
  | (key, a) :: as, (other, b) :: bs =>
      (sameOrder key other && sameOrderOption a b) && sameOrderEntries as bs
  | _, _ => false

end

mutual

def holds (test : Scalar → Bool) : Value → Bool
  | scalar value => test value
  | list items => holdsItems test items
  | struct fields => holdsFields test fields
  | map entries => holdsEntries test entries

def holdsOption (test : Scalar → Bool) : Option Value → Bool
  | none => false
  | some value => holds test value

def holdsItems (test : Scalar → Bool) : List (Option Value) → Bool
  | [] => false
  | item :: rest => holdsOption test item || holdsItems test rest

def holdsFields (test : Scalar → Bool) : List (Text × Option Value) → Bool
  | [] => false
  | (_, value) :: rest => holdsOption test value || holdsFields test rest

def holdsEntries (test : Scalar → Bool) : List (Value × Option Value) → Bool
  | [] => false
  | (key, value) :: rest => (holds test key || holdsOption test value) || holdsEntries test rest

end

mutual

def distinctFields : Value → Bool
  | scalar _ => true
  | list items => distinctItems items
  | struct fields => decide (fields.map Prod.fst).Nodup && distinctValues fields
  | map entries => distinctEntries entries

def distinctOption : Option Value → Bool
  | none => true
  | some value => distinctFields value

def distinctItems : List (Option Value) → Bool
  | [] => true
  | item :: rest => distinctOption item && distinctItems rest

def distinctValues : List (Text × Option Value) → Bool
  | [] => true
  | (_, value) :: rest => distinctOption value && distinctValues rest

def distinctEntries : List (Value × Option Value) → Bool
  | [] => true
  | (key, value) :: rest => (distinctFields key && distinctOption value) && distinctEntries rest

end

/-! ## Comparisons as lexicographic ones -/

theorem partialCmpOption_eq : partialCmpOption = optionCmp partialCmp := by
  funext a b
  cases a <;> cases b <;> simp [partialCmpOption, optionCmp]

theorem partialCmpItems_eq : partialCmpItems = lexicographicList partialCmpOption := by
  funext a b
  induction a generalizing b with
  | nil => cases b <;> simp [partialCmpItems, lexicographicList]
  | cons a as ih =>
      cases b with
      | nil => simp [partialCmpItems, lexicographicList]
      | cons b bs =>
          rw [partialCmpItems, lexicographicList, ← ih]
          rcases partialCmpOption a b with _ | _ | _ | _ <;> rfl

def compareKeys (a b : Text) : Option Ordering :=
  some (compareText a b)

theorem partialCmpFields_eq :
    partialCmpFields = lexicographicList (lexicographicPair compareKeys partialCmpOption) := by
  funext a b
  induction a generalizing b with
  | nil => cases b <;> simp [partialCmpFields, lexicographicList]
  | cons a as ih =>
      cases b with
      | nil => simp [partialCmpFields, lexicographicList]
      | cons b bs =>
          rw [partialCmpFields, lexicographicList, ← ih, lexicographicPair, compareKeys]
          cases compareText a.1 b.1 with
          | lt | gt => rfl
          | eq => rcases partialCmpOption a.2 b.2 with _ | _ | _ | _ <;> rfl

theorem partialCmpEntries_eq :
    partialCmpEntries = lexicographicList (lexicographicPair partialCmp partialCmpOption) := by
  funext a b
  induction a generalizing b with
  | nil => cases b <;> simp [partialCmpEntries, lexicographicList]
  | cons a as ih =>
      cases b with
      | nil => simp [partialCmpEntries, lexicographicList]
      | cons b bs =>
          rw [partialCmpEntries, lexicographicList, ← ih, lexicographicPair]
          rcases partialCmp a.1 b.1 with _ | _ | _ | _
          · rfl
          · rfl
          · rcases partialCmpOption a.2 b.2 with _ | _ | _ | _ <;> rfl
          · rfl

/-! ## The laws of the order -/

theorem compareKeys_lawful : LawfulPartialCmp compareKeys :=
  compareSequences_lawful Char.toNat

theorem lawfulAt_scalar (a : Scalar) : LawfulAt partialCmp (scalar a) := by
  constructor
  · intro b
    cases b with
    | scalar b => simpa only [partialCmp] using (Scalar.partialCmp_lawful a).swap b
    | list | struct | map => simp [partialCmp]
  · intro b c
    cases b with
    | scalar b =>
        cases c with
        | scalar c => simpa only [partialCmp] using (Scalar.partialCmp_lawful a).trans b c
        | list | struct | map => simpa only [partialCmp] using composes_of_none_right _ _
    | list | struct | map => simpa only [partialCmp] using composes_of_none_left _ _

theorem lawfulAt_list {a : List (Option Value)} (items : LawfulAt partialCmpItems a) :
    LawfulAt partialCmp (list a) := by
  constructor
  · intro b
    cases b with
    | list b => simpa only [partialCmp] using items.swap b
    | scalar | struct | map => simp [partialCmp]
  · intro b c
    cases b with
    | list b =>
        cases c with
        | list c => simpa only [partialCmp] using items.trans b c
        | scalar | struct | map => simpa only [partialCmp] using composes_of_none_right _ _
    | scalar | struct | map => simpa only [partialCmp] using composes_of_none_left _ _

theorem lawfulAt_struct {a : List (Text × Option Value)} (fields : LawfulAt partialCmpFields a) :
    LawfulAt partialCmp (struct a) := by
  constructor
  · intro b
    cases b with
    | struct b => simpa only [partialCmp] using fields.swap b
    | scalar | list | map => simp [partialCmp]
  · intro b c
    cases b with
    | struct b =>
        cases c with
        | struct c => simpa only [partialCmp] using fields.trans b c
        | scalar | list | map => simpa only [partialCmp] using composes_of_none_right _ _
    | scalar | list | map => simpa only [partialCmp] using composes_of_none_left _ _

theorem lawfulAt_map {a : List (Value × Option Value)} (entries : LawfulAt partialCmpEntries a) :
    LawfulAt partialCmp (map a) := by
  constructor
  · intro b
    cases b with
    | map b => simpa only [partialCmp] using entries.swap b
    | scalar | list | struct => simp [partialCmp]
  · intro b c
    cases b with
    | map b =>
        cases c with
        | map c => simpa only [partialCmp] using entries.trans b c
        | scalar | list | struct => simpa only [partialCmp] using composes_of_none_right _ _
    | scalar | list | struct => simpa only [partialCmp] using composes_of_none_left _ _

mutual

theorem partialCmp_lawful : (a : Value) → LawfulAt partialCmp a
  | scalar a => lawfulAt_scalar a
  | list items => lawfulAt_list (by
      rw [partialCmpItems_eq]
      exact .list (partialCmpItems_lawful items))
  | struct fields => lawfulAt_struct (by
      rw [partialCmpFields_eq]
      exact .list (partialCmpFields_lawful fields))
  | map entries => lawfulAt_map (by
      rw [partialCmpEntries_eq]
      exact .list (partialCmpEntries_lawful entries))

theorem partialCmpOption_lawful : (a : Option Value) → LawfulAt partialCmpOption a
  | none => by
      rw [partialCmpOption_eq]
      exact lawfulAt_none
  | some a => by
      rw [partialCmpOption_eq]
      exact (partialCmp_lawful a).some

theorem partialCmpItems_lawful :
    (items : List (Option Value)) → ∀ item ∈ items, LawfulAt partialCmpOption item
  | [] => by simp
  | item :: rest =>
      List.forall_mem_cons.mpr ⟨partialCmpOption_lawful item, partialCmpItems_lawful rest⟩

theorem partialCmpFields_lawful :
    (fields : List (Text × Option Value)) →
      ∀ field ∈ fields, LawfulAt (lexicographicPair compareKeys partialCmpOption) field
  | [] => by simp
  | (key, value) :: rest => List.forall_mem_cons.mpr
      ⟨(compareKeys_lawful key).pair (partialCmpOption_lawful value), partialCmpFields_lawful rest⟩

theorem partialCmpEntries_lawful :
    (entries : List (Value × Option Value)) →
      ∀ entry ∈ entries, LawfulAt (lexicographicPair partialCmp partialCmpOption) entry
  | [] => by simp
  | (key, value) :: rest => List.forall_mem_cons.mpr
      ⟨(partialCmp_lawful key).pair (partialCmpOption_lawful value), partialCmpEntries_lawful rest⟩

end

/-! ## Equal values -/

theorem compareText_eq_eq (a b : Text) : compareText a b = .eq ↔ a = b :=
  compareSequences_eq_eq Char.toNat (fun _ _ same => Char.toNat_inj.mp same) a b

theorem lookup_append_cons (done rest : List (Text × Option Value)) (key : Text)
    (value : Option Value) (distinct : ((done ++ (key, value) :: rest).map Prod.fst).Nodup) :
    (done ++ (key, value) :: rest).lookup key = some value := by
  induction done with
  | nil => simp
  | cons field done ih =>
      rw [List.cons_append, List.map_cons, List.nodup_cons] at distinct
      have other : key ≠ field.1 := by
        rintro rfl
        exact distinct.1 (by simp)
      rw [List.cons_append, List.lookup_cons, beq_false_of_ne other]
      exact ih distinct.2

theorem length_eq_of_sameOrderFields (a b : List (Text × Option Value))
    (same : sameOrderFields a b = true) : a.length = b.length := by
  induction a generalizing b with
  | nil =>
      cases b with
      | nil => rfl
      | cons b bs => simp [sameOrderFields] at same
  | cons a as ih =>
      cases b with
      | nil => simp [sameOrderFields] at same
      | cons b bs =>
          rw [sameOrderFields, Bool.and_eq_true] at same
          rw [List.length_cons, List.length_cons, ih bs same.2]

/-- A comparison is `Equal` where `==` holds, the fields are in one order and nothing is an interval;
and nowhere else, if nothing is a time with a time zone. -/
def EqualWhere (comparison : Option Ordering) (same ordered interval zoned : Bool) : Prop :=
  (same = true → ordered = true → interval = false → comparison = some .eq) ∧
    (zoned = false → comparison = some .eq → (same = true ∧ ordered = true) ∧ interval = false)

theorem EqualWhere.and {comparison other : Option Ordering}
    {same ordered interval zoned same' ordered' interval' zoned' : Bool}
    (first : EqualWhere comparison same ordered interval zoned)
    (second : EqualWhere other same' ordered' interval' zoned') :
    EqualWhere (lexicographic comparison other) (same && same') (ordered && ordered')
      (interval || interval') (zoned || zoned') := by
  obtain ⟨equal, only⟩ := first
  obtain ⟨equal', only'⟩ := second
  unfold EqualWhere
  rw [lexicographic_eq_some_eq]
  simp only [Bool.and_eq_true, Bool.or_eq_false_iff]
  constructor
  · rintro ⟨same, same'⟩ ⟨ordered, ordered'⟩ ⟨interval, interval'⟩
    exact ⟨equal same ordered interval, equal' same' ordered' interval'⟩
  · rintro ⟨zoned, zoned'⟩ ⟨compared, compared'⟩
    obtain ⟨⟨same, ordered⟩, interval⟩ := only zoned compared
    obtain ⟨⟨same', ordered'⟩, interval'⟩ := only' zoned' compared'
    exact ⟨⟨⟨same, same'⟩, ordered, ordered'⟩, interval, interval'⟩

theorem EqualWhere.of_unequal {comparison : Option Ordering} {same ordered interval zoned : Bool}
    (unequal : comparison ≠ some .eq) (different : same = true → ordered = false) :
    EqualWhere comparison same ordered interval zoned := by
  refine ⟨fun equal order => ?_, fun _ equal => absurd equal unequal⟩
  rw [different equal] at order
  cases order

mutual

theorem partialCmp_equalWhere :
    (a b : Value) → distinctFields b = true →
      EqualWhere (partialCmp a b) (beq a b) (sameOrder a b) (holds Scalar.isInterval a)
        (holds Scalar.isTimeTz a)
  | scalar a, b, _ => by
      cases b with
      | scalar b =>
          rw [partialCmp, beq, sameOrder, holds, holds]
          refine ⟨fun same _ comparable => a.partialCmp_of_beq b same comparable,
            fun zoneless equal => ?_⟩
          obtain ⟨same, comparable⟩ := a.beq_of_partialCmp b zoneless equal
          exact ⟨⟨same, rfl⟩, comparable⟩
      | list | struct | map => exact .of_unequal (by simp [partialCmp]) (by simp [beq])
  | list a, b, distinct => by
      cases b with
      | list b =>
          rw [distinctFields] at distinct
          simpa only [partialCmp, beq, sameOrder, holds] using partialCmpItems_equalWhere a b distinct
      | scalar | struct | map => exact .of_unequal (by simp [partialCmp]) (by simp [beq])
  | struct a, b, distinct => by
      cases b with
      | struct b =>
          rw [distinctFields, Bool.and_eq_true, decide_eq_true_eq] at distinct
          obtain ⟨equal, only⟩ := partialCmpFields_equalWhere a [] b distinct.1 distinct.2
          have lengths := length_eq_of_sameOrderFields a b
          simp only [EqualWhere, partialCmp, beq, sameOrder, holds, Bool.and_eq_true, beq_iff_eq]
          refine ⟨fun same => equal same.2, fun zoneless compared => ?_⟩
          obtain ⟨⟨same, ordered⟩, comparable⟩ := only zoneless compared
          exact ⟨⟨⟨lengths ordered, same⟩, ordered⟩, comparable⟩
      | scalar | list | map => exact .of_unequal (by simp [partialCmp]) (by simp [beq])
  | map a, b, distinct => by
      cases b with
      | map b =>
          rw [distinctFields] at distinct
          simpa only [partialCmp, beq, sameOrder, holds] using
            partialCmpEntries_equalWhere a b distinct
      | scalar | list | struct => exact .of_unequal (by simp [partialCmp]) (by simp [beq])

theorem partialCmpOption_equalWhere :
    (a b : Option Value) → distinctOption b = true →
      EqualWhere (partialCmpOption a b) (beqOption a b) (sameOrderOption a b)
        (holdsOption Scalar.isInterval a) (holdsOption Scalar.isTimeTz a)
  | none, b, _ => by
      cases b <;> simp [EqualWhere, partialCmpOption, beqOption, sameOrderOption, holdsOption]
  | some a, b, distinct => by
      cases b with
      | none => exact .of_unequal (by simp [partialCmpOption]) (by simp [beqOption])
      | some b =>
          rw [distinctOption] at distinct
          simpa only [partialCmpOption, beqOption, sameOrderOption, holdsOption] using
            partialCmp_equalWhere a b distinct

theorem partialCmpItems_equalWhere :
    (a b : List (Option Value)) → distinctItems b = true →
      EqualWhere (partialCmpItems a b) (beqItems a b) (sameOrderItems a b)
        (holdsItems Scalar.isInterval a) (holdsItems Scalar.isTimeTz a)
  | [], b, _ => by
      cases b <;> simp [EqualWhere, partialCmpItems, beqItems, sameOrderItems, holdsItems]
  | a :: as, b, distinct => by
      cases b with
      | nil => exact .of_unequal (by simp [partialCmpItems]) (by simp [beqItems])
      | cons b bs =>
          rw [distinctItems, Bool.and_eq_true] at distinct
          have first := partialCmpOption_equalWhere a b distinct.1
          have rest := partialCmpItems_equalWhere as bs distinct.2
          rw [partialCmpItems_eq] at rest ⊢
          simpa only [lexicographicList, beqItems, sameOrderItems, holdsItems] using first.and rest

/-- The fields of `a` are compared with those of `b`, of which `done` came before. -/
theorem partialCmpFields_equalWhere :
    (a done b : List (Text × Option Value)) → ((done ++ b).map Prod.fst).Nodup →
      distinctValues b = true →
      EqualWhere (partialCmpFields a b) (beqFields a (done ++ b)) (sameOrderFields a b)
        (holdsFields Scalar.isInterval a) (holdsFields Scalar.isTimeTz a)
  | [], done, b, _, _ => by
      cases b <;> simp [EqualWhere, partialCmpFields, beqFields, sameOrderFields, holdsFields]
  | (key, a) :: as, done, b, distinct, values => by
      cases b with
      | nil => exact .of_unequal (by simp [partialCmpFields]) (by simp [sameOrderFields])
      | cons field bs =>
          obtain ⟨other, b⟩ := field
          rw [distinctValues, Bool.and_eq_true] at values
          have first := partialCmpOption_equalWhere a b values.1
          have rest := partialCmpFields_equalWhere as (done ++ [(other, b)]) bs
            (by simpa using distinct) values.2
          rw [List.append_assoc, List.singleton_append] at rest
          rw [partialCmpFields_eq] at rest ⊢
          by_cases named : key = other
          · subst named
            have keys : compareKeys key key = some .eq := by
              rw [compareKeys, (compareText_eq_eq key key).mpr rfl]
            rw [beqFields, lookup_append_cons done bs key b distinct, lexicographicList,
              lexicographicPair, keys, lexicographic_equal]
            simpa only [sameOrderFields, holdsFields, beq_self_eq_true, Bool.true_and] using
              first.and rest
          · refine .of_unequal ?_ (by simp [sameOrderFields, named])
            rw [lexicographicList, lexicographicPair]
            simp [lexicographic_eq_some_eq, compareKeys, compareText_eq_eq, named]

theorem partialCmpEntries_equalWhere :
    (a b : List (Value × Option Value)) → distinctEntries b = true →
      EqualWhere (partialCmpEntries a b) (beqEntries a b) (sameOrderEntries a b)
        (holdsEntries Scalar.isInterval a) (holdsEntries Scalar.isTimeTz a)
  | [], b, _ => by
      cases b <;> simp [EqualWhere, partialCmpEntries, beqEntries, sameOrderEntries, holdsEntries]
  | (key, a) :: as, b, distinct => by
      cases b with
      | nil => exact .of_unequal (by simp [partialCmpEntries]) (by simp [beqEntries])
      | cons entry bs =>
          obtain ⟨other, b⟩ := entry
          rw [distinctEntries, Bool.and_eq_true, Bool.and_eq_true] at distinct
          have keys := partialCmp_equalWhere key other distinct.1.1
          have first := partialCmpOption_equalWhere a b distinct.1.2
          have rest := partialCmpEntries_equalWhere as bs distinct.2
          rw [partialCmpEntries_eq] at rest ⊢
          simpa only [lexicographicList, lexicographicPair, beqEntries, sameOrderEntries,
            holdsEntries] using (keys.and first).and rest

end

/-- Values are compared the other way round with the reversed result, and comparisons compose.
Equal values with fields in the same order and without intervals compare as equal, and among values
without times with a time zone no others do. -/
theorem partialCmp_laws
    (a b c : Value) :
    partialCmp b a = (partialCmp a b).map Ordering.swap ∧
      (∀ first second, partialCmp a b = some first → partialCmp b c = some second →
        first = second ∨ first = .eq ∨ second = .eq →
          partialCmp a c = some (first.then second)) ∧
      (distinctFields b = true → holds Scalar.isTimeTz a = false →
        (partialCmp a b = some .eq ↔
          (beq a b = true ∧ sameOrder a b = true) ∧ holds Scalar.isInterval a = false)) ∧
      (distinctFields b = true → beq a b = true → sameOrder a b = true →
        holds Scalar.isInterval a = false → partialCmp a b = some .eq) := by
  refine ⟨(partialCmp_lawful a).swap b, (partialCmp_lawful a).trans b c, ?_,
    fun distinct => (partialCmp_equalWhere a b distinct).1⟩
  intro distinct zoneless
  obtain ⟨equal, only⟩ := partialCmp_equalWhere a b distinct
  exact ⟨only zoneless, fun agree => equal agree.1.1 agree.1.2 agree.2⟩

/-- Two times at one offset, and structs that hold a text, are compared by the laws. -/
theorem partialCmp_laws_structs :
    partialCmp (struct [("x".toList, some (scalar (.varchar "a".toList)))])
        (struct [("x".toList, some (scalar (.varchar "c".toList)))]) = some .lt ∧
      partialCmp (struct [("x".toList, some (scalar (.varchar "a".toList)))])
        (struct [("x".toList, some (scalar (.varchar "a".toList)))]) = some .eq ∧
      partialCmp (list [some (scalar (.timeTz 0 60)), none])
        (list [some (scalar (.timeTz 0 60)), none]) = some .eq :=
  ⟨(partialCmp_laws _ (struct [("x".toList, some (scalar (.varchar "b".toList)))]) _).2.1 .lt .lt
      (by decide +kernel) (by decide +kernel) (.inl rfl),
    ((partialCmp_laws _ _ (scalar (.boolean true))).2.2.1 (by decide +kernel) (by decide +kernel)).mpr
      (by decide +kernel),
    (partialCmp_laws _ _ (scalar (.boolean true))).2.2.2 (by decide +kernel) (by decide +kernel)
      (by decide +kernel) (by decide +kernel)⟩

/-- An interval, and a struct with its fields in another order, are equal by `==` only. -/
theorem beq_not_partialCmp :
    beq (scalar (.interval 1 0)) (scalar (.interval 1 0)) = true ∧
      partialCmp (scalar (.interval 1 0)) (scalar (.interval 1 0)) = none ∧
      beq (struct [("x".toList, none), ("y".toList, none)])
        (struct [("y".toList, none), ("x".toList, none)]) = true ∧
      partialCmp (struct [("x".toList, none), ("y".toList, none)])
        (struct [("y".toList, none), ("x".toList, none)]) = some .lt := by
  decide +kernel

end Ducklake.Value
