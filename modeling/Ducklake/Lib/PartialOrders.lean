import Mathlib.Data.List.Basic

/-!
# Partial comparisons

A comparison that may have no result, as the partial orders of Rust: what it takes to swap with its
arguments and to compose, for total comparisons and for lexicographic ones.
-/

set_option autoImplicit false

namespace Ducklake.Lib

universe u

/-- The results of two neighbouring comparisons that fix the result of the outer one. -/
def Agree (first second : Ordering) : Prop :=
  first = second ∨ first = .eq ∨ second = .eq

/-- The results of comparing a with b, b with c, and a with c fit together. -/
def Composes (left right outer : Option Ordering) : Prop :=
  ∀ first second, left = some first → right = some second → Agree first second →
    outer = some (first.then second)

/-- Comparing with `a`, swapped arguments give the reversed result, and comparisons compose. -/
structure LawfulAt {α : Type u} (cmp : α → α → Option Ordering) (a : α) : Prop where
  swap : ∀ b, cmp b a = (cmp a b).map Ordering.swap
  trans : ∀ b c, Composes (cmp a b) (cmp b c) (cmp a c)

def LawfulPartialCmp {α : Type u} (cmp : α → α → Option Ordering) : Prop :=
  ∀ a, LawfulAt cmp a

theorem composes_of_none_left (right outer : Option Ordering) : Composes none right outer := by
  intro first second none_first
  cases none_first

theorem composes_of_none_right (left outer : Option Ordering) : Composes left none outer := by
  intro first second _ none_second
  cases none_second

theorem composes_eq_left (right : Option Ordering) : Composes (some .eq) right right := by
  rintro first second ⟨⟩ rightEq _
  exact rightEq

theorem composes_eq_right (left : Option Ordering) : Composes left (some .eq) left := by
  rintro first second leftEq ⟨⟩ _
  cases first <;> exact leftEq

theorem composes_lt_left (right : Option Ordering) : Composes (some .lt) right (some .lt) := by
  rintro first second ⟨⟩ _ _
  rfl

theorem composes_gt_right (left : Option Ordering) : Composes left (some .gt) (some .gt) := by
  rintro first second _ ⟨⟩ agree
  cases first with
  | lt => simp [Agree] at agree
  | eq | gt => rfl

theorem composes_lt_gt (outer : Option Ordering) : Composes (some .lt) (some .gt) outer := by
  rintro first second ⟨⟩ ⟨⟩ agree
  simp [Agree] at agree

theorem composes_gt_lt (outer : Option Ordering) : Composes (some .gt) (some .lt) outer := by
  rintro first second ⟨⟩ ⟨⟩ agree
  simp [Agree] at agree

theorem lawfulPartialCmp_of_transCmp {α : Type u} (cmp : α → α → Ordering) [Std.TransCmp cmp] :
    LawfulPartialCmp fun a b => some (cmp a b) := by
  intro a
  refine ⟨fun b => congrArg some Std.OrientedCmp.eq_swap, fun b c => ?_⟩
  rintro first second ⟨⟩ ⟨⟩ agree
  refine congrArg some ?_
  cases left : cmp a b with
  | lt =>
      cases right : cmp b c with
      | lt => exact Std.TransCmp.lt_trans left right
      | eq => exact Std.TransCmp.lt_of_lt_of_eq left right
      | gt => simp [Agree, left, right] at agree
  | eq => exact Std.TransCmp.congr_left left
  | gt =>
      cases right : cmp b c with
      | lt => simp [Agree, left, right] at agree
      | eq => exact Std.TransCmp.gt_of_gt_of_eq left right
      | gt => exact Std.TransCmp.gt_trans left right

/-! ## Lexicographic comparison -/

/-- The second result decides where the first is that of equal things. -/
def lexicographic (first second : Option Ordering) : Option Ordering :=
  match first with
  | some .eq => second
  | unequal => unequal

@[simp] theorem lexicographic_equal (second : Option Ordering) :
    lexicographic (some .eq) second = second := rfl

theorem lexicographic_swap (first second : Option Ordering) :
    lexicographic (first.map Ordering.swap) (second.map Ordering.swap) =
      (lexicographic first second).map Ordering.swap := by
  rcases first with _ | _ | _ | _ <;> rfl

theorem lexicographic_eq_some_eq (first second : Option Ordering) :
    lexicographic first second = some .eq ↔ first = some .eq ∧ second = some .eq := by
  rcases first with _ | _ | _ | _ <;> simp [lexicographic]

theorem Composes.lexicographic
    {left right outer left' right' outer' : Option Ordering}
    (first : Composes left right outer)
    (second : Composes left' right' outer') :
    Composes (lexicographic left left') (lexicographic right right')
      (lexicographic outer outer') := by
  intro one two leftEq rightEq agree
  cases left with
  | none => cases leftEq
  | some leftOrder =>
      cases right with
      | none => cases rightEq
      | some rightOrder =>
          cases leftOrder with
          | eq =>
              have same := first .eq rightOrder rfl rfl (Or.inr (Or.inl rfl))
              rw [same]
              cases rightOrder with
              | eq => exact second one two leftEq rightEq agree
              | lt | gt =>
                  obtain rfl := Option.some.inj rightEq
                  rcases agree with same | same | same
                  · rw [same]
                    rfl
                  · rw [same]
                    rfl
                  · cases same
          | lt | gt =>
              have fits : Agree one rightOrder := by
                cases rightOrder with
                | eq => exact Or.inr (Or.inr rfl)
                | lt | gt =>
                    obtain rfl := Option.some.inj rightEq
                    exact agree
              obtain rfl := Option.some.inj leftEq
              rw [first _ rightOrder rfl rfl fits]
              rfl

section

variable {α β : Type u} {cmp : α → α → Option Ordering} {cmp' : β → β → Option Ordering}

def lexicographicPair (cmp : α → α → Option Ordering) (cmp' : β → β → Option Ordering)
    (a b : α × β) : Option Ordering :=
  lexicographic (cmp a.1 b.1) (cmp' a.2 b.2)

theorem LawfulAt.pair {first : α} {second : β} (left : LawfulAt cmp first)
    (right : LawfulAt cmp' second) : LawfulAt (lexicographicPair cmp cmp') (first, second) where
  swap b := by
    unfold lexicographicPair
    rw [left.swap b.1, right.swap b.2, lexicographic_swap]
  trans b c := (left.trans b.1 c.1).lexicographic (right.trans b.2 c.2)

/-- Sequences by their first different items, then by their lengths. -/
def lexicographicList (cmp : α → α → Option Ordering) : List α → List α → Option Ordering
  | [], [] => some .eq
  | [], _ :: _ => some .lt
  | _ :: _, [] => some .gt
  | a :: as, b :: bs => lexicographic (cmp a b) (lexicographicList cmp as bs)

theorem LawfulAt.list {items : List α} (lawful : ∀ item ∈ items, LawfulAt cmp item) :
    LawfulAt (lexicographicList cmp) items := by
  induction items with
  | nil =>
      constructor
      · intro b
        cases b <;> rfl
      · intro b c
        cases b with
        | nil => exact composes_eq_left _
        | cons b bs =>
            cases c with
            | nil => exact composes_lt_gt _
            | cons c cs => exact composes_lt_left _
  | cons a as ih =>
      obtain ⟨first, rest⟩ := List.forall_mem_cons.mp lawful
      have rest := ih rest
      constructor
      · intro b
        cases b with
        | nil => rfl
        | cons b bs =>
            rw [lexicographicList, lexicographicList, first.swap, rest.swap, lexicographic_swap]
      · intro b c
        cases b with
        | nil =>
            cases c with
            | nil => exact composes_eq_right _
            | cons c cs => exact composes_gt_lt _
        | cons b bs =>
            cases c with
            | nil => exact composes_gt_right _
            | cons c cs => exact (first.trans b c).lexicographic (rest.trans bs cs)

/-- A missing thing comes first. -/
def optionCmp (cmp : α → α → Option Ordering) : Option α → Option α → Option Ordering
  | none, none => some .eq
  | none, some _ => some .lt
  | some _, none => some .gt
  | some a, some b => cmp a b

theorem lawfulAt_none : LawfulAt (optionCmp cmp) none := by
  constructor
  · intro b
    cases b <;> rfl
  · intro b c
    cases b with
    | none => exact composes_eq_left _
    | some b =>
        cases c with
        | none => exact composes_lt_gt _
        | some c => exact composes_lt_left _

theorem LawfulAt.some {a : α} (lawful : LawfulAt cmp a) : LawfulAt (optionCmp cmp) (some a) := by
  constructor
  · intro b
    cases b with
    | none => rfl
    | some b => exact lawful.swap b
  · intro b c
    cases b with
    | none =>
        cases c with
        | none => exact composes_eq_right _
        | some c => exact composes_gt_lt _
    | some b =>
        cases c with
        | none => exact composes_gt_right _
        | some c => exact lawful.trans b c

end

/-! ## Strict weak orders -/

/-- A strict order of some things in which being incomparable is transitive. -/
structure StrictWeak {α : Type u} (less : α → α → Bool) (among : α → Prop) : Prop where
  asymm : ∀ a b, among a → among b → less a b = true → less b a = false
  negTrans : ∀ a b c, among a → among b → among c → less a b = false → less b c = false →
    less a c = false

section

variable {α β : Type u} {less : α → α → Bool} {among : α → Prop}

theorem StrictWeak.flip (weak : StrictWeak less among) :
    StrictWeak (fun a b => less b a) among where
  asymm a b amongA amongB before := weak.asymm b a amongB amongA before
  negTrans a b c amongA amongB amongC first second :=
    weak.negTrans c b a amongC amongB amongA second first

theorem StrictWeak.on {less' : β → β → Bool} (weak : StrictWeak less' fun _ => True) (key : α → β)
    (same : ∀ a b, among a → among b → less a b = less' (key a) (key b)) :
    StrictWeak less among where
  asymm a b amongA amongB before := by
    rw [same b a amongB amongA]
    rw [same a b amongA amongB] at before
    exact weak.asymm _ _ trivial trivial before
  negTrans a b c amongA amongB amongC first second := by
    rw [same a c amongA amongC]
    rw [same a b amongA amongB] at first
    rw [same b c amongB amongC] at second
    exact weak.negTrans _ _ _ trivial trivial trivial first second

theorem LawfulPartialCmp.strictWeak {cmp : α → α → Option Ordering}
    (lawful : LawfulPartialCmp cmp)
    (among : α → Prop)
    (total : ∀ a b, among a → among b → (cmp a b).isSome = true) :
    StrictWeak (fun a b => cmp a b == some .lt) among where
  asymm a b amongA amongB before := by
    rw [beq_iff_eq] at before
    rw [beq_eq_false_iff_ne, (lawful a).swap b, before]
    simp
  negTrans a b c amongA amongB amongC first second := by
    rw [beq_eq_false_iff_ne] at first second ⊢
    obtain ⟨left, leftEq⟩ := Option.isSome_iff_exists.mp (total a b amongA amongB)
    obtain ⟨right, rightEq⟩ := Option.isSome_iff_exists.mp (total b c amongB amongC)
    have outer := (lawful a).trans b c left right leftEq rightEq
    cases left with
    | lt => exact absurd leftEq first
    | eq =>
        rw [outer (Or.inr (Or.inl rfl))]
        rwa [rightEq] at second
    | gt =>
        cases right with
        | lt => exact absurd rightEq second
        | eq =>
            rw [outer (Or.inr (Or.inr rfl))]
            simp
        | gt =>
            rw [outer (Or.inl rfl)]
            simp

end

end Ducklake.Lib
