import Mathlib.Data.List.Basic

/-!
# Backslash escapes

Texts in which a backslash and the character behind it stand together.
-/

set_option autoImplicit false

namespace Ducklake.Lib

/-- Behind every backslash is a character that `escaped` allows, and all other characters are
allowed by `plain`. -/
inductive Escaped (plain escaped : Char → Prop) : List Char → Prop
  | nil : Escaped plain escaped []
  | pair {c : Char} {rest : List Char} :
      escaped c → Escaped plain escaped rest → Escaped plain escaped ('\\' :: c :: rest)
  | char {c : Char} {rest : List Char} :
      c ≠ '\\' → plain c → Escaped plain escaped rest → Escaped plain escaped (c :: rest)

/-- The pieces between the separators that no backslash escapes. -/
def splitEscaped (separator : Char) : List Char → List (List Char)
  | [] => [[]]
  | '\\' :: c :: rest => (splitEscaped separator rest).modifyHead (['\\', c] ++ ·)
  | c :: rest =>
      if c = separator then [] :: splitEscaped separator rest
      else (splitEscaped separator rest).modifyHead ([c] ++ ·)

section

variable {plain escaped : Char → Prop} {text : List Char}

theorem Escaped.append {rest : List Char} (front : Escaped plain escaped text)
    (back : Escaped plain escaped rest) : Escaped plain escaped (text ++ rest) := by
  induction front with
  | nil => exact back
  | pair allowed _ ih => exact .pair allowed ih
  | char ordinary allowed _ ih => exact .char ordinary allowed ih

theorem Escaped.mono {plain' escaped' : Char → Prop} (all : Escaped plain escaped text)
    (plains : ∀ c, plain c → plain' c) (pairs : ∀ c, escaped c → escaped' c) :
    Escaped plain' escaped' text := by
  induction all with
  | nil => exact .nil
  | pair allowed _ ih => exact .pair (pairs _ allowed) ih
  | char ordinary allowed _ ih => exact .char ordinary (plains _ allowed) ih

theorem Escaped.of_plain (all : ∀ c ∈ text, c ≠ '\\' ∧ plain c) : Escaped plain escaped text := by
  induction text with
  | nil => exact .nil
  | cons c rest ih =>
      obtain ⟨ordinary, allowed⟩ := all c (by simp)
      exact .char ordinary allowed (ih fun c member => all c (by simp [member]))

theorem Escaped.flatMap {T : Type} {piece : T → List Char} {items : List T}
    (all : ∀ item ∈ items, Escaped plain escaped (piece item)) :
    Escaped plain escaped (items.flatMap piece) := by
  induction items with
  | nil => exact .nil
  | cons item items ih =>
      rw [List.flatMap_cons]
      exact (all item (by simp)).append (ih fun item member => all item (by simp [member]))

theorem Escaped.intercalate {separator : Char} {pieces : List (List Char)}
    (ordinary : separator ≠ '\\') (allowed : plain separator)
    (all : ∀ piece ∈ pieces, Escaped plain escaped piece) :
    Escaped plain escaped ([separator].intercalate pieces) := by
  induction pieces with
  | nil => exact .nil
  | cons piece pieces ih =>
      have rest := ih fun piece member => all piece (by simp [member])
      cases pieces with
      | nil => simpa using all piece (by simp)
      | cons next pieces =>
          rw [List.intercalate_cons_cons]
          exact ((all piece (by simp)).append (.char ordinary allowed .nil)).append rest

/-! ## Splitting -/

variable {separator : Char}

theorem splitEscaped_char {c : Char} (rest : List Char) (ordinary : c ≠ '\\')
    (other : c ≠ separator) :
    splitEscaped separator (c :: rest) = (splitEscaped separator rest).modifyHead ([c] ++ ·) := by
  rw [splitEscaped, if_neg other]
  intro _ _ same
  exact absurd same ordinary

theorem splitEscaped_separator (rest : List Char) (ordinary : separator ≠ '\\') :
    splitEscaped separator (separator :: rest) = [] :: splitEscaped separator rest := by
  rw [splitEscaped, if_pos rfl]
  intro _ _ same
  exact absurd same ordinary

theorem splitEscaped_append (rest : List Char) (ordinary : separator ≠ '\\')
    (whole : Escaped (· ≠ separator) escaped text) :
    splitEscaped separator (text ++ separator :: rest) = text :: splitEscaped separator rest := by
  induction whole with
  | nil => exact splitEscaped_separator rest ordinary
  | pair _ _ ih => simp [splitEscaped, ih]
  | char apart other _ ih => rw [List.cons_append, splitEscaped_char _ apart other, ih]; rfl

theorem splitEscaped_whole (whole : Escaped (· ≠ separator) escaped text) :
    splitEscaped separator text = [text] := by
  induction whole with
  | nil => rfl
  | pair _ _ ih => simp [splitEscaped, ih]
  | char apart other _ ih => rw [splitEscaped_char _ apart other, ih]; rfl

theorem splitEscaped_ended {pieces : List (List Char)} (ordinary : separator ≠ '\\')
    (whole : ∀ piece ∈ pieces, Escaped (· ≠ separator) escaped piece) :
    splitEscaped separator (pieces.flatMap (· ++ [separator])) = pieces ++ [[]] := by
  induction pieces with
  | nil => rfl
  | cons piece pieces ih =>
      rw [List.flatMap_cons, List.append_assoc, List.singleton_append,
        splitEscaped_append _ ordinary (whole piece (by simp)),
        ih fun piece member => whole piece (by simp [member]), List.cons_append]

theorem splitEscaped_intercalate {pieces : List (List Char)} (ordinary : separator ≠ '\\')
    (some_ : pieces ≠ []) (whole : ∀ piece ∈ pieces, Escaped (· ≠ separator) escaped piece) :
    splitEscaped separator ([separator].intercalate pieces) = pieces := by
  induction pieces with
  | nil => exact absurd rfl some_
  | cons piece pieces ih =>
      cases pieces with
      | nil => simpa using splitEscaped_whole (whole piece (by simp))
      | cons next pieces =>
          rw [List.intercalate_cons_cons, List.append_assoc, List.singleton_append,
            splitEscaped_append _ ordinary (whole piece (by simp)),
            ih (by simp) fun piece member => whole piece (by simp [member])]

end

end Ducklake.Lib
