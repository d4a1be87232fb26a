import Mathlib.Algebra.GroupWithZero.Nat
import Mathlib.Data.List.Basic

/-!
# Decimal numbers

Numbers written with ASCII digits, with or without leading zeros.
-/

set_option autoImplicit false

namespace Ducklake.Lib

def readNat (text : List Char) : Option Nat :=
  if text ≠ [] ∧ text.all Char.isDigit then some (Nat.ofDigitChars 10 text 0) else none

def padded (width n : Nat) : List Char :=
  List.replicate (width - (Nat.toDigits 10 n).length) '0' ++ Nat.toDigits 10 n

/-- As `padded`, where a sign counts as part of the width. -/
def paddedInt (width : Nat) : Int → List Char
  | .ofNat n => padded width n
  | .negSucc n => '-' :: padded (width - 1) (n + 1)

theorem isDigit_of_mem_padded (width n : Nat) (c : Char) (member : c ∈ padded width n) :
    c.isDigit = true := by
  rcases List.mem_append.mp member with zero | digit
  · rw [List.eq_of_mem_replicate zero]
    rfl
  · exact Nat.isDigit_of_mem_toDigits (by decide) (by decide) digit

theorem padded_ne_nil (width n : Nat) : padded width n ≠ [] := by
  simp [padded, Nat.toDigits_ne_nil]

@[simp] theorem readNat_padded (width n : Nat) : readNat (padded width n) = some n := by
  have digits : (padded width n).all Char.isDigit = true :=
    List.all_eq_true.mpr (isDigit_of_mem_padded width n)
  rw [readNat, if_pos ⟨padded_ne_nil width n, digits⟩, padded, Nat.ofDigitChars_append,
    Nat.ofDigitChars_replicate_zero, Nat.mul_zero, Nat.ofDigitChars_ten_toDigits]

theorem length_padded (width n : Nat) (positive : 0 < width) (fits : n < 10 ^ width) :
    (padded width n).length = width := by
  have short := (Nat.length_toDigits_le_iff (by decide) positive).mpr fits
  rw [padded, List.length_append, List.length_replicate]
  omega

theorem padded_two (n : Nat) (fits : n < 100) :
    ∃ tens ones : Char, padded 2 n = [tens, ones] ∧ tens.isDigit = true ∧ ones.isDigit = true := by
  have length := length_padded 2 n (by decide) fits
  have digits := isDigit_of_mem_padded 2 n
  match shape : padded 2 n, length with
  | [tens, ones], _ =>
      rw [shape] at digits
      exact ⟨tens, ones, rfl, digits tens (by simp), digits ones (by simp)⟩

theorem padded_two_eq (n : Nat) (fits : n < 100) :
    padded 2 n = [Nat.digitChar (n / 10), Nat.digitChar (n % 10)] := by
  by_cases single : n < 10
  · rw [padded, Nat.toDigits_of_lt_base single, Nat.div_eq_of_lt single, Nat.mod_eq_of_lt single]
    rfl
  · have tens : n / 10 < 10 := by omega
    rw [padded, Nat.toDigits_of_base_le (by decide) (Nat.le_of_not_lt single),
      Nat.toDigits_of_lt_base tens]
    rfl

theorem padded_two_split (n : Nat) :
    ∃ front, (∀ c ∈ front, c.isDigit = true) ∧ padded 2 n = front ++ padded 2 (n % 100) := by
  by_cases fits : n < 100
  · exact ⟨[], by simp, by rw [Nat.mod_eq_of_lt fits, List.nil_append]⟩
  · have tens : 10 ≤ n / 10 := by omega
    refine ⟨Nat.toDigits 10 (n / 10 / 10), ?_, ?_⟩
    · intro c member
      exact Nat.isDigit_of_mem_toDigits (by decide) (by decide) member
    · have wide : padded 2 n = Nat.toDigits 10 n := by
        have length : ¬ (Nat.toDigits 10 n).length ≤ 1 := by
          rw [Nat.length_toDigits_le_iff (by decide) (by decide)]
          omega
        rw [padded, Nat.sub_eq_zero_of_le (by omega), List.replicate_zero, List.nil_append]
      rw [wide, Nat.toDigits_of_base_le (by decide) (by omega : 10 ≤ n),
        Nat.toDigits_of_base_le (by decide) tens, padded_two_eq _ (Nat.mod_lt n (by decide)),
        Nat.mod_mod_of_dvd n (by decide : 10 ∣ 100), (by omega : n % 100 / 10 = n / 10 % 10),
        List.append_assoc]
      rfl

end Ducklake.Lib
