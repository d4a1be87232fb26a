import Mathlib.Data.Nat.Notation

/-!
# Hexadecimal digits

The digits of bytes, in lower and in upper case.
-/

set_option autoImplicit false

namespace Ducklake.Lib

def hexValue (c : Char) : Option Nat :=
  if c.isDigit then some (c.toNat - '0'.toNat)
  else if 'a' ≤ c ∧ c ≤ 'f' then some (c.toNat - 'a'.toNat + 10)
  else if 'A' ≤ c ∧ c ≤ 'F' then some (c.toNat - 'A'.toNat + 10)
  else none

def upperDigit (digit : Nat) : Char :=
  (Nat.digitChar digit).toUpper

def hexByte (high low : Char) : Option UInt8 := do
  return UInt8.ofNat (16 * (← hexValue high) + (← hexValue low))

theorem hexValue_digitChar (digit : Nat) (fits : digit < 16) :
    hexValue (Nat.digitChar digit) = some digit := by
  revert digit
  decide

theorem hexValue_upperDigit (digit : Nat) (fits : digit < 16) :
    hexValue (upperDigit digit) = some digit := by
  revert digit
  decide

theorem high_lt (byte : UInt8) : byte.toNat / 16 < 16 := by
  have := byte.toNat_lt
  omega

theorem low_lt (byte : UInt8) : byte.toNat % 16 < 16 :=
  Nat.mod_lt _ (by decide)

theorem hexByte_of_digits (byte : UInt8) (high low : Char)
    (atHigh : hexValue high = some (byte.toNat / 16))
    (atLow : hexValue low = some (byte.toNat % 16)) :
    hexByte high low = some byte := by
  have whole : 16 * (byte.toNat / 16) + byte.toNat % 16 = byte.toNat := Nat.div_add_mod _ _
  rw [hexByte, atHigh, atLow]
  exact congrArg some ((congrArg UInt8.ofNat whole).trans UInt8.ofNat_toNat)

end Ducklake.Lib
