import Mathlib.Data.List.Basic
import Ducklake.Lib.Hex

/-!
# Percent encoding

Texts by the bytes of their UTF-8, where bytes that are not kept are written with a percent sign.
-/

set_option autoImplicit false

namespace Ducklake.Lib

def utf8Bytes (text : List Char) : List UInt8 :=
  text.flatMap String.utf8EncodeChar

def utf8Text (bytes : List UInt8) : Option (List Char) :=
  bytes.toByteArray.utf8Decode?.map Array.toList

theorem utf8Text_utf8Bytes (text : List Char) : utf8Text (utf8Bytes text) = some text := by
  have decoded := @List.utf8Decode?_utf8Encode text
  rw [List.utf8Encode] at decoded
  rw [utf8Text, utf8Bytes, decoded]
  rfl

def encodeByte (keeps : Char → Bool) (byte : UInt8) : List Char :=
  if byte.toNat < 128 ∧ keeps (Char.ofNat byte.toNat) = true then [Char.ofNat byte.toNat]
  else ['%', upperDigit (byte.toNat / 16), upperDigit (byte.toNat % 16)]

def percentEncode (keeps : Char → Bool) (text : List Char) : List Char :=
  (utf8Bytes text).flatMap (encodeByte keeps)

/-- A percent sign without two digits behind it stands for itself. -/
def percentDecode : List Char → List UInt8
  | [] => []
  | '%' :: high :: low :: rest =>
      match hexByte high low with
      | some byte => byte :: percentDecode rest
      | none => String.utf8EncodeChar '%' ++ percentDecode (high :: low :: rest)
  | c :: rest => String.utf8EncodeChar c ++ percentDecode rest

theorem percentDecode_char (c : Char) (rest : List Char) (plain : c ≠ '%') :
    percentDecode (c :: rest) = String.utf8EncodeChar c ++ percentDecode rest := by
  rw [percentDecode]
  intro _ _ _ same
  exact absurd same plain

theorem utf8EncodeChar_ascii (byte : UInt8) (ascii : byte.toNat < 128) :
    String.utf8EncodeChar (Char.ofNat byte.toNat) = [byte] := by
  have all : ∀ n < 128, String.utf8EncodeChar (Char.ofNat n) = [UInt8.ofNat n] := by decide
  rw [all _ ascii, UInt8.ofNat_toNat]

theorem percentDecode_encodeByte (keeps : Char → Bool) (sign : keeps '%' = false) (byte : UInt8)
    (rest : List Char) :
    percentDecode (encodeByte keeps byte ++ rest) = byte :: percentDecode rest := by
  rw [encodeByte]
  split
  · rename_i kept
    have plain : Char.ofNat byte.toNat ≠ '%' := by
      intro same
      rw [same, sign] at kept
      cases kept.2
    rw [List.singleton_append, percentDecode_char _ _ plain, utf8EncodeChar_ascii byte kept.1]
    rfl
  · have digits := hexByte_of_digits byte _ _ (hexValue_upperDigit _ (high_lt byte))
      (hexValue_upperDigit _ (low_lt byte))
    rw [List.cons_append, List.cons_append, List.cons_append, List.nil_append, percentDecode,
      digits]

theorem percentDecode_percentEncode (keeps : Char → Bool) (sign : keeps '%' = false)
    (text : List Char) : percentDecode (percentEncode keeps text) = utf8Bytes text := by
  have bytes : ∀ bytes : List UInt8, percentDecode (bytes.flatMap (encodeByte keeps)) = bytes := by
    intro bytes
    induction bytes with
    | nil => rfl
    | cons byte bytes ih => rw [List.flatMap_cons, percentDecode_encodeByte keeps sign, ih]
  exact bytes (utf8Bytes text)

theorem notMem_percentEncode (keeps : Char → Bool) (text : List Char) (c : Char)
    (replaced : keeps c = false) (plain : c ≠ '%') (noDigit : hexValue c = none) :
    c ∉ percentEncode keeps text := by
  intro member
  obtain ⟨byte, -, member⟩ := List.mem_flatMap.mp member
  have digit : ∀ n < 16, c ≠ upperDigit n := by
    rintro n fits rfl
    rw [hexValue_upperDigit n fits] at noDigit
    cases noDigit
  rw [encodeByte] at member
  split at member
  · rename_i kept
    rw [List.mem_singleton.mp member, kept.2] at replaced
    cases replaced
  · simp [plain, digit _ (high_lt byte), digit _ (low_lt byte)] at member

end Ducklake.Lib
