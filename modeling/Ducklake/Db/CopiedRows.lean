import Mathlib.Data.List.TakeWhile
import Ducklake.Db.PostgresCopy

/-!
# `COPY` stores what `INSERT` stores

The text of `encode_row`, read by the format that PostgreSQL documents.
-/

set_option autoImplicit false

namespace Ducklake.Db

open Lib CopyFormat

/-! ## `INSERT` -/

theorem flatten_chunked {T : Type} (size : Count) (rows : List T) :
    (chunked size rows).flatten = rows := by
  fun_induction chunked size rows with
  | case1 => rfl
  | case2 rows _ ih => rw [List.flatten_cons, ih, List.take_append_drop]

theorem foldlM_insertChunk (chunks : List (List (List Cell))) :
    ∀ stored, chunks.foldlM insertChunk stored =
      if chunks.flatten.all fun row => row.all Cell.isStorable then some (stored ++ chunks.flatten)
      else none := by
  induction chunks with
  | nil => intro stored; simp
  | cons chunk chunks ih =>
      intro stored
      rw [List.foldlM_cons, insertChunk, List.flatten_cons, List.all_append]
      cases chunk.all fun row => row.all Cell.isStorable with
      | false => rfl
      | true => simpa using ih (stored ++ chunk)

theorem insertedRows_eq (table : Table) (rows : List (List Cell)) :
    insertedRows table rows =
      if rows.all fun row => row.all Cell.isStorable then some rows else none := by
  rw [insertedRows, foldlM_insertChunk, flatten_chunked, List.nil_append]

/-! ## `COPY` -/

theorem flatten_messages (rows : List (List Cell)) :
    ∀ buffer, (messages buffer rows).flatten = buffer ++ rows.flatMap encodeRow := by
  induction rows with
  | nil =>
      intro buffer
      rw [messages]
      split
      · rename_i empty
        simp [List.isEmpty_iff.mp empty]
      · simp
  | cons row rows ih =>
      intro buffer
      rw [messages]
      split
      · rw [List.flatten_cons, ih]
        simp
      · rw [ih]
        simp

/-- The encoder writes no delimiter but its own, and no end of the data. -/
abbrev Encoded : Text → Prop :=
  Escaped (fun c => c ≠ '\t' ∧ c ≠ '\n') (fun c => c ≠ '.')

theorem escapeCharacter_encoded (c : Char) : Encoded (escapeCharacter c) := by
  unfold escapeCharacter
  split_ifs with backslash tab newline return_
  · exact .pair (by decide) .nil
  · exact .pair (by decide) .nil
  · exact .pair (by decide) .nil
  · exact .pair (by decide) .nil
  · exact .char backslash ⟨tab, newline⟩ .nil

theorem nullText_encoded : Encoded nullText :=
  .pair (by decide) .nil

abbrev IsPlainCharacter (c : Char) : Prop :=
  c ≠ '\\' ∧ c ≠ '\t' ∧ c ≠ '\n' ∧ c ≠ '\r' ∧ c ≠ '\x00'

def IsPlain (text : Text) : Prop :=
  ∀ c ∈ text, IsPlainCharacter c

theorem IsPlain.encoded {text : Text} (plain : IsPlain text) : Encoded text :=
  .of_plain fun c member => ⟨(plain c member).1, (plain c member).2.1, (plain c member).2.2.1⟩

theorem isPlain_of_isDigit {c : Char} (digit : c.isDigit = true) : IsPlainCharacter c := by
  refine ⟨?_, ?_, ?_, ?_, ?_⟩ <;> (rintro rfl; revert digit; decide)

theorem paddedInt_isPlain (value : Int) : IsPlain (paddedInt 0 value) := by
  intro c member
  cases value with
  | ofNat n => exact isPlain_of_isDigit (isDigit_of_mem_padded 0 n c member)
  | negSucc n =>
      rcases List.mem_cons.mp member with rfl | member
      · decide
      · exact isPlain_of_isDigit (isDigit_of_mem_padded _ _ c member)

theorem digitChar_isPlain (digit : Nat) (fits : digit < 16) :
    Nat.digitChar digit ≠ '-' ∧ IsPlainCharacter (Nat.digitChar digit) := by
  revert digit
  decide

theorem hexDigits_isPlain (byte : UInt8) : IsPlain (hexDigits byte) := by
  intro c member
  rcases List.mem_cons.mp member with rfl | member
  · exact (digitChar_isPlain _ (high_lt byte)).2
  · rw [List.mem_singleton.mp member]
    exact (digitChar_isPlain _ (low_lt byte)).2

/-! ### UUIDs -/

@[simp] theorem readBytes_hexDigits (remaining : Nat) (byte : UInt8) (rest : Text) :
    readBytes (remaining + 1) (hexDigits byte ++ rest) =
      (readBytes remaining (skipHyphen remaining rest)).map (byte :: ·) := by
  have digits := hexByte_of_digits byte _ _ (hexValue_digitChar _ (high_lt byte))
    (hexValue_digitChar _ (low_lt byte))
  rw [hexDigits, List.cons_append, List.cons_append, List.nil_append, readBytes, digits]
  cases readBytes remaining (skipHyphen remaining rest) <;> rfl

@[simp] theorem skipHyphen_hexDigits (remaining : Nat) (byte : UInt8) (rest : Text) :
    skipHyphen remaining (hexDigits byte ++ rest) = hexDigits byte ++ rest := by
  refine if_neg ?_
  rintro ⟨-, -, hyphen⟩
  exact (digitChar_isPlain _ (high_lt byte)).1 (Option.some.inj hyphen)

@[simp] theorem skipHyphen_hyphen (remaining : Nat) (rest : Text) (even : remaining % 2 = 0)
    (more : 0 < remaining) : skipHyphen remaining ('-' :: rest) = rest :=
  if_pos ⟨even, more, rfl⟩

@[simp] theorem skipHyphen_nil (remaining : Nat) : skipHyphen remaining [] = [] :=
  if_neg (by simp)

theorem readUuid_display (uuid : Uuid) : readUuid (Uuid.display uuid) = some uuid := by
  obtain ⟨bytes, length⟩ := uuid
  match bytes, length with
  | [a, b, c, d, e, f, g, h, i, j, k, l, m, n, o, p], length =>
      have skipped : skipHyphen 1 (hexDigits p) = hexDigits p := by
        simpa using skipHyphen_hexDigits 1 p []
      have last : readBytes 1 (hexDigits p) = some [p] := by
        simpa [readBytes] using readBytes_hexDigits 0 p []
      simp [Uuid.display, readUuid, List.intercalate_cons_cons, skipped, last]

theorem IsPlain.append {front back : Text} (first : IsPlain front) (second : IsPlain back) :
    IsPlain (front ++ back) :=
  List.forall_mem_append.mpr ⟨first, second⟩

theorem isPlain_flatMap (bytes : List UInt8) : IsPlain (bytes.flatMap hexDigits) := by
  intro c member
  obtain ⟨byte, -, member⟩ := List.mem_flatMap.mp member
  exact hexDigits_isPlain byte c member

theorem isPlain_intercalate (pieces : List Text) (plain : ∀ piece ∈ pieces, IsPlain piece) :
    IsPlain (['-'].intercalate pieces) := by
  induction pieces with
  | nil => intro c member; cases member
  | cons piece pieces ih =>
      have front := plain piece (by simp)
      have back := ih fun piece member => plain piece (by simp [member])
      cases pieces with
      | nil => simpa using front
      | cons next pieces =>
          have hyphen : IsPlain ['-'] := List.forall_mem_singleton.mpr (by decide)
          rw [List.intercalate_cons_cons]
          exact (front.append hyphen).append back

theorem display_isPlain (uuid : Uuid) : IsPlain (Uuid.display uuid) := by
  apply isPlain_intercalate
  simp [isPlain_flatMap]

/-! ### Values -/

theorem readInt_paddedInt (value : Int) : readInt (paddedInt 0 value) = some value := by
  cases value with
  | ofNat n =>
      have digits := isDigit_of_mem_padded 0 n
      unfold readInt
      split
      · rename_i rest shape
        have sign := digits '-' (by rw [← paddedInt, shape]; simp)
        exact absurd sign (by decide)
      · rw [paddedInt, readNat_padded]
        rfl
  | negSucc n =>
      rw [paddedInt, readInt, readNat_padded]
      rfl

theorem readBigInt_paddedInt (value : BigInt) :
    readBigInt (paddedInt 0 value.1) = some value := by
  rw [readBigInt, readInt_paddedInt, Option.bind_some, dif_pos value.2]

theorem unescape_char (c : Char) (rest : Text) (ordinary : c ≠ '\\') (inLine : c ≠ '\r') :
    unescape 0 (c :: rest) = (unescape 0 rest).map (c :: ·) := by
  rw [unescape, if_neg inLine]
  · intro same
    exact absurd same ordinary
  · intro _ _ same
    exact absurd same ordinary

theorem unescape_plain (text : Text) (plain : IsPlain text) : unescape 0 text = some text := by
  induction text with
  | nil => rfl
  | cons c rest ih =>
      obtain ⟨ordinary, -, -, inLine, -⟩ := plain c (by simp)
      rw [unescape_char c rest ordinary inLine, ih fun c member => plain c (by simp [member])]
      rfl

theorem unescape_escapeCharacter (c : Char) (rest : Text) :
    unescape 0 (escapeCharacter c ++ rest) = (unescape 0 rest).map (c :: ·) := by
  unfold escapeCharacter
  split_ifs with backslash tab newline return_
  · rw [backslash]; rfl
  · rw [tab]; rfl
  · rw [newline]; rfl
  · rw [return_]; rfl
  · exact unescape_char c rest backslash return_

theorem unescape_escaped (text : Text) :
    unescape 0 (text.flatMap escapeCharacter) = some text := by
  induction text with
  | nil => rfl
  | cons c rest ih => rw [List.flatMap_cons, unescape_escapeCharacter, ih]; rfl

theorem escaped_ne_nullText (text : Text) : text.flatMap escapeCharacter ≠ nullText := by
  intro same
  have read := unescape_escaped text
  rw [same] at read
  obtain rfl : ['N'] = text := Option.some.inj read
  exact absurd same (by decide)

theorem readField_null : readField nullText = some none :=
  if_pos rfl

theorem readField_plain (text : Text) (plain : IsPlain text) :
    readField text = some (some text) := by
  have value : text ≠ nullText := fun same => (plain '\\' (by simp [same, nullText])).1 rfl
  have stored : '\x00' ∉ text := fun member => (plain _ member).2.2.2.2 rfl
  rw [readField, if_neg value, unescape_plain text plain]
  simp [Option.filter, stored]

theorem readField_escaped (text : Text) :
    readField (text.flatMap escapeCharacter) =
      if text.contains '\x00' then none else some (some text) := by
  rw [readField, if_neg (escaped_ne_nullText text), unescape_escaped]
  by_cases zero : '\x00' ∈ text <;> simp [Option.filter, zero]

/-- A value is read as it was, unless PostgreSQL cannot store it. -/
theorem readCell_encodeValue (cell : Cell) :
    readCell cell.kind (encodeValue cell) = if cell.isStorable then some cell else none := by
  have null (kind : Kind) : readCell kind nullText = readValue kind none := by
    rw [readCell, readField_null, Option.bind_some]
  have plain (kind : Kind) (text : Text) (all : IsPlain text) :
      readCell kind text = readValue kind (some text) := by
    rw [readCell, readField_plain text all, Option.bind_some]
  cases cell with
  | bool value =>
      cases value with
      | none => exact null .bool
      | some value => cases value <;> rfl
  | bigInt value =>
      cases value with
      | none => exact null .bigInt
      | some value =>
          rw [encodeValue, plain _ _ (paddedInt_isPlain value.1), Cell.kind, readValue,
            readBigInt_paddedInt]
          rfl
  | uuid value =>
      cases value with
      | none => exact null .uuid
      | some value =>
          rw [encodeValue, plain _ _ (display_isPlain value), Cell.kind, readValue,
            readUuid_display]
          rfl
  | string value =>
      cases value with
      | none => exact null .string
      | some value =>
          rw [encodeValue, readCell, readField_escaped, Cell.isStorable]
          cases value.contains '\x00' <;> rfl

/-! ### Lines -/

theorem encodeValue_encoded (cell : Cell) : Encoded (encodeValue cell) := by
  cases cell with
  | bool value =>
      cases value with
      | none => exact nullText_encoded
      | some value => cases value <;> exact .char (by decide) (by decide) .nil
  | bigInt value =>
      cases value with
      | none => exact nullText_encoded
      | some value => exact (paddedInt_isPlain value.1).encoded
  | uuid value =>
      cases value with
      | none => exact nullText_encoded
      | some value => exact (display_isPlain value).encoded
  | string value =>
      cases value with
      | none => exact nullText_encoded
      | some value => exact .flatMap fun c _ => escapeCharacter_encoded c

/-- What `encode_row` writes in front of the newline. -/
def rowLine (row : List Cell) : Text :=
  ['\t'].intercalate (row.map encodeValue)

theorem rowLine_escaped (row : List Cell) :
    Escaped (· ≠ '\n') (fun c => c ≠ '.') (rowLine row) := by
  apply Escaped.intercalate (by decide) (by decide)
  intro piece member
  obtain ⟨cell, -, rfl⟩ := List.mem_map.mp member
  exact (encodeValue_encoded cell).mono (fun _ allowed => allowed.2) fun _ allowed => allowed

theorem rowLine_ne_endOfData (row : List Cell) : rowLine row ≠ endOfData := by
  intro same
  have escaped := rowLine_escaped row
  rw [same] at escaped
  cases escaped with
  | pair allowed _ => exact allowed rfl
  | char ordinary _ _ => exact ordinary rfl

theorem lines_encodeRow (rows : List (List Cell)) :
    lines (rows.flatMap encodeRow) = rows.map rowLine := by
  have stream : rows.flatMap encodeRow = (rows.map rowLine).flatMap (· ++ ['\n']) := by
    rw [List.flatMap_map]
    rfl
  have pieces : splitEscaped '\n' (rows.flatMap encodeRow) = rows.map rowLine ++ [[]] := by
    rw [stream]
    apply splitEscaped_ended (by decide)
    intro line member
    obtain ⟨row, -, rfl⟩ := List.mem_map.mp member
    exact rowLine_escaped row
  have data : ∀ line ∈ rows.map rowLine, decide (line ≠ endOfData) = true := by
    intro line member
    obtain ⟨row, -, rfl⟩ := List.mem_map.mp member
    exact decide_eq_true (rowLine_ne_endOfData row)
  rw [lines, pieces, if_pos List.getLast?_concat, List.dropLast_concat]
  exact List.takeWhile_eq_self_iff.mpr data

/-! ## Both ways store the same rows -/

theorem readAll_map {K T V : Type} (read : K → T → Option V) (kind : V → K) (field : V → T)
    (storable : V → Bool) (values : List V)
    (each : ∀ value ∈ values,
      read (kind value) (field value) = if storable value then some value else none) :
    readAll read (values.map kind) (values.map field) =
      if values.all storable then some values else none := by
  induction values with
  | nil => rfl
  | cons value values ih =>
      have rest := ih fun value member => each value (by simp [member])
      rw [List.map_cons, List.map_cons, readAll, each value (by simp), rest, List.all_cons]
      cases storable value <;> cases values.all storable <;> rfl

theorem readRow_rowLine (row : List Cell) (nonempty : row ≠ []) :
    readRow (row.map Cell.kind) (rowLine row) =
      if row.all Cell.isStorable then some row else none := by
  have fields : splitEscaped '\t' (rowLine row) = row.map encodeValue := by
    apply splitEscaped_intercalate (by decide) (by simpa using nonempty)
    intro piece member
    obtain ⟨cell, -, rfl⟩ := List.mem_map.mp member
    exact (encodeValue_encoded cell).mono (fun _ allowed => allowed.1) fun _ allowed => allowed
  rw [readRow, fields]
  exact readAll_map readCell Cell.kind encodeValue Cell.isStorable row fun cell _ =>
    readCell_encodeValue cell

/-- The messages of a `COPY`, read by the documented format, are the rows that the `INSERT`
statements store. -/
theorem copiedRows_eq_insertedRows
    (table : Table)
    (rows : List (List Cell))
    (wide : ∀ row ∈ rows, row.length = table.columns.length) :
    copiedRows (rows.map fun row => row.map Cell.kind) (messages [] rows).flatten =
      insertedRows table rows := by
  have nonempty : ∀ row ∈ rows, row ≠ [] := by
    intro row member
    apply List.ne_nil_of_length_pos
    rw [wide row member]
    exact table.nonempty
  rw [copiedRows, flatten_messages, List.nil_append, lines_encodeRow, insertedRows_eq]
  exact readAll_map readRow (fun row => row.map Cell.kind) rowLine _ rows fun row member =>
    readRow_rowLine row (nonempty row member)

/-- Texts of delimiters and escapes, and a null beside the text of a null. -/
def delimiterRows : List (List Cell) :=
  [[.string (some "a\tb\n".toList), .string none], [.string (some []), .string (some nullText)]]

theorem copiedRows_eq_insertedRows_delimiterRows :
    copiedRows (delimiterRows.map fun row => row.map Cell.kind)
      (messages [] delimiterRows).flatten = some delimiterRows :=
  (copiedRows_eq_insertedRows ⟨["key".toList, "value".toList], by decide, by decide⟩ delimiterRows
    (by decide)).trans (insertedRows_eq _ _)

end Ducklake.Db
