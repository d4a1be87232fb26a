import Ducklake.Db.Batch
import Ducklake.Lib.Digits
import Ducklake.Lib.Escapes
import Ducklake.Lib.Hex

/-!
# Rows for `COPY`

The two ways in which `db/batch.rs` inserts the rows of buffered entities into PostgreSQL:
`INSERT` statements that stay within the parameter limit, and the text of a `COPY`, encoded by
`db/postgres_copy.rs`.
-/

set_option autoImplicit false

namespace Ducklake.Db

open Lib

/-! ## Rows -/

abbrev BigInt := { value : Int // -2 ^ 63 ≤ value ∧ value < 2 ^ 63 }

abbrev Uuid := { bytes : List UInt8 // bytes.length = 16 }

inductive Kind
  | bool
  | bigInt
  | string
  | uuid
  deriving DecidableEq, Repr

/-- The values that `supports` lets through. -/
inductive Cell
  | bool (value : Option Bool)
  | bigInt (value : Option BigInt)
  | string (value : Option Text)
  | uuid (value : Option Uuid)
  deriving DecidableEq

def Cell.kind : Cell → Kind
  | bool _ => .bool
  | bigInt _ => .bigInt
  | string _ => .string
  | uuid _ => .uuid

/-- PostgreSQL has no text with the character zero. -/
def Cell.isStorable : Cell → Bool
  | string (some value) => !value.contains '\x00'
  | _ => true

/-- A table has the columns of its entity, and PostgreSQL allows 1600 of them. -/
structure Table where
  columns : List Text
  nonempty : 0 < columns.length
  bounded : columns.length ≤ 1600

/-! ## `INSERT` -/

/-- The chunks that `take` leaves of an iterator. -/
def chunked {T : Type} (size : Count) (rows : List T) : List (List T) :=
  if rows = [] then []
  else rows.take size :: chunked size (rows.drop size)
termination_by rows.length
decreasing_by
  have := List.length_pos_iff.mpr ‹_›
  have := size.2
  rw [List.length_drop]
  omega

def Table.chunkSize (table : Table) : Count :=
  ⟨Dialect.maxBindParams .postgres / table.columns.length,
    Nat.div_pos (table.bounded.trans (by decide)) table.nonempty⟩

/-- A statement stores its parameters, or it fails and takes the transaction with it. -/
def insertChunk (stored chunk : List (List Cell)) : Option (List (List Cell)) :=
  if chunk.all fun row => row.all Cell.isStorable then some (stored ++ chunk) else none

/-- The rows that the statements of `insert_rows` store. -/
def insertedRows (table : Table) (rows : List (List Cell)) : Option (List (List Cell)) :=
  (chunked table.chunkSize rows).foldlM insertChunk []

/-! ## `COPY` -/

def hexDigits (byte : UInt8) : Text :=
  [Nat.digitChar (byte.toNat / 16), Nat.digitChar (byte.toNat % 16)]

/-- The display of a UUID, with hyphens and in lower case. -/
def Uuid.display (uuid : Uuid) : Text :=
  ['-'].intercalate
    [(uuid.1.take 4).flatMap hexDigits, ((uuid.1.drop 4).take 2).flatMap hexDigits,
      ((uuid.1.drop 6).take 2).flatMap hexDigits, ((uuid.1.drop 8).take 2).flatMap hexDigits,
      (uuid.1.drop 10).flatMap hexDigits]

def escapeCharacter (c : Char) : Text :=
  if c = '\\' then ['\\', '\\']
  else if c = '\t' then ['\\', 't']
  else if c = '\n' then ['\\', 'n']
  else if c = '\r' then ['\\', 'r']
  else [c]

def nullText : Text := ['\\', 'N']

/-- What `encode_row` writes for a value. -/
def encodeValue : Cell → Text
  | .bool (some value) => if value then ['t'] else ['f']
  | .bigInt (some value) => paddedInt 0 value
  | .uuid (some value) => Uuid.display value
  | .string (some value) => value.flatMap escapeCharacter
  | .bool none | .bigInt none | .string none | .uuid none => nullText

def encodeRow (row : List Cell) : Text :=
  ['\t'].intercalate (row.map encodeValue) ++ ['\n']

/-- The messages of `insert`, which go out when the buffer has 64 KiB of UTF-8. -/
def messages (buffer : Text) : List (List Cell) → List Text
  | [] => if buffer.isEmpty then [] else [buffer]
  | row :: rows =>
      let buffer := buffer ++ encodeRow row
      if 64 * 1024 ≤ (String.ofList buffer).utf8ByteSize then buffer :: messages [] rows
      else messages buffer rows

/-! ## The text format of `COPY` -/

namespace CopyFormat

def isOctal (c : Char) : Bool := '0' ≤ c ∧ c ≤ '7'

def numberOf (base : Nat) (digits : Text) : Nat :=
  digits.foldl (fun number c => number * base + (hexValue c).getD 0) 0

/-- A byte by its number.  The bytes of longer characters are left out. -/
def asciiCharacter (number : Nat) : Option Char :=
  if number < 128 then some (Char.ofNat number) else none

/-- The character that a backslash and the character behind it stand for, and how many of the
characters that follow are part of it. -/
def escapeSequence (c : Char) (rest : Text) : Option Char × Nat :=
  match c with
  | 'b' => (some '\x08', 0)
  | 'f' => (some '\x0c', 0)
  | 'n' => (some '\n', 0)
  | 'r' => (some '\r', 0)
  | 't' => (some '\t', 0)
  | 'v' => (some '\x0b', 0)
  | 'x' =>
      let digits := (rest.takeWhile fun c => (hexValue c).isSome).take 2
      if digits.isEmpty then (some 'x', 0) else (asciiCharacter (numberOf 16 digits), digits.length)
  | c =>
      if isOctal c then
        let digits := (rest.takeWhile isOctal).take 2
        (asciiCharacter (numberOf 8 (c :: digits) % 256), digits.length)
      else (some c, 0)

/-- A text without its backslash sequences.  The first `skip` characters are already read, and a
carriage return that stands for itself is an error. -/
def unescape : Nat → Text → Option Text
  | _, [] => some []
  | skip + 1, _ :: rest => unescape skip rest
  | 0, ['\\'] => some []
  | 0, '\\' :: c :: rest =>
      match escapeSequence c rest with
      | (some value, skip) => (unescape skip rest).map (value :: ·)
      | (none, _) => none
  | 0, c :: rest => if c = '\r' then none else (unescape 0 rest).map (c :: ·)

/-- A field: null, or the text of its value. -/
def readField (field : Text) : Option (Option Text) :=
  if field = nullText then some none
  else ((unescape 0 field).filter fun text => !text.contains '\x00').map some

def endOfData : Text := ['\\', '.']

/-- The lines up to the end of the data.  The last one may have no newline. -/
def lines (stream : Text) : List Text :=
  let pieces := splitEscaped '\n' stream
  (if pieces.getLast? = some [] then pieces.dropLast else pieces).takeWhile (· ≠ endOfData)

/-! ### Values by their kind -/

def readBool (text : Text) : Option Bool :=
  if ["t", "true", "y", "yes", "on", "1"].any fun word => text = word.toList then some true
  else if ["f", "false", "n", "no", "off", "0"].any fun word => text = word.toList then some false
  else none

def readInt : Text → Option Int
  | '-' :: digits => (readNat digits).map fun n => -n
  | digits => (readNat digits).map Int.ofNat

def readBigInt (text : Text) : Option BigInt :=
  (readInt text).bind fun value =>
    if fits : -2 ^ 63 ≤ value ∧ value < 2 ^ 63 then some ⟨value, fits⟩ else none

/-- A hyphen may follow each group of four digits but the last. -/
def skipHyphen (remaining : Nat) (text : Text) : Text :=
  if remaining % 2 = 0 ∧ 0 < remaining ∧ text.head? = some '-' then text.tail else text

def readBytes : Nat → Text → Option (List UInt8)
  | 0, text => if text.isEmpty then some [] else none
  | remaining + 1, high :: low :: rest => do
      let byte ← hexByte high low
      let bytes ← readBytes remaining (skipHyphen remaining rest)
      return byte :: bytes
  | _ + 1, _ => none

def readUuid (text : Text) : Option Uuid :=
  (readBytes 16 text).bind fun bytes =>
    if fits : bytes.length = 16 then some ⟨bytes, fits⟩ else none

def readValue : Kind → Option Text → Option Cell
  | .bool, none => some (.bool none)
  | .bool, some text => (readBool text).map fun value => .bool (some value)
  | .bigInt, none => some (.bigInt none)
  | .bigInt, some text => (readBigInt text).map fun value => .bigInt (some value)
  | .string, none => some (.string none)
  | .string, some text => some (.string (some text))
  | .uuid, none => some (.uuid none)
  | .uuid, some text => (readUuid text).map fun value => .uuid (some value)

/-- As many values as there are fields, each read as its own kind says. -/
def readAll {K T V : Type} (read : K → T → Option V) : List K → List T → Option (List V)
  | [], [] => some []
  | kind :: kinds, field :: fields => do
      let value ← read kind field
      let values ← readAll read kinds fields
      return value :: values
  | _, _ => none

def readCell (kind : Kind) (field : Text) : Option Cell :=
  (readField field).bind (readValue kind)

def readRow (kinds : List Kind) (line : Text) : Option (List Cell) :=
  readAll readCell kinds (splitEscaped '\t' line)

end CopyFormat

/-- The rows of a stream by the documented format, where `kinds` says what kind each value has. -/
def copiedRows (kinds : List (List Kind)) (stream : Text) : Option (List (List Cell)) :=
  CopyFormat.readAll CopyFormat.readRow kinds (CopyFormat.lines stream)

end Ducklake.Db
