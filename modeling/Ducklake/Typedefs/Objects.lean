import Ducklake.Typedefs.Name
import Ducklake.Typedefs.Schema

/-!
# Tables, views and macros as the user describes them

The descriptions that `create_table`, `create_view` and `create_macro` receive, with the texts
their enumerations are stored as.
-/

set_option autoImplicit false

namespace Ducklake

/-! ## Paths -/

/-- A path stored in the catalog: a URL, or a path relative to the parent's data path. -/
inductive DucklakePath where
  | absolute (url : Text)
  | relative (path : Text)
  deriving DecidableEq, Repr

namespace DucklakePath

/-- A stored path: the text of a URL is already in its canonical form. -/
def new (path : Text) (isRelative : Bool) : DucklakePath :=
  if isRelative then relative path else absolute path

def isRelative : DucklakePath → Bool
  | relative _ => true
  | absolute _ => false

def display : DucklakePath → Text
  | absolute url => url
  | relative path => path

end DucklakePath

/-! ## Partitioning -/

inductive PartitionTransform where
  | identity
  | bucket (count : Nat)
  | year
  | month
  | day
  | hour
  deriving DecidableEq, Repr

def PartitionTransform.display : PartitionTransform → Text
  | identity => "identity".toList
  | bucket count => "bucket(".toList ++ Nat.toDigits 10 count ++ ")".toList
  | year => "year".toList
  | month => "month".toList
  | day => "day".toList
  | hour => "hour".toList

def parseDigitsBetween (front back s : Text) (limit : Nat) : Option Nat :=
  match s.dropPrefix? front with
  | none => none
  | some rest =>
      let digits := rest.takeWhile Char.isDigit
      let number := Nat.ofDigitChars 10 digits 0
      if rest = digits ++ back ∧ digits ≠ [] ∧ number < limit then some number else none

def PartitionTransform.parse (s : Text) : DucklakeResult PartitionTransform :=
  if s = "identity".toList then .ok identity
  else if s = "year".toList then .ok year
  else if s = "month".toList then .ok month
  else if s = "day".toList then .ok day
  else if s = "hour".toList then .ok hour
  else
    match parseDigitsBetween "bucket(".toList ")".toList s (Nat.pow 2 32) with
    | some count => .ok (bucket count)
    | none => .error (.invalidPartitionTransform s)

/-- A column used to partition a table along with the transform applied to its values. -/
structure PartitionColumn where
  column : Text
  transform : PartitionTransform
  deriving DecidableEq, Repr

abbrev Partition := List PartitionColumn

/-! ## Sort order -/

inductive SortDirection where
  | ascending
  | descending
  deriving DecidableEq, Repr

def SortDirection.display : SortDirection → Text
  | ascending => "ASC".toList
  | descending => "DESC".toList

def SortDirection.parse (s : Text) : DucklakeResult SortDirection :=
  if s = "ASC".toList then .ok ascending
  else if s = "DESC".toList then .ok descending
  else .error (.invalidSortDirection s)

inductive NullOrder where
  | nullsFirst
  | nullsLast
  deriving DecidableEq, Repr

def NullOrder.display : NullOrder → Text
  | nullsFirst => "NULLS_FIRST".toList
  | nullsLast => "NULLS_LAST".toList

def NullOrder.parse (s : Text) : DucklakeResult NullOrder :=
  if s = "NULLS_FIRST".toList then .ok nullsFirst
  else if s = "NULLS_LAST".toList then .ok nullsLast
  else .error (.invalidNullOrder s)

/-- An ordered column in a table's sort configuration. -/
structure SortExpression where
  expression : Text
  dialect : Text
  direction : SortDirection
  nullOrder : NullOrder
  deriving DecidableEq, Repr

abbrev SortInfo := List SortExpression

/-! ## Macros -/

inductive MacroType where
  | scalar
  | table
  deriving DecidableEq, Repr

def MacroType.display : MacroType → Text
  | scalar => "scalar".toList
  | table => "table".toList

def MacroType.parse (s : Text) : DucklakeResult MacroType :=
  if s = "scalar".toList then .ok scalar
  else if s = "table".toList then .ok table
  else .error (.invalidMacro ("unknown macro type '".toList ++ s ++ "'".toList))

structure MacroParameter where
  name : Text
  dataType : Text
  defaultValue : Option Text
  defaultValueType : Text
  deriving DecidableEq, Repr

structure MacroImplementation where
  dialect : Text
  sql : Text
  parameters : List MacroParameter
  deriving DecidableEq, Repr

structure MacroInfo where
  name : QualifiedName
  macroType : MacroType
  implementations : List MacroImplementation
  deriving DecidableEq

/-! ## Tables and views -/

structure TableInfo where
  name : QualifiedName
  schema : Schema
  partitioning : Option Partition
  sortInfo : Option SortInfo
  tags : Tags
  deriving DecidableEq

structure ViewInfo where
  name : QualifiedName
  sql : Text
  dialect : Text
  columnAliases : Option (List Text)
  tags : Tags
  deriving DecidableEq

/-- `to_ascii_lowercase` -/
def asciiLowercase (s : Text) : Text :=
  s.map Char.toLower

def eqIgnoreAsciiCase (a b : Text) : Bool :=
  asciiLowercase a = asciiLowercase b

end Ducklake
