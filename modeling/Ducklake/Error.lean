import Ducklake.Utils.Identifier

/-!
# Errors

The errors of `error.rs` that the modelled operations return.
-/

set_option autoImplicit false

namespace Ducklake

/-- `panicked` is no value of the source's type: it records that a call reached a panic. -/
inductive DucklakeError where
  | alreadyExists (entity name : Text)
  | notFound (entity name : Text)
  | entityNotFound (id : Int)
  | columnNotFound (id : Int)
  | invalidChanges (message : Text)
  | invalidDataType (message : Text)
  | invalidPartitions (message : Text)
  | invalidPartitionTransform (text : Text)
  | invalidSortDirection (text : Text)
  | invalidNullOrder (text : Text)
  | invalidSchemaName (name reason : Text)
  | invalidQualifiedName (name reason : Text)
  | invalidView (reason : Text)
  | invalidMacro (reason : Text)
  | invalidColumnName (name reason : Text)
  | duplicateColumnName (name : Text)
  | transactionConflict (message : Text)
  | retriesExceeded
  | uniqueViolation (table : Text)
  | tableAlreadyExists (table : Text)
  | rowNotFound
  | columnDecode
  | parsing (message : Text)
  | invalidPath (path reason : Text)
  | invalidDefault (column reason : Text)
  | invalidNullabilityChange (column : Text)
  | invalidNullValue (column : Text)
  | unsupportedUrlScheme (scheme : Text)
  | parquet (message : Text)
  | objectStore (message : Text)
  | readonlyDucklake
  | invalidCast (old new : Text)
  | unsupportedArrowDataType (name : Text)
  | schemaError (message : Text)
  | database (message : Text)
  | panicked (site : Text)
  deriving DecidableEq, Repr

abbrev DucklakeResult (α : Type) := Except DucklakeError α

def DucklakeError.isPanic : DucklakeError → Bool
  | panicked _ => true
  | _ => false

def panics {α : Type} : DucklakeResult α → Bool
  | .ok _ => false
  | .error err => err.isPanic

end Ducklake
