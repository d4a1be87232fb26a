import Ducklake.Typedefs.Data

/-!
# The environment

The functions that the modelled operations call outside the modelled code: the literal texts of
values, URLs, the SQL parser, the casts of Arrow and the reader of Parquet files, with the
settings of the catalog that no transaction changes.
-/

set_option autoImplicit false

namespace Ducklake

structure Environment where
  dialect : Dialect
  encrypted : Bool
  formatValue : Value → Text
  parseValue : DataType → Text → DucklakeResult (Option Value)
  parsePath : Text → DucklakeResult DucklakePath
  /-- A URL with a slash at the end of its path. -/
  directoryUrl : Text → Text
  /-- The normalised text of a single `SELECT` query. -/
  parseSelectQuery : Text → DucklakeResult Text
  validateImplementations :
    MacroType → List MacroImplementation → DucklakeResult (List MacroImplementation)
  /-- The statistics of the file below the paths of its schema and table. -/
  readFileStatistics : List DucklakePath → Option Text → DucklakeResult DataFileStatistics
  /-- A scalar cast to the type and repeated. -/
  broadcastScalar : Scalar → DataType → Nat → DucklakeResult Io.ArrowArray

namespace Environment

/-- An environment for runs on concrete inputs without values and files: all paths are relative. -/
def plain : Environment where
  dialect := .sqlite
  encrypted := false
  formatValue := fun _ => []
  parseValue := fun _ _ => .ok none
  parsePath := fun path => .ok (.relative path)
  directoryUrl := fun url => url
  parseSelectQuery := fun sql => .ok sql
  validateImplementations := fun _ implementations => .ok implementations
  readFileStatistics := fun _ _ => .error .rowNotFound
  broadcastScalar := fun _ _ _ => .error .rowNotFound

/-- `Value::to_string_opt` -/
def formatValueOpt (env : Environment) (value : Option Value) : Text :=
  match value with
  | some value => env.formatValue value
  | none => "NULL".toList

def ensureDirectory (env : Environment) : DucklakePath → DucklakePath
  | .absolute url => .absolute (env.directoryUrl url)
  | .relative path =>
      if path.getLast? = some '/' then .relative path else .relative (path ++ ['/'])

end Environment

end Ducklake
