import Ducklake.Catalog.Catalog
import Ducklake.Io.RecordBatch

/-!
# Data files and inline data

The descriptions of written data of `typedefs/data` and `transaction/typedefs.rs`, with the
statistics they carry.
-/

set_option autoImplicit false

namespace Ducklake

open Lib

structure FileColumnStats where
  sizeBytes : Option Nat
  minValue : Option Value
  maxValue : Option Value
  nullCount : Option Nat
  containsNan : Option Bool
  deriving DecidableEq

/-- Statistics describing the contents of a data file, with the columns by field id. -/
structure DataFileStatistics where
  numRows : Nat
  fileSizeBytes : Option Nat
  footerSizeBytes : Option Nat
  columnStats : IndexMap Int FileColumnStats
  deriving DecidableEq

structure ArrayColumnStats where
  minValue : Option Value
  maxValue : Option Value
  nullCount : Option Nat
  containsNan : Option Bool
  deriving DecidableEq

/-- Description of a data file that should be committed to a table.  Without statistics, they
are computed from the file. -/
structure WriteDataFile where
  path : Text
  encryptionKey : Option Text
  statistics : Option DataFileStatistics
  partitionValues : Option (IndexMap Text (Option Value))
  deriving DecidableEq

structure ScanDeleteFile where
  path : Text
  encryptionKey : Option Text
  numDeletes : Nat
  fileSizeBytes : Option Nat
  footerSizeBytes : Option Nat
  deriving DecidableEq

structure TransferDataFile where
  dataFile : WriteDataFile
  partitionValues : Option (List (Option Text))
  deleteFiles : List ScanDeleteFile
  inlineDeletes : List Int
  deriving DecidableEq

structure CommitDeleteFile where
  path : DucklakePath
  encryptionKey : Option Text
  numDeletes : Nat
  fileSizeBytes : Option Nat
  footerSizeBytes : Option Nat
  deriving DecidableEq

structure CommitDataFile where
  path : DucklakePath
  encryptionKey : Option Text
  partitionValues : Option (List (Option Text))
  numRows : Nat
  fileSizeBytes : Option Nat
  footerSizeBytes : Option Nat
  columnStats : IndexMap ColumnRef FileColumnStats
  deleteFiles : List CommitDeleteFile
  inlineDeletes : List Int
  deriving DecidableEq

structure CommitInlineData where
  recordBatch : Io.RecordBatch
  columnStats : IndexMap ColumnRef ArrayColumnStats
  deriving DecidableEq

end Ducklake
