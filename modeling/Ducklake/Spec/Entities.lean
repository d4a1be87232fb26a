import Ducklake.Io.RecordBatch
import Ducklake.Lib.Versioned
import Ducklake.Typedefs.Objects

/-!
# The metadata database

The rows of the DuckLake tables in `spec/entities.rs`.  A table with the columns
`begin_snapshot` and `end_snapshot` is a list of versioned entities.  Columns that no modelled
operation reads, such as the random UUIDs, are left out.
-/

set_option autoImplicit false

namespace Ducklake.Spec

open Lib

structure DucklakeSnapshot where
  snapshotId : Int
  snapshotTime : Int
  schemaVersion : Int
  nextCatalogId : Int
  nextFileId : Int
  deriving DecidableEq, Repr

structure DucklakeSnapshotChanges where
  snapshotId : Int
  changesMade : Text
  deriving DecidableEq, Repr

structure DucklakeSchemaVersions where
  beginSnapshot : Int
  schemaVersion : Int
  tableId : Option Int
  deriving DecidableEq, Repr

structure DucklakeSchema where
  schemaId : Int
  schemaName : Text
  path : Text
  pathIsRelative : Bool
  deriving DecidableEq, Repr

structure DucklakeTable where
  tableId : Int
  schemaId : Int
  tableName : Text
  path : Text
  pathIsRelative : Bool
  deriving DecidableEq, Repr

structure DucklakeView where
  viewId : Int
  schemaId : Int
  viewName : Text
  dialect : Text
  sql : Text
  columnAliases : Option Text
  deriving DecidableEq, Repr

structure DucklakeMacro where
  schemaId : Int
  macroId : Int
  macroName : Text
  deriving DecidableEq, Repr

structure DucklakeMacroImpl where
  macroId : Int
  implId : Nat
  dialect : Text
  sql : Text
  type : Text
  deriving DecidableEq, Repr

structure DucklakeMacroParameters where
  macroId : Int
  implId : Nat
  columnId : Nat
  parameterName : Text
  parameterType : Text
  defaultValue : Option Text
  defaultValueType : Text
  deriving DecidableEq, Repr

structure DucklakeColumn where
  columnId : Int
  tableId : Int
  columnOrder : Option Int
  columnName : Text
  columnType : Text
  initialDefault : Option Text
  defaultValue : Option Text
  nullsAllowed : Bool
  parentColumn : Option Int
  defaultValueType : Option Text
  defaultValueDialect : Option Text
  deriving DecidableEq, Repr

structure DucklakeTag where
  objectId : Int
  key : Text
  value : Text
  deriving DecidableEq, Repr

structure DucklakeColumnTag where
  tableId : Int
  columnId : Int
  key : Text
  value : Text
  deriving DecidableEq, Repr

structure DucklakePartitionInfo where
  partitionId : Int
  tableId : Int
  deriving DecidableEq, Repr

structure DucklakePartitionColumn where
  partitionId : Int
  tableId : Int
  partitionKeyIndex : Nat
  columnId : Int
  transform : Text
  deriving DecidableEq, Repr

structure DucklakeSortInfo where
  sortId : Int
  tableId : Int
  deriving DecidableEq, Repr

structure DucklakeSortExpression where
  sortId : Int
  tableId : Int
  sortKeyIndex : Nat
  expression : Option Text
  dialect : Option Text
  sortDirection : Option Text
  nullOrder : Option Text
  deriving DecidableEq, Repr

structure DucklakeDataFile where
  dataFileId : Int
  tableId : Int
  fileOrder : Option Int
  path : Text
  pathIsRelative : Bool
  recordCount : Nat
  fileSizeBytes : Option Nat
  footerSize : Option Nat
  rowIdStart : Option Int
  partitionId : Option Int
  encryptionKey : Option Text
  deriving DecidableEq, Repr

structure DucklakeDeleteFile where
  deleteFileId : Int
  tableId : Int
  dataFileId : Int
  path : Text
  pathIsRelative : Bool
  deleteCount : Option Nat
  fileSizeBytes : Option Nat
  footerSize : Option Nat
  encryptionKey : Option Text
  deriving DecidableEq, Repr

structure DucklakeFileColumnStats where
  dataFileId : Int
  tableId : Int
  columnId : Int
  columnSizeBytes : Option Nat
  nullCount : Option Nat
  minValue : Option Text
  maxValue : Option Text
  containsNan : Option Bool
  deriving DecidableEq, Repr

structure DucklakeFilePartitionValue where
  dataFileId : Int
  tableId : Int
  partitionKeyIndex : Nat
  partitionValue : Option Text
  deriving DecidableEq, Repr

structure DucklakeInlinedDelete where
  fileId : Int
  rowId : Int
  beginSnapshot : Int
  deriving DecidableEq, Repr

structure DucklakeInlinedDataTables where
  tableId : Int
  tableName : Text
  schemaVersion : Int
  deriving DecidableEq, Repr

structure DucklakeTableStats where
  tableId : Int
  recordCount : Option Int
  nextRowId : Int
  fileSizeBytes : Option Int
  deriving DecidableEq, Repr

structure DucklakeTableColumnStats where
  tableId : Int
  columnId : Int
  containsNull : Option Bool
  containsNan : Option Bool
  minValue : Option Text
  maxValue : Option Text
  deriving DecidableEq, Repr

/-- A batch of rows in an inline data table: their row ids count up from the first one, all of
them begin at one snapshot and have no end. -/
structure InlinedBatch where
  rowIdStart : Int
  beginSnapshot : Int
  data : Io.RecordBatch
  deriving DecidableEq

/-- An inline data table, created on demand under a name of its own. -/
structure InlinedDataTable where
  name : Text
  columns : List Text
  batches : List InlinedBatch
  deriving DecidableEq

structure Database where
  snapshots : List DucklakeSnapshot
  snapshotChanges : List DucklakeSnapshotChanges
  schemaVersions : List DucklakeSchemaVersions
  schemas : List (Versioned DucklakeSchema)
  tables : List (Versioned DucklakeTable)
  views : List (Versioned DucklakeView)
  macros : List (Versioned DucklakeMacro)
  macroImpls : List DucklakeMacroImpl
  macroParameters : List DucklakeMacroParameters
  columns : List (Versioned DucklakeColumn)
  tags : List (Versioned DucklakeTag)
  columnTags : List (Versioned DucklakeColumnTag)
  partitionInfo : List (Versioned DucklakePartitionInfo)
  partitionColumns : List DucklakePartitionColumn
  sortInfo : List (Versioned DucklakeSortInfo)
  sortExpressions : List DucklakeSortExpression
  dataFiles : List (Versioned DucklakeDataFile)
  deleteFiles : List (Versioned DucklakeDeleteFile)
  fileColumnStats : List DucklakeFileColumnStats
  filePartitionValues : List DucklakeFilePartitionValue
  inlinedDeletes : List (Int × DucklakeInlinedDelete)
  inlinedDataTables : List DucklakeInlinedDataTables
  inlinedData : List InlinedDataTable
  tableStats : List DucklakeTableStats
  tableColumnStats : List DucklakeTableColumnStats
  deriving DecidableEq

/-- `init_catalog`: the schema `main` and the snapshot that created it. -/
def initCatalog (now : Int) : Database where
  snapshots := [{
    snapshotId := 0
    snapshotTime := now
    schemaVersion := 0
    nextCatalogId := 1
    nextFileId := 0 }]
  snapshotChanges := [{ snapshotId := 0, changesMade := "created_schema:\"main\"".toList }]
  schemaVersions := []
  schemas := [.new 0 {
    schemaId := 0
    schemaName := "main".toList
    path := "main/".toList
    pathIsRelative := true }]
  tables := []
  views := []
  macros := []
  macroImpls := []
  macroParameters := []
  columns := []
  tags := []
  columnTags := []
  partitionInfo := []
  partitionColumns := []
  sortInfo := []
  sortExpressions := []
  dataFiles := []
  deleteFiles := []
  fileColumnStats := []
  filePartitionValues := []
  inlinedDeletes := []
  inlinedDataTables := []
  inlinedData := []
  tableStats := []
  tableColumnStats := []

end Ducklake.Spec
