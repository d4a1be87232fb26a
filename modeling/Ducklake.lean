import Ducklake.Transaction.Commit
import Ducklake.Transaction.Operations
import Ducklake.Maintenance.ExpireSnapshots
import Ducklake.Interleaving.SnapshotOrder
import Ducklake.Catalog.Loaded
import Ducklake.Transaction.Attempt
import Ducklake.Transaction.Recorded
import Ducklake.Transaction.Collects
import Ducklake.Interleaving.TimeTravel
import Ducklake.Spec.Literals.RoundTrip
import Ducklake.Catalog.Trees
import Ducklake.Transaction.Panics
import Ducklake.Interleaving.CacheCoherence
import Ducklake.Interleaving.ColumnNumbers
import Ducklake.Transaction.Renewals
import Ducklake.Lib.Outcome
import Ducklake.Catalog.Names
import Ducklake.Transaction.Calls
import Ducklake.Transaction.Atomicity
import Ducklake.Catalog.ColumnEdits
import Ducklake.Caches.SchemaVersions
import Ducklake.Interleaving.ColumnCalls
import Ducklake.Interleaving.ViewAliases
import Ducklake.Spec.Literals.Times
import Ducklake.Typedefs.ValueOrder
import Ducklake.Io.ParquetStatistics
import Ducklake.Interleaving.RowIds
import Ducklake.Maintenance.ScheduledFiles
import Ducklake.Interleaving.InlineWrites
import Ducklake.Transaction.TagTables
import Ducklake.View.References
import Ducklake.Io.ArrayBounds
import Ducklake.Io.SafeStatistics
import Ducklake.Maintenance.TablePaths
import Ducklake.Interleaving.ScannedTables
import Ducklake.Transaction.NullVerdicts
import Ducklake.Db.CopiedRows
import Ducklake.Scan.EnumStatistics
import Ducklake.Io.ArrowSchema
import Ducklake.Interleaving.Clock
import Ducklake.Lib.Percent
import Ducklake.Io.FilepathGenerator
import Ducklake.Polars.Sink
import Ducklake.Io.StorePath
import Ducklake.Maintenance.FileLocations
import Ducklake.Io.DefaultLocations
import Ducklake.Interleaving.RenamedTables
import Ducklake.Maintenance.CleanupOldFiles
import Ducklake.Catalog.VisibleReads
import Ducklake.Interleaving.Expirations
import Ducklake.Lib.Search
import Ducklake.Spec.Literals.Intervals
import Ducklake.Catalog.AddedTrees
import Ducklake.Catalog.ShownRoots
import Ducklake.Interleaving.SchemaUpdates
import Ducklake.Lib.Fuel
import Ducklake.View.MacroExpansion
import Ducklake.Interleaving.LostUpdates
import Ducklake.Lib.Sweeps
import Ducklake.Maintenance.DeleteOrphanedFiles
import Ducklake.Maintenance.MovedTables
