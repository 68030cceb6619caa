import WarehouseSync.Library.Transition
import WarehouseSync.Library.KeyedRows
import WarehouseSync.Library.Checks
import WarehouseSync.Library.Splitting
import WarehouseSync.Library.Selections
import WarehouseSync.Library.DecimalText
import WarehouseSync.Library.Decimals
import WarehouseSync.Library.JsonText
import WarehouseSync.Library.Dictionaries
import WarehouseSync.Library.JoinedNames
import WarehouseSync.Library.PercentEncoding
import WarehouseSync.Library.PythonText
import WarehouseSync.Library.IsoFormat
import WarehouseSync.State.Watermarks
import WarehouseSync.State.Chunks
import WarehouseSync.Extract.Schema
import WarehouseSync.Extract.DataTypes
import WarehouseSync.Extract.Coerce
import WarehouseSync.Extract.JsonColumns
import WarehouseSync.Extract.Chunker
import WarehouseSync.Extract.PlanCoverage
import WarehouseSync.Extract.CopyWorker
import WarehouseSync.Extract.Incremental
import WarehouseSync.Extract.RunIncremental
import WarehouseSync.Extract.FutureRows
import WarehouseSync.Load.IcebergWriter
import WarehouseSync.Load.CreateTable
import WarehouseSync.Load.CreationRace
import WarehouseSync.Load.CommitRetry
import WarehouseSync.Load.Merge
import WarehouseSync.Load.ConfiguredKey
import WarehouseSync.Load.NewestRows
import WarehouseSync.Load.MergeVersions
import WarehouseSync.Load.MergeTwice
import WarehouseSync.Load.Reconcile
import WarehouseSync.Load.ReconcilePass
import WarehouseSync.Orchestration.Tables
import WarehouseSync.Orchestration.SnapshotCopies
import WarehouseSync.Orchestration.ChunkAttempts
import WarehouseSync.Orchestration.BootstrapJob
import WarehouseSync.Orchestration.TableSync
import WarehouseSync.Orchestration.SteadyState
import WarehouseSync.Orchestration.SequenceState
import WarehouseSync.Orchestration.SeedWatermark
import WarehouseSync.Orchestration.UniqueIds
import WarehouseSync.Orchestration.IncrementalJob
import WarehouseSync.Gateway.Auth
import WarehouseSync.Gateway.ConfigStore
import WarehouseSync.Orchestration.ObjectKeys
import WarehouseSync.Orchestration.Staging
import WarehouseSync.Orchestration.NewTables
import WarehouseSync.Gateway.App
import WarehouseSync.Gateway.TokenScope
import WarehouseSync.Gateway.SqlGuard
import WarehouseSync.Gateway.TableScope
import WarehouseSync.Gateway.RowLimits
import WarehouseSync.Gateway.WipeRace
import WarehouseSync.Gateway.WipeScope
import WarehouseSync.Gateway.EditConnection
import WarehouseSync.Gateway.ReadEndpoints
import WarehouseSync.Gateway.ScopedReads
import WarehouseSync.Gateway.StoredSecrets
import WarehouseSync.Load.AlignTable
import WarehouseSync.Load.SchemaEvolution
import WarehouseSync.Orchestration.DroppedColumns
import WarehouseSync.Extract.SchemaAgreement
import WarehouseSync.Orchestration.DefaultPartition
import WarehouseSync.Extract.CopyLoop
import WarehouseSync.Extract.DayPartitions
import WarehouseSync.Extract.Discovery
import WarehouseSync.Orchestration.OfferedObjects
import WarehouseSync.Extract.ConsecutiveWindows
import WarehouseSync.Orchestration.DateTicks
import WarehouseSync.Gateway.DuckDBPool
import WarehouseSync.Gateway.ViewRefresher
import WarehouseSync.Gateway.CachedHandles
import WarehouseSync.Gateway.DsnParts
import WarehouseSync.Gateway.QueryResults
import WarehouseSync.Orchestration.SavedSelection
import WarehouseSync.Library.EditLogs
import WarehouseSync.Extract.RangeTiling
import WarehouseSync.Gateway.TruncatedAnswers
import WarehouseSync.Gateway.ConnectionCache
import WarehouseSync.Gateway.SettingsCaches
import WarehouseSync.Gateway.SettingsSchedules
import WarehouseSync.Orchestration.BothJobs
import WarehouseSync.Orchestration.Convergence
import WarehouseSync.Gateway.Login
import WarehouseSync.Gateway.EncryptedRows
import WarehouseSync.State.Migrations
import WarehouseSync.Gateway.FirstConnection
import WarehouseSync.Load.SchemaHistory
import WarehouseSync.Gateway.TokenLife
import WarehouseSync.Gateway.SigningKeys
import WarehouseSync.Gateway.PrefixDeletion
import WarehouseSync.Gateway.RunDeletion
import WarehouseSync.Gateway.QueryJobs
import WarehouseSync.Orchestration.TableLookup
import WarehouseSync.Orchestration.Schedules
