import AdbcClient.Runs
import AdbcClient.ConnectionPool
import AdbcClient.DelimitedIdentifier
import AdbcClient.QueryText
import AdbcClient.RemoteSchema
import AdbcClient.MetadataFetch
import AdbcClient.SchemaEntry
import AdbcClient.TableCache
import AdbcClient.Catalog
import AdbcClient.SchemaLookup
import AdbcClient.ConcurrentLookup
import AdbcClient.CatalogRefresh
import AdbcClient.PhysicalPlan
import AdbcClient.ColumnMapping
import AdbcClient.ArrowScan
import AdbcClient.MetadataScope
import AdbcClient.CreateTableAs
import AdbcClient.ColumnData
import AdbcClient.InsertMachine
import AdbcClient.InsertLifecycle
import AdbcClient.InsertWaiting
import AdbcClient.InsertDelivery
import AdbcClient.InsertBuffer
import AdbcClient.InsertVisibility
import AdbcClient.InsertAccounting
import AdbcClient.WorkSharing
import AdbcClient.ScanProgress
import AdbcClient.SchemaScan
import AdbcClient.CreateConflict
import AdbcClient.TransientFailure
import AdbcClient.OneShotFunction
import AdbcClient.StatisticsLayout
import AdbcClient.TableCardinality
import AdbcClient.SchemaStreams
import AdbcClient.ObjectStore
import AdbcClient.HandleOwnership
import AdbcClient.ConnectionMoves
import AdbcClient.DriverCalls
import AdbcClient.Settings
import AdbcClient.Attach
import AdbcClient.Transactions
import AdbcClient.Placeholders
import AdbcClient.ProfileValue
import AdbcClient.DriverOptions
import AdbcClient.ResourceTree
import AdbcClient.DriverManager
import AdbcClient.DriverSession
import AdbcClient.Connecting
import AdbcClient.ConnectionUsers
import AdbcClient.Executions
import AdbcClient.FileSearch
import AdbcClient.ProfileFile
import AdbcClient.ProfileSearch
import AdbcClient.ProfileConnection
import AdbcClient.DriverLoading
import AdbcClient.DriverSearch
import AdbcClient.DriverTable
