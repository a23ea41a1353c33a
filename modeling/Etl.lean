import Etl.Error
import Etl.Event
import Etl.Lib.Prog
import Etl.Lib.OrderedMap
import Etl.Lib.Except
import Etl.Lib.Machine
import Etl.Lib.Positional
import Etl.Lib.Text
import Etl.Lib.NumeralOrder
import Etl.Numeric
import Etl.Numeric.Grammar
import Etl.Numeric.Parse
import Etl.Numeric.Display
import Etl.Postgres.Lsn
import Etl.Postgres.Schema
import Etl.Postgres.Walsender
import Etl.Postgres.CopyText
import Etl.Postgres.CopyFraming
import Etl.Postgres.ArrayText
import Etl.Postgres.CellText
import Etl.Postgres.TupleRows
import Etl.Postgres.UpdateRows
import Etl.Postgres.DefaultExpression
import Etl.Postgres.DefaultNormalization
import Etl.Postgres.DefaultLiterals
import Etl.Schema
import Etl.Schema.Identity
import Etl.SchemaDiff
import Etl.SchemaPlan
import Etl.SchemaPlan.Renames
import Etl.SchemaPlan.Convergence
import Etl.SchemaPlan.Cycles
import Etl.Replication.TableState
import Etl.Replication.LoopState
import Etl.Replication.Decoding
import Etl.Replication.Step
import Etl.Replication.Rest
import Etl.Replication.Flush
import Etl.Replication.Coordination
import Etl.Replication.FlushResult
import Etl.Replication.Messages
import Etl.Replication.Loop
import Etl.Runtime.Lifecycle
import Etl.Runtime.ApplyWorker
import Etl.Runtime.TableSyncWorker
import Etl.Runtime.System
import Etl.Guarantees.Batching
import Etl.Guarantees.Intake
import Etl.Guarantees.Feedback
import Etl.Guarantees.Completion
import Etl.Guarantees.Content
import Etl.Guarantees.Tracking
import Etl.Guarantees.Delivery
import Etl.Guarantees.TableStates
import Etl.Guarantees.Handover
import Etl.Guarantees.Catchup
import Etl.Guarantees.Recovery
import Etl.Store.SchemaSnapshots
import Etl.Store.SchemaTables
import Etl.Store.Retention
import Etl.Store.PostgresSchemaStore
import Etl.Store.StateStore
import Etl.Runtime.World
import Etl.Runtime.BatchMemoryGovernor
import Etl.Runtime.BatchStream
import Etl.Runtime.MemoryMonitor
import Etl.Guarantees.Rollback
import Etl.Lib.HistoryRows
import Etl.Lib.LatestVersion
import Etl.Store.TableStateFormat
import Etl.Store.TableStateStores
import Etl.TableCopy.Planning
import Etl.TableCopy.Workers
import Etl.TableCopy.Completeness
import Etl.Destinations.SourceHistory
import Etl.Destinations.WriteEvents
import Etl.Destinations.ClickHouse
import Etl.Destinations.BigQuery
import Etl.Destinations.DuckLake.KeySet
import Etl.Destinations.DuckLake.ReplayState
import Etl.Destinations.DuckLake.Isolation
import Etl.Destinations.DuckLake.Streaming
import Etl.Destinations.DuckLake.Chunking
import Etl.Destinations.DuckLake.CopyAccumulator
import Etl.Destinations.DuckLake.Maintenance
import Etl.Postgres.Slots
import Etl.Destinations.TableName
import Etl.Destinations.BigQueryTableId
import Etl.Destinations.Snowflake.OffsetToken
import Etl.Destinations.Snowflake.Batch
import Etl.Destinations.Snowflake.Initialize
