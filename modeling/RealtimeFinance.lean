import RealtimeFinance.Sql.Nullable
import RealtimeFinance.Sql.RowNumber
import RealtimeFinance.Sql.Merge
import RealtimeFinance.Sql.Upsert
import RealtimeFinance.Sql.Decimal
import RealtimeFinance.Sql.Instant
import RealtimeFinance.Sql.GroupBy
import RealtimeFinance.Runs
import RealtimeFinance.Awsnative.Bronze
import RealtimeFinance.Awsnative.SilverTrades
import RealtimeFinance.Awsnative.Quarantine
import RealtimeFinance.Awsnative.GoldBars
import RealtimeFinance.Awsnative.Lake
import RealtimeFinance.Awsnative.Classification
import RealtimeFinance.Awsnative.SilverKeys
import RealtimeFinance.Awsnative.EventTime
import RealtimeFinance.Awsnative.GoldRebuild
import RealtimeFinance.Awsnative.GoldFreshness
import RealtimeFinance.Ingest.Models
import RealtimeFinance.Ingest.Connectors
import RealtimeFinance.Ingest.Gaps
import RealtimeFinance.Ingest.Queue
import RealtimeFinance.Ingest.Runner
import RealtimeFinance.Ingest.SilentLoss
import RealtimeFinance.Ingest.Shutdown
import RealtimeFinance.Ingest.Hang
import RealtimeFinance.Ingest.Coinbase
import RealtimeFinance.Ingest.Jumps
import RealtimeFinance.Awsnative.KinesisSink
import RealtimeFinance.Awsnative.KinesisDelivery
import RealtimeFinance.StepFunctions.Executions
import RealtimeFinance.Awsnative.OverlapGuard
import RealtimeFinance.Awsnative.Convergence
import RealtimeFinance.Awsnative.GoldFidelity
import RealtimeFinance.Python.Text
import RealtimeFinance.Backfill.Epoch
import RealtimeFinance.Backfill.Parsers
import RealtimeFinance.Backfill.Staging
import RealtimeFinance.Backfill.SameTrade
import RealtimeFinance.Awsnative.GoldKeys
import RealtimeFinance.Awsnative.SilverContract
import RealtimeFinance.Awsnative.Tripwire
import RealtimeFinance.Backfill.Checksum
import RealtimeFinance.Backfill.Manifest
import RealtimeFinance.Backfill.Loader
import RealtimeFinance.Backfill.Resume
import RealtimeFinance.Vintages
import RealtimeFinance.Awsnative.SilverMacro
import RealtimeFinance.Awsnative.LookbackDial
import RealtimeFinance.Ingest.Outage
import RealtimeFinance.Ingest.ConnectionGaps
import RealtimeFinance.Ingest.CleanExit
import RealtimeFinance.Backfill.Mergeable
import RealtimeFinance.Backfill.ManifestRuns
import RealtimeFinance.Backfill.Windows
import RealtimeFinance.Backfill.Seed
import RealtimeFinance.Lakehouse.Transforms
import RealtimeFinance.Lakehouse.Checks
import RealtimeFinance.Lakehouse.Flows
import RealtimeFinance.Awsnative.PerpContext
import RealtimeFinance.Awsnative.PerpPoll
import RealtimeFinance.Awsnative.SilverPerp
import RealtimeFinance.Awsnative.PerpAbsence
import RealtimeFinance.Ingest.Accounting
import RealtimeFinance.StepFunctions.Clock
import RealtimeFinance.Awsnative.MaintenanceCadence
import RealtimeFinance.Ingest.Repair
import RealtimeFinance.Python.Ordinal
import RealtimeFinance.Python.DateText
import RealtimeFinance.Backfill.WindowCover
import RealtimeFinance.Awsnative.KinesisAttempts
import RealtimeFinance.Awsnative.KinesisExactlyOnce
import RealtimeFinance.Awsnative.KinesisOrder
import RealtimeFinance.Awsnative.MacroPlacement
import RealtimeFinance.Python.Csv
import RealtimeFinance.Awsnative.MacroCollector
import RealtimeFinance.Awsnative.PerpPointInTime
import RealtimeFinance.Awsnative.BarParts
import RealtimeFinance.Awsnative.MergeGoldFits
import RealtimeFinance.Awsnative.BarEnds
import RealtimeFinance.Awsnative.Bars
import RealtimeFinance.Sql.Value
import RealtimeFinance.Awsnative.BarsInStep
import RealtimeFinance.Backfill.StagingRoundTrip
import RealtimeFinance.Backfill.Units
import RealtimeFinance.Backfill.LoadAtomic
import RealtimeFinance.Backfill.LoadRaises
import RealtimeFinance.Backfill.StagingKeys
import RealtimeFinance.Ingest.RateLimit
import RealtimeFinance.Ingest.Backoff
import RealtimeFinance.Ingest.Reconnect
import RealtimeFinance.Backfill.Published
import RealtimeFinance.Sql.Joined
import RealtimeFinance.Awsnative.RowKey
import RealtimeFinance.Awsnative.QuarantineReason
import RealtimeFinance.Awsnative.PerpDegrades
import RealtimeFinance.Awsnative.MacroHeader
import RealtimeFinance.Awsnative.SplitStatements
import RealtimeFinance.Sql.Scanner
import RealtimeFinance.Ingest.JsonRows
import RealtimeFinance.Ingest.BadRows
import RealtimeFinance.Fifo
import RealtimeFinance.Ingest.QueueTasks
import RealtimeFinance.Merges
import RealtimeFinance.Devlab.SequenceGaps
import RealtimeFinance.Awsnative.KinesisCount
import RealtimeFinance.Ingest.QueueWakes
import RealtimeFinance.Python.JsonText
import RealtimeFinance.Awsnative.WireFormat
import RealtimeFinance.Backfill.ItemsFile
import RealtimeFinance.Awsnative.Pipeline
import RealtimeFinance.Awsnative.Render
import RealtimeFinance.Awsnative.RenderedStatements
import RealtimeFinance.Awsnative.SocketToSilver
import RealtimeFinance.Awsnative.DecompositionGate
import RealtimeFinance.StepFunctions.Progress
import RealtimeFinance.Awsnative.MicrobatchRuns
import RealtimeFinance.Awsnative.Accounted
import RealtimeFinance.Lakehouse.Casts
import RealtimeFinance.Lakehouse.BothStacks
