import StatGuardian.Core.Acceptance
import StatGuardian.Core.Ast
import StatGuardian.Core.Compiler
import StatGuardian.Core.ConstraintReading
import StatGuardian.Core.Dag
import StatGuardian.Core.FieldReading
import StatGuardian.Core.GapAgreement
import StatGuardian.Core.Grammar
import StatGuardian.Core.JoinedTokens
import StatGuardian.Core.Lexing
import StatGuardian.Core.NodeText
import StatGuardian.Core.Operators
import StatGuardian.Core.OptimizedPlan
import StatGuardian.Core.Optimizer
import StatGuardian.Core.Parser
import StatGuardian.Core.Rendering
import StatGuardian.Core.RoundTrip
import StatGuardian.Core.Sections
import StatGuardian.Core.Sliding
import StatGuardian.Core.SlidingBound
import StatGuardian.Core.SlidingCover
import StatGuardian.Core.Streaming
import StatGuardian.Core.TokenSteps
import StatGuardian.Core.Tokens
import StatGuardian.Core.Tumbling
import StatGuardian.Core.TumblingPartition
import StatGuardian.Core.TumblingSizes
import StatGuardian.Core.Whitespace
import StatGuardian.Engine.Agreement
import StatGuardian.Engine.Batch
import StatGuardian.Engine.CheckNames
import StatGuardian.Engine.Checks
import StatGuardian.Engine.Coverage
import StatGuardian.Engine.DriftCoverage
import StatGuardian.Engine.Fusion
import StatGuardian.Engine.Gate
import StatGuardian.Engine.Health
import StatGuardian.Engine.IntegerBounds
import StatGuardian.Engine.Merge
import StatGuardian.Engine.NamedColumns
import StatGuardian.Engine.Node
import StatGuardian.Engine.PrimaryKey
import StatGuardian.Engine.Returns
import StatGuardian.Engine.RowBounds
import StatGuardian.Engine.RowChecks
import StatGuardian.Engine.RowOrder
import StatGuardian.Engine.RowReports
import StatGuardian.Engine.Scheduling
import StatGuardian.Engine.ScrapeSeries
import StatGuardian.Engine.Streaming
import StatGuardian.Engine.TextLength
import StatGuardian.Io.BatchPartition
import StatGuardian.Io.Batcher
import StatGuardian.Io.Delta
import StatGuardian.Io.DeltaAsOf
import StatGuardian.Io.DeltaRefusal
import StatGuardian.Io.DeltaReplay
import StatGuardian.Io.DeltaTimeTravel
import StatGuardian.Io.Iceberg
import StatGuardian.Io.IcebergOnce
import StatGuardian.Io.IcebergTimeTravel
import StatGuardian.Io.LatestMetadata
import StatGuardian.Io.PathResolution
import StatGuardian.Io.RowBuffer
import StatGuardian.Library.BreadthFirst
import StatGuardian.Library.Buffering
import StatGuardian.Library.CappedCollection
import StatGuardian.Library.Descending
import StatGuardian.Library.EmpiricalDistribution
import StatGuardian.Library.FirstByKey
import StatGuardian.Library.FirstDistinct
import StatGuardian.Library.FirstWins
import StatGuardian.Library.Glob
import StatGuardian.Library.Grouping
import StatGuardian.Library.Histogram
import StatGuardian.Library.Interleaving
import StatGuardian.Library.KeyedValues
import StatGuardian.Library.LastMaximum
import StatGuardian.Library.LastPart
import StatGuardian.Library.LineText
import StatGuardian.Library.Machine
import StatGuardian.Library.MachineRuns
import StatGuardian.Library.MapDiff
import StatGuardian.Library.Markup
import StatGuardian.Library.Peg
import StatGuardian.Library.PegAgreement
import StatGuardian.Library.PegOutput
import StatGuardian.Library.Pieces
import StatGuardian.Library.RankedLog
import StatGuardian.Library.RecentValues
import StatGuardian.Library.Regex
import StatGuardian.Library.RegexBoundaries
import StatGuardian.Library.RelatedLists
import StatGuardian.Library.RelativePath
import StatGuardian.Library.Replay
import StatGuardian.Library.Results
import StatGuardian.Library.Rounding
import StatGuardian.Library.Slices
import StatGuardian.Library.SymmetricDivergence
import StatGuardian.Library.TextCodes
import StatGuardian.Library.Totals
import StatGuardian.Library.UniqueTable
import StatGuardian.Library.Windows
import StatGuardian.Library.WorkerPool
import StatGuardian.Library.Worklist
import StatGuardian.Lineage.Clients
import StatGuardian.Lineage.FailedSave
import StatGuardian.Lineage.Impact
import StatGuardian.Lineage.ImpactOrder
import StatGuardian.Lineage.Isolation
import StatGuardian.Lineage.Limits
import StatGuardian.Lineage.Model
import StatGuardian.Lineage.NodeIdentity
import StatGuardian.Lineage.ReadBack
import StatGuardian.Lineage.Saving
import StatGuardian.Lineage.Storage
import StatGuardian.Metrics.Exposition
import StatGuardian.Metrics.Prometheus
import StatGuardian.Metrics.Report
import StatGuardian.Polars.Frame
import StatGuardian.Py.AnomalyDetection
import StatGuardian.Py.AnomalyPatterns
import StatGuardian.Py.AnomalyRuns
import StatGuardian.Py.Binding
import StatGuardian.Py.Cli
import StatGuardian.Py.ContractCatalog
import StatGuardian.Py.DbtGates
import StatGuardian.Py.DbtProfiles
import StatGuardian.Py.DbtRuns
import StatGuardian.Py.DbtValidate
import StatGuardian.Py.DslSafety
import StatGuardian.Py.EnvVarCalls
import StatGuardian.Py.FailClosed
import StatGuardian.Py.HtmlPages
import StatGuardian.Py.HtmlReport
import StatGuardian.Py.Integrity
import StatGuardian.Py.OkfFiles
import StatGuardian.Py.ParallelFiles
import StatGuardian.Py.PiiFindings
import StatGuardian.Py.PiiScan
import StatGuardian.Py.RuleEffectiveness
import StatGuardian.Py.SafetyAgreement
import StatGuardian.Py.SchemaEvolution
import StatGuardian.Py.SchemaGate
import StatGuardian.Py.SchemaPatch
import StatGuardian.Py.Validators
import StatGuardian.Runtime.Binary64
import StatGuardian.Runtime.DebugText
import StatGuardian.Runtime.Env
import StatGuardian.Runtime.ExactEnv
import StatGuardian.Runtime.ExtRat
import StatGuardian.Runtime.ExtReal
import StatGuardian.Runtime.Fault
import StatGuardian.Runtime.Float64
import StatGuardian.Runtime.PlainEnv
import StatGuardian.Runtime.Text
import StatGuardian.Stats.ColumnSummary
import StatGuardian.Stats.Drift
import StatGuardian.Stats.HyperLogLog
import StatGuardian.Stats.HyperLogLogRanks
import StatGuardian.Stats.KolmogorovSmirnov
import StatGuardian.Stats.KsDistance
import StatGuardian.Stats.Profiler
import StatGuardian.Stats.Psi
import StatGuardian.Stats.Series
import StatGuardian.Stream.Accounting
import StatGuardian.Stream.Agent
import StatGuardian.Stream.Attribution
import StatGuardian.Stream.BudgetRule
import StatGuardian.Stream.Budgets
import StatGuardian.Stream.Changes
import StatGuardian.Stream.Composition
import StatGuardian.Stream.Delivery
import StatGuardian.Stream.Discarded
import StatGuardian.Stream.EventFields
import StatGuardian.Stream.Extension
import StatGuardian.Stream.Honesty
import StatGuardian.Stream.Idempotence
import StatGuardian.Stream.LineCap
import StatGuardian.Stream.Lines
import StatGuardian.Stream.LoopFindings
import StatGuardian.Stream.Loops
import StatGuardian.Stream.Ndjson
import StatGuardian.Stream.Positions
import StatGuardian.Stream.Redaction
import StatGuardian.Stream.Reference
import StatGuardian.Stream.Report
import StatGuardian.Stream.Sanitize
import StatGuardian.Stream.Scope
import StatGuardian.Stream.Steps
import StatGuardian.Stream.Summary
import StatGuardian.Stream.Tolerance
import StatGuardian.Stream.Validator
import StatGuardian.Validators.Rules
import StatGuardian.Validators.Schema
import StatGuardian.Validators.Violation
