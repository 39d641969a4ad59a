import FlOp.Library.Batches
import FlOp.Library.Calendar
import FlOp.Library.ClampedSteps
import FlOp.Library.ConsumerGroup
import FlOp.Library.CountFirst
import FlOp.Library.Csv
import FlOp.Library.Dict
import FlOp.Library.Dijkstra
import FlOp.Library.Fallible
import FlOp.Library.FixedWindow
import FlOp.Library.Greedy
import FlOp.Library.Groups
import FlOp.Library.KeyedMachine
import FlOp.Library.KeyedRows
import FlOp.Library.LabeledSystem
import FlOp.Library.LeastSquares
import FlOp.Library.ListSchedule
import FlOp.Library.Listing
import FlOp.Library.Matching
import FlOp.Library.Merge
import FlOp.Library.NestedDict
import FlOp.Library.Numerals
import FlOp.Library.Ordering
import FlOp.Library.ParallelMachines
import FlOp.Library.PlaneRings
import FlOp.Library.PlaneSegments
import FlOp.Library.PositionGraph
import FlOp.Library.RecordLog
import FlOp.Library.RelativeError
import FlOp.Library.Sweep
import FlOp.Library.UnionFind
import FlOp.Library.WorkerPools
import FlOp.Core.Constants
import FlOp.Core.Floats
import FlOp.Core.Geometry
import FlOp.Core.Numbers
import FlOp.Core.Text
import FlOp.Core.Yaml
import FlOp.Canonical.Bundle
import FlOp.Canonical.Plan
import FlOp.Canonical.Snapshot
import FlOp.Contracts.AvroSchema
import FlOp.Contracts.Baselines
import FlOp.Contracts.CompositePolicy
import FlOp.Contracts.Composition
import FlOp.Contracts.Evolution
import FlOp.Contracts.Fingerprint
import FlOp.Contracts.Gen.Avro
import FlOp.Contracts.Gen.Base
import FlOp.Contracts.Gen.Checker
import FlOp.Contracts.Gen.Es
import FlOp.Contracts.Gen.Parquet
import FlOp.Contracts.Gen.Proto
import FlOp.Contracts.Gen.Records
import FlOp.Contracts.Gen.Soundness
import FlOp.Contracts.OdcsDocument
import FlOp.Contracts.PluginMerge
import FlOp.Contracts.Profile
import FlOp.Contracts.References
import FlOp.Contracts.Registry
import FlOp.Contracts.UpgradePath
import FlOp.Solver.Allocation
import FlOp.Solver.AllocationSources
import FlOp.Solver.AllowedStarts
import FlOp.Solver.AlternativeCollapse
import FlOp.Solver.ArcRouting
import FlOp.Solver.BlockedExecution
import FlOp.Solver.Chain
import FlOp.Solver.ChainAccounting
import FlOp.Solver.ChainResources
import FlOp.Solver.ChainRun
import FlOp.Solver.ChainedStarts
import FlOp.Solver.ClusterPartition
import FlOp.Solver.ClusterPool
import FlOp.Solver.ClusterSolve
import FlOp.Solver.ClusterStages
import FlOp.Solver.Clustering
import FlOp.Solver.Clusters
import FlOp.Solver.Compatibility
import FlOp.Solver.CostRates
import FlOp.Solver.CountPriority
import FlOp.Solver.DependencyCascade
import FlOp.Solver.FeasibilityCache
import FlOp.Solver.FeasibilityQuery
import FlOp.Solver.FleetModel
import FlOp.Solver.GlobalOptimum
import FlOp.Solver.GroupBudgets
import FlOp.Solver.HeldCalendars
import FlOp.Solver.HeldWindows
import FlOp.Solver.LoadDimension
import FlOp.Solver.LocationRestrictions
import FlOp.Solver.Material
import FlOp.Solver.MaterialTurns
import FlOp.Solver.OperatorGroups
import FlOp.Solver.OperatorQualification
import FlOp.Solver.PenaltyOrder
import FlOp.Solver.PerformanceFeedback
import FlOp.Solver.Polygons
import FlOp.Solver.PoolReports
import FlOp.Solver.Reschedule
import FlOp.Solver.ReservedStock
import FlOp.Solver.RestrictionSegments
import FlOp.Solver.Restrictions
import FlOp.Solver.RoutingModel
import FlOp.Solver.Rows
import FlOp.Solver.Staffing
import FlOp.Solver.TaskLedger
import FlOp.Solver.TaskRelations
import FlOp.Solver.TimeExpanded
import FlOp.Solver.TimeWindowFilter
import FlOp.Solver.TimedRestrictions
import FlOp.Solver.TravelMeasures
import FlOp.Solver.TravelNetwork
import FlOp.Solver.TravelTime
import FlOp.Solver.WarmStart
import FlOp.Solver.WeatherFilter
import FlOp.Adapters.Base
import FlOp.Planning.Airspace
import FlOp.Planning.Charging
import FlOp.Planning.Corridors
import FlOp.Planning.Deconfliction
import FlOp.Planning.DoubleBooking
import FlOp.Planning.HoldSchedule
import FlOp.Planning.RevisionDiff
import FlOp.Rolling.Accounting
import FlOp.Rolling.Alternatives
import FlOp.Rolling.AssetLoss
import FlOp.Rolling.Compiler
import FlOp.Rolling.Continuity
import FlOp.Rolling.Corrective
import FlOp.Rolling.Disposition
import FlOp.Rolling.Normalizer
import FlOp.Rolling.Precedence
import FlOp.Rolling.Reconciliation
import FlOp.Rolling.Reservations
import FlOp.Rolling.Session
import FlOp.Mapping.Accumulator
import FlOp.Mapping.CanonicalRows
import FlOp.Mapping.CellValues
import FlOp.Mapping.FieldTypes
import FlOp.Mapping.NestedFields
import FlOp.Mapping.PolygonParsers
import FlOp.Mapping.Records
import FlOp.Mapping.RowEmission
import FlOp.Mapping.RowIsolation
import FlOp.Mapping.RowProjection
import FlOp.Mapping.SolverInputs
import FlOp.Mapping.Values
import FlOp.Stream.Apply
import FlOp.Stream.Atomicity
import FlOp.Stream.Bookkeeping
import FlOp.Stream.Broker
import FlOp.Stream.Convergence
import FlOp.Stream.Corrections
import FlOp.Stream.Coverage
import FlOp.Stream.CoverageCredit
import FlOp.Stream.Dedup
import FlOp.Stream.Durability
import FlOp.Stream.ExecutedService
import FlOp.Stream.HandledWork
import FlOp.Stream.Handlers
import FlOp.Stream.Housekeeping
import FlOp.Stream.LeadTime
import FlOp.Stream.MonotoneProgress
import FlOp.Stream.Pipeline
import FlOp.Stream.PoisonTolerance
import FlOp.Stream.Prognosis
import FlOp.Stream.PrognosisRates
import FlOp.Stream.Publication
import FlOp.Stream.Recovery
import FlOp.Stream.RedisGroup
import FlOp.Stream.Repetition
import FlOp.Stream.Source
import FlOp.Stream.TaskLife
import FlOp.Stream.TaskWork
import FlOp.Stream.Telemetry
import FlOp.Stream.UniqueRows
import FlOp.Snapshot.Assessment
import FlOp.Snapshot.AssessmentAccounting
import FlOp.Snapshot.Bundles
import FlOp.Snapshot.Monitoring
import FlOp.Snapshot.MonotoneMonitoring
import FlOp.Snapshot.PolicyTuning
import FlOp.Snapshot.QualityTrend
import FlOp.Snapshot.Retention
import FlOp.Snapshot.SeriesStatistics
import FlOp.Snapshot.TunedOverlay
import FlOp.Snapshot.TuningSteps
import FlOp.Serving.ArtifactStores
import FlOp.Serving.Authenticators
import FlOp.Serving.CommitMarker
import FlOp.Serving.ObjectStore
import FlOp.Serving.RateLimiter
import FlOp.Serving.Revisions
import FlOp.Serving.SecurityGateway
import FlOp.Provenance.Manifest
import FlOp.Tuning.SolverOverlay
import FlOp.Formats.AvroCodec
import FlOp.Formats.CsvCodec
