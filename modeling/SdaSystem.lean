import SdaSystem.Library.SortedBy
import SdaSystem.Library.Bisect
import SdaSystem.Library.Runs
import SdaSystem.Library.TtlCache
import SdaSystem.Library.PyFloat
import SdaSystem.Library.Groups
import SdaSystem.Library.TrueRuns
import SdaSystem.Library.LexObjective
import SdaSystem.Library.WeightedIntervals
import SdaSystem.Library.CpSat
import SdaSystem.Db.Models
import SdaSystem.Db.Impl.Seeding
import SdaSystem.Db.Lemmas.Seeding
import SdaSystem.Scheduling.Impl.Greedy
import SdaSystem.Scheduling.Impl.OrTools
import SdaSystem.Scheduling.Lemmas.Weighted
import SdaSystem.Scheduling.Lemmas.Greedy
import SdaSystem.Scheduling.Lemmas.OrTools
import SdaSystem.Scheduling.Lemmas.Solve
import SdaSystem.Scheduling.Lemmas.Selection
import SdaSystem.Workers.Impl.Pipeline
import SdaSystem.Workers.Impl.Batch
import SdaSystem.Workers.Lemmas.Pipeline
import SdaSystem.Workers.Lemmas.Uniqueness
import SdaSystem.Workers.Lemmas.Batch
import SdaSystem.Ingestion.Impl.Fetcher
import SdaSystem.Ingestion.Impl.Validator
import SdaSystem.Ingestion.Lemmas.Ingest
import SdaSystem.Ingestion.Lemmas.Fetcher
import SdaSystem.Ingestion.Lemmas.Retry
import SdaSystem.Propagation.Impl.PassDetector
import SdaSystem.Propagation.Lemmas.PassDetector
import SdaSystem.Api.Impl.Auth
import SdaSystem.Api.Impl.Passes
import SdaSystem.Api.Impl.AuthTtl
import SdaSystem.Api.Impl.PassesTtl
import SdaSystem.Api.Impl.RateLimit
import SdaSystem.Api.Impl.Admission
import SdaSystem.Api.Lemmas.Admission
import SdaSystem.Api.Lemmas.Auth
import SdaSystem.Api.Lemmas.Passes
import SdaSystem.Api.Lemmas.RateLimit
import SdaSystem.Library.Pages
import SdaSystem.Api.Lemmas.Pagination
import SdaSystem.Library.Intervals
import SdaSystem.Library.EarliestFinish
import SdaSystem.Scheduling.Lemmas.Edf
import SdaSystem.Library.Pairs
import SdaSystem.Scheduling.Lemmas.Conflicts
import SdaSystem.Scheduling.Lemmas.Effect
import SdaSystem.Scheduling.Lemmas.FreeSlots
import SdaSystem.Workers.Lemmas.SlotArgs
import SdaSystem.Library.UnitOfWork
import SdaSystem.Scheduling.Impl.IntervalTree
import SdaSystem.Scheduling.Lemmas.IntervalTree
import SdaSystem.Library.FirstFit
import SdaSystem.Library.Charging
import SdaSystem.Library.Packing
import SdaSystem.Library.Rounding
import SdaSystem.Library.PyNumber
import SdaSystem.Library.PyNumber.Int
import SdaSystem.Library.PyNumber.Float
import SdaSystem.Ingestion.Lemmas.Validator
import SdaSystem.Ingestion.Lemmas.Corrupt
import SdaSystem.Scheduling.Impl.Timestamp
import SdaSystem.Scheduling.Lemmas.Benefit
import SdaSystem.Scheduling.Lemmas.Maximal
import SdaSystem.Scheduling.Lemmas.Approximation
import SdaSystem.Scheduling.Lemmas.StationOrder
import SdaSystem.Ingestion.Lemmas.Epochs
import SdaSystem.Ingestion.Lemmas.Genuine
import SdaSystem.Ingestion.Lemmas.Counts
import SdaSystem.Library.Compress
import SdaSystem.Propagation.Impl.Engine
import SdaSystem.Propagation.Impl.TleFormat
import SdaSystem.Propagation.Impl.Batch
import SdaSystem.Propagation.Lemmas.Batch
import SdaSystem.Propagation.Lemmas.TleFormat
import SdaSystem.Propagation.Lemmas.Crossing
import SdaSystem.Propagation.Lemmas.DataGap
import SdaSystem.Propagation.Lemmas.Runs
import SdaSystem.Propagation.Lemmas.Sentinel
import SdaSystem.Library.Parabola
import SdaSystem.Propagation.Lemmas.Peak
import SdaSystem.Propagation.Lemmas.PeakTime
import SdaSystem.Library.Vec3
import SdaSystem.Library.Horizontal
import SdaSystem.Library.Ellipsoid
import SdaSystem.Propagation.Impl.Coordinates
import SdaSystem.Propagation.Lemmas.Coordinates
import SdaSystem.Propagation.Lemmas.LookAngles
import SdaSystem.Propagation.Lemmas.LineOfSight
import SdaSystem.Propagation.Lemmas.InSight
import SdaSystem.Workers.Impl.DetectPasses
import SdaSystem.Workers.Lemmas.DetectPasses
import SdaSystem.Library.Gregorian
import SdaSystem.Propagation.Impl.JulianDate
import SdaSystem.Propagation.Lemmas.JulianDate
import SdaSystem.Api.Impl.Schedule
import SdaSystem.Api.Lemmas.Schedule
import SdaSystem.Api.Impl.Coverage
import SdaSystem.Api.Lemmas.Coverage
import SdaSystem.Ingestion.Impl.Sources
import SdaSystem.Ingestion.Lemmas.Sources
import SdaSystem.Cache.Impl.CircuitBreaker
import SdaSystem.Cache.Lemmas.CircuitBreaker
import SdaSystem.Library.PyNumber.Str
import SdaSystem.Library.Lru
import SdaSystem.Propagation.Impl.SatCache
import SdaSystem.Propagation.Lemmas.SatCache
import SdaSystem.Cache.Impl.TleCache
import SdaSystem.Cache.Lemmas.TleCache
import SdaSystem.Library.PyNumber.Exact
import SdaSystem.Ingestion.Lemmas.EpochOrder
import SdaSystem.Api.Lemmas.AuthTtl
import SdaSystem.Api.Lemmas.PassesTtl
import SdaSystem.Cache.Lemmas.Scan
import SdaSystem.Workers.Lemmas.LifeCycle
import SdaSystem.Workers.Lemmas.Maximal
import SdaSystem.Workers.Lemmas.Provenance
import SdaSystem.Workers.Lemmas.Stored
