import GroundCore.Lib.Run
import GroundCore.Lib.HashMap
import GroundCore.Lib.ExceptLoops
import GroundCore.Lib.FloatOps
import GroundCore.Lib.FiniteFloat
import GroundCore.Lib.NanFloat
import GroundCore.Lib.Sha256
import GroundCore.Lib.Chain
import GroundCore.Lib.BestFirst
import GroundCore.Lib.SecondaryIndex
import GroundCore.Lib.PriorityQueue
import GroundCore.Lib.RwLock
import GroundCore.Lib.ProgressiveFilling
import GroundCore.Lib.LocalSearch
import GroundCore.Lib.BTreeMap
import GroundCore.Lib.LeastRecentlyUsed
import GroundCore.Lib.UnscentedTransform
import GroundCore.Lib.ClampedSum
import GroundCore.Lib.BinarySearch
import GroundCore.Lib.Crossings
import GroundCore.Lib.Pairs
import GroundCore.Lib.SaturatingCast
import GroundCore.Lib.Angles
import GroundCore.Lib.Sgp4
import GroundCore.Lib.BreadthFirst
import GroundCore.Lib.WeightedMean
import GroundCore.Lib.Json
import GroundCore.Lib.RealFloat
import GroundCore.Lib.Windows
import GroundCore.Lib.MaximalRuns
import GroundCore.Lib.JsonText
import GroundCore.Core.Types
import GroundCore.Hardware.Pool
import GroundCore.Hardware.PoolSteps
import GroundCore.Hardware.PoolConsistency
import GroundCore.Hardware.CircuitBreaker
import GroundCore.RfLayer.Demodulator
import GroundCore.RfLayer.Failover
import GroundCore.Bitemporal.Timestamp
import GroundCore.Bitemporal.Log
import GroundCore.Bitemporal.LogChain
import GroundCore.Bitemporal.Provenance
import GroundCore.Bitemporal.HashBinding
import GroundCore.Bitemporal.CrossVerification
import GroundCore.Caching.Generic
import GroundCore.Caching.Recency
import GroundCore.Caching.Propagation
import GroundCore.Caching.Fragments
import GroundCore.Uplink.Command
import GroundCore.Uplink.Queue
import GroundCore.Uplink.Withdrawal
import GroundCore.Uplink.Transmitter
import GroundCore.Uplink.Locking
import GroundCore.Uplink.Confirmation
import GroundCore.Uplink.Finality
import GroundCore.Uplink.Timeouts
import GroundCore.Uplink.Scheduler
import GroundCore.Uplink.Exclusivity
import GroundCore.Oisl.Types
import GroundCore.Oisl.Topology.Forecast
import GroundCore.Oisl.Topology.Routing
import GroundCore.Oisl.Topology.RouteSearch
import GroundCore.Oisl.Topology.RouteCache
import GroundCore.Oisl.Topology.ControlNodePlacement
import GroundCore.Oisl.Topology.Refinement
import GroundCore.Oisl.Topology.Coverage
import GroundCore.Oisl.Mission.Types
import GroundCore.Oisl.Mission.Scheduler
import GroundCore.Oisl.Mission.Validator
import GroundCore.Oisl.Mission.Compiler
import GroundCore.Oisl.Mission.PlanTasks
import GroundCore.Oisl.Mission.Schedulable
import GroundCore.Oisl.Mission.Validity
import GroundCore.Oisl.Mission.Coherence
import GroundCore.Oisl.Mission.CustodyCoverage
import GroundCore.Oisl.Resource.Allocator
import GroundCore.Oisl.Resource.Scheduler
import GroundCore.Oisl.Resource.System
import GroundCore.Oisl.Resource.AllocatorRuns
import GroundCore.Oisl.Resource.Conservation
import GroundCore.Oisl.Resource.Quotas
import GroundCore.Oisl.Resource.NodeBudget
import GroundCore.Oisl.Resource.ControlNodeAssignment
import GroundCore.Oisl.Resource.Handoffs
import GroundCore.Oisl.Resource.Predictions
import GroundCore.Oisl.Federation.Plane
import GroundCore.Oisl.Federation.Links
import GroundCore.Oisl.Federation.ControlPlaneHandoff
import GroundCore.Oisl.Federation.HandoffProtocol
import GroundCore.Oisl.Federation.HandoffRuns
import GroundCore.Oisl.Federation.HandoffRequests
import GroundCore.Oisl.Pat.Coordinator
import GroundCore.Scheduler.Drf
import GroundCore.Scheduler.Filling
import GroundCore.Scheduler.Guard
import GroundCore.Scheduler.Keyhole
import GroundCore.Scheduler.Reputation
import GroundCore.Scheduler.Schedule
import GroundCore.Scheduler.Optimization
import GroundCore.Scheduler.Annealing
import GroundCore.Scheduler.Incremental
import GroundCore.Scheduler.Drift
import GroundCore.Scheduler.Conflicts
import GroundCore.Scheduler.ClimbScore
import GroundCore.Scheduler.Fairness
import GroundCore.Federation.Verification
import GroundCore.Federation.Spectrum
import GroundCore.Federation.Bilateral
import GroundCore.Federation.Rounds
import GroundCore.Federation.Attestation
import GroundCore.Federation.Trust
import GroundCore.Federation.Acceptance
import GroundCore.Federation.SpectrumOverlap
import GroundCore.Federation.Plausibility
import GroundCore.Optical.Pat.Scheduler
import GroundCore.Optical.Pat.Schedules
import GroundCore.Optical.Pat.Discipline
import GroundCore.Optical.Pat.Concurrent
import GroundCore.Optical.Pat.Raster
import GroundCore.Optical.Pat.Calibration
import GroundCore.Optical.Link.Degradation
import GroundCore.Optical.Routing.PathFinder
import GroundCore.Acs.Safety
import GroundCore.Acs.Controller
import GroundCore.Tracking.Ukf
import GroundCore.Tracking.Covariance
import GroundCore.RfLayer.Doppler
import GroundCore.RfLayer.DopplerModels
import GroundCore.RfLayer.DopplerSchedule
import GroundCore.RfLayer.SymbolTiming
import GroundCore.RfLayer.ShadowTracker
import GroundCore.RfLayer.SampleRing
import GroundCore.RfLayer.SnapshotIntegrity
import GroundCore.RfFrontEnd.Devices
import GroundCore.RfFrontEnd.Agc
import GroundCore.RfFrontEnd.AttenuatorRuns
import GroundCore.RfFrontEnd.Calibration
import GroundCore.Regulatory.License
import GroundCore.Regulatory.Reporting
import GroundCore.Optical.Attestation.LinkProof
import GroundCore.Optical.Attestation.PatProof
import GroundCore.Optical.Attestation.Binding
import GroundCore.Optical.Attestation.Identity
import GroundCore.Optical.Attestation.CertificateChain
import GroundCore.DigitalTwin.Divergence
import GroundCore.DigitalTwin.ChangePoints
import GroundCore.DigitalTwin.Replay
import GroundCore.Constellation.Pass
import GroundCore.Constellation.PassSamples
import GroundCore.Constellation.PassGeometry
import GroundCore.Constellation.PassRuns
import GroundCore.Constellation.Manager
import GroundCore.Constellation.Refresh
import GroundCore.Agent.Proposal
import GroundCore.Agent.Approval
import GroundCore.Deployment.Supervisor
import GroundCore.Deployment.Rollout
import GroundCore.PolicyCompiler.Parser
import GroundCore.PolicyCompiler.FailClosed
import GroundCore.PolicyCompiler.Generator
import GroundCore.PolicyCompiler.Identifiers
import GroundCore.Acs.Slew
import GroundCore.Acs.Tracking
import GroundCore.Tracking.Tle
import GroundCore.Federation.Challenge
import GroundCore.Hardware.Emergency
import GroundCore.Hardware.RingBuffer
import GroundCore.Lib.Double
import GroundCore.Lib.NumberText
import GroundCore.Lib.WorkQueue
import GroundCore.Lib.Contraction
import GroundCore.Lib.PiecewiseLinear
import GroundCore.Lib.RingQueue
import GroundCore.Oisl.Mission.ConflictLog
import GroundCore.Oisl.Mission.Placement
import GroundCore.Oisl.Mission.TaskLoss
import GroundCore.Oisl.Mission.Termination
import GroundCore.Oisl.Mission.StationChoice
import GroundCore.Optical.Attestation.Creation
import GroundCore.Optical.Link.Failover
import GroundCore.Tracking.TleEpoch
import GroundCore.Lib.Buffer
import GroundCore.Agent.Synthesis
import GroundCore.RfLayer.Pipeline
import GroundCore.Snapshotting.Manager
import GroundCore.Acs.Homing
import GroundCore.Optical.Geometry.Pointing
import GroundCore.RfFrontEnd.Selection
import GroundCore.Regulatory.Transmit
import GroundCore.Bitemporal.Snapshots
import GroundCore.Lib.SealedBox
import GroundCore.Hardware.Tenant
import GroundCore.Optical.Link.Scintillation
import GroundCore.Optical.Pat.CalibrationTracker
import GroundCore.DigitalTwin.Visibility
import GroundCore.SdrSim.Signal
import GroundCore.SdrSim.Simulator
import GroundCore.Tracking.Propagator
import GroundCore.Tracking.Refiner
