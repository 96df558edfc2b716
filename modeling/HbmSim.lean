import HbmSim.Common
import HbmSim.Lib.Parity
import HbmSim.Lib.MixedRadix
import HbmSim.Spec
import HbmSim.Address
import HbmSim.Data
import HbmSim.Secded
import HbmSim.Ecc
import HbmSim.Backend
import HbmSim.Lib.Patch
import HbmSim.Image
import HbmSim.ImageInvariant
import HbmSim.ImageAccess
import HbmSim.ImageWrite
import HbmSim.ImageRefinement
import HbmSim.ImageEcc
import HbmSim.Request
import HbmSim.Queues
import HbmSim.Timing
import HbmSim.Maintenance
import HbmSim.Phy
import HbmSim.Executor
import HbmSim.Controller
import HbmSim.ControllerTick
import HbmSim.Lib.Transition
import HbmSim.ControllerRun
import HbmSim.ControllerFrame
import HbmSim.ControllerIssue
import HbmSim.ControllerEntry
import HbmSim.Traffic
import HbmSim.Conservation
import HbmSim.ReadBeforeWrite
import HbmSim.TimingTable
import HbmSim.Lib.Watermark
import HbmSim.TimingMeaning
import HbmSim.CommandHistory
import HbmSim.Lib.Window
import HbmSim.ActivationWindow
import HbmSim.Lib.Span
import HbmSim.PowerDown
import HbmSim.WakeUp
import HbmSim.Lib.History
import HbmSim.BankHistory
import HbmSim.PrechargeGate
import HbmSim.RankRefresh
import HbmSim.Validator
import HbmSim.ValidatorSound
import HbmSim.Lib.Grouping
import HbmSim.DfiTrace
import HbmSim.GatedTrace
import HbmSim.ValidatorMirror
import HbmSim.ValidatorTiming
import HbmSim.ValidatorAgrees
import HbmSim.StackAddress
import HbmSim.StackSpace
import HbmSim.Routing
import HbmSim.ImageIsolation
import HbmSim.LineIsolation
import HbmSim.SelfRefresh
import HbmSim.FileBackend
import HbmSim.ChunkBackend
import HbmSim.BackendAgree
import HbmSim.RefreshLedger
import HbmSim.RefreshDebt
import HbmSim.RefreshRotation
import HbmSim.Lib.DelayLine
import HbmSim.PhySlots
import HbmSim.InFlight
import HbmSim.Lib.Replay
import HbmSim.QueueOrder
import HbmSim.Delivery
import HbmSim.System
import HbmSim.Ingress
import HbmSim.ResponseFlow
import HbmSim.HostLifecycle
import HbmSim.HostResponses
import HbmSim.Scheduler
import HbmSim.Checkpoint
import HbmSim.ReverseIndex
import HbmSim.MaintenanceAccount
import HbmSim.KindCount
import HbmSim.RefreshCoverage
import HbmSim.RfmAccount
import HbmSim.RowPolicyAccount
import HbmSim.AllocatedLines
import HbmSim.WriteCoalesce
import HbmSim.BlockAccess
import HbmSim.Coherence
import HbmSim.Errands
import HbmSim.Lib.Rounds
import HbmSim.CommandSpacing
import HbmSim.ConfigDocument
import HbmSim.HostSplit
import HbmSim.LastWrite
import HbmSim.Placement
import HbmSim.Lib.PullStream
import HbmSim.TrafficStreams
import HbmSim.ImageDump
import HbmSim.ResumedRun
import HbmSim.ValidatorRun
