import Kino.Transitions
import Kino.Channels
import Kino.Responder
import Kino.ResponseRace
import Kino.Backstop
import Kino.RequestBody
import Kino.BodyDelivery
import Kino.BodyOutcomes
import Kino.NullInput
import Kino.Ownership
import Kino.LaneDispatch
import Kino.LaneSafety
import Kino.Programs
import Kino.Worker
import Kino.TakenServed
import Kino.StreamEnd
import Kino.RactorSupervisor
import Kino.Shutdown
import Kino.Sweep
import Kino.LaneClosing
import Kino.LanePool
import Kino.ClosedQueue
import Kino.CrashedLane
import Kino.LruCache
import Kino.PinSlab
import Kino.EnvStrings
import Kino.EnvCache
import Kino.EnvSlots
import Kino.HostCache
import Kino.HeaderEnv
import Kino.SlotBank
import Kino.RactorPool
import Kino.RactorSlots
import Kino.ThreadedPool
import Kino.ThreadedSlots
import Kino.SlotLaws
import Kino.ActiveCount
import Kino.WorkerCount
import Kino.TryDispatch
import Kino.RackInput
import Kino.UnixSocket
import Kino.Pidfile
import Kino.LogSink
import Kino.FailedSpawn
import Kino.StreamAbort
import Kino.OrderedHash
import Kino.PoolScaler
import Kino.HostPort
import Kino.Histograms
import Kino.QueueHistogram
import Kino.Metrics
import Kino.ControlPlane
import Kino.PinRace
import Kino.IoShards
import Kino.StreamFlow
import Kino.StreamWrites
import Kino.BodyClose
import Kino.BusyAge
import Kino.StickyInterrupt
import Kino.ServerStart
import Kino.Tallies
import Kino.RequestLifecycle
import Kino.RequestCounts
import Kino.RequestOrder
import Kino.RequestRecords
import Kino.RequestDeadlines
import Kino.Layers
import Kino.Configuration
import Kino.QuarantineMonitor
import Kino.Exploration
import Kino.Check
import Kino.WorkerHandles
import Kino.GracefulDrain
import Kino.ShutdownEnd
import Kino.JsonText
import Kino.StatsReport
import Kino.Watches
import Kino.ConnectionDrain
import Kino.RackResponse
import Kino.WorkerHooks
import Kino.ResponseOver
