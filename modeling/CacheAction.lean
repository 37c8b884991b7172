import CacheAction.Foundations.Buffer
import CacheAction.Foundations.Decimal
import CacheAction.Foundations.DirTree
import CacheAction.Foundations.Effect
import CacheAction.Foundations.Fields
import CacheAction.Foundations.IncrementalHash
import CacheAction.Foundations.Machine
import CacheAction.Foundations.NonZero
import CacheAction.Foundations.Polled
import CacheAction.Foundations.Rounding
import CacheAction.Foundations.Url
import CacheAction.Foundations.Utf8
import CacheAction.Foundations.Visit
import CacheAction.Foundations.WorkPool
import CacheAction.Foundations.Environment
import CacheAction.Foundations.History
import CacheAction.Foundations.Nar
import CacheAction.Foundations.Pipe
import CacheAction.Foundations.Quiescence
import CacheAction.Foundations.Shell
import CacheAction.Foundations.Simulation
import CacheAction.Foundations.Completion
import CacheAction.Foundations.NarBytes
import CacheAction.Foundations.Tasks
import CacheAction.Protocol.Message
import CacheAction.Protocol.Receiver
import CacheAction.Protocol.Sender
import CacheAction.Protocol.Causality
import CacheAction.Protocol.Delivery
import CacheAction.Protocol.Streaming
import CacheAction.Protocol.RoundTrip
import CacheAction.Protocol.CutOff
import CacheAction.EventLoop.Model
import CacheAction.EventLoop.Effects
import CacheAction.EventLoop.StopProgressReporter
import CacheAction.EventLoop.Conservation
import CacheAction.EventLoop.HumanReadableByteSize
import CacheAction.EventLoop.Sockets
import CacheAction.EventLoop.Drain
import CacheAction.EventLoop.FinalReport
import CacheAction.EventLoop.Scheduler
import CacheAction.EventLoop.SocketSimulation
import CacheAction.EventLoop.StopRequests
import CacheAction.EventLoop.AcknowledgedPush
import CacheAction.EventLoop.Shutdown
import CacheAction.EventLoop.SocketDelivery
import CacheAction.EventLoop.SocketWork
import CacheAction.EventLoop.Closures
import CacheAction.EventLoop.PushClients
import CacheAction.EventLoop.SocketShutdown
import CacheAction.Sub60.Requests
import CacheAction.Sub60.UploadNar
import CacheAction.Sub60.Steps
import CacheAction.Sub60.Assembly
import CacheAction.Sub60.Progress
import CacheAction.Sub60.Exchange
import CacheAction.Sub60.Reassembly
import CacheAction.Sub60.Expiry
import CacheAction.Sub60.Termination
import CacheAction.Sub60.PartLimit
import CacheAction.StorePath.UpstreamCaches
import CacheAction.StorePath.ExistenceCheck
import CacheAction.StorePath.HashAndCountWriter
import CacheAction.StorePath.Handle
import CacheAction.StorePath.PushDecision
import CacheAction.StorePath.UpstreamProbes
import CacheAction.StorePath.Publication
import CacheAction.StorePath.Exchange
import CacheAction.StorePath.PublishedNar
import CacheAction.StorePath.Backpressure
import CacheAction.StorePath.StoredNar
import CacheAction.StorePath.Completion
import CacheAction.NixStore.FileSystem
import CacheAction.NixStore.WriteNar
import CacheAction.NixStore.Store
import CacheAction.Daemon.Model
import CacheAction.Daemon.Staff
import CacheAction.Daemon.Publications
import CacheAction.Daemon.Crash
import CacheAction.Daemon.Store
import CacheAction.Daemon.Clients
import CacheAction.Daemon.Completion
import CacheAction.Daemon.NixStore
import CacheAction.Action.Readiness
import CacheAction.Action.UpstreamCachesInput
import CacheAction.Action.PostBuildHook
