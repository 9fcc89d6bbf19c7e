import VortexEngine.Foundations.Machine
import VortexEngine.Foundations.StepBudget
import VortexEngine.Foundations.BoundedFifo
import VortexEngine.Foundations.LossyBuffer
import VortexEngine.Foundations.RingWindow
import VortexEngine.Foundations.PowerOfTwo
import VortexEngine.Foundations.ByteOrder
import VortexEngine.Foundations.StreamDecoder
import VortexEngine.Foundations.StreamEncoder
import VortexEngine.Foundations.BitScan
import VortexEngine.Foundations.MaskWalk
import VortexEngine.Foundations.Memory
import VortexEngine.Foundations.Hysteresis
import VortexEngine.Foundations.Ownership
import VortexEngine.Configuration
import VortexEngine.Core.LogEntry
import VortexEngine.Core.LogQueue
import VortexEngine.Core.QueueSystem
import VortexEngine.Core.QueueInvariant
import VortexEngine.Core.InertQueue
import VortexEngine.Core.QueueRefinement
import VortexEngine.Core.QueueCalls
import VortexEngine.Core.WaitFree
import VortexEngine.Core.Provenance
import VortexEngine.Core.SlotCopy
import VortexEngine.Core.WholeCalls
import VortexEngine.Core.Watermark
import VortexEngine.Core.EntryAccount
import VortexEngine.Core.QueueEntries
import VortexEngine.Core.PushLedger
import VortexEngine.Core.WaitingPolicies
import VortexEngine.Core.WaitLoop
import VortexEngine.Core.OverflowSemantics
import VortexEngine.Network.MagicRingBuffer
import VortexEngine.Network.RingRefinement
import VortexEngine.Network.NetworkSession
import VortexEngine.Network.SessionSizing
import VortexEngine.Network.Framing
import VortexEngine.Network.FramingRefinement
import VortexEngine.Network.StashPass
import VortexEngine.Network.FrameDelivery
import VortexEngine.Network.MixedStream
import VortexEngine.Network.SlabPool
import VortexEngine.Network.SlabRotation
import VortexEngine.Network.SlabLaps
import VortexEngine.Network.SharedMemory
import VortexEngine.Network.RecordParser
import VortexEngine.Network.RecordGrammar
import VortexEngine.Network.StoredOffsets
import VortexEngine.Network.ParserAgreement
import VortexEngine.Network.FieldStrictness
import VortexEngine.Network.LogServer
import VortexEngine.Network.Handles
import VortexEngine.ThreadManager.ConsumerThread
import VortexEngine.ThreadManager.Shutdown
import VortexEngine.ThreadManager.IdleConsumer
import VortexEngine.ThreadManager.Wakeup
import VortexEngine.ThreadManager.Stranding
import VortexEngine.ThreadManager.DeliveryLatency
import VortexEngine.ThreadManager.TelemetryThread
import VortexEngine.Pipeline.RecordSystem
import VortexEngine.Pipeline.RecordCalls
import VortexEngine.Pipeline.WholeParser
import VortexEngine.Pipeline.FailedQueue
import VortexEngine.Pipeline.RefusedRecords
import VortexEngine.Pipeline.SizeLimit
import VortexEngine.Pipeline.PayloadIntegrity
import VortexEngine.Pipeline.CallLedger
import VortexEngine.Pipeline.Worker
import VortexEngine.Pipeline.SessionDelivery
import VortexEngine.Pipeline.Disconnection
import VortexEngine.Pipeline.ClosingCause
import VortexEngine.Pipeline.Client
import VortexEngine.Pipeline.ValidEntries
import VortexEngine.Pipeline.Engine
import VortexEngine.Pipeline.Service
import VortexEngine.Pipeline.HandlerBudget
import VortexEngine.Pipeline.AddressSpace
import VortexEngine.Pipeline.SectionReader
import VortexEngine.Pipeline.ParserChoice
