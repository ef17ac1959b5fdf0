import ShawnCore.ByteBlocks
import ShawnCore.KeyedHash
import ShawnCore.Execution
import ShawnCore.Primitives
import ShawnCore.ReferencePrimitives
import ShawnCore.Aead
import ShawnCore.HandshakeEncoding
import ShawnCore.SequenceWindow
import ShawnCore.SessionManager
import ShawnCore.SessionCalls
import ShawnCore.ReplayWindow
import ShawnCore.TransmitNonce
import ShawnCore.SessionNetwork
import ShawnCore.PacketDelivery
import ShawnCore.AuthExchange
import ShawnCore.SaltConfirmation
import ShawnCore.HandshakeAgreement
import ShawnCore.DmaPool
import ShawnCore.DmaPoolInit
import ShawnCore.LinkedStack
import ShawnCore.DmaExclusivity
import ShawnCore.DmaAllocations
import ShawnCore.BoundedFifo
import ShawnCore.RingIndex
import ShawnCore.SlotQueue
import ShawnCore.SlotQueueRefinement
import ShawnCore.SlotQueueFifo
import ShawnCore.Deduction
import ShawnCore.SymbolicHandshake
import ShawnCore.SymbolicNetwork
import ShawnCore.SymbolicSecrecy
import ShawnCore.SymbolicInterpretation
import ShawnCore.RingBufferPeek
import ShawnCore.DmaTokens
import ShawnCore.DmaFreeCalls
import ShawnCore.AuthorizedTraffic
import ShawnCore.CallLog
import ShawnCore.SessionFailures
import ShawnCore.DecapsulationUse
import ShawnCore.Bitmap
import ShawnCore.BitmapScheduler
import ShawnCore.HandshakeInterop
import ShawnCore.WatchdogWindow
import ShawnCore.TaskResumption
import ShawnCore.EntropyPool
import ShawnCore.ExclusiveFlag
import ShawnCore.EntropyFifo
import ShawnCore.EntropyChain
import ShawnCore.EntropyBatches
import ShawnCore.EntropyCalls
import ShawnCore.EntropyProgress
import ShawnCore.EntropyConservation
import ShawnCore.SessionInvariant
import ShawnCore.QueueInit
import ShawnCore.DomainSeparation
import ShawnCore.QueueInitOnce
import ShawnCore.AeadExactness
import ShawnCore.FailedPackets
import ShawnCore.DmaWipe
import ShawnCore.DmaReuse
import ShawnCore.InterruptSpinlock
import ShawnCore.EntropyScrubbing
import ShawnCore.EntropySolo
import ShawnCore.RatchetStream
import ShawnCore.SpinlockSafety
import ShawnCore.EntropyReseeds
import ShawnCore.EntropyStream
import ShawnCore.AddressRange
import ShawnCore.PairCheck
import ShawnCore.FfiAliasing
import ShawnCore.KeyChecksum
import ShawnCore.Linearization
import ShawnCore.StateMachine
import ShawnCore.RtosInitializers
import ShawnCore.InitializerSafety
import ShawnCore.ByteMemory
import ShawnCore.CryptoInterface
import ShawnCore.ByteCodec
import ShawnCore.CasLoop
import ShawnCore.HostCalls
import ShawnCore.HostConfinement
import ShawnCore.HostRefinement
import ShawnCore.InFlight
import ShawnCore.KeyMaterial
import ShawnCore.LatencyAccounting
import ShawnCore.SecureChannel
import ShawnCore.DmaExhaustion
import ShawnCore.TaskIsolation
import ShawnCore.HandshakeResilience
import ShawnCore.MemoryCells
import ShawnCore.QueueCells
import ShawnCore.QueueSimulation
import ShawnCore.WatchdogExactness
import ShawnCore.QueueHistory
