import ShawnCore.BoundedFifo
import ShawnCore.Execution
import ShawnCore.Primitives
import ShawnCore.RingIndex
import ShawnCore.StateChain

/-!
# The entropy queue and its pools as a concurrent machine

One producer pushes chunks to `GLOBAL_ENTROPY_QUEUE`; any number of contexts,
which may be threads, interrupt handlers or callbacks of the host, call
`mix_entropy` and `extract_entropy` on any number of pools.  One step of the
producer or of a context is one access to shared memory with the local
computation up to the next access.  The bytes of a slot are accessed one by one.
The 48 bytes of a pool are read and written as a whole under its spinlock, and
a context which finds the spinlock taken spins.  A callback of the host which
calls back is a context of its own, and one which never returns is a context
which takes no further step.

The positions in snapshots, the numbers of writes and the transcript are ghost
state.
-/

namespace ShawnCore
namespace Entropy

open ByteBlocks
open RingIndex (Capacity slot)
open StateChain (Snapshot)

/-- `ENTROPY_CHUNK_SIZE` is 32. -/
abbrev Chunk := Block 32

abbrev PoolState := Block 48

/-- `ENTROPY_QUEUE_SIZE` is 64. -/
theorem queueSize_pos : 0 < 64 := by decide

def capacity : Capacity where
  size := 64
  size_pos := queueSize_pos
  size_lt := by decide
  size_dvd := ⟨2 ^ 58, by decide⟩

def maxMixChunksPerCall : ℕ := 8

structure Pool where
  state : PoolState
  locked : Bool
  reseedCount : UInt64
  mixing : Bool
  writes : ℕ

def Pool.new : Pool :=
  ⟨Block.fill 48 0, false, 0, false, 0⟩

def Pool.snapshot (pool : Pool) : Snapshot PoolState :=
  ⟨pool.state, pool.writes⟩

inductive Call where
  | mixEntropy (pool : ℕ)
  | extractEntropy (pool : ℕ) (out : Bytes)
deriving DecidableEq

def Call.pool : Call → ℕ
  | .mixEntropy pool => pool
  | .extractEntropy pool _ => pool

/-- The caller's buffer when the call starts. -/
def Call.out : Call → Bytes
  | .mixEntropy _ => []
  | .extractEntropy _ out => out

/-! ## Shared memory -/

structure Shared where
  /-- The bytes of each slot. -/
  slots : ℕ → ℕ → UInt8
  head : UInt64
  tail : UInt64
  consumerGate : Bool
  pools : ℕ → Pool

/-- What an access writes. -/
inductive Access where
  | nothing
  | storeByte (index offset : ℕ) (value : UInt8)
  | storeHead (value : UInt64)
  | storeTail (value : UInt64)
  | setConsumerGate (value : Bool)
  | setMixing (pool : ℕ) (value : Bool)
  | setLocked (pool : ℕ) (value : Bool)
  | storeState (pool : ℕ) (state : PoolState)
  | addReseedCount (pool : ℕ)

namespace Shared

def setPool (shared : Shared) (pool : ℕ) (content : Pool) : Shared :=
  { shared with pools := Function.update shared.pools pool content }

def perform (shared : Shared) : Access → Shared
  | .nothing => shared
  | .storeByte index offset value =>
      { shared with
        slots := Function.update shared.slots index
          (Function.update (shared.slots index) offset value) }
  | .storeHead value => { shared with head := value }
  | .storeTail value => { shared with tail := value }
  | .setConsumerGate value => { shared with consumerGate := value }
  | .setMixing pool value =>
      shared.setPool pool { shared.pools pool with mixing := value }
  | .setLocked pool value =>
      shared.setPool pool { shared.pools pool with locked := value }
  | .storeState pool state =>
      shared.setPool pool
        { shared.pools pool with
          state := state
          writes := (shared.pools pool).writes + 1 }
  | .addReseedCount pool =>
      shared.setPool pool
        { shared.pools pool with
          reseedCount := (shared.pools pool).reseedCount + 1 }

end Shared

/-! ## Program counters -/

/-- Inside `EntropyQueue::push`. -/
inductive ProducerPc where
  | idle
  | loadHead (chunk : Chunk)
  | loadTail (chunk : Chunk) (head : UInt64)
  | write (chunk : Chunk) (head : UInt64) (offset : ℕ)
  | publish (chunk : Chunk) (head : UInt64)

/-- Inside `EntropyQueue::pop`. -/
inductive PopPc where
  | loadTail
  | loadHead (tail : UInt64)
  | read (tail : UInt64) (bytes : Bytes)
  | zeroize (tail : UInt64) (chunk : Chunk) (offset : ℕ)
  | publish (tail : UInt64) (chunk : Chunk)

/-- Inside `mix_entropy_under_gate`, while the consumer gate is owned.  The
batch is what `queue_hasher` has been fed. -/
inductive MixPc where
  | pop (batch : List Chunk) (pc : PopPc)
  | lock (batch : List Chunk)
  | load (batch : List Chunk)
  | store (batch : List Chunk) (snapshot : Snapshot PoolState)
  | unlock
  | count
  | release

/-- Inside `extract_entropy`, after its mixing. -/
inductive ExtractPc where
  | loadReseedCount
  | lockSnapshot (offset : ℕ)
  | loadSnapshot (offset : ℕ)
  | unlockSnapshot (offset : ℕ) (snapshot : Snapshot PoolState)
  | lockCommit (offset : ℕ) (snapshot : Snapshot PoolState)
  | commit (offset : ℕ) (snapshot : Snapshot PoolState)
  | unlockCommit (offset : ℕ)

/-- While the operation gate of the pool is owned. -/
inductive OwnerPc where
  | acquireConsumerGate
  | mix (pc : MixPc)
  | extract (out : Bytes) (pc : ExtractPc)
  | release (result : Except CryptoError Unit) (out : Bytes)

inductive ContextPc where
  | idle
  | acquire (call : Call)
  | own (call : Call) (pc : OwnerPc)

/-! ## Transcripts -/

/-- What a pool's owner does to the queue, the pool and its caller's buffer. -/
inductive PoolEvent where
  | popped (chunk : Chunk)
  | absorbed (source : Snapshot PoolState) (batch : List Chunk)
      (result : PoolState)
  | squeezed (source : Snapshot PoolState) (block : Block 48)
  | advanced (source : Snapshot PoolState) (result : PoolState)
deriving DecidableEq

inductive Event where
  | pushed (chunk : Chunk)
  | full
  | called (context : ℕ) (call : Call)
  | acted (context pool : ℕ) (event : PoolEvent)
  | returned (context : ℕ) (call : Call)
      (result : Except CryptoError Unit) (out : Bytes)
deriving DecidableEq

structure System where
  shared : Shared
  producer : ProducerPc
  contexts : ℕ → ContextPc
  transcript : List Event

def System.initial : System where
  shared :=
    { slots := fun _ _ => 0
      head := 0
      tail := 0
      consumerGate := false
      pools := fun _ => Pool.new }
  producer := .idle
  contexts := fun _ => .idle
  transcript := []

/-! ## `EntropyQueue` -/

def stepProducer (shared : Shared) :
    ProducerPc → Option (ProducerPc × Access × Option Event)
  | .idle => none
  | .loadHead chunk => some (.loadTail chunk shared.head, .nothing, none)
  | .loadTail chunk head =>
      if capacity.size ≤ (head - shared.tail).toNat then
        some (.idle, .nothing, some .full)
      else
        some (.write chunk head 0, .nothing, none)
  | .write chunk head offset =>
      match chunk.bytes[offset]? with
      | some byte =>
          some (.write chunk head (offset + 1),
            .storeByte (slot capacity head) offset byte, none)
      | none => some (.publish chunk head, .nothing, none)
  | .publish chunk head =>
      some (.idle, .storeHead (head + 1), some (.pushed chunk))

/-- A function either goes on or returns. -/
inductive Progress (Pc Result : Type) where
  | running (pc : Pc)
  | done (result : Result)

/-- The result of `pop` is the chunk if there was one. -/
def stepPop (shared : Shared) :
    PopPc → Progress PopPc (Option Chunk) × Access
  | .loadTail => (.running (.loadHead shared.tail), .nothing)
  | .loadHead tail =>
      if shared.head = tail then
        (.done none, .nothing)
      else
        (.running (.read tail []), .nothing)
  | .read tail bytes =>
      if hlength : bytes.length = 32 then
        (.running (.zeroize tail ⟨bytes, hlength⟩ 0), .nothing)
      else
        (.running (.read tail
          (bytes ++ [shared.slots (slot capacity tail) bytes.length])),
          .nothing)
  | .zeroize tail chunk offset =>
      if offset < 32 then
        (.running (.zeroize tail chunk (offset + 1)),
          .storeByte (slot capacity tail) offset 0)
      else
        (.running (.publish tail chunk), .nothing)
  | .publish tail chunk => (.done (some chunk), .storeTail (tail + 1))

/-! ## `EntropyPool` -/

section Pools

variable (sha384 : Bytes → Block 48)

/-- The state after a batch has been mixed in. -/
def absorb (batch : List Chunk) (state : PoolState) : PoolState :=
  sha384 (state.bytes ++ (sha384 (batch.flatMap Block.bytes)).bytes)

def outputBlock (state : PoolState) : Block 48 :=
  sha384 (0x00 :: state.bytes)

def nextState (state : PoolState) : PoolState :=
  sha384 (0x01 :: state.bytes)

/-- After the loop of `mix_entropy_under_gate`. -/
def afterPops : List Chunk → MixPc
  | [] => .release
  | chunk :: rest => .lock (chunk :: rest)

/-- At the head of the loop. -/
def nextPop (batch : List Chunk) : MixPc :=
  if batch.length < maxMixChunksPerCall then
    .pop batch .loadTail
  else
    afterPops batch

/-- One step of `CryptoSpinlock::lock`. -/
def stepLock {Pc Result : Type} (shared : Shared) (pool : ℕ)
    (spin entered : Pc) : Progress Pc Result × Access × Option PoolEvent :=
  if (shared.pools pool).locked then
    (.running spin, .nothing, none)
  else
    (.running entered, .setLocked pool true, none)

def stepMix (shared : Shared) (pool : ℕ) :
    MixPc → Progress MixPc Unit × Access × Option PoolEvent
  | .pop batch pc =>
      match stepPop shared pc with
      | (.running pc, access) => (.running (.pop batch pc), access, none)
      | (.done none, access) => (.running (afterPops batch), access, none)
      | (.done (some chunk), access) =>
          (.running (nextPop (batch ++ [chunk])), access,
            some (.popped chunk))
  | .lock batch => stepLock shared pool (.lock batch) (.load batch)
  | .load batch =>
      (.running (.store batch (shared.pools pool).snapshot), .nothing, none)
  | .store batch snapshot =>
      (.running .unlock,
        .storeState pool (absorb sha384 batch snapshot.state),
        some (.absorbed snapshot batch (absorb sha384 batch snapshot.state)))
  | .unlock => (.running .count, .setLocked pool false, none)
  | .count => (.running .release, .addReseedCount pool, none)
  | .release => (.done (), .setConsumerGate false, none)

/-- The bytes copied to the buffer from one output block. -/
def copyLen (out : Bytes) (offset : ℕ) : ℕ :=
  min 48 (out.length - offset)

def copyBlock (out : Bytes) (offset : ℕ) (block : Block 48) : Bytes :=
  out.take offset ++ block.bytes.take (copyLen out offset) ++
    out.drop (offset + copyLen out offset)

/-- At the head of the loop of `extract_entropy`. -/
def nextBlock (out : Bytes) (offset : ℕ) :
    Progress ExtractPc (Except CryptoError Unit) :=
  if offset < out.length then
    .running (.lockSnapshot offset)
  else
    .done (.ok ())

/-- The buffer is returned beside the program counter. -/
def stepExtract (shared : Shared) (pool : ℕ) (out : Bytes) :
    ExtractPc →
      Bytes × Progress ExtractPc (Except CryptoError Unit) × Access ×
        Option PoolEvent
  | .loadReseedCount =>
      if (shared.pools pool).reseedCount = 0 then
        (out, .done (.error .entropyStarvation), .nothing, none)
      else
        (out, nextBlock out 0, .nothing, none)
  | .lockSnapshot offset =>
      (out, stepLock shared pool (.lockSnapshot offset)
        (.loadSnapshot offset))
  | .loadSnapshot offset =>
      (out, .running (.unlockSnapshot offset (shared.pools pool).snapshot),
        .nothing, none)
  | .unlockSnapshot offset snapshot =>
      (copyBlock out offset (outputBlock sha384 snapshot.state),
        .running (.lockCommit offset snapshot), .setLocked pool false,
        some (.squeezed snapshot (outputBlock sha384 snapshot.state)))
  | .lockCommit offset snapshot =>
      (out, stepLock shared pool (.lockCommit offset snapshot)
        (.commit offset snapshot))
  | .commit offset snapshot =>
      (out, .running (.unlockCommit offset),
        .storeState pool (nextState sha384 snapshot.state),
        some (.advanced snapshot (nextState sha384 snapshot.state)))
  | .unlockCommit offset =>
      (out, nextBlock out (offset + copyLen out offset),
        .setLocked pool false, none)

/-- After `mix_entropy_under_gate`. -/
def afterMix : Call → OwnerPc
  | .mixEntropy _ => .release (.ok ()) []
  | .extractEntropy _ out => .extract out .loadReseedCount

def stepOwner (shared : Shared) (call : Call) :
    OwnerPc →
      Progress OwnerPc (Except CryptoError Unit × Bytes) × Access ×
        Option PoolEvent
  | .acquireConsumerGate =>
      if shared.consumerGate then
        (.running (afterMix call), .nothing, none)
      else
        (.running (.mix (nextPop [])), .setConsumerGate true, none)
  | .mix pc =>
      match stepMix sha384 shared call.pool pc with
      | (.running pc, access, event) => (.running (.mix pc), access, event)
      | (.done _, access, event) => (.running (afterMix call), access, event)
  | .extract out pc =>
      match stepExtract sha384 shared call.pool out pc with
      | (out, .running pc, access, event) =>
          (.running (.extract out pc), access, event)
      | (out, .done result, access, event) =>
          (.running (.release result out), access, event)
  | .release result out =>
      (.done (result, out), .setMixing call.pool false, none)

/-- What a call returns which does not get the operation gate. -/
def busyResult : Call → Except CryptoError Unit
  | .mixEntropy _ => .ok ()
  | .extractEntropy _ _ => .error .entropyBusy

def stepContext (shared : Shared) (context : ℕ) :
    ContextPc → Option (ContextPc × Access × Option Event)
  | .idle => none
  | .acquire call =>
      if (shared.pools call.pool).mixing then
        some (.idle, .nothing,
          some (.returned context call (busyResult call) call.out))
      else
        some (.own call .acquireConsumerGate, .setMixing call.pool true, none)
  | .own call pc =>
      match stepOwner sha384 shared call pc with
      | (.running pc, access, event) =>
          some (.own call pc, access, event.map (.acted context call.pool))
      | (.done (result, out), access, _) =>
          some (.idle, access, some (.returned context call result out))

/-! ## Runs -/

inductive Action where
  | push (chunk : Chunk)
  | call (context : ℕ) (call : Call)
  | producer
  | context (context : ℕ)

def System.emit (system : System) (event : Option Event) : System :=
  { system with transcript := system.transcript ++ event.toList }

def System.moveProducer
    (system : System) (pc : ProducerPc) (access : Access) : System :=
  { system with
    shared := system.shared.perform access
    producer := pc }

def System.moveContext
    (system : System) (context : ℕ) (pc : ContextPc) (access : Access) :
    System :=
  { system with
    shared := system.shared.perform access
    contexts := Function.update system.contexts context pc }

def step (system : System) : Action → Option System
  | .push chunk =>
      match system.producer with
      | .idle => some (system.moveProducer (.loadHead chunk) .nothing)
      | _ => none
  | .call context call =>
      match system.contexts context with
      | .idle =>
          some ((system.moveContext context (.acquire call) .nothing).emit
            (some (.called context call)))
      | _ => none
  | .producer =>
      match stepProducer system.shared system.producer with
      | none => none
      | some (pc, access, event) =>
          some ((system.moveProducer pc access).emit event)
  | .context context =>
      match stepContext sha384 system.shared context
          (system.contexts context) with
      | none => none
      | some (pc, access, event) =>
          some ((system.moveContext context pc access).emit event)

end Pools

end Entropy
end ShawnCore
