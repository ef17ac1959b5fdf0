import ShawnCore.ByteCodec
import ShawnCore.InitializerSafety
import ShawnCore.MemoryCells

/-!
# The slot queues of the RTOS C interface in memory

A host keeps the control object of a queue and the slots in its own memory and
calls `init`, `push`, `pop` and `peek` with pointers to them, from one producer
and one consumer.  One step of a call is one access to memory; a payload is
copied, wiped and restored byte by byte.  Between the steps others write to the
rest of the memory.  Without the cache callbacks a call does not return.
-/

namespace ShawnCore
namespace Rtos

open ByteBlocks (Block)
open ByteCodec (Codec)
open ByteMemory
open RingIndex (slot)
open SlotQueue (Mode)

/-! ## Layouts -/

/-- An instance of `SpscQueue<T, N>` or `RingBuffer<T, N>` with the layout of
`T` and of its slots. -/
structure QueueType (α : Type) where
  layout : SlotQueue.Layout
  item : Format α
  slotLayout : SlotLayout
  itemSize_eq : layout.itemSize = item.size.toNat
  itemSize_pos : 0 < item.size.toNat
  item_le : item.size.toNat ≤ slotLayout.counterOffset
  backing_lt : layout.capacity.size * slotLayout.size.toNat < 2 ^ 64

theorem controlObject_size_pos : 0 < (256 : UInt64).toNat := by
  decide

theorem controlObject_align_dvd :
    (64 : UInt64).toNat ∣ (256 : UInt64).toNat := by
  decide

/-- The control object: `repr(C)`, with cache-aligned indices. -/
def controlObject : TypeLayout where
  size := 256
  align := 64
  size_pos := controlObject_size_pos
  align_dvd := controlObject_align_dvd

def headOffset : ℕ := 64

def tailOffset : ℕ := 128

def isInitializedOffset : ℕ := 192

def isInitializingOffset : ℕ := 193

variable {α : Type}

namespace QueueType

variable (type : QueueType α)

def capacity : ℕ := type.layout.capacity.size

def elementCount : UInt64 := UInt64.ofNat type.capacity

def itemSize : ℕ := type.item.size.toNat

def slotSize : ℕ := type.slotLayout.size.toNat

def backingSize : ℕ := type.capacity * type.slotSize

def dataAddress (base : UInt64) (index : ℕ) : UInt64 :=
  base + UInt64.ofNat (index * type.slotSize)

def counterAddress (base : UInt64) (index : ℕ) : UInt64 :=
  base + UInt64.ofNat
    (index * type.slotSize + type.slotLayout.counterOffset)

end QueueType

/-! ## Accesses -/

def loadWord (memory : Memory) (address : UInt64) : UInt64 :=
  Codec.word64.decode (read memory address 8)

def storeWord (address value : UInt64) : Write :=
  ⟨address, Codec.word64.encode value⟩

def loadFlag (memory : Memory) (address : UInt64) : Bool :=
  Codec.flag.decode (read memory address 1)

def storeFlag (address : UInt64) (value : Bool) : Write :=
  ⟨address, Codec.flag.encode value⟩

/-! ## `init` -/

/-- The codes of `ShawncoreRtosErr` which the functions of a queue return. -/
inductive QueueCode
  | success
  | queueFull
  | queueEmpty
  | notInitialized
  | alreadyInitialized
  | invalidMemory
deriving DecidableEq

def QueueCode.fromIpcError : SlotQueue.IpcError → QueueCode
  | .queueFull => .queueFull
  | .notInitialized => .notInitialized
  | .alreadyInitialized => .alreadyInitialized
  | .invalidMemory => .invalidMemory

/-- `ptr::write(queue, new())`; the bytes of padding keep their values. -/
def newWrites (queue : UInt64) : List Write :=
  [storeWord queue 0,
    storeWord (queue + UInt64.ofNat headOffset) 0,
    storeWord (queue + UInt64.ofNat tailOffset) 0,
    storeFlag (queue + UInt64.ofNat isInitializedOffset) false,
    storeFlag (queue + UInt64.ofNat isInitializingOffset) false]

/-- The stores of `init` on a new queue. -/
def bindWrites (type : QueueType α) (queue base : UInt64) : List Write :=
  [storeFlag (queue + UInt64.ofNat isInitializingOffset) true] ++
    (List.range type.capacity).map
      (fun index => storeWord (type.counterAddress base index) 0) ++
    [storeWord queue base,
      storeFlag (queue + UInt64.ofNat isInitializedOffset) true,
      storeFlag (queue + UInt64.ofNat isInitializingOffset) false]

/-- `shawncore_rtos_*_init`. -/
def queueInitCall
    (type : QueueType α) (queue memoryBase sizeInBytes : UInt64) :
    QueueCode × List Write :=
  if queue = 0 ∨
      validDmaRegion type.slotLayout.toTypeLayout memoryBase sizeInBytes
        type.elementCount = false ∨
      objectOverlapsBacking controlObject queue memoryBase sizeInBytes =
        true then
    (.invalidMemory, [])
  else if ptrIsAligned controlObject queue = false then
    (.invalidMemory, [])
  else
    match SlotQueue.validateBacking type.layout type.slotSize
        type.slotLayout.align.toNat memoryBase.toNat sizeInBytes.toNat with
    | .error failure => (.fromIpcError failure, newWrites queue)
    | .ok () =>
        (.success, newWrites queue ++ bindWrites type queue memoryBase)

/-! ## The calls of a producer and of a consumer -/

/-- The callbacks which the host has registered. -/
structure CacheCallbacks where
  flush : Bool
  invalidate : Bool

/-- Where a `push` is, with its local variables. -/
inductive PushPc (α : Type)
  | idle
  | checkInitialized (item : α)
  | loadHead (item : α)
  | loadTail (item : α) (head : UInt64)
  | loadBuffer (item : α) (head : UInt64)
  | loadSequence (item : α) (head base : UInt64)
  | markSequence (item : α) (head base sequence : UInt64)
  | writePayload (item : α) (head base sequence : UInt64) (offset : ℕ)
  | settleSequence (item : α) (head base sequence : UInt64)
  | publishHead (item : α) (head : UInt64)
  | halted

/-- Where a `pop` or a `peek` is.  `entry` is the check of the C function
itself, and `deliver` its store through the pointer of the caller. -/
inductive ReadPc (α : Type)
  | idle
  | entry (mode : Mode) (out : UInt64)
  | checkInitialized (mode : Mode) (out : UInt64)
  | loadTail (mode : Mode) (out : UInt64)
  | loadHead (mode : Mode) (out tail : UInt64)
  | loadBuffer (mode : Mode) (out tail : UInt64)
  | firstSequence (mode : Mode) (out tail base : UInt64)
  | readPayload (mode : Mode) (out tail base first : UInt64)
      (bytes : List UInt8)
  | secondSequence (mode : Mode) (out tail base first : UInt64) (item : α)
  | wipePayload (out tail base : UInt64) (item : α) (offset : ℕ)
  | restorePayload (out tail base : UInt64) (item : α) (offset : ℕ)
  | publishTail (out tail : UInt64) (item : α)
  | deliver (mode : Mode) (out : UInt64) (item : α)
  | halted

/-- What a `push` returned, with the item it was given. -/
structure PushReturn (α : Type) where
  item : Option α
  code : QueueCode

/-- What a `pop` or a `peek` returned, with the item its caller then finds. -/
structure ReadReturn (α : Type) where
  mode : Mode
  code : QueueCode
  found : Option α

/-- The operation of the bounded queue which a call performed. -/
def PushReturn.event? (returned : PushReturn α) :
    Option (BoundedFifo.Event α) :=
  match returned.code with
  | .success => returned.item.map .pushed
  | .queueFull => some .full
  | .queueEmpty => none
  | .notInitialized => none
  | .alreadyInitialized => none
  | .invalidMemory => none

def readEvent (mode : Mode) (item : α) : BoundedFifo.Event α :=
  match mode with
  | .pop => .popped item
  | .peek => .peeked item

def ReadReturn.event? (returned : ReadReturn α) :
    Option (BoundedFifo.Event α) :=
  match returned.code with
  | .success => returned.found.map (readEvent returned.mode)
  | .queueEmpty => some .empty
  | .queueFull => none
  | .notInitialized => none
  | .alreadyInitialized => none
  | .invalidMemory => none

/-- `effects` are the operations of the calls of both sides, in the order in
which they take effect. -/
structure Shared (α : Type) where
  memory : Memory
  producer : PushPc α
  consumer : ReadPc α
  pushes : List (PushReturn α)
  reads : List (ReadReturn α)
  effects : List (BoundedFifo.Event α)

namespace Shared

def start (memory : Memory) : Shared α where
  memory := memory
  producer := .idle
  consumer := .idle
  pushes := []
  reads := []
  effects := []

def produce (shared : Shared α) (pc : PushPc α) : Shared α :=
  { shared with producer := pc }

def consume (shared : Shared α) (pc : ReadPc α) : Shared α :=
  { shared with consumer := pc }

def write (shared : Shared α) (write : Write) : Shared α :=
  { shared with memory := write.perform shared.memory }

def returnPush (shared : Shared α) (item : α) (code : QueueCode) :
    Shared α :=
  { shared with
    producer := .idle
    pushes := shared.pushes ++ [⟨some item, code⟩]
    effects := shared.effects ++
      (PushReturn.event? ⟨some item, code⟩).toList }

def returnRead (shared : Shared α) (mode : Mode) (code : QueueCode) :
    Shared α :=
  { shared with
    consumer := .idle
    reads := shared.reads ++ [⟨mode, code, none⟩]
    effects := shared.effects ++
      (ReadReturn.event? ⟨mode, code, none⟩).toList }

/-- A read takes effect; it delivers its item next. -/
def take (shared : Shared α) (mode : Mode) (out : UInt64) (item : α) :
    Shared α :=
  { shared with
    consumer := .deliver mode out item
    effects := shared.effects ++ [readEvent mode item] }

end Shared

section Calls

variable (type : QueueType α) (callbacks : CacheCallbacks) (queue : UInt64)

/-- The checks of the pointers of a `push`. -/
def pushRejects (event : UInt64) : Bool :=
  queue == 0 || event == 0 || !ptrIsAligned controlObject queue ||
    event % type.item.alignment != 0

/-- The checks of the pointers of a `pop` or a `peek`. -/
def readRejects (out : UInt64) : Bool :=
  queue == 0 || out == 0 || !ptrIsAligned controlObject queue ||
    out % type.item.alignment != 0 ||
    rangesOverlap queue controlObject.size out type.item.size

def stepPush (shared : Shared α) : Option (Shared α) :=
  match shared.producer with
  | .idle => none
  | .checkInitialized item =>
      if loadFlag shared.memory
          (queue + UInt64.ofNat isInitializedOffset) then
        some (shared.produce (.loadHead item))
      else
        some (shared.returnPush item .notInitialized)
  | .loadHead item =>
      some (shared.produce (.loadTail item
        (loadWord shared.memory (queue + UInt64.ofNat headOffset))))
  | .loadTail item head =>
      if type.capacity ≤ (head -
          loadWord shared.memory (queue + UInt64.ofNat tailOffset)).toNat then
        some (shared.returnPush item .queueFull)
      else
        some (shared.produce (.loadBuffer item head))
  | .loadBuffer item head =>
      some (shared.produce (.loadSequence item head
        (loadWord shared.memory queue)))
  | .loadSequence item head base =>
      some (shared.produce (.markSequence item head base
        (loadWord shared.memory
          (type.counterAddress base (slot type.layout.capacity head)))))
  | .markSequence item head base sequence =>
      some ((shared.write (storeWord
        (type.counterAddress base (slot type.layout.capacity head))
        (sequence + 1 ||| 1))).produce
          (.writePayload item head base sequence 0))
  | .writePayload item head base sequence offset =>
      match (type.item.encode item)[offset]? with
      | some byte =>
          some ((shared.write
            ⟨type.dataAddress base (slot type.layout.capacity head) +
              UInt64.ofNat offset, [byte]⟩).produce
                (.writePayload item head base sequence (offset + 1)))
      | none =>
          if callbacks.flush then
            some (shared.produce (.settleSequence item head base sequence))
          else
            some (shared.produce .halted)
  | .settleSequence item head base sequence =>
      some ((shared.write (storeWord
        (type.counterAddress base (slot type.layout.capacity head))
        (sequence + 2 &&& ~~~1))).produce (.publishHead item head))
  | .publishHead item head =>
      some ((shared.write (storeWord (queue + UInt64.ofNat headOffset)
        (head + 1))).returnPush item .success)
  | .halted => none

variable [Inhabited α]

def stepRead (shared : Shared α) : Option (Shared α) :=
  match shared.consumer with
  | .idle => none
  | .entry mode out =>
      if loadFlag shared.memory
          (queue + UInt64.ofNat isInitializedOffset) then
        some (shared.consume (.checkInitialized mode out))
      else
        some (shared.returnRead mode .notInitialized)
  | .checkInitialized mode out =>
      if loadFlag shared.memory
          (queue + UInt64.ofNat isInitializedOffset) then
        some (shared.consume (.loadTail mode out))
      else
        some (shared.returnRead mode .queueEmpty)
  | .loadTail mode out =>
      some (shared.consume (.loadHead mode out
        (loadWord shared.memory (queue + UInt64.ofNat tailOffset))))
  | .loadHead mode out tail =>
      if loadWord shared.memory (queue + UInt64.ofNat headOffset) = tail then
        some (shared.returnRead mode .queueEmpty)
      else
        some (shared.consume (.loadBuffer mode out tail))
  | .loadBuffer mode out tail =>
      some (shared.consume (.firstSequence mode out tail
        (loadWord shared.memory queue)))
  | .firstSequence mode out tail base =>
      let first := loadWord shared.memory
        (type.counterAddress base (slot type.layout.capacity tail))
      if first &&& 1 ≠ 0 then
        some (shared.returnRead mode .queueEmpty)
      else if callbacks.invalidate then
        some (shared.consume (.readPayload mode out tail base first []))
      else
        some (shared.consume .halted)
  | .readPayload mode out tail base first bytes =>
      if bytes.length < type.itemSize then
        some (shared.consume (.readPayload mode out tail base first
          (bytes ++ [shared.memory
            (type.dataAddress base (slot type.layout.capacity tail) +
              UInt64.ofNat bytes.length)])))
      else
        some (shared.consume (.secondSequence mode out tail base first
          (type.item.decode bytes)))
  | .secondSequence mode out tail base first item =>
      let second := loadWord shared.memory
        (type.counterAddress base (slot type.layout.capacity tail))
      if first ≠ second ∨ second &&& 1 ≠ 0 then
        some (shared.returnRead mode .queueEmpty)
      else
        match mode with
        | .pop => some (shared.consume (.wipePayload out tail base item 0))
        | .peek => some (shared.take .peek out item)
  | .wipePayload out tail base item offset =>
      if offset < type.itemSize then
        some ((shared.write
          ⟨type.dataAddress base (slot type.layout.capacity tail) +
            UInt64.ofNat offset, [0]⟩).consume
              (.wipePayload out tail base item (offset + 1)))
      else
        some (shared.consume (.restorePayload out tail base item 0))
  | .restorePayload out tail base item offset =>
      match (type.item.encode default)[offset]? with
      | some byte =>
          some ((shared.write
            ⟨type.dataAddress base (slot type.layout.capacity tail) +
              UInt64.ofNat offset, [byte]⟩).consume
                (.restorePayload out tail base item (offset + 1)))
      | none => some (shared.consume (.publishTail out tail item))
  | .publishTail out tail item =>
      some ((shared.write (storeWord (queue + UInt64.ofNat tailOffset)
        (tail + 1))).take .pop out item)
  | .deliver mode out item =>
      let delivered := shared.write (type.item.write out item)
      some { delivered with
        consumer := .idle
        reads := shared.reads ++
          [⟨mode, .success, some (type.item.load delivered.memory out)⟩] }
  | .halted => none

/-- A call of one of the two sides, a step of it, or what others write. -/
inductive QueueAction
  | push (event : UInt64)
  | read (mode : Mode) (out : UInt64)
  | producer
  | consumer
  | others (write : Write)

def queueStep (shared : Shared α) : QueueAction → Option (Shared α)
  | .push event =>
      match shared.producer with
      | .idle =>
          if pushRejects type queue event then
            some { shared with
              pushes := shared.pushes ++ [⟨none, .invalidMemory⟩] }
          else
            some (shared.produce (.checkInitialized
              (type.item.load shared.memory event)))
      | _ => none
  | .read mode out =>
      match shared.consumer with
      | .idle =>
          if readRejects type queue out then
            some (shared.returnRead mode .invalidMemory)
          else
            some (shared.consume (.entry mode out))
      | _ => none
  | .producer => stepPush type callbacks queue shared
  | .consumer => stepRead type callbacks queue shared
  | .others write => some (shared.write write)

end Calls

/-! ## The three queues of the interface -/

/-- The sizes of an instance fit each other. -/
structure QueueType.Fits
    (layout : SlotQueue.Layout) (item : Format α) (slotSize align : UInt64)
    (counterOffset : ℕ) : Prop where
  size_pos : 0 < slotSize.toNat
  align_dvd : align.toNat ∣ slotSize.toNat
  counter_le : counterOffset + 8 ≤ slotSize.toNat
  itemSize_eq : layout.itemSize = item.size.toNat
  itemSize_pos : 0 < item.size.toNat
  item_le : item.size.toNat ≤ counterOffset
  backing_lt : layout.capacity.size * slotSize.toNat < 2 ^ 64

def QueueType.ofSizes
    (layout : SlotQueue.Layout) (item : Format α) (slotSize align : UInt64)
    (counterOffset : ℕ)
    (hfits : QueueType.Fits layout item slotSize align counterOffset) :
    QueueType α where
  layout := layout
  item := item
  slotLayout :=
    { size := slotSize
      align := align
      size_pos := hfits.size_pos
      align_dvd := hfits.align_dvd
      counterOffset := counterOffset
      counter_le := hfits.counter_le }
  itemSize_eq := hfits.itemSize_eq
  itemSize_pos := hfits.itemSize_pos
  item_le := hfits.item_le
  backing_lt := hfits.backing_lt

structure TelemetryEvent where
  eventId : UInt32
  padding1 : Block 4
  timestamp : UInt64
  payload : Block 48
deriving DecidableEq, Inhabited

def telemetryEventCodec : Codec TelemetryEvent 64 :=
  (Codec.word32.pair ((Codec.block 4).pair
    (Codec.word64.pair (Codec.block 48)))).map
    (fun (eventId, padding1, timestamp, payload) =>
      { eventId, padding1, timestamp, payload })
    (fun event =>
      (event.eventId, event.padding1, event.timestamp, event.payload))
    fun _ => rfl

structure EwCommand where
  mode : UInt8
  padding : Block 7
  targetFreq : UInt64
  targetBw : UInt64
deriving DecidableEq, Inhabited

def ewCommandCodec : Codec EwCommand 24 :=
  (Codec.byte.pair ((Codec.block 7).pair
    (Codec.word64.pair Codec.word64))).map
    (fun (mode, padding, targetFreq, targetBw) =>
      { mode, padding, targetFreq, targetBw })
    (fun command =>
      (command.mode, command.padding, command.targetFreq, command.targetBw))
    fun _ => rfl

structure FftResult where
  snrDb : UInt32
  centerFreq : UInt64
  bandwidth : UInt64
  timestamp : UInt64
  padding : Block 32
deriving DecidableEq, Inhabited

/-- Four bytes without a name follow `snr_db`. -/
def fftResultCodec : Codec FftResult 64 :=
  ((Codec.word32.padded 4).pair (Codec.word64.pair
    (Codec.word64.pair (Codec.word64.pair (Codec.block 32))))).map
    (fun (snrDb, centerFreq, bandwidth, timestamp, padding) =>
      { snrDb, centerFreq, bandwidth, timestamp, padding })
    (fun result =>
      (result.snrDb, result.centerFreq, result.bandwidth, result.timestamp,
        result.padding))
    fun _ => rfl

theorem cacheLine_eq : 64 = (64 : UInt64).toNat := rfl
theorem ewCommandSize_eq : 24 = (24 : UInt64).toNat := rfl

def telemetryEventFormat : Format TelemetryEvent :=
  telemetryEventCodec.format 64 64 cacheLine_eq

def ewCommandFormat : Format EwCommand :=
  ewCommandCodec.format 24 8 ewCommandSize_eq

def fftResultFormat : Format FftResult :=
  fftResultCodec.format 64 64 cacheLine_eq

theorem telemetryQueue_fits :
    QueueType.Fits spscQueueTelemetry telemetryEventFormat 128 64 64 := by
  constructor <;> decide

theorem ewCommandQueue_fits :
    QueueType.Fits ringBufferEwCommand ewCommandFormat 64 64 24 := by
  constructor <;> decide

theorem fftQueue_fits :
    QueueType.Fits spscQueueFft fftResultFormat 128 64 64 := by
  constructor <;> decide

def telemetryQueue : QueueType TelemetryEvent :=
  .ofSizes spscQueueTelemetry telemetryEventFormat 128 64 64
    telemetryQueue_fits

def ewCommandQueue : QueueType EwCommand :=
  .ofSizes ringBufferEwCommand ewCommandFormat 64 64 24 ewCommandQueue_fits

def fftQueue : QueueType FftResult :=
  .ofSizes spscQueueFft fftResultFormat 128 64 64 fftQueue_fits

end Rtos
end ShawnCore
