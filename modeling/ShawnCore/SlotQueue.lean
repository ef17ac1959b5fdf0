import ShawnCore.BoundedFifo
import ShawnCore.Execution
import ShawnCore.RingIndex

/-!
# The slot queues as a concurrent machine

`SpscQueue` and `RingBuffer` share their `push` and `pop`; `RingBuffer` has
`peek` as well.  One step of the producer or of the consumer is one access to
shared memory with the local computation up to the next access.  A payload write
takes two steps and leaves a torn payload in between, the wipe of a payload is
one step a byte, and a read which meets a torn payload returns a torn value.
-/

namespace ShawnCore
namespace SlotQueue

open RingIndex (Capacity slot)

/-- The const parameter `N`, a power of two, with the size of an item in
bytes. -/
structure Layout where
  capacityLog : ℕ
  itemSize : ℕ
  capacityLog_lt : capacityLog < 64

def Layout.capacity (layout : Layout) : Capacity where
  size := 2 ^ layout.capacityLog
  size_pos := Nat.two_pow_pos _
  size_lt := Nat.pow_lt_pow_right (by omega) layout.capacityLog_lt
  size_dvd := Nat.pow_dvd_pow 2 layout.capacityLog_lt.le

/-- The payload of a slot, as far as its bytes are a value. -/
inductive Payload (α : Type)
  | value (item : α)
  | torn

/-- `CacheAlignedSlot`. -/
structure Slot (α : Type) where
  data : Payload α
  sequenceCounter : UInt64

/-- The program counter of the producer, with its local variables. -/
inductive ProducerPc (α : Type)
  | idle
  | pushCheck (item : α)
  | pushHead (item : α)
  | pushTail (item : α) (head : UInt64)
  | pushBuffer (item : α) (head : UInt64)
  | pushSequence (item : α) (head : UInt64) (base : ℕ)
  | pushMark (item : α) (head : UInt64) (base : ℕ) (sequence : UInt64)
  | pushWrite (item : α) (head : UInt64) (base : ℕ) (sequence : UInt64)
  | pushWriting (item : α) (head : UInt64) (base : ℕ) (sequence : UInt64)
  | pushSettle (item : α) (head : UInt64) (base : ℕ) (sequence : UInt64)
  | pushPublish (item : α) (head : UInt64)

/-- Whether the consumer is in `pop` or in `peek`. -/
inductive Mode
  | pop
  | peek
deriving DecidableEq

inductive ConsumerPc (α : Type)
  | idle
  | readCheck (mode : Mode)
  | readTail (mode : Mode)
  | readHead (mode : Mode) (tail : UInt64)
  | readBuffer (mode : Mode) (tail : UInt64)
  | readFirst (mode : Mode) (tail : UInt64) (base : ℕ)
  | readData (mode : Mode) (tail : UInt64) (base : ℕ) (first : UInt64)
  | readSecond (mode : Mode) (tail : UInt64) (base : ℕ) (first : UInt64)
      (item : Payload α)
  | popWipe (tail : UInt64) (base : ℕ) (item : Payload α) (index : ℕ)
  | popRestore (tail : UInt64) (base : ℕ) (item : Payload α)
  | popRestoring (tail : UInt64) (base : ℕ) (item : Payload α)
  | popPublish (tail : UInt64) (item : Payload α)

/-- What a call returned.  `queue` is an operation of the queue: `Ok`,
`QueueFull`, an intact item, or `None` because the indices were equal. -/
inductive Outcome (α : Type)
  | queue (event : BoundedFifo.Event α)
  | notInitialized
  | unstable (mode : Mode)
  | torn (mode : Mode)
deriving DecidableEq

/-- `slots base index` is the slot with this index in the backing buffer at
this address; the transcript is ghost state. -/
structure Queue (α : Type) where
  buffer : ℕ
  head : UInt64
  tail : UInt64
  isInitialized : Bool
  slots : ℕ → ℕ → Slot α
  producer : ProducerPc α
  consumer : ConsumerPc α
  transcript : List (Outcome α)

namespace Queue

variable {α : Type}

@[simps] def produce (queue : Queue α) (pc : ProducerPc α) : Queue α :=
  { queue with producer := pc }

@[simps] def consume (queue : Queue α) (pc : ConsumerPc α) : Queue α :=
  { queue with consumer := pc }

@[simps] def emit (queue : Queue α) (outcome : Outcome α) : Queue α :=
  { queue with transcript := queue.transcript ++ [outcome] }

@[simps] def storeSlot
    (queue : Queue α) (base index : ℕ) (content : Slot α) : Queue α :=
  { queue with
    slots := Function.update queue.slots base
      (Function.update (queue.slots base) index content) }

@[simps! buffer head tail isInitialized producer consumer transcript]
def storeData
    (queue : Queue α) (base index : ℕ) (data : Payload α) : Queue α :=
  queue.storeSlot base index { queue.slots base index with data := data }

@[simps! buffer head tail isInitialized producer consumer transcript]
def storeSequence
    (queue : Queue α) (base index : ℕ) (sequence : UInt64) : Queue α :=
  queue.storeSlot base index
    { queue.slots base index with sequenceCounter := sequence }

theorem storeData_slots_of_ne
    (queue : Queue α) {base index other : ℕ} (data : Payload α)
    (hother : other ≠ index) :
    (queue.storeData base index data).slots base other =
      queue.slots base other := by
  simp [storeData, Function.update_of_ne hother]

@[simp] theorem storeData_slots_data
    (queue : Queue α) (base index : ℕ) (data : Payload α) :
    ((queue.storeData base index data).slots base index).data = data := by
  simp [storeData]

@[simp] theorem storeData_slots_sequenceCounter
    (queue : Queue α) (base index other : ℕ) (data : Payload α) :
    ((queue.storeData base index data).slots base other).sequenceCounter =
      (queue.slots base other).sequenceCounter := by
  by_cases hother : other = index
  · subst hother
    simp [storeData]
  · rw [storeData_slots_of_ne queue data hother]

theorem storeSequence_slots_of_ne
    (queue : Queue α) {base index other : ℕ} (sequence : UInt64)
    (hother : other ≠ index) :
    (queue.storeSequence base index sequence).slots base other =
      queue.slots base other := by
  simp [storeSequence, Function.update_of_ne hother]

@[simp] theorem storeSequence_slots_sequenceCounter
    (queue : Queue α) (base index : ℕ) (sequence : UInt64) :
    ((queue.storeSequence base index sequence).slots base
      index).sequenceCounter = sequence := by
  simp [storeSequence]

@[simp] theorem storeSequence_slots_data
    (queue : Queue α) (base index other : ℕ) (sequence : UInt64) :
    ((queue.storeSequence base index sequence).slots base other).data =
      (queue.slots base other).data := by
  by_cases hother : other = index
  · subst hother
    simp [storeSequence]
  · rw [storeSequence_slots_of_ne queue sequence hother]

end Queue

variable {α : Type} [Inhabited α] (layout : Layout)

/-! ## `push` -/

def stepProducer (queue : Queue α) : Option (Queue α) :=
  match queue.producer with
  | .idle => none
  | .pushCheck item =>
      if queue.isInitialized then
        some (queue.produce (.pushHead item))
      else
        some ((queue.produce .idle).emit .notInitialized)
  | .pushHead item => some (queue.produce (.pushTail item queue.head))
  | .pushTail item head =>
      if layout.capacity.size ≤ (head - queue.tail).toNat then
        some ((queue.produce .idle).emit (.queue .full))
      else
        some (queue.produce (.pushBuffer item head))
  | .pushBuffer item head =>
      some (queue.produce (.pushSequence item head queue.buffer))
  | .pushSequence item head base =>
      some (queue.produce (.pushMark item head base
        (queue.slots base (slot layout.capacity head)).sequenceCounter))
  | .pushMark item head base sequence =>
      some ((queue.storeSequence base (slot layout.capacity head)
        (sequence + 1 ||| 1)).produce (.pushWrite item head base sequence))
  | .pushWrite item head base sequence =>
      some ((queue.storeData base (slot layout.capacity head) .torn).produce
        (.pushWriting item head base sequence))
  | .pushWriting item head base sequence =>
      some ((queue.storeData base (slot layout.capacity head)
        (.value item)).produce (.pushSettle item head base sequence))
  | .pushSettle item head base sequence =>
      some ((queue.storeSequence base (slot layout.capacity head)
        (sequence + 2 &&& ~~~1)).produce (.pushPublish item head))
  | .pushPublish item head =>
      some (({ queue with head := head + 1 }.produce .idle).emit
        (.queue (.pushed item)))

/-! ## `pop` and `peek` -/

/-- The outcome of a call which read this payload. -/
def readOutcome (mode : Mode) : Payload α → Outcome α
  | .torn => .torn mode
  | .value item =>
      match mode with
      | .pop => .queue (.popped item)
      | .peek => .queue (.peeked item)

def stepConsumer (queue : Queue α) : Option (Queue α) :=
  match queue.consumer with
  | .idle => none
  | .readCheck mode =>
      if queue.isInitialized then
        some (queue.consume (.readTail mode))
      else
        some ((queue.consume .idle).emit .notInitialized)
  | .readTail mode => some (queue.consume (.readHead mode queue.tail))
  | .readHead mode tail =>
      if queue.head = tail then
        some ((queue.consume .idle).emit (.queue .empty))
      else
        some (queue.consume (.readBuffer mode tail))
  | .readBuffer mode tail =>
      some (queue.consume (.readFirst mode tail queue.buffer))
  | .readFirst mode tail base =>
      let first := (queue.slots base (slot layout.capacity tail)).sequenceCounter
      if first &&& 1 ≠ 0 then
        some ((queue.consume .idle).emit (.unstable mode))
      else
        some (queue.consume (.readData mode tail base first))
  | .readData mode tail base first =>
      some (queue.consume (.readSecond mode tail base first
        (queue.slots base (slot layout.capacity tail)).data))
  | .readSecond mode tail base first item =>
      let second :=
        (queue.slots base (slot layout.capacity tail)).sequenceCounter
      if first ≠ second ∨ second &&& 1 ≠ 0 then
        some ((queue.consume .idle).emit (.unstable mode))
      else
        match mode with
        | .pop => some (queue.consume (.popWipe tail base item 0))
        | .peek => some ((queue.consume .idle).emit (readOutcome .peek item))
  | .popWipe tail base item index =>
      if index < layout.itemSize then
        some ((queue.storeData base (slot layout.capacity tail) .torn).consume
          (.popWipe tail base item (index + 1)))
      else
        some (queue.consume (.popRestore tail base item))
  | .popRestore tail base item =>
      some ((queue.storeData base (slot layout.capacity tail) .torn).consume
        (.popRestoring tail base item))
  | .popRestoring tail base item =>
      some ((queue.storeData base (slot layout.capacity tail)
        (.value default)).consume (.popPublish tail item))
  | .popPublish tail item =>
      some (({ queue with tail := tail + 1 }.consume .idle).emit
        (readOutcome .pop item))

/-! ## What a step can do -/

/-- Every step of the producer. -/
inductive ProducerStep (queue : Queue α) : ProducerPc α → Queue α → Prop
  | refused (item : α) (hclear : queue.isInitialized = false) :
      ProducerStep queue (.pushCheck item)
        ((queue.produce .idle).emit .notInitialized)
  | checked (item : α) (hset : queue.isInitialized = true) :
      ProducerStep queue (.pushCheck item) (queue.produce (.pushHead item))
  | headRead (item : α) :
      ProducerStep queue (.pushHead item)
        (queue.produce (.pushTail item queue.head))
  | full (item : α) (head : UInt64)
      (hfull : layout.capacity.size ≤ (head - queue.tail).toNat) :
      ProducerStep queue (.pushTail item head)
        ((queue.produce .idle).emit (.queue .full))
  | tailRead (item : α) (head : UInt64)
      (hroom : (head - queue.tail).toNat < layout.capacity.size) :
      ProducerStep queue (.pushTail item head)
        (queue.produce (.pushBuffer item head))
  | bufferRead (item : α) (head : UInt64) :
      ProducerStep queue (.pushBuffer item head)
        (queue.produce (.pushSequence item head queue.buffer))
  | sequenceRead (item : α) (head : UInt64) (base : ℕ) :
      ProducerStep queue (.pushSequence item head base)
        (queue.produce (.pushMark item head base
          (queue.slots base (slot layout.capacity head)).sequenceCounter))
  | marked (item : α) (head : UInt64) (base : ℕ) (sequence : UInt64) :
      ProducerStep queue (.pushMark item head base sequence)
        ((queue.storeSequence base (slot layout.capacity head)
          (sequence + 1 ||| 1)).produce (.pushWrite item head base sequence))
  | begun (item : α) (head : UInt64) (base : ℕ) (sequence : UInt64) :
      ProducerStep queue (.pushWrite item head base sequence)
        ((queue.storeData base (slot layout.capacity head) .torn).produce
          (.pushWriting item head base sequence))
  | written (item : α) (head : UInt64) (base : ℕ) (sequence : UInt64) :
      ProducerStep queue (.pushWriting item head base sequence)
        ((queue.storeData base (slot layout.capacity head)
          (.value item)).produce (.pushSettle item head base sequence))
  | settled (item : α) (head : UInt64) (base : ℕ) (sequence : UInt64) :
      ProducerStep queue (.pushSettle item head base sequence)
        ((queue.storeSequence base (slot layout.capacity head)
          (sequence + 2 &&& ~~~1)).produce (.pushPublish item head))
  | published (item : α) (head : UInt64) :
      ProducerStep queue (.pushPublish item head)
        (({ queue with head := head + 1 }.produce .idle).emit
          (.queue (.pushed item)))

/-- Every step of the consumer. -/
inductive ConsumerStep (queue : Queue α) : ConsumerPc α → Queue α → Prop
  | refused (mode : Mode) (hclear : queue.isInitialized = false) :
      ConsumerStep queue (.readCheck mode)
        ((queue.consume .idle).emit .notInitialized)
  | checked (mode : Mode) (hset : queue.isInitialized = true) :
      ConsumerStep queue (.readCheck mode) (queue.consume (.readTail mode))
  | tailRead (mode : Mode) :
      ConsumerStep queue (.readTail mode)
        (queue.consume (.readHead mode queue.tail))
  | empty (mode : Mode) (tail : UInt64) (hempty : queue.head = tail) :
      ConsumerStep queue (.readHead mode tail)
        ((queue.consume .idle).emit (.queue .empty))
  | headRead (mode : Mode) (tail : UInt64) (hitem : queue.head ≠ tail) :
      ConsumerStep queue (.readHead mode tail)
        (queue.consume (.readBuffer mode tail))
  | bufferRead (mode : Mode) (tail : UInt64) :
      ConsumerStep queue (.readBuffer mode tail)
        (queue.consume (.readFirst mode tail queue.buffer))
  | marked (mode : Mode) (tail : UInt64) (base : ℕ)
      (hodd : (queue.slots base (slot layout.capacity tail)).sequenceCounter
        &&& 1 ≠ 0) :
      ConsumerStep queue (.readFirst mode tail base)
        ((queue.consume .idle).emit (.unstable mode))
  | firstRead (mode : Mode) (tail : UInt64) (base : ℕ) :
      ConsumerStep queue (.readFirst mode tail base)
        (queue.consume (.readData mode tail base
          (queue.slots base (slot layout.capacity tail)).sequenceCounter))
  | dataRead (mode : Mode) (tail : UInt64) (base : ℕ) (first : UInt64) :
      ConsumerStep queue (.readData mode tail base first)
        (queue.consume (.readSecond mode tail base first
          (queue.slots base (slot layout.capacity tail)).data))
  | changed (mode : Mode) (tail : UInt64) (base : ℕ) (first : UInt64)
      (item : Payload α)
      (hchanged : first ≠
          (queue.slots base (slot layout.capacity tail)).sequenceCounter ∨
        (queue.slots base (slot layout.capacity tail)).sequenceCounter
          &&& 1 ≠ 0) :
      ConsumerStep queue (.readSecond mode tail base first item)
        ((queue.consume .idle).emit (.unstable mode))
  | taken (tail : UInt64) (base : ℕ) (first : UInt64) (item : Payload α) :
      ConsumerStep queue (.readSecond .pop tail base first item)
        (queue.consume (.popWipe tail base item 0))
  | peeked (tail : UInt64) (base : ℕ) (first : UInt64) (item : Payload α) :
      ConsumerStep queue (.readSecond .peek tail base first item)
        ((queue.consume .idle).emit (readOutcome .peek item))
  | byteWiped (tail : UInt64) (base : ℕ) (item : Payload α) (index : ℕ)
      (hindex : index < layout.itemSize) :
      ConsumerStep queue (.popWipe tail base item index)
        ((queue.storeData base (slot layout.capacity tail) .torn).consume
          (.popWipe tail base item (index + 1)))
  | wiped (tail : UInt64) (base : ℕ) (item : Payload α) (index : ℕ)
      (hindex : ¬ index < layout.itemSize) :
      ConsumerStep queue (.popWipe tail base item index)
        (queue.consume (.popRestore tail base item))
  | restoring (tail : UInt64) (base : ℕ) (item : Payload α) :
      ConsumerStep queue (.popRestore tail base item)
        ((queue.storeData base (slot layout.capacity tail) .torn).consume
          (.popRestoring tail base item))
  | restored (tail : UInt64) (base : ℕ) (item : Payload α) :
      ConsumerStep queue (.popRestoring tail base item)
        ((queue.storeData base (slot layout.capacity tail)
          (.value default)).consume (.popPublish tail item))
  | published (tail : UInt64) (item : Payload α) :
      ConsumerStep queue (.popPublish tail item)
        (({ queue with tail := tail + 1 }.consume .idle).emit
          (readOutcome .pop item))

section Inversions

variable {layout : Layout} {queue next : Queue α}

omit [Inhabited α] in
theorem stepProducer_producerStep
    (hstep : stepProducer layout queue = some next) :
    ProducerStep layout queue queue.producer next := by
  unfold stepProducer at hstep
  generalize queue.producer = pc at hstep ⊢
  cases pc with
  | idle => cases hstep
  | pushCheck item =>
      simp only at hstep
      split_ifs at hstep with hset
      · cases hstep
        exact .checked item hset
      · cases hstep
        exact .refused item (Bool.eq_false_of_not_eq_true hset)
  | pushHead item =>
      cases hstep
      exact .headRead item
  | pushTail item head =>
      simp only at hstep
      split_ifs at hstep with hfull
      · cases hstep
        exact .full item head hfull
      · cases hstep
        exact .tailRead item head (Nat.lt_of_not_le hfull)
  | pushBuffer item head =>
      cases hstep
      exact .bufferRead item head
  | pushSequence item head base =>
      cases hstep
      exact .sequenceRead item head base
  | pushMark item head base sequence =>
      cases hstep
      exact .marked item head base sequence
  | pushWrite item head base sequence =>
      cases hstep
      exact .begun item head base sequence
  | pushWriting item head base sequence =>
      cases hstep
      exact .written item head base sequence
  | pushSettle item head base sequence =>
      cases hstep
      exact .settled item head base sequence
  | pushPublish item head =>
      cases hstep
      exact .published item head

theorem stepConsumer_consumerStep
    (hstep : stepConsumer layout queue = some next) :
    ConsumerStep layout queue queue.consumer next := by
  unfold stepConsumer at hstep
  generalize queue.consumer = pc at hstep ⊢
  cases pc with
  | idle => cases hstep
  | readCheck mode =>
      simp only at hstep
      split_ifs at hstep with hset
      · cases hstep
        exact .checked mode hset
      · cases hstep
        exact .refused mode (Bool.eq_false_of_not_eq_true hset)
  | readTail mode =>
      cases hstep
      exact .tailRead mode
  | readHead mode tail =>
      simp only at hstep
      split_ifs at hstep with hempty
      · cases hstep
        exact .empty mode tail hempty
      · cases hstep
        exact .headRead mode tail hempty
  | readBuffer mode tail =>
      cases hstep
      exact .bufferRead mode tail
  | readFirst mode tail base =>
      simp only at hstep
      split_ifs at hstep with hodd
      · cases hstep
        exact .marked mode tail base hodd
      · cases hstep
        exact .firstRead mode tail base
  | readData mode tail base first =>
      cases hstep
      exact .dataRead mode tail base first
  | readSecond mode tail base first item =>
      simp only at hstep
      split_ifs at hstep with hchanged
      · cases hstep
        exact .changed mode tail base first item hchanged
      · cases mode with
        | pop =>
            cases hstep
            exact .taken tail base first item
        | peek =>
            cases hstep
            exact .peeked tail base first item
  | popWipe tail base item index =>
      simp only at hstep
      split_ifs at hstep with hindex
      · cases hstep
        exact .byteWiped tail base item index hindex
      · cases hstep
        exact .wiped tail base item index hindex
  | popRestore tail base item =>
      cases hstep
      exact .restoring tail base item
  | popRestoring tail base item =>
      cases hstep
      exact .restored tail base item
  | popPublish tail item =>
      cases hstep
      exact .published tail item

end Inversions

/-! ## Runs -/

inductive Action (α : Type)
  | push (item : α)
  | read (mode : Mode)
  | producer
  | consumer

def step (queue : Queue α) : Action α → Option (Queue α)
  | .push item =>
      match queue.producer with
      | .idle => some (queue.produce (.pushCheck item))
      | _ => none
  | .read mode =>
      match queue.consumer with
      | .idle => some (queue.consume (.readCheck mode))
      | _ => none
  | .producer => stepProducer layout queue
  | .consumer => stepConsumer layout queue

end SlotQueue
end ShawnCore
