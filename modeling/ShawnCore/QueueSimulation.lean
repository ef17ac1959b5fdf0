import ShawnCore.QueueCells

/-!
# The queues in memory simulate the slot queues

Every access to memory is a step of the slot queue, or it copies another byte of
a payload which has no value there.  The two sides never access one payload at
the same time, so that what one of them has copied so far is not disturbed.
The operations take effect in the order of the outcomes of the slot queue, and
the calls return them, except that an item may not have been delivered yet.
-/

namespace ShawnCore
namespace Rtos

open ByteMemory
open RingIndex (slot slot_lt)
open SlotQueue (ConsumerPc Mode Outcome Payload ProducerPc Queue Refined)

variable {α : Type} {type : QueueType α}

/-! ## What the host sees -/

/-- The operations of the calls whose pointers passed the checks. -/
def Shared.pushEvents (shared : Shared α) :
    List (Option (BoundedFifo.Event α)) :=
  (shared.pushes.filter (·.code ≠ .invalidMemory)).map PushReturn.event?

def Shared.readEvents (shared : Shared α) :
    List (Option (BoundedFifo.Event α)) :=
  (shared.reads.filter (·.code ≠ .invalidMemory)).map ReadReturn.event?

/-- The operation which has been performed but not returned. -/
def ReadPc.pending : ReadPc α → List (BoundedFifo.Event α)
  | .deliver mode _ item => [readEvent mode item]
  | .idle => []
  | .entry .. => []
  | .checkInitialized .. => []
  | .loadTail .. => []
  | .loadHead .. => []
  | .loadBuffer .. => []
  | .firstSequence .. => []
  | .readPayload .. => []
  | .secondSequence .. => []
  | .wipePayload .. => []
  | .restorePayload .. => []
  | .publishTail .. => []
  | .halted => []

def onProducerSide : BoundedFifo.Event α → Bool
  | .pushed _ => true
  | .full => true
  | .popped _ => false
  | .peeked _ => false
  | .empty => false

/-- The calls have returned the operations which took effect, in the order of
each side; a read which delivers its item next has yet to return the last. -/
structure Shared.Recorded (shared : Shared α) : Prop where
  pushes : shared.pushEvents =
    (shared.effects.filter onProducerSide).map some
  reads : shared.readEvents ++ shared.consumer.pending.map some =
    (shared.effects.filter (!onProducerSide ·)).map some

namespace Shared.Recorded

variable {shared : Shared α} {mode : Mode}

theorem returnPush
    {item : α} {code : QueueCode} {event : BoundedFifo.Event α}
    (hrecorded : shared.Recorded)
    (hevent : PushReturn.event? ⟨some item, code⟩ = some event)
    (hside : onProducerSide event = true) :
    (shared.returnPush item code).Recorded := by
  have hcode : code ≠ .invalidMemory := by
    rintro rfl
    cases hevent
  constructor
  · have hpushes := hrecorded.pushes
    simp_all [Shared.returnPush, pushEvents]
  · have hreads := hrecorded.reads
    simp_all [Shared.returnPush, readEvents]

theorem consume
    {pc : ReadPc α} (hrecorded : shared.Recorded)
    (hpending : pc.pending = shared.consumer.pending) :
    (shared.consume pc).Recorded := by
  have hreads := hrecorded.reads
  rw [← hpending] at hreads
  exact ⟨hrecorded.pushes, hreads⟩

theorem returnRead
    {code : QueueCode} (hrecorded : shared.Recorded)
    (hpending : shared.consumer.pending = [])
    (hcode : code = .queueEmpty ∨ code = .invalidMemory) :
    (shared.returnRead mode code).Recorded := by
  have hpushes := hrecorded.pushes
  have hreads := hrecorded.reads
  rcases hcode with rfl | rfl <;> constructor <;>
    simp_all [Shared.returnRead, pushEvents, readEvents, ReadReturn.event?,
      ReadPc.pending, onProducerSide]

theorem take
    {out : UInt64} {item : α} (hrecorded : shared.Recorded)
    (hpending : shared.consumer.pending = []) :
    (shared.take mode out item).Recorded := by
  have hside : onProducerSide (readEvent mode item) = false := by
    cases mode <;> rfl
  have hpushes := hrecorded.pushes
  have hreads := hrecorded.reads
  constructor <;>
    simp_all [Shared.take, pushEvents, readEvents, ReadPc.pending]

theorem deliver
    {out : UInt64} {item : α} (hrecorded : shared.Recorded)
    (hpc : shared.consumer = .deliver mode out item) :
    Recorded { shared with
      consumer := .idle
      reads := shared.reads ++ [⟨mode, .success, some item⟩] } := by
  refine ⟨hrecorded.pushes, ?_⟩
  have hreads := hrecorded.reads
  simp_all [readEvents, ReadReturn.event?, ReadPc.pending]

end Shared.Recorded

/-! ## Related states -/

def slotIndex (type : QueueType α) (position : UInt64) : Fin type.capacity :=
  ⟨slot type.layout.capacity position, slot_lt _ position⟩

/-- So many bytes have been copied into the payload of a slot, which has no
value from the first of them on. -/
structure Copied
    (placement : Placement type) (memory : Memory) (queue : Queue α)
    (index : Fin type.capacity) (source : List UInt8) (offset : ℕ) : Prop where
  offset_le : offset ≤ source.length
  bytes : (placement.payload memory index).take offset = source.take offset
  torn : 0 < offset →
    (queue.slots placement.base.toNat index).data = .torn

def PushRelated
    (placement : Placement type) (memory : Memory) (queue : Queue α) :
    PushPc α → Prop
  | .idle => queue.producer = .idle
  | .checkInitialized item => queue.producer = .pushCheck item
  | .loadHead item => queue.producer = .pushHead item
  | .loadTail item head => queue.producer = .pushTail item head
  | .loadBuffer item head => queue.producer = .pushBuffer item head
  | .loadSequence item head base =>
      base = placement.base ∧
        queue.producer = .pushSequence item head placement.base.toNat
  | .markSequence item head base sequence =>
      base = placement.base ∧
        queue.producer = .pushMark item head placement.base.toNat sequence
  | .writePayload item head base sequence offset =>
      base = placement.base ∧
        Copied placement memory queue (slotIndex type head)
          (type.item.encode item) offset ∧
        queue.producer =
          if offset = 0 then
            .pushWrite item head placement.base.toNat sequence
          else
            .pushWriting item head placement.base.toNat sequence
  | .settleSequence item head base sequence =>
      base = placement.base ∧
        queue.producer = .pushSettle item head placement.base.toNat sequence
  | .publishHead item head => queue.producer = .pushPublish item head
  | .halted => True

/-- What was read is the value of the payload, if it has one. -/
def ReadAs (payload : Payload α) (item : α) : Prop :=
  ∀ value, payload = .value value → item = value

def ReadRelated
    [Inhabited α] (placement : Placement type) (memory : Memory)
    (queue : Queue α) : ReadPc α → Prop
  | .idle => queue.consumer = .idle
  | .entry _ _ => queue.consumer = .idle
  | .checkInitialized mode _ => queue.consumer = .readCheck mode
  | .loadTail mode _ => queue.consumer = .readTail mode
  | .loadHead mode _ tail => queue.consumer = .readHead mode tail
  | .loadBuffer mode _ tail => queue.consumer = .readBuffer mode tail
  | .firstSequence mode _ tail base =>
      base = placement.base ∧
        queue.consumer = .readFirst mode tail placement.base.toNat
  | .readPayload mode _ tail base first bytes =>
      base = placement.base ∧
        bytes = (placement.payload memory (slotIndex type tail)).take
          bytes.length ∧
        queue.consumer = .readData mode tail placement.base.toNat first
  | .secondSequence mode _ tail base first item =>
      base = placement.base ∧ ∃ payload, ReadAs payload item ∧
        queue.consumer =
          .readSecond mode tail placement.base.toNat first payload
  | .wipePayload _ tail base item offset =>
      base = placement.base ∧ ∃ payload, ReadAs payload item ∧
        queue.consumer = .popWipe tail placement.base.toNat payload offset
  | .restorePayload _ tail base item offset =>
      base = placement.base ∧
        Copied placement memory queue (slotIndex type tail)
          (type.item.encode default) offset ∧
        ∃ payload, ReadAs payload item ∧
          queue.consumer =
            if offset = 0 then .popRestore tail placement.base.toNat payload
            else .popRestoring tail placement.base.toNat payload
  | .publishTail _ tail item =>
      ∃ payload, ReadAs payload item ∧
        queue.consumer = .popPublish tail payload
  | .deliver _ _ _ => queue.consumer = .idle
  | .halted => True

/-- The pointer of a caller to the place for its item. -/
def ReadPc.out? : ReadPc α → Option UInt64
  | .idle => none
  | .entry _ out => some out
  | .checkInitialized _ out => some out
  | .loadTail _ out => some out
  | .loadHead _ out _ => some out
  | .loadBuffer _ out _ => some out
  | .firstSequence _ out _ _ => some out
  | .readPayload _ out _ _ _ _ => some out
  | .secondSequence _ out _ _ _ _ => some out
  | .wipePayload out _ _ _ _ => some out
  | .restorePayload out _ _ _ _ => some out
  | .publishTail out _ _ => some out
  | .deliver _ out _ => some out
  | .halted => none

structure Simulates
    [Inhabited α] (placement : Placement type) (shared : Shared α)
    (queue : Queue α) : Prop where
  holds : Holds placement shared.memory queue
  refined : Refined type.layout placement.base.toNat queue
  producer : PushRelated placement shared.memory queue shared.producer
  consumer : ReadRelated placement shared.memory queue shared.consumer
  out : ∀ out, shared.consumer.out? = some out →
    Outside placement out type.itemSize
  transcript : queue.transcript = shared.effects.map .queue
  recorded : shared.Recorded

/-! ## What one side leaves alone -/

/-- The payload of this slot is as it was. -/
structure SamePayload
    (placement : Placement type) (memory memory' : Memory)
    (queue queue' : Queue α) (index : Fin type.capacity) : Prop where
  bytes : placement.payload memory' index = placement.payload memory index
  data : (queue'.slots placement.base.toNat index).data =
    (queue.slots placement.base.toNat index).data

theorem Copied.frame
    {placement : Placement type} {memory memory' : Memory}
    {queue queue' : Queue α} {index : Fin type.capacity}
    {source : List UInt8} {offset : ℕ}
    (hcopied : Copied placement memory queue index source offset)
    (hsame : SamePayload placement memory memory' queue queue' index) :
    Copied placement memory' queue' index source offset := by
  refine ⟨hcopied.offset_le, ?_, ?_⟩
  · rw [hsame.bytes]
    exact hcopied.bytes
  · intro hoffset
    rw [hsame.data]
    exact hcopied.torn hoffset

theorem PushRelated.frame
    {placement : Placement type} {memory memory' : Memory}
    {queue queue' : Queue α} {pc : PushPc α}
    (hrelated : PushRelated placement memory queue pc)
    (hproducer : queue'.producer = queue.producer)
    (hsame : ∀ index : Fin type.capacity,
      queue.producer.access? type.layout =
        some (placement.base.toNat, index.val) →
      SamePayload placement memory memory' queue queue' index) :
    PushRelated placement memory' queue' pc := by
  cases pc with
  | writePayload item head base sequence offset =>
      obtain ⟨hbase, hcopied, hpc⟩ := hrelated
      refine ⟨hbase, hcopied.frame (hsame _ ?_), hproducer.trans hpc⟩
      rw [hpc]
      split <;> rfl
  | loadSequence item head base =>
      exact ⟨hrelated.1, hproducer.trans hrelated.2⟩
  | markSequence item head base sequence =>
      exact ⟨hrelated.1, hproducer.trans hrelated.2⟩
  | settleSequence item head base sequence =>
      exact ⟨hrelated.1, hproducer.trans hrelated.2⟩
  | idle => exact hproducer.trans hrelated
  | checkInitialized item => exact hproducer.trans hrelated
  | loadHead item => exact hproducer.trans hrelated
  | loadTail item head => exact hproducer.trans hrelated
  | loadBuffer item head => exact hproducer.trans hrelated
  | publishHead item head => exact hproducer.trans hrelated
  | halted => trivial

theorem ReadRelated.frame
    [Inhabited α] {placement : Placement type} {memory memory' : Memory}
    {queue queue' : Queue α} {pc : ReadPc α}
    (hrelated : ReadRelated placement memory queue pc)
    (hconsumer : queue'.consumer = queue.consumer)
    (hsame : ∀ index : Fin type.capacity,
      queue.consumer.access? type.layout =
        some (placement.base.toNat, index.val) →
      SamePayload placement memory memory' queue queue' index) :
    ReadRelated placement memory' queue' pc := by
  cases pc with
  | readPayload mode out tail base first bytes =>
      obtain ⟨hbase, hbytes, hpc⟩ := hrelated
      refine ⟨hbase, ?_, hconsumer.trans hpc⟩
      rw [(hsame (slotIndex type tail) (by rw [hpc]; rfl)).bytes]
      exact hbytes
  | restorePayload out tail base item offset =>
      obtain ⟨hbase, hcopied, payload, hitem, hpc⟩ := hrelated
      refine ⟨hbase, hcopied.frame (hsame _ ?_), payload, hitem,
        hconsumer.trans hpc⟩
      rw [hpc]
      split <;> rfl
  | firstSequence mode out tail base =>
      exact ⟨hrelated.1, hconsumer.trans hrelated.2⟩
  | secondSequence mode out tail base first item =>
      obtain ⟨hbase, payload, hitem, hpc⟩ := hrelated
      exact ⟨hbase, payload, hitem, hconsumer.trans hpc⟩
  | wipePayload out tail base item offset =>
      obtain ⟨hbase, payload, hitem, hpc⟩ := hrelated
      exact ⟨hbase, payload, hitem, hconsumer.trans hpc⟩
  | publishTail out tail item =>
      obtain ⟨payload, hitem, hpc⟩ := hrelated
      exact ⟨payload, hitem, hconsumer.trans hpc⟩
  | idle => exact hconsumer.trans hrelated
  | entry mode out => exact hconsumer.trans hrelated
  | checkInitialized mode out => exact hconsumer.trans hrelated
  | loadTail mode out => exact hconsumer.trans hrelated
  | loadHead mode out tail => exact hconsumer.trans hrelated
  | loadBuffer mode out tail => exact hconsumer.trans hrelated
  | deliver mode out item => exact hconsumer.trans hrelated
  | halted => trivial

/-! ## Steps of the producer -/

section Steps

variable [Inhabited α] {placement : Placement type} {shared next : Shared α}
  {queue queue' : Queue α} {callbacks : CacheCallbacks}

theorem Simulates.isInitialized (hsim : Simulates placement shared queue) :
    queue.isInitialized = true := by
  obtain ⟨history, items, href⟩ := hsim.refined
  exact href.initialized

theorem Simulates.buffer_eq (hsim : Simulates placement shared queue) :
    queue.buffer = placement.base.toNat := by
  obtain ⟨history, items, href⟩ := hsim.refined
  exact href.buffer_eq

/-- The two sides access different payloads. -/
theorem Simulates.access_ne
    {first second : Fin type.capacity}
    (hsim : Simulates placement shared queue)
    (hproducer : queue.producer.access? type.layout =
      some (placement.base.toNat, first.val))
    (hconsumer : queue.consumer.access? type.layout =
      some (placement.base.toNat, second.val)) :
    second ≠ first := by
  obtain ⟨history, items, href⟩ := hsim.refined
  rintro rfl
  exact href.access_ne hproducer hconsumer

/-- The producer moves, and the payload which the consumer accesses stays. -/
theorem Simulates.produce
    {memory : Memory} {pc : PushPc α} {pushes : List (PushReturn α)}
    {effects : List (BoundedFifo.Event α)}
    (hsim : Simulates placement shared queue)
    (hrefined : Refined type.layout placement.base.toNat queue')
    (hholds : Holds placement memory queue')
    (hrelated : PushRelated placement memory queue' pc)
    (hconsumer : queue'.consumer = queue.consumer)
    (hsame : ∀ index : Fin type.capacity,
      queue.consumer.access? type.layout =
        some (placement.base.toNat, index.val) →
      SamePayload placement shared.memory memory queue queue' index)
    (htranscript : queue'.transcript = effects.map .queue)
    (hrecorded : Shared.Recorded
      { shared with pushes := pushes, effects := effects }) :
    Simulates placement
      { shared with
        memory := memory, producer := pc, pushes := pushes,
        effects := effects } queue' := by
  constructor
  · exact hholds
  · exact hrefined
  · exact hrelated
  · exact hsim.consumer.frame hconsumer hsame
  · exact hsim.out
  · exact htranscript
  · exact ⟨hrecorded.pushes, hrecorded.reads⟩

theorem Simulates.refined_of_stepProducer
    (hsim : Simulates placement shared queue)
    (hstep : SlotQueue.stepProducer type.layout queue = some queue') :
    Refined type.layout placement.base.toNat queue' := by
  obtain ⟨history, items, href⟩ := hsim.refined
  exact SlotQueue.stepProducer_refined href hstep

/-- The producer moves without a store. -/
theorem Simulates.producer_moves
    {pc : PushPc α} (hsim : Simulates placement shared queue)
    (abstract : ProducerPc α)
    (hstep : SlotQueue.stepProducer type.layout queue =
      some (queue.produce abstract))
    (hrelated : PushRelated placement shared.memory
      (queue.produce abstract) pc) :
    ∃ queue', Simulates placement (shared.produce pc) queue' :=
  ⟨queue.produce abstract,
    hsim.produce (hsim.refined_of_stepProducer hstep) (hsim.holds.produce _)
      hrelated rfl (fun _ _ => ⟨rfl, rfl⟩) hsim.transcript hsim.recorded⟩

/-- The producer returns. -/
theorem Simulates.producer_returns
    {memory : Memory} {item : α} {code : QueueCode}
    (hsim : Simulates placement shared queue) (queue' : Queue α)
    (event : BoundedFifo.Event α)
    (hstep : SlotQueue.stepProducer type.layout queue =
      some ((queue'.produce .idle).emit (.queue event)))
    (hholds : Holds placement memory queue')
    (hconsumer : queue'.consumer = queue.consumer)
    (htranscript : queue'.transcript = queue.transcript)
    (hsame : ∀ index, SamePayload placement shared.memory memory queue queue'
      index)
    (hevent : PushReturn.event? ⟨some item, code⟩ = some event)
    (hside : onProducerSide event = true) :
    ∃ queue', Simulates placement
      (Shared.returnPush { shared with memory := memory } item code)
      queue' := by
  refine ⟨_, hsim.produce (hsim.refined_of_stepProducer hstep)
    ((hholds.produce .idle).emit _) rfl hconsumer
    (fun index _ => ⟨(hsame index).bytes, (hsame index).data⟩) ?_ ?_⟩
  · simp [htranscript, hsim.transcript, hevent]
  · have hreturned := hsim.recorded.returnPush hevent hside
    exact ⟨hreturned.pushes, hreturned.reads⟩

/-- The producer stores to the counter of a slot. -/
theorem Simulates.producer_marks
    {pc : PushPc α} (hsim : Simulates placement shared queue)
    (index : Fin type.capacity) (value : UInt64) (abstract : ProducerPc α)
    (hstep : SlotQueue.stepProducer type.layout queue =
      some ((queue.storeSequence placement.base.toNat index value).produce
        abstract))
    (hrelated : ∀ memory, PushRelated placement memory
      ((queue.storeSequence placement.base.toNat index value).produce
        abstract) pc) :
    ∃ queue', Simulates placement
      ((shared.write (storeWord
        (type.counterAddress placement.base index) value)).produce pc)
      queue' := by
  refine ⟨_, hsim.produce (hsim.refined_of_stepProducer hstep)
    ((hsim.holds.storeCounter index value).produce abstract) (hrelated _) rfl
    ?_ hsim.transcript hsim.recorded⟩
  intro other _
  constructor
  · exact Placement.content_storeWord_of_ne (.sequenceCounter index) rfl value
      (by simp)
  · exact queue.storeSequence_slots_data ..

/-- The queue after it has given up the value of a payload, if it had not. -/
structure Opened
    (placement : Placement type) (memory : Memory) (queue queue' : Queue α)
    (index : Fin type.capacity) : Prop where
  refined : Refined type.layout placement.base.toNat queue'
  holds : Holds placement memory queue'
  transcript : queue'.transcript = queue.transcript
  torn : (queue'.slots placement.base.toNat index).data = .torn
  others : ∀ other : Fin type.capacity, other ≠ index →
    (queue'.slots placement.base.toNat other).data =
      (queue.slots placement.base.toNat other).data

omit [Inhabited α] in
/-- One more byte is stored to the payload, and no other payload changes. -/
theorem Opened.copies
    {memory : Memory} {index : Fin type.capacity} {source : List UInt8}
    {offset : ℕ} {byte : UInt8}
    (hopened : Opened placement memory queue queue' index)
    (hcopied : Copied placement memory queue index source offset)
    (hlength : source.length = type.itemSize)
    (hbyte : source[offset]? = some byte) :
    Holds placement ((placement.cells.storeByte (.data index) offset
        byte).perform memory) queue' ∧
      Copied placement ((placement.cells.storeByte (.data index) offset
        byte).perform memory) queue' index source (offset + 1) ∧
      ∀ other, other ≠ index →
        SamePayload placement memory ((placement.cells.storeByte (.data index)
          offset byte).perform memory) queue queue' other := by
  have hin : offset < source.length := (List.getElem?_eq_some_iff.1 hbyte).1
  have hoffset : offset < type.itemSize := hin.trans_eq hlength
  refine ⟨hopened.holds.storeByte hopened.torn hoffset byte, ?_, ?_⟩
  · refine ⟨hin, ?_, fun _ => hopened.torn⟩
    have hstored : placement.payload ((placement.cells.storeByte (.data index)
        offset byte).perform memory) index =
        (placement.payload memory index).set offset byte :=
      Cells.content_storeByte_self hoffset
    rw [hstored]
    exact take_set_succ (by rwa [Placement.length_payload]) hcopied.bytes hbyte
  · intro other hother
    exact ⟨Cells.content_storeByte_of_ne (by simp [hother]) hoffset,
      hopened.others other hother⟩

omit [Inhabited α] in
/-- With all bytes of its source a payload has its value. -/
theorem Copied.decode_eq
    {memory : Memory} {index : Fin type.capacity} {item : α} {offset : ℕ}
    (hcopied : Copied placement memory queue index (type.item.encode item)
      offset)
    (hend : (type.item.encode item)[offset]? = none) :
    type.item.decode (placement.payload memory index) = item := by
  have hlength : (type.item.encode item).length = type.itemSize :=
    type.item.length_encode item
  rw [List.getElem?_eq_none_iff] at hend
  have hbytes := hcopied.bytes
  rw [List.take_of_length_le hend, List.take_of_length_le] at hbytes
  · rw [hbytes]
    exact type.item.decode_encode item
  · rw [Placement.length_payload, ← hlength]
    exact hend

/-- The payload at `head` has no value while the producer writes it. -/
theorem Simulates.producer_opens
    {item : α} {head base sequence : UInt64} {offset : ℕ}
    (hsim : Simulates placement shared queue)
    (hpc : shared.producer = .writePayload item head base sequence offset) :
    ∃ queue', Opened placement shared.memory queue queue'
        (slotIndex type head) ∧
      queue'.producer =
        .pushWriting item head placement.base.toNat sequence ∧
      queue'.consumer = queue.consumer := by
  have hrelated := hsim.producer
  rw [hpc] at hrelated
  obtain ⟨-, hcopied, hproducer⟩ := hrelated
  by_cases hfirst : offset = 0
  · rw [if_pos hfirst] at hproducer
    have hstep : SlotQueue.stepProducer type.layout queue =
        some ((queue.storeData placement.base.toNat (slotIndex type head)
          .torn).produce (.pushWriting item head placement.base.toNat
            sequence)) := by
      simp only [SlotQueue.stepProducer, hproducer]
      rfl
    refine ⟨_, ⟨hsim.refined_of_stepProducer hstep, ?_, rfl, ?_, ?_⟩, rfl,
      rfl⟩
    · exact (hsim.holds.storeData (slotIndex type head)
        (fun _ hvalue => by cases hvalue)).produce _
    · exact queue.storeData_slots_data ..
    · intro other hother
      exact congrArg SlotQueue.Slot.data
        (queue.storeData_slots_of_ne .torn (Fin.val_ne_of_ne hother))
  · rw [if_neg hfirst] at hproducer
    exact ⟨queue, ⟨hsim.refined, hsim.holds, rfl,
      hcopied.torn (Nat.pos_of_ne_zero hfirst), fun _ _ => rfl⟩, hproducer,
      rfl⟩

/-- One more byte of the item is stored. -/
theorem Simulates.producer_copies
    {item : α} {head sequence : UInt64} {offset : ℕ} {byte : UInt8}
    (hsim : Simulates placement shared queue)
    (hpc : shared.producer =
      .writePayload item head placement.base sequence offset)
    (hbyte : (type.item.encode item)[offset]? = some byte) :
    ∃ queue', Simulates placement
      ((shared.write ⟨type.dataAddress placement.base
        (slot type.layout.capacity head) + UInt64.ofNat offset,
          [byte]⟩).produce
            (.writePayload item head placement.base sequence (offset + 1)))
      queue' := by
  have hrelated := hsim.producer
  rw [hpc] at hrelated
  obtain ⟨-, hcopied, hproducer⟩ := hrelated
  obtain ⟨queue', hopened, hwriting, hconsumer⟩ := hsim.producer_opens hpc
  obtain ⟨hholds, hmore, hsame⟩ :=
    hopened.copies hcopied (type.item.length_encode item) hbyte
  refine ⟨queue', hsim.produce hopened.refined hholds ?_ hconsumer ?_
    (hopened.transcript.trans hsim.transcript) hsim.recorded⟩
  · exact ⟨rfl, hmore, by rw [if_neg (Nat.succ_ne_zero offset), hwriting]⟩
  · intro other haccess
    apply hsame
    apply hsim.access_ne ?_ haccess
    rw [hproducer]
    split <;> rfl

/-- The item is stored completely. -/
theorem Simulates.producer_completes
    {item : α} {head sequence : UInt64} {offset : ℕ}
    (hsim : Simulates placement shared queue)
    (hpc : shared.producer =
      .writePayload item head placement.base sequence offset)
    (hend : (type.item.encode item)[offset]? = none) :
    ∃ queue', Simulates placement
      (shared.produce (.settleSequence item head placement.base sequence))
      queue' := by
  have hrelated := hsim.producer
  rw [hpc] at hrelated
  obtain ⟨-, hcopied, hproducer⟩ := hrelated
  have hoffset : offset ≠ 0 := by
    rintro rfl
    rw [List.getElem?_eq_none_iff, type.item.length_encode] at hend
    exact absurd type.itemSize_pos hend.not_gt
  rw [if_neg hoffset] at hproducer
  have hstep : SlotQueue.stepProducer type.layout queue =
      some ((queue.storeData placement.base.toNat (slotIndex type head)
        (.value item)).produce (.pushSettle item head placement.base.toNat
          sequence)) := by
    simp only [SlotQueue.stepProducer, hproducer]
    rfl
  refine ⟨_, hsim.produce (hsim.refined_of_stepProducer hstep) ?_ ⟨rfl, rfl⟩
    rfl ?_ hsim.transcript hsim.recorded⟩
  · refine (hsim.holds.storeData (slotIndex type head) ?_).produce _
    intro value hvalue
    cases hvalue
    exact hcopied.decode_eq hend
  · intro other haccess
    have hne : other ≠ slotIndex type head :=
      hsim.access_ne (by rw [hproducer]; rfl) haccess
    exact ⟨rfl, congrArg SlotQueue.Slot.data
      (queue.storeData_slots_of_ne _ (Fin.val_ne_of_ne hne))⟩

/-- A producer which waits for the cache callback for good. -/
theorem Simulates.producer_halts
    (hsim : Simulates placement shared queue) :
    ∃ queue', Simulates placement (shared.produce .halted) queue' :=
  ⟨queue, hsim.produce hsim.refined hsim.holds trivial rfl
    (fun _ _ => ⟨rfl, rfl⟩) hsim.transcript hsim.recorded⟩

theorem stepPush_simulates
    (hsim : Simulates placement shared queue)
    (hstep : stepPush type callbacks placement.queue shared = some next) :
    ∃ queue', Simulates placement next queue' := by
  have hrelated := hsim.producer
  cases hpc : shared.producer with
  | idle =>
      simp only [stepPush, hpc] at hstep
      cases hstep
  | checkInitialized item =>
      rw [hpc] at hrelated
      simp only [stepPush, hpc, hsim.holds.loadInitialized,
        hsim.isInitialized, if_true] at hstep
      cases hstep
      refine hsim.producer_moves (.pushHead item) ?_ rfl
      rw [SlotQueue.stepProducer, hrelated]
      simp only [hsim.isInitialized, if_true]
  | loadHead item =>
      rw [hpc] at hrelated
      simp only [stepPush, hpc, hsim.holds.loadHead] at hstep
      cases hstep
      refine hsim.producer_moves (.pushTail item queue.head) ?_ rfl
      rw [SlotQueue.stepProducer, hrelated]
  | loadTail item head =>
      rw [hpc] at hrelated
      simp only [stepPush, hpc, hsim.holds.loadTail] at hstep
      split_ifs at hstep with hfull
      · cases hstep
        refine hsim.producer_returns queue .full ?_ hsim.holds rfl rfl
          (fun _ => ⟨rfl, rfl⟩) rfl rfl
        rw [SlotQueue.stepProducer, hrelated]
        exact if_pos hfull
      · cases hstep
        refine hsim.producer_moves (.pushBuffer item head) ?_ rfl
        rw [SlotQueue.stepProducer, hrelated]
        exact if_neg hfull
  | loadBuffer item head =>
      rw [hpc] at hrelated
      simp only [stepPush, hpc, hsim.holds.loadBuffer] at hstep
      cases hstep
      refine hsim.producer_moves
        (.pushSequence item head placement.base.toNat) ?_ ⟨rfl, rfl⟩
      rw [SlotQueue.stepProducer, hrelated]
      simp only [hsim.buffer_eq]
  | loadSequence item head base =>
      rw [hpc] at hrelated
      obtain ⟨rfl, hproducer⟩ := hrelated
      have hcounter := hsim.holds.loadCounter (slotIndex type head)
      simp only [slotIndex] at hcounter
      simp only [stepPush, hpc, hcounter] at hstep
      cases hstep
      refine hsim.producer_moves (.pushMark item head placement.base.toNat _)
        ?_ ⟨rfl, rfl⟩
      rw [SlotQueue.stepProducer, hproducer]
  | markSequence item head base sequence =>
      rw [hpc] at hrelated
      obtain ⟨rfl, hproducer⟩ := hrelated
      simp only [stepPush, hpc] at hstep
      cases hstep
      refine hsim.producer_marks (slotIndex type head) (sequence + 1 ||| 1)
        (.pushWrite item head placement.base.toNat sequence) ?_ ?_
      · rw [SlotQueue.stepProducer, hproducer]
        rfl
      · intro memory
        exact ⟨rfl, ⟨Nat.zero_le _, rfl, fun h => absurd h (lt_irrefl 0)⟩,
          rfl⟩
  | writePayload item head base sequence offset =>
      rw [hpc] at hrelated
      obtain ⟨rfl, -, -⟩ := hrelated
      simp only [stepPush, hpc] at hstep
      cases hbyte : (type.item.encode item)[offset]? with
      | some byte =>
          simp only [hbyte] at hstep
          cases hstep
          exact hsim.producer_copies hpc hbyte
      | none =>
          simp only [hbyte] at hstep
          split_ifs at hstep
          · cases hstep
            exact hsim.producer_completes hpc hbyte
          · cases hstep
            exact hsim.producer_halts
  | settleSequence item head base sequence =>
      rw [hpc] at hrelated
      obtain ⟨rfl, hproducer⟩ := hrelated
      simp only [stepPush, hpc] at hstep
      cases hstep
      refine hsim.producer_marks (slotIndex type head) (sequence + 2 &&& ~~~1)
        (.pushPublish item head) ?_ (fun _ => rfl)
      rw [SlotQueue.stepProducer, hproducer]
      rfl
  | publishHead item head =>
      rw [hpc] at hrelated
      simp only [stepPush, hpc] at hstep
      cases hstep
      refine hsim.producer_returns { queue with head := head + 1 }
        (.pushed item) ?_ (hsim.holds.storeHead (head + 1)) rfl rfl ?_ rfl
        rfl
      · rw [SlotQueue.stepProducer, hrelated]
      · intro index
        exact ⟨Placement.content_storeWord_of_ne (.control .head) rfl
          (head + 1) (by simp), rfl⟩
  | halted =>
      simp only [stepPush, hpc] at hstep
      cases hstep

/-! ## Steps of the consumer -/

/-- The consumer moves, and the payload which the producer accesses stays. -/
theorem Simulates.consume
    {memory : Memory} {pc : ReadPc α} {reads : List (ReadReturn α)}
    {effects : List (BoundedFifo.Event α)}
    (hsim : Simulates placement shared queue)
    (hrefined : Refined type.layout placement.base.toNat queue')
    (hholds : Holds placement memory queue')
    (hrelated : ReadRelated placement memory queue' pc)
    (hproducer : queue'.producer = queue.producer)
    (hsame : ∀ index : Fin type.capacity,
      queue.producer.access? type.layout =
        some (placement.base.toNat, index.val) →
      SamePayload placement shared.memory memory queue queue' index)
    (hout : pc.out? = none ∨ pc.out? = shared.consumer.out?)
    (htranscript : queue'.transcript = effects.map .queue)
    (hrecorded : Shared.Recorded
      { shared with consumer := pc, reads := reads, effects := effects }) :
    Simulates placement
      { shared with
        memory := memory, consumer := pc, reads := reads,
        effects := effects } queue' := by
  constructor
  · exact hholds
  · exact hrefined
  · exact hsim.producer.frame hproducer hsame
  · exact hrelated
  · intro out hpc
    rcases hout with hnone | hsame
    · cases hnone.symm.trans hpc
    · exact hsim.out out (hsame.symm.trans hpc)
  · exact htranscript
  · exact ⟨hrecorded.pushes, hrecorded.reads⟩

theorem Simulates.refined_of_stepConsumer
    (hsim : Simulates placement shared queue)
    (hstep : SlotQueue.stepConsumer type.layout queue = some queue') :
    Refined type.layout placement.base.toNat queue' := by
  obtain ⟨history, items, href⟩ := hsim.refined
  exact SlotQueue.stepConsumer_refined href hstep

/-- The calls of a slot queue return operations of the bounded queue only. -/
theorem Simulates.outcome_of_stepConsumer
    {outcome : Outcome α} (hsim : Simulates placement shared queue)
    (hstep : SlotQueue.stepConsumer type.layout queue =
      some (queue'.emit outcome)) :
    ∃ event, outcome = .queue event := by
  obtain ⟨history, items, href⟩ := hsim.refined_of_stepConsumer hstep
  have hmem : outcome ∈ (queue'.emit outcome).transcript := by simp
  rw [href.transcript_eq, List.mem_map] at hmem
  obtain ⟨event, _, hevent⟩ := hmem
  exact ⟨event, hevent.symm⟩

/-- The consumer moves without a store and keeps its pointer. -/
theorem Simulates.consumer_moves
    {pc pc' : ReadPc α} (hsim : Simulates placement shared queue)
    (hpc : shared.consumer = pc) (abstract : ConsumerPc α)
    (hrefined : Refined type.layout placement.base.toNat
      (queue.consume abstract))
    (hrelated : ReadRelated placement shared.memory
      (queue.consume abstract) pc')
    (hout : pc'.out? = pc.out?) (hpending : pc'.pending = pc.pending) :
    ∃ queue', Simulates placement (shared.consume pc') queue' := by
  subst hpc
  exact ⟨queue.consume abstract,
    hsim.consume hrefined (hsim.holds.consume _) hrelated rfl
      (fun _ _ => ⟨rfl, rfl⟩) (.inr hout) hsim.transcript
      (hsim.recorded.consume hpending)⟩

/-- The consumer finds the queue empty. -/
theorem Simulates.consumer_returns_empty
    {mode : Mode} (hsim : Simulates placement shared queue)
    (hstep : SlotQueue.stepConsumer type.layout queue =
      some ((queue.consume .idle).emit (.queue .empty)))
    (hpending : shared.consumer.pending = []) :
    ∃ queue', Simulates placement (shared.returnRead mode .queueEmpty)
      queue' := by
  refine ⟨_, hsim.consume (hsim.refined_of_stepConsumer hstep)
    ((hsim.holds.consume .idle).emit _) rfl rfl (fun _ _ => ⟨rfl, rfl⟩)
    (.inl rfl) ?_
    (hsim.recorded.returnRead hpending (.inl rfl))⟩
  simp [hsim.transcript, ReadReturn.event?]

/-- The consumer has read an item, which it delivers next. -/
theorem Simulates.consumer_takes
    {memory : Memory} {mode : Mode} {out : UInt64} {item : α}
    {payload : Payload α} (hsim : Simulates placement shared queue)
    (queue' : Queue α)
    (hstep : SlotQueue.stepConsumer type.layout queue =
      some ((queue'.consume .idle).emit
        (SlotQueue.readOutcome mode payload)))
    (hitem : ReadAs payload item)
    (hholds : Holds placement memory queue')
    (hproducer : queue'.producer = queue.producer)
    (htranscript : queue'.transcript = queue.transcript)
    (hsame : ∀ index, SamePayload placement shared.memory memory queue queue'
      index)
    (hout : shared.consumer.out? = some out)
    (hpending : shared.consumer.pending = []) :
    ∃ queue', Simulates placement
      (Shared.take { shared with memory := memory } mode out item)
      queue' := by
  have hevent : SlotQueue.readOutcome mode payload =
      .queue (readEvent mode item) := by
    cases payload with
    | torn =>
        obtain ⟨event, hevent⟩ := hsim.outcome_of_stepConsumer hstep
        cases hevent
    | value value =>
        rw [hitem value rfl]
        cases mode <;> rfl
  rw [hevent] at hstep
  refine ⟨_, hsim.consume (hsim.refined_of_stepConsumer hstep)
    ((hholds.consume .idle).emit _) rfl hproducer
    (fun index _ => ⟨(hsame index).bytes, (hsame index).data⟩)
    (.inr hout.symm) ?_ (hsim.recorded.take hpending)⟩
  simp [htranscript, hsim.transcript]

/-- The caller finds the item in its memory. -/
theorem Simulates.consumer_delivers
    {mode : Mode} {out : UInt64} {item : α}
    (hsim : Simulates placement shared queue)
    (hpc : shared.consumer = .deliver mode out item) :
    ∃ queue', Simulates placement
      { shared.write (type.item.write out item) with
        consumer := .idle
        reads := shared.reads ++ [⟨mode, .success, some (type.item.load
          (shared.write (type.item.write out item)).memory out)⟩] }
      queue' := by
  have houtside : Outside placement (type.item.write out item).start
      (type.item.write out item).bytes.length := by
    rw [Format.length_write]
    exact hsim.out out (by rw [hpc]; rfl)
  have hcontent := houtside.content_perform shared.memory
  have hload : type.item.load
      (shared.write (type.item.write out item)).memory out = item :=
    type.item.load_performAll_of_mem (List.pairwise_singleton _ _)
      List.mem_cons_self
  have hconsumer := hsim.consumer
  rw [hpc] at hconsumer
  rw [hload]
  exact ⟨queue, hsim.consume hsim.refined (hsim.holds.congr hcontent)
    hconsumer rfl (fun index _ => ⟨hcontent (.data index), rfl⟩)
    (.inl rfl) hsim.transcript
    (hsim.recorded.deliver hpc)⟩

/-- A byte of the payload at `tail` is wiped. -/
theorem Simulates.consumer_wipes
    {out tail : UInt64} {item : α} {offset : ℕ}
    (hsim : Simulates placement shared queue)
    (hpc : shared.consumer =
      .wipePayload out tail placement.base item offset)
    (hoffset : offset < type.itemSize) :
    ∃ queue', Simulates placement
      ((shared.write ⟨type.dataAddress placement.base
        (slot type.layout.capacity tail) + UInt64.ofNat offset, [0]⟩).consume
          (.wipePayload out tail placement.base item (offset + 1)))
      queue' := by
  have hrelated := hsim.consumer
  rw [hpc] at hrelated
  obtain ⟨-, payload, hitem, hconsumer⟩ := hrelated
  have hstep : SlotQueue.stepConsumer type.layout queue =
      some ((queue.storeData placement.base.toNat (slotIndex type tail)
        .torn).consume
          (.popWipe tail placement.base.toNat payload (offset + 1))) := by
    simp only [SlotQueue.stepConsumer, hconsumer]
    exact if_pos (by rw [type.itemSize_eq]; exact hoffset)
  have htorn : Holds placement shared.memory
      (queue.storeData placement.base.toNat (slotIndex type tail) .torn) :=
    hsim.holds.storeData _ fun _ hvalue => by cases hvalue
  refine ⟨_, hsim.consume (hsim.refined_of_stepConsumer hstep)
    ((htorn.storeByte (queue.storeData_slots_data ..) hoffset 0).consume _)
    ⟨rfl, payload, hitem, rfl⟩ rfl ?_ (.inr (by rw [hpc]; rfl))
    hsim.transcript (hsim.recorded.consume (by rw [hpc]; rfl))⟩
  intro other haccess
  have hne : other ≠ slotIndex type tail :=
    (hsim.access_ne haccess (by rw [hconsumer]; rfl)).symm
  have hbytes : placement.payload ((placement.cells.storeByte
      (.data (slotIndex type tail)) offset 0).perform shared.memory) other =
      placement.payload shared.memory other :=
    Cells.content_storeByte_of_ne (by simp [hne]) hoffset
  exact ⟨hbytes, congrArg SlotQueue.Slot.data
    (queue.storeData_slots_of_ne _ (Fin.val_ne_of_ne hne))⟩

/-- The payload at `tail` has no value while the consumer restores it. -/
theorem Simulates.consumer_opens
    {out tail base : UInt64} {item : α} {offset : ℕ}
    (hsim : Simulates placement shared queue)
    (hpc : shared.consumer = .restorePayload out tail base item offset) :
    ∃ queue' payload, Opened placement shared.memory queue queue'
        (slotIndex type tail) ∧
      ReadAs payload item ∧
      queue'.consumer = .popRestoring tail placement.base.toNat payload ∧
      queue'.producer = queue.producer := by
  have hrelated := hsim.consumer
  rw [hpc] at hrelated
  obtain ⟨-, hcopied, payload, hitem, hconsumer⟩ := hrelated
  by_cases hfirst : offset = 0
  · rw [if_pos hfirst] at hconsumer
    have hstep : SlotQueue.stepConsumer type.layout queue =
        some ((queue.storeData placement.base.toNat (slotIndex type tail)
          .torn).consume
            (.popRestoring tail placement.base.toNat payload)) := by
      simp only [SlotQueue.stepConsumer, hconsumer]
      rfl
    refine ⟨_, payload, ⟨hsim.refined_of_stepConsumer hstep, ?_, rfl, ?_,
      ?_⟩, hitem, rfl, rfl⟩
    · exact (hsim.holds.storeData (slotIndex type tail)
        (fun _ hvalue => by cases hvalue)).consume _
    · exact queue.storeData_slots_data ..
    · intro other hother
      exact congrArg SlotQueue.Slot.data
        (queue.storeData_slots_of_ne .torn (Fin.val_ne_of_ne hother))
  · rw [if_neg hfirst] at hconsumer
    exact ⟨queue, payload, ⟨hsim.refined, hsim.holds, rfl,
      hcopied.torn (Nat.pos_of_ne_zero hfirst), fun _ _ => rfl⟩, hitem,
      hconsumer, rfl⟩

/-- A byte of the default value is stored. -/
theorem Simulates.consumer_restores
    {out tail : UInt64} {item : α} {offset : ℕ} {byte : UInt8}
    (hsim : Simulates placement shared queue)
    (hpc : shared.consumer =
      .restorePayload out tail placement.base item offset)
    (hbyte : (type.item.encode default)[offset]? = some byte) :
    ∃ queue', Simulates placement
      ((shared.write ⟨type.dataAddress placement.base
        (slot type.layout.capacity tail) + UInt64.ofNat offset,
          [byte]⟩).consume
            (.restorePayload out tail placement.base item (offset + 1)))
      queue' := by
  have hrelated := hsim.consumer
  rw [hpc] at hrelated
  obtain ⟨-, hcopied, _, _, hconsumer⟩ := hrelated
  obtain ⟨queue', payload, hopened, hitem, hrestoring, hproducer⟩ :=
    hsim.consumer_opens hpc
  obtain ⟨hholds, hmore, hsame⟩ :=
    hopened.copies hcopied (type.item.length_encode default) hbyte
  refine ⟨queue', hsim.consume hopened.refined hholds ?_ hproducer ?_
    (.inr (by rw [hpc]; rfl)) (hopened.transcript.trans hsim.transcript)
    (hsim.recorded.consume (by rw [hpc]; rfl))⟩
  · exact ⟨rfl, hmore, payload, hitem, by
      rw [if_neg (Nat.succ_ne_zero offset), hrestoring]⟩
  · intro other haccess
    apply hsame
    apply (hsim.access_ne haccess ?_).symm
    rw [hconsumer]
    split <;> rfl

/-- The default value is stored completely. -/
theorem Simulates.consumer_completes
    {out tail : UInt64} {item : α} {offset : ℕ}
    (hsim : Simulates placement shared queue)
    (hpc : shared.consumer =
      .restorePayload out tail placement.base item offset)
    (hend : (type.item.encode default)[offset]? = none) :
    ∃ queue', Simulates placement
      (shared.consume (.publishTail out tail item)) queue' := by
  have hrelated := hsim.consumer
  rw [hpc] at hrelated
  obtain ⟨-, hcopied, payload, hitem, hconsumer⟩ := hrelated
  have hoffset : offset ≠ 0 := by
    rintro rfl
    rw [List.getElem?_eq_none_iff, type.item.length_encode] at hend
    exact absurd type.itemSize_pos hend.not_gt
  rw [if_neg hoffset] at hconsumer
  have hstep : SlotQueue.stepConsumer type.layout queue =
      some ((queue.storeData placement.base.toNat (slotIndex type tail)
        (.value default)).consume (.popPublish tail payload)) := by
    simp only [SlotQueue.stepConsumer, hconsumer]
    rfl
  refine ⟨_, hsim.consume (hsim.refined_of_stepConsumer hstep) ?_
    ⟨payload, hitem, rfl⟩ rfl ?_ (.inr (by rw [hpc]; rfl))
    hsim.transcript (hsim.recorded.consume (by rw [hpc]; rfl))⟩
  · refine (hsim.holds.storeData (slotIndex type tail) ?_).consume _
    intro value hvalue
    cases hvalue
    exact hcopied.decode_eq hend
  · intro other haccess
    have hne : other ≠ slotIndex type tail :=
      (hsim.access_ne haccess (by rw [hconsumer]; rfl)).symm
    exact ⟨rfl, congrArg SlotQueue.Slot.data
      (queue.storeData_slots_of_ne _ (Fin.val_ne_of_ne hne))⟩

/-- A consumer which waits for the cache callback for good. -/
theorem Simulates.consumer_halts
    (hsim : Simulates placement shared queue)
    (hpending : shared.consumer.pending = []) :
    ∃ queue', Simulates placement (shared.consume .halted) queue' :=
  ⟨queue, hsim.consume hsim.refined hsim.holds trivial rfl
    (fun _ _ => ⟨rfl, rfl⟩) (.inl rfl) hsim.transcript
    (hsim.recorded.consume hpending.symm)⟩

/-- One more byte of the payload at `tail` is read. -/
theorem Simulates.consumer_reads
    {mode : Mode} {out tail first : UInt64} {bytes : List UInt8}
    (hsim : Simulates placement shared queue)
    (hpc : shared.consumer =
      .readPayload mode out tail placement.base first bytes)
    (hmore : bytes.length < type.itemSize) :
    ∃ queue', Simulates placement
      (shared.consume (.readPayload mode out tail placement.base first
        (bytes ++ [shared.memory (type.dataAddress placement.base
          (slot type.layout.capacity tail) + UInt64.ofNat bytes.length)])))
      queue' := by
  have hrelated := hsim.consumer
  rw [hpc] at hrelated
  obtain ⟨-, hbytes, hconsumer⟩ := hrelated
  refine ⟨queue, hsim.consume hsim.refined hsim.holds
    ⟨rfl, ?_, hconsumer⟩ rfl (fun _ _ => ⟨rfl, rfl⟩)
    (.inr (by rw [hpc]; rfl)) hsim.transcript
    (hsim.recorded.consume (by rw [hpc]; rfl))⟩
  have hnext := @take_read_succ shared.memory
    (placement.start (.data (slotIndex type tail))) type.itemSize
    bytes.length hmore
  rw [List.length_append, List.length_singleton]
  refine Eq.trans ?_ hnext
  exact congrArg (· ++ _) hbytes

/-- The payload at `tail` has been read. -/
theorem Simulates.consumer_decodes
    {mode : Mode} {out tail first : UInt64} {bytes : List UInt8}
    (hsim : Simulates placement shared queue)
    (hpc : shared.consumer =
      .readPayload mode out tail placement.base first bytes)
    (hend : ¬ bytes.length < type.itemSize) :
    ∃ queue', Simulates placement
      (shared.consume (.secondSequence mode out tail placement.base first
        (type.item.decode bytes))) queue' := by
  have hrelated := hsim.consumer
  rw [hpc] at hrelated
  obtain ⟨-, hbytes, hconsumer⟩ := hrelated
  rw [List.take_of_length_le (by
    rw [Placement.length_payload]
    exact not_lt.1 hend)] at hbytes
  have hstep : SlotQueue.stepConsumer type.layout queue =
      some (queue.consume (.readSecond mode tail placement.base.toNat first
        (queue.slots placement.base.toNat (slotIndex type tail)).data)) := by
    simp only [SlotQueue.stepConsumer, hconsumer]
    rfl
  refine hsim.consumer_moves hpc _ (hsim.refined_of_stepConsumer hstep)
    ⟨rfl, _, ?_, rfl⟩ rfl rfl
  intro value hvalue
  rw [hbytes]
  exact hsim.holds (.data (slotIndex type tail)) value hvalue

/-- The counter of a slot which the consumer reads is stable. -/
theorem Simulates.consumer_stable
    {P : Prop} (mode : Mode) (hsim : Simulates placement shared queue)
    (hstep : SlotQueue.stepConsumer type.layout queue =
      some ((queue.consume .idle).emit (.unstable mode))) :
    P := by
  obtain ⟨event, hevent⟩ := hsim.outcome_of_stepConsumer hstep
  cases hevent

theorem stepRead_simulates
    (hsim : Simulates placement shared queue)
    (hstep : stepRead type callbacks placement.queue shared = some next) :
    ∃ queue', Simulates placement next queue' := by
  have hrelated := hsim.consumer
  cases hpc : shared.consumer with
  | idle =>
      simp only [stepRead, hpc] at hstep
      cases hstep
  | entry mode out =>
      rw [hpc] at hrelated
      simp only [stepRead, hpc, hsim.holds.loadInitialized,
        hsim.isInitialized, if_true] at hstep
      cases hstep
      have hcall : SlotQueue.step type.layout queue (.read mode) =
          some (queue.consume (.readCheck mode)) := by
        simp only [SlotQueue.step, show queue.consumer = .idle from hrelated]
      exact hsim.consumer_moves hpc (.readCheck mode)
        (SlotQueue.step_refined hsim.refined hcall) rfl rfl rfl
  | checkInitialized mode out =>
      rw [hpc] at hrelated
      simp only [stepRead, hpc, hsim.holds.loadInitialized,
        hsim.isInitialized, if_true] at hstep
      cases hstep
      refine hsim.consumer_moves hpc (.readTail mode)
        (hsim.refined_of_stepConsumer ?_) rfl rfl rfl
      rw [SlotQueue.stepConsumer, hrelated]
      simp only [hsim.isInitialized, if_true]
  | loadTail mode out =>
      rw [hpc] at hrelated
      simp only [stepRead, hpc, hsim.holds.loadTail] at hstep
      cases hstep
      refine hsim.consumer_moves hpc (.readHead mode queue.tail)
        (hsim.refined_of_stepConsumer ?_) rfl rfl rfl
      rw [SlotQueue.stepConsumer, hrelated]
  | loadHead mode out tail =>
      rw [hpc] at hrelated
      simp only [stepRead, hpc, hsim.holds.loadHead] at hstep
      split_ifs at hstep with hempty
      · cases hstep
        refine hsim.consumer_returns_empty ?_ (by rw [hpc]; rfl)
        rw [SlotQueue.stepConsumer, hrelated]
        exact if_pos hempty
      · cases hstep
        refine hsim.consumer_moves hpc (.readBuffer mode tail)
          (hsim.refined_of_stepConsumer ?_) rfl rfl rfl
        rw [SlotQueue.stepConsumer, hrelated]
        exact if_neg hempty
  | loadBuffer mode out tail =>
      rw [hpc] at hrelated
      simp only [stepRead, hpc, hsim.holds.loadBuffer] at hstep
      cases hstep
      refine hsim.consumer_moves hpc
        (.readFirst mode tail placement.base.toNat)
        (hsim.refined_of_stepConsumer ?_) ⟨rfl, rfl⟩ rfl rfl
      rw [SlotQueue.stepConsumer, hrelated]
      simp only [hsim.buffer_eq]
  | firstSequence mode out tail base =>
      rw [hpc] at hrelated
      obtain ⟨rfl, hconsumer⟩ := hrelated
      have hcounter := hsim.holds.loadCounter (slotIndex type tail)
      simp only [slotIndex] at hcounter
      simp only [stepRead, hpc, hcounter] at hstep
      split_ifs at hstep with hodd hinvalidate
      · refine hsim.consumer_stable mode ?_
        rw [SlotQueue.stepConsumer, hconsumer]
        exact if_pos hodd
      · cases hstep
        refine hsim.consumer_moves hpc
          (.readData mode tail placement.base.toNat _)
          (hsim.refined_of_stepConsumer ?_) ⟨rfl, rfl, rfl⟩ rfl rfl
        rw [SlotQueue.stepConsumer, hconsumer]
        exact if_neg hodd
      · cases hstep
        exact hsim.consumer_halts (by rw [hpc]; rfl)
  | readPayload mode out tail base first bytes =>
      rw [hpc] at hrelated
      obtain ⟨rfl, -, -⟩ := hrelated
      simp only [stepRead, hpc] at hstep
      split_ifs at hstep with hmore
      · cases hstep
        exact hsim.consumer_reads hpc hmore
      · cases hstep
        exact hsim.consumer_decodes hpc hmore
  | secondSequence mode out tail base first item =>
      rw [hpc] at hrelated
      obtain ⟨rfl, payload, hitem, hconsumer⟩ := hrelated
      have hcounter := hsim.holds.loadCounter (slotIndex type tail)
      simp only [slotIndex] at hcounter
      simp only [stepRead, hpc, hcounter] at hstep
      split_ifs at hstep with hchanged
      · refine hsim.consumer_stable mode ?_
        rw [SlotQueue.stepConsumer, hconsumer]
        exact if_pos hchanged
      · cases mode with
        | pop =>
            cases hstep
            refine hsim.consumer_moves hpc
              (.popWipe tail placement.base.toNat payload 0)
              (hsim.refined_of_stepConsumer ?_) ⟨rfl, payload, hitem, rfl⟩ rfl rfl
            rw [SlotQueue.stepConsumer, hconsumer]
            exact if_neg hchanged
        | peek =>
            cases hstep
            refine hsim.consumer_takes queue ?_ hitem hsim.holds rfl rfl
              (fun _ => ⟨rfl, rfl⟩) (by rw [hpc]; rfl) (by rw [hpc]; rfl)
            rw [SlotQueue.stepConsumer, hconsumer]
            exact if_neg hchanged
  | wipePayload out tail base item offset =>
      rw [hpc] at hrelated
      obtain ⟨rfl, payload, hitem, hconsumer⟩ := hrelated
      simp only [stepRead, hpc] at hstep
      split_ifs at hstep with hmore
      · cases hstep
        exact hsim.consumer_wipes hpc hmore
      · cases hstep
        refine hsim.consumer_moves hpc
          (.popRestore tail placement.base.toNat payload)
          (hsim.refined_of_stepConsumer ?_)
          ⟨rfl, ⟨Nat.zero_le _, rfl, fun h => absurd h (lt_irrefl 0)⟩,
            payload, hitem, rfl⟩ rfl rfl
        rw [SlotQueue.stepConsumer, hconsumer]
        exact if_neg (by rw [type.itemSize_eq]; exact hmore)
  | restorePayload out tail base item offset =>
      rw [hpc] at hrelated
      obtain ⟨rfl, -, -⟩ := hrelated
      simp only [stepRead, hpc] at hstep
      cases hbyte : (type.item.encode default)[offset]? with
      | some byte =>
          simp only [hbyte] at hstep
          cases hstep
          exact hsim.consumer_restores hpc hbyte
      | none =>
          simp only [hbyte] at hstep
          cases hstep
          exact hsim.consumer_completes hpc hbyte
  | publishTail out tail item =>
      rw [hpc] at hrelated
      obtain ⟨payload, hitem, hconsumer⟩ := hrelated
      simp only [stepRead, hpc] at hstep
      cases hstep
      refine hsim.consumer_takes { queue with tail := tail + 1 } ?_ hitem
        (hsim.holds.storeTail (tail + 1)) rfl rfl ?_ (by rw [hpc]; rfl)
        (by rw [hpc]; rfl)
      · rw [SlotQueue.stepConsumer, hconsumer]
      · intro index
        exact ⟨Placement.content_storeWord_of_ne (.control .tail) rfl
          (tail + 1) (by simp), rfl⟩
  | deliver mode out item =>
      simp only [stepRead, hpc] at hstep
      cases hstep
      exact hsim.consumer_delivers hpc
  | halted =>
      simp only [stepRead, hpc] at hstep
      cases hstep

end Steps

end Rtos
end ShawnCore
