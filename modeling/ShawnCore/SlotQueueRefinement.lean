import ShawnCore.SlotQueue

/-!
# The slot queues refine a bounded queue

The items between `tail` and `head` are the content of the abstract queue.  The
producer only writes the slot at `head`, and only while there is room; the
consumer only writes the slot at `tail`, and only while there is an item.  The
two slots are different then, whatever the values of the two counters.
-/

namespace ShawnCore
namespace SlotQueue

open BoundedFifo (History Step)
open RingIndex (slot)

variable {α : Type}

/-- The slot at `head` has an odd sequence counter. -/
def ProducerPc.marked : ProducerPc α → Bool
  | .pushWrite .. => true
  | .pushWriting .. => true
  | .pushSettle .. => true
  | _ => false

/-- The consumer is past the validation of `pop` and clears the slot at
`tail`. -/
def ConsumerPc.clearing : ConsumerPc α → Bool
  | .popWipe .. => true
  | .popRestore .. => true
  | .popRestoring .. => true
  | .popPublish .. => true
  | _ => false

/-- The slot whose payload the producer is accessing. -/
def ProducerPc.access? (layout : Layout) : ProducerPc α → Option (ℕ × ℕ)
  | .pushWrite _ head base _ => some (base, slot layout.capacity head)
  | .pushWriting _ head base _ => some (base, slot layout.capacity head)
  | _ => none

/-- The slot whose payload the consumer is accessing. -/
def ConsumerPc.access? (layout : Layout) : ConsumerPc α → Option (ℕ × ℕ)
  | .readData _ tail base _ => some (base, slot layout.capacity tail)
  | .popWipe tail base _ _ => some (base, slot layout.capacity tail)
  | .popRestore tail base _ => some (base, slot layout.capacity tail)
  | .popRestoring tail base _ => some (base, slot layout.capacity tail)
  | _ => none

variable (layout : Layout) (base : ℕ)

/-- The producer has found room at this position. -/
structure Room (queue : Queue α) (items : List α) (head : UInt64) : Prop where
  head_eq : head = queue.head
  room : items.length < layout.capacity.size

/-- The consumer has found this item at this position. -/
structure Front
    (queue : Queue α) (items : List α) (tail : UInt64) (item : α) : Prop where
  tail_eq : tail = queue.tail
  front : items.head? = some item

def ProducerOk (queue : Queue α) (items : List α) : ProducerPc α → Prop
  | .idle => True
  | .pushCheck _ => True
  | .pushHead _ => True
  | .pushTail _ head => head = queue.head
  | .pushBuffer _ head => Room layout queue items head
  | .pushSequence _ head start => Room layout queue items head ∧ start = base
  | .pushMark _ head start _ => Room layout queue items head ∧ start = base
  | .pushWrite _ head start _ => Room layout queue items head ∧ start = base
  | .pushWriting _ head start _ => Room layout queue items head ∧ start = base
  | .pushSettle item head start _ =>
      Room layout queue items head ∧ start = base ∧
        (queue.slots base (slot layout.capacity head)).data = .value item
  | .pushPublish item head =>
      Room layout queue items head ∧
        (queue.slots base (slot layout.capacity head)).data = .value item

def ConsumerOk (queue : Queue α) (items : List α) : ConsumerPc α → Prop
  | .idle => True
  | .readCheck _ => True
  | .readTail _ => True
  | .readHead _ tail => tail = queue.tail
  | .readBuffer _ tail => ∃ front, Front queue items tail front
  | .readFirst _ tail start =>
      start = base ∧ ∃ front, Front queue items tail front
  | .readData _ tail start first =>
      start = base ∧ (∃ front, Front queue items tail front) ∧
        (queue.slots base (slot layout.capacity tail)).sequenceCounter = first
  | .readSecond _ tail start first item =>
      start = base ∧
        (∃ front, Front queue items tail front ∧ item = .value front) ∧
        (queue.slots base (slot layout.capacity tail)).sequenceCounter = first
  | .popWipe tail start item _ =>
      start = base ∧ ∃ front, Front queue items tail front ∧ item = .value front
  | .popRestore tail start item =>
      start = base ∧ ∃ front, Front queue items tail front ∧ item = .value front
  | .popRestoring tail start item =>
      start = base ∧ ∃ front, Front queue items tail front ∧ item = .value front
  | .popPublish tail item =>
      ∃ front, Front queue items tail front ∧ item = .value front

/-- The queue has performed this history and holds these items. -/
structure Refines
    (queue : Queue α) (history : List (BoundedFifo.Event α))
    (items : List α) : Prop where
  transcript_eq : queue.transcript = history.map .queue
  history : History layout.capacity.size history items
  initialized : queue.isInitialized = true
  buffer_eq : queue.buffer = base
  head_eq : queue.head = queue.tail + UInt64.ofNat items.length
  stored : ∀ offset item, items[offset]? = some item →
    (queue.consumer.clearing = true → 0 < offset) →
      (queue.slots base (slot layout.capacity
        (queue.tail + UInt64.ofNat offset))).data = .value item
  even : ∀ index, index < layout.capacity.size →
    (queue.producer.marked = true → index ≠ slot layout.capacity queue.head) →
      (queue.slots base index).sequenceCounter &&& 1 = 0
  producerOk : ProducerOk layout base queue items queue.producer
  consumerOk : ConsumerOk layout base queue items queue.consumer

variable {layout base} {queue : Queue α} {history : List (BoundedFifo.Event α)}
  {items : List α}

/-! ## The slots at the two ends -/

namespace Refines

/-- With room and an item, the two ends are different slots. -/
theorem slot_head_ne_slot_tail
    (href : Refines layout base queue history items)
    (hroom : items.length < layout.capacity.size) (hitem : 0 < items.length) :
    slot layout.capacity queue.head ≠ slot layout.capacity queue.tail := by
  rw [href.head_eq]
  exact RingIndex.slot_add_ne_slot layout.capacity hitem hroom

/-- With room, the slot at `head` is not the slot of an item. -/
theorem slot_item_ne_slot_head
    (href : Refines layout base queue history items)
    (hroom : items.length < layout.capacity.size) {offset : ℕ}
    (hoffset : offset < items.length) :
    slot layout.capacity (queue.tail + UInt64.ofNat offset) ≠
      slot layout.capacity queue.head := by
  rw [href.head_eq]
  intro hslot
  have hsame := RingIndex.slot_add_inj layout.capacity (hoffset.trans hroom)
    hroom hslot
  omega

/-- The slot of a later item is not the slot at `tail`. -/
theorem slot_item_ne_slot_tail
    (href : Refines layout base queue history items) {offset : ℕ}
    (hpos : 0 < offset) (hoffset : offset < items.length) :
    slot layout.capacity (queue.tail + UInt64.ofNat offset) ≠
      slot layout.capacity queue.tail :=
  RingIndex.slot_add_ne_slot layout.capacity hpos
    (hoffset.trans_le href.history.length_le)

end Refines

theorem Front.length_pos
    {tail : UInt64} {item : α} (hfront : Front queue items tail item) :
    0 < items.length := by
  have hhead := hfront.front
  cases items with
  | nil => cases hhead
  | cons first rest => exact Nat.succ_pos _

/-! ## What the other side leaves alone -/

/-- A step of the consumer takes no room away. -/
theorem ProducerOk.frame
    {next : Queue α} {remaining : List α} {pc : ProducerPc α}
    (hok : ProducerOk layout base queue items pc)
    (hhead : next.head = queue.head)
    (hlength : remaining.length ≤ items.length)
    (hdata : items.length < layout.capacity.size →
      (next.slots base (slot layout.capacity queue.head)).data =
        (queue.slots base (slot layout.capacity queue.head)).data) :
    ProducerOk layout base next remaining pc := by
  have hkeep : ∀ head, Room layout queue items head →
      Room layout next remaining head := by
    intro head hroom
    exact ⟨hroom.head_eq.trans hhead.symm, hlength.trans_lt hroom.room⟩
  have hwritten : ∀ head item, Room layout queue items head →
      (queue.slots base (slot layout.capacity head)).data = .value item →
        (next.slots base (slot layout.capacity head)).data = .value item := by
    intro head item hroom hvalue
    rw [hroom.head_eq] at hvalue ⊢
    rw [hdata hroom.room]
    exact hvalue
  cases pc with
  | pushTail item head => exact Eq.trans hok hhead.symm
  | pushBuffer item head => exact hkeep head hok
  | pushSequence item head start => exact ⟨hkeep head hok.1, hok.2⟩
  | pushMark item head start sequence => exact ⟨hkeep head hok.1, hok.2⟩
  | pushWrite item head start sequence => exact ⟨hkeep head hok.1, hok.2⟩
  | pushWriting item head start sequence => exact ⟨hkeep head hok.1, hok.2⟩
  | pushSettle item head start sequence =>
      exact ⟨hkeep head hok.1, hok.2.1, hwritten head item hok.1 hok.2.2⟩
  | pushPublish item head =>
      exact ⟨hkeep head hok.1, hwritten head item hok.1 hok.2⟩
  | _ => trivial

/-- A step of the producer takes no item away. -/
theorem ConsumerOk.frame
    {next : Queue α} {extended : List α} {pc : ConsumerPc α}
    (hok : ConsumerOk layout base queue items pc)
    (htail : next.tail = queue.tail)
    (hfront : ∀ item, items.head? = some item → extended.head? = some item)
    (hsequence : 0 < items.length →
      (next.slots base (slot layout.capacity queue.tail)).sequenceCounter =
        (queue.slots base (slot layout.capacity queue.tail)).sequenceCounter) :
    ConsumerOk layout base next extended pc := by
  have hkeep : ∀ tail item, Front queue items tail item →
      Front next extended tail item := by
    intro tail item hitem
    exact ⟨hitem.tail_eq.trans htail.symm, hfront item hitem.front⟩
  have hsame : ∀ tail item first, Front queue items tail item →
      (queue.slots base (slot layout.capacity tail)).sequenceCounter = first →
        (next.slots base (slot layout.capacity tail)).sequenceCounter =
          first := by
    intro tail item first hitem hvalue
    rw [hitem.tail_eq] at hvalue ⊢
    rw [hsequence hitem.length_pos]
    exact hvalue
  cases pc with
  | readHead mode tail => exact Eq.trans hok htail.symm
  | readBuffer mode tail =>
      obtain ⟨front, hitem⟩ := hok
      exact ⟨front, hkeep tail front hitem⟩
  | readFirst mode tail start =>
      obtain ⟨hstart, front, hitem⟩ := hok
      exact ⟨hstart, front, hkeep tail front hitem⟩
  | readData mode tail start first =>
      obtain ⟨hstart, ⟨front, hitem⟩, hvalue⟩ := hok
      exact ⟨hstart, ⟨front, hkeep tail front hitem⟩,
        hsame tail front first hitem hvalue⟩
  | readSecond mode tail start first item =>
      obtain ⟨hstart, ⟨front, hitem, hread⟩, hvalue⟩ := hok
      exact ⟨hstart, ⟨front, hkeep tail front hitem, hread⟩,
        hsame tail front first hitem hvalue⟩
  | popWipe tail start item index =>
      obtain ⟨hstart, front, hitem, hread⟩ := hok
      exact ⟨hstart, front, hkeep tail front hitem, hread⟩
  | popRestore tail start item =>
      obtain ⟨hstart, front, hitem, hread⟩ := hok
      exact ⟨hstart, front, hkeep tail front hitem, hread⟩
  | popRestoring tail start item =>
      obtain ⟨hstart, front, hitem, hread⟩ := hok
      exact ⟨hstart, front, hkeep tail front hitem, hread⟩
  | popPublish tail item =>
      obtain ⟨front, hitem, hread⟩ := hok
      exact ⟨front, hkeep tail front hitem, hread⟩
  | _ => trivial

/-! ## Steps of the producer -/

/-- At most one slot of the buffer is stored to. -/
structure StoresAt (base : ℕ) (queue same : Queue α) (index : ℕ) : Prop where
  buffer_eq : same.buffer = queue.buffer
  head_eq : same.head = queue.head
  tail_eq : same.tail = queue.tail
  isInitialized_eq : same.isInitialized = queue.isInitialized
  producer_eq : same.producer = queue.producer
  consumer_eq : same.consumer = queue.consumer
  transcript_eq : same.transcript = queue.transcript
  slots_eq : ∀ other, other ≠ index →
    same.slots base other = queue.slots base other

theorem storesAt_storeData
    (base index : ℕ) (queue : Queue α) (data : Payload α) :
    StoresAt base queue (queue.storeData base index data) index := by
  constructor
  case slots_eq =>
    intro other hother
    exact queue.storeData_slots_of_ne data hother
  all_goals rfl

theorem storesAt_storeSequence
    (base index : ℕ) (queue : Queue α) (sequence : UInt64) :
    StoresAt base queue (queue.storeSequence base index sequence) index := by
  constructor
  case slots_eq =>
    intro other hother
    exact queue.storeSequence_slots_of_ne sequence hother
  all_goals rfl

namespace Refines

theorem produce
    {pc : ProducerPc α} (href : Refines layout base queue history items)
    (hmarked : pc.marked = queue.producer.marked)
    (hok : ProducerOk layout base queue items pc) :
    Refines layout base (queue.produce pc) history items := by
  constructor
  · exact href.transcript_eq
  · exact href.history
  · exact href.initialized
  · exact href.buffer_eq
  · exact href.head_eq
  · exact href.stored
  · intro index hindex hhead
    rw [Queue.produce_producer, hmarked] at hhead
    exact href.even index hindex hhead
  · exact hok.frame rfl (Nat.le_refl _) (fun _ => rfl)
  · exact href.consumerOk.frame rfl (fun _ hfront => hfront) (fun _ => rfl)

/-- The producer stores to the slot at `head`, which holds no item. -/
theorem produce_store
    {same : Queue α} {pc : ProducerPc α}
    (href : Refines layout base queue history items)
    (hroom : items.length < layout.capacity.size)
    (hsame : StoresAt base queue same (slot layout.capacity queue.head))
    (heven : pc.marked = false →
      (same.slots base (slot layout.capacity queue.head)).sequenceCounter &&&
        1 = 0)
    (hok : ProducerOk layout base same items pc) :
    Refines layout base (same.produce pc) history items := by
  constructor
  · exact hsame.transcript_eq.trans href.transcript_eq
  · exact href.history
  · exact hsame.isInitialized_eq.trans href.initialized
  · exact hsame.buffer_eq.trans href.buffer_eq
  · rw [Queue.produce_head, Queue.produce_tail, hsame.head_eq, hsame.tail_eq]
    exact href.head_eq
  · intro offset item hitem hclearing
    have hoffset : offset < items.length :=
      (List.getElem?_eq_some_iff.mp hitem).1
    rw [Queue.produce_consumer, hsame.consumer_eq] at hclearing
    rw [Queue.produce_tail, hsame.tail_eq, Queue.produce_slots,
      hsame.slots_eq _ (href.slot_item_ne_slot_head hroom hoffset)]
    exact href.stored offset item hitem hclearing
  · intro index hindex hhead
    rw [Queue.produce_slots]
    by_cases hslot : index = slot layout.capacity queue.head
    · rw [hslot]
      apply heven
      rw [← Bool.not_eq_true]
      intro hmarked
      apply hhead hmarked
      rw [Queue.produce_head, hsame.head_eq]
      exact hslot
    · rw [hsame.slots_eq index hslot]
      exact href.even index hindex (fun _ => hslot)
  · exact hok.frame rfl (Nat.le_refl _) (fun _ => rfl)
  · rw [Queue.produce_consumer, hsame.consumer_eq]
    apply href.consumerOk.frame
    · exact hsame.tail_eq
    · intro item hfront
      exact hfront
    · intro hitem
      rw [Queue.produce_slots, hsame.slots_eq _
        (href.slot_head_ne_slot_tail hroom hitem).symm]

/-- The producer publishes the item it has written. -/
theorem publish
    {item : α} {head : UInt64}
    (href : Refines layout base queue history items)
    (hpc : queue.producer = .pushPublish item head) :
    Refines layout base
      (({ queue with head := head + 1 }.produce .idle).emit
        (.queue (.pushed item)))
      (history ++ [.pushed item]) (items ++ [item]) := by
  have hok := href.producerOk
  rw [hpc] at hok
  obtain ⟨hroom, hwritten⟩ := hok
  rw [hroom.head_eq] at hwritten
  constructor
  · simp [href.transcript_eq]
  · exact href.history.snoc (.pushed item hroom.room)
  · exact href.initialized
  · exact href.buffer_eq
  · rw [List.length_append, List.length_singleton, RingIndex.add_succ]
    rw [hroom.head_eq]
    exact congrArg (· + 1) href.head_eq
  · intro offset value hvalue hclearing
    by_cases hoffset : offset < items.length
    · rw [List.getElem?_append_left hoffset] at hvalue
      exact href.stored offset value hvalue hclearing
    · rw [List.getElem?_append_right (Nat.le_of_not_lt hoffset)] at hvalue
      have hlast := List.getElem?_eq_some_iff.mp hvalue
      have hzero : offset = items.length := by
        have hbound := hlast.1
        rw [List.length_singleton] at hbound
        omega
      subst hzero
      simp only [Nat.sub_self, List.getElem?_cons_zero,
        Option.some.injEq] at hvalue
      subst hvalue
      rw [href.head_eq] at hwritten
      exact hwritten
  · intro index hindex _
    apply href.even index hindex
    intro hmarked
    rw [hpc] at hmarked
    cases hmarked
  · trivial
  · refine href.consumerOk.frame rfl ?_ (fun _ => rfl)
    intro front hfront
    rw [List.head?_append, hfront]
    rfl

/-- A call which leaves the content alone returns. -/
theorem emit
    {event : BoundedFifo.Event α}
    (href : Refines layout base queue history items)
    (hstep : Step layout.capacity.size items event items) :
    Refines layout base (queue.emit (.queue event)) (history ++ [event])
      items := by
  constructor
  · simp [href.transcript_eq]
  · exact href.history.snoc hstep
  · exact href.initialized
  · exact href.buffer_eq
  · exact href.head_eq
  · exact href.stored
  · exact href.even
  · exact href.producerOk.frame rfl (Nat.le_refl _) (fun _ => rfl)
  · exact href.consumerOk.frame rfl (fun _ hfront => hfront) (fun _ => rfl)

end Refines

/-! ## Steps of the consumer -/

namespace Refines

theorem consume
    {pc : ConsumerPc α} (href : Refines layout base queue history items)
    (hclearing : queue.consumer.clearing = true → pc.clearing = true)
    (hok : ConsumerOk layout base queue items pc) :
    Refines layout base (queue.consume pc) history items := by
  constructor
  · exact href.transcript_eq
  · exact href.history
  · exact href.initialized
  · exact href.buffer_eq
  · exact href.head_eq
  · intro offset item hitem hlater
    apply href.stored offset item hitem
    intro hbefore
    exact hlater (hclearing hbefore)
  · exact href.even
  · exact href.producerOk.frame rfl (Nat.le_refl _) (fun _ => rfl)
  · exact hok.frame rfl (fun _ hfront => hfront) (fun _ => rfl)

/-- The consumer clears the payload of the slot at `tail`, whose item it has
read. -/
theorem consume_store
    {pc : ConsumerPc α} {data : Payload α}
    (href : Refines layout base queue history items)
    (hitem : 0 < items.length) (hclearing : pc.clearing = true)
    (hok : ConsumerOk layout base
      (queue.storeData base (slot layout.capacity queue.tail) data) items pc) :
    Refines layout base
      ((queue.storeData base (slot layout.capacity queue.tail) data).consume pc)
      history items := by
  constructor
  · exact href.transcript_eq
  · exact href.history
  · exact href.initialized
  · exact href.buffer_eq
  · exact href.head_eq
  · intro offset item hvalue hlater
    have hpos := hlater hclearing
    have hoffset : offset < items.length :=
      (List.getElem?_eq_some_iff.mp hvalue).1
    rw [Queue.consume_slots, Queue.consume_tail, Queue.storeData_tail,
      Queue.storeData_slots_of_ne _ _
        (href.slot_item_ne_slot_tail hpos hoffset)]
    exact href.stored offset item hvalue (fun _ => hpos)
  · intro index hindex hhead
    rw [Queue.consume_slots, Queue.storeData_slots_sequenceCounter]
    exact href.even index hindex hhead
  · refine href.producerOk.frame rfl (Nat.le_refl _) ?_
    intro hroom
    rw [Queue.consume_slots, Queue.storeData_slots_of_ne _ _
      (href.slot_head_ne_slot_tail hroom hitem)]
  · exact hok.frame rfl (fun _ hfront => hfront) (fun _ => rfl)

/-- The consumer gives the slot at `tail` back. -/
theorem retire
    {item : Payload α} {tail : UInt64}
    (href : Refines layout base queue history items)
    (hpc : queue.consumer = .popPublish tail item) :
    ∃ front rest, item = .value front ∧ items = front :: rest ∧
      Refines layout base
        (({ queue with tail := tail + 1 }.consume .idle).emit
          (.queue (.popped front)))
        (history ++ [.popped front]) rest := by
  have hok := href.consumerOk
  rw [hpc] at hok
  obtain ⟨front, hfront, hread⟩ := hok
  have hhead := hfront.front
  cases items with
  | nil => cases hhead
  | cons first rest =>
      cases hhead
      refine ⟨front, rest, hread, rfl, ?_⟩
      have htail := hfront.tail_eq
      constructor
      · simp [href.transcript_eq]
      · exact href.history.snoc (.popped front rest)
      · exact href.initialized
      · exact href.buffer_eq
      · have hnext := href.head_eq
        rw [List.length_cons, ← RingIndex.succ_add, ← htail] at hnext
        exact hnext
      · intro offset value hvalue _
        have hslot := href.stored (offset + 1) value hvalue
          (fun _ => Nat.succ_pos _)
        rw [← RingIndex.succ_add, ← htail] at hslot
        exact hslot
      · exact href.even
      · exact href.producerOk.frame rfl (Nat.le_succ _) (fun _ => rfl)
      · trivial

end Refines

namespace Refines

/-- The item a consumer is about to read is in its slot, intact. -/
theorem data_tail
    {tail : UInt64} {item : α}
    (href : Refines layout base queue history items)
    (hclearing : queue.consumer.clearing = false)
    (hfront : Front queue items tail item) :
    (queue.slots base (slot layout.capacity tail)).data = .value item := by
  have hfirst : items[0]? = some item := by
    rw [← List.head?_eq_getElem?]
    exact hfront.front
  have hdata := href.stored 0 item hfirst (by simp [hclearing])
  rw [hfront.tail_eq]
  simpa using hdata

/-- Its sequence counter is even: the producer marks another slot. -/
theorem even_tail
    {tail : UInt64} {item : α}
    (href : Refines layout base queue history items)
    (hfront : Front queue items tail item) :
    (queue.slots base (slot layout.capacity tail)).sequenceCounter &&& 1 =
      0 := by
  rw [hfront.tail_eq]
  apply href.even _ (RingIndex.slot_lt _ _)
  intro hmarked
  have hroom : items.length < layout.capacity.size := by
    have hok := href.producerOk
    cases hpc : queue.producer with
    | pushWrite item head start sequence =>
        rw [hpc] at hok
        exact hok.1.room
    | pushWriting item head start sequence =>
        rw [hpc] at hok
        exact hok.1.room
    | pushSettle item head start sequence =>
        rw [hpc] at hok
        exact hok.1.room
    | _ =>
        rw [hpc] at hmarked
        cases hmarked
  exact (href.slot_head_ne_slot_tail hroom hfront.length_pos).symm

end Refines

/-! ## Every step refines the queue -/

/-- The queue at this buffer behaves as a bounded queue so far. -/
def Refined (layout : Layout) (base : ℕ) (queue : Queue α) : Prop :=
  ∃ history items, Refines layout base queue history items

theorem Refines.refined
    (href : Refines layout base queue history items) :
    Refined layout base queue :=
  ⟨history, items, href⟩

theorem settled_even (sequence : UInt64) :
    (sequence + 2 &&& ~~~1) &&& 1 = 0 := by
  rw [UInt64.and_assoc]
  have hclear : (~~~1 &&& 1 : UInt64) = 0 := by decide
  rw [hclear, UInt64.and_zero]

theorem Refines.head_sub_tail
    {head : UInt64} (href : Refines layout base queue history items)
    (hhead : head = queue.head) :
    (head - queue.tail).toNat = items.length := by
  rw [hhead, href.head_eq]
  exact RingIndex.add_sub_toNat layout.capacity href.history.length_le

theorem stepProducer_refined
    {next : Queue α} (href : Refines layout base queue history items)
    (hstep : stepProducer layout queue = some next) :
    Refined layout base next := by
  have hok := href.producerOk
  have hproduce : ∀ pc : ProducerPc α,
      pc.marked = queue.producer.marked →
      ProducerOk layout base queue items pc →
        Refined layout base (queue.produce pc) := by
    intro pc hmarked hpc
    exact (href.produce hmarked hpc).refined
  have hcase := stepProducer_producerStep hstep
  generalize hpc : queue.producer = pc at hcase hok
  cases hcase with
  | refused item hclear =>
      rw [href.initialized] at hclear
      cases hclear
  | checked item hset => exact hproduce _ (by rw [hpc]; rfl) trivial
  | headRead item => exact hproduce _ (by rw [hpc]; rfl) rfl
  | full item head hfull =>
      rw [href.head_sub_tail hok] at hfull
      have hidle : Refines layout base (queue.produce .idle) history items :=
        href.produce (by rw [hpc]; rfl) trivial
      have hlength := le_antisymm href.history.length_le hfull
      exact (hidle.emit (.full hlength)).refined
  | tailRead item head hroom =>
      rw [href.head_sub_tail hok] at hroom
      exact hproduce _ (by rw [hpc]; rfl) ⟨hok, hroom⟩
  | bufferRead item head =>
      exact hproduce _ (by rw [hpc]; rfl) ⟨hok, href.buffer_eq⟩
  | sequenceRead item head start => exact hproduce _ (by rw [hpc]; rfl) hok
  | marked item head start sequence =>
      obtain ⟨hroom, rfl⟩ := hok
      rw [hroom.head_eq]
      refine (href.produce_store hroom.room
        (storesAt_storeSequence _ _ queue _) ?_ ?_).refined
      · intro hmarked
        cases hmarked
      · exact ⟨⟨rfl, hroom.room⟩, rfl⟩
  | begun item head start sequence =>
      obtain ⟨hroom, rfl⟩ := hok
      rw [hroom.head_eq]
      refine (href.produce_store hroom.room
        (storesAt_storeData _ _ queue _) ?_ ?_).refined
      · intro hmarked
        cases hmarked
      · exact ⟨⟨rfl, hroom.room⟩, rfl⟩
  | written item head start sequence =>
      obtain ⟨hroom, rfl⟩ := hok
      rw [hroom.head_eq]
      refine (href.produce_store hroom.room
        (storesAt_storeData _ _ queue _) ?_ ?_).refined
      · intro hmarked
        cases hmarked
      · exact ⟨⟨rfl, hroom.room⟩, rfl, queue.storeData_slots_data _ _ _⟩
  | settled item head start sequence =>
      obtain ⟨hroom, rfl, hwritten⟩ := hok
      rw [hroom.head_eq] at hwritten ⊢
      refine (href.produce_store hroom.room
        (storesAt_storeSequence _ _ queue _) ?_ ?_).refined
      · intro _
        rw [Queue.storeSequence_slots_sequenceCounter]
        exact settled_even sequence
      · refine ⟨⟨rfl, hroom.room⟩, ?_⟩
        rw [Queue.storeSequence_slots_data]
        exact hwritten
  | published item head => exact (href.publish hpc).refined

theorem Refines.head_eq_tail_iff
    {tail : UInt64} (href : Refines layout base queue history items)
    (htail : tail = queue.tail) :
    queue.head = tail ↔ items.length = 0 := by
  rw [htail, href.head_eq]
  exact RingIndex.add_eq_self_iff layout.capacity href.history.length_le

theorem stepConsumer_refined
    [Inhabited α] {next : Queue α}
    (href : Refines layout base queue history items)
    (hstep : stepConsumer layout queue = some next) :
    Refined layout base next := by
  have hok := href.consumerOk
  have hconsume : ∀ pc : ConsumerPc α,
      (queue.consumer.clearing = true → pc.clearing = true) →
      ConsumerOk layout base queue items pc →
        Refined layout base (queue.consume pc) := by
    intro pc hclearing hpc
    exact (href.consume hclearing hpc).refined
  have hidle : queue.consumer.clearing = false →
      Refines layout base (queue.consume .idle) history items := by
    intro hbefore
    refine href.consume ?_ trivial
    rw [hbefore]
    intro hclearing
    cases hclearing
  have hclear : ∀ (data : Payload α) (pc : ConsumerPc α),
      0 < items.length → pc.clearing = true →
      ConsumerOk layout base
        (queue.storeData base (slot layout.capacity queue.tail) data) items
        pc →
        Refined layout base ((queue.storeData base
          (slot layout.capacity queue.tail) data).consume pc) := by
    intro data pc hitem hclearing hpc
    exact (href.consume_store hitem hclearing hpc).refined
  have hcase := stepConsumer_consumerStep hstep
  generalize hpc : queue.consumer = pc at hcase hok
  cases hcase with
  | refused mode hclear =>
      rw [href.initialized] at hclear
      cases hclear
  | checked mode hset =>
      exact hconsume _ (by simp [hpc, ConsumerPc.clearing]) trivial
  | tailRead mode => exact hconsume _ (by simp [hpc, ConsumerPc.clearing]) rfl
  | empty mode tail hempty =>
      rw [href.head_eq_tail_iff hok, List.length_eq_zero_iff] at hempty
      subst hempty
      exact ((hidle (by rw [hpc]; rfl)).emit .empty).refined
  | headRead mode tail hitem =>
      rw [ne_eq, href.head_eq_tail_iff hok] at hitem
      apply hconsume _ (by simp [hpc, ConsumerPc.clearing])
      cases items with
      | nil => exact absurd rfl hitem
      | cons front rest => exact ⟨front, hok, rfl⟩
  | bufferRead mode tail =>
      exact hconsume _ (by simp [hpc, ConsumerPc.clearing])
        ⟨href.buffer_eq, hok⟩
  | marked mode tail start hodd =>
      obtain ⟨rfl, front, hfront⟩ := hok
      exact absurd (href.even_tail hfront) hodd
  | firstRead mode tail start =>
      obtain ⟨rfl, front, hfront⟩ := hok
      exact hconsume _ (by simp [hpc, ConsumerPc.clearing])
        ⟨rfl, ⟨front, hfront⟩, rfl⟩
  | dataRead mode tail start first =>
      obtain ⟨rfl, ⟨front, hfront⟩, hfirst⟩ := hok
      have hdata := href.data_tail (by rw [hpc]; rfl) hfront
      exact hconsume _ (by simp [hpc, ConsumerPc.clearing])
        ⟨rfl, ⟨front, hfront, hdata⟩, hfirst⟩
  | changed mode tail start first item hchanged =>
      obtain ⟨rfl, ⟨front, hfront, -⟩, hfirst⟩ := hok
      rcases hchanged with hchanged | hodd
      · exact absurd hfirst.symm hchanged
      · exact absurd (href.even_tail hfront) hodd
  | taken tail start first item =>
      obtain ⟨rfl, ⟨front, hfront, hread⟩, -⟩ := hok
      exact hconsume _ (fun _ => rfl) ⟨rfl, front, hfront, hread⟩
  | peeked tail start first item =>
      obtain ⟨rfl, ⟨front, hfront, rfl⟩, -⟩ := hok
      obtain ⟨rest, rfl⟩ := List.head?_eq_some_iff.mp hfront.front
      exact ((hidle (by rw [hpc]; rfl)).emit (.peeked front rest)).refined
  | byteWiped tail start item index hindex =>
      obtain ⟨rfl, front, hfront, hread⟩ := hok
      rw [hfront.tail_eq]
      exact hclear _ _ hfront.length_pos rfl
        ⟨rfl, front, ⟨rfl, hfront.front⟩, hread⟩
  | wiped tail start item index hindex =>
      exact hconsume _ (fun _ => rfl) hok
  | restoring tail start item =>
      obtain ⟨rfl, front, hfront, hread⟩ := hok
      rw [hfront.tail_eq]
      exact hclear _ _ hfront.length_pos rfl
        ⟨rfl, front, ⟨rfl, hfront.front⟩, hread⟩
  | restored tail start item =>
      obtain ⟨rfl, front, hfront, hread⟩ := hok
      rw [hfront.tail_eq]
      exact hclear _ _ hfront.length_pos rfl
        ⟨front, ⟨rfl, hfront.front⟩, hread⟩
  | published tail item =>
      obtain ⟨front, rest, rfl, -, hretired⟩ := href.retire hpc
      exact hretired.refined

end SlotQueue
end ShawnCore
