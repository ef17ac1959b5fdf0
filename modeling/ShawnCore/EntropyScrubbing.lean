import ShawnCore.EntropyFifo

/-!
# One producer and one consumer of the entropy queue

`EntropyQueue` by itself: one thread calls `push`, another one calls `pop`, and
their accesses to the slots and to the two counters interleave.  The queue is
first-in first-out, and a slot which holds no chunk is all zero unless a push
in progress has begun to write it: `pop` clears a slot before it gives it back.
-/

namespace ShawnCore
namespace Entropy

open BoundedFifo (History)
open ByteBlocks
open RingIndex (slot)

/-! ## The machine -/

/-- The consumer is inside `pop`, which was called with this buffer. -/
inductive ConsumerPc where
  | idle
  | popping (given : Chunk) (pc : PopPc)

/-- A push has ended, or a pop has returned with its buffer. -/
inductive QueueEvent where
  | pushed (chunk : Chunk)
  | full
  | returned (result : Bool) (given out : Chunk)
deriving DecidableEq

structure QueueSystem where
  shared : Shared
  producer : ProducerPc
  consumer : ConsumerPc
  out : Chunk
  transcript : List QueueEvent

inductive QueueAction where
  | push (chunk : Chunk)
  | producer
  | pop (out : Chunk)
  | consumer

/-- What `pop` has copied to the caller's buffer. -/
def PopPc.out? : PopPc → Option Chunk
  | .zeroize _ chunk _ => some chunk
  | .publish _ chunk => some chunk
  | _ => none

def Event.queue? : Event → Option QueueEvent
  | .pushed chunk => some (.pushed chunk)
  | .full => some .full
  | _ => none

/-- `EntropyQueue::new`. -/
def QueueSystem.initial (out : Chunk) : QueueSystem where
  shared := System.initial.shared
  producer := .idle
  consumer := .idle
  out := out
  transcript := []

namespace QueueSystem

def produce
    (system : QueueSystem) (pc : ProducerPc) (access : Access)
    (event : Option QueueEvent) : QueueSystem :=
  { system with
    shared := system.shared.perform access
    producer := pc
    transcript := system.transcript ++ event.toList }

def consume
    (system : QueueSystem) (pc : ConsumerPc) (access : Access)
    (out : Chunk) (event : Option QueueEvent) : QueueSystem :=
  { system with
    shared := system.shared.perform access
    consumer := pc
    out := out
    transcript := system.transcript ++ event.toList }

end QueueSystem

def stepConsumer (system : QueueSystem) : ConsumerPc → Option QueueSystem
  | .idle => none
  | .popping given pc =>
      match stepPop system.shared pc with
      | (.running pc, access) =>
          some (system.consume (.popping given pc) access
            (pc.out?.getD system.out) none)
      | (.done none, access) =>
          some (system.consume .idle access system.out
            (some (.returned false given system.out)))
      | (.done (some _), access) =>
          some (system.consume .idle access system.out
            (some (.returned true given system.out)))

def stepQueue (system : QueueSystem) : QueueAction → Option QueueSystem
  | .push chunk =>
      match system.producer with
      | .idle => some (system.produce (.loadHead chunk) .nothing none)
      | _ => none
  | .producer =>
      match stepProducer system.shared system.producer with
      | none => none
      | some (pc, access, event) =>
          some (system.produce pc access (event.bind Event.queue?))
  | .pop out =>
      match system.consumer with
      | .idle => some (system.consume (.popping out .loadTail) .nothing out none)
      | _ => none
  | .consumer => stepConsumer system system.consumer

/-! ## The invariant -/

/-- The slot holds one of the chunks from `tail` on. -/
def Occupied (tail : UInt64) (count index : ℕ) : Prop :=
  ∃ offset, offset < count ∧
    slot capacity (tail + UInt64.ofNat offset) = index

/-- A push in progress has already written to the slot. -/
def ProducerPc.HasWritten (index : ℕ) : ProducerPc → Prop
  | .write _ head offset => 0 < offset ∧ slot capacity head = index
  | .publish _ head => slot capacity head = index
  | _ => False

def ConsumerPc.Clearing : ConsumerPc → Prop
  | .idle => False
  | .popping _ pc => pc.clearing

/-- What `pop` has cleared of the slot at its tail. -/
def Cleared (shared : Shared) : PopPc → Prop
  | .zeroize tail _ offset => ∀ position, position < offset →
      shared.slots (slot capacity tail) position = 0
  | .publish tail _ => ∀ position, position < 32 →
      shared.slots (slot capacity tail) position = 0
  | _ => True

def ConsumerOk (shared : Shared) (items : List Chunk) (out : Chunk) :
    ConsumerPc → Prop
  | .idle => True
  | .popping given pc =>
      PopOk shared items pc ∧ Cleared shared pc ∧ out = pc.out?.getD given

def QueueEvent.fifo : QueueEvent → BoundedFifo.Event Chunk
  | .pushed chunk => .pushed chunk
  | .full => .full
  | .returned true _ out => .popped out
  | .returned false _ _ => .empty

structure QueueOk (system : QueueSystem) (items : List Chunk) : Prop where
  history : History capacity.size (system.transcript.map QueueEvent.fifo)
    items
  head_eq : system.shared.head =
    system.shared.tail + UInt64.ofNat items.length
  stored : ∀ offset chunk, items[offset]? = some chunk →
    (system.consumer.Clearing → 0 < offset) →
      system.shared.slotBytes
        (slot capacity (system.shared.tail + UInt64.ofNat offset)) 32 =
          chunk.bytes
  producerOk : ProducerOk system.shared items system.producer
  consumerOk : ConsumerOk system.shared items system.out system.consumer
  scrubbed : ∀ index, ¬ Occupied system.shared.tail items.length index →
    ¬ system.producer.HasWritten index →
      ∀ position, position < 32 → system.shared.slots index position = 0
  untouched : ∀ given out, .returned false given out ∈ system.transcript →
    out = given

theorem initial_queueOk (out : Chunk) :
    QueueOk (QueueSystem.initial out) [] := by
  constructor
  · exact .nil
  · rfl
  · intro offset chunk hchunk
    cases hchunk
  · trivial
  · trivial
  · intro index _ _ position _
    rfl
  · intro given buffer hmem
    cases hmem

variable {system next : QueueSystem} {items : List Chunk}

namespace QueueOk

theorem slot_item_ne_slot_head
    (hqueue : QueueOk system items) (hroom : items.length < capacity.size)
    {offset : ℕ} (hoffset : offset < items.length) :
    slot capacity (system.shared.tail + UInt64.ofNat offset) ≠
      slot capacity system.shared.head := by
  rw [hqueue.head_eq]
  exact RingIndex.slot_add_ne_slot_add capacity hoffset hroom

theorem tail_occupied (hitem : 0 < items.length) :
    Occupied system.shared.tail items.length
      (slot capacity system.shared.tail) := by
  refine ⟨0, hitem, ?_⟩
  simp

theorem slot_tail_ne_slot_head
    (hqueue : QueueOk system items) (hroom : items.length < capacity.size)
    (hitem : 0 < items.length) :
    slot capacity system.shared.tail ≠ slot capacity system.shared.head := by
  have hne := hqueue.slot_item_ne_slot_head hroom hitem
  simpa using hne

theorem history_snoc
    {event : QueueEvent} {after : List Chunk} (hqueue : QueueOk system items)
    (hstep : BoundedFifo.Step capacity.size items event.fifo after) :
    History capacity.size
      ((system.transcript ++ [event]).map QueueEvent.fifo) after := by
  rw [List.map_append]
  exact hqueue.history.snoc hstep

theorem untouched_snoc
    {event : QueueEvent} (hqueue : QueueOk system items)
    (hevent : ∀ given out, event = .returned false given out → out = given) :
    ∀ given out, .returned false given out ∈ system.transcript ++ [event] →
      out = given := by
  intro given out hmem
  rw [List.mem_append, List.mem_singleton] at hmem
  cases hmem with
  | inl hold => exact hqueue.untouched given out hold
  | inr hnew => exact hevent given out hnew.symm

/-! ## Steps of the producer -/

/-- The producer moves without an access which writes. -/
theorem produce
    {pc : ProducerPc} (hqueue : QueueOk system items)
    (hok : ProducerOk system.shared items pc)
    (hwritten : ∀ index, system.producer.HasWritten index →
      pc.HasWritten index) :
    QueueOk (system.produce pc .nothing none) items := by
  constructor
  · rw [QueueSystem.produce, Option.toList_none, List.append_nil]
    exact hqueue.history
  · exact hqueue.head_eq
  · exact hqueue.stored
  · exact hok
  · exact hqueue.consumerOk
  · intro index houtside hunwritten
    apply hqueue.scrubbed index houtside
    intro hbefore
    exact hunwritten (hwritten index hbefore)
  · rw [QueueSystem.produce, Option.toList_none, List.append_nil]
    exact hqueue.untouched

theorem produce_full
    (hqueue : QueueOk system items) (hfull : items.length = capacity.size)
    (hunwritten : ∀ index, ¬ system.producer.HasWritten index) :
    QueueOk (system.produce .idle .nothing (some .full)) items := by
  constructor
  · exact hqueue.history_snoc (.full hfull)
  · exact hqueue.head_eq
  · exact hqueue.stored
  · trivial
  · exact hqueue.consumerOk
  · intro index houtside _
    exact hqueue.scrubbed index houtside (hunwritten index)
  · apply hqueue.untouched_snoc
    intro given out hevent
    cases hevent

end QueueOk

theorem ConsumerOk.frame
    {shared after : Shared} {extended : List Chunk} {out : Chunk}
    {pc : ConsumerPc} (hok : ConsumerOk shared items out pc)
    (htail : after.tail = shared.tail)
    (hfront : ∀ chunk, items.head? = some chunk →
      extended.head? = some chunk)
    (hslot : 0 < items.length →
      after.slots (slot capacity shared.tail) =
        shared.slots (slot capacity shared.tail)) :
    ConsumerOk after extended out pc := by
  cases pc with
  | idle => trivial
  | popping given pc =>
      obtain ⟨hpop, hcleared, hout⟩ := hok
      refine ⟨hpop.frame htail hfront, ?_, hout⟩
      -- The slot which is being cleared holds the first chunk.
      have hkeep : ∀ tail chunk, Front shared items tail chunk →
          after.slots (slot capacity tail) =
            shared.slots (slot capacity tail) := by
        intro tail chunk hchunk
        rw [hchunk.tail_eq]
        exact hslot hchunk.length_pos
      cases pc with
      | zeroize tail chunk offset =>
          intro position hposition
          rw [hkeep tail chunk hpop]
          exact hcleared position hposition
      | publish tail chunk =>
          intro position hposition
          rw [hkeep tail chunk hpop]
          exact hcleared position hposition
      | _ => trivial

namespace QueueOk

/-- The producer writes a byte of the slot at `head`, which holds no chunk. -/
theorem produce_store
    {pc : ProducerPc} {offset : ℕ} {value : UInt8}
    (hqueue : QueueOk system items) (hroom : items.length < capacity.size)
    (hok : ProducerOk
      (system.shared.perform
        (.storeByte (slot capacity system.shared.head) offset value))
      items pc)
    (hbefore : ∀ index, system.producer.HasWritten index →
      index = slot capacity system.shared.head)
    (hafter : pc.HasWritten (slot capacity system.shared.head)) :
    QueueOk (system.produce pc
      (.storeByte (slot capacity system.shared.head) offset value) none)
        items := by
  constructor
  · rw [QueueSystem.produce, Option.toList_none, List.append_nil]
    exact hqueue.history
  · exact hqueue.head_eq
  · intro position chunk hchunk hclearing
    have hlt := (List.getElem?_eq_some_iff.1 hchunk).1
    have hne := hqueue.slot_item_ne_slot_head hroom hlt
    exact (slotBytes_storeByte_of_ne hne offset 32 value).trans
      (hqueue.stored position chunk hchunk hclearing)
  · exact hok
  · refine hqueue.consumerOk.frame rfl (fun _ hfront => hfront) ?_
    intro hitem
    have hne := hqueue.slot_tail_ne_slot_head hroom hitem
    simp [QueueSystem.produce, Shared.perform, hne]
  · intro index houtside hunwritten position hposition
    have hne : index ≠ slot capacity system.shared.head := by
      rintro rfl
      exact hunwritten hafter
    have hold := hqueue.scrubbed index houtside
      (fun hwritten => hne (hbefore index hwritten)) position hposition
    simpa [QueueSystem.produce, Shared.perform, hne] using hold
  · rw [QueueSystem.produce, Option.toList_none, List.append_nil]
    exact hqueue.untouched

/-- The producer publishes the chunk it has written. -/
theorem publish
    {chunk : Chunk} {head : UInt64} (hqueue : QueueOk system items)
    (hpc : system.producer = .publish chunk head) :
    QueueOk (system.produce .idle (.storeHead (head + 1))
      (some (.pushed chunk))) (items ++ [chunk]) := by
  have hok := hqueue.producerOk
  rw [hpc] at hok
  obtain ⟨hroom, hwritten⟩ := hok
  have hlength : (items ++ [chunk]).length = items.length + 1 := by simp
  constructor
  · exact hqueue.history_snoc (.pushed chunk hroom.room)
  · rw [hlength, RingIndex.add_succ]
    exact congrArg (· + 1) (hroom.head_eq.trans hqueue.head_eq)
  · intro offset value hvalue hclearing
    by_cases hoffset : offset < items.length
    · rw [List.getElem?_append_left hoffset] at hvalue
      exact hqueue.stored offset value hvalue hclearing
    · have hlast := (List.getElem?_eq_some_iff.1 hvalue).1
      rw [hlength] at hlast
      have hsame : offset = items.length := by omega
      rw [hsame, List.getElem?_append_right le_rfl, Nat.sub_self] at hvalue
      cases hvalue
      rw [hsame]
      rw [hroom.head_eq, hqueue.head_eq] at hwritten
      exact hwritten
  · trivial
  · refine hqueue.consumerOk.frame rfl ?_ fun _ => rfl
    intro front hfront
    rw [List.head?_append, hfront]
    rfl
  · intro index houtside _
    have hbefore : ¬ Occupied system.shared.tail items.length index := by
      rintro ⟨offset, hoffset, hslot⟩
      apply houtside
      refine ⟨offset, ?_, hslot⟩
      rw [hlength]
      exact hoffset.trans (Nat.lt_succ_self _)
    refine hqueue.scrubbed index hbefore ?_
    rw [hpc]
    intro hslot
    apply houtside
    refine ⟨items.length, ?_, ?_⟩
    · rw [hlength]
      exact Nat.lt_succ_self _
    · rw [hroom.head_eq, hqueue.head_eq] at hslot
      exact hslot
  · apply hqueue.untouched_snoc
    intro given out hevent
    cases hevent

end QueueOk

theorem stepProducer_queueOk
    {pc : ProducerPc} {access : Access} {event : Option Event}
    (hqueue : QueueOk system items)
    (hstep : stepProducer system.shared system.producer =
      some (pc, access, event)) :
    ∃ remaining,
      QueueOk (system.produce pc access (event.bind Event.queue?))
        remaining := by
  have hcase := stepProducer_producerStep hqueue.head_eq
    hqueue.history.length_le hqueue.producerOk hstep
  generalize hpc : system.producer = before at hcase
  cases hcase with
  | headLoaded chunk =>
      refine ⟨items, hqueue.produce rfl ?_⟩
      rw [hpc]
      intro index hwritten
      exact hwritten
  | full chunk head hlength =>
      refine ⟨items, hqueue.produce_full hlength ?_⟩
      rw [hpc]
      intro index hwritten
      exact hwritten
  | entered chunk head hok =>
      refine ⟨items, hqueue.produce hok ?_⟩
      rw [hpc]
      intro index hwritten
      cases hwritten
  | stored chunk offset byte hroom hok =>
      refine ⟨items, hqueue.produce_store hroom hok ?_ ⟨Nat.succ_pos _, rfl⟩⟩
      rw [hpc]
      intro index hwritten
      exact hwritten.2.symm
  | written chunk head hok =>
      refine ⟨items, hqueue.produce hok ?_⟩
      rw [hpc]
      intro index hwritten
      exact hwritten.2
  | published chunk head =>
      exact ⟨items ++ [chunk], hqueue.publish hpc⟩

/-! ## Steps of the consumer -/

namespace QueueOk

/-- The consumer moves without an access which writes. -/
theorem consume
    {pc : ConsumerPc} {out : Chunk} (hqueue : QueueOk system items)
    (hclearing : system.consumer.Clearing → pc.Clearing)
    (hok : ConsumerOk system.shared items out pc) :
    QueueOk (system.consume pc .nothing out none) items := by
  constructor
  · rw [QueueSystem.consume, Option.toList_none, List.append_nil]
    exact hqueue.history
  · exact hqueue.head_eq
  · intro offset chunk hchunk hlater
    apply hqueue.stored offset chunk hchunk
    intro hbefore
    exact hlater (hclearing hbefore)
  · exact hqueue.producerOk
  · exact hok
  · exact hqueue.scrubbed
  · rw [QueueSystem.consume, Option.toList_none, List.append_nil]
    exact hqueue.untouched

theorem return_empty
    {given : Chunk} (hqueue : QueueOk system []) (hout : system.out = given) :
    QueueOk (system.consume .idle .nothing system.out
      (some (.returned false given system.out))) [] := by
  constructor
  · exact hqueue.history_snoc .empty
  · exact hqueue.head_eq
  · intro offset chunk hchunk
    cases hchunk
  · exact hqueue.producerOk
  · trivial
  · exact hqueue.scrubbed
  · apply hqueue.untouched_snoc
    intro before after hevent
    cases hevent
    exact hout

/-- The consumer clears a byte of the slot at `tail`, whose chunk it has
read. -/
theorem consume_clear
    {given : Chunk} {tail : UInt64} {chunk : Chunk} {offset : ℕ}
    (hqueue : QueueOk system items)
    (hpc : system.consumer = .popping given (.zeroize tail chunk offset)) :
    QueueOk (system.consume (.popping given (.zeroize tail chunk (offset + 1)))
      (.storeByte (slot capacity tail) offset 0) chunk none) items := by
  have hok := hqueue.consumerOk
  rw [hpc] at hok
  obtain ⟨hfront, hcleared, -⟩ := hok
  have htail := hfront.tail_eq
  subst htail
  constructor
  · rw [QueueSystem.consume, Option.toList_none, List.append_nil]
    exact hqueue.history
  · exact hqueue.head_eq
  · intro position value hvalue hlater
    have hpos : 0 < position := hlater trivial
    have hlt := (List.getElem?_eq_some_iff.1 hvalue).1
    have hne : slot capacity (system.shared.tail + UInt64.ofNat position) ≠
        slot capacity system.shared.tail :=
      RingIndex.slot_add_ne_slot capacity hpos
        (hlt.trans_le hqueue.history.length_le)
    exact (slotBytes_storeByte_of_ne hne offset 32 0).trans
      (hqueue.stored position value hvalue fun _ => hpos)
  · refine hqueue.producerOk.frame rfl le_rfl ?_
    intro hroom
    have hne := hqueue.slot_tail_ne_slot_head hroom hfront.length_pos
    simp [QueueSystem.consume, Shared.perform, hne.symm]
  · refine ⟨⟨rfl, hfront.front⟩, ?_, rfl⟩
    intro position hposition
    by_cases hlast : position = offset
    · simp [QueueSystem.consume, Shared.perform, hlast]
    · have hearlier := hcleared position (by omega)
      simpa [QueueSystem.consume, Shared.perform, hlast] using hearlier
  · intro index houtside hunwritten position hposition
    have hne : index ≠ slot capacity system.shared.tail := by
      rintro rfl
      exact houtside (tail_occupied hfront.length_pos)
    have hold := hqueue.scrubbed index houtside hunwritten position hposition
    simpa [QueueSystem.consume, Shared.perform, hne] using hold
  · rw [QueueSystem.consume, Option.toList_none, List.append_nil]
    exact hqueue.untouched

/-- The consumer gives the slot at `tail` back. -/
theorem retire
    {given : Chunk} {tail : UInt64} {chunk : Chunk}
    (hqueue : QueueOk system items)
    (hpc : system.consumer = .popping given (.publish tail chunk)) :
    ∃ rest, QueueOk (system.consume .idle (.storeTail (tail + 1)) system.out
      (some (.returned true given system.out))) rest := by
  have hok := hqueue.consumerOk
  rw [hpc] at hok
  obtain ⟨hfront, hcleared, hout⟩ := hok
  obtain ⟨rest, hitems⟩ := List.head?_eq_some_iff.1 hfront.front
  have htail := hfront.tail_eq
  subst htail hitems
  have hchunk : system.out = chunk := hout
  refine ⟨rest, ?_⟩
  constructor
  · rw [hchunk]
    exact hqueue.history_snoc (.popped chunk rest)
  · have hnext := hqueue.head_eq
    rw [List.length_cons, ← RingIndex.succ_add] at hnext
    exact hnext
  · intro offset value hvalue _
    have hslot := hqueue.stored (offset + 1) value hvalue
      fun _ => Nat.succ_pos _
    rw [← RingIndex.succ_add] at hslot
    exact hslot
  · exact hqueue.producerOk.frame rfl (Nat.le_succ _) fun _ => rfl
  · trivial
  · intro index houtside hunwritten
    by_cases hindex : index = slot capacity system.shared.tail
    · rw [hindex]
      exact hcleared
    · refine hqueue.scrubbed index ?_ hunwritten
      rintro ⟨offset, hoffset, hslot⟩
      cases offset with
      | zero =>
          apply hindex
          rw [← hslot]
          simp
      | succ offset =>
          apply houtside
          rw [← RingIndex.succ_add] at hslot
          exact ⟨offset, Nat.lt_of_succ_lt_succ hoffset, hslot⟩
  · apply hqueue.untouched_snoc
    intro before after hevent
    cases hevent

end QueueOk

theorem stepConsumer_queueOk
    (hqueue : QueueOk system items)
    (hstep : stepConsumer system system.consumer = some next) :
    ∃ remaining, QueueOk next remaining := by
  have hok := hqueue.consumerOk
  cases hconsumer : system.consumer with
  | idle =>
      rw [hconsumer] at hstep
      cases hstep
  | popping given pc =>
      rw [hconsumer] at hok hstep
      obtain ⟨hpop, hcleared, hout⟩ := hok
      have hquiet : ∀ (after : PopPc) (out : Chunk),
          (pc.clearing → after.clearing) →
          ConsumerOk system.shared items out (.popping given after) →
            QueueOk (system.consume (.popping given after) .nothing out none)
              items := by
        intro after out hclearing hafter
        refine hqueue.consume ?_ hafter
        rw [hconsumer]
        exact hclearing
      have hstored : ¬ pc.clearing → ∀ front, items.head? = some front →
          system.shared.slotBytes (slot capacity system.shared.tail) 32 =
            front.bytes := by
        intro hclearing front hfront
        have hslot := hqueue.stored 0 front
          (List.head?_eq_getElem?.symm.trans hfront) ?_
        · simpa using hslot
        · rw [hconsumer]
          exact fun hclear => absurd hclear hclearing
      rcases hcase : stepPop system.shared pc with ⟨progress, access⟩
      rw [stepConsumer, hcase] at hstep
      cases stepPop_popStep hqueue.head_eq hqueue.history.length_le hstored
        hpop hcase with
      | tailLoaded =>
          cases hstep
          exact ⟨items, hquiet _ _ False.elim ⟨rfl, trivial, hout⟩⟩
      | empty tail hnone =>
          cases hstep
          subst hnone
          exact ⟨[], hqueue.return_empty hout⟩
      | found tail hread =>
          cases hstep
          exact ⟨items, hquiet _ _ False.elim ⟨hread, trivial, hout⟩⟩
      | byteRead tail bytes byte hread =>
          cases hstep
          exact ⟨items, hquiet _ _ False.elim ⟨hread, trivial, hout⟩⟩
      | chunkRead tail chunk hfront =>
          cases hstep
          refine ⟨items, hquiet _ _ (fun _ => trivial) ⟨hfront, ?_, rfl⟩⟩
          intro position hposition
          exact absurd hposition (Nat.not_lt_zero _)
      | byteCleared tail chunk offset =>
          cases hstep
          exact ⟨items, hqueue.consume_clear hconsumer⟩
      | chunkCleared tail chunk offset hoffset =>
          cases hstep
          refine ⟨items, hquiet _ _ (fun _ => trivial) ⟨hpop, ?_, rfl⟩⟩
          intro position hposition
          exact hcleared position (by omega)
      | popped tail chunk =>
          cases hstep
          exact hqueue.retire hconsumer

theorem stepQueue_queueOk
    {action : QueueAction} (hqueue : QueueOk system items)
    (hstep : stepQueue system action = some next) :
    ∃ remaining, QueueOk next remaining := by
  cases action with
  | push chunk =>
      simp only [stepQueue] at hstep
      split at hstep
      next hidle =>
        cases hstep
        refine ⟨items, hqueue.produce trivial ?_⟩
        rw [hidle]
        intro index hwritten
        exact hwritten
      next => cases hstep
  | producer =>
      simp only [stepQueue] at hstep
      split at hstep
      next => cases hstep
      next pc access event hproducer =>
        cases hstep
        exact stepProducer_queueOk hqueue hproducer
  | pop out =>
      simp only [stepQueue] at hstep
      split at hstep
      next hidle =>
        cases hstep
        refine ⟨items, hqueue.consume ?_ ⟨trivial, trivial, rfl⟩⟩
        rw [hidle]
        exact False.elim
      next => cases hstep
  | consumer => exact stepConsumer_queueOk hqueue hstep

/-! ## Runs -/

def pushes (transcript : List QueueEvent) : List Chunk :=
  (transcript.map QueueEvent.fifo).filterMap BoundedFifo.Event.pushed?

/-- The buffers which `pop` has returned with `true`. -/
def pops (transcript : List QueueEvent) : List Chunk :=
  (transcript.map QueueEvent.fifo).filterMap BoundedFifo.Event.popped?

/-- The number of chunks between the two counters. -/
def Shared.queued (shared : Shared) : ℕ :=
  (shared.head - shared.tail).toNat

structure QueueLaw (system : QueueSystem) : Prop where
  order : ∃ items, pushes system.transcript =
    pops system.transcript ++ items ∧ items.length = system.shared.queued
  full : ∀ before after, system.transcript = before ++ .full :: after →
    (pushes before).length = (pops before).length + capacity.size
  empty : ∀ before after given out,
    system.transcript = before ++ .returned false given out :: after →
      pushes before = pops before ∧ out = given
  scrubbed : ∀ index,
    ¬ Occupied system.shared.tail system.shared.queued index →
    ¬ system.producer.HasWritten index →
      ∀ position, position < 32 → system.shared.slots index position = 0

theorem QueueOk.queued_eq (hqueue : QueueOk system items) :
    system.shared.queued = items.length := by
  rw [Shared.queued, hqueue.head_eq]
  exact RingIndex.add_sub_toNat capacity hqueue.history.length_le

theorem QueueOk.step_of_split
    {before after : List QueueEvent} {event : QueueEvent}
    (hqueue : QueueOk system items)
    (hsplit : system.transcript = before ++ event :: after) :
    ∃ content remaining,
      pushes before = pops before ++ content ∧
        BoundedFifo.Step capacity.size content event.fifo remaining := by
  have hevents : system.transcript.map QueueEvent.fifo =
      before.map QueueEvent.fifo ++
        event.fifo :: after.map QueueEvent.fifo := by
    rw [hsplit, List.map_append, List.map_cons]
  obtain ⟨content, remaining, hbefore, hstep⟩ :=
    hqueue.history.step_of_split hevents
  exact ⟨content, remaining, hbefore.pushed_eq, hstep⟩

theorem QueueOk.queueLaw (hqueue : QueueOk system items) :
    QueueLaw system := by
  constructor
  · exact ⟨items, hqueue.history.pushed_eq, hqueue.queued_eq.symm⟩
  · intro before after hsplit
    obtain ⟨content, remaining, hcontent, hstep⟩ :=
      hqueue.step_of_split hsplit
    rw [hcontent, List.length_append]
    cases hstep with
    | full hfull => rw [hfull]
  · intro before after given out hsplit
    obtain ⟨content, remaining, hcontent, hstep⟩ :=
      hqueue.step_of_split hsplit
    constructor
    · cases hstep with
      | empty => rw [hcontent, List.append_nil]
    · apply hqueue.untouched given out
      rw [hsplit]
      exact List.mem_append_right _ List.mem_cons_self
  · rw [hqueue.queued_eq]
    exact hqueue.scrubbed

/-- In every interleaving of one producer and one consumer. -/
theorem entropy_queue_is_fifo_and_scrubbed
    {out : Chunk} {schedule : List QueueAction} {final : QueueSystem}
    (hrun : Execution.run stepQueue (QueueSystem.initial out) schedule =
      some final) :
    QueueLaw final := by
  have hinvariant : ∃ items, QueueOk final items :=
    Execution.run_invariant
      (fun _ _ _ hgood hstep => stepQueue_queueOk hgood.choose_spec hstep)
      ⟨[], initial_queueOk out⟩ hrun
  obtain ⟨items, hqueue⟩ := hinvariant
  exact hqueue.queueLaw

/-- A pop of the empty queue, a push, and a pop while a second push has begun
to write. -/
def pushAndPop : List QueueAction :=
  List.flatten
    [[.pop (Block.fill 32 7), .consumer, .consumer],
      .push (Block.fill 32 1) :: List.replicate 36 .producer,
      .push (Block.fill 32 2) :: List.replicate 20 .producer,
      .pop (Block.fill 32 8) :: List.replicate 69 .consumer]

theorem pushAndPop_transcript :
    (Execution.run stepQueue (QueueSystem.initial (Block.fill 32 9))
        pushAndPop).map QueueSystem.transcript =
      some [.returned false (Block.fill 32 7) (Block.fill 32 7),
        .pushed (Block.fill 32 1),
        .returned true (Block.fill 32 8) (Block.fill 32 1)] := by
  decide +kernel

theorem entropy_queue_is_fifo_and_scrubbed_after_pop :
    ∃ final, Execution.run stepQueue (QueueSystem.initial (Block.fill 32 9))
        pushAndPop = some final ∧
      pops final.transcript = [Block.fill 32 1] ∧ QueueLaw final := by
  obtain ⟨final, hrun, htranscript⟩ :=
    Option.map_eq_some_iff.mp pushAndPop_transcript
  refine ⟨final, hrun, ?_, entropy_queue_is_fifo_and_scrubbed hrun⟩
  rw [htranscript]
  rfl

end Entropy
end ShawnCore
