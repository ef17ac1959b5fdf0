import ShawnCore.SlotQueueFifo

/-!
# Peeking at a ring buffer

`RingBuffer` adds `peek` to the operations of a slot queue.  A peeked item stays
at the front until the consumer pops it, whatever the producer does meanwhile,
so the consumer may allocate between the peek and the pop.
-/

namespace ShawnCore
namespace SlotQueue

open BoundedFifo (History)

variable {α : Type} {layout : Layout} {base : ℕ} {queue next : Queue α}

/-! ## `init` -/

inductive IpcError
  | queueFull
  | notInitialized
  | alreadyInitialized
  | invalidMemory
deriving DecidableEq

/-- The checks of `init` on its arguments. -/
def validateBacking
    (layout : Layout) (slotSize slotAlign basePtr sizeInBytes : ℕ) :
    Except IpcError Unit :=
  if basePtr = 0 then
    .error .invalidMemory
  else if 2 ^ 64 ≤ layout.capacity.size * slotSize then
    .error .invalidMemory
  else if sizeInBytes < layout.capacity.size * slotSize then
    .error .invalidMemory
  else if basePtr % 4096 ≠ 0 ∨ basePtr % slotAlign ≠ 0 then
    .error .invalidMemory
  else
    .ok ()

namespace Queue

/-- `RingBuffer::new`, in a memory with these contents. -/
def new (slots : ℕ → ℕ → Slot α) : Queue α where
  buffer := 0
  head := 0
  tail := 0
  isInitialized := false
  slots := slots
  producer := .idle
  consumer := .idle
  transcript := []

def resetSequences (queue : Queue α) (base count : ℕ) : Queue α :=
  (List.range count).foldl
    (fun current index => current.storeSequence base index 0) queue

/-- A call of `init` while no other call is made.  The size and the alignment
of a slot are those of `CacheAlignedSlot<T>`. -/
def init (layout : Layout) (slotSize slotAlign : ℕ) (queue : Queue α)
    (basePtr sizeInBytes : ℕ) : Except IpcError (Queue α) :=
  match validateBacking layout slotSize slotAlign basePtr sizeInBytes with
  | .error failure => .error failure
  | .ok () =>
      if queue.isInitialized then
        .error .alreadyInitialized
      else
        .ok { queue.resetSequences basePtr layout.capacity.size with
          buffer := basePtr
          isInitialized := true }

theorem resetSequences_succ (queue : Queue α) (base count : ℕ) :
    queue.resetSequences base (count + 1) =
      (queue.resetSequences base count).storeSequence base count 0 := by
  simp [resetSequences, List.range_succ]

theorem resetSequences_sequenceCounter
    (queue : Queue α) (base : ℕ) {index count : ℕ} (hindex : index < count) :
    ((queue.resetSequences base count).slots base index).sequenceCounter =
      0 := by
  induction count with
  | zero => omega
  | succ count ih =>
      rw [resetSequences_succ]
      by_cases hlast : index = count
      · rw [hlast]
        exact storeSequence_slots_sequenceCounter _ _ _ _
      · rw [storeSequence_slots_of_ne _ _ hlast]
        exact ih (by omega)

theorem resetSequences_frame (queue : Queue α) (base count : ℕ) :
    (queue.resetSequences base count).head = queue.head ∧
      (queue.resetSequences base count).tail = queue.tail ∧
      (queue.resetSequences base count).producer = queue.producer ∧
      (queue.resetSequences base count).consumer = queue.consumer ∧
      (queue.resetSequences base count).transcript = queue.transcript := by
  induction count with
  | zero => exact ⟨rfl, rfl, rfl, rfl, rfl⟩
  | succ count ih =>
      rw [resetSequences_succ]
      exact ih

/-- A queue is ready once it has been initialized. -/
theorem init_ready
    {slots : ℕ → ℕ → Slot α} {slotSize slotAlign sizeInBytes : ℕ}
    (hinit : (new slots).init layout slotSize slotAlign base sizeInBytes =
      .ok queue) :
    Ready layout base queue := by
  unfold init at hinit
  split at hinit
  next => cases hinit
  next =>
    split_ifs at hinit
    obtain ⟨hhead, htail, hproducer, hconsumer, htranscript⟩ :=
      (new slots).resetSequences_frame base layout.capacity.size
    cases hinit
    constructor
    · rfl
    · rfl
    · exact hhead.trans htail.symm
    · intro index hindex
      change ((resetSequences _ base _).slots base
        index).sequenceCounter &&& 1 = 0
      rw [resetSequences_sequenceCounter _ _ hindex]
      exact UInt64.zero_and
    · exact hproducer
    · exact hconsumer
    · exact htranscript

end Queue

/-! ## `peek` -/

/-- The consumer is inside `peek`. -/
def ConsumerPc.peeking : ConsumerPc α → Bool
  | .readCheck mode => mode = .peek
  | .readTail mode => mode = .peek
  | .readHead mode _ => mode = .peek
  | .readBuffer mode _ => mode = .peek
  | .readFirst mode _ _ => mode = .peek
  | .readData mode _ _ _ => mode = .peek
  | .readSecond mode _ _ _ _ => mode = .peek
  | _ => false

/-- What both sides can see. -/
def Queue.shared (queue : Queue α) :
    ℕ × UInt64 × UInt64 × Bool × (ℕ → ℕ → Slot α) :=
  (queue.buffer, queue.head, queue.tail, queue.isInitialized, queue.slots)

/-- No step of a peek writes to shared memory. -/
theorem stepConsumer_shared_of_peeking
    [Inhabited α] (hpeeking : queue.consumer.peeking = true)
    (hstep : stepConsumer layout queue = some next) :
    next.shared = queue.shared := by
  have hcase := stepConsumer_consumerStep hstep
  generalize queue.consumer = pc at hcase hpeeking
  cases hcase with
  | taken | byteWiped | wiped | restoring | restored | published =>
      cases hpeeking
  | _ => rfl

/-- The behaviour of a ring buffer in a state which has performed this history
and holds these items. -/
structure PeekAllocatePop
    (layout : Layout) [Inhabited α] (queue : Queue α)
    (history : List (BoundedFifo.Event α)) (items : List α) : Prop where
  fifo : Fifo layout queue history items
  refines : History layout.capacity.size history items
  stable : ∀ before front middle event after,
    history = before ++ .peeked front :: (middle ++ event :: after) →
      (∀ earlier ∈ middle, earlier.popped? = none) → event.AgreesWith front
  unchanged : ∀ next, queue.consumer.peeking = true →
    stepConsumer layout queue = some next → next.shared = queue.shared

/-- In every state of every run the calls have returned outcomes of the bounded
queue, and from a successful peek to the next pop every peek and that pop have
returned the same item. -/
theorem peeked_item_stable
    [Inhabited α] {start final : Queue α} {schedule : List (Action α)}
    (hready : Ready layout base start)
    (hrun : Execution.run (step layout) start schedule = some final) :
    ∃ history items, PeekAllocatePop layout final history items := by
  have hrefined : Refined layout base final :=
    Execution.run_invariant
      (fun _ _ _ hgood hstep => step_refined hgood hstep)
      hready.refines.refined hrun
  obtain ⟨history, items, href⟩ := hrefined
  refine ⟨history, items, href.fifo, href.history, ?_, ?_⟩
  · intro before front middle event after hsplit hkept
    have hhistory := href.history
    rw [hsplit] at hhistory
    exact hhistory.agreesWith_peeked hkept
  · intro next hpeeking hstep
    exact stepConsumer_shared_of_peeking hpeeking hstep

/-! ### A full buffer peeked twice -/

def peekedStart : Queue ℕ :=
  { (Queue.new fun _ _ => { data := .torn, sequenceCounter := 5 }).resetSequences
      4096 1 with
    buffer := 4096
    isInitialized := true }

theorem peekedStart_eq :
    (Queue.new fun _ _ => { data := .torn, sequenceCounter := 5 }).init
      singleSlot 64 64 4096 64 = .ok peekedStart := rfl

/-- A peek, a push on the full buffer, a second peek and the pop. -/
def peekedSchedule : List (Action ℕ) :=
  List.flatten
    [.push 7 :: List.replicate 10 .producer,
      .read .peek :: List.replicate 7 .consumer,
      .push 8 :: List.replicate 3 .producer,
      .read .peek :: List.replicate 7 .consumer,
      .read .pop :: List.replicate 12 .consumer]

theorem peeked_outcomes :
    (Execution.run (step singleSlot) peekedStart peekedSchedule).map
        Queue.transcript =
      some [.queue (.pushed 7), .queue (.peeked 7), .queue .full,
        .queue (.peeked 7), .queue (.popped 7)] := by
  decide +kernel

theorem peeked_item_stable_when_full :
    ∃ final, Execution.run (step singleSlot) peekedStart peekedSchedule =
        some final ∧
      final.transcript = [.queue (.pushed 7), .queue (.peeked 7), .queue .full,
        .queue (.peeked 7), .queue (.popped 7)] ∧
      ∃ history items, PeekAllocatePop singleSlot final history items := by
  obtain ⟨final, hrun, htranscript⟩ :=
    Option.map_eq_some_iff.mp peeked_outcomes
  exact ⟨final, hrun, htranscript,
    peeked_item_stable (Queue.init_ready peekedStart_eq) hrun⟩

end SlotQueue
end ShawnCore
