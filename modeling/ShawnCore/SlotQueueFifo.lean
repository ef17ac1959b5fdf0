import ShawnCore.SlotQueueRefinement

/-!
# Slot queues are first-in first-out

Every run of one producer and one consumer on an initialized queue performs a
history of the bounded queue, from any common value of the two counters, and the
two sides never access the payload of one slot at the same time.
-/

namespace ShawnCore
namespace SlotQueue

open BoundedFifo (History Step)
open RingIndex (slot)

variable {α : Type}

/-- An initialized queue with equal counters and stable slots, before the first
call. -/
structure Ready (layout : Layout) (base : ℕ) (queue : Queue α) : Prop where
  initialized : queue.isInitialized = true
  buffer_eq : queue.buffer = base
  head_eq : queue.head = queue.tail
  even : ∀ index, index < layout.capacity.size →
    (queue.slots base index).sequenceCounter &&& 1 = 0
  producer_eq : queue.producer = .idle
  consumer_eq : queue.consumer = .idle
  transcript_eq : queue.transcript = []

variable {layout : Layout} {base : ℕ} {queue : Queue α}

theorem Ready.refines (hready : Ready layout base queue) :
    Refines layout base queue [] [] := by
  constructor
  · exact hready.transcript_eq
  · exact .nil
  · exact hready.initialized
  · exact hready.buffer_eq
  · rw [hready.head_eq]
    simp
  · intro offset item hitem
    simp at hitem
  · intro index hindex _
    exact hready.even index hindex
  · rw [hready.producer_eq]
    trivial
  · rw [hready.consumer_eq]
    trivial

theorem step_refined
    [Inhabited α] {next : Queue α} {action : Action α}
    (hrefined : Refined layout base queue)
    (hstep : step layout queue action = some next) :
    Refined layout base next := by
  obtain ⟨history, items, href⟩ := hrefined
  cases action with
  | push item =>
      simp only [step] at hstep
      split at hstep
      · rename_i hidle
        cases hstep
        apply Refines.refined
        refine href.produce ?_ trivial
        rw [hidle]
        rfl
      · cases hstep
  | read mode =>
      simp only [step] at hstep
      split at hstep
      · rename_i hidle
        cases hstep
        apply Refines.refined
        refine href.consume ?_ trivial
        rw [hidle]
        intro hclearing
        cases hclearing
      · cases hstep
  | producer => exact stepProducer_refined href hstep
  | consumer => exact stepConsumer_refined href hstep

/-! ## Payload accesses -/

theorem ProducerOk.access
    {items : List α} {pc : ProducerPc α} {start index : ℕ}
    (hok : ProducerOk layout base queue items pc)
    (haccess : pc.access? layout = some (start, index)) :
    items.length < layout.capacity.size ∧
      index = slot layout.capacity queue.head := by
  cases pc with
  | pushWrite item head other sequence =>
      cases haccess
      exact ⟨hok.1.room, by rw [hok.1.head_eq]⟩
  | pushWriting item head other sequence =>
      cases haccess
      exact ⟨hok.1.room, by rw [hok.1.head_eq]⟩
  | _ => cases haccess

theorem ConsumerOk.access
    {items : List α} {pc : ConsumerPc α} {start index : ℕ}
    (hok : ConsumerOk layout base queue items pc)
    (haccess : pc.access? layout = some (start, index)) :
    0 < items.length ∧ index = slot layout.capacity queue.tail := by
  have hfound : ∀ tail front, Front queue items tail front →
      slot layout.capacity tail = index →
        0 < items.length ∧ index = slot layout.capacity queue.tail := by
    intro tail front hfront hindex
    rw [← hindex, hfront.tail_eq]
    exact ⟨hfront.length_pos, rfl⟩
  cases pc with
  | readData mode tail other first =>
      cases haccess
      obtain ⟨-, ⟨front, hfront⟩, -⟩ := hok
      exact hfound tail front hfront rfl
  | popWipe tail other item byte =>
      cases haccess
      obtain ⟨-, front, hfront, -⟩ := hok
      exact hfound tail front hfront rfl
  | popRestore tail other item =>
      cases haccess
      obtain ⟨-, front, hfront, -⟩ := hok
      exact hfound tail front hfront rfl
  | popRestoring tail other item =>
      cases haccess
      obtain ⟨-, front, hfront, -⟩ := hok
      exact hfound tail front hfront rfl
  | _ => cases haccess

/-- The producer needs room and the consumer an item, so they are at different
slots. -/
theorem Refines.access_ne
    {history : List (BoundedFifo.Event α)} {items : List α} {place : ℕ × ℕ}
    (href : Refines layout base queue history items)
    (hproducer : queue.producer.access? layout = some place) :
    queue.consumer.access? layout ≠ some place := by
  intro hconsumer
  have hwrite := href.producerOk.access hproducer
  have hread := href.consumerOk.access hconsumer
  exact href.slot_head_ne_slot_tail hwrite.1 hread.1
    (hwrite.2.symm.trans hread.2)

/-! ## The behaviour of a queue -/

/-- What the calls on a queue have returned so far, in the order of their
effects. -/
structure Fifo
    (layout : Layout) (queue : Queue α) (history : List (BoundedFifo.Event α))
    (items : List α) : Prop where
  outcomes : queue.transcript = history.map .queue
  order : history.filterMap BoundedFifo.Event.pushed? =
    history.filterMap BoundedFifo.Event.popped? ++ items
  held : items.length ≤ layout.capacity.size
  full : ∀ before after, history = before ++ .full :: after →
    (before.filterMap BoundedFifo.Event.pushed?).length =
      (before.filterMap BoundedFifo.Event.popped?).length +
        layout.capacity.size
  empty : ∀ before after, history = before ++ .empty :: after →
    before.filterMap BoundedFifo.Event.pushed? =
      before.filterMap BoundedFifo.Event.popped?
  apart : ∀ place, queue.producer.access? layout = some place →
    queue.consumer.access? layout ≠ some place

theorem Refines.fifo
    {history : List (BoundedFifo.Event α)} {items : List α}
    (href : Refines layout base queue history items) :
    Fifo layout queue history items := by
  constructor
  · exact href.transcript_eq
  · exact href.history.pushed_eq
  · exact href.history.length_le
  · intro before after hsplit
    obtain ⟨queued, next, hbefore, hstep⟩ := href.history.step_of_split hsplit
    cases hstep with
    | full hfull =>
        rw [hbefore.pushed_eq, List.length_append, hfull]
  · intro before after hsplit
    obtain ⟨queued, next, hbefore, hstep⟩ := href.history.step_of_split hsplit
    cases hstep with
    | empty =>
        rw [hbefore.pushed_eq, List.append_nil]
  · intro place hproducer
    exact href.access_ne hproducer

/-- In every state of every run, all calls have returned outcomes of the bounded
queue: the items popped are a prefix of the items pushed, in order. -/
theorem runs_are_fifo
    [Inhabited α] {start final : Queue α} {schedule : List (Action α)}
    (hready : Ready layout base start)
    (hrun : Execution.run (step layout) start schedule = some final) :
    ∃ history items, Fifo layout final history items := by
  have hrefined : Refined layout base final :=
    Execution.run_invariant
      (fun _ _ _ hgood hstep => step_refined hgood hstep)
      hready.refines.refined hrun
  obtain ⟨history, items, href⟩ := hrefined
  exact ⟨history, items, href.fifo⟩

/-- A queue of one byte-sized slot whose counters are about to wrap around. -/
def singleSlot : Layout where
  capacityLog := 0
  itemSize := 1
  capacityLog_lt := by decide

def wrapping : Queue ℕ where
  buffer := 4096
  head := 0xFFFFFFFFFFFFFFFF
  tail := 0xFFFFFFFFFFFFFFFF
  isInitialized := true
  slots _ _ := { data := .torn, sequenceCounter := 0 }
  producer := .idle
  consumer := .idle
  transcript := []

theorem wrapping_ready : Ready singleSlot 4096 wrapping := by
  constructor
  · rfl
  · rfl
  · rfl
  · intro index _
    exact UInt64.zero_and
  · rfl
  · rfl
  · rfl

/-- A push, a push on the full queue, a pop, and a pop on the empty queue. -/
def wrappingSchedule : List (Action ℕ) :=
  Action.push 7 :: List.replicate 10 Action.producer ++
    Action.push 8 :: List.replicate 3 Action.producer ++
    Action.read .pop :: List.replicate 12 Action.consumer ++
    Action.read .pop :: List.replicate 3 Action.consumer

theorem wrapping_outcomes :
    (Execution.run (step singleSlot) wrapping wrappingSchedule).map
        Queue.transcript =
      some [.queue (.pushed 7), .queue .full, .queue (.popped 7),
        .queue .empty] := by
  decide +kernel

theorem runs_are_fifo_around_wrap :
    ∃ final, Execution.run (step singleSlot) wrapping wrappingSchedule =
        some final ∧
      final.transcript = [.queue (.pushed 7), .queue .full,
        .queue (.popped 7), .queue .empty] ∧
      ∃ history items, Fifo singleSlot final history items := by
  obtain ⟨final, hrun, htranscript⟩ :=
    Option.map_eq_some_iff.mp wrapping_outcomes
  exact ⟨final, hrun, htranscript, runs_are_fifo wrapping_ready hrun⟩

end SlotQueue
end ShawnCore
