import ShawnCore.QueueSimulation

/-!
# The queues of the C interface are bounded queues

After `init` has returned success, the memory holds an empty slot queue.  From
then on every step of the two sides, and everything that others write elsewhere,
keeps the simulation.  So the calls of the host are the operations of one bounded
queue, in the order in which they take effect: what a `pop` leaves at the pointer
of its caller is the oldest item which was pushed and not popped yet, complete
and unchanged.
-/

namespace ShawnCore
namespace Rtos

open ByteCodec (Codec)
open ByteMemory
open Execution
open PerCoreScheduler (checkedAdd_eq_some_iff)
open SlotQueue (Queue)

variable {α : Type} {type : QueueType α}

/-! ## Calls and what others write -/

theorem apart_of_not_rangesOverlap
    {first firstLen second secondLen : UInt64}
    (hoverlap : rangesOverlap first firstLen second secondLen = false) :
    Apart first firstLen.toNat second secondLen.toNat := by
  unfold rangesOverlap at hoverlap
  cases hfirst : checkedAdd first firstLen with
  | none => simp [hfirst] at hoverlap
  | some firstEnd =>
      cases hsecond : checkedAdd second secondLen with
      | none => simp [hfirst, hsecond] at hoverlap
      | some secondEnd =>
          simp only [hfirst, hsecond, Bool.and_eq_false_iff,
            decide_eq_false_iff_not, UInt64.lt_iff_toNat_lt] at hoverlap
          rw [checkedAdd_eq_some_iff] at hfirst hsecond
          have hfirstEnd := firstEnd.toNat_lt
          have hsecondEnd := secondEnd.toNat_lt
          apply apart_of_toNat <;> omega

/-- What the host has to keep to: the place for an item is not in the slots, and
others write neither to the control object nor to the slots.  That the place is
not in the control object is checked by the functions themselves. -/
def RespectsQueue
    (type : QueueType α) (queue base : UInt64) : QueueAction → Prop
  | .push _ => True
  | .read _ out => Apart out type.itemSize base type.backingSize
  | .producer => True
  | .consumer => True
  | .others write =>
      Apart write.start write.bytes.length queue controlObject.size.toNat ∧
        Apart write.start write.bytes.length base type.backingSize

section Steps

variable [Inhabited α] {placement : Placement type} {shared next : Shared α}
  {queue : Queue α} {callbacks : CacheCallbacks}

theorem Simulates.pushCall
    {event : UInt64} (hsim : Simulates placement shared queue)
    (hstep : queueStep type callbacks placement.queue shared (.push event) =
      some next) :
    ∃ queue', Simulates placement next queue' := by
  simp only [queueStep] at hstep
  split at hstep
  next hidle =>
    split_ifs at hstep with hrejected
    · cases hstep
      refine ⟨queue, { hsim with recorded := ⟨?_, hsim.recorded.reads⟩ }⟩
      rw [← hsim.recorded.pushes]
      simp [Shared.pushEvents]
    · cases hstep
      have hproducer := hsim.producer
      rw [hidle] at hproducer
      have hcall : SlotQueue.step type.layout queue
          (.push (type.item.load shared.memory event)) =
          some (queue.produce (.pushCheck
            (type.item.load shared.memory event))) := by
        simp only [SlotQueue.step, show queue.producer = .idle from hproducer]
      exact ⟨_, hsim.produce (SlotQueue.step_refined hsim.refined hcall)
        (hsim.holds.produce _) rfl rfl (fun _ _ => ⟨rfl, rfl⟩)
        hsim.transcript hsim.recorded⟩
  next => cases hstep

theorem Simulates.readCall
    {mode : SlotQueue.Mode} {out : UInt64}
    (hsim : Simulates placement shared queue)
    (hslots : Apart out type.itemSize placement.base type.backingSize)
    (hstep : queueStep type callbacks placement.queue shared
      (.read mode out) = some next) :
    ∃ queue', Simulates placement next queue' := by
  simp only [queueStep] at hstep
  split at hstep
  next hidle =>
    have hconsumer := hsim.consumer
    rw [hidle] at hconsumer
    split_ifs at hstep with hrejected
    · cases hstep
      exact ⟨queue, hsim.consume hsim.refined hsim.holds hconsumer rfl
        (fun _ _ => ⟨rfl, rfl⟩) (.inl rfl)
        (hsim.transcript.trans (by simp [ReadReturn.event?]))
        (hsim.recorded.returnRead (by rw [hidle]; rfl) (.inr rfl))⟩
    · cases hstep
      have hobject : rangesOverlap placement.queue controlObject.size out
          type.item.size = false := by
        simp only [readRejects, Bool.or_eq_true, not_or,
          Bool.not_eq_true] at hrejected
        exact hrejected.2
      refine ⟨queue, ⟨hsim.holds, hsim.refined, hsim.producer, hconsumer, ?_,
        hsim.transcript, hsim.recorded.consume (by rw [hidle]; rfl)⟩⟩
      intro other hother
      cases hother
      exact ⟨(apart_of_not_rangesOverlap hobject).symm, hslots⟩
  next => cases hstep

/-- Others write outside of the queue. -/
theorem Simulates.others
    {write : Write} (hsim : Simulates placement shared queue)
    (houtside : Outside placement write.start write.bytes.length) :
    Simulates placement (shared.write write) queue := by
  have hcontent := houtside.content_perform shared.memory
  have hsame : ∀ index, SamePayload placement shared.memory
      (write.perform shared.memory) queue queue index :=
    fun index => ⟨hcontent (.data index), rfl⟩
  exact ⟨hsim.holds.congr hcontent, hsim.refined,
    hsim.producer.frame rfl fun index _ => hsame index,
    hsim.consumer.frame rfl fun index _ => hsame index, hsim.out,
    hsim.transcript, hsim.recorded.pushes, hsim.recorded.reads⟩

theorem queueStep_simulates
    {action : QueueAction} (hsim : ∃ queue, Simulates placement shared queue)
    (hrespects : RespectsQueue type placement.queue placement.base action)
    (hstep : queueStep type callbacks placement.queue shared action =
      some next) :
    ∃ queue', Simulates placement next queue' := by
  obtain ⟨queue, hsim⟩ := hsim
  cases action with
  | push event => exact hsim.pushCall hstep
  | read mode out => exact hsim.readCall hrespects hstep
  | producer => exact stepPush_simulates hsim hstep
  | consumer => exact stepRead_simulates hsim hstep
  | others write =>
      cases hstep
      exact ⟨queue, hsim.others ⟨hrespects.1, hrespects.2⟩⟩

end Steps

/-! ## `init` -/

/-- The queue after `init`; what the payloads hold is not known. -/
def emptyQueue (base : UInt64) : Queue α where
  buffer := base.toNat
  head := 0
  tail := 0
  isInitialized := true
  slots _ _ := ⟨.torn, 0⟩
  producer := .idle
  consumer := .idle
  transcript := []

theorem emptyQueue_ready (layout : SlotQueue.Layout) (base : UInt64) :
    SlotQueue.Ready layout base.toNat (emptyQueue base : Queue α) := by
  constructor
  · rfl
  · rfl
  · rfl
  · intro index _
    exact UInt64.zero_and
  · rfl
  · rfl
  · rfl

namespace Placement

variable (placement : Placement type)

/-- The stores of `new`, and those of `init` up to the last counter. -/
def clearStores : List (QueueField type.capacity × List UInt8) :=
  [(.control .buffer, Codec.word64.encode 0),
    (.control .head, Codec.word64.encode 0),
    (.control .tail, Codec.word64.encode 0),
    (.control .isInitialized, Codec.flag.encode false),
    (.control .isInitializing, Codec.flag.encode false),
    (.control .isInitializing, Codec.flag.encode true)] ++
    (List.finRange type.capacity).map
      (fun index => (.sequenceCounter index, Codec.word64.encode 0))

/-- The stores which publish the slots. -/
def publishStores : List (QueueField type.capacity × List UInt8) :=
  [(.control .buffer, Codec.word64.encode placement.base),
    (.control .isInitialized, Codec.flag.encode true),
    (.control .isInitializing, Codec.flag.encode false)]

theorem storeAll_clearStores :
    placement.cells.storeAll clearStores =
      newWrites placement.queue ++
        storeFlag (placement.queue + UInt64.ofNat isInitializingOffset) true ::
        (List.range type.capacity).map
          (fun index => storeWord
            (type.counterAddress placement.base index) 0) := by
  have hqueue : placement.queue + UInt64.ofNat 0 = placement.queue :=
    UInt64.add_zero _
  rw [← List.map_coe_finRange_eq_range, List.map_map]
  simp only [Cells.storeAll, clearStores, List.map_cons, List.map_map,
    newWrites, List.cons_append, List.nil_append, Cells.store, cells, start,
    ControlField.offset, hqueue]
  rfl

theorem storeAll_publishStores :
    placement.cells.storeAll placement.publishStores =
      [storeWord placement.queue placement.base,
        storeFlag (placement.queue + UInt64.ofNat isInitializedOffset) true,
        storeFlag (placement.queue + UInt64.ofNat isInitializingOffset)
          false] := by
  have hqueue : placement.queue + UInt64.ofNat 0 = placement.queue :=
    UInt64.add_zero _
  simp only [Cells.storeAll, publishStores, List.map_cons, List.map_nil,
    Cells.store, cells, start, ControlField.offset, hqueue]
  rfl

theorem length_clearStores :
    ∀ store ∈ (clearStores : List (QueueField type.capacity × List UInt8)),
      store.2.length = placement.cells.size store.1 := by
  intro store hstore
  simp only [clearStores, List.mem_append, List.mem_cons, List.not_mem_nil,
    or_false, List.mem_map] at hstore
  rcases hstore with
    (rfl | rfl | rfl | rfl | rfl | rfl) | ⟨index, -, rfl⟩ <;> rfl

theorem length_publishStores :
    ∀ store ∈ placement.publishStores,
      store.2.length = placement.cells.size store.1 := by
  intro store hstore
  simp only [publishStores, List.mem_cons, List.not_mem_nil,
    or_false] at hstore
  rcases hstore with rfl | rfl | rfl
  · exact Codec.word64.length_encode placement.base
  · rfl
  · rfl

/-- The memory after the stores of `new` and `init`. -/
def initialized (memory : Memory) : Memory :=
  performAll (performAll memory (placement.cells.storeAll clearStores))
    (placement.cells.storeAll placement.publishStores)

variable {placement} {memory : Memory}

/-- A field which `init` publishes. -/
theorem content_published
    {field : QueueField type.capacity} (bytes : List UInt8)
    (hsame : ∀ store ∈ placement.publishStores,
      store.1 = field → store.2 = bytes)
    (hstored : ∃ store ∈ placement.publishStores, store.1 = field) :
    placement.cells.content (placement.initialized memory) field = bytes :=
  Cells.content_storeAll placement.length_publishStores hsame hstored

/-- A field which is zero from then on. -/
theorem content_cleared
    {field : QueueField type.capacity}
    (hother : ∀ store ∈ placement.publishStores, store.1 ≠ field)
    (hsame : ∀ store ∈ clearStores,
      store.1 = field → store.2 = Codec.word64.encode 0)
    (hstored : ∃ store ∈ clearStores, store.1 = field) :
    placement.cells.content (placement.initialized memory) field =
      Codec.word64.encode 0 :=
  (Cells.content_storeAll_of_ne placement.length_publishStores hother).trans
    (Cells.content_storeAll placement.length_clearStores hsame hstored)

theorem holds_initialized :
    Holds placement (placement.initialized memory)
      (emptyQueue placement.base) := by
  intro field
  cases field with
  | control field =>
      cases field with
      | buffer =>
          rw [content_published (Codec.word64.encode placement.base)
            (by simp [publishStores]) (by simp [publishStores])]
          exact Codec.word64.decode_encode placement.base
      | isInitialized =>
          rw [content_published (Codec.flag.encode true)
            (by simp [publishStores]) (by simp [publishStores])]
          exact Codec.flag.decode_encode true
      | isInitializing => trivial
      | head =>
          rw [content_cleared (by simp [publishStores])
            (by simp [clearStores]) (by simp [clearStores])]
          exact Codec.word64.decode_encode 0
      | tail =>
          rw [content_cleared (by simp [publishStores])
            (by simp [clearStores]) (by simp [clearStores])]
          exact Codec.word64.decode_encode 0
  | data index =>
      intro item hitem
      cases hitem
  | sequenceCounter index =>
      rw [content_cleared (by simp [publishStores]) (by simp [clearStores])
        (by simp [clearStores])]
      exact Codec.word64.decode_encode 0

end Placement

/-- A successful `init` places the queue, and binds it to its slots. -/
theorem placement_of_queueInitCall
    {queue memoryBase sizeInBytes : UInt64} {writes : List Write}
    (hinit : queueInitCall type queue memoryBase sizeInBytes =
      (.success, writes)) :
    ∃ placement : Placement type,
      placement.queue = queue ∧ placement.base = memoryBase ∧
        ∀ memory, performAll memory writes =
          placement.initialized memory := by
  unfold queueInitCall at hinit
  split_ifs at hinit with hchecks haligned
  · cases hinit
  · cases hinit
  · simp only [not_or, Bool.not_eq_true] at hchecks
    obtain ⟨-, -, hoverlap⟩ := hchecks
    split at hinit
    next failure hvalidate =>
      cases failure <;> cases hinit
    next hvalidate =>
      cases hinit
      have hfits := (SlotQueue.validateBacking_eq_ok_iff.1 hvalidate).2.2.1
      refine ⟨⟨queue, memoryBase,
        (apart_of_not_rangesOverlap hoverlap).shorten hfits⟩, rfl, rfl, ?_⟩
      intro memory
      rw [Placement.initialized, Placement.storeAll_clearStores,
        Placement.storeAll_publishStores]
      simp only [performAll, bindWrites, List.foldl_append, List.foldl_cons,
        List.foldl_nil]

theorem start_simulates
    [Inhabited α] {placement : Placement type} {memory : Memory} :
    Simulates placement (Shared.start (placement.initialized memory))
      (emptyQueue placement.base) := by
  constructor
  · exact Placement.holds_initialized
  · exact (emptyQueue_ready type.layout placement.base).refines.refined
  · rfl
  · rfl
  · intro out hout
    cases hout
  · rfl
  · exact ⟨rfl, rfl⟩

/-! ## The history of the calls -/

/-- The operations, in the order in which they took effect, are a history of a
bounded queue which then holds these items, and they are what the calls
returned. -/
structure FifoCalls
    (type : QueueType α) (final : Shared α) (items : List α) : Prop where
  valid : BoundedFifo.History type.capacity final.effects items
  in_order : final.effects.filterMap BoundedFifo.Event.pushed? =
    final.effects.filterMap BoundedFifo.Event.popped? ++ items
  bounded : items.length ≤ type.capacity
  recorded : final.Recorded

/-- After a successful `init`, whatever the interleaving of the accesses of the
two sides and of what others write elsewhere, the queue is a bounded queue. -/
theorem queue_calls_are_fifo
    [Inhabited α] {callbacks : CacheCallbacks}
    {queue memoryBase sizeInBytes : UInt64} {writes : List Write}
    {memory : Memory} {actions : List QueueAction} {final : Shared α}
    (hinit : queueInitCall type queue memoryBase sizeInBytes =
      (.success, writes))
    (hrespects : ∀ action ∈ actions,
      RespectsQueue type queue memoryBase action)
    (hrun : run (queueStep type callbacks queue)
      (Shared.start (performAll memory writes)) actions = some final) :
    ∃ items, FifoCalls type final items := by
  obtain ⟨placement, rfl, rfl, hwrites⟩ := placement_of_queueInitCall hinit
  rw [hwrites] at hrun
  have hsimulated : ∃ queue, Simulates placement final queue :=
    run_invariant_forall (fun _ _ _ => queueStep_simulates)
      ⟨_, start_simulates⟩ hrespects hrun
  obtain ⟨slots, hsim⟩ := hsimulated
  obtain ⟨history, items, href⟩ := hsim.refined
  have heffects : history = final.effects :=
    List.map_injective_iff.2 (fun _ _ => SlotQueue.Outcome.queue.inj)
      (href.transcript_eq.symm.trans hsim.transcript)
  subst heffects
  exact ⟨items, href.history, href.history.pushed_eq, href.history.length_le,
    hsim.recorded⟩

/-- An event with the identifier 7 at one place of the memory. -/
def eventMemory : Memory :=
  fun address => if address = 0x20000 then 7 else 0

/-- A `push` of this event and a `pop`, while others write elsewhere. -/
def telemetryActions : List QueueAction :=
  .push 0x20000 :: .others ⟨0x20000, [9]⟩ :: List.replicate 73 .producer ++
    .read .pop 0x30000 :: List.replicate 204 .consumer

theorem telemetryActions_respect :
    ∀ action ∈ telemetryActions,
      RespectsQueue telemetryQueue 0x1000 0x4000 action := by
  intro action haction
  simp only [telemetryActions, List.mem_append, List.mem_cons,
    List.mem_replicate] at haction
  rcases haction with (rfl | rfl | ⟨-, rfl⟩) | rfl | ⟨-, rfl⟩
  · trivial
  · constructor <;> apply apart_of_toNat <;> decide
  · trivial
  · apply apart_of_toNat <;> decide
  · trivial

/-- The memory after `init`, with the slots at 0x4000. -/
def telemetryMemory : Memory :=
  performAll eventMemory
    (queueInitCall telemetryQueue 0x1000 0x4000 0x2000).2

theorem telemetry_event_delivered :
    (run (queueStep telemetryQueue ⟨true, true⟩ 0x1000)
      (Shared.start telemetryMemory) telemetryActions).map (fun final =>
        final.reads.map fun returned =>
          returned.found.map TelemetryEvent.eventId) = some [some 7] := by
  decide +kernel

theorem queue_calls_are_fifo_telemetry :
    ∃ final, run (queueStep telemetryQueue ⟨true, true⟩ 0x1000)
        (Shared.start telemetryMemory) telemetryActions = some final ∧
      (final.reads.map fun returned =>
        returned.found.map TelemetryEvent.eventId) = [some 7] ∧
      ∃ items, FifoCalls telemetryQueue final items := by
  have hcode : (queueInitCall telemetryQueue 0x1000 0x4000 0x2000).1 =
      .success := by
    decide +kernel
  obtain ⟨final, hrun, hreads⟩ :=
    Option.map_eq_some_iff.1 telemetry_event_delivered
  exact ⟨final, hrun, hreads, queue_calls_are_fifo
    (Prod.ext hcode rfl) telemetryActions_respect hrun⟩

end Rtos
end ShawnCore
