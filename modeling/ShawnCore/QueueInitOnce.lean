import ShawnCore.QueueInit

/-!
# A slot queue is initialized once

The exclusive section of `init` begins with the exchange of `is_initializing`,
and the second load of `is_initialized` lies inside it.  So a caller which
writes anything does so before `is_initialized` is set, and the one which sets
it is the only one which ever returns `Ok`.
-/

namespace ShawnCore
namespace SlotQueue

open EventLog ExclusiveFlag
open Execution (run)

variable {ι α : Type}

/-! ## What the log of a run looks like -/

section Log

variable (layout : Layout) (slotSize slotAlign : ℕ)

/-- The call of this caller began here, and this error is the right one for
its arguments: valid arguments are refused with `AlreadyInitialized` only. -/
def Begins (caller : ι) (failure : IpcError) (event : InitEvent ι) : Prop :=
  ∃ basePtr sizeInBytes, event = .called caller basePtr sizeInBytes ∧
    (validateBacking layout slotSize slotAlign basePtr sizeInBytes = .ok () →
      failure = .alreadyInitialized)

/-- How an event fits what has happened before it.  Writes come before the
publication, all counters of a buffer are reset before it is published, there
is one publication, only its caller returns `Ok`, and only once; a caller which
returns an error has written nothing since its call. -/
def EventFits (before : List (InitEvent ι)) : InitEvent ι → Prop
  | .called .. => True
  | .resetSequence .. => ∀ event ∈ before, event.isPublished = false
  | .storedBuffer .. => ∀ event ∈ before, event.isPublished = false
  | .published caller base =>
      (∀ event ∈ before, event.isPublished = false) ∧
        ∀ index < layout.capacity.size,
          .resetSequence caller base index ∈ before
  | .returned caller (.ok ()) =>
      (∃ base, .published caller base ∈ before) ∧
        ∀ event ∈ before, event.isOk = false
  | .returned caller (.error failure) =>
      Since (Begins layout slotSize slotAlign caller failure)
        (fun event => event.caller ≠ caller) before

/-- Without a publication nobody has returned `Ok`. -/
theorem isOk_eq_false_of_unpublished
    {log : List (InitEvent ι)}
    (hfits : AtEach (EventFits layout slotSize slotAlign) log)
    (hnone : ∀ event ∈ log, event.isPublished = false) :
    ∀ event ∈ log, event.isOk = false := by
  intro event hmem
  rw [← Bool.not_eq_true]
  intro hok
  obtain ⟨before, hbefore, hevent⟩ := hfits.mem hmem
  match event, hok, hevent with
  | .returned caller (.ok ()), _, ⟨⟨base, hpublished⟩, _⟩ =>
      have := hnone _ (hbefore hpublished)
      cases this

/-- At most one event of a fitting log is an `Ok`. -/
theorem countP_isOk_le_one
    {log : List (InitEvent ι)}
    (hfits : AtEach (EventFits layout slotSize slotAlign) log) :
    log.countP InitEvent.isOk ≤ 1 := by
  induction log using List.reverseRecOn with
  | nil => exact Nat.zero_le 1
  | append_singleton earlier last ih =>
      have hearlier : AtEach (EventFits layout slotSize slotAlign) earlier := by
        intro before event after hsplit
        apply hfits before event (after ++ [last])
        rw [hsplit, List.append_assoc, List.cons_append]
      rw [List.countP_append, List.countP_singleton]
      by_cases hlast : last.isOk = true
      · have hnone : earlier.countP InitEvent.isOk = 0 := by
          rw [List.countP_eq_zero]
          have hfit := hfits earlier last [] rfl
          match last, hlast, hfit with
          | .returned caller (.ok ()), _, ⟨_, hother⟩ =>
              intro event hmem
              rw [hother event hmem]
              exact Bool.false_ne_true
        rw [hnone, if_pos hlast]
      · rw [if_neg hlast]
        exact ih hearlier

end Log

/-! ## The invariant -/

/-- The part of `init` guarded by `is_initializing`. -/
def InitPc.Inside : InitPc → Prop
  | .idle => False
  | .loadInitialized _ => False
  | .exchange _ => False
  | _ => True

/-- The producer has seen `is_initialized` set. -/
def ProducerPc.engaged : ProducerPc α → Bool
  | .idle => false
  | .pushCheck _ => false
  | _ => true

/-- The buffer the producer accesses. -/
def ProducerPc.base? : ProducerPc α → Option ℕ
  | .pushSequence _ _ base => some base
  | .pushMark _ _ base _ => some base
  | .pushWrite _ _ base _ => some base
  | .pushWriting _ _ base _ => some base
  | .pushSettle _ _ base _ => some base
  | _ => none

def ConsumerPc.engaged : ConsumerPc α → Bool
  | .idle => false
  | .readCheck _ => false
  | _ => true

/-- The buffer the consumer accesses. -/
def ConsumerPc.base? : ConsumerPc α → Option ℕ
  | .readFirst _ _ base => some base
  | .readData _ _ base _ => some base
  | .readSecond _ _ base _ _ => some base
  | .popWipe _ base _ _ => some base
  | .popRestore _ base _ => some base
  | .popRestoring _ base _ => some base
  | _ => none

theorem ProducerPc.engaged_of_base
    {pc : ProducerPc α} {base : ℕ} (hbase : pc.base? = some base) :
    pc.engaged = true := by
  cases pc with
  | idle | pushCheck => cases hbase
  | _ => rfl

theorem ConsumerPc.engaged_of_base
    {pc : ConsumerPc α} {base : ℕ} (hbase : pc.base? = some base) :
    pc.engaged = true := by
  cases pc with
  | idle | readCheck => cases hbase
  | _ => rfl

/-- The producer and the consumer work on the published buffer. -/
structure Engaged (queue : Queue α) : Prop where
  producer : queue.producer.engaged = true → queue.isInitialized = true
  consumer : queue.consumer.engaged = true → queue.isInitialized = true
  producer_base : ∀ base, queue.producer.base? = some base →
    base = queue.buffer
  consumer_base : ∀ base, queue.consumer.base? = some base →
    base = queue.buffer

section Invariant

variable (layout : Layout) (slotSize slotAlign : ℕ)

/-- The counters below this bound have been reset by the caller, and are 0 in
memory. -/
def ResetUpTo
    (queue : Queue α) (log : List (InitEvent ι)) (caller : ι)
    (base bound : ℕ) : Prop :=
  ∀ index < bound, .resetSequence caller base index ∈ log ∧
    (queue.slots base index).sequenceCounter = 0

/-- What a caller at this program counter has done so far. -/
def CallerOk (queue : Queue α) (log : List (InitEvent ι)) (caller : ι) :
    InitPc → Prop
  | .idle => True
  | .loadInitialized _ | .exchange _ | .recheck _ | .withdraw =>
      Since (Begins layout slotSize slotAlign caller .alreadyInitialized)
        (fun event => event.caller ≠ caller) log
  | .resetSequence base index =>
      queue.isInitialized = false ∧ index < layout.capacity.size ∧
        ResetUpTo queue log caller base index
  | .storeBuffer base =>
      queue.isInitialized = false ∧
        ResetUpTo queue log caller base layout.capacity.size
  | .storeInitialized base =>
      queue.isInitialized = false ∧ queue.buffer = base ∧
        ResetUpTo queue log caller base layout.capacity.size
  | .storeInitializing =>
      (∃ base, .published caller base ∈ log) ∧
        ∀ event ∈ log, event.isOk = false

structure InitInvariant (system : InitSystem ι α) : Prop where
  guards : Guards InitPc.Inside system.isInitializing system.callers
  log_fits : AtEach (EventFits layout slotSize slotAlign) system.log
  unpublished : system.queue.isInitialized = false →
    ∀ event ∈ system.log, event.isPublished = false
  published : system.queue.isInitialized = true →
    ∃ caller, .published caller system.queue.buffer ∈ system.log
  callers_ok : ∀ caller, CallerOk layout slotSize slotAlign system.queue
    system.log caller (system.callers caller)
  engaged : Engaged system.queue

end Invariant

/-! ## Steps of the producer and of the consumer -/

section Parties

variable {layout : Layout} {queue next : Queue α}

theorem stepProducer_init_frame
    (hstep : stepProducer layout queue = some next) :
    next.isInitialized = queue.isInitialized ∧ next.buffer = queue.buffer ∧
      next.consumer = queue.consumer := by
  have hcase := stepProducer_producerStep hstep
  generalize queue.producer = pc at hcase
  cases hcase <;> exact ⟨rfl, rfl, rfl⟩

/-- The producer goes on only after it has seen the flag, and takes its base
address from the buffer pointer. -/
theorem stepProducer_engaged
    (hstep : stepProducer layout queue = some next)
    (hengaged : next.producer.engaged = true) :
    queue.producer.engaged = true ∨ queue.isInitialized = true := by
  have hcase := stepProducer_producerStep hstep
  generalize queue.producer = pc at hcase
  cases hcase with
  | refused item hclear => cases hengaged
  | checked item hset => exact Or.inr hset
  | _ => exact Or.inl rfl

theorem stepProducer_base
    {base : ℕ} (hstep : stepProducer layout queue = some next)
    (hbase : next.producer.base? = some base) :
    queue.producer.base? = some base ∨ base = queue.buffer := by
  have hcase := stepProducer_producerStep hstep
  generalize queue.producer = pc at hcase
  cases hcase with
  | bufferRead item head => exact Or.inr (Option.some.inj hbase).symm
  | sequenceRead | marked | begun | written => exact Or.inl hbase
  | _ => cases hbase

/-- Before the publication neither party has got past its check, so neither
minds a change of the buffer pointer or of the flag. -/
theorem Engaged.of_uninitialized
    (hengaged : Engaged queue) (hclear : queue.isInitialized = false)
    (hproducer : next.producer = queue.producer)
    (hconsumer : next.consumer = queue.consumer) : Engaged next := by
  have hidleProducer : queue.producer.engaged ≠ true := by
    intro h
    rw [hengaged.producer h] at hclear
    cases hclear
  have hidleConsumer : queue.consumer.engaged ≠ true := by
    intro h
    rw [hengaged.consumer h] at hclear
    cases hclear
  constructor
  · rw [hproducer]
    exact fun h => absurd h hidleProducer
  · rw [hconsumer]
    exact fun h => absurd h hidleConsumer
  · rw [hproducer]
    exact fun base h => absurd (ProducerPc.engaged_of_base h) hidleProducer
  · rw [hconsumer]
    exact fun base h => absurd (ConsumerPc.engaged_of_base h) hidleConsumer

variable [Inhabited α]

theorem stepConsumer_init_frame
    (hstep : stepConsumer layout queue = some next) :
    next.isInitialized = queue.isInitialized ∧ next.buffer = queue.buffer ∧
      next.producer = queue.producer := by
  have hcase := stepConsumer_consumerStep hstep
  generalize queue.consumer = pc at hcase
  cases hcase <;> exact ⟨rfl, rfl, rfl⟩

theorem stepConsumer_engaged
    (hstep : stepConsumer layout queue = some next)
    (hengaged : next.consumer.engaged = true) :
    queue.consumer.engaged = true ∨ queue.isInitialized = true := by
  have hcase := stepConsumer_consumerStep hstep
  generalize queue.consumer = pc at hcase
  cases hcase with
  | refused mode hclear => cases hengaged
  | checked mode hset => exact Or.inr hset
  | _ => exact Or.inl rfl

theorem stepConsumer_base
    {base : ℕ} (hstep : stepConsumer layout queue = some next)
    (hbase : next.consumer.base? = some base) :
    queue.consumer.base? = some base ∨ base = queue.buffer := by
  have hcase := stepConsumer_consumerStep hstep
  generalize queue.consumer = pc at hcase
  cases hcase with
  | bufferRead mode tail => exact Or.inr (Option.some.inj hbase).symm
  | firstRead | dataRead | taken | byteWiped | wiped | restoring =>
      exact Or.inl hbase
  | _ => cases hbase

theorem step_init_frame
    {action : Action α} (hstep : step layout queue action = some next) :
    next.isInitialized = queue.isInitialized ∧
      next.buffer = queue.buffer := by
  cases action with
  | push item =>
      simp only [step] at hstep
      split at hstep
      next =>
        cases hstep
        exact ⟨rfl, rfl⟩
      next => cases hstep
  | read mode =>
      simp only [step] at hstep
      split at hstep
      next =>
        cases hstep
        exact ⟨rfl, rfl⟩
      next => cases hstep
  | producer =>
      obtain ⟨hinitialized, hbuffer, _⟩ := stepProducer_init_frame hstep
      exact ⟨hinitialized, hbuffer⟩
  | consumer =>
      obtain ⟨hinitialized, hbuffer, _⟩ := stepConsumer_init_frame hstep
      exact ⟨hinitialized, hbuffer⟩

/-- Before the publication neither party writes to a slot. -/
theorem Engaged.step_slots
    {action : Action α} (hengaged : Engaged queue)
    (hclear : queue.isInitialized = false)
    (hstep : step layout queue action = some next) :
    next.slots = queue.slots := by
  cases action with
  | push item | read mode =>
      simp only [step] at hstep
      split at hstep
      next =>
        cases hstep
        rfl
      next => cases hstep
  | producer =>
      have hidle := hengaged.producer
      have hcase := stepProducer_producerStep hstep
      generalize queue.producer = pc at hcase hidle
      cases hcase with
      | refused | checked => rfl
      | _ => exact absurd (hclear.symm.trans (hidle rfl)) Bool.false_ne_true
  | consumer =>
      have hidle := hengaged.consumer
      have hcase := stepConsumer_consumerStep hstep
      generalize queue.consumer = pc at hcase hidle
      cases hcase with
      | refused | checked => rfl
      | _ => exact absurd (hclear.symm.trans (hidle rfl)) Bool.false_ne_true

theorem Engaged.step
    {action : Action α} (hengaged : Engaged queue)
    (hstep : step layout queue action = some next) : Engaged next := by
  cases action with
  | push item =>
      simp only [SlotQueue.step] at hstep
      split at hstep
      next =>
        cases hstep
        exact { hengaged with
          producer := fun h => by cases h
          producer_base := fun _ h => by cases h }
      next => cases hstep
  | read mode =>
      simp only [SlotQueue.step] at hstep
      split at hstep
      next =>
        cases hstep
        exact { hengaged with
          consumer := fun h => by cases h
          consumer_base := fun _ h => by cases h }
      next => cases hstep
  | producer =>
      obtain ⟨hinitialized, hbuffer, hconsumer⟩ :=
        stepProducer_init_frame hstep
      constructor
      · intro h
        rw [hinitialized]
        exact (stepProducer_engaged hstep h).elim hengaged.producer id
      · rw [hconsumer, hinitialized]
        exact hengaged.consumer
      · intro base h
        rw [hbuffer]
        exact (stepProducer_base hstep h).elim
          (hengaged.producer_base base) id
      · rw [hconsumer, hbuffer]
        exact hengaged.consumer_base
  | consumer =>
      obtain ⟨hinitialized, hbuffer, hproducer⟩ :=
        stepConsumer_init_frame hstep
      constructor
      · rw [hproducer, hinitialized]
        exact hengaged.producer
      · intro h
        rw [hinitialized]
        exact (stepConsumer_engaged hstep h).elim hengaged.consumer id
      · rw [hproducer, hbuffer]
        exact hengaged.producer_base
      · intro base h
        rw [hbuffer]
        exact (stepConsumer_base hstep h).elim
          (hengaged.consumer_base base) id

end Parties

/-! ## Steps of the callers -/

section Callers

variable {layout : Layout} {slotSize slotAlign : ℕ} {queue next : Queue α}
variable {log : List (InitEvent ι)} {event : InitEvent ι} {caller : ι}
variable {pc : InitPc}

theorem ResetUpTo.snoc
    {base bound : ℕ} (hreset : ResetUpTo queue log caller base bound) :
    ResetUpTo queue (log ++ [event]) caller base bound :=
  fun index h => ⟨List.mem_append_left _ (hreset index h).1,
    (hreset index h).2⟩

theorem ResetUpTo.congr
    {base bound : ℕ} (hreset : ResetUpTo queue log caller base bound)
    (hslots : next.slots = queue.slots) :
    ResetUpTo next log caller base bound := by
  unfold ResetUpTo
  rw [hslots]
  exact hreset

theorem CallerOk.snoc
    (hok : CallerOk layout slotSize slotAlign queue log caller pc)
    (hother : event.caller ≠ caller) (hevent : event.isOk = false) :
    CallerOk layout slotSize slotAlign queue (log ++ [event]) caller pc := by
  cases pc with
  | idle => trivial
  | loadInitialized | exchange | recheck | withdraw =>
      exact Since.snoc hok hother
  | resetSequence base index => exact ⟨hok.1, hok.2.1, hok.2.2.snoc⟩
  | storeBuffer base => exact ⟨hok.1, hok.2.snoc⟩
  | storeInitialized base => exact ⟨hok.1, hok.2.1, hok.2.2.snoc⟩
  | storeInitializing =>
      obtain ⟨⟨base, hpublished⟩, hnone⟩ := hok
      refine ⟨⟨base, List.mem_append_left _ hpublished⟩, ?_⟩
      intro other hmem
      rcases List.mem_append.mp hmem with hmem | hmem
      · exact hnone other hmem
      · rw [List.mem_singleton.mp hmem]
        exact hevent

/-- Outside the section nothing depends on the queue. -/
theorem CallerOk.outside
    (hok : CallerOk layout slotSize slotAlign queue log caller pc)
    (houtside : ¬ pc.Inside) (hother : event.caller ≠ caller) :
    CallerOk layout slotSize slotAlign next (log ++ [event]) caller pc := by
  cases pc with
  | idle => trivial
  | loadInitialized | exchange => exact Since.snoc hok hother
  | _ => exact absurd trivial houtside

theorem CallerOk.congr
    (hok : CallerOk layout slotSize slotAlign queue log caller pc)
    (hinitialized : next.isInitialized = queue.isInitialized)
    (hbuffer : next.buffer = queue.buffer)
    (hslots : queue.isInitialized = false → next.slots = queue.slots) :
    CallerOk layout slotSize slotAlign next log caller pc := by
  cases pc with
  | resetSequence base index =>
      exact ⟨hinitialized.trans hok.1, hok.2.1, hok.2.2.congr (hslots hok.1)⟩
  | storeBuffer base =>
      exact ⟨hinitialized.trans hok.1, hok.2.congr (hslots hok.1)⟩
  | storeInitialized base =>
      exact ⟨hinitialized.trans hok.1, hbuffer.trans hok.2.1,
        hok.2.2.congr (hslots hok.1)⟩
  | _ => exact hok

end Callers

section Steps

variable {layout : Layout} {slotSize slotAlign : ℕ}
variable {system next : InitSystem ι α} {caller : ι} {flag : Bool}
variable {pc : InitPc}

theorem InitInvariant.new (slots : ℕ → ℕ → Slot α) :
    InitInvariant layout slotSize slotAlign
      (InitSystem.new slots : InitSystem ι α) where
  guards := guards_of_outside fun _ => id
  log_fits := AtEach.nil _
  unpublished _ _ hmem := by cases hmem
  published hset := by cases hset
  callers_ok _ := trivial
  engaged :=
    { producer := fun h => by cases h
      consumer := fun h => by cases h
      producer_base := fun _ h => by cases h
      consumer_base := fun _ h => by cases h }

variable [DecidableEq ι]

/-- A caller goes on without a write. -/
theorem InitInvariant.moves
    (hinv : InitInvariant layout slotSize slotAlign system)
    (hguards : Guards InitPc.Inside flag
      (Function.update system.callers caller pc))
    (hself : CallerOk layout slotSize slotAlign system.queue system.log caller
      pc) :
    InitInvariant layout slotSize slotAlign
      ((system.setInitializing flag).move caller pc) where
  guards := hguards
  log_fits := hinv.log_fits
  unpublished := hinv.unpublished
  published := hinv.published
  callers_ok := (Function.forall_update_iff _ _).mpr
    ⟨hself, fun other _ => hinv.callers_ok other⟩
  engaged := hinv.engaged

/-- A caller begins or ends a call with an event which changes nothing for the
others. -/
theorem InitInvariant.reports
    {event : InitEvent ι}
    (hinv : InitInvariant layout slotSize slotAlign system)
    (hguards : Guards InitPc.Inside flag
      (Function.update system.callers caller pc))
    (hcaller : event.caller = caller) (hok : event.isOk = false)
    (hpublished : event.isPublished = false)
    (hfits : EventFits layout slotSize slotAlign system.log event)
    (hself : CallerOk layout slotSize slotAlign system.queue
      (system.log ++ [event]) caller pc) :
    InitInvariant layout slotSize slotAlign
      (((system.setInitializing flag).emit event).move caller pc) where
  guards := hguards
  log_fits := hinv.log_fits.snoc hfits
  unpublished hclear := by
    intro other hmem
    rcases List.mem_append.mp hmem with hmem | hmem
    · exact hinv.unpublished hclear other hmem
    · rw [List.mem_singleton.mp hmem]
      exact hpublished
  published hset := by
    obtain ⟨publisher, hmem⟩ := hinv.published hset
    exact ⟨publisher, List.mem_append_left _ hmem⟩
  callers_ok := by
    refine (Function.forall_update_iff _ _).mpr ⟨hself, ?_⟩
    intro other hother
    refine (hinv.callers_ok other).snoc ?_ hok
    rw [hcaller]
    exact hother.symm
  engaged := hinv.engaged

/-- The caller inside the section acts; the others are outside. -/
theorem InitInvariant.acts
    {queue : Queue α} {event : InitEvent ι}
    (hinv : InitInvariant layout slotSize slotAlign system)
    (hinside : (system.callers caller).Inside)
    (hguards : Guards InitPc.Inside flag
      (Function.update system.callers caller pc))
    (hcaller : event.caller = caller)
    (hfits : EventFits layout slotSize slotAlign system.log event)
    (hunpublished : queue.isInitialized = false →
      ∀ other ∈ system.log ++ [event], other.isPublished = false)
    (hpublished : queue.isInitialized = true →
      ∃ publisher, .published publisher queue.buffer ∈
        system.log ++ [event])
    (hself : CallerOk layout slotSize slotAlign queue (system.log ++ [event])
      caller pc)
    (hengaged : Engaged queue) :
    InitInvariant layout slotSize slotAlign
      ((((system.setInitializing flag).setQueue queue).emit event).move caller
        pc) where
  guards := hguards
  log_fits := hinv.log_fits.snoc hfits
  unpublished := hunpublished
  published := hpublished
  callers_ok := by
    refine (Function.forall_update_iff _ _).mpr ⟨hself, ?_⟩
    intro other hother
    refine (hinv.callers_ok other).outside ?_ ?_
    · intro hotherInside
      exact hother
        (hinv.guards.unique other caller hotherInside hinside)
    · rw [hcaller]
      exact hother.symm
  engaged := hengaged

theorem InitInvariant.resets
    {base index : ℕ} (hinv : InitInvariant layout slotSize slotAlign system)
    (hpc : system.callers caller = .resetSequence base index) :
    InitInvariant layout slotSize slotAlign
      (((system.setQueue (system.queue.storeSequence base index 0)).emit
        (.resetSequence caller base index)).move caller
          (afterReset layout base index)) := by
  have hinside : (system.callers caller).Inside := by
    rw [hpc]
    trivial
  have hself := hinv.callers_ok caller
  rw [hpc] at hself
  obtain ⟨hclear, hindex, hreset⟩ := hself
  have hnone := hinv.unpublished hclear
  have hstays : (afterReset layout base index).Inside := by
    unfold afterReset
    split <;> trivial
  have hupTo : ResetUpTo (system.queue.storeSequence base index 0)
      (system.log ++ [.resetSequence caller base index]) caller base
      (index + 1) := by
    intro earlier hearlier
    rcases Nat.lt_succ_iff_lt_or_eq.mp hearlier with hlt | rfl
    · refine ⟨List.mem_append_left _ (hreset earlier hlt).1, ?_⟩
      rw [Queue.storeSequence_slots_of_ne _ _ hlt.ne]
      exact (hreset earlier hlt).2
    · exact ⟨List.mem_append_right _ (List.mem_singleton_self _),
        Queue.storeSequence_slots_sequenceCounter _ _ _ _⟩
  refine hinv.acts hinside (hinv.guards.move (iff_of_true hstays hinside))
    rfl hnone ?_ ?_ ?_ ?_
  · intro _ other hmem
    rcases List.mem_append.mp hmem with hmem | hmem
    · exact hnone other hmem
    · rw [List.mem_singleton.mp hmem]
      rfl
  · intro hset
    exact absurd (hset.symm.trans hclear) Bool.true_eq_false_eq_False
  · unfold afterReset
    split
    next hmore => exact ⟨hclear, hmore, hupTo⟩
    next hlast =>
      refine ⟨hclear, ?_⟩
      intro other hother
      exact hupTo other (by omega)
  · exact hinv.engaged.of_uninitialized hclear rfl rfl

theorem InitInvariant.stores
    {base : ℕ} (hinv : InitInvariant layout slotSize slotAlign system)
    (hpc : system.callers caller = .storeBuffer base) :
    InitInvariant layout slotSize slotAlign
      (((system.setQueue { system.queue with buffer := base }).emit
        (.storedBuffer caller base)).move caller (.storeInitialized base)) := by
  have hinside : (system.callers caller).Inside := by
    rw [hpc]
    trivial
  have hself := hinv.callers_ok caller
  rw [hpc] at hself
  obtain ⟨hclear, hreset⟩ := hself
  have hnone := hinv.unpublished hclear
  refine hinv.acts hinside (hinv.guards.move (iff_of_true trivial hinside))
    rfl hnone ?_ ?_ ?_ ?_
  · intro _ other hmem
    rcases List.mem_append.mp hmem with hmem | hmem
    · exact hnone other hmem
    · rw [List.mem_singleton.mp hmem]
      rfl
  · intro hset
    exact absurd (hset.symm.trans hclear) Bool.true_eq_false_eq_False
  · exact ⟨hclear, rfl, hreset.snoc⟩
  · exact hinv.engaged.of_uninitialized hclear rfl rfl

theorem InitInvariant.publishes
    {base : ℕ} (hinv : InitInvariant layout slotSize slotAlign system)
    (hpc : system.callers caller = .storeInitialized base) :
    InitInvariant layout slotSize slotAlign
      (((system.setQueue { system.queue with isInitialized := true }).emit
        (.published caller base)).move caller .storeInitializing) := by
  have hinside : (system.callers caller).Inside := by
    rw [hpc]
    trivial
  have hself := hinv.callers_ok caller
  rw [hpc] at hself
  obtain ⟨hclear, hbuffer, hreset⟩ := hself
  have hnone := hinv.unpublished hclear
  have hok := isOk_eq_false_of_unpublished layout slotSize slotAlign
    hinv.log_fits hnone
  have hnew : InitEvent.published caller base ∈
      system.log ++ [.published caller base] :=
    List.mem_append_right _ (List.mem_singleton_self _)
  refine hinv.acts hinside (hinv.guards.move (iff_of_true trivial hinside))
    rfl ⟨hnone, fun index h => (hreset index h).1⟩ ?_ ?_ ⟨⟨base, hnew⟩, ?_⟩ ?_
  · intro hstill
    cases hstill
  · intro _
    exact ⟨caller, hbuffer ▸ hnew⟩
  · intro other hmem
    rcases List.mem_append.mp hmem with hmem | hmem
    · exact hok other hmem
    · rw [List.mem_singleton.mp hmem]
      rfl
  · exact hinv.engaged.of_uninitialized hclear rfl rfl

theorem InitInvariant.succeeds
    (hinv : InitInvariant layout slotSize slotAlign system)
    (hpc : system.callers caller = .storeInitializing) :
    InitInvariant layout slotSize slotAlign
      ((system.setInitializing false).leave caller (.ok ())) := by
  have hinside : (system.callers caller).Inside := by
    rw [hpc]
    trivial
  have hself := hinv.callers_ok caller
  rw [hpc] at hself
  refine hinv.acts hinside (hinv.guards.leave hinside id) rfl hself ?_ ?_
    trivial hinv.engaged
  · intro hclear other hmem
    rcases List.mem_append.mp hmem with hmem | hmem
    · exact hinv.unpublished hclear other hmem
    · rw [List.mem_singleton.mp hmem]
      rfl
  · intro hset
    obtain ⟨publisher, hmem⟩ := hinv.published hset
    exact ⟨publisher, List.mem_append_left _ hmem⟩

theorem InitInvariant.stepCaller
    (hinv : InitInvariant layout slotSize slotAlign system)
    (hstep : stepCaller layout system caller = some next) :
    InitInvariant layout slotSize slotAlign next := by
  have hself := hinv.callers_ok caller
  have hcase := stepCaller_callerStep hstep
  generalize hpc : system.callers caller = pc at hcase hself
  have houtside : ¬ pc.Inside → ¬ (system.callers caller).Inside := by
    rw [hpc]
    exact id
  have hinside : pc.Inside → (system.callers caller).Inside := by
    rw [hpc]
    exact id
  cases hcase with
  | refused base hset =>
      exact hinv.reports (hinv.guards.move (iff_of_false id (houtside id))) rfl
        rfl rfl hself trivial
  | loaded base hclear =>
      exact hinv.moves (hinv.guards.move (iff_of_false id (houtside id))) hself
  | contended base hbusy =>
      exact hinv.reports (hinv.guards.move (iff_of_false id (houtside id))) rfl
        rfl rfl hself trivial
  | exchanged base hfree =>
      have hguards := hinv.guards
      rw [hfree] at hguards
      exact hinv.moves (hguards.enter trivial) hself
  | overtaken base hset =>
      exact hinv.moves
        (hinv.guards.move (iff_of_true trivial (hinside trivial))) hself
  | rechecked base hclear =>
      refine hinv.moves
        (hinv.guards.move (iff_of_true trivial (hinside trivial))) ?_
      exact ⟨hclear, layout.capacity.size_pos,
        fun earlier h => absurd h (Nat.not_lt_zero earlier)⟩
  | withdrawn =>
      exact hinv.reports (hinv.guards.leave (hinside trivial) id) rfl rfl rfl
        hself trivial
  | sequenceReset base index => exact hinv.resets hpc
  | bufferStored base => exact hinv.stores hpc
  | published base => exact hinv.publishes hpc
  | succeeded => exact hinv.succeeds hpc

/-- A call begins.  Invalid arguments end it at once. -/
theorem InitInvariant.begins
    {basePtr sizeInBytes : ℕ}
    (hinv : InitInvariant layout slotSize slotAlign system)
    (hpc : system.callers caller = .idle) :
    InitInvariant layout slotSize slotAlign
      (system.emit (.called caller basePtr sizeInBytes)) := by
  have hsame : (system.emit (.called caller basePtr sizeInBytes)).move caller
      .idle = system.emit (.called caller basePtr sizeInBytes) := by
    simp only [InitSystem.move, InitSystem.emit, ← hpc,
      Function.update_eq_self]
  have houtside : ¬ (system.callers caller).Inside := by
    rw [hpc]
    exact id
  rw [← hsame]
  exact hinv.reports (hinv.guards.move (iff_of_false id houtside)) rfl rfl
    rfl trivial trivial

variable [Inhabited α]

theorem InitInvariant.stepInit
    {action : InitAction ι α}
    (hinv : InitInvariant layout slotSize slotAlign system)
    (hstep : stepInit layout slotSize slotAlign system action = some next) :
    InitInvariant layout slotSize slotAlign next := by
  cases action with
  | init caller basePtr sizeInBytes =>
      simp only [SlotQueue.stepInit] at hstep
      cases hpc : system.callers caller with
      | idle =>
          have houtside : ¬ (system.callers caller).Inside := by
            rw [hpc]
            exact id
          simp only [hpc] at hstep
          cases hvalid : validateBacking layout slotSize slotAlign basePtr
              sizeInBytes with
          | error failure =>
              simp only [hvalid] at hstep
              cases hstep
              have hbegun : Since
                  (Begins layout slotSize slotAlign caller failure)
                  (fun event => event.caller ≠ caller)
                  (system.log ++ [.called caller basePtr sizeInBytes]) := by
                apply Since.now
                refine ⟨basePtr, sizeInBytes, rfl, ?_⟩
                intro hok
                rw [hvalid] at hok
                cases hok
              exact (hinv.begins hpc).reports
                (hinv.guards.move (iff_of_false id houtside)) rfl rfl rfl
                hbegun trivial
          | ok _ =>
              simp only [hvalid] at hstep
              cases hstep
              have hbegun : CallerOk layout slotSize slotAlign system.queue
                  (system.log ++ [.called caller basePtr sizeInBytes]) caller
                  (.loadInitialized basePtr) :=
                Since.now _ ⟨basePtr, sizeInBytes, rfl, fun _ => rfl⟩
              exact hinv.reports
                (hinv.guards.move (iff_of_false id houtside)) rfl rfl rfl
                trivial hbegun
      | _ => simp [hpc] at hstep
  | caller caller => exact hinv.stepCaller hstep
  | queue action =>
      simp only [SlotQueue.stepInit] at hstep
      obtain ⟨queue, hqueue, rfl⟩ := Option.map_eq_some_iff.mp hstep
      obtain ⟨hinitialized, hbuffer⟩ := step_init_frame hqueue
      constructor
      · exact hinv.guards
      · exact hinv.log_fits
      · intro hclear
        exact hinv.unpublished (hinitialized.symm.trans hclear)
      · intro hset
        obtain ⟨publisher, hmem⟩ :=
          hinv.published (hinitialized.symm.trans hset)
        exact ⟨publisher, hbuffer.symm ▸ hmem⟩
      · intro caller
        exact (hinv.callers_ok caller).congr hinitialized hbuffer
          fun hclear => hinv.engaged.step_slots hclear hqueue
      · exact hinv.engaged.step hqueue

end Steps

/-! ## Writes and returns -/

section Returns

variable [DecidableEq ι] {layout : Layout} {slotSize slotAlign : ℕ}
variable {system next : InitSystem ι α} {caller : ι}

/-- A caller changes the buffer pointer or the backing memory only in a step
which logs that write. -/
theorem stepCaller_written
    (hstep : stepCaller layout system caller = some next) :
    (next.queue.slots = system.queue.slots ∧
        next.queue.buffer = system.queue.buffer) ∨
      ∃ event, next.log = system.log ++ [event] ∧ event.writes = true ∧
        event.caller = caller := by
  have hcase := stepCaller_callerStep hstep
  generalize system.callers caller = pc at hcase
  cases hcase with
  | sequenceReset base index =>
      exact Or.inr ⟨.resetSequence caller base index, rfl, rfl, rfl⟩
  | bufferStored base =>
      exact Or.inr ⟨.storedBuffer caller base, rfl, rfl, rfl⟩
  | _ => exact Or.inl ⟨rfl, rfl⟩

/-- Once the queue is initialized, its pointer and all backing memory are left
alone by every caller. -/
theorem InitInvariant.frozen
    (hinv : InitInvariant layout slotSize slotAlign system)
    (hset : system.queue.isInitialized = true)
    (hstep : SlotQueue.stepCaller layout system caller = some next) :
    next.queue.slots = system.queue.slots ∧
      next.queue.buffer = system.queue.buffer := by
  have hnext := hinv.stepCaller hstep
  rcases stepCaller_written hstep with hsame | ⟨event, hlog, hwrites, _⟩
  · exact hsame
  · obtain ⟨publisher, hpublished⟩ := hinv.published hset
    have hfits := hnext.log_fits system.log event [] hlog
    cases event with
    | resetSequence | storedBuffer =>
        have := hfits _ hpublished
        cases this
    | called | published | returned => cases hwrites

/-- When the queue becomes initialized, all counters of its buffer are 0. -/
theorem InitInvariant.zeroed
    [Inhabited α] {action : InitAction ι α}
    (hinv : InitInvariant layout slotSize slotAlign system)
    (hclear : system.queue.isInitialized = false)
    (hstep : SlotQueue.stepInit layout slotSize slotAlign system action =
      some next)
    (hset : next.queue.isInitialized = true) :
    ∀ index < layout.capacity.size,
      (next.queue.slots next.queue.buffer index).sequenceCounter = 0 := by
  have hchanged : next.queue.isInitialized ≠ system.queue.isInitialized := by
    rw [hset, hclear]
    exact Bool.false_ne_true.symm
  cases action with
  | init caller basePtr sizeInBytes =>
      simp only [SlotQueue.stepInit] at hstep
      split at hstep
      next =>
        split at hstep
        next =>
          cases hstep
          exact absurd rfl hchanged
        next =>
          cases hstep
          exact absurd rfl hchanged
      next => cases hstep
  | caller caller =>
      have hself := hinv.callers_ok caller
      have hcase := stepCaller_callerStep hstep
      generalize system.callers caller = pc at hcase hself
      cases hcase with
      | published base =>
          obtain ⟨_, hbuffer, hreset⟩ := hself
          intro index hindex
          exact hbuffer ▸ (hreset index hindex).2
      | _ => exact absurd rfl hchanged
  | queue action =>
      simp only [SlotQueue.stepInit] at hstep
      obtain ⟨queue, hqueue, rfl⟩ := Option.map_eq_some_iff.mp hstep
      exact absurd (step_init_frame hqueue).1 hchanged

/-- How many steps a caller is away from its return, at most. -/
def InitPc.rank (layout : Layout) : InitPc → ℕ
  | .idle => 0
  | .loadInitialized _ => layout.capacity.size + 7
  | .exchange _ => layout.capacity.size + 6
  | .recheck _ => layout.capacity.size + 5
  | .withdraw => 1
  | .resetSequence _ index => layout.capacity.size - index + 4
  | .storeBuffer _ => 3
  | .storeInitialized _ => 2
  | .storeInitializing => 1

theorem InitPc.rank_le (layout : Layout) (pc : InitPc) :
    pc.rank layout ≤ layout.capacity.size + 7 := by
  cases pc <;> simp only [InitPc.rank] <;> omega

theorem InitPc.rank_pos {pc : InitPc} (hpc : pc ≠ .idle) :
    0 < pc.rank layout := by
  cases pc with
  | idle => exact absurd rfl hpc
  | _ =>
      simp only [InitPc.rank]
      omega

theorem rank_afterReset (layout : Layout) (base index : ℕ) :
    (afterReset layout base index).rank layout + 1 ≤
      (InitPc.resetSequence base index).rank layout := by
  unfold afterReset
  split
  next hmore =>
    simp only [InitPc.rank]
    omega
  next =>
    simp only [InitPc.rank]
    omega

theorem afterReset_ne_idle (layout : Layout) (base index : ℕ) :
    afterReset layout base index ≠ .idle := by
  unfold afterReset
  split <;> simp

/-- Every step of a call ends it or brings its end closer. -/
theorem stepCaller_progress
    (hstep : stepCaller layout system caller = some next) :
    (∃ result, next.log = system.log ++ [.returned caller result]) ∨
      next.callers caller ≠ .idle ∧
        (next.callers caller).rank layout + 1 ≤
          (system.callers caller).rank layout := by
  have hcase := stepCaller_callerStep hstep
  generalize system.callers caller = pc at hcase
  cases hcase with
  | refused | contended | withdrawn | succeeded => exact Or.inl ⟨_, rfl⟩
  | loaded | exchanged | overtaken | rechecked | bufferStored | published =>
      simp [InitPc.rank]
  | sequenceReset base index =>
      have hrank := rank_afterReset layout base index
      have hidle := afterReset_ne_idle layout base index
      simpa using ⟨hidle, hrank⟩

theorem stepCaller_isSome (hpc : system.callers caller ≠ .idle) :
    (stepCaller layout system caller).isSome = true := by
  unfold stepCaller
  split
  next hidle => exact absurd hidle hpc
  all_goals
    first
      | rfl
      | split <;> rfl

theorem stepCaller_log
    (hstep : stepCaller layout system caller = some next) :
    ∃ events, next.log = system.log ++ events := by
  have hcase := stepCaller_callerStep hstep
  generalize system.callers caller = pc at hcase
  cases hcase with
  | loaded | exchanged | overtaken | rechecked =>
      exact ⟨[], (List.append_nil _).symm⟩
  | _ => exact ⟨_, rfl⟩

theorem stepCaller_callers_of_ne
    {other : ι} (hstep : stepCaller layout system caller = some next)
    (hother : other ≠ caller) :
    next.callers other = system.callers other := by
  have hcase := stepCaller_callerStep hstep
  generalize system.callers caller = pc at hcase
  cases hcase <;> exact Function.update_of_ne hother _ _

/-- A step of this caller. -/
def InitAction.isStepOf (caller : ι) : InitAction ι α → Bool
  | .caller other => decide (other = caller)
  | _ => false

variable [Inhabited α] {action : InitAction ι α}

theorem stepInit_log
    (hstep : stepInit layout slotSize slotAlign system action = some next) :
    ∃ events, next.log = system.log ++ events := by
  cases action with
  | init caller basePtr sizeInBytes =>
      simp only [stepInit] at hstep
      split at hstep
      next =>
        split at hstep
        next failure _ =>
          cases hstep
          refine ⟨[.called caller basePtr sizeInBytes,
            .returned caller (.error failure)], ?_⟩
          exact List.append_assoc _ _ _
        next =>
          cases hstep
          exact ⟨_, rfl⟩
      next => cases hstep
  | caller caller => exact stepCaller_log hstep
  | queue action =>
      simp only [stepInit] at hstep
      obtain ⟨queue, _, rfl⟩ := Option.map_eq_some_iff.mp hstep
      exact ⟨[], (List.append_nil _).symm⟩

/-- A call in progress is moved by its own steps only. -/
theorem stepInit_callers_of_not
    (hstep : stepInit layout slotSize slotAlign system action = some next)
    (hpc : system.callers caller ≠ .idle)
    (hother : action.isStepOf caller = false) :
    next.callers caller = system.callers caller := by
  cases action with
  | init starter basePtr sizeInBytes =>
      simp only [stepInit] at hstep
      split at hstep
      next hidle =>
        have hne : caller ≠ starter := by
          rintro rfl
          exact hpc hidle
        split at hstep
        next =>
          cases hstep
          exact Function.update_of_ne hne _ _
        next =>
          cases hstep
          exact Function.update_of_ne hne _ _
      next => cases hstep
  | caller other =>
      refine stepCaller_callers_of_ne hstep ?_
      rintro rfl
      simp [InitAction.isStepOf] at hother
  | queue action =>
      simp only [stepInit] at hstep
      obtain ⟨queue, _, rfl⟩ := Option.map_eq_some_iff.mp hstep
      rfl

/-- A call in progress has returned once it has taken as many steps as the
queue has slots, and seven more. -/
theorem run_returns
    {actions : List (InitAction ι α)}
    (hrun : run (stepInit layout slotSize slotAlign) system actions =
      some next)
    (hpc : system.callers caller ≠ .idle)
    (hsteps : layout.capacity.size + 7 ≤
      actions.countP (InitAction.isStepOf caller)) :
    ∃ result, .returned caller result ∈
      next.log.drop system.log.length := by
  let count := system.log.length
  have hreached := Execution.run_reaches
    (fun state : InitSystem ι α =>
      state.callers caller ≠ .idle ∧ count ≤ state.log.length)
    (fun state => count ≤ state.log.length ∧
      ∃ result, .returned caller result ∈ state.log.drop count)
    (fun state => (state.callers caller).rank layout)
    (InitAction.isStepOf caller) ?_ ?_ ?_ ⟨hpc, le_rfl⟩ hrun
    ((InitPc.rank_le layout _).trans hsteps)
  · exact hreached.2
  · rintro state action after ⟨hbusy, hcount⟩ hstep
    obtain ⟨events, hlog⟩ := stepInit_log hstep
    have hafter : count ≤ after.log.length := by
      rw [hlog, List.length_append]
      exact hcount.trans (Nat.le_add_right _ _)
    cases hown : action.isStepOf caller with
    | false =>
        have hsame := stepInit_callers_of_not hstep hbusy hown
        refine Or.inr ⟨⟨?_, hafter⟩, ?_⟩
        · rw [hsame]
          exact hbusy
        · rw [hsame]
          exact le_rfl
    | true =>
        match action, hown, hstep with
        | .caller other, hown, hstep =>
            obtain rfl : other = caller := of_decide_eq_true hown
            rcases stepCaller_progress hstep with
              ⟨result, hreturned⟩ | ⟨hstill, hrank⟩
            · refine Or.inl ⟨hafter, result, ?_⟩
              rw [hreturned, List.drop_append_of_le_length hcount]
              exact List.mem_append_right _ (List.mem_singleton_self _)
            · exact Or.inr ⟨⟨hstill, hafter⟩, hrank⟩
  · rintro state action after ⟨hcount, result, hmem⟩ hstep
    obtain ⟨events, hlog⟩ := stepInit_log hstep
    constructor
    · rw [hlog, List.length_append]
      exact hcount.trans (Nat.le_add_right _ _)
    · refine ⟨result, ?_⟩
      rw [hlog, List.drop_append_of_le_length hcount]
      exact List.mem_append_left _ hmem
  · intro state hwaiting
    exact InitPc.rank_pos hwaiting.1

end Returns

/-! ## Initialization is one-shot -/

section OneShot

variable [DecidableEq ι] [Inhabited α]

/-- What holds after every run: one call at most has returned `Ok`, every event
fits what was before it, the step which sets the flag finds all counters of the
buffer 0 in memory, whatever buffer the producer or the consumer accesses was
published, the callers write nothing that is not logged and nothing at all
once the queue is initialized, and every call returns. -/
structure OneShot
    (layout : Layout) (slotSize slotAlign : ℕ) (system : InitSystem ι α) :
    Prop where
  one_ok : system.log.countP InitEvent.isOk ≤ 1
  events_fit : AtEach (EventFits layout slotSize slotAlign) system.log
  initialized_iff : system.queue.isInitialized = true ↔
    ∃ publisher base, .published publisher base ∈ system.log
  zeroed : system.queue.isInitialized = false → ∀ action next,
    stepInit layout slotSize slotAlign system action = some next →
    next.queue.isInitialized = true →
    ∀ index < layout.capacity.size,
      (next.queue.slots next.queue.buffer index).sequenceCounter = 0
  base_published : ∀ base,
    system.queue.producer.base? = some base ∨
      system.queue.consumer.base? = some base →
    ∃ publisher, .published publisher base ∈ system.log
  writes_logged : ∀ caller next,
    stepCaller layout system caller = some next →
    (next.queue.slots = system.queue.slots ∧
        next.queue.buffer = system.queue.buffer) ∨
      ∃ event, next.log = system.log ++ [event] ∧ event.writes = true ∧
        event.caller = caller
  frozen : system.queue.isInitialized = true → ∀ caller next,
    stepCaller layout system caller = some next →
    next.queue.slots = system.queue.slots ∧
      next.queue.buffer = system.queue.buffer
  runnable : ∀ caller, system.callers caller ≠ .idle →
    (stepCaller layout system caller).isSome = true
  returns : ∀ caller actions later,
    run (stepInit layout slotSize slotAlign) system actions = some later →
    system.callers caller ≠ .idle →
    layout.capacity.size + 7 ≤ actions.countP (InitAction.isStepOf caller) →
    ∃ result, .returned caller result ∈ later.log.drop system.log.length

/-- Any number of concurrent calls of `init`, beside a producer and a consumer
in any interleaving. -/
theorem queue_init_is_one_shot
    {layout : Layout} {slotSize slotAlign : ℕ} {slots : ℕ → ℕ → Slot α}
    {actions : List (InitAction ι α)} {final : InitSystem ι α}
    (hrun : run (stepInit layout slotSize slotAlign) (.new slots) actions =
      some final) :
    OneShot layout slotSize slotAlign final := by
  have hinv : InitInvariant layout slotSize slotAlign final :=
    Execution.run_invariant (fun _ _ _ => InitInvariant.stepInit)
      (InitInvariant.new slots) hrun
  constructor
  · exact countP_isOk_le_one layout slotSize slotAlign hinv.log_fits
  · exact hinv.log_fits
  · constructor
    · intro hset
      obtain ⟨publisher, hmem⟩ := hinv.published hset
      exact ⟨publisher, final.queue.buffer, hmem⟩
    · rintro ⟨publisher, base, hmem⟩
      rw [← Bool.not_eq_false]
      intro hclear
      have := hinv.unpublished hclear _ hmem
      cases this
  · intro hclear action next hstep hset
    exact hinv.zeroed hclear hstep hset
  · intro base hbase
    have hset : final.queue.isInitialized = true := by
      rcases hbase with hbase | hbase
      · exact hinv.engaged.producer (ProducerPc.engaged_of_base hbase)
      · exact hinv.engaged.consumer (ConsumerPc.engaged_of_base hbase)
    have hbuffer : base = final.queue.buffer :=
      hbase.elim (hinv.engaged.producer_base base)
        (hinv.engaged.consumer_base base)
    rw [hbuffer]
    exact hinv.published hset
  · intro caller next hstep
    exact stepCaller_written hstep
  · intro hset caller next hstep
    exact hinv.frozen hset hstep
  · intro caller hpc
    exact stepCaller_isSome hpc
  · intro caller actions later hlater hpc hsteps
    exact run_returns hlater hpc hsteps

/-- A caller which has seen the queue uninitialized wins the exchange after
another call has finished, while an item is being pushed. -/
def racingSchedule : List (InitAction Bool ℕ) :=
  List.flatten
    [[.init false 4096 64, .init true 8192 64, .caller true],
      List.replicate 7 (.caller false),
      .queue (.push 7) :: List.replicate 6 (.queue .producer),
      List.replicate 3 (.caller true)]

theorem racing_log :
    (run (stepInit singleSlot 64 64)
        (.new fun _ _ => { data := .torn, sequenceCounter := 5 })
        racingSchedule).map
          (fun system => (system.log, system.queue.producer.base?)) =
      some ([.called false 4096 64, .called true 8192 64,
        .resetSequence false 4096 0, .storedBuffer false 4096,
        .published false 4096, .returned false (.ok ()),
        .returned true (.error .alreadyInitialized)], some 4096) := by
  decide +kernel

theorem queue_init_is_one_shot_when_raced :
    ∃ final, run (stepInit singleSlot 64 64)
        (.new fun _ _ => { data := .torn, sequenceCounter := 5 })
        racingSchedule = some final ∧
      .returned true (.error .alreadyInitialized) ∈ final.log ∧
      OneShot singleSlot 64 64 final := by
  obtain ⟨final, hrun, hlog⟩ := Option.map_eq_some_iff.mp racing_log
  refine ⟨final, hrun, ?_, queue_init_is_one_shot hrun⟩
  rw [(Prod.mk.inj hlog).1]
  decide

end OneShot

end SlotQueue
end ShawnCore
