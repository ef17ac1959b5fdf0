import ShawnCore.ExclusiveFlag
import ShawnCore.RingBufferPeek

/-!
# Concurrent initialization of a slot queue

`SpscQueue::init` and `RingBuffer::init` are the same code: after the checks of
the arguments, two loads of `is_initialized` around a compare-and-exchange of
`is_initializing`, the reset of the sequence counters, and three publishing
stores.  Here any number of callers run it, one memory access a step, beside
the producer and the consumer of `SlotQueue.step`.  A backing buffer is known
by its base address.  The log is ghost state: the writes of the callers, and
when their calls begin and end.
-/

namespace ShawnCore
namespace SlotQueue

open EventLog ExclusiveFlag

theorem validateBacking_eq_ok_iff
    {layout : Layout} {slotSize slotAlign basePtr sizeInBytes : ℕ} :
    validateBacking layout slotSize slotAlign basePtr sizeInBytes = .ok () ↔
      basePtr ≠ 0 ∧ layout.capacity.size * slotSize < 2 ^ 64 ∧
        layout.capacity.size * slotSize ≤ sizeInBytes ∧
        basePtr % 4096 = 0 ∧ basePtr % slotAlign = 0 := by
  unfold validateBacking
  split_ifs with hnull hmul hsize halign
  · simp [hnull]
  · simp only [false_iff]
    omega
  · simp [hsize.not_ge]
  · simp only [false_iff]
    tauto
  · simp only [true_iff]
    push Not at hmul hsize halign
    exact ⟨hnull, hmul, hsize, halign⟩

/-- The sequential `init` on a new queue. -/
theorem Queue.init_of_validateBacking
    {α : Type} {layout : Layout} {slotSize slotAlign base sizeInBytes : ℕ}
    {queue : Queue α}
    (hvalid :
      validateBacking layout slotSize slotAlign base sizeInBytes = .ok ())
    (hnew : queue.isInitialized = false) :
    queue.init layout slotSize slotAlign base sizeInBytes =
      .ok { queue.resetSequences base layout.capacity.size with
        buffer := base
        isInitialized := true } := by
  simp only [Queue.init, hvalid, hnew, Bool.false_eq_true, if_false]

/-- The program counter of a caller of `init`. -/
inductive InitPc
  | idle
  | loadInitialized (base : ℕ)
  | exchange (base : ℕ)
  | recheck (base : ℕ)
  | withdraw
  | resetSequence (base index : ℕ)
  | storeBuffer (base : ℕ)
  | storeInitialized (base : ℕ)
  | storeInitializing

inductive InitEvent (ι : Type)
  | called (caller : ι) (basePtr sizeInBytes : ℕ)
  | resetSequence (caller : ι) (base index : ℕ)
  | storedBuffer (caller : ι) (base : ℕ)
  | published (caller : ι) (base : ℕ)
  | returned (caller : ι) (result : Except IpcError Unit)
deriving DecidableEq

structure InitSystem (ι α : Type) where
  queue : Queue α
  isInitializing : Bool
  callers : ι → InitPc
  log : List (InitEvent ι)

variable {ι α : Type} [DecidableEq ι] [Inhabited α]

namespace InitEvent

def caller : InitEvent ι → ι
  | .called caller _ _ => caller
  | .resetSequence caller _ _ => caller
  | .storedBuffer caller _ => caller
  | .published caller _ => caller
  | .returned caller _ => caller

/-- A write of the buffer pointer or of backing memory. -/
def writes : InitEvent ι → Bool
  | .resetSequence .. => true
  | .storedBuffer .. => true
  | _ => false

def isPublished : InitEvent ι → Bool
  | .published .. => true
  | _ => false

def isOk : InitEvent ι → Bool
  | .returned _ (.ok ()) => true
  | _ => false

end InitEvent

namespace InitSystem

/-- `new`, in a memory with these contents. -/
def new (slots : ℕ → ℕ → Slot α) : InitSystem ι α where
  queue := Queue.new slots
  isInitializing := false
  callers _ := .idle
  log := []

@[simps] def move
    (system : InitSystem ι α) (caller : ι) (pc : InitPc) : InitSystem ι α :=
  { system with callers := Function.update system.callers caller pc }

@[simps] def emit
    (system : InitSystem ι α) (event : InitEvent ι) : InitSystem ι α :=
  { system with log := system.log ++ [event] }

@[simps] def setInitializing
    (system : InitSystem ι α) (flag : Bool) : InitSystem ι α :=
  { system with isInitializing := flag }

@[simps] def setQueue
    (system : InitSystem ι α) (queue : Queue α) : InitSystem ι α :=
  { system with queue := queue }

/-- The call of this caller is over. -/
def leave
    (system : InitSystem ι α) (caller : ι) (result : Except IpcError Unit) :
    InitSystem ι α :=
  (system.emit (.returned caller result)).move caller .idle

end InitSystem

variable (layout : Layout)

/-- The loop `for index in 0..N` after the store to this index. -/
def afterReset (base index : ℕ) : InitPc :=
  if index + 1 < layout.capacity.size then
    .resetSequence base (index + 1)
  else
    .storeBuffer base

def stepCaller (system : InitSystem ι α) (caller : ι) :
    Option (InitSystem ι α) :=
  match system.callers caller with
  | .idle => none
  | .loadInitialized base =>
      if system.queue.isInitialized then
        some (system.leave caller (.error .alreadyInitialized))
      else
        some (system.move caller (.exchange base))
  | .exchange base =>
      if system.isInitializing then
        some (system.leave caller (.error .alreadyInitialized))
      else
        some ((system.setInitializing true).move caller (.recheck base))
  | .recheck base =>
      if system.queue.isInitialized then
        some (system.move caller .withdraw)
      else
        some (system.move caller (.resetSequence base 0))
  | .withdraw =>
      some ((system.setInitializing false).leave caller
        (.error .alreadyInitialized))
  | .resetSequence base index =>
      some (((system.setQueue (system.queue.storeSequence base index 0)).emit
        (.resetSequence caller base index)).move caller
          (afterReset layout base index))
  | .storeBuffer base =>
      some (((system.setQueue { system.queue with buffer := base }).emit
        (.storedBuffer caller base)).move caller (.storeInitialized base))
  | .storeInitialized base =>
      some (((system.setQueue { system.queue with isInitialized := true }).emit
        (.published caller base)).move caller .storeInitializing)
  | .storeInitializing =>
      some ((system.setInitializing false).leave caller (.ok ()))

/-- Every step of a caller of `init`. -/
inductive CallerStep (system : InitSystem ι α) (caller : ι) :
    InitPc → InitSystem ι α → Prop
  | refused (base : ℕ) (hset : system.queue.isInitialized = true) :
      CallerStep system caller (.loadInitialized base)
        (system.leave caller (.error .alreadyInitialized))
  | loaded (base : ℕ) (hclear : system.queue.isInitialized = false) :
      CallerStep system caller (.loadInitialized base)
        (system.move caller (.exchange base))
  | contended (base : ℕ) (hbusy : system.isInitializing = true) :
      CallerStep system caller (.exchange base)
        (system.leave caller (.error .alreadyInitialized))
  | exchanged (base : ℕ) (hfree : system.isInitializing = false) :
      CallerStep system caller (.exchange base)
        ((system.setInitializing true).move caller (.recheck base))
  | overtaken (base : ℕ) (hset : system.queue.isInitialized = true) :
      CallerStep system caller (.recheck base) (system.move caller .withdraw)
  | rechecked (base : ℕ) (hclear : system.queue.isInitialized = false) :
      CallerStep system caller (.recheck base)
        (system.move caller (.resetSequence base 0))
  | withdrawn :
      CallerStep system caller .withdraw
        ((system.setInitializing false).leave caller
          (.error .alreadyInitialized))
  | sequenceReset (base index : ℕ) :
      CallerStep system caller (.resetSequence base index)
        (((system.setQueue (system.queue.storeSequence base index 0)).emit
          (.resetSequence caller base index)).move caller
            (afterReset layout base index))
  | bufferStored (base : ℕ) :
      CallerStep system caller (.storeBuffer base)
        (((system.setQueue { system.queue with buffer := base }).emit
          (.storedBuffer caller base)).move caller (.storeInitialized base))
  | published (base : ℕ) :
      CallerStep system caller (.storeInitialized base)
        (((system.setQueue { system.queue with isInitialized := true }).emit
          (.published caller base)).move caller .storeInitializing)
  | succeeded :
      CallerStep system caller .storeInitializing
        ((system.setInitializing false).leave caller (.ok ()))

omit [Inhabited α] in
theorem stepCaller_callerStep
    {layout : Layout} {system next : InitSystem ι α} {caller : ι}
    (hstep : stepCaller layout system caller = some next) :
    CallerStep layout system caller (system.callers caller) next := by
  unfold stepCaller at hstep
  generalize system.callers caller = pc at hstep ⊢
  cases pc with
  | idle => cases hstep
  | loadInitialized base =>
      simp only at hstep
      split_ifs at hstep with hset
      · cases hstep
        exact .refused base hset
      · cases hstep
        exact .loaded base (Bool.eq_false_of_not_eq_true hset)
  | exchange base =>
      simp only at hstep
      split_ifs at hstep with hbusy
      · cases hstep
        exact .contended base hbusy
      · cases hstep
        exact .exchanged base (Bool.eq_false_of_not_eq_true hbusy)
  | recheck base =>
      simp only at hstep
      split_ifs at hstep with hset
      · cases hstep
        exact .overtaken base hset
      · cases hstep
        exact .rechecked base (Bool.eq_false_of_not_eq_true hset)
  | withdraw =>
      cases hstep
      exact .withdrawn
  | resetSequence base index =>
      cases hstep
      exact .sequenceReset base index
  | storeBuffer base =>
      cases hstep
      exact .bufferStored base
  | storeInitialized base =>
      cases hstep
      exact .published base
  | storeInitializing =>
      cases hstep
      exact .succeeded

inductive InitAction (ι α : Type)
  | init (caller : ι) (basePtr sizeInBytes : ℕ)
  | caller (caller : ι)
  | queue (action : Action α)

/-- The size and the alignment of a slot are those of
`CacheAlignedSlot<T>`. -/
def stepInit (slotSize slotAlign : ℕ) (system : InitSystem ι α) :
    InitAction ι α → Option (InitSystem ι α)
  | .init caller basePtr sizeInBytes =>
      match system.callers caller with
      | .idle =>
          let entered := system.emit (.called caller basePtr sizeInBytes)
          match validateBacking layout slotSize slotAlign basePtr
              sizeInBytes with
          | .error failure => some (entered.leave caller (.error failure))
          | .ok () => some (entered.move caller (.loadInitialized basePtr))
      | _ => none
  | .caller caller => stepCaller layout system caller
  | .queue action =>
      (step layout system.queue action).map fun queue => system.setQueue queue

end SlotQueue
end ShawnCore
