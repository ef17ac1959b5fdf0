import ShawnCore.BitmapScheduler
import ShawnCore.DmaAllocations
import ShawnCore.QueueInit

/-!
# The initializers of the RTOS C interface

The host hands over the storage of a control object and a region of backing
memory.  An initializer checks both, overwrites the object with a new one, and
binds it to the region by `init`, which makes checks of its own.  Addresses and
sizes are 64-bit; the layouts of the types are whatever the compiler chooses.
Beside the storage an outcome has the ranges of memory which the call has
written.  A store to a field of the control object counts with the whole
object.
-/

namespace ShawnCore

/-- A range of written addresses. -/
structure WrittenRange where
  address : ℕ
  length : ℕ

def WrittenRange.addresses (range : WrittenRange) : Set ℕ :=
  Set.Ico range.address (range.address + range.length)

/-- What a call returns, and what it has done to the storage. -/
structure InitOutcome (σ ρ : Type) where
  result : ρ
  storage : σ
  writes : List WrittenRange

/-! ## `init` without other callers -/

namespace DmaPool

variable {τ : Type}

/-- One round of the loop of `init`. -/
def Pool.linkSlot (layout : Layout) (pool : Pool τ) (index : ℕ) : Pool τ :=
  (pool.storeNext index
    (if index + 1 < layout.slots then UInt64.ofNat (index + 1)
      else freeListEmpty.toUInt64)).storeOwnership index 0

def Pool.init
    (layout : Layout) (object : WrittenRange) (pool : Pool τ)
    (base sizeInBytes : ℕ) :
    InitOutcome (Pool τ) (Except AllocatorError Unit) :=
  match layout.validate base sizeInBytes with
  | .error failure => ⟨.error failure, pool, []⟩
  | .ok () =>
      if pool.isInitialized ∨ pool.isInitializing then
        ⟨.error .alreadyInitialized, pool, []⟩
      else
        let claimed := { pool with isInitializing := true, memory := base }
        let linked := (List.range layout.slots).foldl
          (Pool.linkSlot layout) claimed
        ⟨.ok (),
          { linked with
            head := packHead 0 0
            isInitialized := true
            isInitializing := false },
          List.replicate (2 * layout.slots + 5) object⟩

/-- A loop over the indices has stored one more entry. -/
theorem update_below {β : Type} (stored old : ℕ → β) (count : ℕ) :
    Function.update
        (fun index => if index < count then stored index else old index)
        count (stored count) =
      fun index => if index < count + 1 then stored index else old index := by
  funext index
  by_cases hindex : index = count
  · simp [hindex]
  · have hlt : index < count ↔ index < count + 1 := by omega
    simp [Function.update_of_ne hindex, hlt]

theorem foldl_linkSlot (layout : Layout) (pool : Pool τ) (count : ℕ) :
    (List.range count).foldl (Pool.linkSlot layout) pool =
      { pool with
        next := fun index =>
          if index < count then
            if index + 1 < layout.slots then UInt64.ofNat (index + 1)
            else freeListEmpty.toUInt64
          else
            pool.next index
        ownership := fun index =>
          if index < count then 0 else pool.ownership index } := by
  induction count with
  | zero => rfl
  | succ count ih =>
      rw [List.range_succ, List.foldl_append, ih, List.foldl_cons,
        List.foldl_nil, Pool.linkSlot, Pool.storeNext, Pool.storeOwnership]
      congr 1
      · exact update_below
          (fun index =>
            if index + 1 < layout.slots then UInt64.ofNat (index + 1)
            else freeListEmpty.toUInt64) pool.next count
      · exact update_below (fun _ => 0) pool.ownership count

/-- On a new pool `init` accepts all arguments which pass its checks. -/
theorem Pool.init_new_result
    {layout : Layout} {base sizeInBytes : ℕ}
    (hvalid : layout.validate base sizeInBytes = .ok ())
    (object : WrittenRange) (bytes : ℕ → UInt8) :
    ((Pool.new bytes : Pool τ).init layout object base sizeInBytes).result =
      .ok () := by
  simp only [Pool.init, hvalid, Pool.new, Bool.false_eq_true, or_self,
    if_false]

/-- It leaves what a call of the concurrent machine leaves. -/
theorem Pool.init_new_storage
    {layout : Layout} {base sizeInBytes : ℕ}
    (hvalid : layout.validate base sizeInBytes = .ok ())
    (object : WrittenRange) (bytes : ℕ → UInt8) (thread : τ) :
    ((Pool.new bytes).init layout object base sizeInBytes).storage =
      { Pool.initialized layout thread base bytes with transcript := [] } := by
  simp only [Pool.init, hvalid, Pool.new, Bool.false_eq_true, or_self,
    if_false, foldl_linkSlot]
  ext index
  · rfl
  · rfl
  · have hlast : ¬ index < layout.slots → ¬ index + 1 < layout.slots := by
      omega
    by_cases hindex : index < layout.slots
    · simp [Pool.initialized, hindex]
    · simp [Pool.initialized, hindex, hlast hindex]
  · simp [Pool.initialized]
  · rfl
  · rfl
  · rfl
  · rfl
  · rfl
  · rfl
  · rfl

theorem Pool.eq_of_mem_init_writes
    {layout : Layout} {object range : WrittenRange} {pool : Pool τ}
    {base sizeInBytes : ℕ}
    (hmem : range ∈ (pool.init layout object base sizeInBytes).writes) :
    range = object := by
  unfold Pool.init at hmem
  cases hvalid : layout.validate base sizeInBytes with
  | error failure => simp [hvalid] at hmem
  | ok done =>
      simp only [hvalid] at hmem
      split_ifs at hmem
      · cases hmem
      · exact List.eq_of_mem_replicate hmem

end DmaPool

namespace SlotQueue

variable {α : Type}

/-- A queue with the flag which `init` takes. -/
structure QueueObject (α : Type) where
  queue : Queue α
  isInitializing : Bool

def QueueObject.new (slots : ℕ → ℕ → Slot α) : QueueObject α where
  queue := Queue.new slots
  isInitializing := false

/-- The store to the sequence counter of a slot. -/
def counterRange
    (slotSize counterOffset base index : ℕ) : WrittenRange where
  address := base + index * slotSize + counterOffset
  length := 8

def QueueObject.init
    (layout : Layout) (slotSize slotAlign counterOffset : ℕ)
    (range : WrittenRange) (object : QueueObject α)
    (basePtr sizeInBytes : ℕ) :
    InitOutcome (QueueObject α) (Except IpcError Unit) :=
  match validateBacking layout slotSize slotAlign basePtr sizeInBytes with
  | .error failure => ⟨.error failure, object, []⟩
  | .ok () =>
      if object.queue.isInitialized ∨ object.isInitializing then
        ⟨.error .alreadyInitialized, object, []⟩
      else
        let claimed := { object with isInitializing := true }
        if claimed.queue.isInitialized then
          ⟨.error .alreadyInitialized,
            { claimed with isInitializing := false }, [range, range]⟩
        else
          ⟨.ok (),
            { queue :=
                { claimed.queue.resetSequences basePtr layout.capacity.size
                    with
                  buffer := basePtr
                  isInitialized := true }
              isInitializing := false },
            range :: (List.range layout.capacity.size).map
              (counterRange slotSize counterOffset basePtr) ++
                [range, range, range]⟩

namespace QueueObject

variable {layout : Layout} {slotSize slotAlign counterOffset base : ℕ}
  {sizeInBytes : ℕ}

/-- On a new queue, with arguments which pass its checks, `init` succeeds. -/
theorem init_new
    (hvalid :
      validateBacking layout slotSize slotAlign base sizeInBytes = .ok ())
    (counterOffset : ℕ) (range : WrittenRange) (slots : ℕ → ℕ → Slot α) :
    (QueueObject.new slots).init layout slotSize slotAlign counterOffset range
        base sizeInBytes =
      ⟨.ok (),
        { queue :=
            { (Queue.new slots).resetSequences base layout.capacity.size with
              buffer := base
              isInitialized := true }
          isInitializing := false },
        range :: (List.range layout.capacity.size).map
          (counterRange slotSize counterOffset base) ++
            [range, range, range]⟩ := by
  simp only [init, hvalid, QueueObject.new, Queue.new, Bool.false_eq_true,
    or_self, if_false]

theorem init_ready
    (hvalid :
      validateBacking layout slotSize slotAlign base sizeInBytes = .ok ())
    (counterOffset : ℕ) (range : WrittenRange) (slots : ℕ → ℕ → Slot α) :
    Ready layout base
      ((QueueObject.new slots).init layout slotSize slotAlign counterOffset
        range base sizeInBytes).storage.queue := by
  rw [init_new hvalid]
  apply Queue.init_ready
  rw [Queue.init_of_validateBacking hvalid rfl]

theorem mem_init_writes
    {range written : WrittenRange} {object : QueueObject α}
    (hmem : written ∈ (object.init layout slotSize slotAlign counterOffset
      range base sizeInBytes).writes) :
    written = range ∨
      ∃ index < layout.capacity.size,
        written = counterRange slotSize counterOffset base index := by
  unfold init at hmem
  cases hvalid :
      validateBacking layout slotSize slotAlign base sizeInBytes with
  | error failure => simp [hvalid] at hmem
  | ok done =>
      simp only [hvalid] at hmem
      split_ifs at hmem
      · cases hmem
      · left
        simpa using hmem
      · simp only [List.cons_append, List.mem_cons, List.mem_append,
          List.mem_map, List.mem_range, List.not_mem_nil, or_false] at hmem
        rcases hmem with hrange | ⟨index, hindex, hcounter⟩ | hrange
        · exact Or.inl hrange
        · exact Or.inr ⟨index, hindex, hcounter.symm⟩
        · left
          simpa using hrange

end QueueObject

end SlotQueue

/-! ## The initializers -/

namespace Rtos

open DmaPool (AllocatorError Pool)
open SlotQueue (IpcError QueueObject)

variable {τ α σ ε : Type}

/-- The codes of `ShawncoreRtosErr` which an initializer can return. -/
inductive ShawncoreRtosErr
  | success
  | outOfMemory
  | addressOutOfBounds
  | invalidAlignment
  | lockContention
  | doubleFree
  | notInitialized
  | alreadyInitialized
  | queueFull
  | invalidMemory
deriving DecidableEq

def ShawncoreRtosErr.fromAllocatorError : AllocatorError → ShawncoreRtosErr
  | .outOfMemory => .outOfMemory
  | .addressOutOfBounds => .addressOutOfBounds
  | .invalidAlignment => .invalidAlignment
  | .lockContention => .lockContention
  | .doubleFree => .doubleFree
  | .notInitialized => .notInitialized
  | .alreadyInitialized => .alreadyInitialized

def ShawncoreRtosErr.fromIpcError : IpcError → ShawncoreRtosErr
  | .queueFull => .queueFull
  | .notInitialized => .notInitialized
  | .alreadyInitialized => .alreadyInitialized
  | .invalidMemory => .invalidMemory

/-- The layout of a type: its size is a positive multiple of its alignment. -/
structure TypeLayout where
  size : UInt64
  align : UInt64
  size_pos : 0 < size.toNat
  align_dvd : align.toNat ∣ size.toNat

/-- The layout of `CacheAlignedSlot<T>`, with the place of its counter. -/
structure SlotLayout extends TypeLayout where
  counterOffset : ℕ
  counter_le : counterOffset + 8 ≤ size.toNat

/-- The types of the C interface whose layout is not fixed by an array, how they
were built, and whether the host has registered the flush callback. -/
structure Types where
  dmaPool2K : TypeLayout
  spscQueueTelemetry : TypeLayout
  telemetrySlot : SlotLayout
  ringBufferEwCommand : TypeLayout
  ewCommandSlot : SlotLayout
  spscQueueFft : TypeLayout
  fftSlot : SlotLayout
  debugAssertions : Bool
  flushRegistered : Bool

def checkedMul (left right : UInt64) : Option UInt64 :=
  if left.toNat * right.toNat < 2 ^ 64 then some (left * right) else none

def validDmaRegion
    (element : TypeLayout) (memoryBase sizeInBytes elementCount : UInt64) :
    Bool :=
  if memoryBase = 0 ∨ memoryBase % 4096 ≠ 0 ∨
      memoryBase % element.align ≠ 0 then
    false
  else
    (((checkedMul elementCount element.size).bind fun requiredSize =>
      if requiredSize ≤ sizeInBytes then some requiredSize else none).bind
        fun requiredSize => checkedAdd memoryBase requiredSize).isSome

def rangesOverlap (first firstLen second secondLen : UInt64) : Bool :=
  match checkedAdd first firstLen with
  | none => true
  | some firstEnd =>
      match checkedAdd second secondLen with
      | none => true
      | some secondEnd =>
          decide (first < secondEnd) && decide (second < firstEnd)

def ptrIsAligned (type : TypeLayout) (ptr : UInt64) : Bool :=
  ptr % type.align == 0

def objectOverlapsBacking
    (type : TypeLayout) (object backing backingLen : UInt64) : Bool :=
  rangesOverlap object type.size backing backingLen

/-- The body of an initializer: `new` overwrites the object in the storage, and
`init` binds it to the backing memory. -/
def initInPlace
    (type element : TypeLayout) (elementCount : UInt64) (new : σ → σ)
    (init : σ → InitOutcome σ (Except ε Unit))
    (toCode : ε → ShawncoreRtosErr) (storage : σ)
    (object memoryBase sizeInBytes : UInt64) :
    InitOutcome σ ShawncoreRtosErr :=
  if object = 0 ∨
      validDmaRegion element memoryBase sizeInBytes elementCount = false ∨
      objectOverlapsBacking type object memoryBase sizeInBytes = true then
    ⟨.invalidMemory, storage, []⟩
  else if ptrIsAligned type object = false then
    ⟨.invalidMemory, storage, []⟩
  else
    let bound := init (new storage)
    ⟨match bound.result with
      | .ok () => .success
      | .error failure => toCode failure,
      bound.storage,
      ⟨object.toNat, type.size.toNat⟩ :: bound.writes⟩

/-- `[u8; 2048]`. -/
def byteArray2048 : TypeLayout where
  size := 2048
  align := 1
  size_pos := by decide
  align_dvd := by decide

/-- `StaticDmaPool<[u8; 2048], 256, 4>`. -/
def dmaPool2K (types : Types) : DmaPool.Layout where
  slots := 256
  size := 2048
  align := 1
  bitmapWords := 4
  debugAssertions := types.debugAssertions
  flushRegistered := types.flushRegistered
  slots_pos := by decide
  slots_le := by decide

/-- `SpscQueue<TelemetryEvent, 64>`. -/
def spscQueueTelemetry : SlotQueue.Layout where
  capacityLog := 6
  itemSize := 64
  capacityLog_lt := by decide

/-- `RingBuffer<EwCommand, 1024>`. -/
def ringBufferEwCommand : SlotQueue.Layout where
  capacityLog := 10
  itemSize := 24
  capacityLog_lt := by decide

/-- `SpscQueue<FftResult, 256>`. -/
def spscQueueFft : SlotQueue.Layout where
  capacityLog := 8
  itemSize := 64
  capacityLog_lt := by decide

variable (types : Types)

def shawncoreRtosDmapool2kInit
    (storage : Pool τ) (pool memoryBase sizeInBytes : UInt64) :
    InitOutcome (Pool τ) ShawncoreRtosErr :=
  initInPlace types.dmaPool2K byteArray2048 256
    (fun storage => Pool.new storage.bytes)
    (fun object => object.init (dmaPool2K types)
      ⟨pool.toNat, types.dmaPool2K.size.toNat⟩
      memoryBase.toNat sizeInBytes.toNat)
    .fromAllocatorError storage pool memoryBase sizeInBytes

/-- The three initializers of slot queues. -/
def queueInit
    (type : TypeLayout) (slot : SlotLayout) (layout : SlotQueue.Layout)
    (elementCount : UInt64) (storage : QueueObject α)
    (queue memoryBase sizeInBytes : UInt64) :
    InitOutcome (QueueObject α) ShawncoreRtosErr :=
  initInPlace type slot.toTypeLayout elementCount
    (fun storage => QueueObject.new storage.queue.slots)
    (fun object => object.init layout slot.size.toNat slot.align.toNat
      slot.counterOffset ⟨queue.toNat, type.size.toNat⟩
      memoryBase.toNat sizeInBytes.toNat)
    .fromIpcError storage queue memoryBase sizeInBytes

def shawncoreRtosSpscTelemetryInit
    (storage : QueueObject α) (queue memoryBase sizeInBytes : UInt64) :
    InitOutcome (QueueObject α) ShawncoreRtosErr :=
  queueInit types.spscQueueTelemetry types.telemetrySlot spscQueueTelemetry
    64 storage queue memoryBase sizeInBytes

def shawncoreRtosRingbufferEwInit
    (storage : QueueObject α) (rb memoryBase sizeInBytes : UInt64) :
    InitOutcome (QueueObject α) ShawncoreRtosErr :=
  queueInit types.ringBufferEwCommand types.ewCommandSlot ringBufferEwCommand
    1024 storage rb memoryBase sizeInBytes

def shawncoreRtosSpscFftInit
    (storage : QueueObject α) (queue memoryBase sizeInBytes : UInt64) :
    InitOutcome (QueueObject α) ShawncoreRtosErr :=
  queueInit types.spscQueueFft types.fftSlot spscQueueFft
    256 storage queue memoryBase sizeInBytes

end Rtos
end ShawnCore
