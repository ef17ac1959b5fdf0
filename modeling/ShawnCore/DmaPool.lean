import ShawnCore.Execution

/-!
# The DMA pool as a concurrent machine

`static_dma_pool.rs` with any number of threads.  One step of a thread is one
access to shared memory together with the local computation up to the next
access, under sequential consistency; weak compare-exchanges may also fail
spuriously.  The transcript, the count of free-list updates and the time of the
last read of the head are ghost state: no step looks at them.
-/

namespace ShawnCore
namespace DmaPool

inductive AllocatorError
  | outOfMemory
  | addressOutOfBounds
  | invalidAlignment
  | lockContention
  | doubleFree
  | notInitialized
  | alreadyInitialized
deriving DecidableEq

/-- The parameters of `StaticDmaPool<T, N, BITMAP_WORDS>`, and whether the host
has registered the callback which flushes the cache; `new` asserts the two
bounds at compile time. -/
structure Layout where
  slots : ℕ
  size : ℕ
  align : ℕ
  bitmapWords : ℕ
  debugAssertions : Bool
  flushRegistered : Bool
  slots_pos : 0 < slots
  slots_le : slots ≤ 2 ^ 32 - 1

def freeListEmpty : UInt32 := 0xFFFFFFFF
def ownershipAllocatedBit : UInt64 := 0x8000000000000000
def ownershipGenerationMask : UInt64 := 0x7FFFFFFFFFFFFFFF

def packHead (index generation : UInt32) : UInt64 :=
  (generation.toUInt64 <<< 32) ||| index.toUInt64

def headIndex (value : UInt64) : UInt32 := value.toUInt32
def headGeneration (value : UInt64) : UInt32 := (value >>> 32).toUInt32

def nextGeneration (observedState : UInt64) : UInt64 :=
  ((observedState &&& ownershipGenerationMask) + 1) &&& ownershipGenerationMask

/-- `init` checks its arguments before it touches the pool. -/
def Layout.validate (layout : Layout) (base sizeInBytes : ℕ) :
    Except AllocatorError Unit :=
  if layout.size = 0 then
    .error .addressOutOfBounds
  else if base = 0 then
    .error .addressOutOfBounds
  else if 2 ^ 64 ≤ layout.slots * layout.size then
    .error .addressOutOfBounds
  else if sizeInBytes < layout.slots * layout.size ∨
      2 ^ 64 ≤ base + layout.slots * layout.size then
    .error .addressOutOfBounds
  else if base % 4096 ≠ 0 ∨ base % layout.align ≠ 0 then
    .error .invalidAlignment
  else if layout.bitmapWords ≠ (layout.slots + 63) / 64 then
    .error .addressOutOfBounds
  else
    .ok ()

theorem Layout.validate_eq_ok_iff
    {layout : Layout} {base sizeInBytes : ℕ} :
    layout.validate base sizeInBytes = .ok () ↔
      layout.size ≠ 0 ∧ base ≠ 0 ∧
        layout.slots * layout.size ≤ sizeInBytes ∧
        base + layout.slots * layout.size < 2 ^ 64 ∧
        base % 4096 = 0 ∧ base % layout.align = 0 ∧
        layout.bitmapWords = (layout.slots + 63) / 64 := by
  unfold validate
  split_ifs with hsize hnull hmul hregion halign hwords
  · simp [hsize]
  · simp [hnull]
  · simp only [false_iff]
    omega
  · simp only [false_iff]
    omega
  · simp only [false_iff]
    tauto
  · simp [hwords]
  · simp only [true_iff]
    push Not at hregion halign hwords
    exact ⟨hsize, hnull, hregion.1, hregion.2, halign.1, halign.2, hwords⟩

inductive WipePhase
  | leading
  | words
  | trailing
deriving DecidableEq

/-- The program counter of a thread: what it accesses next, with its local
variables. -/
inductive Pc
  | idle
  | panicked
  | initCheck (base : ℕ)
  | initClaim (base : ℕ)
  | initMemory (base : ℕ)
  | initNext (index : ℕ)
  | initOwnership (index : ℕ)
  | initHead
  | initPublish
  | initRelease
  | allocCheck
  | allocMemory
  | allocHead (base : ℕ)
  | allocNext (base : ℕ) (observed : UInt64)
  | allocSwap (base : ℕ) (observed : UInt64) (nextIndex : UInt32)
  | allocOwner (base slot : ℕ)
  | allocClaim (base slot : ℕ) (observedState : UInt64)
  | freeCheck (slot : ℕ) (generation : UInt64)
  | freeRelease (slot : ℕ) (generation : UInt64)
  | freeMemory (slot : ℕ)
  | freeWipe (slot base offset : ℕ) (phase : WipePhase)
  | freeFlush (slot : ℕ)
  | freeHead (slot : ℕ)
  | freeNext (slot : ℕ) (observed : UInt64)
  | freeSwap (slot : ℕ) (observed : UInt64)
deriving DecidableEq

inductive Outcome
  | initialized
  | allocated (slot : ℕ) (token : UInt64) (pointer : ℕ)
  | freed
  | failed (error : AllocatorError)
deriving DecidableEq

inductive Event (τ : Type)
  | claimed (thread : τ) (slot : ℕ) (token : UInt64)
  | released (thread : τ) (slot : ℕ) (token : UInt64)
  | returned (thread : τ) (outcome : Outcome)
deriving DecidableEq

inductive Operation
  | init (base sizeInBytes : ℕ)
  | allocate
  | free (slot : ℕ) (generation : UInt64)

inductive Action (τ : Type)
  | call (thread : τ) (operation : Operation)
  | step (thread : τ) (spurious : Bool)
  | hostWrite (address : ℕ) (value : UInt8)

@[ext] structure Pool (τ : Type) where
  memory : ℕ
  head : UInt64
  next : ℕ → UInt64
  ownership : ℕ → UInt64
  isInitialized : Bool
  isInitializing : Bool
  bytes : ℕ → UInt8
  pc : τ → Pc
  headUpdates : ℕ
  readAt : τ → ℕ
  transcript : List (Event τ)

variable {τ : Type} [DecidableEq τ]

namespace Pool

/-- `StaticDmaPool::new`; the content of the memory is arbitrary. -/
def new (bytes : ℕ → UInt8) : Pool τ where
  memory := 0
  head := packHead 0 0
  next _ := freeListEmpty.toUInt64
  ownership _ := 0
  isInitialized := false
  isInitializing := false
  bytes := bytes
  pc _ := .idle
  headUpdates := 0
  readAt _ := 0
  transcript := []

@[simps] def goto (pool : Pool τ) (thread : τ) (pc : Pc) : Pool τ :=
  { pool with pc := Function.update pool.pc thread pc }

@[simps] def emit (pool : Pool τ) (event : Event τ) : Pool τ :=
  { pool with transcript := pool.transcript ++ [event] }

/-- The call of the thread returns. -/
@[simps!] def finish (pool : Pool τ) (thread : τ) (outcome : Outcome) : Pool τ :=
  (pool.goto thread .idle).emit (.returned thread outcome)

/-- Note that the thread has just read the head. -/
@[simps] def markRead (pool : Pool τ) (thread : τ) : Pool τ :=
  { pool with readAt := Function.update pool.readAt thread pool.headUpdates }

@[simps] def swapHead (pool : Pool τ) (replacement : UInt64) : Pool τ :=
  { pool with head := replacement, headUpdates := pool.headUpdates + 1 }

@[simps] def storeNext (pool : Pool τ) (index : ℕ) (value : UInt64) : Pool τ :=
  { pool with next := Function.update pool.next index value }

@[simps] def storeOwnership
    (pool : Pool τ) (slot : ℕ) (value : UInt64) : Pool τ :=
  { pool with ownership := Function.update pool.ownership slot value }

@[simps] def storeByte (pool : Pool τ) (address : ℕ) (value : UInt8) : Pool τ :=
  { pool with bytes := Function.update pool.bytes address value }

/-- A volatile 64-bit store of zero. -/
@[simps] def storeZeroWord (pool : Pool τ) (address : ℕ) : Pool τ :=
  { pool with
    bytes := fun other =>
      if address ≤ other ∧ other < address + 8 then 0 else pool.bytes other }

/-- `allocate` looks at a head value it has read: the loop ends on the empty
list, and goes on to the `next` entry of the first slot otherwise. -/
def allocLoop (pool : Pool τ) (thread : τ) (base : ℕ) : Pool τ :=
  if headIndex pool.head = freeListEmpty then
    pool.finish thread (.failed .outOfMemory)
  else
    (pool.markRead thread).goto thread (.allocNext base pool.head)

/-- `free` has read the head and is about to link its slot to it. -/
def freeLoop (pool : Pool τ) (thread : τ) (slot : ℕ) : Pool τ :=
  (pool.markRead thread).goto thread (.freeNext slot pool.head)

end Pool

variable (layout : Layout)

def startCall (pool : Pool τ) (thread : τ) : Operation → Pool τ
  | .init base sizeInBytes =>
      match layout.validate base sizeInBytes with
      | .error error => pool.finish thread (.failed error)
      | .ok () => pool.goto thread (.initCheck base)
  | .allocate => pool.goto thread .allocCheck
  | .free slot generation => pool.goto thread (.freeCheck slot generation)

/-! ## `init` -/

def stepInit (pool : Pool τ) (thread : τ) : Pc → Option (Pool τ)
  | .initCheck base =>
      if pool.isInitialized then
        some (pool.finish thread (.failed .alreadyInitialized))
      else
        some (pool.goto thread (.initClaim base))
  | .initClaim base =>
      if pool.isInitializing then
        some (pool.finish thread (.failed .alreadyInitialized))
      else
        some ({ pool with isInitializing := true }.goto thread
          (.initMemory base))
  | .initMemory base =>
      some ({ pool with memory := base }.goto thread (.initNext 0))
  | .initNext index =>
      if index < layout.slots then
        some ((pool.storeNext index
          (if index + 1 < layout.slots then UInt64.ofNat (index + 1)
            else freeListEmpty.toUInt64)).goto thread (.initOwnership index))
      else
        some (pool.goto thread .initHead)
  | .initOwnership index =>
      some ((pool.storeOwnership index 0).goto thread (.initNext (index + 1)))
  | .initHead =>
      some ({ pool with head := packHead 0 0 }.goto thread .initPublish)
  | .initPublish =>
      some ({ pool with isInitialized := true }.goto thread .initRelease)
  | .initRelease =>
      some ({ pool with isInitializing := false }.finish thread .initialized)
  | _ => none

/-! ## `allocate` -/

def stepAllocate (pool : Pool τ) (thread : τ) (spurious : Bool) :
    Pc → Option (Pool τ)
  | .allocCheck =>
      if pool.isInitialized then
        some (pool.goto thread .allocMemory)
      else
        some (pool.finish thread (.failed .notInitialized))
  | .allocMemory => some (pool.goto thread (.allocHead pool.memory))
  | .allocHead base => some (pool.allocLoop thread base)
  | .allocNext base observed =>
      if (headIndex observed).toNat < layout.slots then
        some (pool.goto thread (.allocSwap base observed
          (pool.next (headIndex observed).toNat).toUInt32))
      else
        some (pool.goto thread .panicked)
  | .allocSwap base observed nextIndex =>
      if spurious ∨ pool.head ≠ observed then
        some (pool.allocLoop thread base)
      else
        some ((pool.swapHead (packHead nextIndex
          (headGeneration observed + 1))).goto thread
            (.allocOwner base (headIndex observed).toNat))
  | .allocOwner base slot =>
      if layout.debugAssertions ∧
          pool.ownership slot &&& ownershipAllocatedBit ≠ 0 then
        some (pool.goto thread .panicked)
      else
        some (pool.goto thread (.allocClaim base slot (pool.ownership slot)))
  | .allocClaim base slot observedState =>
      let token := nextGeneration observedState
      if pool.ownership slot ≠ observedState then
        some (pool.finish thread (.failed .doubleFree))
      else
        some (((pool.storeOwnership slot (ownershipAllocatedBit ||| token)).emit
          (.claimed thread slot token)).finish thread
            (.allocated slot token (base + slot * layout.size)))
  | _ => none

/-! ## `free` -/

/-- One iteration of the wiping loops, or the passage from one loop to the
next. -/
def stepWipe (pool : Pool τ) (thread : τ) (slot base offset : ℕ) :
    WipePhase → Pool τ
  | .leading =>
      let pointer := base + slot * layout.size
      if offset < layout.size ∧ (pointer + offset) % 8 ≠ 0 then
        (pool.storeByte (pointer + offset) 0).goto thread
          (.freeWipe slot base (offset + 1) .leading)
      else
        pool.goto thread (.freeWipe slot base offset .words)
  | .words =>
      let pointer := base + slot * layout.size
      if offset + 8 ≤ layout.size then
        (pool.storeZeroWord (pointer + offset)).goto thread
          (.freeWipe slot base (offset + 8) .words)
      else
        pool.goto thread (.freeWipe slot base offset .trailing)
  | .trailing =>
      let pointer := base + slot * layout.size
      if offset < layout.size then
        (pool.storeByte (pointer + offset) 0).goto thread
          (.freeWipe slot base (offset + 1) .trailing)
      else
        pool.goto thread (.freeFlush slot)

def stepFree (pool : Pool τ) (thread : τ) (spurious : Bool) :
    Pc → Option (Pool τ)
  | .freeCheck slot generation =>
      if !pool.isInitialized then
        some (pool.finish thread (.failed .notInitialized))
      else if layout.slots ≤ slot then
        some (pool.finish thread (.failed .addressOutOfBounds))
      else if ownershipGenerationMask < generation then
        some (pool.finish thread (.failed .doubleFree))
      else
        some (pool.goto thread (.freeRelease slot generation))
  | .freeRelease slot generation =>
      if pool.ownership slot ≠ ownershipAllocatedBit ||| generation then
        some (pool.finish thread (.failed .doubleFree))
      else
        some (((pool.storeOwnership slot generation).emit
          (.released thread slot generation)).goto thread (.freeMemory slot))
  | .freeMemory slot =>
      some (pool.goto thread (.freeWipe slot pool.memory 0 .leading))
  | .freeWipe slot base offset phase =>
      some (stepWipe layout pool thread slot base offset phase)
  | .freeFlush slot =>
      if layout.flushRegistered then
        some (pool.goto thread (.freeHead slot))
      else
        -- Without a callback `host_cache_flush` spins for ever.
        some (pool.goto thread (.freeFlush slot))
  | .freeHead slot => some (pool.freeLoop thread slot)
  | .freeNext slot observed =>
      some ((pool.storeNext slot (headIndex observed).toUInt64).goto thread
        (.freeSwap slot observed))
  | .freeSwap slot observed =>
      if spurious ∨ pool.head ≠ observed then
        some (pool.freeLoop thread slot)
      else
        some ((pool.swapHead (packHead (UInt32.ofNat slot)
          (headGeneration observed + 1))).finish thread .freed)
  | _ => none

def step (pool : Pool τ) : Action τ → Option (Pool τ)
  | .call thread operation =>
      if pool.pc thread = .idle then
        some (startCall layout pool thread operation)
      else
        none
  | .step thread spurious =>
      match stepInit layout pool thread (pool.pc thread) with
      | some next => some next
      | none =>
          match stepAllocate layout pool thread spurious (pool.pc thread) with
          | some next => some next
          | none => stepFree layout pool thread spurious (pool.pc thread)
  | .hostWrite address value => some (pool.storeByte address value)

/-! ## What a step can do -/

/-- Every step inside `init`. -/
inductive InitStep (pool : Pool τ) (thread : τ) : Pc → Pool τ → Prop
  | refused (base : ℕ) (hinitialized : pool.isInitialized = true) :
      InitStep pool thread (.initCheck base)
        (pool.finish thread (.failed .alreadyInitialized))
  | checked (base : ℕ) (hinitialized : pool.isInitialized = false) :
      InitStep pool thread (.initCheck base)
        (pool.goto thread (.initClaim base))
  | contended (base : ℕ) (hinitializing : pool.isInitializing = true) :
      InitStep pool thread (.initClaim base)
        (pool.finish thread (.failed .alreadyInitialized))
  | claimed (base : ℕ) (hinitializing : pool.isInitializing = false) :
      InitStep pool thread (.initClaim base)
        ({ pool with isInitializing := true }.goto thread (.initMemory base))
  | memoryStored (base : ℕ) :
      InitStep pool thread (.initMemory base)
        ({ pool with memory := base }.goto thread (.initNext 0))
  | linked (index : ℕ) (hindex : index < layout.slots) :
      InitStep pool thread (.initNext index)
        ((pool.storeNext index
          (if index + 1 < layout.slots then UInt64.ofNat (index + 1)
            else freeListEmpty.toUInt64)).goto thread (.initOwnership index))
  | allLinked (index : ℕ) (hindex : ¬ index < layout.slots) :
      InitStep pool thread (.initNext index) (pool.goto thread .initHead)
  | ownershipStored (index : ℕ) :
      InitStep pool thread (.initOwnership index)
        ((pool.storeOwnership index 0).goto thread (.initNext (index + 1)))
  | headStored :
      InitStep pool thread .initHead
        ({ pool with head := packHead 0 0 }.goto thread .initPublish)
  | published :
      InitStep pool thread .initPublish
        ({ pool with isInitialized := true }.goto thread .initRelease)
  | released :
      InitStep pool thread .initRelease
        ({ pool with isInitializing := false }.finish thread .initialized)

/-- Every step inside `allocate`. -/
inductive AllocateStep (pool : Pool τ) (thread : τ) : Pc → Pool τ → Prop
  | refused (hinitialized : pool.isInitialized = false) :
      AllocateStep pool thread .allocCheck
        (pool.finish thread (.failed .notInitialized))
  | checked (hinitialized : pool.isInitialized = true) :
      AllocateStep pool thread .allocCheck (pool.goto thread .allocMemory)
  | memoryRead :
      AllocateStep pool thread .allocMemory
        (pool.goto thread (.allocHead pool.memory))
  | headRead (base : ℕ) :
      AllocateStep pool thread (.allocHead base) (pool.allocLoop thread base)
  | nextRead (base : ℕ) (observed : UInt64)
      (hindex : (headIndex observed).toNat < layout.slots) :
      AllocateStep pool thread (.allocNext base observed)
        (pool.goto thread (.allocSwap base observed
          (pool.next (headIndex observed).toNat).toUInt32))
  | outOfRange (base : ℕ) (observed : UInt64)
      (hindex : ¬ (headIndex observed).toNat < layout.slots) :
      AllocateStep pool thread (.allocNext base observed)
        (pool.goto thread .panicked)
  | retried (base : ℕ) (observed : UInt64) (nextIndex : UInt32) :
      AllocateStep pool thread (.allocSwap base observed nextIndex)
        (pool.allocLoop thread base)
  | swapped (base : ℕ) (observed : UInt64) (nextIndex : UInt32)
      (hhead : pool.head = observed) :
      AllocateStep pool thread (.allocSwap base observed nextIndex)
        ((pool.swapHead (packHead nextIndex
          (headGeneration observed + 1))).goto thread
            (.allocOwner base (headIndex observed).toNat))
  | asserted (base slot : ℕ)
      (howner : pool.ownership slot &&& ownershipAllocatedBit ≠ 0) :
      AllocateStep pool thread (.allocOwner base slot)
        (pool.goto thread .panicked)
  | ownerRead (base slot : ℕ) :
      AllocateStep pool thread (.allocOwner base slot)
        (pool.goto thread (.allocClaim base slot (pool.ownership slot)))
  | lost (base slot : ℕ) (observedState : UInt64)
      (howner : pool.ownership slot ≠ observedState) :
      AllocateStep pool thread (.allocClaim base slot observedState)
        (pool.finish thread (.failed .doubleFree))
  | claimed (base slot : ℕ) (observedState : UInt64)
      (howner : pool.ownership slot = observedState) :
      AllocateStep pool thread (.allocClaim base slot observedState)
        (((pool.storeOwnership slot
          (ownershipAllocatedBit ||| nextGeneration observedState)).emit
            (.claimed thread slot (nextGeneration observedState))).finish
              thread (.allocated slot (nextGeneration observedState)
                (base + slot * layout.size)))

/-- Every step inside `free`. -/
inductive FreeStep (pool : Pool τ) (thread : τ) : Pc → Pool τ → Prop
  | refused (slot : ℕ) (generation : UInt64) (error : AllocatorError) :
      FreeStep pool thread (.freeCheck slot generation)
        (pool.finish thread (.failed error))
  | checked (slot : ℕ) (generation : UInt64) (hslot : slot < layout.slots)
      (hgeneration : generation ≤ ownershipGenerationMask) :
      FreeStep pool thread (.freeCheck slot generation)
        (pool.goto thread (.freeRelease slot generation))
  | lost (slot : ℕ) (generation : UInt64)
      (howner : pool.ownership slot ≠ ownershipAllocatedBit ||| generation) :
      FreeStep pool thread (.freeRelease slot generation)
        (pool.finish thread (.failed .doubleFree))
  | released (slot : ℕ) (generation : UInt64)
      (howner : pool.ownership slot = ownershipAllocatedBit ||| generation) :
      FreeStep pool thread (.freeRelease slot generation)
        (((pool.storeOwnership slot generation).emit
          (.released thread slot generation)).goto thread (.freeMemory slot))
  | memoryRead (slot : ℕ) :
      FreeStep pool thread (.freeMemory slot)
        (pool.goto thread (.freeWipe slot pool.memory 0 .leading))
  | wiped (slot base offset : ℕ) (phase : WipePhase) :
      FreeStep pool thread (.freeWipe slot base offset phase)
        (stepWipe layout pool thread slot base offset phase)
  | flushed (slot : ℕ) (hflush : layout.flushRegistered = true) :
      FreeStep pool thread (.freeFlush slot)
        (pool.goto thread (.freeHead slot))
  | stalled (slot : ℕ) (hflush : layout.flushRegistered = false) :
      FreeStep pool thread (.freeFlush slot)
        (pool.goto thread (.freeFlush slot))
  | headRead (slot : ℕ) :
      FreeStep pool thread (.freeHead slot) (pool.freeLoop thread slot)
  | linked (slot : ℕ) (observed : UInt64) :
      FreeStep pool thread (.freeNext slot observed)
        ((pool.storeNext slot (headIndex observed).toUInt64).goto thread
          (.freeSwap slot observed))
  | retried (slot : ℕ) (observed : UInt64) :
      FreeStep pool thread (.freeSwap slot observed)
        (pool.freeLoop thread slot)
  | swapped (slot : ℕ) (observed : UInt64) (hhead : pool.head = observed) :
      FreeStep pool thread (.freeSwap slot observed)
        ((pool.swapHead (packHead (UInt32.ofNat slot)
          (headGeneration observed + 1))).finish thread .freed)

section Inversions

variable {layout : Layout} {pool next : Pool τ} {thread : τ}
  {spurious : Bool} {pc : Pc}

theorem stepInit_initStep
    (hstep : stepInit layout pool thread pc = some next) :
    InitStep layout pool thread pc next := by
  cases pc with
  | initCheck base =>
      rw [stepInit] at hstep
      split_ifs at hstep with hinitialized
      · cases hstep
        exact .refused base hinitialized
      · cases hstep
        exact .checked base (Bool.eq_false_of_not_eq_true hinitialized)
  | initClaim base =>
      rw [stepInit] at hstep
      split_ifs at hstep with hinitializing
      · cases hstep
        exact .contended base hinitializing
      · cases hstep
        exact .claimed base (Bool.eq_false_of_not_eq_true hinitializing)
  | initMemory base =>
      cases hstep
      exact .memoryStored base
  | initNext index =>
      by_cases hindex : index < layout.slots
      · rw [stepInit, if_pos hindex] at hstep
        cases hstep
        exact .linked index hindex
      · rw [stepInit, if_neg hindex] at hstep
        cases hstep
        exact .allLinked index hindex
  | initOwnership index =>
      cases hstep
      exact .ownershipStored index
  | initHead =>
      cases hstep
      exact .headStored
  | initPublish =>
      cases hstep
      exact .published
  | initRelease =>
      cases hstep
      exact .released
  | _ => cases hstep

theorem stepAllocate_allocateStep
    (hstep : stepAllocate layout pool thread spurious pc = some next) :
    AllocateStep layout pool thread pc next := by
  cases pc with
  | allocCheck =>
      rw [stepAllocate] at hstep
      split_ifs at hstep with hinitialized
      · cases hstep
        exact .checked hinitialized
      · cases hstep
        exact .refused (Bool.eq_false_of_not_eq_true hinitialized)
  | allocMemory =>
      cases hstep
      exact .memoryRead
  | allocHead base =>
      cases hstep
      exact .headRead base
  | allocNext base observed =>
      rw [stepAllocate] at hstep
      split_ifs at hstep with hindex
      · cases hstep
        exact .nextRead base observed hindex
      · cases hstep
        exact .outOfRange base observed hindex
  | allocSwap base observed nextIndex =>
      rw [stepAllocate] at hstep
      split_ifs at hstep with hretry
      · cases hstep
        exact .retried base observed nextIndex
      · cases hstep
        rw [not_or, not_not] at hretry
        exact .swapped base observed nextIndex hretry.2
  | allocOwner base slot =>
      rw [stepAllocate] at hstep
      split_ifs at hstep with howner
      · cases hstep
        exact .asserted base slot howner.2
      · cases hstep
        exact .ownerRead base slot
  | allocClaim base slot observedState =>
      simp only [stepAllocate] at hstep
      split_ifs at hstep with howner
      · cases hstep
        exact .lost base slot observedState howner
      · cases hstep
        exact .claimed base slot observedState (not_not.1 howner)
  | _ => cases hstep

theorem stepFree_freeStep
    (hstep : stepFree layout pool thread spurious pc = some next) :
    FreeStep layout pool thread pc next := by
  cases pc with
  | freeCheck slot generation =>
      rw [stepFree] at hstep
      split_ifs at hstep with hinitialized hslot hgeneration
      · cases hstep
        exact .refused slot generation _
      · cases hstep
        exact .refused slot generation _
      · cases hstep
        exact .refused slot generation _
      · cases hstep
        exact .checked slot generation (Nat.lt_of_not_le hslot)
          (UInt64.not_lt.1 hgeneration)
  | freeRelease slot generation =>
      rw [stepFree] at hstep
      split_ifs at hstep with howner
      · cases hstep
        exact .lost slot generation howner
      · cases hstep
        exact .released slot generation (not_not.1 howner)
  | freeMemory slot =>
      cases hstep
      exact .memoryRead slot
  | freeWipe slot base offset phase =>
      cases hstep
      exact .wiped slot base offset phase
  | freeFlush slot =>
      rw [stepFree] at hstep
      split_ifs at hstep with hflush
      · cases hstep
        exact .flushed slot hflush
      · cases hstep
        exact .stalled slot (Bool.eq_false_of_not_eq_true hflush)
  | freeHead slot =>
      cases hstep
      exact .headRead slot
  | freeNext slot observed =>
      cases hstep
      exact .linked slot observed
  | freeSwap slot observed =>
      rw [stepFree] at hstep
      split_ifs at hstep with hretry
      · cases hstep
        exact .retried slot observed
      · cases hstep
        rw [not_or, not_not] at hretry
        exact .swapped slot observed hretry.2
  | _ => cases hstep

/-- Only an idle thread begins a call. -/
theorem step_call
    {operation : Operation}
    (hstep : step layout pool (.call thread operation) = some next) :
    pool.pc thread = .idle ∧
      next = startCall layout pool thread operation := by
  rw [step] at hstep
  split_ifs at hstep with hidle
  cases hstep
  exact ⟨hidle, rfl⟩

/-- A step of a thread is a step of the function it is in. -/
theorem step_thread_cases
    (hstep : step layout pool (.step thread spurious) = some next) :
    InitStep layout pool thread (pool.pc thread) next ∨
      AllocateStep layout pool thread (pool.pc thread) next ∨
      FreeStep layout pool thread (pool.pc thread) next := by
  rw [step] at hstep
  split at hstep
  · rename_i hinit
    cases hstep
    exact Or.inl (stepInit_initStep hinit)
  · split at hstep
    · rename_i hallocate
      cases hstep
      exact Or.inr (Or.inl (stepAllocate_allocateStep hallocate))
    · exact Or.inr (Or.inr (stepFree_freeStep hstep))

/-- The loops of `free` write bytes and go on, or leave. -/
theorem stepWipe_eq
    (layout : Layout) (pool : Pool τ) (thread : τ) (slot base offset : ℕ)
    (phase : WipePhase) :
    ∃ bytes after,
      stepWipe layout pool thread slot base offset phase =
        { pool with bytes := bytes }.goto thread after ∧
      ((∃ offset phase, after = .freeWipe slot base offset phase) ∨
        after = .freeFlush slot) := by
  cases phase with
  | leading | words =>
      simp only [stepWipe]
      split_ifs
      · exact ⟨_, _, rfl, Or.inl ⟨_, _, rfl⟩⟩
      · exact ⟨pool.bytes, _, rfl, Or.inl ⟨_, _, rfl⟩⟩
  | trailing =>
      simp only [stepWipe]
      split_ifs
      · exact ⟨_, _, rfl, Or.inl ⟨_, _, rfl⟩⟩
      · exact ⟨pool.bytes, _, rfl, Or.inr rfl⟩

end Inversions

end DmaPool
end ShawnCore
