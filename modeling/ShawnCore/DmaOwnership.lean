import Mathlib.Data.Nat.Bitwise
import ShawnCore.DmaPool
import ShawnCore.EventLog
import ShawnCore.LinkedStack

/-!
# Who has a slot of the DMA pool

Every slot has one place: on the free list, live for the holder of a token, or
in the hands of one call in progress.  The invariant of this file ties the place
of a slot to the free list, to the transcript, to the ownership word and to the
program counters at once, so that a slot cannot have two places.
-/

namespace ShawnCore
namespace DmaPool

/-! ## The packed words -/

theorem toNat_packHead (index generation : UInt32) :
    (packHead index generation).toNat =
      generation.toNat * 2 ^ 32 + index.toNat := by
  have hindex := index.toNat_lt
  have hgeneration := generation.toNat_lt
  have hshift :
      generation.toNat <<< 32 % 2 ^ 64 = generation.toNat <<< 32 := by
    apply Nat.mod_eq_of_lt
    rw [Nat.shiftLeft_eq]
    omega
  rw [packHead, UInt64.toNat_or, UInt64.toNat_shiftLeft]
  simp only [UInt32.toNat_toUInt64, UInt64.toNat_ofNat, Nat.reducePow,
    Nat.reduceMod] at hshift ⊢
  rw [hshift, ← Nat.shiftLeft_add_eq_or_of_lt hindex, Nat.shiftLeft_eq]

@[simp] theorem headIndex_packHead (index generation : UInt32) :
    headIndex (packHead index generation) = index := by
  have hindex := index.toNat_lt
  rw [← UInt32.toNat_inj, headIndex, UInt64.toNat_toUInt32, toNat_packHead]
  omega

@[simp] theorem headGeneration_packHead (index generation : UInt32) :
    headGeneration (packHead index generation) = generation := by
  have hindex := index.toNat_lt
  have hgeneration := generation.toNat_lt
  rw [← UInt32.toNat_inj, headGeneration, UInt64.toNat_toUInt32,
    UInt64.toNat_shiftRight, toNat_packHead]
  simp only [UInt64.toNat_ofNat, Nat.reducePow, Nat.reduceMod,
    Nat.shiftRight_eq_div_pow]
  omega

theorem toNat_ownershipGenerationMask :
    ownershipGenerationMask.toNat = 2 ^ 63 - 1 :=
  rfl

theorem toNat_allocated
    {token : UInt64} (htoken : token ≤ ownershipGenerationMask) :
    (ownershipAllocatedBit ||| token).toNat = 2 ^ 63 + token.toNat := by
  have hbit : ownershipAllocatedBit.toNat = 2 ^ 63 * 1 := rfl
  rw [UInt64.le_iff_toNat_le, toNat_ownershipGenerationMask] at htoken
  have hlt : token.toNat < 2 ^ 63 := by omega
  rw [UInt64.toNat_or, hbit, ← Nat.two_pow_add_eq_or_of_lt hlt, Nat.mul_one]

theorem allocated_inj
    {left right : UInt64} (hleft : left ≤ ownershipGenerationMask)
    (hright : right ≤ ownershipGenerationMask)
    (hsame : ownershipAllocatedBit ||| left = ownershipAllocatedBit ||| right) :
    left = right := by
  have hnat := congrArg UInt64.toNat hsame
  rw [toNat_allocated hleft, toNat_allocated hright] at hnat
  rw [← UInt64.toNat_inj]
  omega

theorem allocated_not_le
    {token : UInt64} (htoken : token ≤ ownershipGenerationMask) :
    ¬ ownershipAllocatedBit ||| token ≤ ownershipGenerationMask := by
  rw [UInt64.le_iff_toNat_le, toNat_allocated htoken,
    toNat_ownershipGenerationMask]
  omega

theorem and_allocatedBit_eq_zero
    {word : UInt64} (hword : word ≤ ownershipGenerationMask) :
    word &&& ownershipAllocatedBit = 0 := by
  have hbit : ownershipAllocatedBit.toNat = 2 ^ 63 := rfl
  have hzero : UInt64.toNat 0 = 0 := rfl
  rw [UInt64.le_iff_toNat_le, toNat_ownershipGenerationMask] at hword
  rw [← UInt64.toNat_inj, UInt64.toNat_and, hbit, hzero, Nat.and_two_pow,
    Nat.testBit_eq_decide_div_mod_eq, Nat.div_eq_of_lt (by omega)]
  rfl

theorem nextGeneration_le (observedState : UInt64) :
    nextGeneration observedState ≤ ownershipGenerationMask :=
  UInt64.and_le_right

/-! ## The free list -/

/-- The slot an index of the free list stands for. -/
def slotOf (index : UInt32) : Option ℕ :=
  if index = freeListEmpty then none else some index.toNat

theorem slotOf_eq_some_iff {index : UInt32} {slot : ℕ} :
    slotOf index = some slot ↔
      index ≠ freeListEmpty ∧ index.toNat = slot := by
  unfold slotOf
  split
  · simp_all
  · simp_all

theorem slotOf_of_lt
    {layout : Layout} {index : UInt32} (hindex : index.toNat < layout.slots) :
    slotOf index = some index.toNat := by
  rw [slotOf_eq_some_iff]
  constructor
  · rintro rfl
    have hbound := layout.slots_le
    have hempty : freeListEmpty.toNat = 2 ^ 32 - 1 := rfl
    omega
  · rfl

theorem toNat_ofNat_slot
    {layout : Layout} {slot : ℕ} (hslot : slot < layout.slots) :
    (UInt32.ofNat slot).toNat = slot := by
  have hbound := layout.slots_le
  rw [UInt32.toNat_ofNat']
  omega

variable {τ : Type}

def Pool.link (pool : Pool τ) (slot : ℕ) : Option ℕ :=
  slotOf (pool.next slot).toUInt32

def Pool.top (pool : Pool τ) : Option ℕ :=
  slotOf (headIndex pool.head)

/-! ## Live allocations -/

/-- The token of the live allocation of a slot, after one more event. -/
def liveAfter (slot : ℕ) (live : Option UInt64) : Event τ → Option UInt64
  | .claimed _ other token => if other = slot then some token else live
  | .released _ other _ => if other = slot then none else live
  | .returned _ _ => live

/-- A slot is live from a claim by `allocate` to its release by `free`. -/
def liveToken (slot : ℕ) (transcript : List (Event τ)) : Option UInt64 :=
  transcript.foldl (liveAfter slot) none

@[simp] theorem liveToken_append
    (slot : ℕ) (transcript : List (Event τ)) (event : Event τ) :
    liveToken slot (transcript ++ [event]) =
      liveAfter slot (liveToken slot transcript) event := by
  simp [liveToken]

/-- A claim is of a slot which is not live, and a release is by the token of
the live allocation. -/
def Admissible (before : List (Event τ)) : Event τ → Prop
  | .claimed _ slot _ => liveToken slot before = none
  | .released _ slot token => liveToken slot before = some token
  | .returned _ _ => True

def Alternating (transcript : List (Event τ)) : Prop :=
  ∀ before event after, transcript = before ++ event :: after →
    Admissible before event

theorem Alternating.append
    {transcript : List (Event τ)} {event : Event τ}
    (htranscript : Alternating transcript)
    (hevent : Admissible transcript event) :
    Alternating (transcript ++ [event]) := by
  intro before other after hsplit
  rcases EventLog.split_append_singleton hsplit with
    ⟨rfl, rfl⟩ | ⟨rest, hrest⟩
  · exact hevent
  · exact htranscript before other rest hrest

/-! ## Places -/

inductive Place (τ : Type)
  | listed
  | live (token : UInt64)
  | busy (thread : τ)

/-- The ownership word a slot at this place has. -/
def Place.Owns : Place τ → UInt64 → Prop
  | .live token, word =>
      word = ownershipAllocatedBit ||| token ∧ token ≤ ownershipGenerationMask
  | _, word => word ≤ ownershipGenerationMask

/-- The slot a call in progress has to itself: popped and not yet claimed, or
released and not yet pushed. -/
def Pc.held? : Pc → Option ℕ
  | .allocOwner _ slot => some slot
  | .allocClaim _ slot _ => some slot
  | .freeMemory slot => some slot
  | .freeWipe slot _ _ _ => some slot
  | .freeFlush slot => some slot
  | .freeHead slot => some slot
  | .freeNext slot _ => some slot
  | .freeSwap slot _ => some slot
  | _ => none

theorem update_place_eq_iff
    {place : ℕ → Place τ} {slot other : ℕ} {target replacement : Place τ}
    (hbefore : place slot ≠ target) (hafter : replacement ≠ target) :
    Function.update place slot replacement other = target ↔
      place other = target := by
  by_cases hother : other = slot
  · subst hother
    simp [hbefore, hafter]
  · rw [Function.update_of_ne hother]

/-- The program counters and the places agree on who holds what. -/
def Holding (slots : ℕ) (pc : τ → Pc) (place : ℕ → Place τ) : Prop :=
  ∀ thread slot, (pc thread).held? = some slot ↔
    slot < slots ∧ place slot = .busy thread

section Holding

variable [DecidableEq τ] {slots slot : ℕ} {pc : τ → Pc} {place : ℕ → Place τ}
  {thread : τ} {after : Pc}

theorem Holding.keep
    (hholding : Holding slots pc place)
    (hafter : after.held? = (pc thread).held?) :
    Holding slots (Function.update pc thread after) place := by
  intro other slot
  by_cases hother : other = thread
  · subst hother
    rw [Function.update_self, hafter]
    exact hholding other slot
  · rw [Function.update_of_ne hother]
    exact hholding other slot

/-- A thread with empty hands takes a slot which nobody holds. -/
theorem Holding.take
    (hholding : Holding slots pc place) (hslot : slot < slots)
    (hfree : ∀ other, place slot ≠ .busy other)
    (hbefore : (pc thread).held? = none) (hafter : after.held? = some slot) :
    Holding slots (Function.update pc thread after)
      (Function.update place slot (.busy thread)) := by
  intro other target
  by_cases hother : other = thread
  · subst hother
    rw [Function.update_self, hafter, Option.some.injEq]
    by_cases htarget : target = slot
    · simp [htarget, hslot]
    · rw [Function.update_of_ne htarget, ← hholding other target, hbefore]
      simp [Ne.symm htarget]
  · rw [Function.update_of_ne hother, hholding other target,
      update_place_eq_iff (hfree other)]
    intro hbusy
    cases hbusy
    exact hother rfl

/-- A thread gives the slot it holds away. -/
theorem Holding.give
    {replacement : Place τ} (hholding : Holding slots pc place)
    (hfree : ∀ other, replacement ≠ .busy other)
    (hbefore : (pc thread).held? = some slot) (hafter : after.held? = none) :
    Holding slots (Function.update pc thread after)
      (Function.update place slot replacement) := by
  have hplace := ((hholding thread slot).mp hbefore).2
  intro other target
  by_cases hother : other = thread
  · subst hother
    rw [Function.update_self, hafter]
    by_cases htarget : target = slot
    · simp [htarget, hfree other]
    · rw [Function.update_of_ne htarget, ← hholding other target, hbefore]
      simp [Ne.symm htarget]
  · rw [Function.update_of_ne hother, hholding other target,
      update_place_eq_iff _ (hfree other)]
    rw [hplace]
    intro hbusy
    cases hbusy
    exact hother rfl

end Holding

/-! ## The invariant -/

/-- What a thread knows of a head it has read: when it was read, and that it is
still the head unless the head has been updated since. -/
structure Observed
    (readAt headUpdates : ℕ) (head observed : UInt64) : Prop where
  readAt_le : readAt ≤ headUpdates
  generation : headGeneration observed = UInt32.ofNat readAt
  current : readAt = headUpdates → head = observed

def Pool.Observed (pool : Pool τ) (thread : τ) (observed : UInt64) : Prop :=
  DmaPool.Observed (pool.readAt thread) pool.headUpdates pool.head observed

/-- What a thread in the middle of a call knows. -/
def ThreadOk (layout : Layout) (base : ℕ) (pool : Pool τ) (thread : τ) :
    Pc → Prop
  | .idle => True
  | .initCheck _ => True
  | .allocCheck => True
  | .allocMemory => True
  | .allocHead start => start = base
  | .allocNext start observed =>
      start = base ∧ (headIndex observed).toNat < layout.slots ∧
        pool.Observed thread observed
  | .allocSwap start observed nextIndex =>
      start = base ∧ (headIndex observed).toNat < layout.slots ∧
        pool.Observed thread observed ∧
        (pool.readAt thread = pool.headUpdates →
          (pool.next (headIndex observed).toNat).toUInt32 = nextIndex)
  | .allocOwner start _ => start = base
  | .allocClaim start slot observedState =>
      start = base ∧ pool.ownership slot = observedState
  | .freeCheck _ _ => True
  | .freeRelease slot generation =>
      slot < layout.slots ∧ generation ≤ ownershipGenerationMask
  | .freeMemory _ => True
  | .freeWipe _ start _ _ => start = base
  | .freeFlush _ => True
  | .freeHead _ => True
  | .freeNext _ observed => pool.Observed thread observed
  | .freeSwap slot observed =>
      pool.Observed thread observed ∧
        (pool.next slot).toUInt32 = headIndex observed
  | _ => False

structure PoolInvariant
    (layout : Layout) (base : ℕ) (pool : Pool τ)
    (free : List ℕ) (place : ℕ → Place τ) : Prop where
  memory_eq : pool.memory = base
  initialized : pool.isInitialized = true
  linked : LinkedStack.Linked pool.link pool.top free
  listed : ∀ slot, slot ∈ free ↔ slot < layout.slots ∧ place slot = .listed
  holding : Holding layout.slots pool.pc place
  live : ∀ slot token, liveToken slot pool.transcript = some token ↔
    slot < layout.slots ∧ place slot = .live token
  owned : ∀ slot, slot < layout.slots →
    (place slot).Owns (pool.ownership slot)
  generation : headGeneration pool.head = UInt32.ofNat pool.headUpdates
  threads : ∀ thread, ThreadOk layout base pool thread (pool.pc thread)
  alternating : Alternating pool.transcript
  returned : ∀ thread slot token pointer,
    Event.returned thread (.allocated slot token pointer) ∈ pool.transcript →
      slot < layout.slots ∧ pointer = base + slot * layout.size

/-! ## What the steps of other threads leave alone -/

theorem Pool.Observed.frame
    {pool next : Pool τ} {thread : τ} {observed : UInt64}
    (hobserved : pool.Observed thread observed)
    (hread : next.readAt thread = pool.readAt thread)
    (hhead : next.headUpdates = pool.headUpdates ∧ next.head = pool.head ∨
      pool.headUpdates < next.headUpdates) :
    next.Observed thread observed := by
  have hle := hobserved.readAt_le
  constructor
  · rw [hread]
    omega
  · rw [hread]
    exact hobserved.generation
  · intro hcurrent
    cases hhead with
    | inl hsame =>
        rw [hsame.2]
        apply hobserved.current
        omega
    | inr hlater => omega

/-- A step of another thread does not touch the slot a thread holds, nor the
successor of the first slot of the list while that slot stays the first. -/
theorem ThreadOk.frame
    {layout : Layout} {base : ℕ} {pool next : Pool τ} {thread : τ} {pc : Pc}
    (hok : ThreadOk layout base pool thread pc)
    (hread : next.readAt thread = pool.readAt thread)
    (hhead : next.headUpdates = pool.headUpdates ∧ next.head = pool.head ∨
      pool.headUpdates < next.headUpdates)
    (htop : ∀ slot, pool.top = some slot → next.next slot = pool.next slot)
    (hheld : ∀ slot, pc.held? = some slot →
      next.next slot = pool.next slot ∧
        next.ownership slot = pool.ownership slot) :
    ThreadOk layout base next thread pc := by
  cases pc with
  | allocNext start observed =>
      exact ⟨hok.1, hok.2.1, hok.2.2.frame hread hhead⟩
  | allocSwap start observed nextIndex =>
      obtain ⟨hstart, hindex, hobserved, hnext⟩ := hok
      refine ⟨hstart, hindex, hobserved.frame hread hhead, ?_⟩
      intro hcurrent
      have hle := hobserved.readAt_le
      have hbefore : pool.readAt thread = pool.headUpdates := by omega
      have hsame : pool.top = some (headIndex observed).toNat := by
        rw [Pool.top, hobserved.current hbefore]
        exact slotOf_of_lt hindex
      rw [htop _ hsame]
      exact hnext hbefore
  | allocClaim start slot observedState =>
      exact ⟨hok.1, (hheld slot rfl).2.trans hok.2⟩
  | freeNext slot observed => exact Pool.Observed.frame hok hread hhead
  | freeSwap slot observed =>
      refine ⟨hok.1.frame hread hhead, ?_⟩
      rw [(hheld slot rfl).1]
      exact hok.2
  | _ => exact hok

theorem ThreadOk.swapHead
    {layout : Layout} {base : ℕ} {pool : Pool τ} {thread : τ} {pc : Pc}
    (hok : ThreadOk layout base pool thread pc) (replacement : UInt64) :
    ThreadOk layout base (pool.swapHead replacement) thread pc := by
  have hlater : pool.headUpdates < (pool.swapHead replacement).headUpdates :=
    Nat.lt_succ_self _
  exact hok.frame rfl (Or.inr hlater) (fun _ _ => rfl) (fun _ _ => ⟨rfl, rfl⟩)

theorem ThreadOk.storeOwnership
    {layout : Layout} {base slot : ℕ} {pool : Pool τ} {thread : τ} {pc : Pc}
    (hok : ThreadOk layout base pool thread pc) (value : UInt64)
    (hheld : pc.held? ≠ some slot) :
    ThreadOk layout base (pool.storeOwnership slot value) thread pc := by
  refine hok.frame rfl (Or.inl ⟨rfl, rfl⟩) (fun _ _ => rfl) ?_
  intro other hother
  refine ⟨rfl, ?_⟩
  rw [Pool.storeOwnership_ownership, Function.update_of_ne]
  rintro rfl
  exact hheld hother

end DmaPool
end ShawnCore
