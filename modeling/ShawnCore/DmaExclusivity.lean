import ShawnCore.DmaOwnership

/-!
# Exclusive slots

Every step of `allocate` and `free` keeps the invariant of the places.  Four
steps move a slot: the pop, the claim, the release and the push.  All others are
local to their thread.  The generation tag of the head decides whether a head
read earlier is still the head, as long as fewer than `2 ^ 32` updates happened
in between.
-/

namespace ShawnCore
namespace DmaPool

variable {τ : Type}

/-- The thread is about to compare and exchange the head. -/
def Pc.swapping : Pc → Bool
  | .allocSwap _ _ _ => true
  | .freeSwap _ _ => true
  | _ => false

/-- Fewer than `2 ^ 32` updates of the head since the thread has read it. -/
def FreshSwap (pool : Pool τ) : Action τ → Prop
  | .step thread _ =>
      (pool.pc thread).swapping = true →
        pool.headUpdates - pool.readAt thread < 2 ^ 32
  | _ => True

instance decidableFreshSwap (pool : Pool τ) :
    ∀ action, Decidable (FreshSwap pool action)
  | .step thread _ =>
      inferInstanceAs (Decidable ((pool.pc thread).swapping = true →
        pool.headUpdates - pool.readAt thread < 2 ^ 32))
  | .call _ _ => isTrue trivial
  | .hostWrite _ _ => isTrue trivial

variable {layout : Layout} {base : ℕ} {pool : Pool τ} {free : List ℕ}
  {place : ℕ → Place τ} {thread : τ}

namespace PoolInvariant

theorem held_unique
    (hinv : PoolInvariant layout base pool free place) {other : τ} {slot : ℕ}
    (hthread : (pool.pc thread).held? = some slot)
    (hother : (pool.pc other).held? = some slot) :
    thread = other := by
  have hleft := ((hinv.holding thread slot).mp hthread).2
  have hright := ((hinv.holding other slot).mp hother).2
  rw [hleft] at hright
  cases hright
  rfl

theorem not_held_of_mem
    (hinv : PoolInvariant layout base pool free place) {slot : ℕ}
    (hslot : slot ∈ free) :
    (pool.pc thread).held? ≠ some slot := by
  intro hheld
  have hlisted := ((hinv.listed slot).mp hslot).2
  have hbusy := ((hinv.holding thread slot).mp hheld).2
  rw [hlisted] at hbusy
  cases hbusy

theorem top_mem
    (hinv : PoolInvariant layout base pool free place) {slot : ℕ}
    (htop : pool.top = some slot) :
    slot ∈ free := by
  have hlinked := hinv.linked
  rw [htop] at hlinked
  exact hlinked.top_mem

/-- A head which is not empty points to a slot of the pool. -/
theorem headIndex_lt
    (hinv : PoolInvariant layout base pool free place)
    (hhead : headIndex pool.head ≠ freeListEmpty) :
    (headIndex pool.head).toNat < layout.slots := by
  have htop : pool.top = some (headIndex pool.head).toNat :=
    slotOf_eq_some_iff.mpr ⟨hhead, rfl⟩
  exact ((hinv.listed _).mp (hinv.top_mem htop)).1

end PoolInvariant

/-- A head that was read and is found again is the same head: the tag has not
wrapped around. -/
theorem Pool.Observed.readAt_eq
    {observed : UInt64} (hobserved : pool.Observed thread observed)
    (hgeneration : headGeneration pool.head = UInt32.ofNat pool.headUpdates)
    (hfresh : pool.headUpdates - pool.readAt thread < 2 ^ 32)
    (hhead : pool.head = observed) :
    pool.readAt thread = pool.headUpdates := by
  have hle := hobserved.readAt_le
  have htags : UInt32.ofNat pool.headUpdates =
      UInt32.ofNat (pool.readAt thread) := by
    rw [← hgeneration, hhead]
    exact hobserved.generation
  have hmod := congrArg UInt32.toNat htags
  simp only [UInt32.toNat_ofNat'] at hmod
  omega

theorem generation_succ
    {value : UInt64} {count : ℕ} (index : UInt32)
    (hvalue : headGeneration value = UInt32.ofNat count) :
    headGeneration (packHead index (headGeneration value + 1)) =
      UInt32.ofNat (count + 1) := by
  rw [headGeneration_packHead, hvalue, ← UInt32.toNat_inj, UInt32.toNat_add]
  simp only [UInt32.toNat_ofNat', UInt32.toNat_one]
  omega

variable [DecidableEq τ]

theorem threads_of_update
    {next : Pool τ} {after : Pc}
    (hthread : ThreadOk layout base next thread after)
    (hothers : ∀ other, other ≠ thread →
      ThreadOk layout base next other (pool.pc other)) :
    ∀ other, ThreadOk layout base next other
      (Function.update pool.pc thread after other) := by
  intro other
  by_cases hother : other = thread
  · subst hother
    rw [Function.update_self]
    exact hthread
  · rw [Function.update_of_ne hother]
    exact hothers other hother

/-! ## Steps which move no slot -/

/-- The shared state before and after a step which moves no slot; a thread may
relink the slot it holds. -/
structure Unmoved (pool same : Pool τ) (thread : τ) : Prop where
  memory_eq : same.memory = pool.memory
  isInitialized_eq : same.isInitialized = pool.isInitialized
  head_eq : same.head = pool.head
  headUpdates_eq : same.headUpdates = pool.headUpdates
  ownership_eq : same.ownership = pool.ownership
  pc_eq : same.pc = pool.pc
  transcript_eq : same.transcript = pool.transcript
  next_eq : ∀ slot, (pool.pc thread).held? ≠ some slot →
    same.next slot = pool.next slot
  readAt_eq : ∀ other, other ≠ thread → same.readAt other = pool.readAt other

omit [DecidableEq τ] in
theorem Unmoved.refl (pool : Pool τ) (thread : τ) :
    Unmoved pool pool thread := by
  constructor <;> simp

theorem Unmoved.markRead (pool : Pool τ) (thread : τ) :
    Unmoved pool (pool.markRead thread) thread := by
  constructor <;> simp +contextual [funext_iff]

omit [DecidableEq τ] in
theorem Unmoved.storeNext
    (value : UInt64) {slot : ℕ} (hheld : (pool.pc thread).held? = some slot) :
    Unmoved pool (pool.storeNext slot value) thread := by
  constructor <;> simp [funext_iff]
  intro other hother
  rw [Function.update_of_ne]
  rintro rfl
  exact hother hheld

namespace PoolInvariant

theorem goto
    {same : Pool τ} {after : Pc}
    (hinv : PoolInvariant layout base pool free place)
    (hsame : Unmoved pool same thread)
    (hheld : after.held? = (pool.pc thread).held?)
    (hok : ThreadOk layout base same thread after) :
    PoolInvariant layout base (same.goto thread after) free place := by
  have hothers : ∀ other, other ≠ thread →
      ThreadOk layout base same other (pool.pc other) := by
    intro other hother
    apply (hinv.threads other).frame (hsame.readAt_eq other hother)
    · exact Or.inl ⟨hsame.headUpdates_eq, hsame.head_eq⟩
    · intro slot htop
      exact hsame.next_eq slot (hinv.not_held_of_mem (hinv.top_mem htop))
    · intro slot hslot
      rw [hsame.ownership_eq]
      refine ⟨hsame.next_eq slot ?_, rfl⟩
      intro hmine
      exact hother (hinv.held_unique hslot hmine)
  constructor
  · exact hsame.memory_eq.trans hinv.memory_eq
  · exact hsame.isInitialized_eq.trans hinv.initialized
  · have htop : (same.goto thread after).top = pool.top := by
      rw [Pool.top, Pool.goto_head, hsame.head_eq, Pool.top]
    rw [htop]
    apply hinv.linked.congr
    intro slot hslot
    rw [Pool.link, Pool.goto_next,
      hsame.next_eq slot (hinv.not_held_of_mem hslot), Pool.link]
  · exact hinv.listed
  · have hholding := hinv.holding.keep hheld
    rw [← hsame.pc_eq] at hholding
    exact hholding
  · rw [Pool.goto_transcript, hsame.transcript_eq]
    exact hinv.live
  · rw [show (same.goto thread after).ownership = pool.ownership from
      hsame.ownership_eq]
    exact hinv.owned
  · rw [Pool.goto_head, Pool.goto_headUpdates, hsame.head_eq,
      hsame.headUpdates_eq]
    exact hinv.generation
  · have hthreads := threads_of_update hok hothers
    rw [← hsame.pc_eq] at hthreads
    exact hthreads
  · rw [Pool.goto_transcript, hsame.transcript_eq]
    exact hinv.alternating
  · rw [Pool.goto_transcript, hsame.transcript_eq]
    exact hinv.returned

omit [DecidableEq τ] in
/-- A call returns. -/
theorem emit_returned
    {outcome : Outcome} (hinv : PoolInvariant layout base pool free place)
    (houtcome : ∀ slot token pointer,
      outcome = .allocated slot token pointer →
        slot < layout.slots ∧ pointer = base + slot * layout.size) :
    PoolInvariant layout base (pool.emit (.returned thread outcome)) free
      place := by
  constructor
  · exact hinv.memory_eq
  · exact hinv.initialized
  · exact hinv.linked
  · exact hinv.listed
  · exact hinv.holding
  · intro slot token
    rw [Pool.emit_transcript, liveToken_append]
    exact hinv.live slot token
  · exact hinv.owned
  · exact hinv.generation
  · exact hinv.threads
  · exact hinv.alternating.append trivial
  · intro other slot token pointer hmem
    rw [Pool.emit_transcript, List.mem_append, List.mem_singleton] at hmem
    cases hmem with
    | inl hold => exact hinv.returned other slot token pointer hold
    | inr hnew =>
        cases hnew
        exact houtcome slot token pointer rfl

theorem fail
    (hinv : PoolInvariant layout base pool free place) (error : AllocatorError)
    (hnone : (pool.pc thread).held? = none) :
    PoolInvariant layout base (pool.finish thread (.failed error)) free
      place := by
  have hidle := hinv.goto (Unmoved.refl pool thread) (show Pc.idle.held? = _ from
    hnone.symm) trivial
  apply hidle.emit_returned
  intro slot token pointer hfailed
  cases hfailed

/-! ## The four moves -/

/-- `allocate` pops the first slot of the free list. -/
theorem pop
    {start : ℕ} {observed : UInt64} {nextIndex : UInt32}
    (hinv : PoolInvariant layout base pool free place)
    (hpc : pool.pc thread = .allocSwap start observed nextIndex)
    (hfresh : pool.headUpdates - pool.readAt thread < 2 ^ 32)
    (hhead : pool.head = observed) :
    ∃ rest, PoolInvariant layout base
      ((pool.swapHead (packHead nextIndex (headGeneration observed + 1))).goto
        thread (.allocOwner start (headIndex observed).toNat)) rest
      (Function.update place (headIndex observed).toNat (.busy thread)) := by
  have hok := hinv.threads thread
  rw [hpc] at hok
  obtain ⟨hstart, hindex, hobserved, hnextIndex⟩ := hok
  have hcurrent := hobserved.readAt_eq hinv.generation hfresh hhead
  have htop : pool.top = some (headIndex observed).toNat := by
    rw [Pool.top, hhead]
    exact slotOf_of_lt hindex
  have hlinked := hinv.linked
  rw [htop] at hlinked
  obtain ⟨rest, hfree, hrest⟩ := hlinked.pop
  have hplace : place (headIndex observed).toNat = .listed :=
    ((hinv.listed _).mp (hinv.top_mem htop)).2
  have hnodup := hinv.linked.nodup
  rw [hfree, List.nodup_cons] at hnodup
  refine ⟨rest, ?_⟩
  constructor
  · exact hinv.memory_eq
  · exact hinv.initialized
  · have hbelow : slotOf nextIndex = pool.link (headIndex observed).toNat := by
      rw [Pool.link, hnextIndex hcurrent]
    have htop : ((pool.swapHead (packHead nextIndex
        (headGeneration observed + 1))).goto thread
          (.allocOwner start (headIndex observed).toNat)).top =
            slotOf nextIndex := by
      simp [Pool.top]
    rw [htop, hbelow]
    exact hrest
  · intro slot
    by_cases hslot : slot = (headIndex observed).toNat
    · subst hslot
      simp [hnodup.1]
    · rw [Function.update_of_ne hslot, ← hinv.listed slot, hfree]
      simp [hslot]
  · apply hinv.holding.take hindex
    · intro other
      rw [hplace]
      intro hbusy
      cases hbusy
    · rw [hpc]
      rfl
    · rfl
  · intro slot token
    rw [update_place_eq_iff]
    · exact hinv.live slot token
    · rw [hplace]
      intro hlive
      cases hlive
    · intro hlive
      cases hlive
  · intro slot hslot
    have howned := hinv.owned slot hslot
    by_cases hpopped : slot = (headIndex observed).toNat
    · rw [hpopped, hplace] at howned
      rw [hpopped, Function.update_self]
      exact howned
    · rw [Function.update_of_ne hpopped]
      exact howned
  · rw [← hhead]
    exact generation_succ nextIndex hinv.generation
  · refine @threads_of_update _ _ _ pool _ _ _ _ ?_ ?_
    · exact hstart
    · intro other hother
      exact (hinv.threads other).swapHead _
  · exact hinv.alternating
  · exact hinv.returned

omit [DecidableEq τ] in
theorem liveToken_eq_none
    (hinv : PoolInvariant layout base pool free place) {slot : ℕ}
    (hplace : ∀ token, place slot ≠ .live token) :
    liveToken slot pool.transcript = none := by
  rw [Option.eq_none_iff_forall_ne_some]
  intro token hlive
  exact hplace token ((hinv.live slot token).mp hlive).2

omit [DecidableEq τ] in
theorem owned_update
    {word : UInt64} {after : Place τ}
    (hinv : PoolInvariant layout base pool free place) (slot : ℕ)
    (howns : after.Owns word) :
    ∀ other, other < layout.slots →
      (Function.update place slot after other).Owns
        (Function.update pool.ownership slot word other) := by
  intro other hbound
  by_cases hother : other = slot
  · subst hother
    rw [Function.update_self, Function.update_self]
    exact howns
  · rw [Function.update_of_ne hother, Function.update_of_ne hother]
    exact hinv.owned other hbound

/-- `allocate` claims the slot it has popped. -/
theorem claim
    {start slot : ℕ} {observedState token : UInt64}
    (hinv : PoolInvariant layout base pool free place)
    (hpc : pool.pc thread = .allocClaim start slot observedState)
    (htoken : token ≤ ownershipGenerationMask) :
    PoolInvariant layout base
      (((pool.storeOwnership slot (ownershipAllocatedBit ||| token)).emit
        (.claimed thread slot token)).goto thread .idle) free
      (Function.update place slot (.live token)) := by
  have hheld : (pool.pc thread).held? = some slot := by
    rw [hpc]
    rfl
  obtain ⟨hslot, hplace⟩ := (hinv.holding thread slot).mp hheld
  constructor
  · exact hinv.memory_eq
  · exact hinv.initialized
  · exact hinv.linked
  · intro other
    rw [update_place_eq_iff (by simp [hplace]) (by simp)]
    exact hinv.listed other
  · exact hinv.holding.give (by simp) hheld rfl
  · intro other otherToken
    rw [Pool.goto_transcript, Pool.emit_transcript, liveToken_append]
    by_cases hother : other = slot
    · subst hother
      simp [liveAfter, hslot]
    · rw [Function.update_of_ne hother]
      simp only [liveAfter, Ne.symm hother, if_false]
      exact hinv.live other otherToken
  · exact hinv.owned_update slot ⟨rfl, htoken⟩
  · exact hinv.generation
  · refine @threads_of_update _ _ _ pool _ _ _ _ trivial ?_
    intro other hother
    apply (hinv.threads other).storeOwnership
    intro hagain
    exact hother (hinv.held_unique hagain hheld)
  · exact hinv.alternating.append (hinv.liveToken_eq_none (by simp [hplace]))
  · intro other otherSlot otherToken pointer hmem
    apply hinv.returned other otherSlot otherToken pointer
    simpa using hmem

omit [DecidableEq τ] in
/-- Only the token of the live allocation matches the ownership word. -/
theorem place_eq_live
    {slot : ℕ} {token : UInt64}
    (hinv : PoolInvariant layout base pool free place)
    (hslot : slot < layout.slots) (htoken : token ≤ ownershipGenerationMask)
    (howner : pool.ownership slot = ownershipAllocatedBit ||| token) :
    place slot = .live token := by
  have howned := hinv.owned slot hslot
  rw [howner] at howned
  cases hplace : place slot with
  | listed =>
      rw [hplace] at howned
      exact absurd howned (allocated_not_le htoken)
  | busy other =>
      rw [hplace] at howned
      exact absurd howned (allocated_not_le htoken)
  | live other =>
      rw [hplace] at howned
      rw [allocated_inj htoken howned.2 howned.1]

/-- `free` releases the live allocation with its token. -/
theorem release
    {slot : ℕ} {token : UInt64}
    (hinv : PoolInvariant layout base pool free place)
    (hpc : pool.pc thread = .freeRelease slot token)
    (howner : pool.ownership slot = ownershipAllocatedBit ||| token) :
    PoolInvariant layout base
      (((pool.storeOwnership slot token).emit
        (.released thread slot token)).goto thread (.freeMemory slot)) free
      (Function.update place slot (.busy thread)) := by
  have hok := hinv.threads thread
  rw [hpc] at hok
  obtain ⟨hslot, htoken⟩ := hok
  have hplace := hinv.place_eq_live hslot htoken howner
  constructor
  · exact hinv.memory_eq
  · exact hinv.initialized
  · exact hinv.linked
  · intro other
    rw [update_place_eq_iff (by simp [hplace]) (by simp)]
    exact hinv.listed other
  · apply hinv.holding.take hslot (by simp [hplace])
    · rw [hpc]
      rfl
    · rfl
  · intro other otherToken
    rw [Pool.goto_transcript, Pool.emit_transcript, liveToken_append]
    by_cases hother : other = slot
    · subst hother
      simp [liveAfter]
    · rw [Function.update_of_ne hother]
      simp only [liveAfter, Ne.symm hother, if_false]
      exact hinv.live other otherToken
  · exact hinv.owned_update slot htoken
  · exact hinv.generation
  · refine @threads_of_update _ _ _ pool _ _ _ _ trivial ?_
    intro other hother
    apply (hinv.threads other).storeOwnership
    intro hheld
    have hbusy := ((hinv.holding other slot).mp hheld).2
    rw [hplace] at hbusy
    cases hbusy
  · exact hinv.alternating.append ((hinv.live slot token).mpr ⟨hslot, hplace⟩)
  · intro other otherSlot otherToken pointer hmem
    apply hinv.returned other otherSlot otherToken pointer
    simpa using hmem

/-- `free` pushes the slot it has released. -/
theorem push
    {slot : ℕ} {observed : UInt64}
    (hinv : PoolInvariant layout base pool free place)
    (hpc : pool.pc thread = .freeSwap slot observed)
    (hhead : pool.head = observed) :
    PoolInvariant layout base
      ((pool.swapHead (packHead (UInt32.ofNat slot)
        (headGeneration observed + 1))).goto thread .idle) (slot :: free)
      (Function.update place slot .listed) := by
  have hok := hinv.threads thread
  rw [hpc] at hok
  have hheld : (pool.pc thread).held? = some slot := by
    rw [hpc]
    rfl
  obtain ⟨hslot, hplace⟩ := (hinv.holding thread slot).mp hheld
  have hindex := toNat_ofNat_slot hslot
  constructor
  · exact hinv.memory_eq
  · exact hinv.initialized
  · constructor
    · rw [Pool.top, Pool.goto_head, Pool.swapHead_head, headIndex_packHead,
        slotOf_of_lt (by rw [hindex]; exact hslot), hindex]
    · have hbelow : pool.link slot = pool.top := by
        rw [Pool.link, hok.2, ← hhead, Pool.top]
      have hlinked := hinv.linked
      rw [← hbelow] at hlinked
      exact hlinked
  · intro other
    by_cases hother : other = slot
    · subst hother
      simp [hslot]
    · rw [Function.update_of_ne hother, ← hinv.listed other]
      simp [hother]
  · exact hinv.holding.give (by simp) hheld rfl
  · intro other token
    rw [update_place_eq_iff (by simp [hplace]) (by simp)]
    exact hinv.live other token
  · intro other hbound
    have howned := hinv.owned other hbound
    by_cases hother : other = slot
    · rw [hother, hplace] at howned
      rw [hother, Function.update_self]
      exact howned
    · rw [Function.update_of_ne hother]
      exact howned
  · rw [← hhead]
    exact generation_succ _ hinv.generation
  · refine @threads_of_update _ _ _ pool _ _ _ _ trivial ?_
    intro other _
    exact (hinv.threads other).swapHead _
  · exact hinv.alternating
  · exact hinv.returned

end PoolInvariant

/-! ## Every step keeps the invariant -/

def Placed (layout : Layout) (base : ℕ) (pool : Pool τ) : Prop :=
  ∃ free place, PoolInvariant layout base pool free place

namespace PoolInvariant

omit [DecidableEq τ] in
theorem placed
    (hinv : PoolInvariant layout base pool free place) :
    Placed layout base pool :=
  ⟨free, place, hinv⟩

omit [DecidableEq τ] in
theorem observed_head
    (hinv : PoolInvariant layout base pool free place) :
    DmaPool.Observed pool.headUpdates pool.headUpdates pool.head pool.head := by
  constructor
  · exact Nat.le_refl _
  · exact hinv.generation
  · intro _
    rfl

theorem allocLoop
    (hinv : PoolInvariant layout base pool free place)
    (hheld : (pool.pc thread).held? = none) :
    Placed layout base (pool.allocLoop thread base) := by
  unfold Pool.allocLoop
  split
  · exact (hinv.fail .outOfMemory hheld).placed
  · rename_i hhead
    apply PoolInvariant.placed
    refine hinv.goto (Unmoved.markRead pool thread) hheld.symm ?_
    refine ⟨rfl, hinv.headIndex_lt hhead, ?_⟩
    simpa [Pool.Observed] using hinv.observed_head

theorem freeLoop
    {slot : ℕ} (hinv : PoolInvariant layout base pool free place)
    (hheld : (pool.pc thread).held? = some slot) :
    Placed layout base (pool.freeLoop thread slot) := by
  apply PoolInvariant.placed
  refine hinv.goto (Unmoved.markRead pool thread) hheld.symm ?_
  simpa [ThreadOk, Pool.Observed] using hinv.observed_head

theorem allocateStep
    {spurious : Bool} {next : Pool τ}
    (hinv : PoolInvariant layout base pool free place)
    (hfresh : FreshSwap pool (.step thread spurious))
    (hstep : AllocateStep layout pool thread (pool.pc thread) next) :
    Placed layout base next := by
  have hok := hinv.threads thread
  have hgoto : ∀ after : Pc, after.held? = (pool.pc thread).held? →
      ThreadOk layout base pool thread after →
        Placed layout base (pool.goto thread after) := by
    intro after hheld hafter
    exact (hinv.goto (Unmoved.refl pool thread) hheld hafter).placed
  generalize hpc : pool.pc thread = pc at hstep
  rw [hpc] at hok
  cases hstep with
  | refused hinitialized =>
      rw [hinv.initialized] at hinitialized
      cases hinitialized
  | checked hinitialized => exact hgoto _ (by rw [hpc]; rfl) trivial
  | memoryRead => exact hgoto _ (by rw [hpc]; rfl) hinv.memory_eq
  | headRead start =>
      cases hok
      exact hinv.allocLoop (by rw [hpc]; rfl)
  | nextRead start observed hindex =>
      obtain ⟨hstart, -, hobserved⟩ := hok
      apply hgoto _ (by rw [hpc]; rfl)
      exact ⟨hstart, hindex, hobserved, fun _ => rfl⟩
  | outOfRange start observed hindex => exact (hindex hok.2.1).elim
  | retried start observed nextIndex =>
      cases hok.1
      exact hinv.allocLoop (by rw [hpc]; rfl)
  | swapped start observed nextIndex hhead =>
      cases hok.1
      obtain ⟨rest, hpopped⟩ :=
        hinv.pop hpc (hfresh (by rw [hpc]; rfl)) hhead
      exact hpopped.placed
  | asserted start slot howner =>
      have hheld := (hinv.holding thread slot).mp (by rw [hpc]; rfl)
      have howned := hinv.owned slot hheld.1
      rw [hheld.2] at howned
      exact (howner (and_allocatedBit_eq_zero howned)).elim
  | ownerRead start slot => exact hgoto _ (by rw [hpc]; rfl) ⟨hok, rfl⟩
  | lost start slot observedState howner => exact (howner hok.2).elim
  | claimed start slot observedState howner =>
      have hheld := (hinv.holding thread slot).mp (by rw [hpc]; rfl)
      have hclaimed := hinv.claim hpc (nextGeneration_le observedState)
      apply PoolInvariant.placed
      apply hclaimed.emit_returned
      intro other token pointer hallocated
      cases hallocated
      exact ⟨hheld.1, by rw [hok.1]⟩

theorem freeStep
    {next : Pool τ} (hinv : PoolInvariant layout base pool free place)
    (hstep : FreeStep layout pool thread (pool.pc thread) next) :
    Placed layout base next := by
  have hok := hinv.threads thread
  have hgoto : ∀ (same : Pool τ) (after : Pc), Unmoved pool same thread →
      after.held? = (pool.pc thread).held? →
      ThreadOk layout base same thread after →
        Placed layout base (same.goto thread after) := by
    intro same after hsame hheld hafter
    exact (hinv.goto hsame hheld hafter).placed
  have hrefl := Unmoved.refl pool thread
  generalize hpc : pool.pc thread = pc at hstep
  rw [hpc] at hok
  cases hstep with
  | refused slot generation error =>
      exact (hinv.fail error (by rw [hpc]; rfl)).placed
  | checked slot generation hslot hgeneration =>
      exact hgoto _ _ hrefl (by rw [hpc]; rfl) ⟨hslot, hgeneration⟩
  | lost slot generation howner =>
      exact (hinv.fail .doubleFree (by rw [hpc]; rfl)).placed
  | released slot generation howner => exact (hinv.release hpc howner).placed
  | memoryRead slot =>
      exact hgoto _ _ hrefl (by rw [hpc]; rfl) hinv.memory_eq
  | wiped slot start offset phase =>
      obtain ⟨bytes, after, hwipe, hafter⟩ :=
        stepWipe_eq layout pool thread slot start offset phase
      have hbytes : Unmoved pool { pool with bytes := bytes } thread := by
        constructor <;> simp
      rw [hwipe]
      rcases hafter with ⟨offset, phase, rfl⟩ | rfl
      · exact hgoto _ _ hbytes (by rw [hpc]; rfl) hok
      · exact hgoto _ _ hbytes (by rw [hpc]; rfl) trivial
  | flushed slot => exact hgoto _ _ hrefl (by rw [hpc]; rfl) trivial
  | stalled slot => exact hgoto _ _ hrefl (by rw [hpc]) trivial
  | headRead slot => exact hinv.freeLoop (by rw [hpc]; rfl)
  | linked slot observed =>
      apply hgoto _ _ (Unmoved.storeNext _ (by rw [hpc]; rfl))
        (by rw [hpc]; rfl)
      exact ⟨hok, by simp⟩
  | retried slot observed => exact hinv.freeLoop (by rw [hpc]; rfl)
  | swapped slot observed hhead =>
      apply PoolInvariant.placed
      apply (hinv.push hpc hhead).emit_returned
      intro other token pointer hfreed
      cases hfreed

/-- Once the pool is initialized, `init` can only be refused. -/
theorem init_refused
    {next : Pool τ} (hinv : PoolInvariant layout base pool free place)
    (hstep : InitStep layout pool thread (pool.pc thread) next) :
    ∃ start, pool.pc thread = .initCheck start ∧
      next = pool.finish thread (.failed .alreadyInitialized) := by
  have hok := hinv.threads thread
  generalize pool.pc thread = pc at hstep hok
  cases hstep with
  | refused start hinitialized => exact ⟨start, rfl, rfl⟩
  | checked start hinitialized =>
      rw [hinv.initialized] at hinitialized
      cases hinitialized
  | _ => exact False.elim hok

theorem startCall
    (hinv : PoolInvariant layout base pool free place)
    (hidle : pool.pc thread = .idle) (operation : Operation) :
    Placed layout base (startCall layout pool thread operation) := by
  have hnone : (pool.pc thread).held? = none := by
    rw [hidle]
    rfl
  have hgoto : ∀ after : Pc, after.held? = none →
      ThreadOk layout base pool thread after →
        Placed layout base (pool.goto thread after) := by
    intro after hheld hafter
    rw [← hnone] at hheld
    exact (hinv.goto (Unmoved.refl pool thread) hheld hafter).placed
  cases operation with
  | init start sizeInBytes =>
      simp only [DmaPool.startCall]
      split
      · exact (hinv.fail _ hnone).placed
      · exact hgoto _ rfl trivial
  | allocate => exact hgoto _ rfl trivial
  | free slot generation => exact hgoto _ rfl trivial

end PoolInvariant

theorem step_placed
    {next : Pool τ} {action : Action τ} (hplaced : Placed layout base pool)
    (hfresh : FreshSwap pool action)
    (hstep : step layout pool action = some next) :
    Placed layout base next := by
  obtain ⟨free, place, hinv⟩ := hplaced
  cases action with
  | call thread operation =>
      obtain ⟨hidle, rfl⟩ := step_call hstep
      exact hinv.startCall hidle operation
  | step thread spurious =>
      rcases step_thread_cases hstep with hinit | hallocate | hfree
      · obtain ⟨start, hpc, hrefused⟩ := hinv.init_refused hinit
        rw [hrefused]
        exact (hinv.fail .alreadyInitialized (by rw [hpc]; rfl)).placed
      · exact hinv.allocateStep hfresh hallocate
      · exact hinv.freeStep hfree
  | hostWrite address value =>
      cases hstep
      exact ⟨free, place, hinv.memory_eq, hinv.initialized, hinv.linked,
        hinv.listed, hinv.holding, hinv.live, hinv.owned, hinv.generation,
        hinv.threads, hinv.alternating, hinv.returned⟩

end DmaPool
end ShawnCore
