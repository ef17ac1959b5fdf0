import ShawnCore.DmaTokens
import ShawnCore.DmaWipe

/-!
# Freed memory is wiped before it is used again

The stores of a wipe come after the release of the slot and before the slot is
back on the free list, so nobody else has the slot meanwhile.  A byte of a slot
which was released, and is not live, is therefore zero unless a call of `free`
has still to store there.  Holders write to live slots only, hence the next
holder finds the slot zeroed.
-/

namespace ShawnCore
namespace DmaPool

variable {τ : Type}

/-! ## What a step does to the memory -/

/-- The stores which a call in progress has still to make. -/
def Pc.pending (layout : Layout) (base : ℕ) : Pc → List WipeStore
  | .freeMemory slot => wipeStores layout base slot
  | .freeWipe slot start offset phase =>
      phase.stores layout.size (start + slot * layout.size) offset
  | _ => []

theorem Pc.held_of_pending
    {layout : Layout} {base : ℕ} {pc : Pc}
    (hpending : pc.pending layout base ≠ []) :
    ∃ slot, pc.held? = some slot := by
  cases pc with
  | freeMemory slot => exact ⟨slot, rfl⟩
  | freeWipe slot start offset phase => exact ⟨slot, rfl⟩
  | _ => exact absurd rfl hpending

variable [DecidableEq τ]

/-- A call keeps its pending stores, makes the first of them, claims a slot, or
releases one and has its whole wipe to do. -/
inductive MemoryEffect
    (layout : Layout) (base : ℕ) (pool next : Pool τ) (thread : τ) : Prop
  | quiet (after : Pc) (events : List (Event τ))
      (hpc : next.pc = Function.update pool.pc thread after)
      (hpending : after.pending layout base =
        (pool.pc thread).pending layout base)
      (hheld : after.pending layout base ≠ [] →
        after.held? = (pool.pc thread).held?)
      (hbytes : next.bytes = pool.bytes)
      (hquiet : ∀ event ∈ events, event.IsQuiet)
      (htranscript : next.transcript = pool.transcript ++ events)
  | stored (after : Pc) (store : WipeStore)
      (hpc : next.pc = Function.update pool.pc thread after)
      (hpending : (pool.pc thread).pending layout base =
        store :: after.pending layout base)
      (hheld : after.held? = (pool.pc thread).held?)
      (hbytes : next.bytes = (pool.zeroize store.addresses).bytes)
      (htranscript : next.transcript = pool.transcript)
  | claimed (start slot : ℕ) (observedState token : UInt64) (pointer : ℕ)
      (hbefore : pool.pc thread = .allocClaim start slot observedState)
      (hpc : next.pc = Function.update pool.pc thread .idle)
      (hbytes : next.bytes = pool.bytes)
      (htranscript : next.transcript = pool.transcript ++
        [.claimed thread slot token,
          .returned thread (.allocated slot token pointer)])
  | released (slot : ℕ) (token : UInt64)
      (hpc : next.pc = Function.update pool.pc thread (.freeMemory slot))
      (hpending : (pool.pc thread).pending layout base = [])
      (hbytes : next.bytes = pool.bytes)
      (htranscript : next.transcript =
        pool.transcript ++ [.released thread slot token])

section Effects

variable {layout : Layout} {base : ℕ} {pool next same : Pool τ} {thread : τ}
  {spurious : Bool}

/-- The step has changed neither the memory nor what is visible of calls. -/
structure Silent (pool same : Pool τ) : Prop where
  pc_eq : same.pc = pool.pc
  bytes_eq : same.bytes = pool.bytes
  transcript_eq : same.transcript = pool.transcript

theorem MemoryEffect.goto
    {after : Pc} (hsame : Silent pool same)
    (hpending : after.pending layout base =
      (pool.pc thread).pending layout base)
    (hheld : after.pending layout base ≠ [] →
      after.held? = (pool.pc thread).held?) :
    MemoryEffect layout base pool (same.goto thread after) thread := by
  refine .quiet after [] ?_ hpending hheld hsame.bytes_eq (by simp) ?_
  · rw [← hsame.pc_eq]
    rfl
  · rw [Pool.goto_transcript, hsame.transcript_eq, List.append_nil]

theorem MemoryEffect.finish
    {outcome : Outcome} (hsame : Silent pool same)
    (hpending : (pool.pc thread).pending layout base = [])
    (hquiet : (Event.returned thread outcome).IsQuiet) :
    MemoryEffect layout base pool (same.finish thread outcome) thread := by
  refine .quiet .idle [.returned thread outcome] ?_ ?_ ?_ hsame.bytes_eq ?_ ?_
  · rw [← hsame.pc_eq]
    rfl
  · rw [hpending]
    rfl
  · intro hstores
    exact absurd rfl hstores
  · intro event hevent
    rw [List.mem_singleton.mp hevent]
    exact hquiet
  · rw [Pool.finish_transcript, hsame.transcript_eq]

/-- A step of a call which has no stores to make. -/
theorem MemoryEffect.pass
    {after : Pc} (hsame : Silent pool same)
    (hpending : (pool.pc thread).pending layout base = [])
    (hafter : after.pending layout base = []) :
    MemoryEffect layout base pool (same.goto thread after) thread := by
  apply MemoryEffect.goto hsame
  · rw [hpending, hafter]
  · intro hstores
    exact absurd hafter hstores

theorem MemoryEffect.allocLoop
    {start : ℕ} (hpending : (pool.pc thread).pending layout base = []) :
    MemoryEffect layout base pool (pool.allocLoop thread start) thread := by
  unfold Pool.allocLoop
  split
  next => exact .finish ⟨rfl, rfl, rfl⟩ hpending ⟨rfl, rfl, rfl⟩
  next => exact .pass ⟨rfl, rfl, rfl⟩ hpending rfl

theorem AllocateStep.memory
    (hstep : AllocateStep layout pool thread (pool.pc thread) next) :
    MemoryEffect layout base pool next thread := by
  generalize hpc : pool.pc thread = pc at hstep
  have hpending : (pool.pc thread).pending layout base = [] := by
    rw [hpc]
    cases hstep <;> rfl
  cases hstep with
  | refused hinitialized =>
      exact .finish ⟨rfl, rfl, rfl⟩ hpending ⟨rfl, rfl, rfl⟩
  | checked hinitialized => exact .pass ⟨rfl, rfl, rfl⟩ hpending rfl
  | memoryRead => exact .pass ⟨rfl, rfl, rfl⟩ hpending rfl
  | headRead start => exact .allocLoop hpending
  | nextRead start observed hindex =>
      exact .pass ⟨rfl, rfl, rfl⟩ hpending rfl
  | outOfRange start observed hindex =>
      exact .pass ⟨rfl, rfl, rfl⟩ hpending rfl
  | retried start observed nextIndex => exact .allocLoop hpending
  | swapped start observed nextIndex hhead =>
      exact .pass ⟨rfl, rfl, rfl⟩ hpending rfl
  | asserted start slot howner => exact .pass ⟨rfl, rfl, rfl⟩ hpending rfl
  | ownerRead start slot => exact .pass ⟨rfl, rfl, rfl⟩ hpending rfl
  | lost start slot observedState howner =>
      exact .finish ⟨rfl, rfl, rfl⟩ hpending ⟨rfl, rfl, rfl⟩
  | claimed start slot observedState howner =>
      refine .claimed start slot observedState
        (nextGeneration observedState) (start + slot * layout.size) hpc rfl
        rfl ?_
      simp

/-- The loops of `free` make their stores one by one. -/
theorem stepWipe_memory
    {slot start offset : ℕ} {phase : WipePhase}
    (hpc : pool.pc thread = .freeWipe slot start offset phase) :
    MemoryEffect layout base pool
      (stepWipe layout pool thread slot start offset phase) thread := by
  rcases stepWipe_cases layout pool thread slot start offset phase with
    ⟨store, after, hstores, hnext⟩ | ⟨later, -, hstores, hnext⟩ |
      ⟨-, hstores, hnext⟩
  · rw [hnext]
    refine .stored (.freeWipe slot start after phase) store rfl ?_ ?_ rfl rfl
    · rw [hpc]
      exact hstores
    · rw [hpc]
      rfl
  · rw [hnext]
    refine .goto ⟨rfl, rfl, rfl⟩ ?_ ?_
    · rw [hpc]
      exact hstores.symm
    · intro _
      rw [hpc]
      rfl
  · rw [hnext]
    refine .pass ⟨rfl, rfl, rfl⟩ ?_ rfl
    rw [hpc]
    exact hstores

theorem FreeStep.memory
    (hmemory : pool.memory = base)
    (hstep : FreeStep layout pool thread (pool.pc thread) next) :
    MemoryEffect layout base pool next thread := by
  have hnone : ∀ pc : Pc, pool.pc thread = pc → pc.pending layout base = [] →
      (pool.pc thread).pending layout base = [] := by
    intro pc hpc hpending
    rw [hpc, hpending]
  generalize hpc : pool.pc thread = pc at hstep
  cases hstep with
  | refused slot generation error =>
      exact .finish ⟨rfl, rfl, rfl⟩ (hnone _ hpc rfl) ⟨rfl, rfl, rfl⟩
  | checked slot generation hslot hgeneration =>
      exact .pass ⟨rfl, rfl, rfl⟩ (hnone _ hpc rfl) rfl
  | lost slot generation howner =>
      exact .finish ⟨rfl, rfl, rfl⟩ (hnone _ hpc rfl) ⟨rfl, rfl, rfl⟩
  | released slot generation howner =>
      exact .released slot generation rfl (hnone _ hpc rfl) rfl rfl
  | memoryRead slot =>
      rw [hmemory]
      refine .goto ⟨rfl, rfl, rfl⟩ ?_ ?_
      · rw [hpc]
        rfl
      · intro _
        rw [hpc]
        rfl
  | wiped slot start offset phase => exact stepWipe_memory hpc
  | flushed | stalled =>
      exact .pass ⟨rfl, rfl, rfl⟩ (hnone _ hpc rfl) rfl
  | headRead slot => exact .pass ⟨rfl, rfl, rfl⟩ (hnone _ hpc rfl) rfl
  | linked slot observed => exact .pass ⟨rfl, rfl, rfl⟩ (hnone _ hpc rfl) rfl
  | retried slot observed => exact .pass ⟨rfl, rfl, rfl⟩ (hnone _ hpc rfl) rfl
  | swapped slot observed hhead =>
      exact .finish ⟨rfl, rfl, rfl⟩ (hnone _ hpc rfl) ⟨rfl, rfl, rfl⟩

theorem startCall_memory
    (hidle : pool.pc thread = .idle) (operation : Operation) :
    MemoryEffect layout base pool (startCall layout pool thread operation)
      thread := by
  have hnone : (pool.pc thread).pending layout base = [] := by
    rw [hidle]
    rfl
  cases operation with
  | init start sizeInBytes =>
      simp only [startCall]
      split
      next => exact .finish ⟨rfl, rfl, rfl⟩ hnone ⟨rfl, rfl, rfl⟩
      next => exact .pass ⟨rfl, rfl, rfl⟩ hnone rfl
  | allocate => exact .pass ⟨rfl, rfl, rfl⟩ hnone rfl
  | free slot generation => exact .pass ⟨rfl, rfl, rfl⟩ hnone rfl

theorem step_memory
    {free : List ℕ} {place : ℕ → Place τ}
    (hinv : PoolInvariant layout base pool free place)
    (hstep : step layout pool (.step thread spurious) = some next) :
    MemoryEffect layout base pool next thread := by
  rcases step_thread_cases hstep with hinit | hallocate | hfree
  · obtain ⟨start, hpc, hrefused⟩ := hinv.init_refused hinit
    rw [hrefused]
    refine .finish ⟨rfl, rfl, rfl⟩ ?_ ⟨rfl, rfl, rfl⟩
    rw [hpc]
    rfl
  · exact hallocate.memory
  · exact hfree.memory hinv.memory_eq

end Effects

/-! ## The bytes of slots which are not live -/

def WasReleased (slot : ℕ) (transcript : List (Event τ)) : Prop :=
  ∃ thread token, Event.released thread slot token ∈ transcript

/-- The pending stores are the last ones of the wipe of the slot in hand. -/
def Pc.EndsWipe (layout : Layout) (base : ℕ) (pc : Pc) : Prop :=
  ∀ slot, pc.held? = some slot →
    pc.pending layout base <:+ wipeStores layout base slot

/-- A byte of a slot which was released is zero while the slot is not live,
unless a store to it is pending. -/
structure Scrubbed
    (layout : Layout) (base : ℕ) (pool : Pool τ) : Prop where
  endsWipe : ∀ thread, (pool.pc thread).EndsWipe layout base
  zero : ∀ slot address, slot < layout.slots →
    address ∈ layout.slotBytes base slot →
    WasReleased slot pool.transcript →
    liveToken slot pool.transcript = none →
    (∀ thread, address ∉ touched ((pool.pc thread).pending layout base)) →
      pool.bytes address = 0

section Invariant

variable {layout : Layout} {base : ℕ} {pool next : Pool τ} {thread : τ}
  {spurious : Bool}

omit [DecidableEq τ] in
theorem WasReleased.of_append
    {slot : ℕ} {transcript events : List (Event τ)}
    (hreleased : WasReleased slot (transcript ++ events))
    (hevents : ∀ other token, Event.released other slot token ∉ events) :
    WasReleased slot transcript := by
  obtain ⟨other, token, hmem⟩ := hreleased
  rw [List.mem_append] at hmem
  cases hmem with
  | inl hbefore => exact ⟨other, token, hbefore⟩
  | inr hafter => exact absurd hafter (hevents other token)

omit [DecidableEq τ] in
/-- Only a release of the slot ends its life. -/
theorem liveToken_eq_none_of_append
    {slot : ℕ} {transcript events : List (Event τ)}
    (hevents : ∀ other token, Event.released other slot token ∉ events)
    (hlive : liveToken slot (transcript ++ events) = none) :
    liveToken slot transcript = none := by
  induction events generalizing transcript with
  | nil => rwa [List.append_nil] at hlive
  | cons event rest ih =>
      rw [List.append_cons] at hlive
      have hbefore := ih (fun other token hmem =>
        hevents other token (List.mem_cons_of_mem _ hmem)) hlive
      rw [liveToken_append] at hbefore
      cases event with
      | claimed other claimedSlot token =>
          simp only [liveAfter] at hbefore
          split at hbefore
          · cases hbefore
          · exact hbefore
      | released other releasedSlot token =>
          simp only [liveAfter] at hbefore
          split at hbefore
          next hslot =>
            subst hslot
            exact absurd List.mem_cons_self (hevents other token)
          next => exact hbefore
      | returned other outcome => exact hbefore

omit [DecidableEq τ] in
theorem not_released_of_isQuiet
    {slot : ℕ} {events : List (Event τ)}
    (hquiet : ∀ event ∈ events, event.IsQuiet) :
    ∀ other token, Event.released other slot token ∉ events := by
  intro other token hmem
  have hnone := (hquiet _ hmem).2.2
  cases hnone

theorem MemoryEffect.endsWipe
    (heffect : MemoryEffect layout base pool next thread)
    (hscrubbed : Scrubbed layout base pool) :
    ∀ other, (next.pc other).EndsWipe layout base := by
  have hupdate : ∀ after : Pc, next.pc = Function.update pool.pc thread after →
      after.EndsWipe layout base →
        ∀ other, (next.pc other).EndsWipe layout base := by
    intro after hpc hafter
    rw [hpc, Function.forall_update_iff pool.pc
      (fun _ pc => pc.EndsWipe layout base)]
    exact ⟨hafter, fun other _ => hscrubbed.endsWipe other⟩
  have hmine := hscrubbed.endsWipe thread
  cases heffect with
  | quiet after events hpc hpending hheld hbytes hquiet htranscript =>
      apply hupdate after hpc
      intro slot hslot
      by_cases hnone : after.pending layout base = []
      · rw [hnone]
        exact List.nil_suffix
      · rw [hheld hnone] at hslot
        rw [hpending]
        exact hmine slot hslot
  | stored after store hpc hpending hheld hbytes htranscript =>
      apply hupdate after hpc
      intro slot hslot
      rw [hheld] at hslot
      have hsuffix := hmine slot hslot
      rw [hpending] at hsuffix
      exact (List.suffix_cons store _).trans hsuffix
  | claimed start slot observedState token pointer hbefore hpc =>
      apply hupdate .idle hpc
      intro other hother
      cases hother
  | released slot token hpc =>
      apply hupdate (.freeMemory slot) hpc
      intro other hother
      cases hother
      exact List.suffix_rfl

theorem MemoryEffect.zero
    (heffect : MemoryEffect layout base pool next thread)
    (hscrubbed : Scrubbed layout base pool) {slot address : ℕ}
    (hslot : slot < layout.slots)
    (haddress : address ∈ layout.slotBytes base slot)
    (hreleased : WasReleased slot next.transcript)
    (hlive : liveToken slot next.transcript = none)
    (hstored : ∀ other,
      address ∉ touched ((next.pc other).pending layout base)) :
    next.bytes address = 0 := by
  have hpool : WasReleased slot pool.transcript →
      liveToken slot pool.transcript = none →
      (address ∉ touched ((pool.pc thread).pending layout base)) →
      (∀ other, other ≠ thread →
        address ∉ touched ((pool.pc other).pending layout base)) →
      pool.bytes address = 0 := by
    intro hwas hnone hmine hothers
    apply hscrubbed.zero slot address hslot haddress hwas hnone
    intro other
    by_cases hother : other = thread
    · rw [hother]
      exact hmine
    · exact hothers other hother
  have hupdate : ∀ after : Pc, next.pc = Function.update pool.pc thread after →
      address ∉ touched (after.pending layout base) ∧
        ∀ other, other ≠ thread →
          address ∉ touched ((pool.pc other).pending layout base) := by
    intro after hpc
    rwa [hpc, Function.forall_update_iff pool.pc (fun _ pc =>
      address ∉ touched (pc.pending layout base))] at hstored
  cases heffect with
  | quiet after events hpc hpending hheld hbytes hquiet htranscript =>
      obtain ⟨hmine, hothers⟩ := hupdate _ hpc
      rw [hpending] at hmine
      rw [htranscript] at hreleased hlive
      have hnot := @not_released_of_isQuiet _ slot _ hquiet
      rw [hbytes]
      exact hpool (hreleased.of_append hnot)
        (liveToken_eq_none_of_append hnot hlive) hmine hothers
  | stored after store hpc hpending hheld hbytes htranscript =>
      obtain ⟨hmine, hothers⟩ := hupdate _ hpc
      rw [htranscript] at hreleased hlive
      rw [hbytes, Pool.zeroize_bytes]
      split
      next => rfl
      next hother =>
        apply hpool hreleased hlive _ hothers
        rw [hpending, touched_cons, List.mem_append, not_or]
        exact ⟨hother, hmine⟩
  | claimed start claimedSlot observedState token pointer hbefore hpc hbytes
      htranscript =>
      obtain ⟨hmine, hothers⟩ := hupdate _ hpc
      rw [htranscript] at hreleased hlive
      have hnot : ∀ other otherToken, Event.released other slot otherToken ∉
          [.claimed thread claimedSlot token,
            .returned thread (.allocated claimedSlot token pointer)] := by
        simp
      rw [hbytes]
      apply hpool (hreleased.of_append hnot)
        (liveToken_eq_none_of_append hnot hlive) _ hothers
      rw [hbefore]
      exact List.not_mem_nil
  | released releasedSlot token hpc hpending hbytes htranscript =>
      obtain ⟨hmine, hothers⟩ := hupdate _ hpc
      rw [htranscript] at hreleased hlive
      have hne : releasedSlot ≠ slot := by
        rintro rfl
        exact hmine (mem_touched_wipeStores.mpr haddress)
      have hnot : ∀ other otherToken, Event.released other slot otherToken ∉
          [Event.released thread releasedSlot token] := by
        simp [Ne.symm hne]
      rw [hbytes]
      apply hpool (hreleased.of_append hnot)
        (liveToken_eq_none_of_append hnot hlive) _ hothers
      rw [hpending]
      exact List.not_mem_nil

theorem MemoryEffect.scrubbed
    (heffect : MemoryEffect layout base pool next thread)
    (hscrubbed : Scrubbed layout base pool) :
    Scrubbed layout base next := by
  constructor
  · exact heffect.endsWipe hscrubbed
  · intro slot address hslot haddress hreleased hlive hstored
    exact heffect.zero hscrubbed hslot haddress hreleased hlive hstored

/-- A write by the host to a slot is by its holder: the slot is live.  The
holder may go on until its call of `free` has released the slot. -/
def HolderWrites (layout : Layout) (base : ℕ) (pool : Pool τ) :
    Action τ → Prop
  | .hostWrite address _ =>
      ∀ slot, slot < layout.slots → address ∈ layout.slotBytes base slot →
        pool.IsLive slot
  | _ => True

/-- Holders keep to their slots, and no head is compared with one read `2 ^ 32`
updates before. -/
def Disciplined (layout : Layout) (base : ℕ) (pool : Pool τ)
    (action : Action τ) : Prop :=
  FreshSwap pool action ∧ HolderWrites layout base pool action

omit [DecidableEq τ] in
theorem Scrubbed.hostWrite
    {address : ℕ} (hscrubbed : Scrubbed layout base pool) (value : UInt8)
    (hwrites : HolderWrites layout base pool (.hostWrite address value)) :
    Scrubbed layout base (pool.storeByte address value) := by
  refine ⟨hscrubbed.endsWipe, ?_⟩
  intro slot other hslot hother hreleased hlive hstored
  rw [Pool.storeByte_bytes, Function.update_of_ne]
  · exact hscrubbed.zero slot other hslot hother hreleased hlive hstored
  · rintro rfl
    obtain ⟨token, htoken⟩ := hwrites slot hslot hother
    rw [Pool.storeByte_transcript, htoken] at hlive
    cases hlive

/-- What the steps of the pool keep. -/
structure CleanPool
    (layout : Layout) (base : ℕ) (pool : Pool τ) : Prop where
  placed : Placed layout base pool
  scrubbed : Scrubbed layout base pool

theorem CleanPool.step
    {action : Action τ} (hclean : CleanPool layout base pool)
    (hdisciplined : Disciplined layout base pool action)
    (hstep : step layout pool action = some next) :
    CleanPool layout base next := by
  refine ⟨step_placed hclean.placed hdisciplined.1 hstep, ?_⟩
  obtain ⟨free, place, hinv⟩ := hclean.placed
  cases action with
  | call thread operation =>
      obtain ⟨hidle, rfl⟩ := step_call hstep
      exact (startCall_memory hidle operation).scrubbed hclean.scrubbed
  | step thread spurious =>
      exact (step_memory hinv hstep).scrubbed hclean.scrubbed
  | hostWrite address value =>
      cases hstep
      exact hclean.scrubbed.hostWrite value hdisciplined.2

omit [DecidableEq τ] in
theorem initialized_cleanPool (bytes : ℕ → UInt8) :
    CleanPool layout base (Pool.initialized layout thread base bytes) := by
  refine ⟨(initialized_invariant bytes).placed, ?_, ?_⟩
  · intro other slot hheld
    cases hheld
  · intro slot address _ _ hreleased
    obtain ⟨other, token, hmem⟩ := hreleased
    simp [Pool.initialized] at hmem

end Invariant

/-! ## The next holder -/

section Reuse

variable {layout : Layout} {base : ℕ} {pool next : Pool τ} {thread : τ}
  {spurious : Bool}

theorem Layout.slotBytes_inj
    {left right address : ℕ} (hleft : address ∈ layout.slotBytes base left)
    (hright : address ∈ layout.slotBytes base right) :
    left = right := by
  by_contra hne
  cases Nat.lt_or_gt_of_ne hne with
  | inl hlt =>
      exact Set.disjoint_left.mp (layout.slotBytes_disjoint_of_lt hlt) hleft
        hright
  | inr hgt =>
      exact Set.disjoint_left.mp (layout.slotBytes_disjoint_of_lt hgt) hright
        hleft

omit [DecidableEq τ] in
/-- A pending store is to the slot in hand. -/
theorem Scrubbed.held_of_touched
    {address : ℕ} (hscrubbed : Scrubbed layout base pool)
    (haddress : address ∈ touched ((pool.pc thread).pending layout base)) :
    ∃ slot, (pool.pc thread).held? = some slot ∧
      address ∈ layout.slotBytes base slot := by
  have hpending : (pool.pc thread).pending layout base ≠ [] := by
    intro hnone
    rw [hnone] at haddress
    cases haddress
  obtain ⟨slot, hslot⟩ := Pc.held_of_pending hpending
  refine ⟨slot, hslot, ?_⟩
  rw [← mem_touched_wipeStores]
  obtain ⟨store, hstore, htouched⟩ := List.mem_flatMap.mp haddress
  have hsuffix := hscrubbed.endsWipe thread slot hslot
  exact List.mem_flatMap.mpr ⟨store, hsuffix.subset hstore, htouched⟩

omit [DecidableEq τ] in
/-- A slot which is about to be claimed again is all zero. -/
theorem CleanPool.zero_of_claim
    {start slot address : ℕ} {observedState : UInt64}
    (hclean : CleanPool layout base pool)
    (hpc : pool.pc thread = .allocClaim start slot observedState)
    (hreleased : WasReleased slot pool.transcript)
    (haddress : address ∈ layout.slotBytes base slot) :
    pool.bytes address = 0 := by
  obtain ⟨free, place, hinv⟩ := hclean.placed
  have hheld : (pool.pc thread).held? = some slot := by
    rw [hpc]
    rfl
  obtain ⟨hslot, hplace⟩ := (hinv.holding thread slot).mp hheld
  apply hclean.scrubbed.zero slot address hslot haddress hreleased
  · apply hinv.liveToken_eq_none
    intro token
    rw [hplace]
    intro hlive
    cases hlive
  · intro other htouched
    obtain ⟨otherSlot, hother, hbytes⟩ :=
      hclean.scrubbed.held_of_touched htouched
    rw [layout.slotBytes_inj hbytes haddress] at hother
    rw [← hinv.held_unique hheld hother, hpc] at htouched
    cases htouched

/-- `allocate` has just returned the slot. -/
def Allocates
    (pool next : Pool τ) (thread : τ) (slot : ℕ) : Prop :=
  ∃ token pointer, next.transcript = pool.transcript ++
    [.claimed thread slot token,
      .returned thread (.allocated slot token pointer)]

theorem MemoryEffect.of_allocates
    {claimant : τ} {slot : ℕ}
    (heffect : MemoryEffect layout base pool next thread)
    (hallocates : Allocates pool next claimant slot) :
    next.bytes = pool.bytes ∧ ∃ start observedState,
      pool.pc thread = .allocClaim start slot observedState := by
  obtain ⟨token, pointer, hclaimed⟩ := hallocates
  cases heffect with
  | quiet after events hpc hpending hheld hbytes hquiet htranscript =>
      rw [htranscript, List.append_right_inj] at hclaimed
      rw [hclaimed, List.forall_mem_cons] at hquiet
      have hnone := hquiet.1.2.1
      cases hnone
  | stored after store hpc hpending hheld hbytes htranscript =>
      rw [htranscript, List.self_eq_append_right] at hclaimed
      cases hclaimed
  | claimed start claimedSlot observedState _ _ hbefore hpc hbytes
      htranscript =>
      rw [htranscript, List.append_right_inj] at hclaimed
      cases hclaimed
      exact ⟨hbytes, start, observedState, hbefore⟩
  | released releasedSlot _ hpc hpending hbytes htranscript =>
      rw [htranscript, List.append_right_inj] at hclaimed
      cases hclaimed

def Action.Writes (addresses : Set ℕ) : Action τ → Prop
  | .hostWrite address _ => address ∈ addresses
  | _ => False

theorem MemoryEffect.stays_zero
    {address : ℕ} (heffect : MemoryEffect layout base pool next thread)
    (hzero : pool.bytes address = 0) :
    next.bytes address = 0 := by
  cases heffect with
  | quiet _ _ _ _ _ hbytes => rw [hbytes, hzero]
  | stored _ store _ _ _ hbytes =>
      rw [hbytes, Pool.zeroize_bytes, hzero, ite_self]
  | claimed _ _ _ _ _ _ _ hbytes => rw [hbytes, hzero]
  | released _ _ _ _ hbytes => rw [hbytes, hzero]

/-- Only the host makes a byte nonzero. -/
theorem CleanPool.stays_zero
    {addresses : Set ℕ} {address : ℕ} {action : Action τ}
    (hclean : CleanPool layout base pool) (haddress : address ∈ addresses)
    (hwrites : ¬ action.Writes addresses)
    (hstep : DmaPool.step layout pool action = some next)
    (hzero : pool.bytes address = 0) :
    next.bytes address = 0 := by
  obtain ⟨free, place, hinv⟩ := hclean.placed
  cases action with
  | call thread operation =>
      obtain ⟨hidle, rfl⟩ := step_call hstep
      exact (@startCall_memory _ _ _ base _ _ hidle operation).stays_zero
        hzero
  | step thread spurious => exact (step_memory hinv hstep).stays_zero hzero
  | hostWrite written value =>
      cases hstep
      rw [Pool.storeByte_bytes, Function.update_of_ne]
      · exact hzero
      · rintro rfl
        exact hwrites haddress

/-- A step of a thread leaves the memory alone, or makes one of the stores of
the wipe of the slot which the thread has to itself. -/
def OnlyWipes (layout : Layout) (base : ℕ) (pool : Pool τ) : Prop :=
  ∀ thread spurious next,
    step layout pool (.step thread spurious) = some next →
      next.bytes = pool.bytes ∨
        ∃ slot store, (pool.pc thread).held? = some slot ∧
          store ∈ wipeStores layout base slot ∧
          next.bytes = (pool.zeroize store.addresses).bytes

theorem CleanPool.onlyWipes (hclean : CleanPool layout base pool) :
    OnlyWipes layout base pool := by
  intro thread spurious next hstep
  obtain ⟨free, place, hinv⟩ := hclean.placed
  cases step_memory hinv hstep with
  | quiet _ _ _ _ _ hbytes => exact Or.inl hbytes
  | stored after store _ hpending _ hbytes =>
      have hstores : (pool.pc thread).pending layout base ≠ [] := by
        rw [hpending]
        exact List.cons_ne_nil _ _
      obtain ⟨slot, hslot⟩ := Pc.held_of_pending hstores
      have hsuffix := hclean.scrubbed.endsWipe thread slot hslot
      rw [hpending] at hsuffix
      exact Or.inr
        ⟨slot, store, hslot, hsuffix.subset List.mem_cons_self, hbytes⟩
  | claimed _ _ _ _ _ _ _ hbytes => exact Or.inl hbytes
  | released _ _ _ _ hbytes => exact Or.inl hbytes

/-- What holds in every run from a state of the pool. -/
structure CleanReuse
    (layout : Layout) (base : ℕ) (start : Pool τ) : Prop where
  onlyWipes : ∀ schedule final,
    Execution.RunWithin (step layout) (Disciplined layout base) start
      schedule →
    Execution.run (step layout) start schedule = some final →
      OnlyWipes layout base final
  zero_until_written :
    ∀ earlier later claimant spurious pool next final slot,
      Execution.RunWithin (step layout) (Disciplined layout base) start
        (earlier ++ .step claimant spurious :: later) →
      Execution.run (step layout) start earlier = some pool →
      step layout pool (.step claimant spurious) = some next →
      Execution.run (step layout) next later = some final →
      WasReleased slot pool.transcript →
      Allocates pool next claimant slot →
      (∀ action ∈ later, ¬ action.Writes (layout.slotBytes base slot)) →
        ∀ address ∈ layout.slotBytes base slot, final.bytes address = 0

theorem CleanPool.run
    {schedule : List (Action τ)} {final : Pool τ}
    (hclean : CleanPool layout base pool)
    (hwithin : Execution.RunWithin (DmaPool.step layout)
      (Disciplined layout base) pool schedule)
    (hrun : Execution.run (DmaPool.step layout) pool schedule = some final) :
    CleanPool layout base final :=
  Execution.run_invariant_within
    (fun _ _ _ hgood hdisciplined hstep => hgood.step hdisciplined hstep)
    hclean hwithin hrun

theorem CleanPool.cleanReuse (hclean : CleanPool layout base pool) :
    CleanReuse layout base pool := by
  constructor
  · intro schedule final hwithin hrun
    exact (hclean.run hwithin hrun).onlyWipes
  · intro earlier later claimant spurious middle next final slot hwithin
      hearlier hstep hlater hreleased hallocates hwrites address haddress
    have hmiddle := hclean.run hwithin.left hearlier
    have hrest := hwithin.of_append hearlier
    simp only [Execution.RunWithin, hstep] at hrest
    obtain ⟨free, place, hinv⟩ := hmiddle.placed
    obtain ⟨hbytes, start, observedState, hpc⟩ :=
      (step_memory hinv hstep).of_allocates hallocates
    have hzero := hmiddle.zero_of_claim hpc hreleased haddress
    rw [← hbytes] at hzero
    -- From here on the byte is zero, and the pool stays clean.
    have hkeeps : ∀ (state : Pool τ) action after,
        CleanPool layout base state ∧ state.bytes address = 0 →
        Disciplined layout base state action ∧
          ¬ action.Writes (layout.slotBytes base slot) →
        DmaPool.step layout state action = some after →
          CleanPool layout base after ∧ after.bytes address = 0 := by
      rintro state action after ⟨hgood, hstate⟩ ⟨hallowed, hnot⟩ hafter
      exact ⟨hgood.step hallowed hafter,
        hgood.stays_zero haddress hnot hafter hstate⟩
    exact (Execution.run_invariant_within hkeeps
      ⟨hmiddle.step hrest.1 hstep, hzero⟩ (hrest.2.and_forall hwrites)
      hlater).2

/-- The loops of `free` wipe exactly the slot, and after a completed `init`, in
every interleaving, a slot which was freed is zero when `allocate` returns it
and stays so until its new holder writes. -/
theorem freed_memory_is_wiped_before_reuse
    (layout : Layout) (base : ℕ) :
    (∀ slot, slot < layout.slots → WipesExactly τ layout base slot) ∧
      ∀ (sizeInBytes : ℕ) (thread : τ) (bytes : ℕ → UInt8) (start : Pool τ),
        layout.validate base sizeInBytes = .ok () →
        Execution.run (step layout) (Pool.new bytes)
          (initCall layout thread base sizeInBytes) = some start →
          CleanReuse layout base start := by
  constructor
  · intro slot _
    exact wipesExactly layout base slot
  · intro sizeInBytes thread bytes start hvalid hinit
    rw [init_completes hvalid] at hinit
    cases hinit
    exact (initialized_cleanPool bytes).cleanReuse

end Reuse

/-! ### A slot written, freed and allocated again -/

instance decidableHolderWrites (layout : Layout) (base : ℕ) (pool : Pool τ) :
    ∀ action, Decidable (HolderWrites layout base pool action)
  | .hostWrite address _ =>
      decidable_of_iff
        (∀ slot, slot < layout.slots →
          base + slot * layout.size ≤ address ∧
            address < base + slot * layout.size + layout.size →
          (liveToken slot pool.transcript).isSome = true)
        (by simp [HolderWrites, Layout.slotBytes, Pool.IsLive,
          Option.isSome_iff_exists])
  | .call _ _ => isTrue trivial
  | .step _ _ => isTrue trivial

instance decidableDisciplined (layout : Layout) (base : ℕ) (pool : Pool τ) :
    ∀ action, Decidable (Disciplined layout base pool action) :=
  fun action => inferInstanceAs
    (Decidable (FreshSwap pool action ∧ HolderWrites layout base pool action))

/-- Thread 1 allocates the only slot, writes to it and frees it, and thread 2
is about to claim it. -/
def rewritten : List (Action ℕ) :=
  List.flatten
    [.call 1 .allocate :: steps 1 7, [.hostWrite 4100 7],
      .call 1 (.free 0 1) :: steps 1 18, .call 2 .allocate :: steps 2 6]

theorem rewritten_within :
    Execution.RunWithin (step singleSlot) (Disciplined singleSlot 4096)
      (Pool.initialized singleSlot 0 4096 fun _ => 1)
      (rewritten ++ [.step 2 false]) := by
  decide +kernel

theorem rewritten_transcript :
    (Execution.run (step singleSlot)
        (Pool.initialized singleSlot 0 4096 fun _ => 1) rewritten).map
        Pool.transcript =
      some [.returned 0 .initialized, .claimed 1 0 1,
        .returned 1 (.allocated 0 1 4096), .released 1 0 1,
        .returned 1 .freed] := by
  decide +kernel

theorem rewritten_claim :
    (Execution.run (step singleSlot)
        (Pool.initialized singleSlot 0 4096 fun _ => 1)
        (rewritten ++ [.step 2 false])).map Pool.transcript =
      some [.returned 0 .initialized, .claimed 1 0 1,
        .returned 1 (.allocated 0 1 4096), .released 1 0 1,
        .returned 1 .freed, .claimed 2 0 2,
        .returned 2 (.allocated 0 2 4096)] := by
  decide +kernel

theorem rewritten_memory_is_wiped :
    ∃ next, Execution.run (step singleSlot)
        (Pool.initialized singleSlot 0 4096 fun _ => 1)
        (rewritten ++ [.step 2 false]) = some next ∧
      ∀ address ∈ singleSlot.slotBytes 4096 0, next.bytes address = 0 := by
  obtain ⟨pool, hrun, htranscript⟩ :=
    Option.map_eq_some_iff.mp rewritten_transcript
  obtain ⟨next, hnext, hclaim⟩ := Option.map_eq_some_iff.mp rewritten_claim
  have hstep : step singleSlot pool (.step 2 false) = some next := by
    rw [Execution.run_append, hrun, Option.bind_some] at hnext
    simp only [Execution.run] at hnext
    split at hnext
    · cases hnext
    · cases hnext
      assumption
  have hreuse := (freed_memory_is_wiped_before_reuse singleSlot 4096).2 64 0
    (fun _ => 1) _ (by decide) (init_completes (by decide))
  refine ⟨next, hnext, ?_⟩
  refine hreuse.zero_until_written rewritten [] 2 false pool next next 0
    rewritten_within hrun hstep rfl ?_ ?_ ?_
  · rw [htranscript]
    exact ⟨1, 1, by decide⟩
  · refine ⟨2, 4096, ?_⟩
    rw [htranscript, hclaim]
    rfl
  · intro action haction
    cases haction

end DmaPool
end ShawnCore
