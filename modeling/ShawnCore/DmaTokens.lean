import ShawnCore.DmaAllocations

/-!
# Tokens of the DMA pool

The generation of a slot is the number of its allocations so far, modulo
`2 ^ 63`, through all the gaps between the free list and the ownership words.
So the tokens issued for a slot are all different until the generation wraps
around, and the tokens released are those issued before the live one.
-/

namespace ShawnCore
namespace DmaPool

variable {τ : Type}

/-! ## What a step does to the ownership words -/

/-- The slot and the token which a call of `allocate` has returned. -/
def Event.issued? : Event τ → Option (ℕ × UInt64)
  | .returned _ (.allocated slot token _) => some (slot, token)
  | _ => none

def Event.claimed? : Event τ → Option (ℕ × UInt64)
  | .claimed _ slot token => some (slot, token)
  | _ => none

/-- The slot and the token whose release by `free` has succeeded. -/
def Event.released? : Event τ → Option (ℕ × UInt64)
  | .released _ slot token => some (slot, token)
  | _ => none

def Event.IsQuiet (event : Event τ) : Prop :=
  event.issued? = none ∧ event.claimed? = none ∧ event.released? = none

inductive Effect (pool next : Pool τ) : Prop
  | quiet (events : List (Event τ)) (hquiet : ∀ event ∈ events, event.IsQuiet)
      (howner : next.ownership = pool.ownership)
      (htranscript : next.transcript = pool.transcript ++ events)
  | claimed (thread : τ) (slot : ℕ) (token : UInt64) (pointer : ℕ)
      (htoken : token = nextGeneration (pool.ownership slot))
      (howner : next.ownership =
        Function.update pool.ownership slot (ownershipAllocatedBit ||| token))
      (htranscript : next.transcript = pool.transcript ++
        [.claimed thread slot token,
          .returned thread (.allocated slot token pointer)])
  | released (thread : τ) (slot : ℕ) (token : UInt64)
      (htoken : token ≤ ownershipGenerationMask)
      (hbefore : pool.ownership slot = ownershipAllocatedBit ||| token)
      (howner : next.ownership = Function.update pool.ownership slot token)
      (htranscript : next.transcript =
        pool.transcript ++ [.released thread slot token])

theorem Effect.unseen
    {pool next : Pool τ} (howner : next.ownership = pool.ownership)
    (htranscript : next.transcript = pool.transcript) :
    Effect pool next := by
  apply Effect.quiet [] (by simp) howner
  rw [htranscript, List.append_nil]

section Steps

variable [DecidableEq τ]

theorem Effect.failed (pool : Pool τ) (thread : τ) (error : AllocatorError) :
    Effect pool (pool.finish thread (.failed error)) := by
  apply Effect.quiet [.returned thread (.failed error)]
  · intro event hevent
    rw [List.mem_singleton.mp hevent]
    exact ⟨rfl, rfl, rfl⟩
  · rfl
  · rfl

theorem Effect.allocLoop (pool : Pool τ) (thread : τ) (base : ℕ) :
    Effect pool (pool.allocLoop thread base) := by
  unfold Pool.allocLoop
  split
  next => exact Effect.failed pool thread _
  next => exact Effect.unseen rfl rfl

variable {layout : Layout} {base : ℕ} {pool next : Pool τ} {thread : τ}

theorem AllocateStep.effect
    {pc : Pc} (hstep : AllocateStep layout pool thread pc next) :
    Effect pool next := by
  cases hstep with
  | refused hinitialized => exact .failed pool thread _
  | checked hinitialized => exact .unseen rfl rfl
  | memoryRead => exact .unseen rfl rfl
  | headRead start => exact .allocLoop pool thread start
  | nextRead start observed hindex => exact .unseen rfl rfl
  | outOfRange start observed hindex => exact .unseen rfl rfl
  | retried start observed nextIndex => exact .allocLoop pool thread start
  | swapped start observed nextIndex hhead => exact .unseen rfl rfl
  | asserted start slot howner => exact .unseen rfl rfl
  | ownerRead start slot => exact .unseen rfl rfl
  | lost start slot observedState howner => exact .failed pool thread _
  | claimed start slot observedState howner =>
      refine .claimed thread slot _ (start + slot * layout.size) ?_ rfl ?_
      · rw [howner]
      · simp

theorem FreeStep.effect
    (hok : ThreadOk layout base pool thread (pool.pc thread))
    (hstep : FreeStep layout pool thread (pool.pc thread) next) :
    Effect pool next := by
  generalize pool.pc thread = pc at hstep hok
  cases hstep with
  | refused slot generation error => exact .failed pool thread error
  | checked slot generation hslot hgeneration => exact .unseen rfl rfl
  | lost slot generation howner => exact .failed pool thread _
  | released slot generation howner =>
      exact .released thread slot generation hok.2 howner rfl rfl
  | memoryRead slot => exact .unseen rfl rfl
  | wiped slot start offset phase =>
      obtain ⟨bytes, after, hwipe, -⟩ :=
        stepWipe_eq layout pool thread slot start offset phase
      rw [hwipe]
      exact .unseen rfl rfl
  | flushed | stalled => exact .unseen rfl rfl
  | headRead slot => exact .unseen rfl rfl
  | linked slot observed => exact .unseen rfl rfl
  | retried slot observed => exact .unseen rfl rfl
  | swapped slot observed hhead =>
      apply Effect.quiet [.returned thread .freed]
      · intro event hevent
        rw [List.mem_singleton.mp hevent]
        exact ⟨rfl, rfl, rfl⟩
      · rfl
      · rfl

theorem startCall_effect (operation : Operation) :
    Effect pool (startCall layout pool thread operation) := by
  cases operation with
  | init start sizeInBytes =>
      simp only [startCall]
      split
      next => exact .failed pool thread _
      next => exact .unseen rfl rfl
  | allocate => exact .unseen rfl rfl
  | free slot generation => exact .unseen rfl rfl

/-- Once `init` has completed, ownership words change by claims and releases
only. -/
theorem step_effect
    {action : Action τ} {free : List ℕ} {place : ℕ → Place τ}
    (hinv : PoolInvariant layout base pool free place)
    (hstep : step layout pool action = some next) :
    Effect pool next := by
  cases action with
  | call thread operation =>
      obtain ⟨-, rfl⟩ := step_call hstep
      exact startCall_effect operation
  | step thread spurious =>
      rcases step_thread_cases hstep with hinit | hallocate | hfree
      · obtain ⟨start, -, hrefused⟩ := hinv.init_refused hinit
        rw [hrefused]
        exact .failed pool thread _
      · exact hallocate.effect
      · exact hfree.effect (hinv.threads thread)
  | hostWrite address value =>
      cases hstep
      exact .unseen rfl rfl

end Steps

/-! ## Generations -/

variable {pool next : Pool τ}

/-- The token of the given allocation of a slot, counted from one. -/
def tokenOf (count : ℕ) : UInt64 :=
  UInt64.ofNat (count % 2 ^ 63)

def tokensOf (slot : ℕ) (pairs : List (ℕ × UInt64)) : List UInt64 :=
  (pairs.filter fun pair => pair.1 = slot).map Prod.snd

def issued (transcript : List (Event τ)) : List (ℕ × UInt64) :=
  transcript.filterMap Event.issued?

def released (transcript : List (Event τ)) : List (ℕ × UInt64) :=
  transcript.filterMap Event.released?

/-- How often a slot has been allocated. -/
def allocations (slot : ℕ) (transcript : List (Event τ)) : ℕ :=
  (tokensOf slot (issued transcript)).length

theorem toNat_tokenOf (count : ℕ) : (tokenOf count).toNat = count % 2 ^ 63 := by
  rw [tokenOf, UInt64.toNat_ofNat']
  omega

theorem toNat_and_generationMask (word : UInt64) :
    (word &&& ownershipGenerationMask).toNat = word.toNat % 2 ^ 63 := by
  rw [UInt64.toNat_and, toNat_ownershipGenerationMask,
    Nat.and_two_pow_sub_one_eq_mod]

theorem tokenOf_le (count : ℕ) : tokenOf count ≤ ownershipGenerationMask := by
  rw [UInt64.le_iff_toNat_le, toNat_tokenOf, toNat_ownershipGenerationMask]
  omega

theorem and_generationMask_of_le
    {token : UInt64} (htoken : token ≤ ownershipGenerationMask) :
    token &&& ownershipGenerationMask = token := by
  rw [UInt64.le_iff_toNat_le, toNat_ownershipGenerationMask] at htoken
  rw [← UInt64.toNat_inj, toNat_and_generationMask]
  omega

theorem allocated_and_generationMask
    {token : UInt64} (htoken : token ≤ ownershipGenerationMask) :
    (ownershipAllocatedBit ||| token) &&& ownershipGenerationMask = token := by
  have hle := UInt64.le_iff_toNat_le.mp htoken
  rw [toNat_ownershipGenerationMask] at hle
  rw [← UInt64.toNat_inj, toNat_and_generationMask, toNat_allocated htoken]
  omega

theorem nextGeneration_eq
    {word : UInt64} {count : ℕ}
    (hword : word &&& ownershipGenerationMask = tokenOf count) :
    nextGeneration word = tokenOf (count + 1) := by
  rw [nextGeneration, hword, ← UInt64.toNat_inj, toNat_and_generationMask,
    UInt64.toNat_add, toNat_tokenOf, toNat_tokenOf]
  simp only [UInt64.toNat_one]
  omega

@[simp] theorem issued_append (left right : List (Event τ)) :
    issued (left ++ right) = issued left ++ issued right :=
  List.filterMap_append

@[simp] theorem released_append (left right : List (Event τ)) :
    released (left ++ right) = released left ++ released right :=
  List.filterMap_append

@[simp] theorem tokensOf_append (slot : ℕ) (left right : List (ℕ × UInt64)) :
    tokensOf slot (left ++ right) =
      tokensOf slot left ++ tokensOf slot right := by
  simp [tokensOf]

theorem tokensOf_singleton (slot : ℕ) (pair : ℕ × UInt64) :
    tokensOf slot [pair] = if pair.1 = slot then [pair.2] else [] := by
  by_cases hslot : pair.1 = slot <;> simp [tokensOf, hslot]

/-- Pairs are different when the tokens of each slot are. -/
theorem nodup_of_tokensOf
    {pairs : List (ℕ × UInt64)} (htokens : ∀ slot, (tokensOf slot pairs).Nodup) :
    pairs.Nodup := by
  induction pairs with
  | nil => exact List.nodup_nil
  | cons pair rest ih =>
      rw [List.nodup_cons]
      constructor
      · intro hmem
        have hnodup := htokens pair.1
        rw [← List.singleton_append, tokensOf_append, tokensOf_singleton,
          if_pos rfl, List.singleton_append, List.nodup_cons] at hnodup
        apply hnodup.1
        rw [tokensOf, List.mem_map]
        exact ⟨pair, by simp [hmem], rfl⟩
      · apply ih
        intro slot
        have hnodup := htokens slot
        rw [← List.singleton_append, tokensOf_append] at hnodup
        exact hnodup.of_append_right

/-- The tokens of a slot are the numbers of its allocations, and the ownership
word keeps the number of the last one. -/
structure Generations (pool : Pool τ) : Prop where
  claimed_eq : pool.transcript.filterMap Event.claimed? =
    issued pool.transcript
  tokens_eq : ∀ slot, tokensOf slot (issued pool.transcript) =
    (List.range (allocations slot pool.transcript)).map
      fun index => tokenOf (index + 1)
  generation_eq : ∀ slot, pool.ownership slot &&& ownershipGenerationMask =
    tokenOf (allocations slot pool.transcript)

theorem filterMap_eq_nil_of_isQuiet
    {events : List (Event τ)} (hquiet : ∀ event ∈ events, event.IsQuiet) :
    issued events = [] ∧ events.filterMap Event.claimed? = [] ∧
      released events = [] := by
  simp only [issued, released, List.filterMap_eq_nil_iff]
  exact ⟨fun event hevent => (hquiet event hevent).1,
    fun event hevent => (hquiet event hevent).2.1,
    fun event hevent => (hquiet event hevent).2.2⟩

theorem Effect.generations
    (heffect : Effect pool next) (hgood : Generations pool) :
    Generations next := by
  cases heffect with
  | quiet events hquiet howner htranscript =>
      obtain ⟨hissued, hclaimed, -⟩ := filterMap_eq_nil_of_isQuiet hquiet
      have hsame : issued next.transcript = issued pool.transcript := by
        rw [htranscript, issued_append, hissued, List.append_nil]
      constructor
      · rw [hsame, htranscript, List.filterMap_append, hclaimed,
          List.append_nil]
        exact hgood.claimed_eq
      · intro slot
        rw [allocations, hsame]
        exact hgood.tokens_eq slot
      · intro slot
        rw [allocations, hsame, howner]
        exact hgood.generation_eq slot
  | claimed thread slot token pointer htoken howner htranscript =>
      have hissued : issued next.transcript =
          issued pool.transcript ++ [(slot, token)] := by
        rw [htranscript, issued_append]
        rfl
      rw [nextGeneration_eq (hgood.generation_eq slot)] at htoken
      have hcount : ∀ other, allocations other next.transcript =
          if slot = other then allocations other pool.transcript + 1
          else allocations other pool.transcript := by
        intro other
        rw [allocations, hissued, tokensOf_append, tokensOf_singleton]
        split
        next => simp [allocations]
        next => simp [allocations]
      constructor
      · rw [hissued, htranscript, List.filterMap_append, hgood.claimed_eq]
        rfl
      · intro other
        rw [hcount, hissued, tokensOf_append, tokensOf_singleton,
          hgood.tokens_eq other]
        split
        next hother =>
          subst hother
          rw [List.range_succ, List.map_append, htoken]
          rfl
        next => exact List.append_nil _
      · intro other
        rw [hcount, howner]
        split
        next hother =>
          subst hother
          rw [Function.update_self, htoken,
            allocated_and_generationMask (tokenOf_le _)]
        next hother =>
          rw [Function.update_of_ne (Ne.symm hother)]
          exact hgood.generation_eq other
  | released thread slot token htoken hbefore howner htranscript =>
      have hissued : issued next.transcript = issued pool.transcript := by
        rw [htranscript, issued_append]
        exact List.append_nil _
      constructor
      · rw [hissued, htranscript, List.filterMap_append, hgood.claimed_eq]
        exact List.append_nil _
      · intro other
        rw [allocations, hissued]
        exact hgood.tokens_eq other
      · intro other
        have hgeneration := hgood.generation_eq other
        rw [allocations, hissued, howner]
        by_cases hother : other = slot
        · subst hother
          rw [hbefore, allocated_and_generationMask htoken] at hgeneration
          rw [Function.update_self, and_generationMask_of_le htoken]
          exact hgeneration
        · rw [Function.update_of_ne hother]
          exact hgeneration

/-- Tokens repeat only after the generation of their slot has wrapped
around. -/
theorem Generations.issued_nodup
    (hgood : Generations pool)
    (hfew : ∀ slot, allocations slot pool.transcript < 2 ^ 63) :
    (issued pool.transcript).Nodup := by
  apply nodup_of_tokensOf
  intro slot
  have hcount := hfew slot
  rw [hgood.tokens_eq slot]
  apply List.Nodup.map_on _ List.nodup_range
  intro left hleft right hright hsame
  rw [List.mem_range] at hleft hright
  have hnat := congrArg UInt64.toNat hsame
  rw [toNat_tokenOf, toNat_tokenOf] at hnat
  omega

/-! ## Releases -/

theorem Alternating.of_append
    {transcript : List (Event τ)} {event : Event τ}
    (halternating : Alternating (transcript ++ [event])) :
    Alternating transcript ∧ Admissible transcript event := by
  constructor
  · intro before other after hsplit
    apply halternating before other (after ++ [event])
    rw [hsplit]
    simp
  · exact halternating transcript event [] rfl

/-- The tokens claimed for a slot are those released, followed by the live
one. -/
theorem Alternating.claimed_eq
    {transcript : List (Event τ)} (halternating : Alternating transcript)
    (slot : ℕ) :
    tokensOf slot (transcript.filterMap Event.claimed?) =
      tokensOf slot (released transcript) ++
        (liveToken slot transcript).toList := by
  induction transcript using List.reverseRecOn with
  | nil => rfl
  | append_singleton transcript event ih =>
      obtain ⟨hbefore, hadmissible⟩ := halternating.of_append
      have hpast := ih hbefore
      rw [List.filterMap_append, released_append, tokensOf_append,
        tokensOf_append, liveToken_append, hpast]
      cases event with
      | claimed thread other token =>
          simp only [List.filterMap_cons, List.filterMap_nil, released,
            Event.claimed?, Event.released?, tokensOf_singleton, liveAfter]
          split
          next hother =>
            subst hother
            rw [show liveToken other transcript = none from hadmissible]
            simp [tokensOf]
          next => simp [tokensOf]
      | released thread other token =>
          simp only [List.filterMap_cons, List.filterMap_nil, released,
            Event.claimed?, Event.released?, tokensOf_singleton, liveAfter]
          split
          next hother =>
            subst hother
            rw [show liveToken other transcript = some token from hadmissible]
            simp [tokensOf]
          next => simp [tokensOf]
      | returned thread outcome =>
          simp [released, Event.claimed?, Event.released?, liveAfter, tokensOf,
            List.filterMap_cons]

/-- A released token has been issued, and is released once. -/
theorem Generations.released_nodup
    (hgood : Generations pool) (halternating : Alternating pool.transcript)
    (hnodup : (issued pool.transcript).Nodup) :
    (released pool.transcript).Nodup ∧
      ∀ pair ∈ released pool.transcript, pair ∈ issued pool.transcript := by
  have hinitial : ∀ slot, tokensOf slot (issued pool.transcript) =
      tokensOf slot (released pool.transcript) ++
        (liveToken slot pool.transcript).toList := by
    intro slot
    rw [← hgood.claimed_eq]
    exact halternating.claimed_eq slot
  constructor
  · apply nodup_of_tokensOf
    intro slot
    have htokens : (tokensOf slot (issued pool.transcript)).Nodup := by
      apply List.Nodup.map_on _ (hnodup.filter _)
      intro left hleft right hright hsame
      have hleftSlot : left.1 = slot := by
        simpa using (List.mem_filter.mp hleft).2
      have hrightSlot : right.1 = slot := by
        simpa using (List.mem_filter.mp hright).2
      exact Prod.ext (hleftSlot.trans hrightSlot.symm) hsame
    rw [hinitial slot] at htokens
    exact htokens.of_append_left
  · intro pair hpair
    have hmem : pair.2 ∈ tokensOf pair.1 (issued pool.transcript) := by
      rw [hinitial pair.1]
      apply List.mem_append_left
      rw [tokensOf, List.mem_map]
      exact ⟨pair, by simp [hpair], rfl⟩
    rw [tokensOf, List.mem_map] at hmem
    obtain ⟨found, hfound, htoken⟩ := hmem
    rw [List.mem_filter] at hfound
    have hsame : found = pair :=
      Prod.ext (by simpa using hfound.2) htoken
    rw [← hsame]
    exact hfound.1

end DmaPool
end ShawnCore
