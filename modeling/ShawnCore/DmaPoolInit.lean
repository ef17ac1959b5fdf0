import ShawnCore.DmaPool

/-!
# Initialization of the DMA pool

`init` reads `is_initialized` before it claims `is_initializing` and does not
look again after the claim.  In a run in which no claim succeeds on a pool that
is already initialized, initialization happens once; the run at the end of this
file shows what happens otherwise.
-/

namespace ShawnCore
namespace DmaPool

variable {τ : Type}

namespace Pc

/-- The thread has claimed `is_initializing` and not yet released it. -/
def initializing : Pc → Bool
  | .initMemory _ => true
  | .initNext _ => true
  | .initOwnership _ => true
  | .initHead => true
  | .initPublish => true
  | .initRelease => true
  | _ => false

/-- The thread has claimed `is_initializing` and not yet published. -/
def preparing : Pc → Bool
  | .initRelease => false
  | pc => pc.initializing

/-- The thread is about to claim `is_initializing`. -/
def claiming : Pc → Bool
  | .initClaim _ => true
  | _ => false

/-- The thread is in a call of `init`. -/
def inInit : Pc → Bool
  | .initCheck _ => true
  | .initClaim _ => true
  | pc => pc.initializing

/-- The thread is in a call of `allocate` which found the pool initialized. -/
def allocating : Pc → Bool
  | .allocMemory => true
  | .allocHead _ => true
  | .allocNext _ _ => true
  | .allocSwap _ _ _ => true
  | .allocOwner _ _ => true
  | .allocClaim _ _ _ => true
  | _ => false

theorem initializing_of_preparing {pc : Pc} (hpc : pc.preparing = true) :
    pc.initializing = true := by
  cases pc <;> first | exact hpc | cases hpc

end Pc

/-- An `init` returned `Ok`. -/
def Event.isInitialized : Event τ → Bool
  | .returned _ .initialized => true
  | _ => false

/-- An `allocate` returned a slot. -/
def Event.isAllocated : Event τ → Bool
  | .returned _ (.allocated ..) => true
  | _ => false

def initCount (transcript : List (Event τ)) : ℕ :=
  transcript.countP Event.isInitialized

/-- The claims of `is_initializing` which a one-shot initialization allows: a
claim fails, or the pool is not initialized yet. -/
def ClaimsBeforePublication (pool : Pool τ) : Action τ → Prop
  | .step thread _ =>
      (pool.pc thread).claiming = true →
        pool.isInitializing = true ∨ pool.isInitialized = false
  | _ => True

instance decidableClaimsBeforePublication (pool : Pool τ) :
    ∀ action, Decidable (ClaimsBeforePublication pool action)
  | .step thread _ =>
      inferInstanceAs (Decidable ((pool.pc thread).claiming = true →
        pool.isInitializing = true ∨ pool.isInitialized = false))
  | .call _ _ => isTrue trivial
  | .hostWrite _ _ => isTrue trivial

/-- What holds of the two flags in every such run. -/
structure InitInvariant (pool : Pool τ) : Prop where
  unique : ∀ left right, (pool.pc left).initializing = true →
    (pool.pc right).initializing = true → left = right
  claimed : ∀ thread, (pool.pc thread).initializing = true →
    pool.isInitializing = true
  prepared : ∀ thread, (pool.pc thread).preparing = true →
    pool.isInitialized = false
  published : ∀ thread, pool.pc thread = .initRelease →
    pool.isInitialized = true ∧ initCount pool.transcript = 0
  counted : initCount pool.transcript ≤ 1
  countedPublished : 0 < initCount pool.transcript → pool.isInitialized = true
  allocating : ∀ thread, (pool.pc thread).allocating = true →
    pool.isInitialized = true
  allocated : ∀ event ∈ pool.transcript, event.isAllocated = true →
    pool.isInitialized = true

theorem new_initInvariant [DecidableEq τ] (bytes : ℕ → UInt8) :
    InitInvariant (Pool.new bytes : Pool τ) := by
  constructor
  · intro left right hleft
    cases hleft
  · intro thread hthread
    cases hthread
  · intro thread hthread
    cases hthread
  · intro thread hthread
    cases hthread
  · exact Nat.zero_le 1
  · intro hcount
    cases hcount
  · intro thread hthread
    cases hthread
  · intro event hevent
    cases hevent

/-! ## Steps which leave the flags alone -/

variable [DecidableEq τ] {layout : Layout}

/-- The step of a thread outside the critical section of `init`, or one which
keeps the thread out of it. -/
structure Quiet (pool next : Pool τ) (thread : τ) : Prop where
  isInitialized_eq : next.isInitialized = pool.isInitialized
  isInitializing_eq : next.isInitializing = pool.isInitializing
  others : ∀ other, other ≠ thread → next.pc other = pool.pc other
  outside : (next.pc thread).initializing = false
  allocating : (next.pc thread).allocating = true →
    pool.isInitialized = true ∨ (pool.pc thread).allocating = true
  events : ∃ events, next.transcript = pool.transcript ++ events ∧
    (∀ event ∈ events, event.isInitialized = false) ∧
    ∀ event ∈ events, event.isAllocated = true →
      (pool.pc thread).allocating = true

theorem Quiet.goto
    (pool : Pool τ) (thread : τ) {pc : Pc} (houtside : pc.initializing = false)
    (hallocating : pc.allocating = true →
      pool.isInitialized = true ∨ (pool.pc thread).allocating = true) :
    Quiet pool (pool.goto thread pc) thread := by
  constructor
  · rfl
  · rfl
  · intro other hother
    simp [hother]
  · simpa using houtside
  · simpa using hallocating
  · exact ⟨[], by simp, by simp, by simp⟩

theorem Quiet.finish
    (pool : Pool τ) (thread : τ) (outcome : Outcome)
    (hinitialized : outcome ≠ .initialized)
    (hallocated : ∀ slot token pointer,
      outcome = .allocated slot token pointer →
        (pool.pc thread).allocating = true) :
    Quiet pool (pool.finish thread outcome) thread := by
  constructor
  · rfl
  · rfl
  · intro other hother
    simp [hother]
  · simp [Pc.initializing]
  · simp [Pc.allocating]
  · refine ⟨[.returned thread outcome], by simp, ?_, ?_⟩
    · intro event hevent
      rw [List.mem_singleton.mp hevent]
      cases outcome with
      | initialized => exact absurd rfl hinitialized
      | _ => rfl
    · intro event hevent hevent'
      rw [List.mem_singleton.mp hevent] at hevent'
      cases outcome with
      | allocated slot token pointer =>
          exact hallocated slot token pointer rfl
      | _ => cases hevent'

omit [DecidableEq τ] in
/-- What the step wrote besides the program counter does not matter, as long
as flags, program counters and transcript are as before. -/
theorem Quiet.of_same
    {pool same next : Pool τ} {thread : τ} (hquiet : Quiet same next thread)
    (hinitialized : same.isInitialized = pool.isInitialized)
    (hinitializing : same.isInitializing = pool.isInitializing)
    (hpc : same.pc = pool.pc) (htranscript : same.transcript = pool.transcript) :
    Quiet pool next thread := by
  constructor
  · rw [← hinitialized]
    exact hquiet.isInitialized_eq
  · rw [← hinitializing]
    exact hquiet.isInitializing_eq
  · rw [← hpc]
    exact hquiet.others
  · exact hquiet.outside
  · rw [← hpc, ← hinitialized]
    exact hquiet.allocating
  · rw [← hpc, ← htranscript]
    exact hquiet.events

omit [DecidableEq τ] in
theorem Quiet.emit
    {pool next : Pool τ} {thread : τ} {event : Event τ}
    (hquiet : Quiet (pool.emit event) next thread)
    (hinitialized : event.isInitialized = false)
    (hallocated : event.isAllocated = false) :
    Quiet pool next thread := by
  have hevents := hquiet.events
  rcases hevents with ⟨events, htranscript, hnone, hsome⟩
  constructor
  · exact hquiet.isInitialized_eq
  · exact hquiet.isInitializing_eq
  · exact hquiet.others
  · exact hquiet.outside
  · exact hquiet.allocating
  · refine ⟨event :: events, ?_, ?_, ?_⟩
    · simpa using htranscript
    · intro other hother
      cases List.mem_cons.mp hother with
      | inl hhere => rwa [hhere]
      | inr hlater => exact hnone other hlater
    · intro other hother hallocates
      cases List.mem_cons.mp hother with
      | inl hhere =>
          rw [hhere, hallocated] at hallocates
          cases hallocates
      | inr hlater => exact hsome other hlater hallocates

theorem Quiet.fail
    (pool : Pool τ) (thread : τ) (error : AllocatorError) :
    Quiet pool (pool.finish thread (.failed error)) thread := by
  apply Quiet.finish
  · intro hfailed
    cases hfailed
  · intro slot token pointer hfailed
    cases hfailed

theorem Quiet.allocLoop
    {pool : Pool τ} {thread : τ} (base : ℕ)
    (hallocating : (pool.pc thread).allocating = true) :
    Quiet pool (pool.allocLoop thread base) thread := by
  unfold Pool.allocLoop
  split
  · exact Quiet.fail pool thread .outOfMemory
  · have hgoto := Quiet.goto (pool.markRead thread) thread
      (show (Pc.allocNext base pool.head).initializing = false from rfl)
      (fun _ => Or.inr hallocating)
    exact hgoto.of_same rfl rfl rfl rfl

theorem AllocateStep.quiet
    {pool next : Pool τ} {thread : τ}
    (hstep : AllocateStep layout pool thread (pool.pc thread) next) :
    Quiet pool next thread := by
  have hmine : (pool.pc thread).allocating = true →
      ∀ pc : Pc, pc.initializing = false →
        Quiet pool (pool.goto thread pc) thread := by
    intro hallocating pc houtside
    exact Quiet.goto pool thread houtside (fun _ => Or.inr hallocating)
  generalize hpc : pool.pc thread = pc at hstep
  cases hstep with
  | refused hinitialized => exact Quiet.fail pool thread _
  | checked hinitialized =>
      exact Quiet.goto pool thread rfl (fun _ => Or.inl hinitialized)
  | memoryRead => exact hmine (by rw [hpc]; rfl) _ rfl
  | headRead base => exact Quiet.allocLoop base (by rw [hpc]; rfl)
  | nextRead base observed hindex => exact hmine (by rw [hpc]; rfl) _ rfl
  | outOfRange base observed hindex => exact hmine (by rw [hpc]; rfl) _ rfl
  | retried base observed nextIndex =>
      exact Quiet.allocLoop base (by rw [hpc]; rfl)
  | swapped base observed nextIndex hhead =>
      refine (Quiet.goto (pool.swapHead _) thread rfl ?_).of_same
        rfl rfl rfl rfl
      intro _
      exact Or.inr (by simp [hpc, Pc.allocating])
  | asserted base slot howner => exact hmine (by rw [hpc]; rfl) _ rfl
  | ownerRead base slot => exact hmine (by rw [hpc]; rfl) _ rfl
  | lost base slot observedState howner => exact Quiet.fail pool thread _
  | claimed base slot observedState howner =>
      have hfinish := Quiet.finish
        ((pool.storeOwnership slot (ownershipAllocatedBit |||
          nextGeneration observedState)).emit
          (.claimed thread slot (nextGeneration observedState))) thread
        (.allocated slot (nextGeneration observedState)
          (base + slot * layout.size))
        (by simp) (by simp [hpc, Pc.allocating])
      exact (hfinish.emit rfl rfl).of_same rfl rfl rfl rfl

theorem FreeStep.quiet
    {pool next : Pool τ} {thread : τ}
    (hstep : FreeStep layout pool thread (pool.pc thread) next) :
    Quiet pool next thread := by
  have hgoto : ∀ (same : Pool τ) (pc : Pc), pc.initializing = false →
      pc.allocating = false → Quiet same (same.goto thread pc) thread := by
    intro same pc houtside hfree
    apply Quiet.goto same thread houtside
    intro hallocating
    rw [hfree] at hallocating
    cases hallocating
  generalize pool.pc thread = pc at hstep
  cases hstep with
  | refused slot generation error => exact Quiet.fail pool thread error
  | checked slot generation hslot hgeneration => exact hgoto pool _ rfl rfl
  | lost slot generation howner => exact Quiet.fail pool thread _
  | released slot generation howner =>
      exact ((hgoto _ _ rfl rfl).emit rfl rfl).of_same rfl rfl rfl rfl
  | memoryRead slot => exact hgoto pool _ rfl rfl
  | wiped slot base offset phase =>
      obtain ⟨bytes, after, hwipe, hafter⟩ :=
        stepWipe_eq layout pool thread slot base offset phase
      rw [hwipe]
      rcases hafter with ⟨offset, phase, rfl⟩ | rfl
      · exact (hgoto _ _ rfl rfl).of_same rfl rfl rfl rfl
      · exact (hgoto _ _ rfl rfl).of_same rfl rfl rfl rfl
  | flushed | stalled => exact hgoto pool _ rfl rfl
  | headRead slot => exact (hgoto _ _ rfl rfl).of_same rfl rfl rfl rfl
  | linked slot observed => exact (hgoto _ _ rfl rfl).of_same rfl rfl rfl rfl
  | retried slot observed => exact (hgoto _ _ rfl rfl).of_same rfl rfl rfl rfl
  | swapped slot observed hhead =>
      have hfinish := Quiet.finish (pool.swapHead
        (packHead (UInt32.ofNat slot) (headGeneration observed + 1)))
        thread .freed (by simp) (by simp)
      exact hfinish.of_same rfl rfl rfl rfl

theorem startCall_quiet
    (pool : Pool τ) (thread : τ) (operation : Operation) :
    Quiet pool (startCall layout pool thread operation) thread := by
  cases operation with
  | init base sizeInBytes =>
      simp only [startCall]
      split
      · exact Quiet.fail pool thread _
      · exact Quiet.goto pool thread rfl (by simp [Pc.allocating])
  | allocate => exact Quiet.goto pool thread rfl (by simp [Pc.allocating])
  | free slot generation =>
      exact Quiet.goto pool thread rfl (by simp [Pc.allocating])

/-! ## Every step keeps the invariant -/

omit [DecidableEq τ] in
theorem initCount_append_of_none
    {transcript events : List (Event τ)}
    (hnone : ∀ event ∈ events, event.isInitialized = false) :
    initCount (transcript ++ events) = initCount transcript := by
  have hzero : events.countP Event.isInitialized = 0 := by
    rw [List.countP_eq_zero]
    intro event hevent
    simp [hnone event hevent]
  rw [initCount, List.countP_append, hzero, Nat.add_zero, initCount]

omit [DecidableEq τ] in
theorem Quiet.pc_eq_of_initializing
    {pool next : Pool τ} {thread other : τ} (hquiet : Quiet pool next thread)
    (hother : (next.pc other).initializing = true) :
    next.pc other = pool.pc other := by
  apply hquiet.others
  rintro rfl
  rw [hquiet.outside] at hother
  cases hother

theorem InitInvariant.quiet
    {pool next : Pool τ} {thread : τ} (hinv : InitInvariant pool)
    (hquiet : Quiet pool next thread) :
    InitInvariant next := by
  have hpc : ∀ other, (next.pc other).initializing = true →
      next.pc other = pool.pc other := by
    intro other hother
    exact hquiet.pc_eq_of_initializing hother
  have hevents := hquiet.events
  rcases hevents with ⟨events, htranscript, hnone, hsome⟩
  have hcount : initCount next.transcript = initCount pool.transcript := by
    rw [htranscript]
    exact initCount_append_of_none hnone
  constructor
  · intro left right hleft hright
    rw [hpc left hleft] at hleft
    rw [hpc right hright] at hright
    exact hinv.unique left right hleft hright
  · intro other hother
    rw [hpc other hother] at hother
    rw [hquiet.isInitializing_eq]
    exact hinv.claimed other hother
  · intro other hother
    rw [hpc other (Pc.initializing_of_preparing hother)] at hother
    rw [hquiet.isInitialized_eq]
    exact hinv.prepared other hother
  · intro other hother
    have hsame := hpc other (by rw [hother]; rfl)
    rw [hquiet.isInitialized_eq, hcount]
    exact hinv.published other (hsame ▸ hother)
  · rw [hcount]
    exact hinv.counted
  · rw [hcount, hquiet.isInitialized_eq]
    exact hinv.countedPublished
  · intro other hother
    rw [hquiet.isInitialized_eq]
    by_cases hthread : other = thread
    · rw [hthread] at hother
      exact (hquiet.allocating hother).elim id (hinv.allocating thread)
    · rw [hquiet.others other hthread] at hother
      exact hinv.allocating other hother
  · intro event hevent hallocated
    rw [hquiet.isInitialized_eq]
    rw [htranscript, List.mem_append] at hevent
    cases hevent with
    | inl hold => exact hinv.allocated event hold hallocated
    | inr hnew => exact hinv.allocating thread (hsome event hnew hallocated)

omit [DecidableEq τ] in
/-- The initializing thread goes on to its next store. -/
theorem InitInvariant.prepare
    {pool next : Pool τ} {thread : τ} (hinv : InitInvariant pool)
    (hinitialized : next.isInitialized = pool.isInitialized)
    (hinitializing : next.isInitializing = pool.isInitializing)
    (htranscript : next.transcript = pool.transcript)
    (hothers : ∀ other, other ≠ thread → next.pc other = pool.pc other)
    (hbefore : (pool.pc thread).preparing = true)
    (hafter : (next.pc thread).preparing = true) :
    InitInvariant next := by
  have hbusy : ∀ other, (next.pc other).initializing = true →
      (pool.pc other).initializing = true := by
    intro other hother
    by_cases hthread : other = thread
    · rw [hthread]
      exact Pc.initializing_of_preparing hbefore
    · rwa [hothers other hthread] at hother
  have hclear := hinv.prepared thread hbefore
  constructor
  · intro left right hleft hright
    exact hinv.unique left right (hbusy left hleft) (hbusy right hright)
  · intro other hother
    rw [hinitializing]
    exact hinv.claimed other (hbusy other hother)
  · intro other _
    rw [hinitialized]
    exact hclear
  · intro other hother
    by_cases hthread : other = thread
    · rw [← hthread, hother] at hafter
      cases hafter
    · rw [hothers other hthread] at hother
      rw [hinitialized, htranscript]
      exact hinv.published other hother
  · rw [htranscript]
    exact hinv.counted
  · rw [htranscript, hinitialized]
    exact hinv.countedPublished
  · intro other hother
    by_cases hthread : other = thread
    · rw [hthread] at hother
      exact absurd hother (by
        cases hpc : next.pc thread <;> simp_all [Pc.preparing, Pc.allocating,
          Pc.initializing])
    · rw [hothers other hthread] at hother
      rw [hinitialized]
      exact hinv.allocating other hother
  · rw [htranscript, hinitialized]
    exact hinv.allocated

theorem InitInvariant.claim
    {pool : Pool τ} (hinv : InitInvariant pool) (thread : τ) (base : ℕ)
    (hfree : pool.isInitializing = false)
    (hclear : pool.isInitialized = false) :
    InitInvariant ({ pool with isInitializing := true }.goto thread
      (.initMemory base)) := by
  have hnobody : ∀ other, (pool.pc other).initializing = false := by
    intro other
    rw [← Bool.not_eq_true]
    intro hother
    have hclaimed := hinv.claimed other hother
    rw [hfree] at hclaimed
    cases hclaimed
  have honly : ∀ other, (Function.update pool.pc thread (.initMemory base)
      other).initializing = true → other = thread := by
    intro other hother
    by_contra hthread
    rw [Function.update_of_ne hthread, hnobody other] at hother
    cases hother
  constructor
  · intro left right hleft hright
    rw [honly left hleft, honly right hright]
  · intro other _
    rfl
  · intro other _
    exact hclear
  · intro other hother
    simp only [Pool.goto_pc] at hother
    have hthread := honly other (by rw [hother]; rfl)
    simp [hthread] at hother
  · exact hinv.counted
  · exact hinv.countedPublished
  · intro other hother
    by_cases hthread : other = thread
    · simp [hthread, Pc.allocating] at hother
    · simp only [Pool.goto_pc, Function.update_of_ne hthread] at hother
      exact hinv.allocating other hother
  · exact hinv.allocated

theorem InitInvariant.publish
    {pool : Pool τ} (hinv : InitInvariant pool) {thread : τ}
    (hpc : pool.pc thread = .initPublish) :
    InitInvariant ({ pool with isInitialized := true }.goto thread
      .initRelease) := by
  have hpreparing : (pool.pc thread).preparing = true := by
    rw [hpc]
    rfl
  have hinitializing := Pc.initializing_of_preparing hpreparing
  have honly : ∀ other, (Function.update pool.pc thread .initRelease
      other).initializing = true → other = thread := by
    intro other hother
    by_contra hthread
    rw [Function.update_of_ne hthread] at hother
    exact hthread (hinv.unique other thread hother hinitializing)
  have hzero : initCount pool.transcript = 0 := by
    by_contra hcount
    have hpublished := hinv.countedPublished (Nat.pos_of_ne_zero hcount)
    rw [hinv.prepared thread hpreparing] at hpublished
    cases hpublished
  constructor
  · intro left right hleft hright
    rw [honly left hleft, honly right hright]
  · intro other _
    exact hinv.claimed thread hinitializing
  · intro other hother
    have hthread := honly other (Pc.initializing_of_preparing hother)
    rw [hthread] at hother
    simp [Pc.preparing] at hother
  · intro other _
    exact ⟨rfl, hzero⟩
  · exact hinv.counted
  · intro _
    rfl
  · intro other _
    rfl
  · intro event _ _
    rfl

theorem InitInvariant.release
    {pool : Pool τ} (hinv : InitInvariant pool) {thread : τ}
    (hpc : pool.pc thread = .initRelease) :
    InitInvariant ({ pool with isInitializing := false }.finish thread
      .initialized) := by
  have hpublished := hinv.published thread hpc
  have hnobody : ∀ other, (Function.update pool.pc thread .idle
      other).initializing = false := by
    intro other
    by_cases hthread : other = thread
    · simp [hthread, Pc.initializing]
    · rw [Function.update_of_ne hthread, ← Bool.not_eq_true]
      intro hother
      exact hthread (hinv.unique other thread hother (by rw [hpc]; rfl))
  constructor
  · intro left right hleft
    simp [hnobody] at hleft
  · intro other hother
    simp [hnobody] at hother
  · intro other hother
    have hbusy := Pc.initializing_of_preparing hother
    simp [hnobody] at hbusy
  · intro other hother
    have hidle := hnobody other
    simp only [Pool.finish_pc] at hother
    simp [hother, Pc.initializing] at hidle
  · simp only [Pool.finish_transcript, initCount, List.countP_append]
    have hzero := hpublished.2
    rw [initCount] at hzero
    rw [hzero]
    exact Nat.le_refl 1
  · intro _
    exact hpublished.1
  · intro other _
    exact hpublished.1
  · intro event _ _
    exact hpublished.1

theorem InitStep.initInvariant
    {pool next : Pool τ} {thread : τ} {spurious : Bool}
    (hinv : InitInvariant pool)
    (hallowed : ClaimsBeforePublication pool (.step thread spurious))
    (hstep : InitStep layout pool thread (pool.pc thread) next) :
    InitInvariant next := by
  have hprepare : ∀ (same : Pool τ) (pc : Pc),
      same.isInitialized = pool.isInitialized →
      same.isInitializing = pool.isInitializing →
      same.transcript = pool.transcript → same.pc = pool.pc →
      (pool.pc thread).preparing = true → pc.preparing = true →
        InitInvariant (same.goto thread pc) := by
    intro same pc hinitialized hinitializing htranscript hsame hbefore hafter
    have hothers : ∀ other, other ≠ thread →
        (same.goto thread pc).pc other = pool.pc other := by
      intro other hother
      simp [hother, hsame]
    have hthread : ((same.goto thread pc).pc thread).preparing = true := by
      simpa using hafter
    exact hinv.prepare hinitialized hinitializing htranscript hothers hbefore
      hthread
  generalize hpc : pool.pc thread = pc at hstep
  cases hstep with
  | refused base hinitialized => exact hinv.quiet (Quiet.fail pool thread _)
  | checked base hinitialized =>
      exact hinv.quiet (Quiet.goto pool thread rfl (by simp [Pc.allocating]))
  | contended base hinitializing => exact hinv.quiet (Quiet.fail pool thread _)
  | claimed base hinitializing =>
      have hclear := (hallowed (by rw [hpc]; rfl)).resolve_left
        (by rw [hinitializing]; exact Bool.false_ne_true)
      exact hinv.claim thread base hinitializing hclear
  | memoryStored base =>
      exact hprepare _ _ rfl rfl rfl rfl (by rw [hpc]; rfl) rfl
  | linked index hindex =>
      exact hprepare _ _ rfl rfl rfl rfl (by rw [hpc]; rfl) rfl
  | allLinked index hindex =>
      exact hprepare _ _ rfl rfl rfl rfl (by rw [hpc]; rfl) rfl
  | ownershipStored index =>
      exact hprepare _ _ rfl rfl rfl rfl (by rw [hpc]; rfl) rfl
  | headStored => exact hprepare _ _ rfl rfl rfl rfl (by rw [hpc]; rfl) rfl
  | published => exact hinv.publish hpc
  | released => exact hinv.release hpc

theorem step_initInvariant
    {pool next : Pool τ} {action : Action τ} (hinv : InitInvariant pool)
    (hallowed : ClaimsBeforePublication pool action)
    (hstep : step layout pool action = some next) :
    InitInvariant next := by
  cases action with
  | call thread operation =>
      obtain ⟨-, rfl⟩ := step_call hstep
      exact hinv.quiet (startCall_quiet pool thread operation)
  | step thread spurious =>
      rcases step_thread_cases hstep with hinit | hallocate | hfree
      · exact hinit.initInvariant hinv hallowed
      · exact hinv.quiet hallocate.quiet
      · exact hinv.quiet hfree.quiet
  | hostWrite address value =>
      cases hstep
      exact ⟨hinv.unique, hinv.claimed, hinv.prepared, hinv.published,
        hinv.counted, hinv.countedPublished, hinv.allocating, hinv.allocated⟩

/-! ## One-shot initialization -/

/-- A step of `init` on an initialized pool writes nothing but the flag
`is_initializing`. -/
theorem InitInvariant.inInit_step
    {pool next : Pool τ} {thread : τ} {spurious : Bool}
    (hinv : InitInvariant pool) (hinitialized : pool.isInitialized = true)
    (hinside : (pool.pc thread).inInit = true)
    (hstep : step layout pool (.step thread spurious) = some next) :
    next.memory = pool.memory ∧ next.head = pool.head ∧
      next.next = pool.next ∧ next.ownership = pool.ownership := by
  have hdone : (pool.pc thread).preparing = false := by
    rw [← Bool.not_eq_true]
    intro hpreparing
    have hclear := hinv.prepared thread hpreparing
    rw [hinitialized] at hclear
    cases hclear
  cases hpc : pool.pc thread with
  | initCheck base =>
      simp only [step, hpc, stepInit, hinitialized, if_true] at hstep
      cases hstep
      exact ⟨rfl, rfl, rfl, rfl⟩
  | initClaim base =>
      by_cases hclaimed : pool.isInitializing = true
      · simp only [step, hpc, stepInit, hclaimed, if_true] at hstep
        cases hstep
        exact ⟨rfl, rfl, rfl, rfl⟩
      · simp only [step, hpc, stepInit, hclaimed] at hstep
        cases hstep
        exact ⟨rfl, rfl, rfl, rfl⟩
  | initRelease =>
      simp only [step, hpc, stepInit] at hstep
      cases hstep
      exact ⟨rfl, rfl, rfl, rfl⟩
  | _ =>
      rw [hpc] at hdone hinside
      simp_all [Pc.preparing, Pc.inInit, Pc.initializing]

/-- In every run in which no claim of `is_initializing` succeeds on an
initialized pool, at most one `init` returns `Ok`, and once an `allocate` has
returned a slot no step of an `init` changes the pool. -/
theorem init_once_when_claims_precede_publication
    {bytes : ℕ → UInt8} {schedule : List (Action τ)} {final : Pool τ}
    (hwithin : Execution.RunWithin (step layout) ClaimsBeforePublication
      (Pool.new bytes) schedule)
    (hrun : Execution.run (step layout) (Pool.new bytes) schedule =
      some final) :
    initCount final.transcript ≤ 1 ∧
      ((∃ event ∈ final.transcript, event.isAllocated = true) →
        ∀ thread spurious next, (final.pc thread).inInit = true →
          step layout final (.step thread spurious) = some next →
            next.memory = final.memory ∧ next.head = final.head ∧
              next.next = final.next ∧ next.ownership = final.ownership) := by
  have hinv : InitInvariant final :=
    Execution.run_invariant_within
      (fun _ _ _ hgood hallowed hstep =>
        step_initInvariant hgood hallowed hstep)
      (new_initInvariant bytes) hwithin hrun
  constructor
  · exact hinv.counted
  · intro hallocated thread spurious next hinside hstep
    obtain ⟨event, hevent, hreturned⟩ := hallocated
    have hinitialized := hinv.allocated event hevent hreturned
    exact hinv.inInit_step hinitialized hinside hstep

/-! ## Runs of a pool with one buffer -/

/-- A pool with one buffer of 64 bytes. -/
def singleSlot : Layout where
  slots := 1
  size := 64
  align := 64
  bitmapWords := 1
  debugAssertions := true
  flushRegistered := true
  slots_pos := by decide
  slots_le := by decide

def steps (thread count : ℕ) : List (Action ℕ) :=
  List.replicate count (.step thread false)

/-- Thread 1 finds the pool initialized by thread 0, after thread 2 has
allocated the buffer. -/
def firstInit : List (Action ℕ) :=
  (.call 0 (.init 4096 64) :: steps 0 9) ++
    (.call 2 .allocate :: steps 2 7) ++ [.call 1 (.init 8192 64)]

theorem firstInit_within :
    Execution.RunWithin (step singleSlot) ClaimsBeforePublication
      (Pool.new fun _ => 0) firstInit := by
  decide

theorem init_once_after_allocation :
    ∃ final, Execution.run (step singleSlot) (Pool.new fun _ => 0) firstInit =
        some final ∧
      initCount final.transcript ≤ 1 ∧
      ((∃ event ∈ final.transcript, event.isAllocated = true) →
        ∀ thread spurious next, (final.pc thread).inInit = true →
          step singleSlot final (.step thread spurious) = some next →
            next.memory = final.memory ∧ next.head = final.head ∧
              next.next = final.next ∧ next.ownership = final.ownership) :=
  ⟨_, rfl, init_once_when_claims_precede_publication firstInit_within rfl⟩

/-- Threads 0 and 1 both read `is_initialized` before either claims.  Thread 0
completes, thread 2 allocates, and then thread 1 claims and initializes the pool
again. -/
def secondInit : List (Action ℕ) :=
  [Action.call 0 (.init 4096 64), Action.step 0 false,
    Action.call 1 (.init 4096 64), Action.step 1 false] ++
    steps 0 8 ++ (Action.call 2 .allocate :: steps 2 7) ++ steps 1 8

/-- Two calls of `init` return `Ok`, and the slot of a live allocation is handed
out again. -/
theorem initialized_twice :
    ∃ final, Execution.run (step singleSlot) (Pool.new fun _ => 0)
        (secondInit ++ .call 3 .allocate :: steps 3 7) = some final ∧
      initCount final.transcript = 2 ∧
      final.transcript =
        [.returned 0 .initialized, .claimed 2 0 1,
          .returned 2 (.allocated 0 1 4096), .returned 1 .initialized,
          .claimed 3 0 1, .returned 3 (.allocated 0 1 4096)] :=
  ⟨_, rfl, by decide, by decide⟩

end DmaPool
end ShawnCore
