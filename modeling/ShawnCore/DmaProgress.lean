import ShawnCore.DmaAllocations

/-!
# Calls return

`allocate` and `free` start over whenever another call has updated the head in
between.  Every call updates the head at most once, so a thread can be held up
only as often as other calls are begun: its steps are paid by its own calls,
by the calls of the others and by the exchanges which fail for no reason.  The
host has registered the callback without which `free` never returns.
-/

namespace ShawnCore
namespace DmaPool

open Execution

/-! ## What is left of a call -/

def WipePhase.passages : WipePhase → ℕ
  | .leading => 3
  | .words => 2
  | .trailing => 1

/-- The steps which a call has before it as long as the head it has read is the
head. -/
def Pc.work (layout : Layout) : Pc → ℕ
  | .initCheck _ => 1
  | .allocCheck => 7
  | .allocMemory => 6
  | .allocHead _ => 5
  | .allocNext _ _ => 4
  | .allocSwap _ _ _ => 3
  | .allocOwner _ _ => 2
  | .allocClaim _ _ _ => 1
  | .freeCheck _ _ => layout.size + 10
  | .freeRelease _ _ => layout.size + 9
  | .freeMemory _ => layout.size + 8
  | .freeWipe _ _ offset phase => layout.size - offset + phase.passages + 4
  | .freeFlush _ => 4
  | .freeHead _ => 3
  | .freeNext _ _ => 2
  | .freeSwap _ _ => 1
  | _ => 0

/-- The thread works with a head it has read. -/
def Pc.loops : Pc → Bool
  | .allocNext _ _ => true
  | .allocSwap _ _ _ => true
  | .freeNext _ _ => true
  | .freeSwap _ _ => true
  | _ => false

/-- The call has its update of the head still before it. -/
def Pc.credit : Pc → ℕ
  | .allocCheck => 1
  | .allocMemory => 1
  | .allocHead _ => 1
  | .allocNext _ _ => 1
  | .allocSwap _ _ _ => 1
  | .freeCheck _ _ => 1
  | .freeRelease _ _ => 1
  | .freeMemory _ => 1
  | .freeWipe _ _ _ _ => 1
  | .freeFlush _ => 1
  | .freeHead _ => 1
  | .freeNext _ _ => 1
  | .freeSwap _ _ => 1
  | _ => 0

/-- A head which is out of date costs two steps more. -/
def Pc.delay (pc : Pc) (readAt headUpdates : ℕ) : ℕ :=
  if pc.loops = true ∧ readAt ≠ headUpdates then 2 else 0

theorem Pc.delay_of_not_loops
    {pc : Pc} (hpc : pc.loops = false) (readAt headUpdates : ℕ) :
    pc.delay readAt headUpdates = 0 := by
  simp [Pc.delay, hpc]

theorem Pc.delay_self (pc : Pc) (headUpdates : ℕ) :
    pc.delay headUpdates headUpdates = 0 := by
  simp [Pc.delay]

theorem Pc.delay_le
    (pc : Pc) (readAt : ℕ) {before after : ℕ} (hle : before ≤ after) :
    pc.delay readAt after ≤ pc.delay readAt before + 2 * (after - before) := by
  cases hloops : pc.loops with
  | false =>
      rw [Pc.delay_of_not_loops hloops]
      exact Nat.zero_le _
  | true =>
      simp only [Pc.delay, hloops, true_and]
      split_ifs <;> omega

variable {τ : Type} [DecidableEq τ] {layout : Layout} {base : ℕ}
  {pool next : Pool τ} {free : List ℕ} {place : ℕ → Place τ} {thread : τ}
  {spurious : Bool}

def Pool.potential (layout : Layout) (pool : Pool τ) (thread : τ) : ℕ :=
  (pool.pc thread).work layout +
    (pool.pc thread).delay (pool.readAt thread) pool.headUpdates

/-- What a step of a thread does to the program counters and to the head. -/
structure Turn
    (layout : Layout) (pool next : Pool τ) (thread : τ) (spurious : Bool)
    (after : Pc) : Prop where
  pc_eq : next.pc = Function.update pool.pc thread after
  readAt_eq : ∀ other, other ≠ thread →
    next.readAt other = pool.readAt other
  updates_le : pool.headUpdates ≤ next.headUpdates
  credit : next.headUpdates + after.credit ≤
    pool.headUpdates + (pool.pc thread).credit
  paid : 1 + (after.work layout +
      after.delay (next.readAt thread) next.headUpdates) ≤
    pool.potential layout thread + 2 * spurious.toNat

/-- A step which only moves the thread on. -/
theorem Turn.goto
    {same : Pool τ} {before after : Pc} (hpc : pool.pc thread = before)
    (hsame : same.pc = pool.pc) (hread : same.readAt = pool.readAt)
    (hupdates : same.headUpdates = pool.headUpdates)
    (hcredit : after.credit ≤ before.credit)
    (hloops : after.loops = true → before.loops = true)
    (hwork : 1 + after.work layout ≤ before.work layout) :
    Turn layout pool (same.goto thread after) thread spurious after where
  pc_eq := by
    change Function.update same.pc thread after = _
    rw [hsame]
  readAt_eq other _ := by rw [Pool.goto_readAt, hread]
  updates_le := by rw [Pool.goto_headUpdates, hupdates]
  credit := by
    rw [Pool.goto_headUpdates, hupdates, hpc]
    omega
  paid := by
    have hdelay : after.delay (pool.readAt thread) pool.headUpdates ≤
        before.delay (pool.readAt thread) pool.headUpdates := by
      unfold Pc.delay
      split_ifs with hafter hbefore
      · exact Nat.le_refl 2
      · exact absurd ⟨hloops hafter.1, hafter.2⟩ hbefore
      · exact Nat.zero_le _
      · exact Nat.le_refl 0
    rw [Pool.goto_readAt, Pool.goto_headUpdates, hread, hupdates,
      Pool.potential, hpc]
    omega

/-- A step which returns from the call. -/
theorem Turn.finish
    {same : Pool τ} {before : Pc} (hpc : pool.pc thread = before)
    (hsame : same.pc = pool.pc) (hread : same.readAt = pool.readAt)
    (hupdates : same.headUpdates = pool.headUpdates) (outcome : Outcome)
    (hwork : 1 ≤ before.work layout) :
    Turn layout pool (same.finish thread outcome) thread spurious .idle where
  pc_eq := by
    change Function.update same.pc thread .idle = _
    rw [hsame]
  readAt_eq other _ := by rw [Pool.finish_readAt, hread]
  updates_le := by rw [Pool.finish_headUpdates, hupdates]
  credit := by
    rw [Pool.finish_headUpdates, hupdates]
    exact Nat.add_le_add_left (Nat.zero_le _) _
  paid := by
    have hidle : Pc.idle.work layout = 0 := rfl
    rw [Pc.delay_of_not_loops rfl, hidle, Pool.potential, hpc]
    omega

/-- A step which goes back to the head of its loop, with the head it finds. -/
theorem Turn.reread
    {before after : Pc} (hpc : pool.pc thread = before)
    (hcredit : after.credit ≤ before.credit)
    (hpaid : 1 + after.work layout ≤
      pool.potential layout thread + 2 * spurious.toNat) :
    Turn layout pool ((pool.markRead thread).goto thread after) thread
      spurious after where
  pc_eq := rfl
  readAt_eq other hother := Function.update_of_ne hother _ _
  updates_le := Nat.le_refl _
  credit := by
    rw [hpc]
    exact Nat.add_le_add_left hcredit _
  paid := by
    have hread : ((pool.markRead thread).goto thread after).readAt thread =
        pool.headUpdates := Function.update_self _ _ _
    rw [hread, Pool.goto_headUpdates, Pool.markRead_headUpdates,
      Pc.delay_self]
    exact hpaid

/-- A step which updates the head. -/
theorem Turn.swap
    {before after : Pc} (hpc : pool.pc thread = before)
    (hnext : next.pc = Function.update pool.pc thread after)
    (hread : next.readAt = pool.readAt)
    (hupdates : next.headUpdates = pool.headUpdates + 1)
    (hcredit : after.credit + 1 ≤ before.credit)
    (hloops : after.loops = false)
    (hwork : 1 + after.work layout ≤ before.work layout) :
    Turn layout pool next thread spurious after where
  pc_eq := hnext
  readAt_eq other _ := by rw [hread]
  updates_le := by
    rw [hupdates]
    exact Nat.le_succ _
  credit := by
    rw [hupdates, hpc]
    omega
  paid := by
    rw [Pc.delay_of_not_loops hloops, Pool.potential, hpc]
    omega

theorem exists_turn_allocLoop
    {before : Pc} {start : ℕ} (hpc : pool.pc thread = before)
    (hcredit : before.credit = 1) (hwork : 1 ≤ before.work layout)
    (hpaid : 5 ≤ pool.potential layout thread + 2 * spurious.toNat) :
    ∃ after,
      Turn layout pool (pool.allocLoop thread start) thread spurious
        after := by
  unfold Pool.allocLoop
  split
  · exact ⟨_, Turn.finish hpc rfl rfl rfl _ hwork⟩
  · exact ⟨_, Turn.reread hpc (Nat.le_of_eq hcredit.symm) hpaid⟩

omit [DecidableEq τ] in
/-- A failed exchange has failed for no reason, or the head is another. -/
theorem Pool.Observed.two_le_delay
    {observed : UInt64} (hobserved : pool.Observed thread observed)
    (hloops : (pool.pc thread).loops = true)
    (hfailed : spurious = true ∨ pool.head ≠ observed) :
    2 ≤ (pool.pc thread).delay (pool.readAt thread) pool.headUpdates +
      2 * spurious.toNat := by
  rcases hfailed with rfl | hhead
  · exact Nat.le_add_left _ _
  · have hstale : pool.readAt thread ≠ pool.headUpdates :=
      fun hcurrent => hhead (hobserved.current hcurrent)
    rw [Pc.delay, if_pos ⟨hloops, hstale⟩]
    exact Nat.le_add_right _ _

/-! ## The turns of a call -/

theorem step_allocSwap
    {start : ℕ} {observed : UInt64} {nextIndex : UInt32}
    (hpc : pool.pc thread = .allocSwap start observed nextIndex)
    (hstep : step layout pool (.step thread spurious) = some next) :
    (spurious = true ∨ pool.head ≠ observed) ∧
        next = pool.allocLoop thread start ∨
      next = (pool.swapHead (packHead nextIndex
        (headGeneration observed + 1))).goto thread
          (.allocOwner start (headIndex observed).toNat) := by
  simp only [step, hpc, stepInit, stepAllocate] at hstep
  split_ifs at hstep with hfailed
  · cases hstep
    exact Or.inl ⟨hfailed, rfl⟩
  · cases hstep
    exact Or.inr rfl

theorem step_freeSwap
    {slot : ℕ} {observed : UInt64}
    (hpc : pool.pc thread = .freeSwap slot observed)
    (hstep : step layout pool (.step thread spurious) = some next) :
    (spurious = true ∨ pool.head ≠ observed) ∧
        next = pool.freeLoop thread slot ∨
      next = (pool.swapHead (packHead (UInt32.ofNat slot)
        (headGeneration observed + 1))).finish thread .freed := by
  simp only [step, hpc, stepInit, stepAllocate, stepFree] at hstep
  split_ifs at hstep with hfailed
  · cases hstep
    exact Or.inl ⟨hfailed, rfl⟩
  · cases hstep
    exact Or.inr rfl

theorem PoolInvariant.turn_allocSwap
    (hinv : PoolInvariant layout base pool free place)
    {start : ℕ} {observed : UInt64} {nextIndex : UInt32}
    (hpc : pool.pc thread = .allocSwap start observed nextIndex)
    (hstep : step layout pool (.step thread spurious) = some next) :
    ∃ after, Turn layout pool next thread spurious after := by
  have hok := hinv.threads thread
  rw [hpc] at hok
  rcases step_allocSwap hpc hstep with ⟨hfailed, rfl⟩ | rfl
  · have hdelay := hok.2.2.1.two_le_delay (by rw [hpc]; rfl) hfailed
    apply exists_turn_allocLoop hpc rfl (by simp [Pc.work])
    rw [Pool.potential, hpc]
    rw [hpc] at hdelay
    simp only [Pc.work]
    omega
  · exact ⟨_, Turn.swap hpc rfl rfl rfl (Nat.le_refl 1) rfl
      (Nat.le_refl 3)⟩

theorem PoolInvariant.turn_freeSwap
    (hinv : PoolInvariant layout base pool free place)
    {slot : ℕ} {observed : UInt64}
    (hpc : pool.pc thread = .freeSwap slot observed)
    (hstep : step layout pool (.step thread spurious) = some next) :
    ∃ after, Turn layout pool next thread spurious after := by
  have hok := hinv.threads thread
  rw [hpc] at hok
  rcases step_freeSwap hpc hstep with ⟨hfailed, rfl⟩ | rfl
  · have hdelay := hok.1.two_le_delay (by rw [hpc]; rfl) hfailed
    refine ⟨_, Turn.reread hpc (Nat.le_refl 1) ?_⟩
    rw [Pool.potential, hpc]
    rw [hpc] at hdelay
    simp only [Pc.work]
    omega
  · exact ⟨_, Turn.swap hpc rfl rfl rfl (Nat.le_refl 1) rfl
      (Nat.le_refl 1)⟩

theorem turn_wipe
    {slot start offset : ℕ} {phase : WipePhase}
    (hpc : pool.pc thread = .freeWipe slot start offset phase) :
    ∃ after, Turn layout pool
      (stepWipe layout pool thread slot start offset phase) thread spurious
        after := by
  cases phase with
  | leading | words | trailing =>
      simp only [stepWipe]
      split_ifs
      · refine ⟨_, Turn.goto hpc rfl rfl rfl (Nat.le_refl 1) id ?_⟩
        simp only [Pc.work]
        omega
      · refine ⟨_, Turn.goto hpc rfl rfl rfl (Nat.le_refl 1) id ?_⟩
        simp only [Pc.work, WipePhase.passages]
        omega

theorem PoolInvariant.exists_turn
    (hinv : PoolInvariant layout base pool free place)
    (hflush : layout.flushRegistered = true)
    (hstep : step layout pool (.step thread spurious) = some next) :
    ∃ after, Turn layout pool next thread spurious after := by
  rcases step_thread_cases hstep with hinit | hallocate | hfree
  · obtain ⟨start, hpc, rfl⟩ := hinv.init_refused hinit
    exact ⟨_, Turn.finish hpc rfl rfl rfl _ (Nat.le_refl 1)⟩
  · generalize hpc : pool.pc thread = pc at hallocate
    cases hallocate with
    | refused hinitialized =>
        exact ⟨_, Turn.finish hpc rfl rfl rfl _ (by simp [Pc.work])⟩
    | checked hinitialized =>
        exact ⟨_, Turn.goto hpc rfl rfl rfl (Nat.le_refl 1) nofun
          (Nat.le_refl 7)⟩
    | memoryRead =>
        exact ⟨_, Turn.goto hpc rfl rfl rfl (Nat.le_refl 1) nofun
          (Nat.le_refl 6)⟩
    | headRead start =>
        apply exists_turn_allocLoop hpc rfl (by simp [Pc.work])
        rw [Pool.potential, hpc]
        simp only [Pc.work]
        omega
    | nextRead start observed hindex =>
        exact ⟨_, Turn.goto hpc rfl rfl rfl (Nat.le_refl 1) (fun _ => rfl)
          (Nat.le_refl 4)⟩
    | outOfRange start observed hindex =>
        have hok := hinv.threads thread
        rw [hpc] at hok
        exact absurd hok.2.1 hindex
    | retried start observed nextIndex =>
        exact hinv.turn_allocSwap hpc hstep
    | swapped start observed nextIndex hhead =>
        exact hinv.turn_allocSwap hpc hstep
    | asserted start slot howner =>
        exact ⟨_, Turn.goto hpc rfl rfl rfl (Nat.le_refl 0) nofun
          (Nat.le_succ 1)⟩
    | ownerRead start slot =>
        exact ⟨_, Turn.goto hpc rfl rfl rfl (Nat.le_refl 0) nofun
          (Nat.le_refl 2)⟩
    | lost start slot observedState howner =>
        exact ⟨_, Turn.finish hpc rfl rfl rfl _ (Nat.le_refl 1)⟩
    | claimed start slot observedState howner =>
        refine ⟨_, Turn.finish hpc ?_ ?_ ?_ _ (Nat.le_refl 1)⟩ <;> rfl
  · generalize hpc : pool.pc thread = pc at hfree
    cases hfree with
    | refused slot generation error =>
        exact ⟨_, Turn.finish hpc rfl rfl rfl _ (by simp [Pc.work])⟩
    | checked slot generation hslot hgeneration =>
        refine ⟨_, Turn.goto hpc rfl rfl rfl (Nat.le_refl 1) nofun ?_⟩
        simp only [Pc.work]
        omega
    | lost slot generation howner =>
        exact ⟨_, Turn.finish hpc rfl rfl rfl _ (by simp [Pc.work])⟩
    | released slot generation howner =>
        refine ⟨_, Turn.goto hpc rfl rfl rfl (Nat.le_refl 1) nofun ?_⟩
        simp only [Pc.work]
        omega
    | memoryRead slot =>
        refine ⟨_, Turn.goto hpc rfl rfl rfl (Nat.le_refl 1) nofun ?_⟩
        simp only [Pc.work, WipePhase.passages]
        omega
    | wiped slot start offset phase => exact turn_wipe hpc
    | flushed slot =>
        exact ⟨_, Turn.goto hpc rfl rfl rfl (Nat.le_refl 1) nofun
          (Nat.le_refl 4)⟩
    | stalled slot hmissing =>
        rw [hflush] at hmissing
        cases hmissing
    | headRead slot =>
        refine ⟨_, Turn.reread hpc (Nat.le_refl 1) ?_⟩
        rw [Pool.potential, hpc]
        simp only [Pc.work]
        omega
    | linked slot observed =>
        exact ⟨_, Turn.goto hpc rfl rfl rfl (Nat.le_refl 1) (fun _ => rfl)
          (Nat.le_refl 2)⟩
    | retried slot observed => exact hinv.turn_freeSwap hpc hstep
    | swapped slot observed hhead => exact hinv.turn_freeSwap hpc hstep

/-! ## Paying for the steps -/

def Operation.work (layout : Layout) : Operation → ℕ
  | .init _ _ => 1
  | .allocate => 7
  | .free _ _ => layout.size + 10

/-- A call begins before its update of the head. -/
theorem exists_startCall
    (layout : Layout) (pool : Pool τ) (thread : τ) (operation : Operation) :
    ∃ after,
      (startCall layout pool thread operation).pc =
        Function.update pool.pc thread after ∧
      (startCall layout pool thread operation).readAt = pool.readAt ∧
      (startCall layout pool thread operation).headUpdates =
        pool.headUpdates ∧
      after.loops = false ∧ after.credit ≤ 1 ∧
      after.work layout ≤ operation.work layout := by
  cases operation with
  | init start sizeInBytes =>
      simp only [startCall]
      split
      · exact ⟨.idle, rfl, rfl, rfl, rfl, Nat.zero_le 1, Nat.zero_le 1⟩
      · exact ⟨_, rfl, rfl, rfl, rfl, Nat.zero_le 1, Nat.le_refl 1⟩
  | allocate =>
      exact ⟨_, rfl, rfl, rfl, rfl, Nat.le_refl 1, Nat.le_refl 7⟩
  | free slot generation =>
      exact ⟨_, rfl, rfl, rfl, rfl, Nat.le_refl 1, Nat.le_refl _⟩

def Action.isStepOf (thread : τ) : Action τ → Bool
  | .step other _ => decide (other = thread)
  | _ => false

def Action.isSpuriousOf (thread : τ) : Action τ → Bool
  | .step other spurious => decide (other = thread) && spurious
  | _ => false

def Action.isCallOfOther (thread : τ) : Action τ → Bool
  | .call other _ => decide (other ≠ thread)
  | _ => false

/-- What a thread has to do for the call which it begins. -/
def Action.work (layout : Layout) (thread : τ) : Action τ → ℕ
  | .call other operation =>
      if other = thread then operation.work layout else 0
  | _ => 0

def Action.allowance (layout : Layout) (thread : τ) (action : Action τ) : ℕ :=
  action.work layout thread + 2 * (action.isCallOfOther thread).toNat +
    2 * (action.isSpuriousOf thread).toNat

variable [Fintype τ]

/-- The updates of the head which the calls of the others still have before
them. -/
def Pool.threats (pool : Pool τ) (thread : τ) : ℕ :=
  ∑ other ∈ Finset.univ.erase thread, (pool.pc other).credit

theorem threats_update_self
    {after : Pc} (hnext : next.pc = Function.update pool.pc thread after) :
    next.threats thread = pool.threats thread := by
  apply Finset.sum_congr rfl
  intro other hother
  rw [hnext, Function.update_of_ne (Finset.ne_of_mem_erase hother)]

theorem threats_update_of_ne
    {other : τ} {after : Pc} (hother : other ≠ thread)
    (hnext : next.pc = Function.update pool.pc other after) :
    next.threats thread + (pool.pc other).credit =
      pool.threats thread + after.credit := by
  have hmem : other ∈ Finset.univ.erase thread := by simp [hother]
  have hrest : ∑ third ∈ (Finset.univ.erase thread).erase other,
        (next.pc third).credit =
      ∑ third ∈ (Finset.univ.erase thread).erase other,
        (pool.pc third).credit := by
    apply Finset.sum_congr rfl
    intro third hthird
    rw [hnext, Function.update_of_ne (Finset.ne_of_mem_erase hthird)]
  unfold Pool.threats
  rw [← Finset.sum_erase_add _ _ hmem, hrest, ← Finset.sum_erase_add _ _ hmem,
    hnext, Function.update_self]
  omega

def Pool.bound (layout : Layout) (thread : τ) (pool : Pool τ) : ℕ :=
  pool.potential layout thread + 2 * pool.threats thread

omit [DecidableEq τ] [Fintype τ] in
/-- A thread which does not move is delayed by the updates of the others. -/
theorem potential_le_of_other
    (hpc : next.pc thread = pool.pc thread)
    (hread : next.readAt thread = pool.readAt thread)
    (hupdates : pool.headUpdates ≤ next.headUpdates) :
    next.potential layout thread ≤ pool.potential layout thread +
      2 * (next.headUpdates - pool.headUpdates) := by
  have hdelay :=
    (pool.pc thread).delay_le (pool.readAt thread) hupdates
  rw [Pool.potential, hpc, hread, Pool.potential]
  omega

theorem startCall_paid
    {other : τ} (hidle : pool.pc other = .idle) (operation : Operation) :
    (startCall layout pool other operation).bound layout thread ≤
      pool.bound layout thread +
        (Action.call other operation).allowance layout thread := by
  obtain ⟨after, hpc, hread, hupdates, hloops, hcredit, hwork⟩ :=
    exists_startCall layout pool other operation
  by_cases hother : other = thread
  · subst hother
    have hthreats := threats_update_self hpc
    have hallowance : operation.work layout ≤
        (Action.call other operation).allowance layout other := by
      rw [Action.allowance, Action.work, if_pos rfl, Nat.add_assoc]
      exact Nat.le_add_right _ _
    have hpotential : (startCall layout pool other operation).potential
        layout other = after.work layout := by
      rw [Pool.potential, hpc, Function.update_self,
        Pc.delay_of_not_loops hloops, Nat.add_zero]
    simp only [Pool.bound]
    omega
  · have hthreats := threats_update_of_ne hother hpc
    have hnone : (pool.pc other).credit = 0 := by
      rw [hidle]
      rfl
    have hallowance :
        (Action.call other operation).allowance layout thread = 2 := by
      simp [Action.allowance, Action.work, Action.isCallOfOther,
        Action.isSpuriousOf, hother]
    have hpotential : (startCall layout pool other operation).potential
        layout thread = pool.potential layout thread := by
      rw [Pool.potential, hpc, Function.update_of_ne (Ne.symm hother),
        hread, hupdates, Pool.potential]
    simp only [Pool.bound]
    omega

/-- Every step is paid: by what is left of the call, by the update of the head
which held it up, or by its spurious failure. -/
theorem Turn.bound_le
    {other : τ} {after : Pc}
    (hturn : Turn layout pool next other spurious after) :
    ((Action.step other spurious).isStepOf thread).toNat +
        next.bound layout thread ≤
      pool.bound layout thread +
        (Action.step other spurious).allowance layout thread := by
  by_cases hother : other = thread
  · subst hother
    have hthreats := threats_update_self hturn.pc_eq
    have hpaid := hturn.paid
    have hallowance : (Action.step other spurious).allowance layout other =
        2 * spurious.toNat := by
      simp [Action.allowance, Action.work, Action.isCallOfOther,
        Action.isSpuriousOf]
    have hcost : ((Action.step other spurious).isStepOf other).toNat = 1 := by
      simp [Action.isStepOf]
    have hpotential : next.potential layout other = after.work layout +
        after.delay (next.readAt other) next.headUpdates := by
      rw [Pool.potential, hturn.pc_eq, Function.update_self]
    simp only [Pool.bound]
    omega
  · have hthreats := threats_update_of_ne hother hturn.pc_eq
    have hcredit := hturn.credit
    have hupdates := hturn.updates_le
    have hcost : ((Action.step other spurious).isStepOf thread).toNat = 0 := by
      simp [Action.isStepOf, hother]
    have hpc : next.pc thread = pool.pc thread := by
      rw [hturn.pc_eq, Function.update_of_ne (Ne.symm hother)]
    have hpotential : next.potential layout thread ≤
        pool.potential layout thread +
          2 * (next.headUpdates - pool.headUpdates) :=
      potential_le_of_other hpc
        (hturn.readAt_eq thread (Ne.symm hother)) hupdates
    simp only [Pool.bound]
    omega

theorem Placed.step_paid
    (hflush : layout.flushRegistered = true)
    (hplaced : Placed layout base pool) {action : Action τ}
    (hstep : step layout pool action = some next) :
    (action.isStepOf thread).toNat + next.bound layout thread ≤
      pool.bound layout thread + action.allowance layout thread := by
  obtain ⟨free, place, hinv⟩ := hplaced
  cases action with
  | call other operation =>
      obtain ⟨hidle, rfl⟩ := step_call hstep
      rw [show (Action.call other operation).isStepOf thread = false from rfl,
        Bool.toNat_false, Nat.zero_add]
      exact startCall_paid hidle operation
  | step other spurious =>
      obtain ⟨after, hturn⟩ := hinv.exists_turn hflush hstep
      exact hturn.bound_le
  | hostWrite address value =>
      cases hstep
      rw [show (Action.hostWrite address value).isStepOf thread = false
        from rfl, Bool.toNat_false, Nat.zero_add]
      exact Nat.le_add_right _ _

/-! ## Runs -/

omit [Fintype τ] in
theorem sum_allowance
    (layout : Layout) (thread : τ) (schedule : List (Action τ)) :
    (schedule.map (Action.allowance layout thread)).sum =
      (schedule.map (Action.work layout thread)).sum +
        2 * schedule.countP (Action.isCallOfOther thread) +
        2 * schedule.countP (Action.isSpuriousOf thread) := by
  induction schedule with
  | nil => rfl
  | cons action rest ih =>
      simp only [List.map_cons, List.sum_cons, List.countP_cons, ih,
        Action.allowance]
      cases action.isCallOfOther thread <;>
        cases action.isSpuriousOf thread <;> simp <;> omega

omit [Fintype τ] in
/-- No call ever waits: a thread in a call can take its next step. -/
theorem PoolInvariant.exists_step
    (hinv : PoolInvariant layout base pool free place)
    (hbusy : pool.pc thread ≠ .idle) (spurious : Bool) :
    ∃ next, step layout pool (.step thread spurious) = some next := by
  have hok := hinv.threads thread
  cases hpc : pool.pc thread with
  | idle => exact absurd hpc hbusy
  | panicked | initClaim | initMemory | initNext | initOwnership | initHead
  | initPublish | initRelease =>
      rw [hpc] at hok
      exact False.elim hok
  | allocMemory | allocHead | freeMemory | freeWipe | freeHead | freeNext =>
      simp only [step, hpc, stepInit, stepAllocate, stepFree]
      exact ⟨_, rfl⟩
  | _ =>
      simp only [step, hpc, stepInit, stepAllocate, stepFree]
      split_ifs <;> exact ⟨_, rfl⟩

omit [DecidableEq τ] [Fintype τ] in
theorem PoolInvariant.idle_of_work
    (hinv : PoolInvariant layout base pool free place)
    (hwork : (pool.pc thread).work layout = 0) : pool.pc thread = .idle := by
  have hok := hinv.threads thread
  cases hpc : pool.pc thread with
  | idle => rfl
  | panicked | initClaim | initMemory | initNext | initOwnership | initHead
  | initPublish | initRelease =>
      rw [hpc] at hok
      exact False.elim hok
  | _ =>
      rw [hpc] at hwork
      simp [Pc.work] at hwork

omit [Fintype τ] in
theorem placed_of_run
    {initializer : τ} {bytes : ℕ → UInt8} {sizeInBytes : ℕ}
    {schedule : List (Action τ)} {final : Pool τ}
    (hvalid : layout.validate base sizeInBytes = .ok ())
    (hwithin : RunWithin (step layout) FreshSwap (Pool.new bytes)
      (initCall layout initializer base sizeInBytes ++ schedule))
    (hrun : run (step layout) (Pool.new bytes)
      (initCall layout initializer base sizeInBytes ++ schedule) =
        some final) :
    RunWithin (step layout) FreshSwap
        (Pool.initialized layout initializer base bytes) schedule ∧
      run (step layout) (Pool.initialized layout initializer base bytes)
        schedule = some final ∧
      Placed layout base final := by
  have hinit := @init_completes _ _ layout base initializer bytes _ hvalid
  rw [run_append, hinit, Option.bind_some] at hrun
  have hlater := hwithin.of_append hinit
  exact ⟨hlater, hrun, run_invariant_within
    (fun _ _ _ hgood hfresh hstep => step_placed hgood hfresh hstep)
    (initialized_invariant bytes).placed hlater hrun⟩

/-- With a registered callback, the steps of a thread are bounded by what its
own calls have to do, by two for every call which another thread begins, and by
two for every spurious failure; a thread which has used them up has returned,
and one which has not can always go on. -/
theorem calls_return_despite_interference
    {initializer : τ} {bytes : ℕ → UInt8} {sizeInBytes : ℕ}
    {schedule : List (Action τ)} {final : Pool τ}
    (hflush : layout.flushRegistered = true)
    (hvalid : layout.validate base sizeInBytes = .ok ())
    (hwithin : RunWithin (step layout) FreshSwap (Pool.new bytes)
      (initCall layout initializer base sizeInBytes ++ schedule))
    (hrun : run (step layout) (Pool.new bytes)
      (initCall layout initializer base sizeInBytes ++ schedule) =
        some final)
    (thread : τ) :
    schedule.countP (Action.isStepOf thread) +
        (final.pc thread).work layout ≤
      (schedule.map (Action.work layout thread)).sum +
        2 * schedule.countP (Action.isCallOfOther thread) +
        2 * schedule.countP (Action.isSpuriousOf thread) ∧
    ((final.pc thread).work layout = 0 → final.pc thread = .idle) ∧
    (final.pc thread ≠ .idle → ∀ spurious, ∃ next,
      step layout final (.step thread spurious) = some next) := by
  obtain ⟨hlater, hafter, hplaced⟩ := placed_of_run hvalid hwithin hrun
  obtain ⟨free, place, hinv⟩ := hplaced
  refine ⟨?_, hinv.idle_of_work, fun hbusy => hinv.exists_step hbusy⟩
  have hstartPlaced : Placed layout base
      (Pool.initialized layout initializer base bytes) :=
    (initialized_invariant bytes).placed
  have hpaid := run_amortised (Pool.bound layout thread)
    (Action.isStepOf thread) (Action.allowance layout thread)
    (fun _ _ _ hgood hfresh hstep => step_placed hgood hfresh hstep)
    (fun _ _ _ hgood _ hstep => Placed.step_paid hflush hgood hstep)
    hstartPlaced hlater hafter
  have hstart : (Pool.initialized layout initializer base bytes).bound layout
      thread = 0 := by
    simp [Pool.bound, Pool.potential, Pool.threats, Pool.initialized, Pc.work,
      Pc.credit, Pc.delay, Pc.loops]
  rw [hstart, Nat.zero_add, sum_allowance] at hpaid
  have hremaining : (final.pc thread).work layout ≤
      final.bound layout thread := by
    rw [Pool.bound, Pool.potential, Nat.add_assoc]
    exact Nat.le_add_right _ _
  omega

/-- Both threads have read the head when one of them takes the only buffer; the
other has to look again, after a spurious failure. -/
def rivals : List (Action Bool) :=
  [.call false .allocate, .step false false, .step false false,
    .step false false, .step false false, .call true .allocate,
    .step true false, .step true false, .step true false, .step true false,
    .step false true, .step false false, .step true false,
    .step false false, .step true false, .step true false]

theorem rivals_within :
    RunWithin (step singleSlot) FreshSwap (Pool.new fun _ => 0)
      (initCall singleSlot false 4096 64 ++ rivals) := by
  decide

theorem calls_return_despite_interference_of_rivals :
    ∃ final, run (step singleSlot) (Pool.new fun _ => 0)
        (initCall singleSlot false 4096 64 ++ rivals) = some final ∧
      final.pc false = .idle ∧
      rivals.countP (Action.isStepOf false) +
          (final.pc false).work singleSlot ≤
        (rivals.map (Action.work singleSlot false)).sum +
          2 * rivals.countP (Action.isCallOfOther false) +
          2 * rivals.countP (Action.isSpuriousOf false) :=
  ⟨_, rfl, rfl, (calls_return_despite_interference rfl (by decide)
    rivals_within rfl false).1⟩

end DmaPool
end ShawnCore
