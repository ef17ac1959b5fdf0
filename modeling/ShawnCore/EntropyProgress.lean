import ShawnCore.EntropyBatches
import ShawnCore.EntropyCalls
import ShawnCore.EntropyChain

/-!
# Every call returns

The owner of a pool never finds its spinlock taken, and no step waits for
another context.  The rank of a context bounds the steps which it still has to
take, however the others are scheduled.
-/

namespace ShawnCore
namespace Entropy

open ByteBlocks

variable {sha384 : Bytes → Block 48} {shared : Shared} {system next : System}
  {context pool : ℕ} {call : Call} {transcript : List Event}
  {items : List Chunk}

/-! ## The spinlocks -/

/-- The owner holds the spinlock of the pool. -/
def OwnerPc.Locked : OwnerPc → Prop
  | .mix (.load _) => True
  | .mix (.store _ _) => True
  | .mix .unlock => True
  | .extract _ (.loadSnapshot _) => True
  | .extract _ (.unlockSnapshot _ _) => True
  | .extract _ (.commit _ _) => True
  | .extract _ (.unlockCommit _) => True
  | _ => False

/-- A taken spinlock is held by the owner of the pool. -/
def LocksHeld (system : System) : Prop :=
  ∀ pool, (system.shared.pools pool).locked = true →
    ∃ context call pc, system.contexts context = .own call pc ∧
      call.pool = pool ∧ pc.Locked

theorem initial_locksHeld : LocksHeld System.initial := by
  intro pool hlocked
  cases hlocked

theorem OwnerStep.locked
    {pc after : OwnerPc} {access : Access} {event : Option PoolEvent}
    (howner : OwnerStep sha384 shared call pc after access event)
    (hbefore : (shared.pools call.pool).locked = true → pc.Locked)
    (hafter : ((shared.perform access).pools call.pool).locked = true) :
    after.Locked := by
  cases howner with
  | mixLocked | mixLoaded | absorbed | snapshotLocked | snapshotLoaded
  | commitLocked | advanced => trivial
  | mixUnlocked | squeezed | committed =>
      simp [Shared.perform, Shared.setPool] at hafter
  | popping batch hpop | queueEmpty batch hpop | popped batch hpop =>
      rw [(stepPop_access hpop).1] at hafter
      exact absurd (hbefore hafter) id
  | counted =>
      simp only [Shared.perform, Shared.setPool, Function.update_self]
        at hafter
      exact absurd (hbefore hafter) id
  | spinning => exact hbefore hafter
  | gateTaken | gateEntered | gateReleased | starved | seeded =>
      exact absurd (hbefore hafter) id

/-- Nobody who holds a spinlock moves. -/
theorem LocksHeld.frame
    (hheld : LocksHeld system)
    (hlocked : ∀ pool, (next.shared.pools pool).locked =
      (system.shared.pools pool).locked)
    (hcontexts : ∀ context call pc,
      system.contexts context = .own call pc → pc.Locked →
        next.contexts context = system.contexts context) :
    LocksHeld next := by
  intro pool htaken
  rw [hlocked] at htaken
  obtain ⟨context, call, pc, hpc, hpool, hlock⟩ := hheld pool htaken
  refine ⟨context, call, pc, ?_, hpool, hlock⟩
  rw [hcontexts context call pc hpc hlock, hpc]

theorem LocksHeld.move
    {pc : ContextPc} {access : Access} {event : Option Event}
    (hheld : LocksHeld system)
    (hlocked : ∀ pool, ((system.shared.perform access).pools pool).locked =
      (system.shared.pools pool).locked)
    (houtside : ∀ call pc, system.contexts context = .own call pc →
      ¬ pc.Locked) :
    LocksHeld ((system.moveContext context pc access).emit event) := by
  apply hheld.frame hlocked
  intro other call otherPc hother hlock
  apply moved_contexts_of_ne
  rintro rfl
  exact houtside call otherPc hother hlock

theorem SystemStep.keeps_locksHeld
    {action : Action} (hstep : SystemStep sha384 system action next)
    (howned : Owned system) (hheld : LocksHeld system) :
    LocksHeld next := by
  cases hstep with
  | pushing chunk hidle => exact hheld.frame (fun _ => rfl) fun _ _ _ _ _ => rfl
  | @produced pc access event hproducer =>
      apply hheld.frame
      · intro pool
        change ((system.shared.perform access).pools pool).locked = _
        rw [(stepProducer_access hproducer).1]
      · exact fun _ _ _ _ _ => rfl
  | called context call hpc | refused context call hpc =>
      apply hheld.move fun _ => rfl
      intro other pc hother
      rw [hpc] at hother
      cases hother
  | entered context call hpc hfree =>
      refine hheld.move ?_ ?_
      · exact fun pool => setPool_field Pool.locked (by rfl) pool
      · intro other pc hother
        rw [hpc] at hother
        cases hother
  | @owned context call pc after access event hpc howner =>
      intro pool htaken
      by_cases hpool : pool = call.pool
      · subst hpool
        refine ⟨context, call, after, moved_contexts_self _ _ _ _ _, rfl, ?_⟩
        refine howner.locked ?_ htaken
        intro hlocked
        obtain ⟨other, otherCall, otherPc, hother, hsame, hlock⟩ :=
          hheld call.pool hlocked
        have heq : other = context := by
          apply (howned.pool call.pool).unique
          · rw [hother]
            exact hsame
          · rw [hpc]
            exact rfl
        rw [heq, hpc] at hother
        cases hother
        exact hlock
      · have hlocked := congrArg Pool.locked (howner.pools_of_ne hpool)
        obtain ⟨other, otherCall, otherPc, hother, hsame, hlock⟩ :=
          hheld pool (hlocked.symm.trans htaken)
        refine ⟨other, otherCall, otherPc, ?_, hsame, hlock⟩
        rw [moved_contexts_of_ne, hother]
        rintro rfl
        rw [hpc] at hother
        cases hother
        exact hpool hsame.symm
  | left context call result out hpc =>
      refine hheld.move ?_ ?_
      · exact fun pool => setPool_field Pool.locked (by rfl) pool
      · intro other pc hother
        rw [hpc] at hother
        cases hother
        exact id

/-! ## Ranks -/

def PopPc.rank : PopPc → ℕ
  | .loadTail => 69
  | .loadHead _ => 68
  | .read _ bytes => 32 - bytes.length + 35
  | .zeroize _ _ offset => 32 - offset + 2
  | .publish _ _ => 1

def MixPc.rank : MixPc → ℕ
  | .pop batch pc => (7 - batch.length) * 69 + pc.rank + 6
  | .lock _ => 6
  | .load _ => 5
  | .store _ _ => 4
  | .unlock => 3
  | .count => 2
  | .release => 1

/-- Six steps for every byte which is still missing. -/
def ExtractPc.rank (out : Bytes) : ExtractPc → ℕ
  | .loadReseedCount => 6 * out.length + 1
  | .lockSnapshot offset => 6 * (out.length - offset)
  | .loadSnapshot offset => 6 * (out.length - offset) - 1
  | .unlockSnapshot offset _ => 6 * (out.length - offset) - 2
  | .lockCommit offset _ => 6 * (out.length - offset) - 3
  | .commit offset _ => 6 * (out.length - offset) - 4
  | .unlockCommit offset => 6 * (out.length - offset) - 5

def OwnerPc.rank (call : Call) : OwnerPc → ℕ
  | .acquireConsumerGate => 6 * call.out.length + 561
  | .mix pc => pc.rank + 6 * call.out.length + 2
  | .extract out pc => pc.rank out + 1
  | .release _ _ => 1

def ContextPc.rank : ContextPc → ℕ
  | .idle => 0
  | .acquire call => 6 * call.out.length + 562
  | .own call pc => pc.rank call

theorem OwnerPc.rank_pos (call : Call) (pc : OwnerPc) : 0 < pc.rank call := by
  cases pc with
  | acquireConsumerGate | mix | extract | release => exact Nat.succ_pos _

theorem PopPc.rank_pos (pc : PopPc) : 0 < pc.rank := by
  cases pc with
  | loadTail | loadHead | read | zeroize | publish => exact Nat.succ_pos _

theorem stepPop_rank
    {pc after : PopPc} {access : Access}
    (hpop : stepPop shared pc = (.running after, access))
    (hok : PopOk shared items pc) : after.rank < pc.rank := by
  cases pc with
  | loadTail =>
      cases hpop
      exact Nat.lt_succ_self _
  | loadHead tail =>
      rw [stepPop] at hpop
      split_ifs at hpop
      · cases hpop
      · cases hpop
        exact Nat.lt_succ_self _
  | read tail bytes =>
      obtain ⟨front, _, hread⟩ := hok
      have hlength : bytes.length ≤ 32 := front.length_eq ▸ hread.length_le
      rw [stepPop] at hpop
      split_ifs at hpop with hall
      · cases hpop
        simp only [PopPc.rank, hall]
        omega
      · cases hpop
        simp only [PopPc.rank, List.length_append, List.length_singleton]
        omega
  | zeroize tail chunk offset =>
      rw [stepPop] at hpop
      split_ifs at hpop with hmore
      · cases hpop
        simp only [PopPc.rank]
        omega
      · cases hpop
        simp only [PopPc.rank]
        omega
  | publish tail chunk => cases hpop

theorem afterPops_rank_le (batch : List Chunk) :
    (afterPops batch).rank ≤ 6 := by
  cases batch with
  | nil => exact Nat.le_add_left 1 5
  | cons chunk rest => exact le_rfl

theorem nextPop_rank_lt
    (batch : List Chunk) (chunk : Chunk) :
    (nextPop (batch ++ [chunk])).rank < (7 - batch.length) * 69 + 7 := by
  rw [nextPop]
  split_ifs with hmore
  · rw [List.length_append, List.length_singleton, maxMixChunksPerCall]
      at hmore
    simp only [MixPc.rank, PopPc.rank, List.length_append,
      List.length_singleton]
    omega
  · have hle := afterPops_rank_le (batch ++ [chunk])
    omega

theorem afterMix_rank_le (call : Call) :
    (afterMix call).rank call ≤ 6 * call.out.length + 2 := by
  cases call with
  | mixEntropy pool => exact Nat.le_add_left 1 1
  | extractEntropy pool out => exact le_rfl

theorem extracting_rank_le (call : Call) (out : Bytes) (offset : ℕ) :
    (extracting out offset).rank call ≤ 6 * (out.length - offset) + 1 := by
  rw [extracting]
  split_ifs
  · exact le_rfl
  · exact Nat.le_add_left 1 _

theorem rank_mix_lt
    {pc after : MixPc} (hlt : after.rank < pc.rank) :
    (OwnerPc.mix after).rank call < (OwnerPc.mix pc).rank call := by
  simp only [OwnerPc.rank]
  omega

theorem OwnerStep.rank_lt
    {pc after : OwnerPc} {access : Access} {event : Option PoolEvent}
    (howner : OwnerStep sha384 shared call pc after access event)
    (hok : OwnerOk transcript call pc)
    (hpopOk : ∀ popPc, (ContextPc.own call pc).pop? = some popPc →
      PopOk shared items popPc)
    (hfree : pc.Waits → (shared.pools call.pool).locked = false) :
    after.rank call < pc.rank call := by
  cases howner with
  | gateTaken | gateReleased =>
      apply (afterMix_rank_le call).trans_lt
      simp only [OwnerPc.rank, MixPc.rank]
      omega
  | gateEntered =>
      simp only [OwnerPc.rank, MixPc.rank, PopPc.rank, List.length_nil]
      omega
  | popping batch hpop =>
      have hlt := stepPop_rank hpop (hpopOk _ rfl)
      apply rank_mix_lt
      simp only [MixPc.rank]
      omega
  | @queueEmpty batch popPc access hpop =>
      have hpos := popPc.rank_pos
      apply rank_mix_lt
      apply (afterPops_rank_le batch).trans_lt
      simp only [MixPc.rank]
      omega
  | @popped batch popPc chunk access hpop =>
      have hpos := popPc.rank_pos
      apply rank_mix_lt
      apply (nextPop_rank_lt batch chunk).trans_le
      simp only [MixPc.rank]
      omega
  | spinning pc htaken hwaits =>
      rw [hfree hwaits] at htaken
      cases htaken
  | mixLocked | mixLoaded | absorbed | mixUnlocked | counted =>
      exact rank_mix_lt (Nat.lt_succ_self _)
  | starved out hcount =>
      simp only [OwnerPc.rank, ExtractPc.rank]
      omega
  | seeded out hcount =>
      exact (extracting_rank_le call out 0).trans_lt (Nat.lt_succ_self _)
  | squeezed out offset snapshot =>
      have hoffset : offset < out.length := hok.2
      simp only [OwnerPc.rank, ExtractPc.rank, copyBlock_length hoffset]
      omega
  | snapshotLocked out offset | snapshotLoaded out offset
  | commitLocked out offset | advanced out offset =>
      have hoffset : offset < out.length := hok.2
      simp only [OwnerPc.rank, ExtractPc.rank]
      omega
  | committed out offset =>
      have hoffset : offset < out.length := hok.2
      have hcopied : 0 < copyLen out offset := by
        rw [copyLen]
        omega
      apply (extracting_rank_le call out _).trans_lt
      simp only [OwnerPc.rank, ExtractPc.rank]
      omega

/-! ## Reachable systems -/

/-- Everything which holds along every run. -/
structure Sound (sha384 : Bytes → Block 48) (system : System) : Prop where
  owned : Owned system
  holds : ∃ items, Holds system items
  chained : Chained sha384 system
  accounted : Accounted system
  calls : CallsOk system
  locks : LocksHeld system

theorem initial_sound : Sound sha384 System.initial where
  owned := initial_owned
  holds := ⟨[], initial_holds⟩
  chained := initial_chained
  accounted := initial_accounted
  calls := initial_callsOk
  locks := initial_locksHeld

theorem SystemStep.keeps_sound
    {action : Action} (hstep : SystemStep sha384 system action next)
    (hsound : Sound sha384 system) : Sound sha384 next := by
  obtain ⟨items, hholds⟩ := hsound.holds
  constructor
  · exact hstep.keeps_owned hsound.owned
  · exact hstep.keeps_holds hsound.owned hholds
  · exact hstep.keeps_chained hsound.owned hsound.chained
  · exact hstep.keeps_accounted hsound.owned hsound.accounted
  · exact hstep.keeps_callsOk hsound.calls
  · exact hstep.keeps_locksHeld hsound.owned hsound.locks

theorem reachable_sound
    {schedule : List Action}
    (hrun : Execution.run (step sha384) System.initial schedule =
      some system) : Sound sha384 system := by
  apply Execution.run_invariant _ initial_sound hrun
  intro before action after hsound hstep
  exact (step_systemStep hstep).keeps_sound hsound

/-- The owner of a pool finds its spinlock free. -/
theorem Sound.spinlock_free
    {pc : OwnerPc} (hsound : Sound sha384 system)
    (hpc : system.contexts context = .own call pc) (hwaits : pc.Waits) :
    (system.shared.pools call.pool).locked = false := by
  by_contra htaken
  rw [Bool.not_eq_false] at htaken
  obtain ⟨other, otherCall, otherPc, hother, hsame, hlock⟩ :=
    hsound.locks call.pool htaken
  have heq : other = context := by
    apply (hsound.owned.pool call.pool).unique
    · rw [hother]
      exact hsame
    · rw [hpc]
      exact rfl
  rw [heq, hpc] at hother
  cases hother
  cases pc with
  | acquireConsumerGate | release => exact hwaits
  | mix pc =>
      cases pc with
      | lock => exact hlock
      | pop | load | store | unlock | count | release => exact hwaits
  | extract out pc =>
      cases pc with
      | lockSnapshot | lockCommit => exact hlock
      | loadReseedCount | loadSnapshot | unlockSnapshot | commit
      | unlockCommit => exact hwaits

/-! ## Calls return -/

/-- The call which a context is in. -/
def ContextPc.call? : ContextPc → Option Call
  | .idle => none
  | .acquire call => some call
  | .own call _ => some call

/-- The action is a step of the context. -/
def Action.isStepOf (context : ℕ) : Action → Bool
  | .context other => other == context
  | _ => false

structure InProgress (before : List Event) (context : ℕ) (call : Call)
    (system : System) : Prop where
  call?_eq : (system.contexts context).call? = some call
  transcript : ∃ later, system.transcript = before ++ later

/-- The call has returned since then. -/
def Answered (before : List Event) (context : ℕ) (call : Call)
    (system : System) : Prop :=
  ∃ later, system.transcript = before ++ later ∧
    ∃ result out, .returned context call result out ∈ later

variable {action : Action} {before : List Event}

theorem SystemStep.transcript_grows
    (hstep : SystemStep sha384 system action next) :
    ∃ later, next.transcript = system.transcript ++ later := by
  cases hstep with
  | pushing chunk hidle => exact ⟨[], (List.append_nil _).symm⟩
  | produced | called | refused | entered | owned | left =>
      exact ⟨_, rfl⟩

theorem SystemStep.keeps_answered
    (hstep : SystemStep sha384 system action next)
    (hanswered : Answered before context call system) :
    Answered before context call next := by
  obtain ⟨later, htranscript, result, out, hreturned⟩ := hanswered
  obtain ⟨more, hmore⟩ := hstep.transcript_grows
  refine ⟨later ++ more, ?_, result, out,
    List.mem_append_left more hreturned⟩
  rw [hmore, htranscript, List.append_assoc]

theorem answered_returned
    {pc : ContextPc} {access : Access}
    (hbefore : ∃ later, system.transcript = before ++ later)
    (result : Except CryptoError Unit) (out : Bytes) :
    Answered before context call
      ((system.moveContext context pc access).emit
        (some (.returned context call result out))) := by
  obtain ⟨later, htranscript⟩ := hbefore
  refine ⟨later ++ [.returned context call result out], ?_, result, out,
    List.mem_append_right later (List.mem_singleton.2 rfl)⟩
  rw [← List.append_assoc, ← htranscript]
  rfl

/-- A context moves by its own steps, except when it makes a call. -/
theorem SystemStep.others_stay
    (hstep : SystemStep sha384 system action next)
    (hbusy : system.contexts context ≠ .idle)
    (hother : action ≠ .context context) :
    next.contexts context = system.contexts context := by
  cases hstep with
  | pushing | produced => rfl
  | called mover call hpc =>
      apply moved_contexts_of_ne
      rintro rfl
      exact hbusy hpc
  | refused mover | entered mover | owned mover | left mover =>
      apply moved_contexts_of_ne
      rintro rfl
      exact hother rfl

/-- A step of a context in a call ends the call or lowers the rank. -/
theorem SystemStep.own_step
    (hstep : SystemStep sha384 system (.context context) next)
    (hsound : Sound sha384 system)
    (hwaiting : InProgress before context call system) :
    Answered before context call next ∨
      InProgress before context call next ∧
        (next.contexts context).rank < (system.contexts context).rank := by
  obtain ⟨hcall, later, htranscript⟩ := hwaiting
  cases hstep with
  | refused _ other hpc htaken =>
      rw [hpc] at hcall
      cases hcall
      exact Or.inl (answered_returned ⟨later, htranscript⟩ _ _)
  | entered _ other hpc hfree =>
      rw [hpc] at hcall
      cases hcall
      refine Or.inr ⟨⟨?_, later, ?_⟩, ?_⟩
      · rw [moved_contexts_self]
        rfl
      · exact (List.append_nil _).trans htranscript
      · rw [moved_contexts_self, hpc]
        exact Nat.lt_succ_self _
  | @owned _ other pc after access event hpc howner =>
      rw [hpc] at hcall
      cases hcall
      obtain ⟨items, hholds⟩ := hsound.holds
      have hpopOk := hholds.popOk context
      have hok := hsound.calls.calls context
      rw [hpc] at hpopOk hok
      refine Or.inr ⟨⟨?_,
        later ++ (event.map (.acted context call.pool)).toList, ?_⟩, ?_⟩
      · rw [moved_contexts_self]
        rfl
      · rw [← List.append_assoc, ← htranscript]
        rfl
      · rw [moved_contexts_self, hpc]
        exact howner.rank_lt hok hpopOk (hsound.spinlock_free hpc)
  | left _ other result out hpc =>
      rw [hpc] at hcall
      cases hcall
      exact Or.inl (answered_returned ⟨later, htranscript⟩ _ _)

theorem SystemStep.progress
    (hstep : SystemStep sha384 system action next)
    (hsound : Sound sha384 system)
    (hwaiting : InProgress before context call system) :
    Answered before context call next ∨
      InProgress before context call next ∧
        (next.contexts context).rank + (action.isStepOf context).toNat ≤
          (system.contexts context).rank := by
  by_cases hown : action = .context context
  · subst hown
    have hcounts : (Action.context context).isStepOf context = true :=
      beq_self_eq_true context
    rw [hcounts]
    exact hstep.own_step hsound hwaiting
  · have hbusy : system.contexts context ≠ .idle := by
      intro hidle
      have hcall := hwaiting.call?_eq
      rw [hidle] at hcall
      cases hcall
    have hstays := hstep.others_stay hbusy hown
    have hcounts : action.isStepOf context = false := by
      cases action with
      | push | call | producer => rfl
      | context other =>
          apply beq_false_of_ne
          rintro rfl
          exact hown rfl
    obtain ⟨later, htranscript⟩ := hwaiting.transcript
    obtain ⟨more, hmore⟩ := hstep.transcript_grows
    refine Or.inr ⟨⟨?_, later ++ more, ?_⟩, ?_⟩
    · rw [hstays]
      exact hwaiting.call?_eq
    · rw [hmore, htranscript, List.append_assoc]
    · rw [hstays, hcounts]
      exact le_rfl

/-- A call returns once its context has taken as many steps as its rank. -/
theorem Sound.returns
    {final : System} {schedule : List Action}
    (hsound : Sound sha384 system)
    (hcall : (system.contexts context).call? = some call)
    (hrun : Execution.run (step sha384) system schedule = some final)
    (henough : (system.contexts context).rank ≤
      schedule.countP (Action.isStepOf context)) :
    Answered system.transcript context call final := by
  have hstart : Sound sha384 system ∧
      InProgress system.transcript context call system :=
    ⟨hsound, hcall, [], (List.append_nil _).symm⟩
  refine Execution.run_reaches
    (fun state => Sound sha384 state ∧
      InProgress system.transcript context call state)
    (Answered system.transcript context call)
    (fun state => (state.contexts context).rank) (Action.isStepOf context)
    ?_ ?_ ?_ hstart hrun henough
  · rintro state action after ⟨hstate, hwaiting⟩ hstep
    have hsystem := step_systemStep hstep
    rcases hsystem.progress hstate hwaiting with hdone | ⟨hstill, hrank⟩
    · exact Or.inl hdone
    · exact Or.inr ⟨⟨hsystem.keeps_sound hstate, hstill⟩, hrank⟩
  · intro state action after hanswered hstep
    exact (step_systemStep hstep).keeps_answered hanswered
  · rintro state ⟨hstate, hwaiting⟩
    have hbusy := hwaiting.call?_eq
    cases hpc : state.contexts context with
    | idle =>
        rw [hpc] at hbusy
        cases hbusy
    | acquire other => exact Nat.succ_pos _
    | own other pc => exact pc.rank_pos other

/-- A context in a call is never blocked. -/
theorem step_context_isSome
    (hbusy : system.contexts context ≠ .idle) :
    (step sha384 system (.context context)).isSome := by
  cases hpc : system.contexts context with
  | idle => exact absurd hpc hbusy
  | acquire call =>
      simp only [step, hpc, stepContext]
      split_ifs <;> rfl
  | own call pc =>
      simp only [step, hpc, stepContext]
      rcases stepOwner sha384 system.shared call pc
        with ⟨progress, access, event⟩
      cases progress with
      | running | done => rfl

end Entropy
end ShawnCore
