import ShawnCore.EntropyOwnership

/-!
# What is known about a call in progress

A call which waits at the operation gate has done nothing since it was made.
The reseed count of a pool stays zero until a batch has been mixed into it, so a
call reaches the loop of `extract_entropy` only on a pool which has been fed.
-/

namespace ShawnCore
namespace Entropy

open ByteBlocks

variable {sha384 : Bytes → Block 48} {shared : Shared} {system next : System}
  {context pool : ℕ} {call : Call} {transcript : List Event}

/-- The context which an event belongs to. -/
def Event.context? : Event → Option ℕ
  | .pushed _ => none
  | .full => none
  | .called context _ => some context
  | .acted context _ _ => some context
  | .returned context _ _ _ => some context

/-- The event mixes a batch into the pool. -/
def Event.Mixes (pool : ℕ) : Event → Prop
  | .acted _ other (.absorbed _ _ _) => other = pool
  | _ => False

/-- A batch has been mixed into the pool. -/
def Mixed (pool : ℕ) (transcript : List Event) : Prop :=
  ∃ event ∈ transcript, event.Mixes pool

theorem Mixed.append
    (hmixed : Mixed pool transcript) (later : List Event) :
    Mixed pool (transcript ++ later) := by
  obtain ⟨event, hevent, hmixes⟩ := hmixed
  exact ⟨event, List.mem_append_left later hevent, hmixes⟩

/-- The context's last event is that it made the call. -/
def JustCalled (transcript : List Event) (context : ℕ) (call : Call) : Prop :=
  ∃ before middle, transcript = before ++ .called context call :: middle ∧
    ∀ event ∈ middle, event.context? ≠ some context

theorem JustCalled.append
    (hcalled : JustCalled transcript context call) {event : Option Event}
    (hother : ∀ e ∈ event.toList, e.context? ≠ some context) :
    JustCalled (transcript ++ event.toList) context call := by
  obtain ⟨before, middle, rfl, hmiddle⟩ := hcalled
  refine ⟨before, middle ++ event.toList, ?_, ?_⟩
  · rw [List.append_assoc, List.cons_append]
  · intro e he
    rcases List.mem_append.1 he with hold | hnew
    · exact hmiddle e hold
    · exact hother e hnew

def Call.isExtract : Call → Prop
  | .mixEntropy _ => False
  | .extractEntropy _ _ => True

/-- How much of the buffer has been filled. -/
def ExtractPc.offset : ExtractPc → ℕ
  | .loadReseedCount => 0
  | .lockSnapshot offset => offset
  | .loadSnapshot offset => offset
  | .unlockSnapshot offset _ => offset
  | .lockCommit offset _ => offset
  | .commit offset _ => offset
  | .unlockCommit offset => offset

def OwnerOk (transcript : List Event) (call : Call) : OwnerPc → Prop
  | .mix .unlock => Mixed call.pool transcript
  | .mix .count => Mixed call.pool transcript
  | .extract out .loadReseedCount => out = call.out
  | .extract out pc => Mixed call.pool transcript ∧ pc.offset < out.length
  | .release result out =>
      result = .ok () ∧ (call.isExtract → Mixed call.pool transcript) ∨
        result = .error .entropyStarvation ∧ out = call.out
  | _ => True

def CallOk (transcript : List Event) (context : ℕ) : ContextPc → Prop
  | .idle => True
  | .acquire call => JustCalled transcript context call
  | .own call pc => OwnerOk transcript call pc

structure CallsOk (system : System) : Prop where
  unmixed : ∀ pool, ¬ Mixed pool system.transcript →
    (system.shared.pools pool).reseedCount = 0
  calls : ∀ context,
    CallOk system.transcript context (system.contexts context)

theorem initial_callsOk : CallsOk System.initial := by
  constructor
  · exact fun pool _ => rfl
  · exact fun context => trivial

/-! ## Later events -/

theorem OwnerOk.append
    {pc : OwnerPc} (hok : OwnerOk transcript call pc) (later : List Event) :
    OwnerOk (transcript ++ later) call pc := by
  cases pc with
  | acquireConsumerGate => trivial
  | mix pc =>
      cases pc with
      | unlock | count => exact Mixed.append hok later
      | pop | lock | load | store | release => trivial
  | extract out pc =>
      cases pc with
      | loadReseedCount => exact hok
      | lockSnapshot | loadSnapshot | unlockSnapshot | lockCommit | commit
      | unlockCommit => exact ⟨hok.1.append later, hok.2⟩
  | release result out =>
      rcases hok with ⟨hresult, hmixed⟩ | hstarved
      · exact Or.inl ⟨hresult, fun hextract => (hmixed hextract).append later⟩
      · exact Or.inr hstarved

/-- Events of others keep what is known about a call. -/
theorem CallOk.append
    {pc : ContextPc} (hok : CallOk transcript context pc)
    {event : Option Event}
    (hother : ∀ e ∈ event.toList, e.context? ≠ some context) :
    CallOk (transcript ++ event.toList) context pc := by
  cases pc with
  | idle => trivial
  | acquire call => exact JustCalled.append hok hother
  | own call pc => exact OwnerOk.append hok _

theorem CallsOk.move
    {pc : ContextPc} {access : Access} {event : Option Event}
    (hcalls : CallsOk system)
    (hcounts : ∀ pool, ¬ Mixed pool system.transcript →
      ((system.shared.perform access).pools pool).reseedCount =
        (system.shared.pools pool).reseedCount)
    (hevent : ∀ e ∈ event.toList, e.context? = some context)
    (hok : CallOk (system.transcript ++ event.toList) context pc) :
    CallsOk ((system.moveContext context pc access).emit event) := by
  constructor
  · intro pool hunmixed
    have hbefore : ¬ Mixed pool system.transcript := fun hmixed =>
      hunmixed (hmixed.append _)
    exact (hcounts pool hbefore).trans (hcalls.unmixed pool hbefore)
  · intro other
    by_cases hsame : other = context
    · subst hsame
      rw [moved_contexts_self]
      exact hok
    · rw [moved_contexts_of_ne hsame]
      apply (hcalls.calls other).append
      intro e he hcontext
      rw [hevent e he] at hcontext
      exact hsame (Option.some.inj hcontext).symm

/-! ## Every step -/

/-- Only a call which has just mixed a batch counts it. -/
theorem OwnerStep.reseedCount
    {pc after : OwnerPc} {access : Access} {event : Option PoolEvent}
    (howner : OwnerStep sha384 shared call pc after access event)
    (hok : OwnerOk transcript call pc) (hunmixed : ¬ Mixed pool transcript) :
    ((shared.perform access).pools pool).reseedCount =
      (shared.pools pool).reseedCount := by
  cases howner with
  | gateTaken | gateEntered | spinning | mixLoaded | gateReleased | starved
  | seeded | snapshotLoaded => rfl
  | popping batch hpop | queueEmpty batch hpop | popped batch hpop =>
      rw [(stepPop_access hpop).1]
  | counted =>
      refine congrArg Pool.reseedCount (Function.update_of_ne ?_ _ _)
      rintro rfl
      exact hunmixed hok
  | mixLocked | absorbed | mixUnlocked | snapshotLocked | squeezed
  | commitLocked | advanced | committed =>
      exact setPool_field Pool.reseedCount (by rfl) pool

theorem ownerOk_afterMix (transcript : List Event) (call : Call) :
    OwnerOk transcript call (afterMix call) := by
  cases call with
  | mixEntropy pool => exact Or.inl ⟨rfl, False.elim⟩
  | extractEntropy pool out => exact rfl

theorem ownerOk_afterPops
    (transcript : List Event) (call : Call) (batch : List Chunk) :
    OwnerOk transcript call (.mix (afterPops batch)) := by
  cases batch with
  | nil | cons => trivial

theorem ownerOk_nextPop
    (transcript : List Event) (call : Call) (batch : List Chunk) :
    OwnerOk transcript call (.mix (nextPop batch)) := by
  rw [nextPop]
  split_ifs
  · trivial
  · exact ownerOk_afterPops transcript call batch

theorem ownerOk_extracting
    (hmixed : Mixed call.pool transcript) (out : Bytes) (offset : ℕ) :
    OwnerOk transcript call (extracting out offset) := by
  rw [extracting]
  split_ifs with hmore
  · exact ⟨hmixed, hmore⟩
  · exact Or.inl ⟨rfl, fun _ => hmixed⟩

theorem copyBlock_length
    {out : Bytes} {offset : ℕ} (hoffset : offset < out.length)
    (block : Block 48) :
    (copyBlock out offset block).length = out.length := by
  simp only [copyBlock, copyLen, List.length_append, List.length_take,
    List.length_drop, block.length_eq]
  omega

theorem OwnerStep.ok
    {pc after : OwnerPc} {access : Access} {event : Option PoolEvent}
    (howner : OwnerStep sha384 shared call pc after access event)
    (hok : OwnerOk transcript call pc)
    (hunmixed : ¬ Mixed call.pool transcript →
      (shared.pools call.pool).reseedCount = 0) :
    OwnerOk
      (transcript ++ (event.map (.acted context call.pool)).toList) call
        after := by
  cases howner with
  | gateTaken | gateReleased => exact ownerOk_afterMix _ call
  | queueEmpty batch hpop => exact ownerOk_afterPops _ call batch
  | popped batch hpop => exact ownerOk_nextPop _ call _
  | gateEntered | popping | mixLocked | mixLoaded | counted => trivial
  | absorbed batch snapshot =>
      refine ⟨_, List.mem_append_right _ (List.mem_singleton.2 rfl), ?_⟩
      exact rfl
  | starved out hcount => exact Or.inr ⟨rfl, hok⟩
  | seeded out hcount =>
      refine OwnerOk.append (ownerOk_extracting ?_ out 0) _
      by_contra hnot
      exact hcount (hunmixed hnot)
  | squeezed out offset snapshot =>
      have hoffset : offset < out.length := hok.2
      refine ⟨hok.1.append _, ?_⟩
      rw [copyBlock_length hoffset]
      exact hoffset
  | committed out offset =>
      exact OwnerOk.append (ownerOk_extracting hok.1 out _) _
  | spinning | mixUnlocked | snapshotLocked | snapshotLoaded | commitLocked
  | advanced => exact OwnerOk.append hok _

theorem stepProducer_context?
    {pc after : ProducerPc} {access : Access} {event : Option Event}
    (hproducer : stepProducer shared pc = some (after, access, event)) :
    ∀ e ∈ event.toList, e.context? = none := by
  intro e he
  rcases stepProducer_event hproducer with rfl | rfl | ⟨chunk, rfl⟩
  · cases he
  · cases List.mem_singleton.1 he
    rfl
  · cases List.mem_singleton.1 he
    rfl

theorem SystemStep.keeps_callsOk
    {action : Action} (hstep : SystemStep sha384 system action next)
    (hcalls : CallsOk system) : CallsOk next := by
  cases hstep with
  | pushing chunk hidle => exact ⟨hcalls.unmixed, hcalls.calls⟩
  | @produced pc access event hproducer =>
      constructor
      · intro pool hunmixed
        change ((system.shared.perform access).pools pool).reseedCount = 0
        rw [(stepProducer_access hproducer).1]
        exact hcalls.unmixed pool fun hmixed => hunmixed (hmixed.append _)
      · intro context
        apply (hcalls.calls context).append
        intro e he
        rw [stepProducer_context? hproducer e he]
        exact (Option.some_ne_none context).symm
  | called context call hpc =>
      apply hcalls.move (fun _ _ => rfl)
      · intro e he
        cases List.mem_singleton.1 he
        rfl
      · refine ⟨system.transcript, [], rfl, ?_⟩
        intro event hevent
        cases hevent
  | refused context call hpc htaken =>
      refine hcalls.move (fun _ _ => rfl) ?_ trivial
      intro e he
      cases List.mem_singleton.1 he
      rfl
  | entered context call hpc hfree =>
      refine hcalls.move ?_ ?_ trivial
      · exact fun pool _ => setPool_field Pool.reseedCount (by rfl) pool
      · intro e he
        cases he
  | @owned context call pc after access event hpc howner =>
      have hok : OwnerOk system.transcript call pc := by
        have hcall := hcalls.calls context
        rwa [hpc] at hcall
      apply hcalls.move
      · intro pool hunmixed
        exact howner.reseedCount hok hunmixed
      · intro e he
        rw [Option.mem_toList, Option.map_eq_some_iff] at he
        obtain ⟨act, _, rfl⟩ := he
        rfl
      · exact howner.ok hok (hcalls.unmixed call.pool)
  | left context call result out hpc =>
      refine hcalls.move ?_ ?_ trivial
      · exact fun pool _ => setPool_field Pool.reseedCount (by rfl) pool
      · intro e he
        cases List.mem_singleton.1 he
        rfl

end Entropy
end ShawnCore
