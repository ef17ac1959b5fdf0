import ShawnCore.EntropyProgress
import ShawnCore.ReferencePrimitives

/-!
# Entropy is neither lost, reused nor duplicated

The queue, the batches, the chains of the pools and the calls come together: the
chunks absorbed are the chunks pushed, in order and without gaps, a call settles
what it has popped before it returns, a call which is turned away has done
nothing, and a pool which has never been fed yields nothing.
-/

namespace ShawnCore
namespace Entropy

open ByteBlocks

variable {sha384 : Bytes → Block 48} {system next : System} {context : ℕ}
  {call : Call} {action : Action} {result : Except CryptoError Unit}
  {out : Bytes}

def Event.pushed? : Event → Option Chunk
  | .pushed chunk => some chunk
  | _ => none

/-- Everything pushed, oldest first. -/
def pushed (transcript : List Event) : List Chunk :=
  transcript.filterMap Event.pushed?

structure QueueConserved (system : System) : Prop where
  one_consumer : ∀ first second,
    (system.contexts first).OwnsQueue → (system.contexts second).OwnsQueue →
      first = second
  /-- What has been popped is what has been pushed, up to what still waits. -/
  push_order : ∃ waiting, pushed system.transcript =
    (popped system.transcript).map Portion.chunk ++ waiting
  /-- What has been absorbed is what has been popped, each chunk by the pool of
  the call which popped it, up to one batch of a call in progress. -/
  absorbed_once : ∃ pending,
    popped system.transcript = absorbed system.transcript ++ pending ∧
      pending.length ≤ maxMixChunksPerCall ∧
        ∀ portion ∈ pending,
          (system.contexts portion.context).OwnsPool portion.pool
  batches : ∀ event ∈ system.transcript, event.BatchOk

/-- What holds when a call returns. -/
structure ReturnOk (system next : System) (context : ℕ) (call : Call)
    (result : Except CryptoError Unit) (out : Bytes) : Prop where
  settled :
    (popped next.transcript).filter (fun portion =>
        portion.context = context) =
      (absorbed next.transcript).filter fun portion =>
        portion.context = context
  busy : result = .error .entropyBusy →
    next.shared = system.shared ∧ out = call.out ∧
      JustCalled system.transcript context call ∧
        ∃ other, other ≠ context ∧
          (system.contexts other).OwnsPool call.pool
  starved : call.isExtract → result ≠ .error .entropyBusy →
    ¬ Mixed call.pool system.transcript →
      result = .error .entropyStarvation ∧ out = call.out

/-- The call returns, however the steps of the others are interleaved. -/
def Returns (sha384 : Bytes → Block 48) (system : System) (context : ℕ)
    (call : Call) : Prop :=
  ∀ schedule final,
    Execution.run (step sha384) system schedule = some final →
      6 * call.out.length + 562 ≤
        schedule.countP (Action.isStepOf context) →
        Answered system.transcript context call final

/-! ## The queue -/

theorem fifo?_pushed? (transcript : List Event) :
    (transcript.filterMap Event.fifo?).filterMap BoundedFifo.Event.pushed? =
      pushed transcript := by
  rw [List.filterMap_filterMap, pushed]
  apply List.filterMap_congr
  intro event _
  cases event with
  | pushed | full | called | returned => rfl
  | acted context pool event =>
      cases event with
      | popped | absorbed | squeezed | advanced => rfl

theorem fifo?_popped? (transcript : List Event) :
    (transcript.filterMap Event.fifo?).filterMap BoundedFifo.Event.popped? =
      (popped transcript).map Portion.chunk := by
  rw [List.filterMap_filterMap, popped, List.map_filterMap]
  apply List.filterMap_congr
  intro event _
  cases event with
  | pushed | full | called | returned => rfl
  | acted context pool event =>
      cases event with
      | popped | absorbed | squeezed | advanced => rfl

theorem Holds.push_order
    {items : List Chunk} (hholds : Holds system items) :
    pushed system.transcript =
      (popped system.transcript).map Portion.chunk ++ items := by
  rw [← fifo?_pushed?, ← fifo?_popped?]
  exact hholds.history.pushed_eq

theorem MixPc.Bounded.batch_length_le
    {pc : MixPc} (hbounded : pc.Bounded) :
    pc.batch.length ≤ maxMixChunksPerCall := by
  cases pc with
  | pop batch pc => exact Nat.le_of_lt hbounded
  | lock | load | store => exact hbounded.2
  | unlock | count | release => exact Nat.zero_le _

theorem Sound.absorbed_once (hsound : Sound sha384 system) :
    ∃ pending,
      popped system.transcript = absorbed system.transcript ++ pending ∧
        pending.length ≤ maxMixChunksPerCall ∧
          ∀ portion ∈ pending,
            (system.contexts portion.context).OwnsPool portion.pool := by
  cases hgate : system.shared.consumerGate with
  | false =>
      refine ⟨[], ?_, Nat.zero_le _, ?_⟩
      · rw [List.append_nil]
        exact hsound.accounted.outside hgate
      · intro portion hportion
        cases hportion
  | true =>
      obtain ⟨owner, howns⟩ := hsound.owned.queue.set_iff.1 hgate
      -- the owner of the gate is inside `mix_entropy_under_gate`
      cases hpc : system.contexts owner with
      | idle | acquire =>
          rw [hpc] at howns
          exact absurd howns id
      | own call pc =>
          rw [hpc] at howns
          cases pc with
          | acquireConsumerGate | extract | release =>
              exact absurd howns id
          | mix pc =>
              have hbounded := hsound.accounted.bounded owner call pc hpc
              refine ⟨portions owner call.pool pc.batch,
                hsound.accounted.inside owner call pc hpc, ?_, ?_⟩
              · rw [portions, List.length_map]
                exact hbounded.batch_length_le
              · intro portion hportion
                obtain ⟨chunk, _, rfl⟩ := List.mem_map.1 hportion
                rw [hpc]
                exact rfl

theorem Sound.conserved (hsound : Sound sha384 system) :
    QueueConserved system := by
  obtain ⟨items, hholds⟩ := hsound.holds
  exact
    { one_consumer := hsound.owned.queue.unique
      push_order := ⟨items, hholds.push_order⟩
      absorbed_once := hsound.absorbed_once
      batches := hsound.accounted.batches }

/-- A context outside its calls has absorbed everything it has popped. -/
theorem Sound.settled
    (hsound : Sound sha384 system)
    (hidle : system.contexts context = .idle) :
    (popped system.transcript).filter (fun portion =>
        portion.context = context) =
      (absorbed system.transcript).filter fun portion =>
        portion.context = context := by
  obtain ⟨pending, hpopped, _, howners⟩ := hsound.absorbed_once
  have hnone : pending.filter (fun portion =>
      decide (portion.context = context)) = [] := by
    rw [List.filter_eq_nil_iff]
    intro portion hportion hcontext
    have howns := howners portion hportion
    rw [of_decide_eq_true hcontext, hidle] at howns
    exact howns
  rw [hpopped, List.filter_append, hnone, List.append_nil]

/-! ## Returns -/

/-- A call returns from the operation gate or after it has released it. -/
inductive ReturnStep (system next : System) (context : ℕ) (call : Call) :
    Except CryptoError Unit → Bytes → Prop
  | refused (hpc : system.contexts context = .acquire call)
      (htaken : (system.shared.pools call.pool).mixing = true)
      (hshared : next.shared = system.shared) :
      ReturnStep system next context call (busyResult call) call.out
  | left (result : Except CryptoError Unit) (out : Bytes)
      (hpc : system.contexts context = .own call (.release result out)) :
      ReturnStep system next context call result out

theorem SystemStep.returned
    (hstep : SystemStep sha384 system action next)
    (hreturned : next.transcript =
      system.transcript ++ [.returned context call result out]) :
    ReturnStep system next context call result out ∧
      next.contexts context = .idle := by
  cases hstep with
  | pushing chunk hidle =>
      have hlength := congrArg List.length hreturned
      simp [System.moveProducer] at hlength
  | produced hproducer =>
      have hevent := List.append_cancel_left hreturned
      have hcontext := stepProducer_context? hproducer
        (.returned context call result out) (by
          rw [hevent]
          exact List.mem_singleton.2 rfl)
      cases hcontext
  | called other otherCall hpc =>
      have hevent := List.append_cancel_left hreturned
      cases hevent
  | refused other otherCall hpc htaken =>
      have hevent := List.append_cancel_left hreturned
      cases hevent
      exact ⟨.refused hpc htaken rfl, moved_contexts_self _ _ _ _ _⟩
  | entered other otherCall hpc hfree =>
      have hevent := List.append_cancel_left hreturned
      cases hevent
  | @owned other otherCall pc after access event hpc howner =>
      have hevent := List.append_cancel_left hreturned
      cases event with
      | none | some => cases hevent
  | left other otherCall result out hpc =>
      have hevent := List.append_cancel_left hreturned
      cases hevent
      exact ⟨.left result out hpc, moved_contexts_self _ _ _ _ _⟩

theorem ReturnStep.busy
    (hreturn : ReturnStep system next context call result out)
    (hsound : Sound sha384 system)
    (hbusy : result = .error .entropyBusy) :
    next.shared = system.shared ∧ out = call.out ∧
      JustCalled system.transcript context call ∧
        ∃ other, other ≠ context ∧
          (system.contexts other).OwnsPool call.pool := by
  have hcall := hsound.calls.calls context
  cases hreturn with
  | refused hpc htaken hshared =>
      rw [hpc] at hcall
      refine ⟨hshared, rfl, hcall, ?_⟩
      obtain ⟨other, howns⟩ :=
        (hsound.owned.pool call.pool).set_iff.1 htaken
      refine ⟨other, ?_, howns⟩
      rintro rfl
      rw [hpc] at howns
      exact howns
  | left _ _ hpc =>
      rw [hpc, hbusy] at hcall
      rcases hcall with ⟨hok, _⟩ | ⟨hstarved, _⟩
      · cases hok
      · cases hstarved

theorem ReturnStep.starved
    (hreturn : ReturnStep system next context call result out)
    (hsound : Sound sha384 system) (hextract : call.isExtract)
    (hnot : result ≠ .error .entropyBusy)
    (hunmixed : ¬ Mixed call.pool system.transcript) :
    result = .error .entropyStarvation ∧ out = call.out := by
  cases hreturn with
  | refused =>
      cases call with
      | mixEntropy => exact absurd hextract id
      | extractEntropy => exact absurd rfl hnot
  | left _ _ hpc =>
      have hcall := hsound.calls.calls context
      rw [hpc] at hcall
      rcases hcall with ⟨_, hmixed⟩ | hstarved
      · exact absurd (hmixed hextract) hunmixed
      · exact hstarved

theorem Sound.returnOk
    (hsound : Sound sha384 system)
    (hstep : step sha384 system action = some next)
    (hreturned : next.transcript =
      system.transcript ++ [.returned context call result out]) :
    ReturnOk system next context call result out := by
  have hsystem := step_systemStep hstep
  obtain ⟨hreturn, hidle⟩ := hsystem.returned hreturned
  constructor
  · exact (hsystem.keeps_sound hsound).settled hidle
  · exact hreturn.busy hsound
  · exact hreturn.starved hsound

/-! ## Runs -/

/-- In every state of every interleaving of the producer with any number of
contexts and pools. -/
theorem entropy_is_conserved
    (sha384 : Bytes → Block 48) {schedule : List Action} {system : System}
    (hrun : Execution.run (step sha384) System.initial schedule =
      some system) :
    QueueConserved system ∧
      (∀ pool, PoolChained sha384 system pool) ∧
      (∀ context call, system.contexts context = .acquire call →
        Returns sha384 system context call) ∧
      (∀ context, system.contexts context ≠ .idle →
        (step sha384 system (.context context)).isSome) ∧
      ∀ action next context call result out,
        step sha384 system action = some next →
          next.transcript =
            system.transcript ++ [.returned context call result out] →
            ReturnOk system next context call result out := by
  have hsound := reachable_sound hrun
  refine ⟨hsound.conserved, hsound.chained.pools, ?_, ?_, ?_⟩
  · intro context call hpc later final hlater henough
    apply hsound.returns _ hlater
    · rw [hpc]
      exact henough
    · rw [hpc]
      rfl
  · exact fun context hbusy => step_context_isSome hbusy
  · intro action next context call result out hstep hreturned
    exact hsound.returnOk hstep hreturned

/-- A stand-in for SHA-384 with short values. -/
def reversedDigest (data : Bytes) : Block 48 :=
  Reference.digest data.reverse

def seed : Chunk :=
  Block.fill 32 7

def seededState : PoolState :=
  absorb reversedDigest [seed] emptyState

/-- A chunk is pushed.  While context 0 extracts three bytes from pool 0,
context 1 is turned away from the pool and context 2 starves on pool 1. -/
def contended : List Action :=
  Action.push seed :: List.replicate 36 Action.producer ++
    Action.call 0 (.extractEntropy 0 [1, 2, 3]) ::
      List.replicate 5 (Action.context 0) ++
    [Action.call 1 (.extractEntropy 0 [4]), Action.context 1] ++
    Action.call 2 (.extractEntropy 1 [5]) ::
      List.replicate 4 (Action.context 2) ++
    List.replicate 82 (Action.context 0)

def contendedTranscript : List Event :=
  [.pushed seed,
    .called 0 (.extractEntropy 0 [1, 2, 3]),
    .called 1 (.extractEntropy 0 [4]),
    .returned 1 (.extractEntropy 0 [4]) (.error .entropyBusy) [4],
    .called 2 (.extractEntropy 1 [5]),
    .returned 2 (.extractEntropy 1 [5]) (.error .entropyStarvation) [5],
    .acted 0 0 (.popped seed),
    .acted 0 0 (.absorbed ⟨emptyState, 0⟩ [seed] seededState),
    .acted 0 0 (.squeezed ⟨seededState, 1⟩
      (outputBlock reversedDigest seededState)),
    .acted 0 0 (.advanced ⟨seededState, 1⟩
      (nextState reversedDigest seededState)),
    .returned 0 (.extractEntropy 0 [1, 2, 3]) (.ok ()) [7, 7, 7]]

theorem contended_transcript :
    (Execution.run (step reversedDigest) System.initial contended).map
        System.transcript =
      some contendedTranscript := by
  decide +kernel

theorem entropy_is_conserved_when_contended :
    ∃ system, Execution.run (step reversedDigest) System.initial contended =
        some system ∧
      system.transcript = contendedTranscript ∧
      QueueConserved system ∧
      ∀ pool, PoolChained reversedDigest system pool := by
  obtain ⟨system, hrun, htranscript⟩ :=
    Option.map_eq_some_iff.mp contended_transcript
  obtain ⟨hqueue, hpools, _⟩ := entropy_is_conserved reversedDigest hrun
  exact ⟨system, hrun, htranscript, hqueue, hpools⟩

end Entropy
end ShawnCore
