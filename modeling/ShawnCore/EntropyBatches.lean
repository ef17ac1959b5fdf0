import ShawnCore.EntropyFifo

/-!
# Every popped chunk is mixed into the popping call's pool

The chunks popped so far are the chunks absorbed so far, followed by the batch
which the owner of the consumer gate has in its hands.  The owner absorbs its
batch before it releases the gate, and the gate before it returns.
-/

namespace ShawnCore
namespace Entropy

open ByteBlocks

variable {sha384 : Bytes → Block 48} {shared : Shared} {system next : System}
  {context : ℕ} {call : Call}

/-- A chunk with the call's context and pool. -/
structure Portion where
  context : ℕ
  pool : ℕ
  chunk : Chunk
deriving DecidableEq

def Event.popped? : Event → Option Portion
  | .acted context pool (.popped chunk) => some ⟨context, pool, chunk⟩
  | _ => none

/-- The portions of a batch. -/
def portions (context pool : ℕ) (batch : List Chunk) : List Portion :=
  batch.map (Portion.mk context pool)

def Event.absorbed : Event → List Portion
  | .acted context pool (.absorbed _ batch _) => portions context pool batch
  | _ => []

/-- Everything popped, oldest first. -/
def popped (transcript : List Event) : List Portion :=
  transcript.filterMap Event.popped?

/-- Everything absorbed, oldest first. -/
def absorbed (transcript : List Event) : List Portion :=
  transcript.flatMap Event.absorbed

/-- A batch has at least one chunk and at most eight. -/
def BatchOk (batch : List Chunk) : Prop :=
  0 < batch.length ∧ batch.length ≤ maxMixChunksPerCall

def Event.BatchOk : Event → Prop
  | .acted _ _ (.absorbed _ batch _) => Entropy.BatchOk batch
  | _ => True

/-- The chunks in the hands of the owner of the consumer gate. -/
def MixPc.batch : MixPc → List Chunk
  | .pop batch _ => batch
  | .lock batch => batch
  | .load batch => batch
  | .store batch _ => batch
  | .unlock => []
  | .count => []
  | .release => []

def MixPc.Bounded : MixPc → Prop
  | .pop batch _ => batch.length < maxMixChunksPerCall
  | .lock batch => BatchOk batch
  | .load batch => BatchOk batch
  | .store batch _ => BatchOk batch
  | _ => True

structure Accounted (system : System) : Prop where
  inside : ∀ context call pc, system.contexts context = .own call (.mix pc) →
    popped system.transcript =
      absorbed system.transcript ++ portions context call.pool pc.batch
  outside : system.shared.consumerGate = false →
    popped system.transcript = absorbed system.transcript
  bounded : ∀ context call pc,
    system.contexts context = .own call (.mix pc) → pc.Bounded
  batches : ∀ event ∈ system.transcript, event.BatchOk

theorem initial_accounted : Accounted System.initial := by
  constructor
  · intro context call pc hpc
    cases hpc
  · exact fun _ => rfl
  · intro context call pc hpc
    cases hpc
  · intro event hevent
    cases hevent

theorem popped_emit (transcript : List Event) (event : Option Event) :
    popped (transcript ++ event.toList) =
      popped transcript ++ (event.bind Event.popped?).toList :=
  filterMap_emit _ _ _

theorem absorbed_emit (transcript : List Event) (event : Option Event) :
    absorbed (transcript ++ event.toList) =
      absorbed transcript ++ event.toList.flatMap Event.absorbed := by
  rw [absorbed, List.flatMap_append]
  rfl

/-- The event neither pops nor absorbs. -/
structure Unfed (event : Option Event) : Prop where
  popped : event.bind Event.popped? = none
  absorbed : event.toList.flatMap Event.absorbed = []
  batch : ∀ e ∈ event.toList, e.BatchOk

theorem Unfed.popped_eq
    {event : Option Event} (hunfed : Unfed event) (transcript : List Event) :
    Entropy.popped (transcript ++ event.toList) =
      Entropy.popped transcript := by
  rw [popped_emit, hunfed.popped, Option.toList_none, List.append_nil]

theorem Unfed.absorbed_eq
    {event : Option Event} (hunfed : Unfed event) (transcript : List Event) :
    Entropy.absorbed (transcript ++ event.toList) =
      Entropy.absorbed transcript := by
  rw [absorbed_emit, hunfed.absorbed, List.append_nil]

namespace Accounted

theorem batches_emit
    (haccounted : Accounted system) {event : Option Event}
    (hbatch : ∀ e ∈ event.toList, e.BatchOk) :
    ∀ e ∈ system.transcript ++ event.toList, e.BatchOk := by
  intro e he
  rcases List.mem_append.1 he with hold | hnew
  · exact haccounted.batches e hold
  · exact hbatch e hnew

/-- A step outside the consumer gate. -/
theorem rest
    {event : Option Event} (haccounted : Accounted system)
    (hgate : next.shared.consumerGate = system.shared.consumerGate)
    (htranscript : next.transcript = system.transcript ++ event.toList)
    (hunfed : Unfed event)
    (hinside : ∀ context call pc,
      next.contexts context = .own call (.mix pc) →
        system.contexts context = .own call (.mix pc)) :
    Accounted next := by
  have hpopped := hunfed.popped_eq system.transcript
  have habsorbed := hunfed.absorbed_eq system.transcript
  rw [← htranscript] at hpopped habsorbed
  constructor
  · intro context call pc hpc
    rw [hpopped, habsorbed]
    exact haccounted.inside context call pc (hinside context call pc hpc)
  · intro hfree
    rw [hpopped, habsorbed]
    exact haccounted.outside (hgate.symm.trans hfree)
  · intro context call pc hpc
    exact haccounted.bounded context call pc (hinside context call pc hpc)
  · rw [htranscript]
    exact haccounted.batches_emit hunfed.batch

/-- The owner of the consumer gate acts. -/
theorem act
    {pc after : MixPc} {access : Access} {event : Option Event}
    (haccounted : Accounted system) (howned : Owned system)
    (hpc : system.contexts context = .own call (.mix pc))
    (hgate : (system.shared.perform access).consumerGate =
      system.shared.consumerGate)
    (hpending : popped (system.transcript ++ event.toList) =
      absorbed (system.transcript ++ event.toList) ++
        portions context call.pool after.batch)
    (hbounded : after.Bounded)
    (hbatch : ∀ e ∈ event.toList, e.BatchOk) :
    Accounted ((system.moveContext context (.own call (.mix after))
      access).emit event) := by
  have howns : (system.contexts context).OwnsQueue := by
    rw [hpc]
    trivial
  -- only the context which acts is inside the gate
  have hself : ∀ other otherCall otherPc,
      ((system.moveContext context (.own call (.mix after)) access).emit
        event).contexts other = .own otherCall (.mix otherPc) →
      other = context ∧ otherCall = call ∧ otherPc = after := by
    intro other otherCall otherPc hother
    by_cases hsame : other = context
    · rw [hsame, moved_contexts_self] at hother
      cases hother
      exact ⟨hsame, rfl, rfl⟩
    · rw [moved_contexts_of_ne hsame] at hother
      refine absurd (howned.queue.unique other context ?_ howns) hsame
      rw [hother]
      trivial
  constructor
  · intro other otherCall otherPc hother
    obtain ⟨rfl, rfl, rfl⟩ := hself other otherCall otherPc hother
    exact hpending
  · intro hfree
    have htaken := howned.queue.set_iff.2 ⟨context, howns⟩
    exact absurd (htaken.symm.trans (hgate.symm.trans hfree))
      Bool.false_ne_true.symm
  · intro other otherCall otherPc hother
    obtain ⟨rfl, rfl, rfl⟩ := hself other otherCall otherPc hother
    exact hbounded
  · exact haccounted.batches_emit hbatch

/-- A context moves outside the consumer gate. -/
theorem move
    {pc : ContextPc} {access : Access} {event : Option Event}
    (haccounted : Accounted system)
    (hgate : (system.shared.perform access).consumerGate =
      system.shared.consumerGate)
    (hunfed : Unfed event)
    (hafter : ∀ call mix, pc = .own call (.mix mix) →
      system.contexts context = .own call (.mix mix)) :
    Accounted ((system.moveContext context pc access).emit event) := by
  apply haccounted.rest hgate rfl hunfed
  intro other call mix hother
  by_cases hsame : other = context
  · rw [hsame, moved_contexts_self] at hother
    rw [hsame]
    exact hafter call mix hother
  · rw [moved_contexts_of_ne hsame] at hother
    exact hother

/-- A context gets the consumer gate. -/
theorem enter
    (haccounted : Accounted system) (howned : Owned system)
    (hfree : system.shared.consumerGate = false) :
    Accounted ((system.moveContext context
      (.own call (.mix (.pop [] .loadTail)))
      (.setConsumerGate true)).emit none) := by
  have hguards := howned.queue
  rw [hfree] at hguards
  have hself : ∀ other otherCall otherPc,
      ((system.moveContext context (.own call (.mix (.pop [] .loadTail)))
        (.setConsumerGate true)).emit none).contexts other =
          .own otherCall (.mix otherPc) →
      otherPc = .pop [] .loadTail := by
    intro other otherCall otherPc hother
    by_cases hsame : other = context
    · rw [hsame, moved_contexts_self] at hother
      cases hother
      rfl
    · rw [moved_contexts_of_ne hsame] at hother
      refine absurd ?_ (hguards.not_inside other)
      rw [hother]
      trivial
  have htranscript : (((system.moveContext context
      (.own call (.mix (.pop [] .loadTail)))
      (.setConsumerGate true)).emit none).transcript) =
        system.transcript := List.append_nil _
  constructor
  · intro other otherCall otherPc hother
    rw [hself other otherCall otherPc hother, htranscript]
    exact (haccounted.outside hfree).trans (List.append_nil _).symm
  · intro hset
    cases hset
  · intro other otherCall otherPc hother
    rw [hself other otherCall otherPc hother]
    exact Nat.succ_pos 7
  · rw [htranscript]
    exact haccounted.batches

/-- The owner releases the consumer gate with empty hands. -/
theorem leave
    {after : OwnerPc} (haccounted : Accounted system)
    (howned : Owned system)
    (hpc : system.contexts context = .own call (.mix .release))
    (hafter : ∀ pc, after ≠ .mix pc) :
    Accounted ((system.moveContext context (.own call after)
      (.setConsumerGate false)).emit none) := by
  have htranscript : (((system.moveContext context (.own call after)
      (.setConsumerGate false)).emit none).transcript) =
        system.transcript := List.append_nil _
  have houtside : ∀ other otherCall otherPc,
      ((system.moveContext context (.own call after)
        (.setConsumerGate false)).emit none).contexts other ≠
          .own otherCall (.mix otherPc) := by
    intro other otherCall otherPc hother
    by_cases hsame : other = context
    · rw [hsame, moved_contexts_self] at hother
      cases hother
      exact hafter otherPc rfl
    · rw [moved_contexts_of_ne hsame] at hother
      apply hsame
      apply howned.queue.unique
      · rw [hother]
        trivial
      · rw [hpc]
        trivial
  constructor
  · intro other otherCall otherPc hother
    exact absurd hother (houtside other otherCall otherPc)
  · intro _
    rw [htranscript]
    exact (haccounted.inside context call .release hpc).trans
      (List.append_nil _)
  · intro other otherCall otherPc hother
    exact absurd hother (houtside other otherCall otherPc)
  · rw [htranscript]
    exact haccounted.batches

end Accounted

/-! ## Every step -/

theorem afterPops_batch (batch : List Chunk) :
    (afterPops batch).batch = batch := by
  cases batch with
  | nil | cons => rfl

theorem afterPops_bounded
    {batch : List Chunk} (hlength : batch.length ≤ maxMixChunksPerCall) :
    (afterPops batch).Bounded := by
  cases batch with
  | nil => trivial
  | cons chunk rest => exact ⟨Nat.succ_pos _, hlength⟩

theorem nextPop_batch (batch : List Chunk) :
    (nextPop batch).batch = batch := by
  rw [nextPop]
  split_ifs
  · rfl
  · exact afterPops_batch batch

theorem nextPop_bounded
    {batch : List Chunk} (hlength : batch.length ≤ maxMixChunksPerCall) :
    (nextPop batch).Bounded := by
  rw [nextPop]
  split_ifs with hmore
  · exact hmore
  · exact afterPops_bounded hlength

theorem afterMix_ne_mix (call : Call) (pc : MixPc) :
    afterMix call ≠ .mix pc := by
  cases call with
  | mixEntropy | extractEntropy => exact fun hsame => OwnerPc.noConfusion hsame

theorem extracting_ne_mix (out : Bytes) (offset : ℕ) (pc : MixPc) :
    extracting out offset ≠ .mix pc := by
  rw [extracting]
  split_ifs <;> exact fun hsame => OwnerPc.noConfusion hsame

theorem unfed_none : Unfed none := by
  constructor
  · rfl
  · rfl
  · intro event hevent
    cases hevent

/-- The owner of a pool moves outside the consumer gate. -/
theorem Accounted.moveOwner
    {after : OwnerPc} {access : Access} {event : Option PoolEvent}
    (haccounted : Accounted system)
    (hgate : (system.shared.perform access).consumerGate =
      system.shared.consumerGate)
    (hunfed : Unfed (event.map (.acted context call.pool)))
    (hafter : ∀ pc, after ≠ .mix pc) :
    Accounted
      ((system.moveContext context (.own call after) access).emit
        (event.map (.acted context call.pool))) := by
  apply haccounted.move hgate hunfed
  intro other mix hother
  cases hother
  exact absurd rfl (hafter mix)

/-- The owner of the consumer gate neither pops nor absorbs. -/
theorem Accounted.keep
    {pc after : MixPc} {access : Access} (haccounted : Accounted system)
    (howned : Owned system)
    (hpc : system.contexts context = .own call (.mix pc))
    (hgate : (system.shared.perform access).consumerGate =
      system.shared.consumerGate)
    (hbatch : after.batch = pc.batch) (hbounded : after.Bounded) :
    Accounted ((system.moveContext context (.own call (.mix after))
      access).emit none) := by
  apply haccounted.act howned hpc hgate _ hbounded unfed_none.batch
  rw [unfed_none.popped_eq, unfed_none.absorbed_eq, hbatch]
  exact haccounted.inside context call pc hpc

theorem unfed_some
    {event : Event} (hpopped : event.popped? = none)
    (habsorbed : event.absorbed = []) (hbatch : event.BatchOk) :
    Unfed (some event) := by
  constructor
  · exact hpopped
  · simp [habsorbed]
  · intro other hother
    cases List.mem_singleton.1 hother
    exact hbatch

theorem Accounted.ownerStep
    {pc after : OwnerPc} {access : Access} {event : Option PoolEvent}
    (haccounted : Accounted system) (howned : Owned system)
    (hpc : system.contexts context = .own call pc)
    (howner : OwnerStep sha384 system.shared call pc after access event) :
    Accounted
      ((system.moveContext context (.own call after) access).emit
        (event.map (.acted context call.pool))) := by
  cases howner with
  | gateTaken =>
      exact haccounted.moveOwner rfl unfed_none (afterMix_ne_mix call)
  | gateEntered hfree => exact haccounted.enter howned hfree
  | gateReleased =>
      exact haccounted.leave howned hpc (afterMix_ne_mix call)
  | popping batch hpop =>
      have hbounded := haccounted.bounded context call _ hpc
      exact haccounted.keep howned hpc (stepPop_access hpop).2 rfl hbounded
  | queueEmpty batch hpop =>
      have hbounded : batch.length < maxMixChunksPerCall :=
        haccounted.bounded context call _ hpc
      exact haccounted.keep howned hpc (stepPop_access hpop).2
        (afterPops_batch batch) (afterPops_bounded hbounded.le)
  | @popped batch popPc chunk access hpop =>
      have hbounded : batch.length < maxMixChunksPerCall :=
        haccounted.bounded context call _ hpc
      have hinside := haccounted.inside context call _ hpc
      apply haccounted.act howned hpc (stepPop_access hpop).2
      · rw [popped_emit, absorbed_emit, nextPop_batch, hinside]
        simp [portions, Event.popped?, Event.absorbed, MixPc.batch]
      · apply nextPop_bounded
        rw [List.length_append]
        exact hbounded
      · intro event hevent
        cases List.mem_singleton.1 hevent
        trivial
  | absorbed batch snapshot =>
      have hbounded : BatchOk batch := haccounted.bounded context call _ hpc
      have hinside := haccounted.inside context call _ hpc
      apply haccounted.act howned hpc rfl
      · rw [popped_emit, absorbed_emit, hinside]
        simp [portions, Event.popped?, Event.absorbed, MixPc.batch]
      · trivial
      · intro event hevent
        cases List.mem_singleton.1 hevent
        exact hbounded
  | mixLocked batch | mixLoaded batch =>
      have hbounded : BatchOk batch := haccounted.bounded context call _ hpc
      exact haccounted.keep howned hpc rfl rfl hbounded
  | mixUnlocked | counted =>
      exact haccounted.keep howned hpc rfl rfl trivial
  | seeded | committed =>
      exact haccounted.moveOwner rfl unfed_none (extracting_ne_mix _ _)
  | starved | snapshotLocked | snapshotLoaded | commitLocked =>
      refine haccounted.moveOwner rfl unfed_none ?_
      intro pc hsame
      cases hsame
  | squeezed | advanced =>
      refine haccounted.moveOwner rfl (unfed_some rfl rfl trivial) ?_
      intro pc hsame
      cases hsame
  | spinning pc =>
      apply haccounted.move rfl unfed_none
      intro other mix hother
      cases hother
      exact hpc

theorem stepProducer_unfed
    {pc after : ProducerPc} {access : Access} {event : Option Event}
    (hproducer : stepProducer shared pc = some (after, access, event)) :
    Unfed event := by
  rcases stepProducer_event hproducer with rfl | rfl | ⟨chunk, rfl⟩
  · exact unfed_none
  · exact unfed_some rfl rfl trivial
  · exact unfed_some rfl rfl trivial

theorem SystemStep.keeps_accounted
    {action : Action} (hstep : SystemStep sha384 system action next)
    (howned : Owned system)
    (haccounted : Accounted system) : Accounted next := by
  cases hstep with
  | pushing chunk hidle =>
      exact haccounted.rest rfl (List.append_nil _).symm unfed_none
        fun _ _ _ hpc => hpc
  | produced hproducer =>
      exact haccounted.rest (stepProducer_access hproducer).2 rfl
        (stepProducer_unfed hproducer) fun _ _ _ hpc => hpc
  | called context call hpc | refused context call hpc =>
      refine haccounted.move rfl (unfed_some rfl rfl trivial) ?_
      intro other mix hother
      cases hother
  | entered context call hpc hfree =>
      apply haccounted.move rfl unfed_none
      intro other mix hother
      cases hother
  | owned context call hpc howner =>
      exact haccounted.ownerStep howned hpc howner
  | left context call result out hpc =>
      refine haccounted.move rfl (unfed_some rfl rfl trivial) ?_
      intro other mix hother
      cases hother

end Entropy
end ShawnCore
