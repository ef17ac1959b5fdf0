import ShawnCore.EntropyPool
import ShawnCore.ExclusiveFlag

/-!
# Who owns the pools and the queue

Every pool has an operation gate, and the consuming side of the queue has one of
its own.  The steps of a context are listed once, in `OwnerStep`; both gates
turn out to be exclusive along every run.
-/

namespace ShawnCore
namespace Entropy

open ByteBlocks
open ExclusiveFlag (Guards)
open StateChain (Snapshot)

variable {sha384 : Bytes → Block 48} {shared : Shared} {system next : System}
  {call : Call} {context : ℕ}

/-! ## What an owner can do -/

/-- The owner after a step of the loop of `extract_entropy`. -/
def extracting (out : Bytes) (offset : ℕ) : OwnerPc :=
  if offset < out.length then
    .extract out (.lockSnapshot offset)
  else
    .release (.ok ()) out

/-- The owner waits for the spinlock of the pool. -/
def OwnerPc.Waits : OwnerPc → Prop
  | .mix (.lock _) => True
  | .extract _ (.lockSnapshot _) => True
  | .extract _ (.lockCommit _ _) => True
  | _ => False

/-- Every step of a context which owns the operation gate of its pool, except
the release of the gate. -/
inductive OwnerStep (sha384 : Bytes → Block 48) (shared : Shared)
    (call : Call) : OwnerPc → OwnerPc → Access → Option PoolEvent → Prop
  | gateTaken (htaken : shared.consumerGate = true) :
      OwnerStep sha384 shared call .acquireConsumerGate (afterMix call)
        .nothing none
  | gateEntered (hfree : shared.consumerGate = false) :
      OwnerStep sha384 shared call .acquireConsumerGate
        (.mix (.pop [] .loadTail)) (.setConsumerGate true) none
  | popping (batch : List Chunk) {pc after : PopPc} {access : Access}
      (hpop : stepPop shared pc = (.running after, access)) :
      OwnerStep sha384 shared call (.mix (.pop batch pc))
        (.mix (.pop batch after)) access none
  | queueEmpty (batch : List Chunk) {pc : PopPc} {access : Access}
      (hpop : stepPop shared pc = (.done none, access)) :
      OwnerStep sha384 shared call (.mix (.pop batch pc))
        (.mix (afterPops batch)) access none
  | popped (batch : List Chunk) {pc : PopPc} {chunk : Chunk}
      {access : Access}
      (hpop : stepPop shared pc = (.done (some chunk), access)) :
      OwnerStep sha384 shared call (.mix (.pop batch pc))
        (.mix (nextPop (batch ++ [chunk]))) access (some (.popped chunk))
  | spinning (pc : OwnerPc)
      (htaken : (shared.pools call.pool).locked = true)
      (hwaits : pc.Waits) :
      OwnerStep sha384 shared call pc pc .nothing none
  | mixLocked (batch : List Chunk) :
      OwnerStep sha384 shared call (.mix (.lock batch)) (.mix (.load batch))
        (.setLocked call.pool true) none
  | mixLoaded (batch : List Chunk) :
      OwnerStep sha384 shared call (.mix (.load batch))
        (.mix (.store batch (shared.pools call.pool).snapshot)) .nothing none
  | absorbed (batch : List Chunk) (snapshot : Snapshot PoolState) :
      OwnerStep sha384 shared call (.mix (.store batch snapshot))
        (.mix .unlock)
        (.storeState call.pool (absorb sha384 batch snapshot.state))
        (some (.absorbed snapshot batch
          (absorb sha384 batch snapshot.state)))
  | mixUnlocked :
      OwnerStep sha384 shared call (.mix .unlock) (.mix .count)
        (.setLocked call.pool false) none
  | counted :
      OwnerStep sha384 shared call (.mix .count) (.mix .release)
        (.addReseedCount call.pool) none
  | gateReleased :
      OwnerStep sha384 shared call (.mix .release) (afterMix call)
        (.setConsumerGate false) none
  | starved (out : Bytes)
      (hcount : (shared.pools call.pool).reseedCount = 0) :
      OwnerStep sha384 shared call (.extract out .loadReseedCount)
        (.release (.error .entropyStarvation) out) .nothing none
  | seeded (out : Bytes)
      (hcount : (shared.pools call.pool).reseedCount ≠ 0) :
      OwnerStep sha384 shared call (.extract out .loadReseedCount)
        (extracting out 0) .nothing none
  | snapshotLocked (out : Bytes) (offset : ℕ) :
      OwnerStep sha384 shared call (.extract out (.lockSnapshot offset))
        (.extract out (.loadSnapshot offset)) (.setLocked call.pool true)
        none
  | snapshotLoaded (out : Bytes) (offset : ℕ) :
      OwnerStep sha384 shared call (.extract out (.loadSnapshot offset))
        (.extract out (.unlockSnapshot offset
          (shared.pools call.pool).snapshot)) .nothing none
  | squeezed (out : Bytes) (offset : ℕ) (snapshot : Snapshot PoolState) :
      OwnerStep sha384 shared call
        (.extract out (.unlockSnapshot offset snapshot))
        (.extract (copyBlock out offset (outputBlock sha384 snapshot.state))
          (.lockCommit offset snapshot))
        (.setLocked call.pool false)
        (some (.squeezed snapshot (outputBlock sha384 snapshot.state)))
  | commitLocked (out : Bytes) (offset : ℕ)
      (snapshot : Snapshot PoolState) :
      OwnerStep sha384 shared call
        (.extract out (.lockCommit offset snapshot))
        (.extract out (.commit offset snapshot)) (.setLocked call.pool true)
        none
  | advanced (out : Bytes) (offset : ℕ) (snapshot : Snapshot PoolState) :
      OwnerStep sha384 shared call (.extract out (.commit offset snapshot))
        (.extract out (.unlockCommit offset))
        (.storeState call.pool (nextState sha384 snapshot.state))
        (some (.advanced snapshot (nextState sha384 snapshot.state)))
  | committed (out : Bytes) (offset : ℕ) :
      OwnerStep sha384 shared call (.extract out (.unlockCommit offset))
        (extracting out (offset + copyLen out offset))
        (.setLocked call.pool false) none

theorem stepMix_ownerStep
    {pc after : MixPc} {access : Access} {event : Option PoolEvent}
    (hstep : stepMix sha384 shared call.pool pc =
      (.running after, access, event)) :
    OwnerStep sha384 shared call (.mix pc) (.mix after) access event := by
  cases pc with
  | pop batch pc =>
      cases hpop : stepPop shared pc with
      | mk progress popAccess =>
          simp only [stepMix, hpop] at hstep
          cases progress with
          | running popPc =>
              cases hstep
              exact .popping batch hpop
          | done result =>
              cases result with
              | none =>
                  cases hstep
                  exact .queueEmpty batch hpop
              | some chunk =>
                  cases hstep
                  exact .popped batch hpop
  | lock batch =>
      simp only [stepMix, stepLock] at hstep
      split_ifs at hstep with htaken
      · cases hstep
        exact .spinning _ htaken trivial
      · cases hstep
        exact .mixLocked batch
  | load batch =>
      cases hstep
      exact .mixLoaded batch
  | store batch snapshot =>
      cases hstep
      exact .absorbed batch snapshot
  | unlock =>
      cases hstep
      exact .mixUnlocked
  | count =>
      cases hstep
      exact .counted
  | release => cases hstep

theorem stepMix_done
    {pc : MixPc} {access : Access} {event : Option PoolEvent}
    (hstep : stepMix sha384 shared call.pool pc =
      (.done (), access, event)) :
    pc = .release ∧ access = .setConsumerGate false ∧ event = none := by
  cases pc with
  | pop batch pc =>
      simp only [stepMix] at hstep
      split at hstep <;> cases hstep
  | lock batch =>
      simp only [stepMix, stepLock] at hstep
      split_ifs at hstep <;> cases hstep
  | load | store | unlock | count => cases hstep
  | release =>
      cases hstep
      exact ⟨rfl, rfl, rfl⟩

/-- The owner after a step of `extract_entropy`. -/
def resume (out : Bytes) :
    Progress ExtractPc (Except CryptoError Unit) → OwnerPc
  | .running pc => .extract out pc
  | .done result => .release result out

theorem resume_nextBlock (out : Bytes) (offset : ℕ) :
    resume out (nextBlock out offset) = extracting out offset := by
  rw [nextBlock, extracting]
  by_cases hmore : offset < out.length
  · rw [if_pos hmore, if_pos hmore]
    rfl
  · rw [if_neg hmore, if_neg hmore]
    rfl

theorem stepExtract_ownerStep
    {out written : Bytes} {pc : ExtractPc}
    {progress : Progress ExtractPc (Except CryptoError Unit)}
    {access : Access} {event : Option PoolEvent}
    (hstep : stepExtract sha384 shared call.pool out pc =
      (written, progress, access, event)) :
    OwnerStep sha384 shared call (.extract out pc)
      (resume written progress) access event := by
  cases pc with
  | loadReseedCount =>
      simp only [stepExtract] at hstep
      split_ifs at hstep with hcount
      · cases hstep
        exact .starved out hcount
      · cases hstep
        rw [resume_nextBlock]
        exact .seeded out hcount
  | lockSnapshot offset =>
      simp only [stepExtract, stepLock] at hstep
      split_ifs at hstep with htaken
      · cases hstep
        exact .spinning _ htaken trivial
      · cases hstep
        exact .snapshotLocked out offset
  | loadSnapshot offset =>
      cases hstep
      exact .snapshotLoaded out offset
  | unlockSnapshot offset snapshot =>
      cases hstep
      exact .squeezed out offset snapshot
  | lockCommit offset snapshot =>
      simp only [stepExtract, stepLock] at hstep
      split_ifs at hstep with htaken
      · cases hstep
        exact .spinning _ htaken trivial
      · cases hstep
        exact .commitLocked out offset snapshot
  | commit offset snapshot =>
      cases hstep
      exact .advanced out offset snapshot
  | unlockCommit offset =>
      cases hstep
      rw [resume_nextBlock]
      exact .committed out offset

theorem stepOwner_running
    {pc after : OwnerPc} {access : Access} {event : Option PoolEvent}
    (hstep : stepOwner sha384 shared call pc =
      (.running after, access, event)) :
    OwnerStep sha384 shared call pc after access event := by
  cases pc with
  | acquireConsumerGate =>
      simp only [stepOwner] at hstep
      cases htaken : shared.consumerGate with
      | true =>
          simp only [htaken] at hstep
          cases hstep
          exact .gateTaken htaken
      | false =>
          simp only [htaken] at hstep
          cases hstep
          exact .gateEntered htaken
  | mix pc =>
      simp only [stepOwner] at hstep
      rcases hmix : stepMix sha384 shared call.pool pc
        with ⟨progress, mixAccess, mixEvent⟩
      cases progress with
      | running mixPc =>
          simp only [hmix] at hstep
          cases hstep
          exact stepMix_ownerStep hmix
      | done result =>
          simp only [hmix] at hstep
          cases hstep
          obtain ⟨rfl, rfl, rfl⟩ := stepMix_done hmix
          exact .gateReleased
  | extract out pc =>
      simp only [stepOwner] at hstep
      rcases hextract : stepExtract sha384 shared call.pool out pc
        with ⟨written, progress, extractAccess, extractEvent⟩
      have howner := stepExtract_ownerStep hextract
      cases progress with
      | running extractPc =>
          simp only [hextract] at hstep
          cases hstep
          exact howner
      | done result =>
          simp only [hextract] at hstep
          cases hstep
          exact howner
  | release result out => cases hstep

theorem stepOwner_done
    {pc : OwnerPc} {result : Except CryptoError Unit} {out : Bytes}
    {access : Access} {event : Option PoolEvent}
    (hstep : stepOwner sha384 shared call pc =
      (.done (result, out), access, event)) :
    pc = .release result out ∧ access = .setMixing call.pool false := by
  cases pc with
  | acquireConsumerGate =>
      simp only [stepOwner] at hstep
      split_ifs at hstep <;> cases hstep
  | mix pc =>
      simp only [stepOwner] at hstep
      split at hstep <;> cases hstep
  | extract out pc =>
      simp only [stepOwner] at hstep
      split at hstep <;> cases hstep
  | release result out =>
      cases hstep
      exact ⟨rfl, rfl⟩

/-! ## What the system can do -/

/-- Every step of the system. -/
inductive SystemStep (sha384 : Bytes → Block 48) (system : System) :
    Action → System → Prop
  | pushing (chunk : Chunk) (hidle : system.producer = .idle) :
      SystemStep sha384 system (.push chunk)
        (system.moveProducer (.loadHead chunk) .nothing)
  | produced {pc : ProducerPc} {access : Access} {event : Option Event}
      (hproducer : stepProducer system.shared system.producer =
        some (pc, access, event)) :
      SystemStep sha384 system .producer
        ((system.moveProducer pc access).emit event)
  | called (context : ℕ) (call : Call)
      (hpc : system.contexts context = .idle) :
      SystemStep sha384 system (.call context call)
        ((system.moveContext context (.acquire call) .nothing).emit
          (some (.called context call)))
  | refused (context : ℕ) (call : Call)
      (hpc : system.contexts context = .acquire call)
      (htaken : (system.shared.pools call.pool).mixing = true) :
      SystemStep sha384 system (.context context)
        ((system.moveContext context .idle .nothing).emit
          (some (.returned context call (busyResult call) call.out)))
  | entered (context : ℕ) (call : Call)
      (hpc : system.contexts context = .acquire call)
      (hfree : (system.shared.pools call.pool).mixing = false) :
      SystemStep sha384 system (.context context)
        ((system.moveContext context (.own call .acquireConsumerGate)
          (.setMixing call.pool true)).emit none)
  | owned (context : ℕ) (call : Call) {pc after : OwnerPc}
      {access : Access} {event : Option PoolEvent}
      (hpc : system.contexts context = .own call pc)
      (howner : OwnerStep sha384 system.shared call pc after access event) :
      SystemStep sha384 system (.context context)
        ((system.moveContext context (.own call after) access).emit
          (event.map (.acted context call.pool)))
  | left (context : ℕ) (call : Call) (result : Except CryptoError Unit)
      (out : Bytes)
      (hpc : system.contexts context = .own call (.release result out)) :
      SystemStep sha384 system (.context context)
        ((system.moveContext context .idle
          (.setMixing call.pool false)).emit
          (some (.returned context call result out)))

theorem step_systemStep
    {action : Action} (hstep : step sha384 system action = some next) :
    SystemStep sha384 system action next := by
  cases action with
  | push chunk =>
      simp only [step] at hstep
      cases hidle : system.producer with
      | idle =>
          rw [hidle] at hstep
          cases hstep
          exact .pushing chunk hidle
      | loadHead | loadTail | write | publish =>
          rw [hidle] at hstep
          cases hstep
  | call context call =>
      simp only [step] at hstep
      cases hpc : system.contexts context with
      | idle =>
          rw [hpc] at hstep
          cases hstep
          exact .called context call hpc
      | acquire | own =>
          rw [hpc] at hstep
          cases hstep
  | producer =>
      simp only [step] at hstep
      cases hproducer : stepProducer system.shared system.producer with
      | none =>
          rw [hproducer] at hstep
          cases hstep
      | some move =>
          rw [hproducer] at hstep
          cases hstep
          exact .produced hproducer
  | context context =>
      simp only [step] at hstep
      cases hpc : system.contexts context with
      | idle =>
          rw [hpc] at hstep
          cases hstep
      | acquire call =>
          rw [hpc] at hstep
          simp only [stepContext] at hstep
          cases htaken : (system.shared.pools call.pool).mixing with
          | false =>
              simp only [htaken] at hstep
              cases hstep
              exact .entered context call hpc htaken
          | true =>
              simp only [htaken] at hstep
              cases hstep
              exact .refused context call hpc htaken
      | own call pc =>
          rw [hpc] at hstep
          simp only [stepContext] at hstep
          rcases howner : stepOwner sha384 system.shared call pc
            with ⟨progress, access, event⟩
          cases progress with
          | running after =>
              simp only [howner] at hstep
              cases hstep
              exact .owned context call hpc (stepOwner_running howner)
          | done returned =>
              obtain ⟨result, out⟩ := returned
              simp only [howner] at hstep
              cases hstep
              obtain ⟨rfl, rfl⟩ := stepOwner_done howner
              exact .left context call result out hpc

/-! ## What a step changes -/

theorem moved_contexts_self
    (system : System) (context : ℕ) (pc : ContextPc) (access : Access)
    (event : Option Event) :
    ((system.moveContext context pc access).emit event).contexts context =
      pc := by
  simp [System.moveContext, System.emit]

theorem moved_contexts_of_ne
    {context other : ℕ} (hne : other ≠ context) (system : System)
    (pc : ContextPc) (access : Access) (event : Option Event) :
    ((system.moveContext context pc access).emit event).contexts other =
      system.contexts other := by
  simp [System.moveContext, System.emit, hne]

theorem filterMap_emit
    {β : Type} (select : Event → Option β) (transcript : List Event)
    (event : Option Event) :
    (transcript ++ event.toList).filterMap select =
      transcript.filterMap select ++ (event.bind select).toList := by
  rw [List.filterMap_append]
  cases event with
  | none => rfl
  | some event =>
      cases hselect : select event with
      | none => simp [hselect]
      | some value => simp [hselect]

/-! ## The gates -/

/-- The context owns the operation gate of the pool. -/
def ContextPc.OwnsPool (pool : ℕ) : ContextPc → Prop
  | .idle => False
  | .acquire _ => False
  | .own call _ => call.pool = pool

/-- The context owns the consuming side of the queue. -/
def ContextPc.OwnsQueue : ContextPc → Prop
  | .own _ (.mix _) => True
  | _ => False

structure Owned (system : System) : Prop where
  pool : ∀ pool, Guards (ContextPc.OwnsPool pool)
    (system.shared.pools pool).mixing system.contexts
  queue : Guards ContextPc.OwnsQueue system.shared.consumerGate
    system.contexts

theorem initial_owned : Owned System.initial := by
  constructor
  · intro pool
    exact ExclusiveFlag.guards_of_outside fun context hinside => hinside
  · exact ExclusiveFlag.guards_of_outside fun context hinside => hinside

/-- A field of the pools which a write does not change. -/
theorem setPool_field
    {β : Type} (field : Pool → β) {pool : ℕ} {content : Pool}
    (hfield : field content = field (shared.pools pool)) (other : ℕ) :
    field ((shared.setPool pool content).pools other) =
      field (shared.pools other) := by
  by_cases hsame : other = pool
  · subst hsame
    simp [Shared.setPool, hfield]
  · simp [Shared.setPool, hsame]

/-- Popping does not touch the gates or the pools. -/
theorem stepPop_access
    {pc : PopPc} {progress : Progress PopPc (Option Chunk)}
    {access : Access} (hpop : stepPop shared pc = (progress, access)) :
    (shared.perform access).pools = shared.pools ∧
      (shared.perform access).consumerGate = shared.consumerGate := by
  cases pc with
  | loadTail =>
      cases hpop
      exact ⟨rfl, rfl⟩
  | loadHead | read | zeroize =>
      rw [stepPop] at hpop
      split_ifs at hpop <;>
      · cases hpop
        exact ⟨rfl, rfl⟩
  | publish tail chunk =>
      cases hpop
      exact ⟨rfl, rfl⟩

/-- Neither does pushing. -/
theorem stepProducer_access
    {pc after : ProducerPc} {access : Access} {event : Option Event}
    (hproducer : stepProducer shared pc = some (after, access, event)) :
    (shared.perform access).pools = shared.pools ∧
      (shared.perform access).consumerGate = shared.consumerGate := by
  cases pc with
  | idle => cases hproducer
  | loadHead | publish =>
      cases hproducer
      exact ⟨rfl, rfl⟩
  | loadTail chunk head =>
      rw [stepProducer] at hproducer
      split_ifs at hproducer <;>
      · cases hproducer
        exact ⟨rfl, rfl⟩
  | write chunk head offset =>
      rw [stepProducer] at hproducer
      split at hproducer <;>
      · cases hproducer
        exact ⟨rfl, rfl⟩

/-- A push ends with one event and makes no other. -/
theorem stepProducer_event
    {pc after : ProducerPc} {access : Access} {event : Option Event}
    (hproducer : stepProducer shared pc = some (after, access, event)) :
    event = none ∨ event = some .full ∨
      ∃ chunk, event = some (.pushed chunk) := by
  cases pc with
  | idle => cases hproducer
  | loadHead chunk =>
      cases hproducer
      exact Or.inl rfl
  | publish chunk head =>
      cases hproducer
      exact Or.inr (Or.inr ⟨chunk, rfl⟩)
  | loadTail chunk head =>
      rw [stepProducer] at hproducer
      split_ifs at hproducer
      · cases hproducer
        exact Or.inr (Or.inl rfl)
      · cases hproducer
        exact Or.inl rfl
  | write chunk head offset =>
      rw [stepProducer] at hproducer
      split at hproducer <;>
      · cases hproducer
        exact Or.inl rfl

/-- `pop` finds the queue empty when it loads the head. -/
theorem stepPop_none
    {pc : PopPc} {access : Access}
    (hpop : stepPop shared pc = (.done none, access)) :
    (∃ tail, pc = .loadHead tail) ∧ access = .nothing := by
  cases pc with
  | loadTail | publish => cases hpop
  | loadHead tail =>
      rw [stepPop] at hpop
      split_ifs at hpop
      · cases hpop
        exact ⟨⟨tail, rfl⟩, rfl⟩
      · cases hpop
  | read | zeroize =>
      rw [stepPop] at hpop
      split_ifs at hpop <;> cases hpop

/-- `pop` returns a chunk when it publishes the tail. -/
theorem stepPop_some
    {pc : PopPc} {chunk : Chunk} {access : Access}
    (hpop : stepPop shared pc = (.done (some chunk), access)) :
    ∃ tail, pc = .publish tail chunk ∧ access = .storeTail (tail + 1) := by
  cases pc with
  | loadTail => cases hpop
  | loadHead | read | zeroize =>
      rw [stepPop] at hpop
      split_ifs at hpop <;> cases hpop
  | publish tail other =>
      cases hpop
      exact ⟨tail, rfl, rfl⟩

/-- An owner does not touch the other pools. -/
theorem OwnerStep.pools_of_ne
    {pc after : OwnerPc} {access : Access} {event : Option PoolEvent}
    (howner : OwnerStep sha384 shared call pc after access event)
    {pool : ℕ} (hne : pool ≠ call.pool) :
    (shared.perform access).pools pool = shared.pools pool := by
  cases howner with
  | gateTaken | gateEntered | spinning | mixLoaded | gateReleased | starved
  | seeded | snapshotLoaded => rfl
  | popping batch hpop | queueEmpty batch hpop | popped batch hpop =>
      rw [(stepPop_access hpop).1]
  | mixLocked | absorbed | mixUnlocked | counted | snapshotLocked
  | squeezed | commitLocked | advanced | committed =>
      exact Function.update_of_ne hne _ _

theorem OwnerStep.mixing
    {pc after : OwnerPc} {access : Access} {event : Option PoolEvent}
    (howner : OwnerStep sha384 shared call pc after access event)
    (pool : ℕ) :
    ((shared.perform access).pools pool).mixing =
      (shared.pools pool).mixing := by
  cases howner with
  | gateTaken | gateEntered | spinning | mixLoaded | gateReleased | starved
  | seeded | snapshotLoaded => rfl
  | popping batch hpop | queueEmpty batch hpop | popped batch hpop =>
      rw [(stepPop_access hpop).1]
  | mixLocked | absorbed | mixUnlocked | counted | snapshotLocked
  | squeezed | commitLocked | advanced | committed =>
      exact setPool_field Pool.mixing (by rfl) pool

theorem afterMix_not_ownsQueue (call : Call) :
    ¬ (ContextPc.own call (afterMix call)).OwnsQueue := by
  cases call with
  | mixEntropy | extractEntropy => exact fun hinside => hinside

theorem extracting_not_ownsQueue
    (call : Call) (out : Bytes) (offset : ℕ) :
    ¬ (ContextPc.own call (extracting out offset)).OwnsQueue := by
  rw [extracting]
  split_ifs <;> exact fun hinside => hinside

theorem OwnerStep.queue
    {pc after : OwnerPc} {access : Access} {event : Option PoolEvent}
    {contexts : ℕ → ContextPc}
    (howner : OwnerStep sha384 shared call pc after access event)
    (hpc : contexts context = .own call pc)
    (hguards : Guards ContextPc.OwnsQueue shared.consumerGate contexts) :
    Guards ContextPc.OwnsQueue (shared.perform access).consumerGate
      (Function.update contexts context (.own call after)) := by
  have hbefore : (contexts context).OwnsQueue ↔
      (ContextPc.own call pc).OwnsQueue := by rw [hpc]
  cases howner with
  | gateTaken htaken =>
      apply hguards.move
      rw [hbefore]
      exact iff_of_false (afterMix_not_ownsQueue call) id
  | gateEntered hfree =>
      rw [hfree] at hguards
      exact hguards.enter trivial
  | popping batch hpop | queueEmpty batch hpop | popped batch hpop =>
      rw [(stepPop_access hpop).2]
      exact hguards.move hbefore.symm
  | gateReleased =>
      exact hguards.leave (hbefore.2 trivial) (afterMix_not_ownsQueue call)
  | seeded | committed =>
      apply hguards.move
      rw [hbefore]
      exact iff_of_false (extracting_not_ownsQueue call _ _) id
  | spinning | mixLocked | mixLoaded | absorbed | mixUnlocked | counted
  | starved | snapshotLocked | snapshotLoaded | squeezed | commitLocked
  | advanced => exact hguards.move hbefore.symm

theorem moveContext_setMixing_self
    (pc : ContextPc) (pool : ℕ) (value : Bool) (event : Option Event) :
    ((((system.moveContext context pc (.setMixing pool value)).emit
      event).shared.pools pool).mixing) = value := by
  simp [System.moveContext, System.emit, Shared.perform, Shared.setPool]

theorem moveContext_setMixing_of_ne
    {pc : ContextPc} {pool other : ℕ} {value : Bool} {event : Option Event}
    (hne : other ≠ pool) :
    ((((system.moveContext context pc (.setMixing pool value)).emit
      event).shared.pools other).mixing) =
        (system.shared.pools other).mixing := by
  simp [System.moveContext, System.emit, Shared.perform, Shared.setPool, hne]

theorem SystemStep.keeps_owned
    {action : Action} (hstep : SystemStep sha384 system action next)
    (howned : Owned system) :
    Owned next := by
  cases hstep with
  | pushing chunk hidle => exact ⟨howned.pool, howned.queue⟩
  | @produced pc access event hproducer =>
      obtain ⟨hpools, hgate⟩ := stepProducer_access hproducer
      constructor
      · intro pool
        change Guards _ ((system.shared.perform access).pools pool).mixing _
        rw [hpools]
        exact howned.pool pool
      · change Guards _ (system.shared.perform access).consumerGate _
        rw [hgate]
        exact howned.queue
  | called context call hpc | refused context call hpc =>
      constructor
      · intro pool
        apply (howned.pool pool).move
        rw [hpc]
        exact Iff.rfl
      · apply howned.queue.move
        rw [hpc]
        exact Iff.rfl
  | entered context call hpc hfree =>
      constructor
      · intro pool
        by_cases hsame : pool = call.pool
        · subst hsame
          have hguards := howned.pool call.pool
          rw [hfree] at hguards
          rw [moveContext_setMixing_self]
          exact hguards.enter rfl
        · rw [moveContext_setMixing_of_ne hsame]
          apply (howned.pool pool).move
          rw [hpc]
          exact iff_of_false (Ne.symm hsame) id
      · apply howned.queue.move
        rw [hpc]
        exact Iff.rfl
  | @owned context call pc after access event hpc howner =>
      constructor
      · intro pool
        change Guards _ ((system.shared.perform access).pools pool).mixing _
        rw [howner.mixing]
        apply (howned.pool pool).move
        rw [hpc]
        exact Iff.rfl
      · exact howner.queue hpc howned.queue
  | left context call result out hpc =>
      constructor
      · intro pool
        by_cases hsame : pool = call.pool
        · subst hsame
          rw [moveContext_setMixing_self]
          apply (howned.pool call.pool).leave _ id
          rw [hpc]
          exact rfl
        · rw [moveContext_setMixing_of_ne hsame]
          apply (howned.pool pool).move
          rw [hpc]
          exact iff_of_false id (Ne.symm hsame)
      · apply howned.queue.move
        rw [hpc]
        exact Iff.rfl

end Entropy
end ShawnCore
