import ShawnCore.EntropyOwnership

/-!
# The states of a pool form one chain

A snapshot of a pool is taken and used by the owner of its operation gate, so
it is still the state of the pool when the owner writes an update of it or hands
out a block.  The block of a position is handed out before the position is left,
and the owner leaves it before it hands out the next one.
-/

namespace ShawnCore
namespace Entropy

open ByteBlocks
open StateChain (Snapshot Link History Outputs)

variable {sha384 : Bytes → Block 48} {shared : Shared} {system next : System}
  {context pool : ℕ} {call : Call}

/-- The two ways in which the state of a pool is replaced. -/
inductive Update where
  | absorb (batch : List Chunk)
  | advance

def Update.apply (sha384 : Bytes → Block 48) :
    Update → PoolState → PoolState
  | .absorb batch => Entropy.absorb sha384 batch
  | .advance => nextState sha384

/-- The write to the pool which an event records. -/
def Event.link? (pool : ℕ) : Event → Option (Link PoolState Update)
  | .acted _ other (.absorbed source batch result) =>
      if other = pool then some ⟨source, .absorb batch, result⟩ else none
  | .acted _ other (.advanced source result) =>
      if other = pool then some ⟨source, .advance, result⟩ else none
  | _ => none

/-- The block of the pool which an event records, with the snapshot it was
computed from. -/
def Event.output? (pool : ℕ) :
    Event → Option (Snapshot PoolState × Block 48)
  | .acted _ other (.squeezed source block) =>
      if other = pool then some (source, block) else none
  | _ => none

/-- The writes to the pool, oldest first. -/
def links (pool : ℕ) (transcript : List Event) :
    List (Link PoolState Update) :=
  transcript.filterMap (Event.link? pool)

/-- The blocks of the pool, oldest first. -/
def outputs (pool : ℕ) (transcript : List Event) :
    List (Snapshot PoolState × Block 48) :=
  transcript.filterMap (Event.output? pool)

/-- The state of a new pool. -/
def emptyState : PoolState :=
  Pool.new.state

/-- The snapshot which the owner of a pool is going to use. -/
def OwnerPc.snapshot? : OwnerPc → Option (Snapshot PoolState)
  | .mix (.store _ snapshot) => some snapshot
  | .extract _ (.unlockSnapshot _ snapshot) => some snapshot
  | .extract _ (.lockCommit _ snapshot) => some snapshot
  | .extract _ (.commit _ snapshot) => some snapshot
  | _ => none

/-- The owner has handed out the block of the current position. -/
def OwnerPc.Committing : OwnerPc → Prop
  | .extract _ (.lockCommit _ _) => True
  | .extract _ (.commit _ _) => True
  | _ => False

/-- The block of the pool's current position has been handed out. -/
def HandedOut (system : System) (pool : ℕ) : Prop :=
  ∃ context call pc, system.contexts context = .own call pc ∧
    call.pool = pool ∧ pc.Committing

/-- The states and the blocks of a pool follow one chain. -/
structure PoolChained
    (sha384 : Bytes → Block 48) (system : System) (pool : ℕ) : Prop where
  history : History (Update.apply sha384) emptyState
    (links pool system.transcript) (system.shared.pools pool).snapshot
  handed : Outputs (outputBlock sha384) emptyState
    (links pool system.transcript) (system.shared.pools pool).snapshot
    (HandedOut system pool) (outputs pool system.transcript)

structure Chained (sha384 : Bytes → Block 48) (system : System) : Prop where
  pools : ∀ pool, PoolChained sha384 system pool
  fresh : ∀ context call pc snapshot,
    system.contexts context = .own call pc →
      pc.snapshot? = some snapshot →
        snapshot = (system.shared.pools call.pool).snapshot

theorem initial_chained : Chained sha384 System.initial := by
  constructor
  · exact fun pool => ⟨.nil, .nil⟩
  · intro context call pc snapshot hpc
    cases hpc

/-! ## Steps without a write or a block -/

theorem links_emit
    (pool : ℕ) (transcript : List Event) (event : Option Event) :
    links pool (transcript ++ event.toList) =
      links pool transcript ++ (event.bind (Event.link? pool)).toList :=
  filterMap_emit _ _ _

theorem outputs_emit
    (pool : ℕ) (transcript : List Event) (event : Option Event) :
    outputs pool (transcript ++ event.toList) =
      outputs pool transcript ++
        (event.bind (Event.output? pool)).toList :=
  filterMap_emit _ _ _

/-- The event records neither a write to the pool nor a block of it. -/
structure Silent (pool : ℕ) (event : Option Event) : Prop where
  link : event.bind (Event.link? pool) = none
  output : event.bind (Event.output? pool) = none

theorem Silent.links_eq
    {event : Option Event} (hsilent : Silent pool event)
    (transcript : List Event) :
    links pool (transcript ++ event.toList) = links pool transcript := by
  rw [links_emit, hsilent.link, Option.toList_none, List.append_nil]

theorem Silent.outputs_eq
    {event : Option Event} (hsilent : Silent pool event)
    (transcript : List Event) :
    outputs pool (transcript ++ event.toList) = outputs pool transcript := by
  rw [outputs_emit, hsilent.output, Option.toList_none, List.append_nil]

/-- An event of another pool is silent. -/
theorem silent_of_ne
    {other : ℕ} (hne : other ≠ pool) (context : ℕ) (event : PoolEvent) :
    Silent pool (some (.acted context other event)) := by
  cases event with
  | popped chunk => exact ⟨rfl, rfl⟩
  | absorbed source batch result => exact ⟨if_neg hne, rfl⟩
  | squeezed source block => exact ⟨rfl, if_neg hne⟩
  | advanced source result => exact ⟨if_neg hne, rfl⟩

theorem perform_snapshot
    (shared : Shared) {access : Access}
    (hkeep : ∀ state, access ≠ .storeState pool state) :
    ((shared.perform access).pools pool).snapshot =
      (shared.pools pool).snapshot := by
  cases access with
  | nothing | storeByte | storeHead | storeTail | setConsumerGate => rfl
  | setMixing target | setLocked target | addReseedCount target =>
      by_cases hsame : pool = target
      · subst hsame
        simp [Shared.perform, Shared.setPool, Pool.snapshot]
      · simp [Shared.perform, Shared.setPool, hsame]
  | storeState target state =>
      have hne : pool ≠ target := fun hsame => hkeep state (hsame ▸ rfl)
      simp [Shared.perform, Shared.setPool, hne]

theorem poolChained_of
    {written : List (Link PoolState Update)}
    {blocks : List (Snapshot PoolState × Block 48)}
    {current : Snapshot PoolState}
    (hlinks : links pool next.transcript = written)
    (houtputs : outputs pool next.transcript = blocks)
    (hcurrent : (next.shared.pools pool).snapshot = current)
    (hhistory : History (Update.apply sha384) emptyState written current)
    (hhanded : Outputs (outputBlock sha384) emptyState written current
      (HandedOut next pool) blocks) :
    PoolChained sha384 next pool := by
  subst hlinks houtputs hcurrent
  exact ⟨hhistory, hhanded⟩

/-- A step which is silent about a pool keeps its chain. -/
theorem PoolChained.keep
    (hpool : PoolChained sha384 system pool) {event : Option Event}
    (hshared : (next.shared.pools pool).snapshot =
      (system.shared.pools pool).snapshot)
    (htranscript : next.transcript = system.transcript ++ event.toList)
    (hsilent : Silent pool event)
    (hused : HandedOut system pool → HandedOut next pool) :
    PoolChained sha384 next pool := by
  apply poolChained_of _ _ hshared hpool.history (hpool.handed.mono hused)
  · rw [htranscript, hsilent.links_eq]
  · rw [htranscript, hsilent.outputs_eq]

/-- The block stays handed out while its owner is not moving on. -/
theorem HandedOut.move
    {pc : ContextPc} {access : Access} {event : Option Event}
    (hhanded : HandedOut system pool)
    (hcommitting : ∀ call owner,
      system.contexts context = .own call owner → call.pool = pool →
        owner.Committing →
          ∃ after, pc = .own call after ∧ after.Committing) :
    HandedOut ((system.moveContext context pc access).emit event) pool := by
  obtain ⟨other, call, owner, hpc, hpool, hcommit⟩ := hhanded
  by_cases hsame : other = context
  · rw [hsame] at hpc
    obtain ⟨after, hafter, hcommit⟩ := hcommitting call owner hpc hpool
      hcommit
    refine ⟨context, call, after, ?_, hpool, hcommit⟩
    rw [moved_contexts_self]
    exact hafter
  · refine ⟨other, call, owner, ?_, hpool, hcommit⟩
    rw [moved_contexts_of_ne hsame]
    exact hpc

/-- A context which does not own a pool before or after moves. -/
theorem Chained.move
    {pc : ContextPc} {access : Access} {event : Option Event}
    (hchained : Chained sha384 system)
    (hkeep : ∀ pool state, access ≠ .storeState pool state)
    (hsilent : ∀ pool, Silent pool event)
    (hbefore : ∀ call owner, system.contexts context = .own call owner →
      ¬ owner.Committing)
    (hafter : ∀ call owner, pc = .own call owner →
      owner.snapshot? = none) :
    Chained sha384 ((system.moveContext context pc access).emit event) := by
  constructor
  · intro pool
    apply (hchained.pools pool).keep
      (perform_snapshot system.shared (hkeep pool)) rfl (hsilent pool)
    intro hhanded
    apply hhanded.move
    intro call owner hpc _ hcommit
    exact absurd hcommit (hbefore call owner hpc)
  · intro other call owner snapshot hpc hsnapshot
    by_cases hsame : other = context
    · rw [hsame, moved_contexts_self] at hpc
      rw [hafter call owner hpc] at hsnapshot
      cases hsnapshot
    · rw [moved_contexts_of_ne hsame] at hpc
      refine Eq.trans ?_ (perform_snapshot _ (hkeep call.pool)).symm
      exact hchained.fresh other call owner snapshot hpc hsnapshot

theorem stepProducer_silent
    {pc after : ProducerPc} {access : Access} {event : Option Event}
    (hproducer : stepProducer shared pc = some (after, access, event))
    (pool : ℕ) : Silent pool event := by
  rcases stepProducer_event hproducer with rfl | rfl | ⟨chunk, rfl⟩
  · exact ⟨rfl, rfl⟩
  · exact ⟨rfl, rfl⟩
  · exact ⟨rfl, rfl⟩

/-- The producer moves. -/
theorem Chained.produce
    (hchained : Chained sha384 system) (event : Option Event)
    (hpools : next.shared.pools = system.shared.pools)
    (hcontexts : next.contexts = system.contexts)
    (htranscript : next.transcript = system.transcript ++ event.toList)
    (hsilent : ∀ pool, Silent pool event) : Chained sha384 next := by
  constructor
  · intro pool
    apply (hchained.pools pool).keep _ htranscript (hsilent pool)
    · rintro ⟨context, call, pc, hpc, hhanded⟩
      exact ⟨context, call, pc, hcontexts ▸ hpc, hhanded⟩
    · rw [hpools]
  · rw [hcontexts, hpools]
    exact hchained.fresh

/-! ## Steps of the owner -/

/-- The owner of a pool acts on it.  Nothing changes for the other pools and
for the other contexts. -/
theorem Chained.act
    {pc after : OwnerPc} {access : Access} {event : Option PoolEvent}
    (hchained : Chained sha384 system) (howned : Owned system)
    (hpc : system.contexts context = .own call pc)
    (hkeep : ∀ pool, pool ≠ call.pool →
      ∀ state, access ≠ .storeState pool state)
    (hown : PoolChained sha384
      ((system.moveContext context (.own call after) access).emit
        (event.map (.acted context call.pool))) call.pool)
    (hfresh : ∀ snapshot, after.snapshot? = some snapshot →
      snapshot = ((system.shared.perform access).pools
        call.pool).snapshot) :
    Chained sha384
      ((system.moveContext context (.own call after) access).emit
        (event.map (.acted context call.pool))) := by
  constructor
  · intro pool
    by_cases hpool : pool = call.pool
    · rw [hpool]
      exact hown
    · apply (hchained.pools pool).keep
        (perform_snapshot system.shared (hkeep pool hpool)) rfl
      · cases event with
        | none => exact ⟨rfl, rfl⟩
        | some event => exact silent_of_ne (Ne.symm hpool) context event
      · intro hhanded
        apply hhanded.move
        intro other owner hother hsame
        rw [hpc] at hother
        cases hother
        exact absurd hsame.symm hpool
  · intro other otherCall owner snapshot hother hsnapshot
    by_cases hsame : other = context
    · rw [hsame, moved_contexts_self] at hother
      cases hother
      exact hfresh snapshot hsnapshot
    · rw [moved_contexts_of_ne hsame] at hother
      have hne : otherCall.pool ≠ call.pool := by
        intro hpool
        apply hsame
        apply (howned.pool call.pool).unique
        · rw [hother]
          exact hpool
        · rw [hpc]
          exact rfl
      refine Eq.trans ?_ (perform_snapshot _ (hkeep _ hne)).symm
      exact hchained.fresh other otherCall owner snapshot hother hsnapshot

/-- While its owner is not committing, the block of the current position has
not been handed out. -/
theorem not_handedOut
    (howned : Owned system) {pc : OwnerPc}
    (hpc : system.contexts context = .own call pc)
    (hcommit : ¬ pc.Committing) : ¬ HandedOut system call.pool := by
  rintro ⟨other, otherCall, otherPc, hother, hpool, hcommitting⟩
  have hsame : other = context := by
    apply (howned.pool call.pool).unique
    · rw [hother]
      exact hpool
    · rw [hpc]
      exact rfl
  rw [hsame, hpc] at hother
  cases hother
  exact hcommit hcommitting

/-- The owner moves without a write or a block. -/
theorem Chained.rest
    {pc after : OwnerPc} {access : Access} {event : Option PoolEvent}
    (hchained : Chained sha384 system) (howned : Owned system)
    (hpc : system.contexts context = .own call pc)
    (hkeep : ∀ pool state, access ≠ .storeState pool state)
    (hsilent : Silent call.pool (event.map (.acted context call.pool)))
    (hcommitting : pc.Committing → after.Committing)
    (hfresh : ∀ snapshot, after.snapshot? = some snapshot →
      snapshot = (system.shared.pools call.pool).snapshot) :
    Chained sha384
      ((system.moveContext context (.own call after) access).emit
        (event.map (.acted context call.pool))) := by
  have hsame := perform_snapshot system.shared (hkeep call.pool)
  apply hchained.act howned hpc fun pool _ => hkeep pool
  · apply (hchained.pools call.pool).keep hsame rfl hsilent
    intro hhanded
    apply hhanded.move
    intro other owner hother _ hcommit
    rw [hpc] at hother
    cases hother
    exact ⟨after, rfl, hcommitting hcommit⟩
  · intro snapshot hsnapshot
    rw [hsame]
    exact hfresh snapshot hsnapshot

/-- The owner hands out the block of the current position. -/
theorem Chained.squeeze
    {pc after : OwnerPc} {snapshot : Snapshot PoolState}
    (hchained : Chained sha384 system) (howned : Owned system)
    (hpc : system.contexts context = .own call pc)
    (hbefore : ¬ pc.Committing)
    (hsnapshot : pc.snapshot? = some snapshot)
    (hkept : after.snapshot? = some snapshot) (hafter : after.Committing) :
    Chained sha384
      ((system.moveContext context (.own call after)
        (.setLocked call.pool false)).emit
        ((some (.squeezed snapshot
          (outputBlock sha384 snapshot.state))).map
            (.acted context call.pool))) := by
  have hcurrent := hchained.fresh context call pc snapshot hpc hsnapshot
  have hkeep : ∀ pool state,
      Access.setLocked call.pool false ≠ .storeState pool state := by
    intro pool state hsame
    cases hsame
  have hsame := perform_snapshot system.shared (hkeep call.pool)
  have hpool := hchained.pools call.pool
  have hhanded : ∀ event, HandedOut
      ((system.moveContext context (.own call after)
        (.setLocked call.pool false)).emit event) call.pool := fun event =>
    ⟨context, call, after, moved_contexts_self _ _ _ _ event, rfl, hafter⟩
  rw [hcurrent]
  apply hchained.act howned hpc fun pool _ => hkeep pool
  · apply poolChained_of _ _ hsame hpool.history
      (hpool.handed.hand_out hpool.history
        (not_handedOut howned hpc hbefore) (hhanded _))
    · refine (links_emit call.pool system.transcript _).trans ?_
      exact List.append_nil _
    · refine (outputs_emit call.pool system.transcript _).trans ?_
      simp only [Option.map_some, Option.bind_some, Event.output?, if_true,
        Option.toList_some]
  · intro other hother
    rw [hkept] at hother
    cases hother
    rw [hsame]
    exact hcurrent

/-- The owner writes an update of its snapshot. -/
theorem Chained.write
    {pc after : OwnerPc} {snapshot : Snapshot PoolState} {event : PoolEvent}
    (hchained : Chained sha384 system) (update : Update)
    (howned : Owned system)
    (hpc : system.contexts context = .own call pc)
    (hsnapshot : pc.snapshot? = some snapshot)
    (hafter : after.snapshot? = none)
    (hlink : (Event.acted context call.pool event).link? call.pool =
      some ⟨snapshot, update, update.apply sha384 snapshot.state⟩)
    (houtput : (Event.acted context call.pool event).output? call.pool =
      none) :
    Chained sha384
      ((system.moveContext context (.own call after)
        (.storeState call.pool (update.apply sha384 snapshot.state))).emit
        ((some event).map (.acted context call.pool))) := by
  have hcurrent := hchained.fresh context call pc snapshot hpc hsnapshot
  have hpool := hchained.pools call.pool
  have hwritten : ((system.shared.perform
      (.storeState call.pool (update.apply sha384 snapshot.state))).pools
        call.pool).snapshot =
      ⟨update.apply sha384 snapshot.state, snapshot.position + 1⟩ := by
    rw [hcurrent]
    simp [Shared.perform, Shared.setPool, Pool.snapshot]
  apply hchained.act howned hpc
  · intro pool hne state hsame
    cases hsame
    exact hne rfl
  · rw [hcurrent] at hlink hwritten ⊢
    apply poolChained_of _ _ hwritten (hpool.history.snoc update)
      (hpool.handed.extend _ _)
    · refine (links_emit call.pool system.transcript _).trans ?_
      simp only [Option.map_some, Option.bind_some, hlink,
        Option.toList_some]
    · refine (outputs_emit call.pool system.transcript _).trans ?_
      simp only [Option.map_some, Option.bind_some, houtput,
        Option.toList_none, List.append_nil]
  · intro other hother
    rw [hafter] at hother
    cases hother

theorem afterMix_snapshot? (call : Call) :
    (afterMix call).snapshot? = none := by
  cases call with
  | mixEntropy | extractEntropy => rfl

theorem afterPops_snapshot? (batch : List Chunk) :
    (OwnerPc.mix (afterPops batch)).snapshot? = none := by
  cases batch with
  | nil | cons => rfl

theorem nextPop_snapshot? (batch : List Chunk) :
    (OwnerPc.mix (nextPop batch)).snapshot? = none := by
  rw [nextPop]
  split_ifs
  · rfl
  · exact afterPops_snapshot? batch

theorem extracting_snapshot? (out : Bytes) (offset : ℕ) :
    (extracting out offset).snapshot? = none := by
  rw [extracting]
  split_ifs <;> rfl

theorem stepPop_keeps_states
    {pc : PopPc} {progress : Progress PopPc (Option Chunk)}
    {access : Access} (hpop : stepPop shared pc = (progress, access)) :
    ∀ pool state, access ≠ .storeState pool state := by
  rintro pool state rfl
  cases pc with
  | loadTail | publish => cases hpop
  | loadHead | read | zeroize =>
      rw [stepPop] at hpop
      split_ifs at hpop <;> cases hpop

theorem OwnerStep.chained
    {pc after : OwnerPc} {access : Access} {event : Option PoolEvent}
    (hchained : Chained sha384 system) (howned : Owned system)
    (hpc : system.contexts context = .own call pc)
    (howner : OwnerStep sha384 system.shared call pc after access event) :
    Chained sha384
      ((system.moveContext context (.own call after) access).emit
        (event.map (.acted context call.pool))) := by
  cases howner with
  | popping batch hpop =>
      apply hchained.rest howned hpc (stepPop_keeps_states hpop) ⟨rfl, rfl⟩
        False.elim
      intro snapshot hsnapshot
      cases hsnapshot
  | queueEmpty batch hpop =>
      apply hchained.rest howned hpc (stepPop_keeps_states hpop) ⟨rfl, rfl⟩
        False.elim
      intro snapshot hsnapshot
      rw [afterPops_snapshot?] at hsnapshot
      cases hsnapshot
  | popped batch hpop =>
      apply hchained.rest howned hpc (stepPop_keeps_states hpop) ⟨rfl, rfl⟩
        False.elim
      intro snapshot hsnapshot
      rw [nextPop_snapshot?] at hsnapshot
      cases hsnapshot
  | absorbed batch snapshot =>
      exact hchained.write (.absorb batch) howned hpc rfl rfl (if_pos rfl)
        rfl
  | advanced out offset snapshot =>
      exact hchained.write .advance howned hpc rfl rfl (if_pos rfl) rfl
  | squeezed out offset snapshot =>
      exact hchained.squeeze howned hpc id rfl rfl trivial
  | gateTaken | gateReleased =>
      apply hchained.rest howned hpc (by simp) ⟨rfl, rfl⟩ False.elim
      intro snapshot hsnapshot
      rw [afterMix_snapshot?] at hsnapshot
      cases hsnapshot
  | seeded | committed =>
      apply hchained.rest howned hpc (by simp) ⟨rfl, rfl⟩ False.elim
      intro snapshot hsnapshot
      rw [extracting_snapshot?] at hsnapshot
      cases hsnapshot
  | mixLoaded | snapshotLoaded =>
      apply hchained.rest howned hpc (by simp) ⟨rfl, rfl⟩ False.elim
      intro snapshot hsnapshot
      cases hsnapshot
      rfl
  | gateEntered | mixLocked | mixUnlocked | counted | starved
  | snapshotLocked =>
      apply hchained.rest howned hpc (by simp) ⟨rfl, rfl⟩ False.elim
      intro snapshot hsnapshot
      cases hsnapshot
  | commitLocked =>
      refine hchained.rest howned hpc (by simp) ⟨rfl, rfl⟩ ?_ ?_
      · exact fun _ => trivial
      · intro snapshot hsnapshot
        exact hchained.fresh context call _ snapshot hpc hsnapshot
  | spinning =>
      apply hchained.rest howned hpc (by simp) ⟨rfl, rfl⟩ id
      intro snapshot hsnapshot
      exact hchained.fresh context call _ snapshot hpc hsnapshot

theorem SystemStep.keeps_chained
    {action : Action} (hstep : SystemStep sha384 system action next)
    (howned : Owned system)
    (hchained : Chained sha384 system) : Chained sha384 next := by
  cases hstep with
  | pushing chunk hidle =>
      exact hchained.produce none rfl rfl
        (List.append_nil _).symm fun pool => ⟨rfl, rfl⟩
  | produced hproducer =>
      exact hchained.produce _ (stepProducer_access hproducer).1 rfl rfl
        (stepProducer_silent hproducer)
  | called context call hpc =>
      apply hchained.move (by simp) (fun pool => ⟨rfl, rfl⟩)
      · intro other owner hother
        rw [hpc] at hother
        cases hother
      · intro other owner hother
        cases hother
  | refused context call hpc htaken =>
      apply hchained.move (by simp) (fun pool => ⟨rfl, rfl⟩)
      · intro other owner hother
        rw [hpc] at hother
        cases hother
      · intro other owner hother
        cases hother
  | entered context call hpc hfree =>
      apply hchained.move (by simp) (fun pool => ⟨rfl, rfl⟩)
      · intro other owner hother
        rw [hpc] at hother
        cases hother
      · intro other owner hother
        cases hother
        rfl
  | owned context call hpc howner =>
      exact howner.chained hchained howned hpc
  | left context call result out hpc =>
      apply hchained.move (by simp) (fun pool => ⟨rfl, rfl⟩)
      · intro other owner hother
        rw [hpc] at hother
        cases hother
        exact id
      · intro other owner hother
        cases hother

end Entropy
end ShawnCore
