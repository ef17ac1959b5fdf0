import ShawnCore.EntropyFifo

/-!
# Calls on an entropy pool without concurrency

A context which runs alone while everybody else rests: its steps are composed
to the effects of whole pops, of the mixing of a batch and of its absorption
into the pool.
-/

namespace ShawnCore
namespace Entropy

open ByteBlocks
open RingIndex (slot)

variable {sha384 : Bytes → Block 48} {call : Call} {shared after : Shared}

/-! ## Steps of an owner in a row -/

/-- The owner of a pool takes some steps, with the events of them. -/
inductive OwnerRun (sha384 : Bytes → Block 48) (call : Call) :
    Shared → OwnerPc → Shared → OwnerPc → List PoolEvent → Prop
  | refl (shared : Shared) (pc : OwnerPc) :
      OwnerRun sha384 call shared pc shared pc []
  | step {shared final : Shared} {pc next last : OwnerPc} {access : Access}
      {event : Option PoolEvent} {events : List PoolEvent}
      (hstep : stepOwner sha384 shared call pc = (.running next, access, event))
      (hrest : OwnerRun sha384 call (shared.perform access) next final last
        events) :
      OwnerRun sha384 call shared pc final last (event.toList ++ events)

namespace OwnerRun

theorem trans
    {middle final : Shared} {pc between last : OwnerPc}
    {earlier later : List PoolEvent}
    (hfirst : OwnerRun sha384 call shared pc middle between earlier)
    (hsecond : OwnerRun sha384 call middle between final last later) :
    OwnerRun sha384 call shared pc final last (earlier ++ later) := by
  induction hfirst with
  | refl => exact hsecond
  | step hstep hrest ih =>
      rw [List.append_assoc]
      exact .step hstep (ih hsecond)

/-- A step without an event. -/
theorem quiet
    {final : Shared} {pc next last : OwnerPc} {access : Access}
    {events : List PoolEvent}
    (hstep : stepOwner sha384 shared call pc = (.running next, access, none))
    (hrest : OwnerRun sha384 call (shared.perform access) next final last
      events) :
    OwnerRun sha384 call shared pc final last events :=
  .step hstep hrest

theorem eventful
    {final : Shared} {pc next last : OwnerPc} {access : Access}
    {event : PoolEvent} {events : List PoolEvent}
    (hstep : stepOwner sha384 shared call pc =
      (.running next, access, some event))
    (hrest : OwnerRun sha384 call (shared.perform access) next final last
      events) :
    OwnerRun sha384 call shared pc final last (event :: events) :=
  .step hstep hrest

theorem of_eq {final : Shared} (hsame : shared = final) (pc : OwnerPc) :
    OwnerRun sha384 call shared pc final pc [] := by
  rw [hsame]
  exact .refl _ _

theorem one
    {pc next : OwnerPc} {access : Access} {event : Option PoolEvent}
    (hstep : stepOwner sha384 shared call pc =
      (.running next, access, event)) :
    OwnerRun sha384 call shared pc (shared.perform access) next
      event.toList := by
  have hrun := OwnerRun.step hstep (.refl _ _)
  rwa [List.append_nil] at hrun

/-- The steps of the owner are steps of the system. -/
theorem run
    {system : System} {context : ℕ} {final : Shared} {pc last : OwnerPc}
    {events : List PoolEvent}
    (hrun : OwnerRun sha384 call shared pc final last events)
    (hshared : system.shared = shared)
    (hpc : system.contexts context = .own call pc) :
    ∃ count, Execution.run (Entropy.step sha384) system
        (List.replicate count (.context context)) =
      some
        { system with
          shared := final
          contexts :=
            Function.update system.contexts context (.own call last)
          transcript := system.transcript ++
            events.map (.acted context call.pool) } := by
  induction hrun generalizing system with
  | refl shared pc =>
      refine ⟨0, ?_⟩
      simp [Execution.run, ← hpc, ← hshared]
  | step hstep hrest ih =>
      rename_i next _ access event _
      have hnext : Entropy.step sha384 system (.context context) =
          some ((system.moveContext context (.own call next) access).emit
            (event.map (.acted context call.pool))) := by
        simp only [Entropy.step, hpc, stepContext, hshared, hstep]
      obtain ⟨count, hcount⟩ := ih
        (by rw [← hshared]; rfl) (moved_contexts_self system context _ access _)
      refine ⟨count + 1, ?_⟩
      rw [List.replicate_succ, Execution.run, hnext]
      dsimp only
      rw [hcount]
      cases event with
      | none => simp [System.moveContext, System.emit]
      | some event => simp [System.moveContext, System.emit]

end OwnerRun

/-! ## One pop -/

/-- The chunks between the two counters. -/
structure QueueAt (shared : Shared) (items : List Chunk) : Prop where
  length_le : items.length ≤ capacity.size
  head_eq : shared.head = shared.tail + UInt64.ofNat items.length
  stored : ∀ offset chunk, items[offset]? = some chunk →
    shared.slotBytes (slot capacity (shared.tail + UInt64.ofNat offset)) 32 =
      chunk.bytes

/-- The bytes of a slot from an offset on are overwritten. -/
def Shared.overwrite (shared : Shared) (index : ℕ) (bytes : Bytes)
    (offset : ℕ) : Shared :=
  { shared with
    slots := Function.update shared.slots index fun position =>
      if offset ≤ position then
        bytes.getD position (shared.slots index position)
      else shared.slots index position }

theorem overwrite_of_length_le
    (shared : Shared) (index : ℕ) {bytes : Bytes} {offset : ℕ}
    (hlength : bytes.length ≤ offset) :
    shared.overwrite index bytes offset = shared := by
  have hslot : (fun position => if offset ≤ position then
      bytes.getD position (shared.slots index position)
      else shared.slots index position) = shared.slots index := by
    funext position
    split_ifs with hle
    · rw [List.getD_eq_getElem?_getD,
        List.getElem?_eq_none (hlength.trans hle), Option.getD_none]
    · rfl
  rw [Shared.overwrite, hslot, Function.update_eq_self]

theorem overwrite_storeByte
    (shared : Shared) (index : ℕ) {bytes : Bytes} {offset : ℕ} {byte : UInt8}
    (hbyte : bytes[offset]? = some byte) :
    (shared.perform (.storeByte index offset byte)).overwrite index bytes
        (offset + 1) =
      shared.overwrite index bytes offset := by
  simp only [Shared.overwrite, Shared.perform, Function.update_self,
    Function.update_idem]
  congr 2
  funext position
  by_cases hposition : position = offset
  · simp [hposition, hbyte]
  · have hle : offset + 1 ≤ position ↔ offset ≤ position := by omega
    simp [Function.update_of_ne hposition, hle]

theorem slotBytes_overwrite_of_ne
    {index other : ℕ} (hne : other ≠ index) (bytes : Bytes)
    (offset count : ℕ) :
    (shared.overwrite index bytes offset).slotBytes other count =
      shared.slotBytes other count := by
  simp [Shared.slotBytes, Shared.overwrite, hne]

/-- What a pop leaves. -/
def Shared.popFront (shared : Shared) : Shared :=
  { shared.overwrite (slot capacity shared.tail) (List.replicate 32 0) 0 with
    tail := shared.tail + 1 }

theorem QueueAt.popFront
    {chunk : Chunk} {rest : List Chunk}
    (hqueue : QueueAt shared (chunk :: rest)) :
    QueueAt shared.popFront rest := by
  have hlength := hqueue.length_le
  rw [List.length_cons] at hlength
  constructor
  · omega
  · have hhead := hqueue.head_eq
    rw [List.length_cons, ← RingIndex.succ_add] at hhead
    exact hhead
  · intro offset other hother
    have hlt := (List.getElem?_eq_some_iff.1 hother).1
    have hslot := hqueue.stored (offset + 1) other hother
    have hne : slot capacity (shared.tail + UInt64.ofNat (offset + 1)) ≠
        slot capacity shared.tail :=
      RingIndex.slot_add_ne_slot capacity (Nat.succ_pos _) (by omega)
    rw [← slotBytes_overwrite_of_ne hne (List.replicate 32 0) 0,
      ← RingIndex.succ_add] at hslot
    exact hslot

section Pop

variable {batch : List Chunk}

theorem popping
    {pc next : PopPc} {access : Access} {final : Shared} {last : OwnerPc}
    {events : List PoolEvent}
    (hpop : stepPop shared pc = (.running next, access))
    (hrest : OwnerRun sha384 call (shared.perform access)
      (.mix (.pop batch next)) final last events) :
    OwnerRun sha384 call shared (.mix (.pop batch pc)) final last events := by
  apply OwnerRun.quiet _ hrest
  simp only [stepOwner, stepMix, hpop]

theorem slotBytes_succ (shared : Shared) (index count : ℕ) :
    shared.slotBytes index (count + 1) =
      shared.slotBytes index count ++ [shared.slots index count] := by
  simp [Shared.slotBytes, List.range_succ]

/-- The loop which reads a slot. -/
theorem reading
    {tail : UInt64} {final : Shared} {last : OwnerPc}
    {events : List PoolEvent} (remaining count : ℕ)
    (hcount : count + remaining = 32)
    (hrest : OwnerRun sha384 call shared
      (.mix (.pop batch (.read tail
        (shared.slotBytes (slot capacity tail) 32)))) final last events) :
    OwnerRun sha384 call shared
      (.mix (.pop batch (.read tail
        (shared.slotBytes (slot capacity tail) count)))) final last events := by
  induction remaining generalizing count with
  | zero =>
      rw [Nat.add_zero] at hcount
      rw [hcount]
      exact hrest
  | succ remaining ih =>
      have hlength : (shared.slotBytes (slot capacity tail) count).length =
          count := by
        simp [Shared.slotBytes]
      have hmore : ¬ (shared.slotBytes (slot capacity tail) count).length =
          32 := by
        omega
      have hstep : stepPop shared
            (.read tail (shared.slotBytes (slot capacity tail) count)) =
          (.running (.read tail
            (shared.slotBytes (slot capacity tail) (count + 1))),
            .nothing) := by
        rw [stepPop, dif_neg hmore, hlength, slotBytes_succ]
      exact popping hstep (ih (count + 1) (by omega))

/-- The loop which clears a slot. -/
theorem clearing
    {tail : UInt64} {chunk : Chunk} {final : Shared} {last : OwnerPc}
    {events : List PoolEvent} (remaining offset : ℕ)
    (hoffset : offset + remaining = 32)
    (hrest : OwnerRun sha384 call
      (shared.overwrite (slot capacity tail) (List.replicate 32 0) offset)
      (.mix (.pop batch (.zeroize tail chunk 32))) final last events) :
    OwnerRun sha384 call shared
      (.mix (.pop batch (.zeroize tail chunk offset))) final last events := by
  induction remaining generalizing shared offset with
  | zero =>
      rw [Nat.add_zero] at hoffset
      rw [hoffset, overwrite_of_length_le _ _ (by simp)] at hrest
      rw [hoffset]
      exact hrest
  | succ remaining ih =>
      have hlt : offset < 32 := by omega
      have hbyte : (List.replicate 32 (0 : UInt8))[offset]? = some 0 := by
        rw [List.getElem?_replicate, if_pos hlt]
      have hstep : stepPop shared (.zeroize tail chunk offset) =
          (.running (.zeroize tail chunk (offset + 1)),
            .storeByte (slot capacity tail) offset 0) := by
        rw [stepPop, if_pos hlt]
      apply popping hstep
      apply ih (offset + 1) (by omega)
      rw [overwrite_storeByte shared _ hbyte]
      exact hrest

/-- A whole pop of the first chunk. -/
theorem popFront_run
    {chunk : Chunk} {rest : List Chunk}
    (hqueue : QueueAt shared (chunk :: rest)) :
    OwnerRun sha384 call shared (.mix (.pop batch .loadTail)) shared.popFront
      (.mix (nextPop (batch ++ [chunk]))) [.popped chunk] := by
  have hslot := hqueue.stored 0 chunk rfl
  have hzero : shared.tail + UInt64.ofNat 0 = shared.tail := by simp
  rw [hzero] at hslot
  have hsome : shared.head ≠ shared.tail := by
    intro hsame
    rw [hqueue.head_eq,
      RingIndex.add_eq_self_iff capacity hqueue.length_le] at hsame
    cases hsame
  have hread : stepPop shared (.read shared.tail chunk.bytes) =
      (.running (.zeroize shared.tail chunk 0), .nothing) := by
    rw [stepPop, dif_pos chunk.length_eq]
  have hhead : stepPop shared (.loadHead shared.tail) =
      (.running (.read shared.tail []), .nothing) := by
    rw [stepPop, if_neg hsome]
  apply popping rfl
  apply popping hhead
  apply reading 32 0 rfl
  change OwnerRun sha384 call shared (.mix (.pop batch (.read shared.tail
    (shared.slotBytes (slot capacity shared.tail) 32)))) _ _ _
  rw [hslot]
  apply popping hread
  apply clearing 32 0 rfl
  apply popping rfl
  have hpublish : stepOwner sha384
      (shared.overwrite (slot capacity shared.tail) (List.replicate 32 0) 0)
      call (.mix (.pop batch (.publish shared.tail chunk))) =
        (.running (.mix (nextPop (batch ++ [chunk]))),
          .storeTail (shared.tail + 1), some (.popped chunk)) :=
    rfl
  exact .one hpublish

/-- A pop which finds nothing. -/
theorem popNone_run
    (hqueue : QueueAt shared []) :
    OwnerRun sha384 call shared (.mix (.pop batch .loadTail)) shared
      (.mix (afterPops batch)) [] := by
  have hnone : shared.head = shared.tail := by
    rw [hqueue.head_eq]
    simp
  have hhead : stepOwner sha384 shared call
      (.mix (.pop batch (.loadHead shared.tail))) =
        (.running (.mix (afterPops batch)), .nothing, none) := by
    simp only [stepOwner, stepMix, stepPop, if_pos hnone]
  exact popping rfl (.one hhead)

end Pop

/-! ## Mixing -/

/-- What one call mixes in. -/
def batchOf (items : List Chunk) : List Chunk :=
  items.take maxMixChunksPerCall

/-- The loop of `mix_entropy_under_gate`. -/
theorem popping_run
    {items : List Chunk} (budget : ℕ) {batch : List Chunk}
    (hbudget : batch.length + budget = maxMixChunksPerCall)
    (hqueue : QueueAt shared items) :
    OwnerRun sha384 call shared (.mix (nextPop batch))
      (Shared.popFront^[(items.take budget).length] shared)
      (.mix (afterPops (batch ++ items.take budget)))
      ((items.take budget).map .popped) := by
  induction budget generalizing shared batch items with
  | zero =>
      have hfull : ¬ batch.length < maxMixChunksPerCall := by omega
      rw [nextPop, if_neg hfull, List.take_zero, List.append_nil]
      exact .refl _ _
  | succ budget ih =>
      have hmore : batch.length < maxMixChunksPerCall := by omega
      rw [nextPop, if_pos hmore]
      cases items with
      | nil =>
          rw [List.take_nil, List.append_nil]
          exact popNone_run hqueue
      | cons chunk rest =>
          have hlength : (batch ++ [chunk]).length + budget =
              maxMixChunksPerCall := by
            rw [List.length_append, List.length_singleton]
            omega
          have hrest := ih hlength hqueue.popFront
          rw [List.append_assoc] at hrest
          exact (popFront_run hqueue).trans hrest

theorem QueueAt.drop
    {items : List Chunk} (hqueue : QueueAt shared items) (count : ℕ) :
    QueueAt (Shared.popFront^[(items.take count).length] shared)
      (items.drop count) := by
  induction count generalizing shared items with
  | zero => exact hqueue
  | succ count ih =>
      cases items with
      | nil => exact hqueue
      | cons chunk rest => exact ih hqueue.popFront

@[simp] theorem popFront_iterate_pools (shared : Shared) (count : ℕ) :
    (Shared.popFront^[count] shared).pools = shared.pools := by
  induction count generalizing shared with
  | zero => rfl
  | succ count ih => exact ih shared.popFront

@[simp] theorem popFront_iterate_consumerGate (shared : Shared) (count : ℕ) :
    (Shared.popFront^[count] shared).consumerGate = shared.consumerGate := by
  induction count generalizing shared with
  | zero => rfl
  | succ count ih => exact ih shared.popFront

/-- What an absorption leaves of a pool. -/
def Pool.mixed (sha384 : Bytes → Block 48) (batch : List Chunk)
    (pool : Pool) : Pool :=
  match batch with
  | [] => pool
  | chunk :: rest =>
      { pool with
        state := absorb sha384 (chunk :: rest) pool.state
        reseedCount := pool.reseedCount + 1
        writes := pool.writes + 1 }

/-- The events of an absorption. -/
def absorbEvents (sha384 : Bytes → Block 48) (pool : Pool) :
    List Chunk → List PoolEvent
  | [] => []
  | chunk :: rest =>
      [.absorbed pool.snapshot (chunk :: rest)
        (absorb sha384 (chunk :: rest) pool.state)]

@[simp] theorem setPool_pools (shared : Shared) (pool : ℕ) (content : Pool) :
    (shared.setPool pool content).pools pool = content :=
  Function.update_self ..

@[simp] theorem setPool_setPool
    (shared : Shared) (pool : ℕ) (first second : Pool) :
    (shared.setPool pool first).setPool pool second =
      shared.setPool pool second := by
  simp [Shared.setPool]

theorem setPool_self (shared : Shared) (pool : ℕ) :
    shared.setPool pool (shared.pools pool) = shared := by
  simp [Shared.setPool]

theorem absorb_run
    (hfree : (shared.pools call.pool).locked = false) (batch : List Chunk) :
    OwnerRun sha384 call shared (.mix (afterPops batch))
      (shared.setPool call.pool ((shared.pools call.pool).mixed sha384 batch))
      (.mix .release) (absorbEvents sha384 (shared.pools call.pool) batch) := by
  cases batch with
  | nil =>
      rw [Pool.mixed, setPool_self]
      exact .refl _ _
  | cons chunk rest =>
      have hlock : stepOwner sha384 shared call (.mix (.lock (chunk :: rest))) =
          (.running (.mix (.load (chunk :: rest))),
            .setLocked call.pool true, none) := by
        simp only [stepOwner, stepMix, stepLock, hfree]
        rfl
      apply OwnerRun.quiet hlock
      apply OwnerRun.quiet rfl
      have hstate : ((shared.perform (.setLocked call.pool true)).pools
          call.pool).snapshot = (shared.pools call.pool).snapshot := by
        simp [Shared.perform, Pool.snapshot]
      rw [hstate]
      apply OwnerRun.eventful rfl
      apply OwnerRun.quiet rfl
      apply OwnerRun.quiet rfl
      apply OwnerRun.of_eq
      simp [Shared.perform, Pool.mixed, Pool.snapshot, hfree]

theorem popFront_iterate_setConsumerGate
    (shared : Shared) (value : Bool) (count : ℕ) :
    Shared.popFront^[count] (shared.perform (.setConsumerGate value)) =
      (Shared.popFront^[count] shared).perform (.setConsumerGate value) := by
  have hcomm : Function.Commute
      (fun shared : Shared => shared.perform (.setConsumerGate value))
      Shared.popFront :=
    fun _ => rfl
  exact (hcomm.iterate_right count shared).symm

theorem popFront_iterate_setPool
    (shared : Shared) (pool : ℕ) (content : Pool) (count : ℕ) :
    Shared.popFront^[count] (shared.setPool pool content) =
      (Shared.popFront^[count] shared).setPool pool content := by
  have hcomm : Function.Commute
      (fun shared : Shared => shared.setPool pool content) Shared.popFront :=
    fun _ => rfl
  exact (hcomm.iterate_right count shared).symm

/-- What `mix_entropy_under_gate` leaves. -/
def Shared.mixed (sha384 : Bytes → Block 48) (pool : ℕ) (items : List Chunk)
    (shared : Shared) : Shared :=
  (Shared.popFront^[(batchOf items).length] shared).setPool pool
    ((shared.pools pool).mixed sha384 (batchOf items))

@[simp] theorem mixed_pools (shared : Shared) (pool : ℕ) (items : List Chunk) :
    (shared.mixed sha384 pool items).pools pool =
      (shared.pools pool).mixed sha384 (batchOf items) :=
  setPool_pools ..

@[simp] theorem mixed_mixing (pool : Pool) (batch : List Chunk) :
    (pool.mixed sha384 batch).mixing = pool.mixing := by
  cases batch with
  | nil => rfl
  | cons chunk rest => rfl

@[simp] theorem mixed_locked (pool : Pool) (batch : List Chunk) :
    (pool.mixed sha384 batch).locked = pool.locked := by
  cases batch with
  | nil => rfl
  | cons chunk rest => rfl

/-- Mixing does not touch the operation gate. -/
theorem mixed_setMixing
    (shared : Shared) (pool : ℕ) (items : List Chunk) (value : Bool) :
    (shared.perform (.setMixing pool value)).mixed sha384 pool items =
      (shared.mixed sha384 pool items).perform (.setMixing pool value) := by
  have hpool : Pool.mixed sha384 (batchOf items)
      { shared.pools pool with mixing := value } =
        { (shared.pools pool).mixed sha384 (batchOf items) with
          mixing := value } := by
    cases batchOf items with
    | nil => rfl
    | cons chunk rest => rfl
  simp only [Shared.mixed, Shared.perform, popFront_iterate_setPool,
    setPool_setPool, setPool_pools, hpool]

theorem QueueAt.mixed
    {items : List Chunk} (hqueue : QueueAt shared items) (pool : ℕ) :
    QueueAt (shared.mixed sha384 pool items)
      (items.drop maxMixChunksPerCall) :=
  have hdrop := hqueue.drop maxMixChunksPerCall
  ⟨hdrop.length_le, hdrop.head_eq, hdrop.stored⟩

def mixEvents (sha384 : Bytes → Block 48) (pool : Pool) (items : List Chunk) :
    List PoolEvent :=
  (batchOf items).map .popped ++ absorbEvents sha384 pool (batchOf items)

/-- The whole of `mix_entropy_under_gate`. -/
theorem mix_run
    {items : List Chunk} (hgate : shared.consumerGate = false)
    (hfree : (shared.pools call.pool).locked = false)
    (hqueue : QueueAt shared items) :
    OwnerRun sha384 call shared .acquireConsumerGate
      (shared.mixed sha384 call.pool items) (afterMix call)
      (mixEvents sha384 (shared.pools call.pool) items) := by
  have hacquire : stepOwner sha384 shared call .acquireConsumerGate =
      (.running (.mix (nextPop [])), .setConsumerGate true, none) := by
    simp only [stepOwner, hgate]
    rfl
  have hinside : QueueAt (shared.perform (.setConsumerGate true)) items :=
    ⟨hqueue.length_le, hqueue.head_eq, hqueue.stored⟩
  have hpops : OwnerRun sha384 call (shared.perform (.setConsumerGate true))
      (.mix (nextPop []))
      ((Shared.popFront^[(batchOf items).length] shared).perform
        (.setConsumerGate true))
      (.mix (afterPops (batchOf items))) ((batchOf items).map .popped) := by
    rw [← popFront_iterate_setConsumerGate]
    exact popping_run maxMixChunksPerCall rfl hinside
  have hpools : ((Shared.popFront^[(batchOf items).length] shared).perform
      (.setConsumerGate true)).pools = shared.pools :=
    popFront_iterate_pools ..
  rw [← hpools] at hfree
  have habsorb := @absorb_run sha384 call _ hfree (batchOf items)
  rw [hpools] at habsorb
  have hrelease : OwnerRun sha384 call
      (((Shared.popFront^[(batchOf items).length] shared).perform
        (.setConsumerGate true)).setPool call.pool
          ((shared.pools call.pool).mixed sha384 (batchOf items)))
      (.mix .release) (shared.mixed sha384 call.pool items) (afterMix call)
      [] := by
    apply OwnerRun.quiet rfl
    apply OwnerRun.of_eq
    simp [Shared.mixed, Shared.perform, Shared.setPool, hgate]
  have hrun := hpops.trans (habsorb.trans hrelease)
  rw [List.append_nil] at hrun
  exact .quiet hacquire hrun

/-! ## Whole calls -/

/-- Nobody is inside the queue or the pool. -/
structure Quiet (system : System) (context pool : ℕ) (items : List Chunk) :
    Prop where
  idle : system.contexts context = .idle
  gateFree : system.shared.consumerGate = false
  poolFree : (system.shared.pools pool).mixing = false
  unlocked : (system.shared.pools pool).locked = false
  queue : QueueAt system.shared items

/-- A context calls and takes every step up to its return. -/
def Completes (sha384 : Bytes → Block 48) (system : System) (context : ℕ)
    (call : Call) (final : System) : Prop :=
  ∃ count, Execution.run (step sha384) system
      (.call context call :: List.replicate count (.context context)) =
        some final ∧
    final.contexts context = .idle

theorem run_idle
    {system final : System} {context count : ℕ}
    (hidle : system.contexts context = .idle)
    (hrun : Execution.run (step sha384) system
      (List.replicate count (.context context)) = some final) :
    final = system := by
  cases count with
  | zero => exact (Option.some.inj hrun).symm
  | succ count =>
      simp [List.replicate_succ, Execution.run, step, hidle, stepContext]
        at hrun

/-- A call completes in one way. -/
theorem Completes.unique
    {system first second : System} {context : ℕ}
    (hfirst : Completes sha384 system context call first)
    (hsecond : Completes sha384 system context call second) :
    second = first := by
  obtain ⟨count, hcount, hidle⟩ := hfirst
  obtain ⟨other, hother, hdone⟩ := hsecond
  rcases Nat.le_total count other with hle | hle
  · obtain ⟨more, rfl⟩ := Nat.exists_eq_add_of_le hle
    rw [List.replicate_add, ← List.cons_append, Execution.run_append, hcount]
      at hother
    exact run_idle hidle hother
  · obtain ⟨more, rfl⟩ := Nat.exists_eq_add_of_le hle
    rw [List.replicate_add, ← List.cons_append, Execution.run_append, hother]
      at hcount
    exact (run_idle hdone hcount).symm

theorem Completes.iff_eq
    {system first : System} {context : ℕ}
    (hfirst : Completes sha384 system context call first) (other : System) :
    Completes sha384 system context call other ↔ other = first := by
  constructor
  · exact hfirst.unique
  · rintro rfl
    exact hfirst

/-- A system after a call. -/
def System.returned (system : System) (context : ℕ) (call : Call)
    (shared : Shared) (events : List PoolEvent)
    (result : Except CryptoError Unit) (out : Bytes) : System :=
  { system with
    shared := shared
    transcript := system.transcript ++ (.called context call ::
      events.map (.acted context call.pool) ++
        [.returned context call result out]) }

/-- A system whose context has got the operation gate. -/
def System.entered (system : System) (context : ℕ) (call : Call) : System :=
  { system with
    shared := system.shared.perform (.setMixing call.pool true)
    contexts := Function.update system.contexts context
      (.own call .acquireConsumerGate)
    transcript := system.transcript ++ [.called context call] }

theorem run_entered
    {system : System} {context : ℕ}
    (hidle : system.contexts context = .idle)
    (hmixing : (system.shared.pools call.pool).mixing = false) :
    Execution.run (step sha384) system
        [.call context call, .context context] =
      some (system.entered context call) := by
  simp [Execution.run, step, hidle, stepContext, System.moveContext,
    System.emit, hmixing, Shared.perform, System.entered]

theorem completes_of_run
    {system : System} {context : ℕ} {final : Shared}
    {result : Except CryptoError Unit} {out : Bytes} {events : List PoolEvent}
    (hidle : system.contexts context = .idle)
    (hmixing : (system.shared.pools call.pool).mixing = false)
    (hrun : OwnerRun sha384 call
      (system.shared.perform (.setMixing call.pool true)) .acquireConsumerGate
      final (.release result out) events) :
    Completes sha384 system context call
      (system.returned context call
        (final.perform (.setMixing call.pool false)) events result out) := by
  obtain ⟨count, hcount⟩ := hrun.run
    (rfl : (system.entered context call).shared = _)
    (Function.update_self context _ system.contexts)
  have hsplit : Action.call context call ::
        List.replicate (count + 2) (Action.context context) =
      [Action.call context call, Action.context context] ++
        List.replicate count (Action.context context) ++
        [Action.context context] := by
    rw [List.replicate_succ', List.replicate_succ]
    simp
  refine ⟨count + 2, ?_, hidle⟩
  rw [hsplit, Execution.run_append, Execution.run_append,
    run_entered hidle hmixing, Option.bind_some, hcount]
  simp [Execution.run, step, stepContext, stepOwner, System.moveContext,
    System.emit, System.entered, System.returned, ← hidle]

/-- A call up to the end of its mixing. -/
theorem entered_mix_run
    {system : System} {context : ℕ} {items : List Chunk}
    (hquiet : Quiet system context call.pool items) :
    OwnerRun sha384 call (system.shared.perform (.setMixing call.pool true))
      .acquireConsumerGate
      ((system.shared.mixed sha384 call.pool items).perform
        (.setMixing call.pool true))
      (afterMix call)
      (mixEvents sha384 (system.shared.pools call.pool) items) := by
  have hunlocked : ((system.shared.perform (.setMixing call.pool true)).pools
      call.pool).locked = false := by
    simp [Shared.perform, hquiet.unlocked]
  have hinside : QueueAt (system.shared.perform (.setMixing call.pool true))
      items :=
    ⟨hquiet.queue.length_le, hquiet.queue.head_eq, hquiet.queue.stored⟩
  have hgate : (system.shared.perform
      (.setMixing call.pool true)).consumerGate = false :=
    hquiet.gateFree
  have hrun := @mix_run sha384 call _ items hgate hunlocked hinside
  rw [mixed_setMixing] at hrun
  have hevents : mixEvents sha384 ((system.shared.perform
      (.setMixing call.pool true)).pools call.pool) items =
        mixEvents sha384 (system.shared.pools call.pool) items := by
    simp only [mixEvents, Shared.perform, setPool_pools]
    cases batchOf items with
    | nil => rfl
    | cons chunk rest => rfl
  rwa [hevents] at hrun

theorem setMixing_false
    {pool : ℕ} (hfree : (shared.pools pool).mixing = false) :
    (shared.perform (.setMixing pool true)).perform (.setMixing pool false) =
      shared := by
  have hsame : { shared.pools pool with mixing := false } =
      shared.pools pool := by
    rw [← hfree]
  simp only [Shared.perform, setPool_setPool, setPool_pools, hsame,
    setPool_self]

/-- A system after `mix_entropy`. -/
def System.mixed (sha384 : Bytes → Block 48) (system : System)
    (context pool : ℕ) (items : List Chunk) : System :=
  system.returned context (.mixEntropy pool)
    (system.shared.mixed sha384 pool items)
    (mixEvents sha384 (system.shared.pools pool) items) (.ok ()) []

theorem mixed_poolFree
    {system : System} {context pool : ℕ} {items : List Chunk}
    (hquiet : Quiet system context pool items) :
    ((system.shared.mixed sha384 pool items).pools pool).mixing = false := by
  rw [mixed_pools, mixed_mixing, hquiet.poolFree]

theorem mix_completes
    {system : System} {context pool : ℕ} {items : List Chunk}
    (hquiet : Quiet system context pool items) :
    Completes sha384 system context (.mixEntropy pool)
      (system.mixed sha384 context pool items) := by
  rw [System.mixed, ← setMixing_false (mixed_poolFree hquiet)]
  exact completes_of_run hquiet.idle hquiet.poolFree (entered_mix_run hquiet)

theorem Quiet.mixed
    {system : System} {context pool : ℕ} {items : List Chunk}
    (hquiet : Quiet system context pool items) :
    Quiet (system.mixed sha384 context pool items) context pool
      (items.drop maxMixChunksPerCall) where
  idle := hquiet.idle
  gateFree := by
    simp [System.mixed, System.returned, Shared.mixed, Shared.setPool,
      hquiet.gateFree]
  poolFree := by
    simp [System.mixed, System.returned, hquiet.poolFree]
  unlocked := by
    simp [System.mixed, System.returned, hquiet.unlocked]
  queue := hquiet.queue.mixed pool

end Entropy
end ShawnCore
