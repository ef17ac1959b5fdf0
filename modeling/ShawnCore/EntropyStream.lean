import ShawnCore.EntropyReseeds
import ShawnCore.RatchetStream

/-!
# Extraction from an entropy pool as one ratcheted stream

Without concurrency `extract_entropy` mixes the oldest chunks of the queue into
the state and then reads a prefix of the stream of output blocks from there.
-/

namespace ShawnCore
namespace Entropy

open ByteBlocks
open RatchetStream (stream blocksFor)
open StateChain (Snapshot)

variable {sha384 : Bytes → Block 48} {call : Call} {shared : Shared}

/-! ## The loop of `extract_entropy` -/

/-- The first output blocks from a state. -/
def outputStream (sha384 : Bytes → Block 48) (state : PoolState)
    (blocks : ℕ) : Bytes :=
  stream (fun state => (outputBlock sha384 state).bytes) (nextState sha384)
    state blocks

/-- A pool after some output blocks. -/
def Pool.ratcheted (sha384 : Bytes → Block 48) (blocks : ℕ) (pool : Pool) :
    Pool :=
  { pool with
    state := (nextState sha384)^[blocks] pool.state
    writes := pool.writes + blocks }

def ratchetSnapshot (sha384 : Bytes → Block 48)
    (snapshot : Snapshot PoolState) : Snapshot PoolState :=
  ⟨nextState sha384 snapshot.state, snapshot.position + 1⟩

/-- The events of one output block. -/
def blockEvents (sha384 : Bytes → Block 48)
    (snapshot : Snapshot PoolState) : List PoolEvent :=
  [.squeezed snapshot (outputBlock sha384 snapshot.state),
    .advanced snapshot (nextState sha384 snapshot.state)]

def extractEvents (sha384 : Bytes → Block 48) (pool : Pool) (blocks : ℕ) :
    List PoolEvent :=
  stream (blockEvents sha384) (ratchetSnapshot sha384) pool.snapshot blocks

theorem ratcheted_zero (pool : Pool) : pool.ratcheted sha384 0 = pool := rfl

theorem ratcheted_ratcheted (pool : Pool) (first second : ℕ) :
    (pool.ratcheted sha384 first).ratcheted sha384 second =
      pool.ratcheted sha384 (first + second) := by
  simp only [Pool.ratcheted, ← Function.iterate_add_apply, Nat.add_assoc,
    Nat.add_comm second]

theorem extractEvents_succ (pool : Pool) (blocks : ℕ) :
    extractEvents sha384 pool (blocks + 1) =
      blockEvents sha384 pool.snapshot ++
        extractEvents sha384 (pool.ratcheted sha384 1) blocks :=
  RatchetStream.stream_succ ..

theorem stepOwner_extract (out : Bytes) (pc : ExtractPc) :
    stepOwner sha384 shared call (.extract out pc) =
      (.running (resume (stepExtract sha384 shared call.pool out pc).1
          (stepExtract sha384 shared call.pool out pc).2.1),
        (stepExtract sha384 shared call.pool out pc).2.2) := by
  rw [stepOwner]
  rcases stepExtract sha384 shared call.pool out pc
    with ⟨written, progress, access, event⟩
  cases progress with
  | running next => rfl
  | done result => rfl

theorem length_copyBlock
    {out : Bytes} {offset : ℕ} (hmore : offset < out.length)
    (block : Block 48) :
    (copyBlock out offset block).length = out.length := by
  have hblock := block.length_eq
  simp only [copyBlock, copyLen, List.length_append, List.length_take,
    List.length_drop, hblock]
  omega

section Steps

variable (out : Bytes) (offset : ℕ) (snapshot : Snapshot PoolState)

theorem stepOwner_lockSnapshot
    (hfree : (shared.pools call.pool).locked = false) :
    stepOwner sha384 shared call (.extract out (.lockSnapshot offset)) =
      (.running (.extract out (.loadSnapshot offset)),
        .setLocked call.pool true, none) := by
  simp [stepOwner, stepExtract, stepLock, hfree]

theorem stepOwner_lockCommit
    (hfree : (shared.pools call.pool).locked = false) :
    stepOwner sha384 shared call (.extract out (.lockCommit offset snapshot)) =
      (.running (.extract out (.commit offset snapshot)),
        .setLocked call.pool true, none) := by
  simp [stepOwner, stepExtract, stepLock, hfree]

theorem stepOwner_unlockCommit :
    stepOwner sha384 shared call (.extract out (.unlockCommit offset)) =
      (.running (extracting out (offset + copyLen out offset)),
        .setLocked call.pool false, none) := by
  rw [stepOwner_extract]
  simp only [stepExtract, resume_nextBlock]

end Steps

/-- One output block. -/
theorem block_run
    {out : Bytes} {offset : ℕ}
    (hfree : (shared.pools call.pool).locked = false)
    (hmore : offset < out.length) :
    OwnerRun sha384 call shared (extracting out offset)
      (shared.setPool call.pool
        ((shared.pools call.pool).ratcheted sha384 1))
      (extracting
        (copyBlock out offset
          (outputBlock sha384 (shared.pools call.pool).state))
        (offset + copyLen out offset))
      (blockEvents sha384 (shared.pools call.pool).snapshot) := by
  have hlocked : ((shared.perform (.setLocked call.pool true)).pools
      call.pool).snapshot = (shared.pools call.pool).snapshot := by
    simp [Shared.perform, Pool.snapshot]
  have hcopied : copyLen
      (copyBlock out offset (outputBlock sha384 (shared.pools call.pool).state))
        offset = copyLen out offset := by
    rw [copyLen, length_copyBlock hmore, copyLen]
  rw [extracting, if_pos hmore]
  apply OwnerRun.quiet (stepOwner_lockSnapshot out offset hfree)
  apply OwnerRun.quiet rfl
  rw [hlocked]
  apply OwnerRun.eventful rfl
  apply OwnerRun.quiet (stepOwner_lockCommit _ _ _ (by simp [Shared.perform]))
  apply OwnerRun.eventful rfl
  apply OwnerRun.quiet (stepOwner_unlockCommit _ _)
  change OwnerRun sha384 call _ (extracting (copyBlock out offset
    (outputBlock sha384 (shared.pools call.pool).state)) (offset + copyLen
      (copyBlock out offset
        (outputBlock sha384 (shared.pools call.pool).state)) offset)) _ _ _
  rw [hcopied]
  apply OwnerRun.of_eq
  simp [Shared.perform, Pool.ratcheted, Pool.snapshot, hfree]

/-- What a block and the rest of the stream leave in the buffer. -/
theorem take_copyBlock
    {out : Bytes} {offset : ℕ} (hmore : offset < out.length)
    (block : Block 48) (rest : Bytes) :
    (copyBlock out offset block).take (offset + copyLen out offset) ++
        rest.take (out.length - offset - 48) =
      out.take offset ++ (block.bytes ++ rest).take (out.length - offset) := by
  have hblock := block.length_eq
  have hfront : (out.take offset ++ block.bytes.take (copyLen out offset)).length
      = offset + copyLen out offset := by
    simp only [copyLen, List.length_append, List.length_take, hblock]
    omega
  have hlast : block.bytes.take (copyLen out offset) =
      block.bytes.take (out.length - offset) := by
    rw [copyLen, List.take_eq_take_iff, hblock]
    omega
  rw [copyBlock, List.take_append_of_le_length hfront.ge, ← hfront,
    List.take_length, hlast, List.take_append, hblock, List.append_assoc]

/-- The loop, from any of its iterations. -/
theorem blocks_run
    (blocks : ℕ) {out : Bytes} {offset : ℕ}
    (hblocks : blocksFor 48 (out.length - offset) = blocks)
    (hfree : (shared.pools call.pool).locked = false) :
    OwnerRun sha384 call shared (extracting out offset)
      (shared.setPool call.pool
        ((shared.pools call.pool).ratcheted sha384 blocks))
      (.release (.ok ()) (out.take offset ++
        (outputStream sha384 (shared.pools call.pool).state blocks).take
          (out.length - offset)))
      (extractEvents sha384 (shared.pools call.pool) blocks) := by
  induction blocks generalizing shared out offset with
  | zero =>
      have hrest : out.length - offset ≤
          blocksFor 48 (out.length - offset) * 48 :=
        RatchetStream.le_blocksFor_mul (by decide) _
      rw [hblocks, Nat.zero_mul] at hrest
      have hend : ¬ offset < out.length := by omega
      rw [extracting, if_neg hend, ratcheted_zero, setPool_self,
        List.take_of_length_le (not_lt.1 hend), Nat.le_zero.1 hrest,
        List.take_zero, List.append_nil]
      exact .refl _ _
  | succ blocks ih =>
      have hmore : offset < out.length := by
        by_contra hend
        have hrest : out.length - offset = 0 := by omega
        rw [hrest, RatchetStream.blocksFor_zero (by decide)] at hblocks
        omega
      have hfirst := @block_run sha384 call shared out offset hfree hmore
      have hleft : out.length - (offset + copyLen out offset) =
          out.length - offset - 48 := by
        rw [copyLen]
        omega
      rw [RatchetStream.blocksFor_eq_succ (by decide) (by omega),
        Nat.add_right_cancel_iff, ← hleft,
        ← length_copyBlock hmore
          (outputBlock sha384 (shared.pools call.pool).state)] at hblocks
      have hrest := @ih (shared.setPool call.pool
        ((shared.pools call.pool).ratcheted sha384 1)) _ _ hblocks
        (by simp [Pool.ratcheted, hfree])
      rw [length_copyBlock hmore, hleft, setPool_pools, setPool_setPool,
        ratcheted_ratcheted, Nat.add_comm 1, take_copyBlock hmore] at hrest
      rw [outputStream, RatchetStream.stream_succ, extractEvents_succ]
      exact hfirst.trans hrest

/-! ## Whole extractions -/

variable {system after : System} {context pool : ℕ} {items : List Chunk}

/-- The state from which an extraction reads. -/
def seedState (sha384 : Bytes → Block 48) (items : List Chunk)
    (state : PoolState) : PoolState :=
  if items = [] then state
  else absorb sha384 (items.take maxMixChunksPerCall) state

/-- A pool after the mixing of a call. -/
def System.mixedPool (sha384 : Bytes → Block 48) (system : System) (pool : ℕ)
    (items : List Chunk) : Pool :=
  (system.shared.pools pool).mixed sha384 (batchOf items)

/-- A system after an extraction. -/
def System.extracted (sha384 : Bytes → Block 48) (system : System)
    (context pool : ℕ) (out : Bytes) (items : List Chunk) : System :=
  system.returned context (.extractEntropy pool out)
    ((system.shared.mixed sha384 pool items).setPool pool
      ((system.mixedPool sha384 pool items).ratcheted sha384
        (blocksFor 48 out.length)))
    (mixEvents sha384 (system.shared.pools pool) items ++
      extractEvents sha384 (system.mixedPool sha384 pool items)
        (blocksFor 48 out.length))
    (.ok ())
    ((outputStream sha384 (system.mixedPool sha384 pool items).state
      (blocksFor 48 out.length)).take out.length)

/-- A system after an extraction which finds the counter at zero. -/
def System.starved (sha384 : Bytes → Block 48) (system : System)
    (context pool : ℕ) (out : Bytes) (items : List Chunk) : System :=
  system.returned context (.extractEntropy pool out)
    (system.shared.mixed sha384 pool items)
    (mixEvents sha384 (system.shared.pools pool) items)
    (.error .entropyStarvation) out

theorem batchOf_eq_nil : batchOf items = [] ↔ items = [] := by
  simp [batchOf, maxMixChunksPerCall]

theorem mixedPool_state (system : System) (pool : ℕ) (items : List Chunk) :
    (system.mixedPool sha384 pool items).state =
      seedState sha384 items (system.shared.pools pool).state := by
  rw [System.mixedPool, seedState]
  by_cases hnone : items = []
  · rw [if_pos hnone, batchOf_eq_nil.2 hnone]
    rfl
  · obtain ⟨chunk, rest, hbatch⟩ :=
      List.exists_cons_of_ne_nil (mt batchOf_eq_nil.1 hnone)
    rw [if_neg hnone, ← batchOf, hbatch]
    rfl

theorem stepOwner_loadReseedCount (out : Bytes) :
    stepOwner sha384 shared call (.extract out .loadReseedCount) =
      (.running
        (if (shared.pools call.pool).reseedCount = 0 then
          .release (.error .entropyStarvation) out
        else extracting out 0), .nothing, none) := by
  rw [stepOwner_extract]
  by_cases hzero : (shared.pools call.pool).reseedCount = 0
  · simp only [stepExtract, if_pos hzero, resume]
  · simp only [stepExtract, if_neg hzero, resume_nextBlock]

/-- The pool while an extraction owns it, after its mixing. -/
theorem mixed_pools_entered
    (system : System) (pool : ℕ) (items : List Chunk) :
    ((system.shared.mixed sha384 pool items).perform
        (.setMixing pool true)).pools pool =
      { system.mixedPool sha384 pool items with mixing := true } := by
  simp only [Shared.perform, setPool_pools, mixed_pools, System.mixedPool]

/-- An extraction up to its loop. -/
theorem entered_extract_run
    (sha384 : Bytes → Block 48) (hquiet : Quiet system context pool items)
    (out : Bytes) :
    OwnerRun sha384 (.extractEntropy pool out)
      (system.shared.perform (.setMixing pool true)) .acquireConsumerGate
      ((system.shared.mixed sha384 pool items).perform (.setMixing pool true))
      (if (system.mixedPool sha384 pool items).reseedCount = 0 then
        .release (.error .entropyStarvation) out
      else extracting out 0)
      (mixEvents sha384 (system.shared.pools pool) items) := by
  have hmix := @entered_mix_run sha384 (.extractEntropy pool out) _ _ _ hquiet
  have hload := OwnerRun.one (@stepOwner_loadReseedCount sha384
    (.extractEntropy pool out)
    ((system.shared.mixed sha384 pool items).perform (.setMixing pool true))
    out)
  rw [Call.pool, mixed_pools_entered] at hload
  have hrun := hmix.trans hload
  rwa [Option.toList_none, List.append_nil] at hrun

theorem extract_starves
    (hquiet : Quiet system context pool items)
    (hstarved : (system.mixedPool sha384 pool items).reseedCount = 0)
    (out : Bytes) :
    Completes sha384 system context (.extractEntropy pool out)
      (system.starved sha384 context pool out items) := by
  have hrun := entered_extract_run sha384 hquiet out
  rw [if_pos hstarved] at hrun
  rw [System.starved, ← setMixing_false (mixed_poolFree hquiet)]
  exact completes_of_run hquiet.idle hquiet.poolFree hrun

/-- The ratchet does not touch the operation gate. -/
theorem ratcheted_setMixing
    (hfree : (shared.pools pool).mixing = false) (blocks : ℕ) :
    ((shared.perform (.setMixing pool true)).setPool pool
        (((shared.perform (.setMixing pool true)).pools pool).ratcheted sha384
          blocks)).perform (.setMixing pool false) =
      shared.setPool pool ((shared.pools pool).ratcheted sha384 blocks) := by
  simp [Shared.perform, Pool.ratcheted, hfree]

theorem extract_completes
    (hquiet : Quiet system context pool items)
    (hseeded : (system.mixedPool sha384 pool items).reseedCount ≠ 0)
    (out : Bytes) :
    Completes sha384 system context (.extractEntropy pool out)
      (system.extracted sha384 context pool out items) := by
  have hrun := entered_extract_run sha384 hquiet out
  rw [if_neg hseeded] at hrun
  have hunlocked : (((system.shared.mixed sha384 pool items).perform
      (.setMixing pool true)).pools pool).locked = false := by
    simp [Shared.perform, hquiet.unlocked]
  have hblocks := @blocks_run sha384 (.extractEntropy pool out) _
    (blocksFor 48 out.length) out 0 rfl hunlocked
  rw [Call.pool] at hblocks
  have hall := @completes_of_run sha384 (.extractEntropy pool out) system
    context _ _ _ _ hquiet.idle hquiet.poolFree (hrun.trans hblocks)
  rw [Call.pool, ratcheted_setMixing (mixed_poolFree hquiet), mixed_pools,
    mixed_pools_entered] at hall
  exact hall

theorem Quiet.extracted
    (sha384 : Bytes → Block 48) (hquiet : Quiet system context pool items)
    (out : Bytes) :
    Quiet (system.extracted sha384 context pool out items) context pool
      (items.drop maxMixChunksPerCall) where
  idle := hquiet.idle
  gateFree := by
    simp [System.extracted, System.returned, Shared.mixed, Shared.setPool,
      hquiet.gateFree]
  poolFree := by
    simp [System.extracted, System.returned, Pool.ratcheted, System.mixedPool,
      hquiet.poolFree]
  unlocked := by
    simp [System.extracted, System.returned, Pool.ratcheted, System.mixedPool,
      hquiet.unlocked]
  queue :=
    have hmixed := @QueueAt.mixed sha384 _ _ hquiet.queue pool
    ⟨hmixed.length_le, hmixed.head_eq, hmixed.stored⟩

/-- A seeded pool counts as never seeded again exactly when its counter wraps. -/
theorem mixedPool_starved_iff
    (hseeded : (system.shared.pools pool).reseedCount ≠ 0) :
    (system.mixedPool sha384 pool items).reseedCount = 0 ↔
      (system.shared.pools pool).reseedCount.toNat = 2 ^ 64 - 1 ∧
        items ≠ [] := by
  rw [System.mixedPool]
  by_cases hnone : items = []
  · rw [batchOf_eq_nil.2 hnone]
    simp [Pool.mixed, hseeded, hnone]
  · obtain ⟨chunk, rest, hbatch⟩ :=
      List.exists_cons_of_ne_nil (mt batchOf_eq_nil.1 hnone)
    have hlt := (system.shared.pools pool).reseedCount.toNat_lt
    rw [hbatch, Pool.mixed, ← UInt64.toNat_inj, UInt64.toNat_add]
    simp only [UInt64.toNat_one, UInt64.toNat_zero, hnone, ne_eq,
      not_false_eq_true, and_true]
    omega

/-! ## Positions in the chain -/

/-- The number of states before the one which an output block came from. -/
def Event.squeezedAt? (pool : ℕ) : Event → Option ℕ
  | .acted _ other (.squeezed source _) =>
      if other = pool then some source.position else none
  | _ => none

/-- The positions of a pool which were used for output between two systems. -/
def usedPositions (pool : ℕ) (before after : System) : List ℕ :=
  (after.transcript.drop before.transcript.length).filterMap
    (Event.squeezedAt? pool)

theorem squeezedAt?_mixEvents (content : Pool) (items : List Chunk) :
    ((mixEvents sha384 content items).map
      (.acted context pool)).filterMap (Event.squeezedAt? pool) = [] := by
  have hpopped : ∀ batch : List Chunk,
      ((batch.map PoolEvent.popped).map (.acted context pool)).filterMap
        (Event.squeezedAt? pool) = [] := by
    intro batch
    induction batch with
    | nil => rfl
    | cons chunk rest ih => exact ih
  rw [mixEvents, List.map_append, List.filterMap_append, hpopped,
    List.nil_append]
  cases batchOf items with
  | nil => rfl
  | cons chunk rest => rfl

theorem squeezedAt?_extractEvents (content : Pool) (blocks : ℕ) :
    ((extractEvents sha384 content blocks).map
        (.acted context pool)).filterMap (Event.squeezedAt? pool) =
      List.range' content.writes blocks := by
  induction blocks generalizing content with
  | zero => rfl
  | succ blocks ih =>
      rw [extractEvents_succ, List.map_append, List.filterMap_append, ih,
        List.range'_succ]
      simp [blockEvents, Event.squeezedAt?, Pool.snapshot, Pool.ratcheted]

theorem usedPositions_returned
    (call : Call) (shared : Shared) (events : List PoolEvent)
    (result : Except CryptoError Unit) (out : Bytes) :
    usedPositions pool system
        (system.returned context call shared events result out) =
      (events.map (.acted context call.pool)).filterMap
        (Event.squeezedAt? pool) := by
  rw [usedPositions, System.returned, List.drop_left, List.filterMap_append]
  exact List.append_nil _

theorem usedPositions_extracted (out : Bytes) :
    usedPositions pool system
        (system.extracted sha384 context pool out items) =
      List.range' (system.mixedPool sha384 pool items).writes
        (blocksFor 48 out.length) := by
  rw [System.extracted, usedPositions_returned, Call.pool, List.map_append,
    List.filterMap_append, squeezedAt?_mixEvents, squeezedAt?_extractEvents,
    List.nil_append]

theorem usedPositions_starved (out : Bytes) :
    usedPositions pool system
      (system.starved sha384 context pool out items) = [] := by
  rw [System.starved, usedPositions_returned, Call.pool,
    squeezedAt?_mixEvents]

theorem le_mixedPool_writes (system : System) (pool : ℕ) (items : List Chunk) :
    (system.shared.pools pool).writes ≤
      (system.mixedPool sha384 pool items).writes := by
  rw [System.mixedPool]
  cases batchOf items with
  | nil => exact le_refl _
  | cons chunk rest => exact Nat.le_succ _

/-! ## Prefixes of the stream -/

/-- The last thing to happen is the return of an extraction. -/
def Yields (system : System) (context pool : ℕ) (out bytes : Bytes) : Prop :=
  system.transcript.getLast? =
    some (.returned context (.extractEntropy pool out) (.ok ()) bytes)

/-- An extraction mixes the oldest chunks in, reads a prefix of the stream and
leaves the pool behind the last block it has used. -/
structure StreamPrefix (sha384 : Bytes → Block 48) (context pool : ℕ)
    (out : Bytes) (items : List Chunk) (before after : System) : Prop where
  bytes : Yields after context pool out
    ((outputStream sha384
      (seedState sha384 items (before.shared.pools pool).state)
      (blocksFor 48 out.length)).take out.length)
  state : (after.shared.pools pool).state =
    (nextState sha384)^[blocksFor 48 out.length]
      (seedState sha384 items (before.shared.pools pool).state)
  quiet : Quiet after context pool (items.drop maxMixChunksPerCall)

/-- A second extraction goes on with the stream. -/
structure Continues (sha384 : Bytes → Block 48) (context pool : ℕ)
    (out : Bytes) (items : List Chunk) (before after : System) : Prop where
  /-- Whole blocks and then more are the same as all at once. -/
  join : items = [] → 48 ∣ out.length →
    ∀ second whole final atOnce,
      whole.length = out.length + second.length →
      Completes sha384 after context (.extractEntropy pool second) final →
      Completes sha384 before context (.extractEntropy pool whole) atOnce →
        ∃ front back,
          Yields after context pool out front ∧
          Yields final context pool second back ∧
          Yields atOnce context pool whole (front ++ back) ∧
          final.shared = atOnce.shared
  /-- No position of the chain is used for output twice. -/
  fresh : ∀ second final,
    Completes sha384 after context (.extractEntropy pool second) final →
      (usedPositions pool before after).Disjoint
        (usedPositions pool after final)

theorem getLast?_returned
    (call : Call) (shared : Shared) (events : List PoolEvent)
    (result : Except CryptoError Unit) (out : Bytes) :
    (system.returned context call shared events result
        out).transcript.getLast? =
      some (.returned context call result out) := by
  rw [System.returned, ← List.append_assoc]
  exact List.getLast?_concat

theorem yields_extracted (out : Bytes) :
    Yields (system.extracted sha384 context pool out items) context pool out
      ((outputStream sha384
        (seedState sha384 items (system.shared.pools pool).state)
        (blocksFor 48 out.length)).take out.length) := by
  rw [← mixedPool_state]
  exact getLast?_returned ..

theorem streamPrefix_extracted
    (hquiet : Quiet system context pool items) (out : Bytes) :
    StreamPrefix sha384 context pool out items system
      (system.extracted sha384 context pool out items) where
  bytes := yields_extracted out
  state := by
    rw [← mixedPool_state]
    simp [System.extracted, System.returned, Pool.ratcheted]
  quiet := hquiet.extracted sha384 out

/-- A second extraction only uses later positions. -/
theorem usedPositions_disjoint
    (hquiet : Quiet system context pool items) (out : Bytes)
    {second : Bytes} {final : System}
    (hsecond : Completes sha384
      (system.extracted sha384 context pool out items) context
      (.extractEntropy pool second) final) :
    (usedPositions pool system
        (system.extracted sha384 context pool out items)).Disjoint
      (usedPositions pool (system.extracted sha384 context pool out items)
        final) := by
  have hlater := hquiet.extracted sha384 out
  have hle := @le_mixedPool_writes sha384
    (system.extracted sha384 context pool out items) pool
    (items.drop maxMixChunksPerCall)
  have hwrites : ((system.extracted sha384 context pool out
      items).shared.pools pool).writes =
        (system.mixedPool sha384 pool items).writes +
          blocksFor 48 out.length := by
    simp [System.extracted, System.returned, Pool.ratcheted]
  by_cases hstarved : (System.mixedPool sha384
      (system.extracted sha384 context pool out items) pool
      (items.drop maxMixChunksPerCall)).reseedCount = 0
  · rw [(extract_starves hlater hstarved second).unique hsecond,
      usedPositions_starved]
    exact List.disjoint_nil_right _
  · rw [(extract_completes hlater hstarved second).unique hsecond,
      usedPositions_extracted, usedPositions_extracted]
    intro position hfirst hsecond
    rw [List.mem_range'_1] at hfirst hsecond
    omega

theorem mixed_nil (shared : Shared) (pool : ℕ) :
    shared.mixed sha384 pool [] = shared :=
  setPool_self ..

theorem extracted_shared (out : Bytes) :
    (system.extracted sha384 context pool out []).shared =
      system.shared.setPool pool ((system.shared.pools pool).ratcheted sha384
        (blocksFor 48 out.length)) := by
  rw [System.extracted, System.returned, mixed_nil]
  rfl

theorem extracted_reseedCount (out : Bytes) :
    ((system.extracted sha384 context pool out []).shared.pools
      pool).reseedCount = (system.shared.pools pool).reseedCount := by
  rw [extracted_shared, setPool_pools, Pool.ratcheted]

/-- Whole blocks first, with nothing to mix in. -/
theorem extracted_twice
    (hquiet : Quiet system context pool [])
    (hseeded : (system.shared.pools pool).reseedCount ≠ 0)
    {out second whole : Bytes} {final atOnce : System}
    (hdvd : 48 ∣ out.length)
    (hlength : whole.length = out.length + second.length)
    (hsecond : Completes sha384
      (system.extracted sha384 context pool out []) context
      (.extractEntropy pool second) final)
    (hwhole : Completes sha384 system context (.extractEntropy pool whole)
      atOnce) :
    ∃ front back,
      Yields (system.extracted sha384 context pool out []) context pool out
        front ∧
      Yields final context pool second back ∧
      Yields atOnce context pool whole (front ++ back) ∧
      final.shared = atOnce.shared := by
  have hlater := hquiet.extracted sha384 out
  have hstill := hseeded
  rw [← @extracted_reseedCount sha384 system context pool out] at hstill
  rw [(extract_completes hlater hstill second).unique hsecond,
    (extract_completes hquiet hseeded whole).unique hwhole]
  refine ⟨_, _, yields_extracted out, yields_extracted second, ?_, ?_⟩
  · have hbytes := @yields_extracted sha384 system context pool [] whole
    rw [hlength, outputStream, RatchetStream.take_stream_add
      (fun state => (outputBlock sha384 state).length_eq) (by decide) _ hdvd]
      at hbytes
    rw [extracted_shared, setPool_pools]
    exact hbytes
  · rw [List.drop_nil, extracted_shared, extracted_shared, extracted_shared,
      setPool_setPool, setPool_pools, ratcheted_ratcheted, hlength,
      RatchetStream.blocksFor_add (by decide) hdvd]

theorem continues_extracted
    (hquiet : Quiet system context pool items)
    (hseeded : (system.shared.pools pool).reseedCount ≠ 0) (out : Bytes) :
    Continues sha384 context pool out items system
      (system.extracted sha384 context pool out items) where
  join hnone hdvd second whole final atOnce hlength hsecond hwhole := by
    subst hnone
    exact extracted_twice hquiet hseeded hdvd hlength hsecond hwhole
  fresh second final hsecond := usedPositions_disjoint hquiet out hsecond

theorem not_yields_starved (out bytes : Bytes) :
    ¬ Yields (system.starved sha384 context pool out items) context pool out
      bytes := by
  rw [Yields, System.starved, getLast?_returned]
  simp

/-- A pool which has been seeded once. -/
def seededOnce : System :=
  { System.initial with
    shared := System.initial.shared.setPool 0
      { Pool.new with reseedCount := 1 } }

theorem seededOnce_quiet : Quiet seededOnce 0 0 [] where
  idle := rfl
  gateFree := rfl
  poolFree := rfl
  unlocked := rfl
  queue := ⟨Nat.zero_le _, rfl, fun _ _ hnone => nomatch hnone⟩

end Entropy
end ShawnCore
