import ShawnCore.EntropySolo

/-!
# How far the counter of reseeds runs

The host pushes a chunk and mixes it in, again and again, without any
concurrency: the counter of reseeds of the pool goes through all of its values.
-/

namespace ShawnCore
namespace Entropy

open ByteBlocks
open RingIndex (slot)

variable {sha384 : Bytes → Block 48} {system : System} {shared : Shared}
  {items : List Chunk}

/-! ## One push -/

/-- What a push leaves. -/
def Shared.pushBack (shared : Shared) (chunk : Chunk) : Shared :=
  { shared.overwrite (slot capacity shared.head) chunk.bytes 0 with
    head := shared.head + 1 }

theorem slotBytes_overwrite (shared : Shared) (index : ℕ) (chunk : Chunk) :
    (shared.overwrite index chunk.bytes 0).slotBytes index 32 =
      chunk.bytes := by
  apply List.ext_getElem
  · simp [Shared.slotBytes]
  · intro position hleft hright
    simp [Shared.slotBytes, Shared.overwrite,
      List.getElem?_eq_getElem hright]

theorem QueueAt.pushBack
    (hqueue : QueueAt shared items) (hroom : items.length < capacity.size)
    (chunk : Chunk) :
    QueueAt (shared.pushBack chunk) (items ++ [chunk]) := by
  constructor
  · rw [List.length_append, List.length_singleton]
    exact hroom
  · rw [List.length_append, List.length_singleton, RingIndex.add_succ]
    exact congrArg (· + 1) hqueue.head_eq
  · intro offset other hother
    rcases Nat.lt_or_ge offset items.length with hold | hnew
    · rw [List.getElem?_append_left hold] at hother
      have hne : slot capacity (shared.tail + UInt64.ofNat offset) ≠
          slot capacity shared.head := by
        rw [hqueue.head_eq]
        exact RingIndex.slot_add_ne_slot_add capacity hold hroom
      have hslot := hqueue.stored offset other hother
      rw [← slotBytes_overwrite_of_ne hne chunk.bytes 0] at hslot
      exact hslot
    · have hlast : offset = items.length := by
        have hlt := (List.getElem?_eq_some_iff.1 hother).1
        rw [List.length_append, List.length_singleton] at hlt
        omega
      rw [hlast, List.getElem?_concat_length] at hother
      cases hother
      have hhead : (shared.pushBack chunk).tail + UInt64.ofNat offset =
          shared.head := by
        rw [hlast]
        exact hqueue.head_eq.symm
      rw [hhead]
      exact slotBytes_overwrite shared _ chunk

/-- The loop which writes a slot, and the publication. -/
theorem writing_run
    {chunk : Chunk} {head : UInt64} (remaining : ℕ) {offset : ℕ}
    (hoffset : offset + remaining = 32)
    (hpc : system.producer = .write chunk head offset) :
    Execution.run (step sha384) system
        (List.replicate (remaining + 2) .producer) =
      some
        { system with
          shared :=
            { system.shared.overwrite (slot capacity head) chunk.bytes offset
              with head := head + 1 }
          producer := .idle
          transcript := system.transcript ++ [.pushed chunk] } := by
  have hlength := chunk.length_eq
  induction remaining generalizing system offset with
  | zero =>
      have hend : chunk.bytes[offset]? = none := by
        rw [List.getElem?_eq_none_iff]
        omega
      rw [overwrite_of_length_le _ _ (by omega)]
      simp [List.replicate_succ, Execution.run, step, stepProducer, hpc, hend,
        System.moveProducer, System.emit, Shared.perform]
  | succ remaining ih =>
      have hlt : offset < chunk.bytes.length := by omega
      have hbyte := List.getElem?_eq_getElem hlt
      have hnext : step sha384 system .producer =
          some ((system.moveProducer (.write chunk head (offset + 1))
            (.storeByte (slot capacity head) offset chunk.bytes[offset])).emit
              none) := by
        simp only [step, stepProducer, hpc, hbyte]
      rw [Nat.add_right_comm, List.replicate_succ, Execution.run, hnext]
      dsimp only
      rw [ih (by omega) rfl]
      simp [System.moveProducer, System.emit, overwrite_storeByte _ _ hbyte]

/-- A system after a push. -/
def System.pushed (system : System) (chunk : Chunk) : System :=
  { system with
    shared := system.shared.pushBack chunk
    transcript := system.transcript ++ [.pushed chunk] }

theorem push_run
    (hidle : system.producer = .idle) (hqueue : QueueAt system.shared items)
    (hroom : items.length < capacity.size) (chunk : Chunk) :
    Execution.run (step sha384) system
        (.push chunk :: List.replicate 36 .producer) =
      some (system.pushed chunk) := by
  have hdistance :
      (system.shared.head - system.shared.tail).toNat = items.length := by
    rw [hqueue.head_eq]
    exact RingIndex.add_sub_toNat capacity hqueue.length_le
  have hstart : Execution.run (step sha384) system
      [.push chunk, .producer, .producer] =
        some { system with
          producer := .write chunk system.shared.head 0 } := by
    simp [Execution.run, step, stepProducer, hidle, System.moveProducer,
      System.emit, Shared.perform, hdistance, if_neg (not_le.2 hroom)]
  have hsplit : Action.push chunk :: List.replicate 36 Action.producer =
      [Action.push chunk, Action.producer, Action.producer] ++
        List.replicate (32 + 2) Action.producer :=
    rfl
  rw [hsplit, Execution.run_append, hstart, Option.bind_some,
    writing_run 32 rfl rfl]
  simp [System.pushed, Shared.pushBack, ← hidle]

/-! ## Reseeds -/

theorem Quiet.pushed
    {context pool : ℕ} (hquiet : Quiet system context pool items)
    (hroom : items.length < capacity.size) (chunk : Chunk) :
    Quiet (system.pushed chunk) context pool (items ++ [chunk]) where
  idle := hquiet.idle
  gateFree := hquiet.gateFree
  poolFree := hquiet.poolFree
  unlocked := hquiet.unlocked
  queue := hquiet.queue.pushBack hroom chunk

theorem initial_quiet : Quiet System.initial 0 0 [] where
  idle := rfl
  gateFree := rfl
  poolFree := rfl
  unlocked := rfl
  queue := ⟨Nat.zero_le _, rfl, fun _ _ hnone => nomatch hnone⟩

/-- What a run of the host's leaves whose calls all have returned. -/
structure Reseeded (sha384 : Bytes → Block 48) (items : List Chunk)
    (count : ℕ) (system : System) : Prop where
  reachable : ∃ schedule,
    Execution.run (step sha384) System.initial schedule = some system
  producer : system.producer = .idle
  quiet : Quiet system 0 0 items
  reseedCount : (system.shared.pools 0).reseedCount = UInt64.ofNat count

theorem Reseeded.pushed
    {count : ℕ} (hreseeded : Reseeded sha384 items count system)
    (hroom : items.length < capacity.size) (chunk : Chunk) :
    Reseeded sha384 (items ++ [chunk]) count (system.pushed chunk) where
  reachable := by
    obtain ⟨schedule, hrun⟩ := hreseeded.reachable
    refine ⟨schedule ++ .push chunk :: List.replicate 36 .producer, ?_⟩
    rw [Execution.run_append, hrun, Option.bind_some]
    exact push_run hreseeded.producer hreseeded.quiet.queue hroom chunk
  producer := hreseeded.producer
  quiet := hreseeded.quiet.pushed hroom chunk
  reseedCount := hreseeded.reseedCount

theorem Reseeded.mixed
    {count : ℕ} {chunk : Chunk}
    (hreseeded : Reseeded sha384 [chunk] count system) :
    Reseeded sha384 [] (count + 1) (system.mixed sha384 0 0 [chunk]) where
  reachable := by
    obtain ⟨schedule, hrun⟩ := hreseeded.reachable
    obtain ⟨steps, hmix, -⟩ := @mix_completes sha384 _ _ _ _ hreseeded.quiet
    refine ⟨schedule ++ .call 0 (.mixEntropy 0) ::
      List.replicate steps (.context 0), ?_⟩
    rw [Execution.run_append, hrun, Option.bind_some]
    exact hmix
  producer := hreseeded.producer
  quiet := hreseeded.quiet.mixed
  reseedCount := by
    rw [UInt64.ofNat_add, ← hreseeded.reseedCount]
    simp [System.mixed, System.returned, batchOf, maxMixChunksPerCall,
      Pool.mixed]

/-- The counter reaches every value. -/
theorem exists_reseeded (sha384 : Bytes → Block 48) (count : ℕ) :
    ∃ system, Reseeded sha384 [] count system := by
  induction count with
  | zero => exact ⟨System.initial, ⟨[], rfl⟩, rfl, initial_quiet, rfl⟩
  | succ count ih =>
      obtain ⟨system, hreseeded⟩ := ih
      exact ⟨_, (hreseeded.pushed (by decide) (Block.fill 32 0)).mixed⟩

end Entropy
end ShawnCore
