import ShawnCore.DmaProgress

/-!
# Out of memory

`allocate` fails when it finds the free list empty.  A slot which is on its way
through another call is on no list, so the failure does not mean that all slots
are live; between calls it does.
-/

namespace ShawnCore
namespace DmaPool

open Execution

variable {τ : Type} [DecidableEq τ] {layout : Layout} {base : ℕ}
  {pool next : Pool τ} {free : List ℕ} {place : ℕ → Place τ} {thread : τ}

omit [DecidableEq τ] in
/-- With an empty list every slot is live or in the hands of a call. -/
theorem PoolInvariant.exhausted
    (hinv : PoolInvariant layout base pool free place)
    (hhead : headIndex pool.head = freeListEmpty) {slot : ℕ}
    (hslot : slot < layout.slots) :
    pool.IsLive slot ∨ ∃ other, (pool.pc other).held? = some slot := by
  have htop : pool.top = none := by
    rw [Pool.top, hhead]
    rfl
  have hfree : free = [] := by
    have hlinked := hinv.linked
    cases free with
    | nil => rfl
    | cons first rest =>
        rw [htop] at hlinked
        cases hlinked.1
  rcases hinv.exactlyOne hslot with ⟨hlisted, -⟩ | ⟨-, hlive, -⟩ | ⟨-, -, hheld⟩
  · rw [hfree] at hlisted
    cases hlisted
  · exact Or.inl hlive
  · exact Or.inr hheld.exists

theorem validate_ne_outOfMemory (layout : Layout) (start sizeInBytes : ℕ) :
    layout.validate start sizeInBytes ≠ .error .outOfMemory := by
  unfold Layout.validate
  split_ifs <;> simp

/-- The head of the loop of `allocate` reports the empty list only. -/
theorem allocLoop_outOfMemory
    {other : τ} {start : ℕ}
    (hreturned : (pool.allocLoop other start).transcript =
      pool.transcript ++ [.returned thread (.failed .outOfMemory)]) :
    other = thread ∧ headIndex pool.head = freeListEmpty := by
  unfold Pool.allocLoop at hreturned
  split_ifs at hreturned with hempty
  · simp only [Pool.finish_transcript, List.append_cancel_left_eq,
      List.cons.injEq, Event.returned.injEq] at hreturned
    exact ⟨hreturned.1.1, hempty⟩
  · simp at hreturned

/-- Only `allocate` reports that the pool is out of memory, and only when the
list is empty. -/
theorem step_outOfMemory
    {action : Action τ} (hstep : step layout pool action = some next)
    (hreturned : next.transcript =
      pool.transcript ++ [.returned thread (.failed .outOfMemory)]) :
    headIndex pool.head = freeListEmpty ∧ (pool.pc thread).held? = none := by
  cases action with
  | call other operation =>
      obtain ⟨-, rfl⟩ := step_call hstep
      cases operation with
      | init start sizeInBytes =>
          have hvalidate := validate_ne_outOfMemory layout start sizeInBytes
          cases hresult : layout.validate start sizeInBytes with
          | ok valid => simp [startCall, hresult] at hreturned
          | error error =>
              simp only [startCall, hresult, Pool.finish_transcript,
                List.append_cancel_left_eq, List.cons.injEq,
                Event.returned.injEq, Outcome.failed.injEq] at hreturned
              rw [hresult, hreturned.1.2] at hvalidate
              exact absurd rfl hvalidate
      | allocate => simp [startCall] at hreturned
      | free slot generation => simp [startCall] at hreturned
  | step other spurious =>
      cases hpc : pool.pc other with
      | allocHead start =>
          simp only [step, hpc, stepInit, stepAllocate,
            Option.some.injEq] at hstep
          subst next
          obtain ⟨rfl, hempty⟩ := allocLoop_outOfMemory hreturned
          exact ⟨hempty, by rw [hpc]; rfl⟩
      | allocSwap start observed nextIndex =>
          rcases step_allocSwap hpc hstep with ⟨-, rfl⟩ | rfl
          · obtain ⟨rfl, hempty⟩ := allocLoop_outOfMemory hreturned
            exact ⟨hempty, by rw [hpc]; rfl⟩
          · simp at hreturned
      | freeWipe slot start offset phase =>
          simp only [step, hpc, stepInit, stepAllocate, stepFree,
            Option.some.injEq] at hstep
          obtain ⟨bytes, after, hwipe, -⟩ :=
            stepWipe_eq layout pool other slot start offset phase
          rw [← hstep, hwipe] at hreturned
          simp at hreturned
      | idle | panicked => simp [step, hpc, stepInit, stepAllocate, stepFree]
          at hstep
      | initMemory | initOwnership | initHead | initPublish | initRelease
      | allocMemory | freeMemory | freeHead | freeNext =>
          simp only [step, hpc, stepInit, stepAllocate, stepFree,
            Option.some.injEq] at hstep
          subst next
          simp [Pool.freeLoop] at hreturned
      | _ =>
          simp only [step, hpc, stepInit, stepAllocate, stepFree] at hstep
          split_ifs at hstep <;> cases hstep <;> simp [Pool.freeLoop] at hreturned
  | hostWrite address value =>
      cases hstep
      simp at hreturned

def Pool.Quiet (pool : Pool τ) : Prop :=
  ∀ thread, pool.pc thread = .idle

theorem goto_goto (pool : Pool τ) (thread : τ) (before after : Pc) :
    (pool.goto thread before).goto thread after = pool.goto thread after := by
  simp [Pool.goto]

/-- An allocation which runs alone gets to the head of the list. -/
theorem run_allocate_reads
    (hinv : PoolInvariant layout base pool free place)
    (hidle : pool.pc thread = .idle) (rest : List (Action τ)) :
    run (step layout) pool (.call thread .allocate ::
        .step thread false :: .step thread false :: rest) =
      run (step layout) (pool.goto thread (.allocHead base)) rest := by
  simp [run, step, startCall, hidle, stepInit, stepAllocate, goto_goto,
    hinv.initialized, hinv.memory_eq]

/-- On an empty list it fails at once. -/
theorem run_allocate_fails
    (hinv : PoolInvariant layout base pool free place)
    (hquiet : pool.Quiet) (thread : τ)
    (hhead : headIndex pool.head = freeListEmpty) :
    ∃ last, run (step layout) pool
        (.call thread .allocate :: List.replicate 3 (.step thread false)) =
          some last ∧
      last.Quiet ∧
      last.transcript =
        pool.transcript ++ [.returned thread (.failed .outOfMemory)] := by
  simp only [List.replicate]
  rw [run_allocate_reads hinv (hquiet thread)]
  simp [run, step, stepInit, stepAllocate, Pool.allocLoop, hhead, Pool.Quiet,
    Function.update_apply, hquiet _]

/-- Otherwise it takes the first slot of the list. -/
theorem run_allocate_takes
    (hinv : PoolInvariant layout base pool free place)
    (hquiet : pool.Quiet) (thread : τ) {slot : ℕ}
    (htop : pool.top = some slot) :
    ∃ last, run (step layout) pool
        (.call thread .allocate :: List.replicate 7 (.step thread false)) =
          some last ∧
      last.Quiet ∧
      last.transcript = pool.transcript ++
        [.claimed thread slot (nextGeneration (pool.ownership slot)),
          .returned thread (.allocated slot
            (nextGeneration (pool.ownership slot))
            (base + slot * layout.size))] := by
  obtain ⟨hhead, rfl⟩ := slotOf_eq_some_iff.mp htop
  have hlisted := (hinv.listed _).mp (hinv.top_mem htop)
  have howned := hinv.owned _ hlisted.1
  rw [hlisted.2] at howned
  have hunset := and_allocatedBit_eq_zero howned
  simp only [List.replicate]
  rw [run_allocate_reads hinv (hquiet thread)]
  simp +contextual [run, step, stepInit, stepAllocate, Pool.allocLoop, hhead,
    hlisted.1, goto_goto, hunset, Pool.Quiet, Function.update_apply,
    hquiet _]

/-- One thread holds the only buffer when the other asks. -/
def refusal : List (Action Bool) :=
  .call false .allocate :: List.replicate 7 (.step false false) ++
    .call true .allocate :: List.replicate 3 (.step true false)

theorem refusal_within :
    RunWithin (step singleSlot) FreshSwap (Pool.new fun _ => 0)
      (initCall singleSlot false 4096 64 ++ refusal) := by
  decide

end DmaPool
end ShawnCore
