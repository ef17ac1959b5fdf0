import ShawnCore.DmaAllocations

/-!
# The wipe of a freed slot

The three loops of `free` as the list of stores they have still to make, from
an offset on.  The stores touch the bytes of the slot one after the other, each
byte once, and the 64-bit stores are aligned.  The steps of the machine make
these stores in this order, so a thread which runs alone zeroes its slot and
nothing else.
-/

namespace ShawnCore
namespace DmaPool

/-! ## The stores -/

/-- A volatile store of zero. -/
inductive WipeStore
  | byte (address : ℕ)
  | word (address : ℕ)
deriving DecidableEq

def WipeStore.addresses : WipeStore → List ℕ
  | .byte address => [address]
  | .word address => List.range' address 8

/-- All the bytes some stores touch, in order. -/
def touched (stores : List WipeStore) : List ℕ :=
  stores.flatMap WipeStore.addresses

@[simp] theorem touched_nil : touched [] = [] :=
  rfl

@[simp] theorem touched_cons (store : WipeStore) (stores : List WipeStore) :
    touched (store :: stores) = store.addresses ++ touched stores :=
  List.flatMap_cons

def trailingStores (size pointer offset : ℕ) : List WipeStore :=
  if offset < size then
    .byte (pointer + offset) :: trailingStores size pointer (offset + 1)
  else
    []
termination_by size - offset

def wordStores (size pointer offset : ℕ) : List WipeStore :=
  if offset + 8 ≤ size then
    .word (pointer + offset) :: wordStores size pointer (offset + 8)
  else
    trailingStores size pointer offset
termination_by size - offset

def leadingStores (size pointer offset : ℕ) : List WipeStore :=
  if offset < size ∧ (pointer + offset) % 8 ≠ 0 then
    .byte (pointer + offset) :: leadingStores size pointer (offset + 1)
  else
    wordStores size pointer offset
termination_by size - offset

/-- The stores which the loops have still to make. -/
def WipePhase.stores : WipePhase → ℕ → ℕ → ℕ → List WipeStore
  | .leading => leadingStores
  | .words => wordStores
  | .trailing => trailingStores

/-- The loops which are not finished. -/
def WipePhase.loops : WipePhase → ℕ
  | .leading => 3
  | .words => 2
  | .trailing => 1

/-- The stores of the wipe of a slot. -/
def wipeStores (layout : Layout) (base slot : ℕ) : List WipeStore :=
  leadingStores layout.size (base + slot * layout.size) 0

theorem touched_trailingStores (size pointer offset : ℕ) :
    touched (trailingStores size pointer offset) =
      List.range' (pointer + offset) (size - offset) := by
  fun_induction trailingStores size pointer offset with
  | case1 offset hoffset ih =>
      have hcount : size - offset = size - (offset + 1) + 1 := by omega
      rw [touched_cons, ih, hcount, List.range'_succ]
      rfl
  | case2 offset hoffset =>
      have hcount : size - offset = 0 := by omega
      rw [hcount]
      rfl

theorem touched_wordStores (size pointer offset : ℕ) :
    touched (wordStores size pointer offset) =
      List.range' (pointer + offset) (size - offset) := by
  fun_induction wordStores size pointer offset with
  | case1 offset hoffset ih =>
      have hcount : size - offset = 8 + (size - (offset + 8)) := by omega
      rw [touched_cons, ih, hcount, WipeStore.addresses, ← Nat.add_assoc,
        List.range'_append_1]
  | case2 offset hoffset => exact touched_trailingStores size pointer offset

theorem touched_leadingStores (size pointer offset : ℕ) :
    touched (leadingStores size pointer offset) =
      List.range' (pointer + offset) (size - offset) := by
  fun_induction leadingStores size pointer offset with
  | case1 offset hoffset ih =>
      have hcount : size - offset = size - (offset + 1) + 1 := by omega
      rw [touched_cons, ih, hcount, List.range'_succ]
      rfl
  | case2 offset hoffset => exact touched_wordStores size pointer offset

/-- Every byte of the slot is touched once, and no other byte is. -/
theorem touched_wipeStores (layout : Layout) (base slot : ℕ) :
    touched (wipeStores layout base slot) =
      List.range' (base + slot * layout.size) layout.size := by
  rw [wipeStores, touched_leadingStores, Nat.add_zero, Nat.sub_zero]

theorem mem_touched_wipeStores
    {layout : Layout} {base slot address : ℕ} :
    address ∈ touched (wipeStores layout base slot) ↔
      address ∈ layout.slotBytes base slot := by
  rw [touched_wipeStores, List.mem_range'_1]
  rfl

def WipeStore.Aligned : WipeStore → Prop
  | .byte _ => True
  | .word address => address % 8 = 0

theorem trailingStores_aligned
    {size pointer offset : ℕ} {store : WipeStore}
    (hstore : store ∈ trailingStores size pointer offset) :
    store.Aligned := by
  fun_induction trailingStores size pointer offset with
  | case1 offset hoffset ih =>
      rw [List.mem_cons] at hstore
      rcases hstore with rfl | hstore
      · trivial
      · exact ih hstore
  | case2 offset hoffset => cases hstore

theorem wordStores_aligned
    {size pointer offset : ℕ} {store : WipeStore}
    (halign : offset + 8 ≤ size → (pointer + offset) % 8 = 0)
    (hstore : store ∈ wordStores size pointer offset) :
    store.Aligned := by
  fun_induction wordStores size pointer offset with
  | case1 offset hoffset ih =>
      rw [List.mem_cons] at hstore
      rcases hstore with rfl | hstore
      · exact halign hoffset
      · apply ih _ hstore
        intro _
        have hfirst := halign hoffset
        omega
  | case2 offset hoffset => exact trailingStores_aligned hstore

theorem leadingStores_aligned
    {size pointer offset : ℕ} {store : WipeStore}
    (hstore : store ∈ leadingStores size pointer offset) :
    store.Aligned := by
  fun_induction leadingStores size pointer offset with
  | case1 offset hoffset ih =>
      rw [List.mem_cons] at hstore
      rcases hstore with rfl | hstore
      · trivial
      · exact ih hstore
  | case2 offset hoffset =>
      -- The first loop ends at an aligned address or at the end of the slot.
      apply wordStores_aligned _ hstore
      intro hroom
      by_contra hunaligned
      exact hoffset ⟨by omega, hunaligned⟩

/-! ## The steps -/

variable {τ : Type} [DecidableEq τ]

namespace Pool

omit [DecidableEq τ] in
/-- The memory after stores of zero. -/
@[simps] def zeroize (pool : Pool τ) (addresses : List ℕ) : Pool τ :=
  { pool with
    bytes := fun address =>
      if address ∈ addresses then 0 else pool.bytes address }

omit [DecidableEq τ] in
theorem zeroize_nil (pool : Pool τ) : pool.zeroize [] = pool := by
  simp [zeroize]

omit [DecidableEq τ] in
theorem zeroize_append (pool : Pool τ) (first second : List ℕ) :
    pool.zeroize (first ++ second) =
      (pool.zeroize first).zeroize second := by
  simp only [zeroize, List.mem_append, Pool.mk.injEq, true_and, and_true]
  funext address
  split <;> split <;> simp_all

omit [DecidableEq τ] in
theorem storeByte_zero (pool : Pool τ) (address : ℕ) :
    pool.storeByte address 0 =
      pool.zeroize (WipeStore.byte address).addresses := by
  simp only [storeByte, zeroize, WipeStore.addresses, List.mem_singleton]
  congr 1
  funext other
  rw [Function.update_apply]

omit [DecidableEq τ] in
theorem storeZeroWord_eq (pool : Pool τ) (address : ℕ) :
    pool.storeZeroWord address =
      pool.zeroize (WipeStore.word address).addresses := by
  simp only [storeZeroWord, zeroize, WipeStore.addresses, List.mem_range'_1]

theorem goto_zeroize
    (pool : Pool τ) (thread : τ) (pc : Pc) (addresses : List ℕ) :
    (pool.goto thread pc).zeroize addresses =
      (pool.zeroize addresses).goto thread pc :=
  rfl

theorem goto_goto (pool : Pool τ) (thread : τ) (first second : Pc) :
    (pool.goto thread first).goto thread second = pool.goto thread second := by
  simp [goto]

end Pool

/-- A step of the loops makes the next store, goes on to the next loop, or
leaves the last one. -/
inductive WipeStep
    (layout : Layout) (pool next : Pool τ) (thread : τ)
    (slot base offset : ℕ) (phase : WipePhase) : Prop
  | store (store : WipeStore) (after : ℕ)
      (hstores : phase.stores layout.size (base + slot * layout.size) offset =
        store :: phase.stores layout.size (base + slot * layout.size) after)
      (hnext : next = (pool.zeroize store.addresses).goto thread
        (.freeWipe slot base after phase))
  | loop (later : WipePhase) (hloops : phase.loops = later.loops + 1)
      (hstores : phase.stores layout.size (base + slot * layout.size) offset =
        later.stores layout.size (base + slot * layout.size) offset)
      (hnext : next = pool.goto thread (.freeWipe slot base offset later))
  | leave (hloops : phase.loops = 1)
      (hstores : phase.stores layout.size (base + slot * layout.size) offset =
        [])
      (hnext : next = pool.goto thread (.freeFlush slot))

theorem stepWipe_cases
    (layout : Layout) (pool : Pool τ) (thread : τ) (slot base offset : ℕ)
    (phase : WipePhase) :
    WipeStep layout pool (stepWipe layout pool thread slot base offset phase)
      thread slot base offset phase := by
  cases phase with
  | leading =>
      by_cases hmore : offset < layout.size ∧
          (base + slot * layout.size + offset) % 8 ≠ 0
      · refine .store (.byte (base + slot * layout.size + offset))
          (offset + 1) ?_ ?_
        · simp only [WipePhase.stores]
          rw [leadingStores, if_pos hmore]
        · rw [← Pool.storeByte_zero]
          simp only [stepWipe, if_pos hmore]
      · refine .loop .words rfl ?_ ?_
        · simp only [WipePhase.stores]
          rw [leadingStores, if_neg hmore]
        · simp only [stepWipe, if_neg hmore]
  | words =>
      by_cases hmore : offset + 8 ≤ layout.size
      · refine .store (.word (base + slot * layout.size + offset))
          (offset + 8) ?_ ?_
        · simp only [WipePhase.stores]
          rw [wordStores, if_pos hmore]
        · rw [← Pool.storeZeroWord_eq]
          simp only [stepWipe, if_pos hmore]
      · refine .loop .trailing rfl ?_ ?_
        · simp only [WipePhase.stores]
          rw [wordStores, if_neg hmore]
        · simp only [stepWipe, if_neg hmore]
  | trailing =>
      by_cases hmore : offset < layout.size
      · refine .store (.byte (base + slot * layout.size + offset))
          (offset + 1) ?_ ?_
        · simp only [WipePhase.stores]
          rw [trailingStores, if_pos hmore]
        · rw [← Pool.storeByte_zero]
          simp only [stepWipe, if_pos hmore]
      · refine .leave rfl ?_ ?_
        · simp only [WipePhase.stores]
          rw [trailingStores, if_neg hmore]
        · simp only [stepWipe, if_neg hmore]

theorem step_freeWipe
    {layout : Layout} {pool : Pool τ} {thread : τ} {slot base offset : ℕ}
    {phase : WipePhase}
    (hpc : pool.pc thread = .freeWipe slot base offset phase)
    (spurious : Bool) :
    step layout pool (.step thread spurious) =
      some (stepWipe layout pool thread slot base offset phase) := by
  simp only [step, hpc, stepInit, stepAllocate, stepFree]

/-- The loops end after their last store, whatever the offset and the memory
are. -/
theorem wipe_completes
    {layout : Layout} {thread : τ} {slot base : ℕ} (count : ℕ)
    {pool : Pool τ} {offset : ℕ} {phase : WipePhase}
    (hcount : count = (phase.stores layout.size
      (base + slot * layout.size) offset).length + phase.loops)
    (hpc : pool.pc thread = .freeWipe slot base offset phase) :
    Execution.run (step layout) pool
        (List.replicate count (.step thread false)) =
      some ((pool.zeroize (touched (phase.stores layout.size
        (base + slot * layout.size) offset))).goto thread
          (.freeFlush slot)) := by
  induction count generalizing pool offset phase with
  | zero =>
      have hloops : 0 < phase.loops := by
        cases phase <;> simp [WipePhase.loops]
      omega
  | succ count ih =>
      rw [List.replicate_succ, Execution.run, step_freeWipe hpc]
      dsimp only
      rcases stepWipe_cases layout pool thread slot base offset phase with
        ⟨store, after, hstores, hnext⟩ | ⟨later, hloops, hstores, hnext⟩ |
          ⟨hloops, hstores, hnext⟩
      · rw [hstores, List.length_cons] at hcount
        rw [hnext, ih (by omega) (Function.update_self _ _ _), hstores,
          touched_cons, Pool.zeroize_append, Pool.goto_zeroize,
          Pool.goto_goto]
      · rw [hstores] at hcount
        rw [hnext, ih (by omega) (Function.update_self _ _ _), hstores,
          Pool.goto_zeroize, Pool.goto_goto]
      · rw [hstores, hloops] at hcount
        have hzero : count = 0 := by
          simpa using hcount
        rw [hnext, hstores, hzero, touched_nil, Pool.zeroize_nil]
        rfl

/-- The loops of `free` for one slot: they touch its bytes in order, each one
once, with aligned 64-bit stores, and leave it zeroed and the rest of the pool
as it was. -/
structure WipesExactly
    (τ : Type) [DecidableEq τ] (layout : Layout) (base slot : ℕ) : Prop where
  touched_eq : touched (wipeStores layout base slot) =
    List.range' (base + slot * layout.size) layout.size
  aligned : ∀ store ∈ wipeStores layout base slot, store.Aligned
  completes : ∀ (pool : Pool τ) (thread : τ),
    pool.pc thread = .freeWipe slot base 0 .leading →
      Execution.run (step layout) pool
          (List.replicate ((wipeStores layout base slot).length + 3)
            (.step thread false)) =
        some ((pool.zeroize (List.range' (base + slot * layout.size)
          layout.size)).goto thread (.freeFlush slot))

theorem wipesExactly (layout : Layout) (base slot : ℕ) :
    WipesExactly τ layout base slot := by
  refine ⟨touched_wipeStores layout base slot, ?_, ?_⟩
  · intro store hstore
    exact leadingStores_aligned hstore
  · intro pool thread hpc
    rw [← touched_wipeStores]
    exact wipe_completes _ rfl hpc

end DmaPool
end ShawnCore
