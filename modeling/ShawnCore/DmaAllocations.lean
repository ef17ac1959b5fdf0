import ShawnCore.DmaExclusivity
import ShawnCore.DmaPoolInit
import Mathlib.Order.CompletePartialOrder

/-!
# Allocations of the DMA pool

A call of `init` that runs alone completes and puts every slot on the free
list.  From there on, in every interleaving of calls of `allocate` and `free`,
each slot has exactly one place, claims and releases of a slot alternate, and
live allocations have disjoint bytes inside the registered region.
-/

namespace ShawnCore
namespace DmaPool

variable {τ : Type} [DecidableEq τ] {layout : Layout} {base : ℕ} {thread : τ}

/-! ## A completed initialization -/

/-- The pool after one call of `init` which ran alone. -/
def Pool.initialized
    (layout : Layout) (thread : τ) (base : ℕ) (bytes : ℕ → UInt8) : Pool τ where
  memory := base
  head := packHead 0 0
  next index :=
    if index + 1 < layout.slots then UInt64.ofNat (index + 1)
    else freeListEmpty.toUInt64
  ownership _ := 0
  isInitialized := true
  isInitializing := false
  bytes := bytes
  pc _ := .idle
  headUpdates := 0
  readAt _ := 0
  transcript := [.returned thread .initialized]

def initCall
    (layout : Layout) (thread : τ) (base sizeInBytes : ℕ) : List (Action τ) :=
  .call thread (.init base sizeInBytes) ::
    List.replicate (2 * layout.slots + 7) (.step thread false)

/-- `init` has stored the entries below `index`. -/
def Pool.filling
    (layout : Layout) (thread : τ) (base : ℕ) (bytes : ℕ → UInt8)
    (index : ℕ) : Pool τ where
  memory := base
  head := packHead 0 0
  next slot :=
    if slot < index ∧ slot + 1 < layout.slots then UInt64.ofNat (slot + 1)
    else freeListEmpty.toUInt64
  ownership _ := 0
  isInitialized := false
  isInitializing := true
  bytes := bytes
  pc := Function.update (fun _ => .idle) thread (.initNext index)
  headUpdates := 0
  readAt _ := 0
  transcript := []

theorem filling_next
    {bytes : ℕ → UInt8} {index : ℕ} (hindex : index < layout.slots) :
    Execution.run (step layout) (Pool.filling layout thread base bytes index)
        [.step thread false, .step thread false] =
      some (Pool.filling layout thread base bytes (index + 1)) := by
  simp only [Execution.run, step, stepInit, Pool.filling, Pool.goto_pc,
    Function.update_self, if_pos hindex, Option.some.injEq]
  ext slot
  · rfl
  · rfl
  · by_cases hslot : slot = index
    · subst hslot
      simp
    · have hlt : slot < index ↔ slot < index + 1 := by omega
      simp [Function.update_of_ne hslot, hlt]
  · by_cases hslot : slot = index
    · simp [hslot]
    · simp [Function.update_of_ne hslot]
  · rfl
  · rfl
  · rfl
  · by_cases hthread : slot = thread
    · simp [hthread]
    · simp [Function.update_of_ne hthread]
  · rfl
  · rfl
  · rfl

theorem filling_all
    {bytes : ℕ → UInt8} (remaining index : ℕ)
    (htotal : index + remaining = layout.slots) :
    Execution.run (step layout) (Pool.filling layout thread base bytes index)
        (List.replicate (2 * remaining) (.step thread false)) =
      some (Pool.filling layout thread base bytes layout.slots) := by
  induction remaining generalizing index with
  | zero =>
      have hindex : index = layout.slots := by omega
      rw [hindex]
      rfl
  | succ remaining ih =>
      have hindex : index < layout.slots := by omega
      have hsplit : List.replicate (2 * (remaining + 1))
          (Action.step thread false) =
            [Action.step thread false, Action.step thread false] ++
              List.replicate (2 * remaining) (Action.step thread false) := by
        rw [Nat.mul_add, Nat.add_comm, List.replicate_add]
        rfl
      rw [hsplit, Execution.run_append, filling_next hindex]
      exact ih (index + 1) (by omega)

theorem initCall_start
    {bytes : ℕ → UInt8} {sizeInBytes : ℕ}
    (hvalid : layout.validate base sizeInBytes = .ok ()) :
    Execution.run (step layout) (Pool.new bytes)
        [.call thread (.init base sizeInBytes), .step thread false,
          .step thread false, .step thread false] =
      some (Pool.filling layout thread base bytes 0) := by
  simp only [Execution.run, step, Pool.new, if_true, startCall, hvalid,
    stepInit, Pool.goto_pc, Pool.goto_isInitialized, Pool.goto_isInitializing,
    Function.update_self, Bool.false_eq_true, if_false, Option.some.injEq]
  ext slot
  · rfl
  · rfl
  · simp [Pool.filling]
  · rfl
  · rfl
  · rfl
  · rfl
  · by_cases hthread : slot = thread
    · simp [hthread, Pool.filling]
    · simp [Function.update_of_ne hthread, Pool.filling]
  · rfl
  · rfl
  · rfl

theorem initCall_end (bytes : ℕ → UInt8) :
    Execution.run (step layout)
        (Pool.filling layout thread base bytes layout.slots)
        (List.replicate 4 (.step thread false)) =
      some (Pool.initialized layout thread base bytes) := by
  simp only [List.replicate, Execution.run, step, Pool.filling, stepInit,
    Nat.lt_irrefl, if_false, Pool.goto_pc, Function.update_self,
    Option.some.injEq]
  ext slot
  · rfl
  · rfl
  · have hlt : slot < layout.slots ∧ slot + 1 < layout.slots ↔
        slot + 1 < layout.slots := by omega
    simp [Pool.initialized, hlt]
  · rfl
  · rfl
  · rfl
  · rfl
  · by_cases hthread : slot = thread
    · simp [hthread, Pool.initialized]
    · simp [Function.update_of_ne hthread, Pool.initialized]
  · rfl
  · rfl
  · simp [Pool.initialized]

/-- `init` with valid arguments completes. -/
theorem init_completes
    {bytes : ℕ → UInt8} {sizeInBytes : ℕ}
    (hvalid : layout.validate base sizeInBytes = .ok ()) :
    Execution.run (step layout) (Pool.new bytes)
        (initCall layout thread base sizeInBytes) =
      some (Pool.initialized layout thread base bytes) := by
  have hsplit : initCall layout thread base sizeInBytes =
      [Action.call thread (.init base sizeInBytes), Action.step thread false,
        Action.step thread false, Action.step thread false] ++
        (List.replicate (2 * layout.slots) (Action.step thread false) ++
          List.replicate 4 (Action.step thread false)) := by
    have hcount : 2 * layout.slots + 7 = 3 + (2 * layout.slots + 4) := by omega
    rw [initCall, hcount, List.replicate_add, List.replicate_add]
    rfl
  have hfill := @filling_all _ _ layout base thread bytes layout.slots 0
    (Nat.zero_add _)
  rw [hsplit, Execution.run_append, initCall_start hvalid, Option.bind_some,
    Execution.run_append, hfill, Option.bind_some, initCall_end]

omit [DecidableEq τ] in
theorem initialized_link (bytes : ℕ → UInt8) (slot : ℕ) :
    (Pool.initialized layout thread base bytes).link slot =
      if slot + 1 < layout.slots then some (slot + 1) else none := by
  have hbound := layout.slots_le
  by_cases hslot : slot + 1 < layout.slots
  · have hindex : (UInt64.ofNat (slot + 1)).toUInt32.toNat = slot + 1 := by
      rw [UInt64.toNat_toUInt32, UInt64.toNat_ofNat']
      omega
    have hlink := slotOf_of_lt (hindex ▸ hslot)
    rw [hindex] at hlink
    simp only [Pool.link, Pool.initialized, if_pos hslot]
    exact hlink
  · simp only [Pool.link, Pool.initialized, if_neg hslot]
    rfl

omit [DecidableEq τ] in
theorem initialized_invariant (bytes : ℕ → UInt8) :
    PoolInvariant layout base (Pool.initialized layout thread base bytes)
      (List.range' 0 layout.slots) (fun _ => .listed) := by
  have hslots := layout.slots_pos
  constructor
  · rfl
  · rfl
  · have htop : (Pool.initialized layout thread base bytes).top =
        if 0 < layout.slots then some 0 else none := by
      rw [if_pos hslots]
      rfl
    rw [htop]
    exact LinkedStack.linked_range (fun slot _ => initialized_link bytes slot)
      layout.slots 0 (Nat.zero_add _)
  · intro slot
    simp [List.mem_range'_1]
  · intro other slot
    simp [Pool.initialized, Pc.held?]
  · intro slot token
    simp [Pool.initialized, liveToken, liveAfter]
  · intro slot _
    exact UInt64.zero_le
  · exact headGeneration_packHead 0 0
  · intro other
    trivial
  · intro before event after hsplit
    cases before with
    | nil =>
        cases hsplit
        trivial
    | cons first rest =>
        have hlength := congrArg List.length hsplit
        simp [Pool.initialized] at hlength
  · intro other slot token pointer hmem
    simp [Pool.initialized] at hmem

/-! ## Exclusive allocations -/

/-- The bytes of a slot. -/
def Layout.slotBytes (layout : Layout) (base slot : ℕ) : Set ℕ :=
  Set.Ico (base + slot * layout.size) (base + slot * layout.size + layout.size)

def Pool.IsLive (pool : Pool τ) (slot : ℕ) : Prop :=
  ∃ token, liveToken slot pool.transcript = some token

/-- Each slot is on the free list, live, or private to one call, and live
allocations do not overlap. -/
structure Exclusivity
    (layout : Layout) (base sizeInBytes : ℕ) (pool : Pool τ)
    (free : List ℕ) : Prop where
  linked : LinkedStack.Linked pool.link pool.top free
  nodup : free.Nodup
  exactlyOne : ∀ slot, slot < layout.slots →
    slot ∈ free ∧ ¬ pool.IsLive slot ∧
        (¬ ∃ thread, (pool.pc thread).held? = some slot) ∨
      slot ∉ free ∧ pool.IsLive slot ∧
        (¬ ∃ thread, (pool.pc thread).held? = some slot) ∨
      slot ∉ free ∧ ¬ pool.IsLive slot ∧
        ∃! thread, (pool.pc thread).held? = some slot
  bounded : ∀ slot, (slot ∈ free ∨ pool.IsLive slot ∨
    ∃ thread, (pool.pc thread).held? = some slot) → slot < layout.slots
  alternating : Alternating pool.transcript
  owned : ∀ slot token, liveToken slot pool.transcript = some token →
    pool.ownership slot = ownershipAllocatedBit ||| token
  pointer_eq : ∀ thread slot token pointer,
    Event.returned thread (.allocated slot token pointer) ∈ pool.transcript →
      slot < layout.slots ∧ pointer = base + slot * layout.size
  inside : ∀ slot, pool.IsLive slot →
    layout.slotBytes base slot ⊆ Set.Ico base (base + sizeInBytes)
  disjoint : ∀ left right, pool.IsLive left → pool.IsLive right →
    left ≠ right →
      Disjoint (layout.slotBytes base left) (layout.slotBytes base right)
  claims_succeed : ∀ thread start slot observedState,
    pool.pc thread = .allocClaim start slot observedState →
      pool.ownership slot = observedState
  not_panicked : ∀ thread, pool.pc thread ≠ .panicked

theorem Layout.le_of_validate
    {sizeInBytes : ℕ} (hvalid : layout.validate base sizeInBytes = .ok ()) :
    layout.slots * layout.size ≤ sizeInBytes := by
  obtain ⟨-, -, hsize, -⟩ := Layout.validate_eq_ok_iff.mp hvalid
  exact hsize

theorem Layout.slotBytes_subset
    {sizeInBytes slot : ℕ} (hslot : slot < layout.slots)
    (hsize : layout.slots * layout.size ≤ sizeInBytes) :
    layout.slotBytes base slot ⊆ Set.Ico base (base + sizeInBytes) := by
  have hlast : (slot + 1) * layout.size ≤ layout.slots * layout.size :=
    Nat.mul_le_mul_right _ hslot
  rw [Nat.succ_mul] at hlast
  apply Set.Ico_subset_Ico
  · omega
  · omega

theorem Layout.slotBytes_disjoint_of_lt
    {left right : ℕ} (hlt : left < right) :
    Disjoint (layout.slotBytes base left) (layout.slotBytes base right) := by
  have hlast : (left + 1) * layout.size ≤ right * layout.size :=
    Nat.mul_le_mul_right _ hlt
  rw [Nat.succ_mul] at hlast
  rw [Set.disjoint_left]
  intro address hleft hright
  have habove := hleft.2
  have hbelow := hright.1
  omega

omit [DecidableEq τ] in
theorem PoolInvariant.isLive_iff
    {pool : Pool τ} {free : List ℕ} {place : ℕ → Place τ}
    (hinv : PoolInvariant layout base pool free place) {slot : ℕ}
    (hslot : slot < layout.slots) :
    pool.IsLive slot ↔ ∃ token, place slot = .live token := by
  unfold Pool.IsLive
  simp only [hinv.live, hslot, true_and]

omit [DecidableEq τ] in
/-- The place of a slot decides which one of the three it is. -/
theorem PoolInvariant.exactlyOne
    {pool : Pool τ} {free : List ℕ} {place : ℕ → Place τ}
    (hinv : PoolInvariant layout base pool free place) {slot : ℕ}
    (hslot : slot < layout.slots) :
    slot ∈ free ∧ ¬ pool.IsLive slot ∧
        (¬ ∃ thread, (pool.pc thread).held? = some slot) ∨
      slot ∉ free ∧ pool.IsLive slot ∧
        (¬ ∃ thread, (pool.pc thread).held? = some slot) ∨
      slot ∉ free ∧ ¬ pool.IsLive slot ∧
        ∃! thread, (pool.pc thread).held? = some slot := by
  have hheld : ∀ thread, (pool.pc thread).held? = some slot ↔
      place slot = .busy thread := by
    intro thread
    rw [hinv.holding thread slot]
    simp [hslot]
  rw [hinv.listed slot, hinv.isLive_iff hslot]
  simp only [hheld, hslot, true_and]
  cases hplace : place slot with
  | listed => simp
  | live token => simp
  | busy thread =>
      right
      right
      refine ⟨by simp, by simp, thread, rfl, ?_⟩
      intro other hother
      cases hother
      rfl

omit [DecidableEq τ] in
theorem PoolInvariant.exclusivity
    {pool : Pool τ} {free : List ℕ} {place : ℕ → Place τ} {sizeInBytes : ℕ}
    (hinv : PoolInvariant layout base pool free place)
    (hsize : layout.slots * layout.size ≤ sizeInBytes) :
    Exclusivity layout base sizeInBytes pool free := by
  have hlive : ∀ slot, pool.IsLive slot → slot < layout.slots := by
    rintro slot ⟨token, htoken⟩
    exact ((hinv.live slot token).mp htoken).1
  constructor
  · exact hinv.linked
  · exact hinv.linked.nodup
  · intro slot hslot
    exact hinv.exactlyOne hslot
  · rintro slot (hlisted | hslot | ⟨thread, hheld⟩)
    · exact ((hinv.listed slot).mp hlisted).1
    · exact hlive slot hslot
    · exact ((hinv.holding thread slot).mp hheld).1
  · exact hinv.alternating
  · intro slot token htoken
    obtain ⟨hslot, hplace⟩ := (hinv.live slot token).mp htoken
    have howned := hinv.owned slot hslot
    rw [hplace] at howned
    exact howned.1
  · exact hinv.returned
  · intro slot hslot
    exact Layout.slotBytes_subset (hlive slot hslot) hsize
  · intro left right _ _ hne
    cases Nat.lt_or_gt_of_ne hne with
    | inl hlt => exact Layout.slotBytes_disjoint_of_lt hlt
    | inr hgt => exact (Layout.slotBytes_disjoint_of_lt hgt).symm
  · intro thread start slot observedState hpc
    have hok := hinv.threads thread
    rw [hpc] at hok
    exact hok.2
  · intro thread hpanicked
    have hok := hinv.threads thread
    rw [hpanicked] at hok
    exact hok

/-- After one completed `init`, in every state of every interleaving of
`allocate` and `free`. -/
theorem allocations_exclusive
    {bytes : ℕ → UInt8} {sizeInBytes : ℕ} {schedule : List (Action τ)}
    {final : Pool τ} (hvalid : layout.validate base sizeInBytes = .ok ())
    (hwithin : Execution.RunWithin (step layout) FreshSwap (Pool.new bytes)
      (initCall layout thread base sizeInBytes ++ schedule))
    (hrun : Execution.run (step layout) (Pool.new bytes)
      (initCall layout thread base sizeInBytes ++ schedule) = some final) :
    ∃ free, Exclusivity layout base sizeInBytes final free := by
  have hinit := @init_completes _ _ layout base thread bytes _ hvalid
  rw [Execution.run_append, hinit, Option.bind_some] at hrun
  have hplaced : Placed layout base final :=
    Execution.run_invariant_within
      (fun _ _ _ hgood hfresh hstep => step_placed hgood hfresh hstep)
      (initialized_invariant bytes).placed (hwithin.of_append hinit) hrun
  obtain ⟨free, place, hinv⟩ := hplaced
  exact ⟨free, hinv.exclusivity (Layout.le_of_validate hvalid)⟩

/-- Thread 1 allocates, thread 2 finds the list empty, thread 1 frees, and
thread 2 has popped the slot and is about to claim it. -/
def contended : List (Action ℕ) :=
  (.call 1 .allocate :: steps 1 7) ++ (.call 2 .allocate :: steps 2 3) ++
    (.call 1 (.free 0 1) :: steps 1 18) ++ (.call 2 .allocate :: steps 2 6)

theorem contended_within :
    Execution.RunWithin (step singleSlot) FreshSwap (Pool.new fun _ => 0)
      (initCall singleSlot 0 4096 64 ++ contended) := by
  decide

theorem allocations_exclusive_when_contended :
    ∃ final, Execution.run (step singleSlot) (Pool.new fun _ => 0)
        (initCall singleSlot 0 4096 64 ++ contended) = some final ∧
      ∃ free, Exclusivity singleSlot 4096 64 final free :=
  ⟨_, rfl, allocations_exclusive (by decide) contended_within rfl⟩

end DmaPool
end ShawnCore
