import ShawnCore.RtosInitializers

/-!
# The initializers are all or nothing

The checks of an initializer and the ones of `init` are written separately.
Every region which passes the first passes the second, so an initializer
overwrites the control object only if it goes on to succeed, and the elements
which it then hands out lie in the backing memory, apart from the object.
-/

namespace ShawnCore
namespace Rtos

open DmaPool (Pool)
open SlotQueue (QueueObject)
open PerCoreScheduler (checkedAdd_eq_some_iff)

variable {τ α σ ε : Type}

/-! ## What the checks establish -/

section Checks

variable {type element : TypeLayout}
  {object memoryBase sizeInBytes elementCount : UInt64}

theorem checkedMul_eq_some_iff (left right product : UInt64) :
    checkedMul left right = some product ↔
      product.toNat = left.toNat * right.toNat := by
  have hproduct := product.toNat_lt
  rw [checkedMul]
  split_ifs with hbound
  · rw [Option.some.injEq, ← UInt64.toNat_inj, UInt64.toNat_mul,
      Nat.mod_eq_of_lt hbound]
    exact eq_comm
  · simp only [false_iff]
    omega

/-- The elements of the region, as `valid_dma_region` checks them. -/
structure ValidRegion
    (element : TypeLayout) (memoryBase sizeInBytes elementCount : UInt64) :
    Prop where
  base_ne : memoryBase.toNat ≠ 0
  page : memoryBase.toNat % 4096 = 0
  aligned : memoryBase.toNat % element.align.toNat = 0
  fits : elementCount.toNat * element.size.toNat ≤ sizeInBytes.toNat
  end_lt :
    memoryBase.toNat + elementCount.toNat * element.size.toNat < 2 ^ 64

theorem validRegion_of_check
    (hvalid :
      validDmaRegion element memoryBase sizeInBytes elementCount = true) :
    ValidRegion element memoryBase sizeInBytes elementCount := by
  unfold validDmaRegion at hvalid
  split_ifs at hvalid with hbase
  push Not at hbase
  obtain ⟨hne, hpage, halign⟩ := hbase
  obtain ⟨regionEnd, hend⟩ := Option.isSome_iff_exists.mp hvalid
  obtain ⟨requiredSize, hrequired, hend⟩ := Option.bind_eq_some_iff.mp hend
  obtain ⟨product, hproduct, hrequired⟩ :=
    Option.bind_eq_some_iff.mp hrequired
  split_ifs at hrequired with hfits
  cases hrequired
  rw [checkedMul_eq_some_iff] at hproduct
  rw [checkedAdd_eq_some_iff] at hend
  have hlt := regionEnd.toNat_lt
  rw [UInt64.le_iff_toNat_le] at hfits
  constructor
  · exact fun hzero => hne (UInt64.toNat_inj.mp hzero)
  · simpa [UInt64.toNat_mod] using congrArg UInt64.toNat hpage
  · simpa [UInt64.toNat_mod] using congrArg UInt64.toNat halign
  · omega
  · omega

theorem apart_of_not_overlap
    (hoverlap :
      objectOverlapsBacking type object memoryBase sizeInBytes = false) :
    memoryBase.toNat + sizeInBytes.toNat ≤ object.toNat ∨
      object.toNat + type.size.toNat ≤ memoryBase.toNat := by
  unfold objectOverlapsBacking rangesOverlap at hoverlap
  cases hfirst : checkedAdd object type.size with
  | none => simp [hfirst] at hoverlap
  | some firstEnd =>
      cases hsecond : checkedAdd memoryBase sizeInBytes with
      | none => simp [hfirst, hsecond] at hoverlap
      | some secondEnd =>
          simp only [hfirst, hsecond, Bool.and_eq_false_iff,
            decide_eq_false_iff_not, UInt64.lt_iff_toNat_lt] at hoverlap
          rw [checkedAdd_eq_some_iff] at hfirst hsecond
          omega

end Checks

/-! ## All or nothing -/

/-- The place of an element of the backing memory. -/
def elementRange
    (element : TypeLayout) (memoryBase : UInt64) (index : ℕ) :
    WrittenRange where
  address := memoryBase.toNat + index * element.size.toNat
  length := element.size.toNat

/-- An element which the object may hand out. -/
structure InBounds
    (type element : TypeLayout) (object memoryBase sizeInBytes : UInt64)
    (index : ℕ) : Prop where
  aligned :
    (elementRange element memoryBase index).address %
      element.align.toNat = 0
  representable :
    memoryBase.toNat + (index + 1) * element.size.toNat ≤ 2 ^ 64
  inside :
    (elementRange element memoryBase index).addresses ⊆
      Set.Ico memoryBase.toNat (memoryBase.toNat + sizeInBytes.toNat)
  apart :
    Disjoint (elementRange element memoryBase index).addresses
      (Set.Ico object.toNat (object.toNat + type.size.toNat))

structure AllOrNothing
    (type element : TypeLayout) (elementCount : UInt64) (storage : σ)
    (object memoryBase sizeInBytes : UInt64)
    (outcome : InitOutcome σ ShawncoreRtosErr) : Prop where
  refused : outcome.result ≠ .success →
    outcome.storage = storage ∧ outcome.writes = []
  in_bounds : outcome.result = .success → ∀ index < elementCount.toNat,
    InBounds type element object memoryBase sizeInBytes index
  written : ∀ range ∈ outcome.writes,
    range.addresses ⊆
        Set.Ico object.toNat (object.toNat + type.size.toNat) ∨
      ∃ index < elementCount.toNat,
        range.addresses ⊆ (elementRange element memoryBase index).addresses

section AllOrNothing

variable {type element : TypeLayout}
  {object memoryBase sizeInBytes elementCount : UInt64}

theorem inBounds_of_checks
    (hregion : ValidRegion element memoryBase sizeInBytes elementCount)
    (hoverlap :
      objectOverlapsBacking type object memoryBase sizeInBytes = false)
    {index : ℕ} (hindex : index < elementCount.toNat) :
    InBounds type element object memoryBase sizeInBytes index := by
  have hend : (index + 1) * element.size.toNat ≤
      elementCount.toNat * element.size.toNat :=
    Nat.mul_le_mul_right _ hindex
  have hfits := hregion.fits
  have hlt := hregion.end_lt
  have hapart := apart_of_not_overlap hoverlap
  rw [Nat.succ_mul] at hend
  constructor
  · have hsteps : element.align.toNat ∣ index * element.size.toNat :=
      element.align_dvd.mul_left index
    have hbase : element.align.toNat ∣ memoryBase.toNat :=
      Nat.dvd_of_mod_eq_zero hregion.aligned
    exact Nat.mod_eq_zero_of_dvd (hbase.add hsteps)
  · rw [Nat.succ_mul]
    omega
  · intro address haddress
    simp only [WrittenRange.addresses, elementRange, Set.mem_Ico]
      at haddress ⊢
    omega
  · rw [Set.disjoint_left]
    intro address haddress
    simp only [WrittenRange.addresses, elementRange, Set.mem_Ico]
      at haddress ⊢
    omega

/-- The two branches of an initializer: a check fails before anything is
written, or all hold and `init` is called. -/
theorem initInPlace_cases
    (type element : TypeLayout) (elementCount : UInt64) (new : σ → σ)
    (init : σ → InitOutcome σ (Except ε Unit))
    (toCode : ε → ShawncoreRtosErr) (storage : σ)
    (object memoryBase sizeInBytes : UInt64) :
    initInPlace type element elementCount new init toCode storage object
        memoryBase sizeInBytes = ⟨.invalidMemory, storage, []⟩ ∨
      ValidRegion element memoryBase sizeInBytes elementCount ∧
      objectOverlapsBacking type object memoryBase sizeInBytes = false ∧
      ((init (new storage)).result = .ok () →
        initInPlace type element elementCount new init toCode storage object
            memoryBase sizeInBytes =
          ⟨.success, (init (new storage)).storage,
            ⟨object.toNat, type.size.toNat⟩ ::
              (init (new storage)).writes⟩) := by
  unfold initInPlace
  by_cases hchecks : object = 0 ∨
      validDmaRegion element memoryBase sizeInBytes elementCount = false ∨
      objectOverlapsBacking type object memoryBase sizeInBytes = true
  · rw [if_pos hchecks]
    exact Or.inl rfl
  · rw [if_neg hchecks]
    push Not at hchecks
    obtain ⟨-, hvalid, hoverlap⟩ := hchecks
    by_cases haligned : ptrIsAligned type object = false
    · rw [if_pos haligned]
      exact Or.inl rfl
    · rw [if_neg haligned]
      refine Or.inr ⟨validRegion_of_check (Bool.eq_true_of_not_eq_false hvalid),
        Bool.eq_false_of_not_eq_true hoverlap, ?_⟩
      intro hok
      simp only [hok]

/-- An initializer is all or nothing if `init` accepts every region which the
checks have let through. -/
theorem initInPlace_allOrNothing
    {new : σ → σ} {init : σ → InitOutcome σ (Except ε Unit)}
    (toCode : ε → ShawncoreRtosErr) (storage : σ)
    (haccepts :
      ValidRegion element memoryBase sizeInBytes elementCount →
        (init (new storage)).result = .ok ())
    (hwrites : ∀ range ∈ (init (new storage)).writes,
      range.addresses ⊆
          Set.Ico object.toNat (object.toNat + type.size.toNat) ∨
        ∃ index < elementCount.toNat,
          range.addresses ⊆
            (elementRange element memoryBase index).addresses) :
    AllOrNothing type element elementCount storage object memoryBase
      sizeInBytes
      (initInPlace type element elementCount new init toCode storage object
        memoryBase sizeInBytes) := by
  rcases initInPlace_cases type element elementCount new init toCode storage
      object memoryBase sizeInBytes with hrefused | ⟨hregion, hoverlap, hbound⟩
  · rw [hrefused]
    constructor
    · exact fun _ => ⟨rfl, rfl⟩
    · intro hsuccess
      cases hsuccess
    · intro range hmem
      cases hmem
  · rw [hbound (haccepts hregion)]
    constructor
    · exact fun hfailed => absurd rfl hfailed
    · exact fun _ index hindex => inBounds_of_checks hregion hoverlap hindex
    · intro range hmem
      rcases List.mem_cons.mp hmem with rfl | hinit
      · exact Or.inl subset_rfl
      · exact hwrites range hinit

end AllOrNothing

/-- After a success the storage is what `init` has left. -/
theorem initInPlace_success
    {type element : TypeLayout}
    {object memoryBase sizeInBytes elementCount : UInt64} {new : σ → σ}
    {init : σ → InitOutcome σ (Except ε Unit)}
    {toCode : ε → ShawncoreRtosErr} {storage : σ}
    (haccepts :
      ValidRegion element memoryBase sizeInBytes elementCount →
        (init (new storage)).result = .ok ())
    (hsuccess :
      (initInPlace type element elementCount new init toCode storage object
        memoryBase sizeInBytes).result = .success) :
    ValidRegion element memoryBase sizeInBytes elementCount ∧
      (initInPlace type element elementCount new init toCode storage object
        memoryBase sizeInBytes).storage = (init (new storage)).storage := by
  rcases initInPlace_cases type element elementCount new init toCode storage
      object memoryBase sizeInBytes with hrefused | ⟨hregion, -, hbound⟩
  · rw [hrefused] at hsuccess
    cases hsuccess
  · rw [hbound (haccepts hregion)]
    exact ⟨hregion, rfl⟩

/-! ## The two validations agree -/

theorem ValidRegion.validate
    {memoryBase sizeInBytes : UInt64}
    (hregion : ValidRegion byteArray2048 memoryBase sizeInBytes 256)
    (types : Types) :
    (dmaPool2K types).validate memoryBase.toNat sizeInBytes.toNat =
      .ok () :=
  DmaPool.Layout.validate_eq_ok_iff.mpr
    ⟨Nat.succ_ne_zero _, hregion.base_ne, hregion.fits, hregion.end_lt,
      hregion.page, hregion.aligned, by simp [dmaPool2K]⟩

theorem ValidRegion.validateBacking
    {slot : SlotLayout} {memoryBase sizeInBytes elementCount : UInt64}
    {layout : SlotQueue.Layout}
    (hregion :
      ValidRegion slot.toTypeLayout memoryBase sizeInBytes elementCount)
    (hcount : layout.capacity.size = elementCount.toNat) :
    SlotQueue.validateBacking layout slot.size.toNat slot.align.toNat
      memoryBase.toNat sizeInBytes.toNat = .ok () := by
  rw [SlotQueue.validateBacking_eq_ok_iff, hcount]
  have hend := hregion.end_lt
  exact ⟨hregion.base_ne, by omega, hregion.fits, hregion.page,
    hregion.aligned⟩

theorem dmapool2kInit_allOrNothing
    (types : Types) (storage : Pool τ)
    (pool memoryBase sizeInBytes : UInt64) :
    AllOrNothing types.dmaPool2K byteArray2048 256 storage pool memoryBase
      sizeInBytes
      (shawncoreRtosDmapool2kInit types storage pool memoryBase
        sizeInBytes) := by
  apply initInPlace_allOrNothing
  · intro hregion
    exact Pool.init_new_result (hregion.validate types) _ _
  · intro range hmem
    rw [Pool.eq_of_mem_init_writes hmem]
    exact Or.inl subset_rfl

/-- The counter of a slot lies in the slot. -/
theorem counterRange_subset
    (slot : SlotLayout) (memoryBase : UInt64) (index : ℕ) :
    (SlotQueue.counterRange slot.size.toNat slot.counterOffset
        memoryBase.toNat index).addresses ⊆
      (elementRange slot.toTypeLayout memoryBase index).addresses := by
  intro address haddress
  have hcounter := slot.counter_le
  simp only [WrittenRange.addresses, SlotQueue.counterRange, elementRange,
    Set.mem_Ico] at haddress ⊢
  omega

theorem queueInit_allOrNothing
    (type : TypeLayout) (slot : SlotLayout) {layout : SlotQueue.Layout}
    {elementCount : UInt64}
    (hcount : layout.capacity.size = elementCount.toNat)
    (storage : QueueObject α) (queue memoryBase sizeInBytes : UInt64) :
    AllOrNothing type slot.toTypeLayout elementCount storage queue
      memoryBase sizeInBytes
      (queueInit type slot layout elementCount storage queue memoryBase
        sizeInBytes) := by
  apply initInPlace_allOrNothing
  · intro hregion
    rw [QueueObject.init_new (hregion.validateBacking hcount)]
  · intro range hmem
    rcases QueueObject.mem_init_writes hmem with rfl | ⟨index, hindex, rfl⟩
    · exact Or.inl subset_rfl
    · exact Or.inr ⟨index, hcount ▸ hindex,
        counterRange_subset slot memoryBase index⟩

/-! ## The initializers -/

/-- A pool which was initialized by the host is the pool of the concurrent
machine after its `init`. -/
theorem dmapool2kInit_initialized
    [DecidableEq τ] {types : Types} {storage : Pool τ}
    {pool memoryBase sizeInBytes : UInt64}
    (hsuccess :
      (shawncoreRtosDmapool2kInit types storage pool memoryBase
        sizeInBytes).result = .success)
    (thread : τ) :
    Execution.run (DmaPool.step (dmaPool2K types))
        (Pool.new storage.bytes)
        (DmaPool.initCall (dmaPool2K types) thread
          memoryBase.toNat sizeInBytes.toNat) =
      some
        { (shawncoreRtosDmapool2kInit types storage pool memoryBase
            sizeInBytes).storage with
          transcript := [.returned thread .initialized] } := by
  obtain ⟨hregion, hstorage⟩ := initInPlace_success
    (fun hregion =>
      Pool.init_new_result (hregion.validate types) _ _)
    hsuccess
  have hvalid := hregion.validate types
  rw [DmaPool.init_completes hvalid, shawncoreRtosDmapool2kInit, hstorage,
    Pool.init_new_storage hvalid _ _ thread]
  rfl

/-- A queue which was initialized by the host is ready for its producer and
its consumer. -/
theorem queueInit_ready
    {type : TypeLayout} {slot : SlotLayout} {layout : SlotQueue.Layout}
    {elementCount : UInt64}
    (hcount : layout.capacity.size = elementCount.toNat)
    {storage : QueueObject α} {queue memoryBase sizeInBytes : UInt64}
    (hsuccess :
      (queueInit type slot layout elementCount storage queue memoryBase
        sizeInBytes).result = .success) :
    SlotQueue.Ready layout memoryBase.toNat
      (queueInit type slot layout elementCount storage queue memoryBase
        sizeInBytes).storage.queue := by
  have haccepts := fun hregion : ValidRegion slot.toTypeLayout memoryBase
      sizeInBytes elementCount => congrArg InitOutcome.result
    (QueueObject.init_new (hregion.validateBacking hcount)
      slot.counterOffset ⟨queue.toNat, type.size.toNat⟩ storage.queue.slots)
  obtain ⟨hregion, hstorage⟩ := initInPlace_success haccepts hsuccess
  rw [queueInit, hstorage]
  exact QueueObject.init_ready (hregion.validateBacking hcount) _ _ _

/-- Each of the four initializers, for all addresses and sizes. -/
theorem initializers_all_or_nothing
    (types : Types) (object memoryBase sizeInBytes : UInt64) :
    (∀ storage : Pool τ,
      AllOrNothing types.dmaPool2K byteArray2048 256 storage object memoryBase
        sizeInBytes
        (shawncoreRtosDmapool2kInit types storage object memoryBase
          sizeInBytes)) ∧
    (∀ storage : QueueObject α,
      AllOrNothing types.spscQueueTelemetry types.telemetrySlot.toTypeLayout
        64 storage object memoryBase sizeInBytes
        (shawncoreRtosSpscTelemetryInit types storage object memoryBase
          sizeInBytes)) ∧
    (∀ storage : QueueObject α,
      AllOrNothing types.ringBufferEwCommand types.ewCommandSlot.toTypeLayout
        1024 storage object memoryBase sizeInBytes
        (shawncoreRtosRingbufferEwInit types storage object memoryBase
          sizeInBytes)) ∧
    ∀ storage : QueueObject α,
      AllOrNothing types.spscQueueFft types.fftSlot.toTypeLayout
        256 storage object memoryBase sizeInBytes
        (shawncoreRtosSpscFftInit types storage object memoryBase
          sizeInBytes) := by
  refine ⟨?_, ?_, ?_, ?_⟩
  · intro storage
    exact dmapool2kInit_allOrNothing types storage object memoryBase
      sizeInBytes
  · intro storage
    exact queueInit_allOrNothing _ _ (by decide) storage object memoryBase
      sizeInBytes
  · intro storage
    exact queueInit_allOrNothing _ _ (by decide) storage object memoryBase
      sizeInBytes
  · intro storage
    exact queueInit_allOrNothing _ _ (by decide) storage object memoryBase
      sizeInBytes

/-- The layouts on a 64-bit target. -/
def targetTypes : Types where
  dmaPool2K := ⟨4160, 64, by decide, by decide⟩
  spscQueueTelemetry := ⟨256, 64, by decide, by decide⟩
  telemetrySlot := ⟨⟨128, 64, by decide, by decide⟩, 64, by decide⟩
  ringBufferEwCommand := ⟨256, 64, by decide, by decide⟩
  ewCommandSlot := ⟨⟨64, 64, by decide, by decide⟩, 24, by decide⟩
  spscQueueFft := ⟨256, 64, by decide, by decide⟩
  fftSlot := ⟨⟨128, 64, by decide, by decide⟩, 64, by decide⟩
  debugAssertions := true
  flushRegistered := true

theorem pool_at_mebibyte_is_bound :
    (shawncoreRtosDmapool2kInit targetTypes
        (Pool.new fun _ => 0 : Pool Unit) 4096 1048576 524288).result =
      .success ∧
    InBounds targetTypes.dmaPool2K byteArray2048 4096 1048576 524288 255 := by
  have hsuccess : (shawncoreRtosDmapool2kInit targetTypes
      (Pool.new fun _ => 0 : Pool Unit) 4096 1048576 524288).result =
        .success := by
    rfl
  have hall := @initializers_all_or_nothing Unit Unit targetTypes 4096 1048576
    524288
  exact ⟨hsuccess, (hall.1 _).in_bounds hsuccess 255 (by decide)⟩

end Rtos
end ShawnCore
