import ShawnCore.QueueInterface

/-!
# The cells of a queue in memory

The fields of the control object, the payloads and the counters of the slots
are cells without a common address, as long as the object and the slots are
apart.  A memory holds the state of a slot queue when its cells do; a payload
which is being written has no value yet, so that its bytes are arbitrary.
-/

namespace ShawnCore
namespace Rtos

open ByteCodec (Codec)
open ByteMemory
open SlotQueue (Payload Queue)

variable {α : Type}

/-! ## Cells -/

inductive ControlField
  | buffer
  | head
  | tail
  | isInitialized
  | isInitializing
deriving DecidableEq

inductive QueueField (n : ℕ)
  | control (field : ControlField)
  | data (index : Fin n)
  | sequenceCounter (index : Fin n)
deriving DecidableEq

namespace ControlField

def offset : ControlField → ℕ
  | .buffer => 0
  | .head => headOffset
  | .tail => tailOffset
  | .isInitialized => isInitializedOffset
  | .isInitializing => isInitializingOffset

def size : ControlField → ℕ
  | .buffer => 8
  | .head => 8
  | .tail => 8
  | .isInitialized => 1
  | .isInitializing => 1

theorem end_le (field : ControlField) :
    field.offset + field.size ≤ controlObject.size.toNat := by
  cases field <;> decide

theorem do_not_meet {first second : ControlField} (hne : first ≠ second) :
    first.offset + first.size ≤ second.offset ∨
      second.offset + second.size ≤ first.offset := by
  cases first <;> cases second <;> first | exact absurd rfl hne | decide

end ControlField

/-- A control object with slots apart from it. -/
structure Placement (type : QueueType α) where
  queue : UInt64
  base : UInt64
  apart : Apart queue controlObject.size.toNat base type.backingSize

namespace QueueField

variable (type : QueueType α)

/-- The offset of a field in the object or in the slots. -/
def offset : QueueField type.capacity → ℕ
  | .control field => field.offset
  | .data index => index * type.slotSize
  | .sequenceCounter index =>
      index * type.slotSize + type.slotLayout.counterOffset

def size : QueueField type.capacity → ℕ
  | .control field => field.size
  | .data _ => type.itemSize
  | .sequenceCounter _ => 8

/-- The counter of a slot follows its payload. -/
theorem counter_after_item :
    type.itemSize ≤ type.slotLayout.counterOffset ∧
      type.slotLayout.counterOffset + 8 ≤ type.slotSize :=
  ⟨type.item_le, type.slotLayout.counter_le⟩

theorem slot_end_le {first second : ℕ} (hlt : first < second) :
    first * type.slotSize + type.slotSize ≤ second * type.slotSize := by
  rw [← Nat.succ_mul]
  exact Nat.mul_le_mul_right _ hlt

theorem data_end_le (index : Fin type.capacity) :
    offset type (.data index) + size type (.data index) ≤
      type.backingSize := by
  have hslot := slot_end_le type index.isLt
  have hcounter := counter_after_item type
  simp only [offset, size, QueueType.backingSize]
  omega

theorem sequenceCounter_end_le (index : Fin type.capacity) :
    offset type (.sequenceCounter index) +
        size type (.sequenceCounter index) ≤
      type.backingSize := by
  have hslot := slot_end_le type index.isLt
  have hcounter := counter_after_item type
  simp only [offset, size, QueueType.backingSize]
  omega

/-- Different slots do not meet. -/
theorem slots_do_not_meet {first second : ℕ} (hne : first ≠ second) :
    first * type.slotSize + type.slotSize ≤ second * type.slotSize ∨
      second * type.slotSize + type.slotSize ≤ first * type.slotSize := by
  rcases Nat.lt_or_gt_of_ne hne with hlt | hgt
  · exact Or.inl (slot_end_le type hlt)
  · exact Or.inr (slot_end_le type hgt)

end QueueField

theorem QueueType.backingSize_le (type : QueueType α) :
    type.backingSize ≤ 2 ^ 64 :=
  type.backing_lt.le

namespace Placement

variable {type : QueueType α} (placement : Placement type)

def start : QueueField type.capacity → UInt64
  | .control field => placement.queue + UInt64.ofNat field.offset
  | .data index => type.dataAddress placement.base index
  | .sequenceCounter index => type.counterAddress placement.base index

theorem control_apart_data (field : ControlField) (index : Fin type.capacity) :
    Apart (placement.start (.control field)) (QueueField.size type (.control field))
      (placement.start (.data index)) (QueueField.size type (.data index)) :=
  placement.apart.at_offsets (by decide) type.backingSize_le field.end_le
    (QueueField.data_end_le type index)

theorem control_apart_counter
    (field : ControlField) (index : Fin type.capacity) :
    Apart (placement.start (.control field)) (QueueField.size type (.control field))
      (placement.start (.sequenceCounter index))
      (QueueField.size type (.sequenceCounter index)) :=
  placement.apart.at_offsets (by decide) type.backingSize_le field.end_le
    (QueueField.sequenceCounter_end_le type index)

theorem data_apart_counter (first second : Fin type.capacity) :
    Apart (placement.start (.data first)) (QueueField.size type (.data first))
      (placement.start (.sequenceCounter second))
      (QueueField.size type (.sequenceCounter second)) := by
  have hcounter := QueueField.counter_after_item type
  have hbacking := type.backingSize_le
  have hfirst := QueueField.data_end_le type first
  have hsecond := QueueField.sequenceCounter_end_le type second
  apply apart_of_offsets (hfirst.trans hbacking) (hsecond.trans hbacking)
  simp only [QueueField.offset, QueueField.size]
  by_cases hsame : first = second
  · subst hsame
    omega
  · have hslots := QueueField.slots_do_not_meet type (Fin.val_ne_of_ne hsame)
    omega

/-- No two fields have a common address. -/
theorem fields_apart
    {first second : QueueField type.capacity} (hne : first ≠ second) :
    Apart (placement.start first) (QueueField.size type first)
      (placement.start second) (QueueField.size type second) := by
  have hcounter := QueueField.counter_after_item type
  have hbacking := type.backingSize_le
  cases first with
  | control first =>
      cases second with
      | control second =>
          have hfits : controlObject.size.toNat ≤ 2 ^ 64 := by decide
          exact apart_of_offsets (first.end_le.trans hfits)
            (second.end_le.trans hfits)
            (ControlField.do_not_meet fun h => hne (congrArg _ h))
      | data index => exact placement.control_apart_data first index
      | sequenceCounter index =>
          exact placement.control_apart_counter first index
  | data first =>
      cases second with
      | control second => exact (placement.control_apart_data second first).symm
      | data second =>
          have hslots := QueueField.slots_do_not_meet type
            (Fin.val_ne_of_ne fun h => hne (congrArg _ h))
          apply apart_of_offsets
            ((QueueField.data_end_le type first).trans hbacking)
            ((QueueField.data_end_le type second).trans hbacking)
          simp only [QueueField.offset, QueueField.size]
          omega
      | sequenceCounter second =>
          exact placement.data_apart_counter first second
  | sequenceCounter first =>
      cases second with
      | control second =>
          exact (placement.control_apart_counter second first).symm
      | data second => exact (placement.data_apart_counter second first).symm
      | sequenceCounter second =>
          have hslots := QueueField.slots_do_not_meet type
            (Fin.val_ne_of_ne fun h => hne (congrArg _ h))
          apply apart_of_offsets
            ((QueueField.sequenceCounter_end_le type first).trans hbacking)
            ((QueueField.sequenceCounter_end_le type second).trans hbacking)
          simp only [QueueField.offset, QueueField.size]
          omega

theorem field_size_le (field : QueueField type.capacity) :
    QueueField.size type field ≤ 2 ^ 64 := by
  have hbacking := type.backingSize_le
  cases field with
  | control field =>
      have hend := field.end_le
      have hobject : controlObject.size.toNat = 256 := rfl
      simp only [QueueField.size]
      omega
  | data index =>
      have hend := QueueField.data_end_le type index
      omega
  | sequenceCounter index =>
      simp only [QueueField.size]
      omega

def cells : Cells (QueueField type.capacity) where
  start := placement.start
  size := QueueField.size type
  size_le := field_size_le
  apart _ _ hne := placement.fields_apart hne

def word (memory : Memory) (field : QueueField type.capacity) : UInt64 :=
  Codec.word64.decode (placement.cells.content memory field)

/-- The bytes of the payload of a slot. -/
def payload (memory : Memory) (index : Fin type.capacity) : List UInt8 :=
  placement.cells.content memory (.data index)

@[simp] theorem length_payload
    (memory : Memory) (index : Fin type.capacity) :
    (placement.payload memory index).length = type.itemSize :=
  length_read memory _ _

/-! ### Stores to one field -/

section Stores

variable {placement} {memory : Memory}

theorem content_storeWord_of_ne
    (field : QueueField type.capacity)
    (hsize : QueueField.size type field = 8) (value : UInt64)
    {other : QueueField type.capacity} (hother : other ≠ field) :
    placement.cells.content
        ((storeWord (placement.start field) value).perform memory) other =
      placement.cells.content memory other :=
  Cells.content_store_of_ne hother
    ((Codec.word64.length_encode value).trans hsize.symm)

theorem word_storeWord_self
    (field : QueueField type.capacity)
    (hsize : QueueField.size type field = 8) (value : UInt64) :
    placement.word
        ((storeWord (placement.start field) value).perform memory) field =
      value := by
  have hcontent : placement.cells.content
      ((storeWord (placement.start field) value).perform memory) field =
      Codec.word64.encode value :=
    Cells.content_store_self
      ((Codec.word64.length_encode value).trans hsize.symm)
  rw [word, hcontent, Codec.decode_encode]

end Stores

end Placement

/-- A range apart from the control object and from the slots. -/
structure Outside
    {type : QueueType α} (placement : Placement type) (start : UInt64)
    (length : ℕ) : Prop where
  queue : Apart start length placement.queue controlObject.size.toNat
  slots : Apart start length placement.base type.backingSize

theorem Outside.apart
    {type : QueueType α} {placement : Placement type} {start : UInt64}
    {length : ℕ} (houtside : Outside placement start length)
    (field : QueueField type.capacity) :
    Apart start length (placement.start field)
      (QueueField.size type field) := by
  intro address hwithin hfield
  cases field with
  | control field =>
      exact houtside.queue address hwithin
        (within_of_within_add field.end_le (by decide) hfield)
  | data index =>
      exact houtside.slots address hwithin (within_of_within_add
        (QueueField.data_end_le type index) type.backingSize_le hfield)
  | sequenceCounter index =>
      exact houtside.slots address hwithin (within_of_within_add
        (QueueField.sequenceCounter_end_le type index) type.backingSize_le
        hfield)

theorem Outside.content_perform
    {type : QueueType α} {placement : Placement type} {write : Write}
    (houtside : Outside placement write.start write.bytes.length)
    (memory : Memory) (field : QueueField type.capacity) :
    placement.cells.content (write.perform memory) field =
      placement.cells.content memory field := by
  apply read_congr
  intro address hfield
  apply Write.perform_of_not_covers
  intro hcovers
  exact houtside.apart field address hcovers hfield

/-! ## The state of a slot queue in memory -/

/-- What the bytes of a field say about the queue. -/
def FieldHolds
    {type : QueueType α} (placement : Placement type) (queue : Queue α) :
    QueueField type.capacity → List UInt8 → Prop
  | .control .buffer, bytes => Codec.word64.decode bytes = placement.base
  | .control .head, bytes => Codec.word64.decode bytes = queue.head
  | .control .tail, bytes => Codec.word64.decode bytes = queue.tail
  | .control .isInitialized, bytes =>
      Codec.flag.decode bytes = queue.isInitialized
  | .control .isInitializing, _ => True
  | .data index, bytes => ∀ item,
      (queue.slots placement.base.toNat index).data = .value item →
        type.item.decode bytes = item
  | .sequenceCounter index, bytes =>
      Codec.word64.decode bytes =
        (queue.slots placement.base.toNat index).sequenceCounter

def Holds
    {type : QueueType α} (placement : Placement type) (memory : Memory)
    (queue : Queue α) : Prop :=
  ∀ field, FieldHolds placement queue field
    (placement.cells.content memory field)

namespace Holds

variable {type : QueueType α} {placement : Placement type}
  {memory memory' : Memory} {queue queue' : Queue α}

/-! ### Loads -/

theorem loadInitialized (hholds : Holds placement memory queue) :
    loadFlag memory (placement.queue + UInt64.ofNat isInitializedOffset) =
      queue.isInitialized :=
  hholds (.control .isInitialized)

theorem loadBuffer (hholds : Holds placement memory queue) :
    loadWord memory placement.queue = placement.base := by
  have hbuffer : loadWord memory (placement.queue + 0) = placement.base :=
    hholds (.control .buffer)
  rwa [UInt64.add_zero] at hbuffer

theorem loadHead (hholds : Holds placement memory queue) :
    loadWord memory (placement.queue + UInt64.ofNat headOffset) =
      queue.head :=
  hholds (.control .head)

theorem loadTail (hholds : Holds placement memory queue) :
    loadWord memory (placement.queue + UInt64.ofNat tailOffset) =
      queue.tail :=
  hholds (.control .tail)

theorem loadCounter
    (hholds : Holds placement memory queue) (index : Fin type.capacity) :
    loadWord memory (type.counterAddress placement.base index) =
      (queue.slots placement.base.toNat index).sequenceCounter :=
  hholds (.sequenceCounter index)

/-! ### Stores -/

theorem congr
    (hholds : Holds placement memory queue)
    (hsame : ∀ field, placement.cells.content memory' field =
      placement.cells.content memory field) :
    Holds placement memory' queue := by
  intro field
  rw [hsame]
  exact hholds field

/-- One field changes, in the memory and in the queue. -/
theorem change
    (hholds : Holds placement memory queue)
    (changed : QueueField type.capacity)
    (hmemory : ∀ other, other ≠ changed →
      placement.cells.content memory' other =
        placement.cells.content memory other)
    (hqueue : ∀ other, other ≠ changed → ∀ bytes,
      FieldHolds placement queue other bytes →
        FieldHolds placement queue' other bytes)
    (hchanged : FieldHolds placement queue' changed
      (placement.cells.content memory' changed)) :
    Holds placement memory' queue' := by
  intro field
  by_cases hfield : field = changed
  · rw [hfield]
    exact hchanged
  · rw [hmemory field hfield]
    exact hqueue field hfield _ (hholds field)

/-- Of the queue only the program counters and the transcript change. -/
theorem same_fields
    (hholds : Holds placement memory queue)
    (hhead : queue'.head = queue.head) (htail : queue'.tail = queue.tail)
    (hinitialized : queue'.isInitialized = queue.isInitialized)
    (hslots : queue'.slots = queue.slots) :
    Holds placement memory queue' := by
  intro field
  have hfield := hholds field
  cases field with
  | control field =>
      cases field with
      | buffer => exact hfield
      | head => exact hfield.trans hhead.symm
      | tail => exact hfield.trans htail.symm
      | isInitialized => exact hfield.trans hinitialized.symm
      | isInitializing => trivial
  | data index =>
      rw [FieldHolds, hslots]
      exact hfield
  | sequenceCounter index =>
      rw [FieldHolds, hslots]
      exact hfield

theorem produce
    (hholds : Holds placement memory queue) (pc : SlotQueue.ProducerPc α) :
    Holds placement memory (queue.produce pc) :=
  hholds.same_fields rfl rfl rfl rfl

theorem consume
    (hholds : Holds placement memory queue) (pc : SlotQueue.ConsumerPc α) :
    Holds placement memory (queue.consume pc) :=
  hholds.same_fields rfl rfl rfl rfl

theorem emit
    (hholds : Holds placement memory queue) (outcome : SlotQueue.Outcome α) :
    Holds placement memory (queue.emit outcome) :=
  hholds.same_fields rfl rfl rfl rfl

theorem storeHead
    (hholds : Holds placement memory queue) (value : UInt64) :
    Holds placement
      ((storeWord (placement.queue + UInt64.ofNat headOffset) value).perform
        memory) { queue with head := value } := by
  change Holds placement
    ((storeWord (placement.start (.control .head)) value).perform memory) _
  refine hholds.change (.control .head)
    (fun _ => Placement.content_storeWord_of_ne (.control .head) rfl value) ?_
    (Placement.word_storeWord_self (.control .head) rfl value)
  intro other hother bytes hbytes
  cases other with
  | control field =>
      cases field with
      | head => exact absurd rfl hother
      | buffer => exact hbytes
      | tail => exact hbytes
      | isInitialized => exact hbytes
      | isInitializing => trivial
  | data index => exact hbytes
  | sequenceCounter index => exact hbytes

theorem storeTail
    (hholds : Holds placement memory queue) (value : UInt64) :
    Holds placement
      ((storeWord (placement.queue + UInt64.ofNat tailOffset) value).perform
        memory) { queue with tail := value } := by
  change Holds placement
    ((storeWord (placement.start (.control .tail)) value).perform memory) _
  refine hholds.change (.control .tail)
    (fun _ => Placement.content_storeWord_of_ne (.control .tail) rfl value) ?_
    (Placement.word_storeWord_self (.control .tail) rfl value)
  intro other hother bytes hbytes
  cases other with
  | control field =>
      cases field with
      | tail => exact absurd rfl hother
      | buffer => exact hbytes
      | head => exact hbytes
      | isInitialized => exact hbytes
      | isInitializing => trivial
  | data index => exact hbytes
  | sequenceCounter index => exact hbytes

theorem storeCounter
    (hholds : Holds placement memory queue) (index : Fin type.capacity)
    (value : UInt64) :
    Holds placement
      ((storeWord (type.counterAddress placement.base index) value).perform
        memory)
      (queue.storeSequence placement.base.toNat index value) := by
  change Holds placement ((storeWord
    (placement.start (.sequenceCounter index)) value).perform memory) _
  refine hholds.change (.sequenceCounter index)
    (fun _ => Placement.content_storeWord_of_ne (.sequenceCounter index) rfl
      value) ?_ ?_
  · intro other hother bytes hbytes
    cases other with
    | control field => cases field <;> exact hbytes
    | data written =>
        intro item hvalue
        rw [Queue.storeSequence_slots_data] at hvalue
        exact hbytes item hvalue
    | sequenceCounter written =>
        have hne : (written : ℕ) ≠ index :=
          Fin.val_ne_of_ne fun h => hother (congrArg _ h)
        rw [FieldHolds, queue.storeSequence_slots_of_ne value hne]
        exact hbytes
  · rw [FieldHolds, Queue.storeSequence_slots_sequenceCounter]
    exact Placement.word_storeWord_self (.sequenceCounter index) rfl value

/-- The payload of a slot changes in the queue. -/
theorem storeData
    {data : Payload α} (hholds : Holds placement memory queue)
    (index : Fin type.capacity)
    (hdata : ∀ item, data = .value item →
      type.item.decode (placement.payload memory index) = item) :
    Holds placement memory
      (queue.storeData placement.base.toNat index data) := by
  refine hholds.change (.data index) (fun _ _ => rfl) ?_ ?_
  · intro other hother bytes hbytes
    cases other with
    | control field => cases field <;> exact hbytes
    | data written =>
        have hne : (written : ℕ) ≠ index :=
          Fin.val_ne_of_ne fun h => hother (congrArg _ h)
        rw [FieldHolds, queue.storeData_slots_of_ne data hne]
        exact hbytes
    | sequenceCounter written =>
        rw [FieldHolds, Queue.storeData_slots_sequenceCounter]
        exact hbytes
  · rw [FieldHolds, Queue.storeData_slots_data]
    exact hdata

/-- A byte of a payload which has no value is written. -/
theorem storeByte
    {index : Fin type.capacity} {offset : ℕ}
    (hholds : Holds placement memory queue)
    (htorn : (queue.slots placement.base.toNat index).data = .torn)
    (hoffset : offset < type.itemSize) (byte : UInt8) :
    Holds placement
      ((placement.cells.storeByte (.data index) offset byte).perform memory)
      queue := by
  refine hholds.change (.data index)
    (fun other hne => Cells.content_storeByte_of_ne hne hoffset)
    (fun _ _ _ hbytes => hbytes) ?_
  intro item hvalue
  rw [htorn] at hvalue
  cases hvalue

end Holds

end Rtos
end ShawnCore
