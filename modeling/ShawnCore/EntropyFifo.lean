import ShawnCore.EntropyOwnership

/-!
# The entropy queue is first-in first-out

The chunks between `tail` and `head` are the content of a bounded queue.  The
producer writes the slot at `head` while there is room, and the owner of the
consumer gate clears the slot at `tail` while there is a chunk; the two slots
are different then.
-/

namespace ShawnCore
namespace Entropy

open BoundedFifo (History)
open ByteBlocks
open RingIndex (slot)

variable {sha384 : Bytes → Block 48} {shared : Shared} {system next : System}
  {items : List Chunk}

/-- The first bytes of a slot. -/
def Shared.slotBytes (shared : Shared) (index count : ℕ) : Bytes :=
  (List.range count).map (shared.slots index)

/-- The producer has found room at this position. -/
structure Room (shared : Shared) (items : List Chunk) (head : UInt64) :
    Prop where
  head_eq : head = shared.head
  room : items.length < capacity.size

/-- The consumer has found this chunk at this position. -/
structure Front
    (shared : Shared) (items : List Chunk) (tail : UInt64) (chunk : Chunk) :
    Prop where
  tail_eq : tail = shared.tail
  front : items.head? = some chunk

def ProducerOk (shared : Shared) (items : List Chunk) : ProducerPc → Prop
  | .idle => True
  | .loadHead _ => True
  | .loadTail _ head => head = shared.head
  | .write chunk head offset =>
      Room shared items head ∧ offset ≤ 32 ∧
        shared.slotBytes (slot capacity head) offset =
          chunk.bytes.take offset
  | .publish chunk head =>
      Room shared items head ∧
        shared.slotBytes (slot capacity head) 32 = chunk.bytes

def PopOk (shared : Shared) (items : List Chunk) : PopPc → Prop
  | .loadTail => True
  | .loadHead tail => tail = shared.tail
  | .read tail bytes =>
      ∃ front, Front shared items tail front ∧ bytes <+: front.bytes
  | .zeroize tail chunk _ => Front shared items tail chunk
  | .publish tail chunk => Front shared items tail chunk

/-- The consumer clears the slot at `tail`. -/
def PopPc.clearing : PopPc → Prop
  | .zeroize _ _ _ => True
  | .publish _ _ => True
  | _ => False

/-- Where the context is inside `pop`. -/
def ContextPc.pop? : ContextPc → Option PopPc
  | .own _ (.mix (.pop _ pc)) => some pc
  | _ => none

def Event.fifo? : Event → Option (BoundedFifo.Event Chunk)
  | .pushed chunk => some (.pushed chunk)
  | .full => some .full
  | .acted _ _ (.popped chunk) => some (.popped chunk)
  | _ => none

/-- The queue has performed the pushes and pops of the transcript and holds
these chunks. -/
structure Holds (system : System) (items : List Chunk) : Prop where
  history : History capacity.size (system.transcript.filterMap Event.fifo?)
    items
  head_eq : system.shared.head =
    system.shared.tail + UInt64.ofNat items.length
  stored : ∀ offset chunk, items[offset]? = some chunk →
    (∀ context pc, (system.contexts context).pop? = some pc → pc.clearing →
      0 < offset) →
      system.shared.slotBytes
        (slot capacity (system.shared.tail + UInt64.ofNat offset)) 32 =
          chunk.bytes
  producerOk : ProducerOk system.shared items system.producer
  popOk : ∀ context pc, (system.contexts context).pop? = some pc →
    PopOk system.shared items pc

theorem initial_holds : Holds System.initial [] := by
  constructor
  · exact .nil
  · rfl
  · intro offset chunk hchunk
    cases hchunk
  · trivial
  · intro context pc hpop
    cases hpop

/-! ## Bytes of slots -/

theorem slotBytes_storeByte_of_ne
    {index other : ℕ} (hne : other ≠ index) (offset count : ℕ)
    (value : UInt8) :
    (shared.perform (.storeByte index offset value)).slotBytes other count =
      shared.slotBytes other count := by
  simp [Shared.slotBytes, Shared.perform, hne]

theorem slotBytes_storeByte_succ (index offset : ℕ) (value : UInt8) :
    (shared.perform (.storeByte index offset value)).slotBytes index
      (offset + 1) = shared.slotBytes index offset ++ [value] := by
  have hold : (List.range offset).map
      (Function.update (shared.slots index) offset value) =
        (List.range offset).map (shared.slots index) := by
    apply List.map_congr_left
    intro position hposition
    rw [Function.update_of_ne (List.mem_range.1 hposition).ne]
  simp only [Shared.slotBytes, Shared.perform, Function.update_self,
    List.range_succ, List.map_append, List.map_singleton, hold]

/-- One more byte of a chunk whose slot is intact. -/
theorem slotBytes_read_snoc
    {index : ℕ} {chunk : Chunk} {bytes : Bytes}
    (hslot : shared.slotBytes index 32 = chunk.bytes)
    (hread : bytes <+: chunk.bytes) (hmore : bytes.length ≠ 32) :
    bytes ++ [shared.slots index bytes.length] <+: chunk.bytes := by
  have hle := hread.length_le
  rw [chunk.length_eq] at hle
  have hlt : bytes.length < 32 := lt_of_le_of_ne hle hmore
  have hbyte : chunk.bytes[bytes.length]? =
      some (shared.slots index bytes.length) := by
    rw [← hslot, Shared.slotBytes, List.getElem?_map,
      List.getElem?_range hlt]
    rfl
  rw [List.prefix_iff_eq_take] at hread ⊢
  rw [List.length_append, List.length_singleton, List.take_add_one, ← hread,
    hbyte]
  rfl

/-! ## The slots at the two ends -/

namespace Holds

theorem slot_item_ne_slot_head
    (hholds : Holds system items) (hroom : items.length < capacity.size)
    {offset : ℕ} (hoffset : offset < items.length) :
    slot capacity (system.shared.tail + UInt64.ofNat offset) ≠
      slot capacity system.shared.head := by
  rw [hholds.head_eq]
  exact RingIndex.slot_add_ne_slot_add capacity hoffset hroom

theorem slot_tail_ne_slot_head
    (hholds : Holds system items) (hroom : items.length < capacity.size)
    (hitem : 0 < items.length) :
    slot capacity system.shared.tail ≠ slot capacity system.shared.head := by
  rw [hholds.head_eq]
  exact (RingIndex.slot_add_ne_slot capacity hitem hroom).symm

theorem slot_item_ne_slot_tail
    (hholds : Holds system items) {offset : ℕ} (hpos : 0 < offset)
    (hoffset : offset < items.length) :
    slot capacity (system.shared.tail + UInt64.ofNat offset) ≠
      slot capacity system.shared.tail :=
  RingIndex.slot_add_ne_slot capacity hpos
    (hoffset.trans_le hholds.history.length_le)

end Holds

theorem Front.length_pos
    {tail : UInt64} {chunk : Chunk} (hfront : Front shared items tail chunk) :
    0 < items.length := by
  have hhead := hfront.front
  cases items with
  | nil => cases hhead
  | cons first rest => exact Nat.succ_pos _

/-! ## What the other side leaves alone -/

theorem ProducerOk.frame
    {after : Shared} {remaining : List Chunk} {pc : ProducerPc}
    (hok : ProducerOk shared items pc) (hhead : after.head = shared.head)
    (hlength : remaining.length ≤ items.length)
    (hslot : items.length < capacity.size →
      after.slots (slot capacity shared.head) =
        shared.slots (slot capacity shared.head)) :
    ProducerOk after remaining pc := by
  have hkeep : ∀ head, Room shared items head →
      Room after remaining head ∧
        ∀ count, after.slotBytes (slot capacity head) count =
          shared.slotBytes (slot capacity head) count := by
    intro head hroom
    refine ⟨⟨hroom.head_eq.trans hhead.symm, hlength.trans_lt hroom.room⟩,
      ?_⟩
    intro count
    rw [Shared.slotBytes, Shared.slotBytes, hroom.head_eq, hslot hroom.room]
  cases pc with
  | idle | loadHead => trivial
  | loadTail chunk head => exact Eq.trans hok hhead.symm
  | write chunk head offset =>
      obtain ⟨hroom, hoffset, hbytes⟩ := hok
      obtain ⟨hroom, hsame⟩ := hkeep head hroom
      exact ⟨hroom, hoffset, (hsame offset).trans hbytes⟩
  | publish chunk head =>
      obtain ⟨hroom, hbytes⟩ := hok
      obtain ⟨hroom, hsame⟩ := hkeep head hroom
      exact ⟨hroom, (hsame 32).trans hbytes⟩

theorem PopOk.frame
    {after : Shared} {extended : List Chunk} {pc : PopPc}
    (hok : PopOk shared items pc) (htail : after.tail = shared.tail)
    (hfront : ∀ chunk, items.head? = some chunk →
      extended.head? = some chunk) :
    PopOk after extended pc := by
  have hkeep : ∀ tail chunk, Front shared items tail chunk →
      Front after extended tail chunk := by
    intro tail chunk hchunk
    exact ⟨hchunk.tail_eq.trans htail.symm, hfront chunk hchunk.front⟩
  cases pc with
  | loadTail => trivial
  | loadHead tail => exact Eq.trans hok htail.symm
  | read tail bytes =>
      obtain ⟨front, hchunk, hread⟩ := hok
      exact ⟨front, hkeep tail front hchunk, hread⟩
  | zeroize tail chunk offset => exact hkeep tail chunk hok
  | publish tail chunk => exact hkeep tail chunk hok

/-! ## Steps of the producer -/

/-- Every step of a producer which is where it says. -/
inductive ProducerStep (shared : Shared) (items : List Chunk) :
    ProducerPc → ProducerPc → Access → Option Event → Prop
  | headLoaded (chunk : Chunk) :
      ProducerStep shared items (.loadHead chunk)
        (.loadTail chunk shared.head) .nothing none
  | full (chunk : Chunk) (head : UInt64)
      (hlength : items.length = capacity.size) :
      ProducerStep shared items (.loadTail chunk head) .idle .nothing
        (some .full)
  | entered (chunk : Chunk) (head : UInt64)
      (hok : ProducerOk shared items (.write chunk head 0)) :
      ProducerStep shared items (.loadTail chunk head) (.write chunk head 0)
        .nothing none
  | stored (chunk : Chunk) (offset : ℕ) (byte : UInt8)
      (hroom : items.length < capacity.size)
      (hok : ProducerOk
        (shared.perform
          (.storeByte (slot capacity shared.head) offset byte))
        items (.write chunk shared.head (offset + 1))) :
      ProducerStep shared items (.write chunk shared.head offset)
        (.write chunk shared.head (offset + 1))
        (.storeByte (slot capacity shared.head) offset byte) none
  | written (chunk : Chunk) (head : UInt64)
      (hok : ProducerOk shared items (.publish chunk head)) :
      ProducerStep shared items (.write chunk head 32) (.publish chunk head)
        .nothing none
  | published (chunk : Chunk) (head : UInt64) :
      ProducerStep shared items (.publish chunk head) .idle
        (.storeHead (head + 1)) (some (.pushed chunk))

theorem stepProducer_producerStep
    {before after : ProducerPc} {access : Access} {event : Option Event}
    (hhead : shared.head = shared.tail + UInt64.ofNat items.length)
    (hlength : items.length ≤ capacity.size)
    (hok : ProducerOk shared items before)
    (hstep : stepProducer shared before = some (after, access, event)) :
    ProducerStep shared items before after access event := by
  cases before with
  | idle => cases hstep
  | loadHead chunk =>
      cases hstep
      exact .headLoaded chunk
  | loadTail chunk head =>
      have hdistance : (head - shared.tail).toNat = items.length := by
        rw [show head = shared.head from hok, hhead]
        exact RingIndex.add_sub_toNat capacity hlength
      rw [stepProducer, hdistance] at hstep
      split_ifs at hstep with hfull
      · cases hstep
        exact .full chunk head (le_antisymm hlength hfull)
      · cases hstep
        exact .entered chunk head
          ⟨⟨hok, Nat.lt_of_not_le hfull⟩, Nat.zero_le _, rfl⟩
  | write chunk head offset =>
      obtain ⟨hroom, hoffset, hbytes⟩ := hok
      rw [stepProducer] at hstep
      cases hbyte : chunk.bytes[offset]? with
      | none =>
          rw [hbyte] at hstep
          cases hstep
          have hend : 32 ≤ offset := by
            rw [← chunk.length_eq]
            exact List.getElem?_eq_none_iff.1 hbyte
          have hsame : offset = 32 := le_antisymm hoffset hend
          subst hsame
          rw [List.take_of_length_le chunk.length_eq.le] at hbytes
          exact .written chunk head ⟨hroom, hbytes⟩
      | some byte =>
          rw [hbyte] at hstep
          cases hstep
          have hlt := (List.getElem?_eq_some_iff.1 hbyte).1
          rw [chunk.length_eq] at hlt
          rw [hroom.head_eq] at hbytes ⊢
          refine .stored chunk offset byte hroom.room
            ⟨⟨rfl, hroom.room⟩, hlt, ?_⟩
          rw [slotBytes_storeByte_succ, hbytes, List.take_add_one, hbyte]
          rfl
  | publish chunk head =>
      cases hstep
      exact .published chunk head

namespace Holds

theorem history_emit
    (hholds : Holds system items) {event : Option Event}
    (hevent : event.bind Event.fifo? = none) :
    History capacity.size
      ((system.transcript ++ event.toList).filterMap Event.fifo?) items := by
  rw [filterMap_emit, hevent, Option.toList_none, List.append_nil]
  exact hholds.history

theorem produce
    {pc : ProducerPc} (hholds : Holds system items)
    (hok : ProducerOk system.shared items pc) :
    Holds ((system.moveProducer pc .nothing).emit none) items := by
  constructor
  · exact hholds.history_emit rfl
  · exact hholds.head_eq
  · exact hholds.stored
  · exact hok
  · exact hholds.popOk

theorem produce_full
    (hholds : Holds system items) (hfull : items.length = capacity.size) :
    Holds ((system.moveProducer .idle .nothing).emit (some .full)) items := by
  constructor
  · exact (filterMap_emit Event.fifo? system.transcript (some .full)) ▸
      hholds.history.snoc (.full hfull)
  · exact hholds.head_eq
  · exact hholds.stored
  · trivial
  · exact hholds.popOk

/-- The producer writes a byte of the slot at `head`, which holds no chunk. -/
theorem produce_store
    {pc : ProducerPc} {offset : ℕ} {value : UInt8}
    (hholds : Holds system items)
    (hroom : items.length < capacity.size)
    (hok : ProducerOk
      (system.shared.perform
        (.storeByte (slot capacity system.shared.head) offset value))
      items pc) :
    Holds ((system.moveProducer pc
      (.storeByte (slot capacity system.shared.head) offset value)).emit
        none) items := by
  constructor
  · exact hholds.history_emit rfl
  · exact hholds.head_eq
  · intro position chunk hchunk hclearing
    have hlt := (List.getElem?_eq_some_iff.1 hchunk).1
    have hne := hholds.slot_item_ne_slot_head hroom hlt
    exact (slotBytes_storeByte_of_ne hne offset 32 value).trans
      (hholds.stored position chunk hchunk hclearing)
  · exact hok
  · intro context pc hpop
    exact (hholds.popOk context pc hpop).frame rfl fun _ hfront => hfront

/-- The producer publishes the chunk it has written. -/
theorem publish
    {chunk : Chunk} {head : UInt64} (hholds : Holds system items)
    (hpc : system.producer = .publish chunk head) :
    Holds ((system.moveProducer .idle (.storeHead (head + 1))).emit
      (some (.pushed chunk))) (items ++ [chunk]) := by
  have hok := hholds.producerOk
  rw [hpc] at hok
  obtain ⟨hroom, hwritten⟩ := hok
  constructor
  · exact (filterMap_emit Event.fifo? system.transcript (some (.pushed chunk))) ▸
      hholds.history.snoc (.pushed chunk hroom.room)
  · rw [List.length_append, List.length_singleton, RingIndex.add_succ]
    exact congrArg (· + 1) (hroom.head_eq.trans hholds.head_eq)
  · intro offset value hvalue hclearing
    by_cases hoffset : offset < items.length
    · rw [List.getElem?_append_left hoffset] at hvalue
      exact hholds.stored offset value hvalue hclearing
    · have hlast := (List.getElem?_eq_some_iff.1 hvalue).1
      rw [List.length_append, List.length_singleton] at hlast
      have hsame : offset = items.length := by omega
      rw [hsame, List.getElem?_append_right le_rfl, Nat.sub_self] at hvalue
      cases hvalue
      rw [hsame]
      rw [hroom.head_eq, hholds.head_eq] at hwritten
      exact hwritten
  · trivial
  · intro context pc hpop
    refine (hholds.popOk context pc hpop).frame rfl ?_
    intro front hfront
    rw [List.head?_append, hfront]
    rfl

end Holds

theorem stepProducer_holds
    {pc : ProducerPc} {access : Access} {event : Option Event}
    (hholds : Holds system items)
    (hstep : stepProducer system.shared system.producer =
      some (pc, access, event)) :
    ∃ remaining,
      Holds ((system.moveProducer pc access).emit event) remaining := by
  have hcase := stepProducer_producerStep hholds.head_eq
    hholds.history.length_le hholds.producerOk hstep
  generalize hpc : system.producer = before at hcase
  cases hcase with
  | headLoaded chunk => exact ⟨items, hholds.produce rfl⟩
  | full chunk head hlength => exact ⟨items, hholds.produce_full hlength⟩
  | entered chunk head hok => exact ⟨items, hholds.produce hok⟩
  | stored chunk offset byte hroom hok =>
      exact ⟨items, hholds.produce_store hroom hok⟩
  | written chunk head hok => exact ⟨items, hholds.produce hok⟩
  | published chunk head => exact ⟨items ++ [chunk], hholds.publish hpc⟩

/-! ## Steps of the contexts -/

structure SameQueue (after before : Shared) : Prop where
  head_eq : after.head = before.head
  tail_eq : after.tail = before.tail
  slots_eq : after.slots = before.slots

namespace Holds

variable {context : ℕ} {pc : ContextPc} {access : Access}
  {event : Option Event}

/-- A context moves without an access to the queue. -/
theorem consume
    (hholds : Holds system items)
    (hqueue : SameQueue (system.shared.perform access) system.shared)
    (hevent : event.bind Event.fifo? = none)
    (hclearing : ∀ before, (system.contexts context).pop? = some before →
      before.clearing → ∃ after, pc.pop? = some after ∧ after.clearing)
    (hok : ∀ after, pc.pop? = some after →
      PopOk system.shared items after) :
    Holds ((system.moveContext context pc access).emit event) items := by
  constructor
  · exact hholds.history_emit hevent
  · exact hqueue.head_eq.trans (hholds.head_eq.trans
      (congrArg (· + UInt64.ofNat items.length) hqueue.tail_eq.symm))
  · intro offset chunk hchunk hlater
    change (system.shared.perform access).slotBytes
      (slot capacity ((system.shared.perform access).tail + _)) 32 = _
    rw [Shared.slotBytes, hqueue.slots_eq, hqueue.tail_eq]
    apply hholds.stored offset chunk hchunk
    intro other before hbefore hclear
    by_cases hsame : other = context
    · rw [hsame] at hbefore
      obtain ⟨after, hafter, hclear⟩ := hclearing before hbefore hclear
      apply hlater context after _ hclear
      rw [moved_contexts_self]
      exact hafter
    · apply hlater other before _ hclear
      rw [moved_contexts_of_ne hsame]
      exact hbefore
  · refine hholds.producerOk.frame hqueue.head_eq le_rfl ?_
    intro _
    exact congrFun hqueue.slots_eq _
  · intro other after hafter
    have hkeep : PopOk system.shared items after := by
      by_cases hsame : other = context
      · rw [hsame, moved_contexts_self] at hafter
        exact hok after hafter
      · rw [moved_contexts_of_ne hsame] at hafter
        exact hholds.popOk other after hafter
    exact hkeep.frame hqueue.tail_eq fun _ hfront => hfront

/-- A context which was outside `pop` moves without an access to the queue. -/
theorem consume_outside
    (hholds : Holds system items)
    (hqueue : SameQueue (system.shared.perform access) system.shared)
    (hevent : event.bind Event.fifo? = none)
    (hbefore : (system.contexts context).pop? = none)
    (hafter : ∀ after, pc.pop? = some after → after = .loadTail) :
    Holds ((system.moveContext context pc access).emit event) items := by
  refine hholds.consume hqueue hevent ?_ ?_
  · intro before hpop
    rw [hbefore] at hpop
    cases hpop
  · intro after hpop
    rw [hafter after hpop]
    trivial

/-- The consumer clears a byte of the slot at `tail`, whose chunk it has
read. -/
theorem consume_clear
    {tail : UInt64} {chunk : Chunk} {offset : ℕ}
    (hholds : Holds system items)
    (hpc : (system.contexts context).pop? =
      some (.zeroize tail chunk offset))
    (hafter : pc.pop? = some (.zeroize tail chunk (offset + 1))) :
    Holds ((system.moveContext context pc
      (.storeByte (slot capacity tail) offset 0)).emit none) items := by
  have hfront : Front system.shared items tail chunk :=
    hholds.popOk context _ hpc
  have hnext : (((system.moveContext context pc
      (.storeByte (slot capacity tail) offset 0)).emit none).contexts
        context).pop? = some (.zeroize tail chunk (offset + 1)) := by
    rw [moved_contexts_self]
    exact hafter
  have htail := hfront.tail_eq
  subst htail
  constructor
  · exact hholds.history_emit rfl
  · exact hholds.head_eq
  · intro position value hvalue hlater
    have hpos : 0 < position := hlater context _ hnext trivial
    have hlt := (List.getElem?_eq_some_iff.1 hvalue).1
    have hne := hholds.slot_item_ne_slot_tail hpos hlt
    exact (slotBytes_storeByte_of_ne hne offset 32 0).trans
      (hholds.stored position value hvalue fun _ _ _ _ => hpos)
  · refine hholds.producerOk.frame rfl le_rfl ?_
    intro hroom
    have hne := hholds.slot_tail_ne_slot_head hroom hfront.length_pos
    simp [System.moveContext, System.emit, Shared.perform, hne.symm]
  · intro other after hpop
    by_cases hsame : other = context
    · subst hsame
      cases hnext.symm.trans hpop
      exact ⟨rfl, hfront.front⟩
    · rw [moved_contexts_of_ne hsame] at hpop
      exact (hholds.popOk other after hpop).frame rfl fun _ hhead => hhead

/-- The consumer gives the slot at `tail` back. -/
theorem retire
    {tail : UInt64} {chunk : Chunk} {pool : ℕ}
    (hholds : Holds system items)
    (hpc : (system.contexts context).pop? = some (.publish tail chunk))
    (hothers : ∀ other, other ≠ context →
      (system.contexts other).pop? = none)
    (hafter : ∀ after, pc.pop? = some after → after = .loadTail) :
    ∃ rest, items = chunk :: rest ∧
      Holds ((system.moveContext context pc (.storeTail (tail + 1))).emit
        (some (.acted context pool (.popped chunk)))) rest := by
  have hfront : Front system.shared items tail chunk :=
    hholds.popOk context _ hpc
  obtain ⟨rest, hitems⟩ := List.head?_eq_some_iff.1 hfront.front
  have htail := hfront.tail_eq
  subst htail hitems
  refine ⟨rest, rfl, ?_⟩
  constructor
  · exact (filterMap_emit Event.fifo? system.transcript
      (some (.acted context pool (.popped chunk)))) ▸
        hholds.history.snoc (.popped chunk rest)
  · have hnext := hholds.head_eq
    rw [List.length_cons, ← RingIndex.succ_add] at hnext
    exact hnext
  · intro offset value hvalue _
    have hslot := hholds.stored (offset + 1) value hvalue
      fun _ _ _ _ => Nat.succ_pos _
    rw [← RingIndex.succ_add] at hslot
    exact hslot
  · exact hholds.producerOk.frame rfl (Nat.le_succ _) fun _ => rfl
  · intro other after hpop
    by_cases hsame : other = context
    · rw [hsame, moved_contexts_self] at hpop
      rw [hafter after hpop]
      trivial
    · rw [moved_contexts_of_ne hsame] at hpop
      rw [hothers other hsame] at hpop
      cases hpop

end Holds

theorem own_pop?_afterMix (call : Call) :
    (ContextPc.own call (afterMix call)).pop? = none := by
  cases call with
  | mixEntropy | extractEntropy => rfl

theorem own_pop?_extracting (call : Call) (out : Bytes) (offset : ℕ) :
    (ContextPc.own call (extracting out offset)).pop? = none := by
  rw [extracting]
  split_ifs <;> rfl

theorem own_pop?_afterPops (call : Call) (batch : List Chunk) :
    (ContextPc.own call (.mix (afterPops batch))).pop? = none := by
  cases batch with
  | nil | cons => rfl

theorem own_pop?_nextPop
    {call : Call} {batch : List Chunk} {pc : PopPc}
    (hpop : (ContextPc.own call (.mix (nextPop batch))).pop? = some pc) :
    pc = .loadTail := by
  rw [nextPop] at hpop
  split_ifs at hpop
  · cases hpop
    rfl
  · rw [own_pop?_afterPops] at hpop
    cases hpop

/-- Every step of a consumer which is where it says. -/
inductive PopStep (shared : Shared) (items : List Chunk) :
    PopPc → Progress PopPc (Option Chunk) → Access → Prop
  | tailLoaded :
      PopStep shared items .loadTail (.running (.loadHead shared.tail))
        .nothing
  | empty (tail : UInt64) (hnone : items = []) :
      PopStep shared items (.loadHead tail) (.done none) .nothing
  | found (tail : UInt64) (hok : PopOk shared items (.read tail [])) :
      PopStep shared items (.loadHead tail) (.running (.read tail []))
        .nothing
  | byteRead (tail : UInt64) (bytes : Bytes) (byte : UInt8)
      (hok : PopOk shared items (.read tail (bytes ++ [byte]))) :
      PopStep shared items (.read tail bytes)
        (.running (.read tail (bytes ++ [byte]))) .nothing
  | chunkRead (tail : UInt64) (chunk : Chunk)
      (hfront : Front shared items tail chunk) :
      PopStep shared items (.read tail chunk.bytes)
        (.running (.zeroize tail chunk 0)) .nothing
  | byteCleared (tail : UInt64) (chunk : Chunk) (offset : ℕ) :
      PopStep shared items (.zeroize tail chunk offset)
        (.running (.zeroize tail chunk (offset + 1)))
        (.storeByte (slot capacity tail) offset 0)
  | chunkCleared (tail : UInt64) (chunk : Chunk) (offset : ℕ)
      (hoffset : 32 ≤ offset) :
      PopStep shared items (.zeroize tail chunk offset)
        (.running (.publish tail chunk)) .nothing
  | popped (tail : UInt64) (chunk : Chunk) :
      PopStep shared items (.publish tail chunk) (.done (some chunk))
        (.storeTail (tail + 1))

theorem stepPop_popStep
    {pc : PopPc} {progress : Progress PopPc (Option Chunk)} {access : Access}
    (hhead : shared.head = shared.tail + UInt64.ofNat items.length)
    (hlength : items.length ≤ capacity.size)
    (hstored : ¬ pc.clearing → ∀ front, items.head? = some front →
      shared.slotBytes (slot capacity shared.tail) 32 = front.bytes)
    (hok : PopOk shared items pc)
    (hpop : stepPop shared pc = (progress, access)) :
    PopStep shared items pc progress access := by
  cases pc with
  | loadTail =>
      cases hpop
      exact .tailLoaded
  | loadHead tail =>
      have htail : tail = shared.tail := hok
      have hempty : shared.head = tail ↔ items = [] := by
        rw [htail, hhead, RingIndex.add_eq_self_iff capacity hlength,
          List.length_eq_zero_iff]
      rw [stepPop] at hpop
      split_ifs at hpop with hsame
      · cases hpop
        exact .empty tail (hempty.1 hsame)
      · cases hpop
        rw [hempty] at hsame
        obtain ⟨front, rest, rfl⟩ := List.exists_cons_of_ne_nil hsame
        exact .found tail ⟨front, ⟨htail, rfl⟩, List.nil_prefix⟩
  | read tail bytes =>
      obtain ⟨front, hfront, hread⟩ := hok
      rw [stepPop] at hpop
      split_ifs at hpop with hbytes
      · cases hpop
        have hchunk : (⟨bytes, hbytes⟩ : Chunk) = front :=
          Block.ext (hread.eq_of_length (hbytes.trans front.length_eq.symm))
        rw [← hchunk] at hfront
        exact .chunkRead tail ⟨bytes, hbytes⟩ hfront
      · cases hpop
        have hslot := hstored id front hfront.front
        rw [← hfront.tail_eq] at hslot
        exact .byteRead tail bytes _
          ⟨front, hfront, slotBytes_read_snoc hslot hread hbytes⟩
  | zeroize tail chunk offset =>
      rw [stepPop] at hpop
      split_ifs at hpop with hoffset
      · cases hpop
        exact .byteCleared tail chunk offset
      · cases hpop
        exact .chunkCleared tail chunk offset (Nat.le_of_not_lt hoffset)
  | publish tail chunk =>
      cases hpop
      exact .popped tail chunk

/-- The owner of the consumer gate runs `pop`. -/
theorem popping_holds
    {context : ℕ} {call : Call} {batch : List Chunk} {pc after : PopPc}
    {access : Access} (hholds : Holds system items)
    (hpc : system.contexts context = .own call (.mix (.pop batch pc)))
    (hothers : ∀ other, other ≠ context →
      (system.contexts other).pop? = none)
    (hpop : stepPop system.shared pc = (.running after, access)) :
    Holds ((system.moveContext context (.own call (.mix (.pop batch after)))
      access).emit none) items := by
  have hbefore : (system.contexts context).pop? = some pc := by
    rw [hpc]
    rfl
  have hok := hholds.popOk context pc hbefore
  have hquiet : ∀ after : PopPc, (pc.clearing → after.clearing) →
      PopOk system.shared items after →
        Holds ((system.moveContext context
          (.own call (.mix (.pop batch after))) .nothing).emit none)
            items := by
    intro after hclearing hafter
    refine hholds.consume ⟨rfl, rfl, rfl⟩ rfl ?_ ?_
    · intro before hsome hclear
      rw [hbefore] at hsome
      cases hsome
      exact ⟨after, rfl, hclearing hclear⟩
    · intro other hother
      cases hother
      exact hafter
  have hstored : ¬ pc.clearing → ∀ front, items.head? = some front →
      system.shared.slotBytes (slot capacity system.shared.tail) 32 =
        front.bytes := by
    intro hclearing front hfront
    have hslot := hholds.stored 0 front
      (List.head?_eq_getElem?.symm.trans hfront) ?_
    · simpa using hslot
    · intro other before hother hclear
      by_cases hsame : other = context
      · rw [hsame, hbefore] at hother
        cases hother
        exact absurd hclear hclearing
      · rw [hothers other hsame] at hother
        cases hother
  cases stepPop_popStep hholds.head_eq hholds.history.length_le hstored hok
    hpop with
  | tailLoaded => exact hquiet _ False.elim rfl
  | found tail hread => exact hquiet _ False.elim hread
  | byteRead tail bytes byte hread => exact hquiet _ False.elim hread
  | chunkRead tail chunk hfront => exact hquiet _ (fun _ => trivial) hfront
  | byteCleared tail chunk offset => exact hholds.consume_clear hbefore rfl
  | chunkCleared tail chunk offset hoffset =>
      exact hquiet _ (fun _ => trivial) hok

/-- Only the owner of the consumer gate is inside `pop`. -/
theorem Owned.pop?_eq_none
    (howned : Owned system) {context : ℕ}
    (howns : (system.contexts context).OwnsQueue) {other : ℕ}
    (hne : other ≠ context) : (system.contexts other).pop? = none := by
  by_contra hpop
  apply hne
  apply howned.queue.unique other context _ howns
  cases hpc : system.contexts other with
  | idle | acquire =>
      rw [hpc] at hpop
      exact absurd rfl hpop
  | own call pc =>
      rw [hpc] at hpop
      cases pc with
      | mix pc => trivial
      | acquireConsumerGate | extract | release => exact absurd rfl hpop

theorem OwnerStep.holds
    {context : ℕ} {call : Call} {pc after : OwnerPc} {access : Access}
    {event : Option PoolEvent} (hholds : Holds system items)
    (howned : Owned system)
    (hpc : system.contexts context = .own call pc)
    (howner : OwnerStep sha384 system.shared call pc after access event) :
    ∃ remaining,
      Holds ((system.moveContext context (.own call after) access).emit
        (event.map (.acted context call.pool))) remaining := by
  have hpop? : (system.contexts context).pop? =
      (ContextPc.own call pc).pop? := by rw [hpc]
  have hothers : (ContextPc.own call pc).OwnsQueue → ∀ other,
      other ≠ context → (system.contexts other).pop? = none := by
    intro howns other hne
    apply howned.pop?_eq_none _ hne
    rw [hpc]
    exact howns
  cases howner with
  | popping batch hpop =>
      exact ⟨items, popping_holds hholds hpc (hothers trivial) hpop⟩
  | @queueEmpty batch pc access hpop =>
      obtain ⟨⟨tail, rfl⟩, rfl⟩ := stepPop_none hpop
      refine ⟨items, hholds.consume ⟨rfl, rfl, rfl⟩ rfl ?_ ?_⟩
      · intro before hbefore hclear
        rw [hpop?] at hbefore
        cases hbefore
        exact absurd hclear id
      · intro after hafter
        rw [own_pop?_afterPops] at hafter
        cases hafter
  | @popped batch pc chunk access hpop =>
      obtain ⟨tail, rfl, rfl⟩ := stepPop_some hpop
      obtain ⟨rest, _, hretired⟩ := hholds.retire hpop? (hothers trivial)
        (fun after hafter => own_pop?_nextPop hafter)
      exact ⟨rest, hretired⟩
  | gateTaken | gateReleased =>
      refine ⟨items, hholds.consume_outside ⟨rfl, rfl, rfl⟩ rfl hpop? ?_⟩
      intro after hafter
      rw [own_pop?_afterMix] at hafter
      cases hafter
  | gateEntered =>
      refine ⟨items, hholds.consume_outside ⟨rfl, rfl, rfl⟩ rfl hpop? ?_⟩
      intro after hafter
      cases hafter
      rfl
  | seeded | committed =>
      refine ⟨items, hholds.consume_outside ⟨rfl, rfl, rfl⟩ rfl hpop? ?_⟩
      intro after hafter
      rw [own_pop?_extracting] at hafter
      cases hafter
  | mixLocked | mixLoaded | absorbed | mixUnlocked | counted | starved
  | snapshotLocked | snapshotLoaded | squeezed | commitLocked | advanced =>
      refine ⟨items, hholds.consume_outside ⟨rfl, rfl, rfl⟩ rfl hpop? ?_⟩
      intro after hafter
      cases hafter
  | spinning pc =>
      refine ⟨items, hholds.consume ⟨rfl, rfl, rfl⟩ rfl ?_ ?_⟩
      · intro before hbefore hclear
        exact ⟨before, hpop?.symm.trans hbefore, hclear⟩
      · intro after hafter
        exact hholds.popOk context after (hpop?.trans hafter)

theorem SystemStep.keeps_holds
    {action : Action} (hstep : SystemStep sha384 system action next)
    (howned : Owned system)
    (hholds : Holds system items) : ∃ remaining, Holds next remaining := by
  cases hstep with
  | pushing chunk hidle =>
      have hproduced : ProducerOk system.shared items (.loadHead chunk) :=
        trivial
      have hnext := hholds.produce hproduced
      rw [System.emit, Option.toList_none, List.append_nil] at hnext
      exact ⟨items, hnext⟩
  | produced hproducer => exact stepProducer_holds hholds hproducer
  | called context call hpc | refused context call hpc =>
      refine ⟨items, hholds.consume_outside ⟨rfl, rfl, rfl⟩ rfl ?_ ?_⟩
      · rw [hpc]
        rfl
      · intro after hafter
        cases hafter
  | entered context call hpc hfree =>
      refine ⟨items, hholds.consume_outside ⟨rfl, rfl, rfl⟩ rfl ?_ ?_⟩
      · rw [hpc]
        rfl
      · intro after hafter
        cases hafter
  | owned context call hpc howner => exact howner.holds hholds howned hpc
  | left context call result out hpc =>
      refine ⟨items, hholds.consume_outside ⟨rfl, rfl, rfl⟩ rfl ?_ ?_⟩
      · rw [hpc]
        rfl
      · intro after hafter
        cases hafter

end Entropy
end ShawnCore
