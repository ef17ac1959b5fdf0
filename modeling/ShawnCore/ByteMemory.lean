import Mathlib.Tactic

/-!
# Byte-addressed memory

A memory has one byte at every 64-bit address.  A range goes on at address zero
after the last address, so that reading and writing are defined for every
address and length.  A list of writes is performed in order; when its ranges
are apart from each other, each of them can be read back afterwards.
-/

namespace ByteMemory

abbrev Memory := UInt64 → UInt8

def Within (start : UInt64) (length : ℕ) (address : UInt64) : Prop :=
  (address - start).toNat < length

/-- Two ranges without a common address. -/
def Apart (first : UInt64) (firstLength : ℕ) (second : UInt64)
    (secondLength : ℕ) : Prop :=
  ∀ address, Within first firstLength address →
    ¬ Within second secondLength address

def read (memory : Memory) (start : UInt64) (length : ℕ) : List UInt8 :=
  (List.range length).map fun offset => memory (start + UInt64.ofNat offset)

structure Write where
  start : UInt64
  bytes : List UInt8
deriving DecidableEq

def Write.Covers (write : Write) (address : UInt64) : Prop :=
  Within write.start write.bytes.length address

def Write.perform (memory : Memory) (write : Write) : Memory :=
  fun address =>
    (write.bytes[(address - write.start).toNat]?).getD (memory address)

def performAll (memory : Memory) (writes : List Write) : Memory :=
  writes.foldl Write.perform memory

theorem Apart.symm
    {first second : UInt64} {firstLength secondLength : ℕ}
    (hapart : Apart first firstLength second secondLength) :
    Apart second secondLength first firstLength :=
  fun address hsecond hfirst => hapart address hfirst hsecond

/-! ## Reading -/

@[simp] theorem length_read (memory : Memory) (start : UInt64) (length : ℕ) :
    (read memory start length).length = length := by
  simp [read]

theorem within_add
    {start : UInt64} {length offset : ℕ} (hoffset : offset < length) :
    Within start length (start + UInt64.ofNat offset) := by
  have hdistance : start + UInt64.ofNat offset - start = UInt64.ofNat offset := by
    rw [UInt64.add_comm, UInt64.add_sub_cancel]
  rw [Within, hdistance, UInt64.toNat_ofNat']
  exact lt_of_le_of_lt (Nat.mod_le _ _) hoffset

/-- Reading depends on the bytes of the range only. -/
theorem read_congr
    {memory memory' : Memory} {start : UInt64} {length : ℕ}
    (hsame : ∀ address, Within start length address →
      memory address = memory' address) :
    read memory start length = read memory' start length := by
  unfold read
  apply List.map_congr_left
  intro offset hoffset
  exact hsame _ (within_add (List.mem_range.1 hoffset))

/-! ## Writing -/

theorem Write.perform_of_not_covers
    {write : Write} {memory : Memory} {address : UInt64}
    (houtside : ¬ write.Covers address) :
    write.perform memory address = memory address := by
  unfold Write.perform
  rw [List.getElem?_eq_none (not_lt.1 houtside)]
  rfl

theorem read_perform_self
    {write : Write} {memory : Memory} {length : ℕ}
    (hlength : write.bytes.length = length) (hfits : length ≤ 2 ^ 64) :
    read (write.perform memory) write.start length = write.bytes := by
  apply List.ext_getElem
  · simp [hlength]
  · intro offset hread hbytes
    have hdistance :
        (write.start + UInt64.ofNat offset - write.start).toNat = offset := by
      rw [UInt64.add_comm, UInt64.add_sub_cancel, UInt64.toNat_ofNat']
      exact Nat.mod_eq_of_lt (by omega)
    simp only [read, List.getElem_map, List.getElem_range, Write.perform,
      hdistance, List.getElem?_eq_getElem hbytes, Option.getD_some]

@[simp] theorem performAll_nil (memory : Memory) :
    performAll memory [] = memory := rfl

@[simp] theorem performAll_cons
    (memory : Memory) (write : Write) (rest : List Write) :
    performAll memory (write :: rest) =
      performAll (write.perform memory) rest := rfl

theorem performAll_of_not_covers
    {memory : Memory} {writes : List Write} {address : UInt64}
    (houtside : ∀ write ∈ writes, ¬ write.Covers address) :
    performAll memory writes address = memory address := by
  induction writes generalizing memory with
  | nil => rfl
  | cons write rest ih =>
      rw [performAll_cons, ih fun other hother =>
        houtside other (List.mem_cons_of_mem _ hother)]
      exact Write.perform_of_not_covers (houtside write List.mem_cons_self)

/-- A range apart from all writes keeps its bytes. -/
theorem read_performAll_of_apart
    {memory : Memory} {writes : List Write} {start : UInt64} {length : ℕ}
    (hapart : ∀ write ∈ writes,
      Apart start length write.start write.bytes.length) :
    read (performAll memory writes) start length =
      read memory start length := by
  apply read_congr
  intro address haddress
  apply performAll_of_not_covers
  intro write hwrite hcovers
  exact hapart write hwrite address haddress hcovers

def Write.ApartFrom (first second : Write) : Prop :=
  Apart first.start first.bytes.length second.start second.bytes.length

/-- Writes to ranges which are apart can all be read back. -/
theorem read_performAll_of_mem
    {memory : Memory} {writes : List Write} {write : Write} {length : ℕ}
    (hpairwise : writes.Pairwise Write.ApartFrom) (hwrite : write ∈ writes)
    (hlength : write.bytes.length = length) (hfits : length ≤ 2 ^ 64) :
    read (performAll memory writes) write.start length = write.bytes := by
  induction writes generalizing memory with
  | nil => cases hwrite
  | cons first rest ih =>
      obtain ⟨hfirst, hrest⟩ := List.pairwise_cons.1 hpairwise
      rw [performAll_cons]
      rcases List.mem_cons.1 hwrite with rfl | hlater
      · rw [read_performAll_of_apart fun other hother => by
          rw [← hlength]
          exact hfirst other hother]
        exact read_perform_self hlength hfits
      · exact ih hrest hlater

/-! ## Objects in memory -/

/-- How the values of a type are stored. -/
structure Format (α : Type) where
  size : UInt64
  alignment : UInt64
  encode : α → List UInt8
  decode : List UInt8 → α
  length_encode : ∀ value, (encode value).length = size.toNat
  decode_encode : ∀ value, decode (encode value) = value

namespace Format

variable {α : Type} (format : Format α)

def load (memory : Memory) (address : UInt64) : α :=
  format.decode (read memory address format.size.toNat)

def write (address : UInt64) (value : α) : Write :=
  ⟨address, format.encode value⟩

@[simp] theorem write_start (address : UInt64) (value : α) :
    (format.write address value).start = address := rfl

@[simp] theorem length_write (address : UInt64) (value : α) :
    (format.write address value).bytes.length = format.size.toNat :=
  format.length_encode value

theorem load_congr
    {memory memory' : Memory} {address : UInt64}
    (hsame : read memory address format.size.toNat =
      read memory' address format.size.toNat) :
    format.load memory address = format.load memory' address := by
  rw [load, load, hsame]

theorem load_performAll_of_mem
    {memory : Memory} {writes : List Write} {address : UInt64} {value : α}
    (hpairwise : writes.Pairwise Write.ApartFrom)
    (hwrite : format.write address value ∈ writes) :
    format.load (performAll memory writes) address = value := by
  have hread : read (performAll memory writes) address format.size.toNat =
      format.encode value :=
    read_performAll_of_mem hpairwise hwrite
      (format.length_write address value) format.size.toNat_lt.le
  rw [load, hread]
  exact format.decode_encode value

end Format

end ByteMemory
