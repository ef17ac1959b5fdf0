import ShawnCore.ByteMemory

/-!
# Cells of a memory

A data structure in memory is a family of cells, ranges without a common
address.  A store to one cell, or to one byte of it, leaves the others as they
were, and so does a store to addresses outside of all cells.
-/

namespace ByteMemory

/-! ## Ranges at an offset -/

theorem offset_of_within
    {start : UInt64} {offset length : ℕ} {address : UInt64}
    (hfits : offset + length ≤ 2 ^ 64)
    (hwithin : Within (start + UInt64.ofNat offset) length address) :
    offset ≤ (address - start).toNat ∧
      (address - start).toNat < offset + length := by
  have hdistance : address - start =
      (address - (start + UInt64.ofNat offset)) + UInt64.ofNat offset := by
    rw [UInt64.sub_eq_iff_eq_add, UInt64.add_assoc,
      UInt64.add_comm (UInt64.ofNat offset), UInt64.sub_add_cancel]
  rw [Within] at hwithin
  rw [hdistance, UInt64.toNat_add, UInt64.toNat_ofNat']
  omega

theorem within_of_within_add
    {start : UInt64} {offset length total : ℕ} {address : UInt64}
    (hinside : offset + length ≤ total) (hfits : total ≤ 2 ^ 64)
    (hwithin : Within (start + UInt64.ofNat offset) length address) :
    Within start total address :=
  (offset_of_within (hinside.trans hfits) hwithin).2.trans_le hinside

/-- Two ranges at offsets which do not meet. -/
theorem apart_of_offsets
    {start : UInt64} {first firstLength second secondLength : ℕ}
    (hfirst : first + firstLength ≤ 2 ^ 64)
    (hsecond : second + secondLength ≤ 2 ^ 64)
    (hmeet : first + firstLength ≤ second ∨ second + secondLength ≤ first) :
    Apart (start + UInt64.ofNat first) firstLength
      (start + UInt64.ofNat second) secondLength := by
  intro address hleft hright
  have hlow := offset_of_within hfirst hleft
  have hhigh := offset_of_within hsecond hright
  omega

/-- Ranges inside of two ranges which are apart. -/
theorem Apart.at_offsets
    {first second : UInt64} {firstTotal secondTotal : ℕ}
    (hapart : Apart first firstTotal second secondTotal)
    (hfirstTotal : firstTotal ≤ 2 ^ 64) (hsecondTotal : secondTotal ≤ 2 ^ 64)
    {offset length other otherLength : ℕ}
    (hinside : offset + length ≤ firstTotal)
    (hother : other + otherLength ≤ secondTotal) :
    Apart (first + UInt64.ofNat offset) length
      (second + UInt64.ofNat other) otherLength := by
  intro address hleft hright
  exact hapart address
    (within_of_within_add hinside hfirstTotal hleft)
    (within_of_within_add hother hsecondTotal hright)

/-- Ranges which do not wrap around and do not meet. -/
theorem apart_of_toNat
    {first second : UInt64} {firstLength secondLength : ℕ}
    (hfirst : first.toNat + firstLength ≤ 2 ^ 64)
    (hsecond : second.toNat + secondLength ≤ 2 ^ 64)
    (hmeet : second.toNat + secondLength ≤ first.toNat ∨
      first.toNat + firstLength ≤ second.toNat) :
    Apart first firstLength second secondLength := by
  intro address hleft hright
  have haddress := address.toNat_lt
  rw [Within, UInt64.toNat_sub] at hleft hright
  omega

theorem Apart.shorten
    {first second : UInt64} {firstLength secondLength length : ℕ}
    (hapart : Apart first firstLength second secondLength)
    (hle : length ≤ secondLength) :
    Apart first firstLength second length :=
  fun address hfirst hsecond =>
    hapart address hfirst (Nat.lt_of_lt_of_le hsecond hle)

/-! ## Cells -/

structure Cells (ι : Type*) where
  start : ι → UInt64
  size : ι → ℕ
  size_le : ∀ cell, size cell ≤ 2 ^ 64
  apart : ∀ first second, first ≠ second →
    Apart (start first) (size first) (start second) (size second)

namespace Cells

variable {ι : Type*} (cells : Cells ι)

def content (memory : Memory) (cell : ι) : List UInt8 :=
  read memory (cells.start cell) (cells.size cell)

def store (cell : ι) (bytes : List UInt8) : Write :=
  ⟨cells.start cell, bytes⟩

def storeByte (cell : ι) (offset : ℕ) (byte : UInt8) : Write :=
  ⟨cells.start cell + UInt64.ofNat offset, [byte]⟩

def storeAll (stores : List (ι × List UInt8)) : List Write :=
  stores.map fun store => cells.store store.1 store.2

variable {cells} {memory : Memory} {cell other : ι} {bytes : List UInt8}
  {offset : ℕ} {byte : UInt8}

@[simp] theorem length_content (memory : Memory) (cell : ι) :
    (cells.content memory cell).length = cells.size cell := by
  simp [content]

theorem content_store_self (hlength : bytes.length = cells.size cell) :
    cells.content ((cells.store cell bytes).perform memory) cell = bytes :=
  read_perform_self hlength (cells.size_le cell)

theorem content_store_of_ne
    (hother : other ≠ cell) (hlength : bytes.length = cells.size cell) :
    cells.content ((cells.store cell bytes).perform memory) other =
      cells.content memory other := by
  apply read_congr
  intro address hwithin
  apply Write.perform_of_not_covers
  intro hcovers
  rw [Write.Covers, store, hlength] at hcovers
  exact cells.apart other cell hother address hwithin hcovers

theorem content_storeAll_of_ne
    {stores : List (ι × List UInt8)}
    (hlength : ∀ store ∈ stores, store.2.length = cells.size store.1)
    (hother : ∀ store ∈ stores, store.1 ≠ cell) :
    cells.content (performAll memory (cells.storeAll stores)) cell =
      cells.content memory cell := by
  induction stores generalizing memory with
  | nil => rfl
  | cons store rest ih =>
      have hstore := List.forall_mem_cons.1 hother
      have hsize := List.forall_mem_cons.1 hlength
      refine (ih hsize.2 hstore.2).trans ?_
      exact content_store_of_ne hstore.1.symm hsize.1

/-- A cell to which several stores write the same bytes. -/
theorem content_storeAll
    {stores : List (ι × List UInt8)}
    (hlength : ∀ store ∈ stores, store.2.length = cells.size store.1)
    (hsame : ∀ store ∈ stores, store.1 = cell → store.2 = bytes)
    (hstored : ∃ store ∈ stores, store.1 = cell) :
    cells.content (performAll memory (cells.storeAll stores)) cell =
      bytes := by
  induction stores generalizing memory with
  | nil =>
      obtain ⟨store, hmem, _⟩ := hstored
      cases hmem
  | cons store rest ih =>
      have hsize := List.forall_mem_cons.1 hlength
      have hbytes := List.forall_mem_cons.1 hsame
      by_cases hrest : ∃ later ∈ rest, later.1 = cell
      · exact ih hsize.2 hbytes.2 hrest
      · -- the first store is the last one to this cell
        push Not at hrest
        have hcell : store.1 = cell := by
          obtain ⟨found, hmem, hfound⟩ := hstored
          rcases List.mem_cons.1 hmem with rfl | hlater
          · exact hfound
          · exact absurd hfound (hrest found hlater)
        refine (content_storeAll_of_ne hsize.2 hrest).trans ?_
        rw [← hbytes.1 hcell, ← hcell]
        exact content_store_self hsize.1

theorem within_storeByte
    {address : UInt64} (hoffset : offset < cells.size cell)
    (hcovers : (cells.storeByte cell offset byte).Covers address) :
    Within (cells.start cell) (cells.size cell) address :=
  within_of_within_add hoffset (cells.size_le cell) hcovers

theorem content_storeByte_of_ne
    (hother : other ≠ cell) (hoffset : offset < cells.size cell) :
    cells.content ((cells.storeByte cell offset byte).perform memory) other =
      cells.content memory other := by
  apply read_congr
  intro address hwithin
  apply Write.perform_of_not_covers
  intro hcovers
  exact cells.apart other cell hother address hwithin
    (within_storeByte hoffset hcovers)

theorem toNat_distance (start : UInt64) (hoffset : offset < 2 ^ 64) :
    (start + UInt64.ofNat offset - start).toNat = offset := by
  rw [UInt64.add_comm, UInt64.add_sub_cancel, UInt64.toNat_ofNat',
    Nat.mod_eq_of_lt hoffset]

theorem content_storeByte_self (hoffset : offset < cells.size cell) :
    cells.content ((cells.storeByte cell offset byte).perform memory) cell =
      (cells.content memory cell).set offset byte := by
  have hsize := cells.size_le cell
  apply List.ext_getElem
  · simp
  · intro index hindex _
    rw [length_content] at hindex
    simp only [content, read, List.getElem_map, List.getElem_range,
      List.getElem_set]
    split
    next hsame =>
      subst hsame
      simp [Write.perform, storeByte]
    next hdifferent =>
      apply Write.perform_of_not_covers
      intro hcovers
      have hfits : offset + 1 ≤ 2 ^ 64 := by omega
      have hdistance := offset_of_within hfits hcovers
      rw [toNat_distance _ (by omega)] at hdistance
      omega

end Cells

/-! ## Copying byte by byte -/

/-- One more byte of the source has been stored. -/
theorem take_set_succ
    {bytes source : List UInt8} {offset : ℕ} {byte : UInt8}
    (hoffset : offset < bytes.length)
    (htake : bytes.take offset = source.take offset)
    (hbyte : source[offset]? = some byte) :
    (bytes.set offset byte).take (offset + 1) = source.take (offset + 1) := by
  rw [List.take_add_one, List.take_add_one, hbyte, List.getElem?_set_self
    hoffset, List.take_set_of_le le_rfl, htake]

/-- One more byte of a range has been loaded. -/
theorem take_read_succ
    {memory : Memory} {start : UInt64} {length offset : ℕ}
    (hoffset : offset < length) :
    (read memory start length).take offset ++
        [memory (start + UInt64.ofNat offset)] =
      (read memory start length).take (offset + 1) := by
  rw [List.take_add_one]
  simp [read, hoffset]

end ByteMemory
