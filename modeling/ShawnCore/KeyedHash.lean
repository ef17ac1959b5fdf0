import ShawnCore.ByteBlocks

/-!
# Keyed hashes: the HMAC key block and HKDF

The key block of RFC 2104 and the extract-and-expand construction of RFC 5869
over an arbitrary hash and an arbitrary keyed hash with `L`-byte outputs.
Nothing here assumes that the functions are cryptographically strong; the
lemmas only say which keyed-hash inputs the construction evaluates.
-/

namespace KeyedHash

open ByteBlocks

variable {L : ℕ}

/-- The key block of HMAC: an overlong key is hashed first, and the result is
padded with zero bytes on the right. -/
def keyBlock (hash : Bytes → Block L) (blockLen : ℕ) (key : Bytes) : Bytes :=
  let short := if blockLen < key.length then (hash key).bytes else key
  short ++ List.replicate (blockLen - short.length) 0

theorem keyBlock_of_length_le
    (hash : Bytes → Block L) {blockLen : ℕ} {key : Bytes}
    (hkey : key.length ≤ blockLen) :
    keyBlock hash blockLen key =
      key ++ List.replicate (blockLen - key.length) 0 := by
  simp [keyBlock, Nat.not_lt.mpr hkey]

/-- Among keys of one length which fits the block, the key block determines
the key. -/
theorem keyBlock_inj_of_length_eq
    (hash : Bytes → Block L) {blockLen : ℕ} {key key' : Bytes}
    (hlength : key.length = key'.length) (hfits : key.length ≤ blockLen)
    (heq : keyBlock hash blockLen key = keyBlock hash blockLen key') :
    key = key' := by
  rw [keyBlock_of_length_le hash hfits,
    keyBlock_of_length_le hash (hlength ▸ hfits)] at heq
  exact (List.append_inj heq hlength).1

/-! ## Expansion -/

/-- Block `index` of the expansion; block zero is empty. -/
def expandBlock
    (mac : Bytes → Bytes → Block L) (prk info : Bytes) : ℕ → Bytes
  | 0 => []
  | index + 1 =>
      (mac prk (expandBlock mac prk info index ++ info ++
        [UInt8.ofNat (index + 1)])).bytes

/-- The concatenation of the first `count` blocks. -/
def expandBlocks
    (mac : Bytes → Bytes → Block L) (prk info : Bytes) : ℕ → Bytes
  | 0 => []
  | count + 1 =>
      expandBlocks mac prk info count ++ expandBlock mac prk info (count + 1)

@[simp] theorem expandBlocks_length
    (mac : Bytes → Bytes → Block L) (prk info : Bytes) (count : ℕ) :
    (expandBlocks mac prk info count).length = count * L := by
  induction count with
  | zero => simp [expandBlocks]
  | succ count ih =>
      simp [expandBlocks, expandBlock, ih, Nat.succ_mul]

theorem le_blockCount_mul [NeZero L] (len : ℕ) :
    len ≤ (len + L - 1) / L * L := by
  have hpos : 0 < L := Nat.pos_of_ne_zero (NeZero.ne L)
  have hlt := Nat.lt_mul_div_succ (len + L - 1) hpos
  rw [Nat.mul_add, Nat.mul_one, Nat.mul_comm] at hlt
  omega

/-- HKDF-Expand to `len` bytes. -/
def expand [NeZero L]
    (mac : Bytes → Bytes → Block L) (prk info : Bytes) (len : ℕ) :
    Block len where
  bytes := (expandBlocks mac prk info ((len + L - 1) / L)).take len
  length_eq := by
    rw [List.length_take, expandBlocks_length,
      Nat.min_eq_left (le_blockCount_mul len)]

theorem expandBlocks_take_first
    (mac : Bytes → Bytes → Block L) (prk info : Bytes) (count : ℕ) :
    (expandBlocks mac prk info (count + 1)).take L =
      expandBlock mac prk info 1 := by
  induction count with
  | zero =>
      simp [expandBlocks, expandBlock, List.take_of_length_le]
  | succ count ih =>
      rw [expandBlocks, List.take_append_of_le_length, ih]
      rw [expandBlocks_length]
      exact Nat.le_mul_of_pos_left L count.succ_pos

/-- The first `L` bytes of an expansion are a single keyed hash of the info
string followed by the block number one. -/
theorem expand_slice_first [NeZero L]
    (mac : Bytes → Bytes → Block L) (prk info : Bytes) {len : ℕ}
    (hlen : 0 + L ≤ len) :
    (expand mac prk info len).slice 0 L hlen = mac prk (info ++ [1]) := by
  have hpos : 0 < L := Nat.pos_of_ne_zero (NeZero.ne L)
  obtain ⟨count, hcount⟩ : ∃ count, (len + L - 1) / L = count + 1 := by
    refine ⟨(len + L - 1) / L - 1, ?_⟩
    have : 0 < (len + L - 1) / L := Nat.div_pos (by omega) hpos
    omega
  apply Block.ext
  simp only [Block.slice, expand, List.drop_zero, hcount]
  rw [List.take_take, Nat.min_eq_left (by omega), expandBlocks_take_first]
  simp [expandBlock]

/-! ## What an expansion hashes -/

/-- A string which an expansion to `len` bytes may hash, whatever the values of
its earlier blocks: the block before, if there is one, the info string and the
number of the block. -/
def ExpandInput (L : ℕ) (info : Bytes) (len : ℕ) (input : Bytes) : Prop :=
  ∃ index previous, index < (len + L - 1) / L ∧
    previous.length = (if index = 0 then 0 else L) ∧
    input = previous ++ info ++ [UInt8.ofNat (index + 1)]

theorem expandBlock_input
    (mac : Bytes → Bytes → Block L) (prk info : Bytes) {len index : ℕ}
    (hindex : index < (len + L - 1) / L) :
    ∃ input, ExpandInput L info len input ∧
      expandBlock mac prk info (index + 1) = (mac prk input).bytes := by
  refine ⟨expandBlock mac prk info index ++ info ++ [UInt8.ofNat (index + 1)],
    ⟨index, expandBlock mac prk info index, hindex, ?_, rfl⟩, rfl⟩
  cases index with
  | zero => rfl
  | succ index => simp [expandBlock]

theorem ExpandInput.length_eq
    {info input : Bytes} {len : ℕ} (hinput : ExpandInput L info len input) :
    input.length = info.length + 1 ∨ input.length = L + info.length + 1 := by
  obtain ⟨index, previous, _, hprevious, rfl⟩ := hinput
  simp only [List.length_append, List.length_singleton, hprevious]
  by_cases hfirst : index = 0
  · rw [if_pos hfirst]
    omega
  · rw [if_neg hfirst]
    omega

/-- Expansions whose info strings have unlike lengths hash different
strings. -/
theorem ExpandInput.disjoint
    {info info' input : Bytes} {len len' : ℕ}
    (hsame : info.length ≠ info'.length)
    (hfirst : L + info.length ≠ info'.length)
    (hsecond : info.length ≠ L + info'.length)
    (hinput : ExpandInput L info len input) :
    ¬ ExpandInput L info' len' input := by
  intro hother
  rcases hinput.length_eq with hlength | hlength
  · rcases hother.length_eq with hlength' | hlength'
    · omega
    · omega
  · rcases hother.length_eq with hlength' | hlength'
    · omega
    · omega

end KeyedHash
