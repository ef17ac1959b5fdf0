import Mathlib.Tactic

/-!
# Fixed-length byte blocks and integer encodings

Byte strings are lists of bytes.  A `Block n` is a byte string which carries
the proof that it has `n` bytes, so that concatenations of blocks can be
parsed back without a side condition.  The second half gives the fixed-width
little-endian and big-endian encodings of natural numbers.
-/

namespace ByteBlocks

abbrev Bytes := List UInt8

/-- A byte string of exactly `n` bytes. -/
@[ext] structure Block (n : ℕ) where
  bytes : Bytes
  length_eq : bytes.length = n
deriving DecidableEq

attribute [simp] Block.length_eq

namespace Block

variable {n : ℕ}

/-- The block whose bytes are all `value`. -/
def fill (n : ℕ) (value : UInt8) : Block n where
  bytes := List.replicate n value
  length_eq := List.length_replicate

instance : Inhabited (Block n) := ⟨fill n 0⟩

/-- The first `n` bytes of a string, padded with zeros. -/
def clip (n : ℕ) (data : Bytes) : Block n where
  bytes := (data ++ List.replicate n 0).take n
  length_eq := by simp

/-- The sub-block of `len` bytes which starts at `start`. -/
def slice (block : Block n) (start len : ℕ) (h : start + len ≤ n) :
    Block len where
  bytes := (block.bytes.drop start).take len
  length_eq := by
    simp only [List.length_take, List.length_drop, block.length_eq]
    omega

def append {m : ℕ} (left : Block m) (right : Block n) : Block (m + n) where
  bytes := left.bytes ++ right.bytes
  length_eq := by simp

@[simp] theorem bytes_inj {left right : Block n} :
    left.bytes = right.bytes ↔ left = right :=
  Block.ext_iff.symm

/-- A block at the front of a concatenation can be read back. -/
@[simp] theorem bytes_append_inj
    {left right : Block n} {restLeft restRight : Bytes} :
    left.bytes ++ restLeft = right.bytes ++ restRight ↔
      left = right ∧ restLeft = restRight := by
  constructor
  · intro heq
    obtain ⟨hblock, hrest⟩ := List.append_inj heq (by simp)
    exact ⟨Block.ext hblock, hrest⟩
  · rintro ⟨rfl, rfl⟩
    rfl

@[simp] theorem clip_bytes (block : Block n) : clip n block.bytes = block := by
  apply Block.ext
  change (block.bytes ++ List.replicate n 0).take n = block.bytes
  rw [List.take_append_of_le_length (by simp),
    List.take_of_length_le (by simp)]

theorem slice_append_left {m : ℕ} (left : Block m) (right : Block n) :
    (left.append right).slice 0 m (by omega) = left := by
  apply Block.ext
  simp [slice, append]

theorem slice_append_right {m : ℕ} (left : Block m) (right : Block n) :
    (left.append right).slice m n (Nat.le_refl _) = right := by
  apply Block.ext
  simp [slice, append]

/-- The bytes of a slice by their positions in the whole block. -/
theorem slice_bytes_eq_map
    (block : Block n) {start len : ℕ} (h : start + len ≤ n) :
    (block.slice start len h).bytes =
      (List.range' start len).map fun position =>
        block.bytes.getD position 0 := by
  have hlength := block.length_eq
  apply List.ext_getElem
  · simp
  · intro index hslice hmap
    have hindex : index < len := by simpa using hmap
    simp only [slice, List.getElem_take, List.getElem_drop, List.getElem_map,
      List.getElem_range', Nat.one_mul]
    rw [List.getD_eq_getElem?_getD, List.getElem?_eq_getElem (by omega)]
    rfl

end Block

/-! ## Integer encodings -/

/-- The `width` little-endian bytes of a value, reduced modulo
`256 ^ width`. -/
def leBytes : ℕ → ℕ → Bytes
  | 0, _ => []
  | width + 1, value => UInt8.ofNat value :: leBytes width (value / 256)

/-- The number which a little-endian byte string denotes. -/
def fromLeBytes : Bytes → ℕ
  | [] => 0
  | byte :: rest => byte.toNat + 256 * fromLeBytes rest

/-- The big-endian encoding is the reversed little-endian one. -/
def beBytes (width value : ℕ) : Bytes :=
  (leBytes width value).reverse

@[simp] theorem leBytes_length (width value : ℕ) :
    (leBytes width value).length = width := by
  induction width generalizing value with
  | zero => rfl
  | succ width ih => simp [leBytes, ih]

@[simp] theorem beBytes_length (width value : ℕ) :
    (beBytes width value).length = width := by
  simp [beBytes]

theorem fromLeBytes_leBytes (width value : ℕ) :
    fromLeBytes (leBytes width value) = value % 256 ^ width := by
  induction width generalizing value with
  | zero => simp [leBytes, fromLeBytes, Nat.mod_one]
  | succ width ih =>
      have hpow : 256 ^ (width + 1) = 256 * 256 ^ width := pow_succ' 256 width
      have hbyte : (UInt8.ofNat value).toNat = value % 256 :=
        UInt8.toNat_ofNat'
      rw [hpow, Nat.mod_mul, leBytes, fromLeBytes, ih, hbyte]

theorem leBytes_inj
    {width left right : ℕ} (hleft : left < 256 ^ width)
    (hright : right < 256 ^ width)
    (heq : leBytes width left = leBytes width right) :
    left = right := by
  have hdecode := congrArg fromLeBytes heq
  rwa [fromLeBytes_leBytes, fromLeBytes_leBytes, Nat.mod_eq_of_lt hleft,
    Nat.mod_eq_of_lt hright] at hdecode

theorem beBytes_inj
    {width left right : ℕ} (hleft : left < 256 ^ width)
    (hright : right < 256 ^ width)
    (heq : beBytes width left = beBytes width right) :
    left = right :=
  leBytes_inj hleft hright (List.reverse_injective heq)

end ByteBlocks
