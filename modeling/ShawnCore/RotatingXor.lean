import Mathlib.Tactic

/-!
# Checksums which rotate and add without carry

A checksum takes in one word after the other: exclusive or with the word, a
rotation, exclusive or with a constant.  Rotations respect exclusive or, so the
checksums of two sequences of words differ by a sum over the differences of
their words: the constant cancels, and every difference is rotated once for
each round from its own on.
-/

namespace RotatingXor

variable {w : ℕ}

/-! ## Rotations -/

theorem rotateLeft_xor (word other : BitVec w) (amount : ℕ) :
    (word ^^^ other).rotateLeft amount =
      word.rotateLeft amount ^^^ other.rotateLeft amount := by
  apply BitVec.eq_of_getElem_eq
  intro index hindex
  simp only [BitVec.getElem_rotateLeft, BitVec.getElem_xor]
  split <;> rfl

/-- A rotation moves every bit around by the same distance. -/
theorem getLsbD_rotateLeft_add
    (word : BitVec w) (amount : ℕ) {index : ℕ} (hindex : index < w) :
    (word.rotateLeft amount).getLsbD ((index + amount) % w) =
      word.getLsbD index := by
  have hamount := Nat.mod_lt amount (Nat.zero_lt_of_lt hindex)
  rw [BitVec.getLsbD_rotateLeft, Nat.add_mod, Nat.mod_eq_of_lt hindex]
  by_cases hwrap : index + amount % w < w
  · rw [Nat.mod_eq_of_lt hwrap]
    simp [hwrap]
  · have hmoved : (index + amount % w) % w = index + amount % w - w := by
      rw [Nat.mod_eq_sub_mod (Nat.le_of_not_lt hwrap)]
      exact Nat.mod_eq_of_lt (by omega)
    have hlow : index + amount % w - w < amount % w := by omega
    have hback : w - amount % w + (index + amount % w - w) = index := by omega
    rw [hmoved]
    simp [hlow, hback]

/-- Every position is reached by moving some position around. -/
theorem eq_of_getLsbD_add
    {word other : BitVec w} (amount : ℕ)
    (hbits : ∀ index < w, word.getLsbD ((index + amount) % w) =
      other.getLsbD ((index + amount) % w)) :
    word = other := by
  apply BitVec.eq_of_getLsbD_eq
  intro position hposition
  have hpos := Nat.zero_lt_of_lt hposition
  have hamount := Nat.mod_lt amount hpos
  have hreached : ((position + (w - amount % w)) % w + amount) % w =
      position := by
    rw [Nat.mod_add_mod, ← Nat.add_mod_mod,
      show position + (w - amount % w) + amount % w = position + w by omega,
      Nat.add_mod_right, Nat.mod_eq_of_lt hposition]
  have hbit := hbits _ (Nat.mod_lt (position + (w - amount % w)) hpos)
  rw [hreached] at hbit
  exact hbit

theorem rotateLeft_rotateLeft (word : BitVec w) (amount later : ℕ) :
    (word.rotateLeft amount).rotateLeft later =
      word.rotateLeft (amount + later) := by
  apply eq_of_getLsbD_add (amount + later)
  intro index hindex
  have hmiddle := Nat.mod_lt (index + amount) (Nat.zero_lt_of_lt hindex)
  have hlater := getLsbD_rotateLeft_add (word.rotateLeft amount) later hmiddle
  rw [Nat.mod_add_mod, Nat.add_assoc] at hlater
  rw [hlater, getLsbD_rotateLeft_add word amount hindex,
    getLsbD_rotateLeft_add word (amount + later) hindex]

theorem rotateLeft_eq_zero_iff (word : BitVec w) (amount : ℕ) :
    word.rotateLeft amount = 0#w ↔ word = 0#w := by
  constructor
  · intro hrotated
    apply BitVec.eq_of_getLsbD_eq
    intro index hindex
    rw [← getLsbD_rotateLeft_add word amount hindex, hrotated,
      BitVec.getLsbD_zero, BitVec.getLsbD_zero]
  · rintro rfl
    apply eq_of_getLsbD_add amount
    intro index hindex
    rw [getLsbD_rotateLeft_add 0#w amount hindex, BitVec.getLsbD_zero,
      BitVec.getLsbD_zero]

/-! ## Sums without carry -/

theorem xor_xor_cancel (first second third fourth constant : BitVec w) :
    first ^^^ second ^^^ constant ^^^ (third ^^^ fourth ^^^ constant) =
      first ^^^ third ^^^ (second ^^^ fourth) := by
  calc
    _ = first ^^^ third ^^^ (second ^^^ fourth) ^^^ (constant ^^^ constant) := by
      ac_rfl
    _ = _ := by rw [BitVec.xor_self, BitVec.xor_zero]

/-- The exclusive or of the first terms of a sequence. -/
def xorSum (count : ℕ) (term : ℕ → BitVec w) : BitVec w :=
  (List.range count).foldl (fun sum index => sum ^^^ term index) 0#w

theorem xorSum_succ (count : ℕ) (term : ℕ → BitVec w) :
    xorSum (count + 1) term = xorSum count term ^^^ term count := by
  rw [xorSum, List.range_succ, List.foldl_append]
  rfl

theorem xorSum_congr
    {count : ℕ} {term other : ℕ → BitVec w}
    (hterms : ∀ index < count, term index = other index) :
    xorSum count term = xorSum count other := by
  induction count with
  | zero => rfl
  | succ count ih =>
      rw [xorSum_succ, xorSum_succ, ih fun index h => hterms index (by omega),
        hterms count (Nat.lt_succ_self count)]

theorem rotateLeft_xorSum
    (count : ℕ) (term : ℕ → BitVec w) (amount : ℕ) :
    (xorSum count term).rotateLeft amount =
      xorSum count fun index => (term index).rotateLeft amount := by
  induction count with
  | zero => exact (rotateLeft_eq_zero_iff 0#w amount).mpr rfl
  | succ count ih => rw [xorSum_succ, xorSum_succ, rotateLeft_xor, ih]

theorem xorSum_eq_zero
    {count : ℕ} {term : ℕ → BitVec w}
    (hzero : ∀ index < count, term index = 0#w) :
    xorSum count term = 0#w := by
  induction count with
  | zero => rfl
  | succ count ih =>
      rw [xorSum_succ, ih fun index h => hzero index (by omega),
        hzero count (Nat.lt_succ_self count), BitVec.xor_self]

/-- A sum with one term at most which is not zero. -/
theorem xorSum_eq_single
    {count position : ℕ} {term : ℕ → BitVec w} (hposition : position < count)
    (hzero : ∀ index < count, index ≠ position → term index = 0#w) :
    xorSum count term = term position := by
  induction count with
  | zero => cases hposition
  | succ count ih =>
      rw [xorSum_succ]
      by_cases hlast : position = count
      · subst hlast
        have hbelow : xorSum position term = 0#w :=
          xorSum_eq_zero fun index h => hzero index (by omega) (by omega)
        rw [hbelow, BitVec.zero_xor]
      · rw [ih (by omega) fun index h => hzero index (by omega),
          hzero count (Nat.lt_succ_self count) (Ne.symm hlast),
          BitVec.xor_zero]

/-! ## The checksum -/

def checksum (amount : ℕ) (constant : BitVec w) (word : ℕ → BitVec w)
    (count : ℕ) : BitVec w :=
  (List.range count).foldl
    (fun sum index => (sum ^^^ word index).rotateLeft amount ^^^ constant) 0#w

theorem checksum_succ
    (amount : ℕ) (constant : BitVec w) (word : ℕ → BitVec w) (count : ℕ) :
    checksum amount constant word (count + 1) =
      (checksum amount constant word count ^^^ word count).rotateLeft amount
        ^^^ constant := by
  rw [checksum, List.range_succ, List.foldl_append]
  rfl

/-- The constant cancels in the difference of two checksums. -/
theorem checksum_xor_checksum
    (amount : ℕ) (constant : BitVec w) (word other : ℕ → BitVec w)
    (count : ℕ) :
    checksum amount constant word count ^^^
        checksum amount constant other count =
      xorSum count fun index =>
        (word index ^^^ other index).rotateLeft (amount * (count - index)) := by
  induction count with
  | zero => exact BitVec.xor_self
  | succ count ih =>
      have hround : ∀ left right : BitVec w,
          ((left ^^^ word count).rotateLeft amount ^^^ constant) ^^^
              ((right ^^^ other count).rotateLeft amount ^^^ constant) =
            (left ^^^ right).rotateLeft amount ^^^
              (word count ^^^ other count).rotateLeft amount := by
        intro left right
        simp only [rotateLeft_xor]
        exact xor_xor_cancel _ _ _ _ constant
      rw [checksum_succ, checksum_succ, hround, ih, rotateLeft_xorSum,
        xorSum_succ, Nat.add_sub_cancel_left, Nat.mul_one]
      congr 1
      apply xorSum_congr
      intro index hindex
      rw [rotateLeft_rotateLeft, ← Nat.mul_succ, ← Nat.succ_sub hindex.le]

end RotatingXor
