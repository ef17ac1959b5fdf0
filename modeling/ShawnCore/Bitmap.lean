import Mathlib.Tactic

/-!
# Bit vectors as sets of small numbers

A bit vector of width `w` stands for the set of the positions of its one bits.
Setting, clearing and testing bits become insertion, removal and membership,
and the number of trailing zeros becomes the least element.
-/

namespace Bitmap

variable {w : ℕ}

/-- Sets one bit. -/
def set (bitmap : BitVec w) (position : ℕ) : BitVec w :=
  bitmap ||| (1#w <<< position)

/-- Clears one bit. -/
def clear (bitmap : BitVec w) (position : ℕ) : BitVec w :=
  bitmap &&& ~~~(1#w <<< position)

/-- The number of zero bits below the lowest one bit, or the width. -/
def trailingZeros (bitmap : BitVec w) : ℕ :=
  ((List.range w).find? fun position => bitmap.getLsbD position).getD w

/-- The bits of the positions which satisfy a test, collected one by one. -/
def collect (test : Fin w → Bool) : BitVec w :=
  (List.finRange w).foldl
    (fun mask position =>
      if test position then set mask position.val else mask)
    0#w

theorem getLsbD_single (position other : ℕ) :
    (1#w <<< position).getLsbD other =
      (decide (other < w) && decide (position = other)) := by
  rw [← BitVec.twoPow_eq, BitVec.getLsbD_twoPow]
  by_cases hsame : position = other
  · subst hsame
    rfl
  · simp [hsame]

@[simp] theorem getLsbD_set (bitmap : BitVec w) (position other : ℕ) :
    (set bitmap position).getLsbD other = true ↔
      bitmap.getLsbD other = true ∨ other < w ∧ position = other := by
  rw [set, BitVec.getLsbD_or, getLsbD_single, Bool.or_eq_true,
    Bool.and_eq_true, decide_eq_true_eq, decide_eq_true_eq]

@[simp] theorem getLsbD_clear (bitmap : BitVec w) (position other : ℕ) :
    (clear bitmap position).getLsbD other = true ↔
      bitmap.getLsbD other = true ∧ position ≠ other := by
  rw [clear, BitVec.getLsbD_and, BitVec.getLsbD_not, getLsbD_single]
  by_cases hbit : bitmap.getLsbD other = true
  · have hlt := BitVec.lt_of_getLsbD hbit
    simp [hbit, hlt]
  · simp [hbit]

/-- A position outside of the vector has no bit. -/
theorem set_of_le (bitmap : BitVec w) {position : ℕ} (hle : w ≤ position) :
    set bitmap position = bitmap := by
  rw [set, BitVec.shiftLeft_eq_zero hle, BitVec.or_zero]

theorem clear_of_le (bitmap : BitVec w) {position : ℕ} (hle : w ≤ position) :
    clear bitmap position = bitmap := by
  rw [clear, BitVec.shiftLeft_eq_zero hle, BitVec.not_zero,
    BitVec.and_allOnes]

/-- One set is contained in another if intersecting changes nothing. -/
theorem and_eq_right_iff (bitmap mask : BitVec w) :
    bitmap &&& mask = mask ↔
      ∀ position, mask.getLsbD position = true →
        bitmap.getLsbD position = true := by
  constructor
  · intro heq position hbit
    rw [← heq, BitVec.getLsbD_and, Bool.and_eq_true] at hbit
    exact hbit.1
  · intro hsubset
    apply BitVec.eq_of_getLsbD_eq
    intro position _
    rw [BitVec.getLsbD_and]
    cases hbit : mask.getLsbD position with
    | false => rw [Bool.and_false]
    | true => rw [hsubset position hbit, Bool.and_true]

theorem ne_zero_iff (bitmap : BitVec w) :
    bitmap ≠ 0#w ↔ ∃ position, bitmap.getLsbD position = true := by
  constructor
  · intro hne
    by_contra hnone
    rw [not_exists] at hnone
    apply hne
    apply BitVec.eq_of_getLsbD_eq
    intro position _
    rw [BitVec.getLsbD_zero]
    simpa using hnone position
  · rintro ⟨position, hbit⟩ rfl
    simp at hbit

/-- The lowest one bit, if there is one. -/
theorem trailingZeros_eq_iff
    (bitmap : BitVec w) {position : ℕ} (hposition : position < w) :
    trailingZeros bitmap = position ↔
      bitmap.getLsbD position = true ∧
        ∀ lower < position, bitmap.getLsbD lower = false := by
  have hfound : trailingZeros bitmap = position ↔
      (List.range w).find? (fun other => bitmap.getLsbD other) =
        some position := by
    rw [trailingZeros]
    cases (List.range w).find? fun other => bitmap.getLsbD other with
    | none => simpa using hposition.ne'
    | some other => simp
  rw [hfound, List.find?_range_eq_some]
  simp only [List.mem_range, Bool.not_eq_true']
  exact ⟨fun h => ⟨h.1, h.2.2⟩, fun h => ⟨h.1, hposition, h.2⟩⟩

theorem eq_zero_of_le_trailingZeros
    (bitmap : BitVec w) (hle : w ≤ trailingZeros bitmap) : bitmap = 0#w := by
  rw [trailingZeros] at hle
  cases hfind : (List.range w).find? fun other => bitmap.getLsbD other with
  | none =>
      by_contra hne
      obtain ⟨position, hbit⟩ := (ne_zero_iff bitmap).1 hne
      have hmem := List.mem_range.2 (BitVec.lt_of_getLsbD hbit)
      exact List.find?_eq_none.1 hfind position hmem hbit
  | some other =>
      have hmem := List.mem_range.1 (List.mem_of_find?_eq_some hfind)
      rw [hfind, Option.getD_some] at hle
      omega

/-- Collecting bits over a list of positions. -/
theorem getLsbD_foldl_set
    (test : Fin w → Bool) (positions : List (Fin w)) (mask : BitVec w)
    (other : ℕ) :
    (positions.foldl
      (fun mask position =>
        if test position then set mask position.val else mask)
      mask).getLsbD other = true ↔
        mask.getLsbD other = true ∨
          ∃ position ∈ positions, test position = true ∧
            position.val = other := by
  induction positions generalizing mask with
  | nil => simp
  | cons position positions ih =>
      rw [List.foldl_cons, ih]
      cases htest : test position with
      | false => simp [htest]
      | true =>
          simp only [if_true, getLsbD_set, List.exists_mem_cons_iff, htest,
            true_and, or_assoc]
          have hlt : other < w ∧ position.val = other ↔
              position.val = other :=
            ⟨fun h => h.2, fun h => ⟨h ▸ position.isLt, h⟩⟩
          rw [hlt]

theorem getLsbD_collect (test : Fin w → Bool) (position : Fin w) :
    (collect test).getLsbD position.val = true ↔ test position = true := by
  rw [collect, getLsbD_foldl_set]
  constructor
  · rintro (hzero | ⟨other, _, htest, hsame⟩)
    · simp at hzero
    · rwa [← Fin.ext hsame]
  · intro htest
    exact Or.inr ⟨position, List.mem_finRange position, htest, rfl⟩

end Bitmap
