import Mathlib.Tactic
import Mathlib.Data.Nat.Bitwise
import Mathlib.Data.Finset.Lattice.Fold

/-!
# Sliding windows over sets of sequence numbers

A window of `width` bits together with a counter represents a finite set of
sequence numbers: the counter is the largest number recorded, and bit `i` says
whether the number `i` below the counter was recorded.  Numbers below the
window are forgotten, which the representation allows.
-/

namespace SequenceWindow

/-- The counter and the bits of a window describe the set `recorded`. -/
structure Represents
    (width : ℕ) (recorded : Finset ℕ) (counter window : ℕ) : Prop where
  counter_eq : counter = recorded.sup id
  bit_iff : ∀ i < width,
    window.testBit i = true ↔ i ≤ counter ∧ counter - i ∈ recorded

theorem represents_empty (width : ℕ) : Represents width ∅ 0 0 := by
  constructor
  · simp
  · intro i _
    simp

/-- Record one more sequence number. -/
def record (width counter window sequence : ℕ) : ℕ × ℕ :=
  if counter < sequence then
    (sequence,
      if width ≤ sequence - counter then 1
      else (window <<< (sequence - counter)) % 2 ^ width ||| 1)
  else if width ≤ counter - sequence then
    (counter, window)
  else
    (counter, window ||| 1 <<< (counter - sequence))

/-- A number is new and not below the window. -/
def Acceptable
    (width : ℕ) (recorded : Finset ℕ) (counter sequence : ℕ) : Prop :=
  sequence ∉ recorded ∧ (counter < sequence ∨ counter - sequence < width)

theorem Represents.le_counter
    {width counter window sequence : ℕ} {recorded : Finset ℕ}
    (hrep : Represents width recorded counter window)
    (hmem : sequence ∈ recorded) : sequence ≤ counter := by
  rw [hrep.counter_eq]
  exact Finset.le_sup (f := id) hmem

/-- The window test decides acceptability. -/
theorem Represents.acceptable_iff
    {width counter window sequence : ℕ} {recorded : Finset ℕ}
    (hrep : Represents width recorded counter window) :
    Acceptable width recorded counter sequence ↔
      counter < sequence ∨
        counter - sequence < width ∧
          window.testBit (counter - sequence) = false := by
  unfold Acceptable
  by_cases habove : counter < sequence
  · have hfresh : sequence ∉ recorded := by
      intro hmem
      exact absurd (hrep.le_counter hmem) (Nat.not_le.mpr habove)
    simp [habove, hfresh]
  · have hback : counter - (counter - sequence) = sequence := by omega
    by_cases hinside : counter - sequence < width
    · have hbit := hrep.bit_iff (counter - sequence) hinside
      rw [hback] at hbit
      simp only [Nat.sub_le, true_and] at hbit
      rw [← Bool.not_eq_true, hbit]
      simp [habove, hinside]
    · simp [habove, hinside]

theorem sup_insert_of_gt
    {recorded : Finset ℕ} {counter sequence : ℕ}
    (hcounter : counter = recorded.sup id) (habove : counter < sequence) :
    (insert sequence recorded).sup id = sequence := by
  rw [Finset.sup_insert, ← hcounter]
  simpa using habove.le

theorem sup_insert_of_le
    {recorded : Finset ℕ} {counter sequence : ℕ}
    (hcounter : counter = recorded.sup id) (hbelow : sequence ≤ counter) :
    (insert sequence recorded).sup id = counter := by
  rw [Finset.sup_insert, ← hcounter]
  simpa using hbelow

theorem testBit_one_of_ne_zero
    {i : ℕ} (hzero : i ≠ 0) : Nat.testBit 1 i = false := by
  rw [← Bool.not_eq_true, Nat.testBit_one_eq_true_iff_self_eq_zero]
  exact hzero

/-- A jump of at least the width leaves only the new number in the
window. -/
theorem Represents.record_jump
    {width counter window sequence : ℕ} {recorded : Finset ℕ}
    (hrep : Represents width recorded counter window)
    (hjump : width ≤ sequence - counter) (habove : counter < sequence) :
    Represents width (insert sequence recorded) sequence 1 := by
  constructor
  · exact (sup_insert_of_gt hrep.counter_eq habove).symm
  · intro i hi
    by_cases hzero : i = 0
    · subst i
      simp
    · have hbit := testBit_one_of_ne_zero hzero
      have hold : i ≤ sequence → sequence - i ∉ recorded := by
        intro _ hmem
        have := hrep.le_counter hmem
        omega
      rw [hbit]
      simp only [Bool.false_eq_true, Finset.mem_insert, false_iff, not_and,
        not_or]
      intro hle
      exact ⟨by omega, hold hle⟩

/-- A shorter jump shifts the window and sets its lowest bit. -/
theorem Represents.record_shift
    {width counter window sequence : ℕ} {recorded : Finset ℕ}
    (hrep : Represents width recorded counter window)
    (habove : counter < sequence) :
    Represents width (insert sequence recorded) sequence
      ((window <<< (sequence - counter)) % 2 ^ width ||| 1) := by
  constructor
  · exact (sup_insert_of_gt hrep.counter_eq habove).symm
  · intro i hi
    rw [Nat.testBit_or, Nat.testBit_mod_two_pow, Nat.testBit_shiftLeft]
    by_cases hzero : i = 0
    · subst i
      simp
    · have hbit := testBit_one_of_ne_zero hzero
      simp only [hi, decide_true, Bool.true_and, hbit, Bool.or_false,
        Bool.and_eq_true, decide_eq_true_eq, ge_iff_le, Finset.mem_insert]
      by_cases hshift : sequence - counter ≤ i
      · have hold := hrep.bit_iff (i - (sequence - counter)) (by omega)
        rw [hold]
        constructor
        · intro h
          rcases h with ⟨_, hle, hmem⟩
          refine ⟨by omega, Or.inr ?_⟩
          rwa [show sequence - i = counter - (i - (sequence - counter)) by
            omega]
        · intro h
          rcases h with ⟨hle, hself | hmem⟩
          · omega
          · refine ⟨hshift, by omega, ?_⟩
            rwa [show counter - (i - (sequence - counter)) = sequence - i by
              omega]
      · constructor
        · intro h
          exact absurd h.1 hshift
        · intro h
          rcases h with ⟨hle, hself | hmem⟩
          · omega
          · have := hrep.le_counter hmem
            omega

/-- A number inside the window sets its own bit. -/
theorem Represents.record_inside
    {width counter window sequence : ℕ} {recorded : Finset ℕ}
    (hrep : Represents width recorded counter window)
    (hbelow : sequence ≤ counter) :
    Represents width (insert sequence recorded) counter
      (window ||| 1 <<< (counter - sequence)) := by
  constructor
  · exact (sup_insert_of_le hrep.counter_eq hbelow).symm
  · intro i hi
    rw [Nat.testBit_or, Nat.one_shiftLeft, Nat.testBit_two_pow,
      Bool.or_eq_true, hrep.bit_iff i hi, decide_eq_true_eq,
      Finset.mem_insert]
    constructor
    · intro h
      rcases h with ⟨hle, hmem⟩ | hself
      · exact ⟨hle, Or.inr hmem⟩
      · exact ⟨by omega, Or.inl (by omega)⟩
    · intro h
      rcases h with ⟨hle, hself | hmem⟩
      · exact Or.inr (by omega)
      · exact Or.inl ⟨hle, hmem⟩

/-- A number below the window is forgotten. -/
theorem Represents.record_below
    {width counter window sequence : ℕ} {recorded : Finset ℕ}
    (hrep : Represents width recorded counter window)
    (hbelow : sequence ≤ counter) (hfar : width ≤ counter - sequence) :
    Represents width (insert sequence recorded) counter window := by
  constructor
  · exact (sup_insert_of_le hrep.counter_eq hbelow).symm
  · intro i hi
    rw [hrep.bit_iff i hi, Finset.mem_insert]
    constructor
    · intro h
      exact ⟨h.1, Or.inr h.2⟩
    · intro h
      rcases h with ⟨hle, hself | hmem⟩
      · omega
      · exact ⟨hle, hmem⟩

theorem Represents.record
    {width counter window : ℕ} {recorded : Finset ℕ}
    (hrep : Represents width recorded counter window) (sequence : ℕ) :
    Represents width (insert sequence recorded)
      (record width counter window sequence).1
      (record width counter window sequence).2 := by
  unfold SequenceWindow.record
  by_cases habove : counter < sequence
  · rw [if_pos habove]
    by_cases hjump : width ≤ sequence - counter
    · rw [if_pos hjump]
      exact hrep.record_jump hjump habove
    · rw [if_neg hjump]
      exact hrep.record_shift habove
  · rw [if_neg habove]
    have hbelow : sequence ≤ counter := Nat.le_of_not_lt habove
    by_cases hfar : width ≤ counter - sequence
    · rw [if_pos hfar]
      exact hrep.record_below hbelow hfar
    · rw [if_neg hfar]
      exact hrep.record_inside hbelow

theorem le_record_counter (width counter window sequence : ℕ) :
    counter ≤ (record width counter window sequence).1 := by
  unfold SequenceWindow.record
  split
  next habove => exact habove.le
  next =>
    split
    next => exact le_rfl
    next => exact le_rfl

/-- A bit which is still inside the window after a recording is still set. -/
theorem testBit_record
    {width counter window sequence i : ℕ}
    (hbit : window.testBit i = true)
    (hinside :
      i + ((record width counter window sequence).1 - counter) < width) :
    (record width counter window sequence).2.testBit
      (i + ((record width counter window sequence).1 - counter)) = true := by
  unfold SequenceWindow.record at hinside ⊢
  by_cases habove : counter < sequence
  · rw [if_pos habove] at hinside ⊢
    dsimp only at hinside ⊢
    have hshort : ¬ width ≤ sequence - counter := by omega
    rw [if_neg hshort, Nat.testBit_or, Nat.testBit_mod_two_pow,
      Nat.testBit_shiftLeft]
    simp [hinside, hbit]
  · rw [if_neg habove] at hinside ⊢
    by_cases hfar : width ≤ counter - sequence
    · simpa [if_pos hfar] using hbit
    · simp [if_neg hfar, Nat.testBit_or, hbit]

/-- Recording a number sets no bit above the counter. -/
theorem record_above_eq_false
    (width : ℕ) {counter window : ℕ}
    (habove : ∀ i, counter < i → window.testBit i = false) (sequence : ℕ) :
    ∀ i, (record width counter window sequence).1 < i →
      (record width counter window sequence).2.testBit i = false := by
  unfold SequenceWindow.record
  intro i hi
  by_cases hjump : counter < sequence
  · rw [if_pos hjump] at hi ⊢
    dsimp only at hi ⊢
    have hbit := testBit_one_of_ne_zero (show i ≠ 0 by omega)
    by_cases hwide : width ≤ sequence - counter
    · rw [if_pos hwide]
      exact hbit
    · have hold := habove (i - (sequence - counter)) (by omega)
      rw [if_neg hwide, Nat.testBit_or, Nat.testBit_mod_two_pow,
        Nat.testBit_shiftLeft, hbit, hold]
      simp
  · rw [if_neg hjump] at hi ⊢
    by_cases hfar : width ≤ counter - sequence
    · rw [if_pos hfar] at hi ⊢
      exact habove i hi
    · rw [if_neg hfar] at hi ⊢
      dsimp only at hi ⊢
      rw [Nat.testBit_or, Nat.one_shiftLeft, Nat.testBit_two_pow,
        habove i hi]
      simp only [Bool.false_or, decide_eq_false_iff_not]
      omega

end SequenceWindow
