import Mathlib.Tactic

/-!
# Ranges of 64-bit addresses

A range is a first address and a length.  Its addresses are the ones reached
from the first by fewer steps than the length, so that a range beyond the last
address goes on at zero.
-/

namespace AddressRange

variable {start length address : UInt64}

/-- The end of the range is not representable. -/
def Wraps (start length : UInt64) : Prop :=
  2 ^ 64 ≤ start.toNat + length.toNat

def Contains (start length address : UInt64) : Prop :=
  address - start < length

instance : Decidable (Wraps start length) :=
  inferInstanceAs (Decidable (_ ≤ _))

instance : Decidable (Contains start length address) :=
  inferInstanceAs (Decidable (_ < _))

theorem length_ne_zero_of_contains
    (hcontains : Contains start length address) : length ≠ 0 := by
  rintro rfl
  exact UInt64.not_lt_zero hcontains

theorem toNat_end (hend : ¬ Wraps start length) :
    (start + length).toNat = start.toNat + length.toNat := by
  rw [UInt64.toNat_add]
  exact Nat.mod_eq_of_lt (not_le.1 hend)

theorem contains_iff (hend : ¬ Wraps start length) :
    Contains start length address ↔
      start.toNat ≤ address.toNat ∧
        address.toNat < start.toNat + length.toNat := by
  have hbound := not_le.1 hend
  have hstart := start.toNat_lt
  have haddress := address.toNat_lt
  rw [Contains, UInt64.lt_iff_toNat_lt, UInt64.toNat_sub]
  omega

/-- Two ranges without a wrap have an address in common exactly when each
starts before the other ends. -/
theorem exists_common_iff
    {first firstLength second secondLength : UInt64}
    (hfirst : ¬ Wraps first firstLength) (hsecond : ¬ Wraps second secondLength)
    (hfirstLength : firstLength ≠ 0) (hsecondLength : secondLength ≠ 0) :
    (∃ address, Contains first firstLength address ∧
        Contains second secondLength address) ↔
      first < second + secondLength ∧ second < first + firstLength := by
  have hfirstPos : 0 < firstLength.toNat :=
    Nat.pos_of_ne_zero fun hzero => hfirstLength (UInt64.toNat_inj.1 hzero)
  have hsecondPos : 0 < secondLength.toNat :=
    Nat.pos_of_ne_zero fun hzero => hsecondLength (UInt64.toNat_inj.1 hzero)
  simp only [contains_iff hfirst, contains_iff hsecond,
    UInt64.lt_iff_toNat_lt, toNat_end hfirst, toNat_end hsecond]
  constructor
  · rintro ⟨address, hleft, hright⟩
    omega
  · intro hcross
    -- The later of the two starts lies in both ranges.
    rcases Nat.le_total first.toNat second.toNat with hle | hle
    · exact ⟨second, by omega, by omega⟩
    · exact ⟨first, by omega, by omega⟩

end AddressRange
