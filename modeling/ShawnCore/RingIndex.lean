import Mathlib.Tactic

/-!
# Positions of a ring which wrap around

Positions are 64-bit counters that run forever, and the slot of a position is
its remainder by the capacity.  When the capacity divides `2 ^ 64`, the
remainder does not see the counters wrap around, so positions which are less
than one capacity apart have different slots.
-/

namespace RingIndex

/-- The capacities for which the wrap-around is harmless. -/
structure Capacity where
  size : ℕ
  size_pos : 0 < size
  size_lt : size < 2 ^ 64
  size_dvd : size ∣ 2 ^ 64

variable (capacity : Capacity)

def slot (position : UInt64) : ℕ :=
  position.toNat % capacity.size

theorem slot_lt (position : UInt64) : slot capacity position < capacity.size :=
  Nat.mod_lt _ capacity.size_pos

theorem slot_add (position : UInt64) (offset : ℕ) :
    slot capacity (position + UInt64.ofNat offset) =
      (position.toNat + offset) % capacity.size := by
  rw [slot, UInt64.toNat_add, UInt64.toNat_ofNat',
    Nat.mod_mod_of_dvd _ capacity.size_dvd]
  rw [Nat.add_mod, Nat.mod_mod_of_dvd _ capacity.size_dvd, ← Nat.add_mod]

/-- Offsets below the capacity have different slots. -/
theorem slot_add_inj
    {position : UInt64} {left right : ℕ}
    (hleft : left < capacity.size) (hright : right < capacity.size)
    (hslot : slot capacity (position + UInt64.ofNat left) =
      slot capacity (position + UInt64.ofNat right)) :
    left = right := by
  rw [slot_add, slot_add] at hslot
  have hmod : left ≡ right [MOD capacity.size] :=
    Nat.ModEq.add_left_cancel' _ hslot
  exact hmod.eq_of_lt_of_lt hleft hright

theorem slot_add_ne_slot_add
    {position : UInt64} {left right : ℕ} (hlt : left < right)
    (hright : right < capacity.size) :
    slot capacity (position + UInt64.ofNat left) ≠
      slot capacity (position + UInt64.ofNat right) := by
  intro hslot
  exact hlt.ne (slot_add_inj capacity (hlt.trans hright) hright hslot)

theorem slot_add_ne_slot
    {position : UInt64} {offset : ℕ} (hpos : 0 < offset)
    (hoffset : offset < capacity.size) :
    slot capacity (position + UInt64.ofNat offset) ≠ slot capacity position := by
  have hne := @slot_add_ne_slot_add capacity position 0 offset hpos hoffset
  simpa using hne.symm

theorem add_sub_toNat
    {position : UInt64} {offset : ℕ} (hoffset : offset ≤ capacity.size) :
    (position + UInt64.ofNat offset - position).toNat = offset := by
  have hlt := capacity.size_lt
  have hcancel : position + UInt64.ofNat offset - position =
      UInt64.ofNat offset := by
    rw [UInt64.add_comm, UInt64.add_sub_cancel]
  rw [hcancel, UInt64.toNat_ofNat']
  omega

theorem add_eq_self_iff
    {position : UInt64} {offset : ℕ} (hoffset : offset ≤ capacity.size) :
    position + UInt64.ofNat offset = position ↔ offset = 0 := by
  constructor
  · intro hsame
    have hdistance := @add_sub_toNat capacity position offset hoffset
    rw [hsame, UInt64.sub_self] at hdistance
    exact hdistance.symm
  · rintro rfl
    simp

theorem add_succ (position : UInt64) (offset : ℕ) :
    position + UInt64.ofNat (offset + 1) =
      position + UInt64.ofNat offset + 1 := by
  rw [UInt64.ofNat_add, UInt64.add_assoc]
  rfl

theorem succ_add (position : UInt64) (offset : ℕ) :
    position + 1 + UInt64.ofNat offset =
      position + UInt64.ofNat (offset + 1) := by
  rw [add_succ, UInt64.add_assoc, UInt64.add_assoc, UInt64.add_comm 1]

end RingIndex
