import Mathlib.Tactic

/-!
# Flags which guard an exclusive section

A flag is set by a successful compare-and-exchange when a party enters a
section and cleared when the party leaves it.  `Guards` ties the flag to the
program counters of the parties: the flag is set exactly while some party is
inside, and there is never a second one.
-/

namespace ExclusiveFlag

variable {ι Pc : Type*} {Inside : Pc → Prop} {flag : Bool} {pcs : ι → Pc}

structure Guards (Inside : Pc → Prop) (flag : Bool) (pcs : ι → Pc) :
    Prop where
  set_iff : flag = true ↔ ∃ party, Inside (pcs party)
  unique : ∀ first second, Inside (pcs first) → Inside (pcs second) →
    first = second

theorem Guards.not_inside
    (hguards : Guards Inside false pcs) (party : ι) :
    ¬ Inside (pcs party) := fun hinside =>
  Bool.false_ne_true (hguards.set_iff.2 ⟨party, hinside⟩)

theorem guards_of_outside (houtside : ∀ party, ¬ Inside (pcs party)) :
    Guards Inside false pcs := by
  constructor
  · constructor
    · intro hset
      cases hset
    · rintro ⟨party, hinside⟩
      exact absurd hinside (houtside party)
  · intro first second hfirst
    exact absurd hfirst (houtside first)

variable [DecidableEq ι] {party : ι} {pc : Pc}

/-- A party enters while the flag is clear. -/
theorem Guards.enter
    (hguards : Guards Inside false pcs) (hinside : Inside pc) :
    Guards Inside true (Function.update pcs party pc) := by
  have honly : ∀ other, Inside (Function.update pcs party pc other) →
      other = party := by
    intro other hother
    by_contra hne
    rw [Function.update_of_ne hne] at hother
    exact hguards.not_inside other hother
  constructor
  · refine iff_of_true rfl ⟨party, ?_⟩
    rwa [Function.update_self]
  · intro first second hfirst hsecond
    rw [honly first hfirst, honly second hsecond]

/-- The party inside leaves. -/
theorem Guards.leave
    (hguards : Guards Inside flag pcs) (hinside : Inside (pcs party))
    (houtside : ¬ Inside pc) :
    Guards Inside false (Function.update pcs party pc) := by
  apply guards_of_outside
  intro other hother
  by_cases hsame : other = party
  · rw [hsame, Function.update_self] at hother
    exact houtside hother
  · rw [Function.update_of_ne hsame] at hother
    exact hsame (hguards.unique other party hother hinside)

/-- A party moves on its own side. -/
theorem Guards.move
    (hguards : Guards Inside flag pcs)
    (hsame : Inside pc ↔ Inside (pcs party)) :
    Guards Inside flag (Function.update pcs party pc) := by
  have hall : ∀ other, Inside (Function.update pcs party pc other) ↔
      Inside (pcs other) := by
    intro other
    by_cases hother : other = party
    · rw [hother, Function.update_self, hsame]
    · rw [Function.update_of_ne hother]
  constructor
  · rw [hguards.set_iff]
    exact exists_congr fun other => (hall other).symm
  · intro first second hfirst hsecond
    exact hguards.unique first second ((hall first).1 hfirst)
      ((hall second).1 hsecond)

end ExclusiveFlag
