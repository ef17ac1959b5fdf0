import Mathlib.Tactic

/-!
# Stacks linked through a successor function

`Linked next top items` says that following `next` from `top` visits exactly
`items`, in order, and then ends.  The successor function determines the list,
so a linked stack is never cyclic, and a store to the successor of an element
which is not on the stack leaves the stack alone.
-/

namespace LinkedStack

variable {ι : Type*} {next : ι → Option ι}

def Linked (next : ι → Option ι) : Option ι → List ι → Prop
  | top, [] => top = none
  | top, item :: rest => top = some item ∧ Linked next (next item) rest

@[simp] theorem linked_nil {top : Option ι} :
    Linked next top [] ↔ top = none :=
  Iff.rfl

@[simp] theorem linked_cons {top : Option ι} {item : ι} {rest : List ι} :
    Linked next top (item :: rest) ↔
      top = some item ∧ Linked next (next item) rest :=
  Iff.rfl

theorem Linked.unique
    {top : Option ι} {items others : List ι}
    (hitems : Linked next top items) (hothers : Linked next top others) :
    items = others := by
  induction items generalizing top others with
  | nil =>
      cases others with
      | nil => rfl
      | cons other rest =>
          rw [linked_nil] at hitems
          rw [hitems] at hothers
          cases hothers.1
  | cons item rest ih =>
      cases others with
      | nil =>
          rw [linked_nil] at hothers
          rw [hothers] at hitems
          cases hitems.1
      | cons other more =>
          have hsame : item = other := by
            have htop := hitems.1.symm.trans hothers.1
            exact Option.some.inj htop
          subst hsame
          rw [ih hitems.2 hothers.2]

/-- The stack below one of its elements. -/
theorem Linked.suffix_of_mem
    {top : Option ι} {items : List ι} {item : ι}
    (hitems : Linked next top items) (hitem : item ∈ items) :
    ∃ rest, Linked next (some item) (item :: rest) ∧
      (item :: rest).length ≤ items.length := by
  induction items generalizing top with
  | nil => cases hitem
  | cons first rest ih =>
      cases List.mem_cons.mp hitem with
      | inl hhere =>
          subst hhere
          exact ⟨rest, ⟨rfl, hitems.2⟩, Nat.le_refl _⟩
      | inr hlater =>
          obtain ⟨below, hbelow, hlength⟩ := ih hitems.2 hlater
          exact ⟨below, hbelow, hlength.trans (Nat.le_succ _)⟩

theorem Linked.nodup
    {top : Option ι} {items : List ι} (hitems : Linked next top items) :
    items.Nodup := by
  induction items generalizing top with
  | nil => exact List.nodup_nil
  | cons item rest ih =>
      rw [List.nodup_cons]
      constructor
      · intro hagain
        obtain ⟨below, hbelow, hlength⟩ := hitems.2.suffix_of_mem hagain
        have hwhole : Linked next (some item) (item :: rest) :=
          ⟨rfl, hitems.2⟩
        have hsame := hbelow.unique hwhole
        rw [hsame] at hlength
        simp at hlength
      · exact ih hitems.2

theorem Linked.top_mem
    {items : List ι} {item : ι} (hitems : Linked next (some item) items) :
    item ∈ items := by
  cases items with
  | nil => cases hitems
  | cons first rest =>
      cases hitems.1
      exact List.mem_cons_self

theorem Linked.pop
    {items : List ι} {item : ι} (hitems : Linked next (some item) items) :
    ∃ rest, items = item :: rest ∧ Linked next (next item) rest := by
  cases items with
  | nil => cases hitems
  | cons first rest =>
      cases hitems.1
      exact ⟨rest, rfl, hitems.2⟩

theorem Linked.congr
    {other : ι → Option ι} {top : Option ι} {items : List ι}
    (hitems : Linked next top items)
    (hsame : ∀ item ∈ items, other item = next item) :
    Linked other top items := by
  induction items generalizing top with
  | nil => exact hitems
  | cons item rest ih =>
      constructor
      · exact hitems.1
      · rw [hsame item List.mem_cons_self]
        apply ih hitems.2
        intro later hlater
        exact hsame later (List.mem_cons_of_mem _ hlater)

/-- The successors `0 → 1 → … → count - 1` link the whole range. -/
theorem linked_range
    {next : ℕ → Option ℕ} {count : ℕ}
    (hnext : ∀ index, index < count →
      next index = if index + 1 < count then some (index + 1) else none)
    (remaining first : ℕ) (htotal : first + remaining = count) :
    Linked next (if first < count then some first else none)
      (List.range' first remaining) := by
  induction remaining generalizing first with
  | zero =>
      have hend : ¬ first < count := by omega
      simp [hend]
  | succ remaining ih =>
      have hhere : first < count := by omega
      rw [List.range'_succ, linked_cons, if_pos hhere, hnext first hhere]
      exact ⟨rfl, ih (first + 1) (by omega)⟩

end LinkedStack
