import Mathlib.Tactic

/-!
# Updates by compare and exchange

A thread applies an operation to an atomic cell: it loads the cell, and as long
as there is something to do it tries to exchange the value it has seen for the
new one.  A failed exchange gives it a newer value; a weak exchange may also
fail for no reason.  Whatever the other threads do in between, the loop is left
in one access which applies the operation to the cell as it is then.
-/

namespace CasLoop

/-- Where a thread is in the loop. -/
inductive Loop (σ α : Type*)
  | load (item : α)
  | exchange (item : α) (seen : σ)
deriving DecidableEq

variable {σ α : Type*}

def Loop.item : Loop σ α → α
  | .load item => item
  | .exchange item _ => item

section Access

variable [DecidableEq σ] (op : σ → α → σ) (skips : σ → α → Bool)

/-- The head of the loop, with the value seen last. -/
def examine (item : α) (seen : σ) : Option (Loop σ α) :=
  if skips seen item then none else some (.exchange item seen)

/-- One access to the cell: its new value and where the thread goes on, unless
it leaves the loop. -/
def access (cell : σ) (spurious : Bool) :
    Loop σ α → σ × Option (Loop σ α)
  | .load item => (cell, examine skips item cell)
  | .exchange item seen =>
      if cell = seen ∧ spurious = false then
        (op seen item, none)
      else
        (cell, examine skips item cell)

variable {op skips}

omit [DecidableEq σ] in
theorem examine_cases
    (hskips : ∀ cell item, skips cell item = true → op cell item = cell)
    (cell : σ) (item : α) :
    examine skips item cell = some (.exchange item cell) ∨
      examine skips item cell = none ∧ op cell item = cell := by
  unfold examine
  cases hcase : skips cell item with
  | true => exact Or.inr ⟨rfl, hskips cell item hcase⟩
  | false => exact Or.inl rfl

/-- An access leaves the cell alone and the thread in the loop, or it applies
the operation and leaves the loop. -/
theorem access_cases
    (hskips : ∀ cell item, skips cell item = true → op cell item = cell)
    (cell : σ) (spurious : Bool) (loop : Loop σ α) :
    (∃ later, access op skips cell spurious loop = (cell, some later) ∧
      later.item = loop.item) ∨
    access op skips cell spurious loop = (op cell loop.item, none) := by
  have hexamine : ∀ item,
      (∃ later, (cell, examine skips item cell) = (cell, some later) ∧
        later.item = item) ∨
      (cell, examine skips item cell) = (op cell item, none) := by
    intro item
    rcases examine_cases hskips cell item with hstay | ⟨hleave, hsame⟩
    · exact Or.inl ⟨_, by rw [hstay], rfl⟩
    · exact Or.inr (by rw [hleave, hsame])
  cases loop with
  | load item => exact hexamine item
  | exchange item seen =>
      by_cases hexchange : cell = seen ∧ spurious = false
      · obtain ⟨rfl, rfl⟩ := hexchange
        exact Or.inr (by simp [access, Loop.item])
      · simp only [access, if_neg hexchange]
        exact hexamine item

end Access

/-! ## A thread which runs alone -/

variable [DecidableEq σ] {op : σ → α → σ} {skips : σ → α → Bool}

/-- How many accesses a thread needs at most while nobody else writes. -/
def Loop.rank (cell : σ) : Loop σ α → ℕ
  | .load _ => 2
  | .exchange _ seen => if cell = seen then 1 else 2

theorem Loop.rank_pos (cell : σ) (loop : Loop σ α) :
    0 < loop.rank cell ∧ loop.rank cell ≤ 2 := by
  cases loop with
  | load item => exact ⟨Nat.two_pos, Nat.le_refl 2⟩
  | exchange item seen =>
      by_cases hfresh : cell = seen <;> simp [Loop.rank, hfresh]

/-- Without a spurious failure every access makes progress. -/
theorem access_rank_lt
    {cell after : σ} {loop later : Loop σ α}
    (haccess : access op skips cell false loop = (after, some later)) :
    after = cell ∧ later.rank cell < loop.rank cell := by
  have hexamine : ∀ item,
      (cell, examine skips item cell) = (after, some later) →
        after = cell ∧ later.rank cell = 1 := by
    intro item heq
    simp only [examine, Prod.mk.injEq] at heq
    obtain ⟨rfl, heq⟩ := heq
    split_ifs at heq
    cases heq
    exact ⟨rfl, if_pos rfl⟩
  cases loop with
  | load item =>
      obtain ⟨hsame, hrank⟩ := hexamine item haccess
      exact ⟨hsame, by rw [hrank]; exact Nat.one_lt_two⟩
  | exchange item seen =>
      simp only [access, and_true] at haccess
      split_ifs at haccess with hfresh
      · simp at haccess
      · obtain ⟨hsame, hrank⟩ := hexamine item haccess
        refine ⟨hsame, ?_⟩
        rw [hrank, Loop.rank, if_neg hfresh]
        exact Nat.one_lt_two

end CasLoop
