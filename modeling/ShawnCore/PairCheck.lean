import Mathlib.Tactic

/-!
# Checks of every pair of a list

The loop which compares every entry of a list with every later one finds a
conflict exactly when two entries at different places have one, whatever the
order of the list.
-/

namespace PairCheck

variable {α : Type*} {conflict : α → α → Bool} {items other : List α}

/-- Whether some entry conflicts with a later one. -/
def anyPair (conflict : α → α → Bool) : List α → Bool
  | [] => false
  | first :: rest => rest.any (conflict first) || anyPair conflict rest

theorem anyPair_eq_false_iff :
    anyPair conflict items = false ↔
      items.Pairwise fun first second => conflict first second = false := by
  induction items with
  | nil => simp [anyPair]
  | cons first rest ih => simp [anyPair, ih]

/-- The order does not matter for a symmetric conflict. -/
theorem anyPair_perm
    (hsymm : ∀ first second, conflict first second = conflict second first)
    (hperm : items.Perm other) :
    anyPair conflict items = anyPair conflict other := by
  have hpairwise := hperm.pairwise_iff
    (R := fun first second => conflict first second = false)
    fun hnone => (hsymm _ _).trans hnone
  rw [← anyPair_eq_false_iff, ← anyPair_eq_false_iff] at hpairwise
  rw [Bool.eq_iff_iff, ← Bool.not_eq_false, ← Bool.not_eq_false, hpairwise]

theorem anyPair_append :
    anyPair conflict (items ++ other) =
      (anyPair conflict items ||
        items.any (fun first => other.any (conflict first)) ||
        anyPair conflict other) := by
  induction items with
  | nil => simp [anyPair]
  | cons first rest ih =>
      simp only [List.cons_append, anyPair, ih, List.any_append,
        List.any_cons]
      ac_rfl

/-- Entries outside of a group which have no conflict among themselves need to
be compared with the group only. -/
theorem anyPair_filter
    (hsymm : ∀ first second, conflict first second = conflict second first)
    (group : α → Bool)
    (houtside : ∀ first second, group first = false → group second = false →
      conflict first second = false) :
    anyPair conflict items =
      (anyPair conflict (items.filter group) ||
        (items.filter group).any fun first =>
          (items.filter fun entry => !group entry).any (conflict first)) := by
  have hrest :
      anyPair conflict (items.filter fun entry => !group entry) = false := by
    rw [anyPair_eq_false_iff]
    apply List.pairwise_of_forall_mem_list
    intro first hfirst second hsecond
    exact houtside first second (by simpa using (List.mem_filter.1 hfirst).2)
      (by simpa using (List.mem_filter.1 hsecond).2)
  rw [← anyPair_perm hsymm (List.filter_append_perm group items),
    anyPair_append, hrest, Bool.or_false]

theorem anyPair_eq_true_iff
    (hsymm : ∀ first second, conflict first second = conflict second first) :
    anyPair conflict items = true ↔
      ∃ (i j : ℕ) (first second : α), i ≠ j ∧ items[i]? = some first ∧
        items[j]? = some second ∧ conflict first second = true := by
  rw [← Bool.not_eq_false, anyPair_eq_false_iff, List.pairwise_iff_getElem]
  constructor
  · intro hsome
    simp only [not_forall] at hsome
    obtain ⟨i, j, hi, hj, hlt, hconflict⟩ := hsome
    refine ⟨i, j, items[i], items[j], hlt.ne, List.getElem?_eq_getElem hi,
      List.getElem?_eq_getElem hj, ?_⟩
    exact Bool.eq_true_of_not_eq_false hconflict
  · rintro ⟨i, j, first, second, hne, hi, hj, hconflict⟩ hnone
    obtain ⟨hilt, rfl⟩ := List.getElem?_eq_some_iff.1 hi
    obtain ⟨hjlt, rfl⟩ := List.getElem?_eq_some_iff.1 hj
    rcases Nat.lt_or_gt_of_ne hne with hlt | hlt
    · rw [hnone i j hilt hjlt hlt] at hconflict
      cases hconflict
    · rw [hsymm, hnone j i hjlt hilt hlt] at hconflict
      cases hconflict

end PairCheck
