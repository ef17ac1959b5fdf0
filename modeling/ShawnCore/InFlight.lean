import Mathlib.Tactic
import Mathlib.Algebra.BigOperators.Group.Finset.Basic
import Mathlib.Algebra.Order.BigOperators.Group.Multiset

/-!
# Work in the hands of threads

Items come in, threads carry them for some steps, and items go out.  If every
step balances for the thread which takes it, then at any time what has come in
is what has gone out together with what the threads carry.
-/

namespace InFlight

variable {τ π ω : Type*} [Fintype τ] [DecidableEq τ]

/-- The items which the threads carry, by their program counters. -/
def pending (carries : π → Multiset ω) (pc : τ → π) : Multiset ω :=
  ∑ thread, carries (pc thread)

theorem pending_update
    (carries : π → Multiset ω) (pc : τ → π) (thread : τ) (next : π) :
    pending carries (Function.update pc thread next) +
        carries (pc thread) =
      pending carries pc + carries next := by
  have hothers : ∑ other ∈ Finset.univ.erase thread,
        carries (Function.update pc thread next other) =
      ∑ other ∈ Finset.univ.erase thread, carries (pc other) := by
    apply Finset.sum_congr rfl
    intro other hother
    rw [Function.update_of_ne (Finset.ne_of_mem_erase hother)]
  have hupdated := Finset.sum_erase_add Finset.univ
    (fun other => carries (Function.update pc thread next other))
    (Finset.mem_univ thread)
  have hbefore := Finset.sum_erase_add Finset.univ
    (fun other => carries (pc other)) (Finset.mem_univ thread)
  unfold pending
  rw [← hupdated, ← hbefore, hothers, Function.update_self]
  abel

/-- What came in went out or is carried. -/
def Conserved
    (carries : π → Multiset ω) (entered left : Multiset ω) (pc : τ → π) :
    Prop :=
  entered = left + pending carries pc

theorem Conserved.step
    {carries : π → Multiset ω} {entered left : Multiset ω} {pc : τ → π}
    (hconserved : Conserved carries entered left pc)
    (added removed : Multiset ω) (thread : τ) (next : π)
    (hbalance : carries (pc thread) + added = carries next + removed) :
    Conserved carries (entered + added) (left + removed)
      (Function.update pc thread next) := by
  have hupdate := pending_update carries pc thread next
  unfold Conserved at hconserved ⊢
  have hsum : entered + added + carries (pc thread) =
      left + removed + pending carries (Function.update pc thread next) +
        carries (pc thread) := by
    rw [add_assoc (left + removed), hupdate, hconserved, add_assoc,
      add_comm added, hbalance]
    abel
  exact add_right_cancel hsum

section Rules

variable {carries : π → Multiset ω} {entered left : Multiset ω} {pc : τ → π}
  {thread : τ} {before next : π} {item : ω}

theorem Conserved.move
    (hconserved : Conserved carries entered left pc)
    (hpc : pc thread = before) (hsame : carries before = carries next) :
    Conserved carries entered left (Function.update pc thread next) := by
  subst hpc
  simpa only [add_zero] using
    hconserved.step 0 0 thread next (by rw [hsame])

theorem Conserved.enter
    (hconserved : Conserved carries entered left pc)
    (hpc : pc thread = before)
    (hnew : carries before + {item} = carries next) :
    Conserved carries (entered + {item}) left
      (Function.update pc thread next) := by
  subst hpc
  simpa only [add_zero] using
    hconserved.step {item} 0 thread next (by rw [hnew, add_zero])

theorem Conserved.leave
    (hconserved : Conserved carries entered left pc)
    (hpc : pc thread = before)
    (hold : carries before = carries next + {item}) :
    Conserved carries entered (left + {item})
      (Function.update pc thread next) := by
  subst hpc
  simpa only [add_zero] using
    hconserved.step 0 {item} thread next (by rw [hold, add_zero])

end Rules

omit [DecidableEq τ] in
theorem Conserved.of_idle
    {carries : π → Multiset ω} {entered left : Multiset ω} {pc : τ → π}
    (hconserved : Conserved carries entered left pc)
    (hidle : ∀ thread, carries (pc thread) = 0) : entered = left := by
  rw [hconserved, pending, Finset.sum_eq_zero fun thread _ => hidle thread,
    add_zero]

end InFlight
