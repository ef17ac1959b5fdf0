import Mathlib.Tactic

/-!
# Calls which take effect at one instant

A history lists what the threads of a concurrent object do, one event per
step: a call begins, goes on, or returns.  Beside it stand the values which the
object has before the first step and after each step.  The history is
linearized if every call takes effect, as an operation on the value, in the
step in which it returns, and nothing else changes the value.  The calls in the
order of their returns are then a sequential run of the object.
-/

namespace Linearization

inductive CallEvent (τ ο ρ : Type*)
  | called (thread : τ) (operation : ο)
  | stepped (thread : τ)
  | returned (thread : τ) (result : ρ)
deriving DecidableEq

variable {τ ο ρ σ : Type*}

def CallEvent.thread : CallEvent τ ο ρ → τ
  | .called thread _ => thread
  | .stepped thread => thread
  | .returned thread _ => thread

/-! ## Calls -/

/-- The call which the thread began at this position has not returned. -/
structure OpenCall
    (history : List (CallEvent τ ο ρ)) (thread : τ) (operation : ο)
    (first : ℕ) : Prop where
  called : history[first]? = some (.called thread operation)
  later : ∀ position event, first < position →
    history[position]? = some event → event.thread = thread →
      event = .stepped thread

/-- A whole call: it began at the first position and returned at the last. -/
structure CompleteCall
    (history : List (CallEvent τ ο ρ)) (thread : τ) (operation : ο) (result : ρ)
    (first last : ℕ) : Prop where
  opened : OpenCall (history.take last) thread operation first
  returned : history[last]? = some (.returned thread result)

section Calls

variable {history : List (CallEvent τ ο ρ)} {thread : τ} {operation : ο}
  {result : ρ} {first last : ℕ}

theorem OpenCall.start
    (history : List (CallEvent τ ο ρ)) (thread : τ) (operation : ο) :
    OpenCall (history ++ [.called thread operation]) thread operation
      history.length := by
  constructor
  · exact List.getElem?_concat_length
  · intro position event hfirst hevent
    rw [List.getElem?_eq_none (by simpa using hfirst)] at hevent
    cases hevent

theorem OpenCall.lt_length (hopen : OpenCall history thread operation first) :
    first < history.length :=
  (List.getElem?_eq_some_iff.mp hopen.called).1

/-- A call goes on over the steps of the other threads and its own. -/
theorem OpenCall.snoc
    {event : CallEvent τ ο ρ} (hopen : OpenCall history thread operation first)
    (hevent : event.thread = thread → event = .stepped thread) :
    OpenCall (history ++ [event]) thread operation first := by
  constructor
  · rw [List.getElem?_append_left hopen.lt_length]
    exact hopen.called
  · intro position found hfirst hfound hthread
    rw [List.getElem?_append] at hfound
    split_ifs at hfound with hold
    · exact hopen.later position found hfirst hfound hthread
    · rw [List.getElem?_singleton] at hfound
      split_ifs at hfound
      cases hfound
      exact hevent hthread

/-- A thread is in one call at a time. -/
theorem OpenCall.unique
    {other : ο} {otherFirst : ℕ}
    (hopen : OpenCall history thread operation first)
    (hother : OpenCall history thread other otherFirst) :
    operation = other ∧ first = otherFirst := by
  have hsame : first = otherFirst := by
    rcases lt_trichotomy first otherFirst with hlt | heq | hgt
    · cases hopen.later otherFirst _ hlt hother.called rfl
    · exact heq
    · cases hother.later first _ hgt hopen.called rfl
  have hcalled := hopen.called
  rw [hsame, hother.called] at hcalled
  cases hcalled
  exact ⟨rfl, hsame⟩

theorem CompleteCall.first_lt_last
    (hcall : CompleteCall history thread operation result first last) :
    first < last :=
  hcall.opened.lt_length.trans_le (List.length_take_le last history)

/-- One call returns in one step. -/
theorem CompleteCall.unique
    {other : τ} {otherOperation : ο} {otherResult : ρ} {otherFirst : ℕ}
    (hcall : CompleteCall history thread operation result first last)
    (hother :
      CompleteCall history other otherOperation otherResult otherFirst last) :
    thread = other ∧ operation = otherOperation ∧ result = otherResult ∧
      first = otherFirst := by
  have hreturned := hcall.returned
  rw [hother.returned] at hreturned
  cases hreturned
  obtain ⟨hoperation, hfirst⟩ := hcall.opened.unique hother.opened
  exact ⟨rfl, hoperation, rfl, hfirst⟩

end Calls

/-! ## Histories beside the values of the object -/

/-- What one event does to the value: only a return changes it, by the
operation of the call which returns. -/
inductive Effect
    (apply : σ → ο → σ × ρ) (past : List (CallEvent τ ο ρ)) :
    CallEvent τ ο ρ → σ → σ → Prop
  | called (thread : τ) (operation : ο) (value : σ) :
      Effect apply past (.called thread operation) value value
  | stepped (thread : τ) (value : σ) :
      Effect apply past (.stepped thread) value value
  | returned {thread : τ} {operation : ο} {result : ρ} {first : ℕ}
      {before after : σ} (hopen : OpenCall past thread operation first)
      (happly : apply before operation = (after, result)) :
      Effect apply past (.returned thread result) before after

structure Linearized
    (apply : σ → ο → σ × ρ) (history : List (CallEvent τ ο ρ))
    (values : List σ) : Prop where
  length_eq : values.length = history.length + 1
  effect : ∀ position event before after,
    history[position]? = some event → values[position]? = some before →
      values[position + 1]? = some after →
        Effect apply (history.take position) event before after

namespace Linearized

variable {apply : σ → ο → σ × ρ} {history : List (CallEvent τ ο ρ)}
  {values : List σ}

theorem nil (apply : σ → ο → σ × ρ) (value : σ) :
    Linearized apply ([] : List (CallEvent τ ο ρ)) [value] := by
  constructor
  · rfl
  · intro position event before after hevent
    cases hevent

theorem snoc
    {event : CallEvent τ ο ρ} {last next : σ}
    (hlinear : Linearized apply history values)
    (hlast : values.getLast? = some last)
    (heffect : Effect apply history event last next) :
    Linearized apply (history ++ [event]) (values ++ [next]) := by
  have hlength := hlinear.length_eq
  constructor
  · simpa using hlength
  · intro position found before after hfound hbefore hafter
    have hposition := (List.getElem?_eq_some_iff.mp hfound).1
    rw [List.length_append, List.length_singleton] at hposition
    rw [List.getElem?_append_left (by omega)] at hbefore
    by_cases hold : position < history.length
    · rw [List.getElem?_append_left hold] at hfound
      rw [List.getElem?_append_left (by omega)] at hafter
      rw [List.take_append_of_le_length hold.le]
      exact hlinear.effect position found before after hfound hbefore hafter
    · have hend : position = history.length := by omega
      subst hend
      rw [List.getElem?_concat_length] at hfound
      rw [← hlength, List.getElem?_concat_length] at hafter
      rw [List.getLast?_eq_getElem?, hlength, Nat.add_sub_cancel,
        hbefore] at hlast
      cases hfound
      cases hafter
      cases hlast
      rw [List.take_left]
      exact heffect

/-- The values around an event. -/
theorem values_around
    (hlinear : Linearized apply history values) {position : ℕ}
    {event : CallEvent τ ο ρ} (hevent : history[position]? = some event) :
    ∃ before after, values[position]? = some before ∧
      values[position + 1]? = some after ∧
      Effect apply (history.take position) event before after := by
  have hposition := (List.getElem?_eq_some_iff.mp hevent).1
  have hlength := hlinear.length_eq
  have hbefore := List.getElem?_eq_getElem
    (show position < values.length by omega)
  have hafter := List.getElem?_eq_getElem
    (show position + 1 < values.length by omega)
  exact ⟨_, _, hbefore, hafter,
    hlinear.effect position event _ _ hevent hbefore hafter⟩

/-- The event between two values which follow each other. -/
theorem event_between
    (hlinear : Linearized apply history values) {position : ℕ}
    {before after : σ} (hbefore : values[position]? = some before)
    (hafter : values[position + 1]? = some after) :
    ∃ event, history[position]? = some event ∧
      Effect apply (history.take position) event before after := by
  have hposition := (List.getElem?_eq_some_iff.mp hafter).1
  have hlength := hlinear.length_eq
  have hevent := List.getElem?_eq_getElem
    (show position < history.length by omega)
  exact ⟨_, hevent,
    hlinear.effect position _ before after hevent hbefore hafter⟩

/-- A call is its operation on the value at its return. -/
theorem call
    (hlinear : Linearized apply history values) {thread : τ} {operation : ο}
    {result : ρ} {first last : ℕ}
    (hcall : CompleteCall history thread operation result first last) :
    ∃ before after, values[last]? = some before ∧
      values[last + 1]? = some after ∧
      apply before operation = (after, result) := by
  obtain ⟨before, after, hbefore, hafter, heffect⟩ :=
    hlinear.values_around hcall.returned
  refine ⟨before, after, hbefore, hafter, ?_⟩
  cases heffect with
  | returned hopen happly =>
      rw [(hcall.opened.unique hopen).1]
      exact happly

/-- What changes the value is a call. -/
theorem changed
    (hlinear : Linearized apply history values) {position : ℕ}
    {before after : σ} (hbefore : values[position]? = some before)
    (hafter : values[position + 1]? = some after) (hne : after ≠ before) :
    ∃ thread operation result first,
      CompleteCall history thread operation result first position ∧
        apply before operation = (after, result) := by
  obtain ⟨event, hevent, heffect⟩ := hlinear.event_between hbefore hafter
  cases heffect with
  | called thread operation => exact absurd rfl hne
  | stepped thread => exact absurd rfl hne
  | returned hopen happly =>
      exact ⟨_, _, _, _, ⟨hopen, hevent⟩, happly⟩

/-- A value which no operation changes stays. -/
theorem fixed
    (hlinear : Linearized apply history values) {value : σ}
    (hvalue : ∀ operation, (apply value operation).1 = value)
    {position : ℕ} (hposition : values[position]? = some value)
    {later : ℕ} (hle : position ≤ later) (hlater : later < values.length) :
    values[later]? = some value := by
  induction later, hle using Nat.le_induction with
  | base => exact hposition
  | succ later hle ih =>
      have hbefore := ih (by omega)
      have hafter := List.getElem?_eq_getElem hlater
      by_contra hne
      have hchanged : values[later + 1] ≠ value := by
        intro heq
        rw [hafter, heq] at hne
        exact hne rfl
      obtain ⟨thread, operation, result, first, -, happly⟩ :=
        hlinear.changed hbefore hafter hchanged
      have hsame := hvalue operation
      rw [happly] at hsame
      exact hchanged hsame

end Linearized

end Linearization
