import Mathlib.Tactic

/-!
# Executions of partial step functions

A system is a step function which may refuse an action.  `run` performs a
schedule of actions in order; it fails as soon as one action is refused.  The
invariant rules package the induction over the schedule once, with and without
a condition on the steps taken.
-/

namespace Execution

variable {σ α : Type*}

/-- A bound computation in `Except` succeeds exactly when both parts do. -/
theorem bind_eq_ok
    {ε α β : Type} {first : Except ε α} {rest : α → Except ε β} {result : β} :
    (first >>= rest) = .ok result ↔
      ∃ value, first = .ok value ∧ rest value = .ok result := by
  cases first with
  | error failure =>
      constructor
      · intro h
        cases h
      · rintro ⟨value, hfirst, -⟩
        cases hfirst
  | ok value =>
      constructor
      · intro h
        exact ⟨value, rfl, h⟩
      · rintro ⟨other, hfirst, hrest⟩
        cases hfirst
        exact hrest

def run (step : σ → α → Option σ) : σ → List α → Option σ
  | state, [] => some state
  | state, action :: rest =>
      match step state action with
      | none => none
      | some next => run step next rest

/-- Every step of a schedule meets a condition on the state before it. -/
def RunWithin
    (step : σ → α → Option σ) (allowed : σ → α → Prop) :
    σ → List α → Prop
  | _, [] => True
  | state, action :: rest =>
      allowed state action ∧
        match step state action with
        | none => False
        | some next => RunWithin step allowed next rest

instance decidableRunWithin
    (step : σ → α → Option σ) (allowed : σ → α → Prop)
    [∀ state action, Decidable (allowed state action)] :
    ∀ state schedule, Decidable (RunWithin step allowed state schedule)
  | _, [] => isTrue trivial
  | state, action :: rest =>
      match hstep : step state action with
      | none => isFalse (by simp [RunWithin, hstep])
      | some next =>
          have : Decidable (RunWithin step allowed next rest) :=
            decidableRunWithin step allowed next rest
          decidable_of_iff
            (allowed state action ∧ RunWithin step allowed next rest)
            (by simp [RunWithin, hstep])

theorem run_append
    (step : σ → α → Option σ) (state : σ) (before after : List α) :
    run step state (before ++ after) =
      (run step state before).bind fun middle => run step middle after := by
  induction before generalizing state with
  | nil => rfl
  | cons action rest ih =>
      simp only [List.cons_append, run]
      cases hstep : step state action with
      | none => rfl
      | some next => exact ih next

theorem RunWithin.of_append
    {step : σ → α → Option σ} {allowed : σ → α → Prop} {state middle : σ}
    {before after : List α}
    (hwithin : RunWithin step allowed state (before ++ after))
    (hrun : run step state before = some middle) :
    RunWithin step allowed middle after := by
  induction before generalizing state with
  | nil =>
      cases hrun
      exact hwithin
  | cons action rest ih =>
      simp only [run] at hrun
      simp only [List.cons_append, RunWithin] at hwithin
      cases hnext : step state action with
      | none => simp [hnext] at hrun
      | some next =>
          rw [hnext] at hrun
          simp only [hnext] at hwithin
          exact ih hwithin.2 hrun

theorem RunWithin.left
    {step : σ → α → Option σ} {allowed : σ → α → Prop} {state : σ}
    {before after : List α}
    (hwithin : RunWithin step allowed state (before ++ after)) :
    RunWithin step allowed state before := by
  induction before generalizing state with
  | nil => trivial
  | cons action rest ih =>
      simp only [List.cons_append, RunWithin] at hwithin ⊢
      refine ⟨hwithin.1, ?_⟩
      cases hnext : step state action with
      | none => simp [hnext] at hwithin
      | some next =>
          simp only [hnext] at hwithin
          exact ih hwithin.2

/-- A condition on the actions alone may be added. -/
theorem RunWithin.and_forall
    {step : σ → α → Option σ} {allowed : σ → α → Prop} {kind : α → Prop}
    {state : σ} {schedule : List α}
    (hwithin : RunWithin step allowed state schedule)
    (hkind : ∀ action ∈ schedule, kind action) :
    RunWithin step (fun state action => allowed state action ∧ kind action)
      state schedule := by
  induction schedule generalizing state with
  | nil => trivial
  | cons action rest ih =>
      rw [List.forall_mem_cons] at hkind
      simp only [RunWithin] at hwithin ⊢
      refine ⟨⟨hwithin.1, hkind.1⟩, ?_⟩
      cases hnext : step state action with
      | none => simp [hnext] at hwithin
      | some next =>
          simp only [hnext] at hwithin
          exact ih hwithin.2 hkind.2

/-- A property which every step preserves holds after a whole run. -/
theorem run_invariant
    {step : σ → α → Option σ} {Good : σ → Prop}
    (hstep : ∀ state action next,
      Good state → step state action = some next → Good next)
    {state final : σ} {schedule : List α}
    (hgood : Good state) (hrun : run step state schedule = some final) :
    Good final := by
  induction schedule generalizing state with
  | nil =>
      cases hrun
      exact hgood
  | cons action rest ih =>
      simp only [run] at hrun
      cases hnext : step state action with
      | none => simp [hnext] at hrun
      | some next =>
          rw [hnext] at hrun
          exact ih (hstep state action next hgood hnext) hrun

/-- An invariant which the actions of one kind keep. -/
theorem run_invariant_forall
    {step : σ → α → Option σ} {kind : α → Prop} {Good : σ → Prop}
    (hstep : ∀ state action next,
      Good state → kind action →
        step state action = some next → Good next)
    {state final : σ} {schedule : List α}
    (hgood : Good state) (hkind : ∀ action ∈ schedule, kind action)
    (hrun : run step state schedule = some final) :
    Good final := by
  induction schedule generalizing state with
  | nil =>
      cases hrun
      exact hgood
  | cons action rest ih =>
      obtain ⟨hfirst, hrest⟩ := List.forall_mem_cons.1 hkind
      simp only [run] at hrun
      cases hnext : step state action with
      | none => simp [hnext] at hrun
      | some next =>
          rw [hnext] at hrun
          exact ih (hstep state action next hgood hfirst hnext) hrest hrun

/-- The same rule when the steps are known to meet a condition. -/
theorem run_invariant_within
    {step : σ → α → Option σ} {allowed : σ → α → Prop} {Good : σ → Prop}
    (hstep : ∀ state action next,
      Good state → allowed state action →
        step state action = some next → Good next)
    {state final : σ} {schedule : List α}
    (hgood : Good state) (hwithin : RunWithin step allowed state schedule)
    (hrun : run step state schedule = some final) :
    Good final := by
  induction schedule generalizing state with
  | nil =>
      cases hrun
      exact hgood
  | cons action rest ih =>
      simp only [run] at hrun
      simp only [RunWithin] at hwithin
      cases hnext : step state action with
      | none => simp [hnext] at hrun
      | some next =>
          rw [hnext] at hrun
          simp only [hnext] at hwithin
          exact ih (hstep state action next hgood hwithin.1 hnext)
            hwithin.2 hrun

/-- A state which waits with a positive rank has got there once the schedule
has as many of the actions which lower the rank. -/
theorem run_reaches
    {step : σ → α → Option σ} (Waiting Done : σ → Prop) (rank : σ → ℕ)
    (counts : α → Bool)
    (hwaiting : ∀ state action next,
      Waiting state → step state action = some next →
        Done next ∨
          Waiting next ∧ rank next + (counts action).toNat ≤ rank state)
    (hdone : ∀ state action next,
      Done state → step state action = some next → Done next)
    (hpositive : ∀ state, Waiting state → 0 < rank state)
    {state final : σ} {schedule : List α}
    (hstart : Waiting state) (hrun : run step state schedule = some final)
    (henough : rank state ≤ schedule.countP counts) :
    Done final := by
  induction schedule generalizing state with
  | nil => exact absurd henough (hpositive state hstart).not_ge
  | cons action rest ih =>
      simp only [run] at hrun
      cases hnext : step state action with
      | none => simp [hnext] at hrun
      | some next =>
          rw [hnext] at hrun
          rcases hwaiting state action next hstart hnext
            with hreached | ⟨hstill, hrank⟩
          · exact run_invariant hdone hreached hrun
          · apply ih hstill hrun
            rw [List.countP_cons] at henough
            cases hcounts : counts action with
            | false =>
                simp only [hcounts, Bool.toNat_false] at henough hrank
                exact hrank.trans henough
            | true =>
                simp only [hcounts, Bool.toNat_true, if_true]
                  at henough hrank
                exact Nat.le_of_succ_le_succ (hrank.trans henough)

/-- The actions which count are paid from the potential of the first state and
from what the actions grant. -/
theorem run_amortised
    {step : σ → α → Option σ} {allowed : σ → α → Prop} {Good : σ → Prop}
    (potential : σ → ℕ) (counts : α → Bool) (grant : α → ℕ)
    (hgood : ∀ state action next,
      Good state → allowed state action →
        step state action = some next → Good next)
    (hstep : ∀ state action next,
      Good state → allowed state action →
        step state action = some next →
          (counts action).toNat + potential next ≤
            potential state + grant action)
    {state final : σ} {schedule : List α} (hstart : Good state)
    (hwithin : RunWithin step allowed state schedule)
    (hrun : run step state schedule = some final) :
    schedule.countP counts + potential final ≤
      potential state + (schedule.map grant).sum := by
  induction schedule generalizing state with
  | nil =>
      cases hrun
      simp
  | cons action rest ih =>
      simp only [run] at hrun
      simp only [RunWithin] at hwithin
      cases hnext : step state action with
      | none => simp [hnext] at hrun
      | some next =>
          rw [hnext] at hrun
          simp only [hnext] at hwithin
          have hpaid := hstep state action next hstart hwithin.1 hnext
          have hrest := ih (hgood state action next hstart hwithin.1 hnext)
            hwithin.2 hrun
          have hcounts : (counts action).toNat =
              if counts action = true then 1 else 0 := by
            cases counts action <;> rfl
          rw [List.countP_cons, List.map_cons, List.sum_cons]
          omega

/-! ## The transitions of a run -/

structure Transition (σ α : Type*) where
  before : σ
  action : α
  after : σ

def transitions (step : σ → α → Option σ) :
    σ → List α → List (Transition σ α)
  | _, [] => []
  | state, action :: rest =>
      match step state action with
      | none => []
      | some next => ⟨state, action, next⟩ :: transitions step next rest

theorem transitions_eq_cons
    {step : σ → α → Option σ} {state : σ} {schedule : List α}
    {first : Transition σ α} {later : List (Transition σ α)}
    (hrun : transitions step state schedule = first :: later) :
    first.before = state ∧ step state first.action = some first.after ∧
      ∃ rest, transitions step first.after rest = later := by
  cases schedule with
  | nil => cases hrun
  | cons action rest =>
      simp only [transitions] at hrun
      cases hnext : step state action with
      | none => simp [hnext] at hrun
      | some next =>
          simp only [hnext, List.cons.injEq] at hrun
          obtain ⟨hfirst, hlater⟩ := hrun
          subst hfirst
          exact ⟨rfl, hnext, rest, hlater⟩

theorem transitions_eq_append
    {step : σ → α → Option σ} {state : σ} {schedule : List α}
    {earlier later : List (Transition σ α)}
    (hrun : transitions step state schedule = earlier ++ later) :
    ∃ middle rest, transitions step middle rest = later := by
  induction earlier generalizing state schedule with
  | nil => exact ⟨state, schedule, hrun⟩
  | cons first earlier ih =>
      obtain ⟨-, -, rest, hrest⟩ := transitions_eq_cons hrun
      exact ih hrest

theorem step_of_mem_transitions
    {step : σ → α → Option σ} {state : σ} {schedule : List α}
    {transition : Transition σ α}
    (hmem : transition ∈ transitions step state schedule) :
    step transition.before transition.action = some transition.after := by
  induction schedule generalizing state with
  | nil => cases hmem
  | cons action rest ih =>
      simp only [transitions] at hmem
      cases hnext : step state action with
      | none => simp [hnext] at hmem
      | some next =>
          simp only [hnext, List.mem_cons] at hmem
          cases hmem with
          | inl hfirst =>
              rw [hfirst]
              exact hnext
          | inr hlater => exact ih hlater

theorem allowed_of_mem_transitions
    {step : σ → α → Option σ} {allowed : σ → α → Prop} {state : σ}
    {schedule : List α} (hwithin : RunWithin step allowed state schedule)
    {transition : Transition σ α}
    (hmem : transition ∈ transitions step state schedule) :
    allowed transition.before transition.action := by
  induction schedule generalizing state with
  | nil => cases hmem
  | cons action rest ih =>
      simp only [RunWithin] at hwithin
      simp only [transitions] at hmem
      cases hnext : step state action with
      | none => simp [hnext] at hmem
      | some next =>
          simp only [hnext] at hwithin
          simp only [hnext, List.mem_cons] at hmem
          cases hmem with
          | inl hfirst =>
              rw [hfirst]
              exact hwithin.1
          | inr hlater => exact ih hwithin.2 hlater

/-- An invariant holds before and after every transition. -/
theorem transitions_invariant_within
    {step : σ → α → Option σ} {allowed : σ → α → Prop} {Good : σ → Prop}
    (hstep : ∀ state action next,
      Good state → allowed state action →
        step state action = some next → Good next)
    {state : σ} {schedule : List α} (hgood : Good state)
    (hwithin : RunWithin step allowed state schedule)
    {transition : Transition σ α}
    (hmem : transition ∈ transitions step state schedule) :
    Good transition.before ∧ Good transition.after := by
  induction schedule generalizing state with
  | nil => cases hmem
  | cons action rest ih =>
      simp only [RunWithin] at hwithin
      simp only [transitions] at hmem
      cases hnext : step state action with
      | none => simp [hnext] at hmem
      | some next =>
          simp only [hnext] at hwithin
          simp only [hnext, List.mem_cons] at hmem
          have hafter := hstep state action next hgood hwithin.1 hnext
          cases hmem with
          | inl hfirst =>
              rw [hfirst]
              exact ⟨hgood, hafter⟩
          | inr hlater => exact ih hafter hwithin.2 hlater

/-! ## Traces of total systems -/

variable {ε : Type*}

/-- The events of a schedule, oldest first. -/
def trace (step : σ → α → σ × ε) : σ → List α → List ε
  | _, [] => []
  | state, action :: rest =>
      (step state action).2 :: trace step (step state action).1 rest

theorem trace_length (step : σ → α → σ × ε) (start : σ) (schedule : List α) :
    (trace step start schedule).length = schedule.length := by
  induction schedule generalizing start with
  | nil => rfl
  | cons action rest ih => rw [trace, List.length_cons, List.length_cons, ih]

/-- The action at a position of the schedule is performed in a state which
satisfies any invariant of the events before it. -/
theorem trace_invariant_at
    {step : σ → α → σ × ε} {Good : List ε → σ → Prop} {schedule : List α}
    (hstep : ∀ past state, ∀ action ∈ schedule, Good past state →
      Good (past ++ [(step state action).2]) (step state action).1)
    {past : List ε} {start : σ} (hstart : Good past start)
    {index : ℕ} {action : α} (haction : schedule[index]? = some action) :
    ∃ state, Good (past ++ (trace step start schedule).take index) state ∧
      (trace step start schedule)[index]? = some (step state action).2 := by
  induction schedule generalizing past start index with
  | nil => cases haction
  | cons first rest ih =>
      cases index with
      | zero =>
          cases haction
          refine ⟨start, ?_, rfl⟩
          simpa using hstart
      | succ index =>
          have hnext := hstep past start first List.mem_cons_self hstart
          have hrest := ih
            (fun past state action hmem =>
              hstep past state action (List.mem_cons_of_mem _ hmem))
            hnext haction
          rcases hrest with ⟨state, hgood, hevent⟩
          refine ⟨state, ?_, hevent⟩
          simpa [trace] using hgood

theorem trace_invariant_from
    {step : σ → α → σ × ε} {Good : List ε → σ → Prop} {schedule : List α}
    (hstep : ∀ past state, ∀ action ∈ schedule, Good past state →
      Good (past ++ [(step state action).2]) (step state action).1)
    {past : List ε} {start : σ} (hstart : Good past start)
    {index : ℕ} {event : ε}
    (hevent : (trace step start schedule)[index]? = some event) :
    ∃ state, ∃ action ∈ schedule,
      Good (past ++ (trace step start schedule).take index) state ∧
        (step state action).2 = event := by
  have hindex := (List.getElem?_eq_some_iff.mp hevent).1
  rw [trace_length] at hindex
  have haction := List.getElem?_eq_getElem hindex
  rcases trace_invariant_at hstep hstart haction with ⟨state, hgood, hsame⟩
  rw [hevent] at hsame
  exact ⟨state, _, List.getElem_mem hindex, hgood,
    (Option.some.inj hsame).symm⟩

/-- Every event of a trace is performed in a state which satisfies any
invariant of the events before it. -/
theorem trace_invariant
    {step : σ → α → σ × ε} {Good : List ε → σ → Prop} {schedule : List α}
    (hstep : ∀ past state, ∀ action ∈ schedule, Good past state →
      Good (past ++ [(step state action).2]) (step state action).1)
    {start : σ} (hstart : Good [] start) {index : ℕ} {event : ε}
    (hevent : (trace step start schedule)[index]? = some event) :
    ∃ state, ∃ action ∈ schedule,
      Good ((trace step start schedule).take index) state ∧
        (step state action).2 = event := by
  simpa using trace_invariant_from hstep hstart hevent

/-- Every event of a trace was performed by some action in some state. -/
theorem trace_event
    {step : σ → α → σ × ε} {schedule : List α} {start : σ} {index : ℕ}
    {event : ε} (hevent : (trace step start schedule)[index]? = some event) :
    ∃ state, ∃ action ∈ schedule, (step state action).2 = event := by
  have hstate := @trace_invariant _ _ _ step (fun _ _ => True) schedule
    (fun _ _ _ _ _ => trivial) start trivial index event hevent
  rcases hstate with ⟨state, action, haction, _, heq⟩
  exact ⟨state, action, haction, heq⟩

end Execution
