import ShawnCore.Execution
import ShawnCore.Linearization

/-!
# The enclave state machine

`StateMachine::try_advance` checks the transition from the state which it has
loaded, and tries to exchange that state for its target; a failed exchange
gives it a newer state and it starts over.  Any number of threads run it, one
memory access a step, together with the check after it.  The weak exchange may
fail although the state is the expected one.  The history of the calls and the
list of the values of `current_state` are ghost state.
-/

namespace ShawnCore

open Execution Linearization

inductive EnclaveState
  | init
  | bootstrapping
  | operational
  | degraded
  | terminal
deriving DecidableEq

/-- `state as u8`. -/
def EnclaveState.code : EnclaveState → UInt8
  | .init => 0
  | .bootstrapping => 1
  | .operational => 2
  | .degraded => 3
  | .terminal => 4

/-- The edges of the allowed-transition graph. -/
def validTransitions : List (UInt8 × UInt8) :=
  [(0, 1), (1, 2), (1, 4), (2, 3), (2, 4), (3, 4), (3, 2)]

def isValid (current target : UInt8) : Bool :=
  decide ((current, target) ∈ validTransitions)

theorem ne_of_isValid {current target : UInt8}
    (hvalid : isValid current target = true) : target ≠ current := by
  have hedges : ∀ edge ∈ validTransitions, edge.2 ≠ edge.1 := by
    simp [validTransitions]
  exact hedges (current, target) (of_decide_eq_true hvalid)

theorem isValid_terminal (target : UInt8) :
    isValid EnclaveState.terminal.code target = false := by
  have hedges : ∀ edge ∈ validTransitions,
      edge.1 ≠ EnclaveState.terminal.code := by
    simp [validTransitions, EnclaveState.code]
  rw [isValid, decide_eq_false_iff_not]
  intro hmem
  exact hedges _ hmem rfl

namespace StateMachine

/-- `try_advance` as one operation on the state. -/
def advance (current : UInt8) (target : EnclaveState) :
    UInt8 × Except Unit Unit :=
  if isValid current target.code then
    (target.code, .ok ())
  else
    (current, .error ())

theorem advance_of_isValid {current : UInt8} {target : EnclaveState}
    (hvalid : isValid current target.code = true) :
    advance current target = (target.code, .ok ()) := by
  rw [advance, if_pos hvalid]

theorem advance_of_not_isValid {current : UInt8} {target : EnclaveState}
    (hinvalid : isValid current target.code = false) :
    advance current target = (current, .error ()) := by
  rw [advance, if_neg (by simp [hinvalid])]

theorem isValid_of_advance_ok {current after : UInt8} {target : EnclaveState}
    (hadvance : advance current target = (after, .ok ())) :
    isValid current target.code = true ∧ after = target.code := by
  cases hvalid : isValid current target.code with
  | true =>
      rw [advance_of_isValid hvalid] at hadvance
      cases hadvance
      exact ⟨rfl, rfl⟩
  | false =>
      rw [advance_of_not_isValid hvalid] at hadvance
      cases hadvance

theorem not_isValid_of_advance_error
    {current after : UInt8} {target : EnclaveState}
    (hadvance : advance current target = (after, .error ())) :
    isValid current target.code = false := by
  cases hvalid : isValid current target.code with
  | true =>
      rw [advance_of_isValid hvalid] at hadvance
      cases hadvance
  | false => rfl

theorem advance_terminal (target : EnclaveState) :
    advance EnclaveState.terminal.code target =
      (EnclaveState.terminal.code, .error ()) :=
  advance_of_not_isValid (isValid_terminal target.code)

/-- The program counter of a thread.  A thread exchanges only the states from
which its target is allowed. -/
inductive Pc
  | idle
  | load (target : EnclaveState)
  | exchange (target : EnclaveState) (current : UInt8)
      (hvalid : isValid current target.code = true)

/-- The target of the call in which the thread is. -/
def Pc.target? : Pc → Option EnclaveState
  | .idle => none
  | .load target => some target
  | .exchange target _ _ => some target

end StateMachine

structure StateMachine (τ : Type) where
  currentState : UInt8
  pc : τ → StateMachine.Pc
  history : List (CallEvent τ EnclaveState (Except Unit Unit))
  values : List UInt8

namespace StateMachine

variable {τ : Type}

def new : StateMachine τ where
  currentState := EnclaveState.init.code
  pc _ := .idle
  history := []
  values := [EnclaveState.init.code]

section Steps

variable [DecidableEq τ]

/-- One step of a thread: where it goes on, the state it leaves, and what the
step is in the history. -/
@[simps] def record
    (machine : StateMachine τ) (thread : τ) (pc : Pc) (state : UInt8)
    (event : CallEvent τ EnclaveState (Except Unit Unit)) : StateMachine τ where
  currentState := state
  pc := Function.update machine.pc thread pc
  history := machine.history ++ [event]
  values := machine.values ++ [state]

/-- The head of the loop, with the state seen last. -/
def examine
    (machine : StateMachine τ) (thread : τ) (target : EnclaveState)
    (current : UInt8) : StateMachine τ :=
  if hvalid : isValid current target.code = true then
    machine.record thread (.exchange target current hvalid)
      machine.currentState (.stepped thread)
  else
    machine.record thread .idle machine.currentState
      (.returned thread (.error ()))

inductive Action (τ : Type)
  | call (thread : τ) (target : EnclaveState)
  | step (thread : τ) (spurious : Bool)

def step (machine : StateMachine τ) : Action τ → Option (StateMachine τ)
  | .call thread target =>
      match machine.pc thread with
      | .idle =>
          some (machine.record thread (.load target) machine.currentState
            (.called thread target))
      | _ => none
  | .step thread spurious =>
      match machine.pc thread with
      | .idle => none
      | .load target =>
          some (machine.examine thread target machine.currentState)
      | .exchange target current _ =>
          if machine.currentState = current ∧ spurious = false then
            some (machine.record thread .idle target.code
              (.returned thread (.ok ())))
          else
            some (machine.examine thread target machine.currentState)

/-- Every step of the machine. -/
inductive MachineStep (machine : StateMachine τ) :
    Action τ → StateMachine τ → Prop
  | called (thread : τ) (target : EnclaveState) :
      MachineStep machine (.call thread target)
        (machine.record thread (.load target) machine.currentState
          (.called thread target))
  | stepped (thread : τ) (spurious : Bool) (target : EnclaveState)
      (hcall : (machine.pc thread).target? = some target)
      (hvalid : isValid machine.currentState target.code = true) :
      MachineStep machine (.step thread spurious)
        (machine.record thread (.exchange target machine.currentState hvalid)
          machine.currentState (.stepped thread))
  | refused (thread : τ) (spurious : Bool) (target : EnclaveState)
      (hcall : (machine.pc thread).target? = some target)
      (hinvalid : isValid machine.currentState target.code = false) :
      MachineStep machine (.step thread spurious)
        (machine.record thread .idle machine.currentState
          (.returned thread (.error ())))
  | advanced (thread : τ) (spurious : Bool) (target : EnclaveState)
      (hcall : (machine.pc thread).target? = some target)
      (hvalid : isValid machine.currentState target.code = true) :
      MachineStep machine (.step thread spurious)
        (machine.record thread .idle target.code
          (.returned thread (.ok ())))

theorem examine_machineStep
    {machine : StateMachine τ} {thread : τ} {target : EnclaveState}
    (hcall : (machine.pc thread).target? = some target) (spurious : Bool) :
    MachineStep machine (.step thread spurious)
      (machine.examine thread target machine.currentState) := by
  unfold examine
  split_ifs with hvalid
  · exact .stepped thread spurious target hcall hvalid
  · exact .refused thread spurious target hcall
      (Bool.eq_false_of_not_eq_true hvalid)

theorem step_machineStep
    {machine next : StateMachine τ} {action : Action τ}
    (hstep : step machine action = some next) :
    MachineStep machine action next := by
  cases action with
  | call thread target =>
      cases hpc : machine.pc thread with
      | idle =>
          simp only [step, hpc, Option.some.injEq] at hstep
          subst next
          exact .called thread target
      | load other => simp [step, hpc] at hstep
      | exchange other current hvalid => simp [step, hpc] at hstep
  | step thread spurious =>
      cases hpc : machine.pc thread with
      | idle => simp [step, hpc] at hstep
      | load target =>
          simp only [step, hpc, Option.some.injEq] at hstep
          subst next
          exact examine_machineStep (by rw [hpc]; rfl) spurious
      | exchange target current hvalid =>
          have hcall : (machine.pc thread).target? = some target := by
            rw [hpc]
            rfl
          simp only [step, hpc] at hstep
          split_ifs at hstep with hexchange
          · cases hstep
            rw [← hexchange.1] at hvalid
            exact .advanced thread spurious target hcall hvalid
          · cases hstep
            exact examine_machineStep hcall spurious

end Steps

/-! ## Every call takes effect when it returns -/

/-- What the ghost state says about the machine. -/
structure Coherent (machine : StateMachine τ) : Prop where
  linearized : Linearized advance machine.history machine.values
  current : machine.values.getLast? = some machine.currentState
  calls : ∀ thread target, (machine.pc thread).target? = some target →
    ∃ first, OpenCall machine.history thread target first

theorem coherent_new : Coherent (new : StateMachine τ) where
  linearized := Linearized.nil advance EnclaveState.init.code
  current := rfl
  calls := by
    intro thread target hcall
    cases hcall

section Runs

variable [DecidableEq τ]

/-- A step has the effect of its event, and goes on only in a call which it
begins or which was in progress. -/
theorem Coherent.record
    {machine : StateMachine τ} (hcoherent : Coherent machine)
    {thread : τ} {pc : Pc} {state : UInt8}
    {event : CallEvent τ EnclaveState (Except Unit Unit)}
    (hthread : event.thread = thread)
    (heffect :
      Effect advance machine.history event machine.currentState state)
    (hpc : ∀ target, pc.target? = some target →
      event = .called thread target ∨
        event = .stepped thread ∧
          (machine.pc thread).target? = some target) :
    Coherent (machine.record thread pc state event) where
  linearized := hcoherent.linearized.snoc hcoherent.current heffect
  current := List.getLast?_concat
  calls := by
    intro other target hcall
    rw [record_pc] at hcall
    by_cases hother : other = thread
    · subst hother
      rw [Function.update_self] at hcall
      rcases hpc target hcall with rfl | ⟨rfl, hold⟩
      · exact ⟨_, OpenCall.start machine.history other target⟩
      · obtain ⟨first, hopen⟩ := hcoherent.calls other target hold
        exact ⟨first, hopen.snoc fun _ => rfl⟩
    · rw [Function.update_of_ne hother] at hcall
      obtain ⟨first, hopen⟩ := hcoherent.calls other target hcall
      refine ⟨first, hopen.snoc ?_⟩
      intro hsame
      exact absurd (hsame.symm.trans hthread) hother

theorem Coherent.step
    {machine next : StateMachine τ} {action : Action τ}
    (hcoherent : Coherent machine)
    (hstep : StateMachine.step machine action = some next) :
    Coherent next := by
  cases step_machineStep hstep with
  | called thread target =>
      refine hcoherent.record rfl (.called thread target _) ?_
      intro other hcall
      cases hcall
      exact Or.inl rfl
  | stepped thread spurious target hold hvalid =>
      refine hcoherent.record rfl (.stepped thread _) ?_
      intro other hcall
      cases hcall
      exact Or.inr ⟨rfl, hold⟩
  | refused thread spurious target hold hinvalid =>
      obtain ⟨first, hopen⟩ := hcoherent.calls thread target hold
      refine hcoherent.record rfl
        (.returned hopen (advance_of_not_isValid hinvalid)) ?_
      intro other hcall
      cases hcall
  | advanced thread spurious target hold hvalid =>
      obtain ⟨first, hopen⟩ := hcoherent.calls thread target hold
      refine hcoherent.record rfl
        (.returned hopen (advance_of_isValid hvalid)) ?_
      intro other hcall
      cases hcall

theorem coherent_of_run
    {schedule : List (Action τ)} {final : StateMachine τ}
    (hrun : run step new schedule = some final) : Coherent final :=
  run_invariant (fun _ _ _ hcoherent hstep => hcoherent.step hstep)
    coherent_new hrun

theorem step_values
    {machine next : StateMachine τ} {action : Action τ}
    (hstep : step machine action = some next) :
    next.values = machine.values ++ [next.currentState] := by
  cases step_machineStep hstep <;> rfl

/-- The list of the values is what a reader of `current_state` sees over the
run. -/
theorem run_values
    {machine final : StateMachine τ} {schedule : List (Action τ)}
    (hrun : run step machine schedule = some final) :
    final.values = machine.values ++
      (transitions step machine schedule).map
        fun transition => transition.after.currentState := by
  induction schedule generalizing machine with
  | nil =>
      cases hrun
      exact (List.append_nil _).symm
  | cons action rest ih =>
      simp only [run] at hrun
      cases hnext : step machine action with
      | none => simp [hnext] at hrun
      | some next =>
          rw [hnext] at hrun
          rw [ih hrun, step_values hnext]
          simp only [transitions, hnext, List.map_cons, List.append_assoc,
            List.cons_append, List.nil_append]

end Runs

/-! ## The path of the states -/

/-- The step at this position changes the state. -/
def IsEdge (values : List UInt8) (position : ℕ) : Prop :=
  ∃ before after, values[position]? = some before ∧
    values[position + 1]? = some after ∧ after ≠ before

/-- The calls of `try_advance` behave as if each were one instant. -/
structure Linearizable [DecidableEq τ] (machine : StateMachine τ) :
    Prop where
  path : ∀ position before after,
    machine.values[position]? = some before →
      machine.values[position + 1]? = some after →
        after = before ∨ isValid before after = true
  edge_iff : ∀ position,
    IsEdge machine.values position ↔
      ∃ thread target first,
        CompleteCall machine.history thread target (.ok ()) first position
  edge_once : ∀ position thread target first other otherTarget otherFirst,
    CompleteCall machine.history thread target (.ok ()) first position →
      CompleteCall machine.history other otherTarget (.ok ()) otherFirst
          position →
        thread = other ∧ target = otherTarget ∧ first = otherFirst
  edge_target : ∀ thread target first last,
    CompleteCall machine.history thread target (.ok ()) first last →
      first < last ∧ machine.values[last + 1]? = some target.code
  refused : ∀ thread target first last,
    CompleteCall machine.history thread target (.error ()) first last →
      ∃ instant state, first < instant ∧ instant ≤ last ∧
        machine.values[instant]? = some state ∧
        isValid state target.code = false
  terminal_stays : ∀ position later, position ≤ later →
    machine.values[position]? = some EnclaveState.terminal.code →
      later < machine.values.length →
        machine.values[later]? = some EnclaveState.terminal.code
  terminal_refuses : ∀ position thread target result first last,
    machine.values[position]? = some EnclaveState.terminal.code →
      CompleteCall machine.history thread target result first last →
        position ≤ last → result = .error ()
  terminal_returns : ∀ thread spurious,
    machine.currentState = EnclaveState.terminal.code →
      (machine.pc thread).target? ≠ none →
        ∃ next, step machine (.step thread spurious) = some next ∧
          next.history = machine.history ++ [.returned thread (.error ())]

namespace Coherent

variable {machine : StateMachine τ}

/-- What changes the state is a successful call, and it leaves its target. -/
theorem changed
    (hcoherent : Coherent machine) {position : ℕ} {before after : UInt8}
    (hbefore : machine.values[position]? = some before)
    (hafter : machine.values[position + 1]? = some after)
    (hne : after ≠ before) :
    ∃ thread target first,
      CompleteCall machine.history thread target (.ok ()) first position ∧
        isValid before target.code = true ∧ after = target.code := by
  obtain ⟨thread, target, result, first, hcall, hadvance⟩ :=
    hcoherent.linearized.changed hbefore hafter hne
  cases result with
  | error failure =>
      rw [advance_of_not_isValid (not_isValid_of_advance_error hadvance)]
        at hadvance
      cases hadvance
      exact absurd rfl hne
  | ok done =>
      exact ⟨thread, target, first, hcall, isValid_of_advance_ok hadvance⟩

/-- A successful call is an edge to its target. -/
theorem ok_edge
    (hcoherent : Coherent machine) {thread : τ} {target : EnclaveState}
    {first last : ℕ}
    (hcall : CompleteCall machine.history thread target (.ok ()) first last) :
    ∃ before, machine.values[last]? = some before ∧
      machine.values[last + 1]? = some target.code ∧
      isValid before target.code = true := by
  obtain ⟨before, after, hbefore, hafter, hadvance⟩ :=
    hcoherent.linearized.call hcall
  obtain ⟨hvalid, rfl⟩ := isValid_of_advance_ok hadvance
  exact ⟨before, hbefore, hafter, hvalid⟩

theorem isEdge_iff (hcoherent : Coherent machine) (position : ℕ) :
    IsEdge machine.values position ↔
      ∃ thread target first,
        CompleteCall machine.history thread target (.ok ()) first position := by
  constructor
  · rintro ⟨before, after, hbefore, hafter, hne⟩
    obtain ⟨thread, target, first, hcall, -, -⟩ :=
      hcoherent.changed hbefore hafter hne
    exact ⟨thread, target, first, hcall⟩
  · rintro ⟨thread, target, first, hcall⟩
    obtain ⟨before, hbefore, hafter, hvalid⟩ := hcoherent.ok_edge hcall
    exact ⟨before, target.code, hbefore, hafter, ne_of_isValid hvalid⟩

/-- A refused call was not allowed in the state at its return. -/
theorem error_state
    (hcoherent : Coherent machine) {thread : τ} {target : EnclaveState}
    {first last : ℕ}
    (hcall :
      CompleteCall machine.history thread target (.error ()) first last) :
    ∃ state, machine.values[last]? = some state ∧
      isValid state target.code = false := by
  obtain ⟨before, after, hbefore, -, hadvance⟩ :=
    hcoherent.linearized.call hcall
  exact ⟨before, hbefore, not_isValid_of_advance_error hadvance⟩

theorem terminal_stays
    (hcoherent : Coherent machine) {position later : ℕ}
    (hterminal :
      machine.values[position]? = some EnclaveState.terminal.code)
    (hle : position ≤ later) (hlater : later < machine.values.length) :
    machine.values[later]? = some EnclaveState.terminal.code := by
  refine hcoherent.linearized.fixed ?_ hterminal hle hlater
  intro target
  rw [advance_terminal]

theorem terminal_refuses
    (hcoherent : Coherent machine) {position : ℕ}
    (hterminal :
      machine.values[position]? = some EnclaveState.terminal.code)
    {thread : τ} {target : EnclaveState} {result : Except Unit Unit}
    {first last : ℕ}
    (hcall : CompleteCall machine.history thread target result first last)
    (hle : position ≤ last) :
    result = .error () := by
  obtain ⟨before, after, hbefore, -, hadvance⟩ :=
    hcoherent.linearized.call hcall
  have hlast := (List.getElem?_eq_some_iff.mp hbefore).1
  rw [hcoherent.terminal_stays hterminal hle hlast] at hbefore
  cases hbefore
  rw [advance_terminal] at hadvance
  cases hadvance
  rfl

end Coherent

section Linearizability

variable [DecidableEq τ]

/-- A call which is in progress has a next step. -/
theorem exists_step
    {machine : StateMachine τ} {thread : τ}
    (hcall : (machine.pc thread).target? ≠ none) (spurious : Bool) :
    ∃ next, step machine (.step thread spurious) = some next := by
  cases hpc : machine.pc thread with
  | idle =>
      rw [hpc] at hcall
      exact absurd rfl hcall
  | load target => simp only [step, hpc, Option.some.injEq, exists_eq']
  | exchange target current hvalid =>
      simp only [step, hpc]
      split_ifs
      · exact ⟨_, rfl⟩
      · exact ⟨_, rfl⟩

/-- In the terminal state the next step of a call is a refusal. -/
theorem terminal_returns
    {machine : StateMachine τ} {thread : τ}
    (hterminal : machine.currentState = EnclaveState.terminal.code)
    (hcall : (machine.pc thread).target? ≠ none) (spurious : Bool) :
    ∃ next, step machine (.step thread spurious) = some next ∧
      next.history = machine.history ++ [.returned thread (.error ())] := by
  obtain ⟨next, hstep⟩ := exists_step hcall spurious
  refine ⟨next, hstep, ?_⟩
  cases step_machineStep hstep with
  | refused _ _ target => rfl
  | stepped _ _ target hold hvalid =>
      have hinvalid := isValid_terminal target.code
      rw [← hterminal, hvalid] at hinvalid
      cases hinvalid
  | advanced _ _ target hold hvalid =>
      have hinvalid := isValid_terminal target.code
      rw [← hterminal, hvalid] at hinvalid
      cases hinvalid

theorem Coherent.linearizable
    {machine : StateMachine τ} (hcoherent : Coherent machine) :
    Linearizable machine where
  path := by
    intro position before after hbefore hafter
    by_cases hsame : after = before
    · exact Or.inl hsame
    · obtain ⟨thread, target, first, -, hvalid, rfl⟩ :=
        hcoherent.changed hbefore hafter hsame
      exact Or.inr hvalid
  edge_iff := hcoherent.isEdge_iff
  edge_once := by
    intro position thread target first other otherTarget otherFirst hcall
      hother
    obtain ⟨hthread, htarget, -, hfirst⟩ := hcall.unique hother
    exact ⟨hthread, htarget, hfirst⟩
  edge_target := by
    intro thread target first last hcall
    obtain ⟨before, -, hafter, -⟩ := hcoherent.ok_edge hcall
    exact ⟨hcall.first_lt_last, hafter⟩
  refused := by
    intro thread target first last hcall
    obtain ⟨state, hstate, hinvalid⟩ := hcoherent.error_state hcall
    exact ⟨last, state, hcall.first_lt_last, le_rfl, hstate, hinvalid⟩
  terminal_stays := by
    intro position later hle hterminal hlater
    exact hcoherent.terminal_stays hterminal hle hlater
  terminal_refuses := by
    intro position thread target result first last hterminal hcall hle
    exact hcoherent.terminal_refuses hterminal hcall hle
  terminal_returns := by
    intro thread spurious hterminal hcall
    exact StateMachine.terminal_returns hterminal hcall spurious

/-- From a new machine, under any schedule of any threads. -/
theorem try_advance_linearizable
    (schedule : List (Action τ)) (final : StateMachine τ)
    (hrun : run step new schedule = some final) :
    final.values = EnclaveState.init.code ::
        (transitions step new schedule).map
          (fun transition => transition.after.currentState) ∧
      Linearizable final :=
  ⟨run_values hrun, (coherent_of_run hrun).linearizable⟩

end Linearizability

/-- A thread on its way to the operational state is overtaken by a fault, after
its exchange has failed once for no reason. -/
def overtakenSchedule : List (Action Bool) :=
  [.call false .bootstrapping, .step false false, .step false false,
    .call false .operational, .call true .terminal, .step false false,
    .step true false, .step false true, .step true false,
    .step false false]

theorem overtaken_call_is_refused :
    ∃ final : StateMachine Bool,
      run step new overtakenSchedule = some final ∧
      final.history[9]? = some (.returned false (.error ())) ∧
      final.values = [0, 0, 0, 1, 1, 1, 1, 1, 1, 4, 4] ∧
      Linearizable final :=
  ⟨_, rfl, rfl, rfl, (try_advance_linearizable overtakenSchedule _ rfl).2⟩

end StateMachine
end ShawnCore
