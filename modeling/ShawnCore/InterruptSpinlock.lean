import ShawnCore.Execution

/-!
# Interrupt-safe spinlocks

`interrupt_spinlock.rs` on any number of cores.  A core has one
interrupt-enable flag and a stack of contexts: the running one, and those which
were interrupted.  A handler starts on a core whose flag is set and runs until
it returns.  One step of a context is one access to the flag of its core or to
the `locked` word of a lock; weak compare-exchanges may fail spuriously.
-/

namespace ShawnCore
namespace Spinlock

variable {κ ℓ : Type}

/-- `SpinlockGuard`. -/
structure Guard (ℓ : Type) where
  lock : ℓ
  savedFlags : Bool
deriving DecidableEq

/-- What a context does next: nothing of a lock, the compare-exchange of `lock`,
the load of its inner loop, or the `restore` at the end of `drop`. -/
inductive Pc (ℓ : Type)
  | idle
  | swap (lock : ℓ) (savedFlags : Bool)
  | load (lock : ℓ) (savedFlags : Bool)
  | restore (savedFlags : Bool)
deriving DecidableEq

/-- A context with the guards it has acquired and not dropped, the latest first.
`entry` is ghost state: the flag of the core before the first of them. -/
structure Context (ℓ : Type) where
  pc : Pc ℓ
  guards : List (Guard ℓ)
  entry : Bool
deriving DecidableEq

structure Core (ℓ : Type) where
  enabled : Bool
  running : Context ℓ
  interrupted : List (Context ℓ)
deriving DecidableEq

structure System (κ ℓ : Type) where
  locked : ℓ → Bool
  cores : κ → Core ℓ

inductive CoreAction (ℓ : Type)
  | lock (lock : ℓ)
  | step (spurious : Bool)
  | drop (index : ℕ)
  | interrupt
  | handlerReturn

structure Action (κ ℓ : Type) where
  core : κ
  action : CoreAction ℓ

namespace Core

/-- `C::disable_and_save`. -/
def disableAndSave (core : Core ℓ) : Bool × Core ℓ :=
  (core.enabled, { core with enabled := false })

/-- `C::restore`. -/
def restore (core : Core ℓ) (flags : Bool) : Core ℓ :=
  { core with enabled := flags }

def goto (core : Core ℓ) (pc : Pc ℓ) : Core ℓ :=
  { core with running := { core.running with pc := pc } }

/-- Note the flag before the first guard. -/
def markEntry (core : Core ℓ) (flags : Bool) : Core ℓ :=
  { core with
    running := { core.running with
      entry := if core.running.guards = [] then flags
        else core.running.entry } }

/-- `InterruptSafeSpinlock::lock` up to its first compare-exchange. -/
def lock (core : Core ℓ) (lock : ℓ) : Core ℓ :=
  let saved := core.disableAndSave
  (saved.2.markEntry saved.1).goto (.swap lock saved.1)

/-- The guard which `lock` returns. -/
def acquire (core : Core ℓ) (guard : Guard ℓ) : Core ℓ :=
  { core with
    running := { core.running with
      pc := .idle
      guards := guard :: core.running.guards } }

/-- `SpinlockGuard::drop` after its store. -/
def release (core : Core ℓ) (index : ℕ) (savedFlags : Bool) : Core ℓ :=
  { core with
    running := { core.running with
      pc := .restore savedFlags
      guards := core.running.guards.eraseIdx index } }

/-- A handler takes over. -/
def interrupt (core : Core ℓ) : Core ℓ :=
  { core with
    running := ⟨.idle, [], core.enabled⟩
    interrupted := core.running :: core.interrupted }

end Core

variable [DecidableEq ℓ]

/-- One step of the running context of a core, with the words of the locks. -/
def stepContext (locked : ℓ → Bool) (core : Core ℓ) (spurious : Bool) :
    Pc ℓ → Option ((ℓ → Bool) × Core ℓ)
  | .idle => none
  | .swap lock savedFlags =>
      if spurious ∨ locked lock = true then
        some (locked, core.goto (.load lock savedFlags))
      else
        some (Function.update locked lock true,
          core.acquire ⟨lock, savedFlags⟩)
  | .load lock savedFlags =>
      if locked lock = true then
        some (locked, core)
      else
        some (locked, core.goto (.swap lock savedFlags))
  | .restore savedFlags =>
      some (locked, (core.restore savedFlags).goto .idle)

/-- A context drops its guards in any order.  A handler returns when it has
dropped all of its own. -/
def stepCore (locked : ℓ → Bool) (core : Core ℓ) :
    CoreAction ℓ → Option ((ℓ → Bool) × Core ℓ)
  | .lock lock =>
      if core.running.pc = .idle then
        some (locked, core.lock lock)
      else
        none
  | .step spurious => stepContext locked core spurious core.running.pc
  | .drop index =>
      if core.running.pc = .idle then
        match core.running.guards[index]? with
        | none => none
        | some guard =>
            some (Function.update locked guard.lock false,
              core.release index guard.savedFlags)
      else
        none
  | .interrupt =>
      if core.enabled = true then
        some (locked, core.interrupt)
      else
        none
  | .handlerReturn =>
      match core.interrupted with
      | [] => none
      | context :: rest =>
          if core.running.pc = .idle ∧ core.running.guards = [] then
            some (locked,
              { core with running := context, interrupted := rest })
          else
            none

/-- Every step of a core. -/
inductive CoreStep (locked : ℓ → Bool) (core : Core ℓ) :
    CoreAction ℓ → (ℓ → Bool) → Core ℓ → Prop
  | called (lock : ℓ) (hidle : core.running.pc = .idle) :
      CoreStep locked core (.lock lock) locked (core.lock lock)
  | missed (spurious : Bool) (lock : ℓ) (savedFlags : Bool)
      (hpc : core.running.pc = .swap lock savedFlags) :
      CoreStep locked core (.step spurious) locked
        (core.goto (.load lock savedFlags))
  | acquired (spurious : Bool) (lock : ℓ) (savedFlags : Bool)
      (hpc : core.running.pc = .swap lock savedFlags)
      (hfree : locked lock = false) :
      CoreStep locked core (.step spurious)
        (Function.update locked lock true) (core.acquire ⟨lock, savedFlags⟩)
  | spun (spurious : Bool) (lock : ℓ) (savedFlags : Bool)
      (hpc : core.running.pc = .load lock savedFlags) :
      CoreStep locked core (.step spurious) locked core
  | retried (spurious : Bool) (lock : ℓ) (savedFlags : Bool)
      (hpc : core.running.pc = .load lock savedFlags) :
      CoreStep locked core (.step spurious) locked
        (core.goto (.swap lock savedFlags))
  | restored (spurious savedFlags : Bool)
      (hpc : core.running.pc = .restore savedFlags) :
      CoreStep locked core (.step spurious) locked
        ((core.restore savedFlags).goto .idle)
  | dropped (index : ℕ) (guard : Guard ℓ) (hidle : core.running.pc = .idle)
      (hguard : core.running.guards[index]? = some guard) :
      CoreStep locked core (.drop index)
        (Function.update locked guard.lock false)
        (core.release index guard.savedFlags)
  | interrupted (henabled : core.enabled = true) :
      CoreStep locked core .interrupt locked core.interrupt
  | handlerReturned (context : Context ℓ) (rest : List (Context ℓ))
      (hinterrupted : core.interrupted = context :: rest)
      (hidle : core.running.pc = .idle) (hguards : core.running.guards = []) :
      CoreStep locked core .handlerReturn locked
        { core with running := context, interrupted := rest }

theorem stepContext_coreStep
    {locked after : ℓ → Bool} {core next : Core ℓ} {spurious : Bool}
    (hstep : stepContext locked core spurious core.running.pc =
      some (after, next)) :
    CoreStep locked core (.step spurious) after next := by
  cases hpc : core.running.pc with
  | idle =>
      rw [hpc] at hstep
      cases hstep
  | swap lock savedFlags =>
      rw [hpc, stepContext] at hstep
      split_ifs at hstep with hmissed
      · cases hstep
        exact .missed spurious lock savedFlags hpc
      · cases hstep
        rw [not_or, Bool.not_eq_true] at hmissed
        exact .acquired spurious lock savedFlags hpc
          (Bool.eq_false_of_not_eq_true hmissed.2)
  | load lock savedFlags =>
      rw [hpc, stepContext] at hstep
      split_ifs at hstep with hlocked
      · cases hstep
        exact .spun spurious lock savedFlags hpc
      · cases hstep
        exact .retried spurious lock savedFlags hpc
  | restore savedFlags =>
      rw [hpc] at hstep
      cases hstep
      exact .restored spurious savedFlags hpc

theorem stepCore_coreStep
    {locked after : ℓ → Bool} {core next : Core ℓ} {action : CoreAction ℓ}
    (hstep : stepCore locked core action = some (after, next)) :
    CoreStep locked core action after next := by
  cases action with
  | lock lock =>
      rw [stepCore] at hstep
      split_ifs at hstep with hidle
      cases hstep
      exact .called lock hidle
  | step spurious => exact stepContext_coreStep hstep
  | drop index =>
      rw [stepCore] at hstep
      split_ifs at hstep with hidle
      cases hguard : core.running.guards[index]? with
      | none =>
          rw [hguard] at hstep
          cases hstep
      | some guard =>
          rw [hguard] at hstep
          cases hstep
          exact .dropped index guard hidle hguard
  | interrupt =>
      rw [stepCore] at hstep
      split_ifs at hstep with henabled
      cases hstep
      exact .interrupted henabled
  | handlerReturn =>
      rw [stepCore] at hstep
      cases hinterrupted : core.interrupted with
      | nil =>
          rw [hinterrupted] at hstep
          cases hstep
      | cons context rest =>
          simp only [hinterrupted] at hstep
          split_ifs at hstep with hdone
          cases hstep
          exact .handlerReturned context rest hinterrupted hdone.1 hdone.2

variable [DecidableEq κ]

def step (system : System κ ℓ) (action : Action κ ℓ) :
    Option (System κ ℓ) :=
  match stepCore system.locked (system.cores action.core) action.action with
  | none => none
  | some (locked, core) =>
      some ⟨locked, Function.update system.cores action.core core⟩

/-- No lock is taken, and the flags are as they may be. -/
def System.start (enabled : κ → Bool) : System κ ℓ where
  locked _ := false
  cores core := ⟨enabled core, ⟨.idle, [], enabled core⟩, []⟩

theorem step_eq_some
    {system next : System κ ℓ} {action : Action κ ℓ}
    (hstep : step system action = some next) :
    ∃ locked core,
      stepCore system.locked (system.cores action.core) action.action =
        some (locked, core) ∧
      next = ⟨locked, Function.update system.cores action.core core⟩ := by
  simp only [step] at hstep
  split at hstep
  next => cases hstep
  next locked core hcore =>
    cases hstep
    exact ⟨locked, core, hcore, rfl⟩

end Spinlock
end ShawnCore
