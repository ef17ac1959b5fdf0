import ShawnCore.ExclusiveFlag
import ShawnCore.InterruptSpinlock

/-!
# Guards and interrupts

A lock has at most one guard, in every run.  Interrupts stay off under a guard
as long as a context which holds several guards drops the one that saved the
enabled flag last: each guard restores the flag that it found, so dropping that
one earlier enables interrupts while other guards are alive.
-/

namespace ShawnCore
namespace Spinlock

open ExclusiveFlag

variable {κ ℓ : Type}

def Core.contexts (core : Core ℓ) : List (Context ℓ) :=
  core.running :: core.interrupted

/-- The locks of all guards on a core. -/
def Core.held (core : Core ℓ) : List ℓ :=
  (core.contexts.flatMap Context.guards).map Guard.lock

/-- The context spins on the lock. -/
def Context.WaitsFor (context : Context ℓ) (lock : ℓ) : Prop :=
  ∃ savedFlags, context.pc = .swap lock savedFlags ∨
    context.pc = .load lock savedFlags

structure OneGuardPerLock (system : System κ ℓ) : Prop where
  nodup : ∀ core, (system.cores core).held.Nodup
  unique : ∀ lock first second, lock ∈ (system.cores first).held →
    lock ∈ (system.cores second).held → first = second

structure KeepsInterruptsOff (system : System κ ℓ) : Prop where
  oneGuard : OneGuardPerLock system
  disabled : ∀ core, ∀ context ∈ (system.cores core).contexts,
    context.guards ≠ [] → (system.cores core).enabled = false
  no_deadlock : ∀ core handler below lock,
    handler :: below <:+ (system.cores core).contexts →
    handler.WaitsFor lock →
      ∀ context ∈ below, lock ∉ context.guards.map Guard.lock
  restored : ∀ core, (system.cores core).running.pc = .idle →
    (system.cores core).running.guards = [] →
      (system.cores core).enabled = (system.cores core).running.entry

/-! ## One guard per lock -/

section Exclusion

variable [DecidableEq ℓ]

/-- What a step does to the guards of its core and to the words of the
locks. -/
inductive GuardEffect
    (locked after : ℓ → Bool) (core next : Core ℓ) : Prop
  | kept (hlocked : after = locked) (hheld : next.held = core.held)
  | acquired (lock : ℓ) (hfree : locked lock = false)
      (hlocked : after = Function.update locked lock true)
      (hheld : next.held = lock :: core.held)
  | released (lock : ℓ)
      (hlocked : after = Function.update locked lock false)
      (hheld : (lock :: next.held).Perm core.held)

theorem CoreStep.guards
    {locked after : ℓ → Bool} {core next : Core ℓ} {action : CoreAction ℓ}
    (hstep : CoreStep locked core action after next) :
    GuardEffect locked after core next := by
  cases hstep with
  | called lock hidle => exact .kept rfl rfl
  | missed spurious lock savedFlags hpc => exact .kept rfl rfl
  | acquired spurious lock savedFlags hpc hfree =>
      exact .acquired lock hfree rfl rfl
  | spun spurious lock savedFlags hpc => exact .kept rfl rfl
  | retried spurious lock savedFlags hpc => exact .kept rfl rfl
  | restored spurious savedFlags hpc => exact .kept rfl rfl
  | dropped index guard hidle hguard =>
      refine .released guard.lock rfl ?_
      obtain ⟨hindex, hget⟩ := List.getElem?_eq_some_iff.mp hguard
      have hperm := List.getElem_cons_eraseIdx_perm hindex
      rw [hget] at hperm
      have hall := (hperm.append_right
        (core.interrupted.flatMap Context.guards)).map Guard.lock
      exact hall
  | interrupted henabled => exact .kept rfl rfl
  | handlerReturned context rest hinterrupted hidle hguards =>
      refine .kept rfl ?_
      simp [Core.held, Core.contexts, hinterrupted, hguards]

variable [DecidableEq κ]

/-- The word of a lock is set while a core has the guard. -/
structure Exclusive (system : System κ ℓ) : Prop where
  guards : ∀ lock, Guards (fun core : Core ℓ => lock ∈ core.held)
    (system.locked lock) system.cores
  nodup : ∀ core, (system.cores core).held.Nodup

theorem GuardEffect.exclusive
    {system : System κ ℓ} {locked : ℓ → Bool} {core : κ} {next : Core ℓ}
    (heffect : GuardEffect system.locked locked (system.cores core) next)
    (hexclusive : Exclusive system) :
    Exclusive ⟨locked, Function.update system.cores core next⟩ := by
  have hnodup : next.held.Nodup → ∀ other,
      (Function.update system.cores core next other).held.Nodup := by
    intro hnext
    rw [Function.forall_update_iff system.cores
      (fun _ state => state.held.Nodup)]
    exact ⟨hnext, fun other _ => hexclusive.nodup other⟩
  cases heffect with
  | kept hlocked hheld =>
      subst hlocked
      constructor
      · intro lock
        apply (hexclusive.guards lock).move
        rw [hheld]
      · apply hnodup
        rw [hheld]
        exact hexclusive.nodup core
  | acquired lock hfree hlocked hheld =>
      subst hlocked
      have hguards := hexclusive.guards lock
      rw [hfree] at hguards
      constructor
      · intro other
        dsimp only
        by_cases hother : other = lock
        · subst hother
          rw [Function.update_self]
          apply hguards.enter
          rw [hheld]
          exact List.mem_cons_self
        · rw [Function.update_of_ne hother]
          apply (hexclusive.guards other).move
          rw [hheld, List.mem_cons]
          simp [hother]
      · apply hnodup
        rw [hheld, List.nodup_cons]
        exact ⟨hguards.not_inside core, hexclusive.nodup core⟩
  | released lock hlocked hheld =>
      subst hlocked
      have hnext : (lock :: next.held).Nodup :=
        hheld.nodup_iff.mpr (hexclusive.nodup core)
      rw [List.nodup_cons] at hnext
      constructor
      · intro other
        dsimp only
        by_cases hother : other = lock
        · subst hother
          rw [Function.update_self]
          apply (hexclusive.guards other).leave
          · exact hheld.subset List.mem_cons_self
          · exact hnext.1
        · rw [Function.update_of_ne hother]
          apply (hexclusive.guards other).move
          rw [← hheld.mem_iff, List.mem_cons]
          simp [hother]
      · exact hnodup hnext.2

theorem Exclusive.step
    {system next : System κ ℓ} {action : Action κ ℓ}
    (hexclusive : Exclusive system)
    (hstep : step system action = some next) :
    Exclusive next := by
  obtain ⟨locked, core, hcore, rfl⟩ := step_eq_some hstep
  exact (stepCore_coreStep hcore).guards.exclusive hexclusive

omit [DecidableEq ℓ] [DecidableEq κ] in
theorem start_exclusive (enabled : κ → Bool) :
    Exclusive (System.start enabled : System κ ℓ) := by
  constructor
  · intro lock
    apply guards_of_outside
    intro core hheld
    cases hheld
  · intro core
    exact List.nodup_nil

omit [DecidableEq ℓ] [DecidableEq κ] in
theorem Exclusive.oneGuardPerLock
    {system : System κ ℓ} (hexclusive : Exclusive system) :
    OneGuardPerLock system := by
  constructor
  · exact hexclusive.nodup
  · intro lock first second hfirst hsecond
    exact (hexclusive.guards lock).unique first second hfirst hsecond

end Exclusion

/-! ## The flag of a core -/

def Pc.saved? : Pc ℓ → Option Bool
  | .idle => none
  | .swap _ savedFlags => some savedFlags
  | .load _ savedFlags => some savedFlags
  | .restore savedFlags => some savedFlags

/-- The flags which a context has saved and not restored. -/
def Context.saved (context : Context ℓ) : List Bool :=
  context.pc.saved?.toList ++ context.guards.map Guard.savedFlags

theorem Context.saved_eq_nil
    {context : Context ℓ} (hpc : context.pc = .idle)
    (hguards : context.guards = []) :
    context.saved = [] := by
  rw [Context.saved, hpc, hguards]
  rfl

theorem Context.guards_eq_nil
    {context : Context ℓ} (hsaved : context.saved = []) :
    context.guards = [] := by
  rw [Context.saved, List.append_eq_nil_iff, List.map_eq_nil_iff] at hsaved
  exact hsaved.2

/-- While a context has flags saved, interrupts are off and one of the flags is
the one it started with; the others are off.  An interrupted context has
none. -/
structure CoreOk (core : Core ℓ) : Prop where
  count : core.running.saved ≠ [] →
    core.running.saved.count true = core.running.entry.toNat
  disabled : core.running.saved ≠ [] → core.enabled = false
  restored : core.running.saved = [] → core.enabled = core.running.entry
  last : core.running.pc = .restore true → core.running.guards = []
  interrupted : ∀ context ∈ core.interrupted,
    context.saved = [] ∧ context.entry = true
  handler : core.interrupted ≠ [] → core.running.entry = true

/-- The guard that saved the enabled flag is dropped after all other guards of
its context. -/
def DropsLast (core : Core ℓ) : CoreAction ℓ → Prop
  | .drop index => ∀ guard, core.running.guards[index]? = some guard →
      guard.savedFlags = true → core.running.guards.length = 1
  | _ => True

namespace CoreOk

variable {core : Core ℓ}

theorem lock (hok : CoreOk core) (hidle : core.running.pc = .idle)
    (target : ℓ) :
    CoreOk (core.lock target) := by
  have hsaved : (core.lock target).running.saved =
      core.enabled :: core.running.guards.map Guard.savedFlags := rfl
  have hcons : (core.lock target).running.saved ≠ [] := by
    rw [hsaved]
    exact List.cons_ne_nil _ _
  have hbefore : core.running.saved =
      core.running.guards.map Guard.savedFlags := by
    rw [Context.saved, hidle]
    rfl
  have hentry : (core.lock target).running.entry = core.running.entry := by
    change (if core.running.guards = [] then core.enabled
      else core.running.entry) = _
    split
    next hnone => exact hok.restored (Context.saved_eq_nil hidle hnone)
    next => rfl
  constructor
  · intro _
    rw [hsaved, hentry, ← hbefore]
    by_cases hnone : core.running.saved = []
    · rw [hnone, hok.restored hnone]
      cases core.running.entry <;> rfl
    · rw [hok.disabled hnone, List.count_cons_of_ne Bool.false_ne_true]
      exact hok.count hnone
  · intro _
    rfl
  · intro hnone
    exact absurd hnone hcons
  · intro hpc
    cases hpc
  · exact hok.interrupted
  · intro hhandler
    rw [hentry]
    exact hok.handler hhandler

/-- A step which keeps the saved flags and the flag of the core. -/
theorem of_saved
    {next : Core ℓ} (hok : CoreOk core)
    (hsaved : next.running.saved = core.running.saved)
    (hentry : next.running.entry = core.running.entry)
    (henabled : next.enabled = core.enabled)
    (hinterrupted : next.interrupted = core.interrupted)
    (hlast : next.running.pc = .restore true → next.running.guards = []) :
    CoreOk next := by
  constructor
  · rw [hsaved, hentry]
    exact hok.count
  · rw [hsaved, henabled]
    exact hok.disabled
  · rw [hsaved, henabled, hentry]
    exact hok.restored
  · exact hlast
  · rw [hinterrupted]
    exact hok.interrupted
  · rw [hinterrupted, hentry]
    exact hok.handler

theorem restore
    {savedFlags : Bool} (hok : CoreOk core)
    (hpc : core.running.pc = .restore savedFlags) :
    CoreOk ((core.restore savedFlags).goto .idle) := by
  have hbefore : core.running.saved =
      savedFlags :: core.running.guards.map Guard.savedFlags := by
    rw [Context.saved, hpc]
    rfl
  have hcons : core.running.saved ≠ [] := by
    rw [hbefore]
    exact List.cons_ne_nil _ _
  have hcount := hok.count hcons
  rw [hbefore] at hcount
  have hafter : ((core.restore savedFlags).goto .idle).running.saved =
      core.running.guards.map Guard.savedFlags := rfl
  cases savedFlags with
  | false =>
      rw [List.count_cons_of_ne Bool.false_ne_true] at hcount
      constructor
      · intro _
        rw [hafter]
        exact hcount
      · intro _
        rfl
      · intro hnone
        rw [← hafter, hnone] at hcount
        change false = core.running.entry
        cases hentry : core.running.entry with
        | false => rfl
        | true =>
            rw [hentry] at hcount
            cases hcount
      · intro hrestore
        cases hrestore
      · exact hok.interrupted
      · exact hok.handler
  | true =>
      -- The enabled flag comes back with the last guard.
      have hlast := hok.last hpc
      rw [hlast] at hcount hafter
      have hentry : core.running.entry = true := by
        cases hentry : core.running.entry with
        | true => rfl
        | false =>
            rw [hentry] at hcount
            cases hcount
      constructor
      · intro hsome
        exact absurd hafter hsome
      · intro hsome
        exact absurd hafter hsome
      · intro _
        exact hentry.symm
      · intro hrestore
        cases hrestore
      · exact hok.interrupted
      · exact hok.handler

theorem drop
    {index : ℕ} {guard : Guard ℓ} (hok : CoreOk core)
    (hidle : core.running.pc = .idle)
    (hguard : core.running.guards[index]? = some guard)
    (hlast : guard.savedFlags = true → core.running.guards.length = 1) :
    CoreOk (core.release index guard.savedFlags) := by
  obtain ⟨hindex, hget⟩ := List.getElem?_eq_some_iff.mp hguard
  have hperm := List.getElem_cons_eraseIdx_perm hindex
  rw [hget] at hperm
  have hsaved : (core.release index guard.savedFlags).running.saved.Perm
      core.running.saved := by
    have hmap := hperm.map Guard.savedFlags
    rw [Context.saved, Context.saved, hidle]
    exact hmap
  have hnil : (core.release index guard.savedFlags).running.saved ≠ [] :=
    List.cons_ne_nil _ _
  have hbefore : core.running.saved ≠ [] := by
    intro hnone
    rw [hnone] at hsaved
    exact hnil hsaved.eq_nil
  constructor
  · intro _
    rw [hsaved.count_eq]
    exact hok.count hbefore
  · intro _
    exact hok.disabled hbefore
  · intro hnone
    exact absurd hnone hnil
  · intro hpc
    have hsingle := hlast (Pc.restore.inj hpc)
    have hlength := hperm.length_eq
    rw [hsingle, List.length_cons] at hlength
    exact List.length_eq_zero_iff.mp (Nat.succ.inj hlength)
  · exact hok.interrupted
  · exact hok.handler

theorem interrupt (hok : CoreOk core) (henabled : core.enabled = true) :
    CoreOk core.interrupt := by
  have hnone : core.running.saved = [] := by
    by_contra hsome
    rw [hok.disabled hsome] at henabled
    cases henabled
  constructor
  · intro hsome
    exact absurd rfl hsome
  · intro hsome
    exact absurd rfl hsome
  · intro _
    rfl
  · intro hpc
    cases hpc
  · intro context hcontext
    rcases List.mem_cons.mp hcontext with rfl | hearlier
    · exact ⟨hnone, (hok.restored hnone).symm.trans henabled⟩
    · exact hok.interrupted context hearlier
  · intro _
    exact henabled

theorem handlerReturn
    {context : Context ℓ} {rest : List (Context ℓ)} (hok : CoreOk core)
    (hinterrupted : core.interrupted = context :: rest)
    (hidle : core.running.pc = .idle) (hguards : core.running.guards = []) :
    CoreOk { core with running := context, interrupted := rest } := by
  have hall := hok.interrupted
  rw [hinterrupted, List.forall_mem_cons] at hall
  obtain ⟨⟨hnone, hentry⟩, hrest⟩ := hall
  have henabled := hok.restored (Context.saved_eq_nil hidle hguards)
  rw [hok.handler (by rw [hinterrupted]; exact List.cons_ne_nil _ _)]
    at henabled
  constructor
  · intro hsome
    exact absurd hnone hsome
  · intro hsome
    exact absurd hnone hsome
  · intro _
    exact henabled.trans hentry.symm
  · intro _
    exact Context.guards_eq_nil hnone
  · exact hrest
  · intro _
    exact hentry

end CoreOk

section Runs

variable [DecidableEq ℓ]

theorem CoreStep.coreOk
    {locked after : ℓ → Bool} {core next : Core ℓ} {action : CoreAction ℓ}
    (hok : CoreOk core) (hlast : DropsLast core action)
    (hstep : CoreStep locked core action after next) :
    CoreOk next := by
  have hgoto : ∀ pc : Pc ℓ, pc.saved? = core.running.pc.saved? →
      pc ≠ .restore true → CoreOk (core.goto pc) := by
    intro pc hsaved hrestore
    refine hok.of_saved ?_ rfl rfl rfl ?_
    · change pc.saved?.toList ++ _ = _
      rw [hsaved]
      rfl
    · intro hpc
      exact absurd hpc hrestore
  cases hstep with
  | called lock hidle => exact hok.lock hidle lock
  | missed spurious lock savedFlags hpc =>
      exact hgoto _ (by rw [hpc]; rfl) (by simp)
  | acquired spurious lock savedFlags hpc hfree =>
      refine hok.of_saved ?_ rfl rfl rfl ?_
      · rw [Context.saved, Context.saved, hpc]
        rfl
      · intro hrestore
        cases hrestore
  | spun spurious lock savedFlags hpc => exact hok
  | retried spurious lock savedFlags hpc =>
      exact hgoto _ (by rw [hpc]; rfl) (by simp)
  | restored spurious savedFlags hpc => exact hok.restore hpc
  | dropped index guard hidle hguard =>
      exact hok.drop hidle hguard (hlast guard hguard)
  | interrupted henabled => exact hok.interrupt henabled
  | handlerReturned context rest hinterrupted hidle hguards =>
      exact hok.handlerReturn hinterrupted hidle hguards

variable [DecidableEq κ]

omit [DecidableEq ℓ] [DecidableEq κ] in
/-- The condition on a step, in the state before it. -/
def OutermostLast (system : System κ ℓ) (action : Action κ ℓ) : Prop :=
  DropsLast (system.cores action.core) action.action

structure SpinlockInvariant (system : System κ ℓ) : Prop where
  exclusive : Exclusive system
  cores : ∀ core, CoreOk (system.cores core)

theorem SpinlockInvariant.step
    {system next : System κ ℓ} {action : Action κ ℓ}
    (hinv : SpinlockInvariant system) (hlast : OutermostLast system action)
    (hstep : step system action = some next) :
    SpinlockInvariant next := by
  refine ⟨hinv.exclusive.step hstep, ?_⟩
  obtain ⟨locked, core, hcore, rfl⟩ := step_eq_some hstep
  dsimp only
  rw [Function.forall_update_iff system.cores (fun _ state => CoreOk state)]
  constructor
  · exact (stepCore_coreStep hcore).coreOk (hinv.cores action.core) hlast
  · intro other _
    exact hinv.cores other

omit [DecidableEq ℓ] [DecidableEq κ] in
theorem start_invariant (enabled : κ → Bool) :
    SpinlockInvariant (System.start enabled : System κ ℓ) := by
  refine ⟨start_exclusive enabled, ?_⟩
  intro core
  constructor
  · intro hsome
    exact absurd rfl hsome
  · intro hsome
    exact absurd rfl hsome
  · intro _
    rfl
  · intro _
    rfl
  · intro context hcontext
    cases hcontext
  · intro hhandler
    exact absurd rfl hhandler

omit [DecidableEq ℓ] [DecidableEq κ] in
theorem SpinlockInvariant.keepsInterruptsOff
    {system : System κ ℓ} (hinv : SpinlockInvariant system) :
    KeepsInterruptsOff system := by
  constructor
  · exact hinv.exclusive.oneGuardPerLock
  · intro core context hcontext hguards
    rcases List.mem_cons.mp hcontext with rfl | hinterrupted
    · apply (hinv.cores core).disabled
      intro hnone
      exact hguards (Context.guards_eq_nil hnone)
    · have hnone := ((hinv.cores core).interrupted context hinterrupted).1
      exact absurd (Context.guards_eq_nil hnone) hguards
  · intro core handler below lock hbelow _ context hcontext
    have hinterrupted : context ∈ (system.cores core).interrupted := by
      have htail : below <:+ (system.cores core).interrupted := by
        rw [Core.contexts, List.suffix_cons_iff] at hbelow
        rcases hbelow with hall | hlater
        · cases hall
          exact List.suffix_rfl
        · exact (List.suffix_cons handler below).trans hlater
      exact htail.subset hcontext
    have hnone := ((hinv.cores core).interrupted context hinterrupted).1
    rw [Context.guards_eq_nil hnone]
    exact List.not_mem_nil
  · intro core hidle hguards
    exact (hinv.cores core).restored (Context.saved_eq_nil hidle hguards)

omit [DecidableEq ℓ] [DecidableEq κ] in
/-- A core with interrupts on and a guard. -/
theorem not_keepsInterruptsOff
    {system : System κ ℓ} {core : κ}
    (henabled : (system.cores core).enabled = true)
    (hguards : (system.cores core).running.guards ≠ []) :
    ¬ KeepsInterruptsOff system := by
  intro hsafe
  have hdisabled := hsafe.disabled core _ List.mem_cons_self hguards
  rw [henabled] at hdisabled
  cases hdisabled

/-- A drop out of order enables interrupts under the other guards. -/
theorem drop_enables
    {system dropped : System κ ℓ} {core : κ} {index : ℕ}
    (hlast : ¬ OutermostLast system ⟨core, .drop index⟩)
    (hstep : step system ⟨core, .drop index⟩ = some dropped) :
    ∃ restored, step dropped ⟨core, .step false⟩ = some restored ∧
      ¬ KeepsInterruptsOff restored := by
  obtain ⟨locked, next, hcore, rfl⟩ := step_eq_some hstep
  simp only [OutermostLast, DropsLast, not_forall] at hlast
  obtain ⟨guard, hguard, hsaved, hlength⟩ := hlast
  simp only [stepCore, hguard, hsaved] at hcore
  split at hcore
  next =>
    cases hcore
    refine ⟨_, by simp [step, stepCore, stepContext, Core.release]; rfl, ?_⟩
    apply @not_keepsInterruptsOff _ _ _ core
    · simp [Core.goto, Core.restore]
    · obtain ⟨hindex, -⟩ := List.getElem?_eq_some_iff.mp hguard
      have hcount := List.length_eraseIdx_of_lt hindex
      simp only [Function.update_self, Core.goto, Core.restore]
      intro hnone
      rw [hnone] at hcount
      simp only [List.length_nil] at hcount
      omega
  next => cases hcore

/-- In every run a lock has one guard at most.  In every run whose drops meet
the condition, interrupts stay off under guards and the flag comes back.  A
first drop which does not meet it enables interrupts while another guard is
alive. -/
theorem guards_keep_interrupts_off (enabled : κ → Bool) :
    (∀ schedule (final : System κ ℓ),
      Execution.run step (System.start enabled) schedule = some final →
        OneGuardPerLock final) ∧
    ∀ schedule (final : System κ ℓ),
      Execution.RunWithin step OutermostLast (System.start enabled) schedule →
      Execution.run step (System.start enabled) schedule = some final →
        KeepsInterruptsOff final ∧
        ∀ core index dropped,
          step final ⟨core, .drop index⟩ = some dropped →
          ¬ OutermostLast final ⟨core, .drop index⟩ →
            ∃ restored, step dropped ⟨core, .step false⟩ = some restored ∧
              ¬ KeepsInterruptsOff restored := by
  constructor
  · intro schedule final hrun
    have hexclusive : Exclusive final :=
      Execution.run_invariant (fun _ _ _ hgood hstep => hgood.step hstep)
        (start_exclusive enabled) hrun
    exact hexclusive.oneGuardPerLock
  · intro schedule final hwithin hrun
    have hinv : SpinlockInvariant final :=
      Execution.run_invariant_within
        (fun _ _ _ hgood hlast hstep => hgood.step hlast hstep)
        (start_invariant enabled) hwithin hrun
    refine ⟨hinv.keepsInterruptsOff, ?_⟩
    intro core index dropped hstep hlast
    exact drop_enables hlast hstep

end Runs

/-! ### Two locks on two cores -/

instance decidableDropsLast (core : Core ℓ) :
    ∀ action, Decidable (DropsLast core action)
  | .drop index =>
      inferInstanceAs (Decidable (∀ guard ∈ core.running.guards[index]?,
        guard.savedFlags = true → core.running.guards.length = 1))
  | .lock _ => isTrue trivial
  | .step _ => isTrue trivial
  | .interrupt => isTrue trivial
  | .handlerReturn => isTrue trivial

instance decidableOutermostLast (system : System κ ℓ) :
    ∀ action, Decidable (OutermostLast system action) :=
  fun action => decidableDropsLast (system.cores action.core) action.action

/-- Core 0 takes both locks and drops the later guard, core 1 waits for the
lock which is still held, and core 0 drops the other guard and is
interrupted. -/
def nested : List (Action (Fin 2) Bool) :=
  [⟨0, .lock false⟩, ⟨0, .step false⟩, ⟨0, .lock true⟩, ⟨0, .step true⟩,
    ⟨0, .step false⟩, ⟨0, .step false⟩, ⟨0, .drop 0⟩, ⟨0, .step false⟩,
    ⟨1, .lock false⟩, ⟨1, .step false⟩, ⟨0, .drop 0⟩, ⟨0, .step false⟩,
    ⟨0, .interrupt⟩, ⟨0, .lock true⟩, ⟨0, .step false⟩]

theorem nested_guards_keep_interrupts_off :
    Execution.RunWithin step OutermostLast (System.start fun _ => true)
        nested ∧
      ∃ final, Execution.run step (System.start fun _ => true) nested =
          some final ∧
        KeepsInterruptsOff final := by
  have hwithin : Execution.RunWithin step OutermostLast
      (System.start fun _ => true) nested := by
    decide
  refine ⟨hwithin, _, rfl, ?_⟩
  exact ((guards_keep_interrupts_off fun _ => true).2 nested _ hwithin rfl).1

/-- A context takes both locks and drops the earlier guard first. -/
def outOfOrder : List (Action Unit Bool) :=
  [⟨(), .lock false⟩, ⟨(), .step false⟩, ⟨(), .lock true⟩,
    ⟨(), .step false⟩, ⟨(), .drop 1⟩, ⟨(), .step false⟩]

/-- A handler then spins on the lock which the interrupted context holds; and
when the other guard is dropped as well, interrupts stay off for good. -/
theorem dropped_out_of_order :
    (∃ final, Execution.run step (System.start fun _ => true)
        (outOfOrder ++
          [⟨(), .interrupt⟩, ⟨(), .lock true⟩, ⟨(), .step false⟩]) =
          some final ∧
      (final.cores ()).running.WaitsFor true ∧
      (∃ context ∈ (final.cores ()).interrupted,
        true ∈ context.guards.map Guard.lock) ∧
      ¬ KeepsInterruptsOff final) ∧
    ∃ final, Execution.run step (System.start fun _ => true)
        (outOfOrder ++ [⟨(), .drop 0⟩, ⟨(), .step false⟩]) = some final ∧
      (final.cores ()).running.pc = .idle ∧
      (final.cores ()).running.guards = [] ∧
      (final.cores ()).enabled = false ∧
      (final.cores ()).running.entry = true ∧
      ¬ KeepsInterruptsOff final := by
  constructor
  · refine ⟨_, rfl, ⟨true, Or.inr rfl⟩,
      ⟨_, List.mem_cons_self, List.mem_cons_self⟩, ?_⟩
    intro hsafe
    exact hsafe.no_deadlock () _ _ true List.suffix_rfl ⟨true, Or.inr rfl⟩ _
      List.mem_cons_self List.mem_cons_self
  · refine ⟨_, rfl, rfl, rfl, rfl, rfl, ?_⟩
    intro hsafe
    have hrestored := hsafe.restored () rfl rfl
    cases hrestored

end Spinlock
end ShawnCore
