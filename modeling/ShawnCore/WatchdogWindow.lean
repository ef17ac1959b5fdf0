import ShawnCore.BitmapScheduler

/-!
# The watchdog stops when a critical task hangs

A bit of the watchdog matrix is set by a check-in of a registered task and by
nothing else, and a pet clears all of them.  So every bit stands for a check-in
in the current window, whatever happened to the mask meanwhile, and a pet needs
one for every critical task.
-/

namespace ShawnCore.Rtos

/-- The task checked in while it was registered, and the watchdog has not been
petted since. -/
def CheckedIn (past : List SchedulerEvent) (task : Fin 16) : Prop :=
  ∃ earlier checkIn later,
    past = earlier ++ checkIn :: later ∧
    checkIn.call = .taskCheckIn (UInt8.ofNat task.val) ∧
    checkIn.before.Registered task ∧
    ∀ event ∈ later, event.reply.pets = 0

theorem CheckedIn.append
    {past : List SchedulerEvent} {task : Fin 16} {event : SchedulerEvent}
    (hchecked : CheckedIn past task) (hpets : event.reply.pets = 0) :
    CheckedIn (past ++ [event]) task := by
  obtain ⟨earlier, checkIn, later, hpast, hcall, hregistered, hquiet⟩ :=
    hchecked
  refine ⟨earlier, checkIn, later ++ [event], ?_, hcall, hregistered, ?_⟩
  · rw [hpast, List.append_assoc, List.cons_append]
  · intro other hother
    rw [List.mem_append, List.mem_singleton] at hother
    rcases hother with hlater | rfl
    · exact hquiet other hlater
    · exact hpets

namespace PerCoreScheduler

/-! ## One call -/

/-- A critical task was critical before or is registered. -/
theorem exec_criticalTaskMask
    (scheduler : PerCoreScheduler) (call : SchedulerCall)
    (hcurrent : scheduler.currentTask < 16) {task : Fin 16}
    (hcritical :
      (scheduler.exec call).1.criticalTaskMask.getLsbD task.val = true) :
    scheduler.criticalTaskMask.getLsbD task.val = true ∨
      scheduler.Registered task := by
  have houtcome := scheduler.exec_outcome call hcurrent
  generalize scheduler.exec call = result at houtcome hcritical
  cases houtcome with
  | rejected | created | readySet | readyCleared | ignored | checkedIn =>
      exact Or.inl hcritical
  | masked criticalTaskMask =>
      simp only [setCriticalTaskMask, BitVec.getLsbD_and, Bool.and_eq_true]
        at hcritical
      exact Or.inr ((scheduler.getLsbD_registeredMask task).1 hcritical.2)
  | ticked currentRsp memory petCallback after tick houtcome =>
      cases houtcome with
      | currentFault | selectedFault | stuck | petted | switched =>
          exact Or.inl hcritical

/-- A bit of the matrix comes from a check-in or survived a call without a
pet. -/
theorem exec_watchdogMatrix
    (scheduler : PerCoreScheduler) (call : SchedulerCall)
    (hcurrent : scheduler.currentTask < 16) {task : Fin 16}
    (hbit :
      (scheduler.exec call).1.watchdogMatrix.getLsbD task.val = true) :
    (scheduler.watchdogMatrix.getLsbD task.val = true ∧
        (scheduler.exec call).2.pets = 0) ∨
      (call = .taskCheckIn (UInt8.ofNat task.val) ∧
        scheduler.Registered task) := by
  have houtcome := scheduler.exec_outcome call hcurrent
  generalize scheduler.exec call = result at houtcome hbit ⊢
  cases houtcome with
  | rejected | created | readySet | readyCleared | ignored =>
      exact Or.inl ⟨hbit, rfl⟩
  | checkedIn checked hregistered =>
      rw [Bitmap.getLsbD_set] at hbit
      rcases hbit with hold | ⟨_, hsame⟩
      · exact Or.inl ⟨hold, rfl⟩
      · rw [← Fin.ext hsame]
        exact Or.inr ⟨rfl, hregistered⟩
  | masked criticalTaskMask =>
      simp only [setCriticalTaskMask, BitVec.getLsbD_and, Bool.and_eq_true]
        at hbit
      exact Or.inl ⟨hbit.1, rfl⟩
  | ticked currentRsp memory petCallback after tick houtcome =>
      cases houtcome with
      | currentFault | selectedFault | stuck | switched =>
          exact Or.inl ⟨hbit, rfl⟩
      | petted => simp at hbit

/-! ## Whole histories -/

/-- What the watchdog state of a scheduler says about its past. -/
structure WatchdogInvariant
    (past : List SchedulerEvent) (scheduler : PerCoreScheduler) : Prop where
  current_lt : scheduler.currentTask < 16
  critical_registered :
    ∀ task : Fin 16, scheduler.criticalTaskMask.getLsbD task.val = true →
      scheduler.Registered task
  checkedIn :
    ∀ task : Fin 16, scheduler.watchdogMatrix.getLsbD task.val = true →
      CheckedIn past task

theorem new_watchdogInvariant : WatchdogInvariant [] new := by
  constructor
  · decide
  · intro task hcritical
    simp [new] at hcritical
  · intro task hbit
    simp [new] at hbit

theorem perform_watchdogInvariant
    {past : List SchedulerEvent} {scheduler : PerCoreScheduler}
    (hgood : WatchdogInvariant past scheduler) (call : SchedulerCall) :
    WatchdogInvariant (past ++ [(scheduler.perform call).2])
      (scheduler.perform call).1 := by
  constructor
  · exact scheduler.exec_currentTask_lt call hgood.current_lt
  · intro task hcritical
    have hregistered : scheduler.Registered task := by
      rcases scheduler.exec_criticalTaskMask call hgood.current_lt hcritical
        with hold | hregistered
      · exact hgood.critical_registered task hold
      · exact hregistered
    exact scheduler.exec_registered call hgood.current_lt hregistered
  · intro task hbit
    rcases scheduler.exec_watchdogMatrix call hgood.current_lt hbit
      with ⟨hold, hpets⟩ | ⟨hcall, hregistered⟩
    · exact (hgood.checkedIn task hold).append hpets
    · exact ⟨past, (scheduler.perform call).2, [], rfl, hcall, hregistered,
        fun event hmem => absurd hmem List.not_mem_nil⟩

/-- The tick finds the current or the selected task damaged, or selects a
ready task which is not registered. -/
def ReportsFault
    (scheduler : PerCoreScheduler) (currentRsp : UInt64)
    (memory : StackMemory) : Prop :=
  scheduler.CurrentFault currentRsp memory ∨
    (scheduler.saveRsp currentRsp).SelectedFault memory

/-- A pet needs a check-in of every critical task in the current window, there
is one at most in a tick, and a fault neither pets nor touches the window. -/
theorem pets_only_after_check_ins
    {calls : List SchedulerCall} {past later : List SchedulerEvent}
    {event : SchedulerEvent} {currentRsp : UInt64} {memory : StackMemory}
    {petCallback : Bool}
    (hsplit : history calls = past ++ event :: later)
    (hcall : event.call = .scheduleTick currentRsp memory petCallback) :
    event.reply.pets ≤ 1 ∧
    (event.reply.pets ≠ 0 →
      event.before.criticalTaskMask ≠ 0#16 ∧
      ∀ task : Fin 16,
        event.before.criticalTaskMask.getLsbD task.val = true →
          event.before.Registered task ∧ CheckedIn past task) ∧
    (event.before.ReportsFault currentRsp memory →
      event.reply = .ticked Tick.fault ∧
      event.after.currentTask = event.before.currentTask ∧
      event.after.watchdogMatrix = event.before.watchdogMatrix ∧
      event.after.criticalTaskMask = event.before.criticalTaskMask) := by
  obtain ⟨hgood, hevent⟩ := history_split new_watchdogInvariant
    (fun _ _ call hgood => perform_watchdogInvariant hgood call) hsplit
  have houtcome := event.before.exec_outcome event.call hgood.current_lt
  obtain ⟨scheduler, call, reply, after⟩ := event
  simp only [perform, SchedulerEvent.mk.injEq, true_and] at hevent
  obtain ⟨hreply, hafter⟩ := hevent
  simp only at hcall hgood houtcome ⊢
  subst hcall hreply hafter
  generalize scheduler.exec _ = result at houtcome ⊢
  cases houtcome with
  | ticked _ _ _ after tick houtcome =>
      cases houtcome with
      | currentFault hcurrent =>
          refine ⟨Nat.zero_le 1, fun h => absurd rfl h, ?_⟩
          exact fun _ => ⟨rfl, rfl, rfl, rfl⟩
      | selectedFault hcurrent hselected =>
          refine ⟨Nat.zero_le 1, fun h => absurd rfl h, ?_⟩
          exact fun _ => ⟨rfl, rfl, rfl, rfl⟩
      | petted hcurrent hselected hdue =>
          refine ⟨le_rfl, fun _ => ⟨hdue.1, ?_⟩, ?_⟩
          · intro task hcritical
            have hbit := (Bitmap.and_eq_right_iff _ _).1 hdue.2 task.val
              hcritical
            exact ⟨hgood.critical_registered task hcritical,
              hgood.checkedIn task hbit⟩
          · exact fun hfault => absurd hfault
              (not_or.2 ⟨hcurrent, hselected⟩)
      | stuck hcurrent hselected =>
          refine ⟨Nat.zero_le 1, fun h => absurd rfl h, ?_⟩
          exact fun hfault => absurd hfault
            (not_or.2 ⟨hcurrent, hselected⟩)
      | switched hcurrent hselected =>
          refine ⟨Nat.zero_le 1, fun h => absurd rfl h, ?_⟩
          exact fun hfault => absurd hfault
            (not_or.2 ⟨hcurrent, hselected⟩)

/-- One critical task at priority two, which checks in before the tick. -/
def watchdogCalls : List SchedulerCall :=
  [.createTask (Tcb.newTask 1 64 64 96 2) 7 fun _ => 0,
    .setCriticalTaskMask 4#16, .taskCheckIn 2,
    .scheduleTick 0 (fun _ => 7) true]

theorem pets_only_after_check_ins_of_one_task :
    ∃ past event,
      history watchdogCalls = past ++ [event] ∧
      event.call = .scheduleTick 0 (fun _ => 7) true ∧
      event.reply.pets = 1 ∧
      event.before.Registered 2 ∧ CheckedIn past 2 := by
  have hsplit : ∃ past event,
      history watchdogCalls = past ++ [event] ∧
      event.call = .scheduleTick 0 (fun _ => 7) true ∧
      event.reply.pets = 1 ∧
      event.before.criticalTaskMask.getLsbD 2 = true := by
    refine ⟨[_, _, _], _, rfl, rfl, ?_, ?_⟩
    · decide +kernel
    · decide +kernel
  obtain ⟨past, event, hsplit, hcall, hpets, hcritical⟩ := hsplit
  obtain ⟨_, hpet, _⟩ := pets_only_after_check_ins hsplit hcall
  exact ⟨past, event, hsplit, hcall, hpets,
    (hpet (by rw [hpets]; exact Nat.one_ne_zero)).2 2 hcritical⟩

end PerCoreScheduler
end ShawnCore.Rtos
