import ShawnCore.WatchdogWindow

/-!
# When the watchdog is petted

A check-in counts until the next pet, unless a mask without the task is set in
between: `set_critical_task_mask` also cuts the matrix down to the new mask.
With this notion the pets are known exactly, so a system whose critical tasks
all check in is not reset by a tick that holds back its pet.
-/

namespace ShawnCore.Rtos

/-- The call sets a mask which has no place for the task. -/
def SchedulerCall.Excludes (call : SchedulerCall) (task : Fin 16) : Prop :=
  ∃ mask, call = .setCriticalTaskMask mask ∧ mask.getLsbD task.val = false

/-- The task checked in while it was registered, and since then the watchdog
has not been petted and no mask has excluded the task. -/
def Counted (past : List SchedulerEvent) (task : Fin 16) : Prop :=
  ∃ earlier checkIn later,
    past = earlier ++ checkIn :: later ∧
    checkIn.call = .taskCheckIn (UInt8.ofNat task.val) ∧
    checkIn.before.Registered task ∧
    ∀ event ∈ later, event.reply.pets = 0 ∧ ¬ event.call.Excludes task

/-- The event is a check-in which counts, or one which counted before still
does. -/
theorem counted_append
    {past : List SchedulerEvent} {task : Fin 16} {event : SchedulerEvent} :
    Counted (past ++ [event]) task ↔
      (event.call = .taskCheckIn (UInt8.ofNat task.val) ∧
        event.before.Registered task) ∨
      (Counted past task ∧ event.reply.pets = 0 ∧
        ¬ event.call.Excludes task) := by
  constructor
  · rintro ⟨earlier, checkIn, later, hpast, hcall, hregistered, hquiet⟩
    rcases List.eq_nil_or_concat later with rfl | ⟨rest, last, rfl⟩
    · obtain ⟨_, hevent⟩ := List.append_inj' hpast rfl
      cases hevent
      exact Or.inl ⟨hcall, hregistered⟩
    · rw [List.concat_eq_append, ← List.cons_append, ← List.append_assoc]
        at hpast
      obtain ⟨hbefore, hevent⟩ := List.append_inj' hpast rfl
      cases hevent
      rw [List.concat_eq_append, List.forall_mem_append] at hquiet
      exact Or.inr ⟨⟨earlier, checkIn, rest, hbefore, hcall, hregistered,
        hquiet.1⟩, hquiet.2 event List.mem_cons_self⟩
  · rintro (⟨hcall, hregistered⟩ | ⟨hcounted, hquiet⟩)
    · exact ⟨past, event, [], rfl, hcall, hregistered,
        fun other hmem => absurd hmem List.not_mem_nil⟩
    · obtain ⟨earlier, checkIn, later, rfl, hcall, hregistered, hlater⟩ :=
        hcounted
      refine ⟨earlier, checkIn, later ++ [event], ?_, hcall, hregistered, ?_⟩
      · rw [List.append_assoc, List.cons_append]
      · rw [List.forall_mem_append]
        refine ⟨hlater, ?_⟩
        intro other hother
        rw [List.mem_singleton.1 hother]
        exact hquiet

namespace PerCoreScheduler

/-! ## One call -/

/-- A bit of the matrix is set by a check-in, and a bit that is set is cleared
by a pet and by a mask without the task. -/
theorem exec_watchdogMatrix_iff
    (scheduler : PerCoreScheduler) (call : SchedulerCall)
    (hcurrent : scheduler.currentTask < 16) {task : Fin 16}
    (hset : scheduler.watchdogMatrix.getLsbD task.val = true →
      scheduler.Registered task) :
    (scheduler.exec call).1.watchdogMatrix.getLsbD task.val = true ↔
      (call = .taskCheckIn (UInt8.ofNat task.val) ∧
        scheduler.Registered task) ∨
      (scheduler.watchdogMatrix.getLsbD task.val = true ∧
        (scheduler.exec call).2.pets = 0 ∧ ¬ call.Excludes task) := by
  constructor
  · intro hbit
    rcases scheduler.exec_watchdogMatrix call hcurrent hbit
      with ⟨hold, hpets⟩ | hchecked
    · refine Or.inr ⟨hold, hpets, ?_⟩
      rintro ⟨mask, rfl, hexcluded⟩
      simp only [exec, setCriticalTaskMask, BitVec.getLsbD_and, hexcluded,
        Bool.false_and, Bool.and_false, Bool.false_eq_true] at hbit
    · exact Or.inl hchecked
  · rintro (⟨rfl, hregistered⟩ | ⟨hold, hpets, hkept⟩)
    · have htask : (UInt8.ofNat task.val).toNat = task.val :=
        Nat.mod_eq_of_lt (by omega)
      have hchecked : ∃ h : (UInt8.ofNat task.val).toNat < 16,
          scheduler.Registered ⟨(UInt8.ofNat task.val).toNat, h⟩ := by
        simp only [htask]
        exact ⟨task.isLt, hregistered⟩
      simp only [exec, taskCheckIn]
      rw [if_pos hchecked, Bitmap.getLsbD_set]
      exact Or.inr ⟨task.isLt, htask⟩
    · have houtcome := scheduler.exec_outcome call hcurrent
      generalize scheduler.exec call = result at houtcome hpets ⊢
      cases houtcome with
      | rejected | created | readySet | readyCleared | ignored => exact hold
      | checkedIn checked hregistered =>
          rw [Bitmap.getLsbD_set]
          exact Or.inl hold
      | masked criticalTaskMask =>
          have hmask : criticalTaskMask.getLsbD task.val = true := by
            rw [← Bool.not_eq_false]
            exact fun hexcluded => hkept ⟨criticalTaskMask, rfl, hexcluded⟩
          have hregistered :=
            (scheduler.getLsbD_registeredMask task).2 (hset hold)
          simp only [setCriticalTaskMask, BitVec.getLsbD_and, hold, hmask,
            hregistered, Bool.and_self]
      | ticked currentRsp memory petCallback after tick houtcome =>
          cases houtcome with
          | currentFault | selectedFault | stuck | switched => exact hold
          | petted => cases hpets

theorem scheduleTick_pets_iff
    {scheduler : PerCoreScheduler} {currentRsp : UInt64}
    {memory : StackMemory} {petCallback : Bool}
    (hcurrent : scheduler.currentTask < 16) :
    (scheduler.scheduleTick currentRsp memory petCallback).2.pets = 1 ↔
      ¬ scheduler.ReportsFault currentRsp memory ∧ petCallback = true ∧
        scheduler.WatchdogDue := by
  by_cases hfault : scheduler.CurrentFault currentRsp memory
  · rw [scheduleTick_of_currentFault hfault]
    exact iff_of_false Nat.zero_ne_one fun h => h.1 (Or.inl hfault)
  rw [scheduleTick_of_not_currentFault hcurrent hfault]
  by_cases hselected : (scheduler.saveRsp currentRsp).SelectedFault memory
  · rw [select_of_selectedFault hselected]
    exact iff_of_false Nat.zero_ne_one fun h => h.1 (Or.inr hselected)
  have hhealthy : ¬ scheduler.ReportsFault currentRsp memory :=
    not_or.2 ⟨hfault, hselected⟩
  rw [select_of_not_selectedFault hselected, dispatch]
  -- Saving the stack pointer touches neither the matrix nor the mask.
  split_ifs with hdue hcallback
  · exact iff_of_true rfl ⟨hhealthy, hcallback, hdue⟩
  · exact iff_of_false not_false fun h => hcallback h.2.1
  · exact iff_of_false not_false fun h => hdue h.2.2

/-! ## Whole histories -/

/-- The matrix holds the check-ins which count, and no others. -/
structure MatrixExact
    (past : List SchedulerEvent) (scheduler : PerCoreScheduler) : Prop where
  current_lt : scheduler.currentTask < 16
  registered :
    ∀ task : Fin 16, scheduler.watchdogMatrix.getLsbD task.val = true →
      scheduler.Registered task
  counted :
    ∀ task : Fin 16, scheduler.watchdogMatrix.getLsbD task.val = true ↔
      Counted past task

theorem new_matrixExact : MatrixExact [] new := by
  constructor
  · decide
  · intro task hbit
    simp [new] at hbit
  · intro task
    simp [new, Counted]

theorem perform_matrixExact
    {past : List SchedulerEvent} {scheduler : PerCoreScheduler}
    (hgood : MatrixExact past scheduler) (call : SchedulerCall) :
    MatrixExact (past ++ [(scheduler.perform call).2])
      (scheduler.perform call).1 := by
  constructor
  · exact scheduler.exec_currentTask_lt call hgood.current_lt
  · intro task hbit
    apply scheduler.exec_registered call hgood.current_lt
    rcases scheduler.exec_watchdogMatrix call hgood.current_lt hbit
      with ⟨hold, _⟩ | ⟨_, hregistered⟩
    · exact hgood.registered task hold
    · exact hregistered
  · intro task
    rw [counted_append, ← hgood.counted task]
    exact scheduler.exec_watchdogMatrix_iff call hgood.current_lt
      (hgood.registered task)

/-- A tick pets the watchdog exactly when it reports no fault, a callback is
registered, there is a critical task and a check-in of every critical task
counts. -/
theorem pets_exactly_when_all_counted
    {calls : List SchedulerCall} {past later : List SchedulerEvent}
    {event : SchedulerEvent} {currentRsp : UInt64} {memory : StackMemory}
    {petCallback : Bool}
    (hsplit : history calls = past ++ event :: later)
    (hcall : event.call = .scheduleTick currentRsp memory petCallback) :
    event.reply.pets = 1 ↔
      ¬ event.before.ReportsFault currentRsp memory ∧ petCallback = true ∧
      event.before.criticalTaskMask ≠ 0#16 ∧
      ∀ task : Fin 16,
        event.before.criticalTaskMask.getLsbD task.val = true →
          Counted past task := by
  obtain ⟨hgood, hevent⟩ := history_split new_matrixExact
    (fun _ _ call hgood => perform_matrixExact hgood call) hsplit
  have hpets : event.reply.pets =
      (event.before.scheduleTick currentRsp memory petCallback).2.pets := by
    rw [hevent, hcall]
    rfl
  have hmatrix : (event.before.watchdogMatrix &&&
      event.before.criticalTaskMask = event.before.criticalTaskMask) ↔
      ∀ task : Fin 16,
        event.before.criticalTaskMask.getLsbD task.val = true →
          Counted past task := by
    rw [Bitmap.and_eq_right_iff]
    constructor
    · intro hall task hcritical
      exact (hgood.counted task).1 (hall task.val hcritical)
    · intro hall position hcritical
      have hlt : position < 16 := BitVec.lt_of_getLsbD hcritical
      exact (hgood.counted ⟨position, hlt⟩).2 (hall ⟨position, hlt⟩ hcritical)
  rw [hpets, scheduleTick_pets_iff hgood.current_lt, WatchdogDue, hmatrix]

/-- Task two checks in and is taken out of the mask before it is put back. -/
def remaskedCalls : List SchedulerCall :=
  [.createTask (Tcb.newTask 1 64 64 96 2) 7 fun _ => 0,
    .taskCheckIn 2, .setCriticalTaskMask 8#16, .setCriticalTaskMask 4#16,
    .scheduleTick 0 (fun _ => 7) true, .taskCheckIn 2,
    .scheduleTick 0 (fun _ => 7) true]

/-- The first of the ticks holds back the pet, since the check-in does not
count any more, and the second one does not. -/
theorem pets_exactly_when_all_counted_remasked :
    ∃ past first checkIn second,
      history remaskedCalls = past ++ [first, checkIn, second] ∧
      first.reply.pets = 0 ∧ ¬ Counted past 2 ∧
      second.reply.pets = 1 ∧ Counted (past ++ [first, checkIn]) 2 := by
  have hsplit : ∃ past first checkIn second,
      history remaskedCalls = past ++ [first, checkIn, second] ∧
      first.call = .scheduleTick 0 (fun _ => 7) true ∧
      second.call = .scheduleTick 0 (fun _ => 7) true ∧
      first.reply.pets = 0 ∧ second.reply.pets = 1 ∧
      first.before.criticalTaskMask = 4#16 ∧
      second.before.criticalTaskMask = 4#16 ∧
      ¬ (first.before.saveRsp 0).SelectedFault fun _ => 7 := by
    refine ⟨[_, _, _, _], _, _, _, rfl, rfl, rfl, ?_, ?_, ?_, ?_, ?_⟩
    · decide +kernel
    · decide +kernel
    · decide +kernel
    · decide +kernel
    · unfold SelectedFault
      decide +kernel
  obtain ⟨past, first, checkIn, second, hsplit, hfirst, hsecond, hheld, hpet,
    hfirstMask, hsecondMask, hselected⟩ := hsplit
  have hfault : ¬ first.before.ReportsFault 0 fun _ => 7 := by
    rintro (⟨_, hrsp, _⟩ | hfault)
    · exact hrsp rfl
    · exact hselected hfault
  have honly : ∀ task : Fin 16, (4#16).getLsbD task.val = true → task = 2 := by
    decide
  refine ⟨past, first, checkIn, second, hsplit, hheld, ?_, hpet, ?_⟩
  · intro hcounted
    have hpets := (pets_exactly_when_all_counted hsplit hfirst).2
      ⟨hfault, rfl, by rw [hfirstMask]; decide, by
        rw [hfirstMask]
        intro task hcritical
        rw [honly task hcritical]
        exact hcounted⟩
    rw [hheld] at hpets
    cases hpets
  · have hafter : history remaskedCalls =
        (past ++ [first, checkIn]) ++ second :: [] := by
      rw [hsplit, List.append_assoc]
      rfl
    have hdue := (pets_exactly_when_all_counted hafter hsecond).1 hpet
    apply hdue.2.2.2 2
    rw [hsecondMask]
    rfl

end PerCoreScheduler
end ShawnCore.Rtos
