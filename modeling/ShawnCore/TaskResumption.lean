import ShawnCore.BitmapScheduler

/-!
# Tasks are resumed where they were left

The stack pointer in a slot is the last one which a tick accepted for its task,
or the one it was created with.  A tick which switches returns this pointer for
the lowest ready priority, after checking the task's stack once more.
-/

namespace ShawnCore.Rtos

/-- The pointer which a tick accepted for the task, if the call was one. -/
def SchedulerEvent.savedRsp (event : SchedulerEvent) (task : Fin 16) :
    Option UInt64 :=
  match event.call with
  | .scheduleTick currentRsp memory _ =>
      if event.before.currentTask = task.val ∧ currentRsp ≠ 0 ∧
          contextOk (event.before.tasks task) currentRsp memory = true then
        some currentRsp
      else
        none
  | _ => none

/-- The pointer with which the task was created, if the call did so. -/
def SchedulerEvent.createdRsp (event : SchedulerEvent) (task : Fin 16) :
    Option UInt64 :=
  match event.call, event.reply with
  | .createTask tcb _ _, .created (.ok _) _ =>
      if task.val = tcb.priority.toNat then some tcb.rsp else none
  | _, _ => none

/-- The last pointer accepted for the task, or else the one it was created
with. -/
def lastRsp (past : List SchedulerEvent) (task : Fin 16) : Option UInt64 :=
  (past.filterMap fun event => event.savedRsp task).getLast?.or
    (past.findSome? fun event => event.createdRsp task)

theorem lastRsp_append
    (past : List SchedulerEvent) (event : SchedulerEvent) (task : Fin 16) :
    lastRsp (past ++ [event]) task =
      (event.savedRsp task).or
        ((lastRsp past task).or (event.createdRsp task)) := by
  rw [lastRsp, lastRsp, List.filterMap_append, List.findSome?_append,
    List.getLast?_append, Option.or_assoc, Option.or_assoc]
  congr 1
  · cases hsaved : event.savedRsp task with
    | none => simp [hsaved]
    | some rsp => simp [hsaved]
  · cases hcreated : event.createdRsp task with
    | none => simp [hcreated]
    | some rsp => simp [hcreated]

namespace PerCoreScheduler

/-! ## One call -/

theorem contextOk_registered
    {scheduler : PerCoreScheduler} {task : Fin 16} {rsp : UInt64}
    {memory : StackMemory}
    (hcontext : contextOk (scheduler.tasks task) rsp memory = true) :
    scheduler.Registered task := by
  rw [contextOk, Bool.and_eq_true, validStackPointer_iff] at hcontext
  exact hcontext.1.1

theorem savedRsp_scheduleTick
    (scheduler : PerCoreScheduler) (currentRsp : UInt64)
    (memory : StackMemory) (petCallback : Bool) (task : Fin 16) :
    (scheduler.perform (.scheduleTick currentRsp memory
        petCallback)).2.savedRsp task =
      if scheduler.currentTask = task.val ∧ currentRsp ≠ 0 ∧
          contextOk (scheduler.tasks task) currentRsp memory = true then
        some currentRsp
      else
        none :=
  rfl

/-- A tick which does not find the current task damaged saves exactly the
pointer it accepted. -/
theorem saveRsp_rsp
    {scheduler : PerCoreScheduler} {currentRsp : UInt64}
    {memory : StackMemory}
    (hfault : ¬ scheduler.CurrentFault currentRsp memory)
    (petCallback : Bool) (task : Fin 16) :
    ((scheduler.saveRsp currentRsp).tasks task).rsp =
      ((scheduler.perform (.scheduleTick currentRsp memory
        petCallback)).2.savedRsp task).getD (scheduler.tasks task).rsp := by
  rw [savedRsp_scheduleTick]
  by_cases hsave : scheduler.currentTask = task.val ∧ currentRsp ≠ 0 ∧
      scheduler.Registered task
  · obtain ⟨hsame, hrsp, hregistered⟩ := hsave
    have hcurrent : scheduler.currentTask < 16 := hsame ▸ task.isLt
    have htask : (⟨scheduler.currentTask, hcurrent⟩ : Fin 16) = task :=
      Fin.ext hsame
    have hcontext : contextOk (scheduler.tasks task) currentRsp memory =
        true := by
      by_contra hbad
      refine hfault ⟨hcurrent, hrsp, ?_, ?_⟩
      · rwa [htask]
      · rw [htask]
        exact eq_false_of_ne_true hbad
    rw [if_pos ⟨hsame, hrsp, hcontext⟩, Option.getD_some]
    exact congrArg Tcb.rsp (if_pos ⟨hsame, hrsp, hregistered⟩)
  · have hnot : ¬ (scheduler.currentTask = task.val ∧ currentRsp ≠ 0 ∧
        contextOk (scheduler.tasks task) currentRsp memory = true) :=
      fun h => hsave ⟨h.1, h.2.1, contextOk_registered h.2.2⟩
    rw [if_neg hnot, Option.getD_none]
    exact congrArg Tcb.rsp (if_neg hsave)

/-- A tick which finds the current task damaged accepts no pointer. -/
theorem savedRsp_of_currentFault
    {scheduler : PerCoreScheduler} {currentRsp : UInt64}
    {memory : StackMemory}
    (hfault : scheduler.CurrentFault currentRsp memory)
    (petCallback : Bool) (task : Fin 16) :
    (scheduler.perform (.scheduleTick currentRsp memory
      petCallback)).2.savedRsp task = none := by
  obtain ⟨hcurrent, _, _, hcontext⟩ := hfault
  rw [savedRsp_scheduleTick]
  refine if_neg fun h => ?_
  have htask : (⟨scheduler.currentTask, hcurrent⟩ : Fin 16) = task :=
    Fin.ext h.1
  rw [htask] at hcontext
  exact Bool.false_ne_true (hcontext.symm.trans h.2.2)

/-- The slot of a registered task follows the pointers accepted for it. -/
theorem perform_of_registered
    {scheduler : PerCoreScheduler} (hcurrent : scheduler.currentTask < 16)
    {task : Fin 16} (hregistered : scheduler.Registered task)
    (call : SchedulerCall) :
    (scheduler.perform call).2.createdRsp task = none ∧
      ((scheduler.perform call).1.tasks task).rsp =
        ((scheduler.perform call).2.savedRsp task).getD
          (scheduler.tasks task).rsp := by
  have houtcome := scheduler.exec_outcome call hcurrent
  generalize hresult : scheduler.exec call = result at houtcome
  cases houtcome with
  | rejected | readySet | readyCleared | ignored | checkedIn | masked =>
      rw [perform, hresult]
      exact ⟨rfl, rfl⟩
  | created tcb canaryValue memory written filled htask hvalid hfree =>
      have hne : task ≠ filled := fun hsame => hfree (hsame ▸ hregistered)
      rw [perform, hresult]
      constructor
      · refine if_neg fun hsame => hne (Fin.ext ?_)
        rw [hsame, htask]
      · exact congrArg Tcb.rsp (setTask_tasks_of_ne scheduler _ hne)
  | ticked currentRsp memory petCallback after tick houtcome =>
      cases houtcome with
      | currentFault hfault =>
          rw [savedRsp_of_currentFault hfault]
          rw [perform, hresult]
          exact ⟨rfl, rfl⟩
      | selectedFault hfault | stuck hfault | petted hfault
      | switched hfault =>
          rw [← saveRsp_rsp hfault]
          rw [perform, hresult]
          exact ⟨rfl, rfl⟩

theorem savedRsp_of_not_registered
    {scheduler : PerCoreScheduler} {task : Fin 16}
    (hfree : ¬ scheduler.Registered task) (call : SchedulerCall) :
    (scheduler.perform call).2.savedRsp task = none := by
  cases call with
  | createTask | setReady | clearReady | taskCheckIn
  | setCriticalTaskMask => rfl
  | scheduleTick currentRsp memory petCallback =>
      exact if_neg fun h => hfree (contextOk_registered h.2.2)

/-- An empty slot stays as it is or is filled with a created task. -/
theorem perform_of_not_registered
    {scheduler : PerCoreScheduler} (hcurrent : scheduler.currentTask < 16)
    {task : Fin 16} (hfree : ¬ scheduler.Registered task)
    (call : SchedulerCall) :
    ((scheduler.perform call).2.createdRsp task = none ∧
        (scheduler.perform call).1.tasks task = scheduler.tasks task) ∨
      ((scheduler.perform call).1.Registered task ∧
        (scheduler.perform call).2.createdRsp task =
          some ((scheduler.perform call).1.tasks task).rsp) := by
  have houtcome := scheduler.exec_outcome call hcurrent
  generalize hresult : scheduler.exec call = result at houtcome
  cases houtcome with
  | rejected | readySet | readyCleared | ignored | checkedIn | masked =>
      rw [perform, hresult]
      exact Or.inl ⟨rfl, rfl⟩
  | created tcb canaryValue memory written filled htask hvalid hfilled =>
      rw [perform, hresult]
      by_cases hsame : task = filled
      · right
        subst hsame
        rw [Registered, setTask_tasks_self]
        exact ⟨((validStackPointer_iff tcb tcb.rsp).1 hvalid).1,
          if_pos htask⟩
      · left
        constructor
        · refine if_neg fun h => hsame (Fin.ext ?_)
          rw [h, htask]
        · exact setTask_tasks_of_ne scheduler _ hsame
  | ticked currentRsp memory petCallback after tick houtcome =>
      have hsaved : (scheduler.saveRsp currentRsp).tasks task =
          scheduler.tasks task := if_neg fun h => hfree h.2.2
      cases houtcome with
      | currentFault =>
          rw [perform, hresult]
          exact Or.inl ⟨rfl, rfl⟩
      | selectedFault | stuck | petted | switched =>
          rw [perform, hresult]
          exact Or.inl ⟨rfl, hsaved⟩

/-! ## Whole histories -/

/-- The slots agree with the past. -/
structure ResumptionInvariant
    (past : List SchedulerEvent) (scheduler : PerCoreScheduler) : Prop where
  current_lt : scheduler.currentTask < 16
  registered :
    ∀ task, scheduler.Registered task →
      lastRsp past task = some (scheduler.tasks task).rsp
  empty :
    ∀ task, ¬ scheduler.Registered task →
      lastRsp past task = none ∧ (scheduler.tasks task).rsp = 0

theorem new_resumptionInvariant : ResumptionInvariant [] new := by
  constructor
  · decide
  · intro task hregistered
    exact absurd rfl hregistered
  · intro task _
    exact ⟨rfl, rfl⟩

theorem perform_resumptionInvariant
    {past : List SchedulerEvent} {scheduler : PerCoreScheduler}
    (hgood : ResumptionInvariant past scheduler) (call : SchedulerCall) :
    ResumptionInvariant (past ++ [(scheduler.perform call).2])
      (scheduler.perform call).1 := by
  have hcurrent := hgood.current_lt
  constructor
  · exact scheduler.exec_currentTask_lt call hcurrent
  · intro task hafter
    rw [lastRsp_append]
    by_cases hregistered : scheduler.Registered task
    · obtain ⟨_, hrsp⟩ := perform_of_registered hcurrent hregistered call
      rw [hrsp, hgood.registered task hregistered]
      cases (scheduler.perform call).2.savedRsp task with
      | none => rfl
      | some rsp => rfl
    · rw [savedRsp_of_not_registered hregistered,
        (hgood.empty task hregistered).1]
      rcases perform_of_not_registered hcurrent hregistered call
        with ⟨_, hkept⟩ | ⟨_, hcreated⟩
      · rw [Registered, hkept] at hafter
        exact absurd hafter hregistered
      · rw [hcreated]
        rfl
  · intro task hafter
    have hfree : ¬ scheduler.Registered task := fun hregistered =>
      hafter (scheduler.exec_registered call hcurrent hregistered)
    rcases perform_of_not_registered hcurrent hfree call
      with ⟨hcreated, hkept⟩ | ⟨hregistered, _⟩
    · rw [lastRsp_append, savedRsp_of_not_registered hfree, hcreated, hkept]
      rw [(hgood.empty task hfree).1]
      exact ⟨rfl, (hgood.empty task hfree).2⟩
    · exact absurd hregistered hafter

/-- The lowest ready priority, or fifteen if there is none. -/
def LowestReady (scheduler : PerCoreScheduler) (task : Fin 16) : Prop :=
  (scheduler.readyBitmap.getLsbD task.val = true ∧
      ∀ lower < task.val, scheduler.readyBitmap.getLsbD lower = false) ∨
    (scheduler.readyBitmap = 0#16 ∧ task = 15)

theorem nextIdx_lowestReady (scheduler : PerCoreScheduler) :
    scheduler.LowestReady scheduler.nextIdx := by
  by_cases hready : scheduler.readyBitmap = 0#16
  · exact Or.inr ⟨hready, scheduler.nextIdx_of_not_ready hready⟩
  · exact Or.inl (scheduler.nextIdx_of_ready hready)

/-- The task may be resumed at the pointer: its canary is intact and the
pointer lies in its stack above the canary. -/
def Resumable
    (tcb : Tcb) (memory : StackMemory) (rsp : UInt64) : Prop :=
  memory tcb.stackBase = tcb.stackCanary ∧
    tcb.stackBase.toNat + 8 ≤ rsp.toNat ∧
    rsp.toNat ≤ tcb.stackBase.toNat + tcb.stackSize.toNat ∧
    tcb.stackBase.toNat + tcb.stackSize.toNat < 2 ^ 64

theorem resumable_of_contextOk
    {tcb : Tcb} {memory : StackMemory} {rsp : UInt64}
    (hcontext : contextOk tcb rsp memory = true) :
    Resumable tcb memory rsp := by
  rw [contextOk, Bool.and_eq_true, validStackPointer_iff, beq_iff_eq]
    at hcontext
  obtain ⟨⟨_, _, _, hend, hlower, hupper⟩, hcanary⟩ := hcontext
  exact ⟨hcanary, hlower, hupper, hend⟩

/-- A selected task without a fault is resumable where it was left, unless it
is the empty idle slot. -/
theorem selected_resumable
    {scheduler : PerCoreScheduler} {memory : StackMemory}
    (hselected : ¬ scheduler.SelectedFault memory)
    (hregistered : scheduler.Registered scheduler.nextIdx) :
    Resumable (scheduler.tasks scheduler.nextIdx) memory
      (scheduler.tasks scheduler.nextIdx).rsp := by
  apply resumable_of_contextOk
  by_contra hbad
  exact hselected (Or.inr ⟨hregistered, eq_false_of_ne_true hbad⟩)

theorem saveRsp_resumable
    (scheduler : PerCoreScheduler) (currentRsp : UInt64)
    (memory : StackMemory) (task : Fin 16) (rsp : UInt64) :
    Resumable ((scheduler.saveRsp currentRsp).tasks task) memory rsp ↔
      Resumable (scheduler.tasks task) memory rsp := by
  rw [saveRsp]
  dsimp only
  split_ifs <;> rfl

/-- What holds of the selected task after any tick that switched to it. -/
theorem selected_resumes
    {past : List SchedulerEvent} {scheduler after : PerCoreScheduler}
    {currentRsp : UInt64} {memory : StackMemory}
    (hgood : ResumptionInvariant past after)
    (htasks : after.tasks = (scheduler.saveRsp currentRsp).tasks)
    (hselected : ¬ (scheduler.saveRsp currentRsp).SelectedFault memory)
    (hrsp : (after.tasks scheduler.nextIdx).rsp ≠ 0) :
    scheduler.Registered scheduler.nextIdx ∧
      Resumable (scheduler.tasks scheduler.nextIdx) memory
        (after.tasks scheduler.nextIdx).rsp ∧
      lastRsp past scheduler.nextIdx =
        some (after.tasks scheduler.nextIdx).rsp := by
  have hafter : after.Registered scheduler.nextIdx := by
    by_contra hfree
    exact hrsp (hgood.empty _ hfree).2
  have hsaved : (scheduler.saveRsp currentRsp).Registered
      scheduler.nextIdx := by
    rw [Registered, ← htasks]
    exact hafter
  refine ⟨(scheduler.saveRsp_registered currentRsp _).1 hsaved, ?_,
    hgood.registered _ hafter⟩
  rw [← saveRsp_resumable scheduler currentRsp, htasks]
  exact selected_resumable hselected hsaved

/-- A tick which returns a pointer switches to the lowest ready task, whose
stack is intact, at the pointer where the task was left.  It saves no pointer
but the current task's, and a damaged current task stops it altogether. -/
theorem ticks_resume_tasks_where_left
    {calls : List SchedulerCall} {past later : List SchedulerEvent}
    {event : SchedulerEvent} {currentRsp : UInt64} {memory : StackMemory}
    {petCallback : Bool}
    (hsplit : history calls = past ++ event :: later)
    (hcall : event.call = .scheduleTick currentRsp memory petCallback) :
    (∀ tick rsp, event.reply = .ticked tick → tick.returned = some rsp →
      rsp ≠ 0 →
        ∃ task : Fin 16,
          event.after.currentTask = task.val ∧
          event.before.LowestReady task ∧
          event.before.Registered task ∧
          Resumable (event.before.tasks task) memory rsp ∧
          lastRsp (past ++ [event]) task = some rsp) ∧
    (∀ other : Fin 16, event.before.currentTask ≠ other.val →
      (event.after.tasks other).rsp = (event.before.tasks other).rsp) ∧
    (event.before.CurrentFault currentRsp memory →
      event.reply = .ticked Tick.fault ∧ event.after = event.before) := by
  obtain ⟨hgood, hevent⟩ := history_split new_resumptionInvariant
    (fun _ _ call hgood => perform_resumptionInvariant hgood call) hsplit
  have hafter := perform_resumptionInvariant hgood event.call
  have houtcome := event.before.exec_outcome event.call hgood.current_lt
  rw [← hevent] at hafter
  obtain ⟨scheduler, call, reply, after⟩ := event
  simp only [perform, SchedulerEvent.mk.injEq, true_and] at hevent
  obtain ⟨hreply, hresult⟩ := hevent
  simp only [perform] at hcall hgood hafter houtcome ⊢
  subst hcall hreply hresult
  generalize scheduler.exec _ = result at hafter houtcome ⊢
  cases houtcome with
  | ticked _ _ _ after tick houtcome =>
      have hother : ∀ other : Fin 16, scheduler.currentTask ≠ other.val →
          ((scheduler.saveRsp currentRsp).tasks other).rsp =
            (scheduler.tasks other).rsp := fun other hne =>
        congrArg Tcb.rsp (scheduler.saveRsp_tasks_of_ne currentRsp hne)
      cases houtcome with
      | currentFault hcurrent =>
          refine ⟨?_, fun _ _ => rfl, fun _ => ⟨rfl, rfl⟩⟩
          intro tick rsp hreply hreturned hrsp
          cases hreply
          exact absurd (Option.some.inj hreturned).symm hrsp
      | selectedFault hcurrent hselected =>
          refine ⟨?_, hother, fun hfault => absurd hfault hcurrent⟩
          intro tick rsp hreply hreturned hrsp
          cases hreply
          exact absurd (Option.some.inj hreturned).symm hrsp
      | stuck hcurrent hselected =>
          refine ⟨?_, hother, fun hfault => absurd hfault hcurrent⟩
          intro tick rsp hreply hreturned
          cases hreply
          cases hreturned
      | petted hcurrent hselected | switched hcurrent hselected =>
          refine ⟨?_, hother, fun hfault => absurd hfault hcurrent⟩
          intro tick rsp hreply hreturned hrsp
          cases hreply
          cases hreturned
          have hresumes := selected_resumes hafter rfl hselected hrsp
          exact ⟨scheduler.nextIdx, rfl, scheduler.nextIdx_lowestReady,
            hresumes⟩

/-- Two tasks: the one at priority three runs first, is preempted at its
pointer `240` by the one at priority two and resumed once that one blocks. -/
def resumptionCalls : List SchedulerCall :=
  [.createTask (Tcb.newTask 1 128 128 200 3) 9 fun _ => 0,
    .scheduleTick 0 (fun _ => 9) true,
    .createTask (Tcb.newTask 1 64 64 96 2) 9 fun _ => 0,
    .scheduleTick 240 (fun _ => 9) true,
    .clearReady 2,
    .scheduleTick 104 (fun _ => 9) true]

theorem ticks_resume_tasks_where_left_after_preemption :
    ∃ past event,
      history resumptionCalls = past ++ [event] ∧
      event.call = .scheduleTick 104 (fun _ => 9) true ∧
      event.reply = .ticked ⟨some 240, 0⟩ ∧
      event.after.currentTask = 3 ∧
      lastRsp (past ++ [event]) 3 = some 240 := by
  have hsplit : ∃ past event,
      history resumptionCalls = past ++ [event] ∧
      event.call = .scheduleTick 104 (fun _ => 9) true ∧
      event.reply = .ticked ⟨some 240, 0⟩ ∧
      event.after.currentTask = 3 := by
    refine ⟨[_, _, _, _, _], _, rfl, rfl, ?_, ?_⟩
    · rfl
    · decide +kernel
  obtain ⟨past, event, hsplit, hcall, hreply, hcurrent⟩ := hsplit
  obtain ⟨hresume, _, _⟩ := ticks_resume_tasks_where_left hsplit hcall
  obtain ⟨task, hsame, _, _, _, hlast⟩ :=
    hresume _ 240 hreply rfl (by decide)
  have htask : task = 3 := Fin.ext (hsame.symm.trans hcurrent)
  rw [htask] at hlast
  exact ⟨past, event, hsplit, hcall, hreply, hcurrent, hlast⟩

end PerCoreScheduler
end ShawnCore.Rtos
