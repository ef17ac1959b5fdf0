import ShawnCore.Bitmap
import ShawnCore.Execution

/-!
# The per-core bitmap scheduler

Sixteen task slots, a ready bitmap, a watchdog matrix of the tasks which
checked in and the mask of the tasks which have to.  A tick saves the stack
pointer of the current task, selects the lowest ready priority, checks both
stacks and then services the watchdog.  The words on the task stacks belong to
the host: every tick is given the memory it reads.
-/

namespace ShawnCore.Rtos

inductive SchedulerError where
  | taskFault
  deriving DecidableEq, Repr

abbrev maxTasks : ℕ := 16

instance maxTasks_neZero : NeZero 16 := ⟨by decide⟩

/-- The 64-bit words of the host's memory, by address. -/
abbrev StackMemory := UInt64 → UInt64

structure Tcb where
  entryPoint : UInt64
  stackBase : UInt64
  stackSize : UInt64
  rsp : UInt64
  priority : UInt8
  stackCanary : UInt64
  deriving DecidableEq, Repr

def Tcb.new : Tcb :=
  ⟨0, 0, 0, 0, 15, 0⟩

def Tcb.newTask
    (entryPoint stackBase stackSize initialRsp : UInt64) (priority : UInt8) :
    Tcb :=
  ⟨entryPoint, stackBase, stackSize, initialRsp, priority, 0⟩

def checkedAdd (left right : UInt64) : Option UInt64 :=
  if left.toNat + right.toNat < 2 ^ 64 then some (left + right) else none

def validStackPointer (tcb : Tcb) (rsp : UInt64) : Bool :=
  match checkedAdd tcb.stackBase tcb.stackSize with
  | none => false
  | some stackEnd =>
      match checkedAdd tcb.stackBase 8 with
      | none => false
      | some firstUsableRsp =>
          tcb.stackBase != 0 && tcb.stackBase % 8 == 0 &&
            decide (8 ≤ tcb.stackSize) && decide (firstUsableRsp ≤ rsp) &&
            decide (rsp ≤ stackEnd)

/-- The two checks of a tick on one stack: the pointer lies in the stack, and
the word at the stack's base is the canary. -/
def contextOk (tcb : Tcb) (rsp : UInt64) (memory : StackMemory) : Bool :=
  validStackPointer tcb rsp && memory tcb.stackBase == tcb.stackCanary

structure PerCoreScheduler where
  tasks : Fin 16 → Tcb
  readyBitmap : BitVec 16
  currentTask : ℕ
  watchdogMatrix : BitVec 16
  criticalTaskMask : BitVec 16

namespace PerCoreScheduler

def new : PerCoreScheduler :=
  ⟨fun _ => Tcb.new, 0#16, 15, 0#16, 0#16⟩

/-- A slot is registered once its stack base is not zero. -/
def Registered (scheduler : PerCoreScheduler) (task : Fin 16) : Prop :=
  (scheduler.tasks task).stackBase ≠ 0

instance (scheduler : PerCoreScheduler) (task : Fin 16) :
    Decidable (scheduler.Registered task) :=
  inferInstanceAs (Decidable (_ ≠ _))

def setTask (scheduler : PerCoreScheduler) (task : Fin 16) (tcb : Tcb) :
    PerCoreScheduler :=
  { scheduler with tasks := Function.update scheduler.tasks task tcb }

/-- Registration also writes the canary to the base of the task's stack. -/
def createTask
    (scheduler : PerCoreScheduler) (tcb : Tcb) (canaryValue : UInt64)
    (memory : StackMemory) :
    Except SchedulerError Unit × StackMemory × PerCoreScheduler :=
  if hpriority : tcb.entryPoint ≠ 0 ∧ tcb.priority.toNat < 16 then
    let task : Fin 16 := ⟨tcb.priority.toNat, hpriority.2⟩
    if validStackPointer tcb tcb.rsp = true ∧
        ¬ scheduler.Registered task then
      (.ok (), Function.update memory tcb.stackBase canaryValue,
        { scheduler.setTask task { tcb with stackCanary := canaryValue } with
          readyBitmap := Bitmap.set scheduler.readyBitmap task.val })
    else
      (.error .taskFault, memory, scheduler)
  else
    (.error .taskFault, memory, scheduler)

def setReady (scheduler : PerCoreScheduler) (priority : UInt8) :
    PerCoreScheduler :=
  if priority.toNat < 16 then
    { scheduler with
      readyBitmap := Bitmap.set scheduler.readyBitmap priority.toNat }
  else
    scheduler

def clearReady (scheduler : PerCoreScheduler) (priority : UInt8) :
    PerCoreScheduler :=
  if priority.toNat < 16 then
    { scheduler with
      readyBitmap := Bitmap.clear scheduler.readyBitmap priority.toNat }
  else
    scheduler

def taskCheckIn (scheduler : PerCoreScheduler) (priority : UInt8) :
    PerCoreScheduler :=
  if ∃ h : priority.toNat < 16,
      scheduler.Registered ⟨priority.toNat, h⟩ then
    { scheduler with
      watchdogMatrix :=
        Bitmap.set scheduler.watchdogMatrix priority.toNat }
  else
    scheduler

def registeredMask (scheduler : PerCoreScheduler) : BitVec 16 :=
  Bitmap.collect fun task => decide (scheduler.Registered task)

def setCriticalTaskMask
    (scheduler : PerCoreScheduler) (criticalTaskMask : BitVec 16) :
    PerCoreScheduler :=
  { scheduler with
    criticalTaskMask := criticalTaskMask &&& scheduler.registeredMask
    watchdogMatrix :=
      scheduler.watchdogMatrix &&&
        (criticalTaskMask &&& scheduler.registeredMask) }

/-! ## The tick -/

/-- What the host sees of a tick: the returned stack pointer, unless the tick
spins for ever, and the number of times its watchdog callback was called. -/
structure Tick where
  returned : Option UInt64
  pets : ℕ
  deriving DecidableEq, Repr

def Tick.fault : Tick :=
  ⟨some 0, 0⟩

def nextIdx (scheduler : PerCoreScheduler) : Fin 16 :=
  if h : Bitmap.trailingZeros scheduler.readyBitmap < 16 then
    ⟨Bitmap.trailingZeros scheduler.readyBitmap, h⟩
  else
    15

/-- All critical tasks checked in. -/
def WatchdogDue (scheduler : PerCoreScheduler) : Prop :=
  scheduler.criticalTaskMask ≠ 0#16 ∧
    scheduler.watchdogMatrix &&& scheduler.criticalTaskMask =
      scheduler.criticalTaskMask

instance (scheduler : PerCoreScheduler) :
    Decidable scheduler.WatchdogDue :=
  inferInstanceAs (Decidable (_ ∧ _))

/-- The last part of a tick: service the watchdog and switch.  Without a
registered callback `host_pet_watchdog` never returns. -/
def dispatch
    (scheduler : PerCoreScheduler) (next : Fin 16) (petCallback : Bool) :
    PerCoreScheduler × Tick :=
  if scheduler.WatchdogDue then
    if petCallback then
      ({ scheduler with watchdogMatrix := 0#16, currentTask := next.val },
        ⟨some (scheduler.tasks next).rsp, 1⟩)
    else
      (scheduler, ⟨none, 0⟩)
  else
    ({ scheduler with currentTask := next.val },
      ⟨some (scheduler.tasks next).rsp, 0⟩)

/-- The middle part of a tick: select the next task and check its stack. -/
def select
    (scheduler : PerCoreScheduler) (memory : StackMemory)
    (petCallback : Bool) : PerCoreScheduler × Tick :=
  let next := scheduler.nextIdx
  if scheduler.Registered next then
    if contextOk (scheduler.tasks next) (scheduler.tasks next).rsp memory then
      scheduler.dispatch next petCallback
    else
      (scheduler, Tick.fault)
  else if next ≠ 15 ∨ scheduler.readyBitmap &&& (1#16 <<< next.val) ≠ 0#16 then
    (scheduler, Tick.fault)
  else
    scheduler.dispatch next petCallback

def scheduleTick
    (scheduler : PerCoreScheduler) (currentRsp : UInt64)
    (memory : StackMemory) (petCallback : Bool) :
    PerCoreScheduler × Tick :=
  if h : scheduler.currentTask < maxTasks then
    let current : Fin 16 := ⟨scheduler.currentTask, h⟩
    let tcb := scheduler.tasks current
    if currentRsp ≠ 0 ∧ scheduler.Registered current then
      if contextOk tcb currentRsp memory then
        (scheduler.setTask current { tcb with rsp := currentRsp }).select
          memory petCallback
      else
        (scheduler, Tick.fault)
    else
      scheduler.select memory petCallback
  else
    (scheduler, Tick.fault)

end PerCoreScheduler

/-! ## Calls and their histories -/

/-- A call of the host, with the memory the scheduler finds and, for a tick,
whether a watchdog callback is registered. -/
inductive SchedulerCall where
  | createTask (tcb : Tcb) (canaryValue : UInt64) (memory : StackMemory)
  | setReady (priority : UInt8)
  | clearReady (priority : UInt8)
  | taskCheckIn (priority : UInt8)
  | setCriticalTaskMask (criticalTaskMask : BitVec 16)
  | scheduleTick
      (currentRsp : UInt64) (memory : StackMemory) (petCallback : Bool)

inductive SchedulerReply where
  | created (result : Except SchedulerError Unit) (memory : StackMemory)
  | none
  | ticked (tick : PerCoreScheduler.Tick)

def SchedulerReply.pets : SchedulerReply → ℕ
  | .created _ _ => 0
  | .none => 0
  | .ticked tick => tick.pets

/-- One performed call. -/
structure SchedulerEvent where
  before : PerCoreScheduler
  call : SchedulerCall
  reply : SchedulerReply
  after : PerCoreScheduler

namespace PerCoreScheduler

def exec (scheduler : PerCoreScheduler) :
    SchedulerCall → PerCoreScheduler × SchedulerReply
  | .createTask tcb canaryValue memory =>
      match scheduler.createTask tcb canaryValue memory with
      | (result, written, next) => (next, .created result written)
  | .setReady priority => (scheduler.setReady priority, .none)
  | .clearReady priority => (scheduler.clearReady priority, .none)
  | .taskCheckIn priority => (scheduler.taskCheckIn priority, .none)
  | .setCriticalTaskMask criticalTaskMask =>
      (scheduler.setCriticalTaskMask criticalTaskMask, .none)
  | .scheduleTick currentRsp memory petCallback =>
      match scheduler.scheduleTick currentRsp memory petCallback with
      | (next, tick) => (next, .ticked tick)

def perform (scheduler : PerCoreScheduler) (call : SchedulerCall) :
    PerCoreScheduler × SchedulerEvent :=
  ((scheduler.exec call).1,
    ⟨scheduler, call, (scheduler.exec call).2, (scheduler.exec call).1⟩)

/-- Everything that happens when a new scheduler serves the calls. -/
def history (calls : List SchedulerCall) : List SchedulerEvent :=
  Execution.trace perform new calls

/-! ## What the operations do -/

@[simp] theorem setTask_tasks_self
    (scheduler : PerCoreScheduler) (task : Fin 16) (tcb : Tcb) :
    (scheduler.setTask task tcb).tasks task = tcb := by
  simp [setTask]

theorem setTask_tasks_of_ne
    (scheduler : PerCoreScheduler) {task other : Fin 16} (tcb : Tcb)
    (hne : other ≠ task) :
    (scheduler.setTask task tcb).tasks other = scheduler.tasks other := by
  simp [setTask, hne]

theorem getLsbD_registeredMask
    (scheduler : PerCoreScheduler) (task : Fin 16) :
    scheduler.registeredMask.getLsbD task.val = true ↔
      scheduler.Registered task := by
  rw [registeredMask, Bitmap.getLsbD_collect, decide_eq_true_eq]

/-- A priority which is out of range has no bit. -/
theorem setReady_eq (scheduler : PerCoreScheduler) (priority : UInt8) :
    scheduler.setReady priority =
      { scheduler with
        readyBitmap := Bitmap.set scheduler.readyBitmap priority.toNat } := by
  rw [setReady]
  split_ifs with hpriority
  · rfl
  · rw [Bitmap.set_of_le _ (Nat.le_of_not_lt hpriority)]

theorem clearReady_eq (scheduler : PerCoreScheduler) (priority : UInt8) :
    scheduler.clearReady priority =
      { scheduler with
        readyBitmap :=
          Bitmap.clear scheduler.readyBitmap priority.toNat } := by
  rw [clearReady]
  split_ifs with hpriority
  · rfl
  · rw [Bitmap.clear_of_le _ (Nat.le_of_not_lt hpriority)]

/-- Either nothing happens or an empty slot is filled with a checked task. -/
theorem createTask_cases
    (scheduler : PerCoreScheduler) (tcb : Tcb) (canaryValue : UInt64)
    (memory : StackMemory) :
    scheduler.createTask tcb canaryValue memory =
        (.error .taskFault, memory, scheduler) ∨
      ∃ task : Fin 16, task.val = tcb.priority.toNat ∧
        validStackPointer tcb tcb.rsp = true ∧
        ¬ scheduler.Registered task ∧
        scheduler.createTask tcb canaryValue memory =
          (.ok (), Function.update memory tcb.stackBase canaryValue,
            { scheduler.setTask task
                { tcb with stackCanary := canaryValue } with
              readyBitmap :=
                Bitmap.set scheduler.readyBitmap task.val }) := by
  by_cases hpriority : tcb.entryPoint ≠ 0 ∧ tcb.priority.toNat < 16
  · by_cases hfree : validStackPointer tcb tcb.rsp = true ∧
        ¬ scheduler.Registered ⟨tcb.priority.toNat, hpriority.2⟩
    · refine Or.inr ⟨⟨tcb.priority.toNat, hpriority.2⟩, rfl, hfree.1,
        hfree.2, ?_⟩
      rw [createTask, dif_pos hpriority, if_pos hfree]
    · left
      rw [createTask, dif_pos hpriority, if_neg hfree]
  · left
    rw [createTask, dif_neg hpriority]

theorem checkedAdd_eq_some_iff (left right sum : UInt64) :
    checkedAdd left right = some sum ↔
      sum.toNat = left.toNat + right.toNat := by
  have hsum := sum.toNat_lt
  rw [checkedAdd]
  split_ifs with hbound
  · rw [Option.some.injEq, ← UInt64.toNat_inj, UInt64.toNat_add,
      Nat.mod_eq_of_lt hbound]
    exact eq_comm
  · simp only [false_iff]
    omega

theorem checkedAdd_eq_none_iff (left right : UInt64) :
    checkedAdd left right = none ↔ 2 ^ 64 ≤ left.toNat + right.toNat := by
  rw [checkedAdd]
  split_ifs with hbound
  · simpa using hbound
  · simpa using hbound

theorem validStackPointer_iff (tcb : Tcb) (rsp : UInt64) :
    validStackPointer tcb rsp = true ↔
      tcb.stackBase ≠ 0 ∧ tcb.stackBase % 8 = 0 ∧ 8 ≤ tcb.stackSize ∧
      tcb.stackBase.toNat + tcb.stackSize.toNat < 2 ^ 64 ∧
      tcb.stackBase.toNat + 8 ≤ rsp.toNat ∧
      rsp.toNat ≤ tcb.stackBase.toNat + tcb.stackSize.toNat := by
  rw [validStackPointer]
  cases hend : checkedAdd tcb.stackBase tcb.stackSize with
  | none =>
      rw [checkedAdd_eq_none_iff] at hend
      simp only [Bool.false_eq_true, false_iff]
      omega
  | some stackEnd =>
      rw [checkedAdd_eq_some_iff] at hend
      have hbound := stackEnd.toNat_lt
      cases hfirst : checkedAdd tcb.stackBase 8 with
      | none =>
          rw [checkedAdd_eq_none_iff, show (8 : UInt64).toNat = 8 from rfl]
            at hfirst
          simp only [Bool.false_eq_true, false_iff]
          have hrsp := rsp.toNat_lt
          omega
      | some firstUsableRsp =>
          rw [checkedAdd_eq_some_iff, show (8 : UInt64).toNat = 8 from rfl]
            at hfirst
          simp only [Bool.and_eq_true, bne_iff_ne, beq_iff_eq,
            decide_eq_true_eq, UInt64.le_iff_toNat_le, hfirst, hend]
          rw [← hend]
          simp only [hbound, true_and, and_assoc]

/-! ## The parts of a tick -/

/-- The stack of the current task is found damaged. -/
def CurrentFault
    (scheduler : PerCoreScheduler) (currentRsp : UInt64)
    (memory : StackMemory) : Prop :=
  ∃ h : scheduler.currentTask < 16,
    currentRsp ≠ 0 ∧ scheduler.Registered ⟨scheduler.currentTask, h⟩ ∧
      contextOk (scheduler.tasks ⟨scheduler.currentTask, h⟩) currentRsp
        memory = false

/-- The selected task is ready but not registered, or its stack is found
damaged. -/
def SelectedFault
    (scheduler : PerCoreScheduler) (memory : StackMemory) : Prop :=
  (scheduler.readyBitmap.getLsbD scheduler.nextIdx.val = true ∧
      ¬ scheduler.Registered scheduler.nextIdx) ∨
    (scheduler.Registered scheduler.nextIdx ∧
      contextOk (scheduler.tasks scheduler.nextIdx)
        (scheduler.tasks scheduler.nextIdx).rsp memory = false)

/-- The scheduler once the pointer of the current task has been saved. -/
def saveRsp (scheduler : PerCoreScheduler) (currentRsp : UInt64) :
    PerCoreScheduler :=
  { scheduler with
    tasks := fun task =>
      if scheduler.currentTask = task.val ∧ currentRsp ≠ 0 ∧
          scheduler.Registered task then
        { scheduler.tasks task with rsp := currentRsp }
      else
        scheduler.tasks task }

theorem saveRsp_of_registered
    {scheduler : PerCoreScheduler} {currentRsp : UInt64}
    (hcurrent : scheduler.currentTask < 16) (hrsp : currentRsp ≠ 0)
    (hregistered : scheduler.Registered ⟨scheduler.currentTask, hcurrent⟩) :
    scheduler.saveRsp currentRsp =
      scheduler.setTask ⟨scheduler.currentTask, hcurrent⟩
        { scheduler.tasks ⟨scheduler.currentTask, hcurrent⟩ with
          rsp := currentRsp } := by
  have htasks : (scheduler.saveRsp currentRsp).tasks =
      Function.update scheduler.tasks ⟨scheduler.currentTask, hcurrent⟩
        { scheduler.tasks ⟨scheduler.currentTask, hcurrent⟩ with
          rsp := currentRsp } := by
    funext task
    by_cases hsame : task = ⟨scheduler.currentTask, hcurrent⟩
    · subst hsame
      rw [Function.update_self]
      exact if_pos ⟨rfl, hrsp, hregistered⟩
    · rw [Function.update_of_ne hsame]
      exact if_neg fun h => hsame (Fin.ext h.1.symm)
  rw [setTask, ← htasks]
  rfl

theorem saveRsp_of_not_saving
    {scheduler : PerCoreScheduler} {currentRsp : UInt64}
    (hcurrent : scheduler.currentTask < 16)
    (hkeep : ¬ (currentRsp ≠ 0 ∧
      scheduler.Registered ⟨scheduler.currentTask, hcurrent⟩)) :
    scheduler.saveRsp currentRsp = scheduler := by
  have htasks : (scheduler.saveRsp currentRsp).tasks = scheduler.tasks := by
    funext task
    refine if_neg fun h => hkeep ⟨h.2.1, ?_⟩
    have hsame : ⟨scheduler.currentTask, hcurrent⟩ = task := Fin.ext h.1
    rw [hsame]
    exact h.2.2
  exact congrArg
    (fun tasks => ({ scheduler with tasks } : PerCoreScheduler)) htasks

theorem nextIdx_of_ready
    (scheduler : PerCoreScheduler)
    (hready : scheduler.readyBitmap ≠ 0#16) :
    scheduler.readyBitmap.getLsbD scheduler.nextIdx.val = true ∧
      ∀ lower < scheduler.nextIdx.val,
        scheduler.readyBitmap.getLsbD lower = false := by
  have hlt : Bitmap.trailingZeros scheduler.readyBitmap < 16 := by
    by_contra hge
    exact hready
      (Bitmap.eq_zero_of_le_trailingZeros _ (Nat.le_of_not_lt hge))
  rw [nextIdx, dif_pos hlt]
  exact (Bitmap.trailingZeros_eq_iff _ hlt).1 rfl

theorem nextIdx_of_not_ready
    (scheduler : PerCoreScheduler)
    (hready : scheduler.readyBitmap = 0#16) : scheduler.nextIdx = 15 := by
  rw [nextIdx, hready]
  rfl

theorem nextIdx_unready_iff (scheduler : PerCoreScheduler) :
    (scheduler.nextIdx ≠ 15 ∨
        scheduler.readyBitmap &&& (1#16 <<< scheduler.nextIdx.val) ≠ 0#16) ↔
      scheduler.readyBitmap.getLsbD scheduler.nextIdx.val = true := by
  by_cases hready : scheduler.readyBitmap = 0#16
  · rw [nextIdx_of_not_ready scheduler hready, hready]
    decide
  · have hbit := (scheduler.nextIdx_of_ready hready).1
    refine iff_of_true (Or.inr ?_) hbit
    rw [Bitmap.ne_zero_iff]
    refine ⟨scheduler.nextIdx.val, ?_⟩
    rw [BitVec.getLsbD_and, hbit, Bitmap.getLsbD_single]
    simp

theorem select_of_selectedFault
    {scheduler : PerCoreScheduler} {memory : StackMemory}
    (hfault : scheduler.SelectedFault memory) (petCallback : Bool) :
    scheduler.select memory petCallback = (scheduler, Tick.fault) := by
  rw [select]
  rcases hfault with ⟨hready, hfree⟩ | ⟨hregistered, hcontext⟩
  · rw [if_neg hfree, if_pos ((nextIdx_unready_iff scheduler).2 hready)]
  · rw [if_pos hregistered, if_neg (by rw [hcontext]; exact Bool.false_ne_true)]

theorem select_of_not_selectedFault
    {scheduler : PerCoreScheduler} {memory : StackMemory}
    (hfault : ¬ scheduler.SelectedFault memory) (petCallback : Bool) :
    scheduler.select memory petCallback =
      scheduler.dispatch scheduler.nextIdx petCallback := by
  rw [SelectedFault, not_or] at hfault
  rw [select]
  by_cases hregistered : scheduler.Registered scheduler.nextIdx
  · have hcontext := eq_true_of_ne_false
      fun hcontext => hfault.2 ⟨hregistered, hcontext⟩
    rw [if_pos hregistered, if_pos hcontext]
  · have hunready : ¬ scheduler.readyBitmap.getLsbD
        scheduler.nextIdx.val = true :=
      fun hready => hfault.1 ⟨hready, hregistered⟩
    rw [if_neg hregistered,
      if_neg (mt (nextIdx_unready_iff scheduler).1 hunready)]

theorem scheduleTick_of_currentFault
    {scheduler : PerCoreScheduler} {currentRsp : UInt64}
    {memory : StackMemory}
    (hfault : scheduler.CurrentFault currentRsp memory)
    (petCallback : Bool) :
    scheduler.scheduleTick currentRsp memory petCallback =
      (scheduler, Tick.fault) := by
  obtain ⟨hcurrent, hrsp, hregistered, hcontext⟩ := hfault
  rw [scheduleTick, dif_pos (show _ < maxTasks from hcurrent),
    if_pos ⟨hrsp, hregistered⟩,
    if_neg (by rw [hcontext]; exact Bool.false_ne_true)]

theorem scheduleTick_of_not_currentFault
    {scheduler : PerCoreScheduler} {currentRsp : UInt64}
    {memory : StackMemory} (hcurrent : scheduler.currentTask < 16)
    (hfault : ¬ scheduler.CurrentFault currentRsp memory)
    (petCallback : Bool) :
    scheduler.scheduleTick currentRsp memory petCallback =
      (scheduler.saveRsp currentRsp).select memory petCallback := by
  rw [scheduleTick, dif_pos (show _ < maxTasks from hcurrent)]
  by_cases hsave : currentRsp ≠ 0 ∧
      scheduler.Registered ⟨scheduler.currentTask, hcurrent⟩
  · have hcontext := eq_true_of_ne_false
      fun hcontext => hfault ⟨hcurrent, hsave.1, hsave.2, hcontext⟩
    rw [if_pos hsave, if_pos hcontext,
      saveRsp_of_registered hcurrent hsave.1 hsave.2]
  · rw [if_neg hsave, saveRsp_of_not_saving hcurrent hsave]

/-- Everything a tick can do. -/
inductive TickOutcome
    (scheduler : PerCoreScheduler) (currentRsp : UInt64)
    (memory : StackMemory) : PerCoreScheduler × Tick → Prop
  | currentFault (hcurrent : scheduler.CurrentFault currentRsp memory) :
      TickOutcome scheduler currentRsp memory (scheduler, Tick.fault)
  | selectedFault
      (hcurrent : ¬ scheduler.CurrentFault currentRsp memory)
      (hselected : (scheduler.saveRsp currentRsp).SelectedFault memory) :
      TickOutcome scheduler currentRsp memory
        (scheduler.saveRsp currentRsp, Tick.fault)
  | petted
      (hcurrent : ¬ scheduler.CurrentFault currentRsp memory)
      (hselected : ¬ (scheduler.saveRsp currentRsp).SelectedFault memory)
      (hdue : scheduler.WatchdogDue) :
      TickOutcome scheduler currentRsp memory
        ({ scheduler.saveRsp currentRsp with
            watchdogMatrix := 0#16
            currentTask := scheduler.nextIdx.val },
          ⟨some ((scheduler.saveRsp currentRsp).tasks scheduler.nextIdx).rsp,
            1⟩)
  | stuck
      (hcurrent : ¬ scheduler.CurrentFault currentRsp memory)
      (hselected : ¬ (scheduler.saveRsp currentRsp).SelectedFault memory) :
      TickOutcome scheduler currentRsp memory
        (scheduler.saveRsp currentRsp, ⟨none, 0⟩)
  | switched
      (hcurrent : ¬ scheduler.CurrentFault currentRsp memory)
      (hselected : ¬ (scheduler.saveRsp currentRsp).SelectedFault memory) :
      TickOutcome scheduler currentRsp memory
        ({ scheduler.saveRsp currentRsp with
            currentTask := scheduler.nextIdx.val },
          ⟨some ((scheduler.saveRsp currentRsp).tasks scheduler.nextIdx).rsp,
            0⟩)

theorem scheduleTick_outcome
    (scheduler : PerCoreScheduler) (currentRsp : UInt64)
    (memory : StackMemory) (petCallback : Bool)
    (hcurrent : scheduler.currentTask < 16) :
    TickOutcome scheduler currentRsp memory
      (scheduler.scheduleTick currentRsp memory petCallback) := by
  by_cases hcurrentFault : scheduler.CurrentFault currentRsp memory
  · rw [scheduleTick_of_currentFault hcurrentFault]
    exact .currentFault hcurrentFault
  · rw [scheduleTick_of_not_currentFault hcurrent hcurrentFault]
    by_cases hfault : (scheduler.saveRsp currentRsp).SelectedFault memory
    · rw [select_of_selectedFault hfault]
      exact .selectedFault hcurrentFault hfault
    · rw [select_of_not_selectedFault hfault, dispatch]
      split_ifs with hdue
      · exact .petted hcurrentFault hfault hdue
      · exact .stuck hcurrentFault hfault
      · exact .switched hcurrentFault hfault

/-! ## What a tick leaves alone -/

section SaveRsp

variable (scheduler : PerCoreScheduler) (currentRsp : UInt64)

theorem saveRsp_tasks_of_ne
    {task : Fin 16} (hother : scheduler.currentTask ≠ task.val) :
    (scheduler.saveRsp currentRsp).tasks task = scheduler.tasks task :=
  if_neg fun h => hother h.1

@[simp] theorem saveRsp_registered (task : Fin 16) :
    (scheduler.saveRsp currentRsp).Registered task ↔
      scheduler.Registered task := by
  rw [Registered, Registered, saveRsp]
  dsimp only
  split_ifs <;> rfl

end SaveRsp

/-! ## Everything a call can do -/

inductive CallOutcome (scheduler : PerCoreScheduler) :
    SchedulerCall → PerCoreScheduler × SchedulerReply → Prop
  | rejected (tcb : Tcb) (canaryValue : UInt64) (memory : StackMemory) :
      CallOutcome scheduler (.createTask tcb canaryValue memory)
        (scheduler, .created (.error .taskFault) memory)
  | created (tcb : Tcb) (canaryValue : UInt64)
      (memory written : StackMemory) (task : Fin 16)
      (htask : task.val = tcb.priority.toNat)
      (hvalid : validStackPointer tcb tcb.rsp = true)
      (hfree : ¬ scheduler.Registered task) :
      CallOutcome scheduler (.createTask tcb canaryValue memory)
        ({ scheduler.setTask task { tcb with stackCanary := canaryValue } with
            readyBitmap := Bitmap.set scheduler.readyBitmap task.val },
          .created (.ok ()) written)
  | readySet (priority : UInt8) :
      CallOutcome scheduler (.setReady priority)
        ({ scheduler with
            readyBitmap :=
              Bitmap.set scheduler.readyBitmap priority.toNat },
          .none)
  | readyCleared (priority : UInt8) :
      CallOutcome scheduler (.clearReady priority)
        ({ scheduler with
            readyBitmap :=
              Bitmap.clear scheduler.readyBitmap priority.toNat },
          .none)
  | ignored (priority : UInt8) :
      CallOutcome scheduler (.taskCheckIn priority) (scheduler, .none)
  | checkedIn (task : Fin 16) (hregistered : scheduler.Registered task) :
      CallOutcome scheduler (.taskCheckIn (UInt8.ofNat task.val))
        ({ scheduler with
            watchdogMatrix :=
              Bitmap.set scheduler.watchdogMatrix task.val },
          .none)
  | masked (criticalTaskMask : BitVec 16) :
      CallOutcome scheduler (.setCriticalTaskMask criticalTaskMask)
        (scheduler.setCriticalTaskMask criticalTaskMask, .none)
  | ticked (currentRsp : UInt64) (memory : StackMemory)
      (petCallback : Bool) (after : PerCoreScheduler) (tick : Tick)
      (houtcome : TickOutcome scheduler currentRsp memory (after, tick)) :
      CallOutcome scheduler (.scheduleTick currentRsp memory petCallback)
        (after, .ticked tick)

theorem exec_outcome
    (scheduler : PerCoreScheduler) (call : SchedulerCall)
    (hcurrent : scheduler.currentTask < 16) :
    CallOutcome scheduler call (scheduler.exec call) := by
  cases call with
  | createTask tcb canaryValue memory =>
      rcases scheduler.createTask_cases tcb canaryValue memory
        with hcreate | ⟨task, htask, hvalid, hfree, hcreate⟩
      · simp only [exec, hcreate]
        exact .rejected tcb canaryValue memory
      · simp only [exec, hcreate]
        exact .created tcb canaryValue memory _ task htask hvalid hfree
  | setReady priority =>
      simp only [exec, setReady_eq]
      exact .readySet priority
  | clearReady priority =>
      simp only [exec, clearReady_eq]
      exact .readyCleared priority
  | taskCheckIn priority =>
      simp only [exec, taskCheckIn]
      split_ifs with hcheckIn
      · obtain ⟨hpriority, hregistered⟩ := hcheckIn
        have houtcome := CallOutcome.checkedIn
          ⟨priority.toNat, hpriority⟩ hregistered
        rwa [UInt8.ofNat_toNat] at houtcome
      · exact .ignored priority
  | setCriticalTaskMask criticalTaskMask => exact .masked criticalTaskMask
  | scheduleTick currentRsp memory petCallback =>
      exact .ticked currentRsp memory petCallback _ _
        (scheduler.scheduleTick_outcome currentRsp memory petCallback hcurrent)

/-- The current task is always one of the sixteen. -/
theorem exec_currentTask_lt
    (scheduler : PerCoreScheduler) (call : SchedulerCall)
    (hcurrent : scheduler.currentTask < 16) :
    (scheduler.exec call).1.currentTask < 16 := by
  have houtcome := scheduler.exec_outcome call hcurrent
  generalize scheduler.exec call = result at houtcome ⊢
  cases houtcome with
  | rejected | created | readySet | readyCleared | ignored | checkedIn
  | masked => exact hcurrent
  | ticked currentRsp memory petCallback after tick houtcome =>
      cases houtcome with
      | currentFault | selectedFault | stuck => exact hcurrent
      | petted | switched => exact scheduler.nextIdx.isLt

/-- Tasks are never removed. -/
theorem exec_registered
    (scheduler : PerCoreScheduler) (call : SchedulerCall)
    (hcurrent : scheduler.currentTask < 16) {task : Fin 16}
    (hregistered : scheduler.Registered task) :
    (scheduler.exec call).1.Registered task := by
  have houtcome := scheduler.exec_outcome call hcurrent
  generalize scheduler.exec call = result at houtcome ⊢
  cases houtcome with
  | rejected | readySet | readyCleared | ignored | checkedIn | masked =>
      exact hregistered
  | created tcb canaryValue memory written filled htask hvalid hfree =>
      have hne : task ≠ filled := fun hsame => hfree (hsame ▸ hregistered)
      rw [Registered, setTask_tasks_of_ne scheduler _ hne]
      exact hregistered
  | ticked currentRsp memory petCallback after tick houtcome =>
      have hsaved := (scheduler.saveRsp_registered currentRsp task).2
        hregistered
      cases houtcome with
      | currentFault => exact hregistered
      | selectedFault | stuck | petted | switched => exact hsaved

/-- A task becomes ready when it is created or by `set_ready`, and ceases to be
by `clear_ready`; no other call changes the ready set. -/
theorem exec_ready_iff
    (scheduler : PerCoreScheduler) (call : SchedulerCall)
    (hcurrent : scheduler.currentTask < 16) (task : Fin 16) :
    (scheduler.exec call).1.readyBitmap.getLsbD task.val = true ↔
      match call, (scheduler.exec call).2 with
      | .createTask tcb _ _, .created (.ok _) _ =>
          scheduler.readyBitmap.getLsbD task.val = true ∨
            tcb.priority.toNat = task.val
      | .setReady priority, _ =>
          scheduler.readyBitmap.getLsbD task.val = true ∨
            priority.toNat = task.val
      | .clearReady priority, _ =>
          scheduler.readyBitmap.getLsbD task.val = true ∧
            priority.toNat ≠ task.val
      | _, _ => scheduler.readyBitmap.getLsbD task.val = true := by
  have houtcome := scheduler.exec_outcome call hcurrent
  generalize scheduler.exec call = result at houtcome ⊢
  cases houtcome with
  | rejected | ignored | checkedIn | masked => rfl
  | created tcb canaryValue memory written filled htask hvalid hfree =>
      simp only [Bitmap.getLsbD_set, task.isLt, true_and, htask]
  | readySet priority => simp only [Bitmap.getLsbD_set, task.isLt, true_and]
  | readyCleared priority => simp only [Bitmap.getLsbD_clear]
  | ticked currentRsp memory petCallback after tick houtcome =>
      cases houtcome <;> rfl

/-- Every call of a history is performed by a scheduler which satisfies any
invariant of the calls before it. -/
theorem history_split
    {Good : List SchedulerEvent → PerCoreScheduler → Prop}
    (hnew : Good [] new)
    (hperform : ∀ past scheduler call, Good past scheduler →
      Good (past ++ [(scheduler.perform call).2]) (scheduler.perform call).1)
    {calls : List SchedulerCall} {past later : List SchedulerEvent}
    {event : SchedulerEvent}
    (hsplit : history calls = past ++ event :: later) :
    Good past event.before ∧
      event = (event.before.perform event.call).2 := by
  have hat : (history calls)[past.length]? = some event := by
    rw [hsplit, List.getElem?_append_right le_rfl, Nat.sub_self]
    rfl
  obtain ⟨scheduler, call, _, hgood, hevent⟩ := Execution.trace_invariant
    (fun past scheduler call _ => hperform past scheduler call) hnew hat
  have htake : (Execution.trace perform new calls).take past.length = past := by
    change (history calls).take past.length = past
    rw [hsplit, List.take_left]
  rw [htake] at hgood
  subst hevent
  exact ⟨hgood, rfl⟩

end PerCoreScheduler
end ShawnCore.Rtos
