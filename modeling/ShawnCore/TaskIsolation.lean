import ShawnCore.TaskResumption
import ShawnCore.ByteCodec

/-!
# Tasks are resumed intact

The scheduler on a core, with the memory it shares with the tasks.  The code
which runs on the core writes bytes, and the host asks the scheduler for the
next stack pointer.  As long as the stacks do not overlap and every task keeps
to its own stack above the canary, no tick reports a fault, and a task finds
its stack as it was when the task was left.
-/

namespace ShawnCore.Rtos

open ByteMemory Execution

theorem wordSize_eq : 8 = (8 : UInt64).toNat := rfl

def wordFormat : Format UInt64 :=
  ByteCodec.Codec.word64.format 8 8 wordSize_eq

/-- The words of the memory, as the scheduler reads them. -/
def words (memory : Memory) : StackMemory :=
  wordFormat.load memory

def Tcb.InStack (tcb : Tcb) (address : UInt64) : Prop :=
  tcb.stackBase.toNat ≤ address.toNat ∧
    address.toNat < tcb.stackBase.toNat + tcb.stackSize.toNat

def Tcb.InCanary (tcb : Tcb) (address : UInt64) : Prop :=
  tcb.stackBase.toNat ≤ address.toNat ∧
    address.toNat < tcb.stackBase.toNat + 8

def Tcb.ApartFrom (tcb other : Tcb) : Prop :=
  tcb.stackBase.toNat + tcb.stackSize.toNat ≤ other.stackBase.toNat ∨
    other.stackBase.toNat + other.stackSize.toNat ≤ tcb.stackBase.toNat

theorem Tcb.ApartFrom.not_inStack
    {tcb other : Tcb} (hapart : tcb.ApartFrom other) {address : UInt64}
    (hstack : tcb.InStack address) : ¬ other.InStack address := by
  rintro ⟨hlower, hupper⟩
  obtain ⟨hlower', hupper'⟩ := hstack
  rcases hapart with hbelow | habove
  · omega
  · omega

/-- The stack pointer and the memory when a task was left. -/
structure Image where
  rsp : UInt64
  memory : Memory

/-- `running` says whether the current task has been resumed; `left` has an
image of every task from its creation or from the last tick during which it
was the current one. -/
structure Core where
  scheduler : PerCoreScheduler
  memory : Memory
  running : Bool
  left : Fin 16 → Image

namespace Core

open PerCoreScheduler (Tick LowestReady)

def boot (memory : Memory) : Core :=
  ⟨PerCoreScheduler.new, memory, false, fun _ => ⟨0, memory⟩⟩

def createTask (core : Core) (tcb : Tcb) (canaryValue : UInt64) : Core :=
  match core.scheduler.createTask tcb canaryValue (words core.memory) with
  | (.ok (), _, next) =>
      let written := (wordFormat.write tcb.stackBase canaryValue).perform
        core.memory
      { core with
        scheduler := next
        memory := written
        left := fun task =>
          if task.val = tcb.priority.toNat then ⟨tcb.rsp, written⟩
          else core.left task }
  | (.error _, _, next) => { core with scheduler := next }

/-- The host goes on with the task whose stack pointer it gets, and with none
if it gets zero. -/
def scheduleTick (core : Core) (currentRsp : UInt64) (petCallback : Bool) :
    Core × Tick :=
  match core.scheduler.scheduleTick currentRsp (words core.memory)
      petCallback with
  | (next, tick) =>
      ({ core with
          scheduler := next
          running := decide (tick.returned.getD 0 ≠ 0)
          left := fun task =>
            if core.scheduler.currentTask = task.val ∧ currentRsp ≠ 0 ∧
                contextOk (core.scheduler.tasks task) currentRsp
                  (words core.memory) = true then
              ⟨currentRsp, core.memory⟩
            else
              core.left task },
        tick)

inductive Action
  | createTask (tcb : Tcb) (canaryValue : UInt64)
  | setReady (priority : UInt8)
  | clearReady (priority : UInt8)
  | taskCheckIn (priority : UInt8)
  | setCriticalTaskMask (criticalTaskMask : BitVec 16)
  | scheduleTick (currentRsp : UInt64) (petCallback : Bool)
  | write (write : Write)

def next (core : Core) : Action → Core
  | .createTask tcb canaryValue => core.createTask tcb canaryValue
  | .setReady priority =>
      { core with scheduler := core.scheduler.setReady priority }
  | .clearReady priority =>
      { core with scheduler := core.scheduler.clearReady priority }
  | .taskCheckIn priority =>
      { core with scheduler := core.scheduler.taskCheckIn priority }
  | .setCriticalTaskMask criticalTaskMask =>
      { core with
        scheduler := core.scheduler.setCriticalTaskMask criticalTaskMask }
  | .scheduleTick currentRsp petCallback =>
      (core.scheduleTick currentRsp petCallback).1
  | .write write => { core with memory := write.perform core.memory }

def step (core : Core) (action : Action) : Option Core :=
  some (core.next action)

def IsRunning (core : Core) (task : Fin 16) : Prop :=
  core.running = true ∧ core.scheduler.currentTask = task.val

/-- The host's side of the contract: stacks do not overlap, only registered
tasks are made ready, a tick gets the stack pointer of the task which runs and
a watchdog callback is there, and the code writes to no stack but that of the
task which runs, above its canary. -/
def Contained (core : Core) : Action → Prop
  | .createTask tcb _ =>
      ∀ task, core.scheduler.Registered task →
        tcb.ApartFrom (core.scheduler.tasks task)
  | .setReady priority =>
      ∀ task : Fin 16, task.val = priority.toNat →
        core.scheduler.Registered task
  | .scheduleTick currentRsp petCallback =>
      petCallback = true ∧
        (core.running = false → currentRsp = 0) ∧
        ∀ task, core.IsRunning task →
          validStackPointer (core.scheduler.tasks task) currentRsp = true
  | .write write =>
      ∀ task, core.scheduler.Registered task →
        ∀ offset, offset < write.bytes.length →
          (core.scheduler.tasks task).InStack
              (write.start + UInt64.ofNat offset) →
            core.IsRunning task ∧
              ¬ (core.scheduler.tasks task).InCanary
                (write.start + UInt64.ofNat offset)
  | .clearReady _ => True
  | .taskCheckIn _ => True
  | .setCriticalTaskMask _ => True

instance decidableInStack (tcb : Tcb) (address : UInt64) :
    Decidable (tcb.InStack address) :=
  inferInstanceAs (Decidable (_ ∧ _))

instance decidableInCanary (tcb : Tcb) (address : UInt64) :
    Decidable (tcb.InCanary address) :=
  inferInstanceAs (Decidable (_ ∧ _))

instance decidableApartFrom (tcb other : Tcb) :
    Decidable (tcb.ApartFrom other) :=
  inferInstanceAs (Decidable (_ ∨ _))

instance decidableIsRunning (core : Core) (task : Fin 16) :
    Decidable (core.IsRunning task) :=
  inferInstanceAs (Decidable (_ ∧ _))

instance decidableContained (core : Core) :
    ∀ action, Decidable (core.Contained action)
  | .createTask tcb _ =>
      inferInstanceAs (Decidable (∀ task, core.scheduler.Registered task →
        tcb.ApartFrom (core.scheduler.tasks task)))
  | .setReady priority =>
      inferInstanceAs (Decidable (∀ task : Fin 16,
        task.val = priority.toNat → core.scheduler.Registered task))
  | .scheduleTick currentRsp petCallback =>
      inferInstanceAs (Decidable (petCallback = true ∧
        (core.running = false → currentRsp = 0) ∧
        ∀ task, core.IsRunning task →
          validStackPointer (core.scheduler.tasks task) currentRsp = true))
  | .write write =>
      inferInstanceAs (Decidable (∀ task, core.scheduler.Registered task →
        ∀ offset, offset < write.bytes.length →
          (core.scheduler.tasks task).InStack
              (write.start + UInt64.ofNat offset) →
            core.IsRunning task ∧
              ¬ (core.scheduler.tasks task).InCanary
                (write.start + UInt64.ofNat offset)))
  | .clearReady _ => isTrue trivial
  | .taskCheckIn _ => isTrue trivial
  | .setCriticalTaskMask _ => isTrue trivial

/-! ## The words at the stack bases -/

/-- The bytes of a word below the end of the address space. -/
theorem within_eight_iff
    {base address : UInt64} (hbase : base.toNat + 8 ≤ 2 ^ 64) :
    Within base 8 address ↔
      base.toNat ≤ address.toNat ∧ address.toNat < base.toNat + 8 := by
  have haddress := address.toNat_lt
  rw [Within, UInt64.toNat_sub]
  omega

/-- The word at a stack base depends on the bytes of the canary only. -/
theorem words_congr
    {memory memory' : Memory} {tcb : Tcb}
    (hbase : tcb.stackBase.toNat + 8 ≤ 2 ^ 64)
    (hsame : ∀ address, tcb.InCanary address →
      memory' address = memory address) :
    words memory' tcb.stackBase = words memory tcb.stackBase := by
  apply wordFormat.load_congr
  apply read_congr
  intro address hwithin
  exact hsame address ((within_eight_iff hbase).1 hwithin)

theorem words_write (memory : Memory) (base value : UInt64) :
    words ((wordFormat.write base value).perform memory) base = value := by
  have hload : wordFormat.load
      (performAll memory [wordFormat.write base value]) base = value :=
    wordFormat.load_performAll_of_mem (List.pairwise_singleton _ _)
      (List.mem_singleton_self _)
  rwa [performAll_cons, performAll_nil] at hload

theorem write_of_not_inCanary
    {memory : Memory} {tcb : Tcb} {address value : UInt64}
    (hbase : tcb.stackBase.toNat + 8 ≤ 2 ^ 64)
    (houtside : ¬ tcb.InCanary address) :
    (wordFormat.write tcb.stackBase value).perform memory address =
      memory address := by
  apply Write.perform_of_not_covers
  intro hcovers
  rw [Write.Covers, wordFormat.length_write, wordFormat.write_start]
    at hcovers
  exact houtside ((within_eight_iff hbase).1 hcovers)

theorem canary_fits
    {tcb : Tcb} {rsp : UInt64} (hvalid : validStackPointer tcb rsp = true) :
    tcb.stackBase.toNat + 8 ≤ 2 ^ 64 ∧ 8 ≤ tcb.stackSize.toNat := by
  obtain ⟨-, -, hsize, hend, -, -⟩ :=
    (PerCoreScheduler.validStackPointer_iff tcb rsp).1 hvalid
  have hsize' : 8 ≤ tcb.stackSize.toNat := UInt64.le_iff_toNat_le.1 hsize
  exact ⟨by omega, hsize'⟩

/-! ## The invariant -/

structure Isolated (core : Core) : Prop where
  current_lt : core.scheduler.currentTask < 16
  running : ∀ task, core.IsRunning task → core.scheduler.Registered task
  valid : ∀ task, core.scheduler.Registered task →
    validStackPointer (core.scheduler.tasks task)
      (core.scheduler.tasks task).rsp = true
  intact : ∀ task, core.scheduler.Registered task →
    words core.memory (core.scheduler.tasks task).stackBase =
      (core.scheduler.tasks task).stackCanary
  apart : ∀ task other, core.scheduler.Registered task →
    core.scheduler.Registered other → task ≠ other → ∀ address,
      (core.scheduler.tasks task).InStack address →
        ¬ (core.scheduler.tasks other).InStack address
  ready : ∀ task : Fin 16,
    core.scheduler.readyBitmap.getLsbD task.val = true →
      core.scheduler.Registered task
  empty : ∀ task, ¬ core.scheduler.Registered task →
    (core.scheduler.tasks task).rsp = 0
  left_rsp : ∀ task, core.scheduler.Registered task →
    (core.left task).rsp = (core.scheduler.tasks task).rsp
  left_memory : ∀ task, core.scheduler.Registered task →
    ¬ core.IsRunning task → ∀ address,
      (core.scheduler.tasks task).InStack address →
        core.memory address = (core.left task).memory address

theorem boot_isolated (memory : Memory) : Isolated (boot memory) := by
  have hnone : ∀ task, ¬ (boot memory).scheduler.Registered task :=
    fun _ hregistered => hregistered rfl
  constructor
  · exact Nat.lt_succ_self 15
  · intro task hrunning
    cases hrunning.1
  · exact fun task hregistered => absurd hregistered (hnone task)
  · exact fun task hregistered => absurd hregistered (hnone task)
  · exact fun task _ hregistered => absurd hregistered (hnone task)
  · intro task hready
    simp [boot, PerCoreScheduler.new] at hready
  · exact fun _ _ => rfl
  · exact fun task hregistered => absurd hregistered (hnone task)
  · exact fun task hregistered => absurd hregistered (hnone task)

/-- The calls which leave the slots alone keep the invariant. -/
theorem Isolated.reschedule
    {core : Core} {scheduler : PerCoreScheduler} (hiso : Isolated core)
    (htasks : scheduler.tasks = core.scheduler.tasks)
    (hcurrent : scheduler.currentTask = core.scheduler.currentTask)
    (hready : ∀ task : Fin 16, scheduler.readyBitmap.getLsbD task.val = true →
      core.scheduler.Registered task) :
    Isolated { core with scheduler := scheduler } := by
  have hregistered : ∀ task, scheduler.Registered task ↔
      core.scheduler.Registered task := fun task => by
    rw [PerCoreScheduler.Registered, htasks, PerCoreScheduler.Registered]
  have hrunning : ∀ task,
      IsRunning { core with scheduler := scheduler } task ↔
        core.IsRunning task := fun task => by
    rw [IsRunning, IsRunning, hcurrent]
  constructor
  · exact hcurrent.trans_lt hiso.current_lt
  · intro task h
    exact (hregistered task).2 (hiso.running task ((hrunning task).1 h))
  · intro task h
    rw [htasks]
    exact hiso.valid task ((hregistered task).1 h)
  · intro task h
    rw [htasks]
    exact hiso.intact task ((hregistered task).1 h)
  · intro task other h hother hne
    rw [htasks]
    exact hiso.apart task other ((hregistered task).1 h)
      ((hregistered other).1 hother) hne
  · exact fun task h => (hregistered task).2 (hready task h)
  · intro task h
    rw [htasks]
    exact hiso.empty task (mt (hregistered task).2 h)
  · intro task h
    rw [htasks]
    exact hiso.left_rsp task ((hregistered task).1 h)
  · intro task h hidle
    rw [htasks]
    exact hiso.left_memory task ((hregistered task).1 h)
      (mt (hrunning task).2 hidle)

theorem Isolated.setReady
    {core : Core} (hiso : Isolated core) {priority : UInt8}
    (hcontained : core.Contained (.setReady priority)) :
    Isolated (core.next (.setReady priority)) := by
  rw [next, PerCoreScheduler.setReady]
  split_ifs with hpriority
  · refine hiso.reschedule rfl rfl ?_
    intro task hready
    rcases (Bitmap.getLsbD_set _ _ _).1 hready with hbefore | ⟨-, hsame⟩
    · exact hiso.ready task hbefore
    · exact hcontained task hsame.symm
  · exact hiso

theorem Isolated.clearReady
    {core : Core} (hiso : Isolated core) (priority : UInt8) :
    Isolated (core.next (.clearReady priority)) := by
  rw [next, PerCoreScheduler.clearReady]
  split_ifs with hpriority
  · refine hiso.reschedule rfl rfl ?_
    intro task hready
    exact hiso.ready task ((Bitmap.getLsbD_clear _ _ _).1 hready).1
  · exact hiso

theorem Isolated.taskCheckIn
    {core : Core} (hiso : Isolated core) (priority : UInt8) :
    Isolated (core.next (.taskCheckIn priority)) := by
  rw [next, PerCoreScheduler.taskCheckIn]
  split_ifs with hregistered
  · exact hiso.reschedule rfl rfl hiso.ready
  · exact hiso

/-- Writes to the stack of the running task, above its canary, or to no stack
at all. -/
theorem Isolated.write
    {core : Core} (hiso : Isolated core) {write : Write}
    (hcontained : core.Contained (.write write)) :
    Isolated (core.next (.write write)) := by
  have hkept : ∀ task, core.scheduler.Registered task → ∀ address,
      (core.scheduler.tasks task).InStack address →
        ¬ (core.IsRunning task ∧
          ¬ (core.scheduler.tasks task).InCanary address) →
        write.perform core.memory address = core.memory address := by
    intro task hregistered address hstack hnot
    apply Write.perform_of_not_covers
    intro hcovers
    have haddress : write.start +
        UInt64.ofNat (address - write.start).toNat = address := by
      rw [UInt64.ofNat_toNat, UInt64.add_comm, UInt64.sub_add_cancel]
    have hcovered := hcontained task hregistered _ hcovers
    rw [haddress] at hcovered
    exact hnot (hcovered hstack)
  refine { hiso with intact := ?_, left_memory := ?_ }
  · intro task hregistered
    obtain ⟨hbase, hsize⟩ := canary_fits (hiso.valid task hregistered)
    refine Eq.trans ?_ (hiso.intact task hregistered)
    apply words_congr hbase
    intro address hcanary
    refine hkept task hregistered address ⟨hcanary.1, ?_⟩
      fun hcovered => hcovered.2 hcanary
    exact hcanary.2.trans_le (Nat.add_le_add_left hsize _)
  · intro task hregistered hidle address hstack
    refine Eq.trans ?_ (hiso.left_memory task hregistered hidle address hstack)
    exact hkept task hregistered address hstack
      fun hcovered => hidle hcovered.1

/-- The core with a task in an empty slot, its canary in place. -/
def register
    (core : Core) (created : Fin 16) (tcb : Tcb) (canaryValue : UInt64) :
    Core where
  scheduler :=
    { core.scheduler.setTask created { tcb with stackCanary := canaryValue } with
      readyBitmap := Bitmap.set core.scheduler.readyBitmap created.val }
  memory := (wordFormat.write tcb.stackBase canaryValue).perform core.memory
  running := core.running
  left task :=
    if task = created then
      ⟨tcb.rsp,
        (wordFormat.write tcb.stackBase canaryValue).perform core.memory⟩
    else
      core.left task

theorem createTask_cases
    (core : Core) (tcb : Tcb) (canaryValue : UInt64) :
    core.createTask tcb canaryValue = core ∨
      ∃ created, validStackPointer tcb tcb.rsp = true ∧
        ¬ core.scheduler.Registered created ∧
        core.createTask tcb canaryValue =
          core.register created tcb canaryValue := by
  rcases core.scheduler.createTask_cases tcb canaryValue (words core.memory)
    with hcreate | ⟨created, hpriority, hvalid, hfree, hcreate⟩
  · left
    simp only [createTask, hcreate]
  · refine Or.inr ⟨created, hvalid, hfree, ?_⟩
    simp only [createTask, hcreate, register, ← hpriority, Fin.val_inj]

section Register

variable {core : Core} {created task : Fin 16} {tcb : Tcb}
  {canaryValue : UInt64}

@[simp] theorem register_tasks_self :
    (core.register created tcb canaryValue).scheduler.tasks created =
      { tcb with stackCanary := canaryValue } :=
  PerCoreScheduler.setTask_tasks_self _ _ _

theorem register_tasks_of_ne (hne : task ≠ created) :
    (core.register created tcb canaryValue).scheduler.tasks task =
      core.scheduler.tasks task :=
  PerCoreScheduler.setTask_tasks_of_ne _ _ hne

theorem register_registered_of_ne (hne : task ≠ created) :
    (core.register created tcb canaryValue).scheduler.Registered task ↔
      core.scheduler.Registered task := by
  rw [PerCoreScheduler.Registered, register_tasks_of_ne hne,
    PerCoreScheduler.Registered]

theorem register_left_self :
    (core.register created tcb canaryValue).left created =
      ⟨tcb.rsp, (core.register created tcb canaryValue).memory⟩ :=
  if_pos rfl

theorem register_left_of_ne (hne : task ≠ created) :
    (core.register created tcb canaryValue).left task = core.left task :=
  if_neg hne

/-- Where the canary of the new task is written, nobody else has his stack. -/
theorem register_memory
    (hvalid : validStackPointer tcb tcb.rsp = true) {address : UInt64}
    (houtside : ¬ tcb.InStack address) :
    (core.register created tcb canaryValue).memory address =
      core.memory address := by
  obtain ⟨hbase, hsize⟩ := canary_fits hvalid
  apply write_of_not_inCanary hbase
  intro hcanary
  exact houtside ⟨hcanary.1,
    hcanary.2.trans_le (Nat.add_le_add_left hsize _)⟩

theorem Isolated.register
    (hiso : Isolated core)
    (hvalid : validStackPointer tcb tcb.rsp = true)
    (hfree : ¬ core.scheduler.Registered created)
    (hapart : ∀ task, core.scheduler.Registered task → ∀ address,
      tcb.InStack address →
        ¬ (core.scheduler.tasks task).InStack address) :
    Isolated (core.register created tcb canaryValue) := by
  have hbase := ((PerCoreScheduler.validStackPointer_iff tcb tcb.rsp).1
    hvalid).1
  have hregistered :
      (core.register created tcb canaryValue).scheduler.Registered
        created := by
    rw [PerCoreScheduler.Registered, register_tasks_self]
    exact hbase
  have hother : ∀ task, core.scheduler.Registered task →
      (core.register created tcb canaryValue).scheduler.Registered task := by
    intro task hold
    have hne : task ≠ created := by
      rintro rfl
      exact hfree hold
    exact (register_registered_of_ne hne).2 hold
  have hkept : ∀ task, core.scheduler.Registered task → ∀ address,
      (core.scheduler.tasks task).InStack address →
        (core.register created tcb canaryValue).memory address =
          core.memory address := by
    intro task hold address hstack
    exact register_memory hvalid fun hnew =>
      hapart task hold address hnew hstack
  constructor
  · exact hiso.current_lt
  · exact fun task hrunning => hother task (hiso.running task hrunning)
  · intro task hafter
    by_cases hsame : task = created
    · subst hsame
      rw [register_tasks_self]
      exact hvalid
    · rw [register_tasks_of_ne hsame]
      exact hiso.valid task ((register_registered_of_ne hsame).1 hafter)
  · intro task hafter
    by_cases hsame : task = created
    · subst hsame
      rw [register_tasks_self]
      exact words_write core.memory tcb.stackBase canaryValue
    · have hold := (register_registered_of_ne hsame).1 hafter
      obtain ⟨hfits, hsize⟩ := canary_fits (hiso.valid task hold)
      rw [register_tasks_of_ne hsame, ← hiso.intact task hold]
      apply words_congr hfits
      intro address hcanary
      exact hkept task hold address ⟨hcanary.1,
        hcanary.2.trans_le (Nat.add_le_add_left hsize _)⟩
  · intro task other htask hotherRegistered hne address
    by_cases hsame : task = created
    · subst hsame
      rw [register_tasks_self, register_tasks_of_ne (Ne.symm hne)]
      exact hapart other
        ((register_registered_of_ne (Ne.symm hne)).1 hotherRegistered) address
    · by_cases hnew : other = created
      · subst hnew
        rw [register_tasks_self, register_tasks_of_ne hsame]
        intro hstack hstackNew
        exact hapart task ((register_registered_of_ne hsame).1 htask) address
          hstackNew hstack
      · rw [register_tasks_of_ne hsame, register_tasks_of_ne hnew]
        exact hiso.apart task other
          ((register_registered_of_ne hsame).1 htask)
          ((register_registered_of_ne hnew).1 hotherRegistered) hne address
  · intro task hready
    rcases (Bitmap.getLsbD_set _ _ _).1 hready with hbefore | ⟨-, hsame⟩
    · exact hother task (hiso.ready task hbefore)
    · rw [← Fin.ext hsame]
      exact hregistered
  · intro task hempty
    have hne : task ≠ created := fun hsame => hempty (hsame ▸ hregistered)
    rw [register_tasks_of_ne hne]
    exact hiso.empty task (mt (register_registered_of_ne hne).2 hempty)
  · intro task hafter
    by_cases hsame : task = created
    · subst hsame
      rw [register_tasks_self, register_left_self]
    · rw [register_tasks_of_ne hsame, register_left_of_ne hsame]
      exact hiso.left_rsp task ((register_registered_of_ne hsame).1 hafter)
  · intro task hafter hidle address hstack
    by_cases hsame : task = created
    · subst hsame
      rw [register_left_self]
    · have hold := (register_registered_of_ne hsame).1 hafter
      rw [register_tasks_of_ne hsame] at hstack
      rw [hkept task hold address hstack, register_left_of_ne hsame]
      exact hiso.left_memory task hold hidle address hstack

end Register

theorem Isolated.createTask
    {core : Core} (hiso : Isolated core) {tcb : Tcb} {canaryValue : UInt64}
    (hcontained : core.Contained (.createTask tcb canaryValue)) :
    Isolated (core.next (.createTask tcb canaryValue)) := by
  rw [next]
  rcases core.createTask_cases tcb canaryValue
    with hsame | ⟨created, hvalid, hfree, hcreated⟩
  · rw [hsame]
    exact hiso
  · rw [hcreated]
    exact hiso.register hvalid hfree fun task hregistered _ hstack =>
      (hcontained task hregistered).not_inStack hstack

/-! ## The tick -/

section Tick

variable {core : Core} {currentRsp : UInt64}

/-- The current task passes its check. -/
theorem Isolated.not_currentFault
    (hiso : Isolated core)
    (hcontained : core.Contained (.scheduleTick currentRsp true)) :
    ¬ core.scheduler.CurrentFault currentRsp (words core.memory) := by
  rintro ⟨hcurrent, hrsp, hregistered, hcontext⟩
  obtain ⟨-, hboot, hvalid⟩ := hcontained
  cases hrunning : core.running with
  | false => exact hrsp (hboot hrunning)
  | true =>
      rw [contextOk, hvalid _ ⟨hrunning, rfl⟩,
        hiso.intact _ hregistered] at hcontext
      simp at hcontext

/-- The stack pointers after saving are still inside their stacks. -/
theorem Isolated.saveRsp_valid
    (hiso : Isolated core)
    (hcontained : core.Contained (.scheduleTick currentRsp true))
    {task : Fin 16} (hregistered : core.scheduler.Registered task) :
    validStackPointer ((core.scheduler.saveRsp currentRsp).tasks task)
      ((core.scheduler.saveRsp currentRsp).tasks task).rsp = true := by
  obtain ⟨-, hboot, hvalid⟩ := hcontained
  rw [PerCoreScheduler.saveRsp]
  dsimp only
  split_ifs with hsave
  · have hrunning : core.running = true := by
      by_contra hidle
      exact hsave.2.1 (hboot (Bool.eq_false_of_not_eq_true hidle))
    exact hvalid task ⟨hrunning, hsave.1⟩
  · exact hiso.valid task hregistered

theorem saveRsp_stackBase
    (scheduler : PerCoreScheduler) (currentRsp : UInt64) (task : Fin 16) :
    ((scheduler.saveRsp currentRsp).tasks task).stackBase =
        (scheduler.tasks task).stackBase ∧
      ((scheduler.saveRsp currentRsp).tasks task).stackSize =
        (scheduler.tasks task).stackSize ∧
      ((scheduler.saveRsp currentRsp).tasks task).stackCanary =
        (scheduler.tasks task).stackCanary := by
  rw [PerCoreScheduler.saveRsp]
  dsimp only
  split_ifs <;> exact ⟨rfl, rfl, rfl⟩

/-- The selected task passes its check, too. -/
theorem Isolated.not_selectedFault
    (hiso : Isolated core)
    (hcontained : core.Contained (.scheduleTick currentRsp true)) :
    ¬ (core.scheduler.saveRsp currentRsp).SelectedFault
      (words core.memory) := by
  rintro (⟨hready, hfree⟩ | ⟨hregistered, hcontext⟩)
  · rw [PerCoreScheduler.saveRsp_registered] at hfree
    exact hfree (hiso.ready _ hready)
  · rw [PerCoreScheduler.saveRsp_registered] at hregistered
    obtain ⟨hbase, -, hcanary⟩ := saveRsp_stackBase core.scheduler currentRsp
      (core.scheduler.saveRsp currentRsp).nextIdx
    rw [contextOk, hiso.saveRsp_valid hcontained hregistered, hbase, hcanary,
      hiso.intact _ hregistered] at hcontext
    simp at hcontext

/-- The scheduler after a tick without a fault. -/
def switched (core : Core) (currentRsp : UInt64) : PerCoreScheduler :=
  { core.scheduler.saveRsp currentRsp with
    watchdogMatrix :=
      if core.scheduler.WatchdogDue then 0#16
      else core.scheduler.watchdogMatrix
    currentTask := core.scheduler.nextIdx.val }

theorem Isolated.scheduleTick_eq
    (hiso : Isolated core)
    (hcontained : core.Contained (.scheduleTick currentRsp true)) :
    ∃ pets, core.scheduler.scheduleTick currentRsp (words core.memory) true =
      (core.switched currentRsp,
        ⟨some ((core.scheduler.saveRsp currentRsp).tasks
          core.scheduler.nextIdx).rsp, pets⟩) := by
  rw [PerCoreScheduler.scheduleTick_of_not_currentFault hiso.current_lt
      (hiso.not_currentFault hcontained),
    PerCoreScheduler.select_of_not_selectedFault
      (hiso.not_selectedFault hcontained),
    PerCoreScheduler.dispatch]
  by_cases hdue : core.scheduler.WatchdogDue
  · refine ⟨1, ?_⟩
    rw [if_pos (show (core.scheduler.saveRsp currentRsp).WatchdogDue
      from hdue), if_pos rfl, switched, if_pos hdue]
    rfl
  · refine ⟨0, ?_⟩
    rw [if_neg (show ¬ (core.scheduler.saveRsp currentRsp).WatchdogDue
      from hdue), switched, if_neg hdue]
    rfl

theorem saveRsp_inStack
    (scheduler : PerCoreScheduler) (currentRsp : UInt64) (task : Fin 16)
    (address : UInt64) :
    ((scheduler.saveRsp currentRsp).tasks task).InStack address ↔
      (scheduler.tasks task).InStack address := by
  obtain ⟨hbase, hsize, -⟩ := saveRsp_stackBase scheduler currentRsp task
  rw [Tcb.InStack, hbase, hsize, Tcb.InStack]

theorem saveRsp_validStackPointer
    (scheduler : PerCoreScheduler) (currentRsp : UInt64) (task : Fin 16)
    (rsp : UInt64) :
    validStackPointer ((scheduler.saveRsp currentRsp).tasks task) rsp =
      validStackPointer (scheduler.tasks task) rsp := by
  obtain ⟨hbase, hsize, -⟩ := saveRsp_stackBase scheduler currentRsp task
  rw [validStackPointer, hbase, hsize, validStackPointer]

/-- The tick saves the pointer of this task. -/
def Saves (core : Core) (currentRsp : UInt64) (task : Fin 16) : Prop :=
  core.scheduler.currentTask = task.val ∧ currentRsp ≠ 0 ∧
    core.scheduler.Registered task

instance decidableSaves
    (core : Core) (currentRsp : UInt64) (task : Fin 16) :
    Decidable (core.Saves currentRsp task) :=
  inferInstanceAs (Decidable (_ ∧ _ ∧ _))

theorem Isolated.contextOk_iff
    (hiso : Isolated core)
    (hcontained : core.Contained (.scheduleTick currentRsp true))
    (task : Fin 16) :
    core.scheduler.currentTask = task.val ∧ currentRsp ≠ 0 ∧
        contextOk (core.scheduler.tasks task) currentRsp
          (words core.memory) = true ↔
      core.Saves currentRsp task := by
  constructor
  · rintro ⟨hcurrent, hrsp, hcontext⟩
    exact ⟨hcurrent, hrsp, PerCoreScheduler.contextOk_registered hcontext⟩
  · rintro ⟨hcurrent, hrsp, hregistered⟩
    refine ⟨hcurrent, hrsp, ?_⟩
    by_contra hbad
    apply hiso.not_currentFault hcontained
    have htask : (⟨core.scheduler.currentTask, hiso.current_lt⟩ : Fin 16) =
        task := Fin.ext hcurrent
    refine ⟨hiso.current_lt, hrsp, ?_, ?_⟩
    · rwa [htask]
    · rw [htask]
      exact Bool.eq_false_of_not_eq_true hbad

/-- A running task is saved. -/
theorem Isolated.saves_of_isRunning
    (hiso : Isolated core)
    (hcontained : core.Contained (.scheduleTick currentRsp true))
    {task : Fin 16} (hrunning : core.IsRunning task) :
    core.Saves currentRsp task := by
  refine ⟨hrunning.2, ?_, hiso.running task hrunning⟩
  obtain ⟨-, -, -, -, hlower, -⟩ :=
    (PerCoreScheduler.validStackPointer_iff _ _).1
      (hcontained.2.2 task hrunning)
  rintro rfl
  simp at hlower

theorem Isolated.next_scheduleTick
    (hiso : Isolated core)
    (hcontained : core.Contained (.scheduleTick currentRsp true)) :
    core.next (.scheduleTick currentRsp true) =
      { core with
        scheduler := core.switched currentRsp
        running := decide (((core.scheduler.saveRsp currentRsp).tasks
          core.scheduler.nextIdx).rsp ≠ 0)
        left := fun task =>
          if core.Saves currentRsp task then ⟨currentRsp, core.memory⟩
          else core.left task } := by
  obtain ⟨pets, htick⟩ := hiso.scheduleTick_eq hcontained
  simp only [next, scheduleTick, htick, hiso.contextOk_iff hcontained,
    Option.getD_some]

theorem saveRsp_of_saves
    {task : Fin 16} (hsaves : core.Saves currentRsp task) :
    ((core.scheduler.saveRsp currentRsp).tasks task).rsp = currentRsp := by
  have htask : (core.scheduler.saveRsp currentRsp).tasks task =
      { core.scheduler.tasks task with rsp := currentRsp } := if_pos hsaves
  rw [htask]

theorem saveRsp_of_not_saves
    {task : Fin 16} (hsaves : ¬ core.Saves currentRsp task) :
    (core.scheduler.saveRsp currentRsp).tasks task =
      core.scheduler.tasks task :=
  if_neg hsaves

/-- After a tick every task has its stack as in its image. -/
theorem Isolated.left_memory_after
    (hiso : Isolated core)
    (hcontained : core.Contained (.scheduleTick currentRsp true))
    {task : Fin 16} (hregistered : core.scheduler.Registered task)
    {address : UInt64}
    (hstack : (core.scheduler.tasks task).InStack address) :
    core.memory address =
      ((core.next (.scheduleTick currentRsp true)).left task).memory
        address := by
  rw [hiso.next_scheduleTick hcontained]
  dsimp only
  split_ifs with hsaves
  · rfl
  · exact hiso.left_memory task hregistered
      (fun hrunning => hsaves (hiso.saves_of_isRunning hcontained hrunning))
      address hstack

theorem Isolated.left_rsp_after
    (hiso : Isolated core)
    (hcontained : core.Contained (.scheduleTick currentRsp true))
    {task : Fin 16} (hregistered : core.scheduler.Registered task) :
    ((core.next (.scheduleTick currentRsp true)).left task).rsp =
      ((core.scheduler.saveRsp currentRsp).tasks task).rsp := by
  rw [hiso.next_scheduleTick hcontained]
  dsimp only
  by_cases hsaves : core.Saves currentRsp task
  · rw [if_pos hsaves, saveRsp_of_saves hsaves]
  · rw [if_neg hsaves, saveRsp_of_not_saves hsaves]
    exact hiso.left_rsp task hregistered

/-- An empty slot is not resumed. -/
theorem Isolated.saveRsp_rsp_eq_zero
    (hiso : Isolated core) {task : Fin 16}
    (hfree : ¬ core.scheduler.Registered task) :
    ((core.scheduler.saveRsp currentRsp).tasks task).rsp = 0 := by
  rw [saveRsp_of_not_saves fun hsaves => hfree hsaves.2.2]
  exact hiso.empty task hfree

theorem Isolated.scheduleTick
    (hiso : Isolated core)
    (hcontained : core.Contained (.scheduleTick currentRsp true)) :
    Isolated (core.next (.scheduleTick currentRsp true)) := by
  have hregistered : ∀ task, (core.switched currentRsp).Registered task ↔
      core.scheduler.Registered task :=
    core.scheduler.saveRsp_registered currentRsp
  have hmemory : ∀ task, core.scheduler.Registered task → ∀ address,
      (core.scheduler.tasks task).InStack address →
        core.memory address =
          ((core.next (.scheduleTick currentRsp true)).left task).memory
            address :=
    fun _ hold _ hstack => hiso.left_memory_after hcontained hold hstack
  have hleft : ∀ task, core.scheduler.Registered task →
      ((core.next (.scheduleTick currentRsp true)).left task).rsp =
        ((core.scheduler.saveRsp currentRsp).tasks task).rsp :=
    fun _ hold => hiso.left_rsp_after hcontained hold
  rw [hiso.next_scheduleTick hcontained] at hmemory hleft ⊢
  constructor
  · exact core.scheduler.nextIdx.isLt
  · rintro task ⟨hrunning, hcurrent⟩
    rw [hregistered, ← Fin.ext hcurrent]
    by_contra hfree
    rw [hiso.saveRsp_rsp_eq_zero hfree] at hrunning
    simp at hrunning
  · intro task hold
    exact hiso.saveRsp_valid hcontained ((hregistered task).1 hold)
  · intro task hold
    obtain ⟨hbase, -, hcanary⟩ :=
      saveRsp_stackBase core.scheduler currentRsp task
    change words core.memory
        ((core.scheduler.saveRsp currentRsp).tasks task).stackBase =
      ((core.scheduler.saveRsp currentRsp).tasks task).stackCanary
    rw [hbase, hcanary]
    exact hiso.intact task ((hregistered task).1 hold)
  · intro task other hold hother hne address hstack hotherStack
    exact hiso.apart task other ((hregistered task).1 hold)
      ((hregistered other).1 hother) hne address
      ((saveRsp_inStack _ _ _ _).1 hstack)
      ((saveRsp_inStack _ _ _ _).1 hotherStack)
  · exact fun task hready => (hregistered task).2 (hiso.ready task hready)
  · exact fun task hfree =>
      hiso.saveRsp_rsp_eq_zero (mt (hregistered task).2 hfree)
  · exact fun task hold => hleft task ((hregistered task).1 hold)
  · intro task hold _ address hstack
    exact hmemory task ((hregistered task).1 hold) address
      ((saveRsp_inStack _ _ _ _).1 hstack)

end Tick

/-! ## Whole runs -/

theorem Isolated.step
    {core after : Core} {action : Action} (hiso : Isolated core)
    (hcontained : core.Contained action)
    (hstep : core.step action = some after) : Isolated after := by
  cases hstep
  cases action with
  | createTask tcb canaryValue => exact hiso.createTask hcontained
  | setReady priority => exact hiso.setReady hcontained
  | clearReady priority => exact hiso.clearReady priority
  | taskCheckIn priority => exact hiso.taskCheckIn priority
  | setCriticalTaskMask criticalTaskMask =>
      exact hiso.reschedule rfl rfl hiso.ready
  | scheduleTick currentRsp petCallback =>
      obtain rfl : petCallback = true := hcontained.1
      exact hiso.scheduleTick hcontained
  | write write => exact hiso.write hcontained

/-- In every run in which the host keeps to the contract, a tick goes to the
lowest ready task and returns the stack pointer with which the task was left,
inside its stack; every byte of the stack is as it was then.  Without a ready
task the idle slot is selected in the same way, and if it is empty the tick
returns zero. -/
theorem contained_tasks_are_resumed_intact
    {memory : Memory} {schedule : List Action}
    (hwithin : RunWithin step Contained (boot memory) schedule)
    {transition : Transition Core Action}
    (hmem : transition ∈ transitions step (boot memory) schedule)
    {currentRsp : UInt64} {petCallback : Bool}
    (haction : transition.action = .scheduleTick currentRsp petCallback) :
    ∃ task, transition.before.scheduler.LowestReady task ∧
      transition.after.scheduler.currentTask = task.val ∧
      transition.after.memory = transition.before.memory ∧
      (transition.before.scheduler.Registered task ∧
        (transition.before.scheduleTick currentRsp petCallback).2.returned =
          some (transition.after.left task).rsp ∧
        validStackPointer (transition.before.scheduler.tasks task)
          (transition.after.left task).rsp = true ∧
        (∀ address,
          (transition.before.scheduler.tasks task).InStack address →
            transition.after.memory address =
              (transition.after.left task).memory address) ∨
      ¬ transition.before.scheduler.Registered task ∧
        transition.before.scheduler.readyBitmap = 0#16 ∧
        (transition.before.scheduleTick currentRsp petCallback).2.returned =
          some 0) := by
  obtain ⟨hiso, -⟩ := transitions_invariant_within
    (fun _ _ _ hiso hcontained hstep => hiso.step hcontained hstep)
    (boot_isolated memory) hwithin hmem
  have hcontained := allowed_of_mem_transitions hwithin hmem
  have hafter := Option.some.inj (step_of_mem_transitions hmem)
  rw [haction] at hcontained hafter
  obtain rfl : petCallback = true := hcontained.1
  obtain ⟨pets, htick⟩ := hiso.scheduleTick_eq hcontained
  have hreturned :
      (transition.before.scheduleTick currentRsp true).2.returned =
        some ((transition.before.scheduler.saveRsp currentRsp).tasks
          transition.before.scheduler.nextIdx).rsp := by
    simp only [Core.scheduleTick, htick]
  refine ⟨transition.before.scheduler.nextIdx,
    transition.before.scheduler.nextIdx_lowestReady, ?_, ?_, ?_⟩
  · rw [← hafter, hiso.next_scheduleTick hcontained]
    rfl
  · rw [← hafter, hiso.next_scheduleTick hcontained]
  · by_cases hregistered : transition.before.scheduler.Registered
        transition.before.scheduler.nextIdx
    · refine Or.inl ⟨hregistered, ?_, ?_, ?_⟩
      · rw [hreturned, ← hafter, hiso.left_rsp_after hcontained hregistered]
      · rw [← hafter, hiso.left_rsp_after hcontained hregistered,
          ← saveRsp_validStackPointer _ currentRsp]
        exact hiso.saveRsp_valid hcontained hregistered
      · intro address hstack
        rw [← hafter, ← hiso.left_memory_after hcontained hregistered hstack,
          hiso.next_scheduleTick hcontained]
    · refine Or.inr ⟨hregistered, ?_, ?_⟩
      · by_contra hready
        exact hregistered (hiso.ready _
          (transition.before.scheduler.nextIdx_of_ready hready).1)
      · rw [hreturned, hiso.saveRsp_rsp_eq_zero hregistered]

/-- Two tasks: the one at priority two runs and writes to its stack, blocks,
and is ready again after the one at priority three has written to its own. -/
def switches : List Action :=
  [.createTask (Tcb.newTask 1 128 128 200 3) 9,
    .createTask (Tcb.newTask 1 64 64 96 2) 7,
    .scheduleTick 0 true, .write ⟨80, [1, 2, 3]⟩, .clearReady 2,
    .scheduleTick 104 true, .write ⟨144, [4, 5]⟩, .setReady 2,
    .scheduleTick 240 true]

theorem switches_contained :
    RunWithin step Contained (boot fun _ => 0) switches := by
  decide +kernel

theorem contained_tasks_are_resumed_intact_after_switches :
    ∃ transition ∈ transitions step (boot fun _ => 0) switches,
      transition.action = .scheduleTick 240 true ∧
      (transition.before.scheduleTick 240 true).2.returned = some 104 ∧
      transition.after.memory 81 = (transition.after.left 2).memory 81 ∧
      (transition.after.left 2).memory 81 = 2 := by
  have hlast : ∃ transition ∈ transitions step (boot fun _ => 0) switches,
      transition.action = .scheduleTick 240 true ∧
      transition.after.scheduler.currentTask = 2 ∧
      transition.before.scheduler.Registered 2 ∧
      (transition.before.scheduler.tasks 2).InStack 81 ∧
      (transition.after.left 2).rsp = 104 ∧
      (transition.after.left 2).memory 81 = 2 := by
    refine ⟨_, List.mem_of_getElem? (i := 8) rfl, rfl, ?_, ?_, ?_, ?_, ?_⟩
    · decide +kernel
    · decide +kernel
    · decide +kernel
    · decide +kernel
    · decide +kernel
  obtain ⟨transition, hmem, haction, hcurrent, hregistered, hstack, hrsp,
    hbyte⟩ := hlast
  obtain ⟨task, -, hsame, -, hresumed⟩ :=
    contained_tasks_are_resumed_intact switches_contained hmem haction
  obtain rfl : task = 2 := Fin.ext (hsame.symm.trans hcurrent)
  rcases hresumed with ⟨-, hreturned, -, hintact⟩ | ⟨hfree, -⟩
  · rw [hrsp] at hreturned
    exact ⟨transition, hmem, haction, hreturned, hintact 81 hstack, hbyte⟩
  · exact absurd hregistered hfree

end Core
end ShawnCore.Rtos
