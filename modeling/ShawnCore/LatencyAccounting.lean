import ShawnCore.LatencyTracker

/-!
# The measurements of the latency tracker

Whatever the threads do, every latency lies between a time passed to
`mark_start` and a later one passed to `mark_end`, no start is measured twice,
and once all calls have returned the counters hold exactly the latencies
measured.  With one owner, which the tracker asks for, these are the latencies
of its calls in order.
-/

namespace ShawnCore

open Execution CasLoop InFlight

namespace LatencyTracker

variable {τ : Type}

/-! ## The counters -/

/-- The counters hold the latencies entered in them, and every latency has used
up a start. -/
structure Counted (tracker : LatencyTracker τ) : Prop where
  max_ge : ∀ latency ∈ tracker.maximised, latency ≤ tracker.maxLatency
  max_mem : tracker.maxLatency = 0 ∨
    tracker.maxLatency ∈ tracker.maximised
  total_eq : tracker.totalLatency.toNat =
    min (2 ^ 64 - 1) (tracker.totalled.map UInt64.toNat).sum
  samples_eq : tracker.samples = UInt64.ofNat tracker.sampled.card
  starts_ge : tracker.measured.length + tracker.started.toNat ≤
    tracker.starts

theorem counted_new : Counted (new : LatencyTracker τ) where
  max_ge := by simp [new]
  max_mem := Or.inl rfl
  total_eq := rfl
  samples_eq := rfl
  starts_ge := Nat.le_refl 0

theorem Counted.enterMax
    {tracker : LatencyTracker τ} (hcounted : Counted tracker)
    (delta : UInt64) :
    (∀ latency ∈ tracker.maximised + {delta},
        latency ≤ greater tracker.maxLatency delta) ∧
      (greater tracker.maxLatency delta = 0 ∨
        greater tracker.maxLatency delta ∈ tracker.maximised + {delta}) := by
  obtain ⟨hcurrent, hdelta⟩ := le_greater tracker.maxLatency delta
  constructor
  · intro latency hmem
    rcases Multiset.mem_add.mp hmem with hold | hnew
    · exact UInt64.le_trans (hcounted.max_ge latency hold) hcurrent
    · rwa [Multiset.mem_singleton.mp hnew]
  · unfold greater
    split_ifs with hlt
    · exact Or.inr (by simp)
    · exact hcounted.max_mem.imp_right fun hmem =>
        Multiset.mem_add.mpr (Or.inl hmem)

section Runs

variable [DecidableEq τ]

theorem Counted.step
    {tracker next : LatencyTracker τ} {action : Action τ}
    (hcounted : Counted tracker)
    (hstep : LatencyTracker.step tracker action = some next) :
    Counted next := by
  cases step_trackerStep hstep with
  | startedStored thread spurious hpc =>
      refine { hcounted with starts_ge := ?_ }
      have hle := hcounted.starts_ge
      simp only [goto_measured, Bool.toNat_true]
      omega
  | called thread call hpc
  | timeStored thread spurious timestamp hpc
  | sawStopped thread spurious timestamp hpc hstarted
  | sawStarted thread spurious timestamp hpc hstarted
  | backwards thread spurious timestamp hpc hbackwards
  | sawTime thread spurious timestamp hpc hforwards
  | lost thread spurious timestamp start hpc hstarted
  | retriedMax thread spurious loop later hpc hitem
  | retriedTotal thread spurious loop later hpc hitem =>
      exact { hcounted with }
  | consumed thread spurious timestamp start hpc hstarted =>
      refine { hcounted with starts_ge := ?_ }
      have hle := hcounted.starts_ge
      rw [hstarted, Bool.toNat_true] at hle
      simpa using hle
  | maximised thread spurious loop hpc =>
      obtain ⟨hge, hmem⟩ := hcounted.enterMax loop.item
      exact { hcounted with max_ge := hge, max_mem := hmem }
  | totalled thread spurious loop hpc =>
      refine { hcounted with total_eq := ?_ }
      have htotal := hcounted.total_eq
      simp only [saturatingAdd_toNat, Multiset.map_add, Multiset.sum_add,
        Multiset.map_singleton, Multiset.sum_singleton]
      omega
  | sampled thread spurious delta hpc =>
      refine { hcounted with samples_eq := ?_ }
      simp only [hcounted.samples_eq, Multiset.card_add,
        Multiset.card_singleton, UInt64.ofNat_add]
      rfl

/-! ## The latencies on their way -/

def Call.isStart : Call → Bool
  | .markStart _ => true
  | .markEnd _ => false

def beforeStarted : Pc → Multiset Unit
  | .storeTime _ | .storeStarted => {()}
  | .idle | .loadStarted _ | .loadTime _ | .swapStarted _ _
  | .updateMax _ | .updateTotal _ | .addSample _ => 0

def beforeMax : Pc → Multiset UInt64
  | .updateMax loop => {loop.item}
  | _ => 0

def beforeTotal : Pc → Multiset UInt64
  | .updateMax loop | .updateTotal loop => {loop.item}
  | _ => 0

def beforeSample : Pc → Multiset UInt64
  | .updateMax loop | .updateTotal loop => {loop.item}
  | .addSample delta => {delta}
  | _ => 0

variable [Fintype τ]

/-- A call of `mark_start` has set `started` or is about to, and a latency is
in each counter or in the hands of a thread. -/
structure Balanced (tracker : LatencyTracker τ) : Prop where
  starts : Conserved beforeStarted
    (Multiset.replicate (tracker.calls.countP Call.isStart) ())
    (Multiset.replicate tracker.starts ()) tracker.pc
  maximised : Conserved beforeMax
    tracker.measured tracker.maximised tracker.pc
  totalled : Conserved beforeTotal
    tracker.measured tracker.totalled tracker.pc
  sampled : Conserved beforeSample
    tracker.measured tracker.sampled tracker.pc

omit [DecidableEq τ] in
theorem balanced_new : Balanced (new : LatencyTracker τ) := by
  constructor <;> simp [Conserved, pending, new, beforeStarted, beforeMax,
    beforeTotal, beforeSample]

/-- A thread which carries the same before and after leaves the balance as it
is. -/
theorem Balanced.goto
    {tracker : LatencyTracker τ} (hbalanced : Balanced tracker)
    {thread : τ} {before pc : Pc} (hpc : tracker.pc thread = before)
    (hstarts : beforeStarted before = beforeStarted pc)
    (hmax : beforeMax before = beforeMax pc)
    (htotal : beforeTotal before = beforeTotal pc)
    (hsample : beforeSample before = beforeSample pc) :
    Balanced (tracker.goto thread pc) :=
  ⟨hbalanced.starts.move hpc hstarts, hbalanced.maximised.move hpc hmax,
    hbalanced.totalled.move hpc htotal, hbalanced.sampled.move hpc hsample⟩

theorem Balanced.called
    {tracker : LatencyTracker τ} (hbalanced : Balanced tracker)
    {thread : τ} (hpc : tracker.pc thread = .idle) (call : Call) :
    Balanced { tracker.goto thread call.entry with
      calls := tracker.calls ++ [call] } := by
  cases call with
  | markStart timestamp =>
      refine ⟨?_, hbalanced.maximised.move hpc rfl,
        hbalanced.totalled.move hpc rfl,
        hbalanced.sampled.move hpc rfl⟩
      have hcount : (tracker.calls ++ [Call.markStart timestamp]).countP
          Call.isStart = tracker.calls.countP Call.isStart + 1 := by
        simp [Call.isStart]
      rw [hcount, Multiset.replicate_add]
      exact hbalanced.starts.enter hpc rfl
  | markEnd timestamp =>
      have hcount : (tracker.calls ++ [Call.markEnd timestamp]).countP
          Call.isStart = tracker.calls.countP Call.isStart := by
        simp [Call.isStart]
      refine ⟨?_, hbalanced.maximised.move hpc rfl,
        hbalanced.totalled.move hpc rfl,
        hbalanced.sampled.move hpc rfl⟩
      rw [hcount]
      exact hbalanced.starts.move hpc rfl

theorem Balanced.step
    {tracker next : LatencyTracker τ} {action : Action τ}
    (hbalanced : Balanced tracker)
    (hstep : LatencyTracker.step tracker action = some next) :
    Balanced next := by
  cases step_trackerStep hstep with
  | called thread call hpc => exact hbalanced.called hpc call
  | timeStored thread spurious timestamp hpc =>
      exact ⟨hbalanced.starts.move hpc rfl,
        hbalanced.maximised.move hpc rfl,
        hbalanced.totalled.move hpc rfl,
        hbalanced.sampled.move hpc rfl⟩
  | startedStored thread spurious hpc =>
      refine ⟨?_, hbalanced.maximised.move hpc rfl,
        hbalanced.totalled.move hpc rfl,
        hbalanced.sampled.move hpc rfl⟩
      simp only [Multiset.replicate_add]
      exact hbalanced.starts.leave hpc rfl
  | sawStopped thread spurious timestamp hpc hstarted
  | sawStarted thread spurious timestamp hpc hstarted
  | backwards thread spurious timestamp hpc hbackwards
  | sawTime thread spurious timestamp hpc hforwards
  | lost thread spurious timestamp start hpc hstarted =>
      exact hbalanced.goto hpc rfl rfl rfl rfl
  | retriedMax thread spurious loop later hpc hitem
  | retriedTotal thread spurious loop later hpc hitem =>
      apply hbalanced.goto hpc <;>
        simp only [beforeStarted, beforeMax, beforeTotal, beforeSample, hitem]
  | consumed thread spurious timestamp start hpc hstarted =>
      have hmeasured : (↑(tracker.measured ++ [timestamp - start]) :
          Multiset UInt64) = ↑tracker.measured + {timestamp - start} := by
        rw [← Multiset.coe_add, Multiset.coe_singleton]
      refine ⟨hbalanced.starts.move hpc rfl, ?_, ?_, ?_⟩
      · rw [hmeasured]
        exact hbalanced.maximised.enter hpc rfl
      · rw [hmeasured]
        exact hbalanced.totalled.enter hpc rfl
      · rw [hmeasured]
        exact hbalanced.sampled.enter hpc rfl
  | maximised thread spurious loop hpc =>
      exact ⟨hbalanced.starts.move hpc rfl,
        hbalanced.maximised.leave hpc rfl,
        hbalanced.totalled.move hpc rfl,
        hbalanced.sampled.move hpc rfl⟩
  | totalled thread spurious loop hpc =>
      exact ⟨hbalanced.starts.move hpc rfl,
        hbalanced.maximised.move hpc rfl,
        hbalanced.totalled.leave hpc rfl,
        hbalanced.sampled.move hpc rfl⟩
  | sampled thread spurious delta hpc =>
      exact ⟨hbalanced.starts.move hpc rfl,
        hbalanced.maximised.move hpc rfl,
        hbalanced.totalled.move hpc rfl,
        hbalanced.sampled.leave hpc rfl⟩

/-- What the counters hold once the latencies have arrived. -/
structure Exact (tracker : LatencyTracker τ) : Prop where
  max_ge : ∀ latency ∈ tracker.measured, latency ≤ tracker.maxLatency
  max_mem : tracker.maxLatency = 0 ∨ tracker.maxLatency ∈ tracker.measured
  total_eq : tracker.totalLatency.toNat =
    min (2 ^ 64 - 1) (tracker.measured.map UInt64.toNat).sum
  samples_eq : tracker.samples = UInt64.ofNat tracker.measured.length

def Quiet (tracker : LatencyTracker τ) : Prop :=
  ∀ thread, tracker.pc thread = .idle

omit [DecidableEq τ] in
theorem Balanced.exact
    {tracker : LatencyTracker τ} (hbalanced : Balanced tracker)
    (hcounted : Counted tracker) (hquiet : tracker.Quiet) :
    tracker.Exact := by
  have hmax : (tracker.measured : Multiset UInt64) = tracker.maximised :=
    hbalanced.maximised.of_idle fun thread => by rw [hquiet thread]; rfl
  have htotal : (tracker.measured : Multiset UInt64) = tracker.totalled :=
    hbalanced.totalled.of_idle fun thread => by rw [hquiet thread]; rfl
  have hsampled : (tracker.measured : Multiset UInt64) = tracker.sampled :=
    hbalanced.sampled.of_idle fun thread => by rw [hquiet thread]; rfl
  constructor
  · intro latency hmem
    exact hcounted.max_ge latency (hmax ▸ Multiset.mem_coe.mpr hmem)
  · have hmem := hcounted.max_mem
    rwa [← hmax, Multiset.mem_coe] at hmem
  · rw [hcounted.total_eq, ← htotal, Multiset.map_coe, Multiset.sum_coe]
  · rw [hcounted.samples_eq, ← hsampled, Multiset.coe_card]

omit [DecidableEq τ] in
theorem Balanced.starts_le
    {tracker : LatencyTracker τ} (hbalanced : Balanced tracker) :
    tracker.starts ≤ tracker.calls.countP Call.isStart := by
  have hcard := congrArg Multiset.card hbalanced.starts
  rw [Multiset.card_add, Multiset.card_replicate,
    Multiset.card_replicate] at hcard
  omega

omit [Fintype τ] in
theorem counted_of_run
    {schedule : List (Action τ)} {final : LatencyTracker τ}
    (hrun : run step new schedule = some final) : Counted final :=
  run_invariant (fun _ _ _ hcounted hstep => hcounted.step hstep)
    counted_new hrun

theorem balanced_of_run
    {schedule : List (Action τ)} {final : LatencyTracker τ}
    (hrun : run step new schedule = some final) : Balanced final :=
  run_invariant (fun _ _ _ hbalanced hstep => hbalanced.step hstep)
    balanced_new hrun

end Runs

/-! ## Where a latency comes from -/

/-- The time from a call of `mark_start` to one of `mark_end`. -/
def Interval (calls : List Call) (latency : UInt64) : Prop :=
  ∃ start stop, .markStart start ∈ calls ∧ .markEnd stop ∈ calls ∧
    start ≤ stop ∧ latency = stop - start

/-- The times which a thread holds were passed to calls. -/
def Pc.Sourced (calls : List Call) (startTime : UInt64) : Pc → Prop
  | .storeTime timestamp => .markStart timestamp ∈ calls
  | .storeStarted => .markStart startTime ∈ calls
  | .loadStarted timestamp => .markEnd timestamp ∈ calls
  | .loadTime timestamp =>
      .markEnd timestamp ∈ calls ∧ .markStart startTime ∈ calls
  | .swapStarted timestamp start =>
      .markEnd timestamp ∈ calls ∧ .markStart start ∈ calls ∧
        start ≤ timestamp
  | .idle | .updateMax _ | .updateTotal _ | .addSample _ => True

structure Sourced (tracker : LatencyTracker τ) : Prop where
  started : tracker.started = true →
    .markStart tracker.startTime ∈ tracker.calls
  pcs : ∀ thread,
    (tracker.pc thread).Sourced tracker.calls tracker.startTime
  measured : ∀ latency ∈ tracker.measured,
    Interval tracker.calls latency

theorem sourced_new : Sourced (new : LatencyTracker τ) where
  started hstarted := by cases hstarted
  pcs _ := trivial
  measured := by simp [new]

theorem Interval.mono
    {calls more : List Call} {latency : UInt64}
    (hinterval : Interval calls latency) (hmore : calls ⊆ more) :
    Interval more latency := by
  obtain ⟨start, stop, hstart, hstop, hle, hlatency⟩ := hinterval
  exact ⟨start, stop, hmore hstart, hmore hstop, hle, hlatency⟩

theorem Pc.Sourced.mono
    {calls more : List Call} {startTime later : UInt64} {pc : Pc}
    (hsourced : pc.Sourced calls startTime) (hmore : calls ⊆ more)
    (hlater : .markStart startTime ∈ calls → .markStart later ∈ more) :
    pc.Sourced more later := by
  cases pc with
  | storeTime timestamp => exact hmore hsourced
  | storeStarted => exact hlater hsourced
  | loadStarted timestamp => exact hmore hsourced
  | loadTime timestamp => exact ⟨hmore hsourced.1, hlater hsourced.2⟩
  | swapStarted timestamp start =>
      exact ⟨hmore hsourced.1, hmore hsourced.2.1, hsourced.2.2⟩
  | _ => trivial

section Origins

variable [DecidableEq τ]

/-- A step keeps the origins when the thread which takes it does. -/
theorem Sourced.update
    {tracker next : LatencyTracker τ} {thread : τ} {pc : Pc}
    (hsourced : Sourced tracker)
    (hpc : next.pc = Function.update tracker.pc thread pc)
    (hmore : tracker.calls ⊆ next.calls)
    (hlater : .markStart tracker.startTime ∈ tracker.calls →
      .markStart next.startTime ∈ next.calls)
    (hthread : pc.Sourced next.calls next.startTime)
    (hstarted : next.started = true → tracker.started = true ∨
      .markStart next.startTime ∈ next.calls)
    (hmeasured : ∀ latency ∈ next.measured,
      latency ∈ tracker.measured ∨ Interval next.calls latency) :
    Sourced next where
  started hnext := (hstarted hnext).elim
    (fun hbefore => hlater (hsourced.started hbefore)) id
  pcs other := by
    rw [hpc]
    by_cases hother : other = thread
    · subst hother
      rwa [Function.update_self]
    · rw [Function.update_of_ne hother]
      exact (hsourced.pcs other).mono hmore hlater
  measured latency hmem := (hmeasured latency hmem).elim
    (fun hbefore => (hsourced.measured latency hbefore).mono hmore) id

theorem Sourced.goto
    {tracker : LatencyTracker τ} (hsourced : Sourced tracker)
    (thread : τ) {pc : Pc}
    (hthread : pc.Sourced tracker.calls tracker.startTime) :
    Sourced (tracker.goto thread pc) :=
  hsourced.update rfl (List.Subset.refl _) id hthread Or.inl
    fun _ => Or.inl

theorem Sourced.step
    {tracker next : LatencyTracker τ} {action : Action τ}
    (hsourced : Sourced tracker)
    (hstep : LatencyTracker.step tracker action = some next) :
    Sourced next := by
  cases step_trackerStep hstep with
  | called thread call hpc =>
      have hmore : tracker.calls ⊆ tracker.calls ++ [call] :=
        List.subset_append_left _ _
      refine hsourced.update rfl hmore (fun hmem => hmore hmem) ?_ Or.inl
        fun _ => Or.inl
      cases call <;> simp [Call.entry, Pc.Sourced]
  | timeStored thread spurious timestamp hpc =>
      have hthread := hsourced.pcs thread
      rw [hpc] at hthread
      exact hsourced.update rfl (List.Subset.refl _) (fun _ => hthread)
        hthread Or.inl fun _ => Or.inl
  | startedStored thread spurious hpc =>
      have hthread := hsourced.pcs thread
      rw [hpc] at hthread
      exact hsourced.update rfl (List.Subset.refl _) id trivial
        (fun _ => Or.inr hthread) fun _ => Or.inl
  | sawStarted thread spurious timestamp hpc hstarted =>
      have hthread := hsourced.pcs thread
      rw [hpc] at hthread
      exact hsourced.goto thread ⟨hthread, hsourced.started hstarted⟩
  | sawTime thread spurious timestamp hpc hforwards =>
      have hthread := hsourced.pcs thread
      rw [hpc] at hthread
      exact hsourced.goto thread
        ⟨hthread.1, hthread.2, UInt64.not_lt.mp hforwards⟩
  | sawStopped thread spurious timestamp hpc hstarted
  | backwards thread spurious timestamp hpc hbackwards
  | lost thread spurious timestamp start hpc hstarted
  | retriedMax thread spurious loop later hpc hitem
  | retriedTotal thread spurious loop later hpc hitem =>
      exact hsourced.goto thread trivial
  | consumed thread spurious timestamp start hpc hstarted =>
      have hthread := hsourced.pcs thread
      rw [hpc] at hthread
      refine hsourced.update rfl (List.Subset.refl _) id trivial
        (fun hfalse => by cases hfalse) ?_
      intro latency hmem
      rcases List.mem_append.mp hmem with hbefore | hnew
      · exact Or.inl hbefore
      · exact Or.inr ⟨start, timestamp, hthread.2.1, hthread.1,
          hthread.2.2, List.mem_singleton.mp hnew⟩
  | maximised thread spurious loop hpc
  | totalled thread spurious loop hpc
  | sampled thread spurious delta hpc =>
      exact hsourced.update rfl (List.Subset.refl _) id trivial Or.inl
        fun _ => Or.inl

theorem sourced_of_run
    {schedule : List (Action τ)} {final : LatencyTracker τ}
    (hrun : run step new schedule = some final) : Sourced final :=
  run_invariant (fun _ _ _ hsourced hstep => hsourced.step hstep)
    sourced_new hrun

/-- In every run, with any number of threads calling at once, each latency is
the time between a `mark_start` and a `mark_end`, there are no more of them
than calls of `mark_start`, and when all calls have returned the counters are
exact. -/
theorem latencies_accounted [Fintype τ]
    (schedule : List (Action τ)) (final : LatencyTracker τ)
    (hrun : run step new schedule = some final) :
    (∀ latency ∈ final.measured, Interval final.calls latency) ∧
      final.measured.length ≤ final.calls.countP Call.isStart ∧
      (final.Quiet → final.Exact) := by
  have hcounted := counted_of_run hrun
  have hbalanced := balanced_of_run hrun
  refine ⟨(sourced_of_run hrun).measured, ?_,
    hbalanced.exact hcounted⟩
  have hstarts := hcounted.starts_ge
  have hcalls := hbalanced.starts_le
  omega

/-- A backwards `mark_end`, and two which race for one start while a second
start overtakes them. -/
def raceSchedule : List (Action Bool) :=
  [.call false (.markStart 100), .step false false, .step false false,
    .call true (.markEnd 90), .step true false, .step true false,
    .call false (.markEnd 103), .call true (.markEnd 107),
    .step false false, .step true false, .step false false,
    .step true false, .step false false, .step true false,
    .step false false, .call true (.markStart 200), .step true false,
    .step false true, .step true false, .call true (.markEnd 205),
    .step true false, .step true false, .step true false,
    .step true false, .step true false, .step false false,
    .step false false, .step true false, .step true false,
    .step false false, .step false false, .step true false,
    .step false false]

def raceFinal : LatencyTracker Bool :=
  (run step new raceSchedule).getD new

theorem raceFinal_eq : run step new raceSchedule = some raceFinal := rfl

theorem raceFinal_quiet : raceFinal.Quiet := by
  intro thread
  cases thread <;> rfl

theorem latencies_accounted_race :
    raceFinal.measured = [3, 5] ∧ raceFinal.maxLatency = 5 ∧
      (∀ latency ∈ raceFinal.measured,
        Interval raceFinal.calls latency) ∧
      raceFinal.measured.length ≤ raceFinal.calls.countP Call.isStart ∧
      raceFinal.Exact := by
  obtain ⟨hinterval, hstarts, hexact⟩ :=
    latencies_accounted raceSchedule raceFinal raceFinal_eq
  exact ⟨rfl, rfl, hinterval, hstarts, hexact raceFinal_quiet⟩

end Origins

/-! ## One owner -/

/-- What the calls of one owner have measured: the start which is active, and
the latencies. -/
structure Measurement where
  active : Option UInt64
  measured : List UInt64
deriving DecidableEq

def Measurement.after (measurement : Measurement) : Call → Measurement
  | .markStart timestamp => { measurement with active := some timestamp }
  | .markEnd timestamp =>
      match measurement.active with
      | none => measurement
      | some start =>
          if timestamp < start then
            measurement
          else
            ⟨none, measurement.measured ++ [timestamp - start]⟩

def measurements (calls : List Call) : Measurement :=
  calls.foldl Measurement.after ⟨none, []⟩

theorem measurements_append (calls : List Call) (call : Call) :
    measurements (calls ++ [call]) = (measurements calls).after call := by
  simp [measurements]

def measurement (tracker : LatencyTracker τ) : Measurement where
  active := if tracker.started then some tracker.startTime else none
  measured := tracker.measured

/-- A call which has not yet had its effect, after the calls before it. -/
def InCall (tracker : LatencyTracker τ) (call : Call) : Prop :=
  ∃ calls, tracker.calls = calls ++ [call] ∧
    tracker.measurement = measurements calls

/-- What holds of the tracker while its owner is at `pc`. -/
def Owned (tracker : LatencyTracker τ) : Pc → Prop
  | .storeTime timestamp => tracker.InCall (.markStart timestamp)
  | .storeStarted => ∃ calls,
      tracker.calls = calls ++ [.markStart tracker.startTime] ∧
        tracker.measured = (measurements calls).measured
  | .loadStarted timestamp => tracker.InCall (.markEnd timestamp)
  | .loadTime timestamp =>
      tracker.InCall (.markEnd timestamp) ∧ tracker.started = true
  | .swapStarted timestamp start =>
      tracker.InCall (.markEnd timestamp) ∧ tracker.started = true ∧
        start = tracker.startTime ∧ ¬ timestamp < start
  | .idle | .updateMax _ | .updateTotal _ | .addSample _ =>
      tracker.measurement = measurements tracker.calls

/-- At most one thread is in a call. -/
structure Serial (tracker : LatencyTracker τ) : Prop where
  quiet : tracker.Quiet →
    tracker.measurement = measurements tracker.calls
  busy : ∀ thread, tracker.pc thread ≠ .idle →
    (∀ other, other ≠ thread → tracker.pc other = .idle) ∧
      tracker.Owned (tracker.pc thread)

/-- A call begins only when none is in progress. -/
def OneOwner (tracker : LatencyTracker τ) : Action τ → Prop
  | .call _ _ => tracker.Quiet
  | .step _ _ => True

instance decidableOneOwner [Fintype τ]
    (tracker : LatencyTracker τ) (action : Action τ) :
    Decidable (tracker.OneOwner action) :=
  match action with
  | .call _ _ =>
      inferInstanceAs (Decidable (∀ thread, tracker.pc thread = .idle))
  | .step _ _ => inferInstanceAs (Decidable True)

theorem serial_new : Serial (new : LatencyTracker τ) where
  quiet _ := rfl
  busy _ hbusy := absurd rfl hbusy

theorem InCall.ended
    {tracker : LatencyTracker τ} {timestamp : UInt64}
    (hcall : tracker.InCall (.markEnd timestamp))
    (hrefused : ∀ start, tracker.measurement.active = some start →
      timestamp < start) :
    tracker.measurement = measurements tracker.calls := by
  obtain ⟨calls, hcalls, hmeasurement⟩ := hcall
  rw [hcalls, measurements_append, ← hmeasurement]
  unfold Measurement.after
  cases hactive : tracker.measurement.active with
  | none => rfl
  | some start => simp only [if_pos (hrefused start hactive)]

section Owners

variable [DecidableEq τ]

theorem Serial.update
    {tracker next : LatencyTracker τ} {thread : τ} {pc : Pc}
    (hothers : ∀ other, other ≠ thread → tracker.pc other = .idle)
    (hpc : next.pc = Function.update tracker.pc thread pc)
    (howned : next.Owned pc) : Serial next where
  quiet hquiet := by
    have hidle := hquiet thread
    rw [hpc, Function.update_self] at hidle
    rwa [hidle] at howned
  busy other hbusy := by
    rw [hpc] at hbusy ⊢
    by_cases hother : other = thread
    · subst hother
      refine ⟨?_, by rwa [Function.update_self]⟩
      intro another hanother
      rw [Function.update_of_ne hanother]
      exact hothers another hanother
    · rw [Function.update_of_ne hother] at hbusy
      exact absurd (hothers other hother) hbusy

theorem Serial.step
    {tracker next : LatencyTracker τ} {action : Action τ}
    (hserial : Serial tracker) (howner : tracker.OneOwner action)
    (hstep : LatencyTracker.step tracker action = some next) :
    Serial next := by
  have hbusy : ∀ thread pc, tracker.pc thread = pc → pc ≠ .idle →
      (∀ other, other ≠ thread → tracker.pc other = .idle) ∧
        tracker.Owned pc := by
    intro thread pc hpc hne
    rw [← hpc] at hne ⊢
    exact hserial.busy thread hne
  cases step_trackerStep hstep with
  | called thread call hpc =>
      have hbefore := hserial.quiet howner
      refine Serial.update (fun other _ => howner other) rfl ?_
      cases call <;> exact ⟨tracker.calls, rfl, hbefore⟩
  | timeStored thread spurious timestamp hpc =>
      obtain ⟨hothers, calls, hcalls, hmeasurement⟩ :=
        hbusy thread _ hpc nofun
      exact Serial.update hothers rfl
        ⟨calls, hcalls, congrArg Measurement.measured hmeasurement⟩
  | startedStored thread spurious hpc =>
      obtain ⟨hothers, calls, hcalls, hmeasured⟩ :=
        hbusy thread _ hpc nofun
      refine Serial.update hothers rfl ?_
      change Measurement.mk (some tracker.startTime) tracker.measured = _
      simp only [goto_calls, hcalls, measurements_append,
        Measurement.after, hmeasured]
  | sawStopped thread spurious timestamp hpc hstarted =>
      obtain ⟨hothers, hcall⟩ := hbusy thread _ hpc nofun
      refine Serial.update hothers rfl (hcall.ended ?_)
      intro start hactive
      simp [measurement, hstarted] at hactive
  | sawStarted thread spurious timestamp hpc hstarted =>
      obtain ⟨hothers, hcall⟩ := hbusy thread _ hpc nofun
      exact Serial.update hothers rfl ⟨hcall, hstarted⟩
  | backwards thread spurious timestamp hpc hbackwards =>
      obtain ⟨hothers, hcall, hstarted⟩ := hbusy thread _ hpc nofun
      refine Serial.update hothers rfl (hcall.ended ?_)
      intro start hactive
      simp only [measurement, hstarted, if_true, Option.some.injEq]
        at hactive
      rwa [← hactive]
  | sawTime thread spurious timestamp hpc hforwards =>
      obtain ⟨hothers, hcall, hstarted⟩ := hbusy thread _ hpc nofun
      exact Serial.update hothers rfl ⟨hcall, hstarted, rfl, hforwards⟩
  | lost thread spurious timestamp start hpc hstarted =>
      obtain ⟨-, -, htrue, -⟩ := hbusy thread _ hpc nofun
      rw [hstarted] at htrue
      cases htrue
  | consumed thread spurious timestamp start hpc hstarted =>
      obtain ⟨hothers, ⟨calls, hcalls, hmeasurement⟩, -, rfl, hforwards⟩ :=
        hbusy thread _ hpc nofun
      refine Serial.update hothers rfl ?_
      change Measurement.mk none
        (tracker.measured ++ [timestamp - tracker.startTime]) =
          measurements tracker.calls
      rw [hcalls, measurements_append, ← hmeasurement]
      simp only [Measurement.after, measurement, hstarted, if_true,
        if_neg hforwards]
  | retriedMax thread spurious loop later hpc hitem
  | retriedTotal thread spurious loop later hpc hitem
  | maximised thread spurious loop hpc
  | totalled thread spurious loop hpc
  | sampled thread spurious delta hpc =>
      obtain ⟨hothers, howned⟩ := hbusy thread _ hpc nofun
      exact Serial.update hothers rfl howned

theorem serial_of_run
    {schedule : List (Action τ)} {final : LatencyTracker τ}
    (hwithin : RunWithin step OneOwner new schedule)
    (hrun : run step new schedule = some final) : Serial final :=
  run_invariant_within
    (fun _ _ _ hserial howner hstep => hserial.step howner hstep)
    serial_new hwithin hrun

/-! ## A call returns -/

/-- How many accesses a thread needs at most to return while it runs alone. -/
def rank (tracker : LatencyTracker τ) : Pc → ℕ
  | .idle => 0
  | .storeTime _ => 2
  | .storeStarted => 1
  | .loadStarted _ => 8
  | .loadTime _ => 7
  | .swapStarted _ _ => 6
  | .updateMax loop => 3 + loop.rank tracker.maxLatency
  | .updateTotal loop => 1 + loop.rank tracker.totalLatency
  | .addSample _ => 1

omit [DecidableEq τ] in
theorem rank_le (tracker : LatencyTracker τ) (pc : Pc) :
    tracker.rank pc ≤ 8 := by
  cases pc with
  | updateMax loop =>
      have hle := (loop.rank_pos tracker.maxLatency).2
      simp only [rank]
      omega
  | updateTotal loop =>
      have hle := (loop.rank_pos tracker.totalLatency).2
      simp only [rank]
      omega
  | _ => simp [rank]

theorem stepMax_rank_lt
    (tracker : LatencyTracker τ) (thread : τ) (loop : Loop UInt64 UInt64) :
    (tracker.stepMax thread false loop).rank
        ((tracker.stepMax thread false loop).pc thread) <
      tracker.rank (.updateMax loop) := by
  have hpos := (loop.rank_pos tracker.maxLatency).1
  cases haccess :
    access greater isCovered tracker.maxLatency false loop with
  | mk cell rest =>
      cases rest with
      | none =>
          have hload := (Loop.rank_pos tracker.totalLatency
            (.load loop.item)).2
          simp only [stepMax, haccess, goto_pc, Function.update_self, rank,
            goto_totalLatency]
          omega
      | some later =>
          obtain ⟨rfl, hlt⟩ := access_rank_lt haccess
          simp only [stepMax, haccess, goto_pc, Function.update_self, rank]
          omega

theorem stepTotal_rank_lt
    (tracker : LatencyTracker τ) (thread : τ) (loop : Loop UInt64 UInt64) :
    (tracker.stepTotal thread false loop).rank
        ((tracker.stepTotal thread false loop).pc thread) <
      tracker.rank (.updateTotal loop) := by
  have hpos := (loop.rank_pos tracker.totalLatency).1
  cases haccess : access saturatingAdd (fun _ _ => false)
    tracker.totalLatency false loop with
  | mk cell rest =>
      cases rest with
      | none =>
          simp only [stepTotal, haccess, goto_pc, Function.update_self, rank]
          omega
      | some later =>
          obtain ⟨rfl, hlt⟩ := access_rank_lt haccess
          simp only [stepTotal, haccess, goto_pc, Function.update_self, rank]
          omega

theorem exists_step_rank_lt
    {tracker : LatencyTracker τ} {thread : τ}
    (hbusy : tracker.pc thread ≠ .idle) :
    ∃ next, step tracker (.step thread false) = some next ∧
      next.rank (next.pc thread) < tracker.rank (tracker.pc thread) := by
  cases hpc : tracker.pc thread with
  | idle => exact absurd hpc hbusy
  | updateMax loop =>
      exact ⟨_, by simp only [step, hpc],
        stepMax_rank_lt tracker thread loop⟩
  | updateTotal loop =>
      exact ⟨_, by simp only [step, hpc],
        stepTotal_rank_lt tracker thread loop⟩
  | loadStarted timestamp =>
      cases hstarted : tracker.started with
      | true =>
          exact ⟨_, by simp only [step, hpc, hstarted, if_true]; rfl,
            by simp [rank]⟩
      | false =>
          exact ⟨_, by simp only [step, hpc, hstarted]; rfl,
            by simp [rank]⟩
  | loadTime timestamp =>
      by_cases hbackwards : timestamp < tracker.startTime
      · exact ⟨_, by simp only [step, hpc, if_pos hbackwards]; rfl,
          by simp [rank]⟩
      · exact ⟨_, by simp only [step, hpc, if_neg hbackwards]; rfl,
          by simp [rank]⟩
  | swapStarted timestamp start =>
      cases hstarted : tracker.started with
      | true =>
          exact ⟨_, by simp only [step, hpc, hstarted, if_true]; rfl,
            by simp [rank, Loop.rank]⟩
      | false =>
          exact ⟨_, by simp only [step, hpc, hstarted]; rfl,
            by simp [rank]⟩
  | _ => exact ⟨_, by simp only [step, hpc]; rfl, by simp [rank]⟩

/-- A step of a thread begins no call and leaves the other threads alone. -/
theorem step_frame
    {tracker next : LatencyTracker τ} {thread : τ} {spurious : Bool}
    (hstep : step tracker (.step thread spurious) = some next) :
    next.calls = tracker.calls ∧
      ∀ other, other ≠ thread → next.pc other = tracker.pc other := by
  cases step_trackerStep hstep <;>
    exact ⟨rfl, fun other hother => Function.update_of_ne hother _ _⟩

/-- A thread which runs alone returns from its call. -/
theorem exists_run_idle (tracker : LatencyTracker τ) (thread : τ) :
    ∃ steps final,
      steps ≤ tracker.rank (tracker.pc thread) ∧
      run step tracker (List.replicate steps (.step thread false)) =
        some final ∧
      RunWithin step OneOwner tracker
        (List.replicate steps (.step thread false)) ∧
      final.pc thread = .idle ∧ final.calls = tracker.calls ∧
      ∀ other, other ≠ thread → final.pc other = tracker.pc other := by
  induction hrank : tracker.rank (tracker.pc thread)
    using Nat.strong_induction_on generalizing tracker with
  | _ bound ih =>
      by_cases hbusy : tracker.pc thread = .idle
      · exact ⟨0, tracker, Nat.zero_le _, rfl, trivial, hbusy, rfl,
          fun _ _ => rfl⟩
      · obtain ⟨next, hnext, hlt⟩ := exists_step_rank_lt hbusy
        rw [hrank] at hlt
        obtain ⟨hcalls, hothers⟩ := step_frame hnext
        obtain ⟨steps, final, hsteps, hrun, hwithin, hidle, hlater,
          hframe⟩ := ih _ hlt next rfl
        refine ⟨steps + 1, final, by omega, ?_, ?_, hidle,
          hlater.trans hcalls,
          fun other hother =>
            (hframe other hother).trans (hothers other hother)⟩
        · simp only [List.replicate_succ, run, hnext, hrun]
        · simp only [List.replicate_succ, RunWithin, hnext]
          exact ⟨trivial, hwithin⟩

/-- As long as the calls do not overlap, the tracker measures what its calls
say in their order, and a call which is in progress returns after at most
eight accesses which do not fail spuriously. -/
theorem one_owner_measures_its_calls [Fintype τ]
    (schedule : List (Action τ)) (final : LatencyTracker τ)
    (hwithin : RunWithin step OneOwner new schedule)
    (hrun : run step new schedule = some final) :
    (final.Quiet →
      final.measurement = measurements final.calls ∧ final.Exact) ∧
    ∀ thread, final.pc thread ≠ .idle →
      ∃ steps last, steps ≤ 8 ∧
        run step final (List.replicate steps (.step thread false)) =
          some last ∧
        last.Quiet ∧ last.measurement = measurements final.calls ∧
        last.Exact := by
  have hserial := serial_of_run hwithin hrun
  have hcounted := counted_of_run hrun
  have hbalanced := balanced_of_run hrun
  constructor
  · intro hquiet
    exact ⟨hserial.quiet hquiet, hbalanced.exact hcounted hquiet⟩
  · intro thread hbusy
    obtain ⟨steps, last, hsteps, hmore, hmoreWithin, hidle, hcalls,
      hframe⟩ := exists_run_idle final thread
    have hquiet : last.Quiet := by
      intro other
      by_cases hother : other = thread
      · rw [hother, hidle]
      · rw [hframe other hother]
        exact (hserial.busy thread hbusy).1 other hother
    have hlastSerial : Serial last := run_invariant_within
      (fun _ _ _ hserial howner hstep => hserial.step howner hstep)
      hserial hmoreWithin hmore
    have hlastCounted : Counted last := run_invariant
      (fun _ _ _ hcounted hstep => hcounted.step hstep) hcounted hmore
    have hlastBalanced : Balanced last := run_invariant
      (fun _ _ _ hbalanced hstep => hbalanced.step hstep) hbalanced hmore
    refine ⟨steps, last, hsteps.trans (rank_le final _), hmore, hquiet, ?_,
      hlastBalanced.exact hlastCounted hquiet⟩
    rw [← hcalls]
    exact hlastSerial.quiet hquiet

/-- One thread starts the measurement; another ends it too early and then
again. -/
def ownerSchedule : List (Action Bool) :=
  [.call false (.markStart 100), .step false false, .step false false,
    .call true (.markEnd 90), .step true false, .step true false,
    .call true (.markEnd 107), .step true false, .step true false]

def ownerFinal : LatencyTracker Bool :=
  (run step new ownerSchedule).getD new

theorem one_owner_measures_its_calls_again :
    ∃ steps last, steps ≤ 8 ∧
      run step ownerFinal (List.replicate steps (.step true false)) =
        some last ∧
      last.Quiet ∧ last.measurement = ⟨none, [7]⟩ ∧ last.Exact :=
  (one_owner_measures_its_calls ownerSchedule ownerFinal
    (by decide +kernel) rfl).2 true (by decide +kernel)

end Owners

end LatencyTracker

end ShawnCore
