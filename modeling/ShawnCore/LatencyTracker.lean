import ShawnCore.Execution
import ShawnCore.CasLoop
import ShawnCore.InFlight

/-!
# The latency tracker

`LatencyTracker` measures the time between `mark_start` and `mark_end` and
keeps the greatest latency, the sum of the latencies and their number.  Any
number of threads call it, one memory access a step.  The calls, the latencies
measured and those already entered in the three counters are ghost state.
-/

namespace ShawnCore

open Execution CasLoop InFlight

namespace LatencyTracker

inductive Call
  | markStart (timestamp : UInt64)
  | markEnd (timestamp : UInt64)
deriving DecidableEq

/-- The program counter of a thread: the memory access which comes next. -/
inductive Pc
  | idle
  | storeTime (timestamp : UInt64)
  | storeStarted
  | loadStarted (timestamp : UInt64)
  | loadTime (timestamp : UInt64)
  | swapStarted (timestamp start : UInt64)
  | updateMax (loop : Loop UInt64 UInt64)
  | updateTotal (loop : Loop UInt64 UInt64)
  | addSample (delta : UInt64)
deriving DecidableEq

def Call.entry : Call → Pc
  | .markStart timestamp => .storeTime timestamp
  | .markEnd timestamp => .loadStarted timestamp

/-- `u64::saturating_add`. -/
def saturatingAdd (left right : UInt64) : UInt64 :=
  if left.toNat + right.toNat < 2 ^ 64 then left + right else -1

theorem saturatingAdd_toNat (left right : UInt64) :
    (saturatingAdd left right).toNat =
      min (2 ^ 64 - 1) (left.toNat + right.toNat) := by
  unfold saturatingAdd
  split_ifs with hfits
  · rw [UInt64.toNat_add, Nat.mod_eq_of_lt hfits]
    omega
  · rw [show (-1 : UInt64).toNat = 2 ^ 64 - 1 from rfl]
    omega

def greater (current delta : UInt64) : UInt64 :=
  if current < delta then delta else current

/-- The loop for the maximum is left as soon as `delta > current_max` fails. -/
def isCovered (current delta : UInt64) : Bool :=
  !decide (current < delta)

theorem greater_of_isCovered (current delta : UInt64)
    (hcovered : isCovered current delta = true) :
    greater current delta = current := by
  have hle : ¬ current < delta := by simpa [isCovered] using hcovered
  rw [greater, if_neg hle]

theorem le_greater (current delta : UInt64) :
    current ≤ greater current delta ∧ delta ≤ greater current delta := by
  unfold greater
  split_ifs with hlt
  · exact ⟨UInt64.le_of_lt hlt, UInt64.le_refl _⟩
  · exact ⟨UInt64.le_refl _, UInt64.not_lt.mp hlt⟩

end LatencyTracker

structure LatencyTracker (τ : Type) where
  started : Bool
  startTime : UInt64
  maxLatency : UInt64
  totalLatency : UInt64
  samples : UInt64
  pc : τ → LatencyTracker.Pc
  calls : List LatencyTracker.Call
  starts : ℕ
  measured : List UInt64
  maximised : Multiset UInt64
  totalled : Multiset UInt64
  sampled : Multiset UInt64

namespace LatencyTracker

variable {τ : Type}

def new : LatencyTracker τ where
  started := false
  startTime := 0
  maxLatency := 0
  totalLatency := 0
  samples := 0
  pc _ := .idle
  calls := []
  starts := 0
  measured := []
  maximised := 0
  totalled := 0
  sampled := 0

section Steps

variable [DecidableEq τ]

@[simps] def goto
    (tracker : LatencyTracker τ) (thread : τ) (pc : Pc) : LatencyTracker τ :=
  { tracker with pc := Function.update tracker.pc thread pc }

/-- One access of the loop for `max_latency`. -/
def stepMax
    (tracker : LatencyTracker τ) (thread : τ) (spurious : Bool)
    (loop : Loop UInt64 UInt64) : LatencyTracker τ :=
  match access greater isCovered tracker.maxLatency spurious loop with
  | (cell, some later) =>
      { tracker.goto thread (.updateMax later) with maxLatency := cell }
  | (cell, none) =>
      { tracker.goto thread (.updateTotal (.load loop.item)) with
        maxLatency := cell
        maximised := tracker.maximised + {loop.item} }

/-- One access of the loop for `total_latency`, which always exchanges. -/
def stepTotal
    (tracker : LatencyTracker τ) (thread : τ) (spurious : Bool)
    (loop : Loop UInt64 UInt64) : LatencyTracker τ :=
  match access saturatingAdd (fun _ _ => false) tracker.totalLatency spurious
      loop with
  | (cell, some later) =>
      { tracker.goto thread (.updateTotal later) with totalLatency := cell }
  | (cell, none) =>
      { tracker.goto thread (.addSample loop.item) with
        totalLatency := cell
        totalled := tracker.totalled + {loop.item} }

inductive Action (τ : Type)
  | call (thread : τ) (call : Call)
  | step (thread : τ) (spurious : Bool)

def step (tracker : LatencyTracker τ) :
    Action τ → Option (LatencyTracker τ)
  | .call thread call =>
      match tracker.pc thread with
      | .idle =>
          some { tracker.goto thread call.entry with
            calls := tracker.calls ++ [call] }
      | _ => none
  | .step thread spurious =>
      match tracker.pc thread with
      | .idle => none
      | .storeTime timestamp =>
          some { tracker.goto thread .storeStarted with
            startTime := timestamp }
      | .storeStarted =>
          some { tracker.goto thread .idle with
            started := true
            starts := tracker.starts + 1 }
      | .loadStarted timestamp =>
          if tracker.started then
            some (tracker.goto thread (.loadTime timestamp))
          else
            some (tracker.goto thread .idle)
      | .loadTime timestamp =>
          if timestamp < tracker.startTime then
            some (tracker.goto thread .idle)
          else
            some (tracker.goto thread
              (.swapStarted timestamp tracker.startTime))
      | .swapStarted timestamp start =>
          if tracker.started then
            some { tracker.goto thread
                (.updateMax (.load (timestamp - start))) with
              started := false
              measured := tracker.measured ++ [timestamp - start] }
          else
            some (tracker.goto thread .idle)
      | .updateMax loop => some (tracker.stepMax thread spurious loop)
      | .updateTotal loop => some (tracker.stepTotal thread spurious loop)
      | .addSample delta =>
          some { tracker.goto thread .idle with
            samples := tracker.samples + 1
            sampled := tracker.sampled + {delta} }

/-- Every step of the tracker. -/
inductive TrackerStep (tracker : LatencyTracker τ) :
    Action τ → LatencyTracker τ → Prop
  | called (thread : τ) (call : Call) (hpc : tracker.pc thread = .idle) :
      TrackerStep tracker (.call thread call)
        { tracker.goto thread call.entry with
          calls := tracker.calls ++ [call] }
  | timeStored (thread : τ) (spurious : Bool) (timestamp : UInt64)
      (hpc : tracker.pc thread = .storeTime timestamp) :
      TrackerStep tracker (.step thread spurious)
        { tracker.goto thread .storeStarted with startTime := timestamp }
  | startedStored (thread : τ) (spurious : Bool)
      (hpc : tracker.pc thread = .storeStarted) :
      TrackerStep tracker (.step thread spurious)
        { tracker.goto thread .idle with
          started := true
          starts := tracker.starts + 1 }
  | sawStopped (thread : τ) (spurious : Bool) (timestamp : UInt64)
      (hpc : tracker.pc thread = .loadStarted timestamp)
      (hstarted : tracker.started = false) :
      TrackerStep tracker (.step thread spurious)
        (tracker.goto thread .idle)
  | sawStarted (thread : τ) (spurious : Bool) (timestamp : UInt64)
      (hpc : tracker.pc thread = .loadStarted timestamp)
      (hstarted : tracker.started = true) :
      TrackerStep tracker (.step thread spurious)
        (tracker.goto thread (.loadTime timestamp))
  | backwards (thread : τ) (spurious : Bool) (timestamp : UInt64)
      (hpc : tracker.pc thread = .loadTime timestamp)
      (hbackwards : timestamp < tracker.startTime) :
      TrackerStep tracker (.step thread spurious)
        (tracker.goto thread .idle)
  | sawTime (thread : τ) (spurious : Bool) (timestamp : UInt64)
      (hpc : tracker.pc thread = .loadTime timestamp)
      (hforwards : ¬ timestamp < tracker.startTime) :
      TrackerStep tracker (.step thread spurious)
        (tracker.goto thread (.swapStarted timestamp tracker.startTime))
  | lost (thread : τ) (spurious : Bool) (timestamp start : UInt64)
      (hpc : tracker.pc thread = .swapStarted timestamp start)
      (hstarted : tracker.started = false) :
      TrackerStep tracker (.step thread spurious)
        (tracker.goto thread .idle)
  | consumed (thread : τ) (spurious : Bool) (timestamp start : UInt64)
      (hpc : tracker.pc thread = .swapStarted timestamp start)
      (hstarted : tracker.started = true) :
      TrackerStep tracker (.step thread spurious)
        { tracker.goto thread (.updateMax (.load (timestamp - start))) with
          started := false
          measured := tracker.measured ++ [timestamp - start] }
  | retriedMax (thread : τ) (spurious : Bool) (loop later : Loop UInt64 UInt64)
      (hpc : tracker.pc thread = .updateMax loop)
      (hitem : later.item = loop.item) :
      TrackerStep tracker (.step thread spurious)
        (tracker.goto thread (.updateMax later))
  | maximised (thread : τ) (spurious : Bool) (loop : Loop UInt64 UInt64)
      (hpc : tracker.pc thread = .updateMax loop) :
      TrackerStep tracker (.step thread spurious)
        { tracker.goto thread (.updateTotal (.load loop.item)) with
          maxLatency := greater tracker.maxLatency loop.item
          maximised := tracker.maximised + {loop.item} }
  | retriedTotal (thread : τ) (spurious : Bool)
      (loop later : Loop UInt64 UInt64)
      (hpc : tracker.pc thread = .updateTotal loop)
      (hitem : later.item = loop.item) :
      TrackerStep tracker (.step thread spurious)
        (tracker.goto thread (.updateTotal later))
  | totalled (thread : τ) (spurious : Bool) (loop : Loop UInt64 UInt64)
      (hpc : tracker.pc thread = .updateTotal loop) :
      TrackerStep tracker (.step thread spurious)
        { tracker.goto thread (.addSample loop.item) with
          totalLatency := saturatingAdd tracker.totalLatency loop.item
          totalled := tracker.totalled + {loop.item} }
  | sampled (thread : τ) (spurious : Bool) (delta : UInt64)
      (hpc : tracker.pc thread = .addSample delta) :
      TrackerStep tracker (.step thread spurious)
        { tracker.goto thread .idle with
          samples := tracker.samples + 1
          sampled := tracker.sampled + {delta} }

theorem stepMax_trackerStep
    {tracker : LatencyTracker τ} {thread : τ} {loop : Loop UInt64 UInt64}
    (hpc : tracker.pc thread = .updateMax loop) (spurious : Bool) :
    TrackerStep tracker (.step thread spurious)
      (tracker.stepMax thread spurious loop) := by
  rcases access_cases greater_of_isCovered tracker.maxLatency spurious loop
    with ⟨later, haccess, hitem⟩ | haccess
  · simp only [stepMax, haccess]
    exact .retriedMax thread spurious loop later hpc hitem
  · simp only [stepMax, haccess]
    exact .maximised thread spurious loop hpc

theorem stepTotal_trackerStep
    {tracker : LatencyTracker τ} {thread : τ} {loop : Loop UInt64 UInt64}
    (hpc : tracker.pc thread = .updateTotal loop) (spurious : Bool) :
    TrackerStep tracker (.step thread spurious)
      (tracker.stepTotal thread spurious loop) := by
  have hskips : ∀ cell item : UInt64, false = true →
      saturatingAdd cell item = cell := fun _ _ hfalse => by cases hfalse
  rcases access_cases hskips tracker.totalLatency spurious loop
    with ⟨later, haccess, hitem⟩ | haccess
  · simp only [stepTotal, haccess]
    exact .retriedTotal thread spurious loop later hpc hitem
  · simp only [stepTotal, haccess]
    exact .totalled thread spurious loop hpc

theorem step_trackerStep
    {tracker next : LatencyTracker τ} {action : Action τ}
    (hstep : step tracker action = some next) :
    TrackerStep tracker action next := by
  cases action with
  | call thread call =>
      cases hpc : tracker.pc thread with
      | idle =>
          simp only [step, hpc, Option.some.injEq] at hstep
          subst next
          exact .called thread call hpc
      | _ => simp [step, hpc] at hstep
  | step thread spurious =>
      cases hpc : tracker.pc thread with
      | idle => simp [step, hpc] at hstep
      | storeTime timestamp =>
          simp only [step, hpc, Option.some.injEq] at hstep
          subst next
          exact .timeStored thread spurious timestamp hpc
      | storeStarted =>
          simp only [step, hpc, Option.some.injEq] at hstep
          subst next
          exact .startedStored thread spurious hpc
      | loadStarted timestamp =>
          simp only [step, hpc] at hstep
          split_ifs at hstep with hstarted
          · cases hstep
            exact .sawStarted thread spurious timestamp hpc hstarted
          · cases hstep
            exact .sawStopped thread spurious timestamp hpc
              (Bool.eq_false_of_not_eq_true hstarted)
      | loadTime timestamp =>
          simp only [step, hpc] at hstep
          split_ifs at hstep with hbackwards
          · cases hstep
            exact .backwards thread spurious timestamp hpc hbackwards
          · cases hstep
            exact .sawTime thread spurious timestamp hpc hbackwards
      | swapStarted timestamp start =>
          simp only [step, hpc] at hstep
          split_ifs at hstep with hstarted
          · cases hstep
            exact .consumed thread spurious timestamp start hpc hstarted
          · cases hstep
            exact .lost thread spurious timestamp start hpc
              (Bool.eq_false_of_not_eq_true hstarted)
      | updateMax loop =>
          simp only [step, hpc, Option.some.injEq] at hstep
          subst next
          exact stepMax_trackerStep hpc spurious
      | updateTotal loop =>
          simp only [step, hpc, Option.some.injEq] at hstep
          subst next
          exact stepTotal_trackerStep hpc spurious
      | addSample delta =>
          simp only [step, hpc, Option.some.injEq] at hstep
          subst next
          exact .sampled thread spurious delta hpc

end Steps

end LatencyTracker

end ShawnCore
