import Mathlib.Tactic

/-!
# Computations which log their calls

A fallible computation together with the calls it has made to some outside
function, oldest first.  A failure keeps the calls made before it.  Dropping
the log of a computation gives the same computation without a log.
-/

namespace CallLog

variable {κ ε α β : Type}

structure Logged (κ ε α : Type) where
  calls : List κ
  result : Except ε α

namespace Logged

/-- A computation which makes no call. -/
def quiet (outcome : Except ε α) : Logged κ ε α := ⟨[], outcome⟩

/-- One call and its outcome. -/
def call (made : κ) (outcome : Except ε α) : Logged κ ε α := ⟨[made], outcome⟩

def andThen (first : Logged κ ε α) (rest : α → Logged κ ε β) :
    Logged κ ε β :=
  match first.result with
  | .error failure => ⟨first.calls, .error failure⟩
  | .ok value => ⟨first.calls ++ (rest value).calls, (rest value).result⟩

instance : Monad (Logged κ ε) where
  pure value := quiet (.ok value)
  bind := andThen

@[simp] theorem quiet_result (outcome : Except ε α) :
    (quiet outcome : Logged κ ε α).result = outcome := rfl

@[simp] theorem call_result (made : κ) (outcome : Except ε α) :
    (call made outcome).result = outcome := rfl

/-- Dropping the log commutes with sequencing. -/
@[simp] theorem bind_result
    (first : Logged κ ε α) (rest : α → Logged κ ε β) :
    (first >>= rest).result = first.result >>= fun value =>
      (rest value).result := by
  change (first.andThen rest).result = _
  unfold andThen
  cases first.result with
  | error failure => rfl
  | ok value => rfl

@[simp] theorem quiet_ok_bind (value : α) (rest : α → Logged κ ε β) :
    (quiet (.ok value) >>= rest) = rest value := rfl

theorem bind_calls_of_silent
    {first : Logged κ ε α} {rest : α → Logged κ ε β}
    (hrest : ∀ value, (rest value).calls = []) :
    (first >>= rest).calls = first.calls := by
  change (first.andThen rest).calls = _
  unfold andThen
  cases first.result with
  | error failure => rfl
  | ok value =>
      change first.calls ++ (rest value).calls = first.calls
      rw [hrest value, List.append_nil]

end Logged

end CallLog
