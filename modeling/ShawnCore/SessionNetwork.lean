import ShawnCore.SessionCalls

/-!
# A network of session managers

Any number of managers, each with a name.  Whoever schedules the calls also
chooses all their arguments, so delivery, loss, reordering and invention of
messages are nothing but particular schedules.  The trace of a schedule lists
what each call did.
-/

namespace ShawnCore

open ByteBlocks

variable {ι DecapsKey SigningKey : Type} [DecidableEq ι]

/-- The managers by name. -/
abbrev Network (ι DecapsKey : Type) := ι → SessionManager DecapsKey

structure Event (ι DecapsKey SigningKey : Type) where
  party : ι
  record : Record DecapsKey SigningKey

namespace Network

/-- All managers are new. -/
def initial : Network ι DecapsKey := fun _ => .new

variable (prims : Primitives DecapsKey SigningKey)

def step
    (network : Network ι DecapsKey) (action : ι × Call SigningKey) :
    Network ι DecapsKey × Event ι DecapsKey SigningKey :=
  let record := (network action.1).perform ⟨prims, action.2⟩
  (Function.update network action.1 record.after, ⟨action.1, record⟩)

def trace
    (network : Network ι DecapsKey) (schedule : List (ι × Call SigningKey)) :
    List (Event ι DecapsKey SigningKey) :=
  Execution.trace (step prims) network schedule

@[simp] theorem step_party
    (network : Network ι DecapsKey) (action : ι × Call SigningKey) :
    (network.step prims action).2.party = action.1 := rfl

@[simp] theorem step_record
    (network : Network ι DecapsKey) (action : ι × Call SigningKey) :
    (network.step prims action).2.record =
      (network action.1).perform ⟨prims, action.2⟩ := rfl

@[simp] theorem step_self
    (network : Network ι DecapsKey) (action : ι × Call SigningKey) :
    (network.step prims action).1 action.1 =
      ((network action.1).perform ⟨prims, action.2⟩).after := by
  simp [step]

theorem step_other
    (network : Network ι DecapsKey) (action : ι × Call SigningKey)
    {party : ι} (hparty : party ≠ action.1) :
    (network.step prims action).1 party = network party := by
  simp [step, hparty]

/-- The trace of a schedule, one call at a time. -/
theorem trace_cons
    {network : Network ι DecapsKey} {party : ι}
    {manager next : SessionManager DecapsKey} {call : Call SigningKey}
    {result : Except CryptoError Output}
    (hmanager : network party = manager)
    (hexec : manager.exec prims call = (result, next))
    (rest : List (ι × Call SigningKey)) :
    network.trace prims ((party, call) :: rest) =
      ⟨party, ⟨manager, call, result, next⟩⟩ ::
        trace prims (Function.update network party next) rest := by
  simp only [trace, Execution.trace, step, SessionManager.perform, hmanager,
    hexec]

end Network

end ShawnCore
