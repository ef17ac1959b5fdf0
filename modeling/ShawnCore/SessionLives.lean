import ShawnCore.AuthorizedTraffic
import ShawnCore.PacketDelivery

/-!
# The lives of the managers of a network

However the calls of a schedule are interleaved, each manager lives through its
own calls only.  So what holds for every life of one manager holds for every
manager of every network, and an installation in a life is an event of the
trace.
-/

namespace ShawnCore

open ByteBlocks

variable {ι DecapsKey SigningKey : Type} [DecidableEq ι]

namespace Network

variable (prims : Primitives DecapsKey SigningKey)

/-- The calls of one manager in a schedule. -/
def lifeOf (party : ι) (schedule : List (ι × Call SigningKey)) :
    List (Invocation DecapsKey SigningKey) :=
  (schedule.filter fun action => action.1 = party).map
    fun action => ⟨prims, action.2⟩

theorem lifeOf_cons_self
    (party : ι) (call : Call SigningKey)
    (rest : List (ι × Call SigningKey)) :
    lifeOf prims party ((party, call) :: rest) =
      ⟨prims, call⟩ :: lifeOf prims party rest := by
  simp [lifeOf]

theorem lifeOf_cons_other
    {party : ι} {action : ι × Call SigningKey} (hother : action.1 ≠ party)
    (rest : List (ι × Call SigningKey)) :
    lifeOf prims party (action :: rest) = lifeOf prims party rest := by
  simp [lifeOf, hother]

theorem lifeOf_append
    (party : ι) (before after : List (ι × Call SigningKey)) :
    lifeOf prims party (before ++ after) =
      lifeOf prims party before ++ lifeOf prims party after := by
  simp [lifeOf]

/-- The network after a schedule. -/
def after
    (network : Network ι DecapsKey) (schedule : List (ι × Call SigningKey)) :
    Network ι DecapsKey :=
  schedule.foldl (fun current action => (current.step prims action).1) network

/-- Each manager has performed its own calls. -/
theorem after_apply
    (network : Network ι DecapsKey) (party : ι)
    (schedule : List (ι × Call SigningKey)) :
    network.after prims schedule party =
      (network party).afterCalls (lifeOf prims party schedule) := by
  induction schedule generalizing network with
  | nil => rfl
  | cons action rest ih =>
      rw [after, List.foldl_cons, ← after, ih]
      by_cases hparty : action.1 = party
      · obtain ⟨_, call⟩ := action
        subst hparty
        rw [lifeOf_cons_self, SessionManager.afterCalls_cons, step_self]
      · rw [lifeOf_cons_other prims hparty,
          step_other prims network action (Ne.symm hparty)]

theorem trace_perform
    (network : Network ι DecapsKey) (action : ι × Call SigningKey)
    (rest : List (ι × Call SigningKey)) :
    network.trace prims (action :: rest) =
      ⟨action.1, (network action.1).perform ⟨prims, action.2⟩⟩ ::
        (network.step prims action).1.trace prims rest := rfl

theorem trace_append
    (network : Network ι DecapsKey) (before later : List (ι × Call SigningKey)) :
    network.trace prims (before ++ later) =
      network.trace prims before ++
        (network.after prims before).trace prims later := by
  induction before generalizing network with
  | nil => rfl
  | cons action rest ih =>
      rw [List.cons_append, trace_perform, trace_perform, ih]
      rfl

/-- What the trace says about one manager is the history of its life. -/
theorem trace_records
    (network : Network ι DecapsKey) (party : ι)
    (schedule : List (ι × Call SigningKey)) :
    ((network.trace prims schedule).filter
        fun event => event.party = party).map Event.record =
      (network party).history (lifeOf prims party schedule) := by
  induction schedule generalizing network with
  | nil => rfl
  | cons action rest ih =>
      rw [trace_perform]
      by_cases hparty : action.1 = party
      · obtain ⟨_, call⟩ := action
        subst hparty
        rw [List.filter_cons_of_pos (by simp), List.map_cons, ih,
          lifeOf_cons_self, step_self]
        rfl
      · rw [List.filter_cons_of_neg (by simp [hparty]), ih,
          lifeOf_cons_other prims hparty,
          step_other prims network action (Ne.symm hparty)]

/-- An event finds its manager as the calls before it have left it, and leaves
all other managers alone. -/
theorem trace_step
    {network : Network ι DecapsKey} {schedule : List (ι × Call SigningKey)}
    {j : ℕ} {event : Event ι DecapsKey SigningKey}
    (hevent : (network.trace prims schedule)[j]? = some event) :
    ∃ call,
      event.record = (network.after prims (schedule.take j)
        event.party).perform ⟨prims, call⟩ ∧
      network.after prims (schedule.take (j + 1)) =
        Function.update (network.after prims (schedule.take j)) event.party
          event.record.after := by
  obtain ⟨hlength, -⟩ := List.getElem?_eq_some_iff.1 hevent
  rw [trace, Execution.trace_length] at hlength
  have hbefore : (network.trace prims (schedule.take j)).length = j := by
    rw [trace, Execution.trace_length, List.length_take_of_le hlength.le]
  rw [← List.take_append_drop j schedule, trace_append,
    List.getElem?_append_right hbefore.le, hbefore, Nat.sub_self,
    List.drop_eq_getElem_cons hlength] at hevent
  cases hevent
  refine ⟨schedule[j].2, rfl, ?_⟩
  rw [List.take_succ_eq_append_getElem hlength, after, List.foldl_append,
    ← after]
  rfl

/-- An event is what its manager does after the calls it has had. -/
theorem trace_record
    {network : Network ι DecapsKey} {schedule : List (ι × Call SigningKey)}
    {j : ℕ} {event : Event ι DecapsKey SigningKey}
    (hevent : (network.trace prims schedule)[j]? = some event) :
    ∃ call, event.record =
      ((network event.party).afterCalls
        (lifeOf prims event.party (schedule.take j))).perform
          ⟨prims, call⟩ := by
  obtain ⟨call, hrecord, -⟩ := trace_step prims hevent
  rw [after_apply] at hrecord
  exact ⟨call, hrecord⟩

/-- What an event leaves of a manager is found by a later event of the manager,
unless an event in between has ended it. -/
theorem lasts_or_ends
    {network : Network ι DecapsKey} {schedule : List (ι × Call SigningKey)}
    (Good : SessionManager DecapsKey → Prop) (Ends : ℕ → Prop)
    {i j : ℕ} {opening closing : Event ι DecapsKey SigningKey}
    (hopening : (network.trace prims schedule)[i]? = some opening)
    (hclosing : (network.trace prims schedule)[j]? = some closing)
    (hlt : i < j) (hparty : closing.party = opening.party)
    (hstart : Good opening.record.after)
    (hstep : ∀ n event, i < n → n < j →
      (network.trace prims schedule)[n]? = some event →
        event.party = opening.party → Good event.record.before →
          Good event.record.after ∨ Ends n) :
    Good closing.record.before ∨ ∃ k, i < k ∧ k < j ∧ Ends k := by
  have hlength := (List.getElem?_eq_some_iff.1 hclosing).1
  have hlasts : ∀ n, i < n → n ≤ j →
      Good (network.after prims (schedule.take n) opening.party) ∨
        ∃ k, i < k ∧ k < n ∧ Ends k := by
    intro n hin
    induction n, hin using Nat.le_induction with
    | base =>
        obtain ⟨-, -, hafter⟩ := trace_step prims hopening
        rw [hafter, Function.update_self]
        exact fun _ => Or.inl hstart
    | succ n hin ih =>
        intro hnj
        rcases ih (by omega) with hgood | ⟨k, hik, hkn, hends⟩
        · obtain ⟨event, hevent⟩ : ∃ event,
              (network.trace prims schedule)[n]? = some event :=
            ⟨_, List.getElem?_eq_getElem (by omega)⟩
          obtain ⟨call, hrecord, hafter⟩ := trace_step prims hevent
          rw [hafter]
          by_cases hsame : event.party = opening.party
          · rw [← hsame, Function.update_self]
            rw [← hsame] at hgood
            have hbefore : Good event.record.before := by
              rw [hrecord]
              exact hgood
            rcases hstep n event hin hnj hevent hsame hbefore with
              hkept | hends
            · exact Or.inl hkept
            · exact Or.inr ⟨n, hin, by omega, hends⟩
          · rw [Function.update_of_ne (Ne.symm hsame)]
            exact Or.inl hgood
        · exact Or.inr ⟨k, hik, by omega, hends⟩
  obtain ⟨call, hrecord, -⟩ := trace_step prims hclosing
  rw [hrecord, hparty]
  exact hlasts j hlt le_rfl

/-- Every call of a life is an event of the trace. -/
theorem exists_event_of_lifeOf
    (network : Network ι DecapsKey) {schedule : List (ι × Call SigningKey)}
    {party : ι} {j : ℕ} {earlier part : List (Invocation DecapsKey SigningKey)}
    {invocation : Invocation DecapsKey SigningKey}
    (hlife : lifeOf prims party (schedule.take j) =
      earlier ++ invocation :: part) :
    ∃ event ∈ network.trace prims schedule, event.party = party ∧
      event.record =
        ((network party).afterCalls earlier).perform invocation := by
  have hwhole : lifeOf prims party schedule =
      earlier ++ invocation :: (part ++ lifeOf prims party
        (schedule.drop j)) := by
    rw [← List.cons_append, ← List.append_assoc, ← hlife, ← lifeOf_append,
      List.take_append_drop]
  have hmem : ((network party).afterCalls earlier).perform invocation ∈
      ((network.trace prims schedule).filter
        fun event => event.party = party).map Event.record := by
    rw [trace_records, hwhole, SessionManager.history_append]
    exact List.mem_append_right _ List.mem_cons_self
  obtain ⟨event, hevent, hrecord⟩ := List.mem_map.1 hmem
  obtain ⟨htrace, hparty⟩ := List.mem_filter.1 hevent
  exact ⟨event, htrace, of_decide_eq_true hparty, hrecord⟩

end Network

end ShawnCore
