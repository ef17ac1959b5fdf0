import Mathlib.Tactic

/-!
# Chains of states

A state which is only ever replaced by an update of itself runs through a
single chain.  A link records the state and the position an update was computed
from; a history is a chain when every link starts where the last one ended, so
that no update is lost.
-/

namespace StateChain

variable {σ υ : Type*} {apply : υ → σ → σ} {start : σ}

/-- A state as somebody read it, with its position in the chain. -/
@[ext] structure Snapshot (σ : Type*) where
  state : σ
  position : ℕ
deriving DecidableEq

structure Link (σ υ : Type*) where
  source : Snapshot σ
  update : υ
  result : σ

/-- The links of a chain, oldest first, and the state they lead to. -/
inductive History (apply : υ → σ → σ) (start : σ) :
    List (Link σ υ) → Snapshot σ → Prop
  | nil : History apply start [] ⟨start, 0⟩
  | snoc {links : List (Link σ υ)} {current : Snapshot σ}
      (hbefore : History apply start links current) (update : υ) :
      History apply start
        (links ++ [⟨current, update, apply update current.state⟩])
        ⟨apply update current.state, current.position + 1⟩

/-- All states of a chain by their positions. -/
def states (start : σ) (links : List (Link σ υ)) : List σ :=
  start :: links.map Link.result

theorem states_append (links : List (Link σ υ)) (link : Link σ υ) :
    states start (links ++ [link]) = states start links ++ [link.result] := by
  simp [states]

theorem History.position_eq
    {links : List (Link σ υ)} {current : Snapshot σ}
    (hhistory : History apply start links current) :
    current.position = links.length := by
  induction hhistory with
  | nil => rfl
  | snoc hbefore update ih => rw [List.length_append, ← ih, List.length_singleton]

/-- The current state is the last one of the chain. -/
theorem History.states_position
    {links : List (Link σ υ)} {current : Snapshot σ}
    (hhistory : History apply start links current) :
    (states start links)[current.position]? = some current.state := by
  cases hhistory with
  | nil => rfl
  | @snoc links current hbefore update =>
      have hlength : (states start links).length = current.position + 1 := by
        rw [hbefore.position_eq]
        simp [states]
      rw [states_append, List.getElem?_append_right hlength.le, hlength,
        Nat.sub_self]
      rfl

/-- A longer chain keeps the states of a shorter one. -/
theorem states_append_of_some
    {links : List (Link σ υ)} {position : ℕ} {state : σ}
    (hstate : (states start links)[position]? = some state)
    (link : Link σ υ) :
    (states start (links ++ [link]))[position]? = some state := by
  have hlt := (List.getElem?_eq_some_iff.1 hstate).1
  rw [states_append, List.getElem?_append_left hlt, hstate]

/-! ## Outputs of a chain -/

variable {β : Type*} {output : σ → β}

/-- What has been handed out along a chain: every output was computed from the
state of a position, no two from the same one.  The current position has been
used up only if `used` holds. -/
structure Outputs (output : σ → β) (start : σ) (links : List (Link σ υ))
    (current : Snapshot σ) (used : Prop)
    (outputs : List (Snapshot σ × β)) : Prop where
  computed : ∀ entry ∈ outputs, entry.2 = output entry.1.state
  on_chain : ∀ entry ∈ outputs,
    (states start links)[entry.1.position]? = some entry.1.state
  left : ∀ entry ∈ outputs, entry.1.position < current.position ∨
    entry.1.position = current.position ∧ used
  distinct : (outputs.map (·.1.position)).Nodup

namespace Outputs

variable {links : List (Link σ υ)} {current : Snapshot σ} {used after : Prop}
  {outputs : List (Snapshot σ × β)}

theorem nil : Outputs output start links current used [] := by
  constructor <;> simp

theorem mono
    (houtputs : Outputs output start links current used outputs)
    (hused : used → after) :
    Outputs output start links current after outputs := by
  refine { houtputs with left := ?_ }
  intro entry hentry
  exact (houtputs.left entry hentry).imp_right fun h => ⟨h.1, hused h.2⟩

/-- The output of the current position is handed out. -/
theorem hand_out
    (houtputs : Outputs output start links current used outputs)
    (hhistory : History apply start links current)
    (hunused : ¬ used) (hafter : after) :
    Outputs output start links current after
      (outputs ++ [(current, output current.state)]) := by
  have hbefore : ∀ entry ∈ outputs,
      entry.1.position < current.position := by
    intro entry hentry
    rcases houtputs.left entry hentry with hleft | ⟨_, hused⟩
    · exact hleft
    · exact absurd hused hunused
  constructor
  · intro entry hentry
    rw [List.mem_append, List.mem_singleton] at hentry
    rcases hentry with hold | rfl
    · exact houtputs.computed entry hold
    · rfl
  · intro entry hentry
    rw [List.mem_append, List.mem_singleton] at hentry
    rcases hentry with hold | rfl
    · exact houtputs.on_chain entry hold
    · exact hhistory.states_position
  · intro entry hentry
    rw [List.mem_append, List.mem_singleton] at hentry
    rcases hentry with hold | rfl
    · exact Or.inl (hbefore entry hold)
    · exact Or.inr ⟨rfl, hafter⟩
  · rw [List.map_append, List.nodup_append]
    refine ⟨houtputs.distinct, by simp, ?_⟩
    intro position hold other hnew
    obtain ⟨entry, hentry, rfl⟩ := List.mem_map.1 hold
    rw [List.map_singleton, List.mem_singleton] at hnew
    rw [hnew]
    exact (hbefore entry hentry).ne

/-- The chain goes on. -/
theorem extend
    (houtputs : Outputs output start links current used outputs)
    (link : Link σ υ) (state : σ) :
    Outputs output start (links ++ [link]) ⟨state, current.position + 1⟩
      after outputs := by
  constructor
  · exact houtputs.computed
  · intro entry hentry
    exact states_append_of_some (houtputs.on_chain entry hentry) link
  · intro entry hentry
    refine Or.inl (Nat.lt_succ_of_le ?_)
    rcases houtputs.left entry hentry with hleft | ⟨hhere, _⟩
    · exact hleft.le
    · exact hhere.le
  · exact houtputs.distinct

end Outputs

end StateChain
