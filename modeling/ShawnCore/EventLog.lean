import Mathlib.Tactic

/-!
# Logs which grow by one event at a time

Facts about every position of a log, and about what has happened since some
event, together with the rules by which they survive one more event.
-/

namespace EventLog

variable {ε : Type*}

/-- A split of an extended log is a split of the log, or it is at the new
event. -/
theorem split_append_singleton
    {log before after : List ε} {last event : ε}
    (hsplit : log ++ [last] = before ++ event :: after) :
    (before = log ∧ event = last) ∨
      ∃ rest, log = before ++ event :: rest := by
  cases List.eq_nil_or_concat after with
  | inl hnil =>
      rw [hnil] at hsplit
      have hparts := List.append_inj' hsplit rfl
      cases hparts.2
      exact Or.inl ⟨hparts.1.symm, rfl⟩
  | inr hconcat =>
      obtain ⟨rest, final, hafter⟩ := hconcat
      rw [hafter, List.concat_eq_append, ← List.cons_append,
        ← List.append_assoc] at hsplit
      have hparts := List.append_inj' hsplit rfl
      exact Or.inr ⟨rest, hparts.1⟩

/-- Every event stands in this relation to the events before it. -/
def AtEach (Fits : List ε → ε → Prop) (log : List ε) : Prop :=
  ∀ before event after, log = before ++ event :: after → Fits before event

theorem AtEach.nil (Fits : List ε → ε → Prop) : AtEach Fits [] := by
  intro before event after hsplit
  simp at hsplit

theorem AtEach.snoc
    {Fits : List ε → ε → Prop} {log : List ε} {last : ε}
    (hlog : AtEach Fits log) (hlast : Fits log last) :
    AtEach Fits (log ++ [last]) := by
  intro before event after hsplit
  rcases split_append_singleton hsplit with ⟨rfl, rfl⟩ | ⟨rest, hrest⟩
  · exact hlast
  · exact hlog before event rest hrest

/-- A member of the log fits the events before it. -/
theorem AtEach.mem
    {Fits : List ε → ε → Prop} {log : List ε} {event : ε}
    (hlog : AtEach Fits log) (hmem : event ∈ log) :
    ∃ before, before ⊆ log ∧ Fits before event := by
  obtain ⟨before, after, hsplit⟩ := List.append_of_mem hmem
  refine ⟨before, ?_, hlog before event after hsplit⟩
  rw [hsplit]
  exact List.subset_append_left before (event :: after)

/-- Some event like this has happened, and only events like those after
it. -/
def Since (Start Later : ε → Prop) (log : List ε) : Prop :=
  ∃ before event after,
    log = before ++ event :: after ∧ Start event ∧
      ∀ later ∈ after, Later later

theorem Since.now
    {Start Later : ε → Prop} (log : List ε) {event : ε}
    (hstart : Start event) : Since Start Later (log ++ [event]) :=
  ⟨log, event, [], rfl, hstart, fun _ hlater => by cases hlater⟩

theorem Since.snoc
    {Start Later : ε → Prop} {log : List ε} {last : ε}
    (hsince : Since Start Later log) (hlast : Later last) :
    Since Start Later (log ++ [last]) := by
  obtain ⟨before, event, after, hsplit, hstart, hlater⟩ := hsince
  refine ⟨before, event, after ++ [last], ?_, hstart, ?_⟩
  · rw [hsplit, List.append_assoc, List.cons_append]
  · intro later hmem
    rcases List.mem_append.mp hmem with hmem | hmem
    · exact hlater later hmem
    · rw [List.mem_singleton.mp hmem]
      exact hlast

end EventLog
