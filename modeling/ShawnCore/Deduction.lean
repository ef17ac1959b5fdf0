import Mathlib.Tactic

/-!
# Deduction from a growing knowledge

An observer derives terms from those it knows by rules with finitely many
premises.  Secrets are protected by guarded sets: a set which contains nothing
known, and which no rule enters from outside, contains nothing derivable.
-/

namespace Deduction

variable {Term : Type*} {Rule : List Term → Term → Prop}
  {knowledge : Set Term} {term : Term}

inductive Derivable
    (Rule : List Term → Term → Prop) (knowledge : Set Term) : Term → Prop
  | known {term : Term} (hknown : term ∈ knowledge) :
      Derivable Rule knowledge term
  | apply {premises : List Term} {term : Term} (hrule : Rule premises term)
      (hpremises : ∀ premise ∈ premises, Derivable Rule knowledge premise) :
      Derivable Rule knowledge term

/-- Every rule with its conclusion in the set has a premise in the set. -/
def Guarded (Rule : List Term → Term → Prop) (guarded : Set Term) : Prop :=
  ∀ premises conclusion, Rule premises conclusion → conclusion ∈ guarded →
    ∃ premise ∈ premises, premise ∈ guarded

theorem Derivable.not_mem_of_guarded
    {guarded : Set Term} (hguarded : Guarded Rule guarded)
    (hknowledge : ∀ known ∈ knowledge, known ∉ guarded)
    (hterm : Derivable Rule knowledge term) :
    term ∉ guarded := by
  induction hterm with
  | known hknown => exact hknowledge _ hknown
  | apply hrule _ ih =>
      intro hconclusion
      obtain ⟨premise, hpremise, hmem⟩ := hguarded _ _ hrule hconclusion
      exact ih premise hpremise hmem

end Deduction
