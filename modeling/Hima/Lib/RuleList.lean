import Mathlib.Data.List.Basic

/-!
# Ordered rule lists

A list of rules under first-match evaluation: the first rule that matches decides. What a list
decides in terms of its parts, and when two lists decide alike.
-/
namespace Hima.RuleList

variable {ρ ρ' α β : Type}

/-- What the first rule that matches says. -/
def decision (hit : ρ → Bool) (verdict : ρ → α) (rules : List ρ) : Option α :=
  (rules.find? hit).map verdict

variable {hit : ρ → Bool} {verdict : ρ → α} {rules rest : List ρ} {r : ρ} {a : α}

theorem decision_cons_of_hit (match_r : hit r = true) : decision hit verdict (r :: rest) = some (verdict r) := by
  simp [decision, match_r]

theorem decision_cons_of_miss (miss : hit r = false) :
    decision hit verdict (r :: rest) = decision hit verdict rest := by
  simp [decision, miss]

/-- Rules that do not match decide nothing. -/
theorem decision_append_of_miss (miss : ∀ r ∈ rules, hit r = false) :
    decision hit verdict (rules ++ rest) = decision hit verdict rest := by
  induction rules with
  | nil => rfl
  | cons r rules ih =>
    rw [List.cons_append, decision_cons_of_miss (miss r (by simp))]
    exact ih fun r' member => miss r' (by simp [member])

/-- A rule that does not match can be left out anywhere. -/
theorem decision_middle_of_miss (miss : hit r = false) :
    decision hit verdict (rules ++ r :: rest) = decision hit verdict (rules ++ rest) := by
  simp [decision, List.find?_append, miss]

/-- Rules that all say the same decide together. -/
theorem decision_append_of_uniform (uniform : ∀ r ∈ rules, verdict r = a) :
    decision hit verdict (rules ++ rest) = if rules.any hit then some a else decision hit verdict rest := by
  induction rules with
  | nil => rfl
  | cons r rules ih =>
    have ih := ih fun r' member => uniform r' (by simp [member])
    cases match_r : hit r with
    | true => simp [decision_cons_of_hit match_r, match_r, uniform r (by simp)]
    | false => simp [decision_cons_of_miss match_r, match_r, ih]

/-- Two lists decide alike when their rules correspond one to one. -/
theorem decision_congr {hit' : ρ' → Bool} {verdict' : ρ' → α} {rules' : List ρ'}
    (alike : List.Forall₂ (fun r r' => hit r = hit' r' ∧ verdict r = verdict' r') rules rules') :
    decision hit verdict rules = decision hit' verdict' rules' := by
  induction alike with
  | nil => rfl
  | @cons r r' rest rest' pair _ ih =>
    cases match_r : hit r with
    | true =>
      rw [decision_cons_of_hit match_r, decision_cons_of_hit (pair.1 ▸ match_r), pair.2]
    | false =>
      rw [decision_cons_of_miss match_r, decision_cons_of_miss (pair.1 ▸ match_r), ih]

end Hima.RuleList
