import Mathlib.Data.List.Basic
import Mathlib.Order.Basic
import Mathlib.Data.Nat.Basic

/-!
# Runs of a partial step function

`step s a = none` says that the step has no outcome in the model: it does not return, or the
language gives it none. A run carries a side condition on every step it takes, so that one
induction serves results about all runs and results about the runs that meet a condition.
-/
namespace Hima.Runs

variable {σ ο : Type} {step : σ → ο → Option σ} {ok : σ → ο → Prop}

/-- `Run step ok s as t`: from `s` the operations `as` lead to `t`, each step meeting `ok`
in the state it is taken from. -/
inductive Run (step : σ → ο → Option σ) (ok : σ → ο → Prop) : σ → List ο → σ → Prop
  | nil (s : σ) : Run step ok s [] s
  | cons {s s' t : σ} {a : ο} {as : List ο} :
      ok s a → step s a = some s' → Run step ok s' as t → Run step ok s (a :: as) t

/-- What holds at the start and survives every step the condition allows holds at the end. -/
theorem Run.invariant (Inv : σ → Prop) (preserved : ∀ s a s', Inv s → ok s a → step s a = some s' → Inv s')
    {s t : σ} {as : List ο} (run : Run step ok s as t) (initial : Inv s) : Inv t := by
  induction run with
  | nil => exact initial
  | cons allowed stepped _ ih => exact ih (preserved _ _ _ initial allowed stepped)

/-- A condition that its operations imply can stand for another. -/
theorem Run.mono {ok' : σ → ο → Prop} {s t : σ} {as : List ο} (run : Run step ok s as t)
    (implies : ∀ s, ∀ a ∈ as, ok s a → ok' s a) : Run step ok' s as t := by
  induction run with
  | nil s => exact .nil s
  | cons allowed stepped _ ih =>
    exact .cons (implies _ _ List.mem_cons_self allowed) stepped
      (ih fun s a member => implies s a (List.mem_cons_of_mem _ member))

theorem Run.append {s t u : σ} {as bs : List ο} (first : Run step ok s as t)
    (second : Run step ok t bs u) : Run step ok s (as ++ bs) u := by
  induction first with
  | nil => exact second
  | cons allowed stepped _ ih => exact .cons allowed stepped (ih second)

theorem Run.snoc {s t u : σ} {as : List ο} {a : ο} (run : Run step ok s as t)
    (allowed : ok t a) (stepped : step t a = some u) : Run step ok s (as ++ [a]) u :=
  run.append (.cons allowed stepped (.nil u))

/-- A run whose condition does not depend on the state, from the evaluation of its steps. -/
theorem Run.of_foldlM {as : List ο} {t : σ} (allowed : ∀ a ∈ as, ∀ s, ok s a) :
    ∀ {s : σ}, as.foldlM step s = some t → Run step ok s as t := by
  induction as with
  | nil =>
    intro s evaluates
    obtain rfl : s = t := by simpa using evaluates
    exact .nil s
  | cons a as ih =>
    intro s evaluates
    obtain ⟨s', stepped, rest⟩ := Option.bind_eq_some_iff.mp evaluates
    exact .cons (allowed a (by simp) s) stepped (ih (fun b member => allowed b (by simp [member])) rest)

/-- The state that operations lead to in `n` steps, or in all of them if there are fewer. -/
def statesAt (step : σ → ο → Option σ) : List ο → σ → Nat → σ
  | [], s, _ | _ :: _, s, 0 => s
  | a :: as, s, n + 1 => statesAt step as ((step s a).getD s) n

theorem statesAt_of_length_le {as : List ο} : ∀ {s : σ} {n : Nat}, as.length ≤ n →
    statesAt step as s n = statesAt step as s as.length := by
  induction as with
  | nil =>
    intro s n _
    cases n <;> rfl
  | cons a as ih =>
    intro s n le
    obtain ⟨n, rfl⟩ := Nat.exists_eq_add_of_lt (Nat.lt_of_lt_of_le (Nat.zero_lt_succ _) le)
    exact ih (Nat.le_of_succ_le_succ le)

theorem Run.at_step {s t : σ} {as : List ο} (run : Run step ok s as t) {n : Nat} {a : ο}
    (next : as[n]? = some a) : ok (statesAt step as s n) a ∧
      step (statesAt step as s n) a = some (statesAt step as s (n + 1)) := by
  induction run generalizing n with
  | nil => cases next
  | @cons s s' t b as allowed stepped rest ih =>
    have first : (step s b).getD s = s' := by rw [stepped, Option.getD_some]
    cases n with
    | zero =>
      obtain rfl := Option.some.inj next
      refine ⟨allowed, stepped.trans ?_⟩
      rw [statesAt, first]
      cases as <;> rfl
    | succ n =>
      rw [statesAt, statesAt, first]
      exact ih next

/-- Takes the steps while they meet the condition. -/
def checked (step : σ → ο → Option σ) (ok : σ → ο → Prop) [∀ s a, Decidable (ok s a)] :
    List ο → σ → Option σ
  | [], s => some s
  | a :: as, s => if ok s a then (step s a).bind (checked step ok as) else none

/-- A run from the evaluation of its steps and conditions. -/
theorem Run.of_checked [∀ s a, Decidable (ok s a)] {as : List ο} {s t : σ}
    (evaluates : checked step ok as s = some t) : Run step ok s as t := by
  induction as generalizing s with
  | nil =>
    obtain rfl := Option.some.inj evaluates
    exact .nil s
  | cons a as ih =>
    rw [checked] at evaluates
    split at evaluates
    next allowed =>
      obtain ⟨s', stepped, rest⟩ := Option.bind_eq_some_iff.mp evaluates
      exact .cons allowed stepped (ih rest)
    next => cases evaluates

end Hima.Runs

/-!
## Progress along infinite behaviours

A behaviour is a sequence of states. A rank that no step raises and that some step lowers again
and again, as long as the goal is not reached, forces the goal.
-/
namespace Hima.Fair

variable {σ : Type}

/-- A bound that no step raises holds at every later time, until the goal is reached. -/
theorem rank_le_of_le {states : Nat → σ} {goal : σ → Prop} {rank : σ → Nat}
    (steady : ∀ n, ¬ goal (states n) → ¬ goal (states (n + 1)) → rank (states (n + 1)) ≤ rank (states n))
    (never : ∀ n, ¬ goal (states n)) {i j : Nat} (le : i ≤ j) :
    rank (states j) ≤ rank (states i) := by
  induction j, le using Nat.le_induction with
  | base => exact le_refl _
  | succ j _ ih => exact le_trans (steady j (never j) (never (j + 1))) ih

/-- If no step raises the rank and again and again one lowers it, the goal is reached. -/
theorem eventually_of_rank (states : Nat → σ) (goal : σ → Prop) (rank : σ → Nat) (helpful : Nat → Prop)
    (steady : ∀ n, ¬ goal (states n) → ¬ goal (states (n + 1)) → rank (states (n + 1)) ≤ rank (states n))
    (lowers : ∀ n, helpful n → ¬ goal (states n) → ¬ goal (states (n + 1)) →
      rank (states (n + 1)) < rank (states n))
    (again : ∀ n, ∃ m, n ≤ m ∧ (helpful m ∨ goal (states m))) : ∃ n, goal (states n) := by
  by_contra never
  rw [not_exists] at never
  -- every value of the rank is followed by a smaller one
  have sinks : ∀ r n, rank (states n) = r → False := by
    intro r
    induction r using Nat.strong_induction_on with
    | _ r ih =>
      intro n at_n
      obtain ⟨m, le, helps⟩ := again n
      have helps := helps.resolve_right (never m)
      have below := rank_le_of_le steady never le
      have less := lowers m helps (never m) (never (m + 1))
      exact ih _ (by omega) (m + 1) rfl
  exact sinks _ 0 rfl

end Hima.Fair
