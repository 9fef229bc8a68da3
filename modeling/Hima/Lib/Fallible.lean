import Mathlib.Order.Monotone.Defs
import Mathlib.Order.Nat

/-!
# Fallible programs over a state that only moves up

A program takes a state to a result or a failure, and to the state it leaves behind; that state
survives the failure. The states carry a preorder, and a program holds the proof that it moves
up in it: what the order promises is then a fact about every program, however it is composed.
-/
namespace Hima.Fallible

/-- A program over the states `σ` that returns an `α` or fails with an `ε`. -/
structure Prog (σ : Type) [Preorder σ] (ε α : Type) where
  run : σ → Except ε α × σ
  up : ∀ s, s ≤ (run s).2

namespace Prog

variable {σ ε α β γ : Type} [Preorder σ]

/-! ### Composition -/

protected def pure (a : α) : Prog σ ε α where
  run s := (.ok a, s)
  up s := le_refl s

/-- Gives up with the failure `e`. -/
def fail (e : ε) : Prog σ ε α where
  run s := (.error e, s)
  up s := le_refl s

protected def bind (p : Prog σ ε α) (f : α → Prog σ ε β) : Prog σ ε β where
  run s :=
    match p.run s with
    | (.ok a, t) => (f a).run t
    | (.error e, t) => (.error e, t)
  up s := by
    have first := p.up s
    split
    next a t ran =>
      rw [ran] at first
      exact le_trans first ((f a).up t)
    next e t ran =>
      rw [ran] at first
      exact first

instance : Monad (Prog σ ε) where
  pure := Prog.pure
  bind := Prog.bind

/-- Runs `p` and hands over its outcome: a failure of `p` is a result like any other. -/
def attempt (p : Prog σ ε α) : Prog σ ε (Except ε α) where
  run s := (.ok (p.run s).1, (p.run s).2)
  up s := p.up s

/-- Reads the state. -/
def inspect (f : σ → α) : Prog σ ε α where
  run s := (.ok (f s), s)
  up s := le_refl s

/-- The program whose outcome is already known. -/
def ofExcept : Except ε α → Prog σ ε α
  | .ok a => .pure a
  | .error e => .fail e

/-! ### Runs -/

@[simp] theorem run_pure (a : α) (s : σ) : (pure a : Prog σ ε α).run s = (.ok a, s) := rfl

@[simp] theorem run_fail (e : ε) (s : σ) : (fail e : Prog σ ε α).run s = (.error e, s) := rfl

@[simp] theorem run_attempt (p : Prog σ ε α) (s : σ) :
    p.attempt.run s = (.ok (p.run s).1, (p.run s).2) := rfl

@[simp] theorem run_inspect (f : σ → α) (s : σ) :
    (inspect f : Prog σ ε α).run s = (.ok (f s), s) := rfl

@[simp] theorem run_ofExcept (r : Except ε α) (s : σ) : (ofExcept r : Prog σ ε α).run s = (r, s) := by
  cases r <;> rfl

theorem run_bind (p : Prog σ ε α) (f : α → Prog σ ε β) (s : σ) :
    (p >>= f).run s = match p.run s with
      | (.ok a, t) => (f a).run t
      | (.error e, t) => (.error e, t) := rfl

variable {p : Prog σ ε α}

/-- What came first in a sequence that returned has returned as well. -/
theorem bind_ok {f : α → Prog σ ε β} {s t : σ} {b : β} (ran : (p >>= f).run s = (.ok b, t)) :
    ∃ a u, p.run s = (.ok a, u) ∧ (f a).run u = (.ok b, t) := by
  rw [run_bind] at ran
  split at ran
  next a u first => exact ⟨a, u, first, ran⟩
  · cases ran

/-- A sequence that failed has failed in its first part, or after it. -/
theorem bind_error {f : α → Prog σ ε β} {s t : σ} {e : ε} (ran : (p >>= f).run s = (.error e, t)) :
    p.run s = (.error e, t) ∨ ∃ a u, p.run s = (.ok a, u) ∧ (f a).run u = (.error e, t) := by
  rw [run_bind] at ran
  split at ran
  next a u first => exact .inr ⟨a, u, first, ran⟩
  next e' u first =>
    cases ran
    exact .inl first

theorem attempt_ok {s t : σ} {r : Except ε α} (ran : p.attempt.run s = (.ok r, t)) : p.run s = (r, t) := by
  cases ran
  rfl

/-- What a run promises through the order of the states. -/
theorem up_of_run {s t : σ} {r : Except ε α} (ran : p.run s = (r, t)) : s ≤ t := by
  have above := p.up s
  rwa [ran] at above

/-! ### Pre- and postconditions -/

/-- Started where `P` holds, `p` returns an `a` with `Q a`, or fails where `E` holds. -/
def Triple (P : σ → Prop) (p : Prog σ ε α) (Q : α → σ → Prop) (E : σ → Prop) : Prop :=
  ∀ s, P s → match p.run s with
    | (.ok a, t) => Q a t
    | (.error _, t) => E t

variable {P P' I E E' M : σ → Prop} {Q Q' : α → σ → Prop} {R : β → σ → Prop}

theorem Triple.ok (spec : Triple P p Q E) {s t : σ} {a : α} (start : P s)
    (ran : p.run s = (.ok a, t)) : Q a t := by
  have result := spec s start
  rwa [ran] at result

theorem Triple.error (spec : Triple P p Q E) {s t : σ} {e : ε} (start : P s)
    (ran : p.run s = (.error e, t)) : E t := by
  have result := spec s start
  rwa [ran] at result

/-- A specification from the runs that return and those that fail. -/
theorem Triple.of_runs (returns : ∀ s a t, P s → p.run s = (.ok a, t) → Q a t)
    (fails : ∀ s e t, P s → p.run s = (.error e, t) → E t) : Triple P p Q E := by
  intro s start
  split
  next a t ran => exact returns s a t start ran
  next e t ran => exact fails s e t start ran

theorem Triple.weaken (spec : Triple P p Q E) (pre : ∀ s, P' s → P s)
    (post : ∀ a s, Q a s → Q' a s) (err : ∀ s, E s → E' s) : Triple P' p Q' E' :=
  .of_runs (fun _ _ _ start ran => post _ _ (spec.ok (pre _ start) ran))
    fun _ _ _ start ran => err _ (spec.error (pre _ start) ran)

theorem Triple.pure {a : α} (start : ∀ s, P s → Q a s) :
    Triple P (Pure.pure a : Prog σ ε α) Q E := start

theorem Triple.fail {e : ε} (start : ∀ s, P s → E s) : Triple P (Prog.fail e : Prog σ ε α) Q E :=
  start

theorem Triple.bind {f : α → Prog σ ε β} (first : Triple P p Q E)
    (rest : ∀ a, Triple (Q a) (f a) R E) : Triple P (p >>= f) R E := by
  apply Triple.of_runs
  · intro s b t start ran
    obtain ⟨a, u, returned, ran⟩ := bind_ok ran
    exact (rest a).ok (first.ok start returned) ran
  · intro s e t start ran
    rcases bind_error ran with failed | ⟨a, u, returned, failed⟩
    · exact first.error start failed
    · exact (rest a).error (first.ok start returned) failed

theorem Triple.ite {c : Prop} [Decidable c] {p q : Prog σ ε α} (left : c → Triple P p Q E)
    (right : ¬ c → Triple P q Q E) : Triple P (if c then p else q) Q E := by
  split
  next holds => exact left holds
  next fails => exact right fails

/-- Whichever way `p` ends, the attempt returns. -/
theorem Triple.attempt (spec : Triple P p (fun _ => I) I) :
    Triple P p.attempt (fun _ => I) E := by
  intro s start
  change I (p.run s).2
  cases result : p.run s with
  | mk r t =>
    cases r with
    | ok a => exact spec.ok start result
    | error e => exact spec.error start result

/-- `p` keeps `I`, whether it returns or fails. -/
abbrev Maintains (I : σ → Prop) (p : Prog σ ε α) : Prop := Triple I p (fun _ => I) I

/-- The state after a program that maintains `I`. -/
theorem Maintains.of_run (kept : Maintains I p) {s t : σ} {r : Except ε α}
    (start : I s) (ran : p.run s = (r, t)) : I t := by
  cases r with
  | ok a => exact Triple.ok kept start ran
  | error e => exact Triple.error kept start ran

/-! ### Failures that are counted -/

/-- Each failure of `p` shows in the count: it has gone up. -/
def Counted (count : σ → Nat) (p : Prog σ ε α) : Prop :=
  ∀ s t e, p.run s = (.error e, t) → count s < count t

variable {count : σ → Nat}

theorem Counted.pure (a : α) : Counted count (Pure.pure a : Prog σ ε α) := by
  intro s t e ran
  cases ran

/-- The count does not go down, so a failure of the second part shows in the sequence. -/
theorem Counted.bind (monotone : Monotone count) {g : α → Prog σ ε β}
    (first : Counted count p) (rest : ∀ a, Counted count (g a)) : Counted count (p >>= g) := by
  intro s t e ran
  rcases bind_error ran with failed | ⟨a, u, returned, failed⟩
  · exact first s t e failed
  · have below : count s ≤ count u := monotone (up_of_run returned)
    exact lt_of_le_of_lt below (rest a u t e failed)

end Prog
end Hima.Fallible
