import Mathlib.Algebra.BigOperators.Group.List.Basic
import Mathlib.Data.Nat.ModEq

/-!
# One's complement sums

Addition of words below a base `b` with end-around carry: a carry out of the highest digit is
added in again at the lowest. Sums are taken modulo `b - 1`, where 0 and `b - 1` are the two
words for zero.
-/
namespace OnesComplement

variable {b : Nat}

/-- The carry of a partial sum, if there is one, is added in at the bottom. -/
def fold (b n : Nat) : Nat := if n < b then n else n % b + 1

/-- Addition with end-around carry. -/
def add (b x y : Nat) : Nat := fold b (x + y)

/-- The end-around-carry sum of a list of words. -/
def sum (b : Nat) (words : List Nat) : Nat := words.foldl (add b) 0

/-! ### One addition -/

theorem fold_of_carry {n : Nat} (carry : b ≤ n) (small : n < 2 * b) : fold b n = n - b + 1 := by
  have rest : n % b = n - b := by
    rw [Nat.mod_eq_sub_mod carry, Nat.mod_eq_of_lt (by omega)]
  rw [fold, if_neg (by omega), rest]

theorem add_lt {x y : Nat} (hx : x < b) (hy : y < b) : add b x y < b := by
  by_cases carry : x + y < b
  · rwa [add, fold, if_pos carry]
  · rw [add, fold_of_carry (by omega) (by omega)]
    omega

/-- The carry weighs `b`, which is 1 modulo `b - 1`. -/
theorem add_modEq {x y : Nat} (hx : x < b) (hy : y < b) : add b x y ≡ x + y [MOD b - 1] := by
  by_cases carry : x + y < b
  · rw [add, fold, if_pos carry]
  · rw [add, fold_of_carry (by omega) (by omega)]
    have weighs : x + y = (x + y - b + 1) + (b - 1) := by omega
    conv_rhs => rw [weighs]
    exact Nat.add_modEq_right.symm

theorem add_eq_zero_iff {x y : Nat} (pos : 0 < b) : add b x y = 0 ↔ x = 0 ∧ y = 0 := by
  by_cases carry : x + y < b
  · rw [add, fold, if_pos carry]
    exact Nat.add_eq_zero_iff
  · constructor
    · intro zero
      rw [add, fold, if_neg carry] at zero
      omega
    · rintro ⟨rfl, rfl⟩
      exact absurd pos carry

/-- Words other than 0 have one representative each. -/
theorem eq_of_modEq {x y : Nat} (hx : 0 < x ∧ x < b) (hy : 0 < y ∧ y < b)
    (same : x ≡ y [MOD b - 1]) : x = y := by
  have shifted : x - 1 ≡ y - 1 [MOD b - 1] := by
    apply Nat.ModEq.add_right_cancel' 1
    rwa [Nat.sub_add_cancel hx.1, Nat.sub_add_cancel hy.1]
  have := shifted.eq_of_lt_of_lt (by omega) (by omega)
  omega

/-! ### Sums -/

theorem foldl_add {words : List Nat} (small : ∀ x ∈ words, x < b) {start : Nat} (first : start < b) :
    words.foldl (add b) start < b ∧ words.foldl (add b) start ≡ start + words.sum [MOD b - 1] ∧
      (words.foldl (add b) start = 0 ↔ start = 0 ∧ ∀ x ∈ words, x = 0) := by
  induction words generalizing start with
  | nil => exact ⟨first, .refl _, by simp⟩
  | cons x words ih =>
    have hx := small x List.mem_cons_self
    obtain ⟨lt, modEq, zero⟩ :=
      ih (fun y member => small y (List.mem_cons_of_mem _ member)) (add_lt first hx)
    refine ⟨lt, ?_, ?_⟩
    · rw [List.foldl_cons, List.sum_cons, ← Nat.add_assoc]
      exact modEq.trans ((add_modEq first hx).add_right _)
    · rw [List.foldl_cons, zero, add_eq_zero_iff (Nat.zero_lt_of_lt first), and_assoc, List.forall_mem_cons]

section Sum

variable {words : List Nat} (small : ∀ x ∈ words, x < b)

include small

theorem sum_lt (pos : 0 < b) : sum b words < b := (foldl_add small pos).1

theorem sum_modEq (pos : 0 < b) : sum b words ≡ words.sum [MOD b - 1] := by
  have := (foldl_add small pos).2.1
  rwa [Nat.zero_add] at this

theorem sum_eq_zero_iff (pos : 0 < b) : sum b words = 0 ↔ ∀ x ∈ words, x = 0 := by
  have := (foldl_add small pos).2.2
  rwa [eq_self_iff_true, true_and] at this

end Sum

/-! ### Replacing words -/

/-- `words'` has the words `new` where `words` has `old`, in whatever places. -/
def Replaces {α : Type} (old new words words' : List α) : Prop :=
  ∃ rest, words.Perm (old ++ rest) ∧ words'.Perm (new ++ rest)

theorem Replaces.map {α β : Type} {old new words words' : List α}
    (replaces : Replaces old new words words') (f : α → β) :
    Replaces (old.map f) (new.map f) (words.map f) (words'.map f) := by
  obtain ⟨rest, before, after⟩ := replaces
  exact ⟨rest.map f, by simpa using before.map f, by simpa using after.map f⟩

/-- A delta that makes up for the words replaced makes up for them in the sum of any list. The two
sums are the same word unless the new list has only zeros and its delta sum is the other zero. -/
theorem sum_replaces {old new words words' : List Nat} {delta : Nat}
    (replaces : Replaces old new words words') (small : ∀ x ∈ words, x < b)
    (small' : ∀ x ∈ words', x < b) (delta_lt : delta < b) (makes_up : delta + old.sum ≡ new.sum [MOD b - 1])
    (apart : (∀ x ∈ old, x = 0) → delta ≠ 0) :
    sum b words' = add b (sum b words) delta ∨ sum b words' = 0 ∧ add b (sum b words) delta = b - 1 := by
  obtain ⟨rest, before, after⟩ := replaces
  have pos : 0 < b := Nat.zero_lt_of_lt delta_lt
  have lt := sum_lt small pos
  have lt' := sum_lt small' pos
  have same : sum b words' ≡ add b (sum b words) delta [MOD b - 1] := by
    calc sum b words' ≡ words'.sum [MOD b - 1] := sum_modEq small' pos
      _ = new.sum + rest.sum := by rw [after.sum_eq, List.sum_append]
      _ ≡ delta + old.sum + rest.sum [MOD b - 1] := makes_up.symm.add_right _
      _ = words.sum + delta := by rw [before.sum_eq, List.sum_append]; omega
      _ ≡ sum b words + delta [MOD b - 1] := (sum_modEq small pos).symm.add_right _
      _ ≡ add b (sum b words) delta [MOD b - 1] := (add_modEq lt delta_lt).symm
  -- the right-hand side is not 0: that would make the old words and the delta all 0
  have nonzero : 0 < add b (sum b words) delta := by
    apply Nat.pos_of_ne_zero
    intro zero
    obtain ⟨sum_zero, delta_zero⟩ := (add_eq_zero_iff pos).mp zero
    refine apart (fun x member => ?_) delta_zero
    exact (sum_eq_zero_iff small pos).mp sum_zero x (before.mem_iff.mpr (List.mem_append_left _ member))
  have bound := add_lt lt delta_lt
  rcases Nat.eq_zero_or_pos (sum b words') with zero | positive
  · right
    refine ⟨zero, ?_⟩
    rw [zero] at same
    have divides : b - 1 ∣ add b (sum b words) delta := (Nat.modEq_zero_iff_dvd).mp same.symm
    exact Nat.le_antisymm (by omega) (Nat.le_of_dvd nonzero divides)
  · exact Or.inl (eq_of_modEq ⟨positive, lt'⟩ ⟨nonzero, bound⟩ same)

end OnesComplement
