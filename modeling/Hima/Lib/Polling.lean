import Hima.Lib.Fallible

/-!
# Polling

A program reads until it finds what it waits for, at most so many times. What read number `n` brings is
fixed by the state from which the reads start, since nothing else happens between them.
-/
namespace Hima.Fallible.Prog

variable {σ ε α : Type} [Preorder σ] (read : Prog σ ε α) (wanted : α → Prop)

/-- The state after `n` reads, whatever they brought. -/
def after : Nat → σ → σ
  | 0, s => s
  | n + 1, s => after n (read.run s).2

/-- What read number `n` brings, counted from 0. -/
def outcome (n : Nat) (s : σ) : Except ε α := (read.run (read.after n s)).1

/-- The first `n` reads bring values, none of them wanted. -/
def Waits (n : Nat) (s : σ) : Prop := ∀ k < n, ∃ a, read.outcome k s = .ok a ∧ ¬ wanted a

/-- Reads until the value is wanted or no try is `left` after this one, and counts the reads. -/
def poll [DecidablePred wanted] : (left tries : Nat) → Prog σ ε (α × Nat)
  | 0, tries => do
    let value ← read
    pure (value, tries + 1)
  | left + 1, tries => do
    let value ← read
    if wanted value then pure (value, tries + 1) else poll left (tries + 1)

variable {read wanted}

theorem waits_zero (s : σ) : Waits read wanted 0 s := fun _ below => absurd below (Nat.not_lt_zero _)

/-- The first read is one that is waited through, and so are those from the state that it leaves. -/
theorem waits_succ {n : Nat} {s : σ} :
    Waits read wanted (n + 1) s ↔
      (∃ a, (read.run s).1 = .ok a ∧ ¬ wanted a) ∧ Waits read wanted n (read.run s).2 := by
  constructor
  · intro waits
    exact ⟨waits 0 (Nat.zero_lt_succ n), fun k below => waits (k + 1) (Nat.succ_lt_succ below)⟩
  · rintro ⟨first, rest⟩ k below
    cases k with
    | zero => exact first
    | succ k => exact rest k (Nat.lt_of_succ_lt_succ below)

theorem Waits.mono {m n : Nat} {s : σ} (waits : Waits read wanted n s) (le : m ≤ n) :
    Waits read wanted m s := fun k below => waits k (Nat.lt_of_lt_of_le below le)

/-- Nothing but waiting, or a read that ends it. -/
theorem waits_or (n : Nat) (s : σ) :
    Waits read wanted n s ∨ ∃ k < n, Waits read wanted k s ∧
      ((∃ a, read.outcome k s = .ok a ∧ wanted a) ∨ ∃ e, read.outcome k s = .error e) := by
  induction n with
  | zero => exact .inl (waits_zero s)
  | succ n ih =>
    rcases ih with waits | ⟨k, below, ends⟩
    · cases found : read.outcome n s with
      | error e => exact .inr ⟨n, Nat.lt_succ_self n, waits, .inr ⟨e, found⟩⟩
      | ok a =>
        by_cases want : wanted a
        · exact .inr ⟨n, Nat.lt_succ_self n, waits, .inl ⟨a, found, want⟩⟩
        · left
          intro k below
          rcases Nat.lt_succ_iff_lt_or_eq.mp below with earlier | rfl
          · exact waits k earlier
          · exact ⟨a, found, want⟩
    · exact .inr ⟨k, Nat.lt_succ_of_lt below, ends⟩

/-- The read that ends the waiting is the only one of its kind. -/
theorem Waits.le_of_wanted {k n : Nat} {s : σ} {a : α} (waits : Waits read wanted n s)
    (found : read.outcome k s = .ok a) (want : wanted a) : n ≤ k := by
  by_contra above
  obtain ⟨b, read_b, unwanted⟩ := waits k (Nat.lt_of_not_le above)
  obtain rfl : a = b := Except.ok.inj (found.symm.trans read_b)
  exact unwanted want

theorem Waits.le_of_error {k n : Nat} {s : σ} {e : ε} (waits : Waits read wanted n s)
    (failed : read.outcome k s = .error e) : n ≤ k := by
  by_contra above
  obtain ⟨b, read_b, -⟩ := waits k (Nat.lt_of_not_le above)
  cases failed.symm.trans read_b

/-! ### How the loop ends -/

variable [DecidablePred wanted]

theorem run_read_bind {β : Type} (f : α → Prog σ ε β) {s : σ} {a : α} (brought : (read.run s).1 = .ok a) :
    (read >>= f).run s = (f a).run (read.run s).2 := by
  rw [run_bind, show read.run s = (.ok a, (read.run s).2) from Prod.ext brought rfl]

theorem after_succ (n : Nat) (s : σ) : read.after (n + 1) s = (read.run (read.after n s)).2 := by
  induction n generalizing s with
  | zero => rfl
  | succ n ih => exact ih _

/-- Through the reads that it waits, the loop goes on with the tries that are left. -/
theorem poll_waits {k : Nat} {s : σ} (left tries : Nat) (waits : Waits read wanted k s) :
    (poll read wanted (left + k) tries).run s = (poll read wanted left (tries + k)).run (read.after k s) := by
  induction k generalizing tries s with
  | zero => rfl
  | succ k ih =>
    obtain ⟨⟨b, brought, unwanted⟩, waits⟩ := waits_succ.mp waits
    rw [← Nat.add_assoc, poll, run_read_bind _ brought, if_neg unwanted, ih (tries + 1) waits,
      Nat.add_right_comm tries 1 k]
    rfl

/-- The wanted value is found by the read that brings it. -/
theorem poll_found {left : Nat} {k : Nat} {s : σ} {a : α} (tries : Nat) (inside : k ≤ left)
    (waits : Waits read wanted k s) (found : read.outcome k s = .ok a) (want : wanted a) :
    (poll read wanted left tries).run s = (.ok (a, tries + k + 1), read.after (k + 1) s) := by
  obtain ⟨left, rfl⟩ := Nat.exists_eq_add_of_le' inside
  rw [poll_waits left tries waits, after_succ]
  cases left with
  | zero =>
    rw [poll, run_read_bind _ found]
    rfl
  | succ left =>
    rw [poll, run_read_bind _ found, if_pos want]
    rfl

/-- The first read that fails ends the loop with its failure. -/
theorem poll_failed {left : Nat} {k : Nat} {s : σ} {e : ε} (tries : Nat) (inside : k ≤ left)
    (waits : Waits read wanted k s) (failed : read.outcome k s = .error e) :
    (poll read wanted left tries).run s = (.error e, read.after (k + 1) s) := by
  obtain ⟨left, rfl⟩ := Nat.exists_eq_add_of_le' inside
  have fails : read.run (read.after k s) = (.error e, (read.run (read.after k s)).2) := Prod.ext failed rfl
  rw [poll_waits left tries waits, after_succ]
  cases left with
  | zero => rw [poll, run_bind, fails]
  | succ left => rw [poll, run_bind, fails]

/-- With no wanted value among them, all the reads are made. -/
theorem poll_exhausted {left : Nat} {s : σ} (tries : Nat) (waits : Waits read wanted (left + 1) s) :
    ∃ a, (poll read wanted left tries).run s = (.ok (a, tries + left + 1), read.after (left + 1) s) := by
  obtain ⟨a, brought, -⟩ := waits left (Nat.lt_succ_self left)
  have last := poll_waits 0 tries (waits.mono (Nat.le_succ left))
  rw [Nat.zero_add, poll, run_read_bind _ brought, ← after_succ] at last
  exact ⟨a, last⟩

end Hima.Fallible.Prog
