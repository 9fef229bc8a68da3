import Mathlib.Data.List.Forall2

/-!
# The longest prefix of a list that a relation has values for
-/
namespace Hima.LongestPrefix

variable {α β : Type} {R S : α → β → Prop} {as : List α} {bs cs : List β}

inductive Longest (R : α → β → Prop) : List α → List β → Prop
  | nil : Longest R [] []
  | stop {a : α} {as : List α} : (∀ b, ¬ R a b) → Longest R (a :: as) []
  | more {a : α} {as : List α} {b : β} {bs : List β} : R a b → Longest R as bs → Longest R (a :: as) (b :: bs)

theorem Longest.unique (functional : ∀ a b c, R a b → R a c → b = c) (first : Longest R as bs)
    (second : Longest R as cs) : bs = cs := by
  induction first generalizing cs with
  | nil =>
    cases second
    rfl
  | stop none_here =>
    cases second with
    | stop => rfl
    | more here => exact absurd here (none_here _)
  | more here _ ih =>
    cases second with
    | stop none_here => exact absurd here (none_here _)
    | more here' rest => rw [functional _ _ _ here here', ih rest]

theorem Longest.of_forall₂ (all : List.Forall₂ R as bs) : Longest R as bs := by
  induction all with
  | nil => exact .nil
  | cons here _ ih => exact .more here ih

/-- `S` has no value either for the first element that `R` has none for. -/
def Agree (R S : α → β → Prop) (as : List α) : Prop :=
  ∀ before a after, as = before ++ a :: after → (∀ x ∈ before, ∃ b, R x b) → (∃ b, S a b) → ∃ b, R a b

theorem agree_cons {a : α} : Agree R S (a :: as) ↔
    ((∃ b, S a b) → ∃ b, R a b) ∧ ((∃ b, R a b) → Agree R S as) := by
  constructor
  · intro agree
    refine ⟨agree [] a as rfl (List.forall_mem_nil _), ?_⟩
    rintro here before x after rfl earlier
    exact agree (a :: before) x after rfl (List.forall_mem_cons.mpr ⟨here, earlier⟩)
  · rintro ⟨head, tail⟩ before x after split earlier
    cases before with
    | nil =>
      obtain ⟨rfl, rfl⟩ := List.cons.inj split
      exact head
    | cons y before =>
      obtain ⟨rfl, rest⟩ := List.cons.inj split
      obtain ⟨here, earlier⟩ := List.forall_mem_cons.mp earlier
      exact tail here before x after rest earlier

/-- When a wider relation finds nothing more. -/
theorem Longest.narrow_iff (wider : ∀ a b, R a b → S a b) (functional : ∀ a b c, S a b → S a c → b = c)
    (longest : Longest S as bs) : Longest R as bs ↔ Agree R S as := by
  induction longest with
  | nil =>
    refine iff_of_true .nil ?_
    intro before a after split
    exact absurd split (by simp)
  | stop none_here =>
    refine iff_of_true (.stop fun b here => none_here b (wider _ b here)) (agree_cons.mpr ⟨?_, ?_⟩)
    · rintro ⟨b, here⟩
      exact absurd here (none_here b)
    · rintro ⟨b, here⟩
      exact absurd (wider _ b here) (none_here b)
  | more here _ ih =>
    rw [agree_cons, ← ih]
    constructor
    · -- both relations have a value here, which is one and the same
      rintro (_ | _ | ⟨narrow, rest⟩)
      exact ⟨fun _ => ⟨_, narrow⟩, fun _ => rest⟩
    · rintro ⟨head, tail⟩
      obtain ⟨c, narrow⟩ := head ⟨_, here⟩
      obtain rfl := functional _ _ _ here (wider _ _ narrow)
      exact .more narrow (tail ⟨_, narrow⟩)

end Hima.LongestPrefix
