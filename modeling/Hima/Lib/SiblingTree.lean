import Mathlib.Data.List.Basic

/-!
# Trees of siblings

A forest as a chain of siblings, each with its children, and the recursive walk over it that a program
makes: a loop over the siblings that calls itself for the children. Every call has local variables
of its own. What a walk does to an abstraction of its state is a fold over the nodes in document order.
-/
namespace Hima.SiblingTree

inductive Forest (ν : Type) where
  | null
  | node (label : ν) (children next : Forest ν)
deriving DecidableEq

variable {ν σ τ κ : Type}

/-- The nodes given one after the other, as siblings. -/
def chain : List (ν × Forest ν) → Forest ν
  | [] => .null
  | (x, children) :: rest => .node x children (chain rest)

section Walk

variable (descends : ν → Bool) (enter : ν → Forest ν → τ → σ → Option (τ × σ)) (fresh : τ)

/-- Enters each sibling, and walks the children of those it descends into with fresh variables. -/
def walk : Forest ν → τ → σ → Option σ
  | .null, _, s => some s
  | .node x children next, l, s => do
    let (l, s) ← enter x children l s
    let s ← if descends x then walk children fresh s else some s
    walk next l s

/-- The nodes that a walk enters, in document order. -/
def visits : Forest ν → List (ν × Forest ν)
  | .null => []
  | .node x children next =>
    (x, children) :: ((if descends x then visits children else []) ++ visits next)

variable {descends enter fresh}

/-- What a walk leaves of its state, when the steps do not depend on more than that. -/
theorem walk_map {abs : σ → κ} {step : κ → ν × Forest ν → Option κ} (simulates : ∀ x children l s,
      (enter x children l s).map (fun r => abs r.2) = step (abs s) (x, children))
    (t : Forest ν) (l : τ) (s : σ) :
    (walk descends enter fresh t l s).map abs = (visits descends t).foldlM step (abs s) := by
  induction t generalizing l s with
  | null => rfl
  | node x children next down across =>
    have entered := simulates x children l s
    rw [walk, visits, List.foldlM_cons, ← entered]
    cases enter x children l s with
    | none => rfl
    | some r =>
      obtain ⟨l, s⟩ := r
      by_cases descended : descends x = true
      · have below := down fresh s
        simp only [descended, if_true, Option.bind_eq_bind, Option.bind_some, Option.map_some,
          List.foldlM_append]
        rw [← below]
        cases walk descends enter fresh children fresh s with
        | none => rfl
        | some s => simpa using across l s
      · simpa [descended] using across l s

/-- A walk that gets through enters the first node, walks its children if it descends into it, and
then the siblings. -/
theorem walk_node_eq_some {x : ν} {children next : Forest ν} {l : τ} {s t : σ}
    (done : walk descends enter fresh (.node x children next) l s = some t) :
    ∃ l' s₁ s₂, enter x children l s = some (l', s₁) ∧
      (if descends x then walk descends enter fresh children fresh s₁ else some s₁) = some s₂ ∧
      walk descends enter fresh next l' s₂ = some t := by
  obtain ⟨⟨l', s₁⟩, entered, done⟩ := Option.bind_eq_some_iff.mp done
  by_cases descended : descends x = true
  · simp only [descended, if_true] at done ⊢
    obtain ⟨s₂, below, done⟩ := Option.bind_eq_some_iff.mp done
    exact ⟨l', s₁, s₂, entered, below, done⟩
  · simp only [descended] at done ⊢
    exact ⟨l', s₁, s₁, entered, rfl, done⟩

end Walk

/-! ### Folds that stop -/

/-- A fold whose steps have an outcome where `ok` holds gets through when `ok` holds at each element,
in the state that those before it lead to. -/
theorem foldlM_isSome_iff {α : Type} {ok : κ → α → Prop} [∀ k a, Decidable (ok k a)] {next : κ → α → κ}
    (l : List α) (k : κ) :
    (l.foldlM (fun k a => if ok k a then some (next k a) else none) k).isSome ↔
      ∀ pre a post, l = pre ++ a :: post → ok (pre.foldl next k) a := by
  induction l generalizing k with
  | nil => simp
  | cons x xs ih =>
    by_cases first : ok k x
    · have rest := ih (next k x)
      simp only [List.foldlM_cons, if_pos first, Option.bind_eq_bind, Option.bind_some, rest]
      constructor
      · intro later pre a post here
        cases pre with
        | nil =>
          obtain ⟨rfl, rfl⟩ := List.cons.inj here
          exact first
        | cons y pre =>
          obtain ⟨rfl, here'⟩ := List.cons.inj here
          exact later pre a post here'
      · intro all pre a post here
        exact all (x :: pre) a post (by rw [here, List.cons_append])
    · simp only [List.foldlM_cons, if_neg first, Option.bind_eq_bind, Option.bind_none,
        Option.isSome_none, Bool.false_eq_true, false_iff]
      intro all
      exact first (all [] x xs rfl)

/-- Where no step moves the state, each element is looked at in the same one. -/
theorem foldlM_isSome_of_still {α : Type} {ok : κ → α → Prop} [∀ k a, Decidable (ok k a)]
    {next : κ → α → κ} {l : List α} {k : κ} (still : ∀ a ∈ l, next k a = k) :
    (l.foldlM (fun k a => if ok k a then some (next k a) else none) k).isSome ↔ ∀ a ∈ l, ok k a := by
  induction l with
  | nil => simp
  | cons x xs ih =>
    have rest := ih fun a member => still a (List.mem_cons_of_mem x member)
    by_cases first : ok k x
    · simp [first, still x List.mem_cons_self, rest]
    · simp [first]

end Hima.SiblingTree
