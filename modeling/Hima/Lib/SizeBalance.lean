import Mathlib.Algebra.Group.Nat.Defs
import Mathlib.Data.Nat.Log
import Mathlib.Data.Tree.Basic

/-!
# Trees that grow on the smaller side

A new leaf goes down to the side that has fewer nodes, to the left where both have as many. The sizes of the two
sides of a node never differ by more than one, and the height is the logarithm of the size.
-/
namespace Hima.SizeBalance

open BinaryTree

variable {α : Type*} {t : BinaryTree α} {k : Nat}

/-- Every node has as many nodes on its left as on its right, or one more. -/
def LeansLeft : BinaryTree α → Prop
  | nil => True
  | node _ l r =>
    (l.numNodes = r.numNodes ∨ l.numNodes = r.numNodes + 1) ∧ LeansLeft l ∧ LeansLeft r

def grow (x : α) : BinaryTree α → BinaryTree α
  | nil => node x nil nil
  | node y l r => if l.numNodes ≤ r.numNodes then node y (grow x l) r else node y l (grow x r)

/-- The nodes that a new leaf passes on its way down. -/
def passed : BinaryTree α → Nat
  | nil => 0
  | node _ l r => (if l.numNodes ≤ r.numNodes then passed l else passed r) + 1

@[simp] theorem numNodes_grow (x : α) (t : BinaryTree α) : (grow x t).numNodes = t.numNodes + 1 := by
  induction t with
  | nil => rfl
  | node y l r ihl ihr =>
    rw [grow]
    split
    · rw [numNodes, numNodes, ihl]
      omega
    · rw [numNodes, numNodes, ihr]
      omega

theorem LeansLeft.grow (leans : LeansLeft t) (x : α) : LeansLeft (grow x t) := by
  induction t with
  | nil => exact ⟨.inl rfl, trivial, trivial⟩
  | node y l r ihl ihr =>
    obtain ⟨sizes, left, right⟩ := leans
    rw [SizeBalance.grow]
    split
    next =>
      refine ⟨?_, ihl left, right⟩
      rw [numNodes_grow]
      omega
    next =>
      refine ⟨?_, left, ihr right⟩
      rw [numNodes_grow]
      omega

/-! ### Heights -/

theorem LeansLeft.height_le_iff (leans : LeansLeft t) : t.height ≤ k ↔ t.numNodes < 2 ^ k := by
  induction t generalizing k with
  | nil => exact iff_of_true (Nat.zero_le k) (Nat.two_pow_pos k)
  | node y l r ihl ihr =>
    obtain ⟨sizes, left, right⟩ := leans
    cases k with
    | zero => exact iff_of_false (Nat.not_succ_le_zero _) (Nat.not_lt.mpr (Nat.succ_pos _))
    | succ k =>
      have both : (node y l r).height ≤ k + 1 ↔ l.height ≤ k ∧ r.height ≤ k := by
        rw [height, Nat.add_le_add_iff_right, Nat.max_le]
      -- the left side is the larger one: it decides
      rw [both, ihl left, ihr right, numNodes, Nat.pow_succ]
      omega

theorem LeansLeft.height_le (leans : LeansLeft t) : t.height ≤ Nat.log 2 t.numNodes + 1 :=
  leans.height_le_iff.mpr (Nat.lt_pow_succ_log_self Nat.one_lt_two t.numNodes)

/-- Half of the other nodes, rounded down, are on the way. -/
theorem LeansLeft.passed_eq (leans : LeansLeft t) : passed t = Nat.log 2 (t.numNodes + 1) := by
  induction t with
  | nil => simp [passed]
  | node y l r ihl ihr =>
    obtain ⟨sizes, left, right⟩ := leans
    have halves : Nat.log 2 ((node y l r).numNodes + 1) = Nat.log 2 (r.numNodes + 1) + 1 := by
      rw [Nat.log_of_one_lt_of_le Nat.one_lt_two (by rw [numNodes]; omega), numNodes]
      congr 2
      omega
    rw [passed, halves]
    split
    next fewer =>
      -- the left side is never the smaller one
      have same : l.numNodes = r.numNodes := by omega
      rw [ihl left, same]
    next => rw [ihr right]

end Hima.SizeBalance
