import Hima.Gps.HeapQueue
import Hima.Lib.SizeBalance
import Mathlib.Data.List.Induction

/-!
# Balance of a LocHeap

What `push` does to the shape of the tree does not depend on the ranks: the data that goes down is one of two, but
it goes to the smaller side either way. A heap that has only been pushed to is balanced.
-/
namespace Hima.Gps

open SizeBalance

variable {α : Type} {ranks : α → α → Int}

namespace LocHeapNode

/-- The sizes of the two children differ by at most one, at every node. -/
def Balanced : LocHeapNode α → Prop
  | null => True
  | node _ l _ r => |l.mSize - r.mSize| ≤ 1 ∧ l.Balanced ∧ r.Balanced

/-- The number of nodes on the longest way down. -/
def depth : LocHeapNode α → Nat
  | null => 0
  | node _ l _ r => max l.depth r.depth + 1

/-- `push` with the number of its calls, recursive ones included. There is none for `NULL`. -/
def pushCalls (ranks : α → α → Int) : LocHeapNode α → α → LocHeapNode α × Nat
  | null, incoming => (new incoming, 0)
  | node s l d r, incoming =>
    let upper := if outRanks ranks incoming d then incoming else d
    let lower := if outRanks ranks incoming d then d else incoming
    if l.isNull then (node (s + 1) (new lower) upper r, 1)
    else if r.isNull then (node (s + 1) l upper (new lower), 1)
    else if l.mSize ≤ r.mSize then
      let (l, calls) := l.pushCalls ranks lower
      (node (s + 1) l upper r, calls + 1)
    else
      let (r, calls) := r.pushCalls ranks lower
      (node (s + 1) l upper r, calls + 1)

/-- The tree without sizes and data. -/
def shape : LocHeapNode α → BinaryTree Unit
  | null => .nil
  | node _ l _ r => .node () l.shape r.shape

theorem numNodes_shape (t : LocHeapNode α) : t.shape.numNodes = t.elems.card := by
  induction t with
  | null => rfl
  | node s l d r ihl ihr =>
    rw [shape, BinaryTree.numNodes, ihl, ihr, elems_node, Multiset.card_cons, Multiset.card_add]

theorem height_shape (t : LocHeapNode α) : t.shape.height = t.depth := by
  induction t with
  | null => rfl
  | node s l d r ihl ihr => rw [shape, BinaryTree.height, ihl, ihr, depth]

theorem Sized.mSize_shape {t : LocHeapNode α} (sized : t.Sized) : t.mSize = t.shape.numNodes := by
  rw [sized.mSize, numNodes_shape]

theorem Sized.balanced {t : LocHeapNode α} (sized : t.Sized) (leans : LeansLeft t.shape) : t.Balanced := by
  induction t with
  | null => trivial
  | node s l d r ihl ihr =>
    obtain ⟨-, leftSized, rightSized⟩ := sized
    obtain ⟨sizes, left, right⟩ := leans
    refine ⟨?_, ihl leftSized left, ihr rightSized right⟩
    rw [leftSized.mSize_shape, rightSized.mSize_shape, abs_le]
    omega

theorem pushCalls_fst (t : LocHeapNode α) (x : α) : (t.pushCalls ranks x).1 = t.push ranks x := by
  induction t generalizing x with
  | null => rfl
  | node s l d r ihl ihr =>
    rw [pushCalls, push]
    rw [← ihl, ← ihr]
    split_ifs <;> rfl

/-- One of the two goes down on the side with the smaller `mSize`, `NULL` having none. -/
theorem pushCalls_node {l r : LocHeapNode α} (left : l.Sized) (right : r.Sized) (s : Int) (d x : α) :
    ∃ upper lower, (node s l d r).pushCalls ranks x =
      if l.mSize ≤ r.mSize then (node (s + 1) (l.push ranks lower) upper r, (l.pushCalls ranks lower).2 + 1)
      else (node (s + 1) l upper (r.push ranks lower), (r.pushCalls ranks lower).2 + 1) := by
  refine ⟨if outRanks ranks x d then x else d, if outRanks ranks x d then d else x, ?_⟩
  rw [pushCalls, ← pushCalls_fst, ← pushCalls_fst]
  -- the tests for `NULL` agree with the test of the sizes
  cases l with
  | null =>
    have smaller : (null : LocHeapNode α).mSize ≤ r.mSize := by
      rw [right.mSize]
      exact Int.natCast_nonneg _
    rw [if_pos smaller]
    rfl
  | node ls ll ld lr =>
    cases r with
    | null =>
      have larger : ¬ (node ls ll ld lr).mSize ≤ (null : LocHeapNode α).mSize := by
        rw [left.mSize, elems_node, Multiset.card_cons]
        exact Int.not_le.mpr (Int.natCast_pos.mpr (Nat.succ_pos _))
      rw [if_neg larger]
      rfl
    | node rs rl rd rr => rfl

/-- Whatever the ranks are, a push grows the tree on the smaller side, with a call for each node it passes. -/
theorem pushCalls_shape {t : LocHeapNode α} (sized : t.Sized) (x : α) :
    (t.push ranks x).shape = grow () t.shape ∧ (t.pushCalls ranks x).2 = passed t.shape := by
  induction t generalizing x with
  | null => exact ⟨rfl, rfl⟩
  | node s l d r ihl ihr =>
    obtain ⟨-, left, right⟩ := sized
    obtain ⟨upper, lower, pushed⟩ := @pushCalls_node α ranks l r left right s d x
    have sizes : l.mSize ≤ r.mSize ↔ l.shape.numNodes ≤ r.shape.numNodes := by
      rw [left.mSize_shape, right.mSize_shape, Nat.cast_le]
    rw [← pushCalls_fst, pushed, shape, grow, passed]
    simp only [sizes]
    split
    next => exact ⟨congrArg (BinaryTree.node () · r.shape) (ihl left lower).1, congrArg (· + 1) (ihl left lower).2⟩
    next => exact ⟨congrArg (BinaryTree.node () l.shape) (ihr right lower).1, congrArg (· + 1) (ihr right lower).2⟩

end LocHeapNode

namespace LocHeap

/-- A new heap after some calls of `push`. -/
def pushes (ranks : α → α → Int) (xs : List α) : LocHeap α := xs.foldl (LocHeap.push ranks) {}

theorem pushes_concat (xs : List α) (x : α) : pushes ranks (xs ++ [x]) = (pushes ranks xs).push ranks x :=
  List.foldl_concat ..

/-- After `n` pushes there are `n` nodes, and no node has a smaller side on the left. -/
theorem pushes_shape (ranks : α → α → Int) (xs : List α) : (pushes ranks xs).mTree.Sized ∧
    LeansLeft (pushes ranks xs).mTree.shape ∧ (pushes ranks xs).mTree.shape.numNodes = xs.length := by
  induction xs using List.reverseRecOn with
  | nil => exact ⟨trivial, trivial, rfl⟩
  | append_singleton xs x ih =>
    obtain ⟨sized, leans, nodes⟩ := ih
    -- only the shape counts, so the ranks are gone from here on
    have grown := (@LocHeapNode.pushCalls_shape α ranks _ sized x).1
    rw [pushes_concat, mTree_push, grown, numNodes_grow, nodes, List.length_append]
    exact ⟨LocHeapNode.sized_push sized x, leans.grow (), rfl⟩

/-- A heap of `n` pushed elements is balanced, as deep as the logarithm of `n` allows, and the next push makes as
many calls as the logarithm of `n + 1`. -/
theorem pushes_balanced (ranks : α → α → Int) (xs : List α) :
    (pushes ranks xs).mTree.Sized ∧ (pushes ranks xs).mTree.Balanced ∧
      (pushes ranks xs).mTree.depth ≤ Nat.log 2 xs.length + 1 ∧ ∀ x, (pushes ranks xs).mTree.pushCalls ranks x =
        ((pushes ranks (xs ++ [x])).mTree, Nat.log 2 (xs.length + 1)) := by
  obtain ⟨sized, leans, nodes⟩ := pushes_shape ranks xs
  refine ⟨sized, sized.balanced leans, ?_, fun x => Prod.ext ?_ ?_⟩
  · have shallow := leans.height_le
    rwa [LocHeapNode.height_shape, nodes] at shallow
  · rw [pushes_concat, mTree_push, LocHeapNode.pushCalls_fst]
  · rw [(LocHeapNode.pushCalls_shape sized x).2, leans.passed_eq, nodes]

end LocHeap

end Hima.Gps
