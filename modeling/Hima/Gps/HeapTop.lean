import Hima.Gps.HeapQueue

/-!
# The top of a LocHeap, and ranks that agree

Who is on top after an operation. And an operation only compares elements of the heap and its
argument: with two `ranks` that agree on these it does the same.
-/
namespace Hima.Gps

open Multiset LocHeapNode

variable {α : Type} {ranks ranks' : α → α → Int}

/-- No two elements of `s` are ranked differently. -/
def Agree (ranks ranks' : α → α → Int) (s : Multiset α) : Prop :=
  ∀ a ∈ s, ∀ b ∈ s, outRanks ranks a b = outRanks ranks' a b

theorem Agree.mono {s t : Multiset α} (agree : Agree ranks ranks' s) (sub : t ⊆ s) :
    Agree ranks ranks' t :=
  fun a member b member' => agree a (sub member) b (sub member')

namespace LocHeapNode

theorem mem_of_mData {t : LocHeapNode α} {d : α} (root : t.mData = some d) : d ∈ t.elems := by
  cases t with
  | null => cases root
  | node s l d' r =>
    obtain rfl : d' = d := Option.some.inj root
    exact mem_cons_self _ _

theorem push_agree (t : LocHeapNode α) (x : α) (agree : Agree ranks ranks' (x ::ₘ t.elems)) :
    t.push ranks x = t.push ranks' x := by
  induction t generalizing x with
  | null => rfl
  | node s l d r ihl ihr =>
    have same : outRanks ranks x d = outRanks ranks' x d :=
      agree x (mem_cons_self _ _) d (by simp)
    rw [push, push, same]
    have lower_mem : (if outRanks ranks' x d = true then d else x) ∈ ({x, d} : Multiset α) := by
      split <;> simp
    generalize (if outRanks ranks' x d = true then d else x) = lower at lower_mem ⊢
    have lower_in : lower ∈ x ::ₘ (node s l d r).elems := by
      rcases mem_cons.mp lower_mem with rfl | at_d
      · exact mem_cons_self _ _
      · rw [mem_singleton.mp at_d]
        simp
    have below : ∀ t : LocHeapNode α, t.elems ⊆ (node s l d r).elems → Agree ranks ranks' (lower ::ₘ t.elems) := by
      intro t sub
      apply agree.mono
      intro y member
      rcases mem_cons.mp member with rfl | inside
      · exact lower_in
      · exact mem_cons_of_mem (sub inside)
    rw [ihl lower (below l fun y member => by simp [member]),
      ihr lower (below r fun y member => by simp [member])]

theorem pop_agree (data : α) (t : LocHeapNode α) (agree : Agree ranks ranks' t.elems) :
    t.pop ranks data = t.pop ranks' data := by
  induction t with
  | null => rfl
  | node s l d r ihl ihr =>
    have left := ihl (agree.mono fun y member => by simp [member])
    have right := ihr (agree.mono fun y member => by simp [member])
    rw [pop, pop, left, right]
    cases atl : l.mData with
    | none => cases r.mData <;> rfl
    | some ld =>
      cases atr : r.mData with
      | none => rfl
      | some rd =>
        have inl := mem_of_mData atl
        have inr := mem_of_mData atr
        dsimp only
        rw [agree ld (by simp [inl]) rd (by simp [inr])]

variable [DecidableEq α]

theorem remove_agree (x : α) (t : LocHeapNode α) (agree : Agree ranks ranks' (x ::ₘ t.elems)) :
    t.remove ranks x = t.remove ranks' x := by
  induction t with
  | null => rfl
  | node s l d r ihl ihr =>
    have below : ∀ t : LocHeapNode α, t.elems ⊆ (node s l d r).elems → Agree ranks ranks' (x ::ₘ t.elems) :=
      fun t sub => agree.mono (cons_subset_cons sub)
    have left := ihl (below l fun y member => by simp [member])
    have right := ihr (below r fun y member => by simp [member])
    have popped := pop_agree d (node s l d r) (agree.mono fun y member => mem_cons_of_mem member)
    have same : outRanks ranks x d = outRanks ranks' x d :=
      agree x (mem_cons_self _ _) d (by simp)
    rw [remove, remove, left, right, popped, same]

end LocHeapNode

namespace LocHeap

variable {heap : LocHeap α} {x : α}

theorem push_agree (agree : Agree ranks ranks' (x ::ₘ heap.stored)) :
    heap.push ranks x = heap.push ranks' x := by
  have tree : (heap.push ranks x).mTree = (heap.push ranks' x).mTree := by
    rw [mTree_push, mTree_push]
    exact LocHeapNode.push_agree _ x agree
  exact congrArg LocHeap.mk tree

theorem pop_agree (agree : Agree ranks ranks' heap.stored) : heap.pop ranks = heap.pop ranks' := by
  rcases heap with ⟨_ | ⟨s, l, d, r⟩⟩
  · rfl
  · rw [pop, pop]
    dsimp only
    rw [pop_agree d _ agree]

/-- The top stays, or the new element outranks it. -/
theorem peek_push (heap : LocHeap α) (x : α) :
    (heap.push ranks x).peek = heap.peek ∧ (heap.peek).isSome ∨
      (heap.push ranks x).peek = some x ∧ ∀ top ∈ heap.peek, outRanks ranks x top = true := by
  rcases heap with ⟨_ | ⟨s, l, d, r⟩⟩
  · exact .inr ⟨rfl, nofun⟩
  · obtain ⟨upper, lower, which, sides⟩ := @push_node α ranks s l d r x
    have top : ((⟨.node s l d r⟩ : LocHeap α).push ranks x).peek = some upper := by
      rw [push]
      rcases sides with eq | eq
      · simp only [eq, peek]
      · simp only [eq, peek]
    rcases which with ⟨above, rfl, rfl⟩ | ⟨_, rfl, rfl⟩
    · refine .inr ⟨top, fun d' at_top => ?_⟩
      obtain rfl := Option.some.inj at_top
      exact outRanks_iff.mpr above
    · exact .inl ⟨top, rfl⟩

variable [DecidableEq α]

theorem remove_agree (agree : Agree ranks ranks' (x ::ₘ heap.stored)) :
    heap.remove ranks x = heap.remove ranks' x := by
  rw [remove_eq, remove_eq, LocHeapNode.remove_agree x _ agree]

theorem remove_of_notMem (ranks : α → α → Int) (outside : x ∉ heap.stored) :
    heap.remove ranks x = (heap, none) := by
  rw [remove_eq]
  rcases @remove_spec α ranks _ x heap.mTree with same | ⟨_, fewer⟩
  · rw [same]
  · refine absurd ?_ outside
    rw [stored, fewer]
    exact mem_cons_self _ _

theorem WellFormed.remove_of_mem (wf : heap.WellFormed ranks) (inside : x ∈ heap.stored) :
    (heap.remove ranks x).2 = some x ∧ heap.stored = x ::ₘ (heap.remove ranks x).1.stored := by
  have found := remove_finds wf.ordered inside
  rw [remove_eq]
  rcases @remove_spec α ranks _ x heap.mTree with same | taken
  · rw [same] at found
    cases found
  · exact taken

/-- Only the removal of the top changes it. -/
theorem peek_remove (ranks : α → α → Int) (other : heap.peek ≠ some x) :
    (heap.remove ranks x).1.peek = heap.peek := by
  rw [remove_eq]
  rcases heap with ⟨_ | ⟨s, l, d, r⟩⟩
  · rfl
  · rcases @remove_node α ranks _ x s l d r with
      ⟨rfl, _⟩ | ⟨_, _, eq⟩ | ⟨_, _, ⟨y, _, eq⟩ | ⟨y, _, _, eq⟩ | ⟨_, _, eq⟩⟩
    · exact absurd rfl other
    all_goals
      simp only [eq, peek]

end LocHeap

/-!
## Every node of a LocHeap

What `checkNodes` accepts is a condition on each node and its children alone. Every heap that calls
lead to meets it, and the root is `NULL` exactly when all that was pushed has been handed back.
-/
open PriorityQueue

variable {ranks : α → α → Int}

namespace LocHeapNode

/-- `P` of every node: of its `mSize`, of its data, and of the trees on its two sides. -/
def EveryNode (P : Int → LocHeapNode α → α → LocHeapNode α → Prop) : LocHeapNode α → Prop
  | null => True
  | node s l d r => P s l d r ∧ l.EveryNode P ∧ r.EveryNode P

/-- The size is 1 more than those of the children, and neither child outranks the node. -/
structure Consistent (ranks : α → α → Int) (s : Int) (l : LocHeapNode α) (d : α) (r : LocHeapNode α) :
    Prop where
  size : s = 1 + l.mSize + r.mSize
  left : ∀ child, l.mData = some child → ¬ OutRanks ranks child d
  right : ∀ child, r.mData = some child → ¬ OutRanks ranks child d

/-- The test that `checkNodes` makes of one child. -/
theorem not_outRanked_iff (t : LocHeapNode α) (d : α) :
    t.mData.any (fun child => outRanks ranks child d) = false ↔
      ∀ child, t.mData = some child → ¬ OutRanks ranks child d := by
  cases t with
  | null => exact iff_of_true rfl nofun
  | node s l child r =>
    have one : (node s l child r).mData.any (fun child => outRanks ranks child d) = outRanks ranks child d :=
      rfl
    rw [one, Bool.eq_false_iff, ne_eq, not_outRanks_iff]
    constructor
    · rintro below _ ⟨⟩
      exact below
    · exact fun below => below child rfl

/-- `checkNodes` looks at every node and nothing else. -/
theorem checkNodes_iff (t : LocHeapNode α) :
    t.checkNodes ranks = true ↔ t.EveryNode (Consistent ranks) := by
  induction t with
  | null => exact iff_of_true rfl trivial
  | node s l d r ihl ihr =>
    have split : (node s l d r).checkNodes ranks = true ↔
        (l.mData.any (fun child => outRanks ranks child d) = false ∧ l.checkNodes ranks = true) ∧
          (r.mData.any (fun child => outRanks ranks child d) = false ∧ r.checkNodes ranks = true) ∧
            s - l.mSize - r.mSize = 1 := by
      rw [checkNodes]
      simp [and_assoc]
    rw [split, not_outRanked_iff, not_outRanked_iff, ihl, ihr]
    constructor
    · rintro ⟨⟨left, leftNodes⟩, ⟨right, rightNodes⟩, size⟩
      exact ⟨⟨by omega, left, right⟩, leftNodes, rightNodes⟩
    · rintro ⟨⟨size, left, right⟩, leftNodes, rightNodes⟩
      exact ⟨⟨left, leftNodes⟩, ⟨right, rightNodes⟩, by omega⟩

theorem elems_eq_zero_iff (t : LocHeapNode α) : t.elems = 0 ↔ t = null := by
  cases t with
  | null => exact iff_of_true rfl rfl
  | node s l d r => exact iff_of_false cons_ne_zero nofun

end LocHeapNode

namespace LocHeap

variable [DecidableEq α]

/-- Sizes and ranks are right in every heap that calls of `push`, `pop`, `peek` and `remove` lead to,
so that the check of the unit test accepts it, and there is a root unless everything that was pushed
has been popped or removed. -/
theorem heap_nodes_consistent (ranked : Ranked (OutRanks ranks)) (ops : List (Op α)) :
    let heap := (run ranks ops).1
    let calls := (run ranks ops).2
    heap.mTree.EveryNode (Consistent ranks) ∧ heap.checkTree ranks = true ∧
      (heap.mTree = .null ↔ popped calls + removed calls = pushed calls) := by
  intro heap calls
  have checked : heap.checkTree ranks = true := run_checkTree ranked ops
  have balance : heap.stored + (popped calls + removed calls) = pushed calls := by
    rw [← Multiset.add_assoc]
    exact (run_history ranked ops).balance
  refine ⟨(checkNodes_iff _).mp checked, checked, ?_⟩
  rw [← elems_eq_zero_iff, ← balance]
  constructor
  · intro empty
    rw [stored, empty, Multiset.zero_add]
  · intro all
    exact Multiset.add_left_inj.mp (all.symm.trans (Multiset.zero_add _).symm)

/-- Five elements, two of them of one rank; the one on top is popped, one leaves from below. -/
theorem heap_nodes_consistent_sample :
    let ranks : Nat × Nat → Nat × Nat → Int := fun a b => b.2 - a.2
    let ops : List (Op (Nat × Nat)) :=
      [.remove (2, 5), .pop, .push (4, 6), .push (3, 5), .push (2, 5), .push (1, 7), .push (0, 4)]
    (run ranks ops).1.mTree.EveryNode (Consistent ranks) ∧
      (run ranks ops).1.mTree.mSize = 3 := by
  intro ranks ops
  have ranked : Ranked (OutRanks ranks) := by
    constructor
    · intro a b
      simp only [OutRanks, ranks]
      omega
    · intro a b c
      simp only [OutRanks, ranks]
      omega
  exact ⟨(heap_nodes_consistent ranked ops).1, by decide⟩

end LocHeap

end Hima.Gps
