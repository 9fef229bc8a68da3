import Hima.Gps.LocHeap
import Hima.Lib.PriorityQueue

/-!
# LocHeap is a priority queue

The invariant is heap order in its strong form: no element of a subtree outranks the data of its
root. It is what makes the search of `remove` complete, which skips a subtree whose root the
element outranks.
-/
namespace Hima.Gps

open PriorityQueue Multiset

variable {α : Type} {ranks : α → α → Int}

/-- `outRanks` as a relation. -/
def OutRanks (ranks : α → α → Int) (a b : α) : Prop := 0 < ranks a b

theorem outRanks_iff {a b : α} : outRanks ranks a b = true ↔ OutRanks ranks a b :=
  decide_eq_true_iff

theorem not_outRanks_iff {a b : α} : ¬ outRanks ranks a b = true ↔ ¬ OutRanks ranks a b :=
  not_congr outRanks_iff

namespace LocHeapNode

/-- The elements in the nodes of a tree. -/
def elems : LocHeapNode α → Multiset α
  | null => 0
  | node _ l d r => d ::ₘ (l.elems + r.elems)

@[simp] theorem elems_null : (null : LocHeapNode α).elems = 0 := rfl

@[simp] theorem elems_node (s : Int) (l : LocHeapNode α) (d : α) (r : LocHeapNode α) :
    (node s l d r).elems = d ::ₘ (l.elems + r.elems) := rfl

@[simp] theorem elems_new (d : α) : (new d).elems = {d} := rfl

/-- No element of `t` outranks `d`. -/
def Under (ranks : α → α → Int) (d : α) (t : LocHeapNode α) : Prop :=
  ∀ y ∈ t.elems, ¬ OutRanks ranks y d

/-- Heap order: no element of a subtree outranks the data of its root. -/
def Ordered (ranks : α → α → Int) : LocHeapNode α → Prop
  | null => True
  | node _ l d r => (Under ranks d l ∧ l.Ordered ranks) ∧ Under ranks d r ∧ r.Ordered ranks

/-- Every `mSize` is the number of nodes below and at its node. -/
def Sized : LocHeapNode α → Prop
  | null => True
  | node s l d r => s = (node s l d r).elems.card ∧ l.Sized ∧ r.Sized

@[simp] theorem mData_null : (null : LocHeapNode α).mData = none := rfl

@[simp] theorem mData_node (s : Int) (l : LocHeapNode α) (d : α) (r : LocHeapNode α) :
    (node s l d r).mData = some d := rfl

theorem Under.null (d : α) : Under ranks d null := by
  intro y member
  simp at member

theorem Under.trans (ranked : Ranked (OutRanks ranks)) {d d' : α} {t : LocHeapNode α}
    (under : Under ranks d t) (below : ¬ OutRanks ranks d d') : Under ranks d' t :=
  fun y member => ranked.trans (under y member) below

theorem Under.mono {d : α} {t t' : LocHeapNode α} (under : Under ranks d t)
    (fewer : t'.elems ≤ t.elems) : Under ranks d t' :=
  fun y member => under y (mem_of_le fewer member)

/-- The data of the root is on top of a tree in heap order. -/
theorem Ordered.top (ranked : Ranked (OutRanks ranks)) {s : Int} {l r : LocHeapNode α} {d : α}
    (ordered : (node s l d r).Ordered ranks) : Under ranks d (node s l d r) := by
  intro y member
  simp only [elems_node, mem_cons, mem_add] at member
  rcases member with rfl | left | right
  · exact ranked.refl y
  · exact ordered.1.1 y left
  · exact ordered.2.1 y right

theorem ordered_new (d : α) : (new d).Ordered ranks :=
  ⟨⟨.null d, trivial⟩, .null d, trivial⟩

theorem sized_new (d : α) : (new d).Sized := ⟨by simp, trivial, trivial⟩

theorem Sized.mSize {t : LocHeapNode α} (sized : t.Sized) : t.mSize = t.elems.card := by
  cases t with
  | null => rfl
  | node s l d r => exact sized.1

/-! ### Pushing -/

theorem push_null (x : α) : (null : LocHeapNode α).push ranks x = new x := rfl

/-- The higher ranked of the two stays, the other goes down on one of the sides. -/
theorem push_node (s : Int) (l : LocHeapNode α) (d : α) (r : LocHeapNode α) (x : α) :
    ∃ upper lower, (OutRanks ranks x d ∧ upper = x ∧ lower = d ∨ ¬ OutRanks ranks x d ∧ upper = d ∧ lower = x) ∧
      ((node s l d r).push ranks x = node (s + 1) (l.push ranks lower) upper r ∨
        (node s l d r).push ranks x = node (s + 1) l upper (r.push ranks lower)) := by
  refine ⟨if outRanks ranks x d then x else d, if outRanks ranks x d then d else x, ?_, ?_⟩
  · by_cases higher : outRanks ranks x d = true
    · exact .inl ⟨outRanks_iff.mp higher, if_pos higher, if_pos higher⟩
    · exact .inr ⟨not_outRanks_iff.mp higher, if_neg higher, if_neg higher⟩
  · rw [push]
    cases l with
    | null => left; rfl
    | node ls ll ld lr =>
      cases r with
      | null => right; rfl
      | node rs rl rd rr =>
        dsimp only [isNull]
        simp only [Bool.false_eq_true, if_false]
        split
        · left; rfl
        · right; rfl

theorem elems_push (t : LocHeapNode α) (x : α) : (t.push ranks x).elems = x ::ₘ t.elems := by
  induction t generalizing x with
  | null => rw [push_null, elems_new, elems_null, cons_zero]
  | node s l d r ihl ihr =>
    obtain ⟨upper, lower, which, sides⟩ := @push_node α ranks s l d r x
    have both : upper ::ₘ lower ::ₘ (l.elems + r.elems) = x ::ₘ d ::ₘ (l.elems + r.elems) := by
      rcases which with ⟨_, rfl, rfl⟩ | ⟨_, rfl, rfl⟩
      · rfl
      · exact cons_swap _ _ _
    rcases sides with left | right
    · rw [left, elems_node, ihl, cons_add, both, elems_node]
    · rw [right, elems_node, ihr, add_cons, both, elems_node]

theorem ordered_push (ranked : Ranked (OutRanks ranks)) {t : LocHeapNode α}
    (ordered : t.Ordered ranks) (x : α) : (t.push ranks x).Ordered ranks := by
  induction t generalizing x with
  | null =>
    exact ordered_new x
  | node s l d r ihl ihr =>
    obtain ⟨⟨leftUnder, leftOrdered⟩, rightUnder, rightOrdered⟩ := ordered
    obtain ⟨upper, lower, which, sides⟩ := @push_node α ranks s l d r x
    -- The old data of the root and the lower one of the two stay below the upper one.
    have below : ¬ OutRanks ranks d upper ∧ ¬ OutRanks ranks lower upper := by
      rcases which with ⟨higher, rfl, rfl⟩ | ⟨lower, rfl, rfl⟩
      · exact ⟨ranked.asymm higher, ranked.asymm higher⟩
      · exact ⟨ranked.refl _, lower⟩
    have leftBelow := leftUnder.trans ranked below.1
    have rightBelow := rightUnder.trans ranked below.1
    have pushed : ∀ t : LocHeapNode α, Under ranks upper t → Under ranks upper (t.push ranks lower) := by
      intro t under y member
      rw [elems_push, mem_cons] at member
      rcases member with rfl | old
      · exact below.2
      · exact under y old
    rcases sides with left | right
    · rw [left]
      exact ⟨⟨pushed l leftBelow, ihl leftOrdered lower⟩, rightBelow, rightOrdered⟩
    · rw [right]
      exact ⟨⟨leftBelow, leftOrdered⟩, pushed r rightBelow, ihr rightOrdered lower⟩

theorem sized_push {t : LocHeapNode α} (sized : t.Sized) (x : α) : (t.push ranks x).Sized := by
  induction t generalizing x with
  | null =>
    exact sized_new x
  | node s l d r ihl ihr =>
    obtain ⟨size, leftSized, rightSized⟩ := sized
    have grown := congrArg card (@elems_push α ranks (node s l d r) x)
    obtain ⟨upper, lower, _, left | right⟩ := @push_node α ranks s l d r x
    · rw [left] at grown ⊢
      refine ⟨?_, ihl leftSized lower, rightSized⟩
      simp only [elems_node, card_cons] at size grown ⊢
      omega
    · rw [right] at grown ⊢
      refine ⟨?_, leftSized, ihr rightSized lower⟩
      simp only [elems_node, card_cons] at size grown ⊢
      omega

/-! ### Popping -/

theorem pop_null (data : α) : (null : LocHeapNode α).pop ranks data = (null, data) := rfl

/-- The last node leaves, or a child that the other child does not outrank gives its data and
pops in turn. -/
theorem pop_node (data : α) (s : Int) (l : LocHeapNode α) (d : α) (r : LocHeapNode α) :
    (l = null ∧ r = null ∧ (node s l d r).pop ranks data = (null, data)) ∨
    (∃ ld, l.mData = some ld ∧ (∀ rd, r.mData = some rd → OutRanks ranks ld rd) ∧
      (node s l d r).pop ranks data = (node (s - 1) (l.pop ranks data).1 ld r, (l.pop ranks data).2)) ∨
    (∃ rd, r.mData = some rd ∧ (∀ ld, l.mData = some ld → ¬ OutRanks ranks ld rd) ∧
      (node s l d r).pop ranks data = (node (s - 1) l rd (r.pop ranks data).1, (r.pop ranks data).2)) := by
  cases l with
  | null =>
    cases r with
    | null => exact .inl ⟨rfl, rfl, rfl⟩
    | node rs rl rd rr => exact .inr (.inr ⟨rd, rfl, by simp, rfl⟩)
  | node ls ll ld lr =>
    cases r with
    | null => exact .inr (.inl ⟨ld, rfl, by simp, rfl⟩)
    | node rs rl rd rr =>
      rw [pop]
      dsimp only [mData_node]
      by_cases higher : outRanks ranks ld rd = true
      · refine .inr (.inl ⟨ld, rfl, ?_, by rw [if_pos higher]⟩)
        rintro _ ⟨⟩
        exact outRanks_iff.mp higher
      · refine .inr (.inr ⟨rd, rfl, ?_, by rw [if_neg higher]⟩)
        rintro _ ⟨⟩
        exact not_outRanks_iff.mp higher

theorem pop_data (data : α) (t : LocHeapNode α) : (t.pop ranks data).2 = data := by
  induction t with
  | null => rw [pop_null]
  | node s l d r ihl ihr =>
    rcases @pop_node α ranks data s l d r with
      ⟨_, _, leaf⟩ | ⟨ld, _, _, left⟩ | ⟨rd, _, _, right⟩
    · rw [leaf]
    · rw [left, ihl]
    · rw [right, ihr]

/-- A pop takes the data of the root out of the tree, whatever was swapped in for it. -/
theorem elems_pop (data : α) {t : LocHeapNode α} {d : α} (root : t.mData = some d) :
    t.elems = d ::ₘ (t.pop ranks data).1.elems := by
  induction t generalizing d with
  | null => simp at root
  | node s l d' r ihl ihr =>
    obtain rfl : d' = d := by simpa using root
    rcases @pop_node α ranks data s l d' r with
      ⟨rfl, rfl, leaf⟩ | ⟨ld, leftTop, _, left⟩ | ⟨rd, rightTop, _, right⟩
    · rfl
    · rw [left, elems_node, elems_node, ihl leftTop, cons_add]
    · rw [right, elems_node, elems_node, ihr rightTop, add_cons]

theorem elems_pop_le (ranks : α → α → Int) (data : α) (t : LocHeapNode α) : (t.pop ranks data).1.elems ≤ t.elems := by
  cases t with
  | null => rw [pop_null]
  | node s l d r =>
    rw [@elems_pop α ranks data _ _ (mData_node s l d r)]
    exact le_cons_self _ _

theorem Ordered.under_top (ranked : Ranked (OutRanks ranks)) {t : LocHeapNode α}
    (ordered : t.Ordered ranks) {d : α} (root : t.mData = some d) : Under ranks d t := by
  cases t with
  | null => exact .null d
  | node s l d' r =>
    obtain rfl : d' = d := by simpa using root
    exact ordered.top ranked

/-- The child that comes up is not outranked by what is under the other child. -/
theorem Ordered.under_sibling (ranked : Ranked (OutRanks ranks)) {t : LocHeapNode α}
    (ordered : t.Ordered ranks) {up : α} (chosen : ∀ d, t.mData = some d → ¬ OutRanks ranks d up) :
    Under ranks up t := by
  cases t with
  | null => exact .null up
  | node s l d r => exact (ordered.top ranked).trans ranked (chosen d rfl)

theorem ordered_pop (ranked : Ranked (OutRanks ranks)) (data : α) {t : LocHeapNode α}
    (ordered : t.Ordered ranks) : (t.pop ranks data).1.Ordered ranks := by
  induction t with
  | null =>
    trivial
  | node s l d r ihl ihr =>
    obtain ⟨⟨leftUnder, leftOrdered⟩, rightUnder, rightOrdered⟩ := ordered
    rcases @pop_node α ranks data s l d r with
      ⟨_, _, leaf⟩ | ⟨ld, leftTop, above, left⟩ | ⟨rd, rightTop, notBelow, right⟩
    · rw [leaf]
      trivial
    · rw [left]
      have under := (leftOrdered.under_top ranked leftTop).mono (elems_pop_le ranks data l)
      have sibling := rightOrdered.under_sibling ranked fun rd root => ranked.asymm (above rd root)
      exact ⟨⟨under, ihl leftOrdered⟩, sibling, rightOrdered⟩
    · rw [right]
      have under := (rightOrdered.under_top ranked rightTop).mono (elems_pop_le ranks data r)
      have sibling := leftOrdered.under_sibling ranked notBelow
      exact ⟨⟨sibling, leftOrdered⟩, under, ihr rightOrdered⟩

theorem sized_pop (data : α) {t : LocHeapNode α} (sized : t.Sized) :
    (t.pop ranks data).1.Sized := by
  induction t with
  | null =>
    trivial
  | node s l d r ihl ihr =>
    obtain ⟨size, leftSized, rightSized⟩ := sized
    have shrunk := congrArg card (@elems_pop α ranks data _ _ (mData_node s l d r))
    rcases @pop_node α ranks data s l d r with
      ⟨_, _, leaf⟩ | ⟨ld, _, _, left⟩ | ⟨rd, _, _, right⟩
    · rw [leaf]
      trivial
    · rw [left] at shrunk ⊢
      refine ⟨?_, ihl leftSized, rightSized⟩
      simp only [elems_node, card_cons] at size shrunk ⊢
      omega
    · rw [right] at shrunk ⊢
      refine ⟨?_, leftSized, ihr rightSized⟩
      simp only [elems_node, card_cons] at size shrunk ⊢
      omega

/-- The check of the unit test passes. -/
theorem checkNodes_of_sized {t : LocHeapNode α} (ordered : t.Ordered ranks) (sized : t.Sized) :
    t.checkNodes ranks = true := by
  induction t with
  | null => rfl
  | node s l d r ihl ihr =>
    obtain ⟨⟨leftUnder, leftOrdered⟩, rightUnder, rightOrdered⟩ := ordered
    obtain ⟨size, leftSized, rightSized⟩ := sized
    have notAbove : ∀ {t : LocHeapNode α}, Under ranks d t →
        t.mData.any (fun d' => outRanks ranks d' d) = false := by
      intro t under
      cases t with
      | null => rfl
      | node ts tl td tr => exact Bool.eq_false_iff.mpr (not_outRanks_iff.mpr (under td (by simp)))
    rw [elems_node, card_cons, card_add, Nat.cast_succ, Nat.cast_add,
      ← leftSized.mSize, ← rightSized.mSize] at size
    rw [checkNodes]
    dsimp only
    rw [notAbove leftUnder, notAbove rightUnder, ihl leftOrdered leftSized, ihr rightOrdered rightSized, size]
    simp only [Bool.not_true, Bool.or_false, Bool.not_false, Bool.true_and, beq_iff_eq]
    omega

/-! ### Removing -/

variable [DecidableEq α]

/-- The element is at the root, or the element outranks the root and the search stops, or it goes
on in the left subtree and, when that answers `NULL`, in the right one. -/
theorem remove_node (x : α) (s : Int) (l : LocHeapNode α) (d : α) (r : LocHeapNode α) :
    (x = d ∧ (node s l d r).remove ranks x = (((node s l d r).pop ranks d).1, some d)) ∨
    (x ≠ d ∧ OutRanks ranks x d ∧ (node s l d r).remove ranks x = (node s l d r, none)) ∨
    (x ≠ d ∧ ¬ OutRanks ranks x d ∧ ((∃ y, (l.remove ranks x).2 = some y ∧
          (node s l d r).remove ranks x = (node (s - 1) (l.remove ranks x).1 d r, some y)) ∨
        (∃ y, (l.remove ranks x).2 = none ∧ (r.remove ranks x).2 = some y ∧ (node s l d r).remove ranks x =
            (node (s - 1) (l.remove ranks x).1 d (r.remove ranks x).1, some y)) ∨
        ((l.remove ranks x).2 = none ∧ (r.remove ranks x).2 = none ∧ (node s l d r).remove ranks x =
            (node s (l.remove ranks x).1 d (r.remove ranks x).1, none)))) := by
  rw [remove]
  by_cases here : x = d
  · left
    rw [if_pos here]
    exact ⟨here, by simp only [pop_data]⟩
  · right
    rw [if_neg here]
    by_cases above : outRanks ranks x d = true
    · left
      exact ⟨here, outRanks_iff.mp above, by rw [above]; rfl⟩
    · right
      refine ⟨here, not_outRanks_iff.mp above, ?_⟩
      rw [if_pos (by simpa using above)]
      rcases l.remove ranks x with ⟨l', _ | y⟩
      · rcases r.remove ranks x with ⟨r', _ | y⟩
        · exact .inr (.inr ⟨rfl, rfl, rfl⟩)
        · exact .inr (.inl ⟨y, rfl, rfl, rfl⟩)
      · exact .inl ⟨y, rfl, rfl⟩

/-- A remove answers `NULL` and leaves the tree alone, or it answers the element and takes one
occurrence of it out. -/
theorem remove_spec (x : α) (t : LocHeapNode α) :
    t.remove ranks x = (t, none) ∨
      (t.remove ranks x).2 = some x ∧ t.elems = x ::ₘ (t.remove ranks x).1.elems := by
  induction t with
  | null => exact .inl rfl
  | node s l d r ihl ihr =>
    rcases @remove_node α ranks _ x s l d r with
      ⟨rfl, found⟩ | ⟨_, _, pruned⟩ | ⟨_, _, ⟨y, some_y, left⟩ | ⟨y, no_left, some_y, right⟩ |
        ⟨no_left, no_right, absent⟩⟩
    · right
      rw [found]
      exact ⟨rfl, elems_pop x (mData_node s l x r)⟩
    · left
      exact pruned
    · right
      rcases ihl with same | ⟨answer, fewer⟩
      · rw [same] at some_y
        exact absurd some_y (by simp)
      · rw [left]
        refine ⟨some_y ▸ answer, ?_⟩
        rw [elems_node, elems_node, fewer, cons_add, cons_swap]
    · have leftSame := ihl.resolve_right fun found => by simp [no_left] at found
      right
      rcases ihr with same | ⟨answer, fewer⟩
      · rw [same] at some_y
        exact absurd some_y (by simp)
      · rw [right, leftSame]
        refine ⟨some_y ▸ answer, ?_⟩
        rw [elems_node, elems_node, fewer, add_cons, cons_swap]
    · have leftSame := ihl.resolve_right fun found => by simp [no_left] at found
      have rightSame := ihr.resolve_right fun found => by simp [no_right] at found
      left
      rw [absent, leftSame, rightSame]

theorem elems_remove_le (ranks : α → α → Int) (x : α) (t : LocHeapNode α) : (t.remove ranks x).1.elems ≤ t.elems := by
  rcases @remove_spec α ranks _ x t with same | ⟨_, fewer⟩
  · rw [same]
  · rw [fewer]
    exact le_cons_self _ _

/-- The search misses no stored element: a subtree that it skips has no element that outranks its
root. -/
theorem remove_finds {x : α} {t : LocHeapNode α} (ordered : t.Ordered ranks) (stored : x ∈ t.elems) :
    (t.remove ranks x).2 = some x := by
  induction t with
  | null => simp at stored
  | node s l d r ihl ihr =>
    obtain ⟨⟨leftUnder, leftOrdered⟩, rightUnder, rightOrdered⟩ := ordered
    rw [elems_node, mem_cons, mem_add] at stored
    rcases @remove_node α ranks _ x s l d r with
      ⟨rfl, found⟩ | ⟨other, above, _⟩ | ⟨other, _, ⟨y, some_y, left⟩ | ⟨y, no_left, some_y, right⟩ |
        ⟨no_left, no_right, _⟩⟩
    · rw [found]
    · rcases stored.resolve_left other with inLeft | inRight
      · exact absurd above (leftUnder x inLeft)
      · exact absurd above (rightUnder x inRight)
    · rcases @remove_spec α ranks _ x l with same | ⟨answer, _⟩
      · rw [same] at some_y
        exact absurd some_y (by simp)
      · rw [left]
        exact some_y ▸ answer
    · rcases @remove_spec α ranks _ x r with same | ⟨answer, _⟩
      · rw [same] at some_y
        exact absurd some_y (by simp)
      · rw [right]
        exact some_y ▸ answer
    · rcases stored.resolve_left other with inLeft | inRight
      · exact absurd (ihl leftOrdered inLeft) (by simp [no_left])
      · exact absurd (ihr rightOrdered inRight) (by simp [no_right])

theorem ordered_remove (ranked : Ranked (OutRanks ranks)) (x : α) {t : LocHeapNode α}
    (ordered : t.Ordered ranks) : (t.remove ranks x).1.Ordered ranks := by
  induction t with
  | null => trivial
  | node s l d r ihl ihr =>
    have popped := ordered_pop ranked d ordered
    obtain ⟨⟨leftUnder, leftOrdered⟩, rightUnder, rightOrdered⟩ := ordered
    have left := And.intro (leftUnder.mono (elems_remove_le ranks x l)) (ihl leftOrdered)
    have right := And.intro (rightUnder.mono (elems_remove_le ranks x r)) (ihr rightOrdered)
    rcases @remove_node α ranks _ x s l d r with
      ⟨_, found⟩ | ⟨_, _, pruned⟩ | ⟨_, _, ⟨y, _, eq⟩ | ⟨y, _, _, eq⟩ | ⟨_, _, eq⟩⟩
    · rw [found]
      exact popped
    · rw [pruned]
      exact ⟨⟨leftUnder, leftOrdered⟩, rightUnder, rightOrdered⟩
    · rw [eq]
      exact ⟨left, rightUnder, rightOrdered⟩
    · rw [eq]
      exact ⟨left, right⟩
    · rw [eq]
      exact ⟨left, right⟩

theorem sized_remove (x : α) {t : LocHeapNode α} (sized : t.Sized) :
    (t.remove ranks x).1.Sized := by
  induction t with
  | null => trivial
  | node s l d r ihl ihr =>
    have popped := @sized_pop α ranks d _ sized
    rcases @remove_spec α ranks _ x (node s l d r) with same | ⟨answer, fewer⟩
    · rw [same]
      exact sized
    obtain ⟨size, leftSized, rightSized⟩ := sized
    have count := congrArg card fewer
    rcases @remove_node α ranks _ x s l d r with
      ⟨_, found⟩ | ⟨_, _, pruned⟩ | ⟨_, _, ⟨y, _, eq⟩ | ⟨y, _, _, eq⟩ | ⟨_, _, eq⟩⟩
    · rw [found]
      exact popped
    · rw [pruned]
      exact ⟨size, leftSized, rightSized⟩
    · rw [eq] at count ⊢
      refine ⟨?_, ihl leftSized, rightSized⟩
      simp only [elems_node, card_cons] at size count ⊢
      omega
    · rw [eq] at count ⊢
      refine ⟨?_, ihl leftSized, ihr rightSized⟩
      simp only [elems_node, card_cons] at size count ⊢
      omega
    · rw [eq] at answer
      exact absurd answer (by simp)

end LocHeapNode

/-! ### The queue -/

namespace LocHeap

def stored (heap : LocHeap α) : Multiset α := heap.mTree.elems

/-- What every operation keeps. -/
structure WellFormed (ranks : α → α → Int) (heap : LocHeap α) : Prop where
  ordered : heap.mTree.Ordered ranks
  sized : heap.mTree.Sized

theorem mTree_push (heap : LocHeap α) (x : α) :
    (heap.push ranks x).mTree = heap.mTree.push ranks x := by
  rcases heap with ⟨_ | ⟨s, l, d, r⟩⟩
  · simp only [push, LocHeapNode.push]
  · rfl

theorem stored_push (heap : LocHeap α) (x : α) :
    (heap.push ranks x).stored = x ::ₘ heap.stored := by
  rw [stored, mTree_push, LocHeapNode.elems_push, stored]

/-- `peek` answers `NULL` on the empty heap, else a top element. -/
theorem WellFormed.peek (ranked : Ranked (OutRanks ranks)) {heap : LocHeap α} (wf : heap.WellFormed ranks) :
    (heap.peek = none ∧ heap.stored = 0) ∨ ∃ x, heap.peek = some x ∧ OnTop (OutRanks ranks) heap.stored x := by
  rcases heap with ⟨_ | ⟨s, l, d, r⟩⟩
  · exact .inl ⟨rfl, rfl⟩
  · exact .inr ⟨d, rfl, mem_cons_self _ _, wf.ordered.top ranked⟩

/-- `pop` answers what `peek` would and takes one occurrence of it out. -/
theorem pop_spec (heap : LocHeap α) :
    (heap.peek = none ∧ heap.pop ranks = (heap, none)) ∨ ∃ x, heap.peek = some x ∧ (heap.pop ranks).2 = some x ∧
        heap.stored = x ::ₘ (heap.pop ranks).1.stored := by
  rcases heap with ⟨_ | ⟨s, l, d, r⟩⟩
  · exact .inl ⟨rfl, rfl⟩
  · refine .inr ⟨d, rfl, congrArg some (LocHeapNode.pop_data d _), ?_⟩
    exact LocHeapNode.elems_pop d (LocHeapNode.mData_node s l d r)

variable [DecidableEq α]

/-- A call and its answer. -/
def step (ranks : α → α → Int) (heap : LocHeap α) : Op α → LocHeap α × Option α
  | .push node => (heap.push ranks node, none)
  | .pop => heap.pop ranks
  | .peek => (heap, heap.peek)
  | .remove rankable => heap.remove ranks rankable

/-- A new heap after some calls, with the calls and their answers, the latest first. -/
def run (ranks : α → α → Int) : List (Op α) → LocHeap α × List (Op α × Option α)
  | [] => ({}, [])
  | op :: ops =>
    let before := run ranks ops
    let after := before.1.step ranks op
    (after.1, (op, after.2) :: before.2)

theorem remove_eq (heap : LocHeap α) (x : α) :
    heap.remove ranks x = (⟨(heap.mTree.remove ranks x).1⟩, (heap.mTree.remove ranks x).2) := by
  rcases heap with ⟨_ | ⟨s, l, d, r⟩⟩
  · rfl
  · rfl

section

variable (ranked : Ranked (OutRanks ranks))
include ranked

theorem WellFormed.step {heap : LocHeap α}
    (wf : heap.WellFormed ranks) (op : Op α) : (heap.step ranks op).1.WellFormed ranks := by
  cases op with
  | push x =>
    constructor
    · rw [LocHeap.step, mTree_push]
      exact LocHeapNode.ordered_push ranked wf.ordered x
    · rw [LocHeap.step, mTree_push]
      exact LocHeapNode.sized_push wf.sized x
  | pop =>
    rcases heap with ⟨_ | ⟨s, l, d, r⟩⟩
    · exact wf
    · exact ⟨LocHeapNode.ordered_pop ranked d wf.ordered, LocHeapNode.sized_pop d wf.sized⟩
  | peek => exact wf
  | remove x =>
    rw [LocHeap.step, remove_eq]
    exact ⟨LocHeapNode.ordered_remove ranked x wf.ordered, LocHeapNode.sized_remove x wf.sized⟩

/-- Every call answers as a priority queue may. -/
theorem WellFormed.answers {heap : LocHeap α} (wf : heap.WellFormed ranks) (op : Op α) :
    Answers (OutRanks ranks) heap.stored op (heap.step ranks op).2 (heap.step ranks op).1.stored := by
  cases op with
  | push x =>
    rw [LocHeap.step, stored_push]
    exact .push _ x
  | pop =>
    rw [LocHeap.step]
    rcases @pop_spec α ranks heap with ⟨none, popped⟩ | ⟨x, some, answer, fewer⟩
    · rw [popped]
      rcases wf.peek ranked with ⟨_, empty⟩ | ⟨x, some, _⟩
      · rw [empty]
        exact .pop_empty
      · rw [none] at some
        cases some
    · rw [answer, fewer]
      rcases wf.peek ranked with ⟨none, _⟩ | ⟨x', some', top⟩
      · rw [some] at none
        cases none
      · obtain rfl : x = x' := Option.some.inj (some.symm.trans some')
        exact .pop (fewer ▸ top)
  | peek =>
    rw [LocHeap.step]
    rcases wf.peek ranked with ⟨none, empty⟩ | ⟨x, some, top⟩
    · rw [none, empty]
      exact .peek_empty
    · rw [some]
      exact .peek top
  | remove x =>
    rw [LocHeap.step, remove_eq]
    have finds := LocHeapNode.remove_finds (x := x) wf.ordered
    rcases @LocHeapNode.remove_spec α ranks _ x heap.mTree with same | ⟨answer, fewer⟩
    · rw [same] at finds ⊢
      refine .remove_absent fun inside => ?_
      cases finds inside
    · rw [answer, stored, fewer]
      exact .remove _ x

theorem run_wellFormed (ops : List (Op α)) :
    (run ranks ops).1.WellFormed ranks := by
  induction ops with
  | nil => exact ⟨trivial, trivial⟩
  | cons op ops ih => exact ih.step ranked op

/-- The calls on a heap are a history of a priority queue. -/
theorem run_history (ops : List (Op α)) :
    History (OutRanks ranks) (run ranks ops).2 (run ranks ops).1.stored := by
  induction ops with
  | nil => exact .start
  | cons op ops ih => exact .step ih ((run_wellFormed ranked ops).answers ranked op)

theorem run_checkTree (ops : List (Op α)) :
    (run ranks ops).1.checkTree ranks = true :=
  have wf := run_wellFormed ranked ops
  LocHeapNode.checkNodes_of_sized wf.ordered wf.sized

end

/-- After any calls: the heap stores what was pushed and not taken out since; `peek` and `pop` answer
`NULL` exactly on the empty heap and else an element that none outranks, which is the one that
`pop` takes out; `remove` finds every stored element and takes it out, and leaves the heap alone
for any other. -/
theorem locHeap_is_priority_queue (ranked : Ranked (OutRanks ranks)) (ops : List (Op α)) :
    let heap := (run ranks ops).1
    let calls := (run ranks ops).2
    (popped calls + removed calls ≤ pushed calls ∧
      heap.stored = pushed calls - popped calls - removed calls) ∧
    ((heap.peek = none ↔ heap.stored = 0) ∧
      ∀ x, heap.peek = some x → OnTop (OutRanks ranks) heap.stored x) ∧
    (((heap.pop ranks).2 = none ↔ heap.stored = 0) ∧
      ∀ x, (heap.pop ranks).2 = some x →
        OnTop (OutRanks ranks) heap.stored x ∧ heap.stored = x ::ₘ (heap.pop ranks).1.stored) ∧
    ∀ x, (x ∈ heap.stored → (heap.remove ranks x).2 = some x ∧
        heap.stored = x ::ₘ (heap.remove ranks x).1.stored) ∧
      (x ∉ heap.stored → heap.remove ranks x = (heap, none)) := by
  intro heap calls
  -- all three parts are read off the invariant and the balance of the calls
  have wf : heap.WellFormed ranks := run_wellFormed ranked ops
  have balance : heap.stored + popped calls + removed calls = pushed calls :=
    (run_history ranked ops).balance
  have peeks := wf.peek ranked
  refine ⟨⟨?_, ?_⟩, ⟨?_, ?_⟩, ⟨?_, ?_⟩, fun x => ⟨?_, ?_⟩⟩
  · rw [← balance, Multiset.add_assoc]
    exact Multiset.le_add_left _ _
  · rw [← balance, Multiset.add_assoc, Multiset.add_comm (popped calls), ← Multiset.add_assoc,
      Multiset.add_sub_cancel_right, Multiset.add_sub_cancel_right]
  · rcases peeks with ⟨none, empty⟩ | ⟨x, some, inside, _⟩
    · exact iff_of_true none empty
    · exact iff_of_false (by simp [some]) fun empty => by simp [empty] at inside
  · intro x answer
    rcases peeks with ⟨none, _⟩ | ⟨x', some, top⟩
    · cases none.symm.trans answer
    · cases some.symm.trans answer
      exact top
  · rcases @pop_spec α ranks heap with ⟨none, same⟩ | ⟨x, _, answer, fewer⟩
    · rcases peeks with ⟨_, empty⟩ | ⟨x, some, _⟩
      · exact iff_of_true (by rw [same]) empty
      · cases none.symm.trans some
    · exact iff_of_false (by simp [answer]) (by simp [fewer])
  · intro x popped
    rcases @pop_spec α ranks heap with ⟨_, same⟩ | ⟨x', peeked, answer, fewer⟩
    · rw [same] at popped
      cases popped
    · cases answer.symm.trans popped
      rcases peeks with ⟨none, _⟩ | ⟨x'', some, top⟩
      · cases none.symm.trans peeked
      · cases some.symm.trans peeked
        exact ⟨top, fewer⟩
  · intro inside
    rw [remove_eq]
    have found := LocHeapNode.remove_finds wf.ordered inside
    rcases @LocHeapNode.remove_spec α ranks _ x heap.mTree with same | taken
    · rw [same] at found
      cases found
    · exact taken
  · intro outside
    rw [remove_eq]
    rcases @LocHeapNode.remove_spec α ranks _ x heap.mTree with same | ⟨_, fewer⟩
    · rw [same]
    · refine absurd ?_ outside
      rw [stored, fewer]
      exact mem_cons_self _ _

/-- Rank by the second component, lower first: two elements tie, one of them leaves from the middle
of the tree. -/
theorem locHeap_is_priority_queue_sample :
    let ranks : Nat × Nat → Nat × Nat → Int := fun a b => b.2 - a.2
    let ops : List (Op (Nat × Nat)) :=
      [.pop, .remove (2, 5), .push (4, 6), .push (3, 5), .push (2, 5), .push (1, 7), .push (0, 4)]
    (run ranks ops).1.peek = some (3, 5) ∧
      OnTop (OutRanks ranks) (run ranks ops).1.stored (3, 5) := by
  intro ranks ops
  have ranked : Ranked (OutRanks ranks) := by
    constructor
    · intro a b
      simp only [OutRanks, ranks]
      omega
    · intro a b c
      simp only [OutRanks, ranks]
      omega
  have peeked : (run ranks ops).1.peek = some (3, 5) := by decide +kernel
  exact ⟨peeked, (locHeap_is_priority_queue ranked ops).2.1.2 _ peeked⟩

end LocHeap

end Hima.Gps
