import Mathlib.Data.Multiset.AddSub
import Mathlib.Tactic.Linarith

/-!
# LocHeap

A binary tree of `LocHeapNode`s that is sorted from the top down only. An element is a pointer to
a `LocRankable` (`α`), told from another by its address; `ranks` is its virtual method. Structural
links never move: `push` and `pop` swap the data of nodes on a path to a leaf.
-/
namespace Hima.Gps

/-- A pointer to a `LocHeapNode`. -/
inductive LocHeapNode (α : Type)
  | null
  | node (mSize : Int) (mLeft : LocHeapNode α) (mData : α) (mRight : LocHeapNode α)
  deriving DecidableEq

variable {α : Type} (ranks : α → α → Int)

/-- `LocRankable::outRanks`. -/
def outRanks (a b : α) : Bool := decide (0 < ranks a b)

namespace LocHeapNode

/-- The constructor `LocHeapNode(data)`. -/
def new (data : α) : LocHeapNode α := node 1 null data null

def isNull : LocHeapNode α → Bool
  | null => true
  | node .. => false

def mSize : LocHeapNode α → Int
  | null => 0
  | node s _ _ _ => s

/-- `mData`, when there is a node. -/
def mData : LocHeapNode α → Option α
  | null => none
  | node _ _ d _ => some d

/-- `push`. `node.mData` is `incoming`: it trades places with the data of this node when it ranks
higher, and what is left of the two goes down. -/
def push : LocHeapNode α → α → LocHeapNode α
  | null, incoming => new incoming
  | node s l d r, incoming =>
    let upper := if outRanks ranks incoming d then incoming else d
    let lower := if outRanks ranks incoming d then d else incoming
    if l.isNull then node (s + 1) (new lower) upper r
    else if r.isNull then node (s + 1) l upper (new lower)
    else if l.mSize ≤ r.mSize then node (s + 1) (l.push lower) upper r
    else node (s + 1) l upper (r.push lower)

/-- `pop(top)` where the data of `top` is `data`: the caller has swapped it in, the data of the
node that the second argument shows is gone. Returns `top` and the data of the popped node. -/
def pop (data : α) : LocHeapNode α → LocHeapNode α × α
  | null => (null, data)
  | node s l _ r =>
    match l.mData, r.mData with
    | none, none => (null, data)
    | none, some rd => (node (s - 1) l rd (pop data r).1, (pop data r).2)
    | some ld, none => (node (s - 1) (pop data l).1 ld r, (pop data l).2)
    | some ld, some rd =>
      if outRanks ranks ld rd then (node (s - 1) (pop data l).1 ld r, (pop data l).2)
      else (node (s - 1) l rd (pop data r).1, (pop data r).2)

/-- `remove(top, data)`: `top` and the data of the removed node. -/
def remove [DecidableEq α] (data : α) : LocHeapNode α → LocHeapNode α × Option α
  | null => (null, none)
  | node s l d r =>
    if data = d then
      let popped := pop ranks d (node s l d r)
      (popped.1, some popped.2)
    else if !outRanks ranks data d then
      match remove data l with
      | (l, some removed) => (node (s - 1) l d r, some removed)
      | (l, none) =>
        match remove data r with
        | (r, some removed) => (node (s - 1) l d r, some removed)
        | (r, none) => (node s l d r, none)
    else (node s l d r, none)

/-- The size is right and no child outranks its parent. -/
def checkNodes : LocHeapNode α → Bool
  | null => true
  | node s l d r =>
    let outRanked (child : LocHeapNode α) := child.mData.any fun d' => outRanks ranks d' d
    !(outRanked l || !checkNodes l) && !(outRanked r || !checkNodes r) && s - l.mSize - r.mSize == 1

end LocHeapNode

structure LocHeap (α : Type) where
  mTree : LocHeapNode α := .null

namespace LocHeap

variable (heap : LocHeap α)

def push (node : α) : LocHeap α :=
  match heap.mTree with
  | .null => ⟨.new node⟩
  | tree => ⟨tree.push ranks node⟩

def peek : Option α :=
  match heap.mTree with
  | .null => none
  | .node _ _ data _ => some data

def pop : LocHeap α × Option α :=
  match heap.mTree with
  | .null => (heap, none)
  | .node s l data r =>
    let popped := LocHeapNode.pop ranks data (.node s l data r)
    (⟨popped.1⟩, some popped.2)

def remove [DecidableEq α] (rankable : α) : LocHeap α × Option α :=
  match heap.mTree with
  | .null => (heap, none)
  | tree =>
    let removed := LocHeapNode.remove ranks rankable tree
    (⟨removed.1⟩, removed.2)

/-- `checkTree`, of the unit test. -/
def checkTree : Bool := heap.mTree.checkNodes ranks

end LocHeap

end Hima.Gps
