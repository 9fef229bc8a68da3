import Mathlib.Data.Multiset.AddSub

/-!
# Priority queues

What a priority queue over elements of any type promises: the answers it may give to an
operation and the elements that it stores after it. Elements are ranked by a relation `out`
("ranks above"); elements of equal rank may leave in any order.
-/
namespace Hima.PriorityQueue

variable {α : Type}

/-- `out` is the strict part of a total preorder. -/
structure Ranked (out : α → α → Prop) : Prop where
  total : ∀ a b, ¬ out a b ∨ ¬ out b a
  trans : ∀ {a b c}, ¬ out a b → ¬ out b c → ¬ out a c

theorem Ranked.refl {out : α → α → Prop} (ranked : Ranked out) (a : α) : ¬ out a a :=
  (ranked.total a a).elim id id

theorem Ranked.asymm {out : α → α → Prop} (ranked : Ranked out) {a b : α} (above : out a b) :
    ¬ out b a :=
  (ranked.total a b).resolve_left (not_not_intro above)

inductive Op (α : Type)
  | push (x : α)
  | pop
  | peek
  | remove (x : α)

/-- `x` is stored and no stored element ranks above it. -/
def OnTop (out : α → α → Prop) (stored : Multiset α) (x : α) : Prop :=
  x ∈ stored ∧ ∀ y ∈ stored, ¬ out y x

/-- `Answers out s op r s'`: a queue that stores `s` may answer `r` to `op` and store `s'` then. -/
inductive Answers (out : α → α → Prop) :
    Multiset α → Op α → Option α → Multiset α → Prop
  | push (s : Multiset α) (x : α) : Answers out s (.push x) none (x ::ₘ s)
  | pop_empty : Answers out 0 .pop none 0
  | pop {s : Multiset α} {x : α} : OnTop out (x ::ₘ s) x → Answers out (x ::ₘ s) .pop (some x) s
  | peek_empty : Answers out 0 .peek none 0
  | peek {s : Multiset α} {x : α} : OnTop out s x → Answers out s .peek (some x) s
  | remove (s : Multiset α) (x : α) : Answers out (x ::ₘ s) (.remove x) (some x) s
  | remove_absent {s : Multiset α} {x : α} : x ∉ s → Answers out s (.remove x) none s

/-- A queue that starts empty, its operations and their answers, the latest first. -/
inductive History (out : α → α → Prop) : List (Op α × Option α) → Multiset α → Prop
  | start : History out [] 0
  | step {h : List (Op α × Option α)} {s s' : Multiset α} {op : Op α} {r : Option α} :
      History out h s → Answers out s op r s' → History out ((op, r) :: h) s'

/-- Everything that was pushed. -/
def pushed : List (Op α × Option α) → Multiset α
  | [] => 0
  | (.push x, _) :: h => x ::ₘ pushed h
  | _ :: h => pushed h

/-- Everything that a pop answered. -/
def popped : List (Op α × Option α) → Multiset α
  | [] => 0
  | (.pop, some x) :: h => x ::ₘ popped h
  | _ :: h => popped h

/-- Everything that a remove answered. -/
def removed : List (Op α × Option α) → Multiset α
  | [] => 0
  | (.remove _, some x) :: h => x ::ₘ removed h
  | _ :: h => removed h

/-- A queue stores what was pushed and neither popped nor removed since. -/
theorem History.balance {out : α → α → Prop} {h : List (Op α × Option α)} {s : Multiset α}
    (history : History out h s) : s + popped h + removed h = pushed h := by
  induction history with
  | start => rfl
  | step _ answers ih =>
    cases answers with
    | push s x => simp only [popped, removed, pushed, ← ih, Multiset.cons_add]
    | pop_empty => exact ih
    | pop _ => simpa only [popped, removed, pushed, Multiset.cons_add, Multiset.add_cons] using ih
    | peek_empty => exact ih
    | peek _ => exact ih
    | remove s x => simpa only [popped, removed, pushed, Multiset.cons_add, Multiset.add_cons] using ih
    | remove_absent _ => exact ih

end Hima.PriorityQueue
