import Mathlib.Data.List.Basic
import Mathlib.Data.List.Induction
import Mathlib.Order.Basic

/-!
# Last values

A list of items, some of which give a value to a key. The last value of a key counts. A reader that
stops when it has found enough items sees a front part of the list.
-/
namespace Hima.LastValue

variable {α κ ν : Type} [DecidableEq κ] (read : α → Option (κ × ν)) (p : α → Bool)

/-- The value that an item gives to a key. -/
def valueFor (k : κ) (a : α) : Option ν :=
  match read a with
  | some (k', v) => if k' = k then some v else none
  | none => none

/-- The last value that a key gets. -/
def lastValue (k : κ) (l : List α) : Option ν := l.reverse.findSome? (valueFor read k)

/-- The items up to the one that makes it `n`. -/
def upTo : Nat → List α → List α
  | 0, _ => []
  | _, [] => []
  | n + 1, a :: l => a :: upTo (if p a then n else n + 1) l

variable {read p} {k : κ} {a : α} {l : List α}

@[simp] theorem lastValue_nil : lastValue read k [] = none := rfl

theorem lastValue_cons : lastValue read k (a :: l) = (lastValue read k l).or (valueFor read k a) := by
  rw [lastValue, lastValue, List.reverse_cons, List.findSome?_append, List.findSome?_singleton]

/-- Items that give no value to a key do not count for it. -/
theorem lastValue_filter {q : α → Bool} (silent : ∀ a, q a = false → valueFor read k a = none) :
    lastValue read k (l.filter q) = lastValue read k l := by
  induction l with
  | nil => rfl
  | cons a l ih =>
    rw [List.filter_cons, lastValue_cons, ← ih]
    split
    · exact lastValue_cons
    · next out => rw [silent a (Bool.eq_false_iff.mpr out), Option.or_none]

@[simp] theorem upTo_zero : upTo p 0 l = [] := by cases l <;> rfl

@[simp] theorem upTo_nil (n : Nat) : upTo p n [] = [] := by cases n <;> rfl

theorem upTo_cons {n : Nat} (some_left : n ≠ 0) :
    upTo p n (a :: l) = a :: upTo p (n - if p a then 1 else 0) l := by
  obtain ⟨n, rfl⟩ := Nat.exists_eq_succ_of_ne_zero some_left
  rw [Nat.succ_eq_add_one, upTo]
  split <;> rfl

theorem lastValue_of_countP_eq_zero (counted : ∀ a, (valueFor read k a).isSome → p a)
    (none_left : l.countP p = 0) : lastValue read k l = none := by
  rw [lastValue, List.findSome?_eq_none_iff]
  intro a member
  by_contra found
  exact List.countP_eq_zero.mp none_left a (List.mem_reverse.mp member)
    (counted a (Option.isSome_iff_ne_none.mpr found))

/-- Items that are not too many are all seen, as far as they count. -/
theorem lastValue_upTo (counted : ∀ a, (valueFor read k a).isSome → p a) {n : Nat} (few : l.countP p ≤ n) :
    lastValue read k (upTo p n l) = lastValue read k l := by
  induction l generalizing n with
  | nil => rw [upTo_nil]
  | cons a l ih =>
    by_cases stops : n = 0
    · -- what is not seen has no item that counts
      subst stops
      rw [upTo_zero, lastValue_nil, lastValue_of_countP_eq_zero counted (Nat.le_zero.mp few)]
    · rw [upTo_cons stops, lastValue_cons, lastValue_cons, ih]
      rw [List.countP_cons] at few
      omega

end Hima.LastValue

/-!
## The last of the least elements

In a list whose elements carry a rank, the last one of least rank. It is unique, and a pass that
takes an element over whenever its rank is not above the one held ends with it.
-/
namespace Hima.Recency

variable {α β : Type} [Preorder β] (rank : α → β)

/-- `d` is the last element of `l` whose rank no other one is below. -/
def LastLeast (l : List α) (d : α) : Prop :=
  ∃ before after, l = before ++ d :: after ∧ (∀ c ∈ before, rank d ≤ rank c) ∧
    ∀ c ∈ after, rank d < rank c

variable {rank} {l : List α} {d d' : α}

theorem LastLeast.mem (last : LastLeast rank l d) : d ∈ l := by
  obtain ⟨before, after, rfl, _⟩ := last
  exact List.mem_append_right _ List.mem_cons_self

theorem LastLeast.le (last : LastLeast rank l d) : ∀ c ∈ l, rank d ≤ rank c := by
  obtain ⟨before, after, rfl, earlier, later⟩ := last
  intro c member
  rcases List.mem_append.mp member with inside | inside
  · exact earlier c inside
  · rcases List.mem_cons.mp inside with rfl | inside
    · exact le_refl _
    · exact (later c inside).le

theorem LastLeast.unique (last : LastLeast rank l d) (last' : LastLeast rank l d') : d = d' := by
  have least := last.le d' last'.mem
  have least' := last'.le d last.mem
  obtain ⟨before, after, rfl, earlier, later⟩ := last
  obtain ⟨before', after', split, earlier', later'⟩ := last'
  -- where the two splits of the list differ, one of the elements comes after the other
  rcases List.append_eq_append_iff.mp split with ⟨between, rfl, rest⟩ | ⟨between, rfl, rest⟩
  · cases between with
    | nil => exact (List.cons.inj rest).1
    | cons e between =>
      obtain ⟨rfl, rfl⟩ := List.cons.inj rest
      exact absurd least' (not_le_of_gt (later d' (by simp)))
  · cases between with
    | nil => exact (List.cons.inj rest).1.symm
    | cons e between =>
      obtain ⟨rfl, rfl⟩ := List.cons.inj rest
      exact absurd least (not_le_of_gt (later' d (by simp)))

/-- Takes over whatever does not rank above the element held. -/
def takeOver [DecidableLE β] (rank : α → β) (held next : α) : α :=
  if rank next ≤ rank held then next else held

/-- The element held after a pass over `l` is the last of the least of those seen. The induction is
on the list from its end. -/
theorem lastLeast_foldl [DecidableLE β] [Std.Total (fun a b : β => a ≤ b)] (rank : α → β)
    (first : α) (l : List α) : LastLeast rank (first :: l) (l.foldl (takeOver rank) first) := by
  induction l using List.reverseRecOn with
  | nil => exact ⟨[], [], rfl, by simp, by simp⟩
  | append_singleton l next ih =>
    rw [List.foldl_append, List.foldl_cons, List.foldl_nil]
    have least := ih.le
    generalize l.foldl (takeOver rank) first = held at ih least
    rw [takeOver]
    by_cases lower : rank next ≤ rank held
    · rw [if_pos lower]
      exact ⟨first :: l, [], rfl, fun c member => lower.trans (least c member), by simp⟩
    · rw [if_neg lower]
      obtain ⟨before, after, split, earlier, later⟩ := ih
      have above : rank held < rank next :=
        lt_of_le_not_ge ((Std.Total.total (r := fun a b : β => a ≤ b) _ _).resolve_left lower) lower
      refine ⟨before, after ++ [next], ?_, earlier, ?_⟩
      · rw [← List.cons_append, split]
        simp
      · intro c member
        rcases List.mem_append.mp member with inside | inside
        · exact later c inside
        · rw [List.mem_singleton.mp inside]
          exact above

/-- An element that is among the least ones is the last of them once it is put at the end. -/
theorem LastLeast.moved {first : α} (last : LastLeast rank (first :: l) d)
    (least : rank first ≤ rank d) : LastLeast rank (l ++ [first]) first :=
  ⟨l, [], rfl, fun c member => least.trans (last.le c (List.mem_cons_of_mem _ member)), by simp⟩

/-- Moving an element that is not among the least ones to the end changes nothing. -/
theorem LastLeast.stays {first : α} (last : LastLeast rank (first :: l) d)
    (other : ¬ rank first ≤ rank d) : LastLeast rank (l ++ [first]) d := by
  have above : rank d < rank first := lt_of_le_not_ge (last.le first List.mem_cons_self) other
  obtain ⟨before, after, split, earlier, later⟩ := last
  cases before with
  | nil =>
    obtain ⟨rfl, rfl⟩ := List.cons.inj split
    exact absurd (le_refl _) other
  | cons e before =>
    obtain ⟨rfl, rfl⟩ := List.cons.inj split
    refine ⟨before, after ++ [first], by simp, fun c member => earlier c (List.mem_cons_of_mem _ member), ?_⟩
    intro c member
    rcases List.mem_append.mp member with inside | inside
    · exact later c inside
    · rw [List.mem_singleton.mp inside]
      exact above

end Hima.Recency
