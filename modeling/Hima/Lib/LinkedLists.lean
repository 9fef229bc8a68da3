import Mathlib.Data.List.Induction
import Mathlib.Data.List.Basic

/-!
# Doubly linked lists

Elements with a link to the element after them and one to the element before. `Linked` says what the
links of a stretch of a list are, given the elements on its two sides.
-/
namespace Hima.DoublyLinked

variable {α : Type} {next next' prev prev' : α → Option α}

/-- The links of a stretch that comes after `pred` and before `succ`. -/
def Linked (next prev : α → Option α) : Option α → List α → Option α → Prop
  | _, [], _ => True
  | pred, a :: l, succ =>
    prev a = pred ∧ next a = l.head?.or succ ∧ Linked next prev (some a) l succ

variable {pred succ : Option α}

@[simp] theorem linked_nil : Linked next prev pred [] succ := trivial

variable {l : List α}

@[simp] theorem linked_cons {a : α} :
    Linked next prev pred (a :: l) succ ↔
      prev a = pred ∧ next a = l.head?.or succ ∧ Linked next prev (some a) l succ :=
  Iff.rfl

/-- Two stretches in a row: each is the other's neighbour, or sees past it when it is empty. -/
theorem linked_append {l m : List α} :
    Linked next prev pred (l ++ m) succ ↔
      Linked next prev pred l (m.head?.or succ) ∧ Linked next prev (l.getLast?.or pred) m succ := by
  induction l generalizing pred with
  | nil => simp
  | cons a l ih =>
    have first : (l ++ m).head?.or succ = l.head?.or (m.head?.or succ) := by
      cases l <;> simp
    have last : (a :: l).getLast?.or pred = l.getLast?.or (some a) := by
      rw [List.getLast?_cons]
      cases l.getLast? <;> rfl
    rw [List.cons_append, linked_cons, linked_cons, ih, first, last, and_assoc, and_assoc]

/-- Only the links of the stretch matter. -/
theorem Linked.congr (linked : Linked next prev pred l succ)
    (same : ∀ a ∈ l, next' a = next a ∧ prev' a = prev a) : Linked next' prev' pred l succ := by
  induction l generalizing pred with
  | nil => trivial
  | cons a l ih =>
    obtain ⟨back, forth, rest⟩ := linked
    obtain ⟨forth', back'⟩ := same a List.mem_cons_self
    exact ⟨back'.trans back, forth'.trans forth, ih rest fun b member => same b (List.mem_cons_of_mem _ member)⟩

/-- The elements met from `start` on along a link, up to the end. -/
def Follows (link : α → Option α) : Option α → List α → Prop
  | start, [] => start = none
  | start, a :: l => start = some a ∧ Follows link (link a) l

/-- The links forward meet the elements of a whole list from the first one on. -/
theorem Linked.forward {pred : Option α} (linked : Linked next prev pred l none) :
    Follows next l.head? l := by
  induction l generalizing pred with
  | nil => rfl
  | cons a l ih =>
    obtain ⟨-, forth, rest⟩ := linked
    refine ⟨rfl, ?_⟩
    rw [forth, Option.or_none]
    exact ih rest

/-- The links back meet them in reverse. -/
theorem Linked.backward {succ : Option α} (linked : Linked next prev none l succ) :
    Follows prev l.getLast? l.reverse := by
  induction l using List.reverseRecOn generalizing succ with
  | nil => rfl
  | append_singleton l a ih =>
    obtain ⟨front, back, -⟩ := linked_append.mp linked
    rw [List.reverse_concat, List.getLast?_concat]
    refine ⟨rfl, ?_⟩
    rw [back, Option.or_none]
    exact ih front

variable [DecidableEq α]

/-- A stretch that comes after another element, which only its first element shows. -/
theorem Linked.repred {pred pred' succ : Option α} (linked : Linked next prev pred l succ) (nodup : l.Nodup)
    (kept : ∀ a ∈ l, next' a = next a ∧ prev' a = if l.head? = some a then pred' else prev a) :
    Linked next' prev' pred' l succ := by
  cases l with
  | nil => trivial
  | cons a l =>
    obtain ⟨-, after, rest⟩ := linked
    obtain ⟨apart, -⟩ := List.nodup_cons.mp nodup
    obtain ⟨next_a, prev_a⟩ := kept a List.mem_cons_self
    rw [List.head?_cons, if_pos rfl] at prev_a
    refine ⟨prev_a, next_a.trans after, rest.congr ?_⟩
    intro b member
    obtain ⟨next_b, prev_b⟩ := kept b (List.mem_cons_of_mem _ member)
    have other : a ≠ b := fun same => apart (same ▸ member)
    rw [List.head?_cons, if_neg (by simpa using other)] at prev_b
    exact ⟨next_b, prev_b⟩

/-- A stretch that comes before another element, which only its last element shows. -/
theorem Linked.resucc {pred succ succ' : Option α} (linked : Linked next prev pred l succ) (nodup : l.Nodup)
    (kept : ∀ a ∈ l, prev' a = prev a ∧ next' a = if l.getLast? = some a then succ' else next a) :
    Linked next' prev' pred l succ' := by
  cases l using List.reverseRecOn with
  | nil => trivial
  | append_singleton l y =>
    obtain ⟨front, back⟩ := linked_append.mp linked
    have apart : ∀ a ∈ l, y ≠ a := by
      rintro a member rfl
      exact (List.nodup_append.mp nodup).2.2 y member y (by simp) rfl
    apply linked_append.mpr
    constructor
    · apply front.congr
      intro a member
      obtain ⟨prev_a, next_a⟩ := kept a (List.mem_append_left _ member)
      rw [List.getLast?_concat, if_neg (by simpa using apart a member)] at next_a
      exact ⟨next_a, prev_a⟩
    · obtain ⟨prev_y, next_y⟩ := kept y (by simp)
      rw [List.getLast?_concat, if_pos rfl] at next_y
      exact ⟨prev_y.trans back.1, next_y, trivial⟩

/-- A new element in front of a list, to which the first element is linked back. -/
theorem Linked.push_front {succ : Option α} {e : α}
    (linked : Linked next prev none l succ) (nodup : (e :: l).Nodup)
    (back : prev' e = none) (forth : next' e = l.head?.or succ)
    (kept : ∀ a ∈ l, next' a = next a ∧ prev' a = if l.head? = some a then some e else prev a) :
    Linked next' prev' none (e :: l) succ :=
  ⟨back, forth, linked.repred (List.nodup_cons.mp nodup).2 kept⟩

/-- The last element taken off, with the link of the one before it cleared. -/
theorem Linked.pop_back {z : α} (linked : Linked next prev none (l ++ [z]) none) (nodup : l.Nodup)
    (kept : ∀ a ∈ l, prev' a = prev a ∧ next' a = if l.getLast? = some a then none else next a) :
    Linked next' prev' none l none :=
  (linked_append.mp linked).1.resucc nodup kept

/-- An element taken out, with its two neighbours linked to each other. -/
theorem Linked.take_out {l m : List α} {z : α} (linked : Linked next prev none (l ++ z :: m) none)
    (nodup : (l ++ m).Nodup)
    (before : ∀ a ∈ l, prev' a = prev a ∧ next' a = if l.getLast? = some a then m.head? else next a)
    (after : ∀ a ∈ m, next' a = next a ∧ prev' a = if m.head? = some a then l.getLast? else prev a) :
    Linked next' prev' none (l ++ m) none := by
  obtain ⟨front, -, -, back⟩ := linked_append.mp linked
  obtain ⟨nodup_l, nodup_m, -⟩ := List.nodup_append.mp nodup
  apply linked_append.mpr
  constructor
  · rw [Option.or_none]
    exact front.resucc nodup_l before
  · rw [Option.or_none]
    exact back.repred nodup_m after

end Hima.DoublyLinked

/-!
## Segments of linked lists

A heap of cells, each with its data and a link. A segment says which cells, by address and data, a
reader meets who follows the links from one pointer to another.
-/
namespace Hima.Segments

variable {π δ : Type}

structure Cell (π δ : Type) where
  data : δ
  next : Option π

/-- From `p` the links lead through the cells of `l` to `q`. -/
def Segment (heap : π → Option (Cell π δ)) : Option π → List (π × δ) → Option π → Prop
  | p, [], q => p = q
  | p, (a, d) :: l, q => p = some a ∧ ∃ next, heap a = some ⟨d, next⟩ ∧ Segment heap next l q

variable {heap heap' : π → Option (Cell π δ)} {p q : Option π} {a : π} {d : δ} {l m : List (π × δ)}

@[simp] theorem segment_nil : Segment heap p [] q ↔ p = q := .rfl

theorem segment_cons : Segment heap p ((a, d) :: l) q ↔
    p = some a ∧ ∃ next, heap a = some ⟨d, next⟩ ∧ Segment heap next l q := .rfl

theorem segment_append : Segment heap p (l ++ m) q ↔ ∃ r, Segment heap p l r ∧ Segment heap r m q := by
  induction l generalizing p with
  | nil => simp
  | cons c l ih =>
    obtain ⟨a, d⟩ := c
    constructor
    · rintro ⟨first, next, cell, rest⟩
      obtain ⟨r, left, right⟩ := ih.mp rest
      exact ⟨r, ⟨first, next, cell, left⟩, right⟩
    · rintro ⟨r, ⟨first, next, cell, left⟩, right⟩
      exact ⟨first, next, cell, ih.mpr ⟨r, left, right⟩⟩

theorem Segment.congr (same : ∀ a ∈ l.map Prod.fst, heap' a = heap a) (segment : Segment heap p l q) :
    Segment heap' p l q := by
  induction l generalizing p with
  | nil => exact segment
  | cons c l ih =>
    obtain ⟨a, d⟩ := c
    obtain ⟨first, next, cell, rest⟩ := segment
    have here := same a List.mem_cons_self
    refine ⟨first, next, here.trans cell, ih (fun a' member => ?_) rest⟩
    exact same a' (List.mem_cons_of_mem a member)

/-- The first pointer of a segment that is not empty. -/
theorem Segment.start (segment : Segment heap p l none) : p = l.head?.map Prod.fst := by
  cases l with
  | nil => exact segment
  | cons c l => exact segment.1

theorem Segment.live (segment : Segment heap p l q) : ∀ a ∈ l.map Prod.fst, (heap a).isSome := by
  induction l generalizing p with
  | nil => exact nofun
  | cons c l ih =>
    obtain ⟨a, d⟩ := c
    obtain ⟨_, next, cell, rest⟩ := segment
    intro a' member
    rcases List.mem_cons.mp member with rfl | later
    · rw [cell]
      rfl
    · exact ih rest a' later

section

variable [DecidableEq π]

/-- Writing a cell of another list leaves a segment alone. -/
theorem Segment.update {cell : Option (Cell π δ)} (segment : Segment heap p l q)
    (outside : a ∉ l.map Prod.fst) : Segment (Function.update heap a cell) p l q := by
  refine segment.congr fun a' member => Function.update_of_ne ?_ _ _
  rintro rfl
  exact outside member

/-- A new link in the last cell. -/
theorem Segment.relink {r : Option π} (segment : Segment heap p (l ++ [(a, d)]) q)
    (outside : a ∉ l.map Prod.fst) :
    Segment (Function.update heap a (some ⟨d, r⟩)) p (l ++ [(a, d)]) r := by
  obtain ⟨s, before, last⟩ := segment_append.mp segment
  refine segment_append.mpr ⟨s, before.update outside, last.1, r, ?_, rfl⟩
  exact Function.update_self _ _ _

end

end Hima.Segments
