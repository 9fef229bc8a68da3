import Mathlib.Data.Fintype.Card

/-!
# Tables of slots

A table is a list of slots that never changes its length. Two kinds of code work on it: a loop
that visits every slot and may replace the one it is at, and a search that stops at the first
slot that passes a test.
-/
namespace Hima.Slots

variable {α β : Type}

/-! ### A loop over all slots -/

/-- The body takes what the loop carries and the slot it is at, and gives both back. -/
def forSlots (body : α → β → α × β) : α → List β → α × List β
  | a, [] => (a, [])
  | a, e :: es =>
    ((forSlots body (body a e).1 es).1, (body a e).2 :: (forSlots body (body a e).1 es).2)

variable (body : α → β → α × β)

theorem forSlots_nil (a : α) : forSlots body a [] = (a, []) := rfl

theorem forSlots_cons (a : α) (e : β) (es : List β) : forSlots body a (e :: es) =
    ((forSlots body (body a e).1 es).1, (body a e).2 :: (forSlots body (body a e).1 es).2) := rfl

variable {l : List β}

/-- A loop invariant relates what is carried to the slots already visited, as the body left
them, and to the slots still to come. -/
theorem forSlots_visit (J : α → List β → List β → Prop) (kept : ∀ a pre e post, J a pre (e :: post) →
      J (body a e).1 (pre ++ [(body a e).2]) post) {a : α} (initial : J a [] l) :
    J (forSlots body a l).1 (forSlots body a l).2 [] := by
  have main : ∀ (l : List β) (a : α) (pre : List β), J a pre l →
      J (forSlots body a l).1 (pre ++ (forSlots body a l).2) [] := by
    intro l
    induction l with
    | nil => exact fun a pre h => by simpa [forSlots_nil] using h
    | cons e es ih =>
      intro a pre h
      have next := ih (body a e).1 (pre ++ [(body a e).2]) (kept a pre e es h)
      simpa [forSlots_cons] using next
  simpa using main l a [] initial

/-- An invariant of the table as a whole. -/
theorem forSlots_invariant (J : α → List β → Prop) (kept : ∀ a pre e post, J a (pre ++ e :: post) →
      J (body a e).1 (pre ++ (body a e).2 :: post)) {a : α} (initial : J a l) :
    J (forSlots body a l).1 (forSlots body a l).2 := by
  have whole := forSlots_visit body (fun a pre post => J a (pre ++ post))
    (fun a pre e post h => by simpa using kept a pre e post h) (a := a) (l := l) (by simpa)
  simpa using whole

/-- What the body does to a slot, whatever is carried, it does to each. -/
theorem forSlots_each (R : β → β → Prop) (each : ∀ a e, R e (body a e).2) (a : α) (l : List β) :
    List.Forall₂ R l (forSlots body a l).2 := by
  induction l generalizing a with
  | nil => exact .nil
  | cons e es ih => exact .cons (each a e) (ih _)

/-- What is carried, when the table itself does not matter. -/
theorem forSlots_carried (P : α → Prop) {a : α}
    (kept : ∀ a, ∀ e ∈ l, P a → P (body a e).1) (initial : P a) : P (forSlots body a l).1 := by
  induction l generalizing a with
  | nil => exact initial
  | cons e es ih =>
    exact ih (fun a x member => kept a x (by simp [member])) (kept a e (by simp) initial)

/-- A slot of the new table comes from a slot of the old one. -/
theorem forall₂_mem_right {R : β → β → Prop} {l l' : List β} (h : List.Forall₂ R l l') {e' : β}
    (member : e' ∈ l') : ∃ e ∈ l, R e e' := by
  induction h with
  | nil => simp at member
  | cons related _ ih =>
    rcases List.mem_cons.mp member with rfl | member
    · exact ⟨_, by simp, related⟩
    · obtain ⟨e, old, r⟩ := ih member
      exact ⟨e, by simp [old], r⟩

/-- And a slot of the old table becomes one of the new. -/
theorem forall₂_mem_left {R : β → β → Prop} {l l' : List β} (h : List.Forall₂ R l l') {e : β}
    (member : e ∈ l) : ∃ e' ∈ l', R e e' := forall₂_mem_right h.flip member

/-- One slot is replaced by another that passes as well. -/
theorem forall_mem_replaced {P : β → Prop} {pre post : List β} {e e' : β}
    (all : ∀ x ∈ pre ++ e :: post, P x) (new : P e') : ∀ x ∈ pre ++ e' :: post, P x := by
  intro x slot
  rcases List.mem_append.mp slot with before | slot
  · exact all x (by simp [before])
  · rcases List.mem_cons.mp slot with rfl | after
    · exact new
    · exact all x (by simp [after])

/-! ### The first slot that passes a test -/

/-- Put `new` into the first slot that passes `p`. -/
def setFirst (p : β → Bool) (new : β) : List β → List β
  | [] => []
  | e :: es => if p e then new :: es else e :: setFirst p new es

theorem setFirst_cons (p : β → Bool) (new e : β) (es : List β) :
    setFirst p new (e :: es) = if p e then new :: es else e :: setFirst p new es := rfl

variable {p : β → Bool}

/-- Where the search stops. -/
theorem find?_split {e : β} (found : l.find? p = some e) :
    ∃ pre post, l = pre ++ e :: post ∧ p e = true ∧ (∀ x ∈ pre, p x = false) ∧
      ∀ new, setFirst p new l = pre ++ new :: post := by
  induction l with
  | nil => simp at found
  | cons x xs ih =>
    cases here : p x with
    | true =>
      simp only [List.find?_cons, here, Option.some.injEq] at found
      subst found
      exact ⟨[], xs, rfl, here, by simp, fun new => by simp [setFirst_cons, here]⟩
    | false =>
      simp only [List.find?_cons, here] at found
      obtain ⟨pre, post, rfl, passes, before, set⟩ := ih found
      refine ⟨x :: pre, post, rfl, passes, ?_, fun new => by simp [setFirst_cons, here, set]⟩
      intro y member
      rcases List.mem_cons.mp member with rfl | member
      · exact here
      · exact before y member

theorem setFirst_of_none (none_passes : l.find? p = none) (new : β) :
    setFirst p new l = l := by
  induction l with
  | nil => rfl
  | cons x xs ih =>
    have fails : p x = false := by
      have := List.find?_eq_none.mp none_passes x (by simp)
      simpa using this
    simp only [List.find?_cons, fails] at none_passes
    simp [setFirst_cons, fails, ih none_passes]

theorem mem_setFirst {new e : β} (member : e ∈ setFirst p new l) :
    e = new ∨ e ∈ l := by
  induction l with
  | nil => exact .inr member
  | cons x xs ih =>
    rw [setFirst_cons] at member
    split at member
    · rcases List.mem_cons.mp member with rfl | member
      · exact Or.inl rfl
      · exact Or.inr (by simp [member])
    · rcases List.mem_cons.mp member with rfl | member
      · exact Or.inr (by simp)
      · exact (ih member).imp id fun old => by simp [old]

theorem mem_setFirst_new (passes : ∃ x ∈ l, p x = true) (new : β) :
    new ∈ setFirst p new l := by
  induction l with
  | nil => simp at passes
  | cons x xs ih =>
    cases here : p x with
    | true => simp [setFirst_cons, here]
    | false =>
      obtain ⟨y, member, passes⟩ := passes
      rcases List.mem_cons.mp member with rfl | later
      · simp [here] at passes
      · simp [setFirst_cons, here, ih ⟨y, later, passes⟩]

theorem mem_setFirst_other {e : β} (member : e ∈ l) (fails : p e = false) (new : β) : e ∈ setFirst p new l := by
  induction l with
  | nil => exact member
  | cons x xs ih =>
    rw [setFirst_cons]
    rcases List.mem_cons.mp member with rfl | later
    · rw [if_neg (by simp [fails])]
      simp
    · split
      · simp [later]
      · simp [ih later]

@[simp] theorem length_setFirst (p : β → Bool) (new : β) (l : List β) :
    (setFirst p new l).length = l.length := by
  induction l with
  | nil => rfl
  | cons x xs ih =>
    rw [setFirst_cons]
    split <;> simp [ih]

end Hima.Slots

/-!
## Arrays of slots

An array of `n` slots that is searched from the front, and how many of its slots pass a test when
one of them changes.
-/
namespace Hima.SlotArray

variable {α : Type} {n : Nat} {p : α → Bool} {slots : Fin n → α} {i : Fin n}

/-- The loop that stops at the first slot that passes. -/
def firstSlot (p : α → Bool) (slots : Fin n → α) : Option (Fin n) :=
  (List.finRange n).find? fun i => p (slots i)

theorem firstSlot_some (found : firstSlot p slots = some i) :
    p (slots i) = true ∧ ∀ j < i, p (slots j) = false := by
  rw [firstSlot, List.find?_eq_some_iff_getElem] at found
  obtain ⟨passes, k, inside, rfl, before⟩ := found
  refine ⟨passes, fun j earlier => ?_⟩
  have this := before j.val (by simpa [Fin.lt_def] using earlier)
  simpa using this

theorem firstSlot_none : firstSlot p slots = none ↔ ∀ i, p (slots i) = false := by
  simp [firstSlot]

/-- How many slots pass. -/
def count (p : α → Bool) (slots : Fin n → α) : Nat := (Finset.univ.filter fun i => p (slots i) = true).card

theorem count_le (p : α → Bool) (slots : Fin n → α) : count p slots ≤ n := by
  have bound := Finset.card_le_univ (Finset.univ.filter fun i => p (slots i) = true)
  rwa [Fintype.card_fin] at bound

/-- One slot more or less. -/
theorem count_update (p : α → Bool) (slots : Fin n → α) (i : Fin n) (new : α) :
    count p (Function.update slots i new) + (if p (slots i) then 1 else 0) =
      count p slots + if p new then 1 else 0 := by
  have split : ∀ slots' : Fin n → α, count p slots' =
      ((Finset.univ.erase i).filter fun j => p (slots' j) = true).card + if p (slots' i) then 1 else 0 := by
    intro slots'
    rw [count, ← Finset.insert_erase (Finset.mem_univ i), Finset.filter_insert]
    split
    next passes => rw [Finset.card_insert_of_notMem (by simp), Finset.erase_insert (by simp)]
    next fails => rw [Finset.erase_insert (by simp), Nat.add_zero]
  have others : ((Finset.univ.erase i).filter fun j => p (Function.update slots i new j) = true) =
      (Finset.univ.erase i).filter fun j => p (slots j) = true := by
    refine Finset.filter_congr fun j member => ?_
    rw [Function.update_of_ne (Finset.ne_of_mem_erase member)]
  rw [split (Function.update slots i new), split slots, others, Function.update_self]
  omega

end Hima.SlotArray
