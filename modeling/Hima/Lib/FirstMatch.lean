import Hima.Lib.Slots

/-!
# Lists searched by a key

A list whose elements carry a key, where every operation works on the first element of a key: it
is looked up with `find?`, replaced with `setFirst`, taken out with `eraseP`, and a new element
goes to the end. What an operation on one key does to that key and to the others.
-/
namespace Hima.FirstMatch

open Slots

variable {α β : Type} [DecidableEq β] (key : α → β)

/-- The test for a key. -/
def hasKey (k : β) (e : α) : Bool := key e = k

@[simp] theorem hasKey_iff {k : β} {e : α} : hasKey key k e = true ↔ key e = k := by
  simp [hasKey]

variable {key} {k k' : β} {e new : α} {l : List α}

/-! ### How often a key occurs -/

theorem countP_hasKey_pos : 0 < l.countP (hasKey key k) ↔ ∃ e ∈ l, key e = k := by
  simp [List.countP_pos_iff]

theorem countP_hasKey_eq_zero : l.countP (hasKey key k) = 0 ↔ ∀ e ∈ l, key e ≠ k := by
  simp [List.countP_eq_zero]

theorem find?_hasKey_isSome : (l.find? (hasKey key k)).isSome ↔ 0 < l.countP (hasKey key k) := by
  simp [List.find?_isSome]

theorem key_of_find? (found : l.find? (hasKey key k) = some e) : key e = k := by
  simpa using List.find?_some found

theorem countP_append_singleton (l : List α) (e : α) (k : β) :
    (l ++ [e]).countP (hasKey key k) = l.countP (hasKey key k) + if key e = k then 1 else 0 := by
  simp [List.countP_append, List.countP_cons]

theorem countP_eraseP (l : List α) (k k' : β) :
    (l.eraseP (hasKey key k)).countP (hasKey key k') = l.countP (hasKey key k') - if k = k' then 1 else 0 := by
  induction l with
  | nil => simp
  | cons x xs ih =>
    by_cases here : key x = k
    · subst here
      by_cases same : key x = k' <;> simp [same]
    · by_cases same : k = k'
      · subst same
        simpa [List.countP_cons, here] using ih
      · simp [List.countP_cons, here, same] at ih ⊢
        omega

theorem countP_setFirst (sameKey : key new = k) (l : List α) (k' : β) :
    (setFirst (hasKey key k) new l).countP (hasKey key k') = l.countP (hasKey key k') := by
  induction l with
  | nil => rfl
  | cons x xs ih =>
    by_cases here : key x = k
    · simp [setFirst, here, List.countP_cons, sameKey]
    · simp [setFirst, here, List.countP_cons, ih]

theorem nodup_of_countP_le_one (once : ∀ k, l.countP (hasKey key k) ≤ 1) : (l.map key).Nodup := by
  induction l with
  | nil => simp
  | cons x xs ih =>
    have rest : ∀ k, xs.countP (hasKey key k) ≤ 1 := fun k =>
      Nat.le_trans (List.countP_cons (a := x) ▸ Nat.le_add_right _ _) (once k)
    refine List.nodup_cons.mpr ⟨fun again => ?_, ih rest⟩
    have twice := once (key x)
    have present : 0 < xs.countP (hasKey key (key x)) := by
      simpa [countP_hasKey_pos] using again
    rw [List.countP_cons_of_pos (by simp)] at twice
    omega

/-! ### What is found -/

/-- With distinct keys every entry is the one that its key finds. -/
theorem find?_of_mem (distinct : (l.map key).Nodup) (member : e ∈ l) :
    l.find? (hasKey key (key e)) = some e := by
  induction l with
  | nil => cases member
  | cons x xs ih =>
    obtain ⟨fresh, distinct⟩ := List.nodup_cons.mp distinct
    rcases List.mem_cons.mp member with rfl | later
    · exact List.find?_cons_of_pos (by simp)
    have other : key x ≠ key e := fun same => fresh (same ▸ List.mem_map_of_mem later)
    rw [List.find?_cons_of_neg (by simpa using other)]
    exact ih distinct later

theorem find?_append_singleton_self (absent : l.find? (hasKey key k) = none) (is : key e = k) :
    (l ++ [e]).find? (hasKey key k) = some e := by
  simp [List.find?_append, absent, is]

theorem find?_append_singleton_ne (l : List α) (other : key e ≠ k) :
    (l ++ [e]).find? (hasKey key k) = l.find? (hasKey key k) := by
  simp [List.find?_append, other]

theorem find?_setFirst_self (found : l.find? (hasKey key k) = some e) (sameKey : key new = k) :
    (setFirst (hasKey key k) new l).find? (hasKey key k) = some new := by
  induction l with
  | nil => simp at found
  | cons x xs ih =>
    by_cases here : key x = k
    · simp [setFirst, here, sameKey]
    · have later : xs.find? (hasKey key k) = some e := by simpa [here] using found
      simp [setFirst, here, ih later]

theorem find?_setFirst_ne (sameKey : key new = k) (other : k ≠ k') (l : List α) :
    (setFirst (hasKey key k) new l).find? (hasKey key k') = l.find? (hasKey key k') := by
  induction l with
  | nil => rfl
  | cons x xs ih =>
    by_cases here : key x = k
    · have differs : key x ≠ k' := fun same => other (here ▸ same)
      simp [setFirst, here, sameKey, other]
    · have passed : hasKey key k x = false := by simp [hasKey, here]
      simp [setFirst, passed, List.find?_cons, ih]

theorem find?_eraseP_self (once : l.countP (hasKey key k) ≤ 1) :
    (l.eraseP (hasKey key k)).find? (hasKey key k) = none := by
  have gone : (l.eraseP (hasKey key k)).countP (hasKey key k) = 0 := by
    rw [countP_eraseP, if_pos rfl]
    omega
  simpa using countP_hasKey_eq_zero.mp gone

theorem find?_eraseP_ne (other : k ≠ k') (l : List α) :
    (l.eraseP (hasKey key k)).find? (hasKey key k') = l.find? (hasKey key k') := by
  induction l with
  | nil => rfl
  | cons x xs ih =>
    by_cases here : key x = k
    · simp [here, other]
    · have passed : hasKey key k x = false := by simp [hasKey, here]
      simp [passed, List.find?_cons, ih]

theorem set_of_findIdx? {p : α → Bool} {i : Nat} (found : l.findIdx? p = some i) (new : α) :
    l.set i new = setFirst p new l := by
  induction l generalizing i with
  | nil => simp at found
  | cons x xs ih =>
    cases here : p x with
    | true =>
      obtain rfl : 0 = i := by simpa [List.findIdx?_cons, here] using found
      simp [setFirst, here]
    | false =>
      simp only [List.findIdx?_cons, here, Bool.false_eq_true, if_false, Option.map_eq_some_iff] at found
      obtain ⟨j, later, rfl⟩ := found
      simp [setFirst, here, ih later]

/-! ### Up to order -/

theorem perm_eraseP {p : α → Bool} (found : l.find? p = some e) : l.Perm (e :: l.eraseP p) := by
  obtain ⟨wanted, front, back, rfl, passed⟩ := List.find?_eq_some_iff_append.mp found
  have skip : ∀ a ∈ front, ¬ p a := fun a member => by simpa using passed a member
  rw [List.eraseP_append_right _ skip, List.eraseP_cons_of_pos wanted]
  exact List.perm_middle

theorem perm_setFirst {p : α → Bool} (found : l.find? p = some e) :
    (setFirst p new l).Perm (new :: l.eraseP p) := by
  induction l with
  | nil => simp at found
  | cons x xs ih =>
    cases here : p x with
    | true => simp [setFirst, here]
    | false =>
      have later : xs.find? p = some e := by simpa [here] using found
      rw [setFirst, here, List.eraseP_cons_of_neg (by simp [here])]
      exact ((ih later).cons x).trans (.swap ..)

/-! ### Writing back an element that keeps its key -/

theorem countP_set (l : List α) (i : Nat) (same : ∀ e, l[i]? = some e → key new = key e) (k : β) :
    (l.set i new).countP (hasKey key k) = l.countP (hasKey key k) := by
  induction l generalizing i with
  | nil => rfl
  | cons x xs ih =>
    cases i with
    | zero => simp [List.countP_cons, same x rfl]
    | succ i => simp [List.countP_cons, ih i fun e at_i => same e (by simpa using at_i)]

omit [DecidableEq β] in
theorem map_set (l : List α) (i : Nat) (same : ∀ e, l[i]? = some e → key new = key e) :
    (l.set i new).map key = l.map key := by
  induction l generalizing i with
  | nil => rfl
  | cons x xs ih =>
    cases i with
    | zero => simp [same x rfl]
    | succ i => simp [ih i fun e at_i => same e (by simpa using at_i)]

end Hima.FirstMatch
