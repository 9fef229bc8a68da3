import Hima.Lib.Slots

/-!
# Arrays that are filled from the front

The entries of an array of `n` slots stand in front, in some order, and every slot behind them is free. A new entry
goes into the first free slot, and the last entry takes the place of one that leaves. A loop over the entries stops
at the first free slot.
-/
namespace Hima.PackedArray

open SlotArray Function
open scoped List

variable {α β : Type} {n : Nat} {slots : Fin n → Option α} {as : List α} {a : α}

/-- The array holds these entries, in this order. -/
structure Packs (slots : Fin n → Option α) (as : List α) : Prop where
  length_le : as.length ≤ n
  slot : ∀ i, slots i = as[i.val]?

instance [DecidableEq α] : Decidable (Packs slots as) :=
  decidable_of_iff (as.length ≤ n ∧ ∀ i, slots i = as[i.val]?)
    ⟨fun both => ⟨both.1, both.2⟩, fun packs => ⟨packs.length_le, packs.slot⟩⟩

theorem Packs.unique {bs : List α} (packs : Packs slots as) (packs' : Packs slots bs) : as = bs := by
  refine List.ext_getElem? fun i => ?_
  by_cases inside : i < n
  · exact (packs.slot ⟨i, inside⟩).symm.trans (packs'.slot ⟨i, inside⟩)
  · rw [List.getElem?_eq_none (packs.length_le.trans (Nat.le_of_not_lt inside)),
      List.getElem?_eq_none (packs'.length_le.trans (Nat.le_of_not_lt inside))]

theorem packs_empty : Packs (fun _ : Fin n => (none : Option α)) [] :=
  ⟨Nat.zero_le n, fun _ => rfl⟩

/-! ### Loops over the entries -/

/-- The loop over the slots. The body takes what the loop carries and an entry, and says whether to go on. -/
def walk (body : β → α → β × Bool) : List (Option α) → β → β
  | [], b => b
  | none :: _, b => b
  | some a :: slots, b => if (body b a).2 then walk body slots (body b a).1 else (body b a).1

/-- The same over the entries. -/
def visit (body : β → α → β × Bool) : List α → β → β
  | [], b => b
  | a :: as, b => if (body b a).2 then visit body as (body b a).1 else (body b a).1

theorem Packs.ofFn (packs : Packs slots as) :
    List.ofFn slots = as.map some ++ List.replicate (n - as.length) none := by
  refine List.ext_getElem? fun i => ?_
  rw [List.getElem?_ofFn, List.getElem?_append, List.length_map, List.getElem?_map, List.getElem?_replicate]
  have fits := packs.length_le
  split
  next inside =>
    rw [packs.slot]
    split
    next front => rw [List.getElem?_eq_getElem front, Option.map_some]
    next back => rw [if_pos (by omega), List.getElem?_eq_none (Nat.le_of_not_lt back)]
  next outside => rw [if_neg (by omega), if_neg (by omega)]

/-- The loop reaches the entries and nothing else. -/
theorem Packs.walk (packs : Packs slots as) (body : β → α → β × Bool) (b : β) :
    walk body (List.ofFn slots) b = visit body as b := by
  have front : ∀ (as : List α) (free : Nat) (b : β),
      PackedArray.walk body (as.map some ++ List.replicate free none) b = visit body as b := by
    intro as free
    induction as with
    | nil => cases free <;> exact fun _ => rfl
    | cons a as ih =>
      intro b
      rw [List.map_cons, List.cons_append, PackedArray.walk, visit, ih]
  rw [packs.ofFn, front]

theorem visit_all (call : β → α → β) (as : List α) (b : β) :
    visit (fun b a => (call b a, true)) as b = as.foldl call b := by
  induction as generalizing b with
  | nil => rfl
  | cons a as ih =>
    rw [visit, if_pos rfl, ih, List.foldl_cons]

/-- Each entry is reached once, and one is left out only behind an entry at which the loop ends. -/
theorem visit_reached (body : β → α → β × Bool) (as : List α) (b : β) :
    ∃ reached rest, as = reached ++ rest ∧ visit body as b = reached.foldl (fun b a => (body b a).1) b ∧
      (rest ≠ [] → ∃ before a, reached = before ++ [a] ∧
        (body (before.foldl (fun b a => (body b a).1) b) a).2 = false) := by
  induction as generalizing b with
  | nil => exact ⟨[], [], rfl, rfl, fun more => absurd rfl more⟩
  | cons a as ih =>
    rw [visit]
    by_cases goes_on : (body b a).2 = true
    · rw [if_pos goes_on]
      obtain ⟨reached, rest, rfl, visited, ends⟩ := ih (body b a).1
      refine ⟨a :: reached, rest, rfl, visited, fun more => ?_⟩
      obtain ⟨before, z, rfl, ended⟩ := ends more
      exact ⟨a :: before, z, rfl, ended⟩
    · rw [if_neg goes_on]
      exact ⟨[a], as, rfl, rfl, fun _ => ⟨[], a, rfl, Bool.eq_false_of_not_eq_true goes_on⟩⟩

/-! ### An entry comes -/

theorem Packs.push (packs : Packs slots as) (inside : as.length < n) :
    Packs (update slots ⟨as.length, inside⟩ (some a)) (as ++ [a]) := by
  refine ⟨by rwa [List.length_append], fun i => ?_⟩
  rw [update_apply]
  split
  next here =>
    subst here
    simp
  next elsewhere =>
    have other : i.val ≠ as.length := fun same => elsewhere (Fin.ext same)
    rw [packs.slot, List.getElem?_append]
    split
    next => rfl
    next behind =>
      rw [List.getElem?_eq_none (by omega), List.getElem?_eq_none (by simp; omega)]

theorem Packs.mem_iff (packs : Packs slots as) : a ∈ as ↔ ∃ i, slots i = some a := by
  rw [List.mem_iff_getElem?]
  constructor
  · rintro ⟨i, here⟩
    have inside := (List.getElem?_eq_some_iff.mp here).1.trans_le packs.length_le
    exact ⟨⟨i, inside⟩, (packs.slot _).trans here⟩
  · rintro ⟨i, here⟩
    exact ⟨i, (packs.slot i).symm.trans here⟩

theorem Packs.free_iff (packs : Packs slots as) (i : Fin n) : slots i = none ↔ as.length ≤ i := by
  rw [packs.slot, List.getElem?_eq_none_iff]

/-- The search for an entry that also stops at a free slot. -/
theorem Packs.firstSlot_cases [DecidableEq α] (packs : Packs slots as) (a : α) :
    (∃ i, firstSlot (fun slot => slot = none || slot = some a) slots = some i ∧ slots i ≠ none ∧ a ∈ as) ∨
    (∃ inside : as.length < n,
      firstSlot (fun slot => slot = none || slot = some a) slots = some ⟨as.length, inside⟩ ∧ a ∉ as) ∨
    (firstSlot (fun slot => slot = none || slot = some a) slots = none ∧ as.length = n ∧ a ∉ as) := by
  cases found : firstSlot (fun slot => slot = none || slot = some a) slots with
  | none =>
    simp only [firstSlot_none, Bool.or_eq_false_iff, decide_eq_false_iff_not] at found
    refine .inr (.inr ⟨rfl, packs.length_le.antisymm (Nat.le_of_not_lt fun inside => ?_), fun member => ?_⟩)
    · exact (found ⟨_, inside⟩).1 ((packs.free_iff _).mpr (Nat.le_refl _))
    · obtain ⟨i, here⟩ := packs.mem_iff.mp member
      exact (found i).2 here
  | some i =>
    obtain ⟨here, before⟩ := firstSlot_some found
    simp only [Bool.or_eq_false_iff, decide_eq_false_iff_not] at before
    by_cases free : slots i = none
    · have behind := (packs.free_iff i).mp free
      have filled : ¬ as.length < i := fun inside =>
        (before ⟨as.length, inside.trans i.isLt⟩ inside).1 ((packs.free_iff _).mpr (Nat.le_refl _))
      have same : i.val = as.length := Nat.le_antisymm (Nat.le_of_not_lt filled) behind
      refine .inr (.inl ⟨same ▸ i.isLt, congrArg some (Fin.ext same), fun member => ?_⟩)
      obtain ⟨j, there⟩ := packs.mem_iff.mp member
      have front : j.val < as.length := by
        refine Nat.lt_of_not_le fun behind => ?_
        cases ((packs.free_iff j).mpr behind).symm.trans there
      exact (before j (front.trans_eq same.symm)).2 there
    · have entry : slots i = some a := by simpa [free] using here
      exact .inl ⟨i, rfl, free, packs.mem_iff.mpr ⟨i, entry⟩⟩

/-! ### An entry leaves -/

/-- `while (++i < n && slots[i] != NULL);`, what becomes of `i`. -/
def skip (slots : Fin n → Option α) (i : Nat) : Nat :=
  if inside : i + 1 < n then
    if slots ⟨i + 1, inside⟩ = none then i + 1 else skip slots (i + 1)
  else i + 1
termination_by n - i

theorem lt_skip (slots : Fin n → Option α) (i : Nat) : i < skip slots i := by
  fun_induction skip slots i with
  | case1 i inside free => exact Nat.lt_succ_self i
  | case2 i inside filled ih => exact (Nat.lt_succ_self i).trans ih
  | case3 i outside => exact Nat.lt_succ_self i

theorem skip_le (slots : Fin n → Option α) {i : Nat} (inside : i < n) : skip slots i ≤ n := by
  fun_induction skip slots i with
  | case1 i next free => exact Nat.le_of_lt next
  | case2 i next filled ih => exact ih next
  | case3 i outside => exact inside

/-- The slot `j` is cleared, the last entry is copied there and its own slot cleared: the slots, and where the last
entry was. -/
def closeHole (slots : Fin n → Option α) (j : Fin n) : (Fin n → Option α) × Fin n :=
  let holed := update slots j none
  let last : Fin n :=
    ⟨skip holed j - 1, Nat.sub_one_lt_of_le (Nat.zero_lt_of_lt (lt_skip holed j)) (skip_le holed j.isLt)⟩
  (update (update holed j (holed last)) last none, last)

theorem le_closeHole (slots : Fin n → Option α) (j : Fin n) : j.val ≤ (closeHole slots j).2 :=
  Nat.le_sub_one_of_lt (lt_skip _ j)

/-- From an entry, whether its own slot is free by now or not, to the end of the entries. -/
theorem Packs.skip {slots' : Fin n → Option α} (packs : Packs slots as) {i : Nat}
    (behind : ∀ k : Fin n, i < k → slots' k = slots k) (inside : i < as.length) :
    PackedArray.skip slots' i = as.length := by
  have fits := packs.length_le
  fun_induction PackedArray.skip slots' i with
  | case1 i next free =>
    have last := (packs.free_iff _).mp ((behind _ (Nat.lt_succ_self i)).symm.trans free)
    exact Nat.le_antisymm inside last
  | case2 i next filled ih =>
    refine ih (fun k later => behind k (Nat.lt_of_succ_lt later)) (Nat.lt_of_not_le fun last => filled ?_)
    exact (behind _ (Nat.lt_succ_self i)).trans ((packs.free_iff _).mpr last)
  | case3 i outside => omega

variable {front : List α} {z : α} {i : Nat}

/-- The last entry takes the place of the one that leaves. -/
theorem perm_set (here : (front ++ [z])[i]? = some a) : a :: front.set i z ~ front ++ [z] := by
  rcases Nat.lt_or_ge i front.length with inside | behind
  · have entry : front[i] = a := by
      rwa [List.getElem?_append_left inside, List.getElem?_eq_getElem inside, Option.some.injEq] at here
    calc a :: front.set i z ~ a :: z :: front.eraseIdx i := (List.set_perm_cons_eraseIdx inside z).cons a
      _ ~ z :: a :: front.eraseIdx i := .swap ..
      _ ~ z :: front := (entry ▸ List.getElem_cons_eraseIdx_perm inside).cons z
      _ ~ front ++ [z] := (List.perm_append_singleton z front).symm
  · -- it is the last one itself
    rw [List.getElem?_append_right behind] at here
    obtain rfl : z = a := (List.mem_singleton.mp (List.mem_of_getElem? here)).symm
    rw [List.set_eq_of_length_le behind]
    exact (List.perm_append_singleton z front).symm

theorem closeHole_apply (slots : Fin n → Option α) (j k : Fin n) : (closeHole slots j).1 k =
    if k = (closeHole slots j).2 then none
    else if k = j then update slots j none (closeHole slots j).2 else slots k := by
  rw [closeHole]
  dsimp only
  rw [update_idem, update_apply, update_apply]

variable {j : Fin n}

theorem Packs.closeHole_last (packs : Packs slots (front ++ [z])) (inside : j.val ≤ front.length) :
    (closeHole slots j).2.val = front.length := by
  have skipped : PackedArray.skip (update slots j none) j = (front ++ [z]).length := by
    refine packs.skip (fun k later => update_of_ne ?_ _ _) ?_
    · rintro rfl
      exact Nat.lt_irrefl _ later
    · rw [List.length_append]
      exact Nat.lt_succ_of_le inside
  rw [closeHole]
  dsimp only
  rw [skipped, List.length_append, List.length_singleton, Nat.add_sub_cancel]

theorem Packs.closeHole (packs : Packs slots (front ++ [z])) (inside : j.val ≤ front.length) :
    Packs (PackedArray.closeHole slots j).1 (front.set j z) := by
  have fits := packs.length_le
  have at_last := packs.closeHole_last inside
  refine ⟨by rw [List.length_set]; omega, fun k => ?_⟩
  rw [closeHole_apply]
  generalize (PackedArray.closeHole slots j).2 = last at at_last
  split
  next here =>
    subst here
    rw [List.getElem?_eq_none (by rw [List.length_set, at_last])]
  next other =>
    have apart : k.val ≠ front.length := fun same => other (Fin.ext (same.trans at_last.symm))
    rw [List.getElem?_set]
    by_cases moved : k = j
    · subst moved
      -- the hole, which is not the last slot
      have elsewhere : last ≠ k := fun same => other same.symm
      rw [if_pos rfl, if_pos rfl, if_pos (by omega), update_of_ne elsewhere, packs.slot, at_last]
      simp
    · have elsewhere : ¬ j.val = k.val := fun same => moved (Fin.ext same.symm)
      rw [if_neg moved, if_neg elsewhere, packs.slot, List.getElem?_append]
      split
      next => rfl
      next behind => rw [List.getElem?_eq_none (by simp; omega), List.getElem?_eq_none (by omega)]

end Hima.PackedArray
