import Mathlib.Data.List.Basic

/-!
# Closing a gap in an array

An entry leaves a table kept at the front of an array, and a loop moves each entry behind it one
place forward. `merge` says what a slot becomes when the next one is copied over it, which need
not be the whole of the next one; `vacate` says what the loop does to the slot it copied from.
-/
namespace Hima.Compaction

variable {α : Type} (merge : α → α → α) (vacate : α → α)

/-- Copies the `n` slots behind slot `i` forward. A read or write past the array has no outcome. -/
def shiftDown (slots : List α) (i : Nat) : Nat → Option (List α)
  | 0 => some slots
  | n + 1 => do
    let here ← slots[i]?
    let next ← slots[i + 1]?
    shiftDown ((slots.set i (merge here next)).set (i + 1) (vacate next)) (i + 1) n

/-- What one turn leaves in each slot. -/
theorem getElem?_turn {slots : List α} {i : Nat} {here next : α} (front : slots[i]? = some here)
    (behind : slots[i + 1]? = some next) (k : Nat) :
    ((slots.set i (merge here next)).set (i + 1) (vacate next))[k]? = if k = i + 1 then some (vacate next)
      else if k = i then some (merge here next) else slots[k]? := by
  obtain ⟨inFront, -⟩ := List.getElem?_eq_some_iff.mp front
  obtain ⟨inside, -⟩ := List.getElem?_eq_some_iff.mp behind
  by_cases last : k = i + 1
  · subst last
    simp [inside]
  · by_cases first : k = i
    · subst first
      simp [inFront]
    · simp [last, first, Ne.symm last, Ne.symm first]

/-- The loop stays inside the array, and the front of the array reads as each slot merged with
the one behind it. The first hypothesis says that vacating a slot does not change what a later
copy makes of it. -/
theorem shiftDown_spec (forgets : ∀ a b, merge (vacate a) b = merge a b) {n : Nat} :
    ∀ {slots : List α} {i : Nat}, i + n < slots.length →
      ∃ shifted, shiftDown merge vacate slots i n = some shifted ∧ shifted.length = slots.length ∧
        (∀ k, k < i → shifted[k]? = slots[k]?) ∧
        (∀ k, i ≤ k → k < i + n → ∀ a b, slots[k]? = some a → slots[k + 1]? = some b →
          shifted[k]? = some (merge a b)) ∧ (∀ k, i + n < k → shifted[k]? = slots[k]?) := by
  induction n with
  | zero =>
    intro slots i _
    exact ⟨slots, rfl, rfl, fun _ _ => rfl, fun k above below => by omega, fun _ _ => rfl⟩
  | succ n ih =>
    intro slots i inside
    have front : slots[i]? = some slots[i] := List.getElem?_eq_getElem (by omega)
    have behind : slots[i + 1]? = some slots[i + 1] := List.getElem?_eq_getElem (by omega)
    have turn := getElem?_turn merge vacate front behind
    have rest : i + 1 + n < ((slots.set i (merge slots[i] slots[i + 1])).set (i + 1)
        (vacate slots[i + 1])).length := by
      simp only [List.length_set]
      omega
    obtain ⟨shifted, runs, length, before, between, after⟩ := ih rest
    refine ⟨shifted, ?_, by simp only [length, List.length_set], ?_, ?_, ?_⟩
    · simp only [shiftDown, front, behind, Option.bind_eq_bind, Option.bind_some, runs]
    · intro k below
      rw [before k (by omega), turn, if_neg (by omega), if_neg (by omega)]
    · intro k above below a b atK behindK
      by_cases first : k = i
      · -- the slot this turn writes; the rest of the loop is behind it
        subst first
        rw [before k (by omega), turn, if_neg (by omega), if_pos rfl]
        rw [front] at atK
        rw [behind] at behindK
        rw [← Option.some.inj atK, ← Option.some.inj behindK]
      · have atNext := turn (k + 1)
        rw [if_neg (by omega), if_neg (by omega), behindK] at atNext
        have atHere := turn k
        by_cases second : k = i + 1
        · -- the slot this turn has vacated
          subst second
          rw [if_pos rfl] at atHere
          rw [between (i + 1) (by omega) (by omega) _ _ atHere atNext, forgets]
          rw [behind] at atK
          rw [Option.some.inj atK]
        · rw [if_neg second, if_neg first, atK] at atHere
          exact between k (by omega) (by omega) a b atHere atNext
    · intro k behindAll
      rw [after k (by omega), turn, if_neg (by omega), if_neg (by omega)]

/-- If a copied slot ends up as the one behind it, the table loses the entry and nothing else. -/
theorem take_shiftDown (forgets : ∀ a b, merge (vacate a) b = merge a b) {slots shifted : List α}
    {i n : Nat} (inside : i + n < slots.length)
    (whole : ∀ k, i ≤ k → k < i + n → ∀ a b, slots[k]? = some a → slots[k + 1]? = some b → merge a b = b)
    (runs : shiftDown merge vacate slots i n = some shifted) :
    shifted.take (i + n) = (slots.take (i + n + 1)).eraseIdx i := by
  obtain ⟨_, same, length, before, between, -⟩ := shiftDown_spec merge vacate forgets inside
  obtain rfl := Option.some.inj (runs.symm.trans same)
  refine List.ext_getElem? fun k => ?_
  rw [List.getElem?_take, List.getElem?_eraseIdx, List.getElem?_take, List.getElem?_take]
  by_cases front : k < i
  · rw [if_pos (by omega), if_pos front, if_pos (by omega), before k front]
  · by_cases below : k < i + n
    · have here : slots[k]? = some slots[k] := List.getElem?_eq_getElem (by omega)
      have next : slots[k + 1]? = some slots[k + 1] := List.getElem?_eq_getElem (by omega)
      rw [if_pos below, if_neg front, if_pos (by omega), next,
        between k (by omega) below _ _ here next, whole k (by omega) below _ _ here next]
    · rw [if_neg below, if_neg front, if_neg (by omega)]

/-- The loop over an array that has no end, from which slots are only copied. -/
theorem foldl_copyNext (copy : α → α → α) (slots : Nat → α) (i n k : Nat) :
    (List.range' i n).foldl (fun slots j => Function.update slots j (copy (slots j) (slots (j + 1)))) slots k =
      if i ≤ k ∧ k < i + n then copy (slots k) (slots (k + 1)) else slots k := by
  induction n generalizing k with
  | zero =>
    rw [if_neg (by omega)]
    rfl
  | succ n ih =>
    rw [List.range'_concat, List.foldl_concat]
    by_cases here : k = i + 1 * n
    · -- the slot behind has not been written yet
      subst here
      rw [Function.update_self, ih, ih, if_neg (by omega), if_neg (by omega), if_pos (by omega)]
    · rw [Function.update_of_ne here, ih]
      have same : (i ≤ k ∧ k < i + n) ↔ (i ≤ k ∧ k < i + (n + 1)) := by omega
      simp only [same]

end Hima.Compaction
