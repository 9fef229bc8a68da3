import Mathlib.Data.List.Destutter

/-!
# Changes of a value

A value sampled again and again: `destutter` keeps one sample for each change. Samples come one at a
time, so the lemmas say what one more of them adds at the end.
-/
namespace List

variable {α : Type*} [DecidableEq α]

/-- One more sample is kept exactly if it differs from the one before. -/
theorem destutter'_ne_concat (a : α) (l : List α) (x : α) :
    (l ++ [x]).destutter' (· ≠ ·) a =
      if l.getLastD a = x then l.destutter' (· ≠ ·) a else l.destutter' (· ≠ ·) a ++ [x] := by
  induction l generalizing a with
  | nil =>
    rw [nil_append, destutter'_singleton, destutter'_nil]
    by_cases same : a = x
    · rw [if_neg (not_not.mpr same), if_pos (by simpa using same)]
    · rw [if_pos same, if_neg (by simpa using same), singleton_append]
  | cons b l ih =>
    have last : (b :: l).getLastD a = l.getLastD b := by cases l <;> rfl
    rw [cons_append, last]
    by_cases same : a = b
    · subst same
      rw [destutter'_cons_neg _ (not_not.mpr rfl), destutter'_cons_neg _ (not_not.mpr rfl), ih]
    · rw [destutter'_cons_pos _ same, destutter'_cons_pos _ same, ih]
      split <;> rfl

/-- The last change is to the last sample. -/
theorem getLastD_destutter'_ne (a : α) (l : List α) :
    (l.destutter' (· ≠ ·) a).getLastD a = l.getLastD a := by
  induction l using List.reverseRecOn with
  | nil => rfl
  | append_singleton l x ih =>
    rw [destutter'_ne_concat]
    split
    next same =>
      rw [ih, same]
      simp
    next =>
      simp

end List
