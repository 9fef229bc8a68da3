import Mathlib.Data.List.Basic
import Mathlib.Data.List.TakeWhile

/-!
# Tokens

The pieces of a text between the delimiters, without the empty ones, and how `strtok_r` finds them
one after the other.
-/
namespace Hima.Tokens

variable {α : Type} [DecidableEq α] {d c : α} {s t rest : List α}

/-- The pieces between the delimiters that are not empty. -/
def tokens (d : α) (s : List α) : List (List α) := (s.splitOn d).filter (· ≠ [])

/-- `strtok_r`: the next token, and the text behind it. -/
def strtok (d : α) (s : List α) : Option (List α × List α) :=
  let s := s.dropWhile (· == d)
  if s = [] then none else some (s.takeWhile (· != d), (s.dropWhile (· != d)).tail)

@[simp] theorem tokens_nil : tokens d [] = [] := rfl

theorem tokens_dropWhile (d : α) (s : List α) : tokens d (s.dropWhile (· == d)) = tokens d s := by
  induction s with
  | nil => rfl
  | cons a s ih =>
    rw [List.dropWhile_cons]
    split
    · next delim => rw [ih, tokens, tokens, List.splitOn_cons_eq_if_modifyHead, if_pos delim]; rfl
    · rfl

theorem takeWhile_of_not_mem (absent : d ∉ s) : s.takeWhile (· != d) = s :=
  List.takeWhile_eq_self_iff.mpr fun _ member => bne_iff_ne.mpr fun delim => absent (delim ▸ member)

theorem not_mem_takeWhile : d ∉ s.takeWhile (· != d) := by
  intro member
  simpa using List.all_eq_true.mp List.all_takeWhile d member

/-- What `strtok_r` returns is the first token, and the others are behind it. -/
theorem tokens_of_strtok (found : strtok d s = some (t, rest)) : tokens d s = t :: tokens d rest := by
  rw [← tokens_dropWhile]
  simp only [strtok] at found
  split at found
  · cases found
  next some_char =>
  obtain ⟨rfl, rfl⟩ := Prod.mk.inj (Option.some.inj found)
  generalize begins : s.dropWhile (· == d) = l at some_char
  have no_delim : l.takeWhile (· != d) ≠ [] := by
    obtain ⟨a, l, rfl⟩ := List.exists_cons_of_ne_nil some_char
    have first := List.head?_dropWhile_not (· == d) s
    rw [begins] at first
    rw [List.takeWhile_cons_of_pos (by simpa using first)]
    exact List.cons_ne_nil _ _
  cases behind : l.dropWhile (· != d) with
  | nil =>
    -- the token goes up to the end, and strtok_r leaves nothing
    have all : l.takeWhile (· != d) = l := by
      simpa [behind] using List.takeWhile_append_dropWhile (p := (· != d)) (l := l)
    have absent : d ∉ l := all ▸ not_mem_takeWhile
    rw [all, tokens, List.splitOn_eq_singleton absent]
    simp [some_char]
  | cons a after =>
    -- the null overwrites the delimiter, which is skipped
    obtain rfl : d = a := by
      have first := List.head?_dropWhile_not (· != d) l
      rw [behind] at first
      exact (by simpa using first : a = d).symm
    have parts : l = l.takeWhile (· != d) ++ d :: after := by
      rw [← behind, List.takeWhile_append_dropWhile]
    conv_lhs => rw [tokens, parts, List.splitOn_append_cons_self_of_not_mem not_mem_takeWhile]
    rw [List.filter_cons_of_pos (by simpa using no_delim)]
    rfl

theorem tokens_of_strtok_none (none_left : strtok d s = none) : tokens d s = [] := by
  rw [← tokens_dropWhile]
  simp only [strtok] at none_left
  split at none_left
  · next empty => rw [empty, tokens_nil]
  · cases none_left

/-! ### One character more -/

theorem splitOn_concat (other : c ≠ d) (s : List α) :
    ∃ ts t, s.splitOn d = ts ++ [t] ∧ (s ++ [c]).splitOn d = ts ++ [t ++ [c]] := by
  induction s with
  | nil => exact ⟨[], [], rfl, List.splitOn_eq_singleton (by simpa using other.symm)⟩
  | cons a s ih =>
    obtain ⟨ts, t, before, after⟩ := ih
    rw [List.cons_append, List.splitOn_cons_eq_if_modifyHead, List.splitOn_cons_eq_if_modifyHead, before, after]
    split
    · exact ⟨[] :: ts, t, rfl, rfl⟩
    · -- the character goes to the first piece, which may be the last as well
      cases ts with
      | nil => exact ⟨[], a :: t, rfl, rfl⟩
      | cons first ts => exact ⟨(a :: first) :: ts, t, rfl, rfl⟩

/-- A character at the end is a token of its own, or goes to the last one. -/
theorem tokens_concat (other : c ≠ d) (s : List α) :
    tokens d (s ++ [c]) = tokens d s ++ [[c]] ∨
      ∃ ts t, tokens d s = ts ++ [t] ∧ tokens d (s ++ [c]) = ts ++ [t ++ [c]] := by
  obtain ⟨ts, t, before, after⟩ := splitOn_concat other s
  rw [tokens, tokens, before, after, List.filter_append, List.filter_append]
  by_cases empty : t = []
  · left
    simp [empty]
  · right
    exact ⟨ts.filter (· ≠ []), t, by simp [empty], by simp⟩

/-- The tokens of joined lines are the lines that are not empty. -/
theorem tokens_intercalate {lines : List (List α)} (whole : ∀ l ∈ lines, d ∉ l) :
    tokens d ([d].intercalate lines) = lines.filter (· ≠ []) := by
  cases lines with
  | nil => rfl
  | cons l lines => rw [tokens, List.splitOn_intercalate _ whole (List.cons_ne_nil _ _)]

end Hima.Tokens
