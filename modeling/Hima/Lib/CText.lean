import Mathlib.Algebra.Group.Basic
import Mathlib.Data.List.TakeWhile

/-!
# Strings in a buffer

A buffer holds a string up to the first zero. What is behind it is left over from earlier strings.
-/
namespace Hima.CText

variable {α : Type} [Zero α] {buffer text text' : List α} {size : Nat}

/-- A text without a zero in it. -/
def Plain (text : List α) : Prop := ∀ a ∈ text, a ≠ 0

theorem Plain.append (first : Plain text) (second : Plain text') : Plain (text ++ text') := by
  intro a member
  exact (List.mem_append.mp member).elim (first a) (second a)

theorem Plain.take (plain : Plain text) (n : Nat) : Plain (text.take n) :=
  fun a member => plain a (List.mem_of_mem_take member)

/-- The buffer holds a string. -/
structure Holds (buffer text : List α) : Prop where
  plain : Plain text
  ends : ∃ rest, buffer = text ++ 0 :: rest

theorem Holds.length_lt (holds : Holds buffer text) : text.length < buffer.length := by
  obtain ⟨rest, rfl⟩ := holds.ends
  rw [List.length_append, List.length_cons]
  omega

/-- What `snprintf` does to a buffer: a text put at a position, where there is room for `size`
characters with the zero behind it. -/
def store (buffer : List α) (pos size : Nat) (text : List α) : List α :=
  if size = 0 then buffer
  else
    buffer.take pos ++ text.take (size - 1) ++ 0 :: buffer.drop (pos + (text.take (size - 1)).length + 1)

theorem length_store {pos : Nat} (fits : pos + size ≤ buffer.length) :
    (store buffer pos size text).length = buffer.length := by
  rw [store]
  split
  · rfl
  · simp only [List.length_append, List.length_cons, List.length_take, List.length_drop]
    omega

theorem Holds.store (holds : Holds buffer text) (some_room : 0 < size) (plain : Plain text') :
    Holds (store buffer text.length size text') (text ++ text'.take (size - 1)) := by
  refine ⟨holds.plain.append (plain.take _), ?_⟩
  obtain ⟨rest, rfl⟩ := holds.ends
  rw [CText.store, if_neg (Nat.ne_of_gt some_room), List.take_left]
  exact ⟨_, rfl⟩

theorem Holds.store_whole (holds : Holds buffer text) (plain : Plain text') (fits : text'.length < size) :
    Holds (CText.store buffer text.length size text') (text ++ text') := by
  have stored := holds.store (Nat.lt_of_le_of_lt (Nat.zero_le _) fits) plain
  rwa [List.take_of_length_le (by omega)] at stored

theorem holds_store_zero (some_room : 0 < size) (plain : Plain text) :
    Holds (store buffer 0 size text) (text.take (size - 1)) := by
  refine ⟨plain.take _, ?_⟩
  rw [store, if_neg (Nat.ne_of_gt some_room), List.take_zero, List.nil_append]
  exact ⟨_, rfl⟩

variable [DecidableEq α]

/-- The string in a buffer. -/
def cstr (buffer : List α) : List α := buffer.takeWhile (· ≠ 0)

theorem Holds.cstr (holds : Holds buffer text) : cstr buffer = text := by
  obtain ⟨plain, rest, rfl⟩ := holds
  rw [CText.cstr, List.takeWhile_append_of_pos (by simpa [Plain] using plain),
    List.takeWhile_cons_of_neg (by simp), List.append_nil]

end Hima.CText
