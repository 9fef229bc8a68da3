import Mathlib.Data.List.Basic

/-!
# Tables with a count of one byte

A table of fixed size and the number of its entries in a byte, which starts over at 256. What is
written is the last entry that is counted: it lies outside the table while nothing is counted, and when
more is counted than there is room for.
-/
namespace Hima.CountedTable

structure Table (α : Type) (size : Nat) where
  num : UInt8 := 0
  entries : Vector α size
deriving DecidableEq

namespace Table

variable {α : Type} {size : Nat}

/-- Counts one entry more. -/
def push (t : Table α size) : Table α size := { t with num := t.num + 1 }

/-- The last entry that is counted lies in the table. -/
def InBounds (size : Nat) (num : UInt8) : Prop := 1 ≤ num.toNat ∧ num.toNat ≤ size

instance (num : UInt8) : Decidable (InBounds size num) := inferInstanceAs (Decidable (_ ∧ _))

def last? (t : Table α size) : Option α :=
  if t.num = 0 then none else t.entries[t.num.toNat - 1]?

/-- Writes the last entry that is counted; `none` when this writes outside the table. -/
def modifyLast (t : Table α size) (f : α → α) : Option (Table α size) :=
  if bounds : InBounds size t.num then
    have below : t.num.toNat - 1 < size := Nat.lt_of_lt_of_le (Nat.sub_one_lt_of_lt bounds.1) bounds.2
    some { t with entries := t.entries.set (t.num.toNat - 1) (f t.entries[t.num.toNat - 1]) }
  else none

variable (t : Table α size)

@[simp] theorem num_push : t.push.num = t.num + 1 := rfl

/-- Writing does not count. -/
theorem modifyLast_cases (f : α → α) :
    (InBounds size t.num ∧ ∃ t', t.modifyLast f = some t' ∧ t'.num = t.num) ∨
    (¬ InBounds size t.num ∧ t.modifyLast f = none) := by
  by_cases bounds : InBounds size t.num
  · exact .inl ⟨bounds, _, dif_pos bounds, rfl⟩
  · exact .inr ⟨bounds, dif_neg bounds⟩

/-- A write inside a larger state, seen through what depends on the count alone. -/
theorem map_modifyLast {σ κ : Type} (f : α → α) (wrap : Table α size → σ)
    {abs : σ → κ} {k : κ} (same : ∀ t', t'.num = t.num → abs (wrap t') = k) :
    ((t.modifyLast f).map wrap).map abs = if InBounds size t.num then some k else none := by
  rcases modifyLast_cases t f with ⟨bounds, t', written, counted⟩ | ⟨outside, failed⟩
  · rw [if_pos bounds, written, Option.map_some, Option.map_some, same t' counted]
  · rw [if_neg outside, failed, Option.map_none, Option.map_none]

/-- There is a last entry when it lies in the table. -/
theorem last?_isSome : t.last?.isSome ↔ InBounds size t.num := by
  rw [last?]
  by_cases zero : t.num = 0
  · simp [zero, InBounds]
  have positive : 1 ≤ t.num.toNat := Nat.one_le_iff_ne_zero.mpr fun none_counted =>
    zero (UInt8.toNat_inj.mp none_counted)
  have iff : (t.entries[t.num.toNat - 1]?).isSome ↔ t.num.toNat - 1 < size := by simp
  rw [if_neg zero, iff, InBounds]
  omega

theorem last?_modifyLast {t : Table α size} {f : α → α} {t' : Table α size}
    (written : t.modifyLast f = some t') : t'.last? = t.last?.map f := by
  rw [modifyLast] at written
  split at written
  next bounds =>
    obtain rfl := Option.some.inj written
    have counted : t.num ≠ 0 := fun none_counted => by simp [InBounds, none_counted] at bounds
    have below : t.num.toNat - 1 < size := by
      obtain ⟨positive, room⟩ := bounds
      omega
    simp [last?, counted, below]
  next => cases written

/-- What is behind the entries that are counted is not written. -/
theorem getElem?_modifyLast {t t' : Table α size} {f : α → α} (written : t.modifyLast f = some t') {i : Nat}
    (behind : t.num.toNat ≤ i) : t'.entries[i]? = t.entries[i]? := by
  rw [modifyLast] at written
  split at written
  next bounds =>
    obtain rfl := Option.some.inj written
    obtain ⟨positive, room⟩ := bounds
    have below : t.num.toNat - 1 < size := by omega
    have other : t.num.toNat - 1 ≠ i := by omega
    exact Vector.getElem?_set_ne below other
  next => cases written

end Table

end Hima.CountedTable
