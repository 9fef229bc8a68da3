import Mathlib.Data.Nat.Basic

/-!
# Tilings

Regions of memory, each with an address and a length, that lie one behind the other. They cover
their range, and no two of them share a byte.
-/
namespace Tiling

variable {κ : Type}

/-- The regions of the list, in its order, fill the bytes from `start` up to `stop`. -/
def Tiles (addr len : κ → Nat) : List κ → Nat → Nat → Prop
  | [], start, stop => start = stop
  | region :: regions, start, stop =>
    addr region = start ∧ Tiles addr len regions (start + len region) stop

/-- The byte `p` lies in the region. -/
def Holds (addr len : κ → Nat) (region : κ) (p : Nat) : Prop :=
  addr region ≤ p ∧ p < addr region + len region

variable {addr len : κ → Nat} {regions : List κ} {start stop p : Nat}

theorem Tiles.le (tiles : Tiles addr len regions start stop) : start ≤ stop := by
  induction regions generalizing start with
  | nil => exact Nat.le_of_eq tiles
  | cons region regions ih => exact Nat.le_trans (Nat.le_add_right _ _) (ih tiles.2)

/-- Every byte of the range is in a region, and no other byte. -/
theorem Tiles.covers (tiles : Tiles addr len regions start stop) :
    (∃ region ∈ regions, Holds addr len region p) ↔ start ≤ p ∧ p < stop := by
  induction regions generalizing start with
  | nil =>
    have : start = stop := tiles
    simp only [List.not_mem_nil, false_and, exists_false, false_iff]
    omega
  | cons region regions ih =>
    obtain ⟨first, rest⟩ := tiles
    have le := rest.le
    simp only [List.mem_cons, exists_eq_or_imp, ih rest]
    rw [Holds, first]
    omega

/-- A byte is in one region only. -/
theorem Tiles.disjoint (tiles : Tiles addr len regions start stop) {r r' : κ} (member : r ∈ regions)
    (member' : r' ∈ regions) (holds : Holds addr len r p) (holds' : Holds addr len r' p) : r = r' := by
  induction regions generalizing start with
  | nil => cases member
  | cons region regions ih =>
    obtain ⟨first, rest⟩ := tiles
    -- a byte of a later region lies behind the first
    have later : ∀ s ∈ regions, Holds addr len s p → start + len region ≤ p :=
      fun s member holds => (rest.covers.mp ⟨s, member, holds⟩).1
    rcases List.mem_cons.mp member with rfl | behind <;> rcases List.mem_cons.mp member' with rfl | behind'
    · rfl
    · have := later r' behind' holds'
      have := holds.2
      omega
    · have := later r behind holds
      have := holds'.2
      omega
    · exact ih rest behind behind'

end Tiling
