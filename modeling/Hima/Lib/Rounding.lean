import Mathlib.Data.Int.ConditionallyCompleteOrder
import Mathlib.Data.Rat.Floor

/-!
# Rounded coordinates

A coordinate is computed as a fraction, rounded to an integer, converted to 32 bits and kept in an array.
None of these steps changes the order, and none goes further from a place in the array than the rounding
does.
-/
namespace Hima.Rounding

/-- The nearest integer, halves away from zero. -/
def halfAway (q : ℚ) : Int := if q < 0 then -⌊-q + 1 / 2⌋ else ⌊q + 1 / 2⌋

def clamp (lo hi n : Int) : Int := min hi (max lo n)

/-- Conversion to 32 bits, which saturates. -/
def toInt32 (n : Int) : Int := clamp (-2 ^ 31) (2 ^ 31 - 1) n

/-- The place in `[0, hi]` that a coordinate is given. -/
def place (hi : Int) (q : ℚ) : Int := clamp 0 hi (toInt32 (halfAway q))

variable {lo hi : Int} {q r : ℚ}

theorem abs_halfAway_sub_le (q : ℚ) : |(halfAway q : ℚ) - q| ≤ 1 / 2 := by
  rw [halfAway, abs_le]
  split
  · have low := Int.floor_le (-q + 1 / 2)
    have high := Int.lt_floor_add_one (-q + 1 / 2)
    push_cast
    constructor <;> linarith
  · have low := Int.floor_le (q + 1 / 2)
    have high := Int.lt_floor_add_one (q + 1 / 2)
    constructor <;> linarith

theorem halfAway_mono : Monotone halfAway := by
  intro q r le
  rw [halfAway, halfAway]
  split
  · split
    · have floors : ⌊-r + 1 / 2⌋ ≤ ⌊-q + 1 / 2⌋ := Int.floor_le_floor (by linarith)
      omega
    · -- only the smaller one is below zero
      have below : 0 ≤ ⌊-q + 1 / 2⌋ := Int.floor_nonneg.mpr (by linarith)
      have above : 0 ≤ ⌊r + 1 / 2⌋ := Int.floor_nonneg.mpr (by linarith)
      omega
  · rw [if_neg (by linarith)]
    exact Int.floor_le_floor (by linarith)

theorem clamp_mono (lo hi : Int) : Monotone (clamp lo hi) := by
  intro n m le
  rw [clamp, clamp]
  omega

theorem clamp_mem (le : lo ≤ hi) (n : Int) : lo ≤ clamp lo hi n ∧ clamp lo hi n ≤ hi := by
  rw [clamp]
  omega

/-- What is clamped comes nearer to every number between the bounds. -/
theorem abs_clamp_sub_le (low : lo ≤ q) (high : q ≤ hi) (n : Int) : |(clamp lo hi n : ℚ) - q| ≤ |n - q| := by
  rw [clamp]
  push_cast
  rcases le_total (n : ℚ) lo with below | above
  · rw [max_eq_left below, min_eq_right (low.trans high), abs_of_nonpos (by linarith), abs_of_nonpos (by linarith)]
    linarith
  · rw [max_eq_right above]
    rcases le_total (n : ℚ) hi with inside | outside
    · rw [min_eq_right inside]
    · rw [min_eq_left outside, abs_of_nonneg (by linarith), abs_of_nonneg (by linarith)]
      linarith

theorem place_mono (hi : Int) : Monotone (place hi) :=
  (clamp_mono 0 hi).comp ((clamp_mono _ _).comp halfAway_mono)

theorem place_mem (le : 0 ≤ hi) (q : ℚ) : 0 ≤ place hi q ∧ place hi q ≤ hi := clamp_mem le _

/-- Seen from the array, the place is at most the rounding further away. -/
theorem abs_place_sub_le (small : hi < 2 ^ 31) (low : 0 ≤ r) (high : r ≤ hi) (q : ℚ) :
    |(place hi q : ℚ) - r| ≤ |q - r| + 1 / 2 := by
  have int32 : r ≤ ((2 ^ 31 - 1 : Int) : ℚ) := high.trans (Int.cast_le.mpr (by omega))
  have negative : ((-2 ^ 31 : Int) : ℚ) ≤ r := by
    push_cast
    linarith
  calc |(place hi q : ℚ) - r| ≤ |(toInt32 (halfAway q) : ℚ) - r| :=
        abs_clamp_sub_le (by exact_mod_cast low) high _
    _ ≤ |(halfAway q : ℚ) - r| := abs_clamp_sub_le negative int32 _
    _ ≤ |(halfAway q : ℚ) - q| + |q - r| := abs_sub_le _ _ _
    _ ≤ |q - r| + 1 / 2 := by linarith [abs_halfAway_sub_le q]

end Hima.Rounding
