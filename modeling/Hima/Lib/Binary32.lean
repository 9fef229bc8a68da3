import Mathlib.Tactic.Linarith
import Mathlib.Tactic.Positivity
import Mathlib.Tactic.Ring

/-!
# Single precision numbers as rationals

A finite number is a whole multiple of 2^-149, the least positive one. Without their sign the bits
count the numbers in order, so what is known about a value says where its bits are.
-/
namespace Hima.Binary32

/-! ### Magnitudes -/

/-- The magnitude with the bits `m`, in multiples of 2^-149. -/
def units (m : Nat) : Nat :=
  if m / 2 ^ 23 = 0 then m else (2 ^ 23 + m % 2 ^ 23) * 2 ^ (m / 2 ^ 23 - 1)

/-- The next number of the same exponent, or the first of the next one. -/
theorem units_lt_succ (m : Nat) : units m < units (m + 1) := by
  by_cases carry : m % 2 ^ 23 = 2 ^ 23 - 1
  · have quotient : (m + 1) / 2 ^ 23 = m / 2 ^ 23 + 1 := by omega
    have remainder : (m + 1) % 2 ^ 23 = 0 := by omega
    rw [units, units, quotient, remainder, if_neg (Nat.succ_ne_zero _), Nat.add_sub_cancel, carry]
    split
    next zero =>
      rw [zero]
      omega
    next some_exponent =>
      obtain ⟨e, exponent⟩ := Nat.exists_eq_succ_of_ne_zero some_exponent
      rw [exponent, Nat.succ_sub_one, Nat.succ_eq_add_one, Nat.pow_succ]
      have positive : 0 < 2 ^ e := Nat.two_pow_pos e
      omega
  · have quotient : (m + 1) / 2 ^ 23 = m / 2 ^ 23 := by omega
    have remainder : (m + 1) % 2 ^ 23 = m % 2 ^ 23 + 1 := by omega
    rw [units, units, quotient, remainder]
    split
    · exact Nat.lt_succ_self m
    · exact Nat.mul_lt_mul_of_pos_right (Nat.lt_succ_self _) (Nat.two_pow_pos _)

theorem units_strictMono : StrictMono units := strictMono_nat_of_lt_succ units_lt_succ

@[simp] theorem units_zero : units 0 = 0 := rfl

theorem units_one : units 0x3F800000 = 2 ^ 149 := by decide

/-- The bits of 2^127. -/
theorem units_top : units 0x7F000000 = 2 ^ 127 * 2 ^ 149 := by decide

/-- The bits of twice a magnitude, infinite from 2^127 on. -/
def twice (m : Nat) : Nat :=
  if m < 2 ^ 23 then 2 * m
  else if m < 0x7F000000 then m + 2 ^ 23
  else if m < 0x7F800000 then 0x7F800000
  else m

theorem units_twice {m : Nat} (small : m < 0x7F000000) : units (twice m) = 2 * units m := by
  rw [twice]
  by_cases subnormal : m < 2 ^ 23
  · -- below the least normal number the carry makes the exponent
    rw [if_pos subnormal, units, units, Nat.div_eq_of_lt subnormal, if_pos rfl]
    by_cases stays : 2 * m < 2 ^ 23
    · rw [Nat.div_eq_of_lt stays, if_pos rfl]
    · have quotient : 2 * m / 2 ^ 23 = 1 := by omega
      rw [quotient, if_neg Nat.one_ne_zero]
      omega
  · have quotient : (m + 2 ^ 23) / 2 ^ 23 = m / 2 ^ 23 + 1 := by omega
    have remainder : (m + 2 ^ 23) % 2 ^ 23 = m % 2 ^ 23 := by omega
    have some_exponent : m / 2 ^ 23 ≠ 0 := by omega
    rw [if_neg subnormal, if_pos small, units, units, quotient, remainder, if_neg (Nat.succ_ne_zero _),
      if_neg some_exponent, Nat.add_sub_cancel]
    obtain ⟨e, exponent⟩ := Nat.exists_eq_succ_of_ne_zero some_exponent
    rw [exponent, Nat.succ_sub_one, Nat.succ_eq_add_one, Nat.pow_succ]
    ring

theorem twice_lt {m : Nat} (inside : m < 2 ^ 31) : twice m < 2 ^ 31 := by
  rw [twice]
  split
  · omega
  · split
    · omega
    · split <;> omega

/-! ### Numbers -/

/-- The bits without the sign. -/
def magnitude (b : BitVec 32) : Nat := b.toNat % 2 ^ 31

/-- Neither infinite nor no number. -/
def Finite (b : BitVec 32) : Prop := magnitude b < 0x7F800000

instance : DecidablePred Finite := fun b => inferInstanceAs (Decidable (magnitude b < 0x7F800000))

/-- The value of a finite number. -/
def value (b : BitVec 32) : ℚ :=
  if 2 ^ 31 ≤ b.toNat then -(units (magnitude b) / 2 ^ 149) else units (magnitude b) / 2 ^ 149

theorem magnitude_lt (b : BitVec 32) : magnitude b < 2 ^ 31 := Nat.mod_lt _ (Nat.two_pow_pos 31)

theorem abs_value (b : BitVec 32) : |value b| = units (magnitude b) / 2 ^ 149 := by
  have nonneg : (0 : ℚ) ≤ units (magnitude b) / 2 ^ 149 := by positivity
  rw [value]
  split
  · rw [abs_neg, abs_of_nonneg nonneg]
  · exact abs_of_nonneg nonneg

/-- Only the two zeroes have no bits beside the sign. -/
theorem value_eq_zero_iff (b : BitVec 32) : value b = 0 ↔ magnitude b = 0 := by
  rw [← abs_eq_zero, abs_value, div_eq_zero_iff, or_iff_left (by positivity), Nat.cast_eq_zero]
  exact units_strictMono.injective.eq_iff' units_zero

/-- A magnitude below a power of two, by its units. -/
theorem abs_value_lt_iff (b : BitVec 32) (n : Nat) :
    |value b| < 2 ^ n ↔ units (magnitude b) < 2 ^ n * 2 ^ 149 := by
  rw [abs_value, div_lt_iff₀ (by positivity)]
  exact_mod_cast Iff.rfl

/-- From 1 on the bits are those of 1 or above. -/
theorem magnitude_ge_one {b : BitVec 32} (one_le : 1 ≤ value b) :
    b.toNat < 2 ^ 31 ∧ 0x3F800000 ≤ magnitude b := by
  have size : (2 : ℚ) ^ 149 ≤ units (magnitude b) := by
    have le := le_trans one_le (le_abs_self _)
    rwa [abs_value, one_le_div (by positivity)] at le
  constructor
  · by_contra negative
    rw [value, if_pos (Nat.le_of_not_lt negative)] at one_le
    have : (0 : ℚ) ≤ units (magnitude b) / 2 ^ 149 := by positivity
    linarith
  · have whole : 2 ^ 149 ≤ units (magnitude b) := by exact_mod_cast size
    exact units_strictMono.le_iff_le.mp whole

theorem value_eq_one_iff (b : BitVec 32) : value b = 1 ↔ b = 0x3F800000 := by
  constructor
  · intro one
    obtain ⟨positive, -⟩ := magnitude_ge_one (le_of_eq one.symm)
    rw [value, if_neg (Nat.not_le_of_lt positive), div_eq_one_iff_eq (by positivity)] at one
    have same : units (magnitude b) = units 0x3F800000 := by
      exact_mod_cast one
    have bits := units_strictMono.injective same
    rw [magnitude, Nat.mod_eq_of_lt positive] at bits
    exact BitVec.eq_of_toNat_eq bits
  · rintro rfl
    rw [value, if_neg (by decide), show magnitude 0x3F800000 = 0x3F800000 from rfl, units_one]
    norm_num

/-! ### Multiplication by a power of two -/

/-- `2 * b`; it is exact below 2^127. -/
def double (b : BitVec 32) : BitVec 32 :=
  BitVec.ofNat 32 (b.toNat / 2 ^ 31 * 2 ^ 31 + twice (magnitude b))

/-- `2^k * b` -/
def scale (k : Nat) (b : BitVec 32) : BitVec 32 := double^[k] b

theorem toNat_double (b : BitVec 32) :
    (double b).toNat = b.toNat / 2 ^ 31 * 2 ^ 31 + twice (magnitude b) := by
  have inside := twice_lt (magnitude_lt b)
  rw [double, BitVec.toNat_ofNat, Nat.mod_eq_of_lt (by omega)]

theorem magnitude_double (b : BitVec 32) : magnitude (double b) = twice (magnitude b) := by
  have inside := twice_lt (magnitude_lt b)
  rw [magnitude, toNat_double]
  omega

theorem sign_double (b : BitVec 32) : 2 ^ 31 ≤ (double b).toNat ↔ 2 ^ 31 ≤ b.toNat := by
  have inside := twice_lt (magnitude_lt b)
  rw [toNat_double]
  omega

theorem value_double {b : BitVec 32} (small : |value b| < 2 ^ 127) : value (double b) = 2 * value b := by
  have below : magnitude b < 0x7F000000 := by
    have bound := (abs_value_lt_iff b 127).mp small
    exact units_strictMono.lt_iff_lt.mp (lt_of_lt_of_eq bound units_top.symm)
  rw [value, value, magnitude_double, units_twice below, Nat.cast_mul, Nat.cast_ofNat, mul_div_assoc]
  by_cases negative : 2 ^ 31 ≤ b.toNat
  · rw [if_pos negative, if_pos ((sign_double b).mpr negative), mul_neg]
  · rw [if_neg negative, if_neg (mt (sign_double b).mp negative)]

/-- A product below 2^127 is exact. -/
theorem value_scale {k n : Nat} (room : n + k ≤ 127) :
    ∀ {b : BitVec 32}, |value b| < 2 ^ n → value (scale k b) = 2 ^ k * value b := by
  induction k generalizing n with
  | zero =>
    intro b _
    rw [pow_zero, one_mul, scale, Function.iterate_zero, id]
  | succ k ih =>
    intro b small
    have fits : |value b| < 2 ^ 127 :=
      lt_of_lt_of_le small (pow_le_pow_right₀ (by norm_num) (by omega))
    have doubled := value_double fits
    have next : |value (double b)| < 2 ^ (n + 1) := by
      rw [doubled, abs_mul, pow_succ, mul_comm, abs_two]
      exact mul_lt_mul_of_pos_right small two_pos
    rw [scale, Function.iterate_succ_apply, ← scale, ih (by omega) next, doubled, pow_succ, mul_assoc]

end Hima.Binary32
