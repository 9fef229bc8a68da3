import Hima.Amplifier.ModeData
import Hima.Amplifier.Words
import Hima.Lib.Binary32

/-!
# The calibration impedance

Writing the impedance scales it to a fixed point number, but what goes to the DSP are the bits of the
float and not its value. Reading it converts three bytes with their sign to a float and scales back. The
floats are read as the rationals they stand for.
-/
namespace Hima.Amplifier

open Hima.Fallible Prog Binary32

def SPKRBST_TEMP_EXP : Nat := 9

/-- The three bytes that tfa9887_set_calibration_impedance sends: `impedance` is scaled, and its bits are
taken for the number. -/
def impedanceBytes (impedance : BitVec 32) : List Byte :=
  data2bytes [scale (23 - SPKRBST_TEMP_EXP) impedance]

/-- `re_25c` as tfa9887_get_calibration_impedance makes it of the word that it reads. -/
def re25c (word : BitVec 32) : ℚ := word.toNat / 2 ^ (23 - SPKRBST_TEMP_EXP)

variable (env : Env) (amp : Amp)

/-- tfa9887_set_calibration_impedance -/
def setCalibrationImpedanceTo (impedance : BitVec 32) : Bus Unit := do
  setData env amp MODULE_SETRE PARAM_SET_RE0 (impedanceBytes impedance)
  dspReset env amp true
  dspReset env amp false

variable {env amp}

/-- The call with 7.0f in the initialisation. -/
theorem setCalibrationImpedance_eq :
    setCalibrationImpedance env amp = setCalibrationImpedanceTo env amp 0x40E00000 := by
  have bits : impedanceBytes 0x40E00000 = data2bytes [0x47E00000] := by decide
  rw [setCalibrationImpedance, setCalibrationImpedanceTo, bits]

/-! ### What is sent, and what is returned -/

/-- A call that returns 0 has sent the bytes under the identifier of RE0. -/
theorem setCalibrationImpedanceTo_sends {impedance : BitVec 32} {p q : Port}
    (ran : (setCalibrationImpedanceTo env amp impedance).run p = (.ok (), q)) :
    rpcId MODULE_SETRE PARAM_SET_RE0 ++ impedanceBytes impedance ∈ q.dsp.accepted := by
  obtain ⟨_, u, sent, ran⟩ := bind_ok ran
  have accepted := (does_setData _ _ (impedanceBytes impedance) p.dsp.accepted).ok rfl sent
  -- the resets take back no message
  have later := (up_of_run ran).2
  exact later.subset (by simp [accepted.1])

/-- A call that returns 0 returns the word of the bytes that the DSP gave for RE0. -/
theorem getCalibrationImpedance_reads {word : BitVec 32} {p q : Port}
    (ran : (getCalibrationImpedance env amp).run p = (.ok word, q)) :
    ∃ u bytes, (getData env amp MODULE_SPEAKERBOOST PARAM_GET_RE0 3).run u = (.ok bytes, q) ∧
      word = (bytes2data bytes).getD 0 0 := by
  obtain ⟨mem, u, -, ran⟩ := bind_ok ran
  split at ran
  · cases ran
  · obtain ⟨bytes, v, got, ran⟩ := bind_ok ran
    cases ran
    exact ⟨u, bytes, got, rfl⟩

/-! ### The round trip -/

theorem word_impedanceBytes (impedance : BitVec 32) :
    (bytes2data (impedanceBytes impedance)).getD 0 0 = readBack (scale (23 - SPKRBST_TEMP_EXP) impedance) := by
  rw [impedanceBytes, bytes2data_data2bytes, List.map_singleton, List.getD_cons_zero]

/-- The bits of a zero have nothing but a sign, and are sent as zero. -/
theorem readBack_of_zero {d : BitVec 32} (zero : value d = 0) : readBack d = 0 := by
  have bits := (value_eq_zero_iff d).mp zero
  rw [magnitude] at bits
  have bound := d.isLt
  have either : d = 0 ∨ d = BitVec.intMin 32 := by
    rcases (by omega : d.toNat = 0 ∨ d.toNat = 2 ^ 31) with none | sign
    · exact .inl (BitVec.eq_of_toNat_eq none)
    · exact .inr (BitVec.eq_of_toNat_eq sign)
  rcases either with rfl | rfl
  · decide
  · exact readBack_lowest

/-- The bits of every number from 1 on are too large for a word, and are cut to the largest one. -/
theorem readBack_of_one_le {d : BitVec 32} (one_le : 1 ≤ value d) : readBack d = 2 ^ 23 - 1 := by
  obtain ⟨positive, large⟩ := magnitude_ge_one one_le
  rw [magnitude, Nat.mod_eq_of_lt positive] at large
  have int : d.toInt = d.toNat := BitVec.toInt_eq_toNat_of_lt (by omega)
  have usual : d ≠ BitVec.intMin 32 := by
    rintro rfl
    exact absurd positive (by decide)
  have cut := toInt_readBack usual
  have top : (2 ^ 23 - 1 : BitVec 32).toInt = 2 ^ 23 - 1 := by decide
  apply BitVec.eq_of_toInt_eq
  rw [cut, top, saturate, int]
  omega

/-- Only zero and the largest impedance of all come back. -/
theorem impedance_round_trip_iff (impedance : BitVec 32) (multiple : ∃ n : ℕ, value impedance = n / 2 ^ 14)
    (below : value impedance < 2 ^ SPKRBST_TEMP_EXP) :
    re25c ((bytes2data (impedanceBytes impedance)).getD 0 0) = value impedance ↔
      value impedance = 0 ∨ value impedance = (2 ^ 23 - 1) / 2 ^ 14 := by
  obtain ⟨n, fraction⟩ := multiple
  have nonneg : 0 ≤ value impedance := by
    rw [fraction]
    positivity
  have scaled : value (scale (23 - SPKRBST_TEMP_EXP) impedance) = n := by
    rw [value_scale (n := SPKRBST_TEMP_EXP) (by decide) (by rwa [abs_of_nonneg nonneg]), fraction]
    exact mul_div_cancel₀ _ (by positivity)
  rw [word_impedanceBytes]
  by_cases zero : n = 0
  · rw [zero, Nat.cast_zero] at scaled
    rw [zero, Nat.cast_zero, zero_div] at fraction
    rw [readBack_of_zero scaled, fraction]
    exact iff_of_true (by simp [re25c]) (.inl rfl)
  · have one_le : 1 ≤ value (scale (23 - SPKRBST_TEMP_EXP) impedance) := by
      rw [scaled]
      exact_mod_cast Nat.one_le_iff_ne_zero.mpr zero
    have some_value : value impedance ≠ 0 := by
      rw [fraction]
      positivity
    rw [readBack_of_one_le one_le, or_iff_right some_value, eq_comm]
    have largest : (2 ^ 23 - 1 : BitVec 32).toNat = 2 ^ 23 - 1 := by decide
    have cut : re25c (2 ^ 23 - 1) = (2 ^ 23 - 1) / 2 ^ 14 := by
      rw [re25c, largest]
      norm_num [SPKRBST_TEMP_EXP]
    rw [cut]

/-- The theorem at the largest impedance, which is a little below 512. -/
theorem impedance_round_trip_largest :
    re25c ((bytes2data (impedanceBytes 0x43FFFFFE)).getD 0 0) = value 0x43FFFFFE := by
  have bits : value 0x43FFFFFE = (2 ^ 23 - 1) / 2 ^ 14 := by
    rw [value, if_neg (by decide), show units (magnitude 0x43FFFFFE) = (2 ^ 24 - 2) * 2 ^ 134 by decide]
    norm_num
  refine (impedance_round_trip_iff 0x43FFFFFE ⟨2 ^ 23 - 1, ?_⟩ ?_).mpr (.inr bits)
  · rw [bits]
    norm_num
  · rw [bits]
    norm_num [SPKRBST_TEMP_EXP]

/-- The impedance 7 comes back as the largest one. -/
theorem impedance_seven_lost :
    ¬ ∀ impedance : BitVec 32, (∃ n : ℕ, value impedance = n / 2 ^ 14) →
      value impedance < 2 ^ SPKRBST_TEMP_EXP →
      re25c ((bytes2data (impedanceBytes impedance)).getD 0 0) = value impedance := by
  intro all
  have seven : value 0x40E00000 = 7 := by
    rw [value, if_neg (by decide), show units (magnitude 0x40E00000) = 7 * 2 ^ 149 by decide]
    norm_num
  have trip := all 0x40E00000 ⟨7 * 2 ^ 14, by rw [seven]; norm_num⟩ (by rw [seven]; norm_num [SPKRBST_TEMP_EXP])
  have sent : (bytes2data (impedanceBytes 0x40E00000)).getD 0 0 = 2 ^ 23 - 1 := by decide
  have largest : (2 ^ 23 - 1 : BitVec 32).toNat = 2 ^ 23 - 1 := by decide
  rw [sent, re25c, largest, seven] at trip
  norm_num [SPKRBST_TEMP_EXP] at trip

end Hima.Amplifier
