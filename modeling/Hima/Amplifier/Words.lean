import Hima.Amplifier.Transfers

/-!
# Words of the DSP

A word has 24 bits. data2bytes cuts the values of the host to the range of a word and writes three
bytes for each, bytes2data reads three bytes with their sign. Only the lowest value of the host, which
has no negative in 32 bits, is not cut but lost.
-/
namespace Hima.Amplifier

/-! ### Three bytes -/

/-- The number in three bytes, high byte first. -/
def wordBits (b0 b1 b2 : Byte) : Nat := b0.toNat * 2 ^ 16 + b1.toNat * 2 ^ 8 + b2.toNat

theorem wordBits_lt (b0 b1 b2 : Byte) : wordBits b0 b1 b2 < 2 ^ 24 := by
  rw [wordBits]
  omega

theorem toNat_joined (b0 b1 b2 : Byte) :
    (b0.setWidth 32 <<< 16 ||| b1.setWidth 32 <<< 8 ||| b2.setWidth 32 : BitVec 32).toNat =
      wordBits b0 b1 b2 := by
  have fits : ∀ b : Byte, b.toNat % 2 ^ 32 = b.toNat := fun b => Nat.mod_eq_of_lt (by omega)
  have high : b0.toNat <<< 16 % 2 ^ 32 = b0.toNat <<< 16 :=
    Nat.mod_eq_of_lt (by rw [Nat.shiftLeft_eq]; omega)
  have mid : b1.toNat <<< 8 % 2 ^ 32 = b1.toNat <<< 8 :=
    Nat.mod_eq_of_lt (by rw [Nat.shiftLeft_eq]; omega)
  simp only [BitVec.toNat_or, BitVec.toNat_shiftLeft, BitVec.toNat_setWidth, fits, high, mid]
  rw [Nat.or_assoc, ← Nat.shiftLeft_add_eq_or_of_lt (i := 8) b2.isLt,
    ← Nat.shiftLeft_add_eq_or_of_lt (i := 16) (by rw [Nat.shiftLeft_eq]; omega)]
  simp only [Nat.shiftLeft_eq, wordBits]
  omega

theorem sign_bit (b : Byte) : b &&& 0x80 ≠ 0 ↔ 2 ^ 7 ≤ b.toNat := by
  revert b
  decide

theorem toInt_bytes2word (b0 b1 b2 : Byte) :
    (bytes2word b0 b1 b2).toInt = (wordBits b0 b1 b2 : Int).bmod (2 ^ 24) := by
  have joined := toNat_joined b0 b1 b2
  have bound := wordBits_lt b0 b1 b2
  have sign : b0 &&& 0x80 ≠ 0 ↔ 2 ^ 23 ≤ wordBits b0 b1 b2 := by
    rw [sign_bit, wordBits]
    omega
  rw [bytes2word]
  by_cases negative : b0 &&& 0x80 ≠ 0
  · have low := sign.mp negative
    have modulus : (1#32 <<< 24).toNat = 2 ^ 24 := rfl
    rw [if_pos negative, BitVec.toInt_eq_toNat_bmod, BitVec.toNat_neg, BitVec.toNat_sub, joined, modulus]
    simp only [Int.bmod_def]
    omega
  · have low := mt sign.mpr negative
    rw [if_neg negative, BitVec.toInt_eq_toNat_bmod, joined]
    simp only [Int.bmod_def]
    omega

/-! ### One word -/

/-- A value cut to the range of a word. -/
def saturate (d : Int) : Int := max (-(2 ^ 23)) (min d (2 ^ 23 - 1))

theorem toInt_minSigned (a b : BitVec 32) : (minSigned a b).toInt = min a.toInt b.toInt := by
  rw [minSigned]
  simp only [BitVec.slt, decide_eq_true_eq]
  split <;> omega

theorem data2word_mod {d : BitVec 32} (usual : d ≠ BitVec.intMin 32) :
    ((data2word d).toNat : Int) % 2 ^ 24 = saturate d.toInt % 2 ^ 24 := by
  rw [data2word, BitVec.sle_eq_decide, saturate]
  by_cases sign : (0 : BitVec 32).toInt ≤ d.toInt
  · rw [if_pos (decide_eq_true sign)]
    have cut := toInt_minSigned d ((1#32 <<< 23) - 1)
    have top : ((1#32 <<< 23) - 1).toInt = 2 ^ 23 - 1 := by decide
    have zero : (0 : BitVec 32).toInt = 0 := by decide
    rw [BitVec.toInt_eq_toNat_cond] at cut
    omega
  · -- only the lowest value stays negative when its sign is turned
    rw [if_neg (by simpa using sign), BitVec.toNat_sub]
    have cut := toInt_minSigned (-d) (1#32 <<< 23)
    have top : (1#32 <<< 23).toInt = 2 ^ 23 := by decide
    have whole : (1#32 <<< 24).toNat = 2 ^ 24 := by decide
    have zero : (0 : BitVec 32).toInt = 0 := by decide
    rw [BitVec.toInt_neg_of_ne_intMin usual, BitVec.toInt_eq_toNat_cond] at cut
    omega

theorem wordBits_extract (w : BitVec 32) :
    wordBits (w.extractLsb' 16 8) (w.extractLsb' 8 8) (w.extractLsb' 0 8) = w.toNat % 2 ^ 24 := by
  simp only [wordBits, BitVec.extractLsb'_toNat, Nat.shiftRight_eq_div_pow]
  omega

theorem wordBits_inj {b0 b1 b2 c0 c1 c2 : Byte} (same : wordBits b0 b1 b2 = wordBits c0 c1 c2) :
    b0 = c0 ∧ b1 = c1 ∧ b2 = c2 := by
  simp only [wordBits] at same
  have bounds := And.intro b1.isLt (And.intro b2.isLt (And.intro c1.isLt c2.isLt))
  exact ⟨BitVec.eq_of_toNat_eq (by omega), BitVec.eq_of_toNat_eq (by omega), BitVec.eq_of_toNat_eq (by omega)⟩

/-- A value written and read back. -/
def readBack (d : BitVec 32) : BitVec 32 :=
  bytes2word ((data2word d).extractLsb' 16 8) ((data2word d).extractLsb' 8 8)
    ((data2word d).extractLsb' 0 8)

theorem toInt_readBack {d : BitVec 32} (usual : d ≠ BitVec.intMin 32) :
    (readBack d).toInt = saturate d.toInt := by
  have mod := data2word_mod usual
  rw [readBack, toInt_bytes2word, wordBits_extract]
  simp only [Int.bmod_def, saturate] at mod ⊢
  omega

/-- The lowest value comes back as zero. -/
theorem readBack_lowest : readBack (BitVec.intMin 32) = 0 := by decide

theorem toInt_readBack_iff (d : BitVec 32) :
    (readBack d).toInt = saturate d.toInt ↔ d ≠ BitVec.intMin 32 := by
  refine ⟨?_, toInt_readBack⟩
  rintro cut rfl
  exact absurd cut (by decide)

theorem data2word_bytes2word (b0 b1 b2 : Byte) :
    (data2word (bytes2word b0 b1 b2)).extractLsb' 16 8 = b0 ∧
      (data2word (bytes2word b0 b1 b2)).extractLsb' 8 8 = b1 ∧
      (data2word (bytes2word b0 b1 b2)).extractLsb' 0 8 = b2 := by
  have value := toInt_bytes2word b0 b1 b2
  have bound := wordBits_lt b0 b1 b2
  -- a word of 24 bits is far from the lowest value of 32
  have usual : bytes2word b0 b1 b2 ≠ BitVec.intMin 32 := by
    intro lowest
    rw [lowest, Int.bmod_def] at value
    have low : (BitVec.intMin 32).toInt = -(2 ^ 31) := by decide
    omega
  have mod := data2word_mod usual
  apply wordBits_inj
  rw [wordBits_extract]
  rw [value, Int.bmod_def, saturate] at mod
  omega

/-! ### Lists -/

theorem length_data2bytes (data : List (BitVec 32)) : (data2bytes data).length = 3 * data.length := by
  rw [data2bytes, List.length_flatMap]
  simp [Nat.mul_comm]

theorem bytes2data_data2bytes (data : List (BitVec 32)) :
    bytes2data (data2bytes data) = data.map readBack := by
  induction data with
  | nil => rfl
  | cons d data ih =>
    rw [List.map_cons, ← ih]
    rfl

theorem data2bytes_bytes2data {bytes : List Byte} (whole : 3 ∣ bytes.length) :
    data2bytes (bytes2data bytes) = bytes := by
  induction bytes using bytes2data.induct with
  | case1 b0 b1 b2 rest ih =>
    obtain ⟨high, mid, low⟩ := data2word_bytes2word b0 b1 b2
    have back := ih ((Nat.dvd_add_left (Nat.dvd_refl 3)).mp whole)
    rw [data2bytes] at back ⊢
    rw [bytes2data, List.flatMap_cons, back, high, mid, low]
    rfl
  | case2 bytes short =>
    match bytes with
    | [] => rfl
    | [_] => exact absurd whole (by simp)
    | [_, _] => exact absurd whole (by simp)
    | b0 :: b1 :: b2 :: rest => exact absurd rfl (short b0 b1 b2 rest)

/-- Three bytes a value, which are read back as the value that was cut, unless it is the lowest one; and
bytes of whole words are written back as they were read. -/
theorem words_round_trip_iff (data : List (BitVec 32)) {bytes : List Byte} (whole : 3 ∣ bytes.length) :
    ((data2bytes data).length = 3 * data.length ∧
        (bytes2data (data2bytes data)).map BitVec.toInt = data.map (fun d => saturate d.toInt) ∧
        data2bytes (bytes2data bytes) = bytes) ↔ BitVec.intMin 32 ∉ data := by
  rw [bytes2data_data2bytes, List.map_map, List.map_inj_left]
  simp only [length_data2bytes, data2bytes_bytes2data whole, true_and, and_true, Function.comp_apply,
    toInt_readBack_iff]
  constructor
  · intro usual member
    exact usual _ member rfl
  · rintro absent d member rfl
    exact absent member

theorem words_round_trip_iff_sample :
    (bytes2data (data2bytes [0x7fffffff])).map BitVec.toInt = [8388607] ∧
      data2bytes (bytes2data [0x80, 0, 1]) = [0x80, 0, 1] :=
  ((@words_round_trip_iff [0x7fffffff] [0x80, 0, 1] (by decide)).mpr (by decide)).2

/-- The lowest value is written as zero. -/
theorem lowest_not_saturated :
    ¬ ∀ data : List (BitVec 32),
      (bytes2data (data2bytes data)).map BitVec.toInt = data.map (fun d => saturate d.toInt) := by
  intro all
  have lowest := all [BitVec.intMin 32]
  exact absurd lowest (by decide)

end Hima.Amplifier
