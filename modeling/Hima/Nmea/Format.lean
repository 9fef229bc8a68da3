import Mathlib.Data.BitVec
import Hima.Lib.CText

/-!
# Formatted numbers

The conversions of `snprintf` that the sentences use, and how long their results can get.
-/
namespace Hima.Nmea

open CText

/-- `char` -/
abbrev Byte := BitVec 8

def ascii (text : List Char) : List Byte := text.map fun c => BitVec.ofNat 8 c.toNat

/-- `%0*d`, where a `width` of 0 is that of `%d`. -/
def decimal (width : Nat) (n : Int) : List Char :=
  let sign := if n < 0 then ['-'] else []
  let digits := Nat.toDigits 10 n.natAbs
  sign ++ List.replicate (width - sign.length - digits.length) '0' ++ digits

/-! ### Characters -/

/-- A character that is one byte, and not the end of a string. -/
def OneByte (c : Char) : Prop := 0 < c.toNat ∧ c.toNat < 256

instance : DecidablePred OneByte := fun c => inferInstanceAs (Decidable (0 < c.toNat ∧ c.toNat < 256))

@[simp] theorem length_ascii (text : List Char) : (ascii text).length = text.length := List.length_map _

theorem plain_ascii {text : List Char} (bytes : ∀ c ∈ text, OneByte c) : Plain (ascii text) := by
  intro b member
  obtain ⟨c, there, rfl⟩ := List.mem_map.mp member
  obtain ⟨some_bit, small⟩ := bytes c there
  intro zero
  have value := congrArg BitVec.toNat zero
  rw [BitVec.toNat_ofNat, Nat.mod_eq_of_lt small] at value
  exact absurd value (Nat.ne_of_gt some_bit)

theorem oneByte_decimal (width : Nat) (n : Int) : ∀ c ∈ decimal width n, OneByte c := by
  intro c member
  rw [decimal] at member
  simp only [List.mem_append, List.mem_replicate] at member
  rcases member with (sign | ⟨-, rfl⟩) | digit
  · split at sign
    · rw [List.mem_singleton.mp sign]
      decide
    · cases sign
  · decide
  · have isDigit := Nat.isDigit_of_mem_toDigits (by decide) (by decide) digit
    rw [Char.isDigit, Bool.and_eq_true, decide_eq_true_eq, decide_eq_true_eq] at isDigit
    exact ⟨Nat.lt_of_lt_of_le (by decide) isDigit.1, Nat.lt_of_le_of_lt isDigit.2 (by decide)⟩

/-! ### Lengths -/

theorem length_decimal_eq (width : Nat) (n : Int) :
    (decimal width n).length = max width ((if n < 0 then 1 else 0) + (Nat.toDigits 10 n.natAbs).length) := by
  rw [decimal]
  split <;> simp <;> omega

theorem length_digits_le {n k : Nat} (some_digit : 0 < k) (small : n < 10 ^ k) :
    (Nat.toDigits 10 n).length ≤ k :=
  (Nat.length_toDigits_le_iff (by decide) some_digit).mpr small

/-- A number of 32 bits takes at most ten digits and its sign. -/
theorem length_decimal_le {width : Nat} (narrow : width ≤ 11) (n : BitVec 32) :
    (decimal width n.toInt).length ≤ 11 := by
  have low := BitVec.le_toInt n
  have high := BitVec.toInt_lt (x := n)
  have digits : (Nat.toDigits 10 n.toInt.natAbs).length ≤ 10 := length_digits_le (by decide) (by omega)
  rw [length_decimal_eq]
  split <;> omega

/-- A number of at most `width` digits fills just its width. -/
theorem length_decimal {width : Nat} {n : Int} (some_digit : 0 < width) (nonneg : 0 ≤ n)
    (small : n.natAbs < 10 ^ width) : (decimal width n).length = width := by
  have digits := length_digits_le some_digit small
  rw [length_decimal_eq, if_neg (Int.not_lt.mpr nonneg)]
  omega

theorem length_decimal_natCast {n k : Nat} (some_digit : 0 < k) (small : n < 10 ^ k) {width : Nat}
    (narrow : width ≤ k) : (decimal width n).length ≤ k := by
  have digits := length_digits_le some_digit small
  rw [length_decimal_eq, if_neg (Int.not_lt.mpr (Int.natCast_nonneg n)), Int.natAbs_natCast]
  omega

/-!
## The frame of an NMEA sentence

loc_eng_nmea_put_checksum puts the checksum and the end of the line behind a sentence. The length that it
returns is that of the sentence as it should be, also where there is no room for it.
-/
/-- A digit of `%X`. -/
def hexDigit (n : Nat) : Byte := BitVec.ofNat 8 (if n < 10 then 48 + n else 55 + n)

/-- `"*%02X\r\n"` -/
def trailer (checksum : Byte) : List Byte :=
  [0x2A, hexDigit (checksum.toNat / 16), hexDigit (checksum.toNat % 16), 0x0D, 0x0A]

/-- The exclusive or of characters. -/
def xorAll (text : List Byte) : Byte := text.foldl (· ^^^ ·) 0

/-- loc_eng_nmea_put_checksum: the buffer and the length returned. -/
def putChecksum (pNmea : List Byte) (maxSize : Nat) : List Byte × Nat :=
  -- the sentence without the `$`
  let body := cstr pNmea.tail
  let checksum := trailer (xorAll body)
  (store pNmea (body.length + 1) (maxSize - body.length - 1) checksum,
    body.length + checksum.length + 1)

/-! ### The digits -/

/-- A digit of a hexadecimal number, in upper case. -/
def UpperHex (c : Byte) : Prop := 0x30 ≤ c ∧ c ≤ 0x39 ∨ 0x41 ≤ c ∧ c ≤ 0x46

instance : DecidablePred UpperHex := fun c =>
  inferInstanceAs (Decidable (0x30 ≤ c ∧ c ≤ 0x39 ∨ 0x41 ≤ c ∧ c ≤ 0x46))

def hexValue (c : Byte) : Nat := if c ≤ 0x39 then c.toNat - 48 else c.toNat - 55

theorem hexDigit_spec {n : Nat} (digit : n < 16) : UpperHex (hexDigit n) ∧ hexValue (hexDigit n) = n := by
  have each : ∀ i : Fin 16, UpperHex (hexDigit i) ∧ hexValue (hexDigit i) = i := by decide
  exact each ⟨n, digit⟩

theorem UpperHex.ne_zero {c : Byte} (digit : UpperHex c) : c ≠ 0 := by
  rintro rfl
  exact absurd digit (by decide)

theorem plain_trailer (checksum : Byte) : Plain (trailer checksum) := by
  have high := (hexDigit_spec (n := checksum.toNat / 16) (by omega)).1.ne_zero
  have low := (hexDigit_spec (n := checksum.toNat % 16) (by omega)).1.ne_zero
  simpa [Plain, trailer] using And.intro high low

/-! ### The buffer -/

variable {buffer body : List Byte} {maxSize : Nat}

/-- The trailer is put behind the sentence, as far as there is room. -/
theorem holds_putChecksum {c : Byte} (holds : Holds buffer (c :: body)) (size : buffer.length = maxSize) :
    Holds (putChecksum buffer maxSize).1
        (c :: body ++ (trailer (xorAll body)).take (maxSize - body.length - 2)) ∧
      (putChecksum buffer maxSize).1.length = maxSize ∧ (putChecksum buffer maxSize).2 = body.length + 6 := by
  have room : body.length + 1 < maxSize := size ▸ holds.length_lt
  obtain ⟨rest, split⟩ := holds.ends
  have inner : Holds buffer.tail body := by
    refine ⟨fun a member => holds.plain a (List.mem_cons_of_mem c member), rest, ?_⟩
    rw [split]
    rfl
  rw [putChecksum, inner.cstr]
  exact ⟨holds.store (by omega) (plain_trailer _), (length_store (by omega)).trans size, rfl⟩

/-- The buffer holds the sentence, its checksum and the end of the line, of which the length was returned;
where they do not fit the length is no more than there is. -/
structure Framed (maxSize : Nat) (text after : List Byte) (length : Nat) : Prop where
  inside : after.length = maxSize
  whole : text.length + 6 ≤ maxSize → ∃ hi lo,
    cstr after = text ++ [0x2A, hi, lo, 0x0D, 0x0A] ∧ UpperHex hi ∧ UpperHex lo ∧
      hexValue hi * 16 + hexValue lo = (xorAll text.tail).toNat ∧ length = (cstr after).length
  cut : ¬ text.length + 6 ≤ maxSize → length ≤ (cstr after).length

/-- The frame is right exactly where it fits. -/
theorem putChecksum_framed_iff (size : buffer.length = maxSize) (holds : Holds buffer (0x24 :: body)) :
    Framed maxSize (0x24 :: body) (putChecksum buffer maxSize).1 (putChecksum buffer maxSize).2 ↔
      (0x24 :: body : List Byte).length + 6 ≤ maxSize := by
  obtain ⟨after, inside, length⟩ := holds_putChecksum holds size
  have room : body.length + 1 < maxSize := size ▸ holds.length_lt
  have now := after.cstr
  rw [List.length_cons]
  constructor
  · intro framed
    by_contra short
    have cut := framed.cut short
    rw [length, now, List.length_append, List.length_take, List.length_cons] at cut
    omega
  · intro fits
    refine ⟨inside, fun _ => ?_, fun short => absurd fits short⟩
    have high := hexDigit_spec (n := (xorAll body).toNat / 16) (by omega)
    have low := hexDigit_spec (n := (xorAll body).toNat % 16) (by omega)
    have all : (trailer (xorAll body)).take (maxSize - body.length - 2) = trailer (xorAll body) :=
      List.take_of_length_le (by simp only [trailer, List.length_cons, List.length_nil]; omega)
    rw [all] at now
    refine ⟨_, _, now, high.1, low.1, ?_, ?_⟩
    · rw [high.2, low.2]
      exact Nat.div_add_mod' _ 16
    · rw [length, now, List.length_append]
      simp only [trailer, List.length_cons, List.length_nil]

theorem putChecksum_framed :
    Framed 8 [0x24, 0x41] (putChecksum [0x24, 0x41, 0, 0, 0, 0, 0, 0] 8).1
      (putChecksum [0x24, 0x41, 0, 0, 0, 0, 0, 0] 8).2 := by
  have holds : Holds ([0x24, 0x41, 0, 0, 0, 0, 0, 0] : List Byte) [0x24, 0x41] :=
    ⟨show ∀ a ∈ [0x24, 0x41], a ≠ (0 : Byte) by decide, _, rfl⟩
  exact (putChecksum_framed_iff rfl holds).mpr (by decide)

/-- With room for four of the five characters, seven are returned for a string of six. -/
theorem putChecksum_exceeds :
    ¬ ∀ (maxSize : Nat) (buffer body : List Byte), buffer.length = maxSize → Holds buffer (0x24 :: body) →
      Framed maxSize (0x24 :: body) (putChecksum buffer maxSize).1 (putChecksum buffer maxSize).2 := by
  intro all
  have framed := all 7 [0x24, 0x41, 0, 0, 0, 0, 0] [0x41] rfl
    ⟨show ∀ a ∈ [0x24, 0x41], a ≠ (0 : Byte) by decide, _, rfl⟩
  exact absurd (framed.cut (by decide)) (by decide)

end Hima.Nmea
