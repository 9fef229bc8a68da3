import Mathlib.Data.Int.ModEq
import Hima.Ipanat.Table
import Hima.Lib.OnesComplement

/-!
# Checksum deltas

The two checksum functions of the driver are one's complement sums of 16-bit words: those of the
public side and the complements of those of the private side.
-/
namespace Hima.Ipanat

open OnesComplement

/-- The two 16-bit words of an address. -/
def halves (ipAddr : UInt32) : List UInt16 := [ipAddr.toUInt16, (ipAddr >>> 16).toUInt16]

/-- The end-around-carry sum of 16-bit words, as the checksum of a header takes it. -/
def cksumOf (words : List UInt16) : Nat := sum 65536 (words.map UInt16.toNat)

/-! ### The functions as sums -/

theorem foldCarry_toNat (cksum : UInt32) : (foldCarry cksum).toNat = fold 65536 cksum.toNat := by
  have high : (cksum >>> 16).toNat = cksum.toNat / 65536 := by
    simp [Nat.shiftRight_eq_div_pow]
  have low : (cksum &&& 0x0000FFFF).toNat = cksum.toNat % 65536 := by
    exact Nat.and_two_pow_sub_one_eq_mod _ 16
  unfold foldCarry fold
  by_cases carry : cksum.toNat < 65536
  · have none : cksum >>> 16 = 0 := UInt32.toNat_inj.mp (high.trans (Nat.div_eq_of_lt carry))
    rw [if_pos none, if_pos carry]
  · have some : cksum >>> 16 ≠ 0 := by
      intro zero
      rw [zero, UInt32.toNat_zero] at high
      omega
    rw [if_neg some, if_neg carry, UInt32.toNat_add, low, UInt32.toNat_one]
    exact Nat.mod_eq_of_lt (by omega)

/-- One step of the functions: the next word is added and the carry test made. The sum stays below
2^17 before the test and a 16-bit word after it. -/
theorem step_toNat {cksum word : UInt32} (hc : cksum.toNat < 65536) (hw : word.toNat < 65536) :
    (foldCarry (cksum + word)).toNat = add 65536 cksum.toNat word.toNat ∧
      (foldCarry (cksum + word)).toNat < 65536 := by
  have sums : (cksum + word).toNat = cksum.toNat + word.toNat := by
    rw [UInt32.toNat_add]
    exact Nat.mod_eq_of_lt (by omega)
  rw [foldCarry_toNat, sums]
  exact ⟨rfl, add_lt hc hw⟩

theorem low_toNat (x : UInt32) : (x &&& (0xFFFF : UInt32)).toNat = x.toUInt16.toNat := by
  exact Nat.and_two_pow_sub_one_eq_mod _ 16

theorem high_toNat (x : UInt32) : (x >>> 16).toNat = (x >>> 16).toUInt16.toNat := by
  have := x.toNat_lt
  simp
  omega

theorem low_lt (x : UInt32) : (x &&& (0xFFFF : UInt32)).toNat < 65536 :=
  low_toNat x ▸ x.toUInt16.toNat_lt

theorem high_lt (x : UInt32) : (x >>> 16).toNat < 65536 :=
  high_toNat x ▸ (x >>> 16).toUInt16.toNat_lt

theorem cksumOf_cons (word : UInt16) (words : List UInt16) :
    cksumOf (word :: words) = (words.map UInt16.toNat).foldl (add 65536) word.toNat := by
  have first : add 65536 0 word.toNat = word.toNat := by
    rw [add, fold, Nat.zero_add, if_pos word.toNat_lt]
  rw [cksumOf, sum, List.map_cons, List.foldl_cons, first]

theorem ipCksum_eq (pubIpAddr privIpAddr : UInt32) :
    (ipaNatiCalcIpCksum pubIpAddr privIpAddr).toNat = cksumOf (halves pubIpAddr ++ halves (~~~privIpAddr)) := by
  obtain ⟨s₁, l₁⟩ := step_toNat (low_lt pubIpAddr) (high_lt pubIpAddr)
  obtain ⟨s₂, l₂⟩ := step_toNat l₁ (low_lt (~~~privIpAddr))
  obtain ⟨s₃, l₃⟩ := step_toNat l₂ (high_lt (~~~privIpAddr))
  simp only [ipaNatiCalcIpCksum, halves, List.cons_append, List.nil_append, cksumOf_cons,
    List.map_cons, List.map_nil, List.foldl_cons, List.foldl_nil]
  rw [UInt32.toNat_toUInt16, Nat.mod_eq_of_lt l₃, s₃, s₂, s₁, low_toNat, high_toNat, low_toNat, high_toNat]

theorem tcpUdpCksum_eq (pubIpAddr : UInt32) (pubPort : UInt16) (privIpAddr : UInt32) (privPort : UInt16) :
    (ipaNatiCalcTcpUdpCksum pubIpAddr pubPort privIpAddr privPort).toNat =
      cksumOf (halves pubIpAddr ++ pubPort :: halves (~~~privIpAddr) ++ [~~~privPort]) := by
  have port_lt : ∀ port : UInt16, port.toUInt32.toNat < 65536 := by
    intro port
    exact port.toNat_lt
  obtain ⟨s₁, l₁⟩ := step_toNat (low_lt pubIpAddr) (high_lt pubIpAddr)
  obtain ⟨s₂, l₂⟩ := step_toNat l₁ (port_lt pubPort)
  obtain ⟨s₃, l₃⟩ := step_toNat l₂ (low_lt (~~~privIpAddr))
  obtain ⟨s₄, l₄⟩ := step_toNat l₃ (high_lt (~~~privIpAddr))
  obtain ⟨s₅, l₅⟩ := step_toNat l₄ (port_lt (~~~privPort))
  simp only [ipaNatiCalcTcpUdpCksum, halves, List.cons_append, List.nil_append, cksumOf_cons,
    List.map_cons, List.map_nil, List.foldl_cons, List.foldl_nil]
  rw [UInt32.toNat_toUInt16, Nat.mod_eq_of_lt l₅, s₅, s₄, s₃, s₂, s₁, low_toNat, high_toNat,
    low_toNat, high_toNat, UInt16.toNat_toUInt32, UInt16.toNat_toUInt32]

/-! ### Deltas -/

/-- What words sum up to, without carries. -/
def total (words : List UInt16) : Nat := (words.map UInt16.toNat).sum

/-- `delta` is what replacing the words `old` by `new` does to one's complement sums. The words 0 and
65535 are the same number there, and 0 is the sum only of a list of zeros. -/
structure IsDelta (delta : UInt16) (old new : List UInt16) : Prop where
  congruent : (delta.toNat : Int) ≡ total new - total old [ZMOD 65535]
  replacing : ∀ words words', Replaces old new words words' →
    cksumOf words' = add 65536 (cksumOf words) delta.toNat ∨
      cksumOf words' = 0 ∧ add 65536 (cksumOf words) delta.toNat = 65535

theorem toNat_lt_of_mem {words : List UInt16} : ∀ x ∈ words.map UInt16.toNat, x < 65536 := by
  intro x member
  obtain ⟨w, -, rfl⟩ := List.mem_map.mp member
  exact w.toNat_lt

theorem toNat_not (w : UInt16) : (~~~w).toNat + w.toNat = 65535 := by
  have := w.toNat_lt
  rw [UInt16.toNat_not]
  simp only [UInt16.size]
  omega

theorem halves_not (ipAddr : UInt32) : halves (~~~ipAddr) = (halves ipAddr).map (~~~·) := by
  have lt := ipAddr.toNat_lt
  have low : (~~~ipAddr).toUInt16 = ~~~ipAddr.toUInt16 := by
    apply UInt16.toNat_inj.mp
    have := toNat_not ipAddr.toUInt16
    simp only [UInt32.toNat_toUInt16, UInt32.toNat_not, UInt32.size] at this ⊢
    omega
  have high : (~~~ipAddr >>> 16).toUInt16 = ~~~(ipAddr >>> 16).toUInt16 := by
    apply UInt16.toNat_inj.mp
    have := toNat_not (ipAddr >>> 16).toUInt16
    rw [← high_toNat] at this ⊢
    simp at this ⊢
    omega
  rw [halves, low, high]
  rfl

/-- Complements stand for the negated words: each word and its complement make up 65535. -/
theorem total_not (words : List UInt16) :
    total (words.map (~~~·)) + total words = 65535 * words.length := by
  induction words with
  | nil => rfl
  | cons w words ih =>
    have := toNat_not w
    simp only [total, List.map_cons, List.sum_cons, List.length_cons] at ih ⊢
    omega

theorem isDelta_of_cksum {delta : UInt16} {old new words : List UInt16}
    (sums : delta.toNat = cksumOf words) (perm : words.Perm (new ++ old.map (~~~·)))
    (some : old ≠ []) : IsDelta delta old new := by
  have weighs : total words + total old = total new + 65535 * old.length := by
    rw [← total_not]
    simp only [total, (perm.map UInt16.toNat).sum_eq, List.map_append, List.sum_append]
    omega
  have makes_up : delta.toNat + total old ≡ total new [MOD 65535] := by
    calc delta.toNat + total old ≡ total words + total old [MOD 65535] := by
          rw [sums]
          exact (sum_modEq toNat_lt_of_mem (by decide)).add_right _
      _ = total new + 65535 * old.length := weighs
      _ ≡ total new [MOD 65535] := Nat.add_mul_mod_self_left _ _ _
  constructor
  · have shifted : ((delta.toNat + total old : Nat) : Int) ≡ (total new : Int) [ZMOD 65535] :=
      Int.natCast_modEq_iff.mpr makes_up
    have := shifted.sub_right (total old : Int)
    rwa [Int.natCast_add, Int.add_sub_cancel] at this
  · intro before after replaces
    refine sum_replaces (replaces.map UInt16.toNat) toNat_lt_of_mem toNat_lt_of_mem delta.toNat_lt
      makes_up fun zeros zero => ?_
    -- a delta of 0 has the complement of an old word 0 among its words, which is not 0
    obtain ⟨w, member⟩ := List.exists_mem_of_ne_nil old some
    have all := (sum_eq_zero_iff toNat_lt_of_mem (by decide)).mp (sums.symm.trans zero)
    have not_zero := all (~~~w).toNat (List.mem_map_of_mem (perm.mem_iff.mpr
      (List.mem_append_right _ (List.mem_map_of_mem member))))
    have := zeros w.toNat (List.mem_map_of_mem member)
    have := toNat_not w
    omega

/-- No carry is lost: the two functions return the deltas of replacing the private address, and the
private port, by the public ones. -/
theorem cksum_deltas (pubIpAddr privIpAddr : UInt32) (pubPort privPort : UInt16) :
    IsDelta (ipaNatiCalcIpCksum pubIpAddr privIpAddr) (halves privIpAddr) (halves pubIpAddr) ∧
      IsDelta (ipaNatiCalcTcpUdpCksum pubIpAddr pubPort privIpAddr privPort)
        (halves privIpAddr ++ [privPort]) (halves pubIpAddr ++ [pubPort]) := by
  constructor
  · refine isDelta_of_cksum (ipCksum_eq _ _) ?_ (List.cons_ne_nil _ _)
    rw [halves_not]
  · refine isDelta_of_cksum (tcpUdpCksum_eq _ _ _ _) ?_ (List.cons_ne_nil _ _)
    rw [halves_not, List.map_append, List.append_assoc, List.append_assoc, List.cons_append]
    rfl

end Hima.Ipanat
