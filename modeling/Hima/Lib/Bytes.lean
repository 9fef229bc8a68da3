import Mathlib.Algebra.Group.Nat.Defs
import Mathlib.Data.List.Basic

/-!
# Bytes in memory

Memory as the bytes from an address on, fields of two and four bytes in little-endian order, and
lists of bytes placed in front of whatever follows.
-/
namespace Bytes

/-- The bytes from an address on. -/
abbrev Mem := Nat → UInt8

def Mem.drop (mem : Mem) (n : Nat) : Mem := fun i => mem (n + i)

def Mem.u16 (mem : Mem) (n : Nat) : Nat := (mem n).toNat + 256 * (mem (n + 1)).toNat

def Mem.u32 (mem : Mem) (n : Nat) : Nat := mem.u16 n + 65536 * mem.u16 (n + 2)

/-- Memory that agrees on a field's bytes agrees on the field. -/
theorem Mem.u16_congr {mem mem' : Mem} {n : Nat} (same : ∀ i < n + 2, mem i = mem' i) :
    mem.u16 n = mem'.u16 n := by
  simp [Mem.u16, same n (by omega), same (n + 1) (by omega)]

theorem Mem.u32_congr {mem mem' : Mem} {n : Nat} (same : ∀ i < n + 4, mem i = mem' i) :
    mem.u32 n = mem'.u32 n := by
  have low : mem.u16 n = mem'.u16 n := u16_congr fun i below => same i (by omega)
  have high : mem.u16 (n + 2) = mem'.u16 (n + 2) := u16_congr fun i below => same i (by omega)
  simp [Mem.u32, low, high]

/-- Bytes in front of other memory. -/
def place (bytes : List UInt8) (rest : Mem) : Mem := fun i =>
  match bytes[i]? with
  | some byte => byte
  | none => rest (i - bytes.length)

@[simp] theorem place_nil (rest : Mem) : place [] rest = rest := rfl

theorem place_append (xs ys : List UInt8) (rest : Mem) :
    place (xs ++ ys) rest = place xs (place ys rest) := by
  funext i
  by_cases inside : i < xs.length
  · simp [place, List.getElem?_append_left inside, List.getElem?_eq_getElem inside]
  · have outside : xs.length ≤ i := Nat.le_of_not_lt inside
    simp [place, List.getElem?_append_right outside, List.getElem?_eq_none outside, Nat.sub_sub]

theorem place_inside {bytes : List UInt8} {i : Nat} (inside : i < bytes.length) (rest : Mem) :
    place bytes rest i = bytes[i] := by
  simp [place, List.getElem?_eq_getElem inside]

theorem place_inside_congr {bytes : List UInt8} (rest rest' : Mem) {i : Nat}
    (inside : i < bytes.length) : place bytes rest i = place bytes rest' i := by
  rw [place_inside inside, place_inside inside]

@[simp] theorem drop_place (bytes : List UInt8) (rest : Mem) :
    (place bytes rest).drop bytes.length = rest := by
  funext i
  simp [Mem.drop, place]

theorem drop_place_of_length {bytes : List UInt8} {n : Nat} (length : bytes.length = n) (rest : Mem) :
    (place bytes rest).drop n = rest := by
  subst length
  exact drop_place bytes rest

/-! ### Fields as bytes -/

def le16 (n : Nat) : List UInt8 := [n.toUInt8, (n / 256).toUInt8]

def le32 (n : Nat) : List UInt8 := le16 n ++ le16 (n / 65536)

@[simp] theorem le16_length (n : Nat) : (le16 n).length = 2 := rfl

@[simp] theorem le32_length (n : Nat) : (le32 n).length = 4 := rfl

theorem u16_place_le16 {n : Nat} (small : n < 65536) (rest : Mem) : (place (le16 n) rest).u16 0 = n := by
  simp only [Mem.u16, place, le16, Nat.zero_add, List.getElem?_cons_zero, List.getElem?_cons_succ,
    UInt8.toNat_ofNat', Nat.toUInt8_eq]
  omega

theorem u32_place_le32 {n : Nat} (small : n < 4294967296) (rest : Mem) :
    (place (le32 n) rest).u32 0 = n := by
  simp only [Mem.u32, Mem.u16, place, le32, le16, List.cons_append, List.nil_append, Nat.zero_add,
    List.getElem?_cons_zero, List.getElem?_cons_succ, UInt8.toNat_ofNat', Nat.toUInt8_eq]
  omega

/-! ### Numbers of any width -/

/-- A number as so many bytes, the least significant first. -/
def le : Nat → Nat → List UInt8
  | 0, _ => []
  | width + 1, n => n.toUInt8 :: le width (n / 256)

def readLE : List UInt8 → Nat
  | [] => 0
  | byte :: bytes => byte.toNat + 256 * readLE bytes

@[simp] theorem le_length (width n : Nat) : (le width n).length = width := by
  induction width generalizing n with
  | zero => rfl
  | succ width ih => simp [le, ih]

theorem readLE_le {width n : Nat} (small : n < 256 ^ width) : readLE (le width n) = n := by
  induction width generalizing n with
  | zero =>
    have zero : n = 0 := by simpa using small
    exact zero.symm
  | succ width ih =>
    have upper : n / 256 < 256 ^ width := by
      apply Nat.div_lt_of_lt_mul
      rwa [Nat.mul_comm, ← Nat.pow_succ]
    simp only [le, readLE, ih upper, UInt8.toNat_ofNat', Nat.toUInt8_eq]
    omega

end Bytes
