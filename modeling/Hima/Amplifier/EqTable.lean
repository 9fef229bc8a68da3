import Hima.Amplifier.ModeData
import Hima.Amplifier.Words
import Hima.Lib.Binary32
import Mathlib.Data.Fin.VecNotation
import Mathlib.Data.Int.Log
import Mathlib.Data.Rat.Floor
import Mathlib.Tactic.FinCases

/-!
# The EQ table

A line of an EQ file has five coefficients. load_eq sends them as fractions of 24 bits with an exponent
in front that is the same for the five, or zeros for a line that is switched off. The floats are read
as the rationals they stand for, and the arithmetic on them is exact.
-/
namespace Hima.Amplifier

open Hima.Fallible Binary32

local instance neZero_five : NeZero 5 := Nat.instNeZeroSucc

/-! ### Encoding a line -/

/-- Conversion to an integer, which drops the fraction. -/
def towardZero (q : ℚ) : Int := if q < 0 then ⌈q⌉ else ⌊q⌋

/-- The loop of load_eq for the largest magnitude. -/
def EqLine.max (line : EqLine) : ℚ :=
  ([1, 2, 3, 4] : List (Fin 5)).foldl (fun max j => if |value (line j)| > max then |value (line j)| else max)
    |value (line 0)|

/-- `(int) ceil(log(max + pow(2.0, -23)) / log(2.0))` -/
def EqLine.space (line : EqLine) : Int := Int.clog 2 (line.max + 1 / 2 ^ 23)

/-- The coefficients in the order and with the signs in which they are sent. -/
def EqLine.sent (line : EqLine) : Fin 5 → ℚ :=
  ![-value (line 4), -value (line 3), value (line 2), value (line 1), value (line 0)]

/-- The exponent that is sent. -/
def EqLine.exponent (line : EqLine) : Int := if line.space < 0 then 0 else line.space

/-- The word of a coefficient. -/
def EqLine.word (line : EqLine) (k : Fin 5) : Int := towardZero (line.sent k * 2 ^ (23 - line.exponent))

/-- line_data, `none` for an invalid value. -/
def EqLine.lineData (line : EqLine) : Option (Fin 6 → Int) :=
  if line.space > 8 then none else some (Fin.cons line.exponent line.word)

/-! ### What a line is to become -/

/-- Five numbers, and not more than 8 bits before the point. -/
structure EqLine.WellFormed (line : EqLine) : Prop where
  finite : ∀ j, Finite (line j)
  fits : line.space ≤ 8

/-- The line 1 0 0 0 0. -/
def EqLine.Disabled (line : EqLine) : Prop :=
  value (line 0) = 1 ∧ ∀ j, j ≠ 0 → value (line j) = 0

/-- The bytes of a line stand for its coefficients. -/
structure EqLine.Encodes (line : EqLine) (bytes : List Byte) : Prop where
  zeros : bytes = List.replicate 18 0 ↔ line.Disabled
  words : ¬ line.Disabled → ∃ (s : Int) (word : Fin 5 → Int), 0 ≤ s ∧ s ≤ 8 ∧
    bytes = data2bytes ((s :: List.ofFn word).map (BitVec.ofInt 32)) ∧
    (∀ k, -(2 ^ 23) ≤ word k ∧ word k < 2 ^ 23) ∧
    ∀ k, |word k * (2 : ℚ) ^ (s - 23) - line.sent k| < (2 : ℚ) ^ (s - 23)

/-- The first five bytes are those of the line 1 0 0 0 0: the whole first coefficient and the lowest byte of
the second. -/
def EqLine.LooksDisabled (line : EqLine) : Prop :=
  line 0 = 0x3F800000 ∧ (line 1).extractLsb' 0 8 = 0

/-- All coefficients are smaller than the last place of a word. -/
def EqLine.Vanishes (line : EqLine) : Prop := ∀ j, |value (line j)| < 1 / 2 ^ 23

/-! ### Rounding -/

theorem abs_towardZero_le (q : ℚ) : |(towardZero q : ℚ)| ≤ |q| := by
  rw [towardZero]
  split
  next negative =>
    have ceil_nonpos : (⌈q⌉ : ℚ) ≤ 0 := by exact_mod_cast Int.ceil_le.mpr (le_of_lt negative)
    rw [abs_of_nonpos ceil_nonpos, abs_of_neg negative]
    exact neg_le_neg (Int.le_ceil q)
  next nonneg =>
    have floor_nonneg : (0 : ℚ) ≤ ⌊q⌋ := by exact_mod_cast Int.floor_nonneg.mpr (le_of_not_gt nonneg)
    rw [abs_of_nonneg floor_nonneg, abs_of_nonneg (le_of_not_gt nonneg)]
    exact Int.floor_le q

theorem abs_towardZero_sub_lt (q : ℚ) : |(towardZero q : ℚ) - q| < 1 := by
  rw [towardZero, abs_sub_lt_iff]
  split
  · exact ⟨sub_lt_iff_lt_add.mpr (by linarith [Int.ceil_lt_add_one q]), by linarith [Int.le_ceil q]⟩
  · exact ⟨by linarith [Int.floor_le q], by linarith [Int.lt_floor_add_one q]⟩

theorem towardZero_eq_zero_iff (q : ℚ) : towardZero q = 0 ↔ |q| < 1 := by
  constructor
  · intro zero
    have near := abs_towardZero_sub_lt q
    rwa [zero, Int.cast_zero, zero_sub, abs_neg] at near
  · intro small
    have bound := lt_of_le_of_lt (abs_towardZero_le q) small
    have whole : |towardZero q| < 1 := by exact_mod_cast bound
    exact Int.abs_lt_one_iff.mp whole

/-! ### The exponent -/

variable {line : EqLine}

theorem le_foldl_max (f : Fin 5 → ℚ) (js : List (Fin 5)) (start : ℚ) :
    start ≤ js.foldl (fun max j => if f j > max then f j else max) start ∧
      ∀ j ∈ js, f j ≤ js.foldl (fun max j => if f j > max then f j else max) start := by
  induction js generalizing start with
  | nil => exact ⟨le_refl _, nofun⟩
  | cons i js ih =>
    have here : start ≤ (if f i > start then f i else start) ∧ f i ≤ if f i > start then f i else start := by
      split
      next above => exact ⟨le_of_lt above, le_refl _⟩
      next below => exact ⟨le_refl _, le_of_not_gt below⟩
    obtain ⟨first, rest⟩ := ih (if f i > start then f i else start)
    refine ⟨le_trans here.1 first, fun j member => ?_⟩
    rcases List.mem_cons.mp member with rfl | member
    · exact le_trans here.2 first
    · exact rest j member

theorem foldl_max_mem (f : Fin 5 → ℚ) (js : List (Fin 5)) (start : ℚ) :
    js.foldl (fun max j => if f j > max then f j else max) start = start ∨
      ∃ j ∈ js, js.foldl (fun max j => if f j > max then f j else max) start = f j := by
  induction js generalizing start with
  | nil => exact .inl rfl
  | cons i js ih =>
    rw [List.foldl_cons]
    rcases ih (if f i > start then f i else start) with same | ⟨j, member, same⟩
    · rw [same]
      split
      · exact .inr ⟨i, List.mem_cons_self, rfl⟩
      · exact .inl rfl
    · exact .inr ⟨j, List.mem_cons_of_mem _ member, same⟩

theorem EqLine.le_max (line : EqLine) (j : Fin 5) : |value (line j)| ≤ line.max := by
  obtain ⟨first, rest⟩ := le_foldl_max (fun j => |value (line j)|) [1, 2, 3, 4] |value (line 0)|
  by_cases zero : j = 0
  · rw [zero]
    exact first
  · exact rest j (by revert j; decide)

theorem EqLine.max_mem (line : EqLine) : ∃ j, line.max = |value (line j)| := by
  rcases foldl_max_mem (fun j => |value (line j)|) [1, 2, 3, 4] |value (line 0)| with same | ⟨j, -, same⟩
  · exact ⟨0, same⟩
  · exact ⟨j, same⟩

theorem EqLine.max_nonneg (line : EqLine) : 0 ≤ line.max :=
  le_trans (abs_nonneg _) (line.le_max 0)

theorem EqLine.space_le_exponent (line : EqLine) : line.space ≤ line.exponent := by
  rw [exponent]
  split <;> omega

theorem EqLine.exponent_nonneg (line : EqLine) : 0 ≤ line.exponent := by
  rw [exponent]
  split <;> omega

theorem EqLine.WellFormed.exponent_le (wellFormed : line.WellFormed) : line.exponent ≤ 8 := by
  have fits := wellFormed.fits
  rw [exponent]
  split <;> omega

/-- The largest coefficient and one place more are below the power of two. -/
theorem EqLine.max_lt (line : EqLine) : line.max + 1 / 2 ^ 23 ≤ (2 : ℚ) ^ line.exponent := by
  have self_le := Int.self_le_zpow_clog (R := ℚ) (b := 2) (by decide) (line.max + 1 / 2 ^ 23)
  exact le_trans self_le (zpow_le_zpow_right₀ (by norm_num) line.space_le_exponent)

theorem EqLine.sent_le (line : EqLine) (k : Fin 5) : |line.sent k| ≤ line.max := by
  fin_cases k
  · exact (abs_neg (value (line 4))).trans_le (line.le_max 4)
  · exact (abs_neg (value (line 3))).trans_le (line.le_max 3)
  · exact line.le_max 2
  · exact line.le_max 1
  · exact line.le_max 0

/-! ### Words -/

/-- A coefficient that is scaled stays below the range of a word. -/
theorem EqLine.scaled_lt (line : EqLine) (k : Fin 5) : |line.sent k * 2 ^ (23 - line.exponent)| < 2 ^ 23 := by
  have positive : (0 : ℚ) < 2 ^ (23 - line.exponent) := zpow_pos two_pos _
  have below : |line.sent k| < (2 : ℚ) ^ line.exponent := by
    have place : (0 : ℚ) < 1 / 2 ^ 23 := by positivity
    linarith [line.sent_le k, line.max_lt]
  calc |line.sent k * 2 ^ (23 - line.exponent)|
      = |line.sent k| * 2 ^ (23 - line.exponent) := by rw [abs_mul, abs_of_pos positive]
    _ < 2 ^ line.exponent * 2 ^ (23 - line.exponent) := mul_lt_mul_of_pos_right below positive
    _ = 2 ^ 23 := by
      rw [← zpow_add₀ two_ne_zero, add_sub_cancel]
      norm_num

theorem EqLine.word_bounds (line : EqLine) (k : Fin 5) : -(2 ^ 23) ≤ line.word k ∧ line.word k < 2 ^ 23 := by
  have small := lt_of_le_of_lt (abs_towardZero_le _) (line.scaled_lt k)
  have whole : |line.word k| < 2 ^ 23 := by exact_mod_cast small
  rw [abs_lt] at whole
  exact ⟨le_of_lt whole.1, whole.2⟩

/-- Cutting off the fraction costs less than one place. -/
theorem EqLine.word_near (line : EqLine) (k : Fin 5) :
    |line.word k * (2 : ℚ) ^ (line.exponent - 23) - line.sent k| < (2 : ℚ) ^ (line.exponent - 23) := by
  have positive : (0 : ℚ) < 2 ^ (line.exponent - 23) := zpow_pos two_pos _
  have inverse : (2 : ℚ) ^ (23 - line.exponent) * 2 ^ (line.exponent - 23) = 1 := by
    rw [← zpow_add₀ two_ne_zero, show 23 - line.exponent + (line.exponent - 23) = 0 by omega, zpow_zero]
  have apart : line.word k * (2 : ℚ) ^ (line.exponent - 23) - line.sent k =
      (line.word k - line.sent k * 2 ^ (23 - line.exponent)) * 2 ^ (line.exponent - 23) := by
    rw [sub_mul, mul_assoc (line.sent k), inverse, mul_one]
  rw [apart, abs_mul, abs_of_pos positive]
  exact mul_lt_of_lt_one_left positive (abs_towardZero_sub_lt _)

/-! ### Zeros -/

theorem EqLine.Vanishes.exponent_eq (vanishes : line.Vanishes) : line.exponent = 0 := by
  obtain ⟨j, largest⟩ := line.max_mem
  have small : line.max + 1 / 2 ^ 23 ≤ (2 : ℚ) ^ (0 : Int) := by
    have bound := vanishes j
    norm_num at bound ⊢
    linarith
  have positive : 0 < line.max + 1 / 2 ^ 23 := by
    have nonneg := line.max_nonneg
    positivity
  have space : line.space ≤ 0 := (Int.le_zpow_iff_clog_le (b := 2) (by decide) positive).mp small
  rw [exponent]
  split <;> omega

theorem EqLine.word_eq_zero_iff (flat : line.exponent = 0) (k : Fin 5) :
    line.word k = 0 ↔ |line.sent k| < 1 / 2 ^ 23 := by
  rw [word, towardZero_eq_zero_iff, flat, abs_mul, sub_zero, lt_div_iff₀ (by positivity)]
  norm_num

theorem EqLine.vanishes_iff_sent (line : EqLine) : line.Vanishes ↔ ∀ k, |line.sent k| < 1 / 2 ^ 23 := by
  have turned (i : Fin 5) : |(-value (line i))| = |value (line i)| := abs_neg _
  constructor
  · intro vanishes k
    fin_cases k
    · exact (turned 4).trans_lt (vanishes 4)
    · exact (turned 3).trans_lt (vanishes 3)
    · exact vanishes 2
    · exact vanishes 1
    · exact vanishes 0
  · intro small j
    fin_cases j
    · exact small 4
    · exact small 3
    · exact small 2
    · exact (turned 3).symm.trans_lt (small 1)
    · exact (turned 4).symm.trans_lt (small 0)

/-- The exponent and the words are all zero just when nothing is in the line. -/
theorem EqLine.vanishes_iff (line : EqLine) : line.Vanishes ↔ line.exponent = 0 ∧ ∀ k, line.word k = 0 := by
  constructor
  · intro vanishes
    have flat := vanishes.exponent_eq
    exact ⟨flat, fun k => (word_eq_zero_iff flat k).mpr ((vanishes_iff_sent line).mp vanishes k)⟩
  · rintro ⟨flat, zero⟩
    exact (vanishes_iff_sent line).mpr fun k => (word_eq_zero_iff flat k).mp (zero k)

/-! ### The bytes of a line -/

instance : DecidablePred EqLine.LooksDisabled := fun _ => inferInstanceAs (Decidable (_ ∧ _))

/-- What load_eq puts into the table for a line. -/
def EqLine.bytes (line : EqLine) : List Byte :=
  if line.LooksDisabled then List.replicate 18 0
  else data2bytes ((line.exponent :: List.ofFn line.word).map (BitVec.ofInt 32))

theorem EqLine.length_bytes (line : EqLine) : line.bytes.length = 18 := by
  rw [bytes]
  split
  · exact List.length_replicate
  · rw [length_data2bytes, List.length_map, List.length_cons, List.length_ofFn]

theorem eqLineBytes_eq {env : Env} {name : ParamFile} {i : Nat} (exact_ : env.lineData = EqLine.lineData)
    (scanned : env.scan name i = some ((i : Int) + 1, line)) (fits : line.space ≤ 8) :
    eqLineBytes env name i = some line.bytes := by
  have data : env.lineData line = some (Fin.cons line.exponent line.word) := by
    rw [exact_, EqLine.lineData, if_neg (by omega)]
  rw [eqLineBytes, scanned]
  dsimp only
  rw [if_neg (by simp), EqLine.bytes, data]
  by_cases looks : line.LooksDisabled
  · rw [if_pos looks]
    exact if_pos looks
  · rw [if_neg looks, Option.map_some, List.ofFn_cons]
    exact if_neg looks

/-- The line 1 0 0 0 0 looks like itself, whatever the signs of its zeros. -/
theorem EqLine.Disabled.looks (disabled : line.Disabled) : line.LooksDisabled := by
  obtain ⟨one, zeros⟩ := disabled
  refine ⟨(value_eq_one_iff _).mp one, BitVec.eq_of_toNat_eq ?_⟩
  have second := (value_eq_zero_iff _).mp (zeros 1 (by decide))
  rw [magnitude] at second
  change (line 1).toNat % 2 ^ 8 = 0
  omega

theorem EqLine.Vanishes.not_disabled (vanishes : line.Vanishes) : ¬ line.Disabled := by
  rintro ⟨one, -⟩
  have small := vanishes 0
  rw [one] at small
  norm_num at small

/-- A word of zeros stands for 0 only. -/
theorem readBack_ofInt_eq_zero {d : Int} (low : -(2 ^ 23) ≤ d) (high : d < 2 ^ 23)
    (zero : readBack (BitVec.ofInt 32 d) = 0) : d = 0 := by
  have same : (BitVec.ofInt 32 d).toInt = d := by
    rw [BitVec.toInt_ofInt]
    exact Int.bmod_eq_of_le (by omega) (by omega)
  have usual : BitVec.ofInt 32 d ≠ BitVec.intMin 32 := by
    intro lowest
    rw [lowest] at same
    have value : (BitVec.intMin 32).toInt = -(2 ^ 31) := by decide
    omega
  have kept := toInt_readBack usual
  rw [zero, same, saturate] at kept
  have none : (0 : BitVec 32).toInt = 0 := by decide
  omega

/-- The bytes are all zero where the line looks disabled, and where nothing is left of it. -/
theorem EqLine.bytes_eq_zeros_iff (wellFormed : line.WellFormed) :
    line.bytes = List.replicate 18 0 ↔ line.LooksDisabled ∨ line.Vanishes := by
  rw [bytes]
  by_cases looks : line.LooksDisabled
  · rw [if_pos looks]
    exact iff_of_true rfl (.inl looks)
  · rw [if_neg looks, or_iff_right looks, vanishes_iff]
    constructor
    · intro zeros
      have back := congrArg bytes2data zeros
      rw [bytes2data_data2bytes, List.map_map] at back
      have each : ∀ d ∈ line.exponent :: List.ofFn line.word, readBack (BitVec.ofInt 32 d) = 0 := by
        have none : bytes2data (List.replicate 18 0) = List.replicate 6 0 := by decide
        intro d member
        exact List.eq_of_mem_replicate (none ▸ back ▸ List.mem_map_of_mem member)
      have nonneg := line.exponent_nonneg
      have le := wellFormed.exponent_le
      refine ⟨readBack_ofInt_eq_zero (by omega) (by omega) (each _ List.mem_cons_self), fun k => ?_⟩
      obtain ⟨low, high⟩ := line.word_bounds k
      exact readBack_ofInt_eq_zero low high (each _ (List.mem_cons_of_mem _ (List.mem_ofFn.mpr ⟨k, rfl⟩)))
    · rintro ⟨flat, zero⟩
      have none : line.word = fun _ => 0 := funext zero
      rw [flat, none]
      decide

theorem EqLine.encodes_iff (wellFormed : line.WellFormed) :
    line.Encodes line.bytes ↔ (line.LooksDisabled → line.Disabled) ∧ ¬ line.Vanishes := by
  have zeros := bytes_eq_zeros_iff wellFormed
  constructor
  · intro encodes
    refine ⟨fun looks => encodes.zeros.mp (zeros.mpr (.inl looks)), fun vanishes => ?_⟩
    exact vanishes.not_disabled (encodes.zeros.mp (zeros.mpr (.inr vanishes)))
  · rintro ⟨only, some_left⟩
    refine ⟨?_, fun enabled => ?_⟩
    · rw [zeros, or_iff_left some_left]
      exact ⟨only, EqLine.Disabled.looks⟩
    · refine ⟨line.exponent, line.word, line.exponent_nonneg, wellFormed.exponent_le, ?_,
        line.word_bounds, line.word_near⟩
      rw [bytes, if_neg (mt only enabled)]

/-! ### The table -/

section

variable {env : Env} {name : ParamFile} {lines : Nat → EqLine}

theorem eqBytes_eq {left i : Nat}
    (each : ∀ k, i ≤ k → k < i + left → eqLineBytes env name k = some (lines k).bytes) :
    eqBytes env name left i = some ((List.range' i left).flatMap fun k => (lines k).bytes) := by
  induction left generalizing i with
  | zero => rfl
  | succ left ih =>
    rw [eqBytes, each i (Nat.le_refl i) (by omega),
      ih fun k above below => each k (Nat.le_of_succ_le above) (by omega), List.range'_succ,
      List.flatMap_cons]

theorem drop_take_table {left k : Nat} (i : Nat) (inside : k < left) :
    (((List.range' i left).flatMap fun k => (lines k).bytes).drop (18 * k)).take 18 =
      (lines (i + k)).bytes := by
  induction left generalizing i k with
  | zero => exact absurd inside (Nat.not_lt_zero k)
  | succ left ih =>
    have size := (lines i).length_bytes
    rw [List.range'_succ, List.flatMap_cons]
    cases k with
    | zero => rw [Nat.mul_zero, List.drop_zero, List.take_left' size, Nat.add_zero]
    | succ k =>
      rw [Nat.mul_succ, Nat.add_comm (18 * k) 18, ← List.drop_drop, List.drop_left' size,
        ih (i + 1) (Nat.lt_of_succ_lt_succ inside), Nat.add_right_comm i 1 k, Nat.add_assoc]

/-- The loop of load_eq gets to the end of a well-formed file when no operation fails. -/
theorem eqLines_reads (healthy : ∀ n, env.fails n = none) {left i : Nat} {data : List Byte} {h : Host}
    (table : eqBytes env name left i = some data) : (eqLines env name left i h).1 = .ok data := by
  induction left generalizing i h data with
  | zero =>
    cases table
    rfl
  | succ left ih =>
    rw [eqBytes] at table
    split at table
    · cases table
    next bytes line =>
      split at table
      · cases table
      next rest behind =>
        cases table
        -- no operation fails, so the next line is read from the state after this one
        have read := ih (h := h.tick) behind
        rw [eqLines, Host.fileOp, healthy h.clock]
        rw [line]
        dsimp only
        split
        next e h' failed =>
          rw [failed] at read
          cases read
        next rest' h' went =>
          rw [went] at read
          cases read
          rfl

/-- What load_eq sends for a file: a load that returns 0 has made the DSP accept it, and it is what
the file is read to when no operation fails. -/
structure SendsTable (env : Env) (name : ParamFile) (data : List Byte) : Prop where
  table : eqBytes env name MAX_EQ_LINES 0 = some data
  accepted : ∀ (amp : Amp) (p q : Port), (loadEq env amp name).run p = (.ok (), q) →
    q.dsp.accepted = (Block.eq.ident ++ data) :: p.dsp.accepted
  read : (∀ n, env.fails n = none) → ∀ p : Port, ((readEq env name).run p).1 = .ok data

theorem sendsTable_of_table {data : List Byte} (table : eqBytes env name MAX_EQ_LINES 0 = some data) :
    SendsTable env name data := by
  refine ⟨table, fun amp p q ran => ?_, fun healthy p => ?_⟩
  · obtain ⟨data', known, sent, -⟩ := loadEq_ok ran
    obtain rfl := Option.some.inj (table.symm.trans known)
    exact sent
  · have opened : p.host.openFile env = (.ok (p.host.unused env),
        { p.host.tick with table := p.host.unused env :: p.host.table }) := by
      rw [Host.openFile, Host.openFd, healthy p.host.clock]
    change (readEqOn env name p.host).1 = .ok data
    rw [readEqOn, opened]
    exact eqLines_reads healthy table

/-- The table of a well-formed file is cut into lines again. -/
theorem sends_encodes_iff (exact_ : env.lineData = EqLine.lineData)
    (scanned : ∀ i < MAX_EQ_LINES, env.scan name i = some ((i : Int) + 1, lines i))
    (wellFormed : ∀ i < MAX_EQ_LINES, (lines i).WellFormed) :
    (∃ data, SendsTable env name data ∧ ∀ i < MAX_EQ_LINES, (lines i).Encodes ((data.drop (18 * i)).take 18)) ↔
      ∀ i < MAX_EQ_LINES, (lines i).Encodes (lines i).bytes := by
  have table : eqBytes env name MAX_EQ_LINES 0 =
      some ((List.range' 0 MAX_EQ_LINES).flatMap fun k => (lines k).bytes) := by
    refine eqBytes_eq fun k _ below => ?_
    exact eqLineBytes_eq exact_ (scanned k below) (wellFormed k below).fits
  have slice : ∀ i < MAX_EQ_LINES,
      (((List.range' 0 MAX_EQ_LINES).flatMap fun k => (lines k).bytes).drop (18 * i)).take 18 =
        (lines i).bytes := by
    intro i inside
    rw [drop_take_table 0 inside, Nat.zero_add]
  constructor
  · rintro ⟨data, sends, encodes⟩ i inside
    obtain rfl := Option.some.inj (table.symm.trans sends.table)
    rw [← slice i inside]
    exact encodes i inside
  · intro encodes
    refine ⟨_, sendsTable_of_table table, fun i inside => ?_⟩
    rw [slice i inside]
    exact encodes i inside

/-- The table stands for the file unless a line merely begins like the disabled one, or nothing is left of a
line. -/
theorem loadEq_encodes_iff (env : Env) (name : ParamFile) (lines : Nat → EqLine)
    (exact_ : env.lineData = EqLine.lineData)
    (scanned : ∀ i < MAX_EQ_LINES, env.scan name i = some ((i : Int) + 1, lines i))
    (wellFormed : ∀ i < MAX_EQ_LINES, (lines i).WellFormed) :
    (∃ data, SendsTable env name data ∧ ∀ i < MAX_EQ_LINES, (lines i).Encodes ((data.drop (18 * i)).take 18)) ↔
      ∀ i < MAX_EQ_LINES, ((lines i).LooksDisabled → (lines i).Disabled) ∧ ¬ (lines i).Vanishes := by
  rw [sends_encodes_iff exact_ scanned wellFormed]
  exact forall₂_congr fun i inside => EqLine.encodes_iff (wellFormed i inside)

end

/-! ### Concrete files -/

/-- Coefficients below 128 leave room for the exponent. -/
theorem EqLine.fits_of_lt (small : ∀ j, |value (line j)| < 2 ^ 7) : line.space ≤ 8 := by
  obtain ⟨j, largest⟩ := line.max_mem
  have bound := small j
  have positive : 0 < line.max + 1 / 2 ^ 23 := add_pos_of_nonneg_of_pos line.max_nonneg (by positivity)
  have below : line.max + 1 / 2 ^ 23 ≤ (2 : ℚ) ^ (8 : Int) := by
    norm_num at bound ⊢
    linarith
  exact (Int.le_zpow_iff_clog_le (b := 2) (by decide) positive).mp below

/-- Reads a file whose lines all have these coefficients, with no operation that fails. -/
def eqFile (line : EqLine) : Env where
  fails _ := none
  reply _ _ _ := []
  accepts _ := true
  descriptor n := n
  stack _ _ := 0
  file _ := []
  scan _ i := some (i + 1, line)
  lineData := EqLine.lineData

/-- The line 0.5 0.25 0 0 0. -/
def plainLine : EqLine := fun j => if j = 0 then 0x3F000000 else if j = 1 then 0x3E800000 else 0

/-- The line 1 0.5 0 0 0. -/
def halvedLine : EqLine := fun j => if j = 0 then 0x3F800000 else if j = 1 then 0x3F000000 else 0

theorem plainLine_wellFormed : plainLine.WellFormed where
  finite := by decide
  fits := EqLine.fits_of_lt fun j => (abs_value_lt_iff _ 7).mpr (by revert j; decide)

theorem halvedLine_wellFormed : halvedLine.WellFormed where
  finite := by decide
  fits := EqLine.fits_of_lt fun j => (abs_value_lt_iff _ 7).mpr (by revert j; decide)

theorem loadEq_encodes_sample :
    ∃ data, SendsTable (eqFile plainLine) ⟨"playback", some ".eq"⟩ data ∧
      ∀ i < MAX_EQ_LINES, plainLine.Encodes ((data.drop (18 * i)).take 18) := by
  refine (loadEq_encodes_iff (eqFile plainLine) _ (fun _ => plainLine) rfl (fun _ _ => rfl)
    fun _ _ => plainLine_wellFormed).mpr fun _ _ => ⟨fun looks => absurd looks (by decide), ?_⟩
  -- the first coefficient is far above the last place
  intro vanishes
  have first := vanishes 0
  rw [abs_value, show units (magnitude (plainLine 0)) = 2 ^ 148 by decide] at first
  norm_num at first

/-- A line that is not switched off is sent as zeros. -/
theorem halved_line_dropped :
    ¬ ∀ (env : Env) (name : ParamFile) (lines : Nat → EqLine), env.lineData = EqLine.lineData →
      (∀ i < MAX_EQ_LINES, env.scan name i = some ((i : Int) + 1, lines i)) →
      (∀ i < MAX_EQ_LINES, (lines i).WellFormed) → ∃ data, SendsTable env name data ∧
        ∀ i < MAX_EQ_LINES, (lines i).Encodes ((data.drop (18 * i)).take 18) := by
  intro all
  have encodes := (sends_encodes_iff rfl (fun _ _ => rfl) fun _ _ => halvedLine_wellFormed).mp
    (all (eqFile halvedLine) ⟨"playback", some ".eq"⟩ (fun _ => halvedLine) rfl (fun _ _ => rfl)
      fun _ _ => halvedLine_wellFormed) 0 (by decide)
  have disabled := encodes.zeros.mp (if_pos (by decide))
  have second := (value_eq_zero_iff _).mp (disabled.2 1 (by decide))
  exact absurd second (by decide)

end Hima.Amplifier
