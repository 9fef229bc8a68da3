import Hima.Amplifier.Transfers
import Hima.Lib.Polling

/-!
# What polling a register reports

tfa9887_wait_reg reads until the register shows the condition or the tries are used up, and decides
afterwards from the count of the tries alone whether that was a timeout. What it found with its last
try is then not looked at.
-/
namespace Hima.Amplifier

open Hima.Fallible Hima.Fallible.Prog

variable (env : Env) (amp : Amp) (reg : Byte) (readyValue : BitVec 16) (valueSet : Bool)

/-- Some bit of `readyValue` is as asked for. -/
def Shows (readyValue : BitVec 16) (valueSet : Bool) (value : BitVec 16) : Prop :=
  ∃ i, readyValue.getLsbD i = true ∧ value.getLsbD i = valueSet

/-- The loop of tfa9887_wait_reg, with the last value and the count of the tries. -/
def waitRegLoop (maxTries : Nat) : Bus (BitVec 16 × Nat) :=
  (readReg env amp reg).poll (fun value => ¬ value &&& readyValue = if valueSet then 0 else readyValue)
    (maxTries - 1) 0

/-- tfa9887_wait_reg with the counter of the source. -/
def waitRegCounted (maxTries : Nat) : Bus Unit := do
  let (_, tries) ← waitRegLoop env amp reg readyValue valueSet maxTries
  if tries = maxTries then .fail EBUSY.negated else pure ()

variable {env amp reg readyValue valueSet} {maxTries : Nat} {p : Port}

/-- One comparison serves both polarities. -/
theorem shows_iff (value : BitVec 16) :
    (¬ value &&& readyValue = if valueSet then 0 else readyValue) ↔ Shows readyValue valueSet value := by
  rw [Shows, BitVec.eq_of_getLsbD_eq_iff]
  simp only [BitVec.getLsbD_and, not_forall]
  constructor
  · rintro ⟨i, inside, differs⟩
    refine ⟨i, ?_⟩
    cases valueSet
    · cases value_bit : value.getLsbD i <;> cases ready_bit : readyValue.getLsbD i <;>
        simp [value_bit, ready_bit] at differs ⊢
    · cases value_bit : value.getLsbD i <;> cases ready_bit : readyValue.getLsbD i <;>
        simp [value_bit, ready_bit] at differs ⊢
  · rintro ⟨i, ready_bit, value_bit⟩
    have inside : i < 16 := BitVec.lt_of_getLsbD ready_bit
    refine ⟨i, inside, ?_⟩
    cases valueSet <;> simp [value_bit, ready_bit]

/-- The value of the last try does not matter to the loop with its tries counted down. -/
theorem waitTries_counted (left tries : Nat) (p : Port) :
    (waitTries env amp reg readyValue valueSet left).run p = ((readReg env amp reg).poll
          (fun value => ¬ value &&& readyValue = if valueSet then 0 else readyValue) left tries >>=
        fun found => if found.2 = tries + left + 1 then .fail EBUSY.negated else pure ()).run p := by
  induction left generalizing tries p with
  | zero =>
    rw [waitTries, poll, run_bind, run_bind, run_bind]
    cases read : (readReg env amp reg).run p with
    | mk result q =>
      cases result with
      | error e => rfl
      | ok value => simp
  | succ left ih =>
    rw [waitTries, poll, run_bind, run_bind, run_bind]
    cases read : (readReg env amp reg).run p with
    | mk result q =>
      cases result with
      | error e => rfl
      | ok value =>
        dsimp only
        by_cases waits : value &&& readyValue = if valueSet then 0 else readyValue
        · rw [if_pos waits, if_neg (not_not_intro waits), ih (tries + 1) q, run_bind,
            Nat.add_right_comm tries 1 left, ← Nat.add_assoc]
        · -- the loop ends with tries left, so the count is not taken for a timeout
          have earlier : tries + 1 ≠ tries + (left + 1) + 1 := by omega
          rw [if_neg waits, if_pos waits, run_pure, run_pure]
          dsimp only
          rw [if_neg earlier, run_pure]

theorem waitReg_counted (some_try : 0 < maxTries) (p : Port) :
    (waitReg env amp reg readyValue valueSet maxTries).run p =
      (waitRegCounted env amp reg readyValue valueSet maxTries).run p := by
  rw [waitReg, waitTries_counted (maxTries - 1) 0 p, waitRegCounted, waitRegLoop,
    Nat.zero_add, Nat.sub_add_cancel some_try]

theorem readReg_error {e : Failure} (failed : ((readReg env amp reg).run p).1 = .error e) :
    e = Failure.minusOne := by
  have ran : (readReg env amp reg).run p = (.error e, ((readReg env amp reg).run p).2) :=
    Prod.ext failed rfl
  have ioctl_fails : ∀ {α : Type} {effect : Nat → Dsp → α × Dsp} {grows} {p q : Port},
      (ioctl env amp (fun _ => Failure.minusOne) effect grows).run p = (.error e, q) →
        e = Failure.minusOne := by
    intro α effect grows p q ran
    unfold ioctl at ran
    dsimp only at ran
    split at ran
    · cases ran
      rfl
    · cases ran
  rcases bind_error ran with failed | ⟨_, q, -, failed⟩
  · exact ioctl_fails failed
  · rcases bind_error failed with failed | ⟨_, q, -, failed⟩
    · exact ioctl_fails failed
    · cases failed

/-! ### The report -/

section

variable (env amp reg readyValue valueSet maxTries p)

/-- What a call that polls from `p` on is to report, where the condition shows in the values that the
reads bring. -/
structure Reports : Prop where
  zero : ((waitReg env amp reg readyValue valueSet maxTries).run p).1 = .ok () ↔
    ∃ k < maxTries, (∃ value, (readReg env amp reg).outcome k p = .ok value ∧
        Shows readyValue valueSet value) ∧
      ∀ j < k, ∃ value, (readReg env amp reg).outcome j p = .ok value
  error : ∀ k < maxTries, ∀ e, Waits (readReg env amp reg) (Shows readyValue valueSet) k p →
    (readReg env amp reg).outcome k p = .error e →
    ((waitReg env amp reg readyValue valueSet maxTries).run p).1 = .error e
  busy : ((waitReg env amp reg readyValue valueSet maxTries).run p).1 = .error EBUSY.negated ↔
    Waits (readReg env amp reg) (Shows readyValue valueSet) maxTries p
  stops : ∀ k < maxTries, Waits (readReg env amp reg) (Shows readyValue valueSet) k p →
    (∃ value, (readReg env amp reg).outcome k p = .ok value ∧ Shows readyValue valueSet value) →
    ((waitReg env amp reg readyValue valueSet maxTries).run p).2 = (readReg env amp reg).after (k + 1) p

/-- The condition shows for the first time in the last read that is allowed. -/
def ShowsLast : Prop :=
  Waits (readReg env amp reg) (Shows readyValue valueSet) (maxTries - 1) p ∧
    ∃ value, (readReg env amp reg).outcome (maxTries - 1) p = .ok value ∧ Shows readyValue valueSet value

end

theorem waits_shows {n : Nat} :
    Waits (readReg env amp reg) (Shows readyValue valueSet) n p ↔ Waits (readReg env amp reg)
        (fun value => ¬ value &&& readyValue = if valueSet then 0 else readyValue) n p := by
  simp only [Waits, shows_iff]

/-- A read that shows the condition ends the loop, and only the last one is mistaken for a timeout. -/
theorem waitReg_found {k : Nat} {value : BitVec 16} (inside : k < maxTries)
    (waits : Waits (readReg env amp reg) (Shows readyValue valueSet) k p)
    (found : (readReg env amp reg).outcome k p = .ok value) (shows : Shows readyValue valueSet value) :
    (waitReg env amp reg readyValue valueSet maxTries).run p =
      (if k + 1 = maxTries then .error EBUSY.negated else .ok (), (readReg env amp reg).after (k + 1) p) := by
  have ends := poll_found 0 (Nat.le_sub_one_of_lt inside)
    (waits_shows.mp waits) found ((shows_iff value).mpr shows)
  rw [waitReg_counted (Nat.lt_of_le_of_lt (Nat.zero_le k) inside), waitRegCounted, run_bind, waitRegLoop, ends]
  dsimp only
  rw [Nat.zero_add]
  split <;> rfl

theorem waitReg_failed {k : Nat} {e : Failure} (inside : k < maxTries)
    (waits : Waits (readReg env amp reg) (Shows readyValue valueSet) k p)
    (failed : (readReg env amp reg).outcome k p = .error e) :
    (waitReg env amp reg readyValue valueSet maxTries).run p =
      (.error e, (readReg env amp reg).after (k + 1) p) := by
  have ends := poll_failed 0 (Nat.le_sub_one_of_lt inside) (waits_shows.mp waits) failed
  rw [waitReg_counted (Nat.lt_of_le_of_lt (Nat.zero_le k) inside), waitRegCounted, run_bind, waitRegLoop, ends]

theorem waitReg_exhausted (some_try : 0 < maxTries)
    (waits : Waits (readReg env amp reg) (Shows readyValue valueSet) maxTries p) :
    ((waitReg env amp reg readyValue valueSet maxTries).run p).1 = .error EBUSY.negated := by
  rw [← Nat.sub_add_cancel some_try] at waits
  obtain ⟨value, ends⟩ := poll_exhausted 0 (waits_shows.mp waits)
  rw [waitReg_counted some_try, waitRegCounted, run_bind, waitRegLoop, ends]
  dsimp only
  rw [if_pos (by omega), run_fail]

theorem reports_exhausted (some_try : 0 < maxTries)
    (waits : Waits (readReg env amp reg) (Shows readyValue valueSet) maxTries p) :
    Reports env amp reg readyValue valueSet maxTries p := by
  have result := waitReg_exhausted some_try waits
  refine ⟨?_, ?_, ?_, ?_⟩
  · rw [result]
    refine iff_of_false nofun ?_
    rintro ⟨k, inside, ⟨value, found, shows⟩, -⟩
    exact absurd (waits.le_of_wanted found shows) (Nat.not_le_of_lt inside)
  · intro k inside e _ failed
    exact absurd (waits.le_of_error failed) (Nat.not_le_of_lt inside)
  · exact iff_of_true result waits
  · rintro k inside - ⟨value, found, shows⟩
    exact absurd (waits.le_of_wanted found shows) (Nat.not_le_of_lt inside)

theorem reports_found {k : Nat} {value : BitVec 16} (inside : k + 1 < maxTries)
    (waits : Waits (readReg env amp reg) (Shows readyValue valueSet) k p)
    (found : (readReg env amp reg).outcome k p = .ok value) (shows : Shows readyValue valueSet value) :
    Reports env amp reg readyValue valueSet maxTries p := by
  have below : k < maxTries := Nat.lt_of_succ_lt inside
  have result := waitReg_found below waits found shows
  rw [if_neg (Nat.ne_of_lt inside)] at result
  refine ⟨?_, ?_, ?_, ?_⟩
  · rw [result]
    refine iff_of_true rfl ⟨k, below, ⟨value, found, shows⟩, fun j before => ?_⟩
    obtain ⟨v, read_v, -⟩ := waits j before
    exact ⟨v, read_v⟩
  · intro j _ e waits' failed
    -- the first read that shows the condition would be the first one that fails
    obtain rfl := Nat.le_antisymm (waits.le_of_error failed) (waits'.le_of_wanted found shows)
    cases found.symm.trans failed
  · rw [result]
    exact iff_of_false nofun fun waits' =>
      absurd (waits'.le_of_wanted found shows) (Nat.not_le_of_lt below)
  · rintro j - waits' ⟨value', found', shows'⟩
    obtain rfl := Nat.le_antisymm (waits.le_of_wanted found' shows') (waits'.le_of_wanted found shows)
    rw [result]

theorem reports_failed {k : Nat} {e : Failure} (inside : k < maxTries)
    (waits : Waits (readReg env amp reg) (Shows readyValue valueSet) k p)
    (failed : (readReg env amp reg).outcome k p = .error e) :
    Reports env amp reg readyValue valueSet maxTries p := by
  have result := waitReg_failed inside waits failed
  have no_timeout : e ≠ EBUSY.negated := by
    rw [readReg_error failed]
    decide
  refine ⟨?_, ?_, ?_, ?_⟩
  · rw [result]
    refine iff_of_false nofun ?_
    -- a later read that shows the condition has the failed one before it
    rintro ⟨j, -, ⟨value, found, shows⟩, reads⟩
    rcases Nat.eq_or_lt_of_le (waits.le_of_wanted found shows) with rfl | before
    · cases found.symm.trans failed
    · obtain ⟨v, read_v⟩ := reads k before
      cases read_v.symm.trans failed
  · intro j _ e' waits' failed'
    obtain rfl := Nat.le_antisymm (waits.le_of_error failed') (waits'.le_of_error failed)
    obtain rfl := Except.error.inj (failed.symm.trans failed')
    rw [result]
  · rw [result]
    refine iff_of_false (fun same => no_timeout (Except.error.inj same)) fun waits' => ?_
    exact absurd (waits'.le_of_error failed) (Nat.not_le_of_lt inside)
  · rintro j - waits' ⟨value, found, shows⟩
    obtain rfl := Nat.le_antisymm (waits.le_of_wanted found shows) (waits'.le_of_error failed)
    cases found.symm.trans failed

/-- The report is right unless the condition shows only in the last read that is allowed. -/
theorem waitReg_reports_iff (env : Env) (amp : Amp) (reg : Byte) (readyValue : BitVec 16)
    (valueSet : Bool) (maxTries : Nat) (p : Port) (some_try : 0 < maxTries) :
    Reports env amp reg readyValue valueSet maxTries p ↔
      ¬ ShowsLast env amp reg readyValue valueSet maxTries p := by
  constructor
  · rintro report ⟨waits, value, found, shows⟩
    have below : maxTries - 1 < maxTries := Nat.sub_one_lt_of_lt some_try
    have timeout := waitReg_found below waits found shows
    rw [if_pos (Nat.sub_add_cancel some_try)] at timeout
    have busy := report.busy.mp (by rw [timeout])
    exact absurd (busy.le_of_wanted found shows) (Nat.not_le_of_lt below)
  · intro early
    have tried : Waits (readReg env amp reg) (Shows readyValue valueSet) maxTries p ∨ _ := waits_or maxTries p
    obtain waits | ⟨k, inside, waits, ⟨value, found, shows⟩ | ⟨e, failed⟩⟩ := tried
    · exact reports_exhausted some_try waits
    · refine reports_found (Nat.lt_of_le_of_ne inside ?_) waits found shows
      rintro rfl
      exact early ⟨waits, value, found, shows⟩
    · exact reports_failed inside waits failed

/-! ### Concrete registers -/

/-- A device whose registers read `values`, one after the other. -/
def registerReads (values : List (BitVec 16)) : Env where
  fails _ := none
  reply n _ _ :=
    let value := values.getD (n / 2) 0
    [value.extractLsb' 8 8, value.extractLsb' 0 8]
  accepts _ := true
  descriptor n := n
  stack _ _ := 0
  file _ := []
  scan _ _ := none
  lineData _ := none

def idlePort : Port := ⟨⟨0, 0, 0, [], []⟩, ⟨0, 0, [], [], false, 0, false⟩⟩

def openedAmp : Amp := ⟨3, true, .playback⟩

/-- MTPB is set in the first read and clear in the second, with three tries. -/
theorem waitReg_reports_sample :
    ((waitReg (registerReads [STATUS_MTPB, 0]) openedAmp Reg.STATUS STATUS_MTPB false 3).run
        idlePort).1 = .ok () ∧
      Reports (registerReads [STATUS_MTPB, 0]) openedAmp Reg.STATUS STATUS_MTPB false 3 idlePort := by
  refine ⟨by decide +kernel, (waitReg_reports_iff _ _ _ _ _ 3 idlePort (by decide)).mpr ?_⟩
  -- the second read shows it, so the third is not waited for
  rintro ⟨waits, -⟩
  obtain ⟨value, read, unwanted⟩ := waits 1 (by decide)
  have clear : (readReg (registerReads [STATUS_MTPB, 0]) openedAmp Reg.STATUS).outcome 1 idlePort = .ok 0 := by
    decide +kernel
  obtain rfl := Except.ok.inj (clear.symm.trans read)
  exact unwanted ⟨8, by decide, by decide⟩

/-- MTPB is clear in the only read, and the call reports a timeout. -/
theorem waitReg_misreports :
    ¬ ∀ (env : Env) (amp : Amp) (reg : Byte) (readyValue : BitVec 16) (valueSet : Bool) (maxTries : Nat)
      (p : Port), 0 < maxTries → Reports env amp reg readyValue valueSet maxTries p := by
  intro all
  have report := all (registerReads [0]) openedAmp Reg.STATUS STATUS_MTPB false 1 idlePort (by decide)
  have timeout : ((waitReg (registerReads [0]) openedAmp Reg.STATUS STATUS_MTPB false 1).run idlePort).1 =
      .error EBUSY.negated := by decide +kernel
  obtain ⟨value, read, unwanted⟩ := report.busy.mp timeout 0 (by decide)
  have clear : (readReg (registerReads [0]) openedAmp Reg.STATUS).outcome 0 idlePort = .ok 0 := by
    decide +kernel
  obtain rfl := Except.ok.inj (clear.symm.trans read)
  exact unwanted ⟨8, by decide, by decide⟩

end Hima.Amplifier
