import Hima.Amplifier.Lifecycle

/-!
# Runs of mode and mute calls

After an opening, over every sequence of tfa9887_set_mode and tfa9887_set_mute and every pattern of
failures: the data in each DSP against the recorded mode, and the mute against what was last asked for.
A session keeps beside the world what no variable of the driver holds: the last tfa9887_set_mute, and
whether the last mute operation on each amplifier went through.
-/
namespace Hima.Amplifier

open Hima.Fallible Hima.Runs Prog

variable {env : Env} {amp : Amp}

/-! ### Mute -/

theorem muted_audio (m : Mute) (d : Dsp) (v : BitVec 16) :
    Dsp.muted { d with audio := m.audio v } = decide (m = .digital) := by
  have set : (v ||| AUDIOCTRL_MUTE) &&& AUDIOCTRL_MUTE = AUDIOCTRL_MUTE := by
    exact BitVec.eq_of_getLsbD_eq fun i _ => by
      simp only [BitVec.getLsbD_and, BitVec.getLsbD_or]
      cases AUDIOCTRL_MUTE.getLsbD i <;> simp
  have cleared : (v &&& ~~~AUDIOCTRL_MUTE) &&& AUDIOCTRL_MUTE = 0 := by
    exact BitVec.eq_of_getLsbD_eq fun i bound => by
      cases AUDIOCTRL_MUTE.getLsbD i <;> simp
  unfold Dsp.muted Mute.audio
  cases m with
  | digital =>
    rw [set]
    rfl
  | off =>
    rw [cleared]
    rfl
  | amplifier =>
    rw [cleared]
    rfl

theorem does_mute (m : Mute) :
    Does (fun _ => True) (mute env amp m) fun _ d => d.muted = decide (m = .digital) := by
  apply Does.bind (Does.of_maintains (maintains_readReg (fun _ _ _ => trivial) _))
  intro audValue
  apply Does.bind (Does.of_maintains (maintains_readReg (fun _ _ _ => trivial) _))
  intro sysValue
  have written : Does (fun _ => True) (writeReg env amp Reg.AUDIO_CONTROL (m.audio audValue))
      fun _ d => d.muted = decide (m = .digital) := by
    apply does_writeReg
    intro accepts d _
    rw [Dsp.write_audio]
    exact muted_audio m _ audValue
  apply Does.bind written
  exact fun _ => Does.of_maintains (maintains_writeReg (fun _ _ done => done) (by decide) _)

/-- Muting sends the DSP no message. -/
theorem maintains_mute (m : Mute) (acc : List (List Byte)) :
    Maintains (Held fun d => d.accepted = acc) (mute env amp m) := by
  have blind : Blind fun d => d.accepted = acc := fun _ _ same => same
  apply Triple.bind (maintains_readReg blind _)
  intro audValue
  apply Triple.bind (maintains_readReg blind _)
  intro sysValue
  have written : Maintains (Held fun d => d.accepted = acc)
      (writeReg env amp Reg.AUDIO_CONTROL (m.audio audValue)) := by
    apply maintains_writeConfig
    intro accepts d same
    rw [Dsp.write_audio]
    exact same
  apply Triple.bind written
  exact fun _ => maintains_writeReg blind (by decide) _

theorem counted_readReg (reg : Byte) :
    Counted (fun p => p.host.failures) (readReg env amp reg) := by
  apply Counted.bind Port.failures_monotone counted_ioctl
  intro _
  apply Counted.bind Port.failures_monotone counted_ioctl
  exact fun _ => .pure _

theorem counted_writeReg (reg : Byte) (v : BitVec 16) :
    Counted (fun p => p.host.failures) (writeReg env amp reg v) := by
  unfold writeReg writeConfig
  exact counted_ioctl

theorem counted_mute (m : Mute) : Counted (fun p => p.host.failures) (mute env amp m) := by
  apply Counted.bind Port.failures_monotone (counted_readReg _)
  intro _
  apply Counted.bind Port.failures_monotone (counted_readReg _)
  intro _
  apply Counted.bind Port.failures_monotone (counted_writeReg _ _)
  exact fun _ => counted_writeReg _ _

theorem ok_of_counted {program : Bus Unit} (counted : Counted (fun p => p.host.failures) program)
    {p q : Port} {r : Except Failure Unit} (ran : program.run p = (r, q))
    (none : q.host.failures ≤ p.host.failures) : r = .ok () := by
  cases r with
  | ok a => rfl
  | error e => exact absurd (counted p q e ran) (Nat.not_lt.mpr none)

/-! ### Locks -/

variable (env amp) in
theorem kernelLock_dsp (p : Port) : ((kernelLock env amp).run p).2.dsp = p.dsp := by
  unfold kernelLock
  split
  · rfl
  · unfold ioctl
    dsimp only
    split <;> rfl

theorem counted_kernelLock (open_ : 0 ≤ amp.fd) :
    Counted (fun p => p.host.failures) (kernelLock env amp) := by
  unfold kernelLock
  rw [if_neg (by omega)]
  exact counted_ioctl

/-- Before the loads nothing was sent to the DSP, whether or not the lock was had. -/
theorem prepare_accepted {p q : Port} {r : Except Failure Unit} (ran : (prepare env amp).run p = (r, q)) :
    q.dsp.accepted = p.dsp.accepted := by
  have locked : Maintains (Held fun d => d.accepted = p.dsp.accepted) (kernelLock env amp) := by
    have unmoved {s t : Port} {r : Except Failure Unit} (ran : (kernelLock env amp).run s = (r, t)) :
        t.dsp = s.dsp := by
      have still := kernelLock_dsp env amp s
      rwa [ran] at still
    apply Triple.of_runs
    · exact fun _ _ _ same ran => (congrArg Dsp.accepted (unmoved ran)).trans same
    · exact fun _ _ _ same ran => (congrArg Dsp.accepted (unmoved ran)).trans same
  have kept : Maintains (Held fun d => d.accepted = p.dsp.accepted) (prepare env amp) := by
    apply Triple.bind (Triple.attempt locked)
    intro _
    apply Triple.bind locked
    intro _
    apply Triple.bind (Triple.attempt (maintains_mute .digital _))
    exact fun _ => .pure fun _ same => same
  exact kept.of_run rfl ran

/-- Without the lock nothing was done to the DSP at all, and an operation has failed. -/
theorem prepare_error {p q : Port} {e : Failure} (ran : (prepare env amp).run p = (.error e, q)) :
    q.dsp = p.dsp ∧ (0 ≤ amp.fd → p.host.failures < q.host.failures) := by
  rcases bind_error ran with impossible | ⟨_, p₁, attempted, ran⟩
  · cases impossible
  have first := attempt_ok attempted
  have unmoved := kernelLock_dsp env amp p
  have same₁ : p₁.dsp = p.dsp := by
    rw [lockInit] at first
    rwa [first] at unmoved
  rcases bind_error ran with refused | ⟨_, p₂, _, ran⟩
  · have unmoved₁ := kernelLock_dsp env amp p₁
    rw [lock] at refused
    rw [refused] at unmoved₁
    refine ⟨unmoved₁.trans same₁, fun open_ => ?_⟩
    have grown := counted_kernelLock open_ p₁ q e refused
    have before := Port.failures_monotone (up_of_run first)
    exact Nat.lt_of_le_of_lt before grown
  · rcases bind_error ran with impossible | ⟨_, _, _, impossible⟩
    · cases impossible
    · cases impossible

/-! ### One mode switch -/

variable (env)

/-- From here, set_dsp_mode fails before the DSP has accepted anything of it, or all its loads go through
and no operation on a file fails. -/
def LoadsWhole (amp : Amp) (mode : Mode) (p : Port) : Prop :=
  (((setDspMode env amp mode).run p).1 ≠ .ok () ∧
      ((setDspMode env amp mode).run p).2.dsp.accepted = p.dsp.accepted) ∨
    (((setDspMode env amp mode).run p).1 = .ok () ∧
      ((setDspMode env amp mode).run p).2.host.fileFailures = p.host.fileFailures)

/-- Whether the last mute operation on the amplifier went through, after a mode switch. -/
def settledBySwitch (amp : Amp) (mode : Mode) (p : Port) (settled : Bool) : Bool :=
  match (prepare env amp).run p with
  | (.error _, _) => settled
  | (.ok _, p₁) => succeeded ((mute env amp .off).run ((setDspMode env amp mode).run p₁).2).1

/-- The entry after a mode switch. -/
def Amp.switched (amp : Amp) (mode : Mode) (outcome : Except Failure Bool) : Amp :=
  match outcome with
  | .ok true => { amp with mode := mode }
  | _ => amp

/-- What holds of one amplifier between two calls. -/
structure Kept (amp : Amp) (d : Dsp) (asked settled : Bool) : Prop where
  open_ : 0 ≤ amp.fd
  data : Matches env amp d
  mute : settled = true → d.muted = asked

variable {env}

theorem switchMode_error {mode : Mode} {p p₁ : Port} {e : Failure}
    (ran : (prepare env amp).run p = (.error e, p₁)) :
    (switchMode env amp mode).run p = (.ok false, ((kernelLock env amp).run p₁).2) := by
  simp only [switchMode, run_bind, run_attempt, ran, run_pure, lock]

theorem switchMode_ok {mode : Mode} {p p₁ : Port} {a : Unit} (ran : (prepare env amp).run p = (.ok a, p₁)) :
    (switchMode env amp mode).run p = (.ok (succeeded ((setDspMode env amp mode).run p₁).1),
        ((kernelLock env amp).run ((mute env amp .off).run ((setDspMode env amp mode).run p₁).2).2).2) := by
  simp only [switchMode, loadMode, run_bind, run_attempt, ran, run_pure, lock]

/-- A mode switch whose loads are whole keeps the data with the recorded mode, and takes the mute off. -/
theorem switch_kept {mode : Mode} {p : Port} {asked settled : Bool} (kept : Kept env amp p.dsp asked settled)
    (allowed : ((prepare env amp).run p).1 = .ok () →
      asked = false ∧ LoadsWhole env amp mode ((prepare env amp).run p).2) :
    Kept env (amp.switched mode ((switchMode env amp mode).run p).1) ((switchMode env amp mode).run p).2.dsp
        asked (settledBySwitch env amp mode p settled) ∧
      (((switchMode env amp mode).run p).2.host.failures ≤ p.host.failures →
        settledBySwitch env amp mode p settled = true) := by
  cases prepared : (prepare env amp).run p with
  | mk r p₁ =>
    cases r with
    | error e =>
      -- the device is not reached: nothing changes, and the failure was counted
      obtain ⟨same, failed⟩ := prepare_error prepared
      rw [switchMode_error prepared]
      simp only [settledBySwitch, prepared, Amp.switched, kernelLock_dsp, same]
      refine ⟨kept, fun none => ?_⟩
      have later : p₁.host.failures ≤ ((kernelLock env amp).run p₁).2.host.failures :=
        Port.failures_monotone ((kernelLock env amp).up p₁)
      exact absurd (failed kept.open_) (by omega)
    | ok a =>
      rw [prepared] at allowed
      obtain ⟨unasked, whole⟩ := allowed rfl
      rw [switchMode_ok prepared]
      simp only [settledBySwitch, prepared, kernelLock_dsp]
      -- from here on the device takes commands; loads and mute are looked at apart
      have before := prepare_accepted prepared
      cases loads : (setDspMode env amp mode).run p₁ with
      | mk r₂ p₂ =>
        simp only [LoadsWhole, loads] at whole
        cases unmuted : (mute env amp .off).run p₂ with
        | mk r₃ p₃ =>
          dsimp only
          have sent : p₃.dsp.accepted = p₂.dsp.accepted :=
            (maintains_mute .off p₂.dsp.accepted).of_run rfl unmuted
          refine ⟨⟨?_, ?_, ?_⟩, ?_⟩
          · cases r₂ <;> exact kept.open_
          · rcases whole with ⟨failed, same⟩ | ⟨rfl, files⟩
            · cases r₂ with
              | ok a => exact absurd rfl failed
              | error e => exact holds_of_accepted kept.data (sent.trans (same.trans before))
            · exact holds_of_accepted (setDspMode_ok loads (Nat.le_of_eq files)).1 sent
          · intro went
            cases r₃ with
            | error e => cases went
            | ok a => exact ((does_mute .off).ok trivial unmuted).trans unasked.symm
          · intro none
            -- without a counted failure the mute command went through
            have ran : r₃ = .ok () := by
              apply ok_of_counted (counted_mute .off) unmuted
              have first := Port.failures_monotone (up_of_run prepared)
              have second := Port.failures_monotone (up_of_run loads)
              have last := Port.failures_monotone ((kernelLock env amp).up p₃)
              dsimp only at first second last
              omega
            rw [ran]
            rfl

/-! ### Sessions -/

inductive Setting
  | mode (m : AudioMode)
  | mute (on : Bool)
  deriving DecidableEq

def Setting.call : Setting → Call
  | .mode m => .setMode m
  | .mute on => .setMute on

structure Session where
  world : World
  /-- the argument of the last tfa9887_set_mute, false before the first -/
  asked : Bool
  /-- the last mute operation on the right amplifier went through -/
  settledRight : Bool
  settledLeft : Bool
  deriving DecidableEq

variable (env)

/-- The settled flag after a pass of the loop of tfa9887_set_mode. -/
def settledByMode (amp : Amp) (mode : Mode) (p : Port) (settled : Bool) : Bool :=
  if mode = amp.mode then settled else settledBySwitch env amp mode p settled

/-- A call in a session; a call that has no outcome, or one without a table, ends it. -/
def sessionStep (s : Session) (c : Setting) : Option Session :=
  match s.world.amps, step env s.world c.call with
  | .allocated right left, some w =>
    match c with
    | .mute on => some
      { world := w
        asked := on
        settledRight := succeeded (s.world.on .right (mute env right (muteOf on))).1
        settledLeft := succeeded ((s.world.on .right (mute env right (muteOf on))).2.on .left
          (mute env left (muteOf on))).1 }
    | .mode mode => some
      { world := w
        asked := s.asked
        settledRight := settledByMode env right (getMode mode) (s.world.port .right) s.settledRight
        settledLeft := settledByMode env left (getMode mode)
          ((setModeSide env .right (getMode mode) right s.world).2.port .left) s.settledLeft }
  | _, _ => none

/-- A pass of the loop of tfa9887_set_mode is allowed: one that skips, if the amplifier's last mute
operation went through; one that gets the lock, if no mute is asked for and its loads are whole. -/
def SideAllowed (amp : Amp) (mode : Mode) (p : Port) (asked settled : Bool) : Prop :=
  if mode = amp.mode then settled = true
  else ((prepare env amp).run p).1 = .ok () →
    asked = false ∧ LoadsWhole env amp mode ((prepare env amp).run p).2

/-- Every tfa9887_set_mute is allowed, and a tfa9887_set_mode if both passes of its loop are. -/
def SettingAllowed (s : Session) (c : Setting) : Prop :=
  match c with
  | .mute _ => True
  | .mode mode =>
    match s.world.amps with
    | .allocated right left =>
      SideAllowed env right (getMode mode) (s.world.port .right) s.asked s.settledRight ∧
      SideAllowed env left (getMode mode)
        ((setModeSide env .right (getMode mode) right s.world).2.port .left) s.asked s.settledLeft
    | _ => True

instance (amp : Amp) (mode : Mode) (p : Port) : Decidable (LoadsWhole env amp mode p) := by
  unfold LoadsWhole
  infer_instance

instance (amp : Amp) (mode : Mode) (p : Port) (asked settled : Bool) :
    Decidable (SideAllowed env amp mode p asked settled) := by
  unfold SideAllowed
  infer_instance

instance (s : Session) (c : Setting) : Decidable (SettingAllowed env s c) := by
  unfold SettingAllowed
  cases c
  · dsimp only
    split <;> infer_instance
  · infer_instance

/-- Each recorded mode is the one whose data the DSP accepted last, and an amplifier whose last mute operation
went through has the mute that was asked for. -/
def Session.Agrees (s : Session) : Prop :=
  ∃ right left, s.world.amps = .allocated right left ∧
    Kept env right s.world.right s.asked s.settledRight ∧
    Kept env left s.world.left s.asked s.settledLeft

/-- A session starts with an open that returned 0, brought up both amplifiers and met no failure on a
file. An amplifier that it left muted (its DSP was not calibrated) does not count as settled. -/
structure OpenedBy (w : World) (s : Session) : Prop where
  null : w.amps = .null
  returned : tfa9887Open env w = (0, s.world)
  both : oneSided env w = false
  files : s.world.host.fileFailures = w.host.fileFailures
  asked : s.asked = false
  settledRight : s.settledRight = !s.world.right.muted
  settledLeft : s.settledLeft = !s.world.left.muted

variable {env}

/-! ### The opening -/

theorem kept_of_initialised {amp : Amp} {d : Dsp} (up : Initialised env amp d) :
    Kept env amp d false (!d.muted) where
  open_ := up.1
  data := up.2.matches
  mute settled := by simpa using settled

theorem opened_agrees {w : World} {s : Session} (opened : OpenedBy env w s) : s.Agrees env := by
  have returned := opened.returned
  have both := opened.both
  unfold tfa9887Open at returned
  rw [opened.null] at returned
  cases calloc : callocTable env w with
  | none =>
    simp only [calloc, Prod.mk.injEq] at returned
    cases returned.1
  | some w₁ =>
    simp only [calloc, Prod.mk.injEq, rcOf_eq_zero] at returned
    obtain ⟨leftOk, world⟩ := returned
    simp only [oneSided, calloc, leftOk, rcOf, beq_self_eq_true, Bool.and_true, bne_eq_false_iff_eq] at both
    have rightOk := rcOf_eq_zero.mp both
    have files : (openSide env .left (openSide env .right w₁).2.2).2.2.host.fileFailures =
        w₁.host.fileFailures := by
      have same := opened.files
      rw [← world] at same
      rw [callocTable_some calloc] at same ⊢
      exact same
    obtain ⟨right, left⟩ := bothUp (openSide_opened env .right w₁) (openSide_opened env .left _)
      rightOk leftOk files
    refine ⟨_, _, congrArg World.amps world.symm, ?_, ?_⟩
    · rw [opened.asked, opened.settledRight, ← world]
      exact kept_of_initialised right
    · rw [opened.asked, opened.settledLeft, ← world]
      exact kept_of_initialised left

/-! ### One call -/

theorem on_host {α : Type} (w : World) (side : Side) (p : Bus α) :
    (w.on side p).2.host = (p.run (w.port side)).2.host := by cases side <;> rfl

/-- A pass of the loop of tfa9887_set_mode. -/
theorem setModeSide_kept (side : Side) {mode : Mode} {amp : Amp} {w : World} {asked settled : Bool}
    (kept : Kept env amp (w.dsp side) asked settled)
    (allowed : SideAllowed env amp mode (w.port side) asked settled) :
    Kept env (setModeSide env side mode amp w).1 ((setModeSide env side mode amp w).2.dsp side) asked
        (settledByMode env amp mode (w.port side) settled) ∧
      ((setModeSide env side mode amp w).2.host.failures ≤ w.host.failures →
        settledByMode env amp mode (w.port side) settled = true) := by
  unfold setModeSide settledByMode
  unfold SideAllowed at allowed
  split at allowed
  next same =>
    rw [if_pos same, if_pos same]
    exact ⟨kept, fun _ => allowed⟩
  next other =>
    rw [if_neg other, if_neg other]
    rw [on_dsp, on_host]
    exact switch_kept kept allowed

theorem setMute_kept (side : Side) {amp : Amp} {w : World} {asked settled : Bool} (on : Bool)
    (kept : Kept env amp (w.dsp side) asked settled) :
    Kept env amp ((w.on side (mute env amp (muteOf on))).2.dsp side) on
        (succeeded (w.on side (mute env amp (muteOf on))).1) ∧
      ((w.on side (mute env amp (muteOf on))).2.host.failures ≤ w.host.failures →
        succeeded (w.on side (mute env amp (muteOf on))).1 = true) := by
  rw [on_dsp, on_host]
  change Kept env amp _ on (succeeded ((mute env amp (muteOf on)).run (w.port side)).1) ∧
    (_ → succeeded ((mute env amp (muteOf on)).run (w.port side)).1 = true)
  cases ran : (mute env amp (muteOf on)).run (w.port side) with
  | mk r q =>
    refine ⟨⟨kept.open_, ?_, ?_⟩, ?_⟩
    · exact holds_of_accepted kept.data ((maintains_mute _ (w.dsp side).accepted).of_run rfl ran)
    · intro went
      cases r with
      | error e => cases went
      | ok a =>
        have set := (does_mute (muteOf on)).ok trivial ran
        rw [set]
        cases on <;> rfl
    · intro none
      rw [ok_of_counted (counted_mute _) ran none]
      rfl

variable (env) in
theorem setModeSide_other {side other : Side} (apart : other ≠ side) (mode : Mode) (amp : Amp) (w : World) :
    (setModeSide env side mode amp w).2.dsp other = w.dsp other := by
  unfold setModeSide
  split
  · rfl
  · cases side <;> cases other <;> first | rfl | exact absurd rfl apart

variable (env) in
theorem setModeSide_failures (side : Side) (mode : Mode) (amp : Amp) (w : World) :
    w.host.failures ≤ (setModeSide env side mode amp w).2.host.failures := by
  unfold setModeSide
  split
  · exact Nat.le_refl _
  · exact (on_passes w side _).failures

/-- One allowed call returns, keeps the data with the recorded modes, and leaves the mute as asked for if none
of its operations failed. -/
theorem setting_step {s : Session} {c : Setting} (agrees : s.Agrees env) (allowed : SettingAllowed env s c) :
    ∃ s', sessionStep env s c = some s' ∧ s'.Agrees env ∧ (s'.world.host.failures = s.world.host.failures →
        s'.world.right.muted = s'.asked ∧ s'.world.left.muted = s'.asked) := by
  obtain ⟨right, left, live, keptRight, keptLeft⟩ := agrees
  cases c with
  | mute on =>
    obtain ⟨first, firstDone⟩ := setMute_kept .right on keptRight
    have passedLeft := on_passes (s.world.on .right (mute env right (muteOf on))).2 .left
      (mute env left (muteOf on))
    have passedRight := on_passes s.world .right (mute env right (muteOf on))
    have leftBefore : Kept env left ((s.world.on .right (mute env right (muteOf on))).2.dsp .left)
        s.asked s.settledLeft := keptLeft
    -- the sides are told apart: what is done on one leaves the other
    obtain ⟨second, secondDone⟩ := setMute_kept .left on leftBefore
    unfold sessionStep step Setting.call call tfa9887SetMute
    simp only [live]
    refine ⟨_, rfl, ⟨right, left, by simp [live], first, second⟩, fun none => ?_⟩
    have failuresRight := passedRight.failures
    have failuresLeft := passedLeft.failures
    dsimp only at none
    exact ⟨first.mute (firstDone (by omega)), second.mute (secondDone (by omega))⟩
  | mode m =>
    simp only [SettingAllowed, live] at allowed
    obtain ⟨allowedRight, allowedLeft⟩ := allowed
    obtain ⟨first, firstDone⟩ := setModeSide_kept .right keptRight allowedRight
    have apart := setModeSide_other env (by decide : Side.left ≠ .right) (getMode m) right s.world
    have leftBefore : Kept env left ((setModeSide env .right (getMode m) right s.world).2.dsp .left)
        s.asked s.settledLeft := by
      rw [apart]
      exact keptLeft
    obtain ⟨second, secondDone⟩ := setModeSide_kept .left leftBefore allowedLeft
    have apartLeft := setModeSide_other env (by decide : Side.right ≠ .left) (getMode m) left (setModeSide env .right (getMode m) right s.world).2
    rw [← apartLeft] at first
    have failuresRight := setModeSide_failures env .right (getMode m) right s.world
    have failuresLeft := setModeSide_failures env .left (getMode m) left
      (setModeSide env .right (getMode m) right s.world).2
    unfold sessionStep step Setting.call call tfa9887SetMode
    simp only [live]
    refine ⟨_, rfl, ⟨_, _, rfl, first, second⟩, fun none => ?_⟩
    dsimp only at none
    exact ⟨first.mute (firstDone (by omega)), second.mute (secondDone (by omega))⟩

/-! ### Runs -/

/-- In every session of allowed calls the last data that each DSP accepted are those of the recorded mode
between the calls, and a call none of whose operations fails leaves both amplifiers muted if and only if the
last tfa9887_set_mute asked for it. -/
theorem mode_matches_dsp {w : World} {s₀ s : Session} {calls : List Setting} (opened : OpenedBy env w s₀)
    (run : Run (sessionStep env) (SettingAllowed env) s₀ calls s) :
    (∃ right left, s.world.amps = .allocated right left ∧
      Matches env right s.world.right ∧ Matches env left s.world.left) ∧
    ∀ c, SettingAllowed env s c → ∃ s', sessionStep env s c = some s' ∧
      (s'.world.host.failures = s.world.host.failures →
        s'.world.right.muted = s'.asked ∧ s'.world.left.muted = s'.asked) := by
  have agrees : s.Agrees env := run.invariant (Session.Agrees env) (fun t c t' agrees allowed stepped => by
      obtain ⟨t'', stepped', kept, -⟩ := setting_step agrees allowed
      rw [stepped] at stepped'
      obtain rfl := Option.some.inj stepped'
      exact kept)
    (opened_agrees opened)
  constructor
  · obtain ⟨right, left, live, keptRight, keptLeft⟩ := agrees
    exact ⟨right, left, live, keptRight.data, keptLeft.data⟩
  · intro c allowed
    obtain ⟨s', stepped, -, muted⟩ := setting_step agrees allowed
    exact ⟨s', stepped, muted⟩

/-! ### Concrete sessions -/

/-- The healthy device, with other data for voice than for playback. -/
def twoModes (missing : Option Nat) : Env :=
  { healthyBut missing with file := fun f => if f.stem = "/vendor/etc/tfa/voice" then [2] else [1] }

/-- The session after an open. -/
def opened (env : Env) : Session where
  world := (tfa9887Open env start).2
  asked := false
  settledRight := !(tfa9887Open env start).2.right.muted
  settledLeft := !(tfa9887Open env start).2.left.muted

theorem opened_opens {env : Env} (zero : (tfa9887Open env start).1 = 0) (both : oneSided env start = false)
    (files : (tfa9887Open env start).2.host.fileFailures = 0) : OpenedBy env start (opened env) where
  null := rfl
  returned := Prod.ext zero rfl
  both := both
  files := files
  asked := rfl
  settledRight := rfl
  settledLeft := rfl

/-- The theorem at a session with two mode switches, one that is skipped, and a mute and its end. -/
theorem mode_matches_dsp_sample : ∃ s, Run (sessionStep (twoModes none)) (SettingAllowed (twoModes none))
    (opened (twoModes none)) [.mode .inCall, .mute true, .mode .inCall, .mute false, .mode .normal] s ∧
    ∃ right left, s.world.amps = .allocated right left ∧
      Matches (twoModes none) right s.world.right ∧ Matches (twoModes none) left s.world.left := by
  have evaluates : (checked (sessionStep (twoModes none)) (SettingAllowed (twoModes none))
      [.mode .inCall, .mute true, .mode .inCall, .mute false, .mode .normal]
      (opened (twoModes none))).isSome = true := by decide +kernel
  obtain ⟨s, reached⟩ := Option.isSome_iff_exists.mp evaluates
  have run := Run.of_checked reached
  have opens : OpenedBy (twoModes none) start (opened (twoModes none)) :=
    opened_opens (by decide +kernel) (by decide +kernel) (by decide +kernel)
  exact ⟨s, run, (mode_matches_dsp opens run).1⟩

/-- Three things go wrong. The EQ file cannot be opened in a switch to voice: the right amplifier
stays with mode playback and with the preset of voice, and a switch to playback skips it. The preset
cannot be opened: the bytes of an uninitialised buffer are loaded in its place, and the mode is voice. And
a switch with a mute asked for takes it off, without a failure. -/
theorem mode_mismatch :
    (∃ s, Run (sessionStep (twoModes (some 429))) (fun _ _ => True) (opened (twoModes (some 429)))
        [.mode .inCall, .mode .normal] s ∧ OpenedBy (twoModes (some 429)) start (opened (twoModes (some 429))) ∧
      ∃ right, s.world.amps.amp .right = some right ∧ right.mode = .playback ∧
        s.world.right.loaded .preset = some [2] ∧ ¬ Matches (twoModes (some 429)) right s.world.right) ∧
    (∃ s, Run (sessionStep (twoModes (some 414))) (fun _ _ => True) (opened (twoModes (some 414)))
        [.mode .inCall] s ∧ OpenedBy (twoModes (some 414)) start (opened (twoModes (some 414))) ∧
      ∃ right, s.world.amps.amp .right = some right ∧ right.mode = .voice ∧
        ¬ Matches (twoModes (some 414)) right s.world.right) ∧
    ∃ s, Run (sessionStep (twoModes none)) (fun _ _ => True) (opened (twoModes none))
        [.mute true, .mode .inCall] s ∧ OpenedBy (twoModes none) start (opened (twoModes none)) ∧
      s.world.host.failures = 0 ∧ s.asked = true ∧ s.world.right.muted = false := by
  refine ⟨?_, ?_, ?_⟩
  -- the preset of voice stays loaded under the recorded mode playback
  · have evaluates : (([.mode .inCall, .mode .normal] : List Setting).foldlM
        (sessionStep (twoModes (some 429))) (opened (twoModes (some 429)))).map (fun s =>
          ((s.world.amps.amp .right).map Amp.mode, s.world.right.loaded .preset)) =
        some (some .playback, some [2]) := by decide +kernel
    obtain ⟨s, reached, result⟩ := Option.map_eq_some_iff.mp evaluates
    obtain ⟨table, loaded⟩ := Prod.mk.inj result
    obtain ⟨right, entry, mode⟩ := Option.map_eq_some_iff.mp table
    refine ⟨s, Run.of_foldlM (fun _ _ _ => trivial) reached,
      opened_opens (by decide +kernel) (by decide +kernel) (by decide +kernel), right, entry, mode, loaded,
      fun agrees => ?_⟩
    obtain ⟨data, known, held⟩ := agrees .preset
    rw [loaded] at held
    obtain rfl := Option.some.inj held
    rw [mode] at known
    revert known
    unfold blockData Amp.config
    cases right.isRight <;> decide
  -- the zeroes are what the unread buffer holds
  · have evaluates : (([.mode .inCall] : List Setting).foldlM
        (sessionStep (twoModes (some 414))) (opened (twoModes (some 414)))).map (fun s =>
          ((s.world.amps.amp .right).map fun a => (a.mode, a.isRight), s.world.right.loaded .preset)) =
        some (some (.voice, true), some (List.replicate 19 0)) := by decide +kernel
    obtain ⟨s, reached, result⟩ := Option.map_eq_some_iff.mp evaluates
    obtain ⟨table, loaded⟩ := Prod.mk.inj result
    obtain ⟨right, entry, mode⟩ := Option.map_eq_some_iff.mp table
    obtain ⟨mode, side⟩ := Prod.mk.inj mode
    refine ⟨s, Run.of_foldlM (fun _ _ _ => trivial) reached,
      opened_opens (by decide +kernel) (by decide +kernel) (by decide +kernel), right, entry, mode,
      fun agrees => ?_⟩
    obtain ⟨data, known, held⟩ := agrees .preset
    rw [loaded] at held
    obtain rfl := Option.some.inj held
    rw [mode] at known
    revert known
    unfold blockData Amp.config
    rw [side]
    decide
  -- nothing fails here: the mute is taken off as part of the switch
  · have evaluates : (([.mute true, .mode .inCall] : List Setting).foldlM
        (sessionStep (twoModes none)) (opened (twoModes none))).map (fun s =>
          (s.world.host.failures, s.asked, s.world.right.muted)) = some (0, true, false) := by
      decide +kernel
    obtain ⟨s, reached, result⟩ := Option.map_eq_some_iff.mp evaluates
    simp only [Prod.mk.injEq] at result
    exact ⟨s, Run.of_foldlM (fun _ _ _ => trivial) reached,
      opened_opens (by decide +kernel) (by decide +kernel) (by decide +kernel), result⟩

end Hima.Amplifier
