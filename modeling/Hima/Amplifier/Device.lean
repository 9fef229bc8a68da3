import Mathlib.Data.List.Infix
import Hima.Lib.Fallible

/-!
# The amplifier device behind tfa9887.c

Each amplifier is an I2C device with its own node and its own DSP. This module has what the driver
talks to: the DSP as far as the driver's requests change it, the descriptors of the process, and
the operations that can fail. Which operations fail, what the registers read and which
messages the DSP takes is the environment's choice at every operation; the operations are numbered
in the order in which the driver asks for them.
-/
namespace Hima.Amplifier

open Hima.Fallible

abbrev Byte := BitVec 8

/-! ### Registers and their bits -/

namespace Reg

def STATUS : Byte := 0x00
def REVISIONNUMBER : Byte := 0x03
def I2S_CONTROL : Byte := 0x04
def BAT_PROT : Byte := 0x05
def AUDIO_CONTROL : Byte := 0x06
def DCDCBOOST : Byte := 0x07
def SPKR_CALIBRATION : Byte := 0x08
def SYSTEM_CONTROL : Byte := 0x09
def I2S_SEL : Byte := 0x0a
def MTPKEY2_REG : Byte := 0x0b
def PWM_CONTROL : Byte := 0x41
def CURRENTSENSE4 : Byte := 0x49
def MTP_COPY : Byte := 0x62
def CF_CONTROLS : Byte := 0x70
def CF_MAD : Byte := 0x71
def CF_MEM : Byte := 0x72
def CF_STATUS : Byte := 0x73
def MTP : Byte := 0x80

end Reg

def SYSCTRL_POWERDOWN : BitVec 16 := 0x0001
def SYSCTRL_ENBL_AMP : BitVec 16 := 0x0008
def SYSCTRL_CONFIGURED : BitVec 16 := 0x0020
def AUDIOCTRL_MUTE : BitVec 16 := 0x0020
def STATUS_VDDS : BitVec 16 := 0x0001
def STATUS_PLLS : BitVec 16 := 0x0002
def STATUS_CLKS : BitVec 16 := 0x0040
def STATUS_MTPB : BitVec 16 := 0x0100
def STATUS_ACS : BitVec 16 := 0x0800
def MTP_MTPOTC : BitVec 16 := 0x0001
def MTP_MTPEX : BitVec 16 := 0x0002
def CF_CONTROLS_RST_MSK : BitVec 16 := 0x0001
/-- The bits cf_req1 and cf_int of CF_CONTROLS, which wake the DSP. -/
def CF_CONTROLS_WAKE : BitVec 16 := 0x0110

/-! ### Results -/

/-- What `errno` holds after an operation failed. -/
structure Errno where
  code : Nat
  positive : 0 < code
  deriving DecidableEq

/-- The result of a function of the driver that is not 0. -/
structure Failure where
  rc : Int
  nonzero : rc ≠ 0
  deriving DecidableEq

def EIO : Errno := ⟨5, by decide⟩
def EBADF : Errno := ⟨9, by decide⟩
def EBUSY : Errno := ⟨16, by decide⟩
def ENODEV : Errno := ⟨19, by decide⟩
def EINVAL : Errno := ⟨22, by decide⟩

/-- `-errno`. -/
def Errno.negated (e : Errno) : Failure := ⟨-(e.code : Int), by have := e.positive; omega⟩

/-- What a failing `ioctl` returns. -/
def Failure.minusOne : Failure := ⟨-1, by decide⟩

/-! ### The DSP -/

/-- `DMEM` of a word is addressed by CF_MAD and written through CF_MEM; a write to CF_CONTROLS with
the wake bits makes the DSP take up what was written as one message. -/
structure Dsp where
  /-- the register that the last transfer addressed -/
  addressed : Byte
  mad : BitVec 16
  /-- what was written through CF_MEM since CF_MAD was set -/
  mem : List Byte
  /-- the messages the DSP has accepted since its device node was opened, the newest first -/
  accepted : List (List Byte)
  /-- the DSP refused the last message -/
  refused : Bool
  /-- AUDIO_CONTROL, as last written -/
  audio : BitVec 16
  /-- the argument of the last TFA9895_ENABLE_DSP -/
  enabled : Bool
  deriving DecidableEq

namespace Dsp

/-- The high byte of a register comes first. -/
def value : List Byte → Option (BitVec 16)
  | hi :: lo :: _ => some (hi ++ lo)
  | _ => none

/-- The DSP takes up the message in its memory. -/
def wake (accepts : Bool) (d : Dsp) : Dsp :=
  if accepts then { d with accepted := d.mem :: d.accepted, refused := false }
  else { d with refused := true }

/-- A write transfer: the register's address, then its bytes, high byte first. A transfer of the
address alone only selects the register for the reads to come. -/
def write (accepts : Bool) (bytes : List Byte) (d : Dsp) : Dsp :=
  match bytes with
  | [] => d
  | reg :: data =>
    let d := { d with addressed := reg }
    if reg = Reg.CF_MEM then { d with mem := d.mem ++ data }
    else
      match value data with
      | none => d
      | some v =>
        if reg = Reg.CF_MAD then { d with mad := v, mem := [] }
        else if reg = Reg.AUDIO_CONTROL then { d with audio := v }
        else if reg = Reg.CF_CONTROLS ∧ v &&& CF_CONTROLS_WAKE = CF_CONTROLS_WAKE then d.wake accepts
        else d

/-- The bytes that a read transfer brings when the device has `bytes` to show. The status word of
a message (CF_MEM at address 0) that the DSP refused is one of STATUS_INVALID_*, never
STATUS_OK. -/
def shows (d : Dsp) (size : Nat) (bytes : List Byte) : List Byte :=
  let bytes := (bytes ++ List.replicate size 0).take size
  if d.refused ∧ d.addressed = Reg.CF_MEM ∧ d.mad = 0 ∧ bytes.all (· == 0) then
    List.replicate (size - 1) 0 ++ [2]
  else bytes

/-- The digital mute of the amplifier. -/
def muted (d : Dsp) : Bool := d.audio &&& AUDIOCTRL_MUTE == AUDIOCTRL_MUTE

theorem accepted_wake (accepts : Bool) (d : Dsp) : d.accepted <:+ (d.wake accepts).accepted := by
  unfold wake
  split
  · exact List.suffix_cons _ _
  · exact List.suffix_refl _

theorem accepted_write (accepts : Bool) (bytes : List Byte) (d : Dsp) :
    d.accepted <:+ (d.write accepts bytes).accepted := by
  unfold write
  cases bytes with
  | nil => exact List.suffix_refl _
  | cons reg data =>
    dsimp only
    split
    · exact List.suffix_refl _
    · cases value data with
      | none => exact List.suffix_refl _
      | some v =>
        dsimp only
        split
        · exact List.suffix_refl _
        · split
          · exact List.suffix_refl _
          · split
            · exact accepted_wake accepts { d with addressed := reg }
            · exact List.suffix_refl _

end Dsp

/-! ### The environment -/

/-- The values of one line of an EQ file, as the bits of the floats. -/
abbrev EqLine := Fin 5 → BitVec 32

/-- A file by its path up to the last dot and by the suffix that `strrchr` finds there. -/
structure ParamFile where
  stem : String
  suffix : Option String
  deriving DecidableEq

structure Env where
  /-- whether operation `n` fails, and with which `errno` -/
  fails : Nat → Option Errno
  /-- what the device has to show at operation `n`, a read of so many bytes -/
  reply : Nat → Dsp → Nat → List Byte
  /-- whether the DSP accepts the message that operation `n` makes it take up -/
  accepts : Nat → Bool
  /-- the descriptor that the kernel would give out at operation `n` -/
  descriptor : Nat → Nat
  /-- what an uninitialised buffer holds at operation `n` -/
  stack : Nat → Nat → Byte
  /-- the contents of the parameter files -/
  file : ParamFile → List Byte
  /-- what `fscanf` makes of the `i`-th line of an EQ file, `none` unless it is six values -/
  scan : ParamFile → Nat → Option (Int × EqLine)
  /-- the fixed-point values that load_eq computes from the floats of a line, in C's `float` and
  `double` arithmetic; `none` when they take more than 8 bits of space -/
  lineData : EqLine → Option (Fin 6 → Int)

/-! ### The process -/

/-- What the driver's operations leave in the process. -/
structure Host where
  /-- the operations asked for so far -/
  clock : Nat
  /-- the operations that failed -/
  failures : Nat
  /-- the operations on parameter files that failed -/
  fileFailures : Nat
  /-- the descriptors the driver has opened and not closed -/
  table : List Nat
  /-- the descriptors it closed without having them open -/
  strays : List Int
  deriving DecidableEq

namespace Host

def tick (h : Host) : Host := { h with clock := h.clock + 1 }

def failed (h : Host) : Host := { h.tick with failures := h.failures + 1 }

/-- The kernel gives out a descriptor that is not in use. -/
def unused (env : Env) (h : Host) : Nat :=
  if env.descriptor h.clock ∈ h.table then h.table.foldr max 0 + 1 else env.descriptor h.clock

/-- `open` -/
def openFd (env : Env) (h : Host) : Except Errno Nat × Host :=
  match env.fails h.clock with
  | some e => (.error e, h.failed)
  | none => (.ok (h.unused env), { h.tick with table := h.unused env :: h.table })

/-- `close`: on -1 it is EBADF and no descriptor is closed. -/
def closeFd (fd : Int) (h : Host) : Host :=
  if fd < 0 then h.tick
  else if fd.toNat ∈ h.table then { h.tick with table := h.table.erase fd.toNat }
  else { h.tick with strays := fd :: h.strays }

/-- An operation on a parameter file. -/
def fileOp (env : Env) (h : Host) : Except Errno Unit × Host :=
  match env.fails h.clock with
  | some e => (.error e, { h.failed with fileFailures := h.fileFailures + 1 })
  | none => (.ok (), h.tick)

/-- `open` or `fopen` of a parameter file. -/
def openFile (env : Env) (h : Host) : Except Errno Nat × Host :=
  match h.openFd env with
  | (.error e, h') => (.error e, { h' with fileFailures := h.fileFailures + 1 })
  | (.ok fd, h') => (.ok fd, h')

theorem le_max (l : List Nat) : ∀ n ∈ l, n ≤ l.foldr max 0 := by
  induction l with
  | nil => simp
  | cons m l ih =>
    intro n member
    rcases List.mem_cons.mp member with rfl | member
    · exact Nat.le_max_left _ _
    · exact Nat.le_trans (ih n member) (Nat.le_max_right _ _)

theorem unused_fresh (env : Env) (h : Host) : h.unused env ∉ h.table := by
  unfold unused
  split
  · intro member
    have bound := le_max h.table _ member
    omega
  · assumption

/-- What every program of the driver keeps: time and the counts of failures go on, the descriptors are
those it found, and it closed no other. -/
structure Passes (h h' : Host) : Prop where
  clock : h.clock ≤ h'.clock
  failures : h.failures ≤ h'.failures
  fileFailures : h.fileFailures ≤ h'.fileFailures
  table : h'.table = h.table
  strays : h'.strays = h.strays

theorem Passes.refl (h : Host) : Passes h h := ⟨le_refl _, le_refl _, le_refl _, rfl, rfl⟩

theorem Passes.trans {h h' h'' : Host} (first : Passes h h') (second : Passes h' h'') :
    Passes h h'' where
  clock := le_trans first.clock second.clock
  failures := le_trans first.failures second.failures
  fileFailures := le_trans first.fileFailures second.fileFailures
  table := second.table.trans first.table
  strays := second.strays.trans first.strays

theorem passes_tick (h : Host) : Passes h h.tick :=
  ⟨Nat.le_succ _, le_refl _, le_refl _, rfl, rfl⟩

theorem passes_failed (h : Host) : Passes h h.failed :=
  ⟨Nat.le_succ _, Nat.le_succ _, le_refl _, rfl, rfl⟩

theorem passes_fileOp (env : Env) (h : Host) : Passes h (h.fileOp env).2 := by
  unfold fileOp
  split
  · exact ⟨Nat.le_succ _, Nat.le_succ _, Nat.le_succ _, rfl, rfl⟩
  · exact passes_tick h

end Host

/-! ### Requests to one amplifier -/

/-- The process together with the DSP behind one device node. -/
structure Port where
  host : Host
  dsp : Dsp
  deriving DecidableEq

/-- Programs on one amplifier move up: their descriptors are balanced, and what the DSP has accepted is
not taken back. -/
instance : Preorder Port where
  le p q := p.host.Passes q.host ∧ p.dsp.accepted <:+ q.dsp.accepted
  le_refl p := ⟨Host.Passes.refl _, List.suffix_refl _⟩
  le_trans _ _ _ first second := ⟨first.1.trans second.1, first.2.trans second.2⟩

theorem Port.failures_monotone : Monotone fun p : Port => p.host.failures :=
  fun _ _ above => above.1.failures

/-- A function of the driver on one amplifier; a result other than 0 is a failure. -/
abbrev Bus := Prog Port Failure

theorem fileFailures_le {α : Type} {program : Bus α} {p q : Port} {r : Except Failure α}
    (ran : program.run p = (r, q)) : p.host.fileFailures ≤ q.host.fileFailures :=
  (Prog.up_of_run ran).1.fileFailures

inductive Mode
  | playback
  | voice
  | voip
  deriving DecidableEq

/-- tfa9887_amp_t -/
structure Amp where
  fd : Int
  isRight : Bool
  mode : Mode
  deriving DecidableEq

/-- `ioctl(amp->fd, …)`, where `effect` is what the request does when it goes through and `fault` the
result that the caller makes of a failure. -/
def ioctl {α : Type} (env : Env) (amp : Amp) (fault : Errno → Failure) (effect : Nat → Dsp → α × Dsp)
    (grows : ∀ n d, d.accepted <:+ (effect n d).2.accepted) : Bus α where
  run p :=
    match if amp.fd < 0 then some EBADF else env.fails p.host.clock with
    | some e => (.error (fault e), ⟨p.host.failed, p.dsp⟩)
    | none => (.ok (effect p.host.clock p.dsp).1, ⟨p.host.tick, (effect p.host.clock p.dsp).2⟩)
  up p := by
    split
    · exact ⟨p.host.passes_failed, List.suffix_refl _⟩
    · exact ⟨p.host.passes_tick, grows _ _⟩

section ioctl

variable {α : Type} {env : Env} {amp : Amp} {fault : Errno → Failure} {effect : Nat → Dsp → α × Dsp}
  {grows : ∀ n d, d.accepted <:+ (effect n d).2.accepted}

theorem ioctl_ok {p q : Port} {a : α} (ran : (ioctl env amp fault effect grows).run p = (.ok a, q)) :
    a = (effect p.host.clock p.dsp).1 ∧ q.dsp = (effect p.host.clock p.dsp).2 ∧ q.host = p.host.tick := by
  unfold ioctl at ran
  dsimp only at ran
  split at ran
  · cases ran
  · cases ran
    exact ⟨rfl, rfl, rfl⟩

theorem ioctl_error {p q : Port} {e : Failure}
    (ran : (ioctl env amp fault effect grows).run p = (.error e, q)) : q.dsp = p.dsp := by
  unfold ioctl at ran
  dsimp only at ran
  split at ran
  · cases ran
    rfl
  · cases ran

theorem ioctl_spec {I E : Dsp → Prop} {Q : α → Dsp → Prop}
    (does : ∀ n d, I d → Q (effect n d).1 (effect n d).2) (fails : ∀ d, I d → E d) :
    Prog.Triple (fun p => I p.dsp) (ioctl env amp fault effect grows) (fun a p => Q a p.dsp)
      fun p => E p.dsp := by
  apply Prog.Triple.of_runs
  · intro p a q start ran
    obtain ⟨rfl, effected, -⟩ := ioctl_ok ran
    rw [effected]
    exact does _ _ start
  · intro p e q start ran
    rw [ioctl_error ran]
    exact fails _ start

theorem counted_ioctl : Prog.Counted (fun p => p.host.failures) (ioctl env amp fault effect grows) := by
  intro p q e ran
  unfold ioctl at ran
  dsimp only at ran
  split at ran
  · cases ran
    exact Nat.lt_succ_self _
  · cases ran

end ioctl

theorem accepted_same (_n : Nat) (d : Dsp) : d.accepted <:+ d.accepted := List.suffix_refl _

variable (env : Env) (amp : Amp)

/-- TFA9895_WRITE_CONFIG -/
def writeConfig (bytes : List Byte) : Bus Unit :=
  ioctl env amp (fun _ => .minusOne) (fun n d => ((), d.write (env.accepts n) bytes))
    fun _ d => d.accepted_write _ bytes

/-- TFA9895_READ_CONFIG -/
def readConfig (size : Nat) : Bus (List Byte) :=
  ioctl env amp (fun _ => .minusOne) (fun n d => (d.shows size (env.reply n d size), d)) accepted_same

end Hima.Amplifier
