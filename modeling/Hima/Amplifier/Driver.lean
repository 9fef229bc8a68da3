import Hima.Amplifier.Bringup

/-!
# The entry points of tfa9887.c

The two amplifiers sit in a table that `amps` points to. Opening allocates it, closing frees it,
and closing does not set the pointer back to NULL. An access through a pointer that has no table
behind it has no outcome in C; here it ends the run as a fault.
-/
namespace Hima.Amplifier

open Hima.Fallible

/-! ### The state -/

/-- AMP_RIGHT, AMP_LEFT -/
inductive Side
  | right
  | left
  deriving DecidableEq

/-- Where the pointer `amps` points. -/
inductive Table
  | null
  | allocated (right left : Amp)
  | freed
  deriving DecidableEq

/-- `amps[i]` -/
def Table.amp : Table → Side → Option Amp
  | .allocated right _, .right => some right
  | .allocated _ left, .left => some left
  | _, _ => none

structure World where
  host : Host
  right : Dsp
  left : Dsp
  amps : Table
  /-- how often the table was allocated, and how often it was freed -/
  allocs : Nat
  frees : Nat
  deriving DecidableEq

namespace World

def dsp (w : World) : Side → Dsp
  | .right => w.right
  | .left => w.left

def port (w : World) (side : Side) : Port := ⟨w.host, w.dsp side⟩

def withPort (w : World) : Side → Port → World
  | .right, p => { w with host := p.host, right := p.dsp }
  | .left, p => { w with host := p.host, left := p.dsp }

/-- Runs a function of the driver on the amplifier of one side. -/
def on {α : Type} (w : World) (side : Side) (p : Bus α) : Except Failure α × World :=
  ((p.run (w.port side)).1, w.withPort side (p.run (w.port side)).2)

end World

/-! ### tfa9887_open -/

variable (env : Env)

/-- tfa9887_init: the messages the DSP has accepted are counted from here. -/
def init (side : Side) (w : World) : Except Failure Unit × Amp × World :=
  match w.host.openFd env with
  | (.error e, h) => (.error e.negated, ⟨-1, side = .right, .playback⟩, { w with host := h })
  | (.ok fd, h) =>
    (.ok (), ⟨fd, side = .right, .playback⟩,
      w.withPort side ⟨h, { w.dsp side with accepted := [] }⟩)

/-- A pass of the loop of tfa9887_open: its `rc`, the table entry, and the state it leaves. -/
def openSide (side : Side) (w : World) : Except Failure Unit × Amp × World :=
  match init env side w with
  | (.error e, amp, w) => (.error e, amp, w)
  | (.ok (), amp, w) => ((w.on side (openAmp env amp)).1, amp, (w.on side (openAmp env amp)).2)

/-- `rc`, which is 0 for success. -/
def rcOf : Except Failure Unit → Int
  | .ok () => 0
  | .error e => e.rc

/-- `calloc` of the table. -/
def callocTable (w : World) : Option World :=
  match env.fails w.host.clock with
  | some _ => none
  | none => some { w with host := w.host.tick, allocs := w.allocs + 1 }

def ENOMEM : Errno := ⟨12, by decide⟩

/-- tfa9887_open: there is one `rc` for both passes of the loop. -/
def tfa9887Open (w : World) : Int × World :=
  match w.amps with
  | .null =>
    match callocTable env w with
    | none => (ENOMEM.negated.rc, { w with host := w.host.failed })
    | some w =>
      match openSide env .right w with
      | (_, right, w) =>
        match openSide env .left w with
        | (rc, left, w) => (rcOf rc, { w with amps := .allocated right left })
  | _ => (EBUSY.negated.rc, w)

/-! ### The other entry points -/

/-- An access to the table where there is none. -/
inductive Fault
  | nullTable
  | freedTable
  deriving DecidableEq

/-- tfa9887_power: without a table it says so and goes on. For the first entry of a null table
read_reg still answers -ENODEV, but the message about it reads `amp->is_right`. -/
def tfa9887Power (on : Bool) (w : World) : Except Fault (Int × World) :=
  match w.amps with
  | .null => .error .nullTable
  | .freed => .error .freedTable
  | .allocated right left =>
    let w := (w.on .right (hwPower env right on)).2
    let w := (w.on .left (hwPower env left on)).2
    .ok (0, w)

/-- audio_mode_t; `other` is every value that get_mode leaves to its default. -/
inductive AudioMode
  | normal
  | inCall
  | inCommunication
  | other
  deriving DecidableEq

/-- get_mode -/
def getMode : AudioMode → Mode
  | .inCall => .voice
  | .inCommunication => .voip
  | .normal | .other => .playback

/-- A mode switch up to its first load; it fails where the amplifier cannot be locked. -/
def prepare (amp : Amp) : Bus Unit := do
  let _ ← (lockInit env amp false).attempt
  lock env amp true
  let _ ← (mute env amp .digital).attempt
  pure ()

/-- `rc == 0` -/
def succeeded : Except Failure Unit → Bool
  | .ok _ => true
  | .error _ => false

/-- The rest of a mode switch: only mode switches that were successful count, and the mute is taken
off in any case. -/
def loadMode (amp : Amp) (dspMode : Mode) : Bus Bool := do
  let rc ← (setDspMode env amp dspMode).attempt
  let _ ← (mute env amp .off).attempt
  pure (succeeded rc)

/-- A mode switch of tfa9887_set_mode; it tells whether `amp->mode` takes the new mode. -/
def switchMode (amp : Amp) (dspMode : Mode) : Bus Bool := do
  let locked ← (prepare env amp).attempt
  let switched ← (match locked with
    | .error _ => pure false
    | .ok () => loadMode env amp dspMode)
  let _ ← (lock env amp false).attempt
  pure switched

/-- A pass of the loop of tfa9887_set_mode. -/
def setModeSide (side : Side) (dspMode : Mode) (amp : Amp) (w : World) : Amp × World :=
  if dspMode = amp.mode then (amp, w)
  else
    (match (w.on side (switchMode env amp dspMode)).1 with
      | .ok true => { amp with mode := dspMode }
      | _ => amp,
     (w.on side (switchMode env amp dspMode)).2)

/-- tfa9887_set_mode -/
def tfa9887SetMode (mode : AudioMode) (w : World) : Except Fault (Int × World) :=
  match w.amps with
  | .null => .ok (ENODEV.negated.rc, w)
  | .freed => .error .freedTable
  | .allocated right left =>
    match setModeSide env .right (getMode mode) right w with
    | (right, w) =>
      match setModeSide env .left (getMode mode) left w with
      | (left, w) => .ok (0, { w with amps := .allocated right left })

/-- The mute type that tfa9887_set_mute asks for. -/
def muteOf (on : Bool) : Mute := if on then .digital else .off

/-- tfa9887_set_mute -/
def tfa9887SetMute (on : Bool) (w : World) : Except Fault (Int × World) :=
  match w.amps with
  | .null => .ok (ENODEV.negated.rc, w)
  | .freed => .error .freedTable
  | .allocated right left =>
    let w := (w.on .right (mute env right (muteOf on))).2
    let w := (w.on .left (mute env left (muteOf on))).2
    .ok (0, w)

/-- A pass of the loop of tfa9887_close. -/
def closeSide (side : Side) (amp : Amp) (w : World) : World :=
  let w := (w.on side (hwPower env amp false)).2
  { w with host := w.host.closeFd amp.fd }

/-- tfa9887_close: the pointer keeps its value. Without a table it goes on like tfa9887_power, up to
`close(amp->fd)`. -/
def tfa9887Close (w : World) : Except Fault (Int × World) :=
  match w.amps with
  | .null => .error .nullTable
  | .freed => .error .freedTable
  | .allocated right left =>
    let w := closeSide env .left left (closeSide env .right right w)
    .ok (0, { w with amps := .freed, frees := w.frees + 1 })

/-! ### Calls -/

inductive Call
  | open_
  | power (on : Bool)
  | setMode (mode : AudioMode)
  | setMute (on : Bool)
  | close
  deriving DecidableEq

/-- A call's result and the state after it, or the fault it runs into. -/
def call (w : World) : Call → Except Fault (Int × World)
  | .open_ => .ok (tfa9887Open env w)
  | .power on => tfa9887Power env on w
  | .setMode mode => tfa9887SetMode env mode w
  | .setMute on => tfa9887SetMute env on w
  | .close => tfa9887Close env w

/-- The state after a call that has one. -/
def step (w : World) (c : Call) : Option World :=
  match call env w c with
  | .ok (_, w') => some w'
  | .error _ => none

end Hima.Amplifier
