import Hima.Lib.Register
import Mathlib.Data.List.Induction

/-!
# Light

The light HAL: `setLight` keeps the state asked for of each light and writes the control nodes of the
two LEDs. A node stands behind an `ofstream`: what is put into it reaches the node with the end of the
line. A line without a number brings no value.
-/
namespace Hima.Lights

/-- The lights of the HAL's interface. -/
inductive LightType
  | backlight
  | keyboard
  | buttons
  | battery
  | notifications
  | attention
  | bluetooth
  | wifi
deriving DecidableEq, Repr

inductive Flash
  | none
  | timed
  | hardware
deriving DecidableEq, Repr

structure LightState where
  color : UInt32
  flashMode : Flash := .none
  flashOnMs : Int := 0
deriving DecidableEq, Repr

inductive Status
  | success
  | lightNotSupported
deriving DecidableEq, Repr

/-! ### Control nodes -/

/-- A node with its stream: the numbers put into the line under way, and the last line that reached
the node with a number in it. -/
structure Node where
  line : List Nat := []
  written : Option (List Nat) := none
deriving DecidableEq, Repr

/-- `node << value` -/
def Node.put (n : Node) (value : Nat) : Node := { n with line := n.line ++ [value] }

/-- `node << std::endl`. It is assumed that an empty line brings the node no value and leaves the stream good. -/
def Node.endl (n : Node) : Node :=
  { line := [], written := if n.line = [] then n.written else some n.line }

structure Light where
  mBacklight : Node := {}
  mAmberLed : Node := {}
  mGreenLed : Node := {}
  mAmberBlink : Node := {}
  mGreenBlink : Node := {}
  mAttentionState : LightState
  mBatteryState : LightState
  mNotificationState : LightState
deriving Repr

/-! ### Colours -/

/-- The red byte of a colour. -/
def redOf (colorRGB : UInt32) : UInt32 := (colorRGB >>> 16) &&& (0xff : UInt32)

/-- The green byte. -/
def greenOf (colorRGB : UInt32) : UInt32 := (colorRGB >>> 8) &&& (0xff : UInt32)

def rgbToBrightness (state : LightState) : UInt32 :=
  let color := state.color &&& (0x00ffffff : UInt32)
  ((77 : UInt32) * redOf color + (150 : UInt32) * greenOf color +
    (29 : UInt32) * (color &&& (0xff : UInt32))) >>> (8 : UInt32)

def isLit (state : LightState) : Bool := state.color &&& (0x00ffffff : UInt32) ≠ 0

inductive Led
  | amber
  | green
  | blank
deriving DecidableEq, Repr

def PULSE_LENGTH_ALWAYS_ON : Int := 1
def PULSE_LENGTH_NORMAL : Int := 2
def PULSE_LENGTH_LONG : Int := 3

def BLINK_MODE_OFF : Nat := 0
def BLINK_MODE_NORMAL : Nat := 1
def BLINK_MODE_LONG : Nat := 4

/-- The LED that `setSpeakerLightLockedDual` chooses: each assignment replaces the one before. -/
def dualLed (state : LightState) : Led :=
  let colorRGB := state.color &&& (0x00ffffff : UInt32)
  let color := if greenOf colorRGB ≠ 0 then Led.green else Led.blank
  if redOf colorRGB ≠ 0 then Led.amber else color

/-- The LED that `setSpeakerLightLocked` chooses: here more green than red is green. -/
def speakerLed (state : LightState) : Led :=
  let colorRGB := state.color &&& (0x00ffffff : UInt32)
  if greenOf colorRGB > redOf colorRGB then Led.green else dualLed state

/-- The blink mode and the flash mode after `setSpeakerLightLocked` has looked at the times. -/
def flashOf (state : LightState) : Nat × Flash :=
  let blinkMode := if state.flashMode = .timed then BLINK_MODE_NORMAL else BLINK_MODE_OFF
  if state.flashOnMs = PULSE_LENGTH_ALWAYS_ON then (blinkMode, .none)
  else if state.flashOnMs = PULSE_LENGTH_NORMAL then (BLINK_MODE_NORMAL, state.flashMode)
  else if state.flashOnMs = PULSE_LENGTH_LONG then (BLINK_MODE_LONG, state.flashMode)
  else (blinkMode, state.flashMode)

/-! ### The LEDs -/

namespace Light

def setSpeakerLightLocked (l : Light) (state : LightState) : Light :=
  let blinkMode := (flashOf state).1
  let l := match (flashOf state).2 with
    | .timed =>
      match speakerLed state with
      | .amber => { l with
          mAmberLed := l.mAmberLed.put 1, mGreenLed := l.mGreenLed.put 0,
          mAmberBlink := l.mAmberBlink.put blinkMode, mGreenBlink := l.mGreenBlink.put 0 }
      | .green => { l with
          mAmberLed := l.mAmberLed.put 0, mGreenLed := l.mGreenLed.put 1,
          mAmberBlink := l.mAmberBlink.put 0, mGreenBlink := l.mGreenBlink.put blinkMode }
      | .blank => { l with
          mAmberBlink := l.mAmberBlink.put 0, mGreenBlink := l.mGreenBlink.put 0 }
    | .none =>
      match speakerLed state with
      | .amber => { l with
          mAmberLed := l.mAmberLed.put 1, mGreenLed := l.mGreenLed.put 0,
          mAmberBlink := l.mAmberBlink.put 0, mGreenBlink := l.mGreenBlink.put 0 }
      | .green => { l with
          mAmberLed := l.mAmberLed.put 0, mGreenLed := l.mGreenLed.put 1,
          mAmberBlink := l.mAmberBlink.put 0, mGreenBlink := l.mGreenBlink.put 0 }
      | .blank => { l with
          mAmberLed := l.mAmberLed.put 0, mGreenLed := l.mGreenLed.put 0 }
    | .hardware => l
  { l with
    mAmberLed := l.mAmberLed.endl, mGreenLed := l.mGreenLed.endl,
    mAmberBlink := l.mAmberBlink.endl, mGreenBlink := l.mGreenBlink.endl }

/-- The notification state is not used. -/
def setSpeakerLightLockedDual (l : Light) (batteryState : LightState) : Light :=
  match dualLed batteryState with
  | .amber => { l with
      mAmberBlink := ((l.mAmberBlink.put 1).endl.put 4).endl, mGreenLed := (l.mGreenLed.put 1).endl }
  | .green => { l with
      mGreenBlink := ((l.mGreenBlink.put 1).endl.put 4).endl, mAmberLed := (l.mAmberLed.put 1).endl }
  | .blank => l

def setSpeakerBatteryLightLocked (l : Light) : Light :=
  if isLit l.mBatteryState ∧ isLit l.mNotificationState then
    l.setSpeakerLightLockedDual l.mBatteryState
  else if isLit l.mNotificationState then l.setSpeakerLightLocked l.mNotificationState
  else if isLit l.mAttentionState then l.setSpeakerLightLocked l.mAttentionState
  else if isLit l.mBatteryState then l.setSpeakerLightLocked l.mBatteryState
  else
    -- Lights off
    { l with
      mAmberLed := (l.mAmberLed.put 0).endl, mGreenLed := (l.mGreenLed.put 0).endl,
      mAmberBlink := (l.mAmberBlink.put 0).endl, mGreenBlink := (l.mGreenBlink.put 0).endl }

/-! ### Calls -/

def setAttentionLight (l : Light) (state : LightState) : Light :=
  { l with mAttentionState := state }.setSpeakerBatteryLightLocked

def setBacklight (l : Light) (state : LightState) : Light :=
  { l with mBacklight := (l.mBacklight.put (rgbToBrightness state).toNat).endl }

def setBatteryLight (l : Light) (state : LightState) : Light :=
  { l with mBatteryState := state }.setSpeakerBatteryLightLocked

def setNotificationLight (l : Light) (state : LightState) : Light :=
  { l with mNotificationState := state }.setSpeakerBatteryLightLocked

/-- The map `mLights` has the four lights of the constructor. -/
def setLight (l : Light) (type : LightType) (state : LightState) : Status × Light :=
  match type with
  | .attention => (.success, l.setAttentionLight state)
  | .backlight => (.success, l.setBacklight state)
  | .battery => (.success, l.setBatteryLight state)
  | .notifications => (.success, l.setNotificationLight state)
  | _ => (.lightNotSupported, l)

/-- The HAL after a sequence of calls. -/
def setLights (l : Light) (calls : List (LightType × LightState)) : Light :=
  calls.foldl (fun l call => (l.setLight call.1 call.2).2) l

end Light

/-!
## What the LEDs show

Each call writes some of the four control nodes, by the states asked for so far. Where it writes all
four, nothing is left of what was shown before.
-/
open Overlay

/-! ### Nodes and writes -/

inductive LedNode
  | amberLed
  | greenLed
  | amberBlink
  | greenBlink
deriving DecidableEq, Repr

namespace Light

def node (l : Light) : LedNode → Node
  | .amberLed => l.mAmberLed
  | .greenLed => l.mGreenLed
  | .amberBlink => l.mAmberBlink
  | .greenBlink => l.mGreenBlink

/-- The values of the control nodes, as last written. -/
def leds (l : Light) : LedNode → Option (List Nat) := fun i => (l.node i).written

/-- No line of a control node is under way. -/
def Idle (l : Light) : Prop := ∀ i, (l.node i).line = []

end Light

def atNodes (amberLed greenLed amberBlink greenBlink : Option Nat) : LedNode → Option (List Nat)
  | .amberLed => amberLed.map ([·])
  | .greenLed => greenLed.map ([·])
  | .amberBlink => amberBlink.map ([·])
  | .greenBlink => greenBlink.map ([·])

/-- What showing one state writes. -/
def speakerWrite (state : LightState) : LedNode → Option (List Nat) :=
  match (flashOf state).2, speakerLed state with
  | .timed, .amber => atNodes (some 1) (some 0) (some (flashOf state).1) (some 0)
  | .timed, .green => atNodes (some 0) (some 1) (some 0) (some (flashOf state).1)
  | .timed, .blank => atNodes none none (some 0) (some 0)
  | .none, .amber => atNodes (some 1) (some 0) (some 0) (some 0)
  | .none, .green => atNodes (some 0) (some 1) (some 0) (some 0)
  | .none, .blank => atNodes (some 0) (some 0) none none
  | .hardware, _ => atNodes none none none none

/-- What showing a battery state beside a notification writes. -/
def dualWrite (battery : LightState) : LedNode → Option (List Nat) :=
  match dualLed battery with
  | .amber => atNodes none (some 1) (some 4) none
  | .green => atNodes (some 1) none none (some 4)
  | .blank => atNodes none none none none

/-- The state that is shown when battery and notification do not share the LEDs. -/
def onTop (battery notification attention : LightState) : Option LightState :=
  if isLit notification then some notification
  else if isLit attention then some attention
  else if isLit battery then some battery
  else none

/-- What a call writes, by the states after it. -/
def displayWrite (battery notification attention : LightState) : LedNode → Option (List Nat) :=
  if isLit battery ∧ isLit notification then dualWrite battery
  else match onTop battery notification attention with
    | some state => speakerWrite state
    | none => atNodes (some 0) (some 0) (some 0) (some 0)

/-- The states call for all four nodes: battery and notification do not share the LEDs, and the state
shown, if there is one, has an LED and a flash mode that the HAL drives itself. -/
def Complete (battery notification attention : LightState) : Prop :=
  ¬ (isLit battery ∧ isLit notification) ∧
    ∀ state ∈ onTop battery notification attention,
      speakerLed state ≠ .blank ∧ (flashOf state).2 ≠ .hardware

variable {battery notification attention : LightState}

@[simp] theorem Node.written_endl_put {n : Node} (idle : n.line = []) (value : Nat) :
    (n.put value).endl.written = some [value] := by
  simp [Node.put, Node.endl, idle]

/-- An empty line changes nothing. -/
@[simp] theorem Node.written_endl {n : Node} (idle : n.line = []) : n.endl.written = n.written := by
  simp [Node.endl, idle]

@[simp] theorem Node.written_endl_put_endl (n : Node) (value : Nat) :
    (n.endl.put value).endl.written = some [value] :=
  Node.written_endl_put rfl value

theorem total_atNodes {a b c d : Option Nat} :
    Total (atNodes a b c d) ↔ a.isSome ∧ b.isSome ∧ c.isSome ∧ d.isSome := by
  constructor
  · intro total
    have amberLed := total .amberLed
    have greenLed := total .greenLed
    have amberBlink := total .amberBlink
    have greenBlink := total .greenBlink
    simp only [atNodes, Option.isSome_map] at amberLed greenLed amberBlink greenBlink
    exact ⟨amberLed, greenLed, amberBlink, greenBlink⟩
  · rintro ⟨amberLed, greenLed, amberBlink, greenBlink⟩ i
    cases i <;> simp only [atNodes, Option.isSome_map] <;> assumption

theorem total_speakerWrite (state : LightState) :
    Total (speakerWrite state) ↔ speakerLed state ≠ .blank ∧ (flashOf state).2 ≠ .hardware := by
  unfold speakerWrite
  cases (flashOf state).2 <;> cases speakerLed state <;> simp [total_atNodes]

theorem not_total_dualWrite (battery : LightState) : ¬ Total (dualWrite battery) := by
  unfold dualWrite
  cases dualLed battery <;> simp [total_atNodes]

theorem total_displayWrite :
    Total (displayWrite battery notification attention) ↔ Complete battery notification attention := by
  unfold displayWrite Complete
  split
  next both => exact iff_of_false (not_total_dualWrite battery) (fun complete => complete.1 both)
  next apart =>
    cases onTop battery notification attention with
    | none => simp [total_atNodes, apart]
    | some state => simp [total_speakerWrite, apart]

/-! ### One call -/

/-- The lights that share the LEDs. -/
def LightType.onLeds : LightType → Bool
  | .battery | .notifications | .attention => true
  | _ => false

namespace Light

variable {l : Light}

/-- The states of the three lights that share the LEDs. -/
def states (l : Light) : LightState × LightState × LightState :=
  (l.mBatteryState, l.mNotificationState, l.mAttentionState)

/-- What the states call for. -/
def currentWrite (l : Light) : LedNode → Option (List Nat) :=
  displayWrite l.mBatteryState l.mNotificationState l.mAttentionState

/-- `l'` shows what `write` writes, over what `l` showed. -/
structure Shows (l l' : Light) (write : LedNode → Option (List Nat)) : Prop where
  idle : l'.Idle
  states : l'.states = l.states
  leds : l'.leds = overlay write l.leds

theorem idle_iff : l.Idle ↔ l.mAmberLed.line = [] ∧ l.mGreenLed.line = [] ∧
    l.mAmberBlink.line = [] ∧ l.mGreenBlink.line = [] := by
  constructor
  · intro idle
    exact ⟨idle .amberLed, idle .greenLed, idle .amberBlink, idle .greenBlink⟩
  · rintro ⟨amberLed, greenLed, amberBlink, greenBlink⟩ i
    cases i <;> assumption

theorem leds_eq (l : Light) (i : LedNode) : l.leds i = (l.node i).written := rfl

theorem setSpeakerLightLocked_shows (idle : l.Idle) (state : LightState) :
    Shows l (l.setSpeakerLightLocked state) (speakerWrite state) := by
  obtain ⟨amberLed, greenLed, amberBlink, greenBlink⟩ := idle_iff.mp idle
  unfold setSpeakerLightLocked speakerWrite
  -- the flash mode and the LED choose the arm, on both sides
  cases (flashOf state).2 <;> cases speakerLed state <;> constructor
  -- every node ends its line, so each is idle again
  all_goals first
    | exact idle_iff.mpr ⟨rfl, rfl, rfl, rfl⟩
    | rfl
    | (funext i
       cases i <;> simp [leds_eq, node, overlay, atNodes, *])

theorem setSpeakerLightLockedDual_shows (idle : l.Idle) (battery : LightState) :
    Shows l (l.setSpeakerLightLockedDual battery) (dualWrite battery) := by
  obtain ⟨amberLed, greenLed, amberBlink, greenBlink⟩ := idle_iff.mp idle
  unfold setSpeakerLightLockedDual dualWrite
  cases dualLed battery <;> constructor
  all_goals first
    | exact idle_iff.mpr ⟨by first | rfl | assumption, by first | rfl | assumption,
        by first | rfl | assumption, by first | rfl | assumption⟩
    | rfl
    | (funext i
       cases i <;> simp [leds_eq, node, overlay, atNodes, *])

theorem setSpeakerBatteryLightLocked_shows (idle : l.Idle) :
    Shows l l.setSpeakerBatteryLightLocked l.currentWrite := by
  unfold setSpeakerBatteryLightLocked currentWrite displayWrite onTop
  split
  next => exact setSpeakerLightLockedDual_shows idle _
  next =>
    split
    next => exact setSpeakerLightLocked_shows idle _
    next =>
      split
      next => exact setSpeakerLightLocked_shows idle _
      next =>
        split
        next => exact setSpeakerLightLocked_shows idle _
        next =>
          -- Lights off
          obtain ⟨amberLed, greenLed, amberBlink, greenBlink⟩ := idle_iff.mp idle
          constructor
          · exact idle_iff.mpr ⟨rfl, rfl, rfl, rfl⟩
          · rfl
          · funext i
            cases i <;>
              simp [leds_eq, node, overlay, atNodes, amberLed, greenLed, amberBlink, greenBlink]

/-- What a call on a light does: it stores the state, and if the light shares the LEDs they show what
the states now call for. -/
structure Called (l l' : Light) (t : LightType) (state : LightState) : Prop where
  idle : l'.Idle
  battery : l'.mBatteryState = if t = .battery then state else l.mBatteryState
  notification : l'.mNotificationState = if t = .notifications then state else l.mNotificationState
  attention : l'.mAttentionState = if t = .attention then state else l.mAttentionState
  leds : l'.leds = if t.onLeds then overlay l'.currentWrite l.leds else l.leds

/-- The call on a light that shares the LEDs, from the state it has stored. -/
theorem Shows.called {t : LightType} {state : LightState} {l' stored : Light} (onLeds : t.onLeds = true)
    (displayed : Shows stored l' stored.currentWrite) (node : stored.node = l.node)
    (battery : stored.mBatteryState = if t = .battery then state else l.mBatteryState)
    (notification : stored.mNotificationState = if t = .notifications then state else l.mNotificationState)
    (attention : stored.mAttentionState = if t = .attention then state else l.mAttentionState) :
    Called l l' t state := by
  obtain ⟨idle, states, leds⟩ := displayed
  simp only [Light.states, Prod.mk.injEq] at states
  obtain ⟨sameBattery, sameNotification, sameAttention⟩ := states
  have before : stored.leds = l.leds := by
    funext i
    rw [leds_eq, leds_eq, node]
  refine ⟨idle, sameBattery.trans battery, sameNotification.trans notification,
    sameAttention.trans attention, ?_⟩
  rw [if_pos onLeds, leds, before, currentWrite, currentWrite, sameBattery, sameNotification, sameAttention]

theorem setLight_called (idle : l.Idle) (t : LightType) (state : LightState) :
    Called l (l.setLight t state).2 t state := by
  -- storing a state writes no node
  have stored := idle_iff.mp idle
  cases t with
  | battery =>
    have displayed := setSpeakerBatteryLightLocked_shows
      (l := { l with mBatteryState := state }) (idle_iff.mpr stored)
    exact displayed.called rfl (by funext i; cases i <;> rfl) rfl rfl rfl
  | notifications =>
    have displayed := setSpeakerBatteryLightLocked_shows
      (l := { l with mNotificationState := state }) (idle_iff.mpr stored)
    exact displayed.called rfl (by funext i; cases i <;> rfl) rfl rfl rfl
  | attention =>
    have displayed := setSpeakerBatteryLightLocked_shows
      (l := { l with mAttentionState := state }) (idle_iff.mpr stored)
    exact displayed.called rfl (by funext i; cases i <;> rfl) rfl rfl rfl
  | backlight => exact ⟨idle_iff.mpr stored, rfl, rfl, rfl, by funext i; cases i <;> rfl⟩
  | keyboard => exact ⟨idle, rfl, rfl, rfl, rfl⟩
  | buttons => exact ⟨idle, rfl, rfl, rfl, rfl⟩
  | bluetooth => exact ⟨idle, rfl, rfl, rfl, rfl⟩
  | wifi => exact ⟨idle, rfl, rfl, rfl, rfl⟩

end Light

/-! ### Sequences of calls -/

/-- The state last asked for, if the light was set at all. -/
def latest (calls : List (LightType × LightState)) (type : LightType) : Option LightState :=
  calls.foldl (fun last call => if call.1 = type then some call.2 else last) none

theorem latest_append (calls : List (LightType × LightState)) (t type : LightType) (state : LightState) :
    latest (calls ++ [(t, state)]) type = if t = type then some state else latest calls type := by
  simp [latest, List.foldl_append]

namespace Light

variable {l start : Light} {calls calls' : List (LightType × LightState)}

theorem setLights_append (l : Light) (calls : List (LightType × LightState)) (t : LightType)
    (state : LightState) :
    l.setLights (calls ++ [(t, state)]) = ((l.setLights calls).setLight t state).2 := by
  simp [setLights, List.foldl_append]

/-- What is known of the HAL after the calls: its states are the latest ones, and the nodes show what
these call for over something earlier, or were not written. -/
structure Follows (start : Light) (calls : List (LightType × LightState)) (l : Light) : Prop where
  idle : l.Idle
  battery : l.mBatteryState = (latest calls .battery).getD start.mBatteryState
  notification : l.mNotificationState = (latest calls .notifications).getD start.mNotificationState
  attention : l.mAttentionState = (latest calls .attention).getD start.mAttentionState
  shown : (∃ t : LightType, t.onLeds ∧ (latest calls t).isSome) →
    ∃ cells, l.leds = overlay l.currentWrite cells
  untouched : (∀ t : LightType, t.onLeds → latest calls t = none) → l.leds = start.leds

theorem Follows.setLight (follows : Follows start calls l) (t : LightType) (state : LightState) :
    Follows start (calls ++ [(t, state)]) (l.setLight t state).2 := by
  obtain ⟨idle, battery, notification, attention, shown, untouched⟩ := follows
  have called := setLight_called idle t state
  refine ⟨called.idle, ?_, ?_, ?_, ?_, ?_⟩
  · rw [called.battery, latest_append, battery]
    split <;> rfl
  · rw [called.notification, latest_append, notification]
    split <;> rfl
  · rw [called.attention, latest_append, attention]
    split <;> rfl
  · rintro ⟨type, onLeds, set⟩
    rw [called.leds]
    split
    next => exact ⟨l.leds, rfl⟩
    next off =>
      -- an earlier call put on what is shown, and the states are still those
      have ne : t ≠ type := fun same => off (same ▸ onLeds)
      rw [latest_append, if_neg ne] at set
      obtain ⟨cells, leds⟩ := shown ⟨type, onLeds, set⟩
      refine ⟨cells, leds.trans ?_⟩
      have kept : ∀ u : LightType, u.onLeds → t ≠ u := fun u onLeds same => off (same ▸ onLeds)
      rw [currentWrite, currentWrite, called.battery, called.notification, called.attention,
        if_neg (kept _ rfl), if_neg (kept _ rfl), if_neg (kept _ rfl)]
  · intro never
    have off : ¬ t.onLeds = true := by
      intro onLeds
      have none := never t onLeds
      rw [latest_append, if_pos rfl] at none
      cases none
    rw [called.leds, if_neg off]
    apply untouched
    intro type onLeds
    have none := never type onLeds
    have ne : t ≠ type := fun same => off (same ▸ onLeds)
    rwa [latest_append, if_neg ne] at none

theorem setLights_follows (idle : start.Idle) (calls : List (LightType × LightState)) :
    Follows start calls (start.setLights calls) := by
  induction calls using List.reverseRecOn with
  | nil =>
    refine ⟨idle, rfl, rfl, rfl, ?_, fun _ => rfl⟩
    rintro ⟨t, _, set⟩
    cases set
  | append_singleton calls call ih =>
    rw [setLights_append]
    exact ih.setLight call.1 call.2

theorem leds_append (idle : start.Idle) (calls : List (LightType × LightState)) {t : LightType}
    (state : LightState) (onLeds : t.onLeds = true) :
    (start.setLights (calls ++ [(t, state)])).leds = overlay (displayWrite
          ((latest (calls ++ [(t, state)]) .battery).getD start.mBatteryState)
          ((latest (calls ++ [(t, state)]) .notifications).getD start.mNotificationState)
          ((latest (calls ++ [(t, state)]) .attention).getD start.mAttentionState))
        (start.setLights calls).leds := by
  have before := setLights_follows idle calls
  have after := setLights_follows idle (calls ++ [(t, state)])
  have called := setLight_called before.idle t state
  rw [setLights_append] at after ⊢
  rw [called.leds, if_pos onLeds, currentWrite, after.battery, after.notification, after.attention]

/-- The HAL as it is constructed. The constructor leaves the states to what the memory holds. -/
def construct (attention battery notification : LightState) : Light where
  mAttentionState := attention
  mBatteryState := battery
  mNotificationState := notification

theorem idle_construct (a b n : LightState) : (construct a b n).Idle :=
  idle_iff.mpr ⟨rfl, rfl, rfl, rfl⟩

end Light

open Light

/-! ### History independence -/

/-- The sequences have set the same lights among those that share the LEDs, and each of them to the same
state last. -/
def SameLatest (calls calls' : List (LightType × LightState)) : Prop :=
  ∀ t : LightType, t.onLeds → latest calls t = latest calls' t

/-- The sequence has set all lights that share the LEDs, and last to these states. -/
structure SetTo (calls : List (LightType × LightState))
    (battery notification attention : LightState) : Prop where
  battery : latest calls .battery = some battery
  notification : latest calls .notifications = some notification
  attention : latest calls .attention = some attention

variable {start : Light} {calls calls' : List (LightType × LightState)}

/-- Where the states call for all nodes, the nodes depend on the states alone. -/
theorem SameLatest.leds (idle : start.Idle) (same : SameLatest calls calls')
    (complete : (∃ t : LightType, t.onLeds ∧ (latest calls t).isSome) →
      Complete (start.setLights calls).mBatteryState (start.setLights calls).mNotificationState
        (start.setLights calls).mAttentionState) :
    (start.setLights calls).leds = (start.setLights calls').leds := by
  have follows := setLights_follows idle calls
  have follows' := setLights_follows idle calls'
  by_cases set : ∃ t : LightType, t.onLeds ∧ (latest calls t).isSome
  · have total := total_displayWrite.mpr (complete set)
    obtain ⟨cells, leds⟩ := follows.shown set
    obtain ⟨t, onLeds, given⟩ := set
    obtain ⟨cells', leds'⟩ := follows'.shown ⟨t, onLeds, same t onLeds ▸ given⟩
    have write : (start.setLights calls').currentWrite = (start.setLights calls).currentWrite := by
      rw [currentWrite, currentWrite, follows.battery, follows.notification, follows.attention,
        follows'.battery, follows'.notification, follows'.attention, same _ rfl, same _ rfl,
        same _ rfl]
    rw [leds, leds', write]
    exact overlay_eq_of_total total
  · -- no call has concerned the LEDs
    have never : ∀ t : LightType, t.onLeds → latest calls t = none := by
      intro t onLeds
      rw [← Option.not_isSome_iff_eq_none]
      exact fun given => set ⟨t, onLeds, given⟩
    rw [follows.untouched never, follows'.untouched]
    intro t onLeds
    exact (same t onLeds).symm.trans (never t onLeds)

/-- What the HAL shows last lies over what the state before it showed, where that one was alone. -/
theorem leds_over (idle : start.Idle) (calls : List (LightType × LightState)) {t : LightType}
    {x state : LightState} (onLeds : t.onLeds = true) (total : Total (speakerWrite x)) (alone : displayWrite
      ((latest (calls ++ [(t, x)]) .battery).getD start.mBatteryState)
      ((latest (calls ++ [(t, x)]) .notifications).getD start.mNotificationState)
      ((latest (calls ++ [(t, x)]) .attention).getD start.mAttentionState) = speakerWrite x)
    {b n a : LightState} (set : SetTo (calls ++ [(t, x)] ++ [(t, state)]) b n a) :
    (start.setLights (calls ++ [(t, x)] ++ [(t, state)])).leds =
      overlay (displayWrite b n a) (speakerWrite x) := by
  rw [leds_append idle _ state onLeds, set.battery, set.notification, set.attention,
    leds_append idle calls x onLeds, alone, overlay_of_total total]
  rfl

/-- What any states show can lie over what any one lit state showed before. -/
theorem shown_over (idle : start.Idle) {x : LightState} (lit : isLit x = true)
    (total : Total (speakerWrite x)) (battery notification attention : LightState) :
    ∃ calls, SetTo calls battery notification attention ∧ (start.setLights calls).leds =
        overlay (displayWrite battery notification attention) (speakerWrite x) := by
  by_cases litN : isLit notification = true
  · by_cases litB : isLit battery = true
    · -- the notification alone first, then the battery beside it
      let off : LightState := ⟨0, .none, 0⟩
      have dark : isLit off = false := by decide
      have one := leds_append idle [(.battery, off)] (t := .notifications) x rfl
      have two := leds_append idle [(.battery, off), (.notifications, x)] (t := .battery) battery rfl
      have three := leds_append idle
        [(.battery, off), (.notifications, x), (.battery, battery)] (t := .attention) attention rfl
      have four := leds_append idle [(.battery, off), (.notifications, x), (.battery, battery),
        (.attention, attention)] (t := .notifications) notification rfl
      simp only [latest, List.cons_append, List.nil_append, List.foldl_cons, List.foldl_nil,
        reduceCtorEq, if_false, if_true, Option.getD_some, Option.getD_none] at one two three four
      refine ⟨[(.battery, off), (.notifications, x), (.battery, battery), (.attention, attention),
        (.notifications, notification)], ⟨rfl, rfl, rfl⟩, ?_⟩
      rw [four, three, two, one]
      simp only [displayWrite, onTop, lit, litN, litB, dark, Bool.false_eq_true, false_and, and_self,
        if_true, if_false]
      rw [overlay_of_total total, overlay_overlay, overlay_overlay]
    · have set : SetTo ([(.battery, battery), (.attention, attention)] ++ [(.notifications, x)] ++
          [(.notifications, notification)]) battery notification attention := ⟨rfl, rfl, rfl⟩
      refine ⟨_, set, leds_over idle _ rfl total ?_ set⟩
      simp [latest, displayWrite, onTop, lit, litB]
  · by_cases litA : isLit attention = true
    · have set : SetTo ([(.notifications, notification), (.battery, battery)] ++ [(.attention, x)] ++
          [(.attention, attention)]) battery notification attention := ⟨rfl, rfl, rfl⟩
      refine ⟨_, set, leds_over idle _ rfl total ?_ set⟩
      simp [latest, displayWrite, onTop, lit, litN]
    · have set : SetTo ([(.notifications, notification), (.attention, attention)] ++
          [(.battery, x)] ++ [(.battery, battery)]) battery notification attention := ⟨rfl, rfl, rfl⟩
      refine ⟨_, set, leds_over idle _ rfl total ?_ set⟩
      simp [latest, displayWrite, onTop, lit, litN, litA]

/-- Pure red and pure green, blinking. -/
def sampleRed : LightState := ⟨0xff0000, .timed, 0⟩
def sampleGreen : LightState := ⟨0x00ff00, .timed, 0⟩

/-- Whatever states the memory held at the start: sequences of calls with the same latest states leave
the same values in the control nodes if these states call for all four nodes, and where they do not,
some sequences that end with them leave different values. -/
theorem leds_independent_iff (attention battery notification : LightState) :
    (∀ calls calls', SameLatest calls calls' → ((∃ t : LightType, t.onLeds ∧ (latest calls t).isSome) →
        Complete ((construct attention battery notification).setLights calls).mBatteryState
          ((construct attention battery notification).setLights calls).mNotificationState
          ((construct attention battery notification).setLights calls).mAttentionState) →
      ((construct attention battery notification).setLights calls).leds =
        ((construct attention battery notification).setLights calls').leds) ∧
    ∀ b n a, (∀ calls calls', SetTo calls b n a → SetTo calls' b n a →
      ((construct attention battery notification).setLights calls).leds =
        ((construct attention battery notification).setLights calls').leds) ↔ Complete b n a := by
  have idle := idle_construct attention battery notification
  constructor
  · intro calls calls' same complete
    exact same.leds idle complete
  intro b n a
  constructor
  · intro independent
    -- the states over two colours that have no value in common
    obtain ⟨calls, set, leds⟩ := shown_over idle (x := sampleRed) (by decide)
      ((total_speakerWrite _).mpr (by decide)) b n a
    obtain ⟨calls', set', leds'⟩ := shown_over idle (x := sampleGreen) (by decide)
      ((total_speakerWrite _).mpr (by decide)) b n a
    have same := independent calls calls' set set'
    rw [leds, leds'] at same
    apply total_displayWrite.mp
    refine total_of_overlay_eq (fun i => ?_) same
    cases i <;> decide
  · intro complete calls calls' set set'
    have follows := setLights_follows idle calls
    apply SameLatest.leds idle
    · intro t onLeds
      cases t with
      | battery => rw [set.battery, set'.battery]
      | notifications => rw [set.notification, set'.notification]
      | attention => rw [set.attention, set'.attention]
      | _ => cases onLeds
    · intro _
      rwa [follows.battery, follows.notification, follows.attention, set.battery, set.notification,
        set.attention]

/-- A red battery light beside a notification: set before the notification it leaves the amber LED on,
set after it does not. -/
theorem leds_depend_on_history : ∃ calls calls', SameLatest calls calls' ∧
      ((construct sampleRed sampleRed sampleRed).setLights calls).leds ≠
        ((construct sampleRed sampleRed sampleRed).setLights calls').leds := by
  let red : LightState := ⟨0xff0000, .none, 0⟩
  let green : LightState := ⟨0x00ff00, .none, 0⟩
  let off : LightState := ⟨0, .none, 0⟩
  refine ⟨[(.attention, off), (.notifications, off), (.battery, red), (.notifications, green)],
    [(.attention, off), (.battery, off), (.notifications, green), (.battery, red)],
    fun t _ => by cases t <;> rfl, fun same => ?_⟩
  exact absurd (congrFun same .amberLed) (by decide)

end Hima.Lights
