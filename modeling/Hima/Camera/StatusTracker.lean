import Mathlib.Algebra.Group.Int.Defs
import Hima.Lib.Destutter
import Hima.Lib.KeyedVector
import Hima.Lib.Runs

/-!
# StatusTracker

The tracker that tells the camera device when it turns idle or active. Calls of other threads run in
sections under `mPendingLock` or `mLock`; a round of `threadLoop` holds both while it goes through the
queue, and neither while it notifies the device. Fences signal on their own, also in between. The
device is alive.
-/
namespace Hima.Camera3

open Runs

def INT64_MAX : Int := 2 ^ 63 - 1

/-- What the tracker uses of the fences of `libui`. -/
structure Fences (F : Type) where
  newFence : F
  NO_FENCE : F
  merge : F → F → F

/-- `getSignalTime` of every fence at a moment: `INT64_MAX` while it has not signalled, -1 if it is
invalid. -/
abbrev Moment (F : Type) := F → Int

/-- What the fences promise at every moment: the fences made here are invalid, and a merged fence
signals when both its parts have. -/
structure Fences.Lawful {F : Type} (api : Fences F) (now : Moment F) : Prop where
  newFence : now api.newFence ≠ INT64_MAX
  noFence : now api.NO_FENCE ≠ INT64_MAX
  merge : ∀ a b, now (api.merge a b) ≠ INT64_MAX ↔ now a ≠ INT64_MAX ∧ now b ≠ INT64_MAX

/-- A fence that has signalled stays so. -/
def Later {F : Type} (now later : Moment F) : Prop :=
  ∀ f, now f ≠ INT64_MAX → later f ≠ INT64_MAX

inductive ComponentState where
  | idle
  | active
  deriving DecidableEq, Repr

structure StateChange (F : Type) where
  id : Int
  state : ComponentState
  fence : F

structure StatusTracker (F : Type) where
  mPendingChangeQueue : List (StateChange F) := []
  mComponentsChanged : Bool := false
  mNextComponentId : Int := 0
  mStates : KeyedVector Int ComponentState := {}
  mIdleFence : F
  mDeviceState : ComponentState := .idle
  mStateTransitions : List ComponentState := []

/-- Where `threadLoop` is: waiting for something to do, at an element of the queue with what it
knows of the device, or at a transition it has to notify. -/
inductive Loop where
  | waiting
  | collecting (i : Nat) (prevState : ComponentState)
  | notifying (i : Nat)
  deriving DecidableEq

/-- The components, the fences merged so far and the time when the overall state was looked at. -/
structure Sample (F : Type) where
  states : KeyedVector Int ComponentState
  merged : List F
  now : Moment F

/-- The tracker among its callers. The last three fields are not the code's: the states it has notified,
the fences of the changes it has applied, and its looks at the overall state. -/
structure System (F : Type) where
  tracker : StatusTracker F
  loop : Loop := .waiting
  /-- Calls between their section under `mLock` and the one under `mPendingLock`. -/
  announcing : Nat := 0
  now : Moment F
  notified : List ComponentState := []
  merged : List F := []
  samples : List (Sample F) := []

inductive Action (F : Type) where
  /-- `addComponent`, under `mLock`. -/
  | addComponent
  /-- `removeComponent`, under `mLock`. -/
  | removeComponent (id : Int)
  /-- The section of either under `mPendingLock`. -/
  | componentsChanged
  | markComponentIdle (id : Int) (componentFence : F)
  | markComponentActive (id : Int)
  | signal (later : Moment F)
  | firstPass
  | applyChange
  | storeFinalState
  | notifyStatus
  | clearTransitions

variable {F : Type}

/-- `StatusTracker::StatusTracker`. -/
def construct (api : Fences F) : StatusTracker F := { mIdleFence := api.newFence }

namespace StatusTracker

def getDeviceStateLocked (t : StatusTracker F) (now : Moment F) : ComponentState :=
  if t.mStates.items.any (·.2 = .active) then .active
  else
    let signalTime := now t.mIdleFence
    let fencesDone := signalTime ≠ INT64_MAX
    if fencesDone then .idle else .active

def markComponent (t : StatusTracker F) (id : Int) (state : ComponentState) (componentFence : F) :
    StatusTracker F :=
  { t with mPendingChangeQueue := t.mPendingChangeQueue ++ [⟨id, state, componentFence⟩] }

/-- Collects a state of the device if it is a change. -/
def collect (t : StatusTracker F) (prevState newState : ComponentState) : StatusTracker F :=
  if newState ≠ prevState then
    { t with mStateTransitions := t.mStateTransitions ++ [newState] }
  else t

/-- A change of a known component. -/
def update (api : Fences F) (t : StatusTracker F) (idx : Nat) (change : StateChange F) :
    StatusTracker F :=
  { t with
    mStates := t.mStates.replaceValueAt idx change.state
    mIdleFence := api.merge t.mIdleFence change.fence }

end StatusTracker

namespace System

def sample (s : System F) : Sample F := ⟨s.tracker.mStates, s.merged, s.now⟩

/-- "First pass for changed components or fence completions". -/
def firstPass (s : System F) : System F :=
  let prevState := s.tracker.getDeviceStateLocked s.now
  { s with
    tracker := s.tracker.collect s.tracker.mDeviceState prevState
    loop := .collecting 0 prevState
    samples := s.samples ++ [s.sample] }

/-- One element of the queue. -/
def applyChange (api : Fences F) (s : System F) (i : Nat) (prevState : ComponentState)
    (change : StateChange F) : System F :=
  match s.tracker.mStates.indexOfKey change.id with
  -- notices for unknown components are ignored
  | none => { s with loop := .collecting (i + 1) prevState }
  | some idx =>
    let updated : System F :=
      { s with
        tracker := s.tracker.update api idx change
        merged := s.merged ++ [change.fence] }
    let newState := updated.tracker.getDeviceStateLocked s.now
    { updated with
      tracker := updated.tracker.collect prevState newState
      loop := .collecting (i + 1) newState
      samples := s.samples ++ [updated.sample] }

def storeFinalState (s : System F) (prevState : ComponentState) : System F :=
  { s with
    tracker := { s.tracker with
      mPendingChangeQueue := []
      mComponentsChanged := false
      mDeviceState := prevState }
    loop := .notifying 0 }

/-- The locks that other threads need are free. -/
def Unlocked (s : System F) : Prop := ∀ i prevState, s.loop ≠ .collecting i prevState

instance (s : System F) : Decidable s.Unlocked :=
  match h : s.loop with
  | .waiting => isTrue fun _ _ => by simp [h]
  | .collecting i prevState => isFalse fun unlocked => unlocked i prevState h
  | .notifying _ => isTrue fun _ _ => by simp [h]

def initial (api : Fences F) (now : Moment F) : System F := { tracker := construct api, now := now }

end System

/-- One section, or one step of a round. -/
def step (api : Fences F) (s : System F) : Action F → Option (System F)
  | .addComponent =>
    if s.Unlocked then
      some { s with
        tracker := { s.tracker with
          mNextComponentId := s.tracker.mNextComponentId + 1
          mStates := s.tracker.mStates.add s.tracker.mNextComponentId .idle }
        announcing := s.announcing + 1 }
    else none
  | .removeComponent id =>
    if s.Unlocked then
      let idx := s.tracker.mStates.indexOfKey id
      some { s with
        tracker := { s.tracker with mStates := s.tracker.mStates.removeItem id }
        announcing := if idx.isSome then s.announcing + 1 else s.announcing }
    else none
  | .componentsChanged =>
    if s.Unlocked ∧ 0 < s.announcing then
      some { s with
        tracker := { s.tracker with mComponentsChanged := true }
        announcing := s.announcing - 1 }
    else none
  | .markComponentIdle id componentFence =>
    if s.Unlocked then
      some { s with tracker := s.tracker.markComponent id .idle componentFence }
    else none
  | .markComponentActive id =>
    if s.Unlocked then
      some { s with tracker := s.tracker.markComponent id .active api.NO_FENCE }
    else none
  | .signal later => some { s with now := later }
  | .firstPass =>
    -- the wait before it ends with a change or with a time-out
    if s.loop = .waiting then some s.firstPass else none
  | .applyChange =>
    match s.loop with
    | .collecting i prevState =>
      s.tracker.mPendingChangeQueue[i]?.map (s.applyChange api i prevState)
    | _ => none
  | .storeFinalState =>
    match s.loop with
    | .collecting i prevState =>
      if i = s.tracker.mPendingChangeQueue.length then some (s.storeFinalState prevState) else none
    | _ => none
  | .notifyStatus =>
    match s.loop with
    | .notifying i =>
      s.tracker.mStateTransitions[i]?.map fun state =>
        { s with notified := s.notified ++ [state], loop := .notifying (i + 1) }
    | _ => none
  | .clearTransitions =>
    match s.loop with
    | .notifying i =>
      if i = s.tracker.mStateTransitions.length then
        some { s with tracker := { s.tracker with mStateTransitions := [] }, loop := .waiting }
      else none
    | _ => none

/-- Time goes on, and the fences keep their promises. -/
def Permitted (api : Fences F) (s : System F) : Action F → Prop
  | .signal later => Later s.now later ∧ api.Lawful later
  | _ => True

end Hima.Camera3

/-!
## What the device is told

Over any run the device is told every change of the overall state, in order. An idle state is told for
a moment of the round at which the device was idle, and not always at such a moment.
-/
namespace Hima.Camera3

open Runs

variable {F : Type} {api : Fences F} {s s' : System F} {a : Action F} {as : List (Action F)}

/-! ### The overall state -/

/-- The overall state at a look: active while a component is active or a fence merged so far has not
signalled. -/
def overall (x : Sample F) : ComponentState :=
  if x.states.items.any (·.2 = .active) ∨ x.merged.any (x.now · = INT64_MAX) then .active else .idle

/-- No registered component is active, and every fence merged so far has signalled. -/
def System.Quiet (s : System F) : Prop :=
  (∀ item ∈ s.tracker.mStates.items, item.2 = .idle) ∧ ∀ f ∈ s.merged, s.now f ≠ INT64_MAX

theorem ComponentState.ne_active {state : ComponentState} : state ≠ .active ↔ state = .idle := by
  cases state <;> simp

theorem overall_eq_idle : overall s.sample = .idle ↔ s.Quiet := by
  rw [← ComponentState.ne_active, overall, System.Quiet]
  simp only [System.sample, ← ComponentState.ne_active, List.any_eq_true]
  split
  next active =>
    refine iff_of_false (fun ne => ne rfl) ?_
    rintro ⟨idle, signalled⟩
    rcases active with ⟨item, member, now⟩ | ⟨f, member, now⟩
    · exact idle item member (of_decide_eq_true now)
    · exact signalled f member (of_decide_eq_true now)
  next quiet =>
    obtain ⟨idle, signalled⟩ := not_or.mp quiet
    refine iff_of_true nofun ⟨?_, ?_⟩
    · exact fun item member now => idle ⟨item, member, decide_eq_true now⟩
    · exact fun f member now => signalled ⟨f, member, decide_eq_true now⟩

/-- The merged fence stands for the fences it was merged from. -/
def Merged (api : Fences F) (fence : F) (merged : List F) : Prop :=
  ∀ now, api.Lawful now → (now fence ≠ INT64_MAX ↔ ∀ f ∈ merged, now f ≠ INT64_MAX)

theorem Merged.concat {fence : F} {merged : List F} (h : Merged api fence merged) (f : F) :
    Merged api (api.merge fence f) (merged ++ [f]) := by
  intro now lawful
  rw [lawful.merge, h now lawful]
  simp [or_imp, forall_and]

theorem getDeviceStateLocked_eq (lawful : api.Lawful s.now)
    (fences : Merged api s.tracker.mIdleFence s.merged) :
    s.tracker.getDeviceStateLocked s.now = overall s.sample := by
  rw [StatusTracker.getDeviceStateLocked, overall, System.sample]
  by_cases active : s.tracker.mStates.items.any (·.2 = .active)
  · simp only [active, if_true, true_or]
  · have signalled := fences s.now lawful
    by_cases pending : s.merged.any (s.now · = INT64_MAX)
    · have unsignalled : ¬ s.now s.tracker.mIdleFence ≠ INT64_MAX := by
        intro done
        obtain ⟨f, member, now⟩ := List.any_eq_true.mp pending
        exact signalled.mp done f member (of_decide_eq_true now)
      simp only [active, pending, unsignalled, if_true, or_true, Bool.false_eq_true, if_false]
    · have done : s.now s.tracker.mIdleFence ≠ INT64_MAX := by
        apply signalled.mpr
        intro f member now
        exact pending (List.any_eq_true.mpr ⟨f, member, decide_eq_true now⟩)
      simp only [active, pending, done, ne_eq, not_false_eq_true, if_true, or_self,
        Bool.false_eq_true, if_false]

/-! ### The invariant -/

/-- The overall state at the last look. -/
def System.latest (s : System F) : ComponentState :=
  match s.loop with
  | .collecting _ prevState => prevState
  | _ => s.tracker.mDeviceState

/-- The changes that have been collected and not yet told. -/
def System.left (s : System F) : List ComponentState :=
  match s.loop with
  | .notifying i => s.tracker.mStateTransitions.drop i
  | _ => s.tracker.mStateTransitions

/-- The states at all looks at the device. -/
def System.states (s : System F) : List ComponentState := s.samples.map overall

structure Inv (api : Fences F) (s : System F) : Prop where
  lawful : api.Lawful s.now
  fences : Merged api s.tracker.mIdleFence s.merged
  history : .idle :: s.notified ++ s.left = s.states.destutter' (· ≠ ·) .idle
  current : s.states.getLastD .idle = s.latest
  quiet : s.latest = .idle → s.Quiet
  told : s.loop = .waiting → s.tracker.mStateTransitions = []

theorem inv_initial {now : Moment F} (lawful : api.Lawful now) : Inv api (System.initial api now) where
  lawful := lawful
  fences _ lawful := iff_of_true lawful.newFence nofun
  history := rfl
  current := rfl
  quiet _ := ⟨nofun, nofun⟩
  told _ := rfl

/-- What a step of another thread leaves alone. -/
structure Beside (s s' : System F) : Prop where
  loop : s'.loop = s.loop
  fence : s'.tracker.mIdleFence = s.tracker.mIdleFence
  state : s'.tracker.mDeviceState = s.tracker.mDeviceState
  transitions : s'.tracker.mStateTransitions = s.tracker.mStateTransitions
  notified : s'.notified = s.notified
  merged : s'.merged = s.merged
  samples : s'.samples = s.samples

theorem Inv.beside (h : Inv api s) (beside : Beside s s') (lawful : api.Lawful s'.now)
    (quiet : s.Quiet → s'.Quiet) : Inv api s' := by
  have latest : s'.latest = s.latest := by rw [System.latest, System.latest, beside.loop, beside.state]
  have left : s'.left = s.left := by rw [System.left, System.left, beside.loop, beside.transitions]
  have states : s'.states = s.states := by rw [System.states, System.states, beside.samples]
  refine ⟨lawful, ?_, ?_, ?_, ?_, ?_⟩
  · rw [beside.fence, beside.merged]
    exact h.fences
  · rw [beside.notified, left, states]
    exact h.history
  · rw [states, latest]
    exact h.current
  · rw [latest]
    exact fun idle => quiet (h.quiet idle)
  · rw [beside.loop, beside.transitions]
    exact h.told

/-! ### One look -/

@[simp] theorem collect_mStates (t : StatusTracker F) (prevState newState : ComponentState) :
    (t.collect prevState newState).mStates = t.mStates := by
  rw [StatusTracker.collect]
  split <;> rfl

@[simp] theorem collect_mIdleFence (t : StatusTracker F) (prevState newState : ComponentState) :
    (t.collect prevState newState).mIdleFence = t.mIdleFence := by
  rw [StatusTracker.collect]
  split <;> rfl

theorem collect_mStateTransitions (t : StatusTracker F) (prevState newState : ComponentState) :
    (t.collect prevState newState).mStateTransitions =
      if prevState = newState then t.mStateTransitions else t.mStateTransitions ++ [newState] := by
  rw [StatusTracker.collect]
  by_cases same : newState = prevState
  · rw [if_neg (not_not.mpr same), if_pos same.symm]
  · rw [if_pos same, if_neg (Ne.symm same)]

/-- A look at a system whose changes so far are recorded, with the change it may show collected. -/
theorem Inv.look {u : System F} {i : Nat} (h : Inv api s) (lawful : api.Lawful u.now)
    (fences : Merged api u.tracker.mIdleFence u.merged)
    (left : s.left = u.tracker.mStateTransitions) (notified : u.notified = s.notified)
    (samples : u.samples = s.samples) :
    Inv api { u with
      tracker := u.tracker.collect s.latest (u.tracker.getDeviceStateLocked u.now)
      loop := .collecting i (u.tracker.getDeviceStateLocked u.now)
      samples := u.samples ++ [u.sample] } := by
  rw [getDeviceStateLocked_eq lawful fences]
  have states : ∀ v : System F, v.samples = u.samples ++ [u.sample] →
      v.states = s.states ++ [overall u.sample] := by
    intro v eq
    rw [System.states, eq, samples, List.map_append, List.map_singleton, System.states]
  refine ⟨lawful, ?_, ?_, ?_, ?_, nofun⟩
  · simp only [collect_mIdleFence]
    exact fences
  · rw [states _ rfl, List.destutter'_ne_concat, h.current, ← h.history, left]
    simp only [System.left, collect_mStateTransitions, notified]
    split
    · rfl
    · rw [← List.append_assoc]
  · rw [states _ rfl, List.getLastD_concat]
    rfl
  · intro idle
    have quiet : u.Quiet := overall_eq_idle.mp idle
    simpa only [System.Quiet, collect_mStates] using quiet

theorem Inv.firstPass (h : Inv api s) (waiting : s.loop = .waiting) : Inv api s.firstPass := by
  have latest : s.latest = s.tracker.mDeviceState := by rw [System.latest, waiting]
  have left : s.left = s.tracker.mStateTransitions := by rw [System.left, waiting]
  have look := h.look (i := 0) h.lawful h.fences left rfl rfl
  rwa [latest] at look

theorem Inv.applyChange {i : Nat} {prevState : ComponentState} (h : Inv api s)
    (collecting : s.loop = .collecting i prevState) (change : StateChange F) :
    Inv api (s.applyChange api i prevState change) := by
  have latest : s.latest = prevState := by rw [System.latest, collecting]
  have left : s.left = s.tracker.mStateTransitions := by rw [System.left, collecting]
  rw [System.applyChange]
  split
  · refine ⟨h.lawful, h.fences, ?_, ?_, ?_, nofun⟩
    · have history := h.history
      rw [left] at history
      exact history
    · exact h.current.trans latest
    · exact fun idle => h.quiet (latest.trans idle)
  · next idx _ =>
    have look := h.look (i := i + 1) (u := { s with
        tracker := s.tracker.update api idx change
        merged := s.merged ++ [change.fence] })
      h.lawful (h.fences.concat change.fence) left rfl rfl
    rwa [latest] at look

/-! ### Runs -/

theorem Inv.step (h : Inv api s) (permitted : Permitted api s a) (stepped : step api s a = some s') :
    Inv api s' := by
  cases a with
  | addComponent =>
    -- the loop is not concerned; the quiet of an idle system has to hold of one more component
    obtain ⟨-, ⟨⟩⟩ := Option.ite_none_right_eq_some.mp stepped
    refine h.beside ⟨rfl, rfl, rfl, rfl, rfl, rfl, rfl⟩ h.lawful ?_
    rintro ⟨idle, signalled⟩
    refine ⟨?_, signalled⟩
    intro item member
    rcases KeyedVector.mem_add member with rfl | old
    · rfl
    · exact idle item old
  | removeComponent id =>
    obtain ⟨-, ⟨⟩⟩ := Option.ite_none_right_eq_some.mp stepped
    refine h.beside ⟨rfl, rfl, rfl, rfl, rfl, rfl, rfl⟩ h.lawful ?_
    rintro ⟨idle, signalled⟩
    exact ⟨fun item member => idle item (KeyedVector.mem_removeItem member), signalled⟩
  | componentsChanged =>
    obtain ⟨-, ⟨⟩⟩ := Option.ite_none_right_eq_some.mp stepped
    exact h.beside ⟨rfl, rfl, rfl, rfl, rfl, rfl, rfl⟩ h.lawful fun quiet => quiet
  | markComponentIdle id componentFence =>
    obtain ⟨-, ⟨⟩⟩ := Option.ite_none_right_eq_some.mp stepped
    exact h.beside ⟨rfl, rfl, rfl, rfl, rfl, rfl, rfl⟩ h.lawful fun quiet => quiet
  | markComponentActive id =>
    obtain ⟨-, ⟨⟩⟩ := Option.ite_none_right_eq_some.mp stepped
    exact h.beside ⟨rfl, rfl, rfl, rfl, rfl, rfl, rfl⟩ h.lawful fun quiet => quiet
  | signal later =>
    obtain rfl := Option.some.inj stepped
    refine h.beside ⟨rfl, rfl, rfl, rfl, rfl, rfl, rfl⟩ permitted.2 ?_
    rintro ⟨idle, signalled⟩
    exact ⟨idle, fun f member => permitted.1 f (signalled f member)⟩
  | firstPass =>
    obtain ⟨waiting, ⟨⟩⟩ := Option.ite_none_right_eq_some.mp stepped
    exact h.firstPass waiting
  | applyChange =>
    cases loop : s.loop with
    | collecting i prevState =>
      simp only [Camera3.step, loop, Option.map_eq_some_iff] at stepped
      obtain ⟨change, -, rfl⟩ := stepped
      exact h.applyChange loop change
    | _ => simp [Camera3.step, loop] at stepped
  -- from here on the steps of the loop: what it has left of the history moves with it
  | storeFinalState =>
    cases loop : s.loop with
    | collecting i prevState =>
      simp only [Camera3.step, loop, Option.ite_none_right_eq_some, Option.some.injEq] at stepped
      obtain ⟨-, rfl⟩ := stepped
      have latest : s.latest = prevState := by rw [System.latest, loop]
      refine ⟨h.lawful, h.fences, ?_, ?_, ?_, nofun⟩
      · have history := h.history
        rw [System.left, loop] at history
        exact history
      · exact h.current.trans latest
      · exact fun idle => h.quiet (latest.trans idle)
    | _ => simp [Camera3.step, loop] at stepped
  | notifyStatus =>
    cases loop : s.loop with
    | notifying i =>
      simp only [Camera3.step, loop, Option.map_eq_some_iff] at stepped
      obtain ⟨state, next, rfl⟩ := stepped
      refine ⟨h.lawful, h.fences, ?_, ?_, ?_, nofun⟩
      · have history := h.history
        simp only [System.left, loop] at history ⊢
        obtain ⟨inside, rfl⟩ := List.getElem?_eq_some_iff.mp next
        rw [List.drop_eq_getElem_cons inside] at history
        simp only [List.cons_append, List.append_assoc, List.nil_append] at history ⊢
        exact history
      · have current := h.current
        rwa [System.latest, loop] at current
      · have quiet := h.quiet
        rwa [System.latest, loop] at quiet
    | _ => simp [Camera3.step, loop] at stepped
  | clearTransitions =>
    cases loop : s.loop with
    | notifying i =>
      simp only [Camera3.step, loop, Option.ite_none_right_eq_some, Option.some.injEq] at stepped
      obtain ⟨all, rfl⟩ := stepped
      refine ⟨h.lawful, h.fences, ?_, ?_, ?_, fun _ => rfl⟩
      · have history := h.history
        simp only [System.left, loop, all, List.drop_length] at history
        exact history
      · have current := h.current
        rwa [System.latest, loop] at current
      · have quiet := h.quiet
        rwa [System.latest, loop] at quiet
    | _ => simp [Camera3.step, loop] at stepped

/-- The last transition of a round tells the state that the tracker has stored. -/
theorem Inv.last_transition (h : Inv api s) {i : Nat} {state : ComponentState}
    (loop : s.loop = .notifying i) (next : s.tracker.mStateTransitions[i]? = some state)
    (last : i + 1 = s.tracker.mStateTransitions.length) : state = s.latest := by
  obtain ⟨inside, rfl⟩ := List.getElem?_eq_some_iff.mp next
  have left : s.left = [s.tracker.mStateTransitions[i]] := by
    simp only [System.left, loop]
    rw [List.drop_eq_getElem_cons inside, last, List.drop_length]
  have history := congrArg (List.getLastD · .idle) h.history
  rw [List.getLastD_destutter'_ne, h.current, left, List.getLastD_concat] at history
  exact history

/-- In every run from the start, whatever the batching of changes into rounds: what the device is told
alternates, beginning with active; between two rounds it has been told every change of the overall
state in order and the last is the state stored; and the last idle of a round is told at a moment when
no registered component is active and every fence merged so far has signalled. -/
theorem status_notifications {start : Moment F} (lawful : api.Lawful start)
    (run : Run (step api) (Permitted api) (System.initial api start) as s) :
    (ComponentState.idle :: s.notified).IsChain (· ≠ ·) ∧
    (.idle :: s.notified ++ s.left = (s.samples.map overall).destutter' (· ≠ ·) .idle) ∧
    (s.loop = .waiting → s.left = [] ∧ s.notified.getLastD .idle = s.tracker.mDeviceState) ∧
    ∀ i, s.loop = .notifying i → s.tracker.mStateTransitions[i]? = some .idle →
      i + 1 = s.tracker.mStateTransitions.length → s.Quiet := by
  have inv : Inv api s := run.invariant (Inv api)
    (fun _ _ _ inv permitted stepped => inv.step permitted stepped) (inv_initial lawful)
  refine ⟨?_, inv.history, ?_, ?_⟩
  · have chain := List.isChain_destutter' (· ≠ ·) s.states ComponentState.idle
    rw [← inv.history] at chain
    exact chain.left_of_append
  · intro waiting
    have left : s.left = [] := by rw [System.left, waiting, inv.told waiting]
    have last := congrArg (List.getLastD · .idle) inv.history
    rw [List.getLastD_destutter'_ne, inv.current, left, List.append_nil] at last
    rw [System.latest, waiting] at last
    refine ⟨left, Eq.trans ?_ last⟩
    cases s.notified <;> rfl
  · intro i loop next last
    exact inv.quiet (inv.last_transition loop next last).symm

/-- Fences as the lists of the sync points they wait for. -/
def syncPoints : Fences (List Nat) where
  newFence := []
  NO_FENCE := []
  merge a b := a ++ b

/-- The signal times once some sync points have passed. -/
def passed (points : List Nat) : Moment (List Nat) := fun fence =>
  if fence = [] then -1 else if fence.all (· ∈ points) then 0 else INT64_MAX

theorem passed_ne_max {points fence : List Nat} :
    passed points fence ≠ INT64_MAX ↔ ∀ p ∈ fence, p ∈ points := by
  rw [passed]
  split
  next empty => simp [empty, INT64_MAX]
  next =>
    split
    next all => exact iff_of_true (by decide) (by simpa using all)
    next pending => exact iff_of_false (by simp) (by simpa using pending)

theorem syncPoints_lawful (points : List Nat) : syncPoints.Lawful (passed points) where
  newFence := passed_ne_max.mpr nofun
  noFence := passed_ne_max.mpr nofun
  merge a b := by simp [passed_ne_max, syncPoints, or_imp, forall_and]

/-- A component works and is marked idle behind a fence: a round passes before the fence signals. -/
def workRounds : List (Action (List Nat)) :=
  [.addComponent, .componentsChanged, .markComponentActive 0, .firstPass, .applyChange, .storeFinalState,
    .notifyStatus, .clearTransitions, .markComponentIdle 0 [3], .firstPass, .applyChange, .storeFinalState,
    .clearTransitions]

theorem status_notifications_sample : ∃ s : System (List Nat),
    Run (step syncPoints) (Permitted syncPoints) (System.initial syncPoints (passed []))
      (workRounds ++ [.signal (passed [3])] ++ [.firstPass, .storeFinalState]) s ∧
    s.notified = [.active] ∧ s.left = [.idle] ∧ s.Quiet := by
  have later : Later (passed []) (passed [3]) := by
    intro fence
    simp only [passed_ne_max]
    exact fun signalled p member => absurd (signalled p member) List.not_mem_nil
  have work : Run (step syncPoints) (Permitted syncPoints) (System.initial syncPoints (passed [])) workRounds _ :=
    .of_foldlM (by simp [workRounds, Permitted]) rfl
  have signalled : Run (step syncPoints) (Permitted syncPoints) _ (workRounds ++ [.signal (passed [3])]) _ :=
    work.snoc ⟨later, syncPoints_lawful [3]⟩ rfl
  have run : Run (step syncPoints) (Permitted syncPoints) _ (_ ++ [.firstPass, .storeFinalState]) _ :=
    signalled.append (.of_foldlM (by simp [Permitted]) rfl)
  exact ⟨_, run, rfl, rfl, (status_notifications (syncPoints_lawful []) run).2.2.2 0 rfl rfl rfl⟩

/-- A component made idle and active again in one batch: idle is told while it is active. -/
theorem idle_told_while_active :
    (([.addComponent, .componentsChanged, .markComponentActive 0, .firstPass, .applyChange,
        .storeFinalState, .notifyStatus, .clearTransitions, .markComponentIdle 0 [],
        .markComponentActive 0, .firstPass, .applyChange, .applyChange, .storeFinalState] :
          List (Action (List Nat))).foldlM (step syncPoints)
        (System.initial syncPoints (passed []))).map (fun s =>
      (s.loop, s.tracker.mStateTransitions[0]?, s.tracker.mStates.items)) =
    some (.notifying 0, some .idle, [(0, .active)]) := by
  decide

end Hima.Camera3
