import Mathlib.Data.List.Nodup
import Hima.Lib.Runs

/-!
# Hint actions

The list of active hints of `utils.c`, beside the perf locks that the client library really holds. A
lock remembers the hint it was acquired for and the hint id that this hint named; the list remembers the
id that the lock was recorded under.
-/
namespace Hima.Power

inductive Hint where
  | videoEncode
  | videoDecode
  | displayState
  deriving DecidableEq

structure HintData where
  hintId : Int
  perflockHandle : Nat
  deriving DecidableEq

/-- A lock that is held: what for, with which id the hint came, and the id it is recorded under. -/
structure PerfLock where
  handle : Nat
  hint : Hint
  named : Int
  hintId : Int
  resources : List Nat
  deriving DecidableEq

/-- The entry that records a lock. -/
def PerfLock.data (l : PerfLock) : HintData := { hintId := l.hintId, perflockHandle := l.handle }

/-- What the library and `malloc` answer: the handle of the new lock, `none` for -1, and whether there is
memory to keep track of it. -/
structure Acquisition where
  handle : Option Nat
  tracked : Bool

/-- The lock is the one that the request brings. -/
def Acquisition.Brings (acq : Acquisition) (hint : Hint) (named hintId : Int) (l : PerfLock) : Prop :=
  acq.handle = some l.handle ∧ l.hint = hint ∧ l.named = named ∧ l.hintId = hintId

/-- The state of `utils.c`, the locks held, and the releases of handles that were not held or were
acquired for another hint. -/
structure Utils where
  qcoptHandle : Bool
  perfLockAcq : Bool
  perfLockRel : Bool
  activeHintList : List HintData := []
  held : List PerfLock := []
  misreleased : List Nat := []

namespace Utils

variable (u : Utils)

/-- `perf_lock_rel`, called for a hint. -/
def perfLockRelease (hint : Hint) (handle : Nat) : Utils :=
  match u.held.find? (·.handle = handle) with
  | none => { u with misreleased := handle :: u.misreleased }
  | some lock =>
    { u with
      held := u.held.eraseP (·.handle = handle)
      misreleased := if lock.hint = hint then u.misreleased else handle :: u.misreleased }

/-- A lock that cannot be kept track of is released. -/
def performHintAction (hint : Hint) (named hintId : Int) (resources : List Nat) (acq : Acquisition) :
    Utils :=
  if u.qcoptHandle && u.perfLockAcq then
    match acq.handle with
    | none => u
    | some lockHandle =>
      let u : Utils :=
        { u with
          held := { handle := lockHandle, hint := hint, named := named, hintId := hintId,
                    resources := resources } :: u.held }
      if acq.tracked then
        { u with
          activeHintList := { hintId := hintId, perflockHandle := lockHandle } :: u.activeHintList }
      else if u.perfLockRel then u.perfLockRelease hint lockHandle
      else u
  else u

/-- The entry that was recorded last under the id goes, and its lock is released. -/
def undoHintAction (hint : Hint) (hintId : Int) : Utils :=
  if u.qcoptHandle && u.perfLockRel then
    match u.activeHintList.find? (·.hintId = hintId) with
    | none => u
    | some found =>
      { u.perfLockRelease hint found.perflockHandle with
        activeHintList := u.activeHintList.eraseP (·.hintId = hintId) }
  else u

/-- The locks held are those recorded, each handle once, and no release went wrong. -/
structure Records (u : Utils) : Prop where
  recorded : u.activeHintList = u.held.map PerfLock.data
  distinct : (u.held.map (·.handle)).Nodup
  released : u.misreleased = []

/-- The library hands out handles that are not in use. -/
def Fresh (u : Utils) (acq : Acquisition) : Prop := ∀ h ∈ acq.handle, h ∉ u.held.map (·.handle)

/-- There is memory to keep track of the lock, or a way to release it. -/
def Tracks (u : Utils) (acq : Acquisition) : Prop := acq.tracked = true ∨ u.perfLockRel = true

instance (u : Utils) (acq : Acquisition) : Decidable (u.Fresh acq) := by
  unfold Fresh
  infer_instance

instance (u : Utils) (acq : Acquisition) : Decidable (u.Tracks acq) := by
  unfold Tracks
  infer_instance

/-- The id that can be undone, if the library can release locks. -/
def releasable (u : Utils) (undone : Option Int) : Option Int :=
  if u.qcoptHandle && u.perfLockRel then undone else none

/-- Every lock of the hint is the one recorded last under the id that is undone. -/
def Releases (u : Utils) (hint : Hint) (named : Int) (undone : Option Int) : Prop :=
  ∀ l ∈ u.held, l.hint = hint → l.named = named →
    u.releasable undone = some l.hintId ∧ u.held.find? (·.hintId = l.hintId) = some l

/-- The lock recorded last under the id that is undone was acquired for the hint. -/
def Owns (u : Utils) (hint : Hint) (undone : Option Int) : Prop :=
  ∀ i ∈ u.releasable undone, ∀ l ∈ u.held.find? (·.hintId = i), l.hint = hint

instance (u : Utils) (hint : Hint) (named : Int) (undone : Option Int) :
    Decidable (u.Releases hint named undone) := by
  unfold Releases
  infer_instance

instance (u : Utils) (hint : Hint) (undone : Option Int) : Decidable (u.Owns hint undone) := by
  unfold Owns
  infer_instance

/-- What a hint does to the locks: at most one action, and an acquisition only for a hint that is on. -/
inductive Effect (u : Utils) (hint : Hint) (named hintId : Int) (acq : Acquisition) (on : Prop) :
    Option Int → Utils → Prop
  | keeps : Effect u hint named hintId acq on none u
  | undoes (i : Int) : Effect u hint named hintId acq on (some i) (u.undoHintAction hint i)
  | acquires (holds : on) (resources : List Nat) :
      Effect u hint named hintId acq on none (u.performHintAction hint named hintId resources acq)

end Utils

/-! ### What the actions do to the locks -/

/-- With distinct handles the first lock under an id is also the one that its handle finds. -/
theorem find_handle {held : List PerfLock} {hintId : Int} {l : PerfLock}
    (distinct : (held.map (·.handle)).Nodup) (found : held.find? (·.hintId = hintId) = some l) :
    held.find? (·.handle = l.handle) = some l ∧
      held.eraseP (·.handle = l.handle) = held.eraseP (·.hintId = hintId) := by
  induction held with
  | nil => cases found
  | cons first rest ih =>
    obtain ⟨apart, distinct⟩ := List.nodup_cons.mp distinct
    by_cases here : first.hintId = hintId
    · rw [List.find?_cons_of_pos (by simpa using here)] at found
      obtain rfl := Option.some.inj found
      rw [List.find?_cons_of_pos (by simp), List.eraseP_cons_of_pos (by simp),
        List.eraseP_cons_of_pos (by simpa using here)]
      exact ⟨rfl, rfl⟩
    · rw [List.find?_cons_of_neg (by simpa using here)] at found
      have later := List.mem_of_find?_eq_some found
      have other : first.handle ≠ l.handle := by
        intro same
        exact apart (List.mem_map.mpr ⟨l, later, same.symm⟩)
      obtain ⟨finds, erases⟩ := ih distinct found
      rw [List.find?_cons_of_neg (by simpa using other), List.eraseP_cons_of_neg (by simpa using other),
        List.eraseP_cons_of_neg (by simpa using here), erases]
      exact ⟨finds, rfl⟩

namespace Utils

variable {u : Utils} {hint : Hint} {named hintId : Int} {resources : List Nat} {acq : Acquisition}

/-- An acquired lock is recorded under its id, or released again. -/
theorem Records.perform (h : u.Records) (fresh : u.Fresh acq) (tracks : u.Tracks acq) :
    (u.performHintAction hint named hintId resources acq).Records ∧
      ∀ l ∈ (u.performHintAction hint named hintId resources acq).held,
        l ∈ u.held ∨ acq.Brings hint named hintId l := by
  have unchanged : u.Records ∧ ∀ l ∈ u.held, l ∈ u.held ∨ acq.Brings hint named hintId l :=
    ⟨h, fun _ member => .inl member⟩
  rw [performHintAction]
  split
  · cases acquired : acq.handle with
    | none => exact unchanged
    | some lockHandle =>
      have new := fresh lockHandle acquired
      by_cases tracked : acq.tracked = true
      · simp only [if_pos tracked]
        refine ⟨⟨?_, ?_, h.released⟩, ?_⟩
        · rw [h.recorded]
          rfl
        · exact List.nodup_cons.mpr ⟨new, h.distinct⟩
        · intro l member
          rcases List.mem_cons.mp member with rfl | old
          · exact .inr ⟨acquired, rfl, rfl, rfl⟩
          · exact .inl old
      · have rel := tracks.resolve_left tracked
        simp only [if_neg tracked, if_pos rel, perfLockRelease]
        rw [List.find?_cons_of_pos (by simp)]
        simp only [List.eraseP_cons_of_pos, decide_true, if_true]
        exact unchanged
  · exact unchanged

/-- The lock that was recorded last under the id is released, and no other one. -/
theorem Records.undo (h : u.Records) (own : (u.qcoptHandle && u.perfLockRel) = true →
      ∀ l ∈ u.held.find? (·.hintId = hintId), l.hint = hint) :
    (u.undoHintAction hint hintId).Records ∧ (∀ l ∈ (u.undoHintAction hint hintId).held, l ∈ u.held) ∧
      ((u.qcoptHandle && u.perfLockRel) = true →
        ∀ l ∈ u.held.find? (·.hintId = hintId), l ∉ (u.undoHintAction hint hintId).held) := by
  have finds : u.activeHintList.find? (·.hintId = hintId) =
      (u.held.find? (·.hintId = hintId)).map PerfLock.data := by
    rw [h.recorded, List.find?_map]
    rfl
  rw [undoHintAction]
  by_cases available : (u.qcoptHandle && u.perfLockRel) = true
  · rw [if_pos available, finds]
    cases found : u.held.find? (·.hintId = hintId) with
    | none => exact ⟨h, fun _ member => member, fun _ => nofun⟩
    | some lock =>
      obtain ⟨by_handle, erases⟩ := find_handle h.distinct found
      have releases : u.perfLockRelease hint lock.handle =
          { u with held := u.held.eraseP (·.hintId = hintId) } := by
        rw [perfLockRelease, by_handle]
        simp only [if_pos (own available lock found), erases]
      have data : lock.data.perflockHandle = lock.handle := rfl
      simp only [Option.map_some, data, releases]
      have erased := List.eraseP_sublist (p := fun l : PerfLock => decide (l.hintId = hintId)) (l := u.held)
      refine ⟨⟨?_, (erased.map _).nodup h.distinct, h.released⟩, fun l member => erased.subset member, ?_⟩
      · rw [h.recorded, List.eraseP_map]
        rfl
      · rintro - l ⟨⟩ still
        -- its handle is not among the distinct ones that are left
        obtain ⟨a, before, after, -, at_a, all, rest⟩ := List.exists_of_eraseP
          (p := fun l => decide (l.handle = lock.handle)) (List.mem_of_find?_eq_some by_handle) (by simp)
        have distinct := h.distinct
        rw [all, List.map_append, List.map_cons, List.nodup_middle] at distinct
        have gone := (List.nodup_cons.mp distinct).1
        rw [of_decide_eq_true at_a, ← List.map_append, ← rest, erases] at gone
        exact gone (List.mem_map_of_mem still)
  · rw [if_neg available]
    exact ⟨h, fun _ member => member, fun yes => absurd yes available⟩

theorem owns_none : u.Owns hint none := by
  intro i undone
  rw [releasable, ite_self] at undone
  cases undone

/-- After a hint the locks of that hint and name are those it has acquired, if it was to release them. -/
theorem Effect.records {u' : Utils} {on : Prop} {undone : Option Int}
    (effect : u.Effect hint named hintId acq on undone u') (h : u.Records) (fresh : u.Fresh acq)
    (tracks : u.Tracks acq) (owns : u.Owns hint undone) :
    u'.Records ∧ ∀ l ∈ u'.held,
      (l ∈ u.held ∧ (u.Releases hint named undone → ¬ (l.hint = hint ∧ l.named = named))) ∨
        (on ∧ acq.Brings hint named hintId l) := by
  -- without an undo a hint that releases its locks has none
  have none_held : ∀ l ∈ u.held, u.Releases hint named none → ¬ (l.hint = hint ∧ l.named = named) := by
    intro l member releases ⟨of_hint, of_name⟩
    obtain ⟨undone, -⟩ := releases l member of_hint of_name
    rw [releasable] at undone
    split at undone <;> cases undone
  cases effect with
  | keeps => exact ⟨h, fun l member => .inl ⟨member, none_held l member⟩⟩
  | acquires holds resources =>
    obtain ⟨records, held⟩ := h.perform fresh tracks
    refine ⟨records, fun l member => ?_⟩
    rcases held l member with old | new
    · exact .inl ⟨old, none_held l old⟩
    · exact .inr ⟨holds, new⟩
  | undoes i =>
    obtain ⟨records, subset, gone⟩ := h.undo fun available => by
      have owns := owns i
      rw [releasable, if_pos available] at owns
      exact owns rfl
    refine ⟨records, fun l member => .inl ⟨subset l member, ?_⟩⟩
    rintro releases ⟨of_hint, of_name⟩
    obtain ⟨undone, found⟩ := releases l (subset l member) of_hint of_name
    rw [releasable] at undone
    split at undone
    next available =>
      obtain rfl := Option.some.inj undone
      exact gone available l found member
    next => cases undone

end Utils

/-!
## Power hints

The hints for video encoding, video decoding and the display, from `power.c` and the overrides of
`power-8994.c`. A step is a hint, a thread of the encode override that gets its turn, or a change of the
governor. Video hints come with a string of attributes, which `strtok_r` takes apart in place.
-/
open Runs

def DEFAULT_VIDEO_ENCODE_HINT_ID : Int := 0x0A00

def DEFAULT_VIDEO_DECODE_HINT_ID : Int := 0x0B00

def DISPLAY_STATE_HINT_ID : Int := 0x0C00

def ONDEMAND_GOVERNOR : List Char := "ondemand".toList

def INTERACTIVE_GOVERNOR : List Char := "interactive".toList

/-! ### Metadata -/

/-- `video_encode_metadata_t` and `video_decode_metadata_t`. -/
structure VideoMetadata where
  hintId : Int
  state : Int
  deriving DecidableEq

def atoi (s : List Char) : Int :=
  let digits (s : List Char) : Int :=
    (s.takeWhile Char.isDigit).foldl (fun n c => 10 * n + (c.toNat - '0'.toNat)) 0
  match s.dropWhile Char.isWhitespace with
  | '-' :: s => -digits s
  | '+' :: s => digits s
  | s => digits s

/-- The tokens that `strtok_r` finds between the delimiters. -/
def strtokTokens (metadata : List Char) : List (List Char) :=
  (metadata.splitOn ';').filter (· ≠ [])

/-- The string that is left in the buffer: the first token ends at a null. -/
def strtokLeaves (metadata : List Char) : List Char :=
  metadata.takeWhile (· = ';') ++ (metadata.dropWhile (· = ';')).takeWhile (· ≠ ';')

/-- The attribute and the value of a token, each cut to the size of its buffer. -/
def parseAttribute (attributeString : List Char) : List Char × List Char :=
  match attributeString.dropWhile (· ≠ '=') with
  | [] => ([], [])
  | _ :: rest =>
    let name := (attributeString.takeWhile (· ≠ '=')).take 1023
    (name, rest.take (min (attributeString.length - name.length - 1) 1023))

/-- The loop over the tokens; later ones count. -/
def parseVideoMetadata (metadata : List Char) (defaults : VideoMetadata) : VideoMetadata :=
  (strtokTokens metadata).foldl
    (fun video token =>
      let (name, value) := parseAttribute token
      if name = "hint_id".toList ∧ value ≠ [] then { video with hintId := atoi value }
      else if name = "state".toList ∧ value ≠ [] then { video with state := atoi value }
      else video)
    defaults

def parseVideoEncodeMetadata (metadata : List Char) : VideoMetadata :=
  parseVideoMetadata metadata { hintId := DEFAULT_VIDEO_ENCODE_HINT_ID, state := -1 }

def parseVideoDecodeMetadata (metadata : List Char) : VideoMetadata :=
  parseVideoMetadata metadata { hintId := DEFAULT_VIDEO_DECODE_HINT_ID, state := -1 }

/-! ### The module -/

/-- The statics of both files. `scalingGovernor` is what can be read from sysfs, `threads` are those of
the encode override that still sleep, each with its counter. `wanted` says of each hint and id whether the
last such hint was an on. -/
structure PowerModule where
  utils : Utils
  scalingGovernor : Option (List Char) := none
  /-- The one of `power.c`. -/
  displayHintSent : Bool := false
  /-- The one of `power-8994.c`. -/
  overrideDisplayHintSent : Bool := false
  videoEncodeHintCounter : Nat := 0
  videoEncodeHintShouldEnable : Bool := false
  videoEncodeHintIsEnabled : Bool := false
  newHintId : Int := DEFAULT_VIDEO_ENCODE_HINT_ID
  curHintId : Int := DEFAULT_VIDEO_ENCODE_HINT_ID
  threads : List Nat := []
  wanted : Hint → Int → Bool := fun _ _ => false

/-- `created` says whether `pthread_create` succeeds, the acquisition what a request for a lock meets. -/
inductive Action where
  | videoEncode (metadata : Option (List Char)) (created : Bool) (acq : Acquisition)
  | videoDecode (metadata : Option (List Char)) (acq : Acquisition)
  | setInteractive (on : Bool) (acq : Acquisition)
  | videoEncodeHintFunction (expectedCounter : Nat) (acq : Acquisition)
  | setGovernor (content : Option (List Char))

namespace PowerModule

variable (m : PowerModule)

/-- At most 79 characters are read, up to a null, and line ends are stripped. -/
def getScalingGovernor : Option (List Char) :=
  m.scalingGovernor.map fun content =>
    (((content.take 79).takeWhile (· ≠ '\x00')).reverse.dropWhile
      fun c => c = '\n' || c = '\r').reverse

def performHintAction (hint : Hint) (named hintId : Int) (resources : List Nat) (acq : Acquisition) :
    PowerModule :=
  { m with utils := m.utils.performHintAction hint named hintId resources acq }

def undoHintAction (hint : Hint) (hintId : Int) : PowerModule :=
  { m with utils := m.utils.undoHintAction hint hintId }

/-! ### power.c -/

/-- `named` is the id that the hint came with; the metadata is what the override has left of it. -/
def processVideoEncodeHint (metadata : Option (List Char)) (named : Int) (acq : Acquisition) :
    PowerModule :=
  match m.getScalingGovernor, metadata with
  | some governor, some metadata =>
    let video := parseVideoEncodeMetadata metadata
    if video.state = 1 then
      if governor = ONDEMAND_GOVERNOR then
        m.performHintAction .videoEncode named video.hintId [0xC00, 0xD01, 0x1400] acq
      else if governor = INTERACTIVE_GOVERNOR then
        m.performHintAction .videoEncode named video.hintId [0xEFC, 0x105A, 0xF0A, 0x1400, 0x1B00] acq
      else m
    else if video.state = 0 then
      if governor = ONDEMAND_GOVERNOR then m.undoHintAction .videoEncode video.hintId
      else if governor = INTERACTIVE_GOVERNOR then m.undoHintAction .videoEncode video.hintId
      else m
    else m
  | _, _ => m

def processVideoDecodeHint (metadata : Option (List Char)) (acq : Acquisition) : PowerModule :=
  match m.getScalingGovernor, metadata with
  | some governor, some metadata =>
    let video := parseVideoDecodeMetadata metadata
    if video.state = 1 then
      if governor = ONDEMAND_GOVERNOR then
        m.performHintAction .videoDecode video.hintId video.hintId [0x1400] acq
      else if governor = INTERACTIVE_GOVERNOR then
        m.performHintAction .videoDecode video.hintId video.hintId [0xEFC, 0x105A, 0xF0A, 0x1400] acq
      else m
    else if video.state = 0 then
      -- the arm for ondemand is empty
      if governor = ONDEMAND_GOVERNOR then m
      else if governor = INTERACTIVE_GOVERNOR then m.undoHintAction .videoDecode video.hintId
      else m
    else m
  | _, _ => m

/-! ### power-8994.c -/

/-- Whether the hint is handled. -/
def overrideVideoEncodeHint (metadata : Option (List Char)) (created : Bool) : Bool × PowerModule :=
  match m.getScalingGovernor, metadata with
  | some governor, some metadata =>
    let video := parseVideoEncodeMetadata metadata
    if video.state = 1 then
      if governor = INTERACTIVE_GOVERNOR then
        let counter := if m.videoEncodeHintCounter < 65535 then m.videoEncodeHintCounter + 1 else 0
        let m := { m with newHintId := video.hintId, videoEncodeHintCounter := counter }
        if created then
          (true, { m with videoEncodeHintShouldEnable := true, threads := counter :: m.threads })
        else (false, { m with videoEncodeHintShouldEnable := false })
      else (false, m)
    else if video.state = 0 then
      if governor = INTERACTIVE_GOVERNOR then
        let m := { m with videoEncodeHintShouldEnable := false }
        if m.videoEncodeHintIsEnabled then
          (true, { m.undoHintAction .videoEncode m.curHintId with videoEncodeHintIsEnabled := false })
        else (true, m)
      else (false, m)
    else (false, m)
  | _, _ => (false, m)

/-- A thread of the override that has slept its two seconds. -/
def videoEncodeHintFunction (expectedCounter : Nat) (acq : Acquisition) : PowerModule :=
  if m.videoEncodeHintShouldEnable = true ∧ m.videoEncodeHintCounter = expectedCounter then
    { m.performHintAction .videoEncode m.newHintId m.newHintId [0x150C, 0x1F03, 0x2303] acq with
      threads := m.threads.erase expectedCounter
      curHintId := m.newHintId
      videoEncodeHintIsEnabled := true
      videoEncodeHintShouldEnable := false }
  else { m with threads := m.threads.erase expectedCounter }

/-- Whether the hint is handled. -/
def setInteractiveOverride (on : Bool) (acq : Acquisition) : Bool × PowerModule :=
  match m.getScalingGovernor with
  | none => (false, m)
  | some governor =>
    if on = false then
      if governor = INTERACTIVE_GOVERNOR ∧ m.overrideDisplayHintSent = false then
        (true,
          { m.performHintAction .displayState DISPLAY_STATE_HINT_ID DISPLAY_STATE_HINT_ID
              [0x4E63, 0x4F5F] acq with
            overrideDisplayHintSent := true })
      else (false, m)
    else if governor = INTERACTIVE_GOVERNOR then
      (true,
        { m.undoHintAction .displayState DISPLAY_STATE_HINT_ID with overrideDisplayHintSent := false })
    else (false, m)

/-! ### Hints -/

/-- `set_interactive` of `power.c`, without what the governor `msm-dcvs` does to its nodes. -/
def setInteractive (on : Bool) (acq : Acquisition) : PowerModule :=
  let (handled, m) := m.setInteractiveOverride on acq
  if handled then m
  else
    match m.getScalingGovernor with
    | none => m
    | some governor =>
      if on = false then
        if governor = ONDEMAND_GOVERNOR then
          if m.displayHintSent = false then
            { m.performHintAction .displayState DISPLAY_STATE_HINT_ID DISPLAY_STATE_HINT_ID
                [0x00FF, 0xBCD, 0x1400] acq with
              displayHintSent := true }
          else m
        else if governor = INTERACTIVE_GOVERNOR then
          if m.displayHintSent = false then
            { m.performHintAction .displayState DISPLAY_STATE_HINT_ID DISPLAY_STATE_HINT_ID
                [0xEFA, 0x1400] acq with
              displayHintSent := true }
          else m
        else m
      else if governor = ONDEMAND_GOVERNOR then
        { m.undoHintAction .displayState DISPLAY_STATE_HINT_ID with displayHintSent := false }
      else if governor = INTERACTIVE_GOVERNOR then
        { m.undoHintAction .displayState DISPLAY_STATE_HINT_ID with displayHintSent := false }
      else m

/-- `power_hint` for `POWER_HINT_VIDEO_ENCODE`. -/
def powerHintVideoEncode (metadata : Option (List Char)) (created : Bool) (acq : Acquisition) :
    PowerModule :=
  let named := (parseVideoEncodeMetadata (metadata.getD [])).hintId
  let (handled, m) := m.overrideVideoEncodeHint metadata created
  if handled then m else m.processVideoEncodeHint (metadata.map strtokLeaves) named acq

/-- A hint that turns on or off what it names. -/
def want (hint : Hint) (video : VideoMetadata) : PowerModule :=
  { m with
    wanted := fun h id =>
      if h = hint ∧ id = video.hintId then
        if video.state = 1 then true else if video.state = 0 then false else m.wanted h id
      else m.wanted h id }

def perform : Action → PowerModule
  | .videoEncode metadata created acq =>
    match metadata with
    | none => m.powerHintVideoEncode none created acq
    | some metadata =>
      (m.powerHintVideoEncode (some metadata) created acq).want .videoEncode
        (parseVideoEncodeMetadata metadata)
  | .videoDecode metadata acq =>
    match metadata with
    | none => m.processVideoDecodeHint none acq
    | some metadata =>
      (m.processVideoDecodeHint (some metadata) acq).want .videoDecode
        (parseVideoDecodeMetadata metadata)
  | .setInteractive on acq =>
    (m.setInteractive on acq).want .displayState
      { hintId := DISPLAY_STATE_HINT_ID, state := if on then 0 else 1 }
  | .videoEncodeHintFunction expectedCounter acq => m.videoEncodeHintFunction expectedCounter acq
  | .setGovernor content => { m with scalingGovernor := content }

/-- Only sleeping threads get their turn, and the library hands out handles that are not in use. -/
def Permitted : Action → Prop
  | .videoEncode _ _ acq => m.utils.Fresh acq
  | .videoDecode _ acq => m.utils.Fresh acq
  | .setInteractive _ acq => m.utils.Fresh acq
  | .videoEncodeHintFunction expectedCounter acq =>
    expectedCounter ∈ m.threads ∧ m.utils.Fresh acq
  | .setGovernor _ => True

instance (a : Action) : Decidable (m.Permitted a) := by
  cases a <;> unfold Permitted <;> infer_instance

end PowerModule

end Hima.Power
