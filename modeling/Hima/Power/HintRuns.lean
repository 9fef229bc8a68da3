import Hima.Power.Hints

/-!
# Locks over runs of hints

The arms of the hints choose the id they undo by governor and by what is left of the metadata. Where
every off hint undoes the id its locks are recorded under, and a sleeping thread finds its hint still on,
every lock held is recorded, its hint is on, and no release goes wrong.
-/
namespace Hima.Power

open Runs

variable {m : PowerModule} {hint : Hint} {video : VideoMetadata} {metadata : List Char}
  {acq : Acquisition} {governor : List Char}

namespace PowerModule

/-! ### The arms -/

/-- What `power.c` reads of a video encode hint that the override leaves to it. -/
def readByPower (m : PowerModule) (metadata : List Char) (created : Bool) : Option VideoMetadata :=
  match m.getScalingGovernor with
  | none => none
  | some governor =>
    let video := parseVideoEncodeMetadata metadata
    if governor = INTERACTIVE_GOVERNOR ∧ (video.state = 0 ∨ video.state = 1 ∧ created = true) then none
    else if governor = ONDEMAND_GOVERNOR ∨ governor = INTERACTIVE_GOVERNOR then
      some (parseVideoEncodeMetadata (strtokLeaves metadata))
    else none

/-- The id that a video encode hint undoes. -/
def encodeUndoes (m : PowerModule) (metadata : List Char) (created : Bool) : Option Int :=
  if m.getScalingGovernor = some INTERACTIVE_GOVERNOR ∧ (parseVideoEncodeMetadata metadata).state = 0 then
    if m.videoEncodeHintIsEnabled then some m.curHintId else none
  else
    match m.readByPower metadata created with
    | none => none
    | some read => if read.state = 0 then some read.hintId else none

/-- The id that a video decode hint undoes. -/
def decodeUndoes (m : PowerModule) (metadata : List Char) : Option Int :=
  let video := parseVideoDecodeMetadata metadata
  if m.getScalingGovernor = some INTERACTIVE_GOVERNOR ∧ video.state = 0 then some video.hintId else none

/-- The id that an interactive on undoes. -/
def displayUndoes (m : PowerModule) : Option Int :=
  if m.getScalingGovernor = some ONDEMAND_GOVERNOR ∨ m.getScalingGovernor = some INTERACTIVE_GOVERNOR then
    some DISPLAY_STATE_HINT_ID
  else none

/-- The governor is one that the arms know. -/
def Governed (m : PowerModule) : Prop :=
  m.getScalingGovernor = some ONDEMAND_GOVERNOR ∨ m.getScalingGovernor = some INTERACTIVE_GOVERNOR

/-- What the hints read and write beside the locks and the display. -/
def besides (m : PowerModule) : Option (List Char) × (Hint → Int → Bool) × Bool × Bool × Int × Int :=
  (m.scalingGovernor, m.wanted, m.videoEncodeHintShouldEnable, m.videoEncodeHintIsEnabled, m.newHintId,
    m.curHintId)

theorem wanted_of_besides {m' : PowerModule} (same : m'.besides = m.besides) : m'.wanted = m.wanted :=
  congrArg (·.2.1) same

theorem ondemand_ne_interactive : ONDEMAND_GOVERNOR ≠ INTERACTIVE_GOVERNOR := by decide

variable (acq) in
/-- The hint of `power.c`, under a governor it knows. -/
theorem processVideoEncodeHint_effect (governed : m.getScalingGovernor = some governor)
    (known : governor = ONDEMAND_GOVERNOR ∨ governor = INTERACTIVE_GOVERNOR) (named : Int) :
    (m.processVideoEncodeHint (some metadata) named acq).besides = m.besides ∧
      m.utils.Effect .videoEncode named (parseVideoEncodeMetadata metadata).hintId acq
        ((parseVideoEncodeMetadata metadata).state = 1)
        (if (parseVideoEncodeMetadata metadata).state = 0 then
          some (parseVideoEncodeMetadata metadata).hintId else none)
        (m.processVideoEncodeHint (some metadata) named acq).utils := by
  unfold processVideoEncodeHint
  rw [governed]
  dsimp only
  by_cases on : (parseVideoEncodeMetadata metadata).state = 1
  · have not_off : ¬ (parseVideoEncodeMetadata metadata).state = 0 := by omega
    simp only [if_pos on, if_neg not_off]
    rcases known with rfl | rfl
    · rw [if_pos rfl]
      exact ⟨rfl, .acquires on _⟩
    · rw [if_neg ondemand_ne_interactive.symm, if_pos rfl]
      exact ⟨rfl, .acquires on _⟩
  · rw [if_neg on]
    by_cases off : (parseVideoEncodeMetadata metadata).state = 0
    · rw [if_pos off, if_pos off]
      rcases known with rfl | rfl
      · rw [if_pos rfl]
        exact ⟨rfl, .undoes _⟩
      · rw [if_neg ondemand_ne_interactive.symm, if_pos rfl]
        exact ⟨rfl, .undoes _⟩
    · rw [if_neg off, if_neg off]
      exact ⟨rfl, .keeps⟩

variable (acq) in
theorem processVideoEncodeHint_unknown (named : Int)
    (unknown : ∀ governor, m.getScalingGovernor = some governor →
      ¬ (governor = ONDEMAND_GOVERNOR ∨ governor = INTERACTIVE_GOVERNOR)) :
    m.processVideoEncodeHint (some metadata) named acq = m := by
  unfold processVideoEncodeHint
  cases governed : m.getScalingGovernor with
  | none => rfl
  | some governor =>
    obtain ⟨not_ondemand, not_interactive⟩ := not_or.mp (unknown governor governed)
    simp [not_ondemand, not_interactive]

/-- Without metadata a hint does nothing. -/
theorem powerHintVideoEncode_none (m : PowerModule) (created : Bool) (acq : Acquisition) :
    m.powerHintVideoEncode none created acq = m := by
  have not_handled : m.overrideVideoEncodeHint none created = (false, m) := by
    unfold overrideVideoEncodeHint
    cases m.getScalingGovernor <;> rfl
  have left : ∀ named, m.processVideoEncodeHint none named acq = m := by
    intro named
    unfold processVideoEncodeHint
    cases m.getScalingGovernor <;> rfl
  simp only [powerHintVideoEncode, not_handled, Option.map_none, left, ite_self]

theorem processVideoDecodeHint_none (m : PowerModule) (acq : Acquisition) :
    m.processVideoDecodeHint none acq = m := by
  unfold processVideoDecodeHint
  cases m.getScalingGovernor <;> rfl

/-- A video encode hint, by the override and what it leaves to `power.c`. -/
theorem powerHintVideoEncode_effect (m : PowerModule) (metadata : List Char) (created : Bool)
    (acq : Acquisition) :
    (m.powerHintVideoEncode (some metadata) created acq).wanted = m.wanted ∧
      m.utils.Effect .videoEncode (parseVideoEncodeMetadata metadata).hintId
        (parseVideoEncodeMetadata (strtokLeaves metadata)).hintId acq
        (∃ read ∈ m.readByPower metadata created, read.state = 1) (m.encodeUndoes metadata created)
        (m.powerHintVideoEncode (some metadata) created acq).utils := by
  generalize named : (parseVideoEncodeMetadata metadata).hintId = name
  -- what `power.c` does with a hint that is left to it
  have left : ∀ {m' : PowerModule} {governor : List Char}, m'.scalingGovernor = m.scalingGovernor →
      m'.utils = m.utils → m'.wanted = m.wanted → m.getScalingGovernor = some governor →
      ¬ (governor = INTERACTIVE_GOVERNOR ∧ ((parseVideoEncodeMetadata metadata).state = 0 ∨
        (parseVideoEncodeMetadata metadata).state = 1 ∧ created = true)) →
      (m'.processVideoEncodeHint (some (strtokLeaves metadata)) name acq).wanted = m.wanted ∧
        m.utils.Effect .videoEncode name (parseVideoEncodeMetadata (strtokLeaves metadata)).hintId acq
          (∃ read ∈ m.readByPower metadata created, read.state = 1) (m.encodeUndoes metadata created)
          (m'.processVideoEncodeHint (some (strtokLeaves metadata)) name acq).utils := by
    intro m' governor same utils wanted governed not_handled
    have governed' : m'.getScalingGovernor = some governor := by
      rw [getScalingGovernor, same]
      exact governed
    have first : ¬ (m.getScalingGovernor = some INTERACTIVE_GOVERNOR ∧
        (parseVideoEncodeMetadata metadata).state = 0) := by
      rintro ⟨interactive, off⟩
      exact not_handled ⟨Option.some.inj (governed.symm.trans interactive), .inl off⟩
    by_cases known : governor = ONDEMAND_GOVERNOR ∨ governor = INTERACTIVE_GOVERNOR
    · have reads : m.readByPower metadata created =
          some (parseVideoEncodeMetadata (strtokLeaves metadata)) := by
        simp only [readByPower, governed, if_neg not_handled, if_pos known]
      obtain ⟨kept, effect⟩ := processVideoEncodeHint_effect acq governed' known name
      rw [utils] at effect
      rw [encodeUndoes, if_neg first, reads]
      refine ⟨(wanted_of_besides kept).trans wanted, ?_⟩
      simpa using effect
    · have reads : m.readByPower metadata created = none := by
        simp only [readByPower, governed, if_neg not_handled, if_neg known]
      rw [encodeUndoes, if_neg first, reads, processVideoEncodeHint_unknown, utils]
      · exact ⟨wanted, .keeps⟩
      · rintro other governed''
        exact Option.some.inj (governed'.symm.trans governed'') ▸ known
  rw [powerHintVideoEncode]
  simp only [Option.getD_some, named, Option.map_some]
  cases governed : m.getScalingGovernor with
  | none =>
    have reads : m.readByPower metadata created = none := by simp only [readByPower, governed]
    have unknown : m.processVideoEncodeHint (some (strtokLeaves metadata)) name acq = m :=
      processVideoEncodeHint_unknown acq name (by simp [governed])
    have undoes : m.encodeUndoes metadata created = none := by
      rw [encodeUndoes, governed, reads]
      simp
    simp only [overrideVideoEncodeHint, governed, Bool.false_eq_true, if_false, unknown, undoes]
    exact ⟨trivial, .keeps⟩
  | some governor =>
    simp only [overrideVideoEncodeHint, governed]
    by_cases on : (parseVideoEncodeMetadata metadata).state = 1
    · rw [if_pos on]
      by_cases interactive : governor = INTERACTIVE_GOVERNOR
      · rw [if_pos interactive]
        cases created with
        | true =>
          have undoes : m.encodeUndoes metadata true = none := by
            simp [encodeUndoes, readByPower, governed, interactive, on]
          rw [undoes]
          exact ⟨rfl, .keeps⟩
        | false => exact left rfl rfl rfl governed (by simp [on])
      · rw [if_neg interactive]
        exact left rfl rfl rfl governed fun handled => interactive handled.1
    · rw [if_neg on]
      by_cases off : (parseVideoEncodeMetadata metadata).state = 0
      · rw [if_pos off]
        by_cases interactive : governor = INTERACTIVE_GOVERNOR
        · rw [if_pos interactive]
          have here : m.getScalingGovernor = some INTERACTIVE_GOVERNOR ∧
              (parseVideoEncodeMetadata metadata).state = 0 := ⟨interactive ▸ governed, off⟩
          rw [encodeUndoes, if_pos here]
          cases enabled : m.videoEncodeHintIsEnabled with
          | true => exact ⟨rfl, .undoes _⟩
          | false => exact ⟨rfl, .keeps⟩
        · rw [if_neg interactive]
          exact left rfl rfl rfl governed fun handled => interactive handled.1
      · rw [if_neg off]
        refine left rfl rfl rfl governed ?_
        rintro ⟨-, no | ⟨no, -⟩⟩
        · exact off no
        · exact on no

theorem processVideoDecodeHint_effect (m : PowerModule) (metadata : List Char) (acq : Acquisition) :
    (m.processVideoDecodeHint (some metadata) acq).besides = m.besides ∧
      m.utils.Effect .videoDecode (parseVideoDecodeMetadata metadata).hintId
        (parseVideoDecodeMetadata metadata).hintId acq
        ((parseVideoDecodeMetadata metadata).state = 1 ∧ m.Governed) (m.decodeUndoes metadata)
        (m.processVideoDecodeHint (some metadata) acq).utils := by
  unfold processVideoDecodeHint decodeUndoes
  cases governed : m.getScalingGovernor with
  | none =>
    simp only [reduceCtorEq, false_and, if_false]
    exact ⟨trivial, .keeps⟩
  | some governor =>
    simp only [Option.some.injEq]
    by_cases on : (parseVideoDecodeMetadata metadata).state = 1
    · have not_off : ¬ (parseVideoDecodeMetadata metadata).state = 0 := by omega
      simp only [if_pos on, not_off, and_false, if_false]
      split
      next ondemand => exact ⟨rfl, .acquires ⟨on, .inl (ondemand ▸ governed)⟩ _⟩
      next =>
        split
        next interactive => exact ⟨rfl, .acquires ⟨on, .inr (interactive ▸ governed)⟩ _⟩
        next => exact ⟨rfl, .keeps⟩
    · rw [if_neg on]
      by_cases off : (parseVideoDecodeMetadata metadata).state = 0
      · simp only [off, and_true, if_true]
        by_cases interactive : governor = INTERACTIVE_GOVERNOR
        · have not_ondemand : ¬ governor = ONDEMAND_GOVERNOR := interactive ▸ ondemand_ne_interactive.symm
          rw [if_neg not_ondemand, if_pos interactive, if_pos interactive]
          exact ⟨rfl, .undoes _⟩
        · rw [if_neg interactive, if_neg interactive, ite_self]
          exact ⟨rfl, .keeps⟩
      · simp only [off, and_false, if_false]
        exact ⟨trivial, .keeps⟩

theorem setInteractive_effect (m : PowerModule) (on : Bool) (acq : Acquisition) :
    (m.setInteractive on acq).besides = m.besides ∧
      m.utils.Effect .displayState DISPLAY_STATE_HINT_ID DISPLAY_STATE_HINT_ID acq
        (on = false ∧ m.Governed)
        (if on then m.displayUndoes else none) (m.setInteractive on acq).utils := by
  unfold setInteractive setInteractiveOverride displayUndoes
  cases governed : m.getScalingGovernor with
  | none =>
    simp only [Bool.false_eq_true, if_false, governed, reduceCtorEq, or_self, ite_self]
    exact ⟨trivial, .keeps⟩
  | some governor =>
    cases on with
    | false =>
      simp only [if_true, Bool.false_eq_true, if_false]
      by_cases first : governor = INTERACTIVE_GOVERNOR ∧ m.overrideDisplayHintSent = false
      · simp only [if_pos first, if_true]
        exact ⟨rfl, .acquires ⟨trivial, .inr (first.1 ▸ governed)⟩ _⟩
      · simp only [if_neg first, Bool.false_eq_true, if_false, governed]
        split
        next ondemand =>
          split
          · exact ⟨rfl, .acquires ⟨trivial, .inl (ondemand ▸ governed)⟩ _⟩
          · exact ⟨rfl, .keeps⟩
        next =>
          split
          next interactive =>
            split
            · exact ⟨rfl, .acquires ⟨trivial, .inr (interactive ▸ governed)⟩ _⟩
            · exact ⟨rfl, .keeps⟩
          next => exact ⟨rfl, .keeps⟩
    | true =>
      simp only [Bool.true_eq_false, if_false, if_true, Option.some.injEq]
      by_cases interactive : governor = INTERACTIVE_GOVERNOR
      · simp only [interactive, if_true, or_true]
        exact ⟨rfl, .undoes _⟩
      · simp only [Bool.false_eq_true, if_false, governed, interactive, or_false]
        split
        next ondemand => exact ⟨rfl, .undoes _⟩
        next => exact ⟨rfl, .keeps⟩

/-! ### Runs -/

/-- What holds between hints: every lock held is recorded under its id, once, its hint was last turned on,
and every release was of a lock held for the hint that released it. -/
structure Kept (m : PowerModule) : Prop where
  records : m.utils.Records
  on : ∀ l ∈ m.utils.held, m.wanted l.hint l.named = true

/-- An off hint undoes the id that its lock was recorded under last; a hint that acquires is on, also as
`power.c` reads it after the override; a thread that acquires finds its hint still on. -/
def Matched (m : PowerModule) : Action → Prop
  | .videoEncode metadata created acq => m.utils.Tracks acq ∧ ∀ text ∈ metadata,
      m.utils.Owns .videoEncode (m.encodeUndoes text created) ∧
      ((parseVideoEncodeMetadata text).state = 0 →
        m.utils.Releases .videoEncode (parseVideoEncodeMetadata text).hintId
          (m.encodeUndoes text created)) ∧
      ∀ read ∈ m.readByPower text created, read.state = 1 → (parseVideoEncodeMetadata text).state = 1
  | .videoDecode metadata acq => m.utils.Tracks acq ∧ ∀ text ∈ metadata,
      m.utils.Owns .videoDecode (m.decodeUndoes text) ∧
      ((parseVideoDecodeMetadata text).state = 0 →
        m.utils.Releases .videoDecode (parseVideoDecodeMetadata text).hintId (m.decodeUndoes text))
  | .setInteractive on acq => m.utils.Tracks acq ∧ (on = true →
      m.utils.Owns .displayState m.displayUndoes ∧
      m.utils.Releases .displayState DISPLAY_STATE_HINT_ID m.displayUndoes)
  | .videoEncodeHintFunction expectedCounter acq => m.utils.Tracks acq ∧
      (m.videoEncodeHintShouldEnable = true → m.videoEncodeHintCounter = expectedCounter →
        m.wanted .videoEncode m.newHintId = true)
  | .setGovernor _ => True

instance (m : PowerModule) : (a : Action) → Decidable (m.Matched a)
  | .videoEncode _ _ _ => inferInstanceAs (Decidable (_ ∧ _))
  | .videoDecode _ _ => inferInstanceAs (Decidable (_ ∧ _))
  | .setInteractive _ _ => inferInstanceAs (Decidable (_ ∧ _))
  | .videoEncodeHintFunction _ _ => inferInstanceAs (Decidable (_ ∧ _))
  | .setGovernor _ => isTrue trivial

/-- Going to sleep releases nothing. -/
theorem Matched.display {on : Bool} (matched : m.Matched (.setInteractive on acq)) :
    m.utils.Owns .displayState (if on then m.displayUndoes else none) ∧
      ((if on then 0 else 1 : Int) = 0 →
        m.utils.Releases .displayState DISPLAY_STATE_HINT_ID (if on then m.displayUndoes else none)) := by
  cases on with
  | true => exact ⟨(matched.2 rfl).1, fun _ => (matched.2 rfl).2⟩
  | false => exact ⟨Utils.owns_none, fun off => absurd off (by decide)⟩

/-- What a hint does to the locks, with what it is now said to want. -/
theorem Kept.want (h : m.Kept) {m' : PowerModule} {hintId : Int} {on : Prop} {undone : Option Int}
    (wanted : m'.wanted = m.wanted) (effect : m.utils.Effect hint video.hintId hintId acq on undone m'.utils)
    (fresh : m.utils.Fresh acq) (tracks : m.utils.Tracks acq) (owns : m.utils.Owns hint undone)
    (releases : video.state = 0 → m.utils.Releases hint video.hintId undone)
    (turns_on : on → video.state = 1) : (m'.want hint video).Kept := by
  obtain ⟨records, held⟩ := effect.records h.records fresh tracks owns
  refine ⟨records, fun l member => ?_⟩
  have wants : (m'.want hint video).wanted l.hint l.named =
      if l.hint = hint ∧ l.named = video.hintId then
        if video.state = 1 then true else if video.state = 0 then false else m.wanted l.hint l.named
      else m.wanted l.hint l.named := by
    rw [PowerModule.want, wanted]
  rw [wants]
  rcases held l member with ⟨old, kept⟩ | ⟨holds, -, of_hint, of_name, -⟩
  · have before := h.on l old
    split
    next named =>
      split
      · rfl
      · split
        next off => exact absurd named (kept (releases off))
        next => exact before
    next => exact before
  · rw [if_pos ⟨of_hint, of_name⟩, if_pos (turns_on holds)]

theorem Kept.videoEncodeHintFunction (h : m.Kept) {expectedCounter : Nat} (fresh : m.utils.Fresh acq)
    (matched : m.Matched (.videoEncodeHintFunction expectedCounter acq)) :
    (m.videoEncodeHintFunction expectedCounter acq).Kept := by
  obtain ⟨tracks, wanted⟩ := matched
  rw [PowerModule.videoEncodeHintFunction]
  dsimp only
  split
  next owns =>
    obtain ⟨records, held⟩ := h.records.perform fresh tracks
    refine ⟨records, fun l member => ?_⟩
    rcases held l member with old | ⟨-, of_hint, of_name, -⟩
    · exact h.on l old
    · rw [of_hint, of_name]
      exact wanted owns.1 owns.2
  next => exact ⟨h.records, h.on⟩

theorem Kept.perform (h : m.Kept) {a : Action} (permitted : m.Permitted a) (matched : m.Matched a) :
    (m.perform a).Kept := by
  cases a with
  | videoEncode metadata created acq =>
    cases metadata with
    | none =>
      rw [PowerModule.perform, powerHintVideoEncode_none]
      exact h
    | some metadata =>
      obtain ⟨tracks, matched⟩ := matched
      obtain ⟨owns, releases, on⟩ := matched metadata rfl
      obtain ⟨wanted, effect⟩ := powerHintVideoEncode_effect m metadata created acq
      exact h.want wanted effect permitted tracks owns releases fun ⟨read, reads, on_read⟩ =>
        on read reads on_read
  | videoDecode metadata acq =>
    cases metadata with
    | none =>
      rw [PowerModule.perform, processVideoDecodeHint_none]
      exact h
    | some metadata =>
      obtain ⟨tracks, matched⟩ := matched
      obtain ⟨owns, releases⟩ := matched metadata rfl
      obtain ⟨same, effect⟩ := processVideoDecodeHint_effect m metadata acq
      exact h.want (wanted_of_besides same) effect permitted tracks owns releases And.left
  | setInteractive on acq =>
    obtain ⟨same, effect⟩ := setInteractive_effect m on acq
    obtain ⟨owns, releases⟩ := matched.display
    refine h.want (wanted_of_besides same) effect permitted matched.1 owns releases ?_
    rintro ⟨rfl, -⟩
    rfl
  | videoEncodeHintFunction expectedCounter acq => exact h.videoEncodeHintFunction permitted.2 matched
  | setGovernor content => exact ⟨h.records, h.on⟩

/-- Before any hint; which functions the library has is known. -/
def init (qcoptHandle perfLockAcq perfLockRel : Bool) : PowerModule :=
  { utils := { qcoptHandle := qcoptHandle, perfLockAcq := perfLockAcq, perfLockRel := perfLockRel } }

/-- In every run of hints and governor changes whose off hints undo the id that their locks are recorded
under, no lock is left behind, recorded twice or released in error. -/
theorem hints_release_locks {qcoptHandle perfLockAcq perfLockRel : Bool} {as : List Action}
    (run : Run (fun m a => some (perform m a)) (fun m a => m.Permitted a ∧ m.Matched a)
      (init qcoptHandle perfLockAcq perfLockRel) as m) : m.Kept := by
  refine run.invariant Kept ?_ ⟨⟨rfl, List.nodup_nil, rfl⟩, nofun⟩
  rintro m a m' h ⟨permitted, matched⟩ ⟨⟩
  exact h.perform permitted matched

/-! ### Locks left behind -/

def sampleOn : List Char := "hint_id=2816;state=1".toList

def sampleOff : List Char := "hint_id=2816;state=0".toList

/-- Under ondemand the arm that turns video decoding off is empty. -/
def decodeUnderOndemand : List Action :=
  [.setGovernor (some "ondemand\n".toList), .videoDecode (some sampleOn) ⟨some 1, true⟩,
    .videoDecode (some sampleOff) ⟨some 2, true⟩]

/-- The second interactive off acquires again, by the other `display_hint_sent`. -/
def displayOffTwice : List Action :=
  [.setGovernor (some "interactive\n".toList), .setInteractive false ⟨some 1, true⟩,
    .setInteractive false ⟨some 2, true⟩, .setInteractive true ⟨some 3, true⟩]

/-- The off hint comes under another governor than the on hint, before the thread has its turn. -/
def encodeAcrossGovernors : List Action :=
  [.setGovernor (some "interactive\n".toList), .videoEncode (some sampleOn) true ⟨some 1, true⟩,
    .setGovernor (some "ondemand\n".toList), .videoEncode (some sampleOff) true ⟨some 2, true⟩,
    .videoEncodeHintFunction 1 ⟨some 3, true⟩]

/-- A run of the hints leaves a lock held that was acquired for a hint no longer wanted. -/
def LeavesLock (as : List Action) : Prop :=
  ∃ m, Run (fun m a => some (perform m a)) Permitted (init true true true) as m ∧
    ∃ l ∈ m.utils.held, m.wanted l.hint l.named = false

/-- Locks of hints that have been turned off are still held. -/
theorem hints_leave_locks :
    LeavesLock decodeUnderOndemand ∧ LeavesLock displayOffTwice ∧ LeavesLock encodeAcrossGovernors := by
  have leaves : ∀ {as : List Action} {m : PowerModule},
      checked (fun m a => some (perform m a)) Permitted as (init true true true) = some m →
      (∃ l ∈ m.utils.held, m.wanted l.hint l.named = false) → LeavesLock as :=
    fun evaluates left => ⟨_, .of_checked evaluates, left⟩
  exact ⟨leaves rfl (by decide), leaves rfl (by decide), leaves rfl (by decide)⟩

/-- Under the interactive governor video decoding is turned on and off. -/
theorem hints_release_locks_sample :
    ∃ m : PowerModule, m.utils.held = [] ∧ m.Kept := by
  obtain ⟨m, run, none_held⟩ : ∃ m, Run (fun m a => some (perform m a))
      (fun m a => m.Permitted a ∧ m.Matched a) (init true true true)
      [.setGovernor (some "interactive\n".toList), .videoDecode (some sampleOn) ⟨some 1, true⟩,
        .videoDecode (some sampleOff) ⟨some 2, true⟩] m ∧ m.utils.held = [] :=
    ⟨_, .of_checked rfl, rfl⟩
  exact ⟨m, none_held, hints_release_locks run⟩

end PowerModule

end Hima.Power
