import Hima.Power.HintRuns

/-!
# Hints in order

The condition of `hints_release_locks`, from the governor and the order and ids of the hints. Where the
governor stays while a hint is on, no id is shared and no hint is turned on twice, each lock is recorded
once, under the id that its hint named, and the off hint finds the governor that it was acquired under.
-/
namespace Hima.Power

open Runs

variable {m : PowerModule} {hint : Hint} {video : VideoMetadata} {acq : Acquisition}

/-- Each lock is recorded under the id that its hint named, and it is the only one of that id. -/
def Utils.Single (u : Utils) : Prop :=
  ∀ l ∈ u.held, l.hintId = l.named ∧ ∀ l' ∈ u.held, l.named = l'.named → l = l'

theorem Utils.Single.brings {u u' : Utils} (h : u.Single) (distinct : (u'.held.map (·.handle)).Nodup)
    {id : Int} (held : ∀ l ∈ u'.held, l ∈ u.held ∨
      acq.Brings hint id id l ∧ ∀ l' ∈ u.held, l'.named ≠ id) : u'.Single := by
  intro l member
  rcases held l member with old | ⟨⟨brought, -, of_name, under⟩, others⟩
  · refine ⟨(h l old).1, fun l' member' same => ?_⟩
    rcases held l' member' with old' | ⟨⟨-, -, of_name', -⟩, others⟩
    · exact (h l old).2 l' old' same
    · exact absurd (same.trans of_name') (others l old)
  · refine ⟨under.trans of_name.symm, fun l' member' same => ?_⟩
    rcases held l' member' with old' | ⟨⟨brought', -⟩, -⟩
    · exact absurd (same.symm.trans of_name) (others l' old')
    · exact List.inj_on_of_nodup_map distinct member member'
        (Option.some.inj (brought.symm.trans brought'))

namespace PowerModule

/-- The hint has one id on at a time, no other hint uses it, and what is on is not turned on again. -/
def Lone (m : PowerModule) (hint : Hint) (video : VideoMetadata) : Prop :=
  ∀ h id, m.wanted h id = true → h = hint ∨ id = video.hintId →
    h = hint ∧ id = video.hintId ∧ video.state ≠ 1

/-- Video decoding is not hinted under ondemand and video encoding only under interactive, where its thread
can be created; the governor changes while no hint is on. -/
def InOrder (m : PowerModule) : Action → Prop
  | .videoEncode metadata created _ => ∀ text ∈ metadata, m.Lone .videoEncode (parseVideoEncodeMetadata text) ∧
      m.getScalingGovernor = some INTERACTIVE_GOVERNOR ∧ created = true ∧
      ((parseVideoEncodeMetadata text).state = 0 ∨ (parseVideoEncodeMetadata text).state = 1)
  | .videoDecode metadata _ => ∀ text ∈ metadata, m.Lone .videoDecode (parseVideoDecodeMetadata text) ∧
      m.getScalingGovernor ≠ some ONDEMAND_GOVERNOR
  | .setInteractive on _ =>
    m.Lone .displayState { hintId := DISPLAY_STATE_HINT_ID, state := if on then 0 else 1 }
  | .videoEncodeHintFunction _ _ => True
  | .setGovernor _ => ∀ h id, m.wanted h id = false

/-- The library can release locks. -/
def Able (m : PowerModule) : Prop := (m.utils.qcoptHandle && m.utils.perfLockRel) = true

/-- A lock of the hint can be held under the governor. -/
def Governs (m : PowerModule) (hint : Hint) : Prop :=
  m.getScalingGovernor = some INTERACTIVE_GOVERNOR ∨
    m.getScalingGovernor = some ONDEMAND_GOVERNOR ∧ hint = .displayState

/-- What holds between hints that come in order: also, a lock is recorded under the id that its hint named,
and no other lock is. -/
structure Orderly (m : PowerModule) : Prop where
  kept : m.Kept
  single : m.utils.Single
  apart : ∀ h h' id id', m.wanted h id = true → m.wanted h' id' = true → (h = h' ↔ id = id')
  governed : ∀ l ∈ m.utils.held, m.Governs l.hint ∧
    (l.hint = .videoEncode → m.videoEncodeHintIsEnabled = true)
  enabled : m.videoEncodeHintIsEnabled = true → m.wanted .videoEncode m.curHintId = true
  pending : m.videoEncodeHintShouldEnable = true → m.getScalingGovernor = some INTERACTIVE_GOVERNOR ∧
    m.wanted .videoEncode m.newHintId = true ∧ ∀ l ∈ m.utils.held, l.hint ≠ .videoEncode

/-! ### The condition of the runs -/

theorem Orderly.owns (h : m.Orderly) (lone : m.Lone hint video) {undone : Option Int}
    (undoes : ∀ i ∈ undone, i = video.hintId ∨ m.wanted hint i = true) : m.utils.Owns hint undone := by
  intro i undone' l found
  have on := h.kept.on l (List.mem_of_find?_eq_some found)
  have under : l.hintId = i := by simpa using List.find?_some found
  rw [← (h.single l (List.mem_of_find?_eq_some found)).1, under] at on
  rw [Utils.releasable] at undone'
  split at undone'
  · rcases undoes i undone' with rfl | wanted
    · exact (lone l.hint _ on (.inr rfl)).1
    · exact (h.apart _ _ _ _ on wanted).mpr rfl
  · cases undone'

theorem Orderly.releases (h : m.Orderly) (able : m.Able) {id : Int} {undone : Option Int}
    (undoes : ∀ l ∈ m.utils.held, l.hint = hint → l.named = id → undone = some id) :
    m.utils.Releases hint id undone := by
  intro l member of_hint of_name
  obtain ⟨named, only⟩ := h.single l member
  refine ⟨?_, ?_⟩
  · rw [Utils.releasable, if_pos (show _ = true from able), undoes l member of_hint of_name, named, of_name]
  · obtain ⟨l', found⟩ : ∃ l', m.utils.held.find? (·.hintId = l.hintId) = some l' :=
      Option.isSome_iff_exists.mp (List.find?_isSome.mpr ⟨l, member, by simp⟩)
    have member' := List.mem_of_find?_eq_some found
    have same : l'.hintId = l.hintId := by simpa using List.find?_some found
    rw [(h.single l' member').1, named] at same
    rw [found, only l' member' same.symm]

theorem Orderly.matched (h : m.Orderly) (able : m.Able) {a : Action} (inOrder : m.InOrder a) :
    m.Matched a := by
  have tracks : ∀ acq, m.utils.Tracks acq := fun acq => .inr (Bool.and_eq_true_iff.mp able).2
  cases a with
  | videoEncode metadata created acq =>
    refine ⟨tracks acq, fun text given => ?_⟩
    obtain ⟨lone, interactive, rfl, states⟩ := inOrder text given
    have unread : m.readByPower text true = none := by simp [readByPower, interactive, states]
    have undoes : m.encodeUndoes text true = if (parseVideoEncodeMetadata text).state = 0 then
        if m.videoEncodeHintIsEnabled then some m.curHintId else none else none := by
      simp [encodeUndoes, interactive, unread]
    rw [undoes, unread]
    refine ⟨h.owns lone fun i undone => .inr ?_, fun off => h.releases able fun l member of_hint of_name => ?_,
      by simp⟩
    · split_ifs at undone with off enabled
      · exact Option.some.inj undone ▸ h.enabled enabled
      · cases undone
      · cases undone
    · have enabled := (h.governed l member).2 of_hint
      have on := h.kept.on l member
      rw [of_hint, of_name] at on
      rw [if_pos off, if_pos enabled, (h.apart _ _ _ _ (h.enabled enabled) on).mp rfl]
  | videoDecode metadata acq =>
    refine ⟨tracks acq, fun text given => ?_⟩
    obtain ⟨lone, -⟩ := inOrder text given
    rw [decodeUndoes]
    refine ⟨h.owns lone fun i undone => .inl ?_, fun off => h.releases able fun l member of_hint _ => ?_⟩
    · split at undone
      · exact (Option.some.inj undone).symm
      · cases undone
    · rcases (h.governed l member).1 with interactive | ⟨-, other⟩
      · exact if_pos ⟨interactive, off⟩
      · cases of_hint.symm.trans other
  | setInteractive on acq =>
    refine ⟨tracks acq, fun _ => ?_⟩
    rw [displayUndoes]
    refine ⟨h.owns inOrder fun i undone => .inl ?_, h.releases able fun l member _ _ => ?_⟩
    · split at undone
      · exact (Option.some.inj undone).symm
      · cases undone
    · exact if_pos ((h.governed l member).1.symm.imp_left And.left)
  | videoEncodeHintFunction expectedCounter acq => exact ⟨tracks acq, fun pending _ => (h.pending pending).2.1⟩
  | setGovernor content => trivial

/-! ### The hints keep the order -/

/-- A hint that comes in order, with what its arms do to the encode hint. -/
theorem Orderly.want (h : m.Orderly) {m' : PowerModule} {hintId : Int} {on : Prop} {undone : Option Int}
    (effect : m.utils.Effect hint video.hintId hintId acq on undone m'.utils) (fresh : m.utils.Fresh acq)
    (tracks : m.utils.Tracks acq) (owns : m.utils.Owns hint undone)
    (releases : video.state = 0 → m.utils.Releases hint video.hintId undone) (lone : m.Lone hint video)
    (turns_on : on → video.state = 1 ∧ hintId = video.hintId ∧ m.Governs hint ∧ hint ≠ .videoEncode)
    (wanted : m'.wanted = m.wanted) (governor : m'.getScalingGovernor = m.getScalingGovernor)
    (stays : m.videoEncodeHintIsEnabled = true →
      m'.videoEncodeHintIsEnabled = true ∨ hint = .videoEncode ∧ video.state = 0)
    (enabled : m'.videoEncodeHintIsEnabled = true →
      (m'.want hint video).wanted .videoEncode m'.curHintId = true)
    (pending : m'.videoEncodeHintShouldEnable = true → m.getScalingGovernor = some INTERACTIVE_GOVERNOR ∧
      (m'.want hint video).wanted .videoEncode m'.newHintId = true ∧
      ∀ l ∈ m.utils.held, l.hint ≠ .videoEncode) : (m'.want hint video).Orderly := by
  have kept := h.kept.want wanted effect fresh tracks owns releases fun holds => (turns_on holds).1
  obtain ⟨records, held⟩ := effect.records h.kept.records fresh tracks owns
  -- what is wanted now is what was wanted, or the hint itself
  have wants : ∀ {h' id}, (m'.want hint video).wanted h' id = true →
      h' = hint ∧ id = video.hintId ∧ video.state = 1 ∨ m.wanted h' id = true ∧
        ¬ (h' = hint ∧ id = video.hintId ∧ video.state = 0) := by
    intro h' id on
    simp only [PowerModule.want, wanted] at on
    split_ifs at on with here state off
    · exact .inl ⟨here.1, here.2, state⟩
    · exact .inr ⟨on, fun no => off no.2.2⟩
    · exact .inr ⟨on, fun no => here ⟨no.1, no.2.1⟩⟩
  have single : m'.utils.Single := h.single.brings records.distinct fun l member => by
    rcases held l member with ⟨old, -⟩ | ⟨holds, brings⟩
    · exact .inl old
    · rw [(turns_on holds).2.1] at brings
      exact .inr ⟨brings, fun l' member' same =>
        (lone _ _ (h.kept.on l' member') (.inr same)).2.2 (turns_on holds).1⟩
  refine ⟨kept, single, fun h₁ h₂ id₁ id₂ on₁ on₂ => ?_, fun l member => ⟨?_, fun encode => ?_⟩, enabled,
    fun should => ?_⟩
  · rcases wants on₁ with ⟨rfl, rfl, state⟩ | ⟨old₁, -⟩
    · rcases wants on₂ with ⟨rfl, rfl, -⟩ | ⟨old₂, -⟩
      · exact iff_of_true rfl rfl
      · have apart := fun no => (lone _ _ old₂ no).2.2 state
        exact iff_of_false (fun no => apart (.inl no.symm)) fun no => apart (.inr no.symm)
    · rcases wants on₂ with ⟨rfl, rfl, state⟩ | ⟨old₂, -⟩
      · have apart := fun no => (lone _ _ old₁ no).2.2 state
        exact iff_of_false (fun no => apart (.inl no)) fun no => apart (.inr no)
      · exact h.apart _ _ _ _ old₁ old₂
  · change m'.getScalingGovernor = _ ∨ m'.getScalingGovernor = _ ∧ _
    rw [governor]
    rcases held l member with ⟨old, -⟩ | ⟨holds, -, of_hint, -⟩
    · exact (h.governed l old).1
    · exact of_hint ▸ (turns_on holds).2.2.1
  · rcases held l member with ⟨old, -⟩ | ⟨holds, -, of_hint, -⟩
    · rcases stays ((h.governed l old).2 encode) with still | ⟨rfl, off⟩
      · exact still
      · -- no encode hint is on any more, so the lock is gone
        rcases wants (kept.on l member) with ⟨-, -, state⟩ | ⟨on, not_off⟩
        · omega
        · exact absurd ⟨encode, (lone _ _ on (.inl encode)).2.1, off⟩ not_off
    · exact absurd (of_hint.symm.trans encode) (turns_on holds).2.2.2
  · obtain ⟨interactive, wanted', none_held⟩ := pending should
    refine ⟨governor.trans interactive, wanted', fun l member encode => ?_⟩
    rcases held l member with ⟨old, -⟩ | ⟨holds, -, of_hint, -⟩
    · exact none_held l old encode
    · exact (turns_on holds).2.2.2 (of_hint.symm.trans encode)

/-- A hint for decoding or the display leaves the encode hint alone. -/
theorem Orderly.besides (h : m.Orderly) {m' : PowerModule} {on : Prop} {undone : Option Int}
    (same : m'.besides = m.besides)
    (effect : m.utils.Effect hint video.hintId video.hintId acq on undone m'.utils) (fresh : m.utils.Fresh acq)
    (tracks : m.utils.Tracks acq) (owns : m.utils.Owns hint undone)
    (releases : video.state = 0 → m.utils.Releases hint video.hintId undone) (lone : m.Lone hint video)
    (other : hint ≠ .videoEncode) (turns_on : on → video.state = 1 ∧ m.Governs hint) :
    (m'.want hint video).Orderly := by
  simp only [PowerModule.besides, Prod.mk.injEq] at same
  obtain ⟨governor, wanted, should, enabled, new, cur⟩ := same
  have unmoved : ∀ id, (m'.want hint video).wanted .videoEncode id = m.wanted .videoEncode id := by
    intro id
    rw [PowerModule.want, wanted]
    exact if_neg fun no => other no.1.symm
  refine h.want effect fresh tracks owns releases lone
    (fun holds => ⟨(turns_on holds).1, rfl, (turns_on holds).2, other⟩) wanted
    (by rw [getScalingGovernor, governor]; rfl) (fun before => .inl (enabled.trans before)) ?_ ?_
  · rw [enabled, cur, unmoved]
    exact h.enabled
  · rw [should, new, unmoved]
    exact h.pending

theorem Orderly.perform (h : m.Orderly) (able : m.Able) {a : Action} (permitted : m.Permitted a)
    (inOrder : m.InOrder a) : (m.perform a).Orderly := by
  have matched := h.matched able inOrder
  have kept := h.kept.perform permitted matched
  cases a with
  | videoEncode metadata created acq =>
    cases metadata with
    | none =>
      rw [PowerModule.perform, powerHintVideoEncode_none]
      exact h
    | some text =>
      obtain ⟨lone, interactive, rfl, states⟩ := inOrder text rfl
      obtain ⟨owns, releases, -⟩ := matched.2 text rfl
      obtain ⟨wanted, effect⟩ := powerHintVideoEncode_effect m text true acq
      have unread : ¬ ∃ read ∈ m.readByPower text true, read.state = 1 := by
        simp [readByPower, interactive, states]
      have order := h.want effect permitted matched.1 owns releases lone (fun on => absurd on unread) wanted
      rcases states with off | on
      · -- the thread is cancelled, and what it has done is undone
        have same : (m.powerHintVideoEncode (some text) true acq).besides =
            (m.scalingGovernor, m.wanted, false, false, m.newHintId, m.curHintId) := by
          cases enabled : m.videoEncodeHintIsEnabled <;>
            simp [powerHintVideoEncode, overrideVideoEncodeHint, interactive, off, enabled,
              PowerModule.besides, undoHintAction]
        simp only [PowerModule.besides, Prod.mk.injEq] at same
        obtain ⟨governor, -, should, enabled, -⟩ := same
        refine order (by rw [getScalingGovernor, governor]; rfl) (fun _ => .inr ⟨rfl, off⟩) ?_ ?_
        · simp [enabled]
        · simp [should]
      · -- nothing was on, and the thread is for this hint
        have none_on : ∀ id, m.wanted .videoEncode id ≠ true := fun id before =>
          (lone _ _ before (.inl rfl)).2.2 on
        have same : (m.powerHintVideoEncode (some text) true acq).besides =
            (m.scalingGovernor, m.wanted, true, m.videoEncodeHintIsEnabled,
              (parseVideoEncodeMetadata text).hintId, m.curHintId) := by
          simp [powerHintVideoEncode, overrideVideoEncodeHint, interactive, on, PowerModule.besides]
        simp only [PowerModule.besides, Prod.mk.injEq] at same
        obtain ⟨governor, -, should, enabled, new, cur⟩ := same
        refine order (by rw [getScalingGovernor, governor]; rfl) (fun before => .inl (enabled.trans before))
          (fun now => absurd (h.enabled (enabled.symm.trans now)) (none_on _)) fun _ => ⟨interactive, ?_,
            fun l member encode => none_on l.named (encode ▸ h.kept.on l member)⟩
        rw [new]
        simp [PowerModule.want, on]
  | videoDecode metadata acq =>
    cases metadata with
    | none =>
      rw [PowerModule.perform, processVideoDecodeHint_none]
      exact h
    | some text =>
      obtain ⟨lone, not_ondemand⟩ := inOrder text rfl
      obtain ⟨owns, releases⟩ := matched.2 text rfl
      obtain ⟨same, effect⟩ := processVideoDecodeHint_effect m text acq
      refine h.besides same effect permitted matched.1 owns releases lone (by simp) ?_
      rintro ⟨on, governed⟩
      exact ⟨on, .inl (governed.resolve_left not_ondemand)⟩
  | setInteractive on acq =>
    obtain ⟨same, effect⟩ := setInteractive_effect m on acq
    obtain ⟨owns, releases⟩ := matched.display
    refine h.besides same effect permitted matched.1 owns releases inOrder (by simp) ?_
    rintro ⟨rfl, governed⟩
    exact ⟨rfl, governed.symm.imp_right (⟨·, rfl⟩)⟩
  | videoEncodeHintFunction expectedCounter acq =>
    rw [PowerModule.perform, PowerModule.videoEncodeHintFunction] at kept ⊢
    split at kept
    next owns =>
      rw [if_pos owns]
      obtain ⟨interactive, wanted, none_held⟩ := h.pending owns.1
      have effect : m.utils.Effect .videoEncode m.newHintId m.newHintId acq True none
          (m.utils.performHintAction .videoEncode m.newHintId m.newHintId [0x150C, 0x1F03, 0x2303] acq) :=
        .acquires trivial _
      obtain ⟨records, held⟩ := effect.records h.kept.records permitted.2 matched.1 Utils.owns_none
      have others : ∀ l ∈ m.utils.held, l.named ≠ m.newHintId := fun l member same =>
        none_held l member ((h.apart _ _ _ _ (same ▸ h.kept.on l member) wanted).mpr rfl)
      exact ⟨kept, h.single.brings records.distinct fun l member =>
          (held l member).imp And.left fun new => ⟨new.2, others⟩,
        h.apart, fun l _ => ⟨.inl interactive, fun _ => rfl⟩, fun _ => wanted, by simp⟩
    next owns =>
      rw [if_neg owns]
      exact ⟨kept, h.single, h.apart, h.governed, h.enabled, h.pending⟩
  | setGovernor content =>
    have none_held : ∀ l, l ∉ m.utils.held := fun l member => by
      have on := h.kept.on l member
      rw [inOrder] at on
      cases on
    refine ⟨kept, h.single, h.apart, fun l member => absurd member (none_held l), h.enabled, fun should => ?_⟩
    have wanted := (h.pending should).2.1
    rw [inOrder] at wanted
    cases wanted

/-- After hints that came in order, with a library that can release locks, one more meets the condition of
`hints_release_locks`. -/
theorem matched_of_inOrder {qcoptHandle perfLockAcq perfLockRel : Bool} {as : List Action}
    (run : Run (fun m a => some (perform m a)) (fun m a => m.Permitted a ∧ m.Able ∧ m.InOrder a)
      (init qcoptHandle perfLockAcq perfLockRel) as m) {a : Action} (able : m.Able) (inOrder : m.InOrder a) :
    m.Matched a := by
  have orderly : m.Orderly := run.invariant Orderly
    (fun m a m' h ok stepped => Option.some.inj stepped ▸ h.perform ok.2.1 ok.1 ok.2.2)
    ⟨⟨⟨rfl, List.nodup_nil, rfl⟩, nofun⟩, nofun, nofun, nofun, nofun, nofun⟩
  exact orderly.matched able inOrder

end PowerModule

end Hima.Power
