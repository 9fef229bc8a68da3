import Hima.Camera.BufferManager

/-!
# What the buffer counts promise

What a section needs of the counts, and what it leaves of them. Beside the counts stand the buffers
that count under a registration: those handed out, and those of the calls that still have to return.
-/
namespace Hima.BufferManager

open Runs KeyedVector StreamSet

variable {m m' : Camera3BufferManager} {set set' : StreamSet} {key : StreamSetKey} {s : Int}
  {claims claims' : Registration → Nat}

/-! ### Sections that return -/

/-- The section ends with a result that has the property, or for want of a stream in `mStreamMap`. -/
def Returns {α : Type} (r : Except Fault α) (P : α → Prop) : Prop :=
  r = .error .unknownStream ∨ ∃ x, r = .ok x ∧ P x

namespace Returns

variable {α β : Type} {r : Except Fault α} {P Q : α → Prop}

theorem of_ok {x : α} (holds : P x) : Returns (.ok x) P := .inr ⟨x, rfl, holds⟩

theorem bind {f : α → Except Fault β} {Q : β → Prop} (first : Returns r P)
    (then_ : ∀ x, P x → Returns (f x) Q) : Returns (r >>= f) Q := by
  rcases first with rfl | ⟨x, rfl, holds⟩
  · exact .inl rfl
  · exact then_ x holds

theorem map {f : α → β} {Q : β → Prop} (returns : Returns r P) (maps : ∀ x, P x → Q (f x)) :
    Returns (r.map f) Q := by
  rcases returns with rfl | ⟨x, rfl, holds⟩
  · exact .inl rfl
  · exact .inr ⟨f x, rfl, maps x holds⟩

end Returns

theorem ok_bind {α β : Type} (x : α) (f : α → Except Fault β) : (Except.ok x >>= f) = f x := rfl

theorem editValueFor_of_lookup {κ ν : Type} [LinearOrder κ] {map : KeyedVector κ ν} {k : κ} {v : ν}
    (found : map.lookup k = some v) : editValueFor map k = .ok v := by
  rw [editValueFor, found]

/-! ### Stream sets -/

namespace StreamSet

/-- The three maps of a set know the same streams, each by its id. -/
structure Agrees (set : StreamSet) : Prop where
  named : ∀ item ∈ set.streamInfoMap.items, item.2.streamId = item.1
  handout : ∀ s, (set.handoutBufferCountMap.lookup s).isSome = (set.streamInfoMap.lookup s).isSome
  attached : ∀ s, (set.attachedBufferCountMap.lookup s).isSome = (set.streamInfoMap.lookup s).isSome

theorem agrees_empty : ({} : StreamSet).Agrees := ⟨nofun, fun _ => rfl, fun _ => rfl⟩

theorem Agrees.recount (agrees : set.Agrees) (infos : set'.streamInfoMap = set.streamInfoMap)
    (handout : ∀ s, (set'.handoutBufferCountMap.lookup s).isSome = (set.handoutBufferCountMap.lookup s).isSome)
    (attached : ∀ s, (set'.attachedBufferCountMap.lookup s).isSome =
      (set.attachedBufferCountMap.lookup s).isSome) : set'.Agrees := by
  refine ⟨?_, ?_, ?_⟩
  · rw [infos]
    exact agrees.named
  · intro s
    rw [handout, agrees.handout, infos]
  · intro s
    rw [attached, agrees.attached, infos]

/-- The buffers handed out to a stream and those attached to it. -/
def counts (set : StreamSet) (s : Int) : Option (Nat × Nat) :=
  (set.handoutBufferCountMap.lookup s).bind fun handout =>
    (set.attachedBufferCountMap.lookup s).map fun attached => (handout, attached)

theorem counts_of_lookup {x y : Nat} (handout : set.handoutBufferCountMap.lookup s = some x)
    (attached : set.attachedBufferCountMap.lookup s = some y) : set.counts s = some (x, y) := by
  simp [counts, handout, attached]

theorem lookup_of_counts {x y : Nat} (counted : set.counts s = some (x, y)) :
    set.handoutBufferCountMap.lookup s = some x ∧ set.attachedBufferCountMap.lookup s = some y := by
  obtain ⟨x', handout, rest⟩ := Option.bind_eq_some_iff.mp counted
  obtain ⟨y', attached, pair⟩ := Option.map_eq_some_iff.mp rest
  obtain ⟨rfl, rfl⟩ := Prod.mk.inj pair
  exact ⟨handout, attached⟩

theorem counts_congr (handout : set'.handoutBufferCountMap.lookup s = set.handoutBufferCountMap.lookup s)
    (attached : set'.attachedBufferCountMap.lookup s = set.attachedBufferCountMap.lookup s) :
    set'.counts s = set.counts s := by
  rw [counts, counts, handout, attached]

theorem lowerWaterMark_maps (set : StreamSet) :
    set.lowerWaterMark.streamInfoMap = set.streamInfoMap ∧
      set.lowerWaterMark.handoutBufferCountMap = set.handoutBufferCountMap ∧
      set.lowerWaterMark.attachedBufferCountMap = set.attachedBufferCountMap := by
  rw [lowerWaterMark]
  split <;> exact ⟨rfl, rfl, rfl⟩

/-- The search for another stream finds its counts, and a free buffer where it ends. -/
theorem Agrees.firstOtherStream (agrees : set.Agrees) (streamId : Int)
    (infos : List (Int × StreamInfo)) (known : ∀ item ∈ infos, item ∈ set.streamInfoMap.items) :
    ∃ other, set.firstOtherStream streamId infos = .ok other ∧
      ∀ s, other = some s → ∃ x y, set.counts s = some (x, y) ∧ x < y := by
  induction infos with
  | nil => exact ⟨none, rfl, nofun⟩
  | cons item infos ih =>
    obtain ⟨id, info⟩ := item
    have rest := ih fun later member => known later (List.mem_cons_of_mem _ member)
    have member := known _ List.mem_cons_self
    have present := isSome_lookup_of_mem member
    obtain rfl : info.streamId = id := agrees.named _ member
    obtain ⟨x, handout⟩ := Option.isSome_iff_exists.mp ((agrees.handout _).trans present)
    obtain ⟨y, attached⟩ := Option.isSome_iff_exists.mp ((agrees.attached _).trans present)
    rw [StreamSet.firstOtherStream]
    split
    · rw [editValueFor_of_lookup handout, editValueFor_of_lookup attached]
      by_cases spare : y > x
      · refine ⟨some info.streamId, if_pos spare, ?_⟩
        rintro s ⟨⟩
        exact ⟨x, y, counts_of_lookup handout attached, spare⟩
      · obtain ⟨other, found, free⟩ := rest
        exact ⟨other, (if_neg spare).trans found, free⟩
    · exact rest

end StreamSet

/-! ### The manager -/

/-- The buffers that an answer, or a call that goes on, still counts under its registration. -/
def Progress.buffers : Progress → Nat
  | .returns rv => if rv = .ok ∨ rv = .alreadyExists then 1 else 0
  | .detaches _ _ => 1

theorem Progress.buffers_le (progress : Progress) : progress.buffers ≤ 1 := by
  cases progress with
  | returns rv =>
    rw [buffers]
    split <;> omega
  | detaches => exact Nat.le_refl 1

namespace Camera3BufferManager

def counts (m : Camera3BufferManager) (key : StreamSetKey) (s : Int) : Option (Nat × Nat) :=
  (m.mStreamSetMap.lookup key).bind (·.counts s)

/-- Some buffer attached to the stream is not handed out. -/
def hasFreeBuffer (m : Camera3BufferManager) (key : StreamSetKey) (s : Int) : Bool :=
  match m.counts key s with
  | none => false
  | some (handout, attached) => handout < attached

theorem hasFreeBuffer_iff : m.hasFreeBuffer key s = true ↔ ∃ x y, m.counts key s = some (x, y) ∧ x < y := by
  rw [hasFreeBuffer]
  rcases m.counts key s with _ | ⟨x, y⟩ <;> simp

/-- All streams but one. -/
def Besides (key : StreamSetKey) (s : Int) : StreamSetKey → Int → Prop := fun k s' => ¬ (k = key ∧ s' = s)

/-- The streams that are left alone keep a free buffer, and the map its entries. -/
def Spares (m m' : Camera3BufferManager) (alone : StreamSetKey → Int → Prop) : Prop :=
  m'.storage = m.storage ∧
    ∀ k s, alone k s → m.hasFreeBuffer k s = true → m'.hasFreeBuffer k s = true

/-- The counts, when so many buffers count under each registration. -/
structure Sound (m : Camera3BufferManager) (claims : Registration → Nat) : Prop where
  agrees : ∀ key set, m.mStreamSetMap.lookup key = some set → set.Agrees
  counted : ∀ key s x y, m.counts key s = some (x, y) →
    x ≤ y ∧ x ≤ m.allowed key s ∧ claims ⟨key, s, m.registration key s⟩ ≤ x
  numbered : ∀ key s, m.registration key s ≤ m.registrations
  unclaimed : ∀ buffer : Registration, m.registrations < buffer.number → claims buffer = 0

/-- What a section leaves behind. -/
def Leaves (m : Camera3BufferManager) (claims : Registration → Nat) (alone : StreamSetKey → Int → Prop)
    (m' : Camera3BufferManager) : Prop :=
  m'.Sound claims ∧ m.Spares m' alone

theorem Sound.mono (h : m.Sound claims) (fewer : ∀ b, claims' b ≤ claims b) : m.Sound claims' := by
  refine ⟨h.agrees, ?_, h.numbered, ?_⟩
  · intro key s x y counted
    obtain ⟨attached, allowed, claimed⟩ := h.counted key s x y counted
    exact ⟨attached, allowed, Nat.le_trans (fewer _) claimed⟩
  · intro buffer later
    exact Nat.le_zero.mp (Nat.le_trans (fewer buffer) (Nat.le_of_eq (h.unclaimed buffer later)))

theorem Sound.congr (h : m.Sound claims) (sets : m'.mStreamSetMap = m.mStreamSetMap)
    (registration : m'.registration = m.registration) (registrations : m'.registrations = m.registrations)
    (allowed : m'.allowed = m.allowed) (fewer : ∀ b, claims' b ≤ claims b) : m'.Sound claims' := by
  have h := h.mono fewer
  refine ⟨?_, ?_, ?_, ?_⟩
  · rw [sets]
    exact h.agrees
  · intro key s x y
    rw [counts, sets, registration, allowed]
    exact h.counted key s x y
  · rw [registration, registrations]
    exact h.numbered
  · rw [registrations]
    exact h.unclaimed

theorem counts_of_found (found : m.mStreamSetMap.lookup key = some set) (s : Int) :
    m.counts key s = set.counts s := by
  rw [counts, found, Option.bind_some]

theorem counts_setStreamSet (found : m.mStreamSetMap.lookup key = some set) (set' : StreamSet)
    (k : StreamSetKey) (s : Int) :
    (m.setStreamSet key set').counts k s = if k = key then set'.counts s else m.counts k s := by
  rw [counts, setStreamSet, lookup_setValueFor]
  split
  · rw [found]
    rfl
  · rfl

/-- The counts of the other streams are read past the change. -/
theorem counts_besides (found : m.mStreamSetMap.lookup key = some set)
    (others : ∀ s', s' ≠ s → set'.counts s' = set.counts s') {k : StreamSetKey} {s' : Int} (apart : Besides key s k s') :
    (m.setStreamSet key set').counts k s' = m.counts k s' := by
  rw [counts_setStreamSet found]
  split
  next same =>
    subst same
    rw [others s' fun same => apart ⟨rfl, same⟩, counts_of_found found]
  next => rfl

/-- One stream of a set gets new counts. -/
theorem Sound.put (h : m.Sound claims) (found : m.mStreamSetMap.lookup key = some set)
    (agrees : set'.Agrees) (others : ∀ s', s' ≠ s → set'.counts s' = set.counts s')
    {allowed : StreamSetKey → Int → Nat} (frame : ∀ k s', ¬ (k = key ∧ s' = s) → allowed k s' = m.allowed k s')
    (fewer : ∀ b, b ≠ ⟨key, s, m.registration key s⟩ → claims' b ≤ claims b)
    (here : ∀ x y, set'.counts s = some (x, y) →
      x ≤ y ∧ x ≤ allowed key s ∧ claims' ⟨key, s, m.registration key s⟩ ≤ x) :
    Sound { m.setStreamSet key set' with allowed := allowed } claims' := by
  refine ⟨?_, ?_, h.numbered, ?_⟩
  · intro k other lookup
    have lookup := (lookup_setValueFor _ _ _ _).symm.trans lookup
    split at lookup
    next =>
      rw [found] at lookup
      exact Option.some.inj lookup ▸ agrees
    next => exact h.agrees k other lookup
  · intro k s' x y counted
    by_cases this : k = key ∧ s' = s
    · obtain ⟨rfl, rfl⟩ := this
      have counted := (counts_setStreamSet found set' k s').symm.trans counted
      rw [if_pos rfl] at counted
      exact here x y counted
    · obtain ⟨attached, bounded, claimed⟩ := h.counted k s' x y ((counts_besides found others this).symm.trans counted)
      refine ⟨attached, ?_, ?_⟩
      · exact Nat.le_trans bounded (Nat.le_of_eq (frame k s' this).symm)
      · refine Nat.le_trans (fewer _ ?_) claimed
        intro same
        obtain ⟨rfl, rfl, -⟩ := Registration.mk.inj same
        exact this ⟨rfl, rfl⟩
  · intro buffer later
    have apart : buffer ≠ ⟨key, s, m.registration key s⟩ := by
      rintro rfl
      exact Nat.not_lt.mpr (h.numbered key s) later
    exact Nat.le_zero.mp (Nat.le_trans (fewer buffer apart) (Nat.le_of_eq (h.unclaimed buffer later)))

theorem Sound.recount (h : m.Sound claims) (found : m.mStreamSetMap.lookup key = some set)
    (set' : StreamSet) (allowed : StreamSetKey → Int → Nat)
    (infos : set'.streamInfoMap = set.streamInfoMap) {x₀ y₀ x y : Nat}
    (known : set.handoutBufferCountMap.lookup s = some x₀ ∧ set.attachedBufferCountMap.lookup s = some y₀)
    (handout : ∀ s', set'.handoutBufferCountMap.lookup s' =
      if s' = s then some x else set.handoutBufferCountMap.lookup s')
    (attached : ∀ s', set'.attachedBufferCountMap.lookup s' =
      if s' = s then some y else set.attachedBufferCountMap.lookup s')
    (frame : ∀ k s', ¬ (k = key ∧ s' = s) → allowed k s' = m.allowed k s')
    (fewer : ∀ b, b ≠ ⟨key, s, m.registration key s⟩ → claims' b ≤ claims b)
    (here : x ≤ y ∧ x ≤ allowed key s ∧ claims' ⟨key, s, m.registration key s⟩ ≤ x)
    {alone : StreamSetKey → Int → Prop} (free : alone key s → x₀ < y₀ → x < y) :
    m.Leaves claims' alone { m.setStreamSet key set' with allowed := allowed } := by
  have counted := counts_of_lookup ((handout s).trans (if_pos rfl)) ((attached s).trans (if_pos rfl))
  have others : ∀ s', s' ≠ s → set'.counts s' = set.counts s' := fun s' apart =>
    counts_congr ((handout s').trans (if_neg apart)) ((attached s').trans (if_neg apart))
  refine ⟨h.put found ((h.agrees key set found).recount infos ?_ ?_) others frame fewer ?_, rfl, ?_⟩
  · intro s'
    rw [handout]
    split
    next same => rw [same, known.1]; rfl
    next => rfl
  · intro s'
    rw [attached]
    split
    next same => rw [same, known.2]; rfl
    next => rfl
  · intro x' y' counted'
    obtain ⟨rfl, rfl⟩ := Prod.mk.inj (Option.some.inj (counted.symm.trans counted'))
    exact here
  · intro k s' left had
    rw [hasFreeBuffer_iff] at had ⊢
    obtain ⟨a, b, before, less⟩ := had
    by_cases this : k = key ∧ s' = s
    · obtain ⟨rfl, rfl⟩ := this
      rw [counts_of_found found, counts_of_lookup known.1 known.2] at before
      cases before
      exact ⟨x, y, (counts_setStreamSet found set' k s').trans ((if_pos rfl).trans counted), free left less⟩
    · exact ⟨a, b, (counts_besides found others this).trans before, less⟩

theorem Sound.registered (h : m.Sound claims) (registered : m.checkIfStreamRegisteredLocked key s = true) :
    ∃ set x y, m.mStreamSetMap.lookup key = some set ∧
      set.handoutBufferCountMap.lookup s = some x ∧ set.attachedBufferCountMap.lookup s = some y ∧
      x ≤ y ∧ x ≤ m.allowed key s ∧ claims ⟨key, s, m.registration key s⟩ ≤ x := by
  rw [checkIfStreamRegisteredLocked] at registered
  split at registered
  next => cases registered
  next set found =>
    have known : (set.streamInfoMap.lookup s).isSome := by
      simp only [Bool.and_eq_true] at registered
      exact registered.1.1
    have agrees := h.agrees key set found
    obtain ⟨x, handout⟩ := Option.isSome_iff_exists.mp ((agrees.handout s).trans known)
    obtain ⟨y, attached⟩ := Option.isSome_iff_exists.mp ((agrees.attached s).trans known)
    have counted := (counts_of_found found s).trans (counts_of_lookup handout attached)
    exact ⟨set, x, y, found, handout, attached, h.counted key s x y counted⟩

/-! ### The sections -/

/-- The stream that a call is going to detach a buffer of has a free one. -/
def Chooses (m : Camera3BufferManager) (key : StreamSetKey) (progress : Progress) : Prop :=
  ∀ other checks, progress = .detaches other checks → m.hasFreeBuffer key other = true

theorem freeOnOtherStreams_returns (promotes : Bool) (checks : Nat)
    (found : checks ≠ 0 → ∃ set, m.mStreamSetMap.lookup key = some set ∧ set.Agrees) :
    Returns (m.freeOnOtherStreams key s promotes checks) (m.Chooses key) := by
  induction checks with
  | zero => exact .of_ok nofun
  | succ checks ih =>
    obtain ⟨set, found, agrees⟩ := found (Nat.succ_ne_zero checks)
    refine Returns.bind (P := m.Chooses key) ?_ ?_
    · rw [checkAndFreeBufferOnOtherStreamsLocked, editValueFor_of_lookup found]
      obtain ⟨other, first, free⟩ := agrees.firstOtherStream s _ fun _ member => member
      simp only [ok_bind, first]
      split
      · exact .of_ok nofun
      · split
        · exact .of_ok nofun
        next other =>
          split
          · split
            · exact .inl rfl
            · split
              · refine .of_ok ?_
                rintro _ _ ⟨⟩
                rw [hasFreeBuffer_iff]
                simpa only [counts_of_found found] using free other rfl
              · exact .of_ok nofun
          · exact .of_ok nofun
    · intro progress chooses
      split
      · exact ih fun _ => ⟨set, found, agrees⟩
      · exact .of_ok chooses

/-- A call that fails gets no buffer, whatever it does to the attached count. -/
theorem Sound.reattach (h : m.Sound claims) (found : m.mStreamSetMap.lookup key = some set) {x y : Nat}
    (handout : set.handoutBufferCountMap.lookup s = some x)
    (attached : set.attachedBufferCountMap.lookup s = some y) (y' : Nat)
    (here : x ≤ y' ∧ x ≤ m.allowed key s ∧ claims ⟨key, s, m.registration key s⟩ ≤ x) :
    m.Leaves claims (Besides key s) (m.setStreamSet key { set with
      attachedBufferCountMap := set.attachedBufferCountMap.setValueFor s y' }) := by
  refine h.recount found _ m.allowed (by rfl) ⟨handout, attached⟩ ?_
    (lookup_setValueFor_of_lookup attached y') (fun _ _ _ => rfl)
    (fun _ _ => Nat.le_refl _) here fun apart => absurd ⟨rfl, rfl⟩ apart
  intro s'
  split
  next same => rw [same, handout]
  next => rfl

/-- A stream with a free buffer loses one. -/
theorem Sound.bufferRemoved (h : m.Sound claims) (free : m.hasFreeBuffer key s = true) :
    ∃ set', (m.mStreamSetMap.lookup key).isSome ∧ m.bufferRemoved key s = .ok (m.setStreamSet key set') ∧
      m.Leaves claims (Besides key s) (m.setStreamSet key set') := by
  obtain ⟨x, y, counted, less⟩ := hasFreeBuffer_iff.mp free
  obtain ⟨set, found, set_counts⟩ := Option.bind_eq_some_iff.mp counted
  obtain ⟨handout, attached⟩ := lookup_of_counts set_counts
  obtain ⟨y, rfl⟩ : ∃ z, y = z + 1 := ⟨y - 1, by omega⟩
  obtain ⟨-, allowed, claimed⟩ := h.counted key s x _ counted
  refine ⟨_, by simp [found], ?_, h.reattach found handout attached y
    ⟨Nat.le_of_lt_succ less, allowed, claimed⟩⟩
  rw [Camera3BufferManager.bufferRemoved, editValueFor_of_lookup found]
  simp only [ok_bind, editValueFor_of_lookup attached, decrement]

/-- One more buffer counts, within the bound of the set. -/
theorem Sound.countHandout (h : m.Sound claims) (found : m.mStreamSetMap.lookup key = some set)
    {x y y' : Nat} (handout : set.handoutBufferCountMap.lookup s = some x)
    (attached : set.attachedBufferCountMap.lookup s = some y)
    (claimed : claims ⟨key, s, m.registration key s⟩ ≤ x) (set' : StreamSet)
    (infos : set'.streamInfoMap = set.streamInfoMap)
    (handouts : set'.handoutBufferCountMap = set.handoutBufferCountMap)
    (attached' : ∀ s', set'.attachedBufferCountMap.lookup s' =
      if s' = s then some y' else set.attachedBufferCountMap.lookup s')
    (le : x + 1 ≤ y') (below : x < set'.maxAllowedBufferCount) (progress : Progress) :
    m.Leaves (fun b => claims b + if b = ⟨key, s, m.registration key s⟩ then progress.buffers else 0)
      (Besides key s) (m.countHandout key s set' x) := by
  have one := progress.buffers_le
  refine h.recount found { set' with
    handoutBufferCountMap := set'.handoutBufferCountMap.setValueFor s (x + 1) } _ infos
    ⟨handout, attached⟩ ?_ attached' (fun k s' apart => if_neg apart) ?_ ⟨le, ?_, ?_⟩
    fun apart => absurd ⟨rfl, rfl⟩ apart
  · rw [handouts]
    exact lookup_setValueFor_of_lookup handout (x + 1)
  · intro b apart
    rw [if_neg apart]
    exact Nat.le_refl _
  · rw [if_pos ⟨rfl, rfl⟩]
    exact below
  · rw [if_pos rfl]
    omega

theorem countHandout_lookup (found : m.mStreamSetMap.lookup key = some set) (set' : StreamSet) (x : Nat) :
    ∃ set'', (m.countHandout key s set' x).mStreamSetMap.lookup key = some set'' := by
  apply Option.isSome_iff_exists.mp
  refine (isSome_lookup_setValueFor _ _ _ _).trans ?_
  rw [found]
  rfl

theorem Sound.getBufferForStream (h : m.Sound claims) (noFreeBufferAtConsumer allocates promotes : Bool) :
    Returns (m.getBufferForStream key s noFreeBufferAtConsumer allocates promotes) fun (progress, m') =>
      m'.out = m.out ∧ m'.detaching = m.detaching ∧ m'.registration = m.registration ∧ m'.Chooses key progress ∧
      m.Leaves (fun b => claims b + if b = ⟨key, s, m.registration key s⟩ then progress.buffers else 0)
        (Besides key s) m' := by
  -- an answer without a buffer
  have fails : ∀ {m' : Camera3BufferManager} {rv : StatusT}, m.Leaves claims (Besides key s) m' →
      ¬ (rv = .ok ∨ rv = .alreadyExists) → m.Leaves (fun b => claims b +
        if b = ⟨key, s, m.registration key s⟩ then (Progress.returns rv).buffers else 0) (Besides key s) m' := by
    rintro m' rv ⟨sound, spares⟩ failure
    exact ⟨sound.mono fun b => by simp [Progress.buffers, failure], spares⟩
  rw [Camera3BufferManager.getBufferForStream]
  by_cases registered : m.checkIfStreamRegisteredLocked key s = false
  · rw [if_pos registered]
    exact .of_ok ⟨rfl, rfl, rfl, nofun, fails ⟨h, rfl, fun _ _ _ free => free⟩ (by simp)⟩
  · rw [if_neg registered]
    obtain ⟨set, x, y, found, handout, attached, le, allowed, claimed⟩ :=
      h.registered (Bool.eq_true_of_not_eq_false registered)
    rw [editValueFor_of_lookup found, ok_bind, editValueFor_of_lookup handout, ok_bind,
      editValueFor_of_lookup attached, ok_bind]
    generalize kept : (if noFreeBufferAtConsumer = true then x else y) = attachedBufferCount
    have enough : x ≤ attachedBufferCount := by
      subst kept
      split <;> omega
    have reattached := h.reattach found handout attached _ ⟨enough, allowed, claimed⟩
    have reattach := lookup_setValueFor_of_lookup attached attachedBufferCount
    by_cases full : x ≥ set.maxAllowedBufferCount
    · rw [if_pos full]
      exact .of_ok ⟨rfl, rfl, rfl, nofun, fails reattached (by simp)⟩
    · rw [if_neg full]
      by_cases spare : attachedBufferCount > x
      · rw [if_pos spare]
        exact .of_ok ⟨rfl, rfl, rfl, nofun, h.countHandout found handout attached claimed
          { set with
            attachedBufferCountMap := set.attachedBufferCountMap.setValueFor s attachedBufferCount }
          rfl rfl reattach spare (Nat.lt_of_not_ge full) _⟩
      · rw [if_neg spare]
        by_cases allocated : allocates = false
        · rw [if_pos allocated]
          exact .of_ok ⟨rfl, rfl, rfl, nofun, fails reattached (by simp)⟩
        · rw [if_neg allocated]
          -- a new buffer, attached and handed out, and then the checks
          have sound := h.countHandout found handout attached claimed
            { set with
              attachedBufferCountMap := (set.attachedBufferCountMap.setValueFor s
                attachedBufferCount).setValueFor s (attachedBufferCount + 1)
              allocatedBufferWaterMark := max set.allocatedBufferWaterMark (x + 2) } rfl rfl
            (fun s' => by
              rw [lookup_setValueFor_of_lookup ((reattach s).trans (if_pos rfl)), reattach]
              split <;> rfl)
            (Nat.succ_le_succ enough) (Nat.lt_of_not_ge full)
          refine Returns.bind ?_ fun progress chooses => .of_ok ⟨rfl, rfl, rfl, chooses, sound progress⟩
          apply freeOnOtherStreams_returns
          intro _
          exact (countHandout_lookup found _ x).imp fun set' found' =>
            ⟨found', (sound (.returns .ok)).1.agrees key set' found'⟩

/-- A buffer that counts under the registration of its stream is released. -/
theorem Sound.onBufferReleased (h : m.Sound claims) {b : Registration} (out : 0 < claims b)
    (current : m.checkIfStreamRegisteredLocked b.key b.streamId = true →
      m.registration b.key b.streamId = b.number) :
    ∃ should m', m.onBufferReleased b.key b.streamId = .ok (should, m') ∧
      m'.out = m.out ∧ m'.detaching = m.detaching ∧
      m.Leaves (Function.update claims b (claims b - 1)) (fun _ _ => True) m' := by
  have fewer : ∀ b', Function.update claims b (claims b - 1) b' ≤ claims b' := by
    intro b'
    by_cases same : b' = b
    · rw [same, Function.update_self]
      exact Nat.sub_le _ _
    · exact Nat.le_of_eq (Function.update_of_ne same _ _)
  rw [Camera3BufferManager.onBufferReleased]
  -- a stream that is gone answers without a change
  by_cases registered : m.checkIfStreamRegisteredLocked b.key b.streamId = false
  · rw [if_pos registered]
    exact ⟨_, _, rfl, rfl, rfl, h.mono fewer, rfl, fun _ _ _ free => free⟩
  · rw [if_neg registered]
    have registered := Bool.eq_true_of_not_eq_false registered
    obtain ⟨set, x, y, found, handout, attached, le, allowed, claimed⟩ := h.registered registered
    have this : (⟨b.key, b.streamId, m.registration b.key b.streamId⟩ : Registration) = b := by
      rw [current registered]
    rw [this] at claimed
    obtain ⟨x, rfl⟩ : ∃ z, x = z + 1 := ⟨x - 1, by omega⟩
    rw [editValueFor_of_lookup found, ok_bind, editValueFor_of_lookup handout, ok_bind, decrement, ok_bind]
    dsimp only
    obtain ⟨infos, handout', attached'⟩ := lowerWaterMark_maps
      { set with handoutBufferCountMap := set.handoutBufferCountMap.setValueFor b.streamId x }
    rw [attached', editValueFor_of_lookup attached, ok_bind]
    refine ⟨_, _, rfl, rfl, rfl, ?_⟩
    refine h.recount found _ m.allowed infos ⟨handout, attached⟩ (x := x) (y := y) ?_ ?_
      (fun _ _ _ => rfl) (fun b' _ => fewer b') ⟨by omega, by omega, ?_⟩ fun _ _ => by omega
    · rw [handout']
      exact lookup_setValueFor_of_lookup handout x
    · intro s'
      rw [attached']
      split
      next same => rw [same, attached]
      next => rfl
    · rw [this, Function.update_self]
      omega

/-- Buffers that count under the registration of their stream are removed. -/
theorem Sound.onBuffersRemoved (h : m.Sound claims) (count : Nat) (claims' : Registration → Nat)
    (fewer : ∀ b, claims' b ≤ claims b) (current : m.checkIfStreamRegisteredLocked key s = true →
      claims' ⟨key, s, m.registration key s⟩ + count ≤ claims ⟨key, s, m.registration key s⟩) :
    ∃ rv m', m.onBuffersRemoved key s count = .ok (rv, m') ∧
      m'.out = m.out ∧ m'.detaching = m.detaching ∧ m.Leaves claims' (fun _ _ => True) m' := by
  rw [Camera3BufferManager.onBuffersRemoved]
  by_cases registered : m.checkIfStreamRegisteredLocked key s = false
  · rw [if_pos registered]
    exact ⟨_, _, rfl, rfl, rfl, h.mono fewer, rfl, fun _ _ _ free => free⟩
  · rw [if_neg registered]
    have registered := Bool.eq_true_of_not_eq_false registered
    obtain ⟨set, x, y, found, handout, attached, le, allowed, claimed⟩ := h.registered registered
    have out := current registered
    rw [editValueFor_of_lookup found, ok_bind, editValueFor_of_lookup handout, ok_bind,
      editValueFor_of_lookup attached, ok_bind, if_neg (by omega), if_neg (by omega)]
    refine ⟨_, _, rfl, rfl, rfl, ?_⟩
    exact h.recount found _ m.allowed (by rfl) ⟨handout, attached⟩
      (lookup_setValueFor_of_lookup handout (x - count))
      (lookup_setValueFor_of_lookup attached (y - count)) (fun _ _ _ => rfl)
      (fun b _ => fewer b) ⟨by omega, by omega, by omega⟩ fun _ _ => by omega

/-- A set that is looked up with new contents has them, or it is another one. -/
theorem lookup_setStreamSet {k : StreamSetKey} {other : StreamSet}
    (lookup : (m.setStreamSet key set').mStreamSetMap.lookup k = some other) :
    (k = key ∧ other = set') ∨ (k ≠ key ∧ m.mStreamSetMap.lookup k = some other) := by
  have lookup := (lookup_setValueFor _ _ _ _).symm.trans lookup
  by_cases same : k = key
  · rw [if_pos same] at lookup
    obtain ⟨-, -, rfl⟩ := Option.map_eq_some_iff.mp lookup
    exact .inl ⟨same, rfl⟩
  · rw [if_neg same] at lookup
    exact .inr ⟨same, lookup⟩

theorem Sound.addStreamSet (h : m.Sound claims) (key : StreamSetKey) (storage : Nat) :
    Sound { m with mStreamSetMap := m.mStreamSetMap.add key {}, storage := storage } claims := by
  refine ⟨?_, ?_, h.numbered, h.unclaimed⟩
  · intro k set lookup
    rw [lookup_add] at lookup
    split at lookup
    · obtain rfl := Option.some.inj lookup
      exact agrees_empty
    · exact h.agrees k set lookup
  · intro k s x y counted
    refine h.counted k s x y ?_
    rw [counts, lookup_add] at counted
    split at counted
    · cases counted
    · exact counted

theorem Sound.addStream (h : m.Sound claims) (found : m.mStreamSetMap.lookup key = some set)
    (info : StreamInfo) (mStreamMap : KeyedVector Int Unit) :
    Sound
      { m.setStreamSet key
          { set with
            streamInfoMap := set.streamInfoMap.add info.streamId info
            handoutBufferCountMap := set.handoutBufferCountMap.add info.streamId 0
            attachedBufferCountMap := set.attachedBufferCountMap.add info.streamId 0
            maxAllowedBufferCount := max set.maxAllowedBufferCount info.totalBufferCount } with
        mStreamMap := mStreamMap
        registrations := m.registrations + 1
        registration := fun k s =>
          if k = key ∧ s = info.streamId then m.registrations + 1 else m.registration k s } claims := by
  have agrees := h.agrees key set found
  refine ⟨?_, ?_, ?_, ?_⟩
  · intro k other lookup
    rcases lookup_setStreamSet lookup with ⟨rfl, rfl⟩ | ⟨-, lookup⟩
    · refine ⟨?_, ?_, ?_⟩
      · intro item member
        rcases mem_add member with rfl | old
        · rfl
        · exact agrees.named item old
      · intro s
        rw [lookup_add, lookup_add]
        split
        · rfl
        · exact agrees.handout s
      · intro s
        rw [lookup_add, lookup_add]
        split
        · rfl
        · exact agrees.attached s
    · exact h.agrees k other lookup
  · intro k s x y counted
    -- the new registration has no claims; those of the others are read past it
    by_cases this : k = key ∧ s = info.streamId
    · obtain ⟨rfl, rfl⟩ := this
      have recounted := (counts_setStreamSet found _ _ _).symm.trans counted
      rw [if_pos rfl] at recounted
      obtain ⟨handout, attached⟩ := lookup_of_counts recounted
      rw [lookup_add, if_pos rfl] at handout attached
      obtain rfl := Option.some.inj handout
      obtain rfl := Option.some.inj attached
      refine ⟨Nat.le_refl 0, Nat.zero_le _, ?_⟩
      simp only [and_self, if_true]
      exact Nat.le_of_eq (h.unclaimed _ (Nat.lt_succ_self _))
    · simp only [if_neg this]
      refine h.counted k s x y ((counts_besides (s := info.streamId) found ?_ this).symm.trans counted)
      intro s' apart
      simp only [StreamSet.counts, lookup_add, if_neg apart]
  · intro k s
    dsimp only
    split
    · exact Nat.le_refl _
    · exact Nat.le_succ_of_le (h.numbered k s)
  · exact fun buffer later => h.unclaimed buffer (Nat.lt_of_succ_lt later)

theorem Sound.registerStream (h : m.Sound claims) (info : StreamInfo) :
    (m.registerStream info).2.out = m.out ∧ (m.registerStream info).2.detaching = m.detaching ∧
      (m.registerStream info).2.Sound claims := by
  rw [Camera3BufferManager.registerStream]
  split
  · exact ⟨rfl, rfl, h⟩
  · split
    · exact ⟨rfl, rfl, h⟩
    · split
      · exact ⟨rfl, rfl, h⟩
      · split
        · exact ⟨rfl, rfl, h⟩
        · cases found : m.mStreamSetMap.lookup
            { id := info.streamSetId, isMultiRes := info.isMultiRes } with
          | some set =>
            dsimp only
            split
            · exact ⟨rfl, rfl, h⟩
            · exact ⟨rfl, rfl, h.addStream found info _⟩
          | none =>
            have created := h.addStreamSet
              { id := info.streamSetId, isMultiRes := info.isMultiRes } (m.storage + 1)
            have there := (lookup_add m.mStreamSetMap
              { id := info.streamSetId, isMultiRes := info.isMultiRes } {} _).trans (if_pos rfl)
            exact ⟨rfl, rfl, created.addStream there info _⟩

theorem Sound.unregisterStream (h : m.Sound claims) :
    ∃ rv m', m.unregisterStream key s = .ok (rv, m') ∧ m'.out = m.out ∧ m'.detaching = m.detaching ∧
      m'.Sound claims := by
  rw [Camera3BufferManager.unregisterStream]
  by_cases registered : m.checkIfStreamRegisteredLocked key s = false
  · rw [if_pos registered]
    exact ⟨_, _, rfl, rfl, rfl, h⟩
  · rw [if_neg registered]
    obtain ⟨set, x, y, found, -⟩ := h.registered (Bool.eq_true_of_not_eq_false registered)
    have agrees := h.agrees key set found
    rw [editValueFor_of_lookup found, ok_bind]
    -- the set with what is left in it
    have left : ∀ max : Nat, (m.setStreamSet key
        { allocatedBufferWaterMark := 0
          maxAllowedBufferCount := max
          streamInfoMap := set.streamInfoMap.removeItem s
          handoutBufferCountMap := set.handoutBufferCountMap.removeItem s
          attachedBufferCountMap := set.attachedBufferCountMap.removeItem s }).Sound claims := by
      intro max
      refine h.put (s := s) found ⟨?_, ?_, ?_⟩ ?_ (fun _ _ _ => rfl) (fun _ _ => Nat.le_refl _) ?_
      · exact fun item member => agrees.named item (mem_removeItem member)
      · intro s'
        rw [lookup_removeItem, lookup_removeItem]
        split
        · rfl
        · exact agrees.handout s'
      · intro s'
        rw [lookup_removeItem, lookup_removeItem]
        split
        · rfl
        · exact agrees.attached s'
      · intro s' apart
        exact counts_congr ((lookup_removeItem _ _ _).trans (if_neg apart))
          ((lookup_removeItem _ _ _).trans (if_neg apart))
      · intro x y counted
        have gone := (lookup_of_counts counted).1
        rw [lookup_removeItem, if_pos rfl] at gone
        cases gone
    dsimp only
    have sound := left ((set.streamInfoMap.removeItem s).items.map (·.2.totalBufferCount) |>.foldl max 0)
    split
    · refine ⟨_, _, rfl, rfl, rfl, ?_, ?_, h.numbered, h.unclaimed⟩
      · intro k other lookup
        rw [lookup_removeItem] at lookup
        split at lookup
        · cases lookup
        · exact sound.agrees k other lookup
      · intro k s' x y counted
        rw [counts, lookup_removeItem] at counted
        split at counted
        · cases counted
        · exact sound.counted k s' x y counted
    · exact ⟨_, _, rfl, rfl, rfl, sound.congr rfl rfl rfl rfl fun _ => Nat.le_refl _⟩

end Camera3BufferManager

end Hima.BufferManager
