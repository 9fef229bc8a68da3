import Hima.Camera.InFlight

/-!
# What runs of the HAL's callbacks keep

A call writes to the log and changes the request of one frame. What the log promises does not depend
on the map; a request relies on the log only for its shutter.
-/
namespace Hima.Camera3Output

open Runs KeyedVector

variable {M : Type} {env : OutputEnv M} (timesOut : StreamBuffer → Bool) {s s' : OutputStates M}
  {f : Nat} {c : Callback} {kind : FrameKind} {o : Output M} {r old : InFlightRequest M}
  {back : List StreamBuffer}

/-! ### The log -/

namespace Output

/-- The frame of a shutter, or of a final result, of the kind. -/
def frameAt (c : Callback) (kind : FrameKind) : Output M → Option Nat
  | .notifyShutter kind' f _ _ => if c = .shutter ∧ kind = kind' then some f else none
  | .result kind' f _ _ _ => if c = .result ∧ kind = kind' then some f else none
  | _ => none

def returned : Output M → Option StreamBuffer
  | .returnBuffer b _ _ => some b
  | _ => none

/-- Neither a shutter nor a final result, nor the end of a request. -/
def Quiet : Output M → Prop
  | .notifyShutter .. | .result .. | .removed .. => False
  | _ => True

end Output

open Output

/-- The frames that were passed on, the latest first. -/
def frames (c : Callback) (kind : FrameKind) (log : List (Output M)) : List Nat :=
  log.filterMap (frameAt c kind)

/-- A request that leaves the map is complete, and what the assertion of the source asks for holds. -/
def Progress.Removable (r : Progress) : Prop :=
  r.Complete ∧ (r.requestStatus ≠ 0 ∨ r.pendingOutputBuffers = [])

/-- What an output promises about those before it: frames rise, and a final result comes after the
shutter. -/
def Follows (env : OutputEnv M) (log : List (Output M)) (o : Output M) : Prop :=
  (∀ c kind f, o.frameAt c kind = some f → (∀ g ∈ frames c kind log, g < f) ∧
    (c = .result → env.hasListener = true → f ∈ frames .shutter kind log)) ∧
  ∀ f r, o = .removed f r → r.Removable

/-- Every output keeps its promise. -/
def InOrder (env : OutputEnv M) : List (Output M) → Prop
  | [] => True
  | o :: log => Follows env log o ∧ InOrder env log

/-- The log is in order, and the counters are ahead of it. -/
structure Logged (env : OutputEnv M) (s : OutputStates M) : Prop where
  inOrder : InOrder env s.log
  ahead : ∀ c kind, ∀ g ∈ frames c kind s.log, g < s.nextFrameNum c kind

/-- The log has grown, with these buffers returned, and stays in order. The map is the same. -/
structure Tells (env : OutputEnv M) (s s' : OutputStates M) (returns : List StreamBuffer) : Prop where
  logged : Logged env s → Logged env s'
  map : s'.inflightMap = s.inflightMap
  taken : s'.taken = s.taken
  log : ∃ outs, s'.log = outs ++ s.log ∧ outs.filterMap returned = returns

theorem Tells.refl (s : OutputStates M) : Tells env s s [] :=
  ⟨id, rfl, rfl, [], rfl, rfl⟩

theorem Tells.trans {s'' : OutputStates M} {back' : List StreamBuffer}
    (first : Tells env s s' back) (second : Tells env s' s'' back') :
    Tells env s s'' (back' ++ back) := by
  obtain ⟨outs, log, rfl⟩ := first.log
  obtain ⟨outs', log', rfl⟩ := second.log
  refine ⟨second.logged ∘ first.logged, second.map.trans first.map, second.taken.trans first.taken,
    outs' ++ outs, ?_, List.filterMap_append⟩
  rw [log', log, List.append_assoc]

theorem Tells.push (follows : Logged env s → Follows env s.log o)
    (ahead : Logged env s → ∀ c kind g, o.frameAt c kind = some g → g < s.nextFrameNum c kind) :
    Tells env s (s.push o) ([o].filterMap returned) := by
  refine ⟨fun h => ⟨⟨follows h, h.inOrder⟩, fun c kind g member => ?_⟩, rfl, rfl, [o], rfl, rfl⟩
  obtain ⟨x, among, told⟩ := List.mem_filterMap.mp member
  rcases List.mem_cons.mp among with rfl | earlier
  · exact ahead h c kind g told
  · exact h.ahead c kind g (List.mem_filterMap.mpr ⟨x, earlier, told⟩)

theorem Tells.quiet (s : OutputStates M) (o : Output M) (quiet : o.Quiet) :
    Tells env s (s.push o) ([o].filterMap returned) := by
  refine .push (fun _ => ⟨fun c kind g told => ?_, fun f r removed => ?_⟩) fun _ c kind g told => ?_
  all_goals cases o <;> first | exact quiet.elim | contradiction

theorem Tells.setErr (e : OutputError) : Tells env s (s.setErr e) [] :=
  .quiet s (.setErrorState e) trivial

theorem Tells.advance (turn : ¬f < s.nextFrameNum c kind) (small : f + 1 < 4294967296) :
    Tells env s (s.advance c kind f) [] := by
  refine ⟨fun h => ⟨h.inOrder, fun c' k g member => ?_⟩, rfl, rfl, [], rfl, rfl⟩
  have before := h.ahead c' k g member
  rw [OutputStates.advance]
  dsimp only
  split
  next here =>
    obtain ⟨rfl, rfl⟩ := here
    omega
  next => exact before

/-- A shutter or final result in its turn. -/
theorem Tells.frame (turn : ¬f < s.nextFrameNum c kind) (small : f + 1 < 4294967296)
    (told : ∀ c' k, o.frameAt c' k = if c' = c ∧ k = kind then some f else none)
    (announced : c = .result → env.hasListener = true → f ∈ frames .shutter kind s.log) :
    Tells env s ((s.advance c kind f).push o) ([o].filterMap returned) := by
  have only {c' : Callback} {k : FrameKind} {g : Nat} (here : o.frameAt c' k = some g) :
      c' = c ∧ k = kind ∧ f = g := by
    rw [told, Option.ite_none_right_eq_some, Option.some.injEq, and_assoc] at here
    exact here
  refine ⟨fun h => ?_, rfl, rfl, [o], rfl, rfl⟩
  refine (Tells.push (s := s.advance c kind f) (fun _ => ⟨?_, ?_⟩) fun _ c' k g here => ?_).logged
    ((Tells.advance turn small).logged h)
  · intro c' k g here
    obtain ⟨rfl, rfl, rfl⟩ := only here
    exact ⟨fun g member => (h.ahead _ _ g member).trans_le (Nat.le_of_not_lt turn), announced⟩
  · rintro f r rfl
    simpa [frameAt] using told c kind
  · obtain ⟨rfl, rfl, rfl⟩ := only here
    rw [OutputStates.advance]
    dsimp only
    rw [if_pos ⟨rfl, rfl⟩, Nat.mod_eq_of_lt small]
    exact Nat.lt_succ_self f

/-! ### What the parts of a call write -/

/-- The buffers of a request that go to their streams. -/
def Progress.returns (r : Progress) : List StreamBuffer :=
  r.pendingOutputBuffers.filter fun b => (b.buffer ≠ none : Bool) && !r.caches b

theorem returnOutputBuffer_tells (r : InFlightRequest M) (t : Int) (inc : Bool) (s : OutputStates M)
    (b : StreamBuffer) : Tells env s (returnOutputBuffer env timesOut r t inc s b)
      (if b.buffer ≠ none ∧ r.caches b = false then [b] else []) := by
  have error (s : OutputStates M) (p : Bool) (extras : CaptureResultExtras) :
      Tells env s (if p then s.push (.notifyError .cameraBuffer extras) else s) [] := by
    split
    · exact .quiet s (.notifyError ..) trivial
    · exact .refl s
  rw [returnOutputBuffer]
  by_cases goes : b.buffer ≠ none ∧ r.caches b = false
  · rw [if_neg (by simpa [not_or] using goes), if_pos goes]
    split
    · exact (((error s _ _).trans (.quiet _ (.returnBuffer ..) trivial)).trans
        (.quiet _ (.cancelBuffer _) trivial)).trans (error _ _ _)
    · exact (error s _ _).trans (.quiet _ (.returnBuffer ..) trivial)
  · rw [if_pos (by simpa [or_iff_not_imp_left] using goes), if_neg goes]
    exact error s _ _

theorem returnOutputBuffers_tells (r : InFlightRequest M) (t : Int) (inc : Bool) (s : OutputStates M) :
    Tells env s (returnOutputBuffers env timesOut r t inc s) r.returns.reverse := by
  rw [returnOutputBuffers, Progress.returns]
  induction r.pendingOutputBuffers generalizing s with
  | nil => exact .refl s
  | cons b bs ih =>
    have all := (returnOutputBuffer_tells timesOut r t inc s b).trans (ih _)
    rw [List.filter_cons]
    split at all
    next goes => rwa [if_pos (by simpa using goes), List.reverse_cons]
    next stays => rwa [if_neg (by simpa using stays), ← List.append_nil (List.reverse _)]

theorem sendPartialCaptureResult_tells (metadata : M) :
    Tells env s (sendPartialCaptureResult env s f r metadata) [] := by
  rw [sendPartialCaptureResult]
  split
  · exact .setErr _
  · split
    · exact .refl s
    · exact .quiet s (.partialResult ..) trivial

theorem sendCaptureResult_tells (small : f + 1 < 4294967296)
    (announced : env.hasListener = true → f ∈ frames .shutter r.kind s.log) (metadata collected : M) :
    Tells env s (sendCaptureResult env s f r metadata collected) [] := by
  rw [sendCaptureResult]
  split
  · exact .refl s
  split
  · exact .setErr _
  next turn =>
    -- the counter moves on, also where the result is refused
    have refused (e : OutputError) : Tells env s ((s.advance .result r.kind f).setErr e) [] :=
      (Tells.advance turn small).trans (.setErr e)
    dsimp only
    generalize (if env.usePartialResult = true ∧ ¬env.isEmpty collected = true then
      env.append metadata collected else metadata) = metadata
    split
    · exact refused _
    split
    · exact refused _
    split
    · exact refused _
    · exact Tells.frame (o := .result ..) turn small (fun _ _ => rfl) fun _ => announced

/-! ### The map -/

/-- What a request in the map may rely on. -/
structure Tracked (env : OutputEnv M) (log : List (Output M)) (f : Nat) (r : Progress) :
    Prop where
  small : f + 1 < 4294967296
  strategy : r.haveResultMetadata = true ∨ r.skipResultMetadata = true →
    r.errorBufStrategy ≠ .bufCache
  failed : r.skipResultMetadata = true → r.requestStatus ≠ 0
  announced : r.shutterTimestamp ≠ 0 → r.hasCallback = true → env.hasListener = true →
    f ∈ frames .shutter r.kind log

/-- A request with its metadata and shutter has no buffer left, unless it has failed or got too many
buffers. -/
def Progress.Emptied (r : Progress) : Prop :=
  r.haveResultMetadata = true → r.shutterTimestamp ≠ 0 → r.requestStatus = 0 →
    0 ≤ r.numBuffersLeft → r.pendingOutputBuffers = []

/-- The buffers that wait in the map. -/
def pending (items : List (Nat × InFlightRequest M)) : List StreamBuffer :=
  items.flatMap fun item => item.2.pendingOutputBuffers

structure Sound (env : OutputEnv M) (s : OutputStates M) : Prop where
  logged : Logged env s
  requests : ∀ item ∈ s.inflightMap.items,
    Tracked env s.log item.1 item.2.toProgress ∧ item.2.Emptied
  buffers : ∀ b : StreamBuffer, b.buffer ≠ none →
    s.taken.count b = (s.log.filterMap returned).count b + (pending s.inflightMap.items).count b

/-- Beside that, no complete request is in the map. -/
structure Inv (env : OutputEnv M) (s : OutputStates M) : Prop extends Sound env s where
  settled : ∀ f r, s.inflightMap.lookup f = some r → ¬r.Complete

theorem Tracked.mono {r : Progress} (h : Tracked env s.log f r) (tells : Tells env s s' back) :
    Tracked env s'.log f r := by
  obtain ⟨outs, log, -⟩ := tells.log
  refine ⟨h.small, h.strategy, h.failed, fun shutter callback listener => ?_⟩
  rw [log, frames, List.filterMap_append]
  exact List.mem_append_right _ (h.announced shutter callback listener)

theorem Sound.of_lookup (h : Sound env s) (known : s.inflightMap.lookup f = some r) :
    Tracked env s.log f r.toProgress ∧ r.Emptied :=
  h.requests _ (lookup_eq_some_iff.mp known)

/-- Every buffer with a handle is returned or kept. -/
theorem count_returns (r : Progress) {b : StreamBuffer} (handle : b.buffer ≠ none) :
    r.returns.count b + (r.pendingOutputBuffers.filter r.caches).count b = r.pendingOutputBuffers.count b := by
  rw [Progress.returns, ← List.filter_filter, List.count_filter (by simpa using handle), Nat.add_comm]
  exact (List.countP_eq_countP_filter_add _ _ _).symm

theorem Inv.tells (h : Inv env s) (tells : Tells env s s' []) : Inv env s' := by
  obtain ⟨outs, log, none⟩ := tells.log
  refine ⟨⟨tells.logged h.logged, ?_, ?_⟩, tells.map ▸ h.settled⟩
  · rw [tells.map]
    exact fun item member => (h.requests item member).imp_left (·.mono tells)
  · rw [tells.map, tells.taken, log, List.filterMap_append, none, List.nil_append]
    exact h.buffers

/-- A request leaves the map with all its buffers returned. -/
theorem Sound.remove {completed : FrameKind → Int} (h : Sound env s)
    (known : s.inflightMap.lookup f = some r) (tells : Tells env s s' back)
    (all : ∀ b : StreamBuffer, b.buffer ≠ none → back.count b = r.pendingOutputBuffers.count b) :
    Sound env
      { s' with lastCompletedFrameNumber := completed, inflightMap := s'.inflightMap.removeItem f } := by
  obtain ⟨pre, post, items, removed, -⟩ := split_of_lookup known
  have logged := tells.logged h.logged
  obtain ⟨outs, log, rfl⟩ := tells.log
  rw [← tells.map] at removed
  refine ⟨⟨logged.inOrder, logged.ahead⟩, fun item member => ?_, ?_⟩
  · have kept := h.requests item (tells.map ▸ mem_removeItem member)
    have tracked : Tracked env s'.log item.1 item.2.toProgress := kept.1.mono tells
    exact ⟨tracked, kept.2⟩
  · intro b handle
    have before := h.buffers b handle
    have goes := all b handle
    rw [items] at before
    simp only [removed, tells.taken, log, pending, List.flatMap_append, List.flatMap_cons,
      List.count_append, List.filterMap_append] at before ⊢
    omega

theorem removeIfReady_inv (h : Sound env s) (known : s.inflightMap.lookup f = some r)
    (others : ∀ g q, g ≠ f → s.inflightMap.lookup g = some q → ¬q.Complete) :
    Inv env (removeInFlightRequestIfReadyLocked env timesOut s f r) := by
  rw [removeInFlightRequestIfReadyLocked]
  split
  next complete =>
    obtain ⟨tracked, emptied⟩ := h.of_lookup known
    have removable : r.Removable := by
      refine ⟨complete, ?_⟩
      rcases complete with ⟨left, skip | ⟨have_, shutter⟩⟩
      · exact .inl (tracked.failed skip)
      · exact or_iff_not_imp_left.mpr fun status =>
          emptied have_ shutter (not_not.mp status) (Int.le_of_eq left.symm)
    -- the strategy is not to cache, so that every buffer goes
    have strategy := tracked.strategy (complete.2.symm.imp And.left id)
    have all (b : StreamBuffer) (handle : b.buffer ≠ none) :
        r.returns.reverse.count b = r.pendingOutputBuffers.count b := by
      have counted := count_returns r.toProgress handle
      rw [List.filter_eq_nil_iff.mpr (by simp [Progress.caches, strategy])] at counted
      rw [List.count_reverse]
      exact counted
    have leaves (s : OutputStates M) : Tells env s (s.push (.removed f r.toProgress)) [] :=
      Tells.push (o := .removed ..)
        (fun _ => ⟨nofun, fun _ _ same => by cases same; exact removable⟩) nofun
    have checked : Tells env s (if r.hasCallback = true ∧ r.requestStatus = 0 ∧
        r.sensorTimestamp ≠ r.shutterTimestamp then s.setErr .timestampMismatch else s) [] := by
      split
      · exact .setErr _
      · exact .refl s
    have tells := (checked.trans (returnOutputBuffers_tells timesOut r 0 true _)).trans (leaves _)
    refine ⟨h.remove known tells (by simpa using all), fun g q found => ?_⟩
    rw [lookup_removeItem, tells.map] at found
    split at found
    · cases found
    next other => exact others g q other found
  next incomplete =>
    refine ⟨h, fun g q found => ?_⟩
    by_cases same : g = f
    · subst same
      rw [known] at found
      exact Option.some.inj found ▸ incomplete
    · exact others g q same found

/-! ### Calls -/

section OneRequest

variable (h : Inv env s) (known : s.inflightMap.lookup f = some old)
include h known

/-- The request of the frame is put back, and leaves the map if it is complete. The buffers that come
in, and those the request had, are returned or pending. -/
theorem put_inv (taken : List StreamBuffer) (tells : Tells env { s with taken := taken ++ s.taken } s' back)
    (tracked : Tracked env s'.log f r.toProgress) (emptied : r.Emptied)
    (balance : ∀ b : StreamBuffer, b.buffer ≠ none → taken.count b + old.pendingOutputBuffers.count b =
      back.count b + r.pendingOutputBuffers.count b) :
    Inv env (removeInFlightRequestIfReadyLocked env timesOut (s'.put f r) f r) ∧
      (¬r.Complete → Inv env (s'.put f r)) := by
  obtain ⟨pre, post, items, -, put⟩ := split_of_lookup known
  have logged := tells.logged ⟨h.logged.inOrder, h.logged.ahead⟩
  have kept (item : Nat × InFlightRequest M) (member : item ∈ s.inflightMap.items) :=
    (h.requests item member).imp_left fun tracked =>
      tracked.mono (s := { s with taken := taken ++ s.taken }) tells
  have map : (s'.put f r).inflightMap.items = pre ++ (f, r) :: post := by
    rw [OutputStates.put, tells.map]
    exact put r
  have found (g : Nat) : (s'.put f r).inflightMap.lookup g =
      if g = f then some r else s.inflightMap.lookup g := by
    rw [OutputStates.put, tells.map]
    exact lookup_setValueFor_of_lookup known r g
  have others (g : Nat) (q : InFlightRequest M) (other : g ≠ f)
      (there : (s'.put f r).inflightMap.lookup g = some q) : ¬q.Complete := by
    rw [found, if_neg other] at there
    exact h.settled g q there
  -- only the entry of the frame differs
  have sound : Sound env (s'.put f r) := by
    obtain ⟨outs, log, rfl⟩ := tells.log
    refine ⟨⟨logged.inOrder, logged.ahead⟩, ?_, fun b handle => ?_⟩
    · rw [map]
      intro item member
      rw [List.mem_append, List.mem_cons] at member
      rcases member with earlier | rfl | later
      · exact kept item (by simp [items, earlier])
      · exact ⟨tracked, emptied⟩
      · exact kept item (by simp [items, later])
    · have before := h.buffers b handle
      have balanced := balance b handle
      rw [map, show (s'.put f r).taken = taken ++ s.taken from tells.taken,
        show (s'.put f r).log = outs ++ s.log from log]
      rw [items] at before
      simp only [pending, List.flatMap_append, List.flatMap_cons, List.count_append,
        List.filterMap_append] at before ⊢
      omega
  have left := removeIfReady_inv timesOut sound (by rw [found, if_pos rfl]) others
  refine ⟨left, fun incomplete => ?_⟩
  rwa [removeInFlightRequestIfReadyLocked, if_neg incomplete] at left

theorem keep_inv (tracked : Tracked env s.log f r.toProgress) (emptied : r.Emptied)
    (same : r.pendingOutputBuffers = old.pendingOutputBuffers) :
    Inv env (removeInFlightRequestIfReadyLocked env timesOut (s.put f r) f r) ∧
      (¬r.Complete → Inv env (s.put f r)) :=
  put_inv timesOut h known [] (Tells.refl s) tracked emptied fun b _ => by simp [same]

end OneRequest

theorem returnAndRemove_tells (tracked : Tracked env s'.log f r.toProgress) :
    let next := returnAndRemovePendingOutputBuffers env timesOut s r
    Tells env s next.1 r.returns.reverse ∧ next.2.Emptied ∧
      ∀ b : StreamBuffer, b.buffer ≠ none → r.pendingOutputBuffers.count b =
        r.returns.reverse.count b + next.2.pendingOutputBuffers.count b := by
  refine ⟨returnOutputBuffers_tells timesOut r _ _ s, fun final _ _ _ => ?_, fun b handle => ?_⟩
  · have strategy := tracked.strategy (.inl final)
    exact List.filter_eq_nil_iff.mpr (by simp [Progress.caches, strategy])
  · rw [List.count_reverse]
    exact (count_returns _ handle).symm

theorem returnPending_tells (tracked : Tracked env s.log f r.toProgress) :
    let next := returnPending env timesOut s r
    ∃ back, Tells env s next.1 back ∧ Tracked env next.1.log f next.2.toProgress ∧
      next.2.Emptied ∧ ∀ b : StreamBuffer, b.buffer ≠ none →
        r.pendingOutputBuffers.count b = back.count b + next.2.pendingOutputBuffers.count b := by
  rw [returnPending]
  split
  · obtain ⟨tells, emptied, balance⟩ := returnAndRemove_tells timesOut tracked
    have later := tracked.mono tells
    exact ⟨_, tells, ⟨later.small, later.strategy, later.failed, later.announced⟩, emptied, balance⟩
  next none =>
    exact ⟨[], .refl s, tracked, fun _ shutter => absurd shutter none, fun b _ => (Nat.zero_add _).symm⟩

theorem deliverMetadata_tells {c : CaptureResult M} (collected : M)
    (tracked : Tracked env s.log c.frameNumber r.toProgress) :
    Tells env s (deliverMetadata env s c r collected).1 [] ∧
      (deliverMetadata env s c r collected).2.toProgress = r.toProgress := by
  rw [deliverMetadata]
  split
  · exact ⟨.refl s, rfl⟩
  split
  · exact ⟨.refl s, rfl⟩
  dsimp only
  split
  · exact ⟨.refl s, rfl⟩
  split
  next shutter callback =>
    refine ⟨sendCaptureResult_tells ?_ ?_ _ _, rfl⟩
    · exact tracked.small
    · exact tracked.announced shutter callback
  · exact ⟨.refl s, rfl⟩

theorem takeBuffers_inv {c : CaptureResult M} (collected : M) (h : Inv env s)
    (known : s.inflightMap.lookup c.frameNumber = some old)
    (same : r.pendingOutputBuffers = old.pendingOutputBuffers)
    (tracked : Tracked env s.log c.frameNumber r.toProgress) :
    Inv env (takeBuffers env timesOut s c r collected) := by
  have counted : Tracked env s.log c.frameNumber (countBuffers c r).toProgress :=
    ⟨tracked.small, tracked.strategy, tracked.failed, tracked.announced⟩
  rw [takeBuffers]
  dsimp only
  split
  next many =>
    refine ((keep_inv timesOut h known counted ?_ same).2 ?_).tells (.setErr _)
    · exact fun _ _ _ nonneg => absurd many (Int.not_lt.mpr nonneg)
    · exact fun complete => absurd complete.1 (Int.ne_of_lt many)
  next =>
    have arrived : Tracked env s.log c.frameNumber (appendBuffers env c (countBuffers c r)).toProgress :=
      ⟨tracked.small, tracked.strategy, tracked.failed, tracked.announced⟩
    obtain ⟨back, tells, tracked₂, emptied, balance⟩ := returnPending_tells timesOut
      (s := { s with taken := c.outputBuffers ++ s.taken }) arrived
    obtain ⟨delivered, kept⟩ := deliverMetadata_tells collected tracked₂
    refine (put_inv timesOut h known _ (tells.trans delivered)
      (kept ▸ tracked₂.mono delivered) (kept ▸ emptied) fun b handle => ?_).1
    have balanced := balance b handle
    rw [show (appendBuffers env c (countBuffers c r)).pendingOutputBuffers =
      old.pendingOutputBuffers ++ c.outputBuffers from congrArg (· ++ _) same,
      List.count_append] at balanced
    rw [kept, List.nil_append]
    omega

theorem takePhysicalIds_tracking (physcam : List (String × M)) (r : InFlightRequest M) :
    (takePhysicalIds physcam r).1.toProgress = r.toProgress := by
  induction physcam generalizing r with
  | nil => rfl
  | cons p physcam ih =>
    rw [takePhysicalIds]
    split
    · rfl
    · exact ih _

theorem takeFinalMetadata_tracking (env : OutputEnv M) (c : CaptureResult M) (r : InFlightRequest M) :
    (takeFinalMetadata env c r).1.toProgress = if (takeFinalMetadata env c r).2.2.isSome then r.toProgress
      else { r.toProgress with haveResultMetadata := true, errorBufStrategy := .bufReturnNotify } := by
  rw [takeFinalMetadata]
  split
  · rfl
  split
  · rfl
  have kept := takePhysicalIds_tracking c.physcam r
  split
  next taken => rw [taken] at kept; exact kept
  next taken => rw [taken] at kept; exact congrArg (fun r : Progress =>
      { r with haveResultMetadata := true, errorBufStrategy := .bufReturnNotify }) kept

theorem processCaptureResult_inv (c : CaptureResult M) (h : Inv env s) :
    Inv env (processCaptureResult env timesOut s c) := by
  rw [processCaptureResult]
  split
  · exact h.tells (.setErr _)
  split
  · exact h.tells (.setErr _)
  split
  · exact h.tells (.setErr _)
  next old known =>
    obtain ⟨tracked, emptied⟩ := h.of_lookup known
    have same : (notePartialCount c old).toProgress = old.toProgress := by
      rw [notePartialCount]
      split <;> rfl
    have refused {r : InFlightRequest M} (same : r.toProgress = old.toProgress)
        (e : OutputError) : Inv env ((s.put c.frameNumber r).setErr e) :=
      ((keep_inv timesOut h known (same ▸ tracked) (same ▸ emptied) (by rw [same])).2
        (same ▸ h.settled _ _ known)).tells (.setErr e)
    dsimp only
    split
    · exact refused same _
    split
    · exact takeBuffers_inv timesOut _ h known (by rw [same]) (same ▸ tracked)
    split
    · generalize told : (if (notePartialCount c old).hasCallback = true then _ else s) = s'
      have tells : Tells env s s' [] := by
        rw [← told]
        split
        · exact sendPartialCaptureResult_tells _
        · exact .refl s
      exact takeBuffers_inv timesOut _ (h.tells tells) (tells.map ▸ known) (by rw [same])
        (same ▸ tracked.mono tells)
    · have final := takeFinalMetadata_tracking env c (notePartialCount c old)
      rw [same] at final
      split
      next taken =>
        rw [taken] at final
        exact refused final _
      next taken =>
        rw [taken] at final
        have strategy : ErrorBufStrategy.bufReturnNotify ≠ .bufCache := by decide
        exact takeBuffers_inv timesOut _ h known (by rw [final]; rfl)
          (final ▸ ⟨tracked.small, fun _ => strategy, tracked.failed, tracked.announced⟩)

theorem passOnShutter_tells (env : OutputEnv M) (kept : r.kind = kind)
    (turn : ¬f < s.nextFrameNum .shutter kind) (small : f + 1 < 4294967296) :
    let next := passOnShutter env (s.advance .shutter kind f) f r
    Tells env s next.1 [] ∧ next.2.toProgress = r.toProgress ∧
      (next.2.hasCallback = true → env.hasListener = true → f ∈ frames .shutter next.2.kind next.1.log) := by
  subst kept
  rw [passOnShutter]
  split
  · refine ⟨Tells.frame (o := .notifyShutter ..) turn small (fun _ _ => rfl) nofun, rfl, fun _ _ => ?_⟩
    simp [frames, frameAt, OutputStates.push, InFlightArgs.kind]
  next silent =>
    exact ⟨.advance turn small, rfl, fun callback listener =>
      absurd (by rw [callback, listener]; rfl) silent⟩

theorem notifyShutter_inv (timestamp : Int) (h : Inv env s) :
    Inv env (notifyShutter env timesOut s f timestamp) := by
  rw [notifyShutter]
  split
  · exact h.tells (.setErr _)
  next old known =>
    dsimp only
    split
    · exact h.tells (.setErr _)
    next turn =>
      obtain ⟨tracked, -⟩ := h.of_lookup known
      -- the shutter is in the log when the result and the buffers go out
      obtain ⟨tells, same, announced⟩ := passOnShutter_tells env
        (r := { old with shutterTimestamp := timestamp }) rfl turn tracked.small
      generalize passOnShutter env (s.advance .shutter old.kind f) f _ = next at tells same announced ⊢
      have tracked₁ : Tracked env next.1.log f next.2.toProgress :=
        ⟨tracked.small, same ▸ tracked.strategy, same ▸ tracked.failed, fun _ => announced⟩
      have sends : Tells env next.1 (if next.2.hasCallback = true then sendCaptureResult env next.1 f
          next.2 next.2.pendingMetadata next.2.collectedPartialResult else next.1) [] := by
        split
        next callback => exact sendCaptureResult_tells tracked.small (announced callback) _ _
        · exact .refl _
      obtain ⟨goes, emptied, balance⟩ := returnAndRemove_tells timesOut (tracked₁.mono sends)
      have later := (tracked₁.mono sends).mono goes
      refine (put_inv timesOut h known [] ((tells.trans sends).trans goes) ?_ emptied fun b handle => ?_).1
      · exact ⟨later.small, later.strategy, later.failed, later.announced⟩
      · have balanced := balance b handle
        rw [congrArg Progress.pendingOutputBuffers same] at balanced
        simpa using balanced

theorem notifyRequestError_inv {msg : ErrorMsg} (error : ErrorCode) (failed : msg.errorCode ≠ 0)
    (h : Inv env s) : Inv env (notifyRequestError env timesOut s msg error) := by
  have notify {s : OutputStates M} (h : Inv env s) (extras : CaptureResultExtras) :
      Inv env (if env.hasListener = true then s.push (.notifyError error extras) else s) := by
    split
    · exact h.tells (.quiet s (.notifyError ..) trivial)
    · exact h
  rw [notifyRequestError]
  dsimp only
  split
  · exact notify h _
  next old known =>
    obtain ⟨tracked, -⟩ := h.of_lookup known
    have changed (ids : List (List String)) : Inv env (s.put msg.frameNumber
        { old with requestStatus := msg.errorCode, physicalCameraIds := ids }) := by
      refine (keep_inv timesOut h known ?_ ?_ ?_).2 (h.settled _ old known)
      · exact ⟨tracked.small, tracked.strategy, fun _ => failed, tracked.announced⟩
      · exact fun _ _ status => absurd status failed
      · rfl
    split
    · split
      · exact changed _
      · exact notify (changed _) _
    · refine notify (keep_inv timesOut h known ⟨?_, ?_, ?_, ?_⟩ ?_ ?_).1 _
      · exact tracked.small
      · intro _
        dsimp only
        split <;> decide
      · exact fun _ => failed
      · exact tracked.announced
      · exact fun _ _ status => absurd status failed
      · rfl

theorem notifyError_inv (msg : ErrorMsg) (h : Inv env s) : Inv env (notifyError env timesOut s msg) := by
  rw [notifyError]
  split
  · exact h.tells (.setErr _)
  · exact h
  · exact h.tells (.setErr _)
  next notInvalid =>
    -- 0 is an unused code
    refine notifyRequestError_inv timesOut _ (fun zero => notInvalid ?_) h
    rw [zero]
    rfl

theorem registerInFlight_inv {numBuffers : Nat} {extras : CaptureResultExtras}
    {ids : List (List String)} {args : InFlightArgs} (h : Inv env s) (small : f + 1 < 4294967296)
    (last : ∀ item ∈ s.inflightMap.items, item.1 < f) :
    Inv env (registerInFlight env s f numBuffers extras ids args) := by
  rw [registerInFlight]
  refine ⟨⟨⟨h.logged.inOrder, h.logged.ahead⟩, fun item member => ?_, fun b handle => ?_⟩, fun g q found => ?_⟩
  · rcases mem_add member with rfl | old
    · exact ⟨⟨small, by simp, by simp, by simp⟩, by simp [Progress.Emptied]⟩
    · exact h.requests item old
  · have before := h.buffers b handle
    simp only [items_add_last _ last, pending, List.flatMap_append, List.flatMap_cons,
      List.flatMap_nil, List.append_nil] at before ⊢
    exact before
  · rw [lookup_add] at found
    split at found
    · cases found
      simp [Progress.Complete]
    · exact h.settled g q found

/-! ### Runs -/

variable {ops : List (OutputOp M)}

theorem Inv.step {op : OutputOp M} (h : Inv env s) (fresh : FrameFresh s op)
    (stepped : outputStep env s op = some s') : Inv env s' := by
  cases op <;> cases stepped
  case registerInFlight => exact registerInFlight_inv h fresh.1 fresh.2
  case processCaptureResult => exact processCaptureResult_inv _ _ h
  case notifyShutter => exact notifyShutter_inv _ _ h
  case notifyError => exact notifyError_inv _ _ h

theorem run_inv (run : Run (outputStep env) FrameFresh {} ops s) : Inv env s :=
  run.invariant _ (fun _ _ _ h => h.step)
    ⟨⟨⟨trivial, fun _ _ _ member => nomatch member⟩, List.forall_mem_nil _, fun _ _ => rfl⟩,
      fun _ _ found => nomatch found⟩

/-- Whatever the order of the calls: the frames of shutters and of final results rise, a final result
comes after its shutter, and a request that leaves the map is complete, with no buffer left unless it
has failed. -/
theorem outputs_inOrder (run : Run (outputStep env) FrameFresh {} ops s) : InOrder env s.log :=
  (run_inv run).logged.inOrder

/-- No complete request stays in the map, and every buffer that was taken is either returned, once, or
waits with its request. -/
theorem requests_settle (run : Run (outputStep env) FrameFresh {} ops s) :
    (∀ f r, s.inflightMap.lookup f = some r → ¬r.Complete) ∧
      ∀ b : StreamBuffer, b.buffer ≠ none → s.taken.count b =
        (s.log.filterMap returned).count b + (pending s.inflightMap.items).count b :=
  ⟨(run_inv run).settled, (run_inv run).buffers⟩

/-- Metadata that is its timestamps. -/
def sampleEnv : OutputEnv (List Int) where
  usePartialResult := false
  numPartialResults := 1
  hasListener := true
  emptyMetadata := []
  isEmpty := List.isEmpty
  append := (· ++ ·)
  timestamps := id
  correctPartial _ m := some m
  correctResult r m := some (m, r.physicalMetadatas)

def sampleBuffer : StreamBuffer := { streamId := 0, buffer := some 1 }

/-- A request whose metadata and buffer come before its shutter. -/
def sampleOps : List (OutputOp (List Int)) :=
  [.registerInFlight 0 1 {} [] {},
    .processCaptureResult (fun _ => false)
      { frameNumber := 0, result := some [7], outputBuffers := [sampleBuffer], partialResult := 1 },
    .notifyShutter (fun _ => false) 0 7]

theorem sample_run : ∃ s, Run (outputStep sampleEnv) FrameFresh {} sampleOps s ∧
    frames .result .regular s.log = [0] ∧ s.taken = [sampleBuffer] :=
  ⟨_, .cons ⟨by decide, List.forall_mem_nil _⟩ rfl (.cons trivial rfl (.cons trivial rfl (.nil _))),
    by decide, rfl⟩

theorem outputs_inOrder_sample : ∃ s, Run (outputStep sampleEnv) FrameFresh {} sampleOps s ∧
    frames .result .regular s.log = [0] ∧ InOrder sampleEnv s.log := by
  obtain ⟨s, run, results, -⟩ := sample_run
  exact ⟨s, run, results, outputs_inOrder run⟩

theorem requests_settle_sample : ∃ s, Run (outputStep sampleEnv) FrameFresh {} sampleOps s ∧
    1 = (s.log.filterMap returned).count sampleBuffer + (pending s.inflightMap.items).count sampleBuffer := by
  obtain ⟨s, run, -, taken⟩ := sample_run
  have balance := (requests_settle run).2 sampleBuffer (by decide)
  rw [taken] at balance
  exact ⟨s, run, balance⟩

end Hima.Camera3Output
