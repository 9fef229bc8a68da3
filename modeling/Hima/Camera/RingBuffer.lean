import Hima.Lib.Runs
import Mathlib.Data.List.MinMax

/-!
# RingBufferConsumer

The list of acquired frames, with the calls that add, pin, unpin and release them. Each call runs under
`mMutex`. What the buffer queue and its fences answer is an argument of the call.
-/
namespace Hima.RingBuffer

/-- `status_t`, as far as it is told apart. -/
inductive Status where
  | ok
  | notEnoughData
  | noBufferAvailable
  | failed
  deriving DecidableEq, Repr

structure Rect where
  left : Int
  top : Int
  right : Int
  bottom : Int
  deriving DecidableEq, Repr

/-- A graphic buffer and a fence stand for the pointers to them. -/
structure BufferItem where
  mGraphicBuffer : Nat
  mFence : Nat
  mCrop : Rect
  mTransform : UInt32
  mScalingMode : UInt32
  mTimestamp : Int
  mFrameNumber : UInt64
  mSlot : Int
  deriving DecidableEq, Repr

structure RingBufferItem extends BufferItem where
  mPinCount : Int := 0
  deriving DecidableEq, Repr

/-- What a comparator sees of an item. -/
structure BufferInfo where
  mCrop : Rect
  mTransform : UInt32
  mScalingMode : UInt32
  mTimestamp : Int
  mFrameNumber : UInt64
  mPinned : Bool

structure RingBufferConsumer where
  mBufferItemList : List RingBufferItem := []
  mBufferCount : Nat
  mLatestTimestamp : Int := 0

/-! ### Pinning -/

abbrev RingBufferComparator := Option BufferInfo → BufferInfo → Int

def RingBufferItem.info (item : RingBufferItem) : BufferInfo where
  mCrop := item.mCrop
  mTransform := item.mTransform
  mScalingMode := item.mScalingMode
  mTimestamp := item.mTimestamp
  mFrameNumber := item.mFrameNumber
  mPinned := 0 < item.mPinCount

/-- One turn of the scan: `accPtr` with the item it was taken from. -/
def select (filter : RingBufferComparator) (acc : Option (BufferInfo × RingBufferItem))
    (item : RingBufferItem) : Option (BufferInfo × RingBufferItem) :=
  let cur := item.info
  let ret := filter (acc.map Prod.fst) cur
  if ret = 0 then none else if 0 < ret then some (cur, item) else acc

/-- Changes the pin count of the first item with a graphic buffer. -/
def changePinCount (graphicBuffer : Nat) (delta : Int) : List RingBufferItem → List RingBufferItem
  | [] => []
  | find :: items =>
    if graphicBuffer = find.mGraphicBuffer then
      { find with mPinCount := find.mPinCount + delta } :: items
    else find :: changePinCount graphicBuffer delta items

def pinBufferLocked (item : BufferItem) (items : List RingBufferItem) : List RingBufferItem :=
  changePinCount item.mGraphicBuffer 1 items

/-- The list after the call and the pinned copy, if an item was selected. The wait for its fence changes
nothing here. -/
def pinSelectedBuffer (filter : RingBufferComparator) (items : List RingBufferItem) :
    List RingBufferItem × Option BufferItem :=
  match items.foldl (select filter) none with
  | none => (items, none)
  | some (_, accIt) => (pinBufferLocked accIt.toBufferItem items, some accIt.toBufferItem)

/-- The pin count goes down only if the fence is added. -/
def unpinBuffer (addReleaseFence : Status) (item : BufferItem) (items : List RingBufferItem) :
    List RingBufferItem :=
  if addReleaseFence ≠ .ok then items else changePinCount item.mGraphicBuffer (-1) items

/-! ### Releasing -/

/-- The state of the search. An iterator is an item with its place, `none` is `end()`; the last field
counts the reads through `end()`. -/
structure Search where
  accIt : Option (RingBufferItem × Nat) := none
  pinnedFrames : Nat := 0
  readsEnd : Nat := 0

/-- One turn of the search. `endTimestamp` is what the memory of `end()` reads as. -/
def examine (endTimestamp : Int) (s : Search) (it : RingBufferItem × Nat) : Search :=
  if 0 < it.1.mPinCount then { s with pinnedFrames := s.pinnedFrames + 1 }
  else
    -- the timestamp behind `accIt` is read before `accIt` is compared with `end()`
    let accTimestamp := (s.accIt.map (·.1.mTimestamp)).getD endTimestamp
    { s with
      accIt := if it.1.mTimestamp < accTimestamp ∨ s.accIt = none then some it else s.accIt
      readsEnd := if s.accIt = none then s.readsEnd + 1 else s.readsEnd }

/-- How the calls into the buffer queue go that release one buffer. -/
structure ReleaseOutcome where
  addReleaseFence : Status := .ok
  releaseBuffer : Status := .ok
  endTimestamp : Int := 0

structure Released where
  status : Status
  items : List RingBufferItem
  pinnedFrames : Nat := 0
  readsEnd : Nat := 0
  /-- The items handed to `releaseBufferLocked`, and those erased. -/
  released : List RingBufferItem := []
  erased : List RingBufferItem := []

def releaseOldestBufferLocked (o : ReleaseOutcome) (items : List RingBufferItem) : Released :=
  if items = [] then { status := .notEnoughData, items := items }
  else
    let s := items.zipIdx.foldl (examine o.endTimestamp) {}
    match s.accIt with
    | none =>
      { status := .noBufferAvailable, items := items, pinnedFrames := s.pinnedFrames,
        readsEnd := s.readsEnd }
    | some (item, accIt) =>
      if o.addReleaseFence ≠ .ok then
        { status := o.addReleaseFence, items := items, pinnedFrames := s.pinnedFrames,
          readsEnd := s.readsEnd }
      else if o.releaseBuffer ≠ .ok then
        { status := o.releaseBuffer, items := items, pinnedFrames := s.pinnedFrames,
          readsEnd := s.readsEnd, released := [item] }
      else
        { status := .ok, items := items.eraseIdx accIt, pinnedFrames := s.pinnedFrames,
          readsEnd := s.readsEnd, released := [item], erased := [item] }

/-- The loop of `clear`: a release for each turn. `none` when the turns do not suffice. -/
def clearLoop (o : Nat → ReleaseOutcome) : Nat → Nat → List RingBufferItem → Option Released
  | 0, _, _ => none
  | turns + 1, turn, items =>
    let r := releaseOldestBufferLocked (o turn) items
    match r.status with
    | .noBufferAvailable | .notEnoughData => some { r with status := .ok }
    | .failed => some r
    | .ok =>
      (clearLoop o turns (turn + 1) r.items).map fun rest =>
        { rest with
          readsEnd := r.readsEnd + rest.readsEnd
          released := r.released ++ rest.released
          erased := r.erased ++ rest.erased }

def clear (o : Nat → ReleaseOutcome) (items : List RingBufferItem) : Option Released :=
  if items.length = 0 then some { status := .ok, items := items }
  else clearLoop o (items.length + 1) 0 items

/-! ### Frames -/

inductive AcquireOutcome where
  | failed
  /-- The item, and the graphic buffer of its slot. -/
  | acquired (item : BufferItem) (slotBuffer : Nat)

/-- The second half of `onFrameAvailable`: an item is inserted, and erased again if there is nothing to
put into it. -/
def acquireFrame (acquire : AcquireOutcome) (ring : RingBufferConsumer) : RingBufferConsumer :=
  match acquire with
  | .failed => ring
  | .acquired item slotBuffer =>
    { ring with
      mBufferItemList := ring.mBufferItemList ++ [{ item with mGraphicBuffer := slotBuffer }]
      mLatestTimestamp := item.mTimestamp }

/-- The consumer among its callers: the pinned copies out, and what has been released, erased and read
through `end()` so far. -/
structure System where
  ring : RingBufferConsumer
  pins : List BufferItem := []
  released : List RingBufferItem := []
  erased : List RingBufferItem := []
  readsEnd : Nat := 0

/-- Takes over what a release did. -/
def System.after (s : System) (r : Released) : System :=
  { s with
    ring := { s.ring with mBufferItemList := r.items }
    released := s.released ++ r.released
    erased := s.erased ++ r.erased
    readsEnd := s.readsEnd + r.readsEnd }

/-- "Release oldest frame", and whether the call goes on. -/
def makeRoom (o : ReleaseOutcome) (s : System) : System × Bool :=
  if s.ring.mBufferCount ≤ s.ring.mBufferItemList.length then
    let r := releaseOldestBufferLocked o s.ring.mBufferItemList
    (s.after r, r.status = .ok)
  else (s, true)

def onFrameAvailable (o : ReleaseOutcome) (acquire : AcquireOutcome) (s : System) : System :=
  let (s, room) := makeRoom o s
  if room then { s with ring := acquireFrame acquire s.ring } else s

inductive Call where
  | onFrameAvailable (o : ReleaseOutcome) (acquire : AcquireOutcome)
  | pinSelectedBuffer (filter : RingBufferComparator)
  | unpinBuffer (addReleaseFence : Status) (item : BufferItem)
  | clear (o : Nat → ReleaseOutcome)

def step (s : System) : Call → Option System
  | .onFrameAvailable o acquire => some (onFrameAvailable o acquire s)
  | .pinSelectedBuffer filter =>
    let (items, pinned) := pinSelectedBuffer filter s.ring.mBufferItemList
    some { s with
      ring := { s.ring with mBufferItemList := items }
      pins := pinned.toList ++ s.pins }
  | .unpinBuffer addReleaseFence item =>
    some { s with
      ring := { s.ring with
        mBufferItemList := unpinBuffer addReleaseFence item s.ring.mBufferItemList }
      pins := s.pins.erase item }
  | .clear o => (clear o s.ring.mBufferItemList).map s.after

def initial (bufferCount : Nat) : System := { ring := { mBufferCount := bufferCount } }

/-- A frame comes in a buffer that no item holds then, and each pin is given back once. -/
def Fair (s : System) : Call → Prop
  | .onFrameAvailable o (.acquired _ slotBuffer) =>
    ∀ item ∈ (makeRoom o s).1.ring.mBufferItemList, item.mGraphicBuffer ≠ slotBuffer
  | .unpinBuffer _ item => item ∈ s.pins
  | _ => True

/-- Besides, the fence of each unpinned buffer is added. -/
def FencesAdded (s : System) (c : Call) : Prop :=
  Fair s c ∧ ∀ addReleaseFence item, c = .unpinBuffer addReleaseFence item → addReleaseFence = .ok

/-!
## Releasing frames

The search for the oldest unpinned frame, its release, and the loop that releases all of them.
-/
variable {items : List RingBufferItem} {o : ReleaseOutcome}

/-- The item counts a pin. -/
def RingBufferItem.pinned (item : RingBufferItem) : Bool := 0 < item.mPinCount

variable {item : RingBufferItem}

theorem RingBufferItem.pinned_eq_false :
    item.pinned = false ↔ item.mPinCount ≤ 0 := by
  simp [RingBufferItem.pinned]

/-! ### The search -/

section Search

variable {endTimestamp : Int}

/-- Pinned items are passed over. For the others the candidate moves as in a search for a least
timestamp, whatever is read through `end()`. -/
theorem examine_accIt (s : Search) (it : RingBufferItem × Nat) :
    (examine endTimestamp s it).accIt = if it.1.pinned then s.accIt
      else List.argAux (fun b c => b.1.mTimestamp < c.1.mTimestamp) s.accIt it := by
  rw [examine, RingBufferItem.pinned]
  by_cases pinned : 0 < it.1.mPinCount
  · simp only [pinned, if_true, decide_true]
  · simp only [pinned, if_false, decide_false, Bool.false_eq_true]
    cases s.accIt with
    | none => simp [List.argAux]
    | some acc => simp [List.argAux]

theorem foldl_examine_accIt (l : List (RingBufferItem × Nat)) (s : Search) :
    (l.foldl (examine endTimestamp) s).accIt = (l.filter fun it => !it.1.pinned).foldl
        (List.argAux fun b c => b.1.mTimestamp < c.1.mTimestamp) s.accIt := by
  induction l generalizing s with
  | nil => rfl
  | cons it l ih =>
    rw [List.foldl_cons, ih, examine_accIt]
    cases pinned : it.1.pinned with
    | true => rw [if_pos rfl, List.filter_cons_of_neg (by simp [pinned])]
    | false =>
      rw [if_neg Bool.false_ne_true, List.filter_cons_of_pos (by simp [pinned]), List.foldl_cons]

/-- The memory of `end()` is read for the first unpinned item. -/
theorem foldl_examine_readsEnd (l : List (RingBufferItem × Nat)) (s : Search) :
    (l.foldl (examine endTimestamp) s).readsEnd =
      s.readsEnd + if s.accIt = none ∧ l.all (·.1.pinned) = false then 1 else 0 := by
  induction l generalizing s with
  | nil => simp
  | cons it l ih =>
    rw [List.foldl_cons, ih, examine_accIt, List.all_cons]
    cases pinned : it.1.pinned with
    | true =>
      have same : (examine endTimestamp s it).readsEnd = s.readsEnd := by
        rw [examine, if_pos (of_decide_eq_true pinned)]
      simp only [same, if_true, Bool.true_and]
    | false =>
      have more : (examine endTimestamp s it).readsEnd =
          if s.accIt = none then s.readsEnd + 1 else s.readsEnd := by
        rw [examine, if_neg (of_decide_eq_false pinned)]
      -- from here on there is a candidate
      have found : List.argAux (fun b c => b.1.mTimestamp < c.1.mTimestamp) s.accIt it ≠ none := by
        cases s.accIt with
        | none => simp [List.argAux]
        | some acc =>
          rw [List.argAux]
          dsimp only
          split <;> simp
      simp only [more, found, false_and, if_false, Bool.false_eq_true, Bool.false_and, and_true, Nat.add_zero]
      split <;> rfl

end Search

theorem zipIdx_pinned : (∀ it ∈ items.zipIdx, it.1.pinned) ↔ ∀ item ∈ items, item.pinned := by
  constructor
  · intro all item member
    obtain ⟨i, inside, rfl⟩ := List.getElem_of_mem member
    exact all (items[i], i) (List.mk_mem_zipIdx_iff_getElem?.mpr (List.getElem?_eq_getElem inside))
  · rintro all ⟨item, i⟩ member
    exact all item (List.mem_of_getElem? (List.mk_mem_zipIdx_iff_getElem?.mp member))

/-! ### Releasing the oldest -/

/-- `item` is an unpinned item of least timestamp, and `rest` is the list without it. -/
def Oldest (items : List RingBufferItem) (item : RingBufferItem) (rest : List RingBufferItem) : Prop :=
  ∃ before after, items = before ++ item :: after ∧ rest = before ++ after ∧ item.pinned = false ∧
    ∀ other ∈ items, other.pinned = false → item.mTimestamp ≤ other.mTimestamp

theorem search_cases (endTimestamp : Int) (items : List RingBufferItem) :
    ((items.zipIdx.foldl (examine endTimestamp) {}).accIt = none ∧ ∀ item ∈ items, item.pinned) ∨
    ∃ item i, (items.zipIdx.foldl (examine endTimestamp) {}).accIt = some (item, i) ∧
      Oldest items item (items.eraseIdx i) := by
  have argmin : (items.zipIdx.foldl (examine endTimestamp) {}).accIt =
      (items.zipIdx.filter fun it => !it.1.pinned).argmin (·.1.mTimestamp) :=
    foldl_examine_accIt items.zipIdx {}
  rw [argmin]
  cases found : (items.zipIdx.filter fun it => !it.1.pinned).argmin (·.1.mTimestamp) with
  | none =>
    left
    refine ⟨rfl, zipIdx_pinned.mp fun it member => ?_⟩
    have unpinned := List.filter_eq_nil_iff.mp (List.argmin_eq_none.mp found) it member
    simpa using unpinned
  | some it =>
    obtain ⟨item, i⟩ := it
    obtain ⟨member, unpinned⟩ := List.mem_filter.mp (List.argmin_mem found)
    have place := List.mk_mem_zipIdx_iff_getElem?.mp member
    obtain ⟨inside, rfl⟩ := List.getElem?_eq_some_iff.mp place
    right
    refine ⟨items[i], i, rfl, items.take i, items.drop (i + 1), ?_, ?_, by simpa using unpinned, ?_⟩
    · rw [List.getElem_cons_drop, List.take_append_drop]
    · exact List.eraseIdx_eq_take_drop_succ items i
    · intro other other_mem other_unpinned
      obtain ⟨j, inside', rfl⟩ := List.getElem_of_mem other_mem
      have candidate : (items[j], j) ∈ items.zipIdx.filter fun it => !it.1.pinned := by
        apply List.mem_filter.mpr
        exact ⟨List.mk_mem_zipIdx_iff_getElem?.mpr (List.getElem?_eq_getElem inside'), by simp [other_unpinned]⟩
      exact List.le_of_mem_argmin (f := fun it : RingBufferItem × Nat => it.1.mTimestamp) candidate found

/-- How a call of `releaseOldestBufferLocked` ends. -/
inductive ReleaseEnd (o : ReleaseOutcome) (items : List RingBufferItem) : Released → Prop
  | empty (none_held : items = []) (r : Released) (status : r.status = .notEnoughData)
      (same : r.items = items) (quiet : r.released = [] ∧ r.erased = []) : ReleaseEnd o items r
  | allPinned (all : ∀ item ∈ items, item.pinned) (r : Released) (status : r.status = .noBufferAvailable)
      (same : r.items = items) (quiet : r.released = [] ∧ r.erased = []) : ReleaseEnd o items r
  | refused (failed : o.addReleaseFence ≠ .ok ∨ o.releaseBuffer ≠ .ok) (r : Released)
      (status : r.status ≠ .ok) (same : r.items = items) (quiet : r.erased = [])
      (unpinned : ∀ item ∈ r.released, item.pinned = false) : ReleaseEnd o items r
  | evicted {item : RingBufferItem} (r : Released) (status : r.status = .ok)
      (oldest : Oldest items item r.items) (released : r.released = [item])
      (erased : r.erased = [item]) : ReleaseEnd o items r

theorem releaseOldest_end (o : ReleaseOutcome) (items : List RingBufferItem) :
    ReleaseEnd o items (releaseOldestBufferLocked o items) := by
  rw [releaseOldestBufferLocked]
  split
  next none_held => exact .empty none_held _ rfl rfl ⟨rfl, rfl⟩
  next =>
    rcases search_cases o.endTimestamp items with ⟨none, all⟩ | ⟨item, i, found, oldest⟩
    · simp only [none]
      exact .allPinned all _ rfl rfl ⟨rfl, rfl⟩
    · have unpinned : item.pinned = false := by
        obtain ⟨_, _, _, _, unpinned, _⟩ := oldest
        exact unpinned
      simp only [found]
      split
      next failed => exact .refused (.inl failed) _ failed rfl rfl (List.forall_mem_nil _)
      next =>
        split
        next failed =>
          refine .refused (.inr failed) _ failed rfl rfl ?_
          intro other member
          rwa [List.mem_singleton.mp member]
        next => exact .evicted _ rfl oldest rfl rfl

/-- The memory of `end()` is read by every call that meets an unpinned item, and by no other. -/
theorem readsEnd_eq_zero_iff (o : ReleaseOutcome) (items : List RingBufferItem) :
    (releaseOldestBufferLocked o items).readsEnd = 0 ↔ ∀ item ∈ items, item.pinned := by
  have reads : (items.zipIdx.foldl (examine o.endTimestamp) {}).readsEnd = 0 ↔ ∀ item ∈ items, item.pinned := by
    rw [foldl_examine_readsEnd, ← zipIdx_pinned, ← List.all_eq_true]
    simp
  rw [releaseOldestBufferLocked]
  split
  next none_held => simp [none_held]
  next =>
    rw [← reads]
    dsimp only
    split
    · rfl
    · split
      · rfl
      · split <;> rfl

/-! ### What releases leave alone -/

/-- The result of releases keeps the pinned items, in order, and touches unpinned ones only. -/
structure Evicts (items : List RingBufferItem) (r : Released) : Prop where
  sublist : r.items.Sublist items
  kept : r.items.filter (·.pinned) = items.filter (·.pinned)
  released : ∀ item ∈ r.released, item.pinned = false
  erased : ∀ item ∈ r.erased, item.pinned = false

theorem Oldest.sublist {rest : List RingBufferItem} (oldest : Oldest items item rest) : rest.Sublist items := by
  obtain ⟨before, after, rfl, rfl, -⟩ := oldest
  exact (List.sublist_cons_self item after).append_left before

theorem Oldest.kept {rest : List RingBufferItem} (oldest : Oldest items item rest) :
    rest.filter (·.pinned) = items.filter (·.pinned) := by
  obtain ⟨before, after, rfl, rfl, unpinned, -⟩ := oldest
  rw [List.filter_append, List.filter_append, List.filter_cons_of_neg (by simp [unpinned])]

theorem Oldest.length {rest : List RingBufferItem}
    (oldest : Oldest items item rest) : rest.length + 1 = items.length := by
  obtain ⟨before, after, rfl, rfl, -⟩ := oldest
  simp only [List.length_append, List.length_cons]
  omega

theorem releaseOldest_evicts (o : ReleaseOutcome) (items : List RingBufferItem) :
    Evicts items (releaseOldestBufferLocked o items) := by
  cases releaseOldest_end o items with
  | empty _ _ _ same quiet | allPinned _ _ _ same quiet =>
    refine ⟨by simp only [same, List.Sublist.refl], by rw [same], ?_, ?_⟩
    · rw [quiet.1]
      exact List.forall_mem_nil _
    · rw [quiet.2]
      exact List.forall_mem_nil _
  | refused _ _ _ same quiet unpinned =>
    refine ⟨by simp only [same, List.Sublist.refl], by rw [same], unpinned, ?_⟩
    rw [quiet]
    exact List.forall_mem_nil _
  | @evicted item _ _ oldest released erased =>
    have unpinned : ∀ other ∈ [item], other.pinned = false := by
      obtain ⟨_, _, _, _, unpinned, _⟩ := oldest
      intro other member
      rwa [List.mem_singleton.mp member]
    refine ⟨oldest.sublist, oldest.kept, ?_, ?_⟩
    · rwa [released]
    · rwa [erased]

/-! ### Clearing -/

section Clear

variable {outcomes : Nat → ReleaseOutcome}

/-- The loop ends: every turn but the last takes an item out. -/
theorem clearLoop_returns (turns turn : Nat) (items : List RingBufferItem) (enough : items.length < turns) :
    ∃ r, clearLoop outcomes turns turn items = some r ∧ Evicts items r := by
  induction turns generalizing turn items with
  | zero => exact absurd enough (Nat.not_lt_zero _)
  | succ turns ih =>
    have evicts := releaseOldest_evicts (outcomes turn) items
    rw [clearLoop]
    split
    · exact ⟨_, rfl, evicts.1, evicts.2, evicts.3, evicts.4⟩
    · exact ⟨_, rfl, evicts.1, evicts.2, evicts.3, evicts.4⟩
    · exact ⟨_, rfl, evicts⟩
    · next ok =>
      cases releaseOldest_end (outcomes turn) items with
      | empty _ _ status | allPinned _ _ status => cases status.symm.trans ok
      | refused _ _ status => exact absurd ok status
      | evicted _ _ oldest =>
        have length := oldest.length
        obtain ⟨rest, looped, more⟩ := ih (turn + 1) _ (show
          (releaseOldestBufferLocked (outcomes turn) items).items.length < turns by omega)
        rw [looped, Option.map_some]
        refine ⟨_, rfl, more.sublist.trans evicts.sublist, more.kept.trans evicts.kept, ?_, ?_⟩
        · intro item member
          exact (List.mem_append.mp member).elim (evicts.released item) (more.released item)
        · intro item member
          exact (List.mem_append.mp member).elim (evicts.erased item) (more.erased item)

variable (outcomes) in
theorem clear_returns (items : List RingBufferItem) :
    ∃ r, clear outcomes items = some r ∧ Evicts items r := by
  rw [clear]
  split
  next => exact ⟨_, rfl, .refl _, rfl, List.forall_mem_nil _, List.forall_mem_nil _⟩
  next => exact clearLoop_returns _ 0 items (Nat.lt_succ_self _)

/-- With releases that succeed the loop ends when only pinned items are left. -/
theorem clearLoop_succeeds
    (succeed : ∀ turn, (outcomes turn).addReleaseFence = .ok ∧ (outcomes turn).releaseBuffer = .ok)
    {turns turn : Nat} {r : Released} (looped : clearLoop outcomes turns turn items = some r) :
    r.status = .ok ∧ r.items = items.filter (·.pinned) := by
  induction turns generalizing turn items r with
  | zero => cases looped
  | succ turns ih =>
    rw [clearLoop] at looped
    cases releaseOldest_end (outcomes turn) items with
    | empty none_held _ status same =>
      simp only [status, Option.some.injEq] at looped
      rw [← looped]
      refine ⟨rfl, same.trans ?_⟩
      rw [none_held]
      rfl
    | allPinned all _ status same =>
      simp only [status, Option.some.injEq] at looped
      rw [← looped]
      refine ⟨rfl, ?_⟩
      rw [List.filter_eq_self.mpr all]
      exact same
    | refused failed =>
      rcases failed with failed | failed
      · exact absurd (succeed turn).1 failed
      · exact absurd (succeed turn).2 failed
    | evicted _ status oldest =>
      simp only [status, Option.map_eq_some_iff] at looped
      obtain ⟨rest, looped, rfl⟩ := looped
      rw [← oldest.kept]
      have ended := ih looped
      exact ended

theorem clear_succeeds
    (succeed : ∀ turn, (outcomes turn).addReleaseFence = .ok ∧ (outcomes turn).releaseBuffer = .ok)
    (items : List RingBufferItem) :
    ∃ r, clear outcomes items = some r ∧ r.status = .ok ∧ r.items = items.filter (·.pinned) := by
  obtain ⟨r, returned, -⟩ := clear_returns outcomes items
  refine ⟨r, returned, ?_⟩
  rw [clear] at returned
  split at returned
  next none_held =>
    obtain rfl := Option.some.inj returned
    simp [List.length_eq_zero_iff.mp none_held]
  next => exact clearLoop_succeeds succeed returned

end Clear

end Hima.RingBuffer
