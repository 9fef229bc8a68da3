import Hima.Camera.RingBuffer

/-!
# Pinned frames

What runs of the calls keep: the bound on the list, the pin counts, and the frames that are pinned.
-/
namespace Hima.RingBuffer

open Runs

variable {items : List RingBufferItem} {n : Nat} {s s' : System} {c : Call} {cs : List Call}

/-! ### Pin counts -/

/-- The pins of a buffer that have not been given back. -/
def pinsOf (pins : List BufferItem) (graphicBuffer : Nat) : Nat :=
  pins.countP (·.mGraphicBuffer = graphicBuffer)

/-- The items are held in different buffers. -/
def Distinct (items : List RingBufferItem) : Prop := (items.map (·.mGraphicBuffer)).Nodup

theorem changePinCount_buffers (graphicBuffer : Nat) (delta : Int) (items : List RingBufferItem) :
    (changePinCount graphicBuffer delta items).map (·.mGraphicBuffer) = items.map (·.mGraphicBuffer) := by
  induction items with
  | nil => rfl
  | cons find items ih =>
    rw [changePinCount]
    split
    · rfl
    · rw [List.map_cons, List.map_cons, ih]

theorem changePinCount_length (graphicBuffer : Nat) (delta : Int) (items : List RingBufferItem) :
    (changePinCount graphicBuffer delta items).length = items.length := by
  have buffers := congrArg List.length (changePinCount_buffers graphicBuffer delta items)
  rwa [List.length_map, List.length_map] at buffers

/-- With different buffers the count changes for the item in the buffer, and for no other. -/
theorem mem_changePinCount {graphicBuffer : Nat} {delta : Int} (distinct : Distinct items)
    {item : RingBufferItem} (member : item ∈ changePinCount graphicBuffer delta items) :
    ∃ was ∈ items, was.mGraphicBuffer = item.mGraphicBuffer ∧
      item.mPinCount = was.mPinCount + if item.mGraphicBuffer = graphicBuffer then delta else 0 := by
  induction items with
  | nil => cases member
  | cons find items ih =>
    obtain ⟨other, distinct⟩ := List.nodup_cons.mp distinct
    rw [changePinCount] at member
    split at member
    next here =>
      rcases List.mem_cons.mp member with rfl | later
      · exact ⟨find, List.mem_cons_self, rfl, by simp [here]⟩
      · have differs : item.mGraphicBuffer ≠ graphicBuffer := by
          rintro same
          exact other (List.mem_map.mpr ⟨item, later, same.trans here⟩)
        exact ⟨item, List.mem_cons_of_mem _ later, rfl, by simp [differs]⟩
    next elsewhere =>
      rcases List.mem_cons.mp member with rfl | later
      · exact ⟨item, List.mem_cons_self, rfl, by simp [Ne.symm elsewhere]⟩
      · obtain ⟨was, earlier, buffer, count⟩ := ih distinct later
        exact ⟨was, List.mem_cons_of_mem _ earlier, buffer, count⟩

/-- The scan selects an item of the list. -/
theorem foldl_select_mem (filter : RingBufferComparator) {acc : Option (BufferInfo × RingBufferItem)}
    {info : BufferInfo} {item : RingBufferItem}
    (selected : items.foldl (select filter) acc = some (info, item)) :
    item ∈ items ∨ acc = some (info, item) := by
  induction items generalizing acc with
  | nil => exact .inr selected
  | cons find items ih =>
    rcases ih selected with later | here
    · exact .inl (List.mem_cons_of_mem _ later)
    · rw [select] at here
      split at here
      · cases here
      · split at here
        · cases here
          exact .inl List.mem_cons_self
        · exact .inr here

/-! ### The invariant -/

/-- The counts in order: at most `n` items in different buffers, each with as many pins as are out,
every pin of a held buffer, and nothing released or erased that was pinned. -/
structure Accounts (n : Nat) (s : System) : Prop where
  count : s.ring.mBufferCount = n
  bounded : s.ring.mBufferItemList.length ≤ n
  distinct : Distinct s.ring.mBufferItemList
  pinned : ∀ item ∈ s.ring.mBufferItemList,
    item.mPinCount = pinsOf s.pins item.mGraphicBuffer
  held : ∀ pin ∈ s.pins, ∃ item ∈ s.ring.mBufferItemList, item.mGraphicBuffer = pin.mGraphicBuffer
  released : ∀ item ∈ s.released, item.mPinCount ≤ 0
  erased : ∀ item ∈ s.erased, item.mPinCount ≤ 0

theorem accounts_initial (n : Nat) : Accounts n (initial n) :=
  ⟨rfl, Nat.zero_le _, List.nodup_nil, List.forall_mem_nil _, List.forall_mem_nil _, List.forall_mem_nil _,
    List.forall_mem_nil _⟩

theorem pinsOf_pos {pins : List BufferItem} {pin : BufferItem} (member : pin ∈ pins) :
    0 < pinsOf pins pin.mGraphicBuffer :=
  List.countP_pos_iff.mpr ⟨pin, member, by simp⟩

theorem pinsOf_eq_zero {pins : List BufferItem} {graphicBuffer : Nat}
    (none_out : ∀ pin ∈ pins, pin.mGraphicBuffer ≠ graphicBuffer) : pinsOf pins graphicBuffer = 0 := by
  rw [pinsOf, List.countP_eq_zero]
  intro pin member same
  exact none_out pin member (of_decide_eq_true same)

theorem Accounts.after (h : Accounts n s) {r : Released}
    (evicts : Evicts s.ring.mBufferItemList r) : Accounts n (s.after r) where
  count := h.count
  bounded := evicts.sublist.length_le.trans h.bounded
  distinct := h.distinct.sublist (evicts.sublist.map _)
  pinned item member := h.pinned item (evicts.sublist.subset member)
  held pin member := by
    -- the item of a pin counts it, so that it is not released
    obtain ⟨item, item_mem, buffer⟩ := h.held pin member
    have counted : item.pinned := by
      have pos := pinsOf_pos member
      rw [← buffer] at pos
      simp only [RingBufferItem.pinned, h.pinned item item_mem, decide_eq_true_eq]
      exact_mod_cast pos
    have kept : item ∈ r.items.filter (·.pinned) := by
      rw [evicts.kept]
      exact List.mem_filter.mpr ⟨item_mem, counted⟩
    exact ⟨item, List.mem_of_mem_filter kept, buffer⟩
  released item member := by
    rcases List.mem_append.mp member with old | new
    · exact h.released item old
    · exact RingBufferItem.pinned_eq_false.mp (evicts.released item new)
  erased item member := by
    rcases List.mem_append.mp member with old | new
    · exact h.erased item old
    · exact RingBufferItem.pinned_eq_false.mp (evicts.erased item new)

theorem Accounts.makeRoom (h : Accounts n s) (o : ReleaseOutcome) :
    Accounts n (makeRoom o s).1 ∧ ((makeRoom o s).2 → (makeRoom o s).1.ring.mBufferItemList.length < n) := by
  rw [RingBuffer.makeRoom]
  by_cases full : s.ring.mBufferCount ≤ s.ring.mBufferItemList.length
  · rw [if_pos full]
    refine ⟨h.after (releaseOldest_evicts o _), ?_⟩
    intro ok
    have bounded := h.bounded
    cases releaseOldest_end o s.ring.mBufferItemList with
    | empty _ _ status | allPinned _ _ status => simp [status] at ok
    | refused _ _ status => exact absurd (of_decide_eq_true ok) status
    | evicted _ _ oldest =>
      have length := oldest.length
      simp only [System.after]
      omega
  · rw [if_neg full]
    refine ⟨h, fun _ => ?_⟩
    rw [← h.count]
    exact Nat.lt_of_not_le full

theorem Accounts.acquireFrame (h : Accounts n s) (room : s.ring.mBufferItemList.length < n)
    (acquire : AcquireOutcome) (fresh : ∀ item slotBuffer, acquire = .acquired item slotBuffer →
      ∀ item ∈ s.ring.mBufferItemList, item.mGraphicBuffer ≠ slotBuffer) :
    Accounts n { s with ring := acquireFrame acquire s.ring } := by
  cases acquire with
  | failed => exact h
  | acquired item slotBuffer =>
    have unheld := fresh item slotBuffer rfl
    refine ⟨h.count, ?_, ?_, ?_, ?_, h.released, h.erased⟩
    · rw [RingBuffer.acquireFrame, List.length_append]
      exact room
    · rw [RingBuffer.acquireFrame, Distinct, List.map_append, List.map_singleton, List.nodup_append]
      refine ⟨h.distinct, by simp, ?_⟩
      intro old member new new_mem
      obtain ⟨held, held_mem, rfl⟩ := List.mem_map.mp member
      rw [List.mem_singleton.mp new_mem]
      exact unheld held held_mem
    · intro other member
      rcases List.mem_append.mp member with old | new
      · exact h.pinned other old
      · -- nothing is pinned in a buffer that was not held
        obtain rfl := List.mem_singleton.mp new
        have none_out : pinsOf s.pins slotBuffer = 0 := by
          apply pinsOf_eq_zero
          intro pin pin_mem same
          obtain ⟨held, held_mem, buffer⟩ := h.held pin pin_mem
          exact unheld held held_mem (buffer.trans same)
        simp [none_out]
    · intro pin member
      obtain ⟨held, held_mem, buffer⟩ := h.held pin member
      exact ⟨held, List.mem_append_left _ held_mem, buffer⟩

theorem Accounts.changePinCount (h : Accounts n s) {graphicBuffer : Nat} {delta : Int} {pins : List BufferItem}
    (follows : ∀ g, (pinsOf pins g : Int) = pinsOf s.pins g + if g = graphicBuffer then delta else 0)
    (held : ∀ pin ∈ pins, ∃ item ∈ s.ring.mBufferItemList,
      item.mGraphicBuffer = pin.mGraphicBuffer) :
    Accounts n { s with
      ring := { s.ring with
        mBufferItemList := changePinCount graphicBuffer delta s.ring.mBufferItemList }
      pins := pins } := by
  have buffers := changePinCount_buffers graphicBuffer delta s.ring.mBufferItemList
  refine ⟨h.count, ?_, ?_, ?_, ?_, h.released, h.erased⟩
  · rw [changePinCount_length]
    exact h.bounded
  · rw [Distinct, buffers]
    exact h.distinct
  · intro item member
    obtain ⟨was, was_mem, buffer, count⟩ := mem_changePinCount h.distinct member
    rw [count, follows, h.pinned was was_mem, buffer]
  · intro pin member
    obtain ⟨item, item_mem, buffer⟩ := held pin member
    have there : pin.mGraphicBuffer ∈ (RingBuffer.changePinCount graphicBuffer delta s.ring.mBufferItemList).map
          (·.mGraphicBuffer) := by
      rw [buffers, ← buffer]
      exact List.mem_map_of_mem item_mem
    obtain ⟨item', item_mem', buffer'⟩ := List.mem_map.mp there
    exact ⟨item', item_mem', buffer'⟩

/-! ### Runs -/

theorem Accounts.step (h : Accounts n s) (allowed : FencesAdded s c)
    (stepped : step s c = some s') : Accounts n s' := by
  obtain ⟨fair, added⟩ := allowed
  cases c with
  | onFrameAvailable o acquire =>
    obtain rfl := Option.some.inj stepped
    -- the oldest frame is dropped first when the ring is full
    obtain ⟨room, space⟩ := h.makeRoom o
    rw [onFrameAvailable]
    dsimp only
    split
    next goes =>
      refine room.acquireFrame (space goes) acquire ?_
      rintro item slotBuffer rfl
      exact fair
    next => exact room
  | pinSelectedBuffer filter =>
    obtain rfl := Option.some.inj stepped
    cases selected : s.ring.mBufferItemList.foldl (select filter) none with
    | none => exact h
    | some found =>
      obtain ⟨info, item⟩ := found
      have member := (foldl_select_mem filter selected).resolve_right nofun
      -- one pin more of the buffer that was selected
      apply h.changePinCount
      · intro g
        simp only [Option.toList_some, List.singleton_append, pinsOf, List.countP_cons,
          decide_eq_true_eq, eq_comm (a := g)]
        split <;> simp
      · intro pin pin_mem
        rcases List.mem_cons.mp pin_mem with rfl | old
        · exact ⟨item, member, rfl⟩
        · exact h.held pin old
  | unpinBuffer addReleaseFence item =>
    obtain rfl := Option.some.inj stepped
    obtain rfl := added addReleaseFence item rfl
    have out : item ∈ s.pins := fair
    -- one pin less
    apply h.changePinCount
    · intro g
      have counted := (List.perm_cons_erase out).countP_eq fun pin => pin.mGraphicBuffer = g
      rw [List.countP_cons] at counted
      simp only [decide_eq_true_eq] at counted
      rw [pinsOf, pinsOf, counted]
      by_cases same : item.mGraphicBuffer = g
      · simp only [same, if_true]
        omega
      · simp only [same, Ne.symm same, if_false]
        omega
    · intro pin pin_mem
      exact h.held pin (List.mem_of_mem_erase pin_mem)
  | clear o =>
    obtain ⟨r, returned, evicts⟩ := clear_returns o s.ring.mBufferItemList
    rw [RingBuffer.step, returned] at stepped
    obtain rfl := Option.some.inj stepped
    exact h.after evicts

/-- In every run with a fence added for each unpinned buffer the accounts are in order. Whatever the
list, a release that returns `OK` erases the unpinned item of least timestamp and no other, one that
does not leaves the list alone, and it reads the memory of `end()` unless all items are pinned; and
`clear` with releases that succeed leaves the pinned items in order. -/
theorem ring_buffer_accounts (run : Run step FencesAdded (initial n) cs s) :
    Accounts n s ∧ (∀ items o, ((releaseOldestBufferLocked o items).status = .ok →
        ∃ item, Oldest items item (releaseOldestBufferLocked o items).items) ∧
      ((releaseOldestBufferLocked o items).status ≠ .ok → (releaseOldestBufferLocked o items).items = items) ∧
      ((releaseOldestBufferLocked o items).readsEnd = 0 ↔ ∀ item ∈ items, item.pinned)) ∧
    ∀ items (outcomes : Nat → ReleaseOutcome),
      (∀ turn, (outcomes turn).addReleaseFence = .ok ∧ (outcomes turn).releaseBuffer = .ok) →
      ∃ r, clear outcomes items = some r ∧ r.status = .ok ∧ r.items = items.filter (·.pinned) := by
  refine ⟨?_, ?_, ?_⟩
  · exact run.invariant (Accounts n) (fun _ _ _ h allowed stepped => h.step allowed stepped)
      (accounts_initial n)
  · intro items o
    refine ⟨?_, ?_, readsEnd_eq_zero_iff o items⟩
    · intro ok
      cases releaseOldest_end o items with
      | empty _ _ status | allPinned _ _ status => cases status.symm.trans ok
      | refused _ _ status => exact absurd ok status
      | evicted _ _ oldest => exact ⟨_, oldest⟩
    · intro failed
      cases releaseOldest_end o items with
      | empty _ _ _ same | allPinned _ _ _ same | refused _ _ _ same => exact same
      | evicted _ status => exact absurd status failed
  · intro items outcomes succeed
    exact clear_succeeds succeed items

/-- A frame in buffer 7. -/
def sampleFrame : BufferItem := ⟨7, 0, ⟨0, 0, 0, 0⟩, 0, 0, 1000, 1, 0⟩

theorem ring_buffer_accounts_sample : ∃ s,
    Run step FencesAdded (initial 1) [.onFrameAvailable {} (.acquired sampleFrame 7), .pinSelectedBuffer fun _ _ => 1,
      .unpinBuffer .ok sampleFrame, .pinSelectedBuffer fun _ _ => 1, .clear fun _ => {}] s ∧
    Accounts 1 s ∧ s.ring.mBufferItemList.map (·.mPinCount) = [1] := by
  have run : Run step FencesAdded (initial 1) [.onFrameAvailable {} (.acquired sampleFrame 7),
      .pinSelectedBuffer fun _ _ => 1, .unpinBuffer .ok sampleFrame, .pinSelectedBuffer fun _ _ => 1,
      .clear fun _ => {}] _ :=
    .cons ⟨nofun, fun _ _ => nofun⟩ rfl (.cons ⟨trivial, fun _ _ => nofun⟩ rfl
      (.cons ⟨.head _, fun _ _ call => by cases call; rfl⟩ rfl
        (.cons ⟨trivial, fun _ _ => nofun⟩ rfl (.cons ⟨trivial, fun _ _ => nofun⟩ rfl (.nil _)))))
  exact ⟨_, run, (ring_buffer_accounts run).1, rfl⟩

/-- One frame, and its release reads the memory of `end()`. One frame that is pinned and unpinned with
its fence not added, and the item counts a pin that is no longer out. -/
theorem pin_count_left :
    (∃ s, Run step Fair (initial 1) [.onFrameAvailable {} (.acquired sampleFrame 7), .clear fun _ => {}]
        s ∧ s.readsEnd = 1) ∧ ∃ s, Run step Fair (initial 1) [.onFrameAvailable {} (.acquired sampleFrame 7),
        .pinSelectedBuffer fun _ _ => 1, .unpinBuffer .failed sampleFrame] s ∧
      s.pins = [] ∧ s.ring.mBufferItemList.map (·.mPinCount) = [1] := by
  constructor
  · exact ⟨_, .cons nofun rfl (.cons trivial rfl (.nil _)), rfl⟩
  · exact ⟨_, .cons nofun rfl (.cons trivial rfl (.cons (.head _) rfl (.nil _))), rfl, rfl⟩

end Hima.RingBuffer
