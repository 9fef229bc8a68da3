import Mathlib.Order.Bounds.Basic
import Mathlib.Order.MinMax
import Hima.Camera.BufferAccounts

/-!
# Stream sets

A stream goes to the set that its id and its flag name. The manager looks for the stream in the other
sets first, but takes it to be elsewhere only where both the id and the flag of the set are different.
-/
namespace Hima.BufferManager

open Runs KeyedVector

def StreamInfo.key (info : StreamInfo) : StreamSetKey :=
  { id := info.streamSetId, isMultiRes := info.isMultiRes }

variable {m m' : Camera3BufferManager} {set : StreamSet} {key key' : StreamSetKey} {s : Int}
  {info : StreamInfo}

namespace StreamSet

/-- The buffer counts of the streams of a set. -/
def bufferCounts (set : StreamSet) : Set Nat :=
  {n | ∃ item ∈ set.streamInfoMap.items, item.2.totalBufferCount = n}

/-- The set with one stream more. -/
def withStream (set : StreamSet) (info : StreamInfo) : StreamSet :=
  { set with
    streamInfoMap := set.streamInfoMap.add info.streamId info
    handoutBufferCountMap := set.handoutBufferCountMap.add info.streamId 0
    attachedBufferCountMap := set.attachedBufferCountMap.add info.streamId 0
    maxAllowedBufferCount := max set.maxAllowedBufferCount info.totalBufferCount }

/-- The set with one stream less. -/
def withoutStream (set : StreamSet) (s : Int) : StreamSet :=
  { allocatedBufferWaterMark := 0
    maxAllowedBufferCount :=
      ((set.streamInfoMap.removeItem s).items.map (·.2.totalBufferCount)).foldl max 0
    streamInfoMap := set.streamInfoMap.removeItem s
    handoutBufferCountMap := set.handoutBufferCountMap.removeItem s
    attachedBufferCountMap := set.attachedBufferCountMap.removeItem s }

theorem Agrees.withStream (agrees : set.Agrees) (info : StreamInfo) : (set.withStream info).Agrees where
  named := by
    intro item member
    rcases mem_add member with rfl | before
    · rfl
    · exact agrees.named item before
  handout := by
    intro s
    simp only [StreamSet.withStream, lookup_add]
    split
    · rfl
    · exact agrees.handout s
  attached := by
    intro s
    simp only [StreamSet.withStream, lookup_add]
    split
    · rfl
    · exact agrees.attached s

theorem Agrees.withoutStream (agrees : set.Agrees) (s : Int) : (set.withoutStream s).Agrees where
  named := fun item member => agrees.named item (mem_removeItem member)
  handout := by
    intro other
    simp only [StreamSet.withoutStream, lookup_removeItem]
    split
    · rfl
    · exact agrees.handout other
  attached := by
    intro other
    simp only [StreamSet.withoutStream, lookup_removeItem]
    split
    · rfl
    · exact agrees.attached other

/-- Without streams a set has no hand-outs either. -/
theorem Agrees.handout_empty (agrees : set.Agrees) (none_left : set.streamInfoMap.items = []) :
    set.handoutBufferCountMap.items = [] := by
  apply List.eq_nil_iff_forall_not_mem.mpr
  intro item member
  have known := isSome_lookup_of_mem member
  rw [agrees.handout, lookup, none_left] at known
  cases known

end StreamSet

theorem foldl_max_spec (l : List Nat) (start : Nat) :
    start ≤ l.foldl max start ∧ (∀ n ∈ l, n ≤ l.foldl max start) ∧
      (l.foldl max start = start ∨ l.foldl max start ∈ l) := by
  induction l generalizing start with
  | nil => exact ⟨Nat.le_refl _, nofun, .inl rfl⟩
  | cons head l ih =>
    obtain ⟨start_le, le, reached⟩ := ih (max start head)
    refine ⟨(Nat.le_max_left _ _).trans start_le, ?_, ?_⟩
    · intro n member
      rcases List.mem_cons.mp member with rfl | later
      · exact (Nat.le_max_right _ _).trans start_le
      · exact le n later
    · rcases reached with same | inside
      · rcases max_choice start head with first | second
        · exact .inl (same.trans first)
        · exact .inr (List.mem_cons.mpr (.inl (same.trans second)))
      · exact .inr (List.mem_cons_of_mem _ inside)

theorem isGreatest_foldl_max {l : List Nat} (some_member : l ≠ []) :
    IsGreatest {n | n ∈ l} (l.foldl max 0) := by
  obtain ⟨-, le, reached⟩ := foldl_max_spec l 0
  refine ⟨?_, le⟩
  rcases reached with zero | inside
  · obtain ⟨n, member⟩ := List.exists_mem_of_ne_nil l some_member
    have small := le n member
    rw [zero] at small ⊢
    exact Nat.le_zero.mp small ▸ member
  · exact inside

namespace StreamSet

theorem largest_withoutStream (left : (set.withoutStream s).streamInfoMap.items ≠ []) :
    IsGreatest (set.withoutStream s).bufferCounts (set.withoutStream s).maxAllowedBufferCount := by
  have greatest := isGreatest_foldl_max (l := (set.withoutStream s).streamInfoMap.items.map
    (·.2.totalBufferCount)) (by simpa using left)
  have same : (set.withoutStream s).bufferCounts =
      {n | n ∈ (set.withoutStream s).streamInfoMap.items.map (·.2.totalBufferCount)} := by
    ext n
    exact List.mem_map.symm
  rw [same]
  exact greatest

theorem bufferCounts_withStream (new : set.streamInfoMap.lookup info.streamId = none) :
    (set.withStream info).bufferCounts = insert info.totalBufferCount set.bufferCounts := by
  ext n
  constructor
  · rintro ⟨item, member, rfl⟩
    rcases mem_add member with rfl | before
    · exact .inl rfl
    · exact .inr ⟨item, before, rfl⟩
  · rintro (rfl | ⟨⟨id, known⟩, member, rfl⟩)
    · exact ⟨_, key_mem_add _ _ _, rfl⟩
    · have found := lookup_eq_some_iff.mpr member
      have apart : id ≠ info.streamId := by
        rintro rfl
        cases new.symm.trans found
      refine ⟨(id, known), lookup_eq_some_iff.mp ?_, rfl⟩
      exact (lookup_add _ _ _ _).trans ((if_neg apart).trans found)

end StreamSet

namespace Camera3BufferManager

/-- The stream is in the set. -/
def InSet (m : Camera3BufferManager) (key : StreamSetKey) (s : Int) : Prop :=
  ∃ set, m.mStreamSetMap.lookup key = some set ∧ (set.streamInfoMap.lookup s).isSome

structure WellFormed (m : Camera3BufferManager) : Prop where
  one_set : ∀ {s key key'}, m.InSet key s → m.InSet key' s → key = key'
  agrees : ∀ {key set}, m.mStreamSetMap.lookup key = some set → set.Agrees
  union : ∀ s, (m.mStreamMap.lookup s).isSome ↔ ∃ key, m.InSet key s
  filled : ∀ {key set}, m.mStreamSetMap.lookup key = some set → set.streamInfoMap.items ≠ []
  largest : ∀ {key set}, m.mStreamSetMap.lookup key = some set →
    IsGreatest set.bufferCounts set.maxAllowedBufferCount

/-- What registerStream asks of a stream before it looks at the sets. -/
def Admits (m : Camera3BufferManager) (info : StreamInfo) : Prop :=
  info.streamId ≠ CAMERA3_STREAM_ID_INVALID ∧ info.streamSetId ≠ CAMERA3_STREAM_SET_ID_INVALID ∧
    info.totalBufferCount ≤ m.kMaxBufferCount ∧ info.totalBufferCount ≠ 0 ∧ info.isConfigured = true
  deriving Decidable

/-- The streams of the sets were admitted, and each knows its set. -/
structure SetsInv (m : Camera3BufferManager) : Prop extends m.WellFormed where
  keyed : ∀ {key set}, m.mStreamSetMap.lookup key = some set →
    ∀ item ∈ set.streamInfoMap.items, item.2.key = key ∧ m.Admits item.2

/-- The sets after the stream has been added to the one it names. -/
def streamSetsWith (m : Camera3BufferManager) (info : StreamInfo) (key : StreamSetKey) : Option StreamSet :=
  if key = info.key then some (((m.mStreamSetMap.lookup info.key).getD .empty).withStream info)
  else m.mStreamSetMap.lookup key

/-- The sets after the stream has left; a set with no other stream goes with it. -/
def streamSetsWithout (m : Camera3BufferManager) (set : StreamSet) (key : StreamSetKey) (s : Int)
    (key' : StreamSetKey) : Option StreamSet :=
  if key' = key then
    if (set.withoutStream s).streamInfoMap.items = [] then none else some (set.withoutStream s)
  else m.mStreamSetMap.lookup key'

/-- Everything that registerStream may do. -/
theorem registerStream_cases (m : Camera3BufferManager) (info : StreamInfo) :
    ((m.Admits info → m.registeredElsewhere info = true) ∧ m.registerStream info = (.badValue, m)) ∨
    (m.Admits info ∧ m.registeredElsewhere info = false ∧ m.InSet info.key info.streamId ∧
      m.registerStream info = (.ok, m)) ∨
    (m.Admits info ∧ m.registeredElsewhere info = false ∧ ¬ m.InSet info.key info.streamId ∧
      ∃ m', m.registerStream info = (.ok, m') ∧ m'.kMaxBufferCount = m.kMaxBufferCount ∧
        m'.mStreamMap = m.mStreamMap.add info.streamId () ∧
        ∀ key, m'.mStreamSetMap.lookup key = m.streamSetsWith info key) := by
  have known : info.key = { id := info.streamSetId, isMultiRes := info.isMultiRes } := rfl
  rw [registerStream]
  simp only [← known]
  by_cases ids : info.streamId = CAMERA3_STREAM_ID_INVALID ∨ info.streamSetId = CAMERA3_STREAM_SET_ID_INVALID
  · rw [if_pos (by exact ids)]
    exact .inl ⟨fun admits => absurd ids (not_or.mpr ⟨admits.1, admits.2.1⟩), rfl⟩
  rw [if_neg (by exact ids)]
  by_cases count : info.totalBufferCount > m.kMaxBufferCount ∨ info.totalBufferCount = 0
  · rw [if_pos count]
    exact .inl ⟨fun admits => absurd count (not_or.mpr ⟨admits.2.2.1.not_gt, admits.2.2.2.1⟩), rfl⟩
  rw [if_neg count]
  by_cases configured : info.isConfigured = false
  · rw [if_pos configured]
    exact .inl ⟨fun admits => absurd (configured.symm.trans admits.2.2.2.2) Bool.false_ne_true, rfl⟩
  rw [if_neg configured]
  obtain ⟨id, setId⟩ := not_or.mp ids
  obtain ⟨small, counted⟩ := not_or.mp count
  have admits : m.Admits info := ⟨id, setId, not_lt.mp small, counted, Bool.eq_true_of_not_eq_false configured⟩
  by_cases elsewhere : m.registeredElsewhere info = true
  · rw [if_pos elsewhere]
    exact .inl ⟨fun _ => elsewhere, rfl⟩
  rw [if_neg elsewhere]
  have free := Bool.eq_false_of_not_eq_true elsewhere
  cases found : m.mStreamSetMap.lookup info.key with
  | none =>
    -- a new set, for this stream
    have new : ¬ m.InSet info.key info.streamId := by
      rintro ⟨set, found', -⟩
      cases found.symm.trans found'
    refine .inr (.inr ⟨admits, free, new, _, rfl, rfl, rfl, ?_⟩)
    intro key
    have there := fun set => (lookup_add m.mStreamSetMap info.key set info.key).trans (if_pos rfl)
    simp only [setStreamSet, streamSetsWith, found, lookup_setValueFor_of_lookup (there _), lookup_add]
    split
    · rfl
    · rfl
  | some set =>
    cases registered : set.streamInfoMap.lookup info.streamId with
    | some known =>
      exact .inr (.inl ⟨admits, free, ⟨set, found, by rw [registered]; rfl⟩, rfl⟩)
    | none =>
      have new : ¬ m.InSet info.key info.streamId := by
        rintro ⟨set', found', present⟩
        obtain rfl := Option.some.inj (found.symm.trans found')
        rw [registered] at present
        cases present
      refine .inr (.inr ⟨admits, free, new, _, rfl, rfl, rfl, ?_⟩)
      intro key
      simp only [setStreamSet, streamSetsWith, found, lookup_setValueFor_of_lookup found]
      split
      · rfl
      · rfl

/-- The stream is known with another id and another flag of its set. -/
theorem SetsInv.registeredElsewhere_iff (h : m.SetsInv) : m.registeredElsewhere info = true ↔
    ∃ key, m.InSet key info.streamId ∧ key.id ≠ info.streamSetId ∧ key.isMultiRes ≠ info.isMultiRes := by
  rw [registeredElsewhere, List.any_eq_true]
  constructor
  · rintro ⟨⟨key, set⟩, member, differs⟩
    have found := lookup_eq_some_iff.mpr member
    cases registered : set.streamInfoMap.lookup info.streamId with
    | none =>
      rw [registered] at differs
      cases differs
    | some known =>
      rw [registered] at differs
      obtain ⟨rfl, -⟩ := h.keyed found _ (lookup_eq_some_iff.mp registered)
      exact ⟨_, ⟨set, found, by rw [registered]; rfl⟩, by simpa [StreamInfo.key] using differs⟩
  · rintro ⟨key, ⟨set, found, present⟩, differs⟩
    obtain ⟨known, registered⟩ := Option.isSome_iff_exists.mp present
    obtain ⟨rfl, -⟩ := h.keyed found _ (lookup_eq_some_iff.mp registered)
    refine ⟨_, lookup_eq_some_iff.mp found, ?_⟩
    simp only [registered]
    simpa [StreamInfo.key] using differs

theorem SetsInv.checkIfStreamRegisteredLocked_iff (h : m.SetsInv) :
    m.checkIfStreamRegisteredLocked key s = true ↔ m.InSet key s := by
  rw [checkIfStreamRegisteredLocked]
  cases found : m.mStreamSetMap.lookup key with
  | none =>
    refine iff_of_false Bool.false_ne_true ?_
    rintro ⟨set, found', -⟩
    cases found.symm.trans found'
  | some set =>
    -- the maximum is the count of a stream that was admitted
    obtain ⟨item, member, greatest⟩ := (h.largest found).1
    obtain ⟨-, -, -, small, counted, -⟩ := h.keyed found item member
    rw [greatest] at small counted
    simp only [counted, small, InSet, found, Option.some.injEq, ne_eq, not_false_eq_true, decide_true,
      Bool.and_true, exists_eq_left']

/-- Everything that unregisterStream may do. -/
theorem SetsInv.unregisterStream_cases (h : m.SetsInv) (key : StreamSetKey) (s : Int) :
    (¬ m.InSet key s ∧ m.unregisterStream key s = .ok (.badValue, m)) ∨
    ∃ set m', m.mStreamSetMap.lookup key = some set ∧ (set.streamInfoMap.lookup s).isSome ∧
      m.unregisterStream key s = .ok (.ok, m') ∧ m'.kMaxBufferCount = m.kMaxBufferCount ∧
      m'.mStreamMap = m.mStreamMap.removeItem s ∧
      ∀ key', m'.mStreamSetMap.lookup key' = m.streamSetsWithout set key s key' := by
  rw [unregisterStream]
  by_cases registered : m.checkIfStreamRegisteredLocked key s = true
  · rw [if_neg (Bool.not_eq_false _ ▸ registered)]
    obtain ⟨set, found, present⟩ := h.checkIfStreamRegisteredLocked_iff.mp registered
    rw [editValueFor_of_lookup found, ok_bind]
    dsimp only
    split
    next none_left =>
      refine .inr ⟨set, _, found, present, rfl, rfl, rfl, ?_⟩
      intro key'
      have empty : (set.withoutStream s).streamInfoMap.items = [] := List.length_eq_zero_iff.mp none_left.2
      simp only [streamSetsWithout, lookup_removeItem, setStreamSet, lookup_setValueFor_of_lookup found]
      rw [if_pos empty]
      split <;> rfl
    next left =>
      refine .inr ⟨set, _, found, present, rfl, rfl, rfl, ?_⟩
      intro key'
      have some_left : (set.withoutStream s).streamInfoMap.items ≠ [] := by
        intro empty
        have handouts := ((h.agrees found).withoutStream s).handout_empty empty
        exact left ⟨List.length_eq_zero_iff.mpr handouts, List.length_eq_zero_iff.mpr empty⟩
      simp only [streamSetsWithout, setStreamSet, lookup_setValueFor_of_lookup found]
      rw [if_neg some_left]
      split <;> rfl
  · rw [if_pos (Bool.eq_false_of_not_eq_true registered)]
    exact .inl ⟨fun inSet => registered (h.checkIfStreamRegisteredLocked_iff.mpr inSet), rfl⟩

theorem setsInv_empty (k : Nat) : ({ kMaxBufferCount := k } : Camera3BufferManager).SetsInv where
  one_set := fun ⟨_, found, _⟩ => nomatch found
  agrees := fun found => nomatch found
  union := fun _ => ⟨nofun, fun ⟨_, _, found, _⟩ => nomatch found⟩
  filled := fun found => nomatch found
  largest := fun found => nomatch found
  keyed := fun found => nomatch found

theorem filled_of_largest {largest : Nat} (greatest : IsGreatest set.bufferCounts largest) :
    set.streamInfoMap.items ≠ [] := by
  obtain ⟨item, member, -⟩ := greatest.1
  exact List.ne_nil_of_mem member

/-! ### A stream comes, a stream leaves -/

theorem inSet_added (sets : ∀ key, m'.mStreamSetMap.lookup key = m.streamSetsWith info key) (key : StreamSetKey)
    (s : Int) : m'.InSet key s ↔ m.InSet key s ∨ key = info.key ∧ s = info.streamId := by
  rw [InSet, sets, streamSetsWith]
  by_cases here : key = info.key
  · subst here
    simp only [if_true, Option.some.injEq, exists_eq_left', StreamSet.withStream, lookup_add, true_and]
    by_cases this : s = info.streamId
    · simp [this]
    · cases found : m.mStreamSetMap.lookup info.key with
      | none =>
        simp only [this, InSet, found, if_false, Option.getD_none, reduceCtorEq, false_and, exists_false,
          or_false, iff_false]
        exact Bool.false_ne_true
      | some set => simp [this, InSet, found]
  · simp [here, InSet]

/-- What is said of each set is said of the one that grows, and of the others. -/
theorem each_added (sets : ∀ key, m'.mStreamSetMap.lookup key = m.streamSetsWith info key)
    (P : StreamSetKey → StreamSet → Prop)
    (others : ∀ {key set}, m.mStreamSetMap.lookup key = some set → P key set)
    (grown : P info.key (((m.mStreamSetMap.lookup info.key).getD .empty).withStream info)) {key : StreamSetKey}
    {set : StreamSet} (found : m'.mStreamSetMap.lookup key = some set) : P key set := by
  rw [sets, streamSetsWith] at found
  split at found
  next here =>
    obtain rfl := Option.some.inj found
    exact here ▸ grown
  next => exact others found

theorem SetsInv.agrees_getD (h : m.SetsInv) (key : StreamSetKey) :
    ((m.mStreamSetMap.lookup key).getD .empty).Agrees := by
  cases found : m.mStreamSetMap.lookup key with
  | none => exact StreamSet.agrees_empty
  | some set => exact h.agrees found

theorem SetsInv.keyed_getD (h : m.SetsInv) (key : StreamSetKey) :
    ∀ item ∈ ((m.mStreamSetMap.lookup key).getD .empty).streamInfoMap.items,
      item.2.key = key ∧ m.Admits item.2 := by
  cases found : m.mStreamSetMap.lookup key with
  | none => exact List.forall_mem_nil _
  | some set => exact h.keyed found

/-- A new set counts the buffers of its stream, another one those of the stream too. -/
theorem SetsInv.largest_grown (h : m.SetsInv) (new : ¬ m.InSet info.key info.streamId) :
    IsGreatest (((m.mStreamSetMap.lookup info.key).getD .empty).withStream info).bufferCounts
      (((m.mStreamSetMap.lookup info.key).getD .empty).withStream info).maxAllowedBufferCount := by
  cases found : m.mStreamSetMap.lookup info.key with
  | none =>
    have nothing : StreamSet.empty.bufferCounts = ∅ :=
      Set.eq_empty_of_forall_notMem fun n ⟨_, member, _⟩ => nomatch member
    rw [Option.getD_none, StreamSet.bufferCounts_withStream rfl, nothing, insert_empty_eq]
    simp [StreamSet.withStream, StreamSet.empty, isGreatest_singleton]
  | some set =>
    have unknown : set.streamInfoMap.lookup info.streamId = none :=
      Option.not_isSome_iff_eq_none.mp fun present => new ⟨set, found, present⟩
    have grown := (h.largest found).insert info.totalBufferCount
    rw [Option.getD_some, StreamSet.bufferCounts_withStream unknown]
    rwa [max_comm] at grown

theorem SetsInv.addStream (h : m.SetsInv) (admits : m.Admits info) (new : ∀ key, ¬ m.InSet key info.streamId)
    (capacity : m'.kMaxBufferCount = m.kMaxBufferCount)
    (streams : m'.mStreamMap = m.mStreamMap.add info.streamId ())
    (sets : ∀ key, m'.mStreamSetMap.lookup key = m.streamSetsWith info key) : m'.SetsInv := by
  have greatest := h.largest_grown (new info.key)
  constructor
  · constructor
    · intro s key key' inSet inSet'
      rw [inSet_added sets] at inSet inSet'
      -- the stream that comes was nowhere before
      rcases inSet with before | ⟨rfl, rfl⟩
      · rcases inSet' with before' | ⟨rfl, rfl⟩
        · exact h.one_set before before'
        · exact absurd before (new key)
      · rcases inSet' with before' | ⟨rfl, -⟩
        · exact absurd before' (new key')
        · rfl
    · exact each_added sets _ h.agrees ((h.agrees_getD info.key).withStream info)
    · intro s
      rw [streams, lookup_add]
      simp only [inSet_added sets, exists_or, ← h.union, exists_and_right, exists_eq, true_and]
      split
      next this => simp [this]
      next other => simp [other]
    · exact each_added sets _ h.filled (filled_of_largest greatest)
    · exact each_added sets _ h.largest greatest
  · have same : ∀ known, m'.Admits known ↔ m.Admits known := fun known => by rw [Admits, Admits, capacity]
    simp only [same]
    have grown : ∀ item ∈ (((m.mStreamSetMap.lookup info.key).getD .empty).withStream info).streamInfoMap.items,
        item.2.key = info.key ∧ m.Admits item.2 := by
      intro item member
      rcases mem_add member with rfl | before
      · exact ⟨rfl, admits⟩
      · exact h.keyed_getD info.key item before
    intro key set found
    exact each_added sets (fun key set => ∀ item ∈ set.streamInfoMap.items, item.2.key = key ∧ m.Admits item.2)
      h.keyed grown found

theorem SetsInv.inSet_removed (h : m.SetsInv) (found : m.mStreamSetMap.lookup key = some set)
    (present : (set.streamInfoMap.lookup s).isSome)
    (sets : ∀ key', m'.mStreamSetMap.lookup key' = m.streamSetsWithout set key s key') (key' : StreamSetKey)
    (s' : Int) : m'.InSet key' s' ↔ m.InSet key' s' ∧ s' ≠ s := by
  rw [InSet, sets, streamSetsWithout]
  by_cases here : key' = key
  · subst here
    have known : m.InSet key' s' ↔ (set.streamInfoMap.lookup s').isSome := by simp [InSet, found]
    have left : ((set.withoutStream s).streamInfoMap.lookup s').isSome ↔
        (set.streamInfoMap.lookup s').isSome ∧ s' ≠ s := by
      rw [StreamSet.withoutStream, lookup_removeItem]
      split
      next this => simp [this]
      next other => simp [other]
    rw [if_pos rfl, known, ← left]
    split
    next empty => simp [lookup, empty]
    next => simp
  · -- by then no other set has the stream
    rw [if_neg here]
    refine ⟨fun inSet => ⟨inSet, ?_⟩, And.left⟩
    rintro rfl
    exact here (h.one_set inSet ⟨set, found, present⟩)

/-- What is said of each set is said of the one that is left, if it is, and of the others. -/
theorem each_removed (sets : ∀ key', m'.mStreamSetMap.lookup key' = m.streamSetsWithout set key s key')
    (P : StreamSetKey → StreamSet → Prop)
    (others : ∀ {key set}, m.mStreamSetMap.lookup key = some set → P key set)
    (reduced : (set.withoutStream s).streamInfoMap.items ≠ [] → P key (set.withoutStream s))
    {key' : StreamSetKey} {set' : StreamSet} (found' : m'.mStreamSetMap.lookup key' = some set') :
    P key' set' := by
  rw [sets, streamSetsWithout] at found'
  split at found'
  next here =>
    split at found'
    · cases found'
    next left =>
      obtain rfl := Option.some.inj found'
      exact here ▸ reduced left
  next => exact others found'

theorem SetsInv.removeStream (h : m.SetsInv) (found : m.mStreamSetMap.lookup key = some set)
    (present : (set.streamInfoMap.lookup s).isSome) (capacity : m'.kMaxBufferCount = m.kMaxBufferCount)
    (streams : m'.mStreamMap = m.mStreamMap.removeItem s)
    (sets : ∀ key', m'.mStreamSetMap.lookup key' = m.streamSetsWithout set key s key') : m'.SetsInv := by
  have inSet_iff := h.inSet_removed found present sets
  constructor
  · constructor
    · intro s' key' key'' inSet inSet'
      rw [inSet_iff] at inSet inSet'
      exact h.one_set inSet.1 inSet'.1
    · exact each_removed sets _ h.agrees fun _ => (h.agrees found).withoutStream s
    · intro s'
      rw [streams, lookup_removeItem]
      simp only [inSet_iff, exists_and_right, ← h.union]
      split
      next this => simp [this]
      next other => simp [other]
    · exact each_removed sets _ h.filled id
    · exact each_removed sets _ h.largest StreamSet.largest_withoutStream
  · have same : ∀ known, m'.Admits known ↔ m.Admits known := fun known => by rw [Admits, Admits, capacity]
    simp only [same]
    intro key' set' found'
    -- a set that has lost a stream has no others than before
    exact each_removed sets (fun key set => ∀ item ∈ set.streamInfoMap.items, item.2.key = key ∧ m.Admits item.2)
      h.keyed (fun _ item member => h.keyed found item (mem_removeItem member)) found'

/-! ### Runs -/

def Registers : Action → Prop
  | .registerStream _ => True
  | .unregisterStream _ _ => True
  | _ => False

/-- A stream that may be registered is in no other set that has the id or the flag of the set it names. -/
def Apart (m : Camera3BufferManager) : Action → Prop
  | .registerStream info =>
    m.Admits info → ∀ item ∈ m.mStreamSetMap.items, (item.2.streamInfoMap.lookup info.streamId).isSome →
      item.1 = info.key ∨ item.1.id ≠ info.streamSetId ∧ item.1.isMultiRes ≠ info.isMultiRes
  | _ => True

instance : (a : Action) → Decidable (Registers a)
  | .registerStream _ => isTrue trivial
  | .unregisterStream _ _ => isTrue trivial
  | .getBufferForStream _ _ _ _ _ => isFalse not_false
  | .resume _ _ _ => isFalse not_false
  | .onBufferReleased _ => isFalse not_false
  | .onBuffersRemoved _ _ _ => isFalse not_false
  | .notifyBufferRemoved _ _ => isFalse not_false

instance (m : Camera3BufferManager) : (a : Action) → Decidable (m.Apart a)
  | .registerStream _ => inferInstanceAs (Decidable (_ → ∀ _ ∈ _, _ → _))
  | .unregisterStream _ _ => isTrue trivial
  | .getBufferForStream _ _ _ _ _ => isTrue trivial
  | .resume _ _ _ => isTrue trivial
  | .onBufferReleased _ => isTrue trivial
  | .onBuffersRemoved _ _ _ => isTrue trivial
  | .notifyBufferRemoved _ _ => isTrue trivial

/-- A stream that passes the search is in no other set. -/
theorem SetsInv.nowhere_else (h : m.SetsInv) (admits : m.Admits info) (apart : m.Apart (.registerStream info))
    (free : m.registeredElsewhere info = false) (inSet : m.InSet key info.streamId) : key = info.key := by
  obtain ⟨set, found, present⟩ := inSet
  rcases apart admits _ (lookup_eq_some_iff.mp found) present with same | different
  · exact same
  · have elsewhere := h.registeredElsewhere_iff.mpr ⟨key, ⟨set, found, present⟩, different⟩
    cases free.symm.trans elsewhere

theorem SetsInv.step (h : m.SetsInv) {a : Action} (registers : Registers a) (apart : m.Apart a)
    (stepped : m.step a = some m') : m'.SetsInv := by
  cases a with
  | registerStream info =>
    obtain rfl : (m.registerStream info).2 = m' := Option.some.inj stepped
    rcases m.registerStream_cases info with ⟨-, fails⟩ | ⟨-, -, -, fails⟩ |
      ⟨admits, free, new, m'', adds, capacity, streams, sets⟩
    · rwa [fails]
    · rwa [fails]
    · rw [adds]
      refine h.addStream admits ?_ capacity streams sets
      intro key inSet
      exact new (h.nowhere_else admits apart free inSet ▸ inSet)
  | unregisterStream key s =>
    rw [Camera3BufferManager.step, perform] at stepped
    rcases h.unregisterStream_cases key s with ⟨-, fails⟩ |
      ⟨set, m'', found, present, removes, capacity, streams, sets⟩
    · rw [fails] at stepped
      exact Option.some.inj stepped ▸ h
    · rw [removes] at stepped
      exact Option.some.inj stepped ▸ h.removeStream found present capacity streams sets
  | _ => cases registers

/-- The calls keep the sets in order as long as none of them registers a stream that the search overlooks:
each returns, and one that would put a stream into a second set is turned down. -/
theorem streamSets_wellFormed (k : Nat) {as : List Action}
    (run : Run step (fun m a => Registers a ∧ m.Apart a) { kMaxBufferCount := k } as m) :
    m.WellFormed ∧ (∀ a, Registers a → (m.step a).isSome) ∧
      ∀ info key, m.Apart (.registerStream info) → m.InSet key info.streamId → key ≠ info.key →
        m.registerStream info = (.badValue, m) := by
  have inv : m.SetsInv := run.invariant SetsInv
    (fun _ _ _ before allowed stepped => before.step allowed.1 allowed.2 stepped) (setsInv_empty k)
  refine ⟨inv.toWellFormed, ?_, ?_⟩
  · intro a registers
    cases a with
    | registerStream info => rfl
    | unregisterStream key s =>
      rcases inv.unregisterStream_cases key s with ⟨-, fails⟩ | ⟨_, _, -, -, removes, -⟩
      · rw [Camera3BufferManager.step, perform, fails]
        rfl
      · rw [Camera3BufferManager.step, perform, removes]
        rfl
    | _ => cases registers
  · intro info key apart inSet other
    rcases m.registerStream_cases info with ⟨-, fails⟩ | ⟨admits, free, -⟩ | ⟨admits, free, -⟩
    · exact fails
    · exact absurd (inv.nowhere_else admits apart free inSet) other
    · exact absurd (inv.nowhere_else admits apart free inSet) other

/-! ### Two sets for one stream -/

def sharedStream (streamId streamSetId : Int) (isMultiRes : Bool) : StreamInfo :=
  { streamId := streamId, streamSetId := streamSetId, totalBufferCount := 4, isConfigured := true,
    isMultiRes := isMultiRes }

/-- Two streams come and the first one leaves; a set that differs in both is refused in between. -/
theorem streamSets_wellFormed_sample :
    ∃ m : Camera3BufferManager, m.WellFormed ∧ m.InSet ⟨1, false⟩ 1 := by
  obtain ⟨m, run, inSet⟩ : ∃ m, Run step (fun m a => Registers a ∧ m.Apart a)
      { kMaxBufferCount := 64 }
      [.registerStream (sharedStream 0 1 false), .registerStream (sharedStream 1 1 false),
        .registerStream (sharedStream 0 2 true), .unregisterStream ⟨1, false⟩ 0] m ∧
      m.InSet ⟨1, false⟩ 1 := ⟨_, .of_checked rfl, _, rfl, rfl⟩
  exact ⟨m, (streamSets_wellFormed 64 run).1, inSet⟩

/-- Stream 0 is registered with set 1 and with set 2, neither of them for several resolutions. -/
theorem stream_in_two_sets :
    ¬ ∀ (k : Nat) (as : List Action) (m : Camera3BufferManager),
      Run step (fun _ a => Registers a) { kMaxBufferCount := k } as m → m.WellFormed := by
  intro all
  obtain ⟨m, run, first, second⟩ : ∃ m, Run step (fun _ a => Registers a) { kMaxBufferCount := 64 }
      [.registerStream (sharedStream 0 1 false), .registerStream (sharedStream 0 2 false)] m ∧
      m.InSet ⟨1, false⟩ 0 ∧ m.InSet ⟨2, false⟩ 0 :=
    ⟨_, .of_checked rfl, ⟨_, rfl, rfl⟩, ⟨_, rfl, rfl⟩⟩
  have same := (all 64 _ m run).one_set first second
  exact absurd same (by decide)

end Camera3BufferManager

end Hima.BufferManager
