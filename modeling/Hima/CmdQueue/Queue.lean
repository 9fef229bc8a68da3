import Hima.Lib.Chains

/-!
# The message queue

`MessageQueue` is a singly linked list of heap objects with a head and a tail pointer.
`dequeue` moves only the head: when the last message leaves, the tail pointer goes stale.
-/
namespace Hima.CmdQueue

open Chains Function

/-- A `Message`. Its callback is always `IPACM_EvtDispatcher::ProcessEvt`; `post` is history: the
number of the call of `PostEvt` that made it. -/
structure Message (π δ : Type) where
  next : Option π := none
  data : δ
  post : Nat

/-- The live messages, by address. -/
abbrev Heap (π δ : Type) := π → Option (Message π δ)

structure MessageQueue (π : Type) where
  head : Option π := none
  tail : Option π := none

variable {π δ : Type}

/-- `p->setnext(item)`; `none` when `p` is not live. -/
def Heap.setnext [DecidableEq π] (heap : Heap π δ) (p item : π) : Option (Heap π δ) :=
  (heap p).map fun m => update heap p (some { m with next := some item })

namespace MessageQueue

def enqueue [DecidableEq π] (q : MessageQueue π) (heap : Heap π δ) (item : π) :
    Option (MessageQueue π × Heap π δ) :=
  match q.head with
  | none => some ({ head := some item, tail := some item }, heap)
  | some first =>
    match q.tail with
    | none => (heap.setnext first item).map fun heap => ({ q with tail := some item }, heap)
    | some last => (heap.setnext last item).map fun heap => ({ q with tail := some item }, heap)

def dequeue (q : MessageQueue π) (heap : Heap π δ) : Option (Option π × MessageQueue π) :=
  match q.head with
  | none => some (none, q)
  | some first => (heap first).map fun m => (some first, { q with head := m.next })

end MessageQueue

/-! ### What a queue holds -/

/-- What a message says: the call that posted it and the event. -/
abbrev Entry (δ : Type) := Nat × δ

namespace Heap

def next (heap : Heap π δ) (p : π) : Option π := (heap p).bind (·.next)

def entry (heap : Heap π δ) (p : π) : Option (Entry δ) := (heap p).map fun m => (m.post, m.data)

end Heap

/-- The messages that a reader meets who follows the links from the head. -/
def MessageQueue.Holds (q : MessageQueue π) (heap : Heap π δ) : List π → Prop
  | [] => q.head = none
  | a :: l => q.head = some a ∧ q.tail = some (l.getLastD a) ∧ Path heap.next a l ∧
      ∀ p ∈ a :: l, (heap p).isSome

namespace MessageQueue

variable {q : MessageQueue π} {heap heap' : Heap π δ} {queued : List π} {p item : π}

theorem Holds.live (holds : q.Holds heap queued) (member : p ∈ queued) : (heap p).isSome := by
  cases queued with
  | nil => simp at member
  | cons a l => exact holds.2.2.2 p member

theorem Holds.congr (holds : q.Holds heap queued) (same : ∀ p ∈ queued, heap' p = heap p) :
    q.Holds heap' queued := by
  cases queued with
  | nil => exact holds
  | cons a l =>
    obtain ⟨head, tail, path, live⟩ := holds
    refine ⟨head, tail, path_congr _ _ a l (fun x member => ?_) path, fun x member => ?_⟩
    · rw [Heap.next, Heap.next, same x member]
    · rw [same x member]
      exact live x member

/-- `enqueue` puts the message last and writes only the link of the message that was last. -/
theorem Holds.enqueue [DecidableEq π] (holds : q.Holds heap queued) {m : Message π δ} (at_item : heap item = some m)
    (unlinked : m.next = none) (fresh : item ∉ queued) :
    ∃ q' heap', q.enqueue heap item = some (q', heap') ∧ q'.Holds heap' (queued ++ [item]) ∧
      (∀ p, p ∉ queued → heap' p = heap p) ∧ ∀ p, heap'.entry p = heap.entry p := by
  cases queued with
  | nil =>
    have empty : q.head = none := holds
    refine ⟨⟨some item, some item⟩, heap, by simp [MessageQueue.enqueue, empty],
      ⟨rfl, rfl, ?_, ?_⟩, fun _ _ => rfl, fun _ => rfl⟩
    · simp [Heap.next, at_item, unlinked]
    · simp [at_item]
  | cons a l =>
    obtain ⟨head, tail, ⟨links, ends⟩, live⟩ := holds
    have nodup := path_nodup _ a l ⟨links, ends⟩
    have before := fun x => ne_last_of_mem_dropLast a x l nodup
    have member_z : l.getLastD a ∈ a :: l := List.getLastD_mem_cons
    have last_is : (l ++ [item]).getLastD a = item := by rw [getLastD_append_cons, List.getLastD_nil]
    generalize at_z : l.getLastD a = z at tail ends before member_z
    obtain ⟨last, at_last⟩ := Option.isSome_iff_exists.mp (live z member_z)
    have apart : item ≠ z := fun same => fresh (same ▸ member_z)
    refine ⟨{ q with tail := some item }, update heap z (some { last with next := some item }),
      by simp [MessageQueue.enqueue, head, tail, Heap.setnext, at_last],
      ⟨head, congrArg some last_is.symm, ?_, ?_⟩, ?_, ?_⟩
    · -- the links before the last message are untouched
      refine (path_split _ a item l []).mpr ⟨links_congr _ _ a l (fun x member => ?_) links, ?_, ?_⟩
      · rw [Heap.next, update_of_ne (before x member)]
        rfl
      · rw [at_z]
        simp [Heap.next]
      · simp [Heap.next, apart, at_item, unlinked]
    · intro p member
      by_cases same : p = z
      · simp [same]
      · rw [update_of_ne same]
        rcases List.mem_append.mp (by exact member : p ∈ (a :: l) ++ [item]) with old | new
        · exact live p old
        · simp [List.mem_singleton.mp new, at_item]
    · intro p other
      refine update_of_ne (fun same => other ?_) _ _
      rw [same]
      exact member_z
    · intro p
      by_cases same : p = z
      · simp [Heap.entry, same, at_last]
      · simp [Heap.entry, same]

theorem Holds.dequeue_nil (holds : q.Holds heap []) : q.dequeue heap = some (none, q) := by
  have empty : q.head = none := holds
  simp [dequeue, empty]

/-- `dequeue` takes the first message; the tail pointer is right as long as one is left. -/
theorem Holds.dequeue_cons {a : π} {l : List π} (holds : q.Holds heap (a :: l)) :
    ∃ q', q.dequeue heap = some (some a, q') ∧ q'.Holds heap l := by
  obtain ⟨head, tail, path, live⟩ := holds
  obtain ⟨m, at_a⟩ := Option.isSome_iff_exists.mp (live a (by simp))
  have next : heap.next a = m.next := by simp [Heap.next, at_a]
  refine ⟨{ q with head := m.next }, by simp [dequeue, head, at_a], ?_⟩
  cases l with
  | nil => exact next.symm.trans ((path_nil _ a).mp path)
  | cons b l =>
    obtain ⟨link, rest⟩ := (path_cons _ a b l).mp path
    rw [List.getLastD_cons] at tail
    exact ⟨next.symm.trans link, tail, rest, fun p member => live p (by simp [member])⟩

end MessageQueue

/-!
## The threads of the command queue

Any number of threads call `IPACM_EvtDispatcher::PostEvt`; one thread runs
`MessageQueue::Process`, and its callbacks may call `PostEvt` too. Every section between a lock
and an unlock of the mutex is one step, as is the return from `pthread_cond_wait`. An action
carries what the pthread calls of its section return (`true` for zero).
-/
/-- The thread that runs `Process`, or one of the others. -/
inductive Thread (τ : Type) where
  | process
  | other (t : τ)
deriving DecidableEq

/-- Where `Process` stands. -/
inductive Consumer (π : Type) where
  /-- At the top of its loop. -/
  | top
  /-- In `pthread_cond_wait`; `woken` says that a signal has reached it. -/
  | waiting (woken : Bool)
  /-- In the callback of `item`. -/
  | working (item : π)
  /-- Returned after a failed pthread call, with the item it had taken. -/
  | ended (item : Option π)
deriving DecidableEq

structure State (τ π δ : Type) where
  heap : Heap π δ := fun _ => none
  inst : Option (MessageQueue π) := none
  /-- The mutex is held for good: its owner failed to unlock it. -/
  held : Bool := false
  /-- The populated item of a thread inside `PostEvt`, before its lock. -/
  posting : Thread τ → Option π := fun _ => none
  consumer : Consumer π := .top
  /-- History: the number of calls of `PostEvt` so far. -/
  posts : Nat := 0
  /-- History: what `enqueue` was run on, in order. -/
  enqueued : List (Entry δ) := []
  /-- History: what a callback was run on, in order. -/
  processed : List (Entry δ) := []
  /-- History: which calls of `PostEvt` returned, and whether with `IPACM_SUCCESS`. -/
  returned : List (Nat × Bool) := []

def State.init {τ π δ : Type} : State τ π δ := {}

inductive Action (τ π δ : Type) where
  /-- `PostEvt` up to its lock; `item` is what `new` returns. -/
  | populate (thread : Thread τ) (data : δ) (item : Option π)
  /-- The locked section of `PostEvt`. -/
  | enqueue (thread : Thread τ) (lock signal unlock : Bool)
  /-- The locked section of `Process`, to the unlock or into the wait. -/
  | dequeue (lock wait unlock : Bool)
  /-- The return from `pthread_cond_wait`, with or without a signal, and the unlock after it. -/
  | wake (unlock : Bool)
  /-- The callback returns and the item is deleted. -/
  | finish

/-- All pthread calls of the action return zero. -/
def Action.Succeeds {τ π δ : Type} : Action τ π δ → Prop
  | .populate _ _ _ => True
  | .enqueue _ lock signal unlock => lock = true ∧ signal = true ∧ unlock = true
  | .dequeue lock wait unlock => lock = true ∧ wait = true ∧ unlock = true
  | .wake unlock => unlock = true
  | .finish => True

def Action.ByProcess {τ π δ : Type} : Action τ π δ → Prop
  | .dequeue _ _ _ | .wake _ | .finish => True
  | _ => False

variable {τ π δ : Type}

/-- The thread stands where the action starts, the mutex is free where the action locks it, and
`new` hands out memory that is not in use. -/
def Action.Permitted (s : State τ π δ) : Action τ π δ → Prop
  | .populate thread _ item => s.posting thread = none ∧
      (thread = .process → ∃ p, s.consumer = .working p) ∧ ∀ p, item = some p → s.heap p = none
  | .enqueue thread _ _ _ => (∃ p, s.posting thread = some p) ∧ s.held = false
  | .dequeue _ _ _ => s.consumer = .top ∧ s.held = false
  | .wake _ => (∃ woken, s.consumer = .waiting woken) ∧ s.held = false
  | .finish => (∃ p, s.consumer = .working p) ∧ s.posting .process = none

namespace State

/-- `MessageQueue::getInstance()` -/
def getInstance (s : State τ π δ) : MessageQueue π := s.inst.getD {}

/-- `pthread_cond_signal`: only `Process` ever waits. -/
def condSignal (s : State τ π δ) : State τ π δ :=
  match s.consumer with
  | .waiting _ => { s with consumer := .waiting true }
  | _ => s

variable (s : State τ π δ)

/-- A signal changes nothing but that a waiting `Process` is woken. -/
theorem condSignal_cases : s.condSignal = s ∨
    ∃ w, s.consumer = .waiting w ∧ s.condSignal = { s with consumer := .waiting true } := by
  unfold condSignal
  split
  next w waits => exact .inr ⟨w, waits, rfl⟩
  next => exact .inl rfl

@[simp] theorem condSignal_processed : s.condSignal.processed = s.processed := by
  rcases s.condSignal_cases with same | ⟨w, -, woken⟩
  · rw [same]
  · rw [woken]

@[simp] theorem condSignal_enqueued : s.condSignal.enqueued = s.enqueued := by
  rcases s.condSignal_cases with same | ⟨w, -, woken⟩
  · rw [same]
  · rw [woken]

@[simp] theorem condSignal_returned : s.condSignal.returned = s.returned := by
  rcases s.condSignal_cases with same | ⟨w, -, woken⟩
  · rw [same]
  · rw [woken]

theorem condSignal_consumer : s.condSignal.consumer = s.consumer ∨
    (∃ w, s.consumer = .waiting w) ∧ s.condSignal.consumer = .waiting true := by
  rcases s.condSignal_cases with same | ⟨w, waits, woken⟩
  · exact .inl (by rw [same])
  · exact .inr ⟨⟨w, waits⟩, by rw [woken]⟩

variable [DecidableEq τ] [DecidableEq π]

/-- `PostEvt` up to its lock. -/
def populate (s : State τ π δ) (thread : Thread τ) (data : δ) : Option π → State τ π δ
  | none => { s with
      inst := some s.getInstance, posts := s.posts + 1, returned := (s.posts, false) :: s.returned }
  | some item => { s with
      inst := some s.getInstance, posts := s.posts + 1,
      heap := update s.heap item (some { data := data, post := s.posts }),
      posting := update s.posting thread (some item) }

/-- `PostEvt` returns. -/
def returns (s : State τ π δ) (thread : Thread τ) (post : Nat) (success : Bool) : State τ π δ :=
  { s with
    posting := update s.posting thread none, returned := (post, success) :: s.returned }

/-- The locked section of `PostEvt`. -/
def postEvt (s : State τ π δ) (thread : Thread τ) (lock signal unlock : Bool) :
    Option (State τ π δ) := do
  let item ← s.posting thread
  let m ← s.heap item
  if !lock then
    return s.returns thread m.post false
  let (q, heap) ← s.getInstance.enqueue s.heap item
  let s := { s with
    inst := some q, heap := heap, enqueued := s.enqueued ++ [(m.post, m.data)] }
  if !signal then
    return { s with held := !unlock }.returns thread m.post false
  return { s.condSignal with held := !unlock }.returns thread m.post unlock

/-- The locked section of `Process`. -/
def dequeue (lock wait unlock : Bool) : Option (State τ π δ) := do
  if !lock then
    return { s with consumer := .ended none }
  let (item, q) ← s.getInstance.dequeue s.heap
  let s := { s with inst := some q }
  match item with
  | none =>
    if !wait then
      return { s with consumer := .ended none, held := !unlock }
    return { s with consumer := .waiting false }
  | some p =>
    if !unlock then
      return { s with consumer := .ended (some p), held := true }
    return { s with consumer := .working p }

/-- After `pthread_cond_wait` has returned. -/
def wake (s : State τ π δ) (unlock : Bool) : State τ π δ :=
  if unlock then { s with consumer := .top } else { s with consumer := .ended none, held := true }

/-- The callback returns; `delete item`. -/
def finish (s : State τ π δ) : Option (State τ π δ) := do
  match s.consumer with
  | .working p =>
    let m ← s.heap p
    return { s with
      processed := s.processed ++ [(m.post, m.data)],
      heap := update s.heap p none, consumer := .top }
  | _ => none

/-- The effect of a permitted action; `none` when it follows a dangling pointer. -/
def perform (s : State τ π δ) : Action τ π δ → Option (State τ π δ)
  | .populate thread data item => some (s.populate thread data item)
  | .enqueue thread lock signal unlock => s.postEvt thread lock signal unlock
  | .dequeue lock wait unlock => s.dequeue lock wait unlock
  | .wake unlock => some (s.wake unlock)
  | .finish => s.finish

end State

end Hima.CmdQueue
