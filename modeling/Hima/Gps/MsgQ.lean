import Hima.Gps.LinkedList
import Hima.Lib.Runs
import Mathlib.Data.List.Perm.Lattice

/-!
# msg_q

The message queue, and the threads that call it. Every section between a lock and an unlock of
`list_mutex` is one step: whole calls, a receive up to its wait, and what follows the return from
`pthread_cond_wait`, with or without a wake-up. Each send that takes the lock and succeeds gives its
message a ticket, the number of such sends before it.
-/
namespace Hima.Gps

inductive MsqQErr where
  | success
  | failureGeneral
  | invalidParameter
  | invalidHandle
  | unavailableResource
  | insufficientBuffer
  deriving DecidableEq

def convertLinkedListErrType : LinkedListErr → MsqQErr
  | .success => .success
  | .invalidParameter => .invalidParameter
  | .invalidHandle => .invalidHandle
  | .unavailableResource => .unavailableResource
  | .insufficientBuffer => .insufficientBuffer
  | .failureGeneral => .failureGeneral

/-- A message, its ticket, and whether it was sent with a `dealloc`. -/
abbrev Ticketed (δ : Type) := (Nat × δ) × Bool

/-- The queue and what its threads know. `blocked` are the threads that wait for `list_cond`, `woken`
those that were woken up and have not returned from the wait. The rest is history: the messages sent,
received, flushed and deallocated, and how the calls returned. -/
structure MsgQ (τ π δ : Type) where
  msgList : ListState π := {}
  heap : ElementHeap π (Nat × δ) := fun _ => none
  unblocked : Bool := false
  blocked : List τ := []
  woken : List τ := []
  sent : List (Ticketed δ) := []
  received : List (Nat × δ) := []
  flushed : List (Ticketed δ) := []
  deallocated : List (Nat × δ) := []
  returned : List (τ × MsqQErr) := []

/-- `signalled` is the thread that `pthread_cond_signal` picks, `elem` what `malloc` returns, and
`turns` bounds the loop of a flush. A message of `none` is `NULL`. -/
inductive MsgQAction (τ π δ : Type) where
  | snd (t : τ) (msgObj : Option δ) (dealloc : Bool) (elem : Option π) (signalled : Option τ)
  | rcv (t : τ)
  /-- The return from `pthread_cond_wait`. -/
  | wake (t : τ)
  | flush (t : τ) (turns : Nat)
  | unblock (t : τ)

variable {τ π δ : Type} [DecidableEq τ] [DecidableEq π]

namespace MsgQ

/-- The threads inside `pthread_cond_wait`. -/
def waiting (q : MsgQ τ π δ) : List τ := q.blocked ++ q.woken

def returns (q : MsgQ τ π δ) (t : τ) (rv : MsqQErr) : MsgQ τ π δ :=
  { q with returned := q.returned ++ [(t, rv)] }

def condSignal (q : MsgQ τ π δ) : Option τ → MsgQ τ π δ
  | none => q
  | some t => { q with blocked := q.blocked.erase t, woken := t :: q.woken }

def condBroadcast (q : MsgQ τ π δ) : MsgQ τ π δ :=
  { q with blocked := [], woken := q.blocked ++ q.woken }

def msgQSnd (q : MsgQ τ π δ) (t : τ) (msgObj : Option δ) (dealloc : Bool) (elem : Option π)
    (signalled : Option τ) : Option (MsgQ τ π δ) :=
  match msgObj with
  | none => some (q.returns t .invalidParameter)
  | some msgObj =>
    if q.unblocked then some (q.returns t .unavailableResource)
    else
      let message := (q.sent.length, msgObj)
      (linkedListAdd q.msgList q.heap message dealloc elem).map fun (rv, msgList, heap) =>
        let q : MsgQ τ π δ :=
          { q with
            msgList := msgList
            heap := heap
            sent := if rv = .success then q.sent ++ [(message, dealloc)] else q.sent }
        (q.condSignal signalled).returns t (convertLinkedListErrType rv)

/-- The loop condition of `msg_q_rcv` and what follows it: back into the wait, or the removal. -/
def retest (q : MsgQ τ π δ) (t : τ) : Option (MsgQ τ π δ) :=
  if linkedListEmpty q.msgList ∧ q.unblocked = false then some { q with blocked := t :: q.blocked }
  else
    (linkedListRemove q.msgList q.heap).map fun (rv, message, msgList, heap) =>
      { q with
        msgList := msgList
        heap := heap
        received := q.received ++ message.toList }.returns t (convertLinkedListErrType rv)

def msgQRcv (q : MsgQ τ π δ) (t : τ) : Option (MsgQ τ π δ) :=
  if q.unblocked then some (q.returns t .unavailableResource) else q.retest t

/-- The thread has the mutex again. -/
def wake (q : MsgQ τ π δ) (t : τ) : Option (MsgQ τ π δ) :=
  { q with blocked := q.blocked.erase t, woken := q.woken.erase t }.retest t

def msgQFlush (q : MsgQ τ π δ) (t : τ) (turns : Nat) : Option (MsgQ τ π δ) :=
  (linkedListFlush turns q.msgList q.heap).map fun (rv, freed, msgList, heap) =>
    { q with
      msgList := msgList
      heap := heap
      flushed := q.flushed ++ freed
      deallocated := q.deallocated ++ (freed.filter Prod.snd).map Prod.fst }.returns t
        (convertLinkedListErrType rv)

def msgQUnblock (q : MsgQ τ π δ) (t : τ) : MsgQ τ π δ :=
  if q.unblocked then q.returns t .unavailableResource
  else ({ q with unblocked := true }.condBroadcast).returns t .success

def perform (q : MsgQ τ π δ) : MsgQAction τ π δ → Option (MsgQ τ π δ)
  | .snd t msgObj dealloc elem signalled => q.msgQSnd t msgObj dealloc elem signalled
  | .rcv t => q.msgQRcv t
  | .wake t => q.wake t
  | .flush t turns => q.msgQFlush t turns
  | .unblock t => some (q.msgQUnblock t)

end MsgQ

/-- A thread that waits makes no call, `malloc` returns memory that is not in use, a signal wakes one of
the threads that wait for it if there is one, and only a waiting thread returns from the wait. A flush
has a turn for each message sent. -/
def MsgQAction.Permitted (q : MsgQ τ π δ) : MsgQAction τ π δ → Prop
  | .snd t _ _ elem signalled => t ∉ q.waiting ∧ (∀ p, elem = some p → q.heap p = none) ∧
      (∀ u, signalled = some u → u ∈ q.blocked) ∧ (signalled = none → q.blocked = [])
  | .rcv t => t ∉ q.waiting
  | .wake t => t ∈ q.waiting
  | .flush t turns => t ∉ q.waiting ∧ q.sent.length ≤ turns
  | .unblock t => t ∉ q.waiting

end Hima.Gps

/-!
## Every message once, and no lost wake-up

Over all interleavings a message that was sent is in one place, receives follow the order of the
sends, and a thread is only left waiting beside a nonempty queue when another one has been woken up.
After `msg_q_unblock` the waiting threads return one by one.
-/
namespace Hima.Gps

open Runs

variable {τ π δ : Type} {q q' : MsgQ τ π δ} {a : MsgQAction τ π δ} {as : List (MsgQAction τ π δ)}
  {elems : List π} {data : List (Ticketed δ)} {t : τ}

namespace MsgQ

/-! ### The invariant -/

/-- What the histories and the list say of each other. -/
structure Accounted (q : MsgQ τ π δ) (elems : List π) (data : List (Ticketed δ)) : Prop where
  holds : q.msgList.Holds q.heap elems data
  tickets : q.sent.map (·.1.1) = List.range q.sent.length
  order : (q.received ++ data.reverse.map Prod.fst).Sublist (q.sent.map Prod.fst)
  account : (q.received ++ q.flushed.map Prod.fst ++ data.map Prod.fst).Perm (q.sent.map Prod.fst)
  queued : ∀ m ∈ data, m ∈ q.sent
  flushed : ∀ m ∈ q.flushed, m ∈ q.sent
  deallocated : q.deallocated = (q.flushed.filter Prod.snd).map Prod.fst
  threads : q.waiting.Nodup
  released : q.unblocked = true → q.blocked = []

/-- While threads wait for a wake-up, as many have got one as there are messages in the queue. -/
def Awake (q : MsgQ τ π δ) (data : List (Ticketed δ)) : Prop :=
  q.blocked ≠ [] → data.length ≤ q.woken.length

def Inv (q : MsgQ τ π δ) : Prop := ∃ elems data, q.Accounted elems data ∧ q.Awake data

theorem inv_init : (({} : MsgQ τ π δ)).Inv :=
  ⟨[], [], ⟨holds_empty, rfl, .refl _, .refl _, nofun, nofun, rfl, List.nodup_nil, nofun⟩,
    fun waits => absurd rfl waits⟩

theorem Accounted.returns (h : q.Accounted elems data) (t : τ) (rv : MsqQErr) :
    (q.returns t rv).Accounted elems data :=
  ⟨h.holds, h.tickets, h.order, h.account, h.queued, h.flushed, h.deallocated, h.threads, h.released⟩

theorem Accounted.length (h : q.Accounted elems data) : data.length ≤ q.sent.length := by
  have lengths := h.account.length_eq
  simp only [List.length_append, List.length_map] at lengths
  omega

theorem Accounted.enqueue (h : q.Accounted elems data) {msgList : ListState π}
    {heap : ElementHeap π (Nat × δ)} {elem : π} {msgObj : δ} {dealloc : Bool}
    (holds : msgList.Holds heap (elem :: elems) (((q.sent.length, msgObj), dealloc) :: data)) :
    Accounted { q with
      msgList := msgList
      heap := heap
      sent := q.sent ++ [((q.sent.length, msgObj), dealloc)] } (elem :: elems)
        (((q.sent.length, msgObj), dealloc) :: data) := by
  refine ⟨holds, ?_, ?_, ?_, ?_, ?_, h.deallocated, h.threads, h.released⟩
  · rw [List.map_append, List.length_append, h.tickets]
    simp [List.range_succ]
  · rw [List.reverse_cons, List.map_append, List.map_append, ← List.append_assoc]
    exact h.order.append (.refl _)
  · rw [List.map_append, List.map_cons]
    refine List.perm_middle.trans ?_
    refine (h.account.cons _).trans ?_
    exact (List.perm_append_singleton _ _).symm
  · intro m member
    rcases List.mem_cons.mp member with rfl | old
    · exact List.mem_append_right _ (List.mem_singleton_self _)
    · exact List.mem_append_left _ (h.queued m old)
  · exact fun m member => List.mem_append_left _ (h.flushed m member)

theorem Inv.unblock (h : q.Inv) : (q.msgQUnblock t).Inv := by
  obtain ⟨elems, data, accounted, awake⟩ := h
  rw [msgQUnblock]
  by_cases unblocked : q.unblocked = true
  · rw [if_pos unblocked]
    exact ⟨elems, data, accounted.returns _ _, awake⟩
  · rw [if_neg unblocked]
    refine ⟨elems, data, Accounted.returns ?_ _ _, fun waits => absurd rfl waits⟩
    exact ⟨accounted.holds, accounted.tickets, accounted.order, accounted.account, accounted.queued,
      accounted.flushed, accounted.deallocated, accounted.threads, fun _ => rfl⟩

section Retest

variable [DecidableEq π]

/-- The loop condition tested by a thread that is not in the wait. One message may be there for it. -/
theorem Accounted.retest (h : q.Accounted elems data) (outside : t ∉ q.waiting)
    (owed : q.blocked ≠ [] → data.length ≤ q.woken.length + 1) :
    ∃ q', q.retest t = some q' ∧ q'.Inv := by
  rw [MsgQ.retest]
  by_cases waits : linkedListEmpty q.msgList = true ∧ q.unblocked = false
  · rw [if_pos waits]
    have empty := h.holds.empty_iff.mp waits.1
    refine ⟨_, rfl, elems, data, ?_, ?_⟩
    · refine ⟨h.holds, h.tickets, h.order, h.account, h.queued, h.flushed, h.deallocated, ?_, ?_⟩
      · exact List.nodup_cons.mpr ⟨outside, h.threads⟩
      · intro unblocked
        exact absurd (waits.2.symm.trans unblocked) Bool.false_ne_true
    · intro _
      rw [empty]
      exact Nat.zero_le _
  · rw [if_neg waits]
    cases data using List.reverseRecOn with
    | nil =>
      rw [h.holds.remove_empty]
      refine ⟨_, rfl, elems, [], ?_, fun _ => Nat.zero_le _⟩
      refine Accounted.returns ?_ _ _
      refine ⟨h.holds, h.tickets, ?_, ?_, nofun, h.flushed, h.deallocated, h.threads, h.released⟩
      · simpa using h.order
      · simpa using h.account
    | append_singleton data oldest =>
      -- the queue is not empty, and its last element leaves
      have some_elems : elems ≠ [] := by
        rintro rfl
        have lengths := h.holds.length
        simp at lengths
      have split := List.dropLast_append_getLast some_elems
      have holds := h.holds
      rw [← split] at holds
      obtain ⟨msgList, heap, removed, holds⟩ := holds.remove
      rw [removed]
      refine ⟨_, rfl, elems.dropLast, data, Accounted.returns ?_ _ _, ?_⟩
      · refine ⟨holds, h.tickets, ?_, ?_, ?_, h.flushed, h.deallocated, h.threads, h.released⟩
        · have order := h.order
          simpa using order
        · refine List.Perm.trans ?_ h.account
          simp only [Option.toList_some, List.map_append, List.map_singleton, List.append_assoc]
          apply List.Perm.append_left
          exact (@List.perm_append_comm _ [oldest.1] _).trans (by simp)
        · exact fun m member => h.queued m (List.mem_append_left _ member)
      · intro blocked
        have before := owed blocked
        simp only [List.length_append, List.length_singleton] at before
        exact Nat.le_of_succ_le_succ before

end Retest

/-! ### Signals -/

section Signals

variable [DecidableEq τ]

theorem condSignal_waiting {signalled : Option τ} (picked : ∀ u, signalled = some u → u ∈ q.blocked) :
    (q.condSignal signalled).waiting.Perm q.waiting := by
  cases signalled with
  | none => exact .refl _
  | some u =>
    have out := List.perm_cons_erase (picked u rfl)
    exact List.perm_middle.trans (out.symm.append_right q.woken)

theorem Accounted.condSignal (h : q.Accounted elems data) {signalled : Option τ}
    (picked : ∀ u, signalled = some u → u ∈ q.blocked) :
    (q.condSignal signalled).Accounted elems data := by
  have threads := (condSignal_waiting picked).nodup_iff.mpr h.threads
  cases signalled with
  | none => exact h
  | some u =>
    refine ⟨h.holds, h.tickets, h.order, h.account, h.queued, h.flushed, h.deallocated, threads, ?_⟩
    intro unblocked
    have none_blocked := h.released unblocked
    simp [MsgQ.condSignal, none_blocked]

/-- A signal pays for one more message. -/
theorem awake_condSignal {more : List (Ticketed δ)} {signalled : Option τ} (awake : q.Awake data)
    (picked : ∀ u, signalled = some u → u ∈ q.blocked) (some_picked : signalled = none → q.blocked = [])
    (one : more.length ≤ data.length + 1) : (q.condSignal signalled).Awake more := by
  cases signalled with
  | none =>
    intro waits
    exact absurd (some_picked rfl) waits
  | some u =>
    intro _
    have before := awake (List.ne_nil_of_mem (picked u rfl))
    simp only [MsgQ.condSignal, List.length_cons]
    omega

end Signals

/-! ### Sections -/

section Lists

variable [DecidableEq π]

theorem Inv.rcv (h : q.Inv) (permitted : (MsgQAction.rcv t).Permitted q) :
    ∃ q', q.msgQRcv t = some q' ∧ q'.Inv := by
  obtain ⟨elems, data, accounted, awake⟩ := h
  rw [msgQRcv]
  by_cases unblocked : q.unblocked = true
  · rw [if_pos unblocked]
    exact ⟨_, rfl, elems, data, accounted.returns _ _, awake⟩
  · rw [if_neg unblocked]
    exact accounted.retest permitted fun blocked => Nat.le_succ_of_le (awake blocked)

theorem Inv.flush (h : q.Inv) {turns : Nat} (permitted : (MsgQAction.flush t turns).Permitted q) :
    ∃ q', q.msgQFlush t turns = some q' ∧ q'.Inv := by
  obtain ⟨elems, data, accounted, awake⟩ := h
  obtain ⟨msgList, heap, flushed, holds⟩ :=
    accounted.holds.flush (Nat.le_trans accounted.length permitted.2)
  rw [msgQFlush, flushed]
  refine ⟨_, rfl, [], [], Accounted.returns ?_ _ _, fun _ => Nat.zero_le _⟩
  refine ⟨holds, accounted.tickets, ?_, ?_, nofun, ?_, ?_, accounted.threads, accounted.released⟩
  · simp only [List.reverse_nil, List.map_nil, List.append_nil]
    exact (List.sublist_append_left _ _).trans accounted.order
  · simpa [List.append_assoc] using accounted.account
  · intro m member
    rcases List.mem_append.mp member with old | new
    · exact accounted.flushed m old
    · exact accounted.queued m new
  · rw [List.filter_append, List.map_append, ← accounted.deallocated]

end Lists

variable [DecidableEq τ] [DecidableEq π]

theorem Inv.snd (h : q.Inv) {msgObj : Option δ} {dealloc : Bool} {elem : Option π}
    {signalled : Option τ} (permitted : (MsgQAction.snd t msgObj dealloc elem signalled).Permitted q) :
    ∃ q', q.msgQSnd t msgObj dealloc elem signalled = some q' ∧ q'.Inv := by
  obtain ⟨elems, data, accounted, awake⟩ := h
  obtain ⟨-, fresh, picked, some_picked⟩ := permitted
  cases msgObj with
  | none => exact ⟨_, rfl, elems, data, accounted.returns _ _, awake⟩
  | some msgObj =>
    rw [msgQSnd]
    by_cases unblocked : q.unblocked = true
    · rw [if_pos unblocked]
      exact ⟨_, rfl, elems, data, accounted.returns _ _, awake⟩
    · rw [if_neg unblocked]
      cases elem with
      | none =>
        -- malloc failed: the signal goes out all the same
        refine ⟨_, rfl, elems, data, ?_, ?_⟩
        · exact (accounted.condSignal picked).returns _ _
        · exact awake_condSignal awake picked some_picked (Nat.le_succ _)
      | some elem =>
        obtain ⟨msgList, heap, added, holds⟩ :=
          accounted.holds.add (fresh elem rfl) (q.sent.length, msgObj) dealloc
        simp only [added, Option.map_some, if_true]
        refine ⟨_, rfl, elem :: elems, ((q.sent.length, msgObj), dealloc) :: data, ?_, ?_⟩
        · exact ((accounted.enqueue holds).condSignal picked).returns _ _
        · exact awake_condSignal (q := { q with
            msgList := msgList
            heap := heap
            sent := q.sent ++ [((q.sent.length, msgObj), dealloc)] }) awake picked some_picked
            (Nat.le_refl _)

theorem Inv.wake (h : q.Inv) (t : τ) : ∃ q', q.wake t = some q' ∧ q'.Inv := by
  obtain ⟨elems, data, accounted, awake⟩ := h
  obtain ⟨blocked_nodup, woken_nodup, apart⟩ := List.nodup_append.mp accounted.threads
  have threads : (q.blocked.erase t ++ q.woken.erase t).Nodup :=
    accounted.threads.sublist (List.erase_sublist.append List.erase_sublist)
  have left : Accounted { q with blocked := q.blocked.erase t, woken := q.woken.erase t } elems data := by
    refine ⟨accounted.holds, accounted.tickets, accounted.order, accounted.account, accounted.queued,
      accounted.flushed, accounted.deallocated, threads, ?_⟩
    intro unblocked
    simp [accounted.released unblocked]
  refine left.retest ?_ ?_
  · intro member
    rcases List.mem_append.mp member with still | still
    · exact blocked_nodup.not_mem_erase still
    · exact woken_nodup.not_mem_erase still
  · intro some_blocked
    have before := awake fun none => some_blocked (by simp [none])
    rw [List.length_erase]
    split <;> omega

/-- Every permitted section runs to its end, and keeps the invariant. -/
theorem Inv.perform (h : q.Inv) (permitted : a.Permitted q) :
    ∃ q', q.perform a = some q' ∧ q'.Inv := by
  cases a with
  | snd => exact h.snd permitted
  | rcv => exact h.rcv permitted
  | wake => exact h.wake _
  | flush => exact h.flush permitted
  | unblock => exact ⟨_, rfl, h.unblock⟩

end MsgQ

end Hima.Gps
