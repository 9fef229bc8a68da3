import Hima.Gps.MsgQ

/-!
# What the calls answer, and the end by `msg_q_unblock`

A call that succeeds has moved its message. Once the queue is unblocked every section answers its
thread, so that the waiting threads only have to get their turn.
-/
namespace Hima.Gps

open Runs MsgQ

variable {τ π δ : Type} {q q' : MsgQ τ π δ} {a : MsgQAction τ π δ} {as : List (MsgQAction τ π δ)}
  {t : τ}

/-- The thread that runs the section. -/
def MsgQAction.thread : MsgQAction τ π δ → τ
  | .snd t _ _ _ _ => t
  | .rcv t => t
  | .wake t => t
  | .flush t _ => t
  | .unblock t => t

def MsgQAction.IsSnd : MsgQAction τ π δ → Prop
  | .snd _ _ _ _ _ => True
  | _ => False

namespace MsgQ

/-- The section ends with the call's return. -/
def Answers (q : MsgQ τ π δ) (t : τ) (rv : MsqQErr) (q' : MsgQ τ π δ) : Prop :=
  q'.returned = q.returned ++ [(t, rv)]

/-! ### Answers -/

/-- A send succeeds exactly when its message, with the next ticket, is among those sent. -/
inductive SendOutcome (q : MsgQ τ π δ) (t : τ) (msgObj : Option δ) (dealloc : Bool) (q' : MsgQ τ π δ) : Prop
  | sends (m : δ) (given : msgObj = some m)
      (sent : q'.sent = q.sent ++ [((q.sent.length, m), dealloc)]) (answers : q.Answers t .success q')
  | fails (rv : MsqQErr) (failure : rv ≠ .success) (sent : q'.sent = q.sent)
      (answers : q.Answers t rv q')

/-- A receive waits beside an empty queue, or succeeds exactly when it has taken a message. -/
inductive ReceiveOutcome (q : MsgQ τ π δ) (t : τ) (q' : MsgQ τ π δ) : Prop
  | waits (empty : linkedListEmpty q.msgList = true) (blocked : q.unblocked = false)
      (inside : t ∈ q'.blocked) (received : q'.received = q.received)
      (returned : q'.returned = q.returned)
  | receives (m : Nat × δ) (received : q'.received = q.received ++ [m])
      (answers : q.Answers t .success q')
  | fails (rv : MsqQErr) (failure : rv ≠ .success) (received : q'.received = q.received)
      (answers : q.Answers t rv q')

/-- What a section does to the messages sent and received. -/
def Outcome (q : MsgQ τ π δ) (q' : MsgQ τ π δ) : MsgQAction τ π δ → Prop
  | .snd t msgObj dealloc _ _ => q.SendOutcome t msgObj dealloc q' ∧ q'.received = q.received
  | .rcv t => q.ReceiveOutcome t q' ∧ q'.sent = q.sent
  | .wake t => q.ReceiveOutcome t q' ∧ q'.sent = q.sent
  | .flush _ _ => q'.sent = q.sent ∧ q'.received = q.received
  | .unblock _ => q'.sent = q.sent ∧ q'.received = q.received

section Retest

variable [DecidableEq π]

theorem remove_err {list list' : ListState π} {heap heap' : ElementHeap π (Nat × δ)}
    {rv : LinkedListErr} {message : Option (Nat × δ)}
    (removes : linkedListRemove list heap = some (rv, message, list', heap')) :
    (rv = .success ∧ ∃ m, message = some m) ∨ (rv = .unavailableResource ∧ message = none) := by
  rw [linkedListRemove] at removes
  split at removes
  · cases removes
    exact .inr ⟨rfl, rfl⟩
  · obtain ⟨e, -, removes⟩ := Option.bind_eq_some_iff.mp removes
    split at removes
    · obtain ⟨heap, -, removes⟩ := Option.map_eq_some_iff.mp removes
      cases removes
      exact .inl ⟨rfl, e.data, rfl⟩
    · cases removes
      exact .inl ⟨rfl, e.data, rfl⟩

theorem retest_outcome (tests : q.retest t = some q') : q.ReceiveOutcome t q' ∧ q'.sent = q.sent := by
  rw [retest] at tests
  split at tests
  next waits =>
    cases tests
    exact ⟨.waits waits.1 waits.2 (List.mem_cons_self ..) rfl rfl, rfl⟩
  next =>
    obtain ⟨⟨rv, message, msgList, heap⟩, removes, rfl⟩ := Option.map_eq_some_iff.mp tests
    refine ⟨?_, rfl⟩
    rcases remove_err removes with ⟨rfl, m, rfl⟩ | ⟨rfl, rfl⟩
    · exact .receives m rfl rfl
    · exact .fails .unavailableResource (by decide) (List.append_nil _) rfl

theorem retest_unblocked (unblocked : q.unblocked = true) (tests : q.retest t = some q') :
    q'.unblocked = true ∧ q'.waiting = q.waiting ∧ ∃ rv, q.Answers t rv q' := by
  rw [retest, if_neg (by simp [unblocked])] at tests
  obtain ⟨⟨rv, message, msgList, heap⟩, -, rfl⟩ := Option.map_eq_some_iff.mp tests
  exact ⟨unblocked, rfl, _, rfl⟩

end Retest

variable [DecidableEq τ] [DecidableEq π]

theorem snd_outcome {msgObj : Option δ} {dealloc : Bool} {elem : Option π} {signalled : Option τ}
    (sends : q.msgQSnd t msgObj dealloc elem signalled = some q') :
    q.SendOutcome t msgObj dealloc q' ∧ q'.received = q.received := by
  cases msgObj with
  | none =>
    cases sends
    exact ⟨.fails .invalidParameter (by decide) rfl rfl, rfl⟩
  | some m =>
    rw [msgQSnd] at sends
    split at sends
    next =>
      cases sends
      exact ⟨.fails .unavailableResource (by decide) rfl rfl, rfl⟩
    next =>
      obtain ⟨⟨rv, msgList, heap⟩, -, rfl⟩ := Option.map_eq_some_iff.mp sends
      -- the signal moves threads only
      have signals : ∀ p : MsgQ τ π δ, (p.condSignal signalled).sent = p.sent ∧
          (p.condSignal signalled).received = p.received ∧
          (p.condSignal signalled).returned = p.returned := by
        intro p
        cases signalled <;> exact ⟨rfl, rfl, rfl⟩
      obtain ⟨sent, received, returned⟩ := signals
        { q with
          msgList := msgList
          heap := heap
          sent := if rv = .success then q.sent ++ [((q.sent.length, m), dealloc)] else q.sent }
      refine ⟨?_, received⟩
      by_cases added : rv = .success
      · subst added
        exact .sends m rfl sent (congrArg (· ++ _) returned)
      · refine .fails (convertLinkedListErrType rv) ?_ ?_ (congrArg (· ++ _) returned)
        · cases rv <;> first | exact absurd rfl added | decide
        · exact sent.trans (if_neg added)

theorem perform_outcome (performs : q.perform a = some q') : q.Outcome q' a := by
  cases a with
  | snd => exact snd_outcome performs
  | rcv t =>
    simp only [perform, msgQRcv] at performs
    split at performs
    · cases performs
      exact ⟨.fails .unavailableResource (by decide) rfl rfl, rfl⟩
    · exact retest_outcome performs
  | wake t =>
    -- leaving the wait changes neither the list nor the histories
    obtain ⟨outcome, sent⟩ := retest_outcome performs
    refine ⟨?_, sent⟩
    cases outcome with
    | waits empty blocked inside received returned =>
      exact .waits empty blocked inside received returned
    | receives m received answers => exact .receives m received answers
    | fails rv failure received answers => exact .fails rv failure received answers
  | flush =>
    obtain ⟨⟨rv, freed, msgList, heap⟩, -, rfl⟩ := Option.map_eq_some_iff.mp performs
    exact ⟨rfl, rfl⟩
  | unblock =>
    cases performs
    simp only [Outcome, msgQUnblock]
    split <;> exact ⟨rfl, rfl⟩

/-! ### After `msg_q_unblock` -/

/-- A section of an unblocked queue: the call is answered, a send not with success, and no thread
is left waiting that was not waiting before, nor the one that ran. -/
structure Drains (q : MsgQ τ π δ) (a : MsgQAction τ π δ) (q' : MsgQ τ π δ) : Prop where
  unblocked : q'.unblocked = true
  answers : ∃ rv, q.Answers a.thread rv q' ∧ (a.IsSnd → rv ≠ .success)
  waiting : ∀ u ∈ q'.waiting, u ∈ q.waiting ∧ u ≠ a.thread

theorem drains (unblocked : q.unblocked = true) (threads : q.waiting.Nodup)
    (permitted : a.Permitted q) (performs : q.perform a = some q') : q.Drains a q' := by
  have outside : ∀ u ∈ q.waiting, a.thread ∉ q.waiting → u ∈ q.waiting ∧ u ≠ a.thread := by
    intro u waits out
    refine ⟨waits, ?_⟩
    rintro rfl
    exact out waits
  -- a woken thread leaves, and whoever comes now is answered without waiting
  cases a with
  | snd t msgObj dealloc elem signalled =>
    have still : ∃ rv, rv ≠ MsqQErr.success ∧ q' = q.returns t rv := by
      cases msgObj with
      | none =>
        cases performs
        exact ⟨.invalidParameter, by decide, rfl⟩
      | some m =>
        rw [perform, msgQSnd, if_pos unblocked] at performs
        cases performs
        exact ⟨.unavailableResource, by decide, rfl⟩
    obtain ⟨rv, failure, rfl⟩ := still
    exact ⟨unblocked, ⟨rv, rfl, fun _ => failure⟩, fun u waits => outside u waits permitted.1⟩
  | rcv t =>
    rw [perform, msgQRcv, if_pos unblocked] at performs
    cases performs
    exact ⟨unblocked, ⟨_, rfl, False.elim⟩, fun u waits => outside u waits permitted⟩
  | wake t =>
    obtain ⟨unblocked, waiting, rv, answers⟩ := retest_unblocked
      (q := { q with blocked := q.blocked.erase t, woken := q.woken.erase t }) unblocked performs
    refine ⟨unblocked, ⟨rv, answers, False.elim⟩, ?_⟩
    intro u waits
    rw [waiting] at waits
    have left : u ∈ q.blocked.erase t ++ q.woken.erase t := waits
    refine ⟨(List.erase_sublist.append List.erase_sublist).subset left, ?_⟩
    rintro rfl
    obtain ⟨blocked, woken, -⟩ := List.nodup_append.mp threads
    rcases List.mem_append.mp left with member | member
    · exact blocked.not_mem_erase member
    · exact woken.not_mem_erase member
  | flush t turns =>
    obtain ⟨⟨rv, freed, msgList, heap⟩, -, rfl⟩ := Option.map_eq_some_iff.mp performs
    exact ⟨unblocked, ⟨_, rfl, False.elim⟩, fun u waits => outside u waits permitted.1⟩
  | unblock t =>
    simp only [perform, msgQUnblock, if_pos unblocked] at performs
    cases performs
    exact ⟨unblocked, ⟨_, rfl, False.elim⟩, fun u waits => outside u waits permitted⟩

/-- However the threads go on, no later send succeeds and none of them waits that did not wait. -/
theorem drained (h : q.Inv) (unblocked : q.unblocked = true)
    (run : Run perform (fun q a => a.Permitted q) q as q') :
    q'.Inv ∧ q'.unblocked = true ∧ q'.sent = q.sent ∧ ∀ u ∈ q'.waiting, u ∈ q.waiting := by
  refine run.invariant (fun p => p.Inv ∧ p.unblocked = true ∧ p.sent = q.sent ∧ ∀ u ∈ p.waiting, u ∈ q.waiting)
    ?_ ⟨h, unblocked, rfl, fun _ member => member⟩
  rintro p a p' ⟨inv, unblocked, sent, waiting⟩ permitted performs
  obtain ⟨p'', performs', inv'⟩ := inv.perform permitted
  obtain rfl := Option.some.inj (performs.symm.trans performs')
  obtain ⟨elems, data, accounted, -⟩ := inv
  have drains := drains unblocked accounted.threads permitted performs
  refine ⟨inv', drains.unblocked, ?_, fun u member => waiting u (drains.waiting u member).1⟩
  rw [← sent]
  have outcome := perform_outcome performs
  cases a with
  | snd =>
    cases outcome.1 with
    | sends m given sent answers =>
      obtain ⟨rv, failed, failure⟩ := drains.answers
      have same : (_, rv) = (_, MsqQErr.success) :=
        List.singleton_inj.mp (List.append_cancel_left (failed.symm.trans answers))
      exact absurd (congrArg Prod.snd same) (failure trivial)
    | fails rv failure sent answers => exact sent
  | rcv => exact outcome.2
  | wake => exact outcome.2
  | flush => exact outcome.1
  | unblock => exact outcome.1

end MsgQ

/-! ### Threads that get their turns -/

/-- An infinite behaviour of the queue and its threads. -/
structure MsgQBehaviour (τ π δ : Type) [DecidableEq τ] [DecidableEq π] where
  states : Nat → MsgQ τ π δ
  actions : Nat → Option (MsgQAction τ π δ)
  starts : states 0 = {}
  idles : ∀ n, actions n = none → states (n + 1) = states n
  performs : ∀ n a, actions n = some a →
    a.Permitted (states n) ∧ (states n).perform a = some (states (n + 1))

namespace MsgQBehaviour

variable [DecidableEq τ] [DecidableEq π] (b : MsgQBehaviour τ π δ)

/-- A thread that was woken up gets the mutex again. -/
def Fair : Prop := ∀ n t, t ∈ (b.states n).woken → ∃ m, n ≤ m ∧ b.actions m = some (.wake t)

theorem reaches (n k : Nat) :
    ∃ as, Run perform (fun q a => a.Permitted q) (b.states n) as (b.states (n + k)) := by
  induction k with
  | zero => exact ⟨[], .nil _⟩
  | succ k ih =>
    obtain ⟨as, run⟩ := ih
    cases acts : b.actions (n + k) with
    | none => exact ⟨as, (b.idles _ acts).symm ▸ run⟩
    | some a =>
      obtain ⟨permitted, performs⟩ := b.performs _ a acts
      exact ⟨as ++ [a], run.snoc permitted performs⟩

theorem inv (n : Nat) : (b.states n).Inv := by
  obtain ⟨as, run⟩ := b.reaches 0 n
  rw [Nat.zero_add, b.starts] at run
  refine run.invariant Inv ?_ inv_init
  intro q a q' inv permitted performs
  obtain ⟨q'', performs', inv'⟩ := inv.perform permitted
  exact Option.some.inj (performs.symm.trans performs') ▸ inv'

/-- Every thread that waits in an unblocked queue returns from its call. -/
theorem returns (fair : b.Fair) {n : Nat} (unblocked : (b.states n).unblocked = true)
    (waits : t ∈ (b.states n).waiting) :
    ∃ m, n ≤ m ∧ t ∉ (b.states (m + 1)).waiting ∧ ∃ rv, (b.states m).Answers t rv (b.states (m + 1)) := by
  obtain ⟨elems, data, accounted, -⟩ := b.inv n
  have woken : t ∈ (b.states n).woken := by
    rcases List.mem_append.mp waits with blocked | woken
    · rw [accounted.released unblocked] at blocked
      cases blocked
    · exact woken
  obtain ⟨m, later, acts⟩ := fair n t woken
  obtain ⟨k, rfl⟩ := Nat.exists_eq_add_of_le later
  obtain ⟨as, run⟩ := b.reaches n k
  obtain ⟨⟨elems, data, accounted, -⟩, unblocked, -⟩ := drained (b.inv n) unblocked run
  obtain ⟨permitted, performs⟩ := b.performs _ _ acts
  have drains := drains unblocked accounted.threads permitted performs
  obtain ⟨rv, answers, -⟩ := drains.answers
  exact ⟨n + k, later, fun still => (drains.waiting t still).2 rfl, rv, answers⟩

end MsgQBehaviour

/-! ### The queue -/

/-- What holds of the queue whenever `list_mutex` is free. -/
structure MsgQ.Delivers (q : MsgQ τ π δ) : Prop where
  /-- The messages received are messages sent, in the order of the sends, and none of them twice. -/
  ordered : q.received.Sublist (q.sent.map Prod.fst)
  distinct : (q.sent.map Prod.fst).Nodup
  /-- Every message sent is received, flushed or queued, and in one of these only. -/
  once : ∃ elems queued, q.msgList.Holds q.heap elems queued ∧
    (q.received ++ q.flushed.map Prod.fst ++ queued.map Prod.fst).Perm (q.sent.map Prod.fst)
  /-- What is flushed is deallocated once, if it was sent with a `dealloc`. -/
  deallocated : q.deallocated = (q.flushed.filter Prod.snd).map Prod.fst
  flushed : ∀ m ∈ q.flushed, m ∈ q.sent
  awake : q.blocked ≠ [] → linkedListEmpty q.msgList = false → q.woken ≠ []

theorem MsgQ.Inv.delivers (h : q.Inv) : q.Delivers := by
  obtain ⟨elems, data, accounted, awake⟩ := h
  refine ⟨?_, ?_, ⟨elems, data, accounted.holds, accounted.account⟩, accounted.deallocated,
    accounted.flushed, ?_⟩
  · exact (List.sublist_append_left _ _).trans accounted.order
  · have tickets : ((q.sent.map Prod.fst).map Prod.fst).Nodup := by
      rw [List.map_map]
      have range := accounted.tickets
      simp only [Function.comp_def, range]
      exact List.nodup_range
    exact tickets.of_map
  · intro waits nonempty none_woken
    have counts := awake waits
    rw [none_woken, List.length_nil, Nat.le_zero, List.length_eq_zero_iff] at counts
    have empty := accounted.holds.empty_iff.mpr counts
    rw [nonempty] at empty
    cases empty

/-- In every interleaving of sends, receives, flushes and unblocks the queue delivers: every section
runs to its end with the answer that its effect on the messages calls for, and in an unblocked queue
every section answers its thread, a send not with success. With threads that get their turns, all that
wait in an unblocked queue return. -/
theorem msg_q_delivers [DecidableEq τ] [DecidableEq π] :
    (∀ (as : List (MsgQAction τ π δ)) (q : MsgQ τ π δ), Run perform (fun q a => a.Permitted q) {} as q →
        q.Delivers ∧ ∀ a : MsgQAction τ π δ, a.Permitted q → ∃ q', q.perform a = some q' ∧ q.Outcome q' a ∧
          (q.unblocked = true → q.Drains a q')) ∧
    ∀ b : MsgQBehaviour τ π δ, b.Fair → ∀ n t, (b.states n).unblocked = true →
      t ∈ (b.states n).waiting → ∃ m, n ≤ m ∧ t ∉ (b.states (m + 1)).waiting ∧
        ∃ rv, (b.states m).Answers t rv (b.states (m + 1)) := by
  constructor
  · intro as q run
    have inv : q.Inv := by
      refine run.invariant Inv ?_ inv_init
      intro q a q' inv permitted performs
      obtain ⟨q'', performs', inv'⟩ := inv.perform permitted
      exact Option.some.inj (performs.symm.trans performs') ▸ inv'
    refine ⟨inv.delivers, fun a permitted => ?_⟩
    obtain ⟨q', performs, -⟩ := inv.perform permitted
    obtain ⟨elems, data, accounted, -⟩ := inv
    exact ⟨q', performs, perform_outcome performs,
      fun unblocked => drains unblocked accounted.threads permitted performs⟩
  · exact fun b fair n t unblocked waits => b.returns fair unblocked waits

/-- Two threads wait, two others send a message each, and the queue is unblocked when one has received. -/
def twoSends : List (MsgQAction Nat Nat Nat) :=
  [.rcv 0, .rcv 3, .snd 1 (some 10) false (some 7) (some 0), .snd 2 (some 20) true (some 8) (some 3), .wake 0,
    .unblock 1, .wake 3]

theorem run_twoSends : Run perform (fun q a => a.Permitted q) {} twoSends (statesAt perform twoSends {} 7) :=
  .cons (by decide : 0 ∉ []) rfl (.cons (by decide : 3 ∉ [0]) rfl
    (.cons ⟨by decide, fun _ _ => rfl, fun u is => by cases is; decide, nofun⟩ rfl
      (.cons ⟨by decide, fun p is => by cases is; rfl, fun u is => by cases is; decide, nofun⟩ rfl
        (.cons (by decide : 0 ∈ [3, 0]) rfl (.cons (by decide : 1 ∉ [3]) rfl
          (.cons (by decide : 3 ∈ [3]) rfl (.nil _)))))))

def twoSendsBehaviour : MsgQBehaviour Nat Nat Nat where
  states := statesAt perform twoSends {}
  actions n := twoSends[n]?
  starts := rfl
  idles n none_left := by
    have le : twoSends.length ≤ n := List.getElem?_eq_none_iff.mp none_left
    rw [statesAt_of_length_le le, statesAt_of_length_le (Nat.le_succ_of_le le)]
  performs _ _ next := run_twoSends.at_step next

theorem msg_q_delivers_sample : (twoSendsBehaviour.states 7).Delivers ∧
    ∃ m, 6 ≤ m ∧ 3 ∉ (twoSendsBehaviour.states (m + 1)).waiting ∧
      ∃ rv, (twoSendsBehaviour.states m).Answers 3 rv (twoSendsBehaviour.states (m + 1)) := by
  refine ⟨(msg_q_delivers.1 _ _ run_twoSends).1, ?_⟩
  apply msg_q_delivers.2 twoSendsBehaviour ?_ 6 3 rfl (by decide : 3 ∈ [3])
  intro n t woken
  have turns : ∀ n < 7, ∀ t ∈ (statesAt perform twoSends {} n).woken, t = 0 ∧ n ≤ 4 ∨ t = 3 ∧ n ≤ 6 := by
    decide
  rcases Nat.lt_or_ge n 7 with running | done
  · rcases turns n running t woken with ⟨rfl, le⟩ | ⟨rfl, le⟩
    · exact ⟨4, le, rfl⟩
    · exact ⟨6, le, rfl⟩
  · rw [show twoSendsBehaviour.states n = statesAt perform twoSends {} 7 from statesAt_of_length_le done] at woken
    cases woken

end Hima.Gps
