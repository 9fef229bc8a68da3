import Hima.Gps.TimerAccounts
import Hima.Lib.Runs

/-!
# Timers do not fire early

`MsgTimerExpire` pops the top of the heap without a look at its time: it trusts that the delegate
that the timerfd fired for is still there. A remove that is processed before it puts another one on
top, which is then expired before its time. Where the messages between a firing and its expiry leave
a delegate that is due, what the timerfd was armed for says that the top is due.
-/
namespace Hima.Gps.LocTimer

open LocTimerDelegate Multiset

variable {γ : Type}

/-- The timerfd has fired, and the message task has not come to the `MsgTimerExpire` of it. -/
def Pending (s : System γ) : Prop := s.woken = true ∨ .expire ∈ s.queue

instance (s : System γ) : Decidable (Pending s) := inferInstanceAs (Decidable (_ ∨ _))

/-- What is asked when the message task goes on: while an expiry is pending, a push does not bring the
only delegate of the heap before it is due, and a remove takes the only one out or leaves one that is
due; `ranks` compares no times too far apart, and a zero does not disarm the timerfd. -/
def TimelyProc (s : System γ) : Option Timespec → List Msg → Prop
  | some timerOfNow, _ => ∀ top ∈ s.heap.peek, timerOfNow.Near top.mFutureTime
  | none, .push timer :: _ => timer.mFutureTime.ns ≠ 0 ∧
      (∀ other ∈ s.heap.stored, timer.mFutureTime.Near other.mFutureTime) ∧
      (Pending s → s.heap.stored ≠ 0 ∨ timer.mFutureTime.ns ≤ s.now.ns)
  | none, .remove timer :: _ => Pending s → (∀ other ∈ s.heap.stored, other = timer) ∨
      ∃ other ∈ s.heap.stored, other ≠ timer ∧ other.mFutureTime.ns ≤ s.now.ns
  | none, .expire :: _ => True
  | none, [] => True

/-- And the timerfd does not fire again while an expiry is pending or handled. -/
def Timely (s : System γ) : Event γ → Prop
  | .proc => TimelyProc s s.expiring s.queue
  | .wake => .expire ∉ s.queue ∧ s.expiring = none
  | _ => True

instance decidableTimelyProc (s : System γ) :
    (expiring : Option Timespec) → (queue : List Msg) → Decidable (TimelyProc s expiring queue)
  | some timerOfNow, _ =>
    inferInstanceAs (Decidable (∀ top ∈ s.heap.peek, timerOfNow.Near top.mFutureTime))
  | none, .push timer :: _ => inferInstanceAs (Decidable (timer.mFutureTime.ns ≠ 0 ∧
      (∀ other ∈ s.heap.stored, timer.mFutureTime.Near other.mFutureTime) ∧
      (Pending s → s.heap.stored ≠ 0 ∨ timer.mFutureTime.ns ≤ s.now.ns)))
  | none, .remove timer :: _ =>
    have : Decidable (∃ other ∈ s.heap.stored, other ≠ timer ∧ other.mFutureTime.ns ≤ s.now.ns) :=
      Multiset.decidableExistsMultiset
    inferInstanceAs (Decidable (Pending s → (∀ other ∈ s.heap.stored, other = timer) ∨ ∃ _ ∈ _, _))
  | none, .expire :: _ => isTrue trivial
  | none, [] => isTrue trivial

instance decidableTimely (s : System γ) : (event : Event γ) → Decidable (Timely s event)
  | .proc => decidableTimelyProc s s.expiring s.queue
  | .wake => inferInstanceAs (Decidable (.expire ∉ s.queue ∧ s.expiring = none))
  | .start _ _ => isTrue trivial
  | .stop _ => isTrue trivial
  | .tick _ => isTrue trivial
  | .expire => isTrue trivial

/-- A delegate of the heap is due, if there is one. -/
def Met (s : System γ) : Prop :=
  s.heap.stored = 0 ∨ ∃ timer ∈ s.heap.stored, timer.mFutureTime.ns ≤ s.now.ns

/-- The firings of the timerfd that are not handled to their end. -/
def firings (s : System γ) : Nat :=
  s.woken.toNat + s.queue.count .expire + s.expiring.elim 0 fun _ => 1

/-- The timerfd is armed for the top. -/
def Armed (s : System γ) : Prop :=
  ∀ top ∈ s.heap.peek, s.devFd = some top.mFutureTime ∧ s.polled = true

/-- What was popped or taken out was stopped. -/
def Ended (s : System γ) : Prop :=
  ∀ timer, timer ∈ s.popped.map Prod.fst ∨ timer ∈ s.dropped → timer ∈ s.stopped

structure Kept (s : System γ) : Prop where
  accounts : Accounts s
  ended : Ended s
  armed : s.expiring = none → .expire ∉ s.queue → Armed s
  single : firings s ≤ 1
  met : Pending s → Met s

variable {s s' : System γ} {timer : LocTimerDelegate}

theorem mem_of_peek {heap : LocHeap LocTimerDelegate} {top : LocTimerDelegate}
    (peeked : heap.peek = some top) : top ∈ heap.stored := by
  rcases heap with ⟨_ | ⟨s, l, d, r⟩⟩
  · cases peeked
  · obtain rfl := Option.some.inj peeked
    exact mem_cons_self _ _

/-- The top is due when any delegate is. -/
theorem Met.top (met : Met s) (accounts : Accounts s) :
    ∀ top ∈ s.heap.peek, top.mFutureTime.ns ≤ s.now.ns := by
  intro top peeked
  rcases accounts.wf.peek ranked_exact with ⟨none, -⟩ | ⟨x, some, inside, highest⟩
  · cases none.symm.trans peeked
  · obtain rfl := Option.some.inj (some.symm.trans peeked)
    obtain ⟨timer, stored, due⟩ := met.resolve_left fun empty => notMem_zero _ (empty ▸ inside)
    have before := highest timer stored
    rw [← not_outRanks_iff, outRanks_exact, not_lt] at before
    exact before.trans due

/-- A timerfd that is armed for the top fires when it is due. -/
theorem Armed.met (armed : Armed s) (accounts : Accounts s) (fires : s.devFd.any (·.ns ≤ s.now.ns)) : Met s := by
  rcases accounts.wf.peek ranked_exact with ⟨-, empty⟩ | ⟨top, peeked, inside, -⟩
  · exact .inl empty
  · rw [(armed top peeked).1, Option.any_some, decide_eq_true_iff] at fires
    exact .inr ⟨top, inside, fires⟩

theorem not_pending (idle : s.woken = false) (none : .expire ∉ s.queue) : ¬ Pending s :=
  not_or.mpr ⟨by simp [idle], none⟩

/-- In the loop of the only firing, none is pending. -/
theorem looping (single : firings s ≤ 1) (loops : s.expiring ≠ none) : ¬ Pending s := by
  obtain ⟨timerOfNow, loops⟩ := Option.ne_none_iff_exists'.mp loops
  rw [firings, loops] at single
  have none : s.queue.count .expire = 0 := by dsimp only [Option.elim_some] at single; omega
  refine not_pending ?_ (List.count_eq_zero.mp none)
  cases awake : s.woken with
  | false => rfl
  | true => simp [awake] at single

theorem updateSoonestTime_eq (s : System γ) (priorTop : Option LocTimerDelegate) :
    ∃ devFd polled, s.updateSoonestTime priorTop = { s with devFd, polled } := by
  rw [System.updateSoonestTime]
  split
  · split
    · exact ⟨_, _, rfl⟩
    · split
      · exact ⟨_, _, rfl⟩
      · exact ⟨_, _, rfl⟩
  · exact ⟨_, _, rfl⟩

theorem updateSoonestTime_heap (s : System γ) (priorTop : Option LocTimerDelegate) :
    (s.updateSoonestTime priorTop).heap = s.heap := by
  obtain ⟨_, _, same⟩ := updateSoonestTime_eq s priorTop
  rw [same]

/-- A top that outranks the prior one, if there was one, is armed for. -/
theorem armed_updateSoonestTime {priorTop : Option LocTimerDelegate}
    (nonzero : ∀ top ∈ s.heap.peek, top.mFutureTime.ns ≠ 0) (outranks : ∀ top ∈ s.heap.peek, ∀ prior ∈ priorTop,
      outRanks ranks top prior = true) : Armed (s.updateSoonestTime priorTop) := by
  intro top peeked
  rw [updateSoonestTime_heap] at peeked
  have irrefl : ¬ outRanks ranks top top = true := by
    rw [outRanks, decide_eq_true_iff, ranks, Int.sub_self, Int.sub_self]
    decide
  have changed : s.heap.peek ≠ priorTop := by
    intro same
    exact irrefl (outranks top peeked top (same ▸ peeked))
  have above : (priorTop.all fun prior => outRanks ranks top prior) = true := by
    cases priorTop with
    | none => rfl
    | some prior => exact outranks top peeked prior rfl
  rw [System.updateSoonestTime, if_pos changed, peeked]
  dsimp only
  rw [if_pos above, System.settime, if_neg (nonzero top peeked)]
  exact ⟨rfl, rfl⟩

/-- A push leaves the top, or puts the new delegate there and arms for it. -/
theorem armed_procPush (armed : Armed s) (nonzero : timer.mFutureTime.ns ≠ 0) :
    Armed (s.procPush timer) := by
  rw [System.procPush]
  rcases LocHeap.peek_push s.heap timer with ⟨stays, _⟩ | ⟨top, outranks⟩
  · rw [System.updateSoonestTime, stays, if_neg (not_not.mpr rfl)]
    intro top' peeked
    exact armed top' (stays ▸ peeked)
  · apply armed_updateSoonestTime
    · intro top' peeked
      obtain rfl := Option.some.inj (top.symm.trans peeked)
      exact nonzero
    · intro top' peeked
      obtain rfl := Option.some.inj (top.symm.trans peeked)
      exact outranks

theorem removes_top (accounts : Accounts s) (peeked : s.heap.peek = some timer) :
    (s.heap.remove ranks timer).2 = some timer := by
  have inside := mem_of_peek peeked
  have all := accounts.near_cons (accounts.near timer inside)
  rw [LocHeap.remove_agree fun a member b member' => outRanks_of_near (all a member b member')]
  exact (accounts.wf.remove_of_mem inside).1

variable {queue : List Msg}

/-- A remove arms for the new top when it takes the top out, and leaves the top otherwise. -/
theorem armed_procRemove (armed : Armed s) (accounts : Accounts s)
    (queued : s.queue = .remove timer :: queue) : Armed ({ s with queue }.procRemove timer) := by
  have after := accounts.removed queued
  have nonzero : ∀ top ∈ (s.heap.remove ranks timer).1.peek,
      top.mFutureTime.ns ≠ 0 := fun top peeked => after.nonzero top (mem_of_peek peeked)
  rw [System.procRemove]
  by_cases taken : s.heap.peek = (s.heap.remove ranks timer).2
  · rw [if_pos taken]
    have no_prior : ∀ top ∈ (s.heap.remove ranks timer).1.peek, ∀ prior ∈ (none : Option LocTimerDelegate),
          outRanks ranks top prior = true := fun _ _ => nofun
    have rearmed := @armed_updateSoonestTime _ { s with
      queue
      heap := (s.heap.remove ranks timer).1
      dropped := (s.heap.remove ranks timer).2.toList ++ s.dropped } _ nonzero no_prior
    exact rearmed
  · rw [if_neg taken]
    have other : s.heap.peek ≠ some timer :=
      fun peeked => taken (peeked.trans (removes_top accounts peeked).symm)
    intro top peeked
    exact armed top ((LocHeap.peek_remove _ other).symm.trans peeked)

theorem procRemove_eq (s : System γ) (timer : LocTimerDelegate) :
    ∃ devFd polled, s.procRemove timer = { s with
      heap := (s.heap.remove ranks timer).1
      dropped := (s.heap.remove ranks timer).2.toList ++ s.dropped
      memory := Function.update s.memory timer.addr none
      deleted := timer :: s.deleted
      devFd, polled } := by
  rw [System.procRemove]
  split
  · obtain ⟨devFd, polled, same⟩ := updateSoonestTime_eq { s with
      heap := (s.heap.remove ranks timer).1
      dropped := (s.heap.remove ranks timer).2.toList ++ s.dropped } none
    exact ⟨devFd, polled, by rw [same]⟩
  · exact ⟨_, _, rfl⟩

theorem peek_of_pop {heap heap' : LocHeap LocTimerDelegate} {ranks : LocTimerDelegate → LocTimerDelegate → Int}
    (pops : heap.pop ranks = (heap', some timer)) : heap.peek = some timer := by
  rcases @LocHeap.pop_spec _ ranks heap with ⟨_, none⟩ | ⟨x, peeked, answer, _⟩
  · rw [pops] at none
    cases none
  · rw [pops] at answer
    rw [peeked, ← answer]

theorem peek_of_pop_none {heap heap' : LocHeap LocTimerDelegate}
    {ranks : LocTimerDelegate → LocTimerDelegate → Int} (pops : heap.pop ranks = (heap', none)) :
    heap.peek = none := by
  rcases @LocHeap.pop_spec _ ranks heap with ⟨empty, _⟩ | ⟨x, _, answer, _⟩
  · exact empty
  · rw [pops] at answer
    cases answer

/-- The end of a loop, or an expiry with nothing in the heap. -/
theorem Kept.rest (accounts : Accounts s) (ended : Ended s) (single : firings s ≤ 1) (handled : ¬ Pending s) :
    Kept (s.updateSoonestTime none) := by
  have same := updateSoonestTime_eq s none
  refine ⟨accounts.updateSoonestTime none, ?_, fun _ _ => ?_, ?_, fun pending => absurd ?_ handled⟩
  · obtain ⟨_, _, same⟩ := same
    rw [same]
    exact ended
  · exact armed_updateSoonestTime (fun top peeked => accounts.nonzero top (mem_of_peek peeked)) nofun
  · obtain ⟨_, _, same⟩ := same
    rw [same]
    exact single
  · obtain ⟨_, _, same⟩ := same
    rwa [same] at pending

/-- A message that leaves the queue and needs no account of its own. -/
theorem dequeue (accounts : Accounts s) (queued : s.queue = .expire :: queue) :
    Accounts { s with queue } := by
  have places := accounts.places
  have stops := accounts.stops
  have inOrder := accounts.inOrder
  rw [queued] at places stops inOrder
  exact ⟨accounts.wf, accounts.near, accounts.nonzero, places, accounts.numbered, stops,
    accounts.once, accounts.known, (List.pairwise_cons.mp inOrder).2, accounts.gone,
    accounts.ticking, accounts.stopping, accounts.clients, accounts.due, accounts.clock⟩

theorem firings_dequeue {msg : Msg} (queued : s.queue = msg :: queue) (other : .expire ≠ msg) :
    firings { s with queue } = firings s ∧ (Pending { s with queue } → Pending s) := by
  constructor
  · rw [firings, firings, queued, List.count_cons_of_ne other.symm]
  · exact Or.imp_right fun waits => queued ▸ List.mem_cons_of_mem _ waits

theorem Kept.procPush (kept : Kept s) (idle : s.expiring = none)
    (queued : s.queue = .push timer :: queue) (nonzero : timer.mFutureTime.ns ≠ 0)
    (near : ∀ other ∈ s.heap.stored, timer.mFutureTime.Near other.mFutureTime)
    (joins : Pending s → s.heap.stored ≠ 0 ∨ timer.mFutureTime.ns ≤ s.now.ns) :
    Kept ({ s with queue }.procPush timer) := by
  have pushed := kept.accounts.pushed queued near nonzero
  have same := updateSoonestTime_eq { s with queue, heap := s.heap.push ranks timer } s.heap.peek
  obtain ⟨firings, pending⟩ := firings_dequeue queued nofun
  refine ⟨pushed.updateSoonestTime _, ?_, fun _ none => ?_, ?_, fun waits => ?_⟩
  · obtain ⟨_, _, same⟩ := same
    rw [System.procPush, same]
    exact kept.ended
  · refine armed_procPush (kept.armed idle ?_) nonzero
    obtain ⟨_, _, same⟩ := same
    rw [System.procPush, same] at none
    rw [queued, List.mem_cons, not_or]
    exact ⟨nofun, none⟩
  · obtain ⟨_, _, same⟩ := same
    rw [System.procPush, same]
    exact firings.trans_le kept.single
  · obtain ⟨_, _, same⟩ := same
    rw [System.procPush, same] at waits ⊢
    rw [Met, LocHeap.stored_push]
    rcases joins (pending waits) with filled | due
    · obtain ⟨other, stored, due⟩ := (kept.met (pending waits)).resolve_left filled
      exact .inr ⟨other, mem_cons_of_mem stored, due⟩
    · exact .inr ⟨timer, mem_cons_self _ _, due⟩

theorem mem_remove (accounts : Accounts s) {other : LocTimerDelegate} :
    other ∈ (s.heap.remove ranks timer).1.stored ↔ other ∈ s.heap.stored ∧ other ≠ timer := by
  by_cases inside : timer ∈ s.heap.stored
  · have all := accounts.near_cons (accounts.near timer inside)
    have places := accounts.nodup
    rw [Multiset.add_assoc, Multiset.nodup_add, Multiset.nodup_add] at places
    have once := places.1.2.1
    rw [LocHeap.remove_agree fun a member b member' => outRanks_of_near (all a member b member')]
    rw [(accounts.wf.remove_of_mem inside).2, nodup_cons] at once
    rw [(accounts.wf.remove_of_mem inside).2, mem_cons]
    exact ⟨fun left => ⟨.inr left, fun this => once.1 (this ▸ left)⟩, fun both => both.1.resolve_left both.2⟩
  · rw [LocHeap.remove_of_notMem _ inside]
    exact ⟨fun member => ⟨member, fun this => inside (this ▸ member)⟩, And.left⟩

theorem Kept.procRemove (kept : Kept s) (idle : s.expiring = none) (queued : s.queue = .remove timer :: queue)
    (leaves : Pending s → (∀ other ∈ s.heap.stored, other = timer) ∨
      ∃ other ∈ s.heap.stored, other ≠ timer ∧ other.mFutureTime.ns ≤ s.now.ns) :
    Kept ({ s with queue }.procRemove timer) := by
  have removed := kept.accounts.removed queued
  have stopped : timer ∈ s.stopped :=
    kept.accounts.stopped_iff.mpr (.inl (queued ▸ List.mem_cons_self))
  obtain ⟨devFd, polled, same⟩ := procRemove_eq { s with queue } timer
  obtain ⟨firings, pending⟩ := firings_dequeue queued nofun
  refine ⟨?_, ?_, fun _ none => armed_procRemove (kept.armed idle ?_) kept.accounts queued, ?_, fun waits => ?_⟩
  · rw [same]
    exact removed.rearm devFd polled s.woken
  · rw [same]
    intro timer' member
    rcases member with popped | dropped
    · exact kept.ended timer' (.inl popped)
    · rcases List.mem_append.mp dropped with found | old
      · have itself : timer' = timer := by
          rw [Option.mem_toList, LocHeap.remove_eq] at found
          rcases @LocHeapNode.remove_spec _ ranks _ timer s.heap.mTree with
            none | ⟨answer, _⟩
          · rw [none] at found
            cases found
          · exact Option.some.inj (found.symm.trans answer)
        exact itself ▸ stopped
      · exact kept.ended timer' (.inr old)
  · rw [same] at none
    rw [queued, List.mem_cons, not_or]
    exact ⟨nofun, none⟩
  · rw [same]
    exact firings.trans_le kept.single
  · rw [same] at waits ⊢
    rcases leaves (pending waits) with only | ⟨other, stored, elsewhere, due⟩
    · refine .inl (eq_zero_of_forall_notMem fun other left => ?_)
      obtain ⟨stored, elsewhere⟩ := (mem_remove kept.accounts).mp left
      exact elsewhere (only other stored)
    · exact .inr ⟨other, (mem_remove kept.accounts).mpr ⟨stored, elsewhere⟩, due⟩

theorem kept_initial (now : Timespec) : Kept ({ now } : System γ) where
  accounts :=
    ⟨⟨trivial, trivial⟩, nofun, nofun, rfl, ⟨List.nodup_nil, nofun⟩, rfl, List.nodup_nil, nofun,
      .nil, nofun, nofun, nofun, nofun, nofun, nofun⟩
  ended := nofun
  armed := fun _ _ => nofun
  single := Nat.zero_le 1
  met := fun pending => absurd pending (not_pending rfl List.not_mem_nil)

variable [DecidableEq γ]

/-- A popped delegate is stopped by now, or its client stops it. -/
theorem expireTimer_kept (accounts : Accounts { s with popped := (timer, s.now) :: s.popped })
    (started : timer ∈ s.started) (remains : timer ∉ s.deleted) (ended : Ended s) :
    ∃ s', s.expireTimer timer = some s' ∧ Accounts s' ∧ Ended s' ∧ s'.expiring = s.expiring ∧
      firings s' = firings s := by
  rw [System.expireTimer]
  by_cases stopped : timer ∈ s.stopped
  · have members := accounts.stopping timer stopped remains
    rw [members]
    refine ⟨_, rfl, accounts, fun timer' member => ?_, rfl, rfl⟩
    rw [List.map_cons, List.mem_cons, or_assoc] at member
    rcases member with rfl | old
    · exact stopped
    · exact ended timer' old
  · obtain ⟨client, members, timer_of⟩ := accounts.ticking timer started stopped
    obtain ⟨stops, after⟩ := accounts.destroy timer_of
    rw [members]
    dsimp only
    rw [stops]
    refine ⟨_, rfl, after, fun timer' member => ?_, rfl, by simp [firings]⟩
    rw [List.map_cons, List.mem_cons, or_assoc] at member
    rcases member with rfl | old
    · exact List.mem_cons_self
    · exact List.mem_cons_of_mem _ (ended timer' old)

theorem Kept.start (kept : Kept s) (client : γ) (futureTime : Timespec) :
    Kept (s.start client futureTime) := by
  have after := kept.accounts.start client futureTime
  cases timer_of : s.mTimer client with
  | some timer =>
    rw [System.start, timer_of]
    exact kept
  | none =>
    rw [System.start, timer_of] at after ⊢
    refine ⟨after, kept.ended, fun idle none => ?_, by simpa [firings] using kept.single, fun pending => ?_⟩
    · rw [List.mem_append, not_or] at none
      exact kept.armed idle none.1
    · exact kept.met (by simpa [Pending] using pending)

theorem Kept.stop (kept : Kept s) (client : γ) :
    ∃ s' stopped, s.stop client = some (s', stopped) ∧ Kept s' := by
  cases timer_of : s.mTimer client with
  | none =>
    refine ⟨s, false, ?_, kept⟩
    rw [System.stop, timer_of]
  | some timer =>
    obtain ⟨stops, after⟩ := kept.accounts.destroy timer_of
    refine ⟨_, _, stops, after, ?_, fun idle none => ?_, by simpa [firings] using kept.single, fun pending => ?_⟩
    · exact fun timer' member => List.mem_cons_of_mem _ (kept.ended timer' member)
    · rw [List.mem_append, not_or] at none
      exact kept.armed idle none.1
    · exact kept.met (by simpa [Pending] using pending)

/-- One round of `MsgTimerExpire` that pops a delegate that is due. -/
theorem Kept.round (accounts : Accounts s) (ended : Ended s) {heap : LocHeap LocTimerDelegate}
    (pops : s.heap.pop ranks = (heap, some timer))
    (due : timer.mFutureTime.ns ≤ s.now.ns) {timerOfNow : Timespec} (clock : timerOfNow.ns ≤ s.now.ns)
    (single : firings { s with expiring := some timerOfNow } ≤ 1) :
    ∃ s', { s with heap, expiring := some timerOfNow }.expireTimer timer = some s' ∧ Kept s' := by
  have clock' : ∀ t ∈ some timerOfNow, t.ns ≤ s.now.ns := fun t same => (Option.some.inj same) ▸ clock
  obtain ⟨started, remains, after⟩ := accounts.popped pops due clock'
  obtain ⟨s', expired, accounts, ended, expiring, firings⟩ := expireTimer_kept
    (s := { s with heap, expiring := some timerOfNow }) after started remains ended
  have loops : s'.expiring ≠ none := by rw [expiring]; exact Option.some_ne_none _
  have single' := firings.trans_le single
  exact ⟨s', expired, accounts, ended, fun idle => absurd idle loops, single',
    fun pending => absurd pending (looping single' loops)⟩

/-- The expiry pops a delegate that is due, since one is while it was pending. -/
theorem Kept.procExpire (kept : Kept s) (idle : s.expiring = none) (queued : s.queue = .expire :: queue) :
    ∃ s', { s with queue }.procExpire = some s' ∧ Kept s' := by
  have dequeued := dequeue kept.accounts queued
  have due := (kept.met (.inr (queued ▸ List.mem_cons_self))).top kept.accounts
  -- it was the only firing
  have single := kept.single
  rw [firings, queued, idle, List.count_cons_self] at single
  have loop : firings { s with queue, expiring := some s.now } ≤ 1 := by
    dsimp only [firings, Option.elim_some, Option.elim_none] at single ⊢
    omega
  rw [System.procExpire]
  rcases pops : s.heap.pop ranks with ⟨heap, _ | timer⟩
  · have handled : ¬ Pending { s with queue } := @looping _ { s with queue, expiring := some s.now } loop nofun
    refine ⟨_, rfl, Kept.rest dequeued kept.ended ?_ handled⟩
    dsimp only [firings, Option.elim_some, Option.elim_none] at single ⊢
    rw [idle, Option.elim_none]
    omega
  · exact Kept.round dequeued kept.ended pops (due timer (peek_of_pop pops)) (Nat.le_refl _) loop

/-- A later round pops only what `timerOfNow` does not outrank. -/
theorem Kept.procLoop (kept : Kept s) {timerOfNow : Timespec} (loops : s.expiring = some timerOfNow)
    (timely : ∀ top ∈ s.heap.peek, timerOfNow.Near top.mFutureTime) :
    ∃ s', s.procLoop timerOfNow = some s' ∧ Kept s' := by
  have clock : timerOfNow.ns ≤ s.now.ns := kept.accounts.clock timerOfNow loops
  have ends : Accounts { s with expiring := none } :=
    ⟨kept.accounts.wf, kept.accounts.near, kept.accounts.nonzero, kept.accounts.places,
      kept.accounts.numbered, kept.accounts.stops, kept.accounts.once, kept.accounts.known,
      kept.accounts.inOrder, kept.accounts.gone, kept.accounts.ticking, kept.accounts.stopping,
      kept.accounts.clients, kept.accounts.due, nofun⟩
  have handled : ¬ Pending s := looping kept.single (by rw [loops]; exact Option.some_ne_none _)
  have ended : firings { s with expiring := none } ≤ 1 := by
    have single := kept.single
    exact (Nat.le_add_right _ _).trans single
  rw [System.procLoop, System.popIfOutRanks]
  cases peeked : s.heap.peek with
  | none => exact ⟨_, rfl, Kept.rest ends kept.ended ended handled⟩
  | some top =>
    dsimp only
    rw [outRanks_of_near (timely top peeked)]
    by_cases later : outRanks exactRanks ⟨0, timerOfNow⟩ top = true
    · rw [if_neg (by simp [later])]
      exact ⟨_, rfl, Kept.rest ends kept.ended ended handled⟩
    · rw [if_pos (by simp [later])]
      rcases pops : s.heap.pop ranks with ⟨heap, _ | timer⟩
      · cases peeked.symm.trans (peek_of_pop_none pops)
      · obtain rfl := Option.some.inj (peeked.symm.trans (peek_of_pop pops))
        rw [outRanks_exact, not_lt] at later
        obtain ⟨s', expired, kept'⟩ :=
          Kept.round kept.accounts kept.ended pops (Nat.le_trans later clock) clock (loops ▸ kept.single)
        rw [← loops] at expired
        exact ⟨s', expired, kept'⟩

theorem proc_loop {timerOfNow : Timespec} (loops : s.expiring = some timerOfNow) :
    s.proc = s.procLoop timerOfNow := by
  rw [System.proc, loops]

/-- Between two messages, the next one is taken from the queue. -/
theorem proc_idle (idle : s.expiring = none) : s.proc = match s.queue with
    | [] => none
    | .push timer :: queue => some ({ s with queue }.procPush timer)
    | .remove timer :: queue => some ({ s with queue }.procRemove timer)
    | .expire :: queue => { s with queue }.procExpire := by
  rw [System.proc]
  split
  next timerOfNow loops =>
    rw [idle] at loops
    cases loops
  next => rfl

theorem Kept.proc (kept : Kept s) (timely : Timely s .proc) (stepped : s.proc = some s') : Kept s' := by
  rw [Timely] at timely
  cases loops : s.expiring with
  | some timerOfNow =>
    rw [loops] at timely
    obtain ⟨s'', looped, kept'⟩ := kept.procLoop loops timely
    rw [proc_loop loops, looped] at stepped
    obtain rfl := Option.some.inj stepped
    exact kept'
  | none =>
    rw [loops] at timely
    rw [proc_idle loops] at stepped
    cases queued : s.queue with
    | nil =>
      rw [queued] at stepped
      cases stepped
    | cons msg queue =>
      rw [queued] at stepped timely
      cases msg with
      | push timer =>
        obtain rfl := Option.some.inj stepped
        exact kept.procPush loops queued timely.1 timely.2.1 timely.2.2
      | remove timer =>
        obtain rfl := Option.some.inj stepped
        exact kept.procRemove loops queued timely
      | expire =>
        obtain ⟨s'', expired, kept'⟩ := kept.procExpire loops queued
        obtain rfl := Option.some.inj (expired.symm.trans stepped)
        exact kept'

theorem Kept.step (kept : Kept s) {event : Event γ} (timely : Timely s event)
    (stepped : s.step event = some s') : Kept s' := by
  cases event with
  | start client futureTime =>
    obtain rfl := Option.some.inj stepped
    exact kept.start client futureTime
  | stop client =>
    obtain ⟨s'', stopped, answer, kept'⟩ := kept.stop client
    rw [System.step, answer] at stepped
    obtain rfl := Option.some.inj stepped
    exact kept'
  | tick now =>
    rw [System.step] at stepped
    split at stepped
    next later =>
      obtain rfl := Option.some.inj stepped
      refine ⟨kept.accounts.tick later, kept.ended, kept.armed, kept.single, fun pending => ?_⟩
      exact (kept.met pending).imp_right fun ⟨timer, stored, due⟩ => ⟨timer, stored, due.trans later⟩
    next => cases stepped
  | wake =>
    obtain ⟨none, idle⟩ := timely
    rw [System.step] at stepped
    split at stepped
    next fires =>
      obtain rfl := Option.some.inj stepped
      -- no expiry was pending, so the timerfd was armed for the top
      refine ⟨kept.accounts.rearm s.devFd s.polled true, kept.ended, kept.armed, ?_, fun _ => ?_⟩
      · simp [firings, List.count_eq_zero.mpr none, idle]
      · exact (kept.armed idle none).met kept.accounts fires.2.2
    next => cases stepped
  | expire =>
    rw [System.step] at stepped
    split at stepped
    next woken =>
      obtain rfl := Option.some.inj stepped
      refine ⟨kept.accounts.enqueueExpire.rearm none false false, kept.ended, fun _ none => ?_, ?_,
        fun _ => kept.met (.inl woken)⟩
      · exact absurd (List.mem_append_right _ (List.mem_singleton_self _)) none
      · have single := kept.single
        rw [firings, woken] at single
        simpa [firings, Nat.add_comm, Nat.add_left_comm] using single
    next => cases stepped
  | proc => exact kept.proc timely stepped

open Runs in
/-- In a run that is `Timely`: what was popped was due when it was popped. Every delegate is popped or
taken out at most once and deleted at most once, it is deleted behind that, and one that is not
deleted has its remove queued or still ticks; no deleted one is stored or belongs to a client. And
while no expiry is pending, the timerfd is armed for the top of the heap. -/
theorem timers_never_early {now : Timespec} {events : List (Event γ)} {s : System γ}
    (run : Run System.step Timely { now } events s) :
    (∀ p ∈ s.popped, p.1.mFutureTime.ns ≤ p.2.ns) ∧
    ((s.popped.map Prod.fst ++ s.dropped).Nodup ∧ s.deleted.Nodup ∧
      (∀ timer ∈ s.deleted, timer ∈ s.popped.map Prod.fst ++ s.dropped ∧
        .remove timer ∉ s.queue ∧ timer ∉ s.heap.stored) ∧ (∀ timer ∈ s.popped.map Prod.fst ++ s.dropped,
        timer ∈ s.deleted ∨ .remove timer ∈ s.queue) ∧
      ∀ timer ∈ s.started, timer ∈ s.deleted ∨ .remove timer ∈ s.queue ∨
        (timer ∈ s.heap.stored ∨ .push timer ∈ s.queue)) ∧
    ((∀ timer ∈ s.heap.stored, (s.memory timer.addr).isSome) ∧
      ∀ client timer, s.mTimer client = some timer → (s.memory timer.addr).isSome) ∧
    (s.expiring = none → .expire ∉ s.queue →
      ∀ top ∈ s.heap.peek, s.devFd = some top.mFutureTime ∧ s.polled = true) := by
  have kept : Kept s := by
    apply run.invariant Kept _ (kept_initial now)
    exact fun s event s' kept timely stepped => kept.step timely stepped
  -- a timer waits, popped or was dropped, each in one way only
  have accounts := kept.accounts
  have places := accounts.nodup
  rw [Multiset.add_assoc, Multiset.nodup_add] at places
  have stops := accounts.stops ▸ Multiset.coe_nodup.mpr accounts.once
  rw [Multiset.nodup_add] at stops
  refine ⟨accounts.due, ⟨?_, ?_, ?_, ?_, ?_⟩, ⟨?_, ?_⟩, kept.armed⟩
  · have out := places.2.1
    rwa [coe_add, Multiset.coe_nodup] at out
  · exact Multiset.coe_nodup.mp stops.2.1
  · intro timer deleted
    refine ⟨List.mem_append.mpr (accounts.gone timer deleted), fun queued => ?_, fun stored => ?_⟩
    · exact disjoint_left.mp stops.2.2 (mem_removes.mpr queued) (mem_coe.mpr deleted)
    · exact accounts.waiting_not_deleted (.inr stored) deleted
  · intro timer out
    exact (accounts.stopped_iff.mp (kept.ended timer (List.mem_append.mp out))).symm
  · intro timer started
    rcases accounts.started_iff.mp started with ((pushed | stored) | popped) | dropped
    · exact .inr (.inr (.inr pushed))
    · exact .inr (.inr (.inl stored))
    · have stopped := accounts.stopped_iff.mp (kept.ended timer (.inl popped))
      exact stopped.symm.imp_right .inl
    · have stopped := accounts.stopped_iff.mp (kept.ended timer (.inr dropped))
      exact stopped.symm.imp_right .inl
  · intro timer stored
    have remains := accounts.waiting_not_deleted (.inr stored)
    by_cases stopped : timer ∈ s.stopped
    · rw [accounts.stopping timer stopped remains]
      rfl
    · have started := accounts.started_iff.mpr (.inl (.inl (.inr stored)))
      obtain ⟨client, members, _⟩ := accounts.ticking timer started stopped
      rw [members]
      rfl
  · intro client timer timer_of
    rw [(accounts.clients client timer timer_of).2.2]
    rfl

/-- The timerfd fires for the first of three timers. Its expiry comes when the second is due as well, behind the
remove of the third. -/
theorem timers_never_early_sample :
    let events : List (Event (Fin 3)) := [.start 0 ⟨5, 0⟩, .start 1 ⟨7, 0⟩, .start 2 ⟨10, 0⟩, .proc, .proc, .proc,
      .tick ⟨6, 0⟩, .wake, .stop 2, .tick ⟨8, 0⟩, .expire, .proc, .proc, .proc, .proc, .proc, .proc]
    ∃ s, Runs.Run System.step Timely { now := ⟨0, 0⟩ } events s ∧
      s.popped = [(⟨1, ⟨7, 0⟩⟩, ⟨8, 0⟩), (⟨0, ⟨5, 0⟩⟩, ⟨8, 0⟩)] ∧
      s.deleted = [⟨1, ⟨7, 0⟩⟩, ⟨0, ⟨5, 0⟩⟩, ⟨2, ⟨10, 0⟩⟩] ∧
      ∀ p ∈ s.popped, p.1.mFutureTime.ns ≤ p.2.ns := by
  intro events
  have evaluates : (Runs.checked System.step Timely events { now := ⟨0, 0⟩ }).map
      (fun s => (s.popped, s.deleted)) = some ([(⟨1, ⟨7, 0⟩⟩, ⟨8, 0⟩), (⟨0, ⟨5, 0⟩⟩, ⟨8, 0⟩)],
        [⟨1, ⟨7, 0⟩⟩, ⟨0, ⟨5, 0⟩⟩, ⟨2, ⟨10, 0⟩⟩]) := by
    decide +kernel
  obtain ⟨s, last, eq⟩ := Option.map_eq_some_iff.mp evaluates
  have run := Runs.Run.of_checked last
  exact ⟨s, run, congrArg Prod.fst eq, congrArg Prod.snd eq, (timers_never_early run).1⟩

/-- The timerfd fires for the first timer; its `stop()` is queued before the expiry. The second one
is expired at the time of the first. -/
theorem timer_fires_early :
    let events : List (Event Bool) := [.start true ⟨5, 0⟩, .start false ⟨10, 0⟩, .proc, .proc,
      .tick ⟨5, 0⟩, .wake, .stop true, .expire, .proc, .proc]
    (events.foldlM System.step { now := ⟨0, 0⟩ }).map (·.popped) =
      some [(⟨1, ⟨10, 0⟩⟩, ⟨5, 0⟩)] := by
  decide +kernel

end Hima.Gps.LocTimer
