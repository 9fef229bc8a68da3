import Hima.Gps.HeapTop
import Hima.Gps.LocTimer
import Mathlib.Data.Multiset.UnionInter

/-!
# Where the delegates are

Every delegate is in one place: its push is queued, it is in the heap, it was popped, or a remove
took it out. And the stopped ones are those whose remove is queued and those that were deleted.
-/
namespace Hima.Gps

open PriorityQueue Multiset Function LocTimerDelegate

/-- The order by time, as `ranks` has it where no difference overflows an `int`. -/
def exactRanks (a b : LocTimerDelegate) : Int := b.mFutureTime.ns - a.mFutureTime.ns

theorem ranked_exact : Ranked (OutRanks exactRanks) := by
  constructor
  · intro a b
    simp only [OutRanks, exactRanks]
    omega
  · intro a b c
    simp only [OutRanks, exactRanks]
    omega

/-- The difference of the seconds fits in an `int`. -/
def Timespec.Near (a b : Timespec) : Prop :=
  a.tv_sec < b.tv_sec + 2 ^ 31 ∧ b.tv_sec < a.tv_sec + 2 ^ 31

instance (a b : Timespec) : Decidable (a.Near b) := inferInstanceAs (Decidable (_ ∧ _))

theorem outRanks_of_near {a b : LocTimerDelegate} (near : a.mFutureTime.Near b.mFutureTime) :
    outRanks ranks a b = outRanks exactRanks a b := by
  obtain ⟨after, before⟩ := near
  have exact : ((b.mFutureTime.tv_sec : Int) - a.mFutureTime.tv_sec).bmod (2 ^ 32) =
      (b.mFutureTime.tv_sec : Int) - a.mFutureTime.tv_sec :=
    Int.bmod_eq_of_le (by omega) (by omega)
  have below := b.mFutureTime.tv_nsec.isLt
  have below' := a.mFutureTime.tv_nsec.isLt
  rw [outRanks, outRanks, ranks, exact, exactRanks, Timespec.ns, Timespec.ns]
  apply decide_eq_decide.mpr
  split <;> omega

theorem outRanks_exact {a b : LocTimerDelegate} :
    outRanks exactRanks a b = true ↔ a.mFutureTime.ns < b.mFutureTime.ns := by
  rw [outRanks, decide_eq_true_iff, exactRanks]
  omega

namespace LocTimer

variable {γ : Type}

/-- The delegates whose push is queued. -/
def pushes : List Msg → Multiset LocTimerDelegate
  | [] => 0
  | .push timer :: queue => timer ::ₘ pushes queue
  | .remove _ :: queue => pushes queue
  | .expire :: queue => pushes queue

/-- The delegates whose remove is queued. -/
def removes : List Msg → Multiset LocTimerDelegate
  | [] => 0
  | .push _ :: queue => removes queue
  | .remove timer :: queue => timer ::ₘ removes queue
  | .expire :: queue => removes queue

theorem pushes_append (queue queue' : List Msg) :
    pushes (queue ++ queue') = pushes queue + pushes queue' := by
  induction queue with
  | nil => exact (Multiset.zero_add _).symm
  | cons msg queue ih =>
    cases msg with
    | push timer => simp only [List.cons_append, pushes, ih, cons_add]
    | remove timer => exact ih
    | expire => exact ih

theorem removes_append (queue queue' : List Msg) :
    removes (queue ++ queue') = removes queue + removes queue' := by
  induction queue with
  | nil => exact (Multiset.zero_add _).symm
  | cons msg queue ih =>
    cases msg with
    | push timer => exact ih
    | remove timer => simp only [List.cons_append, removes, ih, cons_add]
    | expire => exact ih

@[simp] theorem pushes_snoc_push (queue : List Msg) (timer : LocTimerDelegate) :
    pushes (queue ++ [.push timer]) = timer ::ₘ pushes queue := by
  rw [pushes_append, Multiset.add_comm]
  exact Multiset.singleton_add timer (pushes queue)

@[simp] theorem pushes_snoc_remove (queue : List Msg) (timer : LocTimerDelegate) :
    pushes (queue ++ [.remove timer]) = pushes queue :=
  (pushes_append queue _).trans (Multiset.add_zero _)

@[simp] theorem pushes_snoc_expire (queue : List Msg) :
    pushes (queue ++ [.expire]) = pushes queue :=
  (pushes_append queue _).trans (Multiset.add_zero _)

@[simp] theorem removes_snoc_push (queue : List Msg) (timer : LocTimerDelegate) :
    removes (queue ++ [.push timer]) = removes queue :=
  (removes_append queue _).trans (Multiset.add_zero _)

@[simp] theorem removes_snoc_remove (queue : List Msg) (timer : LocTimerDelegate) :
    removes (queue ++ [.remove timer]) = timer ::ₘ removes queue := by
  rw [removes_append, Multiset.add_comm]
  exact Multiset.singleton_add timer (removes queue)

@[simp] theorem removes_snoc_expire (queue : List Msg) :
    removes (queue ++ [.expire]) = removes queue :=
  (removes_append queue _).trans (Multiset.add_zero _)

theorem mem_pushes {queue : List Msg} {timer : LocTimerDelegate} :
    timer ∈ pushes queue ↔ .push timer ∈ queue := by
  induction queue with
  | nil => simp [pushes]
  | cons msg queue ih => cases msg <;> simp [pushes, ih]

theorem mem_removes {queue : List Msg} {timer : LocTimerDelegate} :
    timer ∈ removes queue ↔ .remove timer ∈ queue := by
  induction queue with
  | nil => simp [removes]
  | cons msg queue ih => cases msg <;> simp [removes, ih]

/-- A remove is queued behind the push of its delegate. -/
def InOrder (queue : List Msg) : Prop :=
  queue.Pairwise fun msg later => ∀ timer, msg = .remove timer → later ≠ .push timer

/-- What all steps keep, whatever the timerfd does. -/
structure Accounts (s : System γ) : Prop where
  wf : s.heap.WellFormed exactRanks
  near : ∀ a ∈ s.heap.stored, ∀ b ∈ s.heap.stored, a.mFutureTime.Near b.mFutureTime
  nonzero : ∀ a ∈ s.heap.stored, a.mFutureTime.ns ≠ 0
  places : (s.started : Multiset LocTimerDelegate) =
    pushes s.queue + s.heap.stored + (s.popped.map Prod.fst : List _) + (s.dropped : List _)
  numbered : (s.started.map (·.addr)).Nodup ∧ ∀ timer ∈ s.started, timer.addr < s.started.length
  stops : (s.stopped : Multiset LocTimerDelegate) = removes s.queue + (s.deleted : List _)
  once : s.stopped.Nodup
  known : ∀ timer ∈ s.stopped, timer ∈ s.started
  inOrder : InOrder s.queue
  gone : ∀ timer ∈ s.deleted, timer ∈ s.popped.map Prod.fst ∨ timer ∈ s.dropped
  ticking : ∀ timer ∈ s.started, timer ∉ s.stopped →
    ∃ client, s.memory timer.addr = some ⟨some client, true⟩ ∧ s.mTimer client = some timer
  stopping : ∀ timer ∈ s.stopped, timer ∉ s.deleted → s.memory timer.addr = some ⟨none, false⟩
  clients : ∀ client timer, s.mTimer client = some timer →
    timer ∈ s.started ∧ timer ∉ s.stopped ∧ s.memory timer.addr = some ⟨some client, true⟩
  due : ∀ p ∈ s.popped, p.1.mFutureTime.ns ≤ p.2.ns
  clock : ∀ timerOfNow ∈ s.expiring, timerOfNow.ns ≤ s.now.ns

namespace Accounts

variable {s : System γ} {timer timer' : LocTimerDelegate}

section

variable (accounts : Accounts s)
include accounts

theorem same (member : timer ∈ s.started) (member' : timer' ∈ s.started)
    (addr : timer.addr = timer'.addr) : timer = timer' :=
  List.inj_on_of_nodup_map accounts.numbered.1 member member' addr

theorem nodup :
    (pushes s.queue + s.heap.stored + (s.popped.map Prod.fst : List _) + (s.dropped : List _)).Nodup := by
  rw [← accounts.places, coe_nodup]
  exact accounts.numbered.1.of_map _

theorem started_iff : timer ∈ s.started ↔
    ((.push timer ∈ s.queue ∨ timer ∈ s.heap.stored) ∨ timer ∈ s.popped.map Prod.fst) ∨ timer ∈ s.dropped := by
  rw [← mem_coe, accounts.places, Multiset.mem_add, Multiset.mem_add, Multiset.mem_add,
    mem_pushes, mem_coe, mem_coe]

theorem stopped_iff :
    timer ∈ s.stopped ↔ .remove timer ∈ s.queue ∨ timer ∈ s.deleted := by
  rw [← mem_coe, accounts.stops, Multiset.mem_add, mem_removes, mem_coe]

/-- What is queued or stored is neither popped nor dropped. -/
theorem waiting (member : .push timer ∈ s.queue ∨ timer ∈ s.heap.stored) :
    timer ∉ s.popped.map Prod.fst ∧ timer ∉ s.dropped := by
  have nodup := accounts.nodup
  rw [Multiset.add_assoc, Multiset.nodup_add] at nodup
  have apart := Multiset.disjoint_left.mp nodup.2.2 (Multiset.mem_add.mpr (member.imp_left mem_pushes.mpr))
  rw [Multiset.mem_add, not_or] at apart
  exact apart

theorem waiting_not_deleted (member : .push timer ∈ s.queue ∨ timer ∈ s.heap.stored) : timer ∉ s.deleted :=
  fun deleted => (accounts.gone timer deleted).elim (accounts.waiting member).1 (accounts.waiting member).2

theorem rearm (devFd : Option Timespec) (polled woken : Bool) :
    Accounts { s with devFd, polled, woken } :=
  ⟨accounts.wf, accounts.near, accounts.nonzero, accounts.places, accounts.numbered, accounts.stops,
    accounts.once, accounts.known, accounts.inOrder, accounts.gone, accounts.ticking,
    accounts.stopping, accounts.clients, accounts.due, accounts.clock⟩

theorem updateSoonestTime (priorTop : Option LocTimerDelegate) :
    Accounts (s.updateSoonestTime priorTop) := by
  rw [System.updateSoonestTime]
  split
  · split
    · exact accounts.rearm _ _ s.woken
    · split
      · exact accounts.rearm _ true s.woken
      · exact accounts
  · exact accounts

theorem enqueueExpire : Accounts { s with queue := s.queue ++ [.expire] } := by
  refine ⟨accounts.wf, accounts.near, accounts.nonzero, ?_, accounts.numbered, ?_, accounts.once,
    accounts.known, ?_, accounts.gone, accounts.ticking, accounts.stopping, accounts.clients,
    accounts.due, accounts.clock⟩
  · rw [pushes_snoc_expire]
    exact accounts.places
  · rw [removes_snoc_expire]
    exact accounts.stops
  · refine List.pairwise_append.mpr ⟨accounts.inOrder, List.pairwise_singleton _ _, ?_⟩
    intro msg _ later last timer _
    rw [List.mem_singleton.mp last]
    nofun

theorem tick {now : Timespec} (later : s.now.ns ≤ now.ns) :
    Accounts { s with now } :=
  ⟨accounts.wf, accounts.near, accounts.nonzero, accounts.places, accounts.numbered, accounts.stops,
    accounts.once, accounts.known, accounts.inOrder, accounts.gone, accounts.ticking,
    accounts.stopping, accounts.clients, accounts.due,
    fun timerOfNow member => Nat.le_trans (accounts.clock timerOfNow member) later⟩

/-! ### Steps of the message task -/

theorem agree :
    Agree ranks exactRanks s.heap.stored :=
  fun a member b member' => outRanks_of_near (accounts.near a member b member')

theorem near_cons (near : ∀ other ∈ s.heap.stored, timer.mFutureTime.Near other.mFutureTime) :
    ∀ a ∈ timer ::ₘ s.heap.stored, ∀ b ∈ timer ::ₘ s.heap.stored, a.mFutureTime.Near b.mFutureTime := by
  intro a member b member'
  rcases mem_cons.mp member with rfl | old
  · rcases mem_cons.mp member' with rfl | old'
    · exact ⟨by omega, by omega⟩
    · exact near b old'
  · rcases mem_cons.mp member' with rfl | old'
    · exact (near a old).symm
    · exact accounts.near a old b old'

theorem pushed {queue : List Msg} (queued : s.queue = .push timer :: queue)
    (near : ∀ other ∈ s.heap.stored, timer.mFutureTime.Near other.mFutureTime)
    (nonzero : timer.mFutureTime.ns ≠ 0) :
    Accounts { s with queue, heap := s.heap.push ranks timer } := by
  have all := accounts.near_cons near
  have same := LocHeap.push_agree fun a member b member' => outRanks_of_near (all a member b member')
  have stored := @LocHeap.stored_push _ exactRanks s.heap timer
  have places := accounts.places
  have stops := accounts.stops
  have inOrder := accounts.inOrder
  rw [queued] at places stops inOrder
  rw [same]
  refine ⟨accounts.wf.step ranked_exact (.push timer), ?_, ?_, ?_, accounts.numbered, stops,
    accounts.once, accounts.known, (List.pairwise_cons.mp inOrder).2, accounts.gone, accounts.ticking,
    accounts.stopping, accounts.clients, accounts.due, accounts.clock⟩
  · rwa [stored]
  · intro a member
    rw [stored] at member
    rcases mem_cons.mp member with rfl | old
    · exact nonzero
    · exact accounts.nonzero a old
  · rw [stored, add_cons]
    rw [pushes, cons_add] at places
    exact places

/-- A delegate that leaves the queue for good: it is out of the heap or comes out of it now. -/
theorem delete {queue : List Msg} (queued : s.queue = .remove timer :: queue)
    {heap : LocHeap LocTimerDelegate} {found : Option LocTimerDelegate} (wf : heap.WellFormed exactRanks)
    (stored : s.heap.stored = (found.toList : Multiset LocTimerDelegate) + heap.stored)
    (out : timer ∈ s.popped.map Prod.fst ∨ timer ∈ found.toList ++ s.dropped) :
    Accounts { s with
      queue, heap
      dropped := found.toList ++ s.dropped
      memory := update s.memory timer.addr none
      deleted := timer :: s.deleted } := by
  have stopped : timer ∈ s.stopped :=
    accounts.stopped_iff.mpr (.inl (queued ▸ List.mem_cons_self))
  have started := accounts.known timer stopped
  have places := accounts.places
  have stops := accounts.stops
  have inOrder := accounts.inOrder
  rw [queued] at places stops inOrder
  -- the memory of the others is elsewhere, and the heap only loses
  have kept : ∀ timer' ∈ s.started, timer' ≠ timer →
      update s.memory timer.addr none timer'.addr = s.memory timer'.addr :=
    fun timer' member other =>
      update_of_ne (fun addr => other (accounts.same member started addr)) _ _
  have sub : ∀ a ∈ heap.stored, a ∈ s.heap.stored := by
    intro a member
    rw [stored]
    exact Multiset.mem_add.mpr (.inr member)
  refine ⟨wf, fun a member b member' => accounts.near a (sub a member) b (sub b member'),
    fun a member => accounts.nonzero a (sub a member), ?_, accounts.numbered, ?_, accounts.once,
    accounts.known, (List.pairwise_cons.mp inOrder).2, ?_, ?_, ?_, ?_, accounts.due, accounts.clock⟩
  · rw [places, stored, pushes]
    rw [← Multiset.coe_add, Multiset.add_comm _ heap.stored]
    generalize (found.toList : Multiset LocTimerDelegate) = taken
    rw [← Multiset.add_assoc, Multiset.add_assoc _ taken, Multiset.add_comm taken,
      ← Multiset.add_assoc, Multiset.add_assoc _ taken]
  · rw [stops, removes, ← cons_coe, add_cons, cons_add]
  · intro timer' member
    rcases List.mem_cons.mp member with rfl | old
    · exact out
    · exact (accounts.gone timer' old).imp_right (List.mem_append_right _)
  · intro timer' member ticks
    obtain ⟨client, live, timer_of⟩ := accounts.ticking timer' member ticks
    refine ⟨client, (kept timer' member ?_).trans live, timer_of⟩
    rintro rfl
    exact ticks stopped
  · intro timer' member remains
    rw [List.mem_cons, not_or] at remains
    exact (kept timer' (accounts.known timer' member) remains.1).trans
      (accounts.stopping timer' member remains.2)
  · intro client timer' timer_of
    obtain ⟨started', ticks, live⟩ := accounts.clients client timer' timer_of
    refine ⟨started', ticks, (kept timer' started' ?_).trans live⟩
    rintro rfl
    exact ticks stopped

/-- A remove that finds its delegate in the heap takes it out; one whose delegate was popped finds
nothing. -/
theorem removed {queue : List Msg}
    (queued : s.queue = .remove timer :: queue) :
    Accounts { s with
      queue
      heap := (s.heap.remove ranks timer).1
      dropped := (s.heap.remove ranks timer).2.toList ++ s.dropped
      memory := update s.memory timer.addr none
      deleted := timer :: s.deleted } := by
  by_cases inside : timer ∈ s.heap.stored
  · have all := accounts.near_cons (accounts.near timer inside)
    rw [LocHeap.remove_agree fun a member b member' => outRanks_of_near (all a member b member')]
    obtain ⟨found, fewer⟩ := accounts.wf.remove_of_mem inside
    refine accounts.delete queued (accounts.wf.step ranked_exact (.remove timer)) ?_ (.inr ?_)
    · rw [found]
      exact fewer
    · rw [found]
      exact List.mem_cons_self
  · rw [LocHeap.remove_of_notMem _ inside]
    refine accounts.delete queued accounts.wf (Multiset.zero_add _).symm ?_
    have stopped : timer ∈ s.stopped :=
      accounts.stopped_iff.mpr (.inl (queued ▸ List.mem_cons_self))
    have inOrder := accounts.inOrder
    rw [queued] at inOrder
    have passed : .push timer ∉ s.queue := by
      rw [queued, List.mem_cons, not_or]
      exact ⟨nofun, fun later => (List.pairwise_cons.mp inOrder).1 _ later timer rfl rfl⟩
    rcases accounts.started_iff.mp (accounts.known timer stopped) with (waits | popped) | dropped
    · exact absurd waits (not_or.mpr ⟨passed, inside⟩)
    · exact .inl popped
    · exact .inr dropped

end

/-- The top leaves the heap when it is due. -/
theorem popped (accounts : Accounts s) {heap : LocHeap LocTimerDelegate}
    (pops : s.heap.pop ranks = (heap, some timer))
    (due : timer.mFutureTime.ns ≤ s.now.ns) {expiring : Option Timespec}
    (clock : ∀ timerOfNow ∈ expiring, timerOfNow.ns ≤ s.now.ns) :
    timer ∈ s.started ∧ timer ∉ s.deleted ∧
      Accounts { s with heap, expiring, popped := (timer, s.now) :: s.popped } := by
  rw [LocHeap.pop_agree accounts.agree] at pops
  have wf := accounts.wf.step ranked_exact .pop
  rcases @LocHeap.pop_spec _ exactRanks s.heap with ⟨_, empty⟩ | ⟨x, _, answer, fewer⟩
  · rw [pops] at empty
    cases empty
  · rw [pops] at answer fewer
    obtain rfl := Option.some.inj answer
    rw [LocHeap.step, pops] at wf
    have inside : timer ∈ s.heap.stored := fewer ▸ mem_cons_self _ _
    have sub : ∀ a ∈ heap.stored, a ∈ s.heap.stored :=
      fun a member => fewer ▸ mem_cons_of_mem member
    refine ⟨accounts.started_iff.mpr (.inl (.inl (.inr inside))),
      accounts.waiting_not_deleted (.inr inside), wf,
      fun a member b member' => accounts.near a (sub a member) b (sub b member'),
      fun a member => accounts.nonzero a (sub a member), ?_, accounts.numbered, accounts.stops,
      accounts.once, accounts.known, accounts.inOrder, ?_, accounts.ticking, accounts.stopping,
      accounts.clients, ?_, clock⟩
    · rw [accounts.places, fewer]
      rw [List.map_cons, ← cons_coe, add_cons, add_cons, cons_add]
    · intro timer' member
      exact (accounts.gone timer' member).imp_left (List.mem_cons_of_mem _)
    · intro p member
      rcases List.mem_cons.mp member with rfl | old
      · exact due
      · exact accounts.due p old

/-! ### Calls of the clients -/

variable [DecidableEq γ]

theorem create (accounts : Accounts s) {client : γ} (idle : s.mTimer client = none)
    {new : LocTimerDelegate} (addr : new.addr = s.started.length) :
    Accounts { s with
      memory := update s.memory new.addr (some ⟨some client, true⟩)
      mTimer := update s.mTimer client (some new)
      queue := s.queue ++ [.push new]
      started := new :: s.started } := by
  -- addresses are numbered, and this number is the next
  have fresh : ∀ timer ∈ s.started, timer.addr ≠ s.started.length :=
    fun timer member => Nat.ne_of_lt (accounts.numbered.2 timer member)
  have unknown : new ∉ s.started := fun member => fresh new member addr
  have kept : ∀ timer ∈ s.started,
      update s.memory new.addr (some ⟨some client, true⟩) timer.addr = s.memory timer.addr :=
    fun timer member => update_of_ne (addr ▸ fresh timer member) _ _
  refine ⟨accounts.wf, accounts.near, accounts.nonzero, ?_, ⟨?_, ?_⟩, ?_, accounts.once, ?_, ?_,
    accounts.gone, ?_, ?_, ?_, accounts.due, accounts.clock⟩
  · rw [pushes_snoc_push, ← cons_coe, accounts.places, cons_add, cons_add, cons_add]
  · rw [List.map_cons, List.nodup_cons]
    refine ⟨fun member => ?_, accounts.numbered.1⟩
    obtain ⟨timer, inside, same⟩ := List.mem_map.mp member
    exact fresh timer inside (same.trans addr)
  · intro timer member
    rw [List.length_cons]
    rcases List.mem_cons.mp member with rfl | old
    · omega
    · exact Nat.lt_succ_of_lt (accounts.numbered.2 timer old)
  · rw [removes_snoc_push]
    exact accounts.stops
  · exact fun timer member => List.mem_cons_of_mem _ (accounts.known timer member)
  · refine List.pairwise_append.mpr ⟨accounts.inOrder, List.pairwise_singleton _ _, ?_⟩
    intro msg queued later last timer removes same
    rw [List.mem_singleton.mp last] at same
    obtain rfl := Msg.push.inj same
    exact unknown (accounts.known _ (accounts.stopped_iff.mpr (.inl (removes ▸ queued))))
  · intro timer member ticks
    rcases List.mem_cons.mp member with rfl | old
    · exact ⟨client, update_self _ _ _, update_self _ _ _⟩
    · obtain ⟨client', live, timer_of⟩ := accounts.ticking timer old ticks
      refine ⟨client', (kept timer old).trans live, (update_of_ne ?_ _ _).trans timer_of⟩
      rintro rfl
      cases idle.symm.trans timer_of
  · intro timer member remains
    exact (kept timer (accounts.known timer member)).trans (accounts.stopping timer member remains)
  · intro client' timer timer_of
    dsimp only at timer_of
    by_cases here : client' = client
    · subst here
      rw [update_self] at timer_of
      obtain rfl := Option.some.inj timer_of
      exact ⟨List.mem_cons_self, fun stopped => unknown (accounts.known _ stopped), update_self _ _ _⟩
    · rw [update_of_ne here] at timer_of
      obtain ⟨old, ticks, live⟩ := accounts.clients client' timer timer_of
      exact ⟨List.mem_cons_of_mem _ old, ticks, (kept timer old).trans live⟩

theorem start (accounts : Accounts s) (client : γ) (futureTime : Timespec) :
    Accounts (s.start client futureTime) := by
  rw [System.start]
  split
  next => exact accounts
  next idle => exact accounts.create idle rfl

/-- The client of a ticking delegate stops it. -/
theorem destroy (accounts : Accounts s) {client : γ} (timer_of : s.mTimer client = some timer) :
    s.stop client = some ({ s with
      mTimer := update s.mTimer client none
      memory := update s.memory timer.addr (some ⟨none, false⟩)
      queue := s.queue ++ [.remove timer]
      stopped := timer :: s.stopped }, true) ∧
    Accounts { s with
      mTimer := update s.mTimer client none
      memory := update s.memory timer.addr (some ⟨none, false⟩)
      queue := s.queue ++ [.remove timer]
      stopped := timer :: s.stopped } := by
  obtain ⟨started, ticks, live⟩ := accounts.clients client timer timer_of
  -- the delegates of the other timers are at other addresses
  have kept : ∀ timer' ∈ s.started, timer' ≠ timer →
      update s.memory timer.addr (some ⟨none, false⟩) timer'.addr = s.memory timer'.addr :=
    fun timer' member other =>
      update_of_ne (fun addr => other (accounts.same member started addr)) _ _
  refine ⟨?_, accounts.wf, accounts.near, accounts.nonzero, ?_, accounts.numbered, ?_, ?_, ?_, ?_,
    accounts.gone, ?_, ?_, ?_, accounts.due, accounts.clock⟩
  · rw [System.stop, timer_of]
    dsimp only
    rw [live]
    rfl
  · rw [pushes_snoc_remove]
    exact accounts.places
  · rw [removes_snoc_remove, ← cons_coe, accounts.stops, cons_add]
  · exact List.nodup_cons.mpr ⟨ticks, accounts.once⟩
  · intro timer' member
    rcases List.mem_cons.mp member with rfl | old
    · exact started
    · exact accounts.known timer' old
  · refine List.pairwise_append.mpr ⟨accounts.inOrder, List.pairwise_singleton _ _, ?_⟩
    intro msg _ later last timer _
    rw [List.mem_singleton.mp last]
    nofun
  · intro timer' member ticks'
    rw [List.mem_cons, not_or] at ticks'
    obtain ⟨client', live', timer_of'⟩ := accounts.ticking timer' member ticks'.2
    refine ⟨client', (kept timer' member ticks'.1).trans live', ?_⟩
    refine (update_of_ne ?_ _ _).trans timer_of'
    rintro rfl
    exact ticks'.1 (Option.some.inj (timer_of'.symm.trans timer_of))
  · intro timer' member remains
    rcases List.mem_cons.mp member with rfl | old
    · exact update_self _ _ _
    · refine (kept timer' (accounts.known timer' old) ?_).trans (accounts.stopping timer' old remains)
      rintro rfl
      exact ticks old
  · intro client' timer' timer_of'
    dsimp only at timer_of'
    by_cases here : client' = client
    · rw [here, update_self] at timer_of'
      cases timer_of'
    · rw [update_of_ne here] at timer_of'
      obtain ⟨started', ticks', live'⟩ := accounts.clients client' timer' timer_of'
      have other : timer' ≠ timer := by
        rintro rfl
        rw [live] at live'
        exact here (by simpa using live'.symm)
      refine ⟨started', ?_, (kept timer' started' other).trans live'⟩
      rw [List.mem_cons, not_or]
      exact ⟨other, ticks'⟩

end Accounts

end LocTimer

end Hima.Gps
