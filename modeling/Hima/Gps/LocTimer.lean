import Hima.Gps.LocHeap

/-!
# LocTimer

One `LocTimerContainer`, the clients that share it, the thread of the message task and the thread
that polls the timerfd. `MsgTimerPush`, `MsgTimerRemove` and one round of the loop of
`MsgTimerExpire` are steps; so is `expire()` of the polling thread, which comes some time after
`epoll_wait` has returned. Clients start and stop timers between any two steps, also from within
their callbacks.
-/
namespace Hima.Gps

/-- A normalized time of `CLOCK_BOOTTIME`. -/
structure Timespec where
  tv_sec : Nat
  tv_nsec : Fin 1000000000
  deriving DecidableEq, Repr

def Timespec.ns (t : Timespec) : Nat := t.tv_sec * 1000000000 + t.tv_nsec

/-- A pointer to a `LocTimerDelegate`, with the member that never changes. -/
structure LocTimerDelegate where
  addr : Nat
  mFutureTime : Timespec
  deriving DecidableEq, Repr

/-- `ranks`. Larger time ranks lower; `rank` is an `int`. -/
def LocTimerDelegate.ranks (this timer : LocTimerDelegate) : Int :=
  let rank := ((timer.mFutureTime.tv_sec : Int) - this.mFutureTime.tv_sec).bmod (2 ^ 32)
  if rank = 0 then (timer.mFutureTime.tv_nsec : Int) - this.mFutureTime.tv_nsec else rank

namespace LocTimer

open LocTimerDelegate

variable {γ : Type} [DecidableEq γ]

/-- The members of a delegate that change. -/
structure Members (γ : Type) where
  mClient : Option γ
  /-- `mContainer` is not `NULL`. -/
  mContainer : Bool

inductive Msg
  | push (timer : LocTimerDelegate)
  | remove (timer : LocTimerDelegate)
  | expire
  deriving DecidableEq

structure System (γ : Type) where
  now : Timespec
  heap : LocHeap LocTimerDelegate := {}
  /-- The queue of the message task. -/
  queue : List Msg := []
  /-- The time that the timerfd is armed for. -/
  devFd : Option Timespec := none
  /-- The timerfd is in the epoll set. -/
  polled : Bool := false
  /-- `epoll_wait` has returned the timerfd and `expire()` is to be called. -/
  woken : Bool := false
  /-- `timerOfNow`, while the message task is in the loop of `MsgTimerExpire`. -/
  expiring : Option Timespec := none
  /-- The delegates that are not deleted. -/
  memory : Nat → Option (Members γ) := fun _ => none
  /-- `mTimer` of a client. -/
  mTimer : γ → Option LocTimerDelegate := fun _ => none
  /-- History: the delegates that were created, popped by `MsgTimerExpire` (and when), taken out of
  the heap by `MsgTimerRemove`, stopped, and deleted. -/
  started : List LocTimerDelegate := []
  popped : List (LocTimerDelegate × Timespec) := []
  dropped : List LocTimerDelegate := []
  stopped : List LocTimerDelegate := []
  deleted : List LocTimerDelegate := []

namespace System

variable (s : System γ)

/-- `timerfd_settime`. A zero disarms the timer. -/
def settime (value : Timespec) : System γ :=
  { s with devFd := if value.ns = 0 then none else some value }

def updateSoonestTime (priorTop : Option LocTimerDelegate) : System γ :=
  let curTop := s.heap.peek
  if curTop ≠ priorTop then
    match curTop with
    | none => { s with polled := false, devFd := none }
    | some curTop =>
      if priorTop.all fun priorTop => outRanks ranks curTop priorTop then
        { s with polled := true }.settime curTop.mFutureTime
      else s
  else s

/-- `LocTimer::start` with the time it computes. -/
def start (client : γ) (futureTime : Timespec) : System γ :=
  match s.mTimer client with
  | some _ => s
  | none =>
    let timer : LocTimerDelegate := ⟨s.started.length, futureTime⟩
    { s with
      memory := Function.update s.memory timer.addr (some ⟨some client, true⟩)
      mTimer := Function.update s.mTimer client (some timer)
      queue := s.queue ++ [.push timer]
      started := timer :: s.started }

/-- `LocTimer::stop`, with `destroyLocked` in it. -/
def stop (client : γ) : Option (System γ × Bool) :=
  match s.mTimer client with
  | none => some (s, false)
  | some timer =>
    (s.memory timer.addr).map fun members =>
      ({ s with
        mTimer := Function.update s.mTimer client none
        memory := Function.update s.memory timer.addr (some ⟨none, false⟩)
        queue := if members.mContainer then s.queue ++ [.remove timer] else s.queue
        stopped := if members.mContainer then timer :: s.stopped else s.stopped }, true)

/-- `LocTimerDelegate::expire` of a timer that was popped. -/
def expireTimer (timer : LocTimerDelegate) : Option (System γ) :=
  let s := { s with popped := (timer, s.now) :: s.popped }
  match s.memory timer.addr with
  | none => none
  | some members =>
    match members.mClient with
    | none => some s
    | some client => (s.stop client).map (·.1)

def procPush (timer : LocTimerDelegate) : System γ :=
  let priorTop := s.heap.peek
  { s with heap := s.heap.push ranks timer }.updateSoonestTime priorTop

def procRemove (timer : LocTimerDelegate) : System γ :=
  let priorTop := s.heap.peek
  let removed := s.heap.remove ranks timer
  let s := { s with heap := removed.1, dropped := removed.2.toList ++ s.dropped }
  let s := if priorTop = removed.2 then s.updateSoonestTime none else s
  { s with memory := Function.update s.memory timer.addr none, deleted := timer :: s.deleted }

/-- `MsgTimerExpire` up to the end of the first round. -/
def procExpire : Option (System γ) :=
  match s.heap.pop ranks with
  | (_, none) => some (s.updateSoonestTime none)
  | (heap, some timer) => { s with heap, expiring := some s.now }.expireTimer timer

/-- `popIfOutRanks`: the heap and what was popped. -/
def popIfOutRanks (timer : LocTimerDelegate) : LocHeap LocTimerDelegate × Option LocTimerDelegate :=
  match s.heap.peek with
  | none => (s.heap, none)
  | some top => if !outRanks ranks timer top then s.heap.pop ranks else (s.heap, none)

/-- Another round of the loop with `timerOfNow`, or its end. -/
def procLoop (now : Timespec) : Option (System γ) :=
  match s.popIfOutRanks ⟨0, now⟩ with
  | (_, none) => some ({ s with expiring := none }.updateSoonestTime none)
  | (heap, some timer) => { s with heap }.expireTimer timer

/-- What the thread of the message task does next. -/
def proc : Option (System γ) :=
  match s.expiring with
  | some now => s.procLoop now
  | none =>
    match s.queue with
    | [] => none
    | .push timer :: queue => some ({ s with queue }.procPush timer)
    | .remove timer :: queue => some ({ s with queue }.procRemove timer)
    | .expire :: queue => { s with queue }.procExpire

end System

inductive Event (γ : Type)
  | start (client : γ) (futureTime : Timespec)
  | stop (client : γ)
  | tick (now : Timespec)
  | wake
  | expire
  | proc

namespace System

def step (s : System γ) : Event γ → Option (System γ)
  | .start client futureTime => some (s.start client futureTime)
  | .stop client => (s.stop client).map (·.1)
  | .tick now => if s.now.ns ≤ now.ns then some { s with now } else none
  | .wake =>
    if s.polled ∧ !s.woken ∧ s.devFd.any (·.ns ≤ s.now.ns) then some { s with woken := true } else none
  | .expire =>
    if s.woken then
      some { s with woken := false, devFd := none, polled := false, queue := s.queue ++ [.expire] }
    else none
  | .proc => s.proc

end System

end LocTimer

end Hima.Gps
