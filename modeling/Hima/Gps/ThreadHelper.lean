import Mathlib.Order.MinMax
import Hima.Lib.Runs

/-!
# The thread helper

A parent that launches a thread and waits for its initialisation, the thread itself, and whoever unblocks it.
A step is a section between a lock and an unlock, a return from the wait, a return from a callback, or one
access to `thread_exit` outside the lock.
-/
namespace Hima.Gps.ThreadHelper

open Runs

/-- Which of the callbacks are not NULL. -/
structure Callbacks where
  threadProcInit : Bool
  threadProcPre : Bool
  threadProc : Bool
  threadProcPost : Bool

/-- Where loc_eng_dmn_conn_launch_thelper is. -/
inductive Launch where
  /-- Before it creates the thread. -/
  | create
  /-- Before thelper_signal_wait. -/
  | wait
  /-- In pthread_cond_wait. -/
  | waiting
  | woken
  /-- Before it reads `thread_exit` to return it. -/
  | leaving
  | returned (result : Int)
  deriving DecidableEq

/-- Where thelper_main is. -/
inductive Child where
  | notCreated
  /-- In thread_proc_init. -/
  | init
  | initFailed
  | signalFailed
  | signalReady
  /-- In thread_proc_pre. -/
  | pre
  | preFailed
  /-- In thread_proc. -/
  | proc
  | procFailed
  | loopTest
  /-- In thread_proc_post. -/
  | post
  | done
  deriving DecidableEq

/-- The helper with both threads. The rest is history: what the callbacks returned, how often thread_proc and
thread_proc_post were called, and how many calls of thread_proc there were when `thread_exit` was first set. -/
structure Thelper where
  threadExit : Bool := false
  threadReady : Bool := false
  launch : Launch := .create
  child : Child := .notCreated
  initResult : Option Int := none
  preResult : Option Int := none
  calls : Nat := 0
  posts : Nat := 0
  exitAt : Option Nat := none

inductive Action where
  /-- The thread is created, or cannot be. -/
  | create (created : Bool)
  | launch
  /-- The wait ends without a signal. -/
  | spurious
  | unblock
  /-- The next step of the thread; `result` is what a callback returns. -/
  | child (result : Int)

variable (given : Callbacks)

namespace Thelper

variable (s : Thelper)

def setExit : Thelper := { s with threadExit := true, exitAt := some (s.exitAt.getD s.calls) }

/-- thelper_signal_ready -/
def signalReady : Thelper :=
  { s with threadReady := true, launch := if s.launch = .waiting then .woken else s.launch }

/-- The thread comes to thread_proc, in the loop or for the first time. -/
def enterLoop : Thelper :=
  if given.threadProc then { s with child := .proc, calls := s.calls + 1 } else { s with child := .loopTest }

def enterPre : Thelper :=
  if given.threadProcPre then { s with child := .pre } else s.enterLoop given

def leaveLoop : Thelper :=
  if given.threadProcPost then { s with child := .post, posts := s.posts + 1 } else { s with child := .done }

/-- thelper_main -/
def childStep (result : Int) : Option Thelper :=
  match s.child with
  | .notCreated => none
  | .init =>
    some { s with
      initResult := some result, child := if result < 0 then .initFailed else .signalReady }
  | .initFailed => some { s.setExit with child := .signalFailed }
  | .signalFailed => some { s.signalReady with child := .done }
  | .signalReady => some (s.signalReady.enterPre given)
  | .pre =>
    let s := { s with preResult := some result }
    some (if result < 0 then { s with child := .preFailed } else s.enterLoop given)
  | .preFailed => some { s.setExit with child := .done }
  | .proc => some { s with child := if result < 0 then .procFailed else .loopTest }
  | .procFailed => some { s.setExit with child := .loopTest }
  | .loopTest => some (if s.threadExit then s.leaveLoop given else s.enterLoop given)
  | .post => some { s with child := .done }
  | .done => none

/-- thelper_signal_wait and the return. -/
def launchStep : Option Thelper :=
  match s.launch with
  | .wait =>
    some { s with launch := if s.threadReady = false ∧ s.threadExit = false then .waiting else .leaving }
  | .woken => some { s with launch := .leaving }
  | .leaving => some { s with launch := .returned (if s.threadExit then 1 else 0) }
  | _ => none

def step (s : Thelper) : Action → Option Thelper
  | .create created =>
    if s.launch = .create then
      some (if created then
          { s with launch := .wait, child := if given.threadProcInit then .init else .signalReady }
        else { s with launch := .returned (-1) })
    else none
  | .launch => s.launchStep
  | .spurious => if s.launch = .waiting then some { s with launch := .woken } else none
  | .unblock => some s.setExit
  | .child result => s.childStep given result

/-! ### The handshake -/

def InitOk : Prop := given.threadProcInit = true → ∃ result, s.initResult = some result ∧ 0 ≤ result

/-- The initialisation and thread_proc_pre have succeeded. -/
def Started : Prop :=
  s.InitOk given ∧ (given.threadProcPre = true → ∃ result, s.preResult = some result ∧ 0 ≤ result)

/-- What is promised of the launch and of the calls. -/
structure Handshake : Prop where
  returned : ∀ result, s.launch = .returned result → s.child ≠ .notCreated →
    (given.threadProcInit = true → s.initResult.isSome) ∧ ∀ init, s.initResult = some init → init < 0 → result ≠ 0
  started : 0 < s.calls → s.Started given
  /-- At most one call where `thread_exit` was set before the first one, else none after the one it was set in. -/
  stops : ∀ n, s.exitAt = some n → s.calls ≤ max n 1
  /-- The loop is not left before `thread_exit` is set. -/
  loops : s.Started given → s.child = .post ∨ s.child = .done →
    ∃ n, s.exitAt = some n ∧ (given.threadProc = true → s.calls = max n 1)
  post : s.posts ≤ 1 ∧ (0 < s.posts → s.Started given ∧ (s.child = .post ∨ s.child = .done))
  postOnce : s.child = .done → (s.posts = 1 ↔ given.threadProcPost = true ∧ s.Started given)

/-! ### Conditions -/

/-- The initialisation is over, and if it failed then `thread_exit` is set. -/
def Settled : Prop :=
  given.threadProcInit = true → s.child ≠ .notCreated ∧ s.child ≠ .init ∧ s.child ≠ .initFailed

/-- The wait does not end by itself before the initialisation is over, and nobody unblocks the thread before
the parent has come to wait for it. -/
def Timely : Action → Prop
  | .spurious => s.Settled given
  | .unblock => s.Settled given ∨ s.launch ≠ .create ∧ s.launch ≠ .wait
  | _ => True

instance : Decidable (s.Settled given) := by unfold Settled; infer_instance

instance (a : Action) : Decidable (s.Timely given a) := by
  cases a <;> unfold Timely <;> infer_instance

/-! ### The invariant -/

def InitFailed : Prop := ∃ result, s.initResult = some result ∧ result < 0

/-- `thread_exit` is set, and thread_proc was not called after that. -/
def Left : Prop := ∃ n, s.exitAt = some n ∧ (given.threadProc = true → s.calls = max n 1)

/-- What the place of the thread says of its history. -/
def At : Child → Prop
  | .notCreated => s.calls = 0 ∧ s.posts = 0
  | .init => given.threadProcInit = true ∧ s.calls = 0 ∧ s.posts = 0
  | .initFailed => given.threadProcInit = true ∧ s.InitFailed ∧ s.calls = 0 ∧ s.posts = 0
  | .signalFailed =>
    given.threadProcInit = true ∧ s.InitFailed ∧ s.threadExit = true ∧ s.calls = 0 ∧ s.posts = 0
  | .signalReady => s.InitOk given ∧ s.calls = 0 ∧ s.posts = 0
  | .pre => s.InitOk given ∧ given.threadProcPre = true ∧ s.calls = 0 ∧ s.posts = 0
  | .preFailed =>
    s.InitOk given ∧ ¬ s.Started given ∧ s.calls = 0 ∧ s.posts = 0
  | .proc => s.Started given ∧ 0 < s.calls ∧ s.posts = 0
  | .procFailed => s.Started given ∧ 0 < s.calls ∧ s.posts = 0
  | .loopTest => s.Started given ∧ (given.threadProc = true → 0 < s.calls) ∧ s.posts = 0
  | .post => s.Started given ∧ s.Left given ∧ given.threadProcPost = true ∧ s.posts = 1
  | .done =>
    (given.threadProcInit = true → s.initResult.isSome) ∧ (s.InitFailed → s.threadExit = true) ∧
      (¬ s.Started given ∧ s.calls = 0 ∧ s.posts = 0 ∨
        s.Started given ∧ s.Left given ∧ s.posts = if given.threadProcPost then 1 else 0)

/-- Beside the places of the two threads: the parent leaves the wait only after the initialisation. -/
structure Inv : Prop where
  noInit : given.threadProcInit = false → s.initResult = none
  exitAt : s.threadExit = s.exitAt.isSome
  calls : ∀ n, s.exitAt = some n → n ≤ s.calls ∧ s.calls ≤ max n 1
  child : s.At given s.child
  fresh : s.launch = .create → s.child = .notCreated
  early : s.launch = .create ∨ s.launch = .wait → s.threadExit = true → s.Settled given
  ready : s.threadReady = true → s.Settled given
  left : s.launch = .woken ∨ s.launch = .leaving → s.Settled given
  returned : ∀ result, s.launch = .returned result → s.child ≠ .notCreated →
    s.Settled given ∧ (s.InitFailed → result ≠ 0)

variable {given} {s} {s' : Thelper}

theorem InitOk.not_failed (ok : s.InitOk given) (noInit : given.threadProcInit = false → s.initResult = none) :
    ¬ s.InitFailed := by
  rintro ⟨result, returned, negative⟩
  cases initialises : given.threadProcInit with
  | false => cases (noInit initialises).symm.trans returned
  | true =>
    obtain ⟨other, returned', nonneg⟩ := ok initialises
    obtain rfl := Option.some.inj (returned.symm.trans returned')
    omega

theorem InitFailed.not_started (failed : s.InitFailed) (given_ : given.threadProcInit = true) :
    ¬ s.Started given := by
  rintro ⟨ok, -⟩
  obtain ⟨result, returned, negative⟩ := failed
  obtain ⟨other, returned', nonneg⟩ := ok given_
  obtain rfl := Option.some.inj (returned.symm.trans returned')
  omega

theorem InitOk.isSome (ok : s.InitOk given) (initialises : given.threadProcInit = true) : s.initResult.isSome := by
  obtain ⟨result, returned, -⟩ := ok initialises
  rw [returned]
  rfl

/-- Once the initialisation is settled it has returned, and its failure shows in `thread_exit`. -/
theorem Inv.settled (h : s.Inv given) (settled : s.Settled given) (created : s.child ≠ .notCreated) :
    (given.threadProcInit = true → s.initResult.isSome) ∧ (s.InitFailed → s.threadExit = true) := by
  cases initialises : given.threadProcInit with
  | false =>
    refine ⟨nofun, ?_⟩
    rintro ⟨result, returned, -⟩
    cases (h.noInit initialises).symm.trans returned
  | true =>
    obtain ⟨-, notInit, notFailed⟩ := settled initialises
    have ofOk : s.InitOk given → (true = true → s.initResult.isSome) ∧ (s.InitFailed → s.threadExit = true) :=
      fun ok => ⟨fun _ => ok.isSome initialises, fun failed => absurd failed (ok.not_failed h.noInit)⟩
    have place := h.child
    cases here : s.child with
    | notCreated => exact absurd here created
    | init => exact absurd here notInit
    | initFailed => exact absurd here notFailed
    | signalFailed =>
      rw [here] at place
      obtain ⟨-, ⟨result, returned, -⟩, exit, -⟩ := place
      exact ⟨fun _ => by rw [returned]; rfl, fun _ => exit⟩
    | signalReady | pre | preFailed =>
      rw [here] at place
      exact ofOk place.1
    | proc | procFailed | loopTest | post =>
      rw [here] at place
      exact ofOk place.1.1
    | done =>
      rw [here] at place
      exact ⟨fun _ => place.1 initialises, place.2.1⟩

theorem At.called {place : Child} (at_ : s.At given place) :
    s.calls = 0 ∧ s.posts = 0 ∨
      s.Started given ∧ s.posts ≤ 1 ∧ (0 < s.posts → place = .post ∨ place = .done) := by
  cases place with
  | notCreated => exact .inl at_
  | init | signalReady => exact .inl at_.2
  | initFailed | pre | preFailed => exact .inl at_.2.2
  | signalFailed => exact .inl at_.2.2.2
  | proc | procFailed | loopTest =>
    obtain ⟨started, -, none_yet⟩ := at_
    exact .inr ⟨started, by omega, by omega⟩
  | post =>
    obtain ⟨started, -, -, one⟩ := at_
    exact .inr ⟨started, by omega, fun _ => .inl rfl⟩
  | done =>
    obtain ⟨-, -, ⟨-, nothing⟩ | ⟨started, -, posts⟩⟩ := at_
    · exact .inl nothing
    · refine .inr ⟨started, ?_, fun _ => .inr rfl⟩
      split at posts <;> omega

theorem Inv.handshake (h : s.Inv given) : s.Handshake given where
  returned := by
    intro result returned created
    obtain ⟨settled, nonzero⟩ := h.returned result returned created
    exact ⟨(h.settled settled created).1, fun init failed negative => nonzero ⟨init, failed, negative⟩⟩
  started := by
    intro some_call
    rcases h.child.called with ⟨none_yet, -⟩ | ⟨started, -⟩
    · exact absurd none_yet some_call.ne'
    · exact started
  stops := fun n set => (h.calls n set).2
  loops := by
    intro started outside
    have place := h.child
    rcases outside with here | here
    · rw [here] at place
      exact place.2.1
    · rw [here] at place
      obtain ⟨-, -, ⟨not_started, -⟩ | ⟨-, left, -⟩⟩ := place
      · exact absurd started not_started
      · exact left
  post := by
    rcases h.child.called with ⟨-, none_yet⟩ | ⟨started, le_one, outside⟩
    · exact ⟨by omega, by omega⟩
    · exact ⟨le_one, fun some_post => ⟨started, outside some_post⟩⟩
  postOnce := by
    intro here
    have place := h.child
    rw [here] at place
    obtain ⟨-, -, ⟨not_started, -, none_yet⟩ | ⟨started, -, posts⟩⟩ := place
    · rw [none_yet]
      exact iff_of_false nofun fun both => not_started both.2
    · rw [posts, and_iff_left started]
      split
      next is_given => exact iff_of_true rfl is_given
      next not_given => exact iff_of_false nofun not_given

/-! ### Steps -/

theorem inv_start : ({} : Thelper).Inv given where
  noInit := fun _ => rfl
  exitAt := rfl
  calls := nofun
  child := ⟨rfl, rfl⟩
  fresh := fun _ => rfl
  early := fun _ => nofun
  ready := nofun
  left := by
    rintro (woken | leaving)
    · cases woken
    · cases leaving
  returned := nofun

theorem Inv.setLaunch (h : s.Inv given) {launch : Launch} (created : launch ≠ .create)
    (early : launch = .wait → s.threadExit = true → s.Settled given)
    (left : launch = .woken ∨ launch = .leaving → s.Settled given)
    (returned : ∀ result, launch = .returned result → s.child ≠ .notCreated →
      s.Settled given ∧ (s.InitFailed → result ≠ 0)) : { s with launch := launch }.Inv given where
  noInit := h.noInit
  exitAt := h.exitAt
  calls := h.calls
  child := h.child
  fresh := fun create => absurd create created
  early := fun before => early (before.resolve_left created)
  ready := h.ready
  left := left
  returned := returned

theorem Inv.launch (h : s.Inv given) (stepped : s.launchStep = some s') : s'.Inv given := by
  rw [launchStep] at stepped
  split at stepped
  next here =>
    obtain rfl := Option.some.inj stepped
    split
    next => exact h.setLaunch nofun nofun (by rintro (woken | leaving) <;> contradiction) nofun
    next set =>
      -- either of the flags says that the initialisation is over
      refine h.setLaunch nofun nofun (fun _ => ?_) nofun
      by_cases ready : s.threadReady = true
      · exact h.ready ready
      · have exit : s.threadExit = true := by simpa [ready] using set
        exact h.early (.inr here) exit
  next here =>
    obtain rfl := Option.some.inj stepped
    exact h.setLaunch nofun nofun (fun _ => h.left (.inl here)) nofun
  next here =>
    obtain rfl := Option.some.inj stepped
    refine h.setLaunch nofun nofun (by rintro (woken | leaving) <;> contradiction) ?_
    rintro result returned created
    have settled := h.left (.inr here)
    refine ⟨settled, fun failed => ?_⟩
    rw [(h.settled settled created).2 failed] at returned
    cases returned
    decide
  next => cases stepped

theorem At.setExit {place : Child} (at_ : s.At given place) : s.setExit.At given place := by
  have left : s.Left given → s.setExit.Left given := by
    rintro ⟨n, set, last⟩
    exact ⟨n, by rw [Thelper.setExit, set]; rfl, last⟩
  cases place with
  | signalFailed => exact ⟨at_.1, at_.2.1, rfl, at_.2.2.2⟩
  | post => exact ⟨at_.1, left at_.2.1, at_.2.2⟩
  | done =>
    refine ⟨at_.1, fun _ => rfl, at_.2.2.imp_right ?_⟩
    rintro ⟨started, before, posts⟩
    exact ⟨started, left before, posts⟩
  | _ => exact at_

theorem Inv.setExit_calls (h : s.Inv given) {n : Nat} (set : s.setExit.exitAt = some n) :
    n ≤ s.calls ∧ s.calls ≤ max n 1 := by
  obtain rfl : s.exitAt.getD s.calls = n := Option.some.inj set
  cases before : s.exitAt with
  | none => exact ⟨le_refl _, le_max_left _ _⟩
  | some n => exact h.calls n before

theorem Inv.unblock (h : s.Inv given) (timely : s.Timely given .unblock) : s.setExit.Inv given where
  noInit := h.noInit
  exitAt := rfl
  calls := fun _ set => h.setExit_calls set
  child := h.child.setExit
  fresh := h.fresh
  early := by
    rintro before -
    rcases timely with settled | ⟨notCreate, notWait⟩
    · exact settled
    · exact absurd before (not_or.mpr ⟨notCreate, notWait⟩)
  ready := h.ready
  left := h.left
  returned := h.returned

theorem not_settled {place : Child} (initialises : given.threadProcInit = true) (here : s.child = place)
    (before : place = .notCreated ∨ place = .init ∨ place = .initFailed) : ¬ s.Settled given := by
  intro settled
  obtain ⟨notCreated, notInit, notFailed⟩ := settled initialises
  rcases before with rfl | rfl | rfl
  · exact notCreated here
  · exact notInit here
  · exact notFailed here

theorem Inv.create (h : s.Inv given) {created : Bool} (stepped : s.step given (.create created) = some s') :
    s'.Inv given := by
  rw [step] at stepped
  split at stepped
  next here =>
    obtain rfl := Option.some.inj stepped
    have fresh := h.fresh here
    have place := h.child
    rw [fresh] at place
    split
    next =>
      -- the thread begins with its initialisation, if it has one
      cases initialises : given.threadProcInit with
      | true =>
        have unsettled := not_settled initialises fresh (.inl rfl)
        exact
          { noInit := fun without => nomatch initialises.symm.trans without
            exitAt := h.exitAt
            calls := h.calls
            child := ⟨initialises, place⟩
            fresh := nofun
            early := fun _ exit => absurd (h.early (.inl here) exit) unsettled
            ready := fun ready => absurd (h.ready ready) unsettled
            left := by rintro (woken | leaving) <;> contradiction
            returned := nofun }
      | false =>
        have settled : ∀ s : Thelper, s.Settled given := fun _ given_ => nomatch initialises.symm.trans given_
        exact
          { noInit := h.noInit
            exitAt := h.exitAt
            calls := h.calls
            child := ⟨fun given_ => absurd (initialises.symm.trans given_) nofun, place⟩
            fresh := nofun
            early := fun _ _ => settled _
            ready := fun _ => settled _
            left := fun _ => settled _
            returned := nofun }
    next =>
      refine h.setLaunch nofun nofun ?_ fun _ _ made => absurd fresh made
      rintro (woken | leaving) <;> contradiction
  next => cases stepped

theorem Inv.advance (h : s.Inv given) (created : s.child ≠ .notCreated)
    (launch : s'.launch = s.launch ∨ s.launch = .waiting ∧ s'.launch = .woken)
    (failed : s'.InitFailed → s.InitFailed) (noInit : given.threadProcInit = false → s'.initResult = none)
    (exitAt : s'.threadExit = s'.exitAt.isSome)
    (calls : ∀ n, s'.exitAt = some n → n ≤ s'.calls ∧ s'.calls ≤ max n 1) (place : s'.At given s'.child)
    (past : s'.child ≠ .notCreated ∧ s'.child ≠ .init ∧ s'.child ≠ .initFailed) : s'.Inv given where
  noInit := noInit
  exitAt := exitAt
  calls := calls
  child := place
  fresh := by
    intro create
    rcases launch with same | ⟨-, woken⟩
    · exact absurd (h.fresh (same.symm.trans create)) created
    · cases woken.symm.trans create
  early := fun _ _ _ => past
  ready := fun _ _ => past
  left := fun _ _ => past
  returned := by
    intro result returned _
    refine ⟨fun _ => past, fun failed' => ?_⟩
    rcases launch with same | ⟨-, woken⟩
    · exact (h.returned result (same.symm.trans returned) created).2 (failed failed')
    · cases woken.symm.trans returned

theorem Inv.moveChild (h : s.Inv given) (created : s.child ≠ .notCreated) {child : Child} (place : s.At given child)
    (past : child ≠ .notCreated ∧ child ≠ .init ∧ child ≠ .initFailed) : { s with child := child }.Inv given :=
  h.advance created (.inl rfl) id h.noInit h.exitAt h.calls place past

theorem signalReady_launch : s.signalReady.launch = s.launch ∨ s.launch = .waiting ∧ s.signalReady.launch = .woken := by
  rw [signalReady]
  split
  next waiting => exact .inr ⟨waiting, rfl⟩
  next => exact .inl rfl

/-- The next call of thread_proc is the first one, or `thread_exit` is not set. -/
theorem enterLoop_calls (calls : ∀ n, s.exitAt = some n → n ≤ s.calls ∧ s.calls ≤ max n 1)
    (again : s.calls = 0 ∨ s.exitAt = none) :
    ∀ n, (s.enterLoop given).exitAt = some n →
      n ≤ (s.enterLoop given).calls ∧ (s.enterLoop given).calls ≤ max n 1 := by
  rw [enterLoop]
  split
  next =>
    intro n set
    have set' : s.exitAt = some n := set
    rcases again with first | unset
    · have before := (calls n set').1
      have one : s.calls + 1 = 1 := by omega
      rw [one]
      exact ⟨by omega, le_max_right _ _⟩
    · cases unset.symm.trans set'
  next => exact calls

theorem enterLoop_at (started : s.Started given) (none_yet : s.posts = 0) :
    (s.enterLoop given).At given (s.enterLoop given).child := by
  rw [enterLoop]
  split
  next => exact ⟨started, Nat.succ_pos _, none_yet⟩
  next not_given => exact ⟨started, fun is_given => absurd is_given not_given, none_yet⟩

theorem enterLoop_frame (s : Thelper) : (s.enterLoop given).launch = s.launch ∧
    (s.enterLoop given).initResult = s.initResult ∧ (s.enterLoop given).threadExit = s.threadExit ∧
    (s.enterLoop given).exitAt = s.exitAt ∧ (s.enterLoop given).child ≠ .notCreated ∧
    (s.enterLoop given).child ≠ .init ∧ (s.enterLoop given).child ≠ .initFailed := by
  rw [enterLoop]
  split <;> exact ⟨rfl, rfl, rfl, rfl, nofun, nofun, nofun⟩

/-- From the places before the loop, and from its end, the thread enters it. -/
theorem Inv.enterLoop (h : s.Inv given) {s₁ : Thelper} (created : s.child ≠ .notCreated)
    (launch : s₁.launch = s.launch ∨ s.launch = .waiting ∧ s₁.launch = .woken)
    (same : s₁.initResult = s.initResult ∧ s₁.threadExit = s.threadExit ∧ s₁.exitAt = s.exitAt ∧
      s₁.calls = s.calls)
    (started : s₁.Started given) (none_yet : s₁.posts = 0) (again : s.calls = 0 ∨ s.exitAt = none) :
    (s₁.enterLoop given).Inv given := by
  obtain ⟨launch', initResult, threadExit, exitAt, past⟩ := @enterLoop_frame given s₁
  obtain ⟨initResult', threadExit', exitAt', calls'⟩ := same
  refine h.advance created ?_ ?_ ?_ ?_ ?_ (enterLoop_at started none_yet) past
  · rwa [launch']
  · rintro ⟨result, returned, negative⟩
    exact ⟨result, by rw [← returned, initResult, initResult'], negative⟩
  · intro without
    rw [initResult, initResult']
    exact h.noInit without
  · rw [threadExit, exitAt, threadExit', exitAt']
    exact h.exitAt
  · apply enterLoop_calls
    · rw [exitAt', calls']
      exact h.calls
    · rw [exitAt', calls']
      exact again

/-- One step of the thread, from each of its places. -/
theorem Inv.childStep (h : s.Inv given) {result : Int} (stepped : s.childStep given result = some s') :
    s'.Inv given := by
  have place := h.child
  rw [Thelper.childStep] at stepped
  cases here : s.child with
  | notCreated =>
    rw [here] at stepped
    cases stepped
  | init =>
    rw [here] at stepped place
    obtain rfl := Option.some.inj stepped
    obtain ⟨initialises, nothing⟩ := place
    have unsettled := not_settled initialises here (.inr (.inl rfl))
    split
    next negative =>
      -- the parent still waits, or has yet to come to it
      exact
        { noInit := fun without => absurd (without.symm.trans initialises) nofun
          exitAt := h.exitAt
          calls := h.calls
          child := ⟨initialises, ⟨result, rfl, negative⟩, nothing⟩
          fresh := fun create => absurd (here.symm.trans (h.fresh create)) nofun
          early := fun before exit => absurd (h.early before exit) unsettled
          ready := fun ready => absurd (h.ready ready) unsettled
          left := fun left => absurd (h.left left) unsettled
          returned := fun _ returned _ => absurd (h.returned _ returned (by rw [here]; nofun)).1 unsettled }
    next nonneg =>
      have ok : ∃ other, some result = some other ∧ 0 ≤ other := ⟨result, rfl, not_lt.mp nonneg⟩
      refine h.advance (by rw [here]; nofun) (.inl rfl) ?_
        (fun without => absurd (without.symm.trans initialises) nofun) h.exitAt h.calls
        ⟨fun _ => ok, nothing⟩ ⟨nofun, nofun, nofun⟩
      rintro ⟨other, returned, negative⟩
      obtain rfl := Option.some.inj returned
      exact absurd negative nonneg
  | initFailed =>
    rw [here] at stepped place
    obtain rfl := Option.some.inj stepped
    obtain ⟨initialises, failed, nothing⟩ := place
    exact h.advance (by rw [here]; nofun) (.inl rfl) id h.noInit rfl (fun _ set => h.setExit_calls set)
      ⟨initialises, failed, rfl, nothing⟩ ⟨nofun, nofun, nofun⟩
  | signalFailed =>
    rw [here] at stepped place
    obtain rfl := Option.some.inj stepped
    obtain ⟨initialises, failed, exit, nothing⟩ := place
    have returned : s.initResult.isSome := by
      obtain ⟨result, returned, -⟩ := failed
      rw [returned]
      rfl
    exact h.advance (by rw [here]; nofun) signalReady_launch id h.noInit h.exitAt h.calls
      ⟨fun _ => returned, fun _ => exit, .inl ⟨failed.not_started initialises, nothing⟩⟩ ⟨nofun, nofun, nofun⟩
  | signalReady =>
    rw [here] at stepped place
    obtain rfl := Option.some.inj stepped
    obtain ⟨ok, nothing⟩ := place
    rw [enterPre]
    split
    next is_given =>
      exact h.advance (by rw [here]; nofun) signalReady_launch id h.noInit h.exitAt h.calls
        ⟨ok, is_given, nothing⟩ ⟨nofun, nofun, nofun⟩
    next not_given =>
      exact h.enterLoop (by rw [here]; nofun) signalReady_launch ⟨rfl, rfl, rfl, rfl⟩
        ⟨ok, fun is_given => absurd is_given not_given⟩ nothing.2 (.inl nothing.1)
  | pre =>
    rw [here] at stepped place
    obtain rfl := Option.some.inj stepped
    obtain ⟨ok, is_given, nothing⟩ := place
    split
    next negative =>
      refine h.advance (by rw [here]; nofun) (.inl rfl) id h.noInit h.exitAt h.calls
        ⟨ok, ?_, nothing⟩ ⟨nofun, nofun, nofun⟩
      -- what thread_proc_pre returned is on record, and negative
      rintro ⟨-, pre⟩
      obtain ⟨other, returned, nonneg⟩ := pre is_given
      obtain rfl := Option.some.inj returned
      omega
    next nonneg =>
      exact h.enterLoop (by rw [here]; nofun) (.inl rfl) ⟨rfl, rfl, rfl, rfl⟩
        ⟨ok, fun _ => ⟨result, rfl, not_lt.mp nonneg⟩⟩ nothing.2 (.inl nothing.1)
  | preFailed =>
    rw [here] at stepped place
    obtain rfl := Option.some.inj stepped
    obtain ⟨ok, not_started, nothing⟩ := place
    exact h.advance (by rw [here]; nofun) (.inl rfl) id h.noInit rfl (fun _ set => h.setExit_calls set)
      ⟨ok.isSome, fun _ => rfl, .inl ⟨not_started, nothing⟩⟩ ⟨nofun, nofun, nofun⟩
  | proc =>
    rw [here] at stepped place
    obtain rfl := Option.some.inj stepped
    obtain ⟨started, called, none_yet⟩ := place
    split
    next => exact h.moveChild (by rw [here]; nofun) ⟨started, called, none_yet⟩ ⟨nofun, nofun, nofun⟩
    next => exact h.moveChild (by rw [here]; nofun) ⟨started, fun _ => called, none_yet⟩ ⟨nofun, nofun, nofun⟩
  | procFailed =>
    rw [here] at stepped place
    obtain rfl := Option.some.inj stepped
    obtain ⟨started, called, none_yet⟩ := place
    exact h.advance (by rw [here]; nofun) (.inl rfl) id h.noInit rfl (fun _ set => h.setExit_calls set)
      ⟨started, fun _ => called, none_yet⟩ ⟨nofun, nofun, nofun⟩
  | loopTest =>
    rw [here] at stepped place
    obtain rfl := Option.some.inj stepped
    obtain ⟨started, called, none_yet⟩ := place
    split
    next exit =>
      -- the call in which `thread_exit` was set is the last one, or the first
      have left : s.Left given := by
        obtain ⟨n, set⟩ := Option.isSome_iff_exists.mp (h.exitAt ▸ exit)
        obtain ⟨le, bound⟩ := h.calls n set
        refine ⟨n, set, fun is_given => le_antisymm bound ?_⟩
        exact max_le le (called is_given)
      rw [leaveLoop]
      split
      next is_given =>
        exact h.advance (by rw [here]; nofun) (.inl rfl) id h.noInit h.exitAt h.calls
          ⟨started, left, is_given, by rw [none_yet]⟩ ⟨nofun, nofun, nofun⟩
      next not_given =>
        exact h.moveChild (by rw [here]; nofun)
          ⟨started.1.isSome, fun _ => exit, .inr ⟨started, left, by rw [none_yet, if_neg not_given]⟩⟩
          ⟨nofun, nofun, nofun⟩
    next unset =>
      have never : s.exitAt = none := by
        rw [h.exitAt] at unset
        exact Option.not_isSome_iff_eq_none.mp unset
      exact h.enterLoop (by rw [here]; nofun) (.inl rfl) ⟨rfl, rfl, rfl, rfl⟩ started none_yet (.inr never)
  | post =>
    rw [here] at stepped place
    obtain rfl := Option.some.inj stepped
    obtain ⟨started, left, is_given, one⟩ := place
    have exit : s.threadExit = true := by
      obtain ⟨n, set, -⟩ := left
      rw [h.exitAt, set]
      rfl
    exact h.moveChild (by rw [here]; nofun)
      ⟨started.1.isSome, fun _ => exit, .inr ⟨started, left, by rw [one, if_pos is_given]⟩⟩
      ⟨nofun, nofun, nofun⟩
  | done =>
    rw [here] at stepped
    cases stepped

theorem Inv.step (h : s.Inv given) {a : Action} (timely : s.Timely given a) (stepped : s.step given a = some s') :
    s'.Inv given := by
  cases a with
  | create created => exact h.create stepped
  | launch => exact h.launch stepped
  | spurious =>
    rw [Thelper.step] at stepped
    split at stepped
    · obtain rfl := Option.some.inj stepped
      exact h.setLaunch nofun nofun (fun _ => timely) nofun
    · cases stepped
  | unblock =>
    obtain rfl := Option.some.inj stepped
    exact h.unblock timely
  | child result => exact h.childStep stepped

/-! ### Runs -/

/-- The handshake holds in every order of the steps in which no wait ends by itself and nobody unblocks the
thread before the initialisation is settled. -/
theorem handshake_holds (given : Callbacks) {as : List Action} {s : Thelper}
    (run : Run (step given) (Timely given) {} as s) : s.Handshake given := by
  have inv : s.Inv given := run.invariant (Inv given)
    (fun _ _ _ h timely stepped => h.step timely stepped) inv_start
  exact inv.handshake

def allCallbacks : Callbacks := ⟨true, true, true, true⟩

/-- The thread is unblocked in its second call of thread_proc. -/
theorem handshake_holds_sample :
    ∃ s : Thelper, s.launch = .returned 0 ∧ s.child = .done ∧ s.calls = 2 ∧ s.Handshake allCallbacks := by
  obtain ⟨s, run, launch, child, calls⟩ : ∃ s, Run (step allCallbacks) (Timely allCallbacks) {}
      [.create true, .launch, .child 0, .child 0, .launch, .launch, .child 0, .child 0, .child 0, .unblock,
        .child 0, .child 0, .child 0] s ∧ s.launch = .returned 0 ∧ s.child = .done ∧ s.calls = 2 :=
    ⟨_, .of_checked rfl, rfl, rfl, rfl⟩
  exact ⟨s, launch, child, calls, handshake_holds allCallbacks run⟩

/-- The wait ends by itself, the launch returns 0, and only then the initialisation fails. -/
theorem launch_too_early :
    ¬ ∀ (given : Callbacks) (as : List Action) (s : Thelper),
      Run (step given) (fun _ _ => True) {} as s → s.Handshake given := by
  intro all
  obtain ⟨s, run, launch, child, initResult⟩ : ∃ s, Run (step allCallbacks) (fun _ _ => True) {}
      [.create true, .launch, .spurious, .launch, .launch, .child (-1)] s ∧
      s.launch = .returned 0 ∧ s.child = .initFailed ∧ s.initResult = some (-1) :=
    ⟨_, .of_checked rfl, rfl, rfl, rfl⟩
  have nonzero := ((all _ _ s run).returned 0 launch (by rw [child]; nofun)).2 (-1) initResult (by decide)
  exact nonzero rfl

end Thelper

end Hima.Gps.ThreadHelper
