import Hima.Gps.LocEngNi
import Hima.Lib.Runs
import Mathlib.Algebra.Order.Group.Multiset
import Mathlib.Tactic.Abel

/-!
# Answers to the network's requests

Each accepted request is answered once and with its own response, if no act on a session comes late:
after the thread it is meant for has gone through its section under the lock, or while a thread of
an earlier request has not ended.
-/
namespace Hima.Gps.LocEngNi

open Runs

variable {α : Type}

/-- The request in a message that a thread has not sent yet. -/
def Thread.unsent : Thread α → List (RawRequest α)
  | .running _ _ => []
  | .leaving msg => msg.toList.map (·.mPayload)

/-- The requests that a session and its threads hold. -/
def Session.held (s : Session α) : Multiset (RawRequest α) :=
  ↑s.rawRequest.toList + ↑(s.threads.flatMap Thread.unsent)

theorem Session.held_cleared (s : Session α) :
    s.held = Session.held { s with rawRequest := none } + ↑s.rawRequest.toList := by
  rw [Session.held, Session.held, Option.toList_none, Multiset.coe_nil]
  abel

/-- A message has the response that was asked for its request, or tells of a time-out. -/
def Proper (asked : RawRequest α → GpsUserResponseType → Prop) (msg : LocEngInformNiResponse α) :
    Prop :=
  msg.timedOut ∧ msg.mResponse = .NORESP ∨ asked msg.mPayload msg.mResponse ∧ msg.mResponse ≠ .IGNORE

/-- A session serves one request at a time: its thread waits for the response, or it waits only to
end since the request was withdrawn, or it is behind the wait. -/
inductive Serving (asked : RawRequest α → GpsUserResponseType → Prop) (s : Session α) : Prop
  | idle : s.threads = [] → s.rawRequest = none → s.respRecvd = false → Serving asked s
  | pending (waits : Bool) (raw : RawRequest α) : s.threads = [.running waits raw] →
      s.rawRequest = some raw → s.reqID = raw.notification_id →
      (s.respRecvd → asked raw s.resp) → Serving asked s
  | withdrawn (waits : Bool) (raw : RawRequest α) : s.threads = [.running waits raw] →
      s.rawRequest = none → Serving asked s
  | leaving (msg : Option (LocEngInformNiResponse α)) : s.threads = [.leaving msg] →
      s.rawRequest = none → s.respRecvd = false → (∀ a ∈ msg, Proper asked a) → Serving asked s

section

variable {asked asked' : RawRequest α → GpsUserResponseType → Prop} {s s' : Session α}
  {sent : List (LocEngInformNiResponse α)} {freed : List (RawRequest α)} {k : Nat}

theorem Serving.mono (more : ∀ raw resp, asked raw resp → asked' raw resp)
    (serving : Serving asked s) : Serving asked' s := by
  cases serving with
  | idle threads raw flag => exact .idle threads raw flag
  | pending waits raw threads held id response =>
    exact .pending waits raw threads held id fun flag => more _ _ (response flag)
  | withdrawn waits raw threads cleared => exact .withdrawn waits raw threads cleared
  | leaving msg threads cleared flag proper =>
    refine .leaving msg threads cleared flag fun a member => ?_
    exact (proper a member).imp_right fun ⟨response, other⟩ => ⟨more _ _ response, other⟩

/-- A session that holds a request has its id and a thread for it. -/
theorem Serving.of_held {raw : RawRequest α} (serving : Serving asked s) (held : s.rawRequest = some raw) :
    s.reqID = raw.notification_id ∧ ∃ waits, s.threads = [.running waits raw] := by
  cases serving with
  | idle _ cleared => cases held.symm.trans cleared
  | pending waits raw' threads held' id =>
    obtain rfl := Option.some.inj (held.symm.trans held')
    exact ⟨id, waits, threads⟩
  | withdrawn _ _ _ cleared => cases held.symm.trans cleared
  | leaving _ _ cleared => cases held.symm.trans cleared

/-- What a step of a thread keeps: the requests are where they were, or sent or freed, and messages
are proper. -/
structure Kept (asked : RawRequest α → GpsUserResponseType → Prop) (s s' : Session α)
    (sent : List (LocEngInformNiResponse α)) (freed : List (RawRequest α)) : Prop where
  serving : Serving asked s'
  held : s.held = s'.held + ↑(sent.map (·.mPayload)) + ↑freed
  sent : ∀ a ∈ sent, Proper asked a
  freed : ∀ raw ∈ freed, asked raw .IGNORE
  fewer : ∀ raw, s'.rawRequest = some raw → s.rawRequest = some raw

theorem singleton_getElem? {β : Type} {x y : β} (found : [x][k]? = some y) : k = 0 ∧ [x] = [y] := by
  cases k with
  | zero => exact ⟨rfl, congrArg (fun x => [x]) (Option.some.inj found)⟩
  | succ k => cases found

section

variable (serving : Serving asked s)
include serving

theorem Serving.finish {waits : Bool} {created : RawRequest α} {timedOut : Bool}
    (running : s.threads = [.running waits created]) (why : timedOut = false → s.respRecvd) :
    Kept asked s (s.finish 0 timedOut).1 [] (s.finish 0 timedOut).2 := by
  cases serving with
  | idle threads => cases threads.symm.trans running
  | leaving msg threads => cases threads.symm.trans running
  | withdrawn waits raw threads cleared =>
    simp only [Session.finish, cleared, threads, List.set_cons_zero]
    exact ⟨.leaving none rfl rfl rfl (by simp),
      by simp [Session.held, Thread.unsent, cleared, threads], by simp, by simp, by simp [cleared]⟩
  | pending waits raw threads held id response =>
    have proper : ∀ resp, resp = (if timedOut then .NORESP else s.resp) → resp ≠ .IGNORE →
        Proper asked ⟨resp, raw, timedOut⟩ := by
      rintro resp rfl other
      cases timedOut with
      | true => exact .inl ⟨rfl, rfl⟩
      | false => exact .inr ⟨response (why rfl), other⟩
    simp only [Session.finish, held, threads, List.set_cons_zero]
    generalize answer : (if timedOut then GpsUserResponseType.NORESP else s.resp) = resp at proper
    by_cases ignored : resp = .IGNORE
    · have user : timedOut = false ∧ s.resp = .IGNORE := by
        cases timedOut with
        | true => cases answer.trans ignored
        | false => exact ⟨rfl, answer.trans ignored⟩
      rw [if_neg (not_not.mpr ignored)]
      refine ⟨.leaving none rfl rfl rfl (by simp), ?_, by simp, ?_, by simp⟩
      · simp [Session.held, Thread.unsent, held, threads]
      · intro freed member
        rw [List.mem_singleton.mp member, ← user.2]
        exact response (why user.1)
    · rw [if_pos ignored]
      refine ⟨.leaving (some ⟨resp, raw, timedOut⟩) rfl rfl rfl ?_, ?_, by simp, by simp, by simp⟩
      · intro a member
        obtain rfl := Option.some.inj member
        exact proper resp rfl ignored
      · simp [Session.held, Thread.unsent, held, threads]

theorem Serving.thread {t : Thread α} (found : s.threads[k]? = some t) :
    k = 0 ∧ s.threads = [t] := by
  cases serving with
  | idle threads =>
    rw [threads] at found
    cases found
  | pending waits raw threads =>
    rw [threads] at found ⊢
    exact singleton_getElem? found
  | withdrawn waits raw threads =>
    rw [threads] at found ⊢
    exact singleton_getElem? found
  | leaving msg threads =>
    rw [threads] at found ⊢
    exact singleton_getElem? found

theorem Serving.timeout (took : s.timeout k = some (s', sent, freed)) :
    Kept asked s s' sent freed := by
  rw [Session.timeout] at took
  split at took
  next created found =>
    obtain ⟨rfl, running⟩ := serving.thread found
    obtain ⟨rfl, rfl, rfl⟩ := by simpa using took
    exact serving.finish running (fun timedOut => by cases timedOut)
  next => cases took

theorem Serving.wait {waits : Bool} {created : RawRequest α}
    (running : s.threads = [.running waits created]) (flag : s.respRecvd = false) :
    Kept asked s { s with threads := [.running true created] } [] [] := by
  have held : s.held = Session.held { s with threads := [.running true created] } := by
    simp [Session.held, Thread.unsent, running]
  refine ⟨?_, by simpa using held, by simp, by simp, fun _ same => same⟩
  cases serving with
  | idle threads => cases threads.symm.trans running
  | leaving msg threads => cases threads.symm.trans running
  | withdrawn waits raw threads cleared => exact .withdrawn true created rfl cleared
  | pending waits raw threads held id =>
    obtain ⟨-, rfl⟩ : _ ∧ created = raw := by simpa using running.symm.trans threads
    exact .pending true created rfl held id fun set => by simp [flag] at set

theorem Serving.leave {msg : Option (LocEngInformNiResponse α)} (leaving : s.threads = [.leaving msg]) :
    Kept asked s { s with reqID := 0, threads := [] } msg.toList [] := by
  cases serving with
  | idle threads => cases threads.symm.trans leaving
  | pending waits raw threads => cases threads.symm.trans leaving
  | withdrawn waits raw threads => cases threads.symm.trans leaving
  | leaving msg' threads cleared flag proper =>
    obtain rfl : msg = msg' := by simpa using leaving.symm.trans threads
    refine ⟨.idle rfl cleared flag, ?_, fun a member => proper a (by simpa using member), by simp,
      fun _ same => same⟩
    simp [Session.held, Thread.unsent, cleared, threads]

theorem Serving.run (took : s.run k = some (s', sent, freed)) :
    Kept asked s s' sent freed := by
  rw [Session.run] at took
  split at took
  next => cases took
  next waits created found =>
    obtain ⟨rfl, running⟩ := serving.thread found
    split at took
    next flag =>
      obtain ⟨rfl, rfl, rfl⟩ := by simpa using took
      exact serving.finish running fun _ => flag
    next flag =>
      rw [running] at took
      obtain ⟨rfl, rfl, rfl⟩ := by simpa using took
      exact serving.wait running (by simpa using flag)
  next msg found =>
    obtain ⟨rfl, leaving⟩ := serving.thread found
    rw [leaving] at took
    obtain ⟨rfl, rfl, rfl⟩ := by simpa using took
    exact serving.leave leaving

/-- A response lands in time: the thread of the request that it was meant for is still in front of it. -/
theorem Serving.receive {w : Write α} {waits : Bool}
    (inTime : .running waits w.meant ∈ s.threads) (response : asked w.meant w.resp) :
    Serving asked (s.receive w.resp) := by
  cases serving with
  | idle threads =>
    rw [threads] at inTime
    cases inTime
  | leaving msg threads =>
    rw [threads] at inTime
    simp at inTime
  | withdrawn waits raw threads cleared => exact .withdrawn waits raw threads cleared
  | pending waits raw threads held id =>
    rw [threads] at inTime
    obtain ⟨rfl, rfl⟩ := by simpa using inTime
    exact .pending waits _ threads held id fun _ => response

/-- A request that the restart of the modem withdraws. -/
theorem Serving.clear :
    Serving asked { s with rawRequest := none } := by
  cases serving with
  | idle threads cleared flag => exact .idle threads rfl flag
  | pending waits raw threads => exact .withdrawn waits raw threads rfl
  | withdrawn waits raw threads => exact .withdrawn waits raw threads rfl
  | leaving msg threads cleared flag proper => exact .leaving msg threads rfl flag proper

theorem Serving.wake {waits : Bool} {created : RawRequest α}
    (cleared : s.rawRequest = none) (running : .running waits created ∈ s.threads) :
    Serving asked { s with respRecvd := true } := by
  cases serving with
  | idle threads =>
    rw [threads] at running
    cases running
  | pending waits raw threads held => cases held.symm.trans cleared
  | withdrawn waits raw threads => exact .withdrawn waits raw threads cleared
  | leaving msg threads =>
    rw [threads] at running
    simp at running

end

end

/-! ### Both sessions -/

/-- The session that the restart is about to wake. -/
def Restart.raises : Restart → Option Kind
  | .raiseEs => some .sessionEs
  | .raiseSession => some .session
  | _ => none

namespace NiData

variable {d d' : NiData α} {kind : Kind} {s : Session α}

/-- A response was asked for a request: the user gave it for the id of the request, or the request is to
be ignored since the user accepted an emergency one while it was pending. -/
def Asked (d : NiData α) (raw : RawRequest α) (resp : GpsUserResponseType) : Prop :=
  (raw.notification_id, resp) ∈ d.given ∨
    resp = .IGNORE ∧ ∃ es, (raw.notification_id, es) ∈ d.displaced ∧ (es, .ACCEPT) ∈ d.given

/-- The requests that the sessions and their threads hold. -/
def held (d : NiData α) : Multiset (RawRequest α) := d.session.held + d.sessionEs.held

/-- The sessions after one is replaced. `d'` differs from that in what is not a session. -/
theorem get_of_set (d : NiData α) (kind : Kind) (s : Session α) (d' : NiData α)
    (same : d'.session = (d.set kind s).session)
    (sameEs : d'.sessionEs = (d.set kind s).sessionEs) (kind' : Kind) :
    d'.get kind' = if kind' = kind then s else d.get kind' := by
  cases kind' with
  | session =>
    rw [get, same]
    cases kind <;> rfl
  | sessionEs =>
    rw [get, sameEs]
    cases kind <;> rfl

theorem held_set (d : NiData α) (kind : Kind) (s : Session α) :
    (d.set kind s).held + (d.get kind).held = d.held + s.held := by
  cases kind with
  | session =>
    change s.held + d.sessionEs.held + d.session.held = d.session.held + d.sessionEs.held + s.held
    abel
  | sessionEs =>
    change d.session.held + s.held + d.sessionEs.held = d.session.held + d.sessionEs.held + s.held
    abel

/-- What a session no longer holds, the two do not. -/
theorem held_of_split {x : Multiset (RawRequest α)} (split : (d.get kind).held = s.held + x) :
    d.held = (d.set kind s).held + x := by
  have moved := held_set d kind s
  rw [split] at moved
  apply add_right_cancel (b := s.held)
  rw [← moved]
  abel

/-- The invariant. -/
structure Inv (d : NiData α) : Prop where
  serving : ∀ kind, Serving d.Asked (d.get kind)
  writes : ∀ ws ∈ d.responding, ∀ w ∈ ws, d.Asked w.meant w.resp
  cleared : ∀ kind, d.restart.raises = some kind → (d.get kind).rawRequest = none
  answered : ∀ a ∈ d.answered, Proper d.Asked a
  ignored : ∀ raw ∈ d.ignored, d.Asked raw .IGNORE
  once : (↑d.accepted : Multiset (RawRequest α)) =
    d.held + ↑(d.answered.map (·.mPayload)) + ↑d.ignored + ↑d.withdrawn
  ids : (d.accepted.map (·.notification_id)).Nodup
  bounded : ∀ raw ∈ d.accepted, raw.notification_id ≤ d.reqIDCounter

/-- No act on a session comes late. A thread is created for each accepted request, when those created
for the session before have ended. A response, and the signal of a restart, come to a session while
the thread that they are for is in front of its section under the lock. -/
def Orderly (d : NiData α) : Event α → Prop
  | .request kind _ created => d.busy kind = false → created ∧ (d.get kind).threads = []
  | .write k => ∀ w rest, d.responding[k]? = some (w :: rest) →
      ∃ waits, .running waits w.meant ∈ (d.get w.kind).threads
  | .restart => ∀ kind, d.restart.raises = some kind →
      ∃ waits created, .running waits created ∈ (d.get kind).threads
  | _ => True

theorem Inv.threadStep {took : Option (Session α × List (LocEngInformNiResponse α) × List (RawRequest α))}
    (inv : d.Inv)
    (keeps : ∀ s sent freed, took = some (s, sent, freed) → Kept d.Asked (d.get kind) s sent freed)
    (stepped : d.threadStep kind took = some d') : d'.Inv := by
  obtain ⟨⟨s, sent, freed⟩, rfl, rest⟩ := Option.map_eq_some_iff.mp stepped
  obtain rfl : { d.set kind s with answered := d.answered ++ sent, ignored := d.ignored ++ freed } = d' :=
    rest
  have kept := keeps s sent freed rfl
  have sessions := get_of_set d kind s
    { d.set kind s with answered := d.answered ++ sent, ignored := d.ignored ++ freed } rfl rfl
  -- the session of `kind` is what the thread left; the others are untouched
  constructor
  case serving =>
    intro kind'
    rw [sessions]
    split
    · exact kept.serving
    · exact inv.serving kind'
  case writes => exact inv.writes
  case cleared =>
    intro kind' raises
    rw [sessions]
    split
    next here =>
      have cleared := inv.cleared kind' raises
      rw [here] at cleared
      cases holds : s.rawRequest with
      | none => rfl
      | some raw => cases cleared.symm.trans (kept.fewer raw holds)
    next => exact inv.cleared kind' raises
  case answered =>
    intro a member
    rcases List.mem_append.mp member with old | new
    · exact inv.answered a old
    · exact kept.sent a new
  case ignored =>
    intro raw member
    rcases List.mem_append.mp member with old | new
    · exact inv.ignored raw old
    · exact kept.freed raw new
  case once =>
    have split := kept.held
    rw [add_assoc] at split
    have once := inv.once
    rw [held_of_split split] at once
    change (↑d.accepted : Multiset (RawRequest α)) = (d.set kind s).held +
      ↑((d.answered ++ sent).map (·.mPayload)) + ↑(d.ignored ++ freed) + ↑d.withdrawn
    rw [once, List.map_append, ← Multiset.coe_add, ← Multiset.coe_add]
    abel
  case ids => exact inv.ids
  case bounded => exact inv.bounded

theorem Asked.mono (given : d.given ⊆ d'.given) (displaced : d.displaced ⊆ d'.displaced)
    {raw : RawRequest α} {resp : GpsUserResponseType} (asked : d.Asked raw resp) :
    d'.Asked raw resp := by
  rcases asked with user | ⟨ignore, es, pending, accept⟩
  · exact .inl (given user)
  · exact .inr ⟨ignore, es, displaced pending, given accept⟩

theorem Inv.signal (inv : d.Inv) (responding : List (List (Write α))) (restart : Restart)
    (serving : Serving d.Asked s) (held : s.held = (d.get kind).held)
    (raw : s.rawRequest = (d.get kind).rawRequest)
    (writes : ∀ ws ∈ responding, ∀ w ∈ ws, d.Asked w.meant w.resp)
    (raises : ∀ kind, restart.raises = some kind → d.restart.raises = some kind) :
    ({ d.set kind s with responding := responding, restart := restart } : NiData α).Inv := by
  have sessions := get_of_set d kind s
    { d.set kind s with responding := responding, restart := restart } rfl rfl
  have same : (d.set kind s).held = d.held := by
    have moved := held_set d kind s
    rw [held] at moved
    exact add_right_cancel moved
  constructor
  case serving =>
    intro kind'
    rw [sessions]
    split
    · exact serving
    · exact inv.serving kind'
  case writes => exact writes
  case cleared =>
    intro kind' raised
    have cleared := inv.cleared kind' (raises kind' raised)
    rw [sessions]
    split
    next here => rw [raw, ← here, cleared]
    next => exact cleared
  case answered => exact inv.answered
  case ignored => exact inv.ignored
  case once =>
    change (↑d.accepted : Multiset (RawRequest α)) = (d.set kind s).held + _ + _ + _
    rw [same]
    exact inv.once
  case ids => exact inv.ids
  case bounded => exact inv.bounded

theorem Inv.write {k : Nat} (inv : d.Inv) (orderly : d.Orderly (.write k))
    (stepped : d.write k = some d') : d'.Inv := by
  rw [NiData.write] at stepped
  split at stepped
  next w rest found =>
    obtain rfl := Option.some.inj stepped
    have asked := inv.writes _ (List.mem_of_getElem? found)
    obtain ⟨waits, inTime⟩ := orderly w rest found
    refine inv.signal _ d.restart ?_ rfl rfl ?_ fun _ => id
    · exact (inv.serving w.kind).receive inTime (asked w List.mem_cons_self)
    · intro ws member w' inside
      rcases List.mem_or_eq_of_mem_set member with old | rfl
      · exact inv.writes ws old w' inside
      · exact asked w' (List.mem_cons_of_mem _ inside)
  next => cases stepped

theorem Inv.wake {restart : Restart} (inv : d.Inv) (raises : d.restart.raises = some kind)
    (inTime : ∃ waits created, .running waits created ∈ (d.get kind).threads)
    (next : restart.raises = none) : ({ d.wake kind with restart := restart } : NiData α).Inv := by
  obtain ⟨waits, created, running⟩ := inTime
  refine inv.signal d.responding _ ?_ rfl rfl inv.writes ?_
  · exact (inv.serving kind).wake (inv.cleared kind raises) running
  · intro kind' raised
    cases next.symm.trans raised

/-- The request of a session is withdrawn, and the restart goes on to wake its thread. -/
theorem Inv.clear {restart : Restart} (inv : d.Inv) (next : restart.raises = some kind) :
    ({ d.clear kind with restart := restart } : NiData α).Inv := by
  have sessions := get_of_set d kind { d.get kind with rawRequest := none }
    { d.clear kind with restart := restart } rfl rfl
  constructor
  case serving =>
    intro kind'
    rw [sessions]
    split
    · exact (inv.serving kind).clear
    · exact inv.serving kind'
  case writes => exact inv.writes
  case cleared =>
    intro kind' raised
    obtain rfl := Option.some.inj (next.symm.trans raised)
    rw [sessions, if_pos rfl]
  case answered => exact inv.answered
  case ignored => exact inv.ignored
  case once =>
    have split := held_of_split (d.get kind).held_cleared
    have once := inv.once
    have moved : ∀ h r a i w : Multiset (RawRequest α), h + r + a + i + w = h + a + i + (w + r) := by
      intro h r a i w
      abel
    rw [split, moved, Multiset.coe_add] at once
    exact once
  case ids => exact inv.ids
  case bounded => exact inv.bounded

/-- The restart goes on without an effect. -/
theorem Inv.skip {restart : Restart} (inv : d.Inv) (next : restart.raises = none) :
    ({ d with restart := restart } : NiData α).Inv :=
  ⟨inv.serving, inv.writes, fun kind raised => by (cases next.symm.trans raised), inv.answered,
    inv.ignored, inv.once, inv.ids, inv.bounded⟩

theorem Inv.restart (inv : d.Inv) (orderly : d.Orderly .restart) :
    d.loc_eng_ni_reset_on_engine_restart.Inv := by
  rw [loc_eng_ni_reset_on_engine_restart]
  split
  next =>
    split
    · exact inv.clear rfl
    · exact inv.skip rfl
  next at_ =>
    have raises : d.restart.raises = some .sessionEs := by rw [at_]; rfl
    exact inv.wake raises (orderly _ raises) rfl
  next =>
    split
    · exact inv.clear rfl
    · exact inv.skip rfl
  next at_ =>
    have raises : d.restart.raises = some .session := by rw [at_]; rfl
    exact inv.wake raises (orderly _ raises) rfl

theorem not_busy (free : d.busy kind = false) : (d.get kind).rawRequest = none := by
  cases kind with
  | session =>
    rw [busy, Bool.or_eq_false_iff] at free
    exact Option.isSome_eq_false_iff.mp free.1 |> Option.isNone_iff_eq_none.mp
  | sessionEs =>
    exact Option.isSome_eq_false_iff.mp free |> Option.isNone_iff_eq_none.mp

theorem Inv.request {passThrough : α} {created : Bool} (inv : d.Inv)
    (orderly : d.Orderly (.request kind passThrough created)) (idle : d.restart = .idle) :
    (d.loc_eng_ni_request_handler kind passThrough created).Inv := by
  rw [loc_eng_ni_request_handler]
  split
  next => exact inv
  next accepts =>
    obtain ⟨rfl, threads⟩ := orderly (by simpa using accepts)
    have cleared : (d.get kind).rawRequest = none := not_busy (by simpa using accepts)
    have flag : (d.get kind).respRecvd = false := by
      cases inv.serving kind with
      | idle _ _ flag => exact flag
      | pending _ _ running => cases threads.symm.trans running
      | withdrawn _ _ running => cases threads.symm.trans running
      | leaving _ leaving => cases threads.symm.trans leaving
    -- the session as the handler leaves it
    generalize named : (⟨passThrough, d.reqIDCounter + 1⟩ : RawRequest α) = raw
    obtain ⟨s, is⟩ : ∃ s : Session α, s = { d.get kind with
      rawRequest := some raw
      reqID := d.reqIDCounter + 1
      threads := [.running false raw] } := ⟨_, rfl⟩
    have fresh : raw.notification_id = d.reqIDCounter + 1 := named ▸ rfl
    have holds : s.held = (d.get kind).held + {raw} := by
      rw [is, Session.held, Session.held, cleared, threads]
      rfl
    have sessions := get_of_set d kind s { d.set kind s with
      reqIDCounter := d.reqIDCounter + 1, accepted := d.accepted ++ [raw] } rfl rfl
    suffices result : ({ d.set kind s with
        reqIDCounter := d.reqIDCounter + 1, accepted := d.accepted ++ [raw] } : NiData α).Inv by
      rw [is] at result
      simpa [threads] using result
    constructor
    case serving =>
      intro kind'
      rw [sessions]
      split
      · rw [is]
        exact .pending false raw rfl rfl fresh.symm fun set => by cases flag.symm.trans set
      · exact inv.serving kind'
    case writes => exact inv.writes
    case cleared =>
      intro kind' raised
      change d.restart.raises = some kind' at raised
      rw [idle] at raised
      cases raised
    case answered => exact inv.answered
    case ignored => exact inv.ignored
    case once =>
      have moved := held_set d kind s
      rw [holds] at moved
      have more : (d.set kind s).held = d.held + {raw} := by
        apply add_right_cancel (b := (d.get kind).held)
        rw [moved]
        abel
      have added : ∀ h a i w x : Multiset (RawRequest α), h + a + i + w + x = h + x + a + i + w := by
        intro h a i w x
        abel
      change (↑(d.accepted ++ [raw]) : Multiset (RawRequest α)) = (d.set kind s).held + _ + _ + _
      rw [more, ← Multiset.coe_add, inv.once]
      exact added _ _ _ _ _
    case ids =>
      rw [List.map_append, List.map_singleton]
      refine List.nodup_append_comm.mp (List.nodup_cons.mpr ⟨fun old => ?_, inv.ids⟩)
      obtain ⟨raw', member, same⟩ := List.mem_map.mp old
      have below := inv.bounded raw' member
      omega
    case bounded =>
      intro raw' member
      change raw'.notification_id ≤ d.reqIDCounter + 1
      rcases List.mem_append.mp member with old | new
      · have below := inv.bounded raw' old
        omega
      · rw [List.mem_singleton.mp new]
        omega

theorem Inv.ask {given : List (Int × GpsUserResponseType)} {displaced : List (Int × Int)}
    {responding : List (List (Write α))} (inv : d.Inv) (more : d.given ⊆ given)
    (more' : d.displaced ⊆ displaced) (writes : ∀ ws ∈ responding, ∀ w ∈ ws,
      ({ d with given := given, displaced := displaced } : NiData α).Asked w.meant w.resp) :
    ({ d with given := given, displaced := displaced, responding := responding } : NiData α).Inv := by
  have stays : ∀ raw resp, d.Asked raw resp →
      ({ d with given := given, displaced := displaced } : NiData α).Asked raw resp :=
    fun _ _ => Asked.mono more more'
  constructor
  case serving => exact fun kind => (inv.serving kind).mono stays
  case writes => exact writes
  case cleared => exact inv.cleared
  case answered =>
    exact fun a member => (inv.answered a member).imp_right fun ⟨response, other⟩ =>
      ⟨stays _ _ response, other⟩
  case ignored => exact fun raw member => stays _ _ (inv.ignored raw member)
  case once => exact inv.once
  case ids => exact inv.ids
  case bounded => exact inv.bounded

/-- The request that a response is taken for is pending and has the id of the response. -/
theorem Inv.matched (inv : d.Inv) (kind : Kind) {notif_id : Int} {raw : RawRequest α}
    (found : NiData.matched (d.get kind) notif_id = some raw) : raw.notification_id = notif_id := by
  rw [NiData.matched] at found
  split at found
  next named => rw [named, ((inv.serving kind).of_held found).1]
  next => cases found

theorem Inv.respond (inv : d.Inv) (notif_id : Int) (user_response : GpsUserResponseType) :
    (d.loc_eng_ni_respond notif_id user_response).Inv := by
  -- what was asked of a session before is still asked after more answers
  have more : d.given ⊆ d.given ++ [(notif_id, user_response)] := List.subset_append_left _ _
  have user : ∀ {raw : RawRequest α} {displaced : List (Int × Int)}, raw.notification_id = notif_id →
      ({ d with given := d.given ++ [(notif_id, user_response)], displaced := displaced } :
        NiData α).Asked raw user_response := by
    intro raw displaced named
    exact .inl (named ▸ by simp)
  have earlier : ∀ {displaced : List (Int × Int)}, d.displaced ⊆ displaced →
      ∀ ws ∈ d.responding, ∀ w ∈ ws, ({ d with
        given := d.given ++ [(notif_id, user_response)], displaced := displaced } :
        NiData α).Asked w.meant w.resp :=
    fun more' ws member w inside => (inv.writes ws member w inside).mono more more'
  rw [loc_eng_ni_respond]
  split
  next raw found =>
    have named : raw.notification_id = notif_id := inv.matched .sessionEs found
    refine inv.ask more (List.subset_append_left _ _) fun ws member => ?_
    rcases List.mem_append.mp member with old | new
    · exact earlier (List.subset_append_left _ _) ws old
    · rw [List.mem_singleton.mp new]
      intro w inside
      rcases List.mem_append.mp inside with ignores | own
      · obtain ⟨other, pending, rfl⟩ := List.mem_map.mp ignores
        refine .inr ⟨rfl, notif_id, List.mem_append_right _ (List.mem_map_of_mem pending), ?_⟩
        split at pending
        next accept => simp [accept]
        next => cases pending
      · rw [List.mem_singleton.mp own]
        exact user named
  next =>
    split
    next raw found =>
      have named : raw.notification_id = notif_id := inv.matched .session found
      refine inv.ask more (fun _ => id) fun ws member => ?_
      rcases List.mem_append.mp member with old | new
      · exact earlier (fun _ => id) ws old
      · rw [List.mem_singleton.mp new]
        intro w inside
        rw [List.mem_singleton.mp inside]
        exact user named
    next => exact inv.ask more (fun _ => id) (earlier fun _ => id)

theorem Inv.step {e : Event α} (inv : d.Inv) (orderly : d.Orderly e) (stepped : d.step e = some d') :
    d'.Inv := by
  cases e with
  | request kind passThrough created =>
    rw [NiData.step] at stepped
    split at stepped
    next idle =>
      obtain rfl := Option.some.inj stepped
      exact inv.request orderly idle
    next => cases stepped
  | run kind k => exact inv.threadStep (fun _ _ _ took => (inv.serving kind).run took) stepped
  | timeout kind k => exact inv.threadStep (fun _ _ _ took => (inv.serving kind).timeout took) stepped
  | respond notif_id user_response =>
    obtain rfl := Option.some.inj stepped
    exact inv.respond notif_id user_response
  | write k => exact inv.write orderly stepped
  | restart =>
    obtain rfl := Option.some.inj stepped
    exact inv.restart orderly

/-! ### Every request comes to an answer -/

/-- The request was answered, or ignored. -/
def Resolved (d : NiData α) (raw : RawRequest α) : Prop :=
  raw ∈ d.answered.map (·.mPayload) ∨ raw ∈ d.ignored

theorem threadStep_some (d : NiData α) (kind : Kind)
    {took : Option (Session α × List (LocEngInformNiResponse α) × List (RawRequest α))}
    {sent : List (LocEngInformNiResponse α)} {freed : List (RawRequest α)}
    (steps : took = some (s, sent, freed)) :
    ∃ e, d.threadStep kind took = some e ∧ e.get kind = s ∧ e.answered = d.answered ++ sent ∧
      e.ignored = d.ignored ++ freed := by
  subst steps
  refine ⟨_, rfl, ?_, rfl, rfl⟩
  cases kind <;> rfl

/-- A thread that has its message sends it. -/
theorem resolved_of_leaving {msg : LocEngInformNiResponse α}
    (leaving : (d.get kind).threads = [.leaving (some msg)]) :
    ∃ e, d.step (.run kind 0) = some e ∧ e.Resolved msg.mPayload := by
  have took : (d.get kind).run 0 = some ({ d.get kind with reqID := 0, threads := [] }, [msg], []) := by
    simp [Session.run, leaving]
  obtain ⟨e, stepped, _, answered, _⟩ := threadStep_some d kind took
  refine ⟨e, stepped, .inl ?_⟩
  rw [answered]
  simp

/-- A thread whose wait is over resolves its request. -/
theorem resolved_of_finish {raw : RawRequest α} {waits : Bool} (first : Event α) (timedOut : Bool)
    (running : (d.get kind).threads = [.running waits raw]) (held : (d.get kind).rawRequest = some raw)
    (took : d.step first = d.threadStep kind
      (some (((d.get kind).finish 0 timedOut).1, [], ((d.get kind).finish 0 timedOut).2)))
    (allowed : d.Orderly first) :
    ∃ events e, Run NiData.step Orderly d events e ∧ e.Resolved raw := by
  obtain ⟨e, stepped, at_, answered, ignored⟩ := threadStep_some d kind
    (rfl : some (((d.get kind).finish 0 timedOut).1, ([] : List (LocEngInformNiResponse α)),
      ((d.get kind).finish 0 timedOut).2) = _)
  have stepped := took.trans stepped
  simp only [Session.finish, held, running, List.set_cons_zero] at at_ ignored
  generalize (if timedOut then GpsUserResponseType.NORESP else (d.get kind).resp) = resp at at_ ignored
  by_cases ignore : resp = .IGNORE
  · rw [if_neg (not_not.mpr ignore)] at ignored
    refine ⟨_, e, .cons allowed stepped (.nil e), .inr ?_⟩
    rw [ignored]
    simp
  · rw [if_pos ignore] at at_
    obtain ⟨e', stepped', resolved⟩ := resolved_of_leaving (congrArg Session.threads at_)
    have free : e.Orderly (.run kind 0) := trivial
    exact ⟨_, e', .cons allowed stepped (.cons free stepped' (.nil e')), resolved⟩

/-- A waiting thread times out. -/
theorem resolved_of_waiting {raw : RawRequest α} (running : (d.get kind).threads = [.running true raw])
    (held : (d.get kind).rawRequest = some raw) :
    ∃ events e, Run NiData.step Orderly d events e ∧ e.Resolved raw := by
  apply resolved_of_finish (.timeout kind 0) true running held ?_ trivial
  simp [NiData.step, Session.timeout, running]

/-- A pending request comes to an answer whatever the user does: its thread times out at the latest. -/
theorem Inv.resolved (inv : d.Inv) {raw : RawRequest α} (held : (d.get kind).rawRequest = some raw) :
    ∃ events e, Run NiData.step Orderly d events e ∧ e.Resolved raw := by
  obtain ⟨_, waits, running⟩ := (inv.serving kind).of_held held
  cases flag : (d.get kind).respRecvd with
  | true =>
    apply resolved_of_finish (.run kind 0) false running held ?_ trivial
    simp [NiData.step, Session.run, running, flag]
  | false =>
    cases waits with
    | true => exact resolved_of_waiting running held
    | false =>
      -- the thread has not come to its wait
      have took : (d.get kind).run 0 = some ({ d.get kind with threads := [.running true raw] }, [], []) := by
        simp [Session.run, running, flag]
      obtain ⟨e, stepped, at_, _⟩ := threadStep_some d kind took
      have running' : (e.get kind).threads = [.running true raw] := by rw [at_]
      have held' : (e.get kind).rawRequest = some raw := by rw [at_]; exact held
      obtain ⟨events, e', run, resolved⟩ := resolved_of_waiting running' held'
      have free : d.Orderly (.run kind 0) := trivial
      exact ⟨_, e', .cons free stepped run, resolved⟩

end NiData

open NiData

/-- What the requests come to, in a state with the record of what happened. -/
structure Settled (d : NiData α) : Prop where
  /-- Ids are distinct. -/
  ids : (d.accepted.map (·.notification_id)).Nodup
  /-- Each accepted request is once with a session or its thread, answered, ignored or withdrawn. -/
  once : (↑d.accepted : Multiset (RawRequest α)) =
    d.held + ↑(d.answered.map (·.mPayload)) + ↑d.ignored + ↑d.withdrawn
  /-- An answer is the one the user gave for the id of the request, or tells of a time-out. -/
  answers : ∀ a ∈ d.answered, a.timedOut ∧ a.mResponse = .NORESP ∨
    (a.mPayload.notification_id, a.mResponse) ∈ d.given
  /-- A request is ignored if the user said so, or accepted an emergency one while it was pending. -/
  ignored : ∀ raw ∈ d.ignored, (raw.notification_id, .IGNORE) ∈ d.given ∨
    ∃ es, (raw.notification_id, es) ∈ d.displaced ∧ (es, .ACCEPT) ∈ d.given
  /-- A session whose request is pending takes the responses to its id, has a thread for it, and comes
  to an answer without the user. -/
  served : ∀ kind raw, (d.get kind).rawRequest = some raw →
    (d.get kind).reqID = raw.notification_id ∧
    (∃ waits, (d.get kind).threads = [.running waits raw]) ∧
    ∃ events e, Run NiData.step Orderly d events e ∧ e.Resolved raw

theorem NiData.Inv.settled {d : NiData α} (inv : d.Inv) : Settled d where
  ids := inv.ids
  once := inv.once
  answers := by
    intro a member
    refine (inv.answered a member).imp_right ?_
    rintro ⟨user | ⟨ignore, _⟩, other⟩
    · exact user
    · exact absurd ignore other
  ignored := fun raw member => (inv.ignored raw member).imp_right And.right
  served := by
    intro kind raw held
    obtain ⟨id, running⟩ := (inv.serving kind).of_held held
    exact ⟨id, running, inv.resolved held⟩

theorem inv_init : ({} : NiData α).Inv where
  serving := by
    intro kind
    cases kind <;> exact .idle rfl rfl rfl
  writes := by simp
  cleared := by
    intro kind raised
    cases raised
  answered := by simp
  ignored := by simp
  once := rfl
  ids := List.nodup_nil
  bounded := by simp

theorem step_withdrawn {d d' : NiData α} {e : Event α} (other : e ≠ .restart)
    (stepped : d.step e = some d') : d'.withdrawn = d.withdrawn := by
  cases e with
  | request kind passThrough created =>
    rw [NiData.step, loc_eng_ni_request_handler] at stepped
    split at stepped
    · obtain rfl := Option.some.inj stepped
      split <;> rfl
    · cases stepped
  | run kind k =>
    obtain ⟨_, _, rfl⟩ := Option.map_eq_some_iff.mp stepped
    rfl
  | timeout kind k =>
    obtain ⟨_, _, rfl⟩ := Option.map_eq_some_iff.mp stepped
    rfl
  | respond notif_id user_response =>
    obtain rfl := Option.some.inj stepped
    rw [loc_eng_ni_respond]
    split
    · rfl
    · split <;> rfl
  | write k =>
    rw [NiData.step, NiData.write] at stepped
    split at stepped
    · obtain rfl := Option.some.inj stepped
      rfl
    · cases stepped
  | restart => exact absurd rfl other

/-- Only a restart of the modem withdraws requests. -/
theorem run_withdrawn {ok : NiData α → Event α → Prop} {events : List (Event α)} {d d' : NiData α}
    (run : Run NiData.step ok d events d') (other : .restart ∉ events) :
    d'.withdrawn = d.withdrawn := by
  induction run with
  | nil => rfl
  | cons _ stepped _ ih =>
    rw [List.mem_cons, not_or] at other
    rw [ih other.2, step_withdrawn (fun restart => other.1 restart.symm) stepped]

/-- In every run in which no act on a session comes late, each accepted request is answered once, with its
own response, and none waits for ever. -/
theorem ni_requests_settled {events : List (Event α)} {d : NiData α}
    (run : Run NiData.step Orderly {} events d) :
    Settled d ∧ (.restart ∉ events → d.withdrawn = []) := by
  constructor
  · have inv := run.invariant NiData.Inv (fun _ _ _ inv orderly stepped => inv.step orderly stepped) inv_init
    exact inv.settled
  · exact run_withdrawn run

/-- The user denies a request in time. -/
theorem ni_requests_settled_sample :
    ∃ d : NiData Nat, d.answered = [⟨.DENY, ⟨7, 1⟩, false⟩] ∧
      Settled d ∧ (.restart ∉ [Event.request .session 7 true, .run .session 0, .respond 1 .DENY,
        .write 0, .run .session 0, .run .session 0] → d.withdrawn = []) := by
  obtain ⟨d, run, answered⟩ : ∃ d : NiData Nat, Run NiData.step Orderly {}
      [.request .session 7 true, .run .session 0, .respond 1 .DENY, .write 0, .run .session 0,
        .run .session 0] d ∧ d.answered = [⟨.DENY, ⟨7, 1⟩, false⟩] := by
    refine ⟨_, .cons (fun _ => ⟨rfl, rfl⟩) rfl (.cons trivial rfl (.cons trivial rfl (.cons ?_ rfl
      (.cons trivial rfl (.cons trivial rfl (.nil _)))))), rfl⟩
    intro w rest found
    obtain ⟨rfl, rfl⟩ := List.cons.inj (Option.some.inj found)
    exact ⟨true, .head _⟩
  exact ⟨d, answered, ni_requests_settled run⟩

/-- A response that passes its test before the time-out and takes the lock after it is left for the next
request, and answers it. A request whose thread is not created is pending with no thread. -/
theorem ni_requests_not_settled :
    (∃ d : NiData Nat, Run NiData.step (fun _ _ => True) {}
        [.request .session 7 true, .run .session 0, .respond 1 .ACCEPT, .timeout .session 0,
          .write 0, .run .session 0, .request .session 8 true, .run .session 0, .run .session 0] d ∧
      d.answered = [⟨.NORESP, ⟨7, 1⟩, true⟩, ⟨.ACCEPT, ⟨8, 2⟩, false⟩] ∧
      d.given = [(1, .ACCEPT)] ∧ ¬ Settled d) ∧
    ∃ d : NiData Nat, Run NiData.step (fun _ _ => True) {} [.request .session 7 false] d ∧
      d.busy .session ∧ d.session.threads = [] ∧ ¬ Settled d := by
  constructor
  · refine ⟨_, Run.of_foldlM (fun _ _ _ => trivial) rfl, rfl, rfl, fun settled => ?_⟩
    have right := settled.answers ⟨.ACCEPT, ⟨8, 2⟩, false⟩ (.tail _ (.head _))
    revert right
    decide
  · refine ⟨_, Run.of_foldlM (fun _ _ _ => trivial) rfl, rfl, rfl, fun settled => ?_⟩
    obtain ⟨_, ⟨waits, running⟩, _⟩ := settled.served .session ⟨7, 1⟩ rfl
    cases running

end Hima.Gps.LocEngNi
