import Mathlib.Data.List.Basic

/-!
# Requests that the network initiates

`loc_eng_ni.cpp`: the modem asks, the user is notified, and a thread for each request waits for the
response or a time-out and answers. A step is a section under a session's lock, or what a thread
does between two of them.
-/
namespace Hima.Gps.LocEngNi

inductive GpsUserResponseType where
  | ACCEPT
  | DENY
  | NORESP
  | IGNORE
  | other (value : Int)
deriving DecidableEq, Repr

/-- What the modem passed through, with the `notification_id` that the handler gave the request. The
source keeps the payload alone. -/
structure RawRequest (α : Type) where
  payload : α
  notification_id : Int
deriving DecidableEq, Repr

/-- The message to the adapter. `timedOut` is the `rc` of the wait. -/
structure LocEngInformNiResponse (α : Type) where
  mResponse : GpsUserResponseType
  mPayload : RawRequest α
  timedOut : Bool
deriving DecidableEq, Repr

/-- Where a thread in `ni_thread_proc` is: in front of its section under the lock or waiting in it, or
behind it with the message that it is to send. `created` is the request that it was created for. -/
inductive Thread (α : Type) where
  | running (waits : Bool) (created : RawRequest α)
  | leaving (msg : Option (LocEngInformNiResponse α))
deriving DecidableEq, Repr

/-- A session with the threads that were started for it and have not ended. -/
structure Session (α : Type) where
  respRecvd : Bool := false
  rawRequest : Option (RawRequest α) := none
  reqID : Int := 0
  resp : GpsUserResponseType := .other 0
  threads : List (Thread α) := []
deriving DecidableEq, Repr

inductive Kind where
  | session
  | sessionEs
deriving DecidableEq, Repr

/-- A section under the lock that a call of `loc_eng_ni_respond` is on its way to. `meant` is the request
that it found there. -/
structure Write (α : Type) where
  kind : Kind
  resp : GpsUserResponseType
  meant : RawRequest α
deriving DecidableEq, Repr

/-- Where the message thread is in `loc_eng_ni_reset_on_engine_restart`. -/
inductive Restart where
  | idle
  | raiseEs
  | clearSession
  | raiseSession
deriving DecidableEq, Repr

/-- The sessions and the calls on their way. The fields from `accepted` on record what happened, and no
step reads them: the requests that were accepted, answered, ignored and dropped by a restart, what the
user responded to which id, and which id was pending when which one was accepted. -/
structure NiData (α : Type) where
  session : Session α := {}
  sessionEs : Session α := {}
  reqIDCounter : Int := 0
  responding : List (List (Write α)) := []
  restart : Restart := .idle
  accepted : List (RawRequest α) := []
  answered : List (LocEngInformNiResponse α) := []
  ignored : List (RawRequest α) := []
  withdrawn : List (RawRequest α) := []
  given : List (Int × GpsUserResponseType) := []
  displaced : List (Int × Int) := []
deriving DecidableEq, Repr

variable {α : Type}

namespace Session

/-- The section of `ni_thread_proc` under the lock from the end of the wait on. The result has the request
that it frees without a message. -/
def finish (s : Session α) (k : Nat) (timedOut : Bool) : Session α × List (RawRequest α) :=
  let resp := if timedOut then .NORESP else s.resp
  let s := { s with resp := resp, respRecvd := false }
  match s.rawRequest with
  | none => ({ s with threads := s.threads.set k (.leaving none) }, [])
  | some raw =>
    if resp ≠ .IGNORE then
      ({ s with rawRequest := none,
                threads := s.threads.set k (.leaving (some ⟨resp, raw, timedOut⟩)) }, [])
    else ({ s with rawRequest := none, threads := s.threads.set k (.leaving none) }, [raw])

/-- The thread `k` goes on. The result has the messages sent and the requests freed. -/
def run (s : Session α) (k : Nat) :
    Option (Session α × List (LocEngInformNiResponse α) × List (RawRequest α)) :=
  match s.threads[k]? with
  | none => none
  | some (.running _ created) =>
    -- also after a wake-up: the loop tests the flag again
    if s.respRecvd then some ((s.finish k false).1, [], (s.finish k false).2)
    else some ({ s with threads := s.threads.set k (.running true created) }, [], [])
  | some (.leaving msg) =>
    some ({ s with reqID := 0, threads := s.threads.eraseIdx k }, msg.toList, [])

/-- The wait of the thread `k` times out, whether a response came or not. -/
def timeout (s : Session α) (k : Nat) :
    Option (Session α × List (LocEngInformNiResponse α) × List (RawRequest α)) :=
  match s.threads[k]? with
  | some (.running true _) => some ((s.finish k true).1, [], (s.finish k true).2)
  | _ => none

/-- What `loc_eng_ni_respond` does under the lock. -/
def receive (s : Session α) (resp : GpsUserResponseType) : Session α :=
  { s with resp := resp, respRecvd := true }

end Session

namespace NiData

def get (d : NiData α) : Kind → Session α
  | .session => d.session
  | .sessionEs => d.sessionEs

def set (d : NiData α) (kind : Kind) (s : Session α) : NiData α :=
  { d with
    session := match kind with | .session => s | .sessionEs => d.session
    sessionEs := match kind with | .session => d.sessionEs | .sessionEs => s }

/-- Whether the handler refuses a request: a second one of its kind, and any while an emergency one is in
progress. -/
def busy (d : NiData α) : Kind → Bool
  | .sessionEs => d.sessionEs.rawRequest.isSome
  | .session => d.session.rawRequest.isSome || d.sessionEs.rawRequest.isSome

/-- `created` is whether `pthread_create` succeeds. Its failure is only logged. -/
def loc_eng_ni_request_handler (d : NiData α) (kind : Kind) (passThrough : α) (created : Bool) :
    NiData α :=
  if d.busy kind then d
  else
    let raw : RawRequest α := ⟨passThrough, d.reqIDCounter + 1⟩
    let s := d.get kind
    let s := { s with
      rawRequest := some raw
      reqID := d.reqIDCounter + 1
      threads := if created then s.threads ++ [.running false raw] else s.threads }
    { d.set kind s with reqIDCounter := d.reqIDCounter + 1, accepted := d.accepted ++ [raw] }

/-- The request of a session that `loc_eng_ni_respond` takes `notif_id` for. -/
def matched (s : Session α) (notif_id : Int) : Option (RawRequest α) :=
  if notif_id = s.reqID then s.rawRequest else none

/-- The part of `loc_eng_ni_respond` in front of its first section under a lock. -/
def loc_eng_ni_respond (d : NiData α) (notif_id : Int) (user_response : GpsUserResponseType) :
    NiData α :=
  let d := { d with given := d.given ++ [(notif_id, user_response)] }
  match matched d.sessionEs notif_id with
  | some raw =>
    -- ignore any SUPL NI non-Es session if a SUPL NI ES is accepted
    let others := if user_response = .ACCEPT then d.session.rawRequest.toList else []
    { d with
      responding := d.responding ++
        [others.map (⟨.session, .IGNORE, ·⟩) ++ [⟨.sessionEs, user_response, raw⟩]]
      displaced := d.displaced ++ others.map fun other => (other.notification_id, notif_id) }
  | none =>
    match matched d.session notif_id with
    | some raw => { d with responding := d.responding ++ [[⟨.session, user_response, raw⟩]] }
    | none => d

/-- The call `k` on its way takes its next lock. -/
def write (d : NiData α) (k : Nat) : Option (NiData α) :=
  match d.responding[k]? with
  | some (w :: rest) =>
    some { d.set w.kind ((d.get w.kind).receive w.resp) with responding := d.responding.set k rest }
  | _ => none

/-- The request of a session is freed, without its lock. -/
def clear (d : NiData α) (kind : Kind) : NiData α :=
  { d.set kind { d.get kind with rawRequest := none } with
    withdrawn := d.withdrawn ++ (d.get kind).rawRequest.toList }

/-- The thread of a session is woken, under its lock. -/
def wake (d : NiData α) (kind : Kind) : NiData α :=
  d.set kind { d.get kind with respRecvd := true }

/-- The next part of `loc_eng_ni_reset_on_engine_restart`. -/
def loc_eng_ni_reset_on_engine_restart (d : NiData α) : NiData α :=
  match d.restart with
  | .idle =>
    if d.sessionEs.rawRequest.isSome then { d.clear .sessionEs with restart := .raiseEs }
    else { d with restart := .clearSession }
  | .raiseEs => { d.wake .sessionEs with restart := .clearSession }
  | .clearSession =>
    if d.session.rawRequest.isSome then { d.clear .session with restart := .raiseSession }
    else { d with restart := .idle }
  | .raiseSession => { d.wake .session with restart := .idle }

/-- The thread `k` of a session took a step. -/
def threadStep (d : NiData α) (kind : Kind)
    (took : Option (Session α × List (LocEngInformNiResponse α) × List (RawRequest α))) :
    Option (NiData α) :=
  took.map fun (s, sent, freed) =>
    { d.set kind s with answered := d.answered ++ sent, ignored := d.ignored ++ freed }

end NiData

inductive Event (α : Type) where
  | request (kind : Kind) (passThrough : α) (created : Bool)
  | run (kind : Kind) (k : Nat)
  | timeout (kind : Kind) (k : Nat)
  | respond (notif_id : Int) (user_response : GpsUserResponseType)
  | write (k : Nat)
  | restart

/-- The handler and the restart are run by one thread, one after the other. -/
def NiData.step (d : NiData α) : Event α → Option (NiData α)
  | .request kind passThrough created =>
    if d.restart = .idle then some (d.loc_eng_ni_request_handler kind passThrough created) else none
  | .run kind k => d.threadStep kind ((d.get kind).run k)
  | .timeout kind k => d.threadStep kind ((d.get kind).timeout k)
  | .respond notif_id user_response => some (d.loc_eng_ni_respond notif_id user_response)
  | .write k => d.write k
  | .restart => some d.loc_eng_ni_reset_on_engine_restart

end Hima.Gps.LocEngNi
