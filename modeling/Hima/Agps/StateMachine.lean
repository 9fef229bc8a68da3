import Mathlib.Data.List.Basic

/-!
# The AGPS state machines

`AgpsStateMachine` keeps the clients of one data connection on a list and asks the framework for the
connection; `DSStateMachine` asks the data services of the modem instead. The four state objects
share the list. A call of an event handler runs to its end before the next one.
-/
namespace Hima.Agps

inductive AgpsRsrcStatus
  | subscribe
  | unsubscribe
  | granted
  | released
  | denied
  deriving DecidableEq

/-- `GPS_REQUEST_AGPS_DATA_CONN` and `GPS_RELEASE_AGPS_DATA_CONN`. -/
inductive AGpsStatusValue
  | requestAgpsDataConn
  | releaseAgpsDataConn
  deriving DecidableEq

/-- The state objects. -/
inductive AgpsState
  | released
  | pending
  | acquired
  | releasing
  deriving DecidableEq

/-! ### Subscribers -/

/-- The classes derived from `Subscriber`. -/
inductive SubscriberType
  | BIT
  | ATL
  | WIFI
  | DS
  deriving DecidableEq

/-- A `Subscriber`. `mIPv6Addr` are the bytes where a `BITSubscriber` has its address; in an object
of another class it is what happens to be there. -/
structure Subscriber where
  type : SubscriberType
  ID : BitVec 32
  mIPv6Addr : List UInt8 := []
  mIsInactive : Bool := false
  deriving DecidableEq

def INADDR_NONE : BitVec 32 := 0xffffffff

/-- `strncmp(a, b, 16) == 0`. -/
def sameAddr (a b : List UInt8) : Bool :=
  (a.take 16).takeWhile (· ≠ 0) = (b.take 16).takeWhile (· ≠ 0)

namespace Subscriber

/-- A `BITSubscriber` takes the other object for one as well. -/
def equals (self s : Subscriber) : Bool :=
  match self.type with
  | .BIT => self.ID = s.ID && (self.ID ≠ INADDR_NONE || sameAddr self.mIPv6Addr s.mIPv6Addr)
  | _ => self.ID = s.ID

def waitForCloseComplete (self : Subscriber) : Bool :=
  match self.type with
  | .WIFI | .DS => true
  | _ => false

def isInactive (self : Subscriber) : Bool :=
  match self.type with
  | .WIFI | .DS => self.mIsInactive
  | _ => false

/-- `clone`; `bytes` is what a new object without an address has in its place. -/
def clone (self : Subscriber) (bytes : List UInt8) : Subscriber :=
  match self.type with
  | .BIT => { self with mIsInactive := false }
  | _ => { self with mIPv6Addr := bytes, mIsInactive := false }

end Subscriber

/-! ### What the machines send -/

/-- Answers of the location server. -/
inductive ServerStatus
  | requestSuccess
  | releaseSuccess
  | failure
  deriving DecidableEq

/-- A call by which a client learns of its resource: to the location server (from the daemon, or from
the sender with an identifier), or to the adapter. -/
inductive Call
  | serverDataConn (sender : Option (BitVec 32)) (status : ServerStatus)
  | atlOpenStatus (ID : BitVec 32) (isSuccess : Bool)
  | atlCloseStatus (ID : BitVec 32)
  | closeDataCall
  | requestATL (ID : BitVec 32)
  deriving DecidableEq

/-- What a machine sends: to the client with an identifier, the status and the call that tells it
(`entry` is the entry of the list that the machine went by); to the framework, an action and the
subscriber whose addresses go with it; to the data services; the message that makes a subscriber ask
again; the retry timer. -/
inductive Out
  | client (entry : Option Nat) (ID : BitVec 32) (status : AgpsRsrcStatus) (call : Call)
  | agpsCb (action : AGpsStatusValue) (s : Option Subscriber)
  | requestRsrc (action : AGpsStatusValue)
  | requestSuplES (ID : BitVec 32)
  | timerStart
  deriving DecidableEq

/-- The calls of `notifyRsrcStatus`, for the classes whose machine takes no part. -/
def Subscriber.calls (self : Subscriber) : AgpsRsrcStatus → List Call
  | .subscribe => []
  | .unsubscribe =>
    match self.type with
    | .BIT => [.serverDataConn none .releaseSuccess]
    | .ATL => [.atlCloseStatus self.ID]
    | _ => []
  | .released =>
    match self.type with
    | .BIT => [.serverDataConn none .releaseSuccess]
    | .ATL => [.atlCloseStatus self.ID]
    | _ => [.serverDataConn (some self.ID) .releaseSuccess]
  | .denied =>
    match self.type with
    | .BIT => [.serverDataConn none .failure]
    | .ATL => [.atlOpenStatus self.ID false]
    | _ => [.serverDataConn (some self.ID) .failure]
  | .granted =>
    match self.type with
    | .BIT => [.serverDataConn none .requestSuccess]
    | .ATL => [.atlOpenStatus self.ID true]
    | _ => [.serverDataConn (some self.ID) .requestSuccess]

/-! ### The machine -/

/-- A clone on the list. `addr` is its address: the number of the clone. -/
structure Entry where
  addr : Nat
  s : Subscriber
  deriving DecidableEq

/-- `isDS` tells the class. `mSubscribers` starts with the head. `mRetries` is a member of
`DSStateMachine`; `out` is history: what the last event sent. -/
structure AgpsStateMachine where
  isDS : Bool
  mEnforceSingleSubscriber : Bool
  mStatePtr : AgpsState := .released
  mSubscribers : List Entry := []
  clones : Nat := 0
  mRetries : UInt8 := 0
  out : List Out := []
  deriving DecidableEq

/-- What an event finds around it: the bytes of a new object, what a comparison with a freed
receiver says of an entry, the answer of the data services, the handle of the retry timer. -/
structure Environment where
  bytes : List UInt8 := []
  stale : Nat → Bool := fun _ => false
  answer : Int := 0
  timer : Bool := true

/-- `BROADCAST_ALL`, `BROADCAST_ACTIVE`, `BROADCAST_INACTIVE`. -/
inductive Group
  | all
  | active
  | inactive

/-- `forMe` for a broadcast. -/
def Group.has : Group → Entry → Bool
  | .all, _ => true
  | .active, e => !e.s.isInactive
  | .inactive, e => e.s.isInactive

/-- `linked_list_search` with `rm_if_found`, again and again from the head until it finds nothing:
what stays on the list and what left it, in order. `p` may look at the list. -/
def deleteEach (p : List Entry → Entry → Bool) (l : List Entry) : List Entry × List Entry :=
  match _ : l.find? (p l) with
  | none => (l, [])
  | some e =>
    let later := deleteEach p (l.eraseP (p l))
    (later.1, e :: later.2)
  termination_by l.length
  decreasing_by
    rename_i found
    rw [List.length_eraseP_of_mem (List.mem_of_find?_eq_some found) (List.find?_some found)]
    exact Nat.sub_lt (List.length_pos_of_mem (List.mem_of_find?_eq_some found)) Nat.one_pos

section

variable {p : List Entry → Entry → Bool} {l : List Entry}

theorem deleteEach_none (none : l.find? (p l) = Option.none) : deleteEach p l = (l, []) := by
  rw [deleteEach]
  split
  next => rfl
  next some => cases none.symm.trans some

theorem deleteEach_some {e : Entry} (found : l.find? (p l) = some e) :
    deleteEach p l = ((deleteEach p (l.eraseP (p l))).1, e :: (deleteEach p (l.eraseP (p l))).2) := by
  rw [deleteEach]
  split
  next none => cases none.symm.trans found
  next some =>
    cases found.symm.trans some
    rfl

end

namespace AgpsStateMachine

variable (m : AgpsStateMachine)

def send (out : List Out) : AgpsStateMachine := { m with out := m.out ++ out }

def hasSubscribers : Bool := !m.mSubscribers.isEmpty

/-- The search for `BROADCAST_ACTIVE`. -/
def firstActive : Option Entry := m.mSubscribers.find? Group.active.has

def hasActiveSubscribers : Bool := m.firstActive.isSome

/-- The entry that a search for a subscriber finds. -/
def find (s : Subscriber) : Option Entry := m.mSubscribers.find? (·.s.equals s)

/-- `DSStateMachine::informStatus`. -/
def informStatus (entry : Option Nat) (status : AgpsRsrcStatus) (ID : BitVec 32) : AgpsStateMachine :=
  match status with
  | .unsubscribe => m.send [.client entry ID status (.atlCloseStatus ID)]
  | .released => m.send [.client entry ID status .closeDataCall]
  | .denied => { m.send [.client entry ID status (.requestATL ID)] with mRetries := 0 }
  | .granted => m.send [.client entry ID status (.atlOpenStatus ID true)]
  | .subscribe => m

/-- `notifyRsrcStatus` of a subscriber that the notification is for. -/
def notifyRsrcStatus (entry : Option Nat) (s : Subscriber) (status : AgpsRsrcStatus) :
    AgpsStateMachine :=
  if s.type = .DS then m.informStatus entry status s.ID
  else m.send ((s.calls status).map (.client entry s.ID status))

def notifyEach (status : AgpsRsrcStatus) (entries : List Entry) : AgpsStateMachine :=
  entries.foldl (fun m e => m.notifyRsrcStatus (some e.addr) e.s status) m

/-- `notifySubscribers` with a broadcast that keeps the subscribers. -/
def notifyGroup (group : Group) (status : AgpsRsrcStatus) : AgpsStateMachine :=
  m.notifyEach status (m.mSubscribers.filter group.has)

/-- `notifySubscribers` with `postNotifyDelete`. -/
def notifyDelete (p : List Entry → Entry → Bool) (status : AgpsRsrcStatus) : AgpsStateMachine :=
  let deleted := deleteEach p m.mSubscribers
  { m with mSubscribers := deleted.1 }.notifyEach status deleted.2

/-- Whether an entry equals the receiver of a notification, which is an entry itself: as long as it is
on the list. -/
def forReceiver (env : Environment) (rcver : Entry) (l : List Entry) (e : Entry) : Bool :=
  if l.any (·.addr = rcver.addr) then e.s.equals rcver.s else env.stale e.addr

def addSubscriber (env : Environment) (s : Subscriber) : AgpsStateMachine :=
  match m.find s with
  | some _ => m
  | none =>
    { m with
      mSubscribers := ⟨m.clones, s.clone env.bytes⟩ :: m.mSubscribers
      clones := m.clones + 1 }

/-- `setInactive`. A `DSSubscriber` informs its client as well. -/
def setInactive (e : Entry) : AgpsStateMachine :=
  let m := { m with
    mSubscribers := m.mSubscribers.map fun e' =>
      if e'.addr = e.addr then { e' with s := { e'.s with mIsInactive := true } } else e' }
  if e.s.type = .DS then m.informStatus (some e.addr) .unsubscribe e.s.ID else m

/-- `AgpsStateMachine::sendRsrcRequest`. -/
def sendToFramework (action : AGpsStatusValue) : AgpsStateMachine × Int :=
  if m.firstActive.isNone = decide (action = .releaseAgpsDataConn) then
    (m.send [.agpsCb action (m.firstActive.map (·.s))], 0)
  else (m, 0)

/-- `DSStateMachine::MAX_START_DATA_CALL_RETRIES`. -/
def maxStartDataCallRetries : UInt8 := 4

/-- `LOC_API_ADAPTER_ERR_SUCCESS`, `LOC_API_ADAPTER_ERR_UNSUPPORTED` and
`LOC_API_ADAPTER_ERR_ENGINE_BUSY`. -/
def errSuccess : Int := 0
def errUnsupported : Int := 2
def errEngineBusy : Int := 6

/-- `DSStateMachine::sendRsrcRequest`. Only the request to start a data call can fail. -/
def sendToDataServices (env : Environment) (action : AGpsStatusValue) : AgpsStateMachine × Int :=
  let entry := m.firstActive.map (·.addr)
  let connHandle := (m.firstActive.map (·.s.ID)).getD (BitVec.ofInt 32 (-1))
  let ret := if action = .requestAgpsDataConn then env.answer else 0
  let m := m.send [.requestRsrc action]
  if ret = errEngineBusy then
    let m := { m with mRetries := m.mRetries + 1 }
    if m.mRetries > maxStartDataCallRetries then (m.informStatus entry .denied connHandle, ret)
    -- The handle of a started timer is not null, and taken for a failure.
    else (m.send [.timerStart], if env.timer then -1 else ret)
  else if ret = errUnsupported then (m.informStatus entry .denied connHandle, ret)
  else if ret = errSuccess then (m, ret)
  else if ret = -1 then (m.informStatus entry .denied connHandle, ret)
  else (m, ret)

/-- The virtual `sendRsrcRequest`. -/
def sendRsrcRequest (env : Environment) (action : AGpsStatusValue) : AgpsStateMachine × Int :=
  if m.isDS then m.sendToDataServices env action else m.sendToFramework action

/-! ### The states -/

/-- An event with its `data`: a subscriber of the caller, an entry of the list. -/
inductive RsrcEvent
  | subscribe (s : Subscriber)
  | unsubscribe (e : Entry)
  | granted
  | released
  | denied

/-- `AgpsReleasedState::onRsrcEvent`. -/
def onReleased (env : Environment) : RsrcEvent → AgpsStateMachine × AgpsState
  | .subscribe s =>
    let sent := (m.addSubscriber env s).sendRsrcRequest env .requestAgpsDataConn
    (sent.1, if sent.2 = 0 then .pending else .released)
  | .unsubscribe e =>
    (if e.s.equals e.s then m.notifyRsrcStatus (some e.addr) e.s .unsubscribe else m, .released)
  | _ => (m, .released)

/-- What Pending, Acquired and Releasing do first to a subscriber that leaves. -/
def dropSubscriber (env : Environment) (e : Entry) : AgpsStateMachine :=
  if e.s.waitForCloseComplete then m.setInactive e
  else m.notifyDelete (forReceiver env e) .unsubscribe

/-- The exit of Pending and Acquired when no active subscriber is left. -/
def releaseIfUnused (env : Environment) (state : AgpsState) : AgpsStateMachine × AgpsState :=
  if !m.hasSubscribers then ((m.sendRsrcRequest env .releaseAgpsDataConn).1, .released)
  else if !m.hasActiveSubscribers then ((m.sendRsrcRequest env .releaseAgpsDataConn).1, .releasing)
  else (m, state)

/-- `AgpsPendingState::onRsrcEvent`. -/
def onPending (env : Environment) : RsrcEvent → AgpsStateMachine × AgpsState
  | .subscribe s => (m.addSubscriber env s, .pending)
  | .unsubscribe e => (m.dropSubscriber env e).releaseIfUnused env .pending
  | .granted => (m.notifyGroup .active .granted, .acquired)
  | .released => (m, .pending)
  | .denied => (m.notifyDelete (fun _ => Group.all.has) .denied, .released)

/-- `AgpsAcquiredState::onRsrcEvent`. -/
def onAcquired (env : Environment) : RsrcEvent → AgpsStateMachine × AgpsState
  | .subscribe s =>
    ((if s.equals s then m.notifyRsrcStatus none s .granted else m).addSubscriber env s, .acquired)
  | .unsubscribe e => (m.dropSubscriber env e).releaseIfUnused env .acquired
  | .granted => (m, .acquired)
  | .released => (m.notifyDelete (fun _ => Group.all.has) .released, .released)
  | .denied => (m, .acquired)

/-- The answer to a release: the inactive subscribers leave. -/
def finishRelease (env : Environment) (status : AgpsRsrcStatus) : AgpsStateMachine × AgpsState :=
  let m := m.notifyDelete (fun _ => Group.inactive.has) status
  if m.hasActiveSubscribers then ((m.sendRsrcRequest env .requestAgpsDataConn).1, .pending)
  else (m, .released)

/-- `AgpsReleasingState::onRsrcEvent`. -/
def onReleasing (env : Environment) : RsrcEvent → AgpsStateMachine × AgpsState
  | .subscribe s => (m.addSubscriber env s, .releasing)
  | .unsubscribe e =>
    let m := m.dropSubscriber env e
    (m, if m.hasSubscribers then .releasing else .released)
  | .denied => m.finishRelease env .denied
  | .released => m.finishRelease env .released
  | .granted => (m, .releasing)

/-- `mStatePtr = mStatePtr->onRsrcEvent(event, data)`. -/
def onState (env : Environment) (event : RsrcEvent) : AgpsStateMachine :=
  let next := match m.mStatePtr with
    | .released => m.onReleased env event
    | .pending => m.onPending env event
    | .acquired => m.onAcquired env event
    | .releasing => m.onReleasing env event
  { next.1 with mStatePtr := next.2 }

/-! ### The calls of a client -/

def subscribeRsrc (env : Environment) (s : Subscriber) : AgpsStateMachine :=
  if m.mEnforceSingleSubscriber && m.hasSubscribers then m.notifyRsrcStatus none s .denied
  else m.onState env (.subscribe s)

def unsubscribeRsrc (env : Environment) (s : Subscriber) : AgpsStateMachine × Bool :=
  match m.find s with
  | some e => (m.onState env (.unsubscribe e), true)
  | none => (m, false)

/-- The virtual `onRsrcEvent`: a `DSStateMachine` takes a release that changes nothing for a denial. -/
def onRsrcEvent (env : Environment) : AgpsRsrcStatus → AgpsStateMachine
  | .granted => m.onState env .granted
  | .released =>
    let next := m.onState env .released
    if m.isDS && next.mStatePtr = m.mStatePtr then next.onState env .denied else next
  | .denied => m.onState env .denied
  | _ => m

/-- `DSStateMachine::retryCallback`. -/
def retryCallback : AgpsStateMachine :=
  match m.firstActive with
  | some e => m.send [.requestSuplES e.s.ID]
  | none => m

end AgpsStateMachine

inductive Event
  | subscribeRsrc (s : Subscriber)
  | unsubscribeRsrc (s : Subscriber)
  | onRsrcEvent (event : AgpsRsrcStatus)
  | retryCallback

def handle (m : AgpsStateMachine) (env : Environment) : Event → AgpsStateMachine
  | .subscribeRsrc s => m.subscribeRsrc env s
  | .unsubscribeRsrc s => (m.unsubscribeRsrc env s).1
  | .onRsrcEvent event => m.onRsrcEvent env event
  | .retryCallback => m.retryCallback

/-- One event; `out` is what it sends. -/
def step (m : AgpsStateMachine) (at_ : Event × Environment) : AgpsStateMachine :=
  handle { m with out := [] } at_.2 at_.1

end Hima.Agps
