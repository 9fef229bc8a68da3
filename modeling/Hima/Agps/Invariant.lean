import Hima.Agps.StateMachine
import Hima.Lib.Runs

/-!
# What the states say of the list

Released means that no one is on the list, Pending and Acquired that someone active is, Releasing
that someone is. The framework hears of every change that concerns it, once.
-/
namespace Hima.Agps

/-- What goes to the framework and to the data services. -/
def outward (out : List Out) : List Out :=
  out.filter fun
    | .agpsCb _ _ => true
    | .requestRsrc _ => true
    | _ => false

/-- The actions asked of the framework. -/
def toFramework (out : List Out) : List AGpsStatusValue :=
  (outward out).filterMap fun
    | .agpsCb action _ => some action
    | _ => none

theorem outward_append (out out' : List Out) : outward (out ++ out') = outward out ++ outward out' :=
  List.filter_append ..

theorem toFramework_append (out out' : List Out) :
    toFramework (out ++ out') = toFramework out ++ toFramework out' := by
  rw [toFramework, outward_append]
  exact List.filterMap_append

namespace AgpsStateMachine

variable {m m' m'' : AgpsStateMachine} {env : Environment} {s : Subscriber} {e : Entry}

/-- What a change of the list and telling clients leave alone. -/
structure Quiet (m m' : AgpsStateMachine) : Prop where
  isDS : m'.isDS = m.isDS
  enforce : m'.mEnforceSingleSubscriber = m.mEnforceSingleSubscriber
  state : m'.mStatePtr = m.mStatePtr
  outside : outward m'.out = outward m.out

/-- What telling clients leaves alone. -/
structure Frame (m m' : AgpsStateMachine) : Prop extends Quiet m m' where
  subscribers : m'.mSubscribers = m.mSubscribers
  clones : m'.clones = m.clones

theorem Quiet.framework (quiet : Quiet m m') : toFramework m'.out = toFramework m.out := by
  rw [toFramework, toFramework, quiet.outside]

theorem Quiet.refl (m : AgpsStateMachine) : Quiet m m := ⟨rfl, rfl, rfl, rfl⟩

theorem Quiet.trans (first : Quiet m m') (second : Quiet m' m'') : Quiet m m'' where
  isDS := second.isDS.trans first.isDS
  enforce := second.enforce.trans first.enforce
  state := second.state.trans first.state
  outside := second.outside.trans first.outside

theorem Frame.refl (m : AgpsStateMachine) : Frame m m := ⟨.refl m, rfl, rfl⟩

theorem Frame.trans (first : Frame m m') (second : Frame m' m'') : Frame m m'' where
  toQuiet := first.toQuiet.trans second.toQuiet
  subscribers := second.subscribers.trans first.subscribers
  clones := second.clones.trans first.clones

theorem frame_send {out : List Out} (quiet : outward out = []) : Frame m (m.send out) where
  isDS := rfl
  enforce := rfl
  state := rfl
  subscribers := rfl
  clones := rfl
  outside := by rw [send, outward_append, quiet, List.append_nil]

theorem frame_informStatus (m : AgpsStateMachine) (entry : Option Nat) (status : AgpsRsrcStatus)
    (ID : BitVec 32) : Frame m (m.informStatus entry status ID) := by
  cases status with
  | subscribe => exact .refl m
  | unsubscribe => exact frame_send rfl
  | granted => exact frame_send rfl
  | released => exact frame_send rfl
  | denied =>
    obtain ⟨⟨isDS, enforce, state, outside⟩, subscribers, clones⟩ :=
      @frame_send m [.client entry ID .denied (.requestATL ID)] rfl
    exact ⟨⟨isDS, enforce, state, outside⟩, subscribers, clones⟩

theorem frame_notifyRsrcStatus (m : AgpsStateMachine) (entry : Option Nat) (s : Subscriber)
    (status : AgpsRsrcStatus) : Frame m (m.notifyRsrcStatus entry s status) := by
  rw [notifyRsrcStatus]
  split
  · exact frame_informStatus m entry status s.ID
  · apply frame_send
    rw [outward, List.filter_eq_nil_iff]
    intro out member
    obtain ⟨call, _, rfl⟩ := List.mem_map.mp member
    exact Bool.false_ne_true

theorem frame_notifyEach (m : AgpsStateMachine) (status : AgpsRsrcStatus) (entries : List Entry) :
    Frame m (m.notifyEach status entries) := by
  induction entries generalizing m with
  | nil => exact .refl m
  | cons e entries ih => exact (frame_notifyRsrcStatus m _ e.s status).trans (ih _)

/-! ### The list -/

theorem hasSubscribers_iff : m.hasSubscribers = true ↔ m.mSubscribers ≠ [] := by
  simp [hasSubscribers]

theorem hasActiveSubscribers_iff :
    m.hasActiveSubscribers = true ↔ ∃ e ∈ m.mSubscribers, e.s.isInactive = false := by
  simp [hasActiveSubscribers, firstActive, Group.has]

theorem hasActive_congr (same : m'.mSubscribers = m.mSubscribers) :
    m'.hasActiveSubscribers = m.hasActiveSubscribers := by
  rw [hasActiveSubscribers, hasActiveSubscribers, firstActive, firstActive, same]

/-- What a broadcast deletes does not depend on the list. -/
theorem deleteEach_group (q : Entry → Bool) (l : List Entry) :
    (deleteEach (fun _ => q) l).1 = l.filter fun e => !q e := by
  induction l using deleteEach.induct (fun _ => q) with
  | case1 l none =>
    rw [deleteEach_none none]
    have keeps := List.find?_eq_none.mp none
    exact (List.filter_eq_self.mpr fun e member => by simpa using keeps e member).symm
  | case2 l e found ih =>
    rw [deleteEach_some found, ih]
    obtain ⟨q_e, before, after, rfl, first⟩ := List.find?_eq_some_iff_append.mp found
    have keeps : ∀ e' ∈ before, ¬ q e' = true := fun e' member => by simpa using first e' member
    rw [List.eraseP_append_right _ keeps, List.eraseP_cons_of_pos q_e, List.filter_append,
      List.filter_append, List.filter_cons_of_neg (by simpa using q_e)]

theorem frame_notifyDelete (m : AgpsStateMachine) (p : List Entry → Entry → Bool) (status : AgpsRsrcStatus) :
    Frame { m with mSubscribers := (deleteEach p m.mSubscribers).1 } (m.notifyDelete p status) :=
  frame_notifyEach _ status _

/-- A subscriber that is new on the list is active. -/
theorem isInactive_clone (s : Subscriber) (bytes : List UInt8) : (s.clone bytes).isInactive = false := by
  obtain ⟨type, ID, addr, inactive⟩ := s
  cases type <;> rfl

/-- The subscribers that were active are so after one came. -/
theorem mem_addSubscriber (env : Environment) (s : Subscriber) (member : e ∈ m.mSubscribers) :
    e ∈ (m.addSubscriber env s).mSubscribers := by
  rw [addSubscriber]
  split
  · exact member
  · exact List.mem_cons_of_mem _ member

theorem quiet_addSubscriber (m : AgpsStateMachine) (env : Environment) (s : Subscriber) :
    Quiet m (m.addSubscriber env s) := by
  rw [addSubscriber]
  split
  · exact .refl m
  · exact ⟨rfl, rfl, rfl, rfl⟩

theorem quiet_notifyDelete (m : AgpsStateMachine) (p : List Entry → Entry → Bool)
    (status : AgpsRsrcStatus) : Quiet m (m.notifyDelete p status) :=
  have frame := frame_notifyDelete m p status
  ⟨frame.isDS, frame.enforce, frame.state, frame.outside⟩

theorem quiet_dropSubscriber (m : AgpsStateMachine) (env : Environment) (e : Entry) :
    Quiet m (m.dropSubscriber env e) := by
  rw [dropSubscriber]
  split
  · rw [setInactive]
    split
    · refine Quiet.trans ?_ (frame_informStatus _ _ .unsubscribe e.s.ID).toQuiet
      exact ⟨rfl, rfl, rfl, rfl⟩
    · exact ⟨rfl, rfl, rfl, rfl⟩
  · exact quiet_notifyDelete m _ _

/-- A request to the outside leaves the list alone. -/
theorem subscribers_sendRsrcRequest (m : AgpsStateMachine) (env : Environment)
    (action : AGpsStatusValue) : (m.sendRsrcRequest env action).1.mSubscribers = m.mSubscribers := by
  rw [sendRsrcRequest]
  split
  · rw [sendToDataServices]
    dsimp only
    generalize (if action = .requestAgpsDataConn then env.answer else 0) = ret
    split
    · split
      · exact (frame_informStatus _ _ .denied _).subscribers
      · rfl
    · split
      · exact (frame_informStatus _ _ .denied _).subscribers
      · split
        · rfl
        · split
          · exact (frame_informStatus _ _ .denied _).subscribers
          · rfl
  · rw [sendToFramework]
    split <;> rfl

theorem notifyDelete_all (m : AgpsStateMachine) (status : AgpsRsrcStatus) :
    (m.notifyDelete (fun _ => Group.all.has) status).mSubscribers = [] := by
  rw [(frame_notifyDelete m _ status).subscribers]
  rw [deleteEach_group]
  simp [Group.has]

theorem mem_notifyDelete_inactive {status : AgpsRsrcStatus} :
    e ∈ (m.notifyDelete (fun _ => Group.inactive.has) status).mSubscribers ↔
      e ∈ m.mSubscribers ∧ e.s.isInactive = false := by
  rw [(frame_notifyDelete m _ status).subscribers]
  rw [deleteEach_group, List.mem_filter]
  simp [Group.has]

theorem hasActive_addSubscriber (env : Environment) (s : Subscriber)
    (active : m.hasActiveSubscribers = true) : (m.addSubscriber env s).hasActiveSubscribers = true := by
  obtain ⟨e, member, isActive⟩ := hasActiveSubscribers_iff.mp active
  exact hasActiveSubscribers_iff.mpr ⟨e, mem_addSubscriber env s member, isActive⟩

/-! ### The invariant -/

/-- The list fits the state. -/
def ListFits (m : AgpsStateMachine) : Prop :=
  match m.mStatePtr with
  | .released => m.mSubscribers = []
  | .pending => m.hasActiveSubscribers = true
  | .acquired => m.hasActiveSubscribers = true
  | .releasing => m.mSubscribers ≠ []

/-- The list fits the state that `onRsrcEvent` of a state object returns. -/
def Fits (next : AgpsStateMachine × AgpsState) : Prop :=
  ListFits { next.1 with mStatePtr := next.2 }

theorem fits_releaseIfUnused {state : AgpsState} (used : state = .pending ∨ state = .acquired) :
    Fits (m.releaseIfUnused env state) := by
  rw [releaseIfUnused]
  have same := subscribers_sendRsrcRequest m env .releaseAgpsDataConn
  cases some : m.hasSubscribers with
  | false =>
    have empty : m.mSubscribers = [] := by simpa [hasSubscribers] using some
    exact same.trans empty
  | true =>
    rw [if_neg (by simp)]
    cases active : m.hasActiveSubscribers with
    | false => exact same.trans_ne (hasSubscribers_iff.mp some)
    | true =>
      rcases used with rfl | rfl
      · exact active
      · exact active

theorem active_addSubscriber (env : Environment) (empty : m.mSubscribers = []) (s : Subscriber) :
    (m.addSubscriber env s).hasActiveSubscribers = true := by
  have added : (m.addSubscriber env s).mSubscribers = [⟨m.clones, s.clone env.bytes⟩] := by
    rw [addSubscriber, find, empty]
    rfl
  exact hasActiveSubscribers_iff.mpr ⟨_, added ▸ List.mem_singleton_self _, isInactive_clone s _⟩

/-- In Released everything depends on whether the request for the connection is sent. -/
theorem fits_onReleased (empty : m.mSubscribers = []) (event : RsrcEvent) (sent : ∀ s, event = .subscribe s →
      ((m.addSubscriber env s).sendRsrcRequest env .requestAgpsDataConn).2 = 0) :
    Fits (m.onReleased env event) := by
  cases event with
  | subscribe s =>
    have active := active_addSubscriber env empty s
    rw [onReleased, sent s rfl]
    exact (hasActive_congr (subscribers_sendRsrcRequest _ env _)).trans active
  | unsubscribe e =>
    rw [onReleased]
    split
    · exact (frame_notifyRsrcStatus m _ e.s .unsubscribe).subscribers.trans empty
    · exact empty
  | granted => exact empty
  | released => exact empty
  | denied => exact empty

theorem fits_onPending (active : m.hasActiveSubscribers = true) (event : RsrcEvent) :
    Fits (m.onPending env event) := by
  cases event with
  | subscribe s => exact hasActive_addSubscriber env s active
  | unsubscribe e => exact fits_releaseIfUnused (.inl rfl)
  | granted => exact (hasActive_congr (frame_notifyEach m .granted _).subscribers).trans active
  | released => exact active
  | denied => exact notifyDelete_all m .denied

theorem fits_onAcquired (active : m.hasActiveSubscribers = true) (event : RsrcEvent) :
    Fits (m.onAcquired env event) := by
  cases event with
  | subscribe s =>
    apply hasActive_addSubscriber env s
    split
    · exact (hasActive_congr (frame_notifyRsrcStatus m none s .granted).subscribers).trans active
    · exact active
  | unsubscribe e => exact fits_releaseIfUnused (.inr rfl)
  | granted => exact active
  | released => exact notifyDelete_all m .released
  | denied => exact active

/-- Whoever subscribed while the machine was releasing keeps it busy. -/
theorem fits_finishRelease (status : AgpsRsrcStatus) : Fits (m.finishRelease env status) := by
  rw [finishRelease]
  cases active : (m.notifyDelete (fun _ => Group.inactive.has) status).hasActiveSubscribers with
  | true => exact (hasActive_congr (subscribers_sendRsrcRequest _ env _)).trans active
  | false =>
    apply List.eq_nil_iff_forall_not_mem.mpr
    intro e member
    have some := hasActiveSubscribers_iff.mpr ⟨e, member, (mem_notifyDelete_inactive.mp member).2⟩
    exact Bool.noConfusion (active.symm.trans some)

theorem fits_onReleasing (nonempty : m.mSubscribers ≠ []) (event : RsrcEvent) :
    Fits (m.onReleasing env event) := by
  cases event with
  | subscribe s =>
    obtain ⟨e, member⟩ := List.exists_mem_of_ne_nil _ nonempty
    exact List.ne_nil_of_mem (mem_addSubscriber env s member)
  | unsubscribe e =>
    rw [onReleasing]
    cases some : (m.dropSubscriber env e).hasSubscribers with
    | true => exact hasSubscribers_iff.mp some
    | false => exact (by simpa [hasSubscribers] using some : (m.dropSubscriber env e).mSubscribers = [])
  | granted => exact nonempty
  | released => exact fits_finishRelease .released
  | denied => exact fits_finishRelease .denied

theorem listFits_onState (fits : ListFits m) (event : RsrcEvent)
    (sent : ∀ s, m.mStatePtr = .released → event = .subscribe s →
      ((m.addSubscriber env s).sendRsrcRequest env .requestAgpsDataConn).2 = 0) :
    ListFits (m.onState env event) := by
  unfold ListFits at fits
  rw [onState]
  cases at_ : m.mStatePtr with
  | released =>
    rw [at_] at fits
    exact fits_onReleased fits event fun s => sent s at_
  | pending =>
    rw [at_] at fits
    exact fits_onPending fits event
  | acquired =>
    rw [at_] at fits
    exact fits_onAcquired fits event
  | releasing =>
    rw [at_] at fits
    exact fits_onReleasing fits event

theorem Frame.listFits (frame : Frame m m') (fits : ListFits m) : ListFits m' := by
  unfold ListFits at fits ⊢
  rw [frame.state, frame.subscribers, hasActive_congr frame.subscribers]
  exact fits

/-- What every action of a state object keeps, an event keeps. -/
theorem onState_preserves (P : AgpsStateMachine → Prop)
    (state : ∀ m state, P m → P { m with mStatePtr := state })
    (notify : ∀ m entry s status, P m → P (notifyRsrcStatus m entry s status))
    (add : ∀ m s, P m → P (addSubscriber m env s))
    (drop : ∀ m e, P m → P (dropSubscriber m env e))
    (delete : ∀ m p status, P m → P (notifyDelete m p status))
    (request : ∀ m action, P m → P (sendRsrcRequest m env action).1)
    (before : P m) (event : RsrcEvent) : P (m.onState env event) := by
  -- the parts that are made of several actions
  have group : ∀ m status entries, P m → P (notifyEach m status entries) := by
    intro m status entries
    induction entries generalizing m with
    | nil => exact id
    | cons e entries ih => exact fun before => ih _ (notify m _ e.s status before)
  have release : ∀ m next, P m → P (releaseIfUnused m env next).1 := by
    intro m next before
    rw [releaseIfUnused]
    split
    · exact request m _ before
    · split
      · exact request m _ before
      · exact before
  have finish : ∀ status, P (m.finishRelease env status).1 := by
    intro status
    have left := delete m (fun _ => Group.inactive.has) status before
    rw [finishRelease]
    split
    · exact request _ _ left
    · exact left
  apply state
  -- then state by state what an event does
  cases m.mStatePtr with
  | released =>
    cases event with
    | subscribe s => exact request _ _ (add m s before)
    | unsubscribe e =>
      change P (if _ then _ else _)
      split
      · exact notify m _ e.s .unsubscribe before
      · exact before
    | granted => exact before
    | released => exact before
    | denied => exact before
  | pending =>
    cases event with
    | subscribe s => exact add m s before
    | unsubscribe e => exact release _ .pending (drop m e before)
    | granted => exact group m .granted _ before
    | released => exact before
    | denied => exact delete m _ .denied before
  | acquired =>
    cases event with
    | subscribe s =>
      apply add
      split
      · exact notify m none s .granted before
      · exact before
    | unsubscribe e => exact release _ .acquired (drop m e before)
    | granted => exact before
    | released => exact delete m _ .released before
    | denied => exact before
  | releasing =>
    cases event with
    | subscribe s => exact add m s before
    | unsubscribe e => exact drop m e before
    | granted => exact before
    | released => exact finish .released
    | denied => exact finish .denied

/-! ### What the framework hears -/

/-- `AgpsStateMachine::sendRsrcRequest` asks for the connection for someone active only, and gives it
up only when no one is. -/
theorem sendRsrcRequest_framework (base : m.isDS = false) (action : AGpsStatusValue)
    (fits : m.hasActiveSubscribers = decide (action = .requestAgpsDataConn)) :
    (m.sendRsrcRequest env action).2 = 0 ∧ (m.sendRsrcRequest env action).1.isDS = m.isDS ∧
      toFramework (m.sendRsrcRequest env action).1.out = toFramework m.out ++ [action] := by
  have sends : m.firstActive.isNone = decide (action = .releaseAgpsDataConn) := by
    rw [hasActiveSubscribers] at fits
    rw [← Option.not_isSome, fits]
    cases action <;> rfl
  rw [sendRsrcRequest, base, if_neg Bool.false_ne_true, sendToFramework, if_pos sends]
  refine ⟨rfl, base, ?_⟩
  rw [send, toFramework_append]
  rfl

theorem sendRsrcRequest_base (base : m.isDS = false) (action : AGpsStatusValue) :
    (m.sendRsrcRequest env action).2 = 0 := by
  rw [sendRsrcRequest, base, if_neg Bool.false_ne_true, sendToFramework]
  split <;> rfl

/-- When the framework is to hear what: a request when Pending is entered, a release when an
unsubscription leaves Pending or Acquired without an active subscriber. -/
structure Answer (unsubscribes : Prop) (state : AgpsState) (m' : AgpsStateMachine)
    (sent : List AGpsStatusValue) : Prop where
  request : sent = [.requestAgpsDataConn] ↔ state ≠ .pending ∧ m'.mStatePtr = .pending
  release : sent = [.releaseAgpsDataConn] ↔ unsubscribes ∧ (state = .pending ∨ state = .acquired) ∧
    m'.hasActiveSubscribers = false ∧ (m'.mStatePtr = .released ∨ m'.mStatePtr = .releasing)
  only : sent = [] ∨ sent = [.requestAgpsDataConn] ∨ sent = [.releaseAgpsDataConn]

def RsrcEvent.unsubscribes : RsrcEvent → Prop
  | .unsubscribe _ => True
  | _ => False

/-- `onRsrcEvent` of a state object: what the framework hears of it. -/
def Told (m : AgpsStateMachine) (event : RsrcEvent) (next : AgpsStateMachine × AgpsState) : Prop :=
  next.1.isDS = m.isDS ∧ ∃ sent, toFramework next.1.out = toFramework m.out ++ sent ∧
    Answer event.unsubscribes m.mStatePtr { next.1 with mStatePtr := next.2 } sent

/-- A transition of which the framework hears nothing. -/
theorem Quiet.told (quiet : Quiet m m') {event : RsrcEvent} {state : AgpsState}
    (stays : state = .pending → m.mStatePtr = .pending)
    (other : event.unsubscribes → m.mStatePtr = .released ∨ m.mStatePtr = .releasing) :
    Told m event (m', state) := by
  refine ⟨quiet.isDS, [], by rw [quiet.framework, List.append_nil], ⟨?_, ?_, .inl rfl⟩⟩
  · refine iff_of_false (by simp) ?_
    rintro ⟨entered, rfl⟩
    exact entered (stays rfl)
  · refine iff_of_false (by simp) ?_
    rintro ⟨unsubscribes, used, _⟩
    rcases other unsubscribes with at_ | at_ <;> simp [at_] at used

section

variable (base : m.isDS = false)
include base

/-- A transition into Pending. -/
theorem told_request (quiet : Quiet m m') (active : m'.hasActiveSubscribers = true) {event : RsrcEvent}
    (entered : m.mStatePtr ≠ .pending) (other : ¬ event.unsubscribes) :
    Told m event ((m'.sendRsrcRequest env .requestAgpsDataConn).1, .pending) := by
  obtain ⟨_, isDS, framework⟩ :=
    @sendRsrcRequest_framework _ env (quiet.isDS.trans base) .requestAgpsDataConn active
  refine ⟨isDS.trans quiet.isDS, [.requestAgpsDataConn], quiet.framework ▸ framework, ⟨?_, ?_, .inr (.inl rfl)⟩⟩
  · exact iff_of_true rfl ⟨entered, rfl⟩
  · exact iff_of_false (by simp) fun leaves => other leaves.1

/-- A transition out of Pending or Acquired by an unsubscription. -/
theorem told_release (quiet : Quiet m m')
    (inactive : m'.hasActiveSubscribers = false) (used : m.mStatePtr = .pending ∨ m.mStatePtr = .acquired)
    {state : AgpsState} (left : state = .released ∨ state = .releasing) (e : Entry) :
    Told m (.unsubscribe e) ((m'.sendRsrcRequest env .releaseAgpsDataConn).1, state) := by
  obtain ⟨_, isDS, framework⟩ :=
    @sendRsrcRequest_framework _ env (quiet.isDS.trans base) .releaseAgpsDataConn inactive
  refine ⟨isDS.trans quiet.isDS, [.releaseAgpsDataConn], quiet.framework ▸ framework, ⟨?_, ?_, .inr (.inr rfl)⟩⟩
  · refine iff_of_false (by simp) ?_
    rintro ⟨_, rfl⟩
    rcases left with left | left <;> cases left
  · exact iff_of_true rfl ⟨trivial, used,
      (hasActive_congr (subscribers_sendRsrcRequest m' env _)).trans inactive, left⟩

theorem told_unsubscribe (used : m.mStatePtr = .pending ∨ m.mStatePtr = .acquired) (e : Entry) :
    Told m (.unsubscribe e) ((m.dropSubscriber env e).releaseIfUnused env m.mStatePtr) := by
  have quiet := quiet_dropSubscriber m env e
  rw [releaseIfUnused]
  cases active : (m.dropSubscriber env e).hasActiveSubscribers with
  | false =>
    cases (m.dropSubscriber env e).hasSubscribers with
    | false => exact told_release base quiet active used (.inl rfl) e
    | true => exact told_release base quiet active used (.inr rfl) e
  | true =>
    obtain ⟨e', member, _⟩ := hasActiveSubscribers_iff.mp active
    have some := hasSubscribers_iff.mpr (List.ne_nil_of_mem member)
    rw [some]
    refine ⟨quiet.isDS, [], by rw [List.append_nil]; exact quiet.framework, ⟨?_, ?_, .inl rfl⟩⟩
    · exact iff_of_false (by simp) fun entered => entered.1 entered.2
    · refine iff_of_false (by simp) ?_
      rintro ⟨_, _, none, _⟩
      exact Bool.noConfusion (active.symm.trans none)

theorem told_onReleased (at_ : m.mStatePtr = .released)
    (empty : m.mSubscribers = []) (event : RsrcEvent) : Told m event (m.onReleased env event) := by
  cases event with
  | subscribe s =>
    have active := active_addSubscriber env empty s
    have quiet := quiet_addSubscriber m env s
    rw [onReleased, sendRsrcRequest_base (quiet.isDS.trans base)]
    exact told_request base quiet active (by simp [at_]) not_false
  | unsubscribe e =>
    rw [onReleased]
    split
    · exact (frame_notifyRsrcStatus m _ e.s .unsubscribe).toQuiet.told (fun h => by cases h) fun _ => .inl at_
    · exact (Quiet.refl m).told (fun h => by cases h) fun _ => .inl at_
  | granted => exact (Quiet.refl m).told (fun h => by cases h) not_false.elim
  | released => exact (Quiet.refl m).told (fun h => by cases h) not_false.elim
  | denied => exact (Quiet.refl m).told (fun h => by cases h) not_false.elim

theorem told_onPending (at_ : m.mStatePtr = .pending) (event : RsrcEvent) :
    Told m event (m.onPending env event) := by
  cases event with
  | subscribe s => exact (quiet_addSubscriber m env s).told (fun _ => at_) not_false.elim
  | unsubscribe e =>
    rw [onPending, ← at_]
    exact told_unsubscribe base (.inl at_) e
  | granted =>
    exact (frame_notifyEach m .granted _).toQuiet.told (fun h => by cases h) not_false.elim
  | released => exact (Quiet.refl m).told (fun _ => at_) not_false.elim
  | denied => exact (quiet_notifyDelete m _ .denied).told (fun h => by cases h) not_false.elim

theorem told_onAcquired (at_ : m.mStatePtr = .acquired) (event : RsrcEvent) :
    Told m event (m.onAcquired env event) := by
  cases event with
  | subscribe s =>
    have granted : Frame m (if s.equals s then m.notifyRsrcStatus none s .granted else m) := by
      split
      · exact frame_notifyRsrcStatus m none s .granted
      · exact .refl m
    exact (granted.toQuiet.trans (quiet_addSubscriber _ env s)).told (fun h => by cases h) not_false.elim
  | unsubscribe e =>
    rw [onAcquired, ← at_]
    exact told_unsubscribe base (.inr at_) e
  | granted => exact (Quiet.refl m).told (fun h => by cases h) not_false.elim
  | released => exact (quiet_notifyDelete m _ .released).told (fun h => by cases h) not_false.elim
  | denied => exact (Quiet.refl m).told (fun h => by cases h) not_false.elim

theorem told_finishRelease (at_ : m.mStatePtr = .releasing)
    {event : RsrcEvent} (other : ¬ event.unsubscribes) (status : AgpsRsrcStatus) :
    Told m event (m.finishRelease env status) := by
  have quiet := quiet_notifyDelete m (fun _ => Group.inactive.has) status
  rw [finishRelease]
  cases active : (m.notifyDelete (fun _ => Group.inactive.has) status).hasActiveSubscribers with
  | true => exact told_request base quiet active (by simp [at_]) other
  | false => exact quiet.told (fun h => by cases h) fun _ => .inr at_

theorem told_onReleasing (at_ : m.mStatePtr = .releasing)
    (event : RsrcEvent) : Told m event (m.onReleasing env event) := by
  cases event with
  | subscribe s => exact (quiet_addSubscriber m env s).told (fun h => by cases h) not_false.elim
  | unsubscribe e =>
    refine (quiet_dropSubscriber m env e).told (fun h => ?_) fun _ => .inr at_
    split at h <;> cases h
  | granted => exact (Quiet.refl m).told (fun h => by cases h) not_false.elim
  | released => exact @told_finishRelease _ _ base at_ .released not_false .released
  | denied => exact @told_finishRelease _ _ base at_ .denied not_false .denied

end

/-- The event of a step keeps the invariant and tells the framework what it is to hear. -/
structure Kept (unsubscribes : Prop) (m m' : AgpsStateMachine) (before : List AGpsStatusValue) : Prop where
  isDS : m'.isDS = m.isDS
  fits : ListFits m'
  answer : ∃ sent, toFramework m'.out = before ++ sent ∧ Answer unsubscribes m.mStatePtr m' sent

theorem kept_onState (base : m.isDS = false) (fits : ListFits m) (event : RsrcEvent) :
    Kept event.unsubscribes m (m.onState env event) (toFramework m.out) := by
  have fits' := @listFits_onState _ env fits event fun s _ _ =>
    sendRsrcRequest_base ((quiet_addSubscriber m env s).isDS.trans base) .requestAgpsDataConn
  have told : ∀ next, Told m event next → ListFits { next.1 with mStatePtr := next.2 } →
      Kept event.unsubscribes m { next.1 with mStatePtr := next.2 } (toFramework m.out) :=
    fun _ told fits => ⟨told.1, fits, told.2⟩
  rw [onState] at fits' ⊢
  cases at_ : m.mStatePtr with
  | released =>
    rw [at_] at fits'
    exact told _ (told_onReleased base at_ (by simpa only [ListFits, at_] using fits) event) fits'
  | pending =>
    rw [at_] at fits'
    exact told _ (told_onPending base at_ event) fits'
  | acquired =>
    rw [at_] at fits'
    exact told _ (told_onAcquired base at_ event) fits'
  | releasing =>
    rw [at_] at fits'
    exact told _ (told_onReleasing base at_ event) fits'

/-- An event that only tells clients something. -/
theorem Frame.kept (frame : Frame m m') (fits : ListFits m) (unsubscribes : Prop) :
    Kept unsubscribes m m' (toFramework m.out) := by
  refine ⟨frame.isDS, frame.listFits fits, [], by rw [frame.framework, List.append_nil], ⟨?_, ?_, .inl rfl⟩⟩
  · refine iff_of_false (by simp) ?_
    rintro ⟨entered, pending⟩
    exact entered (frame.state.symm.trans pending)
  · refine iff_of_false (by simp) ?_
    rintro ⟨_, used, _, left⟩
    rw [frame.state] at left
    rcases used with used | used <;> simp [used] at left

end AgpsStateMachine

open AgpsStateMachine

def Event.unsubscribes : Event → Prop
  | .unsubscribeRsrc _ => True
  | _ => False

theorem kept_handle {m : AgpsStateMachine} (base : m.isDS = false) (fits : ListFits m) (env : Environment)
    (event : Event) : Kept event.unsubscribes m (handle m env event) (toFramework m.out) := by
  cases event with
  | subscribeRsrc s =>
    rw [handle, subscribeRsrc]
    split
    · exact (frame_notifyRsrcStatus m none s .denied).kept fits False
    · exact kept_onState base fits (.subscribe s)
  | unsubscribeRsrc s =>
    rw [handle, unsubscribeRsrc]
    cases found : m.find s with
    | some e => exact kept_onState base fits (.unsubscribe e)
    | none => exact (Frame.refl m).kept fits True
  | onRsrcEvent status =>
    rw [handle]
    cases status with
    | granted => exact kept_onState base fits .granted
    | released =>
      rw [onRsrcEvent, base, Bool.false_and, if_neg Bool.false_ne_true]
      exact kept_onState base fits .released
    | denied => exact kept_onState base fits .denied
    | subscribe => exact (Frame.refl m).kept fits False
    | unsubscribe => exact (Frame.refl m).kept fits False
  | retryCallback =>
    rw [handle, retryCallback]
    split
    · exact (frame_send rfl).kept fits False
    · exact (Frame.refl m).kept fits False

theorem kept_step {m : AgpsStateMachine} (base : m.isDS = false) (fits : ListFits m)
    (at_ : Event × Environment) : Kept at_.1.unsubscribes m (step m at_) [] :=
  have kept := kept_handle (m := { m with out := [] }) base fits at_.2 at_.1
  ⟨kept.isDS, kept.fits, kept.answer⟩

/-- A machine after some events. -/
def run (m : AgpsStateMachine) (events : List (Event × Environment)) : AgpsStateMachine :=
  events.foldl step m

theorem listFits_run {m : AgpsStateMachine} (base : m.isDS = false) (fits : ListFits m)
    (events : List (Event × Environment)) : (run m events).isDS = false ∧ ListFits (run m events) := by
  induction events generalizing m with
  | nil => exact ⟨base, fits⟩
  | cons event events ih =>
    have kept := kept_step base fits event
    exact ih (kept.isDS.trans base) kept.fits

/-- In every state that a machine for the framework reaches, the list fits the state; of the next
event the framework hears a request exactly when it enters Pending, and a release exactly when an
unsubscription takes it out of Pending or Acquired because no active subscriber is left. -/
theorem agps_machine_keeps_list (enforceSingleSubscriber : Bool) (events : List (Event × Environment))
    (event : Event) (env : Environment) :
    let m := run { isDS := false, mEnforceSingleSubscriber := enforceSingleSubscriber } events
    let m' := step m (event, env)
    (m.mStatePtr = .released → m.mSubscribers = []) ∧
    (m.mStatePtr = .pending ∨ m.mStatePtr = .acquired → m.hasActiveSubscribers = true) ∧
    (m.mStatePtr = .releasing → m.mSubscribers ≠ []) ∧
    (toFramework m'.out = [.requestAgpsDataConn] ↔
      m.mStatePtr ≠ .pending ∧ m'.mStatePtr = .pending) ∧
    (toFramework m'.out = [.releaseAgpsDataConn] ↔
      event.unsubscribes ∧ (m.mStatePtr = .pending ∨ m.mStatePtr = .acquired) ∧
        m'.hasActiveSubscribers = false ∧
        (m'.mStatePtr = .released ∨ m'.mStatePtr = .releasing)) ∧
    (toFramework m'.out = [] ∨ toFramework m'.out = [.requestAgpsDataConn] ∨
      toFramework m'.out = [.releaseAgpsDataConn]) := by
  intro m m'
  obtain ⟨base, fits⟩ := listFits_run (m := { isDS := false, mEnforceSingleSubscriber := enforceSingleSubscriber })
    rfl rfl events
  obtain ⟨_, _, sent, told, answer⟩ := kept_step base fits (event, env)
  unfold ListFits at fits
  refine ⟨?_, ?_, ?_, told ▸ answer.request, told ▸ answer.release, told ▸ answer.only⟩
  · intro at_
    rwa [at_] at fits
  · rintro (at_ | at_)
    · rwa [at_] at fits
    · rwa [at_] at fits
  · intro at_
    rwa [at_] at fits

end Hima.Agps
