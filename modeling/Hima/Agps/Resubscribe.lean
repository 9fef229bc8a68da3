import Hima.Agps.Invariant

/-!
# Subscribing again

`addSubscriber` leaves the list alone when an equal subscriber is on it, be it active or not. A
client that unsubscribed and waits for the close is on the list as inactive: its new subscription is
lost.
-/
namespace Hima.Agps

namespace Subscriber

theorem equals_self (s : Subscriber) : s.equals s = true := by
  obtain ⟨type, ID, addr, inactive⟩ := s
  cases type <;> simp [equals, sameAddr]

theorem equals_clone (s : Subscriber) (bytes : List UInt8) : (s.clone bytes).equals s = true := by
  obtain ⟨type, ID, addr, inactive⟩ := s
  cases type <;> simp [clone, equals, sameAddr]

end Subscriber

namespace AgpsStateMachine

variable {m m' : AgpsStateMachine} {env : Environment} {s : Subscriber} {e : Entry}

/-- The client with an identifier was told a status. -/
def ToldClient (m : AgpsStateMachine) (ID : BitVec 32) (status : AgpsRsrcStatus) : Prop :=
  ∃ entry call, Out.client entry ID status call ∈ m.out

/-- The subscription of `s` has an effect: an answer, or an active entry. -/
def Served (m : AgpsStateMachine) (s : Subscriber) : Prop :=
  ToldClient m s.ID .granted ∨ ToldClient m s.ID .denied ∨
    ∃ e ∈ m.mSubscribers, e.s.equals s = true ∧ e.s.isInactive = false

/-- A grant and a denial are sent to every class of subscriber. -/
theorem toldClient_notifyRsrcStatus (m : AgpsStateMachine) (entry : Option Nat) (s : Subscriber)
    {status : AgpsRsrcStatus} (answer : status = .granted ∨ status = .denied) :
    ToldClient (m.notifyRsrcStatus entry s status) s.ID status := by
  rw [notifyRsrcStatus]
  split
  · rcases answer with rfl | rfl
    · exact ⟨entry, _, List.mem_append_right _ (List.mem_singleton_self _)⟩
    · exact ⟨entry, _, List.mem_append_right _ (List.mem_singleton_self _)⟩
  · obtain ⟨call, later, sent⟩ : ∃ call later, s.calls status = call :: later := by
      rcases answer with rfl | rfl
      · cases h : s.type <;> exact ⟨_, _, by rw [Subscriber.calls, h]⟩
      · cases h : s.type <;> exact ⟨_, _, by rw [Subscriber.calls, h]⟩
    rw [sent]
    exact ⟨entry, call, List.mem_append_right _ List.mem_cons_self⟩

/-- After `addSubscriber` an active equal entry is on the list, unless the first equal one kept it from
adding and none is active. -/
theorem addSubscriber_active (env : Environment) (usable : (∀ e ∈ m.mSubscribers, e.s.equals s = false) ∨
      ∃ e ∈ m.mSubscribers, e.s.equals s = true ∧ e.s.isInactive = false) :
    ∃ e ∈ (m.addSubscriber env s).mSubscribers, e.s.equals s = true ∧ e.s.isInactive = false := by
  rcases usable with absent | ⟨e, member, equal, active⟩
  · have none : m.find s = none := List.find?_eq_none.mpr fun e member => by simp [absent e member]
    refine ⟨⟨m.clones, s.clone env.bytes⟩, ?_, s.equals_clone _, isInactive_clone s _⟩
    rw [addSubscriber, none]
    exact List.mem_cons_self
  · exact ⟨e, mem_addSubscriber env s member, equal, active⟩

/-- With an equal entry on the list `addSubscriber` does nothing. -/
theorem addSubscriber_equal (env : Environment) (member : e ∈ m.mSubscribers)
    (equal : e.s.equals s = true) : m.addSubscriber env s = m := by
  rw [addSubscriber]
  split
  · rfl
  next none => exact absurd equal (List.find?_eq_none.mp none e member)

/-! ### In Released everyone is active -/

def AllActive (m : AgpsStateMachine) : Prop := ∀ e ∈ m.mSubscribers, e.s.isInactive = false

/-- In Released no one waits for a close. -/
def ReleasedActive (m : AgpsStateMachine) : Prop := m.mStatePtr = .released → AllActive m

theorem allActive_nil (empty : m.mSubscribers = []) : AllActive m := by
  intro e member
  rw [empty] at member
  cases member

theorem allActive_congr (same : m'.mSubscribers = m.mSubscribers) (active : AllActive m) :
    AllActive m' := by
  intro e member
  exact active e (same ▸ member)

theorem allActive_addSubscriber (env : Environment) (s : Subscriber) (active : AllActive m) :
    AllActive (m.addSubscriber env s) := by
  rw [addSubscriber]
  split
  · exact active
  · intro e member
    rcases List.mem_cons.mp member with rfl | old
    · exact isInactive_clone s _
    · exact active e old

theorem allActive_releaseIfUnused {state : AgpsState} (other : state ≠ .released)
    (left : (m.releaseIfUnused env state).2 = .released) :
    AllActive (m.releaseIfUnused env state).1 := by
  rw [releaseIfUnused] at left ⊢
  cases some : m.hasSubscribers with
  | false =>
    have empty : m.mSubscribers = [] := by simpa [hasSubscribers] using some
    exact allActive_nil ((subscribers_sendRsrcRequest m env _).trans empty)
  | true =>
    rw [some, if_neg (by simp)] at left
    split at left
    · cases left
    · exact absurd left other

theorem allActive_finishRelease (status : AgpsRsrcStatus) : AllActive (m.finishRelease env status).1 := by
  have active : AllActive (m.notifyDelete (fun _ => Group.inactive.has) status) :=
    fun e member => (mem_notifyDelete_inactive.mp member).2
  rw [finishRelease]
  split
  · exact allActive_congr (subscribers_sendRsrcRequest _ env _) active
  · exact active

theorem releasedActive_onState (active : ReleasedActive m) (event : RsrcEvent) :
    ReleasedActive (m.onState env event) := by
  rw [onState]
  intro left
  -- the state is left for released only with nobody inactive
  cases at_ : m.mStatePtr with
  | released =>
    have before := active at_
    cases event with
    | subscribe s =>
      exact allActive_congr (subscribers_sendRsrcRequest _ env _) (allActive_addSubscriber env s before)
    | unsubscribe e =>
      change AllActive (if e.s.equals e.s then m.notifyRsrcStatus (some e.addr) e.s .unsubscribe else m)
      split
      · exact allActive_congr (frame_notifyRsrcStatus m _ e.s .unsubscribe).subscribers before
      · exact before
    | granted => exact before
    | released => exact before
    | denied => exact before
  | pending =>
    rw [at_] at left
    cases event with
    | unsubscribe e => exact allActive_releaseIfUnused (by decide) left
    | denied => exact allActive_nil (notifyDelete_all m .denied)
    | subscribe s => cases left
    | granted => cases left
    | released => cases left
  | acquired =>
    rw [at_] at left
    cases event with
    | unsubscribe e => exact allActive_releaseIfUnused (by decide) left
    | released => exact allActive_nil (notifyDelete_all m .released)
    | subscribe s => cases left
    | granted => cases left
    | denied => cases left
  | releasing =>
    rw [at_] at left
    cases event with
    | unsubscribe e =>
      apply allActive_nil
      change (m.dropSubscriber env e).mSubscribers = []
      change (if (m.dropSubscriber env e).hasSubscribers then AgpsState.releasing else .released) =
        .released at left
      split at left
      · cases left
      next none => simpa [hasSubscribers] using none
    | released => exact allActive_finishRelease .released
    | denied => exact allActive_finishRelease .denied
    | subscribe s => cases left
    | granted => cases left

theorem Frame.releasedActive (frame : Frame m m') (active : ReleasedActive m) : ReleasedActive m' :=
  fun at_ => allActive_congr frame.subscribers (active (frame.state ▸ at_))

end AgpsStateMachine

open AgpsStateMachine

theorem releasedActive_step {m : AgpsStateMachine} (active : ReleasedActive m)
    (at_ : Event × Environment) : ReleasedActive (step m at_) := by
  obtain ⟨event, env⟩ := at_
  have cleared : ReleasedActive { m with out := [] } := active
  rw [step]
  generalize ({ m with out := [] } : AgpsStateMachine) = m at cleared
  cases event with
  | subscribeRsrc s =>
    change ReleasedActive (m.subscribeRsrc env s)
    rw [subscribeRsrc]
    split
    · exact (frame_notifyRsrcStatus m none s .denied).releasedActive cleared
    · exact releasedActive_onState cleared (.subscribe s)
  | unsubscribeRsrc s =>
    change ReleasedActive (m.unsubscribeRsrc env s).1
    rw [unsubscribeRsrc]
    split
    next e _ => exact releasedActive_onState cleared (.unsubscribe e)
    · exact cleared
  | onRsrcEvent status =>
    change ReleasedActive (m.onRsrcEvent env status)
    cases status with
    | granted => exact releasedActive_onState cleared .granted
    | released =>
      have first := @releasedActive_onState _ env cleared .released
      rw [onRsrcEvent]
      split
      · exact releasedActive_onState first .denied
      · exact first
    | denied => exact releasedActive_onState cleared .denied
    | subscribe => exact cleared
    | unsubscribe => exact cleared
  | retryCallback =>
    change ReleasedActive m.retryCallback
    rw [retryCallback]
    split
    · exact (frame_send rfl).releasedActive cleared
    · exact cleared

theorem releasedActive_run {m : AgpsStateMachine} (active : ReleasedActive m)
    (events : List (Event × Environment)) : ReleasedActive (run m events) := by
  induction events generalizing m with
  | nil => exact active
  | cons event events ih => exact ih (releasedActive_step active event)

/-- When `subscribeRsrc` serves `s`: the machine answers at once, or no equal entry keeps it from
adding one, or an equal entry is active. -/
def Serves (m : AgpsStateMachine) (s : Subscriber) : Prop :=
  (m.mEnforceSingleSubscriber = true ∧ m.hasSubscribers = true) ∨
    m.mStatePtr = .released ∨ m.mStatePtr = .acquired ∨
    (∀ e ∈ m.mSubscribers, e.s.equals s = false) ∨
    ∃ e ∈ m.mSubscribers, e.s.equals s = true ∧ e.s.isInactive = false

theorem served_of_serves {m : AgpsStateMachine} (active : ReleasedActive m) {s : Subscriber}
    (serves : Serves m s) (env : Environment) : Served (m.subscribeRsrc env s) s := by
  rw [subscribeRsrc]
  split
  · exact .inr (.inl (toldClient_notifyRsrcStatus m none s (.inr rfl)))
  next open_ =>
    -- Outside of Acquired the machine adds the subscriber, and whatever it asks for keeps the list.
    have listed : ∀ next : AgpsStateMachine × AgpsState,
        next.1.mSubscribers = (m.addSubscriber env s).mSubscribers →
        ((∀ e ∈ m.mSubscribers, e.s.equals s = false) ∨
          ∃ e ∈ m.mSubscribers, e.s.equals s = true ∧ e.s.isInactive = false) →
        Served { next.1 with mStatePtr := next.2 } s := by
      intro next same usable
      obtain ⟨e, member, found⟩ := addSubscriber_active env usable
      exact .inr (.inr ⟨e, same ▸ member, found⟩)
    rw [onState]
    cases at_ : m.mStatePtr with
    | released =>
      refine listed _ (subscribers_sendRsrcRequest _ env _) ?_
      by_cases equal : ∃ e ∈ m.mSubscribers, e.s.equals s = true
      · obtain ⟨e, member, equal⟩ := equal
        exact .inr ⟨e, member, equal, active at_ e member⟩
      · push Not at equal
        exact .inl fun e member => by simpa using equal e member
    | acquired =>
      left
      obtain ⟨entry, call, member⟩ := toldClient_notifyRsrcStatus m none s (.inl rfl)
      refine ⟨entry, call, ?_⟩
      change _ ∈ ((if s.equals s then m.notifyRsrcStatus none s .granted else m).addSubscriber env s).out
      rw [s.equals_self, if_pos rfl, addSubscriber]
      split <;> exact member
    | pending =>
      refine listed _ rfl ?_
      rcases serves with enforced | at_' | at_' | usable
      · exact absurd enforced (by simpa using open_)
      · cases at_.symm.trans at_'
      · cases at_.symm.trans at_'
      · exact usable
    | releasing =>
      refine listed _ rfl ?_
      rcases serves with enforced | at_' | at_' | usable
      · exact absurd enforced (by simpa using open_)
      · cases at_.symm.trans at_'
      · cases at_.symm.trans at_'
      · exact usable

theorem serves_of_served {m : AgpsStateMachine} (silent : m.out = []) {s : Subscriber}
    (env : Environment) (served : Served (m.subscribeRsrc env s) s) : Serves m s := by
  by_contra unserved
  simp only [Serves, not_or] at unserved
  obtain ⟨open_, notReleased, notAcquired, equal, inactive⟩ := unserved
  push Not at equal inactive
  obtain ⟨e, member, equal⟩ := equal
  have equal : e.s.equals s = true := by simpa using equal
  -- The machine is in Pending or Releasing and adds nothing.
  have same : m.subscribeRsrc env s = m := by
    rw [subscribeRsrc, if_neg (by simpa using open_), onState]
    cases at_ : m.mStatePtr with
    | released => exact absurd at_ notReleased
    | acquired => exact absurd at_ notAcquired
    | pending =>
      rw [onPending, addSubscriber_equal env member equal]
      change { m with mStatePtr := .pending } = m
      rw [← at_]
    | releasing =>
      rw [onReleasing, addSubscriber_equal env member equal]
      change { m with mStatePtr := .releasing } = m
      rw [← at_]
  rw [same] at served
  rcases served with ⟨_, call, sent⟩ | ⟨_, call, sent⟩ | ⟨e', member', equal', active⟩
  · rw [silent] at sent
    cases sent
  · rw [silent] at sent
    cases sent
  · exact inactive e' member' equal' active

/-- In every state that a machine reaches, for the framework or for the data services, a subscription
is answered or becomes an active entry exactly when the machine can answer at once, or has no
equal entry, or an active one. -/
theorem resubscription_served_iff (isDS enforceSingleSubscriber : Bool)
    (events : List (Event × Environment)) (s : Subscriber) (env : Environment) :
    let m := run { isDS := isDS, mEnforceSingleSubscriber := enforceSingleSubscriber } events
    Served (step m (.subscribeRsrc s, env)) s ↔ Serves m s := by
  intro m
  have active : ReleasedActive m :=
    releasedActive_run (fun _ e member => by cases member) events
  constructor
  · intro served
    exact serves_of_served (m := { m with out := [] }) rfl env served
  · intro serves
    exact served_of_serves (m := { m with out := [] }) active serves env

/-- A client of the data services opens, closes and opens again before the data call is down: nothing
tells it so, and its entry leaves with the release of the first call. -/
theorem resubscription_lost :
    let s : Subscriber := { type := .DS, ID := 1 }
    let m := run { isDS := true, mEnforceSingleSubscriber := false }
      [(.subscribeRsrc s, {}), (.unsubscribeRsrc s, {})]
    let m' := step m (.subscribeRsrc s, {})
    m.mStatePtr = .releasing ∧ m'.out = [] ∧
      (∀ e ∈ m'.mSubscribers, e.s.equals s = true → e.s.isInactive = true) ∧
      (step m' (.onRsrcEvent .released, {})).mSubscribers = [] := by
  decide +kernel

end Hima.Agps
