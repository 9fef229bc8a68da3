import Hima.Agps.Invariant
import Mathlib.Data.List.Perm.Subperm

/-!
# Data calls

The data services may refuse a call, or be busy. `DSStateMachine::sendRsrcRequest` then tells its
subscriber at once, or starts a timer, and stays in Released with the subscriber on the list. Where
no request meets such an answer, the machine keeps its list as a machine for the framework does.
-/
namespace Hima.Agps

def Out.isDenial : Out → Bool
  | .client _ _ .denied _ => true
  | _ => false

/-- The entries that were told that their resource is denied. -/
def denied (out : List Out) : List Nat :=
  out.filterMap fun
    | .client entry _ .denied _ => entry
    | _ => none

/-- Someone is denied on the answer to a request for a data call. -/
def deniedOnAnswer : List Out → Bool
  | [] => false
  | .requestRsrc .requestAgpsDataConn :: later => later.any Out.isDenial
  | _ :: later => deniedOnAnswer later

def NoDenial (out : List Out) : Prop := ∀ o ∈ out, o.isDenial = false

theorem denied_of_noDenial {out : List Out} (none : NoDenial out) : denied out = [] := by
  rw [denied, List.filterMap_eq_nil_iff]
  intro o member
  have other := none o member
  cases o with
  | client entry ID status call => cases status <;> first | rfl | cases other
  | agpsCb action s => rfl
  | requestRsrc action => rfl
  | requestSuplES ID => rfl
  | timerStart => rfl

theorem deniedOnAnswer_append {out later : List Out} (early : .requestRsrc .requestAgpsDataConn ∉ out) :
    deniedOnAnswer (out ++ later) = deniedOnAnswer later := by
  induction out with
  | nil => rfl
  | cons o out ih =>
    rw [List.mem_cons, not_or] at early
    have rest := ih early.2
    cases o with
    | requestRsrc action =>
      cases action with
      | requestAgpsDataConn => exact absurd rfl early.1
      | releaseAgpsDataConn => exact rest
    | client entry ID status call => exact rest
    | agpsCb action s => exact rest
    | requestSuplES ID => exact rest
    | timerStart => exact rest

theorem deniedOnAnswer_of_noRequest {out : List Out}
    (early : .requestRsrc .requestAgpsDataConn ∉ out) : deniedOnAnswer out = false := by
  have alone : deniedOnAnswer (out ++ []) = deniedOnAnswer [] := deniedOnAnswer_append early
  rwa [List.append_nil] at alone

theorem deniedOnAnswer_of_noDenial {out : List Out} (none : NoDenial out) :
    deniedOnAnswer out = false := by
  induction out with
  | nil => rfl
  | cons o out ih =>
    have later : NoDenial out := fun o' member => none o' (List.mem_cons_of_mem o member)
    have rest := ih later
    cases o with
    | requestRsrc action =>
      cases action with
      | requestAgpsDataConn => exact List.any_eq_false.mpr fun o' member => by simp [later o' member]
      | releaseAgpsDataConn => exact rest
    | client entry ID status call => exact rest
    | agpsCb action s => exact rest
    | requestSuplES ID => exact rest
    | timerStart => exact rest

theorem noDenial_nil : NoDenial [] := fun _ member => by cases member

theorem NoDenial.append {out out' : List Out} (first : NoDenial out) (second : NoDenial out') :
    NoDenial (out ++ out') := fun o member =>
  (List.mem_append.mp member).elim (first o) (second o)

def Event.subscribes : Event → Bool
  | .subscribeRsrc _ => true
  | _ => false

def Event.reports (status : AgpsRsrcStatus) : Event → Bool
  | .onRsrcEvent reported => reported = status
  | _ => false

namespace AgpsStateMachine

variable {m m' : AgpsStateMachine} {env : Environment} {s : Subscriber} {e : Entry}

/-! ### Who is told -/

variable {status : AgpsRsrcStatus}

theorem noDenial_informStatus (other : status ≠ .denied)
    (none : NoDenial m.out) (entry : Option Nat) (ID : BitVec 32) :
    NoDenial (m.informStatus entry status ID).out := by
  have one : ∀ o : Out, o.isDenial = false → NoDenial (m.send [o]).out := fun o quiet =>
    none.append fun o' member => by rw [List.mem_singleton.mp member, quiet]
  cases status with
  | denied => exact absurd rfl other
  | subscribe => exact none
  | unsubscribe => exact one _ rfl
  | granted => exact one _ rfl
  | released => exact one _ rfl

theorem noDenial_notifyRsrcStatus (other : status ≠ .denied)
    (none : NoDenial m.out) (entry : Option Nat) (s : Subscriber) :
    NoDenial (m.notifyRsrcStatus entry s status).out := by
  rw [notifyRsrcStatus]
  split
  · exact noDenial_informStatus other none entry s.ID
  · refine none.append fun o member => ?_
    obtain ⟨call, _, rfl⟩ := List.mem_map.mp member
    cases status <;> first | rfl | exact absurd rfl other

theorem noDenial_notifyEach (other : status ≠ .denied)
    (none : NoDenial m.out) (entries : List Entry) : NoDenial (m.notifyEach status entries).out := by
  rw [notifyEach]
  induction entries generalizing m with
  | nil => exact none
  | cons e entries ih => exact ih (noDenial_notifyRsrcStatus other none _ e.s)

/-- A denial is told to the entries that it is meant for. -/
theorem mem_denied_notifyRsrcStatus {a : Nat}
    (told : a ∈ denied (m.notifyRsrcStatus (some e.addr) e.s status).out) :
    a ∈ denied m.out ∨ a = e.addr := by
  have sent : ∀ {out : List Out}, (∀ o ∈ out, ∃ ID call, o = .client (some e.addr) ID status call) →
      a ∈ denied (m.out ++ out) → a ∈ denied m.out ∨ a = e.addr := by
    intro out only told
    rw [denied, List.filterMap_append, List.mem_append] at told
    refine told.imp_right fun told => ?_
    obtain ⟨o, member, some⟩ := List.mem_filterMap.mp told
    obtain ⟨ID, call, rfl⟩ := only o member
    cases status <;> simp_all
  rw [notifyRsrcStatus] at told
  split at told
  · cases status with
    | subscribe => exact .inl told
    | denied =>
      exact sent (fun o member => ⟨_, _, List.mem_singleton.mp member⟩) told
    | unsubscribe =>
      exact sent (fun o member => ⟨_, _, List.mem_singleton.mp member⟩) told
    | granted =>
      exact sent (fun o member => ⟨_, _, List.mem_singleton.mp member⟩) told
    | released =>
      exact sent (fun o member => ⟨_, _, List.mem_singleton.mp member⟩) told
  · refine sent (fun o member => ?_) told
    obtain ⟨call, _, rfl⟩ := List.mem_map.mp member
    exact ⟨_, call, rfl⟩

theorem mem_denied_notifyEach {a : Nat} {entries : List Entry}
    (told : a ∈ denied (m.notifyEach status entries).out) :
    a ∈ denied m.out ∨ ∃ e ∈ entries, e.addr = a := by
  rw [notifyEach] at told
  induction entries generalizing m with
  | nil => exact .inl told
  | cons e entries ih =>
    rcases ih told with before | ⟨e', member, same⟩
    · rcases mem_denied_notifyRsrcStatus before with before | rfl
      · exact .inl before
      · exact .inr ⟨e, List.mem_cons_self, rfl⟩
    · exact .inr ⟨e', List.mem_cons_of_mem _ member, same⟩

/-- The retries start anew when a subscriber of the data services is denied. -/
theorem mRetries_notifyEach (status : AgpsRsrcStatus) (entries : List Entry) :
    (m.notifyEach status entries).mRetries =
      if status = .denied ∧ ∃ e ∈ entries, e.s.type = .DS then 0 else m.mRetries := by
  rw [notifyEach]
  induction entries generalizing m with
  | nil => simp
  | cons e entries ih =>
    have one : (m.notifyRsrcStatus (some e.addr) e.s status).mRetries =
        if status = .denied ∧ e.s.type = .DS then 0 else m.mRetries := by
      rw [notifyRsrcStatus]
      split
      next ds => cases status <;> simp [informStatus, ds, send]
      next other => simp [other, send]
    rw [List.foldl_cons, ih, one]
    by_cases isDenied : status = .denied
    · by_cases ds : e.s.type = .DS
      · simp [isDenied, ds]
      · simp [isDenied, ds]
    · simp [isDenied]

/-! ### Addresses -/

/-- The entries are numbered: no two alike, and none like the next one. -/
structure Numbered (m : AgpsStateMachine) : Prop where
  nodup : (m.mSubscribers.map (·.addr)).Nodup
  below : ∀ e ∈ m.mSubscribers, e.addr < m.clones

/-- Entries may leave and may change, but they keep their addresses and no one comes. -/
structure Shrinks (m m' : AgpsStateMachine) : Prop where
  clones : m'.clones = m.clones
  addrs : (m'.mSubscribers.map (·.addr)).Subperm (m.mSubscribers.map (·.addr))

theorem Shrinks.numbered (shrinks : Shrinks m m') (numbered : Numbered m) : Numbered m' := by
  constructor
  · obtain ⟨l, perm, sublist⟩ := shrinks.addrs
    exact perm.nodup_iff.mp (sublist.nodup numbered.nodup)
  · intro e member
    have old := shrinks.addrs.subset (List.mem_map_of_mem member)
    obtain ⟨e', member', same⟩ := List.mem_map.mp old
    rw [shrinks.clones]
    exact same ▸ numbered.below e' member'

theorem Frame.shrinks (frame : Frame m m') : Shrinks m m' :=
  ⟨frame.clones, by rw [frame.subscribers]⟩

theorem Shrinks.trans {m'' : AgpsStateMachine} (first : Shrinks m m') (second : Shrinks m' m'') :
    Shrinks m m'' :=
  ⟨second.clones.trans first.clones, second.addrs.trans first.addrs⟩

theorem mem_deleteEach_group (q : Entry → Bool) (l : List Entry) :
    e ∈ (deleteEach (fun _ => q) l).2 ↔ e ∈ l ∧ q e = true := by
  induction l using deleteEach.induct (fun _ => q) with
  | case1 l none =>
    rw [deleteEach_none none]
    refine iff_of_false List.not_mem_nil ?_
    rintro ⟨member, q_e⟩
    exact List.find?_eq_none.mp none e member q_e
  | case2 l e' found ih =>
    rw [deleteEach_some found]
    obtain ⟨q_e', before, after, rfl, first⟩ := List.find?_eq_some_iff_append.mp found
    have keeps : ∀ e ∈ before, ¬ q e = true := fun e member => by simpa using first e member
    rw [List.eraseP_append_right _ keeps, List.eraseP_cons_of_pos q_e'] at ih ⊢
    simp only [List.mem_cons, ih, List.mem_append]
    constructor
    · rintro (rfl | ⟨member, q_e⟩)
      · exact ⟨.inr (.inl rfl), q_e'⟩
      · exact ⟨member.imp_right .inr, q_e⟩
    · rintro ⟨member | rfl | member, q_e⟩
      · exact .inr ⟨.inl member, q_e⟩
      · exact .inl rfl
      · exact .inr ⟨.inr member, q_e⟩

theorem deleteEach_perm (p : List Entry → Entry → Bool) (l : List Entry) :
    ((deleteEach p l).2 ++ (deleteEach p l).1).Perm l := by
  induction l using deleteEach.induct p with
  | case1 l none =>
    rw [deleteEach_none none]
    exact .refl l
  | case2 l e found ih =>
    rw [deleteEach_some found]
    obtain ⟨p_e, before, after, same, first⟩ := List.find?_eq_some_iff_append.mp found
    have keeps : ∀ e' ∈ before, ¬ p l e' = true := fun e' member => by simpa using first e' member
    have erased : l.eraseP (p l) = before ++ after := by
      rw [same] at keeps p_e ⊢
      rw [List.eraseP_append_right _ keeps, List.eraseP_cons_of_pos p_e]
    rw [erased] at ih ⊢
    have back : (e :: (before ++ after)).Perm l := same ▸ List.perm_middle.symm
    exact (ih.cons e).trans back

theorem shrinks_notifyDelete (m : AgpsStateMachine) (p : List Entry → Entry → Bool)
    (status : AgpsRsrcStatus) : Shrinks m (m.notifyDelete p status) := by
  have shorter : Shrinks m { m with mSubscribers := (deleteEach p m.mSubscribers).1 } := ⟨rfl, ?_⟩
  · exact shorter.trans (frame_notifyDelete m p status).shrinks
  have perm := (deleteEach_perm p m.mSubscribers).map (·.addr)
  rw [List.map_append] at perm
  exact (List.sublist_append_right _ _).subperm.trans perm.subperm

theorem shrinks_dropSubscriber (m : AgpsStateMachine) (env : Environment) (e : Entry) :
    Shrinks m (m.dropSubscriber env e) := by
  rw [dropSubscriber]
  split
  · have inactive : ∀ l : List Entry, (l.map fun e' => if e'.addr = e.addr then
        { e' with s := { e'.s with mIsInactive := true } } else e').map (·.addr) = l.map (·.addr) := by
      intro l
      rw [List.map_map]
      apply List.map_congr_left
      intro e' _
      simp only [Function.comp_apply]
      split <;> rfl
    rw [setInactive]
    split
    · refine Shrinks.trans ?_ (frame_informStatus _ _ .unsubscribe e.s.ID).shrinks
      exact ⟨rfl, by rw [inactive]⟩
    · exact ⟨rfl, by rw [inactive]⟩
  · exact shrinks_notifyDelete m _ _

theorem numbered_addSubscriber (env : Environment) (s : Subscriber) (numbered : Numbered m) :
    Numbered (m.addSubscriber env s) := by
  rw [addSubscriber]
  split
  · exact numbered
  · constructor
    · rw [List.map_cons, List.nodup_cons]
      refine ⟨fun member => ?_, numbered.nodup⟩
      obtain ⟨e, member, same⟩ := List.mem_map.mp member
      exact (Nat.ne_of_lt (numbered.below e member)) same
    · intro e member
      rcases List.mem_cons.mp member with rfl | old
      · exact Nat.lt_succ_self _
      · exact Nat.lt_succ_of_lt (numbered.below e old)

theorem shrinks_sendRsrcRequest (m : AgpsStateMachine) (env : Environment)
    (action : AGpsStatusValue) : Shrinks m (m.sendRsrcRequest env action).1 := by
  refine ⟨?_, by rw [subscribers_sendRsrcRequest]⟩
  rw [sendRsrcRequest]
  split
  · rw [sendToDataServices]
    dsimp only
    generalize (if action = .requestAgpsDataConn then env.answer else 0) = ret
    split
    · split
      · exact (frame_informStatus _ _ .denied _).clones
      · rfl
    · split
      · exact (frame_informStatus _ _ .denied _).clones
      · split
        · rfl
        · split
          · exact (frame_informStatus _ _ .denied _).clones
          · rfl
  · rw [sendToFramework]
    split <;> rfl

theorem numbered_onState (numbered : Numbered m) (event : RsrcEvent) :
    Numbered (m.onState env event) := by
  apply onState_preserves Numbered _ _ _ _ _ _ numbered event
  · exact fun m state numbered => ⟨numbered.nodup, numbered.below⟩
  · exact fun m entry s status => (frame_notifyRsrcStatus m entry s status).shrinks.numbered
  · exact fun m s => numbered_addSubscriber env s
  · exact fun m e => (shrinks_dropSubscriber m env e).numbered
  · exact fun m p status => (shrinks_notifyDelete m p status).numbered
  · exact fun m action => (shrinks_sendRsrcRequest m env action).numbered

/-! ### Answers of the data services -/

/-- An answer on which no one is denied at once, after so many retries. -/
def NotDenied (retries : UInt8) (answer : Int) : Prop :=
  answer ≠ errUnsupported ∧ answer ≠ -1 ∧
    (answer = errEngineBusy → ¬ retries + 1 > maxStartDataCallRetries)

instance (retries : UInt8) (answer : Int) : Decidable (NotDenied retries answer) :=
  inferInstanceAs (Decidable (_ ∧ _ ∧ (_ → _)))

/-- A request that is not denied sends the request, and at most starts the timer. -/
theorem out_request (ds : m.isDS = true) (answered : NotDenied m.mRetries env.answer) :
    ∃ later, (m.sendRsrcRequest env .requestAgpsDataConn).1.out =
      m.out ++ .requestRsrc .requestAgpsDataConn :: later ∧ NoDenial later := by
  obtain ⟨supported, sound, busy⟩ := answered
  rw [sendRsrcRequest, if_pos ds, sendToDataServices]
  dsimp only
  rw [if_pos rfl]
  split
  next isBusy =>
    split
    next many => exact absurd many (busy isBusy)
    refine ⟨[.timerStart], by simp [send], fun o member => ?_⟩
    rw [List.mem_singleton.mp member]
    rfl
  next =>
    split
    · exact ⟨[], rfl, noDenial_nil⟩
    · exact ⟨[], rfl, noDenial_nil⟩

theorem out_release (ds : m.isDS = true) :
    (m.sendRsrcRequest env .releaseAgpsDataConn).1.out = m.out ++ [.requestRsrc .releaseAgpsDataConn] := by
  rw [sendRsrcRequest, if_pos ds]
  rfl

theorem isDS_sendRsrcRequest (action : AGpsStatusValue) :
    (m.sendRsrcRequest env action).1.isDS = m.isDS ∧
      (m.sendRsrcRequest env action).1.mEnforceSingleSubscriber = m.mEnforceSingleSubscriber := by
  rw [sendRsrcRequest]
  split
  · rw [sendToDataServices]
    dsimp only
    generalize (if action = .requestAgpsDataConn then env.answer else 0) = ret
    have informed : ∀ m' : AgpsStateMachine, ∀ entry ID, m'.isDS = m.isDS →
        m'.mEnforceSingleSubscriber = m.mEnforceSingleSubscriber →
        (m'.informStatus entry .denied ID).isDS = m.isDS ∧
          (m'.informStatus entry .denied ID).mEnforceSingleSubscriber = m.mEnforceSingleSubscriber := by
      intro m' entry ID isDS enforce
      have frame := frame_informStatus m' entry .denied ID
      exact ⟨frame.isDS.trans isDS, frame.enforce.trans enforce⟩
    split
    · split
      · exact informed _ _ _ rfl rfl
      · exact ⟨rfl, rfl⟩
    · split
      · exact informed _ _ _ rfl rfl
      · split
        · exact ⟨rfl, rfl⟩
        · split
          · exact informed _ _ _ rfl rfl
          · exact ⟨rfl, rfl⟩
  · rw [sendToFramework]
    split <;> exact ⟨rfl, rfl⟩

/-- The retries at the time when a releasing machine asks for a new call: a denial of its inactive
subscribers has set them back. -/
def retriesAtRequest (m : AgpsStateMachine) (status : AgpsRsrcStatus) : UInt8 :=
  if status = .denied ∧ ∃ e ∈ m.mSubscribers, e.s.isInactive = true ∧ e.s.type = .DS then 0
  else m.mRetries

theorem mRetries_notifyDelete_inactive (m : AgpsStateMachine) (status : AgpsRsrcStatus) :
    (m.notifyDelete (fun _ => Group.inactive.has) status).mRetries = m.retriesAtRequest status := by
  rw [notifyDelete, mRetries_notifyEach, retriesAtRequest]
  congr 1
  simp only [mem_deleteEach_group, Group.has, and_assoc]

/-- The data services start every call that a machine in Released asks for, and deny none that a
releasing machine asks for. -/
def Answered (m : AgpsStateMachine) (at_ : Event × Environment) : Prop :=
  (m.mStatePtr = .released ∧ at_.1.subscribes = true → at_.2.answer = errSuccess) ∧
    ∀ status ∈ [AgpsRsrcStatus.released, .denied],
      m.mStatePtr = .releasing ∧ at_.1.reports status = true ∧ m.hasActiveSubscribers = true →
        NotDenied (m.retriesAtRequest status) at_.2.answer

instance (m : AgpsStateMachine) (at_ : Event × Environment) : Decidable (Answered m at_) :=
  inferInstanceAs (Decidable ((_ ∧ _ → _) ∧ ∀ _ ∈ [AgpsRsrcStatus.released, .denied], _))

/-- What the last event told: no one who is on the list was denied, and no one was denied on the answer
to a request. -/
structure Clean (m : AgpsStateMachine) : Prop where
  gone : ∀ e ∈ m.mSubscribers, e.addr ∉ denied m.out
  answers : deniedOnAnswer m.out = false

theorem clean_of_noDenial (none : NoDenial m.out) : Clean m := by
  constructor
  · intro e _ told
    rw [denied_of_noDenial none] at told
    cases told
  · exact deniedOnAnswer_of_noDenial none

theorem Quiet.noRequest (quiet : Quiet m m') (silent : m.out = []) :
    Out.requestRsrc .requestAgpsDataConn ∉ m'.out := by
  intro member
  have out : Out.requestRsrc .requestAgpsDataConn ∈ outward m'.out := List.mem_filter.mpr ⟨member, rfl⟩
  rw [quiet.outside, silent] at out
  cases out

/-- Everyone is denied and leaves. -/
theorem clean_notifyDelete_all (silent : m.out = []) (status : AgpsRsrcStatus) :
    Clean (m.notifyDelete (fun _ => Group.all.has) status) := by
  constructor
  · intro e member
    rw [notifyDelete_all] at member
    cases member
  · exact deniedOnAnswer_of_noRequest ((quiet_notifyDelete m _ status).noRequest silent)

theorem noDenial_dropSubscriber (none : NoDenial m.out) (e : Entry) :
    NoDenial (m.dropSubscriber env e).out := by
  rw [dropSubscriber]
  split
  · rw [setInactive]
    split
    · have other : AgpsRsrcStatus.unsubscribe ≠ .denied := by decide
      exact noDenial_informStatus other none _ e.s.ID
    · exact none
  · rw [notifyDelete]
    generalize (deleteEach (forReceiver env e) m.mSubscribers) = deleted
    have before : NoDenial { m with mSubscribers := deleted.1 }.out := none
    exact noDenial_notifyEach (by decide) before deleted.2

theorem noDenial_releaseIfUnused (ds : m.isDS = true) (none : NoDenial m.out) (state : AgpsState) :
    NoDenial (m.releaseIfUnused env state).1.out := by
  have released : NoDenial (m.sendRsrcRequest env .releaseAgpsDataConn).1.out := by
    rw [out_release ds]
    refine none.append fun o member => ?_
    rw [List.mem_singleton.mp member]
    rfl
  rw [releaseIfUnused]
  split
  · exact released
  · split
    · exact released
    · exact none

/-- Whoever was inactive is told and leaves; the new request is not denied. -/
theorem clean_finishRelease (ds : m.isDS = true) (numbered : Numbered m) (silent : m.out = [])
    (status : AgpsRsrcStatus) (answered : m.hasActiveSubscribers = true →
      NotDenied (m.retriesAtRequest status) env.answer) :
    Clean (m.finishRelease env status).1 := by
  have quiet := quiet_notifyDelete m (fun _ => Group.inactive.has) status
  have noRequest := quiet.noRequest silent
  have gone : ∀ e ∈ (m.notifyDelete (fun _ => Group.inactive.has) status).mSubscribers,
      e.addr ∉ denied (m.notifyDelete (fun _ => Group.inactive.has) status).out := by
    intro e kept told
    rw [(frame_notifyDelete m _ status).subscribers] at kept
    rcases mem_denied_notifyEach told with before | ⟨e', deleted, same⟩
    · rw [silent] at before
      cases before
    · have perm := (deleteEach_perm (fun _ => Group.inactive.has) m.mSubscribers).map (·.addr)
      have nodup := perm.nodup_iff.mpr numbered.nodup
      rw [List.map_append] at nodup
      exact (List.nodup_append.mp nodup).2.2 _ (List.mem_map_of_mem deleted) _ (List.mem_map_of_mem kept) same
  rw [finishRelease]
  split
  next active =>
    obtain ⟨later, out, none⟩ := @out_request _ env (quiet.isDS.trans ds)
      (mRetries_notifyDelete_inactive m status ▸ answered (by
      obtain ⟨e, member, isActive⟩ := hasActiveSubscribers_iff.mp active
      exact hasActiveSubscribers_iff.mpr ⟨e, (mem_notifyDelete_inactive.mp member).1, isActive⟩))
    constructor
    · intro e member told
      rw [subscribers_sendRsrcRequest] at member
      rw [out, denied, List.filterMap_append] at told
      rcases List.mem_append.mp told with told | told
      · exact gone e member told
      · change e.addr ∈ denied later at told
        rw [denied_of_noDenial none] at told
        cases told
    · rw [out, deniedOnAnswer_append noRequest]
      exact List.any_eq_false.mpr fun o member => by simp [none o member]
  next => exact ⟨gone, deniedOnAnswer_of_noRequest noRequest⟩

/-! ### A machine for the data services -/

/-- What every run keeps whose requests are answered. -/
structure Settled (m : AgpsStateMachine) : Prop where
  ds : m.isDS = true
  many : m.mEnforceSingleSubscriber = false
  numbered : Numbered m
  fits : ListFits m
  clean : Clean m

/-- The data service starts a call, and does not deny it when it is asked again. -/
structure DataServed (env : Environment) (m : AgpsStateMachine) (event : RsrcEvent) : Prop where
  started : ∀ s, m.mStatePtr = .released → event = .subscribe s → env.answer = errSuccess
  answered : m.mStatePtr = .releasing → m.hasActiveSubscribers = true →
    (event = .released → NotDenied (m.retriesAtRequest .released) env.answer) ∧
      (event = .denied → NotDenied (m.retriesAtRequest .denied) env.answer)

theorem clean_onState (ds : m.isDS = true) (numbered : Numbered m) (silent : m.out = []) (event : RsrcEvent)
    (served : DataServed env m event) :
    Clean (m.onState env event) := by
  have gentle : NoDenial m.out := silent ▸ noDenial_nil
  have state : ∀ next : AgpsStateMachine × AgpsState, Clean next.1 →
      Clean { next.1 with mStatePtr := next.2 } := fun _ clean => ⟨clean.gone, clean.answers⟩
  -- what the parts of an event leave in the messages
  have added : ∀ s, (m.addSubscriber env s).out = m.out ∧ (m.addSubscriber env s).isDS = m.isDS := by
    intro s
    rw [addSubscriber]
    split <;> exact ⟨rfl, rfl⟩
  have dropped : ∀ e, NoDenial (m.dropSubscriber env e).out := noDenial_dropSubscriber gentle
  have drops : ∀ e state, Clean ((m.dropSubscriber env e).releaseIfUnused env state).1 := fun e state =>
    clean_of_noDenial
      (noDenial_releaseIfUnused ((quiet_dropSubscriber m env e).isDS.trans ds) (dropped e) state)
  apply state
  -- only a request can be refused: of `subscribe` when released, of an answer when releasing
  cases at_ : m.mStatePtr with
  | released =>
    cases event with
    | subscribe s =>
      have success := served.started s at_ rfl
      have unrefused : NotDenied (m.addSubscriber env s).mRetries env.answer := by
        rw [success]
        exact ⟨by decide, by decide, fun busy => absurd busy (by decide)⟩
      obtain ⟨later, out, quiet⟩ := out_request ((added s).2.trans ds) unrefused
      apply clean_of_noDenial
      change NoDenial ((m.addSubscriber env s).sendRsrcRequest env .requestAgpsDataConn).1.out
      rw [out, (added s).1]
      refine gentle.append fun o member => ?_
      rcases List.mem_cons.mp member with rfl | member
      · rfl
      · exact quiet o member
    | unsubscribe e =>
      apply clean_of_noDenial
      change NoDenial (if _ then _ else _ : AgpsStateMachine).out
      split
      · exact noDenial_notifyRsrcStatus (by decide) gentle _ e.s
      · exact gentle
    | granted => exact clean_of_noDenial gentle
    | released => exact clean_of_noDenial gentle
    | denied => exact clean_of_noDenial gentle
  | pending =>
    cases event with
    | subscribe s => exact clean_of_noDenial ((added s).1 ▸ gentle)
    | unsubscribe e => exact drops e .pending
    | granted => exact clean_of_noDenial (noDenial_notifyEach (by decide) gentle _)
    | released => exact clean_of_noDenial gentle
    | denied => exact clean_notifyDelete_all silent .denied
  | acquired =>
    cases event with
    | subscribe s =>
      have granted : NoDenial (if s.equals s then m.notifyRsrcStatus none s .granted else m).out := by
        split
        · exact noDenial_notifyRsrcStatus (by decide) gentle _ s
        · exact gentle
      apply clean_of_noDenial
      change NoDenial (addSubscriber _ env s).out
      rw [addSubscriber]
      split
      · exact granted
      · exact granted
    | unsubscribe e => exact drops e .acquired
    | granted => exact clean_of_noDenial gentle
    | released => exact clean_notifyDelete_all silent .released
    | denied => exact clean_of_noDenial gentle
  | releasing =>
    cases event with
    | subscribe s => exact clean_of_noDenial ((added s).1 ▸ gentle)
    | unsubscribe e => exact clean_of_noDenial (dropped e)
    | granted => exact clean_of_noDenial gentle
    | released =>
      exact clean_finishRelease ds numbered silent .released fun active => (served.answered at_ active).1 rfl
    | denied =>
      exact clean_finishRelease ds numbered silent .denied fun active => (served.answered at_ active).2 rfl

theorem kind_onState (m : AgpsStateMachine) (env : Environment) (event : RsrcEvent) :
    (m.onState env event).isDS = m.isDS ∧
      (m.onState env event).mEnforceSingleSubscriber = m.mEnforceSingleSubscriber := by
  have quiet : ∀ {m₁ m₂ : AgpsStateMachine}, Quiet m₁ m₂ →
      m₁.isDS = m.isDS ∧ m₁.mEnforceSingleSubscriber = m.mEnforceSingleSubscriber →
      m₂.isDS = m.isDS ∧ m₂.mEnforceSingleSubscriber = m.mEnforceSingleSubscriber :=
    fun quiet before => ⟨quiet.isDS.trans before.1, quiet.enforce.trans before.2⟩
  apply onState_preserves (fun m' => m'.isDS = m.isDS ∧
    m'.mEnforceSingleSubscriber = m.mEnforceSingleSubscriber) _ _ _ _ _ _ ⟨rfl, rfl⟩ event
  · exact fun m' state before => before
  · exact fun m' entry s status => quiet (frame_notifyRsrcStatus m' entry s status).toQuiet
  · exact fun m' s => quiet (quiet_addSubscriber m' env s)
  · exact fun m' e => quiet (quiet_dropSubscriber m' env e)
  · exact fun m' p status => quiet (quiet_notifyDelete m' p status)
  · intro m' action before
    have same := @isDS_sendRsrcRequest m' env action
    exact ⟨same.1.trans before.1, same.2.trans before.2⟩

/-- One event for the current state, on a machine that has sent nothing yet. -/
theorem settled_onState (settled : Settled m) (silent : m.out = []) (event : RsrcEvent)
    (served : DataServed env m event) :
    Settled (m.onState env event) := by
  have kind := kind_onState m env event
  refine ⟨kind.1.trans settled.ds, kind.2.trans settled.many, numbered_onState settled.numbered event,
    listFits_onState settled.fits event fun s at_ subscribes => ?_,
    clean_onState settled.ds settled.numbered silent event served⟩
  have success := served.started s at_ subscribes
  have ds : (m.addSubscriber env s).isDS = true := (quiet_addSubscriber m env s).isDS.trans settled.ds
  rw [sendRsrcRequest, if_pos ds, sendToDataServices, if_pos rfl, success]
  rfl

/-- Only Released and Pending stay as they are, and they have sent nothing. -/
theorem onState_released_unchanged (same : (m.onState env .released).mStatePtr = m.mStatePtr) :
    m.onState env .released = m ∧ m.mStatePtr ≠ .releasing := by
  cases at_ : m.mStatePtr with
  | released =>
    refine ⟨?_, by decide⟩
    rw [onState, at_]
    change { m with mStatePtr := .released } = m
    rw [← at_]
  | pending =>
    refine ⟨?_, by decide⟩
    rw [onState, at_]
    change { m with mStatePtr := .pending } = m
    rw [← at_]
  | acquired =>
    rw [onState, at_] at same
    cases same
  | releasing =>
    rw [onState, at_] at same
    change (m.finishRelease env .released).2 = .releasing at same
    rw [finishRelease] at same
    split at same <;> cases same

/-- A release that changes nothing is a denial. -/
theorem settled_onRsrcEvent (settled : Settled m) (silent : m.out = []) (status : AgpsRsrcStatus)
    (answered : m.mStatePtr = .releasing → (status = .released ∨ status = .denied) →
      m.hasActiveSubscribers = true → NotDenied (m.retriesAtRequest status) env.answer) :
    Settled (m.onRsrcEvent env status) := by
  cases status with
  | subscribe => exact settled
  | unsubscribe => exact settled
  | granted =>
    exact settled_onState settled silent .granted ⟨nofun, fun _ _ => ⟨nofun, nofun⟩⟩
  | denied =>
    exact settled_onState settled silent .denied
      ⟨nofun, fun at_ active => ⟨nofun, fun _ => answered at_ (.inr rfl) active⟩⟩
  | released =>
    have first : Settled (m.onState env .released) :=
      settled_onState settled silent .released
        ⟨nofun, fun at_ active => ⟨fun _ => answered at_ (.inl rfl) active, nofun⟩⟩
    rw [onRsrcEvent]
    split
    next unchanged =>
      have same : (m.onState env .released).mStatePtr = m.mStatePtr :=
        of_decide_eq_true (Bool.and_eq_true_iff.mp unchanged).2
      have waits := onState_released_unchanged same
      rw [waits.1]
      exact settled_onState settled silent .denied ⟨nofun, fun at_ => absurd at_ waits.2⟩
    next => exact first

end AgpsStateMachine

open AgpsStateMachine

theorem settled_step {m : AgpsStateMachine} (settled : Settled m) (at_ : Event × Environment)
    (answered : Answered m at_) : Settled (step m at_) := by
  obtain ⟨event, env⟩ := at_
  -- the messages of the step before are dropped first
  have cleared : Settled { m with out := [] } :=
    ⟨settled.ds, settled.many, ⟨settled.numbered.nodup, settled.numbered.below⟩, settled.fits,
      clean_of_noDenial noDenial_nil⟩
  have answered' : Answered { m with out := [] } (event, env) := answered
  rw [step]
  generalize silent : ({ m with out := [] } : AgpsStateMachine) = m' at cleared answered'
  have silent : m'.out = [] := silent ▸ rfl
  cases event with
  | subscribeRsrc s =>
    change Settled (m'.subscribeRsrc env s)
    rw [subscribeRsrc, cleared.many, Bool.false_and, if_neg Bool.false_ne_true]
    exact settled_onState cleared silent (.subscribe s)
      ⟨fun _ released _ => answered'.1 ⟨released, rfl⟩, fun _ _ => by simp⟩
  | unsubscribeRsrc s =>
    change Settled (m'.unsubscribeRsrc env s).1
    rw [unsubscribeRsrc]
    split
    · exact settled_onState cleared silent _ ⟨fun _ _ => by simp, fun _ _ => by simp⟩
    · exact cleared
  | onRsrcEvent status =>
    refine settled_onRsrcEvent cleared silent status fun releasing which active => ?_
    exact answered'.2 status (by simpa using which) ⟨releasing, decide_eq_true rfl, active⟩
  | retryCallback =>
    change Settled m'.retryCallback
    rw [retryCallback]
    split
    next e _ =>
      have frame : Frame m' (m'.send [.requestSuplES e.s.ID]) := frame_send rfl
      refine ⟨frame.isDS.trans cleared.ds, frame.enforce.trans cleared.many,
        frame.shrinks.numbered cleared.numbered, frame.listFits cleared.fits, clean_of_noDenial ?_⟩
      rw [send, silent]
      intro o member
      rw [List.mem_singleton.mp member]
      rfl
    next => exact cleared

theorem settled_initial : Settled { isDS := true, mEnforceSingleSubscriber := false } :=
  ⟨rfl, rfl, ⟨List.nodup_nil, nofun⟩, rfl, clean_of_noDenial noDenial_nil⟩

open Runs in
/-- In a run whose requests for data calls are answered as `Answered` says: in Released the list is
empty, no one whom the last event denied is on the list, and no one is denied on the answer to a
request, so no one for a busy service either. -/
theorem data_calls_keep_list {events : List (Event × Environment)} {m : AgpsStateMachine}
    (run : Run (fun m at_ => some (step m at_)) Answered
      { isDS := true, mEnforceSingleSubscriber := false } events m) :
    (m.mStatePtr = .released → m.mSubscribers = []) ∧
      (∀ e ∈ m.mSubscribers, e.addr ∉ denied m.out) ∧ deniedOnAnswer m.out = false := by
  have settled : Settled m := by
    apply run.invariant Settled _ settled_initial
    intro m at_ m' settled answered stepped
    obtain rfl := Option.some.inj stepped
    exact settled_step settled at_ answered
  refine ⟨fun released => ?_, settled.clean.gone, settled.clean.answers⟩
  have fits := settled.fits
  rwa [ListFits, released] at fits

/-- A data call for 1 is started, connected and closed; 2 subscribes before the close is done and gets
a call of its own, for which the service is busy at first. -/
theorem data_calls_keep_list_sample :
    let one : Subscriber := { type := .DS, ID := 1 }
    let two : Subscriber := { type := .DS, ID := 2 }
    let events : List (Event × Environment) :=
      [(.subscribeRsrc one, {}), (.onRsrcEvent .granted, {}), (.unsubscribeRsrc one, {}),
        (.subscribeRsrc two, {}), (.onRsrcEvent .released, { answer := errEngineBusy })]
    let m := Agps.run { isDS := true, mEnforceSingleSubscriber := false } events
    m.mStatePtr = .pending ∧ m.mRetries = 1 ∧ deniedOnAnswer m.out = false := by
  intro one two events m
  refine ⟨by decide +kernel, by decide +kernel, (@data_calls_keep_list events m ?_).2.2⟩
  iterate 5 refine .cons (by decide +kernel) rfl ?_
  change Runs.Run _ _ _ [] (events.foldl step _)
  exact .nil _

/-- An unsupported call: the subscriber is denied and stays on the list, in Released. A busy service
leaves it there as well. And the retries of a request that succeeds count for the next one: two busy
answers and it is denied. -/
theorem data_calls_leave_list :
    let one : Subscriber := { type := .DS, ID := 1 }
    let init : AgpsStateMachine := { isDS := true, mEnforceSingleSubscriber := false }
    let busy : Event × Environment := (.subscribeRsrc one, { answer := errEngineBusy })
    let refused := step init (.subscribeRsrc one, { answer := errUnsupported })
    let waiting := step init busy
    let again := Agps.run init [busy, busy, busy, (.subscribeRsrc one, {}), (.onRsrcEvent .granted, {}),
      (.unsubscribeRsrc one, {}), (.onRsrcEvent .released, {}), busy, busy]
    (refused.mStatePtr = .released ∧ denied refused.out = [0] ∧
      refused.mSubscribers.map (·.addr) = [0]) ∧
    (waiting.mStatePtr = .released ∧ waiting.mSubscribers.map (·.addr) = [0]) ∧
    deniedOnAnswer again.out = true := by
  decide +kernel

end Hima.Agps
