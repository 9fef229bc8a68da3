import Mathlib.Data.List.Basic

/-!
# Position reports

Fix sessions, muting, and the reports that the engine thread takes from its queue. A step records what it
called, so that deliveries can be counted over a whole run.
-/
namespace Hima.Gps.PositionReports

/-- loc_sess_status -/
inductive SessStatus where
  | success
  | intermediate
  | failure
  deriving DecidableEq

/-- loc_mute_session_e_type -/
inductive MuteSession where
  | none
  | wait
  | inSession
  deriving DecidableEq

/-- loc_api_adapter_err; ENGINE_DOWN is another name of PHONE_OFFLINE. -/
inductive ApiErr where
  | success
  | generalFailure
  | unsupported
  | invalidHandle
  | invalidParameter
  | engineBusy
  | phoneOffline
  | timeout
  | serviceNotPresent
  | internal
  | failure
  | unknown
  deriving DecidableEq

inductive Recurrence where
  | periodic
  | single
  deriving DecidableEq

/-- GpsStatusValue -/
abbrev GpsStatus := UInt16

namespace GpsStatus

def none : GpsStatus := 0
def sessionBegin : GpsStatus := 1
def sessionEnd : GpsStatus := 2
def engineOn : GpsStatus := 3
def engineOff : GpsStatus := 4

end GpsStatus

/-- LOC_POS_TECH_MASK_SATELLITE, SENSORS and HYBRID -/
def wantedTech : UInt32 := 0x1 ||| 0x8 ||| 0x80

/-- GPS_LOCATION_HAS_ACCURACY -/
def hasAccuracy : UInt16 := 0x10

/-- What the engine reads of a UlpLocation; no `rawData` is NULL. -/
structure UlpLocation where
  flags : UInt16
  accuracy : Float32
  rawData : Option Nat
  deriving DecidableEq

/-- LocEngReportPosition -/
structure Report where
  location : UlpLocation
  locationExt : Option Nat
  status : SessStatus
  techMask : UInt32

/-- What stays as it is while the engine runs. -/
structure Settings where
  locationCb : Bool
  statusCb : Bool
  intermediateFix : UInt8
  accuracyThres : UInt32
  recurrence : Recurrence
  generateNmea : Bool

structure LocEng where
  muteSession : MuteSession
  inSession : Bool
  engineStatus : GpsStatus
  fixSessionStatus : GpsStatus
  deriving DecidableEq

inductive Call where
  | locationCb (location : Option UlpLocation) (locationExt : Option Nat)
  | statusCb (status : GpsStatus)
  | startFix
  | stopFix
  | setInSession (inSession : Bool)
  | generateNmea (location : UlpLocation) (generate : Bool)
  | free (rawData : Nat)
  deriving DecidableEq

inductive Action where
  /-- loc_eng_start_handler; the modem answers with `result` if it is asked. -/
  | start (result : ApiErr)
  | stop
  | muteOneSession
  | reportStatus (status : GpsStatus)
  | proc (report : Report)

/-! ### The handlers -/

namespace LocEng

variable (g : Settings) (s : LocEng)

/-- loc_eng_start_handler -/
def startHandler (result : ApiErr) : LocEng × List Call :=
  if s.inSession then (s, [])
  else if result = .success ∨ result = .phoneOffline ∨ result = .internal then
    ({ s with inSession := true }, [.startFix, .setInSession true])
  else (s, [.startFix])

/-- loc_eng_stop_handler -/
def stopHandler : LocEng × List Call :=
  if s.inSession then ({ s with inSession := false }, [.stopFix, .setInSession false]) else (s, [])

/-- loc_eng_mute_one_session -/
def muteOneSession : LocEng := { s with muteSession := .wait }

/-- The part of loc_eng_report_status that changes the mute state. -/
def switchMute (status : GpsStatus) : LocEng :=
  -- a session that begins is muted, and it is heard of again after its end
  let s :=
    if (status = .sessionBegin ∨ status = .engineOn) ∧ s.muteSession = .wait then
      { s with muteSession := .inSession }
    else s
  if s.muteSession = .inSession ∧ (status = .sessionEnd ∨ status = .engineOff) then
    { s with muteSession := .none }
  else s

/-- loc_eng_report_status -/
def reportStatus (status : GpsStatus) : LocEng × List Call :=
  let s := s.switchMute status
  let informed :=
    status ≠ .none ∧ ¬ (status = .sessionEnd ∧ s.inSession) ∧ ¬ (status = .sessionBegin ∧ ¬ s.inSession) ∧
      s.muteSession ≠ .inSession ∧ g.statusCb
  ({ s with
      engineStatus := if status = .engineOn ∨ status = .engineOff then status else s.engineStatus
      fixSessionStatus :=
        if status = .sessionBegin ∨ status = .sessionEnd then status else s.fixSessionStatus },
    if informed then [.statusCb status] else [])

end LocEng

namespace Report

variable (g : Settings) (r : Report)

def WantedTech : Prop := wantedTech &&& r.techMask ≠ 0

/-- There is inaccuracy, we care about it, and it exceeds our tolerance. -/
def Inaccurate : Prop :=
  r.location.flags &&& hasAccuracy ≠ 0 ∧ g.accuracyThres ≠ 0 ∧ g.accuracyThres.toFloat32 < r.location.accuracy

/-- Intermediate fixes are accepted, and this one would be. -/
def Tolerated : Prop := g.intermediateFix = 1 ∧ ¬ r.Inaccurate g

/-- The test as the code makes it. -/
def Passes : Prop := r.status = .success ∧ r.WantedTech ∨ r.Tolerated g

instance : Decidable r.WantedTech := inferInstanceAs (Decidable (_ ≠ _))
instance : Decidable (r.Inaccurate g) := inferInstanceAs (Decidable (_ ∧ _))
instance : Decidable (r.Tolerated g) := inferInstanceAs (Decidable (_ ∧ _))
instance : Decidable (r.Passes g) := inferInstanceAs (Decidable (_ ∨ _))

/-- What the report gives to location_cb. -/
def deliver : List Call :=
  if g.locationCb = false then []
  else if r.status = .failure then [.locationCb none none]
  else if r.Passes g then [.locationCb (some r.location) r.locationExt]
  else []

end Report

/-- LocEngReportPosition::proc -/
def LocEng.proc (g : Settings) (s : LocEng) (r : Report) : LocEng × List Call :=
  if s.muteSession = .inSession then (s, [])
  else
    let reported := r.deliver g ≠ []
    let last := reported ∧ g.recurrence = .single
    let s := if last then { s with inSession := false } else s
    -- the modem could still be working for a final fix, which is no longer needed
    let ending :=
      if last then (if r.status = .intermediate then [.stopFix] else []) ++ [.setInSession false] else []
    let nmea :=
      if g.generateNmea ∧ s.inSession then
        [.generateNmea r.location (reported ∧ r.status ≠ .failure)]
      else []
    (s, r.deliver g ++ ending ++ nmea ++ r.location.rawData.toList.map .free)

/-! ### Runs -/

/-- A step that was taken: the state it was taken in and what it called. -/
structure Entry where
  before : LocEng
  action : Action
  calls : List Call

/-- The engine with everything that happened, the latest first. -/
structure Engine where
  eng : LocEng
  trace : List Entry

def LocEng.step (g : Settings) (s : LocEng) : Action → LocEng × List Call
  | .start result => s.startHandler result
  | .stop => s.stopHandler
  | .muteOneSession => (s.muteOneSession, [])
  | .reportStatus status => s.reportStatus g status
  | .proc report => s.proc g report

def Engine.step (g : Settings) (t : Engine) (a : Action) : Engine :=
  ⟨(t.eng.step g a).1, ⟨t.eng, a, (t.eng.step g a).2⟩ :: t.trace⟩

/-- The positions among the arguments of location_cb; NULL is none. -/
def positions (calls : List Call) : List (UlpLocation × Option Nat) :=
  calls.filterMap fun
    | .locationCb (some location) locationExt => some (location, locationExt)
    | _ => none

def frees (calls : List Call) : List Nat :=
  calls.filterMap fun
    | .free rawData => some rawData
    | _ => none

/-- How many positions each started session has delivered, the latest first. -/
def sessions : List Entry → List Nat
  | [] => []
  | e :: older =>
    if .setInSession true ∈ e.calls then 0 :: sessions older
    else (sessions older).modifyHead (· + (positions e.calls).length)

/-! ### What is promised -/

/-- A final fix with one of the wanted technologies, or an intermediate fix that is accurate enough while such
fixes are accepted. -/
def Report.Rule (g : Settings) (r : Report) : Prop :=
  r.status = .success ∧ r.WantedTech ∨ r.status = .intermediate ∧ r.Tolerated g

instance (g : Settings) (r : Report) : Decidable (r.Rule g) := inferInstanceAs (Decidable (_ ∨ _))

def Action.rawData : Action → Option Nat
  | .proc report => report.location.rawData
  | _ => none

structure Delivery (g : Settings) (trace : List Entry) : Prop where
  rule : ∀ e ∈ trace, ∀ r, e.action = .proc r → e.before.muteSession ≠ .inSession → r.status ≠ .failure →
    positions e.calls = if r.Rule g then [(r.location, r.locationExt)] else []
  single : g.recurrence = .single → ∀ n ∈ sessions trace, n ≤ 1
  freed : ∀ e ∈ trace, frees e.calls = e.action.rawData.toList

/-- The step starts a session. -/
def Entry.Starts (e : Entry) : Prop :=
  match e.action with
  | .start result =>
    e.before.inSession = false ∧ (result = .success ∨ result = .phoneOffline ∨ result = .internal)
  | _ => False

/-- The step takes a report from the queue that is heard and passes the test. -/
def Entry.Passed (g : Settings) (e : Entry) : Prop :=
  match e.action with
  | .proc r => e.before.muteSession ≠ .inSession ∧ r.status ≠ .failure ∧ r.Passes g
  | _ => False

instance (e : Entry) : Decidable e.Starts := by
  unfold Entry.Starts
  split <;> infer_instance

instance (g : Settings) (e : Entry) : Decidable (e.Passed g) := by
  unfold Entry.Passed
  split <;> infer_instance

/-- A session has been started, and since the latest start a report has passed. -/
def PassedSince (g : Settings) : List Entry → Prop
  | [] => False
  | e :: older => ¬ e.Starts ∧ (e.Passed g ∧ (∃ e ∈ older, e.Starts) ∨ PassedSince g older)

instance (g : Settings) (trace : List Entry) : Decidable (PassedSince g trace) := by
  induction trace with
  | nil => exact inferInstanceAs (Decidable False)
  | cons e older ih => exact @instDecidableAnd _ _ inferInstance (@instDecidableOr _ _ inferInstance ih)

/-- A muted report has no rawData. Any other one that is a final fix has a wanted technology or would not do as
an intermediate fix, and in single-shot mode one that passes the test comes while the session is on, or no
other has passed since the latest start. -/
def Engine.Expected (g : Settings) (t : Engine) : Action → Prop
  | .proc r =>
    if t.eng.muteSession = .inSession then r.location.rawData = none
    else
      (r.status = .success → r.WantedTech ∨ ¬ r.Tolerated g) ∧
        (g.recurrence = .single → r.status ≠ .failure → r.Passes g →
          t.eng.inSession ∨ ¬ PassedSince g t.trace)
  | _ => True

/-- Every step of the run is as expected in the state it is taken in. -/
def Engine.AllExpected (g : Settings) (t : Engine) : List Action → Prop
  | [] => True
  | a :: as => t.Expected g a ∧ (t.step g a).AllExpected g as

instance (g : Settings) (t : Engine) (a : Action) : Decidable (t.Expected g a) := by
  cases a <;> unfold Engine.Expected <;> infer_instance

instance (g : Settings) (t : Engine) (as : List Action) : Decidable (t.AllExpected g as) := by
  induction as generalizing t with
  | nil => exact inferInstanceAs (Decidable True)
  | cons a as ih => exact @instDecidableAnd _ _ inferInstance (ih (t.step g a))

/-! ### What the calls of a step are -/

variable {g : Settings} {r : Report} {s : LocEng}

@[simp] theorem positions_append (calls more : List Call) :
    positions (calls ++ more) = positions calls ++ positions more := List.filterMap_append

@[simp] theorem frees_append (calls more : List Call) : frees (calls ++ more) = frees calls ++ frees more :=
  List.filterMap_append

/-- Calls that have nothing to do with positions, starts and rawData. -/
def Quiet (calls : List Call) : Prop :=
  positions calls = [] ∧ frees calls = [] ∧ .setInSession true ∉ calls

theorem Quiet.append {calls more : List Call} (quiet : Quiet calls) (too : Quiet more) : Quiet (calls ++ more) := by
  obtain ⟨positions, freed, starts⟩ := quiet
  obtain ⟨positions', freed', starts'⟩ := too
  refine ⟨by simp [positions, positions'], by simp [freed, freed'], ?_⟩
  rw [List.mem_append]
  exact not_or.mpr ⟨starts, starts'⟩

theorem Quiet.ite {calls : List Call} (quiet : Quiet calls) (c : Prop) [Decidable c] :
    Quiet (if c then calls else []) := by
  split
  · exact quiet
  · exact ⟨rfl, rfl, nofun⟩

theorem deliver_calls (set : g.locationCb = true) :
    positions (r.deliver g) = (if r.status ≠ .failure ∧ r.Passes g then [(r.location, r.locationExt)] else []) ∧
      frees (r.deliver g) = [] ∧ .setInSession true ∉ r.deliver g ∧
      (r.deliver g = [] ↔ r.status ≠ .failure ∧ ¬ r.Passes g) := by
  rw [Report.deliver, if_neg (by rw [set]; nofun)]
  by_cases failed : r.status = .failure
  · simp [failed, positions, frees]
  · by_cases passes : r.Passes g <;> simp [failed, passes, positions, frees]

/-- Unless muted, a report is delivered as the test says and its rawData is freed. -/
theorem proc_calls (heard : s.muteSession ≠ .inSession) :
    ∃ between, Quiet between ∧
      (s.proc g r).2 = r.deliver g ++ between ++ r.location.rawData.toList.map .free := by
  rw [LocEng.proc, if_neg heard]
  refine ⟨_, ?_, congrArg (· ++ _) (List.append_assoc _ _ _)⟩
  have stopFix : Quiet [.stopFix] := ⟨rfl, rfl, by simp⟩
  have endSession : Quiet [.setInSession false] := ⟨rfl, rfl, by simp⟩
  have generateNmea (generate : Bool) : Quiet [.generateNmea r.location generate] := ⟨rfl, rfl, by simp⟩
  exact (((stopFix.ite _).append endSession).ite _).append ((generateNmea _).ite _)

theorem frees_map_free (rawData : Option Nat) : frees (rawData.toList.map .free) = rawData.toList := by
  cases rawData <;> rfl

theorem positions_map_free (rawData : Option Nat) : positions (rawData.toList.map .free) = [] := by
  cases rawData <;> rfl

theorem starts_map_free (rawData : Option Nat) : .setInSession true ∉ rawData.toList.map Call.free := by
  cases rawData <;> simp

theorem positions_proc (set : g.locationCb = true) (heard : s.muteSession ≠ .inSession) :
    positions (s.proc g r).2 =
      if r.status ≠ .failure ∧ r.Passes g then [(r.location, r.locationExt)] else [] := by
  obtain ⟨between, ⟨none_between, -, -⟩, calls⟩ := proc_calls (g := g) (r := r) heard
  rw [calls, positions_append, positions_append, none_between, positions_map_free, (deliver_calls set).1]
  simp

theorem frees_proc (set : g.locationCb = true) (heard : s.muteSession ≠ .inSession) :
    frees (s.proc g r).2 = r.location.rawData.toList := by
  obtain ⟨between, ⟨-, none_between, -⟩, calls⟩ := proc_calls (g := g) (r := r) heard
  rw [calls, frees_append, frees_append, none_between, frees_map_free, (deliver_calls set).2.1]
  rfl

theorem starts_proc (set : g.locationCb = true) : .setInSession true ∉ (s.proc g r).2 := by
  by_cases muted : s.muteSession = .inSession
  · rw [LocEng.proc, if_pos muted]
    nofun
  · obtain ⟨between, ⟨-, -, none_between⟩, calls⟩ := proc_calls (g := g) (r := r) muted
    rw [calls, List.mem_append, List.mem_append]
    exact not_or.mpr ⟨not_or.mpr ⟨(deliver_calls set).2.2.1, none_between⟩, starts_map_free _⟩

theorem proc_muted (muted : s.muteSession = .inSession) : s.proc g r = (s, []) := if_pos muted

/-- In single-shot mode a delivery ends the session; without one the session stays as it is. -/
theorem proc_inSession (set : g.locationCb = true) (heard : s.muteSession ≠ .inSession) :
    (s.proc g r).1.inSession =
      if (r.status = .failure ∨ r.Passes g) ∧ g.recurrence = .single then false else s.inSession := by
  have delivers : r.deliver g ≠ [] ↔ r.status = .failure ∨ r.Passes g := by
    rw [ne_eq, (deliver_calls set).2.2.2, not_and_or, not_not, not_not]
  rw [LocEng.proc, if_neg heard]
  simp only [delivers]
  split <;> rfl

/-- Only `proc` delivers positions and frees. -/
theorem step_quiet {a : Action} (other : ∀ r, a ≠ .proc r) :
    positions (s.step g a).2 = [] ∧ frees (s.step g a).2 = [] := by
  cases a with
  | start result =>
    rw [LocEng.step, LocEng.startHandler]
    split
    · exact ⟨rfl, rfl⟩
    · split <;> exact ⟨rfl, rfl⟩
  | stop =>
    rw [LocEng.step, LocEng.stopHandler]
    split <;> exact ⟨rfl, rfl⟩
  | muteOneSession => exact ⟨rfl, rfl⟩
  | reportStatus status =>
    have informed : Quiet [.statusCb status] := ⟨rfl, rfl, by simp⟩
    exact ⟨(informed.ite _).1, (informed.ite _).2.1⟩
  | proc r => exact absurd rfl (other r)

theorem switchMute_inSession (status : GpsStatus) : (s.switchMute status).inSession = s.inSession := by
  rw [LocEng.switchMute]
  split <;> split <;> rfl

/-- A step other than `proc` either starts a session or leaves it no more on than it was. -/
theorem step_inSession {a : Action} (other : ∀ r, a ≠ .proc r)
    (starts : .setInSession true ∉ (s.step g a).2) (on : (s.step g a).1.inSession = true) :
    s.inSession = true := by
  cases a with
  | start result =>
    rw [LocEng.step, LocEng.startHandler] at starts on
    split at on
    next already => exact already
    next not_yet =>
      rw [if_neg not_yet] at starts
      split at on
      next started =>
        rw [if_pos started] at starts
        exact absurd (by simp) starts
      next => exact on
  | stop =>
    rw [LocEng.step, LocEng.stopHandler] at on
    split at on
    next already => exact already
    next => exact on
  | muteOneSession => exact on
  | reportStatus status =>
    exact (switchMute_inSession status).symm.trans on
  | proc r => exact absurd rfl (other r)

/-! ### Sessions -/

variable {t : Engine} {a : Action}

/-- In single-shot mode a session that is on has delivered nothing yet. -/
def Engine.Idle (g : Settings) (t : Engine) : Prop :=
  g.recurrence = .single → t.eng.inSession = true → ∀ n ∈ (sessions t.trace).head?, n = 0

variable {e : Entry}

theorem sessions_starts {older : List Entry} (starts : .setInSession true ∈ e.calls) :
    sessions (e :: older) = 0 :: sessions older := if_pos starts

theorem sessions_goes_on {older : List Entry} (goes_on : .setInSession true ∉ e.calls) :
    sessions (e :: older) = (sessions older).modifyHead (· + (positions e.calls).length) := if_neg goes_on

theorem sessions_delivers_none {older : List Entry} (goes_on : .setInSession true ∉ e.calls)
    (no_position : positions e.calls = []) : sessions (e :: older) = sessions older := by
  rw [sessions_goes_on goes_on, no_position]
  exact congrFun List.modifyHead_id _

/-- What the steps of the trace called is what these steps call. -/
def Engine.Genuine (g : Settings) (t : Engine) : Prop :=
  ∀ e ∈ t.trace, e.calls = (e.before.step g e.action).2

theorem genuine_step (genuine : t.Genuine g) (a : Action) : (t.step g a).Genuine g :=
  List.forall_mem_cons.mpr ⟨rfl, genuine⟩

theorem starts_iff (set : g.locationCb = true) (genuine : e.calls = (e.before.step g e.action).2) :
    .setInSession true ∈ e.calls ↔ e.Starts := by
  rw [genuine, Entry.Starts]
  cases e.action with
  | start result =>
    rw [LocEng.step, LocEng.startHandler]
    split
    next already => simp [already]
    next not_yet =>
      split
      next answered => simp [not_yet, answered]
      next refused => simp [refused]
  | stop =>
    rw [LocEng.step, LocEng.stopHandler]
    split <;> simp
  | muteOneSession => exact iff_of_false nofun id
  | reportStatus status =>
    rw [LocEng.step, LocEng.reportStatus]
    split <;> simp
  | proc r => exact iff_of_false (starts_proc set) id

theorem positions_iff (set : g.locationCb = true) (genuine : e.calls = (e.before.step g e.action).2) :
    (positions e.calls).length = 0 ↔ ¬ e.Passed g := by
  rw [genuine, Entry.Passed]
  cases action : e.action with
  | proc r =>
    by_cases muted : e.before.muteSession = .inSession
    · rw [LocEng.step, proc_muted muted]
      simp [muted, positions]
    · rw [LocEng.step, positions_proc set muted]
      split <;> simp [*]
  | _ =>
    refine iff_of_true (congrArg List.length (step_quiet ?_).1) id
    nofun

/-- The latest session has delivered nothing exactly if no report has passed since its start. -/
theorem undelivered_iff (set : g.locationCb = true) {trace : List Entry}
    (genuine : ∀ e ∈ trace, e.calls = (e.before.step g e.action).2) :
    (sessions trace = [] ↔ ¬ ∃ e ∈ trace, e.Starts) ∧
      ((∀ n ∈ (sessions trace).head?, n = 0) ↔ ¬ PassedSince g trace) := by
  induction trace with
  | nil => simp [sessions, PassedSince]
  | cons e older ih =>
    obtain ⟨latest, before⟩ := List.forall_mem_cons.mp genuine
    obtain ⟨none_started, none_passed⟩ := ih before
    have begins := starts_iff set latest
    rw [PassedSince, List.exists_mem_cons_iff]
    by_cases starts : e.Starts
    · rw [sessions_starts (begins.mpr starts)]
      simp [starts]
    · rw [sessions_goes_on (mt begins.mp starts)]
      have delivers := positions_iff set latest
      cases counts : sessions older with
      | nil =>
        rw [counts] at none_started none_passed
        simpa [starts, none_started.mp rfl] using none_passed
      | cons n rest =>
        rw [counts] at none_started none_passed
        have started : ∃ e ∈ older, e.Starts := not_not.mp fun never => nomatch none_started.mpr never
        simp only [List.head?_cons, Option.mem_some_iff, forall_eq'] at none_passed
        simp [starts, started, none_passed, delivers, and_comm]

theorem idle_step (set : g.locationCb = true) (idle : t.Idle g) : (t.step g a).Idle g := by
  intro single on
  by_cases starts : .setInSession true ∈ (t.eng.step g a).2
  · -- the session that begins is the one that counts now
    rw [Engine.step, sessions_starts starts]
    rintro n ⟨⟩
    rfl
  by_cases no_position : positions (t.eng.step g a).2 = []
  · -- nothing is delivered, and the session is on only if it was
    rw [Engine.step, sessions_delivers_none starts no_position]
    apply idle single
    by_cases other : ∀ r, a ≠ .proc r
    · exact step_inSession other starts on
    · push Not at other
      obtain ⟨r, rfl⟩ := other
      by_cases muted : t.eng.muteSession = .inSession
      · rwa [Engine.step, LocEng.step, proc_muted muted] at on
      · rw [Engine.step, LocEng.step, proc_inSession set muted] at on
        split at on
        · cases on
        · exact on
  · -- a position was delivered, which ends the session
    by_cases other : ∀ r, a ≠ .proc r
    · exact absurd (step_quiet other).1 no_position
    · push Not at other
      obtain ⟨r, rfl⟩ := other
      by_cases muted : t.eng.muteSession = .inSession
      · rw [LocEng.step, proc_muted muted] at no_position
        exact absurd rfl no_position
      · rw [LocEng.step, positions_proc set muted] at no_position
        rw [Engine.step, LocEng.step, proc_inSession set muted] at on
        split at no_position
        next passes =>
          rw [if_pos ⟨.inr passes.2, single⟩] at on
          cases on
        next => exact absurd rfl no_position

/-! ### Exactness -/

theorem Delivery.nil : Delivery g [] where
  rule := List.forall_mem_nil _
  single := fun _ => List.forall_mem_nil _
  freed := List.forall_mem_nil _

theorem Delivery.older {trace : List Entry} (h : Delivery g (e :: trace)) : Delivery g trace where
  rule := fun e' member => h.rule e' (List.mem_cons_of_mem _ member)
  single := by
    intro single n member
    by_cases starts : .setInSession true ∈ e.calls
    · have before := h.single single
      rw [sessions_starts starts] at before
      exact before n (List.mem_cons_of_mem _ member)
    · have before := h.single single
      rw [sessions_goes_on starts] at before
      cases counts : sessions trace with
      | nil =>
        rw [counts] at member
        cases member
      | cons m rest =>
        rw [counts] at before member
        obtain rfl | earlier := List.mem_cons.mp member
        · exact Nat.le_trans (Nat.le_add_right _ _) (before _ List.mem_cons_self)
        · exact before n (List.mem_cons_of_mem _ earlier)
  freed := fun e' member => h.freed e' (List.mem_cons_of_mem _ member)

theorem Delivery.cons {trace : List Entry} (h : Delivery g trace)
    (rule : ∀ r, e.action = .proc r → e.before.muteSession ≠ .inSession → r.status ≠ .failure →
      positions e.calls = if r.Rule g then [(r.location, r.locationExt)] else [])
    (single : g.recurrence = .single → ∀ n ∈ sessions (e :: trace), n ≤ 1)
    (released : frees e.calls = e.action.rawData.toList) : Delivery g (e :: trace) where
  rule := by
    intro e' member
    obtain rfl | earlier := List.mem_cons.mp member
    · exact rule
    · exact h.rule e' earlier
  single := single
  freed := by
    intro e' member
    obtain rfl | earlier := List.mem_cons.mp member
    · exact released
    · exact h.freed e' earlier

/-- A step that delivers no position keeps every count. -/
theorem Delivery.counts {trace : List Entry} (h : Delivery g trace)
    (no_position : positions e.calls = []) (single : g.recurrence = .single) :
    ∀ n ∈ sessions (e :: trace), n ≤ 1 := by
  by_cases starts : .setInSession true ∈ e.calls
  · rw [sessions_starts starts]
    intro n member
    obtain rfl | earlier := List.mem_cons.mp member
    · exact Nat.zero_le 1
    · exact h.single single n earlier
  · rw [sessions_delivers_none starts no_position]
    exact h.single single

/-- One more position, where all counts were at most one. -/
theorem counts_succ {counts : List Nat} (before : ∀ n ∈ counts, n ≤ 1) :
    (∀ n ∈ counts.modifyHead (· + 1), n ≤ 1) ↔ ∀ n ∈ counts.head?, n = 0 := by
  cases counts with
  | nil => simp
  | cons m rest =>
    have later : ∀ n ∈ rest, n ≤ 1 := fun n member => before n (List.mem_cons_of_mem _ member)
    simp only [List.modifyHead_cons, List.forall_mem_cons, List.head?_cons, Option.mem_some_iff, forall_eq']
    constructor
    · rintro ⟨le_one, -⟩
      omega
    · rintro rfl
      exact ⟨Nat.le_refl 1, later⟩

/-- The test lets through what the rule asks for, and beside it only final fixes that would do as intermediate
ones. -/
theorem passes_iff_rule (sound : r.status ≠ .failure) :
    (r.Passes g ↔ r.Rule g) ↔ (r.status = .success → r.WantedTech ∨ ¬ r.Tolerated g) := by
  rw [Report.Passes, Report.Rule]
  cases status : r.status with
  | success => simp only [reduceCtorEq, false_and, or_false, true_and, forall_const]; tauto
  | intermediate => simp
  | failure => exact absurd status sound

theorem delivery_other (other : ∀ r, a ≠ .proc r) (h : Delivery g t.trace) : Delivery g (t.step g a).trace := by
  obtain ⟨no_position, none_freed⟩ := step_quiet (g := g) (s := t.eng) other
  have no_rawData : a.rawData = none := by
    cases a with
    | proc r => exact absurd rfl (other r)
    | _ => rfl
  refine h.cons (fun r same => absurd same (other r)) (h.counts no_position) ?_
  rw [none_freed, no_rawData]
  rfl

theorem delivery_muted (muted : t.eng.muteSession = .inSession) (h : Delivery g t.trace) :
    Delivery g (t.step g (.proc r)).trace ↔ r.location.rawData = none := by
  have calls : (t.eng.step g (.proc r)).2 = [] := by rw [LocEng.step, proc_muted muted]
  constructor
  · intro after
    have released := after.freed _ List.mem_cons_self
    rw [calls] at released
    exact Option.toList_eq_nil_iff.mp released.symm
  · intro no_rawData
    refine h.cons (fun _ _ heard => absurd muted heard) ?_ ?_
    · exact h.counts (by rw [calls]; rfl)
    · rw [calls, Action.rawData, no_rawData]
      rfl

/-- In single-shot mode, whether the report may still be delivered. -/
theorem single_iff {trace : List Entry} (h : Delivery g trace) (idle : e.before.inSession = true →
      g.recurrence = .single → ∀ n ∈ (sessions trace).head?, n = 0) (goes_on : .setInSession true ∉ e.calls)
    (calls : positions e.calls =
      if r.status ≠ .failure ∧ r.Passes g then [(r.location, r.locationExt)] else []) :
    (g.recurrence = .single → ∀ n ∈ sessions (e :: trace), n ≤ 1) ↔
      (g.recurrence = .single → r.status ≠ .failure → r.Passes g →
        e.before.inSession = true ∨ ∀ n ∈ (sessions trace).head?, n = 0) := by
  apply forall_congr'
  intro single
  by_cases passes : r.status ≠ .failure ∧ r.Passes g
  · have one : sessions (e :: trace) = (sessions trace).modifyHead (· + 1) := by
      rw [sessions_goes_on goes_on, calls, if_pos passes]
      rfl
    -- a session that is on has delivered nothing, so its count decides alone
    have none_yet : (e.before.inSession = true ∨ ∀ n ∈ (sessions trace).head?, n = 0) ↔
        ∀ n ∈ (sessions trace).head?, n = 0 := or_iff_right_of_imp fun on => idle on single
    rw [one, counts_succ (h.single single), forall_prop_of_true passes.1, forall_prop_of_true passes.2, none_yet]
  · rw [if_neg passes] at calls
    exact iff_of_true (h.counts calls single) fun sound passes' => absurd ⟨sound, passes'⟩ passes

theorem delivery_heard (set : g.locationCb = true) (heard : t.eng.muteSession ≠ .inSession) (idle : t.Idle g)
    (h : Delivery g t.trace) :
    Delivery g (t.step g (.proc r)).trace ↔ (r.status = .success → r.WantedTech ∨ ¬ r.Tolerated g) ∧
        (g.recurrence = .single → r.status ≠ .failure → r.Passes g →
          t.eng.inSession = true ∨ ∀ n ∈ (sessions t.trace).head?, n = 0) := by
  have calls : positions (t.eng.step g (.proc r)).2 = _ := positions_proc set heard
  have goes_on : .setInSession true ∉ (t.eng.step g (.proc r)).2 := starts_proc set
  have at_most := single_iff (e := ⟨t.eng, .proc r, (t.eng.step g (.proc r)).2⟩) h (fun on single => idle single on)
    goes_on calls
  constructor
  · intro after
    refine ⟨?_, at_most.mp after.single⟩
    -- where test and rule differ, the calls follow the test
    intro final
    have sound : r.status ≠ .failure := by
      rw [final]
      nofun
    apply (passes_iff_rule sound).mp _ final
    have rule := after.rule _ List.mem_cons_self r rfl heard sound
    rw [calls] at rule
    by_cases passes : r.Passes g <;> by_cases asked : r.Rule g <;>
      simp [sound, passes, asked] at rule ⊢
  · rintro ⟨rule, single⟩
    refine h.cons ?_ (at_most.mpr single) (frees_proc set heard)
    rintro r' same - sound
    obtain rfl := Action.proc.inj same
    rw [calls]
    have exactly := (passes_iff_rule sound).mpr rule
    simp only [sound, exactly, ne_eq, not_false_eq_true, true_and]

theorem delivery_step (set : g.locationCb = true) (genuine : t.Genuine g) (idle : t.Idle g)
    (h : Delivery g t.trace) : Delivery g (t.step g a).trace ↔ t.Expected g a := by
  cases a with
  | proc r =>
    rw [Engine.Expected, ← (undelivered_iff set genuine).2]
    split
    next muted => exact delivery_muted muted h
    next heard => exact delivery_heard set heard idle h
  | _ => exact iff_of_true (delivery_other nofun h) trivial

theorem delivery_kept (as : List Action) (after : Delivery g (as.foldl (Engine.step g) t).trace) :
    Delivery g t.trace := by
  induction as generalizing t with
  | nil => exact after
  | cons a as ih => exact (ih after).older

/-- Over a run: what is lost stays lost, so every step has to be as expected. -/
theorem delivery_foldl (set : g.locationCb = true) (as : List Action) (genuine : t.Genuine g)
    (idle : t.Idle g) (h : Delivery g t.trace) : Delivery g (as.foldl (Engine.step g) t).trace ↔ t.AllExpected g as := by
  induction as generalizing t with
  | nil => exact iff_of_true h trivial
  | cons a as ih =>
    have ih := ih (genuine_step genuine a) (idle_step set idle)
    rw [List.foldl_cons, Engine.AllExpected, ← delivery_step set genuine idle h]
    constructor
    · -- the promise held after the first step, or it could not hold now
      intro after
      have kept : Delivery g (t.step g a).trace := delivery_kept as after
      exact ⟨kept, (ih kept).mp after⟩
    · rintro ⟨kept, rest⟩
      exact (ih kept).mpr rest

/-- From an engine in any state, with nothing reported yet: the reports of a run are delivered as promised, each
session delivers what it may, and all rawData is freed, exactly when each step is as expected. -/
theorem delivery_iff (g : Settings) (set : g.locationCb = true) (eng : LocEng) (as : List Action) :
    Delivery g (as.foldl (Engine.step g) ⟨eng, []⟩).trace ↔ (Engine.mk eng []).AllExpected g as := by
  apply delivery_foldl set
  · exact List.forall_mem_nil _
  · rintro - - n ⟨⟩
  · exact .nil

def singleShot : Settings where
  locationCb := true
  statusCb := true
  intermediateFix := 1
  accuracyThres := 0
  recurrence := .single
  generateNmea := true

def switchedOn : LocEng where
  muteSession := .none
  inSession := false
  engineStatus := .none
  fixSessionStatus := .none

def report (status : SessStatus) (techMask : UInt32) (rawData : Option Nat) : Report :=
  ⟨⟨0, 0, rawData⟩, none, status, techMask⟩

def twoSessions : List Action :=
  [.start .success, .reportStatus .sessionBegin, .proc (report .intermediate 0x2 (some 7)), .start .phoneOffline,
    .muteOneSession, .reportStatus .engineOn, .proc (report .success 0x1 none), .reportStatus .sessionEnd,
    .proc (report .success 0x1 (some 8)), .stop]

theorem delivery_sample : (Engine.mk switchedOn []).AllExpected singleShot twoSessions ∧
    Delivery singleShot (twoSessions.foldl (Engine.step singleShot) ⟨switchedOn, []⟩).trace := by
  have expected : (Engine.mk switchedOn []).AllExpected singleShot twoSessions := by decide
  exact ⟨expected, (delivery_iff singleShot rfl switchedOn twoSessions).mpr expected⟩

/-- A final fix by cell towers that passes as an intermediate one. -/
def towerFix : List Action := [.start .success, .proc (report .success 0x2 none)]

/-- A queued report after the one that ended the session. -/
def queuedFix : List Action :=
  [.start .success, .proc (report .success 0x1 none), .proc (report .success 0x1 none)]

def mutedFix : List Action :=
  [.muteOneSession, .reportStatus .engineOn, .proc (report .success 0x1 (some 7))]

theorem undelivered :
    ¬ Delivery singleShot (towerFix.foldl (Engine.step singleShot) ⟨switchedOn, []⟩).trace ∧
      ¬ Delivery singleShot (queuedFix.foldl (Engine.step singleShot) ⟨switchedOn, []⟩).trace ∧
      ¬ Delivery singleShot (mutedFix.foldl (Engine.step singleShot) ⟨switchedOn, []⟩).trace := by
  have start : (Engine.mk switchedOn []).Idle singleShot := by rintro - - n ⟨⟩
  have genuine : (Engine.mk switchedOn []).Genuine singleShot := List.forall_mem_nil _
  have exactly (as : List Action) := delivery_foldl rfl as genuine start .nil
  rw [exactly, exactly, exactly]
  decide

end Hima.Gps.PositionReports
