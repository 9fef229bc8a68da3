import Hima.Lib.Runs
import Hima.Ipacm.ListDriver
import Hima.Ipacm.NatAppStep

/-!
# Power save

A connection with a sleeping end should not be offloaded, and should be again once its client
wakes. `AddEntry` looks at both ends; `UpdatePwrSaveIf` and `ResetPwrSaveIf` go by the private
address, and `AddTable` restores the cache without a look at the list of sleeping clients.
-/
namespace Hima.Ipacm

open Slots Runs NatApp

variable {σ : Type} {nat : NatDriver σ} {s s' : NatApp σ}

/-- Calls that name a table succeed, calls without one are refused. -/
structure NatDriver.Succeeds (nat : NatDriver σ) : Prop where
  addTbl : ∀ d pubIp n, ∃ hdl d', hdl ≠ 0 ∧ nat.addIpv4Tbl d pubIp n = (0, some hdl, d')
  delTbl : ∀ d hdl, hdl ≠ 0 → (nat.delIpv4Tbl d hdl).1 = 0
  addRule : ∀ d hdl rule, ¬(nat.addIpv4Rule d hdl rule).1 < 0 ↔ hdl ≠ 0
  delRule : ∀ d hdl r, ¬(nat.delIpv4Rule d hdl r).1 < 0 ↔ hdl ≠ 0

/-- No enabled entry has an end in power save. -/
def OffloadOff (s : NatApp σ) : Prop :=
  ∀ e ∈ s.cache, e.enabled = true → s.asleep e.connection = false

instance (s : NatApp σ) : Decidable (OffloadOff s) := inferInstanceAs (Decidable (∀ _ ∈ _, _))

/-- While a table exists, every entry of the client whose other end is not in power save is
enabled. -/
def Restored (s : NatApp σ) (ip : UInt32) : Prop :=
  s.natTableHdl ≠ 0 → ∀ e ∈ s.cache,
    (e.privateIp = ip ∧ s.isPwrSaveIf e.targetIp = false) ∨
      (e.targetIp = ip ∧ s.isPwrSaveIf e.privateIp = false) → e.enabled = true

/-! ### The list of sleeping clients -/

namespace NatApp

theorem isPwrSaveIf_iff {ip : UInt32} :
    s.isPwrSaveIf ip = true ↔ ip ≠ 0 ∧ ip ∈ s.pwrSaveIfs := by
  simp only [isPwrSaveIf, List.any_eq_true, decide_eq_true_eq]
  constructor
  · rintro ⟨x, member, nonzero, rfl⟩
    exact ⟨nonzero, member⟩
  · exact fun h => ⟨ip, h.2, h.1, rfl⟩

theorem asleep_eq_false {c : Connection} : s.asleep c = false ↔
    s.isPwrSaveIf c.privateIp = false ∧ s.isPwrSaveIf c.targetIp = false := by
  simp [asleep]

/-- With fewer clients asleep no connection falls asleep. -/
theorem asleep_mono (s s' : NatApp σ) (fewer : ∀ ip, s'.isPwrSaveIf ip = true → s.isPwrSaveIf ip = true)
    {c : Connection} (awake : s.asleep c = false) : s'.asleep c = false := by
  rw [asleep_eq_false] at awake ⊢
  constructor
  · cases on : s'.isPwrSaveIf c.privateIp with
    | false => rfl
    | true => simp [fewer _ on] at awake
  · cases on : s'.isPwrSaveIf c.targetIp with
    | false => rfl
    | true => simp [fewer _ on] at awake

/-- The client's first slot of the list is cleared. -/
def wakes (s : NatApp σ) (ip : UInt32) : NatApp σ :=
  { s with pwrSaveIfs := setFirst (· == ip) 0 s.pwrSaveIfs }

/-- The client gets the first free slot of the list. -/
def sleeps (s : NatApp σ) (ip : UInt32) : NatApp σ :=
  { s with pwrSaveIfs := setFirst (· == 0) ip s.pwrSaveIfs }

theorem wakes_fewer (ip x : UInt32) (on : (s.wakes ip).isPwrSaveIf x = true) :
    s.isPwrSaveIf x = true := by
  rw [isPwrSaveIf_iff] at on ⊢
  exact ⟨on.1, (mem_setFirst on.2).resolve_left on.1⟩

theorem sleeps_more (ip x : UInt32) (on : (s.sleeps ip).isPwrSaveIf x = true) :
    x = ip ∨ s.isPwrSaveIf x = true := by
  rw [isPwrSaveIf_iff] at on ⊢
  exact (mem_setFirst on.2).imp id fun old => ⟨on.1, old⟩

theorem sleeps_new {ip : UInt32} (nonzero : ip ≠ 0) (room : 0 ∈ s.pwrSaveIfs) :
    (s.sleeps ip).isPwrSaveIf ip = true :=
  isPwrSaveIf_iff.mpr ⟨nonzero, mem_setFirst_new ⟨0, room, by simp⟩ ip⟩

theorem sleeps_full (ip : UInt32) (full : 0 ∉ s.pwrSaveIfs) : s.sleeps ip = s := by
  have stays : setFirst (· == 0) ip s.pwrSaveIfs = s.pwrSaveIfs := by
    apply setFirst_of_none
    rw [List.find?_eq_none]
    intro x member zero
    have : x = 0 := by simpa using zero
    exact full (this ▸ member)
  simp only [sleeps, stays]

/-! ### What the loops do to one entry -/

section OneSlot

variable {tableHdl ip : UInt32} (c : Carried σ) (e : NatTableEntry)

/-- A withdrawn entry is disabled, if the driver could be told. -/
theorem withdrawEntry_off (works : nat.Succeeds) (tableHdl : UInt32)
    (withdrawn : NatTableEntry → NatTableEntry) (off : (withdrawn e).enabled = false) :
    (tableHdl ≠ 0 ∧ (withdrawEntry nat tableHdl withdrawn c e).2.enabled = false) ∨
      (tableHdl = 0 ∧ (withdrawEntry nat tableHdl withdrawn c e).2 = e) := by
  have result := withdrawEntry_cases nat tableHdl withdrawn c e
  generalize withdrawEntry nat tableHdl withdrawn c e = r at result ⊢
  have told := works.delRule c.1 tableHdl e.ruleHdl
  cases result with
  | refused call failed =>
    rw [call] at told
    exact Or.inr ⟨by_contra fun table => told.mpr table failed, rfl⟩
  | withdrawn call ok =>
    rw [call] at told
    exact Or.inl ⟨told.mp ok, off⟩

theorem restoreEntry_on (works : nat.Succeeds) (tableHdl : UInt32) :
    (tableHdl ≠ 0 ∧ (restoreEntry nat tableHdl c e).2.enabled = true ∧
      (restoreEntry nat tableHdl c e).2.connection = e.connection) ∨
    (tableHdl = 0 ∧ (restoreEntry nat tableHdl c e).2 = {}) := by
  have result := restoreEntry_cases nat tableHdl c e
  generalize restoreEntry nat tableHdl c e = r at result ⊢
  have told := works.addRule c.1 tableHdl e.natRule
  cases result with
  | dropped call failed =>
    rw [call] at told
    exact Or.inr ⟨by_contra fun table => told.mpr table failed, rfl⟩
  | restored call ok =>
    rw [call] at told
    exact Or.inl ⟨told.mp ok, rfl, rfl⟩

/-- What `UpdatePwrSaveIf` makes of an entry. -/
def SleptTo (tableHdl ip : UInt32) (e e' : NatTableEntry) : Prop :=
  (e.privateIp = ip ∧ tableHdl ≠ 0 ∧ e'.enabled = false) ∨
    ((e.privateIp ≠ ip ∨ e.enabled = false ∨ tableHdl = 0) ∧ e' = e)

theorem sleepSlot_sleptTo (works : nat.Succeeds) :
    SleptTo tableHdl ip e (sleepSlot nat tableHdl ip c e).2 := by
  unfold sleepSlot
  split
  next mine =>
    rcases withdrawEntry_off c e works tableHdl (fun e => { e with enabled := false, ruleHdl := 0 }) rfl with
      ⟨table, off⟩ | ⟨none, same⟩
    · exact Or.inl ⟨mine.1, table, off⟩
    · exact Or.inr ⟨Or.inr (Or.inr none), same⟩
  next other =>
    refine Or.inr ⟨?_, rfl⟩
    by_cases mine : e.privateIp = ip
    · exact Or.inr (Or.inl (by simpa [mine] using other))
    · exact Or.inl mine

/-- What `ResetPwrSaveIf` makes of an entry. -/
def WokenTo (tableHdl ip : UInt32) (e e' : NatTableEntry) : Prop :=
  if e.privateIp = ip ∧ e.enabled = false then
    if tableHdl = 0 then e' = {} else e'.enabled = true ∧ e'.connection = e.connection
  else e' = e

theorem wakeSlot_wokenTo (works : nat.Succeeds) :
    WokenTo tableHdl ip e (wakeSlot nat tableHdl ip c e).2 := by
  unfold wakeSlot WokenTo
  split
  next =>
    rcases restoreEntry_on c e works tableHdl with ⟨table, on⟩ | ⟨none, dropped⟩
    · rw [if_neg table]
      exact on
    · rw [if_pos none]
      exact dropped
  next => rfl

/-- What `AddTable` makes of an entry, under a new table. -/
def RestoredTo (e e' : NatTableEntry) : Prop :=
  if e.privateIp ≠ 0 then e'.enabled = true ∧ e'.connection = e.connection else e' = e

theorem restoreSlot_restoredTo (works : nat.Succeeds) (table : tableHdl ≠ 0) :
    RestoredTo e (restoreSlot nat tableHdl c e).2 := by
  unfold restoreSlot RestoredTo
  split
  next =>
    rcases restoreEntry_on c e works tableHdl with ⟨_, on⟩ | ⟨none, _⟩
    · exact on
    · exact absurd none table
  next => rfl

/-- The loops for clients that leave enable nothing. -/
theorem clntDisconSlot_off (on : (clntDisconSlot nat tableHdl ip c e).2.enabled = true) :
    (clntDisconSlot nat tableHdl ip c e).2 = e := by
  unfold clntDisconSlot at on ⊢
  split
  next mine =>
    rw [if_pos mine] at on
    have result := withdrawEntry_cases nat tableHdl (fun e => { e with enabled := false }) c e
    generalize withdrawEntry nat tableHdl (fun e => { e with enabled := false }) c e = r
      at result on ⊢
    cases result with
    | refused => rfl
    | withdrawn => simp at on
  next => rfl

theorem staClntDisconSlot_off (on : (staClntDisconSlot nat tableHdl ip c e).2.enabled = true) :
    (staClntDisconSlot nat tableHdl ip c e).2 = e := by
  by_cases target : e.targetIp = ip
  · have result := staClntDisconSlot_cases nat tableHdl c target
    generalize staClntDisconSlot nat tableHdl ip c e = r at result on ⊢
    cases result with
    | refused => rfl
    | deleted => simp at on
    | cached => simp at on
  · unfold staClntDisconSlot
    rw [if_neg target]

end OneSlot

/-! ### Calls that keep offload off -/

theorem addEntry_off (off : OffloadOff s) (rule : NatTableEntry) :
    OffloadOff (s.addEntry nat rule).2 := by
  have setting := addEntry_setting nat s rule
  suffices all : ∀ e ∈ (s.addEntry nat rule).2.cache, e.enabled = true →
      s.asleep e.connection = false by
    intro e member on
    rw [setting.asleep]
    exact all e member on
  have result := addEntry_cases nat s rule
  generalize s.addEntry nat rule = r at result ⊢
  unfold OffloadOff at off
  cases result with
  | ignored => exact off
  | @refused pre post slot _ _ _ _ _ cache _ _ _ =>
    rw [cache] at off
    exact forall_mem_replaced off (off slot (by simp))
  | parked _ _ cache _ =>
    rw [cache] at off
    refine forall_mem_replaced off fun on => ?_
    simp [filledSlot] at on
  | added _ awake cache _ _ _ =>
    rw [cache] at off
    exact forall_mem_replaced off fun _ => awake

theorem deleteEntry_off (off : OffloadOff s) (rule : NatTableEntry) :
    OffloadOff (s.deleteEntry nat rule).2 := by
  have result := deleteEntry_cases nat s rule
  generalize (s.deleteEntry nat rule).2 = s' at result ⊢
  unfold OffloadOff at off ⊢
  cases result with
  | absent => exact off
  | cached cache _ _ =>
    rw [cache] at off
    exact forall_mem_replaced off fun on => by simp at on
  | deleted cache _ _ =>
    rw [cache] at off
    exact forall_mem_replaced off fun on => by simp at on

theorem cacheEntry_off (off : OffloadOff s) {cnt : Int} {rule : NatTableEntry}
    (returned : s.cacheEntry cnt rule = some s') : OffloadOff s' := by
  have result := cacheEntry_cases returned
  unfold OffloadOff at off ⊢
  cases result with
  | ignored => exact off
  | cached _ _ cache _ =>
    rw [cache] at off
    refine forall_mem_replaced off fun on => ?_
    simp [filledSlot] at on

theorem flushTempEntries_off (off : OffloadOff s) (ip : UInt32) (isAdd : Bool) :
    OffloadOff (s.flushTempEntries nat ip isAdd) := by
  obtain ⟨a, _, off, temp, eq, _⟩ := flushTempEntries_adds nat s OffloadOff ip isAdd
    (fun a e _ _ _ _ off => addEntry_off off e) off
  rw [eq]
  exact off

theorem deleteTable_off (off : OffloadOff s) (pubIp : UInt32) :
    OffloadOff (s.deleteTable nat pubIp).2 := by
  have result := deleteTable_cases nat s pubIp
  generalize (s.deleteTable nat pubIp).2 = s' at result ⊢
  cases result <;> exact off

/-- A loop over the cache after which an enabled entry is one that was there before, with no
more clients asleep. -/
theorem forCache_off (s' : NatApp σ) (off : OffloadOff s)
    (fewer : ∀ ip, s'.isPwrSaveIf ip = true → s.isPwrSaveIf ip = true) (same : s'.cache = s.cache)
    {body : Carried σ → NatTableEntry → Carried σ × NatTableEntry}
    (kept : ∀ c e, (body c e).2.enabled = true → (body c e).2 = e) :
    OffloadOff (s'.forCache body) := by
  intro e' member on
  have slots := forSlots_each body (fun e e' => e'.enabled = true → e' = e) kept (s'.driver, s'.curCnt) s'.cache
  obtain ⟨e, old, eq⟩ := forall₂_mem_right slots member
  obtain rfl := eq on
  exact asleep_mono s (s'.forCache body) fewer (off _ (same ▸ old) on)

theorem delEntriesOnClntDiscon_off (off : OffloadOff s) (ip : UInt32) :
    OffloadOff (s.delEntriesOnClntDiscon nat ip).2 := by
  unfold delEntriesOnClntDiscon
  split
  · exact off
  · exact forCache_off (s.wakes ip) off (wakes_fewer ip) rfl clntDisconSlot_off

theorem delEntriesOnSTAClntDiscon_off (off : OffloadOff s) (ip : UInt32) :
    OffloadOff (s.delEntriesOnSTAClntDiscon nat ip).2 := by
  unfold delEntriesOnSTAClntDiscon
  split
  · exact off
  · exact forCache_off s off (fun _ on => on) rfl staClntDisconSlot_off

/-! ### Calls with a condition -/

/-- When a client goes to sleep under a table, its entries as a private address are disabled.
Those it is the target of stay as they are. -/
theorem updatePwrSaveIf_iff (works : nat.Succeeds) (off : OffloadOff s) (ip : UInt32) :
    OffloadOff (s.updatePwrSaveIf nat ip).2 ↔
      (ip ≠ 0 → ip ∉ s.pwrSaveIfs → 0 ∈ s.pwrSaveIfs → ∀ e ∈ s.cache, e.enabled = true →
        (e.privateIp = ip → s.natTableHdl ≠ 0) ∧ (e.privateIp ≠ ip → e.targetIp ≠ ip)) := by
  unfold updatePwrSaveIf
  split
  next zero => exact iff_of_true off fun nonzero => absurd zero nonzero
  next nonzero =>
    split
    next listed => exact iff_of_true off fun _ new => absurd listed new
    next new =>
      have slots := forSlots_each (sleepSlot nat s.natTableHdl ip)
        (SleptTo s.natTableHdl ip) (fun c e => sleepSlot_sleptTo c e works)
        (s.driver, s.curCnt) s.cache
      constructor
      · -- an entry the loop leaves enabled must not be one of the client
        intro off' _ _ room e member on
        have asleep := sleeps_new (s := s) nonzero room
        obtain ⟨e', member', slept⟩ := forall₂_mem_left slots member
        constructor
        · rintro mine none
          rcases slept with ⟨_, table, _⟩ | ⟨_, rfl⟩
          · exact table none
          · have awake : (s.sleeps ip).isPwrSaveIf e'.privateIp = false :=
              (asleep_eq_false.mp (off' _ member' on)).1
            simp [mine, asleep] at awake
        · rintro other target
          rcases slept with ⟨mine, _⟩ | ⟨_, rfl⟩
          · exact other mine
          · have awake : (s.sleeps ip).isPwrSaveIf e'.targetIp = false :=
              (asleep_eq_false.mp (off' _ member' on)).2
            simp [target, asleep] at awake
      · intro cond e' member' on
        obtain ⟨e, member, slept⟩ := forall₂_mem_right slots member'
        rcases slept with ⟨_, _, disabled⟩ | ⟨untouched, rfl⟩
        · simp [disabled] at on
        · by_cases room : 0 ∈ s.pwrSaveIfs
          · have ends := cond nonzero new room _ member on
            have other : e'.privateIp ≠ ip := by
              intro mine
              rcases untouched with other | disabled | none
              · exact other mine
              · simp [disabled] at on
              · exact ends.1 mine none
            have before : s.isPwrSaveIf e'.privateIp = false ∧ s.isPwrSaveIf e'.targetIp = false :=
              asleep_eq_false.mp (off _ member on)
            refine asleep_eq_false.mpr ⟨?_, ?_⟩
            · cases now : (s.sleeps ip).isPwrSaveIf e'.privateIp with
              | false => exact now
              | true =>
                rcases sleeps_more ip _ now with mine | old
                · exact absurd mine other
                · simp [before.1] at old
            · cases now : (s.sleeps ip).isPwrSaveIf e'.targetIp with
              | false => exact now
              | true =>
                -- only `ip` falls asleep, and it is no end of an entry left enabled
                rcases sleeps_more ip _ now with target | old
                · exact absurd target (ends.2 other)
                · simp [before.2] at old
          · -- the list is full: nobody new is asleep
            have same := sleeps_full ip room
            have awake := off _ member on
            rw [← same] at awake
            exact awake

/-- When a client wakes under a table, its disabled entries as a private address are enabled,
whatever their other end does; entries it is the target of are not. -/
theorem resetPwrSaveIf_iff (works : nat.Succeeds) (off : OffloadOff s) {ip : UInt32} (nonzero : ip ≠ 0) :
    (OffloadOff (s.resetPwrSaveIf nat ip).2 ∧ Restored (s.resetPwrSaveIf nat ip).2 ip) ↔
      (s.natTableHdl ≠ 0 → ∀ e ∈ s.cache, e.enabled = false →
        (e.privateIp = ip → (s.wakes ip).asleep e.connection = false) ∧
        (e.privateIp ≠ ip → e.targetIp = ip → (s.wakes ip).isPwrSaveIf e.privateIp = true)) := by
  unfold resetPwrSaveIf
  rw [if_neg nonzero]
  have slots := forSlots_each (wakeSlot nat s.natTableHdl ip)
    (WokenTo s.natTableHdl ip) (fun c e => wakeSlot_wokenTo c e works)
    (s.driver, s.curCnt) s.cache
  -- the loop wakes the entries with `ip` as their private address and no others
  constructor
  · rintro ⟨off', restored⟩ table e member disabled
    obtain ⟨e', member', woken⟩ := forall₂_mem_left slots member
    unfold WokenTo at woken
    constructor
    · intro mine
      rw [if_pos ⟨mine, disabled⟩, if_neg table] at woken
      have awake := off' e' member' woken.1
      rw [woken.2] at awake
      exact awake
    · intro other target
      rw [if_neg fun both => other both.1] at woken
      subst woken
      -- an entry that `ip` is the target of is left disabled
      cases asleep : (s.wakes ip).isPwrSaveIf e'.privateIp with
      | true => rfl
      | false =>
        have on := restored table _ member' (Or.inr ⟨target, asleep⟩)
        simp [disabled] at on
  · intro cond
    constructor
    · intro e' member' on
      obtain ⟨e, member, woken⟩ := forall₂_mem_right slots member'
      unfold WokenTo at woken
      split at woken
      next mine =>
        split at woken
        · subst woken
          simp at on
        next table =>
          rw [woken.2]
          exact (cond table e member mine.2).1 mine.1
      next =>
        subst woken
        exact asleep_mono s (s.wakes ip) (wakes_fewer ip) (off _ member on)
    · intro table e' member' mine
      obtain ⟨e, member, woken⟩ := forall₂_mem_right slots member'
      unfold WokenTo at woken
      split at woken
      next =>
        have table : s.natTableHdl ≠ 0 := table
        rw [if_neg table] at woken
        exact woken.1
      next untouched =>
        subst woken
        cases on : e'.enabled with
        | true => rfl
        | false =>
          have ends := cond table _ member on
          by_cases private_end : e'.privateIp = ip
          · exact absurd ⟨private_end, on⟩ untouched
          · rcases mine with ⟨is_private, _⟩ | ⟨target, awake⟩
            · exact absurd is_private private_end
            · exact absurd ((ends.2 private_end target).symm.trans awake) (by simp)

/-- A table for the last address is created with every entry offloaded. -/
theorem addTable_iff (works : nat.Succeeds) (off : OffloadOff s) (pubIp : UInt32) :
    OffloadOff (s.addTable nat pubIp).2 ↔ (pubIp = s.pubIpAddrPre → ∀ e ∈ s.cache, e.privateIp ≠ 0 →
        s.asleep e.connection = false) := by
  have result := addTable_cases nat s pubIp
  generalize (s.addTable nat pubIp).2 = s' at result ⊢
  obtain ⟨hdl, d, table, succeeds⟩ := works.addTbl s.driver pubIp (UInt16.ofNat s.cache.length)
  cases result with
  | failed call failed =>
    rw [succeeds] at call
    cases call
    exact absurd rfl failed
  | emptied _ other => exact iff_of_true off fun same => absurd same other
  | restored call same =>
    rw [succeeds] at call
    cases call
    have slots := forSlots_each (restoreSlot nat hdl) RestoredTo
      (fun c e => restoreSlot_restoredTo c e works table) (d, s.curCnt) s.cache
    constructor
    · intro off' _ e member mine
      obtain ⟨e', member', restored⟩ := forall₂_mem_left slots member
      unfold RestoredTo at restored
      rw [if_pos mine] at restored
      have awake := off' e' member' restored.1
      rw [restored.2] at awake
      exact awake
    · intro cond e' member' on
      obtain ⟨e, member, restored⟩ := forall₂_mem_right slots member'
      unfold RestoredTo at restored
      split at restored
      next mine =>
        rw [restored.2]
        exact cond same e member mine
      next =>
        subst restored
        exact off _ member on

end NatApp

/-! ### Runs -/

/-- The condition under which a call does what power save asks for. A client that goes to sleep
is the private address of its enabled entries and there is a table; a table for the last address
is created while no cached entry has a sleeping end; and when a client wakes under a table,
neither end of a disabled entry it is the private address of is asleep then, and of a disabled
entry it is only the target of the private end is. -/
def PwrCallOk (s : NatApp σ) : NatAppOp → Prop
  | .updatePwrSaveIf ip =>
    ip ≠ 0 → ip ∉ s.pwrSaveIfs → 0 ∈ s.pwrSaveIfs → ∀ e ∈ s.cache, e.enabled = true →
      (e.privateIp = ip → s.natTableHdl ≠ 0) ∧ (e.privateIp ≠ ip → e.targetIp ≠ ip)
  | .resetPwrSaveIf ip =>
    ip ≠ 0 → s.natTableHdl ≠ 0 → ∀ e ∈ s.cache, e.enabled = false →
      (e.privateIp = ip → (s.wakes ip).asleep e.connection = false) ∧
      (e.privateIp ≠ ip → e.targetIp = ip → (s.wakes ip).isPwrSaveIf e.privateIp = true)
  | .addTable pubIp =>
    pubIp = s.pubIpAddrPre → ∀ e ∈ s.cache, e.privateIp ≠ 0 → s.asleep e.connection = false
  | _ => True

/-- What a call should lead to: offload is off where it has to be, and on again for a client
that woke. -/
def PwrKept (s : NatApp σ) (op : NatAppOp) : Prop :=
  OffloadOff s ∧ ∀ ip, op = .resetPwrSaveIf ip → ip ≠ 0 → Restored s ip

theorem natAppStep_pwr (works : nat.Succeeds) {op : NatAppOp} (off : OffloadOff s)
    (stepped : natAppStep nat s op = some s') : PwrKept s' op ↔ PwrCallOk s op := by
  -- only a wake-up owes that entries are restored
  have other : (∀ ip, op ≠ .resetPwrSaveIf ip) → (PwrKept s' op ↔ OffloadOff s') :=
    fun not_reset => ⟨fun h => h.1, fun h => ⟨h, fun ip eq => absurd eq (not_reset ip)⟩⟩
  cases op with
  | addTable pubIp =>
    cases stepped
    rw [other (by simp)]
    exact addTable_iff works off pubIp
  | updatePwrSaveIf ip =>
    cases stepped
    rw [other (by simp)]
    exact updatePwrSaveIf_iff works off ip
  | resetPwrSaveIf ip =>
    cases stepped
    by_cases zero : ip = 0
    · subst zero
      refine iff_of_true ⟨off, ?_⟩ fun nonzero => absurd rfl nonzero
      rintro ip eq nonzero
      cases eq
      exact absurd rfl nonzero
    · have called := resetPwrSaveIf_iff works off zero
      constructor
      · exact fun h _ => called.mp ⟨h.1, h.2 ip rfl zero⟩
      · intro cond
        have both := called.mpr (cond zero)
        refine ⟨both.1, fun ip' eq _ => ?_⟩
        cases eq
        exact both.2
  -- the calls below disable, or leave the flags alone
  | deleteTable pubIp =>
    cases stepped
    exact iff_of_true ((other (by simp)).mpr (deleteTable_off off pubIp)) trivial
  | addEntry rule =>
    cases stepped
    exact iff_of_true ((other (by simp)).mpr (addEntry_off off rule)) trivial
  | deleteEntry rule =>
    cases stepped
    exact iff_of_true ((other (by simp)).mpr (deleteEntry_off off rule)) trivial
  | cacheEntry cnt rule =>
    exact iff_of_true ((other (by simp)).mpr (cacheEntry_off off stepped)) trivial
  | delEntriesOnClntDiscon ip =>
    cases stepped
    exact iff_of_true ((other (by simp)).mpr (delEntriesOnClntDiscon_off off ip)) trivial
  | delEntriesOnSTAClntDiscon ip =>
    cases stepped
    exact iff_of_true ((other (by simp)).mpr (delEntriesOnSTAClntDiscon_off off ip)) trivial
  | addTempEntry e =>
    cases stepped
    exact iff_of_true ((other (by simp)).mpr off) trivial
  | deleteTempEntry e =>
    cases stepped
    exact iff_of_true ((other (by simp)).mpr off) trivial
  | flushTempEntries ip isAdd =>
    cases stepped
    exact iff_of_true ((other (by simp)).mpr (flushTempEntries_off off ip isAdd)) trivial

/-- With a driver whose calls succeed and after any run of calls that meet the condition, no
enabled entry has an end in power save. From there a further call keeps that, and enables the
entries of a client that wakes, exactly when it meets the condition. -/
theorem power_save_keeps_offload_off (works : nat.Succeeds) {maxEntries : Nat}
    {algPorts : List IpacmAlg} {pubIpAddrPre : UInt32} {pwrSaveIfs : List UInt32} {driver : σ}
    {ops : List NatAppOp} (run : Run (natAppStep nat) PwrCallOk
      (init maxEntries algPorts pubIpAddrPre pwrSaveIfs driver) ops s) :
    OffloadOff s ∧ ∀ op s', natAppStep nat s op = some s' →
        ((OffloadOff s' ∧ ∀ ip, op = .resetPwrSaveIf ip → ip ≠ 0 → Restored s' ip) ↔ PwrCallOk s op) := by
  have off : OffloadOff s := by
    refine run.invariant OffloadOff
      (fun s op s' off allowed stepped => ((natAppStep_pwr works off stepped).mpr allowed).1) ?_
    intro e member on
    rw [init, List.mem_replicate] at member
    simp [member.2] at on
  exact ⟨off, fun op s' stepped => natAppStep_pwr works off stepped⟩

/-! ### Two runs -/

/-- A driver that counts the rules it was given: the `n`-th gets the handle `n`. -/
def countingDriver : NatDriver UInt32 where
  addIpv4Tbl n _ _ := (0, some 1, n)
  delIpv4Tbl n tblHdl := (if tblHdl = 0 then -Ipanat.EINVAL else 0, n)
  addIpv4Rule n tblHdl _ := if tblHdl = 0 then (-Ipanat.EINVAL, none, n) else (0, some (n + 1), n + 1)
  delIpv4Rule n tblHdl _ := (if tblHdl = 0 then -Ipanat.EINVAL else 0, n)

theorem countingDriver_succeeds : countingDriver.Succeeds := by
  constructor
  · exact fun d pubIp n => ⟨1, d, by decide, rfl⟩
  · intro d hdl table
    simp [countingDriver, table]
  · intro d hdl rule
    by_cases none : hdl = 0 <;> simp [countingDriver, none, Ipanat.EINVAL]
  · intro d hdl r
    by_cases none : hdl = 0 <;> simp [countingDriver, none, Ipanat.EINVAL]

theorem power_save_keeps_offload_off_sample : ∃ s s' : NatApp UInt32,
    Run (natAppStep countingDriver) PwrCallOk (init 2 [] 0 (List.replicate 2 0) 0)
      [.addTable 5, .addEntry sampleEntry, .updatePwrSaveIf sampleEntry.privateIp] s ∧
      (∀ e ∈ s.cache, e.enabled = false) ∧ OffloadOff s ∧
      natAppStep countingDriver s (.resetPwrSaveIf sampleEntry.privateIp) = some s' ∧
      OffloadOff s' ∧ Restored s' sampleEntry.privateIp ∧ ∃ e ∈ s'.cache, e.enabled = true := by
  have run : Run (natAppStep countingDriver) PwrCallOk (init 2 [] 0 (List.replicate 2 0) 0)
      [.addTable 5, .addEntry sampleEntry, .updatePwrSaveIf sampleEntry.privateIp] _ :=
    .cons (fun same => absurd same (by decide)) rfl (.cons trivial rfl
      (.cons (fun _ _ _ => by decide) rfl (.nil _)))
  have kept := power_save_keeps_offload_off countingDriver_succeeds run
  have woken := (kept.2 (.resetPwrSaveIf sampleEntry.privateIp) _ rfl).mpr (fun _ _ => by decide)
  exact ⟨_, _, run, by decide, kept.1, rfl, woken.1, woken.2 _ rfl (by decide), by decide⟩

/-- The table is deleted and created again while the client sleeps: its entry is offloaded. -/
theorem restored_while_asleep : countingDriver.Succeeds ∧ ∃ s : NatApp UInt32,
    Run (natAppStep countingDriver) (fun _ _ => True) (init 2 [] 0 (List.replicate ipaMaxNumWifiClients 0) 0)
      [.addTable 5, .addEntry sampleEntry, .updatePwrSaveIf sampleEntry.privateIp,
        .deleteTable 5, .addTable 5] s ∧ sampleEntry.privateIp ∈ s.pwrSaveIfs ∧
      (∃ e ∈ s.cache, e.privateIp = sampleEntry.privateIp ∧ e.enabled = true) ∧ ¬OffloadOff s := by
  refine ⟨countingDriver_succeeds, _, .cons trivial rfl (.cons trivial rfl (.cons trivial rfl
    (.cons trivial rfl (.cons trivial rfl (.nil _))))), ?_, ?_, ?_⟩
  · decide
  · decide
  · decide

end Hima.Ipacm
