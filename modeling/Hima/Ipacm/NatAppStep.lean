import Hima.Ipacm.NatApp

/-!
# What a call can do

One lemma for each operation and each loop body of `NatApp`. The results about runs are derived
from these and do not unfold the operations again.
-/
namespace Hima.Ipacm

open Slots NatTableEntry

variable {σ : Type} {nat : NatDriver σ}

/-! ### The connections of a table -/

/-- The connections of the occupied slots, in the order of the slots. -/
def held (l : List NatTableEntry) : List Connection :=
  (l.map connection).filter fun c => c ≠ {}

theorem mem_held {l : List NatTableEntry} {c : Connection} :
    c ∈ held l ↔ c ≠ {} ∧ ∃ e ∈ l, e.connection = c := by
  simp only [held, List.mem_filter, List.mem_map, decide_eq_true_eq]
  constructor
  · exact fun h => ⟨h.2, h.1⟩
  · exact fun h => ⟨h.2, h.1⟩

/-- Only the connection of a slot matters. -/
theorem held_same (pre post : List NatTableEntry) {e e' : NatTableEntry} (same : e'.connection = e.connection) :
    held (pre ++ e' :: post) = held (pre ++ e :: post) := by
  simp [held, same]

theorem held_replaced {pre post : List NatTableEntry} {e e' : NatTableEntry} {c : Connection}
    (member : c ∈ held (pre ++ e' :: post)) :
    c = e'.connection ∨ c ∈ held (pre ++ e :: post) := by
  obtain ⟨nonzero, x, slot, rfl⟩ := mem_held.mp member
  rcases List.mem_append.mp slot with before | slot
  · exact Or.inr (mem_held.mpr ⟨nonzero, x, by simp [before], rfl⟩)
  · rcases List.mem_cons.mp slot with rfl | after
    · exact Or.inl rfl
    · exact Or.inr (mem_held.mpr ⟨nonzero, x, by simp [after], rfl⟩)

/-- A connection that comes into a free slot, or leaves one behind. -/
theorem held_perm (pre post : List NatTableEntry) {e free : NatTableEntry}
    (occupied : e.connection ≠ {}) (empty : free.connection = {}) :
    (held (pre ++ e :: post)).Perm (e.connection :: held (pre ++ free :: post)) := by
  simp only [held, List.map_append, List.map_cons, List.filter_append]
  rw [List.filter_cons_of_pos (by simpa using occupied), List.filter_cons_of_neg (by simpa using empty)]
  exact List.perm_middle

theorem Connection.Whole.ne_default {c : Connection} (whole : c.Whole) : c ≠ {} := by
  rintro rfl
  exact whole.1 rfl

namespace NatApp

variable {s : NatApp σ}

theorem occupied_of_privateIp {e : NatTableEntry} (h : e.privateIp ≠ 0) : e.connection ≠ {} :=
  fun free => h (congrArg Connection.privateIp free)

theorem occupied_of_targetIp {e : NatTableEntry} (h : e.targetIp ≠ 0) : e.connection ≠ {} :=
  fun free => h (congrArg Connection.targetIp free)

theorem chkForDup_eq_false {rule : NatTableEntry} (whole : rule.connection.Whole) :
    s.chkForDup rule = false ↔ rule.connection ∉ held s.cache := by
  simp only [chkForDup, List.any_eq_false, matchesRule_iff, mem_held, not_and, not_exists]
  constructor
  · exact fun h _ e member => h e member
  · exact fun h e member => h whole.ne_default e member

/-! ### The table -/

/-- The state after the call of the driver in `AddTable`. -/
def created (s : NatApp σ) (stored : Option UInt32) (driver : σ) : NatApp σ :=
  { s with driver := driver, natTableHdl := stored.getD s.natTableHdl }

/-- What `AddTable` can do. -/
inductive AddTableResult (nat : NatDriver σ) (s : NatApp σ) (pubIp : UInt32) :
    NatApp σ → Prop
  | failed {ret : Int} {stored : Option UInt32} {driver : σ} :
      nat.addIpv4Tbl s.driver pubIp (UInt16.ofNat s.cache.length) = (ret, stored, driver) →
      ret ≠ 0 → AddTableResult nat s pubIp (s.created stored driver)
  | emptied {stored : Option UInt32} {driver : σ} :
      nat.addIpv4Tbl s.driver pubIp (UInt16.ofNat s.cache.length) = (0, stored, driver) →
      pubIp ≠ s.pubIpAddrPre →
      AddTableResult nat s pubIp { s.created stored driver with pubIpAddr := pubIp }
  | restored {stored : Option UInt32} {driver : σ} :
      nat.addIpv4Tbl s.driver pubIp (UInt16.ofNat s.cache.length) = (0, stored, driver) →
      pubIp = s.pubIpAddrPre →
      AddTableResult nat s pubIp { (s.created stored driver).forCache
        (restoreSlot nat (s.created stored driver).natTableHdl) with pubIpAddr := pubIp }

theorem addTable_cases (nat : NatDriver σ) (s : NatApp σ) (pubIp : UInt32) :
    AddTableResult nat s pubIp (s.addTable nat pubIp).2 := by
  unfold addTable
  cases call : nat.addIpv4Tbl s.driver pubIp (UInt16.ofNat s.cache.length) with
  | mk ret stored_driver =>
    obtain ⟨stored, driver⟩ := stored_driver
    by_cases ok : ret = 0
    · subst ok
      by_cases same : pubIp = s.pubIpAddrPre
      · simp only [same]
        exact .restored (same ▸ call) rfl
      · simp only [same, if_false]
        exact .emptied call same
    · simp only [ne_eq, ok, not_false_eq_true, if_true]
      exact .failed call ok

/-- What `DeleteTable` can do. -/
inductive DeleteTableResult (nat : NatDriver σ) (s : NatApp σ) (pubIp : UInt32) :
    NatApp σ → Prop
  | ignored : s.natTableHdl = 0 ∨ s.pubIpAddr ≠ pubIp → DeleteTableResult nat s pubIp s
  | failed {ret : Int} {driver : σ} :
      s.natTableHdl ≠ 0 → s.pubIpAddr = pubIp →
      nat.delIpv4Tbl s.driver s.natTableHdl = (ret, driver) → ret ≠ 0 →
      DeleteTableResult nat s pubIp { s with driver := driver }
  | deleted {driver : σ} :
      s.natTableHdl ≠ 0 → s.pubIpAddr = pubIp →
      nat.delIpv4Tbl s.driver s.natTableHdl = (0, driver) →
      DeleteTableResult nat s pubIp
        { s with driver := driver, pubIpAddrPre := s.pubIpAddr, natTableHdl := 0, pubIpAddr := 0 }

theorem deleteTable_cases (nat : NatDriver σ) (s : NatApp σ) (pubIp : UInt32) :
    DeleteTableResult nat s pubIp (s.deleteTable nat pubIp).2 := by
  unfold deleteTable
  split
  next none => exact .ignored (Or.inl none)
  next table =>
    split
    next other => exact .ignored (Or.inr other)
    next mine =>
      have mine := Decidable.not_not.mp mine
      cases call : nat.delIpv4Tbl s.driver s.natTableHdl with
      | mk ret driver =>
        by_cases ok : ret = 0
        · subst ok
          exact .deleted table mine call
        · simp only [ne_eq, ok, not_false_eq_true, if_true]
          exact .failed table mine call ok

/-! ### Adding and deleting an entry -/

/-- The rule passes every test of `AddEntry`. -/
structure Accepted (s : NatApp σ) (rule : NatTableEntry) : Prop where
  table : s.natTableHdl ≠ 0
  notAlg : s.isAlg rule.connection = false
  whole : rule.connection.Whole
  new : rule.connection ∉ held s.cache

/-- What `AddEntry` can do. -/
inductive AddEntryResult (nat : NatDriver σ) (s : NatApp σ) (rule : NatTableEntry) :
    Int × NatApp σ → Prop
  | ignored (ret : Int) : AddEntryResult nat s rule (ret, s)
  | refused {pre post : List NatTableEntry} {slot : NatTableEntry} {ret : Int}
      {stored : Option UInt32} {driver : σ} :
      Accepted s rule → s.asleep rule.connection = false →
      s.cache = pre ++ slot :: post → slot.connection = {} →
      nat.addIpv4Rule s.driver s.natTableHdl rule.natRule = (ret, stored, driver) → ret < 0 →
      AddEntryResult nat s rule (-1, { s with
        driver := driver
        cache := pre ++ { slot with ruleHdl := stored.getD slot.ruleHdl } :: post })
  | parked {pre post : List NatTableEntry} {slot : NatTableEntry} :
      Accepted s rule → s.asleep rule.connection = true →
      s.cache = pre ++ slot :: post → slot.connection = {} →
      AddEntryResult nat s rule (0, { s with
        cache := pre ++ filledSlot slot rule false 0 :: post
        curCnt := s.curCnt + 1 })
  | added {pre post : List NatTableEntry} {slot : NatTableEntry} {ret : Int}
      {stored : Option UInt32} {driver : σ} :
      Accepted s rule → s.asleep rule.connection = false →
      s.cache = pre ++ slot :: post → slot.connection = {} →
      nat.addIpv4Rule s.driver s.natTableHdl rule.natRule = (ret, stored, driver) → ¬ret < 0 →
      AddEntryResult nat s rule (0, { s with
        driver := driver
        cache := pre ++ filledSlot slot rule true (stored.getD slot.ruleHdl) :: post
        curCnt := s.curCnt + 1 })

theorem addEntry_cases (nat : NatDriver σ) (s : NatApp σ) (rule : NatTableEntry) :
    AddEntryResult nat s rule (s.addEntry nat rule) := by
  unfold addEntry
  split
  · exact .ignored _
  next table =>
    split
    · exact .ignored _
    next notAlg =>
      split
      · exact .ignored _
      next whole =>
        split
        · exact .ignored _
        next new =>
          have whole := Decidable.not_not.mp whole
          have accepted : Accepted s rule :=
            ⟨table, by simpa using notAlg, whole,
              (chkForDup_eq_false whole).mp (by simpa using new)⟩
          cases found : s.cache.find? isFree with
          | none => exact .ignored _
          | some slot =>
            obtain ⟨pre, post, cache, free, _, set⟩ := find?_split found
            have free := isFree_iff.mp free
            simp only [set]
            split
            next asleep => exact .parked accepted asleep cache free
            next awake =>
              have awake : s.asleep rule.connection = false := by simpa using awake
              split
              next failed => exact .refused accepted awake cache free rfl failed
              next ok => exact .added accepted awake cache free rfl ok

/-- What `DeleteEntry` can do. -/
inductive DeleteEntryResult (nat : NatDriver σ) (s : NatApp σ) (rule : NatTableEntry) :
    NatApp σ → Prop
  | absent : (∀ e ∈ s.cache, e.connection ≠ rule.connection) → DeleteEntryResult nat s rule s
  | cached {pre post : List NatTableEntry} {slot : NatTableEntry} :
      s.cache = pre ++ slot :: post → slot.connection = rule.connection → slot.enabled = false →
      DeleteEntryResult nat s rule { s with
        cache := pre ++ {} :: post
        curCnt := s.curCnt - 1 }
  | deleted {pre post : List NatTableEntry} {slot : NatTableEntry} :
      s.cache = pre ++ slot :: post → slot.connection = rule.connection → slot.enabled = true →
      DeleteEntryResult nat s rule { s with
        driver := (nat.delIpv4Rule s.driver s.natTableHdl slot.ruleHdl).2
        cache := pre ++ {} :: post
        curCnt := s.curCnt - 1 }

theorem deleteEntry_cases (nat : NatDriver σ) (s : NatApp σ) (rule : NatTableEntry) :
    DeleteEntryResult nat s rule (s.deleteEntry nat rule).2 := by
  unfold deleteEntry
  cases found : s.cache.find? (matchesRule rule) with
  | none =>
    refine .absent fun e member same => ?_
    have := List.find?_eq_none.mp found e member
    exact this (matchesRule_iff.mpr same)
  | some slot =>
    obtain ⟨pre, post, cache, same, _, set⟩ := find?_split found
    have same := matchesRule_iff.mp same
    dsimp only
    rw [set]
    split
    next on => exact .deleted cache same on
    next off => exact .cached cache same (by simpa using off)

/-- What `CacheEntry` can do, wherever its scan starts. -/
inductive CacheEntryResult (s : NatApp σ) (rule : NatTableEntry) : NatApp σ → Prop
  | ignored : CacheEntryResult s rule s
  | cached {pre post : List NatTableEntry} {slot : NatTableEntry} :
      rule.connection.Whole → rule.connection ∉ held s.cache →
      s.cache = pre ++ slot :: post → slot.connection = {} →
      CacheEntryResult s rule { s with
        cache := pre ++ filledSlot slot rule false 0 :: post
        curCnt := s.curCnt + 1 }

theorem cacheEntry_cases {cnt : Int} {rule : NatTableEntry} {s' : NatApp σ}
    (returned : s.cacheEntry cnt rule = some s') : CacheEntryResult s rule s' := by
  unfold cacheEntry at returned
  split at returned
  · cases returned
    exact .ignored
  next whole =>
    split at returned
    · cases returned
      exact .ignored
    next new =>
      split at returned
      · cases returned
      · have whole := Decidable.not_not.mp whole
        have new := (chkForDup_eq_false whole).mp (by simpa using new)
        cases found : (s.cache.drop cnt.toNat).find? isFree with
        | none =>
          simp only [found, Option.some.injEq] at returned
          subst returned
          exact .ignored
        | some slot =>
          obtain ⟨pre, post, scanned, free, _, set⟩ := find?_split found
          simp only [found, set, Option.some.injEq] at returned
          subst returned
          -- the skipped slots are in front of the one that is filled
          have cache : s.cache = (s.cache.take cnt.toNat ++ pre) ++ slot :: post := by
            rw [List.append_assoc, ← scanned, List.take_append_drop]
          rw [← List.append_assoc]
          exact .cached whole new cache (isFree_iff.mp free)

/-! ### What a call leaves alone -/

/-- Everything but the cache, its count and the driver. -/
structure SameSetting (s s' : NatApp σ) : Prop where
  temp : s'.temp = s.temp
  pubIpAddr : s'.pubIpAddr = s.pubIpAddr
  pubIpAddrPre : s'.pubIpAddrPre = s.pubIpAddrPre
  natTableHdl : s'.natTableHdl = s.natTableHdl
  algPorts : s'.algPorts = s.algPorts
  pwrSaveIfs : s'.pwrSaveIfs = s.pwrSaveIfs

theorem SameSetting.refl (s : NatApp σ) : SameSetting s s := ⟨rfl, rfl, rfl, rfl, rfl, rfl⟩

theorem SameSetting.trans {s s' s'' : NatApp σ} (h : SameSetting s s')
    (h' : SameSetting s' s'') : SameSetting s s'' :=
  ⟨h'.temp.trans h.temp, h'.pubIpAddr.trans h.pubIpAddr, h'.pubIpAddrPre.trans h.pubIpAddrPre,
    h'.natTableHdl.trans h.natTableHdl, h'.algPorts.trans h.algPorts,
    h'.pwrSaveIfs.trans h.pwrSaveIfs⟩

theorem SameSetting.isAlg {s s' : NatApp σ} (h : SameSetting s s') (c : Connection) :
    s'.isAlg c = s.isAlg c := by
  simp only [NatApp.isAlg, isAlgPort, h.algPorts]

theorem SameSetting.asleep {s s' : NatApp σ} (h : SameSetting s s') (c : Connection) :
    s'.asleep c = s.asleep c := by
  simp only [NatApp.asleep, isPwrSaveIf, h.pwrSaveIfs]

theorem addEntry_setting (nat : NatDriver σ) (s : NatApp σ) (rule : NatTableEntry) :
    SameSetting s (s.addEntry nat rule).2 := by
  have result := addEntry_cases nat s rule
  generalize s.addEntry nat rule = r at result ⊢
  cases result <;> constructor <;> rfl

theorem deleteEntry_setting (nat : NatDriver σ) (s : NatApp σ) (rule : NatTableEntry) :
    SameSetting s (s.deleteEntry nat rule).2 := by
  have result := deleteEntry_cases nat s rule
  generalize (s.deleteEntry nat rule).2 = s' at result ⊢
  cases result <;> constructor <;> rfl

theorem cacheEntry_setting {cnt : Int} {rule : NatTableEntry} {s' : NatApp σ}
    (returned : s.cacheEntry cnt rule = some s') : SameSetting s s' := by
  cases cacheEntry_cases returned <;> constructor <;> rfl

/-- A flush is a series of adds from the temp table. -/
theorem flushTempEntries_adds (nat : NatDriver σ) (s : NatApp σ) (P : NatApp σ → Prop) (ip : UInt32) (isAdd : Bool)
    (added : ∀ a, ∀ e ∈ s.temp, isAdd = true → e.privateIp = ip ∨ e.targetIp = ip → SameSetting s a → P a →
      P (a.addEntry nat e).2) (initial : P s) : ∃ a, SameSetting s a ∧ P a ∧
      ∃ temp, s.flushTempEntries nat ip isAdd = { a with temp := temp } ∧
        List.Forall₂ (fun e e' => e' = e ∨ e' = {}) s.temp temp := by
  have carried := forSlots_carried (flushSlot nat ip isAdd) (l := s.temp)
    (fun a => SameSetting s a ∧ P a) (fun a e member h => by
      unfold flushSlot
      split
      next here =>
        split
        next asked =>
          have next := And.intro (h.1.trans (addEntry_setting nat a e)) (added a e member asked.1 here h.1 h.2)
          split
          split
          · simpa only [*] using next
          · simpa only [*] using next
        next => exact h
      next => exact h)
    ⟨.refl s, initial⟩
  refine ⟨_, carried.1, carried.2, _, rfl, ?_⟩
  apply forSlots_each
  intro a e
  unfold flushSlot
  split
  · split
    · split
      split
      · exact Or.inl rfl
      · exact Or.inr rfl
    · exact Or.inr rfl
  · exact Or.inl rfl

/-! ### The loop bodies -/

section Slots

variable {ip : UInt32}

/-- What becomes of a slot that a loop body passes on to the driver, or not. -/
inductive RestoreResult (nat : NatDriver σ) (tableHdl : UInt32) (c : Carried σ)
    (e : NatTableEntry) : Carried σ × NatTableEntry → Prop
  | dropped {ret : Int} {stored : Option UInt32} {driver : σ} :
      nat.addIpv4Rule c.1 tableHdl e.natRule = (ret, stored, driver) → ret < 0 →
      RestoreResult nat tableHdl c e ((driver, c.2 - 1), {})
  | restored {ret : Int} {stored : Option UInt32} {driver : σ} :
      nat.addIpv4Rule c.1 tableHdl e.natRule = (ret, stored, driver) → ¬ret < 0 →
      RestoreResult nat tableHdl c e
        ((driver, c.2), { e with ruleHdl := stored.getD e.ruleHdl, enabled := true })

theorem restoreEntry_cases (nat : NatDriver σ) (tableHdl : UInt32) (c : Carried σ)
    (e : NatTableEntry) : RestoreResult nat tableHdl c e (restoreEntry nat tableHdl c e) := by
  unfold restoreEntry
  cases call : nat.addIpv4Rule c.1 tableHdl e.natRule with
  | mk ret stored_driver =>
    obtain ⟨stored, driver⟩ := stored_driver
    by_cases failed : ret < 0
    · simp only [failed, if_true]
      exact .dropped call failed
    · simp only [failed, if_false]
      exact .restored call failed

inductive WithdrawResult (nat : NatDriver σ) (tableHdl : UInt32)
    (withdrawn : NatTableEntry → NatTableEntry) (c : Carried σ) (e : NatTableEntry) :
    Carried σ × NatTableEntry → Prop
  | refused {ret : Int} {driver : σ} :
      nat.delIpv4Rule c.1 tableHdl e.ruleHdl = (ret, driver) → ret < 0 →
      WithdrawResult nat tableHdl withdrawn c e ((driver, c.2), e)
  | withdrawn {ret : Int} {driver : σ} :
      nat.delIpv4Rule c.1 tableHdl e.ruleHdl = (ret, driver) → ¬ret < 0 →
      WithdrawResult nat tableHdl withdrawn c e ((driver, c.2), withdrawn e)

theorem withdrawEntry_cases (nat : NatDriver σ) (tableHdl : UInt32)
    (withdrawn : NatTableEntry → NatTableEntry) (c : Carried σ) (e : NatTableEntry) :
    WithdrawResult nat tableHdl withdrawn c e (withdrawEntry nat tableHdl withdrawn c e) := by
  unfold withdrawEntry
  cases call : nat.delIpv4Rule c.1 tableHdl e.ruleHdl with
  | mk ret driver =>
    by_cases failed : ret < 0
    · simp only [failed, if_true]
      exact .refused call failed
    · simp only [failed, if_false]
      exact .withdrawn call failed

inductive StaClntDisconResult (nat : NatDriver σ) (tableHdl : UInt32) (c : Carried σ)
    (e : NatTableEntry) : Carried σ × NatTableEntry → Prop
  | refused {ret : Int} {driver : σ} :
      e.enabled = true → nat.delIpv4Rule c.1 tableHdl e.ruleHdl = (ret, driver) → ret < 0 →
      StaClntDisconResult nat tableHdl c e ((driver, c.2), e)
  | deleted {ret : Int} {driver : σ} :
      e.enabled = true → nat.delIpv4Rule c.1 tableHdl e.ruleHdl = (ret, driver) → ¬ret < 0 →
      StaClntDisconResult nat tableHdl c e ((driver, c.2 - 1), {})
  | cached : e.enabled = false → StaClntDisconResult nat tableHdl c e ((c.1, c.2 - 1), {})

theorem staClntDisconSlot_cases (nat : NatDriver σ) (tableHdl : UInt32) (c : Carried σ)
    {e : NatTableEntry} (target : e.targetIp = ip) :
    StaClntDisconResult nat tableHdl c e (staClntDisconSlot nat tableHdl ip c e) := by
  unfold staClntDisconSlot
  rw [if_pos target]
  cases on : e.enabled with
  | false => exact .cached on
  | true =>
    cases call : nat.delIpv4Rule c.1 tableHdl e.ruleHdl with
    | mk ret driver =>
      by_cases failed : ret < 0
      · simp only [if_true, failed]
        exact .refused on call failed
      · simp only [if_true, failed, if_false]
        exact .deleted on call failed

end Slots

/-! ### The calls about a client -/

/-- The loop over the cache of each call about a client. -/
inductive ClientLoop (nat : NatDriver σ) (tableHdl : UInt32) :
    NatAppOp → (Carried σ → NatTableEntry → Carried σ × NatTableEntry) → Prop
  | sleep (ip : UInt32) :
      ClientLoop nat tableHdl (.updatePwrSaveIf ip) (sleepSlot nat tableHdl ip)
  | wake {ip : UInt32} : ip ≠ 0 →
      ClientLoop nat tableHdl (.resetPwrSaveIf ip) (wakeSlot nat tableHdl ip)
  | discon (ip : UInt32) :
      ClientLoop nat tableHdl (.delEntriesOnClntDiscon ip) (clntDisconSlot nat tableHdl ip)
  | staDiscon {ip : UInt32} : ip ≠ 0 →
      ClientLoop nat tableHdl (.delEntriesOnSTAClntDiscon ip) (staClntDisconSlot nat tableHdl ip)

/-- A call about a client does nothing, or changes the list of those in power save and loops over the
cache. -/
inductive ClientResult (nat : NatDriver σ) (s : NatApp σ) (op : NatAppOp) : NatApp σ → Prop
  | nothing : ClientResult nat s op s
  | looped {body : Carried σ → NatTableEntry → Carried σ × NatTableEntry}
      (pwrSaveIfs : List UInt32) : ClientLoop nat s.natTableHdl op body →
      ClientResult nat s op (({ s with pwrSaveIfs := pwrSaveIfs } : NatApp σ).forCache body)

section Client

variable (nat : NatDriver σ) (s : NatApp σ) (ip : UInt32)

theorem updatePwrSaveIf_cases :
    ClientResult nat s (.updatePwrSaveIf ip) (s.updatePwrSaveIf nat ip).2 := by
  unfold updatePwrSaveIf
  split
  next => exact .nothing
  next =>
    split
    next => exact .nothing
    next => exact .looped _ (.sleep ip)

theorem resetPwrSaveIf_cases :
    ClientResult nat s (.resetPwrSaveIf ip) (s.resetPwrSaveIf nat ip).2 := by
  unfold resetPwrSaveIf
  split
  next => exact .nothing
  next nonzero => exact .looped _ (.wake nonzero)

theorem delEntriesOnClntDiscon_cases :
    ClientResult nat s (.delEntriesOnClntDiscon ip) (s.delEntriesOnClntDiscon nat ip).2 := by
  unfold delEntriesOnClntDiscon
  split
  next => exact .nothing
  next => exact .looped _ (.discon ip)

theorem delEntriesOnSTAClntDiscon_cases :
    ClientResult nat s (.delEntriesOnSTAClntDiscon ip) (s.delEntriesOnSTAClntDiscon nat ip).2 := by
  unfold delEntriesOnSTAClntDiscon
  split
  next => exact .nothing
  next nonzero => exact .looped s.pwrSaveIfs (.staDiscon nonzero)

end Client

end NatApp

end Hima.Ipacm
