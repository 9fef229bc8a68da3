import Hima.Lib.Runs
import Hima.Ipacm.ListDriver
import Hima.Ipacm.NatAppStep

/-!
# The cache is a set

Whatever the driver answers, the cache holds every connection once, a slot is whole or empty,
and `curCnt` counts the occupied ones.
-/
namespace Hima.Ipacm

open Slots Runs NatApp

variable {σ : Type} {nat : NatDriver σ} {s s' : NatApp σ}

/-- The invariant of the cache and `curCnt`. -/
structure SetOk (l : List NatTableEntry) (curCnt : Int) : Prop where
  nodup : (held l).Nodup
  whole : ∀ c ∈ held l, c.Whole
  count : curCnt = (held l).length

section SetOk

variable {pre post : List NatTableEntry} {e e' : NatTableEntry} {curCnt : Int}

theorem SetOk.same (ok : SetOk (pre ++ e :: post) curCnt)
    (same : e'.connection = e.connection) : SetOk (pre ++ e' :: post) curCnt := by
  have eq := held_same pre post same
  exact ⟨eq ▸ ok.nodup, eq ▸ ok.whole, eq ▸ ok.count⟩

theorem SetOk.clear (ok : SetOk (pre ++ e :: post) curCnt) (occupied : e.connection ≠ {}) :
    SetOk (pre ++ {} :: post) (curCnt - 1) := by
  have perm := held_perm pre post occupied (show ({} : NatTableEntry).connection = {} from rfl)
  constructor
  · exact (List.nodup_cons.mp (perm.nodup_iff.mp ok.nodup)).2
  · exact fun c member => ok.whole c (perm.mem_iff.mpr (by simp [member]))
  · have count := ok.count
    rw [perm.length_eq, List.length_cons] at count
    omega

theorem SetOk.fill (ok : SetOk (pre ++ e :: post) curCnt) (free : e.connection = {})
    (whole : e'.connection.Whole) (new : e'.connection ∉ held (pre ++ e :: post)) :
    SetOk (pre ++ e' :: post) (curCnt + 1) := by
  have perm := held_perm pre post whole.ne_default free
  constructor
  · exact perm.nodup_iff.mpr (List.nodup_cons.mpr ⟨new, ok.nodup⟩)
  · intro c member
    rcases List.mem_cons.mp (perm.mem_iff.mp member) with rfl | member
    · exact whole
    · exact ok.whole c member
  · rw [perm.length_eq, List.length_cons, ok.count]
    omega

end SetOk

/-! ### Loops -/

/-- What a loop body may do to the slot it is at: leave its connection, or clear it when it is
occupied and count that. -/
inductive SlotKept (e e' : NatTableEntry) (cnt cnt' : Int) : Prop
  | same : e'.connection = e.connection → cnt' = cnt → SlotKept e e' cnt cnt'
  | cleared : e.connection ≠ {} → e' = {} → cnt' = cnt - 1 → SlotKept e e' cnt cnt'

/-- A loop over the cache whose body keeps slots in that sense. -/
def KeepsSlots (body : NatApp.Carried σ → NatTableEntry → NatApp.Carried σ × NatTableEntry) :
    Prop :=
  ∀ c e, SlotKept e (body c e).2 c.2 (body c e).1.2

theorem forCache_setOk {body : NatApp.Carried σ → NatTableEntry → NatApp.Carried σ × NatTableEntry}
    (keeps : KeepsSlots body) (ok : SetOk s.cache s.curCnt) :
    SetOk (s.forCache body).cache (s.forCache body).curCnt := by
  refine forSlots_invariant body (fun (c : Carried σ) l => SetOk l c.2) ?_ ok
  intro c pre e post ok
  cases keeps c e with
  | same same cnt =>
    rw [cnt]
    exact ok.same same
  | cleared occupied cleared cnt =>
    rw [cleared, cnt]
    exact ok.clear occupied

theorem forCache_held {body : NatApp.Carried σ → NatTableEntry → NatApp.Carried σ × NatTableEntry}
    (keeps : KeepsSlots body) {c : Connection} (member : c ∈ held (s.forCache body).cache) :
    c ∈ held s.cache := by
  obtain ⟨nonzero, e', new, rfl⟩ := mem_held.mp member
  have slots := forSlots_each body (fun e e' => e'.connection = e.connection ∨ e' = {}) (fun c e => by
      cases keeps c e with
      | same same _ => exact Or.inl same
      | cleared _ cleared _ => exact Or.inr cleared)
    (s.driver, s.curCnt) s.cache
  obtain ⟨e, old, same | rfl⟩ := forall₂_mem_right slots new
  · exact mem_held.mpr ⟨nonzero, e, old, same.symm⟩
  · exact absurd rfl nonzero

namespace NatApp

variable {tableHdl ip : UInt32}

theorem restoreEntry_kept (c : Carried σ) {e : NatTableEntry} (occupied : e.connection ≠ {}) :
    SlotKept e (restoreEntry nat tableHdl c e).2 c.2 (restoreEntry nat tableHdl c e).1.2 := by
  have result := restoreEntry_cases nat tableHdl c e
  generalize restoreEntry nat tableHdl c e = r at result ⊢
  cases result with
  | dropped => exact .cleared occupied rfl rfl
  | restored => exact .same rfl rfl

theorem withdrawEntry_kept {withdrawn : NatTableEntry → NatTableEntry} (c : Carried σ)
    {e : NatTableEntry} (same : (withdrawn e).connection = e.connection) :
    SlotKept e (withdrawEntry nat tableHdl withdrawn c e).2 c.2
      (withdrawEntry nat tableHdl withdrawn c e).1.2 := by
  have result := withdrawEntry_cases nat tableHdl withdrawn c e
  generalize withdrawEntry nat tableHdl withdrawn c e = r at result ⊢
  cases result with
  | refused => exact .same rfl rfl
  | withdrawn => exact .same same rfl

theorem restoreSlot_keeps : KeepsSlots (restoreSlot nat tableHdl) := by
  intro c e
  unfold restoreSlot
  split
  next nonzero => exact restoreEntry_kept c (occupied_of_privateIp nonzero)
  next => exact .same rfl rfl

theorem wakeSlot_keeps (nonzero : ip ≠ 0) : KeepsSlots (wakeSlot nat tableHdl ip) := by
  intro c e
  unfold wakeSlot
  split
  next mine => exact restoreEntry_kept c (occupied_of_privateIp (mine.1 ▸ nonzero))
  next => exact .same rfl rfl

theorem sleepSlot_keeps : KeepsSlots (sleepSlot nat tableHdl ip) := by
  intro c e
  unfold sleepSlot
  split
  next => exact withdrawEntry_kept c rfl
  next => exact .same rfl rfl

theorem clntDisconSlot_keeps : KeepsSlots (clntDisconSlot nat tableHdl ip) := by
  intro c e
  unfold clntDisconSlot
  split
  next => exact withdrawEntry_kept c rfl
  next => exact .same rfl rfl

theorem staClntDisconSlot_keeps (nonzero : ip ≠ 0) :
    KeepsSlots (staClntDisconSlot nat tableHdl ip) := by
  intro c e
  by_cases target : e.targetIp = ip
  · have occupied := occupied_of_targetIp (target ▸ nonzero)
    have result := staClntDisconSlot_cases nat tableHdl c target
    generalize staClntDisconSlot nat tableHdl ip c e = r at result ⊢
    cases result with
    | refused => exact .same rfl rfl
    | deleted => exact .cleared occupied rfl rfl
    | cached => exact .cleared occupied rfl rfl
  · unfold staClntDisconSlot
    rw [if_neg target]
    exact .same rfl rfl

theorem ClientLoop.keeps {op : NatAppOp} {body : Carried σ → NatTableEntry → Carried σ × NatTableEntry}
    (loop : ClientLoop nat tableHdl op body) : KeepsSlots body := by
  cases loop with
  | sleep => exact sleepSlot_keeps
  | wake nonzero => exact wakeSlot_keeps nonzero
  | discon => exact clntDisconSlot_keeps
  | staDiscon nonzero => exact staClntDisconSlot_keeps nonzero

/-! ### Calls -/

theorem ClientResult.setOk {op : NatAppOp} (result : ClientResult nat s op s')
    (ok : SetOk s.cache s.curCnt) : SetOk s'.cache s'.curCnt := by
  cases result with
  | nothing => exact ok
  | looped pwrSaveIfs loop => exact forCache_setOk loop.keeps ok

variable {c : Connection}

theorem ClientResult.held {op : NatAppOp} (result : ClientResult nat s op s')
    (member : c ∈ Ipacm.held s'.cache) : c ∈ Ipacm.held s.cache := by
  cases result with
  | nothing => exact member
  | looped pwrSaveIfs loop => exact forCache_held loop.keeps member

theorem addEntry_setOk (ok : SetOk s.cache s.curCnt) (rule : NatTableEntry) :
    SetOk (s.addEntry nat rule).2.cache (s.addEntry nat rule).2.curCnt := by
  have result := addEntry_cases nat s rule
  generalize s.addEntry nat rule = r at result ⊢
  cases result with
  | ignored => exact ok
  | refused _ _ cache _ _ _ =>
    rw [cache] at ok
    exact ok.same rfl
  | parked accepted _ cache free =>
    have new := accepted.new
    rw [cache] at ok new
    exact ok.fill free accepted.whole new
  | added accepted _ cache free _ _ =>
    have new := accepted.new
    rw [cache] at ok new
    exact ok.fill free accepted.whole new

variable {rule : NatTableEntry}

theorem addEntry_held (member : c ∈ held (s.addEntry nat rule).2.cache) :
    c ∈ held s.cache ∨ c = rule.connection ∧ s.isAlg c = false := by
  have result := addEntry_cases nat s rule
  generalize s.addEntry nat rule = r at result member
  cases result with
  | ignored => exact Or.inl member
  | refused _ _ cache free _ _ =>
    -- the slot is still free, only its handle may have changed
    have nonzero := (mem_held.mp member).1
    rw [cache]
    exact Or.inl ((held_replaced member).resolve_left fun eq => nonzero (eq.trans free))
  | parked accepted _ cache _ =>
    rw [cache]
    rcases held_replaced member with rfl | old
    · exact Or.inr ⟨rfl, accepted.notAlg⟩
    · exact Or.inl old
  | added accepted _ cache _ _ _ =>
    rw [cache]
    rcases held_replaced member with rfl | old
    · exact Or.inr ⟨rfl, accepted.notAlg⟩
    · exact Or.inl old

theorem deleteEntry_setOk (ok : SetOk s.cache s.curCnt) (occupied : rule.connection ≠ {}) :
    SetOk (s.deleteEntry nat rule).2.cache (s.deleteEntry nat rule).2.curCnt := by
  have result := deleteEntry_cases nat s rule
  generalize (s.deleteEntry nat rule).2 = s' at result ⊢
  cases result with
  | absent => exact ok
  | cached cache same _ =>
    rw [cache] at ok
    exact ok.clear (same ▸ occupied)
  | deleted cache same _ =>
    rw [cache] at ok
    exact ok.clear (same ▸ occupied)

theorem deleteEntry_held (member : c ∈ held (s.deleteEntry nat rule).2.cache) : c ∈ held s.cache := by
  have result := deleteEntry_cases nat s rule
  generalize (s.deleteEntry nat rule).2 = s' at result member
  cases result with
  | absent => exact member
  | cached cache _ _ =>
    rw [cache]
    exact (held_replaced member).resolve_left (mem_held.mp member).1
  | deleted cache _ _ =>
    rw [cache]
    exact (held_replaced member).resolve_left (mem_held.mp member).1

theorem cacheEntry_setOk (ok : SetOk s.cache s.curCnt) {cnt : Int}
    (returned : s.cacheEntry cnt rule = some s') : SetOk s'.cache s'.curCnt := by
  cases cacheEntry_cases returned with
  | ignored => exact ok
  | cached whole new cache free =>
    rw [cache] at ok new
    exact ok.fill free whole new

theorem cacheEntry_held {cnt : Int} (returned : s.cacheEntry cnt rule = some s') (member : c ∈ held s'.cache) :
    c ∈ held s.cache ∨ c = rule.connection := by
  cases cacheEntry_cases returned with
  | ignored => exact Or.inl member
  | cached whole _ cache _ =>
    rw [cache]
    exact (held_replaced member).symm

theorem flushTempEntries_setOk (ok : SetOk s.cache s.curCnt) (ip : UInt32) (isAdd : Bool) :
    SetOk (s.flushTempEntries nat ip isAdd).cache (s.flushTempEntries nat ip isAdd).curCnt := by
  obtain ⟨a, _, ok, temp, eq, _⟩ := flushTempEntries_adds nat s
    (fun a => SetOk a.cache a.curCnt) ip isAdd (fun a e _ _ _ _ ok => addEntry_setOk ok e) ok
  rw [eq]
  exact ok

theorem flushTempEntries_held {ip : UInt32} {isAdd : Bool}
    (member : c ∈ held (s.flushTempEntries nat ip isAdd).cache) :
    c ∈ held s.cache ∨ (∃ e ∈ s.temp, e.connection = c) ∧ s.isAlg c = false ∧ isAdd = true ∧
      (c.privateIp = ip ∨ c.targetIp = ip) := by
  obtain ⟨a, _, inv, temp, eq, _⟩ := flushTempEntries_adds nat s (fun a => ∀ c ∈ held a.cache,
      c ∈ held s.cache ∨ (∃ e ∈ s.temp, e.connection = c) ∧ s.isAlg c = false ∧ isAdd = true ∧
        (c.privateIp = ip ∨ c.targetIp = ip)) ip isAdd
    (fun a e waiting asked here setting inv c member => by
      rcases addEntry_held member with old | ⟨rfl, notAlg⟩
      · exact inv c old
      · exact Or.inr ⟨⟨e, waiting, rfl⟩, by rwa [setting.isAlg] at notAlg, asked, here⟩)
    (fun c old => Or.inl old)
  rw [eq] at member
  exact inv c member

theorem addTable_setOk (ok : SetOk s.cache s.curCnt) (pubIp : UInt32) :
    SetOk (s.addTable nat pubIp).2.cache (s.addTable nat pubIp).2.curCnt := by
  have result := addTable_cases nat s pubIp
  generalize (s.addTable nat pubIp).2 = s' at result ⊢
  cases result with
  | failed => exact ok
  | emptied => exact ok
  | restored => exact forCache_setOk (s := s.created _ _) restoreSlot_keeps ok

theorem addTable_held {pubIp : UInt32}
    (member : c ∈ held (s.addTable nat pubIp).2.cache) : c ∈ held s.cache := by
  have result := addTable_cases nat s pubIp
  generalize (s.addTable nat pubIp).2 = s' at result member
  cases result with
  | failed => exact member
  | emptied => exact member
  | restored => exact forCache_held (s := s.created _ _) restoreSlot_keeps member

theorem deleteTable_cache (s : NatApp σ) (nat : NatDriver σ) (pubIp : UInt32) :
    (s.deleteTable nat pubIp).2.cache = s.cache ∧ (s.deleteTable nat pubIp).2.curCnt = s.curCnt := by
  have result := deleteTable_cases nat s pubIp
  generalize (s.deleteTable nat pubIp).2 = s' at result ⊢
  cases result <;> exact ⟨rfl, rfl⟩

end NatApp

/-! ### Runs -/

/-- The rule of a `DeleteEntry` has an address. Without it the search would find an empty
slot. -/
def DeletesAddress (_ : NatApp σ) : NatAppOp → Prop
  | .deleteEntry rule => rule.privateIp ≠ 0
  | _ => True

theorem natAppStep_setOk {op : NatAppOp} (ok : SetOk s.cache s.curCnt)
    (occupied : ∀ rule, op = .deleteEntry rule → rule.connection ≠ {}) (stepped : natAppStep nat s op = some s') :
    SetOk s'.cache s'.curCnt := by
  -- the count follows the entries that are set and cleared
  cases op with
  | addTable pubIp =>
    cases stepped
    exact addTable_setOk ok pubIp
  | deleteTable pubIp =>
    cases stepped
    have same := s.deleteTable_cache nat pubIp
    rw [same.1, same.2]
    exact ok
  | addEntry rule =>
    cases stepped
    exact addEntry_setOk ok rule
  | deleteEntry rule =>
    cases stepped
    exact deleteEntry_setOk ok (occupied rule rfl)
  | cacheEntry cnt rule => exact cacheEntry_setOk ok stepped
  | updatePwrSaveIf ip =>
    cases stepped
    exact (updatePwrSaveIf_cases nat s ip).setOk ok
  | resetPwrSaveIf ip =>
    cases stepped
    exact (resetPwrSaveIf_cases nat s ip).setOk ok
  | delEntriesOnClntDiscon ip =>
    cases stepped
    exact (delEntriesOnClntDiscon_cases nat s ip).setOk ok
  | delEntriesOnSTAClntDiscon ip =>
    cases stepped
    exact (delEntriesOnSTAClntDiscon_cases nat s ip).setOk ok
  | addTempEntry e =>
    cases stepped
    exact ok
  | deleteTempEntry e =>
    cases stepped
    exact ok
  | flushTempEntries ip isAdd =>
    cases stepped
    exact flushTempEntries_setOk ok ip isAdd

/-- Where a connection that is in the cache after a call comes from. -/
inductive CameFrom (s : NatApp σ) (c : Connection) : NatAppOp → Prop
  | cache {op : NatAppOp} : c ∈ held s.cache → CameFrom s c op
  | added {rule : NatTableEntry} :
      rule.connection = c → s.isAlg c = false → CameFrom s c (.addEntry rule)
  | parked {cnt : Int} {rule : NatTableEntry} :
      rule.connection = c → CameFrom s c (.cacheEntry cnt rule)
  | flushed {ip : UInt32} :
      (∃ e ∈ s.temp, e.connection = c) → s.isAlg c = false → (c.privateIp = ip ∨ c.targetIp = ip) →
      CameFrom s c (.flushTempEntries ip true)

theorem natAppStep_held {op : NatAppOp} {c : Connection}
    (stepped : natAppStep nat s op = some s') (member : c ∈ held s'.cache) :
    CameFrom s c op := by
  -- three of the calls bring connections in, the others keep or drop what is there
  cases op with
  | addTable pubIp =>
    cases stepped
    exact .cache (addTable_held member)
  | deleteTable pubIp =>
    cases stepped
    rw [(s.deleteTable_cache nat pubIp).1] at member
    exact .cache member
  | addEntry rule =>
    cases stepped
    rcases addEntry_held member with old | ⟨rfl, notAlg⟩
    · exact .cache old
    · exact .added rfl notAlg
  | deleteEntry rule =>
    cases stepped
    exact .cache (deleteEntry_held member)
  | cacheEntry cnt rule =>
    rcases cacheEntry_held stepped member with old | rfl
    · exact .cache old
    · exact .parked rfl
  | updatePwrSaveIf ip =>
    cases stepped
    exact .cache ((updatePwrSaveIf_cases nat s ip).held member)
  | resetPwrSaveIf ip =>
    cases stepped
    exact .cache ((resetPwrSaveIf_cases nat s ip).held member)
  | delEntriesOnClntDiscon ip =>
    cases stepped
    exact .cache ((delEntriesOnClntDiscon_cases nat s ip).held member)
  | delEntriesOnSTAClntDiscon ip =>
    cases stepped
    exact .cache ((delEntriesOnSTAClntDiscon_cases nat s ip).held member)
  | addTempEntry e =>
    cases stepped
    exact .cache member
  | deleteTempEntry e =>
    cases stepped
    exact .cache member
  | flushTempEntries ip isAdd =>
    cases stepped
    rcases flushTempEntries_held member with old | ⟨waiting, notAlg, rfl, here⟩
    · exact .cache old
    · exact .flushed waiting notAlg here

theorem held_replicate (n : Nat) : held (List.replicate n {}) = [] := by
  simp [held]

theorem init_setOk (maxEntries : Nat) (algPorts : List IpacmAlg) (pubIpAddrPre : UInt32)
    (pwrSaveIfs : List UInt32) (driver : σ) :
    SetOk (init maxEntries algPorts pubIpAddrPre pwrSaveIfs driver).cache 0 := by
  have empty := held_replicate maxEntries
  constructor <;> simp [init, empty]

/-- The two readings of an occupied slot agree. -/
theorem SetOk.slot {l : List NatTableEntry} {curCnt : Int} (ok : SetOk l curCnt)
    {e : NatTableEntry} (member : e ∈ l) :
    (e.isFree = false ↔ e.privateIp ≠ 0) ∧ (e.privateIp ≠ 0 → e.connection.Whole) := by
  have whole : e.connection ≠ {} → e.connection.Whole :=
    fun occupied => ok.whole _ (mem_held.mpr ⟨occupied, e, member, rfl⟩)
  refine ⟨?_, fun nonzero => whole (occupied_of_privateIp nonzero)⟩
  rw [← Bool.not_eq_true, NatTableEntry.isFree_iff]
  exact ⟨fun occupied => (whole occupied).1, occupied_of_privateIp⟩

theorem held_length (l : List NatTableEntry) :
    (held l).length = l.countP fun e => !e.isFree := by
  rw [held, ← List.countP_eq_length_filter, List.countP_map]
  congr 1
  funext e
  simp [NatTableEntry.isFree]

/-- After any run, whatever the driver does: no connection is in two slots, a slot is occupied
exactly when it has a private address and then all five fields are set, `curCnt` counts the
occupied slots, and what a further call brings in, other than by `CacheEntry`, is not an ALG
connection. -/
theorem cache_is_set {maxEntries : Nat} {algPorts : List IpacmAlg} {pubIpAddrPre : UInt32}
    {pwrSaveIfs : List UInt32} {driver : σ} {ops : List NatAppOp} (run : Run (natAppStep nat) DeletesAddress
      (init maxEntries algPorts pubIpAddrPre pwrSaveIfs driver) ops s) :
    (held s.cache).Nodup ∧ (∀ e ∈ s.cache, (e.isFree = false ↔ e.privateIp ≠ 0) ∧
        (e.privateIp ≠ 0 → e.connection.Whole)) ∧ s.curCnt = (s.cache.countP fun e => !e.isFree) ∧
      ∀ op s', natAppStep nat s op = some s' → (∀ cnt rule, op ≠ .cacheEntry cnt rule) →
        ∀ c ∈ held s'.cache, c ∈ held s.cache ∨ s.isAlg c = false := by
  have ok : SetOk s.cache s.curCnt :=
    run.invariant (fun s => SetOk s.cache s.curCnt)
      (fun s op s' ok allowed stepped => natAppStep_setOk ok
        (fun rule eq => occupied_of_privateIp (by rwa [eq] at allowed)) stepped)
      (init_setOk maxEntries algPorts pubIpAddrPre pwrSaveIfs driver)
  refine ⟨ok.nodup, fun e member => ok.slot member, ?_, ?_⟩
  · rw [ok.count, held_length]
  · intro op s' stepped notCached c member
    cases natAppStep_held stepped member with
    | cache old => exact Or.inl old
    | added _ notAlg => exact Or.inr notAlg
    | parked => exact absurd rfl (notCached _ _)
    | flushed _ notAlg => exact Or.inr notAlg

theorem cache_is_set_sample : ∃ s, Run (natAppStep listDriver) DeletesAddress (init 2 [] 0 [] none)
      [.addTable 5, .addEntry sampleEntry, .cacheEntry 0 otherEntry, .deleteEntry sampleEntry] s ∧
      (held s.cache).Nodup ∧ s.curCnt = s.cache.countP fun e => !e.isFree := by
  have run : Run (natAppStep listDriver) DeletesAddress (init 2 [] 0 [] none)
      [.addTable 5, .addEntry sampleEntry, .cacheEntry 0 otherEntry, .deleteEntry sampleEntry] _ :=
    .cons trivial rfl (.cons trivial rfl (.cons trivial rfl
      (.cons (show sampleEntry.privateIp ≠ 0 by decide) rfl (.nil _))))
  obtain ⟨nodup, _, count, _⟩ := cache_is_set run
  exact ⟨_, run, nodup, count⟩

end Hima.Ipacm
