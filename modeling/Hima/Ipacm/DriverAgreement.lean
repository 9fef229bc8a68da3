import Hima.Lib.Runs
import Hima.Ipacm.ListDriver
import Hima.Ipacm.NatAppStep

/-!
# The cache and the driver

With a driver that behaves, the enabled entries of the cache are the live rules of the table.
`Reset` does not clear the enabled bits, so this is lost where a table is deleted, or created
anew, while an entry is enabled; it holds in every run that does neither.
-/
namespace Hima.Ipacm

open Ipanat Slots Runs NatApp

variable {σ : Type} {nat : NatDriver σ} {view : σ → Option (UInt32 × LiveRules)}
  {s s' : NatApp σ}

/-- The rules the enabled entries stand for, with the handles the entries hold. -/
def offloaded (l : List NatTableEntry) : LiveRules :=
  (l.filter (·.enabled)).map fun e => (e.ruleHdl, e.natRule)

theorem mem_offloaded {l : List NatTableEntry} {r : UInt32 × IpaNatIpv4Rule} :
    r ∈ offloaded l ↔ ∃ e ∈ l, e.enabled = true ∧ (e.ruleHdl, e.natRule) = r := by
  simp [offloaded, and_assoc]

/-- No entry is enabled. -/
def NoneEnabled (l : List NatTableEntry) : Prop := ∀ e ∈ l, e.enabled = false

instance (l : List NatTableEntry) : Decidable (NoneEnabled l) :=
  inferInstanceAs (Decidable (∀ _ ∈ _, _))

theorem offloaded_of_noneEnabled {l : List NatTableEntry} (none : NoneEnabled l) :
    offloaded l = [] := by
  simp only [offloaded, List.map_eq_nil_iff, List.filter_eq_nil_iff]
  intro e member
  simp [none e member]

section OneSlot

variable {pre post : List NatTableEntry} {e e' : NatTableEntry}

theorem offloaded_off (off : e.enabled = false) (off' : e'.enabled = false) :
    offloaded (pre ++ e' :: post) = offloaded (pre ++ e :: post) := by
  simp [offloaded, off, off']

theorem offloaded_on (pre post : List NatTableEntry) (off : e.enabled = false) (on : e'.enabled = true) :
    (offloaded (pre ++ e' :: post)).Perm ((e'.ruleHdl, e'.natRule) :: offloaded (pre ++ e :: post)) := by
  simp [offloaded, off, on]

theorem noneEnabled_replaced (none : NoneEnabled (pre ++ e :: post))
    (off' : e'.enabled = false) : NoneEnabled (pre ++ e' :: post) :=
  forall_mem_replaced none off'

theorem filter_handle_perm {live rest : LiveRules} {hdl : UInt32} {rule : IpaNatIpv4Rule}
    (perm : live.Perm ((hdl, rule) :: rest)) (nodup : (live.map Prod.fst).Nodup) :
    (live.filter fun r => r.1 ≠ hdl).Perm rest := by
  have nodup' := (perm.map Prod.fst).nodup_iff.mp nodup
  rw [List.map_cons, List.nodup_cons] at nodup'
  have kept : rest.filter (fun r => r.1 ≠ hdl) = rest := by
    apply List.filter_eq_self.mpr
    intro r member
    have : r.1 ≠ hdl := fun same => nodup'.1 (List.mem_map.mpr ⟨r, member, same⟩)
    simpa using this
  have filtered := perm.filter fun r => r.1 ≠ hdl
  rw [List.filter_cons_of_neg (by simp), kept] at filtered
  exact filtered

end OneSlot

/-! ### The link between a table and the cache -/

/-- The invariant. An enabled entry has a connection, and either there is no table handle and
nothing is enabled, or the handle names the live table and its rules are the enabled entries. -/
inductive Link (view : σ → Option (UInt32 × LiveRules)) (tableHdl : UInt32) (d : σ)
    (l : List NatTableEntry) : Prop
  | unlinked : tableHdl = 0 → NoneEnabled l → Link view tableHdl d l
  | linked (live : LiveRules) : view d = some (tableHdl, live) → live.Perm (offloaded l) →
      (live.map Prod.fst).Nodup → Link view tableHdl d l

/-- An enabled entry has a connection. -/
def EnabledOccupied (l : List NatTableEntry) : Prop :=
  ∀ e ∈ l, e.enabled = true → e.connection ≠ {}

structure Linked (view : σ → Option (UInt32 × LiveRules)) (tableHdl : UInt32) (d : σ)
    (l : List NatTableEntry) : Prop where
  link : Link view tableHdl d l
  occupied : EnabledOccupied l

section OneSlot

variable {pre post : List NatTableEntry} {e e' : NatTableEntry} {tableHdl : UInt32} {d d' : σ}

theorem enabledOccupied_replaced (occupied : EnabledOccupied (pre ++ e :: post))
    (new : e'.enabled = true → e'.connection ≠ {}) : EnabledOccupied (pre ++ e' :: post) :=
  forall_mem_replaced occupied new

theorem Linked.off_of_free (h : Linked view tableHdl d (pre ++ e :: post))
    (free : e.connection = {}) : e.enabled = false := by
  cases on : e.enabled with
  | false => rfl
  | true => exact absurd free (h.occupied e (by simp) on)

/-- The driver moved on without touching the rules, and the slot stayed disabled. -/
theorem Linked.keep (h : Linked view tableHdl d (pre ++ e :: post)) (same : view d' = view d)
    (off : e.enabled = false) (off' : e'.enabled = false) :
    Linked view tableHdl d' (pre ++ e' :: post) := by
  refine ⟨?_, enabledOccupied_replaced h.occupied fun on => by simp [off'] at on⟩
  cases h.link with
  | unlinked hdl none => exact .unlinked hdl (noneEnabled_replaced none off')
  | linked live shown perm nodup =>
    exact .linked live (same.trans shown) (by rwa [offloaded_off off off']) nodup

/-- A rule was added for the entry, if the driver took it. -/
theorem Linked.turnOn (lawful : nat.Lawful view)
    (h : Linked view tableHdl d (pre ++ e :: post)) (off : e.enabled = false)
    {rule : IpaNatIpv4Rule} {ret : Int} {stored : Option UInt32}
    (call : nat.addIpv4Rule d tableHdl rule = (ret, stored, d')) :
    (ret < 0 ∧ view d' = view d) ∨
    (¬ret < 0 ∧ ∀ e', e'.enabled = true → e'.connection ≠ {} → e'.natRule = rule →
      (∀ hdl, stored = some hdl → e'.ruleHdl = hdl) → Linked view tableHdl d' (pre ++ e' :: post)) := by
  cases h.link with
  | unlinked hdl none =>
    subst hdl
    exact Or.inl (lawful.noTable d rule ret stored d' call)
  | linked live shown perm nodup =>
    rcases lawful.addRule d tableHdl live rule ret stored d' shown call with
      refused | ⟨ok, hdl, rfl, fresh, shown'⟩
    · exact Or.inl refused
    · refine Or.inr ⟨ok, fun e' on connected rule_eq hdl_eq => ?_⟩
      refine ⟨.linked _ shown' ?_ ?_, enabledOccupied_replaced h.occupied fun _ => connected⟩
      · have grown := offloaded_on pre post off on
        rw [hdl_eq hdl rfl, rule_eq] at grown
        exact (perm.cons _).trans grown.symm
      · exact List.nodup_cons.mpr ⟨fresh, nodup⟩

/-- The rule of an enabled entry was deleted: that succeeds, and takes nothing else along. -/
theorem Linked.turnOff (lawful : nat.Lawful view)
    (h : Linked view tableHdl d (pre ++ e :: post)) (on : e.enabled = true) {ret : Int}
    (call : nat.delIpv4Rule d tableHdl e.ruleHdl = (ret, d')) :
    ¬ret < 0 ∧ ∀ e', e'.enabled = false → Linked view tableHdl d' (pre ++ e' :: post) := by
  cases h.link with
  | unlinked _ none =>
    have off := none e (by simp)
    simp [on] at off
  | linked live shown perm nodup =>
    have held : (e.ruleHdl, e.natRule) ∈ live :=
      perm.mem_iff.mpr (mem_offloaded.mpr ⟨e, by simp, on, rfl⟩)
    obtain ⟨ok, shown'⟩ := lawful.delRule d tableHdl live e.ruleHdl ret d' shown (List.mem_map_of_mem held) call
    refine ⟨ok, fun e' off' => ?_⟩
    refine ⟨.linked _ shown' ?_ ?_, enabledOccupied_replaced h.occupied fun on' => by simp [off'] at on'⟩
    · exact filter_handle_perm (perm.trans (offloaded_on pre post off' on)) nodup
    · exact nodup.sublist (List.filter_sublist.map _)

end OneSlot

/-! ### Loops -/

/-- A loop body keeps the link, wherever the slot stands. -/
def KeepsLink (view : σ → Option (UInt32 × LiveRules)) (tableHdl : UInt32)
    (body : Carried σ → NatTableEntry → Carried σ × NatTableEntry) : Prop :=
  ∀ c pre e post, Linked view tableHdl c.1 (pre ++ e :: post) →
    Linked view tableHdl (body c e).1.1 (pre ++ (body c e).2 :: post)

theorem forCache_linked {body : NatApp.Carried σ → NatTableEntry → NatApp.Carried σ × NatTableEntry}
    {tableHdl : UInt32} (keeps : KeepsLink view tableHdl body) (h : Linked view tableHdl s.driver s.cache) :
    Linked view tableHdl (s.forCache body).driver (s.forCache body).cache :=
  forSlots_invariant body (fun (c : Carried σ) l => Linked view tableHdl c.1 l) keeps h

namespace NatApp

variable {tableHdl ip : UInt32}

section

variable (lawful : nat.Lawful view)
include lawful

theorem restoreEntry_linked {c : Carried σ} {pre post : List NatTableEntry} {e : NatTableEntry}
    (h : Linked view tableHdl c.1 (pre ++ e :: post)) (off : e.enabled = false) (occupied : e.connection ≠ {}) :
    Linked view tableHdl (restoreEntry nat tableHdl c e).1.1
      (pre ++ (restoreEntry nat tableHdl c e).2 :: post) := by
  have result := restoreEntry_cases nat tableHdl c e
  generalize restoreEntry nat tableHdl c e = r at result ⊢
  cases result with
  | dropped call failed =>
    rcases h.turnOn lawful off call with ⟨_, same⟩ | ⟨ok, _⟩
    · exact h.keep same off rfl
    · exact absurd failed ok
  | restored call ok =>
    rcases h.turnOn lawful off call with ⟨failed, _⟩ | ⟨_, on⟩
    · exact absurd failed ok
    · refine on _ rfl occupied rfl fun hdl stored => ?_
      simp [stored]

theorem withdrawEntry_linked {c : Carried σ} {pre post : List NatTableEntry} {e : NatTableEntry}
    {withdrawn : NatTableEntry → NatTableEntry}
    (h : Linked view tableHdl c.1 (pre ++ e :: post)) (on : e.enabled = true)
    (off' : (withdrawn e).enabled = false) :
    Linked view tableHdl (withdrawEntry nat tableHdl withdrawn c e).1.1
      (pre ++ (withdrawEntry nat tableHdl withdrawn c e).2 :: post) := by
  have result := withdrawEntry_cases nat tableHdl withdrawn c e
  generalize withdrawEntry nat tableHdl withdrawn c e = r at result ⊢
  cases result with
  | refused call failed => exact absurd failed (h.turnOff lawful on call).1
  | withdrawn call _ => exact (h.turnOff lawful on call).2 _ off'

theorem wakeSlot_linked (nonzero : ip ≠ 0) :
    KeepsLink view tableHdl (wakeSlot nat tableHdl ip) := by
  intro c pre e post h
  unfold wakeSlot
  split
  next mine =>
    exact restoreEntry_linked lawful h mine.2 (occupied_of_privateIp (mine.1 ▸ nonzero))
  next => exact h

theorem sleepSlot_linked :
    KeepsLink view tableHdl (sleepSlot nat tableHdl ip) := by
  intro c pre e post h
  unfold sleepSlot
  split
  next mine => exact withdrawEntry_linked lawful h mine.2 rfl
  next => exact h

theorem clntDisconSlot_linked :
    KeepsLink view tableHdl (clntDisconSlot nat tableHdl ip) := by
  intro c pre e post h
  unfold clntDisconSlot
  split
  next mine => exact withdrawEntry_linked lawful h mine.2 rfl
  next => exact h

theorem staClntDisconSlot_linked :
    KeepsLink view tableHdl (staClntDisconSlot nat tableHdl ip) := by
  intro c pre e post h
  by_cases target : e.targetIp = ip
  · have result := staClntDisconSlot_cases nat tableHdl c target
    generalize staClntDisconSlot nat tableHdl ip c e = r at result ⊢
    cases result with
    | refused on call failed => exact absurd failed (h.turnOff lawful on call).1
    | deleted on call _ => exact (h.turnOff lawful on call).2 _ rfl
    | cached off => exact h.keep rfl off rfl
  · unfold staClntDisconSlot
    rw [if_neg target]
    exact h

/-- The restoring loop starts with every entry disabled, and the ones it has not reached stay
so. -/
theorem restoreCache_linked (none : NoneEnabled s.cache) (h : Linked view tableHdl s.driver s.cache) :
    Linked view tableHdl (s.forCache (restoreSlot nat tableHdl)).driver
      (s.forCache (restoreSlot nat tableHdl)).cache := by
  have visited := forSlots_visit (restoreSlot nat tableHdl) (fun (c : Carried σ) pre post =>
      Linked view tableHdl c.1 (pre ++ post) ∧ NoneEnabled post)
    (fun c pre e post inv => by
      obtain ⟨h, none⟩ := inv
      refine ⟨?_, fun x member => none x (by simp [member])⟩
      rw [List.append_assoc, List.singleton_append]
      unfold restoreSlot
      split
      next nonzero =>
        exact restoreEntry_linked lawful h (none e (by simp)) (occupied_of_privateIp nonzero)
      next => exact h)
    (a := (s.driver, s.curCnt)) (l := s.cache) ⟨h, none⟩
  have whole := visited.1
  rw [List.append_nil] at whole
  exact whole

/-! ### Calls -/

theorem addEntry_linked (h : Linked view s.natTableHdl s.driver s.cache) (rule : NatTableEntry) :
    Linked view s.natTableHdl (s.addEntry nat rule).2.driver (s.addEntry nat rule).2.cache := by
  have result := addEntry_cases nat s rule
  generalize s.addEntry nat rule = r at result ⊢
  cases result with
  | ignored => exact h
  | refused accepted _ cache free call failed =>
    rw [cache] at h
    have off := h.off_of_free free
    rcases h.turnOn lawful off call with ⟨_, same⟩ | ⟨ok, _⟩
    · exact h.keep same off off
    · exact absurd failed ok
  | parked accepted _ cache free =>
    rw [cache] at h
    exact h.keep rfl (h.off_of_free free) rfl
  | added accepted _ cache free call ok =>
    rw [cache] at h
    rcases h.turnOn lawful (h.off_of_free free) call with ⟨failed, _⟩ | ⟨_, on⟩
    · exact absurd failed ok
    · refine on _ rfl accepted.whole.ne_default rfl fun hdl stored => ?_
      simp [filledSlot, stored]

theorem deleteEntry_linked (h : Linked view s.natTableHdl s.driver s.cache) (rule : NatTableEntry) :
    Linked view s.natTableHdl (s.deleteEntry nat rule).2.driver (s.deleteEntry nat rule).2.cache := by
  have result := deleteEntry_cases nat s rule
  generalize (s.deleteEntry nat rule).2 = s' at result ⊢
  cases result with
  | absent => exact h
  | cached cache _ off =>
    rw [cache] at h
    exact h.keep rfl off rfl
  | deleted cache _ on =>
    rw [cache] at h
    exact (h.turnOff lawful on rfl).2 _ rfl

end

theorem cacheEntry_linked {cnt : Int} {rule : NatTableEntry} (h : Linked view s.natTableHdl s.driver s.cache)
    (returned : s.cacheEntry cnt rule = some s') :
    Linked view s.natTableHdl s'.driver s'.cache := by
  cases cacheEntry_cases returned with
  | ignored => exact h
  | cached _ _ cache free =>
    rw [cache] at h
    exact h.keep rfl (h.off_of_free free) rfl

section

variable (lawful : nat.Lawful view)
include lawful

theorem flushTempEntries_linked (h : Linked view s.natTableHdl s.driver s.cache) (ip : UInt32) (isAdd : Bool) :
    Linked view (s.flushTempEntries nat ip isAdd).natTableHdl
      (s.flushTempEntries nat ip isAdd).driver (s.flushTempEntries nat ip isAdd).cache := by
  obtain ⟨a, _, linked, temp, eq, _⟩ := flushTempEntries_adds nat s
    (fun a => Linked view a.natTableHdl a.driver a.cache) ip isAdd
    (fun a e _ _ _ _ linked => by
      rw [(addEntry_setting nat a e).natTableHdl]
      exact addEntry_linked lawful linked e)
    h
  rw [eq]
  exact linked

theorem addTable_linked (h : Linked view s.natTableHdl s.driver s.cache) {pubIp : UInt32}
    (none : UInt16.ofNat s.cache.length = 0 ∨ NoneEnabled s.cache) :
    Linked view (s.addTable nat pubIp).2.natTableHdl (s.addTable nat pubIp).2.driver
      (s.addTable nat pubIp).2.cache := by
  have result := addTable_cases nat s pubIp
  generalize (s.addTable nat pubIp).2 = s' at result ⊢
  -- a table that was created starts with no rules
  have empty : ∀ {hdl : UInt32} {d : σ}, view d = some (hdl, []) → NoneEnabled s.cache →
      Linked view hdl d s.cache := by
    intro hdl d shown none
    exact ⟨.linked [] shown (by rw [offloaded_of_noneEnabled none]) (by simp), h.occupied⟩
  cases result with
  | @failed ret stored driver call failed =>
    rcases lawful.addTbl s.driver pubIp _ ret stored driver call with
      ⟨_, rfl, same⟩ | ⟨ok, _⟩
    · by_cases zero : UInt16.ofNat s.cache.length = 0
      · -- nothing was stored: the handle stays as well
        simp only [created, zero, if_true, Option.getD_none]
        refine ⟨?_, h.occupied⟩
        cases h.link with
        | unlinked hdl none => exact .unlinked hdl none
        | linked live shown perm nodup => exact .linked live (same.trans shown) perm nodup
      · simp only [created, zero, if_false, Option.getD_some]
        exact ⟨.unlinked rfl (none.resolve_left zero), h.occupied⟩
    · exact absurd ok failed
  | @emptied stored driver call other =>
    rcases lawful.addTbl s.driver pubIp _ 0 stored driver call with
      ⟨failed, _⟩ | ⟨_, nonzero, _, hdl, rfl, shown⟩
    · exact absurd rfl failed
    · exact empty shown (none.resolve_left nonzero)
  | @restored stored driver call same =>
    rcases lawful.addTbl s.driver pubIp _ 0 stored driver call with
      ⟨failed, _⟩ | ⟨_, nonzero, _, hdl, rfl, shown⟩
    · exact absurd rfl failed
    · have none := none.resolve_left nonzero
      exact restoreCache_linked (s := s.created (some hdl) driver) lawful none (empty shown none)

theorem deleteTable_linked (h : Linked view s.natTableHdl s.driver s.cache) {pubIp : UInt32}
    (none : s.natTableHdl ≠ 0 ∧ s.pubIpAddr = pubIp → NoneEnabled s.cache) :
    Linked view (s.deleteTable nat pubIp).2.natTableHdl (s.deleteTable nat pubIp).2.driver
      (s.deleteTable nat pubIp).2.cache := by
  have result := deleteTable_cases nat s pubIp
  generalize (s.deleteTable nat pubIp).2 = s' at result ⊢
  cases result with
  | ignored => exact h
  | failed table mine call failed =>
    cases h.link with
    | unlinked hdl _ => exact absurd hdl table
    | linked live shown _ _ => exact absurd (lawful.delTbl _ _ live _ _ shown call).1 failed
  | deleted table mine _ => exact ⟨.unlinked rfl (none ⟨table, mine⟩), h.occupied⟩

theorem ClientLoop.linked {tableHdl : UInt32} {op : NatAppOp}
    {body : Carried σ → NatTableEntry → Carried σ × NatTableEntry}
    (loop : ClientLoop nat tableHdl op body) : KeepsLink view tableHdl body := by
  cases loop with
  | sleep => exact sleepSlot_linked lawful
  | wake nonzero => exact wakeSlot_linked lawful nonzero
  | discon => exact clntDisconSlot_linked lawful
  | staDiscon => exact staClntDisconSlot_linked lawful

theorem ClientResult.linked {op : NatAppOp}
    (result : ClientResult nat s op s') (h : Linked view s.natTableHdl s.driver s.cache) :
    Linked view s'.natTableHdl s'.driver s'.cache := by
  cases result with
  | nothing => exact h
  | looped pwrSaveIfs loop => exact forCache_linked (loop.linked lawful) h

end

end NatApp

/-! ### Runs -/

/-- No entry is enabled while a table is deleted, or while one is created. (For 0 entries the
driver creates nothing and leaves the handle alone.) -/
def TableCallOk (s : NatApp σ) : NatAppOp → Prop
  | .addTable _ => UInt16.ofNat s.cache.length = 0 ∨ NoneEnabled s.cache
  | .deleteTable pubIp => s.natTableHdl ≠ 0 ∧ s.pubIpAddr = pubIp → NoneEnabled s.cache
  | _ => True

theorem natAppStep_linked (lawful : nat.Lawful view) {op : NatAppOp}
    (h : Linked view s.natTableHdl s.driver s.cache) (allowed : TableCallOk s op)
    (stepped : natAppStep nat s op = some s') :
    Linked view s'.natTableHdl s'.driver s'.cache := by
  -- only the table calls change the handle; all others work under it
  cases op with
  | addTable pubIp =>
    cases stepped
    exact addTable_linked lawful h allowed
  | deleteTable pubIp =>
    cases stepped
    exact deleteTable_linked lawful h allowed
  | addEntry rule =>
    cases stepped
    rw [(addEntry_setting nat s rule).natTableHdl]
    exact addEntry_linked lawful h rule
  | deleteEntry rule =>
    cases stepped
    rw [(deleteEntry_setting nat s rule).natTableHdl]
    exact deleteEntry_linked lawful h rule
  | cacheEntry cnt rule =>
    rw [(cacheEntry_setting stepped).natTableHdl]
    exact cacheEntry_linked h stepped
  | updatePwrSaveIf ip =>
    cases stepped
    exact (updatePwrSaveIf_cases nat s ip).linked lawful h
  | resetPwrSaveIf ip =>
    cases stepped
    exact (resetPwrSaveIf_cases nat s ip).linked lawful h
  | delEntriesOnClntDiscon ip =>
    cases stepped
    exact (delEntriesOnClntDiscon_cases nat s ip).linked lawful h
  | delEntriesOnSTAClntDiscon ip =>
    cases stepped
    exact (delEntriesOnSTAClntDiscon_cases nat s ip).linked lawful h
  | addTempEntry e =>
    cases stepped
    exact h
  | deleteTempEntry e =>
    cases stepped
    exact h
  | flushTempEntries ip isAdd =>
    cases stepped
    exact flushTempEntries_linked lawful h ip isAdd

/-! ### Agreement -/

/-- The connection a rule of the driver is for. -/
def ruleConnection (rule : IpaNatIpv4Rule) : Connection :=
  ⟨rule.privateIp, rule.targetIp, rule.privatePort, rule.targetPort, rule.protocol⟩

@[simp] theorem ruleConnection_natRule (e : NatTableEntry) :
    ruleConnection e.natRule = e.connection := rfl

/-- The cache agrees with the driver: an enabled entry has a live handle of the current table
that stands for its own rule, no two enabled entries share a handle, a live rule of the current
table is that of an enabled entry, and without a table no entry is enabled. -/
structure AgreesWith (view : σ → Option (UInt32 × LiveRules)) (s : NatApp σ) : Prop where
  live : ∀ e ∈ s.cache, e.enabled = true →
    ∃ rules, view s.driver = some (s.natTableHdl, rules) ∧ (e.ruleHdl, e.natRule) ∈ rules
  distinct : ((s.cache.filter (·.enabled)).map (·.ruleHdl)).Nodup
  owned : ∀ rules, view s.driver = some (s.natTableHdl, rules) →
    ∀ r ∈ rules, ∃ e ∈ s.cache, e.enabled = true ∧ (e.ruleHdl, e.natRule) = r
  noTable : s.natTableHdl = 0 → NoneEnabled s.cache

theorem Linked.agrees (lawful : nat.Lawful view)
    (h : Linked view s.natTableHdl s.driver s.cache) : AgreesWith view s := by
  cases h.link with
  | unlinked hdl none =>
    constructor
    case live =>
      intro e member on
      simp [none e member] at on
    case distinct =>
      have empty : s.cache.filter (·.enabled) = [] := by
        simp only [List.filter_eq_nil_iff]
        intro e member
        simp [none e member]
      simp [empty]
    case owned =>
      intro rules shown
      exact absurd hdl (lawful.named _ _ _ shown)
    case noTable => exact fun _ => none
  | linked rules shown perm nodup =>
    constructor
    case live =>
      exact fun e member on =>
        ⟨rules, shown, perm.mem_iff.mpr (mem_offloaded.mpr ⟨e, member, on, rfl⟩)⟩
    case distinct =>
      have handles := (perm.map Prod.fst).nodup_iff.mp nodup
      rwa [offloaded, List.map_map] at handles
    case owned =>
      intro rules' shown' r member
      rw [shown, Option.some.injEq, Prod.mk.injEq] at shown'
      exact mem_offloaded.mp (perm.mem_iff.mp (shown'.2 ▸ member))
    case noTable => exact fun hdl => absurd hdl (lawful.named _ _ _ shown)

/-- `DeleteEntry` takes no rule of another connection with it. -/
theorem Linked.deleteEntry_keeps (lawful : nat.Lawful view)
    (h : Linked view s.natTableHdl s.driver s.cache) (rule : NatTableEntry) {tableHdl : UInt32}
    {rules : LiveRules} (shown : view s.driver = some (tableHdl, rules)) :
    ∃ rules', view (s.deleteEntry nat rule).2.driver = some (tableHdl, rules') ∧
      ∀ r ∈ rules, ruleConnection r.2 ≠ rule.connection → r ∈ rules' := by
  have result := deleteEntry_cases nat s rule
  generalize (s.deleteEntry nat rule).2 = s' at result ⊢
  cases result with
  | absent => exact ⟨rules, shown, fun r member _ => member⟩
  | cached => exact ⟨rules, shown, fun r member _ => member⟩
  | @deleted pre post slot cache same on =>
    have member : slot ∈ s.cache := by simp [cache]
    cases h.link with
    | unlinked _ none =>
      have off := none slot member
      simp [on] at off
    | linked live shown' perm nodup =>
      obtain ⟨rfl, rfl⟩ : s.natTableHdl = tableHdl ∧ live = rules := by
        rw [shown] at shown'
        simpa [eq_comm] using shown'
      have held : (slot.ruleHdl, slot.natRule) ∈ live :=
        perm.mem_iff.mpr (mem_offloaded.mpr ⟨slot, member, on, rfl⟩)
      obtain ⟨_, left⟩ := lawful.delRule _ _ _ slot.ruleHdl _ _ shown (List.mem_map_of_mem held) rfl
      refine ⟨_, left, fun r live_r other => List.mem_filter.mpr ⟨live_r, ?_⟩⟩
      -- a rule with the deleted handle would be the one of the deleted connection
      have apart : r.1 ≠ slot.ruleHdl := by
        intro same_hdl
        have eq : r = (slot.ruleHdl, slot.natRule) :=
          List.inj_on_of_nodup_map nodup live_r held same_hdl
        exact other (by rw [eq, ruleConnection_natRule, same])
      simpa using apart

/-- A table call while an entry is enabled breaks the agreement. -/
theorem TableCallOk.of_agrees (lawful : nat.Lawful view)
    (h : Linked view s.natTableHdl s.driver s.cache) {op : NatAppOp}
    (stepped : natAppStep nat s op = some s') (agrees : AgreesWith view s') :
    TableCallOk s op := by
  cases op with
  | addTable pubIp =>
    cases stepped
    by_cases zero : UInt16.ofNat s.cache.length = 0
    · exact Or.inl zero
    · right
      have result := addTable_cases nat s pubIp
      generalize (s.addTable nat pubIp).2 = s' at result agrees
      -- with an enabled entry there is a table, and the driver makes no second one
      cases h.link with
      | unlinked _ none => exact none
      | linked live shown _ _ =>
        cases result with
        | @failed ret stored driver call failed =>
          rcases lawful.addTbl s.driver pubIp _ ret stored driver call with
            ⟨_, rfl, _⟩ | ⟨ok, _⟩
          · exact agrees.noTable (by simp [created, zero])
          · exact absurd ok failed
        | @emptied stored driver call _ =>
          rcases lawful.addTbl s.driver pubIp _ 0 stored driver call with
            ⟨failed, _⟩ | ⟨_, _, none, _⟩
          · exact absurd rfl failed
          · simp [shown] at none
        | @restored stored driver call _ =>
          rcases lawful.addTbl s.driver pubIp _ 0 stored driver call with
            ⟨failed, _⟩ | ⟨_, _, none, _⟩
          · exact absurd rfl failed
          · simp [shown] at none
  | deleteTable pubIp =>
    cases stepped
    rintro ⟨table, mine⟩
    have result := deleteTable_cases nat s pubIp
    generalize (s.deleteTable nat pubIp).2 = s' at result agrees
    cases result with
    | ignored refused => exact absurd refused (by simp [table, mine])
    | failed _ _ call failed =>
      cases h.link with
      | unlinked hdl _ => exact absurd hdl table
      | linked live shown _ _ => exact absurd (lawful.delTbl _ _ live _ _ shown call).1 failed
    | deleted => exact agrees.noTable rfl
  | _ => trivial

theorem init_linked (maxEntries : Nat) (algPorts : List IpacmAlg) (pubIpAddrPre : UInt32)
    (pwrSaveIfs : List UInt32) (driver : σ) :
    Linked view 0 driver (init maxEntries algPorts pubIpAddrPre pwrSaveIfs driver).cache := by
  have off : NoneEnabled (List.replicate maxEntries ({} : NatTableEntry)) := by
    intro e member
    rw [List.eq_of_mem_replicate member]
  exact ⟨.unlinked rfl off, fun e member on => by simp [off e member] at on⟩

/-- With any driver that behaves and after any run in which no entry is enabled when a table is
created or deleted, the cache agrees with the driver, and a `DeleteEntry` takes no other
connection's rule along. From each state of such a run a further call keeps the agreement
exactly when it meets the condition. -/
theorem cache_agrees_with_driver (lawful : nat.Lawful view) {maxEntries : Nat}
    {algPorts : List IpacmAlg} {pubIpAddrPre : UInt32} {pwrSaveIfs : List UInt32} {driver : σ}
    {ops : List NatAppOp} (run : Run (natAppStep nat) TableCallOk
      (init maxEntries algPorts pubIpAddrPre pwrSaveIfs driver) ops s) :
    AgreesWith view s ∧ (∀ rule tableHdl rules, view s.driver = some (tableHdl, rules) →
        ∃ rules', view (s.deleteEntry nat rule).2.driver = some (tableHdl, rules') ∧
          ∀ r ∈ rules, ruleConnection r.2 ≠ rule.connection → r ∈ rules') ∧
      ∀ op s', natAppStep nat s op = some s' → (AgreesWith view s' ↔ TableCallOk s op) := by
  have linked : Linked view s.natTableHdl s.driver s.cache :=
    run.invariant (fun s => Linked view s.natTableHdl s.driver s.cache)
      (fun s op s' h allowed stepped => natAppStep_linked lawful h allowed stepped)
      (init_linked maxEntries algPorts pubIpAddrPre pwrSaveIfs driver)
  refine ⟨linked.agrees lawful, fun rule _ _ shown => linked.deleteEntry_keeps lawful rule shown,
    fun op s' stepped => ⟨TableCallOk.of_agrees lawful linked stepped, fun allowed => ?_⟩⟩
  exact (natAppStep_linked lawful linked allowed stepped).agrees lawful

theorem cache_agrees_with_driver_sample : ∃ s, Run (natAppStep listDriver) TableCallOk (init 2 [] 0 [] none)
      [.addTable 5, .addEntry sampleEntry, .deleteEntry sampleEntry, .deleteTable 5, .addTable 6,
        .addEntry otherEntry] s ∧ s.natTableHdl = 1 ∧ AgreesWith listView s := by
  have run : Run (natAppStep listDriver) TableCallOk (init 2 [] 0 [] none)
      [.addTable 5, .addEntry sampleEntry, .deleteEntry sampleEntry, .deleteTable 5, .addTable 6,
        .addEntry otherEntry] _ :=
    .cons (Or.inr (by decide)) rfl (.cons trivial rfl (.cons trivial rfl
      (.cons (fun _ => by decide) rfl (.cons (Or.inr (by decide)) rfl
        (.cons trivial rfl (.nil _))))))
  exact ⟨_, run, by decide, (cache_agrees_with_driver listDriver_lawful run).1⟩

/-- The deleted table leaves its entry enabled. Under another public address the next entry gets
the same handle, and a `DeleteEntry` of the first connection deletes the rule of the second. -/
theorem stale_handle_deletes_other_rule : listDriver.Lawful listView ∧ ∃ s s' : NatApp (Option LiveRules),
      Run (natAppStep listDriver) (fun _ _ => True) (init 2 [] 0 [] none)
        [.addTable 5, .addEntry sampleEntry, .deleteTable 5] s ∧
      (s.natTableHdl = 0 ∧ ∃ e ∈ s.cache, e.enabled = true) ∧ ¬AgreesWith listView s ∧
      Run (natAppStep listDriver) (fun _ _ => True) s [.addTable 6, .addEntry otherEntry] s' ∧
      listView s'.driver = some (1, [(1, otherEntry.natRule)]) ∧
      listView (s'.deleteEntry listDriver sampleEntry).2.driver = some (1, []) := by
  have run : Run (natAppStep listDriver) (fun _ _ => True) (init 2 [] 0 [] none)
      [.addTable 5, .addEntry sampleEntry, .deleteTable 5] _ :=
    .cons trivial rfl (.cons trivial rfl (.cons trivial rfl (.nil _)))
  refine ⟨listDriver_lawful, _, _, run, ?_, ?_, .cons trivial rfl (.cons trivial rfl (.nil _)), ?_, ?_⟩
  · decide
  · exact fun agrees => absurd (agrees.noTable (by decide)) (by decide)
  · decide
  · decide

end Hima.Ipacm
