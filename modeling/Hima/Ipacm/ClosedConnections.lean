import Hima.Ipacm.CacheSet
import Hima.Ipacm.ConntrackListener

/-!
# Closed connections

Where a message goes is decided from the interfaces and the WAN at that time: into the cache,
into the temp table or nowhere. A connection that was put into one table is looked for there when
it closes, if it was put where its closing message would have looked and no event in between
changes how that message is read.
-/
namespace Hima.Ipacm

open Slots Runs ConntrackListener NatTableEntry

variable {σ : Type} {nat : NatDriver σ} {s s' : NatApp σ} {l l' : ConntrackListener σ}

/-- One of the two tables has the connection. -/
def Knows (s : NatApp σ) (c : Connection) : Prop :=
  c ∈ held s.cache ∨ c ∈ s.temp.map connection

instance (s : NatApp σ) (c : Connection) : Decidable (Knows s c) :=
  inferInstanceAs (Decidable (_ ∨ _))

/-! ### What a call does to the tables -/

/-- The rule that a call brings into a table. -/
def NatAppOp.adds? : NatAppOp → Option NatTableEntry
  | .addEntry rule | .cacheEntry _ rule => some rule
  | .addTempEntry newEntry => some newEntry
  | _ => none

/-- Entries of the temp table were cleared, and nothing else. -/
def Cleared (t t' : List NatTableEntry) : Prop := List.Forall₂ (fun e e' => e' = e ∨ e' = {}) t t'

theorem Cleared.refl (t : List NatTableEntry) : Cleared t t := List.forall₂_same.mpr fun _ _ => Or.inl rfl

theorem cleared_setFirst (p : NatTableEntry → Bool) (t : List NatTableEntry) : Cleared t (setFirst p {} t) := by
  induction t with
  | nil => exact .nil
  | cons e t ih =>
    rw [setFirst_cons]
    split
    · exact .cons (Or.inr rfl) (Cleared.refl t)
    · exact .cons (Or.inl rfl) ih

/-- The connections of a list that wait in the temp table, each as often as it waits. -/
def waiting (cs : List Connection) (t : List NatTableEntry) : List Connection :=
  (t.map connection).filter (· ∈ cs)

variable {cs : List Connection} {c : Connection}

theorem mem_waiting {t : List NatTableEntry} :
    c ∈ waiting cs t ↔ c ∈ cs ∧ c ∈ t.map connection := by
  rw [waiting, List.mem_filter, decide_eq_true_iff, and_comm]

theorem waiting_append (t t' : List NatTableEntry) : waiting cs (t ++ t') = waiting cs t ++ waiting cs t' := by
  simp [waiting]

theorem waiting_cons_mem {e : NatTableEntry} (mine : e.connection ∈ cs) (t : List NatTableEntry) :
    waiting cs (e :: t) = e.connection :: waiting cs t := by
  simp [waiting, mine]

theorem waiting_cons_notMem {e : NatTableEntry} (other : e.connection ∉ cs) (t : List NatTableEntry) :
    waiting cs (e :: t) = waiting cs t := by
  simp [waiting, other]

theorem waiting_cons_le (e : NatTableEntry) (t : List NatTableEntry) :
    (waiting cs t).Sublist (waiting cs (e :: t)) := by
  by_cases mine : e.connection ∈ cs
  · rw [waiting_cons_mem mine]
    exact List.sublist_cons_self _ _
  · rw [waiting_cons_notMem mine]

theorem waiting_cons_mono (e : NatTableEntry) {t t' : List NatTableEntry}
    (sub : (waiting cs t').Sublist (waiting cs t)) : (waiting cs (e :: t')).Sublist (waiting cs (e :: t)) := by
  by_cases mine : e.connection ∈ cs
  · rw [waiting_cons_mem mine, waiting_cons_mem mine]
    exact sub.cons_cons _
  · rwa [waiting_cons_notMem mine, waiting_cons_notMem mine]

theorem Cleared.waiting (nonzero : ({} : Connection) ∉ cs) {t t' : List NatTableEntry} (cleared : Cleared t t') :
    (Ipacm.waiting cs t').Sublist (Ipacm.waiting cs t) := by
  induction cleared with
  | nil => exact List.Sublist.refl []
  | @cons e e' t t' kept _ ih =>
    rcases kept with rfl | rfl
    · exact waiting_cons_mono _ ih
    · rw [waiting_cons_notMem nonzero]
      exact ih.trans (waiting_cons_le e t)

/-- A slot that takes another rule no longer has what was in it. -/
theorem waiting_setFirst {p : NatTableEntry → Bool} {new : NatTableEntry} (other : new.connection ∉ cs)
    (t : List NatTableEntry) : (waiting cs (setFirst p new t)).Sublist (waiting cs t) := by
  induction t with
  | nil => exact List.Sublist.refl []
  | cons e t ih =>
    rw [setFirst_cons]
    split
    · rw [waiting_cons_notMem other]
      exact waiting_cons_le e t
    · exact waiting_cons_mono e ih

/-- A rule that is put into a table that has none of the connections. -/
theorem waiting_setFirst_new {p : NatTableEntry → Bool} {new : NatTableEntry} {t : List NatTableEntry}
    (none : waiting cs t = []) : (waiting cs (setFirst p new t)).Sublist [new.connection] := by
  induction t with
  | nil => exact List.nil_sublist _
  | cons e t ih =>
    have other : e.connection ∉ cs := fun mine => by simp [waiting_cons_mem mine] at none
    rw [waiting_cons_notMem other] at none
    rw [setFirst_cons]
    split
    · by_cases mine : new.connection ∈ cs
      · rw [waiting_cons_mem mine, none]
      · rw [waiting_cons_notMem mine, none]
        exact List.nil_sublist _
    · rw [waiting_cons_notMem other]
      exact ih none

theorem NatApp.ClientResult.temp {op : NatAppOp} (result : ClientResult nat s op s') :
    s'.temp = s.temp := by
  cases result <;> rfl

theorem NatApp.addTable_temp (nat : NatDriver σ) (s : NatApp σ) (pubIp : UInt32) :
    (s.addTable nat pubIp).2.temp = s.temp := by
  have result := NatApp.addTable_cases nat s pubIp
  generalize (s.addTable nat pubIp).2 = s' at result ⊢
  cases result <;> rfl

theorem NatApp.deleteTable_temp (nat : NatDriver σ) (s : NatApp σ) (pubIp : UInt32) :
    (s.deleteTable nat pubIp).2.temp = s.temp := by
  have result := NatApp.deleteTable_cases nat s pubIp
  generalize (s.deleteTable nat pubIp).2 = s' at result ⊢
  cases result <;> rfl

/-- Only `AddTempEntry` writes a rule into the temp table. -/
theorem natAppStep_temp {op : NatAppOp} (stepped : natAppStep nat s op = some s') :
    (∃ e, op = .addTempEntry e) ∨ Cleared s.temp s'.temp := by
  have same : s'.temp = s.temp → (∃ e, op = .addTempEntry e) ∨ Cleared s.temp s'.temp :=
    fun temp => Or.inr (temp ▸ Cleared.refl s.temp)
  cases op with
  | addTable pubIp =>
    cases stepped
    exact same (NatApp.addTable_temp nat s pubIp)
  | deleteTable pubIp =>
    cases stepped
    exact same (NatApp.deleteTable_temp nat s pubIp)
  | addEntry rule =>
    cases stepped
    exact same (NatApp.addEntry_setting nat s rule).temp
  | deleteEntry rule =>
    cases stepped
    exact same (NatApp.deleteEntry_setting nat s rule).temp
  | cacheEntry cnt rule => exact same (NatApp.cacheEntry_setting stepped).temp
  | updatePwrSaveIf ip =>
    cases stepped
    exact same (NatApp.updatePwrSaveIf_cases nat s ip).temp
  | resetPwrSaveIf ip =>
    cases stepped
    exact same (NatApp.resetPwrSaveIf_cases nat s ip).temp
  | delEntriesOnClntDiscon ip =>
    cases stepped
    exact same (NatApp.delEntriesOnClntDiscon_cases nat s ip).temp
  | delEntriesOnSTAClntDiscon ip =>
    cases stepped
    exact same (NatApp.delEntriesOnSTAClntDiscon_cases nat s ip).temp
  | addTempEntry e => exact Or.inl ⟨e, rfl⟩
  | deleteTempEntry e =>
    cases stepped
    exact Or.inr (cleared_setFirst _ _)
  | flushTempEntries ip isAdd =>
    cases stepped
    obtain ⟨a, _, _, temp, eq, slots⟩ := NatApp.flushTempEntries_adds nat s (fun _ => True) ip
      isAdd (fun _ _ _ _ _ _ _ => trivial) trivial
    rw [eq]
    exact Or.inr slots

/-- Of these connections the tables have no more than before. One may have left the temp table for the
cache, if it has an end among `passed`. -/
structure Shrinks (cs : List Connection) (passed : List UInt32) (s s' : NatApp σ) : Prop where
  waiting : (Ipacm.waiting cs s'.temp).Sublist (Ipacm.waiting cs s.temp)
  held : ∀ c ∈ cs, c ∈ Ipacm.held s'.cache → c ∈ Ipacm.held s.cache ∨
    c ∈ Ipacm.waiting cs s.temp ∧ ∃ ip ∈ passed, ip ≠ 0 ∧ (c.privateIp = ip ∨ c.targetIp = ip)

variable {passed : List UInt32}

theorem Shrinks.refl (s : NatApp σ) : Shrinks cs passed s s := ⟨List.Sublist.refl _, fun _ _ => Or.inl⟩

theorem Shrinks.trans {s'' : NatApp σ} (first : Shrinks cs passed s s') (second : Shrinks cs passed s' s'') :
    Shrinks cs passed s s'' where
  waiting := second.waiting.trans first.waiting
  held c member cached := by
    rcases second.held c member cached with before | ⟨waits, ends⟩
    · exact first.held c member before
    · exact Or.inr ⟨first.waiting.subset waits, ends⟩

theorem natAppStep_shrinks {op : NatAppOp} (nonzero : ({} : Connection) ∉ cs)
    (stepped : natAppStep nat s op = some s') (other : ∀ rule, op.adds? = some rule → rule.connection ∉ cs)
    (passes : ∀ ip, op = .flushTempEntries ip true → ip ≠ 0 ∧ ip ∈ passed) : Shrinks cs passed s s' where
  waiting := by
    rcases natAppStep_temp stepped with ⟨e, rfl⟩ | cleared
    · cases stepped
      exact waiting_setFirst (other e rfl) s.temp
    · exact cleared.waiting nonzero
  held c member cached := by
    cases natAppStep_held stepped cached with
    | cache old => exact Or.inl old
    | added same _ => exact absurd (same ▸ member) (other _ rfl)
    | parked same => exact absurd (same ▸ member) (other _ rfl)
    | flushed waits _ here =>
      obtain ⟨e, slot, same⟩ := waits
      obtain ⟨set, there⟩ := passes _ rfl
      exact Or.inr ⟨mem_waiting.mpr ⟨member, List.mem_map.mpr ⟨e, slot, same⟩⟩, _, there, set, here⟩

/-! ### Events are runs of calls -/

/-- The message opens the connection of its rule. -/
def Opens (m : CtMessage) (rule : NatTableEntry) : Prop :=
  rule.protocol = ipprotoTcp ∧ m.tcpState = tcpConntrackEstablished ∨
    rule.protocol = ipprotoUdp ∧ m.type = .new

instance (m : CtMessage) (rule : NatTableEntry) : Decidable (Opens m rule) :=
  inferInstanceAs (Decidable (_ ∨ _))

/-- What a call is made for: a rule is added for a message that opens its connection, and entries are
passed on for an address that is one of a NAT interface afterwards. -/
structure CalledFor (l l' : ConntrackListener σ) (ev : CtEvent) (op : NatAppOp) : Prop where
  adds : ∀ rule, op.adds? = some rule → ∃ cnt m isTempEntry, ev = .message cnt m ∧
    l.classify m = some (rule, isTempEntry) ∧ Opens m rule
  deletes : ∀ rule, op = .deleteEntry rule → rule.connection ≠ {}
  passes : ∀ ip, op = .flushTempEntries ip true → ip ≠ 0 ∧ ip ∈ l'.natIfaceIpv4Addr

theorem CalledFor.other {ev : CtEvent} {op : NatAppOp} (adds : op.adds? = none)
    (deletes : ∀ rule, op ≠ .deleteEntry rule) (passes : ∀ ip, op ≠ .flushTempEntries ip true) :
    CalledFor l l' ev op where
  adds rule about := by
    rw [adds] at about
    cases about
  deletes rule is := absurd is (deletes rule)
  passes ip is := absurd is (passes ip)

/-- The calls an event makes. -/
def CallRun (nat : NatDriver σ) (l l' : ConntrackListener σ) (ev : CtEvent) (ops : List NatAppOp) : Prop :=
  Run (natAppStep nat) (fun _ op => CalledFor l l' ev op) l.natInst ops l'.natInst

variable {rule : NatTableEntry}

theorem connection_of_protocol (nonzero : rule.protocol ≠ 0) :
    rule.connection ≠ {} :=
  fun empty => nonzero (congrArg Connection.protocol empty)

variable {m : CtMessage} {cnt : Int}

theorem processTCPorUDPMsg_cases (returned : l.processTCPorUDPMsg nat cnt m = some s) :
    s = l.natInst ∨ ∃ rule isTempEntry, l.classify m = some (rule, isTempEntry) ∧ rule.connection ≠ {} ∧
      (Opens m rule ∧ l.addConnection nat cnt rule isTempEntry = some s ∨
        ¬Opens m rule ∧ s = l.deleteConnection nat rule isTempEntry) := by
  unfold processTCPorUDPMsg at returned
  cases classified : l.classify m with
  | none =>
    rw [classified] at returned
    exact Or.inl (Option.some.inj returned).symm
  | some found =>
    obtain ⟨rule, isTempEntry⟩ := found
    simp only [classified] at returned
    split at returned
    next tcp =>
      have occupied : rule.connection ≠ {} := connection_of_protocol (by rw [tcp]; decide)
      split at returned
      next opened => exact Or.inr ⟨rule, isTempEntry, rfl, occupied, Or.inl ⟨Or.inl ⟨tcp, opened⟩, returned⟩⟩
      next opened =>
        split at returned
        · refine Or.inr ⟨rule, isTempEntry, rfl, occupied, Or.inr ⟨?_, (Option.some.inj returned).symm⟩⟩
          simp [Opens, tcp, opened, ipprotoTcp, ipprotoUdp]
        · exact Or.inl (Option.some.inj returned).symm
    next tcp =>
      split at returned
      next udp =>
        have occupied : rule.connection ≠ {} := connection_of_protocol (by rw [udp]; decide)
        split at returned
        next new => exact Or.inr ⟨rule, isTempEntry, rfl, occupied, Or.inl ⟨Or.inr ⟨udp, new⟩, returned⟩⟩
        next destroyed =>
          refine Or.inr ⟨rule, isTempEntry, rfl, occupied, Or.inr ⟨?_, (Option.some.inj returned).symm⟩⟩
          simp [Opens, tcp, destroyed]
        next => exact Or.inl (Option.some.inj returned).symm
      next => exact Or.inl (Option.some.inj returned).symm

variable {isTempEntry : Bool}

/-- A new connection is one call. -/
theorem addConnection_call (returned : l.addConnection nat cnt rule isTempEntry = some s) :
    ∃ op, natAppStep nat l.natInst op = some s ∧ ((l.wanUp && isTempEntry) = true ∧ op = .addTempEntry rule ∨
        (l.wanUp && isTempEntry) = false ∧ (op = .addEntry rule ∨ op = .cacheEntry cnt rule)) := by
  unfold addConnection at returned
  split at returned
  next down => exact ⟨.cacheEntry cnt rule, returned, Or.inr ⟨by rw [down, Bool.false_and], Or.inr rfl⟩⟩
  next up =>
    rw [Bool.not_eq_false] at up
    split at returned
    next temp => exact ⟨.addTempEntry rule, returned, Or.inl ⟨by rw [up, temp, Bool.true_and], rfl⟩⟩
    next temp =>
      rw [Bool.not_eq_true] at temp
      exact ⟨.addEntry rule, returned, Or.inr ⟨by rw [temp, Bool.and_false], Or.inl rfl⟩⟩

theorem message_calls (returned : l.processTCPorUDPMsg nat cnt m = some s) :
    ∃ ops, CallRun nat l { l with natInst := s } (.message cnt m) ops := by
  rcases processTCPorUDPMsg_cases returned with rfl | ⟨rule, isTempEntry, classified, occupied, acts⟩
  · exact ⟨[], .nil _⟩
  · rcases acts with ⟨opens, added⟩ | ⟨-, rfl⟩
    · obtain ⟨op, stepped, which⟩ := addConnection_call added
      refine ⟨[op], .cons ⟨fun rule' about => ?_, ?_, ?_⟩ stepped (.nil _)⟩
      · have itself : rule' = rule := by
          rcases which with ⟨-, rfl⟩ | ⟨-, rfl | rfl⟩ <;> exact (Option.some.inj about).symm
        subst itself
        exact ⟨cnt, m, isTempEntry, rfl, classified, opens⟩
      · rcases which with ⟨-, rfl⟩ | ⟨-, rfl | rfl⟩ <;> exact nofun
      · rcases which with ⟨-, rfl⟩ | ⟨-, rfl | rfl⟩ <;> exact nofun
    · unfold deleteConnection
      split
      · exact ⟨[.deleteTempEntry rule], .cons (.other rfl nofun nofun) rfl (.nil _)⟩
      · refine ⟨[.deleteEntry rule], .cons ⟨nofun, fun rule' is => ?_, nofun⟩ rfl (.nil _)⟩
        obtain rfl := NatAppOp.deleteEntry.inj is
        exact occupied

theorem addNonnatIfaceAddr_calls (ev : CtEvent) (ip : UInt32) :
    ∃ ops, CallRun nat l (l.addNonnatIfaceAddr nat ip) ev ops := by
  unfold addNonnatIfaceAddr
  split
  · exact ⟨[.flushTempEntries ip false], .cons (.other rfl nofun nofun) rfl (.nil _)⟩
  · exact ⟨[], .nil _⟩

theorem handleNeighIpAddrAddEvt_calls (ev : CtEvent) (ip : UInt32) (ifName : Option String) :
    ∃ ops, CallRun nat l (l.handleNeighIpAddrAddEvt nat ip ifName) ev ops := by
  unfold handleNeighIpAddrAddEvt
  split
  · exact ⟨[], .nil _⟩
  next set =>
    cases ifName with
    | none => exact ⟨[], .nil _⟩
    | some name =>
      dsimp only
      split
      · unfold addNatIfaceAddr
        cases found : l.natIfaceIpv4Addr.find? fun addr => addr = ip ∨ addr = 0 with
        | none => exact addNonnatIfaceAddr_calls ev ip
        | some addr =>
          by_cases there : addr = ip
          · simp only [there, if_true]
            exact ⟨[], .nil _⟩
          · simp only [there, if_false]
            refine ⟨[.resetPwrSaveIf ip, .flushTempEntries ip true], .cons (.other rfl nofun nofun) rfl
              (.cons ⟨nofun, nofun, fun ip' is => ?_⟩ rfl (.nil _))⟩
            obtain ⟨rfl, -⟩ := NatAppOp.flushTempEntries.inj is
            exact ⟨fun zero => set (Or.inl zero),
              mem_setFirst_new ⟨addr, List.mem_of_find?_eq_some found, List.find?_some found⟩ ip⟩
      · exact addNonnatIfaceAddr_calls ev ip

/-- Every event of the listener is a run of calls of `NatApp`. -/
theorem ctStep_calls {ev : CtEvent} (stepped : ctStep nat l ev = some l') :
    ∃ ops, CallRun nat l l' ev ops := by
  have nothing : ∃ ops, CallRun nat l l ev ops := ⟨[], .nil _⟩
  -- a message makes one call at most, the other events at most two
  cases ev with
  | message cnt m =>
    rcases ctStep_message_cases stepped with ⟨-, rfl⟩ | ⟨-, s, returned, rfl⟩
    · exact nothing
    · exact message_calls returned
  | neighIpAddrAdd ip ifName =>
    cases stepped
    exact handleNeighIpAddrAddEvt_calls _ ip ifName
  | neighIpAddrDel ip =>
    cases stepped
    unfold handleNeighIpAddrDelEvt
    split
    · exact nothing
    · exact ⟨[.flushTempEntries ip false, .delEntriesOnClntDiscon ip],
        .cons (.other rfl nofun nofun) rfl (.cons (.other rfl nofun nofun) rfl (.nil _))⟩
  | wanUp ip isSta =>
    cases stepped
    unfold handleWanUp
    split
    · exact nothing
    · split
      · exact nothing
      · exact ⟨[.addTable ip], .cons (.other rfl nofun nofun) rfl (.nil _)⟩
  | wanDown ip =>
    cases stepped
    unfold handleWanDown
    split
    · exact nothing
    · exact ⟨[.deleteTable ip], .cons (.other rfl nofun nofun) rfl (.nil _)⟩
  | staClientAdd ip =>
    cases stepped
    unfold handleSTAClientAddEvt
    split
    · exact nothing
    · dsimp only
      split
      · exact nothing
      · split
        · exact nothing
        · exact ⟨[], .nil _⟩
  | staClientDel ip =>
    cases stepped
    unfold handleSTAClientDelEvt
    split
    · exact ⟨[.delEntriesOnSTAClntDiscon ip], .cons (.other rfl nofun nofun) rfl (.nil _)⟩
    · exact nothing
  | pwrSave ip =>
    cases stepped
    exact ⟨[.updatePwrSaveIf ip], .cons (.other rfl nofun nofun) rfl (.nil _)⟩
  | pwrReset ip =>
    cases stepped
    exact ⟨[.resetPwrSaveIf ip], .cons (.other rfl nofun nofun) rfl (.nil _)⟩
  | config config =>
    cases stepped
    exact ⟨[], .nil _⟩

/-- The cache stays a set through every event. -/
theorem ctStep_setOk {ev : CtEvent} (ok : SetOk l.natInst.cache l.natInst.curCnt)
    (stepped : ctStep nat l ev = some l') : SetOk l'.natInst.cache l'.natInst.curCnt := by
  obtain ⟨ops, run⟩ := ctStep_calls stepped
  exact run.invariant (fun s => SetOk s.cache s.curCnt)
    (fun s op s' ok called stepped => natAppStep_setOk ok called.deletes stepped) ok

/-- An event that opens none of these connections. -/
theorem ctStep_shrinks {ev : CtEvent} (nonzero : ({} : Connection) ∉ cs) (stepped : ctStep nat l ev = some l')
    (other : ∀ cnt m rule isTempEntry, ev = .message cnt m → l.classify m = some (rule, isTempEntry) →
      Opens m rule → rule.connection ∉ cs) :
    Shrinks cs l'.natIfaceIpv4Addr l.natInst l'.natInst := by
  obtain ⟨ops, run⟩ := ctStep_calls stepped
  refine run.invariant (Shrinks cs l'.natIfaceIpv4Addr l.natInst) (fun s op s' shrinks called stepped => ?_)
    (.refl _)
  refine shrinks.trans (natAppStep_shrinks nonzero stepped (fun rule about => ?_) called.passes)
  obtain ⟨cnt, m, isTempEntry, is, classified, opens⟩ := called.adds rule about
  exact other cnt m rule isTempEntry is classified opens

/-! ### The connection of a message -/

/-- The connections a message can stand for. Which of them it is depends on the WAN address:
that of the device itself is entered with its public port, and without NAT flags the direction
comes from it. -/
def CtMessage.tuples (m : CtMessage) : List Connection :=
  match m.natStatus with
  | .dstNat => [m.dstNatRule.connection, m.dstNatRule.embedded.connection]
  | .srcNat => [m.srcNatRule.connection, m.srcNatRule.embedded.connection]
  | .neither =>
    [m.srcNatRule.connection, m.srcNatRule.embedded.connection, m.dstNatRule.connection,
      m.dstNatRule.embedded.connection]

theorem tuples_protocol {c : Connection} (member : c ∈ m.tuples) :
    c.protocol = m.replL4proto := by
  unfold CtMessage.tuples at member
  split at member
  all_goals
    simp only [List.mem_cons, List.not_mem_nil, or_false] at member
    rcases member with rfl | rfl | rfl | rfl <;> rfl

theorem parseRule_tuples (parsed : l.parseRule m = some rule) :
    rule.connection ∈ m.tuples ∧ rule.embedded.connection ∈ m.tuples := by
  unfold parseRule at parsed
  unfold CtMessage.tuples
  cases status : m.natStatus with
  | dstNat =>
    simp only [status, Option.some.injEq] at parsed
    subst parsed
    simp
  | srcNat =>
    simp only [status, Option.some.injEq] at parsed
    subst parsed
    simp
  | neither =>
    simp only [status] at parsed
    split at parsed
    · cases parsed
    · split at parsed
      · cases parsed
      · split at parsed
        · cases parsed
          simp [connection, embedded]
        · split at parsed
          · cases parsed
            simp [connection, embedded]
          · cases parsed

theorem classify_some :
    l.classify m = some (rule, isTempEntry) ↔ ∃ parsed, l.parseRule m = some parsed ∧
      l.matchIface parsed = some (rule, isTempEntry) ∧ l.acceptsTarget rule = true := by
  unfold classify
  cases l.parseRule m with
  | none => simp
  | some parsed => cases matched : l.matchIface parsed <;> grind

/-- The rule of a message is the parsed one, with its port replaced for the device itself. -/
theorem matchIface_rule {parsed rule : NatTableEntry}
    (matched : l.matchIface parsed = some (rule, isTempEntry)) : rule = parsed ∨ rule = parsed.embedded := by
  unfold matchIface at matched
  grind

theorem matchIface_temp {parsed rule : NatTableEntry} (matched : l.matchIface parsed = some (rule, true)) :
    l.matchesNatIface parsed = false ∧ rule = parsed := by
  unfold matchIface at matched
  grind

theorem classify_tuples
    (classified : l.classify m = some (rule, isTempEntry)) : rule.connection ∈ m.tuples := by
  obtain ⟨parsed, parse, matched, -⟩ := classify_some.mp classified
  rcases matchIface_rule matched with rfl | rfl
  · exact (parseRule_tuples parse).1
  · exact (parseRule_tuples parse).2

/-- A message that ends its connection: it is destroyed, or a TCP connection is in FIN_WAIT. -/
def CtMessage.Closes (m : CtMessage) : Prop :=
  (m.origL4proto = ipprotoUdp ∨ m.origL4proto = ipprotoTcp) ∧
    ((m.replL4proto = ipprotoTcp ∧ (m.tcpState = tcpConntrackFinWait ∨ m.type = .destroy)) ∨
      (m.replL4proto = ipprotoUdp ∧ m.type = .destroy))

instance (m : CtMessage) : Decidable m.Closes := inferInstanceAs (Decidable (_ ∧ _))

/-- The message says that a TCP connection is established. -/
def CtMessage.Established (m : CtMessage) : Prop :=
  m.replL4proto = ipprotoTcp ∧ m.tcpState = tcpConntrackEstablished

instance (m : CtMessage) : Decidable m.Established := inferInstanceAs (Decidable (_ ∧ _))

/-- Neither table has a connection the message stands for. -/
def Forgotten (s : NatApp σ) (m : CtMessage) : Prop := ∀ c ∈ m.tuples, ¬Knows s c

instance (s : NatApp σ) (m : CtMessage) : Decidable (Forgotten s m) :=
  inferInstanceAs (Decidable (∀ _ ∈ _, _))

theorem CtMessage.Closes.nonzero (closes : m.Closes) : ({} : Connection) ∉ m.tuples := by
  intro member
  have zero := tuples_protocol member
  rcases closes.2 with ⟨tcp, _⟩ | ⟨udp, _⟩
  · rw [tcp] at zero
    cases zero
  · rw [udp] at zero
    cases zero

/-! ### Where a closing message looks -/

/-- What a message is read as: its connection, and whether it goes to the temp table. -/
def ConntrackListener.place (l : ConntrackListener σ) (m : CtMessage) : Option (Connection × Bool) :=
  (l.classify m).map fun found => (found.1.connection, found.2)

/-- A message that is read so would find what the tables have of these connections: it is in the one
table, as the connection of the message and once. -/
def InPlace (s : NatApp σ) (cs : List Connection) : Option (Connection × Bool) → Prop
  | none => ∀ c ∈ cs, ¬Knows s c
  | some (c, true) => (∀ c' ∈ cs, c' ∉ held s.cache) ∧ (waiting cs s.temp).Sublist [c]
  | some (c, false) => waiting cs s.temp = [] ∧ ∀ c' ∈ cs, c' ∈ held s.cache → c' = c

theorem knows_none_iff : (∀ c ∈ cs, ¬Knows s c) ↔ (∀ c ∈ cs, c ∉ held s.cache) ∧ waiting cs s.temp = [] := by
  rw [List.eq_nil_iff_forall_not_mem]
  simp only [Knows, not_or, mem_waiting, not_and]
  exact ⟨fun none => ⟨fun c member => (none c member).1, fun c member => (none c member).2⟩,
    fun none c member => ⟨none.1 c member, none.2 c member⟩⟩

theorem InPlace.of_none (none : ∀ c ∈ cs, ¬Knows s c) : ∀ place, InPlace s cs place
  | .none => none
  | some (_, true) => ⟨(knows_none_iff.mp none).1, (knows_none_iff.mp none).2 ▸ List.nil_sublist _⟩
  | some (_, false) => ⟨(knows_none_iff.mp none).2, fun c' member cached =>
      absurd cached ((knows_none_iff.mp none).1 c' member)⟩

/-- What is in place stays so when the tables shrink, unless it is passed on. -/
theorem InPlace.shrinks {place : Option (Connection × Bool)} (inPlace : InPlace s cs place)
    (shrinks : Shrinks cs passed s s') (apart : ∀ c, place = some (c, true) → ∀ ip ∈ passed, ip ≠ 0 →
      c.privateIp ≠ ip ∧ c.targetIp ≠ ip) : InPlace s' cs place := by
  rcases place with _ | ⟨c, _ | _⟩
  · obtain ⟨cached, waits⟩ := knows_none_iff.mp inPlace
    refine knows_none_iff.mpr ⟨fun c member still => ?_, List.sublist_nil.mp (waits ▸ shrinks.waiting)⟩
    rcases shrinks.held c member still with before | ⟨there, -⟩
    · exact cached c member before
    · exact List.not_mem_nil (waits ▸ there)
  · obtain ⟨waits, cached⟩ := inPlace
    refine ⟨List.sublist_nil.mp (waits ▸ shrinks.waiting), fun c' member still => ?_⟩
    rcases shrinks.held c' member still with before | ⟨there, -⟩
    · exact cached c' member before
    · exact absurd (waits ▸ there) List.not_mem_nil
  · obtain ⟨cached, waits⟩ := inPlace
    refine ⟨fun c' member still => ?_, shrinks.waiting.trans waits⟩
    rcases shrinks.held c' member still with before | ⟨there, ip, passes, set, ends⟩
    · exact cached c' member before
    · obtain rfl := List.mem_singleton.mp (waits.subset there)
      obtain ⟨privateIp, targetIp⟩ := apart c' rfl ip passes set
      exact ends.elim privateIp targetIp

theorem Forgotten.shrinks (forgotten : Forgotten s m) (shrinks : Shrinks m.tuples passed s s') : Forgotten s' m :=
  have before : InPlace s m.tuples none := forgotten
  before.shrinks shrinks fun _ => nofun

/-! ### How a message is read -/

/-- A message goes to the temp table while none of its ends is an address of a NAT interface. -/
theorem place_temp (placed : l.place m = some (c, true)) :
    ∀ ip ∈ l.natIfaceIpv4Addr, ip ≠ 0 → c.privateIp ≠ ip ∧ c.targetIp ≠ ip := by
  intro ip there set
  obtain ⟨⟨rule, isTempEntry⟩, classified, same⟩ := Option.map_eq_some_iff.mp placed
  obtain ⟨rfl, rfl⟩ := Prod.mk.inj same
  obtain ⟨parsed, -, matched, -⟩ := classify_some.mp classified
  obtain ⟨apart, rfl⟩ := matchIface_temp matched
  simp only [matchesNatIface, List.any_eq_false, decide_eq_true_eq, not_and, not_or] at apart
  exact apart ip there set

/-- An address that comes leaves the addresses of the NAT interfaces as they are, or is one more. -/
theorem handleNeighIpAddrAddEvt_keeps (ip : UInt32) (ifName : Option String) :
    ∃ nats nonnats natInst, l.handleNeighIpAddrAddEvt nat ip ifName =
        { l with natIfaceIpv4Addr := nats, nonnatIfaceIpv4Addr := nonnats, natInst := natInst } ∧
      ∀ addr ≠ 0, addr ∈ l.natIfaceIpv4Addr → addr ∈ nats := by
  have keeps : ∀ l' : ConntrackListener σ, ∃ nats nonnats natInst, l'.addNonnatIfaceAddr nat ip =
      { l' with natIfaceIpv4Addr := nats, nonnatIfaceIpv4Addr := nonnats, natInst := natInst } ∧
      ∀ addr ≠ 0, addr ∈ l'.natIfaceIpv4Addr → addr ∈ nats := by
    intro l'
    unfold addNonnatIfaceAddr
    split
    · exact ⟨_, _, _, rfl, fun _ _ => id⟩
    · exact ⟨_, _, _, rfl, fun _ _ => id⟩
  unfold handleNeighIpAddrAddEvt
  split
  · exact ⟨_, _, _, rfl, fun _ _ => id⟩
  · cases ifName with
    | none => exact ⟨_, _, _, rfl, fun _ _ => id⟩
    | some name =>
      dsimp only
      split
      · unfold addNatIfaceAddr
        cases found : l.natIfaceIpv4Addr.find? fun addr => addr = ip ∨ addr = 0 with
        | none => exact keeps l
        | some addr =>
          by_cases there : addr = ip
          · simp only [there, if_true]
            exact ⟨_, _, _, rfl, fun _ _ => id⟩
          · simp only [there, if_false]
            refine ⟨_, _, _, rfl, fun addr' set old => ?_⟩
            by_cases same : addr' = ip
            · exact same ▸ mem_setFirst_new ⟨addr, List.mem_of_find?_eq_some found, List.find?_some found⟩ ip
            · exact mem_setFirst_other old (by simp [same, set]) ip
      · exact keeps l

/-- With it, a message that was not ignored is read as before, or no longer goes to the temp table. -/
theorem place_added {ip : UInt32} {ifName : Option String}
    (placed : l.place m = some (c, isTempEntry)) (stepped : ctStep nat l (.neighIpAddrAdd ip ifName) = some l') :
    l'.place m = l.place m ∨ l'.place m = some (c, false) := by
  obtain ⟨nats, nonnats, natInst, same, more⟩ := @handleNeighIpAddrAddEvt_keeps _ nat l ip ifName
  obtain rfl : _ = l' := same.symm.trans (Option.some.inj stepped)
  rw [placed]
  obtain ⟨⟨rule, isTemp⟩, classified, same⟩ := Option.map_eq_some_iff.mp placed
  obtain ⟨rfl, rfl⟩ := Prod.mk.inj same
  obtain ⟨parsed, parse, matched, accepts⟩ := classify_some.mp classified
  let next : ConntrackListener σ :=
    { l with natIfaceIpv4Addr := nats, nonnatIfaceIpv4Addr := nonnats, natInst := natInst }
  have still : l.matchesNatIface parsed = true → next.matchesNatIface parsed = true := by
    simp only [matchesNatIface, List.any_eq_true, decide_eq_true_eq]
    rintro ⟨addr, there, set, ends⟩
    exact ⟨addr, more addr set there, set, ends⟩
  have matched' : next.matchIface parsed = some (rule, isTemp) ∨ next.matchIface parsed = some (rule, false) := by
    unfold matchIface at matched ⊢
    grind
  refine matched'.imp (fun matched' => ?_) (fun matched' => ?_)
  · exact Option.map_eq_some_iff.mpr ⟨_, classify_some.mpr ⟨parsed, parse, matched', accepts⟩, rfl⟩
  · exact Option.map_eq_some_iff.mpr ⟨_, classify_some.mpr ⟨parsed, parse, matched', accepts⟩, rfl⟩

/-! ### Events before a closing message -/

/-- What is asked of an event for the sake of a closing message: a message that opens the connection
puts it where the closing message, if it came now, would look for it, and does not park it twice;
no other event changes how the closing message is read while a table has the connection, but an
address may come for which the entry leaves the temp table, and an STA client may leave with it. -/
def Stays (m : CtMessage) (l l' : ConntrackListener σ) : CtEvent → Prop
  | .message _ m' => ∀ found ∈ l.classify m', Opens m' found.1 → found.1.connection ∈ m.tuples →
      l.place m = some (found.1.connection, l.wanUp && found.2) ∧
        ((l.wanUp && found.2) = true → waiting m.tuples l.natInst.temp = [])
  | .neighIpAddrAdd _ _ => l'.place m = l.place m ∨ waiting m.tuples l'.natInst.temp = []
  | .staClientDel _ => l'.place m = l.place m ∨ Forgotten l'.natInst m
  | _ => l'.place m = l.place m ∨ Forgotten l.natInst m

def Steady (nat : NatDriver σ) (m : CtMessage) (l : ConntrackListener σ) (ev : CtEvent) : Prop :=
  ∀ l' ∈ ctStep nat l ev, Stays m l l' ev

instance (m : CtMessage) (l l' : ConntrackListener σ) : (ev : CtEvent) → Decidable (Stays m l l' ev)
  | .message _ m' => inferInstanceAs (Decidable (∀ found ∈ l.classify m', _ → _ → _ ∧ _))
  | .neighIpAddrAdd _ _ => inferInstanceAs (Decidable (_ ∨ waiting m.tuples l'.natInst.temp = []))
  | .staClientDel _ => inferInstanceAs (Decidable (_ ∨ Forgotten l'.natInst m))
  | .neighIpAddrDel _ | .wanUp _ _ | .wanDown _ | .staClientAdd _ | .pwrSave _ | .pwrReset _ | .config _ =>
    inferInstanceAs (Decidable (_ ∨ Forgotten l.natInst m))

instance (m : CtMessage) (l : ConntrackListener σ) (ev : CtEvent) : Decidable (Steady nat m l ev) :=
  inferInstanceAs (Decidable (∀ l' ∈ ctStep nat l ev, Stays m l l' ev))

/-- A message that opens the connection of the closing message, from where its entry goes. -/
theorem opened_inPlace (inPlace : InPlace l.natInst cs (some (rule.connection, l.wanUp && isTempEntry)))
    (once : (l.wanUp && isTempEntry) = true → waiting cs l.natInst.temp = [])
    (added : l.addConnection nat cnt rule isTempEntry = some s) :
    InPlace s cs (some (rule.connection, l.wanUp && isTempEntry)) := by
  obtain ⟨op, stepped, ⟨temp, rfl⟩ | ⟨cached, which⟩⟩ := addConnection_call added
  · rw [temp] at inPlace ⊢
    cases stepped
    exact ⟨inPlace.1, waiting_setFirst_new (once temp)⟩
  · rw [cached] at inPlace ⊢
    obtain ⟨waits, only⟩ := inPlace
    have same : s.temp = l.natInst.temp := by
      rcases which with rfl | rfl
      · cases stepped
        exact (NatApp.addEntry_setting nat l.natInst rule).temp
      · exact (NatApp.cacheEntry_setting stepped).temp
    refine ⟨same ▸ waits, fun c member held => ?_⟩
    rcases which with rfl | rfl
    · cases natAppStep_held stepped held with
      | cache old => exact only c member old
      | added same _ => exact same.symm
    · cases natAppStep_held stepped held with
      | cache old => exact only c member old
      | parked same => exact same.symm

/-- A message changes nothing but the tables. -/
theorem message_place {m m' : CtMessage} (stepped : ctStep nat l (.message cnt m') = some l') :
    l'.place m = l.place m := by
  rcases ctStep_message_cases stepped with ⟨-, rfl⟩ | ⟨-, s, -, rfl⟩ <;> rfl

theorem step_inPlace {ev : CtEvent} (nonzero : ({} : Connection) ∉ m.tuples)
    (inPlace : InPlace l.natInst m.tuples (l.place m)) (steady : Steady nat m l ev)
    (stepped : ctStep nat l ev = some l') : InPlace l'.natInst m.tuples (l'.place m) := by
  have stays := steady l' stepped
  by_cases opening : ∃ cnt m' rule isTempEntry, ev = .message cnt m' ∧
      l.classify m' = some (rule, isTempEntry) ∧ Opens m' rule ∧ rule.connection ∈ m.tuples
  · obtain ⟨cnt, m', rule, isTempEntry, rfl, classified, opens, mine⟩ := opening
    obtain ⟨placed, once⟩ := stays (rule, isTempEntry) classified opens mine
    rw [message_place stepped]
    rcases ctStep_message_cases stepped with ⟨-, rfl⟩ | ⟨-, s, returned, rfl⟩
    · exact inPlace
    · rcases processTCPorUDPMsg_cases returned with rfl | ⟨rule', isTemp', classified', -, acts⟩
      · exact inPlace
      · obtain ⟨rfl, rfl⟩ := Prod.mk.inj (Option.some.inj (classified.symm.trans classified'))
        rw [placed] at inPlace ⊢
        exact opened_inPlace inPlace once (acts.resolve_right fun closed => closed.1 opens).2
  · -- nothing new: the tables shrink, and the place moves only with the entry
    have shrinks := ctStep_shrinks nonzero stepped fun cnt m' rule isTempEntry is classified opens mine =>
      opening ⟨cnt, m', rule, isTempEntry, is, classified, opens, mine⟩
    have moved : l'.place m = l.place m ∨ Forgotten l'.natInst m ∨
        (∃ ip ifName, ev = .neighIpAddrAdd ip ifName) ∧ waiting m.tuples l'.natInst.temp = [] := by
      cases ev with
      | message cnt m' => exact Or.inl (message_place stepped)
      | neighIpAddrAdd ip ifName => exact stays.imp_right fun left => Or.inr ⟨⟨ip, ifName, rfl⟩, left⟩
      | staClientDel ip => exact stays.imp_right Or.inl
      | _ => exact stays.imp_right fun before => Or.inl (Forgotten.shrinks before shrinks)
    have unmoved : l'.place m = l.place m → InPlace l'.natInst m.tuples (l'.place m) := by
      intro same
      rw [same]
      exact inPlace.shrinks shrinks fun c placed => place_temp (same.trans placed)
    rcases moved with same | forgotten | ⟨⟨ip, ifName, rfl⟩, left⟩
    · exact unmoved same
    · exact .of_none forgotten _
    · cases placed : l.place m with
      | none =>
        rw [placed] at inPlace
        exact .of_none (Forgotten.shrinks inPlace shrinks) _
      | some found =>
        obtain ⟨c, isTempEntry⟩ := found
        rcases place_added placed stepped with same | placed'
        · exact unmoved same
        · rw [placed] at inPlace
          rw [placed']
          refine ⟨left, fun c' member cached => ?_⟩
          rcases shrinks.held c' member cached with before | ⟨waits, -⟩
          · cases isTempEntry with
            | true => exact absurd before (inPlace.1 c' member)
            | false => exact inPlace.2 c' member before
          · cases isTempEntry with
            | true => exact List.mem_singleton.mp (inPlace.2.subset waits)
            | false => exact absurd (inPlace.1 ▸ waits) List.not_mem_nil

/-! ### Closing -/

theorem waiting_deleted {t : List NatTableEntry} (nonzero : ({} : Connection) ∉ cs)
    (mine : rule.connection ∈ cs) (waits : (waiting cs t).Sublist [rule.connection]) :
    waiting cs (setFirst (matchesRule rule) {} t) = [] := by
  cases found : t.find? (matchesRule rule) with
  | none =>
    rw [setFirst_of_none found]
    refine List.eq_nil_iff_forall_not_mem.mpr fun c member => ?_
    obtain rfl := List.mem_singleton.mp (waits.subset member)
    obtain ⟨e, slot, same⟩ := List.mem_map.mp (mem_waiting.mp member).2
    exact List.find?_eq_none.mp found e slot (matchesRule_iff.mpr same)
  | some slot =>
    -- the first match is cleared, and it is the only one
    obtain ⟨pre, post, rfl, same, _, set⟩ := find?_split found
    have same := matchesRule_iff.mp same
    have short := waits.length_le
    rw [waiting_append, waiting_cons_mem (same ▸ mine), List.length_append, List.length_cons, List.length_singleton]
      at short
    rw [set, waiting_append, waiting_cons_notMem nonzero, List.append_eq_nil_iff]
    constructor <;> apply List.eq_nil_of_length_eq_zero <;> omega

theorem deleteEntry_gone (nat : NatDriver σ) (ok : SetOk s.cache s.curCnt)
    (nonzero : rule.connection ≠ {}) : rule.connection ∉ held (s.deleteEntry nat rule).2.cache := by
  have result := NatApp.deleteEntry_cases nat s rule
  generalize (s.deleteEntry nat rule).2 = s' at result ⊢
  have nodup := ok.nodup
  have gone : ∀ {pre post : List NatTableEntry} {slot : NatTableEntry},
      s.cache = pre ++ slot :: post → slot.connection = rule.connection →
      rule.connection ∉ held (pre ++ {} :: post) := by
    intro pre post slot cache same
    have perm := held_perm pre post (same ▸ nonzero) (show ({} : NatTableEntry).connection = {} from rfl)
    rw [← cache, same] at perm
    exact (List.nodup_cons.mp (perm.nodup_iff.mp nodup)).1
  cases result with
  | absent missing =>
    intro member
    obtain ⟨_, e, slot, same⟩ := mem_held.mp member
    exact missing e slot same
  | cached cache same _ => exact gone cache same
  | deleted cache same _ => exact gone cache same

/-- What the closing message of a connection does. -/
theorem closing_message (closes : m.Closes)
    (taken : m.Established → l.classify m = none) (stepped : ctStep nat l (.message cnt m) = some l') :
    match l.classify m with
    | none => l'.natInst = l.natInst
    | some (rule, isTempEntry) => l'.natInst = l.deleteConnection nat rule isTempEntry := by
  obtain ⟨handled, ends⟩ := closes
  obtain ⟨-, s, returned, rfl⟩ := (ctStep_message_cases stepped).resolve_left fun other => by
    rcases handled with h | h <;> simp [h] at other
  unfold processTCPorUDPMsg at returned
  cases classified : l.classify m with
  | none =>
    simp only [classified, Option.some.injEq] at returned
    exact returned.symm
  | some found =>
    obtain ⟨rule, isTempEntry⟩ := found
    have protocol : rule.protocol = m.replL4proto := tuples_protocol (classify_tuples classified)
    simp only [classified, protocol] at returned
    rcases ends with ⟨tcp, fin⟩ | ⟨udp, destroy⟩
    · have open_state : m.tcpState ≠ tcpConntrackEstablished := by
        intro established
        cases classified.symm.trans (taken ⟨tcp, established⟩)
      simp only [tcp, if_true, open_state, if_false, fin, Option.some.injEq] at returned
      exact returned.symm
    · have other : ipprotoUdp ≠ ipprotoTcp := by decide
      simp only [udp, other, if_false, if_true, destroy, Option.some.injEq] at returned
      exact returned.symm

/-- A closing message deletes what is in place. -/
theorem closing_forgets (closes : m.Closes)
    (taken : m.Established → l.classify m = none) (ok : SetOk l.natInst.cache l.natInst.curCnt)
    (inPlace : InPlace l.natInst m.tuples (l.place m)) (stepped : ctStep nat l (.message cnt m) = some l') :
    Forgotten l'.natInst m := by
  have did := closing_message closes taken stepped
  have nonzero := closes.nonzero
  rw [place] at inPlace
  cases classified : l.classify m with
  | none =>
    rw [classified] at did inPlace
    exact did ▸ inPlace
  | some found =>
    obtain ⟨rule, isTempEntry⟩ := found
    have mine := classify_tuples classified
    rw [classified] at did inPlace
    refine knows_none_iff.mpr ?_
    rw [did]
    cases isTempEntry with
    | true => exact ⟨inPlace.1, waiting_deleted nonzero mine inPlace.2⟩
    | false =>
      obtain ⟨waits, only⟩ := inPlace
      constructor
      · intro c member cached
        obtain rfl := only c member (NatApp.deleteEntry_held cached)
        exact deleteEntry_gone nat ok (fun empty => nonzero (empty ▸ mine)) cached
      · exact (NatApp.deleteEntry_setting nat l.natInst rule).temp ▸ waits

/-! ### Runs -/

/-- No message of the connection comes in: the listener reads none of `tuples` from it. -/
def NotOf (tuples : List Connection) (l : ConntrackListener σ) (ev : CtEvent) : Prop :=
  ∀ cnt m rule isTempEntry, ev = .message cnt m → l.classify m = some (rule, isTempEntry) →
    rule.connection ∉ tuples

/-- What is forgotten stays so until a message of the connection comes in. -/
theorem stays_forgotten (nonzero : ({} : Connection) ∉ m.tuples)
    {evs : List CtEvent} (run : Run (ctStep nat) (NotOf m.tuples) l evs l')
    (forgotten : Forgotten l.natInst m) : Forgotten l'.natInst m := by
  refine run.invariant (fun l => Forgotten l.natInst m) (fun l ev l' forgotten notOf stepped => ?_) forgotten
  have shrinks := ctStep_shrinks nonzero stepped fun cnt m' rule isTempEntry is classified _ =>
    notOf cnt m' rule isTempEntry is classified
  exact forgotten.shrinks shrinks

/-- In a run in which each opening of the connection puts it where the closing message would look, and no
other event moves that place away from it, a closing message leaves it in neither table, and it stays
forgotten through every further run without a message of the connection. -/
theorem closed_connection_forgotten {maxEntries : Nat} {algPorts : List IpacmAlg}
    {pubIpAddrPre : UInt32} {pwrSaveIfs : List UInt32} {driver : σ} {isStaMode : Bool}
    {wanIpaddr : UInt32} {config : IpacmConfig} {evs : List CtEvent} {m : CtMessage}
    (before : Run (ctStep nat) (Steady nat m) (init isStaMode wanIpaddr
        (NatApp.init maxEntries algPorts pubIpAddrPre pwrSaveIfs driver) config) evs l)
    (cnt : Int) (closes : m.Closes) (taken : m.Established → l.classify m = none)
    (stepped : ctStep nat l (.message cnt m) = some l') {evs' : List CtEvent} {t : ConntrackListener σ}
    (after : Run (ctStep nat) (NotOf m.tuples) l' evs' t) : Forgotten t.natInst m := by
  have nonzero := closes.nonzero
  have kept : SetOk l.natInst.cache l.natInst.curCnt ∧ InPlace l.natInst m.tuples (l.place m) := by
    refine before.invariant (fun l => SetOk l.natInst.cache l.natInst.curCnt ∧ InPlace l.natInst m.tuples (l.place m))
      (fun l ev l' kept steady stepped => ⟨ctStep_setOk kept.1 stepped, step_inPlace nonzero kept.2 steady stepped⟩)
      ⟨init_setOk maxEntries algPorts pubIpAddrPre pwrSaveIfs driver, .of_none (fun c member => ?_) _⟩
    have occupied : c ≠ {} := fun empty => nonzero (empty ▸ member)
    simpa [Knows, init, NatApp.init, held_replicate] using fun _ => occupied
  exact stays_forgotten nonzero after (closing_forgets closes taken kept.1 kept.2 stepped)

/-! ### Two runs -/

/-- The messages of a UDP connection from 192.168.1.2:5000 to 8.8.8.8:53. -/
def sampleMessage (type : NfConntrackMsgType) : CtMessage where
  type := type
  origL4proto := ipprotoUdp
  replL4proto := ipprotoUdp
  status := ipsSrcNat
  origIpv4Src := 0xC0A80102
  origIpv4Dst := 0x08080808
  origPortSrc := 5000
  origPortDst := 53
  replIpv4Src := 0x08080808
  replPortSrc := 53
  replPortDst := 5000
  tcpState := 0

/-- A listener with the private subnet 192.168.0.0/16. -/
def sampleListener : ConntrackListener Unit :=
  init false 0 (NatApp.init 2 [] 0 [] ())
    { natIfaces := ["wlan0"], privateSubnetTable := [(0xC0A80000, 0xFFFF0000)] }

/-- A driver that accepts everything. -/
def acceptingDriver : NatDriver Unit where
  addIpv4Tbl _ _ _ := (0, some 1, ())
  delIpv4Tbl _ _ := (0, ())
  addIpv4Rule _ _ _ := (0, some 1, ())
  delIpv4Rule _ _ _ := (0, ())

/-- A connection that was parked is opened again when its interface is known, and closed while the WAN is
down. -/
theorem closed_connection_forgotten_sample : ∃ l l' t : ConntrackListener Unit,
    Run (ctStep acceptingDriver) (Steady acceptingDriver (sampleMessage .destroy)) sampleListener
      [.wanUp 5 false, .message 0 (sampleMessage .new), .neighIpAddrAdd 0xC0A80102 (some "wlan0"),
        .message 0 (sampleMessage .new), .wanDown 5] l ∧
      Knows l.natInst (sampleMessage .new).srcNatRule.connection ∧
      ctStep acceptingDriver l (.message 0 (sampleMessage .destroy)) = some l' ∧
      Run (ctStep acceptingDriver) (NotOf (sampleMessage .destroy).tuples) l' [.wanUp 5 false] t ∧
      Forgotten t.natInst (sampleMessage .destroy) := by
  have before : Run (ctStep acceptingDriver) (Steady acceptingDriver (sampleMessage .destroy)) sampleListener
      [.wanUp 5 false, .message 0 (sampleMessage .new), .neighIpAddrAdd 0xC0A80102 (some "wlan0"),
        .message 0 (sampleMessage .new), .wanDown 5] _ :=
    .cons (by decide) rfl (.cons (by decide) rfl (.cons (by decide) rfl (.cons (by decide) rfl
      (.cons (by decide) rfl (.nil _)))))
  have forgotten := @closed_connection_forgotten _ _ _ _ _ _ _ _ _ _ _ _ _ _ before 0 (by decide) (by decide) rfl
    [.wanUp 5 false] _ (.cons (fun _ _ _ _ eq => by cases eq) rfl (.nil _))
  exact ⟨_, _, _, before, by decide, rfl, .cons (fun _ _ _ _ eq => by cases eq) rfl (.nil _), forgotten⟩

/-- While the WAN is down a connection is cached whatever its interface; closed before its
interface is known, it is looked for in the temp table. -/
theorem cached_connection_not_forgotten : (sampleMessage .destroy).Closes ∧
    ∃ l : ConntrackListener Unit, Run (ctStep acceptingDriver) (fun _ _ => True) sampleListener
      [.message 0 (sampleMessage .new), .message 0 (sampleMessage .destroy)] l ∧
      (sampleMessage .destroy).srcNatRule.connection ∈ held l.natInst.cache ∧
      ¬Forgotten l.natInst (sampleMessage .destroy) := by
  refine ⟨by decide, _, .cons trivial rfl (.cons trivial rfl (.nil _)), ?_, ?_⟩
  · decide
  · decide

end Hima.Ipacm
