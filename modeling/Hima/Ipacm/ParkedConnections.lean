import Hima.Ipacm.ClosedConnections

/-!
# Parked connections

A connection of a private subnet whose interface is not known yet waits in the temp table. When the
interface appears, `FlushTempEntries` passes those of its entries to `AddEntry` whose recorded
public address is that of the table.
-/
namespace Hima.Ipacm

open Slots Runs ConntrackListener NatApp

variable {σ : Type} {nat : NatDriver σ} {s s' : NatApp σ} {l l' next : ConntrackListener σ}

/-! ### What a flush passes on -/

namespace NatApp

/-- The entries that `FlushTempEntries` passes to `AddEntry`, in their order. -/
def passedOn (s : NatApp σ) (ipAddr : UInt32) : List NatTableEntry :=
  s.temp.filter fun e =>
    (e.privateIp = ipAddr ∨ e.targetIp = ipAddr) ∧ e.publicIp.toUInt32 = s.pubIpAddr

/-- What the loop of a flush carries goes through the calls of `AddEntry`. -/
theorem forSlots_flushSlot (s : NatApp σ) (ipAddr : UInt32) :
    (forSlots (flushSlot nat ipAddr true) s s.temp).1 =
      (s.passedOn ipAddr).foldl (fun s e => (s.addEntry nat e).2) s := by
  have loop : ∀ (slots : List NatTableEntry) (t : NatApp σ), t.pubIpAddr = s.pubIpAddr →
      (forSlots (flushSlot nat ipAddr true) t slots).1 =
        (slots.filter fun e => (e.privateIp = ipAddr ∨ e.targetIp = ipAddr) ∧
          e.publicIp.toUInt32 = s.pubIpAddr).foldl (fun s e => (s.addEntry nat e).2) t := by
    intro slots
    induction slots with
    | nil => exact fun t same => rfl
    | cons e slots ih =>
      intro t same
      rw [forSlots, List.filter_cons]
      by_cases here : (e.privateIp = ipAddr ∨ e.targetIp = ipAddr) ∧
          e.publicIp.toUInt32 = s.pubIpAddr
      · have visited : (flushSlot nat ipAddr true t e).1 = (t.addEntry nat e).2 := by
          unfold flushSlot
          rw [if_pos here.1, if_pos ⟨rfl, here.2.trans same.symm⟩]
          dsimp only
          split <;> rfl
        rw [if_pos (by simpa using here), List.foldl_cons, visited]
        exact ih _ ((addEntry_setting nat t e).pubIpAddr.trans same)
      · have visited : (flushSlot nat ipAddr true t e).1 = t := by
          unfold flushSlot
          grind
        rw [if_neg (by simpa using here), visited]
        exact ih t same
  exact loop s.temp s rfl

/-- A flush for an interface that appears calls `AddEntry` for these, and for no other entry. -/
theorem flushTempEntries_calls (s : NatApp σ) (ipAddr : UInt32) :
    s.flushTempEntries nat ipAddr true = { (s.passedOn ipAddr).foldl (fun s e => (s.addEntry nat e).2) s with
        temp := (s.flushTempEntries nat ipAddr true).temp } := by
  rw [← forSlots_flushSlot]
  rfl

/-- A flush for another address leaves the entry alone. -/
theorem mem_flushTempEntries {e : NatTableEntry} (parked : e ∈ s.temp) {ipAddr : UInt32}
    (other : e.privateIp ≠ ipAddr ∧ e.targetIp ≠ ipAddr) (isAdd : Bool) :
    e ∈ (s.flushTempEntries nat ipAddr isAdd).temp := by
  have kept : ∀ (t : NatApp σ) (e : NatTableEntry), e.privateIp ≠ ipAddr ∧ e.targetIp ≠ ipAddr →
      (flushSlot nat ipAddr isAdd t e).2 = e := by
    intro t e other
    unfold flushSlot
    rw [if_neg (not_or.mpr other)]
  obtain ⟨e', member, same⟩ := forall₂_mem_left (forSlots_each (flushSlot nat ipAddr isAdd)
      (fun e e' => e.privateIp ≠ ipAddr ∧ e.targetIp ≠ ipAddr → e' = e) kept s s.temp) parked
  rw [same other] at member
  exact member

end NatApp

/-! ### Parking -/

/-- `ProcessTCPorUDPMsg` parks the connection of the message. -/
structure Parks (l : ConntrackListener σ) (m : CtMessage) (rule : NatTableEntry) : Prop where
  wanUp : l.wanUp = true
  proto : m.origL4proto = ipprotoUdp ∨ m.origL4proto = ipprotoTcp
  classified : l.classify m = some (rule, true)
  opens : Opens m rule

/-- The event does not take the entry out of the temp table. -/
def Keeps (nat : NatDriver σ) (rule : NatTableEntry) (l : ConntrackListener σ) (ev : CtEvent) : Prop :=
  ∀ l', ctStep nat l ev = some l' → rule ∈ l'.natInst.temp

/-- The address that the parked entry records is that of the table. The entry of a message with a
NAT flag records none; that of another message records 16 bits of the WAN address. -/
def RecordsAddress (l : ConntrackListener σ) (m : CtMessage) : Prop :=
  match m.natStatus with
  | .neither => l.wanIpaddr.toUInt16.toUInt32 = l.natInst.pubIpAddr
  | .dstNat | .srcNat => l.natInst.pubIpAddr = 0

variable {rule : NatTableEntry}

theorem processTCPorUDPMsg_parks {m : CtMessage} (parks : Parks l m rule)
    (cnt : Int) : l.processTCPorUDPMsg nat cnt m = some (l.natInst.addTempEntry rule) := by
  have added : l.addConnection nat cnt rule true = some (l.natInst.addTempEntry rule) := by
    unfold addConnection
    rw [parks.wanUp, if_neg (by decide), if_pos rfl]
  unfold processTCPorUDPMsg
  rw [parks.classified]
  dsimp only
  rcases parks.opens with ⟨tcp, established⟩ | ⟨udp, new⟩
  · rw [if_pos tcp, if_pos established]
    exact added
  · rw [if_neg (by rw [udp]; decide), if_pos udp, new]
    exact added

/-- A free slot takes the entry, as the message gave it. -/
theorem ctStep_parks {m : CtMessage} {cnt : Int} (parks : Parks l m rule)
    (free : ∃ e ∈ l.natInst.temp, isFreeTemp e = true)
    (stepped : ctStep nat l (.message cnt m) = some next) : rule ∈ next.natInst.temp := by
  have proto := parks.proto
  obtain ⟨-, s, returned, rfl⟩ := (ctStep_message_cases stepped).resolve_left (by tauto)
  rw [processTCPorUDPMsg_parks parks] at returned
  cases returned
  exact mem_setFirst_new free rule

/-- What the rule of a parked message records as public address. -/
theorem parks_publicIp {m : CtMessage} (parks : Parks l m rule) :
    rule.publicIp.toUInt32 = l.natInst.pubIpAddr ↔ RecordsAddress l m := by
  obtain ⟨parsed, parse, matched, -⟩ := classify_some.mp parks.classified
  obtain ⟨-, rfl⟩ := matchIface_temp matched
  unfold parseRule at parse
  unfold RecordsAddress
  cases status : m.natStatus with
  | dstNat =>
    simp only [status, Option.some.injEq] at parse
    subst parse
    exact eq_comm
  | srcNat =>
    simp only [status, Option.some.injEq] at parse
    subst parse
    exact eq_comm
  | neither =>
    grind

/-! ### Waiting -/

/-- The event neither closes the parked connection nor is about one of its addresses. -/
def Spares (rule : NatTableEntry) (l : ConntrackListener σ) : CtEvent → Prop
  | .message _ m => ∀ rule', l.classify m = some (rule', true) →
    Opens m rule' ∨ rule'.connection ≠ rule.connection
  | .neighIpAddrAdd ipv4Addr _ | .neighIpAddrDel ipv4Addr =>
    rule.privateIp ≠ ipv4Addr ∧ rule.targetIp ≠ ipv4Addr
  | _ => True

theorem mem_addConnection {rule rule' : NatTableEntry} {cnt : Int} {isTempEntry : Bool}
    (parked : rule ∈ l.natInst.temp) (addressed : isFreeTemp rule = false)
    (returned : l.addConnection nat cnt rule' isTempEntry = some s) : rule ∈ s.temp := by
  unfold addConnection at returned
  split at returned
  · rw [(cacheEntry_setting returned).temp]
    exact parked
  · split at returned
    · cases returned
      exact mem_setFirst_other parked addressed rule'
    · cases returned
      rw [(addEntry_setting nat l.natInst rule').temp]
      exact parked

theorem mem_deleteConnection {rule rule' : NatTableEntry} {isTempEntry : Bool} (parked : rule ∈ l.natInst.temp)
    (other : isTempEntry = true → rule'.connection ≠ rule.connection) :
    rule ∈ (l.deleteConnection nat rule' isTempEntry).temp := by
  unfold deleteConnection
  split
  next temp =>
    refine mem_setFirst_other parked ?_ {}
    simpa [NatTableEntry.matchesRule] using fun same => other temp (Eq.symm same)
  next =>
    rw [(deleteEntry_setting nat l.natInst rule').temp]
    exact parked

section

variable (parked : rule ∈ l.natInst.temp)
include parked

theorem mem_processTCPorUDPMsg {cnt : Int} {m : CtMessage} (addressed : NatApp.isFreeTemp rule = false)
    (spares : Spares rule l (.message cnt m))
    (returned : l.processTCPorUDPMsg nat cnt m = some s) : rule ∈ s.temp := by
  rcases processTCPorUDPMsg_cases returned with rfl | ⟨rule', isTempEntry, classified, -, acts⟩
  · exact parked
  · rcases acts with ⟨-, added⟩ | ⟨closed, rfl⟩
    · exact mem_addConnection parked addressed added
    · refine mem_deleteConnection parked ?_
      rintro rfl
      exact (spares rule' classified).resolve_left closed

theorem mem_addNonnatIfaceAddr {ip : UInt32} (other : rule.privateIp ≠ ip ∧ rule.targetIp ≠ ip) :
    rule ∈ (l.addNonnatIfaceAddr nat ip).natInst.temp := by
  unfold addNonnatIfaceAddr
  split
  · exact mem_flushTempEntries parked other false
  · exact parked

theorem mem_handleNeighIpAddrAddEvt {ip : UInt32} (other : rule.privateIp ≠ ip ∧ rule.targetIp ≠ ip)
    (ifName : Option String) : rule ∈ (l.handleNeighIpAddrAddEvt nat ip ifName).natInst.temp := by
  have woken : rule ∈ (l.natInst.resetPwrSaveIf nat ip).2.temp := by
    rw [(resetPwrSaveIf_cases nat l.natInst ip).temp]
    exact parked
  unfold handleNeighIpAddrAddEvt
  split
  · exact parked
  · cases ifName with
    | none => exact parked
    | some name =>
      dsimp only
      split
      · unfold addNatIfaceAddr
        cases l.natIfaceIpv4Addr.find? fun addr => addr = ip ∨ addr = 0 with
        | none => exact mem_addNonnatIfaceAddr parked other
        | some addr =>
          by_cases there : addr = ip
          · simp only [there, if_true]
            exact parked
          · simp only [there, if_false]
            exact mem_flushTempEntries woken other true
      · exact mem_addNonnatIfaceAddr parked other

/-- A parked connection stays parked through every event that spares it. -/
theorem spares_keeps {ev : CtEvent} (addressed : NatApp.isFreeTemp rule = false) (spares : Spares rule l ev) :
    Keeps nat rule l ev := by
  intro l' stepped
  cases ev with
  | message cnt m =>
    rcases ctStep_message_cases stepped with ⟨-, rfl⟩ | ⟨-, s, returned, rfl⟩
    · exact parked
    · exact mem_processTCPorUDPMsg parked addressed spares returned
  | neighIpAddrAdd ip ifName =>
    cases stepped
    exact mem_handleNeighIpAddrAddEvt parked spares ifName
  | neighIpAddrDel ip =>
    cases stepped
    unfold handleNeighIpAddrDelEvt
    split
    · exact parked
    -- only the flush for this client can release it, and the event spares it
    · have flushed : rule ∈ (l.natInst.flushTempEntries nat ip false).temp :=
        mem_flushTempEntries parked spares false
      rw [← (delEntriesOnClntDiscon_cases nat _ ip).temp] at flushed
      exact flushed
  | wanUp ip isSta =>
    cases stepped
    unfold handleWanUp
    split
    · exact parked
    · split
      · exact parked
      · exact (addTable_temp nat l.natInst ip).symm ▸ parked
  | wanDown ip =>
    cases stepped
    unfold handleWanDown
    split
    · exact parked
    · exact (deleteTable_temp nat l.natInst ip).symm ▸ parked
  | staClientAdd ip =>
    cases stepped
    unfold handleSTAClientAddEvt
    grind
  | staClientDel ip =>
    cases stepped
    unfold handleSTAClientDelEvt
    split
    · exact (delEntriesOnSTAClntDiscon_cases nat l.natInst ip).temp ▸ parked
    · exact parked
  | pwrSave ip =>
    cases stepped
    exact (updatePwrSaveIf_cases nat l.natInst ip).temp ▸ parked
  | pwrReset ip =>
    cases stepped
    exact (resetPwrSaveIf_cases nat l.natInst ip).temp ▸ parked
  | config config =>
    cases stepped
    exact parked

end

/-- A parked connection that nothing takes out of the temp table is among those a flush for one of its
addresses calls `AddEntry` for exactly when the entry records the public address. -/
theorem parked_passed_iff {m : CtMessage} {rule : NatTableEntry} {cnt : Int} {evs : List CtEvent}
    {ip : UInt32} (parks : Parks l m rule) (free : ∃ e ∈ l.natInst.temp, isFreeTemp e = true)
    (stepped : ctStep nat l (.message cnt m) = some next) (run : Run (ctStep nat) (Keeps nat rule) next evs l')
    (same : l'.natInst.pubIpAddr = l.natInst.pubIpAddr) (about : ip = rule.privateIp ∨ ip = rule.targetIp) :
    (rule ∈ l'.natInst.passedOn ip ↔ RecordsAddress l m) ∧ l'.natInst.flushTempEntries nat ip true =
        { (l'.natInst.passedOn ip).foldl (fun s e => (s.addEntry nat e).2) l'.natInst with
          temp := (l'.natInst.flushTempEntries nat ip true).temp } := by
  have parked : rule ∈ l'.natInst.temp :=
    run.invariant (fun l => rule ∈ l.natInst.temp)
      (fun _ _ _ _ keeps stepped => keeps _ stepped) (ctStep_parks parks free stepped)
  have here : rule.privateIp = ip ∨ rule.targetIp = ip := about.imp Eq.symm Eq.symm
  constructor
  · rw [passedOn, List.mem_filter, same, ← parks_publicIp parks]
    simp [parked, here]
  · rw [← forSlots_flushSlot]
    rfl

/-- A connection to the WAN address that is handed on to a client. -/
def plainMessage : CtMessage where
  type := .new
  origL4proto := ipprotoUdp
  replL4proto := ipprotoUdp
  status := 0
  origIpv4Src := 0x08080808
  origIpv4Dst := 5
  origPortSrc := 53
  origPortDst := 5000
  replIpv4Src := 0xC0A80102
  replPortSrc := 5000
  replPortDst := 53
  tcpState := 0

theorem plain_connection_passed : ∃ l next l' : ConntrackListener Unit, ∃ rule,
    Run (ctStep acceptingDriver) (fun _ _ => True) sampleListener [.wanUp 5 false] l ∧
      ctStep acceptingDriver l (.message 0 plainMessage) = some next ∧
      Run (ctStep acceptingDriver) (Keeps acceptingDriver rule) next [.neighIpAddrDel 0xC0A80103] l' ∧
      rule.connection = ⟨0xC0A80102, 0x08080808, 5000, 53, 17⟩ ∧ rule ∈ l'.natInst.passedOn 0xC0A80102 := by
  have parks : Parks (sampleListener.handleWanUp acceptingDriver 5 false) plainMessage
      { plainMessage.dstNatRule with publicIp := 5 } :=
    ⟨rfl, Or.inl rfl, rfl, by decide⟩
  have stepped : ctStep acceptingDriver (sampleListener.handleWanUp acceptingDriver 5 false)
      (.message 0 plainMessage) = some _ := rfl
  have parked := ctStep_parks parks (by decide) stepped
  have run : Run (ctStep acceptingDriver) (Keeps acceptingDriver _) _ [.neighIpAddrDel 0xC0A80103] _ :=
    .cons (spares_keeps parked (by decide) ⟨by decide, by decide⟩) rfl (.nil _)
  have passed := (parked_passed_iff parks (by decide) stepped run rfl (Or.inl rfl)).1.mpr rfl
  exact ⟨_, _, _, _, .cons trivial rfl (.nil _), stepped, run, rfl, passed⟩

/-- The public address 10.0.0.1 is never recorded: the connection is dropped when its interface
appears. -/
theorem source_nat_dropped : ∃ l next : ConntrackListener Unit,
    Run (ctStep acceptingDriver) (fun _ _ => True) sampleListener [.wanUp 0x0A000001 false] l ∧
      Parks l (sampleMessage .new) (sampleMessage .new).srcNatRule ∧
      ctStep acceptingDriver l (.message 0 (sampleMessage .new)) = some next ∧
      next.natInst.passedOn 0xC0A80102 = [] ∧
      ¬Knows (next.natInst.flushTempEntries acceptingDriver 0xC0A80102 true)
        (sampleMessage .new).srcNatRule.connection :=
  ⟨_, _, .cons trivial rfl (.nil _), ⟨rfl, Or.inl rfl, rfl, by decide⟩, rfl, by decide, by decide⟩

end Hima.Ipacm
