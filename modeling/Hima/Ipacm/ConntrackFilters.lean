import Mathlib.Data.List.Basic

/-!
# The connection tracking filters for TCP and UDP

`IPACM_ConntrackClient` keeps one kernel filter for each protocol and tells both which addresses
to leave out: those of each local interface that comes up, and once those of the bridge and the
limited broadcast address. The routine for TCP puts the second kind into the filter for UDP.
-/
namespace Hima.Ipacm

/-- `nfct_filter_ipv4`. -/
structure NfctFilterIpv4 where
  addr : UInt32
  mask : UInt32
  deriving DecidableEq, Repr

/-- An attribute of a filter, added with `NFCT_FILTER_LOGIC_NEGATIVE`. -/
inductive Exclusion
  | dstIpv4 (filterIpv4 : NfctFilterIpv4)
  | srcIpv4 (filterIpv4 : NfctFilterIpv4)
  deriving DecidableEq, Repr

/-- The exclusions of an `nfct_filter`, latest first. -/
abbrev NfctFilter := List Exclusion

/-- `ipacm_event_iface_up`, with the `isWan` flag the handler passes along, and which of the
two routines is called first. -/
structure IfaceUp where
  ipv4Addr : UInt32
  addrMask : UInt32
  isWan : Bool
  tcpFirst : Bool
  deriving DecidableEq, Repr

namespace Exclusion

/-- Whether a connection is left out. -/
def hits (srcAddr dstAddr : UInt32) : Exclusion → Bool
  | dstIpv4 f => dstAddr &&& f.mask = f.addr &&& f.mask
  | srcIpv4 f => srcAddr &&& f.mask = f.addr &&& f.mask

end Exclusion

namespace NfctFilter

/-- Connections to and from one address. -/
def ignoreAddr (filter : NfctFilter) (addr : UInt32) : NfctFilter :=
  .srcIpv4 ⟨addr, 0xffffffff⟩ :: .dstIpv4 ⟨addr, 0xffffffff⟩ :: filter

/-- `bridge` is what the kernel answers for the bridge interface, if the query succeeds. -/
def ignoreBridgeAddrs (bridge : Option UInt32) (filter : NfctFilter) : NfctFilter :=
  match bridge with
  | none => filter
  | some ipv4Addr => filter.ignoreAddr ipv4Addr

def broadcast (param : IfaceUp) : UInt32 :=
  (0xFFFFFFFF &&& ~~~param.addrMask) ||| (param.ipv4Addr &&& param.addrMask)

def ignoreLocalIface (param : IfaceUp) (filter : NfctFilter) : NfctFilter :=
  .dstIpv4 ⟨broadcast param, 0xffffffff⟩ :: filter.ignoreAddr param.ipv4Addr

def ignoreLocalAddrs (filter : NfctFilter) : NfctFilter := filter.ignoreAddr 0xffffffff

/-- A connection between two addresses is reported unless an exclusion hits it. -/
def reports (filter : NfctFilter) (srcAddr dstAddr : UInt32) : Bool :=
  !filter.any (·.hits srcAddr dstAddr)

end NfctFilter

/-- The filters, `none` for `NULL`, and the static `isIgnore` of each routine. -/
structure ConntrackClient where
  tcpFilter : Option NfctFilter
  udpFilter : Option NfctFilter
  tcpIsIgnore : Bool := false
  udpIsIgnore : Bool := false
  deriving DecidableEq, Repr

namespace ConntrackClient

/-- Both filters are created, and no exclusion is in them. -/
def start : ConntrackClient := { tcpFilter := some [], udpFilter := some [] }

variable (bridge : Option UInt32) (s : ConntrackClient) (param : IfaceUp)

/-- Adding an attribute to a filter that is `NULL` has no outcome. -/
def updateUDPFilters : Option ConntrackClient :=
  match s.udpFilter with
  | none => some s
  | some udp =>
    if param.isWan then some s
    else
      let s := { s with udpFilter := some (udp.ignoreLocalIface param) }
      if s.udpIsIgnore then some s
      else do
        let filter ← s.udpFilter
        let filter := (filter.ignoreBridgeAddrs bridge).ignoreLocalAddrs
        return { s with udpFilter := some filter, udpIsIgnore := true }

/-- The second kind of exclusion goes to `udp_filter` here too. -/
def updateTCPFilters : Option ConntrackClient :=
  match s.tcpFilter with
  | none => some s
  | some tcp =>
    if param.isWan then some s
    else
      let s := { s with tcpFilter := some (tcp.ignoreLocalIface param) }
      if s.tcpIsIgnore then some s
      else do
        let filter ← s.udpFilter
        let filter := (filter.ignoreBridgeAddrs bridge).ignoreLocalAddrs
        return { s with udpFilter := some filter, tcpIsIgnore := true }

/-- An event is handed to both routines. -/
def ifaceUp : Option ConntrackClient :=
  if param.tcpFirst then
    (s.updateTCPFilters bridge param).bind fun s => s.updateUDPFilters bridge param
  else (s.updateUDPFilters bridge param).bind fun s => s.updateTCPFilters bridge param

end ConntrackClient

/-! ### What the events put into a filter -/

/-- The exclusions for the interfaces that came up, WAN interfaces aside. -/
def LocalExclusion (events : List IfaceUp) (e : Exclusion) : Prop :=
  ∃ event ∈ events, event.isWan = false ∧ e ∈ NfctFilter.ignoreLocalIface event []

/-- The exclusions that are put in once. -/
def onceExclusions (bridge : Option UInt32) : NfctFilter :=
  (NfctFilter.ignoreBridgeAddrs bridge []).ignoreLocalAddrs

/-- The filters after some events. -/
structure After (bridge : Option UInt32) (events : List IfaceUp) (s : ConntrackClient) : Prop where
  tcp : ∃ tcp, s.tcpFilter = some tcp ∧ ∀ e, e ∈ tcp ↔ LocalExclusion events e
  udp : ∃ udp, s.udpFilter = some udp ∧ ∀ e, e ∈ udp ↔ LocalExclusion events e ∨
    (∃ event ∈ events, event.isWan = false) ∧ e ∈ onceExclusions bridge
  tcpIsIgnore : s.tcpIsIgnore = true ↔ ∃ event ∈ events, event.isWan = false
  udpIsIgnore : s.udpIsIgnore = true ↔ ∃ event ∈ events, event.isWan = false

theorem mem_ignoreLocalIface {filter : NfctFilter} {param : IfaceUp} {e : Exclusion} :
    e ∈ filter.ignoreLocalIface param ↔ e ∈ NfctFilter.ignoreLocalIface param [] ∨ e ∈ filter := by
  simp only [NfctFilter.ignoreLocalIface, NfctFilter.ignoreAddr, List.mem_cons, List.not_mem_nil,
    or_false, or_assoc]

theorem mem_once {bridge : Option UInt32} {filter : NfctFilter} {e : Exclusion} :
    e ∈ (filter.ignoreBridgeAddrs bridge).ignoreLocalAddrs ↔ e ∈ onceExclusions bridge ∨ e ∈ filter := by
  cases bridge <;>
    simp only [onceExclusions, NfctFilter.ignoreBridgeAddrs, NfctFilter.ignoreLocalAddrs,
      NfctFilter.ignoreAddr, List.mem_cons, List.not_mem_nil, or_false, or_assoc]

theorem start_after (bridge : Option UInt32) : After bridge [] .start := by
  constructor <;> simp [ConntrackClient.start, LocalExclusion]

variable {events : List IfaceUp}

theorem localExclusion_snoc {event : IfaceUp} {e : Exclusion} :
    LocalExclusion (events ++ [event]) e ↔
      LocalExclusion events e ∨ event.isWan = false ∧ e ∈ NfctFilter.ignoreLocalIface event [] := by
  simp only [LocalExclusion, List.mem_append, List.mem_singleton, or_and_right, exists_or, exists_eq_left]

theorem After.wan {bridge : Option UInt32} {events : List IfaceUp} {s : ConntrackClient}
    {event : IfaceUp} (after : After bridge events s) (wan : event.isWan = true) :
    s.ifaceUp bridge event = some s ∧ After bridge (events ++ [event]) s := by
  obtain ⟨⟨tcp, tcpIs, tcpMem⟩, ⟨udp, udpIs, udpMem⟩, tcpFlag, udpFlag⟩ := after
  constructor
  · simp only [ConntrackClient.ifaceUp, ConntrackClient.updateTCPFilters,
      ConntrackClient.updateUDPFilters, tcpIs, udpIs, wan, if_true, Option.bind_some, ite_self]
  · have seen : (∃ e ∈ events ++ [event], e.isWan = false) ↔ ∃ e ∈ events, e.isWan = false := by
      simp [wan]
    have noneAdded : ∀ e, LocalExclusion (events ++ [event]) e ↔ LocalExclusion events e := by
      intro e
      simp [localExclusion_snoc, wan]
    refine ⟨⟨tcp, tcpIs, fun e => ?_⟩, ⟨udp, udpIs, fun e => ?_⟩, ?_, ?_⟩
    · rw [noneAdded, tcpMem]
    · rw [noneAdded, seen, udpMem]
    · rw [seen, tcpFlag]
    · rw [seen, udpFlag]

theorem After.lan {bridge : Option UInt32} {events : List IfaceUp} {s : ConntrackClient}
    {event : IfaceUp} (after : After bridge events s) (lan : event.isWan = false) :
    ∃ s', s.ifaceUp bridge event = some s' ∧ After bridge (events ++ [event]) s' := by
  obtain ⟨⟨tcp, tcpIs, tcpMem⟩, ⟨udp, udpIs, udpMem⟩, tcpFlag, udpFlag⟩ := after
  have seen : ∃ e ∈ events ++ [event], e.isWan = false := ⟨event, by simp, lan⟩
  have added : ∀ e, LocalExclusion (events ++ [event]) e ↔
      LocalExclusion events e ∨ e ∈ NfctFilter.ignoreLocalIface event [] := by
    intro e
    rw [localExclusion_snoc]
    simp only [lan, true_and]
  by_cases before : ∃ e ∈ events, e.isWan = false
  · -- the flags are up: both filters get the addresses of the interface and no more
    have tcpUp := tcpFlag.mpr before
    have udpUp := udpFlag.mpr before
    refine ⟨{ s with tcpFilter := some (tcp.ignoreLocalIface event),
                     udpFilter := some (udp.ignoreLocalIface event) }, ?_,
      ⟨_, rfl, fun e => ?_⟩, ⟨_, rfl, fun e => ?_⟩, ?_, ?_⟩
    · cases order : event.tcpFirst <;>
        simp [ConntrackClient.ifaceUp, ConntrackClient.updateTCPFilters,
          ConntrackClient.updateUDPFilters, tcpIs, udpIs, lan, tcpUp, udpUp, order]
    · rw [mem_ignoreLocalIface, tcpMem, added, or_comm]
    · rw [mem_ignoreLocalIface, udpMem, added, iff_true_intro seen, iff_true_intro before,
        or_left_comm, or_assoc]
    · exact iff_of_true tcpUp seen
    · exact iff_of_true udpUp seen
  · -- the first interface that is not a WAN interface: both routines fill the filter for UDP
    have tcpDown : s.tcpIsIgnore = false := by
      rw [Bool.eq_false_iff, ne_eq, tcpFlag]
      exact before
    have udpDown : s.udpIsIgnore = false := by
      rw [Bool.eq_false_iff, ne_eq, udpFlag]
      exact before
    refine ⟨{ tcpFilter := some (tcp.ignoreLocalIface event)
              udpFilter := some (if event.tcpFirst then
                (((udp.ignoreBridgeAddrs bridge).ignoreLocalAddrs.ignoreLocalIface
                  event).ignoreBridgeAddrs bridge).ignoreLocalAddrs
                else (((udp.ignoreLocalIface event).ignoreBridgeAddrs
                  bridge).ignoreLocalAddrs.ignoreBridgeAddrs bridge).ignoreLocalAddrs)
              tcpIsIgnore := true, udpIsIgnore := true }, ?_,
      ⟨_, rfl, fun e => ?_⟩, ⟨_, rfl, fun e => ?_⟩, iff_of_true rfl seen, iff_of_true rfl seen⟩
    · cases order : event.tcpFirst <;>
        simp [ConntrackClient.ifaceUp, ConntrackClient.updateTCPFilters,
          ConntrackClient.updateUDPFilters, tcpIs, udpIs, lan, tcpDown, udpDown, order]
    · rw [mem_ignoreLocalIface, tcpMem, added, or_comm]
    · rw [added, iff_true_intro seen]
      split
      · rw [mem_once, mem_ignoreLocalIface, mem_once, udpMem, iff_false_intro before]
        simp only [true_and, false_and, false_or, or_assoc, or_comm, or_left_comm, or_self_left]
      · rw [mem_once, mem_once, mem_ignoreLocalIface, udpMem, iff_false_intro before]
        simp only [true_and, false_and, false_or, or_comm, or_left_comm, or_self_left]

/-- Whatever comes up in whatever order, the filters hold the exclusions of `After`. -/
theorem after_run (bridge : Option UInt32) (events : List IfaceUp) {done : List IfaceUp}
    {s : ConntrackClient} (after : After bridge done s) :
    ∃ s', events.foldlM (ConntrackClient.ifaceUp bridge) s = some s' ∧ After bridge (done ++ events) s' := by
  induction events generalizing done s with
  | nil => exact ⟨s, rfl, by rwa [List.append_nil]⟩
  | cons event events ih =>
    have step : ∃ s', s.ifaceUp bridge event = some s' ∧ After bridge (done ++ [event]) s' := by
      cases wan : event.isWan with
      | true => exact ⟨s, after.wan wan⟩
      | false => exact after.lan wan
    obtain ⟨s', stepped, next⟩ := step
    obtain ⟨t, run, last⟩ := ih next
    rw [List.append_assoc] at last
    exact ⟨t, by rw [List.foldlM_cons, stepped]; exact run, last⟩

/-! ### When the filters agree -/

/-- The addresses that the one-time exclusions name. -/
def onceAddrs (bridge : Option UInt32) : List UInt32 := 0xffffffff :: bridge.toList

/-- No interface but WAN interfaces came up, or the one-time exclusions are those of interfaces
that came up as well. -/
def Covered (bridge : Option UInt32) (events : List IfaceUp) : Prop :=
  (∀ event ∈ events, event.isWan = true) ∨
    ∀ addr ∈ onceAddrs bridge, ∃ event ∈ events, event.isWan = false ∧ event.ipv4Addr = addr

/-- The filters have the same exclusions, and so they report the same connections. -/
structure ConntrackClient.Agree (s : ConntrackClient) : Prop where
  exclusions : ∃ tcp udp, s.tcpFilter = some tcp ∧ s.udpFilter = some udp ∧ ∀ e, e ∈ tcp ↔ e ∈ udp
  reports : ∀ tcp udp, s.tcpFilter = some tcp → s.udpFilter = some udp →
    ∀ srcAddr dstAddr, tcp.reports srcAddr dstAddr = udp.reports srcAddr dstAddr

theorem NfctFilter.reports_congr {tcp udp : NfctFilter} (same : ∀ e, e ∈ tcp ↔ e ∈ udp)
    (srcAddr dstAddr : UInt32) : tcp.reports srcAddr dstAddr = udp.reports srcAddr dstAddr := by
  rw [NfctFilter.reports, NfctFilter.reports, Bool.eq_iff_iff]
  simp only [Bool.not_eq_true', List.any_eq_false, same]

theorem mem_onceExclusions {bridge : Option UInt32} {e : Exclusion} :
    e ∈ onceExclusions bridge ↔ ∃ addr ∈ onceAddrs bridge, e ∈ NfctFilter.ignoreAddr [] addr := by
  cases bridge <;>
    simp [onceExclusions, onceAddrs, NfctFilter.ignoreBridgeAddrs, NfctFilter.ignoreLocalAddrs,
      NfctFilter.ignoreAddr, or_assoc]

/-- An exclusion by source is that of an interface address. -/
theorem localExclusion_src {addr : UInt32} :
    LocalExclusion events (.srcIpv4 ⟨addr, 0xffffffff⟩) ↔
      ∃ event ∈ events, event.isWan = false ∧ event.ipv4Addr = addr := by
  constructor
  · rintro ⟨event, member, lan, here⟩
    have same : addr = event.ipv4Addr := by
      simpa [NfctFilter.ignoreLocalIface, NfctFilter.ignoreAddr] using here
    exact ⟨event, member, lan, same.symm⟩
  · rintro ⟨event, member, lan, rfl⟩
    exact ⟨event, member, lan, by simp [NfctFilter.ignoreLocalIface, NfctFilter.ignoreAddr]⟩

theorem localExclusion_dst {addr : UInt32}
    (event_of : ∃ event ∈ events, event.isWan = false ∧ event.ipv4Addr = addr) :
    LocalExclusion events (.dstIpv4 ⟨addr, 0xffffffff⟩) := by
  obtain ⟨event, member, lan, rfl⟩ := event_of
  exact ⟨event, member, lan, by simp [NfctFilter.ignoreLocalIface, NfctFilter.ignoreAddr]⟩

theorem After.covered_iff {bridge : Option UInt32} {s : ConntrackClient}
    (after : After bridge events s) : s.Agree ↔ Covered bridge events := by
  obtain ⟨⟨tcp, tcpIs, tcpMem⟩, ⟨udp, udpIs, udpMem⟩, -, -⟩ := after
  constructor
  · rintro ⟨⟨_, _, isTcp, isUdp, same⟩, -⟩
    obtain rfl := Option.some.inj (tcpIs.symm.trans isTcp)
    obtain rfl := Option.some.inj (udpIs.symm.trans isUdp)
    by_cases lan : ∃ event ∈ events, event.isWan = false
    · -- the exclusion of a source address tells that an interface had the address
      refine .inr fun addr once => localExclusion_src.mp ?_
      rw [← tcpMem, same, udpMem]
      exact .inr ⟨lan, mem_onceExclusions.mpr ⟨addr, once, by simp [NfctFilter.ignoreAddr]⟩⟩
    · refine .inl fun event member => ?_
      by_contra notWan
      exact lan ⟨event, member, Bool.eq_false_iff.mpr notWan⟩
  · intro covered
    have same : ∀ e, e ∈ tcp ↔ e ∈ udp := by
      intro e
      rw [tcpMem, udpMem]
      refine ⟨.inl, fun either => either.elim id fun ⟨⟨event, member, lan⟩, once⟩ => ?_⟩
      rcases covered with allWan | named
      · rw [allWan event member] at lan
        cases lan
      · obtain ⟨addr, isOnce, here⟩ := mem_onceExclusions.mp once
        have event_of := named addr isOnce
        simp only [NfctFilter.ignoreAddr, List.mem_cons, List.not_mem_nil, or_false] at here
        rcases here with rfl | rfl
        · exact localExclusion_src.mpr event_of
        · exact localExclusion_dst event_of
    refine ⟨⟨tcp, udp, tcpIs, udpIs, same⟩, ?_⟩
    intro _ _ isTcp isUdp
    obtain rfl := Option.some.inj (tcpIs.symm.trans isTcp)
    obtain rfl := Option.some.inj (udpIs.symm.trans isUdp)
    exact NfctFilter.reports_congr same

/-- After any events, with the bridge query answering as it does, the two filters agree if and
only if `Covered` holds of the events. -/
theorem filters_agree_iff (bridge : Option UInt32) (events : List IfaceUp) :
    ∃ s, events.foldlM (ConntrackClient.ifaceUp bridge) .start = some s ∧
      (s.Agree ↔ Covered bridge events) := by
  obtain ⟨s, run, after⟩ := after_run bridge events (start_after bridge)
  exact ⟨s, run, after.covered_iff⟩

/-- A LAN interface comes up. A UDP connection to the bridge is left out, a TCP connection
is reported. -/
theorem tcp_filter_misses_bridge :
    ∃ s tcp udp, ConntrackClient.ifaceUp (some 0xC0A8E101) .start
        ⟨0xC0A80102, 0xFFFFFF00, false, true⟩ = some s ∧ s.tcpFilter = some tcp ∧ s.udpFilter = some udp ∧
      .dstIpv4 ⟨0xC0A8E101, 0xffffffff⟩ ∈ udp ∧ .dstIpv4 ⟨0xC0A8E101, 0xffffffff⟩ ∉ tcp ∧
      udp.reports 0x08080808 0xC0A8E101 = false ∧ tcp.reports 0x08080808 0xC0A8E101 = true :=
  ⟨_, _, _, rfl, rfl, rfl, by decide⟩

end Hima.Ipacm
