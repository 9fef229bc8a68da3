import Hima.Lan.EthClients
import Hima.LanToLan.Events
import Hima.Wlan.ClientMap

/-!
# Announcing and withdrawing clients

An interface tells `IPACM_LanToLan` of each address of a client with
`handle_lan2lan_client_active`. When the routes of a family are reset, `IPACM_Lan` and `IPACM_Wlan`
go through their tables and withdraw every address of the family again, each in its own way.
-/
namespace Hima.LanToLan

open Wlan (IpAddr IpacmWlan IpaWlanClient)
open Lan (IpacmLan EthClient)

variable {I : Type}

/-! ### Posting -/

/-- `ipacm_event_data_all`, apart from the index of the interface. -/
structure EventDataAll where
  iptype : IpaIpType
  ipv4Addr : UInt32
  ipv6Addr : Ipv6Addr
  macAddr : Wlan.MacAddr

/-- `ip_type` is the family or `IPA_IP_MAX`; `none` is `IPACM_IP_NULL`. -/
def isUp (ipType : Option IpaIpType) (ip : IpaIpType) : Bool :=
  ipType = some ip ∨ ipType = some .max

/-- An `ipacm_event_lan_client` after `memset`, with an address and the interface. -/
def IpacmEventLanClient.of (this : I) : IpAddr → IpacmEventLanClient I
  | .v4 a => {
      iptype := .v4, ipv4Addr := a, ipv6Addr := .replicate 4 0, macAddr := .replicate 6 0
      pIface := some this }
  | .v6 a => {
      iptype := .v6, ipv4Addr := 0, ipv6Addr := a, macAddr := .replicate 6 0, pIface := some this }

/-- Allocates an event and posts it; `mallocs` are the answers of `malloc`. -/
def post (mallocs : Nat → Bool) (event : LanEvent I) (posted : List (LanEvent I)) :
    Bool × List (LanEvent I) :=
  if mallocs posted.length then (true, posted ++ [event]) else (false, posted)

/-- Posts events in a loop that ends when there is no memory. -/
def postAll (mallocs : Nat → Bool) : List (LanEvent I) → List (LanEvent I) → Bool × List (LanEvent I)
  | [], posted => (true, posted)
  | event :: events, posted =>
    match post mallocs event posted with
    | (false, posted) => (false, posted)
    | (true, posted) => postAll mallocs events posted

/-- `handle_lan2lan_client_active` -/
def handleLan2lanClientActive (mallocs : Nat → Bool) (this : I) (ipType : Option IpaIpType)
    (data : Option EventDataAll) (event : IpacmEventLanClient I → LanEvent I)
    (posted : List (LanEvent I)) : Bool × List (LanEvent I) :=
  match data with
  | none => (false, posted)
  | some data =>
    if data.iptype = .v4 ∧ isUp ipType .v4 = false then (false, posted)
    else if data.iptype = .v6 ∧ isUp ipType .v6 = false then (false, posted)
    else
      post mallocs (event {
        iptype := data.iptype, ipv4Addr := data.ipv4Addr, ipv6Addr := data.ipv6Addr
        macAddr := data.macAddr, pIface := some this }) posted

/-! ### A Wi-Fi interface -/

/-- `handle_lan2lan_msg_post` -/
def handleLan2lanMsgPost (mallocs : Nat → Bool) (this : I) (ipType : Option IpaIpType)
    (event : IpacmEventLanClient I → LanEvent I) (mac : Wlan.MacAddr) (ip : Wan.IpaIpType) (s : IpacmWlan)
    (posted : List (LanEvent I)) : Bool × List (LanEvent I) :=
  match s.getWlanClientIndex mac with
  | none => (true, posted)
  | some i =>
    let c := s.wlanClient i
    match ip with
    | .v4 =>
      if c.ipv4Set = true then
        if isUp ipType .v4 then
          post mallocs (event (.of this (.v4 c.v4Addr))) posted
        else (false, posted)
      else (true, posted)
    | .v6 =>
      if 0 < c.ipv6Set then
        if isUp ipType .v6 then
          postAll mallocs ((List.range c.ipv6Set).map fun j => event (.of this (.v6 (c.v6Addr j)))) posted
        else (false, posted)
      else (true, posted)

def forgetWlan (ip : Wan.IpaIpType) (c : IpaWlanClient) : IpaWlanClient :=
  match ip with
  | .v4 => { c with ipv4Set := false }
  | .v6 => { c with ipv6Set := 0 }

section Wlan

variable (cfg : Wlan.Iface) (d : Wlan.Driver) (mallocs : Nat → Bool) (this : I)
  (ipType : Option IpaIpType) (ip : Wan.IpaIpType)

/-- The loop of `handle_wlan_client_reset_rt`, over the indices to come. -/
def resetWlanClients : List Nat → IpacmWlan → List (LanEvent I) → Bool × IpacmWlan × List (LanEvent I)
  | [], s, posted => (true, s, posted)
  | i :: rest, s, posted =>
    match Wlan.deleteDefaultQosRtrules cfg d i ip s with
    | (false, s) => (false, s, posted)
    | (true, s) =>
      match handleLan2lanMsgPost mallocs this ipType .ipaLanClientDisconnect (s.wlanClient i).mac ip s
          posted with
      | (false, posted) => (false, s, posted)
      | (true, posted) => resetWlanClients rest (s.update i (forgetWlan ip)) posted

/-- `handle_wlan_client_reset_rt` -/
def handleWlanClientResetRt (s : IpacmWlan) : Bool × IpacmWlan × List (LanEvent I) :=
  resetWlanClients cfg d mallocs this ipType ip (List.range s.numWifiClient) s []

end Wlan

/-! ### An Ethernet interface -/

/-- The events of one client in `post_lan2lan_client_disconnect_msg`. -/
def disconnectMsgs (this : I) (ip : Wan.IpaIpType) (c : EthClient) : List (LanEvent I) :=
  match ip with
  | .v4 =>
    if c.ipv4Set = true then [.ipaLanClientDisconnect (.of this (.v4 c.v4Addr))] else []
  | .v6 =>
    -- the first word is assigned four times, the other three never
    (List.range c.ipv6Set).map fun j =>
      .ipaLanClientDisconnect (.of this (.v6 (firstWord (c.v6Addr j))))

/-- `post_lan2lan_client_disconnect_msg` -/
def postLan2lanClientDisconnectMsg (mallocs : Nat → Bool) (this : I) (ip : Wan.IpaIpType) (s : IpacmLan)
    (posted : List (LanEvent I)) : Bool × List (LanEvent I) :=
  postAll mallocs ((List.range s.numEthClient).flatMap fun i => disconnectMsgs this ip (s.ethClient i))
    posted

def forgetEth (ip : Wan.IpaIpType) (c : EthClient) : EthClient :=
  match ip with
  | .v4 => { c with ipv4Set := false }
  | .v6 => { c with ipv6Set := 0 }

section Lan

variable (cfg : Lan.Iface) (d : Lan.Driver) (mallocs : Nat → Bool) (this : I) (ip : Wan.IpaIpType)

/-- The first loop of `handle_lan_client_reset_rt`. -/
def deleteAllEthRtrules : List Nat → IpacmLan → Bool × IpacmLan
  | [], s => (true, s)
  | i :: rest, s =>
    match Lan.deleteEthRtrules cfg d i ip s with
    | (false, s) => (false, s)
    | (true, s) => deleteAllEthRtrules rest s

/-- `handle_lan_client_reset_rt` -/
def handleLanClientResetRt (s : IpacmLan) : Bool × IpacmLan × List (LanEvent I) :=
  match deleteAllEthRtrules cfg d ip (List.range s.numEthClient) s with
  | (false, s) => (false, s, [])
  | (true, s) =>
    match postLan2lanClientDisconnectMsg mallocs this ip s [] with
    | (false, posted) => (false, s, posted)
    | (true, posted) =>
      (true, (List.range s.numEthClient).foldl (fun s i => s.update i (forgetEth ip)) s, posted)

end Lan

/-! ### What is announced and what is withdrawn -/

/-- The addresses of a family in the record of a client. -/
def wlanAddrs (ip : Wan.IpaIpType) (c : IpaWlanClient) : List IpAddr :=
  match ip with
  | .v4 => if c.ipv4Set = true then [.v4 c.v4Addr] else []
  | .v6 => (List.range c.ipv6Set).map fun j => .v6 (c.v6Addr j)

def ethAddrs (ip : Wan.IpaIpType) (c : EthClient) : List IpAddr :=
  match ip with
  | .v4 => if c.ipv4Set = true then [.v4 c.v4Addr] else []
  | .v6 => (List.range c.ipv6Set).map fun j => .v6 (c.v6Addr j)

/-- The addresses of a family that a table holds, in its order, each with its client. -/
def wlanHeld (ip : Wan.IpaIpType) (s : IpacmWlan) : List (Wlan.MacAddr × IpAddr) :=
  (List.range s.numWifiClient).flatMap fun i => (wlanAddrs ip (s.wlanClient i)).map ((s.wlanClient i).mac, ·)

def ethHeld (ip : Wan.IpaIpType) (s : IpacmLan) : List (Wlan.MacAddr × IpAddr) :=
  (List.range s.numEthClient).flatMap fun i => (ethAddrs ip (s.ethClient i)).map ((s.ethClient i).mac, ·)

theorem mem_wlanHeld {ip : Wan.IpaIpType} {s : IpacmWlan} {h : Wlan.MacAddr × IpAddr} :
    h ∈ wlanHeld ip s ↔
      ∃ i < s.numWifiClient, ∃ a ∈ wlanAddrs ip (s.wlanClient i), ((s.wlanClient i).mac, a) = h := by
  simp [wlanHeld]

theorem mem_ethHeld {ip : Wan.IpaIpType} {s : IpacmLan} {h : Wlan.MacAddr × IpAddr} :
    h ∈ ethHeld ip s ↔
      ∃ i < s.numEthClient, ∃ a ∈ ethAddrs ip (s.ethClient i), ((s.ethClient i).mac, a) = h := by
  simp [ethHeld]

/-- The data of a neighbour event that brings an address of a client. -/
def EventDataAll.Brings (data : EventDataAll) (held : Wlan.MacAddr × IpAddr) : Prop :=
  data.macAddr = held.1 ∧
    match held.2 with
    | .v4 a => data.iptype = .v4 ∧ data.ipv4Addr = a
    | .v6 a => data.iptype = .v6 ∧ data.ipv6Addr = a

/-- Two events are about the same address of the same interface. -/
structure SameAddress (a w : IpacmEventLanClient I) : Prop where
  iptype : w.iptype = a.iptype
  pIface : w.pIface = a.pIface
  ipv4Addr : a.iptype = .v4 → w.ipv4Addr = a.ipv4Addr
  ipv6Addr : a.iptype = .v6 → w.ipv6Addr = a.ipv6Addr

/-- The event takes back an address: however it was brought, it was announced as the same. -/
def Withdraws (mallocs : Nat → Bool) (this : I) (ipType : Option IpaIpType)
    (held : Wlan.MacAddr × IpAddr) (event : LanEvent I) : Prop :=
  ∃ w, event = .ipaLanClientDisconnect w ∧
    ∀ data : EventDataAll, data.Brings held → ∃ a,
      handleLan2lanClientActive mallocs this ipType (some data) .ipaLanClientActive [] =
        (true, [.ipaLanClientActive a]) ∧ SameAddress a w

/-! ### One event -/

def familyOf : IpAddr → IpaIpType
  | .v4 _ => .v4
  | .v6 _ => .v6

variable {mallocs : Nat → Bool}

theorem postAll_succeeds (memory : ∀ n, mallocs n = true)
    (events posted : List (LanEvent I)) : postAll mallocs events posted = (true, posted ++ events) := by
  induction events generalizing posted with
  | nil => simp [postAll]
  | cons event events ih => simp [postAll, post, memory, ih]

/-- An address of a family that is up is announced, with the interface and the address as they are. -/
theorem active_announces (memory : ∀ n, mallocs n = true) (this : I)
    {ipType : Option IpaIpType} {held : Wlan.MacAddr × IpAddr} (up : isUp ipType (familyOf held.2) = true)
    {data : EventDataAll} (brings : data.Brings held) :
    handleLan2lanClientActive mallocs this ipType (some data) .ipaLanClientActive [] =
      (true, [.ipaLanClientActive {
        iptype := data.iptype, ipv4Addr := data.ipv4Addr, ipv6Addr := data.ipv6Addr
        macAddr := data.macAddr, pIface := some this }]) := by
  obtain ⟨mac, a⟩ := held
  cases a with
  | v4 a =>
    obtain ⟨-, family, -⟩ := brings
    have up : isUp ipType .v4 = true := up
    simp [handleLan2lanClientActive, family, up, post, memory]
  | v6 a =>
    obtain ⟨-, family, -⟩ := brings
    have up : isUp ipType .v6 = true := up
    simp [handleLan2lanClientActive, family, up, post, memory]

/-- An event of the family takes an address back exactly when it carries that address. -/
theorem withdraws_iff (memory : ∀ n, mallocs n = true) (this : I)
    {ipType : Option IpaIpType} {held : Wlan.MacAddr × IpAddr} (up : isUp ipType (familyOf held.2) = true)
    {b : IpAddr} (family : familyOf b = familyOf held.2) :
    Withdraws mallocs this ipType held (.ipaLanClientDisconnect (.of this b)) ↔ b = held.2 := by
  have announced := fun {data : EventDataAll} (brings : data.Brings held) =>
    active_announces memory this up brings
  obtain ⟨mac, a⟩ := held
  constructor
  · rintro ⟨w, event, same⟩
    obtain rfl : IpacmEventLanClient.of this b = w := by simpa using event
    -- any data that bring the address will do
    cases a with
    | v4 a =>
      obtain ⟨e, active, agree⟩ := same ⟨.v4, a, .replicate 4 0, mac⟩ ⟨rfl, rfl, rfl⟩
      rw [announced ⟨rfl, rfl, rfl⟩] at active
      obtain rfl : _ = e := by simpa using active
      cases b with
      | v4 b => exact congrArg IpAddr.v4 (agree.ipv4Addr rfl)
      | v6 b => simp [familyOf] at family
    | v6 a =>
      obtain ⟨e, active, agree⟩ := same ⟨.v6, 0, a, mac⟩ ⟨rfl, rfl, rfl⟩
      rw [announced ⟨rfl, rfl, rfl⟩] at active
      obtain rfl : _ = e := by simpa using active
      cases b with
      | v4 b => simp [familyOf] at family
      | v6 b => exact congrArg IpAddr.v6 (agree.ipv6Addr rfl)
  · rintro rfl
    refine ⟨_, rfl, fun data brings => ⟨_, announced brings, ?_⟩⟩
    cases b with
    | v4 b =>
      obtain ⟨-, family, addr⟩ := brings
      exact ⟨family.symm, rfl, fun _ => addr.symm, fun six => by simp [family] at six⟩
    | v6 b =>
      obtain ⟨-, family, addr⟩ := brings
      exact ⟨family.symm, rfl, fun four => by simp [family] at four, fun _ => addr.symm⟩

def ofWan : Wan.IpaIpType → IpaIpType
  | .v4 => .v4
  | .v6 => .v6

/-! ### The Wi-Fi table -/

theorem wlanAddrs_family {ip : Wan.IpaIpType} {c : IpaWlanClient} {a : IpAddr}
    (member : a ∈ wlanAddrs ip c) : familyOf a = ofWan ip := by
  cases ip with
  | v4 =>
    rw [wlanAddrs] at member
    split at member
    · obtain rfl := List.mem_singleton.mp member
      rfl
    · simp at member
  | v6 =>
    obtain ⟨j, -, rfl⟩ := List.mem_map.mp member
    rfl

/-- What changes between the turns of the loop for other records: nothing that is read. -/
structure WlanSame (s s' : IpacmWlan) (j : Nat) : Prop where
  mac : (s'.wlanClient j).mac = (s.wlanClient j).mac
  addrs : ∀ ip, wlanAddrs ip (s'.wlanClient j) = wlanAddrs ip (s.wlanClient j)

section WlanLoop

variable (cfg : Wlan.Iface) {d : Wlan.Driver} (answered : ∀ n, d.outcome n ≠ .noMemory)
  {mallocs : Nat → Bool} (memory : ∀ n, mallocs n = true) (this : I) {ipType : Option IpaIpType}
  {ip : Wan.IpaIpType} (up : isUp ipType (ofWan ip) = true)

include answered in
theorem deleteDefaultQosRtrules_same (ip : Wan.IpaIpType) (i : Nat) (s : IpacmWlan) :
    ∃ s', Wlan.deleteDefaultQosRtrules cfg d i ip s = (true, s') ∧
      s'.numWifiClient = s.numWifiClient ∧ ∀ j, WlanSame s s' j := by
  have rules := Wlan.deleteRules_succeeds answered i ip ((s.wlanClient i).covered cfg ip) s
  have clients := Wlan.deleteRules_keeps (d := d) (i := i) (P := fun t => t.wlanClient = s.wlanClient)
    (fun t hdl same => (Wlan.deleteRoutingHdl_clients t hdl ip).trans same) ((s.wlanClient i).covered cfg ip) rfl
  have touches := Wlan.touches_deleteDefaultQosRtrules (d := d) cfg i ip s
  rw [Wlan.deleteDefaultQosRtrules] at touches ⊢
  rcases answer : Wlan.deleteRules d i ip ((s.wlanClient i).covered cfg ip) s with ⟨_ | _, s₁⟩ <;>
    rw [answer] at rules clients touches
  · simp at rules
  refine ⟨_, rfl, touches.num, fun j => ⟨touches.macs j, fun ip' => ?_⟩⟩
  dsimp only at clients
  by_cases this : j = i
  · subst this
    cases ip <;> cases ip' <;>
      simp [Wlan.IpacmWlan.update, clients, Wlan.IpaWlanClient.clearRouteRules, wlanAddrs]
  · simp [Wlan.IpacmWlan.update, this, clients]

include memory up in
/-- The events of a client, in the order of its addresses. -/
theorem msgPost_posts {s : IpacmWlan} {mac : Wlan.MacAddr} {i : Nat}
    (found : s.getWlanClientIndex mac = some i) (posted : List (LanEvent I)) :
    handleLan2lanMsgPost mallocs this ipType .ipaLanClientDisconnect mac ip s posted =
      (true, posted ++ (wlanAddrs ip (s.wlanClient i)).map fun a => .ipaLanClientDisconnect (.of this a)) := by
  cases ip with
  | v4 =>
    have up : isUp ipType .v4 = true := up
    by_cases set : (s.wlanClient i).ipv4Set = true <;>
      simp [handleLan2lanMsgPost, found, set, up, post, memory, wlanAddrs]
  | v6 =>
    have up : isUp ipType .v6 = true := up
    by_cases some' : 0 < (s.wlanClient i).ipv6Set
    · simp [handleLan2lanMsgPost, found, some', up, postAll_succeeds memory, wlanAddrs]
    · have none' : (s.wlanClient i).ipv6Set = 0 := by omega
      simp [handleLan2lanMsgPost, found, none', wlanAddrs]

/-- With different addresses a record is found under its own. -/
theorem index_of_nodup {s : IpacmWlan} (distinct : s.macs.Nodup) {i : Nat} (below : i < s.numWifiClient) :
    s.getWlanClientIndex (s.wlanClient i).mac = some i := by
  rw [Wlan.getWlanClientIndex_eq_some]
  refine ⟨below, rfl, fun j lt same => ?_⟩
  have inj := List.inj_on_of_nodup_map distinct (List.mem_range.mpr (lt.trans below))
    (List.mem_range.mpr below) same
  omega

theorem forgetWlan_addrs (c : IpaWlanClient) : wlanAddrs ip (forgetWlan ip c) = [] := by
  cases ip <;> rfl

theorem forgetWlan_mac (c : IpaWlanClient) : (forgetWlan ip c).mac = c.mac := by
  cases ip <;> rfl

include answered memory up in
/-- The loop posts the events of the records to come, forgets their addresses and leaves the other
records. -/
theorem resetWlanClients_posts (indices : List Nat) : ∀ (s : IpacmWlan) (posted : List (LanEvent I)),
    indices.Nodup → (∀ i ∈ indices, i < s.numWifiClient) → s.macs.Nodup →
    ∃ s', resetWlanClients cfg d mallocs this ipType ip indices s posted =
        (true, s', posted ++ indices.flatMap fun i => (wlanAddrs ip (s.wlanClient i)).map fun a =>
          .ipaLanClientDisconnect (.of this a)) ∧
      s'.numWifiClient = s.numWifiClient ∧ (∀ i ∈ indices, wlanAddrs ip (s'.wlanClient i) = []) ∧
      ∀ j ∉ indices, WlanSame s s' j := by
  induction indices with
  | nil =>
    intro s posted _ _ _
    exact ⟨s, by simp [resetWlanClients], rfl, by simp, fun j _ => ⟨rfl, fun _ => rfl⟩⟩
  | cons i rest ih =>
    intro s posted once below distinct
    obtain ⟨not_later, once⟩ := List.nodup_cons.mp once
    obtain ⟨s₁, deleted, num₁, same₁⟩ := deleteDefaultQosRtrules_same cfg answered ip i s
    have macs₁ : s₁.macs = s.macs := by
      simp [Wlan.IpacmWlan.macs, num₁, (same₁ _).mac]
    have found := index_of_nodup (s := s₁) (by rwa [macs₁]) (i := i) (by rw [num₁]; exact below i (by simp))
    have post₁ := msgPost_posts memory this up found posted
    -- the rest of the loop sees the record at `i` without addresses, and the others as they were
    have at_i : (s₁.update i (forgetWlan ip)).wlanClient i = forgetWlan ip (s₁.wlanClient i) := by
      simp [Wlan.IpacmWlan.update]
    have other : ∀ j ≠ i, (s₁.update i (forgetWlan ip)).wlanClient j = s₁.wlanClient j := by
      intro j ne
      simp [Wlan.IpacmWlan.update, ne]
    have mac₂ : ∀ j, ((s₁.update i (forgetWlan ip)).wlanClient j).mac = (s₁.wlanClient j).mac := by
      intro j
      by_cases ne : j = i
      · rw [ne, at_i, forgetWlan_mac]
      · rw [other j ne]
    have macs₂ : (s₁.update i (forgetWlan ip)).macs = s.macs := by
      rw [← macs₁]
      simp only [Wlan.IpacmWlan.macs, mac₂]
      rfl
    obtain ⟨s', run, num, forgotten, same⟩ := ih (s₁.update i (forgetWlan ip))
      (posted ++ (wlanAddrs ip (s₁.wlanClient i)).map fun a => .ipaLanClientDisconnect (.of this a))
      once (fun k member => lt_of_lt_of_eq (below k (by simp [member])) num₁.symm) (by rwa [macs₂])
    have later : ∀ k ∈ rest, k ≠ i := fun k member is => not_later (is ▸ member)
    have events : rest.flatMap (fun k => (wlanAddrs ip ((s₁.update i (forgetWlan ip)).wlanClient k)).map
        fun a => LanEvent.ipaLanClientDisconnect (.of this a)) =
        rest.flatMap fun k => (wlanAddrs ip (s.wlanClient k)).map fun a =>
          .ipaLanClientDisconnect (.of this a) :=
      List.flatMap_congr fun k member => by rw [other k (later k member), (same₁ k).addrs]
    refine ⟨s', ?_, num.trans num₁, ?_, ?_⟩
    · rw [events, List.append_assoc, (same₁ i).addrs] at run
      rw [(same₁ i).addrs] at post₁
      simp only [resetWlanClients, deleted, post₁, run, List.flatMap_cons]
    · intro k member
      rcases List.mem_cons.mp member with rfl | member
      · rw [(same k not_later).addrs, at_i, forgetWlan_addrs]
      · exact forgotten k member
    · intro j absent
      obtain ⟨ne, absent⟩ := not_or.mp (fun either => absent (List.mem_cons.mpr either))
      have from₂ := same j absent
      refine ⟨?_, fun ip' => ?_⟩
      · rw [from₂.mac, other j ne, (same₁ j).mac]
      · rw [from₂.addrs, other j ne, (same₁ j).addrs]

end WlanLoop

/-! ### The Ethernet table -/

/-- What an event of an Ethernet interface carries of an address. -/
def sentOf : IpAddr → IpAddr
  | .v4 a => .v4 a
  | .v6 a => .v6 (firstWord a)

theorem disconnectMsgs_eq (this : I) (ip : Wan.IpaIpType) (c : EthClient) :
    disconnectMsgs this ip c = (ethAddrs ip c).map fun a => .ipaLanClientDisconnect (.of this (sentOf a)) := by
  cases ip with
  | v4 => by_cases set : c.ipv4Set = true <;> simp [disconnectMsgs, ethAddrs, set, sentOf]
  | v6 => simp [disconnectMsgs, ethAddrs, sentOf, Function.comp_def]

theorem ethAddrs_family {ip : Wan.IpaIpType} {c : EthClient} {a : IpAddr} (member : a ∈ ethAddrs ip c) :
    familyOf a = ofWan ip := by
  cases ip with
  | v4 =>
    rw [ethAddrs] at member
    split at member
    · obtain rfl := List.mem_singleton.mp member
      rfl
    · simp at member
  | v6 =>
    obtain ⟨j, -, rfl⟩ := List.mem_map.mp member
    rfl

/-- The records differ in what the rules are about only. -/
structure EthSame (s s' : IpacmLan) : Prop where
  num : s'.numEthClient = s.numEthClient
  mac : ∀ j, (s'.ethClient j).mac = (s.ethClient j).mac
  addrs : ∀ ip j, ethAddrs ip (s'.ethClient j) = ethAddrs ip (s.ethClient j)

theorem EthSame.trans {s s' s'' : IpacmLan} (first : EthSame s s') (second : EthSame s' s'') :
    EthSame s s'' where
  num := second.num.trans first.num
  mac j := (second.mac j).trans (first.mac j)
  addrs ip j := (second.addrs ip j).trans (first.addrs ip j)

section LanLoop

variable (cfg : Lan.Iface) {d : Lan.Driver} (answered : ∀ n, d.outcome n ≠ .noMemory)
  (ip : Wan.IpaIpType)

include answered in
/-- Only a lack of memory stops a deletion, and the table stays as it is. -/
theorem eth_deleteRules (i : Nat) (slots : List Wlan.RtSlot) : ∀ s : IpacmLan,
    ∃ s', Lan.deleteRules d i ip slots s = (true, s') ∧ s'.ethClient = s.ethClient ∧
      s'.numEthClient = s.numEthClient := by
  induction slots with
  | nil => exact fun s => ⟨s, rfl, rfl, rfl⟩
  | cons slot slots ih =>
    intro s
    obtain ⟨s₁, deleted, clients, num⟩ : ∃ s₁,
        Lan.deleteRoutingHdl d ((s.ethClient i).ethRtHdl slot) ip s = (true, s₁) ∧
        s₁.ethClient = s.ethClient ∧ s₁.numEthClient = s.numEthClient := by
      rw [Lan.deleteRoutingHdl]
      split
      · exact ⟨s, rfl, rfl, rfl⟩
      · rcases outcome : d.outcome s.attempts with _ | _ | _
        · exact ⟨_, rfl, rfl, rfl⟩
        · exact ⟨_, rfl, rfl, rfl⟩
        · exact absurd outcome (answered s.attempts)
    obtain ⟨s', run, clients', num'⟩ := ih s₁
    exact ⟨s', by simp only [Lan.deleteRules, deleted, run], clients'.trans clients, num'.trans num⟩

include answered in
theorem deleteAllEthRtrules_same (indices : List Nat) : ∀ s : IpacmLan,
    ∃ s', deleteAllEthRtrules cfg d ip indices s = (true, s') ∧ EthSame s s' := by
  induction indices with
  | nil => exact fun s => ⟨s, rfl, rfl, fun _ => rfl, fun _ _ => rfl⟩
  | cons i rest ih =>
    intro s
    obtain ⟨s₁, rules, clients, num⟩ :=
      eth_deleteRules answered ip i ((s.ethClient i).covered cfg ip) s
    obtain ⟨s', run, same⟩ := ih (s₁.update i (EthClient.clearRouteRules ip))
    have here : EthSame s (s₁.update i (EthClient.clearRouteRules ip)) := by
      refine ⟨num, fun j => ?_, fun ip' j => ?_⟩ <;> by_cases this : j = i
      · subst this
        cases ip <;> simp [Lan.IpacmLan.update, clients, EthClient.clearRouteRules]
      · simp [Lan.IpacmLan.update, this, clients]
      · subst this
        cases ip <;> cases ip' <;>
          simp [Lan.IpacmLan.update, clients, EthClient.clearRouteRules, ethAddrs]
      · simp [Lan.IpacmLan.update, this, clients]
    exact ⟨s', by simp only [deleteAllEthRtrules, Lan.deleteEthRtrules, rules, run], here.trans same⟩

/-- After the last loop no record in its range has an address of the family. -/
theorem forgetEth_all (indices : List Nat) (s : IpacmLan) :
    (indices.foldl (fun s i => s.update i (forgetEth ip)) s).numEthClient = s.numEthClient ∧
    ∀ j, (j ∈ indices ∨ ethAddrs ip (s.ethClient j) = []) →
      ethAddrs ip ((indices.foldl (fun s i => s.update i (forgetEth ip)) s).ethClient j) = [] := by
  induction indices generalizing s with
  | nil => exact ⟨rfl, fun j in' => in'.resolve_left (by simp)⟩
  | cons i rest ih =>
    obtain ⟨num, forgotten⟩ := ih (s.update i (forgetEth ip))
    refine ⟨num, fun j in' => forgotten j ?_⟩
    by_cases this : j = i
    · subst this
      right
      cases ip <;> simp [Lan.IpacmLan.update, forgetEth, ethAddrs]
    · rcases in' with member | none'
      · exact .inl ((List.mem_cons.mp member).resolve_left this)
      · right
        simpa [Lan.IpacmLan.update, this] using none'

end LanLoop

/-! ### The two resets -/

/-- Whether a reset withdraws what a table holds of a family, in order and nothing else, and
forgets it. -/
def Withdrawn {σ : Type} (mallocs : Nat → Bool) (this : I) (ipType : Option IpaIpType)
    (held : σ → List (Wlan.MacAddr × IpAddr)) (s : σ) (result : Bool × σ × List (LanEvent I)) : Prop :=
  result.1 = true ∧ List.Forall₂ (Withdraws mallocs this ipType) (held s) result.2.2 ∧
    held result.2.1 = []

/-- An interface that sends `sent a` for every address `a` withdraws those it sends as they are. -/
theorem forall₂_withdraws (memory : ∀ n, mallocs n = true) (this : I)
    {ipType : Option IpaIpType} {held : List (Wlan.MacAddr × IpAddr)} {sent : IpAddr → IpAddr}
    (family : ∀ a, familyOf (sent a) = familyOf a) (up : ∀ h ∈ held, isUp ipType (familyOf h.2) = true) :
    List.Forall₂ (Withdraws mallocs this ipType) held
        (held.map fun h => .ipaLanClientDisconnect (.of this (sent h.2))) ↔ ∀ h ∈ held, sent h.2 = h.2 := by
  rw [List.forall₂_map_right_iff, List.forall₂_same]
  exact forall₂_congr fun h member => withdraws_iff memory this (up h member) (family h.2)

section Resets

variable (this : I) {mallocs : Nat → Bool} (memory : ∀ n, mallocs n = true) {ip : Wan.IpaIpType}
  {ipType : Option IpaIpType} (up : isUp ipType (ofWan ip) = true)

include memory up

theorem handleWlanClientResetRt_withdrawn (cfg : Wlan.Iface) {driver : Wlan.Driver}
    (answered : ∀ n, driver.outcome n ≠ .noMemory) {w : IpacmWlan} (distinct : w.macs.Nodup) :
    Withdrawn mallocs this ipType (wlanHeld ip) w
      (handleWlanClientResetRt cfg driver mallocs this ipType ip w) := by
  obtain ⟨w', run, num, forgotten, -⟩ := resetWlanClients_posts cfg answered memory
    this up (List.range w.numWifiClient) w [] List.nodup_range (by simp) distinct
  have posted : (List.range w.numWifiClient).flatMap (fun i => (wlanAddrs ip (w.wlanClient i)).map fun a =>
      LanEvent.ipaLanClientDisconnect (.of this a)) =
      (wlanHeld ip w).map fun h => .ipaLanClientDisconnect (.of this (id h.2)) := by
    simp [wlanHeld, List.map_flatMap, Function.comp_def]
  rw [handleWlanClientResetRt, run, List.nil_append, posted]
  refine ⟨rfl, (forall₂_withdraws memory this (fun _ => rfl) ?_).mpr fun _ _ => rfl, ?_⟩
  · intro h member
    obtain ⟨i, -, a, here, rfl⟩ := mem_wlanHeld.mp member
    rw [wlanAddrs_family here]
    exact up
  · rw [wlanHeld, num, List.flatMap_eq_nil_iff]
    intro i member
    rw [forgotten i member, List.map_nil]

omit up in
/-- The reset posts one message for each address, with the words that are copied, and forgets the
addresses. -/
theorem handleLanClientResetRt_posts (cfg : Lan.Iface) {driver : Lan.Driver}
    (answered : ∀ n, driver.outcome n ≠ .noMemory) (s : IpacmLan) :
    ∃ s', handleLanClientResetRt cfg driver mallocs this ip s =
        (true, s', (ethHeld ip s).map fun h => .ipaLanClientDisconnect (.of this (sentOf h.2))) ∧
      ethHeld ip s' = [] := by
  obtain ⟨s₁, deleted, same⟩ := deleteAllEthRtrules_same cfg answered ip (List.range s.numEthClient) s
  obtain ⟨num, forgotten⟩ := forgetEth_all ip (List.range s₁.numEthClient) s₁
  have posted : (List.range s₁.numEthClient).flatMap (fun i => disconnectMsgs this ip (s₁.ethClient i)) =
      (ethHeld ip s).map fun h => .ipaLanClientDisconnect (.of this (sentOf h.2)) := by
    simp [ethHeld, disconnectMsgs_eq, same.num, same.addrs, List.map_flatMap, Function.comp_def]
  refine ⟨(List.range s₁.numEthClient).foldl (fun s i => s.update i (forgetEth ip)) s₁, ?_, ?_⟩
  · simp only [handleLanClientResetRt, deleted, postLan2lanClientDisconnectMsg, posted,
      postAll_succeeds memory, List.nil_append]
  · rw [ethHeld, num, List.flatMap_eq_nil_iff]
    intro i member
    rw [forgotten i (.inl member), List.map_nil]

theorem handleLanClientResetRt_withdrawn_iff (cfg : Lan.Iface) {driver : Lan.Driver}
    (answered : ∀ n, driver.outcome n ≠ .noMemory) (s : IpacmLan) :
    Withdrawn mallocs this ipType (ethHeld ip) s (handleLanClientResetRt cfg driver mallocs this ip s) ↔
      ∀ i < s.numEthClient, ∀ a, .v6 a ∈ ethAddrs ip (s.ethClient i) → a = firstWord a := by
  obtain ⟨s', run, none_left⟩ : ∃ s', handleLanClientResetRt cfg driver mallocs this ip s =
      (true, s', (ethHeld ip s).map fun h => .ipaLanClientDisconnect (.of this (sentOf h.2))) ∧
        ethHeld ip s' = [] :=
    handleLanClientResetRt_posts this memory cfg answered s
  have up' : ∀ h ∈ ethHeld ip s, isUp ipType (familyOf h.2) = true := by
    intro h member
    obtain ⟨i, -, a, here, rfl⟩ := mem_ethHeld.mp member
    rw [ethAddrs_family here]
    exact up
  rw [run, Withdrawn, forall₂_withdraws memory this (fun a => by cases a <;> rfl) up']
  simp only [none_left, and_true, true_and]
  constructor
  · intro carried i below a member
    have kept := carried ((s.ethClient i).mac, .v6 a) (mem_ethHeld.mpr ⟨i, below, _, member, rfl⟩)
    exact (IpAddr.v6.inj kept).symm
  · intro plain h member
    obtain ⟨i, below, a, here, rfl⟩ := mem_ethHeld.mp member
    -- an IPv4 address is sent as it is, an IPv6 address by its first word
    cases a with
    | v4 a => rfl
    | v6 a => exact congrArg IpAddr.v6 (plain i below a here).symm

end Resets

/-- A Wi-Fi interface withdraws every address. An Ethernet interface withdraws the IPv4 addresses,
and of the IPv6 addresses those that have no bit set behind the first word. -/
theorem announcements_withdrawn_iff (this : I) {mallocs : Nat → Bool} (memory : ∀ n, mallocs n = true)
    (ip : Wan.IpaIpType) (ipType : Option IpaIpType) (up : isUp ipType (ofWan ip) = true)
    (wlanCfg : Wlan.Iface) (wlanDriver : Wlan.Driver) (answered : ∀ n, wlanDriver.outcome n ≠ .noMemory)
    (w : IpacmWlan) (distinct : w.macs.Nodup) (lanCfg : Lan.Iface) (lanDriver : Lan.Driver)
    (answered' : ∀ n, lanDriver.outcome n ≠ .noMemory) (s : IpacmLan) :
    Withdrawn mallocs this ipType (wlanHeld ip) w
        (handleWlanClientResetRt wlanCfg wlanDriver mallocs this ipType ip w) ∧
    (Withdrawn mallocs this ipType (ethHeld ip) s (handleLanClientResetRt lanCfg lanDriver mallocs this ip s) ↔
      ∀ i < s.numEthClient, ∀ a, .v6 a ∈ ethAddrs ip (s.ethClient i) → a = firstWord a) :=
  ⟨handleWlanClientResetRt_withdrawn this memory up wlanCfg answered distinct,
    handleLanClientResetRt_withdrawn_iff this memory up lanCfg answered' s⟩

/-! ### Samples -/

/-- A driver that grants everything. -/
def sampleDriver : Lan.Driver where
  outcome _ := .ok
  hdrHandle ledger := ledger.length.toUInt32 + 1
  rtHandle ledger := ledger.length.toUInt32 + 1
  copyHeader _ := none

def sampleWlanDriver : Wlan.Driver where
  outcome _ := .ok
  hdrHandle ledger := ledger.length.toUInt32 + 1
  rtHandle ledger := ledger.length.toUInt32 + 1
  copyHeader _ := none

/-- One client with an address of each family. -/
def sampleEth : IpacmLan where
  ethClient _ := {
    mac := #v[2, 0, 0, 0, 1, 1]
    ipv4Set := true, v4Addr := 0xc0a80102
    ipv6Set := 1, v6Addr := fun _ => #v[0x20010db8, 1, 0, 0x42] }
  numEthClient := 1

def sampleWlan : IpacmWlan where
  wlanClient _ := {
    mac := #v[2, 0, 0, 0, 1, 1]
    ipv4Set := true, v4Addr := 0xc0a80102
    ipv6Set := 1, v6Addr := fun _ => #v[0x20010db8, 1, 0, 0x42] }
  numWifiClient := 1

theorem announcements_withdrawn_iff_sample :
    Withdrawn (fun _ => true) 7 (some .max) (wlanHeld .v4) sampleWlan
        (handleWlanClientResetRt ⟨0, []⟩ sampleWlanDriver (fun _ => true) 7 (some .max) .v4 sampleWlan) ∧
    Withdrawn (fun _ => true) 7 (some .max) (ethHeld .v4) sampleEth
        (handleLanClientResetRt { ipaIfNum := 0, txProp := [] } sampleDriver (fun _ => true) 7 .v4 sampleEth) := by
  have withdrawn := announcements_withdrawn_iff 7 (fun _ => rfl : ∀ n, (fun _ : Nat => true) n = true) .v4
    (some .max) rfl ⟨0, []⟩ sampleWlanDriver (fun _ => by simp [sampleWlanDriver]) sampleWlan (by decide)
    { ipaIfNum := 0, txProp := [] } sampleDriver (fun _ => by simp [sampleDriver]) sampleEth
  exact ⟨withdrawn.1, withdrawn.2.mpr (by simp [ethAddrs, sampleEth])⟩

/-- The address is announced with four words and withdrawn with the first one only. -/
theorem ipv6_addr_cut_short :
    ¬ Withdrawn (fun _ => true) 7 (some .max) (ethHeld .v6) sampleEth
      (handleLanClientResetRt { ipaIfNum := 0, txProp := [] } sampleDriver (fun _ => true) 7 .v6 sampleEth) := by
  rintro ⟨-, withdraws, -⟩
  have withdraws : List.Forall₂ (Withdraws (fun _ => true) 7 (some .max))
      [(#v[2, 0, 0, 0, 1, 1], .v6 #v[0x20010db8, 1, 0, 0x42])]
      [.ipaLanClientDisconnect (.of 7 (.v6 #v[0x20010db8, 0, 0, 0]))] := withdraws
  have carried := (withdraws_iff (b := .v6 #v[0x20010db8, 0, 0, 0]) (fun _ => rfl) 7 rfl rfl).mp
    (List.forall₂_cons.mp withdraws).1
  exact absurd (IpAddr.v6.inj carried) (by decide)

end Hima.LanToLan
