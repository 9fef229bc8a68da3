import Hima.Wan.Firewall

/-!
# Wi-Fi clients and the driver

The table of clients of one `IPACM_Wlan` and the calls that it makes on `m_header` and `m_routing`.
-/
namespace Hima.Wlan

open Wan (IpaIpType RuleAttrib)

abbrev MacAddr := Vector UInt8 6

/-- The four words of an IPv6 address. -/
abbrev V6Addr := Vector UInt32 4

/-- `IPA_MAX_NUM_WIFI_CLIENTS` -/
def maxNumWifiClients : Nat := 32

/-- `IPV6_NUM_ADDR` -/
def ipv6NumAddr : Nat := 3

/-- An entry of `tx_prop->tx`. -/
structure TxProp where
  ip : IpaIpType
  hdrName : String
  dstPipe : Nat
  attrib : RuleAttrib

/-- The constants of an interface; without properties `tx_prop` is `NULL`. -/
structure Iface where
  ipaIfNum : Nat
  txProp : List TxProp

/-- The value of an `ipa_wlan_hdr_attrib_val` -/
inductive HdrAttribVal where
  | macAddr (mac : MacAddr)
  | staId (id : UInt8)
  | other

structure HdrAttrib where
  offset : Nat
  val : HdrAttribVal

/-- A place for a handle in `wifi_rt_hdl[tx]`: `wifi_rt_rule_hdl_v4`, `wifi_rt_rule_hdl_v6[num]` or
`wifi_rt_rule_hdl_v6_wan[num]`. -/
inductive RtSlot where
  | v4 (tx : Nat)
  | v6 (tx num : Nat)
  | v6Wan (tx num : Nat)
deriving DecidableEq

/-- `ipa_wlan_client` -/
structure IpaWlanClient where
  pHdrInfo : Option (List HdrAttrib) := none
  mac : MacAddr := .replicate 6 0
  v4Addr : UInt32 := 0
  v6Addr : Nat → V6Addr := fun _ => .replicate 4 0
  hdrHdlV4 : UInt32 := 0
  hdrHdlV6 : UInt32 := 0
  routeRuleSetV4 : Bool := false
  routeRuleSetV6 : Nat := 0
  ipv4Set : Bool := false
  ipv6Set : Nat := 0
  ipv4HeaderSet : Bool := false
  ipv6HeaderSet : Bool := false
  powerSaveSet : Bool := false
  wifiRtHdl : RtSlot → UInt32 := fun _ => 0

/-! ### The driver -/

/-- The header that is handed to `AddHeader`. -/
structure HdrAdd where
  name : String
  hdr : List UInt8

/-- The routing tables of `IPACM_Config` for clients. -/
inductive RtTable where
  | lanV4
  | v6
  | wanV6
deriving DecidableEq

/-- Where a rule sends its packets. -/
inductive RtDst where
  | appsLanCons
  | pipe (n : Nat)
deriving DecidableEq

/-- The rule that is handed to `AddRoutingRule`. -/
structure RtRule where
  ip : IpaIpType
  table : RtTable
  atRear : Bool := false
  dst : RtDst
  hdrHdl : UInt32
  attrib : RuleAttrib

/-- What the driver has done, with the client and the place that a rule is for. -/
inductive Call where
  | addHdr (hdr : HdrAdd) (hdl : UInt32)
  | delHdr (hdl : UInt32) (done : Bool)
  | addRt (mac : MacAddr) (slot : RtSlot) (rule : RtRule) (hdl : UInt32)
  | delRt (ip : IpaIpType) (hdl : UInt32) (done : Bool)

/-- How a call ends. Only `DeleteRoutingHdl` tells a refusal from a lack of memory. -/
inductive Outcome where
  | ok
  | refused
  | noMemory
deriving DecidableEq

/-- A pattern of outcomes, one for each call, and the handles the kernel hands out. -/
structure Driver where
  outcome : Nat → Outcome
  hdrHandle : List Call → UInt32
  rtHandle : List Call → UInt32
  /-- `CopyHeader`; `none` when it fails or the header is longer than `IPA_HDR_MAX_SIZE`. -/
  copyHeader : String → Option (List UInt8)

/-- `IPACM_Wlan`. `others` are the clients of the other interfaces in `total_num_wifi_clients`. -/
structure IpacmWlan where
  wlanClient : Nat → IpaWlanClient := fun _ => {}
  numWifiClient : Nat := 0
  headerNameCount : Nat := 0
  others : Nat := 0
  attempts : Nat := 0
  /-- The calls that the driver answered, the latest first. -/
  ledger : List Call := []

/-- Changes the record at an index. -/
def IpacmWlan.update (s : IpacmWlan) (i : Nat) (f : IpaWlanClient → IpaWlanClient) : IpacmWlan :=
  { s with wlanClient := Function.update s.wlanClient i (f (s.wlanClient i)) }

/-- `IPACM_Header::AddHeader`, with the status of the header -/
def addHeader (d : Driver) (s : IpacmWlan) (hdr : HdrAdd) : Option UInt32 × IpacmWlan :=
  match d.outcome s.attempts with
  | .ok => (some (d.hdrHandle s.ledger), { s with
      attempts := s.attempts + 1, ledger := .addHdr hdr (d.hdrHandle s.ledger) :: s.ledger })
  | _ => (none, { s with attempts := s.attempts + 1 })

/-- `IPACM_Header::DeleteHeaderHdl` -/
def deleteHeaderHdl (d : Driver) (s : IpacmWlan) (hdl : UInt32) : Bool × IpacmWlan :=
  if hdl = 0 then (false, s)
  else match d.outcome s.attempts with
  | .ok => (true, { s with attempts := s.attempts + 1, ledger := .delHdr hdl true :: s.ledger })
  | .refused => (false, { s with attempts := s.attempts + 1, ledger := .delHdr hdl false :: s.ledger })
  | .noMemory => (false, { s with attempts := s.attempts + 1 })

/-- `IPACM_Routing::AddRoutingRule` -/
def addRoutingRule (d : Driver) (s : IpacmWlan) (mac : MacAddr) (slot : RtSlot) (rule : RtRule) :
    Option UInt32 × IpacmWlan :=
  match d.outcome s.attempts with
  | .ok => (some (d.rtHandle s.ledger), { s with
      attempts := s.attempts + 1, ledger := .addRt mac slot rule (d.rtHandle s.ledger) :: s.ledger })
  | _ => (none, { s with attempts := s.attempts + 1 })

/-- `IPACM_Routing::DeleteRoutingHdl`. `goto fail` skips `res = false`: a rule that the driver has
refused to delete counts as deleted. -/
def deleteRoutingHdl (d : Driver) (s : IpacmWlan) (hdl : UInt32) (ip : IpaIpType) : Bool × IpacmWlan :=
  if hdl = 0 then (true, s)
  else match d.outcome s.attempts with
  | .ok => (true, { s with attempts := s.attempts + 1, ledger := .delRt ip hdl true :: s.ledger })
  | .refused => (true, { s with attempts := s.attempts + 1, ledger := .delRt ip hdl false :: s.ledger })
  | .noMemory => (false, { s with attempts := s.attempts + 1 })

/-! ### Looking up and installing -/

/-- `get_wlan_client_index` -/
def IpacmWlan.getWlanClientIndex (s : IpacmWlan) (mac : MacAddr) : Option Nat :=
  (List.range s.numWifiClient).find? fun i => (s.wlanClient i).mac = mac

/-- The indices of the properties of a family. -/
def Iface.txOf (cfg : Iface) (ip : IpaIpType) : List Nat :=
  (List.range cfg.txProp.length).filter fun tx => (cfg.txProp[tx]?.map TxProp.ip) = some ip

/-- The places that the loops over properties visit for IPv4. -/
def Iface.slotsV4 (cfg : Iface) : List RtSlot := (cfg.txOf .v4).map .v4

/-- The places that the loops over properties and addresses visit for IPv6. -/
def Iface.slotsV6 (cfg : Iface) (first last : Nat) : List RtSlot :=
  (cfg.txOf .v6).flatMap fun tx =>
    (List.range' first (last - first)).flatMap fun num => [.v6 tx num, .v6Wan tx num]

/-- The attributes of a property with a destination added. -/
def withDstV4 (attrib : RuleAttrib) (addr : UInt32) : RuleAttrib :=
  { attrib with
    attribMask := insert .dstAddr attrib.attribMask
    v4 := { attrib.v4 with dstAddr := addr, dstAddrMask := 0xffffffff } }

def withDstV6 (attrib : RuleAttrib) (addr : V6Addr) : RuleAttrib :=
  { attrib with
    attribMask := insert .dstAddr attrib.attribMask
    v6 := { attrib.v6 with dstAddr := addr, dstAddrMask := .replicate 4 0xffffffff } }

/-- The rule that `handle_wlan_client_route_rule` installs for a place. -/
def IpaWlanClient.ruleOf (cfg : Iface) (c : IpaWlanClient) : RtSlot → RtRule
  | .v4 tx =>
    { ip := .v4, table := .lanV4, dst := .pipe ((cfg.txProp[tx]?.map TxProp.dstPipe).getD 0)
      hdrHdl := c.hdrHdlV4
      attrib := withDstV4 ((cfg.txProp[tx]?.map TxProp.attrib).getD {}) c.v4Addr }
  | .v6 _ num =>
    { ip := .v6, table := .v6, dst := .appsLanCons, hdrHdl := 0
      attrib := withDstV6 {} (c.v6Addr num) }
  | .v6Wan tx num =>
    { ip := .v6, table := .wanV6, dst := .pipe ((cfg.txProp[tx]?.map TxProp.dstPipe).getD 0)
      hdrHdl := c.hdrHdlV6
      attrib := withDstV6 ((cfg.txProp[tx]?.map TxProp.attrib).getD {}) (c.v6Addr num) }

def IpaWlanClient.setRtHdl (slot : RtSlot) (hdl : UInt32) (c : IpaWlanClient) : IpaWlanClient :=
  { c with wifiRtHdl := Function.update c.wifiRtHdl slot hdl }

/-- Adds the rules of the places one after the other; stops at the first failure. -/
def addRules (cfg : Iface) (d : Driver) (i : Nat) : List RtSlot → IpacmWlan → Bool × IpacmWlan
  | [], s => (true, s)
  | slot :: slots, s =>
    match addRoutingRule d s (s.wlanClient i).mac slot ((s.wlanClient i).ruleOf cfg slot) with
    | (none, s) => (false, s)
    | (some hdl, s) => addRules cfg d i slots (s.update i (IpaWlanClient.setRtHdl slot hdl))

/-- Deletes the rules of the places one after the other; stops at the first failure. -/
def deleteRules (d : Driver) (i : Nat) (ip : IpaIpType) : List RtSlot → IpacmWlan → Bool × IpacmWlan
  | [], s => (true, s)
  | slot :: slots, s =>
    match deleteRoutingHdl d s ((s.wlanClient i).wifiRtHdl slot) ip with
    | (false, s) => (false, s)
    | (true, s) => deleteRules d i ip slots s

/-- The places that the flag or the count of a family covers. -/
def IpaWlanClient.covered (cfg : Iface) (c : IpaWlanClient) : IpaIpType → List RtSlot
  | .v4 => if c.routeRuleSetV4 then cfg.slotsV4 else []
  | .v6 => cfg.slotsV6 0 c.routeRuleSetV6

def IpaWlanClient.clearRouteRules (ip : IpaIpType) (c : IpaWlanClient) : IpaWlanClient :=
  match ip with
  | .v4 => { c with routeRuleSetV4 := false }
  | .v6 => { c with routeRuleSetV6 := 0 }

/-- `delete_default_qos_rtrules` -/
def deleteDefaultQosRtrules (cfg : Iface) (d : Driver) (i : Nat) (ip : IpaIpType) (s : IpacmWlan) :
    Bool × IpacmWlan :=
  match deleteRules d i ip ((s.wlanClient i).covered cfg ip) s with
  | (false, s) => (false, s)
  | (true, s) => (true, s.update i (IpaWlanClient.clearRouteRules ip))

end Hima.Wlan
