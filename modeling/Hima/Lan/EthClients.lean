import Hima.Wlan.Handlers

/-!
# Ethernet clients

The table of clients of one `IPACM_Lan`, the calls that it makes on `m_header` and `m_routing`, and
the handlers of its client events. What the source keeps twice, once for each family, is here a
function of the family.
-/
namespace Hima.Lan

open Wan (IpaIpType RuleAttrib)
open Wlan (MacAddr V6Addr TxProp HdrAdd RtSlot RtRule Outcome IpAddr)

/-- `IPA_MAX_NUM_ETH_CLIENTS` -/
def maxNumEthClients : Nat := 15

/-- `IPV6_NUM_ADDR` -/
def ipv6NumAddr : Nat := 3

/-- The constants of an interface. An ODU interface has its own IPv4 header for all clients;
`rxProp` is `rx_prop->rx[0].attrib`, and `none` a `rx_prop` that is `NULL`. -/
structure Iface extends Wlan.Iface where
  oduHdrHdlV4 : Option UInt32 := none
  rxProp : Option RuleAttrib := none

/-- `ipa_eth_client` -/
structure EthClient where
  mac : MacAddr := .replicate 6 0
  v4Addr : UInt32 := 0
  v6Addr : Nat → V6Addr := fun _ => .replicate 4 0
  hdrHdl : IpaIpType → UInt32 := fun _ => 0
  routeRuleSetV4 : Bool := false
  routeRuleSetV6 : Nat := 0
  ipv4Set : Bool := false
  ipv6Set : Nat := 0
  headerSet : IpaIpType → Bool := fun _ => false
  ethRtHdl : RtSlot → UInt32 := fun _ => 0

/-! ### The driver -/

/-- What the driver has done, with the client that it was for. -/
inductive Call where
  | addHdr (mac : MacAddr) (ip : IpaIpType) (hdr : HdrAdd) (hdl : UInt32)
  | delHdr (hdl : UInt32) (done : Bool)
  | addRt (mac : MacAddr) (slot : RtSlot) (rule : RtRule) (hdl : UInt32)
  | delRt (ip : IpaIpType) (hdl : UInt32) (done : Bool)

/-- What `CopyHeader` gives. The offset is there when `is_eth2_ofst_valid` is set. -/
structure PartialHdr where
  hdr : List UInt8
  eth2Ofst : Option Nat

/-- A pattern of outcomes, one for each call, and the handles the kernel hands out. -/
structure Driver where
  outcome : Nat → Outcome
  hdrHandle : List Call → UInt32
  rtHandle : List Call → UInt32
  /-- `CopyHeader`; `none` when it fails or the header is longer than `IPA_HDR_MAX_SIZE`. -/
  copyHeader : String → Option PartialHdr

/-- `IPACM_Lan` -/
structure IpacmLan where
  ethClient : Nat → EthClient := fun _ => {}
  numEthClient : Nat := 0
  headerNameCount : Nat := 0
  attempts : Nat := 0
  /-- The calls that the driver answered, the latest first. -/
  ledger : List Call := []

/-- Changes the record at an index. -/
def IpacmLan.update (s : IpacmLan) (i : Nat) (f : EthClient → EthClient) : IpacmLan :=
  { s with ethClient := Function.update s.ethClient i (f (s.ethClient i)) }

/-- The driver has made a call. -/
def IpacmLan.record (s : IpacmLan) (call : Call) : IpacmLan :=
  { s with attempts := s.attempts + 1, ledger := call :: s.ledger }

/-- A call came to nothing. -/
def IpacmLan.fail (s : IpacmLan) : IpacmLan := { s with attempts := s.attempts + 1 }

/-- `IPACM_Header::AddHeader`, with the status of the header -/
def addHeader (d : Driver) (mac : MacAddr) (ip : IpaIpType) (hdr : HdrAdd) (s : IpacmLan) :
    Option UInt32 × IpacmLan :=
  match d.outcome s.attempts with
  | .ok => (some (d.hdrHandle s.ledger), s.record (.addHdr mac ip hdr (d.hdrHandle s.ledger)))
  | _ => (none, s.fail)

/-- `IPACM_Header::DeleteHeaderHdl` -/
def deleteHeaderHdl (d : Driver) (hdl : UInt32) (s : IpacmLan) : Bool × IpacmLan :=
  if hdl = 0 then (false, s)
  else match d.outcome s.attempts with
  | .ok => (true, s.record (.delHdr hdl true))
  | .refused => (false, s.record (.delHdr hdl false))
  | .noMemory => (false, s.fail)

/-- `IPACM_Routing::AddRoutingRule` -/
def addRoutingRule (d : Driver) (mac : MacAddr) (slot : RtSlot) (rule : RtRule) (s : IpacmLan) :
    Option UInt32 × IpacmLan :=
  match d.outcome s.attempts with
  | .ok => (some (d.rtHandle s.ledger), s.record (.addRt mac slot rule (d.rtHandle s.ledger)))
  | _ => (none, s.fail)

/-- `IPACM_Routing::DeleteRoutingHdl`. `goto fail` skips `res = false`: a rule that the driver has
refused to delete counts as deleted. -/
def deleteRoutingHdl (d : Driver) (hdl : UInt32) (ip : IpaIpType) (s : IpacmLan) : Bool × IpacmLan :=
  if hdl = 0 then (true, s)
  else match d.outcome s.attempts with
  | .ok => (true, s.record (.delRt ip hdl true))
  | .refused => (true, s.record (.delRt ip hdl false))
  | .noMemory => (false, s.fail)

/-! ### A new client -/

/-- `get_eth_client_index` -/
def IpacmLan.getEthClientIndex (s : IpacmLan) (mac : MacAddr) : Option Nat :=
  (List.range s.numEthClient).find? fun i => (s.ethClient i).mac = mac

/-- `IPA_ETH_HDR_NAME_v4`, `IPA_ETH_HDR_NAME_v6` -/
def ethHdrName : IpaIpType → String
  | .v4 => "IPACM_ETH_v4"
  | .v6 => "IPACM_ETH_v6"

/-- The copied header with the address of the client in it. -/
def PartialHdr.addressed (hdr : PartialHdr) (mac : MacAddr) : List UInt8 :=
  match hdr.eth2Ofst with
  | some ofst => Wlan.overlay hdr.hdr ofst mac.toList
  | none => hdr.hdr

def EthClient.setHeader (ip : IpaIpType) (hdl : UInt32) (c : EthClient) : EthClient :=
  { c with
    hdrHdl := Function.update c.hdrHdl ip hdl
    headerSet := Function.update c.headerSet ip true }

/-- The header of one family for the record at `i`, from the first property of the family. -/
def addEthHeader (cfg : Iface) (d : Driver) (i : Nat) (mac : MacAddr) (ip : IpaIpType)
    (s : IpacmLan) : Bool × IpacmLan :=
  match cfg.txProp.find? (·.ip = ip) with
  | none => (true, s)
  | some tx =>
    match d.copyHeader tx.hdrName with
    | none => (false, s)
    | some hdr =>
      -- one digit, twelve letters, one digit: within `IPA_RESOURCE_NAME_MAX`
      match addHeader d mac ip {
        name := Wlan.digit cfg.ipaIfNum ++ ethHdrName ip ++ Wlan.digit s.headerNameCount
        hdr := hdr.addressed mac } s with
      | (none, s) => (false, s)
      | (some hdl, s) => (true, s.update i (EthClient.setHeader ip hdl))

/-- The fields that a new client starts with. -/
def EthClient.init (c : EthClient) : EthClient :=
  { c with routeRuleSetV4 := false, routeRuleSetV6 := 0, ipv4Set := false, ipv6Set := 0 }

/-- `handle_eth_hdr_init` -/
def handleEthHdrInit (cfg : Iface) (d : Driver) (mac : MacAddr) (s : IpacmLan) : IpacmLan :=
  match s.getEthClientIndex mac with
  | some _ => s
  | none =>
    if maxNumEthClients ≤ s.numEthClient then s
    else
      let i := s.numEthClient
      let s := s.update i fun c => { c with mac := mac }
      if cfg.txProp = [] then s
      else
        match addEthHeader cfg d i mac .v4 s with
        | (false, s) => s
        | (true, s) =>
          match addEthHeader cfg d i mac .v6 s with
          | (false, s) => s
          | (true, s) =>
            let s := s.update i EthClient.init
            { s with numEthClient := s.numEthClient + 1, headerNameCount := s.headerNameCount + 1 }

/-! ### Routing rules -/

/-- The rule that `handle_eth_client_route_rule` installs for a place. -/
def EthClient.ruleOf (cfg : Iface) (c : EthClient) : RtSlot → RtRule
  | .v4 tx =>
    { ip := .v4, table := .lanV4, dst := .pipe ((cfg.txProp[tx]?.map TxProp.dstPipe).getD 0)
      hdrHdl := cfg.oduHdrHdlV4.getD (c.hdrHdl .v4)
      attrib := Wlan.withDstV4 ((cfg.txProp[tx]?.map TxProp.attrib).getD {}) c.v4Addr }
  | .v6 _ num =>
    -- the header of an ODU interface is set first and then overwritten
    { ip := .v6, table := .v6, dst := .appsLanCons, hdrHdl := 0
      attrib := Wlan.withDstV6 {} (c.v6Addr num) }
  | .v6Wan tx num =>
    { ip := .v6, table := .wanV6, dst := .pipe ((cfg.txProp[tx]?.map TxProp.dstPipe).getD 0)
      hdrHdl := c.hdrHdl .v6
      attrib := Wlan.withDstV6 ((cfg.txProp[tx]?.map TxProp.attrib).getD {}) (c.v6Addr num) }

def EthClient.setRtHdl (slot : RtSlot) (hdl : UInt32) (c : EthClient) : EthClient :=
  { c with ethRtHdl := Function.update c.ethRtHdl slot hdl }

/-- Adds the rules of the places one after the other; stops at the first failure. -/
def addRules (cfg : Iface) (d : Driver) (i : Nat) : List RtSlot → IpacmLan → Bool × IpacmLan
  | [], s => (true, s)
  | slot :: slots, s =>
    match addRoutingRule d (s.ethClient i).mac slot ((s.ethClient i).ruleOf cfg slot) s with
    | (none, s) => (false, s)
    | (some hdl, s) => addRules cfg d i slots (s.update i (EthClient.setRtHdl slot hdl))

/-- Deletes the rules of the places one after the other; stops at the first failure. -/
def deleteRules (d : Driver) (i : Nat) (ip : IpaIpType) : List RtSlot → IpacmLan → Bool × IpacmLan
  | [], s => (true, s)
  | slot :: slots, s =>
    match deleteRoutingHdl d ((s.ethClient i).ethRtHdl slot) ip s with
    | (false, s) => (false, s)
    | (true, s) => deleteRules d i ip slots s

/-- The places that the flag or the count of a family covers. -/
def EthClient.covered (cfg : Iface) (c : EthClient) : IpaIpType → List RtSlot
  | .v4 => if c.routeRuleSetV4 then cfg.slotsV4 else []
  | .v6 => cfg.slotsV6 0 c.routeRuleSetV6

def EthClient.clearRouteRules (ip : IpaIpType) (c : EthClient) : EthClient :=
  match ip with
  | .v4 => { c with routeRuleSetV4 := false }
  | .v6 => { c with routeRuleSetV6 := 0 }

/-- `delete_eth_rtrules` -/
def deleteEthRtrules (cfg : Iface) (d : Driver) (i : Nat) (ip : IpaIpType) (s : IpacmLan) :
    Bool × IpacmLan :=
  match deleteRules d i ip ((s.ethClient i).covered cfg ip) s with
  | (false, s) => (false, s)
  | (true, s) => (true, s.update i (EthClient.clearRouteRules ip))

/-- The places that `handle_eth_client_route_rule` fills. -/
def EthClient.missing (cfg : Iface) (c : EthClient) : IpaIpType → List RtSlot
  | .v4 => cfg.slotsV4
  | .v6 => cfg.slotsV6 c.routeRuleSetV6 c.ipv6Set

def EthClient.lacksRules (c : EthClient) : IpaIpType → Prop
  | .v4 => c.routeRuleSetV4 = false ∧ c.ipv4Set = true
  | .v6 => c.routeRuleSetV6 < c.ipv6Set

instance (c : EthClient) (ip : IpaIpType) : Decidable (c.lacksRules ip) := by
  cases ip <;> unfold EthClient.lacksRules <;> infer_instance

def EthClient.setRouteRules (ip : IpaIpType) (c : EthClient) : EthClient :=
  match ip with
  | .v4 => { c with routeRuleSetV4 := true }
  | .v6 => { c with routeRuleSetV6 := c.ipv6Set }

/-- `handle_eth_client_route_rule` -/
def handleEthClientRouteRule (cfg : Iface) (d : Driver) (mac : MacAddr) (ip : IpaIpType)
    (s : IpacmLan) : IpacmLan :=
  if cfg.txProp = [] then s
  else match s.getEthClientIndex mac with
  | none => s
  | some i =>
    if (s.ethClient i).lacksRules ip then
      match addRules cfg d i ((s.ethClient i).missing cfg ip) s with
      | (false, s) => s
      | (true, s) => s.update i (EthClient.setRouteRules ip)
    else s

/-! ### Addresses -/

/-- `handle_eth_client_ipaddr`; the answer is `false` when no routing rules are to be set up. -/
def handleEthClientIpaddr (cfg : Iface) (d : Driver) (mac : MacAddr) (addr : IpAddr) (s : IpacmLan) :
    Bool × IpacmLan :=
  match s.getEthClientIndex mac with
  | none => (false, s)
  | some i =>
    match addr with
    | .v4 a =>
      if a ≠ 0 then
        if (s.ethClient i).ipv4Set = false then
          (true, s.update i fun c => { c with v4Addr := a, ipv4Set := true })
        else if a = (s.ethClient i).v4Addr then (false, s)
        else
          -- the answer of the deletion is not looked at
          let s := (deleteEthRtrules cfg d i .v4 s).2
          (true, s.update i fun c => { c with routeRuleSetV4 := false, v4Addr := a })
      else (false, s)
    | .v6 a =>
      if a ≠ .replicate 4 0 then
        if (s.ethClient i).ipv6Set < ipv6NumAddr then
          if ∃ num < (s.ethClient i).ipv6Set, a = (s.ethClient i).v6Addr num then (false, s)
          else
            (true, s.update i fun c => { c with
              v6Addr := Function.update c.v6Addr c.ipv6Set a, ipv6Set := c.ipv6Set + 1 })
        else (false, s)
      else (true, s)

/-! ### A client that leaves -/

/-- Deletes the header of one family, if there is one. -/
def deleteEthHeader (d : Driver) (i : Nat) (ip : IpaIpType) (s : IpacmLan) : Bool × IpacmLan :=
  if (s.ethClient i).headerSet ip = true then
    match deleteHeaderHdl d ((s.ethClient i).hdrHdl ip) s with
    | (false, s) => (false, s)
    | (true, s) => (true, s.update i fun c => { c with headerSet := Function.update c.headerSet ip false })
  else (true, s)

/-- The reset of a record before the records behind it move up. -/
def EthClient.reset (c : EthClient) : EthClient :=
  { c with
    ipv4Set := false, ipv6Set := 0, headerSet := fun _ => false
    routeRuleSetV4 := false, routeRuleSetV6 := 0 }

/-- The copies of one turn of the loop that moves records up, from `src` to `dst`. -/
def copyClient (cfg : Iface) (dst src : EthClient) : EthClient where
  mac := src.mac
  hdrHdl := src.hdrHdl
  v4Addr := src.v4Addr
  ipv4Set := src.ipv4Set
  ipv6Set := src.ipv6Set
  headerSet := src.headerSet
  routeRuleSetV4 := src.routeRuleSetV4
  routeRuleSetV6 := src.routeRuleSetV6
  v6Addr num := if num < src.ipv6Set then src.v6Addr num else dst.v6Addr num
  ethRtHdl slot :=
    match slot with
    | .v4 tx => if tx < cfg.txProp.length then src.ethRtHdl slot else dst.ethRtHdl slot
    | .v6 tx num => if tx < cfg.txProp.length ∧ num < src.routeRuleSetV6 then src.ethRtHdl slot
        else dst.ethRtHdl slot
    | .v6Wan tx num => if tx < cfg.txProp.length ∧ num < src.routeRuleSetV6 then src.ethRtHdl slot
        else dst.ethRtHdl slot

/-- The loop that moves the records behind `i` up. -/
def moveUp (cfg : Iface) (i num : Nat) (clients : Nat → EthClient) : Nat → EthClient :=
  (List.range' i (num - 1 - i)).foldl
    (fun clients j => Function.update clients j (copyClient cfg (clients j) (clients (j + 1)))) clients

/-- `handle_eth_client_down_evt` -/
def handleEthClientDownEvt (cfg : Iface) (d : Driver) (mac : MacAddr) (s : IpacmLan) : IpacmLan :=
  match s.getEthClientIndex mac with
  | none => s
  | some i =>
    match deleteEthRtrules cfg d i .v4 s with
    | (false, s) => s
    | (true, s) =>
      match deleteEthRtrules cfg d i .v6 s with
      | (false, s) => s
      | (true, s) =>
        match deleteEthHeader d i .v4 s with
        | (false, s) => s
        | (true, s) =>
          match deleteEthHeader d i .v6 s with
          | (false, s) => s
          | (true, s) =>
            let s := s.update i EthClient.reset
            { s with
              ethClient := moveUp cfg i s.numEthClient s.ethClient
              numEthClient := s.numEthClient - 1 }

/-! ### Events -/

inductive Event where
  | newNeighbour (mac : MacAddr)
  | ipAddr (mac : MacAddr) (addr : IpAddr)
  | routeRule (mac : MacAddr) (ip : IpaIpType)
  | clientDel (mac : MacAddr)

def step (cfg : Iface) (d : Driver) (s : IpacmLan) : Event → IpacmLan
  | .newNeighbour mac => handleEthHdrInit cfg d mac s
  | .ipAddr mac addr => (handleEthClientIpaddr cfg d mac addr s).2
  | .routeRule mac ip => handleEthClientRouteRule cfg d mac ip s
  | .clientDel mac => handleEthClientDownEvt cfg d mac s

end Hima.Lan
