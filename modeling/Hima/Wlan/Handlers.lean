import Hima.Wlan.Clients

/-!
# Client events

The handlers of `IPACM_Wlan` for its clients, one for each event.
-/
namespace Hima.Wlan

open Wan (IpaIpType)

/-! ### Add -/

/-- Bytes copied into a header. -/
def overlay (hdr : List UInt8) (offset : Nat) (bytes : List UInt8) : List UInt8 :=
  hdr.take offset ++ bytes ++ hdr.drop (offset + bytes.length)

def HdrAttrib.patch (hdr : List UInt8) (a : HdrAttrib) : List UInt8 :=
  match a.val with
  | .macAddr mac => overlay hdr a.offset mac.toList
  | .staId id => overlay hdr a.offset [id]
  | .other => hdr

/-- The address in the record after the attributes. -/
def HdrAttrib.takeMac (mac : MacAddr) (a : HdrAttrib) : MacAddr :=
  match a.val with
  | .macAddr mac => mac
  | _ => mac

/-- `"%d"` into two bytes. -/
def digit (n : Nat) : String := String.ofList ((Nat.toDigits 10 n).take 1)

def partialHdrName : IpaIpType → String
  | .v4 => "IEEE802_3_v4"
  | .v6 => "IEEE802_3_v6"

def IpaWlanClient.setHeader (ip : IpaIpType) (hdl : UInt32) (c : IpaWlanClient) : IpaWlanClient :=
  match ip with
  | .v4 => { c with hdrHdlV4 := hdl, ipv4HeaderSet := true }
  | .v6 => { c with hdrHdlV6 := hdl, ipv6HeaderSet := true }

/-- The header of one family for the record at `i`, from the first property of the family. -/
def addClientHeader (cfg : Iface) (d : Driver) (i : Nat) (attribs : List HdrAttrib) (ip : IpaIpType)
    (s : IpacmWlan) : Bool × IpacmWlan :=
  match cfg.txProp.find? (·.ip = ip) with
  | none => (true, s)
  | some tx =>
    match d.copyHeader tx.hdrName with
    | none => (false, s)
    | some hdr =>
      let s := s.update i fun c => { c with mac := attribs.foldl HdrAttrib.takeMac c.mac }
      match addHeader d s {
        name := digit cfg.ipaIfNum ++ partialHdrName ip ++ digit s.headerNameCount
        hdr := attribs.foldl HdrAttrib.patch hdr } with
      | (none, s) => (false, s)
      | (some hdl, s) => (true, s.update i (IpaWlanClient.setHeader ip hdl))

/-- The fields that a new client starts with. -/
def IpaWlanClient.initEx (c : IpaWlanClient) : IpaWlanClient :=
  { c with
    routeRuleSetV4 := false, routeRuleSetV6 := 0, ipv4Set := false, ipv6Set := 0, powerSaveSet := false }

/-- `handle_wlan_client_init_ex` -/
def handleWlanClientInitEx (cfg : Iface) (d : Driver) (attribs : List HdrAttrib) (s : IpacmWlan) :
    IpacmWlan :=
  if maxNumWifiClients ≤ s.numWifiClient ∨ maxNumWifiClients ≤ s.numWifiClient + s.others then s
  else if cfg.txProp = [] then s
  else
    let i := s.numWifiClient
    let s := s.update i fun c => { c with pHdrInfo := some attribs }
    match addClientHeader cfg d i attribs .v4 s with
    | (false, s) => s
    | (true, s) =>
      match addClientHeader cfg d i attribs .v6 s with
      | (false, s) => s
      | (true, s) =>
        let s := s.update i IpaWlanClient.initEx
        { s with numWifiClient := s.numWifiClient + 1, headerNameCount := s.headerNameCount + 1 }

/-! ### Addresses -/

/-- The address of an `ipacm_event_data_all`, by its `iptype`. -/
inductive IpAddr where
  | v4 (addr : UInt32)
  | v6 (addr : V6Addr)
deriving DecidableEq

/-- `handle_wlan_client_ipaddr` -/
def handleWlanClientIpaddr (cfg : Iface) (d : Driver) (mac : MacAddr) (addr : IpAddr) (s : IpacmWlan) :
    Bool × IpacmWlan :=
  match s.getWlanClientIndex mac with
  | none => (false, s)
  | some i =>
    match addr with
    | .v4 a =>
      if a ≠ 0 then
        if (s.wlanClient i).ipv4Set = false then
          (true, s.update i fun c => { c with v4Addr := a, ipv4Set := true })
        else if a = (s.wlanClient i).v4Addr then (false, s)
        else
          -- the answer of the deletion is not looked at
          let s := (deleteDefaultQosRtrules cfg d i .v4 s).2
          (true, s.update i fun c => { c with routeRuleSetV4 := false, v4Addr := a })
      else (false, s)
    | .v6 a =>
      if a ≠ .replicate 4 0 then
        if (s.wlanClient i).ipv6Set < ipv6NumAddr then
          if ∃ num < (s.wlanClient i).ipv6Set, a = (s.wlanClient i).v6Addr num then (false, s)
          else
            (true, s.update i fun c => { c with
              v6Addr := Function.update c.v6Addr c.ipv6Set a, ipv6Set := c.ipv6Set + 1 })
        else (false, s)
      else (true, s)

/-! ### Routing rules -/

/-- The places that `handle_wlan_client_route_rule` fills. -/
def IpaWlanClient.missing (cfg : Iface) (c : IpaWlanClient) : IpaIpType → List RtSlot
  | .v4 => cfg.slotsV4
  | .v6 => cfg.slotsV6 c.routeRuleSetV6 c.ipv6Set

def IpaWlanClient.lacksRules (c : IpaWlanClient) : IpaIpType → Prop
  | .v4 => c.routeRuleSetV4 = false ∧ c.ipv4Set = true
  | .v6 => c.routeRuleSetV6 < c.ipv6Set

instance (c : IpaWlanClient) (ip : IpaIpType) : Decidable (c.lacksRules ip) := by
  cases ip <;> unfold IpaWlanClient.lacksRules <;> infer_instance

def IpaWlanClient.setRouteRules (ip : IpaIpType) (c : IpaWlanClient) : IpaWlanClient :=
  match ip with
  | .v4 => { c with routeRuleSetV4 := true }
  | .v6 => { c with routeRuleSetV6 := c.ipv6Set }

/-- `handle_wlan_client_route_rule` -/
def handleWlanClientRouteRule (cfg : Iface) (d : Driver) (mac : MacAddr) (ip : IpaIpType)
    (s : IpacmWlan) : IpacmWlan :=
  if cfg.txProp = [] then s
  else match s.getWlanClientIndex mac with
  | none => s
  | some i =>
    if (s.wlanClient i).powerSaveSet = true then s
    else if (s.wlanClient i).lacksRules ip then
      match addRules cfg d i ((s.wlanClient i).missing cfg ip) s with
      | (false, s) => s
      | (true, s) => s.update i (IpaWlanClient.setRouteRules ip)
    else s

/-! ### Power save -/

/-- `handle_wlan_client_pwrsave`; the answers of the deletions are not looked at. -/
def handleWlanClientPwrsave (cfg : Iface) (d : Driver) (mac : MacAddr) (s : IpacmWlan) : IpacmWlan :=
  match s.getWlanClientIndex mac with
  | none => s
  | some i =>
    if (s.wlanClient i).powerSaveSet = false then
      let s := (deleteDefaultQosRtrules cfg d i .v4 s).2
      let s := (deleteDefaultQosRtrules cfg d i .v6 s).2
      s.update i fun c => { c with powerSaveSet := true }
    else s

/-- `IPA_WLAN_CLIENT_RECOVER_EVENT` -/
def handleClientRecover (cfg : Iface) (d : Driver) (mac : MacAddr) (s : IpacmWlan) : IpacmWlan :=
  match s.getWlanClientIndex mac with
  | none => s
  | some i =>
    if (s.wlanClient i).powerSaveSet = true then
      let s := s.update i fun c => { c with powerSaveSet := false }
      let s := if (s.wlanClient i).ipv4Set = true then handleWlanClientRouteRule cfg d mac .v4 s else s
      if (s.wlanClient i).ipv6Set ≠ 0 then handleWlanClientRouteRule cfg d mac .v6 s else s
    else s

/-! ### Down -/

/-- Deletes the header of one family, if there is one. -/
def deleteClientHeader (d : Driver) (i : Nat) (ip : IpaIpType) (s : IpacmWlan) : Bool × IpacmWlan :=
  match ip with
  | .v4 =>
    if (s.wlanClient i).ipv4HeaderSet = true then
      match deleteHeaderHdl d s (s.wlanClient i).hdrHdlV4 with
      | (false, s) => (false, s)
      | (true, s) => (true, s.update i fun c => { c with ipv4HeaderSet := false })
    else (true, s)
  | .v6 =>
    if (s.wlanClient i).ipv6HeaderSet = true then
      match deleteHeaderHdl d s (s.wlanClient i).hdrHdlV6 with
      | (false, s) => (false, s)
      | (true, s) => (true, s.update i fun c => { c with ipv6HeaderSet := false })
    else (true, s)

/-- The reset of a record before the records behind it move up. -/
def IpaWlanClient.reset (c : IpaWlanClient) : IpaWlanClient :=
  { c with
    ipv4Set := false, ipv6Set := 0, ipv4HeaderSet := false, ipv6HeaderSet := false
    routeRuleSetV4 := false, routeRuleSetV6 := 0, pHdrInfo := none }

/-- The copies of one turn of the loop that moves records up, from `src` to `dst`. -/
def copyClient (cfg : Iface) (dst src : IpaWlanClient) : IpaWlanClient where
  pHdrInfo := src.pHdrInfo
  mac := src.mac
  hdrHdlV4 := src.hdrHdlV4
  hdrHdlV6 := src.hdrHdlV6
  v4Addr := src.v4Addr
  ipv4Set := src.ipv4Set
  ipv6Set := src.ipv6Set
  ipv4HeaderSet := src.ipv4HeaderSet
  ipv6HeaderSet := src.ipv6HeaderSet
  routeRuleSetV4 := src.routeRuleSetV4
  routeRuleSetV6 := src.routeRuleSetV6
  v6Addr num := if num < src.ipv6Set then src.v6Addr num else dst.v6Addr num
  wifiRtHdl slot :=
    match slot with
    | .v4 tx => if tx < cfg.txProp.length then src.wifiRtHdl slot else dst.wifiRtHdl slot
    | .v6 tx num => if tx < cfg.txProp.length ∧ num < src.routeRuleSetV6 then src.wifiRtHdl slot
        else dst.wifiRtHdl slot
    | .v6Wan tx num => if tx < cfg.txProp.length ∧ num < src.routeRuleSetV6 then src.wifiRtHdl slot
        else dst.wifiRtHdl slot
  -- not copied
  powerSaveSet := dst.powerSaveSet

/-- The loop that moves the records behind `i` up. -/
def moveUp (cfg : Iface) (i num : Nat) (clients : Nat → IpaWlanClient) : Nat → IpaWlanClient :=
  (List.range' i (num - 1 - i)).foldl
    (fun clients j => Function.update clients j (copyClient cfg (clients j) (clients (j + 1)))) clients

/-- `handle_wlan_client_down_evt` -/
def handleWlanClientDownEvt (cfg : Iface) (d : Driver) (mac : MacAddr) (s : IpacmWlan) : IpacmWlan :=
  match s.getWlanClientIndex mac with
  | none => s
  | some i =>
    match deleteDefaultQosRtrules cfg d i .v4 s with
    | (false, s) => s
    | (true, s) =>
      match deleteDefaultQosRtrules cfg d i .v6 s with
      | (false, s) => s
      | (true, s) =>
        match deleteClientHeader d i .v4 s with
        | (false, s) => s
        | (true, s) =>
          match deleteClientHeader d i .v6 s with
          | (false, s) => s
          | (true, s) =>
            let s := s.update i IpaWlanClient.reset
            { s with
              wlanClient := moveUp cfg i s.numWifiClient s.wlanClient
              numWifiClient := s.numWifiClient - 1 }

/-! ### Events -/

inductive Event where
  | clientAddEx (attribs : List HdrAttrib)
  | ipAddr (mac : MacAddr) (addr : IpAddr)
  | routeRule (mac : MacAddr) (ip : IpaIpType)
  | powerSave (mac : MacAddr)
  | recover (mac : MacAddr)
  | clientDel (mac : MacAddr)
  /-- Another interface has this many clients now. -/
  | otherClients (n : Nat)

def step (cfg : Iface) (d : Driver) (s : IpacmWlan) : Event → IpacmWlan
  | .clientAddEx attribs => handleWlanClientInitEx cfg d attribs s
  | .ipAddr mac addr => (handleWlanClientIpaddr cfg d mac addr s).2
  | .routeRule mac ip => handleWlanClientRouteRule cfg d mac ip s
  | .powerSave mac => handleWlanClientPwrsave cfg d mac s
  | .recover mac => handleClientRecover cfg d mac s
  | .clientDel mac => handleWlanClientDownEvt cfg d mac s
  | .otherClients n => { s with others := n }

end Hima.Wlan
