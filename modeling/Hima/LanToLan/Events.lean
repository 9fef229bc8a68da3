import Hima.LanToLan.Clients

/-!
# LAN-to-LAN offload: the events

The handlers of `event_callback`, and the component with its two families.
-/
namespace Hima.LanToLan

variable {K A I : Type} [DecidableEq K] [DecidableEq A]

namespace Family

/-- `generate_new_connection`: without `CT_OPT`, a connection is made up to every active client
behind an interface of another category. -/
def generateNewConnection (config : Config K A I) (client : Ptr K) (f : Family K A I) :
    Option (Family K A I) :=
  if config.ctOpt then some f
  else do
    let c ← f.deref client
    let others := (f.clientInfo.entries.map (·.2)).filter fun p =>
      config.ifCat p.pIface ≠ config.ifCat c.pIface ∧ p.isActive
    return f.post (others.map fun p => .newConnection c.ip p.ip)

/-- The test of `check_cache_connection` on one cached connection. -/
def cacheHit (config : Config K A I) (f : Family K A I) (ip : A) (conn : A × A) : Bool :=
  conn.1 = ip ∧ config.key conn.2 ∈ f.clientInfo ∨ conn.2 = ip ∧ config.key conn.1 ∈ f.clientInfo

/-- `check_cache_connection`: with `CT_OPT`, the cached connections of a client whose other end is
known are posted and leave the cache. -/
def checkCacheConnection (config : Config K A I) (client : Ptr K) (f : Family K A I) :
    Option (Family K A I) :=
  if config.ctOpt then do
    let c ← f.deref client
    let hits := f.connection.filter (f.cacheHit config c.ip)
    let f := f.post (hits.map fun conn => .newConnection conn.1 conn.2)
    return { f with connection := f.connection.filter fun conn => !f.cacheHit config c.ip conn }
  else some f

/-- `client_info_[key]` for a key that is not in the table, filled in from the event. -/
def newClient (config : Config K A I) (ip : A) (mac : MacAddr) (iface : I) (f : Family K A I) :
    Family K A I :=
  { f with
    clientInfo := f.clientInfo.insert (config.key ip)
      ⟨f.nextNode, ip, mac, true, false, iface, [], []⟩
    nextNode := f.nextNode + 1 }

/-- The assignments of `handle_client_active` to a client that is in the table. -/
def renewClient (client : Ptr K) (ip : A) (mac : MacAddr) (iface : I) (f : Family K A I) :
    Option (Family K A I) := do
  let c ← f.deref client
  return f.set client
    { c with ip := ip, macAddr := mac, isActive := true, isPowersave := false, pIface := iface }

/-- `handle_client_active`. -/
def handleClientActive (config : Config K A I) (answers : Answers) (ip : A) (mac : MacAddr)
    (iface : I) (f : Family K A I) : Option (Family K A I) :=
  match f.find (config.key ip) with
  | none => do
    let client := ⟨config.key ip, f.nextNode⟩
    let f := f.newClient config ip mac iface
    let f ← f.generateNewConnection config client
    f.checkCacheConnection config client
  | some client => do
    let c ← f.deref client
    if c.isActive then
      if c.macAddr = mac then return f
      else
        let f ← f.turnoffOffloadLinks answers client
        let f ← f.clearPeerList client
        let f ← f.renewClient client ip mac iface
        let f ← f.generateNewConnection config client
        f.checkCacheConnection config client
    else
      let f ← f.renewClient client ip mac iface
      let f ← f.checkPotentialLink answers client
      let f ← f.generateNewConnection config client
      f.checkCacheConnection config client

/-- `client_info_.erase(key)`. -/
def erase (f : Family K A I) (key : K) : Family K A I :=
  { f with clientInfo := f.clientInfo.erase key }

/-- `handle_client_inactive`. -/
def handleClientInactive (config : Config K A I) (answers : Answers) (ip : A)
    (f : Family K A I) : Option (Family K A I) :=
  match f.find (config.key ip) with
  | none => some f
  | some client => do
    let f ← f.turnoffOffloadLinks answers client
    let c ← f.deref client
    let f := f.set client { c with isActive := false }
    return if c.peer = [] then f.erase (config.key ip) else f

/-- `handle_client_disconnect`. -/
def handleClientDisconnect (config : Config K A I) (answers : Answers) (ip : A)
    (f : Family K A I) : Option (Family K A I) :=
  match f.find (config.key ip) with
  | none => some f
  | some client => do
    let f ← f.turnoffOffloadLinks answers client
    let f ← f.clearPeerList client
    return f.erase (config.key ip)

/-- `handle_client_power_save`. -/
def handleClientPowerSave (config : Config K A I) (answers : Answers) (ip : A)
    (f : Family K A I) : Option (Family K A I) :=
  match f.find (config.key ip) with
  | none => some f
  | some client => do
    let (res, f) ← f.removeFltRules answers client
    if res then
      let c ← f.deref client
      return f.set client { c with isActive := false, isPowersave := true }
    else return f

/-- `handle_client_power_recover`. -/
def handleClientPowerRecover (config : Config K A I) (answers : Answers) (ip : A)
    (f : Family K A I) : Option (Family K A I) :=
  match f.find (config.key ip) with
  | none => some f
  | some client => do
    let c ← f.deref client
    if c.isActive ∨ !c.isPowersave then return f
    else
      let (res, f) ← f.addFltRules answers client
      if res then
        let c ← f.deref client
        let f := f.set client { c with isActive := true, isPowersave := false }
        let f ← f.checkPotentialLink answers client
        f.generateNewConnection config client
      else return f

/-- `handle_new_lan2lan_connection`. -/
def handleNewLan2lanConnection (config : Config K A I) (answers : Answers) (src dst : A)
    (f : Family K A I) : Option (Family K A I) :=
  match f.find (config.key src), f.find (config.key dst) with
  | some src, some dst => do
    let (isFirstConnection, f) ← f.addConnection src dst
    let s ← f.deref src
    let d ← f.deref dst
    if isFirstConnection && s.isActive && d.isActive then
      let (res, f) ← f.addOffloadLink (answers.add 0) src dst
      if res then
        let (res, f) ← f.addOffloadLink (answers.add 1) dst src
        return if res then { f with numOffloadPair := f.numOffloadPair + 1 } else f
      else return f
    else return f
  | _, _ => some f

/-- The end of `handle_del_lan2lan_connection`: a client that is neither active nor in power save
leaves the table with its last peer. -/
def eraseIfUnused (client : Ptr K) (f : Family K A I) : Option (Family K A I) := do
  let c ← f.deref client
  return if !c.isActive && !c.isPowersave && c.peer = [] then f.erase client.key else f

/-- The part of `handle_del_lan2lan_connection` that erases the links with the last connection. -/
def eraseLinks (answers : Answers) (src dst : Ptr K) (s d : ClientInfo K A I) (f : Family K A I) :
    Option (Family K A I) :=
  if s.isActive && d.isActive then f.eraseOffloadLink (answers.del 0) (answers.del 1) src dst
  else
    (if s.isPowersave && (d.isActive || d.isPowersave) then
      f.eraseOffloadLink (answers.del 0) (answers.del 1) src dst
    else some f).bind fun f =>
      if d.isPowersave && (s.isActive || s.isPowersave) then
        f.eraseOffloadLink (answers.del 2) (answers.del 3) dst src
      else some f

/-- `handle_del_lan2lan_connection`. -/
def handleDelLan2lanConnection (config : Config K A I) (answers : Answers) (src dst : A)
    (f : Family K A I) : Option (Family K A I) :=
  match f.find (config.key src), f.find (config.key dst) with
  | some src, some dst => do
    let (res, f) ← f.removeConnection src dst
    if res then
      let s ← f.deref src
      let d ← f.deref dst
      let f ← f.eraseLinks answers src dst s d
      let f ← f.eraseIfUnused src
      f.eraseIfUnused dst
    else return f
  | _, _ => some f

/-- `event_callback`, for the events of this family. -/
def handle (config : Config K A I) (answers : Answers) (f : Family K A I) :
    Event A I → Option (Family K A I)
  | .clientActive ip mac iface => f.handleClientActive config answers ip mac iface
  | .clientInactive ip => f.handleClientInactive config answers ip
  | .clientDisconnect ip => f.handleClientDisconnect config answers ip
  | .clientPowerSave ip => f.handleClientPowerSave config answers ip
  | .clientPowerRecover ip => f.handleClientPowerRecover config answers ip
  | .newConnection src dst => f.handleNewLan2lanConnection config answers src dst
  | .delConnection src dst => f.handleDelLan2lanConnection config answers src dst

end Family

/-! ### The component -/

/-- `ipa_ip_type`. -/
inductive IpaIpType
  | v4 | v6 | max
deriving DecidableEq, Repr

abbrev Ipv6Addr := Vector UInt32 4

/-- `ipacm_event_lan_client`; `none` is a null `p_iface`. -/
structure IpacmEventLanClient (I : Type) where
  iptype : IpaIpType
  ipv4Addr : UInt32
  ipv6Addr : Ipv6Addr
  macAddr : MacAddr
  pIface : Option I

/-- `ipacm_event_connection`. -/
structure IpacmEventConnection where
  iptype : IpaIpType
  srcIpv4Addr : UInt32
  dstIpv4Addr : UInt32
  srcIpv6Addr : Ipv6Addr
  dstIpv6Addr : Ipv6Addr

/-- The events `IPACM_LanToLan` is registered for. -/
inductive LanEvent (I : Type)
  | ipaLanClientActive (data : IpacmEventLanClient I)
  | ipaLanClientInactive (data : IpacmEventLanClient I)
  | ipaLanClientDisconnect (data : IpacmEventLanClient I)
  | ipaLanClientPowerSave (data : IpacmEventLanClient I)
  | ipaLanClientPowerRecover (data : IpacmEventLanClient I)
  | ipaLanToLanNewConnection (data : IpacmEventConnection)
  | ipaLanToLanDelConnection (data : IpacmEventConnection)

/-- The hash key of an IPv6 client: the `uint64_t` copied from the last two words. -/
abbrev V6Key := UInt32 × UInt32

def v6Key (ip : Ipv6Addr) : V6Key := (ip[2], ip[3])

/-- `IPACM_LanToLan`. -/
structure IpacmLanToLan (I : Type) where
  v4 : Family UInt32 UInt32 I
  v6 : Family V6Key Ipv6Addr I

def IpacmLanToLan.init {I : Type} : IpacmLanToLan I := ⟨.init, .init⟩

/-- What the component reads from `IPACM_Iface::ipacmcfg` and from the build. -/
structure LanConfig (I : Type) where
  ifCat : I → Nat
  ctOpt : Bool
  privateSubnetTable : List (UInt32 × UInt32)

namespace LanConfig

variable {I : Type} (config : LanConfig I)

/-- The IPv4 test of `is_potential_lan2lan_connection` on one end: an address and a mask of
`private_subnet_table` that it meets. -/
def inPrivateSubnet (ip : UInt32) : Bool :=
  config.privateSubnetTable.any fun subnet => ip &&& subnet.2 = subnet.1 &&& subnet.2

/-- The IPv6 test on one end: not a multicast address. -/
def notMulticast (ip : Ipv6Addr) : Bool := ip[0] &&& 0xff000000 ≠ 0xff000000

def v4 : Config UInt32 UInt32 I where
  key := id
  ifCat := config.ifCat
  ctOpt := config.ctOpt
  isPotentialLan2lanConnection src dst := config.inPrivateSubnet src && config.inPrivateSubnet dst

def v6 : Config V6Key Ipv6Addr I where
  key := v6Key
  ifCat := config.ifCat
  ctOpt := config.ctOpt
  isPotentialLan2lanConnection src dst := notMulticast src && notMulticast dst

end LanConfig

/-- An address of which only the first word is written. -/
def firstWord (ip : Ipv6Addr) : Ipv6Addr := #v[ip[0], 0, 0, 0]

/-- The checks at the start of the client handlers, and the choice of the table. -/
def IpacmEventLanClient.dispatch {I : Type} (data : IpacmEventLanClient I)
    (v4 : UInt32 → I → Event UInt32 I) (v6 : Ipv6Addr → I → Event Ipv6Addr I) :
    Option (Event UInt32 I ⊕ Event Ipv6Addr I) :=
  match data.pIface, data.iptype with
  | none, _ => none
  | some iface, .v4 => some (.inl (v4 data.ipv4Addr iface))
  | some iface, .v6 => some (.inr (v6 data.ipv6Addr iface))
  | some _, .max => none

/-- The connection handlers take every type but IPv4 for IPv6. -/
def IpacmEventConnection.dispatch {I : Type} (data : IpacmEventConnection)
    (v4 : UInt32 → UInt32 → Event UInt32 I) (v6 : Ipv6Addr → Ipv6Addr → Event Ipv6Addr I) :
    Option (Event UInt32 I ⊕ Event Ipv6Addr I) :=
  match data.iptype with
  | .v4 => some (.inl (v4 data.srcIpv4Addr data.dstIpv4Addr))
  | _ => some (.inr (v6 data.srcIpv6Addr data.dstIpv6Addr))

/-- The family an event is for, and what it is there; `none` when its data is refused. -/
def LanEvent.dispatch {I : Type} : LanEvent I → Option (Event UInt32 I ⊕ Event Ipv6Addr I)
  | .ipaLanClientActive d =>
    d.dispatch (.clientActive · d.macAddr ·) (.clientActive · d.macAddr ·)
  | .ipaLanClientInactive d => d.dispatch (fun a _ => .clientInactive a) fun a _ => .clientInactive a
  | .ipaLanClientDisconnect d =>
    d.dispatch (fun a _ => .clientDisconnect a) fun a _ => .clientDisconnect a
  | .ipaLanClientPowerSave d =>
    d.dispatch (fun a _ => .clientPowerSave a) fun a _ => .clientPowerSave a
  | .ipaLanClientPowerRecover d =>
    d.dispatch (fun a _ => .clientPowerRecover a) fun a _ => .clientPowerRecover a
  | .ipaLanToLanNewConnection d => d.dispatch .newConnection .newConnection
  | .ipaLanToLanDelConnection d => d.dispatch .delConnection .delConnection

/-- `event_callback`, with what the hardware answers while the event is handled. -/
def IpacmLanToLan.eventCallback {I : Type} (config : LanConfig I) (s : IpacmLanToLan I)
    (event : LanEvent I × Answers) : Option (IpacmLanToLan I) :=
  match event.1.dispatch with
  | none => some s
  | some (.inl e) => (s.v4.handle config.v4 event.2 e).map fun f => { s with v4 := f }
  | some (.inr e) => (s.v6.handle config.v6 event.2 e).map fun f => { s with v6 := f }

end Hima.LanToLan
