import Hima.Lib.FirstMatch
import Hima.Netlink.Nlmsg
import Hima.Wlan.Handlers

/-!
# The neighbour cache

`IPACM_Neighbor` passes the addresses of neighbours on to the interfaces. For the clients that it
has seen on an interface other than the bridge it keeps the interface and the last IPv4 address,
so that it can tell the interface again when a client connects once more.
-/
namespace Hima.Ipacm

open FirstMatch Slots
open Netlink (EventDataAll)

/-- `IPA_MAX_NUM_NEIGHBOR_CLIENTS` -/
def ipaMaxNumNeighborClients : Nat := 17

/-- What the code uses of `ipa_ifi_dev_name_t`. -/
structure IfaceEntry where
  ifaceName : String
  netlinkInterfaceIndex : UInt32
deriving DecidableEq

/-- `ipa_neighbor_client` -/
structure NeighborClient where
  macAddr : Wlan.MacAddr
  ifaceIndex : UInt32
  v4Addr : UInt32
  ipaIfNum : Int
deriving DecidableEq

/-- The events `IPACM_Neighbor` is registered for. -/
inductive NeighborEvent where
  | clientAddEx (ifIndex : UInt32) (attribs : List Wlan.HdrAttrib)
  | newNeigh (data : EventDataAll)
  | delNeigh (data : EventDataAll)

/-- The events it posts. -/
inductive NeighborPost where
  | ipAddrAdd (data : EventDataAll)
  | ipAddrDel (data : EventDataAll)
deriving DecidableEq

def NeighborPost.data : NeighborPost → EventDataAll
  | .ipAddrAdd data => data
  | .ipAddrDel data => data

/-- What a call meets: the names that the kernel has for interface indices, whether there is memory
for an event, and what uninitialised variables contain. -/
structure Surroundings where
  kernelName : UInt32 → Option String
  memory : Bool
  clientMacAddr : Wlan.MacAddr
  ipv6Addr : Vector UInt32 4

/-- `IPACM_Neighbor`, with the `iface_table` of `IPACM_Config`. The clients are the first
`num_neighbor_client` entries of `neighbor_client`. -/
structure IpacmNeighbor where
  ifaceTable : List IfaceEntry
  neighborClient : List NeighborClient := []
deriving DecidableEq

/-! ### Interfaces -/

/-- `iface_ipa_index_query`, with the table after it; `IPACM_FAILURE` and `INVALID_IFACE` are -1. -/
def ifaceIpaIndexQuery (kernelName : UInt32 → Option String) (interfaceIndex : UInt32)
    (table : List IfaceEntry) : Int × List IfaceEntry :=
  match table.findIdx? (·.netlinkInterfaceIndex = interfaceIndex) with
  | some i => (i, table)
  | none =>
    match kernelName interfaceIndex with
    | none => (-1, table)
    | some name =>
      match table.findIdx? (·.ifaceName = name) with
      | none => (-1, table)
      | some i => (i, table.modify i fun e => { e with netlinkInterfaceIndex := interfaceIndex })

/-- `iface_table[ipa_interface_index].iface_name`; `none` when this reads outside the table. -/
def ifaceName (table : List IfaceEntry) (ipaInterfaceIndex : Int) : Option String :=
  if 0 ≤ ipaInterfaceIndex then table[ipaInterfaceIndex.toNat]?.map IfaceEntry.ifaceName else none

/-! ### The cache -/

/-- The test of the loops over the clients. -/
abbrev isClient (mac : Wlan.MacAddr) : NeighborClient → Bool := hasKey NeighborClient.macAddr mac

def IpacmNeighbor.client (s : IpacmNeighbor) (mac : Wlan.MacAddr) : Option NeighborClient :=
  s.neighborClient.find? (isClient mac)

/-- Writes the entry of a client that was found. -/
def IpacmNeighbor.store (s : IpacmNeighbor) (c : NeighborClient) : IpacmNeighbor :=
  { s with neighborClient := setFirst (isClient c.macAddr) c s.neighborClient }

/-- Writes the entry behind the last one, while there is room. -/
def IpacmNeighbor.insert (s : IpacmNeighbor) (c : NeighborClient) : IpacmNeighbor :=
  if s.neighborClient.length < ipaMaxNumNeighborClients then
    { s with neighborClient := s.neighborClient ++ [c] }
  else s

/-- Queries the interface of an event that was posted, for the log. -/
def IpacmNeighbor.logIface (s : IpacmNeighbor) (around : Surroundings) (ifIndex : UInt32) :
    Option IpacmNeighbor := do
  let (ipaInterfaceIndex, table) := ifaceIpaIndexQuery around.kernelName ifIndex s.ifaceTable
  let _ ← ifaceName table ipaInterfaceIndex
  some { s with ifaceTable := table }

/-- A known client connects again on an interface other than the bridge. -/
def IpacmNeighbor.reconnect (s : IpacmNeighbor) (around : Surroundings) (ifIndex : UInt32)
    (ipaInterfaceIndex : Int) (c : NeighborClient) : Option (IpacmNeighbor × List NeighborPost) :=
  -- a new index is also what the entry gets when it is the old one
  let c := { c with ifaceIndex := ifIndex }
  let s := s.store c
  if ipaInterfaceIndex ≠ c.ipaIfNum then some (s, [])
  else if c.v4Addr ≠ 0 then
    if around.memory then
      let data : EventDataAll := {
        iptype := .v4, ifIndex := c.ifaceIndex, ipv4Addr := c.v4Addr, ipv6Addr := around.ipv6Addr
        macAddr := c.macAddr }
      (s.logIface around data.ifIndex).map (·, [.ipAddrAdd data])
    else some (s, [])
  else some (s, [])

/-! ### `event_callback` -/

/-- `IPA_WLAN_CLIENT_ADD_EVENT_EX` -/
def IpacmNeighbor.clientAddEx (s : IpacmNeighbor) (virtualIface : String) (around : Surroundings)
    (ifIndex : UInt32) (attribs : List Wlan.HdrAttrib) : Option (IpacmNeighbor × List NeighborPost) :=
  let (ipaInterfaceIndex, table) := ifaceIpaIndexQuery around.kernelName ifIndex s.ifaceTable
  let s := { s with ifaceTable := table }
  match s.client (attribs.foldl Wlan.HdrAttrib.takeMac around.clientMacAddr) with
  | none => some (s, [])
  | some c => do
    let name ← ifaceName table ipaInterfaceIndex
    if name ≠ virtualIface then s.reconnect around ifIndex ipaInterfaceIndex c else some (s, [])

/-- The two neighbour events; `post` is the event that is posted for them. -/
def IpacmNeighbor.neighEvent (s : IpacmNeighbor) (virtualIface : String) (around : Surroundings)
    (post : EventDataAll → NeighborPost) (data : EventDataAll) :
    Option (IpacmNeighbor × List NeighborPost) :=
  let (ipaInterfaceIndex, table) := ifaceIpaIndexQuery around.kernelName data.ifIndex s.ifaceTable
  let s := { s with ifaceTable := table }
  match data.iptype with
  | .v4 =>
    if data.ipv4Addr ≠ 0 then do
      let name ← ifaceName table ipaInterfaceIndex
      if name = virtualIface then
        match s.client data.macAddr with
        | none => some (s, [])
        | some c =>
          let s := s.store { c with v4Addr := data.ipv4Addr }
          if around.memory then
            (s.logIface around c.ifaceIndex).map (·, [post { data with ifIndex := c.ifaceIndex }])
          else some (s, [])
      else if around.memory then
        let new : NeighborClient := {
          macAddr := data.macAddr, ifaceIndex := data.ifIndex, v4Addr := data.ipv4Addr
          ipaIfNum := ipaInterfaceIndex }
        match s.client data.macAddr with
        | some _ => some (s.store new, [post data])
        | none => some (s.insert new, [post data])
      else some (s, [])
    else some (s, [])
  | .v6 =>
    if data.ipv6Addr ≠ .replicate 4 0 then do
      let name ← ifaceName table ipaInterfaceIndex
      if name = virtualIface then
        match s.client data.macAddr with
        | none => some (s, [])
        | some c =>
          if around.memory then
            (s.logIface around c.ifaceIndex).map (·, [post { data with ifIndex := c.ifaceIndex }])
          else some (s, [])
      else if around.memory then some (s, [post data])
      else some (s, [])
    else do
      let name ← ifaceName table ipaInterfaceIndex
      match s.client data.macAddr with
      | some c =>
        if name ≠ virtualIface then s.reconnect around data.ifIndex ipaInterfaceIndex c
        else some (s, [])
      | none =>
        if name ≠ virtualIface then
          some (s.insert {
            macAddr := data.macAddr, ifaceIndex := data.ifIndex, v4Addr := 0
            ipaIfNum := ipaInterfaceIndex }, [])
        else some (s, [])

/-- `event_callback`; `none` when it reads outside `iface_table`. -/
def IpacmNeighbor.eventCallback (s : IpacmNeighbor) (virtualIface : String) (around : Surroundings) :
    NeighborEvent → Option (IpacmNeighbor × List NeighborPost)
  | .clientAddEx ifIndex attribs => s.clientAddEx virtualIface around ifIndex attribs
  | .newNeigh data => s.neighEvent virtualIface around .ipAddrAdd data
  | .delNeigh data => s.neighEvent virtualIface around .ipAddrDel data

end Hima.Ipacm
