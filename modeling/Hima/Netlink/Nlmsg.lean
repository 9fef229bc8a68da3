import Mathlib.Data.Finset.Insert
import Hima.Lib.Bytes

/-!
# Decoding one netlink message

The `ipa_nl_decode_rtm_*` functions of `IPACM_Netlink.cpp`. They are given the address of a message
and the length left in the datagram, and fill the result structure of the message's kind.
-/
namespace Hima.Netlink

open Bytes

/-- `NLMSG_ALIGN` and `RTA_ALIGN` -/
def align (n : Nat) : Nat := (n + 3) / 4 * 4

/-- `sizeof(struct nlmsghdr)` -/
def nlmsghdrSize : Nat := 16

def afInet : UInt8 := 2
def afBridge : UInt8 := 7
def afInet6 : UInt8 := 10

/-- `struct ifinfomsg` -/
structure IfInfoMsg where
  family : UInt8 := 0
  index : UInt32 := 0
  flags : UInt32 := 0
  change : UInt32 := 0
deriving DecidableEq

/-- `struct ifaddrmsg` -/
structure IfAddrMsg where
  family : UInt8 := 0
  index : UInt32 := 0
deriving DecidableEq

/-- `struct ndmsg` -/
structure NdMsg where
  family : UInt8 := 0
  ifindex : UInt32 := 0
deriving DecidableEq

/-- `struct rtmsg` -/
structure RtMsg where
  family : UInt8 := 0
  dstLen : UInt8 := 0
  table : UInt8 := 0
  protocol : UInt8 := 0
  scope : UInt8 := 0
  type : UInt8 := 0
deriving DecidableEq

/-- `NLMSG_DATA` -/
def nlmsgData (nlh : Mem) : Mem := nlh.drop nlmsghdrSize

def ifInfoMsg (data : Mem) : IfInfoMsg where
  family := data 0
  index := (data.u32 4).toUInt32
  flags := (data.u32 8).toUInt32
  change := (data.u32 12).toUInt32

def ifAddrMsg (data : Mem) : IfAddrMsg where
  family := data 0
  index := (data.u32 4).toUInt32

def ndMsg (data : Mem) : NdMsg where
  family := data 0
  ifindex := (data.u32 4).toUInt32

def rtMsg (data : Mem) : RtMsg where
  family := data 0
  dstLen := data 1
  table := data 4
  protocol := data 5
  scope := data 6
  type := data 7

/-! ### Attributes -/

/-- `sizeof(struct rtattr)` -/
def rtattrSize : Nat := 4

def rtaLen (rta : Mem) : Nat := rta.u16 0

def rtaType (rta : Mem) : Nat := rta.u16 2

/-- `RTA_DATA` -/
def rtaData (rta : Mem) : Mem := rta.drop rtattrSize

/-- `RTA_OK` -/
def rtaOk (rta : Mem) (buflen : Nat) : Bool :=
  rtattrSize ≤ buflen && rtattrSize ≤ rtaLen rta && rtaLen rta ≤ buflen

variable {S : Type}

/-- `while(RTA_OK(rtah, buflen)) { ...; rtah = RTA_NEXT(rtah, buflen); }`. There is no result when
the padding of an attribute is past the end: the unsigned length wraps. -/
def walkAttributes (handle : Nat → Mem → S → S) : Nat → Mem → Nat → S → Option S
  | 0, _, _, _ => none
  | fuel + 1, rta, buflen, s =>
    if rtaOk rta buflen then
      if align (rtaLen rta) ≤ buflen then
        walkAttributes handle fuel (rta.drop (align (rtaLen rta))) (buflen - align (rtaLen rta))
          (handle (rtaType rta) (rtaData rta) s)
      else none
    else some s

/-- `struct sockaddr_storage`: the bytes copied to it are those from the attribute's data on. -/
structure SockaddrStorage where
  ssFamily : UInt8 := 0
  data : Mem := fun _ => 0

/-! ### Links -/

/-- `ipa_nl_decode_rtm_link` -/
def ipaNlDecodeRtmLink (buffer : Mem) : IfInfoMsg := ifInfoMsg (nlmsgData buffer)

/-! ### Addresses -/

def ifaAddress : Nat := 1

/-- `ipa_nl_addr_info_t` -/
structure AddrInfo where
  metainfo : IfAddrMsg := {}
  hasPrefixAddr : Bool := false
  prefixAddr : SockaddrStorage := {}

def addrAttribute (type : Nat) (data : Mem) (info : AddrInfo) : AddrInfo :=
  if type = ifaAddress then
    { info with prefixAddr := { ssFamily := info.metainfo.family, data := data }, hasPrefixAddr := true }
  else info

def ifaddrmsgSize : Nat := 8

/-- `ipa_nl_decode_rtm_addr` -/
def ipaNlDecodeRtmAddr (buffer : Mem) (buflen : Nat) (info : AddrInfo) : Option AddrInfo :=
  walkAttributes addrAttribute (buflen - nlmsghdrSize + 1)
    ((nlmsgData buffer).drop ifaddrmsgSize) (buflen - nlmsghdrSize)
    { info with metainfo := ifAddrMsg (nlmsgData buffer), hasPrefixAddr := false }

/-! ### Neighbours -/

def ndaDst : Nat := 1
def ndaLladdr : Nat := 2

/-- `ipa_nl_neigh_info_t`; no attribute is noted in its `param_mask`. -/
structure NeighInfo where
  metainfo : NdMsg := {}
  localAddr : SockaddrStorage := {}
  lladdrHwaddr : Mem := fun _ => 0

def neighAttribute (type : Nat) (data : Mem) (info : NeighInfo) : NeighInfo :=
  if type = ndaDst then
    { info with localAddr := { ssFamily := info.metainfo.family, data := data } }
  else if type = ndaLladdr then
    { info with lladdrHwaddr := data }
  else info

def ndmsgSize : Nat := 12

/-- `ipa_nl_decode_rtm_neigh` -/
def ipaNlDecodeRtmNeigh (buffer : Mem) (buflen : Nat) (info : NeighInfo) : Option NeighInfo :=
  walkAttributes neighAttribute (buflen - nlmsghdrSize + 1)
    ((nlmsgData buffer).drop ndmsgSize) (buflen - nlmsghdrSize)
    { info with metainfo := ndMsg (nlmsgData buffer) }

/-! ### Routes -/

def rtaDst : Nat := 1
def rtaSrc : Nat := 2
def rtaIif : Nat := 3
def rtaOif : Nat := 4
def rtaGateway : Nat := 5
def rtaPriority : Nat := 6

/-- The `IPA_RTA_PARAM` bits. -/
inductive RtaParam where
  | dst
  | src
  | gateway
  | iif
  | oif
  | priority
deriving DecidableEq

/-- `ipa_nl_route_info_t` -/
structure RouteInfo where
  metainfo : RtMsg := {}
  paramMask : Finset RtaParam := ∅
  dstAddr : SockaddrStorage := {}
  srcAddr : SockaddrStorage := {}
  gatewayAddr : SockaddrStorage := {}
  iifIndex : UInt32 := 0
  oifIndex : UInt32 := 0
  priority : UInt32 := 0

def routeAttribute (type : Nat) (data : Mem) (info : RouteInfo) : RouteInfo :=
  if type = rtaDst then
    { info with
      dstAddr := { ssFamily := info.metainfo.family, data := data }
      paramMask := insert .dst info.paramMask }
  else if type = rtaSrc then
    { info with
      srcAddr := { ssFamily := info.metainfo.family, data := data }
      paramMask := insert .src info.paramMask }
  else if type = rtaGateway then
    { info with
      gatewayAddr := { ssFamily := info.metainfo.family, data := data }
      paramMask := insert .gateway info.paramMask }
  else if type = rtaIif then
    { info with iifIndex := (data.u32 0).toUInt32, paramMask := insert .iif info.paramMask }
  else if type = rtaOif then
    { info with oifIndex := (data.u32 0).toUInt32, paramMask := insert .oif info.paramMask }
  else if type = rtaPriority then
    { info with priority := (data.u32 0).toUInt32, paramMask := insert .priority info.paramMask }
  else info

def rtmsgSize : Nat := 12

/-- `ipa_nl_decode_rtm_route` -/
def ipaNlDecodeRtmRoute (buffer : Mem) (buflen : Nat) (info : RouteInfo) : Option RouteInfo :=
  walkAttributes routeAttribute (buflen - nlmsghdrSize + 1)
    ((nlmsgData buffer).drop rtmsgSize) (buflen - nlmsghdrSize)
    { info with metainfo := rtMsg (nlmsgData buffer), paramMask := ∅ }

end Hima.Netlink

/-!
## Decoding a netlink datagram

`ipa_nl_decode_nlmsg`: the loop over the messages of a datagram, with one result structure for all
of them. The decoders are given the address of the datagram, not that of the message.
-/
namespace Hima.Netlink

open Bytes

def rtmNewLink : Nat := 16
def rtmDelLink : Nat := 17
def rtmNewAddr : Nat := 20
def rtmDelAddr : Nat := 21
def rtmNewRoute : Nat := 24
def rtmDelRoute : Nat := 25
def rtmNewNeigh : Nat := 28
def rtmDelNeigh : Nat := 29

def iffUp : UInt32 := 0x1
def iffRunning : UInt32 := 0x40
def iffLowerUp : UInt32 := 0x10000

def rtnUnicast : UInt8 := 1
def rtprotKernel : UInt8 := 2
def rtprotBoot : UInt8 := 3
def rtScopeUniverse : UInt8 := 0
def rtTableMain : UInt8 := 254

inductive IpType where
  | v4
  | v6
deriving DecidableEq

/-- `ipacm_event_data_addr`, from `malloc`: a field that is not written has no value. -/
structure EventDataAddr where
  iptype : IpType
  ifIndex : UInt32
  ipv4Addr : Option UInt32 := none
  ipv4AddrMask : Option UInt32 := none
  ipv6Addr : Vector (Option UInt32) 4 := .replicate 4 none
  ipv6AddrMask : Vector (Option UInt32) 4 := .replicate 4 none
deriving DecidableEq

/-- `ipacm_event_data_all`, cleared by `memset`. -/
structure EventDataAll where
  iptype : IpType := .v4
  ifIndex : UInt32 := 0
  ipv4Addr : UInt32 := 0
  ipv6Addr : Vector UInt32 4 := .replicate 4 0
  macAddr : Vector UInt8 6 := .replicate 6 0
deriving DecidableEq

/-- The events posted to the command queue. -/
inductive Event where
  | linkUp (ifIndex : UInt32)
  | linkDown (ifIndex : UInt32)
  | usbLinkUp (ifIndex : UInt32)
  | addrAdd (data : EventDataAddr)
  | routeAdd (data : EventDataAddr)
  | routeDel (data : EventDataAddr)
  | newNeigh (data : EventDataAll)
  | delNeigh (data : EventDataAll)
deriving DecidableEq

/-- Whether the loop goes on, or the function returns, with success or not. -/
inductive Flow where
  | next
  | leave (success : Bool)
deriving DecidableEq

/-- `ntohl` of a little-endian host. -/
def ntohl (x : UInt32) : UInt32 :=
  (x <<< 24) ||| ((x &&& (0xff00 : UInt32)) <<< 8) ||| ((x >>> 8) &&& (0xff00 : UInt32)) ||| (x >>> 24)

/-- Word `i` of an address. -/
def SockaddrStorage.word (addr : SockaddrStorage) (i : Nat) : UInt32 := (addr.data.u32 (4 * i)).toUInt32

/-- `IPACM_EVENT_COPY_ADDR_v4` and `ntohl` -/
def SockaddrStorage.v4 (addr : SockaddrStorage) : UInt32 := ntohl (addr.word 0)

/-- `IPACM_EVENT_COPY_ADDR_v6` and `ntohl` of each word -/
def SockaddrStorage.v6 (addr : SockaddrStorage) : Vector UInt32 4 := .ofFn fun i => ntohl (addr.word i)

/-- `ipa_get_if_name` of an interface succeeds. -/
abbrev Lookup := UInt32 → Bool

/-- Posts after a lookup that must succeed. -/
def named (lookup : Lookup) (ifIndex : UInt32) (events : List Event) : Flow × List Event :=
  if lookup ifIndex then (.next, events) else (.leave false, [])

/-- Goes on to the rest of the case unless it has left. -/
def Flow.andThen (first rest : Flow × List Event) : Flow × List Event :=
  match first with
  | (.next, events) => (rest.1, events ++ rest.2)
  | left => left

/-! ### The cases -/

/-- `RTM_NEWLINK` -/
def newLink (lookup : Lookup) (info : IfInfoMsg) : Flow × List Event :=
  if info.family = afBridge then (.leave true, [])
  else Flow.andThen
    (if iffUp &&& info.change ≠ 0 then
      named lookup info.index
        [if info.flags &&& iffUp ≠ 0 then .linkUp info.index else .linkDown info.index]
    else (.next, []))
    (if info.flags &&& iffRunning ≠ 0 ∧ info.flags &&& iffLowerUp ≠ 0 then
      named lookup info.index [.usbLinkUp info.index]
    else if info.flags &&& iffLowerUp = 0 then
      named lookup info.index [.linkDown info.index]
    else (.next, []))

/-- `RTM_DELLINK` -/
def delLink (lookup : Lookup) (info : IfInfoMsg) : Flow × List Event :=
  if info.family = afBridge then (.leave true, [])
  else named lookup info.index [.linkDown info.index]

/-- `RTM_NEWADDR`; a failed lookup is only logged. -/
def newAddr (info : AddrInfo) : Flow × List Event :=
  if info.prefixAddr.ssFamily = afInet6 then
    (.next, [.addrAdd {
      iptype := .v6, ifIndex := info.metainfo.index, ipv6Addr := info.prefixAddr.v6.map some }])
  else
    (.next, [.addrAdd {
      iptype := .v4, ifIndex := info.metainfo.index, ipv4Addr := some info.prefixAddr.v4 }])

/-- `mask_v6`: writes no mask for a length that is no multiple of four. -/
def maskV6 (index : Nat) (mask : Option UInt32) : Option UInt32 :=
  match index with
  | 0 => some 0x00000000
  | 4 => some 0xf0000000
  | 8 => some 0xff000000
  | 12 => some 0xfff00000
  | 16 => some 0xffff0000
  | 20 => some 0xfffff000
  | 24 => some 0xffffff00
  | 28 => some 0xfffffff0
  | 32 => some 0xffffffff
  | _ => mask

/-- The loop over the words of a mask; `slot` is the word written for less than 32 bits. -/
def routeMask (slot : Fin 4 → Fin 4) (len : Nat) : Vector (Option UInt32) 4 :=
  let turn (state : Nat × Vector (Option UInt32) 4) (i : Fin 4) :=
    if 32 ≤ state.1 then (state.1 - 32, state.2.set i (maskV6 32 state.2[i]))
    else (0, state.2.set (slot i) (maskV6 state.1 state.2[slot i]))
  ((List.finRange 4).foldl turn (len, .replicate 4 none)).2.map (Option.map ntohl)

/-- The default route and a route that a user made. -/
def RtMsg.isBoot (m : RtMsg) : Prop :=
  m.type = rtnUnicast ∧ m.protocol = rtprotBoot ∧ m.scope = rtScopeUniverse ∧ m.table = rtTableMain

instance (m : RtMsg) : Decidable m.isBoot := by unfold RtMsg.isBoot; infer_instance

/-- A route of the kernel's IPv6 table. -/
def RtMsg.isKernelV6 (m : RtMsg) : Prop :=
  m.family = afInet6 ∧ m.type = rtnUnicast ∧ m.protocol = rtprotKernel ∧ m.table = rtTableMain

instance (m : RtMsg) : Decidable m.isKernelV6 := by unfold RtMsg.isKernelV6; infer_instance

/-- An IPv6 route event with the destination as its mask. -/
def RouteInfo.defaultV6 (info : RouteInfo) : EventDataAddr where
  iptype := .v6
  ifIndex := info.oifIndex
  ipv6Addr := info.dstAddr.v6.map some
  ipv6AddrMask := info.dstAddr.v6.map some

/-- `RTM_NEWROUTE`. `mask` is the local `if_ipipv4_addr_mask`, also answered. -/
def newRoute (lookup : Lookup) (info : RouteInfo) (mask : UInt32) : UInt32 × (Flow × List Event) :=
  let mask' :=
    if info.metainfo.isBoot ∧ .dst ∉ info.paramMask ∧ lookup info.oifIndex ∧
      info.metainfo.family ≠ afInet6 then info.dstAddr.word 0 else mask
  (mask', Flow.andThen
    (if info.metainfo.isBoot then
      if .dst ∈ info.paramMask then
        named lookup info.oifIndex [.routeAdd {
          iptype := .v4, ifIndex := info.oifIndex
          ipv4Addr := some info.dstAddr.v4, ipv4AddrMask := some (ntohl mask) }]
      else if info.metainfo.family = afInet6 then
        named lookup info.oifIndex [.routeAdd info.defaultV6]
      else
        named lookup info.oifIndex [.routeAdd {
          iptype := .v4, ifIndex := info.oifIndex
          ipv4Addr := some info.dstAddr.v4, ipv4AddrMask := some (ntohl mask') }]
    else (.next, []))
    (if info.metainfo.isKernelV6 then
      named lookup info.oifIndex
        ((if .dst ∈ info.paramMask then [.routeAdd {
          iptype := .v6, ifIndex := info.oifIndex
          ipv6Addr := info.dstAddr.v6.map some
          ipv6AddrMask := routeMask id info.metainfo.dstLen.toNat }] else []) ++
        if .gateway ∈ info.paramMask then [.routeAdd info.defaultV6] else [])
    else (.next, [])))

/-- `RTM_DELROUTE`. The mask of less than 32 bits is always written to the first word. -/
def delRoute (lookup : Lookup) (info : RouteInfo) (mask : UInt32) : UInt32 × (Flow × List Event) :=
  let mask' :=
    if info.metainfo.isBoot ∧ .dst ∈ info.paramMask ∧ lookup info.oifIndex then ntohl 0xffffffff else mask
  (mask', Flow.andThen
    (if info.metainfo.isBoot then
      if .dst ∈ info.paramMask then
        named lookup info.oifIndex [.routeDel {
          iptype := .v4, ifIndex := info.oifIndex
          ipv4Addr := some info.dstAddr.v4, ipv4AddrMask := some (ntohl mask') }]
      else if info.metainfo.family = afInet6 then
        named lookup info.oifIndex [.routeDel info.defaultV6]
      else
        named lookup info.oifIndex [.routeDel {
          iptype := .v4, ifIndex := info.oifIndex
          ipv4Addr := some info.dstAddr.v4, ipv4AddrMask := some info.dstAddr.v4 }]
    else (.next, []))
    (if info.metainfo.isKernelV6 then
      named lookup info.oifIndex
        (if .dst ∈ info.paramMask then [.routeDel {
          iptype := .v6, ifIndex := info.oifIndex
          ipv6Addr := info.dstAddr.v6.map some
          ipv6AddrMask := routeMask (fun _ => 0) info.metainfo.dstLen.toNat }] else [])
    else (.next, [])))

/-- The data of `RTM_NEWNEIGH` and `RTM_DELNEIGH`. -/
def NeighInfo.eventData (info : NeighInfo) : EventDataAll :=
  let data : EventDataAll := {
    ifIndex := info.metainfo.ifindex
    macAddr := .ofFn fun i => info.lladdrHwaddr i }
  if info.localAddr.ssFamily = afInet6 then { data with ipv6Addr := info.localAddr.v6, iptype := .v6 }
  else if info.localAddr.ssFamily = afInet then
    { data with ipv4Addr := info.localAddr.v4, iptype := .v4 }
  else { data with iptype := .v6 }

def newNeigh (lookup : Lookup) (info : NeighInfo) : Flow × List Event :=
  named lookup info.metainfo.ifindex [.newNeigh info.eventData]

def delNeigh (lookup : Lookup) (info : NeighInfo) : Flow × List Event :=
  named lookup info.metainfo.ifindex [.delNeigh info.eventData]

/-! ### The loop -/

/-- `ipa_nl_msg_t` with the local mask and the events posted so far. -/
structure Run where
  type : Nat := 0
  linkEvent : Bool := false
  linkInfo : IfInfoMsg := {}
  addrInfo : AddrInfo := {}
  neighInfo : NeighInfo := {}
  routeInfo : RouteInfo := {}
  ifIpipv4AddrMask : UInt32 := 0
  posted : List Event := []

def Run.post (s : Run) (answer : Flow × List Event) : Flow × Run :=
  (answer.1, { s with posted := s.posted ++ answer.2 })

/-- The `switch` on the type of a message. -/
def handleNlmsg (lookup : Lookup) (type : Nat) (buffer : Mem) (buflen : Nat) (s : Run) :
    Option (Flow × Run) :=
  if type = rtmNewLink then
    let s := { s with type := type, linkEvent := true, linkInfo := ipaNlDecodeRtmLink buffer }
    some (s.post (newLink lookup s.linkInfo))
  else if type = rtmDelLink then
    let s := { s with type := type, linkEvent := true, linkInfo := ipaNlDecodeRtmLink buffer }
    some (s.post (delLink lookup s.linkInfo))
  else if type = rtmNewAddr then
    (ipaNlDecodeRtmAddr buffer buflen s.addrInfo).map fun info =>
      { s with addrInfo := info }.post (newAddr info)
  else if type = rtmNewRoute then
    (ipaNlDecodeRtmRoute buffer buflen s.routeInfo).map fun info =>
      let answer := newRoute lookup info s.ifIpipv4AddrMask
      { s with routeInfo := info, ifIpipv4AddrMask := answer.1 }.post answer.2
  else if type = rtmDelRoute then
    (ipaNlDecodeRtmRoute buffer buflen s.routeInfo).map fun info =>
      let answer := delRoute lookup info s.ifIpipv4AddrMask
      { s with routeInfo := info, ifIpipv4AddrMask := answer.1 }.post answer.2
  else if type = rtmNewNeigh then
    (ipaNlDecodeRtmNeigh buffer buflen s.neighInfo).map fun info =>
      { s with neighInfo := info }.post (newNeigh lookup info)
  else if type = rtmDelNeigh then
    (ipaNlDecodeRtmNeigh buffer buflen s.neighInfo).map fun info =>
      { s with neighInfo := info }.post (delNeigh lookup info)
  else some (.next, s)

def nlmsgLen (nlh : Mem) : Nat := nlh.u32 0

def nlmsgType (nlh : Mem) : Nat := nlh.u16 4

/-- `NLMSG_OK` -/
def nlmsgOk (nlh : Mem) (buflen : Nat) : Bool :=
  nlmsghdrSize ≤ buflen && nlmsghdrSize ≤ nlmsgLen nlh && nlmsgLen nlh ≤ buflen

/-- `while(NLMSG_OK(nlh, buflen)) { ...; nlh = NLMSG_NEXT(nlh, buflen); }`, with no result when the
padding of a message is past the end. -/
def nlmsgLoop (lookup : Lookup) (buffer : Mem) : Nat → Mem → Nat → Run → Option (Bool × Run)
  | 0, _, _, _ => none
  | fuel + 1, nlh, buflen, s =>
    if nlmsgOk nlh buflen then
      match handleNlmsg lookup (nlmsgType nlh) buffer buflen s with
      | none => none
      | some (.leave success, s) => some (success, s)
      | some (.next, s) =>
        if align (nlmsgLen nlh) ≤ buflen then
          nlmsgLoop lookup buffer fuel (nlh.drop (align (nlmsgLen nlh))) (buflen - align (nlmsgLen nlh)) s
        else none
    else some (true, s)

/-- `ipa_nl_decode_nlmsg`: whether it succeeded, and what it posted. -/
def ipaNlDecodeNlmsg (lookup : Lookup) (buffer : Mem) (buflen : Nat) (msg : Run) :
    Option (Bool × Run) :=
  nlmsgLoop lookup buffer (buflen + 1) buffer buflen msg

end Hima.Netlink
