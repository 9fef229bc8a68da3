import Hima.Ipacm.NatApp

/-!
# The conntrack listener

`IPACM_ConntrackListener`: conntrack messages, and the events of interfaces, clients and the WAN
that decide what becomes of a message. Addresses and ports of a message are in host order, as
the code has them after `ntohl` and `ntohs`.
-/
namespace Hima.Ipacm

open Slots

/-- `IPPROTO_TCP`, `IPPROTO_UDP`, `TCP_CONNTRACK_ESTABLISHED` and `TCP_CONNTRACK_FIN_WAIT`. -/
def ipprotoTcp : UInt8 := 6
def ipprotoUdp : UInt8 := 17
def tcpConntrackEstablished : UInt8 := 3
def tcpConntrackFinWait : UInt8 := 4

/-- `IPS_SRC_NAT` and `IPS_DST_NAT`. -/
def ipsSrcNat : UInt32 := 0x10
def ipsDstNat : UInt32 := 0x20

def maxNatIfaces : Nat := 50
def maxStaClntIfaces : Nat := 10

/-- `enum nf_conntrack_msg_type`. -/
inductive NfConntrackMsgType
  | new
  | update
  | destroy
deriving DecidableEq, Repr

/-- The attributes of `struct nf_conntrack` that are read; one that is not set reads as 0. -/
structure CtMessage where
  type : NfConntrackMsgType
  origL4proto : UInt8
  replL4proto : UInt8
  status : UInt32
  origIpv4Src : UInt32
  origIpv4Dst : UInt32
  origPortSrc : UInt16
  origPortDst : UInt16
  replIpv4Src : UInt32
  replPortSrc : UInt16
  replPortDst : UInt16
  tcpState : UInt8
deriving DecidableEq, Repr

/-- What the listener asks `IPACM_Config` for: the names of the NAT interfaces and the private
subnets, each an address and a mask. -/
structure IpacmConfig where
  natIfaces : List String
  privateSubnetTable : List (UInt32 × UInt32)
deriving DecidableEq, Repr

/-- `IPACM_Config::isPrivateSubnet`. -/
def IpacmConfig.isPrivateSubnet (config : IpacmConfig) (ipAddr : UInt32) : Bool :=
  config.privateSubnetTable.any fun subnet => subnet.1 = subnet.2 &&& ipAddr

/-- The members of `IPACM_ConntrackListener`, with the NAT application and the configuration it
works on. -/
structure ConntrackListener (σ : Type) where
  wanUp : Bool
  isStaMode : Bool
  wanIpaddr : UInt32
  natIfaceIpv4Addr : List UInt32
  nonnatIfaceIpv4Addr : List UInt32
  staClntIpv4Addr : List UInt32
  staClntCnt : Nat
  natInst : NatApp σ
  config : IpacmConfig

/-- The constructor. `isStaMode` and `wan_ipaddr` start with what the memory held. -/
def ConntrackListener.init {σ : Type} (isStaMode : Bool) (wanIpaddr : UInt32)
    (natInst : NatApp σ) (config : IpacmConfig) : ConntrackListener σ where
  wanUp := false
  isStaMode := isStaMode
  wanIpaddr := wanIpaddr
  natIfaceIpv4Addr := List.replicate maxNatIfaces 0
  nonnatIfaceIpv4Addr := List.replicate maxNatIfaces 0
  staClntIpv4Addr := List.replicate maxStaClntIfaces 0
  staClntCnt := 0
  natInst := natInst
  config := config

/-! ### The rule of a message -/

/-- What the NAT flags of a message say. -/
inductive NatStatus
  | dstNat
  | srcNat
  | neither
deriving DecidableEq, Repr

namespace CtMessage

def natStatus (m : CtMessage) : NatStatus :=
  if ipsDstNat &&& m.status ≠ 0 then .dstNat
  else if ipsSrcNat &&& m.status ≠ 0 then .srcNat
  else .neither

/-- The rule read under destination NAT. -/
def dstNatRule (m : CtMessage) : NatTableEntry where
  protocol := m.replL4proto
  dstNat := true
  targetIp := m.origIpv4Src
  targetPort := m.origPortSrc
  publicPort := m.origPortDst
  privateIp := m.replIpv4Src
  privatePort := m.replPortSrc

/-- The rule read under source NAT. -/
def srcNatRule (m : CtMessage) : NatTableEntry where
  protocol := m.replL4proto
  dstNat := false
  targetIp := m.origIpv4Dst
  targetPort := m.origPortDst
  publicPort := m.replPortDst
  privateIp := m.origIpv4Src
  privatePort := m.origPortSrc

end CtMessage

/-- The dummy rule for a connection of the device itself. -/
def NatTableEntry.embedded (rule : NatTableEntry) : NatTableEntry :=
  { rule with privatePort := rule.publicPort }

namespace ConntrackListener

variable {σ : Type} (nat : NatDriver σ)

/-- The first part of `ProcessTCPorUDPMsg`: the rule, unless no direction can be found. Without
NAT flags the direction comes from the WAN address, which then is recorded as public address,
cut to 16 bits. -/
def parseRule (l : ConntrackListener σ) (m : CtMessage) : Option NatTableEntry :=
  match m.natStatus with
  | .dstNat => some m.dstNatRule
  | .srcNat => some m.srcNatRule
  | .neither =>
    if m.origIpv4Src = 0 then none
    else if m.origIpv4Dst = 0 then none
    else if m.origIpv4Src = l.wanIpaddr then
      some { m.srcNatRule with publicIp := l.wanIpaddr.toUInt16 }
    else if m.origIpv4Dst = l.wanIpaddr then
      some { m.dstNatRule with publicIp := l.wanIpaddr.toUInt16 }
    else none

/-- One end of the rule is an address of a NAT interface. -/
def matchesNatIface (l : ConntrackListener σ) (rule : NatTableEntry) : Bool :=
  l.natIfaceIpv4Addr.any fun addr => addr ≠ 0 ∧ (rule.privateIp = addr ∨ rule.targetIp = addr)

/-- The second part: the rule with `isTempEntry`, unless the message is ignored. -/
def matchIface (l : ConntrackListener σ) (rule : NatTableEntry) :
    Option (NatTableEntry × Bool) :=
  if rule.privateIp ≠ l.wanIpaddr then
    if l.matchesNatIface rule then some (rule, false)
    else if l.config.isPrivateSubnet rule.privateIp || l.config.isPrivateSubnet rule.targetIp then
      some (rule, true)
    else none
  else if l.isStaMode then none
  else some (rule.embedded, false)

/-- The third part: in STA mode a target in the subnet of the clients has to be one of them. -/
def acceptsTarget (l : ConntrackListener σ) (rule : NatTableEntry) : Bool :=
  if !l.isStaMode || l.staClntCnt = 0 then true
  else if l.staClntIpv4Addr.headD 0 &&& 0xFFFFFF00 ≠ rule.targetIp &&& 0xFFFFFF00 then true
  else (l.staClntIpv4Addr.take l.staClntCnt).any fun addr => rule.targetIp = addr

/-- What reaches the label `ADD` of `ProcessTCPorUDPMsg`: the rule and `isTempEntry`. -/
def classify (l : ConntrackListener σ) (m : CtMessage) : Option (NatTableEntry × Bool) :=
  match l.parseRule m with
  | none => none
  | some rule =>
    match l.matchIface rule with
    | none => none
    | some (rule, isTempEntry) =>
      if l.acceptsTarget rule then some (rule, isTempEntry) else none

/-- A new connection. `cnt` is what the scan index of `CacheEntry` starts with. -/
def addConnection (l : ConntrackListener σ) (cnt : Int) (rule : NatTableEntry)
    (isTempEntry : Bool) : Option (NatApp σ) :=
  if l.wanUp = false then l.natInst.cacheEntry cnt rule
  else if isTempEntry then some (l.natInst.addTempEntry rule)
  else some (l.natInst.addEntry nat rule).2

/-- A closed connection. -/
def deleteConnection (l : ConntrackListener σ) (rule : NatTableEntry) (isTempEntry : Bool) :
    NatApp σ :=
  if isTempEntry then l.natInst.deleteTempEntry rule else (l.natInst.deleteEntry nat rule).2

/-- `IPACM_ConntrackListener::ProcessTCPorUDPMsg`. -/
def processTCPorUDPMsg (l : ConntrackListener σ) (cnt : Int) (m : CtMessage) :
    Option (NatApp σ) :=
  match l.classify m with
  | none => some l.natInst
  | some (rule, isTempEntry) =>
    if rule.protocol = ipprotoTcp then
      if m.tcpState = tcpConntrackEstablished then l.addConnection nat cnt rule isTempEntry
      else if m.tcpState = tcpConntrackFinWait ∨ m.type = .destroy then
        some (l.deleteConnection nat rule isTempEntry)
      else some l.natInst
    else if rule.protocol = ipprotoUdp then
      match m.type with
      | .new => l.addConnection nat cnt rule isTempEntry
      | .destroy => some (l.deleteConnection nat rule isTempEntry)
      | .update => some l.natInst
    else some l.natInst

/-- `IPACM_ConntrackListener::ProcessCTMessage`. -/
def processCTMessage (l : ConntrackListener σ) (cnt : Int) (m : CtMessage) :
    Option (ConntrackListener σ) :=
  if m.origL4proto ≠ ipprotoUdp ∧ m.origL4proto ≠ ipprotoTcp then some l
  else (l.processTCPorUDPMsg nat cnt m).map fun natInst => { l with natInst := natInst }

/-! ### Events -/

/-- The loop of `HandleNeighIpAddrAddEvt` over `nat_iface_ipv4_addr`, with whether it found a
place. -/
def addNatIfaceAddr (l : ConntrackListener σ) (ipv4Addr : UInt32) : ConntrackListener σ × Bool :=
  match l.natIfaceIpv4Addr.find? fun addr => addr = ipv4Addr ∨ addr = 0 with
  | none => (l, false)
  | some addr =>
    -- the address itself comes first when it is there already
    if addr = ipv4Addr then (l, true)
    else
      let natInst := (l.natInst.resetPwrSaveIf nat ipv4Addr).2
      ({ l with
        natIfaceIpv4Addr :=
          setFirst (fun addr => addr = ipv4Addr ∨ addr = 0) ipv4Addr l.natIfaceIpv4Addr
        natInst := natInst.flushTempEntries nat ipv4Addr true }, true)

/-- The end of `HandleNeighIpAddrAddEvt`, for an address that is not of a NAT interface. -/
def addNonnatIfaceAddr (l : ConntrackListener σ) (ipv4Addr : UInt32) : ConntrackListener σ :=
  if 0 ∈ l.nonnatIfaceIpv4Addr then
    { l with
      nonnatIfaceIpv4Addr := setFirst (· == 0) ipv4Addr l.nonnatIfaceIpv4Addr
      natInst := l.natInst.flushTempEntries nat ipv4Addr false }
  else l

/-- `IPACM_ConntrackListener::HandleNeighIpAddrAddEvt` for an IPv4 address. `ifName` is the name
the kernel gives for the interface, `none` when the call or an allocation fails. An address that
finds no place among those of the NAT interfaces is treated as one of another interface. -/
def handleNeighIpAddrAddEvt (l : ConntrackListener σ) (ipv4Addr : UInt32)
    (ifName : Option String) : ConntrackListener σ :=
  if ipv4Addr = 0 ∨ l.config.natIfaces = [] then l
  else
    match ifName with
    | none => l
    | some ifName =>
      if ifName ∈ l.config.natIfaces then
        match l.addNatIfaceAddr nat ipv4Addr with
        | (l, true) => l
        | (l, false) => l.addNonnatIfaceAddr nat ipv4Addr
      else l.addNonnatIfaceAddr nat ipv4Addr

/-- `IPACM_ConntrackListener::HandleNeighIpAddrDelEvt`. -/
def handleNeighIpAddrDelEvt (l : ConntrackListener σ) (ipv4Addr : UInt32) :
    ConntrackListener σ :=
  if ipv4Addr = 0 then l
  else
    let cleared := fun addr : UInt32 => if addr = ipv4Addr then 0 else addr
    { l with
      natIfaceIpv4Addr := l.natIfaceIpv4Addr.map cleared
      nonnatIfaceIpv4Addr := l.nonnatIfaceIpv4Addr.map cleared
      natInst := ((l.natInst.flushTempEntries nat ipv4Addr false).delEntriesOnClntDiscon
        nat ipv4Addr).2 }

/-- `IPA_HANDLE_WAN_UP` with `TriggerWANUp`. -/
def handleWanUp (l : ConntrackListener σ) (ipv4Addr : UInt32) (isSta : Bool) :
    ConntrackListener σ :=
  if l.wanUp = true then l
  else if ipv4Addr = 0 then l
  else
    { l with
      wanUp := true
      isStaMode := isSta
      wanIpaddr := ipv4Addr
      natInst := (l.natInst.addTable nat ipv4Addr).2 }

/-- `IPA_HANDLE_WAN_DOWN` with `TriggerWANDown`. -/
def handleWanDown (l : ConntrackListener σ) (ipv4Addr : UInt32) : ConntrackListener σ :=
  if l.wanUp = false then l
  else { l with wanUp := false, natInst := (l.natInst.deleteTable nat ipv4Addr).2 }

/-- `IPACM_ConntrackListener::HandleSTAClientAddEvt`. -/
def handleSTAClientAddEvt (l : ConntrackListener σ) (clntIpAddr : UInt32) : ConntrackListener σ :=
  if maxStaClntIfaces ≤ l.staClntCnt then l
  else
    let stops := fun addr : UInt32 => decide (addr ≠ 0 ∧ addr = clntIpAddr ∨ addr = 0)
    match l.staClntIpv4Addr.find? stops with
    | none => l
    | some addr =>
      if addr ≠ 0 then l
      else
        { l with
          staClntIpv4Addr := setFirst stops clntIpAddr l.staClntIpv4Addr
          staClntCnt := l.staClntCnt + 1 }

/-- `IPACM_ConntrackListener::HandleSTAClientDelEvt`. -/
def handleSTAClientDelEvt (l : ConntrackListener σ) (clntIpAddr : UInt32) : ConntrackListener σ :=
  if clntIpAddr ≠ 0 ∧ clntIpAddr ∈ l.staClntIpv4Addr then
    { l with
      staClntIpv4Addr := setFirst (· == clntIpAddr) 0 l.staClntIpv4Addr
      natInst := (l.natInst.delEntriesOnSTAClntDiscon nat clntIpAddr).2
      staClntCnt := l.staClntCnt - 1 }
  else l

end ConntrackListener

/-! ### Runs -/

/-- An event: those of the listener, the power-save calls that the WLAN interfaces make on the
same `NatApp`, and a change of the configuration. -/
inductive CtEvent
  | message (cnt : Int) (m : CtMessage)
  | neighIpAddrAdd (ipv4Addr : UInt32) (ifName : Option String)
  | neighIpAddrDel (ipv4Addr : UInt32)
  | wanUp (ipv4Addr : UInt32) (isSta : Bool)
  | wanDown (ipv4Addr : UInt32)
  | staClientAdd (clntIpAddr : UInt32)
  | staClientDel (clntIpAddr : UInt32)
  | pwrSave (clientLanIp : UInt32)
  | pwrReset (clientLanIp : UInt32)
  | config (config : IpacmConfig)
deriving DecidableEq

/-- The state after an event; `none` when `CacheEntry` leaves the cache. -/
def ctStep {σ : Type} (nat : NatDriver σ) (l : ConntrackListener σ) :
    CtEvent → Option (ConntrackListener σ)
  | .message cnt m => l.processCTMessage nat cnt m
  | .neighIpAddrAdd ipv4Addr ifName => some (l.handleNeighIpAddrAddEvt nat ipv4Addr ifName)
  | .neighIpAddrDel ipv4Addr => some (l.handleNeighIpAddrDelEvt nat ipv4Addr)
  | .wanUp ipv4Addr isSta => some (l.handleWanUp nat ipv4Addr isSta)
  | .wanDown ipv4Addr => some (l.handleWanDown nat ipv4Addr)
  | .staClientAdd clntIpAddr => some (l.handleSTAClientAddEvt clntIpAddr)
  | .staClientDel clntIpAddr => some (l.handleSTAClientDelEvt nat clntIpAddr)
  | .pwrSave clientLanIp =>
    some { l with natInst := (l.natInst.updatePwrSaveIf nat clientLanIp).2 }
  | .pwrReset clientLanIp =>
    some { l with natInst := (l.natInst.resetPwrSaveIf nat clientLanIp).2 }
  | .config config => some { l with config := config }

/-- A message of another protocol does nothing, and one of these changes what `NatApp` holds. -/
theorem ctStep_message_cases {σ : Type} {nat : NatDriver σ} {l l' : ConntrackListener σ} {cnt : Int}
    {m : CtMessage} (stepped : ctStep nat l (.message cnt m) = some l') :
    ((m.origL4proto ≠ ipprotoUdp ∧ m.origL4proto ≠ ipprotoTcp) ∧ l' = l) ∨
      (m.origL4proto = ipprotoUdp ∨ m.origL4proto = ipprotoTcp) ∧
        ∃ s, l.processTCPorUDPMsg nat cnt m = some s ∧ l' = { l with natInst := s } := by
  rw [ctStep, ConntrackListener.processCTMessage] at stepped
  split at stepped
  · next other =>
    cases stepped
    exact .inl ⟨other, rfl⟩
  · next handled =>
    obtain ⟨s, returned, rfl⟩ := Option.map_eq_some_iff.mp stepped
    exact .inr ⟨by tauto, s, returned, rfl⟩

end Hima.Ipacm
