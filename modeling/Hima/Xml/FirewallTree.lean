import Hima.Lib.CountedTable
import Hima.Wan.Firewall
import Hima.Xml.Nodes

/-!
# The firewall file

`IPACM_firewall_xml_parse_tree` walks over the tree of `mobileap_firewall.xml`. A `Firewall` element
counts an entry, and the elements in it assign to the attributes of that entry one after the other.
-/
namespace Hima.Xml

open SiblingTree CountedTable
open Wan (FltBit RuleAttrib AttribV4 AttribV6 FirewallEntry maxFirewallEntries)

/-! ### Assignments to an entry -/

/-- The union in `ipa_rule_attrib` is laid out by the kernel's header: what one side reads once the other
was written. -/
structure UnionLayout where
  v6 : AttribV4 → AttribV6 → AttribV6
  v4 : AttribV6 → AttribV4 → AttribV4

def UnionLayout.writeV4 (u : UnionLayout) (a : RuleAttrib) (f : AttribV4 → AttribV4) : RuleAttrib :=
  { a with v4 := f a.v4, v6 := u.v6 (f a.v4) a.v6 }

def UnionLayout.writeV6 (u : UnionLayout) (a : RuleAttrib) (f : AttribV6 → AttribV6) : RuleAttrib :=
  { a with v6 := f a.v6, v4 := u.v4 (f a.v6) a.v4 }

/-- The fields of `ipa_rule_attrib` that an element gives as a whole, word by word. -/
inductive Field where
  | type
  | code
  | spi
  | v4Tos
  | v4Protocol
  | v4SrcAddr
  | v4SrcAddrMask
  | v4DstAddr
  | v4DstAddrMask
  | v6Tc
  | v6NextHdr
  | v6SrcAddr (i : Fin 4)
  | v6SrcAddrMask (i : Fin 4)
  | v6DstAddr (i : Fin 4)
  | v6DstAddrMask (i : Fin 4)
deriving DecidableEq

def Field.get (a : RuleAttrib) : Field → UInt32
  | .type => a.type.toUInt32
  | .code => a.code.toUInt32
  | .spi => a.spi
  | .v4Tos => a.v4.tos.toUInt32
  | .v4Protocol => a.v4.protocol.toUInt32
  | .v4SrcAddr => a.v4.srcAddr
  | .v4SrcAddrMask => a.v4.srcAddrMask
  | .v4DstAddr => a.v4.dstAddr
  | .v4DstAddrMask => a.v4.dstAddrMask
  | .v6Tc => a.v6.tc.toUInt32
  | .v6NextHdr => a.v6.nextHdr.toUInt32
  | .v6SrcAddr i => a.v6.srcAddr.get i
  | .v6SrcAddrMask i => a.v6.srcAddrMask.get i
  | .v6DstAddr i => a.v6.dstAddr.get i
  | .v6DstAddrMask i => a.v6.dstAddrMask.get i

def Field.put (u : UnionLayout) (a : RuleAttrib) (w : UInt32) : Field → RuleAttrib
  | .type => { a with type := w.toUInt8 }
  | .code => { a with code := w.toUInt8 }
  | .spi => { a with spi := w }
  | .v4Tos => u.writeV4 a ({ · with tos := w.toUInt8 })
  | .v4Protocol => u.writeV4 a ({ · with protocol := w.toUInt8 })
  | .v4SrcAddr => u.writeV4 a ({ · with srcAddr := w })
  | .v4SrcAddrMask => u.writeV4 a ({ · with srcAddrMask := w })
  | .v4DstAddr => u.writeV4 a ({ · with dstAddr := w })
  | .v4DstAddrMask => u.writeV4 a ({ · with dstAddrMask := w })
  | .v6Tc => u.writeV6 a ({ · with tc := w.toUInt8 })
  | .v6NextHdr => u.writeV6 a ({ · with nextHdr := w.toUInt8 })
  | .v6SrcAddr i => u.writeV6 a fun v6 => { v6 with srcAddr := v6.srcAddr.setIfInBounds i w }
  | .v6SrcAddrMask i => u.writeV6 a fun v6 => { v6 with srcAddrMask := v6.srcAddrMask.setIfInBounds i w }
  | .v6DstAddr i => u.writeV6 a fun v6 => { v6 with dstAddr := v6.dstAddr.setIfInBounds i w }
  | .v6DstAddrMask i => u.writeV6 a fun v6 => { v6 with dstAddrMask := v6.dstAddrMask.setIfInBounds i w }

/-- The fields of eight bits. -/
def Field.isByte : Field → Bool
  | .type | .code | .v4Tos | .v4Protocol | .v6Tc | .v6NextHdr => true
  | _ => false

/-- An `int` as the field keeps it. -/
def Field.keep (f : Field) (n : Int) : UInt32 :=
  if f.isByte then (UInt8.ofInt n).toUInt32 else UInt32.ofInt n

inductive Direction where
  | src
  | dst
deriving DecidableEq

/-- `src_port`, `src_port_lo` and `src_port_hi`, or those of the destination. -/
structure Ports where
  port : UInt16
  lo : UInt16
  hi : UInt16
deriving DecidableEq

def Direction.ports (a : RuleAttrib) : Direction → Ports
  | .src => ⟨a.srcPort, a.srcPortLo, a.srcPortHi⟩
  | .dst => ⟨a.dstPort, a.dstPortLo, a.dstPortHi⟩

def Direction.setPorts (a : RuleAttrib) (p : Ports) : Direction → RuleAttrib
  | .src => { a with srcPort := p.port, srcPortLo := p.lo, srcPortHi := p.hi }
  | .dst => { a with dstPort := p.port, dstPortLo := p.lo, dstPortHi := p.hi }

def Direction.portBit : Direction → FltBit
  | .src => .srcPort
  | .dst => .dstPort

def Direction.rangeBit : Direction → FltBit
  | .src => .srcPortRange
  | .dst => .dstPortRange

/-- The assignments that the elements of an entry make. -/
inductive Assign where
  /-- `ip_vsn = n` -/
  | ipVsn (n : Int)
  /-- `attrib_mask |= b` -/
  | bit (b : FltBit)
  | set (f : Field) (n : Int)
  /-- `f &= n` -/
  | and (f : Field) (n : Int)
  | port (d : Direction) (n : Int)
  /-- From `src_port` on, which is zero afterwards. -/
  | range (d : Direction) (n : Int)
deriving DecidableEq

def Ports.withPort (p : Ports) (n : Int) : Ports := { p with port := .ofInt n }

def Ports.withRange (p : Ports) (n : Int) : Ports where
  lo := p.port
  hi := .ofInt (p.port.toNat + n)
  port := 0

def Assign.attrib (u : UnionLayout) (a : RuleAttrib) : Assign → RuleAttrib
  | .ipVsn _ => a
  | .bit b => { a with attribMask := insert b a.attribMask }
  | .set f n => f.put u a (f.keep n)
  | .and f n => f.put u a (f.get a &&& f.keep n)
  | .port d n => d.setPorts a ((d.ports a).withPort n)
  | .range d n => d.setPorts a ((d.ports a).withRange n)

def Assign.run (u : UnionLayout) (e : FirewallEntry) (x : Assign) : FirewallEntry where
  attrib := x.attrib u e.attrib
  ipVsn :=
    match x with
    | .ipVsn n => n
    | _ => e.ipVsn

/-! ### Tags -/

inductive FirewallTag where
  | system
  | mobileApFirewallCfg
  | firewall
  | firewallEnabled
  | firewallPktsAllowed
  | ipFamily
  | ipv4SourceAddress
  | ipv4SourceIpAddress
  | ipv4SourceSubnetMask
  | ipv4DestinationAddress
  | ipv4DestinationIpAddress
  | ipv4DestinationSubnetMask
  | ipv4TypeOfService
  | tosValue
  | tosMask
  | ipv4NextHeaderProtocol
  | ipv6SourceAddress
  | ipv6SourceIpAddress
  | ipv6SourcePrefix
  | ipv6DestinationAddress
  | ipv6DestinationIpAddress
  | ipv6DestinationPrefix
  | ipv6TrafficClass
  | trfClsValue
  | trfClsMask
  | ipv6NextHeaderProtocol
  | tcpSource
  | tcpSourcePort
  | tcpSourceRange
  | tcpDestination
  | tcpDestinationPort
  | tcpDestinationRange
  | udpSource
  | udpSourcePort
  | udpSourceRange
  | udpDestination
  | udpDestinationPort
  | udpDestinationRange
  | icmpType
  | icmpCode
  | espSpi
  | tcpUdpSource
  | tcpUdpSourcePort
  | tcpUdpSourceRange
  | tcpUdpDestination
  | tcpUdpDestinationPort
  | tcpUdpDestinationRange
deriving DecidableEq

/-- The tags in the order in which a name is compared with them. -/
def firewallTags : List (String × FirewallTag) :=
  [("system", .system), ("MobileAPFirewallCfg", .mobileApFirewallCfg), ("Firewall", .firewall),
    ("FirewallEnabled", .firewallEnabled), ("FirewallPktsAllowed", .firewallPktsAllowed),
    ("IPFamily", .ipFamily), ("IPV4SourceAddress", .ipv4SourceAddress),
    ("IPV4SourceIPAddress", .ipv4SourceIpAddress), ("IPV4SourceSubnetMask", .ipv4SourceSubnetMask),
    ("IPV4DestinationAddress", .ipv4DestinationAddress),
    ("IPV4DestinationIPAddress", .ipv4DestinationIpAddress),
    ("IPV4DestinationSubnetMask", .ipv4DestinationSubnetMask), ("IPV4TypeOfService", .ipv4TypeOfService),
    ("TOSValue", .tosValue), ("TOSMask", .tosMask), ("IPV4NextHeaderProtocol", .ipv4NextHeaderProtocol),
    ("IPV6SourceAddress", .ipv6SourceAddress), ("IPV6SourceIPAddress", .ipv6SourceIpAddress),
    ("IPV6SourcePrefix", .ipv6SourcePrefix), ("IPV6DestinationAddress", .ipv6DestinationAddress),
    ("IPV6DestinationIPAddress", .ipv6DestinationIpAddress),
    ("IPV6DestinationPrefix", .ipv6DestinationPrefix), ("IPV6TrafficClass", .ipv6TrafficClass),
    ("TrfClsValue", .trfClsValue), ("TrfClsMask", .trfClsMask),
    ("IPV6NextHeaderProtocol", .ipv6NextHeaderProtocol), ("TCPSource", .tcpSource),
    ("TCPSourcePort", .tcpSourcePort), ("TCPSourceRange", .tcpSourceRange),
    ("TCPDestination", .tcpDestination), ("TCPDestinationPort", .tcpDestinationPort),
    ("TCPDestinationRange", .tcpDestinationRange), ("UDPSource", .udpSource),
    ("UDPSourcePort", .udpSourcePort), ("UDPSourceRange", .udpSourceRange),
    ("UDPDestination", .udpDestination), ("UDPDestinationPort", .udpDestinationPort),
    ("UDPDestinationRange", .udpDestinationRange), ("ICMPType", .icmpType), ("ICMPCode", .icmpCode),
    ("ESPSPI", .espSpi), ("TCP_UDPSource", .tcpUdpSource), ("TCP_UDPSourcePort", .tcpUdpSourcePort),
    ("TCP_UDPSourceRange", .tcpUdpSourceRange), ("TCP_UDPDestination", .tcpUdpDestination),
    ("TCP_UDPDestinationPort", .tcpUdpDestinationPort),
    ("TCP_UDPDestinationRange", .tcpUdpDestinationRange)]

def firewallTagOf : XmlLabel → Option FirewallTag
  | .element name => tagOf firewallTags name
  | _ => none

/-- The elements whose children are parsed. -/
def FirewallTag.isContainer : FirewallTag → Bool
  | .system | .mobileApFirewallCfg | .firewall | .firewallEnabled | .firewallPktsAllowed
  | .ipv4SourceAddress | .ipv4DestinationAddress | .ipv4TypeOfService
  | .ipv6SourceAddress | .ipv6DestinationAddress | .ipv6TrafficClass
  | .tcpSource | .tcpDestination | .udpSource | .udpDestination | .tcpUdpSource | .tcpUdpDestination => true
  | _ => false

/-- The bit that a container sets before its children are parsed. -/
def FirewallTag.marks : FirewallTag → Option FltBit
  | .ipv4SourceAddress | .ipv6SourceAddress => some .srcAddr
  | .ipv4DestinationAddress | .ipv6DestinationAddress => some .dstAddr
  | .ipv4TypeOfService => some .tos
  | .ipv6TrafficClass => some .tc
  | _ => none

/-- The elements that copy an address out of `ip6_addr`. -/
def FirewallTag.isIpv6Address : FirewallTag → Bool
  | .ipv6SourceIpAddress | .ipv6DestinationIpAddress => true
  | _ => false

/-- `mask_v6`; `none` for a length for which it writes nothing. -/
def maskV6 : Int → Option UInt32
  | 0 => some 0x00000000
  | 4 => some 0xf0000000
  | 8 => some 0xff000000
  | 12 => some 0xfff00000
  | 16 => some 0xffff0000
  | 20 => some 0xfffff000
  | 24 => some 0xffffff00
  | 28 => some 0xfffffff0
  | 32 => some 0xffffffff
  | _ => none

/-- The loop over the words of a mask, from the word at `i` on. -/
def prefixAssigns (word : Fin 4 → Field) (maskValueV6 : Int) : List (Fin 4) → List Assign
  | [] => []
  | i :: rest =>
    if 32 ≤ maskValueV6 then
      ((maskV6 32).map fun mask => .set (word i) mask.toNat).toList ++
        prefixAssigns word (maskValueV6 - 32) rest
    else
      ((maskV6 maskValueV6).map fun mask => .set (word i) mask.toNat).toList ++ prefixAssigns word 0 rest

def addressAssigns (word : Fin 4 → Field) (addr : Vector UInt32 4) : List Assign :=
  (List.finRange 4).map fun i => .set (word i) (addr.get i).toNat

def rangeAssigns (d : Direction) (n : Int) : List Assign :=
  if n ≠ 0 then [.bit d.rangeBit, .range d n] else [.bit d.portBit]

/-- What an element assigns for the text in `content_buf`. -/
def FirewallTag.assigns (libc : Libc) (contentBuf : Text) (ip6Addr : Vector UInt32 4) :
    FirewallTag → List Assign
  | .ipFamily => [.ipVsn (atoi contentBuf)]
  | .ipv4SourceIpAddress => [.set .v4SrcAddr (libc.inetAddr (terminated contentBuf)).toNat]
  | .ipv4SourceSubnetMask => [.set .v4SrcAddrMask (libc.inetAddr (terminated contentBuf)).toNat]
  | .ipv4DestinationIpAddress => [.set .v4DstAddr (libc.inetAddr (terminated contentBuf)).toNat]
  | .ipv4DestinationSubnetMask => [.set .v4DstAddrMask (libc.inetAddr (terminated contentBuf)).toNat]
  | .tosValue => [.set .v4Tos (atoi contentBuf)]
  | .tosMask => [.and .v4Tos (atoi contentBuf)]
  | .ipv4NextHeaderProtocol => [.bit .protocol, .set .v4Protocol (atoi contentBuf)]
  | .ipv6SourceIpAddress => addressAssigns .v6SrcAddr ip6Addr
  | .ipv6SourcePrefix => prefixAssigns .v6SrcAddrMask (atoi contentBuf) (List.finRange 4)
  | .ipv6DestinationIpAddress => addressAssigns .v6DstAddr ip6Addr
  | .ipv6DestinationPrefix => prefixAssigns .v6DstAddrMask (atoi contentBuf) (List.finRange 4)
  | .trfClsValue => [.set .v6Tc (atoi contentBuf)]
  | .trfClsMask => [.and .v6Tc (atoi contentBuf)]
  | .ipv6NextHeaderProtocol => [.bit .nextHdr, .set .v6NextHdr (atoi contentBuf)]
  | .tcpSourcePort | .udpSourcePort | .tcpUdpSourcePort => [.port .src (atoi contentBuf)]
  | .tcpSourceRange | .udpSourceRange | .tcpUdpSourceRange => rangeAssigns .src (atoi contentBuf)
  | .tcpDestinationPort | .udpDestinationPort | .tcpUdpDestinationPort => [.port .dst (atoi contentBuf)]
  | .tcpDestinationRange | .udpDestinationRange | .tcpUdpDestinationRange =>
    rangeAssigns .dst (atoi contentBuf)
  | .icmpType => [.set .type (atoi contentBuf), .bit .type]
  | .icmpCode => [.set .code (atoi contentBuf), .bit .code]
  | .espSpi => [.set .spi (atoi contentBuf), .bit .spi]
  | _ => []

/-! ### `IPACM_firewall_xml_parse_tree` -/

/-- `IPACM_firewall_conf_t`; as it starts, after the `memset`. -/
structure IpacmFirewallConf where
  extdFirewallEntries : Table FirewallEntry maxFirewallEntries := { entries := .replicate _ ⟨{}, 0⟩ }
  ruleActionAccept : Bool := false
  firewallEnable : Bool := false

/-- Assigns to the entry behind `num_extd_firewall_entries - 1`; `none` when it is outside the table. -/
def IpacmFirewallConf.assign (u : UnionLayout) (config : IpacmFirewallConf) (xs : List Assign) :
    Option IpacmFirewallConf :=
  (config.extdFirewallEntries.modifyLast fun e => xs.foldl (Assign.run u) e).map
    ({ config with extdFirewallEntries := · })

/-- The containers that are no part of an entry. Two of them have a text of their own. -/
def FirewallTag.configure (content : Option Text) (config : IpacmFirewallConf) :
    FirewallTag → Option IpacmFirewallConf
  | .firewall => some { config with extdFirewallEntries := config.extdFirewallEntries.push }
  | .firewallPktsAllowed =>
    match content with
    | some content =>
      (copyContent content).map fun contentBuf => { config with ruleActionAccept := atoi contentBuf = 1 }
    | none => some config
  | .firewallEnabled =>
    match content with
    | some content =>
      (copyContent content).map fun contentBuf => { config with firewallEnable := atoi contentBuf = 1 }
    | none => some config
  | _ => some config

/-- One element, with the `ip6_addr` of the call that it is found by. -/
def FirewallTag.enter (libc : Libc) (u : UnionLayout) (content : Option Text) (ip6Addr : Vector UInt32 4)
    (config : IpacmFirewallConf) (tag : FirewallTag) : Option (Vector UInt32 4 × IpacmFirewallConf) :=
  if tag.isContainer then
    match tag.marks with
    | some bit => (config.assign u [.bit bit]).map (ip6Addr, ·)
    | none => (tag.configure content config).map (ip6Addr, ·)
  else
    match content with
    | some content =>
      (copyContent content).bind fun contentBuf =>
        let ip6Addr := if tag.isIpv6Address then (libc.inetPton contentBuf).getD ip6Addr else ip6Addr
        (config.assign u (tag.assigns libc contentBuf ip6Addr)).map (ip6Addr, ·)
    -- the only one of these elements whose text is not checked for `NULL`
    | none => if tag = .ipv4DestinationSubnetMask then none else some (ip6Addr, config)

/-- The nodes whose children are parsed. -/
def firewallDescends (label : XmlLabel) : Bool := (firewallTagOf label).any FirewallTag.isContainer

/-- The body of the loop: only elements are looked at, and only those whose name is known. -/
def enterFirewall (libc : Libc) (u : UnionLayout) (label : XmlLabel) (children : XmlNode)
    (ip6Addr : Vector UInt32 4) (config : IpacmFirewallConf) :
    Option (Vector UInt32 4 × IpacmFirewallConf) :=
  match firewallTagOf label with
  | some tag => tag.enter libc u (readContentElement children) ip6Addr config
  | none => some (ip6Addr, config)

/-- `IPACM_firewall_xml_parse_tree`; `none` when it writes outside an array or reads through `NULL`. -/
def ipacmFirewallXmlParseTree (libc : Libc) (u : UnionLayout) (xmlNode : XmlNode)
    (config : IpacmFirewallConf) : Option IpacmFirewallConf :=
  walk firewallDescends (enterFirewall libc u) libc.uninitialised xmlNode libc.uninitialised config

end Hima.Xml
