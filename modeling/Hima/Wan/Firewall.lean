import Mathlib.Data.Finset.Basic

/-!
# Firewall configuration and filtering rules of the WAN interface

The data that `IPACM_Wan` reads from the firewall XML file and hands to the kernel. What a rule
attribute means is the kernel's business: `Kernel` stands for it, `Kernel.Documented` says what
the code relies on.
-/
namespace Hima.Wan

/-- `ipa_ip_type` -/
inductive IpaIpType where
  | v4
  | v6
deriving DecidableEq

/-- The `IPA_FLT_*` bits of an attribute mask; `other` are the bits this code never names. -/
inductive FltBit where
  | tos
  | protocol
  | srcAddr
  | dstAddr
  | srcPortRange
  | dstPortRange
  | type
  | code
  | spi
  | srcPort
  | dstPort
  | tc
  | nextHdr
  | metaData
  | fragment
  | other (bit : Nat)
deriving DecidableEq

/-- The IPv4 side of the union in `ipa_rule_attrib`. -/
structure AttribV4 where
  tos : UInt8 := 0
  protocol : UInt8 := 0
  srcAddr : UInt32 := 0
  srcAddrMask : UInt32 := 0
  dstAddr : UInt32 := 0
  dstAddrMask : UInt32 := 0

/-- The IPv6 side of the union in `ipa_rule_attrib`. -/
structure AttribV6 where
  tc : UInt8 := 0
  nextHdr : UInt8 := 0
  srcAddr : Vector UInt32 4 := .replicate 4 0
  srcAddrMask : Vector UInt32 4 := .replicate 4 0
  dstAddr : Vector UInt32 4 := .replicate 4 0
  dstAddrMask : Vector UInt32 4 := .replicate 4 0

/-- `ipa_rule_attrib`. A rule uses the side of its family only. -/
structure RuleAttrib where
  attribMask : Finset FltBit := ∅
  srcPortLo : UInt16 := 0
  srcPortHi : UInt16 := 0
  dstPortLo : UInt16 := 0
  dstPortHi : UInt16 := 0
  type : UInt8 := 0
  code : UInt8 := 0
  spi : UInt32 := 0
  srcPort : UInt16 := 0
  dstPort : UInt16 := 0
  metaData : UInt32 := 0
  metaDataMask : UInt32 := 0
  v4 : AttribV4 := {}
  v6 : AttribV6 := {}

def ipprotoTcp : UInt8 := 6
def ipprotoUdp : UInt8 := 17
def ipprotoFragHdr : UInt8 := 44
def ipprotoIcmp6 : UInt8 := 58
def ipprotoTcpUdp : UInt8 := 253

/-- `IPACM_MAX_FIREWALL_ENTRIES` -/
def maxFirewallEntries : Nat := 50

/-- `IPACM_extd_firewall_entry_conf_t` -/
structure FirewallEntry where
  attrib : RuleAttrib
  ipVsn : Int

/-- `IPACM_firewall_conf_t` as the XML reader returns it: at most as many entries as there is room
for, and none that filters on metadata. -/
structure FirewallConf where
  entries : List FirewallEntry
  ruleActionAccept : Bool
  firewallEnable : Bool
  bounded : entries.length ≤ maxFirewallEntries
  plain : ∀ e ∈ entries, FltBit.metaData ∉ e.attrib.attribMask

/-- After the `memset`: no entries, and the firewall is disabled. -/
def FirewallConf.zero : FirewallConf := ⟨[], false, false, by decide, by simp⟩

inductive FltAction where
  | passToDstNat
  | passToRouting
  | passToException
deriving DecidableEq

/-- The routing tables of `IPACM_Config` that firewall rules name. -/
inductive RtTable where
  | lanV4
  | wanV6
  | wanDl
deriving DecidableEq

/-- `ipa_flt_rule` with its place. -/
structure FltRule where
  atRear : Bool := false
  retainHdr : Bool := false
  action : FltAction
  rtTbl : Option RtTable := none
  attrib : RuleAttrib

/-! ### What the kernel does with attributes -/

/-- The kernel's and the hardware's side of filtering, over their packets. -/
structure Kernel (P : Type) where
  /-- The protocol of an IPv4 packet, the next header of an IPv6 packet. -/
  protocol : P → UInt8
  /-- Whether a packet meets one attribute of a rule. -/
  meets : IpaIpType → FltBit → RuleAttrib → P → Bool

/-- A rule matches a packet that meets every attribute of its mask. -/
def Kernel.hit {P : Type} (k : Kernel P) (ip : IpaIpType) (a : RuleAttrib) (p : P) : Bool :=
  decide (∀ bit ∈ a.attribMask, k.meets ip bit a p = true)

def Kernel.hitRule {P : Type} (k : Kernel P) (ip : IpaIpType) (p : P) (r : FltRule) : Bool :=
  k.hit ip r.attrib p

/-- The fields that only the other attributes read. -/
def RuleAttrib.others (a : RuleAttrib) : RuleAttrib :=
  { a with
    attribMask := ∅, metaData := 0, metaDataMask := 0
    v4 := { a.v4 with protocol := 0, dstAddr := 0, dstAddrMask := 0 }
    v6 := { a.v6 with nextHdr := 0, dstAddr := .replicate 4 0, dstAddrMask := .replicate 4 0 } }

/-- Two attributes agree in the fields that a bit of the mask is about. -/
def RuleAttrib.AgreeOn (a b : RuleAttrib) : FltBit → Prop
  | .metaData => a.metaData = b.metaData ∧ a.metaDataMask = b.metaDataMask
  | .protocol => a.v4.protocol = b.v4.protocol
  | .nextHdr => a.v6.nextHdr = b.v6.nextHdr
  | .dstAddr => (a.v4.dstAddr, a.v4.dstAddrMask, a.v6.dstAddr, a.v6.dstAddrMask) =
      (b.v4.dstAddr, b.v4.dstAddrMask, b.v6.dstAddr, b.v6.dstAddrMask)
  | _ => a.others = b.others

/-- What the code relies on: the protocol attributes compare the header field, an address under an
empty mask is met by every packet, and an attribute reads no field of another one. -/
structure Kernel.Documented {P : Type} (k : Kernel P) : Prop where
  protocolV4 : ∀ a p, k.meets .v4 .protocol a p = (a.v4.protocol == k.protocol p)
  nextHdrV6 : ∀ a p, k.meets .v6 .nextHdr a p = (a.v6.nextHdr == k.protocol p)
  dstAddrV4 : ∀ a p, a.v4.dstAddr = 0 → a.v4.dstAddrMask = 0 → k.meets .v4 .dstAddr a p = true
  dstAddrV6 : ∀ a p, a.v6.dstAddr = .replicate 4 0 → a.v6.dstAddrMask = .replicate 4 0 →
    k.meets .v6 .dstAddr a p = true
  reads : ∀ ip bit a b p, a.AgreeOn b bit → k.meets ip bit a p = k.meets ip bit b p

/-! ### Sequences of steps that can fail -/

/-- The next step runs when the last one returned success; `none` when memory out of bounds was
written. -/
def andThen {σ : Type} (r : Option (Bool × σ)) (next : σ → Option (Bool × σ)) :
    Option (Bool × σ) :=
  match r with
  | some (true, s) => next s
  | other => other

@[simp] theorem andThen_success {σ : Type} (s : σ) (next : σ → Option (Bool × σ)) :
    andThen (some (true, s)) next = next s := rfl

@[simp] theorem andThen_none {σ : Type} (next : σ → Option (Bool × σ)) : andThen none next = none := rfl

end Hima.Wan
