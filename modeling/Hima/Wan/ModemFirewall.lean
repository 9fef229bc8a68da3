import Hima.Lib.RuleList
import Hima.Wan.StaFirewall

/-!
# The firewall of the modem interface

`IPACM_Wan::config_dft_firewall_rules_ex`: the same policy for the downlink rules of the modem.
The rules go into a static array from an offset on, each with the equation that the kernel
generates for its attributes.
-/
namespace Hima.Wan

/-- `IPA_MAX_FLT_RULE` -/
def maxFltRule : Nat := 50

/-- A kernel that compiles attributes to equations, of type `E`. -/
structure EqKernel (P E : Type) extends Kernel P where
  /-- `IPA_IOC_GENERATE_FLT_EQ` -/
  generateFltEq : IpaIpType → RuleAttrib → Option E
  /-- `IPA_IOC_QUERY_RT_TBL_INDEX` -/
  queryRtTblIndex : IpaIpType → RtTable → Bool
  /-- Whether a packet satisfies an equation. -/
  eqHit : IpaIpType → E → P → Bool

/-- A rule for the modem; `rtTblIdx` names the table whose index the kernel has answered. -/
structure ModemRule (E : Type) where
  atRear : Bool := true
  retainHdr : Bool := true
  toUc : Bool := false
  eqAttribType : Bool := true
  action : FltAction
  rtTblIdx : RtTable
  attrib : RuleAttrib
  eqAttrib : E

/-- The array of rules with the position to write, and the counters. -/
structure Build (E : Type) where
  rules : Vector (ModemRule E) maxFltRule
  pos : Nat
  numFirewall : Int := 0
  numFltRule : Int := 0

variable {P E : Type}

/-- The rules in front of the position. -/
def Build.written (b : Build E) : List (ModemRule E) := b.rules.toList.take b.pos

/-- `rules[pos] = rule; pos++` and the counters. -/
def Build.put (b : Build E) (rule : ModemRule E) (counted : Bool) : Option (Bool × Build E) :=
  if h : b.pos < maxFltRule then
    some (true, {
      rules := b.rules.set b.pos rule h
      pos := b.pos + 1
      numFirewall := if counted then b.numFirewall + 1 else b.numFirewall
      numFltRule := b.numFltRule + 1 })
  else none

/-- Asks for the index of a routing table. -/
def Build.query (b : Build E) (k : EqKernel P E) (ip : IpaIpType) (table : RtTable) :
    Option (Bool × Build E) :=
  some (k.queryRtTblIndex ip table, b)

/-- Asks for the equation of the attributes and writes the rule. -/
def Build.add (b : Build E) (k : EqKernel P E) (ip : IpaIpType) (does : FltAction × RtTable)
    (attrib : RuleAttrib) (counted : Bool) : Option (Bool × Build E) :=
  match k.generateFltEq ip attrib with
  | none => some (false, b)
  | some eq => b.put { action := does.1, rtTblIdx := does.2, attrib := attrib, eqAttrib := eq } counted

/-- `htonl` of a little-endian host. -/
def htonl (x : UInt32) : UInt32 :=
  (x <<< 24) ||| ((x &&& (0xff00 : UInt32)) <<< 8) ||| ((x >>> 8) &&& (0xff00 : UInt32)) ||| (x >>> 24)

def changeToNetworkOrder (ip : IpaIpType) (a : RuleAttrib) : RuleAttrib :=
  match ip with
  | .v6 => { a with v6 := { a.v6 with
      srcAddr := a.v6.srcAddr.map htonl, srcAddrMask := a.v6.srcAddrMask.map htonl
      dstAddr := a.v6.dstAddr.map htonl, dstAddrMask := a.v6.dstAddrMask.map htonl } }
  | .v4 => a

/-- What a rule does with packets that are accepted, or go to the host. -/
def Side.modemAction (side : Side) (accepted : Bool) : FltAction × RtTable :=
  if accepted then (side.accept, side.rtTbl) else (.passToRouting, .wanDl)

/-- The fragment rule has the mask and the metadata of the rx property, and no other field. -/
def modemFragAttrib (rx : RuleAttrib) : RuleAttrib :=
  { attribMask := insert .nextHdr rx.attribMask, metaDataMask := rx.metaDataMask,
    metaData := rx.metaData, v6 := { nextHdr := ipprotoFragHdr } }

/-- The loop over the entries of a family. -/
def Side.addFirewallEx (side : Side) (k : EqKernel P E) (conf : FirewallConf) (rx : RuleAttrib) :
    List FirewallEntry → Build E → Option (Bool × Build E)
  | [], b => some (true, b)
  | e :: rest, b =>
    if e.ipVsn = side.version then
      let does := side.modemAction conf.ruleActionAccept
      andThen (b.query k side.ip does.2) fun b =>
      let attrib := changeToNetworkOrder side.ip (e.attrib.withRx rx)
      if side.protocol e.attrib = ipprotoTcpUdp then
        andThen (b.add k side.ip does (side.setProtocol ipprotoTcp attrib) true) fun b =>
        andThen (b.add k side.ip does (side.setProtocol ipprotoUdp attrib) true) fun b =>
        side.addFirewallEx k conf rx rest b
      else
        andThen (b.add k side.ip does attrib true) fun b => side.addFirewallEx k conf rx rest b
    else side.addFirewallEx k conf rx rest b

/-- The default rule. -/
def Side.addDefaultEx (side : Side) (k : EqKernel P E) (conf : FirewallConf) (any : RuleAttrib)
    (b : Build E) : Option (Bool × Build E) :=
  let does := side.modemAction (if conf.firewallEnable then !conf.ruleActionAccept else true)
  andThen (b.query k side.ip does.2) fun b =>
  b.add k side.ip does (changeToNetworkOrder side.ip any) true

/-- `config_dft_firewall_rules_ex`; the position of `b` is `rule_offset`. The IPv6 default rule
reads the second rx property. -/
def IpacmWan.configDftFirewallRulesEx (w : IpacmWan) (k : EqKernel P E) (read : Option FirewallConf)
    (ip : IpaIpType) (b : Build E) : Option (Bool × Build E) :=
  match w.rxProp with
  | none => some (true, b)
  | some rxs => do
    let rx ← rxs[0]?
    let conf := read.getD .zero
    andThen (if ip = .v6 ∧ conf.firewallEnable then
        andThen (b.query k .v6 .wanDl) fun b =>
        b.add k .v6 (.passToRouting, .wanDl) (changeToNetworkOrder .v6 (modemFragAttrib rx)) false
      else some (true, b)) fun b =>
    match ip with
    | .v4 =>
      andThen (if conf.firewallEnable then sideV4.addFirewallEx k conf rx conf.entries b
        else some (true, b)) fun b =>
      sideV4.addDefaultEx k conf (anyDstV4 rx) b
    | .v6 =>
      andThen (if conf.firewallEnable then sideV6.addFirewallEx k conf rx conf.entries b
        else some (true, b)) fun b => do
      let rx₁ ← rxs[1]?
      sideV6.addDefaultEx k conf (anyDstV6 rx₁) b

end Hima.Wan
