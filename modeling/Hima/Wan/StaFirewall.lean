import Hima.Wan.Firewall

/-!
# The firewall of a station interface

`IPACM_Wan::config_dft_firewall_rules`: the rules of the configured entries, one after the other,
and a default rule behind them, each appended to the filtering table of the interface's pipe.
`IPACM_Wan::del_dft_firewall_rules` deletes them by the handles that the interface keeps.
-/
namespace Hima.Wan

/-- What the kernel answers: the handle of an added rule, and whether a routing table is found. -/
structure FilterAnswers where
  add : List FltRule → FltRule → Option UInt32
  routingTable : RtTable → Bool

/-- The members of `IPACM_Wan` that the firewall uses, and the filtering tables of its pipe. -/
structure IpacmWan where
  /-- `rx_prop->rx`; `none` when no property is registered. -/
  rxProp : Option (List RuleAttrib)
  tables : IpaIpType → List FltRule := fun _ => []
  ipv6FragFirewallFltRuleHdl : UInt32 := 0
  firewallHdlV4 : Vector UInt32 maxFirewallEntries := .replicate _ 0
  firewallHdlV6 : Vector UInt32 maxFirewallEntries := .replicate _ 0
  dftWanFlHdl : Vector UInt32 3 := .replicate _ 0
  numFirewallV4 : Int := 0
  numFirewallV6 : Int := 0

/-- `m_filtering.AddFilteringRule` with a table of one rule. -/
def IpacmWan.addFilteringRule (answers : FilterAnswers) (w : IpacmWan) (ip : IpaIpType)
    (rule : FltRule) : Option (UInt32 × IpacmWan) :=
  let table := if rule.atRear then w.tables ip ++ [rule] else rule :: w.tables ip
  (answers.add (w.tables ip) rule).map fun hdl =>
    (hdl, { w with tables := Function.update w.tables ip table })

/-- Adds a rule and saves its handle. -/
def IpacmWan.addRule (answers : FilterAnswers) (ip : IpaIpType) (rule : FltRule)
    (save : UInt32 → IpacmWan → Option IpacmWan) (w : IpacmWan) : Option (Bool × IpacmWan) :=
  match w.addFilteringRule answers ip rule with
  | none => some (false, w)
  | some (hdl, w) => (save hdl w).map (true, ·)

/-- `firewall_hdl_v4[i] = hdl; num_firewall_v4++` -/
def saveFirewallV4 (i : Nat) (hdl : UInt32) (w : IpacmWan) : Option IpacmWan :=
  if h : i < maxFirewallEntries then
    some { w with
      firewallHdlV4 := w.firewallHdlV4.set i hdl h, numFirewallV4 := w.numFirewallV4 + 1 }
  else none

/-- `firewall_hdl_v6[i] = hdl; num_firewall_v6++` -/
def saveFirewallV6 (i : Nat) (hdl : UInt32) (w : IpacmWan) : Option IpacmWan :=
  if h : i < maxFirewallEntries then
    some { w with
      firewallHdlV6 := w.firewallHdlV6.set i hdl h, numFirewallV6 := w.numFirewallV6 + 1 }
  else none

def saveFrag (hdl : UInt32) (w : IpacmWan) : Option IpacmWan :=
  some { w with ipv6FragFirewallFltRuleHdl := hdl }

def saveDft (i : Fin 3) (hdl : UInt32) (w : IpacmWan) : Option IpacmWan :=
  some { w with dftWanFlHdl := w.dftWanFlHdl.set i hdl }

/-! ### The rules -/

/-- What differs between the families in the rules of the entries. -/
structure Side where
  ip : IpaIpType
  version : Int
  /-- The bit of the attribute mask for the protocol. -/
  protocolBit : FltBit
  accept : FltAction
  rtTbl : RtTable
  protocol : RuleAttrib → UInt8
  setProtocol : UInt8 → RuleAttrib → RuleAttrib
  save : Nat → UInt32 → IpacmWan → Option IpacmWan

def sideV4 : Side where
  ip := .v4
  version := 4
  protocolBit := .protocol
  accept := .passToDstNat
  rtTbl := .lanV4
  protocol a := a.v4.protocol
  setProtocol value a := { a with v4 := { a.v4 with protocol := value } }
  save := saveFirewallV4

def sideV6 : Side where
  ip := .v6
  version := 6
  protocolBit := .nextHdr
  accept := .passToRouting
  rtTbl := .wanV6
  protocol a := a.v6.nextHdr
  setProtocol value a := { a with v6 := { a.v6 with nextHdr := value } }
  save := saveFirewallV6

/-- The attributes of an entry under the metadata of the rx property. -/
def RuleAttrib.withRx (a rx : RuleAttrib) : RuleAttrib :=
  { a with
    attribMask := a.attribMask ∪ rx.attribMask, metaDataMask := rx.metaDataMask, metaData := rx.metaData }

/-- The rule of an entry, before TCP_UDP is split. -/
def Side.entryRule (side : Side) (conf : FirewallConf) (rx : RuleAttrib) (e : FirewallEntry) :
    FltRule where
  atRear := true
  action := if conf.ruleActionAccept then side.accept else .passToException
  rtTbl := some side.rtTbl
  attrib := e.attrib.withRx rx

def FltRule.withProtocol (rule : FltRule) (side : Side) (value : UInt8) : FltRule :=
  { rule with attrib := side.setProtocol value rule.attrib }

/-- The attribute of the default rules: the rx property, any destination. -/
def anyDstV4 (rx : RuleAttrib) : RuleAttrib :=
  { rx with
    attribMask := insert .dstAddr rx.attribMask, v4 := { rx.v4 with dstAddr := 0, dstAddrMask := 0 } }

def anyDstV6 (rx : RuleAttrib) : RuleAttrib :=
  { rx with
    attribMask := insert .dstAddr rx.attribMask
    v6 := { rx.v6 with dstAddr := .replicate 4 0, dstAddrMask := .replicate 4 0 } }

/-- The rx property with a next header. -/
def nextHdrIs (value : UInt8) (rx : RuleAttrib) : RuleAttrib :=
  { rx with attribMask := insert .nextHdr rx.attribMask, v6 := { rx.v6 with nextHdr := value } }

def fragRule (rx : RuleAttrib) : FltRule where
  atRear := true
  action := .passToException
  attrib := nextHdrIs ipprotoFragHdr rx

def icmpRule (rx : RuleAttrib) : FltRule where
  atRear := true
  retainHdr := true
  action := .passToException
  attrib := nextHdrIs ipprotoIcmp6 rx

/-- The action for packets that match no entry. -/
def Side.defaultAction (side : Side) (conf : FirewallConf) : FltAction :=
  if conf.firewallEnable then
    if conf.ruleActionAccept then .passToException else side.accept
  else side.accept

def defaultRuleV4 (conf : FirewallConf) (rx : RuleAttrib) : FltRule where
  atRear := true
  action := sideV4.defaultAction conf
  rtTbl := some .lanV4
  attrib := anyDstV4 rx

def defaultRuleV6 (conf : FirewallConf) (rx : RuleAttrib) : FltRule where
  atRear := true
  action := sideV6.defaultAction conf
  rtTbl := some .wanV6
  attrib := anyDstV6 rx

/-! ### `config_dft_firewall_rules` -/

/-- The loop over the entries of a family; `i` is `rule_v4` or `rule_v6`. -/
def Side.addFirewall (side : Side) (answers : FilterAnswers) (conf : FirewallConf)
    (rx : RuleAttrib) : List FirewallEntry → Nat → IpacmWan → Option (Bool × IpacmWan)
  | [], _, w => some (true, w)
  | e :: rest, i, w =>
    if e.ipVsn = side.version then
      let rule := side.entryRule conf rx e
      if side.protocol e.attrib = ipprotoTcpUdp then
        andThen (w.addRule answers side.ip (rule.withProtocol side ipprotoTcp) (side.save i)) fun w =>
        andThen (w.addRule answers side.ip (rule.withProtocol side ipprotoUdp) (side.save (i + 1)))
          fun w => side.addFirewall answers conf rx rest (i + 2) w
      else
        andThen (w.addRule answers side.ip rule (side.save i)) fun w =>
        side.addFirewall answers conf rx rest (i + 1) w
    else side.addFirewall answers conf rx rest i w

def configV4 (answers : FilterAnswers) (conf : FirewallConf) (rx : RuleAttrib) (ruleV4 : Nat)
    (w : IpacmWan) : Option (Bool × IpacmWan) :=
  if ruleV4 = 0 then
    if answers.routingTable .lanV4 then
      w.addRule answers .v4 (defaultRuleV4 conf rx) (saveDft 0)
    else some (false, w)
  else
    if answers.routingTable .lanV4 then
      andThen (if conf.firewallEnable then sideV4.addFirewall answers conf rx conf.entries 0 w
        else some (true, w)) fun w =>
      w.addRule answers .v4 (defaultRuleV4 conf rx) (saveDft 0)
    else some (false, w)

def configV6 (answers : FilterAnswers) (conf : FirewallConf) (rx : RuleAttrib) (ruleV6 : Nat)
    (w : IpacmWan) : Option (Bool × IpacmWan) :=
  if ruleV6 = 0 then
    andThen (w.addRule answers .v6 (icmpRule rx) (saveDft 2)) fun w =>
    if answers.routingTable .wanV6 then
      w.addRule answers .v6 (defaultRuleV6 conf rx) (saveDft 1)
    else some (false, w)
  else
    if answers.routingTable .wanV6 then
      andThen (if conf.firewallEnable then sideV6.addFirewall answers conf rx conf.entries 0 w
        else some (true, w)) fun w =>
      andThen (w.addRule answers .v6 (icmpRule rx) (saveDft 2)) fun w =>
      w.addRule answers .v6 (defaultRuleV6 conf rx) (saveDft 1)
    else some (false, w)

/-- `config_dft_firewall_rules`; `read` is what the XML reader returns, `none` when there is no
file. The result is `none` when the code writes or reads out of bounds. -/
def IpacmWan.configDftFirewallRules (answers : FilterAnswers) (read : Option FirewallConf)
    (ip : IpaIpType) (w : IpacmWan) : Option (Bool × IpacmWan) :=
  match w.rxProp with
  | none => some (true, w)
  | some rxs => do
    let rx ← rxs[0]?
    let conf := read.getD .zero
    let ruleV4 := conf.entries.countP (·.ipVsn = 4)
    let ruleV6 := conf.entries.countP (¬ ·.ipVsn = 4)
    andThen (if ip = .v6 ∧ conf.firewallEnable then w.addRule answers .v6 (fragRule rx) saveFrag
      else some (true, w)) fun w =>
    match ip with
    | .v4 => configV4 answers conf rx ruleV4 w
    | .v6 => configV6 answers conf rx ruleV6 w

/-! ### `del_dft_firewall_rules` -/

def IpacmWan.firewallHdl (w : IpacmWan) : IpaIpType → Vector UInt32 maxFirewallEntries
  | .v4 => w.firewallHdlV4
  | .v6 => w.firewallHdlV6

def IpacmWan.numFirewall (w : IpacmWan) : IpaIpType → Int
  | .v4 => w.numFirewallV4
  | .v6 => w.numFirewallV6

def IpacmWan.clearNumFirewall (w : IpacmWan) : IpaIpType → IpacmWan
  | .v4 => { w with numFirewallV4 := 0 }
  | .v6 => { w with numFirewallV6 := 0 }

@[simp] theorem IpacmWan.firewallHdl_tables (w : IpacmWan) (tables : IpaIpType → List FltRule)
    (ip : IpaIpType) : IpacmWan.firewallHdl { w with tables := tables } ip = w.firewallHdl ip := by
  cases ip <;> rfl

@[simp] theorem IpacmWan.numFirewall_tables (w : IpacmWan) (tables : IpaIpType → List FltRule)
    (ip : IpaIpType) : IpacmWan.numFirewall { w with tables := tables } ip = w.numFirewall ip := by
  cases ip <;> rfl

/-- `m_filtering.DeleteFilteringHdls`: whether it succeeds, and the handles that it has the kernel
delete. The handle 0 is ignored. -/
def deleteFilteringHdls (deletes : UInt32 → Bool) : List UInt32 → Bool × List UInt32
  | [] => (true, [])
  | hdl :: rest =>
    if hdl = 0 then deleteFilteringHdls deletes rest
    else if deletes hdl then
      let r := deleteFilteringHdls deletes rest
      (r.1, hdl :: r.2)
    else (false, [hdl])

/-- Goes on with further handles after a success. -/
def thenDelete (deletes : UInt32 → Bool) (r : Bool × List UInt32) (hdls : List UInt32) :
    Bool × List UInt32 :=
  if r.1 then
    let r' := deleteFilteringHdls deletes hdls
    (r'.1, r.2 ++ r'.2)
  else r

/-- `del_dft_firewall_rules`, with the handles that the kernel is told to delete; `active` are
`active_v4` and `active_v6`. The result is `none` when the code reads out of bounds. -/
def IpacmWan.delDftFirewallRules (deletes : UInt32 → Bool) (active : IpaIpType → Bool)
    (ip : IpaIpType) (w : IpacmWan) : Option (Bool × List UInt32 × IpacmWan) :=
  match w.rxProp with
  | none => some (true, [], w)
  | some _ =>
    if active ip then
      if (maxFirewallEntries : Int) < w.numFirewall ip then some (false, [], w)
      else
        -- the number is passed as a `uint8_t`
        let n := (w.numFirewall ip % 256).toNat
        if n ≤ maxFirewallEntries then
          let r := deleteFilteringHdls deletes ((w.firewallHdl ip).toList.take n)
          match ip with
          | .v4 =>
            let r := thenDelete deletes r [w.dftWanFlHdl.get 0]
            some (r.1, r.2, if r.1 then w.clearNumFirewall .v4 else w)
          | .v6 =>
            let r := thenDelete deletes r [w.dftWanFlHdl.get 1]
            let r := thenDelete deletes r [w.dftWanFlHdl.get 2]
            -- a failure for the fragment rule is only logged
            let frag := thenDelete deletes r [w.ipv6FragFirewallFltRuleHdl]
            some (r.1, frag.2, if r.1 then w.clearNumFirewall .v6 else w)
        else none
    else some (true, [], w)

/-- The handles that `del_dft_firewall_rules` goes through. -/
def IpacmWan.keptHandles (w : IpacmWan) (ip : IpaIpType) : List UInt32 :=
  (w.firewallHdl ip).toList.take (w.numFirewall ip).toNat ++
    match ip with
    | .v4 => [w.dftWanFlHdl.get 0]
    | .v6 => [w.dftWanFlHdl.get 1, w.dftWanFlHdl.get 2, w.ipv6FragFirewallFltRuleHdl]

end Hima.Wan
