import Hima.Ipanat.Table

/-!
# Adding a rule

`ipa_nati_add_ipv4_rule` and the functions it calls. An operation yields its return value and
the stores it performs, in order; the table afterwards is `IpaNatIp4TableCache.writes` of
them, and the prefixes of the list are what the hardware sees on the way. A result of `none`
means that the call does not return.
-/
namespace Hima.Ipanat

/-- What becomes of one DMA request: the `malloc` of the command fails, the ioctl fails, or
the command is executed. -/
inductive DmaOutcome
  | noMemory
  | ioctlFailed
  | posted
deriving DecidableEq, Repr

/-- The outcomes of the DMA requests one add may issue: linking the rule row, linking the
index row, enabling the rule. -/
structure AddOutcomes where
  natNext : DmaOutcome := .posted
  indexNext : DmaOutcome := .posted
  enable : DmaOutcome := .posted
deriving DecidableEq, Repr

/-- `struct ipa_nat_indx_tbl_sw_rule`. -/
structure IpaNatIndxTblSwRule where
  tblEntry : Nat := 0
  nextIndex : Nat := 0
  prevIndex : Nat := 0
deriving DecidableEq, Repr

/-- The loop of both generate functions that follows `next_index` to the last element of a
list. `some none` is the error exit for an element that links to itself; `none` means that
the loop runs on. -/
def lastInList (expnNext : Nat → Nat) (tableEntries : Nat) :
    Nat → Nat → Nat → Option (Option Nat)
  | 0, _, _ => none
  | fuel + 1, nxtIndx, prev =>
    if nxtIndx = ipaNatInvalidNatEntry then some (some prev)
    else
      let nxt := expnNext (sub16 nxtIndx tableEntries)
      if nxtIndx = nxt then some none
      else lastInList expnNext tableEntries fuel nxt nxtIndx

/-- The loop state is a `uint16_t`: a walk of more steps than that type has values repeats one
of them and does not end. -/
def listFuel : Nat := 65537

/-- `ipa_nati_expn_tbl_free_entry`. -/
def ipaNatiExpnTblFreeEntry (expnTbl : Nat → IpaNatRule) (size : Nat) : Nat :=
  ((List.range' 1 (size - 1)).find? fun cnt => !(expnTbl cnt).enable).getD 0

/-- `ipa_nati_index_expn_get_free_entry`. -/
def ipaNatiIndexExpnGetFreeEntry (indxTbl : Nat → IpaNatIndxTblRule) (size : Nat) : Nat :=
  ((List.range' 1 (size - 1)).find? fun cnt =>
    (indxTbl cnt).tblEntry = ipaNatInvalidNatEntry).getD 0

/-- `IPPROTO_TCP` and `IPPROTO_UDP`. -/
def ipprotoTcp : UInt8 := 6
def ipprotoUdp : UInt8 := 17

/-- The row `ipa_nati_generate_tbl_rule` fills in from the client's rule, before it looks for
a slot. -/
def swRuleOfClient (pubIpAddr : UInt32) (clntRule : IpaNatIpv4Rule) : IpaNatRule where
  privateIp := clntRule.privateIp
  privatePort := clntRule.privatePort
  protocol := clntRule.protocol
  publicPort := clntRule.publicPort
  targetIp := clntRule.targetIp
  targetPort := clntRule.targetPort
  ipChksum := ipaNatiCalcIpCksum pubIpAddr clntRule.privateIp
  tcpUdpChksum :=
    if clntRule.protocol = ipprotoTcp ∨ clntRule.protocol = ipprotoUdp then
      ipaNatiCalcTcpUdpCksum pubIpAddr clntRule.publicPort clntRule.privateIp
        clntRule.privatePort
    else 0

namespace IpaNatIp4TableCache

/-- `tbl_ptr` over `ipv4_expn_rules_addr`. -/
def expnRules (t : IpaNatIp4TableCache) (k : Nat) : IpaNatRule := t.rules (t.tableEntries + k)

/-- `tbl_ptr` over `index_table_expn_addr`. -/
def expnIndex (t : IpaNatIp4TableCache) (k : Nat) : IpaNatIndxTblRule :=
  t.index (t.tableEntries + k)

end IpaNatIp4TableCache

/-- `ipa_nati_generate_tbl_rule`: the row and the slot for it, slot 0 for an error. -/
def ipaNatiGenerateTblRule (t : IpaNatIp4TableCache) (clntRule : IpaNatIpv4Rule) :
    Option (IpaNatRule × Nat) :=
  let swRule := swRuleOfClient t.publicAddr clntRule
  let newEntry := t.dstSlot clntRule
  if (t.rules newEntry).enable = false then some (swRule, newEntry)
  else
    let last :=
      if (t.rules newEntry).nextIndex = ipaNatInvalidNatEntry then some (some newEntry)
      else lastInList (fun k => (t.expnRules k).nextIndex) t.tableEntries listFuel
        (t.rules newEntry).nextIndex 0
    match last with
    | none => none
    | some none => some (swRule, ipaNatInvalidNatEntry)
    | some (some prev) =>
      let swRule := { swRule with prevIndex := prev }
      let free := ipaNatiExpnTblFreeEntry t.expnRules t.expnTableEntries
      if free = ipaNatInvalidNatEntry then some (swRule, ipaNatInvalidNatEntry)
      else some (swRule, free + t.tableEntries)

/-- `ipa_nati_generate_index_rule`. -/
def ipaNatiGenerateIndexRule (t : IpaNatIp4TableCache) (clntRule : IpaNatIpv4Rule)
    (swRule : IpaNatIndxTblSwRule) : Option (IpaNatIndxTblSwRule × Nat) :=
  let newEntry := t.srcSlot clntRule
  if (t.index newEntry).tblEntry = ipaNatInvalidNatEntry then
    some ({ swRule with prevIndex := 0 }, newEntry)
  else
    let last :=
      if (t.index newEntry).nextIndex = ipaNatInvalidNatEntry then some (some newEntry)
      else lastInList (fun k => (t.expnIndex k).nextIndex) t.tableEntries listFuel
        (t.index newEntry).nextIndex 0
    match last with
    | none => none
    | some none => some (swRule, ipaNatInvalidNatEntry)
    | some (some prev) =>
      let swRule := { swRule with prevIndex := prev }
      let free := ipaNatiIndexExpnGetFreeEntry t.expnIndex t.expnTableEntries
      if free = ipaNatInvalidNatEntry then some (swRule, ipaNatInvalidNatEntry)
      else
        let newEntry := free + t.tableEntries
        if swRule.prevIndex = newEntry then some (swRule, ipaNatInvalidNatEntry)
        else some (swRule, newEntry)

/-- What `ipa_nati_generate_rule` hands back through its pointer arguments, and its one
store. -/
structure GeneratedRule where
  rule : IpaNatRule
  indexSwRule : IpaNatIndxTblSwRule
  tblEntry : Nat
  indxTblEntry : Nat
  writes : List Write

/-- `ipa_nati_generate_rule`. -/
def ipaNatiGenerateRule (t : IpaNatIp4TableCache) (clntRule : IpaNatIpv4Rule) :
    Option (Except Int GeneratedRule) :=
  match ipaNatiGenerateTblRule t clntRule with
  | none => none
  | some (rule, tblEntry) =>
    if tblEntry = ipaNatInvalidNatEntry then some (.error (-EINVAL))
    else
      match ipaNatiGenerateIndexRule t clntRule { tblEntry := tblEntry } with
      | none => none
      | some (indexSwRule, indxTblEntry) =>
        if indxTblEntry = ipaNatInvalidNatEntry then some (.error (-EINVAL))
        else
          some (.ok {
            rule := { rule with indxTblEntry := indxTblEntry }
            indexSwRule, tblEntry, indxTblEntry
            writes :=
              if t.tableEntries ≤ indxTblEntry then
                [.prevMeta (indxTblEntry - t.tableEntries) indexSwRule.prevIndex]
              else [] })

/-- `ipa_nati_get_entry_offset`. -/
def ipaNatiGetEntryOffset (t : IpaNatIp4TableCache) (tblEntry : Nat) : Nat :=
  tblEntry * ipaNatTableEntrySize + t.tblAddrOffset

/-- `ipa_nati_get_index_entry_offset`. -/
def ipaNatiGetIndexEntryOffset (t : IpaNatIp4TableCache) (indxTblEntry : Nat) : Nat :=
  indxTblEntry * ipaNatIndexTableEntrySize + t.tblAddrOffset

/-- `ipa_nati_write_next_index`: a void function, so a failure leaves no trace. -/
def ipaNatiWriteNextIndex (outcome : DmaOutcome) (tblType : NatTableType) (value offset : Nat) :
    List Write :=
  match outcome with
  | .noMemory | .ioctlFailed => []
  | .posted => [.dma { baseAddr := tblType, offset := offset, data := value }]

/-- `ipa_nati_copy_ipv4_rule_to_hw`. -/
def ipaNatiCopyIpv4RuleToHw (outcome : DmaOutcome) (t : IpaNatIp4TableCache)
    (rule : IpaNatRule) (entry : Nat) : List Write :=
  let prevEntry := rule.prevIndex
  .rule entry rule ::
    if prevEntry = ipaNatInvalidNatEntry then []
    else if prevEntry < t.tableEntries then
      ipaNatiWriteNextIndex outcome .baseTbl entry
        (ipaNatiGetEntryOffset t prevEntry + ipaNatRuleNextFieldOffset)
    else
      ipaNatiWriteNextIndex outcome .expnTbl entry
        (ipaNatiGetEntryOffset t (prevEntry - t.tableEntries) + ipaNatRuleNextFieldOffset)

/-- `ipa_nati_copy_ipv4_index_rule_to_hw`. Here the offset of the previous entry is kept in a
`uint16_t`. -/
def ipaNatiCopyIpv4IndexRuleToHw (outcome : DmaOutcome) (t : IpaNatIp4TableCache)
    (indxSwRule : IpaNatIndxTblSwRule) (entry : Nat) : List Write :=
  let prevEntry := indxSwRule.prevIndex
  .index entry { tblEntry := indxSwRule.tblEntry, nextIndex := indxSwRule.nextIndex } ::
    if prevEntry = ipaNatInvalidNatEntry then []
    else if prevEntry < t.tableEntries then
      ipaNatiWriteNextIndex outcome .indxTbl entry
        ((ipaNatiGetIndexEntryOffset t prevEntry + ipaNatIndexRuleNextFieldOffset) % 65536)
    else
      ipaNatiWriteNextIndex outcome .indexExpnTbl entry
        ((ipaNatiGetIndexEntryOffset t (prevEntry - t.tableEntries) +
          ipaNatIndexRuleNextFieldOffset) % 65536)

/-- `ipa_nati_post_ipv4_dma_cmd`. The table's address offset enters only in the expansion
branch. -/
def ipaNatiPostIpv4DmaCmd (outcome : DmaOutcome) (t : IpaNatIp4TableCache) (entry : Nat) :
    Int × List Write :=
  match outcome with
  | .noMemory => (-ENOMEM, [])
  | .ioctlFailed => (- EIO, [])
  | .posted =>
    if entry < t.tableEntries then
      (0, [.dma {
        baseAddr := .baseTbl
        offset := entry * ipaNatTableEntrySize + ipaNatRuleFlagFieldOffset
        data := ipaNatFlagEnableBitMask }])
    else
      (0, [.dma {
        baseAddr := .expnTbl
        offset := (entry - t.tableEntries) * ipaNatTableEntrySize + ipaNatRuleFlagFieldOffset +
          t.tblAddrOffset
        data := ipaNatFlagEnableBitMask }])

/-- The value `rule_id_array` keeps for a slot: the row number shifted left by
`IPA_NAT_RULE_HDL_TBL_TYPE_BITS`, with the table type in the lowest bit. -/
def ruleIdOfEntry (t : IpaNatIp4TableCache) (tblEntry : Nat) : Nat :=
  if t.tableEntries ≤ tblEntry then (tblEntry - t.tableEntries) * 2 % 65536 + 1
  else tblEntry * 2 % 65536

/-- `ipa_nati_make_rule_hdl`. -/
def ipaNatiMakeRuleHdl (t : IpaNatIp4TableCache) (tblEntry : Nat) : Nat × List Write :=
  match (List.range (t.tableEntries + t.expnTableEntries)).find?
      fun cnt => t.ruleId cnt = ipaNatInvalidNatEntry with
  | some cnt => (cnt + 1, [.ruleId cnt (ruleIdOfEntry t tblEntry)])
  | none => (0, [])

/-- The return value of an operation, the handle it stored, and its stores to the table. -/
structure AddResult where
  ret : Int
  ruleHdl : Nat := 0
  writes : List Write := []

/-- `ipa_nati_add_ipv4_rule`. -/
def ipaNatiAddIpv4Rule (outcomes : AddOutcomes) (t : IpaNatIp4TableCache)
    (clntRule : IpaNatIpv4Rule) : Option AddResult :=
  match ipaNatiGenerateRule t clntRule with
  | none => none
  | some (.error _) => some { ret := -EINVAL }
  | some (.ok g) =>
    let stored := g.writes ++
      ipaNatiCopyIpv4RuleToHw outcomes.natNext t g.rule g.tblEntry ++
      ipaNatiCopyIpv4IndexRuleToHw outcomes.indexNext t g.indexSwRule g.indxTblEntry
    let (ret, enabled) := ipaNatiPostIpv4DmaCmd outcomes.enable t g.tblEntry
    if ret ≠ 0 then some { ret := - EIO, writes := stored }
    else
      let (ruleHdl, issued) := ipaNatiMakeRuleHdl t g.tblEntry
      let ws := stored ++ enabled ++ issued
      if ruleHdl = 0 then some { ret := -EINVAL, writes := ws }
      else some { ret := 0, ruleHdl := ruleHdl, writes := ws }

/-!
## Deleting a rule

`ipa_nati_del_ipv4_rule` and the functions it calls. The long `ipa_nati_post_del_dma_cmd` is
cut where its comments cut it: the command for the rule table, the commands for the index
table, and, after the ioctl, the stores to each of the two.
-/
/-- `del_type`. -/
inductive DelType
  | onlyOne
  | head
  | middle
  | last
deriving DecidableEq, Repr

/-- The outcomes of the requests one delete issues: the `malloc` of the command, the `malloc`
inside `ReorderCmds`, and the ioctl. -/
structure DelOutcomes where
  cmdMalloc : Bool := true
  reorderMalloc : Bool := true
  ioctl : Bool := true
deriving DecidableEq, Repr

/-- `ipa_nati_parse_ipv4_rule_hdl`: table type and row number. `none` is the read before the
start of `rule_id_array` that handle 0 causes. -/
def ipaNatiParseIpv4RuleHdl (t : IpaNatIp4TableCache) (ruleHdl : Nat) : Option (Bool × Nat) :=
  if t.tableEntries + t.expnTableEntries ≤ ruleHdl then some (false, ipaNatInvalidNatEntry)
  else if ruleHdl = 0 then none
  else
    let ruleId := t.ruleId (ruleHdl - 1)
    some (ruleId % 2 = 1, ruleId / 2)

/-- The slot of row `tblEntry` of the base or the expansion table. -/
def slotOf (t : IpaNatIp4TableCache) (expnTbl : Bool) (tblEntry : Nat) : Nat :=
  if expnTbl then t.tableEntries + tblEntry else tblEntry

/-- `ipa_nati_find_rule_pos`. -/
def ipaNatiFindRulePos (t : IpaNatIp4TableCache) (expnTbl : Bool) (tblEntry : Nat) : DelType :=
  if expnTbl then
    if (t.expnRules tblEntry).nextIndex = ipaNatInvalidNatEntry then .last else .middle
  else
    if (t.rules tblEntry).nextIndex = ipaNatInvalidNatEntry then .onlyOne else .head

/-- `ipa_nati_find_index_rule_pos`. -/
def ipaNatiFindIndexRulePos (t : IpaNatIp4TableCache) (tblEntry : Nat) : DelType :=
  if t.tableEntries ≤ tblEntry then
    if (t.expnIndex (tblEntry - t.tableEntries)).nextIndex = ipaNatInvalidNatEntry then .last
    else .middle
  else
    if (t.index tblEntry).nextIndex = ipaNatInvalidNatEntry then .onlyOne else .head

/-- The command that writes `data` into the next index of the rule row `prevEntry`. -/
def ruleNextCmd (t : IpaNatIp4TableCache) (prevEntry data : Nat) : IpaIocNatDmaOne :=
  if t.tableEntries ≤ prevEntry then
    { baseAddr := .expnTbl
      offset := ipaNatiGetEntryOffset t (prevEntry - t.tableEntries) + ipaNatRuleNextFieldOffset
      data := data }
  else
    { baseAddr := .baseTbl
      offset := ipaNatiGetEntryOffset t prevEntry + ipaNatRuleNextFieldOffset
      data := data }

/-- The command that writes `data` into the next index of the index row `prevEntry`. -/
def indexNextCmd (t : IpaNatIp4TableCache) (prevEntry data : Nat) : IpaIocNatDmaOne :=
  if t.tableEntries ≤ prevEntry then
    { baseAddr := .indexExpnTbl
      offset := ipaNatiGetIndexEntryOffset t (prevEntry - t.tableEntries) +
        ipaNatIndexRuleNextFieldOffset
      data := data }
  else
    { baseAddr := .indxTbl
      offset := ipaNatiGetIndexEntryOffset t prevEntry + ipaNatIndexRuleNextFieldOffset
      data := data }

/-- "Base Table rule Deletion": the command for the rule table. -/
def delRuleCmd (t : IpaNatIp4TableCache) (curTblEntry : Nat) (expnTbl : Bool) :
    DelType → IpaIocNatDmaOne
  | .onlyOne =>
    { baseAddr := .baseTbl
      offset := ipaNatiGetEntryOffset t curTblEntry + ipaNatRuleFlagFieldOffset
      data := ipaNatFlagDisableBitMask }
  | .head =>
    { baseAddr := .baseTbl
      offset := ipaNatiGetEntryOffset t curTblEntry + ipaNatRuleProtoFieldOffset
      data := ipaNatInvalidProtoFieldValue }
  | .middle =>
    let cur := t.rules (slotOf t expnTbl curTblEntry)
    ruleNextCmd t cur.prevIndex cur.nextIndex
  | .last =>
    ruleNextCmd t (t.rules (slotOf t expnTbl curTblEntry)).prevIndex ipaNatInvalidNatEntry

/-- "Index Table rule Deletion": the commands for the index table. A head takes over the
fields of the entry after it. -/
def delIndexCmds (t : IpaNatIp4TableCache) (indxTblEntry : Nat) :
    DelType → List IpaIocNatDmaOne
  | .onlyOne =>
    [{ baseAddr := .indxTbl
       offset := ipaNatiGetIndexEntryOffset t indxTblEntry + ipaNatIndexRuleNatIndexFieldOffset
       data := ipaNatInvalidNatEntry }]
  | .head =>
    let next := t.expnIndex (sub16 (t.index indxTblEntry).nextIndex t.tableEntries)
    [{ baseAddr := .indxTbl
       offset := ipaNatiGetIndexEntryOffset t indxTblEntry + ipaNatIndexRuleNatIndexFieldOffset
       data := next.tblEntry },
     { baseAddr := .indxTbl
       offset := ipaNatiGetIndexEntryOffset t indxTblEntry + ipaNatIndexRuleNextFieldOffset
       data := next.nextIndex }]
  | .middle =>
    [indexNextCmd t (t.prevIndexMeta (indxTblEntry - t.tableEntries))
      (t.index indxTblEntry).nextIndex]
  | .last =>
    [indexNextCmd t (t.prevIndexMeta (indxTblEntry - t.tableEntries)) ipaNatInvalidNatEntry]

/-- `ReorderCmds`: rotate the commands so that those for the index table come first, when the
first of them is not in front already. -/
def reorderCmds (malloc : Bool) (cmds : List IpaIocNatDmaOne) : List IpaIocNatDmaOne :=
  let indxTblStart := cmds.findIdx fun cmd =>
    cmd.baseAddr = .indxTbl ∨ cmd.baseAddr = .indexExpnTbl
  if indxTblStart = 0 ∨ indxTblStart = cmds.length ∨ malloc = false then cmds
  else cmds.drop indxTblStart ++ cmds.take indxTblStart

/-- After the ioctl: repair the back link behind a row taken from the middle, and clear the
row unless it stays as a dead head. -/
def delRuleStores (t : IpaNatIp4TableCache) (curTblEntry : Nat) (expnTbl : Bool)
    (rulePos : DelType) : List Write :=
  let cur := slotOf t expnTbl curTblEntry
  let repaired :=
    if rulePos = .middle then
      let nextEntry := sub16 (t.rules cur).nextIndex t.tableEntries
      [.rule (t.tableEntries + nextEntry)
        ((t.expnRules nextEntry).updatePrevIndex (t.rules cur).prevIndex)]
    else []
  repaired ++ if rulePos = .head then [] else [.rule cur {}]

/-- After the ioctl: the stores to the index table and its metadata. When the head took over
the fields of the entry after it, that entry is cleared, and the rule the moved entry names is
told its new place. `indxNextEntry` is the row that followed the head before the ioctl. -/
def delIndexStores (t : IpaNatIp4TableCache) (indxTblEntry indxNextEntry : Nat) :
    DelType → List Write
  | .head =>
    let indxNextNextEntry := (t.expnIndex indxNextEntry).nextIndex
    let tableEntry := (t.index indxTblEntry).tblEntry
    (if indxNextNextEntry ≠ 0 ∧ t.tableEntries ≤ indxNextNextEntry then
      [.prevMeta (indxNextNextEntry - t.tableEntries) indxTblEntry]
    else []) ++
    [.index (t.tableEntries + indxNextEntry) {},
     .rule tableEntry ((t.rules tableEntry).updateIndxTblEntry indxTblEntry)]
  | .middle =>
    let nextEntry := (t.index indxTblEntry).nextIndex
    let nextEntry := if t.tableEntries ≤ nextEntry then nextEntry - t.tableEntries else nextEntry
    [.prevMeta nextEntry (t.prevIndexMeta (indxTblEntry - t.tableEntries)),
     .prevMeta (indxTblEntry - t.tableEntries) ipaNatInvalidNatEntry,
     .index indxTblEntry {}]
  | .onlyOne | .last => [.index indxTblEntry {}]

/-- `ipa_nati_post_del_dma_cmd`. -/
def ipaNatiPostDelDmaCmd (outcomes : DelOutcomes) (t : IpaNatIp4TableCache)
    (curTblEntry : Nat) (expnTbl : Bool) (rulePos : DelType) : Int × List Write :=
  let cur := t.rules (slotOf t expnTbl curTblEntry)
  if outcomes.cmdMalloc = false then (-ENOMEM, [])
  else if cur.enable = false then (-EINVAL, [])
  else
    let indxTblEntry := cur.indxTblEntry
    let indxRulePos := ipaNatiFindIndexRulePos t indxTblEntry
    let cmds := reorderCmds outcomes.reorderMalloc
      (delRuleCmd t curTblEntry expnTbl rulePos :: delIndexCmds t indxTblEntry indxRulePos)
    if outcomes.ioctl = false then (- EIO, [])
    else
      let posted := cmds.map Write.dma
      let indxNextEntry := sub16 (t.index indxTblEntry).nextIndex t.tableEntries
      let ruleStores := delRuleStores (t.writes posted) curTblEntry expnTbl rulePos
      let indexStores := delIndexStores (t.writes (posted ++ ruleStores)) indxTblEntry
        indxNextEntry indxRulePos
      (0, posted ++ ruleStores ++ indexStores)

/-- `ipa_nati_del_dead_ipv4_head_nodes`: clear the dead heads nothing hangs off any more. -/
def ipaNatiDelDeadIpv4HeadNodes (t : IpaNatIp4TableCache) : List Write :=
  ((List.range t.tableEntries).filter fun cnt =>
    (t.rules cnt).protocol = ipaNatInvalidProtoFieldCmp ∧
      (t.rules cnt).nextIndex = ipaNatInvalidNatEntry).map fun cnt => .rule cnt {}

structure DelResult where
  ret : Int
  writes : List Write := []

/-- `ipa_nati_del_ipv4_rule`. The handle is cut to 16 bits for parsing and used at full width
to clear `rule_id_array`; `none` is an access outside that array. -/
def ipaNatiDelIpv4Rule (outcomes : DelOutcomes) (t : IpaNatIp4TableCache) (ruleHdl : Nat) :
    Option DelResult :=
  match ipaNatiParseIpv4RuleHdl t (ruleHdl % 65536) with
  | none => none
  | some (expnTbl, tblEntry) =>
    if tblEntry = ipaNatInvalidNatEntry then some { ret := -EINVAL }
    else if t.valid = false then some { ret := -EINVAL }
    else
      let rulePos := ipaNatiFindRulePos t expnTbl tblEntry
      let (ret, ws) := ipaNatiPostDelDmaCmd outcomes t tblEntry expnTbl rulePos
      if ret ≠ 0 then some { ret := -EINVAL, writes := ws }
      else
        let ws := ws ++ ipaNatiDelDeadIpv4HeadNodes (t.writes ws)
        if ruleHdl - 1 < t.tableEntries + t.expnTableEntries then
          some { ret := 0, writes := ws ++ [.ruleId (ruleHdl - 1) ipaNatInvalidNatEntry] }
        else none

end Hima.Ipanat
