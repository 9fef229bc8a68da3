import Mathlib.Data.Nat.Bitwise

/-!
# The NAT table

The memory that `ipa_nat_drvi.c` shares with the hardware: rule rows, index rows and the
bookkeeping kept beside them, with the 16-bit writes of the DMA engine. The base table and
its expansion are one contiguous mapping, so a row is named by its slot number: slot `s`
below `tableEntries` is a base row, slot `tableEntries + k` is expansion row `k`. The same
holds of the index table. Slot numbers are natural numbers; every other field has the width
it has in the source.
-/
namespace Hima.Ipanat

def EIO : Int := 5
def ENOMEM : Int := 12
def EINVAL : Int := 22

/-! ### Client rules and rows -/

/-- `ipa_nat_ipv4_rule`. -/
structure IpaNatIpv4Rule where
  targetIp : UInt32 := 0
  privateIp : UInt32 := 0
  targetPort : UInt16 := 0
  privatePort : UInt16 := 0
  publicPort : UInt16 := 0
  protocol : UInt8 := 0
deriving DecidableEq, Repr

/-- `struct ipa_nat_sw_rule`, the layout under which the driver writes a rule row. The
default value is the row that `memset(…, 0, …)` leaves. -/
structure IpaNatRule where
  privateIp : UInt32 := 0
  targetIp : UInt32 := 0
  nextIndex : Nat := 0
  publicPort : UInt16 := 0
  privatePort : UInt16 := 0
  targetPort : UInt16 := 0
  ipChksum : UInt16 := 0
  rsvd1 : Nat := 0
  redirect : Bool := false
  enable : Bool := false
  timeStamp : Nat := 0
  protocol : UInt8 := 0
  prevIndex : Nat := 0
  indxTblEntry : Nat := 0
  rsvd2 : UInt16 := 0
  tcpUdpChksum : UInt16 := 0
deriving DecidableEq, Repr

/-- `struct ipa_nat_sw_indx_tbl_rule`. -/
structure IpaNatIndxTblRule where
  tblEntry : Nat := 0
  nextIndex : Nat := 0
deriving DecidableEq, Repr

/-- The rule a client submitted, read back from its row. -/
def IpaNatRule.client (r : IpaNatRule) : IpaNatIpv4Rule :=
  ⟨r.targetIp, r.privateIp, r.targetPort, r.privatePort, r.publicPort, r.protocol⟩

/-- `IPA_NAT_INVALID_PROTO_FIELD_CMP`: the protocol of a head that was deleted while rows
still hang off it. -/
def ipaNatInvalidProtoFieldCmp : UInt8 := 0xFF

/-- `IPA_NAT_INVALID_NAT_ENTRY`. -/
def ipaNatInvalidNatEntry : Nat := 0

/-! ### Hashes and checksums -/

/-- `dst_hash`: a zero hash goes to the last base slot, slot 0 stays unused. -/
def dstHash (trgtIp : UInt32) (trgtPort publicPort : UInt16) (proto : UInt8) (size : UInt16) : UInt16 :=
  let hash := trgtIp.toUInt16 ^^^ (trgtIp >>> 16).toUInt16 ^^^ trgtPort ^^^ publicPort ^^^
    proto.toUInt16
  let hash := hash &&& size
  if hash = 0 then size else hash

/-- `src_hash`. -/
def srcHash (privIp : UInt32) (privPort : UInt16) (trgtIp : UInt32) (trgtPort : UInt16)
    (proto : UInt8) (size : UInt16) : UInt16 :=
  let hash := privIp.toUInt16 ^^^ (privIp >>> 16).toUInt16 ^^^ privPort ^^^
    trgtIp.toUInt16 ^^^ (trgtIp >>> 16).toUInt16 ^^^ trgtPort ^^^ proto.toUInt16
  let hash := hash &&& size
  if hash = 0 then size else hash

theorem masked_bounds (hash size : UInt16) (positive : 0 < size.toNat) :
    0 < (if hash &&& size = 0 then size else hash &&& size).toNat ∧
      (if hash &&& size = 0 then size else hash &&& size).toNat ≤ size.toNat := by
  split
  next => exact ⟨positive, Nat.le_refl _⟩
  next nonzero =>
    constructor
    · apply Nat.pos_of_ne_zero
      intro zero
      exact nonzero (UInt16.toNat_inj.mp zero)
    · exact Nat.and_le_right

theorem dstHash_bounds (trgtIp : UInt32) (trgtPort publicPort : UInt16) (proto : UInt8)
    (size : UInt16) (positive : 0 < size.toNat) :
    0 < (dstHash trgtIp trgtPort publicPort proto size).toNat ∧
      (dstHash trgtIp trgtPort publicPort proto size).toNat ≤ size.toNat :=
  masked_bounds _ size positive

theorem srcHash_bounds (privIp : UInt32) (privPort : UInt16) (trgtIp : UInt32)
    (trgtPort : UInt16) (proto : UInt8) (size : UInt16) (positive : 0 < size.toNat) :
    0 < (srcHash privIp privPort trgtIp trgtPort proto size).toNat ∧
      (srcHash privIp privPort trgtIp trgtPort proto size).toNat ≤ size.toNat :=
  masked_bounds _ size positive

/-- The carry test after each partial sum of the checksum functions. -/
def foldCarry (cksum : UInt32) : UInt32 :=
  if cksum >>> 16 = 0 then cksum else (cksum &&& 0x0000FFFF) + 1

/-- `ipa_nati_calc_ip_cksum`. -/
def ipaNatiCalcIpCksum (pubIpAddr privIpAddr : UInt32) : UInt16 :=
  let cksum := foldCarry ((pubIpAddr &&& (0xFFFF : UInt32)) + (pubIpAddr >>> 16))
  let privIpAddr := ~~~privIpAddr
  let cksum := foldCarry (cksum + (privIpAddr &&& (0xFFFF : UInt32)))
  let cksum := foldCarry (cksum + (privIpAddr >>> 16))
  cksum.toUInt16

/-- `ipa_nati_calc_tcp_udp_cksum`. -/
def ipaNatiCalcTcpUdpCksum (pubIpAddr : UInt32) (pubPort : UInt16) (privIpAddr : UInt32)
    (privPort : UInt16) : UInt16 :=
  let cksum := foldCarry ((pubIpAddr &&& (0xFFFF : UInt32)) + (pubIpAddr >>> 16))
  let cksum := foldCarry (cksum + pubPort.toUInt32)
  let privIpAddr := ~~~privIpAddr
  let cksum := foldCarry (cksum + (privIpAddr &&& (0xFFFF : UInt32)))
  let cksum := foldCarry (cksum + (privIpAddr >>> 16))
  let privPort := ~~~privPort
  let cksum := foldCarry (cksum + privPort.toUInt32)
  cksum.toUInt16

/-- Subtraction of two `uint16_t`. -/
def sub16 (a b : Nat) : Nat := (a + 65536 - b) % 65536

theorem sub16_of_le {a b : Nat} (le : b ≤ a) (small : a < 65536) : sub16 a b = a - b := by
  unfold sub16
  omega

/-! ### The table cache -/

/-- What `ipv4_rules_addr` may hold: nothing, the `MAP_FAILED` value that a failed `mmap`
returns, the address of a mapping of so many bytes, or the address a mapping had before it was
unmapped. The expansion and index addresses are computed from it. -/
inductive MapAddr
  | null
  | mapFailed
  | mapped (size : Nat)
  | unmapped
deriving DecidableEq, Repr

/-- `struct ipa_nat_ip4_table_cache`, with the contents of the mapping and of the two arrays.
An array is recorded with the number of elements it was allocated for, the descriptor of the
table's device with whether it is open. -/
structure IpaNatIp4TableCache where
  valid : Bool := false
  publicAddr : UInt32 := 0
  natFd : Nat := 0
  natFdOpen : Bool := false
  size : Nat := 0
  tblAddrOffset : Nat := 0
  tableEntries : Nat := 0
  expnTableEntries : Nat := 0
  ipv4RulesAddr : MapAddr := .null
  indexExpnTableMeta : Option Nat := none
  ruleIdArray : Option Nat := none
  rules : Nat → IpaNatRule := fun _ => {}
  index : Nat → IpaNatIndxTblRule := fun _ => {}
  prevIndexMeta : Nat → Nat := fun _ => 0
  ruleId : Nat → Nat := fun _ => 0

/-- The bucket of the rule table a client rule hashes to. -/
def IpaNatIp4TableCache.dstSlot (t : IpaNatIp4TableCache) (c : IpaNatIpv4Rule) : Nat :=
  (dstHash c.targetIp c.targetPort c.publicPort c.protocol
    (UInt16.ofNat (sub16 t.tableEntries 1))).toNat

/-- The bucket of the index table a client rule hashes to. -/
def IpaNatIp4TableCache.srcSlot (t : IpaNatIp4TableCache) (c : IpaNatIpv4Rule) : Nat :=
  (srcHash c.privateIp c.privatePort c.targetIp c.targetPort c.protocol
    (UInt16.ofNat (sub16 t.tableEntries 1))).toNat

/-! ### Writes -/

/-- `nat_table_type`. -/
inductive NatTableType
  | baseTbl
  | expnTbl
  | indxTbl
  | indexExpnTbl
deriving DecidableEq, Repr

/-- `struct ipa_ioc_nat_dma_one`: a 16-bit store at a byte offset of one of the tables. The
table index is that of the only table. -/
structure IpaIocNatDmaOne where
  baseAddr : NatTableType
  offset : Nat
  data : Nat
deriving DecidableEq, Repr

def ipaNatTableEntrySize : Nat := 32
def ipaNatIndexTableEntrySize : Nat := 4
def ipaNatRuleFlagFieldOffset : Nat := 18
def ipaNatRuleNextFieldOffset : Nat := 8
def ipaNatRuleProtoFieldOffset : Nat := 22
def ipaNatIndexRuleNextFieldOffset : Nat := 2
def ipaNatIndexRuleNatIndexFieldOffset : Nat := 0
def ipaNatFlagEnableBitMask : Nat := 0x8000
def ipaNatFlagDisableBitMask : Nat := 0x0000
def ipaNatInvalidProtoFieldValue : Nat := 0xFF00

/-- A 16-bit store into a rule row, at the three offsets the driver uses: the next index, the
flags word, and the word that holds the protocol and the top byte of the time stamp. -/
def IpaNatRule.store16 (r : IpaNatRule) (fieldOffset data : Nat) : IpaNatRule :=
  if fieldOffset = ipaNatRuleNextFieldOffset then { r with nextIndex := data }
  else if fieldOffset = ipaNatRuleFlagFieldOffset then
    { r with rsvd1 := data % 0x4000, redirect := data.testBit 14, enable := data.testBit 15 }
  else if fieldOffset = ipaNatRuleProtoFieldOffset then
    { r with
      timeStamp := r.timeStamp % 0x10000 + (data % 0x100) * 0x10000
      protocol := UInt8.ofNat (data / 0x100) }
  else r

/-- A 16-bit store into an index row. -/
def IpaNatIndxTblRule.store16 (r : IpaNatIndxTblRule) (fieldOffset data : Nat) :
    IpaNatIndxTblRule :=
  if fieldOffset = ipaNatIndexRuleNatIndexFieldOffset then { r with tblEntry := data }
  else if fieldOffset = ipaNatIndexRuleNextFieldOffset then { r with nextIndex := data }
  else r

/-- `UpdateSwSpecParams` with `IPA_NAT_SW_PARAM_PREV_INDX_BYTE`. -/
def IpaNatRule.updatePrevIndex (r : IpaNatRule) (value : Nat) : IpaNatRule :=
  { r with prevIndex := value }

/-- `UpdateSwSpecParams` with `IPA_NAT_SW_PARAM_INDX_TBL_ENTRY_BYTE`. -/
def IpaNatRule.updateIndxTblEntry (r : IpaNatRule) (value : Nat) : IpaNatRule :=
  { r with indxTblEntry := value }

/-- One store to the table: a row written by the CPU, a command executed by the DMA engine,
or an element of one of the two arrays. -/
inductive Write
  | rule (slot : Nat) (r : IpaNatRule)
  | index (slot : Nat) (r : IpaNatIndxTblRule)
  | dma (cmd : IpaIocNatDmaOne)
  | prevMeta (i : Nat) (v : Nat)
  | ruleId (i : Nat) (v : Nat)
deriving DecidableEq, Repr

/-- The slot a DMA command addresses: its offset is relative to the table it names. -/
def IpaNatIp4TableCache.dmaSlot (t : IpaNatIp4TableCache) (cmd : IpaIocNatDmaOne) : Nat :=
  match cmd.baseAddr with
  | .baseTbl => cmd.offset / ipaNatTableEntrySize
  | .expnTbl => t.tableEntries + cmd.offset / ipaNatTableEntrySize
  | .indxTbl => cmd.offset / ipaNatIndexTableEntrySize
  | .indexExpnTbl => t.tableEntries + cmd.offset / ipaNatIndexTableEntrySize

def IpaNatIp4TableCache.dma (t : IpaNatIp4TableCache) (cmd : IpaIocNatDmaOne) :
    IpaNatIp4TableCache :=
  let s := t.dmaSlot cmd
  match cmd.baseAddr with
  | .baseTbl | .expnTbl =>
    { t with
      rules := Function.update t.rules s
        ((t.rules s).store16 (cmd.offset % ipaNatTableEntrySize) cmd.data) }
  | .indxTbl | .indexExpnTbl =>
    { t with
      index := Function.update t.index s
        ((t.index s).store16 (cmd.offset % ipaNatIndexTableEntrySize) cmd.data) }

def IpaNatIp4TableCache.write (t : IpaNatIp4TableCache) : Write → IpaNatIp4TableCache
  | .rule s r => { t with rules := Function.update t.rules s r }
  | .index s r => { t with index := Function.update t.index s r }
  | .dma cmd => t.dma cmd
  | .prevMeta i v => { t with prevIndexMeta := Function.update t.prevIndexMeta i v }
  | .ruleId i v => { t with ruleId := Function.update t.ruleId i v }

/-- The table after a sequence of stores. -/
def IpaNatIp4TableCache.writes (t : IpaNatIp4TableCache) (ws : List Write) :
    IpaNatIp4TableCache :=
  ws.foldl IpaNatIp4TableCache.write t

namespace IpaNatIp4TableCache

variable (t : IpaNatIp4TableCache)

@[simp] theorem writes_nil : t.writes [] = t := rfl

@[simp] theorem writes_cons (w : Write) (ws : List Write) :
    t.writes (w :: ws) = (t.write w).writes ws := rfl

theorem writes_append (ws vs : List Write) : t.writes (ws ++ vs) = (t.writes ws).writes vs :=
  List.foldl_append

end IpaNatIp4TableCache

end Hima.Ipanat
