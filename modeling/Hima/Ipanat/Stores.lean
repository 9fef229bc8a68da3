import Hima.Ipanat.IndexInvariant

/-!
# What the stores do

One equation for each command the driver posts, on tables whose offset within the mapping is
0. The index link of an add is the exception among them: its offset has been cut to 16 bits.
-/
namespace Hima.Ipanat

open IpaNatIp4TableCache Function

/-- What `ipa_nati_add_ipv4_tbl` establishes about the sizes and the state of a table. -/
structure WellSized (t : IpaNatIp4TableCache) : Prop where
  valid : t.valid = true
  twoEntries : 2 ≤ t.tableEntries
  twoExpn : 2 ≤ t.expnTableEntries
  entriesLe : t.tableEntries ≤ 32768
  expnLe : t.expnTableEntries ≤ 16384
  offset : t.tblAddrOffset = 0

namespace IpaNatIp4TableCache

variable (t : IpaNatIp4TableCache)

/-! ### Fields no store touches -/

theorem write_dims (w : Write) : (t.write w).tableEntries = t.tableEntries ∧
    (t.write w).expnTableEntries = t.expnTableEntries ∧
    (t.write w).tblAddrOffset = t.tblAddrOffset ∧ (t.write w).valid = t.valid ∧
    (t.write w).publicAddr = t.publicAddr := by
  cases w with
  | dma cmd =>
    simp only [write, dma]
    cases cmd.baseAddr <;> exact ⟨rfl, rfl, rfl, rfl, rfl⟩
  | rule | index | prevMeta | ruleId => exact ⟨rfl, rfl, rfl, rfl, rfl⟩

variable (ws : List Write)

theorem writes_dims : (t.writes ws).tableEntries = t.tableEntries ∧
    (t.writes ws).expnTableEntries = t.expnTableEntries ∧
    (t.writes ws).tblAddrOffset = t.tblAddrOffset ∧ (t.writes ws).valid = t.valid ∧
    (t.writes ws).publicAddr = t.publicAddr := by
  induction ws generalizing t with
  | nil => exact ⟨rfl, rfl, rfl, rfl, rfl⟩
  | cons w ws ih =>
    obtain ⟨h₁, h₂, h₃, h₄, h₅⟩ := ih (t.write w)
    obtain ⟨g₁, g₂, g₃, g₄, g₅⟩ := t.write_dims w
    exact ⟨h₁.trans g₁, h₂.trans g₂, h₃.trans g₃, h₄.trans g₄, h₅.trans g₅⟩

@[simp] theorem writes_tableEntries :
    (t.writes ws).tableEntries = t.tableEntries := (t.writes_dims ws).1

@[simp] theorem writes_expnTableEntries :
    (t.writes ws).expnTableEntries = t.expnTableEntries := (t.writes_dims ws).2.1

@[simp] theorem writes_tblAddrOffset :
    (t.writes ws).tblAddrOffset = t.tblAddrOffset := (t.writes_dims ws).2.2.1

@[simp] theorem writes_valid : (t.writes ws).valid = t.valid :=
  (t.writes_dims ws).2.2.2.1

theorem dstSlot_writes : (t.writes ws).dstSlot = t.dstSlot := by
  funext c
  simp only [dstSlot, writes_tableEntries]

theorem srcSlot_writes : (t.writes ws).srcSlot = t.srcSlot := by
  funext c
  simp only [srcSlot, writes_tableEntries]

end IpaNatIp4TableCache

variable {t : IpaNatIp4TableCache}

theorem WellSized.writes (h : WellSized t) (ws : List Write) :
    WellSized (t.writes ws) where
  valid := (t.writes_valid ws).trans h.valid
  twoEntries := (t.writes_tableEntries ws).symm ▸ h.twoEntries
  twoExpn := (t.writes_expnTableEntries ws).symm ▸ h.twoExpn
  entriesLe := (t.writes_tableEntries ws).symm ▸ h.entriesLe
  expnLe := (t.writes_expnTableEntries ws).symm ▸ h.expnLe
  offset := (t.writes_tblAddrOffset ws).trans h.offset

theorem WellSized.hashSize (h : WellSized t) :
    (UInt16.ofNat (sub16 t.tableEntries 1)).toNat = t.tableEntries - 1 := by
  have two := h.twoEntries
  have le := h.entriesLe
  rw [sub16_of_le (by omega) (by omega)]
  apply UInt16.toNat_ofNat_of_lt'
  change t.tableEntries - 1 < 65536
  omega

theorem WellSized.dstSlot_bounds (h : WellSized t)
    (c : IpaNatIpv4Rule) : 0 < t.dstSlot c ∧ t.dstSlot c < t.tableEntries := by
  have two := h.twoEntries
  have bounds := dstHash_bounds c.targetIp c.targetPort c.publicPort c.protocol
    (UInt16.ofNat (sub16 t.tableEntries 1)) (by rw [h.hashSize]; omega)
  rw [h.hashSize] at bounds
  exact ⟨bounds.1, by unfold dstSlot; omega⟩

theorem WellSized.srcSlot_bounds (h : WellSized t)
    (c : IpaNatIpv4Rule) : 0 < t.srcSlot c ∧ t.srcSlot c < t.tableEntries := by
  have two := h.twoEntries
  have bounds := srcHash_bounds c.privateIp c.privatePort c.targetIp c.targetPort c.protocol
    (UInt16.ofNat (sub16 t.tableEntries 1)) (by rw [h.hashSize]; omega)
  rw [h.hashSize] at bounds
  exact ⟨bounds.1, by unfold srcSlot; omega⟩

/-! ### Row updates -/

/-- The row with another next index. -/
def IpaNatRule.setNext (r : IpaNatRule) (n : Nat) : IpaNatRule := { r with nextIndex := n }

/-- The index row with another next index. -/
def IpaNatIndxTblRule.setNext (r : IpaNatIndxTblRule) (n : Nat) : IpaNatIndxTblRule :=
  { r with nextIndex := n }

/-- The index row naming another rule. -/
def IpaNatIndxTblRule.setEntry (r : IpaNatIndxTblRule) (s : Nat) : IpaNatIndxTblRule :=
  { r with tblEntry := s }

/-- The row with only the enable bit of its flags word set, or with none. -/
def IpaNatRule.setFlags (r : IpaNatRule) (enable : Bool) : IpaNatRule :=
  { r with rsvd1 := 0, redirect := false, enable := enable }

/-- The row of a dead head: the word that holds the protocol also holds the top byte of the
time stamp. -/
def IpaNatRule.setDead (r : IpaNatRule) : IpaNatRule :=
  { r with timeStamp := r.timeStamp % 0x10000, protocol := ipaNatInvalidProtoFieldCmp }

/-! ### Stores of the CPU -/

variable {t u : IpaNatIp4TableCache}

@[simp] theorem write_rule (s : Nat) (r : IpaNatRule) :
    t.write (.rule s r) = { t with rules := update t.rules s r } := rfl

@[simp] theorem write_index (s : Nat) (r : IpaNatIndxTblRule) :
    t.write (.index s r) = { t with index := update t.index s r } := rfl

@[simp] theorem write_prevMeta (i v : Nat) :
    t.write (.prevMeta i v) = { t with prevIndexMeta := update t.prevIndexMeta i v } := rfl

@[simp] theorem write_ruleId (i v : Nat) :
    t.write (.ruleId i v) = { t with ruleId := update t.ruleId i v } := rfl

/-! ### DMA commands -/

@[simp] theorem write_dma_prevIndexMeta (cmd : IpaIocNatDmaOne) :
    (t.write (.dma cmd)).prevIndexMeta = t.prevIndexMeta := by
  simp only [write, dma]
  cases cmd.baseAddr <;> rfl

@[simp] theorem write_dma_ruleId (cmd : IpaIocNatDmaOne) :
    (t.write (.dma cmd)).ruleId = t.ruleId := by
  simp only [write, dma]
  cases cmd.baseAddr <;> rfl

theorem dma_rule (cmd : IpaIocNatDmaOne) {s f : Nat}
    (table : cmd.baseAddr = .baseTbl ∨ cmd.baseAddr = .expnTbl) (slot : t.dmaSlot cmd = s)
    (field : cmd.offset % ipaNatTableEntrySize = f) :
    t.write (.dma cmd) = { t with rules := update t.rules s ((t.rules s).store16 f cmd.data) } := by
  subst slot field
  rcases table with table | table <;> simp only [write, dma, table]

theorem dma_index (cmd : IpaIocNatDmaOne) {s f : Nat}
    (table : cmd.baseAddr = .indxTbl ∨ cmd.baseAddr = .indexExpnTbl) (slot : t.dmaSlot cmd = s)
    (field : cmd.offset % ipaNatIndexTableEntrySize = f) :
    t.write (.dma cmd) = { t with index := update t.index s ((t.index s).store16 f cmd.data) } := by
  subst slot field
  rcases table with table | table <;> simp only [write, dma, table]

/-- The next index of a rule row, on the add path as on the delete path. -/
theorem dma_ruleNextCmd (same : t.tableEntries = u.tableEntries) (offset : u.tblAddrOffset = 0) (p data : Nat) :
    t.write (.dma (ruleNextCmd u p data)) =
      { t with rules := update t.rules p ((t.rules p).setNext data) } := by
  unfold ruleNextCmd ipaNatiGetEntryOffset ipaNatRuleNextFieldOffset ipaNatTableEntrySize
  split
  next expn =>
    refine dma_rule _ (f := 8) (.inr rfl) ?_ ?_
    · simp only [dmaSlot, ipaNatTableEntrySize]
      omega
    · simp only [ipaNatTableEntrySize]
      omega
  next base =>
    refine dma_rule _ (f := 8) (.inl rfl) ?_ ?_
    · simp only [dmaSlot, ipaNatTableEntrySize]
      omega
    · simp only [ipaNatTableEntrySize]
      omega

theorem dma_indexNextCmd (same : t.tableEntries = u.tableEntries) (offset : u.tblAddrOffset = 0)
    (p data : Nat) :
    t.write (.dma (indexNextCmd u p data)) =
      { t with index := update t.index p ((t.index p).setNext data) } := by
  unfold indexNextCmd ipaNatiGetIndexEntryOffset ipaNatIndexRuleNextFieldOffset ipaNatIndexTableEntrySize
  split
  next expn =>
    refine dma_index _ (f := 2) (.inr rfl) ?_ ?_
    · simp only [dmaSlot, ipaNatIndexTableEntrySize]
      omega
    · simp only [ipaNatIndexTableEntrySize]
      omega
  next base =>
    refine dma_index _ (f := 2) (.inl rfl) ?_ ?_
    · simp only [dmaSlot, ipaNatIndexTableEntrySize]
      omega
    · simp only [ipaNatIndexTableEntrySize]
      omega

/-- The index row whose next index the add path writes for the row `p`: a `uint16_t` offset
reaches the first 16384 rows of a table only. -/
def indexLinkSlot (N p : Nat) : Nat := if N ≤ p then p else p % 16384

/-- The command of `ipa_nati_copy_ipv4_index_rule_to_hw`. -/
def indexLinkCmd (t : IpaNatIp4TableCache) (prevEntry data : Nat) : IpaIocNatDmaOne :=
  let cmd := indexNextCmd t prevEntry data
  { cmd with offset := cmd.offset % 65536 }

theorem dma_indexLinkCmd (same : t.tableEntries = u.tableEntries) (sized : WellSized u)
    {p : Nat} (hp : p < u.tableEntries + u.expnTableEntries) (data : Nat) :
    t.write (.dma (indexLinkCmd u p data)) = { t with
        index := update t.index (indexLinkSlot u.tableEntries p)
          ((t.index (indexLinkSlot u.tableEntries p)).setNext data) } := by
  have offset := sized.offset
  have expn_le := sized.expnLe
  unfold indexLinkCmd indexNextCmd indexLinkSlot ipaNatiGetIndexEntryOffset
    ipaNatIndexRuleNextFieldOffset ipaNatIndexTableEntrySize
  split
  next expn =>
    refine dma_index _ (f := 2) (.inr rfl) ?_ ?_
    · simp only [dmaSlot, ipaNatIndexTableEntrySize]
      omega
    · simp only [ipaNatIndexTableEntrySize]
      omega
  next base =>
    refine dma_index _ (f := 2) (.inl rfl) ?_ ?_
    · simp only [dmaSlot, ipaNatIndexTableEntrySize]
      omega
    · simp only [ipaNatIndexTableEntrySize]
      omega

/-- The command of `ipa_nati_post_ipv4_dma_cmd`. -/
def enableCmd (t : IpaNatIp4TableCache) (entry : Nat) : IpaIocNatDmaOne :=
  if entry < t.tableEntries then
    { baseAddr := .baseTbl
      offset := entry * ipaNatTableEntrySize + ipaNatRuleFlagFieldOffset
      data := ipaNatFlagEnableBitMask }
  else
    { baseAddr := .expnTbl
      offset := (entry - t.tableEntries) * ipaNatTableEntrySize + ipaNatRuleFlagFieldOffset +
        t.tblAddrOffset
      data := ipaNatFlagEnableBitMask }

theorem store16_enable (r : IpaNatRule) :
    r.store16 ipaNatRuleFlagFieldOffset ipaNatFlagEnableBitMask = r.setFlags true := rfl

theorem store16_disable (r : IpaNatRule) :
    r.store16 ipaNatRuleFlagFieldOffset ipaNatFlagDisableBitMask = r.setFlags false := rfl

theorem dma_enableCmd (same : t.tableEntries = u.tableEntries) (offset : u.tblAddrOffset = 0) (e : Nat) :
    t.write (.dma (enableCmd u e)) = { t with rules := update t.rules e ((t.rules e).setFlags true) } := by
  unfold enableCmd ipaNatTableEntrySize ipaNatRuleFlagFieldOffset
  split
  next base =>
    rw [← store16_enable]
    refine dma_rule _ (.inl rfl) ?_ ?_
    · simp only [dmaSlot, ipaNatTableEntrySize]
      omega
    · simp only [ipaNatTableEntrySize, ipaNatRuleFlagFieldOffset]
      omega
  next expn =>
    rw [← store16_enable]
    refine dma_rule _ (.inr rfl) ?_ ?_
    · simp only [dmaSlot, ipaNatTableEntrySize]
      omega
    · simp only [ipaNatTableEntrySize, ipaNatRuleFlagFieldOffset]
      omega

theorem store16_dead (r : IpaNatRule) :
    r.store16 ipaNatRuleProtoFieldOffset ipaNatInvalidProtoFieldValue = r.setDead := by
  have stamp : ipaNatInvalidProtoFieldValue % 0x100 = 0 := rfl
  have protocol : UInt8.ofNat (ipaNatInvalidProtoFieldValue / 0x100) = ipaNatInvalidProtoFieldCmp := rfl
  rfl

theorem dma_delRuleCmd_onlyOne (offset : u.tblAddrOffset = 0) (b : Nat) (expnTbl : Bool) :
    t.write (.dma (delRuleCmd u b expnTbl .onlyOne)) =
      { t with rules := update t.rules b ((t.rules b).setFlags false) } := by
  rw [← store16_disable]
  refine dma_rule _ (.inl rfl) ?_ ?_ <;> simp only [delRuleCmd, dmaSlot, ipaNatiGetEntryOffset,
      ipaNatTableEntrySize, ipaNatRuleFlagFieldOffset] <;> omega

theorem dma_delRuleCmd_head (offset : u.tblAddrOffset = 0) (b : Nat) (expnTbl : Bool) :
    t.write (.dma (delRuleCmd u b expnTbl .head)) =
      { t with rules := update t.rules b (t.rules b).setDead } := by
  rw [← store16_dead]
  refine dma_rule _ (.inl rfl) ?_ ?_ <;> simp only [delRuleCmd, dmaSlot, ipaNatiGetEntryOffset,
      ipaNatTableEntrySize, ipaNatRuleProtoFieldOffset] <;> omega

/-- The command that writes the rule a base row of the index table names. -/
def indexEntryCmd (t : IpaNatIp4TableCache) (x data : Nat) : IpaIocNatDmaOne where
  baseAddr := .indxTbl
  offset := ipaNatiGetIndexEntryOffset t x + ipaNatIndexRuleNatIndexFieldOffset
  data := data

theorem dma_indexEntryCmd (offset : u.tblAddrOffset = 0) (x data : Nat) :
    t.write (.dma (indexEntryCmd u x data)) =
      { t with index := update t.index x ((t.index x).setEntry data) } := by
  refine dma_index _ (f := 0) (.inl rfl) ?_ ?_ <;>
    simp only [indexEntryCmd, dmaSlot, ipaNatiGetIndexEntryOffset,
      ipaNatIndexTableEntrySize, ipaNatIndexRuleNatIndexFieldOffset] <;> omega

end Hima.Ipanat
