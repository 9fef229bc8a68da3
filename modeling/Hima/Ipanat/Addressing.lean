import Hima.Ipanat.Capacity

/-!
# The addresses of the commands

A DMA command names a table, and gives the place of a field relative to it. Six functions compute
that offset. Here is the address that each command is meant to have, and the tables for which the
offsets that are sent are these.
-/
namespace Hima.Ipanat

open Runs IpaNatIp4TableCache

variable {t : IpaNatIp4TableCache}

/-! ### What is sent -/

/-- The command as it is sent: its offset is a `uint32_t`. -/
def IpaIocNatDmaOne.sent (cmd : IpaIocNatDmaOne) : IpaIocNatDmaOne :=
  { cmd with offset := cmd.offset % 2 ^ 32 }

def Write.command : Write → Option IpaIocNatDmaOne
  | .dma cmd => some cmd.sent
  | _ => none

/-- The commands among the stores of a call. -/
def commands (ws : List Write) : List IpaIocNatDmaOne := ws.filterMap Write.command

/-! ### What is meant -/

/-- A row of one of the four tables. -/
structure TableRow where
  table : NatTableType
  row : Nat

def ruleRow (t : IpaNatIp4TableCache) (slot : Nat) : TableRow :=
  if slot < t.tableEntries then ⟨.baseTbl, slot⟩ else ⟨.expnTbl, slot - t.tableEntries⟩

def indexRow (t : IpaNatIp4TableCache) (slot : Nat) : TableRow :=
  if slot < t.tableEntries then ⟨.indxTbl, slot⟩ else ⟨.indexExpnTbl, slot - t.tableEntries⟩

def entrySize : NatTableType → Nat
  | .baseTbl | .expnTbl => ipaNatTableEntrySize
  | .indxTbl | .indexExpnTbl => ipaNatIndexTableEntrySize

/-- The command that stores into a field of the row. -/
def TableRow.store (t : IpaNatIp4TableCache) (r : TableRow) (field data : Nat) : IpaIocNatDmaOne where
  baseAddr := r.table
  offset := t.tblAddrOffset + r.row * entrySize r.table + field
  data := data

/-- An add links the two rows of the rule behind the ones before them, and enables it. -/
def addCommands (o : AddOutcomes) (t : IpaNatIp4TableCache) (g : GeneratedRule) :
    List IpaIocNatDmaOne :=
  (if g.rule.prevIndex = 0 ∨ o.natNext ≠ .posted then []
    else [(ruleRow t g.rule.prevIndex).store t ipaNatRuleNextFieldOffset g.tblEntry]) ++
  (if g.indexSwRule.prevIndex = 0 ∨ o.indexNext ≠ .posted then []
    else [(indexRow t g.indexSwRule.prevIndex).store t ipaNatIndexRuleNextFieldOffset
      g.indxTblEntry]) ++
  if o.enable = .posted then
    [(ruleRow t g.tblEntry).store t ipaNatRuleFlagFieldOffset ipaNatFlagEnableBitMask]
  else []

/-- A delete takes the row of the rule out of the rule table. -/
def delRuleCommand (t : IpaNatIp4TableCache) (cur : Nat) : DelType → IpaIocNatDmaOne
  | .onlyOne => (ruleRow t cur).store t ipaNatRuleFlagFieldOffset ipaNatFlagDisableBitMask
  | .head => (ruleRow t cur).store t ipaNatRuleProtoFieldOffset ipaNatInvalidProtoFieldValue
  | .middle =>
    (ruleRow t (t.rules cur).prevIndex).store t ipaNatRuleNextFieldOffset (t.rules cur).nextIndex
  | .last =>
    (ruleRow t (t.rules cur).prevIndex).store t ipaNatRuleNextFieldOffset ipaNatInvalidNatEntry

/-- And its row out of the index table. -/
def delIndexCommands (t : IpaNatIp4TableCache) (x : Nat) : DelType → List IpaIocNatDmaOne
  | .onlyOne =>
    [(indexRow t x).store t ipaNatIndexRuleNatIndexFieldOffset ipaNatInvalidNatEntry]
  | .head =>
    let next := t.expnIndex (sub16 (t.index x).nextIndex t.tableEntries)
    [(indexRow t x).store t ipaNatIndexRuleNatIndexFieldOffset next.tblEntry,
      (indexRow t x).store t ipaNatIndexRuleNextFieldOffset next.nextIndex]
  | .middle =>
    [(indexRow t (t.prevIndexMeta (x - t.tableEntries))).store t ipaNatIndexRuleNextFieldOffset
      (t.index x).nextIndex]
  | .last =>
    [(indexRow t (t.prevIndexMeta (x - t.tableEntries))).store t ipaNatIndexRuleNextFieldOffset
      ipaNatInvalidNatEntry]

/-- The commands of a delete of the row `row` of one of the two rule tables. -/
def delCommands (t : IpaNatIp4TableCache) (expnTbl : Bool) (row : Nat) : List IpaIocNatDmaOne :=
  let cur := slotOf t expnTbl row
  let x := (t.rules cur).indxTblEntry
  delRuleCommand t cur (ipaNatiFindRulePos t expnTbl row) ::
    delIndexCommands t x (ipaNatiFindIndexRulePos t x)

/-- The call sends the commands it is meant to send. -/
def WellAddressed (t : IpaNatIp4TableCache) : RuleOp → Prop
  | .add o c => ∀ g r, ipaNatiGenerateRule t c = some (.ok g) →
    ipaNatiAddIpv4Rule o t c = some r → commands r.writes = addCommands o t g
  | .del o h => ∀ expnTbl row ws, ipaNatiParseIpv4RuleHdl t (h % 65536) = some (expnTbl, row) →
    ipaNatiPostDelDmaCmd o t row expnTbl (ipaNatiFindRulePos t expnTbl row) = (0, ws) →
    commands ws = reorderCmds o.reorderMalloc (delCommands t expnTbl row)

/-! ### The commands of the code -/

theorem commands_append (ws vs : List Write) : commands (ws ++ vs) = commands ws ++ commands vs :=
  List.filterMap_append

theorem commands_dma (cmds : List IpaIocNatDmaOne) :
    commands (cmds.map .dma) = cmds.map IpaIocNatDmaOne.sent := by
  induction cmds with
  | nil => rfl
  | cons cmd cmds ih => exact congrArg (cmd.sent :: ·) ih

/-- The offset is kept when it has 32 bits. -/
theorem sent_eq {cmd : IpaIocNatDmaOne} (small : cmd.offset < 2 ^ 32) : cmd.sent = cmd := by
  rw [IpaIocNatDmaOne.sent, Nat.mod_eq_of_lt small]

theorem ruleNextCmd_eq (t : IpaNatIp4TableCache) (prev data : Nat) :
    ruleNextCmd t prev data = (ruleRow t prev).store t ipaNatRuleNextFieldOffset data := by
  unfold ruleNextCmd ruleRow
  split
  next expn =>
    rw [if_neg (Nat.not_lt.mpr expn), TableRow.store, ipaNatiGetEntryOffset, Nat.add_comm _ t.tblAddrOffset]
    rfl
  next base =>
    rw [if_pos (Nat.not_le.mp base), TableRow.store, ipaNatiGetEntryOffset, Nat.add_comm _ t.tblAddrOffset]
    rfl

theorem indexNextCmd_eq (t : IpaNatIp4TableCache) (prev data : Nat) :
    indexNextCmd t prev data = (indexRow t prev).store t ipaNatIndexRuleNextFieldOffset data := by
  unfold indexNextCmd indexRow
  split
  next expn =>
    rw [if_neg (Nat.not_lt.mpr expn), TableRow.store, ipaNatiGetIndexEntryOffset,
      Nat.add_comm _ t.tblAddrOffset]
    rfl
  next base =>
    rw [if_pos (Nat.not_le.mp base), TableRow.store, ipaNatiGetIndexEntryOffset, Nat.add_comm _ t.tblAddrOffset]
    rfl

theorem enableCmd_eq (offset : t.tblAddrOffset = 0) (entry : Nat) :
    enableCmd t entry = (ruleRow t entry).store t ipaNatRuleFlagFieldOffset ipaNatFlagEnableBitMask := by
  unfold enableCmd ruleRow
  split <;> simp only [TableRow.store, entrySize, offset, Nat.zero_add, Nat.add_zero]

/-- The command for the rule table. A row of the base table is one of its first. -/
theorem delRuleCmd_eq {expnTbl : Bool} {row : Nat} (base : expnTbl = false → row < t.tableEntries) :
    delRuleCmd t row expnTbl (ipaNatiFindRulePos t expnTbl row) =
      delRuleCommand t (slotOf t expnTbl row) (ipaNatiFindRulePos t expnTbl row) := by
  unfold ipaNatiFindRulePos
  cases expnTbl with
  | true =>
    rw [if_pos rfl]
    split <;> exact ruleNextCmd_eq t _ _
  | false =>
    have first : ruleRow t row = ⟨.baseTbl, row⟩ := if_pos (base rfl)
    rw [if_neg Bool.false_ne_true]
    split <;>
      simp only [delRuleCmd, delRuleCommand, slotOf, Bool.false_eq_true, if_false, first,
        TableRow.store, entrySize, ipaNatiGetEntryOffset, Nat.add_comm]

theorem delIndexCmds_eq (t : IpaNatIp4TableCache) (x : Nat) :
    delIndexCmds t x (ipaNatiFindIndexRulePos t x) = delIndexCommands t x (ipaNatiFindIndexRulePos t x) := by
  unfold ipaNatiFindIndexRulePos
  split
  · split <;> exact congrArg ([·]) (indexNextCmd_eq t _ _)
  next base =>
    have first : indexRow t x = ⟨.indxTbl, x⟩ := if_pos (Nat.not_le.mp base)
    split <;>
      simp only [delIndexCmds, delIndexCommands, first, TableRow.store, entrySize,
        ipaNatiGetIndexEntryOffset, Nat.add_comm]

variable {c : IpaNatIpv4Rule} {g : GeneratedRule}

/-- A generated rule keeps at most one value for the metadata. -/
theorem generateRule_writes (generated : ipaNatiGenerateRule t c = some (.ok g)) : commands g.writes = [] := by
  unfold ipaNatiGenerateRule at generated
  split at generated
  · cases generated
  · split at generated
    · cases generated
    · split at generated
      · cases generated
      · split at generated
        · cases generated
        · cases generated
          split <;> rfl

/-- The commands of an add. -/
theorem addIpv4Rule_commands {o : AddOutcomes}
    {r : AddResult} (generated : ipaNatiGenerateRule t c = some (.ok g))
    (returned : ipaNatiAddIpv4Rule o t c = some r) :
    commands r.writes = (if g.rule.prevIndex = 0 ∨ o.natNext ≠ .posted then []
        else [(ruleNextCmd t g.rule.prevIndex g.tblEntry).sent]) ++
      (if g.indexSwRule.prevIndex = 0 ∨ o.indexNext ≠ .posted then []
        else [(indexLinkCmd t g.indexSwRule.prevIndex g.indxTblEntry).sent]) ++
      if o.enable = .posted then [(enableCmd t g.tblEntry).sent] else [] := by
  -- the two links are posted where there is a row before the new one
  have stored : commands (g.writes ++ ipaNatiCopyIpv4RuleToHw o.natNext t g.rule g.tblEntry ++
      ipaNatiCopyIpv4IndexRuleToHw o.indexNext t g.indexSwRule g.indxTblEntry) =
      (if g.rule.prevIndex = 0 ∨ o.natNext ≠ .posted then []
        else [(ruleNextCmd t g.rule.prevIndex g.tblEntry).sent]) ++
      (if g.indexSwRule.prevIndex = 0 ∨ o.indexNext ≠ .posted then []
        else [(indexLinkCmd t g.indexSwRule.prevIndex g.indxTblEntry).sent]) := by
    rw [commands_append, commands_append, generateRule_writes generated, copyIpv4RuleToHw_eq,
      copyIpv4IndexRuleToHw_eq]
    split <;> split <;> rfl
  simp only [ipaNatiAddIpv4Rule, generated] at returned
  rw [← stored]
  -- the enable bit comes last, and the handle needs no command
  cases enable : o.enable with
  | noMemory =>
    rw [enable] at returned
    cases returned
    rw [if_neg (by decide), List.append_nil]
  | ioctlFailed =>
    rw [enable] at returned
    cases returned
    rw [if_neg (by decide), List.append_nil]
  | posted =>
    rw [enable, postIpv4DmaCmd_posted] at returned
    have issued : commands (ipaNatiMakeRuleHdl t g.tblEntry).2 = [] := by
      rcases makeRuleHdl_cases t g.tblEntry with ⟨none, _⟩ | ⟨i, _, _, _, some⟩
      · rw [none]
        rfl
      · rw [some]
        rfl
    have all : commands r.writes = commands (g.writes ++
        ipaNatiCopyIpv4RuleToHw o.natNext t g.rule g.tblEntry ++
        ipaNatiCopyIpv4IndexRuleToHw o.indexNext t g.indexSwRule g.indxTblEntry ++
        [.dma (enableCmd t g.tblEntry)] ++ (ipaNatiMakeRuleHdl t g.tblEntry).2) := by
      simp only [ne_eq, not_true_eq_false, if_false] at returned
      split at returned <;> cases returned <;> rfl
    rw [all, commands_append, commands_append, issued, List.append_nil, if_pos rfl]
    rfl

/-! ### Slot numbers -/

/-- The slot numbers of a rule row. -/
def RuleInside (bound : Nat) (r : IpaNatRule) : Prop :=
  r.nextIndex < bound ∧ r.prevIndex < bound ∧ r.indxTblEntry < bound

/-- The row number of an element of `rule_id_array`, in a table of `N` base and `M` expansion
rows. -/
def IdInside (N M v : Nat) : Prop := (v % 2 = 0 → v / 2 < N) ∧ (v % 2 = 1 → v / 2 < M)

/-- Every slot number that the table holds is that of a row. -/
structure RowsInside (t : IpaNatIp4TableCache) : Prop where
  rules : ∀ s, RuleInside (t.tableEntries + t.expnTableEntries) (t.rules s)
  index : ∀ x, (t.index x).nextIndex < t.tableEntries + t.expnTableEntries
  back : ∀ k, t.prevIndexMeta k < t.tableEntries + t.expnTableEntries
  ids : ∀ i, IdInside t.tableEntries t.expnTableEntries (t.ruleId i)

/-- The command does not write a next index. -/
def LeavesLinks (cmd : IpaIocNatDmaOne) : Prop :=
  match cmd.baseAddr with
  | .baseTbl | .expnTbl => cmd.offset % ipaNatTableEntrySize ≠ ipaNatRuleNextFieldOffset
  | .indxTbl | .indexExpnTbl =>
    cmd.offset % ipaNatIndexTableEntrySize ≠ ipaNatIndexRuleNextFieldOffset

/-- The store brings in no other. -/
def StoresInside (N M : Nat) : Write → Prop
  | .rule _ r => RuleInside (N + M) r
  | .index _ r => r.nextIndex < N + M
  | .dma cmd => cmd.data < N + M ∨ LeavesLinks cmd
  | .prevMeta _ v => v < N + M
  | .ruleId _ v => IdInside N M v

theorem RuleInside.updatePrevIndex {bound v : Nat} {r : IpaNatRule} (inside : RuleInside bound r)
    (small : v < bound) : RuleInside bound (r.updatePrevIndex v) :=
  ⟨inside.1, small, inside.2.2⟩

theorem RuleInside.updateIndxTblEntry {bound v : Nat} {r : IpaNatRule}
    (inside : RuleInside bound r) (small : v < bound) : RuleInside bound (r.updateIndxTblEntry v) :=
  ⟨inside.1, inside.2.1, small⟩

theorem store16_rule_inside {r : IpaNatRule} {bound field data : Nat} (inside : RuleInside bound r)
    (fits : data < bound ∨ field ≠ ipaNatRuleNextFieldOffset) :
    RuleInside bound (r.store16 field data) := by
  obtain ⟨next, prev, index⟩ := inside
  unfold IpaNatRule.store16
  split
  next link => exact ⟨fits.resolve_right (not_not.mpr link), prev, index⟩
  next =>
    split
    · exact ⟨next, prev, index⟩
    · split <;> exact ⟨next, prev, index⟩

theorem store16_index_inside {r : IpaNatIndxTblRule} {B field data : Nat} (next : r.nextIndex < B)
    (fits : data < B ∨ field ≠ ipaNatIndexRuleNextFieldOffset) :
    (r.store16 field data).nextIndex < B := by
  unfold IpaNatIndxTblRule.store16
  split
  next => exact next
  next =>
    split
    next link => exact fits.resolve_right (not_not.mpr link)
    next => exact next

theorem RowsInside.dma (h : RowsInside t) {cmd : IpaIocNatDmaOne}
    (fits : cmd.data < t.tableEntries + t.expnTableEntries ∨ LeavesLinks cmd) :
    RowsInside (t.dma cmd) := by
  unfold LeavesLinks at fits
  unfold IpaNatIp4TableCache.dma
  cases table : cmd.baseAddr with
  | baseTbl | expnTbl =>
    rw [table] at fits
    refine ⟨?_, h.index, h.back, h.ids⟩
    exact (Function.forall_update_iff _ fun _ r => RuleInside _ r).mpr
      ⟨store16_rule_inside (h.rules _) fits, fun s _ => h.rules s⟩
  | indxTbl | indexExpnTbl =>
    rw [table] at fits
    refine ⟨h.rules, ?_, h.back, h.ids⟩
    exact (Function.forall_update_iff _ fun _ r => IpaNatIndxTblRule.nextIndex r < _).mpr
      ⟨store16_index_inside (h.index _) fits, fun x _ => h.index x⟩

theorem RowsInside.write (h : RowsInside t) {w : Write}
    (inside : StoresInside t.tableEntries t.expnTableEntries w) : RowsInside (t.write w) := by
  cases w with
  | rule s r =>
    refine ⟨?_, h.index, h.back, h.ids⟩
    exact (Function.forall_update_iff _ fun _ r => RuleInside _ r).mpr ⟨inside, fun s _ => h.rules s⟩
  | index x r =>
    refine ⟨h.rules, ?_, h.back, h.ids⟩
    exact (Function.forall_update_iff _ fun _ r => IpaNatIndxTblRule.nextIndex r < _).mpr
      ⟨inside, fun x _ => h.index x⟩
  | dma cmd => exact h.dma inside
  | prevMeta k v =>
    refine ⟨h.rules, h.index, ?_, h.ids⟩
    exact (Function.forall_update_iff _ fun _ v => v < _).mpr ⟨inside, fun k _ => h.back k⟩
  | ruleId i v =>
    refine ⟨h.rules, h.index, h.back, ?_⟩
    exact (Function.forall_update_iff _ fun _ v => IdInside _ _ v).mpr ⟨inside, fun i _ => h.ids i⟩

theorem RowsInside.writes {ws : List Write} (h : RowsInside t)
    (inside : ∀ w ∈ ws, StoresInside t.tableEntries t.expnTableEntries w) :
    RowsInside (t.writes ws) := by
  induction ws generalizing t with
  | nil => exact h
  | cons w ws ih =>
    obtain ⟨entries, expn, -⟩ := t.write_dims w
    refine ih (h.write (inside w (by simp))) fun v member => ?_
    rw [entries, expn]
    exact inside v (by simp [member])

/-! ### Calls keep the slot numbers inside -/

theorem lastInList_lt {next : Nat → Nat} {N bound fuel start prev last : Nat}
    (all : ∀ k, next k < bound) (found : lastInList next N fuel start prev = some (some last))
    (startInside : start < bound) (prevInside : prev < bound) : last < bound := by
  induction fuel generalizing start prev with
  | zero => cases found
  | succ fuel ih =>
    unfold lastInList at found
    split at found
    · cases found
      exact prevInside
    · dsimp only at found
      split at found
      · cases found
      · exact ih found (all _) startInside

/-- What a generated rule holds are slot numbers, too. -/
structure GeneratedInside (t : IpaNatIp4TableCache) (g : GeneratedRule) : Prop where
  entry : g.tblEntry < t.tableEntries + t.expnTableEntries
  indexEntry : g.indxTblEntry < t.tableEntries + t.expnTableEntries
  rule : RuleInside (t.tableEntries + t.expnTableEntries) g.rule
  indexNext : g.indexSwRule.nextIndex < t.tableEntries + t.expnTableEntries
  indexPrev : g.indexSwRule.prevIndex < t.tableEntries + t.expnTableEntries
  writes : ∀ w ∈ g.writes, StoresInside t.tableEntries t.expnTableEntries w

theorem generateTblRule_inside (sized : WellSized t) (h : RowsInside t)
    {row : IpaNatRule} {e : Nat} (generated : ipaNatiGenerateTblRule t c = some (row, e)) :
    e < t.tableEntries + t.expnTableEntries ∧ RuleInside (t.tableEntries + t.expnTableEntries) row := by
  have slot := sized.dstSlot_bounds c
  have zero : 0 < t.tableEntries + t.expnTableEntries := by omega
  unfold ipaNatiGenerateTblRule at generated
  dsimp only at generated
  split at generated
  · cases generated
    exact ⟨by omega, zero, zero, zero⟩
  · split at generated
    · cases generated
    · cases generated
      exact ⟨zero, zero, zero, zero⟩
    next prev last =>
      have inside : prev < t.tableEntries + t.expnTableEntries := by
        split at last
        · cases last
          omega
        · exact lastInList_lt (fun k => (h.rules _).1) last (h.rules _).1 zero
      have free : ipaNatiExpnTblFreeEntry t.expnRules t.expnTableEntries < t.expnTableEntries := by
        rcases expnTblFreeEntry_spec t.expnRules t.expnTableEntries with ⟨none, _⟩ | ⟨_, lt, _⟩
        · rw [none]
          exact Nat.lt_of_lt_of_le (by decide) sized.twoExpn
        · exact lt
      split at generated <;> cases generated
      · exact ⟨zero, zero, inside, zero⟩
      · exact ⟨by omega, zero, inside, zero⟩

theorem generateIndexRule_inside (sized : WellSized t) (h : RowsInside t)
    {row row' : IpaNatIndxTblSwRule} {x : Nat} (start : row.nextIndex = 0 ∧ row.prevIndex = 0)
    (generated : ipaNatiGenerateIndexRule t c row = some (row', x)) :
    x < t.tableEntries + t.expnTableEntries ∧ row'.nextIndex < t.tableEntries + t.expnTableEntries ∧
      row'.prevIndex < t.tableEntries + t.expnTableEntries := by
  have slot := sized.srcSlot_bounds c
  have zero : 0 < t.tableEntries + t.expnTableEntries := by omega
  have next : row.nextIndex < t.tableEntries + t.expnTableEntries := by omega
  unfold ipaNatiGenerateIndexRule at generated
  dsimp only at generated
  split at generated
  · cases generated
    exact ⟨by omega, next, zero⟩
  · split at generated
    · cases generated
    · cases generated
      exact ⟨zero, next, by omega⟩
    next prev last =>
      have inside : prev < t.tableEntries + t.expnTableEntries := by
        split at last
        · cases last
          omega
        · exact lastInList_lt (fun k => h.index _) last (h.index _) zero
      have free : ipaNatiIndexExpnGetFreeEntry t.expnIndex t.expnTableEntries < t.expnTableEntries := by
        rcases indexExpnGetFreeEntry_spec t.expnIndex t.expnTableEntries with
          ⟨none, _⟩ | ⟨_, lt, _⟩
        · rw [none]
          exact Nat.lt_of_lt_of_le (by decide) sized.twoExpn
        · exact lt
      split at generated
      · cases generated
        exact ⟨zero, next, inside⟩
      · split at generated <;> cases generated
        · exact ⟨zero, next, inside⟩
        · exact ⟨by omega, next, inside⟩

theorem generateRule_inside (sized : WellSized t) (h : RowsInside t)
    (generated : ipaNatiGenerateRule t c = some (.ok g)) :
    GeneratedInside t g := by
  unfold ipaNatiGenerateRule at generated
  split at generated
  · cases generated
  next row e rule =>
    split at generated
    · cases generated
    · split at generated
      · cases generated
      next irow x index =>
        split at generated
        · cases generated
        · cases generated
          obtain ⟨entry, inside⟩ := generateTblRule_inside sized h rule
          obtain ⟨indexEntry, next, prev⟩ := generateIndexRule_inside sized h ⟨rfl, rfl⟩ index
          refine ⟨entry, indexEntry, ⟨inside.1, inside.2.1, indexEntry⟩, next, prev, ?_⟩
          intro w member
          split at member
          · obtain rfl := List.mem_singleton.mp member
            exact prev
          · cases member

theorem idInside_idOfSlot (sized : WellSized t) {e : Nat} (inside : e < t.tableEntries + t.expnTableEntries) :
    IdInside t.tableEntries t.expnTableEntries (idOfSlot t.tableEntries e) := by
  have entries := sized.entriesLe
  have expn := sized.expnLe
  unfold IdInside idOfSlot
  split <;> constructor <;> intro parity <;> omega

theorem enableCmd_leaves (offset : t.tblAddrOffset = 0) (e : Nat) : LeavesLinks (enableCmd t e) := by
  unfold enableCmd
  split
  · change (e * 32 + 18) % 32 ≠ 8
    omega
  · change ((e - t.tableEntries) * 32 + 18 + t.tblAddrOffset) % 32 ≠ 8
    omega

/-- The stores of a call bring in no slot number but those of rows. -/
def Inside (t : IpaNatIp4TableCache) (ws : List Write) : Prop :=
  ∀ w ∈ ws, StoresInside t.tableEntries t.expnTableEntries w

theorem Inside.append {ws vs : List Write} (first : Inside t ws) (second : Inside t vs) :
    Inside t (ws ++ vs) := by
  intro w member
  exact (List.mem_append.mp member).elim (first w) (second w)

theorem Inside.cons {w : Write} {ws : List Write}
    (first : StoresInside t.tableEntries t.expnTableEntries w) (rest : Inside t ws) :
    Inside t (w :: ws) :=
  List.forall_mem_cons.mpr ⟨first, rest⟩

theorem Inside.nil : Inside t [] := by simp [Inside]

theorem Inside.one {w : Write} (h : StoresInside t.tableEntries t.expnTableEntries w) :
    Inside t [w] := Inside.nil.cons h

theorem ruleNextCmd_inside (prev : Nat) {data : Nat} (inside : data < t.tableEntries + t.expnTableEntries) :
    StoresInside t.tableEntries t.expnTableEntries (.dma (ruleNextCmd t prev data)) := by
  rw [ruleNextCmd_eq]
  exact Or.inl inside

theorem indexNextCmd_inside (prev : Nat) {data : Nat} (inside : data < t.tableEntries + t.expnTableEntries) :
    StoresInside t.tableEntries t.expnTableEntries (.dma (indexNextCmd t prev data)) := by
  rw [indexNextCmd_eq]
  exact Or.inl inside

theorem copyIpv4RuleToHw_inside (inside : GeneratedInside t g)
    (outcome : DmaOutcome) : Inside t (ipaNatiCopyIpv4RuleToHw outcome t g.rule g.tblEntry) := by
  rw [copyIpv4RuleToHw_eq]
  refine Inside.cons inside.rule ?_
  split
  · exact Inside.nil
  · exact Inside.one (ruleNextCmd_inside _ inside.entry)

theorem copyIpv4IndexRuleToHw_inside (inside : GeneratedInside t g) (outcome : DmaOutcome) :
    Inside t (ipaNatiCopyIpv4IndexRuleToHw outcome t g.indexSwRule g.indxTblEntry) := by
  rw [copyIpv4IndexRuleToHw_eq]
  refine Inside.cons inside.indexNext ?_
  split
  · exact Inside.nil
  · unfold indexLinkCmd
    rw [indexNextCmd_eq]
    exact Inside.one (Or.inl inside.indexEntry)

theorem postIpv4DmaCmd_inside (offset : t.tblAddrOffset = 0) (outcome : DmaOutcome) (e : Nat) :
    Inside t (ipaNatiPostIpv4DmaCmd outcome t e).2 := by
  cases outcome with
  | noMemory | ioctlFailed => exact Inside.nil
  | posted =>
    rw [postIpv4DmaCmd_posted]
    exact Inside.one (Or.inr (enableCmd_leaves offset e))

theorem makeRuleHdl_inside (sized : WellSized t) {e : Nat}
    (inside : e < t.tableEntries + t.expnTableEntries) : Inside t (ipaNatiMakeRuleHdl t e).2 := by
  rcases makeRuleHdl_cases t e with ⟨none, _⟩ | ⟨i, _, _, _, some⟩
  · rw [none]
    exact Inside.nil
  · rw [some]
    exact Inside.one (idInside_idOfSlot sized inside)

/-- Whatever becomes of its requests, an add brings in no slot number but those of rows. -/
theorem addIpv4Rule_inside (sized : WellSized t) (h : RowsInside t) {o : AddOutcomes}
    {r : AddResult} (returned : ipaNatiAddIpv4Rule o t c = some r) :
    Inside t r.writes := by
  unfold ipaNatiAddIpv4Rule at returned
  split at returned
  · cases returned
  · cases returned
    exact Inside.nil
  next g generated =>
    have inside := generateRule_inside sized h generated
    have stored := (Inside.append inside.writes (copyIpv4RuleToHw_inside inside o.natNext)).append
      (copyIpv4IndexRuleToHw_inside inside o.indexNext)
    have all := (stored.append (postIpv4DmaCmd_inside sized.offset o.enable g.tblEntry)).append
      (makeRuleHdl_inside sized inside.entry)
    dsimp only at returned
    split at returned
    · cases returned
      exact stored
    · split at returned <;> cases returned <;> exact all

theorem RowsInside.positive (h : RowsInside t) : 0 < t.tableEntries + t.expnTableEntries :=
  Nat.lt_of_le_of_lt (Nat.zero_le _) (h.back 0)

theorem RowsInside.empty_row (h : RowsInside t) :
    RuleInside (t.tableEntries + t.expnTableEntries) {} :=
  ⟨h.positive, h.positive, h.positive⟩

theorem Inside.congr {u : IpaNatIp4TableCache} {ws : List Write}
    (entries : u.tableEntries = t.tableEntries) (expn : u.expnTableEntries = t.expnTableEntries)
    (inside : Inside u ws) : Inside t ws := by
  unfold Inside at inside ⊢
  rwa [entries, expn] at inside

theorem delRuleCmd_inside (offset : t.tblAddrOffset = 0) (h : RowsInside t) (row : Nat)
    (expnTbl : Bool) (pos : DelType) :
    StoresInside t.tableEntries t.expnTableEntries (.dma (delRuleCmd t row expnTbl pos)) := by
  cases pos with
  | onlyOne =>
    refine Or.inr ?_
    change (row * 32 + t.tblAddrOffset + 18) % 32 ≠ 8
    omega
  | head =>
    refine Or.inr ?_
    change (row * 32 + t.tblAddrOffset + 22) % 32 ≠ 8
    omega
  | middle => exact ruleNextCmd_inside _ (h.rules _).1
  | last => exact ruleNextCmd_inside _ h.positive

theorem delIndexCmds_inside (offset : t.tblAddrOffset = 0) (h : RowsInside t) (x : Nat)
    (pos : DelType) : Inside t ((delIndexCmds t x pos).map .dma) := by
  have names : ∀ data, LeavesLinks (indexEntryCmd t x data) := by
    intro data
    change (x * 4 + t.tblAddrOffset + 0) % 4 ≠ 2
    omega
  cases pos with
  | onlyOne => exact Inside.one (Or.inr (names _))
  | head =>
    refine Inside.cons (Or.inr (names _)) (Inside.one ?_)
    exact Or.inl (h.index _)
  | middle => exact Inside.one (indexNextCmd_inside _ (h.index _))
  | last => exact Inside.one (indexNextCmd_inside _ h.positive)

theorem mem_reorderCmds {malloc : Bool} {cmds : List IpaIocNatDmaOne} {cmd : IpaIocNatDmaOne} :
    cmd ∈ reorderCmds malloc cmds ↔ cmd ∈ cmds := by
  unfold reorderCmds
  dsimp only
  split
  · rfl
  · rw [List.mem_append, or_comm, ← List.mem_append, List.take_append_drop]

theorem delRuleStores_inside (h : RowsInside t) (row : Nat) (expnTbl : Bool) (pos : DelType) :
    Inside t (delRuleStores t row expnTbl pos) := by
  refine Inside.append ?_ ?_
  · split
    · exact Inside.one (RuleInside.updatePrevIndex (h.rules _) (h.rules _).2.1)
    · exact Inside.nil
  · split
    · exact Inside.nil
    · exact Inside.one h.empty_row

theorem delIndexStores_inside (h : RowsInside t) {x : Nat}
    (inside : x < t.tableEntries + t.expnTableEntries) (next : Nat) (pos : DelType) :
    Inside t (delIndexStores t x next pos) := by
  cases pos with
  | head =>
    refine Inside.append ?_ ?_
    · split
      · exact Inside.one inside
      · exact Inside.nil
    · refine Inside.cons h.positive (Inside.one ?_)
      exact (h.rules _).updateIndxTblEntry inside
  | middle =>
    refine Inside.cons (h.back _) (Inside.cons ?_ (Inside.one ?_))
    · exact h.positive
    · exact h.positive
  | onlyOne | last => exact Inside.one h.positive

theorem delDeadIpv4HeadNodes_inside (h : RowsInside t) :
    Inside t (ipaNatiDelDeadIpv4HeadNodes t) := by
  intro w member
  obtain ⟨cnt, -, rfl⟩ := List.mem_map.mp member
  exact h.empty_row

/-- The stores are computed on the way: those after the ioctl from the table it left. -/
theorem Inside.then {ws vs : List Write} (h : RowsInside t) (first : Inside t ws)
    (second : RowsInside (t.writes ws) → Inside (t.writes ws) vs) : Inside t (ws ++ vs) :=
  first.append ((second (h.writes first)).congr (t.writes_tableEntries ws)
    (t.writes_expnTableEntries ws))

theorem postDelDmaCmd_inside (offset : t.tblAddrOffset = 0) (h : RowsInside t) (o : DelOutcomes)
    (row : Nat) (expnTbl : Bool) (pos : DelType) :
    Inside t (ipaNatiPostDelDmaCmd o t row expnTbl pos).2 := by
  unfold ipaNatiPostDelDmaCmd
  dsimp only
  split
  · exact Inside.nil
  · split
    · exact Inside.nil
    · split
      · exact Inside.nil
      · have posted : Inside t ((reorderCmds o.reorderMalloc (delRuleCmd t row expnTbl pos ::
            delIndexCmds t (t.rules (slotOf t expnTbl row)).indxTblEntry
              (ipaNatiFindIndexRulePos t (t.rules (slotOf t expnTbl row)).indxTblEntry))).map
            Write.dma) := by
          intro w member
          obtain ⟨cmd, ordered, rfl⟩ := List.mem_map.mp member
          rcases List.mem_cons.mp (mem_reorderCmds.mp ordered) with rfl | index
          · exact delRuleCmd_inside offset h row expnTbl pos
          · exact delIndexCmds_inside offset h _ _ _ (List.mem_map_of_mem index)
        refine Inside.then h (Inside.then h posted fun after => ?_) fun after => ?_
        · exact delRuleStores_inside after row expnTbl pos
        · refine delIndexStores_inside after ?_ _ _
          rw [writes_tableEntries, writes_expnTableEntries]
          exact (h.rules _).2.2

theorem delIpv4Rule_inside (sized : WellSized t) (h : RowsInside t) {o : DelOutcomes}
    {hdl : Nat} {r : DelResult} (returned : ipaNatiDelIpv4Rule o t hdl = some r) :
    Inside t r.writes := by
  unfold ipaNatiDelIpv4Rule at returned
  split at returned
  · cases returned
  next expnTbl row parsed =>
    split at returned
    · cases returned
      exact Inside.nil
    · split at returned
      · cases returned
        exact Inside.nil
      · have posted := postDelDmaCmd_inside sized.offset h o row expnTbl (ipaNatiFindRulePos t expnTbl row)
        dsimp only at returned
        split at returned
        · cases returned
          exact posted
        · split at returned
          · cases returned
            refine Inside.append (Inside.then h posted delDeadIpv4HeadNodes_inside) (Inside.one ?_)
            have entries : 0 < t.tableEntries := Nat.lt_of_lt_of_le (by decide) sized.twoEntries
            exact ⟨fun _ => entries, fun odd => absurd odd (by decide)⟩
          · cases returned

/-! ### Runs -/

/-- A table that was set up, with slot numbers of its rows only. -/
def AddressOk (N M : Nat) (s : TableState) : Prop :=
  s.tbl.tableEntries = N ∧ s.tbl.expnTableEntries = M ∧ WellSized s.tbl ∧ RowsInside s.tbl

theorem ruleStep_addressOk {N M : Nat} {s s' : TableState} {op : RuleOp} (ok : AddressOk N M s)
    (stepped : ruleStep s op = some s') : AddressOk N M s' := by
  obtain ⟨entries, expn, sized, rows⟩ := ok
  have after : ∀ ws, Inside s.tbl ws → s'.tbl = s.tbl.writes ws → AddressOk N M s' := by
    intro ws inside eq
    rw [AddressOk, eq, writes_tableEntries, writes_expnTableEntries]
    exact ⟨entries, expn, sized.writes ws, rows.writes inside⟩
  cases op with
  | add o c =>
    obtain ⟨r, returned, rfl⟩ := Option.map_eq_some_iff.mp stepped
    exact after _ (addIpv4Rule_inside sized rows returned) rfl
  | del o h =>
    obtain ⟨r, returned, rfl⟩ := Option.map_eq_some_iff.mp stepped
    exact after _ (delIpv4Rule_inside sized rows returned) rfl

theorem FreshTable.rowsInside (fresh : FreshTable t) (base : 2 ≤ t.tableEntries) :
    RowsInside t := by
  have positive : 0 < t.tableEntries + t.expnTableEntries := by omega
  have entries : 0 < t.tableEntries := by omega
  refine ⟨fun s => ?_, fun x => ?_, fun k => ?_, fun i => ?_⟩
  · rw [fresh.rules]
    exact ⟨positive, positive, positive⟩
  · rw [fresh.index]
    exact positive
  · rw [fresh.prevIndexMeta]
    exact positive
  · simp only [fresh.ruleId]
    exact ⟨fun _ => entries, fun odd => absurd odd (by decide)⟩

/-! ### Tables whose commands are right -/

theorem ruleRow_sent (sized : WellSized t) {slot : Nat}
    (inside : slot < t.tableEntries + t.expnTableEntries) {field : Nat} (narrow : field < 32) (data : Nat) :
    ((ruleRow t slot).store t field data).sent = (ruleRow t slot).store t field data := by
  have offset := sized.offset
  have entries := sized.entriesLe
  have expn := sized.expnLe
  refine sent_eq ?_
  unfold ruleRow
  split <;> simp only [TableRow.store, entrySize, ipaNatTableEntrySize] <;> omega

/-- The offset of a row of the index table has 16 bits while there are not too many of them. -/
theorem indexRow_offset (sized : WellSized t) (small : t.tableEntries ≤ 16384) {slot : Nat}
    (inside : slot < t.tableEntries + t.expnTableEntries) {field : Nat} (narrow : field < 4)
    (data : Nat) : ((indexRow t slot).store t field data).offset < 65536 := by
  have offset := sized.offset
  have expn := sized.expnLe
  unfold indexRow
  split <;> simp only [TableRow.store, entrySize, ipaNatIndexTableEntrySize] <;> omega

theorem indexRow_sent (sized : WellSized t) (small : t.tableEntries ≤ 16384) {slot : Nat}
    (inside : slot < t.tableEntries + t.expnTableEntries) {field : Nat} (narrow : field < 4) (data : Nat) :
    ((indexRow t slot).store t field data).sent = (indexRow t slot).store t field data :=
  sent_eq (Nat.lt_trans (indexRow_offset sized small inside narrow data) (by decide))

theorem addIpv4Rule_wellAddressed (sized : WellSized t) (rows : RowsInside t)
    (small : t.tableEntries ≤ 16384) (o : AddOutcomes) (c : IpaNatIpv4Rule) :
    WellAddressed t (.add o c) := by
  intro g r generated returned
  have inside := generateRule_inside sized rows generated
  have link : (ruleNextCmd t g.rule.prevIndex g.tblEntry).sent =
      (ruleRow t g.rule.prevIndex).store t ipaNatRuleNextFieldOffset g.tblEntry := by
    rw [ruleNextCmd_eq, ruleRow_sent sized inside.rule.2.1 (by decide)]
  have indexLink : (indexLinkCmd t g.indexSwRule.prevIndex g.indxTblEntry).sent =
      (indexRow t g.indexSwRule.prevIndex).store t ipaNatIndexRuleNextFieldOffset
        g.indxTblEntry := by
    unfold indexLinkCmd
    rw [indexNextCmd_eq]
    dsimp only
    rw [Nat.mod_eq_of_lt (indexRow_offset sized small inside.indexPrev (by decide) _)]
    exact indexRow_sent sized small inside.indexPrev (by decide) _
  have enable : (enableCmd t g.tblEntry).sent =
      (ruleRow t g.tblEntry).store t ipaNatRuleFlagFieldOffset ipaNatFlagEnableBitMask := by
    rw [enableCmd_eq sized.offset, ruleRow_sent sized inside.entry (by decide)]
  rw [addIpv4Rule_commands generated returned, link, indexLink, enable]
  rfl

theorem commands_delRuleStores (u : IpaNatIp4TableCache) (row : Nat) (expnTbl : Bool)
    (pos : DelType) : commands (delRuleStores u row expnTbl pos) = [] := by
  unfold delRuleStores
  split <;> split <;> rfl

theorem commands_delIndexStores (u : IpaNatIp4TableCache) (x next : Nat) (pos : DelType) :
    commands (delIndexStores u x next pos) = [] := by
  cases pos with
  | head =>
    unfold delIndexStores
    dsimp only
    split <;> rfl
  | middle | onlyOne | last => rfl

/-- What a delete that got through has sent. -/
theorem postDelDmaCmd_commands {o : DelOutcomes} {row : Nat} {expnTbl : Bool} {pos : DelType}
    {ws : List Write} (posted : ipaNatiPostDelDmaCmd o t row expnTbl pos = (0, ws)) :
    commands ws = (reorderCmds o.reorderMalloc (delRuleCmd t row expnTbl pos ::
      delIndexCmds t (t.rules (slotOf t expnTbl row)).indxTblEntry
        (ipaNatiFindIndexRulePos t (t.rules (slotOf t expnTbl row)).indxTblEntry))).map
      IpaIocNatDmaOne.sent := by
  unfold ipaNatiPostDelDmaCmd at posted
  dsimp only at posted
  split at posted
  · cases posted
  · split at posted
    · cases posted
    · split at posted
      · cases posted
      · cases posted
        rw [commands_append, commands_append, commands_dma, commands_delRuleStores,
          commands_delIndexStores, List.append_nil, List.append_nil]

theorem RowsInside.parsed (rows : RowsInside t) (sized : WellSized t) {hdl row : Nat}
    {expnTbl : Bool} (parsed : ipaNatiParseIpv4RuleHdl t hdl = some (expnTbl, row)) :
    (expnTbl = false → row < t.tableEntries) ∧ (expnTbl = true → row < t.expnTableEntries) := by
  have entries := sized.twoEntries
  have ids := rows.ids (hdl - 1)
  unfold ipaNatiParseIpv4RuleHdl at parsed
  split at parsed
  · cases parsed
    exact ⟨fun _ => Nat.lt_of_lt_of_le (by decide) entries, fun expn => by cases expn⟩
  · split at parsed
    · cases parsed
    · cases parsed
      refine ⟨fun base => ids.1 ?_, fun expn => ids.2 (of_decide_eq_true expn)⟩
      have := of_decide_eq_false base
      omega

theorem delRuleCommand_sent (sized : WellSized t) (rows : RowsInside t) {cur : Nat}
    (inside : cur < t.tableEntries + t.expnTableEntries) (pos : DelType) :
    (delRuleCommand t cur pos).sent = delRuleCommand t cur pos := by
  cases pos with
  | onlyOne | head => exact ruleRow_sent sized inside (by decide) _
  | middle | last => exact ruleRow_sent sized (rows.rules cur).2.1 (by decide) _

theorem delIndexCommands_sent (sized : WellSized t) (rows : RowsInside t)
    (small : t.tableEntries ≤ 16384) {x : Nat} (inside : x < t.tableEntries + t.expnTableEntries)
    (pos : DelType) : ∀ cmd ∈ delIndexCommands t x pos, cmd.sent = cmd := by
  intro cmd member
  cases pos with
  | onlyOne =>
    obtain rfl := List.mem_singleton.mp member
    exact indexRow_sent sized small inside (by decide) _
  | head =>
    rcases List.mem_cons.mp member with rfl | member
    · exact indexRow_sent sized small inside (by decide) _
    · obtain rfl := List.mem_singleton.mp member
      exact indexRow_sent sized small inside (by decide) _
  | middle | last =>
    obtain rfl := List.mem_singleton.mp member
    exact indexRow_sent sized small (rows.back _) (by decide) _

theorem delIpv4Rule_wellAddressed (sized : WellSized t) (rows : RowsInside t)
    (small : t.tableEntries ≤ 16384) (o : DelOutcomes) (hdl : Nat) :
    WellAddressed t (.del o hdl) := by
  intro expnTbl row ws parsed posted
  obtain ⟨base, expn⟩ := rows.parsed sized parsed
  have inside : slotOf t expnTbl row < t.tableEntries + t.expnTableEntries := by
    unfold slotOf
    cases expnTbl with
    | false =>
      have := base rfl
      rw [if_neg Bool.false_ne_true]
      omega
    | true =>
      have := expn rfl
      rw [if_pos rfl]
      omega
  rw [postDelDmaCmd_commands posted, delRuleCmd_eq base, delIndexCmds_eq]
  refine (List.map_congr_left fun cmd ordered => ?_).trans (List.map_id _)
  rcases List.mem_cons.mp (mem_reorderCmds.mp ordered) with rfl | index
  · exact delRuleCommand_sent sized rows inside _
  · exact delIndexCommands_sent sized rows small (rows.rules _).2.2 _ cmd index

/-! ### Tables whose commands are not -/

/-- The first add enables a row of the base table, and leaves the offset of the table out. -/
theorem offset_of_wellAddressed (created : Created t) (base : 2 ≤ t.tableEntries)
    (right : WellAddressed t (.add {} c)) : t.tblAddrOffset = 0 := by
  have fresh := created.fresh
  -- the search for rows does not read the offset
  have fresh₀ : FreshTable { t with tblAddrOffset := 0 } :=
    ⟨fresh.valid, fresh.entries, fresh.expn, fresh.addr, fresh.natFd, fresh.indexMeta, fresh.idArray,
      fresh.rules, fresh.index, fresh.prevIndexMeta, fresh.ruleId⟩
  have ok₀ := fresh₀.ok rfl base
  have slot : 0 < t.dstSlot c ∧ t.dstSlot c < t.tableEntries := ok₀.sized.dstSlot_bounds c
  have source : 0 < t.srcSlot c ∧ t.srcSlot c < t.tableEntries := ok₀.sized.srcSlot_bounds c
  have entries : t.tableEntries ≤ 32768 := ok₀.sized.entriesLe
  have rule : ipaNatiGenerateTblRule t c =
      some ({ swRuleOfClient t.publicAddr c with prevIndex := 0 }, t.dstSlot c) := by
    simp only [ipaNatiGenerateTblRule, fresh.rules, if_true]
    rfl
  have index : ipaNatiGenerateIndexRule t c { tblEntry := t.dstSlot c } =
      some ({ tblEntry := t.dstSlot c, nextIndex := 0, prevIndex := 0 }, t.srcSlot c) := by
    simp only [ipaNatiGenerateIndexRule, fresh.index, ipaNatInvalidNatEntry, if_true]
  have generated :=
    generateRule_of_places rule (Nat.ne_of_gt slot.1) index (Nat.ne_of_gt source.1)
  obtain ⟨r, returned, -⟩ :=
    addIpv4Rule_of_places rule (Nat.ne_of_gt slot.1) index (Nat.ne_of_gt source.1) {}
  have same := right _ _ generated returned
  rw [addIpv4Rule_commands generated returned] at same
  have enable : (enableCmd t (t.dstSlot c)).sent =
      (ruleRow t (t.dstSlot c)).store t ipaNatRuleFlagFieldOffset ipaNatFlagEnableBitMask := by
    simpa [addCommands, newRow] using same
  have offsets := congrArg IpaIocNatDmaOne.offset enable
  unfold enableCmd ruleRow at offsets
  rw [if_pos slot.2, if_pos slot.2] at offsets
  simp only [IpaIocNatDmaOne.sent, TableRow.store, entrySize, ipaNatTableEntrySize,
    ipaNatRuleFlagFieldOffset] at offsets
  omega

/-- In a table of 32768 base rows the second rule of a bucket in the upper half of the index table
is linked behind another row. -/
theorem not_wellAddressed_of_large (created : Created t) (hits : t.tblAddrOffset = 0)
    (large : t.tableEntries = 32768) :
    ∃ s, Run ruleStep (fun _ _ => True) { tbl := t } [.add {} sampleRule] s ∧
      ¬WellAddressed s.tbl (.add {} sampleClash) := by
  obtain ⟨t₁, i, first⟩ := first_add created hits (by omega) (a := sampleRule) (by decide)
  obtain ⟨chain, ok⟩ := first.ok
  refine ⟨_, .cons trivial (first.step []) (.nil _), fun right => ?_⟩
  have entries := first.entries
  have twoExpn := ok.sized.twoExpn
  have taken : 0 < t.dstSlot sampleRule :=
    ((created.fresh.ok hits (by omega)).sized.dstSlot_bounds sampleRule).1
  -- the second rule hashes to another rule row, but to the index row of the first
  have slots : t₁.dstSlot sampleClash ≠ t.dstSlot sampleRule ∧
      t₁.srcSlot sampleClash = t.srcSlot sampleRule ∧ 16384 ≤ t.srcSlot sampleRule ∧
      t.srcSlot sampleRule < 32768 := by
    simp only [dstSlot, srcSlot, entries, large]
    exact ⟨by decide, by decide, by decide, by decide⟩
  obtain ⟨apart, same, high, low⟩ := slots
  have off : (t₁.rules (t₁.dstSlot sampleClash)).enable = false := by
    rw [first.rules.other _ apart (fun behind => absurd rfl behind), created.fresh.rules]
  have unused : ∀ y, y ≠ t.srcSlot sampleRule → t₁.index y = {} := fun y ne => by
    rw [first.index.other y ne (fun behind => absurd rfl behind), created.fresh.index]
  rcases generateTblRule_spec ok.sized ok.rows sampleClash with ⟨e, p, place, rule⟩ | ⟨full, -⟩
  · have he := place.ne_zero ok.sized
    rcases generateIndexRule_spec ok.sized ok.index sampleClash e with
      ⟨x, q, iplace, index⟩ | ⟨full, -⟩
    · have hx := iplace.ne_zero ok.sized
      -- so its index row is appended behind a row whose offset does not fit
      have behind : q = t.srcSlot sampleRule := by
        cases iplace with
        | base free =>
          rw [same, first.index.new] at free
          exact absurd free (Nat.ne_of_gt taken)
        | expn => rw [List.getLastD_nil, same]
      have generated := generateRule_of_places rule he index hx
      obtain ⟨r, returned, -⟩ := addIpv4Rule_of_places rule he index hx {}
      have sent := right _ _ generated returned
      rw [addIpv4Rule_commands generated returned] at sent
      have alone : p = 0 := by
        cases place with
        | base => rfl
        | expn on => exact absurd (on.symm.trans off) Bool.true_eq_false_eq_False
      have linked : q ≠ 0 := by omega
      have link : (indexLinkCmd t₁ q x).sent = (indexRow t₁ q).store t₁ ipaNatIndexRuleNextFieldOffset x := by
        simp only [addCommands, newRow, alone, linked, if_true, ne_eq, not_true_eq_false,
          or_false, if_false, List.nil_append, List.singleton_append, List.cons.injEq] at sent
        exact sent.1
      -- the offset that is sent is short of the one of the row
      have offsets := congrArg IpaIocNatDmaOne.offset link
      unfold indexLinkCmd at offsets
      unfold indexRow at offsets
      rw [if_pos (by omega)] at offsets
      simp only [IpaIocNatDmaOne.sent, TableRow.store, entrySize, ipaNatIndexTableEntrySize,
        ipaNatIndexRuleNextFieldOffset] at offsets
      omega
    · refine full.2 (t₁.tableEntries + 1) (by omega) (by omega) ?_
      rw [unused _ (by omega)]
  · exact Bool.true_eq_false_eq_False (full.1.symm.trans off)

/-- For a table of any size and any offset: whatever calls it sees, and whatever becomes of their
requests, each sends the commands it is meant to send, exactly when the offset is 0 and the table
has not 32768 base rows. -/
theorem dma_addressing_iff (created : Created t) (base : 2 ≤ t.tableEntries) :
    (∀ ops s, Run ruleStep (fun _ _ => True) { tbl := t } ops s → ∀ op, WellAddressed s.tbl op) ↔
      t.tblAddrOffset = 0 ∧ t.tableEntries < 32768 := by
  constructor
  · intro right
    have hits := offset_of_wellAddressed created base (right [] _ (.nil _) (.add {} sampleRule))
    refine ⟨hits, ?_⟩
    by_contra beyond
    have entries := (created.fresh.ok hits base).sized.entriesLe
    obtain ⟨s, run, wrong⟩ := not_wellAddressed_of_large created hits (by omega)
    exact wrong (right _ _ run _)
  · rintro ⟨hits, small⟩ ops s run op
    have half : t.tableEntries ≤ 16384 := by
      rcases created.fresh.entries with zero | ⟨k, _, le, eq⟩
      · omega
      · have : k ≠ 15 := by
          rintro rfl
          omega
        rw [eq]
        exact Nat.pow_le_pow_right (show 0 < 2 by decide) (show k ≤ 14 by omega)
    have fresh : AddressOk t.tableEntries t.expnTableEntries { tbl := t } :=
      ⟨rfl, rfl, (created.fresh.ok hits base).sized, created.fresh.rowsInside base⟩
    obtain ⟨entries, -, sized, rows⟩ := run.invariant (AddressOk t.tableEntries t.expnTableEntries)
      (fun _ _ _ ok _ stepped => ruleStep_addressOk ok stepped) fresh
    have few : s.tbl.tableEntries ≤ 16384 := by rw [entries]; exact half
    cases op with
    | add o c => exact addIpv4Rule_wellAddressed sized rows few o c
    | del o hdl => exact delIpv4Rule_wellAddressed sized rows few o hdl

theorem dma_addressing_sample : ∃ s,
    Run ruleStep (fun _ _ => True) { tbl := createTable 100 } [.add {} sampleRule] s ∧
      WellAddressed s.tbl (.add {} sampleClash) := by
  have run : Run ruleStep (fun _ _ => True) { tbl := createTable 100 } [.add {} sampleRule] _ :=
    .cons trivial rfl (.nil _)
  exact ⟨_, run, (dma_addressing_iff (createTable_created (by decide)) (by decide)).mpr (by decide) _ _ run _⟩

/-- A table of 32768 base rows, at offset 0. -/
theorem large_table_misaddressed : Created (createTable 40000) ∧
    ∃ s, Run ruleStep (fun _ _ => True) { tbl := createTable 40000 } [.add {} sampleRule] s ∧
      ¬WellAddressed s.tbl (.add {} sampleClash) :=
  ⟨createTable_created (by decide),
    not_wellAddressed_of_large (createTable_created (by decide)) rfl (by decide)⟩

end Hima.Ipanat
