import Hima.Ipanat.Stores

/-!
# What a delete does

The handle is decoded, the position of the rule in its two chains is found, and the commands
and stores that follow are described by what they leave of the tables.
-/
namespace Hima.Ipanat

open Chains IpaNatIp4TableCache

/-! ### The commands -/

variable (malloc : Bool)

theorem reorderCmds_cases {rule : IpaIocNatDmaOne} {index : List IpaIocNatDmaOne}
    (nonempty : index ≠ []) (rule_cmd : rule.baseAddr = .baseTbl ∨ rule.baseAddr = .expnTbl)
    (index_cmds : ∀ cmd ∈ index, cmd.baseAddr = .indxTbl ∨ cmd.baseAddr = .indexExpnTbl) :
    reorderCmds malloc (rule :: index) = if malloc then index ++ [rule] else rule :: index := by
  have start : (rule :: index).findIdx (fun cmd =>
      decide (cmd.baseAddr = .indxTbl ∨ cmd.baseAddr = .indexExpnTbl)) = 1 := by
    cases index with
    | nil => exact absurd rfl nonempty
    | cons cmd rest =>
      have first : ¬(rule.baseAddr = .indxTbl ∨ rule.baseAddr = .indexExpnTbl) := by
        rcases rule_cmd with eq | eq <;> rw [eq] <;> decide
      have second := index_cmds cmd List.mem_cons_self
      rw [List.findIdx_cons, List.findIdx_cons, decide_eq_false first, decide_eq_true second]
      rfl
  have length : 1 ≠ (rule :: index).length := by
    cases index with
    | nil => exact absurd rfl nonempty
    | cons => simp only [List.length_cons]; omega
  unfold reorderCmds
  simp only [start, length, Nat.one_ne_zero, false_or]
  cases malloc <;> simp

variable {t u : IpaNatIp4TableCache} {chain ichain : Nat → List Nat}

/-- The row number of a slot within its table. -/
def rowOf (N s : Nat) : Nat := if N ≤ s then s - N else s

theorem slotOf_rowOf (t : IpaNatIp4TableCache) (s : Nat) :
    slotOf t (decide (t.tableEntries ≤ s)) (rowOf t.tableEntries s) = s := by
  unfold slotOf rowOf
  by_cases expn : t.tableEntries ≤ s
  · simp only [expn, decide_true, if_true]
    omega
  · simp only [expn, decide_false, if_false]
    rfl

/-- Where the rule in slot `s` stands in its chain. -/
def rulePosOf (t : IpaNatIp4TableCache) (s : Nat) : DelType :=
  ipaNatiFindRulePos t (decide (t.tableEntries ≤ s)) (rowOf t.tableEntries s)

theorem rulePosOf_expn {s : Nat} (expn : t.tableEntries ≤ s) :
    rulePosOf t s = if (t.rules s).nextIndex = 0 then .last else .middle := by
  simp only [rulePosOf, ipaNatiFindRulePos, expn, decide_true, if_true, rowOf,
    expnRules, Nat.add_sub_cancel' expn, ipaNatInvalidNatEntry]

theorem rulePosOf_base {s : Nat} (base : s < t.tableEntries) :
    rulePosOf t s = if (t.rules s).nextIndex = 0 then .onlyOne else .head := by
  have expn := Nat.not_le.mpr base
  simp only [rulePosOf, ipaNatiFindRulePos, expn, decide_false, Bool.false_eq_true, if_false,
    rowOf, ipaNatInvalidNatEntry]

theorem findIndexRulePos_expn {x : Nat} (expn : t.tableEntries ≤ x) :
    ipaNatiFindIndexRulePos t x = if (t.index x).nextIndex = 0 then .last else .middle := by
  simp only [ipaNatiFindIndexRulePos, expn, if_true, expnIndex, Nat.add_sub_cancel' expn, ipaNatInvalidNatEntry]

theorem findIndexRulePos_base {x : Nat} (base : x < t.tableEntries) :
    ipaNatiFindIndexRulePos t x = if (t.index x).nextIndex = 0 then .onlyOne else .head := by
  rw [ipaNatiFindIndexRulePos, if_neg (Nat.not_le.mpr base)]
  rfl

/-- The command a delete of the rule in slot `s` posts for the rule table. -/
def ruleCmdOf (t : IpaNatIp4TableCache) (s : Nat) : IpaIocNatDmaOne :=
  delRuleCmd t (rowOf t.tableEntries s) (decide (t.tableEntries ≤ s)) (rulePosOf t s)

/-- The commands it posts for the index table. -/
def indexCmdsOf (t : IpaNatIp4TableCache) (x : Nat) : List IpaIocNatDmaOne :=
  delIndexCmds t x (ipaNatiFindIndexRulePos t x)

theorem ruleNextCmd_table (t : IpaNatIp4TableCache) (p data : Nat) :
    (ruleNextCmd t p data).baseAddr = .baseTbl ∨ (ruleNextCmd t p data).baseAddr = .expnTbl := by
  unfold ruleNextCmd
  split
  · exact Or.inr rfl
  · exact Or.inl rfl

theorem indexNextCmd_table (t : IpaNatIp4TableCache) (q data : Nat) :
    (indexNextCmd t q data).baseAddr = .indxTbl ∨ (indexNextCmd t q data).baseAddr = .indexExpnTbl := by
  unfold indexNextCmd
  split
  · exact Or.inr rfl
  · exact Or.inl rfl

theorem ruleCmdOf_table (t : IpaNatIp4TableCache) (s : Nat) :
    (ruleCmdOf t s).baseAddr = .baseTbl ∨ (ruleCmdOf t s).baseAddr = .expnTbl := by
  unfold ruleCmdOf
  cases rulePosOf t s with
  | onlyOne | head => exact Or.inl rfl
  | middle | last => exact ruleNextCmd_table _ _ _

theorem indexCmdsOf_table (t : IpaNatIp4TableCache) (x : Nat) :
    ∀ cmd ∈ indexCmdsOf t x, cmd.baseAddr = .indxTbl ∨ cmd.baseAddr = .indexExpnTbl := by
  intro cmd member
  unfold indexCmdsOf at member
  cases pos : ipaNatiFindIndexRulePos t x <;> rw [pos] at member <;>
    simp only [delIndexCmds, List.mem_cons, List.not_mem_nil, or_false] at member
  · rw [member]
    exact Or.inl rfl
  · rcases member with eq | eq <;> rw [eq] <;> exact Or.inl rfl
  · rw [member]
    exact indexNextCmd_table _ _ _
  · rw [member]
    exact indexNextCmd_table _ _ _

theorem indexCmdsOf_ne_nil (t : IpaNatIp4TableCache) (x : Nat) : indexCmdsOf t x ≠ [] := by
  unfold indexCmdsOf
  cases ipaNatiFindIndexRulePos t x <;> exact List.cons_ne_nil _ _

/-- The commands of a delete, in the order they are posted. -/
theorem reorderCmds_del (t : IpaNatIp4TableCache) (s x : Nat) :
    reorderCmds malloc (ruleCmdOf t s :: indexCmdsOf t x) =
      if malloc then indexCmdsOf t x ++ [ruleCmdOf t s] else ruleCmdOf t s :: indexCmdsOf t x :=
  reorderCmds_cases malloc (indexCmdsOf_ne_nil t x) (ruleCmdOf_table t s) (indexCmdsOf_table t x)

/-! ### Commands for one table leave the other alone -/

theorem write_rule_cmd_index {cmd : IpaIocNatDmaOne}
    (table : cmd.baseAddr = .baseTbl ∨ cmd.baseAddr = .expnTbl) :
    (t.write (.dma cmd)).index = t.index := by
  rw [dma_rule cmd table rfl rfl]

theorem writes_index_cmds_rules {cmds : List IpaIocNatDmaOne}
    (table : ∀ cmd ∈ cmds, cmd.baseAddr = .indxTbl ∨ cmd.baseAddr = .indexExpnTbl) :
    (t.writes (cmds.map Write.dma)).rules = t.rules := by
  induction cmds generalizing t with
  | nil => rfl
  | cons cmd cmds ih =>
    rw [List.map_cons, writes_cons, ih (fun cmd' h => table cmd' (List.mem_cons_of_mem cmd h)),
      dma_index cmd (table cmd List.mem_cons_self) rfl rfl]

/-- What a rule command writes depends on the rows and the size of the table only. -/
theorem write_rule_cmd_congr {cmd : IpaIocNatDmaOne}
    (table : cmd.baseAddr = .baseTbl ∨ cmd.baseAddr = .expnTbl) (rules : u.rules = t.rules)
    (entries : u.tableEntries = t.tableEntries) :
    (u.write (.dma cmd)).rules = (t.write (.dma cmd)).rules := by
  have slot : u.dmaSlot cmd = t.dmaSlot cmd := by
    unfold dmaSlot
    rw [entries]
  rw [dma_rule cmd table rfl rfl, dma_rule cmd table rfl rfl]
  simp only [slot, rules]

theorem writes_index_cmds_congr {cmds : List IpaIocNatDmaOne}
    (table : ∀ cmd ∈ cmds, cmd.baseAddr = .indxTbl ∨ cmd.baseAddr = .indexExpnTbl)
    (index : u.index = t.index) (entries : u.tableEntries = t.tableEntries) :
    (u.writes (cmds.map Write.dma)).index = (t.writes (cmds.map Write.dma)).index := by
  induction cmds generalizing t u with
  | nil => exact index
  | cons cmd cmds ih =>
    have head := table cmd List.mem_cons_self
    have slot : u.dmaSlot cmd = t.dmaSlot cmd := by
      unfold dmaSlot
      rw [entries]
    apply ih (fun cmd' h => table cmd' (List.mem_cons_of_mem cmd h))
    · rw [dma_index cmd head rfl rfl, dma_index cmd head rfl rfl]
      simp only [slot, index]
    · rw [(u.write_dims _).1, (t.write_dims _).1, entries]

/-- The stores of the commands of a delete. -/
def postedOf (malloc : Bool) (t : IpaNatIp4TableCache) (s x : Nat) : List Write :=
  (reorderCmds malloc (ruleCmdOf t s :: indexCmdsOf t x)).map Write.dma

theorem postedOf_rules (t : IpaNatIp4TableCache) (s x : Nat) :
    (t.writes (postedOf malloc t s x)).rules = (t.write (.dma (ruleCmdOf t s))).rules := by
  rw [postedOf, reorderCmds_del]
  cases malloc
  · exact writes_index_cmds_rules (indexCmdsOf_table t x)
  · rw [if_pos rfl, List.map_append, writes_append]
    exact write_rule_cmd_congr (ruleCmdOf_table t s)
      (writes_index_cmds_rules (indexCmdsOf_table t x)) (t.writes_tableEntries _)

theorem postedOf_index (t : IpaNatIp4TableCache) (s x : Nat) :
    (t.writes (postedOf malloc t s x)).index = (t.writes ((indexCmdsOf t x).map Write.dma)).index := by
  rw [postedOf, reorderCmds_del]
  cases malloc
  · exact writes_index_cmds_congr (indexCmdsOf_table t x)
      (write_rule_cmd_index (ruleCmdOf_table t s)) (t.write_dims _).1
  · rw [if_pos rfl, List.map_append, writes_append]
    exact write_rule_cmd_index (ruleCmdOf_table t s)

/-! ### The rows -/

/-- The index row the rule in slot `s` remembers. -/
def indexOf (t : IpaNatIp4TableCache) (s : Nat) : Nat := (t.rules s).indxTblEntry

/-- The rule rows after the commands and the first group of stores of a delete. -/
def ruleStoresOf (malloc : Bool) (t : IpaNatIp4TableCache) (s x : Nat) : List Write :=
  delRuleStores (t.writes (postedOf malloc t s x)) (rowOf t.tableEntries s)
    (decide (t.tableEntries ≤ s)) (rulePosOf t s)

def indexStoresOf (malloc : Bool) (t : IpaNatIp4TableCache) (s x : Nat) : List Write :=
  delIndexStores (t.writes (postedOf malloc t s x ++ ruleStoresOf malloc t s x)) x
    (sub16 (t.index x).nextIndex t.tableEntries) (ipaNatiFindIndexRulePos t x)

/-- Everything a delete stores before it looks for dead heads. -/
def delStores (malloc : Bool) (t : IpaNatIp4TableCache) (s x : Nat) : List Write :=
  postedOf malloc t s x ++ ruleStoresOf malloc t s x ++ indexStoresOf malloc t s x

theorem postDelDmaCmd_eq (o : DelOutcomes) {s : Nat} (on : (t.rules s).enable = true)
    (cmd : o.cmdMalloc = true) (ioctl : o.ioctl = true) :
    ipaNatiPostDelDmaCmd o t (rowOf t.tableEntries s) (decide (t.tableEntries ≤ s))
      (rulePosOf t s) = (0, delStores o.reorderMalloc t s (indexOf t s)) := by
  unfold ipaNatiPostDelDmaCmd
  simp only [slotOf_rowOf, on, cmd, ioctl, Bool.true_eq_false, if_false]
  rfl

theorem delRuleStores_slot (same : u.tableEntries = t.tableEntries) (s : Nat) (pos : DelType) :
    delRuleStores u (rowOf t.tableEntries s) (decide (t.tableEntries ≤ s)) pos = (if pos = .middle then
        [.rule (u.tableEntries + sub16 (u.rules s).nextIndex u.tableEntries)
          ((u.expnRules (sub16 (u.rules s).nextIndex u.tableEntries)).updatePrevIndex (u.rules s).prevIndex)]
      else []) ++ if pos = .head then [] else [.rule s {}] := by
  unfold delRuleStores
  rw [← same, slotOf_rowOf]

/-- A head without rows behind it is switched off and cleared. -/
theorem ruleStores_onlyOne (offset : t.tblAddrOffset = 0) {s : Nat} (x : Nat)
    (base : s < t.tableEntries) (alone : (t.rules s).nextIndex = 0) :
    (t.writes (postedOf malloc t s x ++ ruleStoresOf malloc t s x)).rules = Function.update t.rules s {} := by
  have pos : rulePosOf t s = .onlyOne := by rw [rulePosOf_base base, if_pos alone]
  have row : rowOf t.tableEntries s = s := if_neg (Nat.not_le.mpr base)
  have posted : (t.writes (postedOf malloc t s x)).rules =
      Function.update t.rules s ((t.rules s).setFlags false) := by
    rw [postedOf_rules, ruleCmdOf, pos, row, dma_delRuleCmd_onlyOne offset]
  rw [writes_append, ruleStoresOf, pos,
    delRuleStores_slot (t.writes_tableEntries _), if_neg nofun, if_neg nofun]
  simp only [List.nil_append, writes_cons, writes_nil, write_rule, posted, Function.update_idem]

/-- A head with rows behind it keeps its place as a dead head. -/
theorem ruleStores_head (offset : t.tblAddrOffset = 0) {s : Nat} (x : Nat)
    (base : s < t.tableEntries) (linked : (t.rules s).nextIndex ≠ 0) :
    (t.writes (postedOf malloc t s x ++ ruleStoresOf malloc t s x)).rules =
      Function.update t.rules s (t.rules s).setDead := by
  have pos : rulePosOf t s = .head := by rw [rulePosOf_base base, if_neg linked]
  have row : rowOf t.tableEntries s = s := if_neg (Nat.not_le.mpr base)
  have posted : (t.writes (postedOf malloc t s x)).rules = Function.update t.rules s (t.rules s).setDead := by
    rw [postedOf_rules, ruleCmdOf, pos, row, dma_delRuleCmd_head offset]
  rw [writes_append, ruleStoresOf, pos, delRuleStores_slot (t.writes_tableEntries _), if_neg nofun, if_pos rfl]
  exact posted

/-- Row `s` of the table, with row `p` before it and row `n` behind it, is taken out. -/
structure RuleUnlinked (rules rules' : Nat → IpaNatRule) (s p n : Nat) : Prop where
  cleared : rules' s = {}
  link : rules' p = (rules p).setNext n
  back : n ≠ 0 → rules' n = (rules n).updatePrevIndex p
  other : ∀ r, r ≠ s → r ≠ p → (n ≠ 0 → r ≠ n) → rules' r = rules r

theorem ruleCmdOf_expn {s : Nat} (expn : t.tableEntries ≤ s) :
    ruleCmdOf t s = ruleNextCmd t (t.rules s).prevIndex (t.rules s).nextIndex := by
  have slot := slotOf_rowOf t s
  unfold ruleCmdOf
  rw [rulePosOf_expn expn]
  split
  next last =>
    simp only [delRuleCmd, slot, last, ipaNatInvalidNatEntry]
  next => simp only [delRuleCmd, slot]

theorem ruleStores_expn (offset : t.tblAddrOffset = 0) {s p n : Nat} (x : Nat)
    (expn : t.tableEntries ≤ s) (prev : (t.rules s).prevIndex = p)
    (next : (t.rules s).nextIndex = n) (pred_ne : p ≠ s)
    (succ : n ≠ 0 → t.tableEntries ≤ n ∧ n < 65536 ∧ n ≠ s ∧ n ≠ p) :
    RuleUnlinked t.rules (t.writes (postedOf malloc t s x ++ ruleStoresOf malloc t s x)).rules s p n := by
  have posted : (t.writes (postedOf malloc t s x)).rules =
      Function.update t.rules p ((t.rules p).setNext n) := by
    rw [postedOf_rules, ruleCmdOf_expn expn, dma_ruleNextCmd rfl offset, prev, next]
  have row : (t.writes (postedOf malloc t s x)).rules s = t.rules s := by
    rw [posted, Function.update_of_ne pred_ne.symm]
  rw [writes_append, ruleStoresOf, rulePosOf_expn expn, next,
    delRuleStores_slot (t.writes_tableEntries _), row, prev, next,
    writes_tableEntries]
  by_cases last : n = 0
  · rw [if_pos last, if_neg nofun, if_neg nofun]
    simp only [List.nil_append, writes_cons, writes_nil, write_rule, posted]
    refine ⟨Function.update_self .., ?_, fun ne => absurd last ne, ?_⟩
    · rw [Function.update_of_ne pred_ne, Function.update_self]
    · intro r ne ne' _
      rw [Function.update_of_ne ne, Function.update_of_ne ne']
  · obtain ⟨le, small, ne_s, ne_p⟩ := succ last
    have slot : t.tableEntries + sub16 n t.tableEntries = n := by
      rw [sub16_of_le le small, Nat.add_sub_cancel' le]
    rw [if_neg last, if_pos rfl, if_neg nofun]
    simp only [List.singleton_append, writes_cons, writes_nil, write_rule, expnRules,
      writes_tableEntries, slot, posted]
    refine ⟨Function.update_self .., ?_, fun _ => ?_, ?_⟩
    · rw [Function.update_of_ne pred_ne, Function.update_of_ne ne_p.symm, Function.update_self]
    · rw [Function.update_of_ne ne_s, Function.update_self, Function.update_of_ne ne_p]
    · intro r ne ne' ne''
      rw [Function.update_of_ne ne, Function.update_of_ne (ne'' last), Function.update_of_ne ne']

/-! ### The index rows -/

/-- The stores to the index table change no more of a rule row than the index entry it
remembers, whatever the index table holds. -/
theorem delIndexStores_rules (u : IpaNatIp4TableCache) (x n : Nat) (pos : DelType) (s : Nat) :
    ((u.writes (delIndexStores u x n pos)).rules s).forgetIndex = (u.rules s).forgetIndex := by
  have moved : ∀ r y, (Function.update u.rules r ((u.rules r).updateIndxTblEntry y) s).forgetIndex =
      (u.rules s).forgetIndex := by
    intro r y
    by_cases eq : s = r
    · rw [eq, Function.update_self, forgetIndex_updateIndxTblEntry]
    · rw [Function.update_of_ne eq]
  cases pos with
  | onlyOne | middle | last => rfl
  | head =>
    simp only [delIndexStores]
    split
    · exact moved _ _
    · exact moved _ _

theorem ruleStores_index (t : IpaNatIp4TableCache) (s x : Nat) :
    (t.writes (postedOf malloc t s x ++ ruleStoresOf malloc t s x)).index =
      (t.writes ((indexCmdsOf t x).map Write.dma)).index := by
  have stores : ∀ u : IpaNatIp4TableCache, (u.writes (ruleStoresOf malloc t s x)).index = u.index := by
    intro u
    unfold ruleStoresOf delRuleStores
    split <;> split <;> rfl
  rw [writes_append, stores, postedOf_index]

theorem writes_cmds_prevIndexMeta (cmds : List IpaIocNatDmaOne) :
    (t.writes (cmds.map Write.dma)).prevIndexMeta = t.prevIndexMeta ∧
      (t.writes (cmds.map Write.dma)).ruleId = t.ruleId := by
  induction cmds generalizing t with
  | nil => exact ⟨rfl, rfl⟩
  | cons cmd cmds ih =>
    rw [List.map_cons, writes_cons, ih.1, ih.2, write_dma_prevIndexMeta, write_dma_ruleId]
    exact ⟨rfl, rfl⟩

theorem ruleStores_prevIndexMeta (t : IpaNatIp4TableCache) (s x : Nat) :
    (t.writes (postedOf malloc t s x ++ ruleStoresOf malloc t s x)).prevIndexMeta = t.prevIndexMeta := by
  have stores : ∀ u : IpaNatIp4TableCache,
      (u.writes (ruleStoresOf malloc t s x)).prevIndexMeta = u.prevIndexMeta := by
    intro u
    unfold ruleStoresOf delRuleStores
    split <;> split <;> rfl
  rw [writes_append, stores, postedOf, (writes_cmds_prevIndexMeta _).1]

/-- A delete issues no id: it only clears one, at its end. -/
theorem delStores_ruleId (t : IpaNatIp4TableCache) (s x : Nat) :
    (t.writes (delStores malloc t s x)).ruleId = t.ruleId := by
  have rule_stores : ∀ u : IpaNatIp4TableCache, (u.writes (ruleStoresOf malloc t s x)).ruleId = u.ruleId := by
    intro u
    unfold ruleStoresOf delRuleStores
    split <;> split <;> rfl
  have index_stores : ∀ u : IpaNatIp4TableCache, (u.writes (indexStoresOf malloc t s x)).ruleId = u.ruleId := by
    intro u
    unfold indexStoresOf
    cases ipaNatiFindIndexRulePos t x with
    | onlyOne | middle | last => rfl
    | head =>
      simp only [delIndexStores]
      split <;> rfl
  rw [delStores, writes_append, index_stores,
    writes_append, rule_stores, postedOf, (writes_cmds_prevIndexMeta _).2]

/-- Index row `x`, with row `q` before it and row `n` behind it, is taken out. -/
structure IndexUnlinked (index index' : Nat → IpaNatIndxTblRule) (x q n : Nat) : Prop where
  cleared : index' x = {}
  link : index' q = (index q).setNext n
  other : ∀ y, y ≠ x → y ≠ q → index' y = index y

/-- What a delete leaves of the index rows, their metadata and the entries the rules remember,
after its rule stores have left the rules `rules`. -/
inductive IndexRemoved (N : Nat) (index : Nat → IpaNatIndxTblRule) (prevMeta : Nat → Nat)
    (rules : Nat → IpaNatRule) (x : Nat) (index' : Nat → IpaNatIndxTblRule)
    (prevMeta' : Nat → Nat) (rules' : Nat → IpaNatRule) : Prop
  | onlyOne : x < N → (index x).nextIndex = 0 → index' = Function.update index x {} →
      prevMeta' = prevMeta → rules' = rules →
      IndexRemoved N index prevMeta rules x index' prevMeta' rules'
  /-- The head takes over the row behind it, which is cleared. -/
  | head {n : Nat} : x < N → (index x).nextIndex = n → n ≠ 0 →
      index' = Function.update (Function.update index x (index n)) n {} →
      prevMeta' = (if (index n).nextIndex ≠ 0 then
        Function.update prevMeta ((index n).nextIndex - N) x else prevMeta) →
      rules' = Function.update rules (index n).tblEntry
        ((rules (index n).tblEntry).updateIndxTblEntry x) →
      IndexRemoved N index prevMeta rules x index' prevMeta' rules'
  | expn {q n : Nat} : N ≤ x → prevMeta (x - N) = q → (index x).nextIndex = n →
      IndexUnlinked index index' x q n →
      prevMeta' = (if n ≠ 0 then
        Function.update (Function.update prevMeta (n - N) q) (x - N) 0 else prevMeta) →
      rules' = rules →
      IndexRemoved N index prevMeta rules x index' prevMeta' rules'

theorem indexCmdsOf_expn {x : Nat} (expn : t.tableEntries ≤ x) :
    indexCmdsOf t x = [indexNextCmd t (t.prevIndexMeta (x - t.tableEntries)) (t.index x).nextIndex] := by
  unfold indexCmdsOf
  rw [findIndexRulePos_expn expn]
  split
  next last => simp only [delIndexCmds, last, ipaNatInvalidNatEntry]
  next => rfl

theorem indexCmdsOf_head {x n : Nat} (base : x < t.tableEntries) (next : (t.index x).nextIndex = n)
    (linked : t.tableEntries ≤ n ∧ n ≠ 0 ∧ n < 65536) :
    indexCmdsOf t x = [indexEntryCmd t x (t.index n).tblEntry, indexNextCmd t x (t.index n).nextIndex] := by
  have slot : t.tableEntries + sub16 n t.tableEntries = n := by
    rw [sub16_of_le linked.1 linked.2.2, Nat.add_sub_cancel' linked.1]
  rw [indexCmdsOf, findIndexRulePos_base base, next, if_neg linked.2.1, delIndexCmds, next,
    expnIndex, slot, indexNextCmd, if_neg (Nat.not_le.mpr base)]
  rfl

theorem indexStores_spec (offset : t.tblAddrOffset = 0) (s x : Nat) (succ : (t.index x).nextIndex ≠ 0 →
      t.tableEntries < (t.index x).nextIndex ∧ (t.index x).nextIndex < 65536 ∧ (t.index x).nextIndex ≠ x)
    (succ_succ : x < t.tableEntries → (t.index x).nextIndex ≠ 0 →
      (t.index (t.index x).nextIndex).nextIndex ≠ 0 →
      t.tableEntries ≤ (t.index (t.index x).nextIndex).nextIndex)
    (pred : t.tableEntries ≤ x → t.prevIndexMeta (x - t.tableEntries) ≠ x) :
    IndexRemoved t.tableEntries t.index t.prevIndexMeta
      (t.writes (postedOf malloc t s x ++ ruleStoresOf malloc t s x)).rules x
      (t.writes (delStores malloc t s x)).index (t.writes (delStores malloc t s x)).prevIndexMeta
      (t.writes (delStores malloc t s x)).rules := by
  -- `u` is the table that the stores of the rule chain leave
  have index := ruleStores_index malloc t s x
  have backs := ruleStores_prevIndexMeta malloc t s x
  have entries := t.writes_tableEntries (postedOf malloc t s x ++ ruleStoresOf malloc t s x)
  have total : t.writes (delStores malloc t s x) =
      (t.writes (postedOf malloc t s x ++ ruleStoresOf malloc t s x)).writes
        (indexStoresOf malloc t s x) := writes_append ..
  rw [total, indexStoresOf]
  generalize t.writes (postedOf malloc t s x ++ ruleStoresOf malloc t s x) = u at *
  -- the base entry keeps its slot, an expansion entry is unlinked from its predecessor
  by_cases base : x < t.tableEntries
  · rw [findIndexRulePos_base base]
    by_cases alone : (t.index x).nextIndex = 0
    · have cmd : indexCmdsOf t x = [indexEntryCmd t x 0] := by
        rw [indexCmdsOf, findIndexRulePos_base base, if_pos alone]
        rfl
      rw [cmd, List.map_singleton, writes_cons, writes_nil, dma_indexEntryCmd offset] at index
      rw [if_pos alone]
      refine .onlyOne base alone ?_ backs rfl
      simp only [delIndexStores, writes_cons, writes_nil, write_index, index, Function.update_idem]
    · obtain ⟨gt, small, ne⟩ := succ alone
      have link := fun u same => dma_indexNextCmd (t := u) (u := t) same offset
      simp only [indexCmdsOf_head base rfl ⟨Nat.le_of_lt gt, alone, small⟩, List.map_cons,
        List.map_nil, writes_cons, writes_nil,
        dma_indexEntryCmd offset, link] at index
      -- the successor is copied into the base entry and its own slot is freed
      have taken : u.index = Function.update t.index x (t.index (t.index x).nextIndex) := by
        rw [index]
        simp only [Function.update_idem, Function.update_self]
        rfl
      have row := succ_succ base alone
      generalize next : (t.index x).nextIndex = n at *
      have slot : t.tableEntries + sub16 n t.tableEntries = n := by
        rw [sub16_of_le (Nat.le_of_lt gt) small, Nat.add_sub_cancel' (Nat.le_of_lt gt)]
      have guard : ((t.index n).nextIndex ≠ 0 ∧ t.tableEntries ≤ (t.index n).nextIndex) ↔
          (t.index n).nextIndex ≠ 0 := ⟨And.left, fun h => ⟨h, row h⟩⟩
      rw [if_neg alone]
      refine .head base next alone ?_ ?_ ?_ <;> simp only [delIndexStores, expnIndex, slot, taken, entries,
          Function.update_self, Function.update_of_ne ne, guard] <;>
        split <;>
        simp only [List.cons_append, List.nil_append, writes_cons,
          writes_nil, write_index, write_prevMeta, write_rule, taken, backs]
  · have expn := Nat.not_lt.mp base
    have ne := pred expn
    simp only [indexCmdsOf_expn expn, List.map_singleton, writes_cons,
      writes_nil, dma_indexNextCmd (t := t) rfl offset] at index
    rw [findIndexRulePos_expn expn]
    generalize prev : t.prevIndexMeta (x - t.tableEntries) = q at *
    generalize next : (t.index x).nextIndex = n at *
    have unlinked : IndexUnlinked t.index (Function.update u.index x {}) x q n := by
      refine ⟨Function.update_self .., ?_, fun y ne' ne'' => ?_⟩
      · rw [Function.update_of_ne ne, index, Function.update_self]
      · rw [Function.update_of_ne ne', index, Function.update_of_ne ne'']
    by_cases last : n = 0
    · rw [if_pos last]
      refine .expn expn prev next unlinked ?_ rfl
      rw [if_neg (fun ne => ne last)]
      exact backs
    · have row : (u.index x).nextIndex = n := by
        rw [index]
        simp only [Function.update_of_ne ne.symm, next]
      rw [if_neg last]
      refine .expn expn prev next unlinked ?_ rfl
      rw [if_pos last]
      simp only [delIndexStores, writes_cons, writes_nil,
        write_index, write_prevMeta, backs, entries, row, prev, if_pos (Nat.le_of_lt (succ last).1),
        ipaNatInvalidNatEntry]

/-! ### The whole delete -/

/-- All stores of a delete of the rule in slot `s` by handle `ruleHdl`. -/
def delWrites (malloc : Bool) (t : IpaNatIp4TableCache) (s ruleHdl : Nat) : List Write :=
  delStores malloc t s (indexOf t s) ++
    ipaNatiDelDeadIpv4HeadNodes (t.writes (delStores malloc t s (indexOf t s))) ++
    [.ruleId (ruleHdl - 1) ipaNatInvalidNatEntry]

/-- The row is a dead head that nothing hangs off. -/
def IdleHead (N : Nat) (rules : Nat → IpaNatRule) (s : Nat) : Prop :=
  s < N ∧ (rules s).protocol = ipaNatInvalidProtoFieldCmp ∧ (rules s).nextIndex = 0

instance (N : Nat) (rules : Nat → IpaNatRule) (s : Nat) : Decidable (IdleHead N rules s) :=
  inferInstanceAs (Decidable (_ ∧ _ ∧ _))

theorem writes_cleared (l : List Nat) : t.writes (l.map fun cnt => .rule cnt {}) =
    { t with rules := fun s => if s ∈ l then {} else t.rules s } := by
  induction l generalizing t with
  | nil => rfl
  | cons c l ih =>
    rw [List.map_cons, writes_cons, ih]
    simp only [write_rule, List.mem_cons]
    congr 1
    funext s
    by_cases eq : s = c
    · subst eq
      simp only [Function.update_self, true_or, if_true, ite_self]
    · simp only [Function.update_of_ne eq, eq, false_or]

/-- The scan for dead heads clears the idle ones and touches nothing else. -/
theorem writes_delDeadIpv4HeadNodes (t : IpaNatIp4TableCache) :
    t.writes (ipaNatiDelDeadIpv4HeadNodes t) =
      { t with rules := fun s => if IdleHead t.tableEntries t.rules s then {} else t.rules s } := by
  rw [ipaNatiDelDeadIpv4HeadNodes, writes_cleared]
  simp only [List.mem_filter, List.mem_range, decide_eq_true_eq]
  rfl

theorem parseIpv4RuleHdl_live (sized : WellSized t) {h s : Nat}
    (hs : s < t.tableEntries + t.expnTableEntries) (range : 0 < h ∧ h < t.tableEntries + t.expnTableEntries)
    (id : t.ruleId (h - 1) = idOfSlot t.tableEntries s) :
    ipaNatiParseIpv4RuleHdl t h = some (decide (t.tableEntries ≤ s), rowOf t.tableEntries s) := by
  have entries := sized.entriesLe
  have expn := sized.expnLe
  rw [ipaNatiParseIpv4RuleHdl, if_neg (by omega), if_neg (by omega), id]
  unfold idOfSlot rowOf
  by_cases le : t.tableEntries ≤ s
  · simp only [le, if_true]
    have odd : ((s - t.tableEntries) * 2 % 65536 + 1) % 2 = 1 := by omega
    have half : ((s - t.tableEntries) * 2 % 65536 + 1) / 2 = s - t.tableEntries := by omega
    simp only [odd, half]
  · simp only [le, if_false]
    have even : ¬s * 2 % 65536 % 2 = 1 := by omega
    have half : s * 2 % 65536 / 2 = s := by omega
    simp only [even, half]

/-- What a delete of the rule in a slot returns, by what the driver answers. -/
def delEnd (o : DelOutcomes) (t : IpaNatIp4TableCache) (s h : Nat) : Option DelResult :=
  if o.cmdMalloc = true ∧ o.ioctl = true then
    if h - 1 < t.tableEntries + t.expnTableEntries then
      some { ret := 0, writes := delWrites o.reorderMalloc t s h }
    else none
  else some { ret := -EINVAL }

theorem delIpv4Rule_parsed (sized : WellSized t) (o : DelOutcomes) {h s : Nat}
    (live : Live t.rules s) (nonzero : s ≠ 0) (inside : s ≠ t.tableEntries ∧
      s < t.tableEntries + t.expnTableEntries)
    (range : 0 < h % 65536 ∧ h % 65536 < t.tableEntries + t.expnTableEntries)
    (id : t.ruleId (h % 65536 - 1) = idOfSlot t.tableEntries s) :
    ipaNatiDelIpv4Rule o t h = delEnd o t s h := by
  have row : rowOf t.tableEntries s ≠ ipaNatInvalidNatEntry := by
    unfold rowOf ipaNatInvalidNatEntry
    split <;> omega
  unfold ipaNatiDelIpv4Rule delEnd
  rw [parseIpv4RuleHdl_live sized inside.2 range id]
  simp only [row, if_false, sized.valid, Bool.true_eq_false]
  by_cases posted : o.cmdMalloc = true ∧ o.ioctl = true
  · have post := postDelDmaCmd_eq o live.1 posted.1 posted.2
    unfold rulePosOf at post
    simp only [post, ne_eq, not_true_eq_false, if_false, posted, and_self, if_true]
    rfl
  · rw [if_neg posted]
    have failed : ∃ e : Int, e ≠ 0 ∧
        ipaNatiPostDelDmaCmd o t (rowOf t.tableEntries s) (decide (t.tableEntries ≤ s))
          (rulePosOf t s) = (e, []) := by
      unfold ipaNatiPostDelDmaCmd
      simp only [slotOf_rowOf, live.1, Bool.true_eq_false, if_false]
      cases cmd : o.cmdMalloc with
      | false => exact ⟨-ENOMEM, by decide, rfl⟩
      | true =>
        cases ioctl : o.ioctl with
        | false => exact ⟨- EIO, by decide, rfl⟩
        | true => exact absurd ⟨cmd, ioctl⟩ posted
    obtain ⟨e, nonzero, post⟩ := failed
    unfold rulePosOf at post
    simp only [post, ne_eq, nonzero, not_false_eq_true, if_true]

theorem delIpv4Rule_live (sized : WellSized t) (o : DelOutcomes) {h s : Nat}
    (live : Live t.rules s) (nonzero : s ≠ 0) (inside : s ≠ t.tableEntries ∧
      s < t.tableEntries + t.expnTableEntries) (range : 0 < h ∧ h < t.tableEntries + t.expnTableEntries)
    (id : t.ruleId (h - 1) = idOfSlot t.tableEntries s) :
    ipaNatiDelIpv4Rule o t h = if o.cmdMalloc = true ∧ o.ioctl = true then
        some { ret := 0, writes := delWrites o.reorderMalloc t s h }
      else some { ret := -EINVAL } := by
  have entries := sized.entriesLe
  have expn := sized.expnLe
  have small : h % 65536 = h := Nat.mod_eq_of_lt (by omega)
  rw [delIpv4Rule_parsed sized o live nonzero inside (small.symm ▸ range) (small.symm ▸ id),
    delEnd, if_pos (show h - 1 < t.tableEntries + t.expnTableEntries by omega)]

theorem delIpv4Rule_stale (o : DelOutcomes) {h : Nat} (nonzero : 0 < h % 65536)
    (stale : h % 65536 < t.tableEntries + t.expnTableEntries → t.ruleId (h % 65536 - 1) = 0) :
    ipaNatiDelIpv4Rule o t h = some { ret := -EINVAL } := by
  have parsed : ipaNatiParseIpv4RuleHdl t (h % 65536) = some (false, ipaNatInvalidNatEntry) := by
    rw [ipaNatiParseIpv4RuleHdl]
    split
    next => rfl
    next inside =>
      rw [if_neg (by omega), stale (by omega)]
      rfl
  unfold ipaNatiDelIpv4Rule
  rw [parsed]
  rfl

/-! ### Handles -/

/-- The live rows lie in the table, and `rule_id_array` stands for them. -/
structure IdsOk (t : IpaNatIp4TableCache) : Prop where
  sized : WellSized t
  live_slot : ∀ s, Live t.rules s →
    s ≠ 0 ∧ s ≠ t.tableEntries ∧ s < t.tableEntries + t.expnTableEntries
  ids : IdsInv t.tableEntries t.expnTableEntries t.rules t.ruleId

/-- The handle has an entry of `rule_id_array`, and that is in use. -/
def Issued (t : IpaNatIp4TableCache) (hdl : Nat) : Prop :=
  hdl < t.tableEntries + t.expnTableEntries ∧ t.ruleId (hdl - 1) ≠ 0

instance (t : IpaNatIp4TableCache) (hdl : Nat) : Decidable (Issued t hdl) :=
  inferInstanceAs (Decidable (_ ∧ _))

/-- A delete parses the lower 16 bits of its handle: to no entry, to one that is not in use, or to
that of a live rule. -/
theorem IdsOk.del_spec (ok : IdsOk t) (o : DelOutcomes) (h : Nat) :
    (h % 65536 = 0 ∧ ipaNatiDelIpv4Rule o t h = none) ∨ (h % 65536 ≠ 0 ∧ ¬Issued t (h % 65536) ∧
      ipaNatiDelIpv4Rule o t h = some { ret := -EINVAL }) ∨
    ∃ s, Live t.rules s ∧ (0 < h % 65536 ∧ h % 65536 < t.tableEntries + t.expnTableEntries) ∧
      t.ruleId (h % 65536 - 1) = idOfSlot t.tableEntries s ∧
      ipaNatiDelIpv4Rule o t h = delEnd o t s h := by
  have two := ok.sized.twoEntries
  by_cases zero : h % 65536 = 0
  · refine Or.inl ⟨zero, ?_⟩
    rw [ipaNatiDelIpv4Rule, ipaNatiParseIpv4RuleHdl, zero, if_neg (by omega), if_pos rfl]
  · right
    by_cases issued : Issued t (h % 65536)
    · right
      obtain ⟨inside, used⟩ := issued
      obtain ⟨s, live, id⟩ := ok.ids.decodes _ used
      have slot := ok.live_slot s live
      have range : 0 < h % 65536 ∧ h % 65536 < t.tableEntries + t.expnTableEntries :=
        ⟨Nat.pos_of_ne_zero zero, inside⟩
      exact ⟨s, live, range, id, delIpv4Rule_parsed ok.sized o live slot.1 slot.2 range id⟩
    · left
      refine ⟨zero, issued, delIpv4Rule_stale o (Nat.pos_of_ne_zero zero) fun inside => ?_⟩
      by_contra used
      exact issued ⟨inside, used⟩

/-- What a delete that returns has done, whatever the index table holds: nothing, or the stores
for the live rule its handle stands for. -/
theorem delIpv4Rule_cases (ok : IdsOk t) {o : DelOutcomes} {h : Nat} {r : DelResult}
    (returned : ipaNatiDelIpv4Rule o t h = some r) :
    r = { ret := -EINVAL } ∨
    ∃ s, Live t.rules s ∧ (0 < h ∧ h < t.tableEntries + t.expnTableEntries) ∧
      t.ruleId (h - 1) = idOfSlot t.tableEntries s ∧
      r = { ret := 0, writes := delWrites o.reorderMalloc t s h } := by
  have entries := ok.sized.entriesLe
  have expn := ok.sized.expnLe
  rcases ok.del_spec o h with ⟨_, none⟩ | ⟨_, _, refused⟩ | ⟨s, live, range, id, result⟩
  · rw [none] at returned
    cases returned
  · rw [refused] at returned
    exact Or.inl (Option.some.inj returned).symm
  · rw [result, delEnd] at returned
    split at returned
    · split at returned
      · right
        -- a handle that reaches the array at full width has 16 bits
        have small : h % 65536 = h := Nat.mod_eq_of_lt (by omega)
        rw [small] at id range
        exact ⟨s, live, range, id, (Option.some.inj returned).symm⟩
      · cases returned
    · exact Or.inl (Option.some.inj returned).symm

end Hima.Ipanat
