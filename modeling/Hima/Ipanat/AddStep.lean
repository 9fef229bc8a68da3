import Mathlib.Data.List.Perm.Subperm
import Hima.Ipanat.Stores

/-!
# What an add does

The search for a slot, and the table after the stores, for every outcome of the DMA requests.
-/
namespace Hima.Ipanat

open Chains IpaNatIp4TableCache

/-! ### The search for a slot -/

/-- On a chain that ends, the walk of the generate functions finds its last row. -/
theorem lastInList_path (link : Nat → Nat) (N : Nat) (fuel c prev : Nat) (l : List Nat)
    (path : Path (fun s => linkTo (link s)) c l)
    (range : ∀ x ∈ c :: l, N ≤ x ∧ x ≠ 0 ∧ x < 65536) (enough : l.length + 1 < fuel) :
    lastInList (fun k => link (N + k)) N fuel c prev = some (some (l.getLastD c)) := by
  induction l generalizing fuel c prev with
  | nil =>
    obtain ⟨le, nonzero, small⟩ := range c List.mem_cons_self
    have last : link c = 0 := linkTo_eq_none.mp ((path_nil _ c).mp path)
    have row : link (N + sub16 c N) = 0 := by
      rw [sub16_of_le le small, Nat.add_sub_cancel' le, last]
    match fuel with
    | fuel + 2 =>
      simp only [lastInList, ipaNatInvalidNatEntry, nonzero, row, if_false, if_true, List.getLastD_nil]
  | cons d l ih =>
    obtain ⟨le, nonzero, small⟩ := range c List.mem_cons_self
    rw [path_cons] at path
    have into : link c = d := (linkTo_eq_some.mp path.1).1
    have row : link (N + sub16 c N) = d := by
      rw [sub16_of_le le small, Nat.add_sub_cancel' le, into]
    have ne : c ≠ d := by
      rintro rfl
      exact path_start_notMem _ c (c :: l)
        ((path_cons (fun s => linkTo (link s)) c c l).mpr path) List.mem_cons_self
    match fuel with
    | fuel + 1 =>
      have rest := ih fuel d c path.2 (fun x hx => range x (List.mem_cons_of_mem c hx))
        (by simp only [List.length_cons] at enough; omega)
      simp only [lastInList, ipaNatInvalidNatEntry, nonzero, row, ne, if_false, rest, List.getLastD_cons]

/-- Rows taken once each from the pool are fewer than the pool has. -/
theorem length_le_of_pool {N M : Nat} {l : List Nat} (nodup : l.Nodup)
    (range : ∀ e ∈ l, N < e ∧ e < N + M) : l.length ≤ M := by
  have sub : l ⊆ List.range' N M := by
    intro e he
    have := range e he
    rw [List.mem_range'_1]
    omega
  have le := (nodup.subperm sub).length_le
  rwa [List.length_range'] at le

private theorem find_range' (p : Nat → Bool) (M : Nat) :
    (((List.range' 1 (M - 1)).find? p).getD 0 = 0 ∧ ∀ k, 0 < k → k < M → p k = false) ∨
    (0 < ((List.range' 1 (M - 1)).find? p).getD 0 ∧ ((List.range' 1 (M - 1)).find? p).getD 0 < M ∧
      p (((List.range' 1 (M - 1)).find? p).getD 0) = true) := by
  cases found : (List.range' 1 (M - 1)).find? p with
  | none =>
    left
    refine ⟨rfl, fun k pos lt => ?_⟩
    rw [List.find?_eq_none] at found
    have := found k (by rw [List.mem_range'_1]; omega)
    simpa using this
  | some k =>
    right
    have member := List.mem_of_find?_eq_some found
    rw [List.mem_range'_1] at member
    exact ⟨by simp only [Option.getD_some]; omega, by simp only [Option.getD_some]; omega,
      List.find?_some found⟩

theorem expnTblFreeEntry_spec (expnTbl : Nat → IpaNatRule) (M : Nat) :
    (ipaNatiExpnTblFreeEntry expnTbl M = 0 ∧ ∀ k, 0 < k → k < M → (expnTbl k).enable = true) ∨
    (0 < ipaNatiExpnTblFreeEntry expnTbl M ∧ ipaNatiExpnTblFreeEntry expnTbl M < M ∧
      (expnTbl (ipaNatiExpnTblFreeEntry expnTbl M)).enable = false) := by
  unfold ipaNatiExpnTblFreeEntry
  rcases find_range' (fun cnt => !(expnTbl cnt).enable) M with ⟨zero, full⟩ | ⟨pos, lt, free⟩
  · exact Or.inl ⟨zero, fun k hk lt => by simpa using full k hk lt⟩
  · exact Or.inr ⟨pos, lt, by simpa using free⟩

theorem indexExpnGetFreeEntry_spec (indxTbl : Nat → IpaNatIndxTblRule) (M : Nat) :
    (ipaNatiIndexExpnGetFreeEntry indxTbl M = 0 ∧ ∀ k, 0 < k → k < M → (indxTbl k).tblEntry ≠ 0) ∨
    (0 < ipaNatiIndexExpnGetFreeEntry indxTbl M ∧ ipaNatiIndexExpnGetFreeEntry indxTbl M < M ∧
      (indxTbl (ipaNatiIndexExpnGetFreeEntry indxTbl M)).tblEntry = 0) := by
  rcases find_range' (fun cnt => (indxTbl cnt).tblEntry = ipaNatInvalidNatEntry) M with
    ⟨zero, full⟩ | ⟨pos, lt, free⟩
  · exact Or.inl ⟨zero, fun k hk lt => of_decide_eq_false (full k hk lt)⟩
  · exact Or.inr ⟨pos, lt, of_decide_eq_true free⟩

/-- Where a new row may go: to its free base slot, or to a free expansion slot behind the last
row of its bucket. The second index is the row before it, 0 for none. -/
inductive RulePlace (N M : Nat) (rules : Nat → IpaNatRule) (chain : Nat → List Nat) (b : Nat) :
    Nat → Nat → Prop
  | base : (rules b).enable = false → RulePlace N M rules chain b b 0
  | expn {e : Nat} : (rules b).enable = true → N < e ∧ e < N + M → (rules e).enable = false →
      RulePlace N M rules chain b e ((chain b).getLastD b)

/-- No place: the base slot is enabled, and so is every expansion slot. -/
def RulesFull (N M : Nat) (rules : Nat → IpaNatRule) (b : Nat) : Prop :=
  (rules b).enable = true ∧ ∀ e, N < e → e < N + M → (rules e).enable = true

inductive IndexPlace (N M : Nat) (index : Nat → IpaNatIndxTblRule) (chain : Nat → List Nat)
    (b : Nat) : Nat → Nat → Prop
  | base : (index b).tblEntry = 0 → IndexPlace N M index chain b b 0
  | expn {e : Nat} : (index b).tblEntry ≠ 0 → N < e ∧ e < N + M → (index e).tblEntry = 0 →
      IndexPlace N M index chain b e ((chain b).getLastD b)

def IndexFull (N M : Nat) (index : Nat → IpaNatIndxTblRule) (b : Nat) : Prop :=
  (index b).tblEntry ≠ 0 ∧ ∀ e, N < e → e < N + M → (index e).tblEntry ≠ 0

variable {t : IpaNatIp4TableCache} {chain ichain : Nat → List Nat}

/-- A chain of the table, from its first expansion row on, as the walk of the generate
functions meets it. -/
private theorem last_of_bucket {N M b fuel : Nat} (link : Nat → Nat) {c : Nat} {l : List Nat}
    (small : N + M ≤ 49152) (path : Path (fun s => linkTo (link s)) b (c :: l))
    (range : ∀ e ∈ c :: l, N < e ∧ e < N + M) (enough : fuel = listFuel) :
    lastInList (fun k => link (N + k)) N fuel (link b) 0 = some (some ((c :: l).getLastD b)) := by
  have nodup := (List.nodup_cons.mp (path_nodup _ b _ path)).2
  have length := length_le_of_pool nodup range
  rw [path_cons] at path
  rw [(linkTo_eq_some.mp path.1).1, List.getLastD_cons]
  apply lastInList_path link N fuel c 0 l path.2
  · intro x hx
    have := range x hx
    omega
  · subst enough
    simp only [List.length_cons] at length
    unfold listFuel
    omega

theorem generateTblRule_spec (sized : WellSized t)
    (inv : RuleInv t.tableEntries t.expnTableEntries t.dstSlot t.rules chain) (c : IpaNatIpv4Rule) :
    (∃ e p, RulePlace t.tableEntries t.expnTableEntries t.rules chain (t.dstSlot c) e p ∧
      ipaNatiGenerateTblRule t c = some ({ swRuleOfClient t.publicAddr c with prevIndex := p }, e)) ∨
    (RulesFull t.tableEntries t.expnTableEntries t.rules (t.dstSlot c) ∧
      ∃ row, ipaNatiGenerateTblRule t c = some (row, 0)) := by
  have hb := (sized.dstSlot_bounds c).2
  have entries := sized.entriesLe
  have expn := sized.expnLe
  -- the home row is free, or the row goes to the end of its chain
  cases on : (t.rules (t.dstSlot c)).enable with
  | false =>
    left
    refine ⟨t.dstSlot c, 0, .base on, ?_⟩
    simp only [ipaNatiGenerateTblRule, on, if_true]
    rfl
  | true =>
    have last : (if (t.rules (t.dstSlot c)).nextIndex = ipaNatInvalidNatEntry then
        some (some (t.dstSlot c))
      else lastInList (fun k => (t.expnRules k).nextIndex) t.tableEntries listFuel
        (t.rules (t.dstSlot c)).nextIndex 0) =
        some (some ((chain (t.dstSlot c)).getLastD (t.dstSlot c))) := by
      have path := inv.table.forward.path _ hb
      have range := fun e he => inv.range (e := e) hb he
      split
      next alone => rw [(inv.nextIndex_eq_zero_iff hb).mp alone, List.getLastD_nil]
      next linked =>
        cases rows : chain (t.dstSlot c) with
        | nil => exact absurd ((inv.nextIndex_eq_zero_iff hb).mpr rows) linked
        | cons d l =>
          rw [rows] at path range
          exact last_of_bucket (fun s => (t.rules s).nextIndex) (by omega) path range rfl
    -- 0 for the free entry says that the expansion part is full
    rcases expnTblFreeEntry_spec t.expnRules t.expnTableEntries with ⟨zero, full⟩ | ⟨pos, lt, free⟩
    · right
      refine ⟨⟨on, fun e gt lt => ?_⟩, ?_⟩
      · have row := full (e - t.tableEntries) (by omega) (by omega)
        rwa [expnRules, Nat.add_sub_cancel' (Nat.le_of_lt gt)] at row
      · unfold ipaNatiGenerateTblRule
        simp only [on, reduceCtorEq, if_false, last, zero]
        exact ⟨_, if_pos rfl⟩
    · left
      refine ⟨_, _, .expn (e := ipaNatiExpnTblFreeEntry t.expnRules t.expnTableEntries +
        t.tableEntries) on (by omega) ?_, ?_⟩
      · rw [Nat.add_comm]
        exact free
      · simp only [ipaNatiGenerateTblRule, on, reduceCtorEq, if_false, last]
        exact if_neg (Nat.ne_of_gt pos)

theorem generateIndexRule_spec (sized : WellSized t)
    (inv : IndexInv t.tableEntries t.expnTableEntries t.index t.prevIndexMeta ichain)
    (c : IpaNatIpv4Rule) (e : Nat) :
    (∃ x q, IndexPlace t.tableEntries t.expnTableEntries t.index ichain (t.srcSlot c) x q ∧
      ipaNatiGenerateIndexRule t c { tblEntry := e } =
        some ({ tblEntry := e, nextIndex := 0, prevIndex := q }, x)) ∨
    (IndexFull t.tableEntries t.expnTableEntries t.index (t.srcSlot c) ∧
      ∃ r, ipaNatiGenerateIndexRule t c { tblEntry := e } = some (r, 0)) := by
  have hb := (sized.srcSlot_bounds c).2
  have entries := sized.entriesLe
  have expn := sized.expnLe
  -- the home row is free, or the row goes to the end of its chain
  by_cases free : (t.index (t.srcSlot c)).tblEntry = ipaNatInvalidNatEntry
  · left
    refine ⟨t.srcSlot c, 0, .base free, ?_⟩
    simp only [ipaNatiGenerateIndexRule, free, if_true]
  -- `last_in_list` finds the end, be it the home row itself
  · have last : (if (t.index (t.srcSlot c)).nextIndex = ipaNatInvalidNatEntry then
        some (some (t.srcSlot c))
      else lastInList (fun k => (t.expnIndex k).nextIndex) t.tableEntries listFuel
        (t.index (t.srcSlot c)).nextIndex 0) =
        some (some ((ichain (t.srcSlot c)).getLastD (t.srcSlot c))) := by
      have path := inv.table.forward.path _ hb
      have range := fun e he => inv.range (e := e) hb he
      split
      next alone => rw [(inv.nextIndex_eq_zero_iff hb).mp alone, List.getLastD_nil]
      next linked =>
        cases rows : ichain (t.srcSlot c) with
        | nil => exact absurd ((inv.nextIndex_eq_zero_iff hb).mpr rows) linked
        | cons d l =>
          rw [rows] at path range
          exact last_of_bucket (fun s => (t.index s).nextIndex) (by omega) path range rfl
    -- 0 for the free entry says that the expansion part is full
    rcases indexExpnGetFreeEntry_spec t.expnIndex t.expnTableEntries with
      ⟨zero, full⟩ | ⟨pos, lt, unused⟩
    · right
      refine ⟨⟨free, fun x gt lt => ?_⟩, ?_⟩
      · have row := full (x - t.tableEntries) (by omega) (by omega)
        rwa [expnIndex, Nat.add_sub_cancel' (Nat.le_of_lt gt)] at row
      · unfold ipaNatiGenerateIndexRule
        simp only [free, if_false, last, zero]
        exact ⟨_, if_pos rfl⟩
    · left
      have unused' : (t.index (ipaNatiIndexExpnGetFreeEntry t.expnIndex t.expnTableEntries +
          t.tableEntries)).tblEntry = 0 := by
        rw [Nat.add_comm]
        exact unused
      have pred_used : (t.index ((ichain (t.srcSlot c)).getLastD (t.srcSlot c))).tblEntry ≠ 0 := by
        rcases List.mem_cons.mp (List.getLastD_mem_cons (l := ichain (t.srcSlot c))
          (a := t.srcSlot c)) with eq | member
        · rw [eq]; exact free
        · exact inv.table.chainUsed _ hb _ member
      have ne : (ichain (t.srcSlot c)).getLastD (t.srcSlot c) ≠
          ipaNatiIndexExpnGetFreeEntry t.expnIndex t.expnTableEntries + t.tableEntries := by
        intro eq
        rw [eq] at pred_used
        exact pred_used unused'
      refine ⟨_, _, .expn free (by omega) unused', ?_⟩
      simp only [ipaNatiGenerateIndexRule, free, if_false, last]
      rw [if_neg ne]
      exact if_neg (Nat.ne_of_gt pos)

/-! ### The stores -/

/-- The row `ipa_nati_generate_rule` hands to the hardware. -/
def newRow (t : IpaNatIp4TableCache) (c : IpaNatIpv4Rule) (p x : Nat) : IpaNatRule :=
  { swRuleOfClient t.publicAddr c with prevIndex := p, indxTblEntry := x }

/-- The stores of an add before the rule is enabled: row `e` behind row `p` of the rule table,
row `x` behind row `q` of the index table. -/
def addStores (o : AddOutcomes) (t : IpaNatIp4TableCache) (c : IpaNatIpv4Rule) (e p x q : Nat) :
    List Write :=
  (if t.tableEntries ≤ x then [.prevMeta (x - t.tableEntries) q] else []) ++
  (.rule e (newRow t c p x) ::
    if p = 0 ∨ o.natNext ≠ .posted then [] else [.dma (ruleNextCmd t p e)]) ++
  (.index x { tblEntry := e } ::
    if q = 0 ∨ o.indexNext ≠ .posted then [] else [.dma (indexLinkCmd t q x)])

/-- How an add ends once it has places for its rows. -/
inductive AddEnd (o : AddOutcomes) (t : IpaNatIp4TableCache) (e : Nat) (stores : List Write) :
    AddResult → Prop
  | notEnabled : o.enable ≠ .posted → AddEnd o t e stores { ret := - EIO, writes := stores }
  | noHandle : o.enable = .posted → (∀ i < t.tableEntries + t.expnTableEntries, t.ruleId i ≠ 0) →
      AddEnd o t e stores { ret := -EINVAL, writes := stores ++ [.dma (enableCmd t e)] }
  | added {i : Nat} : o.enable = .posted → i < t.tableEntries + t.expnTableEntries →
      t.ruleId i = 0 → (∀ j < i, t.ruleId j ≠ 0) →
      AddEnd o t e stores {
        ret := 0
        ruleHdl := i + 1
        writes := stores ++ [.dma (enableCmd t e), .ruleId i (idOfSlot t.tableEntries e)] }

theorem copyIpv4RuleToHw_eq (outcome : DmaOutcome) (t : IpaNatIp4TableCache) (row : IpaNatRule) (e : Nat) :
    ipaNatiCopyIpv4RuleToHw outcome t row e = .rule e row ::
      if row.prevIndex = 0 ∨ outcome ≠ .posted then [] else [.dma (ruleNextCmd t row.prevIndex e)] := by
  unfold ipaNatiCopyIpv4RuleToHw ruleNextCmd ipaNatInvalidNatEntry
  by_cases first : row.prevIndex = 0
  · simp only [first, true_or, if_true]
  · by_cases base : row.prevIndex < t.tableEntries
    · cases outcome <;>
        simp [ipaNatiWriteNextIndex, first, base, Nat.not_le.mpr base]
    · cases outcome <;>
        simp [ipaNatiWriteNextIndex, first, base, Nat.not_lt.mp base]

theorem copyIpv4IndexRuleToHw_eq (outcome : DmaOutcome) (t : IpaNatIp4TableCache)
    (row : IpaNatIndxTblSwRule) (x : Nat) :
    ipaNatiCopyIpv4IndexRuleToHw outcome t row x =
      .index x { tblEntry := row.tblEntry, nextIndex := row.nextIndex } ::
        if row.prevIndex = 0 ∨ outcome ≠ .posted then []
        else [.dma (indexLinkCmd t row.prevIndex x)] := by
  unfold ipaNatiCopyIpv4IndexRuleToHw indexLinkCmd indexNextCmd ipaNatInvalidNatEntry
  by_cases first : row.prevIndex = 0
  · simp only [first, true_or, if_true]
  · by_cases base : row.prevIndex < t.tableEntries
    · cases outcome <;>
        simp [ipaNatiWriteNextIndex, first, base, Nat.not_le.mpr base]
    · cases outcome <;>
        simp [ipaNatiWriteNextIndex, first, base, Nat.not_lt.mp base]

theorem makeRuleHdl_cases (t : IpaNatIp4TableCache) (e : Nat) :
    (ipaNatiMakeRuleHdl t e = (0, []) ∧ ∀ i < t.tableEntries + t.expnTableEntries, t.ruleId i ≠ 0) ∨
    ∃ i < t.tableEntries + t.expnTableEntries, t.ruleId i = 0 ∧ (∀ j < i, t.ruleId j ≠ 0) ∧
      ipaNatiMakeRuleHdl t e = (i + 1, [.ruleId i (idOfSlot t.tableEntries e)]) := by
  unfold ipaNatiMakeRuleHdl
  split
  next i found =>
    right
    obtain ⟨free, member, before⟩ := List.find?_range_eq_some.mp found
    exact ⟨i, List.mem_range.mp member, of_decide_eq_true free,
      fun j lt => of_decide_eq_false ((Bool.not_eq_true' _).mp (before j lt)), rfl⟩
  next none =>
    left
    rw [List.find?_eq_none] at none
    exact ⟨rfl, fun i hi free => none i (List.mem_range.mpr hi) (decide_eq_true free)⟩

theorem postIpv4DmaCmd_posted (t : IpaNatIp4TableCache) (e : Nat) :
    ipaNatiPostIpv4DmaCmd .posted t e = (0, [.dma (enableCmd t e)]) := by
  simp only [ipaNatiPostIpv4DmaCmd, enableCmd]
  split <;> rfl

variable {c : IpaNatIpv4Rule}

section

variable {e p x q : Nat} (rule : ipaNatiGenerateTblRule t c =
    some ({ swRuleOfClient t.publicAddr c with prevIndex := p }, e)) (he : e ≠ 0)
  (index : ipaNatiGenerateIndexRule t c { tblEntry := e } =
    some ({ tblEntry := e, nextIndex := 0, prevIndex := q }, x)) (hx : x ≠ 0)
include rule he index hx

theorem generateRule_of_places :
    ipaNatiGenerateRule t c = some (.ok {
      rule := newRow t c p x
      indexSwRule := { tblEntry := e, nextIndex := 0, prevIndex := q }
      tblEntry := e
      indxTblEntry := x
      writes := if t.tableEntries ≤ x then [.prevMeta (x - t.tableEntries) q] else [] }) := by
  simp only [ipaNatiGenerateRule, rule, index, ipaNatInvalidNatEntry, he, hx, if_false]
  rfl

/-- The end of an add, from the places found for its rows. -/
theorem addIpv4Rule_of_places (o : AddOutcomes) :
    ∃ r, ipaNatiAddIpv4Rule o t c = some r ∧ AddEnd o t e (addStores o t c e p x q) r := by
  have generated := generateRule_of_places rule he index hx
  have stores : (if t.tableEntries ≤ x then [.prevMeta (x - t.tableEntries) q] else []) ++
      ipaNatiCopyIpv4RuleToHw o.natNext t (newRow t c p x) e ++
      ipaNatiCopyIpv4IndexRuleToHw o.indexNext t { tblEntry := e, nextIndex := 0, prevIndex := q } x =
      addStores o t c e p x q := by
    rw [copyIpv4RuleToHw_eq, copyIpv4IndexRuleToHw_eq]
    rfl
  simp only [ipaNatiAddIpv4Rule, generated, stores]
  cases enable : o.enable with
  | noMemory =>
    exact ⟨_, rfl, .notEnabled (by rw [enable]; exact nofun)⟩
  | ioctlFailed =>
    exact ⟨_, rfl, .notEnabled (by rw [enable]; exact nofun)⟩
  | posted =>
    rw [postIpv4DmaCmd_posted]
    rcases makeRuleHdl_cases t e with ⟨none, full⟩ | ⟨i, hi, free, first, some⟩
    · simp only [none, ne_eq, not_true_eq_false, if_false, if_true, List.append_nil]
      exact ⟨_, rfl, .noHandle enable full⟩
    · simp only [some, ne_eq, not_true_eq_false, if_false, Nat.succ_ne_zero, List.append_assoc,
        List.singleton_append]
      exact ⟨_, rfl, .added enable hi free first⟩

end

theorem RulePlace.ne_zero (sized : WellSized t) {e p : Nat}
    (place : RulePlace t.tableEntries t.expnTableEntries t.rules chain (t.dstSlot c) e p) :
    e ≠ 0 := by
  cases place with
  | base => exact Nat.ne_of_gt (sized.dstSlot_bounds c).1
  | expn _ range _ => omega

theorem IndexPlace.ne_zero (sized : WellSized t) {x q : Nat}
    (place : IndexPlace t.tableEntries t.expnTableEntries t.index ichain (t.srcSlot c) x q) :
    x ≠ 0 := by
  cases place with
  | base => exact Nat.ne_of_gt (sized.srcSlot_bounds c).1
  | expn _ range _ => omega

/-- The search for an index row returns the row it was given, whatever the index table holds. -/
theorem generateIndexRule_fields {row row' : IpaNatIndxTblSwRule} {x : Nat}
    (h : ipaNatiGenerateIndexRule t c row = some (row', x)) :
    row' = { row with prevIndex := row'.prevIndex } := by
  unfold ipaNatiGenerateIndexRule at h
  simp only at h
  split at h
  · cases h
    rfl
  · split at h
    · cases h
    · cases h
      rfl
    · split at h
      · cases h
        rfl
      · split at h <;> cases h <;> rfl

/-- The end of an add that has found slot `e` for its rule, whatever the index table holds. -/
theorem addIpv4Rule_of_slot {o : AddOutcomes} {e p : Nat} {r : AddResult} (rule : ipaNatiGenerateTblRule t c =
      some ({ swRuleOfClient t.publicAddr c with prevIndex := p }, e)) (he : e ≠ 0)
    (returned : ipaNatiAddIpv4Rule o t c = some r) :
    r = { ret := -EINVAL } ∨ ∃ x q, AddEnd o t e (addStores o t c e p x q) r := by
  cases index : ipaNatiGenerateIndexRule t c { tblEntry := e } with
  | none =>
    simp only [ipaNatiAddIpv4Rule, ipaNatiGenerateRule, rule, index, ipaNatInvalidNatEntry, he,
      if_false, reduceCtorEq] at returned
  | some found =>
    obtain ⟨irow, x⟩ := found
    by_cases hx : x = 0
    · left
      subst hx
      simp only [ipaNatiAddIpv4Rule, ipaNatiGenerateRule, rule, index, ipaNatInvalidNatEntry,
        he, if_false, if_true, Option.some.injEq] at returned
      exact returned.symm
    · right
      rw [generateIndexRule_fields index] at index
      obtain ⟨r', eq, ended⟩ := addIpv4Rule_of_places rule he index hx o
      rw [returned] at eq
      rw [← Option.some.inj eq] at ended
      exact ⟨x, _, ended⟩

theorem addIpv4Rule_of_none {o : AddOutcomes} {row : IpaNatRule}
    {r : AddResult} (rule : ipaNatiGenerateTblRule t c = some (row, 0))
    (returned : ipaNatiAddIpv4Rule o t c = some r) : r = { ret := -EINVAL } := by
  simp only [ipaNatiAddIpv4Rule, ipaNatiGenerateRule, rule, ipaNatInvalidNatEntry, if_true,
    Option.some.injEq] at returned
  exact returned.symm

/-- What an add that returns has done to a table whose rules are in order, whatever the index
table holds: nothing, or the stores for a place in the rule table. -/
theorem addIpv4Rule_cases (sized : WellSized t)
    (inv : RuleInv t.tableEntries t.expnTableEntries t.dstSlot t.rules chain) {o : AddOutcomes} {r : AddResult}
    (returned : ipaNatiAddIpv4Rule o t c = some r) :
    r = { ret := -EINVAL } ∨
    ∃ e p x q, RulePlace t.tableEntries t.expnTableEntries t.rules chain (t.dstSlot c) e p ∧
      AddEnd o t e (addStores o t c e p x q) r := by
  rcases generateTblRule_spec sized inv c with ⟨e, p, place, rule⟩ | ⟨_, row, rule⟩
  · rcases addIpv4Rule_of_slot rule (place.ne_zero sized) returned with refused | ⟨x, q, ended⟩
    · exact Or.inl refused
    · exact Or.inr ⟨e, p, x, q, place, ended⟩
  · exact Or.inl (addIpv4Rule_of_none rule returned)

/-- With both tables in order an add returns, and it is refused only for want of a row. -/
theorem addIpv4Rule_spec (sized : WellSized t)
    (inv : RuleInv t.tableEntries t.expnTableEntries t.dstSlot t.rules chain)
    (iinv : IndexInv t.tableEntries t.expnTableEntries t.index t.prevIndexMeta ichain)
    (o : AddOutcomes) (c : IpaNatIpv4Rule) :
    (ipaNatiAddIpv4Rule o t c = some { ret := -EINVAL } ∧
      (RulesFull t.tableEntries t.expnTableEntries t.rules (t.dstSlot c) ∨
        IndexFull t.tableEntries t.expnTableEntries t.index (t.srcSlot c))) ∨
    ∃ r e p x q, ipaNatiAddIpv4Rule o t c = some r ∧
      RulePlace t.tableEntries t.expnTableEntries t.rules chain (t.dstSlot c) e p ∧
      IndexPlace t.tableEntries t.expnTableEntries t.index ichain (t.srcSlot c) x q ∧
      AddEnd o t e (addStores o t c e p x q) r := by
  rcases generateTblRule_spec sized inv c with ⟨e, p, place, rule⟩ | ⟨full, row, rule⟩
  · have he := place.ne_zero sized
    rcases generateIndexRule_spec sized iinv c e with ⟨x, q, iplace, index⟩ | ⟨full, irow, index⟩
    · right
      obtain ⟨r, returned, ended⟩ :=
        addIpv4Rule_of_places rule he index (iplace.ne_zero sized) o
      exact ⟨r, e, p, x, q, returned, place, iplace, ended⟩
    · left
      refine ⟨?_, Or.inr full⟩
      simp only [ipaNatiAddIpv4Rule, ipaNatiGenerateRule, rule, index, ipaNatInvalidNatEntry, he,
        if_false, if_true]
  · left
    refine ⟨?_, Or.inl full⟩
    simp only [ipaNatiAddIpv4Rule, ipaNatiGenerateRule, rule, ipaNatInvalidNatEntry, if_true]

/-! ### The table after the stores -/

theorem indexLinkCmd_table (t : IpaNatIp4TableCache) (q data : Nat) :
    (indexLinkCmd t q data).baseAddr = .indxTbl ∨ (indexLinkCmd t q data).baseAddr = .indexExpnTbl := by
  unfold indexLinkCmd indexNextCmd
  split
  · exact Or.inr rfl
  · exact Or.inl rfl

theorem addStores_rules (offset : t.tblAddrOffset = 0) (o : AddOutcomes) (c : IpaNatIpv4Rule) (e p x q : Nat) :
    (t.writes (addStores o t c e p x q)).rules =
      if p = 0 ∨ o.natNext ≠ .posted then Function.update t.rules e (newRow t c p x)
      else Function.update (Function.update t.rules e (newRow t c p x)) p
        ((Function.update t.rules e (newRow t c p x) p).setNext e) := by
  have index := fun u : IpaNatIp4TableCache =>
    dma_index (t := u) (indexLinkCmd t q x) (indexLinkCmd_table t q x) rfl rfl
  have link := fun u same => dma_ruleNextCmd (t := u) (u := t) same offset p e
  unfold addStores
  by_cases behind : p = 0 ∨ o.natNext ≠ .posted <;> simp only [behind, if_true, if_false] <;>
    split <;> split <;>
    simp only [List.cons_append, List.nil_append, writes_cons, index,
      writes_nil, write_rule, write_index, write_prevMeta, link]

theorem addStores_index (sized : WellSized t) (o : AddOutcomes) (c : IpaNatIpv4Rule)
    {e p x q : Nat} (hq : q < t.tableEntries + t.expnTableEntries) :
    (t.writes (addStores o t c e p x q)).index =
      if q = 0 ∨ o.indexNext ≠ .posted then Function.update t.index x { tblEntry := e }
      else Function.update (Function.update t.index x { tblEntry := e })
        (indexLinkSlot t.tableEntries q)
        ((Function.update t.index x { tblEntry := e } (indexLinkSlot t.tableEntries q)).setNext
          x) := by
  have index := fun u same => dma_indexLinkCmd (t := u) (u := t) same sized hq x
  have link := fun u same => dma_ruleNextCmd (t := u) (u := t) same sized.offset p e
  unfold addStores
  by_cases behind : q = 0 ∨ o.indexNext ≠ .posted <;> simp only [behind, if_true, if_false] <;>
    split <;> split <;>
    simp only [List.cons_append, List.nil_append, writes_cons, index,
      writes_nil, write_rule, write_index, write_prevMeta, link]

theorem addStores_prevMeta (o : AddOutcomes) (c : IpaNatIpv4Rule) (e p x q : Nat) :
    (t.writes (addStores o t c e p x q)).prevIndexMeta =
      if t.tableEntries ≤ x then Function.update t.prevIndexMeta (x - t.tableEntries) q
      else t.prevIndexMeta := by
  unfold addStores
  split <;> split <;> split <;>
    simp only [List.cons_append, List.nil_append, writes_cons,
      writes_nil, write_rule, write_index, write_prevMeta,
      write_dma_prevIndexMeta]

theorem addStores_ruleId (o : AddOutcomes) (c : IpaNatIpv4Rule) (e p x q : Nat) :
    (t.writes (addStores o t c e p x q)).ruleId = t.ruleId := by
  unfold addStores
  split <;> split <;> split <;>
    simp only [List.cons_append, List.nil_append, writes_cons,
      writes_nil, write_rule, write_index, write_prevMeta,
      write_dma_ruleId]

end Hima.Ipanat
