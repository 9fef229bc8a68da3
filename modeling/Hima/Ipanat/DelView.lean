import Hima.Ipanat.HardwareView

/-!
# A delete, as the hardware sees it

The index commands take every name of the rule off the index walks; only then does the rule
command take the rule off its own chain. The stores that follow change nothing the walks see.
-/
namespace Hima.Ipanat

open Chains Prefixes Function

variable {t u : IpaNatIp4TableCache} {s : Nat} {chain ichain : Nat → List Nat}
  {index' : Nat → IpaNatIndxTblRule}

/-- The live rules of `t` but those in `but`. -/
def liveBut (t : IpaNatIp4TableCache) (but : Nat → Prop) (r : Nat) (c : IpaNatIpv4Rule) : Prop :=
  Live t.rules r ∧ (t.rules r).client = c ∧ ¬but r

theorem RulesOk.ruleView (ok : RulesOk t chain) (but : Nat → Prop) :
    RuleView t.tableEntries t.dstSlot t.rules chain (liveBut t but) where
  path := ok.rows.table.forward.path
  found r c holds := by
    obtain ⟨live, rfl, _⟩ := holds
    have home := ok.rows.live_in_home live
    exact ⟨live, rfl, home.1, home.2⟩

theorem TableOk.indexView (ok : TableOk t chain ichain) (but : Nat → Prop) :
    IndexView t.tableEntries t.srcSlot t.index ichain (liveBut t but) (Live t.rules) where
  path := ok.index.table.forward.path
  named r c holds := by
    obtain ⟨live, rfl, _⟩ := holds
    have named := ok.cross.named r live
    exact ⟨(ok.sized.srcSlot_bounds _).2, _, named.2, named.1⟩
  inside _ _ x _ used := (ok.cross.owner x used).1

/-- The index row of a live rule and the rows of the others. -/
theorem TableOk.entry_ne (ok : TableOk t chain ichain) (live : Live t.rules s) :
    (∀ r, Live t.rules r → r ≠ s → (t.rules r).indxTblEntry ≠ indexOf t s) ∧
    ∀ x, x ≠ indexOf t s → (t.index x).tblEntry ≠ 0 →
      Live t.rules (t.index x).tblEntry ∧ (t.index x).tblEntry ≠ s := by
  constructor
  · intro r alive ne same
    have named := (ok.cross.named r alive).1
    rw [same, indexOf, (ok.cross.named s live).1] at named
    exact ne named.symm
  · intro x ne used
    obtain ⟨alive, owns⟩ := ok.cross.owner x used
    refine ⟨alive, fun same => ?_⟩
    rw [same] at owns
    exact ne owns.symm

/-- The index rows seen after row `y` was taken off its chain or, in place of `x`, emptied:
the rows but `x` name what they named, and `x` names no rule or that of row `y`. -/
theorem TableOk.indexView_removed (ok : TableOk t chain ichain) (live : Live t.rules s)
    {ichain' : Nat → List Nat} {y : Nat} (path : ∀ b < t.tableEntries, Path (indexNext index') b (ichain' b))
    (shrunk : Shrunk t.tableEntries ichain ichain' y)
    (other : ∀ z, z ≠ indexOf t s → z ≠ y → (index' z).tblEntry = (t.index z).tblEntry)
    (at_x : (y = indexOf t s ∧ (indexOf t s < t.tableEntries → (index' (indexOf t s)).tblEntry = 0)) ∨
      (indexOf t s < t.tableEntries ∧ y ∈ ichain (indexOf t s) ∧ y ≠ indexOf t s ∧ (t.index y).tblEntry ≠ 0 ∧
        (index' (indexOf t s)).tblEntry = (t.index y).tblEntry)) :
    IndexView t.tableEntries t.srcSlot index' ichain' (liveBut t (· = s))
      (fun r => Live t.rules r ∧ r ≠ s) := by
  obtain ⟨entry_ne, owner_ne⟩ := ok.entry_ne live
  refine ⟨path, fun r c holds => ?_, fun b hb x member used => ?_⟩
  · obtain ⟨alive, rfl, ne⟩ := holds
    have home := (ok.sized.srcSlot_bounds (t.rules r).client).2
    obtain ⟨named, member⟩ := ok.cross.named r alive
    refine ⟨home, ?_⟩
    -- the row of `r` is still there, or it was copied into the head
    by_cases moved : (t.rules r).indxTblEntry = y
    · rcases at_x with ⟨rfl, _⟩ | ⟨base, in_chain, _, used, taken⟩
      · exact absurd moved (entry_ne r alive ne)
      · -- the rule of row `y` is now named by the head of the same bucket
        rw [moved] at member named
        have same := ok.index.table.forward.bucket_unique base home (List.mem_cons_of_mem _ in_chain) member
        rw [← same]
        exact ⟨_, List.mem_cons_self, taken.trans named⟩
    · refine ⟨_, ?_, (other _ (entry_ne r alive ne) moved).trans named⟩
      rcases List.mem_cons.mp member with eq | member
      · rw [eq]
        exact List.mem_cons_self
      · exact List.mem_cons_of_mem _ ((shrunk _ home _).mpr ⟨member, moved⟩)
  · have in_old : x ∈ ichain' b → x ∈ ichain b ∧ x ≠ y := (shrunk b hb x).mp
    by_cases eq : x = indexOf t s
    · rw [eq] at used ⊢
      rcases at_x with ⟨same, empty⟩ | ⟨_, _, ne, y_used, taken⟩
      · by_cases base : indexOf t s < t.tableEntries
        · exact absurd (empty base) used
        · -- an expansion row that was taken off is not met
          rcases List.mem_cons.mp member with rfl | member
          · exact absurd (eq ▸ hb) base
          · exact absurd (eq.trans same.symm) (in_old member).2
      · rw [taken]
        exact owner_ne y ne y_used
    · have ne_y : x ≠ y := by
        rintro rfl
        rcases at_x with ⟨same, _⟩ | ⟨_, in_chain, _⟩
        · exact eq same
        · rcases List.mem_cons.mp member with rfl | member
          · exact ok.index.table.forward.offBase _ (by assumption) _ in_chain hb
          · exact (in_old member).2 rfl
      rw [other x eq ne_y] at used ⊢
      exact owner_ne x eq used

/-- The rule rows are untouched, and the index table still names every other live rule, and
live rules only. -/
def IndexPhase (t : IpaNatIp4TableCache) (s : Nat) (u : IpaNatIp4TableCache) : Prop :=
  u.rules = t.rules ∧ ∃ ichain,
    IndexView t.tableEntries t.srcSlot u.index ichain (liveBut t (· = s)) (Live t.rules)

/-- The row the stores to the index table clear. -/
def clearedRow (t : IpaNatIp4TableCache) (x : Nat) : Nat :=
  if x < t.tableEntries ∧ (t.index x).nextIndex ≠ 0 then (t.index x).nextIndex else x

/-- After the index commands of a delete no walk reaches a row that names the rule in slot
`s`; the row that is going to be cleared is off the walks, or empty. -/
def IndexDone (t : IpaNatIp4TableCache) (s : Nat) (index : Nat → IpaNatIndxTblRule) : Prop :=
  ∃ ichain,
    IndexView t.tableEntries t.srcSlot index ichain (liveBut t (· = s))
      (fun r => Live t.rules r ∧ r ≠ s) ∧
    (Used (BaseSlot t.tableEntries) ichain (clearedRow t (indexOf t s)) →
      index (clearedRow t (indexOf t s)) = {})

theorem IndexView.weaken {may' : Nat → Prop} (h : IndexView N home index chain has may)
    (weaker : ∀ r, may r → may' r) : IndexView N home index chain has may' where
  path := h.path
  named := h.named
  inside b hb x member used := weaker _ (h.inside b hb x member used)

theorem IndexDone.phase (h : IndexDone t s u.index) (rules : u.rules = t.rules) :
    IndexPhase t s u := by
  obtain ⟨_, view, _⟩ := h
  exact ⟨rules, _, view.weaken fun _ => And.left⟩

theorem not_used_of_shrunk {chain' : Nat → List Nat} {y : Nat} (expn : N ≤ y)
    (shrunk : Shrunk N chain chain' y) : ¬Used (BaseSlot N) chain' y := by
  rintro (base | ⟨b, hb, member⟩)
  · exact Nat.not_lt.mpr expn base
  · exact ((shrunk b hb y).mp member).2 rfl

theorem TableOk.index_cmds (ok : TableOk t chain ichain) (live : Live t.rules s) :
    EveryPrefix IpaNatIp4TableCache.write (IndexPhase t s) t ((indexCmdsOf t (indexOf t s)).map Write.dma) ∧
    IndexDone t s (t.writes ((indexCmdsOf t (indexOf t s)).map Write.dma)).index := by
  have named := (ok.cross.named s live).1
  have used : (t.index (indexOf t s)).tblEntry ≠ 0 := by
    rw [indexOf, named]
    exact (ok.live_slot live).1
  have start : IndexPhase t s t := ⟨rfl, _, ok.indexView _⟩
  have forward := ok.index.table.forward
  have small : t.tableEntries + t.expnTableEntries ≤ 49152 := by
    have := ok.sized.entriesLe
    have := ok.sized.expnLe
    omega
  -- the command depends on where the index row of the rule is
  generalize at_x : indexOf t s = x at *
  by_cases base : x < t.tableEntries
  · by_cases alone : (t.index x).nextIndex = 0
    · -- the only row of its bucket loses its name
      have cmd : indexCmdsOf t x = [indexEntryCmd t x 0] := by
        rw [indexCmdsOf, findIndexRulePos_base base, if_pos alone]
        rfl
      have done : IndexDone t s
          (update t.index x ((t.index x).setEntry 0)) := by
        refine ⟨ichain, ok.indexView_removed (y := x) live (fun b hb => ?_) ?_ (fun z ne _ => ?_)
          (Or.inl ⟨at_x.symm, fun _ => ?_⟩), fun _ => ?_⟩
        · -- clearing the name changes no link
          refine path_congr _ _ b _ (fun z _ => ?_) (forward.path b hb)
          by_cases eq : z = x
          · rw [eq, indexNext, update_self]
            rfl
          · rw [indexNext, update_of_ne eq]
            rfl
        · refine fun b hb z => ⟨fun member => ⟨member, ?_⟩, And.left⟩
          rintro rfl
          exact forward.offBase b hb z member base
        · rw [at_x] at ne
          rw [update_of_ne ne]
        · rw [at_x, update_self]
          rfl
        · rw [at_x, clearedRow, if_neg (fun h => h.2 alone), update_self, IpaNatIndxTblRule.setEntry, alone]
      rw [cmd, List.map_singleton, IpaNatIp4TableCache.writes_cons, IpaNatIp4TableCache.writes_nil]
      have effect := dma_indexEntryCmd (t := t) (u := t) ok.sized.offset x 0
      refine ⟨⟨start, ?_⟩, ?_⟩
      · rw [EveryPrefix, effect]
        exact done.phase (u := { t with index := _ }) rfl
      · rw [effect]
        exact done
    · -- the head takes over the name and then the link of the row behind it
      obtain ⟨b, hb, member, in_chain, ne⟩ := ok.index.next_of_used used alone
      have range := ok.index.range hb in_chain
      have same := forward.bucket_unique base hb List.mem_cons_self member
      subst same
      have cmds := indexCmdsOf_head base rfl ⟨Nat.le_of_lt range.1, alone, by omega⟩
      have cleared : clearedRow t (indexOf t s) = (t.index x).nextIndex := by
        rw [at_x, clearedRow, if_pos ⟨base, alone⟩]
      -- the row behind the head is the first of its chain
      have rest : ∃ m, ichain x = [] ++ (t.index x).nextIndex :: m := by
        have path := forward.path x base
        cases rows : ichain x with
        | nil => exact absurd ((ok.index.nextIndex_eq_zero_iff base).mpr rows) alone
        | cons d m =>
          rw [rows, path_cons] at path
          rw [(linkTo_eq_some.mp path.1).1]
          exact ⟨m, rfl⟩
      obtain ⟨m, rows⟩ := rest
      have n_used := ok.index.table.chainUsed x base _ in_chain
      generalize (t.index x).nextIndex = n at *
      have effect₁ := dma_indexEntryCmd (t := t) (u := t) ok.sized.offset x (t.index n).tblEntry
      have effect₂ := fun u same => dma_indexNextCmd (t := u) (u := t) same ok.sized.offset x
        (t.index n).nextIndex
      have taken : update (update t.index x ((t.index x).setEntry (t.index n).tblEntry)) x
          ((update t.index x ((t.index x).setEntry (t.index n).tblEntry) x).setNext
            (t.index n).nextIndex) = update t.index x (t.index n) := by
        rw [update_idem, update_self]
        rfl
      -- between the two commands two rows have the same name, and both are on the chain
      have view : IndexView t.tableEntries t.srcSlot
          (update t.index x ((t.index x).setEntry (t.index n).tblEntry)) ichain
          (liveBut t (· = s)) (Live t.rules) := by
        refine ⟨fun b hb => ?_, fun r c holds => ?_, fun b hb z _ z_used => ?_⟩
        · refine path_congr _ _ b _ (fun z _ => ?_) (forward.path b hb)
          by_cases eq : z = x
          · rw [eq, indexNext, update_self]
            rfl
          · rw [indexNext, update_of_ne eq]
            rfl
        · obtain ⟨alive, rfl, ne_s⟩ := holds
          obtain ⟨names, in_bucket⟩ := ok.cross.named r alive
          have ne_x := (ok.entry_ne live).1 r alive ne_s
          rw [at_x] at ne_x
          refine ⟨(ok.sized.srcSlot_bounds _).2, _, in_bucket, ?_⟩
          rw [update_of_ne ne_x, names]
        · by_cases eq : z = x
          · rw [eq, update_self]
            exact (ok.cross.owner n n_used).1
          · rw [update_of_ne eq] at z_used ⊢
            exact (ok.cross.owner z z_used).1
      have half : IndexPhase t s
          { t with index := update t.index x ((t.index x).setEntry (t.index n).tblEntry) } :=
        ⟨rfl, ichain, view⟩
      have done : IndexDone t s (update t.index x (t.index n)) := by
        have shrunk : Shrunk t.tableEntries ichain (update ichain x ([] ++ m)) n :=
          fun b hb z => forward.mem_update_erase base hb rows
        have erased : Forward (BaseSlot t.tableEntries) (indexNext (update t.index x (t.index n)))
            (update ichain x ([] ++ m)) := by
          refine forward.erase base rows ?_ (fun z ne_x _ => ?_)
          · rw [List.getLastD_nil, indexNext, update_self]
            rfl
          · rw [List.getLastD_nil] at ne_x
            rw [indexNext, update_of_ne ne_x]
            rfl
        refine ⟨_, ok.indexView_removed live erased.path shrunk (fun z ne_z _ => ?_)
          (Or.inr ⟨at_x.symm ▸ base, at_x.symm ▸ in_chain, at_x.symm ▸ ne, n_used, ?_⟩),
          fun on_walk => ?_⟩
        · rw [at_x] at ne_z
          rw [update_of_ne ne_z]
        · rw [at_x, update_self]
        · rw [cleared] at on_walk
          exact absurd on_walk (not_used_of_shrunk (Nat.le_of_lt range.1) shrunk)
      rw [cmds]
      simp only [List.map_cons, List.map_nil, IpaNatIp4TableCache.writes_cons,
        IpaNatIp4TableCache.writes_nil, EveryPrefix, effect₁, effect₂, taken]
      exact ⟨⟨start, half, done.phase (u := { t with index := _ }) rfl⟩, done⟩
  · -- an expansion row is bypassed
    obtain ⟨b, hb, member⟩ := ok.index.table.onChain x base used
    obtain ⟨l, m, rows⟩ := List.append_of_mem member
    have expn := Nat.not_lt.mp base
    -- the metadata names the row in front
    have prev : t.prevIndexMeta (x - t.tableEntries) = l.getLastD b := by
      have back := ok.index.table.backward b hb
      rw [rows, backLinked_split] at back
      exact back.2.1
    have cleared : clearedRow t (indexOf t s) = x := by
      rw [at_x, clearedRow, if_neg (fun h => base h.1)]
    have shrunk : Shrunk t.tableEntries ichain (update ichain b (l ++ m)) x :=
      fun b' hb' z => forward.mem_update_erase hb hb' rows
    obtain ⟨pred_ne, _⟩ := forward.around hb rows
    have done : IndexDone t s (update t.index (l.getLastD b)
        ((t.index (l.getLastD b)).setNext (t.index x).nextIndex)) := by
      have erased : Forward (BaseSlot t.tableEntries) (indexNext (update t.index (l.getLastD b)
            ((t.index (l.getLastD b)).setNext (t.index x).nextIndex)))
          (update ichain b (l ++ m)) := by
        refine forward.erase hb rows ?_ (fun z ne_pred _ => ?_)
        · rw [indexNext, update_self]
          rfl
        · rw [indexNext, update_of_ne ne_pred]
          rfl
      refine ⟨_, ok.indexView_removed live erased.path shrunk (fun z _ _ => ?_)
        (Or.inl ⟨at_x.symm, fun lt => absurd (at_x ▸ lt) base⟩), fun on_walk => ?_⟩
      · by_cases eq : z = l.getLastD b
        · rw [eq, update_self]
          rfl
        · rw [update_of_ne eq]
      · rw [cleared] at on_walk
        exact absurd on_walk (not_used_of_shrunk expn shrunk)
    have effect := dma_indexNextCmd (t := t) (u := t) rfl ok.sized.offset (l.getLastD b) (t.index x).nextIndex
    rw [indexCmdsOf_expn expn, prev, List.map_singleton, IpaNatIp4TableCache.writes_cons,
      IpaNatIp4TableCache.writes_nil]
    refine ⟨⟨start, ?_⟩, ?_⟩
    · rw [EveryPrefix, effect]
      exact done.phase (u := { t with index := _ }) rfl
    · rw [effect]
      exact done

/-! ### The rule command -/

/-- After the rule command no walk needs the row of the deleted rule: it is off its chain, or
the last of it, unless it stays as a dead head. -/
def RuleDone (t : IpaNatIp4TableCache) (s : Nat) (chain : Nat → List Nat) (rules : Nat → IpaNatRule) : Prop :=
  RuleView t.tableEntries t.dstSlot rules chain (liveBut t (· = s)) ∧
    (Used (BaseSlot t.tableEntries) chain s → rulePosOf t s ≠ .head → (rules s).nextIndex = 0)

/-- A new link leaves the state and the rule of every row. -/
theorem update_setNext_kept (rules : Nat → IpaNatRule) (p n r : Nat) :
    (update rules p ((rules p).setNext n) r).enable = (rules r).enable ∧
      (update rules p ((rules p).setNext n) r).protocol = (rules r).protocol ∧
      (update rules p ((rules p).setNext n) r).client = (rules r).client := by
  by_cases eq : r = p
  · rw [eq, update_self]
    exact ⟨rfl, rfl, rfl⟩
  · rw [update_of_ne eq]
    exact ⟨rfl, rfl, rfl⟩

/-- Row `s` rewritten with its link as it was. -/
theorem RulesOk.ruleView_update (ok : RulesOk t chain) {row : IpaNatRule}
    (next : row.nextIndex = (t.rules s).nextIndex) :
    RuleView t.tableEntries t.dstSlot (update t.rules s row) chain (liveBut t (· = s)) := by
  refine (ok.ruleView (· = s)).congr (fun r _ => ?_) (fun r c holds => ?_)
  · by_cases eq : r = s
    · rw [eq, update_self, next]
    · rw [update_of_ne eq]
  · obtain ⟨live, client, ne⟩ := holds
    rw [Live, update_of_ne ne]
    exact ⟨live, client⟩

theorem RulesOk.rule_cmd (ok : RulesOk t chain) (live : Live t.rules s) :
    ∃ chain', RuleDone t s chain' (t.write (.dma (ruleCmdOf t s))).rules := by
  have offset := ok.sized.offset
  -- a head only takes another protocol; it stays in its place
  by_cases base : s < t.tableEntries
  · by_cases alone : (t.rules s).nextIndex = 0
    · have pos : rulePosOf t s = .onlyOne := by rw [rulePosOf_base base, if_pos alone]
      have row : rowOf t.tableEntries s = s := if_neg (Nat.not_le.mpr base)
      rw [ruleCmdOf, pos, row, dma_delRuleCmd_onlyOne offset]
      refine ⟨chain, ok.ruleView_update rfl, fun _ _ => ?_⟩
      simp only [update_self]
      exact alone
    · have pos : rulePosOf t s = .head := by rw [rulePosOf_base base, if_neg alone]
      have row : rowOf t.tableEntries s = s := if_neg (Nat.not_le.mpr base)
      rw [ruleCmdOf, pos, row, dma_delRuleCmd_head offset]
      exact ⟨chain, ok.ruleView_update rfl, fun _ ne => absurd pos ne⟩
  · -- an expansion row is bypassed
    have table := ok.rows.table
    obtain ⟨b, hb, member⟩ := table.onChain s base live.1
    obtain ⟨l, m, at_s⟩ := List.append_of_mem member
    have prev : (t.rules s).prevIndex = l.getLastD b := by
      have back := table.backward b hb
      rw [at_s, backLinked_split] at back
      exact back.2.1
    have shrunk : Shrunk t.tableEntries chain (update chain b (l ++ m)) s :=
      fun b' hb' r => table.forward.mem_update_erase hb hb' at_s
    rw [ruleCmdOf_expn (Nat.not_lt.mp base), dma_ruleNextCmd rfl offset, prev]
    refine ⟨update chain b (l ++ m), ⟨fun b' hb' => ?_, fun r c holds => ?_⟩,
      fun used => absurd used (not_used_of_shrunk (Nat.not_lt.mp base) shrunk)⟩
    · refine (table.forward.erase hb at_s ?_ (fun r ne _ => ?_)).path b' hb'
      · simp only [ruleNext, update_self]
        rfl
      · simp only [ruleNext, update_of_ne ne]
    · obtain ⟨alive, client, ne⟩ := holds
      obtain ⟨home, in_bucket⟩ := ok.rows.live_in_home alive
      rw [client] at home in_bucket
      obtain ⟨enable, protocol, same⟩ := update_setNext_kept t.rules (l.getLastD b) (t.rules s).nextIndex r
      refine ⟨(live_congr enable protocol).mpr alive, same.trans client, home, ?_⟩
      rcases List.mem_cons.mp in_bucket with eq | in_chain
      · rw [eq]
        exact List.mem_cons_self
      · exact List.mem_cons_of_mem _ ((shrunk _ home r).mpr ⟨in_chain, ne⟩)

/-! ### The stores after the commands -/

variable {rules : Nat → IpaNatRule} {index : Nat → IpaNatIndxTblRule}

/-- The stores to the rule table are not seen. -/
theorem RuleDone.stores (done : RuleDone t s chain rules) (entries : u.tableEntries = t.tableEntries)
    (same : SameView t.tableEntries rules index chain ichain (liveBut t (· = s)) u) :
    ∀ w ∈ delRuleStores u (rowOf t.tableEntries s) (decide (t.tableEntries ≤ s)) (rulePosOf t s),
      Quiet t.tableEntries rules index chain ichain (liveBut t (· = s)) w := by
  intro w member
  rw [delRuleStores_slot entries, List.mem_append] at member
  rcases member with member | member
  · split at member
    next =>
      rw [List.mem_singleton] at member
      rw [member]
      exact same.updatePrevIndex _ _
    next => exact absurd member List.not_mem_nil
  · split at member
    next => exact absurd member List.not_mem_nil
    next not_head =>
      rw [List.mem_singleton] at member
      rw [member]
      exact quiet_clear (fun used => done.2 used not_head) (fun _ holds => holds.2.2 rfl)

/-- Nor are those to the index table. -/
theorem TableOk.index_stores (ok : TableOk t chain ichain) (live : Live t.rules s)
    {chain' ichain' : Nat → List Nat} (entries : u.tableEntries = t.tableEntries)
    (same : SameView t.tableEntries rules index chain' ichain' (liveBut t (· = s)) u)
    (cleared : Used (BaseSlot t.tableEntries) ichain' (clearedRow t (indexOf t s)) →
      index (clearedRow t (indexOf t s)) = {}) :
    ∀ w ∈ delIndexStores u (indexOf t s) (sub16 (t.index (indexOf t s)).nextIndex t.tableEntries)
        (ipaNatiFindIndexRulePos t (indexOf t s)),
      Quiet t.tableEntries rules index chain' ichain' (liveBut t (· = s)) w := by
  have used : (t.index (indexOf t s)).tblEntry ≠ 0 := by
    rw [indexOf, (ok.cross.named s live).1]
    exact (ok.live_slot live).1
  generalize indexOf t s = x at *
  have clear : ∀ y, y = clearedRow t x →
      Quiet t.tableEntries rules index chain' ichain' (liveBut t (· = s)) (.index y {}) := by
    rintro _ rfl on_walk
    exact (cleared on_walk).symm
  intro w member
  -- a base entry, alone or with a successor that is copied into it, or an expansion entry
  by_cases base : x < t.tableEntries
  · rw [findIndexRulePos_base base] at member
    by_cases alone : (t.index x).nextIndex = 0
    · rw [if_pos alone, delIndexStores, List.mem_singleton] at member
      rw [member]
      exact clear x (if_neg (fun h => h.2 alone)).symm
    · obtain ⟨b, hb, _, in_chain, _⟩ := ok.index.next_of_used used alone
      have range := ok.index.range hb in_chain
      have small := ok.sized.entriesLe
      have expn := ok.sized.expnLe
      have slot : u.tableEntries + sub16 (t.index x).nextIndex t.tableEntries = clearedRow t x := by
        rw [entries, sub16_of_le (Nat.le_of_lt range.1) (by omega), clearedRow, if_pos ⟨base, alone⟩]
        omega
      rw [if_neg alone, delIndexStores] at member
      simp only [List.mem_append, List.mem_cons, List.not_mem_nil, or_false] at member
      rcases member with member | rfl | rfl
      · split at member
        next =>
          rw [List.mem_singleton] at member
          rw [member]
          exact trivial
        next => exact absurd member List.not_mem_nil
      · exact clear _ slot
      · exact same.rewrite rfl rfl rfl rfl
  · have row : clearedRow t x = x := if_neg (fun h => base h.1)
    rw [findIndexRulePos_expn (Nat.not_lt.mp base)] at member
    split at member
    next =>
      rw [delIndexStores, List.mem_singleton] at member
      rw [member]
      exact clear x row.symm
    next =>
      simp only [delIndexStores, List.mem_cons, List.not_mem_nil, or_false] at member
      rcases member with rfl | rfl | rfl
      · exact trivial
      · exact trivial
      · exact clear x row.symm

/-- The scan for dead heads clears rows that lead nowhere. -/
theorem SameView.dead_heads {has : Nat → IpaNatIpv4Rule → Prop}
    (same : SameView t.tableEntries rules index chain ichain has u) :
    ∀ w ∈ ipaNatiDelDeadIpv4HeadNodes u, Quiet t.tableEntries rules index chain ichain has w := by
  intro w member
  obtain ⟨r, inside, rfl⟩ := List.mem_map.mp member
  obtain ⟨dead, last⟩ := of_decide_eq_true (List.mem_filter.mp inside).2
  refine quiet_clear (fun used => ?_) (fun c holds => (same.live r c holds).1.2 dead)
  exact (same.next r used).symm.trans last

/-! ### The whole delete -/

/-- What a delete of the rule in slot `s` guarantees of table `u` on its way from table `t`. -/
def DelSafe (t : IpaNatIp4TableCache) (s : Nat) (u : IpaNatIp4TableCache) : Prop :=
  Intact t u (· = s) ∧ NothingStale t u

theorem IndexPhase.safe (ok : RulesOk t chain) (phase : IndexPhase t s u) : DelSafe t s u := by
  obtain ⟨rules, _, irows⟩ := phase
  constructor
  · have rows := ok.ruleView (· = s)
    rw [← rules] at rows
    exact intact_of_views rows irows (fun r live other => ⟨live, rfl, other⟩)
  · have rows := ok.ruleView (fun _ => False)
    rw [← rules] at rows
    exact nothingStale_of_views rows irows (fun r live => ⟨_, live, rfl, id⟩)

theorem SameView.safe (same : SameView t.tableEntries rules index chain ichain (liveBut t (· = s)) u)
    (rows : RuleView t.tableEntries t.dstSlot rules chain (liveBut t (· = s)))
    (irows : IndexView t.tableEntries t.srcSlot index ichain (liveBut t (· = s))
      (fun r => Live t.rules r ∧ r ≠ s)) : DelSafe t s u := by
  have rows := rows.congr same.next same.live
  have irows := irows.congr same.index
  exact ⟨intact_of_views rows irows (fun r live other => ⟨live, rfl, other⟩),
    nothingStale_of_views rows irows (fun r other => ⟨_, other.1, rfl, other.2⟩)⟩

/-- Every table on the way of a delete is safe to walk. -/
theorem TableOk.del_safe (ok : TableOk t chain ichain) (live : Live t.rules s) (hdl : Nat) :
    EveryPrefix IpaNatIp4TableCache.write (DelSafe t s) t (delWrites true t s hdl) := by
  obtain ⟨index_cmds, ichain', irows, cleared⟩ := ok.index_cmds live
  obtain ⟨chain', done⟩ := ok.rule_cmd live
  have cmds : postedOf true t s (indexOf t s) =
      (indexCmdsOf t (indexOf t s)).map Write.dma ++ [.dma (ruleCmdOf t s)] := by
    rw [postedOf, reorderCmds_del, if_pos rfl, List.map_append]
    rfl
  rw [← postedOf_rules true t s (indexOf t s)] at done
  rw [← postedOf_index true t s (indexOf t s)] at irows cleared
  have entries : ∀ ws, (t.writes ws).tableEntries = t.tableEntries := t.writes_tableEntries
  -- each group of stores is computed from a table that looks the same to the walks
  have same₀ := SameView.refl ichain' done.1
  have quiet₁ := done.stores (entries _) same₀
  have same₁ := (same₀.quiet quiet₁).2
  rw [← IpaNatIp4TableCache.writes_append] at same₁
  have quiet₂ := ok.index_stores live (entries _) same₁ cleared
  have same₂ := (same₁.quiet quiet₂).2
  rw [← IpaNatIp4TableCache.writes_append] at same₂
  have quiet₃ := same₂.dead_heads
  obtain ⟨tail, split, quiet⟩ : ∃ tail, delWrites true t s hdl =
      postedOf true t s (indexOf t s) ++ tail ∧ ∀ w ∈ tail, Quiet t.tableEntries
        (t.writes (postedOf true t s (indexOf t s))).rules
        (t.writes (postedOf true t s (indexOf t s))).index chain' ichain' (liveBut t (· = s)) w := by
    refine ⟨ruleStoresOf true t s (indexOf t s) ++ (indexStoresOf true t s (indexOf t s) ++
      (ipaNatiDelDeadIpv4HeadNodes (t.writes (delStores true t s (indexOf t s))) ++
        [.ruleId (hdl - 1) ipaNatInvalidNatEntry])), ?_, fun w member => ?_⟩
    · simp only [delWrites, delStores, List.append_assoc]
    · simp only [List.mem_append, List.mem_singleton] at member
      rcases member with member | member | member | rfl
      · exact quiet₁ w member
      · exact quiet₂ w member
      · exact quiet₃ w member
      · exact trivial
  have rest := (same₀.quiet quiet).1.mono (fun u same => same.safe done.1 irows)
  have first := index_cmds.mono (fun u phase => phase.safe ok.toRulesOk)
  have posted : EveryPrefix IpaNatIp4TableCache.write (DelSafe t s) t (postedOf true t s (indexOf t s)) := by
    have last := rest.start
    rw [cmds, IpaNatIp4TableCache.writes_append] at last
    rw [cmds]
    exact first.append ⟨first.final, last⟩
  rw [split]
  exact posted.append rest

end Hima.Ipanat
