import Hima.Ipanat.IndexOffset

/-!
# Capacity

An add fails only for want of a row, dead heads do not outlive their chains, and a table whose
rules are all deleted is empty, in every run whose index links reach their rows.
-/
namespace Hima.Ipanat

open Chains Runs

variable {t : IpaNatIp4TableCache} {chain ichain : Nat → List Nat}
  {c : IpaNatIpv4Rule} {s : TableState} {ops : List RuleOp}

/-- The base slot of the rule is taken and every usable expansion slot holds a live rule. -/
def NoRuleSlot (t : IpaNatIp4TableCache) (c : IpaNatIpv4Rule) : Prop :=
  (t.rules (t.dstSlot c)).enable = true ∧
    ∀ k, 0 < k → k < t.expnTableEntries → Live t.rules (t.tableEntries + k)

/-- The index slot of the rule is taken and every usable expansion slot of the index table
holds the index entry of a live rule. -/
def NoIndexSlot (t : IpaNatIp4TableCache) (c : IpaNatIpv4Rule) : Prop :=
  (t.index (t.srcSlot c)).tblEntry ≠ 0 ∧
    ∀ k, 0 < k → k < t.expnTableEntries →
      Live t.rules (t.index (t.tableEntries + k)).tblEntry ∧
        (t.rules (t.index (t.tableEntries + k)).tblEntry).indxTblEntry = t.tableEntries + k

theorem TableOk.rulesFull_iff (h : TableOk t chain ichain) (c : IpaNatIpv4Rule) :
    RulesFull t.tableEntries t.expnTableEntries t.rules (t.dstSlot c) ↔ NoRuleSlot t c := by
  refine and_congr_right fun _ => ⟨fun full k pos lt => ?_, fun full e gt lt => ?_⟩
  · exact h.rows.live_expn (Nat.le_add_right _ k) (full _ (by omega) (by omega))
  · have live := full (e - t.tableEntries) (by omega) (by omega)
    rw [Nat.add_sub_cancel' (Nat.le_of_lt gt)] at live
    exact live.1

theorem TableOk.indexFull_iff (h : TableOk t chain ichain) (c : IpaNatIpv4Rule) :
    IndexFull t.tableEntries t.expnTableEntries t.index (t.srcSlot c) ↔ NoIndexSlot t c := by
  refine and_congr_right fun _ => ⟨fun full k pos lt => ?_, fun full x gt lt => ?_⟩
  · exact h.cross.owner _ (full _ (by omega) (by omega))
  · have owner := (full (x - t.tableEntries) (by omega) (by omega)).1
    rw [Nat.add_sub_cancel' (Nat.le_of_lt gt)] at owner
    exact (h.live_slot owner).1

theorem RulePlace.not_full {e p : Nat}
    (place : RulePlace t.tableEntries t.expnTableEntries t.rules chain (t.dstSlot c) e p) :
    ¬RulesFull t.tableEntries t.expnTableEntries t.rules (t.dstSlot c) := by
  rintro ⟨on, full⟩
  cases place with
  | base off => exact Bool.true_eq_false_eq_False (on.symm.trans off)
  | @expn e _ range off =>
    exact Bool.true_eq_false_eq_False ((full e range.1 range.2).symm.trans off)

theorem IndexPlace.not_full {x q : Nat}
    (place : IndexPlace t.tableEntries t.expnTableEntries t.index ichain (t.srcSlot c) x q) :
    ¬IndexFull t.tableEntries t.expnTableEntries t.index (t.srcSlot c) := by
  rintro ⟨used, full⟩
  cases place with
  | base free => exact used free
  | @expn x _ range free => exact full x range.1 range.2 free

/-- An add whose requests are executed fails exactly when it finds no row. -/
theorem TableOk.add_fails_iff (h : TableOk t chain ichain) (c : IpaNatIpv4Rule) :
    ∃ r, ipaNatiAddIpv4Rule {} t c = some r ∧ (r.ret ≠ 0 ↔ NoRuleSlot t c ∨ NoIndexSlot t c) := by
  rw [← h.rulesFull_iff, ← h.indexFull_iff]
  rcases addIpv4Rule_spec h.sized h.rows h.index {} c with ⟨refused, full⟩ |
    ⟨r, e, p, x, q, returned, place, iplace, ended⟩
  · exact ⟨_, refused, iff_of_true (by decide) full⟩
  · refine ⟨r, returned, iff_of_false ?_ ?_⟩
    · cases ended with
      | notEnabled failed => exact absurd rfl failed
      | noHandle _ full => exact absurd full (h.not_full place)
      | added => exact fun ne => ne rfl
    · exact fun full => full.elim place.not_full iplace.not_full

/-- A dead head has a live rule behind it. -/
theorem RulesOk.dead_head (h : RulesOk t chain) {b : Nat} (hb : b < t.tableEntries)
    (dead : (t.rules b).protocol = ipaNatInvalidProtoFieldCmp) :
    ∃ l, Path (ruleNext t.rules) b l ∧ ∃ e ∈ l, Live t.rules e := by
  refine ⟨chain b, h.rows.table.forward.path b hb, ?_⟩
  cases rows : chain b with
  | nil => exact absurd rows (h.heads b hb dead)
  | cons e l =>
    have member : e ∈ chain b := rows ▸ List.mem_cons_self
    exact ⟨e, List.mem_cons_self, h.rows.chainLive b hb e member⟩

/-- A caller that holds no rule has an empty table. -/
theorem TableOk.empty (h : TableOk t chain ichain) (none_held : HeldOk t []) :
    (t.rules = fun _ => {}) ∧ (t.index = fun _ => {}) ∧ (t.ruleId = fun _ => 0) := by
  have not_live : ∀ r, ¬Live t.rules r := by
    intro r live
    obtain ⟨i, _, id⟩ := h.ids.issued r live
    have member := (none_held.mem (i + 1) _).mpr ⟨Nat.succ_pos i, r, live, id, rfl⟩
    cases member
  refine ⟨funext fun r => h.off r ?_, funext fun x => h.index.clear x ?_, funext fun i => ?_⟩
  · by_contra off
    have on : (t.rules r).enable = true := Bool.not_eq_false _ ▸ off
    by_cases base : r < t.tableEntries
    · -- an enabled base row without a live rule is a dead head, and those have live rules
      have dead : (t.rules r).protocol = ipaNatInvalidProtoFieldCmp := by
        by_contra alive
        exact not_live r ⟨on, alive⟩
      obtain ⟨l, _, e, _, live⟩ := h.dead_head base dead
      exact not_live e live
    · exact not_live r (h.rows.live_expn (Nat.not_lt.mp base) on)
  · by_contra used
    exact not_live _ (h.cross.owner x used).1
  · by_contra used
    obtain ⟨r, live, _⟩ := h.ids.decodes i used
    exact not_live r live

/-- In every run of executed calls whose index links reach their rows: an add fails exactly
when its base slot is taken and so are all usable expansion slots, in one of the two tables; a
dead head has a live rule behind it; and when every rule is deleted the table is empty. -/
theorem capacity_not_leaked (created : Created t) (hits : t.tblAddrOffset = 0)
    (base : 2 ≤ t.tableEntries) (run : Run ruleStep ExecutedFits { tbl := t } ops s) :
    (∀ c, ∃ r, ipaNatiAddIpv4Rule {} s.tbl c = some r ∧
      (r.ret ≠ 0 ↔ NoRuleSlot s.tbl c ∨ NoIndexSlot s.tbl c)) ∧
    (∀ b < t.tableEntries, (s.tbl.rules b).enable = true →
      (s.tbl.rules b).protocol = ipaNatInvalidProtoFieldCmp →
      ∃ l, Path (ruleNext s.tbl.rules) b l ∧ ∃ e ∈ l, Live s.tbl.rules e) ∧
    (s.held = [] → (s.tbl.rules = fun _ => {}) ∧ (s.tbl.index = fun _ => {}) ∧
      (s.tbl.ruleId = fun _ => 0)) := by
  have inv := runFits_of_created created hits base run
  obtain ⟨chain, ichain, ok⟩ := inv.table
  refine ⟨ok.add_fails_iff, fun b hb _ dead => ?_, fun none => ok.empty (none ▸ inv.held)⟩
  exact ok.dead_head (inv.entries ▸ hb) dead

theorem capacity_not_leaked_sample : ∃ (s : TableState),
    Run ruleStep ExecutedFits { tbl := createTable 5 } sampleCollisions s ∧ s.held = [(2, sampleTwin)] ∧
      ∀ c, ∃ r, ipaNatiAddIpv4Rule {} s.tbl c = some r ∧
        (r.ret ≠ 0 ↔ NoRuleSlot s.tbl c ∨ NoIndexSlot s.tbl c) := by
  obtain ⟨s, run, shown⟩ := sampleCollisions_run
  exact ⟨s, run, congrArg Prod.fst shown,
    (capacity_not_leaked (createTable_created (by decide)) rfl (by decide) run).1⟩

/-- In a table of 32768 base rows the index table is not empty after all rules are deleted. -/
theorem index_row_leaked : ∃ ha hb s, Run ruleStep Executed { tbl := createTable 40000 }
      [.add {} sampleRule, .add {} sampleClash, .del {} ha, .del {} hb] s ∧
      s.held = [] ∧ s.tbl.index ≠ fun _ => {} := by
  obtain ⟨s, ha, hb, x, pair⟩ := stray_pair_sample
  obtain ⟨s', run, none, stray⟩ := pair.leak (createTable_created (by decide)) rfl (by decide)
    (by decide) (by decide)
  refine ⟨ha, hb, s', pair.run.append run, none, fun empty => ?_⟩
  rw [empty] at stray
  have expn := pair.expn
  have next := congrArg IpaNatIndxTblRule.nextIndex stray
  simp only at next
  omega

/-!
## Adds whose requests fail

`ipa_nati_write_next_index` drops the error of its ioctl, and a failed enable leaves the rows
behind. An add is all or nothing exactly when none of that is needed.
-/
variable {c : IpaNatIpv4Rule} {o : AddOutcomes} {s s' : TableState} {op : RuleOp} {ops : List RuleOp} {N M : Nat}

/-! ### The guarantee -/

/-- A row that was off carries the rule, is enabled and met from the bucket of the rule table,
and a row met from the bucket of the index table names it. -/
def NewRuleIn (t t' : IpaNatIp4TableCache) (c : IpaNatIpv4Rule) : Prop :=
  ∃ e x, (t.rules e).enable = false ∧ (t'.rules e).enable = true ∧ (t'.rules e).client = c ∧
    (∃ l, Path (ruleNext t'.rules) (t.dstSlot c) l ∧ e ∈ t.dstSlot c :: l) ∧
    (t'.index x).tblEntry = e ∧
    ∃ l, Path (indexNext t'.index) (t.srcSlot c) l ∧ x ∈ t.srcSlot c :: l

/-- The four tables, the ids and the metadata of every occupied index row are as before. -/
structure Untouched (t t' : IpaNatIp4TableCache) : Prop where
  rules : t'.rules = t.rules
  index : t'.index = t.index
  ruleId : t'.ruleId = t.ruleId
  prevMeta : ∀ k, (t.index (t.tableEntries + k)).tblEntry ≠ 0 →
    t'.prevIndexMeta k = t.prevIndexMeta k

/-- The add succeeds with the rule in, or fails and leaves everything as it was. -/
def AllOrNothing (o : AddOutcomes) (t : IpaNatIp4TableCache) (c : IpaNatIpv4Rule) : Prop :=
  ∃ r, ipaNatiAddIpv4Rule o t c = some r ∧
    (r.ret = 0 ∧ NewRuleIn t (t.writes r.writes) c ∨
      r.ret < 0 ∧ Untouched t (t.writes r.writes))

/-- The add is refused for want of a row, or the requests it issues are executed and its index
link reaches its row. -/
def AddSafe (o : AddOutcomes) (t : IpaNatIp4TableCache) (c : IpaNatIpv4Rule) : Prop :=
  RulesFull t.tableEntries t.expnTableEntries t.rules (t.dstSlot c) ∨
  IndexFull t.tableEntries t.expnTableEntries t.index (t.srcSlot c) ∨
  ((t.rules (t.dstSlot c)).enable = true → o.natNext = .posted) ∧
    ((t.index (t.srcSlot c)).tblEntry ≠ 0 → o.indexNext = .posted) ∧
    IndexLinkFits t c ∧ o.enable = .posted

/-! ### Safe adds -/

/-- A safe add returns; it is refused, or both tables are in order with the rule in. -/
theorem TableOk.add_safe (ok : TableOk t chain ichain)
    (proto : c.protocol ≠ ipaNatInvalidProtoFieldCmp) (safe : AddSafe o t c) :
    ipaNatiAddIpv4Rule o t c = some { ret := -EINVAL } ∨ AddsRule t chain ichain o c := by
  rcases addIpv4Rule_spec ok.sized ok.rows ok.index o c with ⟨refused, _⟩ | ⟨_, _, _, _, _, _, place, iplace, _⟩
  · exact .inl refused
  · rcases safe with full | full | ⟨linked, ilinked, fits, enabled⟩
    · exact absurd full place.not_full
    · exact absurd full iplace.not_full
    · exact (ok.add proto fits linked ilinked enabled).imp_left And.left

theorem TableOk.allOrNothing_of_safe (ok : TableOk t chain ichain) (safe : AddSafe o t c) :
    AllOrNothing o t c := by
  rcases addIpv4Rule_spec ok.sized ok.rows ok.index o c with ⟨refused, _⟩ |
    ⟨r, e, p, x, q, returned, place, iplace, ended⟩
  · exact ⟨_, refused, Or.inr ⟨by decide, rfl, rfl, rfl, fun _ _ => rfl⟩⟩
  · refine ⟨r, returned, Or.inl ?_⟩
    rcases safe with full | full | ⟨linked, ilinked, fits, enabled⟩
    · exact absurd full place.not_full
    · exact absurd full iplace.not_full
    · cases ended with
      | notEnabled failed => exact absurd enabled failed
      | noHandle _ full => exact absurd full (ok.not_full place)
      | @added i =>
        have dst := ok.sized.dstSlot_bounds c
        have src := ok.sized.srcSlot_bounds c
        have added := ruleAdded_of_posted (o := o) (x := x) (q := q) ok.sized
          (fun behind => linked (place.enabled behind)) c (ok.pred_ne place)
        have iadded := indexAdded_of_posted (o := o) (e := e) (p := p) ok.sized
          (fun behind => ilinked (iplace.occupied behind)) c (ok.ipred_lt iplace)
          (fits.slot ok.sized ok.index iplace) (ok.ipred_ne iplace)
        obtain ⟨rules, index, _, _⟩ := writes_added ok.sized o c e p x q i
        rw [← rules] at added
        rw [← index] at iadded
        have grown := ok.index.add src iplace iadded (place.ne_zero ok.sized)
        refine ⟨rfl, e, x, place.free, by rw [added.new]; rfl, by rw [added.new]; rfl,
          ⟨_, ok.rows.path_grow dst.2 place added rfl _ dst.2, place.mem_grow⟩, ?_,
          _, grown.table.forward.path _ src.2, iplace.mem_grow⟩
        rw [iadded.new]

/-! ### Adds that are not safe -/

theorem addStores_new (offset : t.tblAddrOffset = 0) (o : AddOutcomes) (c : IpaNatIpv4Rule)
    {e p : Nat} (x q : Nat) (ne : p ≠ 0 → p ≠ e) :
    (t.writes (addStores o t c e p x q)).rules e = newRow t c p x := by
  rw [addStores_rules offset]
  by_cases unlinked : p = 0 ∨ o.natNext ≠ .posted
  · simp [unlinked]
  · have behind : p ≠ 0 := fun zero => unlinked (Or.inl zero)
    simp [unlinked, Function.update_of_ne (ne behind).symm]

theorem addStores_enable (offset : t.tblAddrOffset = 0) (o : AddOutcomes) (c : IpaNatIpv4Rule)
    {e r : Nat} (p x q : Nat) (ne : r ≠ e) :
    ((t.writes (addStores o t c e p x q)).rules r).enable = (t.rules r).enable := by
  rw [addStores_rules offset]
  by_cases unlinked : p = 0 ∨ o.natNext ≠ .posted
  · simp [unlinked, Function.update_of_ne ne]
  · by_cases pred : r = p
    · subst pred
      simp [unlinked, Function.update_of_ne ne, IpaNatRule.setNext]
    · simp [unlinked, Function.update_of_ne pred, Function.update_of_ne ne]

/-- A bucket of the rule table whose rows were left alone does not reach a row that was off. -/
theorem RulesOk.not_reached (ok : RulesOk t chain) {rules' : Nat → IpaNatRule} {b e : Nat}
    (hb : b < t.tableEntries) (on : (t.rules b).enable = true)
    (off : (t.rules e).enable = false) (same : ∀ r, r ≠ e → rules' r = t.rules r) {l : List Nat}
    (path : Path (ruleNext rules') b l) : e ∉ b :: l := by
  have enabled : ∀ r ∈ b :: chain b, (t.rules r).enable = true := by
    intro r member
    rcases List.mem_cons.mp member with rfl | member
    · exact on
    · exact (ok.rows.chainLive b hb r member).1
  have old : Path (ruleNext rules') b (chain b) := by
    refine path_congr _ _ b _ (fun r member => ?_) (ok.rows.table.forward.path b hb)
    have ne : r ≠ e := by
      rintro rfl
      exact Bool.true_eq_false_eq_False ((enabled r member).symm.trans off)
    rw [ruleNext, same r ne, ruleNext]
  rw [path_unique _ b _ _ path old]
  exact fun member => Bool.true_eq_false_eq_False ((enabled e member).symm.trans off)

/-- A bucket of the index table whose rows were left alone names no rule that was off. -/
theorem TableOk.not_named (ok : TableOk t chain ichain) {index' : Nat → IpaNatIndxTblRule}
    {b e x : Nat} (hb : b < t.tableEntries) (he : e ≠ 0) (off : (t.rules e).enable = false)
    (same : ∀ y ∈ b :: ichain b, index' y = t.index y) {l : List Nat}
    (path : Path (indexNext index') b l) (member : x ∈ b :: l) : (index' x).tblEntry ≠ e := by
  have old : Path (indexNext index') b (ichain b) := by
    refine path_congr _ _ b _ (fun y member => ?_) (ok.index.table.forward.path b hb)
    rw [indexNext, same y member, indexNext]
  rw [path_unique _ b _ _ path old] at member
  rw [same x member]
  rintro rfl
  exact Bool.true_eq_false_eq_False ((ok.cross.owner x he).1.1.symm.trans off)

theorem TableOk.safe_of_allOrNothing (ok : TableOk t chain ichain) (all : AllOrNothing o t c) :
    AddSafe o t c := by
  obtain ⟨r', returned', outcome⟩ := all
  rcases addIpv4Rule_spec ok.sized ok.rows ok.index o c with ⟨_, full⟩ |
    ⟨r, e, p, x, q, returned, place, iplace, ended⟩
  · exact full.elim Or.inl (fun full => Or.inr (Or.inl full))
  · obtain rfl : r = r' := Option.some.inj (returned.symm.trans returned')
    have offset := ok.sized.offset
    have he := place.ne_zero ok.sized
    cases ended with
    | notEnabled failed =>
      rcases outcome with ⟨ret, _⟩ | ⟨_, same⟩
      · exact absurd (show (- EIO : Int) = 0 from ret) (by decide)
      · -- the row that was not enabled remembers its index row all the same
        have row := congrFun same.rules e
        rw [addStores_new offset o c x q (ok.pred_ne place), ok.off e place.free] at row
        exact absurd (congrArg IpaNatRule.indxTblEntry row) (iplace.ne_zero ok.sized)
    | noHandle _ full => exact absurd full (ok.not_full place)
    | @added i enabled =>
      rcases outcome with ⟨_, e', x', was_off, on, _, ⟨l, path, member⟩, names, l', path', member'⟩ |
        ⟨negative, _⟩
      · have dst := (ok.sized.dstSlot_bounds c).2
        have src := (ok.sized.srcSlot_bounds c).2
        obtain ⟨rules, index, _, _⟩ := writes_added ok.sized o c e p x q i
        rw [rules] at on path
        rw [index] at names path'
        -- the row that was switched on is the new one
        obtain rfl : e = e' := by
          by_contra ne
          rw [Function.update_of_ne (Ne.symm ne), addStores_enable offset o c p x q (Ne.symm ne)] at on
          exact Bool.true_eq_false_eq_False (on.symm.trans was_off)
        -- the rows of an occupied index bucket are other rows than the new one
        have other : (t.index (t.srcSlot c)).tblEntry ≠ 0 →
            ∀ y ∈ t.srcSlot c :: ichain (t.srcSlot c), y ≠ x := by
          rintro used y in_bucket rfl
          rcases List.mem_cons.mp in_bucket with rfl | in_chain
          · exact used iplace.free
          · exact ok.index.table.chainUsed _ src _ in_chain iplace.free
        have index_eq := addStores_index (e := e) (p := p) (x := x) ok.sized o c (ok.ipred_lt iplace)
        refine Or.inr (Or.inr ⟨fun base_on => ?_, fun used => ?_, ?_, enabled⟩)
        · by_contra failed
          refine ok.not_reached dst base_on was_off (fun r ne => ?_) path member
          simp [addStores_rules offset, failed, Function.update_of_ne ne]
        · by_contra failed
          refine ok.not_named src he was_off (fun y in_bucket => ?_) path' member' names
          rw [index_eq, if_pos (Or.inr failed), Function.update_of_ne (other used y in_bucket)]
        · by_contra misfit
          obtain ⟨used, alone, high⟩ : (t.index (t.srcSlot c)).tblEntry ≠ 0 ∧
              (t.index (t.srcSlot c)).nextIndex = 0 ∧ 16384 ≤ t.srcSlot c := by
            simpa [IndexLinkFits, not_or] using misfit
          have empty := (ok.index.nextIndex_eq_zero_iff src).mp alone
          have small := ok.sized.entriesLe
          -- the only row of the bucket is the previous one, and it is not the one that was linked
          have stray : t.srcSlot c ≠ indexLinkSlot t.tableEntries q := by
            cases iplace with
            | base free => exact absurd free used
            | expn =>
              rw [empty, List.getLastD_nil, indexLinkSlot, if_neg (Nat.not_le.mpr src)]
              omega
          refine ok.not_named src he was_off (fun y in_bucket => ?_) path' member' names
          have ne := other used y in_bucket
          obtain rfl : y = t.srcSlot c := by simpa [empty] using in_bucket
          rw [index_eq]
          split
          · rw [Function.update_of_ne ne]
          · rw [Function.update_of_ne stray, Function.update_of_ne ne]
      · exact absurd (show (0 : Int) < 0 from negative) (by decide)

theorem TableOk.allOrNothing_iff (ok : TableOk t chain ichain) :
    AllOrNothing o t c ↔ AddSafe o t c :=
  ⟨ok.safe_of_allOrNothing, ok.allOrNothing_of_safe⟩

/-! ### Runs -/

/-- Every add of the run is safe; deletes are free to fail. -/
def SafeOp (s : TableState) : RuleOp → Prop
  | .add o c => c.protocol ≠ ipaNatInvalidProtoFieldCmp ∧ AddSafe o s.tbl c
  | .del _ _ => True

theorem RunFits.step_safe (h : RunFits N M s) (allowed : SafeOp s op)
    (stepped : ruleStep s op = some s') : RunFits N M s' := by
  cases op with
  | add o c =>
    obtain ⟨chain, ichain, ok⟩ := h.table
    exact h.of_add ok (ok.add_safe allowed.1 allowed.2) stepped
  | del o hdl => exact h.step (show ExecutedFits s (.del o hdl) from trivial) stepped

/-- In every state that a run of safe adds and of deletes reaches, an add is all or nothing
exactly when it is safe. -/
theorem add_all_or_nothing_iff (created : Created t) (hits : t.tblAddrOffset = 0)
    (base : 2 ≤ t.tableEntries) (run : Run ruleStep SafeOp { tbl := t } ops s)
    (o : AddOutcomes) (c : IpaNatIpv4Rule) : AllOrNothing o s.tbl c ↔ AddSafe o s.tbl c := by
  have inv : RunFits t.tableEntries t.expnTableEntries s := by
    refine run.invariant _ (fun _ _ _ inv allowed stepped => inv.step_safe allowed stepped) ?_
    exact ⟨rfl, rfl, ⟨_, _, created.fresh.ok hits base⟩, created.fresh.heldOk⟩
  obtain ⟨_, _, ok⟩ := inv.table
  exact ok.allOrNothing_iff

theorem add_all_or_nothing_sample : ∃ (s : TableState),
    ruleStep { tbl := createTable 5 } (.add {} sampleRule) = some s ∧
      (AllOrNothing {} s.tbl sampleClash ↔ AddSafe {} s.tbl sampleClash) := by
  obtain ⟨s, stepped⟩ := Option.isSome_iff_exists.mp
    (show (ruleStep { tbl := createTable 5 } (.add {} sampleRule)).isSome by decide)
  have safe : AddSafe {} (createTable 5) sampleRule :=
    Or.inr (Or.inr ⟨fun _ => rfl, fun _ => rfl, by decide, rfl⟩)
  have run : Run ruleStep SafeOp { tbl := createTable 5 } [.add {} sampleRule] s :=
    .cons ⟨by decide, safe⟩ stepped (.nil s)
  exact ⟨s, stepped, add_all_or_nothing_iff (createTable_created (by decide)) rfl (by decide)
    run {} sampleClash⟩

/-- The first add to a new table, with a failed enable, leaves its rows behind. -/
theorem failed_enable_leaves_rows :
    ¬AllOrNothing { enable := .ioctlFailed } (createTable 5) sampleRule := by
  have ok := (createTable_created (n := 5) (by decide)).fresh.ok rfl (by decide)
  rw [ok.allOrNothing_iff]
  rintro (full | full | ⟨_, _, _, enabled⟩)
  · exact absurd full.1 (by decide)
  · exact absurd full.1 (by decide)
  · exact absurd enabled (by decide)

end Hima.Ipanat
