import Hima.Ipanat.TableRun

/-!
# The index link in 16 bits

`ipa_nati_copy_ipv4_index_rule_to_hw` keeps the offset of the previous entry in a `uint16_t`,
where `ipa_nati_copy_ipv4_rule_to_hw` and the delete path use 32 bits. In a table of 32768
base rows the link of a row in the upper half goes to a row 16384 slots below it.
-/
namespace Hima.Ipanat

open Chains Runs

variable {t : IpaNatIp4TableCache} {chain ichain : Nat → List Nat}

/-- An add whose two buckets are not full, with the places it takes. -/
theorem TableOk.add_places (h : TableOk t chain ichain) {c : IpaNatIpv4Rule}
    (room : ¬RulesFull t.tableEntries t.expnTableEntries t.rules (t.dstSlot c))
    (iroom : ¬IndexFull t.tableEntries t.expnTableEntries t.index (t.srcSlot c)) :
    ∃ e p x q i, RulePlace t.tableEntries t.expnTableEntries t.rules chain (t.dstSlot c) e p ∧
      IndexPlace t.tableEntries t.expnTableEntries t.index ichain (t.srcSlot c) x q ∧
      t.ruleId i = 0 ∧ (∀ j < i, t.ruleId j ≠ 0) ∧
      ∀ held, ruleStep { tbl := t, held := held } (.add {} c) = some {
        tbl := t.writes (addStores {} t c e p x q ++
          [.dma (enableCmd t e), .ruleId i (idOfSlot t.tableEntries e)])
        held := (i + 1, c) :: held } := by
  rcases addIpv4Rule_spec h.sized h.rows h.index {} c with ⟨_, full⟩ |
    ⟨r, e, p, x, q, returned, place, iplace, ended⟩
  · exact absurd full (fun full => full.elim room iroom)
  · cases ended with
    | notEnabled failed => exact absurd rfl failed
    | noHandle _ full => exact absurd full (h.not_full place)
    | @added i _ _ unused first =>
      refine ⟨e, p, x, q, i, place, iplace, unused, first, fun held => ?_⟩
      simp only [ruleStep, returned, Option.map_some, if_true]

/-- The table after the first add to a new one: the rule is in the base slots of its two
buckets. -/
structure FirstAdd (t t₁ : IpaNatIp4TableCache) (a : IpaNatIpv4Rule) (i : Nat) : Prop where
  step : ∀ held, ruleStep { tbl := t, held := held } (.add {} a) =
    some { tbl := t₁, held := (i + 1, a) :: held }
  ok : ∃ chain, TableOk t₁ chain (fun _ => [])
  entries : t₁.tableEntries = t.tableEntries
  expn : t₁.expnTableEntries = t.expnTableEntries
  rules : RuleAdded t.rules t₁.rules ((newRow t a 0 (t.srcSlot a)).setFlags true) (t.dstSlot a) 0
  index : IndexAdded t.index t₁.index { tblEntry := t.dstSlot a } (t.srcSlot a) 0
  ids : t₁.ruleId = Function.update t.ruleId i (idOfSlot t.tableEntries (t.dstSlot a))

theorem first_add (created : Created t) (hits : t.tblAddrOffset = 0) (base : 2 ≤ t.tableEntries)
    {a : IpaNatIpv4Rule} (proto : a.protocol ≠ ipaNatInvalidProtoFieldCmp) :
    ∃ t₁ i, FirstAdd t t₁ a i := by
  have fresh := created.fresh
  have ok := fresh.ok hits base
  have src := ok.sized.srcSlot_bounds a
  have off : ∀ r, (t.rules r).enable = false := fun r => by rw [fresh.rules]
  have unused : ∀ y, t.index y = {} := fun y => by rw [fresh.index]
  have not_on : ∀ {r : Nat}, (t.rules r).enable ≠ true := fun {r} on =>
    Bool.true_eq_false_eq_False (on.symm.trans (off r))
  obtain ⟨e, p, x, q, i, place, iplace, free, first, step⟩ := ok.add_places (c := a)
    (fun full => not_on full.1) (fun full => full.1 (by rw [unused]))
  cases place with
  | expn on => exact absurd on not_on
  | base =>
  cases iplace with
  | expn used => exact absurd (by rw [unused]) used
  | base =>
  have fits : IndexLinkFits t a := Or.inl (by rw [unused])
  have place : RulePlace t.tableEntries t.expnTableEntries t.rules (fun _ => []) (t.dstSlot a)
    (t.dstSlot a) 0 := .base (off _)
  have iplace : IndexPlace t.tableEntries t.expnTableEntries t.index (fun _ => []) (t.srcSlot a)
    (t.srcSlot a) 0 := .base (by rw [unused])
  obtain ⟨ok₁, _⟩ := ok.added (o := {}) proto fits (fun _ => rfl) (fun _ => rfl) place iplace free first
  have added := ruleAdded_of_posted (x := t.srcSlot a) (q := 0) ok.sized (o := {}) (fun _ => rfl)
    a (ok.pred_ne place)
  have iadded := indexAdded_of_posted (e := t.dstSlot a) (p := 0) ok.sized (o := {}) (fun _ => rfl)
    a (ok.ipred_lt iplace) (fits.slot ok.sized ok.index iplace) (ok.ipred_ne iplace)
  obtain ⟨rules, index, _, ids⟩ := writes_added ok.sized {} a (t.dstSlot a) 0 (t.srcSlot a) 0 i
  rw [← rules] at added
  rw [← index] at iadded
  have no_rows : grow t.tableEntries (fun _ => []) (t.srcSlot a) (t.srcSlot a) = fun _ => [] :=
    if_pos src.2
  rw [no_rows] at ok₁
  exact ⟨_, i, step, ⟨_, ok₁⟩, t.writes_tableEntries _, t.writes_expnTableEntries _, added, iadded, ids⟩

/-- Two rules of one source bucket in the upper half of the table: the second one's index row
`x` is linked behind the row 16384 slots below the first one's. -/
structure StrayPair (t : IpaNatIp4TableCache) (a b : IpaNatIpv4Rule) (s : TableState)
    (ha hb x : Nat) : Prop where
  run : Run ruleStep Executed { tbl := t } [.add {} a, .add {} b] s
  held : s.held = [(hb, b), (ha, a)]
  expn : t.tableEntries < x ∧ x < t.tableEntries + t.expnTableEntries
  head : s.tbl.index (t.srcSlot a) = { tblEntry := t.dstSlot a }
  second : s.tbl.index x = { tblEntry := t.dstSlot b }
  stray : s.tbl.index (t.srcSlot a - 16384) = { nextIndex := x }
  back : s.tbl.prevIndexMeta (x - t.tableEntries) = t.srcSlot a
  idA : s.tbl.ruleId (ha - 1) = idOfSlot t.tableEntries (t.dstSlot a)
  idB : s.tbl.ruleId (hb - 1) = idOfSlot t.tableEntries (t.dstSlot b)
  ruleA : Live s.tbl.rules (t.dstSlot a) ∧ (s.tbl.rules (t.dstSlot a)).client = a ∧
    (s.tbl.rules (t.dstSlot a)).indxTblEntry = t.srcSlot a
  ruleB : Live s.tbl.rules (t.dstSlot b) ∧ (s.tbl.rules (t.dstSlot b)).client = b ∧
    (s.tbl.rules (t.dstSlot b)).indxTblEntry = x

theorem stray_pair (created : Created t) (hits : t.tblAddrOffset = 0) (base : 2 ≤ t.tableEntries)
    {a b : IpaNatIpv4Rule} (proto_a : a.protocol ≠ ipaNatInvalidProtoFieldCmp)
    (proto_b : b.protocol ≠ ipaNatInvalidProtoFieldCmp) (same : t.srcSlot b = t.srcSlot a)
    (high : 16384 ≤ t.srcSlot a) (apart : t.dstSlot b ≠ t.dstSlot a) :
    ∃ s ha hb x, StrayPair t a b s ha hb x := by
  have fresh := created.fresh
  have ok := fresh.ok hits base
  have entries := ok.sized.entriesLe
  have src := ok.sized.srcSlot_bounds a
  have slot := ok.sized.dstSlot_bounds a
  obtain ⟨t₁, i, first_a⟩ := first_add created hits base proto_a
  obtain ⟨chain₁, ok₁⟩ := first_a.ok
  have entries₁ := first_a.entries
  have expn₁ := first_a.expn
  have ids₁ := first_a.ids
  have dst₁ : t₁.dstSlot = t.dstSlot := funext fun c => by
    simp only [IpaNatIp4TableCache.dstSlot, entries₁]
  have src₁ : t₁.srcSlot = t.srcSlot := funext fun c => by
    simp only [IpaNatIp4TableCache.srcSlot, entries₁]
  have twoExpn := ok.sized.twoExpn
  have off_b : (t₁.rules (t.dstSlot b)).enable = false := by
    rw [first_a.rules.other _ apart (fun behind => absurd rfl behind), fresh.rules]
  have head₁ : t₁.index (t.srcSlot a) = { tblEntry := t.dstSlot a } := first_a.index.new
  have unused₁ : ∀ y, y ≠ t.srcSlot a → t₁.index y = {} := fun y ne => by
    rw [first_a.index.other y ne (fun behind => absurd rfl behind), fresh.index]
  -- the second one finds its base slot in the index table taken
  obtain ⟨e', p', x, q', i', place', iplace', free', first', step_b⟩ := ok₁.add_places (c := b) (fun full => by
      rw [dst₁] at full
      exact Bool.true_eq_false_eq_False (full.1.symm.trans off_b))
    (fun full => by
      refine full.2 (t.tableEntries + 1) (by omega) (by omega) ?_
      rw [unused₁ _ (by omega)])
  rw [dst₁] at place'
  rw [src₁, same] at iplace'
  cases place' with
  | expn on => exact absurd (on.symm.trans off_b) Bool.true_eq_false_eq_False
  | base =>
  cases iplace' with
  | base free => exact absurd (by rw [head₁] at free; exact free) (Nat.ne_of_gt slot.1)
  | @expn x _ range free_x =>
  rw [List.getLastD_nil] at step_b
  have pred : t.srcSlot a < t₁.tableEntries + t₁.expnTableEntries := by omega
  have link : indexLinkSlot t₁.tableEntries (t.srcSlot a) = t.srcSlot a - 16384 := by
    rw [indexLinkSlot, if_neg (by omega)]
    omega
  have added' := ruleAdded_of_posted (p := 0) (x := x) (q := t.srcSlot a) ok₁.sized (o := {})
    (fun _ => rfl) b (e := t.dstSlot b) (fun behind => absurd rfl behind)
  have index' := addStores_index (e := t.dstSlot b) (p := 0) (x := x) ok₁.sized {} b pred
  have backs' := addStores_prevMeta (t := t₁) {} b (t.dstSlot b) 0 x (t.srcSlot a)
  obtain ⟨rules₂, index₂, backs₂, ids₂⟩ :=
    writes_added ok₁.sized {} b (t.dstSlot b) 0 x (t.srcSlot a) i'
  rw [← rules₂] at added'
  rw [← index₂, if_neg (by intro h; rcases h with h | h; omega; exact h rfl), link] at index'
  rw [← backs₂, if_pos (by omega)] at backs'
  have ne_x : t.srcSlot a ≠ x := by omega
  have ne_y : t.srcSlot a - 16384 ≠ x := by omega
  have ne_q : t.srcSlot a ≠ t.srcSlot a - 16384 := by omega
  refine ⟨_, i + 1, i' + 1, x, .cons ⟨rfl, proto_a⟩ (first_a.step [])
    (.cons ⟨rfl, proto_b⟩ (step_b _) (.nil _)), rfl, ?_, ?_, ?_, ?_, ?_, ?_, ?_, ?_, ?_⟩
  · rwa [entries₁, expn₁] at range
  · rw [index', Function.update_of_ne ne_q, Function.update_of_ne ne_x, head₁]
  · rw [index', Function.update_of_ne ne_y.symm, Function.update_self]
  · rw [index', Function.update_self, Function.update_of_ne ne_y, unused₁ _ ne_q.symm]
    rfl
  · rw [backs', entries₁, Function.update_self]
  · have ne_i : i ≠ i' := by
      rintro rfl
      rw [ids₁, Function.update_self] at free'
      exact idOfSlot_ne_zero entries (Nat.ne_of_gt slot.1) free'
    rw [Nat.add_sub_cancel, ids₂, Function.update_of_ne ne_i, ids₁, Function.update_self]
  · rw [Nat.add_sub_cancel, ids₂, Function.update_self, entries₁]
  · rw [Live, added'.other _ apart.symm (fun behind => absurd rfl behind), first_a.rules.new]
    exact ⟨⟨rfl, proto_a⟩, rfl, rfl⟩
  · rw [Live, added'.new]
    exact ⟨⟨rfl, proto_b⟩, rfl, rfl⟩

/-- A delete of a rule whose index row is the last of its chain: of the index table only that
row and the row its metadata names change, even when the index table is out of order. -/
theorem RulesOk.del_last (ok : RulesOk t chain) {r : Nat} (hdl : Nat) (live : Live t.rules r)
    (alone : (t.index (indexOf t r)).nextIndex = 0) (pred : t.tableEntries ≤ indexOf t r →
      t.prevIndexMeta (indexOf t r - t.tableEntries) ≠ indexOf t r) :
    (∀ y, y ≠ indexOf t r →
      (t.tableEntries ≤ indexOf t r → y ≠ t.prevIndexMeta (indexOf t r - t.tableEntries)) →
      (t.writes (delWrites true t r hdl)).index y = t.index y) ∧
    (t.writes (delWrites true t r hdl)).prevIndexMeta = t.prevIndexMeta ∧ ∀ r', Live t.rules r' → r' ≠ r →
      ((t.writes (delWrites true t r hdl)).rules r').indxTblEntry = (t.rules r').indxTblEntry := by
  obtain ⟨_, _, _, rows⟩ := ok.rows.ruleStores ok.sized live true (indexOf t r)
  obtain ⟨rules, index, backs, _⟩ := writes_delWrites true t r hdl
  have stores := indexStores_spec true ok.sized.offset r (indexOf t r)
    (fun linked => absurd alone linked) (fun _ linked => absurd alone linked) pred
  rw [rules, index, backs]
  have kept : ∀ rules₂ : Nat → IpaNatRule, rules₂ = (t.writes (postedOf true t r (indexOf t r) ++
        ruleStoresOf true t r (indexOf t r))).rules →
      ∀ r', Live t.rules r' → r' ≠ r →
        (sweep t.tableEntries rules₂ r').indxTblEntry = (t.rules r').indxTblEntry := by
    rintro _ rfl r' was ne
    have still := (rows.live_iff r').mpr ⟨was, ne⟩
    rw [sweep_live still]
    exact (rows.kept r' ne).2.2.2
  cases stores with
  | onlyOne base _ same_index same_backs same =>
    refine ⟨fun y ne _ => ?_, same_backs, kept _ same⟩
    rw [same_index, Function.update_of_ne ne]
  | head _ linked nonzero => exact absurd (linked.symm.trans alone) nonzero
  | @expn q n expn prev next unlinked same_backs same =>
    have last : n = 0 := next.symm.trans alone
    rw [if_neg (fun ne => ne last)] at same_backs
    exact ⟨fun y ne ne' => unlinked.other y ne (prev ▸ ne' expn), same_backs, kept _ same⟩

/-- A delete by the handle of a live rule, as a step of a run. -/
theorem RulesOk.del_step (ok : RulesOk t chain) {r hdl : Nat} (live : Live t.rules r)
    (pos : 0 < hdl) (id : t.ruleId (hdl - 1) = idOfSlot t.tableEntries r) (held : List (Nat × IpaNatIpv4Rule)) :
    ruleStep { tbl := t, held := held } (.del {} hdl) = some {
      tbl := t.writes (delWrites true t r hdl)
      held := held.filter (·.1 ≠ hdl) } := by
  have slot := ok.live_slot live
  have inside := ok.ids.inside (show t.ruleId (hdl - 1) ≠ 0 by
    rw [id]
    exact idOfSlot_ne_zero ok.sized.entriesLe slot.1)
  have deleted := delIpv4Rule_live ok.sized {} live slot.1 slot.2 ⟨pos, by omega⟩ id
  simp only [ruleStep, deleted]
  rfl

/-- After both rules of a stray pair are deleted the stray link is still there. -/
theorem StrayPair.leak (created : Created t) (hits : t.tblAddrOffset = 0)
    (base : 2 ≤ t.tableEntries) {a b : IpaNatIpv4Rule} {s : TableState} {ha hb x : Nat}
    (pair : StrayPair t a b s ha hb x) (high : 16384 ≤ t.srcSlot a) (apart : t.dstSlot b ≠ t.dstSlot a) :
    ∃ s', Run ruleStep Executed s [.del {} ha, .del {} hb] s' ∧ s'.held = [] ∧
      s'.tbl.index (t.srcSlot a - 16384) = { nextIndex := x } := by
  have inv := runOk_of_created created hits base pair.run
  obtain ⟨chain, ok⟩ := inv.table
  have entries : s.tbl.tableEntries = t.tableEntries := inv.entries
  have src := (created.fresh.ok hits base).sized.srcSlot_bounds a
  have expn := pair.expn
  obtain ⟨live_a, _, index_a⟩ := pair.ruleA
  obtain ⟨live_b, _, index_b⟩ := pair.ruleB
  have mem_a : (ha, a) ∈ s.held := by
    rw [pair.held]
    exact List.mem_cons_of_mem _ List.mem_cons_self
  have mem_b : (hb, b) ∈ s.held := by
    rw [pair.held]
    exact List.mem_cons_self
  have handles : hb ≠ ha := by
    have nodup := inv.held.nodup
    rw [pair.held] at nodup
    exact fun eq => (List.nodup_cons.mp nodup).1 (List.mem_singleton.mpr eq)
  have pos_a := ((inv.held.mem _ _).mp mem_a).1
  have pos_b := ((inv.held.mem _ _).mp mem_b).1
  have idA := pair.idA
  have idB := pair.idB
  rw [← entries] at idA idB
  -- the first deletion clears the home row and nothing else
  have row_a : indexOf s.tbl (t.dstSlot a) = t.srcSlot a := index_a
  obtain ⟨index₁, backs₁, remembered⟩ := ok.del_last ha live_a
    (by rw [row_a, pair.head]) (fun le => by rw [row_a, entries] at le; omega)
  obtain ⟨chain₁, ok₁, removed⟩ := ok.del live_a idA true
  have step_a := ok.del_step live_a pos_a idA s.held
  generalize table₁ : s.tbl.writes (delWrites true s.tbl (t.dstSlot a) ha) = t₁ at *
  have entries₁ : t₁.tableEntries = t.tableEntries :=
    table₁ ▸ (s.tbl.writes_tableEntries _).trans entries
  -- the second rule is deleted as if its row had no predecessor
  have live_b₁ := (removed.live_iff _).mpr ⟨live_b, apart⟩
  have row_b : indexOf t₁ (t.dstSlot b) = x := (remembered _ live_b apart).trans index_b
  have id_b : t₁.ruleId (hb - 1) = idOfSlot t₁.tableEntries (t.dstSlot b) := by
    rw [removed.ids, Function.update_of_ne (by omega), idB, entries, entries₁]
  have second : t₁.index x = { tblEntry := t.dstSlot b } := by
    rw [index₁ x (by rw [row_a]; omega) (fun le => by rw [row_a, entries] at le; omega), pair.second]
  have back : t₁.prevIndexMeta (x - t₁.tableEntries) = t.srcSlot a := by
    rw [backs₁, entries₁, pair.back]
  obtain ⟨index₂, _, _⟩ := ok₁.del_last hb live_b₁ (by rw [row_b, second]) (fun _ => by rw [row_b, back]; omega)
  have step_b := ok₁.del_step live_b₁ pos_b id_b
  refine ⟨_, .cons trivial step_a (.cons trivial (step_b _) (.nil _)), ?_, ?_⟩
  · rw [pair.held]
    simp [handles]
  · rw [index₂ _ (by rw [row_b]; omega) (fun _ => by rw [row_b, back]; omega),
      index₁ _ (by rw [row_a]; omega) (fun le => by rw [row_a, entries] at le; omega), pair.stray]

/-- The two sample rules are such a pair in a table of 32768 base rows. -/
theorem stray_pair_sample :
    ∃ s ha hb x, StrayPair (createTable 40000) sampleRule sampleClash s ha hb x :=
  stray_pair (createTable_created (by decide)) rfl (by decide) (by decide) (by decide) (by decide)
    (by decide) (by decide)

end Hima.Ipanat
