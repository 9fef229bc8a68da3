import Hima.Ipanat.AddInvariant
import Hima.Ipanat.DelInvariant

/-!
# The table invariant over one call

`RulesOk` is the part of the invariant that holds of every table; `TableOk` adds the index
table, which stays in order as long as the add path can address the index rows it links.
-/
namespace Hima.Ipanat

open Chains IpaNatIp4TableCache

variable {t : IpaNatIp4TableCache} {chain ichain : Nat → List Nat} {s : Nat}

/-- The rule table is in order, and `rule_id_array` stands for its live rows. -/
structure RulesOk (t : IpaNatIp4TableCache) (chain : Nat → List Nat) : Prop where
  sized : WellSized t
  rows : RuleInv t.tableEntries t.expnTableEntries t.dstSlot t.rules chain
  heads : NoIdleHead t.tableEntries t.rules chain
  ids : IdsInv t.tableEntries t.expnTableEntries t.rules t.ruleId

/-- Both tables are in order and name each other's rows, and rows that are off are clear. -/
structure TableOk (t : IpaNatIp4TableCache) (chain ichain : Nat → List Nat) : Prop extends RulesOk t chain where
  index : IndexInv t.tableEntries t.expnTableEntries t.index t.prevIndexMeta ichain
  cross : CrossInv t.srcSlot t.rules t.index ichain
  off : ∀ s, (t.rules s).enable = false → t.rules s = {}

theorem RulesOk.live_slot (h : RulesOk t chain) {s : Nat} (live : Live t.rules s) :
    s ≠ 0 ∧ s ≠ t.tableEntries ∧ s < t.tableEntries + t.expnTableEntries :=
  ⟨h.rows.live_ne_zero live, h.rows.live_range live⟩

theorem RulesOk.idsOk (h : RulesOk t chain) : IdsOk t :=
  ⟨h.sized, fun _ live => h.live_slot live, h.ids⟩

/-! ### Adding a rule -/

/-- The index link of an add reaches its row: the link is written to a base row only when that
row is the last of its bucket. -/
def IndexLinkFits (t : IpaNatIp4TableCache) (c : IpaNatIpv4Rule) : Prop :=
  (t.index (t.srcSlot c)).tblEntry = 0 ∨ (t.index (t.srcSlot c)).nextIndex ≠ 0 ∨
    t.srcSlot c < 16384

instance (t : IpaNatIp4TableCache) (c : IpaNatIpv4Rule) : Decidable (IndexLinkFits t c) :=
  inferInstanceAs (Decidable (_ ∨ _ ∨ _))

/-- Every add fits in a table of at most 16384 base rows. -/
theorem indexLinkFits_of_le (sized : WellSized t) (small : t.tableEntries ≤ 16384)
    (c : IpaNatIpv4Rule) : IndexLinkFits t c :=
  Or.inr (Or.inr (Nat.lt_of_lt_of_le (sized.srcSlot_bounds c).2 small))

theorem IndexLinkFits.slot {c : IpaNatIpv4Rule} {x q : Nat} (fits : IndexLinkFits t c) (sized : WellSized t)
    (inv : IndexInv t.tableEntries t.expnTableEntries t.index t.prevIndexMeta ichain)
    (place : IndexPlace t.tableEntries t.expnTableEntries t.index ichain (t.srcSlot c) x q) :
    indexLinkSlot t.tableEntries q = q := by
  have bounds := sized.srcSlot_bounds c
  unfold indexLinkSlot
  split
  next => rfl
  next base =>
    apply Nat.mod_eq_of_lt
    cases place with
    | base => omega
    | expn used range _ =>
      rcases getLastD_cases (ichain (t.srcSlot c)) (t.srcSlot c) with eq | member
      · rw [eq]
        rcases fits with unused | linked | small
        · exact absurd unused used
        · -- a bucket with more rows ends in an expansion row
          have nonempty := (not_congr (inv.nextIndex_eq_zero_iff bounds.2)).mp linked
          have := inv.range bounds.2 (getLastD_mem nonempty (t.srcSlot c))
          omega
        · exact small
      · have := inv.range bounds.2 member
        omega

theorem writes_added (sized : WellSized t) (o : AddOutcomes) (c : IpaNatIpv4Rule) (e p x q i : Nat) :
    let u := t.writes (addStores o t c e p x q)
    let t' := t.writes (addStores o t c e p x q ++
      [.dma (enableCmd t e), .ruleId i (idOfSlot t.tableEntries e)])
    t'.rules = Function.update u.rules e ((u.rules e).setFlags true) ∧
      t'.index = u.index ∧ t'.prevIndexMeta = u.prevIndexMeta ∧
      t'.ruleId = Function.update t.ruleId i (idOfSlot t.tableEntries e) := by
  intro u t'
  have effect : t' = (u.write (.dma (enableCmd t e))).write
      (.ruleId i (idOfSlot t.tableEntries e)) := writes_append ..
  rw [dma_enableCmd (t.writes_tableEntries _) sized.offset, write_ruleId] at effect
  rw [effect]
  refine ⟨rfl, rfl, rfl, ?_⟩
  simp only [addStores_ruleId]

theorem ruleStored_of_posted (sized : WellSized t) {o : AddOutcomes} {e p x q : Nat}
    (posted : p ≠ 0 → o.natNext = .posted) (c : IpaNatIpv4Rule) (ne : p ≠ 0 → p ≠ e) :
    RuleAdded t.rules (t.writes (addStores o t c e p x q)).rules (newRow t c p x) e p := by
  rw [addStores_rules sized.offset]
  by_cases first : p = 0
  · rw [if_pos (Or.inl first)]
    refine ⟨Function.update_self .., fun behind => absurd first behind, fun r ne_e _ => ?_⟩
    rw [Function.update_of_ne ne_e]
  · have ne := ne first
    rw [if_neg (fun h => h.elim first (fun h => h (posted first)))]
    refine ⟨?_, fun _ => ?_, fun r ne_e ne_p => ?_⟩
    · rw [Function.update_of_ne ne.symm, Function.update_self]
    · rw [Function.update_self, Function.update_of_ne ne]
    · rw [Function.update_of_ne (ne_p first), Function.update_of_ne ne_e]

theorem ruleAdded_of_posted (sized : WellSized t) {o : AddOutcomes} {e p x q : Nat}
    (posted : p ≠ 0 → o.natNext = .posted) (c : IpaNatIpv4Rule) (ne : p ≠ 0 → p ≠ e) :
    RuleAdded t.rules (Function.update (t.writes (addStores o t c e p x q)).rules e
        (((t.writes (addStores o t c e p x q)).rules e).setFlags true))
      ((newRow t c p x).setFlags true) e p := by
  have stored := ruleStored_of_posted (x := x) (q := q) sized posted c ne
  refine ⟨?_, fun behind => ?_, fun r ne_e ne_p => ?_⟩
  · rw [Function.update_self, stored.new]
  · rw [Function.update_of_ne (ne behind), stored.link behind]
  · rw [Function.update_of_ne ne_e, stored.other r ne_e ne_p]

theorem indexAdded_of_posted (sized : WellSized t) {o : AddOutcomes} {e p x q : Nat}
    (posted : q ≠ 0 → o.indexNext = .posted) (c : IpaNatIpv4Rule)
    (hq : q < t.tableEntries + t.expnTableEntries) (fits : indexLinkSlot t.tableEntries q = q)
    (ne : q ≠ 0 → q ≠ x) :
    IndexAdded t.index (t.writes (addStores o t c e p x q)).index { tblEntry := e } x q := by
  rw [addStores_index sized o c hq, fits]
  by_cases first : q = 0
  · rw [if_pos (Or.inl first)]
    refine ⟨Function.update_self .., fun behind => absurd first behind, fun y ne_x _ => ?_⟩
    rw [Function.update_of_ne ne_x]
  · have ne := ne first
    rw [if_neg (fun h => h.elim first (fun h => h (posted first)))]
    refine ⟨?_, fun _ => ?_, fun y ne_x ne_q => ?_⟩
    · rw [Function.update_of_ne ne.symm, Function.update_self]
    · rw [Function.update_self, Function.update_of_ne ne]
    · rw [Function.update_of_ne (ne_q first), Function.update_of_ne ne_x]

/-- What of a rule row a new row leaves as it was. -/
theorem RuleAdded.kept {rules rules' : Nat → IpaNatRule} {row : IpaNatRule} {e p r : Nat}
    (h : RuleAdded rules rules' row e p) (ne : r ≠ e) :
    (rules' r).enable = (rules r).enable ∧ (rules' r).protocol = (rules r).protocol ∧
      (rules' r).client = (rules r).client ∧ (rules' r).indxTblEntry = (rules r).indxTblEntry := by
  by_cases pred : p ≠ 0 ∧ r = p
  · rw [pred.2, h.link pred.1]
    exact ⟨rfl, rfl, rfl, rfl⟩
  · rw [h.other r ne (fun linked eq => pred ⟨linked, eq⟩)]
    exact ⟨rfl, rfl, rfl, rfl⟩

theorem IndexAdded.kept {index index' : Nat → IpaNatIndxTblRule} {row : IpaNatIndxTblRule}
    {x q y : Nat} (h : IndexAdded index index' row x q) (ne : y ≠ x) :
    (index' y).tblEntry = (index y).tblEntry := by
  by_cases pred : q ≠ 0 ∧ y = q
  · rw [pred.2, h.link pred.1]
    rfl
  · rw [h.other y ne (fun linked eq => pred ⟨linked, eq⟩)]

/-- What a successful add of `c` to slot `e` has done, seen from the rules. -/
structure Added (t t' : IpaNatIp4TableCache) (c : IpaNatIpv4Rule) (e i : Nat) : Prop where
  free : ¬Live t.rules e
  live_iff : ∀ s, Live t'.rules s ↔ Live t.rules s ∨ s = e
  client : (t'.rules e).client = c
  kept : ∀ s, s ≠ e → (t'.rules s).client = (t.rules s).client
  unused : t.ruleId i = 0
  ids : t'.ruleId = Function.update t.ruleId i (idOfSlot t.tableEntries e)

variable {o : AddOutcomes} {c : IpaNatIpv4Rule}

theorem RulesOk.pred_ne (h : RulesOk t chain) {e p : Nat}
    (place : RulePlace t.tableEntries t.expnTableEntries t.rules chain (t.dstSlot c) e p)
    (behind : p ≠ 0) : p ≠ e := by
  rintro rfl
  have on := (h.rows.place_pred (h.sized.dstSlot_bounds c).2 place behind).1
  rw [place.free] at on
  cases on

theorem RulesOk.place_slot (h : RulesOk t chain) {e p : Nat}
    (place : RulePlace t.tableEntries t.expnTableEntries t.rules chain (t.dstSlot c) e p) :
    e ≠ 0 ∧ e ≠ t.tableEntries ∧ e < t.tableEntries + t.expnTableEntries := by
  have bounds := h.sized.dstSlot_bounds c
  cases place with
  | base => omega
  | expn _ range _ => omega

/-- The rule table after an add that was enabled and linked. -/
theorem RulesOk.added (h : RulesOk t chain) (proto : c.protocol ≠ ipaNatInvalidProtoFieldCmp)
    {e p x q i : Nat} (linked : p ≠ 0 → o.natNext = .posted)
    (place : RulePlace t.tableEntries t.expnTableEntries t.rules chain (t.dstSlot c) e p)
    (unused : t.ruleId i = 0) (first : ∀ j < i, t.ruleId j ≠ 0) :
    let t' := t.writes (addStores o t c e p x q ++
      [.dma (enableCmd t e), .ruleId i (idOfSlot t.tableEntries e)])
    RulesOk t' (grow t.tableEntries chain (t.dstSlot c) e) ∧ Added t t' c e i := by
  intro t'
  have entries := h.sized.entriesLe
  have expn := h.sized.expnLe
  have two := h.sized.twoEntries
  have twoExpn := h.sized.twoExpn
  have slot := h.place_slot place
  have added := ruleAdded_of_posted (q := q) (x := x) h.sized linked c (h.pred_ne place)
  obtain ⟨rules, _, _, ids⟩ := writes_added h.sized o c e p x q i
  rw [← rules] at added
  have free : ¬Live t.rules e := fun alive => by
    rw [Live, place.free] at alive
    exact Bool.false_ne_true alive.1
  have live : Live t'.rules e := by
    rw [Live, added.new]
    exact ⟨rfl, proto⟩
  have kept : ∀ s, s ≠ e → (Live t'.rules s ↔ Live t.rules s) :=
    fun s ne => live_congr (added.kept ne).1 (added.kept ne).2.1
  have client : (t'.rules e).client = c := by
    rw [added.new]
    rfl
  have range : ∀ s, Live t.rules s → s ≠ 0 ∧ s < t.tableEntries + t.expnTableEntries :=
    fun s alive => ⟨(h.live_slot alive).1, (h.live_slot alive).2.2⟩
  -- a handle is left, as fewer rules are live than there are slots
  have inside := h.ids.first_unused (by omega) (by omega) (fun s alive => h.live_slot alive) free
    slot ⟨by omega, by omega⟩ first
  refine ⟨⟨h.sized.writes _, ?_, ?_, ?_⟩, ⟨free, fun s => ?_, client,
    fun s ne => (added.kept ne).2.2.1, unused, ids⟩⟩
  · have rows := h.rows.add (h.sized.dstSlot_bounds c) place added ⟨rfl, proto⟩ rfl rfl rfl
    simp only [t', writes_tableEntries, writes_expnTableEntries, dstSlot_writes]
    exact rows
  · simp only [t', writes_tableEntries]
    exact h.heads.add (fun s ne => (added.kept ne).2.1) live.2
  · rw [ids]
    simp only [t', writes_tableEntries, writes_expnTableEntries]
    exact h.ids.add (by omega) (by omega) range free ⟨slot.1, slot.2.2⟩ inside unused kept live
  · by_cases eq : s = e
    · exact iff_of_true (eq ▸ live) (Or.inr eq)
    · rw [kept s eq]
      exact ⟨Or.inl, fun alive => alive.elim id (fun same => absurd same eq)⟩

theorem RulesOk.not_full (h : RulesOk t chain) {e p : Nat}
    (place : RulePlace t.tableEntries t.expnTableEntries t.rules chain (t.dstSlot c) e p) :
    ¬∀ i < t.tableEntries + t.expnTableEntries, t.ruleId i ≠ 0 := by
  intro full
  have entries := h.sized.entriesLe
  have expn := h.sized.expnLe
  have two := h.sized.twoEntries
  have twoExpn := h.sized.twoExpn
  have free : ¬Live t.rules e := fun alive => by
    rw [Live, place.free] at alive
    exact Bool.false_ne_true alive.1
  have inside := h.ids.first_unused (by omega) (by omega) (fun s alive => h.live_slot alive) free
    (h.place_slot place) ⟨by omega, by omega⟩ full
  omega

/-- An add whose rule link and enable write are executed, on a table whose rules are in order:
it is refused without a trace, or the rule is in. -/
theorem RulesOk.add (h : RulesOk t chain) (proto : c.protocol ≠ ipaNatInvalidProtoFieldCmp)
    (linked : o.natNext = .posted) (enabled : o.enable = .posted) {r : AddResult}
    (returned : ipaNatiAddIpv4Rule o t c = some r) :
    r = { ret := -EINVAL } ∨
    ∃ e i, r.ret = 0 ∧ r.ruleHdl = i + 1 ∧
      RulesOk (t.writes r.writes) (grow t.tableEntries chain (t.dstSlot c) e) ∧
      Added t (t.writes r.writes) c e i := by
  rcases addIpv4Rule_cases h.sized h.rows returned with refused | ⟨e, p, x, q, place, ended⟩
  · exact Or.inl refused
  · right
    cases ended with
    | notEnabled failed => exact absurd enabled failed
    | noHandle _ full => exact absurd full (h.not_full place)
    | @added i _ _ unused first =>
      obtain ⟨ok, added⟩ := h.added proto (fun _ => linked) place unused first
      exact ⟨e, i, rfl, rfl, ok, added⟩

theorem TableOk.ipred_ne (h : TableOk t chain ichain) {x q : Nat}
    (place : IndexPlace t.tableEntries t.expnTableEntries t.index ichain (t.srcSlot c) x q)
    (behind : q ≠ 0) : q ≠ x := by
  rintro rfl
  exact (h.index.place_pred (h.sized.srcSlot_bounds c).2 place behind).1 place.free

theorem TableOk.ipred_lt (h : TableOk t chain ichain) {x q : Nat}
    (place : IndexPlace t.tableEntries t.expnTableEntries t.index ichain (t.srcSlot c) x q) :
    q < t.tableEntries + t.expnTableEntries := by
  have bounds := h.sized.srcSlot_bounds c
  cases place with
  | base => omega
  | expn =>
    rcases getLastD_cases (ichain (t.srcSlot c)) (t.srcSlot c) with eq | member
    · omega
    · exact (h.index.range bounds.2 member).2

/-- Both tables after an add that was enabled and linked. -/
theorem TableOk.added (h : TableOk t chain ichain)
    (proto : c.protocol ≠ ipaNatInvalidProtoFieldCmp) (fits : IndexLinkFits t c)
    {e p x q i : Nat} (linked : p ≠ 0 → o.natNext = .posted) (ilinked : q ≠ 0 → o.indexNext = .posted)
    (place : RulePlace t.tableEntries t.expnTableEntries t.rules chain (t.dstSlot c) e p)
    (iplace : IndexPlace t.tableEntries t.expnTableEntries t.index ichain (t.srcSlot c) x q)
    (unused : t.ruleId i = 0) (first : ∀ j < i, t.ruleId j ≠ 0) :
    let t' := t.writes (addStores o t c e p x q ++
      [.dma (enableCmd t e), .ruleId i (idOfSlot t.tableEntries e)])
    TableOk t' (grow t.tableEntries chain (t.dstSlot c) e)
      (grow t.tableEntries ichain (t.srcSlot c) x) ∧
      (t'.rules e).indxTblEntry = x ∧ (t'.index x).tblEntry = e := by
  intro t'
  obtain ⟨ok, rules_added⟩ := h.toRulesOk.added (x := x) (q := q) proto linked place unused first
  have slot := h.place_slot place
  have added := ruleAdded_of_posted (q := q) (x := x) h.sized linked c (h.pred_ne place)
  have iadded := indexAdded_of_posted (e := e) (p := p) h.sized ilinked c (h.ipred_lt iplace)
    (fits.slot h.sized h.index iplace) (h.ipred_ne iplace)
  obtain ⟨rules, index, backs, _⟩ := writes_added h.sized o c e p x q i
  rw [← rules] at added
  rw [← index] at iadded
  have entries : t'.tableEntries = t.tableEntries := t.writes_tableEntries _
  have src : t'.srcSlot = t.srcSlot := t.srcSlot_writes _
  -- the cross links hold of the old rules, and the new ones point at each other
  have zero : ¬Live t.rules 0 := fun alive => (h.live_slot alive).1 rfl
  have remembers : (t'.rules e).indxTblEntry = x := by
    rw [added.new]
    rfl
  have names : (t'.index x).tblEntry = e := by rw [iadded.new]
  refine ⟨⟨ok, ?_, ?_, fun s off => ?_⟩, remembers, names⟩
  · have rows := h.index.add (h.sized.srcSlot_bounds c) iplace iadded slot.1
    rw [entries, show t'.expnTableEntries = _ from t.writes_expnTableEntries _,
      show t'.prevIndexMeta = _ from backs.trans (addStores_prevMeta o c e p x q)]
    exact rows
  · rw [src]
    refine h.cross.add zero rules_added.free slot.1 iplace.free
      (fun s ne => ⟨live_congr (added.kept ne).1 (added.kept ne).2.1, (added.kept ne).2.2.2,
        (added.kept ne).2.2.1⟩) (fun y ne => iadded.kept ne) (fun b y => mem_grow_of_mem)
      ((rules_added.live_iff e).mpr (Or.inr rfl)) remembers names ?_
    rw [rules_added.client]
    exact iplace.mem_grow
  · have ne : s ≠ e := by
      rintro rfl
      rw [added.new] at off
      cases off
    have was := off
    rw [(added.kept ne).1] at was
    have same : t'.rules s = t.rules s := by
      refine added.other s ne (fun behind => ?_)
      rintro rfl
      have on := (h.rows.place_pred (h.sized.dstSlot_bounds c).2 place behind).1
      exact Bool.true_eq_false_eq_False (on.symm.trans was)
    rw [same]
    exact h.off s was

theorem RulePlace.enabled {N M b e p : Nat} {rules : Nat → IpaNatRule}
    (place : RulePlace N M rules chain b e p) (behind : p ≠ 0) : (rules b).enable = true := by
  cases place with
  | base => exact absurd rfl behind
  | expn on => exact on

theorem IndexPlace.occupied {N M b x q : Nat} {index : Nat → IpaNatIndxTblRule}
    (place : IndexPlace N M index chain b x q) (behind : q ≠ 0) : (index b).tblEntry ≠ 0 := by
  cases place with
  | base => exact absurd rfl behind
  | expn used => exact used

/-- The add leaves both tables in order with the rule in. -/
def AddsRule (t : IpaNatIp4TableCache) (chain ichain : Nat → List Nat) (o : AddOutcomes) (c : IpaNatIpv4Rule) : Prop :=
  ∃ r e x i, ipaNatiAddIpv4Rule o t c = some r ∧ r.ret = 0 ∧ r.ruleHdl = i + 1 ∧
    TableOk (t.writes r.writes) (grow t.tableEntries chain (t.dstSlot c) e)
      (grow t.tableEntries ichain (t.srcSlot c) x) ∧
    Added t (t.writes r.writes) c e i

/-- An add whose requests are executed, on a table that is in order. -/
theorem TableOk.add (h : TableOk t chain ichain)
    (proto : c.protocol ≠ ipaNatInvalidProtoFieldCmp) (fits : IndexLinkFits t c)
    (linked : (t.rules (t.dstSlot c)).enable = true → o.natNext = .posted)
    (ilinked : (t.index (t.srcSlot c)).tblEntry ≠ 0 → o.indexNext = .posted) (enabled : o.enable = .posted) :
    (ipaNatiAddIpv4Rule o t c = some { ret := -EINVAL } ∧
      (RulesFull t.tableEntries t.expnTableEntries t.rules (t.dstSlot c) ∨
        IndexFull t.tableEntries t.expnTableEntries t.index (t.srcSlot c))) ∨
    AddsRule t chain ichain o c := by
  rcases addIpv4Rule_spec h.sized h.rows h.index o c with refused |
    ⟨r, e, p, x, q, returned, place, iplace, ended⟩
  · exact Or.inl refused
  · right
    refine ⟨r, e, x, ?_⟩
    cases ended with
    | notEnabled failed => exact absurd enabled failed
    | noHandle _ full => exact absurd full (h.not_full place)
    | @added i _ _ unused first =>
      have linked : p ≠ 0 → o.natNext = .posted := fun behind => linked (place.enabled behind)
      have ilinked : q ≠ 0 → o.indexNext = .posted := fun behind => ilinked (iplace.occupied behind)
      obtain ⟨_, added⟩ := h.toRulesOk.added (x := x) (q := q) proto linked place unused first
      obtain ⟨ok, _⟩ := h.added proto fits linked ilinked place iplace unused first
      exact ⟨i, returned, rfl, rfl, ok, added⟩

/-! ### Deleting a rule -/

/-- What a successful delete of the rule in slot `s` has done, seen from the rules. -/
structure Removed (t t' : IpaNatIp4TableCache) (s h : Nat) : Prop where
  live_iff : ∀ r, Live t'.rules r ↔ Live t.rules r ∧ r ≠ s
  kept : ∀ r, Live t.rules r → r ≠ s → (t'.rules r).client = (t.rules r).client
  ids : t'.ruleId = Function.update t.ruleId (h - 1) 0

theorem writes_delWrites (malloc : Bool) (t : IpaNatIp4TableCache) (s hdl : Nat) :
    let u := t.writes (delStores malloc t s (indexOf t s))
    let t' := t.writes (delWrites malloc t s hdl)
    t'.rules = sweep t.tableEntries u.rules ∧ t'.index = u.index ∧
      t'.prevIndexMeta = u.prevIndexMeta ∧
      t'.ruleId = Function.update t.ruleId (hdl - 1) 0 := by
  intro u t'
  have effect : t' = (u.writes (ipaNatiDelDeadIpv4HeadNodes u)).write
      (.ruleId (hdl - 1) ipaNatInvalidNatEntry) := by
    simp only [t', delWrites, writes_append]
    rfl
  rw [writes_delDeadIpv4HeadNodes, write_ruleId] at effect
  rw [effect]
  refine ⟨?_, rfl, rfl, ?_⟩
  · funext r
    simp only [sweep, u, writes_tableEntries]
  · simp only [u, delStores_ruleId]
    rfl

/-- The rule rows between the index stores and the scan for dead heads differ from those after
the rule stores in the remembered index entries only. -/
theorem delStores_forgetIndex (malloc : Bool) (t : IpaNatIp4TableCache) (s x r : Nat) :
    ((t.writes (delStores malloc t s x)).rules r).forgetIndex =
      ((t.writes (postedOf malloc t s x ++ ruleStoresOf malloc t s x)).rules r).forgetIndex := by
  rw [delStores, writes_append]
  exact delIndexStores_rules _ _ _ _ _

/-- Whatever the links of the tables are, a delete takes out its rule and no other. -/
theorem delWrites_removed (offset : t.tblAddrOffset = 0) (malloc : Bool) (s hdl : Nat) :
    Removed t (t.writes (delWrites malloc t s hdl)) s hdl := by
  obtain ⟨rules, _, _, ids⟩ := writes_delWrites malloc t s hdl
  obtain ⟨others, gone⟩ := ruleStores_same malloc offset s (indexOf t s)
  have row := fun r => row_eq_of_forgetIndex (delStores_forgetIndex malloc t s (indexOf t s) r)
  have live_iff : ∀ r, Live (t.writes (delWrites malloc t s hdl)).rules r ↔ Live t.rules r ∧ r ≠ s := by
    intro r
    rw [rules, live_sweep, live_congr (row r).2.2.1 (row r).2.2.2.1]
    by_cases eq : r = s
    · subst eq
      exact iff_of_false gone (fun alive => alive.2 rfl)
    · rw [others.live_iff eq]
      exact ⟨fun alive => ⟨alive, eq⟩, And.left⟩
  refine ⟨live_iff, fun r was ne => ?_, ids⟩
  -- the scan for dead heads leaves a live row alone
  have still := (live_iff r).mpr ⟨was, ne⟩
  rw [rules, live_sweep] at still
  rw [rules, sweep_live still, (row r).2.2.2.2]
  exact (others r ne).2.2

theorem IdsOk.del (ok : IdsOk t) (live : Live t.rules s) {hdl : Nat}
    (id : t.ruleId (hdl - 1) = idOfSlot t.tableEntries s) (malloc : Bool) :
    IdsOk (t.writes (delWrites malloc t s hdl)) := by
  have entries := ok.sized.entriesLe
  have expn := ok.sized.expnLe
  have removed := delWrites_removed ok.sized.offset malloc s hdl
  have range : ∀ r, Live t.rules r → r ≠ 0 ∧ r < t.tableEntries + t.expnTableEntries :=
    fun r alive => ⟨(ok.live_slot r alive).1, (ok.live_slot r alive).2.2⟩
  refine ⟨ok.sized.writes _, fun r alive => ?_, ?_⟩
  · rw [t.writes_tableEntries, t.writes_expnTableEntries]
    exact ok.live_slot r ((removed.live_iff r).mp alive).1
  · rw [removed.ids, t.writes_tableEntries, t.writes_expnTableEntries]
    exact ok.ids.remove (by omega) (by omega) range live id removed.live_iff

theorem RulesOk.del (h : RulesOk t chain) (live : Live t.rules s) {hdl : Nat}
    (id : t.ruleId (hdl - 1) = idOfSlot t.tableEntries s) (malloc : Bool) :
    ∃ chain', RulesOk (t.writes (delWrites malloc t s hdl)) chain' ∧
      Removed t (t.writes (delWrites malloc t s hdl)) s hdl := by
  obtain ⟨chain', rows, _, _⟩ := h.rows.ruleStores h.sized live malloc (indexOf t s)
  obtain ⟨rules, _, _, _⟩ := writes_delWrites malloc t s hdl
  have rows' := (rows.congr (delStores_forgetIndex malloc t s (indexOf t s))).sweep
  have ids := h.idsOk.del live id malloc
  refine ⟨chain', ⟨ids.sized, ?_, ?_, ids.ids⟩, delWrites_removed h.sized.offset malloc s hdl⟩
  · rw [rules, t.writes_tableEntries, t.writes_expnTableEntries, t.dstSlot_writes]
    exact rows'.1
  · rw [rules, t.writes_tableEntries]
    exact rows'.2

/-- The facts about the index table under which the stores of a delete were described. -/
theorem TableOk.indexStores (h : TableOk t chain ichain) (live : Live t.rules s) (malloc : Bool) :
    IndexRemoved t.tableEntries t.index t.prevIndexMeta
      (t.writes (postedOf malloc t s (indexOf t s) ++ ruleStoresOf malloc t s (indexOf t s))).rules
      (indexOf t s) (t.writes (delStores malloc t s (indexOf t s))).index
      (t.writes (delStores malloc t s (indexOf t s))).prevIndexMeta
      (t.writes (delStores malloc t s (indexOf t s))).rules := by
  have entries := h.sized.entriesLe
  have expn := h.sized.expnLe
  have named := (h.cross.named s live).1
  have used : (t.index (indexOf t s)).tblEntry ≠ 0 := by
    rw [indexOf, named]
    exact (h.live_slot live).1
  refine indexStores_spec malloc h.sized.offset s (indexOf t s) (fun linked => ?_)
    (fun base linked linked' => ?_) (fun le same => ?_)
  · obtain ⟨b, hb, _, member, ne⟩ := h.index.next_of_used used linked
    have range := h.index.range hb member
    exact ⟨range.1, by omega, ne⟩
  · obtain ⟨b, hb, _, member, _⟩ := h.index.next_of_used used linked
    obtain ⟨b', hb', _, member', _⟩ :=
      h.index.next_of_used (h.index.table.chainUsed b hb _ member) linked'
    exact Nat.le_of_lt (h.index.range hb' member').1
  · -- a row does not stand in front of itself
    obtain ⟨b, hb, member⟩ := h.index.table.onChain _ (Nat.not_lt.mpr le) used
    obtain ⟨l, m, at_x⟩ := List.append_of_mem member
    have back := h.index.table.backward b hb
    rw [at_x, backLinked_split] at back
    exact (h.index.table.forward.around hb at_x).1 (back.2.1.symm.trans same)

theorem TableOk.del (h : TableOk t chain ichain) (live : Live t.rules s) {hdl : Nat}
    (id : t.ruleId (hdl - 1) = idOfSlot t.tableEntries s) (malloc : Bool) :
    ∃ chain' ichain', TableOk (t.writes (delWrites malloc t s hdl)) chain' ichain' ∧
      Removed t (t.writes (delWrites malloc t s hdl)) s hdl := by
  obtain ⟨chain', ok, removed⟩ := h.toRulesOk.del live id malloc
  obtain ⟨_, _, _, rows⟩ := h.rows.ruleStores h.sized live malloc (indexOf t s)
  obtain ⟨rules, index, backs, _⟩ := writes_delWrites malloc t s hdl
  have stores := h.indexStores live malloc
  have used : (t.index (indexOf t s)).tblEntry ≠ 0 := by
    rw [indexOf, (h.cross.named s live).1]
    exact (h.live_slot live).1
  obtain ⟨ichain', y, iinv, shrunk, cleared, other, place⟩ := h.index.remove used stores
  generalize (t.writes (postedOf malloc t s (indexOf t s) ++
    ruleStoresOf malloc t s (indexOf t s))).rules = rules₁ at rows place
  generalize (t.writes (delStores malloc t s (indexOf t s))).rules = rules₂ at rules place
  have bucket : ∀ c, t.srcSlot c < t.tableEntries := fun c => (h.sized.srcSlot_bounds c).2
  -- a live row is the same before and after the scan for dead heads
  have swept : ∀ r, Live t.rules r → r ≠ s → (t.writes (delWrites malloc t s hdl)).rules r = rules₂ r := by
    intro r was ne
    have still := (removed.live_iff r).mpr ⟨was, ne⟩
    rw [rules, live_sweep] at still
    rw [rules, sweep_live still]
  refine ⟨chain', ichain', ⟨ok, ?_, ?_, fun r off => ?_⟩, removed⟩
  · rw [index, backs, t.writes_tableEntries, t.writes_expnTableEntries]
    exact iinv
  · rw [index, t.srcSlot_writes]
    rcases place with ⟨rfl, same⟩ | ⟨base, member, ne, y_used, taken, same⟩
    · refine h.cross.remove bucket live removed.live_iff (fun r was ne => ?_) shrunk cleared
        (fun z ne => other z ne ne)
      rw [swept r was ne, same]
      exact (rows.kept r ne).2.2
    · obtain ⟨m_live, m_owns⟩ := h.cross.owner y y_used
      have m_ne : (t.index y).tblEntry ≠ s := by
        intro eq
        rw [eq] at m_owns
        exact ne m_owns.symm
      refine h.cross.removeHead bucket h.index live rfl base member ne y_used removed.live_iff
        (fun r was ne_s => ⟨removed.kept r was ne_s, fun ne_m => ?_⟩) ?_ shrunk cleared taken other
      · rw [swept r was ne_s, same, Function.update_of_ne ne_m]
        exact (rows.kept r ne_s).2.2.2
      · rw [swept _ m_live m_ne, same, Function.update_self]
        rfl
  · have clear : ∀ r, (rules₁ r).enable = false → rules₁ r = {} := by
      intro r off
      by_cases eq : r = s
      · rw [eq] at off ⊢
        exact rows.cleared off
      · rw [(rows.kept r eq).1] at off
        rw [rows.off r eq off]
        exact h.off r off
    rw [rules] at off ⊢
    by_cases idle : IdleHead t.tableEntries rules₂ r
    · exact if_pos idle
    · rw [sweep, if_neg idle] at off ⊢
      rcases place with ⟨_, same⟩ | ⟨_, _, ne, y_used, _, same⟩
      · rw [same] at off ⊢
        exact clear r off
      · obtain ⟨m_live, m_owns⟩ := h.cross.owner y y_used
        have ne_m : r ≠ (t.index y).tblEntry := by
          rintro rfl
          have m_ne : (t.index y).tblEntry ≠ s := by
            intro eq
            rw [eq] at m_owns
            exact ne m_owns.symm
          rw [same, Function.update_self] at off
          have on := (rows.kept _ m_ne).1.trans m_live.1
          exact Bool.true_eq_false_eq_False (on.symm.trans off)
        rw [same, Function.update_of_ne ne_m] at off ⊢
        exact clear r off

end Hima.Ipanat
