import Hima.Ipanat.DelStep

/-!
# What a delete preserves

The invariants of the four tables after the stores of a delete.
-/
namespace Hima.Ipanat

open Chains Function IpaNatIp4TableCache

variable {N M : Nat} {home : IpaNatIpv4Rule → Nat} {rules rules' : Nat → IpaNatRule}
  {index index' : Nat → IpaNatIndxTblRule} {prevMeta prevMeta' ruleId : Nat → Nat}
  {chain chain' ichain ichain' : Nat → List Nat} {s : Nat} {t : IpaNatIp4TableCache}

/-! ### Rows of one rule -/

/-- Two rows for the same rule, in the same state: what may differ are links and bookkeeping. -/
def SameRule (r r' : IpaNatRule) : Prop :=
  r'.enable = r.enable ∧ r'.protocol = r.protocol ∧ r'.client = r.client

theorem SameRule.updatePrevIndex (r : IpaNatRule) (value : Nat) :
    SameRule r (r.updatePrevIndex value) := ⟨rfl, rfl, rfl⟩

/-- Every row but row `s` is for the rule it was for. -/
def SameElsewhere (s : Nat) (rules rules' : Nat → IpaNatRule) : Prop :=
  ∀ r, r ≠ s → SameRule (rules r) (rules' r)

theorem SameElsewhere.refl (s : Nat) (rules : Nat → IpaNatRule) : SameElsewhere s rules rules :=
  fun _ _ => ⟨rfl, rfl, rfl⟩

theorem SameElsewhere.live_iff (h : SameElsewhere s rules rules') {r : Nat} (ne : r ≠ s) :
    Live rules' r ↔ Live rules r :=
  live_congr (h r ne).1 (h r ne).2.1

theorem SameElsewhere.here (h : SameElsewhere s rules rules') (row : IpaNatRule) :
    SameElsewhere s rules (update rules' s row) := by
  intro r ne
  rw [update_of_ne ne]
  exact h r ne

/-- A store into any row, that keeps its rule. -/
theorem SameElsewhere.store (h : SameElsewhere s rules rules') {p : Nat} {row : IpaNatRule}
    (same : SameRule (rules' p) row) : SameElsewhere s rules (update rules' p row) := by
  intro r ne
  by_cases eq : r = p
  · subst eq
    rw [update_self]
    obtain ⟨enable, protocol, client⟩ := h r ne
    exact ⟨same.1.trans enable, same.2.1.trans protocol, same.2.2.trans client⟩
  · rw [update_of_ne eq]
    exact h r ne

/-- Whatever the links of the tables are, the first stores of a delete take the rule out and keep
the others. -/
theorem ruleStores_same (malloc : Bool) (offset : t.tblAddrOffset = 0) (s x : Nat) :
    SameElsewhere s t.rules (t.writes (postedOf malloc t s x ++ ruleStoresOf malloc t s x)).rules ∧
      ¬Live (t.writes (postedOf malloc t s x ++ ruleStoresOf malloc t s x)).rules s := by
  have start := SameElsewhere.refl s t.rules
  have cleared : ∀ rules : Nat → IpaNatRule, ¬Live (update rules s {}) s := by
    intro rules live
    rw [Live, update_self] at live
    exact Bool.false_ne_true live.1
  by_cases base : s < t.tableEntries
  · by_cases alone : (t.rules s).nextIndex = 0
    · rw [ruleStores_onlyOne malloc offset x base alone]
      exact ⟨start.here _, cleared _⟩
    · rw [ruleStores_head malloc offset x base alone]
      refine ⟨start.here _, fun live => ?_⟩
      rw [Live, update_self] at live
      exact live.2 rfl
  · -- the row before it gets its link; the row it links to, if there is one, its back link
    have expn := Nat.not_lt.mp base
    have posted : (t.writes (postedOf malloc t s x)).rules = update t.rules (t.rules s).prevIndex
          ((t.rules (t.rules s).prevIndex).setNext (t.rules s).nextIndex) := by
      rw [postedOf_rules, ruleCmdOf_expn expn, dma_ruleNextCmd rfl offset]
    have linked : SameElsewhere s t.rules (t.writes (postedOf malloc t s x)).rules := by
      rw [posted]
      exact start.store ⟨rfl, rfl, rfl⟩
    rw [writes_append, ruleStoresOf, delRuleStores_slot (t.writes_tableEntries _), rulePosOf_expn expn]
    generalize t.writes (postedOf malloc t s x) = u at linked
    split
    · simp only [reduceCtorEq, if_false, List.nil_append, writes_cons, writes_nil, write_rule]
      exact ⟨linked.here _, cleared _⟩
    · simp only [reduceCtorEq, if_true, if_false, List.singleton_append, writes_cons, writes_nil, write_rule]
      refine ⟨SameElsewhere.here (linked.store ?_) _, cleared _⟩
      exact SameRule.updatePrevIndex _ _

/-- The rule in slot `s` is gone; of the other rows at most the links have changed, and rows
that were off are as they were. -/
structure RowRemoved (rules rules' : Nat → IpaNatRule) (s : Nat) : Prop where
  gone : ¬Live rules' s
  cleared : (rules' s).enable = false → rules' s = {}
  kept : ∀ r, r ≠ s → (rules' r).enable = (rules r).enable ∧
    (rules' r).protocol = (rules r).protocol ∧ (rules' r).client = (rules r).client ∧
    (rules' r).indxTblEntry = (rules r).indxTblEntry
  off : ∀ r, r ≠ s → (rules r).enable = false → rules' r = rules r

theorem RowRemoved.live_iff (h : RowRemoved rules rules' s) (r : Nat) :
    Live rules' r ↔ Live rules r ∧ r ≠ s := by
  by_cases eq : r = s
  · subst eq
    exact iff_of_false h.gone (fun alive => alive.2 rfl)
  · obtain ⟨enable, protocol, _, _⟩ := h.kept r eq
    rw [live_congr enable protocol]
    exact ⟨fun alive => ⟨alive, eq⟩, And.left⟩

/-- The chains without row `s`. -/
def Shrunk (N : Nat) (chain chain' : Nat → List Nat) (s : Nat) : Prop :=
  ∀ b < N, ∀ y, y ∈ chain' b ↔ y ∈ chain b ∧ y ≠ s

theorem RuleInv.ruleStores (sized : WellSized t)
    (h : RuleInv t.tableEntries t.expnTableEntries home t.rules chain) (live : Live t.rules s)
    (malloc : Bool) (x : Nat) :
    ∃ chain', RuleInv t.tableEntries t.expnTableEntries home
        (t.writes (postedOf malloc t s x ++ ruleStoresOf malloc t s x)).rules chain' ∧
      Shrunk t.tableEntries chain chain' s ∧
      RowRemoved t.rules (t.writes (postedOf malloc t s x ++ ruleStoresOf malloc t s x)).rules s := by
  have entries := sized.entriesLe
  have expn_le := sized.expnLe
  by_cases base : s < t.tableEntries
  · -- a base row is on no chain
    have off_chain : ∀ b < t.tableEntries, ∀ y, y ∈ chain b ↔ y ∈ chain b ∧ y ≠ s := by
      intro b hb y
      refine ⟨fun hy => ⟨hy, ?_⟩, And.left⟩
      rintro rfl
      exact h.table.forward.offBase b hb y hy base
    by_cases alone : (t.rules s).nextIndex = 0
    · -- the only row of its bucket is cleared
      rw [ruleStores_onlyOne malloc sized.offset x base alone]
      have other : ∀ r, r ≠ s → update t.rules s {} r = t.rules r :=
        fun r ne => update_of_ne ne {} t.rules
      refine ⟨chain, h.clearHeads (fun r => ?_), off_chain, ?_⟩
      · by_cases eq : r = s
        · right
          subst eq
          exact ⟨base, (h.nextIndex_eq_zero_iff base).mp alone, update_self ..⟩
        · exact Or.inl (other r eq)
      · refine ⟨?_, fun _ => update_self .., fun r ne => ?_, fun r ne _ => other r ne⟩
        · rw [Live, update_self]
          exact fun alive => Bool.false_ne_true alive.1
        · rw [other r ne]
          exact ⟨rfl, rfl, rfl, rfl⟩
    · -- a head with rows behind it stays as a dead row, so that they can be found
      rw [ruleStores_head malloc sized.offset x base alone]
      have row : update t.rules s (t.rules s).setDead s = (t.rules s).setDead :=
        update_self ..
      have other : ∀ r, r ≠ s → update t.rules s (t.rules s).setDead r = t.rules r :=
        fun r ne => update_of_ne ne _ t.rules
      refine ⟨chain, h.markDead base live.1 ?_ ?_ ?_ other, off_chain, ?_⟩
      · rw [row]
        rfl
      · rw [row]
        exact live.1
      · rw [row]
        rfl
      · refine ⟨?_, fun off => ?_, fun r ne => ?_, fun r ne _ => other r ne⟩
        · rw [Live, row]
          exact fun alive => alive.2 rfl
        · rw [row] at off
          exact absurd (live.1.symm.trans off) Bool.true_eq_false_eq_False
        · rw [other r ne]
          exact ⟨rfl, rfl, rfl, rfl⟩
  · -- an expansion row is bypassed and cleared
    obtain ⟨b, hb, member⟩ := h.table.onChain s base live.1
    obtain ⟨l, m, at_s⟩ := List.append_of_mem member
    have prev : (t.rules s).prevIndex = l.getLastD b := by
      have back := h.table.backward b hb
      rw [at_s, backLinked_split] at back
      exact back.2.1
    obtain ⟨pred_ne, succ⟩ := h.table.forward.around hb at_s
    have succ' : (t.rules s).nextIndex ≠ 0 → (t.rules s).nextIndex ∈ chain b ∧
        (t.rules s).nextIndex ≠ s ∧ (t.rules s).nextIndex ≠ l.getLastD b :=
      fun ne => succ _ (linkTo_eq_some.mpr ⟨rfl, ne⟩)
    have removed := ruleStores_expn malloc sized.offset x (Nat.not_lt.mp base) prev rfl pred_ne (fun ne => by
        have range := h.range hb (succ' ne).1
        exact ⟨by omega, by omega, (succ' ne).2⟩)
    generalize (t.writes (postedOf malloc t s x ++ ruleStoresOf malloc t s x)).rules = rules'
      at removed
    -- the row in front has a link, so it is enabled
    have pred_on : (t.rules (l.getLastD b)).enable = true := by
      have path := h.table.forward.path b hb
      rw [at_s, path_split] at path
      by_contra off
      have fields := h.clear_fields (Bool.eq_false_iff.mpr off)
      rw [ruleNext, fields.1] at path
      cases path.2.1
    -- only links of the rows around it change
    have kept : ∀ r, r ≠ s → (rules' r).enable = (t.rules r).enable ∧
        (rules' r).protocol = (t.rules r).protocol ∧ (rules' r).client = (t.rules r).client ∧
        (rules' r).indxTblEntry = (t.rules r).indxTblEntry := by
      intro r ne
      by_cases pred : r = l.getLastD b
      · rw [pred, removed.link]
        exact ⟨rfl, rfl, rfl, rfl⟩
      · by_cases next : (t.rules s).nextIndex ≠ 0 ∧ r = (t.rules s).nextIndex
        · rw [next.2, removed.back next.1]
          exact ⟨rfl, rfl, rfl, rfl⟩
        · rw [removed.other r ne pred (fun linked eq => next ⟨linked, eq⟩)]
          exact ⟨rfl, rfl, rfl, rfl⟩
    have off : ∀ r, r ≠ s → (t.rules r).enable = false → rules' r = t.rules r := by
      intro r ne off
      refine removed.other r ne ?_ (fun linked => ?_)
      · rintro rfl
        exact Bool.true_eq_false_eq_False (pred_on.symm.trans off)
      · rintro rfl
        exact Bool.true_eq_false_eq_False ((h.chainLive b hb _ (succ' linked).1).1.symm.trans off)
    refine ⟨update chain b (l ++ m), ?_, fun b' hb' y => h.table.forward.mem_update_erase hb hb' at_s, ?_⟩
    · apply h.unlink hb at_s
      · rw [removed.cleared, forgetIndex_cleared]
      · rw [removed.link]
        rfl
      · intro r ne_pred ne
        by_cases next : (t.rules s).nextIndex ≠ 0 ∧ r = (t.rules s).nextIndex
        · rw [next.2, removed.back next.1]
          rfl
        · rw [removed.other r ne ne_pred (fun linked eq => next ⟨linked, eq⟩)]
      · intro linked
        rw [removed.back linked]
        rfl
      · intro r not_next ne
        by_cases pred : r = l.getLastD b
        · rw [pred, removed.link]
          rfl
        · rw [removed.other r ne pred]
          rintro linked rfl
          exact not_next (linkTo_eq_some.mpr ⟨rfl, linked⟩)
      · exact fun r ne => ⟨(kept r ne).1, (kept r ne).2.1, (kept r ne).2.2.1⟩
      · intro r r_off
        have ne : r ≠ s := by
          rintro rfl
          exact Bool.true_eq_false_eq_False (live.1.symm.trans r_off)
        rw [off r ne r_off]
    · refine ⟨?_, fun _ => removed.cleared, kept, off⟩
      rw [Live, removed.cleared]
      exact fun alive => Bool.false_ne_true alive.1

/-! ### Dead heads -/

/-- The rows after the scan for dead heads. -/
def sweep (N : Nat) (rules : Nat → IpaNatRule) (s : Nat) : IpaNatRule :=
  if IdleHead N rules s then {} else rules s

theorem sweep_live {r : Nat} (live : Live rules r) : sweep N rules r = rules r :=
  if_neg (fun idle => live.2 idle.2.1)

theorem live_sweep (r : Nat) : Live (sweep N rules) r ↔ Live rules r := by
  by_cases idle : IdleHead N rules r
  · refine iff_of_false ?_ (fun live => live.2 idle.2.1)
    rw [Live, sweep, if_pos idle]
    exact fun live => Bool.false_ne_true live.1
  · rw [Live, sweep, if_neg idle]
    rfl

theorem RuleInv.sweep (h : RuleInv N M home rules chain) :
    RuleInv N M home (Hima.Ipanat.sweep N rules) chain ∧ NoIdleHead N (Hima.Ipanat.sweep N rules) chain := by
  have empty : ∀ b, IdleHead N rules b → chain b = [] :=
    fun b idle => (h.nextIndex_eq_zero_iff idle.1).mp idle.2.2
  constructor
  · apply h.clearHeads
    intro r
    by_cases idle : IdleHead N rules r
    · exact Or.inr ⟨idle.1, empty r idle, if_pos idle⟩
    · exact Or.inl (if_neg idle)
  · intro b hb dead alone
    by_cases idle : IdleHead N rules b
    · rw [Hima.Ipanat.sweep, if_pos idle] at dead
      exact absurd dead (by decide)
    · rw [Hima.Ipanat.sweep, if_neg idle] at dead
      exact idle ⟨hb, dead, (h.nextIndex_eq_zero_iff hb).mpr alone⟩

/-! ### The index table -/

theorem IndexInv.next_of_used (h : IndexInv N M index prevMeta ichain) {x : Nat}
    (used : (index x).tblEntry ≠ 0) (linked : (index x).nextIndex ≠ 0) :
    ∃ b < N, x ∈ b :: ichain b ∧ (index x).nextIndex ∈ ichain b ∧ (index x).nextIndex ≠ x := by
  obtain ⟨b, hb, member⟩ := h.bucket_of_used used
  have path := h.table.forward.path b hb
  have next : indexNext index x = some (index x).nextIndex := linkTo_eq_some.mpr ⟨rfl, linked⟩
  exact ⟨b, hb, member, path_next_mem _ b _ path x _ member next, path_next_ne _ b _ path x _ member next⟩

/-- The index table after the stores of a delete of index row `x`. -/
theorem IndexInv.remove (h : IndexInv N M index prevMeta ichain) {x : Nat} (used : (index x).tblEntry ≠ 0)
    (removed : IndexRemoved N index prevMeta rules x index' prevMeta' rules') :
    ∃ ichain' y, IndexInv N M index' prevMeta' ichain' ∧ Shrunk N ichain ichain' y ∧
      index' y = {} ∧ (∀ z, z ≠ y → z ≠ x → (index' z).tblEntry = (index z).tblEntry) ∧
      ((y = x ∧ rules' = rules) ∨ (x < N ∧ y ∈ ichain x ∧ y ≠ x ∧ (index y).tblEntry ≠ 0 ∧
          (index' x).tblEntry = (index y).tblEntry ∧ rules' = update rules (index y).tblEntry
            ((rules (index y).tblEntry).updateIndxTblEntry x))) := by
  cases removed with
  | onlyOne base alone idx backs same =>
    -- the row itself is cleared
    have empty := (h.nextIndex_eq_zero_iff base).mp alone
    subst idx backs
    refine ⟨ichain, x, h.delOnly base empty, fun b hb z => ⟨fun hz => ⟨hz, ?_⟩, And.left⟩,
      update_self .., fun z ne _ => by rw [update_of_ne ne], Or.inl ⟨rfl, same⟩⟩
    rintro rfl
    exact h.table.forward.offBase b hb z hz base
  | @head n base next linked idx backs same =>
    have next' : indexNext index x = some n := linkTo_eq_some.mpr ⟨next, next.symm ▸ linked⟩
    have path := h.table.forward.path x base
    -- the row behind the head moves into it, so that one leaves the chain
    have rest : ∃ m, ichain x = n :: m := by
      cases rows : ichain x with
      | nil =>
        rw [rows, path_nil, next'] at path
        cases path
      | cons d m =>
        rw [rows, path_cons, next'] at path
        exact ⟨m, by rw [Option.some.inj path.1]⟩
    obtain ⟨m, rows⟩ := rest
    have member : n ∈ ichain x := by rw [rows]; exact List.mem_cons_self
    have at_n : ichain x = [] ++ n :: m := rows
    obtain ⟨ne, succ⟩ := h.table.forward.around base at_n
    have n_used := h.table.chainUsed x base n member
    have ne' : x ≠ n := ne
    have at_x : index' x = index n := by
      rw [idx, update_of_ne ne', update_self]
    have at_n' : index' n = {} := by rw [idx, update_self]
    have other : ∀ z, z ≠ x → z ≠ n → index' z = index z := by
      intro z ne_x ne_n
      rw [idx, update_of_ne ne_n, update_of_ne ne_x]
    refine ⟨update ichain x ([] ++ m), n, ?_,
      fun b hb z => h.table.forward.mem_update_erase base hb at_n, at_n',
      fun z ne_n ne_x => by rw [other z ne_x ne_n],
      Or.inr ⟨base, member, ne'.symm, n_used, by rw [at_x], same⟩⟩
    apply h.unlink base at_n at_n'
    · rw [List.getLastD_nil, at_x]
    · rw [List.getLastD_nil, at_x]
      exact n_used
    · exact other
    · intro linked'
      rw [backs, if_pos linked', update_self]
      rfl
    · intro z not_next ne_n
      by_cases linked' : (index n).nextIndex ≠ 0
      · have range := h.range base (succ _ (linkTo_eq_some.mpr ⟨rfl, linked'⟩)).1
        have ne_next : z - N ≠ (index n).nextIndex - N := by
          intro eq
          have same : z = (index n).nextIndex := by omega
          exact not_next (linkTo_eq_some.mpr ⟨same.symm, linked'⟩)
        rw [indexPrev, backs, if_pos linked', update_of_ne ne_next]
        rfl
      · rw [backs, if_neg linked']
  | @expn q n expn prev next unlinked backs same =>
    -- an expansion row leaves the chain of its bucket
    obtain ⟨b, hb, member⟩ := h.table.onChain x (Nat.not_lt.mpr expn) used
    obtain ⟨l, m, at_x⟩ := List.append_of_mem member
    have back := h.table.backward b hb
    rw [at_x, backLinked_split] at back
    have pred : q = l.getLastD b := prev.symm.trans back.2.1
    obtain ⟨ne, succ⟩ := h.table.forward.around hb at_x
    have range := h.range hb member
    subst pred
    refine ⟨update ichain b (l ++ m), x, ?_,
      fun b' hb' z => h.table.forward.mem_update_erase hb hb' at_x, unlinked.cleared,
      fun z ne_x _ => ?_, Or.inl ⟨rfl, same⟩⟩
    · -- a row with a link is in use
      have pred_used : (index (l.getLastD b)).tblEntry ≠ 0 := by
        apply h.used_of_next
        have path := h.table.forward.path b hb
        rw [at_x, path_split] at path
        rw [(linkTo_eq_some.mp path.2.1).1]
        omega
      apply h.unlink hb at_x unlinked.cleared
      · rw [unlinked.link, next]
        rfl
      · rw [unlinked.link]
        exact pred_used
      · exact fun z ne_q ne_x => unlinked.other z ne_x ne_q
      · intro linked
        have bounds := h.range hb (succ _ (linkTo_eq_some.mpr ⟨rfl, linked⟩)).1
        have ne_next := (succ _ (linkTo_eq_some.mpr ⟨rfl, linked⟩)).2.1
        rw [next] at linked bounds ne_next ⊢
        rw [backs, if_pos linked, update_of_ne (by omega), update_self]
      · intro z not_next ne_x
        by_cases linked : n ≠ 0
        · have bounds := h.range hb (succ n (linkTo_eq_some.mpr ⟨next, next.symm ▸ linked⟩)).1
          have ne_next : z - N ≠ n - N := by
            intro eq
            have same : n = z := by omega
            exact not_next (linkTo_eq_some.mpr ⟨next.trans same, next ▸ linked⟩)
          rw [indexPrev, backs, if_pos linked, update_of_ne (by omega), update_of_ne ne_next]
          rfl
        · rw [backs, if_neg linked]
    · by_cases eq : z = l.getLastD b
      · rw [eq, unlinked.link]
        rfl
      · rw [unlinked.other z ne_x eq]

/-! ### The links between the tables -/

/-- A rule is gone together with the index row that named it. -/
theorem CrossInv.remove (h : CrossInv home rules index ichain) (bucket : ∀ c, home c < N) (live : Live rules s)
    (live_iff : ∀ r, Live rules' r ↔ Live rules r ∧ r ≠ s)
    (kept : ∀ r, Live rules r → r ≠ s → (rules' r).client = (rules r).client ∧
      (rules' r).indxTblEntry = (rules r).indxTblEntry)
    (shrunk : Shrunk N ichain ichain' (rules s).indxTblEntry) (cleared : index' (rules s).indxTblEntry = {})
    (other : ∀ z, z ≠ (rules s).indxTblEntry → (index' z).tblEntry = (index z).tblEntry) :
    CrossInv home rules' index' ichain' where
  named r alive := by
    obtain ⟨was, ne⟩ := (live_iff r).mp alive
    obtain ⟨client, entry⟩ := kept r was ne
    obtain ⟨named, member⟩ := h.named r was
    have ne_x : (rules r).indxTblEntry ≠ (rules s).indxTblEntry := by
      intro same
      rw [same, (h.named s live).1] at named
      exact ne named.symm
    rw [client, entry, other _ ne_x]
    refine ⟨named, ?_⟩
    rcases List.mem_cons.mp member with eq | member
    · rw [eq]
      exact List.mem_cons_self
    · exact List.mem_cons_of_mem _ ((shrunk _ (bucket _) _).mpr ⟨member, ne_x⟩)
  owner z used := by
    have ne : z ≠ (rules s).indxTblEntry := by
      rintro rfl
      rw [cleared] at used
      exact used rfl
    rw [other z ne] at used ⊢
    obtain ⟨was, owns⟩ := h.owner z used
    have ne_s : (index z).tblEntry ≠ s := by
      intro eq
      rw [eq] at owns
      exact ne owns.symm
    exact ⟨(live_iff _).mpr ⟨was, ne_s⟩, (kept _ was ne_s).2.trans owns⟩

/-- A rule is gone, its index row was the head of its bucket, and that row now names the rule
of the row `y` that was behind it. -/
theorem CrossInv.removeHead (h : CrossInv home rules index ichain) (bucket : ∀ c, home c < N)
    (table : IndexInv N M index prevMeta ichain) (live : Live rules s)
    {x y : Nat} (entry_s : (rules s).indxTblEntry = x) (hx : x < N) (member : y ∈ ichain x)
    (ne : y ≠ x) (used : (index y).tblEntry ≠ 0) (live_iff : ∀ r, Live rules' r ↔ Live rules r ∧ r ≠ s)
    (kept : ∀ r, Live rules r → r ≠ s → (rules' r).client = (rules r).client ∧
      (r ≠ (index y).tblEntry → (rules' r).indxTblEntry = (rules r).indxTblEntry))
    (moved : (rules' (index y).tblEntry).indxTblEntry = x)
    (shrunk : Shrunk N ichain ichain' y) (cleared : index' y = {})
    (taken : (index' x).tblEntry = (index y).tblEntry)
    (other : ∀ z, z ≠ y → z ≠ x → (index' z).tblEntry = (index z).tblEntry) :
    CrossInv home rules' index' ichain' where
  named r alive := by
    obtain ⟨was, ne_s⟩ := (live_iff r).mp alive
    obtain ⟨client, entry⟩ := kept r was ne_s
    obtain ⟨named, in_bucket⟩ := h.named r was
    by_cases eq : r = (index y).tblEntry
    · -- the moved row was in bucket `x`, of which it now is the head
      subst eq
      have owns := (h.owner y used).2
      rw [owns] at in_bucket
      have same := table.table.forward.bucket_unique hx (bucket _) (List.mem_cons_of_mem x member) in_bucket
      rw [moved, client, ← same]
      exact ⟨taken, List.mem_cons_self⟩
    · -- any other rule keeps its index row: that is neither the head nor the row moved
      have ne_x : (rules r).indxTblEntry ≠ x := by
        intro same
        rw [same, ← entry_s, (h.named s live).1] at named
        exact ne_s named.symm
      have ne_y : (rules r).indxTblEntry ≠ y := by
        intro same
        rw [same] at named
        exact eq named.symm
      rw [client, entry eq, other _ ne_y ne_x]
      refine ⟨named, ?_⟩
      rcases List.mem_cons.mp in_bucket with eq' | in_bucket
      · rw [eq']
        exact List.mem_cons_self
      · exact List.mem_cons_of_mem _ ((shrunk _ (bucket _) _).mpr ⟨in_bucket, ne_y⟩)
  owner z named := by
    -- the row that moved away names no rule
    have ne_y : z ≠ y := by
      rintro rfl
      rw [cleared] at named
      exact named rfl
    by_cases eq : z = x
    · subst eq
      -- the head names the rule of the row that moved into it
      obtain ⟨was, owns⟩ := h.owner y used
      have ne_s : (index y).tblEntry ≠ s := by
        intro eq
        rw [eq, entry_s] at owns
        exact ne owns.symm
      rw [taken]
      exact ⟨(live_iff _).mpr ⟨was, ne_s⟩, moved⟩
    · rw [other z ne_y eq] at named ⊢
      -- any other row names the rule that it named before
      obtain ⟨was, owns⟩ := h.owner z named
      have ne_s : (index z).tblEntry ≠ s := by
        intro same
        rw [same, entry_s] at owns
        exact eq owns.symm
      have ne_m : (index z).tblEntry ≠ (index y).tblEntry := by
        intro same
        rw [same, (h.owner y used).2] at owns
        exact ne_y owns.symm
      exact ⟨(live_iff _).mpr ⟨was, ne_s⟩, ((kept _ was ne_s).2 ne_m).trans owns⟩

theorem IdsInv.remove (h : IdsInv N M rules ruleId) (hN : N ≤ 32768) (hM : M ≤ 32768) {i : Nat}
    (range : ∀ r, Live rules r → r ≠ 0 ∧ r < N + M) (live : Live rules s)
    (id : ruleId i = idOfSlot N s) (live_iff : ∀ r, Live rules' r ↔ Live rules r ∧ r ≠ s) :
    IdsInv N M rules' (update ruleId i 0) := by
  have off : ∀ j, update ruleId i 0 j ≠ 0 → j ≠ i := by
    rintro j used rfl
    rw [update_self] at used
    exact used rfl
  refine ⟨fun j used => ?_, fun j k same used => ?_, fun r alive => ?_⟩
  · have ne := off j used
    rw [update_of_ne ne] at used ⊢
    obtain ⟨r, was, id'⟩ := h.decodes j used
    refine ⟨r, (live_iff r).mpr ⟨was, ?_⟩, id'⟩
    rintro rfl
    exact ne (h.injective j i (id'.trans id.symm) used)
  · have ne_j := off j used
    have ne_k := off k (same ▸ used)
    rw [update_of_ne ne_j] at same used
    rw [update_of_ne ne_k] at same
    exact h.injective j k same used
  · obtain ⟨was, ne⟩ := (live_iff r).mp alive
    obtain ⟨j, hj, id'⟩ := h.issued r was
    have ne_j : j ≠ i := by
      rintro rfl
      exact ne (idOfSlot_inj hN hM (range r was).2 (range s live).2 (id'.symm.trans id))
    exact ⟨j, hj, by rw [update_of_ne ne_j, id']⟩

end Hima.Ipanat
