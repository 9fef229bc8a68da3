import Hima.Ipanat.RuleInvariant

/-!
# The invariant of the index table, and the links between the tables

`IndexInv` is the counterpart of `RuleInv` for the index rows, whose back links live in
`index_expn_table_meta`. `CrossInv` ties live rule rows and occupied index rows together,
`IdsInv` ties live rule rows and the entries of `rule_id_array`.
-/
namespace Hima.Ipanat

open Chains Function

def indexNext (index : Nat → IpaNatIndxTblRule) (x : Nat) : Option Nat :=
  linkTo (index x).nextIndex

/-- The back link of expansion row `x`, which the metadata keeps under its row number. -/
def indexPrev (N : Nat) (prevMeta : Nat → Nat) (x : Nat) : Nat := prevMeta (x - N)

variable {N M : Nat} {home : IpaNatIpv4Rule → Nat} {rules rules' : Nat → IpaNatRule}
  {index index' : Nat → IpaNatIndxTblRule} {prevMeta prevMeta' : Nat → Nat}
  {ruleId : Nat → Nat} {chain : Nat → List Nat}

/-- The index rows form chains with right back links; an expansion row is on a chain exactly
when it names a rule; rows that name none are clear; and slot 0 is never used. -/
structure IndexInv (N M : Nat) (index : Nat → IpaNatIndxTblRule) (prevMeta : Nat → Nat)
    (chain : Nat → List Nat) : Prop where
  table : Overflow (BaseSlot N) (ExpnSlot N M) (fun x => (index x).tblEntry ≠ 0)
    (indexNext index) (indexPrev N prevMeta) chain
  clear : ∀ x, (index x).tblEntry = 0 → index x = {}
  slotZero : (index 0).tblEntry = 0

section

variable (h : IndexInv N M index prevMeta chain)
include h

theorem IndexInv.nextIndex_eq_zero_iff {b : Nat} (hb : b < N) : (index b).nextIndex = 0 ↔ chain b = [] := by
  rw [h.table.chain_eq_nil_iff hb, indexNext, linkTo_eq_none]

theorem IndexInv.range {b e : Nat} (hb : b < N) (he : e ∈ chain b) : N < e ∧ e < N + M :=
  h.table.inPool b hb e he

/-- A row is in some bucket when it names a rule. -/
theorem IndexInv.bucket_of_used {x : Nat} (used : (index x).tblEntry ≠ 0) : ∃ b < N, x ∈ b :: chain b := by
  by_cases hx : x < N
  · exact ⟨x, hx, List.mem_cons_self⟩
  · obtain ⟨b, hb, member⟩ := h.table.onChain x hx used
    exact ⟨b, hb, List.mem_cons_of_mem b member⟩

/-- The rows that hold a bucket together all name rules. -/
theorem IndexInv.used_of_next {x : Nat} (linked : (index x).nextIndex ≠ 0) : (index x).tblEntry ≠ 0 := by
  intro unused
  rw [h.clear x unused] at linked
  exact linked rfl

/-! ### Changes to the rows -/

/-- A base slot is rewritten and keeps its link. -/
theorem IndexInv.setBase {b : Nat} {row : IpaNatIndxTblRule} (hb : b < N)
    (linked : row.nextIndex = (index b).nextIndex) (clear : row.tblEntry = 0 → row = {})
    (zero : b = 0 → row.tblEntry = 0) : IndexInv N M (update index b row) prevMeta chain := by
  have elsewhere : ∀ x, x ≠ b → update index b row x = index x :=
    fun x ne => update_of_ne ne row index
  refine ⟨h.table.congr (fun x _ => ?_) (fun _ _ _ _ => rfl) (fun x off => ?_), ?_, ?_⟩
  · by_cases eq : x = b
    · rw [eq, indexNext, update_self, linked, indexNext]
    · simp only [indexNext, elsewhere x eq]
  · have ne : x ≠ b := fun eq => off (eq ▸ hb)
    rw [elsewhere x ne]
  · intro x unused
    by_cases eq : x = b
    · rw [eq, update_self] at unused ⊢
      exact clear unused
    · rw [elsewhere x eq] at unused ⊢
      exact h.clear x unused
  · by_cases eq : 0 = b
    · rw [← eq, update_self]
      exact zero eq.symm
    · rw [elsewhere 0 eq]
      exact h.slotZero

theorem IndexInv.addBase {b : Nat}
    {row : IpaNatIndxTblRule} (hb : b < N) (nonzero : b ≠ 0) (free : (index b).tblEntry = 0)
    (names : row.tblEntry ≠ 0) (last : row.nextIndex = 0) :
    IndexInv N M (update index b row) prevMeta chain :=
  h.setBase hb (by rw [last, h.clear b free]) (fun unused => absurd unused names) (absurd · nonzero)

/-- An entry that goes to a free expansion row and is linked behind the last row of its
bucket. -/
theorem IndexInv.addExpn {b e : Nat} (hb : b < N)
    (used : (index b).tblEntry ≠ 0) (he : N < e ∧ e < N + M) (free : (index e).tblEntry = 0)
    (names : (index' e).tblEntry ≠ 0) (last : (index' e).nextIndex = 0)
    (linked : index' ((chain b).getLastD b) = { index ((chain b).getLastD b) with nextIndex := e })
    (other : ∀ x, x ≠ e → x ≠ (chain b).getLastD b → index' x = index x)
    (back : prevMeta' (e - N) = (chain b).getLastD b)
    (backs : ∀ i, i ≠ e - N → prevMeta' i = prevMeta i) :
    IndexInv N M index' prevMeta' (update chain b (chain b ++ [e])) := by
  have notBase : ¬BaseSlot N e := Nat.not_lt.mpr (Nat.le_of_lt he.1)
  have pred_used : (index ((chain b).getLastD b)).tblEntry ≠ 0 := by
    rcases List.mem_cons.mp (List.getLastD_mem_cons (l := chain b) (a := b)) with eq | member
    · rw [eq]; exact used
    · exact h.table.chainUsed b hb _ member
  have kept : ∀ x, x ≠ e → (index' x).tblEntry = (index x).tblEntry := by
    intro x ne
    by_cases eq : x = (chain b).getLastD b
    · rw [eq, linked]
    · rw [other x ne eq]
  -- one more row on the chain of `b`, everything else is where it was
  refine ⟨?_, ?_, ?_⟩
  · apply h.table.append hb notBase he (fun used => used free)
    · rw [indexNext, linked, linkTo_eq_some]
      exact ⟨rfl, Nat.ne_of_gt (Nat.zero_lt_of_lt he.1)⟩
    · rw [indexNext, linkTo_eq_none]
      exact last
    · intro x ne ne'
      simp only [indexNext, other x ne ne']
    · exact back
    · intro x ne
      exact backs (x - N) (by omega)
    · exact names
    · exact fun x _ ne => by rw [kept x ne]
  · intro x unused
    by_cases eq : x = e
    · subst eq
      exact absurd unused names
    · rw [kept x eq] at unused
      by_cases pred : x = (chain b).getLastD b
      · rw [pred] at unused
        exact absurd unused pred_used
      · rw [other x eq pred]
        exact h.clear x unused
  · rw [kept 0 (by omega)]
    exact h.slotZero

theorem IndexInv.delOnly {b : Nat} (hb : b < N)
    (empty : chain b = []) : IndexInv N M (update index b {}) prevMeta chain :=
  h.setBase hb ((h.nextIndex_eq_zero_iff hb).mpr empty).symm (fun _ => rfl) fun _ => rfl

/-- An expansion row is taken out of its chain and cleared. The row before it takes over its
link and may take over its rule as well, as the head of a chain does. -/
theorem IndexInv.unlink {b c : Nat} {l m : List Nat}
    (hb : b < N) (at_c : chain b = l ++ c :: m) (cleared : index' c = {})
    (relinked : (index' (l.getLastD b)).nextIndex = (index c).nextIndex)
    (pred_used : (index' (l.getLastD b)).tblEntry ≠ 0)
    (other : ∀ x, x ≠ l.getLastD b → x ≠ c → index' x = index x)
    (repaired : (index c).nextIndex ≠ 0 → prevMeta' ((index c).nextIndex - N) = l.getLastD b)
    (backs : ∀ x, indexNext index c ≠ some x → x ≠ c → indexPrev N prevMeta' x = indexPrev N prevMeta x) :
    IndexInv N M index' prevMeta' (update chain b (l ++ m)) := by
  have c_mem : c ∈ chain b := at_c ▸ List.mem_append_right l List.mem_cons_self
  have c_range := h.range hb c_mem
  have pred_mem : l.getLastD b ∈ b :: chain b := by
    rw [at_c, ← List.cons_append]
    exact List.mem_append_left _ List.getLastD_mem_cons
  -- the row before `c` has a successor, so it named a rule before as well
  have pred_was : (index (l.getLastD b)).tblEntry ≠ 0 := by
    apply h.used_of_next
    have path := h.table.forward.path b hb
    rw [at_c, path_split] at path
    rw [(linkTo_eq_some.mp path.2.1).1]
    omega
  have usage : ∀ x, x ≠ c → ((index' x).tblEntry ≠ 0 ↔ (index x).tblEntry ≠ 0) := by
    intro x ne
    by_cases eq : x = l.getLastD b
    · rw [eq]
      exact iff_of_true pred_used pred_was
    · rw [other x eq ne]
  refine ⟨?_, ?_, ?_⟩
  · apply h.table.erase hb at_c
    · simp only [indexNext, relinked]
    · intro x ne ne'
      simp only [indexNext, other x ne ne']
    · intro d hd
      obtain ⟨rfl, nonzero⟩ := linkTo_eq_some.mp hd
      exact repaired nonzero
    · exact backs
    · rw [cleared]
      exact fun ne => ne rfl
    · exact fun x _ ne => usage x ne
  · intro x unused
    by_cases eq : x = c
    · rw [eq]
      exact cleared
    · by_cases pred : x = l.getLastD b
      · rw [pred] at unused
        exact absurd unused pred_used
      · rw [other x pred eq] at unused ⊢
        exact h.clear x unused
  · by_contra used
    exact (usage 0 (by omega)).mp used h.slotZero

end

/-! ### Links between the tables -/

/-- Each live rule row remembers the index row that names it, which lies in the bucket of the
index table its rule hashes to; and each occupied index row names a live rule row that
remembers it. -/
structure CrossInv (home : IpaNatIpv4Rule → Nat) (rules : Nat → IpaNatRule)
    (index : Nat → IpaNatIndxTblRule) (chain : Nat → List Nat) : Prop where
  named : ∀ s, Live rules s → (index (rules s).indxTblEntry).tblEntry = s ∧
    (rules s).indxTblEntry ∈ home (rules s).client :: chain (home (rules s).client)
  owner : ∀ x, (index x).tblEntry ≠ 0 → Live rules (index x).tblEntry ∧
    (rules (index x).tblEntry).indxTblEntry = x

/-- The value of `rule_id_array` for a slot. -/
def idOfSlot (N s : Nat) : Nat := if N ≤ s then (s - N) * 2 % 65536 + 1 else s * 2 % 65536

/-- The slot an entry of `rule_id_array` stands for: its lowest bit is the table type. -/
def slotOfId (N id : Nat) : Nat := if id % 2 = 1 then N + id / 2 else id / 2

/-- Each live row has exactly one entry of `rule_id_array`, and the other entries are 0. The
last entry is never used: its handle would not pass the check of a delete. -/
structure IdsInv (N M : Nat) (rules : Nat → IpaNatRule) (ruleId : Nat → Nat) : Prop where
  decodes : ∀ i, ruleId i ≠ 0 → ∃ s, Live rules s ∧ ruleId i = idOfSlot N s
  injective : ∀ i j, ruleId i = ruleId j → ruleId i ≠ 0 → i = j
  issued : ∀ s, Live rules s → ∃ i, i + 1 < N + M ∧ ruleId i = idOfSlot N s

theorem slotOfId_idOfSlot {s : Nat} (hN : N ≤ 32768) (hM : M ≤ 32768) (hs : s < N + M) :
    slotOfId N (idOfSlot N s) = s := by
  unfold slotOfId idOfSlot
  split <;> split <;> omega

theorem idOfSlot_inj {s s' : Nat} (hN : N ≤ 32768) (hM : M ≤ 32768) (hs : s < N + M)
    (hs' : s' < N + M) (same : idOfSlot N s = idOfSlot N s') : s = s' := by
  rw [← slotOfId_idOfSlot hN hM hs, same, slotOfId_idOfSlot hN hM hs']

theorem idOfSlot_ne_zero {s : Nat} (hN : N ≤ 32768) (nonzero : s ≠ 0) : idOfSlot N s ≠ 0 := by
  unfold idOfSlot
  split <;> omega

theorem IdsInv.inside (h : IdsInv N M rules ruleId) {i : Nat} (used : ruleId i ≠ 0) :
    i + 1 < N + M := by
  obtain ⟨s, live, eq⟩ := h.decodes i used
  obtain ⟨j, hj, eq'⟩ := h.issued s live
  rw [h.injective i j (eq.trans eq'.symm) used]
  exact hj

end Hima.Ipanat
