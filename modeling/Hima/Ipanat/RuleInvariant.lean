import Hima.Lib.Chains
import Hima.Ipanat.Rules

/-!
# The invariant of the rule table

`RuleInv` reads the base and expansion rows as a table of chains, independently of the index
table: the index entry a row remembers takes no part in it, so that it also describes tables
whose index has gone wrong. Each lemma below is one change the driver makes to the rows.
-/
namespace Hima.Ipanat

open Chains

/-- A link field of the tables: 0 ends a list. -/
def linkTo (n : Nat) : Option Nat := if n = ipaNatInvalidNatEntry then none else some n

@[simp] theorem linkTo_eq_none {n : Nat} : linkTo n = none ↔ n = 0 := by
  unfold linkTo ipaNatInvalidNatEntry
  split <;> simp_all

@[simp] theorem linkTo_eq_some {n m : Nat} : linkTo n = some m ↔ n = m ∧ n ≠ 0 := by
  unfold linkTo ipaNatInvalidNatEntry
  split <;> simp_all

def ruleNext (rules : Nat → IpaNatRule) (s : Nat) : Option Nat := linkTo (rules s).nextIndex

def rulePrev (rules : Nat → IpaNatRule) (s : Nat) : Nat := (rules s).prevIndex

/-- The row carries a rule the hardware applies: it is enabled and not a dead head. -/
def Live (rules : Nat → IpaNatRule) (s : Nat) : Prop :=
  (rules s).enable = true ∧ (rules s).protocol ≠ ipaNatInvalidProtoFieldCmp

instance (rules : Nat → IpaNatRule) (s : Nat) : Decidable (Live rules s) :=
  inferInstanceAs (Decidable (_ ∧ _))

/-- The row without the index entry it remembers. -/
def IpaNatRule.forgetIndex (r : IpaNatRule) : IpaNatRule := { r with indxTblEntry := 0 }

@[simp] theorem forgetIndex_cleared : ({} : IpaNatRule).forgetIndex = {} := rfl

@[simp] theorem forgetIndex_updateIndxTblEntry (r : IpaNatRule) (x : Nat) :
    (r.updateIndxTblEntry x).forgetIndex = r.forgetIndex := rfl

variable {N M : Nat} {home : IpaNatIpv4Rule → Nat} {rules rules' : Nat → IpaNatRule}
  {chain : Nat → List Nat}

/-- Slots of the base table and slots the expansion table hands out. -/
def BaseSlot (N s : Nat) : Prop := s < N
def ExpnSlot (N M s : Nat) : Prop := N < s ∧ s < N + M

/-- The rows form chains with right back links whose expansion rows are exactly the enabled
ones; those carry rules; rows that are not enabled are clear; a live row lies in the bucket
its rule hashes to; and slot 0 is never used. -/
structure RuleInv (N M : Nat) (home : IpaNatIpv4Rule → Nat) (rules : Nat → IpaNatRule)
    (chain : Nat → List Nat) : Prop where
  table : Overflow (BaseSlot N) (ExpnSlot N M) (fun s => (rules s).enable = true)
    (ruleNext rules) (rulePrev rules) chain
  chainLive : ∀ b < N, ∀ e ∈ chain b, Live rules e
  clear : ∀ s, (rules s).enable = false → (rules s).forgetIndex = {}
  inBucket : ∀ b < N, ∀ s ∈ b :: chain b, Live rules s → home (rules s).client = b
  slotZero : (rules 0).enable = false

/-- No dead head without a row hanging off it. -/
def NoIdleHead (N : Nat) (rules : Nat → IpaNatRule) (chain : Nat → List Nat) : Prop :=
  ∀ b < N, (rules b).protocol = ipaNatInvalidProtoFieldCmp → chain b ≠ []

/-- The parts of a row that `RuleInv` reads are kept by `forgetIndex`. -/
theorem row_eq_of_forgetIndex {r r' : IpaNatRule} (same : r'.forgetIndex = r.forgetIndex) :
    r'.nextIndex = r.nextIndex ∧ r'.prevIndex = r.prevIndex ∧ r'.enable = r.enable ∧
      r'.protocol = r.protocol ∧ r'.client = r.client := by
  cases r
  cases r'
  simp only [IpaNatRule.forgetIndex, IpaNatRule.mk.injEq] at same
  simp_all [IpaNatRule.client]

theorem live_congr {s : Nat} (enable : (rules' s).enable = (rules s).enable)
    (protocol : (rules' s).protocol = (rules s).protocol) : Live rules' s ↔ Live rules s := by
  simp only [Live, enable, protocol]

section

variable (h : RuleInv N M home rules chain)
include h

theorem RuleInv.congr (same : ∀ s, (rules' s).forgetIndex = (rules s).forgetIndex) :
    RuleInv N M home rules' chain := by
  have row := fun s => row_eq_of_forgetIndex (same s)
  have live : ∀ s, Live rules' s ↔ Live rules s :=
    fun s => live_congr (row s).2.2.1 (row s).2.2.2.1
  refine ⟨h.table.congr (fun s _ => ?_) (fun b _ s _ => (row s).2.1) (fun s _ => ?_),
    fun b hb e he => (live e).mpr (h.chainLive b hb e he), fun s off => ?_,
    fun b hb s hs alive => ?_, (row 0).2.2.1.trans h.slotZero⟩
  · simp only [ruleNext, (row s).1]
  · rw [(row s).2.2.1]
  · rw [same s]
    exact h.clear s ((row s).2.2.1 ▸ off)
  · rw [(row s).2.2.2.2]
    exact h.inBucket b hb s hs ((live s).mp alive)

/-! ### Consequences -/

theorem RuleInv.range {b e : Nat} (hb : b < N) (he : e ∈ chain b) : N < e ∧ e < N + M :=
  h.table.inPool b hb e he

theorem RuleInv.clear_fields {s : Nat}
    (off : (rules s).enable = false) : (rules s).nextIndex = 0 ∧ (rules s).protocol = 0 := by
  have row := row_eq_of_forgetIndex ((h.clear s off).trans forgetIndex_cleared.symm)
  exact ⟨row.1, row.2.2.2.1⟩

theorem RuleInv.nextIndex_eq_zero_iff {b : Nat} (hb : b < N) :
    (rules b).nextIndex = 0 ↔ chain b = [] := by
  rw [h.table.chain_eq_nil_iff hb, ruleNext, linkTo_eq_none]

theorem RuleInv.notMem_of_off {e : Nat} (off : (rules e).enable = false) : ∀ b < N, e ∉ chain b :=
  h.table.notMem_of_unused (by rw [off]; exact Bool.false_ne_true)

theorem RuleInv.live_expn {e : Nat} (he : N ≤ e) (on : (rules e).enable = true) : Live rules e := by
  obtain ⟨b, hb, member⟩ := h.table.onChain e (Nat.not_lt.mpr he) on
  exact h.chainLive b hb e member

/-- Every live row lies in a bucket, and it is the one its rule hashes to. -/
theorem RuleInv.live_in_home {s : Nat} (live : Live rules s) :
    home (rules s).client < N ∧ s ∈ home (rules s).client :: chain (home (rules s).client) := by
  by_cases hs : s < N
  · rw [h.inBucket s hs s List.mem_cons_self live]
    exact ⟨hs, List.mem_cons_self⟩
  · obtain ⟨b, hb, member⟩ := h.table.onChain s hs live.1
    rw [h.inBucket b hb s (List.mem_cons_of_mem b member) live]
    exact ⟨hb, List.mem_cons_of_mem b member⟩

theorem RuleInv.live_ne_zero {s : Nat} (live : Live rules s) : s ≠ 0 := by
  rintro rfl
  rw [Live, h.slotZero] at live
  cases live.1

theorem RuleInv.live_range {s : Nat} (live : Live rules s) :
    s ≠ N ∧ s < N + M := by
  by_cases hs : s < N
  · omega
  · obtain ⟨b, hb, member⟩ := h.table.onChain s hs live.1
    have bounds := h.range hb member
    omega

/-! ### Adding a rule -/

theorem RuleInv.addBase {b : Nat} {row : IpaNatRule}
    (hb : b < N) (nonzero : b ≠ 0) (off : (rules b).enable = false) (on : row.enable = true)
    (last : row.nextIndex = 0) (bucket : home row.client = b) :
    RuleInv N M home (Function.update rules b row) chain := by
  have elsewhere : ∀ s, s ≠ b → Function.update rules b row s = rules s :=
    fun s ne => Function.update_of_ne ne row rules
  have expn_ne : ∀ s, ¬BaseSlot N s → s ≠ b := fun s off eq => off (eq ▸ hb)
  have chain_ne : ∀ b' < N, ∀ e ∈ chain b', e ≠ b :=
    fun b' hb' e he => expn_ne e (h.table.forward.offBase b' hb' e he)
  refine ⟨h.table.congr (fun s _ => ?_) (fun b' hb' s hs => ?_) (fun s hs => ?_), ?_, ?_, ?_, ?_⟩
  · by_cases eq : s = b
    · subst eq
      simp only [ruleNext, Function.update_self, last, (h.clear_fields off).1]
    · simp only [ruleNext, elsewhere s eq]
  · simp only [rulePrev, elsewhere s (chain_ne b' hb' s hs)]
  · rw [elsewhere s (expn_ne s hs)]
  · intro b' hb' e he
    rw [Live, elsewhere e (chain_ne b' hb' e he)]
    exact h.chainLive b' hb' e he
  · intro s notOn
    by_cases eq : s = b
    · subst eq
      rw [Function.update_self, on] at notOn
      cases notOn
    · rw [elsewhere s eq] at notOn ⊢
      exact h.clear s notOn
  · intro b' hb' s hs live
    by_cases eq : s = b
    · subst eq
      rw [Function.update_self, bucket]
      exact h.table.forward.bucket_unique hb hb' List.mem_cons_self hs
    · rw [Live, elsewhere s eq] at live
      rw [elsewhere s eq]
      exact h.inBucket b' hb' s hs live
  · rw [elsewhere 0 (Ne.symm nonzero)]
    exact h.slotZero

/-- A rule that goes to a free expansion slot and is linked behind the last row of its
bucket. -/
theorem RuleInv.addExpn {b e : Nat} (hb : b < N)
    (used : (rules b).enable = true) (he : N < e ∧ e < N + M) (off : (rules e).enable = false)
    (row_live : Live rules' e) (last : (rules' e).nextIndex = 0)
    (back : (rules' e).prevIndex = (chain b).getLastD b) (bucket : home (rules' e).client = b)
    (linked : rules' ((chain b).getLastD b) = { rules ((chain b).getLastD b) with nextIndex := e })
    (other : ∀ s, s ≠ e → s ≠ (chain b).getLastD b → rules' s = rules s) :
    RuleInv N M home rules' (Function.update chain b (chain b ++ [e])) := by
  have fresh := h.notMem_of_off off
  have notBase : ¬BaseSlot N e := Nat.not_lt.mpr (Nat.le_of_lt he.1)
  have pred_used : (rules ((chain b).getLastD b)).enable = true := by
    rcases List.mem_cons.mp (List.getLastD_mem_cons (l := chain b) (a := b)) with eq | member
    · rw [eq]; exact used
    · exact (h.chainLive b hb _ member).1
  -- away from the new slot only a next index has changed
  have kept : ∀ s, s ≠ e → (rules' s).prevIndex = (rules s).prevIndex ∧
      (rules' s).enable = (rules s).enable ∧ (rules' s).protocol = (rules s).protocol ∧
      (rules' s).client = (rules s).client := by
    intro s ne
    by_cases eq : s = (chain b).getLastD b
    · rw [eq, linked]
      exact ⟨rfl, rfl, rfl, rfl⟩
    · rw [other s ne eq]
      exact ⟨rfl, rfl, rfl, rfl⟩
  have live_iff : ∀ s, s ≠ e → (Live rules' s ↔ Live rules s) :=
    fun s ne => live_congr (kept s ne).2.1 (kept s ne).2.2.1
  refine ⟨?_, ?_, ?_, ?_, ?_⟩
  · apply h.table.append hb notBase he (by rw [off]; exact Bool.false_ne_true)
    · rw [ruleNext, linked, linkTo_eq_some]
      exact ⟨rfl, Nat.ne_of_gt (Nat.zero_lt_of_lt he.1)⟩
    · rw [ruleNext, linkTo_eq_none]
      exact last
    · intro s ne ne'
      simp only [ruleNext, other s ne ne']
    · exact back
    · exact fun s ne => (kept s ne).1
    · exact row_live.1
    · exact fun s _ ne => by rw [(kept s ne).2.1]
  · intro b' hb' s hs
    rcases mem_update_append hs with member | ⟨_, rfl⟩
    · have ne : s ≠ e := fun eq => fresh b' hb' (eq ▸ member)
      exact (live_iff s ne).mpr (h.chainLive b' hb' s member)
    · exact row_live
  · intro s notOn
    by_cases eq : s = e
    · subst eq
      rw [row_live.1] at notOn
      cases notOn
    · rw [(kept s eq).2.1] at notOn
      by_cases pred : s = (chain b).getLastD b
      · rw [pred, pred_used] at notOn
        cases notOn
      · rw [other s eq pred]
        exact h.clear s notOn
  · intro b' hb' s hs live
    by_cases eq : s = e
    · subst eq
      rw [bucket]
      rcases List.mem_cons.mp hs with rfl | member
      · exact absurd hb' notBase
      · rcases mem_update_append member with member | ⟨same, _⟩
        · exact absurd member (fresh b' hb')
        · exact same.symm
    · rw [(kept s eq).2.2.2]
      refine h.inBucket b' hb' s ?_ ((live_iff s eq).mp live)
      rcases List.mem_cons.mp hs with rfl | member
      · exact List.mem_cons_self
      · rcases mem_update_append member with member | ⟨_, rfl⟩
        · exact List.mem_cons_of_mem b' member
        · exact absurd rfl eq
  · rw [(kept 0 (by omega)).2.1]
    exact h.slotZero

/-! ### Deleting a rule -/

/-- Base rows that nothing hangs off may be cleared. -/
theorem RuleInv.clearHeads (cleared : ∀ s, rules' s = rules s ∨ (s < N ∧ chain s = [] ∧ rules' s = {})) :
    RuleInv N M home rules' chain := by
  have off_base : ∀ s, ¬BaseSlot N s → rules' s = rules s := by
    intro s off
    rcases cleared s with same | ⟨base, _, _⟩
    · exact same
    · exact absurd base off
  have kept : ∀ b < N, ∀ e ∈ chain b, rules' e = rules e :=
    fun b hb e he => off_base e (h.table.forward.offBase b hb e he)
  refine ⟨h.table.congr (fun s _ => ?_) (fun b hb e he => ?_) (fun s off => ?_), ?_, ?_, ?_, ?_⟩
  · rcases cleared s with same | ⟨base, empty, same⟩
    · simp only [ruleNext, same]
    · simp only [ruleNext, same, (h.nextIndex_eq_zero_iff base).mpr empty]
  · simp only [rulePrev, kept b hb e he]
  · rw [off_base s off]
  · intro b hb e he
    rw [Live, kept b hb e he]
    exact h.chainLive b hb e he
  · intro s off
    rcases cleared s with same | ⟨_, _, same⟩
    · rw [same] at off ⊢
      exact h.clear s off
    · rw [same]
      rfl
  · intro b hb s hs live
    rcases cleared s with same | ⟨_, _, same⟩
    · rw [Live, same] at live
      rw [same]
      exact h.inBucket b hb s hs live
    · rw [Live, same] at live
      cases live.1
  · rcases cleared 0 with same | ⟨_, _, same⟩
    · rw [same]
      exact h.slotZero
    · rw [same]

/-- A head with rows behind it stays in place with the dead protocol. -/
theorem RuleInv.markDead {b : Nat} (hb : b < N)
    (on : (rules b).enable = true) (next : (rules' b).nextIndex = (rules b).nextIndex)
    (still : (rules' b).enable = true) (dead : (rules' b).protocol = ipaNatInvalidProtoFieldCmp)
    (other : ∀ s, s ≠ b → rules' s = rules s) : RuleInv N M home rules' chain := by
  have off_base : ∀ s, ¬BaseSlot N s → rules' s = rules s :=
    fun s off => other s (fun eq => off (eq ▸ hb))
  have kept : ∀ b' < N, ∀ e ∈ chain b', rules' e = rules e :=
    fun b' hb' e he => off_base e (h.table.forward.offBase b' hb' e he)
  refine ⟨h.table.congr (fun s _ => ?_) (fun b' hb' e he => ?_) (fun s off => ?_), ?_, ?_, ?_, ?_⟩
  · by_cases eq : s = b
    · rw [eq, ruleNext, next, ruleNext]
    · simp only [ruleNext, other s eq]
  · simp only [rulePrev, kept b' hb' e he]
  · rw [off_base s off]
  · intro b' hb' e he
    rw [Live, kept b' hb' e he]
    exact h.chainLive b' hb' e he
  · intro s off
    by_cases eq : s = b
    · rw [eq, still] at off
      cases off
    · rw [other s eq] at off ⊢
      exact h.clear s off
  · intro b' hb' s hs live
    have ne : s ≠ b := by
      rintro rfl
      exact live.2 dead
    rw [Live, other s ne] at live
    rw [other s ne]
    exact h.inBucket b' hb' s hs live
  · have ne : 0 ≠ b := by
      rintro rfl
      rw [h.slotZero] at on
      cases on
    rw [other 0 ne]
    exact h.slotZero

/-- A row is taken out of its chain and cleared: the row before it takes over its link, and
the row after it is pointed back past it. -/
theorem RuleInv.unlink {b c : Nat} {l m : List Nat}
    (hb : b < N) (at_c : chain b = l ++ c :: m) (cleared : (rules' c).forgetIndex = {})
    (relinked : (rules' (l.getLastD b)).nextIndex = (rules c).nextIndex)
    (next : ∀ s, s ≠ l.getLastD b → s ≠ c → (rules' s).nextIndex = (rules s).nextIndex)
    (repaired : (rules c).nextIndex ≠ 0 → (rules' (rules c).nextIndex).prevIndex = l.getLastD b)
    (prev : ∀ s, ruleNext rules c ≠ some s → s ≠ c → (rules' s).prevIndex = (rules s).prevIndex)
    (kept : ∀ s, s ≠ c → (rules' s).enable = (rules s).enable ∧
      (rules' s).protocol = (rules s).protocol ∧ (rules' s).client = (rules s).client)
    (off_kept : ∀ s, (rules s).enable = false → (rules' s).forgetIndex = (rules s).forgetIndex) :
    RuleInv N M home rules' (Function.update chain b (l ++ m)) := by
  have c_mem : c ∈ chain b := at_c ▸ List.mem_append_right l List.mem_cons_self
  have c_range := h.range hb c_mem
  have c_off : (rules' c).enable = false :=
    (row_eq_of_forgetIndex (cleared.trans forgetIndex_cleared.symm)).2.2.1
  -- every other row is as live as it was
  have live_iff : ∀ s, s ≠ c → (Live rules' s ↔ Live rules s) :=
    fun s ne => live_congr (kept s ne).1 (kept s ne).2.1
  have members : ∀ b' < N, ∀ s, s ∈ Function.update chain b (l ++ m) b' ↔ s ∈ chain b' ∧ s ≠ c :=
    fun b' hb' s => h.table.forward.mem_update_erase hb hb' at_c
  -- the chains by `Chains`, the rest row by row
  refine ⟨?_, ?_, ?_, ?_, ?_⟩
  · apply h.table.erase hb at_c
    · simp only [ruleNext, relinked]
    · intro s ne ne'
      simp only [ruleNext, next s ne ne']
    · intro d hd
      obtain ⟨rfl, nonzero⟩ := linkTo_eq_some.mp hd
      exact repaired nonzero
    · exact prev
    · rw [c_off]
      exact Bool.false_ne_true
    · exact fun s _ ne => by rw [(kept s ne).1]
  · intro b' hb' s hs
    obtain ⟨member, ne⟩ := (members b' hb' s).mp hs
    exact (live_iff s ne).mpr (h.chainLive b' hb' s member)
  · intro s off
    by_cases eq : s = c
    · rw [eq]
      exact cleared
    · rw [(kept s eq).1] at off
      rw [off_kept s off]
      exact h.clear s off
  · intro b' hb' s hs live
    have ne : s ≠ c := by
      rintro rfl
      rw [Live, c_off] at live
      cases live.1
    rw [(kept s ne).2.2]
    refine h.inBucket b' hb' s ?_ ((live_iff s ne).mp live)
    rcases List.mem_cons.mp hs with rfl | member
    · exact List.mem_cons_self
    · exact List.mem_cons_of_mem b' ((members b' hb' s).mp member).1
  · rw [(kept 0 (by omega)).1]
    exact h.slotZero

end

end Hima.Ipanat
