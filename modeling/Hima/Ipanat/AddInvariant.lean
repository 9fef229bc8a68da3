import Hima.Ipanat.AddStep

/-!
# What an add preserves

The change a successful add makes to each table, and the invariants after it.
-/
namespace Hima.Ipanat

open Chains

variable {N M : Nat} {home : IpaNatIpv4Rule → Nat} {rules rules' : Nat → IpaNatRule}
  {index index' : Nat → IpaNatIndxTblRule} {prevMeta ruleId : Nat → Nat}
  {chain chain' : Nat → List Nat} {b e p x q : Nat}

/-- Row `e` of the table is new, and row `p`, if there is one, is linked to it. -/
structure RuleAdded (rules rules' : Nat → IpaNatRule) (row : IpaNatRule) (e p : Nat) : Prop where
  new : rules' e = row
  link : p ≠ 0 → rules' p = (rules p).setNext e
  other : ∀ s, s ≠ e → (p ≠ 0 → s ≠ p) → rules' s = rules s

structure IndexAdded (index index' : Nat → IpaNatIndxTblRule) (row : IpaNatIndxTblRule) (x q : Nat) : Prop where
  new : index' x = row
  link : q ≠ 0 → index' q = (index q).setNext x
  other : ∀ s, s ≠ x → (q ≠ 0 → s ≠ q) → index' s = index s

/-- The chains after row `e` was added to bucket `b`: a base row is the head of its bucket, an
expansion row goes behind the others. -/
def grow (N : Nat) (chain : Nat → List Nat) (b e : Nat) : Nat → List Nat :=
  if e < N then chain else Function.update chain b (chain b ++ [e])

theorem mem_grow_of_mem {b' s : Nat} (hs : s ∈ b' :: chain b') : s ∈ b' :: grow N chain b e b' := by
  unfold grow
  split
  · exact hs
  · rcases List.mem_cons.mp hs with rfl | hs
    · exact List.mem_cons_self
    · apply List.mem_cons_of_mem
      by_cases same : b' = b
      · subst same
        rw [Function.update_self]
        exact List.mem_append_left _ hs
      · rwa [Function.update_of_ne same]

theorem RulePlace.mem_grow (place : RulePlace N M rules chain b e p) :
    e ∈ b :: grow N chain b e b := by
  cases place with
  | base => exact List.mem_cons_self
  | expn _ range _ =>
    rw [grow, if_neg (by omega), Function.update_self]
    exact List.mem_cons_of_mem b (List.mem_append_right _ List.mem_cons_self)

theorem IndexPlace.mem_grow (place : IndexPlace N M index chain b x q) :
    x ∈ b :: grow N chain b x b := by
  cases place with
  | base => exact List.mem_cons_self
  | expn _ range _ =>
    rw [grow, if_neg (by omega), Function.update_self]
    exact List.mem_cons_of_mem b (List.mem_append_right _ List.mem_cons_self)

theorem RulePlace.free (place : RulePlace N M rules chain b e p) :
    (rules e).enable = false := by
  cases place with
  | base off => exact off
  | expn _ _ off => exact off

theorem IndexPlace.free (place : IndexPlace N M index chain b x q) :
    (index x).tblEntry = 0 := by
  cases place with
  | base free => exact free
  | expn _ _ free => exact free

theorem getLastD_cases (l : List Nat) (a : Nat) : l.getLastD a = a ∨ l.getLastD a ∈ l :=
  List.mem_cons.mp List.getLastD_mem_cons

theorem getLastD_mem {l : List Nat} (nonempty : l ≠ []) (a : Nat) : l.getLastD a ∈ l := by
  cases l with
  | nil => exact absurd rfl nonempty
  | cons b l =>
    rw [List.getLastD_cons]
    exact List.getLastD_mem_cons

/-- The row in front of the new one is enabled, so it is another row. -/
theorem RuleInv.place_pred (h : RuleInv N M home rules chain) (hb : b < N)
    (place : RulePlace N M rules chain b e p) (linked : p ≠ 0) :
    (rules p).enable = true ∧ p ∈ b :: chain b := by
  cases place with
  | base => exact absurd rfl linked
  | expn on _ _ =>
    rcases getLastD_cases (chain b) b with eq | member
    · rw [eq]
      exact ⟨on, List.mem_cons_self⟩
    · exact ⟨(h.chainLive b hb _ member).1, List.mem_cons_of_mem b member⟩

theorem IndexInv.place_pred (h : IndexInv N M index prevMeta chain) (hb : b < N)
    (place : IndexPlace N M index chain b x q) (linked : q ≠ 0) :
    (index q).tblEntry ≠ 0 ∧ q ∈ b :: chain b := by
  cases place with
  | base => exact absurd rfl linked
  | expn used _ _ =>
    rcases getLastD_cases (chain b) b with eq | member
    · rw [eq]
      exact ⟨used, List.mem_cons_self⟩
    · exact ⟨h.table.chainUsed b hb _ member, List.mem_cons_of_mem b member⟩

/-! ### The invariants -/

theorem RuleInv.add (h : RuleInv N M home rules chain) {row : IpaNatRule} (hb : 0 < b ∧ b < N)
    (place : RulePlace N M rules chain b e p) (added : RuleAdded rules rules' row e p)
    (live : row.enable = true ∧ row.protocol ≠ ipaNatInvalidProtoFieldCmp)
    (last : row.nextIndex = 0) (back : row.prevIndex = p) (bucket : home row.client = b) :
    RuleInv N M home rules' (grow N chain b e) := by
  cases place with
  | base off =>
    have same : rules' = Function.update rules b row := by
      funext s
      by_cases eq : s = b
      · rw [eq, added.new, Function.update_self]
      · rw [added.other s eq (fun ne => absurd rfl ne), Function.update_of_ne eq]
    rw [same, grow, if_pos hb.2]
    exact h.addBase hb.2 (by omega) off live.1 last bucket
  | expn on range off =>
    have pred_ne : (chain b).getLastD b ≠ 0 := by
      rcases getLastD_cases (chain b) b with eq | member
      · omega
      · have := h.range hb.2 member
        omega
    rw [grow, if_neg (by omega)]
    have new := added.new
    refine h.addExpn hb.2 on range off ?_ ?_ ?_ ?_ (added.link pred_ne)
      (fun s ne ne' => added.other s ne (fun _ => ne'))
    · rw [Live, new]
      exact live
    · rw [new, last]
    · rw [new, back]
    · rw [new, bucket]

/-- The walks over the rows with a new last row in one bucket. -/
theorem RuleInv.path_grow (h : RuleInv N M home rules chain) {row : IpaNatRule} (hb : b < N)
    (place : RulePlace N M rules chain b e p) (added : RuleAdded rules rules' row e p)
    (last : row.nextIndex = 0) : ∀ b' < N, Path (ruleNext rules') b' (grow N chain b e b') := by
  intro b' hb'
  cases place with
  | base off =>
    rw [grow, if_pos hb]
    refine path_congr _ _ b' _ (fun r _ => ?_) (h.table.forward.path b' hb')
    by_cases eq : r = b
    · simp [ruleNext, eq, added.new, last, (h.clear_fields off).1]
    · simp [ruleNext, added.other r eq (fun behind => absurd rfl behind)]
  | expn on range off =>
    have behind : (chain b).getLastD b ≠ 0 := by
      intro zero
      rcases getLastD_cases (chain b) b with eq | member
      · rw [← eq, zero, h.slotZero] at on
        cases on
      · have := h.range hb member
        omega
    have into : (rules' ((chain b).getLastD b)).nextIndex = e := by
      rw [added.link behind]
      rfl
    have forward : Forward (BaseSlot N) (ruleNext rules') (Function.update chain b (chain b ++ [e])) := by
      refine h.table.forward.append hb (Nat.not_lt.mpr (Nat.le_of_lt range.1))
        (h.notMem_of_off off) (linkTo_eq_some.mpr ⟨into, by omega⟩) (linkTo_eq_none.mpr ?_)
        (fun r ne ne' => ?_)
      · rw [added.new, last]
      · simp [ruleNext, added.other r ne (fun _ => ne')]
    rw [grow, if_neg (by omega)]
    exact forward.path b' hb'

theorem IndexInv.add (h : IndexInv N M index prevMeta chain) {s : Nat} (hb : 0 < b ∧ b < N)
    (place : IndexPlace N M index chain b x q)
    (added : IndexAdded index index' { tblEntry := s } x q) (names : s ≠ 0) :
    IndexInv N M index' (if N ≤ x then Function.update prevMeta (x - N) q else prevMeta)
      (grow N chain b x) := by
  cases place with
  | base free =>
    have same : index' = Function.update index b { tblEntry := s } := by
      funext y
      by_cases eq : y = b
      · rw [eq, added.new, Function.update_self]
      · rw [added.other y eq (fun ne => absurd rfl ne), Function.update_of_ne eq]
    rw [same, grow, if_pos hb.2, if_neg (by omega)]
    exact h.addBase hb.2 (by omega) free names rfl
  | expn used range free =>
    have pred_ne : (chain b).getLastD b ≠ 0 := by
      rcases getLastD_cases (chain b) b with eq | member
      · omega
      · have := h.range hb.2 member
        omega
    rw [grow, if_neg (show ¬x < N by omega), if_pos (show N ≤ x by omega)]
    refine h.addExpn hb.2 used range free ?_ ?_ (added.link pred_ne)
      (fun y ne ne' => added.other y ne (fun _ => ne')) (Function.update_self ..)
      (fun i ne => Function.update_of_ne ne ..)
    · rw [added.new]
      exact names
    · rw [added.new]

theorem NoIdleHead.add (h : NoIdleHead N rules chain)
    (kept : ∀ s, s ≠ e → (rules' s).protocol = (rules s).protocol)
    (live : (rules' e).protocol ≠ ipaNatInvalidProtoFieldCmp) :
    NoIdleHead N rules' (grow N chain b e) := by
  intro b' hb' dead
  have ne : b' ≠ e := fun eq => live (eq ▸ dead)
  rw [kept b' ne] at dead
  have full := h b' hb' dead
  unfold grow
  split
  · exact full
  · by_cases same : b' = b
    · rw [same, Function.update_self]
      exact List.append_ne_nil_of_right_ne_nil _ (List.cons_ne_nil _ _)
    · rwa [Function.update_of_ne same]

/-- A new rule row and the index row that names it. -/
theorem CrossInv.add (h : CrossInv home rules index chain) (zero : ¬Live rules 0)
    (free : ¬Live rules e) (nonzero : e ≠ 0) (unused : (index x).tblEntry = 0)
    (kept : ∀ s, s ≠ e → (Live rules' s ↔ Live rules s) ∧
      (rules' s).indxTblEntry = (rules s).indxTblEntry ∧ (rules' s).client = (rules s).client)
    (ikept : ∀ y, y ≠ x → (index' y).tblEntry = (index y).tblEntry)
    (grown : ∀ b' y, y ∈ b' :: chain b' → y ∈ b' :: chain' b')
    (live : Live rules' e) (remembers : (rules' e).indxTblEntry = x) (names : (index' x).tblEntry = e)
    (bucket : x ∈ home (rules' e).client :: chain' (home (rules' e).client)) :
    CrossInv home rules' index' chain' where
  named s alive := by
    by_cases eq : s = e
    · subst eq
      rw [remembers]
      exact ⟨names, bucket⟩
    · obtain ⟨live_iff, entry, client⟩ := kept s eq
      obtain ⟨named, member⟩ := h.named s (live_iff.mp alive)
      have ne : (rules s).indxTblEntry ≠ x := by
        rintro same
        rw [same, unused] at named
        exact zero (named ▸ live_iff.mp alive)
      rw [entry, client, ikept _ ne]
      exact ⟨named, grown _ _ member⟩
  owner y used := by
    by_cases eq : y = x
    · subst eq
      rw [names]
      exact ⟨live, remembers⟩
    · rw [ikept y eq] at used ⊢
      obtain ⟨alive, owns⟩ := h.owner y used
      have ne : (index y).tblEntry ≠ e := fun same => free (same ▸ alive)
      obtain ⟨live_iff, entry, _⟩ := kept _ ne
      exact ⟨live_iff.mpr alive, entry.trans owns⟩

/-- Before the first unused entry there are fewer entries than slots: they stand for different
live rows, and neither the new slot nor slot `N` is one of those. -/
theorem IdsInv.first_unused (h : IdsInv N M rules ruleId) (hN : N ≤ 32768) (hM : M ≤ 32768)
    {i : Nat} (range : ∀ s, Live rules s → s ≠ 0 ∧ s ≠ N ∧ s < N + M) (free : ¬Live rules e)
    (he : e ≠ 0 ∧ e ≠ N ∧ e < N + M) (hNM : 0 < N ∧ 0 < M) (used : ∀ j < i, ruleId j ≠ 0) :
    i + 1 < N + M := by
  let slots := (List.range i).map fun j => slotOfId N (ruleId j)
  have slot_live : ∀ j < i, ∃ s, Live rules s ∧ ruleId j = idOfSlot N s :=
    fun j lt => h.decodes j (used j lt)
  have live : ∀ s ∈ slots, Live rules s := by
    intro s hs
    obtain ⟨j, hj, rfl⟩ := List.mem_map.mp hs
    obtain ⟨s, alive, id⟩ := slot_live j (List.mem_range.mp hj)
    rw [id, slotOfId_idOfSlot hN hM (range s alive).2.2]
    exact alive
  have nodup : slots.Nodup := by
    refine List.Nodup.map_on (fun j hj k hk same => ?_) List.nodup_range
    obtain ⟨s, alive, id⟩ := slot_live j (List.mem_range.mp hj)
    obtain ⟨s', alive', id'⟩ := slot_live k (List.mem_range.mp hk)
    rw [id, id', slotOfId_idOfSlot hN hM (range s alive).2.2,
      slotOfId_idOfSlot hN hM (range s' alive').2.2] at same
    exact h.injective j k (by rw [id, id', same]) (used j (List.mem_range.mp hj))
  -- these slots and the two that hold no rule are all different
  have nodup' : (N :: e :: slots).Nodup := by
    refine List.nodup_cons.mpr ⟨?_, List.nodup_cons.mpr ⟨fun member => free (live e member), nodup⟩⟩
    intro member
    rcases List.mem_cons.mp member with eq | member
    · exact he.2.1 eq.symm
    · exact (range N (live N member)).2.1 rfl
  have inside : N :: e :: slots ⊆ List.range' 1 (N + M - 1) := by
    intro s hs
    rw [List.mem_range'_1]
    rcases List.mem_cons.mp hs with rfl | hs
    · omega
    · rcases List.mem_cons.mp hs with rfl | hs
      · omega
      · have := range s (live s hs)
        omega
  have length := (nodup'.subperm inside).length_le
  simp only [slots, List.length_cons, List.length_map, List.length_range, List.length_range'] at length
  omega

theorem IdsInv.add (h : IdsInv N M rules ruleId) (hN : N ≤ 32768) (hM : M ≤ 32768) {i : Nat}
    (range : ∀ s, Live rules s → s ≠ 0 ∧ s < N + M) (free : ¬Live rules e)
    (he : e ≠ 0 ∧ e < N + M) (hi : i + 1 < N + M) (unused : ruleId i = 0)
    (kept : ∀ s, s ≠ e → (Live rules' s ↔ Live rules s)) (live : Live rules' e) :
    IdsInv N M rules' (Function.update ruleId i (idOfSlot N e)) := by
  have old : ∀ s, Live rules s → s ≠ e := fun s alive eq => free (eq ▸ alive)
  -- the new id is not in use: it would decode to the new slot
  have new_id : ∀ j, ruleId j ≠ idOfSlot N e := by
    intro j same
    obtain ⟨s, alive, id⟩ := h.decodes j (same ▸ idOfSlot_ne_zero hN he.1)
    have eq := idOfSlot_inj hN hM (range s alive).2 he.2 (id.symm.trans same)
    exact old s alive eq
  refine ⟨fun j used => ?_, fun j k same used => ?_, fun s alive => ?_⟩
  · by_cases eq : j = i
    · exact ⟨e, live, by rw [eq, Function.update_self]⟩
    · rw [Function.update_of_ne eq] at used ⊢
      obtain ⟨s, alive, id⟩ := h.decodes j used
      exact ⟨s, (kept s (old s alive)).mpr alive, id⟩
  · by_cases hj : j = i <;> by_cases hk : k = i
    · rw [hj, hk]
    · rw [hj, Function.update_self, Function.update_of_ne hk] at same
      exact absurd same.symm (new_id k)
    · rw [hk, Function.update_self, Function.update_of_ne hj] at same
      exact absurd same (new_id j)
    · rw [Function.update_of_ne hj] at same used
      rw [Function.update_of_ne hk] at same
      exact h.injective j k same used
  · by_cases eq : s = e
    · exact ⟨i, hi, by rw [eq, Function.update_self]⟩
    · have alive := (kept s eq).mp alive
      obtain ⟨j, hj, id⟩ := h.issued s alive
      have ne : j ≠ i := by
        rintro rfl
        exact idOfSlot_ne_zero hN (range s alive).1 (id.symm.trans unused)
      exact ⟨j, hj, by rw [Function.update_of_ne ne, id]⟩

end Hima.Ipanat
