import Mathlib.Data.List.Nodup

/-!
# Chained tables

A table whose rows carry a link to a successor, as a hash table with overflow chains
stores them. `Path` says what a reader sees that follows the links from a row to the end;
`Forward` and `Backward` describe a whole table of disjoint chains hanging off base rows.
The rows are of any type, and the links are any function into `Option`.
-/
namespace Hima.Chains

open Function

variable {α : Type}

/-- Consecutive elements of `a :: l` are linked by `next`. -/
def Links (next : α → Option α) : α → List α → Prop
  | _, [] => True
  | a, b :: l => next a = some b ∧ Links next b l

/-- Following `next` from `a` visits exactly `l` and then stops. -/
def Path (next : α → Option α) (a : α) (l : List α) : Prop :=
  Links next a l ∧ next (l.getLastD a) = none

/-- Every element of `l` points back to the element before it, the first one to `a`. -/
def BackLinked (prev : α → α) : α → List α → Prop
  | _, [] => True
  | a, b :: l => prev b = a ∧ BackLinked prev b l

/-! ### Single chains -/

theorem links_nil (next : α → Option α) (a : α) : Links next a [] ↔ True := .rfl

theorem links_cons (next : α → Option α) (a b : α) (l : List α) :
    Links next a (b :: l) ↔ next a = some b ∧ Links next b l := .rfl

theorem backLinked_nil (prev : α → α) (a : α) : BackLinked prev a [] ↔ True := .rfl

theorem backLinked_cons (prev : α → α) (a b : α) (l : List α) :
    BackLinked prev a (b :: l) ↔ prev b = a ∧ BackLinked prev b l := .rfl

@[simp] theorem path_nil (next : α → Option α) (a : α) : Path next a [] ↔ next a = none := by
  simp only [Path, links_nil, List.getLastD_nil, true_and]

@[simp] theorem path_cons (next : α → Option α) (a b : α) (l : List α) :
    Path next a (b :: l) ↔ next a = some b ∧ Path next b l := by
  simp only [Path, links_cons, List.getLastD_cons, and_assoc]

theorem links_append (next : α → Option α) (a : α) (l m : List α) :
    Links next a (l ++ m) ↔ Links next a l ∧ Links next (l.getLastD a) m := by
  induction l generalizing a with
  | nil => simp only [List.nil_append, links_nil, List.getLastD_nil, true_and]
  | cons b l ih => simp only [List.cons_append, links_cons, ih, List.getLastD_cons, and_assoc]

theorem getLastD_append_cons (a b : α) (l m : List α) :
    (l ++ b :: m).getLastD a = m.getLastD b := by
  induction l generalizing a with
  | nil => rw [List.nil_append, List.getLastD_cons]
  | cons x l ih => rw [List.cons_append, List.getLastD_cons, ih]

/-- A path through `c` is a linked stretch up to `c` and the path from `c` on. -/
theorem path_split (next : α → Option α) (a c : α) (l m : List α) :
    Path next a (l ++ c :: m) ↔ Links next a l ∧ next (l.getLastD a) = some c ∧ Path next c m := by
  simp only [Path, links_append, links_cons, getLastD_append_cons, and_assoc]

theorem backLinked_split (prev : α → α) (a c : α) (l m : List α) :
    BackLinked prev a (l ++ c :: m) ↔ BackLinked prev a l ∧ prev c = l.getLastD a ∧ BackLinked prev c m := by
  induction l generalizing a with
  | nil => simp only [List.nil_append, backLinked_nil, backLinked_cons, List.getLastD_nil, true_and]
  | cons b l ih =>
    simp only [List.cons_append, backLinked_cons, ih, List.getLastD_cons, and_assoc]

theorem path_unique (next : α → Option α) (a : α) (l m : List α)
    (hl : Path next a l) (hm : Path next a m) : l = m := by
  induction l generalizing a m with
  | nil =>
    cases m with
    | nil => rfl
    | cons b m =>
      rw [path_nil] at hl
      rw [path_cons, hl] at hm
      cases hm.1
  | cons b l ih =>
    rw [path_cons] at hl
    cases m with
    | nil =>
      rw [path_nil, hl.1] at hm
      cases hm
    | cons c m =>
      rw [path_cons] at hm
      have same : b = c := Option.some.inj (hl.1.symm.trans hm.1)
      subst same
      rw [ih b m hl.2 hm.2]

/-- A path that ends cannot come back to its start: the rest would be the path again. -/
theorem path_start_notMem (next : α → Option α) (a : α) (l : List α) (hl : Path next a l) : a ∉ l := by
  intro member
  obtain ⟨before, after, rfl⟩ := List.append_of_mem member
  have rest : Path next a after := ((path_split next a a before after).mp hl).2.2
  have same := congrArg List.length (path_unique next a _ _ hl rest)
  simp only [List.length_append, List.length_cons] at same
  omega

theorem path_nodup (next : α → Option α) (a : α) (l : List α) (hl : Path next a l) : (a :: l).Nodup := by
  induction l generalizing a with
  | nil => simp only [List.nodup_cons, List.not_mem_nil, not_false_eq_true, List.nodup_nil, and_self]
  | cons b l ih =>
    rw [List.nodup_cons]
    exact ⟨path_start_notMem next a _ hl, ih b ((path_cons next a b l).mp hl).2⟩

/-- The links along a list are read at every row but the last. -/
theorem links_congr (next next' : α → Option α) (a : α) (l : List α)
    (same : ∀ x ∈ (a :: l).dropLast, next' x = next x) (hl : Links next a l) :
    Links next' a l := by
  induction l generalizing a with
  | nil => exact hl
  | cons b l ih =>
    have rest : ∀ x ∈ (b :: l).dropLast, next' x = next x :=
      fun x hx => same x (List.mem_cons_of_mem a hx)
    exact ⟨(same a List.mem_cons_self).trans hl.1, ih b rest hl.2⟩

theorem ne_last_of_mem_dropLast (a x : α) (l : List α) (nodup : (a :: l).Nodup)
    (hx : x ∈ (a :: l).dropLast) : x ≠ l.getLastD a := by
  rintro rfl
  rw [← List.dropLast_append_getLast (List.cons_ne_nil a l), List.nodup_append] at nodup
  rw [← List.getLast_eq_getLastD (List.cons_ne_nil a l)] at hx
  exact nodup.2.2 _ hx _ List.mem_cons_self rfl

theorem path_congr (next next' : α → Option α) (a : α) (l : List α)
    (same : ∀ x ∈ a :: l, next' x = next x) (hl : Path next a l) : Path next' a l := by
  refine ⟨links_congr next next' a l (fun x hx => same x (List.dropLast_subset _ hx)) hl.1, ?_⟩
  rw [same _ List.getLastD_mem_cons]
  exact hl.2

theorem backLinked_congr (prev prev' : α → α) (a : α) (l : List α)
    (same : ∀ x ∈ l, prev' x = prev x) (hl : BackLinked prev a l) : BackLinked prev' a l := by
  induction l generalizing a with
  | nil => exact hl
  | cons b l ih =>
    have rest : ∀ x ∈ l, prev' x = prev x := fun x hx => same x (List.mem_cons_of_mem b hx)
    exact ⟨(same b List.mem_cons_self).trans hl.1, ih b rest hl.2⟩

/-- Every element of a path but the last has the following one as its successor, so what a
row links to is again on the path. -/
theorem path_next_mem (next : α → Option α) (a : α) (l : List α) (hl : Path next a l)
    (x y : α) (hx : x ∈ a :: l) (hy : next x = some y) : y ∈ l := by
  induction l generalizing a with
  | nil =>
    rw [List.mem_singleton] at hx
    rw [path_nil, ← hx, hy] at hl
    cases hl
  | cons b l ih =>
    rw [path_cons] at hl
    rcases List.mem_cons.mp hx with rfl | hx
    · rw [hl.1] at hy
      rw [← Option.some.inj hy]
      exact List.mem_cons_self
    · exact List.mem_cons_of_mem b (ih b hl.2 hx)

/-- No row of a path links to itself. -/
theorem path_next_ne (next : α → Option α) (a : α) (l : List α) (hl : Path next a l)
    (x y : α) (hx : x ∈ a :: l) (hy : next x = some y) : y ≠ x := by
  have rest : ∃ m, Path next x m := by
    rcases List.mem_cons.mp hx with rfl | hx
    · exact ⟨l, hl⟩
    · obtain ⟨before, after, rfl⟩ := List.append_of_mem hx
      exact ⟨after, ((path_split next a x before after).mp hl).2.2⟩
  obtain ⟨m, path⟩ := rest
  rintro rfl
  exact path_start_notMem next y m path (path_next_mem next y m path y y List.mem_cons_self hy)

/-! ### Tables of chains -/

/-- Each base row `b` starts the chain `chain b`; chains leave the base rows alone and do
not share rows. -/
structure Forward (base : α → Prop) (next : α → Option α) (chain : α → List α) : Prop where
  path : ∀ b, base b → Path next b (chain b)
  offBase : ∀ b, base b → ∀ e ∈ chain b, ¬base e
  disjoint : ∀ b b' e, base b → base b' → e ∈ chain b → e ∈ chain b' → b = b'

/-- The back links of every chain name the row the chain came from. -/
def Backward (base : α → Prop) (prev : α → α) (chain : α → List α) : Prop :=
  ∀ b, base b → BackLinked prev b (chain b)

variable {base : α → Prop} {next next' : α → Option α} {prev prev' : α → α}
  {chain : α → List α}

/-- The rows a table of chains reads: the base rows and the rows on some chain. -/
def Used (base : α → Prop) (chain : α → List α) (x : α) : Prop :=
  base x ∨ ∃ b, base b ∧ x ∈ chain b

theorem used_of_mem {b x : α} (hb : base b) (hx : x ∈ b :: chain b) : Used base chain x := by
  rcases List.mem_cons.mp hx with rfl | hx
  · exact Or.inl hb
  · exact Or.inr ⟨b, hb, hx⟩

theorem Forward.congr (h : Forward base next chain)
    (same : ∀ x, Used base chain x → next' x = next x) : Forward base next' chain where
  path b hb := path_congr next next' b _ (fun x hx => same x (used_of_mem hb hx)) (h.path b hb)
  offBase := h.offBase
  disjoint := h.disjoint

theorem Backward.congr (h : Backward base prev chain)
    (same : ∀ x b, base b → x ∈ chain b → prev' x = prev x) : Backward base prev' chain :=
  fun b hb => backLinked_congr prev prev' b _ (fun x hx => same x b hb hx) (h b hb)

/-- A row of the table lies in the bucket of exactly one base row. -/
theorem Forward.bucket_unique (h : Forward base next chain) {b b' x : α} (hb : base b)
    (hb' : base b') (hx : x ∈ b :: chain b) (hx' : x ∈ b' :: chain b') : b = b' := by
  rcases List.mem_cons.mp hx with rfl | hx
  · rcases List.mem_cons.mp hx' with rfl | hx'
    · rfl
    · exact absurd hb (h.offBase b' hb' x hx')
  · rcases List.mem_cons.mp hx' with rfl | hx'
    · exact absurd hb' (h.offBase b hb x hx)
    · exact h.disjoint b b' x hb hb' hx hx'

variable [DecidableEq α]

/-- Linking a fresh row behind the last row of a chain makes that chain one row longer. -/
theorem Forward.append (h : Forward base next chain) {b e : α} (hb : base b) (he : ¬base e)
    (fresh : ∀ b', base b' → e ∉ chain b')
    (linked : next' ((chain b).getLastD b) = some e) (last : next' e = none)
    (other : ∀ x, x ≠ e → x ≠ (chain b).getLastD b → next' x = next x) :
    Forward base next' (update chain b (chain b ++ [e])) := by
  have elsewhere : ∀ b', base b' → b' ≠ b → ∀ x ∈ b' :: chain b', next' x = next x := by
    intro b' hb' ne x hx
    refine other x ?_ ?_
    · rintro rfl
      rcases List.mem_cons.mp hx with rfl | hx
      · exact he hb'
      · exact fresh b' hb' hx
    · rintro rfl
      exact ne (h.bucket_unique hb' hb hx List.getLastD_mem_cons)
  refine ⟨?_, ?_, ?_⟩
  · intro b' hb'
    by_cases same : b' = b
    · subst same
      rw [update_self, path_split]
      refine ⟨?_, linked, (path_nil next' e).mpr last⟩
      -- the old links survive: they are read at rows before the one that was relinked
      apply links_congr next next' b' _ _ (h.path b' hb).1
      intro x hx
      refine other x ?_ (ne_last_of_mem_dropLast b' x _ (path_nodup next b' _ (h.path b' hb)) hx)
      rintro rfl
      rcases List.mem_cons.mp (List.dropLast_subset _ hx) with rfl | hx
      · exact he hb
      · exact fresh b' hb hx
    · rw [update_of_ne same]
      exact path_congr next next' b' _ (elsewhere b' hb' same) (h.path b' hb')
  · intro b' hb' x hx
    by_cases same : b' = b
    · subst same
      rw [update_self, List.mem_append, List.mem_singleton] at hx
      rcases hx with hx | rfl
      · exact h.offBase b' hb x hx
      · exact he
    · rw [update_of_ne same] at hx
      exact h.offBase b' hb' x hx
  · intro b₁ b₂ x h₁ h₂ hx₁ hx₂
    have old : ∀ b', base b' → x ∈ update chain b (chain b ++ [e]) b' → x ∈ chain b' ∨ (b' = b ∧ x = e) := by
      intro b' _ hx
      by_cases same : b' = b
      · subst same
        rw [update_self, List.mem_append, List.mem_singleton] at hx
        exact hx.imp id (fun eq => ⟨rfl, eq⟩)
      · rw [update_of_ne same] at hx
        exact Or.inl hx
    rcases old b₁ h₁ hx₁ with m₁ | ⟨e₁, x₁⟩ <;> rcases old b₂ h₂ hx₂ with m₂ | ⟨e₂, x₂⟩
    · exact h.disjoint b₁ b₂ x h₁ h₂ m₁ m₂
    · exact absurd m₁ (x₂ ▸ fresh b₁ h₁)
    · exact absurd m₂ (x₁ ▸ fresh b₂ h₂)
    · rw [e₁, e₂]

theorem Backward.append (h : Backward base prev chain) {b e : α}
    (fresh : ∀ b', base b' → e ∉ chain b') (back : prev' e = (chain b).getLastD b)
    (other : ∀ x, x ≠ e → prev' x = prev x) :
    Backward base prev' (update chain b (chain b ++ [e])) := by
  have old : Backward base prev' chain :=
    h.congr (fun x b' hb' hx => other x (fun eq => fresh b' hb' (eq ▸ hx)))
  intro b' hb'
  by_cases same : b' = b
  · subst same
    rw [update_self, backLinked_split]
    exact ⟨old b' hb', back, trivial⟩
  · rw [update_of_ne same]
    exact old b' hb'

/-- Giving the row before `c` the successor of `c` takes `c`, and only `c`, off its chain. -/
theorem Forward.erase (h : Forward base next chain) {b c : α} {l m : List α} (hb : base b)
    (at_c : chain b = l ++ c :: m) (relinked : next' (l.getLastD b) = next c)
    (other : ∀ x, x ≠ l.getLastD b → x ≠ c → next' x = next x) :
    Forward base next' (update chain b (l ++ m)) := by
  have path_b := h.path b hb
  have nodup := path_nodup next b _ path_b
  rw [at_c] at path_b nodup
  obtain ⟨links, into_c, after⟩ := (path_split next b c l m).mp path_b
  have c_mem : c ∈ chain b := at_c ▸ List.mem_append_right l List.mem_cons_self
  have pred_mem : l.getLastD b ∈ b :: chain b := by
    rw [at_c, ← List.cons_append]
    exact List.mem_append_left _ List.getLastD_mem_cons
  have nodup_l : (b :: l).Nodup := nodup.sublist (by
    exact List.sublist_append_left _ _)
  have nodup_split : ∀ x ∈ b :: l, ∀ y ∈ c :: m, x ≠ y := by
    rw [← List.cons_append, List.nodup_append] at nodup
    exact nodup.2.2
  -- the rest of the chain hangs behind the predecessor
  have after' : Path next' (l.getLastD b) m := by
    cases m with
    | nil => rw [path_nil, relinked]; exact (path_nil next c).mp after
    | cons d m =>
      rw [path_cons] at after ⊢
      refine ⟨relinked.trans after.1, path_congr next next' d m (fun x hx => ?_) after.2⟩
      refine other x ?_ ?_
      · exact (nodup_split _ List.getLastD_mem_cons x (List.mem_cons_of_mem c hx)).symm
      · rintro rfl
        have tail := (List.nodup_append.mp (List.nodup_cons.mp nodup).2).2.1
        exact (List.nodup_cons.mp tail).1 hx
  -- the part in front is not touched
  have before' : Links next' b l := by
    apply links_congr next next' b l _ links
    intro x hx
    refine other x (ne_last_of_mem_dropLast b x l nodup_l hx) ?_
    exact nodup_split x (List.dropLast_subset _ hx) c List.mem_cons_self
  -- no chain gets a row that it did not have
  have shorter : ∀ b', base b' → ∀ x ∈ update chain b (l ++ m) b', x ∈ chain b' := by
    intro b' _ x hx
    by_cases same : b' = b
    · subst same
      rw [update_self, List.mem_append] at hx
      rw [at_c, List.mem_append]
      exact hx.imp id (List.mem_cons_of_mem c)
    · rwa [update_of_ne same] at hx
  refine ⟨?_, ?_, ?_⟩
  · intro b' hb'
    by_cases same : b' = b
    · subst same
      rw [update_self]
      refine ⟨(links_append next' b' l m).mpr ⟨before', after'.1⟩, ?_⟩
      cases m with
      | nil => rw [List.append_nil]; exact (path_nil next' _).mp after'
      | cons d m => rw [getLastD_append_cons, ← List.getLastD_cons (a := l.getLastD b')]; exact after'.2
    · rw [update_of_ne same]
      apply path_congr next next' b' _ _ (h.path b' hb')
      intro x hx
      refine other x ?_ ?_
      · rintro rfl
        exact same (h.bucket_unique hb' hb hx pred_mem)
      · rintro rfl
        exact same (h.bucket_unique hb' hb hx (List.mem_cons_of_mem b c_mem))
  · exact fun b' hb' x hx => h.offBase b' hb' x (shorter b' hb' x hx)
  · exact fun b₁ b₂ x h₁ h₂ m₁ m₂ =>
      h.disjoint b₁ b₂ x h₁ h₂ (shorter b₁ h₁ x m₁) (shorter b₂ h₂ x m₂)

/-- The back links stay right when the row after an erased one is pointed past it. -/
theorem Backward.erase (h : Backward base prev chain) (fwd : Forward base next chain)
    {b c : α} {l m : List α} (hb : base b) (at_c : chain b = l ++ c :: m)
    (repaired : ∀ d, next c = some d → prev' d = l.getLastD b)
    (other : ∀ x, next c ≠ some x → x ≠ c → prev' x = prev x) :
    Backward base prev' (update chain b (l ++ m)) := by
  have path_b := fwd.path b hb
  rw [at_c] at path_b
  have nodup := path_nodup next b _ path_b
  obtain ⟨_, _, after⟩ := (path_split next b c l m).mp path_b
  have c_mem : c ∈ chain b := at_c ▸ List.mem_append_right l List.mem_cons_self
  have back := h b hb
  rw [at_c, backLinked_split] at back
  have next_mem : ∀ x, next c = some x → x ∈ m :=
    fun x hx => path_next_mem next c m after c x List.mem_cons_self hx
  have nodup' := List.nodup_append.mp (List.nodup_cons.mp nodup).2
  -- rows in front of `c` do not follow it
  have same_before : ∀ x ∈ l, prev' x = prev x := by
    intro x hx
    refine other x (fun eq => ?_) (nodup'.2.2 x hx c List.mem_cons_self)
    exact nodup'.2.2 x hx x (List.mem_cons_of_mem c (next_mem x eq)) rfl
  have c_notMem : c ∉ m := (List.nodup_cons.mp nodup'.2.1).1
  intro b' hb'
  by_cases same : b' = b
  · subst same
    rw [update_self]
    cases m with
    | nil =>
      rw [List.append_nil]
      exact backLinked_congr prev prev' b' l same_before back.1
    | cons d m =>
      rw [backLinked_split]
      have into_d := ((path_cons next c d m).mp after).1
      refine ⟨backLinked_congr prev prev' b' l same_before back.1, repaired d into_d, ?_⟩
      apply backLinked_congr prev prev' d m _ back.2.2.2
      intro x hx
      refine other x (fun eq => ?_) ?_
      · have d_eq : d = x := Option.some.inj (into_d.symm.trans eq)
        subst d_eq
        exact (List.nodup_cons.mp (List.nodup_cons.mp nodup'.2.1).2).1 hx
      · rintro rfl
        exact c_notMem (List.mem_cons_of_mem d hx)
  -- rows of another chain neither are `c` nor follow it
  · rw [update_of_ne same]
    apply backLinked_congr prev prev' b' _ _ (h b' hb')
    intro x hx
    refine other x (fun eq => ?_) ?_
    · have in_b : x ∈ chain b := by
        rw [at_c]
        exact List.mem_append_right l (List.mem_cons_of_mem c (next_mem x eq))
      exact same (fwd.disjoint b' b x hb' hb hx in_b)
    · rintro rfl
      exact same (fwd.disjoint b' b x hb' hb hx c_mem)

/-- The bucket of a base row after a row was appended to `b`. -/
theorem mem_update_append {b b' e x : α} (hx : x ∈ Function.update chain b (chain b ++ [e]) b') :
    x ∈ chain b' ∨ (b' = b ∧ x = e) := by
  by_cases same : b' = b
  · subst same
    rw [update_self, List.mem_append, List.mem_singleton] at hx
    exact hx.imp id (fun eq => ⟨rfl, eq⟩)
  · rw [update_of_ne same] at hx
    exact Or.inl hx

/-- The rows of a bucket after `c` was taken off chain `b`: the old ones without `c`. -/
theorem Forward.mem_update_erase (h : Forward base next chain) {b b' c x : α} {l m : List α}
    (hb : base b) (hb' : base b') (at_c : chain b = l ++ c :: m) :
    x ∈ update chain b (l ++ m) b' ↔ x ∈ chain b' ∧ x ≠ c := by
  have nodup := (List.nodup_cons.mp (path_nodup next b _ (h.path b hb))).2
  rw [at_c] at nodup
  by_cases same : b' = b
  · subst same
    rw [update_self, at_c, List.mem_append, List.mem_append, List.mem_cons]
    have c_out : c ∉ l ++ m := (List.nodup_cons.mp (List.nodup_middle.mp nodup)).1
    rw [List.mem_append] at c_out
    constructor
    · intro hx
      exact ⟨hx.imp id Or.inr, fun eq => c_out (eq ▸ hx)⟩
    · rintro ⟨hx | hx | hx, ne⟩
      · exact Or.inl hx
      · exact absurd hx ne
      · exact Or.inr hx
  · rw [update_of_ne same]
    refine ⟨fun hx => ⟨hx, ?_⟩, And.left⟩
    rintro rfl
    exact same (h.disjoint b' b x hb' hb hx (at_c ▸ List.mem_append_right l List.mem_cons_self))

omit [DecidableEq α] in
/-- The rows around `c` on its chain: the row before it is another row, and so are the rows
behind it. -/
theorem Forward.around (h : Forward base next chain) {b c : α} {l m : List α} (hb : base b)
    (at_c : chain b = l ++ c :: m) :
    l.getLastD b ≠ c ∧ ∀ d, next c = some d → d ∈ chain b ∧ d ≠ c ∧ d ≠ l.getLastD b := by
  have path := h.path b hb
  rw [at_c] at path
  have nodup := path_nodup next b _ path
  rw [← List.cons_append, List.nodup_append] at nodup
  refine ⟨nodup.2.2 _ List.getLastD_mem_cons c List.mem_cons_self, fun d hd => ?_⟩
  have member : d ∈ m :=
    path_next_mem next c m ((path_split next b c l m).mp path).2.2 c d List.mem_cons_self hd
  refine ⟨?_, ?_, ?_⟩
  · rw [at_c]
    exact List.mem_append_right l (List.mem_cons_of_mem c member)
  · rintro rfl
    exact (List.nodup_cons.mp nodup.2.1).1 member
  · exact (nodup.2.2 _ List.getLastD_mem_cons d (List.mem_cons_of_mem c member)).symm

/-! ### Tables with an overflow pool -/

/-- A table whose chains take their rows from a pool, where a row off the base is in use
exactly when it is on a chain. -/
structure Overflow (base pool used : α → Prop) (next : α → Option α) (prev : α → α)
    (chain : α → List α) : Prop where
  forward : Forward base next chain
  backward : Backward base prev chain
  inPool : ∀ b, base b → ∀ e ∈ chain b, pool e
  onChain : ∀ e, ¬base e → used e → ∃ b, base b ∧ e ∈ chain b
  chainUsed : ∀ b, base b → ∀ e ∈ chain b, used e

variable {pool used used' : α → Prop}

section

variable (h : Overflow base pool used next prev chain)
include h

omit [DecidableEq α] in
theorem Overflow.congr (links : ∀ x, Used base chain x → next' x = next x)
    (back : ∀ b, base b → ∀ x ∈ chain b, prev' x = prev x) (usage : ∀ x, ¬base x → (used' x ↔ used x)) :
    Overflow base pool used' next' prev' chain where
  forward := h.forward.congr links
  backward := h.backward.congr (fun x b hb hx => back b hb x hx)
  inPool := h.inPool
  onChain e he hu := h.onChain e he ((usage e he).mp hu)
  chainUsed b hb e he := (usage e (h.forward.offBase b hb e he)).mpr (h.chainUsed b hb e he)

omit [DecidableEq α] in
theorem Overflow.notMem_of_unused {e : α} (unused : ¬used e) : ∀ b, base b → e ∉ chain b :=
  fun b hb he => unused (h.chainUsed b hb e he)

omit [DecidableEq α] in
/-- Only the last row of a bucket has no successor, so a base row without one is alone. -/
theorem Overflow.chain_eq_nil_iff {b : α} (hb : base b) : chain b = [] ↔ next b = none := by
  constructor
  · intro empty
    have path := h.forward.path b hb
    rwa [empty, path_nil] at path
  · intro last
    exact path_unique next b _ _ (h.forward.path b hb) ((path_nil next b).mpr last)

theorem Overflow.append {b e : α} (hb : base b) (he : ¬base e) (from_pool : pool e) (unused : ¬used e)
    (linked : next' ((chain b).getLastD b) = some e) (last : next' e = none)
    (links : ∀ x, x ≠ e → x ≠ (chain b).getLastD b → next' x = next x)
    (back : prev' e = (chain b).getLastD b) (backs : ∀ x, x ≠ e → prev' x = prev x)
    (now_used : used' e) (usage : ∀ x, ¬base x → x ≠ e → (used' x ↔ used x)) :
    Overflow base pool used' next' prev' (update chain b (chain b ++ [e])) := by
  have fresh := h.notMem_of_unused unused
  refine ⟨h.forward.append hb he fresh linked last links, h.backward.append fresh back backs, ?_, ?_, ?_⟩
  · intro b' hb' x hx
    rcases mem_update_append hx with member | ⟨_, rfl⟩
    · exact h.inPool b' hb' x member
    · exact from_pool
  · intro x off hu
    by_cases eq : x = e
    · subst eq
      refine ⟨b, hb, ?_⟩
      rw [update_self]
      exact List.mem_append_right _ List.mem_cons_self
    · obtain ⟨b', hb', member⟩ := h.onChain x off ((usage x off eq).mp hu)
      refine ⟨b', hb', ?_⟩
      by_cases same : b' = b
      · subst same
        rw [update_self]
        exact List.mem_append_left _ member
      · rwa [update_of_ne same]
  · intro b' hb' x hx
    rcases mem_update_append hx with member | ⟨_, rfl⟩
    · have ne : x ≠ e := fun eq => fresh b' hb' (eq ▸ member)
      exact (usage x (h.forward.offBase b' hb' x member) ne).mpr (h.chainUsed b' hb' x member)
    · exact now_used

theorem Overflow.erase {b c : α} {l m : List α} (hb : base b) (at_c : chain b = l ++ c :: m)
    (relinked : next' (l.getLastD b) = next c) (links : ∀ x, x ≠ l.getLastD b → x ≠ c → next' x = next x)
    (repaired : ∀ d, next c = some d → prev' d = l.getLastD b)
    (backs : ∀ x, next c ≠ some x → x ≠ c → prev' x = prev x)
    (released : ¬used' c) (usage : ∀ x, ¬base x → x ≠ c → (used' x ↔ used x)) :
    Overflow base pool used' next' prev' (update chain b (l ++ m)) := by
  have members : ∀ b', base b' → ∀ x, x ∈ update chain b (l ++ m) b' ↔
      x ∈ chain b' ∧ x ≠ c := fun b' hb' x => h.forward.mem_update_erase hb hb' at_c
  refine ⟨h.forward.erase hb at_c relinked links, h.backward.erase h.forward hb at_c repaired backs, ?_, ?_, ?_⟩
  · exact fun b' hb' x hx => h.inPool b' hb' x ((members b' hb' x).mp hx).1
  · intro x off hu
    have ne : x ≠ c := fun eq => released (eq ▸ hu)
    obtain ⟨b', hb', member⟩ := h.onChain x off ((usage x off ne).mp hu)
    exact ⟨b', hb', (members b' hb' x).mpr ⟨member, ne⟩⟩
  · intro b' hb' x hx
    obtain ⟨member, ne⟩ := (members b' hb' x).mp hx
    exact (usage x (h.forward.offBase b' hb' x member) ne).mpr (h.chainUsed b' hb' x member)

end

end Hima.Chains
