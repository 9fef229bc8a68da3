import Mathlib.Data.List.Sort

/-!
# Keyed vectors

A map kept as a vector of key and value pairs that is sorted by key, as `KeyedVector` of
`libutils` keeps it.
-/
namespace Hima

/-- The pairs, in the order of their keys. -/
@[ext] structure KeyedVector (κ ν : Type) [LinearOrder κ] where
  items : List (κ × ν) := []
  sorted : items.Pairwise (fun a b => a.1 < b.1) := by exact .nil

namespace KeyedVector

variable {κ ν : Type} [LinearOrder κ]

/-- The place of a key, or the pair that has it, takes the new pair. -/
def insertItem (k : κ) (v : ν) : List (κ × ν) → List (κ × ν)
  | [] => [(k, v)]
  | (k', v') :: l =>
    if k < k' then (k, v) :: (k', v') :: l
    else if k = k' then (k, v) :: l
    else (k', v') :: insertItem k v l

variable {item : κ × ν}

theorem mem_insertItem {k : κ} {v : ν} {l : List (κ × ν)}
    (member : item ∈ insertItem k v l) : item = (k, v) ∨ item ∈ l := by
  induction l with
  | nil =>
    rw [insertItem, List.mem_singleton] at member
    exact .inl member
  | cons head l ih =>
    rw [insertItem] at member
    split at member
    · exact List.mem_cons.mp member
    · split at member
      · exact (List.mem_cons.mp member).imp_right (List.mem_cons_of_mem _)
      · rcases List.mem_cons.mp member with rfl | later
        · exact .inr List.mem_cons_self
        · exact (ih later).imp_right (List.mem_cons_of_mem _)

theorem sorted_insertItem (k : κ) (v : ν) {l : List (κ × ν)} (sorted : l.Pairwise fun a b => a.1 < b.1) :
    (insertItem k v l).Pairwise fun a b => a.1 < b.1 := by
  induction l with
  | nil => exact List.pairwise_singleton _ _
  | cons head l ih =>
    obtain ⟨above, tail⟩ := List.pairwise_cons.mp sorted
    rw [insertItem]
    split
    next before =>
      refine List.pairwise_cons.mpr ⟨?_, sorted⟩
      intro item member
      rcases List.mem_cons.mp member with rfl | later
      · exact before
      · exact before.trans (above item later)
    next notBefore =>
      split
      next same => exact List.pairwise_cons.mpr ⟨fun item later => same ▸ above item later, tail⟩
      next other =>
        refine List.pairwise_cons.mpr ⟨?_, ih tail⟩
        intro item member
        rcases mem_insertItem member with rfl | later
        · exact lt_of_le_of_ne (not_lt.mp notBefore) (Ne.symm other)
        · exact above item later

/-- `clear`. -/
def empty : KeyedVector κ ν := {}

def add (m : KeyedVector κ ν) (k : κ) (v : ν) : KeyedVector κ ν :=
  ⟨insertItem k v m.items, sorted_insertItem k v m.sorted⟩

def removeItem (m : KeyedVector κ ν) (k : κ) : KeyedVector κ ν :=
  ⟨m.items.filter (·.1 ≠ k), m.sorted.filter _⟩

/-- The pair is removed and added anew. -/
def replaceValueFor (m : KeyedVector κ ν) (k : κ) (v : ν) : KeyedVector κ ν :=
  (m.removeItem k).add k v

/-- The value of a key, or the default of the vector. -/
def valueFor (m : KeyedVector κ ν) (default : ν) (k : κ) : ν :=
  ((m.items.find? (·.1 = k)).map Prod.snd).getD default

/-- The place of a key, `none` for the negative index of an unknown one. -/
def indexOfKey (m : KeyedVector κ ν) (k : κ) : Option Nat := m.items.findIdx? (·.1 = k)

/-- The pair at an index keeps its key. -/
def replaceValueAt (m : KeyedVector κ ν) (i : Nat) (v : ν) : KeyedVector κ ν where
  items := m.items.modify i fun item => (item.1, v)
  sorted := by
    have keys : (m.items.modify i fun item => (item.1, v)).map Prod.fst = m.items.map Prod.fst := by
      apply List.ext_getElem (by simp)
      intro j _ _
      rw [List.getElem_map, List.getElem_map, List.getElem_modify]
      split <;> rfl
    have sorted := List.pairwise_map.mpr m.sorted
    rw [← keys] at sorted
    exact List.pairwise_map.mp sorted

variable {m : KeyedVector κ ν}

theorem items_add_last {k : κ} (v : ν) (last : ∀ item ∈ m.items, item.1 < k) :
    (m.add k v).items = m.items ++ [(k, v)] := by
  rw [add]
  dsimp only
  generalize m.items = l at last
  induction l with
  | nil => rfl
  | cons head l ih =>
    have before := last head List.mem_cons_self
    rw [insertItem, if_neg before.not_gt, if_neg before.ne', ih fun item later =>
      last item (List.mem_cons_of_mem _ later)]
    rfl

theorem mem_add {k : κ} {v : ν} (member : item ∈ (m.add k v).items) : item = (k, v) ∨ item ∈ m.items :=
  mem_insertItem member

theorem mem_removeItem {k : κ} (member : item ∈ (m.removeItem k).items) : item ∈ m.items :=
  List.mem_of_mem_filter member

theorem mem_replaceValueFor {k : κ} {v : ν}
    (member : item ∈ (m.replaceValueFor k v).items) : item = (k, v) ∨ item ∈ m.items :=
  (mem_add member).imp_right mem_removeItem

theorem key_mem_add (m : KeyedVector κ ν) (k : κ) (v : ν) : (k, v) ∈ (m.add k v).items := by
  rw [add]
  dsimp only
  generalize m.items = l
  induction l with
  | nil => exact List.mem_singleton_self _
  | cons head l ih =>
    rw [insertItem]
    split
    · exact List.mem_cons_self
    · split
      · exact List.mem_cons_self
      · exact List.mem_cons_of_mem _ ih

theorem key_mem_add_of_mem (k : κ) (v : ν) {k' : κ}
    (member : k' ∈ m.items.map Prod.fst) : k' ∈ (m.add k v).items.map Prod.fst := by
  rw [add]
  dsimp only
  generalize m.items = l at member
  induction l with
  | nil => simp at member
  | cons head l ih =>
    rw [insertItem]
    split
    · exact List.mem_cons_of_mem _ member
    · rcases List.mem_cons.mp member with rfl | later
      · split
        next same => exact same ▸ List.mem_cons_self
        next => exact List.mem_cons_self
      · split
        · exact List.mem_cons_of_mem _ later
        · exact List.mem_cons_of_mem _ (ih later)

/-- Adding the pairs of a sorted list to the empty vector gives that list. -/
theorem foldl_add_sorted (l : List (κ × ν)) (m : KeyedVector κ ν)
    (sorted : (m.items ++ l).Pairwise fun a b => a.1 < b.1) :
    (l.foldl (fun m item => m.add item.1 item.2) m).items = m.items ++ l := by
  induction l generalizing m with
  | nil => exact (List.append_nil _).symm
  | cons item l ih =>
    have last : ∀ before ∈ m.items, before.1 < item.1 := fun before member =>
      (List.pairwise_append.mp sorted).2.2 before member item List.mem_cons_self
    have added := items_add_last item.2 last
    rw [List.foldl_cons, ih, added, List.append_assoc]
    · rfl
    · rw [added, List.append_assoc]
      exact sorted

/-- Pairs whose value is the default one make no difference to a reader. -/
theorem valueFor_filter (m : KeyedVector κ ν) (default : ν) (p : κ × ν → Bool)
    (dropped : ∀ item ∈ m.items, p item = false → item.2 = default) (k : κ) :
    (⟨m.items.filter p, m.sorted.filter p⟩ : KeyedVector κ ν).valueFor default k = m.valueFor default k := by
  obtain ⟨l, sorted⟩ := m
  rw [valueFor, valueFor]
  dsimp only at dropped ⊢
  induction l with
  | nil => rfl
  | cons item l ih =>
    obtain ⟨above, tail⟩ := List.pairwise_cons.mp sorted
    have rest := ih tail fun later member => dropped later (List.mem_cons_of_mem _ member)
    by_cases here : item.1 = k
    · cases keeps : p item with
      | true => rw [List.filter_cons_of_pos keeps, List.find?_cons_of_pos (by simpa using here),
          List.find?_cons_of_pos (by simpa using here)]
      | false =>
        -- No later pair has the key of the dropped one.
        have absent : (l.filter p).find? (·.1 = k) = none := by
          rw [List.find?_eq_none]
          intro later member same
          have after := above later (List.mem_of_mem_filter member)
          exact after.ne (here.trans (of_decide_eq_true same).symm)
        rw [List.filter_cons_of_neg (by simp [keeps]), absent, List.find?_cons_of_pos (by simpa using here)]
        exact (dropped item List.mem_cons_self keeps).symm
    · rw [List.find?_cons_of_neg (by simpa using here)]
      cases keeps : p item with
      | true => rw [List.filter_cons_of_pos keeps, List.find?_cons_of_neg (by simpa using here), rest]
      | false => rw [List.filter_cons_of_neg (by simp [keeps]), rest]

/-! ### One key at a time -/

/-- The value of a key that may be unknown. -/
def lookup (m : KeyedVector κ ν) (k : κ) : Option ν := (m.items.find? (·.1 = k)).map Prod.snd

/-- The pair of a known key takes the value. -/
def setValueFor (m : KeyedVector κ ν) (k : κ) (v : ν) : KeyedVector κ ν where
  items := m.items.map fun item => if item.1 = k then (k, v) else item
  sorted := by
    have keys : (m.items.map fun item => if item.1 = k then (k, v) else item).map Prod.fst =
        m.items.map Prod.fst := by
      rw [List.map_map]
      apply List.map_congr_left
      intro item _
      simp only [Function.comp_apply]
      split
      next same => exact same.symm
      next => rfl
    have sorted := List.pairwise_map.mpr m.sorted
    rw [← keys] at sorted
    exact List.pairwise_map.mp sorted

theorem lookup_add (m : KeyedVector κ ν) (k : κ) (v : ν) (k' : κ) :
    (m.add k v).lookup k' = if k' = k then some v else m.lookup k' := by
  obtain ⟨l, sorted⟩ := m
  simp only [lookup, add]
  induction l with
  | nil =>
    rw [insertItem]
    by_cases here : k' = k
    · simp [here]
    · simp [here, Ne.symm here]
  | cons head l ih =>
    have rest := ih (List.pairwise_cons.mp sorted).2
    rw [insertItem]
    split
    next before =>
      by_cases here : k' = k
      · simp [here]
      · rw [if_neg here, List.find?_cons_of_neg (by simpa using Ne.symm here)]
    next notBefore =>
      split
      next same =>
        by_cases here : k' = k
        · simp [here]
        · rw [if_neg here, List.find?_cons_of_neg (by simpa using Ne.symm here),
            List.find?_cons_of_neg (by simpa [← same] using Ne.symm here)]
      next other =>
        by_cases first : head.1 = k'
        · have apart : k' ≠ k := fun same => other (same.symm.trans first.symm)
          rw [if_neg apart, List.find?_cons_of_pos (by simpa using first),
            List.find?_cons_of_pos (by simpa using first)]
        · rw [List.find?_cons_of_neg (by simpa using first), rest,
            List.find?_cons_of_neg (by simpa using first)]

theorem lookup_removeItem (m : KeyedVector κ ν) (k k' : κ) :
    (m.removeItem k).lookup k' = if k' = k then none else m.lookup k' := by
  obtain ⟨l, sorted⟩ := m
  simp only [lookup, removeItem]
  by_cases here : k' = k
  · subst here
    simp
  · rw [if_neg here]
    congr 1
    rw [List.find?_filter]
    congr 1
    funext item
    by_cases there : item.1 = k'
    · simp [there, here]
    · simp [there]

theorem lookup_setValueFor (m : KeyedVector κ ν) (k : κ) (v : ν) (k' : κ) :
    (m.setValueFor k v).lookup k' = if k' = k then (m.lookup k).map fun _ => v else m.lookup k' := by
  obtain ⟨l, sorted⟩ := m
  simp only [lookup, setValueFor]
  induction l with
  | nil => simp
  | cons head l ih =>
    have rest := ih (List.pairwise_cons.mp sorted).2
    rw [List.map_cons]
    by_cases first : head.1 = k
    · rw [if_pos first]
      by_cases here : k' = k
      · simp [here, first]
      · rw [List.find?_cons_of_neg (by simpa using Ne.symm here), rest, if_neg here, if_neg here,
          List.find?_cons_of_neg (by simpa [first] using Ne.symm here)]
    · rw [if_neg first]
      by_cases there : head.1 = k'
      · have apart : k' ≠ k := fun same => first (there.trans same)
        rw [if_neg apart, List.find?_cons_of_pos (by simpa using there),
          List.find?_cons_of_pos (by simpa using there)]
      · rw [List.find?_cons_of_neg (by simpa using there), rest,
          List.find?_cons_of_neg (by simpa using first), List.find?_cons_of_neg (by simpa using there)]

/-- A known key takes the value, and the other ones keep theirs. -/
theorem lookup_setValueFor_of_lookup {k : κ} {old : ν} (known : m.lookup k = some old) (v : ν) (k' : κ) :
    (m.setValueFor k v).lookup k' = if k' = k then some v else m.lookup k' := by
  rw [lookup_setValueFor, known, Option.map_some]

theorem isSome_lookup_setValueFor (m : KeyedVector κ ν) (k : κ) (v : ν) (k' : κ) :
    ((m.setValueFor k v).lookup k').isSome = (m.lookup k').isSome := by
  rw [lookup_setValueFor]
  split
  next same => rw [Option.isSome_map, same]
  next => rfl

theorem isSome_lookup_of_mem (member : item ∈ m.items) :
    (m.lookup item.1).isSome := by
  rw [lookup, Option.isSome_map, List.find?_isSome]
  exact ⟨item, member, decide_eq_true rfl⟩

/-- The pair of a key is found under the key. -/
theorem lookup_eq_some_iff {k : κ} {v : ν} :
    m.lookup k = some v ↔ (k, v) ∈ m.items := by
  constructor
  · intro found
    obtain ⟨item, first, rfl⟩ := Option.map_eq_some_iff.mp found
    have same : item.1 = k := by simpa using List.find?_some first
    exact same ▸ List.mem_of_find?_eq_some first
  · intro member
    have present : (m.items.find? (·.1 = k)).isSome := List.find?_isSome.mpr ⟨_, member, by simp⟩
    obtain ⟨item, first⟩ := Option.isSome_iff_exists.mp present
    have same : item.1 = k := by simpa using List.find?_some first
    -- No other pair has the key.
    have keys : (m.items.map Prod.fst).Nodup := List.pairwise_map.mpr (m.sorted.imp ne_of_lt)
    have only : item = (k, v) := List.inj_on_of_nodup_map keys (List.mem_of_find?_eq_some first) member same
    rw [lookup, first, only]
    rfl

/-- The pair of a known key, with what stands before and behind it. -/
theorem split_of_lookup {k : κ} {v : ν} (known : m.lookup k = some v) :
    ∃ pre post, m.items = pre ++ (k, v) :: post ∧ (m.removeItem k).items = pre ++ post ∧
      ∀ w, (m.setValueFor k w).items = pre ++ (k, w) :: post := by
  obtain ⟨pre, post, items⟩ := List.append_of_mem (lookup_eq_some_iff.mp known)
  have others : ∀ item ∈ pre ++ post, item.1 ≠ k := by
    have sorted := m.sorted
    rw [items] at sorted
    obtain ⟨-, behind, before⟩ := List.pairwise_append.mp sorted
    intro item member
    rcases List.mem_append.mp member with earlier | later
    · exact (before item earlier _ List.mem_cons_self).ne
    · exact ((List.pairwise_cons.mp behind).1 item later).ne'
  have kept (w : ν) (l : List (κ × ν)) (apart : ∀ item ∈ l, item.1 ≠ k) :
      l.map (fun item => if item.1 = k then (k, w) else item) = l :=
    (List.map_congr_left fun item member => if_neg (apart item member)).trans (List.map_id' l)
  have left := fun item member => others item (List.mem_append_left post member)
  have right := fun item member => others item (List.mem_append_right pre member)
  refine ⟨pre, post, items, ?_, fun w => ?_⟩
  · rw [removeItem]
    dsimp only
    rw [items, List.filter_append, List.filter_cons_of_neg (by simp), ← List.filter_append]
    exact List.filter_eq_self.mpr fun item member => decide_eq_true (others item member)
  · rw [setValueFor]
    dsimp only
    rw [items, List.map_append, List.map_cons, if_pos rfl, kept w pre left, kept w post right]

end KeyedVector

end Hima
