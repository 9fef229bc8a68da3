import Hima.Gps.LinkedList

/-!
# linked_list_search

The search goes from the head to the first element that `equal` accepts and may take it out of the
list. Every place an element can have patches other pointers: both ends, one of them, or the two
neighbours.
-/
namespace Hima.Gps

open DoublyLinked

variable {π δ : Type} {list : ListState π} {heap : ElementHeap π δ} {elems before after : List π}
  {data front back : List (δ × Bool)} {z : π} {x : δ × Bool}

/-- The loop of `linked_list_search`: the element where it stops, and the data that `equal` is asked
about. `none` also when the turns do not suffice. -/
def searchLoop (equal : δ → Bool) : Nat → Option π → ElementHeap π δ → Option (Option π × List δ)
  | _, none, _ => some (none, [])
  | 0, some _, _ => none
  | turns + 1, some tmp, heap =>
    (heap tmp).bind fun e =>
      if equal e.data then some (some tmp, [e.data])
      else (searchLoop equal turns e.next heap).map fun (found, asked) => (found, e.data :: asked)

variable [DecidableEq π]

/-- The first test of the removal: the predecessor, or the head, is linked to the successor. -/
def unlinkNext (list : ListState π) (heap : ElementHeap π δ) (prev next : Option π) :
    Option (ListState π × ElementHeap π δ) :=
  match prev with
  | none => some ({ list with pHead := next }, heap)
  | some prev => (heap.setNext prev next).map fun heap => (list, heap)

/-- The second test: the successor, or the tail, is linked to the predecessor. -/
def unlinkPrev (list : ListState π) (heap : ElementHeap π δ) (prev next : Option π) :
    Option (ListState π × ElementHeap π δ) :=
  match next with
  | none => some ({ list with pTail := prev }, heap)
  | some next => (heap.setPrev next prev).map fun heap => (list, heap)

/-- The removal of `tmp`, which is `e`, up to its `free`. -/
def unlink (list : ListState π) (heap : ElementHeap π δ) (tmp : π) (e : ListElement π δ) :
    Option (ListState π × ElementHeap π δ) :=
  (unlinkNext list heap e.prev e.next).bind fun (list, heap) =>
    (unlinkPrev list heap e.prev e.next).map fun (list, heap) => (list, Function.update heap tmp none)

/-- What a call of `linked_list_search` leaves for its caller: what it writes to `*data_p`, if it
does, the data that `equal` was asked about, and those that were deallocated. -/
structure Searched (δ : Type) where
  rv : LinkedListErr
  dataP : Option (Option δ) := none
  asked : List δ := []
  deallocated : List δ := []

/-- `dataP` says that there is a `data_p`. What is found is deallocated unless it is handed over. -/
def linkedListSearch (turns : Nat) (list : ListState π) (heap : ElementHeap π δ) (equal : δ → Bool)
    (dataP rmIfFound : Bool) : Option (Searched δ × ListState π × ElementHeap π δ) :=
  match list.pTail with
  | none => some ({ rv := .unavailableResource }, list, heap)
  | some _ =>
    (searchLoop equal turns list.pHead heap).bind fun
      | (none, asked) =>
        some ({ rv := .success, dataP := if dataP then some none else none, asked := asked }, list, heap)
      | (some tmp, asked) =>
        (heap tmp).bind fun e =>
          let written := if dataP then some (some e.data) else none
          if rmIfFound then
            (unlink list heap tmp e).map fun (list, heap) =>
              ({ rv := .success
                 dataP := written
                 asked := asked
                 deallocated := if !dataP && e.dealloc then [e.data] else [] }, list, heap)
          else some ({ rv := .success, dataP := written, asked := asked }, list, heap)

/-! ### The loop -/

omit [DecidableEq π] in
theorem entry_eq_some {p : π} (entry : heap.entry p = some x) :
    ∃ e, heap p = some e ∧ e.data = x.1 ∧ e.dealloc = x.2 := by
  obtain ⟨e, live, same⟩ := Option.map_eq_some_iff.mp entry
  exact ⟨e, live, congrArg Prod.fst same, congrArg Prod.snd same⟩

omit [DecidableEq π] in
/-- With a turn for each element the loop stops at the first match, or asks about all of them. -/
theorem searchLoop_stops (equal : δ → Bool) {pred : Option π} {turns : Nat}
    (linked : Linked heap.next heap.prev pred elems none)
    (entries : elems.map heap.entry = data.map some) (enough : elems.length ≤ turns) :
    ((∀ x ∈ data, equal x.1 = false) ∧
        searchLoop equal turns elems.head? heap = some (none, data.map Prod.fst)) ∨
      ∃ before z after front x back, elems = before ++ z :: after ∧ data = front ++ x :: back ∧
        before.map heap.entry = front.map some ∧ heap.entry z = some x ∧ after.map heap.entry = back.map some ∧
        (∀ y ∈ front, equal y.1 = false) ∧ equal x.1 = true ∧
        searchLoop equal turns elems.head? heap = some (some z, front.map Prod.fst ++ [x.1]) := by
  induction elems generalizing data pred turns with
  | nil =>
    have empty : data = [] := by simpa using entries.symm
    subst empty
    exact .inl ⟨nofun, by cases turns <;> rfl⟩
  | cons a elems ih =>
    obtain ⟨x, data, rfl, at_a, entries⟩ := List.map_eq_cons_iff.mp entries.symm
    obtain ⟨e, live, same_data, -⟩ := entry_eq_some at_a.symm
    obtain ⟨-, forth, rest⟩ := linked
    cases turns with
    | zero => exact absurd enough (Nat.not_succ_le_zero _)
    | succ turns =>
      have next : e.next = elems.head? := by
        simpa [ElementHeap.next, live] using forth
      have turn : searchLoop equal (turns + 1) (a :: elems).head? heap = if equal x.1 then some (some a, [x.1])
          else (searchLoop equal turns elems.head? heap).map fun (found, asked) =>
            (found, x.1 :: asked) := by
        rw [List.head?_cons, searchLoop, live, Option.bind_some, same_data, next]
      by_cases here : equal x.1 = true
      · refine .inr ⟨[], a, elems, [], x, data, rfl, rfl, rfl, at_a.symm, entries.symm, nofun, here, ?_⟩
        rw [turn, if_pos here]
        rfl
      · have no : equal x.1 = false := Bool.eq_false_iff.mpr here
        rw [turn, if_neg here]
        rcases ih rest entries.symm (Nat.le_of_succ_le_succ enough) with
          ⟨none, looped⟩ | ⟨before, z, after, front, y, back, rfl, rfl, first, mid, last, none, yes, looped⟩
        · exact .inl ⟨List.forall_mem_cons.mpr ⟨no, none⟩, by rw [looped]; rfl⟩
        · refine .inr ⟨a :: before, z, after, x :: front, y, back, rfl, rfl, ?_, mid, last,
            List.forall_mem_cons.mpr ⟨no, none⟩, yes, by rw [looped]; rfl⟩
          rw [List.map_cons, List.map_cons, first, at_a]

/-! ### The removal -/

/-- A write of one `next` pointer: the element stays live, and every other pointer is as it was. -/
theorem setNext_spec {p : π} (live : (heap p).isSome) (next : Option π) :
    ∃ heap', heap.setNext p next = some heap' ∧ ∀ q, heap'.entry q = heap.entry q ∧
      heap'.prev q = heap.prev q ∧ heap'.next q = (if p = q then next else heap.next q) ∧
      (heap' q).isSome = (heap q).isSome := by
  obtain ⟨e, at_p⟩ := Option.isSome_iff_exists.mp live
  refine ⟨Function.update heap p (some { e with next := next }), ?_, fun q => ?_⟩
  · rw [ElementHeap.setNext, at_p]
    rfl
  · by_cases same : p = q
    · subst same
      simp [ElementHeap.entry, ElementHeap.prev, ElementHeap.next, at_p]
    · simp [ElementHeap.entry, ElementHeap.prev, ElementHeap.next, same, Ne.symm same]

theorem setPrev_spec {p : π} (live : (heap p).isSome) (prev : Option π) :
    ∃ heap', heap.setPrev p prev = some heap' ∧ ∀ q, heap'.entry q = heap.entry q ∧
      heap'.next q = heap.next q ∧ heap'.prev q = (if p = q then prev else heap.prev q) ∧
      (heap' q).isSome = (heap q).isSome := by
  obtain ⟨e, at_p⟩ := Option.isSome_iff_exists.mp live
  refine ⟨Function.update heap p (some { e with prev := prev }), ?_, fun q => ?_⟩
  · rw [ElementHeap.setPrev, at_p]
    rfl
  · by_cases same : p = q
    · subst same
      simp [ElementHeap.entry, ElementHeap.prev, ElementHeap.next, at_p]
    · simp [ElementHeap.entry, ElementHeap.prev, ElementHeap.next, same, Ne.symm same]

theorem unlinkNext_spec (list : ListState π) {prev : Option π} (next : Option π)
    (live : ∀ p, prev = some p → (heap p).isSome) :
    ∃ heap', unlinkNext list heap prev next =
        some ({ list with pHead := if prev = none then next else list.pHead }, heap') ∧
      ∀ q, heap'.entry q = heap.entry q ∧ heap'.prev q = heap.prev q ∧
        heap'.next q = (if prev = some q then next else heap.next q) ∧
        (heap' q).isSome = (heap q).isSome := by
  cases prev with
  | none => exact ⟨heap, rfl, fun q => ⟨rfl, rfl, (if_neg nofun).symm, rfl⟩⟩
  | some p =>
    obtain ⟨heap', written, kept⟩ := setNext_spec (live p rfl) next
    exact ⟨heap', by simp [unlinkNext, written], fun q => by simpa using kept q⟩

theorem unlinkPrev_spec (list : ListState π) (prev : Option π) {next : Option π}
    (live : ∀ p, next = some p → (heap p).isSome) :
    ∃ heap', unlinkPrev list heap prev next =
        some ({ list with pTail := if next = none then prev else list.pTail }, heap') ∧
      ∀ q, heap'.entry q = heap.entry q ∧ heap'.next q = heap.next q ∧
        heap'.prev q = (if next = some q then prev else heap.prev q) ∧
        (heap' q).isSome = (heap q).isSome := by
  cases next with
  | none => exact ⟨heap, rfl, fun q => ⟨rfl, rfl, (if_neg nofun).symm, rfl⟩⟩
  | some p =>
    obtain ⟨heap', written, kept⟩ := setPrev_spec (live p rfl) prev
    exact ⟨heap', by simp [unlinkPrev, written], fun q => by simpa using kept q⟩

namespace ListState.Holds

theorem unlink (holds : list.Holds heap (before ++ z :: after) (front ++ x :: back))
    (first : before.map heap.entry = front.map some) (last : after.map heap.entry = back.map some)
    {e : ListElement π δ} (live : heap z = some e) :
    ∃ list' heap', Gps.unlink list heap z e = some (list', heap') ∧
      list'.Holds heap' (before ++ after) (front ++ back) := by
  obtain ⟨linked_before, back_z, forth_z, -⟩ := linked_append.mp holds.linked
  have prev : e.prev = before.getLast? := by
    simpa [ElementHeap.prev, live] using back_z
  have next : e.next = after.head? := by
    simpa [ElementHeap.next, live] using forth_z
  obtain ⟨nodup_before, nodup_rest, apart⟩ := List.nodup_append.mp holds.nodup
  obtain ⟨z_after, nodup_after⟩ := List.nodup_cons.mp nodup_rest
  have z_before : ∀ a ∈ before, a ≠ z := fun a member => apart a member z List.mem_cons_self
  have z_beside : ∀ a ∈ after, a ≠ z := fun a member same => z_after (same ▸ member)
  have across : ∀ a ∈ before, ∀ b ∈ after, a ≠ b :=
    fun a member b member' => apart a member b (List.mem_cons_of_mem _ member')
  have nodup : (before ++ after).Nodup :=
    List.nodup_append.mpr ⟨nodup_before, nodup_after, across⟩
  have live_prev : ∀ p, e.prev = some p → (heap p).isSome := by
    intro p here
    obtain ⟨e', at_p⟩ := entries_live first (List.mem_of_getLast? (prev.symm.trans here))
    exact Option.isSome_of_eq_some at_p
  have live_next : ∀ p, e.next = some p → (heap p).isSome := by
    intro p here
    obtain ⟨e', at_p⟩ := entries_live last (List.mem_of_head? (next.symm.trans here))
    exact Option.isSome_of_eq_some at_p
  obtain ⟨heap₁, step₁, kept₁⟩ := unlinkNext_spec list e.next live_prev
  obtain ⟨heap₂, step₂, kept₂⟩ := unlinkPrev_spec
    { list with pHead := if e.prev = none then e.next else list.pHead } e.prev
    fun p here => ((kept₁ p).2.2.2).trans (live_next p here)
  let heap' : ElementHeap π δ := Function.update heap₂ z none
  have unlinked : Gps.unlink list heap z e = some (⟨if e.prev = none then e.next else list.pHead,
      if e.next = none then e.prev else list.pTail⟩, heap') := by
    simp only [Gps.unlink, step₁, Option.bind_some, step₂, Option.map_some, heap']
  -- what the two writes leave of an element other than `z`
  have entry : ∀ p, p ≠ z → heap'.entry p = heap.entry p := by
    intro p other
    simp only [heap', ElementHeap.entry, Function.update_of_ne other]
    exact (kept₂ p).1.trans (kept₁ p).1
  have nexts : ∀ p, p ≠ z → heap'.next p = if before.getLast? = some p then after.head? else heap.next p := by
    intro p other
    simp only [heap', ElementHeap.next, Function.update_of_ne other]
    rw [← prev, ← next]
    exact (kept₂ p).2.1.trans (kept₁ p).2.2.1
  have prevs : ∀ p, p ≠ z → heap'.prev p = if after.head? = some p then before.getLast? else heap.prev p := by
    intro p other
    simp only [heap', ElementHeap.prev, Function.update_of_ne other]
    rw [← prev, ← next]
    exact (kept₂ p).2.2.1.trans (if_congr Iff.rfl rfl (kept₁ p).2.1)
  -- a predecessor is not the head of what comes after, nor a successor the last before
  have no_next : ∀ a ∈ before, after.head? ≠ some a := fun a member here =>
    across a member a (List.mem_of_head? here) rfl
  have no_prev : ∀ a ∈ after, before.getLast? ≠ some a := fun a member here =>
    across a (List.mem_of_getLast? here) a member rfl
  refine ⟨_, heap', unlinked, ?_, ?_, ?_, nodup, ?_, ?_⟩
  · cases before with
    | nil => rw [prev, next]; rfl
    | cons b before =>
      rw [prev, if_neg (by simp)]
      exact holds.head
  · cases after with
    | nil => simp [prev, next]
    | cons b after =>
      rw [next, List.head?_cons, if_neg (Option.some_ne_none b), holds.tail]
      simp [List.getLast?_append]
  · apply holds.linked.take_out nodup
    · intro a member
      exact ⟨(prevs a (z_before a member)).trans (if_neg (no_next a member)), nexts a (z_before a member)⟩
    · intro a member
      exact ⟨(nexts a (z_beside a member)).trans (if_neg (no_prev a member)), prevs a (z_beside a member)⟩
  · rw [List.map_append, List.map_append, entries_congr first fun p member => entry p (z_before p member),
      entries_congr last fun p member => entry p (z_beside p member)]
  · intro p alive
    by_cases gone : p = z
    · simp [heap', gone] at alive
    · simp only [heap', Function.update_of_ne gone] at alive
      have old := holds.only p (((kept₂ p).2.2.2.trans (kept₁ p).2.2.2) ▸ alive)
      simpa [gone] using old

end ListState.Holds

end Hima.Gps
