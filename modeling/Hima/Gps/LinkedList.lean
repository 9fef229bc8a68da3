import Hima.Lib.LinkedLists

/-!
# linked_list

The doubly linked list of heap elements under the message queue: added at the head, removed at the
tail. An operation yields `none` when it follows a pointer to memory that is not live.
-/
namespace Hima.Gps

open DoublyLinked Function

inductive LinkedListErr where
  | success
  | failureGeneral
  | invalidParameter
  | invalidHandle
  | unavailableResource
  | insufficientBuffer
  deriving DecidableEq

/-- `list_element`; `dealloc` says that the element has a `dealloc_func`. -/
structure ListElement (π δ : Type) where
  next : Option π
  prev : Option π
  data : δ
  dealloc : Bool

/-- `list_state`. -/
structure ListState (π : Type) where
  pHead : Option π := none
  pTail : Option π := none

/-- The live elements, by address. -/
abbrev ElementHeap (π δ : Type) := π → Option (ListElement π δ)

variable {π δ : Type}

/-! ### What a list holds -/

namespace ElementHeap

variable (heap : ElementHeap π δ)

def next (p : π) : Option π := (heap p).bind (·.next)

def prev (p : π) : Option π := (heap p).bind (·.prev)

/-- The data of an element, and whether it is to be deallocated. -/
def entry (p : π) : Option (δ × Bool) := (heap p).map fun e => (e.data, e.dealloc)

end ElementHeap

/-- The list consists of these elements, from head to tail, with these data, and no other element is
live. -/
structure ListState.Holds (list : ListState π) (heap : ElementHeap π δ) (elems : List π)
    (data : List (δ × Bool)) : Prop where
  head : list.pHead = elems.head?
  tail : list.pTail = elems.getLast?
  linked : Linked heap.next heap.prev none elems none
  nodup : elems.Nodup
  entries : elems.map heap.entry = data.map some
  only : ∀ p, (heap p).isSome → p ∈ elems

variable {list : ListState π} {heap : ElementHeap π δ} {elems : List π} {data : List (δ × Bool)}

theorem entries_live (entries : elems.map heap.entry = data.map some) {p : π} (member : p ∈ elems) :
    ∃ e, heap p = some e := by
  have there : heap.entry p ∈ data.map some := by
    rw [← entries]
    exact List.mem_map_of_mem member
  obtain ⟨entry, -, same⟩ := List.mem_map.mp there
  obtain ⟨e, at_p, -⟩ := Option.map_eq_some_iff.mp same.symm
  exact ⟨e, at_p⟩

theorem entries_congr {heap' : ElementHeap π δ} (entries : elems.map heap.entry = data.map some)
    (same : ∀ p ∈ elems, heap'.entry p = heap.entry p) : elems.map heap'.entry = data.map some := by
  rw [← entries]
  exact List.map_congr_left same

theorem holds_empty : ({} : ListState π).Holds (fun _ => none : ElementHeap π δ) [] [] :=
  ⟨rfl, rfl, trivial, List.nodup_nil, rfl, nofun⟩

def linkedListEmpty (list : ListState π) : Bool := list.pHead.isNone

theorem ListState.Holds.length (holds : list.Holds heap elems data) : elems.length = data.length := by
  have lengths := congrArg List.length holds.entries
  rwa [List.length_map, List.length_map] at lengths

theorem ListState.Holds.empty_iff (holds : list.Holds heap elems data) :
    linkedListEmpty list = true ↔ data = [] := by
  rw [linkedListEmpty, holds.head, Option.isNone_iff_eq_none, List.head?_eq_none_iff,
    ← List.length_eq_zero_iff, holds.length, List.length_eq_zero_iff]

/-! ### The operations -/

variable [DecidableEq π]

namespace ElementHeap

def setNext (heap : ElementHeap π δ) (p : π) (next : Option π) : Option (ElementHeap π δ) :=
  (heap p).map fun e => update heap p (some { e with next := next })

def setPrev (heap : ElementHeap π δ) (p : π) (prev : Option π) : Option (ElementHeap π δ) :=
  (heap p).map fun e => update heap p (some { e with prev := prev })

end ElementHeap

/-- `elem` is what `malloc` returns. -/
def linkedListAdd (list : ListState π) (heap : ElementHeap π δ) (dataObj : δ) (dealloc : Bool) :
    Option π → Option (LinkedListErr × ListState π × ElementHeap π δ)
  | none => some (.failureGeneral, list, heap)
  | some elem =>
    let tmp := list.pHead
    let heap : ElementHeap π δ := update heap elem
      (some { next := tmp, prev := none, data := dataObj, dealloc := dealloc })
    match tmp with
    | some tmp =>
      (heap.setPrev tmp (some elem)).map fun heap => (.success, { list with pHead := some elem }, heap)
    | none => some (.success, { pHead := some elem, pTail := some elem }, heap)

/-- The result and the data removed. -/
def linkedListRemove (list : ListState π) (heap : ElementHeap π δ) :
    Option (LinkedListErr × Option δ × ListState π × ElementHeap π δ) :=
  match list.pTail with
  | none => some (.unavailableResource, none, list, heap)
  | some tmp =>
    (heap tmp).bind fun e =>
      match e.prev with
      | some pTail =>
        (heap.setNext pTail none).map fun heap =>
          (.success, some e.data, { list with pTail := some pTail }, update heap tmp none)
      | none =>
        some (.success, some e.data, { pHead := none, pTail := none }, update heap tmp none)

/-- The loop of `linked_list_flush`: what it frees, each with whether it was deallocated. `none` also
when the turns do not suffice. -/
def flushLoop : Nat → Option π → ElementHeap π δ → Option (List (δ × Bool) × ElementHeap π δ)
  | _, none, heap => some ([], heap)
  | 0, some _, _ => none
  | turns + 1, some pHead, heap =>
    (heap pHead).bind fun e =>
      (flushLoop turns e.next (update heap pHead none)).map fun (freed, heap) =>
        ((e.data, e.dealloc) :: freed, heap)

def linkedListFlush (turns : Nat) (list : ListState π) (heap : ElementHeap π δ) :
    Option (LinkedListErr × List (δ × Bool) × ListState π × ElementHeap π δ) :=
  (flushLoop turns list.pHead heap).map fun (freed, heap) =>
    (.success, freed, { pHead := none, pTail := none }, heap)

namespace ListState.Holds

theorem add (holds : list.Holds heap elems data) {elem : π} (fresh : heap elem = none)
    (dataObj : δ) (dealloc : Bool) :
    ∃ list' heap', linkedListAdd list heap dataObj dealloc (some elem) = some (.success, list', heap') ∧
      list'.Holds heap' (elem :: elems) ((dataObj, dealloc) :: data) := by
  have apart : ∀ p ∈ elems, p ≠ elem := by
    rintro p member rfl
    obtain ⟨e, live⟩ := entries_live holds.entries member
    rw [fresh] at live
    cases live
  have nodup : (elem :: elems).Nodup :=
    List.nodup_cons.mpr ⟨fun member => apart elem member rfl, holds.nodup⟩
  have head := holds.head
  -- into an empty list both ends move; otherwise only the old head is written
  cases elems with
  | nil =>
    have empty : data = [] := List.length_eq_zero_iff.mp holds.length.symm
    subst empty
    refine ⟨⟨some elem, some elem⟩, update heap elem (some ⟨none, none, dataObj, dealloc⟩), ?_,
      rfl, rfl, ?_, nodup, ?_, ?_⟩
    · simp [linkedListAdd, head]
    · simp [ElementHeap.next, ElementHeap.prev]
    · simp [ElementHeap.entry]
    · intro p live
      by_cases same : p = elem
      · exact same ▸ List.mem_cons_self
      · rw [update_of_ne same] at live
        exact absurd (holds.only p live) List.not_mem_nil
  | cons first elems =>
    obtain ⟨e, live⟩ := entries_live holds.entries List.mem_cons_self
    have other : first ≠ elem := apart first List.mem_cons_self
    refine ⟨{ list with pHead := some elem }, update (update heap elem
      (some ⟨some first, none, dataObj, dealloc⟩)) first (some { e with prev := some elem }), ?_, rfl,
      ?_, ?_, nodup, ?_, ?_⟩
    · simp [linkedListAdd, head, ElementHeap.setPrev, update_of_ne other, live]
    · exact holds.tail
    -- the links of the others are read past both writes
    · apply holds.linked.push_front nodup
      · simp [ElementHeap.prev, update_of_ne other.symm]
      · simp [ElementHeap.next, update_of_ne other.symm]
      · intro a member
        by_cases same : first = a
        · subst same
          simp [ElementHeap.next, ElementHeap.prev, live]
        · have beside := apart a member
          simp [ElementHeap.next, ElementHeap.prev, same, Ne.symm same, beside]
    · rw [List.map_cons, List.map_cons]
      congr 1
      · simp [ElementHeap.entry, update_of_ne other.symm]
      · apply entries_congr holds.entries
        intro p member
        by_cases same : p = first
        · subst same
          simp [ElementHeap.entry, live]
        · simp [ElementHeap.entry, same, apart p member]
    · intro p alive
      by_cases new : p = elem
      · exact new ▸ List.mem_cons_self
      · apply List.mem_cons_of_mem
        by_cases same : p = first
        · exact same ▸ List.mem_cons_self
        · rw [update_of_ne same, update_of_ne new] at alive
          exact holds.only p alive

theorem remove {z : π} {oldest : δ × Bool} (holds : list.Holds heap (elems ++ [z]) (data ++ [oldest])) :
    ∃ list' heap', linkedListRemove list heap = some (.success, some oldest.1, list', heap') ∧
      list'.Holds heap' elems data := by
  obtain ⟨nodup, -, apart⟩ := List.nodup_append.mp holds.nodup
  have beside : ∀ p ∈ elems, p ≠ z := fun p member => apart p member z (by simp)
  have tail : list.pTail = some z := by rw [holds.tail, List.getLast?_concat]
  have entries : elems.map heap.entry = data.map some ∧ heap.entry z = some oldest := by
    have both := holds.entries
    rw [List.map_append, List.map_append] at both
    obtain ⟨front, back⟩ := List.append_inj' both rfl
    exact ⟨front, by simpa using back⟩
  obtain ⟨e, at_z, at_oldest⟩ := Option.map_eq_some_iff.mp entries.2
  have data_eq : e.data = oldest.1 := congrArg Prod.fst at_oldest
  have prev_eq : e.prev = elems.getLast? := by
    have back := (linked_append.mp holds.linked).2.1
    simpa [ElementHeap.prev, at_z] using back
  -- the last element leaves an empty list; otherwise its predecessor becomes the tail
  cases elems using List.reverseRecOn with
  | nil =>
    have empty : data = [] := by simpa using entries.1.symm
    subst empty
    refine ⟨⟨none, none⟩, update heap z none, ?_, rfl, rfl, trivial, List.nodup_nil, rfl, ?_⟩
    · have first : e.prev = none := prev_eq
      simp [linkedListRemove, tail, at_z, first, data_eq]
    · intro p alive
      by_cases same : p = z
      · simp [same] at alive
      · rw [update_of_ne same] at alive
        simpa [same] using holds.only p alive
  | append_singleton elems y =>
    have other : y ≠ z := beside y (by simp)
    obtain ⟨f, at_y⟩ := entries_live entries.1 (p := y) (by simp)
    refine ⟨{ list with pTail := some y },
      update (update heap y (some { f with next := none })) z none, ?_, ?_, ?_, ?_,
      nodup, ?_, ?_⟩
    · simp [linkedListRemove, tail, at_z, prev_eq, ElementHeap.setNext, at_y, data_eq]
    · rw [holds.head]
      cases elems <;> rfl
    · rw [List.getLast?_concat]
    -- the links of the others are read past both writes
    · apply holds.linked.pop_back nodup
      intro a member
      have kept := beside a member
      by_cases same : y = a
      · subst same
        simp [ElementHeap.next, ElementHeap.prev, kept, at_y]
      · simp [ElementHeap.next, ElementHeap.prev, kept, same, Ne.symm same]
    · apply entries_congr entries.1
      intro p member
      have kept := beside p member
      by_cases same : p = y
      · subst same
        simp [ElementHeap.entry, kept, at_y]
      · simp [ElementHeap.entry, kept, same]
    · intro p alive
      by_cases gone : p = z
      · simp [gone] at alive
      · rw [update_of_ne gone] at alive
        by_cases same : p = y
        · simp [same]
        · rw [update_of_ne same] at alive
          simpa [gone] using holds.only p alive

theorem remove_empty (holds : list.Holds heap elems []) :
    linkedListRemove list heap = some (.unavailableResource, none, list, heap) := by
  have empty : elems = [] := List.length_eq_zero_iff.mp holds.length
  rw [linkedListRemove, holds.tail, empty]
  rfl

/-- With a turn for each element the loop frees all of them, from the head on. -/
theorem flushLoop_frees {heap : ElementHeap π δ} {elems : List π} {data : List (δ × Bool)}
    {pred : Option π} {turns : Nat} (linked : Linked heap.next heap.prev pred elems none)
    (nodup : elems.Nodup) (entries : elems.map heap.entry = data.map some) (enough : elems.length ≤ turns) :
    ∃ heap', flushLoop turns elems.head? heap = some (data, heap') ∧
      ∀ p, heap' p = if p ∈ elems then none else heap p := by
  induction elems generalizing heap data pred turns with
  | nil =>
    have empty : data = [] := by simpa using entries.symm
    subst empty
    exact ⟨heap, by cases turns <;> rfl, fun p => by simp⟩
  | cons a elems ih =>
    obtain ⟨entry, data, rfl, at_entry, entries⟩ := List.map_eq_cons_iff.mp entries.symm
    obtain ⟨e, at_a, same⟩ := Option.map_eq_some_iff.mp at_entry.symm
    obtain ⟨apart, nodup⟩ := List.nodup_cons.mp nodup
    obtain ⟨-, forth, rest⟩ := linked
    have beside : ∀ p ∈ elems, p ≠ a := fun p member same => apart (same ▸ member)
    cases turns with
    | zero => exact absurd enough (Nat.not_succ_le_zero _)
    | succ turns =>
      have next : e.next = elems.head? := by
        simpa [ElementHeap.next, at_a] using forth
      have emptied : ∃ heap', flushLoop turns elems.head? (update heap a none) =
          some (data, heap') ∧ ∀ p, heap' p = if p ∈ elems then none else update heap a none p := ih
        (rest.congr fun p member => by
          simp [ElementHeap.next, ElementHeap.prev, beside p member])
        nodup (entries_congr entries.symm fun p member => by
          simp [ElementHeap.entry, beside p member])
        (Nat.le_of_succ_le_succ enough)
      obtain ⟨heap', looped, freed⟩ := emptied
      refine ⟨heap', ?_, ?_⟩
      · rw [List.head?_cons, flushLoop, at_a, Option.bind_some, next, looped]
        simp [← same]
      · intro p
        rw [freed]
        by_cases here : p = a
        · simp [here]
        · simp [here]

/-- A flush with enough turns frees every element and leaves the list empty. -/
theorem flush (holds : list.Holds heap elems data) {turns : Nat} (enough : data.length ≤ turns) :
    ∃ list' heap', linkedListFlush turns list heap = some (.success, data, list', heap') ∧
      list'.Holds heap' [] [] := by
  obtain ⟨heap', looped, freed⟩ := flushLoop_frees holds.linked holds.nodup holds.entries
    (holds.length ▸ enough)
  refine ⟨{}, heap', ?_, rfl, rfl, trivial, List.nodup_nil, rfl, ?_⟩
  · rw [linkedListFlush, holds.head, looped]
    rfl
  · intro p alive
    rw [freed] at alive
    by_cases member : p ∈ elems
    · simp [member] at alive
    · rw [if_neg member] at alive
      exact absurd (holds.only p alive) member

end ListState.Holds

end Hima.Gps
