import Hima.Gps.ListSearch
import Mathlib.Data.List.Perm.Basic

/-!
# linked_list is a deque

Against every sequence of calls stands a plain sequence of the data, head first: added at the head,
removed at the tail, searched from the head. The pointers represent that sequence in both
directions, and each element that left it was handed to a caller or disposed of, not both.
-/
namespace Hima.Gps

open DoublyLinked

variable {π δ : Type}

/-! ### Calls -/

/-- A call on a list. `elem` is what `malloc` returns, a `dataObj` or `equal` of `none` is `NULL`; for
`remove` and `search` it matters only whether there is a place for the result. -/
inductive ListCall (π δ : Type) where
  | add (dataObj : Option δ) (dealloc : Bool) (elem : Option π)
  | remove (dataObj : Bool)
  | empty
  | flush
  | search (equal : Option (δ → Bool)) (dataP rmIfFound : Bool)

/-- What the caller sees. -/
inductive ListAnswer (δ : Type) where
  | added (rv : LinkedListErr)
  | removed (rv : LinkedListErr) (dataObj : Option δ)
  | empty (yes : Bool)
  | flushed (rv : LinkedListErr) (deallocated : List δ)
  | searched (result : Searched δ)

/-- A list with the heap of its elements. `adds` counts the calls that add, which bounds the turns of a
loop. -/
structure LinkedList (π δ : Type) where
  list : ListState π := {}
  heap : ElementHeap π δ := fun _ => none
  adds : Nat := 0

namespace LinkedList

variable [DecidableEq π]

def perform (m : LinkedList π δ) : ListCall π δ → Option (ListAnswer δ × LinkedList π δ)
  | .add none _ _ => some (.added .invalidParameter, m)
  | .add (some dataObj) dealloc elem =>
    (linkedListAdd m.list m.heap dataObj dealloc elem).map fun (rv, list, heap) =>
      (.added rv, ⟨list, heap, m.adds + 1⟩)
  | .remove false => some (.removed .invalidParameter none, m)
  | .remove true =>
    (linkedListRemove m.list m.heap).map fun (rv, dataObj, list, heap) =>
      (.removed rv dataObj, ⟨list, heap, m.adds⟩)
  | .empty => some (.empty (linkedListEmpty m.list), m)
  | .flush =>
    (linkedListFlush m.adds m.list m.heap).map fun (rv, freed, list, heap) =>
      (.flushed rv ((freed.filter Prod.snd).map Prod.fst), ⟨list, heap, m.adds⟩)
  | .search none _ _ => some (.searched { rv := .invalidHandle }, m)
  | .search (some equal) dataP rmIfFound =>
    (linkedListSearch m.adds m.list m.heap equal dataP rmIfFound).map fun (result, list, heap) =>
      (.searched result, ⟨list, heap, m.adds⟩)

/-- The calls in turn, with their answers. `none` when one of them follows a pointer to memory that is not
live. -/
def run : LinkedList π δ → List (ListCall π δ) → Option (List (ListAnswer δ) × LinkedList π δ)
  | m, [] => some ([], m)
  | m, call :: calls =>
    (m.perform call).bind fun (answer, m) =>
      (m.run calls).map fun (answers, m) => (answer :: answers, m)

/-- `malloc` returns memory that is not in use. -/
def Fresh : LinkedList π δ → List (ListCall π δ) → Prop
  | _, [] => True
  | m, call :: calls =>
    (∀ dataObj dealloc p, call = .add dataObj dealloc (some p) → m.heap p = none) ∧
      ∀ answer m', m.perform call = some (answer, m') → m'.Fresh calls

end LinkedList

/-! ### The sequence -/

/-- The data of a list, head first, each with whether it is to be deallocated. -/
abbrev ListData (δ : Type) := List (δ × Bool)

namespace ListData

/-- The first match from the head. A removing search takes it out, and deallocates it if it has nobody to
hand it to. -/
def search (equal : δ → Bool) (dataP rmIfFound : Bool) (data : ListData δ) :
    Searched δ × ListData δ :=
  if data.isEmpty then ({ rv := .unavailableResource }, data)
  else
    match data.find? (equal ·.1) with
    | none =>
      ({ rv := .success, dataP := if dataP then some none else none, asked := data.map Prod.fst }, data)
    | some x =>
      ({ rv := .success
         dataP := if dataP then some (some x.1) else none
         asked := (data.takeWhile (!equal ·.1)).map Prod.fst ++ [x.1]
         deallocated := if rmIfFound && !dataP && x.2 then [x.1] else [] },
       if rmIfFound then data.eraseP (equal ·.1) else data)

def perform (data : ListData δ) : ListCall π δ → ListAnswer δ × ListData δ
  | .add none _ _ => (.added .invalidParameter, data)
  | .add (some _) _ none => (.added .failureGeneral, data)
  | .add (some dataObj) dealloc (some _) => (.added .success, (dataObj, dealloc) :: data)
  | .remove false => (.removed .invalidParameter none, data)
  | .remove true =>
    match data.getLast? with
    | none => (.removed .unavailableResource none, data)
    | some x => (.removed .success (some x.1), data.dropLast)
  | .empty => (.empty data.isEmpty, data)
  | .flush => (.flushed .success ((data.filter Prod.snd).map Prod.fst), [])
  | .search none _ _ => (.searched { rv := .invalidHandle }, data)
  | .search (some equal) dataP rmIfFound =>
    (.searched (data.search equal dataP rmIfFound).1, (data.search equal dataP rmIfFound).2)

def run : ListData δ → List (ListCall π δ) → List (ListAnswer δ) × ListData δ
  | data, [] => ([], data)
  | data, call :: calls =>
    ((data.perform call).1 :: (run (data.perform call).2 calls).1, (run (data.perform call).2 calls).2)

end ListData

/-! ### One call -/

/-- The first match of a list that is written around it. -/
theorem first_match {α : Type} {p : α → Bool} {front back : List α} {x : α}
    (none : ∀ y ∈ front, p y = false) (yes : p x = true) :
    (front ++ x :: back).find? p = some x ∧ (front ++ x :: back).takeWhile (!p ·) = front ∧
      (front ++ x :: back).eraseP p = front ++ back := by
  refine ⟨?_, ?_, ?_⟩
  · rw [List.find?_append, List.find?_eq_none.mpr (by simpa using none), Option.none_or,
      List.find?_cons_of_pos yes]
  · rw [List.takeWhile_append_of_pos (by simpa using none), List.takeWhile_cons_of_neg (by simpa using yes),
      List.append_nil]
  · rw [List.eraseP_append_right _ (by simpa using none), List.eraseP_cons_of_pos yes]

theorem ListData.search_match {equal : δ → Bool} {dataP rmIfFound : Bool} {front back : ListData δ}
    {x : δ × Bool} (none : ∀ y ∈ front, equal y.1 = false) (yes : equal x.1 = true) :
    ListData.search equal dataP rmIfFound (front ++ x :: back) =
      ({ rv := .success
         dataP := if dataP then some (some x.1) else Option.none
         asked := front.map Prod.fst ++ [x.1]
         deallocated := if rmIfFound && !dataP && x.2 then [x.1] else [] },
       if rmIfFound then front ++ back else front ++ x :: back) := by
  obtain ⟨found, skipped, erased⟩ := first_match (p := fun e : δ × Bool => equal e.1) none yes
  have some_data : (front ++ x :: back).isEmpty = false := by
    cases front <;> rfl
  rw [ListData.search, some_data, found, skipped, erased]
  rfl

theorem ListData.length_search_le (equal : δ → Bool) (dataP rmIfFound : Bool) (data : ListData δ) :
    (data.search equal dataP rmIfFound).2.length ≤ data.length := by
  rw [ListData.search]
  split
  · exact Nat.le_refl _
  · split
    · exact Nat.le_refl _
    · cases rmIfFound with
      | false => exact Nat.le_refl _
      | true => exact (List.eraseP_sublist).length_le

variable [DecidableEq π] {list : ListState π} {heap : ElementHeap π δ} {elems : List π}
  {data : ListData δ}

theorem ListState.Holds.search (holds : list.Holds heap elems data) {turns : Nat}
    (enough : data.length ≤ turns) (equal : δ → Bool) (dataP rmIfFound : Bool) :
    ∃ list' heap' elems', linkedListSearch turns list heap equal dataP rmIfFound =
        some ((data.search equal dataP rmIfFound).1, list', heap') ∧
      list'.Holds heap' elems' (data.search equal dataP rmIfFound).2 := by
  have length := holds.length
  rw [linkedListSearch, holds.tail, holds.head]
  rcases searchLoop_stops equal holds.linked holds.entries (length ▸ enough) with
    ⟨none, looped⟩ | ⟨before, z, after, front, x, back, rfl, rfl, first, mid, last, none, yes, looped⟩
  · -- no element matches, and an empty list is an error of its own
    cases elems with
    | nil =>
      obtain rfl : data = [] := List.length_eq_zero_iff.mp length.symm
      exact ⟨list, heap, [], rfl, holds⟩
    | cons a elems =>
      obtain ⟨z, tail⟩ : ∃ z, (a :: elems).getLast? = some z := ⟨_, List.getLast?_cons⟩
      have some_data : data.isEmpty = false := by
        cases data with
        | nil => cases length
        | cons _ _ => rfl
      have absent : data.find? (equal ·.1) = Option.none := List.find?_eq_none.mpr (by simpa using none)
      rw [tail, ListData.search]
      simp only [looped, some_data, absent, Option.bind_some, Bool.false_eq_true, if_false]
      exact ⟨list, heap, a :: elems, rfl, holds⟩
  · obtain ⟨e, live, same_data, same_dealloc⟩ := entry_eq_some mid
    obtain ⟨w, tail⟩ : ∃ w, (before ++ z :: after).getLast? = some w := by
      rw [List.getLast?_append, List.getLast?_cons, Option.some_or]
      exact ⟨_, rfl⟩
    rw [tail, ListData.search_match none yes]
    simp only [looped, live, same_data, same_dealloc, Option.bind_some]
    cases rmIfFound with
    | false => exact ⟨list, heap, _, rfl, holds⟩
    | true =>
      obtain ⟨list', heap', unlinked, holds'⟩ := holds.unlink first last live
      refine ⟨list', heap', before ++ after, ?_, holds'⟩
      rw [if_pos rfl, unlinked]
      rfl

/-- The pointers represent the sequence, whose elements have all been added. -/
structure LinkedList.Represents (m : LinkedList π δ) (elems : List π) (data : ListData δ) : Prop where
  holds : m.list.Holds m.heap elems data
  bound : data.length ≤ m.adds

/-- A call answers what it answers on the sequence. -/
theorem LinkedList.Represents.perform {m : LinkedList π δ} (rep : m.Represents elems data) (call : ListCall π δ)
    (fresh : ∀ dataObj dealloc p, call = .add dataObj dealloc (some p) → m.heap p = none) :
    ∃ m' elems', m.perform call = some ((data.perform call).1, m') ∧
      m'.Represents elems' (data.perform call).2 := by
  obtain ⟨holds, bound⟩ := rep
  cases call with
  | add dataObj dealloc elem =>
    cases dataObj with
    | none => exact ⟨m, elems, rfl, holds, bound⟩
    | some dataObj =>
      cases elem with
      | none => exact ⟨⟨m.list, m.heap, m.adds + 1⟩, elems, rfl, holds, Nat.le_succ_of_le bound⟩
      | some p =>
        obtain ⟨list, heap, added, holds⟩ := holds.add (fresh _ _ p rfl) dataObj dealloc
        exact ⟨⟨list, heap, m.adds + 1⟩, p :: elems, by simp [LinkedList.perform, added, ListData.perform],
          holds, Nat.succ_le_succ bound⟩
  | remove dataObj =>
    cases dataObj with
    | false => exact ⟨m, elems, rfl, holds, bound⟩
    | true =>
      cases data using List.reverseRecOn with
      | nil =>
        refine ⟨m, elems, ?_, holds, bound⟩
        simp [LinkedList.perform, holds.remove_empty, ListData.perform]
      | append_singleton data x =>
        -- the oldest element is at the tail
        have some_elems : elems ≠ [] := by
          rintro rfl
          have length := holds.length
          simp at length
        rw [← List.dropLast_append_getLast some_elems] at holds
        obtain ⟨list, heap, removed, holds⟩ := holds.remove
        refine ⟨⟨list, heap, m.adds⟩, elems.dropLast, ?_, ?_, ?_⟩
        · simp [LinkedList.perform, removed, ListData.perform]
        · simpa [ListData.perform] using holds
        · rw [List.length_append] at bound
          simpa [ListData.perform] using Nat.le_of_add_right_le bound
  | empty =>
    refine ⟨m, elems, ?_, holds, bound⟩
    have same : linkedListEmpty m.list = data.isEmpty := by
      rw [Bool.eq_iff_iff, holds.empty_iff, List.isEmpty_iff]
    rw [LinkedList.perform, same]
    rfl
  | flush =>
    obtain ⟨list, heap, flushed, holds⟩ := holds.flush bound
    exact ⟨⟨list, heap, m.adds⟩, [], by simp [LinkedList.perform, flushed, ListData.perform], holds,
      Nat.zero_le _⟩
  | search equal dataP rmIfFound =>
    cases equal with
    | none => exact ⟨m, elems, rfl, holds, bound⟩
    | some equal =>
      obtain ⟨list, heap, elems', searched, holds'⟩ := holds.search bound equal dataP rmIfFound
      exact ⟨⟨list, heap, m.adds⟩, elems', by simp [LinkedList.perform, searched, ListData.perform],
        holds', Nat.le_trans (ListData.length_search_le _ _ _ _) bound⟩

/-! ### Any sequence of calls -/

theorem LinkedList.Represents.run {m : LinkedList π δ} (rep : m.Represents elems data)
    {calls : List (ListCall π δ)} (fresh : m.Fresh calls) :
    ∃ m' elems', m.run calls = some ((data.run calls).1, m') ∧ m'.Represents elems' (data.run calls).2 := by
  induction calls generalizing m elems data with
  | nil => exact ⟨m, elems, rfl, rep⟩
  | cons call calls ih =>
    obtain ⟨first, later⟩ := fresh
    obtain ⟨m', elems', performed, rep'⟩ := rep.perform call first
    obtain ⟨m'', elems'', ran, rep''⟩ := ih rep' (later _ _ performed)
    refine ⟨m'', elems'', ?_, rep''⟩
    simp only [LinkedList.run, performed, Option.bind_some, ran, Option.map_some, ListData.run]

/-- The data that a call adds to the sequence. -/
def ListCall.adds : ListCall π δ → ListAnswer δ → ListData δ
  | .add (some dataObj) dealloc _, .added .success => [(dataObj, dealloc)]
  | _, _ => []

/-- What an answer hands to the caller with the ownership: what was removed, by a search only if it
removes. -/
def ListCall.handsOut : ListCall π δ → ListAnswer δ → List δ
  | .remove _, .removed _ dataObj => dataObj.toList
  | .search _ _ true, .searched result => (result.dataP.join).toList
  | _, _ => []

/-- The data for which the `dealloc` callback has run. -/
def ListAnswer.deallocated : ListAnswer δ → List δ
  | .flushed _ deallocated => deallocated
  | .searched result => result.deallocated
  | _ => []

/-- What the calls of a run leave, in turn. -/
def overCalls {α : Type} (f : ListCall π δ → ListAnswer δ → List α) (calls : List (ListCall π δ))
    (answers : List (ListAnswer δ)) : List α :=
  (List.zipWith f calls answers).flatten

omit [DecidableEq π] in
/-- Where the elements of a call go: they stay, or they are handed out, or they are disposed of, which
deallocates those that are to be. -/
theorem ListData.perform_accounts (data : ListData δ) (call : ListCall π δ) :
    ∃ handed disposed : ListData δ,
      (call.adds (data.perform call).1 ++ data).Perm ((data.perform call).2 ++ (handed ++ disposed)) ∧
        call.handsOut (data.perform call).1 = handed.map Prod.fst ∧
        (data.perform call).1.deallocated = (disposed.filter Prod.snd).map Prod.fst := by
  have stays : ∀ l : ListData δ, l.Perm (l ++ ([] ++ [])) := fun l => .of_eq (by simp)
  cases call with
  | add dataObj dealloc elem =>
    rcases dataObj with _ | dataObj
    · exact ⟨[], [], stays data, rfl, rfl⟩
    · rcases elem with _ | p
      · exact ⟨[], [], stays data, rfl, rfl⟩
      · exact ⟨[], [], stays ((dataObj, dealloc) :: data), rfl, rfl⟩
  | remove dataObj =>
    cases dataObj with
    | false => exact ⟨[], [], stays data, rfl, rfl⟩
    | true =>
      cases data using List.reverseRecOn with
      | nil => exact ⟨[], [], stays [], rfl, rfl⟩
      | append_singleton data x =>
        refine ⟨[x], [], ?_⟩
        simp [ListData.perform, ListCall.adds, ListCall.handsOut, ListAnswer.deallocated]
  | empty => exact ⟨[], [], stays data, rfl, rfl⟩
  | flush => exact ⟨[], data, .of_eq (by simp [ListData.perform, ListCall.adds]), rfl, rfl⟩
  | search equal dataP rmIfFound =>
    rcases equal with _ | equal
    · exact ⟨[], [], stays data, by cases rmIfFound <;> rfl, rfl⟩
    · cases found : data.find? (equal ·.1) with
      | none =>
        simp only [ListData.perform, ListData.search, found]
        split
        · exact ⟨[], [], stays data, by cases rmIfFound <;> rfl, rfl⟩
        · exact ⟨[], [], stays data, by cases rmIfFound <;> cases dataP <;> rfl, rfl⟩
      | some x =>
        obtain ⟨yes, front, back, rfl, before⟩ := List.find?_eq_some_iff_append.mp found
        have none : ∀ y ∈ front, equal y.1 = false := by simpa using before
        simp only [ListData.perform, ListData.search_match none yes]
        cases rmIfFound with
        | false => exact ⟨[], [], stays _, rfl, rfl⟩
        | true =>
          have taken : (front ++ x :: back).Perm (front ++ back ++ [x]) :=
            (List.perm_middle).trans (List.perm_append_singleton x (front ++ back)).symm
          -- with nobody to hand it to it is disposed of
          cases dataP with
          | true => exact ⟨[x], [], taken, rfl, rfl⟩
          | false =>
            refine ⟨[], [x], taken, rfl, ?_⟩
            cases dealloc : x.2 <;> simp [ListAnswer.deallocated, dealloc]

theorem account_both {α : Type} {a b l m n h d h' d' : List α}
    (first : (a ++ l).Perm (m ++ (h ++ d))) (later : (b ++ m).Perm (n ++ (h' ++ d'))) :
    (a ++ (b ++ l)).Perm (n ++ (h ++ (h' ++ (d ++ d')))) := by
  classical
  rw [List.perm_iff_count] at first later ⊢
  intro x
  have first := first x
  have later := later x
  simp only [List.count_append] at first later ⊢
  omega

omit [DecidableEq π] in
/-- Over a run everything that was added is still there, or was handed out, or disposed of. -/
theorem ListData.run_accounts (data : ListData δ) (calls : List (ListCall π δ)) :
    ∃ handed disposed : ListData δ, (overCalls ListCall.adds calls (data.run calls).1 ++ data).Perm
          ((data.run calls).2 ++ (handed ++ disposed)) ∧
        overCalls ListCall.handsOut calls (data.run calls).1 = handed.map Prod.fst ∧
        (data.run calls).1.flatMap ListAnswer.deallocated = (disposed.filter Prod.snd).map Prod.fst := by
  induction calls generalizing data with
  | nil => exact ⟨[], [], .of_eq (by simp [ListData.run, overCalls]), rfl, rfl⟩
  | cons call calls ih =>
    obtain ⟨handed, disposed, first, handed_eq, disposed_eq⟩ := data.perform_accounts call
    obtain ⟨handed', disposed', later, handed_eq', disposed_eq'⟩ := ih (data.perform call).2
    refine ⟨handed ++ handed', disposed ++ disposed', ?_, ?_, ?_⟩
    · simpa [overCalls, ListData.run] using account_both first later
    · simpa [overCalls, ListData.run, handed_eq] using handed_eq'
    · simpa [ListData.run, disposed_eq] using disposed_eq'

/-- Any calls, from an empty list on, answer what they answer on the sequence, which the pointers show
forward from `pHead` and back from `pTail`; no other element is live. What was added is in the sequence,
or was handed to a caller, or was disposed of, and only the last were deallocated, each once if it is to
be. -/
theorem linked_list_is_deque (calls : List (ListCall π δ)) (fresh : LinkedList.Fresh {} calls) :
    ∃ (m : LinkedList π δ) (elems : List π) (data handed disposed : ListData δ),
      LinkedList.run {} calls = some ((ListData.run [] calls).1, m) ∧ (ListData.run [] calls).2 = data ∧
      Follows m.heap.next m.list.pHead elems ∧ Follows m.heap.prev m.list.pTail elems.reverse ∧
      elems.map m.heap.entry = data.map some ∧ (∀ p, (m.heap p).isSome ↔ p ∈ elems) ∧
      (m.list.pHead = none ↔ data = []) ∧ (m.list.pTail = none ↔ data = []) ∧
      (overCalls ListCall.adds calls (ListData.run [] calls).1).Perm (data ++ (handed ++ disposed)) ∧
      overCalls ListCall.handsOut calls (ListData.run [] calls).1 = handed.map Prod.fst ∧
      (ListData.run [] calls).1.flatMap ListAnswer.deallocated = (disposed.filter Prod.snd).map Prod.fst := by
  have initial : LinkedList.Represents ({} : LinkedList π δ) [] [] := ⟨holds_empty, Nat.le_refl 0⟩
  obtain ⟨m, elems, ran, holds, -⟩ := initial.run fresh
  obtain ⟨handed, disposed, accounts, handed_eq, disposed_eq⟩ := ListData.run_accounts ([] : ListData δ) calls
  have no_elems : elems = [] ↔ (ListData.run [] calls).2 = [] := by
    rw [← List.length_eq_zero_iff, holds.length, List.length_eq_zero_iff]
  refine ⟨m, elems, _, handed, disposed, ran, rfl, ?_, ?_, holds.entries, ?_, ?_, ?_, ?_, handed_eq,
    disposed_eq⟩
  · rw [holds.head]
    exact holds.linked.forward
  · rw [holds.tail]
    exact holds.linked.backward
  · intro p
    refine ⟨holds.only p, fun member => ?_⟩
    obtain ⟨e, live⟩ := entries_live holds.entries member
    exact Option.isSome_of_eq_some live
  · rw [holds.head, List.head?_eq_none_iff, no_elems]
  · rw [holds.tail, List.getLast?_eq_none_iff, no_elems]
  · simpa using accounts

/-- Two are added; the removing search takes the first match, with nobody to hand it to, and what is left
is handed out. -/
theorem linked_list_is_deque_sample :
    let calls : List (ListCall Nat Nat) :=
      [.add (some 7) true (some 0), .add (some 8) true (some 1), .search (some (· == 8)) false true,
        .remove true, .empty]
    ((LinkedList.run {} calls).map Prod.fst).isSome = true ∧
      (ListData.run [] calls).1.flatMap ListAnswer.deallocated = [8] ∧
      overCalls ListCall.handsOut calls (ListData.run [] calls).1 = [7] := by
  intro calls
  have fresh : LinkedList.Fresh {} calls := by
    refine ⟨fun _ _ _ _ => rfl, ?_⟩
    rintro _ _ ⟨⟩
    refine ⟨?_, ?_⟩
    · rintro _ _ _ ⟨⟩
      rfl
    rintro _ _ ⟨⟩
    refine ⟨nofun, ?_⟩
    rintro _ _ ⟨⟩
    refine ⟨nofun, ?_⟩
    rintro _ _ ⟨⟩
    exact ⟨nofun, fun _ _ _ => trivial⟩
  obtain ⟨m, -, -, -, -, ran, -⟩ := linked_list_is_deque calls fresh
  refine ⟨?_, rfl, rfl⟩
  rfl

end Hima.Gps
