import Hima.CmdQueue.EvtDispatcher
import Mathlib.Data.List.Nodup

/-!
# Dispatch while callbacks deregister

`ProcessEvt` copies a node before it calls the listener, so a listener may deregister itself. The
copy has the link to the next node in it: when the callback frees that one, the walk reads a freed
node.
-/
namespace Hima.EvtDispatcher

open Segments Dispatcher

variable {ε ω : Type}

/-- The listeners that operations deregister. -/
def deregistered : List (Op ε ω) → List ω
  | [] => []
  | .registr _ _ :: ops => deregistered ops
  | .deregistr obj :: ops => obj :: deregistered ops

theorem deregistered_append (ops ops' : List (Op ε ω)) :
    deregistered (ops ++ ops') = deregistered ops ++ deregistered ops' := by
  induction ops with
  | nil => rfl
  | cons op ops ih =>
    cases op with
    | registr event obj => exact ih
    | deregistr obj => exact congrArg (obj :: ·) ih

variable [DecidableEq ω]

/-- What operations do to the nodes of a list, or to those from some node on, when `k` nodes were
allocated before. -/
def performed : List (Op ε ω) → Nat → List (Nat × Registration ε ω) → List (Nat × Registration ε ω)
  | [], _, l => l
  | .registr event obj :: ops, k, l => performed ops (k + 1) (l ++ [(k, ⟨event, obj⟩)])
  | .deregistr obj :: ops, k, l => performed ops k (l.filter fun n => n.2.obj ≠ obj)

/-- No callback of the dispatch deregisters the listener of the node that follows the one it is called
for. The arguments are the number of nodes allocated so far, the nodes that the walk has before it
and what the callbacks do. -/
inductive Undisturbed [DecidableEq ε] (event : ε) :
    Nat → List (Nat × Registration ε ω) → List (List (Op ε ω)) → Prop
  | nil (k : Nat) (script : List (List (Op ε ω))) : Undisturbed event k [] script
  | pass {k : Nat} {n : Nat × Registration ε ω} {rest : List (Nat × Registration ε ω)}
      {script : List (List (Op ε ω))} :
      event ≠ n.2.event → Undisturbed event k rest script → Undisturbed event k (n :: rest) script
  | last {k : Nat} {n : Nat × Registration ε ω} {script : List (List (Op ε ω))} :
      event = n.2.event → Undisturbed event k [n] script
  | call {k : Nat} {n next : Nat × Registration ε ω} {rest : List (Nat × Registration ε ω)}
      {script : List (List (Op ε ω))} :
      event = n.2.event → next.2.obj ∉ deregistered (script.headD []) →
      Undisturbed event (k + registrations (script.headD []))
        (performed (script.headD []) k (next :: rest)) script.tail →
      Undisturbed event k (n :: next :: rest) script

/-- Every call is for a node of the event that is in the list at the time, with `k` nodes allocated
before the first of them and `l` the list then. -/
def Listed (event : ε) : Nat → List (Nat × Registration ε ω) → List (Call ε ω) → Prop
  | _, _, [] => True
  | k, l, c :: calls => c.node ∈ l ∧ event = c.node.2.event ∧
      Listed event (k + registrations c.ops) (performed c.ops k l) calls

/-! ### Operations on lists -/

section

variable {ops : List (Op ε ω)} {k : Nat} {l m rest : List (Nat × Registration ε ω)}
  {n : Nat × Registration ε ω}

theorem performed_append (ops : List (Op ε ω)) (k : Nat) (l m : List (Nat × Registration ε ω)) :
    performed ops k (l ++ m) = (l.filter fun n => n.2.obj ∉ deregistered ops) ++ performed ops k m := by
  induction ops generalizing k l m with
  | nil => simp [performed, deregistered]
  | cons op ops ih =>
    cases op with
    | registr event obj =>
      rw [performed, performed, List.append_assoc, ih]
      rfl
    | deregistr obj =>
      rw [performed, performed, List.filter_append, ih, List.filter_filter]
      congr 1
      apply List.filter_congr
      intro n _
      simp [deregistered, Bool.and_comm]

theorem performed_cons (kept : n.2.obj ∉ deregistered ops) :
    performed ops k (n :: rest) = n :: performed ops k rest := by
  rw [← List.singleton_append, performed_append, List.filter_cons_of_pos (by simpa using kept)]
  rfl

/-- What is in the list after the operations was kept or is new. -/
theorem mem_performed (member : n ∈ performed ops k l) :
    n ∈ l ∧ n.2.obj ∉ deregistered ops ∨ k ≤ n.1 := by
  induction ops generalizing k l with
  | nil => exact .inl ⟨member, List.not_mem_nil⟩
  | cons op ops ih =>
    cases op with
    | registr event obj =>
      rcases ih member with ⟨old, kept⟩ | new
      · rcases List.mem_append.mp old with old | added
        · exact .inl ⟨old, kept⟩
        · rw [List.mem_singleton.mp added]
          exact .inr (Nat.le_refl k)
      · exact .inr (Nat.le_of_succ_le new)
    | deregistr obj =>
      refine (ih member).imp_left fun ⟨old, kept⟩ => ?_
      obtain ⟨old, other⟩ := List.mem_filter.mp old
      refine ⟨old, ?_⟩
      rw [deregistered, List.mem_cons, not_or]
      exact ⟨of_decide_eq_true other, kept⟩

theorem length_performed_le (ops : List (Op ε ω)) (k : Nat) (l : List (Nat × Registration ε ω)) :
    (performed ops k l).length ≤ l.length + registrations ops := by
  induction ops generalizing k l with
  | nil => exact Nat.le_refl _
  | cons op ops ih =>
    cases op with
    | registr event obj =>
      have grown := ih (k + 1) (l ++ [(k, ⟨event, obj⟩)])
      rw [List.length_append, List.length_singleton] at grown
      have counted : registrations (.registr event obj :: ops) =
          registrations ops + 1 := List.countP_cons_of_pos rfl
      rw [performed, counted]
      omega
    | deregistr obj =>
      have shrunk := ih k (l.filter fun n => n.2.obj ≠ obj)
      have fewer := List.length_filter_le (fun n => decide (n.2.obj ≠ obj)) l
      have counted : registrations (.deregistr obj :: ops) =
          registrations ops := List.countP_cons_of_neg (by exact Bool.false_ne_true)
      rw [performed, counted]
      omega

end

namespace Dispatcher

variable {s : Dispatcher ε ω} {l before rest : List (Nat × Registration ε ω)}
  {n : Nat × Registration ε ω} {event : ε}

theorem Holds.perform (ops : List (Op ε ω)) (holds : s.Holds l) :
    ∃ s', perform ops s = some s' ∧ s'.Holds (performed ops s.mallocs l) ∧
      s'.mallocs = s.mallocs + registrations ops := by
  induction ops generalizing s l with
  | nil => exact ⟨s, rfl, holds, rfl⟩
  | cons op ops ih =>
    cases op with
    | registr event obj =>
      obtain ⟨s', answer, more, mallocs⟩ := holds.registr event obj
      obtain ⟨s'', answer', result, mallocs'⟩ := ih more
      have counted : registrations (.registr event obj :: ops) = registrations ops + 1 :=
        List.countP_cons_of_pos rfl
      rw [mallocs] at result
      refine ⟨s'', ?_, result, ?_⟩
      · rw [perform, answer, Option.bind_some, answer']
      · omega
    | deregistr obj =>
      obtain ⟨s', answer, fewer, mallocs⟩ := holds.deregistr obj
      obtain ⟨s'', answer', result, mallocs'⟩ := ih fewer
      have counted : registrations (.deregistr obj :: ops) = registrations ops :=
        List.countP_cons_of_neg (by exact Bool.false_ne_true)
      rw [mallocs] at result
      refine ⟨s'', ?_, result, ?_⟩
      · rw [perform, answer, Option.bind_some, answer']
      · omega

/-- A deregistered node is freed, and no later one is found in its place. -/
theorem Holds.freed {ops : List (Op ε ω)} {s' : Dispatcher ε ω} (holds : s.Holds l)
    (after : s'.Holds (performed ops s.mallocs l)) (member : n ∈ l)
    (gone : n.2.obj ∈ deregistered ops) : s'.heap n.1 = none := by
  rw [← Option.not_isSome_iff_eq_none]
  intro live
  obtain ⟨n', member', same⟩ := List.mem_map.mp (after.only n.1 live)
  rcases mem_performed member' with ⟨old, kept⟩ | new
  · obtain rfl := List.inj_on_of_nodup_map holds.nodup old member same
    exact kept gone
  · have below := holds.below n.1 (List.mem_map_of_mem member)
    omega

/-! ### The walk -/

variable [DecidableEq ε]

/-- What the walk over `rest` leaves and calls: the calls are for listed nodes, and those for the
nodes of any older list `l` whose listeners stay are the ones of `rest`, in their order. -/
structure Walked (event : ε) (k : Nat) (before rest : List (Nat × Registration ε ω))
    (calls : List (Call ε ω)) : Prop where
  listed : Listed event k (before ++ rest) calls
  each : ∀ (l : List (Nat × Registration ε ω)) (gone : List ω), (∀ n ∈ l, n.1 < k) →
    (∀ o ∈ deregistered (calls.flatMap (·.ops)), o ∈ gone) →
    (calls.map (·.node)).filter (fun n => n ∈ l ∧ n.2.obj ∉ gone) =
      rest.filter fun n => n ∈ l ∧ event = n.2.event ∧ n.2.obj ∉ gone

/-- New nodes are in no older list. -/
theorem filter_performed (ops : List (Op ε ω)) {k : Nat} {l : List (Nat × Registration ε ω)}
    {gone : List ω} (older : ∀ n ∈ l, n.1 < k) (left : ∀ o ∈ deregistered ops, o ∈ gone) (event : ε)
    (rest : List (Nat × Registration ε ω)) :
    (performed ops k rest).filter (fun n => n ∈ l ∧ event = n.2.event ∧ n.2.obj ∉ gone) =
      rest.filter fun n => n ∈ l ∧ event = n.2.event ∧ n.2.obj ∉ gone := by
  rw [← List.append_nil rest, performed_append, List.filter_append, List.filter_filter, List.append_nil]
  have new : (performed ops k []).filter (fun n => n ∈ l ∧ event = n.2.event ∧ n.2.obj ∉ gone) = [] := by
    rw [List.filter_eq_nil_iff]
    intro n member keeps
    rcases mem_performed member with ⟨old, _⟩ | new
    · cases old
    · have before := older n (of_decide_eq_true keeps).1
      omega
  rw [new, List.append_nil]
  apply List.filter_congr
  intro n _
  rw [Bool.and_eq_left_iff_imp]
  intro keeps
  exact decide_eq_true fun inside => (of_decide_eq_true keeps).2.2 (left _ inside)

theorem processLoop_none (event : ε) (fuel : Nat) (script : List (List (Op ε ω))) :
    processLoop event fuel s none script = some (s, []) := by
  cases fuel <;> rfl

/-- A call for `n` in front of a walk over the nodes behind it. -/
theorem Walked.call {k : Nat} {ops : List (Op ε ω)} {calls : List (Call ε ω)} (named : event = n.2.event)
    (listed : Listed event (k + registrations ops) (performed ops k (before ++ n :: rest)) calls)
    (later : ∀ (l : List (Nat × Registration ε ω)) (gone : List ω), (∀ n ∈ l, n.1 < k) →
      (∀ o ∈ deregistered ops, o ∈ gone) → (∀ o ∈ deregistered (calls.flatMap (·.ops)), o ∈ gone) →
      (calls.map (·.node)).filter (fun n => n ∈ l ∧ n.2.obj ∉ gone) =
        rest.filter fun n => n ∈ l ∧ event = n.2.event ∧ n.2.obj ∉ gone) :
    Walked event k before (n :: rest) (⟨n, ops⟩ :: calls) where
  listed := ⟨List.mem_append_right _ List.mem_cons_self, named, listed⟩
  each := by
    intro l gone older left
    rw [List.flatMap_cons, deregistered_append] at left
    have rest := later l gone older (fun o member => left o (List.mem_append_left _ member))
      fun o member => left o (List.mem_append_right _ member)
    rw [List.map_cons, List.filter_cons, List.filter_cons, rest]
    by_cases kept : n ∈ l ∧ n.2.obj ∉ gone
    · rw [if_pos (decide_eq_true kept), if_pos (decide_eq_true ⟨kept.1, named, kept.2⟩)]
    · rw [if_neg (by simpa using kept), if_neg]
      exact fun all => kept ⟨(of_decide_eq_true all).1, (of_decide_eq_true all).2.2⟩

/-- If no callback frees the node that follows, the walk comes to its end. The induction is on the
walk: a call goes on with the same next node, in front of what its callback left behind it. -/
theorem processLoop_of_undisturbed {k : Nat} {script : List (List (Op ε ω))}
    (undisturbed : Undisturbed event k rest script) {fuel : Nat}
    (enough : rest.length + registrations script.flatten ≤ fuel) (at_ : s.mallocs = k)
    (holds : s.Holds (before ++ rest)) :
    ∃ s' calls, processLoop event fuel s (rest.head?.map Prod.fst) script = some (s', calls) ∧
      Walked event k before rest calls := by
  induction undisturbed generalizing s before fuel with
  | nil k script => exact ⟨s, [], processLoop_none event fuel script, trivial, fun _ _ _ _ => rfl⟩
  | @pass k n rest script other _ ih =>
    obtain ⟨fuel, rfl⟩ : ∃ f, fuel = f + 1 := ⟨fuel - 1, by rw [List.length_cons] at enough; omega⟩
    rw [List.length_cons] at enough
    rw [List.head?_cons, Option.map_some, processLoop, holds.cell]
    dsimp only
    rw [if_neg other]
    rw [← List.singleton_append, ← List.append_assoc] at holds
    have enough : rest.length + registrations script.flatten ≤ fuel := by omega
    obtain ⟨s', calls, looped, walked⟩ := ih enough at_ holds
    refine ⟨s', calls, looped, ?_, fun l gone older left => ?_⟩
    · rw [← List.singleton_append, ← List.append_assoc]
      exact walked.listed
    · rw [walked.each l gone older left, List.filter_cons_of_neg (by simp [other])]
  | @last k n script named =>
    obtain ⟨fuel, rfl⟩ : ∃ f, fuel = f + 1 := ⟨fuel - 1, by rw [List.length_singleton] at enough; omega⟩
    obtain ⟨s', answer, after, _⟩ := holds.perform (script.headD [])
    rw [List.head?_cons, Option.map_some, processLoop, holds.cell]
    dsimp only
    rw [if_pos named, answer]
    dsimp only
    rw [List.head?_nil, Option.map_none, processLoop_none]
    exact ⟨s', [⟨n, script.headD []⟩], rfl, Walked.call named trivial fun _ _ _ _ _ => rfl⟩
  | @call k n next rest script named stays _ ih =>
    obtain ⟨fuel, rfl⟩ : ∃ f, fuel = f + 1 := ⟨fuel - 1, by rw [List.length_cons] at enough; omega⟩
    obtain ⟨s', answer, after, mallocs⟩ := holds.perform (script.headD [])
    rw [List.head?_cons, Option.map_some, processLoop, holds.cell]
    dsimp only
    rw [if_pos named, answer]
    dsimp only
    have split : before ++ n :: next :: rest = (before ++ [n]) ++ next :: rest := by simp
    rw [at_, split, performed_append] at after
    -- the fuel pays for the nodes and for the registrations still to be made
    have shorter := length_performed_le (script.headD []) k (next :: rest)
    have counted : registrations script.flatten =
        registrations (script.headD []) + registrations script.tail.flatten := by
      cases script with
      | nil => rfl
      | cons ops script => exact List.countP_append
    rw [List.length_cons] at enough
    have enough : (performed (script.headD []) k (next :: rest)).length +
        registrations script.tail.flatten ≤ fuel := by omega
    obtain ⟨s'', calls, looped, walked⟩ := ih enough (mallocs.trans (at_ ▸ rfl)) after
    rw [performed_cons stays] at looped
    rw [List.head?_cons, Option.map_some] at looped ⊢
    rw [looped]
    refine ⟨s'', _, rfl, Walked.call named ?_ fun l gone older left left' => ?_⟩
    · rw [split, performed_append]
      exact walked.listed
    · rw [← filter_performed _ older left]
      exact walked.each l gone (fun n member => Nat.lt_add_right _ (older n member)) left'

theorem processLoop_freed {tmp fuel : Nat} (freed : s.heap tmp = none) (event : ε)
    (script : List (List (Op ε ω))) : processLoop event fuel s (some tmp) script = none := by
  cases fuel with
  | zero => rfl
  | succ fuel => rw [processLoop, freed]

/-- If the walk comes to its end, no callback freed the node that followed. -/
theorem undisturbed_of_processLoop {script : List (List (Op ε ω))} {fuel : Nat}
    {result : Dispatcher ε ω × List (Call ε ω)} (holds : s.Holds (before ++ rest))
    (looped : processLoop event fuel s (rest.head?.map Prod.fst) script = some result) :
    Undisturbed event s.mallocs rest script := by
  induction fuel generalizing s before rest script result with
  | zero =>
    cases rest with
    | nil => exact .nil _ _
    | cons n rest => cases looped
  | succ fuel ih =>
    cases rest with
    | nil => exact .nil _ _
    | cons n rest =>
      rw [List.head?_cons, Option.map_some, processLoop, holds.cell] at looped
      dsimp only at looped
      by_cases named : event = n.2.event
      · rw [if_pos named] at looped
        obtain ⟨s', answer, after, mallocs⟩ := holds.perform (script.headD [])
        rw [answer] at looped
        dsimp only at looped
        cases rest with
        | nil => exact .last named
        | cons next rest =>
          have split : before ++ n :: next :: rest = (before ++ [n]) ++ next :: rest := by simp
          rw [List.head?_cons, Option.map_some] at looped
          -- a freed successor would have ended the walk without a result
          by_cases stays : next.2.obj ∉ deregistered (script.headD [])
          · rw [split, performed_append] at after
            refine .call named stays ?_
            rw [← mallocs]
            cases walked : processLoop event fuel s' (some next.1) script.tail with
            | none =>
              rw [walked] at looped
              cases looped
            | some result' =>
              rw [performed_cons stays] at after ⊢
              exact ih after walked
          · rw [processLoop_freed (holds.freed after (by simp) (not_not.mp stays))] at looped
            cases looped
      · rw [if_neg named] at looped
        rw [← List.singleton_append, ← List.append_assoc] at holds
        exact .pass named (ih holds looped)

end Dispatcher

variable [DecidableEq ε]

/-- The dispatch of an event over the list `l`: `ProcessEvt` meets no node that was freed, calls only
listeners that are in the list at the time, and calls every registration of a listener that no
callback deregisters once, in the order of the list. -/
def Robust (s : Dispatcher ε ω) (l : List (Nat × Registration ε ω)) (event : ε)
    (script : List (List (Op ε ω))) : Prop :=
  ∃ s' calls, s.processEvt event script = some (s', calls) ∧ Listed event s.mallocs l calls ∧
    (calls.map (·.node)).filter
        (fun n => n ∈ l ∧ n.2.obj ∉ deregistered (calls.flatMap (·.ops))) =
      l.filter fun n => event = n.2.event ∧ n.2.obj ∉ deregistered (calls.flatMap (·.ops))

/-- Whatever was registered and deregistered before: `deregistr` takes exactly the nodes of its
listener out of the list and keeps the order of the rest, and a dispatch is robust exactly if no
callback deregisters the listener of the node that follows the one it is called for. -/
theorem dispatch_robust_iff (history : List (Op ε ω)) :
    ∃ s l, perform history {} = some s ∧ s.Holds l ∧ (∀ param, ∃ s', s.deregistr param = some s' ∧
        s'.Holds (l.filter fun n => n.2.obj ≠ param)) ∧
      ∀ event script, Robust s l event script ↔ Undisturbed event s.mallocs l script := by
  obtain ⟨s, answer, holds, _⟩ := holds_nil.perform history
  have start : s.Holds ([] ++ _) := holds
  refine ⟨s, _, answer, holds, fun param => ?_, fun event script => ⟨?_, fun undisturbed => ?_⟩⟩
  · obtain ⟨s', answer, fewer, _⟩ := holds.deregistr param
    exact ⟨s', answer, fewer⟩
  · rintro ⟨s', calls, walked, _⟩
    rw [processEvt, holds.head] at walked
    exact undisturbed_of_processLoop start walked
  · have short := holds.short
    obtain ⟨s', calls, looped, walked⟩ := processLoop_of_undisturbed undisturbed
      (Nat.add_le_add_right short _) rfl start
    refine ⟨s', calls, ?_, walked.listed, ?_⟩
    · rw [processEvt, holds.head, looped]
    · have below : ∀ n ∈ performed history _ [], n.1 < s.mallocs :=
        fun n member => holds.below n.1 (List.mem_map_of_mem member)
      rw [walked.each _ _ below fun o member => member]
      apply List.filter_congr
      intro n member
      simp [member]

/-- An interface that is registered for two events in a row and deletes itself on the first of them. -/
theorem dispatch_not_robust :
    ∃ s l, perform [.registr 0 7, .registr 1 7] ({} : Dispatcher Nat Nat) = some s ∧
      s.Holds l ∧ s.processEvt 0 [[.deregistr 7]] = none ∧ ¬ Robust s l 0 [[.deregistr 7]] := by
  obtain ⟨s, answer, holds, _⟩ :=
    (holds_nil : ({} : Dispatcher Nat Nat).Holds []).perform [.registr 0 7, .registr 1 7]
  have reads_freed : (perform [.registr 0 7, .registr 1 7] ({} : Dispatcher Nat Nat)).bind
      (fun s => s.processEvt 0 [[.deregistr 7]]) = none := rfl
  rw [answer, Option.bind_some] at reads_freed
  refine ⟨s, _, answer, holds, reads_freed, ?_⟩
  rintro ⟨s', calls, walked, _⟩
  cases reads_freed.symm.trans walked

end Hima.EvtDispatcher
