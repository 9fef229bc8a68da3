import Hima.Lib.LinkedLists

/-!
# The event dispatcher

`IPACM_EvtDispatcher` keeps the registrations of listeners in a singly linked list. A node is known
by the number of its `malloc`, so that a pointer to a freed node is never one to a later node;
following it has no outcome. The thread that dispatches an event is the only one in the list; the
callbacks register and deregister listeners.
-/
namespace Hima.EvtDispatcher

open Segments Function

/-- What a `cmd_evts` says: `event` and `obj`. -/
structure Registration (ε ω : Type) where
  event : ε
  obj : ω
  deriving DecidableEq, Repr

variable {ε ω : Type}

abbrev CmdEvts (ε ω : Type) := Cell Nat (Registration ε ω)

structure Dispatcher (ε ω : Type) where
  head : Option Nat := none
  heap : Nat → Option (CmdEvts ε ω) := fun _ => none
  /-- How many nodes were allocated so far. -/
  mallocs : Nat := 0

namespace Dispatcher

variable (s : Dispatcher ε ω)

/-- `p->next = q`. -/
def setNext (p : Nat) (q : Option Nat) : Option (Dispatcher ε ω) :=
  (s.heap p).map fun node => { s with heap := update s.heap p (some { node with next := q }) }

def free (p : Nat) : Dispatcher ε ω := { s with heap := Function.update s.heap p none }

/-- `while(tmp->next) tmp = tmp->next`, for at most the given number of nodes. -/
def lastNode : Nat → Nat → Option Nat
  | 0, _ => none
  | fuel + 1, tmp =>
    match s.heap tmp with
    | none => none
    | some node =>
      match node.next with
      | none => some tmp
      | some next => lastNode fuel next

/-- `registr`, when there is memory for the node. -/
def registr (event : ε) (obj : ω) : Option (Dispatcher ε ω) :=
  let nw := s.mallocs
  let s : Dispatcher ε ω :=
    { s with heap := update s.heap nw (some ⟨⟨event, obj⟩, none⟩), mallocs := nw + 1 }
  match s.head with
  | none => some { s with head := some nw }
  | some tmp =>
    match s.lastNode s.mallocs tmp with
    | none => none
    | some tmp => s.setNext tmp (some nw)

variable [DecidableEq ω]

/-- The loop of `deregistr`. Its last two branches both store `tmp->next`, which is `NULL` in one of
them, and `prev` is not `tmp`. -/
def deregistrLoop (param : ω) :
    Nat → Dispatcher ε ω → Option Nat → Option Nat → Option (Dispatcher ε ω)
  | _, s, none, _ => some s
  | 0, _, some _, _ => none
  | fuel + 1, s, some tmp, prev =>
    match s.heap tmp with
    | none => none
    | some node =>
      if node.data.obj = param then
        let unlinked :=
          if s.head = some tmp then some { s with head := node.next }
          else prev.bind fun prev => s.setNext prev node.next
        match unlinked with
        | none => none
        | some s => deregistrLoop param fuel (s.free tmp) node.next prev
      else deregistrLoop param fuel s node.next (some tmp)

def deregistr (param : ω) : Option (Dispatcher ε ω) :=
  deregistrLoop param s.mallocs s s.head s.head

end Dispatcher

/-- What a callback may do to the list. -/
inductive Op (ε ω : Type)
  | registr (event : ε) (obj : ω)
  | deregistr (obj : ω)
  deriving DecidableEq

/-- A call of `event_callback`: for which node, and what it does. -/
structure Call (ε ω : Type) where
  node : Nat × Registration ε ω
  ops : List (Op ε ω)
  deriving DecidableEq

namespace Dispatcher

variable [DecidableEq ω] [DecidableEq ε]

def perform : List (Op ε ω) → Dispatcher ε ω → Option (Dispatcher ε ω)
  | [], s => some s
  | .registr event obj :: ops, s => (s.registr event obj).bind (perform ops)
  | .deregistr obj :: ops, s => (s.deregistr obj).bind (perform ops)

/-- The loop of `ProcessEvt`: the dispatcher it leaves and the callbacks it calls. `script` is what
these do, one after another. -/
def processLoop (event : ε) :
    Nat → Dispatcher ε ω → Option Nat → List (List (Op ε ω)) → Option (Dispatcher ε ω × List (Call ε ω))
  | _, s, none, _ => some (s, [])
  | 0, _, some _, _ => none
  | fuel + 1, s, some tmp, script =>
    match s.heap tmp with
    | none => none
    | some tmp1 =>
      if event = tmp1.data.event then
        let ops := script.headD []
        match perform ops s with
        | none => none
        | some s =>
          -- `tmp1` is a copy from before the callback
          match processLoop event fuel s tmp1.next script.tail with
          | none => none
          | some (s, calls) => some (s, ⟨(tmp, tmp1.data), ops⟩ :: calls)
      else processLoop event fuel s tmp1.next script

/-- How many nodes the callbacks of a script add. -/
def registrations (ops : List (Op ε ω)) : Nat :=
  ops.countP fun | .registr .. => true | .deregistr _ => false

/-- `ProcessEvt`. The loop has enough fuel for all nodes that there can be. -/
def processEvt (s : Dispatcher ε ω) (event : ε) (script : List (List (Op ε ω))) :
    Option (Dispatcher ε ω × List (Call ε ω)) :=
  processLoop event (s.mallocs + registrations script.flatten) s s.head script

end Dispatcher

/-! ### The list -/

/-- The nodes that a reader meets who follows the links from the head. There are no others. -/
structure Dispatcher.Holds (s : Dispatcher ε ω) (l : List (Nat × Registration ε ω)) : Prop where
  linked : Segment s.heap s.head l none
  nodup : (l.map Prod.fst).Nodup
  only : ∀ a, (s.heap a).isSome → a ∈ l.map Prod.fst
  below : ∀ a ∈ l.map Prod.fst, a < s.mallocs
  short : l.length ≤ s.mallocs

namespace Dispatcher

variable {s : Dispatcher ε ω} {l kept rest : List (Nat × Registration ε ω)}
  {n : Nat × Registration ε ω} {event : ε} {obj : ω}

theorem holds_nil : ({} : Dispatcher ε ω).Holds [] where
  linked := rfl
  nodup := List.nodup_nil
  only := nofun
  below := nofun
  short := Nat.le_refl _

theorem setNext_eq {p : Nat} {q : Option Nat} {node : CmdEvts ε ω} (cell : s.heap p = some node) :
    s.setNext p q = some { s with heap := update s.heap p (some { node with next := q }) } := by
  rw [setNext, cell]
  rfl

theorem free_heap {p a : Nat} : (s.free p).heap a = if a = p then none else s.heap a :=
  update_apply _ _ _ _

theorem lastNode_segment (fuel : Nat) (enough : l.length < fuel) {tmp : Nat}
    (segment : Segment s.heap (some tmp) (l ++ [n]) none) : s.lastNode fuel tmp = some n.1 := by
  induction fuel generalizing tmp l with
  | zero => omega
  | succ fuel ih =>
    cases l with
    | nil =>
      obtain ⟨first, next, cell, ends⟩ := segment
      obtain rfl : tmp = n.1 := Option.some.inj first
      obtain rfl : next = none := ends
      rw [lastNode, cell]
    | cons c l =>
      obtain ⟨first, next, cell, later⟩ := segment
      obtain rfl : tmp = c.1 := Option.some.inj first
      rw [lastNode, cell]
      obtain ⟨a, some⟩ : ∃ a, next = some a := by
        cases l with
        | nil => exact ⟨n.1, later.1⟩
        | cons c' l => exact ⟨c'.1, later.1⟩
      subst some
      rw [List.length_cons] at enough
      exact ih (by omega) later

theorem Holds.head (holds : s.Holds l) : s.head = l.head?.map Prod.fst := holds.linked.start

theorem Holds.snoc {s' : Dispatcher ε ω} {d : Registration ε ω} (holds : s.Holds l)
    (linked : Segment s'.heap s'.head (l ++ [(s.mallocs, d)]) none)
    (only : ∀ a, (s'.heap a).isSome → a = s.mallocs ∨ (s.heap a).isSome)
    (mallocs : s'.mallocs = s.mallocs + 1) : s'.Holds (l ++ [(s.mallocs, d)]) where
  linked := linked
  nodup := by
    rw [List.map_append, List.nodup_append]
    refine ⟨holds.nodup, List.pairwise_singleton _ _, ?_⟩
    intro a member b last same
    obtain rfl := List.mem_singleton.mp last
    exact Nat.ne_of_lt (holds.below a member) same
  only := by
    intro a live
    rw [List.map_append, List.mem_append]
    rcases only a live with new | old
    · exact .inr (List.mem_singleton.mpr new)
    · exact .inl (holds.only a old)
  below := by
    intro a member
    rw [mallocs]
    rw [List.map_append, List.mem_append] at member
    rcases member with old | new
    · exact Nat.lt_succ_of_lt (holds.below a old)
    · exact List.mem_singleton.mp new ▸ Nat.lt_succ_self _
  short := by
    rw [mallocs, List.length_append]
    exact Nat.succ_le_succ holds.short

theorem Holds.registr (holds : s.Holds l) (event : ε) (obj : ω) :
    ∃ s', s.registr event obj = some s' ∧ s'.Holds (l ++ [(s.mallocs, ⟨event, obj⟩)]) ∧
      s'.mallocs = s.mallocs + 1 := by
  have new : s.mallocs ∉ l.map Prod.fst := fun member => Nat.lt_irrefl _ (holds.below _ member)
  have linked : Segment (update s.heap s.mallocs (some ⟨⟨event, obj⟩, none⟩)) s.head l none :=
    holds.linked.update new
  have cell : update s.heap s.mallocs (some ⟨⟨event, obj⟩, none⟩) s.mallocs =
      some ⟨⟨event, obj⟩, none⟩ := update_self _ _ _
  have only : ∀ a, (update s.heap s.mallocs (some ⟨⟨event, obj⟩, none⟩) a).isSome →
      a = s.mallocs ∨ (s.heap a).isSome := by
    intro a live
    by_cases same : a = s.mallocs
    · exact .inl same
    · rw [update_of_ne same] at live
      exact .inr live
  rw [Dispatcher.registr]
  generalize update s.heap s.mallocs (some ⟨⟨event, obj⟩, none⟩) = heap at linked cell only ⊢
  rcases List.eq_nil_or_concat l with rfl | ⟨k, z, rfl⟩
  · rw [holds.head]
    exact ⟨_, rfl, holds.snoc ⟨rfl, none, cell, rfl⟩ only rfl, rfl⟩
  · obtain ⟨first, starts⟩ : ∃ first, s.head = some first := by
      rw [holds.head]
      cases k with
      | nil => exact ⟨z.1, rfl⟩
      | cons c k => exact ⟨c.1, rfl⟩
    rw [starts] at linked ⊢
    rw [List.concat_eq_append] at linked holds new ⊢
    -- the walk to the last node ends at `z`
    have enough : k.length < s.mallocs + 1 := by
      have short := holds.short
      rw [List.length_append, List.length_singleton] at short
      omega
    have last := @lastNode_segment _ _ ⟨some first, heap, s.mallocs + 1⟩ k z _ enough first linked
    obtain ⟨_, _, _, _, at_z, rfl⟩ := segment_append.mp linked
    rw [List.map_append, List.mem_append, not_or] at new
    have apart : s.mallocs ≠ z.1 := fun same => new.2 (List.mem_singleton.mpr same)
    have outside : z.1 ∉ k.map Prod.fst := by
      have nodup := holds.nodup
      rw [List.map_append, List.nodup_append] at nodup
      exact fun member => nodup.2.2 _ member _ (List.mem_singleton_self _) rfl
    have wrote := @setNext_eq _ _ ⟨some first, heap, s.mallocs + 1⟩ z.1 (some s.mallocs) _ at_z
    dsimp only
    rw [last]
    dsimp only
    rw [wrote]
    refine ⟨_, rfl, holds.snoc ?_ ?_ rfl, rfl⟩
    · refine segment_append.mpr ⟨_, linked.relink outside, rfl, none, ?_, rfl⟩
      exact (update_of_ne apart _ _).trans cell
    · intro a live
      by_cases same : a = z.1
      · refine .inr (holds.linked.live a ?_)
        rw [same, List.map_append]
        exact List.mem_append_right _ (List.mem_singleton_self _)
      · dsimp only at live
        rw [update_of_ne same] at live
        exact only a live

theorem Holds.remove {s' : Dispatcher ε ω} (holds : s.Holds (kept ++ n :: rest))
    (linked : Segment s'.heap s'.head (kept ++ rest) none)
    (only : ∀ a, (s'.heap a).isSome → a ≠ n.1 ∧ (s.heap a).isSome)
    (mallocs : s'.mallocs = s.mallocs) : s'.Holds (kept ++ rest) := by
  have fewer : (kept ++ rest).Sublist (kept ++ n :: rest) :=
    (List.sublist_cons_self n rest).append_left kept
  have ids := fewer.map Prod.fst
  refine ⟨linked, holds.nodup.sublist ids, fun a live => ?_, fun a member => ?_, ?_⟩
  · obtain ⟨other, old⟩ := only a live
    have member := holds.only a old
    rw [List.map_append, List.mem_append] at member ⊢
    exact member.imp_right fun later => (List.mem_cons.mp later).resolve_left other
  · rw [mallocs]
    exact holds.below a (ids.subset member)
  · rw [mallocs]
    exact Nat.le_trans fewer.length_le holds.short

theorem Holds.cell (holds : s.Holds (kept ++ n :: rest)) :
    s.heap n.1 = some ⟨n.2, rest.head?.map Prod.fst⟩ := by
  obtain ⟨_, _, _, next, cell, later⟩ := segment_append.mp holds.linked
  rw [cell, later.start]

theorem live_free {p a : Nat} (live : ((s.free p).heap a).isSome) : a ≠ p ∧ (s.heap a).isSome := by
  rw [free_heap] at live
  split at live
  next => cases live
  next other => exact ⟨other, live⟩

theorem Holds.pop (holds : s.Holds (n :: rest)) :
    ({ s with head := rest.head?.map Prod.fst }.free n.1).Holds rest := by
  have outside : n.1 ∉ rest.map Prod.fst := (List.nodup_cons.mp holds.nodup).1
  obtain ⟨_, next, cell, later⟩ := holds.linked
  have start : s.Holds ([] ++ n :: rest) := holds
  refine start.remove ?_ (fun a live => live_free live) rfl
  exact later.start ▸ later.update outside

theorem Holds.unlink {p : Nat × Registration ε ω} (holds : s.Holds (kept ++ [p] ++ n :: rest)) :
    ∃ s', s.setNext p.1 (rest.head?.map Prod.fst) = some s' ∧ s'.head = s.head ∧
      s'.mallocs = s.mallocs ∧ (s'.free n.1).Holds (kept ++ [p] ++ rest) := by
  have nodup := holds.nodup
  rw [List.map_append, List.nodup_append] at nodup
  obtain ⟨before, behind, apart⟩ := nodup
  have p_ids : p.1 ∈ (kept ++ [p]).map Prod.fst := by simp
  have outside_p : p.1 ∉ kept.map Prod.fst := by
    rw [List.map_append, List.nodup_append] at before
    exact fun member => before.2.2 _ member _ (List.mem_singleton_self _) rfl
  have p_rest : p.1 ∉ rest.map Prod.fst :=
    fun member => apart _ p_ids _ (List.mem_cons_of_mem _ member) rfl
  have n_kept : n.1 ∉ (kept ++ [p]).map Prod.fst :=
    fun member => apart _ member _ List.mem_cons_self rfl
  have n_rest : n.1 ∉ rest.map Prod.fst := (List.nodup_cons.mp behind).1
  obtain ⟨_, first, _, next, cell, later⟩ := segment_append.mp holds.linked
  obtain ⟨_, _, _, _, at_p, _⟩ := segment_append.mp first
  refine ⟨_, setNext_eq at_p, rfl, rfl, holds.remove ?_ (fun a live => ?_) rfl⟩
  · refine segment_append.mpr ⟨rest.head?.map Prod.fst, ?_, ?_⟩
    · exact (first.relink outside_p).update n_kept
    · exact later.start ▸ (later.update p_rest).update n_rest
  · obtain ⟨other, live⟩ := live_free live
    refine ⟨other, ?_⟩
    by_cases same : a = p.1
    · rw [same, at_p]
      rfl
    · dsimp only at live
      rwa [update_of_ne same] at live

variable [DecidableEq ω]

/-- The loop keeps what it has passed and takes the nodes of `param` out of the rest. -/
theorem Holds.deregistrLoop (param : ω) (fuel : Nat) (enough : rest.length ≤ fuel) {prev : Option Nat}
    (holds : s.Holds (kept ++ rest)) (at_prev : ∀ k p, kept = k ++ [p] → prev = some p.1) :
    ∃ s', Dispatcher.deregistrLoop param fuel s (rest.head?.map Prod.fst) prev = some s' ∧
      s'.Holds (kept ++ rest.filter fun n => n.2.obj ≠ param) ∧ s'.mallocs = s.mallocs := by
  induction fuel generalizing s kept rest prev with
  | zero =>
    obtain rfl := List.eq_nil_of_length_eq_zero (Nat.le_zero.mp enough)
    exact ⟨s, rfl, holds, rfl⟩
  | succ fuel ih =>
    cases rest with
    | nil => exact ⟨s, rfl, holds, rfl⟩
    | cons n rest =>
      have enough : rest.length ≤ fuel := Nat.le_of_succ_le_succ enough
      rw [List.head?_cons, Option.map_some, Dispatcher.deregistrLoop, holds.cell]
      dsimp only
      -- a node of `param` is taken out, at the head or behind the one kept last
      by_cases own : n.2.obj = param
      · rw [if_pos own, List.filter_cons_of_neg (by simp [own])]
        rcases List.eq_nil_or_concat kept with rfl | ⟨k, p, rfl⟩
        · -- nothing is kept so far: the head moves
          have first : s.head = some n.1 := holds.head
          have none_kept : ∀ k p, ([] : List (Nat × Registration ε ω)) = k ++ [p] → prev = some p.1 :=
            fun k p same => absurd same.symm (List.append_ne_nil_of_right_ne_nil k nofun)
          rw [if_pos first]
          exact ih enough holds.pop none_kept
        · rw [List.concat_eq_append] at holds at_prev ⊢
          have head : s.head ≠ some n.1 := by
            intro same
            have nodup := holds.nodup
            rw [List.map_append, List.nodup_append] at nodup
            refine nodup.2.2 n.1 ?_ n.1 List.mem_cons_self rfl
            have first := holds.head
            rw [same] at first
            cases k with
            | nil => simpa using first
            | cons c k => simpa using Or.inl (Option.some.inj first)
          rw [if_neg head, at_prev k p rfl, Option.bind_some]
          obtain ⟨s', wrote, _, mallocs, fewer⟩ := holds.unlink
          rw [wrote]
          obtain ⟨s'', looped, result, mallocs'⟩ := ih enough fewer at_prev
          rw [at_prev k p rfl] at looped
          exact ⟨s'', looped, result, mallocs'.trans mallocs⟩
      · rw [if_neg own, List.filter_cons_of_pos (by simp [own])]
        -- any other node is kept and becomes the one kept last
        have shifted : kept ++ n :: rest = (kept ++ [n]) ++ rest := by simp
        rw [shifted] at holds
        have last : ∀ k p, kept ++ [n] = k ++ [p] → some n.1 = some p.1 := by
          intro k p same
          obtain ⟨_, one⟩ := List.append_inj' same rfl
          rw [List.head_eq_of_cons_eq one]
        obtain ⟨s', looped, result, mallocs⟩ := ih enough holds last
        refine ⟨s', looped, ?_, mallocs⟩
        rwa [List.append_assoc] at result

/-- `deregistr` takes out the nodes of `param` and leaves the others in their order. -/
theorem Holds.deregistr (holds : s.Holds l) (param : ω) :
    ∃ s', s.deregistr param = some s' ∧ s'.Holds (l.filter fun n => n.2.obj ≠ param) ∧
      s'.mallocs = s.mallocs := by
  rw [Dispatcher.deregistr, holds.head]
  refine @Holds.deregistrLoop _ _ s [] l _ param s.mallocs holds.short _ holds ?_
  exact fun k p same => absurd same.symm (List.append_ne_nil_of_right_ne_nil k nofun)

end Dispatcher

end Hima.EvtDispatcher
