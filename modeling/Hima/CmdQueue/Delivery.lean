import Hima.CmdQueue.Queue
import Hima.Lib.Runs

/-!
# Every posted message is processed once, in order

Two histories are compared: what `enqueue` was run on under the lock, and what the callbacks were
run on. The messages between them are in the queue or in the hand of `Process`.
-/
namespace Hima.CmdQueue

open Runs Fair State Function

set_option linter.unusedSectionVars false

variable {τ π δ : Type}

/-! ### The properties -/

namespace State

/-- Messages are processed in the order of `enqueue`, none twice, and what was posted with success
was enqueued. -/
structure InOrder (s : State τ π δ) : Prop where
  ordered : s.processed <+: s.enqueued
  once : (s.enqueued.map (·.1)).Nodup
  posted : ∀ n, (n, true) ∈ s.returned → n ∈ s.enqueued.map (·.1)

/-- `Process` does not wait without a wake-up while a posted message is in the queue. -/
def Awake (s : State τ π δ) : Prop :=
  s.consumer = .waiting false →
    ∀ e ∈ s.enqueued.drop s.processed.length, (e.1, true) ∉ s.returned

/-! ### The invariant -/

/-- The item `Process` has taken. -/
def hand (s : State τ π δ) : List π :=
  match s.consumer with
  | .working p => [p]
  | .ended item => item.toList
  | _ => []

/-- The items of the threads inside `PostEvt`: unlinked, their own, and not enqueued yet. -/
structure Posts (s : State τ π δ) (owned : List π) : Prop where
  live : ∀ t p, s.posting t = some p → ∃ m, s.heap p = some m ∧ m.next = none ∧ m.post < s.posts ∧
    m.post ∉ s.enqueued.map (·.1) ∧ ∀ r, (m.post, r) ∉ s.returned
  apart : ∀ t p, s.posting t = some p → p ∉ owned
  own : ∀ t t' p p', s.posting t = some p → s.posting t' = some p' → t ≠ t' →
    p ≠ p' ∧ (s.heap p).map (·.post) ≠ (s.heap p').map (·.post)

/-- The queue holds `queued`. -/
structure Inv (s : State τ π δ) (queued : List π) : Prop where
  holds : s.getInstance.Holds s.heap queued
  nodup : (s.hand ++ queued).Nodup
  handLive : ∀ p ∈ s.hand, (s.heap p).isSome
  posts : s.Posts (s.hand ++ queued)
  pending : s.enqueued.map some = s.processed.map some ++ (s.hand ++ queued).map s.heap.entry
  once : (s.enqueued.map (·.1)).Nodup
  numbered : ∀ n ∈ s.enqueued.map (·.1), n < s.posts
  answered : ∀ n r, (n, r) ∈ s.returned → n < s.posts
  posted : ∀ n, (n, true) ∈ s.returned → n ∈ s.enqueued.map (·.1)
  awake : s.consumer = .waiting false →
    ∀ p ∈ queued, ∀ e, s.heap.entry p = some e → (e.1, true) ∉ s.returned

theorem inv_init : (init : State τ π δ).Inv [] where
  holds := rfl
  nodup := List.nodup_nil
  handLive := by simp [hand, init]
  posts := ⟨by simp [init], by simp [init], by simp [init]⟩
  pending := rfl
  once := List.nodup_nil
  numbered := by simp [init]
  answered := by simp [init]
  posted := by simp [init]
  awake := by simp [init]

variable [DecidableEq τ] [DecidableEq π] {s s' : State τ π δ} {queued : List π}

theorem Inv.live (h : s.Inv queued) {p : π} (member : p ∈ s.hand ++ queued) : (s.heap p).isSome := by
  rcases List.mem_append.mp member with held | waits
  · exact h.handLive p held
  · exact h.holds.live waits

theorem Inv.populate (h : s.Inv queued) {t : Thread τ} {data : δ} {item : Option π}
    (permitted : (Action.populate t data item).Permitted s) : (s.populate t data item).Inv queued := by
  obtain ⟨-, -, fresh⟩ := permitted
  -- the number of the post is a new one
  have older : ∀ n r, (n, r) ∈ s.returned → n ≠ s.posts := fun n r member =>
    Nat.ne_of_lt (h.answered n r member)
  cases item with
  | none =>
    -- malloc failed: the post is answered at once
    refine ⟨h.holds, h.nodup, h.handLive, ⟨fun u p at_u => ?_, h.posts.apart, h.posts.own⟩, h.pending,
      h.once, fun n member => Nat.lt_succ_of_lt (h.numbered n member), ?_, ?_, ?_⟩
    · obtain ⟨m, at_p, unlinked, number, outside, unanswered⟩ := h.posts.live u p at_u
      refine ⟨m, at_p, unlinked, Nat.lt_succ_of_lt number, outside, fun r => ?_⟩
      simp only [State.populate, List.mem_cons, Prod.mk.injEq, not_or]
      exact ⟨fun same => by omega, unanswered r⟩
    · intro n r member
      simp only [State.populate, List.mem_cons, Prod.mk.injEq] at member ⊢
      rcases member with ⟨rfl, -⟩ | member
      · omega
      · exact Nat.lt_succ_of_lt (h.answered n r member)
    · intro n member
      simp only [State.populate, List.mem_cons, Prod.mk.injEq] at member
      rcases member with ⟨-, impossible⟩ | member
      · simp at impossible
      · exact h.posted n member
    · intro waits p member e at_p posted
      simp only [State.populate, List.mem_cons, Prod.mk.injEq] at posted
      rcases posted with ⟨-, impossible⟩ | posted
      · simp at impossible
      · exact h.awake waits p member e at_p posted
  | some item =>
    -- the new item is no live one, so the others keep their messages
    have absent : s.heap item = none := fresh item rfl
    have other : ∀ p, (s.heap p).isSome →
        update s.heap item (some { data := data, post := s.posts }) p = s.heap p := by
      intro p live
      refine update_of_ne ?_ _ _
      rintro rfl
      simp [absent] at live
    refine ⟨?_, h.nodup, ?_, ⟨?_, ?_, ?_⟩, ?_, h.once, fun n member => Nat.lt_succ_of_lt (h.numbered n member),
      fun n r member => Nat.lt_succ_of_lt (h.answered n r member), h.posted, ?_⟩
    · exact h.holds.congr fun p member => other p (h.holds.live member)
    · intro p member
      have live := h.handLive p member
      rw [← other p live] at live
      exact live
    · intro u p at_u
      simp only [State.populate, update_apply] at at_u ⊢
      split at at_u
      next =>
        obtain rfl := Option.some.inj at_u
        refine ⟨_, if_pos rfl, rfl, Nat.lt_succ_self _, fun member => ?_, fun r member => ?_⟩
        · exact absurd (h.numbered _ member) (Nat.lt_irrefl _)
        · exact older _ r member rfl
      next =>
        obtain ⟨m, at_p, unlinked, number, outside, unanswered⟩ := h.posts.live u p at_u
        refine ⟨m, ?_, unlinked, Nat.lt_succ_of_lt number, outside, unanswered⟩
        rw [if_neg, at_p]
        rintro rfl
        simp [absent] at at_p
    · intro u p at_u member
      simp only [State.populate, update_apply] at at_u
      split at at_u
      next =>
        obtain rfl := Option.some.inj at_u
        have live := h.live member
        simp [absent] at live
      next => exact h.posts.apart u p at_u member
    · -- the new item differs from what another thread has populated before
      have newer : ∀ u p, s.posting u = some p → p ≠ item ∧ (s.heap p).map (·.post) ≠ some s.posts := by
        intro u p at_u
        obtain ⟨m, at_p, -, number, -⟩ := h.posts.live u p at_u
        refine ⟨?_, by simp [at_p, Nat.ne_of_lt number]⟩
        rintro rfl
        simp [absent] at at_p
      intro u u' p p' at_u at_u' different
      simp only [State.populate, update_apply] at at_u at_u' ⊢
      split at at_u <;> split at at_u'
      next same same' => exact absurd (same.trans same'.symm) different
      next =>
        obtain rfl := Option.some.inj at_u
        obtain ⟨apart, number⟩ := newer u' p' at_u'
        rw [if_pos rfl, if_neg apart]
        exact ⟨Ne.symm apart, Ne.symm number⟩
      next =>
        obtain rfl := Option.some.inj at_u'
        obtain ⟨apart, number⟩ := newer u p at_u
        rw [if_pos rfl, if_neg apart]
        exact ⟨apart, number⟩
      next =>
        rw [if_neg (newer u p at_u).1, if_neg (newer u' p' at_u').1]
        exact h.posts.own u u' p p' at_u at_u' different
    · have same : ∀ p ∈ s.hand ++ queued, (s.populate t data (some item)).heap.entry p = s.heap.entry p :=
        fun p member => congrArg (Option.map _) (other p (h.live member))
      exact h.pending.trans (congrArg _ (List.map_congr_left same).symm)
    · intro waits p member e at_p
      refine h.awake waits p member e ?_
      rw [← at_p]
      exact (congrArg (Option.map _) (other p (h.holds.live member))).symm

/-- An item leaves its thread without being enqueued: the lock failed. -/
theorem Inv.returns (h : s.Inv queued) {t : Thread τ} {p : π} {m : Message π δ}
    (at_t : s.posting t = some p) (at_p : s.heap p = some m) :
    (s.returns t m.post false).Inv queued := by
  have kept : ∀ u q, (s.returns t m.post false).posting u = some q → u ≠ t ∧ s.posting u = some q := by
    intro u q at_u
    simp only [State.returns, update_apply] at at_u
    split at at_u
    next => simp at at_u
    next other => exact ⟨other, at_u⟩
  refine ⟨h.holds, h.nodup, h.handLive, ⟨?_, ?_, ?_⟩, h.pending, h.once, h.numbered, ?_, ?_, ?_⟩
  · intro u q at_u
    obtain ⟨other, at_u⟩ := kept u q at_u
    obtain ⟨m', at_q, unlinked, number, outside, unanswered⟩ := h.posts.live u q at_u
    refine ⟨m', at_q, unlinked, number, outside, fun r => ?_⟩
    have apart := (h.posts.own u t q p at_u at_t other).2
    simp only [at_q, at_p, Option.map_some, ne_eq, Option.some.injEq] at apart
    simp [State.returns, apart, unanswered]
  · exact fun u q at_u => h.posts.apart u q (kept u q at_u).2
  · exact fun u u' q q' at_u at_u' => h.posts.own u u' q q' (kept u q at_u).2 (kept u' q' at_u').2
  · intro n r member
    simp only [State.returns, List.mem_cons, Prod.mk.injEq] at member
    rcases member with ⟨rfl, -⟩ | member
    · obtain ⟨m', at_p', -, number, -⟩ := h.posts.live t p at_t
      obtain rfl := Option.some.inj (at_p.symm.trans at_p')
      exact number
    · exact h.answered n r member
  · intro n member
    simp only [State.returns, List.mem_cons, Prod.mk.injEq, Bool.true_eq_false, and_false, false_or] at member
    exact h.posted n member
  · intro waits q member e at_q
    simp only [State.returns, List.mem_cons, Prod.mk.injEq, Bool.true_eq_false, and_false, false_or]
    exact h.awake waits q member e at_q

/-- The message of a thread enters the queue. A success is returned only after the signal. -/
theorem Inv.sent (h : s.Inv queued) {t : Thread τ} {p : π} {m : Message π δ} {q : MessageQueue π}
    {heap : Heap π δ} {c : Consumer π} {success held : Bool} (at_t : s.posting t = some p)
    (at_p : s.heap p = some m) (holds : q.Holds heap (queued ++ [p]))
    (elsewhere : ∀ a, a ∉ queued → heap a = s.heap a) (entries : ∀ a, heap.entry a = s.heap.entry a)
    (signalled : c = s.consumer ∨ (∃ w, s.consumer = .waiting w) ∧ c = .waiting true)
    (asleep : c = .waiting false → success = false) :
    ({ s with
        inst := some q, heap := heap, enqueued := s.enqueued ++ [(m.post, m.data)], consumer := c,
        held := held }.returns t m.post success).Inv (queued ++ [p]) := by
  obtain ⟨m', at_p', -, number, outside, unanswered⟩ := h.posts.live t p at_t
  obtain rfl := Option.some.inj (at_p.symm.trans at_p')
  have p_fresh := h.posts.apart t p at_t
  -- a signal does not change what the consumer has in its hand
  have hand_same : ({ s with
      inst := some q, heap := heap, enqueued := s.enqueued ++ [(m.post, m.data)], consumer := c,
      held := held }.returns t m.post success).hand = s.hand := by
    rcases signalled with rfl | ⟨⟨w, waits⟩, rfl⟩
    · rfl
    · simp [hand, State.returns, waits]
  -- the other threads are where they were
  have kept : ∀ u q, update s.posting t none u = some q → u ≠ t ∧ s.posting u = some q := by
    intro u q at_u
    rw [update_apply] at at_u
    split at at_u
    next => simp at at_u
    next other => exact ⟨other, at_u⟩
  have owned : ∀ u a, s.posting u = some a → heap a = s.heap a := by
    intro u a at_u
    refine elsewhere a fun member => h.posts.apart u a at_u (by simp [member])
  refine ⟨holds, ?_, ?_, ⟨?_, ?_, ?_⟩, ?_, ?_, ?_, ?_, ?_, ?_⟩
  · -- the item was in nobody's hand and not queued
    rw [hand_same, ← List.append_assoc, List.nodup_append]
    refine ⟨h.nodup, by simp, fun a member b single => ?_⟩
    rw [List.mem_singleton.mp single]
    rintro rfl
    exact h.posts.apart t a at_t member
  · rw [hand_same]
    intro a member
    have apart : a ∉ queued := fun waits => (List.nodup_append.mp h.nodup).2.2 a member a waits rfl
    have alive := h.handLive a member
    rwa [← elsewhere a apart] at alive
  · intro u a at_u
    obtain ⟨other, at_u⟩ := kept u a at_u
    obtain ⟨m', at_a, unlinked, number', outside', unanswered'⟩ := h.posts.live u a at_u
    have apart := (h.posts.own u t a p at_u at_t other).2
    simp only [at_a, at_p, Option.map_some, ne_eq, Option.some.injEq] at apart
    refine ⟨m', (owned u a at_u).trans at_a, unlinked, number', ?_, fun r => ?_⟩
    · simpa [State.returns, apart] using outside'
    · simp [State.returns, apart, unanswered']
  · intro u a at_u
    obtain ⟨other, at_u⟩ := kept u a at_u
    have apart := (h.posts.own u t a p at_u at_t other).1
    have outside := h.posts.apart u a at_u
    rw [hand_same]
    simp only [List.mem_append, List.mem_singleton, not_or] at outside ⊢
    exact ⟨outside.1, outside.2, apart⟩
  · intro u u' a a' at_u at_u' different
    obtain ⟨-, at_u⟩ := kept u a at_u
    obtain ⟨-, at_u'⟩ := kept u' a' at_u'
    simp only [State.returns, owned u a at_u, owned u' a' at_u']
    exact h.posts.own u u' a a' at_u at_u' different
  · have entry_p : s.heap.entry p = some (m.post, m.data) := by simp [Heap.entry, at_p]
    rw [hand_same]
    simp only [State.returns, List.map_append, h.pending, funext entries, List.map_cons, List.map_nil,
      entry_p, List.append_assoc]
  · simp only [State.returns, List.map_append, List.nodup_append]
    refine ⟨h.once, by simp, fun n member n' single => ?_⟩
    simp only [List.map_cons, List.map_nil, List.mem_singleton] at single
    rintro rfl
    exact outside (single ▸ member)
  · intro n member
    simp only [State.returns, List.map_append, List.map_cons, List.map_nil, List.mem_append,
      List.mem_singleton] at member
    rcases member with old | rfl
    · exact h.numbered n old
    · exact number
  · intro n r member
    simp only [State.returns, List.mem_cons, Prod.mk.injEq] at member
    rcases member with ⟨rfl, -⟩ | member
    · exact number
    · exact h.answered n r member
  · intro n member
    simp only [State.returns, List.mem_cons, Prod.mk.injEq] at member
    simp only [State.returns, List.map_append, List.map_cons, List.map_nil, List.mem_append, List.mem_singleton]
    rcases member with ⟨rfl, -⟩ | member
    · exact .inr rfl
    · exact .inl (h.posted n member)
  · intro waits a member e at_a posted
    -- a consumer that sleeps was not signalled, so the post was no success
    have waits : c = .waiting false := waits
    have waited : s.consumer = .waiting false := by
      rcases signalled with rfl | ⟨-, rfl⟩
      · exact waits
      · simp at waits
    have at_a : s.heap.entry a = some e := (entries a).symm.trans at_a
    simp only [State.returns, List.mem_cons, Prod.mk.injEq, asleep waits, Bool.true_eq_false,
      and_false, false_or] at posted
    rcases List.mem_append.mp member with old | new
    · exact h.awake waited a old e at_a posted
    · obtain rfl := List.mem_singleton.mp new
      simp only [Heap.entry, at_p, Option.map_some, Option.some.injEq] at at_a
      exact unanswered true (by simpa [← at_a] using posted)

theorem Inv.postEvt (h : s.Inv queued) {t : Thread τ} {lock signal unlock : Bool}
    (permitted : (Action.enqueue t lock signal unlock : Action τ π δ).Permitted s) :
    ∃ s', s.postEvt t lock signal unlock = some s' ∧ ∃ queued', s'.Inv queued' := by
  obtain ⟨⟨p, at_t⟩, free⟩ := permitted
  obtain ⟨m, at_p, unlinked, -⟩ := h.posts.live t p at_t
  have fresh : p ∉ queued := fun member => h.posts.apart t p at_t (by simp [member])
  obtain ⟨q, heap, added, holds, elsewhere, entries⟩ := h.holds.enqueue at_p unlinked fresh
  -- what the section leaves when it has enqueued
  let sent (c : Consumer π) (success : Bool) : State τ π δ :=
    { s with
      inst := some q, heap := heap, enqueued := s.enqueued ++ [(m.post, m.data)], consumer := c,
      held := !unlock }.returns t m.post success
  cases lock with
  | false => exact ⟨_, by simp [State.postEvt, at_t, at_p], queued, h.returns at_t at_p⟩
  | true =>
    cases signal with
    | false =>
      exact ⟨sent s.consumer false, by simp [State.postEvt, at_t, at_p, added, sent], _,
        h.sent at_t at_p holds elsewhere entries (.inl rfl) fun _ => rfl⟩
    | true =>
      cases waits : s.consumer with
      | waiting w =>
        exact ⟨sent (.waiting true) unlock,
          by simp [State.postEvt, at_t, at_p, added, sent, condSignal, waits], _,
          h.sent at_t at_p holds elsewhere entries (.inr ⟨⟨w, waits⟩, rfl⟩) (by simp)⟩
      | _ =>
        exact ⟨sent s.consumer unlock, by simp [State.postEvt, at_t, at_p, added, sent, condSignal, waits], _,
          h.sent at_t at_p holds elsewhere entries (.inl rfl) (by simp [waits])⟩

/-- `Process` moves on without taking a message. -/
theorem Inv.moved (h : s.Inv queued) (c : Consumer π) (inst : Option (MessageQueue π)) (held : Bool)
    (queue : inst.getD {} = s.getInstance)
    (hand : ({ s with inst := inst, consumer := c, held := held } : State τ π δ).hand = s.hand)
    (awake : c = .waiting false → queued = []) :
    ({ s with inst := inst, consumer := c, held := held } : State τ π δ).Inv queued := by
  refine ⟨?_, hand ▸ h.nodup, hand ▸ h.handLive, ⟨h.posts.live, ?_, h.posts.own⟩, ?_, h.once,
    h.numbered, h.answered, h.posted, ?_⟩
  · rw [getInstance, queue]
    exact h.holds
  · rw [hand]
    exact h.posts.apart
  · rw [hand]
    exact h.pending
  · intro waits p member
    simp [awake waits] at member

/-- `Process` takes the first message. -/
theorem Inv.taken {a : π} {l : List π} (h : s.Inv (a :: l)) (empty : s.hand = [])
    {q : MessageQueue π} (holds : q.Holds s.heap l) (c : Consumer π) (held : Bool)
    (hand : ({ s with inst := some q, consumer := c, held := held } : State τ π δ).hand = [a])
    (busy : c ≠ .waiting false) :
    ({ s with inst := some q, consumer := c, held := held } : State τ π δ).Inv l := by
  have same : s.hand ++ a :: l = [a] ++ l := by rw [empty]; rfl
  refine ⟨holds, ?_, ?_, ⟨h.posts.live, ?_, h.posts.own⟩, ?_, h.once, h.numbered, h.answered, h.posted,
    fun waits => absurd waits busy⟩
  · rw [hand, ← same]
    exact h.nodup
  · rw [hand]
    intro p member
    exact h.live (by simp [List.mem_singleton.mp member])
  · rw [hand, ← same]
    exact h.posts.apart
  · rw [hand, ← same]
    exact h.pending

section

variable (h : s.Inv queued)
include h

theorem Inv.dequeue {lock wait unlock : Bool}
    (permitted : (Action.dequeue lock wait unlock : Action τ π δ).Permitted s) :
    ∃ s', s.dequeue lock wait unlock = some s' ∧ ∃ queued', s'.Inv queued' := by
  obtain ⟨at_top, free⟩ := permitted
  have empty : s.hand = [] := by simp [hand, at_top]
  cases lock with
  | false =>
    exact ⟨_, by simp [State.dequeue], queued,
      h.moved (.ended none) s.inst s.held rfl (by simp [hand, at_top]) (by simp)⟩
  | true =>
    cases queued with
    | nil =>
      have none_left := h.holds.dequeue_nil
      cases wait with
      | false =>
        exact ⟨_, by simp [State.dequeue, none_left], [],
          h.moved (.ended none) (some s.getInstance) (!unlock) rfl
            (by simp [hand, at_top]) (by simp)⟩
      | true =>
        exact ⟨_, by simp [State.dequeue, none_left], [],
          h.moved (.waiting false) (some s.getInstance) s.held rfl
            (by simp [hand, at_top]) fun _ => rfl⟩
    | cons a l =>
      obtain ⟨q, first, holds⟩ := h.holds.dequeue_cons
      cases unlock with
      | false =>
        exact ⟨_, by simp [State.dequeue, first], l,
          h.taken empty holds (.ended (some a)) true (by simp [hand]) (by simp)⟩
      | true =>
        exact ⟨_, by simp [State.dequeue, first], l,
          h.taken empty holds (.working a) s.held (by simp [hand]) (by simp)⟩

theorem Inv.wake {unlock : Bool}
    (permitted : (Action.wake unlock : Action τ π δ).Permitted s) : (s.wake unlock).Inv queued := by
  obtain ⟨⟨woken, waits⟩, free⟩ := permitted
  cases unlock with
  | true =>
    exact h.moved .top s.inst s.held rfl (by simp [hand, waits]) (by simp)
  | false =>
    exact h.moved (.ended none) s.inst true rfl (by simp [hand, waits]) (by simp)

theorem Inv.finish (permitted : (Action.finish : Action τ π δ).Permitted s) :
    ∃ s', s.finish = some s' ∧ s'.Inv queued := by
  obtain ⟨⟨p, works⟩, -⟩ := permitted
  have in_hand : s.hand = [p] := by simp [hand, works]
  obtain ⟨m, at_p⟩ := Option.isSome_iff_exists.mp (h.handLive p (by simp [in_hand]))
  have entry_p : s.heap.entry p = some (m.post, m.data) := by simp [Heap.entry, at_p]
  have nodup := h.nodup
  rw [in_hand, List.singleton_append, List.nodup_cons] at nodup
  have other : ∀ a, a ≠ p → update s.heap p none a = s.heap a := fun a apart =>
    update_of_ne apart _ _
  have waits : ∀ a ∈ queued, update s.heap p none a = s.heap a := by
    intro a member
    refine other a ?_
    rintro rfl
    exact nodup.1 member
  have posted : ∀ t a, s.posting t = some a → update s.heap p none a = s.heap a := by
    intro t a at_t
    refine other a ?_
    rintro rfl
    exact h.posts.apart t a at_t (by simp [in_hand])
  refine ⟨{ s with
      processed := s.processed ++ [(m.post, m.data)], heap := update s.heap p none,
      consumer := .top }, by simp [State.finish, works, at_p], h.holds.congr waits, nodup.2, by simp [hand],
    ⟨fun t a at_t => ?_, fun t a at_t member => ?_, fun t u a b at_t at_u => ?_⟩, ?_, h.once, h.numbered,
    h.answered, h.posted, by simp⟩
  · obtain ⟨m', at_a, rest⟩ := h.posts.live t a at_t
    exact ⟨m', (posted t a at_t).trans at_a, rest⟩
  · exact h.posts.apart t a at_t (List.mem_append_right _ (by simpa [hand] using member))
  · simp only [posted t a at_t, posted u b at_u]
    exact h.posts.own t u a b at_t at_u
  · have same : queued.map (Heap.entry (update s.heap p none)) = queued.map s.heap.entry :=
      List.map_congr_left fun a member => congrArg (Option.map _) (waits a member)
    rw [h.pending, in_hand]
    simp [hand, same, entry_p]

/-- A permitted action follows no dangling pointer and keeps the invariant. -/
theorem Inv.perform {action : Action τ π δ} (permitted : action.Permitted s) :
    ∃ s', s.perform action = some s' ∧ ∃ queued', s'.Inv queued' := by
  cases action with
  | populate t data item => exact ⟨_, rfl, queued, h.populate permitted⟩
  | enqueue t lock signal unlock => exact h.postEvt permitted
  | dequeue lock wait unlock => exact h.dequeue permitted
  | wake unlock => exact ⟨_, rfl, queued, h.wake permitted⟩
  | finish =>
    obtain ⟨s', run, inv⟩ := h.finish permitted
    exact ⟨s', run, queued, inv⟩

/-! ### What the invariant says -/

/-- What is enqueued and not yet processed is in the hand of `Process` or in the queue. -/
theorem Inv.split : ∃ rest, s.enqueued = s.processed ++ rest ∧
    rest.map some = (s.hand ++ queued).map s.heap.entry := by
  obtain ⟨front, rest, eq, front_eq, rest_eq⟩ := List.map_eq_append_iff.mp h.pending
  obtain rfl : front = s.processed := List.map_injective_iff.mpr (fun _ _ => Option.some.inj) front_eq
  exact ⟨rest, eq, rest_eq⟩

theorem Inv.inOrder : s.InOrder where
  ordered := by
    obtain ⟨rest, eq, -⟩ := h.split
    exact ⟨rest, eq.symm⟩
  once := h.once
  posted := h.posted

theorem Inv.isAwake : s.Awake := by
  intro waits e member
  obtain ⟨rest, eq, entries⟩ := h.split
  rw [eq, List.drop_left] at member
  have empty : s.hand = [] := by simp [hand, waits]
  rw [empty, List.nil_append] at entries
  have listed : some e ∈ queued.map s.heap.entry := entries ▸ List.mem_map_of_mem member
  obtain ⟨p, waiting, at_p⟩ := List.mem_map.mp listed
  exact h.awake waits p waiting e at_p

/-- At the top of the loop the next message to process is in the queue. -/
theorem Inv.queued_ne_nil (at_top : s.consumer = .top)
    (left : s.processed.length < s.enqueued.length) : queued ≠ [] := by
  rintro rfl
  obtain ⟨rest, eq, entries⟩ := h.split
  obtain rfl : rest = [] := by simpa [hand, at_top] using entries
  simp [eq] at left

end

/-! ### What one action does to the histories -/

inductive Effect (action : Action τ π δ) (s s' : State τ π δ) : Prop
  /-- A thread inside `PostEvt`. -/
  | posts (other : ¬ action.ByProcess) (processed : s'.processed = s.processed) (enqueued : s.enqueued <+: s'.enqueued)
      (returned : s.returned <:+ s'.returned)
      (consumer : s'.consumer = s.consumer ∨ (∃ w, s.consumer = .waiting w) ∧ s'.consumer = .waiting true)
  | takes (p : π) (consumer : s.consumer = .top ∧ s'.consumer = .working p)
      (same : s'.processed = s.processed ∧ s'.enqueued = s.enqueued ∧ s'.returned = s.returned)
  | sleeps (consumer : s.consumer = .top ∧ s'.consumer = .waiting false)
      (empty : s.getInstance.head = none)
      (same : s'.processed = s.processed ∧ s'.enqueued = s.enqueued ∧ s'.returned = s.returned)
  | wakes (w : Bool) (consumer : s.consumer = .waiting w ∧ s'.consumer = .top)
      (same : s'.processed = s.processed ∧ s'.enqueued = s.enqueued ∧ s'.returned = s.returned)
  | finishes (p : π) (e : Entry δ) (consumer : s.consumer = .working p ∧ s'.consumer = .top)
      (processed : s'.processed = s.processed ++ [e])
      (same : s'.enqueued = s.enqueued ∧ s'.returned = s.returned)

theorem postEvt_effect {t : Thread τ} {lock signal unlock : Bool}
    (run : s.postEvt t lock signal unlock = some s') :
    Effect (.enqueue t lock signal unlock) s s' := by
  simp only [State.postEvt, Option.bind_eq_bind, Option.bind_eq_some_iff] at run
  obtain ⟨item, -, m, -, run⟩ := run
  cases lock with
  | false =>
    obtain rfl := Option.some.inj run
    exact .posts id rfl List.prefix_rfl (List.suffix_cons _ _) (.inl rfl)
  | true =>
    simp only [Bool.not_true, Bool.false_eq_true, if_false, Option.bind_eq_some_iff] at run
    obtain ⟨⟨q, heap⟩, -, run⟩ := run
    cases signal with
    | false =>
      obtain rfl := Option.some.inj run
      exact .posts id rfl (List.prefix_append _ _) (List.suffix_cons _ _) (.inl rfl)
    | true =>
      obtain rfl := Option.some.inj run
      exact .posts id (by simp [returns]) (by simp [returns]) (by simp [returns]) (condSignal_consumer _)

theorem dequeue_effect (at_top : s.consumer = .top) (run : s.dequeue true true true = some s') :
    Effect (.dequeue true true true) s s' := by
  simp only [State.dequeue, Bool.not_true, Bool.false_eq_true, if_false, Option.bind_eq_bind,
    Option.bind_eq_some_iff] at run
  obtain ⟨⟨item, q⟩, taken, run⟩ := run
  cases item with
  | none =>
    obtain rfl := Option.some.inj run
    refine .sleeps ⟨at_top, rfl⟩ ?_ ⟨rfl, rfl, rfl⟩
    unfold MessageQueue.dequeue at taken
    split at taken
    next empty => exact empty
    next => simp at taken
  | some p =>
    obtain rfl := Option.some.inj run
    exact .takes p ⟨at_top, rfl⟩ ⟨rfl, rfl, rfl⟩

theorem finish_effect (run : s.finish = some s') : Effect .finish s s' := by
  unfold State.finish at run
  split at run
  next p works =>
    obtain ⟨m, -, run⟩ := Option.bind_eq_some_iff.mp run
    obtain rfl := Option.some.inj run
    exact .finishes p _ ⟨works, rfl⟩ rfl ⟨rfl, rfl⟩
  next => simp at run

/-- With the pthread calls successful, an action posts, or moves `Process` around its loop. -/
theorem perform_effect {action : Action τ π δ} (permitted : action.Permitted s)
    (succeeds : action.Succeeds) (run : s.perform action = some s') : Effect action s s' := by
  cases action with
  | populate t data item =>
    obtain rfl := Option.some.inj run
    cases item with
    | none => exact .posts id rfl List.prefix_rfl (List.suffix_cons _ _) (.inl rfl)
    | some item => exact .posts id rfl List.prefix_rfl List.suffix_rfl (.inl rfl)
  | enqueue t lock signal unlock => exact postEvt_effect run
  | dequeue lock wait unlock =>
    obtain ⟨rfl, rfl, rfl⟩ := succeeds
    exact dequeue_effect permitted.1 run
  | wake unlock =>
    obtain rfl : unlock = true := succeeds
    obtain rfl := Option.some.inj run
    obtain ⟨⟨w, waits⟩, -⟩ := permitted
    exact .wakes w ⟨waits, rfl⟩ ⟨rfl, rfl, rfl⟩
  | finish => exact finish_effect run

theorem Effect.enqueued {action : Action τ π δ} (effect : Effect action s s') :
    s.enqueued <+: s'.enqueued := by
  cases effect with
  | posts _ _ enqueued => exact enqueued
  | takes _ _ same | sleeps _ _ same | wakes _ _ same => exact same.2.1 ▸ List.prefix_rfl
  | finishes _ _ _ _ same => exact same.1 ▸ List.prefix_rfl

theorem Effect.returned {action : Action τ π δ} (effect : Effect action s s') :
    s.returned <:+ s'.returned := by
  cases effect with
  | posts _ _ _ returned => exact returned
  | takes _ _ same | sleeps _ _ same | wakes _ _ same => exact same.2.2 ▸ List.suffix_rfl
  | finishes _ _ _ _ same => exact same.2 ▸ List.suffix_rfl

/-! ### Progress -/

/-- The steps `Process` needs from here to the top of its loop with a message taken, or to the end
of the callback it is in. -/
def phase (s : State τ π δ) : Nat :=
  match s.consumer with
  | .waiting _ => 3
  | .top => 2
  | .working _ => 1
  | .ended _ => 0

/-- The steps `Process` needs to process the message with the given index. -/
def stepsTo (index : Nat) (s : State τ π δ) : Nat := 2 * (index - s.processed.length) + s.phase

/-- Other threads do not put a message back, and each step of `Process` brings it nearer, unless
`Process` goes to sleep. -/
theorem Effect.stepsTo_le {action : Action τ π δ} (effect : Effect action s s') (h : s.Inv queued)
    {index : Nat} (left : index < s.enqueued.length) (before : ¬ index < s'.processed.length) :
    s'.stepsTo index ≤ s.stepsTo index ∧ (action.ByProcess → s'.stepsTo index < s.stepsTo index) := by
  cases effect with
  | posts other processed _ _ consumer =>
    have phase : s'.phase = s.phase := by
      rcases consumer with same | ⟨⟨w, waits⟩, woken⟩
      · simp [phase, same]
      · simp [phase, waits, woken]
    simp [stepsTo, processed, phase, other]
  | takes p consumer same =>
    simp only [stepsTo, phase, consumer, same.1]
    omega
  | sleeps consumer empty same =>
    rw [same.1] at before
    -- the message waits in the queue, which is empty
    have ne_nil := h.queued_ne_nil consumer.1 (by omega)
    have holds := h.holds
    cases queued with
    | nil => exact absurd rfl ne_nil
    | cons a l => exact absurd (holds.1.symm.trans empty) (by simp)
  | wakes w consumer same =>
    simp only [stepsTo, phase, consumer, same.1]
    omega
  | finishes p e consumer processed same =>
    rw [processed] at before
    simp only [stepsTo, phase, consumer, processed]
    simp only [List.length_append, List.length_cons, List.length_nil] at before ⊢
    omega

end State

/-! ### Infinite behaviours -/

/-- An infinite interleaving; at times nothing happens. -/
structure Behaviour (τ π δ : Type) [DecidableEq τ] [DecidableEq π] where
  states : Nat → State τ π δ
  actions : Nat → Option (Action τ π δ)
  starts : states 0 = .init
  idles : ∀ n, actions n = none → states (n + 1) = states n
  performs : ∀ n a, actions n = some a →
    a.Permitted (states n) ∧ (states n).perform a = some (states (n + 1))

namespace Behaviour

variable [DecidableEq τ] [DecidableEq π] (b : Behaviour τ π δ)

/-- No pthread call fails. -/
def Succeeds : Prop := ∀ n a, b.actions n = some a → a.Succeeds

/-- Callbacks return, and `Process` gets its turn again and again unless it waits for a signal. -/
def Fair : Prop := ∀ n, ∃ m, n ≤ m ∧
  ((∃ a, b.actions m = some a ∧ a.ByProcess) ∨ (b.states m).consumer = .waiting false)

theorem inv (n : Nat) : ∃ queued, (b.states n).Inv queued := by
  induction n with
  | zero => exact ⟨[], b.starts ▸ inv_init⟩
  | succ n ih =>
    obtain ⟨queued, h⟩ := ih
    cases acts : b.actions n with
    | none => exact ⟨queued, b.idles n acts ▸ h⟩
    | some a =>
      obtain ⟨permitted, run⟩ := b.performs n a acts
      obtain ⟨s', run', queued', h'⟩ := h.perform permitted
      obtain rfl := Option.some.inj (run'.symm.trans run)
      exact ⟨queued', h'⟩

/-- What happens at a time: nothing, or the effect of an action. -/
theorem effect (succeeds : b.Succeeds) (n : Nat) :
    b.actions n = none ∧ b.states (n + 1) = b.states n ∨
      ∃ a, b.actions n = some a ∧ Effect a (b.states n) (b.states (n + 1)) := by
  cases acts : b.actions n with
  | none => exact .inl ⟨rfl, b.idles n acts⟩
  | some a =>
    obtain ⟨permitted, run⟩ := b.performs n a acts
    exact .inr ⟨a, rfl, perform_effect permitted (succeeds n a acts) run⟩

theorem grows (succeeds : b.Succeeds) {n m : Nat} (le : n ≤ m) :
    (b.states n).enqueued <+: (b.states m).enqueued ∧ (b.states n).returned <:+ (b.states m).returned := by
  induction m, le using Nat.le_induction with
  | base => exact ⟨List.prefix_rfl, List.suffix_rfl⟩
  | succ m _ ih =>
    rcases b.effect succeeds m with ⟨-, same⟩ | ⟨a, -, effect⟩
    · rwa [same]
    · exact ⟨ih.1.trans effect.enqueued, ih.2.trans effect.returned⟩

/-- A message posted with success is processed in the end. -/
theorem delivers (succeeds : b.Succeeds) (fair : b.Fair) {n post : Nat}
    (posted : (post, true) ∈ (b.states n).returned) :
    ∃ m, post ∈ (b.states m).processed.map (·.1) := by
  obtain ⟨queued, h⟩ := b.inv n
  obtain ⟨e, member, rfl⟩ := List.mem_map.mp (h.posted post posted)
  obtain ⟨index, bound, at_index⟩ := List.getElem_of_mem member
  have stays : ∀ m, index < (b.states (n + m)).enqueued.length ∧
      (b.states (n + m)).enqueued[index]? = some e := by
    intro m
    obtain ⟨rest, eq⟩ := (b.grows succeeds (Nat.le_add_right n m)).1
    rw [← eq, List.getElem?_append_left bound, List.length_append]
    exact ⟨by omega, List.getElem?_eq_some_iff.mpr ⟨bound, at_index⟩⟩
  obtain ⟨m, processed⟩ := eventually_of_rank (fun m => b.states (n + m))
    (fun s => index < s.processed.length) (stepsTo index)
    (fun m => ∃ a, b.actions (n + m) = some a ∧ a.ByProcess)
    (fun m _ before => by
      obtain ⟨queued, inv⟩ := b.inv (n + m)
      rcases b.effect succeeds (n + m) with ⟨-, same⟩ | ⟨a, -, effect⟩
      · exact le_of_eq (congrArg (stepsTo index) same)
      · exact (effect.stepsTo_le inv (stays m).1 before).1)
    (fun m helps _ before => by
      obtain ⟨a, acts, process⟩ := helps
      obtain ⟨queued, inv⟩ := b.inv (n + m)
      rcases b.effect succeeds (n + m) with ⟨idle, -⟩ | ⟨a', acts', effect⟩
      · simp [idle] at acts
      · obtain rfl := Option.some.inj (acts.symm.trans acts')
        exact (effect.stepsTo_le inv (stays m).1 before).2 process)
    (fun m => by
      obtain ⟨m', le, turn⟩ := fair (n + m)
      obtain ⟨k, rfl⟩ := Nat.exists_eq_add_of_le (le_trans (Nat.le_add_right n m) le)
      refine ⟨k, by omega, turn.imp_right fun asleep => ?_⟩
      -- asleep, `Process` has left no posted message in the queue
      by_contra waits
      obtain ⟨queued, inv⟩ := b.inv (n + k)
      have left : e ∈ (b.states (n + k)).enqueued.drop (b.states (n + k)).processed.length := by
        refine List.mem_of_getElem? (i := index - (b.states (n + k)).processed.length) ?_
        rw [List.getElem?_drop, ← (stays k).2]
        congr 1
        omega
      exact inv.isAwake asleep e left ((b.grows succeeds (Nat.le_add_right n k)).2.subset posted))
  obtain ⟨queued, inv⟩ := b.inv (n + m)
  refine ⟨n + m, List.mem_map.mpr ⟨e, List.mem_of_getElem? (i := index) ?_, rfl⟩⟩
  obtain ⟨rest, eq⟩ := inv.inOrder.ordered
  have at_index := (stays m).2
  rwa [← eq, List.getElem?_append_left processed] at at_index

end Behaviour

/-! ### The component -/

/-- In every interleaving messages are processed in the order of `enqueue`, none twice, and no
posted message is left while `Process` waits without a wake-up; no action follows a dangling
pointer. If no pthread call fails, callbacks return and `Process` gets its turns, every message
posted with success is processed. -/
theorem messages_delivered_once_in_order [DecidableEq τ] [DecidableEq π] :
    (∀ (actions : List (Action τ π δ)) (s : State τ π δ),
      Run perform (fun s a => a.Permitted s) .init actions s →
        s.InOrder ∧ s.Awake ∧ ∀ a : Action τ π δ, a.Permitted s → (s.perform a).isSome) ∧
    ∀ b : Behaviour τ π δ, b.Succeeds → b.Fair → ∀ n post,
      (post, true) ∈ (b.states n).returned → ∃ m, post ∈ (b.states m).processed.map (·.1) := by
  constructor
  · intro actions s run
    obtain ⟨queued, h⟩ := run.invariant (fun s => ∃ queued, s.Inv queued)
      (fun s a s' inv permitted stepped => by
        obtain ⟨queued, h⟩ := inv
        obtain ⟨t, run, inv'⟩ := h.perform permitted
        obtain rfl := Option.some.inj (run.symm.trans stepped)
        exact inv')
      ⟨[], inv_init⟩
    refine ⟨h.inOrder, h.isAwake, fun a permitted => ?_⟩
    obtain ⟨t, run, -⟩ := h.perform permitted
    simp [run]
  · exact fun b succeeds fair n post posted => b.delivers succeeds fair posted

/-- `Process` waits, and two threads post a message each. -/
def twoPosts : List (Action Bool Nat Bool) :=
  [.dequeue true true true, .populate (.other true) true (some 7), .populate (.other false) false (some 8),
    .enqueue (.other false) true true true, .wake true, .enqueue (.other true) true true true,
    .dequeue true true true, .finish, .dequeue true true true, .finish, .dequeue true true true]

theorem run_twoPosts : Run perform (fun s a => a.Permitted s) .init twoPosts (statesAt perform twoPosts .init 11) :=
  .cons ⟨rfl, rfl⟩ rfl (.cons ⟨rfl, nofun, fun _ _ => rfl⟩ rfl
    (.cons ⟨rfl, nofun, fun p is => by cases is; rfl⟩ rfl (.cons ⟨⟨8, rfl⟩, rfl⟩ rfl (.cons ⟨⟨true, rfl⟩, rfl⟩ rfl
      (.cons ⟨⟨7, rfl⟩, rfl⟩ rfl (.cons ⟨rfl, rfl⟩ rfl (.cons ⟨⟨8, rfl⟩, rfl⟩ rfl (.cons ⟨rfl, rfl⟩ rfl
        (.cons ⟨⟨7, rfl⟩, rfl⟩ rfl (.cons ⟨rfl, rfl⟩ rfl (.nil _)))))))))))

def twoPostsBehaviour : Behaviour Bool Nat Bool where
  states := statesAt perform twoPosts .init
  actions n := twoPosts[n]?
  starts := rfl
  idles n none_left := by
    have le : twoPosts.length ≤ n := List.getElem?_eq_none_iff.mp none_left
    rw [statesAt_of_length_le le, statesAt_of_length_le (Nat.le_succ_of_le le)]
  performs _ _ next := run_twoPosts.at_step next

/-- The message of the thread that comes first to the lock is posted second. -/
theorem messages_delivered_sample : ∃ m, 0 ∈ (twoPostsBehaviour.states m).processed.map (·.1) := by
  refine messages_delivered_once_in_order.2 twoPostsBehaviour ?_ ?_ 6 0 (by decide)
  · intro n a next
    have all : ∀ a ∈ twoPosts, a.Succeeds := by simp [twoPosts, Action.Succeeds]
    exact all a (List.mem_of_getElem? next)
  · intro n
    refine ⟨max n 11, le_max_left _ _, .inr ?_⟩
    have done : twoPostsBehaviour.states (max n 11) = statesAt perform twoPosts .init 11 :=
      statesAt_of_length_le (le_max_right n 11)
    exact (congrArg consumer done).trans rfl

end Hima.CmdQueue
