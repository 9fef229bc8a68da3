import Hima.Gps.LocApiBase
import Hima.Lib.Runs

/-!
# The adapters of a LocApiBase

Which adapters are registered follows from the calls alone. The array holds these and no others, once each and in
front, so that the loops that stop at the first `NULL` reach them all, and `close` comes with the removal of the
last one. But `close` does not wait for the message task: a message that is still queued then opens the API again,
with nobody registered.
-/
namespace Hima.Gps

open PackedArray Runs
open scoped List

variable {α β : Type}

/-- The adapter was added and has not been removed since. -/
def Added (calls : List (AdapterCall α)) (a : α) : Prop :=
  ∃ before masks later, calls = before ++ .addAdapter a masks :: later ∧ ∀ masks', .removeAdapter a masks' ∉ later

variable {calls : List (AdapterCall α)} {call : AdapterCall α} {a b : α} {masks : α → EventMask}

theorem not_added_nil (a : α) : ¬ Added [] a := by
  rintro ⟨before, masks, later, none_called, -⟩
  simp at none_called

theorem added_concat (calls : List (AdapterCall α)) (call : AdapterCall α) (a : α) :
    Added (calls ++ [call]) a ↔
      (∃ masks, call = .addAdapter a masks) ∨ (∀ masks, call ≠ .removeAdapter a masks) ∧ Added calls a := by
  constructor
  · rintro ⟨before, masks, later, called, kept⟩
    -- the latest call is the addition itself, or it comes behind the addition
    rcases List.eq_nil_or_concat' later with rfl | ⟨later, latest, rfl⟩
    · obtain ⟨-, rfl⟩ := List.append_inj' called rfl |>.imp_right List.singleton_inj.mp
      exact .inl ⟨masks, rfl⟩
    · rw [← List.cons_append, ← List.append_assoc] at called
      obtain ⟨rfl, same⟩ := List.append_inj' called rfl
      obtain rfl := List.singleton_inj.mp same
      refine .inr ⟨fun masks' removed => kept masks' (by simp [removed]), before, masks, later, rfl, ?_⟩
      exact fun masks' member => kept masks' (List.mem_append_left _ member)
  · rintro (⟨masks, rfl⟩ | ⟨other, before, masks, later, rfl, kept⟩)
    · exact ⟨calls, masks, [], rfl, fun _ => List.not_mem_nil⟩
    · refine ⟨before, masks, later ++ [call], by simp, fun masks' member => ?_⟩
      rcases List.mem_append.mp member with earlier | latest
      · exact kept masks' earlier
      · exact other masks' (List.mem_singleton.mp latest).symm

theorem added_add : Added (calls ++ [.addAdapter a masks]) b ↔ b = a ∨ Added calls b := by
  rw [added_concat]
  by_cases same : b = a
  · subst same
    exact iff_of_true (.inl ⟨masks, rfl⟩) (.inl rfl)
  · simp [same, Ne.symm same]

theorem added_remove : Added (calls ++ [.removeAdapter a masks]) b ↔ b ≠ a ∧ Added calls b := by
  rw [added_concat]
  by_cases same : b = a
  · subst same
    simp
  · simp [same, Ne.symm same]

theorem nodup_concat {as : List α} (nodup : as.Nodup) (new : a ∉ as) : (as ++ [a]).Nodup :=
  List.nodup_append_comm.mpr (List.nodup_cons.mpr ⟨new, nodup⟩)

theorem mem_adapters (added : Added calls a) : a ∈ calls.map AdapterCall.adapter := by
  obtain ⟨before, masks, later, rfl, -⟩ := added
  exact List.mem_map.mpr ⟨_, List.mem_append_right _ List.mem_cons_self, rfl⟩

namespace LocApiBase

variable {api : LocApiBase α} {as : List α}

/-! ### What a call does -/

theorem toAllLocAdapters_eq (packs : Packs api.mLocAdapters as) (call : β → α → β) (b : β) :
    api.toAllLocAdapters call b = as.foldl call b := by
  rw [toAllLocAdapters, packs.walk, visit_all]

variable [DecidableEq α]

theorem addAdapter_cases (packs : Packs api.mLocAdapters as) (masks : α → EventMask) (a : α) :
    ((a ∈ as ∨ as.length = MAX_ADAPTERS) ∧ api.addAdapter masks a = (api, [])) ∨
    (a ∉ as ∧ ∃ added : LocApiBase α, api.addAdapter masks a = (added, [.sendMsg ⟨masks a⟩]) ∧
      Packs added.mLocAdapters (as ++ [a])) := by
  rw [addAdapter]
  rcases packs.firstSlot_cases a with ⟨i, found, filled, member⟩ | ⟨inside, found, new⟩ | ⟨found, full, -⟩
  · rw [found]
    exact .inl ⟨.inl member, if_neg filled⟩
  · rw [found]
    have free := (packs.free_iff ⟨as.length, inside⟩).mpr (Nat.le_refl _)
    exact .inr ⟨new, _, if_pos free, packs.push inside⟩
  · rw [found]
    exact .inl ⟨.inr full, rfl⟩

theorem removeFrom_behind (packs : Packs api.mLocAdapters as) (masks : α → EventMask) (a : α) {i : Nat}
    (behind : as.length ≤ i) : api.removeFrom masks a i = (api, []) := by
  rw [removeFrom]
  split
  next inside => rw [if_pos ((packs.free_iff _).mpr behind)]
  next => rfl

theorem removeFrom_here {front : List α} {z : α} (packs : Packs api.mLocAdapters (front ++ [z]))
    (masks : α → EventMask) {i : Nat} (here : (front ++ [z])[i]? = some a) :
    ∃ moved : LocApiBase α, Packs moved.mLocAdapters (front.set i z) ∧ api.removeFrom masks a i =
        (moved, [if front = [] then .close else .sendMsg ⟨moved.getEvtMask masks⟩]) := by
  have inside := (List.getElem?_eq_some_iff.mp here).1
  have in_array := inside.trans_le packs.length_le
  have slot : api.mLocAdapters ⟨i, in_array⟩ = some a := (packs.slot _).trans here
  rw [List.length_append] at inside
  have left := packs.closeHole (j := ⟨i, in_array⟩) (Nat.le_of_lt_succ inside)
  have at_last := packs.closeHole_last (j := ⟨i, in_array⟩) (Nat.le_of_lt_succ inside)
  -- after the removal the loop stands behind the entries
  have behind : removeFrom masks a { api with mLocAdapters := (closeHole api.mLocAdapters ⟨i, in_array⟩).1 }
      ((closeHole api.mLocAdapters ⟨i, in_array⟩).2 + 1) = (_, []) :=
    removeFrom_behind left masks a (by rw [List.length_set, at_last]; exact Nat.le_succ _)
  refine ⟨{ api with mLocAdapters := _ }, left, ?_⟩
  rw [removeFrom, dif_pos in_array]
  dsimp only
  rw [if_neg (by rw [slot]; exact Option.some_ne_none a), if_pos slot, behind]
  simp only [at_last, List.length_eq_zero_iff]

theorem removeFrom_next (masks : α → EventMask) {i : Nat} {b : α} (inside : i < MAX_ADAPTERS)
    (slot : api.mLocAdapters ⟨i, inside⟩ = some b) (other : b ≠ a) :
    api.removeFrom masks a i = api.removeFrom masks a (i + 1) := by
  rw [removeFrom, dif_pos inside]
  have elsewhere : api.mLocAdapters ⟨i, inside⟩ ≠ some a := fun same => other (Option.some.inj (slot.symm.trans same))
  rw [if_neg (by rw [slot]; exact Option.some_ne_none b), if_neg elsewhere]

theorem removeFrom_cases (packs : Packs api.mLocAdapters as) (masks : α → EventMask) {i left : Nat}
    (length : i + left = as.length) (before : a ∉ as.take i) :
    (a ∉ as ∧ api.removeFrom masks a i = (api, [])) ∨
    ∃ (moved : LocApiBase α) (others : List α), a :: others ~ as ∧ Packs moved.mLocAdapters others ∧
      api.removeFrom masks a i =
        (moved, [if others = [] then .close else .sendMsg ⟨moved.getEvtMask masks⟩]) := by
  induction left generalizing i with
  | zero =>
    have behind : as.length ≤ i := Nat.le_of_eq length.symm
    rw [List.take_of_length_le behind] at before
    exact .inl ⟨before, removeFrom_behind packs masks a behind⟩
  | succ left ih =>
    have inside : i < as.length := by omega
    have here := List.getElem?_eq_getElem inside
    by_cases this : as[i] = a
    · -- the entries as the last one and those in front of it
      have filled := List.ne_nil_of_length_pos (Nat.zero_lt_of_lt inside)
      obtain ⟨front, z, rfl⟩ := (List.eq_nil_or_concat' as).resolve_left filled
      rw [this] at here
      obtain ⟨moved, kept, removes⟩ := removeFrom_here packs masks here
      refine .inr ⟨moved, _, perm_set here, kept, ?_⟩
      rw [removes]
      simp only [List.set_eq_nil_iff]
    · rw [removeFrom_next masks (inside.trans_le packs.length_le) ((packs.slot _).trans here) this]
      refine ih (by omega) ?_
      rw [List.take_succ_eq_append_getElem inside, List.mem_append, List.mem_singleton, not_or]
      exact ⟨before, Ne.symm this⟩

theorem removeAdapter_cases (packs : Packs api.mLocAdapters as) (masks : α → EventMask) (a : α) :
    (a ∉ as ∧ api.removeAdapter masks a = (api, [])) ∨
    ∃ (moved : LocApiBase α) (others : List α), a :: others ~ as ∧ Packs moved.mLocAdapters others ∧
      api.removeAdapter masks a =
        (moved, [if others = [] then .close else .sendMsg ⟨moved.getEvtMask masks⟩]) :=
  removeFrom_cases packs masks (Nat.zero_add _) List.not_mem_nil

/-! ### What the calls lead to -/

/-- The adapters that are registered after some calls, in the order of the array. -/
structure Registry (calls : List (AdapterCall α)) (api : LocApiBase α) (as : List α) : Prop where
  packs : Packs api.mLocAdapters as
  nodup : as.Nodup
  mem_iff : ∀ a, a ∈ as ↔ Added calls a

section

variable (registry : Registry calls api as)
include registry

/-- The array has room for the adapters of the calls. -/
theorem Registry.room (few : ((calls ++ [call]).map AdapterCall.adapter).toFinset.card ≤ MAX_ADAPTERS)
    (new : call.adapter ∉ as) : as.length < MAX_ADAPTERS := by
  have distinct := List.toFinset_card_of_nodup (nodup_concat registry.nodup new)
  have called : (as ++ [call.adapter]).toFinset ⊆ ((calls ++ [call]).map AdapterCall.adapter).toFinset := by
    intro a member
    rw [List.mem_toFinset, List.map_append, List.mem_append] at *
    exact member.imp (fun old => mem_adapters ((registry.mem_iff a).mp old)) id
  have fits := (Finset.card_le_card called).trans few
  rw [distinct, List.length_append] at fits
  exact fits

theorem Registry.add
    (few : ((calls ++ [AdapterCall.addAdapter a masks]).map AdapterCall.adapter).toFinset.card ≤ MAX_ADAPTERS) :
    ∃ as', Registry (calls ++ [.addAdapter a masks]) (api.addAdapter masks a).1 as' := by
  rcases addAdapter_cases registry.packs masks a with ⟨stays, same⟩ | ⟨new, added, adds, packs⟩
  · -- the array is not full before the last of the few adapters is in it
    have member : a ∈ as := by
      by_contra new
      exact absurd (stays.resolve_left new) (registry.room few new).ne
    rw [same]
    refine ⟨as, registry.packs, registry.nodup, fun b => ?_⟩
    rw [added_add, ← registry.mem_iff]
    exact ⟨.inr, fun either => either.elim (fun this => this ▸ member) id⟩
  · rw [adds]
    refine ⟨as ++ [a], packs, nodup_concat registry.nodup new, fun b => ?_⟩
    rw [added_add, ← registry.mem_iff, List.mem_append, List.mem_singleton, or_comm]

theorem Registry.remove :
    ∃ as', Registry (calls ++ [.removeAdapter a masks]) (api.removeAdapter masks a).1 as' := by
  rcases removeAdapter_cases registry.packs masks a with ⟨unknown, same⟩ | ⟨moved, others, perm, packs, removes⟩
  · rw [same]
    refine ⟨as, registry.packs, registry.nodup, fun b => ?_⟩
    rw [added_remove, ← registry.mem_iff]
    exact ⟨fun member => ⟨fun this => unknown (this ▸ member), member⟩, And.right⟩
  · -- the others stay, in an order in which the last one may have moved
    obtain ⟨gone, nodup⟩ := List.nodup_cons.mp (perm.nodup_iff.mpr registry.nodup)
    rw [removes]
    refine ⟨others, packs, nodup, fun b => ?_⟩
    rw [added_remove, ← registry.mem_iff, ← perm.mem_iff, List.mem_cons]
    exact ⟨fun member => ⟨fun this => gone (this ▸ member), .inr member⟩, fun both => both.2.resolve_left both.1⟩

theorem Registry.step (few : ((calls ++ [call]).map AdapterCall.adapter).toFinset.card ≤ MAX_ADAPTERS) :
    ∃ as', Registry (calls ++ [call]) (api.step call).1 as' := by
  cases call with
  | addAdapter a masks => exact registry.add few
  | removeAdapter a masks => exact registry.remove

end

/-- `close` is called for the last adapter and not before. -/
theorem close_iff (packs : Packs api.mLocAdapters as) (call : AdapterCall α) :
    .close ∈ (api.step call).2 ↔ ∃ a masks, call = .removeAdapter a masks ∧ as = [a] := by
  cases call with
  | addAdapter a masks =>
    rw [LocApiBase.step]
    rcases addAdapter_cases packs masks a with ⟨-, same⟩ | ⟨-, added, adds, -⟩
    · simp [same]
    · simp [adds]
  | removeAdapter a masks =>
    rw [LocApiBase.step]
    rcases removeAdapter_cases packs masks a with ⟨unknown, same⟩ | ⟨moved, others, perm, -, removes⟩
    · rw [same]
      refine iff_of_false List.not_mem_nil ?_
      rintro ⟨a', masks', ⟨⟩, rfl⟩
      exact unknown (List.mem_singleton_self a)
    · rw [removes]
      by_cases none_left : others = []
      · subst none_left
        exact iff_of_true List.mem_cons_self ⟨a, masks, rfl, (List.singleton_perm.mp perm).symm⟩
      · refine iff_of_false (by simp [none_left]) ?_
        rintro ⟨a', masks', ⟨⟩, rfl⟩
        exact none_left (List.length_eq_zero_iff.mp (Nat.succ.inj perm.length_eq))

end LocApiBase

/-! ### Runs with the message task -/

open LocApiBase

namespace LocApi

/-- The calls among the events. -/
def callsOf (events : List (ApiEvent α)) : List (AdapterCall α) :=
  events.filterMap fun
    | .call call => some call
    | .run => none

variable {s t : LocApi α} {events : List (ApiEvent α)} {as : List α}

@[simp] theorem foldl_request_base (s : LocApi α) (requests : List Request) :
    (requests.foldl request s).base = s.base := by
  induction requests generalizing s with
  | nil => rfl
  | cons request requests ih =>
    rw [List.foldl_cons, ih]
    cases request <;> rfl

theorem run_some (ran : s.run = some t) : ∃ msg mQ, s.mQ = msg :: mQ ∧ t = { s with mQ, opened := some msg.mMask } := by
  rw [run] at ran
  split at ran
  next => cases ran
  next msg mQ queued => exact ⟨msg, mQ, queued, (Option.some.inj ran).symm⟩

/-- While nobody is registered the API is closed and stays so. Else it is open, or is to be opened. -/
structure InStep (s : LocApi α) (as : List α) : Prop where
  packs : Packs s.base.mLocAdapters as
  closed : as = [] → s.mQ = [] ∧ s.opened = none
  opens : as ≠ [] → s.mQ = [] → s.opened ≠ none

theorem InStep.queued (packs : Packs s.base.mLocAdapters as) (filled : as ≠ []) (queued : s.mQ ≠ []) : InStep s as :=
  ⟨packs, fun empty => absurd empty filled, fun _ none => absurd none queued⟩

variable [DecidableEq α]

theorem registry_run {ok : LocApi α → ApiEvent α → Prop} (run : Run step ok s events t)
    {past : List (AdapterCall α)} (registry : Registry past s.base as)
    (few : ((past ++ callsOf events).map AdapterCall.adapter).toFinset.card ≤ MAX_ADAPTERS) :
    ∃ as', Registry (past ++ callsOf events) t.base as' := by
  induction run generalizing past as with
  | nil s => exact ⟨as, by rwa [callsOf, List.filterMap_nil, List.append_nil]⟩
  | @cons s s' t event events allowed stepped rest ih =>
    cases event with
    | call call =>
      have split : past ++ callsOf (.call call :: events) = past ++ [call] ++ callsOf events :=
        (List.append_assoc past [call] _).symm
      rw [split] at few ⊢
      have fewer : ((past ++ [call]).map AdapterCall.adapter).toFinset ⊆
          ((past ++ [call] ++ callsOf events).map AdapterCall.adapter).toFinset := by
        intro a member
        rw [List.map_append, List.toFinset_append]
        exact Finset.mem_union_left _ member
      obtain ⟨as', registry'⟩ := registry.step ((Finset.card_le_card fewer).trans few)
      obtain rfl := Option.some.inj stepped
      refine ih (?_ : Registry _ _ as') few
      rwa [foldl_request_base]
    | run =>
      obtain ⟨msg, mQ, -, rfl⟩ := run_some stepped
      exact ih registry few

/-- When the last adapter is removed, the task has taken every message. -/
def CaughtUp (s : LocApi α) : ApiEvent α → Prop
  | .call (.removeAdapter adapter _) => Packs s.base.mLocAdapters [adapter] → s.mQ = []
  | .call (.addAdapter _ _) => True
  | .run => True

instance decidableCaughtUp (s : LocApi α) : (event : ApiEvent α) → Decidable (CaughtUp s event)
  | .call (.removeAdapter adapter _) => inferInstanceAs (Decidable (Packs s.base.mLocAdapters [adapter] → s.mQ = []))
  | .call (.addAdapter _ _) => isTrue trivial
  | .run => isTrue trivial

theorem InStep.step (inStep : InStep s as) {event : ApiEvent α} (caughtUp : CaughtUp s event)
    (stepped : s.step event = some t) : ∃ as', InStep t as' := by
  cases event with
  | run =>
    obtain ⟨msg, mQ, queued, rfl⟩ := run_some stepped
    refine ⟨as, inStep.packs, fun empty => ?_, fun _ _ => Option.some_ne_none _⟩
    cases queued.symm.trans (inStep.closed empty).1
  | call call =>
    obtain rfl := Option.some.inj stepped
    cases call with
    | addAdapter a masks =>
      rw [LocApiBase.step]
      rcases addAdapter_cases inStep.packs masks a with ⟨-, same⟩ | ⟨-, added, adds, packs⟩
      · rw [same]
        exact ⟨as, inStep⟩
      · rw [adds]
        exact ⟨as ++ [a], .queued packs (by simp) (by simp [request])⟩
    | removeAdapter a masks =>
      rw [LocApiBase.step]
      rcases removeAdapter_cases inStep.packs masks a with ⟨-, same⟩ | ⟨moved, others, perm, packs, removes⟩
      · rw [same]
        exact ⟨as, inStep⟩
      · rw [removes]
        by_cases none_left : others = []
        · subst none_left
          obtain rfl := List.singleton_perm.mp perm
          have taken := caughtUp inStep.packs
          exact ⟨[], packs, fun _ => ⟨taken, rfl⟩, fun filled => absurd rfl filled⟩
        · rw [if_neg none_left]
          exact ⟨others, .queued packs none_left (by simp [request])⟩

/-- When the last adapter is removed before the task has taken a message, the task opens the API for nobody. -/
theorem opens_for_nobody {a : α} (packs : Packs s.base.mLocAdapters [a]) (masks : α → EventMask)
    (behind : s.mQ ≠ []) : ∃ s', [.call (.removeAdapter a masks), ApiEvent.run].foldlM step s = some s' ∧
      Packs s'.base.mLocAdapters [] ∧ s'.opened ≠ none := by
  obtain ⟨msg, mQ, queued⟩ := List.exists_cons_of_ne_nil behind
  rcases removeAdapter_cases packs masks a with ⟨unknown, -⟩ | ⟨moved, others, perm, empty, removes⟩
  · exact absurd (List.mem_singleton_self a) unknown
  · obtain rfl : others = [] := List.length_eq_zero_iff.mp (Nat.succ.inj perm.length_eq)
    refine ⟨⟨moved, mQ, some msg.mMask⟩, ?_, empty, Option.some_ne_none _⟩
    simp [step, LocApiBase.step, removes, request, run, queued]

/-- With at most `MAX_ADAPTERS` adapters the registered ones stand in the array, once each, in front and with nothing
behind them. `close` is called for the removal of the last one alone. In a run whose removals of the last adapter
find no message queued, the API is closed while none is registered, and otherwise it is open once the messages are
taken; a removal that finds one leaves the API open with nobody registered. A loop over all adapters reaches each of
them once, and one that looks for an adapter to handle a report leaves out some only behind one that does. -/
theorem registry_holds {mExcludedMask : EventMask}
    (run : Run step (fun _ _ => True) { base := { mExcludedMask } } events s)
    (few : ((callsOf events).map AdapterCall.adapter).toFinset.card ≤ MAX_ADAPTERS) :
    ∃ as : List α, as.Nodup ∧ (∀ a, a ∈ as ↔ Added (callsOf events) a) ∧ Packs s.base.mLocAdapters as ∧
      (∀ call, .close ∈ (s.base.step call).2 ↔ ∃ a masks, call = .removeAdapter a masks ∧ as = [a]) ∧
      (Run step CaughtUp { base := { mExcludedMask } } events s →
        (as = [] → s.opened = none) ∧ (as ≠ [] → s.mQ = [] → s.opened ≠ none)) ∧
      (∀ a masks, as = [a] → s.mQ ≠ [] →
        ∃ s', [.call (.removeAdapter a masks), ApiEvent.run].foldlM step s = some s' ∧
          Packs s'.base.mLocAdapters [] ∧ s'.opened ≠ none) ∧
      (∀ {β : Type} (call : β → α → β) (b : β), s.base.toAllLocAdapters call b = as.foldl call b) ∧
      ∀ {β : Type} (call : β → α → β × Bool) (b : β), ∃ reached rest, as = reached ++ rest ∧
        s.base.to1stHandlingLocAdapters call b = reached.foldl (fun b a => (call b a).1) b ∧
        (rest ≠ [] → ∃ before a, reached = before ++ [a] ∧
          (call (before.foldl (fun b a => (call b a).1) b) a).2 = true) := by
  have first : Registry [] ({ mExcludedMask } : LocApiBase α) [] :=
    ⟨packs_empty, .nil, fun a => iff_of_false List.not_mem_nil (not_added_nil a)⟩
  obtain ⟨as, registry⟩ := registry_run run first few
  have packs := registry.packs
  refine ⟨as, registry.nodup, registry.mem_iff, packs, close_iff packs, fun caught => ?_,
    fun a masks last behind => opens_for_nobody (last ▸ packs) masks behind,
    toAllLocAdapters_eq packs, fun call b => ?_⟩
  · have start : ∃ as, InStep ({ base := { mExcludedMask } } : LocApi α) as :=
      ⟨[], packs_empty, fun _ => ⟨rfl, rfl⟩, fun filled => absurd rfl filled⟩
    obtain ⟨as', inStep⟩ := caught.invariant (fun s => ∃ as, InStep s as)
      (fun s event s' ⟨as, inStep⟩ caughtUp stepped => inStep.step caughtUp stepped) start
    obtain rfl := inStep.packs.unique packs
    exact ⟨fun none => (inStep.closed none).2, inStep.opens⟩
  · rw [to1stHandlingLocAdapters, packs.walk]
    obtain ⟨reached, rest, same, visited, ends⟩ := visit_reached (fun b a => ((call b a).1, !(call b a).2)) as b
    refine ⟨reached, rest, same, visited, fun more => ?_⟩
    obtain ⟨before, a, last, handled⟩ := ends more
    exact ⟨before, a, last, by simpa using handled⟩

/-- Two adapters come, one of them twice, one that is unknown is removed, and both leave; the task takes each message
before the next call but one. -/
def comeAndGo : List (ApiEvent Nat) :=
  [.call (.addAdapter 1 fun _ => 3), .call (.addAdapter 2 fun _ => 5), .run, .call (.addAdapter 1 fun _ => 3), .run,
    .call (.removeAdapter 7 fun _ => 0), .call (.removeAdapter 1 fun _ => 5), .run,
    .call (.removeAdapter 2 fun _ => 0)]

theorem registry_holds_sample : ∃ (s : LocApi Nat) (as : List Nat),
    Run step CaughtUp { base := { mExcludedMask := 0 } } comeAndGo s ∧ (∀ a, a ∈ as ↔ Added (callsOf comeAndGo) a) ∧
      Packs s.base.mLocAdapters as ∧ (as = [] → s.opened = none) := by
  obtain ⟨s, evaluates⟩ := Option.isSome_iff_exists.mp
    (show (checked step CaughtUp comeAndGo { base := { mExcludedMask := 0 } }).isSome by decide +kernel)
  have run := Run.of_checked evaluates
  obtain ⟨as, -, registered, packs, -, closes, -⟩ :=
    registry_holds (run.mono fun _ _ _ _ => trivial) (by decide)
  exact ⟨s, as, run, registered, packs, (closes run).1⟩

/-- The only adapter leaves before the task has taken the message of its registration. The task then opens the API,
and nobody is registered. -/
theorem opened_for_nobody :
    ([.call (.addAdapter 1 fun _ => 3), .call (.removeAdapter 1 fun _ => 0), ApiEvent.run].foldlM step
      ({ base := { mExcludedMask := 0 } } : LocApi Nat)).map (fun s => (s.opened, List.ofFn s.base.mLocAdapters)) =
      some (some 3, List.replicate MAX_ADAPTERS none) := by
  decide +kernel

end LocApi

end Hima.Gps
