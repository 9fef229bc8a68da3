import Hima.Camera.ClientManager
import Hima.Lib.Last
import Hima.Lib.Runs
import Mathlib.Algebra.Ring.Int.Defs
import Mathlib.Data.List.Nodup

/-!
# Admission of a client

The rules by which `ClientManager` makes room for a client, as a relation, and what `addAndEvict`
does: it follows them, but the removal of the evicted clients reads past their end as soon as a
client follows the last of them in the list.
-/
namespace Hima.ResourcePolicy

open Recency Runs ClientDescriptor ClientPriority

/-! ### Priorities -/

/-- A smaller score, and among equal ones a smaller state, is the higher priority. -/
instance : Preorder ClientPriority where
  le p q := p.lessOrSame q
  lt p q := p.less q
  le_refl p := by
    simp [lessOrSame, less]
  le_trans p q r := by
    simp only [lessOrSame, less]
    grind
  lt_iff_le_not_ge p q := by
    simp only [lessOrSame, less]
    grind

namespace ClientPriority

variable {p q : ClientPriority}

theorem lessOrSame_iff : p.lessOrSame q ↔ p ≤ q := Iff.rfl

theorem less_iff : p.less q ↔ p < q := Iff.rfl

theorem greaterOrSame_iff : p.greaterOrSame q ↔ q ≤ p := Iff.rfl

instance : DecidableLE ClientPriority := fun p q => decidable_of_iff _ (lessOrSame_iff (p := p) (q := q))

instance : DecidableLT ClientPriority := fun p q => decidable_of_iff _ (less_iff (p := p) (q := q))

theorem not_less : ¬ p < q ↔ q ≤ p := by
  rw [← less_iff, ← lessOrSame_iff, lessOrSame]
  simp

instance : Std.Total (fun p q : ClientPriority => p ≤ q) where
  total p q := by
    by_cases above : q ≤ p
    · exact .inr above
    · exact .inl (not_less.mp fun less => above less.le)

theorem sameAs_iff : p.sameAs q ↔ p ≤ q ∧ q ≤ p := by
  rw [← lessOrSame_iff, ← lessOrSame_iff]
  simp only [sameAs, lessOrSame, less]
  grind

end ClientPriority

/-! ### The rules -/

variable {κ : Type}

/-- The two cannot be active together: they have one key, or the key of one is among the
conflicting keys of the other. -/
def ClientDescriptor.Clashes (c d : ClientDescriptor κ) : Prop :=
  c.mKey = d.mKey ∨ d.mKey ∈ c.mConflicting ∨ c.mKey ∈ d.mConflicting

instance [DecidableEq κ] (c d : ClientDescriptor κ) : Decidable (c.Clashes d) :=
  inferInstanceAs (Decidable (_ ∨ _ ∨ _))

/-- Why an active client `c` leaves for `client` when the clients cost `total`. No client leaves
for one of lower priority. `top` says that the owner of `client` has the highest priority. -/
inductive Departs (maxCost : Int) (client : ClientDescriptor κ) (top : Prop) (total : Int)
    (c : ClientDescriptor κ) : Prop
  | opened_again : c.mKey = client.mKey → client.mPriority ≤ c.mPriority →
      Departs maxCost client top total c
  | conflict : c.Clashes client → c.mOwnerId ≠ client.mOwnerId →
      client.mPriority ≤ c.mPriority → Departs maxCost client top total c
  | cost : ¬ c.Clashes client → maxCost < total → 0 < c.mCost → client.mPriority ≤ c.mPriority →
      ¬ (top ∧ c.mOwnerId = client.mOwnerId) → Departs maxCost client top total c

/-- The active clients, least recently used first, are asked to leave in turn: `gone` do, `kept`
stay, and the total cost comes from the first number to the second. A client that clashes and does
not leave stops the admission. -/
inductive Pass (maxCost : Int) (client : ClientDescriptor κ) (top : Prop) :
    Int → List (ClientDescriptor κ) → List (ClientDescriptor κ) → List (ClientDescriptor κ) → Int → Prop
  | nil (total : Int) : Pass maxCost client top total [] [] [] total
  | departs {total total' : Int} {c : ClientDescriptor κ} {rest gone kept : List (ClientDescriptor κ)} :
      Departs maxCost client top total c →
      Pass maxCost client top (total - c.mCost) rest gone kept total' →
      Pass maxCost client top total (c :: rest) (c :: gone) kept total'
  | stays {total total' : Int} {c : ClientDescriptor κ} {rest gone kept : List (ClientDescriptor κ)} :
      ¬ c.Clashes client → ¬ Departs maxCost client top total c →
      Pass maxCost client top total rest gone kept total' →
      Pass maxCost client top total (c :: rest) gone (c :: kept) total'

namespace ClientManager

def totalCost (m : ClientManager κ) : Int := (m.mClients.map ClientDescriptor.mCost).sum

/-- The most recent of the clients of highest priority, the incoming one included, has the owner of
the incoming one. -/
def TopOwner (m : ClientManager κ) (client : ClientDescriptor κ) : Prop :=
  ∃ d, LastLeast mPriority (m.mClients ++ [client]) d ∧
    d.mOwnerId = client.mOwnerId

/-- By the rules `client` is admitted: `gone` leave for it and `kept` stay. A client that is active
already and comes first among those to leave is not. -/
def Admits (m : ClientManager κ) (client : ClientDescriptor κ) (gone kept : List (ClientDescriptor κ)) : Prop :=
  (∀ c ∈ gone.head?, c.address ≠ client.address) ∧
    ∃ total, Pass m.mMaxCost client (m.TopOwner client) (m.totalCost + client.mCost) m.mClients
      gone kept total ∧ (total ≤ m.mMaxCost ∨ m.TopOwner client)

/-- If the rules make clients leave for `client`, the most recently used client is one of them. -/
def NoneBehind (m : ClientManager κ) (client : ClientDescriptor κ) : Prop :=
  ∀ gone kept, m.Admits client gone kept → gone ≠ [] → ∀ c ∈ m.mClients.getLast?, c ∈ gone

/-- Keys are distinct and no two active clients clash. -/
structure Compatible (m : ClientManager κ) : Prop where
  keys : (m.mClients.map mKey).Nodup
  clashes : m.mClients.Pairwise fun c d => ¬ c.Clashes d

/-- The rules do not admit the client, it is returned, and nothing changes. -/
structure Rejected (m : ClientManager κ) (client : ClientDescriptor κ) (m' : ClientManager κ)
    (returned : List (ClientDescriptor κ)) : Prop where
  refused : ∀ gone kept, ¬ m.Admits client gone kept
  unchanged : m' = m
  alone : returned = [client] ∨ ∃ c ∈ m.mClients, c.address = client.address

/-- The rules admit the client: `returned` leave for it and `kept` stay. -/
structure Admitted (m : ClientManager κ) (client : ClientDescriptor κ)
    (kept : List (ClientDescriptor κ)) (m' : ClientManager κ)
    (returned : List (ClientDescriptor κ)) : Prop where
  rules : m.Admits client returned kept
  added : m' = { m with mClients := kept ++ [client] }
  evicted : ∀ c ∈ returned, c ∈ m.mClients ∧ c ∉ kept ∧ client.mPriority ≤ c.mPriority
  cost : m'.totalCost ≤ m.mMaxCost ∨ ∃ d ∈ m'.mClients, d.mOwnerId = client.mOwnerId ∧
    ∀ c ∈ m'.mClients, d.mPriority ≤ c.mPriority

end ClientManager

/-! ### A pass over the clients -/

section

variable {maxCost total total' : Int} {client c : ClientDescriptor κ} {top : Prop}
  {clients gone kept : List (ClientDescriptor κ)}

theorem Departs.priority (departs : Departs maxCost client top total c) :
    client.mPriority ≤ c.mPriority := by
  cases departs <;> assumption

namespace Pass

section

variable (pass : Pass maxCost client top total clients gone kept total')
include pass

theorem perm :
    (gone ++ kept).Perm clients := by
  induction pass with
  | nil => exact .nil
  | departs _ _ ih => exact ih.cons _
  | stays _ _ _ ih => exact List.perm_middle.trans (ih.cons _)

theorem sublist :
    kept.Sublist clients := by
  induction pass with
  | nil => exact .slnil
  | departs _ _ ih => exact ih.cons _
  | stays _ _ _ ih => exact ih.cons_cons _

theorem priority :
    ∀ c ∈ gone, client.mPriority ≤ c.mPriority := by
  induction pass with
  | nil => simp
  | departs departs _ ih =>
    intro c member
    rcases List.mem_cons.mp member with rfl | member
    · exact departs.priority
    · exact ih c member
  | stays _ _ _ ih => exact ih

theorem not_clashes :
    ∀ c ∈ kept, ¬ c.Clashes client := by
  induction pass with
  | nil => simp
  | departs _ _ ih => exact ih
  | stays apart _ _ ih =>
    intro c member
    rcases List.mem_cons.mp member with rfl | member
    · exact apart
    · exact ih c member

/-- What a pass ends with is what the clients that stay cost, the incoming one included. -/
theorem total_eq :
    total' + (clients.map mCost).sum = total + (kept.map mCost).sum := by
  induction pass with
  | nil => rfl
  | departs _ _ ih =>
    rw [List.map_cons, List.sum_cons]
    omega
  | stays _ _ _ ih =>
    rw [List.map_cons, List.sum_cons, List.map_cons, List.sum_cons]
    omega

/-- A client of higher priority than the incoming one stays. -/
theorem stays_of_less (member : c ∈ clients) (less : c.mPriority < client.mPriority) : c ∈ kept := by
  rcases List.mem_append.mp (pass.perm.mem_iff.mpr member) with left | stayed
  · exact absurd less (not_lt_of_ge (pass.priority c left))
  · exact stayed

end

end Pass

variable [DecidableEq κ]

theorem conflicting_iff : (c.mKey = client.mKey ∨ c.isConflicting client.mKey ∨
    client.isConflicting c.mKey) ↔ c.Clashes client := by
  simp only [isConflicting, Clashes]
  grind

/-- One turn of the loop, by the clashes of the client and its place in the order. -/
theorem evictLoop_cons {owner : Int} {evictList rest : List (ClientDescriptor κ)} :
    ClientManager.evictLoop maxCost client owner false (c :: rest) evictList total =
      if c.Clashes client ∧ (c.mPriority < client.mPriority ∨
          client.mOwnerId = c.mOwnerId ∧ c.mKey ≠ client.mKey) then none
      else if c.Clashes client ∨ ((total > maxCost ∧ c.mCost > 0) ∧ client.mPriority ≤ c.mPriority ∧
          ¬ (owner = client.mOwnerId ∧ client.mOwnerId = c.mOwnerId)) then
        ClientManager.evictLoop maxCost client owner false rest (evictList ++ [c]) (total - c.mCost)
      else ClientManager.evictLoop maxCost client owner false rest evictList total := by
  rw [ClientManager.evictLoop]
  simp only [conflicting_iff, Bool.false_eq_true, not_false_eq_true, if_true, less_iff, greaterOrSame_iff]
  grind

theorem departs_iff : Departs maxCost client top total c ↔
    ¬ (c.Clashes client ∧ (c.mPriority < client.mPriority ∨
      client.mOwnerId = c.mOwnerId ∧ c.mKey ≠ client.mKey)) ∧
    (c.Clashes client ∨ ((total > maxCost ∧ c.mCost > 0) ∧ client.mPriority ≤ c.mPriority ∧
      ¬ (top ∧ client.mOwnerId = c.mOwnerId))) := by
  constructor
  · intro departs
    have notLess := not_lt_of_ge departs.priority
    cases departs with
    | opened_again same above => simp [Clashes, same, notLess]
    | conflict clashes other above => simp [clashes, notLess, Ne.symm other]
    | cost apart exceeds positive above other =>
      exact ⟨fun both => apart both.1, .inr ⟨⟨exceeds, positive⟩, above, fun both => other ⟨both.1, both.2.symm⟩⟩⟩
  · rintro ⟨allowed, clashes | ⟨⟨exceeds, positive⟩, above, other⟩⟩
    · have above : client.mPriority ≤ c.mPriority :=
        not_less.mp fun less => allowed ⟨clashes, .inl less⟩
      by_cases same : c.mKey = client.mKey
      · exact .opened_again same above
      · exact .conflict clashes (fun owner => allowed ⟨clashes, .inr ⟨owner.symm, same⟩⟩) above
    · by_cases clashes : c.Clashes client
      · by_cases same : c.mKey = client.mKey
        · exact .opened_again same above
        · exact .conflict clashes (fun owner => allowed ⟨clashes, .inr ⟨owner.symm, same⟩⟩) above
      · exact .cost clashes exceeds positive above fun both => other ⟨both.1, both.2.symm⟩

/-- The loop is the pass, and it stops where the pass has no way on. The induction is on the clients
that are still to be asked. -/
theorem evictLoop_iff {owner : Int} {evictList result : List (ClientDescriptor κ)} :
    ClientManager.evictLoop maxCost client owner false clients evictList total = some (result, total') ↔
      ∃ gone kept, result = evictList ++ gone ∧
        Pass maxCost client (owner = client.mOwnerId) total clients gone kept total' := by
  induction clients generalizing evictList total with
  | nil =>
    constructor
    · intro answer
      obtain ⟨rfl, rfl⟩ := Prod.mk.inj (Option.some.inj answer)
      exact ⟨[], [], by simp, .nil total⟩
    · rintro ⟨gone, kept, rfl, pass⟩
      cases pass
      simp [ClientManager.evictLoop]
  | cons c rest ih =>
    rw [evictLoop_cons]
    split
    -- the loop breaks off, as no pass gets beyond this client
    next refused =>
      constructor
      · intro answer
        cases answer
      · rintro ⟨gone, kept, -, pass⟩
        cases pass with
        | departs departs _ => exact absurd refused (departs_iff.mp departs).1
        | stays apart _ _ => exact absurd refused.1 apart
    next allowed =>
      split
      next leaves =>
        have departs := departs_iff.mpr ⟨allowed, leaves⟩
        rw [ih]
        constructor
        · rintro ⟨gone, kept, rfl, pass⟩
          exact ⟨c :: gone, kept, by simp, .departs departs pass⟩
        · rintro ⟨gone, kept, rfl, pass⟩
          cases pass with
          | departs _ pass => exact ⟨_, kept, by simp, pass⟩
          | stays _ remains _ => exact absurd departs remains
      next remains =>
        rw [ih]
        constructor
        · rintro ⟨gone, kept, rfl, pass⟩
          exact ⟨gone, c :: kept, rfl, .stays (fun clashes => remains (.inl clashes))
            (fun departs => remains (departs_iff.mp departs).2) pass⟩
        · rintro ⟨gone, kept, rfl, pass⟩
          cases pass with
          | departs departs _ => exact absurd (departs_iff.mp departs).2 remains
          | stays _ _ pass => exact ⟨gone, _, rfl, pass⟩

/-- The removal succeeds exactly if the last client is one that leaves, and then the others are
what is left. -/
theorem removeEvicted_iff (pass : Pass maxCost client top total clients gone kept total')
    (keys : (clients.map mKey).Nodup) {left : List (ClientDescriptor κ)} :
    ClientManager.removeEvicted clients gone = some left ↔ left = kept ∧ ∀ c ∈ clients.getLast?, c ∈ gone := by
  induction pass generalizing left with
  | nil => simp [ClientManager.removeEvicted, eq_comm]
  | @departs total total' c rest gone kept departs pass ih =>
    obtain ⟨fresh, keys⟩ := List.nodup_cons.mp keys
    rw [ClientManager.removeEvicted, if_pos rfl, ih keys]
    cases rest with
    | nil => simp
    | cons next rest =>
      refine and_congr_right fun _ => forall₂_congr fun d last => ?_
      have other : d ≠ c := by
        rintro rfl
        exact fresh (List.mem_map_of_mem (List.mem_of_getLast? last))
      simp [other]
  | @stays total total' c rest gone kept _ _ pass ih =>
    obtain ⟨fresh, keys⟩ := List.nodup_cons.mp keys
    cases gone with
    | nil =>
      -- the client is tested after the last one that leaves was taken out
      have some_last : ∃ d, (c :: rest).getLast? = some d := ⟨_, List.getLast?_cons⟩
      simp [ClientManager.removeEvicted, some_last]
    | cons iter gone =>
      have inside : iter ∈ rest := pass.perm.mem_iff.mp (by simp)
      have other : c.mKey ≠ iter.mKey := by
        intro same
        exact fresh (same ▸ List.mem_map_of_mem inside)
      rw [ClientManager.removeEvicted, if_neg other, Option.map_eq_some_iff]
      cases rest with
      | nil => cases inside
      | cons next rest =>
        constructor
        · rintro ⟨left, answer, rfl⟩
          obtain ⟨rfl, last⟩ := (ih keys).mp answer
          exact ⟨rfl, last⟩
        · rintro ⟨rfl, last⟩
          exact ⟨kept, (ih keys).mpr ⟨rfl, last⟩, rfl⟩

end

/-! ### The calls -/

namespace ClientManager

variable {m m' : ClientManager κ} {client : ClientDescriptor κ}
  {gone kept returned : List (ClientDescriptor κ)}

theorem getCurrentCostLocked_eq (m : ClientManager κ) : m.getCurrentCostLocked = m.totalCost := by
  rw [getCurrentCostLocked, totalCost, List.sum_eq_foldl, List.foldl_map]

theorem highestLoop_eq (clients : List (ClientDescriptor κ)) (d : ClientDescriptor κ) :
    highestLoop clients (d.mPriority, d.mOwnerId) = ((clients.foldl (takeOver mPriority) d).mPriority,
        (clients.foldl (takeOver mPriority) d).mOwnerId) := by
  induction clients generalizing d with
  | nil => rfl
  | cons c clients ih =>
    rw [highestLoop, List.foldl_cons, List.foldl_cons, ← highestLoop, ← ih, takeOver]
    simp only [lessOrSame_iff]
    split <;> rfl

/-- The owner that the first loop ends with, set back to the incoming one's where that has the
highest priority, is the owner of the most recent client of highest priority. -/
theorem highestPriorityOwner_iff (m : ClientManager κ) (client : ClientDescriptor κ) :
    m.highestPriorityOwner client = client.mOwnerId ↔ m.TopOwner client := by
  have last := lastLeast_foldl mPriority client m.mClients
  rw [highestPriorityOwner, highestLoop_eq]
  generalize m.mClients.foldl (takeOver mPriority) client = d at last
  by_cases highest : client.mPriority ≤ d.mPriority
  · have same : d.mPriority.sameAs client.mPriority :=
      sameAs_iff.mpr ⟨last.le client List.mem_cons_self, highest⟩
    rw [if_pos same]
    exact iff_of_true rfl ⟨client, last.moved highest, rfl⟩
  · have different : ¬ d.mPriority.sameAs client.mPriority := fun same =>
      highest (sameAs_iff.mp same).2
    rw [if_neg different]
    constructor
    · intro owner
      exact ⟨d, last.stays highest, owner⟩
    · rintro ⟨d', last', owner⟩
      rwa [(last.stays highest).unique last']

/-- An owner that has the highest priority keeps a client of that priority. -/
theorem TopOwner.remains {total total' maxCost : Int} {top : Prop} (owner : m.TopOwner client)
    (pass : Pass maxCost client top total m.mClients gone kept total') :
    ∃ d ∈ kept ++ [client], d.mOwnerId = client.mOwnerId ∧
      ∀ c ∈ kept ++ [client], d.mPriority ≤ c.mPriority := by
  obtain ⟨d, last, same⟩ := owner
  have least : ∀ c ∈ kept ++ [client], d.mPriority ≤ c.mPriority := fun c member =>
    last.le c ((pass.sublist.append_right [client]).subset member)
  by_cases less : d.mPriority < client.mPriority
  · refine ⟨d, List.mem_append_left _ (pass.stays_of_less ?_ less), same, least⟩
    rcases List.mem_append.mp last.mem with inside | inside
    · exact inside
    · rw [List.mem_singleton.mp inside] at less
      exact absurd less (lt_irrefl _)
  · have above := not_less.mp less
    exact ⟨client, by simp, rfl, fun c member => above.trans (least c member)⟩

theorem Admits.admitted (keys : (m.mClients.map ClientDescriptor.mKey).Nodup)
    (admits : m.Admits client gone kept) :
    m.Admitted client kept { m with mClients := kept ++ [client] } gone := by
  obtain ⟨total, pass, enough⟩ := admits.2
  refine ⟨admits, rfl, ?_, ?_⟩
  · intro c left
    have nodup := pass.perm.nodup_iff.mpr keys.of_map
    exact ⟨pass.perm.mem_iff.mp (List.mem_append_left _ left),
      fun stayed => List.disjoint_of_nodup_append nodup left stayed, pass.priority c left⟩
  · refine enough.imp (fun below => ?_) fun owner => owner.remains pass
    have cost := pass.total_eq
    rw [totalCost] at cost ⊢
    rw [List.map_append, List.sum_append, List.map_singleton, List.sum_singleton]
    omega

theorem Compatible.filter (compatible : m.Compatible) (keep : ClientDescriptor κ → Bool) :
    ({ m with mClients := m.mClients.filter keep } : ClientManager κ).Compatible where
  keys := compatible.keys.sublist (List.filter_sublist.map _)
  clashes := compatible.clashes.sublist List.filter_sublist

theorem Compatible.admitted (compatible : m.Compatible) (admitted : m.Admitted client kept m' returned) :
    m'.Compatible := by
  obtain ⟨total, pass, _⟩ := admitted.rules.2
  have apart := pass.not_clashes
  have keys := compatible.keys.sublist (pass.sublist.map _)
  have clashes := compatible.clashes.sublist pass.sublist
  rw [admitted.added]
  constructor
  · rw [List.map_append, List.map_singleton]
    refine List.nodup_append_comm.mp (List.nodup_cons.mpr ⟨?_, keys⟩)
    intro inside
    obtain ⟨c, member, same⟩ := List.mem_map.mp inside
    exact apart c member (.inl same)
  · refine List.pairwise_append.mpr ⟨clashes, List.pairwise_singleton _ _, ?_⟩
    intro c member d new
    rw [List.mem_singleton.mp new]
    exact apart c member

/-- Priorities have no part in what clashes. -/
theorem Compatible.map (compatible : m.Compatible) {f : ClientDescriptor κ → ClientDescriptor κ}
    (key : ∀ c, (f c).mKey = c.mKey) (conflicting : ∀ c, (f c).mConflicting = c.mConflicting) :
    ({ m with mClients := m.mClients.map f } : ClientManager κ).Compatible := by
  constructor
  · rw [List.map_map, funext key (f := mKey ∘ f)]
    exact compatible.keys
  · rw [List.pairwise_map]
    refine compatible.clashes.imp fun {c d} apart => ?_
    rwa [Clashes, key, key, conflicting, conflicting]

theorem Compatible.updatePriorities (compatible : m.Compatible)
    (ownerPriorityList : Int → Option ClientPriority) :
    (m.updatePriorities ownerPriorityList).Compatible := by
  apply compatible.map
  all_goals
    intro c
    split
    · rw [setPriority]
      split <;> rfl
    · rfl

variable [DecidableEq κ]

/-- What the source finds to evict is what the rules make leave, unless they do not admit the
client. -/
theorem wouldEvict_of_pass {total : Int}
    (pass : Pass m.mMaxCost client (m.TopOwner client) (m.totalCost + client.mCost) m.mClients
      gone kept total) (admitted : total ≤ m.mMaxCost ∨ m.TopOwner client) :
    m.wouldEvictLocked client = gone := by
  rw [← highestPriorityOwner_iff] at pass admitted
  have looped : evictLoop m.mMaxCost client (m.highestPriorityOwner client) false m.mClients []
      (m.totalCost + client.mCost) = some (gone, total) :=
    evictLoop_iff.mpr ⟨gone, kept, rfl, pass⟩
  rw [wouldEvictLocked, getCurrentCostLocked_eq, looped]
  dsimp only
  have enough : ¬ (total > m.mMaxCost ∧ m.highestPriorityOwner client ≠ client.mOwnerId) := by
    rintro ⟨exceeds, other⟩
    exact admitted.elim (fun below => absurd below (Int.not_le.mpr exceeds)) other
  rw [if_neg enough]
  rfl

theorem wouldEvict_cases (m : ClientManager κ) (client : ClientDescriptor κ) :
    m.wouldEvictLocked client = [client] ∨ ∃ kept total,
      Pass m.mMaxCost client (m.TopOwner client) (m.totalCost + client.mCost) m.mClients
        (m.wouldEvictLocked client) kept total ∧ (total ≤ m.mMaxCost ∨ m.TopOwner client) := by
  rw [wouldEvictLocked, getCurrentCostLocked_eq]
  split
  next => exact .inl rfl
  next evictList total looped =>
    obtain ⟨gone, kept, rfl, pass⟩ := evictLoop_iff.mp looped
    rw [if_neg Bool.false_ne_true]
    simp only [highestPriorityOwner_iff] at pass
    split
    next => exact .inl rfl
    next enough =>
      refine .inr ⟨kept, total, pass, ?_⟩
      rw [← highestPriorityOwner_iff]
      by_cases below : total ≤ m.mMaxCost
      · exact .inl below
      · exact .inr (not_not.mp fun other => enough ⟨Int.not_le.mp below, other⟩)

/-- A client that the rules do not admit is returned, and nothing changes. -/
theorem addAndEvict_rejected (refused : ∀ gone kept, ¬ m.Admits client gone kept) :
    ∃ returned, m.addAndEvict client = some (m, returned) ∧ m.Rejected client m returned := by
  rcases wouldEvict_cases m client with alone | ⟨kept, total, pass, admitted⟩
  · refine ⟨[client], ?_, refused, rfl, .inl rfl⟩
    rw [addAndEvict, alone]
    exact if_pos rfl
  · cases found : m.wouldEvictLocked client with
    | nil =>
      rw [found] at pass
      exact absurd ⟨by simp, total, pass, admitted⟩ (refused [] kept)
    | cons it evicted =>
      rw [found] at pass
      have same : it.address = client.address := by
        by_contra other
        exact refused (it :: evicted) kept ⟨by simpa using other, total, pass, admitted⟩
      refine ⟨it :: evicted, ?_, refused, rfl, .inr ⟨it, ?_, same⟩⟩
      · rw [addAndEvict, found]
        exact if_pos same
      · exact pass.perm.mem_iff.mp (by simp)

/-- A client that the rules admit is admitted, if the last client of the list leaves for it or none
does. -/
theorem addAndEvict_iff (keys : (m.mClients.map ClientDescriptor.mKey).Nodup)
    (admits : m.Admits client gone kept) :
    m.addAndEvict client = some (m', returned) ↔ (gone ≠ [] → ∀ c ∈ m.mClients.getLast?, c ∈ gone) ∧
        m' = { m with mClients := kept ++ [client] } ∧ returned = gone := by
  obtain ⟨first, total, pass, admitted⟩ := admits
  rw [addAndEvict, wouldEvict_of_pass pass admitted]
  cases gone with
  | nil =>
    have all : kept = m.mClients := pass.sublist.eq_of_length (by simpa using pass.perm.length_eq)
    simp [all, eq_comm]
  | cons it evicted =>
    dsimp only
    rw [if_neg (first it rfl), Option.map_eq_some_iff]
    simp only [removeEvicted_iff pass keys, Prod.mk.injEq]
    constructor
    · rintro ⟨left, ⟨rfl, last⟩, rfl, rfl⟩
      exact ⟨fun _ => last, rfl, rfl⟩
    · rintro ⟨last, rfl, rfl⟩
      exact ⟨kept, ⟨rfl, last (by simp)⟩, rfl, rfl⟩

/-! ### Runs -/

theorem Compatible.step {call : Call κ} (compatible : m.Compatible) (stepped : m.step call = some m') :
    m'.Compatible := by
  cases call with
  | addAndEvict client =>
    obtain ⟨⟨m'', returned⟩, answer, rfl⟩ := Option.map_eq_some_iff.mp stepped
    by_cases admits : ∃ gone kept, m.Admits client gone kept
    · obtain ⟨gone, kept, admits⟩ := admits
      obtain ⟨_, rfl, rfl⟩ := (addAndEvict_iff compatible.keys admits).mp answer
      exact compatible.admitted (admits.admitted compatible.keys)
    · have refused : ∀ gone kept, ¬ m.Admits client gone kept := fun gone kept found =>
        admits ⟨gone, kept, found⟩
      obtain ⟨_, answer', _⟩ := addAndEvict_rejected refused
      obtain ⟨rfl, _⟩ := Prod.mk.inj (Option.some.inj (answer.symm.trans answer'))
      exact compatible
  | remove key =>
    obtain rfl := Option.some.inj stepped
    exact compatible.filter _
  | removeClient value =>
    obtain rfl := Option.some.inj stepped
    exact compatible.filter _
  | removeAll =>
    obtain rfl := Option.some.inj stepped
    exact ⟨List.nodup_nil, .nil⟩
  | updatePriorities ownerPriorityList =>
    obtain rfl := Option.some.inj stepped
    exact compatible.updatePriorities ownerPriorityList

end ClientManager

open ClientManager

/-- What is right about a call: it comes to an end, and `addAndEvict` rejects the client or admits it
by the rules. -/
def Right [DecidableEq κ] (m : ClientManager κ) : Call κ → Prop
  | .addAndEvict client => ∃ m' returned, m.addAndEvict client = some (m', returned) ∧
      (m.Rejected client m' returned ∨ ∃ kept, m.Admitted client kept m' returned)
  | call => (m.step call).isSome

/-- Where a call is right: an `addAndEvict` leaves no client behind the last one that it evicts. -/
def Allowed (m : ClientManager κ) : Call κ → Prop
  | .addAndEvict client => m.NoneBehind client
  | _ => True

/-- After any calls that came to an end the keys are distinct and no two clients clash, and whatever
is called next is right exactly if it is an `addAndEvict` that evicts no client or, with others
or alone, the most recently used one, or another call. -/
theorem admission_iff [DecidableEq κ] {totalCost : Int} {calls : List (Call κ)} {m : ClientManager κ}
    (run : Run ClientManager.step (fun _ _ => True) (construct totalCost) calls m) :
    m.Compatible ∧ ∀ call, Right m call ↔ Allowed m call := by
  have compatible : m.Compatible := run.invariant Compatible
    (fun _ _ _ before _ stepped => before.step stepped) ⟨List.nodup_nil, .nil⟩
  refine ⟨compatible, fun call => ?_⟩
  cases call with
  | addAndEvict client =>
    by_cases admits : ∃ gone kept, m.Admits client gone kept
    · obtain ⟨gone, kept, admits⟩ := admits
      constructor
      · rintro ⟨m', returned, answer, _⟩ gone' kept' admits'
        exact ((addAndEvict_iff compatible.keys admits').mp answer).1
      · intro allowed
        exact ⟨_, gone, (addAndEvict_iff compatible.keys admits).mpr ⟨allowed gone kept admits, rfl, rfl⟩,
          .inr ⟨kept, admits.admitted compatible.keys⟩⟩
    · have refused : ∀ gone kept, ¬ m.Admits client gone kept := fun gone kept found =>
        admits ⟨gone, kept, found⟩
      obtain ⟨returned, answer, rejected⟩ := addAndEvict_rejected refused
      exact iff_of_true ⟨m, returned, answer, .inl rejected⟩
        fun gone kept found => absurd found (refused gone kept)
  | remove => exact iff_of_true rfl trivial
  | removeClient => exact iff_of_true rfl trivial
  | removeAll => exact iff_of_true rfl trivial
  | updatePriorities => exact iff_of_true rfl trivial

/-- A client of the camera `key`, for an owner of priority `score`. -/
def sampleClient (address key : Nat) (cost : Int) (conflicting : List Nat) (ownerId score : Int) :
    ClientDescriptor Nat :=
  ⟨address, key, cost, conflicting, .construct score 2 false, ownerId⟩

/-- Two cameras are open. One that clashes with the first and whose owner comes before them evicts
both, since together with the second it costs too much; one whose owner comes after them is rejected. -/
theorem admission_iff_sample :
    ∃ m : ClientManager Nat, m.Compatible ∧ Right m (.addAndEvict (sampleClient 2 2 60 [0] 9 0)) ∧
      Right m (.addAndEvict (sampleClient 3 2 60 [0] 9 300)) := by
  have run : Run ClientManager.step (fun _ _ => True) (construct 100)
      [.addAndEvict (sampleClient 0 0 20 [] 7 100), .addAndEvict (sampleClient 1 1 60 [] 8 200)]
      ⟨100, [sampleClient 0 0 20 [] 7 100, sampleClient 1 1 60 [] 8 200]⟩ :=
    Run.of_foldlM (fun _ _ _ => trivial) rfl
  obtain ⟨compatible, right⟩ := admission_iff run
  refine ⟨_, compatible, ?_, ?_⟩
  · rw [right]
    rintro gone kept ⟨_, total, pass, enough⟩ _ c last
    obtain rfl : _ = gone := wouldEvict_of_pass pass enough
    obtain rfl := Option.some.inj last
    decide
  · rw [right]
    rintro gone kept ⟨first, total, pass, enough⟩
    obtain rfl : _ = gone := wouldEvict_of_pass pass enough
    exact absurd rfl (first _ rfl)

/-- Two cameras are open and the owner of the first opens it again: the first is evicted, and the test
of the second reads past the end of the evicted clients. -/
theorem admission_reads_past_end :
    ∃ m : ClientManager Nat, Run ClientManager.step (fun _ _ => True) (construct 100)
        [.addAndEvict (sampleClient 0 0 20 [] 7 100), .addAndEvict (sampleClient 1 1 20 [] 8 200)] m ∧
      m.addAndEvict (sampleClient 2 0 20 [] 7 100) = none ∧
      ¬ Right m (.addAndEvict (sampleClient 2 0 20 [] 7 100)) := by
  refine ⟨⟨100, [sampleClient 0 0 20 [] 7 100, sampleClient 1 1 20 [] 8 200]⟩,
    Run.of_foldlM (fun _ _ _ => trivial) rfl, rfl, ?_⟩
  rintro ⟨m', returned, answer, _⟩
  cases answer

end Hima.ResourcePolicy
