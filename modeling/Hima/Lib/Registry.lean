import Mathlib.Data.List.Nodup
import Hima.Lib.Prefixes

/-!
# Members under names that a counter makes

A registry keeps its members in the first `num` places. A member holds a handle for some of the
families, and each handle stands in a table under a name. The name of a handle is made of its
family and of the value that a counter had when the member joined; the counter goes up with every
member, but the name shows only a part of it. When the names of the members differ: in terms of the
values that the members joined at.
-/
namespace Hima.Members

open Prefixes

variable {σ ε Φ H N D : Type}

/-- What can be seen of a registry. Places from `num` on belong to no member. -/
structure View (Φ H N : Type) where
  num : Nat
  count : Nat
  handle : Nat → Φ → Option H
  table : List (H × N)

/-- A registry works on states of its own. `leaver` is the place of the member that an event is to
remove. -/
structure Registry (σ ε Φ H N : Type) where
  step : σ → ε → σ
  view : σ → View Φ H N
  leaver : σ → ε → Option Nat

section Names

variable [DecidableEq H] (v : View Φ H N)

/-- The name that a member's handle stands under. -/
def View.nameAt (i : Nat) (ip : Φ) : Option N :=
  (v.handle i ip).bind fun hdl => (v.table.find? (·.1 = hdl)).map Prod.snd

/-- No two handles of members stand under one name. -/
def View.NamesDistinct : Prop :=
  ∀ i < v.num, ∀ j < v.num, ∀ ip ip' n,
    v.nameAt i ip = some n → v.nameAt j ip' = some n → i = j ∧ ip = ip'

end Names

variable (R : Registry σ ε Φ H N)

/-- The values of the counter that the members joined at, in the order of their places. -/
def Registry.track (joined : List Nat) (s : σ) (e : ε) : List Nat :=
  if (R.view s).num < (R.view (R.step s e)).num then joined ++ [(R.view s).count]
  else if (R.view (R.step s e)).num < (R.view s).num then
    match R.leaver s e with
    | some i => joined.eraseIdx i
    | none => joined
  else joined

/-- A state and the values that its members joined at, after some events. -/
def Registry.after (start : σ) (es : List ε) : σ × List Nat :=
  es.foldl (fun p e => (R.step p.1 e, R.track p.2 p.1 e)) (start, [])

/-- A member that joins differs in what the names show from the members that are there. -/
def Registry.JoinsApart (shown : Nat → D) (p : σ × List Nat) (e : ε) : Prop :=
  (R.view p.1).num < (R.view (R.step p.1 e)).num → ∀ n ∈ p.2, shown n ≠ shown (R.view p.1).count

theorem after_snoc (start : σ) (es : List ε) (e : ε) :
    R.after start (es ++ [e]) =
      (R.step (R.after start es).1 e, R.track (R.after start es).2 (R.after start es).1 e) := by
  simp [Registry.after]

/-- What the start has and every event keeps holds after any events. -/
theorem after_invariant {start : σ} {es : List ε} (Inv ok : σ → Prop) (initial : Inv start)
    (preserved : ∀ s e, Inv s → ok (R.step s e) → Inv (R.step s e))
    (allowed : ∀ pre, pre <+: es → ok (R.after start pre).1) :
    ∀ pre, pre <+: es → Inv (R.after start pre).1 := by
  refine invariant_of_steps (fun p : σ × List Nat => Inv p.1) (fun p e => ok (R.step p.1 e)) initial
    (fun p e => preserved p.1 e) fun pre e before => ?_
  have next := allowed _ before
  rw [after_snoc] at next
  exact next

/-! ### What an event may do -/

variable [DecidableEq Φ] [DecidableEq H]

/-- The table keeps its entries, and none of its handles stands in it twice. -/
structure Grows (table table' : List (H × N)) : Prop where
  kept : ∀ entry ∈ table, entry ∈ table'
  keys : (table'.map Prod.fst).Nodup

/-- From `v` to `v'` nothing happens to the members, one joins, one loses a handle, or one leaves.
Every member holds a handle of the family `last`. -/
inductive Effect (name : Φ → Nat → N) (last : Φ) (leaver : Option Nat) (v v' : View Φ H N) : Prop
  | idle (num : v'.num = v.num) (count : v'.count = v.count)
      (handles : ∀ i < v.num, v'.handle i = v.handle i) (grows : Grows v.table v'.table)
  | join (num : v'.num = v.num + 1) (count : v'.count = v.count + 1)
      (handles : ∀ i < v.num, v'.handle i = v.handle i) (grows : Grows v.table v'.table)
      (named : ∀ ip hdl, v'.handle v.num ip = some hdl →
        (hdl, name ip v.count) ∈ v'.table ∧ hdl ∉ v.table.map Prod.fst)
      (complete : (v'.handle v.num last).isSome)
  | drop (i : Nat) (ip : Φ) (hdl : H) (inside : i < v.num) (num : v'.num = v.num)
      (count : v'.count = v.count) (other : ip ≠ last) (held : v.handle i ip = some hdl)
      (handles : ∀ j < v.num, v'.handle j =
        if j = i then Function.update (v.handle i) ip none else v.handle j)
      (table : v'.table = v.table.filter (·.1 ≠ hdl))
  | leave (i : Nat) (found : leaver = some i) (inside : i < v.num) (num : v.num = v'.num + 1)
      (count : v'.count = v.count)
      (handles : ∀ j < v'.num, v'.handle j = v.handle (if j < i then j else j + 1))
      (table : v'.table.Sublist v.table)
      (kept : ∀ entry ∈ v.table, (∀ ip, v.handle i ip ≠ some entry.1) → entry ∈ v'.table)

/-- The members' handles stand in the table under the names that they were given, and apart. -/
structure Named (name : Φ → Nat → N) (last : Φ) (v : View Φ H N) (joined : List Nat) : Prop where
  length : joined.length = v.num
  named : ∀ i n, joined[i]? = some n → ∀ ip hdl, v.handle i ip = some hdl → (hdl, name ip n) ∈ v.table
  keys : (v.table.map Prod.fst).Nodup
  apart : ∀ i < v.num, ∀ j < v.num, ∀ ip ip' hdl,
    v.handle i ip = some hdl → v.handle j ip' = some hdl → i = j
  complete : ∀ i < v.num, (v.handle i last).isSome

variable {R} {name : Φ → Nat → N} {last : Φ} {shown : Nat → D} {s : σ} {e : ε} {joined : List Nat}
  {v v' : View Φ H N}

omit [DecidableEq Φ] [DecidableEq H] in
/-- Nobody is there yet. -/
theorem Named.empty (last : Φ) (num : v.num = 0) (table : v.table = []) : Named name last v [] where
  length := num.symm
  named i n member := by simp at member
  keys := by simp [table]
  apart i below := absurd below (by omega)
  complete i below := absurd below (by omega)

omit [DecidableEq Φ] in
/-- A handle that stands in the table is found there under its own name. -/
theorem nameAt_of_mem {i : Nat} {ip : Φ} {hdl : H} {n : N}
    (keys : (v.table.map Prod.fst).Nodup) (held : v.handle i ip = some hdl)
    (entry : (hdl, n) ∈ v.table) : v.nameAt i ip = some n := by
  have find : ∀ l : List (H × N), (l.map Prod.fst).Nodup → (hdl, n) ∈ l →
      l.find? (·.1 = hdl) = some (hdl, n) := by
    intro l
    induction l with
    | nil => simp
    | cons x l ih =>
      intro nodup member
      rw [List.map_cons, List.nodup_cons] at nodup
      rcases List.mem_cons.mp member with rfl | member
      · simp
      · have other : x.1 ≠ hdl := fun this =>
          nodup.1 (List.mem_map.mpr ⟨(hdl, n), member, this.symm⟩)
        rw [List.find?_cons_of_neg (by simpa using other)]
        exact ih nodup.2 member
  rw [View.nameAt, held, Option.bind_some, find _ keys entry]
  rfl

omit [DecidableEq Φ] in
/-- The names of the members differ exactly when the shown parts of their values do. -/
theorem Named.distinct_iff (here : Named name last v joined)
    (names : ∀ ip ip' n n', name ip n = name ip' n' ↔ ip = ip' ∧ shown n = shown n') :
    v.NamesDistinct ↔ (joined.map shown).Nodup := by
  have value : ∀ i < v.num, ∃ n, joined[i]? = some n := fun i below =>
    ⟨_, List.getElem?_eq_getElem (here.length ▸ below)⟩
  have nameAt : ∀ i n ip hdl, joined[i]? = some n → v.handle i ip = some hdl →
      v.nameAt i ip = some (name ip n) := fun i n ip hdl at_i held =>
    nameAt_of_mem here.keys held (here.named i n at_i ip hdl held)
  constructor
  · intro distinct
    rw [List.nodup_iff_getElem?_ne_getElem?]
    intro i j before inside same
    rw [List.length_map, here.length] at inside
    obtain ⟨n, at_i⟩ := value i (by omega)
    obtain ⟨n', at_j⟩ := value j inside
    rw [List.getElem?_map, List.getElem?_map, at_i, at_j] at same
    -- both members have a header of the family that all members have
    obtain ⟨hdl, held⟩ := Option.isSome_iff_exists.mp (here.complete i (by omega))
    obtain ⟨hdl', held'⟩ := Option.isSome_iff_exists.mp (here.complete j inside)
    have shows : shown n = shown n' := by simpa using same
    have one := nameAt i n last hdl at_i held
    rw [(names last last n n').mpr ⟨rfl, shows⟩] at one
    have := (distinct i (by omega) j inside last last _ one (nameAt j n' last hdl' at_j held')).1
    omega
  · intro nodup i inside j inside' ip ip' m first second
    obtain ⟨n, at_i⟩ := value i inside
    obtain ⟨n', at_j⟩ := value j inside'
    obtain ⟨hdl, held, -⟩ := Option.bind_eq_some_iff.mp first
    obtain ⟨hdl', held', -⟩ := Option.bind_eq_some_iff.mp second
    rw [nameAt i n ip hdl at_i held, Option.some.injEq] at first
    rw [nameAt j n' ip' hdl' at_j held', Option.some.injEq] at second
    obtain ⟨family, shows⟩ := (names ip ip' n n').mp (first.trans second.symm)
    refine ⟨?_, family⟩
    have same : (joined.map shown)[i]? = (joined.map shown)[j]? := by
      rw [List.getElem?_map, List.getElem?_map, at_i, at_j, Option.map_some, Option.map_some, shows]
    exact (List.getElem?_inj (by rwa [List.length_map, here.length]) nodup).mp same

/-! ### One event -/

omit [DecidableEq Φ] [DecidableEq H] in
theorem Named.grown (here : Named name last v joined) (num : v'.num = v.num)
    (handles : ∀ i < v.num, v'.handle i = v.handle i) (grows : Grows v.table v'.table) :
    Named name last v' joined where
  length := here.length.trans num.symm
  named i n at_i ip hdl held := by
    have inside : i < v.num := here.length ▸ (List.getElem?_eq_some_iff.mp at_i).1
    rw [handles i inside] at held
    exact grows.kept _ (here.named i n at_i ip hdl held)
  keys := grows.keys
  apart i inside j inside' ip ip' hdl held held' := by
    rw [num] at inside inside'
    rw [handles i inside] at held
    rw [handles j inside'] at held'
    exact here.apart i inside j inside' ip ip' hdl held held'
  complete i inside := by
    rw [num] at inside
    rw [handles i inside]
    exact here.complete i inside

omit [DecidableEq Φ] [DecidableEq H] in
/-- The table has the handles of the members. -/
theorem Named.listed (here : Named name last v joined) {i : Nat} (inside : i < v.num) {ip : Φ}
    {hdl : H} (held : v.handle i ip = some hdl) : hdl ∈ v.table.map Prod.fst :=
  List.mem_map.mpr ⟨_, here.named i _ (List.getElem?_eq_getElem (here.length ▸ inside)) ip hdl held, rfl⟩

/-- What an event does to the members keeps the names, with the values that `track` keeps. -/
theorem Named.step (here : Named name last (R.view s) joined)
    (families : ∀ ip ip' n, name ip n = name ip' n → ip = ip')
    (effect : Effect name last (R.leaver s e) (R.view s) (R.view (R.step s e))) :
    Named name last (R.view (R.step s e)) (R.track joined s e) := by
  cases effect with
  | idle num count handles grows =>
    rw [Registry.track, num, if_neg (Nat.lt_irrefl _), if_neg (Nat.lt_irrefl _)]
    exact here.grown num handles grows
  | join num count handles grows named complete =>
    rw [Registry.track, num, if_pos (Nat.lt_succ_self _)]
    have cases : ∀ i < (R.view (R.step s e)).num, i < (R.view s).num ∨ i = (R.view s).num := fun i inside => by omega
    refine ⟨by simp [here.length, num], ?_, grows.keys, ?_, ?_⟩
    · intro i n at_i ip hdl held
      rcases Nat.lt_or_ge i joined.length with old | new
      · rw [List.getElem?_append_left old] at at_i
        rw [handles i (here.length ▸ old)] at held
        exact grows.kept _ (here.named i n at_i ip hdl held)
      · rw [List.getElem?_append_right new] at at_i
        obtain ⟨only, value⟩ := List.getElem?_eq_some_iff.mp at_i
        have last_place : i = (R.view s).num := by
          simp only [List.length_singleton] at only
          have := here.length
          omega
        simp only [List.getElem_singleton] at value
        subst last_place value
        exact (named ip hdl held).1
    · intro i inside j inside' ip ip' hdl held held'
      rcases cases i inside with old | rfl <;> rcases cases j inside' with old' | rfl
      · rw [handles i old] at held
        rw [handles j old'] at held'
        exact here.apart i old j old' ip ip' hdl held held'
      · rw [handles i old] at held
        exact absurd (here.listed old held) (named ip' hdl held').2
      · rw [handles j old'] at held'
        exact absurd (here.listed old' held') (named ip hdl held).2
      · rfl
    · intro i inside
      rcases cases i inside with old | rfl
      · rw [handles i old]
        exact here.complete i old
      · exact complete
  | drop i ip hdl inside num count other held handles table =>
    rw [Registry.track, num, if_neg (Nat.lt_irrefl _), if_neg (Nat.lt_irrefl _)]
    -- a member keeps a part of the handles it had
    have fewer : ∀ j < (R.view s).num, ∀ ip' hdl', (R.view (R.step s e)).handle j ip' = some hdl' →
        (R.view s).handle j ip' = some hdl' ∧ (j = i → ip' ≠ ip) := by
      intro j below ip' hdl' held'
      rw [handles j below] at held'
      split at held'
      next here_i =>
        subst here_i
        by_cases this : ip' = ip
        · simp [this] at held'
        · exact ⟨by simpa [this] using held', fun _ => this⟩
      next elsewhere => exact ⟨held', fun this => absurd this elsewhere⟩
    refine ⟨here.length.trans num.symm, ?_, ?_, ?_, ?_⟩
    · intro j n at_j ip' hdl' held'
      have below : j < (R.view s).num := here.length ▸ (List.getElem?_eq_some_iff.mp at_j).1
      obtain ⟨old, family⟩ := fewer j below ip' hdl' held'
      have entry := here.named j n at_j ip' hdl' old
      rw [table, List.mem_filter]
      refine ⟨entry, ?_⟩
      rw [decide_eq_true_eq]
      rintro rfl
      -- the handle that goes is nobody else's
      obtain rfl : j = i := here.apart j below i inside ip' ip hdl' old held
      have mine := here.named j n at_j ip hdl' held
      have one := List.inj_on_of_nodup_map here.keys entry mine rfl
      exact family rfl (families ip' ip n (congrArg Prod.snd one))
    · rw [table]
      exact here.keys.sublist (List.filter_sublist.map _)
    · intro j below k below' ip' ip'' hdl' held' held''
      rw [num] at below below'
      exact here.apart j below k below' ip' ip'' hdl' (fewer j below ip' hdl' held').1
        (fewer k below' ip'' hdl' held'').1
    · intro j below
      rw [num] at below
      rw [handles j below]
      split
      next here_i =>
        subst here_i
        rw [Function.update_of_ne other.symm]
        exact here.complete j below
      next => exact here.complete j below
  | leave i found inside num count handles table kept =>
    rw [Registry.track, if_neg (by omega), if_pos (by omega), found]
    have place : ∀ j < (R.view (R.step s e)).num, (if j < i then j else j + 1) < (R.view s).num ∧
        (if j < i then j else j + 1) ≠ i := by
      intro j below
      split <;> omega
    refine ⟨?_, ?_, ?_, ?_, ?_⟩
    · rw [List.length_eraseIdx_of_lt (here.length ▸ inside), here.length, num]
      rfl
    · intro j n at_j ip hdl held
      have below : j < (R.view (R.step s e)).num := by
        have := (List.getElem?_eq_some_iff.mp at_j).1
        rw [List.length_eraseIdx_of_lt (here.length ▸ inside), here.length] at this
        omega
      rw [handles j below] at held
      have old : joined[if j < i then j else j + 1]? = some n := by
        rw [List.getElem?_eraseIdx] at at_j
        split at at_j
        next before => rwa [if_pos before]
        next behind => rwa [if_neg behind]
      refine kept _ (here.named _ n old ip hdl held) fun ip' mine => ?_
      exact (place j below).2 (here.apart _ (place j below).1 i inside ip ip' hdl held mine)
    · exact here.keys.sublist (table.map _)
    · intro j below k below' ip ip' hdl held held'
      rw [handles j below] at held
      rw [handles k below'] at held'
      have same := here.apart _ (place j below).1 _ (place k below').1 ip ip' hdl held held'
      split at same <;> split at same <;> omega
    · intro j below
      rw [handles j below]
      exact here.complete _ (place j below).1

/-! ### Runs -/

/-- The values of the members stay apart in what they show exactly when a member that joins differs
from those that are there. -/
theorem Effect.track_nodup_iff (effect : Effect name last (R.leaver s e) (R.view s) (R.view (R.step s e)))
    (nodup : (joined.map shown).Nodup) :
    ((R.track joined s e).map shown).Nodup ↔ R.JoinsApart shown (s, joined) e := by
  have stays : (R.view (R.step s e)).num ≤ (R.view s).num → R.JoinsApart shown (s, joined) e := fun fewer joins =>
    absurd joins (Nat.not_lt.mpr fewer)
  cases effect with
  | idle num count handles grows =>
    rw [Registry.track, num, if_neg (Nat.lt_irrefl _), if_neg (Nat.lt_irrefl _)]
    exact iff_of_true nodup (stays (Nat.le_of_eq num))
  | join num count handles grows named complete =>
    rw [Registry.track, num, if_pos (Nat.lt_succ_self _), List.map_append, List.nodup_append]
    have joins : (R.view s).num < (R.view (R.step s e)).num := by omega
    constructor
    · intro apart _ n member
      exact apart.2.2 _ (List.mem_map_of_mem member) _ (by simp)
    · intro apart
      refine ⟨nodup, List.nodup_singleton _, fun m old m' new => ?_⟩
      obtain ⟨n, member, rfl⟩ := List.mem_map.mp old
      obtain rfl : m' = shown ((R.view s).count) := by simpa using new
      exact apart joins n member
  | drop i ip hdl inside num count other held handles table =>
    rw [Registry.track, num, if_neg (Nat.lt_irrefl _), if_neg (Nat.lt_irrefl _)]
    exact iff_of_true nodup (stays (Nat.le_of_eq num))
  | leave i found inside num count handles table kept =>
    rw [Registry.track, if_neg (by omega), if_pos (by omega), found]
    exact iff_of_true (nodup.sublist ((List.eraseIdx_sublist joined i).map shown)) (stays (by omega))

variable (R)

/-- In the states of a run the names of the members differ, exactly when each member that joins
differs in what the names show from those that are there. -/
theorem names_distinct_iff (names : ∀ ip ip' n n', name ip n = name ip' n' ↔ ip = ip' ∧ shown n = shown n')
    {start : σ} (initial : Named name last (R.view start) []) {es : List ε}
    (effects : ∀ pre e, pre ++ [e] <+: es → Effect name last (R.leaver (R.after start pre).1 e)
      (R.view (R.after start pre).1) (R.view (R.step (R.after start pre).1 e))) :
    (∀ pre, pre <+: es → (R.view (R.after start pre).1).NamesDistinct) ↔
      ∀ pre e, pre ++ [e] <+: es → R.JoinsApart shown (R.after start pre) e := by
  have families : ∀ ip ip' n, name ip n = name ip' n → ip = ip' := fun ip ip' n same =>
    ((names ip ip' n n).mp same).1
  have stepped : ∀ p : σ × List Nat, ∀ e, Named name last (R.view p.1) p.2 ∧ (p.2.map shown).Nodup →
      Effect name last (R.leaver p.1 e) (R.view p.1) (R.view (R.step p.1 e)) →
      Named name last (R.view (R.step p.1 e)) (R.track p.2 p.1 e) ∧
        ((R.view (R.step p.1 e)).NamesDistinct ↔ R.JoinsApart shown p e) := by
    rintro ⟨s, joined⟩ e ⟨named, nodup⟩ effect
    have next := named.step families effect
    refine ⟨next, ?_⟩
    rw [next.distinct_iff names]
    exact effect.track_nodup_iff nodup
  refine holds_iff_steps (P := fun p => (R.view p.1).NamesDistinct)
    (fun p => Named name last (R.view p.1) p.2 ∧ (p.2.map shown).Nodup)
    (fun p e => Effect name last (R.leaver p.1 e) (R.view p.1) (R.view (R.step p.1 e)))
    (R.JoinsApart shown) ⟨initial, by simp⟩ ?_ ?_ ?_ effects
  · rintro p ⟨named, nodup⟩
    exact (named.distinct_iff names).mpr nodup
  · intro p e before effect apart
    obtain ⟨named, distinct⟩ := stepped p e before effect
    exact ⟨named, (named.distinct_iff names).mp (distinct.mpr apart)⟩
  · intro p e before effect again distinct
    exact again ((stepped p e before effect).2.mp distinct)

/-- The same, where the events have these effects on states with an invariant. -/
theorem names_distinct_iff_of_invariant
    (names : ∀ ip ip' n n', name ip n = name ip' n' ↔ ip = ip' ∧ shown n = shown n')
    {start : σ} (initial : Named name last (R.view start) []) {es : List ε} (Inv ok : σ → Prop)
    (first : Inv start) (steps : ∀ s e, Inv s → ok (R.step s e) →
      Effect name last (R.leaver s e) (R.view s) (R.view (R.step s e)) ∧ Inv (R.step s e))
    (allowed : ∀ pre, pre <+: es → ok (R.after start pre).1) :
    (∀ pre, pre <+: es → (R.view (R.after start pre).1).NamesDistinct) ↔
      ∀ pre e, pre ++ [e] <+: es → R.JoinsApart shown (R.after start pre) e := by
  refine names_distinct_iff R names initial fun pre e before => ?_
  have kept := after_invariant R Inv ok first (fun s e here next => (steps s e here next).2) allowed
  have next := allowed _ before
  rw [after_snoc] at next
  exact (steps _ e (kept pre ((List.prefix_append _ _).trans before)) next).1

end Hima.Members
