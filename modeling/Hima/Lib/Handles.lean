import Mathlib.Algebra.Order.BigOperators.Group.Multiset

/-!
# Handles given out and taken back

A ledger lists what was asked of an allocator, the latest first. A resource is known to it by a
key; `live` are the resources that were given out and not taken back. A holder accounts for the
ledger when the resources that it knows of are the live ones, each as often as it is live.
-/
namespace Hima.Handles

open Multiset

variable {ρ κ : Type} [DecidableEq κ] (key : ρ → κ)

inductive Entry (ρ κ : Type)
  | gain (r : ρ)
  | release (k : κ)
  | use (k : κ)

/-- The resources given out and not taken back. -/
def live : List (Entry ρ κ) → Multiset ρ
  | [] => 0
  | .gain r :: l => r ::ₘ live l
  | .release k :: l => (live l).filter (key · ≠ k)
  | .use _ :: l => live l

/-- No key is given out while it is live. -/
def Fresh : List (Entry ρ κ) → Prop
  | [] => True
  | .gain r :: l => key r ∉ (live key l).map key ∧ Fresh l
  | .release _ :: l => Fresh l
  | .use _ :: l => Fresh l

/-- Only live keys are taken back or used. -/
def Sound : List (Entry ρ κ) → Prop
  | [] => True
  | .gain _ :: l => Sound l
  | .release k :: l => k ∈ (live key l).map key ∧ Sound l
  | .use k :: l => k ∈ (live key l).map key ∧ Sound l

instance decidableFresh : (l : List (Entry ρ κ)) → Decidable (Fresh key l)
  | [] => isTrue trivial
  | .gain _ :: l => @instDecidableAnd _ _ _ (decidableFresh l)
  | .release _ :: l => decidableFresh l
  | .use _ :: l => decidableFresh l

variable {key} {l : List (Entry ρ κ)} {r : ρ} {k : κ} {m : Multiset ρ}

@[simp] theorem live_nil : live key ([] : List (Entry ρ κ)) = 0 := rfl
@[simp] theorem live_gain : live key (.gain r :: l) = r ::ₘ live key l := rfl
@[simp] theorem live_use : live key (.use k :: l) = live key l := rfl

/-- The keys of what is live differ. -/
theorem Fresh.nodup (fresh : Fresh key l) : ((live key l).map key).Nodup := by
  induction l with
  | nil => exact nodup_zero
  | cons e l ih =>
    cases e with
    | gain r =>
      rw [live_gain, map_cons]
      exact nodup_cons.mpr ⟨fresh.1, ih fresh.2⟩
    | release k => exact nodup_of_le (map_le_map (filter_le _ _)) (ih fresh)
    | use k => exact ih fresh

theorem gain_of_live (member : r ∈ live key l) : Entry.gain r ∈ l := by
  induction l with
  | nil => simp at member
  | cons e l ih =>
    cases e with
    | gain r' =>
      rcases mem_cons.mp member with rfl | older
      · exact List.mem_cons_self
      · exact List.mem_cons_of_mem _ (ih older)
    | release k => exact List.mem_cons_of_mem _ (ih (mem_filter.mp member).1)
    | use k => exact List.mem_cons_of_mem _ (ih member)

theorem live_release (fresh : Fresh key l) (held : live key l = r ::ₘ m) :
    live key (.release (key r) :: l) = m := by
  have nodup := fresh.nodup
  rw [held, map_cons, nodup_cons] at nodup
  rw [live, held, filter_cons_of_neg _ (by simp)]
  apply filter_eq_self.mpr
  intro r' member same
  exact nodup.1 (same ▸ mem_map_of_mem key member)

theorem sound_release (sound : Sound key l) (held : live key l = r ::ₘ m) :
    Sound key (.release (key r) :: l) := by
  refine ⟨?_, sound⟩
  rw [held]
  exact mem_map_of_mem key (mem_cons_self r m)

/-! ### Counting -/

/-- How often a key was given out. -/
def givenOut (key : ρ → κ) (k : κ) : List (Entry ρ κ) → Nat
  | [] => 0
  | .gain r :: l => givenOut key k l + if key r = k then 1 else 0
  | .release _ :: l => givenOut key k l
  | .use _ :: l => givenOut key k l

/-- How often a key was taken back. -/
def takenBack (k : κ) : List (Entry ρ κ) → Nat
  | [] => 0
  | .gain _ :: l => takenBack k l
  | .release k' :: l => takenBack k l + if k' = k then 1 else 0
  | .use _ :: l => takenBack k l

/-- A key that is not live was taken back as often as it was given out, a live one once less. -/
theorem givenOut_eq (fresh : Fresh key l) (sound : Sound key l) (k : κ) :
    givenOut key k l = takenBack k l + ((live key l).map key).count k := by
  induction l with
  | nil => rfl
  | cons e l ih =>
    cases e with
    | gain r =>
      rw [givenOut, takenBack, live_gain, map_cons, count_cons, ih fresh.2 sound]
      simp only [eq_comm (a := k), Nat.add_assoc]
    | release k' =>
      have held := ih fresh sound.2
      rw [givenOut, takenBack, live, held]
      by_cases this : k' = k
      · -- it was live exactly once
        subst this
        have gone : (map key ((live key l).filter (key · ≠ k'))).count k' = 0 := by
          rw [count_eq_zero, mem_map]
          rintro ⟨r, member, same⟩
          exact (mem_filter.mp member).2 same
        rw [gone, if_pos rfl, count_eq_one_of_mem (Fresh.nodup (l := l) fresh) sound.1]
      · have kept : (map key ((live key l).filter (key · ≠ k'))).count k = ((live key l).map key).count k := by
          rw [count_map, count_map, filter_filter]
          congr 1
          refine filter_congr fun r _ => ⟨And.left, fun same => ⟨same, ?_⟩⟩
          rw [← same]
          exact Ne.symm this
        rw [kept, if_neg this]
        rfl
    | use k' => exact ih fresh sound.2

/-! ### Several at a time -/

/-- What is given out together is live together. -/
theorem live_gains (rs : List ρ) : live key (rs.map .gain ++ l) = ↑rs + live key l := by
  induction rs with
  | nil => simp
  | cons r rs ih =>
    rw [List.map_cons, List.cons_append, live_gain, ih, ← cons_coe, cons_add]

theorem sound_gains (rs : List ρ) : Sound key (rs.map .gain ++ l) ↔ Sound key l := by
  induction rs with
  | nil => rfl
  | cons r rs ih => exact ih

theorem Fresh.of_append {later : List (Entry ρ κ)} (fresh : Fresh key (later ++ l)) : Fresh key l := by
  induction later with
  | nil => exact fresh
  | cons e later ih =>
    cases e with
    | gain r => exact ih fresh.2
    | release k => exact ih fresh
    | use k => exact ih fresh

theorem fresh_releases (rs : List ρ) (fresh : Fresh key l) :
    Fresh key (rs.map (.release ∘ key) ++ l) := by
  induction rs with
  | nil => exact fresh
  | cons r rs ih => exact ih

theorem live_releases (fresh : Fresh key l) (rs : List ρ) {m : Multiset ρ}
    (held : live key l = ↑rs + m) : live key (rs.map (.release ∘ key) ++ l) = m := by
  induction rs generalizing m with
  | nil => simpa using held
  | cons r rs ih =>
    have others : live key (rs.map (.release ∘ key) ++ l) = r ::ₘ m := by
      apply ih
      rw [held, ← cons_coe, cons_add, add_cons]
    exact live_release (fresh_releases rs fresh) others

theorem sound_releases (fresh : Fresh key l) (sound : Sound key l) (rs : List ρ) {m : Multiset ρ}
    (held : live key l = ↑rs + m) : Sound key (rs.map (.release ∘ key) ++ l) := by
  induction rs generalizing m with
  | nil => exact sound
  | cons r rs ih =>
    have moved : live key l = ↑rs + r ::ₘ m := by
      rw [held, ← cons_coe, cons_add, add_cons]
    exact sound_release (ih moved) (live_releases fresh rs moved)

/-- A key that is live twice would be one resource: what is held under two names is held under one. -/
theorem Fresh.unique (fresh : Fresh key l) {ι : Type} {places : Multiset ι} {what : ι → ρ}
    (held : live key l = places.map what) {i j : ι} (at_i : i ∈ places) (at_j : j ∈ places)
    (same : key (what i) = key (what j)) : i = j := by
  have nodup := fresh.nodup
  rw [held, map_map] at nodup
  exact inj_on_of_nodup_map nodup i at_i j at_j same

/-! ### One kind of resources

A second ledger of the same calls that knows of some of the keys only, by names of its own. -/

section Narrow

variable {ρ' κ' : Type} [DecidableEq κ'] (key) (key' : ρ' → κ') (embed : κ' → κ)

inductive Narrow : Option (Entry ρ κ) → Option (Entry ρ' κ') → Prop
  | none : Narrow none none
  | gain (r : ρ) (r' : ρ') (same : key r = embed (key' r')) : Narrow (some (.gain r)) (some (.gain r'))
  | release (k' : κ') : Narrow (some (.release (embed k'))) (some (.release k'))
  | otherGain (r : ρ) (other : ∀ k', embed k' ≠ key r) : Narrow (some (.gain r)) none
  | otherRelease (k : κ) (other : ∀ k', embed k' ≠ k) : Narrow (some (.release k)) none

variable {key key' embed} {γ : Type} {f : γ → Option (Entry ρ κ)} {g : γ → Option (Entry ρ' κ')}

omit [DecidableEq κ'] in
theorem mem_release (l : List (Entry ρ κ)) (k k₀ : κ) :
    k ∈ (live key (.release k₀ :: l)).map key ↔ k ∈ (live key l).map key ∧ k ≠ k₀ := by
  rw [live, mem_map, mem_map]
  constructor
  · rintro ⟨r, member, rfl⟩
    rw [mem_filter] at member
    exact ⟨⟨r, member.1, rfl⟩, member.2⟩
  · rintro ⟨⟨r, member, rfl⟩, other⟩
    exact ⟨r, mem_filter.mpr ⟨member, other⟩, rfl⟩

/-- What is live in it is live in the first one. -/
theorem mem_live_narrow (injective : Function.Injective embed)
    (narrow : ∀ c, Narrow key key' embed (f c) (g c)) (calls : List γ) (k' : κ') :
    k' ∈ (live key' (calls.filterMap g)).map key' ↔ embed k' ∈ (live key (calls.filterMap f)).map key := by
  induction calls with
  | nil => simp
  | cons c calls ih =>
    have shape := narrow c
    rw [List.filterMap_cons, List.filterMap_cons]
    cases here : f c <;> cases there : g c <;> rw [here, there] at shape <;> cases shape
    case none.none.none => exact ih
    case some.some.gain r r' same => simp [ih, same, injective.eq_iff]
    case some.some.release k₀ =>
      rw [mem_release, mem_release, ih, injective.ne_iff]
    case some.none.otherGain r other => simp [ih, other]
    case some.none.otherRelease k other =>
      rw [mem_release, ih, and_iff_left (other k')]

theorem Fresh.narrow (injective : Function.Injective embed)
    (narrow : ∀ c, Narrow key key' embed (f c) (g c)) {calls : List γ}
    (fresh : Fresh key (calls.filterMap f)) : Fresh key' (calls.filterMap g) := by
  induction calls with
  | nil => trivial
  | cons c calls ih =>
    have shape := narrow c
    rw [List.filterMap_cons] at fresh ⊢
    cases here : f c <;> cases there : g c <;> rw [here, there] at shape <;> rw [here] at fresh <;> cases shape
    case none.none.none => exact ih fresh
    case some.some.gain r r' same =>
      refine ⟨fun live => fresh.1 ?_, ih fresh.2⟩
      rw [same]
      exact (mem_live_narrow injective narrow calls _).mp live
    case some.some.release k₀ => exact ih fresh
    case some.none.otherGain r other => exact ih fresh.2
    case some.none.otherRelease k other => exact ih fresh

end Narrow

end Hima.Handles
