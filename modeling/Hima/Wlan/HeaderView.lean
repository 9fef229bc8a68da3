import Hima.Lib.Registry
import Hima.Lib.Handles
import Hima.Wlan.Handlers

/-!
# Clients and the names of their headers

`IPACM_Wlan` and `IPACM_Lan` give a new client a header for each family that the interface has, and
take the headers back when the client leaves. The names are made of the interface, the family and a
counter. Here are both handlers as far as the headers go, on what a registry shows of them: a client
that joins gets one header after the other, and one that leaves loses them in the same order.
-/
namespace Hima.Wlan

open Function
open Wan (IpaIpType)
open Members Handles

/-! ### Names -/

/-- The name of a header: both numbers are cut to one digit. -/
def hdrName (ipaIfNum : Nat) (fixed : IpaIpType → String) (ip : IpaIpType) (count : Nat) : String :=
  digit ipaIfNum ++ fixed ip ++ digit count

/-- Two names of an interface agree when the family and the first digit of the counter do. -/
theorem hdrName_eq_iff {fixed : IpaIpType → String} (apart : fixed .v4 ≠ fixed .v6)
    (long : (fixed .v4).toList.length = (fixed .v6).toList.length) (ipaIfNum : Nat)
    (ip ip' : IpaIpType) (n n' : Nat) :
    hdrName ipaIfNum fixed ip n = hdrName ipaIfNum fixed ip' n' ↔ ip = ip' ∧ digit n = digit n' := by
  have lengths : ∀ ip ip', (fixed ip).toList.length = (fixed ip').toList.length := by
    intro ip ip'
    cases ip <;> cases ip' <;> first | rfl | exact long | exact long.symm
  have families : ∀ ip ip', fixed ip = fixed ip' → ip = ip' := by
    intro ip ip' same
    cases ip <;> cases ip' <;> first | rfl | exact absurd same apart | exact absurd same.symm apart
  constructor
  · intro same
    have chars := congrArg String.toList same
    simp only [hdrName, String.toList_append, List.append_assoc] at chars
    have rest := List.append_cancel_left chars
    obtain ⟨front, back⟩ := List.append_inj rest (lengths ip ip')
    exact ⟨families ip ip' (String.toList_inj.mp front), String.toList_inj.mp back⟩
  · rintro ⟨rfl, same⟩
    rw [hdrName, hdrName, same]

/-! ### The driver's headers -/

/-- The headers that are live, with their names. -/
def headersOf : List (Entry (UInt32 × String) UInt32) → List (UInt32 × String)
  | [] => []
  | .gain hdr :: l => hdr :: headersOf l
  | .release hdl :: l => (headersOf l).filter (·.1 ≠ hdl)
  | .use _ :: l => headersOf l

theorem headersOf_eq_live (l : List (Entry (UInt32 × String) UInt32)) : ↑(headersOf l) = live Prod.fst l := by
  induction l with
  | nil => rfl
  | cons e l ih =>
    cases e with
    | gain hdr => rw [headersOf, live_gain, ← ih, Multiset.cons_coe]
    | release hdl => rw [headersOf, live, ← ih, Multiset.filter_coe]
    | use hdl => exact ih

theorem nodup_headersOf {l : List (Entry (UInt32 × String) UInt32)} (fresh : Fresh Prod.fst l) :
    ((headersOf l).map Prod.fst).Nodup := by
  rw [← Multiset.coe_nodup, ← Multiset.map_coe, headersOf_eq_live]
  exact fresh.nodup

/-! ### One header -/

abbrev HdrView := View IpaIpType UInt32 String

/-- The family whose header a client loses last. -/
def lastFamily (props : List TxProp) : IpaIpType :=
  if ∃ tx ∈ props, tx.ip = .v6 then .v6 else .v4

theorem lastFamily_present {props : List TxProp} (some_prop : props ≠ []) :
    ∃ tx ∈ props, tx.ip = lastFamily props := by
  unfold lastFamily
  split
  next present => exact present
  next absent =>
    obtain ⟨tx, rest, rfl⟩ := List.exists_cons_of_ne_nil some_prop
    refine ⟨tx, by simp, ?_⟩
    cases family : tx.ip with
    | v4 => rfl
    | v6 => exact absurd ⟨tx, by simp, family⟩ absent

/-- Handles stand only in places of families that the interface has. -/
def Unset (props : List TxProp) (v : HdrView) : Prop :=
  ∀ i ip, (v.handle i ip).isSome → ∃ tx ∈ props, tx.ip = ip

/-- The handle of one family in one place is another one, or gone. -/
def setHandle (handle : Nat → IpaIpType → Option UInt32) (i : Nat) (ip : IpaIpType)
    (hdl : Option UInt32) : Nat → IpaIpType → Option UInt32 :=
  update handle i (update (handle i) ip hdl)

theorem setHandle_other {handle : Nat → IpaIpType → Option UInt32} {i j : Nat} {ip : IpaIpType}
    {hdl : Option UInt32} (other : j ≠ i) : setHandle handle i ip hdl j = handle j :=
  update_of_ne other _ _

theorem setHandle_self (handle : Nat → IpaIpType → Option UInt32) (i : Nat) (ip : IpaIpType)
    (hdl : Option UInt32) : setHandle handle i ip hdl i = update (handle i) ip hdl :=
  update_self ..

variable (props : List TxProp) (name : IpaIpType → Nat → String) (i : Nat) (ip : IpaIpType)

/-- Adding the header of a family for the place `i`: the interface may not have the family, and the
driver may refuse. -/
inductive HeaderGiven (v : HdrView) : Bool → HdrView → Prop
  | absent (none : ∀ tx ∈ props, tx.ip ≠ ip) : HeaderGiven v true v
  | fails : HeaderGiven v false v
  | added (hdl : UInt32) (present : ∃ tx ∈ props, tx.ip = ip)
      (fresh : hdl ∉ v.table.map Prod.fst) : HeaderGiven v true { v with
        handle := setHandle v.handle i ip (some hdl)
        table := (hdl, name ip v.count) :: v.table }

/-- Deleting it. -/
inductive HeaderTaken (v : HdrView) : Bool → HdrView → Prop
  | unset (none : v.handle i ip = none) : HeaderTaken v true v
  | fails (set : (v.handle i ip).isSome) : HeaderTaken v false v
  | deleted (hdl : UInt32) (held : v.handle i ip = some hdl) : HeaderTaken v true { v with
      handle := setHandle v.handle i ip none
      table := v.table.filter (·.1 ≠ hdl) }

/-- A client that joins, as far as the driver lets it. -/
inductive ClientJoins (v : HdrView) : HdrView → Prop
  | refused₁ {v₁ : HdrView} (v4 : HeaderGiven props name v.num .v4 v false v₁) : ClientJoins v v₁
  | refused₂ {v₁ v₂ : HdrView} (v4 : HeaderGiven props name v.num .v4 v true v₁)
      (v6 : HeaderGiven props name v.num .v6 v₁ false v₂) : ClientJoins v v₂
  | joined {v₁ v₂ : HdrView} (v4 : HeaderGiven props name v.num .v4 v true v₁)
      (v6 : HeaderGiven props name v.num .v6 v₁ true v₂) :
      ClientJoins v { v₂ with num := v₂.num + 1, count := v₂.count + 1 }

/-- The client in place `i` leaves, as far as the driver lets it. -/
inductive ClientLeaves (v : HdrView) : HdrView → Prop
  | refused₁ {v₁ : HdrView} (v4 : HeaderTaken i .v4 v false v₁) : ClientLeaves v v₁
  | refused₂ {v₁ v₂ : HdrView} (v4 : HeaderTaken i .v4 v true v₁)
      (v6 : HeaderTaken i .v6 v₁ false v₂) : ClientLeaves v v₂
  | left {v₁ v₂ : HdrView} (v4 : HeaderTaken i .v4 v true v₁) (v6 : HeaderTaken i .v6 v₁ true v₂)
      (handle : Nat → IpaIpType → Option UInt32)
      (moved : ∀ j < v.num - 1, handle j = v₂.handle (if j < i then j else j + 1))
      (unset : Unset props { v₂ with handle := handle }) :
      ClientLeaves v { v₂ with num := v₂.num - 1, handle := handle }

/-! ### What they do to the members -/

variable {props name i ip} {v v' : HdrView} {done : Bool} {leaver : Option Nat}

namespace HeaderGiven

theorem num (added : HeaderGiven props name i ip v done v') : v'.num = v.num := by
  cases added <;> rfl

theorem count (added : HeaderGiven props name i ip v done v') : v'.count = v.count := by
  cases added <;> rfl

theorem others (added : HeaderGiven props name i ip v done v') {j : Nat} (other : j ≠ i) :
    v'.handle j = v.handle j := by
  cases added with
  | absent none => rfl
  | fails => rfl
  | added hdl present fresh => exact setHandle_other other

theorem unset (added : HeaderGiven props name i ip v done v') (unset : Unset props v) :
    Unset props v' := by
  cases added with
  | absent none => exact unset
  | fails => exact unset
  | added hdl present fresh =>
    intro j ip' set
    dsimp only at set
    by_cases here : j = i
    · subst here
      rw [setHandle_self] at set
      by_cases family : ip' = ip
      · exact family ▸ present
      · rw [update_of_ne family] at set
        exact unset j ip' set
    · rw [setHandle_other here] at set
      exact unset j ip' set

theorem grows (added : HeaderGiven props name i ip v done v') (keys : (v.table.map Prod.fst).Nodup) :
    Grows v.table v'.table := by
  cases added with
  | absent none => exact ⟨fun _ => id, keys⟩
  | fails => exact ⟨fun _ => id, keys⟩
  | added hdl present fresh =>
    exact ⟨fun _ => List.mem_cons_of_mem _, List.nodup_cons.mpr ⟨fresh, keys⟩⟩

/-- What the place holds afterwards: a new handle under its name, if the interface has the family. -/
theorem held (added : HeaderGiven props name i ip v true v') (unset : Unset props v) :
    ((∃ tx ∈ props, tx.ip = ip) → (v'.handle i ip).isSome) ∧
    (∀ hdl, v'.handle i ip = some hdl → (hdl, name ip v.count) ∈ v'.table ∧ hdl ∉ v.table.map Prod.fst) ∧
    ∀ ip' ≠ ip, v'.handle i ip' = v.handle i ip' := by
  cases added with
  | absent none =>
    refine ⟨fun ⟨tx, member, family⟩ => absurd family (none tx member), fun hdl held => ?_, fun _ _ => rfl⟩
    obtain ⟨tx, member, family⟩ := unset i ip (by rw [held]; rfl)
    exact absurd family (none tx member)
  | added hdl present fresh =>
    dsimp only
    rw [setHandle_self, update_self]
    refine ⟨fun _ => rfl, fun hdl' held => ?_, fun ip' other => update_of_ne other _ _⟩
    obtain rfl := Option.some.inj held
    exact ⟨by simp, fresh⟩

end HeaderGiven

theorem idle_effect (same : v' = v) (keys : (v.table.map Prod.fst).Nodup) (unset : Unset props v) :
    Effect name (lastFamily props) leaver v v' ∧ Unset props v' := by
  rw [same]
  exact ⟨.idle rfl rfl (fun _ _ => rfl) ⟨fun _ => id, keys⟩, unset⟩

theorem Grows.trans {t t' t'' : List (UInt32 × String)} (first : Grows t t') (second : Grows t' t'') :
    Grows t t'' := ⟨fun entry old => second.kept entry (first.kept entry old), second.keys⟩

/-- A client that joins has a new header of each family; one that does not may leave a header
behind, but no client knows of it. -/
theorem ClientJoins.effect (joins : ClientJoins props name v v') (some_prop : props ≠ []) (unset : Unset props v)
    (keys : (v.table.map Prod.fst).Nodup) :
    Effect name (lastFamily props) leaver v v' ∧ Unset props v' := by
  -- a refused header leaves what was made before it
  cases joins with
  | refused₁ v4 =>
    exact ⟨.idle v4.num v4.count (fun j below => v4.others (Nat.ne_of_lt below)) (v4.grows keys),
      v4.unset unset⟩
  | refused₂ v4 v6 =>
    have grows := v4.grows keys
    refine ⟨.idle (v6.num.trans v4.num) (v6.count.trans v4.count) (fun j below => ?_)
      (Grows.trans grows (v6.grows grows.keys)), v6.unset (v4.unset unset)⟩
    exact (v6.others (Nat.ne_of_lt below)).trans (v4.others (Nat.ne_of_lt below))
  | @joined v₁ v₂ v4 v6 =>
    have grows := v4.grows keys
    have grows' := v6.grows grows.keys
    obtain ⟨set₄, named₄, -⟩ := v4.held unset
    obtain ⟨set₆, named₆, kept₆⟩ := v6.held (v4.unset unset)
    refine ⟨.join (congrArg (· + 1) (v6.num.trans v4.num)) (congrArg (· + 1) (v6.count.trans v4.count))
      (fun j below => ?_) (Grows.trans grows grows') (fun ip hdl held => ?_) ?_, v6.unset (v4.unset unset)⟩
    · exact (v6.others (Nat.ne_of_lt below)).trans (v4.others (Nat.ne_of_lt below))
    · cases ip with
      | v4 =>
        rw [show v₂.handle v.num .v4 = v₁.handle v.num .v4 from kept₆ .v4 (by simp)] at held
        exact ⟨grows'.kept _ (named₄ hdl held).1, (named₄ hdl held).2⟩
      | v6 =>
        obtain ⟨entry, fresh⟩ := named₆ hdl held
        rw [v4.count] at entry
        refine ⟨entry, fun old => fresh ?_⟩
        obtain ⟨x, member, same⟩ := List.mem_map.mp old
        exact List.mem_map.mpr ⟨x, grows.kept x member, same⟩
    · have present := lastFamily_present some_prop
      cases family : lastFamily props with
      | v4 =>
        rw [family] at present
        exact (congrArg Option.isSome (kept₆ .v4 (by simp))).trans (set₄ present)
      | v6 =>
        rw [family] at present
        exact set₆ present

/-- The records behind one that was reset move up with their headers. -/
theorem header_moved {C : Type} {header : C → IpaIpType → Option UInt32} {clients moved : Nat → C}
    {reset : C → C} {copy : C → C → C} {num : Nat} (moves : ∀ k, moved k = if i ≤ k ∧ k < num - 1 then
      copy (update clients i (reset (clients i)) k) (update clients i (reset (clients i)) (k + 1))
      else update clients i (reset (clients i)) k)
    (cleared : ∀ c ip, header (reset c) ip = none) (copied : ∀ dst src, header (copy dst src) = header src) :
    (∀ j < num - 1, header (moved j) = header (clients (if j < i then j else j + 1))) ∧
      ∀ j ip, (header (moved j) ip).isSome → ∃ k, (header (clients k) ip).isSome := by
  have back : ∀ k ip, (header (update clients i (reset (clients i)) k) ip).isSome →
      (header (clients k) ip).isSome := by
    intro k ip set
    by_cases here : k = i
    · rw [here, update_self, cleared] at set
      cases set
    · rwa [update_of_ne here] at set
  refine ⟨fun j below => ?_, fun j ip set => ?_⟩
  · rw [moves]
    by_cases front : j < i
    · rw [if_neg (by omega), if_pos front, update_of_ne (by omega)]
    · rw [if_pos (by omega), if_neg front, copied, update_of_ne (by omega)]
  · rw [moves] at set
    split at set
    · rw [copied] at set
      exact ⟨j + 1, back _ ip set⟩
    · exact ⟨j, back _ ip set⟩

namespace HeaderTaken

section

variable (deleted : HeaderTaken i ip v done v')
include deleted

theorem num : v'.num = v.num := by
  cases deleted <;> rfl

theorem count : v'.count = v.count := by
  cases deleted <;> rfl

theorem others {j : Nat} (other : j ≠ i) :
    v'.handle j = v.handle j := by
  cases deleted with
  | unset none => rfl
  | fails set => rfl
  | deleted hdl held => exact setHandle_other other

theorem family {ip' : IpaIpType} (other : ip' ≠ ip) :
    v'.handle i ip' = v.handle i ip' := by
  cases deleted with
  | unset none => rfl
  | fails set => rfl
  | deleted hdl held =>
    dsimp only
    rw [setHandle_self, update_of_ne other]

theorem unset_kept (unset : Unset props v) : Unset props v' := by
  cases deleted with
  | unset none => exact unset
  | fails set => exact unset
  | deleted hdl held =>
    intro j ip' set
    dsimp only at set
    by_cases here : j = i
    · subst here
      rw [setHandle_self] at set
      by_cases family : ip' = ip
      · simp [family] at set
      · rw [update_of_ne family] at set
        exact unset j ip' set
    · rw [setHandle_other here] at set
      exact unset j ip' set

theorem sublist : v'.table.Sublist v.table := by
  cases deleted with
  | unset none => exact .refl _
  | fails set => exact .refl _
  | deleted hdl held => exact List.filter_sublist

/-- Only the place's own handle goes. -/
theorem kept {entry : UInt32 × String}
    (member : entry ∈ v.table) (other : v.handle i ip ≠ some entry.1) : entry ∈ v'.table := by
  cases deleted with
  | unset none => exact member
  | fails set => exact member
  | deleted hdl held =>
    refine List.mem_filter.mpr ⟨member, ?_⟩
    rw [decide_eq_true_eq]
    rintro rfl
    exact other held

end

end HeaderTaken

/-- A client that leaves takes its headers along; one that cannot keeps the header that it would
lose last. -/
theorem ClientLeaves.effect (leaves : ClientLeaves props i v v') (found : leaver = some i) (inside : i < v.num)
    (unset : Unset props v) (keys : (v.table.map Prod.fst).Nodup) :
    Effect name (lastFamily props) leaver v v' ∧ Unset props v' := by
  cases leaves with
  | refused₁ v4 =>
    cases v4 with
    | fails set => exact ⟨.idle rfl rfl (fun _ _ => rfl) ⟨fun _ => id, keys⟩, unset⟩
  | refused₂ v4 v6 =>
    have after := v6.unset_kept (v4.unset_kept unset)
    cases v6 with
    | fails set =>
      refine ⟨?_, after⟩
      -- the IPv6 header is still there, so that it is the last one
      have last : lastFamily props = .v6 := by
        rw [v4.family (by simp)] at set
        exact if_pos (unset i .v6 set)
      cases v4 with
      | unset none => exact .idle rfl rfl (fun _ _ => rfl) ⟨fun _ => id, keys⟩
      | deleted hdl held =>
        refine .drop i .v4 hdl inside rfl rfl (by rw [last]; simp) held (fun j below => ?_) rfl
        dsimp only
        split
        next here => rw [here, setHandle_self]
        next other => exact setHandle_other other
  | left v4 v6 handle moved after =>
    refine ⟨.leave i found inside ?_ (v6.count.trans v4.count) (fun j below => ?_)
      (v6.sublist.trans v4.sublist) (fun entry member none => ?_), after⟩
    · dsimp only
      rw [v6.num, v4.num]
      omega
    · dsimp only at below ⊢
      rw [v6.num, v4.num] at below
      have other : (if j < i then j else j + 1) ≠ i := by
        split <;> omega
      rw [moved j below, v6.others other, v4.others other]
    · refine v6.kept (v4.kept member (none .v4)) ?_
      rw [v4.family (by simp)]
      exact none .v6

end Hima.Wlan
