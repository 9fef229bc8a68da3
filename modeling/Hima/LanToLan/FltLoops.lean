import Hima.LanToLan.LinkLoops

/-!
# The loops over filtering rules

`remove_flt_rules` leaves every client as it is, `add_flt_rules` writes new handles into the links
of a client and into the links back to it.
-/
namespace Hima.LanToLan

open Slots FirstMatch

set_option linter.unusedSectionVars false

variable {K A I : Type} [DecidableEq K]

namespace Net

variable {n n' : Net K A I} {p q : Ptr K} {c cp cq : ClientInfo K A I}

/-- Links may be rewritten as long as every client keeps as many to every other. -/
theorem Paired.of_counts (h : n.Paired) (bare : n'.bare = n.bare)
    (counts : n'.linkCount = n.linkCount) : n'.Paired := by
  refine h.of_links (peers_of_bare bare) (fun a b => ?_) (fun a => ?_) ?_
  · rw [counts, h.linksMutual]
  · rw [counts, h.linksApart]
  · intro a c at_a inactive awake
    obtain ⟨link, at_a'⟩ := client_of_bare bare.symm at_a
    have no_links : link = [] := h.idle a _ at_a' inactive awake
    refine List.eq_nil_iff_forall_not_mem.mpr fun l member => ?_
    have linked : 0 < n'.linkCount a l.peerPointer := by
      rw [linkCount_eq at_a]
      exact countP_hasKey_pos.mpr ⟨l, member, rfl⟩
    rw [counts, linkCount_eq at_a', no_links] at linked
    simp at linked

theorem linkCount_rewrite (at_p : n.client p = some c) {link : List (OffloadLinkInfo K)}
    (counts : ∀ q, link.countP (linkTo q) = c.link.countP (linkTo q)) :
    (n.put p { c with link := link }).linkCount = n.linkCount := by
  funext a b
  rw [linkCount_put]
  split
  next same => rw [same, linkCount_eq at_p, counts]
  next => rfl

end Net

namespace Family

variable {f : Family K A I} {client : Ptr K} {c : ClientInfo K A I}

/-! ### `remove_flt_rules` -/

section

variable (answers : Answers) (J : List (OffloadLinkInfo K) → Net K A I → Prop)
  (step : ∀ i l rest n cp cq r, J (l :: rest) n → n.client client = some cp →
    n.client l.peerPointer = some cq → l.peerPointer ≠ client → cq.link.find? (linkTo client) = some r →
    J rest (n.call [.delLan2lanFltRule cp.pIface l.fltRuleHdl (answers.fltDel (2 * i)),
      .delLan2lanFltRule cq.pIface r.fltRuleHdl (answers.fltDel (2 * i + 1))]))
include step

theorem removeFltRulesFrom_rule {links : List (OffloadLinkInfo K)} :
    ∀ {f : Family K A I} {i : Nat}, f.deref client = some c → f.net.Paired →
      (∀ l ∈ links, l ∈ c.link) → J links f.net →
      ∃ f' calls, f.removeFltRulesFrom answers client i links = some (true, f') ∧
        J [] f'.net ∧ f'.net = f.net.call calls := by
  induction links with
  | nil => exact fun _ _ _ start => ⟨_, [], rfl, start, by simp⟩
  | cons l rest ih =>
    intro f i at_p paired members start
    obtain ⟨apart, cq, r, at_q, back⟩ := paired.back (client_net client ▸ at_p) (members l (by simp))
    rw [client_net] at at_q
    simp only [removeFltRulesFrom, at_p, at_q, deref_call, back, Option.bind_eq_bind, Option.bind_some]
    have called : ((f.call [.delLan2lanFltRule c.pIface l.fltRuleHdl (answers.fltDel (2 * i))]).call
        [.delLan2lanFltRule cq.pIface r.fltRuleHdl (answers.fltDel (2 * i + 1))]).net =
        f.net.call [.delLan2lanFltRule c.pIface l.fltRuleHdl (answers.fltDel (2 * i)),
          .delLan2lanFltRule cq.pIface r.fltRuleHdl (answers.fltDel (2 * i + 1))] := by
      simp
    generalize (f.call [.delLan2lanFltRule c.pIface l.fltRuleHdl (answers.fltDel (2 * i))]).call
        [.delLan2lanFltRule cq.pIface r.fltRuleHdl (answers.fltDel (2 * i + 1))] = f₁
      at called ⊢
    have same_deref : f₁.deref = f.deref := congrArg Net.client called
    obtain ⟨f', calls, run, done, net'⟩ := ih (i := i + 1) (by rw [same_deref]; exact at_p)
      (by rw [called]; exact paired.call _) (fun l' member => members l' (by simp [member]))
      (by rw [called]; exact step i l rest _ c cq r start at_p at_q apart back)
    exact ⟨f', _, run, done, by rw [net', called, Net.call_call]⟩

theorem removeFltRules_rule (paired : f.net.Paired) (at_p : f.deref client = some c) (start : J c.link f.net) :
    ∃ f' calls, f.removeFltRules answers client = some (true, f') ∧ J [] f'.net ∧
      f'.net = f.net.call calls := by
  simp only [removeFltRules, at_p, Option.bind_eq_bind, Option.bind_some]
  exact removeFltRulesFrom_rule answers J step at_p paired (fun _ member => member) start

end

/-! ### `add_flt_rules` -/

/-- A request, and other links for a client that has as many of them to each client as before. -/
theorem call_set_links (at_p : f.deref client = some c) (calls : List (LanCall A I))
    {link : List (OffloadLinkInfo K)} (counts : ∀ q, link.countP (linkTo q) = c.link.countP (linkTo q)) :
    let f' := (f.call calls).set client { c with link := link }
    f'.net = (f.net.call calls).put client { c with link := link } ∧
      (∀ a, f'.deref a = if a = client then some { c with link := link } else f.deref a) ∧
      f'.net.bare = f.net.bare ∧ f'.net.linkCount = f.net.linkCount := by
  have called : (f.call calls).deref client = some c := at_p
  have net : ((f.call calls).set client _).net = _ := net_set called (show { c with link := link }.node = _ from rfl)
  refine ⟨net, deref_set called (by rfl), ?_, ?_⟩
  · rw [net, Net.bare_put_link (by simpa using at_p), net_call, Net.bare_call]
  · rw [net, Net.linkCount_rewrite (by simpa using at_p) counts, net_call, Net.linkCount_call]

/-- What goes through the loop: both directions of the `i`-th link are written at `2 * i` and `2 * i + 1`. -/
structure FltSteps (answers : Answers) (client : Ptr K) (J : Nat → Net K A I → Prop) : Prop where
  own : ∀ i n cp cq l hdl, J (2 * i) n → n.client client = some cp → cp.link[i]? = some l →
    n.client l.peerPointer = some cq → l.peerPointer ≠ client → answers.fltAdd (2 * i) = some hdl →
    J (2 * i + 1) ((n.call [.addLan2lanFltRule cp.pIface cp.ip cq.ip (some hdl)]).put client
      { cp with link := cp.link.set i { l with fltRuleHdl := hdl } })
  other : ∀ i n cp cq l r hdl, J (2 * i + 1) n → n.client client = some cp →
    cp.link[i]? = some l → n.client l.peerPointer = some cq → l.peerPointer ≠ client →
    cq.link.find? (linkTo client) = some r → answers.fltAdd (2 * i + 1) = some hdl →
    J (2 * (i + 1)) ((n.call [.addLan2lanFltRule cq.pIface cq.ip cp.ip (some hdl)]).put
      l.peerPointer { cq with link := setFirst (linkTo client) { r with fltRuleHdl := hdl } cq.link })

/-- Whatever the hardware answers, the lists keep their shape. -/
theorem addFltRulesFrom_rule {answers : Answers} {J : Nat → Net K A I → Prop}
    (steps : FltSteps answers client J) (remaining : Nat) :
    ∀ {f : Family K A I} {i : Nat} {c : ClientInfo K A I}, f.deref client = some c →
      f.net.Paired → c.link.length = i + remaining → J (2 * i) f.net →
      ∃ res f', f.addFltRulesFrom answers client remaining i = some (res, f') ∧
        f'.net.bare = f.net.bare ∧ f'.net.linkCount = f.net.linkCount ∧
        f'.net.num = f.net.num ∧ (res = false → ∃ j, answers.fltAdd j = none) ∧
        (res = true → J (2 * (i + remaining)) f'.net) := by
  induction remaining with
  | zero => exact fun _ _ _ start => ⟨true, _, rfl, rfl, rfl, rfl, by simp, fun _ => start⟩
  | succ remaining ih =>
    intro f i c at_p paired length start
    have below : i < c.link.length := by omega
    obtain ⟨l, at_i⟩ : ∃ l, c.link[i]? = some l := ⟨c.link[i], List.getElem?_eq_getElem below⟩
    obtain ⟨apart, cq, r, at_q, back⟩ :=
      paired.back (client_net client ▸ at_p) (List.mem_of_getElem? at_i)
    rw [client_net] at at_q
    simp only [addFltRulesFrom, at_p, at_i, at_q, Option.bind_eq_bind, Option.bind_some]
    cases first : answers.fltAdd (2 * i) with
    | none => exact ⟨_, _, rfl, rfl, rfl, rfl, fun _ => ⟨_, first⟩, by simp⟩
    | some hdl =>
      dsimp only
      -- the handle of the link from the client
      have kept₁ := steps.own i f.net c cq l hdl start at_p at_i at_q apart first
      have same : ∀ q, (c.link.set i { l with fltRuleHdl := hdl }).countP (linkTo q) =
          c.link.countP (linkTo q) := countP_set _ i fun e at_i' => by
        rw [Option.some.inj (at_i.symm.trans at_i')]
      have wrote := call_set_links at_p [.addLan2lanFltRule c.pIface c.ip cq.ip (some hdl)] same
      generalize (f.call [.addLan2lanFltRule c.pIface c.ip cq.ip (some hdl)]).set client _ = f₁ at wrote ⊢
      obtain ⟨net₁, deref₁, bare₁, counts₁⟩ := wrote
      rw [← net₁] at kept₁
      have at_p₁ := (deref₁ client).trans (if_pos rfl)
      have at_q₁ : f₁.deref l.peerPointer = some cq := by
        rw [deref₁, if_neg apart]
        exact at_q
      have num₁ : f₁.net.num = f.net.num := by rw [net₁]; rfl
      simp only [at_q₁, back, Option.bind_some]
      cases second : answers.fltAdd (2 * i + 1) with
      | none => exact ⟨_, _, rfl, bare₁, counts₁, num₁, fun _ => ⟨_, second⟩, by simp⟩
      | some hdl' =>
        dsimp only
        -- the handle of the link back
        have at_i₁ : (c.link.set i { l with fltRuleHdl := hdl })[i]? =
            some { l with fltRuleHdl := hdl } := by simp [below]
        have kept₂ := steps.other i f₁.net _ cq { l with fltRuleHdl := hdl } r hdl' kept₁ at_p₁ at_i₁
          at_q₁ apart back second
        have r_is : r.peerPointer = client := key_of_find? back
        have r_to : ({ r with fltRuleHdl := hdl' } : OffloadLinkInfo K).peerPointer = client := r_is
        have wrote := call_set_links at_q₁ [.addLan2lanFltRule cq.pIface cq.ip c.ip (some hdl')]
          (countP_setFirst r_to cq.link)
        generalize (f₁.call [.addLan2lanFltRule cq.pIface cq.ip c.ip (some hdl')]).set l.peerPointer _ = f₂
          at wrote ⊢
        obtain ⟨net₂, deref₂, bare₂, counts₂⟩ := wrote
        rw [← net₂] at kept₂
        have at_p₂ := (deref₂ client).trans ((if_neg (Ne.symm apart)).trans at_p₁)
        have num₂ : f₂.net.num = f.net.num := by rw [net₂]; exact num₁
        obtain ⟨res, f', run, bare', counts', num', refused, done⟩ :=
          ih (i := i + 1) at_p₂ (paired.of_counts (bare₂.trans bare₁) (counts₂.trans counts₁))
            (by simp only [List.length_set]; omega) kept₂
        refine ⟨res, f', run, bare'.trans (bare₂.trans bare₁), counts'.trans (counts₂.trans counts₁),
          num'.trans num₂, refused, fun yes => ?_⟩
        have all := done yes
        rwa [show i + 1 + remaining = i + (remaining + 1) by omega] at all

theorem addFltRules_rule {answers : Answers} {J : Nat → Net K A I → Prop}
    (steps : FltSteps answers client J) (paired : f.net.Paired) (at_p : f.deref client = some c)
    (start : J 0 f.net) :
    ∃ res f', f.addFltRules answers client = some (res, f') ∧ f'.net.bare = f.net.bare ∧
      f'.net.linkCount = f.net.linkCount ∧ f'.net.num = f.net.num ∧
      (res = false → ∃ j, answers.fltAdd j = none) ∧ (res = true → J (2 * c.link.length) f'.net) := by
  simp only [addFltRules, at_p, Option.bind_eq_bind, Option.bind_some]
  obtain ⟨res, f', run, bare, counts, num, refused, done⟩ :=
    addFltRulesFrom_rule steps c.link.length (i := 0) at_p paired (by omega) start
  exact ⟨res, f', run, bare, counts, num, refused, by simpa using done⟩

/-- What `add_flt_rules` does to the shape of the net, whatever the hardware answers. -/
theorem addFltRules_shape (answers : Answers) (paired : f.net.Paired) (at_p : f.deref client = some c) :
    ∃ res f', f.addFltRules answers client = some (res, f') ∧ f'.net.bare = f.net.bare ∧
      f'.net.linkCount = f.net.linkCount ∧ f'.net.num = f.net.num ∧ f'.net.Paired ∧
      (res = true → ∀ j < 2 * c.link.length, (answers.fltAdd j).isSome) := by
  have steps : FltSteps (A := A) (I := I) answers client fun k _ => ∀ j < k, (answers.fltAdd j).isSome := by
    constructor
    · intro i _ _ _ _ _ before _ _ _ _ here j below
      rcases Nat.lt_succ_iff_lt_or_eq.mp below with earlier | rfl
      · exact before j earlier
      · simp [here]
    · intro i _ _ _ _ _ _ before _ _ _ _ _ here j below
      rcases Nat.lt_succ_iff_lt_or_eq.mp below with earlier | rfl
      · exact before j earlier
      · simp [here]
  obtain ⟨res, f', run, bare, counts, num, -, done⟩ := addFltRules_rule steps paired at_p (by simp)
  exact ⟨res, f', run, bare, counts, num, paired.of_counts bare counts, done⟩

end Family

end Hima.LanToLan
