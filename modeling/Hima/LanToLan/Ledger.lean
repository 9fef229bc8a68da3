import Mathlib.Data.Multiset.Bind
import Hima.Lib.Handles
import Hima.LanToLan.FltLoops

/-!
# Handles of links

What the hardware has handed out and not taken back, and the links that hold it. A link keeps its
filtering handle in power save, where the rule is gone: which rules are installed is told apart from
the links, by the direction.
-/
namespace Hima.LanToLan

open Slots FirstMatch Handles Multiset

set_option linter.unusedSectionVars false

variable {K A I : Type} [DecidableEq K]

/-! ### The hardware's side -/

/-- Headers, routing rules and filtering rules are numbered apart. -/
inductive LanHandle
  | hdr (hdl : UInt32)
  | rt (hdl : UInt32)
  | flt (hdl : UInt32)
deriving DecidableEq, Repr

/-- What a call does to the handles; a deletion that fails uses its handle. -/
def LanCall.entries : LanCall A I → List (Entry LanHandle LanHandle)
  | .addLan2lanHdr _ _ _ hdl => (hdl.toList.map .hdr).map .gain
  | .addLan2lanRtRule _ _ _ hdrHdl hdl => ((hdl.getD []).map .rt).map .gain ++ [.use (.hdr hdrHdl)]
  | .addLan2lanFltRule _ _ _ hdl => (hdl.toList.map .flt).map .gain
  | .delLan2lanHdr _ hdl done => if done then [.release (.hdr hdl)] else [.use (.hdr hdl)]
  | .delLan2lanRtRule _ hdl done => hdl.map fun h => if done then .release (.rt h) else .use (.rt h)
  | .delLan2lanFltRule _ hdl done => if done then [.release (.flt hdl)] else [.use (.flt hdl)]

/-- The ledger of the calls made so far, the latest first. -/
def ledger (calls : List (LanCall A I)) : List (Entry LanHandle LanHandle) :=
  calls.reverse.flatMap LanCall.entries

@[simp] theorem ledger_append (calls calls' : List (LanCall A I)) :
    ledger (calls ++ calls') = ledger calls' ++ ledger calls := by
  simp [ledger]

/-! ### The link's side -/

/-- The handles of a link, with its filtering rule installed or not. -/
def OffloadLinkInfo.handles (l : OffloadLinkInfo K) (installed : Bool) : List LanHandle :=
  .hdr l.hdrHdl :: (l.rtRuleHdl.map .rt ++ if installed then [.flt l.fltRuleHdl] else [])

variable {c d cp cq : ClientInfo K A I} {l r : OffloadLinkInfo K} {old : List (Entry LanHandle LanHandle)}

theorem handles_true : (↑(l.handles true) : Multiset LanHandle) = .flt l.fltRuleHdl ::ₘ ↑(l.handles false) := by
  rw [cons_coe, coe_eq_coe]
  simp only [OffloadLinkInfo.handles, if_true, Bool.false_eq_true, if_false, List.append_nil]
  exact List.perm_append_singleton _ (LanHandle.hdr l.hdrHdl :: l.rtRuleHdl.map LanHandle.rt)

theorem ledger_addCalls : ledger (addCalls c d l) =
    [.flt l.fltRuleHdl].map .gain ++ ((l.rtRuleHdl.map .rt).map .gain ++
      (.use (.hdr l.hdrHdl) :: [.hdr l.hdrHdl].map .gain)) := by
  simp [ledger, addCalls, LanCall.entries]

theorem live_addCalls : live id (ledger (addCalls c d l) ++ old) = ↑(l.handles true) + live id old := by
  rw [ledger_addCalls, handles_true, List.append_assoc, live_gains, List.append_assoc, live_gains,
    List.cons_append, live_use, live_gains]
  simp only [OffloadLinkInfo.handles, Bool.false_eq_true, if_false, List.append_nil]
  simp only [← cons_coe, coe_nil, zero_add, cons_add, add_cons]
  exact cons_swap _ _ _

theorem sound_addCalls (sound : Sound id old) : Sound id (ledger (addCalls c d l) ++ old) := by
  rw [ledger_addCalls, List.append_assoc, sound_gains, List.append_assoc, sound_gains]
  exact ⟨by simp, sound⟩

theorem ledger_delCalls : ledger (delCalls c d l) = (l.handles true).map (.release ∘ id) := by
  simp [ledger, delCalls, LanCall.entries, OffloadLinkInfo.handles]

/-! ### Where the links are -/

namespace Net

variable {n n' : Net K A I} {p q : Ptr K} {all rest : Multiset (Ptr K × OffloadLinkInfo K)}

/-- `all` are the links of the net, each with the client that has it. -/
def Places (n : Net K A I) (all : Multiset (Ptr K × OffloadLinkInfo K)) : Prop :=
  ∀ p, all.filter (·.1 = p) = ((n.links p).map (Prod.mk p) : List (Ptr K × OffloadLinkInfo K))

theorem filter_cons_self (a : Ptr K) (l : OffloadLinkInfo K) :
    ((a, l) ::ₘ all).filter (·.1 = a) = (a, l) ::ₘ all.filter (·.1 = a) :=
  filter_cons_of_pos all (p := fun x => x.1 = a) rfl

theorem filter_cons_ne {a : Ptr K} (other : a ≠ p) (l : OffloadLinkInfo K) :
    ((p, l) ::ₘ all).filter (·.1 = a) = all.filter (·.1 = a) :=
  filter_cons_of_neg all (p := fun x => x.1 = a) (Ne.symm other)

namespace Places

theorem mem (places : n.Places all) {x : Ptr K × OffloadLinkInfo K} :
    x ∈ all ↔ x.2 ∈ n.links x.1 := by
  have here : x ∈ all.filter (·.1 = x.1) ↔ x ∈ all := by simp
  rw [← here, places x.1, mem_coe, List.mem_map]
  constructor
  · rintro ⟨l, member, same⟩
    rw [← same]
    exact member
  · exact fun member => ⟨x.2, member, rfl⟩

theorem split (places : n.Places all) (member : l ∈ n.links p) : ∃ rest, all = (p, l) ::ₘ rest :=
  exists_cons_of_mem (places.mem.mpr member)

theorem congr (places : n.Places all) (links : n'.links = n.links) : n'.Places all := by
  intro a
  rw [links]
  exact places a

theorem add (places : n.Places all) (here : (n'.links p).Perm (l :: n.links p))
    (others : ∀ a, a ≠ p → n'.links a = n.links a) : n'.Places ((p, l) ::ₘ all) := by
  intro a
  by_cases same : a = p
  · subst same
    rw [filter_cons_self, places a, cons_coe, coe_eq_coe]
    exact (here.map (Prod.mk a)).symm
  · rw [filter_cons_ne same, places a, others a same]

theorem erase (places : n.Places ((p, l) ::ₘ all)) (here : (n.links p).Perm (l :: n'.links p))
    (others : ∀ a, a ≠ p → n'.links a = n.links a) : n'.Places all := by
  intro a
  have before := places a
  by_cases same : a = p
  · subst same
    have split : ((n.links a).map (Prod.mk a) : Multiset _) =
        (a, l) ::ₘ ((n'.links a).map (Prod.mk a) : List (Ptr K × OffloadLinkInfo K)) := by
      rw [cons_coe, coe_eq_coe]
      exact here.map (Prod.mk a)
    rw [filter_cons_self, split] at before
    exact (cons_inj_right _).mp before
  · rw [filter_cons_ne same] at before
    rw [before, others a same]

theorem replace {l' : OffloadLinkInfo K} {others : List (OffloadLinkInfo K)}
    (places : n.Places ((p, l) ::ₘ rest)) (before : (n.links p).Perm (l :: others))
    (after : (n'.links p).Perm (l' :: others)) (elsewhere : ∀ a, a ≠ p → n'.links a = n.links a) :
    n'.Places ((p, l') ::ₘ rest) := by
  intro a
  have old := places a
  by_cases same : a = p
  · subst same
    have split : ((n.links a).map (Prod.mk a) : Multiset _) =
        (a, l) ::ₘ (others.map (Prod.mk a) : List (Ptr K × OffloadLinkInfo K)) := by
      rw [cons_coe, coe_eq_coe]
      exact before.map (Prod.mk a)
    rw [filter_cons_self, split] at old
    rw [filter_cons_self, (cons_inj_right _).mp old, cons_coe, coe_eq_coe]
    exact (after.map (Prod.mk a)).symm
  · rw [filter_cons_ne same] at old
    rw [filter_cons_ne same, old, elsewhere a same]

/-- When `p` has one link to `q` at most, the others lead elsewhere. -/
theorem apart_of_once (places : n.Places ((p, l) ::ₘ rest)) (to_q : l.peerPointer = q)
    (once : n.linkCount p q ≤ 1) : ∀ x ∈ rest, ¬ (x.1 = p ∧ x.2.peerPointer = q) := by
  rintro ⟨a, m⟩ member ⟨rfl, to_q'⟩
  have here : (a, m) ∈ rest.filter (·.1 = a) := by simp [member]
  obtain ⟨others, split⟩ := exists_cons_of_mem here
  have counted := places a
  rw [filter_cons_self, split] at counted
  have twice : 2 ≤ (((n.links a).map (Prod.mk a) : List _) :
      Multiset (Ptr K × OffloadLinkInfo K)).countP (fun x => linkTo q x.2 = true) := by
    rw [← counted, countP_cons_of_pos, countP_cons_of_pos]
    · omega
    · simpa using to_q'
    · simpa using to_q
  simp only [coe_countP, List.countP_map, Function.comp_def, Bool.decide_eq_true] at twice
  exact absurd (le_trans twice once) (by decide)

end Places

/-! ### Holding what is live -/

/-- What is live is what the links hold, with their filtering rules where `on` says so, and only live
handles were used or deleted. -/
def Holds (n : Net K A I) (on : Ptr K → Ptr K → Bool) : Prop :=
  ∃ all, n.Places all ∧ Sound id (ledger n.calls) ∧ live id (ledger n.calls) =
    all.bind fun x => ↑(x.2.handles (on x.1 x.2.peerPointer))

/-- `on` with another value for one direction. -/
def turn (on : Ptr K → Ptr K → Bool) (p q : Ptr K) (value : Bool) (a b : Ptr K) : Bool :=
  if a = p ∧ b = q then value else on a b

@[simp] theorem turn_self (on : Ptr K → Ptr K → Bool) (p q : Ptr K) (value : Bool) :
    turn on p q value p q = value := by
  simp [turn]

theorem turn_ne {on : Ptr K → Ptr K → Bool} {a b : Ptr K} (other : ¬ (a = p ∧ b = q)) (value : Bool) :
    turn on p q value a b = on a b := by
  simp [turn, other]

namespace Holds

variable {on on' : Ptr K → Ptr K → Bool}

theorem sound (h : n.Holds on) : Sound id (ledger n.calls) := by
  obtain ⟨_, _, sound, _⟩ := h
  exact sound

/-- Nothing is live when there is no link. -/
theorem empty (h : n.Holds on) (none : ∀ p, n.links p = []) : live id (ledger n.calls) = 0 := by
  obtain ⟨all, places, -, live⟩ := h
  have no_links : all = 0 := by
    apply eq_zero_of_forall_notMem
    intro x member
    rw [places.mem, none] at member
    cases member
  rw [live, no_links, zero_bind]

/-- It matters only what `on` says of links. -/
theorem congr (h : n.Holds on) (links : n'.links = n.links) (calls : n'.calls = n.calls)
    (same : ∀ a b, 0 < n.linkCount a b → on a b = on' a b) : n'.Holds on' := by
  obtain ⟨all, places, sound, live⟩ := h
  rw [Holds, calls]
  refine ⟨all, places.congr links, sound, live.trans (bind_congr fun x member => ?_)⟩
  rw [same]
  exact countP_hasKey_pos.mpr ⟨x.2, places.mem.mp member, rfl⟩

theorem linkUp (h : n.Holds on) (at_p : n.client p = some cp) (at_q : n.client q = some cq)
    (apart : p ≠ q) (l_to : l.peerPointer = q) (r_to : r.peerPointer = p) (on_pq : on p q = true)
    (on_qp : on q p = true) :
    ((n.call (addCalls cp cq l ++ addCalls cq cp r)).linkUp p q cp cq l r).Holds on := by
  obtain ⟨all, places, sound, live⟩ := h
  have calls : ledger ((n.call (addCalls cp cq l ++ addCalls cq cp r)).linkUp p q cp cq l r).calls =
      ledger (addCalls cq cp r) ++ (ledger (addCalls cp cq l) ++ ledger n.calls) := by
    simp [Net.linkUp]
  refine ⟨(q, r) ::ₘ (p, l) ::ₘ all, ?_, ?_, ?_⟩
  · have one : (n.put p { cp with link := cp.link ++ [l] }).Places ((p, l) ::ₘ all) := by
      apply places.add
      · rw [links_put, if_pos rfl, links_eq at_p]
        exact List.perm_append_singleton l cp.link
      · intro a other
        rw [links_put, if_neg other]
    apply one.add
    · rw [Net.linkUp, links_put, if_pos rfl, links_put, if_neg (Ne.symm apart), links_eq at_q]
      exact List.perm_append_singleton r cq.link
    · intro a other
      rw [Net.linkUp, links_put, if_neg other]
      rfl
  · rw [calls]
    exact sound_addCalls (sound_addCalls sound)
  · rw [calls, live_addCalls, live_addCalls, live, cons_bind, cons_bind, l_to, r_to, on_pq, on_qp]

theorem unlink (h : n.Holds on) (fresh : Fresh id (ledger n.calls)) (at_p : n.client p = some cp)
    (at_q : n.client q = some cq) (apart : p ≠ q) (forth : cp.link.find? (linkTo q) = some l)
    (back : cq.link.find? (linkTo p) = some r) (on_pq : on p q = true) (on_qp : on q p = true) :
    ((n.call (delCalls cp cq l ++ delCalls cq cp r)).unlink p q cp cq).Holds on := by
  obtain ⟨all, places, sound, live⟩ := h
  have l_to : l.peerPointer = q := key_of_find? forth
  have r_to : r.peerPointer = p := key_of_find? back
  obtain ⟨rest, rfl⟩ := places.split (p := p) (l := l)
    (by rw [links_eq at_p]; exact List.mem_of_find?_eq_some forth)
  -- the net between the two halves
  have half : (n.put p { cp with link := cp.link.eraseP (linkTo q) }).Places rest := by
    apply places.erase
    · rw [links_put, if_pos rfl, links_eq at_p]
      exact perm_eraseP forth
    · intro a other
      rw [links_put, if_neg other]
  obtain ⟨rest, rfl⟩ := half.split (p := q) (l := r)
    (by rw [links_put, if_neg (Ne.symm apart), links_eq at_q]; exact List.mem_of_find?_eq_some back)
  have calls : ledger ((n.call (delCalls cp cq l ++ delCalls cq cp r)).unlink p q cp cq).calls =
      (r.handles true).map (.release ∘ id) ++
        ((l.handles true).map (.release ∘ id) ++ ledger n.calls) := by
    simp [Net.unlink, ledger_delCalls]
  rw [cons_bind, cons_bind, l_to, r_to, on_pq, on_qp] at live
  have first := live_releases fresh _ live
  refine ⟨rest, ?_, ?_, ?_⟩
  · apply half.erase
    · simp only [Net.unlink, links_put, if_neg (Ne.symm apart), if_true, links_eq at_q]
      exact perm_eraseP back
    · intro a other
      simp only [Net.unlink, links_put, if_neg other, links_call]
  · rw [calls]
    exact sound_releases (fresh_releases _ fresh) (sound_releases fresh sound _ live) _ first
  · rw [calls]
    exact live_releases (fresh_releases _ fresh) _ first

theorem fltOff (h : n.Holds on) (fresh : Fresh id (ledger n.calls)) (member : l ∈ n.links p)
    (to_q : l.peerPointer = q) (once : n.linkCount p q ≤ 1) (on_pq : on p q = true) (iface : I) :
    (n.call [.delLan2lanFltRule iface l.fltRuleHdl true]).Holds (turn on p q false) := by
  obtain ⟨all, places, sound, live⟩ := h
  obtain ⟨rest, rfl⟩ := places.split member
  have calls : ledger (n.call [.delLan2lanFltRule iface l.fltRuleHdl true]).calls =
      [LanHandle.flt l.fltRuleHdl].map (.release ∘ id) ++ ledger n.calls := by
    simp [ledger, LanCall.entries]
  have elsewhere : (rest.bind fun x => (↑(x.2.handles (turn on p q false x.1 x.2.peerPointer)) :
      Multiset LanHandle)) = rest.bind fun x => ↑(x.2.handles (on x.1 x.2.peerPointer)) :=
    bind_congr fun x here => by rw [turn_ne (places.apart_of_once to_q once x here)]
  rw [cons_bind, to_q, on_pq, handles_true, cons_add, ← singleton_add] at live
  refine ⟨(p, l) ::ₘ rest, places, ?_, ?_⟩
  · rw [calls]
    exact sound_releases fresh sound [.flt l.fltRuleHdl] live
  · rw [calls, live_releases fresh [.flt l.fltRuleHdl] live, cons_bind, to_q, turn_self, elsewhere]

/-- The filtering rule of the one link from `p` to `q` is installed again, and its handle written into
the link. -/
theorem fltOn (h : n.Holds on) (at_p : n.client p = some c) (hdl : UInt32)
    {others link : List (OffloadLinkInfo K)} (before : c.link.Perm (l :: others))
    (after : link.Perm ({ l with fltRuleHdl := hdl } :: others)) (to_q : l.peerPointer = q)
    (once : n.linkCount p q ≤ 1) (off_pq : on p q = false) (iface : I) (src dst : A) :
    ((n.call [.addLan2lanFltRule iface src dst (some hdl)]).put p { c with link := link }).Holds
      (turn on p q true) := by
  obtain ⟨all, places, sound, live⟩ := h
  have member : l ∈ n.links p := by
    rw [links_eq at_p]
    exact before.mem_iff.mpr List.mem_cons_self
  obtain ⟨rest, rfl⟩ := places.split member
  have calls : ledger ((n.call [.addLan2lanFltRule iface src dst (some hdl)]).put p
      { c with link := link }).calls = [LanHandle.flt hdl].map .gain ++ ledger n.calls := by
    simp [ledger, LanCall.entries]
  have elsewhere : (rest.bind fun x => (↑(x.2.handles (turn on p q true x.1 x.2.peerPointer)) :
      Multiset LanHandle)) = rest.bind fun x => ↑(x.2.handles (on x.1 x.2.peerPointer)) :=
    bind_congr fun x here => by rw [turn_ne (places.apart_of_once to_q once x here)]
  refine ⟨(p, { l with fltRuleHdl := hdl }) ::ₘ rest, ?_, ?_, ?_⟩
  · apply places.replace (links_eq at_p ▸ before)
    · rw [links_put, if_pos rfl]
      exact after
    · intro a other
      rw [links_put, if_neg other]
      rfl
  · rw [calls]
    exact (sound_gains _).mpr sound
  · rw [calls, live_gains, live, cons_bind, cons_bind, to_q, off_pq, elsewhere,
      turn_self, handles_true, ← add_assoc]
    rfl

end Holds

end Net

end Hima.LanToLan
