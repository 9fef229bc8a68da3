import Hima.LanToLan.HandlerCases
import Hima.LanToLan.Ledger
import Hima.LanToLan.Symmetry

/-!
# Handles are returned once

`remove_flt_rules` takes the filtering rules of a link away when one of its ends saves power, and the
link keeps the old handles. What takes a link down does not ask for that and deletes them again.
-/
namespace Hima.LanToLan

open Slots FirstMatch Handles Runs Net

set_option linter.unusedSectionVars false

variable {K A I : Type} [DecidableEq K]

/-! ### Power save -/

namespace Net

variable {n n' : Net K A I} {p q : Ptr K} {c d cp cq : ClientInfo K A I} {l r : OffloadLinkInfo K}

def saves (n : Net K A I) (p : Ptr K) : Bool := (n.client p).any (·.isPowersave)

/-- The filtering rules of the links between two clients are installed. -/
def on (n : Net K A I) (p q : Ptr K) : Bool := !n.saves p && !n.saves q

theorem on_iff : n.on p q = true ↔ n.saves p = false ∧ n.saves q = false := by
  simp [on]

theorem on_comm (n : Net K A I) (p q : Ptr K) : n.on p q = n.on q p := Bool.and_comm _ _

theorem saves_eq (at_p : n.client p = some c) : n.saves p = c.isPowersave := by
  simp [saves, at_p]

theorem saves_put (n : Net K A I) (p : Ptr K) (c : ClientInfo K A I) (a : Ptr K) :
    (n.put p c).saves a = if a = p then c.isPowersave else n.saves a := by
  simp only [saves, client_put]
  split <;> rfl

theorem saves_of_bare (same : n'.bare = n.bare) : n'.saves = n.saves := by
  have stripped : ∀ m : Net K A I, m.saves = fun a => (m.bare a).any (·.isPowersave) := by
    intro m
    funext a
    rw [saves, bare]
    cases m.client a <;> rfl
  rw [stripped n', stripped n, same]

theorem saves_of_sansPeers (same : n'.sansPeers = n.sansPeers) : n'.saves = n.saves := by
  have stripped : ∀ m : Net K A I, m.saves = fun a => (m.sansPeers a).any (·.isPowersave) := by
    intro m
    funext a
    rw [saves, sansPeers]
    cases m.client a <;> rfl
  rw [stripped n', stripped n, same]

/-- An active client does not save power. One that does has at most one link to each other client,
which does not. -/
structure Rested (n : Net K A I) : Prop where
  modes : ∀ p c, n.client p = some c → c.isActive = true → c.isPowersave = false
  single : ∀ p q, n.saves p = true → n.linkCount p q ≤ 1
  oneSide : ∀ p q, n.saves p = true → 0 < n.linkCount p q → n.saves q = false

/-- The net of a family between two events. The hardware hands out no handle that is live. -/
structure Kept (n : Net K A I) : Prop where
  paired : n.Paired
  rested : n.Rested
  held : Fresh id (ledger n.calls) → n.Holds n.on

theorem fresh_before {calls calls' : List (LanCall A I)} (fresh : Fresh id (ledger (calls ++ calls'))) :
    Fresh id (ledger calls) := by
  rw [ledger_append] at fresh
  exact fresh.of_append

theorem Rested.of_bare (h : n.Rested) (bare : n'.bare = n.bare)
    (fewer : ∀ a b, n.saves a = true → n'.linkCount a b ≤ n.linkCount a b) : n'.Rested where
  modes a c at_a active := by
    obtain ⟨link, at_a'⟩ := client_of_bare bare.symm at_a
    have awake := h.modes a _ at_a' active
    exact awake
  single a b asleep := by
    rw [saves_of_bare bare] at asleep
    exact le_trans (fewer a b asleep) (h.single a b asleep)
  oneSide a b asleep linked := by
    rw [saves_of_bare bare] at asleep ⊢
    exact h.oneSide a b asleep (lt_of_lt_of_le linked (fewer a b asleep))

namespace Kept

theorem linkUp (h : n.Kept) (at_p : n.client p = some cp) (at_q : n.client q = some cq) (apart : p ≠ q)
    (l_to : l.peerPointer = q) (r_to : r.peerPointer = p) (p_active : cp.isActive = true)
    (q_active : cq.isActive = true) (num : UInt8) :
    (((n.call (addCalls cp cq l ++ addCalls cq cp r)).linkUp p q cp cq l r).count num).Kept := by
  have bare : (((n.call (addCalls cp cq l ++ addCalls cq cp r)).linkUp p q cp cq l r).count num).bare =
      n.bare := bare_put_put (n := n.call _) at_p at_q apart _ _
  have p_awake : n.saves p = false := (saves_eq at_p).trans (h.rested.modes p cp at_p p_active)
  have q_awake : n.saves q = false := (saves_eq at_q).trans (h.rested.modes q cq at_q q_active)
  refine ⟨((h.paired.call _).linkUp at_p at_q apart l_to r_to p_active q_active).count num, ?_, ?_⟩
  · apply h.rested.of_bare bare
    intro a b asleep
    have not_p : a ≠ p := fun same => by simp [same, p_awake] at asleep
    have not_q : a ≠ q := fun same => by simp [same, q_awake] at asleep
    rw [linkCount_count, linkCount_linkUp (n := n.call _) at_p at_q apart l_to r_to]
    simp [not_p, not_q]
  · intro fresh
    have before : n.Holds n.on := h.held (fresh_before fresh)
    have both : n.on p q = true := on_iff.mpr ⟨p_awake, q_awake⟩
    have after := before.linkUp at_p at_q apart l_to r_to both ((n.on_comm q p).trans both)
    exact after.congr rfl rfl fun a b _ => by rw [on, on, saves_of_bare bare]

theorem unlink (h : n.Kept) (at_p : n.client p = some cp) (at_q : n.client q = some cq) (apart : p ≠ q)
    (forth : cp.link.find? (linkTo q) = some l) (back : cq.link.find? (linkTo p) = some r)
    (installed : n.on p q = true) (num : UInt8) :
    (((n.call (delCalls cp cq l ++ delCalls cq cp r)).unlink p q cp cq).count num).Kept := by
  have bare : (((n.call (delCalls cp cq l ++ delCalls cq cp r)).unlink p q cp cq).count num).bare =
      n.bare := bare_put_put (n := n.call _) at_q at_p (Ne.symm apart) _ _
  refine ⟨((h.paired.call _).unlink at_p at_q apart).count num, ?_, ?_⟩
  · apply h.rested.of_bare bare
    intro a b _
    rw [linkCount_count, linkCount_unlink (n := n.call _) at_p at_q apart]
    exact Nat.sub_le _ _
  · intro fresh
    have fresh := fresh_before fresh
    have after := (h.held fresh).unlink fresh at_p at_q apart forth back installed
      ((n.on_comm q p).trans installed)
    exact after.congr rfl rfl fun a b _ => by rw [on, on, saves_of_bare bare]

theorem of_sansPeers (h : n.Kept) (paired : n'.Paired) (same : n'.sansPeers = n.sansPeers)
    (calls : n'.calls = n.calls) : n'.Kept := by
  have links := links_of_sansPeers same
  have saves := saves_of_sansPeers same
  have counts : n'.linkCount = n.linkCount := by
    funext a b
    rw [linkCount, links]
    rfl
  refine ⟨paired, ⟨?_, ?_, ?_⟩, ?_⟩
  · intro a c at_a active
    obtain ⟨peer, at_a'⟩ := client_of_sansPeers same.symm at_a
    have awake := h.rested.modes a _ at_a' active
    exact awake
  · rw [saves, counts]
    exact h.rested.single
  · rw [saves, counts]
    exact h.rested.oneSide
  · intro fresh
    rw [calls] at fresh
    exact (h.held fresh).congr links calls fun a b _ => by rw [on, on, saves]

/-- Clients change, but neither the lists nor, where there is a link, whether they save power. -/
theorem of_same (h : n.Kept) (paired : n'.Paired) (links : n'.links = n.links) (calls : n'.calls = n.calls)
    (modes : ∀ p c, n'.client p = some c → c.isActive = true → c.isPowersave = false)
    (saves : ∀ a, n.links a ≠ [] → n'.saves a = n.saves a) : n'.Kept := by
  have counts : n'.linkCount = n.linkCount := by
    funext a b
    rw [linkCount, links]
    rfl
  have ends : ∀ a b, 0 < n.linkCount a b → n'.saves a = n.saves a ∧ n'.saves b = n.saves b := by
    intro a b linked
    have back : 0 < n.linkCount b a := by rwa [h.paired.linksMutual]
    constructor
    · exact saves a fun none => by simp [linkCount, none] at linked
    · exact saves b fun none => by simp [linkCount, none] at back
  refine ⟨paired, ⟨modes, ?_, ?_⟩, ?_⟩
  · intro a b asleep
    rw [counts]
    by_contra many
    rw [(ends a b (by omega)).1] at asleep
    exact many (h.rested.single a b asleep)
  · intro a b asleep linked
    rw [counts] at linked
    obtain ⟨same_a, same_b⟩ := ends a b linked
    rw [same_b]
    exact h.rested.oneSide a b (same_a ▸ asleep) linked
  · intro fresh
    rw [calls] at fresh
    refine (h.held fresh).congr links calls fun a b linked => ?_
    rw [on, on, (ends a b linked).1, (ends a b linked).2]

theorem put (h : n.Kept) (at_p : n.client p = some c) (link : d.link = c.link) (peer : d.peer = c.peer)
    (idle : d.isActive = false → d.isPowersave = false → c.link = [])
    (mode : d.isActive = true → d.isPowersave = false)
    (same : c.link ≠ [] → d.isPowersave = c.isPowersave) : (n.put p d).Kept := by
  refine h.of_same (h.paired.put at_p link peer idle)
    (links_put_same (link.trans (links_eq at_p).symm)) rfl ?_ ?_
  · intro a e at_a active
    rw [client_put] at at_a
    split at at_a
    · cases at_a
      exact mode active
    · exact h.rested.modes a e at_a active
  · intro a some_link
    rw [saves_put]
    split
    next here =>
      rw [here, saves_eq at_p]
      rw [here, links_eq at_p] at some_link
      exact same some_link
    next => rfl

theorem insert (h : n.Kept) (absent : n.client p = none) (link : c.link = []) (peer : c.peer = [])
    (mode : c.isActive = true → c.isPowersave = false) : (n.put p c).Kept := by
  refine h.of_same (h.paired.insert absent link peer)
    (links_put_same (link.trans (links_of_absent absent).symm)) rfl ?_ ?_
  · intro a e at_a active
    rw [client_put] at at_a
    split at at_a
    · cases at_a
      exact mode active
    · exact h.rested.modes a e at_a active
  · intro a some_link
    rw [saves_put]
    split
    next here =>
      rw [here, links_of_absent absent] at some_link
      exact absurd rfl some_link
    next => rfl

theorem drop (h : n.Kept) (at_p : n.client p = some c) (link : c.link = []) (peer : c.peer = []) :
    (n.drop p).Kept := by
  refine h.of_same (h.paired.drop at_p link peer) (links_drop_same ((links_eq at_p).trans link)) rfl ?_ ?_
  · intro a e at_a active
    rw [client_drop] at at_a
    split at at_a
    · cases at_a
    · exact h.rested.modes a e at_a active
  · intro a some_link
    rw [saves, saves, client_drop]
    split
    next here =>
      rw [here, links_eq at_p, link] at some_link
      exact absurd rfl some_link
    next => rfl

end Kept

end Net

namespace Family

variable {answers : Answers} {f f' : Family K A I} {p q : Ptr K} {c d : ClientInfo K A I}

/-! ### The loops over links and peers -/

theorem turnoffOffloadLinks_kept (h : f.net.Kept) (succeed : answers.Succeed)
    (at_p : f.deref p = some c) (installed : ∀ q, 0 < f.net.linkCount p q → f.net.on p q = true)
    (run : f.turnoffOffloadLinks answers p = some f') :
    f'.net.Kept ∧ f'.deref p = some { c with link := [] } := by
  obtain ⟨f₁, run₁, at_p₁, -, ⟨kept₁, -⟩, -⟩ := turnoffOffloadLinks_rule
    (fun n => n.Kept ∧ ∀ q, 0 < n.linkCount p q → n.on p q = true)
    (fun n cp cq l r rest _ kept at_p links at_q apart back => by
      obtain ⟨kept, installed⟩ := kept
      have linked : 0 < n.linkCount p l.peerPointer := by
        rw [linkCount_eq at_p, links]
        exact countP_hasKey_pos.mpr ⟨l, by simp, rfl⟩
      have forth : cp.link.find? (linkTo l.peerPointer) = some l := by simp [links]
      refine ⟨kept.unlink at_p at_q (Ne.symm apart) forth back (installed _ linked) _, fun q linked => ?_⟩
      have bare := bare_put_put (n := n.call (delCalls cp cq l ++ delCalls cq cp r)) at_q at_p apart
        (cq.link.eraseP (linkTo p)) (cp.link.eraseP (linkTo l.peerPointer))
      rw [linkCount_count, linkCount_unlink (n := n.call _) at_p at_q (Ne.symm apart)] at linked
      have before := installed q (lt_of_lt_of_le linked (Nat.sub_le _ _))
      rw [on_iff] at before ⊢
      have saves : saves (((n.call (delCalls cp cq l ++ delCalls cq cp r)).unlink p l.peerPointer
          cp cq).count (n.num - 1)) = n.saves := saves_of_bare bare
      rw [saves]
      exact before)
    h.paired at_p (fun i _ => succeed.del i) ⟨h, installed⟩
  obtain rfl := Option.some.inj (run₁.symm.trans run)
  exact ⟨kept₁, at_p₁⟩

theorem clearPeerList_kept (h : f.net.Kept) (at_p : f.deref p = some c) (run : f.clearPeerList p = some f') :
    f'.net.Kept ∧ f'.deref p = some { c with peer := [] } := by
  obtain ⟨f₁, run₁, at_p₁, -, kept₁⟩ := clearPeerList_rule Kept
    (fun n cp cq e rest paired kept at_p entries at_q apart => by
      have step := paired.unpeer_step at_p at_q (Ne.symm apart)
      exact kept.of_sansPeers step.paired step.sansPeers step.calls)
    h.paired at_p h
  obtain rfl := Option.some.inj (run₁.symm.trans run)
  exact ⟨kept₁, at_p₁⟩

theorem checkPotentialLink_kept (h : f.net.Kept) (succeed : answers.Succeed)
    (at_p : f.deref p = some c) (p_active : c.isActive = true)
    (run : f.checkPotentialLink answers p = some f') : f'.net.Kept := by
  have known : ∀ e ∈ c.peer, e.peerPointer ≠ p ∧ f.activeAt e.peerPointer = f.activeAt e.peerPointer ∧
      ∃ d, f.deref e.peerPointer = some d := by
    intro e member
    obtain ⟨apart, d, -, at_q, -⟩ := h.paired.backPeer (client_net p ▸ at_p) member
    exact ⟨apart, rfl, d, at_q⟩
  obtain ⟨f₁, run₁, kept₁, -⟩ := checkPotentialLinkFrom_rule answers (fun _ n => n.Kept) f.activeAt
    (fun _ _ _ kept => kept)
    (fun i _ _ _ _ refused => by simp [succeed.add] at refused)
    (fun e rest n cp cq l r _ kept at_p at_q p_active q_active apart _ _ _ l_to r_to =>
      kept.linkUp at_p at_q (Ne.symm apart) l_to r_to p_active q_active _)
    h.paired at_p p_active known (addsAlike_of_succeed succeed _ _ _ _) h
  have run₁ : f.checkPotentialLink answers p = some f₁ := by simpa [checkPotentialLink, at_p] using run₁
  obtain rfl := Option.some.inj (run₁.symm.trans run)
  exact kept₁

theorem eraseOffloadLink_kept (h : f.net.Kept) {a b : DelAnswer} (gone : a.gone = true)
    (gone' : b.gone = true) (at_p : f.deref p = some c) (at_q : f.deref q = some d) (apart : p ≠ q)
    (installed : 0 < f.net.linkCount p q → f.net.on p q = true) :
    ∃ f', f.eraseOffloadLink a b p q = some f' ∧ f'.net.Kept ∧ f'.net.bare = f.net.bare ∧
      f'.net.linkCount p q ≤ f.net.linkCount p q := by
  obtain ⟨f', run, result⟩ := eraseOffloadLink_result a b h.paired at_p at_q apart
  refine ⟨f', run, ?_⟩
  generalize f'.net = n' at result ⊢
  cases result with
  | absent => exact ⟨h, rfl, le_refl _⟩
  | erased l r calls num forth back answered =>
    obtain ⟨rfl, rfl⟩ := answered gone gone'
    have linked : 0 < f.net.linkCount p q := by
      rw [linkCount_eq (client_net p ▸ at_p), ← find?_hasKey_isSome]
      simp [forth]
    refine ⟨h.unlink at_p at_q apart forth back (installed linked) _, ?_, ?_⟩
    · exact bare_put_put (n := f.net.call _) at_q at_p (Ne.symm apart) _ _
    · rw [linkCount_count, linkCount_unlink (n := f.net.call _) at_p at_q apart]
      exact Nat.sub_le _ _

theorem eraseLinks_kept (h : f.net.Kept) (succeed : answers.Succeed) (at_p : f.deref p = some c)
    (at_q : f.deref q = some d) (apart : p ≠ q) (installed : 0 < f.net.linkCount p q → f.net.on p q = true)
    (run : f.eraseLinks answers p q c d = some f') : f'.net.Kept := by
  unfold eraseLinks at run
  split at run
  next =>
    obtain ⟨f₁, run₁, kept₁, -⟩ := eraseOffloadLink_kept h (succeed.del 0) (succeed.del 1) at_p at_q apart
      installed
    obtain rfl := Option.some.inj (run₁.symm.trans run)
    exact kept₁
  next =>
    obtain ⟨f₁, first, second⟩ := Option.bind_eq_some_iff.mp run
    -- the second case may still find a link, with its rules installed
    obtain ⟨kept₁, bare₁, fewer⟩ : f₁.net.Kept ∧ f₁.net.bare = f.net.bare ∧
        f₁.net.linkCount p q ≤ f.net.linkCount p q := by
      split at first
      next =>
        obtain ⟨f₂, run₂, result⟩ := eraseOffloadLink_kept h (succeed.del 0) (succeed.del 1) at_p at_q
          apart installed
        obtain rfl := Option.some.inj (run₂.symm.trans first)
        exact result
      next =>
        obtain rfl := Option.some.inj first
        exact ⟨h, rfl, le_refl _⟩
    split at second
    next =>
      obtain ⟨ls, at_p₁⟩ := client_of_bare bare₁ (client_net p ▸ at_p)
      obtain ⟨rs, at_q₁⟩ := client_of_bare bare₁ (client_net q ▸ at_q)
      have still : 0 < f₁.net.linkCount q p → f₁.net.on q p = true := by
        intro linked
        rw [kept₁.paired.linksMutual] at linked
        rw [on_comm, on, saves_of_bare bare₁]
        exact installed (lt_of_lt_of_le linked fewer)
      obtain ⟨f₂, run₂, kept₂, -⟩ := eraseOffloadLink_kept kept₁ (succeed.del 2) (succeed.del 3) at_q₁
        at_p₁ (Ne.symm apart) still
      obtain rfl := Option.some.inj (run₂.symm.trans second)
      exact kept₂
    next =>
      obtain rfl := Option.some.inj second
      exact kept₁

/-! ### The loops over filtering rules -/

/-- What is installed while `remove_flt_rules` of `p` has the links to `ahead` before it. -/
def dozing (p : Ptr K) (on : Ptr K → Ptr K → Bool) (ahead : List (Ptr K)) (a b : Ptr K) : Bool :=
  on a b && (decide (a ≠ p) || decide (b ∈ ahead)) && (decide (b ≠ p) || decide (a ∈ ahead))

/-- Removing the rules of both directions is one step of the loop. -/
theorem dozing_cons {on : Ptr K → Ptr K → Bool} {ahead : List (Ptr K)} (other : q ≠ p)
    (once : q ∉ ahead) (a b : Ptr K) :
    turn (turn (dozing p on (q :: ahead)) p q false) q p false a b = dozing p on ahead a b := by
  simp only [turn, dozing, List.mem_cons]
  by_cases a_p : a = p
  · by_cases b_q : b = q
    · simp [a_p, b_q, Ne.symm other, other, once]
    · simp [a_p, b_q, Ne.symm other]
  · by_cases a_q : a = q
    · by_cases b_p : b = p
      · simp [a_q, b_p, other, once]
      · simp [a_q, b_p, other]
    · simp [a_p, a_q]

/-- The clients that `p` is linked to, in the order of its links. -/
abbrev peersOf (c : ClientInfo K A I) : List (Ptr K) := c.link.map (·.peerPointer)

theorem mem_peersOf (at_p : f.deref p = some c) : q ∈ peersOf c ↔ 0 < f.net.linkCount p q := by
  rw [linkCount_eq (client_net p ▸ at_p), countP_hasKey_pos]
  exact List.mem_map

theorem nodup_peersOf (at_p : f.deref p = some c) (single : ∀ q, f.net.linkCount p q ≤ 1) :
    (peersOf c).Nodup := by
  refine nodup_of_countP_le_one fun q => ?_
  have once := single q
  rwa [linkCount_eq (client_net p ▸ at_p)] at once

/-- In front of the loop nothing is removed. -/
theorem dozing_peersOf (paired : f.net.Paired) (at_p : f.deref p = some c) {on : Ptr K → Ptr K → Bool}
    {a b : Ptr K} (linked : 0 < f.net.linkCount a b) : dozing p on (peersOf c) a b = on a b := by
  have not_self : a ≠ b := fun same => by
    rw [same, paired.linksApart] at linked
    omega
  simp only [dozing]
  by_cases a_p : a = p
  · subst a_p
    simp [(mem_peersOf at_p).mpr linked, Ne.symm not_self]
  · by_cases b_p : b = p
    · subst b_p
      rw [paired.linksMutual] at linked
      simp [(mem_peersOf at_p).mpr linked, a_p]
    · simp [a_p, b_p]

/-- One pass of the loop. -/
theorem dozing_step {n : Net K A I} {on : Ptr K → Ptr K → Bool} {ahead : List (Ptr K)}
    {cp cq : ClientInfo K A I} {l r : OffloadLinkInfo K}
    (held : Fresh id (ledger n.calls) → n.Holds (dozing p on (q :: ahead)))
    (at_p : n.client p = some cp) (at_q : n.client q = some cq) (apart : q ≠ p) (once : q ∉ ahead)
    (forth : l ∈ cp.link) (l_to : l.peerPointer = q) (back : r ∈ cq.link) (r_to : r.peerPointer = p)
    (single : n.linkCount p q ≤ 1) (single' : n.linkCount q p ≤ 1) (on_pq : on p q = true)
    (on_qp : on q p = true) (fresh : Fresh id (ledger (n.call [.delLan2lanFltRule cp.pIface l.fltRuleHdl true,
      .delLan2lanFltRule cq.pIface r.fltRuleHdl true]).calls)) :
    (n.call [.delLan2lanFltRule cp.pIface l.fltRuleHdl true,
      .delLan2lanFltRule cq.pIface r.fltRuleHdl true]).Holds (dozing p on ahead) := by
  rw [← List.singleton_append, ← call_call] at fresh ⊢
  have fresh₁ := fresh_before fresh
  have fresh₀ : Fresh id (ledger n.calls) := fresh_before fresh₁
  have off := (held fresh₀).fltOff fresh₀ (by rwa [links_eq at_p]) l_to single
    (by simp [dozing, on_pq, apart]) cp.pIface
  have off' := off.fltOff fresh₁ (by rwa [links_call, links_eq at_q]) r_to single' (by
      rw [turn_ne fun same => apart same.1]
      simp [dozing, on_qp, apart]) cq.pIface
  exact off'.congr rfl rfl fun a b _ => dozing_cons apart once a b

theorem removeFltRules_held (h : f.net.Kept) (succeed : answers.Succeed) (at_p : f.deref p = some c)
    (installed : ∀ q, 0 < f.net.linkCount p q → f.net.on p q = true)
    (single : ∀ q, f.net.linkCount p q ≤ 1) {res : Bool} (run : f.removeFltRules answers p = some (res, f')) :
    res = true ∧ (∃ calls, f'.net = f.net.call calls) ∧
      (Fresh id (ledger f'.net.calls) → f'.net.Holds (dozing p f.net.on [])) := by
  -- the rules of the links ahead are still installed
  obtain ⟨f₁, calls, run₁, ⟨-, -, -, held₁⟩, net₁⟩ := removeFltRules_rule answers
    (fun ahead n => n.client = f.net.client ∧ (∀ l ∈ ahead, l ∈ c.link) ∧
      (ahead.map (·.peerPointer)).Nodup ∧ (Fresh id (ledger n.calls) →
        n.Holds (dozing p f.net.on (ahead.map (·.peerPointer)))))
    (fun i l rest n cp cq r kept at_p' at_q apart back => by
      obtain ⟨same, members, nodup, held⟩ := kept
      have counts : n.linkCount = f.net.linkCount := by
        funext a b
        simp only [linkCount, links, same]
      obtain rfl : c = cp := by
        rw [same, client_net, at_p] at at_p'
        exact Option.some.inj at_p'
      have nodup := List.nodup_cons.mp nodup
      have linked : 0 < f.net.linkCount p l.peerPointer :=
        (mem_peersOf at_p).mp (List.mem_map.mpr ⟨l, members l (by simp), rfl⟩)
      have both := installed _ linked
      refine ⟨same, fun l' member => members l' (by simp [member]), nodup.2, fun fresh => ?_⟩
      rw [succeed.fltDel, succeed.fltDel] at fresh ⊢
      refine dozing_step held at_p' at_q apart nodup.1 (members l (by simp)) rfl
        (List.mem_of_find?_eq_some back) (key_of_find? back) ?_ ?_ both ((f.net.on_comm _ _).trans both)
        fresh
      · rw [counts]
        exact single _
      · rw [counts, h.paired.linksMutual]
        exact single _)
    h.paired at_p ⟨rfl, fun _ member => member, nodup_peersOf at_p single, fun fresh =>
      (h.held fresh).congr rfl rfl fun a b linked => (dozing_peersOf h.paired at_p linked).symm⟩
  obtain ⟨rfl, rfl⟩ : true = res ∧ f₁ = f' := by simpa using run₁.symm.trans run
  exact ⟨rfl, ⟨calls, net₁⟩, held₁⟩

/-- What is installed while `add_flt_rules` of `p` has done `k` of the directions. -/
def waking (p : Ptr K) (on : Ptr K → Ptr K → Bool) (peers : List (Ptr K)) (k : Nat) (a b : Ptr K) :
    Bool :=
  if a = p then decide (b ∈ peers.take ((k + 1) / 2))
  else if b = p then decide (a ∈ peers.take (k / 2)) else on a b

section Waking

variable {on : Ptr K → Ptr K → Bool} {peers : List (Ptr K)} {i : Nat}

theorem mem_take_succ (at_i : peers[i]? = some q) (b : Ptr K) :
    b ∈ peers.take (i + 1) ↔ b = q ∨ b ∈ peers.take i := by
  rw [List.take_add_one, at_i]
  simp [or_comm]

theorem waking_own (at_i : peers[i]? = some q) (a b : Ptr K) :
    turn (waking p on peers (2 * i)) p q true a b = waking p on peers (2 * i + 1) a b := by
  have own : (2 * i + 1) / 2 = i := by omega
  have next : (2 * i + 1 + 1) / 2 = i + 1 := by omega
  have back : 2 * i / 2 = i := by omega
  simp only [turn, waking, own, next, back, mem_take_succ at_i]
  by_cases a_p : a = p
  · by_cases b_q : b = q <;> simp [a_p, b_q]
  · simp [a_p]

theorem waking_back (at_i : peers[i]? = some q) (other : q ≠ p) (a b : Ptr K) :
    turn (waking p on peers (2 * i + 1)) q p true a b = waking p on peers (2 * (i + 1)) a b := by
  have own : (2 * (i + 1) + 1) / 2 = i + 1 := by omega
  have next : (2 * i + 1 + 1) / 2 = i + 1 := by omega
  have before : (2 * i + 1) / 2 = i := by omega
  have back : 2 * (i + 1) / 2 = i + 1 := by omega
  simp only [turn, waking, own, next, before, back, mem_take_succ at_i]
  by_cases a_p : a = p
  · simp [a_p, Ne.symm other]
  · by_cases b_p : b = p
    · by_cases a_q : a = q <;> simp [b_p, a_q, other, a_p]
    · simp [a_p, b_p]

theorem not_mem_take (nodup : peers.Nodup) (at_i : peers[i]? = some q) : q ∉ peers.take i := by
  intro member
  obtain ⟨j, below, at_j⟩ := List.mem_take_iff_getElem.mp member
  obtain ⟨inside, here⟩ := List.getElem?_eq_some_iff.mp at_i
  have same : j = i := (List.Nodup.getElem_inj_iff nodup).mp (at_j.trans here.symm)
  omega

/-- The first half of a pass, at the link itself. -/
theorem waking_step_own {n : Net K A I} {cp : ClientInfo K A I} {l : OffloadLinkInfo K} {hdl : UInt32}
    {iface : I} {src dst : A} (held : Fresh id (ledger n.calls) → n.Holds (waking p on peers (2 * i)))
    (at_p : n.client p = some cp) (at_i : cp.link[i]? = some l) (to_i : peers[i]? = some l.peerPointer)
    (nodup : peers.Nodup) (single : n.linkCount p l.peerPointer ≤ 1)
    (fresh : Fresh id (ledger (n.calls ++ [.addLan2lanFltRule iface src dst (some hdl)]))) :
    ((n.call [.addLan2lanFltRule iface src dst (some hdl)]).put p
      { cp with link := cp.link.set i { l with fltRuleHdl := hdl } }).Holds
        (waking p on peers (2 * i + 1)) := by
  obtain ⟨inside, here⟩ := List.getElem?_eq_some_iff.mp at_i
  have before : cp.link.Perm (l :: cp.link.eraseIdx i) :=
    here ▸ (List.getElem_cons_eraseIdx_perm inside).symm
  have own : (2 * i + 1) / 2 = i := by omega
  have off : waking p on peers (2 * i) p l.peerPointer = false := by
    simp [waking, own, not_mem_take nodup to_i]
  have woken := (held (fresh_before fresh)).fltOn at_p hdl before
    (List.set_perm_cons_eraseIdx inside _) rfl single off iface src dst
  exact woken.congr rfl rfl fun a b _ => waking_own to_i a b

theorem waking_step_back {n : Net K A I} {cq : ClientInfo K A I} {r : OffloadLinkInfo K} {hdl : UInt32}
    {iface : I} {src dst : A} (held : Fresh id (ledger n.calls) → n.Holds (waking p on peers (2 * i + 1)))
    (at_q : n.client q = some cq) (back : cq.link.find? (linkTo p) = some r) (to_i : peers[i]? = some q)
    (apart : q ≠ p) (nodup : peers.Nodup) (single : n.linkCount q p ≤ 1)
    (fresh : Fresh id (ledger (n.calls ++ [.addLan2lanFltRule iface src dst (some hdl)]))) :
    ((n.call [.addLan2lanFltRule iface src dst (some hdl)]).put q
      { cq with link := setFirst (linkTo p) { r with fltRuleHdl := hdl } cq.link }).Holds
        (waking p on peers (2 * (i + 1))) := by
  have own : (2 * i + 1) / 2 = i := by omega
  have off : waking p on peers (2 * i + 1) q p = false := by
    simp [waking, own, apart, not_mem_take nodup to_i]
  have woken := (held (fresh_before fresh)).fltOn at_q hdl (perm_eraseP back) (perm_setFirst back)
    (key_of_find? back) single off iface src dst
  exact woken.congr rfl rfl fun a b _ => waking_back to_i apart a b

end Waking

theorem peersOf_getElem? {n : Net K A I} {cp : ClientInfo K A I} {i : Nat} {l : OffloadLinkInfo K}
    (peers : (n.links p).map (·.peerPointer) = peersOf c) (at_p : n.client p = some cp)
    (at_i : cp.link[i]? = some l) : (peersOf c)[i]? = some l.peerPointer := by
  rw [← peers, links_eq at_p, List.getElem?_map, at_i]
  rfl

theorem addFltRules_held (h : f.net.Kept) (succeed : answers.Succeed) (at_p : f.deref p = some c)
    (asleep : c.isPowersave = true) {res : Bool} (run : f.addFltRules answers p = some (res, f')) :
    res = true ∧ f'.net.bare = f.net.bare ∧ f'.net.linkCount = f.net.linkCount ∧
      (Fresh id (ledger f'.net.calls) → f'.net.Holds (waking p f.net.on (peersOf c) (2 * c.link.length))) := by
  have saves_p : f.net.saves p = true := (saves_eq (client_net p ▸ at_p)).trans asleep
  have single : ∀ q, f.net.linkCount p q ≤ 1 := fun q => h.rested.single p q saves_p
  have single' : ∀ q, f.net.linkCount q p ≤ 1 := fun q => h.paired.linksMutual p q ▸ single q
  have nodup := nodup_peersOf at_p single
  -- after `k` directions the rules of the first `k` are back
  have steps : FltSteps answers p fun k (n : Net K A I) => n.linkCount = f.net.linkCount ∧
      (n.links p).map (·.peerPointer) = peersOf c ∧
      (Fresh id (ledger n.calls) → n.Holds (waking p f.net.on (peersOf c) k)) := by
    constructor
    · rintro i n cp cq l hdl ⟨counts, peers, held⟩ at_p' at_i at_q apart -
      have same : ∀ e, cp.link[i]? = some e →
          ({ l with fltRuleHdl := hdl } : OffloadLinkInfo K).peerPointer = e.peerPointer := by
        intro e at_e
        rw [Option.some.inj (at_i.symm.trans at_e)]
      refine ⟨?_, ?_, waking_step_own held at_p' at_i (peersOf_getElem? peers at_p' at_i) nodup
        (counts ▸ single _)⟩
      · rw [linkCount_rewrite (n := n.call _) at_p', linkCount_call, counts]
        exact countP_set _ i same
      · rw [← peers, links_put, if_pos rfl, links_eq at_p']
        exact map_set _ i same
    · rintro i n cp cq l r hdl ⟨counts, peers, held⟩ at_p' at_i at_q apart back -
      have r_to : ({ r with fltRuleHdl := hdl } : OffloadLinkInfo K).peerPointer = p := by
        have to_p : r.peerPointer = p := key_of_find? back
        exact to_p
      refine ⟨?_, ?_, waking_step_back held at_q back (peersOf_getElem? peers at_p' at_i) apart nodup
        (counts ▸ single' _)⟩
      · rw [linkCount_rewrite (n := n.call _) at_q, linkCount_call, counts]
        exact countP_setFirst r_to cq.link
      · rw [← peers, links_put, if_neg (Ne.symm apart)]
        rfl
  obtain ⟨res', f₁, run₁, bare₁, counts₁, -, refused, done⟩ := addFltRules_rule steps
    h.paired at_p ⟨rfl, by rw [links_eq (client_net p ▸ at_p)], fun fresh =>
      (h.held fresh).congr rfl rfl fun a b _ => by
        simp only [waking]
        by_cases a_p : a = p
        · simp [a_p, on, saves_p]
        · by_cases b_p : b = p <;> simp [a_p, b_p, on, saves_p]⟩
  obtain ⟨rfl, rfl⟩ : res' = res ∧ f₁ = f' := by simpa using run₁.symm.trans run
  -- the loop does not break off: every rule is granted
  cases res' with
  | false =>
    obtain ⟨j, refused⟩ := refused rfl
    have taken := succeed.fltAdd j
    simp [refused] at taken
  | true => exact ⟨rfl, bare₁, counts₁, (done rfl).2.2⟩

variable [DecidableEq A]

theorem eraseIfUnused_kept (h : f.net.Kept) (run : f.eraseIfUnused p = some f') : f'.net.Kept := by
  obtain ⟨c, at_p, same | ⟨inactive, awake, no_peers, net'⟩⟩ := eraseIfUnused_cases run
  · rwa [same]
  · rw [net']
    exact h.drop at_p (h.paired.idle p c at_p inactive awake) no_peers

end Family

/-! ### The condition on power save -/

variable [DecidableEq A]

/-- No link of the client has an end that saves power. -/
def Family.LinksAwake (f : Family K A I) (c : ClientInfo K A I) : Prop :=
  ∀ l ∈ c.link, c.isPowersave = false ∧ ∀ d, f.deref l.peerPointer = some d → d.isPowersave = false

/-- The event takes no link down, and lets no end of one save power, of which an end saves power
already. A client that saves power and has links does not become active without a recover, and one
with two links to the same client does not save power. -/
def Family.RulesInPlace (config : Config K A I) (f : Family K A I) : Event A I → Prop
  | .clientActive ip mac _ => ∀ p c, f.find (config.key ip) = some p → f.deref p = some c →
      if c.isActive = true then c.macAddr ≠ mac → f.LinksAwake c
      else c.isPowersave = true → c.link = []
  | .clientInactive ip | .clientDisconnect ip => ∀ p c, f.find (config.key ip) = some p →
      f.deref p = some c → f.LinksAwake c
  | .clientPowerSave ip => ∀ p c, f.find (config.key ip) = some p → f.deref p = some c →
      f.LinksAwake c ∧ ∀ q, c.link.countP (linkTo q) ≤ 1
  | .delConnection src dst => ∀ p q c d, f.find (config.key src) = some p →
      f.find (config.key dst) = some q → f.deref p = some c → f.deref q = some d →
      (∃ e, c.peer.find? (peerTo q) = some e ∧ toInt32 (e.numConnection - 1) = 0) →
      ∀ l ∈ c.link, l.peerPointer = q → c.isPowersave = false ∧ d.isPowersave = false
  | _ => True

namespace Family

variable {config : Config K A I} {answers : Answers} {f f' : Family K A I} {p q : Ptr K}
  {c d : ClientInfo K A I}

theorem LinksAwake.installed (awake : f.LinksAwake c) (paired : f.net.Paired)
    (at_p : f.deref p = some c) {q : Ptr K} (linked : 0 < f.net.linkCount p q) :
    f.net.on p q = true := by
  have back : 0 < f.net.linkCount q p := by rwa [paired.linksMutual]
  obtain ⟨d, at_q⟩ := client_of_linkCount back
  rw [linkCount_eq (client_net p ▸ at_p)] at linked
  obtain ⟨l, member, rfl⟩ := countP_hasKey_pos.mp linked
  obtain ⟨p_awake, q_awake⟩ := awake l member
  rw [on_iff, saves_eq (client_net p ▸ at_p), saves_eq at_q]
  exact ⟨p_awake, q_awake d at_q⟩

/-! ### The events -/

theorem handleClientActive_kept (h : f.net.Kept) (succeed : answers.Succeed) {ip : A}
    {mac : MacAddr} {iface : I} (inPlace : f.RulesInPlace config (.clientActive ip mac iface))
    (run : f.handleClientActive config answers ip mac iface = some f') : f'.net.Kept := by
  cases handleClientActive_cases run with
  | appeared absent net' =>
    rw [net']
    exact h.insert (find_eq_none absent rfl) rfl rfl (fun _ => rfl)
  | repeated same => rwa [same]
  | replaced p c d f₁ f₂ found at_p active other run₁ run₂ at_p₂ net' =>
    have awake := inPlace p c found at_p
    rw [if_pos active] at awake
    obtain ⟨kept₁, at_p₁⟩ := turnoffOffloadLinks_kept h succeed at_p
      (fun q linked => (awake other).installed h.paired at_p linked) run₁
    obtain ⟨kept₂, at_p₂'⟩ := clearPeerList_kept kept₁ at_p₁ run₂
    obtain rfl := Option.some.inj (at_p₂.symm.trans at_p₂')
    rw [net']
    exact kept₂.put at_p₂ rfl rfl (fun _ _ => rfl) (fun _ => rfl) (fun some_link => absurd rfl some_link)
  | returned p c f₁ f₂ found at_p inactive net₁ run₂ net' =>
    have no_links := inPlace p c found at_p
    rw [inactive, if_neg (by simp)] at no_links
    have kept₁ : f₁.net.Kept := by
      rw [net₁]
      refine h.put at_p rfl rfl (by simp [renewed]) (fun _ => rfl) fun some_link => ?_
      cases asleep : c.isPowersave with
      | true => exact absurd (no_links asleep) some_link
      | false => rfl
    have at_p₁ : f₁.deref p = some (renewed c ip mac iface) := by
      rw [← client_net, net₁, client_put_self]
    rw [net']
    exact checkPotentialLink_kept kept₁ succeed at_p₁ rfl run₂

theorem handleClientInactive_kept (h : f.net.Kept) (succeed : answers.Succeed) {ip : A}
    (inPlace : f.RulesInPlace config (.clientInactive ip))
    (run : f.handleClientInactive config answers ip = some f') : f'.net.Kept := by
  have stays : ∀ {p c d f₁}, f.find (config.key ip) = some p → f.deref p = some c →
      f.turnoffOffloadLinks answers p = some f₁ → f₁.deref p = some d →
      d.link = [] ∧ (f₁.net.put p { d with isActive := false }).Kept := by
    intro p c d f₁ found at_p run₁ at_p₁
    obtain ⟨kept₁, at_p₁'⟩ := turnoffOffloadLinks_kept h succeed at_p
      (fun q linked => (inPlace p c found at_p).installed h.paired at_p linked) run₁
    obtain rfl := Option.some.inj (at_p₁.symm.trans at_p₁')
    exact ⟨rfl, kept₁.put at_p₁ rfl rfl (fun _ _ => rfl) (by simp) (fun some_link => absurd rfl some_link)⟩
  cases handleClientInactive_cases run with
  | absent same => rwa [same]
  | stays p c d f₁ found at_p run₁ at_p₁ net' =>
    rw [net']
    exact (stays found at_p run₁ at_p₁).2
  | leaves p c d f₁ found at_p run₁ at_p₁ no_peers net' =>
    obtain ⟨no_links, kept⟩ := stays found at_p run₁ at_p₁
    rw [net']
    exact kept.drop (client_put_self _ _ _) no_links no_peers

theorem handleClientDisconnect_kept (h : f.net.Kept) (succeed : answers.Succeed) {ip : A}
    (inPlace : f.RulesInPlace config (.clientDisconnect ip))
    (run : f.handleClientDisconnect config answers ip = some f') : f'.net.Kept := by
  cases handleClientDisconnect_cases run with
  | absent same => rwa [same]
  | left p c f₁ f₂ found at_p run₁ run₂ eq =>
    obtain ⟨kept₁, at_p₁⟩ := turnoffOffloadLinks_kept h succeed at_p
      (fun q linked => (inPlace p c found at_p).installed h.paired at_p linked) run₁
    obtain ⟨kept₂, at_p₂⟩ := clearPeerList_kept kept₁ at_p₁ run₂
    rw [eq, net_erase (find_of_deref at_p₂)]
    exact kept₂.drop at_p₂ rfl rfl

theorem handleClientPowerSave_kept (h : f.net.Kept) (succeed : answers.Succeed) {ip : A}
    (inPlace : f.RulesInPlace config (.clientPowerSave ip))
    (run : f.handleClientPowerSave config answers ip = some f') : f'.net.Kept := by
  cases handleClientPowerSave_cases run with
  | absent same => rwa [same]
  | failed p c found at_p run₁ =>
    obtain ⟨awake, single⟩ := inPlace p c found at_p
    obtain ⟨no, -⟩ := removeFltRules_held h succeed at_p (fun q linked => awake.installed h.paired at_p linked)
      (fun q => linkCount_eq (client_net p ▸ at_p) q ▸ single q) run₁
    cases no
  | saved p c d f₁ found at_p run₁ at_p₁ net' =>
    obtain ⟨awake, single⟩ := inPlace p c found at_p
    have installed : ∀ q, 0 < f.net.linkCount p q → f.net.on p q = true :=
      fun q linked => awake.installed h.paired at_p linked
    have single : ∀ q, f.net.linkCount p q ≤ 1 :=
      fun q => linkCount_eq (client_net p ▸ at_p) q ▸ single q
    obtain ⟨-, ⟨calls, net₁⟩, held₁⟩ := removeFltRules_held h succeed at_p installed single run₁
    -- the loop only makes calls: clients and links are as they were
    have same_client : f₁.net.client = f.net.client := by rw [net₁, client_call]
    obtain rfl : c = d := by
      rw [← client_net, same_client, client_net, at_p] at at_p₁
      exact Option.some.inj at_p₁
    have links₁ : f₁.net.links = f.net.links := by
      funext a
      rw [links, same_client]
      rfl
    have links' : f'.net.links = f.net.links := by
      have own : f₁.net.links p = c.link := links_eq at_p₁
      rw [net', ← links₁]
      exact links_put_same own.symm
    have counts : f'.net.linkCount = f.net.linkCount := by
      funext a b
      rw [linkCount, links']
      rfl
    have saves : ∀ a, f'.net.saves a = if a = p then true else f.net.saves a := by
      intro a
      rw [net', saves_put, saves, saves, same_client]
    have paired' : f'.net.Paired := by
      have still : (f.net.call calls).client p = some c := at_p
      rw [net', net₁]
      exact (h.paired.call calls).put still rfl rfl (by simp)
    -- `p` had no sleeping neighbour, so it is the only sleeping end of its links
    refine ⟨paired', ⟨?_, ?_, ?_⟩, ?_⟩
    · intro a e at_a active
      rw [net', client_put, same_client] at at_a
      split at at_a
      · cases at_a
        cases active
      · exact h.rested.modes a e at_a active
    · intro a b asleep
      rw [saves] at asleep
      rw [counts]
      split at asleep
      next here =>
        rw [here]
        exact single b
      next => exact h.rested.single a b asleep
    · intro a b asleep linked
      rw [counts] at linked
      rw [saves] at asleep ⊢
      split at asleep
      next here =>
        rw [here] at linked
        have apart : b ≠ p := fun same => by
          rw [same, h.paired.linksApart] at linked
          omega
        rw [if_neg apart]
        exact (on_iff.mp (installed b linked)).2
      next other =>
        have apart : b ≠ p := fun same => by
          rw [same, h.paired.linksMutual] at linked
          rw [(on_iff.mp (installed a linked)).2] at asleep
          cases asleep
        rw [if_neg apart]
        exact h.rested.oneSide a b asleep linked
    · intro fresh
      have calls' : f'.net.calls = f₁.net.calls := by rw [net', calls_put]
      rw [calls'] at fresh
      refine (held₁ fresh).congr (links'.trans links₁.symm) calls' fun a b _ => ?_
      simp only [dozing, on, saves]
      by_cases a_p : a = p
      · simp [a_p]
      · by_cases b_p : b = p <;> simp [a_p, b_p]

end Family

end Hima.LanToLan
