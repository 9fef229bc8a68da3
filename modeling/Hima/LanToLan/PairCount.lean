import Hima.LanToLan.HandlerCases
import Hima.LanToLan.Symmetry
import Mathlib.Data.Sym.Sym2

/-!
# The number of offloaded pairs

`num_offload_pair` counts the pairs of clients that are linked, as long as no client that comes
back still holds its links: `check_potential_link` does not ask whether a pair is linked already.
-/
namespace Hima.LanToLan

open Slots FirstMatch Runs Net

set_option linter.unusedSectionVars false

variable {K A I : Type} [DecidableEq K] [DecidableEq A]

/-! ### The property -/

/-- The pairs of clients with a link between them. -/
def Family.linkedPairs (f : Family K A I) : Finset (Sym2 (Ptr K)) :=
  (f.clientInfo.entries.flatMap fun e =>
    e.2.link.map fun l => s(⟨e.1, e.2.node⟩, l.peerPointer)).toFinset

/-- No pair is linked twice, the counter counts the linked pairs, and it stays in its bound. -/
structure Family.PairsCounted (f : Family K A I) : Prop where
  once : ∀ p c q, f.deref p = some c → c.link.countP (linkTo q) ≤ 1
  counted : f.numOffloadPair.toNat = f.linkedPairs.card
  bounded : f.numOffloadPair ≤ maxOffloadPair

/-! ### Counted nets -/

namespace Net

structure Counted (n : Net K A I) : Prop where
  once : ∀ p q, n.linkCount p q ≤ 1
  pairs : ∃ linked : Finset (Sym2 (Ptr K)), (∀ p q, s(p, q) ∈ linked ↔ 0 < n.linkCount p q) ∧
    linked.card = n.num.toNat
  bounded : n.num.toNat ≤ 3

/-- Only clients that know each other are linked. -/
def Known (n : Net K A I) : Prop := ∀ p q, 0 < n.linkCount p q → n.peerNum p q ≠ none

theorem room_iff {num : UInt8} : ¬ maxOffloadPair ≤ num ↔ num.toNat < 3 := by
  rw [UInt8.le_iff_toNat_le]
  simp [maxOffloadPair]

variable {n n' : Net K A I} {p q : Ptr K} {cp cq : ClientInfo K A I}

theorem Counted.congr (h : n.Counted) (counts : n'.linkCount = n.linkCount) (num : n'.num = n.num) :
    n'.Counted where
  once := by rw [counts]; exact h.once
  pairs := by rw [counts, num]; exact h.pairs
  bounded := by rw [num]; exact h.bounded

theorem Known.congr (h : n.Known) (counts : n'.linkCount = n.linkCount) (peers : n'.peers = n.peers) :
    n'.Known := by
  intro a b linked
  rw [counts] at linked
  simpa only [peerNum, peers] using h a b linked

theorem Counted.linkUp (h : n.Counted) (paired : n.Paired) (at_p : n.client p = some cp)
    (at_q : n.client q = some cq) (apart : p ≠ q) {l r : OffloadLinkInfo K}
    (l_to : l.peerPointer = q) (r_to : r.peerPointer = p) (room : ¬ maxOffloadPair ≤ n.num)
    (unlinked : n.linkCount p q = 0) (calls : List (LanCall A I)) :
    (((n.call calls).linkUp p q cp cq l r).count (n.num + 1)).Counted := by
  have counts := linkCount_linkUp (n := n.call calls) at_p at_q apart l_to r_to
  have unlinked' : n.linkCount q p = 0 := by rw [paired.linksMutual, unlinked]
  have room := room_iff.mp room
  refine ⟨fun a b => ?_, ?_, ?_⟩
  · have before := h.once a b
    rw [linkCount_count, counts, linkCount_call]
    by_cases forth : a = p ∧ b = q
    · obtain ⟨rfl, rfl⟩ := forth
      simp [unlinked, apart]
    · by_cases back : a = q ∧ b = p
      · obtain ⟨rfl, rfl⟩ := back
        simp [unlinked', Ne.symm apart]
      · simpa [forth, back] using before
  · obtain ⟨linked, mem_linked, card⟩ := h.pairs
    refine ⟨insert s(p, q) linked, fun a b => ?_, ?_⟩
    · rw [linkCount_count, counts, linkCount_call, Finset.mem_insert, Sym2.eq_iff, mem_linked]
      split <;> split <;> simp_all
    · have fresh : s(p, q) ∉ linked := by
        rw [mem_linked, unlinked]
        omega
      rw [Finset.card_insert_of_notMem fresh, card, num_count, UInt8.toNat_add]
      simp only [UInt8.toNat_one]
      omega
  · rw [num_count, UInt8.toNat_add]
    simp only [UInt8.toNat_one]
    omega

theorem Counted.unlink (h : n.Counted) (paired : n.Paired) (at_p : n.client p = some cp)
    (at_q : n.client q = some cq) (apart : p ≠ q) (linked_pq : 0 < n.linkCount p q)
    (calls : List (LanCall A I)) :
    (((n.call calls).unlink p q cp cq).count (n.num - 1)).Counted := by
  have counts := linkCount_unlink (n := n.call calls) at_p at_q apart
  have linked_qp : 0 < n.linkCount q p := by rwa [paired.linksMutual]
  obtain ⟨linked, mem_linked, card⟩ := h.pairs
  have member : s(p, q) ∈ linked := (mem_linked p q).mpr linked_pq
  have positive : 0 < n.num.toNat := card ▸ Finset.card_pos.mpr ⟨_, member⟩
  have less : (n.num - 1).toNat = n.num.toNat - 1 := by
    rw [UInt8.toNat_sub_of_le]
    · rfl
    · exact positive
  refine ⟨fun a b => ?_, ⟨linked.erase s(p, q), fun a b => ?_, ?_⟩, ?_⟩
  · rw [linkCount_count, counts, linkCount_call]
    exact le_trans (Nat.sub_le _ _) (h.once a b)
  · have once := h.once a b
    rw [linkCount_count, counts, linkCount_call, Finset.mem_erase, Ne, Sym2.eq_iff, mem_linked]
    split <;> split <;> simp_all
  · rw [Finset.card_erase_of_mem member, card, num_count, less]
  · have bounded := h.bounded
    rw [num_count, less]
    omega

theorem Known.unlink (h : n.Known) (at_p : n.client p = some cp) (at_q : n.client q = some cq)
    (apart : p ≠ q) : (n.unlink p q cp cq).Known := by
  intro a b linked
  rw [linkCount_unlink at_p at_q apart] at linked
  have known := h a b (lt_of_lt_of_le linked (Nat.sub_le _ _))
  simpa only [peerNum, peers_unlink at_p at_q] using known

end Net

namespace Family

theorem mem_linkedPairs {f : Family K A I} {p q : Ptr K} :
    s(p, q) ∈ f.linkedPairs ↔ 0 < f.net.linkCount p q ∨ 0 < f.net.linkCount q p := by
  have counted : ∀ a b, 0 < f.net.linkCount a b ↔
      ∃ c, f.deref a = some c ∧ ∃ l ∈ c.link, l.peerPointer = b := by
    intro a b
    constructor
    · intro linked
      obtain ⟨c, at_a⟩ := client_of_linkCount linked
      rw [linkCount_eq at_a] at linked
      exact ⟨c, at_a, countP_hasKey_pos.mp linked⟩
    · rintro ⟨c, at_a, linked⟩
      rw [linkCount_eq (client_net a ▸ at_a)]
      exact countP_hasKey_pos.mpr linked
  simp only [linkedPairs, List.mem_toFinset, List.mem_flatMap, List.mem_map, counted, Sigma.exists]
  constructor
  · rintro ⟨key, c, entry, l, member, pair⟩
    have at_key : f.deref ⟨key, c.node⟩ = some c :=
      deref_of_lookup (AList.mem_lookup_iff.mpr entry)
    rcases Sym2.eq_iff.mp pair with ⟨rfl, to_q⟩ | ⟨rfl, to_p⟩
    · exact .inl ⟨c, at_key, l, member, to_q⟩
    · exact .inr ⟨c, at_key, l, member, to_p⟩
  · rintro (⟨c, at_p, l, member, to_q⟩ | ⟨c, at_q, l, member, to_p⟩)
    · refine ⟨p.key, c, AList.mem_lookup_iff.mp (lookup_of_deref at_p), l, member, ?_⟩
      rw [node_of_deref at_p, to_q]
    · refine ⟨q.key, c, AList.mem_lookup_iff.mp (lookup_of_deref at_q), l, member, ?_⟩
      rw [node_of_deref at_q, to_p, Sym2.eq_swap]

end Family

theorem Net.Counted.pairsCounted {f : Family K A I} (h : f.net.Counted) (paired : f.net.Paired) :
    f.PairsCounted where
  once p c q at_p := by
    have once := h.once p q
    rwa [linkCount_eq (Family.client_net p ▸ at_p)] at once
  counted := by
    obtain ⟨linked, mem_linked, card⟩ := h.pairs
    have same : f.linkedPairs = linked := by
      ext pair
      induction pair with
      | h p q => rw [Family.mem_linkedPairs, mem_linked, paired.linksMutual q p, or_self]
    rw [same, card]
    rfl
  bounded := by
    exact h.bounded

/-! ### The condition on returning clients -/

/-- No peer that `check_potential_link` would link is linked already. -/
def Family.Unlinked (f : Family K A I) (c : ClientInfo K A I) : Prop :=
  ¬ maxOffloadPair ≤ f.numOffloadPair → ∀ e ∈ c.peer, 0 < e.numConnection →
    f.activeAt e.peerPointer = true → c.link.countP (linkTo e.peerPointer) = 0

/-- A client that comes back, from power save or because it is active again, holds no link to an
active peer. -/
def Family.ReturnsUnlinked (config : Config K A I) (f : Family K A I) : Event A I → Prop
  | .clientActive ip _ _ => ∀ p c, f.find (config.key ip) = some p → f.deref p = some c →
      c.isActive = false → f.Unlinked c
  | .clientPowerRecover ip => ∀ p c, f.find (config.key ip) = some p → f.deref p = some c →
      c.isActive = false → c.isPowersave = true → f.Unlinked c
  | _ => True

/-! ### One event -/

/-- The net of a family between two events. -/
structure Net.Tallied (n : Net K A I) : Prop where
  paired : n.Paired
  counted : n.Counted
  known : n.Known

theorem Net.Tallied.congr {n n' : Net K A I} (h : n.Tallied) (bare : n'.bare = n.bare)
    (counts : n'.linkCount = n.linkCount) (num : n'.num = n.num) : n'.Tallied :=
  ⟨h.paired.of_counts bare counts, h.counted.congr counts num,
    h.known.congr counts (peers_of_bare bare)⟩

/-- The links and the peers are what they were. -/
theorem Net.Tallied.of_same {n n' : Net K A I} (h : n.Tallied) (paired : n'.Paired)
    (links : n'.links = n.links) (peers : n'.peers = n.peers) (num : n'.num = n.num) : n'.Tallied := by
  have counts : n'.linkCount = n.linkCount := by
    funext a b
    rw [linkCount, links]
    rfl
  exact ⟨paired, h.counted.congr counts num, h.known.congr counts peers⟩

theorem Net.Tallied.put {n : Net K A I} {p : Ptr K} {c d : ClientInfo K A I} (h : n.Tallied)
    (at_p : n.client p = some c) (link : d.link = c.link) (peer : d.peer = c.peer)
    (idle : d.isActive = false → d.isPowersave = false → c.link = []) : (n.put p d).Tallied :=
  h.of_same (h.paired.put at_p link peer idle) (links_put_same (link.trans (links_eq at_p).symm))
    (peers_put_same (peer.trans (peers_eq at_p).symm)) rfl

theorem Net.Tallied.insert {n : Net K A I} {p : Ptr K} {c : ClientInfo K A I} (h : n.Tallied)
    (absent : n.client p = none) (link : c.link = []) (peer : c.peer = []) :
    (n.put p c).Tallied :=
  h.of_same (h.paired.insert absent link peer)
    (links_put_same (link.trans (links_of_absent absent).symm))
    (peers_put_same (peer.trans (peers_of_absent absent).symm)) rfl

theorem Net.Tallied.drop {n : Net K A I} {p : Ptr K} {c : ClientInfo K A I} (h : n.Tallied)
    (at_p : n.client p = some c) (link : c.link = []) (peer : c.peer = []) :
    (n.drop p).Tallied :=
  h.of_same (h.paired.drop at_p link peer) (links_drop_same ((links_eq at_p).trans link))
    (peers_drop_same ((peers_eq at_p).trans peer)) rfl

namespace Family

variable {config : Config K A I} {answers : Answers} {f f' : Family K A I} {p q : Ptr K}
  {c d : ClientInfo K A I}

theorem turnoffOffloadLinks_tallied (h : f.net.Tallied) (at_p : f.deref p = some c)
    (torn : Torn answers c) (run : f.turnoffOffloadLinks answers p = some f') :
    f'.net.Tallied ∧ f'.deref p = some { c with link := [] } := by
  obtain ⟨f₁, run₁, at_p₁, paired₁, ⟨counted₁, known₁⟩, -⟩ := turnoffOffloadLinks_rule
    (fun n => n.Counted ∧ n.Known)
    (fun n cp cq l r rest paired kept at_p links at_q apart back => by
      have linked : 0 < n.linkCount p l.peerPointer := by
        rw [linkCount_eq at_p, links]
        exact countP_hasKey_pos.mpr ⟨l, by simp, rfl⟩
      exact ⟨kept.1.unlink paired at_p at_q (Ne.symm apart) linked _,
        Known.unlink (n := n.call _) kept.2 at_p at_q (Ne.symm apart)⟩)
    h.paired at_p torn ⟨h.counted, h.known⟩
  obtain rfl := Option.some.inj (run₁.symm.trans run)
  exact ⟨⟨paired₁, counted₁, known₁⟩, at_p₁⟩

theorem clearPeerList_tallied (h : f.net.Tallied) (at_p : f.deref p = some c) (link : c.link = [])
    (run : f.clearPeerList p = some f') :
    f'.net.Tallied ∧ f'.deref p = some { c with peer := [] } := by
  have no_links : ∀ q, f.net.linkCount p q = 0 := by
    intro q
    rw [linkCount_eq (client_net p ▸ at_p), link]
    rfl
  obtain ⟨f₁, run₁, at_p₁, paired₁, counted₁, known₁, -⟩ := clearPeerList_rule
    (fun n => n.Counted ∧ n.Known ∧ ∀ q, n.linkCount p q = 0)
    (fun n cp cq e rest paired kept at_p entries at_q apart => by
      obtain ⟨counted, known, no_links⟩ := kept
      have step := paired.unpeer_step at_p at_q (Ne.symm apart)
      refine ⟨counted.congr step.linkCount step.num_eq, fun a b linked => ?_, fun q => by
        rw [step.linkCount, no_links]⟩
      rw [step.linkCount] at linked
      rw [step.peerNum, if_neg]
      · exact known a b linked
      · rintro (⟨rfl, rfl⟩ | ⟨rfl, rfl⟩)
        · rw [no_links] at linked
          omega
        · rw [paired.linksMutual, no_links] at linked
          omega)
    h.paired at_p ⟨h.counted, h.known, no_links⟩
  obtain rfl := Option.some.inj (run₁.symm.trans run)
  exact ⟨⟨paired₁, counted₁, known₁⟩, at_p₁⟩

theorem checkPotentialLink_tallied (h : f.net.Tallied) (succeed : answers.Succeed)
    (at_p : f.deref p = some c) (p_active : c.isActive = true) {activeBefore : Ptr K → Bool}
    (agree : ∀ e ∈ c.peer, activeBefore e.peerPointer = f.activeAt e.peerPointer)
    (unlinked : ¬ maxOffloadPair ≤ f.numOffloadPair → ∀ e ∈ c.peer, 0 < e.numConnection →
      activeBefore e.peerPointer = true → c.link.countP (linkTo e.peerPointer) = 0)
    (run : f.checkPotentialLink answers p = some f') : f'.net.Tallied := by
  have distinct : (c.peer.map (·.peerPointer)).Nodup := by
    refine nodup_of_countP_le_one fun b => ?_
    have once := h.paired.peersOnce p b
    rwa [peers_eq (client_net p ▸ at_p)] at once
  have entry_known : ∀ e ∈ c.peer, f.net.peerNum p e.peerPointer ≠ none := by
    intro e member
    have present : (c.peer.find? (peerTo e.peerPointer)).isSome := by
      simp only [List.find?_isSome]
      exact ⟨e, member, by simp⟩
    rw [peerNum_eq (client_net p ▸ at_p)]
    simpa using Option.ne_none_iff_isSome.mpr present
  have known : ∀ e ∈ c.peer, e.peerPointer ≠ p ∧ activeBefore e.peerPointer = f.activeAt e.peerPointer ∧
      ∃ d, f.deref e.peerPointer = some d := by
    intro e member
    obtain ⟨apart, d, -, at_q, -⟩ := h.paired.backPeer (client_net p ▸ at_p) member
    exact ⟨apart, agree e member, d, at_q⟩
  -- the entries still to come are not linked yet
  obtain ⟨f₁, run₁, ⟨counted₁, known₁, -⟩, paired₁, bare₁⟩ := checkPotentialLinkFrom_rule answers
    (fun entries n => n.Counted ∧ n.Known ∧ n.peers = f.net.peers ∧
      f.numOffloadPair.toNat ≤ n.num.toNat ∧ (entries.map (·.peerPointer)).Nodup ∧
      (∀ e ∈ entries, e ∈ c.peer) ∧
      (¬ maxOffloadPair ≤ f.numOffloadPair → ∀ e ∈ entries, 0 < e.numConnection →
        activeBefore e.peerPointer = true → n.linkCount p e.peerPointer = 0))
    activeBefore
    (fun e rest n kept => by
      obtain ⟨counted, known, peers, grown, distinct, members, fresh⟩ := kept
      exact ⟨counted, known, peers, grown, (List.nodup_cons.mp distinct).2,
        fun e' member => members e' (by simp [member]),
        fun room e' member => fresh room e' (by simp [member])⟩)
    (fun i e rest n calls refused => by simp [succeed.add] at refused)
    (fun e rest n cp cq l r paired kept at_p at_q _ _ apart wanted is_active room l_to r_to => by
      obtain ⟨counted, known, peers, grown, distinct, members, fresh⟩ := kept
      have room₀ : ¬ maxOffloadPair ≤ f.numOffloadPair :=
        room_iff.mpr (lt_of_le_of_lt grown (room_iff.mp room))
      have unlinked := fresh room₀ e (by simp) wanted is_active
      have counts := linkCount_linkUp (n := n.call (addCalls cp cq l ++ addCalls cq cp r)) at_p
        at_q (Ne.symm apart) l_to r_to
      have peers' := peers_linkUp (n := n.call (addCalls cp cq l ++ addCalls cq cp r)) at_p at_q l r
      refine ⟨counted.linkUp paired at_p at_q (Ne.symm apart) l_to r_to room unlinked _,
        fun a b linked => ?_, ?_, ?_, (List.nodup_cons.mp distinct).2,
        fun e' member => members e' (by simp [member]), fun _ e' member wanted' active' => ?_⟩
      · have entry := entry_known e (members e (by simp))
        have same_num : ∀ a b, peerNum (((n.call (addCalls cp cq l ++ addCalls cq cp r)).linkUp p
            e.peerPointer cp cq l r).count (n.num + 1)) a b = n.peerNum a b := by
          intro a b
          simp only [peerNum, peers_count, peers', peers_call]
        rw [same_num]
        by_cases pair : a = p ∧ b = e.peerPointer ∨ a = e.peerPointer ∧ b = p
        · rcases pair with ⟨rfl, rfl⟩ | ⟨rfl, rfl⟩
          · simpa only [peerNum, peers] using entry
          · rw [paired.peersMutual]
            simpa only [peerNum, peers] using entry
        · rw [not_or] at pair
          rw [linkCount_count, counts, if_neg pair.1, if_neg pair.2] at linked
          exact known a b linked
      · rw [peers_count, peers', peers_call, peers]
      · have below := room_iff.mp room
        rw [num_count, UInt8.toNat_add]
        simp only [UInt8.toNat_one]
        omega
      · have other : e'.peerPointer ≠ e.peerPointer := by
          intro same
          exact (List.nodup_cons.mp distinct).1 (List.mem_map.mpr ⟨e', member, same⟩)
        have before := fresh room₀ e' (by simp [member]) wanted' active'
        rw [linkCount_count, counts, linkCount_call, before]
        simp [other, Ne.symm apart])
    h.paired at_p p_active known (addsAlike_of_succeed succeed _ _ _ _)
    ⟨h.counted, h.known, rfl, le_refl _, distinct, fun _ member => member,
      fun room e member wanted is_active => by
        rw [linkCount_eq (client_net p ▸ at_p)]
        exact unlinked room e member wanted is_active⟩
  have run₁ : f.checkPotentialLink answers p = some f₁ := by simpa [checkPotentialLink, at_p] using run₁
  obtain rfl := Option.some.inj (run₁.symm.trans run)
  exact ⟨paired₁, counted₁, known₁⟩

/-- Only clients that know each other are linked, with the exception of one pair. -/
def KnownBut (p q : Ptr K) (n : Net K A I) : Prop :=
  ∀ a b, ¬ (a = p ∧ b = q ∨ a = q ∧ b = p) → 0 < n.linkCount a b → n.peerNum a b ≠ none

theorem KnownBut.known {n : Net K A I} (h : KnownBut p q n) (paired : n.Paired)
    (unlinked : n.linkCount p q = 0) : n.Known := by
  intro a b linked
  refine h a b ?_ linked
  rintro (⟨rfl, rfl⟩ | ⟨rfl, rfl⟩)
  · omega
  · rw [paired.linksMutual] at linked
    omega

/-- The links go with the last connection: afterwards the pair is not linked. -/
theorem eraseOffloadLink_counted {a b : DelAnswer} (gone : a.gone = true) (gone' : b.gone = true)
    (paired : f.net.Paired) (counted : f.net.Counted) (known : KnownBut p q f.net)
    (at_p : f.deref p = some c) (at_q : f.deref q = some d) (apart : p ≠ q) :
    ∃ f', f.eraseOffloadLink a b p q = some f' ∧ f'.net.Paired ∧ f'.net.Counted ∧
      KnownBut p q f'.net ∧ f'.net.linkCount p q = 0 ∧ f'.net.bare = f.net.bare := by
  obtain ⟨f', run, result⟩ := eraseOffloadLink_result a b paired at_p at_q apart
  refine ⟨f', run, ?_⟩
  generalize f'.net = n' at result ⊢
  cases result with
  | absent unlinked => exact ⟨paired, counted, known, unlinked, rfl⟩
  | erased l r calls num found back answered =>
    obtain ⟨-, rfl⟩ := answered gone gone'
    have linked : 0 < f.net.linkCount p q := by
      rw [linkCount_eq (client_net p ▸ at_p), ← find?_hasKey_isSome]
      simp [found]
    have counts := linkCount_unlink (n := f.net.call calls) at_p at_q apart
    refine ⟨((paired.call calls).unlink at_p at_q apart).count _,
      counted.unlink paired at_p at_q apart linked calls, fun x y other linked' => ?_, ?_, ?_⟩
    · rw [linkCount_count, counts] at linked'
      have before := known x y other (lt_of_lt_of_le linked' (Nat.sub_le _ _))
      simpa only [peerNum, peers_count, peers_unlink (n := f.net.call calls) at_p at_q, peers_call] using before
    · have once := counted.once p q
      rw [linkCount_count, counts, linkCount_call, if_pos ⟨rfl, rfl⟩]
      omega
    · rw [bare_count, unlink, bare_put_put (by simpa using at_q) (by simpa using at_p)
        (Ne.symm apart), bare_call]

/-- Clients that are linked are each active or in power save, so one of the cases of
`handle_del_lan2lan_connection` erases their links. -/
theorem eraseLinks_tallied (succeed : answers.Succeed) (paired : f.net.Paired)
    (counted : f.net.Counted) (known : KnownBut p q f.net) (at_p : f.deref p = some c)
    (at_q : f.deref q = some d) (apart : p ≠ q) (run : f.eraseLinks answers p q c d = some f') :
    f'.net.Tallied := by
  have awake : f.net.linkCount p q ≠ 0 → (c.isActive = true ∨ c.isPowersave = true) ∧
      (d.isActive = true ∨ d.isPowersave = true) := by
    intro linked
    have back : f.net.linkCount q p ≠ 0 := by rwa [paired.linksMutual]
    rw [linkCount_eq (client_net p ▸ at_p)] at linked
    rw [linkCount_eq (client_net q ▸ at_q)] at back
    constructor
    · by_contra idle
      simp only [not_or, Bool.not_eq_true] at idle
      exact linked (by rw [paired.idle p c at_p idle.1 idle.2]; rfl)
    · by_contra idle
      simp only [not_or, Bool.not_eq_true] at idle
      exact back (by rw [paired.idle q d at_q idle.1 idle.2]; rfl)
  unfold eraseLinks at run
  split at run
  next =>
    obtain ⟨f₁, run₁, paired₁, counted₁, known₁, unlinked₁, -⟩ := eraseOffloadLink_counted
      (succeed.del 0) (succeed.del 1) paired counted known at_p at_q apart
    obtain rfl := Option.some.inj (run₁.symm.trans run)
    exact ⟨paired₁, counted₁, known₁.known paired₁ unlinked₁⟩
  next not_both =>
    obtain ⟨f₁, first, second⟩ := Option.bind_eq_some_iff.mp run
    -- after the first case
    obtain ⟨paired₁, counted₁, known₁, at_p₁, at_q₁, first_unlinks⟩ : f₁.net.Paired ∧
        f₁.net.Counted ∧ KnownBut p q f₁.net ∧ (∃ c', f₁.deref p = some c') ∧
        (∃ d', f₁.deref q = some d') ∧
        (f₁.net.linkCount p q = 0 ∨ f₁ = f ∧
          ¬ (c.isPowersave && (d.isActive || d.isPowersave)) = true) := by
      split at first
      next =>
        obtain ⟨f₂, run₂, paired₂, counted₂, known₂, unlinked₂, bare₂⟩ := eraseOffloadLink_counted
          (succeed.del 0) (succeed.del 1) paired counted known at_p at_q apart
        obtain rfl := Option.some.inj (run₂.symm.trans first)
        obtain ⟨ls, at_p₂⟩ := client_of_bare bare₂ (client_net p ▸ at_p)
        obtain ⟨rs, at_q₂⟩ := client_of_bare bare₂ (client_net q ▸ at_q)
        exact ⟨paired₂, counted₂, known₂, ⟨_, at_p₂⟩, ⟨_, at_q₂⟩, .inl unlinked₂⟩
      next skipped =>
        obtain rfl := Option.some.inj first
        exact ⟨paired, counted, known, ⟨c, at_p⟩, ⟨d, at_q⟩, .inr ⟨rfl, skipped⟩⟩
    obtain ⟨c₁, at_p₁⟩ := at_p₁
    obtain ⟨d₁, at_q₁⟩ := at_q₁
    split at second
    next =>
      have turned : KnownBut q p f₁.net := fun a b other => known₁ a b fun pair => other pair.symm
      obtain ⟨f₂, run₂, paired₂, counted₂, known₂, unlinked₂, -⟩ := eraseOffloadLink_counted
        (succeed.del 2) (succeed.del 3) paired₁ counted₁ turned at_q₁ at_p₁ (Ne.symm apart)
      obtain rfl := Option.some.inj (run₂.symm.trans second)
      exact ⟨paired₂, counted₂, known₂.known paired₂ unlinked₂⟩
    next skipped =>
      obtain rfl := Option.some.inj second
      refine ⟨paired₁, counted₁, known₁.known paired₁ ?_⟩
      rcases first_unlinks with unlinked | ⟨rfl, not_first⟩
      · exact unlinked
      · by_contra linked
        obtain ⟨c_awake, d_awake⟩ := awake linked
        simp only [Bool.and_eq_true, Bool.or_eq_true, not_and, not_or] at not_both not_first skipped
        rcases c_awake with c_on | c_saves
        · rcases d_awake with d_on | d_saves
          · exact not_both c_on d_on
          · exact (skipped d_saves).1 c_on
        · rcases d_awake with d_on | d_saves
          · exact (not_first c_saves).1 d_on
          · exact (not_first c_saves).2 d_saves

theorem eraseIfUnused_tallied (h : f.net.Tallied) (run : f.eraseIfUnused p = some f') :
    f'.net.Tallied := by
  obtain ⟨c, at_p, same | ⟨inactive, awake, no_peers, net'⟩⟩ := eraseIfUnused_cases run
  · rwa [same]
  · rw [net']
    exact h.drop at_p (h.paired.idle p c at_p inactive awake) no_peers

/-! ### The events -/

theorem handleNewLan2lanConnection_tallied (h : f.net.Tallied) (succeed : answers.Succeed)
    {src dst : A} (apart : config.key src ≠ config.key dst)
    (run : f.handleNewLan2lanConnection config answers src dst = some f') : f'.net.Tallied := by
  -- counting the connection keeps the tally
  have step_tallied : ∀ {p q : Ptr K} {n : Net K A I},
      PeerStep p q (numUp (f.net.peerNum p q)) f.net n → n.Tallied := by
    intro p q n step
    refine ⟨step.paired, h.counted.congr step.linkCount step.num_eq, fun a b linked => ?_⟩
    rw [step.linkCount] at linked
    rw [step.peerNum]
    split
    · cases f.net.peerNum p q <;> simp [numUp]
    · exact h.known a b linked
  cases handleNewLan2lanConnection_cases run with
  | absent same => rwa [same]
  | counted p q c d first found_p found_q _ _ run₁ =>
    obtain ⟨-, -, step⟩ := addConnection_run h.paired found_p found_q apart run₁
    exact step_tallied step
  | refused p q c d f₁ found_p found_q run₁ at_p₁ at_q₁ _ _ run₂ =>
    obtain ⟨-, -, step⟩ := addConnection_run h.paired found_p found_q apart run₁
    obtain ⟨res, f₂, run₂', result⟩ := addOffloadLink_result (answers.add 0) at_p₁ at_q₁
    obtain ⟨rfl, rfl⟩ : res = false ∧ f₂ = f' := by simpa using run₂'.symm.trans run₂
    cases result with
    | full => exact step_tallied step
    | refused _ _ no => simp [succeed.add] at no
  | linked p q c d res f₁ f₂ f₃ found_p found_q run₁ at_p₁ at_q₁ p_active q_active run₂ run₃ eq =>
    obtain ⟨other, first, step⟩ := addConnection_run h.paired found_p found_q apart run₁
    have tallied₁ := step_tallied step
    have unlinked : f₁.net.linkCount p q = 0 := by
      rw [step.linkCount]
      by_contra linked
      exact h.known p q (Nat.pos_of_ne_zero linked) (Option.isNone_iff_eq_none.mp first.symm)
    obtain ⟨f₂', res', f₃', run₂', run₃', num₃, result⟩ := addBoth_result at_p₁ at_q₁ other
      (fun _ => (succeed.add 0).trans (succeed.add 1).symm)
    obtain ⟨rfl, rfl⟩ : res' = true ∧ f₂' = f₂ := by simpa using run₂'.symm.trans run₂
    obtain ⟨rfl, rfl⟩ : true = res ∧ f₃' = f₃ := by simpa using run₃'.symm.trans run₃
    generalize net₃ : f₃'.net = n₃ at result
    cases result with
    | linked l r room _ l_to r_to =>
      have net' : f'.net = ((f₁.net.call (addCalls c d l ++ addCalls d c r)).linkUp p q c d l
          r).count (f₁.net.num + 1) := by
        rw [eq, if_pos rfl, net_count, net₃, num₃]
        rfl
      have known' : f'.net.Known := by
        intro a b linked
        have same_num : f'.net.peerNum a b = f₁.net.peerNum a b := by
          simp only [peerNum, net', peers_count, peers_linkUp (n := f₁.net.call _) at_p₁ at_q₁, peers_call]
        rw [same_num]
        by_cases pair : a = p ∧ b = q ∨ a = q ∧ b = p
        · rw [step.peerNum, if_pos pair]
          cases f.net.peerNum p q <;> simp [numUp]
        · rw [not_or] at pair
          rw [net', linkCount_count, linkCount_linkUp (n := f₁.net.call _) at_p₁ at_q₁ other
            l_to r_to, if_neg pair.1, if_neg pair.2] at linked
          exact tallied₁.known a b linked
      refine ⟨?_, ?_, known'⟩
      · rw [net']
        exact ((tallied₁.paired.call _).linkUp at_p₁ at_q₁ other l_to r_to p_active q_active).count _
      · rw [net']
        exact tallied₁.counted.linkUp tallied₁.paired at_p₁ at_q₁ other l_to r_to room unlinked _

theorem handleDelLan2lanConnection_tallied (h : f.net.Tallied) (succeed : answers.Succeed)
    {src dst : A} (run : f.handleDelLan2lanConnection config answers src dst = some f') :
    f'.net.Tallied := by
  cases handleDelLan2lanConnection_cases run with
  | absent same => rwa [same]
  | counted p q found_p found_q run₁ =>
    rcases removeConnection_run h.paired found_p found_q run₁ with ⟨-, rfl⟩ | ⟨-, kept, step⟩
    -- a client has no entry for itself: nothing is found
    · exact h
    · refine ⟨step.paired, h.counted.congr step.linkCount step.num_eq, fun a b linked => ?_⟩
      rw [step.linkCount] at linked
      have before := h.known a b linked
      rw [step.peerNum]
      split
      -- an entry stays, since the last connection would have been reported
      next pair =>
        have entry : f.net.peerNum p q ≠ none := by
          rcases pair with ⟨rfl, rfl⟩ | ⟨rfl, rfl⟩
          · exact before
          · rwa [h.paired.peersMutual]
        intro gone
        rw [gone, Option.isNone_none, Bool.and_true] at kept
        simp [Option.isSome_iff_ne_none.mpr entry] at kept
      next => exact before
  | last p q c d f₁ f₂ f₃ found_p found_q run₁ at_p₁ at_q₁ run₂ run₃ run₄ =>
    obtain ⟨no, -⟩ | ⟨apart, -, step⟩ := removeConnection_run h.paired found_p found_q run₁
    · cases no
    -- the pair has no entry now, and `erase_offload_link` takes its links
    have known₁ : KnownBut p q f₁.net := by
      intro a b other linked
      rw [step.linkCount] at linked
      rw [step.peerNum, if_neg other]
      exact h.known a b linked
    have tallied₂ := eraseLinks_tallied succeed step.paired (h.counted.congr step.linkCount step.num_eq)
      known₁ at_p₁ at_q₁ apart run₂
    exact eraseIfUnused_tallied (eraseIfUnused_tallied tallied₂ run₃) run₄

theorem handleClientActive_tallied (h : f.net.Tallied) (succeed : answers.Succeed) {ip : A}
    {mac : MacAddr} {iface : I} (fresh : f.ReturnsUnlinked config (.clientActive ip mac iface))
    (run : f.handleClientActive config answers ip mac iface = some f') : f'.net.Tallied := by
  cases handleClientActive_cases run with
  | appeared absent net' =>
    rw [net']
    exact h.insert (find_eq_none absent rfl) rfl rfl
  | repeated same => rwa [same]
  | replaced p c d f₁ f₂ found at_p active other run₁ run₂ at_p₂ net' =>
    obtain ⟨tallied₁, at_p₁⟩ := turnoffOffloadLinks_tallied h at_p (fun i _ => succeed.del i) run₁
    obtain ⟨tallied₂, -⟩ := clearPeerList_tallied tallied₁ at_p₁ rfl run₂
    rw [net']
    exact tallied₂.put at_p₂ rfl rfl (by simp [renewed])
  | returned p c f₁ f₂ found at_p inactive net₁ run₂ net' =>
    have tallied₁ : f₁.net.Tallied := by
      rw [net₁]
      exact h.put at_p rfl rfl (by simp [renewed])
    have at_p₁ : f₁.deref p = some (renewed c ip mac iface) := by
      rw [← client_net, net₁, client_put_self]
    have agree : ∀ e ∈ (renewed c ip mac iface).peer, f.activeAt e.peerPointer = f₁.activeAt e.peerPointer := by
      intro e member
      have member : e ∈ c.peer := member
      obtain ⟨apart, -⟩ := h.paired.backPeer (client_net p ▸ at_p) member
      simp only [activeAt, ← client_net, net₁, client_put, if_neg apart]
    have num₁ : f₁.numOffloadPair = f.numOffloadPair := congrArg num net₁
    rw [net']
    exact checkPotentialLink_tallied tallied₁ succeed at_p₁ rfl agree
      (by rw [num₁]; exact fresh p c found at_p inactive) run₂

theorem handleClientPowerRecover_tallied (h : f.net.Tallied) (succeed : answers.Succeed) {ip : A}
    (fresh : f.ReturnsUnlinked config (.clientPowerRecover ip))
    (run : f.handleClientPowerRecover config answers ip = some f') : f'.net.Tallied := by
  cases handleClientPowerRecover_cases run with
  | ignored same => rwa [same]
  | failed p c found at_p inactive asleep run₁ =>
    obtain ⟨res, f₁, run₁', bare₁, counts₁, num₁, -⟩ := addFltRules_shape answers h.paired at_p
    obtain ⟨-, rfl⟩ : _ ∧ f₁ = f' := by
      simpa only [Option.some.injEq, Prod.mk.injEq] using run₁'.symm.trans run₁
    exact h.congr bare₁ counts₁ num₁
  | recovered p c d f₁ f₂ f₃ found at_p inactive asleep run₁ at_p₁ net₂ run₃ net' =>
    obtain ⟨res, f₁', run₁', bare₁, counts₁, num₁, -⟩ := addFltRules_shape answers h.paired at_p
    obtain ⟨-, rfl⟩ : _ ∧ f₁' = f₁ := by
      simpa only [Option.some.injEq, Prod.mk.injEq] using run₁'.symm.trans run₁
    have tallied₁ := h.congr bare₁ counts₁ num₁
    obtain ⟨link, at_p₁'⟩ := client_of_bare bare₁ (client_net p ▸ at_p)
    obtain rfl : d = { c with link := link } := Option.some.inj (at_p₁.symm.trans at_p₁')
    have tallied₂ : f₂.net.Tallied := by
      rw [net₂]
      exact tallied₁.put at_p₁ rfl rfl (by simp)
    have at_p₂ : f₂.deref p = some { c with link := link, isActive := true, isPowersave := false } := by
      rw [← client_net, net₂, client_put_self]
    have agree : ∀ e ∈ c.peer, f.activeAt e.peerPointer = f₂.activeAt e.peerPointer := by
      intro e member
      obtain ⟨apart, -⟩ := h.paired.backPeer (client_net p ▸ at_p) member
      rw [← activeAt_of_bare bare₁]
      simp only [activeAt, ← client_net, net₂, client_put, if_neg apart]
    have num₂ : f₂.numOffloadPair = f.numOffloadPair := (congrArg num net₂).trans num₁
    rw [net']
    refine checkPotentialLink_tallied tallied₂ succeed at_p₂ rfl agree (fun room e member wanted
      is_active => ?_) run₃
    have before := fresh p c found at_p inactive asleep (num₂ ▸ room) e member wanted is_active
    rw [← linkCount_eq (client_net p ▸ at_p)] at before
    have same : f₁'.net.linkCount p e.peerPointer = f.net.linkCount p e.peerPointer := by rw [counts₁]
    rw [linkCount_eq (client_net p ▸ at_p₁)] at same
    rw [← before, ← same]

/-- An event keeps the tally when the hardware does what it is asked, no client is connected to
itself and no client comes back with links. -/
theorem handle_tallied (h : f.net.Tallied) (succeed : answers.Succeed) {event : Event A I}
    (apart : event.Apart config) (fresh : f.ReturnsUnlinked config event)
    (run : f.handle config answers event = some f') : f'.net.Tallied := by
  -- links go with a client before it leaves, and come only with a first connection
  cases event with
  | clientActive ip mac iface => exact handleClientActive_tallied h succeed fresh run
  | clientInactive ip =>
    cases handleClientInactive_cases run with
    | absent same => rwa [same]
    | stays p c d f₁ found at_p run₁ at_p₁ net' =>
      obtain ⟨tallied₁, at_p₁'⟩ := turnoffOffloadLinks_tallied h at_p (fun i _ => succeed.del i) run₁
      obtain rfl := Option.some.inj (at_p₁.symm.trans at_p₁')
      rw [net']
      exact tallied₁.put at_p₁ rfl rfl (fun _ _ => rfl)
    | leaves p c d f₁ found at_p run₁ at_p₁ no_peers net' =>
      obtain ⟨tallied₁, at_p₁'⟩ := turnoffOffloadLinks_tallied h at_p (fun i _ => succeed.del i) run₁
      obtain rfl := Option.some.inj (at_p₁.symm.trans at_p₁')
      rw [net']
      have tallied₂ : (f₁.net.put p { c with link := [], isActive := false }).Tallied :=
        tallied₁.put at_p₁ rfl rfl (fun _ _ => rfl)
      exact tallied₂.drop (client_put_self _ _ _) rfl no_peers
  | clientDisconnect ip =>
    cases handleClientDisconnect_cases run with
    | absent same => rwa [same]
    | left p c f₁ f₂ found at_p run₁ run₂ eq =>
      obtain ⟨tallied₁, at_p₁⟩ := turnoffOffloadLinks_tallied h at_p (fun i _ => succeed.del i) run₁
      obtain ⟨tallied₂, at_p₂⟩ := clearPeerList_tallied tallied₁ at_p₁ rfl run₂
      rw [eq, net_erase (find_of_deref at_p₂)]
      exact tallied₂.drop at_p₂ rfl rfl
  | clientPowerSave ip =>
    cases handleClientPowerSave_cases run with
    | absent same => rwa [same]
    | failed p c found at_p run₁ =>
      obtain ⟨f₁, calls, run₁', -, net₁⟩ := removeFltRules_rule answers (fun _ _ => True)
        (fun _ _ _ _ _ _ _ _ _ _ _ _ => trivial) h.paired at_p trivial
      simp [run₁] at run₁'
    | saved p c d f₁ found at_p run₁ at_p₁ net' =>
      obtain ⟨f₁', calls, run₁', -, net₁⟩ := removeFltRules_rule answers (fun _ _ => True)
        (fun _ _ _ _ _ _ _ _ _ _ _ _ => trivial) h.paired at_p trivial
      obtain rfl : f₁' = f₁ := by simpa using run₁'.symm.trans run₁
      have tallied₁ : f₁'.net.Tallied := by
        rw [net₁]
        exact h.congr rfl rfl rfl
      rw [net']
      exact tallied₁.put at_p₁ rfl rfl (by simp)
  | clientPowerRecover ip => exact handleClientPowerRecover_tallied h succeed fresh run
  | newConnection src dst => exact handleNewLan2lanConnection_tallied h succeed apart run
  | delConnection src dst => exact handleDelLan2lanConnection_tallied h succeed run

end Family

/-! ### Runs of the component -/

theorem Net.tallied_init : (Family.init : Family K A I).net.Tallied := by
  have empty : ∀ p, (Family.init : Family K A I).deref p = none := by
    simp [Family.init, Family.deref]
  have no_links : ∀ p q, (Family.init : Family K A I).net.linkCount p q = 0 := by
    simp [linkCount, links, empty]
  refine ⟨paired_init, ⟨fun p q => by simp [no_links], ⟨∅, by simp [no_links], rfl⟩, ?_⟩, ?_⟩
  · exact Nat.zero_le 3
  · intro p q linked
    simp [no_links] at linked

namespace IpacmLanToLan

variable {I : Type}

def PairsCounted (s : IpacmLanToLan I) : Prop := s.v4.PairsCounted ∧ s.v6.PairsCounted

def ReturnsUnlinked (config : LanConfig I) (s : IpacmLanToLan I) (event : LanEvent I × Answers) :
    Prop :=
  match event.1.dispatch with
  | none => True
  | some (.inl e) => s.v4.ReturnsUnlinked config.v4 e
  | some (.inr e) => s.v6.ReturnsUnlinked config.v6 e

theorem eventCallback_tallied {config : LanConfig I} {s s' : IpacmLanToLan I}
    {event : LanEvent I × Answers} (tallied : s.v4.net.Tallied ∧ s.v6.net.Tallied)
    (smooth : Smooth config event) (fresh : s.ReturnsUnlinked config event)
    (stepped : s.eventCallback config event = some s') :
    s'.v4.net.Tallied ∧ s'.v6.net.Tallied := by
  obtain ⟨succeed, apart⟩ := smooth
  unfold ReturnsUnlinked at fresh
  unfold eventCallback at stepped
  split at stepped
  next =>
    obtain rfl := Option.some.inj stepped
    exact tallied
  next e target =>
    rw [target] at apart fresh
    obtain ⟨f, run, rfl⟩ := Option.map_eq_some_iff.mp stepped
    exact ⟨Family.handle_tallied tallied.1 succeed apart fresh run, tallied.2⟩
  next e target =>
    rw [target] at apart fresh
    obtain ⟨f, run, rfl⟩ := Option.map_eq_some_iff.mp stepped
    exact ⟨tallied.1, Family.handle_tallied tallied.2 succeed apart fresh run⟩

/-- In every run in which the hardware does what it is asked, no client is connected to itself and
no client comes back while it is linked to an active peer, the counter counts the linked pairs. -/
theorem pairs_stay_counted (config : LanConfig I) {events : List (LanEvent I × Answers)} {t : IpacmLanToLan I}
    (run : Run (eventCallback config)
      (fun s event => Smooth config event ∧ s.ReturnsUnlinked config event) .init events t) :
    t.PairsCounted := by
  have tallied := run.invariant (fun s => s.v4.net.Tallied ∧ s.v6.net.Tallied)
    (fun s event s' tallied ok stepped => eventCallback_tallied tallied ok.1 ok.2 stepped)
    ⟨tallied_init, tallied_init⟩
  exact ⟨tallied.1.counted.pairsCounted tallied.1.paired, tallied.2.counted.pairsCounted tallied.2.paired⟩

/-- Only clients that are active have peers. -/
def RestAlone (s : IpacmLanToLan I) : Prop :=
  (∀ e ∈ s.v4.clientInfo.entries, e.2.isActive = false → e.2.peer = []) ∧
    ∀ e ∈ s.v6.clientInfo.entries, e.2.isActive = false → e.2.peer = []

instance (s : IpacmLanToLan I) : Decidable s.RestAlone := inferInstanceAs (Decidable (_ ∧ _))

/-- A client without peers comes back unlinked. -/
theorem RestAlone.returnsUnlinked {s : IpacmLanToLan I} (alone : s.RestAlone) (config : LanConfig I)
    (event : LanEvent I × Answers) : s.ReturnsUnlinked config event := by
  have unlinked : ∀ {K A : Type} [DecidableEq K] [DecidableEq A] {config : Config K A I} {f : Family K A I},
      (∀ e ∈ f.clientInfo.entries, e.2.isActive = false → e.2.peer = []) →
      ∀ e, f.ReturnsUnlinked config e := by
    intro K A _ _ config f alone e
    have none_linked : ∀ p c, f.deref p = some c → c.isActive = false → f.Unlinked c := by
      intro p c at_p inactive _ e member
      have no_peers := alone ⟨p.key, c⟩ (AList.mem_lookup_iff.mp (Family.lookup_of_deref at_p)) inactive
      rw [no_peers] at member
      cases member
    cases e with
    | clientActive ip mac iface => exact fun p c _ at_p => none_linked p c at_p
    | clientPowerRecover ip => exact fun p c _ at_p inactive _ => none_linked p c at_p inactive
    | _ => trivial
  rw [ReturnsUnlinked]
  split
  · trivial
  · exact unlinked alone.1 _
  · exact unlinked alone.2 _

/-- A client saves power and comes back before it meets another one. -/
def rested : List (LanEvent Nat × Answers) :=
  [(.ipaLanClientActive (sampleClient 1 0), willing), (.ipaLanClientPowerSave (sampleClient 1 0), willing),
    (.ipaLanClientPowerRecover (sampleClient 1 0), willing)] ++ meeting willing

theorem pairs_stay_counted_sample :
    ∃ t, Run (eventCallback sampleConfig)
      (fun s event => Smooth sampleConfig event ∧ s.ReturnsUnlinked sampleConfig event)
      .init rested t ∧ t.v4.numOffloadPair = 1 ∧ t.PairsCounted := by
  have outcome : (checked (eventCallback sampleConfig) (fun s _ => s.RestAlone) rested .init).map
      (·.v4.numOffloadPair) = some 1 := by decide
  obtain ⟨t, evaluates, counted⟩ := Option.map_eq_some_iff.mp outcome
  have smooth : ∀ event ∈ rested, Smooth sampleConfig event := by
    simp only [rested, meeting, List.cons_append, List.nil_append, List.forall_mem_cons]
    exact ⟨⟨willing_succeed, trivial⟩, ⟨willing_succeed, trivial⟩, ⟨willing_succeed, trivial⟩,
      ⟨willing_succeed, trivial⟩, ⟨willing_succeed, trivial⟩,
      ⟨willing_succeed, (by decide : (1 : UInt32) ≠ 2)⟩, by simp⟩
  have run := (Run.of_checked evaluates).mono fun s event member alone =>
    And.intro (smooth event member) (alone.returnsUnlinked sampleConfig event)
  exact ⟨t, run, counted, pairs_stay_counted sampleConfig run⟩

/-- A client that saves power keeps its links; when it recovers, `check_potential_link` links it
to its active peers again. -/
def napping (answers : Answers) : List (LanEvent Nat × Answers) :=
  meeting answers ++ [(.ipaLanClientPowerSave (sampleClient 1 0), answers),
    (.ipaLanClientPowerRecover (sampleClient 1 0), answers)]

/-- With all operations of the hardware done, a client ends with two links to its one peer. -/
theorem recovered_client_linked_twice :
    ¬ ∀ (events : List (LanEvent Nat × Answers)) (t : IpacmLanToLan Nat),
      Run (eventCallback sampleConfig) (fun _ event => event.2.Succeed) .init events t → t.PairsCounted := by
  intro always
  have outcome : ((napping willing).foldlM (eventCallback sampleConfig) .init).map
      (fun t => (t.v4.deref ⟨1, 0⟩).map (·.link.countP (linkTo ⟨2, 1⟩))) = some (some 2) := by
    decide
  obtain ⟨t, evaluates, count⟩ := Option.map_eq_some_iff.mp outcome
  have succeed : ∀ event ∈ napping willing, event.2.Succeed := by
    simp [napping, meeting, willing_succeed]
  have counted := always _ t (.of_foldlM (fun event member _ => succeed event member) evaluates)
  obtain ⟨c, at_p, linked⟩ := Option.map_eq_some_iff.mp count
  have once := counted.1.once _ c ⟨2, 1⟩ at_p
  omega

end IpacmLanToLan

end Hima.LanToLan
