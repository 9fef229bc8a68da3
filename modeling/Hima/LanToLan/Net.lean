import Hima.LanToLan.Events

/-!
# What the pointers see

A `Net` is the part of a family that its pointers reach, its counter and the calls made so far.
The clients are a function of the pointer, without the hash table around them.
-/
namespace Hima.LanToLan

open FirstMatch

set_option linter.unusedSectionVars false

/-- The clients by pointer, the number of offloaded pairs and the calls to the hardware. -/
structure Net (K A I : Type) where
  client : Ptr K → Option (ClientInfo K A I)
  num : UInt8
  calls : List (LanCall A I)

def Family.net {K A I : Type} [DecidableEq K] (f : Family K A I) : Net K A I :=
  ⟨f.deref, f.numOffloadPair, f.calls⟩

variable {K A I : Type} [DecidableEq K]

namespace Net

def links (n : Net K A I) (p : Ptr K) : List (OffloadLinkInfo K) :=
  ((n.client p).map (·.link)).getD []

def peers (n : Net K A I) (p : Ptr K) : List (PeerInfo K) :=
  ((n.client p).map (·.peer)).getD []

/-- How many links of `p` lead to `q`. -/
def linkCount (n : Net K A I) (p q : Ptr K) : Nat := (n.links p).countP (linkTo q)

/-- The number of connections that `p` counts for `q`, when it has an entry for it. -/
def peerNum (n : Net K A I) (p q : Ptr K) : Option Int :=
  ((n.peers p).find? (peerTo q)).map (·.numConnection)

def put (n : Net K A I) (p : Ptr K) (c : ClientInfo K A I) : Net K A I :=
  { n with client := Function.update n.client p (some c) }

def drop (n : Net K A I) (p : Ptr K) : Net K A I :=
  { n with client := Function.update n.client p none }

def call (n : Net K A I) (calls : List (LanCall A I)) : Net K A I :=
  { n with calls := n.calls ++ calls }

def count (n : Net K A I) (num : UInt8) : Net K A I := { n with num := num }

section Simp

variable (n : Net K A I) (p q : Ptr K) (c : ClientInfo K A I) (calls : List (LanCall A I))
  (num : UInt8)

theorem client_put : (n.put p c).client q = if q = p then some c else n.client q := by
  simp [put, Function.update_apply]

theorem client_drop : (n.drop p).client q = if q = p then none else n.client q := by
  simp [drop, Function.update_apply]

@[simp] theorem call_call (calls' : List (LanCall A I)) :
    (n.call calls).call calls' = n.call (calls ++ calls') := by
  simp [call]

@[simp] theorem call_nil : n.call [] = n := by simp [call]

@[simp] theorem client_put_self : (n.put p c).client p = some c := by simp [client_put]

@[simp] theorem client_call : (n.call calls).client = n.client := rfl
@[simp] theorem client_count : (n.count num).client = n.client := rfl
@[simp] theorem num_put : (n.put p c).num = n.num := rfl
@[simp] theorem num_call : (n.call calls).num = n.num := rfl
@[simp] theorem num_count : (n.count num).num = num := rfl
@[simp] theorem calls_put : (n.put p c).calls = n.calls := rfl
@[simp] theorem calls_call : (n.call calls).calls = n.calls ++ calls := rfl
@[simp] theorem calls_count : (n.count num).calls = n.calls := rfl
@[simp] theorem links_call : (n.call calls).links = n.links := rfl
@[simp] theorem peers_call : (n.call calls).peers = n.peers := rfl
@[simp] theorem peers_count : (n.count num).peers = n.peers := rfl
@[simp] theorem linkCount_call : (n.call calls).linkCount = n.linkCount := rfl
@[simp] theorem linkCount_count : (n.count num).linkCount = n.linkCount := rfl
theorem links_put : (n.put p c).links q = if q = p then c.link else n.links q := by
  simp only [links, client_put]
  split <;> rfl

theorem peers_put : (n.put p c).peers q = if q = p then c.peer else n.peers q := by
  simp only [peers, client_put]
  split <;> rfl

theorem links_drop : (n.drop p).links q = if q = p then [] else n.links q := by
  simp only [links, client_drop]
  split <;> rfl

theorem peers_drop : (n.drop p).peers q = if q = p then [] else n.peers q := by
  simp only [peers, client_drop]
  split <;> rfl

end Simp

variable {n : Net K A I} {p : Ptr K}

theorem links_eq {c : ClientInfo K A I} (at_p : n.client p = some c) :
    n.links p = c.link := by
  simp [links, at_p]

theorem peers_eq {c : ClientInfo K A I} (at_p : n.client p = some c) :
    n.peers p = c.peer := by
  simp [peers, at_p]

theorem links_of_absent (absent : n.client p = none) : n.links p = [] := by
  simp [links, absent]

theorem peers_of_absent (absent : n.client p = none) : n.peers p = [] := by
  simp [peers, absent]

theorem links_put_same {c : ClientInfo K A I} (same : c.link = n.links p) :
    (n.put p c).links = n.links := by
  funext q
  rw [links_put]
  split
  next here => rw [here, same]
  next => rfl

theorem peers_put_same {c : ClientInfo K A I} (same : c.peer = n.peers p) :
    (n.put p c).peers = n.peers := by
  funext q
  rw [peers_put]
  split
  next here => rw [here, same]
  next => rfl

theorem links_drop_same (same : n.links p = []) :
    (n.drop p).links = n.links := by
  funext q
  rw [links_drop]
  split
  next here => rw [here, same]
  next => rfl

theorem peers_drop_same (same : n.peers p = []) :
    (n.drop p).peers = n.peers := by
  funext q
  rw [peers_drop]
  split
  next here => rw [here, same]
  next => rfl

theorem client_of_linkCount {p q : Ptr K} (linked : 0 < n.linkCount p q) :
    ∃ c, n.client p = some c := by
  cases at_p : n.client p with
  | none => simp [linkCount, links, at_p] at linked
  | some c => exact ⟨c, rfl⟩

theorem client_of_peerNum {p q : Ptr K} (known : n.peerNum p q ≠ none) :
    ∃ c, n.client p = some c := by
  cases at_p : n.client p with
  | none => simp [peerNum, peers, at_p] at known
  | some c => exact ⟨c, rfl⟩

end Net

/-! ### The net of a family -/

namespace Family

variable {f : Family K A I} {p q : Ptr K} {c c' : ClientInfo K A I} {key : K}

theorem node_of_deref (at_p : f.deref p = some c) : c.node = p.node := by
  simpa using (Option.filter_eq_some_iff.mp at_p).2

theorem lookup_of_deref (at_p : f.deref p = some c) : f.clientInfo.lookup p.key = some c :=
  (Option.filter_eq_some_iff.mp at_p).1

theorem deref_of_lookup (at_key : f.clientInfo.lookup key = some c) :
    f.deref ⟨key, c.node⟩ = some c := by
  simp [deref, at_key]

theorem find_eq_some (found : f.find key = some p) : p.key = key ∧ ∃ c, f.deref p = some c := by
  obtain ⟨c, at_key, rfl⟩ := Option.map_eq_some_iff.mp found
  exact ⟨rfl, c, deref_of_lookup at_key⟩

theorem find_of_deref (at_p : f.deref p = some c) : f.find p.key = some p := by
  have node := node_of_deref at_p
  simp [find, lookup_of_deref at_p, node]

theorem find_eq_none (absent : f.find key = none) (at_key : p.key = key) : f.deref p = none := by
  have no_client : f.clientInfo.lookup key = none := by simpa [find] using absent
  rw [deref, at_key, no_client]
  rfl

/-- Two pointers to clients of one key are the same pointer. -/
theorem ptr_unique (at_p : f.deref p = some c) (at_q : f.deref q = some c') (same : p.key = q.key) : p = q := by
  have p_found := find_of_deref at_p
  rw [same, find_of_deref at_q] at p_found
  exact (Option.some.inj p_found).symm

@[simp] theorem client_net (p : Ptr K) : f.net.client p = f.deref p := rfl
@[simp] theorem calls_net : f.net.calls = f.calls := rfl

@[simp] theorem deref_call (calls : List (LanCall A I)) (p : Ptr K) :
    (f.call calls).deref p = f.deref p := rfl

@[simp] theorem net_call (calls : List (LanCall A I)) : (f.call calls).net = f.net.call calls := rfl

@[simp] theorem net_post (events : List (Event A I)) : (f.post events).net = f.net := rfl

theorem net_count (num : UInt8) :
    ({ f with numOffloadPair := num } : Family K A I).net = f.net.count num := rfl

theorem deref_set (at_p : f.deref p = some c) (sameNode : c'.node = c.node) (q : Ptr K) :
    (f.set p c').deref q = if q = p then some c' else f.deref q := by
  have node := node_of_deref at_p
  by_cases same : q = p
  · subst same
    simp [set, deref, sameNode, node]
  · rw [if_neg same]
    by_cases sameKey : q.key = p.key
    · obtain ⟨key, m⟩ := q
      obtain rfl : key = p.key := sameKey
      have stale : p.node ≠ m := fun sameNode => same (by rw [← sameNode])
      have here := lookup_of_deref at_p
      simp [set, deref, here, Option.filter_some, sameNode, node, stale]
    · simp [set, deref, AList.lookup_insert_ne sameKey]

theorem net_set (at_p : f.deref p = some c) (sameNode : c'.node = c.node) :
    (f.set p c').net = f.net.put p c' := by
  unfold net Net.put
  congr 1
  funext q
  rw [deref_set at_p sameNode, Function.update_apply]

theorem net_erase (found : f.find key = some p) : (f.erase key).net = f.net.drop p := by
  unfold net Net.drop
  congr 1
  funext q
  obtain ⟨rfl, c, at_p⟩ := find_eq_some found
  rw [Function.update_apply]
  by_cases sameKey : q.key = p.key
  · have gone : (f.erase p.key).deref q = none := by
      obtain ⟨key, m⟩ := q
      obtain rfl : key = p.key := sameKey
      simp [erase, deref]
    rw [gone]
    split
    · rfl
    next other =>
      cases at_q : f.deref q with
      | none => simp [at_q]
      | some d => exact absurd (ptr_unique at_q at_p sameKey) other
  · have other : q ≠ p := fun same => sameKey (by rw [same])
    rw [if_neg other]
    simp [erase, deref, AList.lookup_erase_ne sameKey]

theorem net_newClient [DecidableEq A] (config : Config K A I) (ip : A) (mac : MacAddr) (iface : I)
    (absent : f.find (config.key ip) = none) :
    (f.newClient config ip mac iface).net =
      f.net.put ⟨config.key ip, f.nextNode⟩ ⟨f.nextNode, ip, mac, true, false, iface, [], []⟩ := by
  unfold net Net.put
  congr 1
  funext q
  rw [Function.update_apply]
  by_cases sameKey : q.key = config.key ip
  · have no_client : f.deref q = none := find_eq_none absent sameKey
    by_cases same : q = ⟨config.key ip, f.nextNode⟩
    · subst same
      simp [newClient, deref]
    · rw [if_neg same]
      change _ = f.deref q
      rw [no_client]
      obtain ⟨key, m⟩ := q
      obtain rfl : key = config.key ip := sameKey
      have stale : f.nextNode ≠ m := fun sameNode => same (by rw [sameNode])
      simp [newClient, deref, stale]
  · have other : q ≠ ⟨config.key ip, f.nextNode⟩ := fun same => sameKey (by rw [same])
    simp [newClient, deref, AList.lookup_insert_ne sameKey, other]

variable [DecidableEq A]

/-- The posting of connections touches no client. -/
theorem generateNewConnection_net (config : Config K A I) (at_p : f.deref p = some c) :
    ∃ f', f.generateNewConnection config p = some f' ∧ f'.net = f.net := by
  unfold generateNewConnection
  split
  · exact ⟨f, rfl, rfl⟩
  · simp [at_p]

theorem checkCacheConnection_net (config : Config K A I) (at_p : f.deref p = some c) :
    ∃ f', f.checkCacheConnection config p = some f' ∧ f'.net = f.net := by
  unfold checkCacheConnection
  split
  · simp only [at_p, Option.bind_eq_bind, Option.bind_some, Option.pure_def]
    exact ⟨_, rfl, rfl⟩
  · exact ⟨f, rfl, rfl⟩

end Family

/-!
## Links and peers in pairs

The invariant behind the LAN-to-LAN module: what `p` holds about `q`, `q` holds about `p`. Every
change that is made at both ends keeps it.
-/
open Slots

namespace Net

/-- Links and peer entries come in pairs, a client has neither for itself and at most one entry
for another client, and one that is neither active nor in power save has no links. -/
structure Paired (n : Net K A I) : Prop where
  linksMutual : ∀ p q, n.linkCount p q = n.linkCount q p
  linksApart : ∀ p, n.linkCount p p = 0
  peersMutual : ∀ p q, n.peerNum p q = n.peerNum q p
  peersApart : ∀ p, n.peerNum p p = none
  peersOnce : ∀ p q, (n.peers p).countP (peerTo q) ≤ 1
  idle : ∀ p c, n.client p = some c → c.isActive = false → c.isPowersave = false → c.link = []

theorem linkCount_put (n : Net K A I) (p : Ptr K) (c : ClientInfo K A I) (a b : Ptr K) :
    (n.put p c).linkCount a b = if a = p then c.link.countP (linkTo b) else n.linkCount a b := by
  simp only [linkCount, links_put]
  split <;> rfl

theorem peerNum_put (n : Net K A I) (p : Ptr K) (c : ClientInfo K A I) (a b : Ptr K) :
    (n.put p c).peerNum a b =
      if a = p then (c.peer.find? (peerTo b)).map (·.numConnection) else n.peerNum a b := by
  simp only [peerNum, peers_put]
  split <;> rfl

theorem linkCount_eq {n : Net K A I} {p : Ptr K} {c : ClientInfo K A I}
    (at_p : n.client p = some c) (q : Ptr K) : n.linkCount p q = c.link.countP (linkTo q) := by
  rw [linkCount, links_eq at_p]

theorem peerNum_eq {n : Net K A I} {p : Ptr K} {c : ClientInfo K A I} (at_p : n.client p = some c) (q : Ptr K) :
    n.peerNum p q = (c.peer.find? (peerTo q)).map (·.numConnection) := by
  rw [peerNum, peers_eq at_p]

/-! ### Changes at both ends -/

/-- A link from `p` to `q` and one back. -/
def linkUp (n : Net K A I) (p q : Ptr K) (cp cq : ClientInfo K A I) (l r : OffloadLinkInfo K) : Net K A I :=
  (n.put p { cp with link := cp.link ++ [l] }).put q { cq with link := cq.link ++ [r] }

/-- The first link from `p` to `q` and the first one back are taken out. -/
def unlink (n : Net K A I) (p q : Ptr K) (cp cq : ClientInfo K A I) : Net K A I :=
  (n.put q { cq with link := cq.link.eraseP (linkTo p) }).put p
    { cp with link := cp.link.eraseP (linkTo q) }

variable {n : Net K A I} {p q : Ptr K} {cp cq : ClientInfo K A I}

theorem linkCount_linkUp (at_p : n.client p = some cp) (at_q : n.client q = some cq)
    (apart : p ≠ q) {l r : OffloadLinkInfo K} (l_to : l.peerPointer = q) (r_to : r.peerPointer = p)
    (a b : Ptr K) :
    (n.linkUp p q cp cq l r).linkCount a b = n.linkCount a b +
      ((if a = p ∧ b = q then 1 else 0) + if a = q ∧ b = p then 1 else 0) := by
  simp only [linkUp, linkCount_put, countP_append_singleton, l_to, r_to]
  by_cases is_q : a = q
  · subst is_q
    simp [linkCount_eq at_q, Ne.symm apart, eq_comm]
  · by_cases is_p : a = p
    · subst is_p
      simp [linkCount_eq at_p, is_q, eq_comm]
    · simp [is_q, is_p]

theorem linkCount_unlink (at_p : n.client p = some cp) (at_q : n.client q = some cq)
    (apart : p ≠ q) (a b : Ptr K) :
    (n.unlink p q cp cq).linkCount a b = n.linkCount a b -
      ((if a = p ∧ b = q then 1 else 0) + if a = q ∧ b = p then 1 else 0) := by
  simp only [unlink, linkCount_put, countP_eraseP]
  by_cases is_p : a = p
  · subst is_p
    simp [linkCount_eq at_p, apart, eq_comm]
  · by_cases is_q : a = q
    · subst is_q
      simp [linkCount_eq at_q, is_p, eq_comm]
    · simp [is_q, is_p]

/-- Two clients are rewritten, their links are not. -/
theorem links_put_put (at_p : n.client p = some cp) (at_q : n.client q = some cq)
    {c c' : ClientInfo K A I} (c_same : c.link = cp.link) (c'_same : c'.link = cq.link) :
    ((n.put p c).put q c').links = n.links := by
  have first : (n.put p c).links = n.links := links_put_same (c_same.trans (links_eq at_p).symm)
  exact (links_put_same (by rw [first, c'_same, links_eq at_q])).trans first

theorem peers_put_put (at_p : n.client p = some cp) (at_q : n.client q = some cq)
    {c c' : ClientInfo K A I} (c_same : c.peer = cp.peer) (c'_same : c'.peer = cq.peer) :
    ((n.put p c).put q c').peers = n.peers := by
  have first : (n.put p c).peers = n.peers := peers_put_same (c_same.trans (peers_eq at_p).symm)
  exact (peers_put_same (by rw [first, c'_same, peers_eq at_q])).trans first

theorem peers_linkUp (at_p : n.client p = some cp) (at_q : n.client q = some cq)
    (l r : OffloadLinkInfo K) : (n.linkUp p q cp cq l r).peers = n.peers :=
  peers_put_put at_p at_q rfl rfl

theorem peers_unlink (at_p : n.client p = some cp) (at_q : n.client q = some cq) :
    (n.unlink p q cp cq).peers = n.peers :=
  peers_put_put at_q at_p rfl rfl

namespace Paired

section

variable (h : n.Paired)
include h

/-- The links of two clients change, the peers do not. -/
theorem of_links {n' : Net K A I} (peers : n'.peers = n.peers)
    (linksMutual : ∀ p q, n'.linkCount p q = n'.linkCount q p) (linksApart : ∀ p, n'.linkCount p p = 0)
    (idle : ∀ p c, n'.client p = some c → c.isActive = false → c.isPowersave = false →
      c.link = []) : n'.Paired where
  linksMutual := linksMutual
  linksApart := linksApart
  peersMutual p q := by simpa only [peerNum, peers] using h.peersMutual p q
  peersApart p := by simpa only [peerNum, peers] using h.peersApart p
  peersOnce p q := by simpa only [peers] using h.peersOnce p q
  idle := idle

/-- The peers of clients change, the links do not. -/
theorem of_peers {n' : Net K A I} (links : n'.links = n.links)
    (peersMutual : ∀ p q, n'.peerNum p q = n'.peerNum q p) (peersApart : ∀ p, n'.peerNum p p = none)
    (peersOnce : ∀ p q, (n'.peers p).countP (peerTo q) ≤ 1)
    (idle : ∀ p c, n'.client p = some c → c.isActive = false → c.isPowersave = false →
      c.link = []) : n'.Paired where
  linksMutual p q := by simpa only [linkCount, links] using h.linksMutual p q
  linksApart p := by simpa only [linkCount, links] using h.linksApart p
  peersMutual := peersMutual
  peersApart := peersApart
  peersOnce := peersOnce
  idle := idle

theorem call (calls : List (LanCall A I)) : (n.call calls).Paired :=
  ⟨h.linksMutual, h.linksApart, h.peersMutual, h.peersApart, h.peersOnce, h.idle⟩

theorem count (num : UInt8) : (n.count num).Paired :=
  ⟨h.linksMutual, h.linksApart, h.peersMutual, h.peersApart, h.peersOnce, h.idle⟩

theorem linkUp (at_p : n.client p = some cp) (at_q : n.client q = some cq)
    (apart : p ≠ q) {l r : OffloadLinkInfo K} (l_to : l.peerPointer = q) (r_to : r.peerPointer = p)
    (p_active : cp.isActive = true) (q_active : cq.isActive = true) :
    (n.linkUp p q cp cq l r).Paired := by
  have counts := linkCount_linkUp at_p at_q apart l_to r_to
  refine h.of_links (peers_linkUp at_p at_q l r) (fun a b => ?_) (fun a => ?_) ?_
  · simp only [counts, h.linksMutual a b, and_comm (a := b = p), and_comm (a := b = q)]
    omega
  · have not_pq : ¬ (a = p ∧ a = q) := fun both => apart (both.1 ▸ both.2)
    simp [counts, h.linksApart a, not_pq, and_comm (a := a = q)]
  · intro a c at_a inactive awake
    simp only [Net.linkUp, client_put] at at_a
    split at at_a
    · cases at_a
      simp [q_active] at inactive
    · split at at_a
      · cases at_a
        simp [p_active] at inactive
      · exact h.idle a c at_a inactive awake

theorem unlink (at_p : n.client p = some cp) (at_q : n.client q = some cq)
    (apart : p ≠ q) : (n.unlink p q cp cq).Paired := by
  have counts := linkCount_unlink at_p at_q apart
  refine h.of_links (peers_unlink at_p at_q) (fun a b => ?_) (fun a => ?_) ?_
  · simp only [counts, h.linksMutual a b, and_comm (a := b = p), and_comm (a := b = q)]
    omega
  · simp [counts, h.linksApart a]
  · intro a c at_a inactive awake
    simp only [Net.unlink, client_put] at at_a
    split at at_a
    · cases at_a
      simp [h.idle p cp at_p inactive awake]
    · split at at_a
      · cases at_a
        simp [h.idle q cq at_q inactive awake]
      · exact h.idle a c at_a inactive awake

/-- The links and the peers are what they were, and a client that is neither active nor in power save
has no link. -/
theorem of_same {n' : Net K A I} (links : n'.links = n.links) (peers : n'.peers = n.peers)
    (idle : ∀ p c, n'.client p = some c → c.isActive = false → c.isPowersave = false →
      c.link = []) : n'.Paired := by
  apply h.of_links peers
  · intro a b
    simpa only [linkCount, links] using h.linksMutual a b
  · intro a
    simpa only [linkCount, links] using h.linksApart a
  · exact idle

/-- A client is put in place, with the links and the peers that stood there. -/
theorem replace {c : ClientInfo K A I} (link : c.link = n.links p) (peer : c.peer = n.peers p)
    (idle : c.isActive = false → c.isPowersave = false → c.link = []) : (n.put p c).Paired := by
  apply h.of_same (links_put_same link) (peers_put_same peer)
  intro a d at_a inactive awake
  rw [client_put] at at_a
  split at at_a
  · cases at_a
    exact idle inactive awake
  · exact h.idle a d at_a inactive awake

/-- A client is rewritten, its lists are not. -/
theorem put (at_p : n.client p = some cp) {c : ClientInfo K A I}
    (link : c.link = cp.link) (peer : c.peer = cp.peer)
    (idle : c.isActive = false → c.isPowersave = false → cp.link = []) : (n.put p c).Paired :=
  h.replace (link.trans (links_eq at_p).symm) (peer.trans (peers_eq at_p).symm)
    fun inactive awake => link.trans (idle inactive awake)

/-- A client appears with empty lists. -/
theorem insert (absent : n.client p = none) {c : ClientInfo K A I}
    (link : c.link = []) (peer : c.peer = []) : (n.put p c).Paired :=
  h.replace (link.trans (links_of_absent absent).symm) (peer.trans (peers_of_absent absent).symm)
    fun _ _ => link

/-- A client leaves with empty lists. -/
theorem drop (at_p : n.client p = some cp) (link : cp.link = []) (peer : cp.peer = []) : (n.drop p).Paired := by
  apply h.of_same (links_drop_same ((links_eq at_p).trans link)) (peers_drop_same ((peers_eq at_p).trans peer))
  intro a d at_a inactive awake
  rw [client_drop] at at_a
  split at at_a
  · cases at_a
  · exact h.idle a d at_a inactive awake

end

end Paired

end Net

end Hima.LanToLan
