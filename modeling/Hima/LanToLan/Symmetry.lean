import Hima.LanToLan.Connections
import Hima.Lib.Runs

/-!
# Links stay in pairs

The links of the LAN-to-LAN module come in pairs between clients of the table, as long as the
hardware does not leave a pair half made or half taken down and no client is connected to itself.
-/
namespace Hima.LanToLan

open Slots FirstMatch Runs Net

set_option linter.unusedSectionVars false

variable {K A I : Type} [DecidableEq K] [DecidableEq A]

/-! ### The property -/

/-- Every pointer in a link or peer list refers to a client of the table, and a client has as
many links to another as that one has back. -/
structure Family.LinksPaired (f : Family K A I) : Prop where
  linkKnown : ∀ p c l, f.deref p = some c → l ∈ c.link → (f.deref l.peerPointer).isSome
  peerKnown : ∀ p c e, f.deref p = some c → e ∈ c.peer → (f.deref e.peerPointer).isSome
  bothWays : ∀ p q c d, f.deref p = some c → f.deref q = some d →
    c.link.countP (linkTo q) = d.link.countP (linkTo p)

theorem Net.Paired.linksPaired {f : Family K A I} (h : f.net.Paired) : f.LinksPaired where
  linkKnown p c l at_p member := by
    obtain ⟨-, d, -, at_q, -⟩ := h.back (p := p) at_p member
    exact Option.isSome_iff_exists.mpr ⟨d, at_q⟩
  peerKnown p c e at_p member := by
    obtain ⟨-, d, -, at_q, -⟩ := h.backPeer (p := p) at_p member
    exact Option.isSome_iff_exists.mpr ⟨d, at_q⟩
  bothWays p q c d at_p at_q := by
    have equal := h.linksMutual p q
    rwa [linkCount_eq at_p, linkCount_eq at_q] at equal

theorem Net.paired_init : (Family.init : Family K A I).net.Paired := by
  have empty : ∀ p, (Family.init : Family K A I).deref p = none := by simp [Family.init, Family.deref]
  constructor <;> simp [linkCount, links, peerNum, peers, empty]

/-! ### The condition on the hardware -/

/-- Every deletion that `turnoff_offload_links` asks for succeeds. -/
def Torn (answers : Answers) (c : ClientInfo K A I) : Prop :=
  ∀ i < 2 * c.link.length, (answers.del i).gone = true

/-- The hardware takes both directions of each new pair or neither, no deletion fails when the
links of a client are turned off, and no client is connected to itself. -/
def Family.AnswersPair (config : Config K A I) (answers : Answers) (f : Family K A I) :
    Event A I → Prop
  | .clientActive ip mac _ => ∀ p c, f.find (config.key ip) = some p → f.deref p = some c →
      if c.isActive then c.macAddr ≠ mac → Torn answers c
      else AddsAlike answers f.activeAt 0 f.numOffloadPair c.peer
  | .clientInactive ip => ∀ p c, f.find (config.key ip) = some p → f.deref p = some c →
      Torn answers c
  | .clientDisconnect ip => ∀ p c, f.find (config.key ip) = some p → f.deref p = some c →
      Torn answers c
  | .clientPowerSave _ => True
  | .clientPowerRecover ip => ∀ p c, f.find (config.key ip) = some p → f.deref p = some c →
      c.isActive = false → c.isPowersave = true →
      (∀ j < 2 * c.link.length, (answers.fltAdd j).isSome) →
      AddsAlike answers f.activeAt 0 f.numOffloadPair c.peer
  | .newConnection src dst => ∀ p q c d, f.find (config.key src) = some p →
      f.find (config.key dst) = some q → f.deref p = some c → f.deref q = some d →
      p ≠ q ∧ (c.peer.find? (peerTo q) = none → c.isActive = true → d.isActive = true →
        ¬ maxOffloadPair ≤ f.numOffloadPair → (answers.add 0).taken = true →
        (answers.add 1).taken = true)
  | .delConnection _ _ => True

/-! ### One event -/

namespace Family

variable {config : Config K A I} {answers : Answers} {f : Family K A I} {p : Ptr K}
  {c : ClientInfo K A I}

theorem activeAt_of_bare {g : Family K A I} (same : g.net.bare = f.net.bare) :
    g.activeAt = f.activeAt := by
  have stripped : ∀ h : Family K A I, h.activeAt = fun a => (h.net.bare a).any (·.isActive) := by
    intro h
    funext a
    simp only [activeAt, bare, Option.any_map]
    rfl
  rw [stripped g, stripped f, same]

theorem postConnections_net (config : Config K A I) (at_p : f.deref p = some c) :
    ∃ f₁ f', f.generateNewConnection config p = some f₁ ∧
      f₁.checkCacheConnection config p = some f' ∧ f'.net = f.net := by
  obtain ⟨f₁, first, net₁⟩ := generateNewConnection_net config at_p
  have at_p₁ : f₁.deref p = some c := by
    rw [← client_net, net₁]
    exact at_p
  obtain ⟨f', second, net'⟩ := checkCacheConnection_net config at_p₁
  exact ⟨f₁, f', first, second, net'.trans net₁⟩

section

variable (paired : f.net.Paired)
include paired

theorem checkPotentialLink_paired (at_p : f.deref p = some c)
    (active : c.isActive = true) {activeBefore : Ptr K → Bool}
    (agree : ∀ e ∈ c.peer, activeBefore e.peerPointer = f.activeAt e.peerPointer)
    (alike : AddsAlike answers activeBefore 0 f.numOffloadPair c.peer) :
    ∃ f', f.checkPotentialLink answers p = some f' ∧ f'.net.Paired ∧ f'.net.bare = f.net.bare := by
  have known : ∀ e ∈ c.peer, e.peerPointer ≠ p ∧ activeBefore e.peerPointer = f.activeAt e.peerPointer ∧
      ∃ d, f.deref e.peerPointer = some d := by
    intro e member
    obtain ⟨apart, d, -, at_q, -⟩ := paired.backPeer (client_net p ▸ at_p) member
    exact ⟨apart, agree e member, d, at_q⟩
  obtain ⟨f', run, -, paired', bare⟩ := checkPotentialLinkFrom_rule answers
    (fun _ _ => True) activeBefore (fun _ _ _ _ => trivial) (fun _ _ _ _ _ _ _ => trivial)
    (fun _ _ _ _ _ _ _ _ _ _ _ _ _ _ _ _ _ _ _ => trivial) paired at_p active known alike
    trivial
  exact ⟨f', by simpa [checkPotentialLink, at_p] using run, paired', bare⟩

theorem turnoffOffloadLinks_paired (at_p : f.deref p = some c) (torn : Torn answers c) :
    ∃ f', f.turnoffOffloadLinks answers p = some f' ∧
      f'.deref p = some { c with link := [] } ∧ f'.net.Paired ∧ f'.net.bare = f.net.bare := by
  obtain ⟨f', run, at_p', paired', -, bare⟩ := turnoffOffloadLinks_rule (fun _ => True)
    (fun _ _ _ _ _ _ _ _ _ _ _ _ _ => trivial) paired at_p torn trivial
  exact ⟨f', run, at_p', paired', bare⟩

theorem clearPeerList_paired (at_p : f.deref p = some c) :
    ∃ f', f.clearPeerList p = some f' ∧ f'.deref p = some { c with peer := [] } ∧
      f'.net.Paired := by
  obtain ⟨f', run, at_p', paired', -⟩ := clearPeerList_rule (fun _ => True)
    (fun _ _ _ _ _ _ _ _ _ _ _ => trivial) paired at_p trivial
  exact ⟨f', run, at_p', paired'⟩

theorem renewClient_paired (at_p : f.deref p = some c) (ip : A) (mac : MacAddr) (iface : I) :
    ∃ f', f.renewClient p ip mac iface = some f' ∧ f'.net.Paired ∧ f'.net = f.net.put p { c with
        ip := ip, macAddr := mac, isActive := true, isPowersave := false, pIface := iface } ∧
      f'.deref p = some { c with
        ip := ip, macAddr := mac, isActive := true, isPowersave := false, pIface := iface } := by
  refine ⟨_, by simp [renewClient, at_p], ?_, net_set at_p (by rfl), ?_⟩
  · rw [net_set at_p (by rfl)]
    exact paired.put at_p (by rfl) (by rfl) (by simp)
  · rw [deref_set at_p (by rfl), if_pos rfl]

theorem handleClientActive_paired (ip : A) (mac : MacAddr) (iface : I)
    (ok : f.AnswersPair config answers (.clientActive ip mac iface)) :
    ∃ f', f.handleClientActive config answers ip mac iface = some f' ∧ f'.net.Paired := by
  simp only [handleClientActive]
  cases found : f.find (config.key ip) with
  | none =>
    have net₁ := net_newClient config ip mac iface found
    have absent : f.net.client ⟨config.key ip, f.nextNode⟩ = none := find_eq_none found rfl
    have paired₁ : (f.newClient config ip mac iface).net.Paired := by
      rw [net₁]
      exact paired.insert absent rfl rfl
    have at_p : (f.newClient config ip mac iface).deref ⟨config.key ip, f.nextNode⟩ =
        some ⟨f.nextNode, ip, mac, true, false, iface, [], []⟩ := by
      rw [← client_net, net₁, client_put_self]
    obtain ⟨f₁, f', first, second, net'⟩ := postConnections_net config at_p
    exact ⟨f', by simp [first, second], net' ▸ paired₁⟩
  | some p =>
    obtain ⟨-, c, at_p⟩ := find_eq_some found
    have here := ok p c found at_p
    simp only [at_p, Option.bind_eq_bind, Option.bind_some]
    cases active : c.isActive with
    | true =>
      by_cases same : c.macAddr = mac
      · rw [if_pos same]
        exact ⟨f, rfl, paired⟩
      · simp only [active, if_true] at here
        rw [if_neg same]
        obtain ⟨f₁, run₁, at_p₁, paired₁, -⟩ := turnoffOffloadLinks_paired paired at_p (here same)
        obtain ⟨f₂, run₂, at_p₂, paired₂⟩ := clearPeerList_paired paired₁ at_p₁
        obtain ⟨f₃, run₃, paired₃, -, at_p₃⟩ := renewClient_paired paired₂ at_p₂ ip mac iface
        obtain ⟨f₄, f', run₄, run₅, net'⟩ := postConnections_net config at_p₃
        exact ⟨f', by simp [run₁, run₂, run₃, run₄, run₅], net' ▸ paired₃⟩
    | false =>
      simp only [active, Bool.false_eq_true, if_false] at here ⊢
      obtain ⟨f₁, run₁, paired₁, net₁, at_p₁⟩ := renewClient_paired paired at_p ip mac iface
      have num₁ : f₁.numOffloadPair = f.numOffloadPair := congrArg num net₁
      -- the assignments to the client do not change which of its peers are active
      have agree : ∀ e ∈ c.peer, f.activeAt e.peerPointer = f₁.activeAt e.peerPointer := by
        intro e member
        obtain ⟨apart, -⟩ := paired.backPeer (client_net p ▸ at_p) member
        simp only [activeAt, ← client_net, net₁, client_put, if_neg apart]
      obtain ⟨f₂, run₂, paired₂, bare₂⟩ := checkPotentialLink_paired paired₁ at_p₁ rfl agree
        (by rw [num₁]; exact here)
      obtain ⟨link, at_p₂⟩ := client_of_bare bare₂ at_p₁
      obtain ⟨f₃, f', run₃, run₄, net'⟩ := postConnections_net config at_p₂
      exact ⟨f', by simp [run₁, run₂, run₃, run₄], net' ▸ paired₂⟩

theorem deactivate_paired (at_p : f.deref p = some c) (link : c.link = []) :
    (f.set p { c with isActive := false }).net.Paired := by
  rw [net_set at_p (by rfl)]
  exact paired.put at_p (by rfl) (by rfl) (by simp [link])

theorem erase_paired {key : K} (found : f.find key = some p)
    (at_p : f.deref p = some c) (link : c.link = []) (peer : c.peer = []) :
    (f.erase key).net.Paired := by
  rw [net_erase found]
  exact paired.drop at_p link peer

theorem handleClientInactive_paired (ip : A) (ok : f.AnswersPair config answers (.clientInactive ip)) :
    ∃ f', f.handleClientInactive config answers ip = some f' ∧ f'.net.Paired := by
  simp only [handleClientInactive]
  cases found : f.find (config.key ip) with
  | none => exact ⟨f, rfl, paired⟩
  | some p =>
    obtain ⟨key, c, at_p⟩ := find_eq_some found
    obtain ⟨f₁, run₁, at_p₁, paired₁, -⟩ := turnoffOffloadLinks_paired paired at_p (ok p c found at_p)
    have paired₂ := deactivate_paired paired₁ at_p₁ rfl
    simp only [run₁, at_p₁, Option.bind_eq_bind, Option.bind_some]
    refine ⟨_, rfl, ?_⟩
    split
    next no_peers =>
      have at_p₂ := deref_set (q := p) at_p₁ (by rfl : ({ c with link := [], isActive := false } :
        ClientInfo K A I).node = _)
      rw [if_pos rfl] at at_p₂
      exact erase_paired paired₂ (key ▸ find_of_deref at_p₂) at_p₂ rfl no_peers
    next => exact paired₂

theorem handleClientDisconnect_paired (ip : A) (ok : f.AnswersPair config answers (.clientDisconnect ip)) :
    ∃ f', f.handleClientDisconnect config answers ip = some f' ∧ f'.net.Paired := by
  simp only [handleClientDisconnect]
  cases found : f.find (config.key ip) with
  | none => exact ⟨f, rfl, paired⟩
  | some p =>
    obtain ⟨key, c, at_p⟩ := find_eq_some found
    obtain ⟨f₁, run₁, at_p₁, paired₁, -⟩ := turnoffOffloadLinks_paired paired at_p (ok p c found at_p)
    obtain ⟨f₂, run₂, at_p₂, paired₂⟩ := clearPeerList_paired paired₁ at_p₁
    exact ⟨_, by simp [run₁, run₂], erase_paired paired₂ (key ▸ find_of_deref at_p₂) at_p₂ rfl rfl⟩

theorem handleClientPowerSave_paired (ip : A) :
    ∃ f', f.handleClientPowerSave config answers ip = some f' ∧ f'.net.Paired := by
  simp only [handleClientPowerSave]
  cases found : f.find (config.key ip) with
  | none => exact ⟨f, rfl, paired⟩
  | some p =>
    obtain ⟨-, c, at_p⟩ := find_eq_some found
    obtain ⟨f₁, calls, run₁, -, net₁⟩ := removeFltRules_rule answers
      (fun _ _ => True) (fun _ _ _ _ _ _ _ _ _ _ _ _ => trivial) paired at_p trivial
    have at_p₁ : f₁.deref p = some c := by
      rw [← client_net, net₁]
      exact at_p
    refine ⟨_, by simp [run₁, at_p₁]; rfl, ?_⟩
    rw [net_set at_p₁ (by rfl), net₁]
    exact (paired.call calls).put at_p (by rfl) (by rfl) (by simp)

theorem handleClientPowerRecover_paired (ip : A) (ok : f.AnswersPair config answers (.clientPowerRecover ip)) :
    ∃ f', f.handleClientPowerRecover config answers ip = some f' ∧ f'.net.Paired := by
  simp only [handleClientPowerRecover]
  cases found : f.find (config.key ip) with
  | none => exact ⟨f, rfl, paired⟩
  | some p =>
    obtain ⟨-, c, at_p⟩ := find_eq_some found
    have here := ok p c found at_p
    simp only [at_p, Option.bind_eq_bind, Option.bind_some]
    by_cases wrong : c.isActive = true ∨ (!c.isPowersave) = true
    · rw [if_pos wrong]
      exact ⟨f, rfl, paired⟩
    · rw [if_neg wrong]
      obtain ⟨inactive, asleep⟩ : c.isActive = false ∧ c.isPowersave = true := by
        simpa using wrong
      obtain ⟨res, f₁, run₁, bare₁, -, num₁, paired₁, installed⟩ :=
        addFltRules_shape answers paired at_p
      obtain ⟨link, at_p₁⟩ := client_of_bare bare₁ at_p
      rw [client_net] at at_p₁
      -- a refused rule ends the recovery with the client still asleep
      cases res with
      | false => exact ⟨f₁, by simp [run₁], paired₁⟩
      | true =>
        let awake : ClientInfo K A I :=
          { c with link := link, isActive := true, isPowersave := false }
        have net₂ : (f₁.set p awake).net = f₁.net.put p awake := net_set at_p₁ (by rfl)
        have paired₂ : (f₁.set p awake).net.Paired := by
          rw [net₂]
          exact paired₁.put at_p₁ rfl rfl (by simp [awake])
        have at_p₂ : (f₁.set p awake).deref p = some awake := by
          rw [← client_net, net₂, client_put_self]
        have agree : ∀ e ∈ awake.peer, f.activeAt e.peerPointer = (f₁.set p awake).activeAt e.peerPointer := by
          intro e member
          have member : e ∈ c.peer := member
          obtain ⟨apart, -⟩ := paired.backPeer (client_net p ▸ at_p) member
          rw [← activeAt_of_bare bare₁]
          simp only [activeAt, ← client_net, net₂, client_put, if_neg apart]
        obtain ⟨f₃, run₃, paired₃, bare₃⟩ := checkPotentialLink_paired paired₂ at_p₂ rfl agree (by
            have same_num : (f₁.set p awake).numOffloadPair = f.numOffloadPair := num₁
            rw [same_num]
            exact here inactive asleep (installed rfl))
        obtain ⟨link₃, at_p₃⟩ := client_of_bare bare₃ at_p₂
        obtain ⟨f', run₄, net'⟩ := generateNewConnection_net config at_p₃
        exact ⟨f', by simp [run₁, at_p₁, awake, run₃, run₄], net' ▸ paired₃⟩

end

/-- What the creation of the pair for a first connection ends in. -/
theorem addFirstPair_paired (answers : Answers) {q : Ptr K} {d : ClientInfo K A I} (paired : f.net.Paired)
    (at_p : f.deref p = some c) (at_q : f.deref q = some d) (apart : p ≠ q)
    (p_active : c.isActive = true) (q_active : d.isActive = true)
    (both : ¬ maxOffloadPair ≤ f.numOffloadPair → (answers.add 0).taken = true → (answers.add 1).taken = true) :
    ∃ res f₁, f.addOffloadLink (answers.add 0) p q = some (res, f₁) ∧ (res = false → f₁.net.Paired) ∧
      (res = true → ∃ f₂, f₁.addOffloadLink (answers.add 1) q p = some (true, f₂) ∧
        ({ f₂ with numOffloadPair := f₂.numOffloadPair + 1 } : Family K A I).net.Paired) := by
  obtain ⟨res, f₁, first, result⟩ := addOffloadLink_result (answers.add 0) at_p at_q
  cases result with
  | full => exact ⟨_, _, first, fun _ => paired, by simp⟩
  | refused calls => exact ⟨_, _, first, fun _ => paired.call calls, by simp⟩
  | added l room taken l_to =>
    have alike : ¬ maxOffloadPair ≤ f.numOffloadPair →
        (answers.add 0).taken = (answers.add 1).taken := fun _ => by rw [taken, both room taken]
    obtain ⟨f₁', res, f₂, first', second, -, result⟩ := addBoth_result at_p at_q apart alike
    obtain ⟨rfl, rfl⟩ : true = res ∧ _ = f₁' := by simpa using first.symm.trans first'
    generalize net₂ : f₂.net = n₂ at result
    cases result with
    | linked l r _ _ l_to r_to =>
      refine ⟨_, _, first, by simp, fun _ => ⟨f₂, second, ?_⟩⟩
      rw [net_count, net₂]
      exact ((paired.call _).linkUp (by simpa using at_p) (by simpa using at_q) apart l_to r_to
        p_active q_active).count _

theorem handleNewLan2lanConnection_paired (paired : f.net.Paired) (src dst : A)
    (ok : f.AnswersPair config answers (.newConnection src dst)) :
    ∃ f', f.handleNewLan2lanConnection config answers src dst = some f' ∧ f'.net.Paired := by
  simp only [handleNewLan2lanConnection]
  cases found_p : f.find (config.key src) with
  | none => exact ⟨f, rfl, paired⟩
  | some p =>
    cases found_q : f.find (config.key dst) with
    | none => exact ⟨f, rfl, paired⟩
    | some q =>
      obtain ⟨-, c, at_p⟩ := find_eq_some found_p
      obtain ⟨-, d, at_q⟩ := find_eq_some found_q
      obtain ⟨apart, both⟩ := ok p q c d found_p found_q at_p at_q
      obtain ⟨f₁, run₁, step⟩ := addConnection_step paired at_p at_q apart
      obtain ⟨ps, at_p₁⟩ := client_of_sansPeers step.sansPeers (client_net p ▸ at_p)
      obtain ⟨qs, at_q₁⟩ := client_of_sansPeers step.sansPeers (client_net q ▸ at_q)
      rw [client_net] at at_p₁ at_q₁
      simp only [run₁, at_p₁, at_q₁, Option.bind_eq_bind, Option.bind_some]
      cases linked : (f.net.peerNum p q).isNone && c.isActive && d.isActive with
      | false => exact ⟨f₁, by simp, step.paired⟩
      | true =>
        simp only [Bool.and_eq_true] at linked
        obtain ⟨⟨first, p_active⟩, q_active⟩ := linked
        have no_entry : c.peer.find? (peerTo q) = none := by
          rw [peerNum_eq (client_net p ▸ at_p)] at first
          simpa using first
        have num₁ : f₁.numOffloadPair = f.numOffloadPair := step.num_eq
        obtain ⟨res, f₂, run₂, refused, taken⟩ := addFirstPair_paired answers
          step.paired at_p₁ at_q₁ apart p_active q_active
          (by rw [num₁]; exact both no_entry p_active q_active)
        cases res with
        | false => exact ⟨f₂, by simp [run₂], refused rfl⟩
        | true =>
          obtain ⟨f₃, run₃, paired₃⟩ := taken rfl
          exact ⟨_, by simp [run₂, run₃], paired₃⟩

theorem eraseIfUnused_paired (paired : f.net.Paired) (at_p : f.deref p = some c) :
    ∃ f', f.eraseIfUnused p = some f' ∧ f'.net.Paired ∧ ∀ q, q ≠ p → f'.deref q = f.deref q := by
  simp only [eraseIfUnused, at_p, Option.bind_eq_bind, Option.bind_some]
  refine ⟨_, rfl, ?_⟩
  split
  next unused =>
    have unused : c.isActive = false ∧ c.isPowersave = false ∧ c.peer = [] := by
      simpa [and_assoc] using unused
    have found := find_of_deref at_p
    refine ⟨erase_paired paired found at_p (paired.idle p c at_p unused.1 unused.2.1) unused.2.2,
      fun q other => ?_⟩
    rw [← client_net, net_erase found, client_drop, if_neg other, client_net]
  next => exact ⟨paired, fun _ _ => rfl⟩

theorem eraseOffloadLink_paired (a b : DelAnswer) (paired : f.net.Paired) {q : Ptr K}
    {d : ClientInfo K A I} (at_p : f.deref p = some c) (at_q : f.deref q = some d) (apart : p ≠ q) :
    ∃ f', f.eraseOffloadLink a b p q = some f' ∧ f'.net.Paired ∧ f'.net.bare = f.net.bare := by
  obtain ⟨f', run, result⟩ := eraseOffloadLink_result a b paired at_p at_q apart
  refine ⟨f', run, ?_⟩
  generalize f'.net = n' at result ⊢
  cases result with
  | absent => exact ⟨paired, rfl⟩
  | erased l r calls num =>
    refine ⟨((paired.call calls).unlink (by simpa using at_p) (by simpa using at_q) apart).count num, ?_⟩
    rw [bare_count, unlink, bare_put_put (by simpa using at_q) (by simpa using at_p) (Ne.symm apart), bare_call]

theorem eraseLinks_paired (answers : Answers) (paired : f.net.Paired) {q : Ptr K}
    {d : ClientInfo K A I} (at_p : f.deref p = some c) (at_q : f.deref q = some d) (apart : p ≠ q) :
    ∃ f', f.eraseLinks answers p q c d = some f' ∧ f'.net.Paired ∧ f'.net.bare = f.net.bare := by
  unfold eraseLinks
  split
  · exact eraseOffloadLink_paired _ _ paired at_p at_q apart
  · obtain ⟨f₁, run₁, paired₁, bare₁⟩ : ∃ f₁, (if c.isPowersave && (d.isActive || d.isPowersave) then
        f.eraseOffloadLink (answers.del 0) (answers.del 1) p q else some f) = some f₁ ∧
        f₁.net.Paired ∧ f₁.net.bare = f.net.bare := by
      split
      · exact eraseOffloadLink_paired _ _ paired at_p at_q apart
      · exact ⟨f, rfl, paired, rfl⟩
    obtain ⟨ps, at_p₁⟩ := client_of_bare bare₁ at_p
    obtain ⟨qs, at_q₁⟩ := client_of_bare bare₁ at_q
    rw [run₁, Option.bind_some]
    split
    · obtain ⟨f₂, run₂, paired₂, bare₂⟩ :=
        eraseOffloadLink_paired (answers.del 2) (answers.del 3) paired₁ at_q₁ at_p₁ (Ne.symm apart)
      exact ⟨f₂, run₂, paired₂, bare₂.trans bare₁⟩
    · exact ⟨f₁, rfl, paired₁, bare₁⟩

theorem handleDelLan2lanConnection_paired (answers : Answers) (paired : f.net.Paired) (src dst : A) :
    ∃ f', f.handleDelLan2lanConnection config answers src dst = some f' ∧ f'.net.Paired := by
  simp only [handleDelLan2lanConnection]
  cases found_p : f.find (config.key src) with
  | none => exact ⟨f, rfl, paired⟩
  | some p =>
    cases found_q : f.find (config.key dst) with
    | none => exact ⟨f, rfl, paired⟩
    | some q =>
      obtain ⟨-, c, at_p⟩ := find_eq_some found_p
      obtain ⟨-, d, at_q⟩ := find_eq_some found_q
      by_cases same : p = q
      · subst same
        exact ⟨f, by simp [removeConnection_self paired at_p], paired⟩
      · obtain ⟨f₁, run₁, step⟩ := removeConnection_step paired at_p at_q same
        obtain ⟨ps, at_p₁⟩ := client_of_sansPeers step.sansPeers (client_net p ▸ at_p)
        obtain ⟨qs, at_q₁⟩ := client_of_sansPeers step.sansPeers (client_net q ▸ at_q)
        rw [client_net] at at_p₁ at_q₁
        simp only [run₁, at_p₁, at_q₁, Option.bind_eq_bind, Option.bind_some]
        split
        next =>
          obtain ⟨f₂, run₂, paired₂, bare₂⟩ := eraseLinks_paired answers step.paired at_p₁ at_q₁ same
          obtain ⟨ls, at_p₂⟩ := client_of_bare bare₂ at_p₁
          obtain ⟨rs, at_q₂⟩ := client_of_bare bare₂ at_q₁
          obtain ⟨f₃, run₃, paired₃, others⟩ := eraseIfUnused_paired paired₂ at_p₂
          have at_q₃ := (others q (Ne.symm same)).trans at_q₂
          obtain ⟨f₄, run₄, paired₄, -⟩ := eraseIfUnused_paired paired₃ at_q₃
          exact ⟨f₄, by simp only [run₂, Option.bind_some, run₃, run₄], paired₄⟩
        next => exact ⟨f₁, rfl, step.paired⟩

/-- An event whose answers leave no pair half done keeps the net paired. -/
theorem handle_paired (paired : f.net.Paired) {event : Event A I} (ok : f.AnswersPair config answers event) :
    ∃ f', f.handle config answers event = some f' ∧ f'.net.Paired := by
  cases event with
  | clientActive ip mac iface => exact handleClientActive_paired paired ip mac iface ok
  | clientInactive ip => exact handleClientInactive_paired paired ip ok
  | clientDisconnect ip => exact handleClientDisconnect_paired paired ip ok
  | clientPowerSave ip => exact handleClientPowerSave_paired paired ip
  | clientPowerRecover ip => exact handleClientPowerRecover_paired paired ip ok
  | newConnection src dst => exact handleNewLan2lanConnection_paired paired src dst ok
  | delConnection src dst => exact handleDelLan2lanConnection_paired answers paired src dst

end Family

/-! ### Runs of the component -/

namespace IpacmLanToLan

variable {I : Type}

def LinksPaired (s : IpacmLanToLan I) : Prop := s.v4.LinksPaired ∧ s.v6.LinksPaired

/-- The condition on the hardware, for the family the event is for. -/
def AnswersPair (config : LanConfig I) (s : IpacmLanToLan I) (event : LanEvent I × Answers) : Prop :=
  match event.1.dispatch with
  | none => True
  | some (.inl e) => s.v4.AnswersPair config.v4 event.2 e
  | some (.inr e) => s.v6.AnswersPair config.v6 event.2 e

theorem eventCallback_paired {config : LanConfig I} {s : IpacmLanToLan I}
    {event : LanEvent I × Answers} (paired : s.v4.net.Paired ∧ s.v6.net.Paired)
    (ok : s.AnswersPair config event) :
    ∃ t, s.eventCallback config event = some t ∧ t.v4.net.Paired ∧ t.v6.net.Paired := by
  unfold AnswersPair at ok
  unfold eventCallback
  split
  next => exact ⟨s, rfl, paired⟩
  next e target =>
    rw [target] at ok
    obtain ⟨f, run, paired'⟩ := Family.handle_paired paired.1 ok
    exact ⟨{ s with v4 := f }, by simp [run], paired', paired.2⟩
  next e target =>
    rw [target] at ok
    obtain ⟨f, run, paired'⟩ := Family.handle_paired paired.2 ok
    exact ⟨{ s with v6 := f }, by simp [run], paired.1, paired'⟩

/-- Whatever events arrive: as long as the hardware leaves no pair half done, links stay in pairs
between clients of the table, and no event follows a pointer to an erased client. -/
theorem links_stay_paired (config : LanConfig I) {events : List (LanEvent I × Answers)}
    {t : IpacmLanToLan I} (run : Run (eventCallback config) (AnswersPair config) .init events t) :
    t.LinksPaired ∧ ∀ event, t.AnswersPair config event → (t.eventCallback config event).isSome := by
  have paired := run.invariant (fun s => s.v4.net.Paired ∧ s.v6.net.Paired)
    (fun s event s' paired ok stepped => by
      obtain ⟨t, there, paired'⟩ := eventCallback_paired paired ok
      rw [there] at stepped
      exact Option.some.inj stepped ▸ paired')
    ⟨paired_init, paired_init⟩
  refine ⟨⟨paired.1.linksPaired, paired.2.linksPaired⟩, fun event ok => ?_⟩
  obtain ⟨t', stepped, -⟩ := eventCallback_paired paired ok
  simp [stepped]

end IpacmLanToLan

/-! ### Runs in which the hardware does what it is asked -/

/-- All operations of the hardware succeed. -/
structure Answers.Succeed (answers : Answers) : Prop where
  add : ∀ i, (answers.add i).taken = true
  del : ∀ i, (answers.del i).gone = true
  fltAdd : ∀ i, (answers.fltAdd i).isSome = true
  fltDel : ∀ i, answers.fltDel i = true

theorem addsAlike_of_succeed {answers : Answers} (succeed : answers.Succeed)
    (active : Ptr K → Bool) (entries : List (PeerInfo K)) :
    ∀ i num, Family.AddsAlike answers active i num entries := by
  induction entries with
  | nil => exact fun _ _ => trivial
  | cons e rest ih =>
    intro i num
    simp only [Family.AddsAlike, succeed.add]
    split
    · exact ⟨trivial, ih _ _⟩
    · exact ih _ _

/-- No event connects a client to itself. -/
def Event.Apart (config : Config K A I) : Event A I → Prop
  | .newConnection src dst => config.key src ≠ config.key dst
  | _ => True

theorem Family.answersPair_of_succeed {config : Config K A I} {answers : Answers}
    (succeed : answers.Succeed) {event : Event A I} (apart : event.Apart config)
    (f : Family K A I) : f.AnswersPair config answers event := by
  cases event with
  | clientActive ip mac iface =>
    intro p c _ _
    split
    · exact fun _ i _ => succeed.del i
    · exact addsAlike_of_succeed succeed _ _ _ _
  | clientInactive ip => exact fun _ _ _ _ i _ => succeed.del i
  | clientDisconnect ip => exact fun _ _ _ _ i _ => succeed.del i
  | clientPowerSave ip => trivial
  | clientPowerRecover ip => exact fun _ _ _ _ _ _ _ => addsAlike_of_succeed succeed _ _ _ _
  | newConnection src dst =>
    intro p q c d found_p found_q _ _
    refine ⟨fun same => apart ?_, fun _ _ _ _ _ => succeed.add 1⟩
    rw [← (find_eq_some found_p).1, ← (find_eq_some found_q).1, same]
  | delConnection src dst => trivial

namespace IpacmLanToLan

variable {I : Type}

/-- The hardware does what the event asks for, and the event connects no client to itself. -/
def Smooth (config : LanConfig I) (event : LanEvent I × Answers) : Prop :=
  event.2.Succeed ∧
    match event.1.dispatch with
    | none => True
    | some (.inl e) => e.Apart config.v4
    | some (.inr e) => e.Apart config.v6

theorem Smooth.answersPair {config : LanConfig I} {event : LanEvent I × Answers}
    (smooth : Smooth config event) (s : IpacmLanToLan I) : s.AnswersPair config event := by
  obtain ⟨succeed, apart⟩ := smooth
  unfold AnswersPair
  split
  next => trivial
  next e target =>
    rw [target] at apart
    exact Family.answersPair_of_succeed succeed apart s.v4
  next e target =>
    rw [target] at apart
    exact Family.answersPair_of_succeed succeed apart s.v6

/-! ### Sample runs -/

/-- Hardware that takes everything and hands out small numbers. -/
def willing : Answers where
  add i := ⟨some i.toUInt32, some [i.toUInt32], some i.toUInt32, {}⟩
  del _ := {}
  fltAdd i := some (i + 8).toUInt32
  fltDel _ := true

theorem willing_succeed : willing.Succeed := by
  constructor <;> intro i <;> rfl

/-- The second direction of every pair is refused. -/
def halfWilling : Answers :=
  { willing with add i := if i % 2 = 0 then willing.add i else ⟨none, none, none, {}⟩ }

/-- Interfaces are numbers, each of its own category; the tracker drives the connections. -/
def sampleConfig : LanConfig Nat := ⟨id, true, []⟩

def sampleClient (ip : UInt32) (iface : Nat) : IpacmEventLanClient Nat :=
  ⟨.v4, ip, #v[0, 0, 0, 0], #v[2, 0, 0, 0, 0, 1], some iface⟩

def sampleConnection (src dst : UInt32) : IpacmEventConnection :=
  ⟨.v4, src, dst, #v[0, 0, 0, 0], #v[0, 0, 0, 0]⟩

/-- Two clients appear and a connection between them is opened. -/
def meeting (answers : Answers) : List (LanEvent Nat × Answers) :=
  [(.ipaLanClientActive (sampleClient 1 0), answers),
    (.ipaLanClientActive (sampleClient 2 1), answers),
    (.ipaLanToLanNewConnection (sampleConnection 1 2), answers)]

theorem links_stay_paired_sample :
    ∃ t, (meeting willing).foldlM (eventCallback sampleConfig) .init = some t ∧
      t.v4.numOffloadPair = 1 ∧ t.LinksPaired := by
  obtain ⟨t, evaluates, counted⟩ : ∃ t, (meeting willing).foldlM (eventCallback sampleConfig) .init =
      some t ∧ t.v4.numOffloadPair = 1 := by
    have counted : ((meeting willing).foldlM (eventCallback sampleConfig) .init).map
        (·.v4.numOffloadPair) = some 1 := by decide
    exact Option.map_eq_some_iff.mp counted
  have smooth : ∀ event ∈ meeting willing, Smooth sampleConfig event := by
    simp only [meeting, List.forall_mem_cons]
    exact ⟨⟨willing_succeed, trivial⟩, ⟨willing_succeed, trivial⟩,
      ⟨willing_succeed, (by decide : (1 : UInt32) ≠ 2)⟩, by simp⟩
  exact ⟨t, evaluates, counted, (links_stay_paired sampleConfig
    (.of_foldlM (fun event member s => (smooth event member).answersPair s) evaluates)).1⟩

/-- Refused half way: the first client keeps a link to the second, which has none back. -/
theorem half_made_pair :
    ¬ ∀ (events : List (LanEvent Nat × Answers)) (t : IpacmLanToLan Nat),
      Run (eventCallback sampleConfig) (fun _ _ => True) .init events t → t.LinksPaired := by
  intro always
  have outcome : ((meeting halfWilling).foldlM (eventCallback sampleConfig) .init).map
      (fun t => ((t.v4.deref ⟨1, 0⟩).map (·.link.countP (linkTo ⟨2, 1⟩)),
        (t.v4.deref ⟨2, 1⟩).map (·.link.countP (linkTo ⟨1, 0⟩)))) = some (some 1, some 0) := by
    decide
  obtain ⟨t, evaluates, counts⟩ := Option.map_eq_some_iff.mp outcome
  have paired := always _ t (.of_foldlM (fun _ _ _ => trivial) evaluates)
  simp only [Prod.mk.injEq] at counts
  obtain ⟨c, at_p, forth⟩ := Option.map_eq_some_iff.mp counts.1
  obtain ⟨d, at_q, back⟩ := Option.map_eq_some_iff.mp counts.2
  have equal := paired.1.bothWays _ _ c d at_p at_q
  omega

end IpacmLanToLan

end Hima.LanToLan
