import Hima.LanToLan.Net

/-!
# The loops that link and unlink

What the creation of a pair of links can end in, and a rule for each loop over links or peers: a
predicate that every pass keeps holds at the end. The rules need the invariant `Paired` and the
answers of the hardware under which no pass leaves the loop early.
-/
namespace Hima.LanToLan

open Slots FirstMatch Net

set_option linter.unusedSectionVars false

variable {K A I : Type} [DecidableEq K]

/-- The hardware takes the link. -/
def AddAnswer.taken (a : AddAnswer) : Bool := a.hdr.isSome && a.rt.isSome && a.flt.isSome

/-- The hardware deletes all three parts of the link. -/
def DelAnswer.gone (a : DelAnswer) : Bool := a.flt && a.rt && a.hdr

/-- The calls that install a link of `c` to `d`. -/
def addCalls (c d : ClientInfo K A I) (l : OffloadLinkInfo K) : List (LanCall A I) :=
  [.addLan2lanHdr d.pIface c.macAddr d.macAddr (some l.hdrHdl),
    .addLan2lanRtRule d.pIface c.ip d.ip l.hdrHdl (some l.rtRuleHdl),
    .addLan2lanFltRule c.pIface c.ip d.ip (some l.fltRuleHdl)]

/-- The calls that remove a link of `c` to `d`. -/
def delCalls (c d : ClientInfo K A I) (l : OffloadLinkInfo K) : List (LanCall A I) :=
  [.delLan2lanFltRule c.pIface l.fltRuleHdl true, .delLan2lanRtRule d.pIface l.rtRuleHdl true,
    .delLan2lanHdr d.pIface l.hdrHdl true]

/-- A client without its links. -/
def ClientInfo.bare (c : ClientInfo K A I) : ClientInfo K A I := { c with link := [] }

/-- The clients without their links. -/
def Net.bare (n : Net K A I) (p : Ptr K) : Option (ClientInfo K A I) :=
  (n.client p).map ClientInfo.bare

namespace Net

variable {n : Net K A I} {p q : Ptr K} {c cp cq : ClientInfo K A I}

@[simp] theorem bare_call (calls : List (LanCall A I)) : (n.call calls).bare = n.bare := rfl

@[simp] theorem bare_count (num : UInt8) : (n.count num).bare = n.bare := rfl

theorem bare_put_link (at_p : n.client p = some c) (link : List (OffloadLinkInfo K)) :
    (n.put p { c with link := link }).bare = n.bare := by
  funext a
  simp only [bare, client_put]
  split
  next same => simp [same, at_p, ClientInfo.bare]
  next => rfl

theorem bare_put_put (at_p : n.client p = some cp) (at_q : n.client q = some cq) (apart : p ≠ q)
    (ps qs : List (OffloadLinkInfo K)) :
    ((n.put p { cp with link := ps }).put q { cq with link := qs }).bare = n.bare := by
  have still : (n.put p { cp with link := ps }).client q = some cq := by
    simp [client_put, Ne.symm apart, at_q]
  rw [bare_put_link still, bare_put_link at_p]

/-- Nets that agree up to links have the same clients, up to links. -/
theorem client_of_bare {n' : Net K A I} (same : n'.bare = n.bare) (at_p : n.client p = some c) :
    ∃ link, n'.client p = some { c with link := link } := by
  have here : n'.bare p = some c.bare := by rw [same, bare, at_p, Option.map_some]
  obtain ⟨d, at_p', bares⟩ := Option.map_eq_some_iff.mp here
  refine ⟨d.link, ?_⟩
  have rebuilt : d = { d.bare with link := d.link } := rfl
  rw [at_p', rebuilt, bares]
  rfl

theorem peers_of_bare {n' : Net K A I} (same : n'.bare = n.bare) : n'.peers = n.peers := by
  have stripped : ∀ m : Net K A I, m.peers = fun a => ((m.bare a).map (·.peer)).getD [] := by
    intro m
    funext a
    simp only [peers, bare, Option.map_map]
    rfl
  rw [stripped n', stripped n, same]

end Net

namespace Family

variable {f : Family K A I} {p q : Ptr K} {cp cq : ClientInfo K A I}

/-! ### A pair of links -/

/-- What `add_offload_link` ends in. -/
inductive AddResult (answer : AddAnswer) (p q : Ptr K) (cp cq : ClientInfo K A I)
    (f : Family K A I) : Bool → Family K A I → Prop
  | full : maxOffloadPair ≤ f.numOffloadPair → AddResult answer p q cp cq f false f
  | refused (calls : List (LanCall A I)) : ¬ maxOffloadPair ≤ f.numOffloadPair →
      answer.taken = false → AddResult answer p q cp cq f false (f.call calls)
  | added (l : OffloadLinkInfo K) : ¬ maxOffloadPair ≤ f.numOffloadPair → answer.taken = true →
      l.peerPointer = q →
      AddResult answer p q cp cq f true
        ((f.call (addCalls cp cq l)).set p { cp with link := cp.link ++ [l] })

theorem addOffloadLink_result (answer : AddAnswer) (at_p : f.deref p = some cp) (at_q : f.deref q = some cq) :
    ∃ res f', f.addOffloadLink answer p q = some (res, f') ∧ AddResult answer p q cp cq f res f' := by
  by_cases full : maxOffloadPair ≤ f.numOffloadPair
  · exact ⟨false, f, by simp [addOffloadLink, full], .full full⟩
  · obtain ⟨hdr, rt, flt, undo⟩ := answer
    simp only [addOffloadLink, full, if_false, at_p, at_q, Option.bind_eq_bind, Option.bind_some]
    cases hdr with
    | none => exact ⟨_, _, rfl, .refused _ full rfl⟩
    | some hdr =>
      cases rt with
      | none => exact ⟨_, _, rfl, .refused _ full rfl⟩
      | some rt =>
        cases flt with
        | none => exact ⟨_, _, rfl, .refused _ full rfl⟩
        | some flt => exact ⟨_, _, rfl, .added ⟨q, flt, rt, hdr⟩ full rfl rfl⟩

/-- What the two calls for the two directions of a pair end in, when the hardware takes both or
neither. -/
inductive PairResult (answer : AddAnswer) (p q : Ptr K) (cp cq : ClientInfo K A I)
    (n : Net K A I) : Bool → Net K A I → Prop
  | full : maxOffloadPair ≤ n.num → PairResult answer p q cp cq n false n
  | refused (calls : List (LanCall A I)) : ¬ maxOffloadPair ≤ n.num → answer.taken = false →
      PairResult answer p q cp cq n false (n.call calls)
  | linked (l r : OffloadLinkInfo K) : ¬ maxOffloadPair ≤ n.num → answer.taken = true →
      l.peerPointer = q → r.peerPointer = p →
      PairResult answer p q cp cq n true
        ((n.call (addCalls cp cq l ++ addCalls cq cp r)).linkUp p q cp cq l r)

theorem addBoth_result {a b : AddAnswer} (at_p : f.deref p = some cp) (at_q : f.deref q = some cq)
    (apart : p ≠ q) (alike : ¬ maxOffloadPair ≤ f.numOffloadPair → a.taken = b.taken) :
    ∃ f₁ res f', f.addOffloadLink a p q = some (res, f₁) ∧
      f₁.addOffloadLink b q p = some (res, f') ∧ f'.numOffloadPair = f.numOffloadPair ∧
      PairResult a p q cp cq f.net res f'.net := by
  obtain ⟨res₁, f₁, first, result⟩ := addOffloadLink_result a at_p at_q
  -- the limit is not changed in between, so both directions fail or both are asked for
  cases result with
  | full full =>
    obtain ⟨res, f', second, result⟩ := addOffloadLink_result b at_q at_p
    cases result with
    | full => exact ⟨_, _, _, first, second, rfl, .full full⟩
    | refused _ room => exact absurd full room
    | added _ room => exact absurd full room
  | refused calls room no =>
    obtain ⟨res, f', second, result⟩ :=
      addOffloadLink_result (f := f.call calls) b (by simpa using at_q) (by simpa using at_p)
    cases result with
    | full full => exact absurd full room
    | refused calls' =>
      refine ⟨_, _, _, first, second, rfl, ?_⟩
      have joined : ((f.call calls).call calls').net = f.net.call (calls ++ calls') := by
        simp [Net.call, List.append_assoc]
      rw [joined]
      exact .refused _ room no
    | added _ _ yes => simp [← alike room, no] at yes
  | added l room yes l_to =>
    have at_p₁ : (f.call (addCalls cp cq l)).deref p = some cp := at_p
    have at_q₁ : ((f.call (addCalls cp cq l)).set p { cp with link := cp.link ++ [l] }).deref q = some cq := by
      rw [deref_set at_p₁ (by rfl), if_neg (Ne.symm apart)]
      exact at_q
    have at_p₂ : ((f.call (addCalls cp cq l)).set p { cp with link := cp.link ++ [l] }).deref p =
        some { cp with link := cp.link ++ [l] } := by
      rw [deref_set at_p₁ (by rfl), if_pos rfl]
    obtain ⟨res, f', second, result⟩ := addOffloadLink_result b at_q₁ at_p₂
    cases result with
    | full full => exact absurd full room
    | refused _ _ no => simp [← alike room, yes] at no
    | added r _ _ r_to =>
      refine ⟨_, _, _, first, second, rfl, ?_⟩
      rw [net_set (by simpa using at_q₁) (by rfl), net_call, net_set at_p₁ (by rfl), net_call]
      have joined : (((f.net.call (addCalls cp cq l)).put p { cp with link := cp.link ++ [l] }).call
          (addCalls cq { cp with link := cp.link ++ [l] } r)).put q
            { cq with link := cq.link ++ [r] } =
          (f.net.call (addCalls cp cq l ++ addCalls cq cp r)).linkUp p q cp cq l r := by
        simp [Net.linkUp, Net.call, Net.put, addCalls]
      rw [joined]
      exact .linked l r room yes l_to r_to

/-! ### `check_potential_link` -/

/-- For each peer that the loop links, the hardware takes both directions or neither. The counter
tells when the loop stops to ask. -/
def AddsAlike (answers : Answers) (active : Ptr K → Bool) : Nat → UInt8 → List (PeerInfo K) → Prop
  | _, _, [] => True
  | i, num, e :: rest =>
    if active e.peerPointer ∧ 0 < e.numConnection ∧ ¬ maxOffloadPair ≤ num then
      (answers.add (2 * i)).taken = (answers.add (2 * i + 1)).taken ∧
        AddsAlike answers active (i + 1)
          (if (answers.add (2 * i)).taken then num + 1 else num) rest
    else AddsAlike answers active (i + 1) num rest

/-- Whether a pointer refers to an active client. -/
def activeAt (f : Family K A I) (p : Ptr K) : Bool := (f.deref p).any (·.isActive)

theorem checkPotentialLinkFrom_rule (answers : Answers) {client : Ptr K}
    (J : List (PeerInfo K) → Net K A I → Prop) (active : Ptr K → Bool)
    (skip : ∀ e rest n, J (e :: rest) n → J rest n)
    (refused : ∀ i e rest n calls, (answers.add (2 * i)).taken = false → J (e :: rest) n →
      J rest (n.call calls))
    (linked : ∀ e rest n cp cq l r, n.Paired → J (e :: rest) n → n.client client = some cp →
      n.client e.peerPointer = some cq → cp.isActive = true → cq.isActive = true →
      e.peerPointer ≠ client → 0 < e.numConnection → active e.peerPointer = true → ¬ maxOffloadPair ≤ n.num →
      l.peerPointer = e.peerPointer → r.peerPointer = client →
      J rest (((n.call (addCalls cp cq l ++ addCalls cq cp r)).linkUp client e.peerPointer cp cq
        l r).count (n.num + 1))) {entries : List (PeerInfo K)} :
    ∀ {f : Family K A I} {i : Nat} {c : ClientInfo K A I}, f.net.Paired →
      f.deref client = some c → c.isActive = true →
      (∀ e ∈ entries, e.peerPointer ≠ client ∧ active e.peerPointer = f.activeAt e.peerPointer ∧
        ∃ d, f.deref e.peerPointer = some d) →
      AddsAlike answers active i f.numOffloadPair entries → J entries f.net →
      ∃ f', f.checkPotentialLinkFrom answers client i entries = some f' ∧ J [] f'.net ∧
        f'.net.Paired ∧ f'.net.bare = f.net.bare := by
  -- over the peers; the net between two passes is paired, and `J` of the peers ahead holds of it
  induction entries with
  | nil => exact fun paired _ _ _ _ start => ⟨_, rfl, start, paired, rfl⟩
  | cons e rest ih =>
    intro f i c paired at_p c_active known alike start
    obtain ⟨apart, active_eq, d, at_q⟩ := known e (by simp)
    have later : ∀ e' ∈ rest, e'.peerPointer ≠ client ∧ active e'.peerPointer = f.activeAt e'.peerPointer ∧
        ∃ d, f.deref e'.peerPointer = some d := fun e' member => known e' (by simp [member])
    simp only [checkPotentialLinkFrom, at_q, Option.bind_eq_bind, Option.bind_some]
    have here : active e.peerPointer = d.isActive := by simp [active_eq, activeAt, at_q]
    by_cases wanted : d.isActive = true ∧ 0 < e.numConnection
    -- the peer gets a pair of links, or the hardware or the limit refuses both
    · simp only [if_pos wanted]
      have same_answer : ¬ maxOffloadPair ≤ f.numOffloadPair →
          (answers.add (2 * i)).taken = (answers.add (2 * i + 1)).taken := by
        intro room
        simp only [AddsAlike, here, wanted.1, wanted.2, room] at alike
        exact alike.1
      obtain ⟨f₁, res, f₂, first, second, num_eq, result⟩ :=
        addBoth_result at_p at_q (Ne.symm apart) same_answer
      simp only [first, second, Option.bind_some]
      generalize net₂_eq : f₂.net = n₂ at result
      cases result with
      | full full =>
        simp only [AddsAlike, here, wanted.1, wanted.2, show maxOffloadPair ≤ f.numOffloadPair from full,
          not_true, and_false, if_false] at alike
        have same_deref : f₂.deref = f.deref := congrArg Net.client net₂_eq
        have next := ih (f := f₂) (i := i + 1) (c := c) (net₂_eq ▸ paired)
          (by rw [same_deref]; exact at_p) c_active
          (by simpa only [activeAt, same_deref] using later) (by rw [num_eq]; exact alike)
          (by rw [net₂_eq]; exact skip _ _ _ start)
        simpa [net₂_eq] using next
      | refused calls room no =>
        have same_deref : f₂.deref = f.deref := congrArg Net.client net₂_eq
        have room' : ¬ maxOffloadPair ≤ f.numOffloadPair := room
        simp only [AddsAlike, here, wanted.1, wanted.2, room', no] at alike
        have next := ih (f := f₂) (i := i + 1) (c := c) (net₂_eq ▸ paired.call calls)
          (by rw [same_deref]; exact at_p) c_active
          (by simpa only [activeAt, same_deref] using later) (by rw [num_eq]; exact alike.2)
          (by rw [net₂_eq]; exact refused i _ _ _ _ no start)
        simpa [net₂_eq] using next
      | linked l r room yes l_to r_to =>
        have room' : ¬ maxOffloadPair ≤ f.numOffloadPair := room
        simp only [AddsAlike, here, wanted.1, wanted.2, room', yes] at alike
        have net₃ : ({ f₂ with numOffloadPair := f₂.numOffloadPair + 1 } : Family K A I).net =
            ((f.net.call (addCalls c d l ++ addCalls d c r)).linkUp client e.peerPointer c d
              l r).count (f.net.num + 1) := by
          rw [net_count, net₂_eq, num_eq]
          rfl
        generalize { f₂ with numOffloadPair := f₂.numOffloadPair + 1 } = f₃ at net₃
        -- the new links leave the clients as they are, so the peers ahead are still known
        have bare₃ : f₃.net.bare = f.net.bare := by
          rw [net₃, bare_count]
          exact bare_put_put (by simpa using at_p) (by simpa using at_q) (Ne.symm apart) _ _
        have paired₃ : f₃.net.Paired := by
          rw [net₃]
          exact ((paired.call _).linkUp (by simpa using at_p) (by simpa using at_q) (Ne.symm apart)
            l_to r_to c_active wanted.1).count _
        obtain ⟨link, at_p₃⟩ := client_of_bare bare₃ (p := client) (by simpa using at_p)
        have num₃ : f₃.numOffloadPair = f.numOffloadPair + 1 := congrArg num net₃
        have later₃ : ∀ e' ∈ rest, e'.peerPointer ≠ client ∧
            active e'.peerPointer = f₃.activeAt e'.peerPointer ∧
            ∃ d, f₃.deref e'.peerPointer = some d := by
          intro e' member
          obtain ⟨apart', active', d', at_e'⟩ := later e' member
          obtain ⟨link', at_e₃⟩ := client_of_bare bare₃ (p := e'.peerPointer) (by simpa using at_e')
          have at_e₃ : f₃.deref e'.peerPointer = some { d' with link := link' } := at_e₃
          exact ⟨apart', by simp [active', activeAt, at_e', at_e₃], _, at_e₃⟩
        obtain ⟨f', run, done, paired', bare'⟩ := ih (f := f₃) (i := i + 1) paired₃ at_p₃ c_active
          later₃ (by rw [num₃]; exact alike.2)
          (by
            rw [net₃]
            exact linked e rest f.net c d l r paired start (by simpa using at_p)
              (by simpa using at_q) c_active wanted.1 apart wanted.2 (here.trans wanted.1)
              room l_to r_to)
        exact ⟨f', run, done, paired', bare'.trans bare₃⟩
    · have unwanted : ¬ (active e.peerPointer = true ∧ 0 < e.numConnection ∧
          ¬ maxOffloadPair ≤ f.numOffloadPair) := fun all => wanted ⟨here ▸ all.1, all.2.1⟩
      simp only [AddsAlike, if_neg unwanted] at alike
      rw [if_neg wanted]
      exact ih paired at_p c_active later alike (skip _ _ _ start)

end Family

/-!
## The loops that take down

`turnoff_offload_links`, `clear_peer_list` and `erase_offload_link`. The first two walk along a
list of the client while they shorten the lists of its peers. Between two passes the client still
holds what was dealt with, so the rules speak of the net in which its list is the rest of the walk.
-/
set_option linter.unusedSectionVars false

variable {K A I : Type} [DecidableEq K]

/-- The clients without their peers. -/
def Net.sansPeers (n : Net K A I) (p : Ptr K) : Option (ClientInfo K A I) :=
  (n.client p).map fun c => { c with peer := [] }

/-- The entries of `p` for `q` and of `q` for `p` become `num`; the rest of the net stays. -/
structure Net.PeerStep (p q : Ptr K) (num : Option Int) (n n' : Net K A I) : Prop where
  paired : n'.Paired
  sansPeers : n'.sansPeers = n.sansPeers
  num_eq : n'.num = n.num
  calls : n'.calls = n.calls
  peerNum : ∀ a b, n'.peerNum a b = if a = p ∧ b = q ∨ a = q ∧ b = p then num else n.peerNum a b

namespace Net

variable {n n' : Net K A I} {p q : Ptr K} {c cp cq : ClientInfo K A I}

/-- The net is determined by what its three parts are. -/
theorem ext' {n n' : Net K A I} (client : ∀ p, n.client p = n'.client p) (num : n.num = n'.num)
    (calls : n.calls = n'.calls) : n = n' := by
  cases n
  cases n'
  simp_all [funext_iff]

/-- The first entries of `p` for `q` and of `q` for `p` are taken out. -/
def unpeer (n : Net K A I) (p q : Ptr K) (cp cq : ClientInfo K A I) : Net K A I :=
  (n.put p { cp with peer := cp.peer.eraseP (peerTo q) }).put q
    { cq with peer := cq.peer.eraseP (peerTo p) }

theorem sansPeers_put (at_p : n.client p = some c) (peer : List (PeerInfo K)) :
    (n.put p { c with peer := peer }).sansPeers = n.sansPeers := by
  funext a
  simp only [sansPeers, client_put]
  split
  next same => simp [same, at_p]
  next => rfl

theorem client_of_sansPeers (same : n'.sansPeers = n.sansPeers) (at_p : n.client p = some c) :
    ∃ peer, n'.client p = some { c with peer := peer } := by
  have here : n'.sansPeers p = some { c with peer := [] } := by
    rw [same, sansPeers, at_p, Option.map_some]
  obtain ⟨d, at_p', stripped⟩ := Option.map_eq_some_iff.mp here
  refine ⟨d.peer, ?_⟩
  have rebuilt : d = { ({ d with peer := [] } : ClientInfo K A I) with peer := d.peer } := rfl
  rw [at_p', rebuilt, stripped]

theorem links_of_sansPeers (same : n'.sansPeers = n.sansPeers) : n'.links = n.links := by
  have stripped : ∀ m : Net K A I, m.links = fun a => ((m.sansPeers a).map (·.link)).getD [] := by
    intro m
    funext a
    simp only [links, sansPeers, Option.map_map]
    rfl
  rw [stripped n', stripped n, same]

theorem PeerStep.linkCount {num : Option Int} (step : PeerStep p q num n n') :
    n'.linkCount = n.linkCount := by
  funext a b
  rw [Net.linkCount, links_of_sansPeers step.sansPeers, Net.linkCount]

/-! ### Entries of two clients for each other -/

section Entries

variable (at_p : n.client p = some cp) (at_q : n.client q = some cq) (apart : p ≠ q)
  {num : Option Int} {ps qs : List (PeerInfo K)}
  (ps_num : (ps.find? (peerTo q)).map (·.numConnection) = num)
  (qs_num : (qs.find? (peerTo p)).map (·.numConnection) = num)
  (ps_rest : ∀ b, b ≠ q → ps.find? (peerTo b) = cp.peer.find? (peerTo b))
  (qs_rest : ∀ b, b ≠ p → qs.find? (peerTo b) = cq.peer.find? (peerTo b))
include at_p at_q apart ps_num qs_num ps_rest qs_rest

/-- After both writes the entries of `p` for `q` and of `q` for `p` are `num`, and no other changed. -/
theorem peerNum_put_put (a b : Ptr K) :
    ((n.put p { cp with peer := ps }).put q { cq with peer := qs }).peerNum a b =
      if a = p ∧ b = q ∨ a = q ∧ b = p then num else n.peerNum a b := by
  simp only [peerNum_put]
  by_cases is_q : a = q
  · subst is_q
    by_cases to_p : b = p
    · subst to_p
      simp [qs_num]
    · simp [to_p, Ne.symm apart, peerNum_eq at_q, qs_rest b to_p]
  · by_cases is_p : a = p
    · subst is_p
      by_cases to_q : b = q
      · subst to_q
        simp [is_q, ps_num]
      · simp [is_q, to_q, peerNum_eq at_p, ps_rest b to_q]
    · simp [is_p, is_q]

theorem Paired.putPeers (h : n.Paired) (ps_once : ∀ b, ps.countP (peerTo b) ≤ 1)
    (qs_once : ∀ b, qs.countP (peerTo b) ≤ 1) :
    ((n.put p { cp with peer := ps }).put q { cq with peer := qs }).Paired := by
  have entries := peerNum_put_put at_p at_q apart ps_num qs_num ps_rest qs_rest
  refine h.of_peers ?_ (fun a b => ?_) (fun a => ?_) (fun a b => ?_) ?_
  · exact links_put_put at_p at_q rfl rfl
  · rw [entries, entries, h.peersMutual a b]
    simp only [and_comm (a := b = p), and_comm (a := b = q), or_comm]
  · have not_both : ¬ (a = p ∧ a = q ∨ a = q ∧ a = p) := by
      rintro (⟨rfl, same⟩ | ⟨rfl, same⟩)
      · exact apart same
      · exact apart same.symm
    rw [entries, if_neg not_both, h.peersApart a]
  · simp only [peers_put]
    split
    · exact qs_once b
    · split
      · exact ps_once b
      · exact h.peersOnce a b
  · intro a c at_a inactive awake
    simp only [client_put] at at_a
    split at at_a
    · cases at_a
      exact h.idle q cq at_q inactive awake
    · split at at_a
      · cases at_a
        exact h.idle p cp at_p inactive awake
      · exact h.idle a c at_a inactive awake

/-- The two writes of a step, from what they do to the entries. -/
theorem PeerStep.of_lists (paired : n.Paired) (ps_once : ∀ b, ps.countP (peerTo b) ≤ 1)
    (qs_once : ∀ b, qs.countP (peerTo b) ≤ 1) :
    PeerStep p q num n ((n.put p { cp with peer := ps }).put q { cq with peer := qs }) where
  paired := paired.putPeers at_p at_q apart ps_num qs_num ps_rest qs_rest ps_once qs_once
  sansPeers := by
    have still : (n.put p { cp with peer := ps }).client q = some cq := by
      simp [client_put, Ne.symm apart, at_q]
    rw [sansPeers_put still, sansPeers_put at_p]
  num_eq := rfl
  calls := rfl
  peerNum := peerNum_put_put at_p at_q apart ps_num qs_num ps_rest qs_rest

end Entries

/-- Taking out the entries of two clients for each other. -/
theorem Paired.unpeer_step (h : n.Paired) (at_p : n.client p = some cp)
    (at_q : n.client q = some cq) (apart : p ≠ q) :
    PeerStep p q none n (n.unpeer p q cp cq) := by
  have once_p : ∀ b, cp.peer.countP (peerTo b) ≤ 1 := fun b => by
    simpa [peers_eq at_p] using h.peersOnce p b
  have once_q : ∀ b, cq.peer.countP (peerTo b) ≤ 1 := fun b => by
    simpa [peers_eq at_q] using h.peersOnce q b
  refine .of_lists at_p at_q apart ?_ ?_ (fun b other => find?_eraseP_ne (Ne.symm other) _)
    (fun b other => find?_eraseP_ne (Ne.symm other) _) h (fun b => ?_) (fun b => ?_)
  · rw [find?_eraseP_self (once_p q)]
    rfl
  · rw [find?_eraseP_self (once_q p)]
    rfl
  · rw [countP_eraseP]
    exact Nat.le_trans (Nat.sub_le _ _) (once_p b)
  · rw [countP_eraseP]
    exact Nat.le_trans (Nat.sub_le _ _) (once_q b)

/-- What a client of a paired net is linked to is another client, with a link back. -/
theorem Paired.back (h : n.Paired) (at_p : n.client p = some cp) {l : OffloadLinkInfo K}
    (member : l ∈ cp.link) :
    l.peerPointer ≠ p ∧ ∃ cq r, n.client l.peerPointer = some cq ∧ cq.link.find? (linkTo p) = some r := by
  have linked : 0 < n.linkCount p l.peerPointer := by
    rw [linkCount_eq at_p]
    exact countP_hasKey_pos.mpr ⟨l, member, rfl⟩
  refine ⟨fun same => ?_, ?_⟩
  · have none_self := h.linksApart p
    rw [same] at linked
    omega
  · rw [h.linksMutual] at linked
    obtain ⟨cq, at_q⟩ := client_of_linkCount linked
    rw [linkCount_eq at_q, ← find?_hasKey_isSome] at linked
    obtain ⟨r, found⟩ := Option.isSome_iff_exists.mp linked
    exact ⟨cq, r, at_q, found⟩

/-- What a client of a paired net has an entry for is another client, with an entry back. -/
theorem Paired.backPeer (h : n.Paired) (at_p : n.client p = some cp) {e : PeerInfo K} (member : e ∈ cp.peer) :
    e.peerPointer ≠ p ∧ ∃ cq e', n.client e.peerPointer = some cq ∧ cq.peer.find? (peerTo p) = some e' := by
  have found : (cp.peer.find? (peerTo e.peerPointer)).isSome := by
    simp only [List.find?_isSome]
    exact ⟨e, member, by simp⟩
  have known : n.peerNum p e.peerPointer ≠ none := by
    rw [peerNum_eq at_p]
    simpa using Option.ne_none_iff_isSome.mpr found
  refine ⟨fun same => ?_, ?_⟩
  · rw [same] at known
    exact known (h.peersApart p)
  · rw [h.peersMutual] at known
    obtain ⟨cq, at_q⟩ := client_of_peerNum known
    rw [peerNum_eq at_q] at known
    cases back : cq.peer.find? (peerTo p) with
    | none => simp [back] at known
    | some e' => exact ⟨cq, e', at_q, back⟩

end Net

namespace Family

variable {f : Family K A I} {client : Ptr K} {c : ClientInfo K A I}

theorem net_put_same (at_p : f.deref client = some c) : f.net.put client c = f.net := by
  rw [put, Function.update_eq_self_iff.mpr ((client_net client).trans at_p).symm]

/-- The calls of `del_offload_link`, with the answers they get. -/
def answeredCalls (a : DelAnswer) (cp cq : ClientInfo K A I) (l : OffloadLinkInfo K) :
    List (LanCall A I) :=
  [.delLan2lanFltRule cp.pIface l.fltRuleHdl a.flt, .delLan2lanRtRule cq.pIface l.rtRuleHdl a.rt,
    .delLan2lanHdr cq.pIface l.hdrHdl a.hdr]

theorem delOffloadLink_eq (a : DelAnswer) (cp cq : ClientInfo K A I) (l : OffloadLinkInfo K) :
    f.delOffloadLink a cp.pIface cq.pIface l = (a.gone, f.call (answeredCalls a cp cq l)) := rfl

theorem answeredCalls_gone {a : DelAnswer} (gone : a.gone = true) (cp cq : ClientInfo K A I)
    (l : OffloadLinkInfo K) : answeredCalls a cp cq l = delCalls cp cq l := by
  simp only [DelAnswer.gone, Bool.and_eq_true] at gone
  simp [answeredCalls, delCalls, gone]

theorem delOffloadLink_gone {a : DelAnswer} (gone : a.gone = true) (cp cq : ClientInfo K A I)
    (l : OffloadLinkInfo K) :
    f.delOffloadLink a cp.pIface cq.pIface l = (true, f.call (delCalls cp cq l)) := by
  rw [delOffloadLink_eq, gone, answeredCalls_gone gone]

/-! ### `turnoff_offload_links` -/

variable (J : Net K A I → Prop)

section

variable {answers : Answers}
  (step : ∀ n cp cq l r rest, n.Paired → J n → n.client client = some cp →
    cp.link = l :: rest → n.client l.peerPointer = some cq → l.peerPointer ≠ client →
    cq.link.find? (linkTo client) = some r →
    J (((n.call (delCalls cp cq l ++ delCalls cq cp r)).unlink client l.peerPointer cp cq).count (n.num - 1)))
include step

theorem turnoffOffloadLinksFrom_rule (links : List (OffloadLinkInfo K)) :
    ∀ {f : Family K A I} {i : Nat}, f.deref client = some c →
      (f.net.put client { c with link := links }).Paired →
      J (f.net.put client { c with link := links }) →
      (∀ j < 2 * (i + links.length), (answers.del j).gone = true) →
      ∃ f', f.turnoffOffloadLinksFrom answers client i links = some (true, f') ∧
        f'.deref client = some c ∧ (f'.net.put client { c with link := [] }).Paired ∧
        J (f'.net.put client { c with link := [] }) ∧ f'.net.bare = f.net.bare := by
  induction links with
  | nil => exact fun at_p paired start _ => ⟨_, rfl, at_p, paired, start, rfl⟩
  | cons l rest ih =>
    intro f i at_p paired start gone
    -- the net in which the client holds the rest of the walk
    have at_p' : (f.net.put client { c with link := l :: rest }).client client =
        some { c with link := l :: rest } := client_put_self _ _ _
    obtain ⟨apart, cq, r, at_q', back⟩ := paired.back at_p' (List.mem_cons_self ..)
    have at_q : f.deref l.peerPointer = some cq := by
      simpa [client_put, apart] using at_q'
    have first := gone (2 * i) (by simp)
    have second := gone (2 * i + 1) (by simp; omega)
    simp only [turnoffOffloadLinksFrom, at_p, at_q, Option.bind_eq_bind, Option.bind_some,
      delOffloadLink_gone first, back, Bool.not_true, Bool.false_eq_true, if_false,
      delOffloadLink_gone second, if_neg apart]
    have whole : (f.net.put client { c with link := l :: rest }).call (delCalls c cq l ++ delCalls cq c r) =
        ((f.call (delCalls c cq l)).call (delCalls cq c r)).net.put client
          { c with link := l :: rest } := by
      simp [Net.call, Net.put, List.append_assoc]
    generalize called : (f.call (delCalls c cq l)).call (delCalls cq c r) = g at whole ⊢
    have g_deref : g.deref = f.deref := by rw [← called]; rfl
    have g_num : g.numOffloadPair = f.numOffloadPair := by rw [← called]; rfl
    have net_eq : ({ g.set l.peerPointer { cq with link := cq.link.eraseP (linkTo client) } with
        numOffloadPair := f.numOffloadPair - 1 } : Family K A I).net =
        (g.net.put l.peerPointer { cq with link := cq.link.eraseP (linkTo client) }).count
          (f.numOffloadPair - 1) := by
      rw [net_count, net_set (by rw [g_deref]; exact at_q) (by rfl)]
    have num_eq : (g.set l.peerPointer
        { cq with link := cq.link.eraseP (linkTo client) }).numOffloadPair =
        f.numOffloadPair := g_num
    rw [num_eq]
    generalize { g.set l.peerPointer { cq with link := cq.link.eraseP (linkTo client) } with
        numOffloadPair := f.numOffloadPair - 1 } = f₁ at net_eq ⊢
    have at_p₁ : f₁.deref client = some c := by
      rw [← client_net, net_eq, client_count, client_put, if_neg (Ne.symm apart), client_net, g_deref]
      exact at_p
    have next_net : f₁.net.put client { c with link := rest } =
        (((f.net.put client { c with link := l :: rest }).call
          (delCalls c cq l ++ delCalls cq c r)).unlink client l.peerPointer
            { c with link := l :: rest } cq).count (f.net.num - 1) := by
      rw [whole, net_eq]
      refine ext' (fun a => ?_) rfl rfl
      simp only [unlink, client_put, client_count, List.eraseP_cons, hasKey, decide_true, cond_true]
      split
      · rfl
      · rfl
    have paired₁ : (f₁.net.put client { c with link := rest }).Paired := by
      rw [next_net]
      exact ((paired.call _).unlink at_p' at_q' (Ne.symm apart)).count _
    have kept : J (f₁.net.put client { c with link := rest }) := by
      rw [next_net]
      exact step _ _ cq l r rest paired start at_p' rfl at_q' apart back
    obtain ⟨f', run, still, paired', done, bare⟩ := ih (i := i + 1) at_p₁ paired₁ kept
      (fun j below => gone j (by simp only [List.length_cons]; omega))
    refine ⟨f', run, still, paired', done, bare.trans ?_⟩
    rw [net_eq, bare_count, bare_put_link (by rw [client_net, g_deref]; exact at_q)]
    funext a
    simp [Net.bare, g_deref]

theorem turnoffOffloadLinks_rule (paired : f.net.Paired) (at_p : f.deref client = some c)
    (gone : ∀ i < 2 * c.link.length, (answers.del i).gone = true) (start : J f.net) :
    ∃ f', f.turnoffOffloadLinks answers client = some f' ∧
      f'.deref client = some { c with link := [] } ∧ f'.net.Paired ∧ J f'.net ∧
      f'.net.bare = f.net.bare := by
  have whole : f.net.put client { c with link := c.link } = f.net := net_put_same at_p
  obtain ⟨f', run, at_p', paired', done, bare⟩ := turnoffOffloadLinksFrom_rule J step
    c.link (i := 0) at_p (by rw [whole]; exact paired) (by rw [whole]; exact start)
    (by simpa using gone)
  have net' : (f'.set client { c with link := [] }).net = f'.net.put client { c with link := [] } :=
    net_set at_p' (by rfl)
  refine ⟨f'.set client { c with link := [] }, ?_, ?_, ?_, ?_, ?_⟩
  · simp [turnoffOffloadLinks, at_p, run, at_p']
  · rw [deref_set at_p' (by rfl), if_pos rfl]
  · rw [net']
    exact paired'
  · rw [net']
    exact done
  · rw [net', bare_put_link (by rw [client_net]; exact at_p'), bare]

end

/-! ### `clear_peer_list` -/

theorem clearPeerListFrom_rule
    (step : ∀ n cp cq e rest, n.Paired → J n → n.client client = some cp → cp.peer = e :: rest →
      n.client e.peerPointer = some cq → e.peerPointer ≠ client → J (n.unpeer client e.peerPointer cp cq))
    (entries : List (PeerInfo K)) :
    ∀ {f : Family K A I}, f.deref client = some c → (f.net.put client { c with peer := entries }).Paired →
      J (f.net.put client { c with peer := entries }) →
      ∃ f', f.clearPeerListFrom client entries = some (true, f') ∧ f'.deref client = some c ∧
        (f'.net.put client { c with peer := [] }).Paired ∧
        J (f'.net.put client { c with peer := [] }) := by
  -- the list is cleared at the end, so the invariant is about the list without the passed ones
  induction entries with
  | nil => exact fun at_p paired start => ⟨_, rfl, at_p, paired, start⟩
  | cons e rest ih =>
    intro f at_p paired start
    have at_p' : (f.net.put client { c with peer := e :: rest }).client client =
        some { c with peer := e :: rest } := client_put_self _ _ _
    obtain ⟨apart, cq, back, at_q', found⟩ := paired.backPeer at_p' (List.mem_cons_self ..)
    have at_q : f.deref e.peerPointer = some cq := by
      simpa [client_put, apart] using at_q'
    simp only [clearPeerListFrom, at_q, found, Option.bind_eq_bind, Option.bind_some, if_neg apart]
    have net_eq : (f.set e.peerPointer { cq with peer := cq.peer.eraseP (peerTo client) }).net =
        f.net.put e.peerPointer { cq with peer := cq.peer.eraseP (peerTo client) } :=
      net_set at_q (by rfl)
    generalize f.set e.peerPointer { cq with peer := cq.peer.eraseP (peerTo client) } = f₁
      at net_eq ⊢
    have at_p₁ : f₁.deref client = some c := by
      rw [← client_net, net_eq, client_put, if_neg (Ne.symm apart)]
      exact at_p
    -- erasing the back entry and passing the entry take both directions away
    have next_net : f₁.net.put client { c with peer := rest } =
        (f.net.put client { c with peer := e :: rest }).unpeer client e.peerPointer
          { c with peer := e :: rest } cq := by
      rw [net_eq]
      refine ext' (fun a => ?_) rfl rfl
      simp only [unpeer, client_put, List.eraseP_cons, hasKey, decide_true, cond_true]
      by_cases is_q : a = e.peerPointer
      · simp [is_q, apart]
      · by_cases is_p : a = client
        · simp [is_p, Ne.symm apart]
        · simp [is_q, is_p]
    have paired₁ : (f₁.net.put client { c with peer := rest }).Paired := by
      rw [next_net]
      exact (paired.unpeer_step at_p' at_q' (Ne.symm apart)).paired
    have kept : J (f₁.net.put client { c with peer := rest }) := by
      rw [next_net]
      exact step _ _ cq e rest paired start at_p' rfl at_q' apart
    exact ih at_p₁ paired₁ kept

theorem clearPeerList_rule
    (step : ∀ n cp cq e rest, n.Paired → J n → n.client client = some cp → cp.peer = e :: rest →
      n.client e.peerPointer = some cq → e.peerPointer ≠ client → J (n.unpeer client e.peerPointer cp cq))
    (paired : f.net.Paired) (at_p : f.deref client = some c) (start : J f.net) :
    ∃ f', f.clearPeerList client = some f' ∧ f'.deref client = some { c with peer := [] } ∧
      f'.net.Paired ∧ J f'.net := by
  have whole : f.net.put client { c with peer := c.peer } = f.net := net_put_same at_p
  obtain ⟨f', run, at_p', paired', done⟩ := clearPeerListFrom_rule J step c.peer at_p
    (by rw [whole]; exact paired) (by rw [whole]; exact start)
  have net' : (f'.set client { c with peer := [] }).net = f'.net.put client { c with peer := [] } :=
    net_set at_p' (by rfl)
  refine ⟨f'.set client { c with peer := [] }, ?_, ?_, ?_, ?_⟩
  · simp [clearPeerList, at_p, run, at_p']
  · rw [deref_set at_p' (by rfl), if_pos rfl]
  · rw [net']
    exact paired'
  · rw [net']
    exact done

end Family

end Hima.LanToLan
