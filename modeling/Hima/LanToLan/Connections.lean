import Hima.LanToLan.FltLoops

/-!
# Connections between two clients

What `add_connection`, `remove_connection` and `erase_offload_link` do to two clients of a paired
net.
-/
namespace Hima.LanToLan

open Slots FirstMatch Net

set_option linter.unusedSectionVars false

variable {K A I : Type} [DecidableEq K]

namespace Family

variable {f : Family K A I} {p q : Ptr K} {cp cq : ClientInfo K A I}

/-- The list of a client after a connection to `q` was counted. -/
def countUp (q : Ptr K) (peer : List (PeerInfo K)) : List (PeerInfo K) :=
  match peer.find? (peerTo q) with
  | some e =>
    setFirst (peerTo q) { e with numConnection := toInt32 (e.numConnection + 1) } peer
  | none => peer ++ [⟨q, 1⟩]

/-- The list of a client after a connection to `q` was uncounted. -/
def countDown (q : Ptr K) (peer : List (PeerInfo K)) : List (PeerInfo K) :=
  match peer.find? (peerTo q) with
  | some e =>
    if toInt32 (e.numConnection - 1) = 0 then peer.eraseP (peerTo q)
    else setFirst (peerTo q) { e with numConnection := toInt32 (e.numConnection - 1) } peer
  | none => peer

/-- What an entry says after one more connection. -/
def numUp : Option Int → Option Int
  | some k => some (toInt32 (k + 1))
  | none => some 1

/-- What an entry says after one connection less: it is erased at zero. -/
def numDown : Option Int → Option Int
  | some k => if toInt32 (k - 1) = 0 then none else some (toInt32 (k - 1))
  | none => none

section Lists

variable {peer : List (PeerInfo K)} {b : Ptr K}

theorem to_of_find? {e : PeerInfo K} (found : peer.find? (peerTo q) = some e) (num : Int) :
    ({ e with numConnection := num } : PeerInfo K).peerPointer = q := by
  have is : e.peerPointer = q := key_of_find? found
  exact is

theorem find?_countUp_self : ((countUp q peer).find? (peerTo q)).map (·.numConnection) =
    numUp ((peer.find? (peerTo q)).map (·.numConnection)) := by
  unfold countUp
  split
  next e found =>
    have to_q := to_of_find? found (toInt32 (e.numConnection + 1))
    rw [find?_setFirst_self found to_q, found]
    rfl
  next absent =>
    rw [find?_append_singleton_self absent rfl, absent]
    rfl

theorem find?_countUp_ne (other : b ≠ q) :
    (countUp q peer).find? (peerTo b) = peer.find? (peerTo b) := by
  unfold countUp
  split
  next e found =>
    have to_q := to_of_find? found (toInt32 (e.numConnection + 1))
    exact find?_setFirst_ne to_q (Ne.symm other) _
  next => exact find?_append_singleton_ne _ (Ne.symm other)

theorem countP_countUp (once : peer.countP (peerTo b) ≤ 1) :
    (countUp q peer).countP (peerTo b) ≤ 1 := by
  unfold countUp
  split
  next e found =>
    have to_q := to_of_find? found (toInt32 (e.numConnection + 1))
    exact Nat.le_trans (Nat.le_of_eq (countP_setFirst to_q peer b)) once
  next absent =>
    by_cases to_b : q = b
    · subst to_b
      have none_yet : peer.countP (peerTo q) = 0 := by
        simpa using absent
      simp [none_yet]
    · simpa [to_b] using once

theorem find?_countDown_self (once : peer.countP (peerTo q) ≤ 1) :
    ((countDown q peer).find? (peerTo q)).map (·.numConnection) =
      numDown ((peer.find? (peerTo q)).map (·.numConnection)) := by
  unfold countDown
  split
  next e found =>
    rw [found]
    simp only [Option.map_some, numDown]
    split
    · rw [find?_eraseP_self once]
      rfl
    · have to_q := to_of_find? found (toInt32 (e.numConnection - 1))
      rw [find?_setFirst_self found to_q]
      rfl
  next absent =>
    rw [absent]
    rfl

theorem find?_countDown_ne (other : b ≠ q) :
    (countDown q peer).find? (peerTo b) = peer.find? (peerTo b) := by
  unfold countDown
  split
  next e found =>
    split
    · exact find?_eraseP_ne (Ne.symm other) _
    · have to_q := to_of_find? found (toInt32 (e.numConnection - 1))
      exact find?_setFirst_ne to_q (Ne.symm other) _
  next => rfl

theorem countP_countDown (once : peer.countP (peerTo b) ≤ 1) :
    (countDown q peer).countP (peerTo b) ≤ 1 := by
  unfold countDown
  split
  next e found =>
    split
    · rw [countP_eraseP]
      exact le_trans (Nat.sub_le _ _) once
    · have to_q := to_of_find? found (toInt32 (e.numConnection - 1))
      exact Nat.le_trans (Nat.le_of_eq (countP_setFirst to_q peer b)) once
  next => exact once

end Lists

theorem addPeerTo_eq (at_p : f.deref p = some cp) :
    f.addPeerTo p q =
      some ((cp.peer.find? (peerTo q)).isNone, f.set p { cp with peer := countUp q cp.peer }) := by
  simp only [addPeerTo, at_p, countUp, Option.bind_eq_bind, Option.bind_some]
  cases cp.peer.find? (peerTo q) <;> rfl

theorem removePeerTo_net (at_p : f.deref p = some cp) :
    ∃ f', f.removePeerTo p q = some ((cp.peer.find? (peerTo q)).isSome &&
        (numDown ((cp.peer.find? (peerTo q)).map (·.numConnection))).isNone, f') ∧
      f'.net = f.net.put p { cp with peer := countDown q cp.peer } := by
  simp only [removePeerTo, at_p, countDown, Option.bind_eq_bind, Option.bind_some]
  cases found : cp.peer.find? (peerTo q) with
  | none =>
    exact ⟨f, rfl, (net_put_same at_p).symm⟩
  | some e =>
    by_cases last : toInt32 (e.numConnection - 1) = 0
    · exact ⟨f.set p { cp with peer := cp.peer.eraseP (peerTo q) }, by simp [last, numDown], by
        simp only [last, if_true]
        exact net_set at_p (by rfl)⟩
    · let e' := { e with numConnection := toInt32 (e.numConnection - 1) }
      refine ⟨f.set p { cp with peer := setFirst (peerTo q) e' cp.peer }, ?_, ?_⟩
      · simp [last, numDown, e']
      · simp only [last, if_false]
        exact net_set at_p (by rfl)

theorem peer_once (paired : f.net.Paired) (at_p : f.deref p = some cp) (b : Ptr K) :
    cp.peer.countP (peerTo b) ≤ 1 := by
  simpa [peers_eq (client_net p ▸ at_p)] using paired.peersOnce p b

/-- `add_connection` between two clients: an entry is inserted exactly when there was none. -/
theorem addConnection_step (paired : f.net.Paired) (at_p : f.deref p = some cp)
    (at_q : f.deref q = some cq) (apart : p ≠ q) :
    ∃ f', f.addConnection p q = some ((f.net.peerNum p q).isNone, f') ∧
      PeerStep p q (numUp (f.net.peerNum p q)) f.net f'.net := by
  have num_p := peerNum_eq (client_net p ▸ at_p) q
  have num_q := peerNum_eq (client_net q ▸ at_q) p
  have at_q₁ : (f.set p { cp with peer := countUp q cp.peer }).deref q = some cq := by
    rw [deref_set at_p (by rfl), if_neg (Ne.symm apart)]
    exact at_q
  refine ⟨(f.set p { cp with peer := countUp q cp.peer }).set q
    { cq with peer := countUp p cq.peer }, ?_, ?_⟩
  · have same : (cp.peer.find? (peerTo q)).isNone = (cq.peer.find? (peerTo p)).isNone := by
      have equal := paired.peersMutual p q
      rw [num_p, num_q] at equal
      simpa using congrArg Option.isNone equal
    simp only [addConnection, addPeerTo_eq at_p, addPeerTo_eq at_q₁, Option.bind_eq_bind,
      Option.bind_some, num_p, Option.isNone_map, same, Bool.or_self]
    rfl
  · rw [net_set at_q₁ (by rfl), net_set at_p (by rfl)]
    have once_p := peer_once paired at_p
    have once_q := peer_once paired at_q
    refine PeerStep.of_lists at_p at_q apart ?_ ?_ (fun b other => find?_countUp_ne other)
      (fun b other => find?_countUp_ne other) paired (fun b => countP_countUp (once_p b))
      (fun b => countP_countUp (once_q b))
    · rw [find?_countUp_self, num_p]
    · rw [find?_countUp_self, paired.peersMutual p q, num_q]

/-- `remove_connection` between two clients: the entries are erased exactly when they counted one
connection. -/
theorem removeConnection_step (paired : f.net.Paired) (at_p : f.deref p = some cp)
    (at_q : f.deref q = some cq) (apart : p ≠ q) :
    ∃ f', f.removeConnection p q = some ((f.net.peerNum p q).isSome &&
        (numDown (f.net.peerNum p q)).isNone, f') ∧
      PeerStep p q (numDown (f.net.peerNum p q)) f.net f'.net := by
  have num_p := peerNum_eq (client_net p ▸ at_p) q
  have num_q := peerNum_eq (client_net q ▸ at_q) p
  obtain ⟨f₁, run₁, net₁⟩ := removePeerTo_net (q := q) at_p
  have at_q₁ : f₁.deref q = some cq := by
    rw [← client_net, net₁, client_put, if_neg (Ne.symm apart)]
    exact at_q
  obtain ⟨f₂, run₂, net₂⟩ := removePeerTo_net (q := p) at_q₁
  refine ⟨f₂, ?_, ?_⟩
  · simp only [removeConnection, run₁, run₂, Option.bind_eq_bind, Option.bind_some]
    rw [paired.peersMutual p q, num_q, Option.isSome_map]
  · rw [net₂, net₁]
    have once_p := peer_once paired at_p
    have once_q := peer_once paired at_q
    refine PeerStep.of_lists at_p at_q apart ?_ ?_
      (fun b other => find?_countDown_ne other) (fun b other => find?_countDown_ne other) paired
      (fun b => countP_countDown (once_p b)) (fun b => countP_countDown (once_q b))
    · rw [find?_countDown_self (once_p q), num_p]
    · rw [find?_countDown_self (once_q p), paired.peersMutual p q, num_q]

/-- `remove_connection` for a client and itself finds no entry. -/
theorem removeConnection_self (paired : f.net.Paired) (at_p : f.deref p = some cp) :
    f.removeConnection p p = some (false, f) := by
  have absent : cp.peer.find? (peerTo p) = none := by
    have none_self := paired.peersApart p
    rw [peerNum_eq (client_net p ▸ at_p)] at none_self
    simpa using none_self
  simp [removeConnection, removePeerTo, at_p, absent]

/-- What a run of `add_connection` between clients of two keys did. -/
theorem addConnection_run {k l : K} {first : Bool} {f₁ : Family K A I} (paired : f.net.Paired)
    (found_p : f.find k = some p) (found_q : f.find l = some q) (keys : k ≠ l)
    (run : f.addConnection p q = some (first, f₁)) :
    p ≠ q ∧ first = (f.net.peerNum p q).isNone ∧ PeerStep p q (numUp (f.net.peerNum p q)) f.net f₁.net := by
  obtain ⟨rfl, c, at_p⟩ := find_eq_some found_p
  obtain ⟨rfl, d, at_q⟩ := find_eq_some found_q
  have apart : p ≠ q := fun same => keys (by rw [same])
  obtain ⟨f₁', run', step⟩ := addConnection_step paired at_p at_q apart
  obtain ⟨rfl, rfl⟩ : _ = first ∧ f₁' = f₁ := by simpa only [Option.some.injEq, Prod.mk.injEq] using run'.symm.trans run
  exact ⟨apart, rfl, step⟩

/-- What a run of `remove_connection` did: for a client and itself nothing. -/
theorem removeConnection_run {k l : K} {last : Bool} {f₁ : Family K A I} (paired : f.net.Paired)
    (found_p : f.find k = some p) (found_q : f.find l = some q) (run : f.removeConnection p q = some (last, f₁)) :
    last = false ∧ f₁ = f ∨ p ≠ q ∧ last = ((f.net.peerNum p q).isSome && (numDown (f.net.peerNum p q)).isNone) ∧
      PeerStep p q (numDown (f.net.peerNum p q)) f.net f₁.net := by
  obtain ⟨-, c, at_p⟩ := find_eq_some found_p
  obtain ⟨-, d, at_q⟩ := find_eq_some found_q
  by_cases same : p = q
  · subst same
    rw [removeConnection_self paired at_p] at run
    cases run
    exact .inl ⟨rfl, rfl⟩
  · obtain ⟨f₁', run', step⟩ := removeConnection_step paired at_p at_q same
    obtain ⟨rfl, rfl⟩ : _ = last ∧ f₁' = f₁ := by simpa only [Option.some.injEq, Prod.mk.injEq] using run'.symm.trans run
    exact .inr ⟨same, rfl, step⟩

/-- What `erase_offload_link` ends in: nothing is found, or the first link in each direction goes,
whatever the hardware answers. The counter follows when all deletions succeed. -/
inductive EraseResult (a b : DelAnswer) (p q : Ptr K) (cp cq : ClientInfo K A I) (n : Net K A I) :
    Net K A I → Prop
  | absent : n.linkCount p q = 0 → EraseResult a b p q cp cq n n
  | erased (l r : OffloadLinkInfo K) (calls : List (LanCall A I)) (num : UInt8) :
      cp.link.find? (linkTo q) = some l → cq.link.find? (linkTo p) = some r →
      (a.gone = true → b.gone = true →
        calls = delCalls cp cq l ++ delCalls cq cp r ∧ num = n.num - 1) →
      EraseResult a b p q cp cq n (((n.call calls).unlink p q cp cq).count num)

theorem eraseOffloadLink_result (a b : DelAnswer) (paired : f.net.Paired)
    (at_p : f.deref p = some cp) (at_q : f.deref q = some cq) (apart : p ≠ q) :
    ∃ f', f.eraseOffloadLink a b p q = some f' ∧ EraseResult a b p q cp cq f.net f'.net := by
  have count_p := linkCount_eq (client_net p ▸ at_p) q
  have count_q := linkCount_eq (client_net q ▸ at_q) p
  cases found : cp.link.find? (linkTo q) with
  | none =>
    have none_there : f.net.linkCount p q = 0 := by
      rw [count_p, countP_hasKey_eq_zero]
      simpa using found
    have none_back : cq.link.find? (linkTo p) = none := by
      rw [paired.linksMutual, count_q, countP_hasKey_eq_zero] at none_there
      simpa using none_there
    exact ⟨f, by simp [eraseOffloadLink, eraseLinkTo, at_p, at_q, found, none_back], .absent none_there⟩
  | some l =>
    have linked : 0 < f.net.linkCount p q := by
      rw [count_p, ← find?_hasKey_isSome]
      simp [found]
    rw [paired.linksMutual, count_q, ← find?_hasKey_isSome] at linked
    obtain ⟨r, back⟩ := Option.isSome_iff_exists.mp linked
    -- the state after each half
    let f₁ := (f.call (answeredCalls a cp cq l)).set p
      { cp with link := cp.link.eraseP (linkTo q) }
    let f₂ := (f₁.call (answeredCalls b cq cp r)).set q
      { cq with link := cq.link.eraseP (linkTo p) }
    have called : (f.call (answeredCalls a cp cq l)).deref p = some cp := at_p
    have at_p₁ : f₁.deref p = some { cp with link := cp.link.eraseP (linkTo q) } := by
      rw [deref_set called (by rfl), if_pos rfl]
    have at_q₁ : f₁.deref q = some cq := by
      rw [deref_set called (by rfl), if_neg (Ne.symm apart)]
      exact at_q
    have called₁ : (f₁.call (answeredCalls b cq cp r)).deref q = some cq := at_q₁
    have run : f.eraseOffloadLink a b p q =
        some (if a.gone && b.gone then { f₂ with numOffloadPair := f₂.numOffloadPair - 1 }
          else f₂) := by
      have first : f.eraseLinkTo a p q = some (a.gone, f₁) := by
        simp only [eraseLinkTo, at_p, at_q, found, Option.bind_eq_bind, Option.bind_some]
        rfl
      have second : f₁.eraseLinkTo b q p = some (b.gone, f₂) := by
        simp only [eraseLinkTo, at_p₁, at_q₁, back, Option.bind_eq_bind, Option.bind_some]
        rfl
      simp only [eraseOffloadLink, first, second, Option.bind_eq_bind, Option.bind_some]
      rfl
    have net₂ : f₂.net = (f.net.call (answeredCalls a cp cq l ++ answeredCalls b cq cp r)).unlink
        p q cp cq := by
      rw [net_set called₁ (by rfl), net_call, net_set called (by rfl), net_call]
      refine ext' (fun c => ?_) rfl (by simp [unlink])
      simp only [unlink, client_put, client_call]
      by_cases is_p : c = p
      · simp [is_p, apart]
      · simp [is_p]
    refine ⟨_, run, ?_⟩
    split
    next both =>
      simp only [Bool.and_eq_true] at both
      have counted : ({ f₂ with numOffloadPair := f₂.numOffloadPair - 1 } : Family K A I).net =
          ((f.net.call (answeredCalls a cp cq l ++ answeredCalls b cq cp r)).unlink p q cp
            cq).count (f.net.num - 1) := by
        rw [net_count, net₂]
        rfl
      rw [counted]
      refine .erased l r _ _ found back fun _ _ => ⟨?_, rfl⟩
      rw [answeredCalls_gone both.1, answeredCalls_gone both.2]
    next not_both =>
      have uncounted : f₂.net = ((f.net.call (answeredCalls a cp cq l ++
          answeredCalls b cq cp r)).unlink p q cp cq).count f.net.num := net₂
      rw [uncounted]
      exact .erased l r _ _ found back fun gone gone' => by simp [gone, gone'] at not_both

end Family

end Hima.LanToLan
