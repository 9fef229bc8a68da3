import Hima.Lan.EthHandles

/-!
# The client table over whole runs

With every call succeeding, the table has at most one record for a client, an event of one client
leaves the records of the others alone, and the records hold what is installed and nothing else.
-/
namespace Hima.Lan

open EthClient
open Wan (IpaIpType)
open Wlan (MacAddr V6Addr RtSlot IpAddr mem_slotsV6 slotsV6_perm)
open FirstMatch Slots Handles Runs

variable {cfg : Iface} {d : Driver} {s s' : IpacmLan} {i : Nat} {mac : MacAddr}

/-! ### A new client -/

/-- The record gets a header of the family, if the interface has a property of it. -/
theorem addEthHeader_changed (cfg : Iface) (succeeds : d.Succeeds) (i : Nat) (mac : MacAddr)
    (ip : IpaIpType) (s : IpacmLan) :
    ∃ c s', ∃ rs : List Resource, addEthHeader cfg d i mac ip s = (true, s') ∧ Changed i c (rs.map .gain) s s' ∧
      ((∃ tx ∈ cfg.txProp, tx.ip = ip) ∧ (∃ hdl, c = (s.ethClient i).setHeader ip hdl ∧
          rs = [.header mac ip hdl]) ∨ (∀ tx ∈ cfg.txProp, tx.ip ≠ ip) ∧ c = s.ethClient i ∧ rs = []) := by
  cases first : cfg.txProp.find? (·.ip = ip) with
  | none =>
    have absent : ∀ tx ∈ cfg.txProp, tx.ip ≠ ip := by simpa using first
    exact ⟨s.ethClient i, s, [], by simp [addEthHeader, first], .refl i s, .inr ⟨absent, rfl, rfl⟩⟩
  | some tx =>
    have present : ∃ tx ∈ cfg.txProp, tx.ip = ip :=
      ⟨tx, List.mem_of_find?_eq_some first, by simpa using List.find?_some first⟩
    obtain ⟨hdr, copied⟩ := Option.isSome_iff_exists.mp (succeeds.copies tx.hdrName)
    simp only [addEthHeader, first, copied, addHeader, succeeds.ok]
    exact ⟨_, _, [.header mac ip (d.hdrHandle s.ledger)], rfl, (changed_record rfl).update _,
      .inl ⟨present, _, rfl, rfl⟩⟩

/-- What a header call adds to the record, given that the record has no header without properties. -/
theorem heldHeader_added {c c' : EthClient} {ip : IpaIpType} {rs : List Resource}
    (added : (∃ tx ∈ cfg.txProp, tx.ip = ip) ∧ (∃ hdl, c' = c.setHeader ip hdl ∧ rs = [.header c.mac ip hdl]) ∨
      (∀ tx ∈ cfg.txProp, tx.ip ≠ ip) ∧ c' = c ∧ rs = [])
    (headers : ∀ ip, c.headerSet ip = true → ∃ tx ∈ cfg.txProp, tx.ip = ip) :
    c'.mac = c.mac ∧ c'.heldHeader ip = ↑rs ∧ (∀ ip' ≠ ip, c'.heldHeader ip' = c.heldHeader ip') ∧
      ∀ ip, c'.headerSet ip = true → ∃ tx ∈ cfg.txProp, tx.ip = ip := by
  rcases added with ⟨present, hdl, rfl, rfl⟩ | ⟨absent, rfl, rfl⟩
  · refine ⟨rfl, by simp [heldHeader, setHeader], fun ip' other => ?_, fun ip' set => ?_⟩
    · simp [heldHeader, setHeader, other]
    · by_cases this : ip' = ip
      · exact this ▸ present
      · exact headers ip' (by simpa [setHeader, this] using set)
  · have off : ¬c'.headerSet ip = true := fun set => by
      obtain ⟨tx, member, this⟩ := headers ip set
      exact absent tx member this
    exact ⟨rfl, by simp [heldHeader, off], fun _ _ => rfl, headers⟩

/-- A client that is not in the table gets the record behind the others. -/
theorem newNeighbour_runs (succeeds : d.Succeeds) (absent : s.getEthClientIndex mac = none)
    (room : s.numEthClient < maxNumEthClients) (props : cfg.txProp ≠ [])
    (headers : ∀ ip, (s.ethClient s.numEthClient).headerSet ip = true → ∃ tx ∈ cfg.txProp, tx.ip = ip) :
    ∃ c s', ∃ rs : List Resource, Changed s.numEthClient c (rs.map .gain) s s' ∧ c.mac = mac ∧
      c.held cfg = ↑rs ∧ c.Settled ∧ (∀ ip, c.headerSet ip = true → ∃ tx ∈ cfg.txProp, tx.ip = ip) ∧
      handleEthHdrInit cfg d mac s =
        { s' with numEthClient := s'.numEthClient + 1, headerNameCount := s'.headerNameCount + 1 } := by
  generalize behind : s.numEthClient = i at *
  have start : Changed i { s.ethClient i with mac := mac } [] s (s.update i fun c => { c with mac := mac }) :=
    (Changed.refl i s).update fun c => { c with mac := mac }
  obtain ⟨c₁, s₁, rs₁, added₁, changed₁, header₁⟩ := addEthHeader_changed cfg succeeds i mac .v4
    (s.update i fun c => { c with mac := mac })
  obtain ⟨c₂, s₂, rs₂, added₂, changed₂, header₂⟩ := addEthHeader_changed cfg succeeds i mac .v6 s₁
  rw [start.at_i] at header₁
  rw [changed₁.at_i] at header₂
  obtain ⟨mac₁, held₁, -, headers₁⟩ := heldHeader_added header₁ headers
  have is_mac : c₁.mac = mac := mac₁
  rw [← is_mac] at header₂
  obtain ⟨mac₂, held₂, kept, headers₂⟩ := heldHeader_added header₂ headers₁
  refine ⟨c₂.init, s₂.update i init, rs₂ ++ rs₁, ?_, ?_, ?_, ?_, headers₂, ?_⟩
  · have whole := ((start.trans changed₁).trans changed₂).update init
    simpa using whole
  · exact mac₂.trans is_mac
  · -- the new record has no rules
    have rules : ∀ ip, c₂.init.heldRules cfg ip = 0 := by
      intro ip
      cases ip <;> simp [heldRules, covered, init, Wlan.Iface.slotsV6]
    have header : ∀ ip, c₂.init.heldHeader ip = c₂.heldHeader ip := fun _ => rfl
    rw [held, rules, rules, header, header, held₂, kept .v4 (by simp), held₁, add_zero,
      add_zero, ← Multiset.coe_add]
    exact add_comm _ _
  · exact ⟨by simp [init], Nat.le_refl _, fun n below => absurd below (Nat.not_lt_zero n)⟩
  · rw [handleEthHdrInit, absent]
    rw [if_neg (by omega), if_neg props]
    simp only [behind, added₁, added₂]

variable {c : EthClient}

theorem Accounted.appended {rs : List Resource} (accounted : Accounted cfg s)
    (absent : s.getEthClientIndex mac = none) (room : s.numEthClient < maxNumEthClients)
    (changed : Changed s.numEthClient c (rs.map .gain) s s') (is_mac : c.mac = mac)
    (held : c.held cfg = ↑rs) (settled : c.Settled)
    (headers : ∀ ip, c.headerSet ip = true → ∃ tx ∈ cfg.txProp, tx.ip = ip) (count : Nat) :
    Accounted cfg { s' with numEthClient := s'.numEthClient + 1, headerNameCount := count } ∧
    Leaves cfg mac s { s' with numEthClient := s'.numEthClient + 1, headerNameCount := count } := by
  -- the record behind the table becomes its last one
  have grown : IpacmLan.records cfg { s' with
      numEthClient := s'.numEthClient + 1, headerNameCount := count } =
      s.records cfg ++ [c.norm cfg] := by
    rw [← changed.at_i]
    apply records_append
    · exact congrArg (· + 1) changed.num
    · exact fun j below => changed.others (Nat.ne_of_lt below)
  refine ⟨⟨?_, ?_, fun k below => ?_, fun k ip => ?_, ?_, ?_⟩, fun other different => ?_⟩
  · rw [grown, liveIn, changed.entries, live_gains, List.map_append, List.sum_append, ← accounted.live,
      List.map_singleton, List.sum_singleton, held_norm settled, held]
    exact add_comm _ _
  · rw [SoundLedger, changed.entries]
    exact (sound_gains rs).mpr accounted.sound
  · rw [changed.num] at below
    rcases Nat.lt_succ_iff_lt_or_eq.mp below with old | rfl
    · rw [changed.others (Nat.ne_of_lt old)]
      exact accounted.settled k old
    · rwa [changed.at_i]
  · by_cases last : k = s.numEthClient
    · rw [last, changed.at_i]
      exact headers ip
    · rw [changed.others last]
      exact accounted.headers k ip
  · rw [grown, List.map_append, List.nodup_append]
    refine ⟨accounted.nodup, List.nodup_singleton _, fun m old m' new => ?_⟩
    obtain ⟨c', member, rfl⟩ := List.mem_map.mp old
    have nowhere := List.find?_eq_none.mp (lookup_of_no_index cfg absent) c' member
    obtain rfl : m' = mac := by simpa [is_mac] using new
    simpa using nowhere
  · rw [changed.num]
    exact room
  · have other_mac : (c.norm cfg).mac ≠ other := by
      rw [norm_mac, is_mac]
      exact different
    rw [IpacmLan.lookup, grown]
    exact find?_append_singleton_ne _ other_mac

theorem newNeighbour_accounted (succeeds : d.Succeeds) (accounted : Accounted cfg s) :
    Accounted cfg (handleEthHdrInit cfg d mac s) ∧ Leaves cfg mac s (handleEthHdrInit cfg d mac s) := by
  have idle : Accounted cfg s ∧ Leaves cfg mac s s := ⟨accounted, leaves_of_same rfl⟩
  cases found : s.getEthClientIndex mac with
  | some i => simpa only [handleEthHdrInit, found] using idle
  | none =>
    by_cases room : s.numEthClient < maxNumEthClients
    · by_cases props : cfg.txProp = []
      · -- the address is written behind the table, where nothing reads it
        have behind : handleEthHdrInit cfg d mac s =
            s.update s.numEthClient fun c => { c with mac := mac } := by
          rw [handleEthHdrInit, found]
          rw [if_neg (by omega), if_pos props]
        have written := (Changed.refl s.numEthClient s).update fun c => { c with mac := mac }
        rw [← behind] at written
        have same : (handleEthHdrInit cfg d mac s).records cfg = s.records cfg := by
          rw [IpacmLan.records, written.num]
          exact List.map_congr_left fun j below => by
            rw [written.others (Nat.ne_of_lt (List.mem_range.mp below))]
        have ledger : (handleEthHdrInit cfg d mac s).ledger = s.ledger := by rw [behind]; rfl
        refine ⟨⟨?_, ?_, fun k below => ?_, fun k ip => ?_, ?_, ?_⟩, leaves_of_same same⟩
        · rw [ledger, same]
          exact accounted.live
        · rw [ledger]
          exact accounted.sound
        · rw [written.num] at below
          rw [written.others (Nat.ne_of_lt below)]
          exact accounted.settled k below
        · by_cases last : k = s.numEthClient
          · rw [last, written.at_i]
            exact accounted.headers _ ip
          · rw [written.others last]
            exact accounted.headers k ip
        · rw [same]
          exact accounted.nodup
        · rw [written.num]
          exact accounted.room
      · obtain ⟨c, s', rs, changed, is_mac, held, settled, headers, runs⟩ :=
          newNeighbour_runs succeeds found room props (accounted.headers _)
        rw [runs]
        exact accounted.appended found room changed is_mac held settled headers _
    · -- a full table refuses the client
      have full : handleEthHdrInit cfg d mac s = s := by
        rw [handleEthHdrInit, found]
        exact if_pos (by omega)
      rw [full]
      exact idle

/-! ### A client that leaves -/

theorem Accounted.removed (accounted : Accounted cfg s) (found : s.getEthClientIndex mac = some i)
    (empty : (s.ethClient i).held cfg = 0) :
    Accounted cfg { s with
      ethClient := moveUp cfg i s.numEthClient s.ethClient, numEthClient := s.numEthClient - 1 } ∧
    Leaves cfg mac s { s with
      ethClient := moveUp cfg i s.numEthClient s.ethClient, numEthClient := s.numEthClient - 1 } ∧
    mac ∉ (IpacmLan.records cfg { s with
      ethClient := moveUp cfg i s.numEthClient s.ethClient
      numEthClient := s.numEthClient - 1 }).map EthClient.mac := by
  -- the records behind move up; the deleted one held nothing any more
  have records := records_removed cfg found
  refine ⟨⟨?_, accounted.sound, ?_, ?_, ?_, ?_⟩, fun other different => ?_, ?_⟩
  · have live := accounted.beside found
    rw [empty, zero_add] at live
    rw [records]
    exact live
  · intro k below
    dsimp only at below ⊢
    rw [moveUp_apply]
    split
    · have src := accounted.settled (k + 1) (by omega)
      refine settled_of_norm cfg ?_
      rw [norm_copyClient]
      exact settled_norm src
    · exact accounted.settled k (by omega)
  · intro k ip
    dsimp only
    rw [moveUp_apply]
    split
    · exact accounted.headers (k + 1) ip
    · exact accounted.headers k ip
  · rw [records]
    exact accounted.nodup.sublist (List.eraseP_sublist.map _)
  · exact Nat.le_trans (Nat.sub_le _ _) accounted.room
  · rw [IpacmLan.lookup, records]
    exact find?_eraseP_ne different _
  · have split := ((perm_eraseP (lookup_of_index cfg found)).map EthClient.mac).nodup accounted.nodup
    rw [List.map_cons, norm_mac, (index_some found).2, List.nodup_cons] at split
    rw [records]
    exact split.1

/-- What is left of the record before the records behind it move up. -/
def EthClient.emptied (c : EthClient) : EthClient :=
  (((((c.clearRouteRules .v4).clearRouteRules .v6).clearHeader .v4).clearHeader .v6).reset)

/-- Without flags and counts a record holds nothing. -/
theorem held_eq_zero (headers : ∀ ip, c.headerSet ip = false)
    (v4 : c.routeRuleSetV4 = false) (v6 : c.routeRuleSetV6 = 0) : c.held cfg = 0 := by
  simp [held, heldHeader, heldRules, covered, headers, v4, v6, Wlan.Iface.slotsV6]

theorem held_emptied (c : EthClient) : c.emptied.held cfg = 0 := held_eq_zero (fun _ => rfl) rfl rfl

/-- Everything that the record holds is deleted first. -/
theorem clientDel_runs (succeeds : d.Succeeds) (found : s.getEthClientIndex mac = some i)
    (real : ∀ r ∈ (s.ethClient i).held cfg, r.hdl ≠ 0) :
    ∃ s', TakesBack cfg i (s.ethClient i).emptied s s' ∧ handleEthClientDownEvt cfg d mac s = { s' with
      ethClient := moveUp cfg i s'.numEthClient s'.ethClient, numEthClient := s'.numEthClient - 1 } := by
  obtain ⟨s₁, rules₁, back₁⟩ := deleteEthRtrules_changed cfg succeeds i .v4 s real
  have real₁ := back₁.real real
  obtain ⟨s₂, rules₂, back₂⟩ := deleteEthRtrules_changed cfg succeeds i .v6 s₁ real₁
  have real₂ := back₂.real real₁
  obtain ⟨s₃, header₁, back₃⟩ := deleteEthHeader_changed cfg succeeds i .v4 s₂ real₂
  have real₃ := back₃.real real₂
  obtain ⟨s₄, header₂, back₄⟩ := deleteEthHeader_changed cfg succeeds i .v6 s₃ real₃
  rw [back₁.at_i] at back₂
  rw [back₂.at_i] at back₃
  rw [back₃.at_i] at back₄
  refine ⟨s₄.update i reset, ?_, by
    simp [handleEthClientDownEvt, found, rules₁, rules₂, header₁, header₂]⟩
  refine (((back₁.trans back₂).trans back₃).trans back₄).update reset ?_
  -- the reset finds nothing left to forget
  refine (held_emptied _).trans (held_eq_zero (fun ip => ?_) rfl rfl).symm
  cases ip <;> simp [clearHeader]

theorem settled_emptied : c.emptied.Settled where
  v4 := by simp [emptied, reset]
  v6 := Nat.le_refl _
  distinct n below := absurd below (Nat.not_lt_zero n)

theorem clientDel_accounted (mac : MacAddr) (succeeds : d.Succeeds) (accounted : Accounted cfg s)
    (issued : Issued s.ledger) :
    Accounted cfg (handleEthClientDownEvt cfg d mac s) ∧ Leaves cfg mac s (handleEthClientDownEvt cfg d mac s) ∧
      mac ∉ ((handleEthClientDownEvt cfg d mac s).records cfg).map EthClient.mac := by
  cases found : s.getEthClientIndex mac with
  | none =>
    simp only [handleEthClientDownEvt, found]
    refine ⟨accounted, leaves_of_same rfl, fun member => ?_⟩
    obtain ⟨c, here, is_mac⟩ := List.mem_map.mp member
    have nowhere := List.find?_eq_none.mp (lookup_of_no_index cfg found) c here
    exact nowhere (by simpa using is_mac)
  | some i =>
    obtain ⟨s', back, runs⟩ := clientDel_runs succeeds found fun r held => accounted.held_real found issued held
    have cleared := accounted.takesBack found issued back rfl settled_emptied (by simp [emptied, reset])
    obtain ⟨rs, changed, -⟩ := id back
    have found' := (changed.index rfl mac).trans found
    have gone := cleared.1.removed found' (by rw [back.at_i, held_emptied])
    rw [runs]
    exact ⟨gone.1, fun other different =>
      (gone.2.1 other different).trans (cleared.2 other different), gone.2.2⟩

/-! ### Addresses -/

/-- A record without IPv4 rules may get another IPv4 address. -/
theorem held_v4Addr (c : EthClient) (none : c.routeRuleSetV4 = false) (a : UInt32) (set : Bool) :
    { c with v4Addr := a, ipv4Set := set, routeRuleSetV4 := false : EthClient }.held cfg = c.held cfg := by
  have v4 : c.heldRules cfg .v4 = 0 := by simp [heldRules, covered, none]
  have v6 : ({ c with v4Addr := a, ipv4Set := set, routeRuleSetV4 := false : EthClient }).heldRules cfg .v6 =
      c.heldRules cfg .v6 := by
    refine congrArg _ (List.map_congr_left fun slot member => ?_)
    obtain ⟨tx, _, num, _, _, rfl | rfl⟩ := mem_slotsV6.mp member <;> rfl
  rw [held, held, v4, v6]
  rfl

def EthClient.addV6 (a : V6Addr) (c : EthClient) : EthClient :=
  { c with v6Addr := Function.update c.v6Addr c.ipv6Set a, ipv6Set := c.ipv6Set + 1 }

/-- A new address has no rules yet. -/
theorem held_addV6 (settled : c.Settled) (a : V6Addr) :
    (c.addV6 a).held cfg = c.held cfg := by
  have rules : ∀ ip, (c.addV6 a).heldRules cfg ip = c.heldRules cfg ip := by
    intro ip
    have same : (c.addV6 a).covered cfg ip = c.covered cfg ip := by cases ip <;> rfl
    refine congrArg _ (List.map_congr_left fun slot member => ?_)
    have used := inUse_of_covered member
    have older : ∀ num < c.routeRuleSetV6, (c.addV6 a).v6Addr num = c.v6Addr num := by
      intro num below
      have := settled.v6
      exact Function.update_of_ne (by omega) _ _
    cases slot with
    | v4 tx => rfl
    | v6 tx num => simp only [entry, ruleOf, older num used.2]; rfl
    | v6Wan tx num => simp only [entry, ruleOf, older num used.2]; rfl
  rw [held, held, rules, rules]
  rfl

theorem settled_addV6 (settled : c.Settled) {a : V6Addr}
    (new : ¬∃ num < c.ipv6Set, a = c.v6Addr num) : (c.addV6 a).Settled where
  v4 := settled.v4
  v6 := Nat.le_succ_of_le settled.v6
  distinct n below m below' same := by
    have old : ∀ k < c.ipv6Set, (c.addV6 a).v6Addr k = c.v6Addr k := fun k below =>
      Function.update_of_ne (by omega) _ _
    have last : (c.addV6 a).v6Addr c.ipv6Set = a := Function.update_self ..
    rcases Nat.lt_succ_iff_lt_or_eq.mp below with below | rfl <;>
      rcases Nat.lt_succ_iff_lt_or_eq.mp below' with below' | rfl
    · rw [old n below, old m below'] at same
      exact settled.distinct n below m below' same
    · rw [old n below, last] at same
      exact absurd ⟨n, below, same.symm⟩ new
    · rw [old m below', last] at same
      exact absurd ⟨m, below', same⟩ new
    · rfl

theorem ipaddr_accounted (succeeds : d.Succeeds) (accounted : Accounted cfg s)
    (issued : Issued s.ledger) (addr : IpAddr) :
    Accounted cfg (handleEthClientIpaddr cfg d mac addr s).2 ∧
      Leaves cfg mac s (handleEthClientIpaddr cfg d mac addr s).2 := by
  cases found : s.getEthClientIndex mac with
  | none =>
    simp only [handleEthClientIpaddr, found]
    exact ⟨accounted, leaves_of_same rfl⟩
  | some i =>
    have settled := accounted.settled i (index_some found).1
    have idle : Accounted cfg s ∧ Leaves cfg mac s s := ⟨accounted, leaves_of_same rfl⟩
    simp only [handleEthClientIpaddr, found]
    -- a first address is noted; another one takes the rules of the old one with it
    cases addr with
    | v4 a =>
      dsimp only
      split_ifs with nonzero unset same
      · have none : (s.ethClient i).routeRuleSetV4 = false := by
          by_contra this
          simp [settled.v4 (by simpa using this)] at unset
        refine accounted.takesBack found issued ((TakesBack.refl i s).update
          (fun c => { c with v4Addr := a, ipv4Set := true }) ?_) rfl ?_ fun ip => id
        · have held : _ = (s.ethClient i).held cfg := held_v4Addr (s.ethClient i) none a true
          rw [← none] at held
          exact held
        · exact ⟨fun _ => rfl, settled.v6, settled.distinct⟩
      · exact idle
      · -- the old address gives its rules back before the new one comes
        obtain ⟨s', deleted, back⟩ := deleteEthRtrules_changed cfg succeeds i .v4 s
          fun r held => accounted.held_real found issued held
        rw [deleted]
        refine accounted.takesBack found issued (back.update
          (fun c => { c with routeRuleSetV4 := false, v4Addr := a }) ?_) rfl ?_ fun ip => id
        · exact held_v4Addr _ rfl a _
        · exact ⟨by simp, settled.v6, settled.distinct⟩
      · exact idle
    | v6 a =>
      dsimp only
      split_ifs with nonzero room known
      · exact idle
      · exact accounted.takesBack found issued ((TakesBack.refl i s).update (addV6 a)
          (held_addV6 settled a)) rfl (settled_addV6 settled known) fun ip => id
      · exact idle
      · exact idle

/-! ### Routing rules -/

theorem covered_setRouteRules {ip : IpaIpType} (lacks : c.lacksRules ip) :
    ((c.setRouteRules ip).covered cfg ip).Perm (c.covered cfg ip ++ c.missing cfg ip) := by
  cases ip with
  | v4 => simp [setRouteRules, covered, missing, lacks.1]
  | v6 => exact slotsV6_perm cfg.toIface (Nat.le_of_lt lacks)

/-- What is missing is not covered yet. -/
theorem not_covered_of_missing {ip ip' : IpaIpType} (lacks : c.lacksRules ip)
    {slot : RtSlot} (missing : slot ∈ c.missing cfg ip) : slot ∉ c.covered cfg ip' := by
  intro covered
  have family := ip_of_covered covered
  cases ip with
  | v4 =>
    obtain ⟨tx, _, rfl⟩ := Wlan.mem_slotsV4.mp missing
    obtain rfl : IpaIpType.v4 = ip' := family
    have set := (mem_covered_v4.mp covered).1
    simp [lacks.1] at set
  | v6 =>
    obtain ⟨tx, _, num, from_first, _, rfl | rfl⟩ := mem_slotsV6.mp missing <;>
      obtain rfl : IpaIpType.v6 = ip' := family <;>
      have used := (inUse_of_covered covered).2 <;>
      omega

/-- The rules of the missing places come on top of what the record holds. -/
theorem held_setRouteRules {ip : IpaIpType} (lacks : c.lacksRules ip) (hdls : RtSlot → UInt32) :
    ((c.setHdls (c.missing cfg ip) hdls).setRouteRules ip).held cfg =
      ↑((c.missing cfg ip).reverse.map ((c.setHdls (c.missing cfg ip) hdls).entry cfg)) + c.held cfg := by
  have entries : ((c.setHdls (c.missing cfg ip) hdls).setRouteRules ip).entry cfg =
      (c.setHdls (c.missing cfg ip) hdls).entry cfg := by
    funext slot
    cases ip <;> cases slot <;> rfl
  -- handles of covered places are kept, those of missing ones are new
  have old : ∀ ip', ((c.covered cfg ip').map ((c.setHdls (c.missing cfg ip) hdls).entry cfg) :
      Multiset Resource) = c.heldRules cfg ip' := fun ip' =>
    congrArg _ (List.map_congr_left fun slot covered => entry_setHdls_of_not_mem
      fun missing => not_covered_of_missing lacks missing covered)
  have new : (((c.setHdls (c.missing cfg ip) hdls).setRouteRules ip).covered cfg ip).Perm
      (c.covered cfg ip ++ (c.missing cfg ip).reverse) := by
    have lacks' : (c.setHdls (c.missing cfg ip) hdls).lacksRules ip := by cases ip <;> exact lacks
    refine (covered_setRouteRules lacks').trans (List.Perm.append (by cases ip <;> rfl) ?_)
    exact (List.Perm.of_eq (by cases ip <;> rfl)).trans (List.reverse_perm _).symm
  have grown : ((c.setHdls (c.missing cfg ip) hdls).setRouteRules ip).heldRules cfg ip = c.heldRules cfg ip +
        ↑((c.missing cfg ip).reverse.map ((c.setHdls (c.missing cfg ip) hdls).entry cfg)) := by
    rw [heldRules, entries, Multiset.coe_eq_coe.mpr (new.map _), List.map_append, ← Multiset.coe_add, old]
  have kept : ∀ ip' ≠ ip, ((c.setHdls (c.missing cfg ip) hdls).setRouteRules ip).heldRules cfg ip' =
      c.heldRules cfg ip' := by
    intro ip' other
    rw [heldRules, entries, ← old]
    cases ip <;> cases ip' <;> first | rfl | exact absurd rfl other
  have headers : ∀ ip', ((c.setHdls (c.missing cfg ip) hdls).setRouteRules ip).heldHeader ip' =
      c.heldHeader ip' := by
    intro ip'
    cases ip <;> rfl
  rw [held, held, headers, headers]
  cases ip with
  | v4 =>
    rw [grown, kept .v6 (by simp)]
    abel
  | v6 =>
    rw [grown, kept .v4 (by simp)]
    abel

theorem settled_setRouteRules (settled : c.Settled) {ip : IpaIpType}
    (lacks : c.lacksRules ip) (slots : List RtSlot) (hdls : RtSlot → UInt32) :
    ((c.setHdls slots hdls).setRouteRules ip).Settled := by
  cases ip with
  | v4 => exact ⟨fun _ => lacks.2, settled.v6, settled.distinct⟩
  | v6 => exact ⟨settled.v4, Nat.le_refl _, settled.distinct⟩

theorem routeRule_accounted (succeeds : d.Succeeds) (accounted : Accounted cfg s) (ip : IpaIpType) :
    Accounted cfg (handleEthClientRouteRule cfg d mac ip s) ∧
      Leaves cfg mac s (handleEthClientRouteRule cfg d mac ip s) := by
  have idle : Accounted cfg s ∧ Leaves cfg mac s s := ⟨accounted, leaves_of_same rfl⟩
  rw [handleEthClientRouteRule]
  split_ifs with props
  · exact idle
  cases found : s.getEthClientIndex mac with
  | none => exact idle
  | some i =>
    dsimp only
    split_ifs with lacks
    · obtain ⟨hdls, s', added, changed⟩ := addRules_changed cfg succeeds i
        ((s.ethClient i).missing cfg ip) s (nodup_missing _ ip)
      rw [added]
      refine accounted.gained found (changed.update (setRouteRules ip)) (held_setRouteRules lacks hdls) ?_
        (settled_setRouteRules (accounted.settled i (index_some found).1) lacks _ hdls) ?_
      · cases ip <;> rfl
      · cases ip <;> exact fun ip' => id
    · exact idle

end Hima.Lan
