import Hima.Wlan.Resources

/-!
# Records account for handles

Over every run the records hold what the driver has handed out, as long as no event of it is cut off
between two calls of which the first one took effect.
-/
namespace Hima.Wlan

open IpaWlanClient Function
open Wan (IpaIpType)
open Runs Handles

variable {cfg : Iface} {d : Driver}

/-! ### One record -/

/-- The record at `i` and the `rest` account for what is live. -/
structure Balanced (cfg : Iface) (i : Nat) (rest : Multiset Resource) (s : IpacmWlan) : Prop where
  live : liveIn s.ledger = (s.wlanClient i).held cfg + rest
  sound : SoundLedger s.ledger
  settled : (s.wlanClient i).Settled

/-- The rules that a route event adds for a record. -/
def IpaWlanClient.installCount (cfg : Iface) (c : IpaWlanClient) (ip : IpaIpType) : Nat :=
  if c.lacksRules ip then (c.missing cfg ip).length else 0

section Record

variable {i : Nat} {rest : Multiset Resource} {s : IpacmWlan}

theorem Balanced.update {f : IpaWlanClient → IpaWlanClient} (balanced : Balanced cfg i rest s)
    (held : (f (s.wlanClient i)).held cfg = (s.wlanClient i).held cfg)
    (settled : (f (s.wlanClient i)).Settled) : Balanced cfg i rest (s.update i f) where
  live := by simpa [IpacmWlan.update, held] using balanced.live
  sound := balanced.sound
  settled := by simpa [IpacmWlan.update] using settled

variable {c : IpaWlanClient}

theorem settled_setRouteRules {ip : IpaIpType} {slots : List RtSlot}
    {hdls : RtSlot → UInt32} (settled : c.Settled) (lacks : c.lacksRules ip) :
    ((c.setHdls slots hdls).setRouteRules ip).Settled := by
  cases ip with
  | v4 => exact ⟨fun _ => lacks.2, settled.v6, settled.distinct⟩
  | v6 => exact ⟨settled.v4, Nat.le_refl _, settled.distinct⟩

theorem installCount_other {ip ip' : IpaIpType} {slots : List RtSlot}
    {hdls : RtSlot → UInt32} (other : ip' ≠ ip) :
    ((c.setHdls slots hdls).setRouteRules ip).installCount cfg ip' = c.installCount cfg ip' := by
  cases ip <;> cases ip' <;> first | rfl | contradiction

theorem missing_nil (props : cfg.txProp = []) (c : IpaWlanClient) (ip : IpaIpType) : c.missing cfg ip = [] := by
  have none : ∀ ip, cfg.txOf ip = [] := fun ip => by simp [Iface.txOf, props]
  cases ip <;> simp [missing, Iface.slotsV4, Iface.slotsV6, none]

variable {mac : MacAddr}

/-- The rules of a family are added as a whole or not at all. -/
theorem routeRule_whole {ip : IpaIpType} {stop : Nat} {done : Bool}
    (found : s.getWlanClientIndex mac = some i) (awake : (s.wlanClient i).powerSaveSet = false)
    (balanced : Balanced cfg i rest s)
    (whole : WholeInstall d s.attempts ((s.wlanClient i).installCount cfg ip) stop done) :
    ∃ s', handleWlanClientRouteRule cfg d mac ip s = s' ∧ Balanced cfg i rest s' ∧ s'.attempts = stop ∧
      (s'.wlanClient i).powerSaveSet = false ∧ (s'.wlanClient i).ipv6Set = (s.wlanClient i).ipv6Set ∧
      ∀ ip' ≠ ip, (s'.wlanClient i).installCount cfg ip' = (s.wlanClient i).installCount cfg ip' := by
  -- rules are made once: a family that has its own is left alone
  by_cases lacks : (s.wlanClient i).lacksRules ip
  · rw [installCount, if_pos lacks] at whole
    by_cases props : cfg.txProp = []
    · -- without properties there is nothing to add
      rw [missing_nil props] at whole
      cases whole with
      | all _ =>
        exact ⟨s, by rw [handleWlanClientRouteRule, if_pos props], balanced, rfl, awake, rfl, fun _ _ => rfl⟩
      | none some _ => simp at some
    · cases whole with
      | all succeed =>
        obtain ⟨hdls, s', runs, clients, attempts, live, sound⟩ :=
          addRules_all (i := i) cfg (nodup_missing _ ip) s succeed
        have at_i : (s'.update i (setRouteRules ip)).wlanClient i =
            ((s.wlanClient i).setHdls ((s.wlanClient i).missing cfg ip) hdls).setRouteRules ip := by
          simp [IpacmWlan.update, clients]
        refine ⟨s'.update i (setRouteRules ip), ?_, ⟨?_, sound balanced.sound, ?_⟩, attempts, ?_, ?_, ?_⟩
        · simp [handleWlanClientRouteRule, props, found, awake, lacks, runs]
        · rw [at_i, held_setRouteRules lacks hdls, add_assoc, ← balanced.live]
          exact live
        · rw [at_i]
          exact settled_setRouteRules balanced.settled lacks
        · rw [at_i, ← awake]
          cases ip <;> rfl
        · rw [at_i]
          cases ip <;> rfl
        · intro ip' other
          rw [at_i]
          exact installCount_other other
      | none some fails =>
        refine ⟨{ s with attempts := s.attempts + 1 }, ?_, ⟨balanced.live, balanced.sound, balanced.settled⟩,
          rfl, awake, rfl, fun _ _ => rfl⟩
        simp [handleWlanClientRouteRule, props, found, awake, lacks, addRules_none some fails]
  · rw [installCount, if_neg lacks] at whole
    cases whole with
    | all _ =>
      exact ⟨s, by simp [handleWlanClientRouteRule, found, awake, lacks], balanced, rfl, awake, rfl, fun _ _ => rfl⟩
    | none some _ => simp at some

theorem settled_clearRouteRules (settled : c.Settled) (ip : IpaIpType) :
    (c.clearRouteRules ip).Settled := by
  cases ip with
  | v4 => exact ⟨by simp [IpaWlanClient.clearRouteRules], settled.v6, settled.distinct⟩
  | v6 => exact ⟨settled.v4, by simp [IpaWlanClient.clearRouteRules], settled.distinct⟩

/-- The rules of a family are deleted as a whole or not at all. -/
theorem deleteDefaultQosRtrules_whole (ip : IpaIpType) {stop : Nat} {done : Bool}
    (balanced : Balanced cfg i rest s) (issued : Issued s.ledger)
    (whole : WholeDeletion d s.attempts ((s.wlanClient i).covered cfg ip).length stop done) :
    ∃ s', deleteDefaultQosRtrules cfg d i ip s = (done, s') ∧ Balanced cfg i rest s' ∧
      Issued s'.ledger ∧ s'.attempts = stop ∧
      s'.wlanClient i = if done then (s.wlanClient i).clearRouteRules ip else s.wlanClient i := by
  have live := balanced.live
  rw [held_clearRouteRules _ ip, add_assoc] at live
  cases whole with
  | all succeed =>
    obtain ⟨ledger, runs, live', issued', sound⟩ := deleteRules_all cfg
      (fun slot member => ip_of_covered member) s _ issued live succeed
    refine ⟨_, by rw [deleteDefaultQosRtrules, runs], ⟨?_, sound balanced.sound, ?_⟩, issued', rfl, ?_⟩
    · simpa [IpacmWlan.update] using live'
    · simpa [IpacmWlan.update] using settled_clearRouteRules balanced.settled ip
    · simp [IpacmWlan.update]
  | @none k below refused fails =>
    have real : ∀ slot ∈ (s.wlanClient i).covered cfg ip, (s.wlanClient i).wifiRtHdl slot ≠ 0 := by
      intro slot member
      have held : (s.wlanClient i).entry cfg slot ∈ liveIn s.ledger := by
        rw [live]
        exact Multiset.mem_add.mpr (.inl (Multiset.mem_coe.mpr (List.mem_map_of_mem member)))
      exact issued.live_real held
    obtain ⟨ledger, runs, live', issued', sound⟩ := deleteRules_none ip real issued below refused fails
    exact ⟨{ s with attempts := s.attempts + k + 1, ledger := ledger }, by rw [deleteDefaultQosRtrules, runs],
      ⟨live'.trans balanced.live, sound balanced.sound, balanced.settled⟩, issued', rfl, rfl⟩

theorem held_clearHeader (c : IpaWlanClient) (ip : IpaIpType) :
    c.held cfg = c.heldHeader ip + (c.clearHeader ip).held cfg := by
  have rules : ∀ ip', (c.clearHeader ip).heldRules cfg ip' = c.heldRules cfg ip' := by
    intro ip'
    apply heldRules_congr
    · cases ip <;> cases ip' <;> rfl
    · intro slot _
      cases ip <;> cases slot <;> rfl
  have cleared : (c.clearHeader ip).heldHeader ip = 0 := by
    cases ip <;> rfl
  simp only [IpaWlanClient.held, rules]
  cases ip with
  | v4 =>
    have other : (c.clearHeader .v4).heldHeader .v6 = c.heldHeader .v6 := rfl
    rw [cleared, other]
    abel
  | v6 =>
    have other : (c.clearHeader .v6).heldHeader .v4 = c.heldHeader .v4 := rfl
    rw [cleared, other]
    abel

theorem settled_clearHeader (settled : c.Settled) (ip : IpaIpType) :
    (c.clearHeader ip).Settled := by
  cases ip <;> exact ⟨settled.v4, settled.v6, settled.distinct⟩

/-- However the driver answers, a header is deleted together with its flag. -/
theorem deleteClientHeader_whole (balanced : Balanced cfg i rest s) (issued : Issued s.ledger) (ip : IpaIpType) :
    ∃ done s', deleteClientHeader d i ip s = (done, s') ∧ Balanced cfg i rest s' ∧ Issued s'.ledger ∧
      s'.wlanClient i = if done then (s.wlanClient i).clearHeader ip else s.wlanClient i := by
  rw [deleteClientHeader_eq]
  by_cases set : (s.wlanClient i).headerSet ip = true
  · have live := balanced.live
    rw [held_clearHeader _ ip, IpaWlanClient.heldHeader, if_pos set, add_assoc, Multiset.singleton_add] at live
    have real : (s.wlanClient i).hdrHdl ip ≠ 0 :=
      issued.live_real (r := .header ((s.wlanClient i).hdrHdl ip)) (by rw [live]; exact Multiset.mem_cons_self _ _)
    rw [if_pos set]
    cases answer : d.outcome s.attempts with
    | ok =>
      refine ⟨true, IpacmWlan.update { s with
        attempts := s.attempts + 1
        ledger := .delHdr ((s.wlanClient i).hdrHdl ip) true :: s.ledger } i (IpaWlanClient.clearHeader ip),
        by simp only [deleteHeaderHdl, real, if_false, answer], ⟨?_, ?_, ?_⟩, ⟨issued.fresh, ?_⟩, ?_⟩
      · simp only [IpacmWlan.update, update_self]
        exact live_release issued.fresh live
      · exact sound_release balanced.sound live
      · simp only [IpacmWlan.update, update_self]
        exact settled_clearHeader balanced.settled ip
      · simpa [IpacmWlan.update, Call.Real] using issued.real
      · simp [IpacmWlan.update]
    | refused =>
      exact ⟨false, { s with
        attempts := s.attempts + 1
        ledger := .delHdr ((s.wlanClient i).hdrHdl ip) false :: s.ledger },
        by simp only [deleteHeaderHdl, real, if_false, answer],
        ⟨balanced.live, balanced.sound, balanced.settled⟩,
        ⟨issued.fresh, by simpa [Call.Real] using issued.real⟩, rfl⟩
    | noMemory =>
      exact ⟨false, { s with attempts := s.attempts + 1 },
        by simp only [deleteHeaderHdl, real, if_false, answer],
        ⟨balanced.live, balanced.sound, balanced.settled⟩, issued, rfl⟩
  · refine ⟨true, s, if_neg set, balanced, issued, ?_⟩
    -- the flag is clear already
    have unset : (s.wlanClient i).headerSet ip = false := by simpa using set
    cases ip with
    | v4 => rw [if_pos rfl, IpaWlanClient.clearHeader, ← show (s.wlanClient i).ipv4HeaderSet = false from unset]
    | v6 => rw [if_pos rfl, IpaWlanClient.clearHeader, ← show (s.wlanClient i).ipv6HeaderSet = false from unset]

/-! ### Events of one record -/

/-- A changed IPv4 address takes the rules of the old one with it, if every deletion succeeds. -/
def AddressHarmless (cfg : Iface) (d : Driver) (s : IpacmWlan) (c : IpaWlanClient) : IpAddr → Prop
  | .v4 a => a ≠ 0 → c.ipv4Set = true → a ≠ c.v4Addr →
      ∀ k < (c.covered cfg .v4).length, d.outcome (s.attempts + k) = .ok
  | .v6 _ => True

theorem heldHeader_congr {c c' : IpaWlanClient} (ip : IpaIpType) (flag : c'.headerSet ip = c.headerSet ip)
    (hdl : c'.hdrHdl ip = c.hdrHdl ip) : c'.heldHeader ip = c.heldHeader ip := by
  rw [IpaWlanClient.heldHeader, IpaWlanClient.heldHeader, flag, hdl]

theorem held_congr {c c' : IpaWlanClient} (headers : ∀ ip, c'.heldHeader ip = c.heldHeader ip)
    (rules : ∀ ip, c'.heldRules cfg ip = c.heldRules cfg ip) : c'.held cfg = c.held cfg := by
  rw [IpaWlanClient.held, IpaWlanClient.held, headers, headers, rules, rules]

/-- Without IPv4 rules the IPv4 address does not matter. -/
theorem held_v4Addr {c c' : IpaWlanClient} (none : c.routeRuleSetV4 = false)
    (same : c' = { c with v4Addr := c'.v4Addr, ipv4Set := c'.ipv4Set }) : c'.held cfg = c.held cfg := by
  apply held_congr
  · intro ip
    rw [same]
    cases ip <;> rfl
  · intro ip
    cases ip with
    | v4 =>
      rw [same, IpaWlanClient.heldRules, IpaWlanClient.heldRules, IpaWlanClient.covered, IpaWlanClient.covered]
      simp [none]
    | v6 =>
      apply heldRules_congr
      · rw [same]
        rfl
      · intro slot member
        have family := ip_of_covered member
        rw [same]
        cases slot <;> first | rfl | contradiction

/-- An address behind those that rules are installed for. -/
def IpaWlanClient.addV6 (a : V6Addr) (c : IpaWlanClient) : IpaWlanClient :=
  { c with v6Addr := update c.v6Addr c.ipv6Set a, ipv6Set := c.ipv6Set + 1 }

theorem held_addV6 (settled : c.Settled) (a : V6Addr) :
    (c.addV6 a).held cfg = c.held cfg := by
  apply held_congr
  · intro ip
    cases ip <;> rfl
  · intro ip
    apply heldRules_congr
    · cases ip <;> rfl
    · intro slot member
      have rule : (c.addV6 a).ruleOf cfg slot = c.ruleOf cfg slot := by
        cases slot with
        | v4 tx => rfl
        | v6 tx num | v6Wan tx num =>
          cases ip with
          | v4 => exact absurd (ip_of_covered member) (by simp [RtSlot.ip])
          | v6 =>
            obtain ⟨tx', _, num', _, below, this⟩ := mem_slotsV6.mp member
            have order := settled.v6
            simp only [RtSlot.v6.injEq, RtSlot.v6Wan.injEq, reduceCtorEq, false_or, or_false] at this
            have earlier : num ≠ c.ipv6Set := by omega
            simp [addV6, ruleOf, earlier]
      rw [entry, entry, rule]
      rfl

theorem settled_addV6 (settled : c.Settled) {a : V6Addr}
    (new : ∀ num < c.ipv6Set, a ≠ c.v6Addr num) : (c.addV6 a).Settled where
  v4 := settled.v4
  v6 := Nat.le_succ_of_le settled.v6
  distinct n below_n m below_m same := by
    simp only [addV6, Nat.lt_succ_iff_lt_or_eq] at below_n below_m
    simp only [addV6] at same
    rcases below_n with old_n | rfl <;> rcases below_m with old_m | rfl
    · rw [update_of_ne old_n.ne, update_of_ne old_m.ne] at same
      exact settled.distinct n old_n m old_m same
    · rw [update_of_ne old_n.ne, update_self] at same
      exact absurd same.symm (new n old_n)
    · rw [update_self, update_of_ne old_m.ne] at same
      exact absurd same (new m old_m)
    · rfl

theorem ipaddr_balanced {addr : IpAddr} (found : s.getWlanClientIndex mac = some i)
    (balanced : Balanced cfg i rest s) (issued : Issued s.ledger)
    (harmless : AddressHarmless cfg d s (s.wlanClient i) addr) :
    Balanced cfg i rest (handleWlanClientIpaddr cfg d mac addr s).2 := by
  have settled := balanced.settled
  rw [handleWlanClientIpaddr, found]
  cases addr with
  | v4 a =>
    by_cases zero : a ≠ 0
    · by_cases set : (s.wlanClient i).ipv4Set = true
      · by_cases same : a = (s.wlanClient i).v4Addr
        · simpa [zero, set, same] using balanced
        · obtain ⟨s', runs, balanced', -, -, at_i⟩ := deleteDefaultQosRtrules_whole (d := d) .v4 balanced
            issued (.all (harmless zero set same))
          rw [if_pos rfl] at at_i
          have none : (s'.wlanClient i).routeRuleSetV4 = false := by rw [at_i]; rfl
          simp only [zero, set, same, runs, ne_eq, not_false_eq_true, if_true, if_false, Bool.true_eq_false]
          refine balanced'.update (held_v4Addr none ?_) ?_
          · rw [← none]
          · exact ⟨by simp, balanced'.settled.v6, balanced'.settled.distinct⟩
      · have unset : (s.wlanClient i).ipv4Set = false := by simpa using set
        have none : (s.wlanClient i).routeRuleSetV4 = false := by
          by_contra rules
          exact set (settled.v4 (by simpa using rules))
        simp only [zero, unset, ne_eq, not_false_eq_true, if_true]
        exact balanced.update (held_v4Addr none rfl) ⟨by simp, settled.v6, settled.distinct⟩
    · simpa [zero] using balanced
  | v6 a =>
    dsimp only
    split_ifs with zero room known
    · exact balanced
    · exact balanced.update (held_addV6 settled a) (settled_addV6 settled (by simpa using known))
    · exact balanced
    · exact balanced

/-- In both families the rules go as a whole or not at all. -/
def SleepHarmless (cfg : Iface) (d : Driver) (s : IpacmWlan) (c : IpaWlanClient) : Prop :=
  ∃ stop done, WholeDeletion d s.attempts (c.covered cfg .v4).length stop done ∧
    ∃ stop' done', WholeDeletion d stop (c.covered cfg .v6).length stop' done'

theorem pwrsave_balanced (found : s.getWlanClientIndex mac = some i)
    (balanced : Balanced cfg i rest s) (issued : Issued s.ledger)
    (harmless : (s.wlanClient i).powerSaveSet = false → SleepHarmless cfg d s (s.wlanClient i)) :
    Balanced cfg i rest (handleWlanClientPwrsave cfg d mac s) := by
  rw [handleWlanClientPwrsave, found]
  by_cases awake : (s.wlanClient i).powerSaveSet = false
  · obtain ⟨stop, done, whole, stop', done', whole'⟩ := harmless awake
    obtain ⟨s₁, runs₁, balanced₁, issued₁, attempts₁, at_i⟩ := deleteDefaultQosRtrules_whole .v4 balanced issued whole
    have covered : (s₁.wlanClient i).covered cfg .v6 = (s.wlanClient i).covered cfg .v6 := by
      rw [at_i]
      cases done <;> rfl
    rw [← covered, ← attempts₁] at whole'
    obtain ⟨s₂, runs₂, balanced₂, -, -, -⟩ := deleteDefaultQosRtrules_whole .v6 balanced₁ issued₁ whole'
    simp only [awake, if_true, runs₁, runs₂]
    refine balanced₂.update ?_ ⟨balanced₂.settled.v4, balanced₂.settled.v6, balanced₂.settled.distinct⟩
    exact held_congr (fun ip => by cases ip <;> rfl)
      fun ip => heldRules_congr (by cases ip <;> rfl) fun slot _ => by cases slot <;> rfl
  · dsimp only
    rw [if_neg awake]
    exact balanced

/-- In both families the missing rules are added as a whole or not at all. -/
def WakeHarmless (cfg : Iface) (d : Driver) (s : IpacmWlan) (c : IpaWlanClient) : Prop :=
  ∃ stop done, WholeInstall d s.attempts (c.installCount cfg .v4) stop done ∧
    ∃ stop' done', WholeInstall d stop (c.installCount cfg .v6) stop' done'

/-- Behind a test that fails only when there is nothing to add. -/
theorem routeRule_guarded (ip : IpaIpType) {stop : Nat} {done : Bool} (test : Prop) [Decidable test]
    (guard : ¬ test → (s.wlanClient i).installCount cfg ip = 0)
    (found : s.getWlanClientIndex mac = some i) (awake : (s.wlanClient i).powerSaveSet = false)
    (balanced : Balanced cfg i rest s)
    (whole : WholeInstall d s.attempts ((s.wlanClient i).installCount cfg ip) stop done) :
    ∃ s', (if test then handleWlanClientRouteRule cfg d mac ip s else s) = s' ∧ Balanced cfg i rest s' ∧
      s'.attempts = stop ∧ (s'.wlanClient i).powerSaveSet = false ∧ Touches i s s' ∧
      (s'.wlanClient i).ipv6Set = (s.wlanClient i).ipv6Set ∧
      ∀ ip' ≠ ip, (s'.wlanClient i).installCount cfg ip' = (s.wlanClient i).installCount cfg ip' := by
  by_cases holds : test
  · obtain ⟨s', runs, balanced', attempts, still, number, others⟩ := routeRule_whole found awake balanced whole
    refine ⟨s', by rw [if_pos holds, runs], balanced', attempts, still, ?_, number, others⟩
    rw [← runs]
    exact (touchesMac_of_touches found).mp (touches_routeRule mac ip s)
  · rw [guard holds] at whole
    cases whole with
    | all _ => exact ⟨s, if_neg holds, balanced, rfl, awake, .refl i s, rfl, fun _ _ => rfl⟩
    | none some _ => simp at some

theorem recover_balanced (found : s.getWlanClientIndex mac = some i) (balanced : Balanced cfg i rest s)
    (harmless : (s.wlanClient i).powerSaveSet = true → WakeHarmless cfg d s (s.wlanClient i)) :
    Balanced cfg i rest (handleClientRecover cfg d mac s) := by
  rw [handleClientRecover, found]
  by_cases asleep : (s.wlanClient i).powerSaveSet = true
  · obtain ⟨stop, done, whole, stop', done', whole'⟩ := harmless asleep
    -- waking writes the flag; then each family gets its rules back, or none
    have woken : Touches i s (s.update i fun c => { c with powerSaveSet := false }) :=
      touches_update ⟨rfl, rfl, rfl, id, id⟩
    have at_i : (s.update i fun c => { c with powerSaveSet := false }).wlanClient i =
        { s.wlanClient i with powerSaveSet := false } := by simp [IpacmWlan.update]
    have balanced₀ : Balanced cfg i rest (s.update i fun c => { c with powerSaveSet := false }) := by
      refine balanced.update ?_ ⟨balanced.settled.v4, balanced.settled.v6, balanced.settled.distinct⟩
      exact held_congr (fun ip => by cases ip <;> rfl)
        fun ip => heldRules_congr (by cases ip <;> rfl) fun slot _ => by cases slot <;> rfl
    have count : ∀ ip, ((s.update i fun c => { c with powerSaveSet := false }).wlanClient i).installCount cfg ip =
        (s.wlanClient i).installCount cfg ip := by
      intro ip
      rw [at_i]
      cases ip <;> rfl
    have attempts₀ : (s.update i fun c => { c with powerSaveSet := false }).attempts = s.attempts := rfl
    dsimp only
    rw [if_pos asleep]
    generalize (s.update i fun c => { c with powerSaveSet := false }) = s₀
      at woken at_i balanced₀ count attempts₀ ⊢
    have found₀ : s₀.getWlanClientIndex mac = some i := (woken.index mac).trans found
    rw [← count, ← attempts₀] at whole
    obtain ⟨s₁, runs₁, balanced₁, attempts₁, awake₁, touches₁, number₁, others₁⟩ :=
      routeRule_guarded .v4 ((s₀.wlanClient i).ipv4Set = true)
        (fun unset => if_neg fun lacks => unset lacks.2) found₀ (by rw [at_i]) balanced₀ whole
    rw [← count, ← others₁ .v6 (by simp), ← attempts₁] at whole'
    obtain ⟨s₂, runs₂, balanced₂, -⟩ :=
      routeRule_guarded .v6 ((s₁.wlanClient i).ipv6Set ≠ 0)
        (fun unset => if_neg fun lacks => unset (Nat.ne_zero_of_lt lacks)) ((touches₁.index mac).trans found₀)
        awake₁ balanced₁ whole'
    rw [runs₁, runs₂]
    exact balanced₂
  · dsimp only
    rw [if_neg asleep]
    exact balanced

/-- The rules of a family go as a whole or not at all, the IPv6 ones only after the IPv4 ones. -/
def DownHarmless (cfg : Iface) (d : Driver) (s : IpacmWlan) (c : IpaWlanClient) : Prop :=
  ∃ stop done, WholeDeletion d s.attempts (c.covered cfg .v4).length stop done ∧
    (done = true → ∃ stop' done', WholeDeletion d stop (c.covered cfg .v6).length stop' done')

/-- A client goes down, or stays with what could not be deleted. -/
theorem down_balanced (found : s.getWlanClientIndex mac = some i)
    (balanced : Balanced cfg i rest s) (issued : Issued s.ledger)
    (harmless : DownHarmless cfg d s (s.wlanClient i)) :
    (Touches i s (handleWlanClientDownEvt cfg d mac s) ∧
        Balanced cfg i rest (handleWlanClientDownEvt cfg d mac s)) ∨
      ∃ s', Touches i s s' ∧ liveIn s'.ledger = rest ∧ SoundLedger s'.ledger ∧
        handleWlanClientDownEvt cfg d mac s = { s' with
          wlanClient := moveUp cfg i s'.numWifiClient s'.wlanClient
          numWifiClient := s'.numWifiClient - 1 } := by
  obtain ⟨stop, done, whole, more⟩ := harmless
  have touches₁ := touches_deleteDefaultQosRtrules (d := d) cfg i .v4 s
  obtain ⟨s₁, runs₁, balanced₁, issued₁, attempts₁, at_i₁⟩ := deleteDefaultQosRtrules_whole .v4 balanced issued whole
  rw [runs₁] at touches₁
  cases done with
  | false =>
    left
    simp only [handleWlanClientDownEvt, found, runs₁]
    exact ⟨touches₁, balanced₁⟩
  | true =>
    rw [if_pos rfl] at at_i₁
    obtain ⟨stop', done', whole'⟩ := more rfl
    have covered : (s₁.wlanClient i).covered cfg .v6 = (s.wlanClient i).covered cfg .v6 := by
      rw [at_i₁]
      rfl
    rw [← covered, ← attempts₁] at whole'
    have touches₂ := touches_deleteDefaultQosRtrules (d := d) cfg i .v6 s₁
    obtain ⟨s₂, runs₂, balanced₂, issued₂, -, at_i₂⟩ := deleteDefaultQosRtrules_whole .v6 balanced₁ issued₁ whole'
    rw [runs₂] at touches₂
    cases done' with
    | false =>
      left
      simp only [handleWlanClientDownEvt, found, runs₁, runs₂]
      exact ⟨touches₁.trans touches₂, balanced₂⟩
    | true =>
      rw [if_pos rfl] at at_i₂
      have touches₃ := touches_deleteClientHeader (d := d) i .v4 s₂
      obtain ⟨done₃, s₃, runs₃, balanced₃, issued₃, at_i₃⟩ :=
        deleteClientHeader_whole (d := d) balanced₂ issued₂ .v4
      rw [runs₃] at touches₃
      cases done₃ with
      | false =>
        left
        simp only [handleWlanClientDownEvt, found, runs₁, runs₂, runs₃]
        exact ⟨(touches₁.trans touches₂).trans touches₃, balanced₃⟩
      | true =>
        rw [if_pos rfl] at at_i₃
        have touches₄ := touches_deleteClientHeader (d := d) i .v6 s₃
        obtain ⟨done₄, s₄, runs₄, balanced₄, -, at_i₄⟩ :=
          deleteClientHeader_whole (d := d) balanced₃ issued₃ .v6
        rw [runs₄] at touches₄
        have touches := ((touches₁.trans touches₂).trans touches₃).trans touches₄
        cases done₄ with
        | false =>
          left
          simp only [handleWlanClientDownEvt, found, runs₁, runs₂, runs₃, runs₄]
          exact ⟨touches, balanced₄⟩
        | true =>
          rw [if_pos rfl] at at_i₄
          -- nothing is left in the record
          have empty : (s₄.wlanClient i).held cfg = 0 := by
            rw [at_i₄, at_i₃, at_i₂, at_i₁]
            simp [IpaWlanClient.held, IpaWlanClient.heldHeader, IpaWlanClient.heldRules, IpaWlanClient.covered,
              IpaWlanClient.headerSet, IpaWlanClient.clearHeader, IpaWlanClient.clearRouteRules, Iface.slotsV6]
          have live := balanced₄.live
          rw [empty, zero_add] at live
          right
          refine ⟨s₄.update i reset, touches.trans (touches_update ⟨rfl, rfl, rfl, ?_, ?_⟩), live,
            balanced₄.sound, ?_⟩
          · simp [reset]
          · simp [reset]
          · simp only [handleWlanClientDownEvt, found, runs₁, runs₂, runs₃, runs₄]

end Record

end Hima.Wlan
