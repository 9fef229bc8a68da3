import Mathlib.Algebra.BigOperators.Intervals
import Mathlib.Tactic.Abel
import Hima.Lib.Handles
import Hima.Wlan.Table

/-!
# Handles of headers and rules

What the driver has handed out and not taken back, what a record holds of it, and how the loops
over routing rules change both.
-/
namespace Hima.Wlan

open IpaWlanClient
open Wan (IpaIpType)
open Handles

variable {cfg : Iface} {d : Driver}

/-! ### The driver's side -/

/-- What a handle stands for. -/
inductive Resource where
  | header (hdl : UInt32)
  | rule (mac : MacAddr) (slot : RtSlot) (rule : RtRule) (hdl : UInt32)

/-- Headers and the rules of each family are numbered apart. -/
inductive Handle where
  | header (hdl : UInt32)
  | rule (ip : IpaIpType) (hdl : UInt32)
deriving DecidableEq

def Resource.handle : Resource → Handle
  | .header hdl => .header hdl
  | .rule _ _ r hdl => .rule r.ip hdl

def Resource.hdl : Resource → UInt32
  | .header hdl => hdl
  | .rule _ _ _ hdl => hdl

/-- What a call does to the handles; a failed deletion does nothing. -/
def Call.entry : Call → Option (Entry Resource Handle)
  | .addHdr _ hdl => some (.gain (.header hdl))
  | .delHdr hdl true => some (.release (.header hdl))
  | .delHdr _ false => none
  | .addRt mac slot rule hdl => some (.gain (.rule mac slot rule hdl))
  | .delRt ip hdl true => some (.release (.rule ip hdl))
  | .delRt _ _ false => none

/-- The resources that the driver has handed out and not taken back. -/
def liveIn (ledger : List Call) : Multiset Resource := live Resource.handle (ledger.filterMap Call.entry)

/-- Every deletion that the driver made took back a live handle. -/
def SoundLedger (ledger : List Call) : Prop := Sound Resource.handle (ledger.filterMap Call.entry)

/-- A handle that is handed out is not 0. -/
def Call.Real : Call → Prop
  | .addHdr _ hdl => hdl ≠ 0
  | .addRt _ _ _ hdl => hdl ≠ 0
  | .delHdr _ _ => True
  | .delRt _ _ _ => True

instance (call : Call) : Decidable call.Real := by
  cases call <;> simp only [Call.Real] <;> infer_instance

/-- The driver hands out no handle that is 0 or live. -/
structure Issued (ledger : List Call) : Prop where
  fresh : Fresh Resource.handle (ledger.filterMap Call.entry)
  real : ∀ call ∈ ledger, call.Real

instance (ledger : List Call) : Decidable (Issued ledger) :=
  decidable_of_iff (Fresh Resource.handle (ledger.filterMap Call.entry) ∧ ∀ call ∈ ledger, call.Real)
    ⟨fun both => ⟨both.1, both.2⟩, fun issued => ⟨issued.fresh, issued.real⟩⟩

theorem Issued.live_real {ledger : List Call} (issued : Issued ledger) {r : Resource}
    (member : r ∈ liveIn ledger) : r.hdl ≠ 0 := by
  obtain ⟨call, made, gained⟩ := List.mem_filterMap.mp (gain_of_live member)
  have real := issued.real call made
  cases call with
  | addHdr hdr hdl =>
    cases gained
    exact real
  | addRt mac slot rule hdl =>
    cases gained
    exact real
  | delHdr hdl done => cases done <;> simp [Call.entry] at gained
  | delRt ip hdl done => cases done <;> simp [Call.entry] at gained

/-! ### The record's side -/

def RtSlot.ip : RtSlot → IpaIpType
  | .v4 _ => .v4
  | .v6 _ _ => .v6
  | .v6Wan _ _ => .v6

theorem ruleOf_ip (c : IpaWlanClient) (slot : RtSlot) : (c.ruleOf cfg slot).ip = slot.ip := by
  cases slot <;> rfl

/-- The rule that a record holds in a place. -/
def IpaWlanClient.entry (cfg : Iface) (c : IpaWlanClient) (slot : RtSlot) : Resource :=
  .rule c.mac slot (c.ruleOf cfg slot) (c.wifiRtHdl slot)

theorem entry_handle (c : IpaWlanClient) (slot : RtSlot) :
    (c.entry cfg slot).handle = .rule slot.ip (c.wifiRtHdl slot) := by
  rw [entry, Resource.handle, ruleOf_ip]

def IpaWlanClient.heldHeader (c : IpaWlanClient) (ip : IpaIpType) : Multiset Resource :=
  if c.headerSet ip = true then {.header (c.hdrHdl ip)} else 0

def IpaWlanClient.heldRules (cfg : Iface) (c : IpaWlanClient) (ip : IpaIpType) : Multiset Resource :=
  (c.covered cfg ip).map (c.entry cfg)

/-- What the flags and counts of a record cover. -/
def IpaWlanClient.held (cfg : Iface) (c : IpaWlanClient) : Multiset Resource :=
  (c.heldHeader .v4 + c.heldHeader .v6) + (c.heldRules cfg .v4 + c.heldRules cfg .v6)

/-- Rules are only installed for addresses that are set, and these differ. -/
structure IpaWlanClient.Settled (c : IpaWlanClient) : Prop where
  v4 : c.routeRuleSetV4 = true → c.ipv4Set = true
  v6 : c.routeRuleSetV6 ≤ c.ipv6Set
  distinct : ∀ n < c.ipv6Set, ∀ m < c.ipv6Set, c.v6Addr n = c.v6Addr m → n = m

/-! ### Places -/

variable {ip : IpaIpType}

theorem mem_txOf {cfg : Iface} {tx : Nat} (member : tx ∈ cfg.txOf ip) :
    tx < cfg.txProp.length := List.mem_range.mp (List.mem_filter.mp member).1

theorem nodup_txOf (cfg : Iface) (ip : IpaIpType) : (cfg.txOf ip).Nodup := List.nodup_range.filter _

variable {slot : RtSlot}

theorem mem_slotsV4 : slot ∈ cfg.slotsV4 ↔ ∃ tx ∈ cfg.txOf .v4, slot = .v4 tx := by
  simp [Iface.slotsV4, eq_comm]

theorem mem_slotsV6 {first last : Nat} : slot ∈ cfg.slotsV6 first last ↔
    ∃ tx ∈ cfg.txOf .v6, ∃ num, first ≤ num ∧ num < last ∧ (slot = .v6 tx num ∨ slot = .v6Wan tx num) := by
  simp only [Iface.slotsV6, List.mem_flatMap, List.mem_range'_1, List.mem_cons, List.not_mem_nil, or_false]
  constructor
  · rintro ⟨tx, here, num, ⟨from_first, below⟩, this⟩
    exact ⟨tx, here, num, from_first, by omega, this⟩
  · rintro ⟨tx, here, num, from_first, below, this⟩
    exact ⟨tx, here, num, ⟨from_first, by omega⟩, this⟩

theorem nodup_slotsV4 (cfg : Iface) : cfg.slotsV4.Nodup :=
  (nodup_txOf cfg .v4).map fun _ _ same => by simpa using same

theorem nodup_slotsV6 (cfg : Iface) (first last : Nat) : (cfg.slotsV6 first last).Nodup := by
  refine List.nodup_flatMap.mpr ⟨fun tx _ => List.nodup_flatMap.mpr ⟨fun num _ => by simp, ?_⟩, ?_⟩
  · refine (List.nodup_range' (s := first) (n := last - first)).imp fun different => ?_
    simp [Function.onFun, different.symm]
  · refine (nodup_txOf cfg .v6).imp fun different => ?_
    simp only [Function.onFun, List.disjoint_left, List.mem_flatMap, List.mem_cons, List.not_mem_nil, or_false]
    rintro _ ⟨num, _, rfl | rfl⟩ ⟨num', _, same | same⟩ <;> simp_all

/-- The places up to `last` are those up to `first` and the ones from there. -/
theorem slotsV6_perm (cfg : Iface) {first last : Nat} (order : first ≤ last) :
    (cfg.slotsV6 0 last).Perm (cfg.slotsV6 0 first ++ cfg.slotsV6 first last) := by
  have split : List.range' 0 last = List.range' 0 first ++ List.range' first (last - first) := by
    have joined := List.range'_append_1 (s := 0) (m := first) (n := last - first)
    rw [Nat.zero_add, Nat.add_sub_cancel' order] at joined
    exact joined.symm
  simp only [Iface.slotsV6, Nat.sub_zero, split, List.flatMap_append]
  exact (List.flatMap_append_perm _ _ _).symm

/-! ### Changing what a record holds -/

variable {c : IpaWlanClient}

theorem ip_of_covered (member : slot ∈ c.covered cfg ip) : slot.ip = ip := by
  cases ip with
  | v4 =>
    rw [covered] at member
    split at member
    · obtain ⟨tx, _, rfl⟩ := mem_slotsV4.mp member
      rfl
    · simp at member
  | v6 =>
    obtain ⟨tx, _, num, _, _, rfl | rfl⟩ := mem_slotsV6.mp member <;> rfl

theorem ip_of_missing (member : slot ∈ c.missing cfg ip) : slot.ip = ip := by
  cases ip with
  | v4 =>
    obtain ⟨tx, _, rfl⟩ := mem_slotsV4.mp member
    rfl
  | v6 =>
    obtain ⟨tx, _, num, _, _, rfl | rfl⟩ := mem_slotsV6.mp member <;> rfl

theorem nodup_missing (c : IpaWlanClient) (ip : IpaIpType) : (c.missing cfg ip).Nodup := by
  cases ip with
  | v4 => exact nodup_slotsV4 cfg
  | v6 => exact nodup_slotsV6 cfg _ _

/-- What is missing is not covered yet. -/
theorem not_covered_of_missing (lacks : c.lacksRules ip)
    (missing : slot ∈ c.missing cfg ip) : slot ∉ c.covered cfg ip := by
  cases ip with
  | v4 => simp [covered, lacks.1]
  | v6 =>
    intro covered
    obtain ⟨tx, _, num, from_first, _, this⟩ := mem_slotsV6.mp missing
    obtain ⟨tx', _, num', _, below, same⟩ := mem_slotsV6.mp covered
    have : num = num' := by
      rcases this with rfl | rfl <;> rcases same with same | same <;> injection same
    omega

/-- What is covered once the missing rules are in. -/
theorem covered_setRouteRules (lacks : c.lacksRules ip) :
    ((c.setRouteRules ip).covered cfg ip).Perm (c.covered cfg ip ++ c.missing cfg ip) := by
  cases ip with
  | v4 => simp [setRouteRules, covered, missing, lacks.1]
  | v6 => exact slotsV6_perm cfg (Nat.le_of_lt lacks)

/-- The handles of a row of places. -/
def IpaWlanClient.setHdls (slots : List RtSlot) (hdls : RtSlot → UInt32) (c : IpaWlanClient) :
    IpaWlanClient :=
  { c with wifiRtHdl := fun slot => if slot ∈ slots then hdls slot else c.wifiRtHdl slot }

theorem heldRules_congr {c c' : IpaWlanClient} (same : c'.covered cfg ip = c.covered cfg ip)
    (entries : ∀ slot ∈ c.covered cfg ip, c'.entry cfg slot = c.entry cfg slot) :
    c'.heldRules cfg ip = c.heldRules cfg ip := by
  rw [heldRules, heldRules, same]
  exact congrArg _ (List.map_congr_left entries)

variable {slots : List RtSlot}

theorem ruleOf_setHdls (hdls : RtSlot → UInt32) : (c.setHdls slots hdls).ruleOf cfg slot = c.ruleOf cfg slot := by
  cases slot <;> rfl

theorem entry_setHdls_of_mem {hdls : RtSlot → UInt32} (member : slot ∈ slots) :
    (c.setHdls slots hdls).entry cfg slot = .rule c.mac slot (c.ruleOf cfg slot) (hdls slot) := by
  rw [entry, ruleOf_setHdls]
  simp [setHdls, member]

theorem entry_setHdls_of_not_mem {hdls : RtSlot → UInt32} (other : slot ∉ slots) :
    (c.setHdls slots hdls).entry cfg slot = c.entry cfg slot := by
  rw [entry, entry, ruleOf_setHdls]
  simp [setHdls, other]

/-- `setRouteRules` changes a flag or a count only. -/
theorem entry_setRouteRules (c : IpaWlanClient) (ip : IpaIpType) (slot : RtSlot) :
    (c.setRouteRules ip).entry cfg slot = c.entry cfg slot := by
  cases ip <;> cases slot <;> rfl

theorem entry_clearRouteRules (c : IpaWlanClient) (ip : IpaIpType) (slot : RtSlot) :
    (c.clearRouteRules ip).entry cfg slot = c.entry cfg slot := by
  cases ip <;> cases slot <;> rfl

/-- The rules of a family after its missing rules were added. -/
theorem heldRules_setRouteRules (cfg : Iface) (lacks : c.lacksRules ip) (hdls : RtSlot → UInt32) :
    ((c.setHdls (c.missing cfg ip) hdls).setRouteRules ip).heldRules cfg ip =
      ↑((c.missing cfg ip).map fun slot =>
        Resource.rule c.mac slot (c.ruleOf cfg slot) (hdls slot)) + c.heldRules cfg ip := by
  have covered : (((c.setHdls (c.missing cfg ip) hdls).setRouteRules ip).covered cfg ip).Perm
      (c.missing cfg ip ++ c.covered cfg ip) := by
    have same : ((c.setHdls (c.missing cfg ip) hdls).setRouteRules ip).covered cfg ip =
        (c.setRouteRules ip).covered cfg ip := by
      cases ip <;> rfl
    rw [same]
    exact (covered_setRouteRules lacks).trans List.perm_append_comm
  refine Multiset.coe_eq_coe.mpr ((covered.map _).trans (.of_eq ?_))
  rw [List.map_append]
  congr 1
  · apply List.map_congr_left
    intro slot member
    rw [entry_setRouteRules, entry_setHdls_of_mem member]
  · apply List.map_congr_left
    intro slot member
    rw [entry_setRouteRules, entry_setHdls_of_not_mem fun missing => not_covered_of_missing lacks missing member]

/-- The rules that are added are held besides what was held. -/
theorem held_setRouteRules (lacks : c.lacksRules ip) (hdls : RtSlot → UInt32) :
    ((c.setHdls (c.missing cfg ip) hdls).setRouteRules ip).held cfg = ↑((c.missing cfg ip).map fun slot =>
        Resource.rule c.mac slot (c.ruleOf cfg slot) (hdls slot)) + c.held cfg := by
  have added := heldRules_setRouteRules cfg lacks hdls
  -- the rules of the other family are in other places
  have other : ∀ ip' ≠ ip, ((c.setHdls (c.missing cfg ip) hdls).setRouteRules ip).heldRules cfg ip' =
      c.heldRules cfg ip' := by
    intro ip' different
    apply heldRules_congr
    · cases ip <;> cases ip' <;> first | rfl | contradiction
    · intro slot member
      rw [entry_setRouteRules, entry_setHdls_of_not_mem fun missing =>
        different ((ip_of_covered member).symm.trans (ip_of_missing missing))]
  have headers : ∀ ip', ((c.setHdls (c.missing cfg ip) hdls).setRouteRules ip).heldHeader ip' =
      c.heldHeader ip' := by
    intro ip'
    cases ip <;> cases ip' <;> rfl
  simp only [held, headers]
  cases ip with
  | v4 =>
    rw [added, other .v6 (by simp)]
    abel
  | v6 =>
    rw [added, other .v4 (by simp)]
    abel

/-- Without the rules of a family a record holds the rest. -/
theorem held_clearRouteRules (c : IpaWlanClient) (ip : IpaIpType) :
    c.held cfg = c.heldRules cfg ip + (c.clearRouteRules ip).held cfg := by
  have headers : ∀ ip', (c.clearRouteRules ip).heldHeader ip' = c.heldHeader ip' := by
    intro ip'
    cases ip <;> cases ip' <;> rfl
  have other : ∀ ip' ≠ ip, (c.clearRouteRules ip).heldRules cfg ip' = c.heldRules cfg ip' := by
    intro ip' different
    apply heldRules_congr
    · cases ip <;> cases ip' <;> first | rfl | contradiction
    · exact fun slot _ => entry_clearRouteRules c ip slot
  have cleared : (c.clearRouteRules ip).heldRules cfg ip = 0 := by
    cases ip <;> simp [heldRules, covered, clearRouteRules, Iface.slotsV6]
  simp only [held, headers]
  cases ip with
  | v4 =>
    abel
  | v6 =>
    rw [cleared, other .v4 (by simp)]
    abel

/-! ### The loops -/

/-- `n` additions from an attempt on that all succeed, or of which the first one fails: the attempt
they end at, and their answer. -/
inductive WholeInstall (d : Driver) (start n : Nat) : Nat → Bool → Prop
  | all : (∀ k < n, d.outcome (start + k) = .ok) → WholeInstall d start n (start + n) true
  | none : 0 < n → d.outcome start ≠ .ok → WholeInstall d start n (start + 1) false

/-- `n` deletions that all succeed, or that end for lack of memory before any has succeeded. -/
inductive WholeDeletion (d : Driver) (start n : Nat) : Nat → Bool → Prop
  | all : (∀ k < n, d.outcome (start + k) = .ok) → WholeDeletion d start n (start + n) true
  | none {k : Nat} : k < n → (∀ j < k, d.outcome (start + j) = .refused) →
      d.outcome (start + k) = .noMemory → WholeDeletion d start n (start + k + 1) false

theorem addRules_all (cfg : Iface) {i : Nat} : slots.Nodup → ∀ s : IpacmWlan,
    (∀ k < slots.length, d.outcome (s.attempts + k) = .ok) → ∃ hdls s', addRules cfg d i slots s = (true, s') ∧
      s'.wlanClient = Function.update s.wlanClient i ((s.wlanClient i).setHdls slots hdls) ∧
      s'.attempts = s.attempts + slots.length ∧
      liveIn s'.ledger = ↑(slots.map fun slot => Resource.rule (s.wlanClient i).mac slot
        ((s.wlanClient i).ruleOf cfg slot) (hdls slot)) + liveIn s.ledger ∧
      (SoundLedger s.ledger → SoundLedger s'.ledger) := by
  -- over the slots, each written once: what is written later leaves its handle
  induction slots with
  | nil =>
    intro _ s _
    refine ⟨fun _ => 0, s, rfl, ?_, rfl, by simp, id⟩
    simp [setHdls]
  | cons slot slots ih =>
    intro nodup s succeed
    obtain ⟨new, nodup⟩ := List.nodup_cons.mp nodup
    have first : d.outcome s.attempts = .ok := succeed 0 (by simp)
    generalize issued : d.rtHandle s.ledger = hdl
    obtain ⟨hdls, s', runs, clients, attempts, live, sound⟩ := ih nodup (IpacmWlan.update { s with
        attempts := s.attempts + 1
        ledger := .addRt (s.wlanClient i).mac slot ((s.wlanClient i).ruleOf cfg slot) hdl :: s.ledger } i
        (setRtHdl slot hdl)) fun k below => by
          have later := succeed (k + 1) (by simpa using below)
          rwa [show s.attempts + (k + 1) = s.attempts + 1 + k by omega] at later
    refine ⟨Function.update hdls slot hdl, s', ?_, ?_, ?_, ?_, fun before => sound before⟩
    · simpa only [addRules, addRoutingRule, first, issued] using runs
    · rw [clients]
      simp only [IpacmWlan.update, Function.update_self, Function.update_idem]
      congr 1
      simp only [setHdls, setRtHdl, mk.injEq, true_and]
      funext other
      by_cases here : other = slot
      · subst here
        simp [new]
      · simp [here]
    · rw [attempts, List.length_cons]
      simp only [IpacmWlan.update]
      omega
    · rw [live]
      have rule : ∀ other, ((IpacmWlan.update { s with
          attempts := s.attempts + 1
          ledger := .addRt (s.wlanClient i).mac slot ((s.wlanClient i).ruleOf cfg slot) hdl ::
            s.ledger } i (setRtHdl slot hdl)).wlanClient i).ruleOf cfg other =
          (s.wlanClient i).ruleOf cfg other := by
        intro other
        cases other <;> simp [IpacmWlan.update, setRtHdl, ruleOf]
      -- the handle of `slot` stands apart from those of the slots behind it
      have rest : slots.map (fun slot' => Resource.rule (s.wlanClient i).mac slot'
            ((s.wlanClient i).ruleOf cfg slot') (Function.update hdls slot hdl slot')) =
          slots.map (fun slot' => Resource.rule (s.wlanClient i).mac slot'
            ((s.wlanClient i).ruleOf cfg slot') (hdls slot')) := by
        apply List.map_congr_left
        intro other member
        have apart : other ≠ slot := fun this => new (this ▸ member)
        simp [apart]
      have mac : ((IpacmWlan.update { s with
          attempts := s.attempts + 1
          ledger := .addRt (s.wlanClient i).mac slot ((s.wlanClient i).ruleOf cfg slot) hdl ::
            s.ledger } i (setRtHdl slot hdl)).wlanClient i).mac = (s.wlanClient i).mac := by
        simp [IpacmWlan.update, setRtHdl]
      simp only [rule, mac, List.map_cons, rest, Function.update_self, ← Multiset.cons_coe, Multiset.cons_add]
      exact Multiset.add_cons _ _ _

theorem addRules_none {i : Nat} {s : IpacmWlan} (some : 0 < slots.length) (fails : d.outcome s.attempts ≠ .ok) :
    addRules cfg d i slots s = (false, { s with attempts := s.attempts + 1 }) := by
  cases slots with
  | nil => simp at some
  | cons slot slots =>
    cases answer : d.outcome s.attempts with
    | ok => exact absurd answer fails
    | refused => simp only [addRules, addRoutingRule, answer]
    | noMemory => simp only [addRules, addRoutingRule, answer]

/-- The rules of a row of places are deleted, and what is held besides stays. -/
theorem deleteRules_all (cfg : Iface) {i : Nat} : (∀ slot ∈ slots, slot.ip = ip) →
    ∀ (s : IpacmWlan) (rest : Multiset Resource), Issued s.ledger →
    liveIn s.ledger = ↑(slots.map ((s.wlanClient i).entry cfg)) + rest →
    (∀ k < slots.length, d.outcome (s.attempts + k) = .ok) → ∃ ledger, deleteRules d i ip slots s =
        (true, { s with attempts := s.attempts + slots.length, ledger := ledger }) ∧
      liveIn ledger = rest ∧ Issued ledger ∧ (SoundLedger s.ledger → SoundLedger ledger) := by
  induction slots with
  | nil =>
    intro _ s rest issued live _
    exact ⟨s.ledger, rfl, by simpa using live, issued, id⟩
  | cons slot slots ih =>
    intro family s rest issued live succeed
    have first : d.outcome s.attempts = .ok := succeed 0 (by simp)
    rw [List.map_cons, ← Multiset.cons_coe, Multiset.cons_add] at live
    have handle : ((s.wlanClient i).entry cfg slot).handle = .rule ip ((s.wlanClient i).wifiRtHdl slot) := by
      rw [entry_handle, family slot (by simp)]
    have real : (s.wlanClient i).wifiRtHdl slot ≠ 0 :=
      issued.live_real (r := (s.wlanClient i).entry cfg slot) (by rw [live]; exact Multiset.mem_cons_self _ _)
    have released := live_release issued.fresh live
    have still : SoundLedger s.ledger → SoundLedger (.delRt ip ((s.wlanClient i).wifiRtHdl slot) true :: s.ledger) := by
      intro before
      have := sound_release before live
      rwa [handle] at this
    rw [handle] at released
    obtain ⟨ledger, runs, live', issued', sound⟩ := ih (fun slot member => family slot (by simp [member]))
      { s with
        attempts := s.attempts + 1
        ledger := .delRt ip ((s.wlanClient i).wifiRtHdl slot) true :: s.ledger }
      rest ⟨issued.fresh, by simpa [Call.Real] using issued.real⟩ released
      fun k below => by
        have later := succeed (k + 1) (by simpa using below)
        rwa [show s.attempts + (k + 1) = s.attempts + 1 + k by omega] at later
    refine ⟨ledger, ?_, live', issued', fun before => sound (still before)⟩
    simp only [deleteRules, deleteRoutingHdl, real, if_false, first, runs, List.length_cons]
    rw [show s.attempts + 1 + slots.length = s.attempts + (slots.length + 1) by omega]

/-- Deletions that end before any has succeeded leave everything as it was. -/
theorem deleteRules_none {i : Nat} (ip : IpaIpType) : ∀ {s : IpacmWlan} {k : Nat},
    (∀ slot ∈ slots, (s.wlanClient i).wifiRtHdl slot ≠ 0) → Issued s.ledger → k < slots.length →
    (∀ j < k, d.outcome (s.attempts + j) = .refused) → d.outcome (s.attempts + k) = .noMemory →
    ∃ ledger, deleteRules d i ip slots s =
        (false, { s with attempts := s.attempts + k + 1, ledger := ledger }) ∧
      liveIn ledger = liveIn s.ledger ∧ Issued ledger ∧ (SoundLedger s.ledger → SoundLedger ledger) := by
  induction slots with
  | nil =>
    intro s k _ _ below
    simp at below
  | cons slot slots ih =>
    intro s k real issued below refused fails
    have first := real slot (by simp)
    cases k with
    | zero =>
      have here : d.outcome s.attempts = .noMemory := fails
      refine ⟨s.ledger, ?_, rfl, issued, id⟩
      simp only [deleteRules, deleteRoutingHdl, first, if_false, here]
    | succ k =>
      have here : d.outcome s.attempts = .refused := refused 0 (by simp)
      obtain ⟨ledger, runs, live, issued', sound⟩ := ih (k := k) (s := { s with
          attempts := s.attempts + 1
          ledger := .delRt ip ((s.wlanClient i).wifiRtHdl slot) false :: s.ledger })
        (fun slot member => real slot (by simp [member]))
        ⟨issued.fresh, by simpa [Call.Real] using issued.real⟩ (by simpa using below)
        (fun j earlier => by
          have later := refused (j + 1) (by omega)
          rwa [show s.attempts + (j + 1) = s.attempts + 1 + j by omega] at later)
        (by rwa [show s.attempts + (k + 1) = s.attempts + 1 + k by omega] at fails)
      refine ⟨ledger, ?_, live, issued', sound⟩
      simp only [deleteRules, deleteRoutingHdl, first, if_false, here, runs]
      rw [show s.attempts + 1 + k + 1 = s.attempts + (k + 1) + 1 by omega]

end Hima.Wlan
