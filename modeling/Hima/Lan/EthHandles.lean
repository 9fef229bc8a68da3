import Hima.Lan.EthRecords
import Hima.Wlan.Owners

/-!
# Handles of ethernet clients

What the driver has handed out and not taken back, what the records hold of it, and what the loops
over routing rules and the header calls change when every call succeeds.
-/
namespace Hima.Lan

open EthClient Function
open Wan (IpaIpType)
open Wlan (MacAddr RtSlot RtRule RtTable IpAddr Handle nodup_slotsV4 nodup_slotsV6 mem_slotsV4
  mem_slotsV6 slotsV6_perm mem_txOf)
open Handles

variable {cfg : Iface} {d : Driver} {s s' s'' : IpacmLan} {i : Nat}

/-! ### The driver's side -/

/-- What a handle stands for, and for which client. -/
inductive Resource where
  | header (mac : MacAddr) (ip : IpaIpType) (hdl : UInt32)
  | rule (mac : MacAddr) (slot : RtSlot) (rule : RtRule) (hdl : UInt32)

def Resource.handle : Resource → Handle
  | .header _ _ hdl => .header hdl
  | .rule _ _ r hdl => .rule r.ip hdl

def Resource.hdl : Resource → UInt32
  | .header _ _ hdl => hdl
  | .rule _ _ _ hdl => hdl

def Resource.mac : Resource → MacAddr
  | .header mac _ _ => mac
  | .rule mac _ _ _ => mac

/-- What a client has one of: a header for each family, and in each table a rule for each of its
addresses and each endpoint. -/
inductive Target where
  | header (mac : MacAddr) (ip : IpaIpType)
  | rule (mac : MacAddr) (table : RtTable) (tx : Nat) (addr : IpAddr)
deriving DecidableEq

def Resource.target : Resource → Target
  | .header mac ip _ => .header mac ip
  | .rule mac slot r _ => .rule mac r.table slot.tx r.addr

/-- What a call does to the handles; a failed deletion does nothing. -/
def Call.entry : Call → Option (Entry Resource Handle)
  | .addHdr mac ip _ hdl => some (.gain (.header mac ip hdl))
  | .delHdr hdl true => some (.release (.header hdl))
  | .delHdr _ false => none
  | .addRt mac slot rule hdl => some (.gain (.rule mac slot rule hdl))
  | .delRt ip hdl true => some (.release (.rule ip hdl))
  | .delRt _ _ false => none

def entriesOf (ledger : List Call) : List (Entry Resource Handle) := ledger.filterMap Call.entry

/-- The resources that the driver has handed out and not taken back. -/
def liveIn (ledger : List Call) : Multiset Resource := live Resource.handle (entriesOf ledger)

/-- Every deletion that the driver made took back a live handle. -/
def SoundLedger (ledger : List Call) : Prop := Sound Resource.handle (entriesOf ledger)

/-- A handle that is handed out is not 0. -/
def Call.Real : Call → Prop
  | .addHdr _ _ _ hdl => hdl ≠ 0
  | .addRt _ _ _ hdl => hdl ≠ 0
  | .delHdr _ _ => True
  | .delRt _ _ _ => True

instance (call : Call) : Decidable call.Real := by
  cases call <;> simp only [Call.Real] <;> infer_instance

/-- The driver hands out no handle that is 0 or live. -/
structure Issued (ledger : List Call) : Prop where
  fresh : Fresh Resource.handle (entriesOf ledger)
  real : ∀ call ∈ ledger, call.Real

instance (ledger : List Call) : Decidable (Issued ledger) :=
  decidable_of_iff (Fresh Resource.handle (entriesOf ledger) ∧ ∀ call ∈ ledger, call.Real)
    ⟨fun both => ⟨both.1, both.2⟩, fun issued => ⟨issued.fresh, issued.real⟩⟩

theorem Issued.live_real {ledger : List Call} (issued : Issued ledger) {r : Resource}
    (member : r ∈ liveIn ledger) : r.hdl ≠ 0 := by
  obtain ⟨call, made, gained⟩ := List.mem_filterMap.mp (gain_of_live member)
  have real := issued.real call made
  cases call with
  | addHdr mac ip hdr hdl =>
    cases gained
    exact real
  | addRt mac slot rule hdl =>
    cases gained
    exact real
  | delHdr hdl done => cases done <;> simp [Call.entry] at gained
  | delRt ip hdl done => cases done <;> simp [Call.entry] at gained

/-! ### The record's side -/

theorem ruleOf_ip (c : EthClient) (slot : RtSlot) : (c.ruleOf cfg slot).ip = slot.ip := by
  cases slot <;> rfl

/-- The rule that a record holds in a place. -/
def EthClient.entry (cfg : Iface) (c : EthClient) (slot : RtSlot) : Resource :=
  .rule c.mac slot (c.ruleOf cfg slot) (c.ethRtHdl slot)

theorem entry_handle (c : EthClient) (slot : RtSlot) :
    (c.entry cfg slot).handle = .rule slot.ip (c.ethRtHdl slot) := by
  rw [entry, Resource.handle, ruleOf_ip]

def EthClient.heldHeader (c : EthClient) (ip : IpaIpType) : Multiset Resource :=
  if c.headerSet ip = true then {.header c.mac ip (c.hdrHdl ip)} else 0

def EthClient.heldRules (cfg : Iface) (c : EthClient) (ip : IpaIpType) : Multiset Resource :=
  (c.covered cfg ip).map (c.entry cfg)

/-- What the flags and counts of a record cover. -/
def EthClient.held (cfg : Iface) (c : EthClient) : Multiset Resource :=
  (c.heldHeader .v4 + c.heldHeader .v6) + (c.heldRules cfg .v4 + c.heldRules cfg .v6)

/-- Rules are only installed for addresses that are set, and these differ. -/
structure EthClient.Settled (c : EthClient) : Prop where
  v4 : c.routeRuleSetV4 = true → c.ipv4Set = true
  v6 : c.routeRuleSetV6 ≤ c.ipv6Set
  distinct : ∀ n < c.ipv6Set, ∀ m < c.ipv6Set, c.v6Addr n = c.v6Addr m → n = m

variable {c : EthClient}

theorem mem_covered_v4 {slot : RtSlot} :
    slot ∈ c.covered cfg .v4 ↔ c.routeRuleSetV4 = true ∧ ∃ tx ∈ cfg.txOf .v4, slot = .v4 tx := by
  rw [covered]
  split <;> simp_all [mem_slotsV4]

theorem nodup_covered (c : EthClient) (ip : IpaIpType) : (c.covered cfg ip).Nodup := by
  cases ip with
  | v4 =>
    rw [covered]
    split
    · exact nodup_slotsV4 cfg.toIface
    · exact .nil
  | v6 => exact nodup_slotsV6 cfg.toIface _ _

theorem nodup_missing (c : EthClient) (ip : IpaIpType) : (c.missing cfg ip).Nodup := by
  cases ip with
  | v4 => exact nodup_slotsV4 cfg.toIface
  | v6 => exact nodup_slotsV6 cfg.toIface _ _

theorem ip_of_covered {ip : IpaIpType} {slot : RtSlot} (member : slot ∈ c.covered cfg ip) : slot.ip = ip := by
  cases ip with
  | v4 =>
    obtain ⟨-, tx, _, rfl⟩ := mem_covered_v4.mp member
    rfl
  | v6 =>
    obtain ⟨tx, _, num, _, _, rfl | rfl⟩ := mem_slotsV6.mp member <;> rfl

/-- A record covers what its counts keep. -/
theorem inUse_of_covered {ip : IpaIpType} {slot : RtSlot}
    (member : slot ∈ c.covered cfg ip) : c.InUse cfg slot := by
  cases ip with
  | v4 =>
    obtain ⟨-, tx, inside, rfl⟩ := mem_covered_v4.mp member
    exact mem_txOf inside
  | v6 =>
    obtain ⟨tx, inside, num, _, below, rfl | rfl⟩ := mem_slotsV6.mp member <;> exact ⟨mem_txOf inside, below⟩

/-- The records' own view of what they hold. -/
theorem held_norm (settled : c.Settled) : (c.norm cfg).held cfg = c.held cfg := by
  have rules : ∀ ip, (c.norm cfg).heldRules cfg ip = c.heldRules cfg ip := by
    intro ip
    rw [heldRules, heldRules, norm_covered]
    refine congrArg _ (List.map_congr_left fun slot member => ?_)
    have rule : (c.norm cfg).ruleOf cfg slot = c.ruleOf cfg slot := by
      have used := inUse_of_covered member
      have order := settled.v6
      cases slot with
      | v4 tx => rfl
      | v6 tx num => simp only [ruleOf, norm_v6Addr (Nat.lt_of_lt_of_le used.2 order)]
      | v6Wan tx num =>
        simp only [ruleOf, norm_v6Addr (Nat.lt_of_lt_of_le used.2 order), norm_hdrHdl]
    rw [entry, entry, rule, norm_ethRtHdl (inUse_of_covered member), norm_mac]
  rw [EthClient.held, EthClient.held, rules, rules]
  rfl

theorem settled_norm (settled : c.Settled) : (c.norm cfg).Settled where
  v4 := settled.v4
  v6 := settled.v6
  distinct n below m below' same := by
    rw [norm_v6Addr (c := c) below, norm_v6Addr (c := c) below'] at same
    exact settled.distinct n below m below' same

theorem settled_of_norm (cfg : Iface) (settled : (c.norm cfg).Settled) : c.Settled where
  v4 := settled.v4
  v6 := settled.v6
  distinct n below m below' same := by
    refine settled.distinct n below m below' ?_
    rw [norm_v6Addr (c := c) below, norm_v6Addr (c := c) below', same]

/-! ### Calls that succeed -/

/-- Every call to the driver succeeds. -/
structure Driver.Succeeds (d : Driver) : Prop where
  ok : ∀ n, d.outcome n = .ok
  copies : ∀ name, (d.copyHeader name).isSome

/-- From `s` to `s'` the record at `i` became `c`, and the driver has made the entries. -/
structure Changed (i : Nat) (c : EthClient) (entries : List (Entry Resource Handle))
    (s s' : IpacmLan) : Prop where
  num : s'.numEthClient = s.numEthClient
  count : s'.headerNameCount = s.headerNameCount
  clients : s'.ethClient = update s.ethClient i c
  entries : entriesOf s'.ledger = entries ++ entriesOf s.ledger

namespace Changed

variable {c c' : EthClient} {es es' : List (Entry Resource Handle)}

theorem refl (i : Nat) (s : IpacmLan) : Changed i (s.ethClient i) [] s s :=
  ⟨rfl, rfl, (update_eq_self i s.ethClient).symm, rfl⟩

theorem trans (first : Changed i c es s s') (second : Changed i c' es' s' s'') :
    Changed i c' (es' ++ es) s s'' where
  num := second.num.trans first.num
  count := second.count.trans first.count
  clients := by rw [second.clients, first.clients, update_idem]
  entries := by rw [second.entries, first.entries, List.append_assoc]

@[simp] theorem at_i (changed : Changed i c es s s') : s'.ethClient i = c := by
  rw [changed.clients, update_self]

theorem others (changed : Changed i c es s s') {j : Nat} (other : j ≠ i) :
    s'.ethClient j = s.ethClient j := by
  rw [changed.clients, update_of_ne other]

/-- The handlers change the record on their own as well. -/
theorem update (changed : Changed i c es s s') (f : EthClient → EthClient) :
    Changed i (f c) es s (s'.update i f) where
  num := changed.num
  count := changed.count
  clients := by
    rw [IpacmLan.update, changed.at_i]
    rw [changed.clients, update_idem]
  entries := changed.entries

/-- Clients are found where they were. -/
theorem index (changed : Changed i c es s s') (same : c.mac = (s.ethClient i).mac) (mac : MacAddr) :
    s'.getEthClientIndex mac = s.getEthClientIndex mac := by
  have macs : ∀ j, (s'.ethClient j).mac = (s.ethClient j).mac := by
    intro j
    by_cases this : j = i
    · rw [this, changed.at_i, same]
    · rw [changed.others this]
  simp only [IpacmLan.getEthClientIndex, changed.num, macs]

end Changed

theorem changed_record {call : Call} {e : Entry Resource Handle} (entry : call.entry = some e) :
    Changed i (s.ethClient i) [e] s (s.record call) where
  num := rfl
  count := rfl
  clients := (update_eq_self i s.ethClient).symm
  entries := by simp [IpacmLan.record, entriesOf, entry]

/-- The handles of a row of places. -/
def EthClient.setHdls (slots : List RtSlot) (hdls : RtSlot → UInt32) (c : EthClient) : EthClient :=
  { c with ethRtHdl := fun slot => if slot ∈ slots then hdls slot else c.ethRtHdl slot }

theorem ruleOf_setHdls (slots : List RtSlot) (hdls : RtSlot → UInt32) (slot : RtSlot) :
    (c.setHdls slots hdls).ruleOf cfg slot = c.ruleOf cfg slot := by
  cases slot <;> rfl

theorem entry_setHdls_of_mem {slots : List RtSlot} {hdls : RtSlot → UInt32}
    {slot : RtSlot} (member : slot ∈ slots) :
    (c.setHdls slots hdls).entry cfg slot = .rule c.mac slot (c.ruleOf cfg slot) (hdls slot) := by
  rw [entry, ruleOf_setHdls]
  simp [setHdls, member]

theorem entry_setHdls_of_not_mem {slots : List RtSlot} {hdls : RtSlot → UInt32}
    {slot : RtSlot} (other : slot ∉ slots) : (c.setHdls slots hdls).entry cfg slot = c.entry cfg slot := by
  rw [entry, entry, ruleOf_setHdls]
  simp [setHdls, other]

/-- The rules of the places are added, each under a handle of its own. -/
theorem addRules_changed (cfg : Iface) (succeeds : d.Succeeds) (i : Nat) (slots : List RtSlot) (s : IpacmLan)
    (nodup : slots.Nodup) : ∃ hdls s', addRules cfg d i slots s = (true, s') ∧
      Changed i ((s.ethClient i).setHdls slots hdls)
        ((slots.reverse.map (((s.ethClient i).setHdls slots hdls).entry cfg)).map .gain) s s' := by
  induction slots generalizing s with
  | nil => exact ⟨(s.ethClient i).ethRtHdl, s, rfl, .refl i s⟩
  | cons slot slots ih =>
    obtain ⟨new, nodup⟩ := List.nodup_cons.mp nodup
    have added : addRoutingRule d (s.ethClient i).mac slot ((s.ethClient i).ruleOf cfg slot) s =
        (some (d.rtHandle s.ledger), s.record
          (.addRt (s.ethClient i).mac slot ((s.ethClient i).ruleOf cfg slot) (d.rtHandle s.ledger))) := by
      simp [addRoutingRule, succeeds.ok]
    have here : Changed i ((s.ethClient i).setRtHdl slot (d.rtHandle s.ledger))
        [.gain (.rule (s.ethClient i).mac slot ((s.ethClient i).ruleOf cfg slot) (d.rtHandle s.ledger))]
        s ((s.record (.addRt (s.ethClient i).mac slot ((s.ethClient i).ruleOf cfg slot)
          (d.rtHandle s.ledger))).update i (setRtHdl slot (d.rtHandle s.ledger))) :=
      (changed_record rfl).update _
    obtain ⟨hdls, s', rest, changed⟩ := ih _ nodup
    rw [here.at_i] at changed
    -- the handle of the first place stands beside those of the others
    have both : ((s.ethClient i).setRtHdl slot (d.rtHandle s.ledger)).setHdls slots hdls =
        (s.ethClient i).setHdls (slot :: slots) (update hdls slot (d.rtHandle s.ledger)) := by
      have handles : ∀ x, (if x ∈ slots then hdls x
          else update (s.ethClient i).ethRtHdl slot (d.rtHandle s.ledger) x) =
          if x ∈ slot :: slots then update hdls slot (d.rtHandle s.ledger) x
          else (s.ethClient i).ethRtHdl x := by
        intro x
        by_cases this : x = slot
        · subst this
          simp [new]
        · simp [this]
      simp only [setHdls, setRtHdl, handles]
    rw [both] at changed
    refine ⟨update hdls slot (d.rtHandle s.ledger), s', ?_, ?_⟩
    · simp only [addRules, added]
      exact rest
    · have whole := here.trans changed
      simp only [List.reverse_cons, List.map_append, List.map_cons, List.map_nil]
      rwa [entry_setHdls_of_mem (by simp), update_self]

/-- The rules of the places are deleted; a handle that is 0 would be left out. -/
theorem deleteRules_changed (succeeds : d.Succeeds) (i : Nat) (ip : IpaIpType) (slots : List RtSlot)
    (s : IpacmLan) (real : ∀ slot ∈ slots, (s.ethClient i).ethRtHdl slot ≠ 0) :
    ∃ s', deleteRules d i ip slots s = (true, s') ∧ Changed i (s.ethClient i)
      (slots.reverse.map fun slot => .release (.rule ip ((s.ethClient i).ethRtHdl slot))) s s' := by
  induction slots generalizing s with
  | nil => exact ⟨s, rfl, .refl i s⟩
  | cons slot slots ih =>
    have deleted : deleteRoutingHdl d ((s.ethClient i).ethRtHdl slot) ip s =
        (true, s.record (.delRt ip ((s.ethClient i).ethRtHdl slot) true)) := by
      simp [deleteRoutingHdl, real slot (by simp), succeeds.ok]
    have here : Changed i (s.ethClient i) [.release (.rule ip ((s.ethClient i).ethRtHdl slot))] s
        (s.record (.delRt ip ((s.ethClient i).ethRtHdl slot) true)) := changed_record rfl
    obtain ⟨s', rest, changed⟩ := ih (s.record (.delRt ip ((s.ethClient i).ethRtHdl slot) true))
      fun x member => real x (by simp [member])
    refine ⟨s', ?_, ?_⟩
    · simp only [deleteRules, deleted]
      exact rest
    · rw [here.at_i] at changed
      simpa using here.trans changed

/-!
## The account of the client table

The records hold what the driver has handed out and not taken back. Each handler keeps this when
its calls succeed: it changes one record, appends one or takes one out, and what the record holds
more or less is what the driver has handed out or taken back.
-/
open Wlan (MacAddr V6Addr RtSlot IpAddr Handle mem_slotsV6 slotsV6_perm)
open FirstMatch Slots

variable {mac : MacAddr}

/-! ### The table -/

/-- The records of the table hold what is live, and each is as the handlers expect it. The records
behind the table may say anything but that they have a header of a family without properties. -/
structure Accounted (cfg : Iface) (s : IpacmLan) : Prop where
  live : liveIn s.ledger = ((s.records cfg).map (EthClient.held cfg)).sum
  sound : SoundLedger s.ledger
  settled : ∀ k < s.numEthClient, (s.ethClient k).Settled
  headers : ∀ k ip, (s.ethClient k).headerSet ip = true → ∃ tx ∈ cfg.txProp, tx.ip = ip
  nodup : ((s.records cfg).map EthClient.mac).Nodup
  room : s.numEthClient ≤ maxNumEthClients

/-- What the records of the other clients hold. -/
def IpacmLan.heldBeside (cfg : Iface) (mac : MacAddr) (s : IpacmLan) : Multiset Resource :=
  (((s.records cfg).eraseP (isMac mac)).map (EthClient.held cfg)).sum

theorem Accounted.beside (accounted : Accounted cfg s) (found : s.getEthClientIndex mac = some i) :
    liveIn s.ledger = (s.ethClient i).held cfg + s.heldBeside cfg mac := by
  have split := (perm_eraseP (lookup_of_index cfg found)).map (EthClient.held cfg)
  rw [accounted.live, split.sum_eq, List.map_cons, List.sum_cons,
    held_norm (accounted.settled i (index_some found).1)]
  rfl

/-- The records of the other clients stay as they are. -/
def Leaves (cfg : Iface) (mac : MacAddr) (s s' : IpacmLan) : Prop :=
  ∀ other, mac ≠ other → s'.lookup cfg other = s.lookup cfg other

theorem leaves_of_same (same : s'.records cfg = s.records cfg) : Leaves cfg mac s s' := by
  intro other _
  rw [IpacmLan.lookup, IpacmLan.lookup, same]

/-! ### A record changes -/

/-- A record changes in place, with what the driver hands out and takes back for it. -/
theorem Accounted.changed {c : EthClient} {es : List (Entry Resource Handle)}
    (accounted : Accounted cfg s) (found : s.getEthClientIndex mac = some i)
    (changed : Changed i c es s s') (same : c.mac = (s.ethClient i).mac) (settled : c.Settled)
    (headers : ∀ ip, c.headerSet ip = true → (s.ethClient i).headerSet ip = true)
    (sound : SoundLedger s'.ledger) (live : liveIn s'.ledger = c.held cfg + s.heldBeside cfg mac) :
    Accounted cfg s' ∧ Leaves cfg mac s s' := by
  -- the record takes the place of the old one, under the same address
  have replaced := records_replaced cfg found changed.num fun j other => changed.others other
  rw [changed.at_i] at replaced
  have is_mac : (c.norm cfg).mac = mac := same.trans (index_some found).2
  refine ⟨⟨?_, sound, ?_, ?_, ?_, by rw [changed.num]; exact accounted.room⟩, ?_⟩
  · have perm : (setFirst (isMac mac) (c.norm cfg) (s.records cfg)).Perm
        (c.norm cfg :: (s.records cfg).eraseP (isMac mac)) := perm_setFirst (lookup_of_index cfg found)
    rw [live, replaced, (perm.map (EthClient.held cfg)).sum_eq, List.map_cons, List.sum_cons, held_norm settled]
    rfl
  · intro k below
    by_cases here : k = i
    · subst here
      rwa [changed.at_i]
    · rw [changed.others here]
      exact accounted.settled k (changed.num ▸ below)
  · intro k ip set
    by_cases here : k = i
    · subst here
      rw [changed.at_i] at set
      exact accounted.headers k ip (headers ip set)
    · rw [changed.others here] at set
      exact accounted.headers k ip set
  · have macs : (s'.records cfg).map EthClient.mac = (s.records cfg).map EthClient.mac := by
      rw [records_set changed.num fun j other => changed.others other, changed.at_i]
      refine map_set _ _ fun e at_i => ?_
      rw [getElem?_records, if_pos (index_some found).1, Option.some.injEq] at at_i
      rw [← at_i]
      exact same
    rw [macs]
    exact accounted.nodup
  · intro other different
    rw [IpacmLan.lookup, replaced]
    exact find?_setFirst_ne is_mac different _

/-- The record at `i` became `c`, and the driver has taken back what it no longer holds. -/
def TakesBack (cfg : Iface) (i : Nat) (c : EthClient) (s s' : IpacmLan) : Prop :=
  ∃ rs : List Resource, Changed i c (rs.map (.release ∘ Resource.handle)) s s' ∧
    (s.ethClient i).held cfg = ↑rs + c.held cfg

theorem TakesBack.refl (i : Nat) (s : IpacmLan) : TakesBack cfg i (s.ethClient i) s s :=
  ⟨[], .refl i s, by simp⟩

theorem TakesBack.trans {c c' : EthClient} (first : TakesBack cfg i c s s')
    (second : TakesBack cfg i c' s' s'') : TakesBack cfg i c' s s'' := by
  obtain ⟨rs, changed, held⟩ := first
  obtain ⟨rs', changed', held'⟩ := second
  rw [changed.at_i] at held'
  refine ⟨rs' ++ rs, ?_, ?_⟩
  · rw [List.map_append]
    exact changed.trans changed'
  · rw [held, held', ← Multiset.coe_add]
    abel

theorem TakesBack.at_i {c : EthClient} (back : TakesBack cfg i c s s') : s'.ethClient i = c := by
  obtain ⟨rs, changed, -⟩ := back
  exact changed.at_i

/-- The record changes on its own as well, but not what it holds. -/
theorem TakesBack.update {c : EthClient} (back : TakesBack cfg i c s s') (f : EthClient → EthClient)
    (held : (f c).held cfg = c.held cfg) : TakesBack cfg i (f c) s (s'.update i f) := by
  obtain ⟨rs, changed, split⟩ := back
  exact ⟨rs, changed.update f, by rw [split, held]⟩

theorem TakesBack.real {c : EthClient} (back : TakesBack cfg i c s s')
    (real : ∀ r ∈ (s.ethClient i).held cfg, r.hdl ≠ 0) : ∀ r ∈ (s'.ethClient i).held cfg, r.hdl ≠ 0 := by
  obtain ⟨rs, changed, split⟩ := back
  intro r member
  rw [changed.at_i] at member
  refine real r ?_
  rw [split]
  exact Multiset.mem_add.mpr (.inr member)

theorem Accounted.takesBack {c : EthClient} (accounted : Accounted cfg s)
    (found : s.getEthClientIndex mac = some i) (issued : Issued s.ledger)
    (back : TakesBack cfg i c s s') (same : c.mac = (s.ethClient i).mac) (settled : c.Settled)
    (headers : ∀ ip, c.headerSet ip = true → (s.ethClient i).headerSet ip = true) :
    Accounted cfg s' ∧ Leaves cfg mac s s' := by
  obtain ⟨rs, changed, held⟩ := back
  have before : liveIn s.ledger = ↑rs + (c.held cfg + s.heldBeside cfg mac) := by
    rw [accounted.beside found, held, add_assoc]
  refine accounted.changed found changed same settled headers ?_ ?_
  · rw [SoundLedger, changed.entries]
    exact sound_releases issued.fresh accounted.sound rs before
  · rw [liveIn, changed.entries]
    exact live_releases issued.fresh rs before

/-- The record holds what the driver has handed out. -/
theorem Accounted.gained {c : EthClient} {rs : List Resource} (accounted : Accounted cfg s)
    (found : s.getEthClientIndex mac = some i) (changed : Changed i c (rs.map .gain) s s')
    (held : c.held cfg = ↑rs + (s.ethClient i).held cfg)
    (same : c.mac = (s.ethClient i).mac) (settled : c.Settled)
    (headers : ∀ ip, c.headerSet ip = true → (s.ethClient i).headerSet ip = true) :
    Accounted cfg s' ∧ Leaves cfg mac s s' := by
  refine accounted.changed found changed same settled headers ?_ ?_
  · rw [SoundLedger, changed.entries]
    exact (sound_gains rs).mpr accounted.sound
  · rw [liveIn, changed.entries, live_gains, held, add_assoc, ← accounted.beside found]
    rfl

/-! ### Deletions -/

/-- A handle that a record holds is not 0. -/
theorem Accounted.held_real (accounted : Accounted cfg s) (found : s.getEthClientIndex mac = some i)
    (issued : Issued s.ledger) {r : Resource} (held : r ∈ (s.ethClient i).held cfg) : r.hdl ≠ 0 := by
  refine issued.live_real ?_
  rw [accounted.beside found]
  exact Multiset.mem_add.mpr (.inl held)

theorem held_clearRouteRules (c : EthClient) (ip : IpaIpType) :
    c.held cfg = c.heldRules cfg ip + (c.clearRouteRules ip).held cfg := by
  have entries : (c.clearRouteRules ip).entry cfg = c.entry cfg := by
    funext slot
    cases ip <;> cases slot <;> rfl
  have headers : ∀ ip', (c.clearRouteRules ip).heldHeader ip' = c.heldHeader ip' := by
    intro ip'
    cases ip <;> rfl
  rw [EthClient.held, EthClient.held, headers, headers]
  cases ip with
  | v4 =>
    have none : (c.clearRouteRules .v4).heldRules cfg .v4 = 0 := rfl
    have kept : (c.clearRouteRules .v4).heldRules cfg .v6 = c.heldRules cfg .v6 := by
      rfl
    abel
  | v6 =>
    have none : (c.clearRouteRules .v6).heldRules cfg .v6 = 0 := by
      simp [heldRules, covered, clearRouteRules, Wlan.Iface.slotsV6]
    have kept : (c.clearRouteRules .v6).heldRules cfg .v4 = c.heldRules cfg .v4 := by
      rfl
    rw [none, kept]
    abel

/-- `delete_eth_rtrules` takes back the rules of a family. -/
theorem deleteEthRtrules_changed (cfg : Iface) (succeeds : d.Succeeds) (i : Nat) (ip : IpaIpType) (s : IpacmLan)
    (real : ∀ r ∈ (s.ethClient i).held cfg, r.hdl ≠ 0) :
    ∃ s', deleteEthRtrules cfg d i ip s = (true, s') ∧
      TakesBack cfg i ((s.ethClient i).clearRouteRules ip) s s' := by
  have handles : ∀ slot ∈ (s.ethClient i).covered cfg ip, (s.ethClient i).ethRtHdl slot ≠ 0 := by
    intro slot member
    refine real ((s.ethClient i).entry cfg slot) ?_
    rw [held_clearRouteRules _ ip]
    refine Multiset.mem_add.mpr (.inl ?_)
    simpa [heldRules] using ⟨slot, member, rfl⟩
  obtain ⟨s', deleted, changed⟩ := deleteRules_changed succeeds i ip _ s handles
  refine ⟨_, by rw [deleteEthRtrules, deleted],
    (((s.ethClient i).covered cfg ip).map ((s.ethClient i).entry cfg)).reverse, ?_, ?_⟩
  · have releases : ((((s.ethClient i).covered cfg ip).map ((s.ethClient i).entry cfg)).reverse).map
        (.release ∘ Resource.handle) = (((s.ethClient i).covered cfg ip).reverse).map fun slot =>
          (.release (.rule ip ((s.ethClient i).ethRtHdl slot)) : Entry Resource Handle) := by
      rw [← List.map_reverse, List.map_map]
      refine List.map_congr_left fun slot member => ?_
      simp only [comp, entry_handle, ip_of_covered (List.mem_reverse.mp member)]
    rw [releases]
    exact changed.update (clearRouteRules ip)
  · rw [Multiset.coe_reverse]
    exact held_clearRouteRules _ ip

def EthClient.clearHeader (ip : IpaIpType) (c : EthClient) : EthClient :=
  { c with headerSet := update c.headerSet ip false }

theorem held_clearHeader (c : EthClient) (ip : IpaIpType) :
    c.held cfg = c.heldHeader ip + (c.clearHeader ip).held cfg := by
  have rules : ∀ ip', (c.clearHeader ip).heldRules cfg ip' = c.heldRules cfg ip' := by
    intro ip'
    have entries : (c.clearHeader ip).entry cfg = c.entry cfg := by
      funext slot
      cases slot <;> rfl
    cases ip' <;> rfl
  have none : (c.clearHeader ip).heldHeader ip = 0 := by
    simp [heldHeader, clearHeader]
  have kept : ∀ ip' ≠ ip, (c.clearHeader ip).heldHeader ip' = c.heldHeader ip' := by
    intro ip' other
    simp [heldHeader, clearHeader, other]
  rw [EthClient.held, EthClient.held, rules, rules]
  cases ip with
  | v4 =>
    rw [none, kept .v6 (by simp)]
    abel
  | v6 =>
    rw [none, kept .v4 (by simp)]
    abel

theorem deleteEthHeader_changed (cfg : Iface) (succeeds : d.Succeeds) (i : Nat) (ip : IpaIpType) (s : IpacmLan)
    (real : ∀ r ∈ (s.ethClient i).held cfg, r.hdl ≠ 0) :
    ∃ s', deleteEthHeader d i ip s = (true, s') ∧ TakesBack cfg i ((s.ethClient i).clearHeader ip) s s' := by
  by_cases set : (s.ethClient i).headerSet ip = true
  · have one : (s.ethClient i).heldHeader ip =
        {.header (s.ethClient i).mac ip ((s.ethClient i).hdrHdl ip)} := if_pos set
    have handle : (s.ethClient i).hdrHdl ip ≠ 0 := by
      refine real (.header (s.ethClient i).mac ip ((s.ethClient i).hdrHdl ip)) ?_
      rw [held_clearHeader _ ip, one]
      exact Multiset.mem_add.mpr (.inl (Multiset.mem_singleton_self _))
    have deleted : deleteHeaderHdl d ((s.ethClient i).hdrHdl ip) s =
        (true, s.record (.delHdr ((s.ethClient i).hdrHdl ip) true)) := by
      simp [deleteHeaderHdl, handle, succeeds.ok]
    have here : Changed i (s.ethClient i) [.release (.header ((s.ethClient i).hdrHdl ip))] s
        (s.record (.delHdr ((s.ethClient i).hdrHdl ip) true)) := changed_record rfl
    refine ⟨_, ?_, [.header (s.ethClient i).mac ip ((s.ethClient i).hdrHdl ip)],
      here.update (clearHeader ip), ?_⟩
    · simp only [deleteEthHeader, set, if_true, deleted]
      rfl
    · rw [held_clearHeader _ ip, one]
      rfl
  · have same : (s.ethClient i).clearHeader ip = s.ethClient i := by
      have off : (s.ethClient i).headerSet ip = false := by simpa using set
      rw [clearHeader, ← off, update_eq_self]
    refine ⟨s, by simp [deleteEthHeader, set], ?_⟩
    rw [same]
    exact .refl i s

end Hima.Lan
