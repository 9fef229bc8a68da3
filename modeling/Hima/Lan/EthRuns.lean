import Hima.Lan.EthMap

/-!
# Runs of client events

What the account of the table says of single clients after any sequence of events.
-/
namespace Hima.Lan

open EthClient Multiset
open Wan (IpaIpType)
open Wlan (MacAddr RtSlot RtRule IpAddr mem_slotsV6)
open Handles Runs

variable {cfg : Iface} {d : Driver} {s : IpacmLan}

/-! ### One handle for each target -/

def Target.mac : Target → MacAddr
  | .header mac _ => mac
  | .rule mac _ _ _ => mac

theorem target_mac (r : Resource) : r.target.mac = r.mac := by
  cases r <;> rfl

/-- Within a record the rules of an address differ in their table or their endpoint. -/
theorem slot_of_target {c : EthClient} (settled : c.Settled) {ip ip' : IpaIpType}
    {slot slot' : RtSlot} (covers : slot ∈ c.covered cfg ip) (covers' : slot' ∈ c.covered cfg ip')
    (same : (c.entry cfg slot).target = (c.entry cfg slot').target) : slot = slot' := by
  simp only [entry, Resource.target, Target.rule.injEq, true_and] at same
  obtain ⟨table, tx, addr⟩ := same
  have used := inUse_of_covered covers
  have used' := inUse_of_covered covers'
  have order := settled.v6
  cases slot with
  | v4 n =>
    cases slot' with
    | v4 n' => exact congrArg _ tx
    | v6 n' num' => simp [ruleOf] at table
    | v6Wan n' num' => simp [ruleOf] at table
  | v6 n num =>
    cases slot' with
    | v4 n' => simp [ruleOf] at table
    | v6 n' num' =>
      obtain rfl : num = num' := settled.distinct num (Nat.lt_of_lt_of_le used.2 order) num'
        (Nat.lt_of_lt_of_le used'.2 order)
        (by simpa [RtRule.addr, ruleOf, Wlan.withDstV6] using addr)
      exact congrArg (RtSlot.v6 · num) tx
    | v6Wan n' num' => simp [ruleOf] at table
  | v6Wan n num =>
    cases slot' with
    | v4 n' => simp [ruleOf] at table
    | v6 n' num' => simp [ruleOf] at table
    | v6Wan n' num' =>
      obtain rfl : num = num' := settled.distinct num (Nat.lt_of_lt_of_le used.2 order) num'
        (Nat.lt_of_lt_of_le used'.2 order)
        (by simpa [RtRule.addr, ruleOf, Wlan.withDstV6] using addr)
      exact congrArg (RtSlot.v6Wan · num) tx

/-- A record holds one handle for each target. -/
theorem nodup_targets {c : EthClient} (settled : c.Settled) :
    ((c.held cfg).map Resource.target).Nodup := by
  have apart : ∀ slot ∈ c.covered cfg .v4, ∀ slot' ∈ c.covered cfg .v6, slot ≠ slot' := by
    rintro slot covers _ covers' rfl
    have v4 := ip_of_covered covers
    rw [ip_of_covered covers'] at v4
    contradiction
  have slots : (c.covered cfg .v4 ++ c.covered cfg .v6).Nodup :=
    List.nodup_append.mpr ⟨nodup_covered c .v4, nodup_covered c .v6, apart⟩
  have rules : ((c.covered cfg .v4 ++ c.covered cfg .v6).map fun slot =>
      (c.entry cfg slot).target).Nodup := by
    refine slots.map_on fun slot member slot' member' same => ?_
    rcases List.mem_append.mp member with covers | covers <;>
      rcases List.mem_append.mp member' with covers' | covers' <;>
      exact slot_of_target settled covers covers' same
  have split : (c.held cfg).map Resource.target =
      ((c.heldHeader .v4).map Resource.target + (c.heldHeader .v6).map Resource.target) +
        ↑((c.covered cfg .v4 ++ c.covered cfg .v6).map fun slot => (c.entry cfg slot).target) := by
    simp only [EthClient.held, EthClient.heldRules, map_add, map_coe, List.map_map, List.map_append, ← coe_add]
    rfl
  rw [split, nodup_add]
  refine ⟨?_, rules, ?_⟩
  · rw [EthClient.heldHeader, EthClient.heldHeader]
    split_ifs <;> simp [Resource.target]
  · rw [disjoint_left]
    intro t header rule
    obtain ⟨slot, -, rfl⟩ := List.mem_map.mp rule
    rw [EthClient.heldHeader, EthClient.heldHeader] at header
    split_ifs at header <;> simp [entry, Resource.target] at header

/-- What a record holds is for its client. -/
theorem mac_of_held {c : EthClient} {r : Resource} (held : r ∈ c.held cfg) : r.mac = c.mac := by
  simp only [EthClient.held, EthClient.heldHeader, EthClient.heldRules, mem_add] at held
  rcases held with (header | header) | (rule | rule)
  · split at header <;> simp_all [Resource.mac]
  · split at header <;> simp_all [Resource.mac]
  · obtain ⟨slot, -, rfl⟩ := List.mem_map.mp (mem_coe.mp rule)
    rfl
  · obtain ⟨slot, -, rfl⟩ := List.mem_map.mp (mem_coe.mp rule)
    rfl

/-- The handles that the records cover. -/
def IpacmLan.recorded (cfg : Iface) (s : IpacmLan) : Multiset Resource :=
  ((s.records cfg).map (EthClient.held cfg)).sum

theorem mem_sum_held {l : List EthClient} {r : Resource} :
    r ∈ (l.map (EthClient.held cfg)).sum ↔ ∃ c ∈ l, r ∈ c.held cfg := by
  induction l with
  | nil => simp
  | cons c l ih => simp [ih]

theorem nodup_recorded (accounted : Accounted cfg s) :
    ((s.recorded cfg).map Resource.target).Nodup := by
  have each : ∀ l : List EthClient, (l.map EthClient.mac).Nodup → (∀ c ∈ l, c.Settled) →
      ((l.map (EthClient.held cfg)).sum.map Resource.target).Nodup := by
    intro l
    induction l with
    | nil => simp
    | cons c l ih =>
      intro macs settled
      rw [List.map_cons, List.nodup_cons] at macs
      rw [List.map_cons, List.sum_cons, map_add, nodup_add]
      refine ⟨nodup_targets (settled c (by simp)), ih macs.2 fun c' member => settled c' (by simp [member]), ?_⟩
      rw [disjoint_left]
      intro t here there
      obtain ⟨r, held, rfl⟩ := mem_map.mp here
      obtain ⟨r', held', same⟩ := mem_map.mp there
      obtain ⟨c', member, held'⟩ := mem_sum_held.mp held'
      -- targets of two clients differ in the client
      refine macs.1 (List.mem_map.mpr ⟨c', member, ?_⟩)
      rw [← mac_of_held held', ← mac_of_held held, ← target_mac, ← target_mac, same]
  refine each _ accounted.nodup fun c member => ?_
  obtain ⟨k, below, rfl⟩ := mem_records.mp member
  exact settled_norm (accounted.settled k below)

/-! ### Runs -/

/-- The client that an event is about. -/
def Event.mac : Event → MacAddr
  | .newNeighbour mac => mac
  | .ipAddr mac _ => mac
  | .routeRule mac _ => mac
  | .clientDel mac => mac

theorem step_accounted (succeeds : d.Succeeds) (accounted : Accounted cfg s) (issued : Issued s.ledger)
    (e : Event) : Accounted cfg (step cfg d s e) ∧ Leaves cfg e.mac s (step cfg d s e) := by
  cases e with
  | newNeighbour mac => exact newNeighbour_accounted succeeds accounted
  | ipAddr mac addr => exact ipaddr_accounted succeeds accounted issued addr
  | routeRule mac ip => exact routeRule_accounted succeeds accounted ip
  | clientDel mac =>
    have gone := clientDel_accounted mac succeeds accounted issued
    exact ⟨gone.1, gone.2.1⟩

theorem accounted_start (cfg : Iface) : Accounted cfg {} where
  live := rfl
  sound := trivial
  settled k below := absurd below (Nat.not_lt_zero k)
  headers k ip set := by simp at set
  nodup := List.nodup_nil
  room := Nat.zero_le _

theorem run_accounted (succeeds : d.Succeeds) {es : List Event}
    (run : Run (fun s e => some (step cfg d s e)) (fun s e => Issued (step cfg d s e).ledger) {} es s) :
    Accounted cfg s ∧ Issued s.ledger := by
  refine run.invariant (fun s => Accounted cfg s ∧ Issued s.ledger) ?_ ⟨accounted_start cfg, trivial, by simp⟩
  rintro s e s' ⟨accounted, issued⟩ next rfl_step
  obtain rfl := Option.some.inj rfl_step
  exact ⟨(step_accounted succeeds accounted issued e).1, next⟩

/-- After any events the clients in the table differ, and an event of one client leaves the records
of the others as they are. What is installed and not deleted is what the records cover, once for
each target; every handle was deleted as often as it was installed, but once less while it is
covered; and nothing is left of a client that was removed. -/
theorem eth_table_is_map (succeeds : d.Succeeds) {es : List Event}
    (run : Run (fun s e => some (step cfg d s e)) (fun s e => Issued (step cfg d s e).ledger) {} es s) :
    ((s.records cfg).map EthClient.mac).Nodup ∧
    (∀ e other, e.mac ≠ other → (step cfg d s e).lookup cfg other = s.lookup cfg other) ∧
    liveIn s.ledger = s.recorded cfg ∧ ((s.recorded cfg).map Resource.target).Nodup ∧ SoundLedger s.ledger ∧
    (∀ h, givenOut Resource.handle h (entriesOf s.ledger) =
      takenBack h (entriesOf s.ledger) + ((s.recorded cfg).map Resource.handle).count h) ∧
    ∀ mac, mac ∉ ((step cfg d s (.clientDel mac)).records cfg).map EthClient.mac ∧
      ∀ r ∈ liveIn (step cfg d s (.clientDel mac)).ledger, r.mac ≠ mac := by
  obtain ⟨accounted, issued⟩ := run_accounted succeeds run
  refine ⟨accounted.nodup, fun e other different => ?_, accounted.live, nodup_recorded accounted,
    accounted.sound, fun h => ?_, fun mac => ?_⟩
  · exact (step_accounted succeeds accounted issued e).2 other different
  · have counted := givenOut_eq issued.fresh accounted.sound h
    rw [counted, ← show liveIn s.ledger = s.recorded cfg from accounted.live]
    rfl
  · obtain ⟨after, -, gone⟩ := clientDel_accounted mac succeeds accounted issued
    refine ⟨gone, fun r live this => gone ?_⟩
    have recorded : liveIn (step cfg d s (.clientDel mac)).ledger =
        (((step cfg d s (.clientDel mac)).records cfg).map (EthClient.held cfg)).sum := after.live
    rw [recorded] at live
    obtain ⟨c, member, held⟩ := mem_sum_held.mp live
    exact List.mem_map.mpr ⟨c, member, (mac_of_held held).symm.trans this⟩

/-! ### A run -/

/-- An interface with one property of each family. -/
def sampleIface : Iface :=
  { ipaIfNum := 3
    txProp := [{ ip := .v4, hdrName := "hdr", dstPipe := 5, attrib := {} },
      { ip := .v6, hdrName := "hdr", dstPipe := 5, attrib := {} }] }

/-- Every call succeeds, and the handles count up. -/
def willing : Driver where
  outcome _ := .ok
  hdrHandle ledger := .ofNat (ledger.length % 4294967295 + 1)
  rtHandle ledger := .ofNat (ledger.length % 4294967295 + 1)
  copyHeader _ := some ⟨.replicate 14 0, some 0⟩

theorem willing_succeeds : willing.Succeeds where
  ok _ := rfl
  copies _ := rfl

def sampleMac (n : Nat) : MacAddr := .replicate 6 (.ofNat n)

/-- Two clients come with an address each, one changes its own, and the first one leaves. -/
def visit : List Event :=
  [.newNeighbour (sampleMac 1), .ipAddr (sampleMac 1) (.v4 9), .routeRule (sampleMac 1) .v4,
    .newNeighbour (sampleMac 2), .ipAddr (sampleMac 2) (.v6 (.replicate 4 7)),
    .routeRule (sampleMac 2) .v6, .ipAddr (sampleMac 1) (.v4 8), .routeRule (sampleMac 1) .v4,
    .clientDel (sampleMac 1)]

theorem eth_table_is_map_sample : ∃ s : IpacmLan, (s.recorded sampleIface).card = 4 ∧
    ((s.records sampleIface).map EthClient.mac).Nodup ∧ (∀ e other, e.mac ≠ other →
      (step sampleIface willing s e).lookup sampleIface other = s.lookup sampleIface other) ∧
    liveIn s.ledger = s.recorded sampleIface ∧ ((s.recorded sampleIface).map Resource.target).Nodup ∧
    SoundLedger s.ledger ∧ (∀ h, givenOut Resource.handle h (entriesOf s.ledger) =
      takenBack h (entriesOf s.ledger) + ((s.recorded sampleIface).map Resource.handle).count h) ∧
    ∀ mac, mac ∉ ((step sampleIface willing s (.clientDel mac)).records sampleIface).map EthClient.mac ∧
      ∀ r ∈ liveIn (step sampleIface willing s (.clientDel mac)).ledger, r.mac ≠ mac := by
  have run : Run (fun s e => some (step sampleIface willing s e))
      (fun s e => Issued (step sampleIface willing s e).ledger) {} visit
      (visit.foldl (step sampleIface willing) {}) := by
    iterate 9 refine .cons (by decide +kernel) rfl ?_
    exact .nil _
  exact ⟨_, by decide +kernel, eth_table_is_map willing_succeeds run⟩

end Hima.Lan
