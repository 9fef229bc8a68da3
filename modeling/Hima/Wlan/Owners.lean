import Hima.Wlan.ClientMap
import Hima.Wlan.HandleRun

/-!
# Every live handle has one owner

What the account of the table says of single handles: the record and the place that cover them, the
deletions, and the rules of one address.
-/
namespace Hima.Wlan

open IpaWlanClient Multiset
open Wan (IpaIpType)
open Runs Handles

variable {cfg : Iface} {d : Driver}

/-- A place in a record for a handle. -/
inductive Place where
  | header (ip : IpaIpType)
  | rule (slot : RtSlot)

/-- The set flags and counts of a record cover the place. -/
def IpaWlanClient.Covers (cfg : Iface) (c : IpaWlanClient) : Place → Prop
  | .header ip => c.headerSet ip = true
  | .rule slot => slot ∈ c.covered cfg slot.ip

def IpaWlanClient.handleAt (c : IpaWlanClient) : Place → Handle
  | .header ip => .header (c.hdrHdl ip)
  | .rule slot => .rule slot.ip (c.wifiRtHdl slot)

def RtSlot.tx : RtSlot → Nat
  | .v4 tx => tx
  | .v6 tx _ => tx
  | .v6Wan tx _ => tx

/-- The address that a rule is for. -/
def RtRule.addr (r : RtRule) : IpAddr :=
  match r.ip with
  | .v4 => .v4 r.attrib.v4.dstAddr
  | .v6 => .v6 r.attrib.v6.dstAddr

/-- A rule's client, table, property and address. -/
def Resource.target : Resource → Option (MacAddr × RtTable × Nat × IpAddr)
  | .header _ => none
  | .rule mac slot r _ => some (mac, r.table, slot.tx, r.addr)

/-- What a record holds in a place. -/
def IpaWlanClient.resourceAt (cfg : Iface) (c : IpaWlanClient) : Place → Resource
  | .header ip => .header (c.hdrHdl ip)
  | .rule slot => c.entry cfg slot

theorem handle_resourceAt (c : IpaWlanClient) (place : Place) :
    (c.resourceAt cfg place).handle = c.handleAt place := by
  cases place with
  | header ip => rfl
  | rule slot => exact entry_handle c slot

def IpaWlanClient.places (cfg : Iface) (c : IpaWlanClient) : Multiset Place :=
  ((if c.headerSet .v4 = true then {.header .v4} else 0) + (if c.headerSet .v6 = true then {.header .v6} else 0)) +
    (↑((c.covered cfg .v4).map Place.rule) + ↑((c.covered cfg .v6).map Place.rule))

theorem mem_places {c : IpaWlanClient} {place : Place} : place ∈ c.places cfg ↔ c.Covers cfg place := by
  have flag : ∀ ip, place ∈ (if c.headerSet ip = true then {Place.header ip} else 0 : Multiset Place) ↔
      c.headerSet ip = true ∧ place = .header ip := by
    intro ip
    split
    · simp_all
    · simp_all
  have rules : ∀ ip, place ∈ (↑((c.covered cfg ip).map Place.rule) : Multiset Place) ↔
      ∃ slot ∈ c.covered cfg ip, place = .rule slot := by
    intro ip
    simp [eq_comm]
  simp only [places, mem_add, flag, rules]
  cases place with
  | header ip => cases ip <;> simp [Covers]
  | rule slot =>
    simp only [Covers, Place.rule.injEq, reduceCtorEq, and_false, or_self, false_or, exists_eq_right']
    constructor
    · rintro (member | member)
      · rwa [ip_of_covered member]
      · rwa [ip_of_covered member]
    · intro member
      cases family : slot.ip with
      | v4 => exact .inl (family ▸ member)
      | v6 => exact .inr (family ▸ member)

theorem held_eq_places (c : IpaWlanClient) : c.held cfg = (c.places cfg).map (c.resourceAt cfg) := by
  have flag : ∀ ip, (if c.headerSet ip = true then {Place.header ip} else 0 : Multiset Place).map
      (c.resourceAt cfg) = c.heldHeader ip := by
    intro ip
    rw [heldHeader]
    split <;> simp [resourceAt]
  have rules : ∀ ip, (↑((c.covered cfg ip).map Place.rule) : Multiset Place).map (c.resourceAt cfg) =
      c.heldRules cfg ip := by
    intro ip
    rw [heldRules, map_coe, List.map_map]
    rfl
  simp only [places, held, map_add, flag, rules]

/-- The covered places of the table. -/
def IpacmWlan.places (cfg : Iface) (s : IpacmWlan) : Multiset (Nat × Place) :=
  ∑ i ∈ Finset.range s.numWifiClient, ((s.wlanClient i).places cfg).map (Prod.mk i)

theorem mem_table_places {s : IpacmWlan} {p : Nat × Place} :
    p ∈ s.places cfg ↔ p.1 < s.numWifiClient ∧ (s.wlanClient p.1).Covers cfg p.2 := by
  simp only [IpacmWlan.places, mem_sum, Finset.mem_range, mem_map, mem_places]
  constructor
  · rintro ⟨i, below, place, covers, rfl⟩
    exact ⟨below, covers⟩
  · rintro ⟨below, covers⟩
    exact ⟨p.1, below, p.2, covers, rfl⟩

theorem Accounted.live_places {s : IpacmWlan} (accounted : Accounted cfg s) :
    liveIn s.ledger = (s.places cfg).map fun p => (s.wlanClient p.1).resourceAt cfg p.2 := by
  rw [accounted.live, IpacmWlan.places, ← coe_mapAddMonoidHom, map_sum]
  apply Finset.sum_congr rfl
  intro i _
  rw [coe_mapAddMonoidHom, map_map, held_eq_places]
  rfl

/-- A live handle is in one covered place of one record. -/
theorem Accounted.one_owner {s : IpacmWlan} (accounted : Accounted cfg s) (issued : Issued s.ledger)
    {r : Resource} (live : r ∈ liveIn s.ledger) :
    ∃! p : Nat × Place, p.1 < s.numWifiClient ∧ (s.wlanClient p.1).Covers cfg p.2 ∧
      (s.wlanClient p.1).handleAt p.2 = r.handle := by
  have places := accounted.live_places
  rw [places] at live
  obtain ⟨p, inside, rfl⟩ := mem_map.mp live
  obtain ⟨below, covers⟩ := mem_table_places.mp inside
  refine ⟨p, ⟨below, covers, (handle_resourceAt _ _).symm⟩, ?_⟩
  rintro q ⟨below_q, covers_q, same⟩
  refine issued.fresh.unique places (mem_table_places.mpr ⟨below_q, covers_q⟩) inside ?_
  rw [handle_resourceAt]
  exact same

/-- Within a record the rules of an address differ in their table or their property. -/
theorem slot_of_target {c : IpaWlanClient} (settled : c.Settled) {slot slot' : RtSlot}
    (covers : slot ∈ c.covered cfg slot.ip) (covers' : slot' ∈ c.covered cfg slot'.ip)
    (same : (c.entry cfg slot).target = (c.entry cfg slot').target) : slot = slot' := by
  simp only [entry, Resource.target, Option.some.injEq, Prod.mk.injEq] at same
  obtain ⟨-, table, tx, addr⟩ := same
  have number : ∀ {slot : RtSlot} {tx num : Nat}, slot = .v6 tx num ∨ slot = .v6Wan tx num →
      slot ∈ c.covered cfg .v6 → num < c.ipv6Set := by
    intro slot tx num this member
    have order := settled.v6
    obtain ⟨tx', _, num', _, below, this'⟩ := mem_slotsV6.mp member
    rcases this with rfl | rfl <;>
      simp only [RtSlot.v6.injEq, RtSlot.v6Wan.injEq, reduceCtorEq, false_or, or_false] at this' <;> omega
  cases slot with
  | v4 tx =>
    cases slot' with
    | v4 tx' => exact congrArg _ tx
    | v6 tx' num' => simp [ruleOf] at table
    | v6Wan tx' num' => simp [ruleOf] at table
  | v6 tx num =>
    cases slot' with
    | v4 tx' => simp [ruleOf] at table
    | v6 tx' num' =>
      obtain rfl : num = num' := settled.distinct num (number (.inl rfl) covers) num' (number (.inl rfl) covers')
        (by simpa [RtRule.addr, ruleOf, withDstV6] using addr)
      exact congrArg (RtSlot.v6 · num) tx
    | v6Wan tx' num' => simp [ruleOf] at table
  | v6Wan tx num =>
    cases slot' with
    | v4 tx' => simp [ruleOf] at table
    | v6 tx' num' => simp [ruleOf] at table
    | v6Wan tx' num' =>
      obtain rfl : num = num' := settled.distinct num (number (.inr rfl) covers) num' (number (.inr rfl) covers')
        (by simpa [RtRule.addr, ruleOf, withDstV6] using addr)
      exact congrArg (RtSlot.v6Wan · num) tx

/-- A record behind another one of its address covers no rules. -/
theorem Accounted.owner_first {s : IpacmWlan} (accounted : Accounted cfg s) {i j : Nat}
    (below_i : i < s.numWifiClient) (below_j : j < s.numWifiClient)
    (same : (s.wlanClient i).mac = (s.wlanClient j).mac) {slot slot' : RtSlot}
    (covers : slot ∈ (s.wlanClient i).covered cfg slot.ip)
    (covers' : slot' ∈ (s.wlanClient j).covered cfg slot'.ip) : i = j := by
  have empty : ∀ {i j : Nat} {slot : RtSlot}, i < j → j < s.numWifiClient →
      (s.wlanClient i).mac = (s.wlanClient j).mac → slot ∉ (s.wlanClient j).covered cfg slot.ip := by
    intro i j slot order below same
    obtain ⟨no_v4, no_v6⟩ := accounted.first i j order below same
    cases slot.ip <;> simp [covered, no_v4, no_v6, Iface.slotsV6]
  rcases Nat.lt_trichotomy i j with order | rfl | order
  · exact absurd covers' (empty order below_j same)
  · rfl
  · exact absurd covers (empty order below_i same.symm)

/-- No client has two rules for one address in a table. -/
theorem Accounted.one_rule {s : IpacmWlan} (accounted : Accounted cfg s) {r r' : Resource}
    (live : r ∈ liveIn s.ledger) (live' : r' ∈ liveIn s.ledger) (rule : r.target.isSome)
    (same : r.target = r'.target) : r = r' := by
  rw [accounted.live_places] at live live'
  obtain ⟨⟨i, place⟩, inside, rfl⟩ := mem_map.mp live
  obtain ⟨⟨j, place'⟩, inside', rfl⟩ := mem_map.mp live'
  obtain ⟨below, covers⟩ := mem_table_places.mp inside
  obtain ⟨below', covers'⟩ := mem_table_places.mp inside'
  cases place with
  | header ip => simp [resourceAt, Resource.target] at rule
  | rule slot =>
    cases place' with
    | header ip => simp [resourceAt, entry, Resource.target] at same
    | rule slot' =>
      have macs : (s.wlanClient i).mac = (s.wlanClient j).mac := by
        simp only [resourceAt, entry, Resource.target, Option.some.injEq, Prod.mk.injEq] at same
        exact same.1
      obtain rfl : i = j := accounted.owner_first below below' macs covers covers'
      obtain rfl : slot = slot' := slot_of_target (accounted.settled i below) covers covers' same
      rfl

/-- Every live handle is in one place, no handle is deleted twice, and no client has two rules for
one address. -/
theorem handles_have_owners {es : List Event} {s : IpacmWlan} (run : Run (fun s e => some (step cfg d s e))
      (fun s e => Harmless cfg d s e ∧ Issued (step cfg d s e).ledger) {} es s) :
    (∀ r ∈ liveIn s.ledger, ∃! p : Nat × Place, p.1 < s.numWifiClient ∧
      (s.wlanClient p.1).Covers cfg p.2 ∧ (s.wlanClient p.1).handleAt p.2 = r.handle) ∧ SoundLedger s.ledger ∧
    ∀ r ∈ liveIn s.ledger, ∀ r' ∈ liveIn s.ledger, r.target.isSome → r.target = r'.target → r = r' := by
  obtain ⟨accounted, issued⟩ := run_accounted run
  exact ⟨fun r live => accounted.one_owner issued live, accounted.sound,
    fun r live r' live' rule same => accounted.one_rule live live' rule same⟩

/-- The answers of a list, and success after them. -/
def answering (answers : List Outcome) : Driver :=
  { willing with outcome := fun n => answers[n]?.getD .ok }

/-- A failed add, a failed route, a deletion that finds no memory and a header that stays. -/
def retries : List Event :=
  [sampleAdd 1, sampleAdd 1, .ipAddr (sampleMac 1) (.v4 9), .routeRule (sampleMac 1) .v4,
    .routeRule (sampleMac 1) .v4, .powerSave (sampleMac 1), .clientDel (sampleMac 1)]

def retryAnswers : List Outcome := [.refused, .ok, .ok, .refused, .ok, .noMemory, .ok, .refused]

theorem handles_have_owners_sample : ∃ s : IpacmWlan, (liveIn s.ledger).card = 2 ∧
    (∀ r ∈ liveIn s.ledger, ∃! p : Nat × Place, p.1 < s.numWifiClient ∧
      (s.wlanClient p.1).Covers sampleIface p.2 ∧ (s.wlanClient p.1).handleAt p.2 = r.handle) ∧
    SoundLedger s.ledger ∧
    ∀ r ∈ liveIn s.ledger, ∀ r' ∈ liveIn s.ledger, r.target.isSome → r.target = r'.target → r = r' := by
  have run : Run (fun s e => some (step sampleIface (answering retryAnswers) s e))
      (fun s e => Harmless sampleIface (answering retryAnswers) s e ∧
        Issued (step sampleIface (answering retryAnswers) s e).ledger) {} retries
      (retries.foldl (step sampleIface (answering retryAnswers)) {}) := by
    refine .cons ⟨.inr (by decide +kernel), by decide +kernel⟩ rfl ?_
    refine .cons ⟨.inr (by decide +kernel), by decide +kernel⟩ rfl ?_
    refine .cons ⟨fun i found => ?address, by decide +kernel⟩ rfl ?_
    case address =>
      obtain rfl : i = 0 := Option.some.inj (found.symm.trans (by decide +kernel))
      exact fun _ set => absurd set (by decide +kernel)
    refine .cons ⟨fun i found awake => ⟨_, _, .none ?some ?fails⟩, by decide +kernel⟩ rfl ?_
    case some =>
      obtain rfl : i = 0 := Option.some.inj (found.symm.trans (by decide +kernel))
      decide +kernel
    case fails => decide +kernel
    refine .cons ⟨fun i found awake => ⟨_, _, .all ?retry⟩, by decide +kernel⟩ rfl ?_
    case retry =>
      obtain rfl : i = 0 := Option.some.inj (found.symm.trans (by decide +kernel))
      decide +kernel
    refine .cons ⟨fun i found awake => ?sleep, by decide +kernel⟩ rfl ?_
    case sleep =>
      obtain rfl : i = 0 := Option.some.inj (found.symm.trans (by decide +kernel))
      exact ⟨_, _, .none (k := 0) (by decide +kernel) (by simp) (by decide +kernel),
        _, _, .all (by decide +kernel)⟩
    refine .cons ⟨fun i found => ?down, by decide +kernel⟩ rfl ?_
    case down =>
      obtain rfl : i = 0 := Option.some.inj (found.symm.trans (by decide +kernel))
      exact ⟨_, _, .all (by decide +kernel), fun _ => ⟨_, _, .all (by decide +kernel)⟩⟩
    exact .nil _
  exact ⟨_, by decide +kernel, handles_have_owners run⟩

/-- The IPv4 header of a client that was added, and the IPv6 header was not: no record owns it. -/
theorem header_without_owner :
    ¬ ∀ (cfg : Iface) (d : Driver) (es : List Event) (s : IpacmWlan),
      Run (fun s e => some (step cfg d s e)) (fun s e => Issued (step cfg d s e).ledger) {} es s →
      (∀ r ∈ liveIn s.ledger, ∃! p : Nat × Place, p.1 < s.numWifiClient ∧
        (s.wlanClient p.1).Covers cfg p.2 ∧ (s.wlanClient p.1).handleAt p.2 = r.handle) ∧ SoundLedger s.ledger ∧
      ∀ r ∈ liveIn s.ledger, ∀ r' ∈ liveIn s.ledger, r.target.isSome → r.target = r'.target → r = r' := by
  intro always
  have run : Run (fun s e => some (step sampleIface (answering [.ok, .refused]) s e))
      (fun s e => Issued (step sampleIface (answering [.ok, .refused]) s e).ledger) {} [sampleAdd 1]
      (step sampleIface (answering [.ok, .refused]) {} (sampleAdd 1)) :=
    .cons (by decide +kernel) rfl (.nil _)
  have live : (liveIn (step sampleIface (answering [.ok, .refused]) {} (sampleAdd 1)).ledger).card = 1 := by
    decide +kernel
  have empty : (step sampleIface (answering [.ok, .refused]) {} (sampleAdd 1)).numWifiClient = 0 := by
    decide +kernel
  obtain ⟨r, only⟩ := card_eq_one.mp live
  obtain ⟨p, ⟨below, -⟩, -⟩ := (always _ _ _ _ run).1 r (by rw [only]; exact mem_singleton_self r)
  omega

end Hima.Wlan
