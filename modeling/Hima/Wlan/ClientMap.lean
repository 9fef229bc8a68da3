import Hima.Wlan.Table

/-!
# One record for each client

With every call to the driver succeeding, the table has one record for each client that was added
and not removed, and an event of one client leaves the records of the others as they were, as long
as no client is added twice and the records that move up agree in `power_save_set`.
-/
namespace Hima.Wlan

open IpacmWlan IpaWlanClient
open Wan (IpaIpType)
open Runs

variable {cfg : Iface} {d : Driver}

/-- Every call to the driver succeeds, and the handle of a header is not 0. -/
structure Driver.Succeeds (d : Driver) : Prop where
  ok : ∀ n, d.outcome n = .ok
  copies : ∀ name, (d.copyHeader name).isSome
  hdrHandle : ∀ ledger, d.hdrHandle ledger ≠ 0

/-! ### Deletions succeed -/

theorem deleteRules_succeeds (memory : ∀ n, d.outcome n ≠ .noMemory) (i : Nat) (ip : IpaIpType)
    (slots : List RtSlot) : ∀ s : IpacmWlan, (deleteRules d i ip slots s).1 = true := by
  induction slots with
  | nil => exact fun s => rfl
  | cons slot slots ih =>
    intro s
    have deleted : (deleteRoutingHdl d s ((s.wlanClient i).wifiRtHdl slot) ip).1 = true := by
      rw [deleteRoutingHdl]
      split
      · rfl
      · rcases outcome : d.outcome s.attempts with _ | _ | _
        · rfl
        · rfl
        · exact absurd outcome (memory s.attempts)
    rw [deleteRules]
    rcases answer : deleteRoutingHdl d s ((s.wlanClient i).wifiRtHdl slot) ip with ⟨_ | _, s'⟩ <;>
      rw [answer] at deleted
    · simp at deleted
    · exact ih s'

theorem deleteDefaultQosRtrules_succeeds (cfg : Iface) (succeeds : d.Succeeds) (i : Nat) (ip : IpaIpType) (s : IpacmWlan) :
    ∃ s', deleteDefaultQosRtrules cfg d i ip s = (true, s') ∧ Touches i s s' := by
  have touches := touches_deleteDefaultQosRtrules (d := d) cfg i ip s
  have memory : ∀ n, d.outcome n ≠ .noMemory := fun n => by simp [succeeds.ok n]
  have rules := deleteRules_succeeds memory i ip ((s.wlanClient i).covered cfg ip) s
  rw [deleteDefaultQosRtrules] at touches ⊢
  rcases answer : deleteRules d i ip ((s.wlanClient i).covered cfg ip) s with ⟨_ | _, s'⟩ <;>
    rw [answer] at rules touches
  · simp at rules
  · exact ⟨_, rfl, touches⟩

/-- Headers that flags cover have a handle. -/
def IpaWlanClient.HeadersReal (c : IpaWlanClient) : Prop :=
  (c.ipv4HeaderSet = true → c.hdrHdlV4 ≠ 0) ∧ (c.ipv6HeaderSet = true → c.hdrHdlV6 ≠ 0)

theorem IpaWlanClient.Keeps.headersReal {c c' : IpaWlanClient} (keeps : c.Keeps c')
    (real : c.HeadersReal) : c'.HeadersReal := by
  rw [HeadersReal, keeps.hdrHdlV4, keeps.hdrHdlV6]
  exact ⟨real.1 ∘ keeps.ipv4HeaderSet, real.2 ∘ keeps.ipv6HeaderSet⟩

theorem deleteHeaderHdl_succeeds (succeeds : d.Succeeds) (s : IpacmWlan) {hdl : UInt32} (real : hdl ≠ 0) :
    ∃ s', deleteHeaderHdl d s hdl = (true, s') := by
  simp [deleteHeaderHdl, real, succeeds.ok]

theorem deleteClientHeader_succeeds (succeeds : d.Succeeds) (i : Nat) (ip : IpaIpType) (s : IpacmWlan)
    (real : (s.wlanClient i).HeadersReal) :
    ∃ s', deleteClientHeader d i ip s = (true, s') ∧ Touches i s s' := by
  have touches := touches_deleteClientHeader (d := d) i ip s
  cases ip with
  | v4 =>
    by_cases set : (s.wlanClient i).ipv4HeaderSet = true
    · obtain ⟨s', deleted⟩ := deleteHeaderHdl_succeeds succeeds s (real.1 set)
      simp only [deleteClientHeader, set, if_true, deleted] at touches ⊢
      exact ⟨_, rfl, touches⟩
    · exact ⟨s, by simp [deleteClientHeader, set], .refl i s⟩
  | v6 =>
    by_cases set : (s.wlanClient i).ipv6HeaderSet = true
    · obtain ⟨s', deleted⟩ := deleteHeaderHdl_succeeds succeeds s (real.2 set)
      simp only [deleteClientHeader, set, if_true, deleted] at touches ⊢
      exact ⟨_, rfl, touches⟩
    · exact ⟨s, by simp [deleteClientHeader, set], .refl i s⟩

/-! ### Power save while going down -/

theorem deleteRoutingHdl_clients (s : IpacmWlan) (hdl : UInt32) (ip : IpaIpType) :
    (deleteRoutingHdl d s hdl ip).2.wlanClient = s.wlanClient := by
  unfold deleteRoutingHdl
  split
  · rfl
  · split <;> rfl

theorem deleteHeaderHdl_clients (s : IpacmWlan) (hdl : UInt32) :
    (deleteHeaderHdl d s hdl).2.wlanClient = s.wlanClient := by
  unfold deleteHeaderHdl
  split
  · rfl
  · split <;> rfl

theorem update_power {i : Nat} {s s' : IpacmWlan} {f : IpaWlanClient → IpaWlanClient}
    (same : ∀ j, (s'.wlanClient j).powerSaveSet = (s.wlanClient j).powerSaveSet)
    (keeps : ∀ c, (f c).powerSaveSet = c.powerSaveSet) (j : Nat) :
    ((s'.update i f).wlanClient j).powerSaveSet = (s.wlanClient j).powerSaveSet := by
  by_cases this : j = i
  · subst this
    simp [update, same, keeps]
  · simp [update, this, same]

theorem deleteDefaultQosRtrules_power (cfg : Iface) (i : Nat) (ip : IpaIpType) (s : IpacmWlan) :
    ∀ j, ((deleteDefaultQosRtrules cfg d i ip s).2.wlanClient j).powerSaveSet = (s.wlanClient j).powerSaveSet := by
  refine deleteDefaultQosRtrules_keeps (P := fun t => ∀ j, (t.wlanClient j).powerSaveSet = _) ?_
    (fun t same => update_power same fun c => by cases ip <;> rfl) fun _ => rfl
  intro t hdl same j
  rw [deleteRoutingHdl_clients, same]

theorem deleteClientHeader_power (i : Nat) (ip : IpaIpType) (s : IpacmWlan) :
    ∀ j, ((deleteClientHeader d i ip s).2.wlanClient j).powerSaveSet = (s.wlanClient j).powerSaveSet := by
  refine deleteClientHeader_keeps (P := fun t => ∀ j, (t.wlanClient j).powerSaveSet = _) ?_
    (fun t same => update_power same fun c => by cases ip <;> rfl) fun _ => rfl
  intro t hdl same j
  rw [deleteHeaderHdl_clients, same]

/-- A client that is found goes down: its record is touched, and the ones behind it move up. -/
theorem clientDel_succeeds (cfg : Iface) (succeeds : d.Succeeds) {mac : MacAddr} {i : Nat} {s : IpacmWlan}
    (real : (s.wlanClient i).HeadersReal) (found : s.getWlanClientIndex mac = some i) :
    ∃ s', Touches i s s' ∧ (∀ j, (s'.wlanClient j).powerSaveSet = (s.wlanClient j).powerSaveSet) ∧
      handleWlanClientDownEvt cfg d mac s = { s' with
        wlanClient := moveUp cfg i s'.numWifiClient s'.wlanClient, numWifiClient := s'.numWifiClient - 1 } := by
  obtain ⟨s₁, rules₁, touches₁⟩ := deleteDefaultQosRtrules_succeeds cfg succeeds i .v4 s
  obtain ⟨s₂, rules₂, touches₂⟩ := deleteDefaultQosRtrules_succeeds cfg succeeds i .v6 s₁
  have real₂ := (touches₁.trans touches₂).keeps.headersReal real
  obtain ⟨s₃, header₁, touches₃⟩ := deleteClientHeader_succeeds succeeds i .v4 s₂ real₂
  obtain ⟨s₄, header₂, touches₄⟩ :=
    deleteClientHeader_succeeds succeeds i .v6 s₃ (touches₃.keeps.headersReal real₂)
  refine ⟨s₄.update i reset, ?_, fun j => ?_, by
    simp [handleWlanClientDownEvt, found, rules₁, rules₂, header₁, header₂]⟩
  · exact ((touches₁.trans touches₂).trans (touches₃.trans touches₄)).trans
      (touches_update ⟨rfl, rfl, rfl, by simp [reset], by simp [reset]⟩)
  · have power₁ := deleteDefaultQosRtrules_power (d := d) cfg i .v4 s j
    have power₂ := deleteDefaultQosRtrules_power (d := d) cfg i .v6 s₁ j
    have power₃ := deleteClientHeader_power (d := d) i .v4 s₂ j
    have power₄ := deleteClientHeader_power (d := d) i .v6 s₃ j
    rw [rules₁] at power₁
    rw [rules₂] at power₂
    rw [header₁] at power₃
    rw [header₂] at power₄
    rw [← power₁, ← power₂, ← power₃, ← power₄]
    by_cases this : j = i
    · subst this
      simp [update, reset]
    · simp [update, this]

/-! ### Adding succeeds -/

/-- The address that the attributes of an added client carry. -/
def macOf (attribs : List HdrAttrib) : Option MacAddr :=
  attribs.foldl (fun mac a => match a.val with | .macAddr mac => some mac | _ => mac) none

variable {attribs : List HdrAttrib}

theorem takeMac_of_macOf {mac : MacAddr} (carries : macOf attribs = some mac)
    (old : MacAddr) : attribs.foldl HdrAttrib.takeMac old = mac := by
  have both : ∀ (attribs : List HdrAttrib) (known : Option MacAddr) (old : MacAddr),
      (∀ m, known = some m → old = m) →
      ∀ m, attribs.foldl (fun mac a => match a.val with | .macAddr mac => some mac | _ => mac) known =
        some m → attribs.foldl HdrAttrib.takeMac old = m := by
    intro attribs
    induction attribs with
    | nil => exact fun known old agree m last => agree m last
    | cons a attribs ih =>
      intro known old agree
      refine ih _ _ ?_
      rcases a with ⟨offset, val⟩
      cases val with
      | macAddr mac => exact fun m this => Option.some.inj this
      | staId id => exact agree
      | other => exact agree
  exact both attribs none old (by simp) mac carries

/-- From `s` to `s'` only the record at `i` has changed, and the headers that it names are real. -/
structure Fills (i : Nat) (s s' : IpacmWlan) : Prop where
  num : s'.numWifiClient = s.numWifiClient
  others : s'.others = s.others
  same : ∀ j ≠ i, s'.wlanClient j = s.wlanClient j
  real : (s.wlanClient i).HeadersReal → (s'.wlanClient i).HeadersReal

theorem Fills.trans {i : Nat} {s s' s'' : IpacmWlan} (first : Fills i s s') (second : Fills i s' s'') :
    Fills i s s'' where
  num := second.num.trans first.num
  others := second.others.trans first.others
  same j other := (second.same j other).trans (first.same j other)
  real := second.real ∘ first.real

theorem Touches.fills {i : Nat} {s s' : IpacmWlan} (touches : Touches i s s') : Fills i s s' :=
  ⟨touches.num, touches.others, touches.same, touches.keeps.headersReal⟩

theorem addClientHeader_succeeds (cfg : Iface) (succeeds : d.Succeeds) (i : Nat) {mac : MacAddr}
    (carries : macOf attribs = some mac) (ip : IpaIpType) (s : IpacmWlan) :
    ∃ s', addClientHeader cfg d i attribs ip s = (true, s') ∧ Fills i s s' ∧
      ((∃ tx ∈ cfg.txProp, tx.ip = ip) ∨ (s.wlanClient i).mac = mac → (s'.wlanClient i).mac = mac) := by
  cases first : cfg.txProp.find? (·.ip = ip) with
  | none =>
    refine ⟨s, by simp [addClientHeader, first], (Touches.refl i s).fills, fun known => ?_⟩
    have absent : ∀ tx ∈ cfg.txProp, tx.ip ≠ ip := by simpa using first
    exact known.resolve_left fun ⟨tx, member, this⟩ => absent tx member this
  | some tx =>
    obtain ⟨hdr, copied⟩ := Option.isSome_iff_exists.mp (succeeds.copies tx.hdrName)
    simp only [addClientHeader, first, copied, addHeader, succeeds.ok, takeMac_of_macOf carries]
    refine ⟨_, rfl, ⟨rfl, rfl, fun j other => ?_, fun real => ?_⟩, fun _ => ?_⟩
    · simp [update, other]
    · cases ip with
      | v4 =>
        exact ⟨fun _ => by simpa [update, setHeader] using succeeds.hdrHandle _,
          by simpa [update, setHeader] using real.2⟩
      | v6 =>
        exact ⟨by simpa [update, setHeader] using real.1,
          fun _ => by simpa [update, setHeader] using succeeds.hdrHandle _⟩
    · cases ip <;> simp [update, setHeader]

/-- A client that is added gets the record behind the others. -/
theorem clientAdd_succeeds (succeeds : d.Succeeds) (tx : cfg.txProp ≠ [])
    {mac : MacAddr} (carries : macOf attribs = some mac) {s : IpacmWlan}
    (room : s.numWifiClient + s.others < maxNumWifiClients) :
    ∃ s', Fills s.numWifiClient s s' ∧ (s'.wlanClient s.numWifiClient).mac = mac ∧
      handleWlanClientInitEx cfg d attribs s =
        { s' with numWifiClient := s'.numWifiClient + 1, headerNameCount := s'.headerNameCount + 1 } := by
  generalize at_end : s.numWifiClient = i
  have start : Touches i s (s.update i fun c => { c with pHdrInfo := some attribs }) :=
    touches_update ⟨rfl, rfl, rfl, id, id⟩
  obtain ⟨s₁, added₁, fills₁, mac₁⟩ := addClientHeader_succeeds cfg succeeds i carries .v4
    (s.update i fun c => { c with pHdrInfo := some attribs })
  obtain ⟨s₂, added₂, fills₂, mac₂⟩ := addClientHeader_succeeds cfg succeeds i carries .v6 s₁
  have initialized : Touches i s₂ (s₂.update i initEx) :=
    touches_update ⟨rfl, rfl, rfl, id, id⟩
  refine ⟨s₂.update i initEx, (start.fills.trans fills₁).trans (fills₂.trans initialized.fills), ?_, ?_⟩
  · rw [initialized.keeps.mac]
    -- one of the two families has a property
    obtain ⟨first, rest, props⟩ := List.exists_cons_of_ne_nil tx
    cases family : first.ip with
    | v4 => exact mac₂ (.inr (mac₁ (.inl ⟨first, by simp [props], family⟩)))
    | v6 => exact mac₂ (.inl ⟨first, by simp [props], family⟩)
  · have below : ¬ (maxNumWifiClients ≤ s.numWifiClient ∨
        maxNumWifiClients ≤ s.numWifiClient + s.others) := by omega
    rw [handleWlanClientInitEx, if_neg below, if_neg tx]
    simp only [at_end, added₁, added₂]

/-! ### Events -/

/-- The client that an event is about. -/
def Event.mac : Event → Option MacAddr
  | .clientAddEx attribs => macOf attribs
  | .ipAddr mac _ => some mac
  | .routeRule mac _ => some mac
  | .powerSave mac => some mac
  | .recover mac => some mac
  | .clientDel mac => some mac
  | .otherClients _ => none

/-- The clients added and not since removed. -/
def member (present : Finset MacAddr) : Event → Finset MacAddr
  | .clientAddEx attribs =>
    match macOf attribs with
    | some mac => insert mac present
    | none => present
  | .clientDel mac => present.erase mac
  | _ => present

def members (es : List Event) : Finset MacAddr := es.foldl member ∅

/-- An added client carries its address, is new and has room; a client goes down only when the
records from its own on agree in `power_save_set`. -/
def Smooth (s : IpacmWlan) : Event → Prop
  | .clientAddEx attribs => (∃ mac ∈ macOf attribs, mac ∉ s.macs) ∧
      s.numWifiClient + s.others < maxNumWifiClients
  | .clientDel mac => ∀ i ∈ s.getWlanClientIndex mac, ∀ j < s.numWifiClient - 1, i ≤ j →
      (s.wlanClient j).powerSaveSet = (s.wlanClient (j + 1)).powerSaveSet
  | _ => True

/-- One record for each client. -/
structure OneEach (s : IpacmWlan) (present : Finset MacAddr) : Prop where
  distinct : ∀ i < s.numWifiClient, ∀ j < s.numWifiClient,
    (s.wlanClient i).mac = (s.wlanClient j).mac → i = j
  present : ∀ mac, mac ∈ s.macs ↔ mac ∈ present
  real : ∀ k, (s.wlanClient k).HeadersReal

/-- The record of every other client says the same. -/
def LeavesOthers (cfg : Iface) (mac : Option MacAddr) (s s' : IpacmWlan) : Prop :=
  ∀ other, mac ≠ some other → Option.Rel (SameRecord cfg) (s.record other) (s'.record other)

theorem leavesOthers_of_same {mac : Option MacAddr} {s s' : IpacmWlan}
    (same : ∀ other, mac ≠ some other → s'.record other = s.record other) : LeavesOthers cfg mac s s' := by
  intro other different
  rw [same other different]
  cases s.record other with
  | none => exact .none
  | some c => exact .some (.refl cfg c)

variable {present : Finset MacAddr}

/-- An event that touches the record of its own client at most keeps the map. -/
theorem TouchesMac.keeps_map {mac : MacAddr} {s s' : IpacmWlan}
    (touches : TouchesMac mac s s') (one : OneEach s present) :
    OneEach s' present ∧ LeavesOthers cfg (some mac) s s' := by
  cases found : s.getWlanClientIndex mac with
  | none =>
    rw [TouchesMac, found] at touches
    obtain rfl : s' = s := touches
    exact ⟨one, leavesOthers_of_same fun _ _ => rfl⟩
  | some i =>
    have touches := (touchesMac_of_touches found).mp touches
    refine ⟨⟨?_, ?_, fun k => ?_⟩, leavesOthers_of_same fun other different => ?_⟩
    · simpa only [touches.num, touches.macs] using one.distinct
    · intro mac
      rw [← one.present mac, mem_macs, mem_macs]
      simp only [touches.num, touches.macs]
    · by_cases this : k = i
      · subst this
        exact touches.keeps.headersReal (one.real k)
      · rw [touches.same k this]
        exact one.real k
    · rw [record, record, touches.index]
      cases at_other : s.getWlanClientIndex other with
      | none => rfl
      | some j =>
        have here := getWlanClientIndex_some found
        have there := getWlanClientIndex_some at_other
        have apart : j ≠ i := by
          rintro rfl
          exact different (by rw [← here.2.1, there.2.1])
        simp [touches.same j apart]

theorem clientAdd_keeps_map (succeeds : d.Succeeds) (tx : cfg.txProp ≠ [])
    {s : IpacmWlan} (one : OneEach s present) (smooth : Smooth s (.clientAddEx attribs)) :
    OneEach (handleWlanClientInitEx cfg d attribs s) (member present (.clientAddEx attribs)) ∧
      LeavesOthers cfg (macOf attribs) s (handleWlanClientInitEx cfg d attribs s) := by
  obtain ⟨⟨mac, carries, new⟩, room⟩ := smooth
  have carries : macOf attribs = some mac := carries
  obtain ⟨s', fills, at_end, runs⟩ := clientAdd_succeeds succeeds tx carries room
  -- the record is written behind the table, which grows over it
  have before : ∀ j < s.numWifiClient, s'.wlanClient j = s.wlanClient j := fun j below =>
    fills.same j (by omega)
  have new : ∀ j < s.numWifiClient, (s.wlanClient j).mac ≠ mac := fun j below this =>
    new (mem_macs.mpr ⟨j, below, this⟩)
  rw [runs, fills.num]
  refine ⟨⟨?_, fun m => ?_, fun k => ?_⟩, leavesOthers_of_same fun other different => ?_⟩
  · intro i below_i j below_j same
    rcases Nat.lt_succ_iff_lt_or_eq.mp below_i with old_i | rfl <;>
      rcases Nat.lt_succ_iff_lt_or_eq.mp below_j with old_j | rfl
    · simp only [before i old_i, before j old_j] at same
      exact one.distinct i old_i j old_j same
    · simp only [before i old_i, at_end] at same
      exact absurd same (new i old_i)
    · simp only [before j old_j, at_end] at same
      exact absurd same.symm (new j old_j)
    · rfl
  · simp only [member, carries, Finset.mem_insert, ← one.present, mem_macs, Nat.lt_succ_iff_lt_or_eq]
    constructor
    · rintro ⟨i, old | rfl, this⟩
      · exact .inr ⟨i, old, by rwa [before i old] at this⟩
      · exact .inl (this.symm.trans at_end)
    · rintro (rfl | ⟨i, old, this⟩)
      · exact ⟨_, .inr rfl, at_end⟩
      · exact ⟨i, .inl old, by rwa [before i old]⟩
  · by_cases this : k = s.numWifiClient
    · subst this
      exact fills.real (one.real _)
    · simp only [fills.same k this]
      exact one.real k
  · have different : mac ≠ other := fun this => different (by rw [carries, this])
    -- so the search for another client ends where it did
    have index : getWlanClientIndex { s' with
        numWifiClient := s.numWifiClient + 1, headerNameCount := s'.headerNameCount + 1 } other =
          s.getWlanClientIndex other := by
      refine Option.ext fun j => ?_
      simp only [getWlanClientIndex_eq_some, Nat.lt_succ_iff_lt_or_eq]
      constructor
      · rintro ⟨old | rfl, this, first⟩
        · exact ⟨old, by rwa [before j old] at this,
            fun k below => by rw [← before k (by omega)]; exact first k below⟩
        · exact absurd (at_end.symm.trans this) different
      · rintro ⟨old, this, first⟩
        exact ⟨.inl old, by rwa [before j old], fun k below => by rw [before k (by omega)]; exact first k below⟩
    rw [record, record, index]
    cases at_other : s.getWlanClientIndex other with
    | none => rfl
    | some j => simp [before j (getWlanClientIndex_some at_other).1]

theorem clientDel_keeps_map (succeeds : d.Succeeds) {mac : MacAddr} {s : IpacmWlan}
    (one : OneEach s present) (smooth : Smooth s (.clientDel mac)) :
    OneEach (handleWlanClientDownEvt cfg d mac s) (present.erase mac) ∧
      LeavesOthers cfg (some mac) s (handleWlanClientDownEvt cfg d mac s) := by
  cases found : s.getWlanClientIndex mac with
  | none =>
    have absent : mac ∉ present := by
      rw [← one.present, mem_macs]
      rintro ⟨i, below, this⟩
      exact getWlanClientIndex_none.mp found i below this
    rw [Finset.erase_eq_of_notMem absent]
    simp only [handleWlanClientDownEvt, found]
    exact ⟨one, leavesOthers_of_same fun _ _ => rfl⟩
  | some i =>
    obtain ⟨s', touches, power, runs⟩ := clientDel_succeeds cfg succeeds (one.real i) found
    obtain ⟨below_i, here, -⟩ := getWlanClientIndex_some found
    rw [runs, touches.num]
    -- the records behind the deleted one move up by one place
    have macs : ∀ k < s.numWifiClient - 1,
        (moveUp cfg i s.numWifiClient s'.wlanClient k).mac = (s.wlanClient (cameFrom i k)).mac := by
      intro k below
      rcases moveUp_cameFrom cfg i s'.wlanClient below with moved | moved <;>
        rw [moved] <;> exact touches.macs _
    have inside : ∀ k < s.numWifiClient - 1, cameFrom i k < s.numWifiClient ∧ cameFrom i k ≠ i :=
      fun k below => ⟨cameFrom_lt below, cameFrom_ne i k⟩
    -- and every other record has a place afterwards
    have onto : ∀ j < s.numWifiClient, j ≠ i → ∃ k < s.numWifiClient - 1, cameFrom i k = j :=
      fun j below other => cameFrom_onto below_i below other
    have distinct : ∀ k < s.numWifiClient - 1, ∀ l < s.numWifiClient - 1,
        (moveUp cfg i s.numWifiClient s'.wlanClient k).mac =
          (moveUp cfg i s.numWifiClient s'.wlanClient l).mac → k = l := by
      intro k below_k l below_l same
      rw [macs k below_k, macs l below_l] at same
      exact cameFrom_injective i (one.distinct _ (inside k below_k).1 _ (inside l below_l).1 same)
    refine ⟨⟨distinct, fun m => ?_, fun k => ?_⟩, fun other different => ?_⟩
    · rw [Finset.mem_erase, ← one.present, mem_macs, mem_macs]
      constructor
      · rintro ⟨k, below, rfl⟩
        rw [macs k below]
        refine ⟨fun this => (inside k below).2 ?_, _, (inside k below).1, rfl⟩
        exact one.distinct _ (inside k below).1 i below_i (this.trans here.symm)
      · rintro ⟨other, j, below, this⟩
        have apart : j ≠ i := by
          rintro rfl
          exact other (this.symm.trans here)
        obtain ⟨k, below_k, rfl⟩ := onto j below apart
        exact ⟨k, below_k, (macs k below_k).trans this⟩
    · -- the headers of a record are copied with their handles
      have real' : ∀ k, (s'.wlanClient k).HeadersReal := by
        intro k
        by_cases this : k = i
        · subst this
          exact touches.keeps.headersReal (one.real k)
        · rw [touches.same k this]
          exact one.real k
      simp only [moveUp_apply]
      split
      · exact real' (k + 1)
      · exact real' k
    · have different : mac ≠ other := fun this => different (by rw [this])
      rw [record, record]
      -- a record of another client is where it was, or one place in front of it
      cases at_other : s.getWlanClientIndex other with
      | none =>
        have gone : getWlanClientIndex { s' with
            wlanClient := moveUp cfg i s.numWifiClient s'.wlanClient
            numWifiClient := s.numWifiClient - 1 } other = none := by
          refine getWlanClientIndex_none.mpr fun k below => ?_
          rw [macs k below]
          exact getWlanClientIndex_none.mp at_other _ (inside k below).1
        rw [gone]
        exact .none
      | some j =>
        obtain ⟨below, this, -⟩ := getWlanClientIndex_some at_other
        have apart : j ≠ i := by
          rintro rfl
          exact different (here.symm.trans this)
        obtain ⟨k, below_k, rfl⟩ := onto j below apart
        have index : getWlanClientIndex { s' with
            wlanClient := moveUp cfg i s.numWifiClient s'.wlanClient
            numWifiClient := s.numWifiClient - 1 } other = some k := by
          refine getWlanClientIndex_eq_some.mpr ⟨below_k, (macs k below_k).trans this, fun l below_l same => ?_⟩
          have := distinct l (by omega) k below_k (same.trans ((macs k below_k).trans this).symm)
          omega
        rw [index]
        refine .some ?_
        change SameRecord cfg _ (moveUp cfg i s.numWifiClient s'.wlanClient k)
        by_cases front : k < i
        · have from_here : cameFrom i k = k := if_pos front
          rw [from_here, moveUp_apply, if_neg (by omega), touches.same k (by omega)]
          exact .refl cfg _
        · have from_next : cameFrom i k = k + 1 := if_neg front
          rw [from_next, moveUp_apply, if_pos (by omega), touches.same (k + 1) (by omega)]
          apply copyClient_same
          rw [power k]
          exact smooth i found k below_k (by omega)

theorem step_keeps_map (succeeds : d.Succeeds) (tx : cfg.txProp ≠ []) {s : IpacmWlan}
    (one : OneEach s present) (e : Event) (smooth : Smooth s e) :
    OneEach (step cfg d s e) (member present e) ∧ LeavesOthers cfg e.mac s (step cfg d s e) := by
  cases e with
  | clientAddEx attribs => exact clientAdd_keeps_map succeeds tx one smooth
  | ipAddr mac addr => exact (touches_ipaddr mac addr s).keeps_map one
  | routeRule mac ip => exact (touches_routeRule mac ip s).keeps_map one
  | powerSave mac => exact (touches_pwrsave mac s).keeps_map one
  | recover mac => exact (touches_recover mac s).keeps_map one
  | clientDel mac => exact clientDel_keeps_map succeeds one smooth
  | otherClients n => exact ⟨⟨one.distinct, one.present, one.real⟩, leavesOthers_of_same fun _ _ => rfl⟩

theorem run_keeps_map (succeeds : d.Succeeds) (tx : cfg.txProp ≠ []) {s t : IpacmWlan} {es : List Event}
    (run : Run (fun s e => some (step cfg d s e)) Smooth s es t) :
    ∀ present, OneEach s present → OneEach t (es.foldl member present) := by
  induction run with
  | nil s => exact fun present one => one
  | cons smooth stepped _ ih =>
    intro present one
    obtain rfl := Option.some.inj stepped
    exact ih _ (step_keeps_map succeeds tx one _ smooth).1

/-- A record for each client that was added and not removed, and none of them is changed by an event
of another client. -/
theorem client_table_is_map (succeeds : d.Succeeds) (tx : cfg.txProp ≠ []) {es : List Event} {s : IpacmWlan}
    (run : Run (fun s e => some (step cfg d s e)) Smooth {} es s) :
    s.macs.Nodup ∧ (∀ mac, mac ∈ s.macs ↔ mac ∈ members es) ∧
      ∀ e, Smooth s e → LeavesOthers cfg e.mac s (step cfg d s e) := by
  have one : OneEach s (members es) :=
    run_keeps_map succeeds tx run ∅ ⟨by simp, by simp [mem_macs], fun k => by simp [HeadersReal]⟩
  refine ⟨?_, one.present, fun e smooth => (step_keeps_map succeeds tx one e smooth).2⟩
  apply List.Nodup.map_on _ List.nodup_range
  intro i below_i j below_j same
  exact one.distinct i (List.mem_range.mp below_i) j (List.mem_range.mp below_j) same

/-- An interface with one property of each family. -/
def sampleIface : Iface :=
  { ipaIfNum := 0
    txProp := [{ ip := .v4, hdrName := "hdr", dstPipe := 5, attrib := {} },
      { ip := .v6, hdrName := "hdr", dstPipe := 5, attrib := {} }] }

/-- Every call succeeds, and the handles count up. -/
def willing : Driver where
  outcome _ := .ok
  hdrHandle ledger := .ofNat (ledger.length % 4294967295 + 1)
  rtHandle ledger := .ofNat (ledger.length % 4294967295 + 1)
  copyHeader _ := some (.replicate 14 0)

theorem willing_succeeds : willing.Succeeds where
  ok _ := rfl
  copies _ := rfl
  hdrHandle ledger is_zero := by
    have zero := congrArg UInt32.toNat is_zero
    simp only [willing, UInt32.toNat_ofNat', UInt32.toNat_zero] at zero
    omega

def sampleMac (n : Nat) : MacAddr := #v[2, 0, 0, 0, 0, .ofNat n]

def sampleAdd (n : Nat) : Event := .clientAddEx [{ offset := 0, val := .macAddr (sampleMac n) }]

/-- Two clients get addresses and rules, one of them sleeps and wakes up, and both leave. -/
def visit : List Event :=
  [sampleAdd 1, sampleAdd 2, .ipAddr (sampleMac 1) (.v4 9), .ipAddr (sampleMac 2) (.v4 8),
    .routeRule (sampleMac 1) .v4, .routeRule (sampleMac 2) .v4, .powerSave (sampleMac 2),
    .recover (sampleMac 2), .clientDel (sampleMac 1)]

-- the address is looked for in the event, not among all addresses
instance decidableSmooth (s : IpacmWlan) : (e : Event) → Decidable (Smooth s e)
  | .clientAddEx attribs =>
    decidable_of_iff ((macOf attribs).any (fun mac => decide (mac ∉ s.macs)) = true ∧
      s.numWifiClient + s.others < maxNumWifiClients)
      (by cases carries : macOf attribs <;> simp [Smooth, carries])
  | .clientDel mac => inferInstanceAs (Decidable (∀ i ∈ s.getWlanClientIndex mac, ∀ j < s.numWifiClient - 1,
      i ≤ j → (s.wlanClient j).powerSaveSet = (s.wlanClient (j + 1)).powerSaveSet))
  | .ipAddr _ _ => isTrue trivial
  | .routeRule _ _ => isTrue trivial
  | .powerSave _ => isTrue trivial
  | .recover _ => isTrue trivial
  | .otherClients _ => isTrue trivial

theorem client_table_is_map_sample : ∃ s : IpacmWlan, s.macs = [sampleMac 2] ∧
    s.macs.Nodup ∧ (∀ mac, mac ∈ s.macs ↔ mac ∈ members visit) ∧
      ∀ e, Smooth s e → LeavesOthers sampleIface e.mac s (step sampleIface willing s e) := by
  have run : Run (fun s e => some (step sampleIface willing s e)) Smooth {} visit
      (visit.foldl (step sampleIface willing) {}) := by
    iterate 9 refine .cons (by decide +kernel) rfl ?_
    exact .nil _
  exact ⟨_, by decide +kernel, client_table_is_map willing_succeeds (by simp [sampleIface]) run⟩

/-- The room that the handler asks for, with an address in the event. -/
def HasRoom (s : IpacmWlan) : Event → Prop
  | .clientAddEx attribs => (macOf attribs).isSome ∧ s.numWifiClient + s.others < maxNumWifiClients
  | _ => True

instance (s : IpacmWlan) (e : Event) : Decidable (HasRoom s e) := by
  cases e <;> simp only [HasRoom] <;> infer_instance

/-- The second client sleeps when the first one leaves: its record moves up without its flag. -/
theorem sleeper_moves_up_awake :
    ¬ ∀ (cfg : Iface) (d : Driver) (es : List Event) (s : IpacmWlan), d.Succeeds → cfg.txProp ≠ [] →
      Run (fun s e => some (step cfg d s e)) HasRoom {} es s →
      s.macs.Nodup ∧ (∀ mac, mac ∈ s.macs ↔ mac ∈ members es) ∧
        ∀ e, HasRoom s e → LeavesOthers cfg e.mac s (step cfg d s e) := by
  intro always
  have run : Run (fun s e => some (step sampleIface willing s e)) HasRoom {}
      [sampleAdd 1, sampleAdd 2, .powerSave (sampleMac 2)]
      ([sampleAdd 1, sampleAdd 2, .powerSave (sampleMac 2)].foldl (step sampleIface willing) {}) := by
    iterate 3 refine .cons (by decide +kernel) rfl ?_
    exact .nil _
  have leaves := (always sampleIface willing _ _ willing_succeeds (by simp [sampleIface]) run).2.2
    (.clientDel (sampleMac 1)) trivial (sampleMac 2) (by decide)
  have asleep : (record ([sampleAdd 1, sampleAdd 2, .powerSave (sampleMac 2)].foldl
      (step sampleIface willing) {}) (sampleMac 2)).map (·.powerSaveSet) = some true := by
    decide +kernel
  have awake : (record (step sampleIface willing ([sampleAdd 1, sampleAdd 2,
      .powerSave (sampleMac 2)].foldl (step sampleIface willing) {}) (.clientDel (sampleMac 1)))
      (sampleMac 2)).map (·.powerSaveSet) = some false := by
    decide +kernel
  obtain ⟨c, before, sleeps⟩ := Option.map_eq_some_iff.mp asleep
  obtain ⟨c', after, wakes⟩ := Option.map_eq_some_iff.mp awake
  rw [before, after] at leaves
  cases leaves with
  | some same =>
    have kept := same.powerSaveSet
    rw [sleeps, wakes] at kept
    contradiction

end Hima.Wlan
