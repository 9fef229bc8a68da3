import Hima.Lib.Compaction
import Hima.Lib.Runs
import Hima.Wlan.Handlers

/-!
# The client table as a map

Which records an event touches, and what the table says of each address over a run.
-/
namespace Hima.Wlan

open Wan (IpaIpType)
open Runs

variable {cfg : Iface} {d : Driver}

/-! ### Touching one record -/

/-- The address and the header handles are kept; a header flag may be cleared. -/
structure IpaWlanClient.Keeps (c c' : IpaWlanClient) : Prop where
  mac : c'.mac = c.mac
  hdrHdlV4 : c'.hdrHdlV4 = c.hdrHdlV4
  hdrHdlV6 : c'.hdrHdlV6 = c.hdrHdlV6
  ipv4HeaderSet : c'.ipv4HeaderSet = true → c.ipv4HeaderSet = true
  ipv6HeaderSet : c'.ipv6HeaderSet = true → c.ipv6HeaderSet = true

theorem IpaWlanClient.Keeps.refl (c : IpaWlanClient) : c.Keeps c := ⟨rfl, rfl, rfl, id, id⟩

theorem IpaWlanClient.Keeps.trans {c c' c'' : IpaWlanClient} (first : c.Keeps c') (second : c'.Keeps c'') :
    c.Keeps c'' where
  mac := second.mac.trans first.mac
  hdrHdlV4 := second.hdrHdlV4.trans first.hdrHdlV4
  hdrHdlV6 := second.hdrHdlV6.trans first.hdrHdlV6
  ipv4HeaderSet := first.ipv4HeaderSet ∘ second.ipv4HeaderSet
  ipv6HeaderSet := first.ipv6HeaderSet ∘ second.ipv6HeaderSet

/-- From `s` to `s'` only the record at `i` has changed. -/
structure Touches (i : Nat) (s s' : IpacmWlan) : Prop where
  num : s'.numWifiClient = s.numWifiClient
  others : s'.others = s.others
  same : ∀ j ≠ i, s'.wlanClient j = s.wlanClient j
  keeps : (s.wlanClient i).Keeps (s'.wlanClient i)

theorem Touches.refl (i : Nat) (s : IpacmWlan) : Touches i s s :=
  ⟨rfl, rfl, fun _ _ => rfl, .refl _⟩

theorem Touches.trans {i : Nat} {s s' s'' : IpacmWlan} (first : Touches i s s') (second : Touches i s' s'') :
    Touches i s s'' where
  num := second.num.trans first.num
  others := second.others.trans first.others
  same j other := (second.same j other).trans (first.same j other)
  keeps := first.keeps.trans second.keeps

theorem touches_update {i : Nat} {s : IpacmWlan} {f : IpaWlanClient → IpaWlanClient}
    (keeps : (s.wlanClient i).Keeps (f (s.wlanClient i))) : Touches i s (s.update i f) where
  num := rfl
  others := rfl
  same j other := by simp [IpacmWlan.update, other]
  keeps := by simpa [IpacmWlan.update] using keeps

theorem touches_addRoutingRule (i : Nat) (s : IpacmWlan) (mac : MacAddr) (slot : RtSlot) (rule : RtRule) :
    Touches i s (addRoutingRule d s mac slot rule).2 := by
  unfold addRoutingRule
  split <;> exact ⟨rfl, rfl, fun _ _ => rfl, .refl _⟩

theorem touches_deleteRoutingHdl (i : Nat) (s : IpacmWlan) (hdl : UInt32) (ip : IpaIpType) :
    Touches i s (deleteRoutingHdl d s hdl ip).2 := by
  unfold deleteRoutingHdl
  split
  · exact .refl i s
  · split <;> exact ⟨rfl, rfl, fun _ _ => rfl, .refl _⟩

theorem touches_deleteHeaderHdl (i : Nat) (s : IpacmWlan) (hdl : UInt32) :
    Touches i s (deleteHeaderHdl d s hdl).2 := by
  unfold deleteHeaderHdl
  split
  · exact .refl i s
  · split <;> exact ⟨rfl, rfl, fun _ _ => rfl, .refl _⟩

theorem touches_addRules (cfg : Iface) (i : Nat) (slots : List RtSlot) : ∀ s : IpacmWlan,
    Touches i s (addRules cfg d i slots s).2 := by
  induction slots with
  | nil => exact fun s => .refl i s
  | cons slot slots ih =>
    intro s
    have first := touches_addRoutingRule (d := d) i s (s.wlanClient i).mac slot
      ((s.wlanClient i).ruleOf cfg slot)
    rw [addRules]
    rcases answer : addRoutingRule d s (s.wlanClient i).mac slot ((s.wlanClient i).ruleOf cfg slot) with
      ⟨_ | hdl, s'⟩ <;> rw [answer] at first
    · exact first
    · exact (first.trans (touches_update ⟨rfl, rfl, rfl, id, id⟩)).trans (ih _)

def IpaWlanClient.headerSet (c : IpaWlanClient) : IpaIpType → Bool
  | .v4 => c.ipv4HeaderSet
  | .v6 => c.ipv6HeaderSet

def IpaWlanClient.hdrHdl (c : IpaWlanClient) : IpaIpType → UInt32
  | .v4 => c.hdrHdlV4
  | .v6 => c.hdrHdlV6

def IpaWlanClient.clearHeader (ip : IpaIpType) (c : IpaWlanClient) : IpaWlanClient :=
  match ip with
  | .v4 => { c with ipv4HeaderSet := false }
  | .v6 => { c with ipv6HeaderSet := false }

theorem deleteClientHeader_eq (i : Nat) (ip : IpaIpType) (s : IpacmWlan) :
    deleteClientHeader d i ip s = if (s.wlanClient i).headerSet ip = true then
        match deleteHeaderHdl d s ((s.wlanClient i).hdrHdl ip) with
        | (false, s) => (false, s)
        | (true, s) => (true, s.update i (IpaWlanClient.clearHeader ip))
      else (true, s) := by
  cases ip <;> rfl

/-! ### What deletions keep -/

section Keeps

variable {P : IpacmWlan → Prop} {i : Nat} {ip : IpaIpType} {s : IpacmWlan}

theorem deleteRules_keeps (step : ∀ s hdl, P s → P (deleteRoutingHdl d s hdl ip).2) (slots : List RtSlot) (h : P s) :
    P (deleteRules d i ip slots s).2 := by
  induction slots generalizing s with
  | nil => exact h
  | cons slot slots ih =>
    have first := step s ((s.wlanClient i).wifiRtHdl slot) h
    rw [deleteRules]
    rcases answer : deleteRoutingHdl d s ((s.wlanClient i).wifiRtHdl slot) ip with ⟨_ | _, s'⟩ <;>
      rw [answer] at first
    · exact first
    · exact ih first

theorem deleteDefaultQosRtrules_keeps (step : ∀ s hdl, P s → P (deleteRoutingHdl d s hdl ip).2)
    (clear : ∀ s, P s → P (s.update i (IpaWlanClient.clearRouteRules ip))) (h : P s) :
    P (deleteDefaultQosRtrules cfg d i ip s).2 := by
  have rules := deleteRules_keeps step (i := i) ((s.wlanClient i).covered cfg ip) h
  rw [deleteDefaultQosRtrules]
  rcases answer : deleteRules d i ip ((s.wlanClient i).covered cfg ip) s with ⟨_ | _, s'⟩ <;>
    rw [answer] at rules
  · exact rules
  · exact clear s' rules

theorem deleteClientHeader_keeps (step : ∀ s hdl, P s → P (deleteHeaderHdl d s hdl).2)
    (clear : ∀ s, P s → P (s.update i (IpaWlanClient.clearHeader ip))) (h : P s) :
    P (deleteClientHeader d i ip s).2 := by
  have deleted := step s ((s.wlanClient i).hdrHdl ip) h
  rw [deleteClientHeader_eq]
  split
  · rcases answer : deleteHeaderHdl d s ((s.wlanClient i).hdrHdl ip) with ⟨_ | _, s'⟩ <;> rw [answer] at deleted
    · exact deleted
    · exact clear s' deleted
  · exact h

end Keeps

theorem touches_deleteDefaultQosRtrules (cfg : Iface) (i : Nat) (ip : IpaIpType) (s : IpacmWlan) :
    Touches i s (deleteDefaultQosRtrules cfg d i ip s).2 := by
  refine deleteDefaultQosRtrules_keeps (fun t hdl touches => touches.trans (touches_deleteRoutingHdl i t hdl ip))
    (fun t touches => touches.trans (touches_update ?_)) (.refl i s)
  cases ip <;> exact ⟨rfl, rfl, rfl, id, id⟩

theorem touches_deleteClientHeader (i : Nat) (ip : IpaIpType) (s : IpacmWlan) :
    Touches i s (deleteClientHeader d i ip s).2 := by
  refine deleteClientHeader_keeps (fun t hdl touches => touches.trans (touches_deleteHeaderHdl i t hdl))
    (fun t touches => touches.trans (touches_update ?_)) (.refl i s)
  cases ip <;> exact ⟨rfl, rfl, rfl, by simp [IpaWlanClient.clearHeader], by simp [IpaWlanClient.clearHeader]⟩

/-- The events that change one record in place leave every other one alone. -/
def TouchesMac (mac : MacAddr) (s s' : IpacmWlan) : Prop :=
  match s.getWlanClientIndex mac with
  | none => s' = s
  | some i => Touches i s s'

theorem touches_ipaddr (mac : MacAddr) (addr : IpAddr) (s : IpacmWlan) :
    TouchesMac mac s (handleWlanClientIpaddr cfg d mac addr s).2 := by
  rw [TouchesMac, handleWlanClientIpaddr]
  cases s.getWlanClientIndex mac with
  | none => rfl
  | some i =>
    cases addr with
    | v4 a =>
      simp only
      split_ifs <;> dsimp only
      · exact touches_update ⟨rfl, rfl, rfl, id, id⟩
      · exact .refl i s
      · exact (touches_deleteDefaultQosRtrules cfg i .v4 s).trans (touches_update ⟨rfl, rfl, rfl, id, id⟩)
      · exact .refl i s
    | v6 a =>
      simp only
      split_ifs <;> dsimp only
      · exact .refl i s
      · exact touches_update ⟨rfl, rfl, rfl, id, id⟩
      · exact .refl i s
      · exact .refl i s

theorem touches_routeRule (mac : MacAddr) (ip : IpaIpType) (s : IpacmWlan) :
    TouchesMac mac s (handleWlanClientRouteRule cfg d mac ip s) := by
  rw [TouchesMac, handleWlanClientRouteRule]
  cases s.getWlanClientIndex mac with
  | none => simp
  | some i =>
    have added := touches_addRules (d := d) cfg i ((s.wlanClient i).missing cfg ip) s
    simp only
    split_ifs
    · exact .refl i s
    · exact .refl i s
    · rcases answer : addRules cfg d i ((s.wlanClient i).missing cfg ip) s with ⟨_ | _, s'⟩ <;>
        rw [answer] at added
      · exact added
      · refine added.trans (touches_update ?_)
        cases ip <;> exact ⟨rfl, rfl, rfl, id, id⟩
    · exact .refl i s

theorem touches_pwrsave (mac : MacAddr) (s : IpacmWlan) :
    TouchesMac mac s (handleWlanClientPwrsave cfg d mac s) := by
  rw [TouchesMac, handleWlanClientPwrsave]
  cases s.getWlanClientIndex mac with
  | none => rfl
  | some i =>
    simp only
    split_ifs
    · exact ((touches_deleteDefaultQosRtrules cfg i .v4 s).trans (touches_deleteDefaultQosRtrules cfg i .v6 _)).trans
        (touches_update ⟨rfl, rfl, rfl, id, id⟩)
    · exact .refl i s

/-! ### Looking up -/

theorem getWlanClientIndex_eq_some {s : IpacmWlan} {mac : MacAddr} {i : Nat} :
    s.getWlanClientIndex mac = some i ↔ i < s.numWifiClient ∧ (s.wlanClient i).mac = mac ∧
      ∀ j < i, (s.wlanClient j).mac ≠ mac := by
  rw [IpacmWlan.getWlanClientIndex, List.find?_range_eq_some]
  simp only [decide_eq_true_eq, List.mem_range, Bool.not_eq_true', decide_eq_false_iff_not]
  exact and_left_comm

theorem getWlanClientIndex_some {s : IpacmWlan} {mac : MacAddr} {i : Nat}
    (found : s.getWlanClientIndex mac = some i) : i < s.numWifiClient ∧ (s.wlanClient i).mac = mac ∧
      ∀ j < i, (s.wlanClient j).mac ≠ mac := getWlanClientIndex_eq_some.mp found

theorem getWlanClientIndex_none {s : IpacmWlan} {mac : MacAddr} :
    s.getWlanClientIndex mac = none ↔ ∀ i < s.numWifiClient, (s.wlanClient i).mac ≠ mac := by
  simp [IpacmWlan.getWlanClientIndex]

/-- The addresses of the records. -/
def IpacmWlan.macs (s : IpacmWlan) : List MacAddr :=
  (List.range s.numWifiClient).map fun i => (s.wlanClient i).mac

theorem mem_macs {s : IpacmWlan} {mac : MacAddr} :
    mac ∈ s.macs ↔ ∃ i < s.numWifiClient, (s.wlanClient i).mac = mac := by
  simp [IpacmWlan.macs]

/-- The record that the handlers find for an address. -/
def IpacmWlan.record (s : IpacmWlan) (mac : MacAddr) : Option IpaWlanClient :=
  (s.getWlanClientIndex mac).map s.wlanClient

theorem Touches.macs {i : Nat} {s s' : IpacmWlan} (touches : Touches i s s') (j : Nat) :
    (s'.wlanClient j).mac = (s.wlanClient j).mac := by
  by_cases this : j = i
  · rw [this, touches.keeps.mac]
  · rw [touches.same j this]

theorem Touches.index {i : Nat} {s s' : IpacmWlan} (touches : Touches i s s') (mac : MacAddr) :
    s'.getWlanClientIndex mac = s.getWlanClientIndex mac := by
  simp [IpacmWlan.getWlanClientIndex, touches.num, touches.macs]

theorem touchesMac_of_touches {mac : MacAddr} {i : Nat} {s s' : IpacmWlan}
    (found : s.getWlanClientIndex mac = some i) : TouchesMac mac s s' ↔ Touches i s s' := by
  rw [TouchesMac, found]

theorem touches_recover (mac : MacAddr) (s : IpacmWlan) :
    TouchesMac mac s (handleClientRecover cfg d mac s) := by
  cases found : s.getWlanClientIndex mac with
  | none => simp [TouchesMac, handleClientRecover, found]
  | some i =>
    rw [touchesMac_of_touches found]
    have rules : ∀ (ip : IpaIpType) (s' : IpacmWlan), Touches i s s' →
        Touches i s (handleWlanClientRouteRule cfg d mac ip s') := fun ip s' touches =>
      touches.trans ((touchesMac_of_touches ((touches.index mac).trans found)).mp
        (touches_routeRule mac ip s'))
    have awake : Touches i s (s.update i fun c => { c with powerSaveSet := false }) := touches_update ⟨rfl, rfl, rfl, id, id⟩
    simp only [handleClientRecover, found]
    split_ifs
    · exact rules _ _ (rules _ _ awake)
    · exact rules _ _ awake
    · exact rules _ _ awake
    · exact awake
    · exact .refl i s

/-! ### Moving up -/

theorem moveUp_apply (cfg : Iface) (i num : Nat) (clients : Nat → IpaWlanClient) (k : Nat) :
    moveUp cfg i num clients k =
      if i ≤ k ∧ k < num - 1 then copyClient cfg (clients k) (clients (k + 1)) else clients k := by
  rw [moveUp, Compaction.foldl_copyNext]
  have same : (i ≤ k ∧ k < i + (num - 1 - i)) ↔ (i ≤ k ∧ k < num - 1) := by omega
  simp only [same]

/-- Where a record was before the ones behind `i` moved up. -/
def cameFrom (i k : Nat) : Nat := if k < i then k else k + 1

theorem cameFrom_ne (i k : Nat) : cameFrom i k ≠ i := by
  rw [cameFrom]
  split <;> omega

theorem cameFrom_lt {i k num : Nat} (below : k < num - 1) : cameFrom i k < num := by
  rw [cameFrom]
  split <;> omega

theorem cameFrom_mono {i k l : Nat} : cameFrom i k < cameFrom i l ↔ k < l := by
  rw [cameFrom, cameFrom]
  split <;> split <;> omega

theorem cameFrom_injective (i : Nat) : Function.Injective (cameFrom i) := by
  intro k l same
  rw [cameFrom, cameFrom] at same
  split at same <;> split at same <;> omega

theorem cameFrom_onto {i j num : Nat} (inside : i < num) (below : j < num) (other : j ≠ i) :
    ∃ k < num - 1, cameFrom i k = j := by
  by_cases front : j < i
  · exact ⟨j, by omega, if_pos front⟩
  · refine ⟨j - 1, by omega, ?_⟩
    rw [cameFrom, if_neg (by omega)]
    omega

/-- What is at `k` now was at `cameFrom i k`. -/
theorem moveUp_cameFrom (cfg : Iface) (i : Nat) {num k : Nat} (clients : Nat → IpaWlanClient) (below : k < num - 1) :
    moveUp cfg i num clients k = clients (cameFrom i k) ∨
      moveUp cfg i num clients k = copyClient cfg (clients k) (clients (cameFrom i k)) := by
  rw [moveUp_apply]
  by_cases front : k < i
  · have here : cameFrom i k = k := if_pos front
    rw [if_neg (by omega), here]
    exact .inl rfl
  · have next : cameFrom i k = k + 1 := if_neg front
    rw [if_pos (by omega), next]
    exact .inr rfl

/-- What a record says: its fields, and of the arrays the entries that its counts cover. -/
structure SameRecord (cfg : Iface) (c c' : IpaWlanClient) : Prop where
  mac : c'.mac = c.mac
  v4Addr : c'.v4Addr = c.v4Addr
  ipv4Set : c'.ipv4Set = c.ipv4Set
  ipv6Set : c'.ipv6Set = c.ipv6Set
  v6Addr : ∀ num < c.ipv6Set, c'.v6Addr num = c.v6Addr num
  hdrHdlV4 : c'.hdrHdlV4 = c.hdrHdlV4
  hdrHdlV6 : c'.hdrHdlV6 = c.hdrHdlV6
  ipv4HeaderSet : c'.ipv4HeaderSet = c.ipv4HeaderSet
  ipv6HeaderSet : c'.ipv6HeaderSet = c.ipv6HeaderSet
  routeRuleSetV4 : c'.routeRuleSetV4 = c.routeRuleSetV4
  routeRuleSetV6 : c'.routeRuleSetV6 = c.routeRuleSetV6
  powerSaveSet : c'.powerSaveSet = c.powerSaveSet
  hdlV4 : ∀ tx < cfg.txProp.length, c'.wifiRtHdl (.v4 tx) = c.wifiRtHdl (.v4 tx)
  hdlV6 : ∀ tx < cfg.txProp.length, ∀ num < c.routeRuleSetV6,
    c'.wifiRtHdl (.v6 tx num) = c.wifiRtHdl (.v6 tx num) ∧
    c'.wifiRtHdl (.v6Wan tx num) = c.wifiRtHdl (.v6Wan tx num)

theorem SameRecord.refl (cfg : Iface) (c : IpaWlanClient) : SameRecord cfg c c :=
  ⟨rfl, rfl, rfl, rfl, fun _ _ => rfl, rfl, rfl, rfl, rfl, rfl, rfl, rfl, fun _ _ => rfl,
    fun _ _ _ _ => ⟨rfl, rfl⟩⟩

/-- A copied record is the same but for `power_save_set`, which stays behind. -/
theorem copyClient_same {cfg : Iface} {dst src : IpaWlanClient}
    (power : dst.powerSaveSet = src.powerSaveSet) : SameRecord cfg src (copyClient cfg dst src) where
  mac := rfl
  v4Addr := rfl
  ipv4Set := rfl
  ipv6Set := rfl
  v6Addr num below := by simp [copyClient, below]
  hdrHdlV4 := rfl
  hdrHdlV6 := rfl
  ipv4HeaderSet := rfl
  ipv6HeaderSet := rfl
  routeRuleSetV4 := rfl
  routeRuleSetV6 := rfl
  powerSaveSet := power
  hdlV4 tx inside := by simp [copyClient, inside]
  hdlV6 tx inside num below := by simp [copyClient, inside, below]

end Hima.Wlan
