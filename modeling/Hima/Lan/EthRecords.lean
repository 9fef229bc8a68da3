import Hima.Lib.Compaction
import Hima.Lib.FirstMatch
import Hima.Lan.EthClients

/-!
# The client table as a list of records

The table is an array with a count, and what an array inside a record holds beyond the record's
own counts says nothing. The list of records leaves both out: on it the handlers append a record,
replace one or take one out.
-/
namespace Hima.Lan

open IpacmLan
open Wan (IpaIpType)
open Wlan (MacAddr RtSlot)
open FirstMatch Slots

variable {cfg : Iface} {s s' : IpacmLan} {mac : MacAddr} {i : Nat}

/-! ### Records -/

/-- The entries of `eth_rt_hdl` that a turn of the loop in `handle_eth_client_down_evt` copies. -/
def EthClient.InUse (cfg : Iface) (c : EthClient) : RtSlot → Prop
  | .v4 tx => tx < cfg.txProp.length
  | .v6 tx num => tx < cfg.txProp.length ∧ num < c.routeRuleSetV6
  | .v6Wan tx num => tx < cfg.txProp.length ∧ num < c.routeRuleSetV6

instance (c : EthClient) (slot : RtSlot) : Decidable (c.InUse cfg slot) := by
  cases slot <;> unfold EthClient.InUse <;> infer_instance

/-- A record without what its counts do not cover. -/
def EthClient.norm (cfg : Iface) (c : EthClient) : EthClient :=
  { c with
    v6Addr := fun num => if num < c.ipv6Set then c.v6Addr num else .replicate 4 0
    ethRtHdl := fun slot => if c.InUse cfg slot then c.ethRtHdl slot else 0 }

variable (c : EthClient)

@[simp] theorem norm_mac : (c.norm cfg).mac = c.mac := rfl
@[simp] theorem norm_hdrHdl : (c.norm cfg).hdrHdl = c.hdrHdl := rfl
@[simp] theorem norm_covered : (c.norm cfg).covered cfg = c.covered cfg := by
  funext ip
  cases ip <;> rfl

theorem norm_v6Addr {c : EthClient} {num : Nat} (covered : num < c.ipv6Set) :
    (c.norm cfg).v6Addr num = c.v6Addr num := if_pos covered

theorem norm_ethRtHdl {c : EthClient} {slot : RtSlot} (used : c.InUse cfg slot) :
    (c.norm cfg).ethRtHdl slot = c.ethRtHdl slot := if_pos used

/-- A copied record says what its source says. -/
theorem norm_copyClient (dst src : EthClient) : (copyClient cfg dst src).norm cfg = src.norm cfg := by
  have v6Addr : ((copyClient cfg dst src).norm cfg).v6Addr = (src.norm cfg).v6Addr := by
    funext num
    by_cases covered : num < src.ipv6Set <;> simp [EthClient.norm, copyClient, covered]
  have ethRtHdl : ((copyClient cfg dst src).norm cfg).ethRtHdl = (src.norm cfg).ethRtHdl := by
    funext slot
    have same : (copyClient cfg dst src).InUse cfg slot ↔ src.InUse cfg slot := by
      cases slot <;> rfl
    by_cases used : src.InUse cfg slot
    · rw [norm_ethRtHdl (same.mpr used), norm_ethRtHdl used]
      cases slot <;> exact if_pos used
    · simp [EthClient.norm, same, used]
  calc (copyClient cfg dst src).norm cfg
      = { src.norm cfg with
          v6Addr := ((copyClient cfg dst src).norm cfg).v6Addr
          ethRtHdl := ((copyClient cfg dst src).norm cfg).ethRtHdl } := rfl
    _ = src.norm cfg := by rw [v6Addr, ethRtHdl]

/-- The records of the table. -/
def IpacmLan.records (cfg : Iface) (s : IpacmLan) : List EthClient :=
  (List.range s.numEthClient).map fun i => (s.ethClient i).norm cfg

@[simp] theorem length_records : (s.records cfg).length = s.numEthClient := by
  simp [records]

theorem getElem?_records (k : Nat) :
    (s.records cfg)[k]? = if k < s.numEthClient then some ((s.ethClient k).norm cfg) else none := by
  rw [records, List.getElem?_map]
  split <;> simp_all

theorem getElem_records {k : Nat} (below : k < (s.records cfg).length) :
    (s.records cfg)[k] = (s.ethClient k).norm cfg := by
  simp [records]

theorem mem_records {c : EthClient} :
    c ∈ s.records cfg ↔ ∃ i < s.numEthClient, (s.ethClient i).norm cfg = c := by
  simp [records]

/-- The test of `get_eth_client_index`. -/
abbrev isMac (mac : MacAddr) : EthClient → Bool := hasKey EthClient.mac mac

/-- The record that the handlers find for an address. -/
def IpacmLan.lookup (cfg : Iface) (s : IpacmLan) (mac : MacAddr) : Option EthClient :=
  (s.records cfg).find? (isMac mac)

theorem getEthClientIndex_eq (cfg : Iface) (s : IpacmLan) (mac : MacAddr) :
    s.getEthClientIndex mac = (s.records cfg).findIdx? (isMac mac) := by
  refine Option.ext fun i => ?_
  rw [getEthClientIndex, List.find?_range_eq_some, List.findIdx?_eq_some_iff_getElem]
  simp only [getElem_records, length_records, hasKey_iff, norm_mac, decide_eq_true_eq, List.mem_range,
    Bool.not_eq_true', decide_eq_false_iff_not, exists_prop]
  exact and_left_comm

theorem index_some (found : s.getEthClientIndex mac = some i) :
    i < s.numEthClient ∧ (s.ethClient i).mac = mac := by
  have at_i := List.find?_some found
  have below := List.mem_of_find?_eq_some found
  exact ⟨List.mem_range.mp below, by simpa using at_i⟩

theorem lookup_of_index (cfg : Iface) (found : s.getEthClientIndex mac = some i) :
    s.lookup cfg mac = some ((s.ethClient i).norm cfg) := by
  rw [getEthClientIndex_eq cfg] at found
  obtain ⟨below, is_mac, first⟩ := List.findIdx?_eq_some_iff_getElem.mp found
  rw [lookup, List.find?_eq_some_iff_getElem]
  rw [getElem_records below] at is_mac
  exact ⟨is_mac, i, below, getElem_records below, fun j before => by
    rw [Bool.not_eq_true']
    exact Bool.eq_false_iff.mpr (first j before)⟩

theorem lookup_of_no_index (cfg : Iface) (absent : s.getEthClientIndex mac = none) : s.lookup cfg mac = none := by
  rw [getEthClientIndex_eq cfg] at absent
  rw [lookup, List.find?_eq_none]
  intro c member
  rw [Bool.not_eq_true]
  exact List.findIdx?_eq_none_iff.mp absent c member

/-! ### What the handlers do to the list -/

theorem records_set (num : s'.numEthClient = s.numEthClient) (same : ∀ j ≠ i, s'.ethClient j = s.ethClient j) :
    s'.records cfg = (s.records cfg).set i ((s'.ethClient i).norm cfg) := by
  refine List.ext_getElem? fun k => ?_
  rw [List.getElem?_set, getElem?_records, getElem?_records, num]
  by_cases here : i = k
  · subst here
    simp
  · simp [here, same k fun this => here this.symm]

theorem records_replaced (cfg : Iface) (found : s.getEthClientIndex mac = some i)
    (num : s'.numEthClient = s.numEthClient) (same : ∀ j ≠ i, s'.ethClient j = s.ethClient j) :
    s'.records cfg = setFirst (isMac mac) ((s'.ethClient i).norm cfg) (s.records cfg) := by
  rw [records_set num same]
  rw [getEthClientIndex_eq cfg] at found
  exact set_of_findIdx? found _

theorem records_append (cfg : Iface) (num : s'.numEthClient = s.numEthClient + 1)
    (same : ∀ j < s.numEthClient, s'.ethClient j = s.ethClient j) :
    s'.records cfg = s.records cfg ++ [(s'.ethClient s.numEthClient).norm cfg] := by
  rw [records, num, List.range_succ, List.map_append]
  congr 1
  exact List.map_congr_left fun j below => by rw [same j (List.mem_range.mp below)]

theorem moveUp_apply (i num : Nat) (clients : Nat → EthClient) (k : Nat) :
    moveUp cfg i num clients k =
      if i ≤ k ∧ k < num - 1 then copyClient cfg (clients k) (clients (k + 1)) else clients k := by
  rw [moveUp, Compaction.foldl_copyNext]
  have same : (i ≤ k ∧ k < i + (num - 1 - i)) ↔ (i ≤ k ∧ k < num - 1) := by omega
  simp only [same]

theorem records_moveUp (below : i < s.numEthClient) :
    records cfg { s with
      ethClient := moveUp cfg i s.numEthClient s.ethClient, numEthClient := s.numEthClient - 1 } =
      (s.records cfg).eraseIdx i := by
  refine List.ext_getElem? fun k => ?_
  rw [List.getElem?_eraseIdx, getElem?_records, getElem?_records, getElem?_records]
  dsimp only
  rw [moveUp_apply]
  by_cases front : k < i
  · rw [if_pos (by omega), if_neg (by omega), if_pos front, if_pos (by omega)]
  · rw [if_neg front]
    by_cases last : k < s.numEthClient - 1
    · rw [if_pos last, if_pos ⟨by omega, last⟩, if_pos (by omega), norm_copyClient]
    · rw [if_neg last, if_neg (by omega)]

theorem records_removed (cfg : Iface) (found : s.getEthClientIndex mac = some i) :
    records cfg { s with
      ethClient := moveUp cfg i s.numEthClient s.ethClient, numEthClient := s.numEthClient - 1 } =
      (s.records cfg).eraseP (isMac mac) := by
  rw [records_moveUp (index_some found).1, List.eraseP_eq_eraseIdx, ← getEthClientIndex_eq cfg, found]

end Hima.Lan
