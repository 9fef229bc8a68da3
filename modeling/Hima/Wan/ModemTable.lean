import Hima.Ipacm.NatApp
import Hima.Wan.FirewallAgreement

/-!
# The table of downlink rules

`IPACM_Wan::config_wan_firewall_rule` fills the static array of a family behind the default rules:
a rule for ICMP, two for every port of an application gateway, and the rules of the firewall. None
of the functions that write the array knows its size, so all that matters is how many rules they
write.
-/
namespace Hima.Wan

open Ipacm (IpacmAlg)

variable {P E : Type}

def ipprotoIcmp : UInt8 := 1

/-- `IPA_V2_NUM_DEFAULT_WAN_FILTER_RULE_IPV4` and `_IPV6`; the latter depends on
`FEATURE_IPA_ANDROID`. -/
def numDefaultWanFilterRule (android : Bool) : IpaIpType → Nat
  | .v4 => 2
  | .v6 => if android then 6 else 3

/-- The rx property without metadata and with further bits. -/
def RuleAttrib.sansMetaData (rx : RuleAttrib) (bits : Finset FltBit) : RuleAttrib :=
  { rx with attribMask := rx.attribMask.erase .metaData ∪ bits }

def icmpAttrib (rx : RuleAttrib) : RuleAttrib :=
  { rx.sansMetaData {.protocol} with v4 := { rx.v4 with protocol := ipprotoIcmp } }

def icmp6Attrib (rx : RuleAttrib) : RuleAttrib :=
  { rx.sansMetaData {.nextHdr} with v6 := { rx.v6 with nextHdr := ipprotoIcmp6 } }

def algSrcAttrib (rx : RuleAttrib) (alg : IpacmAlg) : RuleAttrib :=
  { rx.sansMetaData {.srcPort, .protocol} with
    srcPort := alg.port, v4 := { rx.v4 with protocol := alg.protocol } }

def algDstAttrib (rx : RuleAttrib) (alg : IpacmAlg) : RuleAttrib :=
  { rx.sansMetaData {.dstPort, .protocol} with
    dstPort := alg.port, v4 := { rx.v4 with protocol := alg.protocol } }

/-- Rules that go to the host, one after the other. -/
def Build.addAll (k : EqKernel P E) (ip : IpaIpType) :
    List RuleAttrib → Build E → Option (Bool × Build E)
  | [], b => some (true, b)
  | a :: rest, b =>
    andThen (b.add k ip (.passToRouting, .wanDl) a false) fun b => Build.addAll k ip rest b

/-- `add_icmp_alg_rules`; the position of `b` is `rule_offset`. The `i`-th port is written at
`rule_offset + 1 + i` as a source, and at `rule_offset + ipa_num_alg_ports + 1 + i` as a
destination. -/
def IpacmWan.addIcmpAlgRules (w : IpacmWan) (k : EqKernel P E) (algTable : List IpacmAlg)
    (ip : IpaIpType) (b : Build E) : Option (Bool × Build E) := do
  let rxs ← w.rxProp
  match ip with
  | .v4 =>
    let rx ← rxs[0]?
    andThen (b.query k .v4 .wanDl) fun b =>
    b.addAll k .v4 (icmpAttrib rx ::
      (algTable.map (algSrcAttrib rx) ++ algTable.map (algDstAttrib rx)))
  | .v6 =>
    let rx ← rxs[1]?
    andThen (b.query k .v6 .wanDl) fun b => b.addAll k .v6 [icmp6Attrib rx]

/-- `config_wan_firewall_rule`; `numFltRule` is `num_v4_flt_rule` or `num_v6_flt_rule`. The result
is `none` when the code writes or reads out of bounds. -/
def IpacmWan.configWanFirewallRule (w : IpacmWan) (k : EqKernel P E) (android : Bool)
    (algTable : List IpacmAlg) (read : Option FirewallConf) (ip : IpaIpType) (b : Build E) :
    Option (Bool × Build E) :=
  let base := numDefaultWanFilterRule android ip
  andThen (w.addIcmpAlgRules k algTable ip { b with numFltRule := base, pos := base }) fun b =>
  w.configDftFirewallRulesEx k read ip { b with pos := b.numFltRule.toNat }

/-! ### What a step writes -/

/-- A step that writes `n` rules behind the position and counts them, or leaves the array. -/
def Writes (n : Nat) (step : Build E → Option (Bool × Build E)) : Prop :=
  ∀ b : Build E, b.pos ≤ maxFltRule →
    (b.pos + n ≤ maxFltRule →
      ∃ b', step b = some (true, b') ∧ b'.pos = b.pos + n ∧ b'.numFltRule = b.numFltRule + n) ∧
    (¬ b.pos + n ≤ maxFltRule → step b = none)

theorem writes_nothing : Writes 0 fun b : Build E => some (true, b) := by
  intro b inside
  exact ⟨fun _ => ⟨b, rfl, rfl, by simp⟩, fun full => absurd inside full⟩

/-- Steps in a row write what they write one by one. -/
theorem Writes.andThen {m n : Nat} {first second : Build E → Option (Bool × Build E)}
    (writes : Writes m first) (writes' : Writes n second) :
    Writes (m + n) fun b => andThen (first b) second := by
  intro b inside
  obtain ⟨fits, leaves⟩ := writes b inside
  by_cases room : b.pos + m ≤ maxFltRule
  · obtain ⟨b₁, run₁, pos₁, count₁⟩ := fits room
    obtain ⟨fits', leaves'⟩ := writes' b₁ (by omega)
    simp only [run₁, andThen_success]
    refine ⟨fun room' => ?_, fun full => leaves' (by omega)⟩
    obtain ⟨b₂, run₂, pos₂, count₂⟩ := fits' (by omega)
    exact ⟨b₂, run₂, by omega, by push_cast; omega⟩
  -- the first step leaves the array already
  · simp only [leaves room, andThen_none]
    exact ⟨fun room' => by omega, fun _ => trivial⟩

theorem Writes.congr {m n : Nat} {step : Build E → Option (Bool × Build E)}
    (writes : Writes m step) (same : m = n) : Writes n step := same ▸ writes

/-- A step under a condition writes as much as the branch that is taken. -/
theorem Writes.ite {c : Prop} [Decidable c] {m n : Nat} {yes no : Build E → Option (Bool × Build E)}
    (writes : c → Writes m yes) (writes' : ¬ c → Writes n no) :
    Writes (if c then m else n) fun b => if c then yes b else no b := by
  by_cases holds : c
  · simpa [holds] using writes holds
  · simpa [holds] using writes' holds

/-- The kernel answers every request. -/
structure EqKernel.Succeeds (k : EqKernel P E) : Prop where
  generates : ∀ ip a, (k.generateFltEq ip a).isSome
  answers : ∀ ip table, k.queryRtTblIndex ip table = true

section Steps

variable {k : EqKernel P E} (succeeds : k.Succeeds)

include succeeds

theorem writes_query (ip : IpaIpType) (table : RtTable) :
    Writes 0 fun b : Build E => b.query k ip table := by
  simpa [Build.query, succeeds.answers] using writes_nothing (E := E)

theorem writes_add (ip : IpaIpType) (does : FltAction × RtTable) (a : RuleAttrib) (counted : Bool) :
    Writes 1 fun b : Build E => b.add k ip does a counted := by
  intro b inside
  obtain ⟨eq, generated⟩ := Option.isSome_iff_exists.mp (succeeds.generates ip a)
  simp only [Build.add, generated, Build.put]
  refine ⟨fun room => ?_, fun full => dif_neg (by omega)⟩
  exact ⟨_, dif_pos (by omega), rfl, rfl⟩

theorem writes_addAll (ip : IpaIpType) (attribs : List RuleAttrib) :
    Writes attribs.length fun b : Build E => b.addAll k ip attribs := by
  induction attribs with
  | nil => exact writes_nothing
  | cons a rest ih =>
    exact ((writes_add succeeds ip _ a false).andThen ih).congr (by simp [Nat.add_comm])

/-- The loop over the entries writes one rule for each of the family, two for TCP_UDP. -/
theorem writes_addFirewallEx (side : Side) (conf : FirewallConf) (rx : RuleAttrib)
    (entries : List FirewallEntry) :
    Writes (entries.flatMap (side.rulesOf conf rx)).length
      fun b : Build E => side.addFirewallEx k conf rx entries b := by
  induction entries with
  | nil => exact writes_nothing
  | cons e rest ih =>
    have query := writes_query succeeds side.ip (side.modemAction conf.ruleActionAccept).2
    have add := fun a => writes_add succeeds side.ip (side.modemAction conf.ruleActionAccept) a true
    simp only [Side.addFirewallEx, List.flatMap_cons, List.length_append, Side.rulesOf]
    by_cases version : e.ipVsn = side.version
    · by_cases split : side.protocol e.attrib = ipprotoTcpUdp
      · simp only [version, split, if_true]
        exact (query.andThen ((add _).andThen ((add _).andThen ih))).congr
          (by simp only [List.length_cons, List.length_nil]; omega)
      · simp only [version, split, if_true, if_false]
        exact (query.andThen ((add _).andThen ih)).congr
          (by simp only [List.length_cons, List.length_nil]; omega)
    · simpa [version] using ih

theorem writes_addDefaultEx (side : Side) (conf : FirewallConf) (any : RuleAttrib) :
    Writes 1 fun b : Build E => side.addDefaultEx k conf any b :=
  ((writes_query succeeds _ _).andThen (writes_add succeeds _ _ _ _)).congr rfl

theorem writes_entriesEx (side : Side) (conf : FirewallConf) (rx : RuleAttrib) :
    Writes (if conf.firewallEnable = true then side.ruleCount conf else 0)
      fun b : Build E => if conf.firewallEnable = true then side.addFirewallEx k conf rx conf.entries b
        else some (true, b) := by
  refine Writes.ite (fun _ => ?_) fun _ => writes_nothing
  exact (writes_addFirewallEx succeeds side conf rx conf.entries).congr (side.length_rulesOf conf rx _)

theorem writes_fragEx (conf : FirewallConf) (rx : RuleAttrib) :
    Writes (if conf.firewallEnable = true then 1 else 0) fun b : Build E => if conf.firewallEnable = true then
          andThen (b.query k .v6 .wanDl) fun b => b.add k .v6 (.passToRouting, .wanDl)
            (changeToNetworkOrder .v6 (modemFragAttrib rx)) false else some (true, b) := by
  refine Writes.ite (fun _ => ?_) fun _ => writes_nothing
  exact ((writes_query succeeds _ _).andThen (writes_add succeeds _ _ _ _)).congr rfl

end Steps

/-! ### The whole table -/

/-- The number of rules in the table of a family. -/
def tableCount (android : Bool) (algTable : List IpacmAlg) (conf : FirewallConf) (ip : IpaIpType) : Nat :=
  numDefaultWanFilterRule android ip + (if ip = .v4 then 1 + 2 * algTable.length else 1) +
    modemCount conf ip

section Table

variable {k : EqKernel P E} (succeeds : k.Succeeds) {w : IpacmWan} {rxs : List RuleAttrib}
  {rx : RuleAttrib} (registered : w.rxProp = some rxs) (first : rxs[0]? = some rx)

include succeeds registered first

theorem writes_configEx (read : Option FirewallConf) (ip : IpaIpType) (second : ip = .v6 → (rxs[1]?).isSome) :
    Writes (modemCount (read.getD .zero) ip) fun b : Build E => w.configDftFirewallRulesEx k read ip b := by
  generalize conf_eq : read.getD .zero = conf
  cases ip with
  | v4 =>
    have writes := (writes_entriesEx succeeds sideV4 conf rx).andThen
      (writes_addDefaultEx succeeds sideV4 conf (anyDstV4 rx))
    simp only [IpacmWan.configDftFirewallRulesEx, registered, first, conf_eq, reduceCtorEq, false_and,
      if_false, andThen_success, Option.bind_eq_bind, Option.bind_some]
    refine writes.congr ?_
    cases enabled : conf.firewallEnable <;> simp [modemCount, enabled, sideOf]
  | v6 =>
    obtain ⟨rx₁, at_one⟩ := Option.isSome_iff_exists.mp (second rfl)
    -- fragments first, then the entries, then the default rule
    have writes := (writes_fragEx succeeds conf rx).andThen ((writes_entriesEx succeeds sideV6 conf rx).andThen
        (writes_addDefaultEx succeeds sideV6 conf (anyDstV6 rx₁)))
    simp only [IpacmWan.configDftFirewallRulesEx, registered, first, at_one, conf_eq, true_and,
      Option.bind_eq_bind, Option.bind_some]
    refine writes.congr ?_
    cases enabled : conf.firewallEnable <;> simp [modemCount, enabled, sideOf, Nat.add_assoc]

theorem writes_addIcmpAlgRules (algTable : List IpacmAlg) (ip : IpaIpType)
    (second : ip = .v6 → (rxs[1]?).isSome) :
    Writes (if ip = .v4 then 1 + 2 * algTable.length else 1)
      fun b : Build E => w.addIcmpAlgRules k algTable ip b := by
  cases ip with
  | v4 =>
    simp only [IpacmWan.addIcmpAlgRules, registered, first, Option.bind_eq_bind, Option.bind_some]
    exact ((writes_query succeeds _ _).andThen (writes_addAll succeeds _ _)).congr
      (by simp only [if_true, List.length_cons, List.length_append, List.length_map]; omega)
  | v6 =>
    obtain ⟨rx₁, at_one⟩ := Option.isSome_iff_exists.mp (second rfl)
    simp only [IpacmWan.addIcmpAlgRules, registered, at_one, Option.bind_eq_bind, Option.bind_some]
    exact ((writes_query succeeds _ _).andThen (writes_addAll succeeds _ _)).congr (by simp)

/-- The table is filled without leaving the array exactly when all its rules fit. -/
theorem configWan_inside_iff (android : Bool) (algTable : List IpacmAlg)
    (read : Option FirewallConf) (ip : IpaIpType) (second : ip = .v6 → (rxs[1]?).isSome) (b : Build E) :
    (∃ b', w.configWanFirewallRule k android algTable read ip b = some (true, b')) ↔
      tableCount android algTable (read.getD .zero) ip ≤ maxFltRule := by
  have alg := writes_addIcmpAlgRules succeeds registered first algTable ip second
  have firewall := writes_configEx succeeds registered first read ip second
  have small : numDefaultWanFilterRule android ip ≤ 6 := by
    cases ip <;> cases android <;> decide
  generalize base_eq : numDefaultWanFilterRule android ip = base at small
  obtain ⟨fits, leaves⟩ := alg { b with numFltRule := base, pos := base } (by simp only [maxFltRule]; omega)
  simp only [IpacmWan.configWanFirewallRule, tableCount, base_eq]
  simp only at fits leaves
  generalize (if ip = .v4 then 1 + 2 * algTable.length else 1) = icmpAlg at fits leaves ⊢
  by_cases room : base + icmpAlg ≤ maxFltRule
  · obtain ⟨b₁, run₁, pos₁, count₁⟩ := fits room
    -- the counter of the rules is the position
    have offset : b₁.numFltRule.toNat = base + icmpAlg := by omega
    obtain ⟨fits', leaves'⟩ := firewall { b₁ with pos := b₁.numFltRule.toNat } (by simp only [offset]; omega)
    simp only [offset] at fits' leaves'
    rw [run₁, andThen_success, offset]
    refine ⟨fun ⟨b', run⟩ => ?_, fun all => ?_⟩
    · by_contra full
      rw [leaves' full] at run
      simp at run
    · obtain ⟨b₂, run₂, -⟩ := fits' all
      exact ⟨b₂, run₂⟩
  · rw [leaves room, andThen_none]
    exact iff_of_false (by simp) (by omega)

end Table

end Hima.Wan
