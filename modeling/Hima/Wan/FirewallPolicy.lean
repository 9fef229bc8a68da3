import Hima.Lib.RuleList
import Hima.Wan.StaFirewall

/-!
# What the firewall of a station interface means

The policy of a configuration, over the packets of the kernel, and the rules that
`config_dft_firewall_rules` installs for it.
-/
namespace Hima.Wan

open RuleList Function

variable {P : Type}

def sideOf : IpaIpType → Side
  | .v4 => sideV4
  | .v6 => sideV6

/-! ### The policy -/

/-- Whether a packet meets an attribute of an entry; the protocol TCP_UDP is met by both. -/
def FirewallEntry.meets (e : FirewallEntry) (k : Kernel P) (side : Side) (bit : FltBit) (p : P) :
    Bool :=
  if bit = side.protocolBit ∧ side.protocol e.attrib = ipprotoTcpUdp then
    k.protocol p == ipprotoTcp || k.protocol p == ipprotoUdp
  else k.meets side.ip bit e.attrib p

/-- An entry of the family matches a packet that meets all its attributes. -/
def FirewallEntry.hits (e : FirewallEntry) (k : Kernel P) (side : Side) (p : P) : Bool :=
  decide (e.ipVsn = side.version ∧ ∀ bit ∈ e.attrib.attribMask, e.meets k side bit p = true)

/-- A disabled firewall accepts; an accept list accepts what an entry matches and sends the rest to
the host, a deny list the other way round. -/
def Side.policy (side : Side) (k : Kernel P) (conf : FirewallConf) (p : P) : FltAction :=
  let listed := conf.entries.any fun e => e.hits k side p
  if conf.firewallEnable then
    if conf.ruleActionAccept then
      if listed then side.accept else .passToException
    else
      if listed then .passToException else side.accept
  else side.accept

/-- The number of rules for the entries of a family: TCP_UDP takes two. -/
def Side.ruleCount (side : Side) (conf : FirewallConf) : Nat :=
  conf.entries.countP (·.ipVsn = side.version) +
    conf.entries.countP fun e => e.ipVsn = side.version ∧ side.protocol e.attrib = ipprotoTcpUdp

/-- If entries match the packet, then one of them is met also in what only the rx property sets,
apart from metadata. -/
def Side.RxMet (side : Side) (k : Kernel P) (conf : FirewallConf) (rx : RuleAttrib) (p : P) : Prop :=
  (∃ e ∈ conf.entries, e.hits k side p = true) →
    ∃ e ∈ conf.entries, e.hits k side p = true ∧
      ∀ bit ∈ rx.attribMask, bit ≠ .metaData → e.meets k side bit p = true

/-! ### The rules -/

/-- The rules of one entry. -/
def Side.rulesOf (side : Side) (conf : FirewallConf) (rx : RuleAttrib) (e : FirewallEntry) :
    List FltRule :=
  if e.ipVsn = side.version then
    let rule := side.entryRule conf rx e
    if side.protocol e.attrib = ipprotoTcpUdp then
      [rule.withProtocol side ipprotoTcp, rule.withProtocol side ipprotoUdp]
    else [rule]
  else []

def Side.emitted (side : Side) (conf : FirewallConf) (rx : RuleAttrib) : List FltRule :=
  if conf.firewallEnable then conf.entries.flatMap (side.rulesOf conf rx) else []

/-- All rules of a family, in their order. -/
def staRules (conf : FirewallConf) (rx : RuleAttrib) : IpaIpType → List FltRule
  | .v4 => sideV4.emitted conf rx ++ [defaultRuleV4 conf rx]
  | .v6 => (if conf.firewallEnable then [fragRule rx] else []) ++
      (sideV6.emitted conf rx ++ [icmpRule rx, defaultRuleV6 conf rx])

theorem Side.length_rulesOf (side : Side) (conf : FirewallConf) (rx : RuleAttrib)
    (entries : List FirewallEntry) : (entries.flatMap (side.rulesOf conf rx)).length =
      entries.countP (·.ipVsn = side.version) +
        entries.countP fun e => e.ipVsn = side.version ∧ side.protocol e.attrib = ipprotoTcpUdp := by
  induction entries with
  | nil => rfl
  | cons e rest ih =>
    rw [List.flatMap_cons, List.length_append, ih, List.countP_cons, List.countP_cons]
    by_cases version : e.ipVsn = side.version
    · by_cases split : side.protocol e.attrib = ipprotoTcpUdp <;>
        simp [Side.rulesOf, version, split] <;> omega
    · simp [Side.rulesOf, version]

/-! ### The two families -/

/-- What both families have in common: the protocol is a field of its own, and a handle is saved
where there is room. -/
structure Side.Lawful (side : Side) (k : Kernel P) : Prop where
  protocolBit_ne : side.protocolBit ≠ .metaData
  accept_ne : side.accept ≠ .passToException
  met_iff : ∀ a p, k.meets side.ip side.protocolBit a p = (side.protocol a == k.protocol p)
  protocol_set : ∀ v a, side.protocol (side.setProtocol v a) = v
  protocol_withRx : ∀ a rx, side.protocol (RuleAttrib.withRx a rx) = side.protocol a
  mask_set : ∀ v a, (side.setProtocol v a).attribMask = a.attribMask
  metaData_set : ∀ v a, (side.setProtocol v a).AgreeOn a .metaData
  agree_set : ∀ v a bit, bit ≠ side.protocolBit → (side.setProtocol v a).AgreeOn a bit
  save_in : ∀ i hdl w, i < maxFirewallEntries → ∃ w', side.save i hdl w = some w' ∧ w'.tables = w.tables
  save_out : ∀ i hdl w, ¬ i < maxFirewallEntries → side.save i hdl w = none

theorem sideOf_lawful {k : Kernel P} (documented : k.Documented) (ip : IpaIpType) :
    (sideOf ip).Lawful k ∧ (sideOf ip).ip = ip := by
  cases ip with
  | v4 =>
    refine ⟨⟨by decide, by decide, documented.protocolV4, fun _ _ => rfl, fun _ _ => rfl,
      fun _ _ => rfl, fun _ _ => ⟨rfl, rfl⟩, fun v a bit other => ?_, fun i hdl w room => ?_,
      fun i hdl w full => ?_⟩, rfl⟩
    · cases bit with
      | protocol => exact absurd rfl other
      | metaData => exact ⟨rfl, rfl⟩
      | _ => rfl
    · exact ⟨_, dif_pos room, rfl⟩
    · exact dif_neg full
  | v6 =>
    refine ⟨⟨by decide, by decide, documented.nextHdrV6, fun _ _ => rfl, fun _ _ => rfl,
      fun _ _ => rfl, fun _ _ => ⟨rfl, rfl⟩, fun v a bit other => ?_, fun i hdl w room => ?_,
      fun i hdl w full => ?_⟩, rfl⟩
    · cases bit with
      | nextHdr => exact absurd rfl other
      | metaData => exact ⟨rfl, rfl⟩
      | _ => rfl
    · exact ⟨_, dif_pos room, rfl⟩
    · exact dif_neg full

theorem withRx_agreeOn (a rx : RuleAttrib) {bit : FltBit} (other : bit ≠ .metaData) :
    (a.withRx rx).AgreeOn a bit := by
  cases bit with
  | metaData => exact absurd rfl other
  | _ => rfl

/-! ### What the code installs -/

/-- All hardware operations succeed. -/
structure FilterAnswers.Succeed (answers : FilterAnswers) : Prop where
  add : ∀ table rule, (answers.add table rule).isSome
  routingTable : ∀ table, answers.routingTable table = true

variable {answers : FilterAnswers}

/-- What the loop does is composed of the additions of single rules, while there is room for their
handles. -/
theorem addFirewall_composes {conf : FirewallConf} {rx : RuleAttrib}
    {side : Side} {R : Nat → List FltRule → IpacmWan → IpacmWan → Prop} (refl : ∀ i w, R i [] w w)
    (cons : ∀ {i rule rules w w' w''}, R i [rule] w w' → R (i + 1) rules w' w'' → R i (rule :: rules) w w'')
    (adds : ∀ (i : Nat) (w : IpacmWan) (rule : FltRule), rule.atRear = true → i < maxFirewallEntries →
      ∃ w', w.addRule answers side.ip rule (side.save i) = some (true, w') ∧ R i [rule] w w')
    (entries : List FirewallEntry) : ∀ (i : Nat) (w : IpacmWan),
    i + (entries.flatMap (side.rulesOf conf rx)).length ≤ maxFirewallEntries →
    ∃ w', side.addFirewall answers conf rx entries i w = some (true, w') ∧
      R i (entries.flatMap (side.rulesOf conf rx)) w w' := by
  induction entries with
  | nil => exact fun i w _ => ⟨w, rfl, refl i w⟩
  | cons e rest ih =>
    intro i w room
    rw [List.flatMap_cons, List.length_append] at room
    rw [Side.addFirewall, List.flatMap_cons]
    by_cases version : e.ipVsn = side.version
    -- two rules for TCP and UDP, else one, or none for the other version
    · by_cases split : side.protocol e.attrib = ipprotoTcpUdp
      · have rules : side.rulesOf conf rx e = [(side.entryRule conf rx e).withProtocol side ipprotoTcp,
            (side.entryRule conf rx e).withProtocol side ipprotoUdp] := by
          simp [Side.rulesOf, version, split]
        rw [rules] at room ⊢
        simp only [List.length_cons, List.length_nil] at room
        obtain ⟨w₁, run₁, tcp⟩ := adds i w ((side.entryRule conf rx e).withProtocol side ipprotoTcp)
          rfl (by omega)
        obtain ⟨w₂, run₂, udp⟩ := adds (i + 1) w₁
          ((side.entryRule conf rx e).withProtocol side ipprotoUdp) rfl (by omega)
        obtain ⟨w₃, run₃, others⟩ := ih (i + 2) w₂ (by omega)
        exact ⟨w₃, by simp [version, split, run₁, run₂, run₃], cons tcp (cons udp others)⟩
      · have rules : side.rulesOf conf rx e = [side.entryRule conf rx e] := by
          simp [Side.rulesOf, version, split]
        rw [rules] at room ⊢
        simp only [List.length_cons, List.length_nil] at room
        obtain ⟨w₁, run₁, one⟩ := adds i w (side.entryRule conf rx e) rfl (by omega)
        obtain ⟨w₂, run₂, others⟩ := ih (i + 1) w₁ (by omega)
        exact ⟨w₂, by simp [version, split, run₁, run₂], cons one others⟩
    · have rules : side.rulesOf conf rx e = [] := by simp [Side.rulesOf, version]
      rw [rules] at room ⊢
      obtain ⟨w₁, run₁, others⟩ := ih i w (by simpa using room)
      exact ⟨w₁, by simp [version, run₁], by simpa using others⟩

/-- Entries of the other family are passed over. -/
theorem addFirewall_skips {conf : FirewallConf} {rx : RuleAttrib}
    {side : Side} {entries : List FirewallEntry} (others : ∀ e ∈ entries, e.ipVsn ≠ side.version)
    (i : Nat) (w : IpacmWan) : side.addFirewall answers conf rx entries i w = some (true, w) := by
  induction entries with
  | nil => rfl
  | cons e rest ih =>
    rw [Side.addFirewall, if_neg (others e (by simp))]
    exact ih fun e member => others e (by simp [member])

/-- The count of entries only saves a loop that would do nothing. -/
theorem configV4_eq (found : answers.routingTable .lanV4 = true)
    (conf : FirewallConf) (rx : RuleAttrib) (w : IpacmWan) :
    configV4 answers conf rx (conf.entries.countP (·.ipVsn = 4)) w =
      andThen (if conf.firewallEnable then sideV4.addFirewall answers conf rx conf.entries 0 w
        else some (true, w)) fun w => w.addRule answers .v4 (defaultRuleV4 conf rx) (saveDft 0) := by
  rw [configV4]
  split
  next none_v4 =>
    have others : ∀ e ∈ conf.entries, e.ipVsn ≠ sideV4.version := by
      simpa [List.countP_eq_zero, sideV4] using none_v4
    simp only [addFirewall_skips others, ite_self, andThen_success]
  next => rfl

theorem configV6_eq (found : answers.routingTable .wanV6 = true)
    (conf : FirewallConf) (rx : RuleAttrib) (w : IpacmWan) :
    configV6 answers conf rx (conf.entries.countP (¬ ·.ipVsn = 4)) w =
      andThen (if conf.firewallEnable then sideV6.addFirewall answers conf rx conf.entries 0 w
        else some (true, w)) fun w => andThen (w.addRule answers .v6 (icmpRule rx) (saveDft 2)) fun w =>
      w.addRule answers .v6 (defaultRuleV6 conf rx) (saveDft 1) := by
  rw [configV6]
  split
  next none_v6 =>
    have others : ∀ e ∈ conf.entries, e.ipVsn ≠ sideV6.version := by
      intro e member six
      have four : e.ipVsn = 4 := by simpa using List.countP_eq_zero.mp none_v6 e member
      rw [four] at six
      exact absurd six (by decide)
    simp only [addFirewall_skips others, ite_self, andThen_success]
  next => rfl

section Installs

variable {answers : FilterAnswers} (succeed : answers.Succeed) (conf : FirewallConf) (rx : RuleAttrib)
  {w : IpacmWan}

include succeed

/-- A rule at the rear is appended, and `save` gets the handle that the kernel answers. -/
theorem addRule_rear {ip : IpaIpType} {rule : FltRule} (atRear : rule.atRear = true)
    (save : UInt32 → IpacmWan → Option IpacmWan) (w : IpacmWan) :
    w.addRule answers ip rule save = (save ((answers.add (w.tables ip) rule).getD 0)
        { w with tables := update w.tables ip (w.tables ip ++ [rule]) }).map (true, ·) := by
  obtain ⟨hdl, added⟩ := Option.isSome_iff_exists.mp (succeed.add (w.tables ip) rule)
  simp [IpacmWan.addRule, IpacmWan.addFilteringRule, added, atRear]

variable {k : Kernel P} {side : Side} (lawful : side.Lawful k)

include lawful

theorem addEntryRule (rule : FltRule) (atRear : rule.atRear = true) {i : Nat}
    (room : i < maxFirewallEntries) (w : IpacmWan) :
    ∃ w', w.addRule answers side.ip rule (side.save i) = some (true, w') ∧
      w'.tables = update w.tables side.ip (w.tables side.ip ++ [rule]) := by
  rw [addRule_rear succeed atRear]
  obtain ⟨w', saved, tables⟩ := lawful.save_in i _ _ room
  exact ⟨w', by rw [saved, Option.map_some], tables⟩

/-- The loop appends the rules of the entries when there is room for their handles. -/
theorem addFirewall_installs (entries : List FirewallEntry) : ∀ (i : Nat) (w : IpacmWan),
    i + (entries.flatMap (side.rulesOf conf rx)).length ≤ maxFirewallEntries →
    ∃ w', side.addFirewall answers conf rx entries i w = some (true, w') ∧ w'.tables = update w.tables side.ip
        (w.tables side.ip ++ entries.flatMap (side.rulesOf conf rx)) := by
  refine addFirewall_composes
    (R := fun _ rules w w' => w'.tables = update w.tables side.ip (w.tables side.ip ++ rules))
    (fun _ _ => by simp) (fun {_ _ _ _ _ _} one others => ?_)
    (fun i w rule atRear room => addEntryRule succeed lawful rule atRear room w) entries
  simp [others, one]

/-- Without that room it writes past the handles. -/
theorem addFirewall_overflow (entries : List FirewallEntry) : ∀ (i : Nat) (w : IpacmWan),
    i ≤ maxFirewallEntries → maxFirewallEntries < i + (entries.flatMap (side.rulesOf conf rx)).length →
    side.addFirewall answers conf rx entries i w = none := by
  induction entries with
  | nil =>
    intro i w le full
    simp only [List.flatMap_nil, List.length_nil] at full
    omega
  | cons e rest ih =>
    intro i w le full
    rw [List.flatMap_cons, List.length_append] at full
    rw [Side.addFirewall]
    have stops : ∀ (i : Nat) (w : IpacmWan), ¬ i < maxFirewallEntries → ∀ rule : FltRule,
        rule.atRear = true → w.addRule answers side.ip rule (side.save i) = none := by
      intro i w no_room rule atRear
      rw [addRule_rear succeed atRear, lawful.save_out i _ _ no_room, Option.map_none]
    have rear : ∀ v, ((side.entryRule conf rx e).withProtocol side v).atRear = true := fun _ => rfl
    by_cases version : e.ipVsn = side.version
    · by_cases split : side.protocol e.attrib = ipprotoTcpUdp
      · have two : (side.rulesOf conf rx e).length = 2 := by simp [Side.rulesOf, version, split]
        by_cases room : i < maxFirewallEntries
        · obtain ⟨w₁, run₁, -⟩ := addEntryRule succeed lawful
            ((side.entryRule conf rx e).withProtocol side ipprotoTcp) rfl room w
          by_cases room' : i + 1 < maxFirewallEntries
          · obtain ⟨w₂, run₂, -⟩ := addEntryRule succeed lawful
              ((side.entryRule conf rx e).withProtocol side ipprotoUdp) rfl room' w₁
            simp [version, split, run₁, run₂, ih (i + 2) w₂ (by omega) (by omega)]
          · simp [version, split, run₁, stops _ _ room', rear]
        · simp [version, split, stops _ _ room, rear]
      · have one : (side.rulesOf conf rx e).length = 1 := by simp [Side.rulesOf, version, split]
        by_cases room : i < maxFirewallEntries
        · obtain ⟨w₁, run₁, -⟩ := addEntryRule succeed lawful (side.entryRule conf rx e) rfl room w
          simp [version, split, run₁, ih (i + 1) w₁ (by omega) (by omega)]
        · simp [version, split, stops _ _ room _ (rfl : (side.entryRule conf rx e).atRear = true)]
    · have none_of : (side.rulesOf conf rx e).length = 0 := by simp [Side.rulesOf, version]
      simp [version, ih i w le (by omega)]

end Installs

/-! ### The whole function -/

section Whole

variable {answers : FilterAnswers} (succeed : answers.Succeed) {k : Kernel P}
  (documented : k.Documented)

include succeed documented

/-- The entries of a family, when the firewall is enabled, and what is added behind them. -/
theorem entries_then (ip : IpaIpType) (conf : FirewallConf) (rx : RuleAttrib) (w : IpacmWan)
    {next : IpacmWan → Option (Bool × IpacmWan)} {rules : List FltRule}
    (adds : ∀ w, ∃ w', next w = some (true, w') ∧ w'.tables = update w.tables ip (w.tables ip ++ rules)) :
    (((sideOf ip).emitted conf rx).length ≤ maxFirewallEntries →
      ∃ w', andThen (if conf.firewallEnable = true then
          (sideOf ip).addFirewall answers conf rx conf.entries 0 w else some (true, w)) next = some (true, w') ∧
        w'.tables = update w.tables ip (w.tables ip ++ ((sideOf ip).emitted conf rx ++ rules))) ∧
    (¬ ((sideOf ip).emitted conf rx).length ≤ maxFirewallEntries → andThen (if conf.firewallEnable = true then
        (sideOf ip).addFirewall answers conf rx conf.entries 0 w else some (true, w)) next = none) := by
  obtain ⟨lawful, is_ip⟩ := sideOf_lawful documented ip
  cases enabled : conf.firewallEnable with
  | false =>
    rw [Side.emitted, enabled]
    exact ⟨fun _ => by simpa using adds w, fun full => absurd (Nat.zero_le _) full⟩
  | true =>
    rw [Side.emitted, if_pos enabled]
    simp only [if_true]
    constructor
    · intro room
      obtain ⟨w₁, run₁, tables₁⟩ := addFirewall_installs succeed conf rx lawful conf.entries 0 w (by omega)
      obtain ⟨w', run, tables⟩ := adds w₁
      rw [is_ip] at tables₁
      exact ⟨w', by rw [run₁, andThen_success, run], by simp [tables, tables₁]⟩
    · intro full
      rw [addFirewall_overflow succeed conf rx lawful conf.entries 0 w (Nat.zero_le _) (by omega), andThen_none]

theorem configV4_installs (conf : FirewallConf) (rx : RuleAttrib) (w : IpacmWan) :
    (((sideOf .v4).emitted conf rx).length ≤ maxFirewallEntries →
      ∃ w', configV4 answers conf rx (conf.entries.countP (·.ipVsn = 4)) w = some (true, w') ∧
        w'.tables = update w.tables .v4 (w.tables .v4 ++ (sideV4.emitted conf rx ++ [defaultRuleV4 conf rx]))) ∧
    (¬ ((sideOf .v4).emitted conf rx).length ≤ maxFirewallEntries →
      configV4 answers conf rx (conf.entries.countP (·.ipVsn = 4)) w = none) := by
  rw [configV4_eq (succeed.routingTable _)]
  exact entries_then succeed documented .v4 conf rx w fun w => ⟨_, addRule_rear succeed rfl _ w, rfl⟩

theorem configV6_installs (conf : FirewallConf) (rx : RuleAttrib) (w : IpacmWan) :
    (((sideOf .v6).emitted conf rx).length ≤ maxFirewallEntries →
      ∃ w', configV6 answers conf rx (conf.entries.countP (¬ ·.ipVsn = 4)) w = some (true, w') ∧
        w'.tables = update w.tables .v6
          (w.tables .v6 ++ (sideV6.emitted conf rx ++ [icmpRule rx, defaultRuleV6 conf rx]))) ∧
    (¬ ((sideOf .v6).emitted conf rx).length ≤ maxFirewallEntries →
      configV6 answers conf rx (conf.entries.countP (¬ ·.ipVsn = 4)) w = none) := by
  rw [configV6_eq (succeed.routingTable _)]
  refine entries_then succeed documented .v6 conf rx w fun w => ?_
  rw [addRule_rear succeed rfl, saveDft, Option.map_some, andThen_success, addRule_rear succeed rfl]
  exact ⟨_, rfl, by simp⟩

/-- The code installs the rules of the family when their handles fit, and writes past the array of
handles otherwise. -/
theorem config_installs {w : IpacmWan} {rxs : List RuleAttrib} {rx : RuleAttrib}
    (registered : w.rxProp = some rxs) (first : rxs[0]? = some rx) (read : Option FirewallConf)
    (ip : IpaIpType) :
    (((sideOf ip).emitted (read.getD .zero) rx).length ≤ maxFirewallEntries →
      ∃ w', w.configDftFirewallRules answers read ip = some (true, w') ∧
        w'.tables ip = w.tables ip ++ staRules (read.getD .zero) rx ip) ∧
    (¬ ((sideOf ip).emitted (read.getD .zero) rx).length ≤ maxFirewallEntries →
      w.configDftFirewallRules answers read ip = none) := by
  generalize conf_eq : read.getD .zero = conf
  cases ip with
  | v4 =>
    have runs : w.configDftFirewallRules answers read .v4 =
        configV4 answers conf rx (conf.entries.countP (·.ipVsn = 4)) w := by
      simp [IpacmWan.configDftFirewallRules, registered, first, conf_eq]
    rw [runs]
    refine ⟨fun room => ?_, (configV4_installs succeed documented conf rx w).2⟩
    obtain ⟨w', run, tables⟩ := (configV4_installs succeed documented conf rx w).1 room
    exact ⟨w', run, by simp [tables, staRules]⟩
  | v6 =>
    -- the fragment rule comes first when the firewall is enabled
    obtain ⟨w₁, frag, tables₁⟩ : ∃ w₁, (if conf.firewallEnable = true then
        w.addRule answers .v6 (fragRule rx) saveFrag else some (true, w)) = some (true, w₁) ∧
        w₁.tables .v6 = w.tables .v6 ++ if conf.firewallEnable = true then [fragRule rx] else [] := by
      split
      · exact ⟨_, addRule_rear succeed rfl _ w, by simp⟩
      · exact ⟨w, rfl, by simp⟩
    have runs : w.configDftFirewallRules answers read .v6 =
        configV6 answers conf rx (conf.entries.countP (¬ ·.ipVsn = 4)) w₁ := by
      simp [IpacmWan.configDftFirewallRules, registered, first, conf_eq, frag]
    rw [runs]
    refine ⟨fun room => ?_, (configV6_installs succeed documented conf rx w₁).2⟩
    obtain ⟨w', run, tables⟩ := (configV6_installs succeed documented conf rx w₁).1 room
    exact ⟨w', run, by simp [tables, tables₁, staRules]⟩

end Whole

/-! ### What the rules decide -/

section Verdict

variable {k : Kernel P} {p : P} {rx : RuleAttrib} {conf : FirewallConf} {e : FirewallEntry}

/-- Whether the packet meets what the rule of an entry asks for, apart from metadata. -/
def Met (k : Kernel P) (side : Side) (rx : RuleAttrib) (e : FirewallEntry) (p : P) : Prop :=
  ∀ bit ∈ e.attrib.attribMask ∪ rx.attribMask, bit ≠ .metaData → e.meets k side bit p = true

theorem hits_and_met_iff {side : Side} (plain : .metaData ∉ e.attrib.attribMask) :
    (e.hits k side p = true ∧ ∀ bit ∈ rx.attribMask, bit ≠ .metaData → e.meets k side bit p = true) ↔
    e.ipVsn = side.version ∧ Met k side rx e p := by
  simp only [FirewallEntry.hits, decide_eq_true_eq, Met, Finset.mem_union]
  constructor
  · rintro ⟨⟨version, own⟩, others⟩
    exact ⟨version, fun bit member other => member.elim (own bit) fun of_rx => others bit of_rx other⟩
  · rintro ⟨version, met⟩
    refine ⟨⟨version, fun bit member => met bit (.inl member) ?_⟩,
      fun bit member other => met bit (.inr member) other⟩
    rintro rfl
    exact plain member

/-- Two tests that differ at one place, either of which will do, are one test. -/
theorem ite_either {β : Type} [DecidableEq β] {s : Finset β} {skip place : β} {c c' : Bool} {rest : β → Bool} :
    ((∀ b ∈ s, b ≠ skip → (if b = place then c else rest b) = true) ∨
        ∀ b ∈ s, b ≠ skip → (if b = place then c' else rest b) = true) ↔
      ∀ b ∈ s, b ≠ skip → (if b = place then c || c' else rest b) = true := by
  constructor
  · rintro (first | second) b member other
    · have here := first b member other
      split at here <;> simp_all
    · have here := second b member other
      split at here <;> simp_all
  · intro either
    by_cases asked : place ∈ s ∧ place ≠ skip
    · -- the place is tested, so one of the two holds there
      have here := either place asked.1 asked.2
      rw [if_pos rfl, Bool.or_eq_true] at here
      refine here.imp (fun holds b member other => ?_) fun holds b member other => ?_
      all_goals
        have there := either b member other
        split <;> simp_all
    · refine .inl fun b member other => ?_
      have there := either b member other
      by_cases same : b = place
      · exact absurd ⟨same ▸ member, same ▸ other⟩ asked
      · simpa [same] using there

variable (documented : k.Documented)

include documented

/-- A rule with the metadata of the rx property is decided by the other attributes. -/
theorem hit_withRx {side : Side} {a b : RuleAttrib} (rx_hit : k.hit side.ip rx p = true)
    (plain : .metaData ∉ a.attribMask) (mask : b.attribMask = a.attribMask ∪ rx.attribMask)
    (metaData : b.AgreeOn rx .metaData) :
    k.hit side.ip b p = true ↔
      ∀ bit ∈ a.attribMask ∪ rx.attribMask, bit ≠ .metaData → k.meets side.ip bit b p = true := by
  have rx_met : ∀ bit ∈ rx.attribMask, k.meets side.ip bit rx p = true := by
    simpa [Kernel.hit] using rx_hit
  simp only [Kernel.hit, decide_eq_true_eq, mask]
  refine ⟨fun met bit member _ => met bit member, fun met bit member => ?_⟩
  by_cases is_meta : bit = .metaData
  · subst is_meta
    rw [documented.reads side.ip .metaData b rx p metaData]
    exact rx_met _ ((Finset.mem_union.mp member).resolve_left plain)
  · exact met bit member is_meta

/-- The rules of an entry match when the entry does, in the attributes of the rx property too. -/
theorem rulesOf_any (ip : IpaIpType) (plain : .metaData ∉ e.attrib.attribMask) (rx_hit : k.hit ip rx p = true) :
    ((sideOf ip).rulesOf conf rx e).any (k.hitRule ip p) = true ↔ e.hits k (sideOf ip) p = true ∧
        ∀ bit ∈ rx.attribMask, bit ≠ .metaData → e.meets k (sideOf ip) bit p = true := by
  obtain ⟨lawful, is_ip⟩ := sideOf_lawful documented ip
  generalize sideOf ip = side at lawful is_ip ⊢
  subst is_ip
  rw [hits_and_met_iff plain]
  by_cases version : e.ipVsn = side.version
  · have own : ∀ bit, bit ≠ .metaData →
        k.meets side.ip bit (e.attrib.withRx rx) p = k.meets side.ip bit e.attrib p := fun bit other =>
      documented.reads _ _ _ _ _ (withRx_agreeOn _ _ other)
    -- an entry for TCP and UDP makes two rules, any other one
    by_cases split : side.protocol e.attrib = ipprotoTcpUdp
    · -- one rule for each protocol, alike in everything else
      have one : ∀ value, k.hit side.ip (side.setProtocol value (e.attrib.withRx rx)) p = true ↔
          ∀ bit ∈ e.attrib.attribMask ∪ rx.attribMask, bit ≠ .metaData →
            (if bit = side.protocolBit then value == k.protocol p
              else k.meets side.ip bit e.attrib p) = true := by
        intro value
        have agree : (side.setProtocol value (e.attrib.withRx rx)).AgreeOn rx .metaData := by
          have kept := lawful.metaData_set value (e.attrib.withRx rx)
          exact ⟨kept.1.trans rfl, kept.2.trans rfl⟩
        rw [hit_withRx documented rx_hit plain (lawful.mask_set _ _) agree]
        refine forall₃_congr fun bit _ other => ?_
        by_cases is_protocol : bit = side.protocolBit
        · subst is_protocol
          rw [if_pos rfl, lawful.met_iff, lawful.protocol_set]
        · rw [if_neg is_protocol, documented.reads _ _ _ _ _ (lawful.agree_set _ _ _ is_protocol),
            own bit other]
      have met : Met k side rx e p ↔ ∀ bit ∈ e.attrib.attribMask ∪ rx.attribMask, bit ≠ .metaData →
          (if bit = side.protocolBit then ipprotoTcp == k.protocol p || ipprotoUdp == k.protocol p
            else k.meets side.ip bit e.attrib p) = true := by
        refine forall₃_congr fun bit _ _ => ?_
        simp only [FirewallEntry.meets, split, and_true, BEq.comm (b := k.protocol p)]
      have rules : (side.rulesOf conf rx e).any (k.hitRule side.ip p) = true ↔
          k.hit side.ip (side.setProtocol ipprotoTcp (e.attrib.withRx rx)) p = true ∨
            k.hit side.ip (side.setProtocol ipprotoUdp (e.attrib.withRx rx)) p = true := by
        simp [Side.rulesOf, version, split, FltRule.withProtocol, Side.entryRule, Kernel.hitRule]
      rw [rules, one, one, met, ite_either]
      exact ⟨fun all => ⟨version, all⟩, fun all => all.2⟩
    · have rules : (side.rulesOf conf rx e).any (k.hitRule side.ip p) = true ↔
          k.hit side.ip (e.attrib.withRx rx) p = true := by
        simp [Side.rulesOf, version, split, Side.entryRule, Kernel.hitRule]
      rw [rules, hit_withRx documented (b := e.attrib.withRx rx) rx_hit plain rfl ⟨rfl, rfl⟩]
      refine ⟨fun met => ⟨version, fun bit member other => ?_⟩, fun met bit member other => ?_⟩
      · rw [FirewallEntry.meets, if_neg (fun both => split both.2), ← own bit other]
        exact met bit member other
      · have := met.2 bit member other
        rwa [FirewallEntry.meets, if_neg (fun both => split both.2), ← own bit other] at this
  · simp [Side.rulesOf, version]

theorem emitted_any (conf : FirewallConf) (ip : IpaIpType) (enabled : conf.firewallEnable = true)
    (rx_hit : k.hit ip rx p = true) :
    ((sideOf ip).emitted conf rx).any (k.hitRule ip p) = true ↔
      ∃ e ∈ conf.entries, e.hits k (sideOf ip) p = true ∧
        ∀ bit ∈ rx.attribMask, bit ≠ .metaData → e.meets k (sideOf ip) bit p = true := by
  rw [Side.emitted, if_pos enabled, List.any_flatMap, List.any_eq_true]
  exact exists_congr fun e => and_congr_right fun member =>
    rulesOf_any documented ip (conf.plain e member) rx_hit

/-- The default rule matches whatever the rx property matches. -/
theorem default_hit {ip : IpaIpType} {a : RuleAttrib} (rx_hit : k.hit ip rx p = true)
    (mask : a.attribMask = insert .dstAddr rx.attribMask) (any_dst : k.meets ip .dstAddr a p = true)
    (agree : ∀ bit, bit ≠ .dstAddr → a.AgreeOn rx bit) : k.hit ip a p = true := by
  have rx_met : ∀ bit ∈ rx.attribMask, k.meets ip bit rx p = true := by
    simpa [Kernel.hit] using rx_hit
  simp only [Kernel.hit, decide_eq_true_eq, mask]
  intro bit member
  by_cases is_dst : bit = .dstAddr
  · rw [is_dst]
    exact any_dst
  · rw [documented.reads ip bit a rx p (agree bit is_dst)]
    exact rx_met bit ((Finset.mem_insert.mp member).resolve_left is_dst)

theorem defaultV4_hit (rx_hit : k.hit .v4 rx p = true) :
    k.hitRule .v4 p (defaultRuleV4 conf rx) = true := by
  refine default_hit documented rx_hit rfl (documented.dstAddrV4 _ _ rfl rfl) fun bit other => ?_
  cases bit with
  | dstAddr => exact absurd rfl other
  | metaData => exact ⟨rfl, rfl⟩
  | _ => rfl

theorem defaultV6_hit (rx_hit : k.hit .v6 rx p = true) :
    k.hitRule .v6 p (defaultRuleV6 conf rx) = true := by
  refine default_hit documented rx_hit rfl (documented.dstAddrV6 _ _ rfl rfl) fun bit other => ?_
  cases bit with
  | dstAddr => exact absurd rfl other
  | metaData => exact ⟨rfl, rfl⟩
  | _ => rfl

/-- A rule on a next header misses the packets with another one. -/
theorem nextHdrIs_miss {value : UInt8} (other : k.protocol p ≠ value) :
    k.hit .v6 (nextHdrIs value rx) p = false := by
  simp only [Kernel.hit, decide_eq_false_iff_not]
  intro met
  have here := met .nextHdr (by simp [nextHdrIs])
  rw [documented.nextHdrV6, beq_iff_eq] at here
  exact other here.symm

/-- The rule for fragments, where it is installed. -/
theorem fragRules_miss (other : k.protocol p ≠ ipprotoFragHdr) (conf : FirewallConf) (rx : RuleAttrib) :
    ∀ r ∈ (if conf.firewallEnable = true then [fragRule rx] else []), k.hitRule .v6 p r = false := by
  intro r member
  split at member
  · obtain rfl := List.mem_singleton.mp member
    exact nextHdrIs_miss documented other
  · simp at member

/-- The entries decide, or else the default rule does. -/
theorem staRules_decision (conf : FirewallConf) (ip : IpaIpType) (rx_hit : k.hit ip rx p = true)
    (whole : ip = .v6 → k.protocol p ≠ ipprotoFragHdr ∧ k.protocol p ≠ ipprotoIcmp6) :
    decision (k.hitRule ip p) FltRule.action (staRules conf rx ip) =
      some (if ((sideOf ip).emitted conf rx).any (k.hitRule ip p) = true then
          if conf.ruleActionAccept then (sideOf ip).accept else .passToException
        else (sideOf ip).defaultAction conf) := by
  have uniform : ∀ r ∈ (sideOf ip).emitted conf rx, r.action =
      if conf.ruleActionAccept then (sideOf ip).accept else .passToException := by
    intro r member
    unfold Side.emitted at member
    split at member
    · obtain ⟨e, -, member⟩ := List.mem_flatMap.mp member
      unfold Side.rulesOf at member
      split at member
      · split at member
        · simp only [List.mem_cons, List.not_mem_nil, or_false] at member
          rcases member with rfl | rfl <;> rfl
        · obtain rfl := List.mem_singleton.mp member
          rfl
      · simp at member
    · simp at member
  cases ip with
  | v4 =>
    rw [staRules, ← show (sideOf .v4) = sideV4 from rfl, decision_append_of_uniform uniform,
      decision_cons_of_hit (defaultV4_hit documented rx_hit)]
    split <;> rfl
  | v6 =>
    obtain ⟨no_frag, no_icmp⟩ := whole rfl
    have icmp : k.hitRule .v6 p (icmpRule rx) = false := nextHdrIs_miss documented no_icmp
    have frag := fragRules_miss documented no_frag conf rx
    rw [staRules, ← show (sideOf .v6) = sideV6 from rfl, decision_append_of_miss frag,
      decision_append_of_uniform uniform,
      decision_cons_of_miss icmp,
      decision_cons_of_hit (defaultV6_hit documented rx_hit)]
    split <;> rfl

end Verdict

theorem Side.emitted_length (side : Side) {conf : FirewallConf} (enabled : conf.firewallEnable = true)
    (rx : RuleAttrib) : (side.emitted conf rx).length = side.ruleCount conf := by
  rw [Side.emitted, if_pos enabled, Side.length_rulesOf, Side.ruleCount]

/-- Of two actions that differ, the one for what matches is taken where it should be, as long as nothing
matches that should not. -/
theorem matched_iff {a b : FltAction} (apart : a ≠ b) {m l : Bool} (onto : m = true → l = true) :
    some (if m = true then a else b) = some (if l = true then a else b) ↔ (l = true → m = true) := by
  cases m with
  | true => simp [onto rfl]
  | false =>
    cases l with
    | true => simp [Ne.symm apart]
    | false => simp

/-- For a packet that the rx property matches, not an IPv6 fragment or ICMPv6, the installed rules
decide as the policy says, exactly when the handles of the rules fit and no attribute of the rx
property is lost. -/
theorem firewall_decides_policy (k : Kernel P) (documented : k.Documented) (answers : FilterAnswers)
    (succeed : answers.Succeed) (w : IpacmWan) (rxs : List RuleAttrib)
    (registered : w.rxProp = some rxs) (rx : RuleAttrib) (first : rxs[0]? = some rx)
    (read : Option FirewallConf) (ip : IpaIpType) (p : P) (rx_hit : k.hit ip rx p = true)
    (whole : ip = .v6 → k.protocol p ≠ ipprotoFragHdr ∧ k.protocol p ≠ ipprotoIcmp6) :
    (∃ w', w.configDftFirewallRules answers read ip = some (true, w') ∧ decision (k.hitRule ip p) FltRule.action
        ((w'.tables ip).drop (w.tables ip).length) = some ((sideOf ip).policy k (read.getD .zero) p)) ↔
    ((read.getD .zero).firewallEnable = true → (sideOf ip).ruleCount (read.getD .zero) ≤ maxFirewallEntries ∧
        (sideOf ip).RxMet k (read.getD .zero) rx p) := by
  obtain ⟨installs, overflows⟩ := config_installs succeed documented registered first read ip
  generalize conf_eq : read.getD .zero = conf at installs overflows ⊢
  obtain ⟨lawful, -⟩ := sideOf_lawful documented ip
  have decided := staRules_decision documented conf ip rx_hit whole
  cases enabled : conf.firewallEnable with
  | false =>
    have empty : (sideOf ip).emitted conf rx = [] := by simp [Side.emitted, enabled]
    obtain ⟨w', run, tables⟩ := installs (by simp [empty])
    refine ⟨fun _ off => by simp at off, fun _ => ⟨w', run, ?_⟩⟩
    rw [tables, List.drop_left, decided]
    simp [empty, Side.policy, Side.defaultAction, enabled]
  | true =>
    simp only [forall_const]
    rw [← Side.emitted_length _ enabled rx]
    by_cases room : ((sideOf ip).emitted conf rx).length ≤ maxFirewallEntries
    · obtain ⟨w', run, tables⟩ := installs room
      have outcome : (∃ w', w.configDftFirewallRules answers read ip = some (true, w') ∧
          decision (k.hitRule ip p) FltRule.action ((w'.tables ip).drop (w.tables ip).length) =
            some ((sideOf ip).policy k conf p)) ↔
          decision (k.hitRule ip p) FltRule.action (staRules conf rx ip) =
            some ((sideOf ip).policy k conf p) := by
        constructor
        · rintro ⟨w'', run', decides⟩
          obtain rfl : w' = w'' := by simpa using run.symm.trans run'
          rwa [tables, List.drop_left] at decides
        · intro decides
          exact ⟨w', run, by rwa [tables, List.drop_left]⟩
      rw [outcome, decided]
      have listed : (conf.entries.any fun e => e.hits k (sideOf ip) p) = true ↔
          ∃ e ∈ conf.entries, e.hits k (sideOf ip) p = true := by simp
      have matched := emitted_any documented conf ip enabled rx_hit
      have apart := lawful.accept_ne
      -- a rule that matches belongs to an entry that does; the condition is the converse
      have same : (sideOf ip).RxMet k conf rx p ↔ ((conf.entries.any fun e => e.hits k (sideOf ip) p) = true →
            ((sideOf ip).emitted conf rx).any (k.hitRule ip p) = true) := by
        rw [Side.RxMet, listed, matched]
      have onto : ((sideOf ip).emitted conf rx).any (k.hitRule ip p) = true →
          (conf.entries.any fun e => e.hits k (sideOf ip) p) = true := by
        rw [listed, matched]
        rintro ⟨e, member, hits, -⟩
        exact ⟨e, member, hits⟩
      rw [same, Side.policy, Side.defaultAction, enabled, and_iff_right room]
      generalize (conf.entries.any fun e => e.hits k (sideOf ip) p) = l at onto ⊢
      generalize ((sideOf ip).emitted conf rx).any (k.hitRule ip p) = m at onto ⊢
      cases conf.ruleActionAccept with
      | true => exact matched_iff apart onto
      | false => exact matched_iff (Ne.symm apart) onto
    · refine ⟨fun ⟨w', run, _⟩ => ?_, fun both => absurd both.1 room⟩
      rw [overflows room] at run
      simp at run

/-! ### Samples -/

/-- A packet of either family. -/
structure SamplePacket where
  protocol : UInt8
  srcV4 : UInt32 := 0
  dstV4 : UInt32 := 0
  srcV6 : Vector UInt32 4 := .replicate 4 0
  dstV6 : Vector UInt32 4 := .replicate 4 0
  srcPort : UInt16 := 0
  dstPort : UInt16 := 0
  metaData : UInt32 := 0

def underMask (mask x y : UInt32) : Bool := x &&& mask == y &&& mask

/-- A kernel that compares the named fields; it knows no others. -/
def sampleKernel : Kernel SamplePacket where
  protocol := SamplePacket.protocol
  meets ip bit a p :=
    match ip, bit with
    | .v4, .protocol => a.v4.protocol == p.protocol
    | .v6, .nextHdr => a.v6.nextHdr == p.protocol
    | .v4, .srcAddr => underMask a.v4.srcAddrMask a.v4.srcAddr p.srcV4
    | .v4, .dstAddr => underMask a.v4.dstAddrMask a.v4.dstAddr p.dstV4
    | .v6, .srcAddr => (List.finRange 4).all fun i =>
        underMask (a.v6.srcAddrMask.get i) (a.v6.srcAddr.get i) (p.srcV6.get i)
    | .v6, .dstAddr => (List.finRange 4).all fun i =>
        underMask (a.v6.dstAddrMask.get i) (a.v6.dstAddr.get i) (p.dstV6.get i)
    | _, .srcPort => a.srcPort == p.srcPort
    | _, .dstPort => a.dstPort == p.dstPort
    | _, .srcPortRange => decide (a.srcPortLo ≤ p.srcPort ∧ p.srcPort ≤ a.srcPortHi)
    | _, .dstPortRange => decide (a.dstPortLo ≤ p.dstPort ∧ p.dstPort ≤ a.dstPortHi)
    | _, .metaData => underMask a.metaDataMask a.metaData p.metaData
    | _, _ => false

theorem sampleKernel_documented : sampleKernel.Documented where
  protocolV4 _ _ := rfl
  nextHdrV6 _ _ := rfl
  dstAddrV4 a p dst mask := by simp [sampleKernel, underMask, mask]
  dstAddrV6 a p dst mask := by
    have zero : ∀ i : Fin 4, (Vector.replicate 4 0 : Vector UInt32 4).get i = 0 := by decide
    simp only [sampleKernel, underMask, dst, mask, zero, UInt32.and_zero, beq_self_eq_true,
      List.all_eq_true, implies_true]
  -- each bit is read off its own fields, which agreeing attributes share
  reads ip bit a b p agree := by
    cases bit with
    | metaData => cases ip <;> simp [sampleKernel, agree.1, agree.2]
    | protocol =>
      have protocol : a.v4.protocol = b.v4.protocol := agree
      cases ip <;> simp [sampleKernel, protocol]
    | nextHdr =>
      have nextHdr : a.v6.nextHdr = b.v6.nextHdr := agree
      cases ip <;> simp [sampleKernel, nextHdr]
    | dstAddr =>
      simp only [RuleAttrib.AgreeOn, Prod.mk.injEq] at agree
      cases ip <;> simp [sampleKernel, agree]
    | srcAddr =>
      have v4 : a.others.v4 = b.others.v4 := congrArg RuleAttrib.v4 agree
      have v6 : a.others.v6 = b.others.v6 := congrArg RuleAttrib.v6 agree
      simp only [RuleAttrib.others, AttribV4.mk.injEq, AttribV6.mk.injEq] at v4 v6
      cases ip <;> simp [sampleKernel, v4, v6]
    | srcPort =>
      have others : a.others = b.others := agree
      have port : a.srcPort = b.srcPort := by
        simpa [RuleAttrib.others] using congrArg RuleAttrib.srcPort others
      cases ip <;> simp [sampleKernel, port]
    | dstPort =>
      have others : a.others = b.others := agree
      have port : a.dstPort = b.dstPort := by
        simpa [RuleAttrib.others] using congrArg RuleAttrib.dstPort others
      cases ip <;> simp [sampleKernel, port]
    | srcPortRange =>
      have others : a.others = b.others := agree
      have lo : a.srcPortLo = b.srcPortLo := by
        simpa [RuleAttrib.others] using congrArg RuleAttrib.srcPortLo others
      have hi : a.srcPortHi = b.srcPortHi := by
        simpa [RuleAttrib.others] using congrArg RuleAttrib.srcPortHi others
      cases ip <;> simp [sampleKernel, lo, hi]
    | dstPortRange =>
      have others : a.others = b.others := agree
      have lo : a.dstPortLo = b.dstPortLo := by
        simpa [RuleAttrib.others] using congrArg RuleAttrib.dstPortLo others
      have hi : a.dstPortHi = b.dstPortHi := by
        simpa [RuleAttrib.others] using congrArg RuleAttrib.dstPortHi others
      cases ip <;> simp [sampleKernel, lo, hi]
    | _ => cases ip <;> rfl

def sampleAnswers : FilterAnswers where
  add table _ := some table.length.toUInt32
  routingTable _ := true

theorem sampleAnswers_succeed : sampleAnswers.Succeed := ⟨fun _ _ => rfl, fun _ => rfl⟩

def sampleWan : IpacmWan where
  rxProp := some [{ attribMask := {.metaData}, metaData := 1, metaDataMask := 0xff }, {}]

/-- TCP and UDP to one port. -/
def tcpUdpEntry (port : UInt16) : FirewallEntry where
  attrib := { attribMask := {.protocol, .dstPort}, dstPort := port, v4 := { protocol := ipprotoTcpUdp } }
  ipVsn := 4

/-- An accept list of TCP_UDP entries. -/
def tcpUdpList (n : Nat) (room : n ≤ maxFirewallEntries) : FirewallConf where
  entries := List.replicate n (tcpUdpEntry 80)
  ruleActionAccept := true
  firewallEnable := true
  bounded := by simpa using room
  plain e member := by
    obtain ⟨-, rfl⟩ := List.mem_replicate.mp member
    decide

theorem firewall_decides_policy_sample :
    ∃ w', sampleWan.configDftFirewallRules sampleAnswers (some (tcpUdpList 2 (by decide))) .v4 =
        some (true, w') ∧ decision (sampleKernel.hitRule .v4 { protocol := 17, dstPort := 80, metaData := 1 })
        FltRule.action (w'.tables .v4) = some .passToDstNat :=
  (firewall_decides_policy sampleKernel sampleKernel_documented sampleAnswers sampleAnswers_succeed
    sampleWan _ rfl _ rfl (some (tcpUdpList 2 (by decide))) .v4
    { protocol := 17, dstPort := 80, metaData := 1 } (by decide) (by simp)).mpr
    fun _ => ⟨by decide, fun _ =>
      ⟨tcpUdpEntry 80, List.mem_replicate.mpr ⟨by decide, rfl⟩, by decide, by decide⟩⟩

/-- Twenty-six TCP_UDP entries are within the limit, but take fifty-two handles. -/
theorem tcp_udp_entries_overflow :
    ¬ ∀ (read : Option FirewallConf) (ip : IpaIpType) (p : SamplePacket),
      (∀ rx ∈ sampleWan.rxProp.bind (·[0]?), sampleKernel.hit ip rx p = true) →
      (ip = .v6 → p.protocol ≠ ipprotoFragHdr ∧ p.protocol ≠ ipprotoIcmp6) →
      ∃ w', sampleWan.configDftFirewallRules sampleAnswers read ip = some (true, w') ∧
        decision (sampleKernel.hitRule ip p) FltRule.action (w'.tables ip) =
          some ((sideOf ip).policy sampleKernel (read.getD .zero) p) := by
  intro always
  have overflows := (config_installs sampleAnswers_succeed sampleKernel_documented
    (w := sampleWan) rfl rfl (some (tcpUdpList 26 (by decide))) .v4).2 (by decide)
  obtain ⟨w', run, -⟩ := always (some (tcpUdpList 26 (by decide))) .v4
    { protocol := 17, dstPort := 80, metaData := 1 } (by decide) (by simp)
  rw [overflows] at run
  simp at run

end Hima.Wan
