import Mathlib.Tactic.IntervalCases
import Hima.Wan.FirewallPolicy
import Hima.Wan.ModemFirewall

/-!
# Station and modem firewall agree

The two rule lists of one configuration correspond rule by rule, apart from the rules for IPv6
fragments and ICMPv6.
-/
namespace Hima.Wan

open RuleList ModemRule

variable {P E : Type}

/-- What becomes of a packet. -/
inductive Verdict where
  | accepted
  | host
deriving DecidableEq

def FltRule.verdict (ip : IpaIpType) (r : FltRule) : Option Verdict :=
  match ip, r.action with
  | .v4, .passToDstNat => some .accepted
  | .v6, .passToRouting => some .accepted
  | _, .passToException => some .host
  | _, _ => none

def ModemRule.verdict (ip : IpaIpType) (r : ModemRule E) : Option Verdict :=
  match ip, r.action, r.rtTblIdx with
  | .v4, .passToDstNat, _ => some .accepted
  | .v6, .passToRouting, .wanV6 => some .accepted
  | _, .passToRouting, .wanDl => some .host
  | _, _, _ => none

/-- The equations keep what the attributes match, in network order. -/
structure EqKernel.Preserves (k : EqKernel P E) : Prop where
  generates : ∀ ip a, (k.generateFltEq ip a).isSome
  answers : ∀ ip table, k.queryRtTblIndex ip table = true
  matching : ∀ ip a eq p, k.generateFltEq ip (changeToNetworkOrder ip a) = some eq →
    k.eqHit ip eq p = k.hit ip a p

/-- The number of rules written for a configuration. -/
def modemCount (conf : FirewallConf) (ip : IpaIpType) : Nat :=
  if conf.firewallEnable then (if ip = .v6 then 1 else 0) + (sideOf ip).ruleCount conf + 1 else 1

/-! ### Writing the array -/

theorem Build.length_written {b : Build E} (inside : b.pos ≤ maxFltRule) :
    b.written.length = b.pos := by
  simp [Build.written, inside]

theorem Build.put_written {b : Build E} (room : b.pos < maxFltRule) (rule : ModemRule E)
    (counted : Bool) : ∃ b', b.put rule counted = some (true, b') ∧ b'.pos = b.pos + 1 ∧
      b'.written = b.written ++ [rule] := by
  refine ⟨_, dif_pos room, rfl, ?_⟩
  simp only [Build.written, Vector.toList_set]
  rw [List.take_add_one, List.take_set_of_le (Nat.le_refl _)]
  simp [room]

theorem Build.put_overflow {b : Build E} (full : ¬ b.pos < maxFltRule) (rule : ModemRule E)
    (counted : Bool) : b.put rule counted = none := dif_neg full

/-! ### Rule by rule -/

/-- A station rule and a modem rule match the same packets and do the same with them. -/
def Alike (k : EqKernel P E) (ip : IpaIpType) (r : FltRule) (m : ModemRule E) : Prop :=
  (∀ p, k.hit ip r.attrib p = k.eqHit ip m.eqAttrib p) ∧ r.verdict ip = m.verdict ip

section Builds

variable {k : EqKernel P E} (preserves : k.Preserves)

include preserves

/-- The rule for attributes in network order is like the rule it is made from. -/
theorem add_alike {b : Build E} (room : b.pos < maxFltRule) (ip : IpaIpType) (r : FltRule)
    (does : FltAction × RtTable) (attrib : RuleAttrib) (counted : Bool)
    (ordered : attrib = changeToNetworkOrder ip r.attrib) (alike : ∀ eq, r.verdict ip =
      verdict (E := E) ip { action := does.1, rtTblIdx := does.2, attrib := attrib, eqAttrib := eq }) :
    ∃ b' m, b.add k ip does attrib counted = some (true, b') ∧ b'.pos = b.pos + 1 ∧
      b'.written = b.written ++ [m] ∧ Alike k ip r m := by
  obtain ⟨eq, generated⟩ := Option.isSome_iff_exists.mp (preserves.generates ip attrib)
  obtain ⟨b', put, pos, written⟩ := Build.put_written room
    { action := does.1, rtTblIdx := does.2, attrib := attrib, eqAttrib := eq } counted
  refine ⟨b', _, by simp [Build.add, generated, put], pos, written, fun p => ?_, alike eq⟩
  rw [ordered] at generated
  exact (preserves.matching ip r.attrib eq p generated).symm

theorem add_overflow {b : Build E} (full : ¬ b.pos < maxFltRule) (ip : IpaIpType)
    (does : FltAction × RtTable) (attrib : RuleAttrib) (counted : Bool) :
    b.add k ip does attrib counted = none := by
  obtain ⟨eq, generated⟩ := Option.isSome_iff_exists.mp (preserves.generates ip attrib)
  simp [Build.add, generated, Build.put_overflow full]

theorem query_answers (b : Build E) (ip : IpaIpType) (table : RtTable) :
    b.query k ip table = some (true, b) := by
  simp [Build.query, preserves.answers]

theorem entry_alike (ip : IpaIpType) (conf : FirewallConf) (rx : RuleAttrib) (e : FirewallEntry)
    {b : Build E} (room : b.pos < maxFltRule) :
    ∃ b' m, b.add k ip ((sideOf ip).modemAction conf.ruleActionAccept)
        (changeToNetworkOrder ip (e.attrib.withRx rx)) true = some (true, b') ∧
      b'.pos = b.pos + 1 ∧ b'.written = b.written ++ [m] ∧ Alike k ip ((sideOf ip).entryRule conf rx e) m := by
  refine add_alike preserves room _ _ _ _ _ rfl fun eq => ?_
  cases ip <;> cases accept : conf.ruleActionAccept <;>
    simp [FltRule.verdict, Side.entryRule, Side.modemAction, verdict, sideOf, sideV4, sideV6, accept]

theorem protocol_alike (ip : IpaIpType) (conf : FirewallConf) (rx : RuleAttrib) (e : FirewallEntry)
    (value : UInt8) {b : Build E} (room : b.pos < maxFltRule) :
    ∃ b' m, b.add k ip ((sideOf ip).modemAction conf.ruleActionAccept)
        ((sideOf ip).setProtocol value (changeToNetworkOrder ip (e.attrib.withRx rx))) true = some (true, b') ∧
      b'.pos = b.pos + 1 ∧ b'.written = b.written ++ [m] ∧
      Alike k ip (((sideOf ip).entryRule conf rx e).withProtocol (sideOf ip) value) m := by
  refine add_alike preserves room _ _ _ _ _ ?_ fun eq => ?_
  · -- the protocol is a byte: the order does not touch it
    cases ip <;> rfl
  · cases ip <;> cases accept : conf.ruleActionAccept <;>
      simp [FltRule.verdict, FltRule.withProtocol, Side.entryRule, Side.modemAction,
        verdict, sideOf, sideV4, sideV6, accept]

theorem addFirewallEx_builds (ip : IpaIpType) (is_ip : (sideOf ip).ip = ip) (conf : FirewallConf)
    (rx : RuleAttrib) (entries : List FirewallEntry) : ∀ b : Build E,
    b.pos + (entries.flatMap ((sideOf ip).rulesOf conf rx)).length ≤ maxFltRule →
    ∃ b' built, (sideOf ip).addFirewallEx k conf rx entries b = some (true, b') ∧
      b'.pos = b.pos + (entries.flatMap ((sideOf ip).rulesOf conf rx)).length ∧
      b'.written = b.written ++ built ∧
      List.Forall₂ (Alike k ip) (entries.flatMap ((sideOf ip).rulesOf conf rx)) built := by
  induction entries with
  | nil => exact fun b _ => ⟨b, [], rfl, rfl, by simp, .nil⟩
  | cons e rest ih =>
    intro b room
    rw [List.flatMap_cons, List.length_append] at room ⊢
    rw [Side.addFirewallEx]
    by_cases version : e.ipVsn = (sideOf ip).version
    -- an entry makes two rules for TCP and UDP, else one, or none for the other version
    · by_cases split : (sideOf ip).protocol e.attrib = ipprotoTcpUdp
      · have rules : (sideOf ip).rulesOf conf rx e =
            [((sideOf ip).entryRule conf rx e).withProtocol (sideOf ip) ipprotoTcp,
              ((sideOf ip).entryRule conf rx e).withProtocol (sideOf ip) ipprotoUdp] := by
          simp [Side.rulesOf, version, split]
        rw [rules] at room ⊢
        simp only [List.length_cons, List.length_nil] at room ⊢
        obtain ⟨b₁, m₁, run₁, pos₁, written₁, alike₁⟩ := protocol_alike preserves ip conf rx e
          ipprotoTcp (b := b) (by omega)
        obtain ⟨b₂, m₂, run₂, pos₂, written₂, alike₂⟩ := protocol_alike preserves ip conf rx e
          ipprotoUdp (b := b₁) (by omega)
        obtain ⟨b₃, built, run₃, pos₃, written₃, alike₃⟩ := ih b₂ (by omega)
        refine ⟨b₃, m₁ :: m₂ :: built, ?_, by omega, ?_, .cons alike₁ (.cons alike₂ alike₃)⟩
        · rw [if_pos version, is_ip, query_answers preserves, andThen_success, if_pos split, run₁,
            andThen_success, run₂, andThen_success, run₃]
        · simp [written₃, written₂, written₁]
      · have rules : (sideOf ip).rulesOf conf rx e = [(sideOf ip).entryRule conf rx e] := by
          simp [Side.rulesOf, version, split]
        rw [rules] at room ⊢
        simp only [List.length_cons, List.length_nil] at room ⊢
        obtain ⟨b₁, m₁, run₁, pos₁, written₁, alike₁⟩ := entry_alike preserves ip conf rx e (b := b) (by omega)
        obtain ⟨b₂, built, run₂, pos₂, written₂, alike₂⟩ := ih b₁ (by omega)
        refine ⟨b₂, m₁ :: built, ?_, by omega, ?_, .cons alike₁ alike₂⟩
        · rw [if_pos version, is_ip, query_answers preserves, andThen_success, if_neg split, run₁,
            andThen_success, run₂]
        · simp [written₂, written₁]
    · have rules : (sideOf ip).rulesOf conf rx e = [] := by simp [Side.rulesOf, version]
      rw [rules] at room ⊢
      obtain ⟨b₁, built, run₁, pos₁, written₁, alike₁⟩ := ih b (by simpa using room)
      exact ⟨b₁, built, by rw [if_neg version, run₁], by simpa using pos₁, written₁, by simpa using alike₁⟩

/-- Without room, the first rule past the end stops it, if there is one. -/
theorem addFirewallEx_overflow (ip : IpaIpType) (is_ip : (sideOf ip).ip = ip) (conf : FirewallConf)
    (rx : RuleAttrib) (entries : List FirewallEntry) : ∀ b : Build E,
    maxFltRule < b.pos + (entries.flatMap ((sideOf ip).rulesOf conf rx)).length →
    (sideOf ip).addFirewallEx k conf rx entries b = none ∨
      maxFltRule < b.pos ∧ (sideOf ip).addFirewallEx k conf rx entries b = some (true, b) := by
  induction entries with
  | nil => exact fun b full => .inr ⟨by simpa using full, rfl⟩
  | cons e rest ih =>
    intro b full
    rw [List.flatMap_cons, List.length_append] at full
    rw [Side.addFirewallEx]
    by_cases version : e.ipVsn = (sideOf ip).version
    · rw [if_pos version, is_ip]
      simp only [query_answers preserves, andThen_success]
      -- a rule of an entry of this family is the first without a place
      by_cases room : b.pos < maxFltRule
      · by_cases split : (sideOf ip).protocol e.attrib = ipprotoTcpUdp
        · have two : ((sideOf ip).rulesOf conf rx e).length = 2 := by
            simp [Side.rulesOf, version, split]
          obtain ⟨b₁, m₁, run₁, pos₁, -⟩ := protocol_alike preserves ip conf rx e ipprotoTcp room
          rw [if_pos split, run₁, andThen_success]
          by_cases room' : b₁.pos < maxFltRule
          · obtain ⟨b₂, m₂, run₂, pos₂, -⟩ := protocol_alike preserves ip conf rx e ipprotoUdp room'
            rw [run₂, andThen_success]
            exact .inl ((ih b₂ (by omega)).resolve_right (by omega))
          · rw [add_overflow preserves room', andThen_none]
            exact .inl rfl
        · have one : ((sideOf ip).rulesOf conf rx e).length = 1 := by
            simp [Side.rulesOf, version, split]
          obtain ⟨b₁, m₁, run₁, pos₁, -⟩ := entry_alike preserves ip conf rx e room
          rw [if_neg split, run₁, andThen_success]
          exact .inl ((ih b₁ (by omega)).resolve_right (by omega))
      · left
        by_cases split : (sideOf ip).protocol e.attrib = ipprotoTcpUdp
        · rw [if_pos split, add_overflow preserves room, andThen_none]
        · rw [if_neg split, add_overflow preserves room, andThen_none]
    · have none_of : ((sideOf ip).rulesOf conf rx e).length = 0 := by simp [Side.rulesOf, version]
      rw [if_neg version]
      exact ih b (by omega)

end Builds

/-! ### The whole function -/

def defaultRule (conf : FirewallConf) (rx : RuleAttrib) : IpaIpType → FltRule
  | .v4 => defaultRuleV4 conf rx
  | .v6 => defaultRuleV6 conf rx

def anyDst (rx : RuleAttrib) : IpaIpType → RuleAttrib
  | .v4 => anyDstV4 rx
  | .v6 => anyDstV6 rx

section Whole

variable {k : EqKernel P E} (preserves : k.Preserves)

include preserves

theorem addDefaultEx_builds (ip : IpaIpType) (is_ip : (sideOf ip).ip = ip) (conf : FirewallConf)
    (rx : RuleAttrib) (b : Build E) :
    (b.pos < maxFltRule → ∃ b' m, (sideOf ip).addDefaultEx k conf (anyDst rx ip) b = some (true, b') ∧
      b'.written = b.written ++ [m] ∧ Alike k ip (defaultRule conf rx ip) m) ∧
    (¬ b.pos < maxFltRule → (sideOf ip).addDefaultEx k conf (anyDst rx ip) b = none) := by
  simp only [Side.addDefaultEx, is_ip, query_answers preserves, andThen_success]
  refine ⟨fun room => ?_, fun full => add_overflow preserves full _ _ _ _⟩
  obtain ⟨b', m, run, -, written, alike⟩ := add_alike preserves room ip (defaultRule conf rx ip)
    ((sideOf ip).modemAction (if conf.firewallEnable then !conf.ruleActionAccept else true))
    (changeToNetworkOrder ip (anyDst rx ip)) true (by cases ip <;> rfl)
    (fun eq => by
      cases ip <;> cases enabled : conf.firewallEnable <;> cases accept : conf.ruleActionAccept <;>
        simp [FltRule.verdict, defaultRule, defaultRuleV4, defaultRuleV6, Side.defaultAction,
          Side.modemAction, verdict, sideOf, sideV4, sideV6, enabled, accept])
  exact ⟨b', m, run, written, alike⟩

/-- The entries and the default rule, behind a possible fragment rule. -/
theorem addRulesEx_builds (ip : IpaIpType) (is_ip : (sideOf ip).ip = ip) (conf : FirewallConf)
    (rx : RuleAttrib) (b : Build E) :
    (b.pos + ((sideOf ip).emitted conf rx).length + 1 ≤ maxFltRule → ∃ b' built,
      andThen (if conf.firewallEnable = true then (sideOf ip).addFirewallEx k conf rx conf.entries b
        else some (true, b)) (fun b => (sideOf ip).addDefaultEx k conf (anyDst rx ip) b) = some (true, b') ∧
      b'.written = b.written ++ built ∧
      List.Forall₂ (Alike k ip) ((sideOf ip).emitted conf rx ++ [defaultRule conf rx ip]) built) ∧
    (¬ b.pos + ((sideOf ip).emitted conf rx).length + 1 ≤ maxFltRule →
      andThen (if conf.firewallEnable = true then (sideOf ip).addFirewallEx k conf rx conf.entries b
        else some (true, b)) (fun b => (sideOf ip).addDefaultEx k conf (anyDst rx ip) b) = none) := by
  cases enabled : conf.firewallEnable with
  | false =>
    simp only [Side.emitted, enabled, Bool.false_eq_true, if_false, andThen_success, List.nil_append,
      List.length_nil]
    refine ⟨fun room => ?_, fun full =>
      (addDefaultEx_builds preserves ip is_ip conf rx b).2 (by omega)⟩
    obtain ⟨b', m, run, written, alike⟩ :=
      (addDefaultEx_builds preserves ip is_ip conf rx b).1 (by omega)
    exact ⟨b', [m], run, written, .cons alike .nil⟩
  | true =>
    simp only [Side.emitted, enabled, if_true]
    constructor
    · intro room
      obtain ⟨b₁, built, run₁, pos₁, written₁, alike₁⟩ := addFirewallEx_builds preserves ip is_ip conf
        rx conf.entries b (by omega)
      obtain ⟨b', m, run, written, alike⟩ :=
        (addDefaultEx_builds preserves ip is_ip conf rx b₁).1 (by omega)
      exact ⟨b', built ++ [m], by rw [run₁, andThen_success, run], by simp [written, written₁],
        List.rel_append alike₁ (.cons alike .nil)⟩
    -- no room: the default rule fails at the latest
    · intro full
      by_cases fits : b.pos + (conf.entries.flatMap ((sideOf ip).rulesOf conf rx)).length ≤ maxFltRule
      · obtain ⟨b₁, built, run₁, pos₁, -⟩ := addFirewallEx_builds preserves ip is_ip conf rx conf.entries b fits
        rw [run₁, andThen_success]
        exact (addDefaultEx_builds preserves ip is_ip conf rx b₁).2 (by omega)
      · rcases addFirewallEx_overflow preserves ip is_ip conf rx conf.entries b (by omega) with
          stops | ⟨past, passes⟩
        · rw [stops, andThen_none]
        · rw [passes, andThen_success]
          exact (addDefaultEx_builds preserves ip is_ip conf rx b).2 (by omega)

/-- The fragment rule is built from the mask and the metadata of the rx property alone. -/
theorem fragEx_misses (documented : k.toKernel.Documented) {rx : RuleAttrib} {eq : E}
    (generated : k.generateFltEq .v6 (changeToNetworkOrder .v6 (modemFragAttrib rx)) = some eq) {p : P}
    (other : k.protocol p ≠ ipprotoFragHdr) : k.eqHit .v6 eq p = false := by
  rw [preserves.matching .v6 _ eq p generated]
  simp only [Kernel.hit, decide_eq_false_iff_not]
  intro met
  have here := met .nextHdr (by simp [modemFragAttrib])
  rw [documented.nextHdrV6, beq_iff_eq] at here
  exact other here.symm

theorem fragEx_builds (documented : k.toKernel.Documented) (rx : RuleAttrib) (b : Build E) :
    (b.pos < maxFltRule → ∃ b' m, andThen (b.query k .v6 .wanDl) (fun b => b.add k .v6 (.passToRouting, .wanDl)
        (changeToNetworkOrder .v6 (modemFragAttrib rx)) false) = some (true, b') ∧
      b'.pos = b.pos + 1 ∧ b'.written = b.written ++ [m] ∧
      ∀ p, k.protocol p ≠ ipprotoFragHdr → k.eqHit .v6 m.eqAttrib p = false) ∧ (¬ b.pos < maxFltRule →
      andThen (b.query k .v6 .wanDl) (fun b => b.add k .v6 (.passToRouting, .wanDl)
        (changeToNetworkOrder .v6 (modemFragAttrib rx)) false) = none) := by
  simp only [query_answers preserves, andThen_success]
  refine ⟨fun room => ?_, fun full => add_overflow preserves full _ _ _ _⟩
  obtain ⟨eq, generated⟩ := Option.isSome_iff_exists.mp
    (preserves.generates .v6 (changeToNetworkOrder .v6 (modemFragAttrib rx)))
  obtain ⟨b', put, pos, written⟩ := Build.put_written room
    { action := .passToRouting, rtTblIdx := .wanDl,
      attrib := changeToNetworkOrder .v6 (modemFragAttrib rx), eqAttrib := eq } false
  exact ⟨b', _, by simp [Build.add, generated, put], pos, written,
    fun p other => fragEx_misses preserves documented generated other⟩

/-- The modem's list: a fragment rule when the firewall is enabled, rules like those of the
entries, and the default rule. -/
theorem configEx_builds (documented : k.toKernel.Documented) {w : IpacmWan} {rxs : List RuleAttrib}
    {rx : RuleAttrib} (registered : w.rxProp = some rxs) (first : rxs[0]? = some rx)
    (read : Option FirewallConf) (ip : IpaIpType) (second : ip = .v6 → rxs[1]? = some rx) (b : Build E) :
    (b.pos + modemCount (read.getD .zero) ip ≤ maxFltRule → ∃ b' frag built,
      w.configDftFirewallRulesEx k read ip b = some (true, b') ∧ b'.written = b.written ++ (frag ++ built) ∧
      (∀ m ∈ frag, ∀ p, k.protocol p ≠ ipprotoFragHdr → k.eqHit .v6 m.eqAttrib p = false) ∧
      (ip = .v4 → frag = []) ∧ List.Forall₂ (Alike k ip)
        ((sideOf ip).emitted (read.getD .zero) rx ++ [defaultRule (read.getD .zero) rx ip]) built) ∧
    (¬ b.pos + modemCount (read.getD .zero) ip ≤ maxFltRule →
      w.configDftFirewallRulesEx k read ip b = none) := by
  generalize conf_eq : read.getD .zero = conf
  -- the parts of `modemCount`: fragments, entries, default
  have count : modemCount conf ip = (if conf.firewallEnable = true ∧ ip = .v6 then 1 else 0) +
      ((sideOf ip).emitted conf rx).length + 1 := by
    cases enabled : conf.firewallEnable with
    | false => simp [modemCount, Side.emitted, enabled]
    | true => simp [modemCount, Side.emitted_length _ enabled, enabled]
  rw [count]
  cases ip with
  | v4 =>
    have rules := addRulesEx_builds preserves .v4 rfl conf rx b
    have runs : w.configDftFirewallRulesEx k read .v4 b =
        andThen (if conf.firewallEnable = true then (sideOf .v4).addFirewallEx k conf rx conf.entries b
          else some (true, b)) (fun b => (sideOf .v4).addDefaultEx k conf (anyDst rx .v4) b) := by
      simp [IpacmWan.configDftFirewallRulesEx, registered, first, conf_eq, sideOf, anyDst]
    rw [runs]
    simp only [reduceCtorEq, and_false, if_false, Nat.zero_add]
    refine ⟨fun room => ?_, fun full => rules.2 (by omega)⟩
    obtain ⟨b', built, run, written, alike⟩ := rules.1 (by omega)
    exact ⟨b', [], built, run, by simpa using written, by simp, fun _ => rfl, alike⟩
  | v6 =>
    have runs : w.configDftFirewallRulesEx k read .v6 b = andThen (if conf.firewallEnable = true then
          andThen (b.query k .v6 .wanDl) (fun b => b.add k .v6 (.passToRouting, .wanDl)
            (changeToNetworkOrder .v6 (modemFragAttrib rx)) false)
          else some (true, b)) fun b =>
        andThen (if conf.firewallEnable = true then (sideOf .v6).addFirewallEx k conf rx conf.entries b
          else some (true, b)) (fun b => (sideOf .v6).addDefaultEx k conf (anyDst rx .v6) b) := by
      simp [IpacmWan.configDftFirewallRulesEx, registered, first, second rfl, conf_eq, sideOf, anyDst]
    rw [runs]
    cases enabled : conf.firewallEnable with
    | false =>
      have rules := addRulesEx_builds preserves .v6 rfl conf rx b
      rw [enabled] at rules
      simp only [Bool.false_eq_true, false_and, if_false, andThen_success, Nat.zero_add] at rules ⊢
      refine ⟨fun room => ?_, fun full => rules.2 (by omega)⟩
      obtain ⟨b', built, run, written, alike⟩ := rules.1 (by omega)
      exact ⟨b', [], built, run, by simpa using written, by simp, fun _ => rfl, alike⟩
    | true =>
      have frag := fragEx_builds preserves documented rx b
      simp only [and_self, if_true]
      -- the fragment rule takes the first place
      by_cases room : b.pos < maxFltRule
      · obtain ⟨b₁, m, run₁, pos₁, written₁, misses⟩ := frag.1 room
        have rules := addRulesEx_builds preserves .v6 rfl conf rx b₁
        rw [enabled] at rules
        rw [run₁, andThen_success]
        refine ⟨fun room => ?_, fun full => rules.2 (by omega)⟩
        obtain ⟨b', built, run, written, alike⟩ := rules.1 (by omega)
        exact ⟨b', [m], built, run, by simp [written, written₁], by simpa using misses, by simp, alike⟩
      · rw [frag.2 room, andThen_none]
        exact ⟨fun fits => by omega, fun _ => rfl⟩

end Whole

/-- For a packet that is no IPv6 fragment and not ICMPv6, the two lists of a configuration say the
same, exactly when both fit where they are written. -/
theorem firewalls_agree (k : EqKernel P E) (documented : k.toKernel.Documented)
    (preserves : k.Preserves) (answers : FilterAnswers) (succeed : answers.Succeed) (w : IpacmWan)
    (rxs : List RuleAttrib) (registered : w.rxProp = some rxs) (rx : RuleAttrib)
    (first : rxs[0]? = some rx) (read : Option FirewallConf) (ip : IpaIpType)
    (second : ip = .v6 → rxs[1]? = some rx) (b : Build E) (p : P)
    (whole : ip = .v6 → k.protocol p ≠ ipprotoFragHdr ∧ k.protocol p ≠ ipprotoIcmp6) :
    (∃ w' b', w.configDftFirewallRules answers read ip = some (true, w') ∧
      w.configDftFirewallRulesEx k read ip b = some (true, b') ∧
      decision (k.hitRule ip p) (FltRule.verdict ip) ((w'.tables ip).drop (w.tables ip).length) =
        decision (fun m => k.eqHit ip m.eqAttrib p) (verdict ip) (b'.written.drop b.pos)) ↔
    ((read.getD .zero).firewallEnable = true → (sideOf ip).ruleCount (read.getD .zero) ≤ maxFirewallEntries) ∧
    b.pos + modemCount (read.getD .zero) ip ≤ maxFltRule := by
  obtain ⟨installs, overflows⟩ := config_installs succeed documented registered first read ip
  obtain ⟨builds, overflowsEx⟩ := configEx_builds preserves documented registered first read ip second b
  generalize read.getD .zero = conf at installs overflows builds overflowsEx ⊢
  have fits : (conf.firewallEnable = true → (sideOf ip).ruleCount conf ≤ maxFirewallEntries) ↔
      ((sideOf ip).emitted conf rx).length ≤ maxFirewallEntries := by
    cases enabled : conf.firewallEnable with
    | false => simp [Side.emitted, enabled]
    | true => simp [Side.emitted_length _ enabled]
  -- both lists are in the same order, but for fixed rules that this packet misses
  rw [fits]
  constructor
  · rintro ⟨w', b', run, runEx, -⟩
    constructor
    · by_contra full
      simp [overflows full] at run
    · by_contra full
      simp [overflowsEx full] at runEx
  · rintro ⟨room, roomEx⟩
    obtain ⟨w', run, tables⟩ := installs room
    obtain ⟨b', frag, built, runEx, written, misses, no_frag, alike⟩ := builds roomEx
    refine ⟨w', b', run, runEx, ?_⟩
    have start : b.written.length = b.pos := Build.length_written (by omega)
    rw [tables, List.drop_left, written, ← start, List.drop_left]
    have rules : decision (k.hitRule ip p) (FltRule.verdict ip) (staRules conf rx ip) =
        decision (k.hitRule ip p) (FltRule.verdict ip)
          ((sideOf ip).emitted conf rx ++ [defaultRule conf rx ip]) := by
      cases ip with
      | v4 => rfl
      | v6 =>
        obtain ⟨no_frag, no_icmp⟩ := whole rfl
        have icmp : k.hitRule .v6 p (icmpRule rx) = false := nextHdrIs_miss documented no_icmp
        have frag := fragRules_miss documented no_frag conf rx
        rw [staRules, decision_append_of_miss frag, decision_middle_of_miss icmp]
        rfl
    have rulesEx : decision (fun m => k.eqHit ip m.eqAttrib p) (verdict ip) (frag ++ built) =
        decision (fun m => k.eqHit ip m.eqAttrib p) (verdict ip) built := by
      cases ip with
      | v4 => rw [no_frag rfl, List.nil_append]
      | v6 => exact decision_append_of_miss fun m member => misses m member p (whole rfl).1
    rw [rules, rulesEx]
    exact decision_congr (alike.imp fun r m like => ⟨like.1 p, like.2⟩)

/-! ### Samples -/

/-- The bytes in reverse: a bit comes from the mirrored byte. -/
theorem htonl_bit (x : UInt32) {i : Nat} (inside : i < 32) :
    (htonl x).toBitVec.getLsbD i = x.toBitVec.getLsbD (24 - 8 * (i / 8) + i % 8) := by
  have shift8 : UInt32.toBitVec 8 % 32 = 8#32 := rfl
  have shift24 : UInt32.toBitVec 24 % 32 = 24#32 := rfl
  have low : UInt32.toBitVec 0xff00 = 0xff00#32 := rfl
  simp only [htonl, UInt32.toBitVec_or, UInt32.toBitVec_shiftLeft, UInt32.toBitVec_and,
    UInt32.toBitVec_shiftRight, shift8, shift24, low]
  interval_cases i <;> simp

theorem htonl_htonl (x : UInt32) : htonl (htonl x) = x := by
  apply UInt32.toBitVec_inj.mp
  refine BitVec.eq_of_getLsbD_eq fun i inside => ?_
  rw [htonl_bit _ inside, htonl_bit _ (by omega)]
  congr 1
  omega

theorem changeToNetworkOrder_twice (ip : IpaIpType) (a : RuleAttrib) :
    changeToNetworkOrder ip (changeToNetworkOrder ip a) = a := by
  have back : htonl ∘ htonl = id := funext htonl_htonl
  cases ip with
  | v4 => rfl
  | v6 => simp [changeToNetworkOrder, back]

/-- Equations that keep the attributes, back in the order of the host. -/
def sampleEqKernel : EqKernel SamplePacket RuleAttrib where
  toKernel := sampleKernel
  generateFltEq ip a := some (changeToNetworkOrder ip a)
  queryRtTblIndex _ _ := true
  eqHit := sampleKernel.hit

theorem sampleEqKernel_preserves : sampleEqKernel.Preserves where
  generates _ _ := rfl
  answers _ _ := rfl
  matching ip a eq p generated := by
    obtain rfl := Option.some.inj generated
    rw [changeToNetworkOrder_twice]
    rfl

/-- An array with nothing written. -/
def sampleBuild : Build RuleAttrib where
  rules := Vector.replicate maxFltRule
    { action := .passToRouting, rtTblIdx := .wanDl, attrib := {}, eqAttrib := {} }
  pos := 0

theorem firewalls_agree_sample :
    ∃ w' b', sampleWan.configDftFirewallRules sampleAnswers (some (tcpUdpList 2 (by decide))) .v4 =
        some (true, w') ∧
      sampleWan.configDftFirewallRulesEx sampleEqKernel (some (tcpUdpList 2 (by decide))) .v4
        sampleBuild = some (true, b') ∧
      decision (sampleEqKernel.hitRule .v4 { protocol := 17, dstPort := 80, metaData := 1 })
          (FltRule.verdict .v4) ((w'.tables .v4).drop (sampleWan.tables .v4).length) =
        decision (fun m => sampleEqKernel.eqHit .v4 m.eqAttrib
            { protocol := 17, dstPort := 80, metaData := 1 })
          (verdict .v4) (b'.written.drop sampleBuild.pos) :=
  (firewalls_agree sampleEqKernel sampleKernel_documented sampleEqKernel_preserves sampleAnswers
    sampleAnswers_succeed sampleWan _ rfl _ rfl (some (tcpUdpList 2 (by decide))) .v4 (by simp)
    sampleBuild { protocol := 17, dstPort := 80, metaData := 1 } (by simp)).mpr
    ⟨by decide, by decide⟩

/-- Twenty-six TCP_UDP entries are more rules than either list has room for. -/
theorem tcp_udp_entries_disagree :
    ¬ ∀ (read : Option FirewallConf) (p : SamplePacket),
      ∃ w' b', sampleWan.configDftFirewallRules sampleAnswers read .v4 = some (true, w') ∧
        sampleWan.configDftFirewallRulesEx sampleEqKernel read .v4 sampleBuild = some (true, b') ∧
        decision (sampleEqKernel.hitRule .v4 p) (FltRule.verdict .v4)
            ((w'.tables .v4).drop (sampleWan.tables .v4).length) =
          decision (fun m => sampleEqKernel.eqHit .v4 m.eqAttrib p) (verdict .v4)
            (b'.written.drop sampleBuild.pos) := by
  intro always
  have overflows := (configEx_builds sampleEqKernel_preserves sampleKernel_documented
    (w := sampleWan) rfl rfl (some (tcpUdpList 26 (by decide))) .v4 (by simp) sampleBuild).2 (by decide)
  obtain ⟨w', b', -, run, -⟩ := always (some (tcpUdpList 26 (by decide))) { protocol := 17 }
  rw [overflows] at run
  simp at run

end Hima.Wan
