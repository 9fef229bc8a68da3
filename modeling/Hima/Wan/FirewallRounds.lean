import Hima.Lib.Runs
import Hima.Wan.ModemTable

/-!
# Rounds of the station firewall

The rules of a family are installed by `config_dft_firewall_rules` and taken away again by
`IPACM_Wan::del_dft_firewall_rules`, round after round with other configurations. The handles of a
round are kept in arrays and fixed slots of the interface. What ties the two functions together is
that these hold the handles of the round, no others and each once.
-/
namespace Hima.Wan

open Function IpacmWan FilterAnswers

/-! ### The interface and the rules that the kernel holds -/

/-- The handles that the kernel answers for rules added one after the other. -/
def FilterAnswers.handles (answers : FilterAnswers) : List FltRule → List FltRule → List UInt32
  | _, [] => []
  | table, rule :: rest =>
    (answers.add table rule).getD 0 :: answers.handles (table ++ [rule]) rest

/-- The interface between two calls. -/
structure Station where
  wan : IpacmWan
  /-- `active_v4` and `active_v6` -/
  active : IpaIpType → Bool
  /-- The rules in the kernel under their handles. -/
  held : IpaIpType → List (UInt32 × FltRule)
  /-- The handles of the last `config_dft_firewall_rules`, until the rules are deleted. -/
  round : IpaIpType → Option (List UInt32)

inductive Call where
  | config (ip : IpaIpType) (answers : FilterAnswers) (read : Option FirewallConf)
  | del (ip : IpaIpType) (deletes : UInt32 → Bool)
  | setActive (ip : IpaIpType) (active : Bool)

def Station.config (ip : IpaIpType) (answers : FilterAnswers) (read : Option FirewallConf)
    (s : Station) : Option (Bool × Station) := do
  let (ok, w) ← s.wan.configDftFirewallRules answers read ip
  let rules := (w.tables ip).drop (s.wan.tables ip).length
  let hdls := answers.handles (s.wan.tables ip) rules
  some (ok, { s with
    wan := w
    held := update s.held ip (s.held ip ++ hdls.zip rules)
    round := update s.round ip (some hdls) })

def Station.del (ip : IpaIpType) (deletes : UInt32 → Bool) (s : Station) :
    Option (Bool × List UInt32 × Station) := do
  let (ok, deleted, w) ← s.wan.delDftFirewallRules deletes s.active ip
  let held := (s.held ip).filter (·.1 ∉ deleted)
  some (ok, deleted, { s with
    wan := { w with tables := update w.tables ip (held.map Prod.snd) }
    held := update s.held ip held
    round := update s.round ip none })

def Station.step (s : Station) : Call → Option Station
  | .config ip answers read => (s.config ip answers read).map (·.2)
  | .del ip deletes => (s.del ip deletes).map (·.2.2)
  | .setActive ip active => some { s with active := update s.active ip active }

/-- No rules yet; what the constructor leaves uninitialised is arbitrary. -/
structure Station.Fresh (s : Station) : Prop where
  registered : ∀ rxs, s.wan.rxProp = some rxs → rxs ≠ []
  tables : s.wan.tables = fun _ => []
  held : s.held = fun _ => []
  round : s.round = fun _ => none
  count : ∀ ip, s.wan.numFirewall ip = 0

/-- The handles of the rules fit, and the slot of the fragment rule is written or empty. -/
def Station.Fits (s : Station) (ip : IpaIpType) (conf : FirewallConf) : Prop :=
  s.wan.rxProp.isSome →
    (conf.firewallEnable = true → (sideOf ip).ruleCount conf ≤ maxFirewallEntries) ∧
    (ip = .v6 → conf.firewallEnable = true ∨ s.wan.ipv6FragFirewallFltRuleHdl = 0)

/-- The calls of a family alternate, the rules are deleted while it is active, and the hardware
does what it is told. -/
def Station.Allowed (s : Station) : Call → Prop
  | .config ip answers read => s.round ip = none ∧ answers.Succeed ∧
      (∀ table rule, answers.add table rule ≠ some 0) ∧ s.Fits ip (read.getD .zero)
  | .del ip deletes => (s.round ip).isSome ∧ s.active ip = true ∧ ∀ hdl, deletes hdl = true
  | .setActive _ _ => True

/-! ### What is kept of a round -/

variable {deletes : UInt32 → Bool}

theorem deleteFilteringHdls_succeeds (succeed : ∀ hdl, deletes hdl = true)
    (hdls : List UInt32) : deleteFilteringHdls deletes hdls = (true, hdls.filter (· ≠ 0)) := by
  induction hdls with
  | nil => rfl
  | cons hdl rest ih =>
    by_cases zero : hdl = 0
    · simp [deleteFilteringHdls, zero, ih]
    · simp [deleteFilteringHdls, zero, succeed, ih]

theorem thenDelete_succeeds (succeed : ∀ hdl, deletes hdl = true) (hdls more : List UInt32) :
    thenDelete deletes (true, hdls.filter (· ≠ 0)) more = (true, (hdls ++ more).filter (· ≠ 0)) := by
  rw [thenDelete, if_pos rfl, deleteFilteringHdls_succeeds succeed, List.filter_append]

variable {ip : IpaIpType}

/-- Within the bound all kept handles are deleted, in their order. -/
theorem del_deletes (succeed : ∀ hdl, deletes hdl = true)
    {active : IpaIpType → Bool} (is_active : active ip = true) {w : IpacmWan}
    (registered : w.rxProp.isSome) {n : Nat} (count : w.numFirewall ip = n) (room : n ≤ maxFirewallEntries) :
    w.delDftFirewallRules deletes active ip =
      some (true, (w.keptHandles ip).filter (· ≠ 0), w.clearNumFirewall ip) := by
  obtain ⟨rxs, registered⟩ := Option.isSome_iff_exists.mp registered
  have bound : n ≤ 50 := room
  have narrow : (w.numFirewall ip % 256).toNat = n := by omega
  have whole : (w.numFirewall ip).toNat = n := by omega
  have below : ¬ (maxFirewallEntries : Int) < w.numFirewall ip := by
    rw [count]
    exact_mod_cast Nat.not_lt.mpr room
  cases ip with
  | v4 =>
    simp only [delDftFirewallRules, registered, is_active, if_true, if_neg below, narrow,
      if_pos room, deleteFilteringHdls_succeeds succeed, thenDelete_succeeds succeed,
      keptHandles, whole]
  | v6 =>
    simp only [delDftFirewallRules, registered, is_active, if_true, if_neg below, narrow,
      if_pos room, deleteFilteringHdls_succeeds succeed, thenDelete_succeeds succeed,
      keptHandles, whole, List.append_assoc, List.cons_append, List.nil_append]

/-! ### What a configuration stores -/

@[simp] theorem handles_nil (answers : FilterAnswers) (table : List FltRule) :
    answers.handles table [] = [] := rfl

theorem handles_append (answers : FilterAnswers) (table rules more : List FltRule) :
    answers.handles table (rules ++ more) =
      answers.handles table rules ++ answers.handles (table ++ rules) more := by
  induction rules generalizing table with
  | nil => simp
  | cons rule rest ih => simp [handles, ih]

@[simp] theorem length_handles (answers : FilterAnswers) (table rules : List FltRule) :
    (answers.handles table rules).length = rules.length := by
  induction rules generalizing table with
  | nil => rfl
  | cons rule rest ih => simp [handles, ih]

/-- The members that no rule of an entry touches, and those of the other family. -/
structure IpacmWan.SameAside (w w' : IpacmWan) (ip : IpaIpType) : Prop where
  rxProp : w'.rxProp = w.rxProp
  dft : w'.dftWanFlHdl = w.dftWanFlHdl
  frag : w'.ipv6FragFirewallFltRuleHdl = w.ipv6FragFirewallFltRuleHdl
  hdl : ∀ ip', ip' ≠ ip → w'.firewallHdl ip' = w.firewallHdl ip'
  count : ∀ ip', ip' ≠ ip → w'.numFirewall ip' = w.numFirewall ip'

theorem IpacmWan.SameAside.refl (w : IpacmWan) (ip : IpaIpType) : w.SameAside w ip :=
  ⟨rfl, rfl, rfl, fun _ _ => rfl, fun _ _ => rfl⟩

theorem IpacmWan.SameAside.trans {w w' w'' : IpacmWan} (first : w.SameAside w' ip)
    (second : w'.SameAside w'' ip) : w.SameAside w'' ip where
  rxProp := second.rxProp.trans first.rxProp
  dft := second.dft.trans first.dft
  frag := second.frag.trans first.frag
  hdl ip' other := (second.hdl ip' other).trans (first.hdl ip' other)
  count ip' other := (second.count ip' other).trans (first.count ip' other)

/-- The members that the fixed rules do not touch. -/
structure IpacmWan.SameArrays (w w' : IpacmWan) : Prop where
  rxProp : w'.rxProp = w.rxProp
  hdl : ∀ ip, w'.firewallHdl ip = w.firewallHdl ip
  count : ∀ ip, w'.numFirewall ip = w.numFirewall ip

/-- The rules of entries are in the kernel, and their handles in the array from `i` on. -/
structure Stored (answers : FilterAnswers) (ip : IpaIpType) (i : Nat) (rules : List FltRule)
    (w w' : IpacmWan) : Prop where
  tables : w'.tables = update w.tables ip (w.tables ip ++ rules)
  kept : (w'.firewallHdl ip).toList.take (i + rules.length) =
    (w.firewallHdl ip).toList.take i ++ answers.handles (w.tables ip) rules
  count : w'.numFirewall ip = w.numFirewall ip + rules.length
  aside : w.SameAside w' ip

theorem save_stores (ip : IpaIpType) {i : Nat} (room : i < maxFirewallEntries) (hdl : UInt32)
    (w : IpacmWan) : ∃ w', (sideOf ip).save i hdl w = some w' ∧ w'.tables = w.tables ∧
      w'.firewallHdl ip = (w.firewallHdl ip).set i hdl ∧ w'.numFirewall ip = w.numFirewall ip + 1 ∧
      w.SameAside w' ip := by
  cases ip with
  | v4 =>
    refine ⟨_, dif_pos room, rfl, rfl, rfl, rfl, rfl, rfl, fun ip' other => ?_, fun ip' other => ?_⟩
    all_goals cases ip' with
      | v4 => exact absurd rfl other
      | v6 => rfl
  | v6 =>
    refine ⟨_, dif_pos room, rfl, rfl, rfl, rfl, rfl, rfl, fun ip' other => ?_, fun ip' other => ?_⟩
    all_goals cases ip' with
      | v4 => rfl
      | v6 => exact absurd rfl other

section Stores

variable {answers : FilterAnswers} (succeed : answers.Succeed)

include succeed

theorem entry_stored (ip : IpaIpType) (i : Nat) (w : IpacmWan) (rule : FltRule)
    (atRear : rule.atRear = true) (room : i < maxFirewallEntries) :
    ∃ w', w.addRule answers ip rule ((sideOf ip).save i) = some (true, w') ∧
      Stored answers ip i [rule] w w' := by
  rw [addRule_rear succeed atRear]
  generalize hdl_eq : (answers.add (w.tables ip) rule).getD 0 = hdl
  obtain ⟨w', saved, tables, array, count, aside⟩ := save_stores ip room hdl
    { w with tables := update w.tables ip (w.tables ip ++ [rule]) }
  refine ⟨w', by rw [saved, Option.map_some], tables, ?_, count, ?_⟩
  -- the array changes at `i` only
  · rw [array, Vector.toList_set, List.length_singleton, List.take_add_one, List.take_set_of_le (Nat.le_refl _)]
    simp [room, handles, hdl_eq]
  · exact ⟨aside.rxProp, aside.dft, aside.frag, by simpa using aside.hdl, by simpa using aside.count⟩

omit succeed in
theorem Stored.nil (ip : IpaIpType) (i : Nat) (w : IpacmWan) : Stored answers ip i [] w w :=
  ⟨by simp, by simp, by simp, .refl w ip⟩

omit succeed in
theorem Stored.cons {ip : IpaIpType} {i : Nat} {rule : FltRule} {rules : List FltRule}
    {w w' w'' : IpacmWan} (one : Stored answers ip i [rule] w w')
    (others : Stored answers ip (i + 1) rules w' w'') : Stored answers ip i (rule :: rules) w w'' where
  tables := by simp [others.tables, one.tables]
  kept := by
    have here : (w'.firewallHdl ip).toList.take (i + 1) = _ := one.kept
    have length : i + (rule :: rules).length = i + 1 + rules.length := by simp; omega
    rw [length, others.kept, here, one.tables, update_self, List.append_assoc]
    rfl
  count := by rw [others.count, one.count]; simp; omega
  aside := one.aside.trans others.aside

theorem entries_stored (ip : IpaIpType) (conf : FirewallConf) (rx : RuleAttrib) (w : IpacmWan)
    (room : conf.firewallEnable = true → (sideOf ip).ruleCount conf ≤ maxFirewallEntries) :
    ∃ w', (if conf.firewallEnable = true then
        (sideOf ip).addFirewall answers conf rx conf.entries 0 w else some (true, w)) = some (true, w') ∧
      Stored answers ip 0 ((sideOf ip).emitted conf rx) w w' := by
  have is_ip : (sideOf ip).ip = ip := by cases ip <;> rfl
  cases enabled : conf.firewallEnable with
  | false =>
    rw [Side.emitted, enabled]
    exact ⟨w, by simp, Stored.nil ip 0 w⟩
  | true =>
    rw [Side.emitted, if_pos enabled]
    have fits : 0 + (conf.entries.flatMap ((sideOf ip).rulesOf conf rx)).length ≤ maxFirewallEntries := by
      rw [Side.length_rulesOf, Nat.zero_add]
      exact room enabled
    have adds : ∀ (i : Nat) (w : IpacmWan) (rule : FltRule), rule.atRear = true →
        i < maxFirewallEntries → ∃ w', w.addRule answers (sideOf ip).ip rule ((sideOf ip).save i) =
          some (true, w') ∧ Stored answers ip i [rule] w w' := by
      rw [is_ip]
      exact entry_stored succeed ip
    obtain ⟨w', run, stored⟩ := addFirewall_composes (R := Stored answers ip) (Stored.nil ip)
      Stored.cons adds conf.entries 0 w fits
    exact ⟨w', by simpa using run, stored⟩

/-- A default rule goes to its slot, and nothing else changes. -/
theorem dft_stored (ip : IpaIpType) (rule : FltRule) (atRear : rule.atRear = true) (slot : Fin 3)
    (w : IpacmWan) : ∃ w', w.addRule answers ip rule (saveDft slot) = some (true, w') ∧
      w'.tables = update w.tables ip (w.tables ip ++ [rule]) ∧ (∀ i, w'.dftWanFlHdl.get i =
        if slot = i then (answers.add (w.tables ip) rule).getD 0 else w.dftWanFlHdl.get i) ∧
      w'.ipv6FragFirewallFltRuleHdl = w.ipv6FragFirewallFltRuleHdl ∧ w.SameArrays w' := by
  rw [addRule_rear succeed atRear]
  refine ⟨_, rfl, rfl, fun i => ?_, rfl, rfl, fun ip' => ?_, fun ip' => ?_⟩
  · exact (Vector.getElem_set slot.isLt i.isLt).trans (if_congr Fin.ext_iff.symm rfl rfl)
  all_goals cases ip' <;> rfl

/-- The fragment rule goes to its slot; without it the slot stays as it is. -/
theorem frag_stored (conf : FirewallConf) (rx : RuleAttrib) (w : IpacmWan) :
    ∃ w', (if conf.firewallEnable = true then w.addRule answers .v6 (fragRule rx) saveFrag
        else some (true, w)) = some (true, w') ∧ w'.tables = update w.tables .v6
        (w.tables .v6 ++ if conf.firewallEnable = true then [fragRule rx] else []) ∧
      w'.ipv6FragFirewallFltRuleHdl = (if conf.firewallEnable = true then
        (answers.add (w.tables .v6) (fragRule rx)).getD 0 else w.ipv6FragFirewallFltRuleHdl) ∧
      w'.dftWanFlHdl = w.dftWanFlHdl ∧ w.SameArrays w' := by
  cases conf.firewallEnable with
  | false => exact ⟨w, by simp, by simp, rfl, rfl, rfl, fun _ => rfl, fun _ => rfl⟩
  | true =>
    rw [addRule_rear succeed rfl]
    refine ⟨_, rfl, rfl, rfl, rfl, rfl, fun ip' => ?_, fun ip' => ?_⟩
    all_goals cases ip' <;> rfl

/-- From an empty array on, what is kept there are the handles of the entries. -/
theorem entries_kept (ip : IpaIpType) (conf : FirewallConf) (rx : RuleAttrib) {w : IpacmWan}
    (room : conf.firewallEnable = true → (sideOf ip).ruleCount conf ≤ maxFirewallEntries)
    (empty : w.numFirewall ip = 0) :
    ∃ w', (if conf.firewallEnable = true then
        (sideOf ip).addFirewall answers conf rx conf.entries 0 w else some (true, w)) = some (true, w') ∧
      w'.tables = update w.tables ip (w.tables ip ++ (sideOf ip).emitted conf rx) ∧
      (∃ n ≤ maxFirewallEntries, w'.numFirewall ip = (n : Nat)) ∧
      (w'.firewallHdl ip).toList.take (w'.numFirewall ip).toNat =
        answers.handles (w.tables ip) ((sideOf ip).emitted conf rx) ∧ w.SameAside w' ip := by
  obtain ⟨w', run, stored⟩ := entries_stored succeed ip conf rx w room
  have count : w'.numFirewall ip = (((sideOf ip).emitted conf rx).length : Nat) := by
    rw [stored.count, empty, Int.zero_add]
  have kept := stored.kept
  rw [Nat.zero_add, List.take_zero, List.nil_append] at kept
  refine ⟨w', run, stored.tables, ⟨_, ?_, count⟩, by rw [count, Int.toNat_natCast, kept], stored.aside⟩
  cases enabled : conf.firewallEnable with
  | false => simp [Side.emitted, enabled]
  | true =>
    rw [Side.emitted_length _ enabled]
    exact room enabled

end Stores

/-! ### A whole call -/

/-- The kept handles are those of a round, each once; slots with 0 do not count. -/
structure IpacmWan.Keeps (w : IpacmWan) (ip : IpaIpType) (hdls : List UInt32) : Prop where
  count : ∃ n ≤ maxFirewallEntries, w.numFirewall ip = (n : Nat)
  kept : ((w.keptHandles ip).filter (· ≠ 0)).Perm hdls

/-- What a call for one family leaves alone. -/
structure IpacmWan.Apart (w w' : IpacmWan) (ip : IpaIpType) : Prop where
  rxProp : w'.rxProp = w.rxProp
  tables : ∀ ip', ip' ≠ ip → w'.tables ip' = w.tables ip'
  count : ∀ ip', ip' ≠ ip → w'.numFirewall ip' = w.numFirewall ip'
  kept : ∀ ip', ip' ≠ ip → w'.keptHandles ip' = w.keptHandles ip'

variable {answers : FilterAnswers}

theorem handles_ne_zero (succeed : answers.Succeed)
    (nonzero : ∀ table rule, answers.add table rule ≠ some 0) (table rules : List FltRule) :
    ∀ hdl ∈ answers.handles table rules, hdl ≠ 0 := by
  induction rules generalizing table with
  | nil => simp
  | cons rule rest ih =>
    intro hdl member
    rcases List.mem_cons.mp member with rfl | later
    · obtain ⟨given, added⟩ := Option.isSome_iff_exists.mp (succeed.add table rule)
      rw [added, Option.getD_some]
      rintro rfl
      exact nonzero table rule added
    · exact ih (table ++ [rule]) hdl later

/-- With no handles in the array, a call stores those of its rules and nothing else is kept. -/
theorem config_keeps (succeed : answers.Succeed)
    (nonzero : ∀ table rule, answers.add table rule ≠ some 0) {w : IpacmWan} {rxs : List RuleAttrib}
    {rx : RuleAttrib} (registered : w.rxProp = some rxs) (first : rxs[0]? = some rx)
    (read : Option FirewallConf) (ip : IpaIpType) (empty : w.numFirewall ip = 0)
    (room : (read.getD .zero).firewallEnable = true →
      (sideOf ip).ruleCount (read.getD .zero) ≤ maxFirewallEntries)
    (slot : ip = .v6 → (read.getD .zero).firewallEnable = true ∨ w.ipv6FragFirewallFltRuleHdl = 0) :
    ∃ w', w.configDftFirewallRules answers read ip = some (true, w') ∧
      w'.tables ip = w.tables ip ++ staRules (read.getD .zero) rx ip ∧
      w'.Keeps ip (answers.handles (w.tables ip) (staRules (read.getD .zero) rx ip)) ∧ w.Apart w' ip := by
  generalize conf_eq : read.getD .zero = conf at room slot
  have all_nonzero : ((answers.handles (w.tables ip) (staRules conf rx ip)).filter (· ≠ 0)) =
      answers.handles (w.tables ip) (staRules conf rx ip) :=
    List.filter_eq_self.mpr (by simpa using handles_ne_zero succeed nonzero _ _)
  cases ip with
  | v4 =>
    obtain ⟨w₁, run₁, tables₁, count₁, kept₁, aside₁⟩ := entries_kept succeed .v4 conf rx room empty
    obtain ⟨w₂, run₂, tables₂, dft₂, frag₂, same₂⟩ :=
      dft_stored succeed .v4 (defaultRuleV4 conf rx) rfl 0 w₁
    have run₁ : (if conf.firewallEnable = true then
        sideV4.addFirewall answers conf rx conf.entries 0 w else some (true, w)) = some (true, w₁) := run₁
    have runs : w.configDftFirewallRules answers read .v4 =
        configV4 answers conf rx (conf.entries.countP (·.ipVsn = 4)) w := by
      simp [configDftFirewallRules, registered, first, conf_eq]
    have here : w₁.tables .v4 = w.tables .v4 ++ sideV4.emitted conf rx := by simp [tables₁, sideOf]
    refine ⟨w₂, ?_, by simp [tables₂, here, staRules], ⟨by rw [same₂.count]; exact count₁, ?_⟩, ?_⟩
    · rw [runs, configV4_eq (succeed.routingTable _), run₁, andThen_success, run₂]
    -- the handles of the entries, and the one of the default rule behind them
    · rw [← all_nonzero]
      refine List.Perm.filter _ (List.Perm.of_eq ?_)
      rw [staRules, handles_append, ← here]
      simp [keptHandles, same₂.hdl, same₂.count, kept₁, dft₂, handles, sideOf]
    · refine ⟨same₂.rxProp.trans aside₁.rxProp, ?_, ?_, ?_⟩
      all_goals
        intro ip' other
        cases ip' with
        | v4 => exact absurd rfl other
        | v6 =>
          simp [keptHandles, same₂.hdl, same₂.count, aside₁.hdl, aside₁.count, aside₁.dft,
            aside₁.frag, dft₂, frag₂, tables₂, tables₁]
  | v6 =>
    obtain ⟨w₀, run₀, tables₀, frag₀, dft₀, same₀⟩ := frag_stored succeed conf rx w
    obtain ⟨w₁, run₁, tables₁, count₁, kept₁, aside₁⟩ := entries_kept succeed .v6 conf rx room
      ((same₀.count .v6).trans empty)
    obtain ⟨w₂, run₂, tables₂, dft₂, frag₂, same₂⟩ := dft_stored succeed .v6 (icmpRule rx) rfl 2 w₁
    obtain ⟨w₃, run₃, tables₃, dft₃, frag₃, same₃⟩ :=
      dft_stored succeed .v6 (defaultRuleV6 conf rx) rfl 1 w₂
    have run₁ : (if conf.firewallEnable = true then
        sideV6.addFirewall answers conf rx conf.entries 0 w₀ else some (true, w₀)) = some (true, w₁) := run₁
    have runs : w.configDftFirewallRules answers read .v6 =
        configV6 answers conf rx (conf.entries.countP (¬ ·.ipVsn = 4)) w₀ := by
      simp [configDftFirewallRules, registered, first, conf_eq, run₀]
    refine ⟨w₃, ?_, ?_, ⟨?_, ?_⟩, ?_⟩
    · rw [runs, configV6_eq (succeed.routingTable _), run₁, andThen_success, run₂, andThen_success, run₃]
    · simp [tables₃, tables₂, tables₁, tables₀, staRules, sideOf]
    · rw [same₃.count, same₂.count]
      exact count₁
    -- the slot of the fragment rule holds its handle, or nothing that counts
    · have frag : [w₀.ipv6FragFirewallFltRuleHdl].filter (· ≠ 0) = (answers.handles (w.tables .v6)
          (if conf.firewallEnable = true then [fragRule rx] else [])).filter (· ≠ 0) := by
        cases enabled : conf.firewallEnable with
        | false =>
          have zero := (slot rfl).resolve_left (by simp [enabled])
          simp [frag₀, enabled, zero]
        | true => simp [frag₀, enabled, handles]
      have here : w₁.tables .v6 = w.tables .v6 ++
          (if conf.firewallEnable = true then [fragRule rx] else []) ++ sideV6.emitted conf rx := by
        simp [tables₁, tables₀, sideOf]
      have kept : w₃.keptHandles .v6 = answers.handles (w₀.tables .v6) (sideV6.emitted conf rx) ++
          [(answers.add (w₂.tables .v6) (defaultRuleV6 conf rx)).getD 0,
            (answers.add (w₁.tables .v6) (icmpRule rx)).getD 0] ++ [w₀.ipv6FragFirewallFltRuleHdl] := by
        simp [keptHandles, same₃.hdl, same₃.count, same₂.hdl, same₂.count, kept₁, dft₃, dft₂,
          frag₃, frag₂, aside₁.frag, sideOf]
      have given : answers.handles (w.tables .v6) (staRules conf rx .v6) =
          answers.handles (w.tables .v6) (if conf.firewallEnable = true then [fragRule rx] else []) ++
            (answers.handles (w₀.tables .v6) (sideV6.emitted conf rx) ++
              [(answers.add (w₁.tables .v6) (icmpRule rx)).getD 0,
                (answers.add (w₂.tables .v6) (defaultRuleV6 conf rx)).getD 0]) := by
        rw [staRules, handles_append, handles_append, ← here]
        simp [tables₀, tables₂, handles]
      rw [← all_nonzero, kept, given, List.filter_append, frag, ← List.filter_append]
      exact (List.perm_append_comm.trans (((List.Perm.swap _ _ []).append_left _).append_left _)).filter _
    · refine ⟨same₃.rxProp.trans (same₂.rxProp.trans (aside₁.rxProp.trans same₀.rxProp)), ?_, ?_, ?_⟩
      all_goals
        intro ip' other
        cases ip' with
        | v4 =>
          simp [keptHandles, same₃.hdl, same₃.count, same₂.hdl, same₂.count, aside₁.hdl,
            aside₁.count, aside₁.dft, same₀.hdl, same₀.count, dft₃, dft₂, dft₀, tables₃,
            tables₂, tables₁, tables₀]
        | v6 => exact absurd rfl other

/-! ### Runs -/

/-- What an open round leaves with the interface; without an rx property that is nothing. -/
structure IpacmWan.Holds (w : IpacmWan) (ip : IpaIpType) (hdls : List UInt32) : Prop where
  keeps : w.rxProp.isSome → w.Keeps ip hdls
  nothing : w.rxProp = none → hdls = [] ∧ w.numFirewall ip = 0

/-- The kernel holds the rules of the rounds that are open, and what is kept are their handles. -/
structure Station.Sound (s : Station) : Prop where
  registered : ∀ rxs, s.wan.rxProp = some rxs → rxs ≠ []
  tables : ∀ ip, s.wan.tables ip = (s.held ip).map Prod.snd
  idle : ∀ ip, s.round ip = none → s.held ip = [] ∧ s.wan.numFirewall ip = 0
  busy : ∀ ip hdls, s.round ip = some hdls → (s.held ip).map Prod.fst = hdls ∧ s.wan.Holds ip hdls

theorem Station.Fresh.sound {s : Station} (fresh : s.Fresh) : s.Sound where
  registered := fresh.registered
  tables ip := by simp [fresh.tables, fresh.held]
  idle ip _ := ⟨by simp [fresh.held], fresh.count ip⟩
  busy ip hdls started := by simp [fresh.round] at started

/-- A call for one family leaves the round of the other one open as it was. -/
theorem IpacmWan.Apart.holds {w w' : IpacmWan} {ip ip' : IpaIpType} (apart : w.Apart w' ip)
    (other : ip' ≠ ip) {hdls : List UInt32} (holds : w.Holds ip' hdls) : w'.Holds ip' hdls where
  keeps registered := by
    have still := holds.keeps (by rwa [apart.rxProp] at registered)
    exact ⟨by rw [apart.count ip' other]; exact still.count, by rw [apart.kept ip' other]; exact still.kept⟩
  nothing registered := by
    rw [apart.count ip' other]
    exact holds.nothing (by rwa [apart.rxProp] at registered)

/-- A round begins with an empty table, and leaves the handles of all rules in it. -/
theorem config_opens {w : IpacmWan} {read : Option FirewallConf} (succeed : answers.Succeed)
    (nonzero : ∀ table rule, answers.add table rule ≠ some 0)
    (registered : ∀ rxs, w.rxProp = some rxs → rxs ≠ []) (no_rules : w.tables ip = [])
    (no_handles : w.numFirewall ip = 0) (fits : w.rxProp.isSome → ((read.getD .zero).firewallEnable = true →
        (sideOf ip).ruleCount (read.getD .zero) ≤ maxFirewallEntries) ∧
      (ip = .v6 → (read.getD .zero).firewallEnable = true ∨ w.ipv6FragFirewallFltRuleHdl = 0)) :
    ∃ w', w.configDftFirewallRules answers read ip = some (true, w') ∧
      w'.Holds ip (answers.handles [] (w'.tables ip)) ∧ w.Apart w' ip := by
  cases is : w.rxProp with
  | none =>
    refine ⟨w, by simp [configDftFirewallRules, is], ⟨by simp [is], fun _ => ?_⟩, ?_⟩
    · exact ⟨by rw [no_rules, handles_nil], no_handles⟩
    · exact ⟨rfl, fun _ _ => rfl, fun _ _ => rfl, fun _ _ => rfl⟩
  | some rxs =>
    obtain ⟨rx, first⟩ : ∃ rx, rxs[0]? = some rx := by
      cases rxs with
      | nil => exact absurd rfl (registered [] is)
      | cons rx rest => exact ⟨rx, rfl⟩
    obtain ⟨room, slot⟩ := fits (by simp [is])
    obtain ⟨w', run, rules, keeps, apart⟩ :=
      config_keeps succeed nonzero is first read ip no_handles room slot
    rw [no_rules, List.nil_append] at rules
    rw [no_rules, ← rules] at keeps
    exact ⟨w', run, ⟨fun _ => keeps, by simp [apart.rxProp, is]⟩, apart⟩

/-- A configuration opens a round. -/
theorem config_sound {s : Station} (sound : s.Sound)
    {read : Option FirewallConf} (allowed : s.Allowed (.config ip answers read)) :
    ∃ s', s.config ip answers read = some (true, s') ∧ s'.Sound := by
  obtain ⟨between, succeed, nonzero, fits⟩ := allowed
  obtain ⟨no_rules, no_handles⟩ := sound.idle ip between
  have empty : s.wan.tables ip = [] := by rw [sound.tables, no_rules, List.map_nil]
  obtain ⟨w', run, holds, apart⟩ :=
    config_opens succeed nonzero sound.registered empty no_handles fits
  refine ⟨{ s with
      wan := w'
      held := update s.held ip ((answers.handles [] (w'.tables ip)).zip (w'.tables ip))
      round := update s.round ip (some (answers.handles [] (w'.tables ip))) },
    by simp [Station.config, run, empty, no_rules], ?_, fun ip' => ?_, fun ip' closed => ?_,
    fun ip' hdls started => ?_⟩
  · simpa [apart.rxProp] using sound.registered
  all_goals by_cases same : ip' = ip
  · subst same
    simp [List.map_snd_zip]
  · simp only [update_of_ne same, apart.tables ip' same]
    exact sound.tables ip'
  · simp [same] at closed
  · simp only [update_of_ne same] at closed ⊢
    simpa [apart.count ip' same] using sound.idle ip' closed
  · subst same
    obtain rfl : answers.handles [] (w'.tables ip') = hdls := by simpa using started
    exact ⟨by simp [List.map_fst_zip], holds⟩
  · simp only [update_of_ne same] at started ⊢
    obtain ⟨handles, held⟩ := sound.busy ip' hdls started
    exact ⟨handles, apart.holds same held⟩

@[simp] theorem IpacmWan.keptHandles_tables (w : IpacmWan) (tables : IpaIpType → List FltRule)
    (ip : IpaIpType) : keptHandles { w with tables := tables } ip = w.keptHandles ip := by
  cases ip <;> rfl

/-- Setting the number of a family to 0. -/
theorem clearNumFirewall_apart (w : IpacmWan) (ip : IpaIpType) :
    w.Apart (w.clearNumFirewall ip) ip ∧ (w.clearNumFirewall ip).numFirewall ip = 0 := by
  cases ip with
  | v4 =>
    refine ⟨⟨rfl, fun _ _ => rfl, fun ip' other => ?_, fun ip' other => ?_⟩, rfl⟩
    all_goals cases ip' with
      | v4 => exact absurd rfl other
      | v6 => rfl
  | v6 =>
    refine ⟨⟨rfl, fun _ _ => rfl, fun ip' other => ?_, fun ip' other => ?_⟩, rfl⟩
    all_goals cases ip' with
      | v4 => rfl
      | v6 => exact absurd rfl other

/-- What is deleted of an open round is what it holds. -/
theorem del_closes {w : IpacmWan} {hdls : List UInt32} (holds : w.Holds ip hdls)
    (succeed : ∀ hdl, deletes hdl = true) {active : IpaIpType → Bool} (is_active : active ip = true) :
    ∃ deleted w', w.delDftFirewallRules deletes active ip = some (true, deleted, w') ∧
      deleted.Perm hdls ∧ w'.numFirewall ip = 0 ∧ w.Apart w' ip := by
  cases is : w.rxProp with
  | none =>
    obtain ⟨no_handles, no_count⟩ := holds.nothing is
    refine ⟨[], w, by simp [delDftFirewallRules, is], by rw [no_handles], no_count, ?_⟩
    exact ⟨rfl, fun _ _ => rfl, fun _ _ => rfl, fun _ _ => rfl⟩
  | some rxs =>
    obtain ⟨⟨n, room, count⟩, kept⟩ := holds.keeps (by simp [is])
    obtain ⟨apart, cleared⟩ := clearNumFirewall_apart w ip
    exact ⟨_, _, del_deletes succeed is_active (by simp [is]) count room, kept, cleared, apart⟩

/-- Deleting closes the round: its handles go, each once, and the kernel holds no rule of the family. -/
theorem del_sound {s : Station} (sound : s.Sound) (allowed : s.Allowed (.del ip deletes)) :
    ∃ hdls deleted s', s.round ip = some hdls ∧ s.del ip deletes = some (true, deleted, s') ∧
      deleted.Perm hdls ∧ s'.held ip = [] ∧ s'.wan.numFirewall ip = 0 ∧ s'.Sound := by
  obtain ⟨started, is_active, succeed⟩ := allowed
  obtain ⟨hdls, started⟩ := Option.isSome_iff_exists.mp started
  obtain ⟨handles, holds⟩ := sound.busy ip hdls started
  obtain ⟨deleted, w', run, all, cleared, apart⟩ := del_closes holds succeed is_active
  -- every rule that is held goes with its handle
  have gone : (s.held ip).filter (·.1 ∉ deleted) = [] := by
    rw [List.filter_eq_nil_iff]
    intro r member
    have given : r.1 ∈ hdls := handles ▸ List.mem_map_of_mem member
    simpa using all.mem_iff.mpr given
  refine ⟨hdls, deleted, { s with
      wan := { w' with tables := update w'.tables ip [] }
      held := update s.held ip []
      round := update s.round ip none },
    started, by rw [Station.del, run]; simp only [Option.bind_eq_bind,
      Option.bind_some, gone, List.map_nil], all, by simp, by simpa using cleared, ?_, fun ip' => ?_,
    fun ip' closed => ?_, fun ip' hdls' open' => ?_⟩
  · simpa [apart.rxProp] using sound.registered
  all_goals by_cases same : ip' = ip
  · simp [same]
  · simp only [update_of_ne same, apart.tables ip' same]
    exact sound.tables ip'
  · subst same
    exact ⟨by simp, by simpa using cleared⟩
  · simp only [update_of_ne same] at closed ⊢
    simpa [apart.count ip' same] using sound.idle ip' closed
  · simp [same] at open'
  · simp only [update_of_ne same] at open' ⊢
    obtain ⟨handles', held⟩ := sound.busy ip' hdls' open'
    have still := apart.holds same held
    refine ⟨handles', fun registered => ⟨?_, ?_⟩, fun registered => ?_⟩
    · simpa using (still.keeps registered).count
    · simpa using (still.keeps registered).kept
    · simpa using still.nothing registered

theorem step_sound {s s' : Station} (sound : s.Sound) {call : Call} (allowed : s.Allowed call)
    (stepped : s.step call = some s') : s'.Sound := by
  cases call with
  | config ip answers read =>
    obtain ⟨t, run, after⟩ := config_sound sound allowed
    obtain rfl : t = s' := by simpa [Station.step, run] using stepped
    exact after
  | del ip deletes =>
    obtain ⟨hdls, deleted, t, -, run, -, -, -, after⟩ := del_sound sound allowed
    obtain rfl : t = s' := by simpa [Station.step, run] using stepped
    exact after
  | setActive ip active =>
    obtain rfl := Option.some.inj stepped
    exact ⟨sound.registered, sound.tables, sound.idle, sound.busy⟩

/-- In every run whose rounds fit: the next configuration stays inside the arrays of handles,
deleting takes the handles of the round, each once, and leaves none. And the table of downlink
rules is filled without leaving it exactly when its rules fit. -/
theorem firewall_rounds_hold {s t : Station} (fresh : s.Fresh) (calls : List Call)
    (run : Runs.Run Station.step Station.Allowed s calls t) :
    (∀ ip answers read, t.Allowed (.config ip answers read) →
      ∃ t', t.config ip answers read = some (true, t')) ∧ (∀ ip deletes, t.Allowed (.del ip deletes) →
      ∃ hdls deleted t', t.round ip = some hdls ∧ t.del ip deletes = some (true, deleted, t') ∧
        deleted.Perm hdls ∧ t'.held ip = [] ∧ t'.wan.numFirewall ip = 0) ∧
    ∀ {P E : Type} (k : EqKernel P E), k.Succeeds → ∀ (w : IpacmWan) (rxs : List RuleAttrib),
      w.rxProp = some rxs → 2 ≤ rxs.length → ∀ (android : Bool) (algTable : List Ipacm.IpacmAlg)
        (read : Option FirewallConf) (ip : IpaIpType) (b : Build E),
      (∃ b', w.configWanFirewallRule k android algTable read ip b = some (true, b')) ↔
        tableCount android algTable (read.getD .zero) ip ≤ maxFltRule := by
  have sound : t.Sound :=
    run.invariant Station.Sound (fun _ _ _ sound allowed stepped => step_sound sound allowed stepped)
      fresh.sound
  refine ⟨fun ip answers read allowed => ?_, fun ip deletes allowed => ?_, ?_⟩
  · obtain ⟨t', run, -⟩ := config_sound sound allowed
    exact ⟨t', run⟩
  · obtain ⟨hdls, deleted, t', started, run, all, none_held, none_kept, -⟩ := del_sound sound allowed
    exact ⟨hdls, deleted, t', started, run, all, none_held, none_kept⟩
  · intro P E k succeeds w rxs registered two android algTable read ip b
    have first : rxs[0]? = some rxs[0] := List.getElem?_eq_getElem (by omega)
    exact configWan_inside_iff succeeds registered first android algTable read ip (fun _ => by simp; omega) b

/-! ### Samples -/

/-- A kernel that numbers the rules of a table. -/
def numberedFrom (base : Nat) : FilterAnswers where
  add table _ := if (base + table.length).toUInt32 = 0 then some 1 else some (base + table.length).toUInt32
  routingTable _ := true

theorem numberedFrom_succeed (base : Nat) : (numberedFrom base).Succeed where
  add table rule := by
    unfold numberedFrom
    dsimp only
    split <;> rfl
  routingTable _ := rfl

theorem numberedFrom_ne_zero (base : Nat) (table : List FltRule) (rule : FltRule) :
    (numberedFrom base).add table rule ≠ some 0 := by
  unfold numberedFrom
  dsimp only
  split
  · decide
  · simpa using ‹¬ (base + table.length).toUInt32 = 0›

def sampleStation : Station where
  wan := sampleWan
  active _ := true
  held _ := []
  round _ := none

theorem sampleStation_fresh : sampleStation.Fresh where
  registered rxs is := by
    obtain rfl := Option.some.inj is
    simp
  tables := rfl
  held := rfl
  round := rfl
  count ip := by cases ip <;> rfl

/-- Two TCP_UDP entries are four rules and the default rule. -/
theorem firewall_rounds_hold_sample :
    ∃ t, sampleStation.step (.config .v4 (numberedFrom 1) (some (tcpUdpList 2 (by decide)))) = some t ∧
      ∃ hdls deleted t', t.round .v4 = some hdls ∧ t.del .v4 (fun _ => true) = some (true, deleted, t') ∧
        deleted.Perm hdls ∧ t'.held .v4 = [] ∧ t'.wan.numFirewall .v4 = 0 := by
  have allowed : sampleStation.Allowed (.config .v4 (numberedFrom 1) (some (tcpUdpList 2 (by decide)))) :=
    ⟨rfl, numberedFrom_succeed 1, numberedFrom_ne_zero 1, fun _ => ⟨fun _ => by decide, by simp⟩⟩
  obtain ⟨t, stepped, open'⟩ :
      ∃ t, sampleStation.step (.config .v4 (numberedFrom 1) (some (tcpUdpList 2 (by decide)))) = some t ∧
        (t.round .v4).isSome ∧ t.active .v4 = true := ⟨_, rfl, rfl, rfl⟩
  exact ⟨t, stepped, (firewall_rounds_hold sampleStation_fresh _
    (.cons allowed stepped (.nil t))).2.1 .v4 (fun _ => true) ⟨open'.1, open'.2, fun _ => rfl⟩⟩

/-- A firewall without entries. -/
def enabledConf : FirewallConf :=
  { FirewallConf.zero with ruleActionAccept := true, firewallEnable := true }

/-- Entries for one TCP port. -/
def tcpList (n : Nat) (room : n ≤ maxFirewallEntries) : FirewallConf where
  entries := List.replicate n
    { attrib := { attribMask := {.protocol, .dstPort}, dstPort := 80, v4 := { protocol := ipprotoTcp } }
      ipVsn := 4 }
  ruleActionAccept := true
  firewallEnable := true
  bounded := by simpa using room
  plain e member := by
    obtain ⟨-, rfl⟩ := List.mem_replicate.mp member
    decide

/-- Twenty-six TCP_UDP entries have more handles than there is room for. A round with the firewall
disabled deletes the fragment rule of the round before once more. Forty-seven entries do not fit
behind the four other downlink rules. -/
theorem handles_lost_and_stale :
    sampleStation.config .v4 (numberedFrom 1) (some (tcpUdpList 26 (by decide))) = none ∧
    ((sampleStation.step (.config .v6 (numberedFrom 1) (some enabledConf))).bind fun s =>
      (s.step (.del .v6 fun _ => true)).bind fun s =>
      (s.step (.config .v6 (numberedFrom 10) none)).bind fun s =>
      (s.del .v6 fun _ => true).map fun r => (s.round .v6, r.2.1)) = some (some [10, 11], [11, 10, 1]) ∧
    ¬ ∃ b', sampleWan.configWanFirewallRule sampleEqKernel true [] (some (tcpList 47 (by decide))) .v4
      sampleBuild = some (true, b') := by
  refine ⟨?_, by decide +kernel, ?_⟩
  · have overflows := (config_installs (numberedFrom_succeed 1) sampleKernel_documented
      (w := sampleWan) rfl rfl (some (tcpUdpList 26 (by decide))) .v4).2 (by decide)
    rw [Station.config, show sampleStation.wan = sampleWan from rfl, overflows]
    rfl
  · rw [configWan_inside_iff (k := sampleEqKernel)
      ⟨sampleEqKernel_preserves.generates, sampleEqKernel_preserves.answers⟩
      (w := sampleWan) rfl rfl true [] (some (tcpList 47 (by decide))) .v4 (by simp)]
    decide

end Hima.Wan
