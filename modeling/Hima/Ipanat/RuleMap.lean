import Mathlib.Data.List.Perm.Lattice
import Mathlib.Data.List.Pairwise
import Hima.Ipanat.TableRun

/-!
# The rule table as a map

What the hardware finds by walking the buckets of the rule table is what the caller of the
driver holds.
-/
namespace Hima.Ipanat

open Chains Runs

variable {t : IpaNatIp4TableCache} {chain : Nat → List Nat}
  {held : List (Nat × IpaNatIpv4Rule)} {s : TableState} {ops : List RuleOp}

/-- The live rows met on the walks over all buckets, each with its bucket. -/
def metRows (t : IpaNatIp4TableCache) (chain : Nat → List Nat) : List (Nat × Nat) :=
  (List.range t.tableEntries).flatMap fun b =>
    ((b :: chain b).filter fun r => Live t.rules r).map fun r => (b, r)

/-- The rules in those rows. -/
def metRules (t : IpaNatIp4TableCache) (chain : Nat → List Nat) : List (Nat × IpaNatIpv4Rule) :=
  (metRows t chain).map fun met => (met.1, (t.rules met.2).client)

theorem mem_metRows {b r : Nat} : (b, r) ∈ metRows t chain ↔
    b < t.tableEntries ∧ r ∈ b :: chain b ∧ Live t.rules r := by
  simp only [metRows, List.mem_flatMap, List.mem_range, List.mem_map, List.mem_filter,
    decide_eq_true_eq, Prod.mk.injEq]
  constructor
  · rintro ⟨b', hb, r', ⟨member, live⟩, rfl, rfl⟩
    exact ⟨hb, member, live⟩
  · rintro ⟨hb, member, live⟩
    exact ⟨b, hb, r, ⟨member, live⟩, rfl, rfl⟩

/-- No row is met twice. -/
theorem RulesOk.metRows_nodup (ok : RulesOk t chain) : (metRows t chain).Nodup := by
  rw [metRows, List.nodup_flatMap]
  constructor
  · intro b hb
    have path := ok.rows.table.forward.path b (List.mem_range.mp hb)
    refine ((path_nodup _ b _ path).filter _).map ?_
    exact fun _ _ same => (Prod.mk.inj same).2
  · refine List.Nodup.pairwise_of_forall_ne List.nodup_range (fun b _ b' _ ne => ?_)
    intro met in_b in_b'
    obtain ⟨_, _, rfl⟩ := List.mem_map.mp in_b
    obtain ⟨_, _, same⟩ := List.mem_map.mp in_b'
    exact ne (Prod.mk.inj same).1.symm

/-- A live row is met in the bucket its rule hashes to and in no other. -/
theorem RulesOk.mem_metRows_iff (ok : RulesOk t chain) {b r : Nat} :
    (b, r) ∈ metRows t chain ↔ Live t.rules r ∧ b = t.dstSlot (t.rules r).client := by
  rw [mem_metRows]
  constructor
  · rintro ⟨hb, member, live⟩
    exact ⟨live, (ok.rows.inBucket b hb r member live).symm⟩
  · rintro ⟨live, rfl⟩
    have home := ok.rows.live_in_home live
    exact ⟨home.1, home.2, live⟩

/-- The rows the caller's handles stand for. -/
def heldRows (t : IpaNatIp4TableCache) (held : List (Nat × IpaNatIpv4Rule)) : List (Nat × Nat) :=
  held.map fun hc => (t.dstSlot hc.2, slotOfId t.tableEntries (t.ruleId (hc.1 - 1)))

theorem HeldOk.row (h : HeldOk t held) (ok : RulesOk t chain) {hdl : Nat} {c : IpaNatIpv4Rule}
    (member : (hdl, c) ∈ held) :
    0 < hdl ∧ Live t.rules (slotOfId t.tableEntries (t.ruleId (hdl - 1))) ∧ t.ruleId (hdl - 1) =
        idOfSlot t.tableEntries (slotOfId t.tableEntries (t.ruleId (hdl - 1))) ∧
      (t.rules (slotOfId t.tableEntries (t.ruleId (hdl - 1)))).client = c := by
  obtain ⟨pos, r, live, id, client⟩ := (h.mem hdl c).mp member
  have expn := ok.sized.expnLe
  have slot := slotOfId_idOfSlot ok.sized.entriesLe (by omega) (ok.live_slot live).2.2
  rw [id, slot]
  exact ⟨pos, live, rfl, client⟩

theorem HeldOk.heldRows_nodup (h : HeldOk t held) (ok : RulesOk t chain) :
    (heldRows t held).Nodup := by
  refine List.Nodup.map_on ?_ h.nodup.of_map
  rintro ⟨hdl, c⟩ member ⟨hdl', c'⟩ member' same
  obtain ⟨pos, live, id, client⟩ := h.row ok member
  obtain ⟨pos', _, id', client'⟩ := h.row ok member'
  have slot := (Prod.mk.inj same).2
  have used : t.ruleId (hdl - 1) ≠ 0 := by
    rw [id]
    exact idOfSlot_ne_zero ok.sized.entriesLe (ok.live_slot live).1
  have same_id : t.ruleId (hdl - 1) = t.ruleId (hdl' - 1) :=
    id.trans ((congrArg (idOfSlot t.tableEntries) slot).trans id'.symm)
  have := ok.ids.injective _ _ same_id used
  rw [Prod.mk.injEq]
  exact ⟨by omega, by rw [← client, ← client', slot]⟩

theorem HeldOk.heldRows_perm (h : HeldOk t held) (ok : RulesOk t chain) :
    (metRows t chain).Perm (heldRows t held) := by
  refine (List.perm_ext_iff_of_nodup ok.metRows_nodup (h.heldRows_nodup ok)).mpr ?_
  rintro ⟨b, r⟩
  rw [ok.mem_metRows_iff, heldRows, List.mem_map]
  constructor
  · rintro ⟨live, rfl⟩
    obtain ⟨i, _, id⟩ := ok.ids.issued r live
    have expn := ok.sized.expnLe
    refine ⟨(i + 1, (t.rules r).client), (h.mem _ _).mpr ⟨Nat.succ_pos i, r, live, id, rfl⟩, ?_⟩
    rw [Nat.add_sub_cancel, id, slotOfId_idOfSlot ok.sized.entriesLe (by omega) (ok.live_slot live).2.2]
  · rintro ⟨⟨hdl, c⟩, member, eq⟩
    obtain ⟨_, live, _, client⟩ := h.row ok member
    obtain ⟨rfl, rfl⟩ := Prod.mk.inj eq
    exact ⟨live, by rw [client]⟩

/-- The rules met over all buckets are the rules the caller holds, each in its own bucket. -/
theorem HeldOk.metRules_perm (h : HeldOk t held) (ok : RulesOk t chain) :
    (metRules t chain).Perm (held.map fun hc => (t.dstSlot hc.2, hc.2)) := by
  have rows := (h.heldRows_perm ok).map fun met : Nat × Nat => (met.1, (t.rules met.2).client)
  have same : (heldRows t held).map (fun met => (met.1, (t.rules met.2).client)) =
      held.map fun hc => (t.dstSlot hc.2, hc.2) := by
    rw [heldRows, List.map_map]
    refine List.map_congr_left ?_
    rintro ⟨hdl, c⟩ member
    have client := (h.row ok member).2.2.2
    simp only [Function.comp_apply, client]
  rwa [same] at rows

/-- After any run of executed adds and deletes on a created table with base rows: the walk over
each bucket ends and leaves the base table after its first row, back links name the row the
walk came from, and the live rules met over all buckets are the rules added and not yet
deleted, as often as they were added and each in the bucket it hashes to. Handles are
distinct and a delete by one succeeds; and while index links cannot be misplaced every further
call returns. -/
theorem rule_table_refines_map (created : Created t) (hits : t.tblAddrOffset = 0)
    (base : 2 ≤ t.tableEntries) (run : Run ruleStep Executed { tbl := t } ops s) :
    ∃ chain : Nat → List Nat,
      (∀ b < t.tableEntries, Path (ruleNext s.tbl.rules) b (chain b) ∧
        (∀ e ∈ chain b, t.tableEntries ≤ e ∧ e < t.tableEntries + t.expnTableEntries) ∧
        BackLinked (rulePrev s.tbl.rules) b (chain b)) ∧
      s.tbl.tableEntries = t.tableEntries ∧
      (metRules s.tbl chain).Perm (s.held.map fun hc => (t.dstSlot hc.2, hc.2)) ∧
      (s.held.map Prod.fst).Nodup ∧
      (∀ hdl c, (hdl, c) ∈ s.held →
        ∃ ws, ipaNatiDelIpv4Rule {} s.tbl hdl = some { ret := 0, writes := ws }) ∧
      (∀ o hdl, 0 < hdl → hdl < 65536 → (ruleStep s (.del o hdl)).isSome) ∧
      (t.tableEntries ≤ 16384 → ∀ o c, (ruleStep s (.add o c)).isSome) := by
  have inv := runOk_of_created created hits base run
  obtain ⟨chain, ok⟩ := inv.table
  have home : s.tbl.dstSlot = t.dstSlot := by
    funext c
    simp only [IpaNatIp4TableCache.dstSlot, inv.entries]
  have expn : s.tbl.expnTableEntries = t.expnTableEntries := inv.expn
  refine ⟨chain, fun b hb => ?_, inv.entries, ?_, inv.held.nodup,
    fun hdl c member => inv.held.del_succeeds ok member, fun o hdl pos small => ?_,
    fun small o c => ?_⟩
  · rw [← inv.entries] at hb
    refine ⟨ok.rows.table.forward.path b hb, fun e he => ?_, ok.rows.table.backward b hb⟩
    have range := ok.rows.range hb he
    rw [inv.entries, inv.expn] at range
    exact ⟨Nat.le_of_lt range.1, range.2⟩
  · have perm := inv.held.metRules_perm ok
    rwa [home] at perm
  · obtain ⟨r, returned⟩ := ok.del_returns o ⟨pos, small⟩
    simp only [ruleStep, returned, Option.map_some, Option.isSome_some]
  · obtain ⟨_, _, table⟩ := (runFits_of_small created hits base small run).table
    obtain ⟨r, returned⟩ := table.add_returns o c
    simp only [ruleStep, returned, Option.map_some, Option.isSome_some]

theorem rule_table_refines_map_sample : ∃ s chain,
    Run ruleStep Executed { tbl := createTable 5 } sampleCollisions s ∧ s.held = [(2, sampleTwin)] ∧
      (metRules s.tbl chain).Perm
        (s.held.map fun hc => ((createTable 5).dstSlot hc.2, hc.2)) := by
  obtain ⟨s, run, held⟩ := sampleCollisions_executed
  obtain ⟨chain, _, _, perm, _⟩ :=
    rule_table_refines_map (createTable_created (by decide)) rfl (by decide) run
  exact ⟨s, chain, run, held, perm⟩

/-!
## Rule handles

A handle is the position of an entry of `rule_id_array`, and the entry names a row. Over runs of
executed calls the handles of the live rules stay apart and keep naming the rows of their rules.
-/
variable {held : List (Nat × IpaNatIpv4Rule)} {s s' : TableState} {op : RuleOp} {ops : List RuleOp} {c : IpaNatIpv4Rule} {hdl : Nat}

/-! ### Where a rule is stored -/

/-- A table type and a row number name a slot of the table. -/
def InTable (t : IpaNatIp4TableCache) (place : Bool × Nat) : Prop :=
  place.2 < if place.1 then t.expnTableEntries else t.tableEntries

/-- The rule is live in the row that a table type and a row number name. -/
def StoredAt (t : IpaNatIp4TableCache) (c : IpaNatIpv4Rule) (place : Bool × Nat) : Prop :=
  InTable t place ∧ Live t.rules (slotOf t place.1 place.2) ∧
    (t.rules (slotOf t place.1 place.2)).client = c

/-- What parsing a handle owes its caller, for all the rules it holds. -/
structure HandlesOk (t : IpaNatIp4TableCache) (held : List (Nat × IpaNatIpv4Rule)) : Prop where
  distinct : (held.map Prod.fst).Nodup
  inside : ∀ hdl c, (hdl, c) ∈ held → 0 < hdl ∧ hdl < t.tableEntries + t.expnTableEntries
  parsed : ∀ hdl c, (hdl, c) ∈ held →
    ∃ place, ipaNatiParseIpv4RuleHdl t hdl = some place ∧ StoredAt t c place
  apart : ∀ hdl c hdl' c', (hdl, c) ∈ held → (hdl', c') ∈ held →
    ipaNatiParseIpv4RuleHdl t hdl = ipaNatiParseIpv4RuleHdl t hdl' → hdl = hdl'

/-- The entry of `rule_id_array` behind a handle, and the row it parses to. -/
theorem HeldOk.parse (h : HeldOk t held) (ok : RulesOk t chain) (member : (hdl, c) ∈ held) :
    (0 < hdl ∧ hdl < t.tableEntries + t.expnTableEntries) ∧
    ∃ r, Live t.rules r ∧ (t.rules r).client = c ∧ t.ruleId (hdl - 1) = idOfSlot t.tableEntries r ∧
      ipaNatiParseIpv4RuleHdl t hdl = some (decide (t.tableEntries ≤ r), rowOf t.tableEntries r) := by
  obtain ⟨pos, r, live, id, client⟩ := (h.mem hdl c).mp member
  have slot := ok.live_slot live
  have used : t.ruleId (hdl - 1) ≠ 0 := by
    rw [id]
    exact idOfSlot_ne_zero ok.sized.entriesLe slot.1
  have inside := ok.ids.inside used
  have range : 0 < hdl ∧ hdl < t.tableEntries + t.expnTableEntries := ⟨pos, by omega⟩
  exact ⟨range, r, live, client, id, parseIpv4RuleHdl_live ok.sized slot.2.2 range id⟩

theorem storedAt_rowOf {r : Nat} (inside : r < t.tableEntries + t.expnTableEntries)
    (live : Live t.rules r) (client : (t.rules r).client = c) :
    StoredAt t c (decide (t.tableEntries ≤ r), rowOf t.tableEntries r) := by
  refine ⟨?_, ?_, ?_⟩
  · simp only [InTable, rowOf, decide_eq_true_eq]
    split <;> omega
  · rwa [slotOf_rowOf]
  · rwa [slotOf_rowOf]

theorem HeldOk.handlesOk (h : HeldOk t held) (ok : RulesOk t chain) : HandlesOk t held where
  distinct := h.nodup
  inside hdl c member := (h.parse ok member).1
  parsed hdl c member := by
    obtain ⟨-, r, live, client, -, parsed⟩ := h.parse ok member
    exact ⟨_, parsed, storedAt_rowOf (ok.live_slot live).2.2 live client⟩
  apart hdl c hdl' c' member member' same := by
    obtain ⟨⟨pos, -⟩, r, live, -, id, parsed⟩ := h.parse ok member
    obtain ⟨⟨pos', -⟩, r', -, -, id', parsed'⟩ := h.parse ok member'
    rw [parsed, parsed'] at same
    -- the same place is the same row, and a row has one entry only
    have rows : r = r' := by
      have places := Option.some.inj same
      rw [← slotOf_rowOf t r, ← slotOf_rowOf t r', (Prod.mk.inj places).1, (Prod.mk.inj places).2]
    have used : t.ruleId (hdl - 1) ≠ 0 := by
      rw [id]
      exact idOfSlot_ne_zero ok.sized.entriesLe (ok.live_slot live).1
    have := ok.ids.injective _ _ (id.trans (rows ▸ id'.symm)) used
    omega

/-! ### Making a handle -/

theorem RulesOk.generated_place (ok : RulesOk t chain) {g : GeneratedRule}
    (generated : ipaNatiGenerateRule t c = some (.ok g)) :
    ∃ p, RulePlace t.tableEntries t.expnTableEntries t.rules chain (t.dstSlot c) g.tblEntry p := by
  rcases generateTblRule_spec ok.sized ok.rows c with ⟨e, p, place, rule⟩ | ⟨-, row, rule⟩
  · have nonzero := place.ne_zero ok.sized
    cases index : ipaNatiGenerateIndexRule t c { tblEntry := e } with
    | none =>
      simp only [ipaNatiGenerateRule, rule, index, ipaNatInvalidNatEntry, nonzero, if_false,
        reduceCtorEq] at generated
    | some found =>
      by_cases none : found.2 = 0
      · simp only [ipaNatiGenerateRule, rule, index, ipaNatInvalidNatEntry, nonzero, if_false, none,
          if_true, Option.some.injEq, reduceCtorEq] at generated
      · simp only [ipaNatiGenerateRule, rule, index, ipaNatInvalidNatEntry, nonzero, if_false, none,
          Option.some.injEq, Except.ok.injEq] at generated
        rw [← generated]
        exact ⟨p, place⟩
  · simp only [ipaNatiGenerateRule, rule, ipaNatInvalidNatEntry, if_true, Option.some.injEq,
      reduceCtorEq] at generated

/-- When a slot has been found, some entry before the last one is free: two slots are never used. -/
theorem RulesOk.makeRuleHdl_pos (ok : RulesOk t chain) {g : GeneratedRule}
    (generated : ipaNatiGenerateRule t c = some (.ok g)) :
    (ipaNatiMakeRuleHdl t g.tblEntry).1 ≠ 0 := by
  obtain ⟨p, place⟩ := ok.generated_place generated
  rcases makeRuleHdl_cases t g.tblEntry with ⟨-, full⟩ | ⟨i, -, -, -, made⟩
  · exact absurd full (ok.not_full place)
  · rw [made]
    exact Nat.succ_ne_zero i

/-! ### One call -/

theorem parse_congr {t' : IpaNatIp4TableCache} (entries : t'.tableEntries = t.tableEntries)
    (expn : t'.expnTableEntries = t.expnTableEntries) (id : t'.ruleId (hdl - 1) = t.ruleId (hdl - 1)) :
    ipaNatiParseIpv4RuleHdl t' hdl = ipaNatiParseIpv4RuleHdl t hdl := by
  simp only [ipaNatiParseIpv4RuleHdl, entries, expn, id]

/-- What one more call does to handles: those that stay parse to what they did, and a new one parses
to a row that no rule was in. -/
def HandlesKept (s s' : TableState) : Prop :=
  (∀ hdl c, (hdl, c) ∈ s.held → (hdl, c) ∈ s'.held →
    ipaNatiParseIpv4RuleHdl s'.tbl hdl = ipaNatiParseIpv4RuleHdl s.tbl hdl) ∧
  ∀ hdl c, (hdl, c) ∈ s'.held → (hdl, c) ∉ s.held →
    ∃ place, ipaNatiParseIpv4RuleHdl s'.tbl hdl = some place ∧ StoredAt s'.tbl c place ∧
      ¬ Live s.tbl.rules (slotOf s.tbl place.1 place.2)

theorem HandlesKept.refl (s : TableState) : HandlesKept s s :=
  ⟨fun _ _ _ _ => rfl, fun _ _ member other => absurd member other⟩

theorem RunOk.handlesKept {N M : Nat} (h : RunOk N M s) (allowed : Executed s op)
    (stepped : ruleStep s op = some s') : HandlesKept s s' := by
  obtain ⟨chain, ok⟩ := h.table
  obtain ⟨chain', ok'⟩ := (h.step allowed stepped).table
  have held' := (h.step allowed stepped).held
  cases op with
  | add o c =>
    obtain ⟨r, returned, rfl⟩ := Option.map_eq_some_iff.mp stepped
    obtain ⟨rfl, proto⟩ := allowed
    rcases ok.add proto rfl rfl returned with rfl | ⟨e, i, ret, issued, -, added⟩
    · exact HandlesKept.refl s
    · simp only [ret, if_true] at held' ⊢
      constructor
      · intro hdl c' member _
        obtain ⟨-, row, live, -, id, -⟩ := h.held.parse ok member
        apply parse_congr (s.tbl.writes_tableEntries _) (s.tbl.writes_expnTableEntries _)
        -- the entry taken for the new rule was free, the others are as they were
        have other : hdl - 1 ≠ i := by
          intro same
          rw [same, added.unused] at id
          exact idOfSlot_ne_zero ok.sized.entriesLe (ok.live_slot live).1 id.symm
        simp only [added.ids]
        exact Function.update_of_ne other _ _
      · intro hdl c' member new
        obtain ⟨-, row, live, client, id, parsed⟩ := held'.parse ok' member
        have fresh : hdl = i + 1 := by
          rcases List.mem_cons.mp member with eq | old
          · exact (Prod.mk.inj eq).1.trans issued
          · exact absurd old new
        have id_row : idOfSlot s.tbl.tableEntries e = idOfSlot s.tbl.tableEntries row := by
          have id' := id
          rw [fresh, Nat.add_sub_cancel, added.ids, Function.update_self, s.tbl.writes_tableEntries] at id'
          exact id'
        have range := ok'.live_slot ((added.live_iff e).mpr (.inr rfl))
        have range' := ok'.live_slot live
        simp only [s.tbl.writes_tableEntries, s.tbl.writes_expnTableEntries] at range range'
        have same : e = row := idOfSlot_inj ok.sized.entriesLe (ok.sized.expnLe.trans (by omega))
          range.2.2 range'.2.2 id_row
        refine ⟨_, parsed, storedAt_rowOf (ok'.live_slot live).2.2 live client, ?_⟩
        simp only [s.tbl.writes_tableEntries]
        rw [slotOf_rowOf, ← same]
        exact added.free
  | del o gone =>
    obtain ⟨r, returned, rfl⟩ := Option.map_eq_some_iff.mp stepped
    rcases delIpv4Rule_cases ok.idsOk returned with rfl | ⟨row, live, range, id, rfl⟩
    · exact HandlesKept.refl s
    · obtain ⟨-, -, removed⟩ := ok.del live id o.reorderMalloc
      constructor
      · intro hdl c member stays
        have other : hdl ≠ gone := of_decide_eq_true (List.mem_filter.mp stays).2
        have pos := (h.held.parse ok member).1.1
        apply parse_congr (s.tbl.writes_tableEntries _) (s.tbl.writes_expnTableEntries _)
        rw [removed.ids]
        exact Function.update_of_ne (by omega) _ _
      · intro hdl c member new
        exact absurd (List.mem_filter.mp member).1 new

/-- After any run of executed adds and deletes on a created table with base rows, of rules that do not
carry the driver's own marker: the handles of the live rules are distinct, inside the bounds of the
check and parse to the rows of their rules, each to its own; a handle can be made for every rule that
a slot is found for; and every further call leaves the handles that stay parsed as they were and
parses a new one to the row it has just filled. -/
theorem rule_handles (created : Created t) (hits : t.tblAddrOffset = 0) (base : 2 ≤ t.tableEntries)
    (run : Run ruleStep Executed { tbl := t } ops s) :
    HandlesOk s.tbl s.held ∧
    (∀ c g, ipaNatiGenerateRule s.tbl c = some (.ok g) →
      (ipaNatiMakeRuleHdl s.tbl g.tblEntry).1 ≠ 0) ∧
    ∀ op s', Executed s op → ruleStep s op = some s' → HandlesKept s s' := by
  have inv := runOk_of_created created hits base run
  obtain ⟨chain, ok⟩ := inv.table
  refine ⟨inv.held.handlesOk ok, ?_, ?_⟩
  · intro c g generated
    exact ok.makeRuleHdl_pos generated
  · intro op s' allowed stepped
    exact inv.handlesKept allowed stepped

theorem rule_handles_sample : ∃ s, Run ruleStep Executed { tbl := createTable 5 } sampleCollisions s ∧
    s.held = [(2, sampleTwin)] ∧ HandlesOk s.tbl s.held := by
  obtain ⟨s, run, held⟩ := sampleCollisions_executed
  exact ⟨s, run, held, (rule_handles (createTable_created (by decide)) rfl (by decide) run).1⟩

/-- A rule with the marker for a protocol, in a slot of its own. -/
def markedRule : IpaNatIpv4Rule :=
  { sampleRule with publicPort := 40002, protocol := ipaNatInvalidProtoFieldCmp }

/-- With the driver's marker for a protocol, a rule is swept away by the delete of another one, and
its handle parses to a row that is off. -/
theorem marked_rule_swept :
    (([.add {} sampleRule, .add {} markedRule, .del {} 1] : List RuleOp).foldlM ruleStep
        { tbl := createTable 5 }).map (fun s =>
      (s.held, ipaNatiParseIpv4RuleHdl s.tbl 2, (s.tbl.rules (slotOf s.tbl false 2)).enable)) =
    some ([(2, markedRule)], some (false, 2), false) := by
  decide

end Hima.Ipanat
