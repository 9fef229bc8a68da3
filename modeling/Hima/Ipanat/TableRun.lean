import Hima.Lib.Runs
import Hima.Ipanat.Lifecycle
import Hima.Ipanat.TableInvariant

/-!
# Runs of a table

A created table under any sequence of adds and deletes. Beside the table a run carries what
its caller knows: the rules it has added and not yet deleted, each with its handle.
-/
namespace Hima.Ipanat

open Chains Runs

inductive RuleOp
  | add (outcomes : AddOutcomes) (clntRule : IpaNatIpv4Rule)
  | del (outcomes : DelOutcomes) (ruleHdl : Nat)

structure TableState where
  tbl : IpaNatIp4TableCache
  held : List (Nat × IpaNatIpv4Rule) := []

/-- One call. The caller goes by the return value: 0 means that the rule is in, or out. -/
def ruleStep (s : TableState) : RuleOp → Option TableState
  | .add o c =>
    (ipaNatiAddIpv4Rule o s.tbl c).map fun r : AddResult =>
      { tbl := s.tbl.writes r.writes
        held := if r.ret = 0 then (r.ruleHdl, c) :: s.held else s.held }
  | .del o h =>
    (ipaNatiDelIpv4Rule o s.tbl h).map fun r : DelResult =>
      { tbl := s.tbl.writes r.writes
        held := if r.ret = 0 then s.held.filter (·.1 ≠ h) else s.held }

/-- Every request of an add is executed, and the rule does not carry the driver's own marker.
Deletes are free to fail. -/
def Executed (_ : TableState) : RuleOp → Prop
  | .add o c => o = {} ∧ c.protocol ≠ ipaNatInvalidProtoFieldCmp
  | .del _ _ => True

/-- Executed, and the index link of an add reaches its row. -/
def ExecutedFits (s : TableState) : RuleOp → Prop
  | .add o c => o = {} ∧ c.protocol ≠ ipaNatInvalidProtoFieldCmp ∧ IndexLinkFits s.tbl c
  | .del _ _ => True

/-- The rules the caller holds are the live rules of the table, under the handles that
`rule_id_array` has for them. -/
structure HeldOk (t : IpaNatIp4TableCache) (held : List (Nat × IpaNatIpv4Rule)) : Prop where
  nodup : (held.map Prod.fst).Nodup
  mem : ∀ h c, (h, c) ∈ held ↔ 0 < h ∧ ∃ s, Live t.rules s ∧
    t.ruleId (h - 1) = idOfSlot t.tableEntries s ∧ (t.rules s).client = c

variable {t : IpaNatIp4TableCache} {held : List (Nat × IpaNatIpv4Rule)}
  {chain ichain : Nat → List Nat}

/-! ### The start -/

theorem FreshTable.ok (h : FreshTable t) (hits : t.tblAddrOffset = 0)
    (base : 2 ≤ t.tableEntries) : TableOk t (fun _ => []) (fun _ => []) := by
  have le : t.tableEntries ≤ 32768 := by
    rcases h.entries with zero | ⟨k, _, le, eq⟩
    · omega
    · rw [eq]
      exact Nat.pow_le_pow_right (by decide) le
  have expn := h.expn
  have off : ∀ s, (t.rules s).enable = false := fun s => by rw [h.rules]
  have not_live : ∀ s, ¬Live t.rules s := fun s live => Bool.false_ne_true ((off s).symm.trans live.1)
  have unused : ∀ x, (t.index x).tblEntry = 0 := fun x => by rw [h.index]
  have no_id : ∀ i, t.ruleId i = 0 := fun i => by rw [h.ruleId]
  refine ⟨⟨⟨h.valid, base, expn.1, le, by omega, hits⟩, ?_, fun b _ dead => ?_, ?_⟩, ?_, ?_, fun s _ => ?_⟩
  · refine ⟨⟨⟨fun b _ => ?_, by simp, by simp⟩, fun b _ => trivial, by simp, fun e _ on => ?_, by simp⟩,
      by simp, fun s _ => ?_, fun b _ s _ live => absurd live (not_live s), off 0⟩
    · rw [path_nil, ruleNext, h.rules]
      rfl
    · exact absurd (on.symm.trans (off e)) Bool.true_eq_false_eq_False
    · rw [h.rules]
      rfl
  · rw [h.rules] at dead
    cases dead
  · exact ⟨fun i used => absurd (no_id i) used, fun i _ _ used => absurd (no_id i) used,
      fun s live => absurd live (not_live s)⟩
  · refine ⟨⟨⟨fun b _ => ?_, by simp, by simp⟩, fun b _ => trivial, by simp,
      fun x _ used => absurd (unused x) used, by simp⟩, fun x _ => by rw [h.index], unused 0⟩
    rw [path_nil, indexNext, h.index]
    rfl
  · exact ⟨fun s live => absurd live (not_live s), fun x used => absurd (unused x) used⟩
  · rw [h.rules]

theorem FreshTable.heldOk (h : FreshTable t) : HeldOk t [] := by
  refine ⟨List.nodup_nil, fun hdl c => ⟨nofun, ?_⟩⟩
  rintro ⟨_, s, live, _⟩
  rw [Live, h.rules] at live
  cases live.1

/-! ### One call -/

theorem HeldOk.added {t' : IpaNatIp4TableCache} {c : IpaNatIpv4Rule} {e i : Nat}
    (h : HeldOk t held) (ok : IdsOk t) (ok' : IdsOk t')
    (entries : t'.tableEntries = t.tableEntries) (added : Added t t' c e i) :
    HeldOk t' ((i + 1, c) :: held) := by
  have small := ok.sized.entriesLe
  have expn := ok'.sized.expnLe
  have live_e : Live t'.rules e := (added.live_iff e).mpr (Or.inr rfl)
  have id_e : t'.ruleId i = idOfSlot t.tableEntries e := by
    rw [added.ids, Function.update_self]
  -- the new handle is not in use
  have unused : ∀ hdl s, Live t.rules s → t.ruleId (hdl - 1) = idOfSlot t.tableEntries s → hdl - 1 ≠ i := by
    intro hdl s live id eq
    rw [eq, added.unused] at id
    exact idOfSlot_ne_zero small (ok.live_slot _ live).1 id.symm
  refine ⟨?_, fun hdl c' => ?_⟩
  · rw [List.map_cons, List.nodup_cons]
    refine ⟨fun member => ?_, h.nodup⟩
    obtain ⟨⟨hdl, c'⟩, member, eq⟩ := List.mem_map.mp member
    obtain ⟨_, s, live, id, _⟩ := (h.mem hdl c').mp member
    exact unused hdl s live id (by simp only at eq; omega)
  · rw [List.mem_cons, Prod.mk.injEq, entries, h.mem]
    constructor
    · rintro (⟨rfl, rfl⟩ | ⟨pos, s, live, id, client⟩)
      · exact ⟨Nat.succ_pos i, e, live_e, id_e, added.client⟩
      · refine ⟨pos, s, (added.live_iff s).mpr (Or.inl live), ?_, ?_⟩
        · rw [added.ids, Function.update_of_ne (unused hdl s live id), id]
        · rw [added.kept s (fun eq => added.free (eq ▸ live)), client]
    · rintro ⟨pos, s, live, id, client⟩
      by_cases eq : s = e
      · left
        subst eq
        have used : t'.ruleId (hdl - 1) ≠ 0 := by
          rw [id]
          exact idOfSlot_ne_zero small (ok'.live_slot _ live).1
        have := ok'.ids.injective (hdl - 1) i (id.trans id_e.symm) used
        exact ⟨by omega, client.symm.trans added.client⟩
      · right
        have was : Live t.rules s :=
          ((added.live_iff s).mp live).elim (fun live => live) (fun same => absurd same eq)
        have ne : hdl - 1 ≠ i := by
          intro same
          rw [same, id_e] at id
          have bound := (ok'.live_slot _ live).2.2
          have bound_e := (ok'.live_slot _ live_e).2.2
          rw [entries] at bound bound_e
          exact eq (idOfSlot_inj small (by omega) bound bound_e id.symm)
        rw [added.ids, Function.update_of_ne ne] at id
        exact ⟨pos, s, was, id, (added.kept s eq).symm.trans client⟩

theorem HeldOk.removed {t' : IpaNatIp4TableCache} {s hdl : Nat} (h : HeldOk t held)
    (ok : IdsOk t) (entries : t'.tableEntries = t.tableEntries) (live : Live t.rules s)
    (pos : 0 < hdl) (id : t.ruleId (hdl - 1) = idOfSlot t.tableEntries s)
    (removed : Removed t t' s hdl) : HeldOk t' (held.filter (·.1 ≠ hdl)) := by
  have small := ok.sized.entriesLe
  have expn := ok.sized.expnLe
  have slot := ok.live_slot s live
  refine ⟨?_, fun hdl' c => ?_⟩
  · exact h.nodup.sublist (List.filter_sublist.map Prod.fst)
  · rw [List.mem_filter, h.mem, entries, removed.ids]
    simp only [decide_eq_true_eq]
    constructor
    · rintro ⟨⟨pos', r, alive, id', client⟩, ne⟩
      have ne_s : r ≠ s := by
        rintro rfl
        have used : t.ruleId (hdl - 1) ≠ 0 := by
          rw [id]
          exact idOfSlot_ne_zero small slot.1
        have := ok.ids.injective _ _ (id.trans id'.symm) used
        omega
      refine ⟨pos', r, (removed.live_iff r).mpr ⟨alive, ne_s⟩, ?_, ?_⟩
      · rw [Function.update_of_ne (by omega), id']
      · rw [removed.kept r alive ne_s, client]
    · rintro ⟨pos', r, alive, id', client⟩
      obtain ⟨was, ne_s⟩ := (removed.live_iff r).mp alive
      have ne : hdl' ≠ hdl := by
        rintro rfl
        rw [Function.update_self] at id'
        exact idOfSlot_ne_zero small (ok.live_slot _ was).1 id'.symm
      rw [Function.update_of_ne (by omega)] at id'
      exact ⟨⟨pos', r, was, id', (removed.kept r was ne_s).symm.trans client⟩, ne⟩

/-- What the runs of a table keep: its size, the invariant `Ok`, and the caller's list. -/
structure RunInv (Ok : IpaNatIp4TableCache → Prop) (N M : Nat) (s : TableState) : Prop where
  entries : s.tbl.tableEntries = N
  expn : s.tbl.expnTableEntries = M
  table : Ok s.tbl
  held : HeldOk s.tbl s.held

/-- The rule table is in order. -/
abbrev RunOk := RunInv (fun t => ∃ chain, RulesOk t chain)

/-- Both tables are. -/
abbrev RunFits := RunInv (fun t => ∃ chain ichain, TableOk t chain ichain)

variable {N M : Nat} {s s' u : TableState} {op : RuleOp} {ops : List RuleOp}

/-- A refused call changes nothing. -/
theorem RunInv.refused {Ok : IpaNatIp4TableCache → Prop} (h : RunInv Ok N M s) {e : Int}
    (failed : e ≠ 0) (held' : List (Nat × IpaNatIpv4Rule)) :
    RunInv Ok N M { tbl := s.tbl.writes [], held := if e = 0 then held' else s.held } := by
  rw [if_neg failed]
  exact h

/-- A call that added a rule. -/
theorem RunInv.added {Ok : IpaNatIp4TableCache → Prop} (h : RunInv Ok N M s) {r : AddResult}
    {c : IpaNatIpv4Rule} {e i : Nat} (before : IdsOk s.tbl)
    (after : IdsOk (s.tbl.writes r.writes)) (ok : Ok (s.tbl.writes r.writes))
    (ret : r.ret = 0) (hdl : r.ruleHdl = i + 1) (added : Added s.tbl (s.tbl.writes r.writes) c e i) :
    RunInv Ok N M { tbl := s.tbl.writes r.writes
                    held := if r.ret = 0 then (r.ruleHdl, c) :: s.held else s.held } where
  entries := (s.tbl.writes_tableEntries _).trans h.entries
  expn := (s.tbl.writes_expnTableEntries _).trans h.expn
  table := ok
  held := by
    rw [if_pos ret, hdl]
    exact h.held.added before after (s.tbl.writes_tableEntries _) added

theorem RunOk.step (h : RunOk N M s) (allowed : Executed s op)
    (stepped : ruleStep s op = some s') : RunOk N M s' := by
  obtain ⟨chain, ok⟩ := h.table
  cases op with
  | add o c =>
    obtain ⟨r, returned, rfl⟩ := Option.map_eq_some_iff.mp stepped
    obtain ⟨rfl, proto⟩ := allowed
    rcases ok.add proto rfl rfl returned with rfl | ⟨e, i, ret, hdl, ok', added⟩
    · exact h.refused (by decide) _
    · exact h.added ok.idsOk ok'.idsOk ⟨_, ok'⟩ ret hdl added
  | del o hdl =>
    obtain ⟨r, returned, rfl⟩ := Option.map_eq_some_iff.mp stepped
    rcases delIpv4Rule_cases ok.idsOk returned with rfl | ⟨row, live, range, id, rfl⟩
    · exact h.refused (by decide) _
    · obtain ⟨chain', ok', removed⟩ := ok.del live id o.reorderMalloc
      refine ⟨(s.tbl.writes_tableEntries _).trans h.entries,
        (s.tbl.writes_expnTableEntries _).trans h.expn, ⟨chain', ok'⟩, ?_⟩
      exact h.held.removed ok.idsOk (s.tbl.writes_tableEntries _) live range.1 id removed

theorem RunFits.of_add (h : RunFits N M s) {chain ichain : Nat → List Nat} (ok : TableOk s.tbl chain ichain)
    {o : AddOutcomes} {c : IpaNatIpv4Rule}
    (ends : ipaNatiAddIpv4Rule o s.tbl c = some { ret := -EINVAL } ∨ AddsRule s.tbl chain ichain o c)
    (stepped : ruleStep s (.add o c) = some s') : RunFits N M s' := by
  obtain ⟨r, returned, rfl⟩ := Option.map_eq_some_iff.mp stepped
  rcases ends with refused | ⟨r', e, x, i, returned', ret, hdl, ok', added⟩
  · rw [refused] at returned
    cases returned
    exact h.refused (by decide) _
  · rw [returned'] at returned
    cases returned
    exact h.added ok.idsOk ok'.idsOk ⟨_, _, ok'⟩ ret hdl added

theorem RunFits.step (h : RunFits N M s) (allowed : ExecutedFits s op)
    (stepped : ruleStep s op = some s') : RunFits N M s' := by
  obtain ⟨chain, ichain, ok⟩ := h.table
  cases op with
  | add o c =>
    obtain ⟨rfl, proto, fits⟩ := allowed
    exact h.of_add ok ((ok.add proto fits (fun _ => rfl) (fun _ => rfl) rfl).imp_left And.left) stepped
  | del o hdl =>
    obtain ⟨r, returned, rfl⟩ := Option.map_eq_some_iff.mp stepped
    rcases delIpv4Rule_cases ok.idsOk returned with rfl | ⟨row, live, range, id, rfl⟩
    · exact h.refused (by decide) _
    · obtain ⟨chain', ichain', ok', removed⟩ := ok.del live id o.reorderMalloc
      refine ⟨(s.tbl.writes_tableEntries _).trans h.entries,
        (s.tbl.writes_expnTableEntries _).trans h.expn, ⟨chain', ichain', ok'⟩, ?_⟩
      exact h.held.removed ok.idsOk (s.tbl.writes_tableEntries _) live range.1 id removed

theorem runOk_of_created (created : Created t) (hits : t.tblAddrOffset = 0)
    (base : 2 ≤ t.tableEntries) (run : Run ruleStep Executed { tbl := t } ops s) :
    RunOk t.tableEntries t.expnTableEntries s := by
  refine run.invariant _ (fun _ _ _ inv allowed stepped => inv.step allowed stepped) ?_
  exact ⟨rfl, rfl, ⟨_, (created.fresh.ok hits base).toRulesOk⟩, created.fresh.heldOk⟩

theorem runFits_of_created (created : Created t) (hits : t.tblAddrOffset = 0)
    (base : 2 ≤ t.tableEntries) (run : Run ruleStep ExecutedFits { tbl := t } ops s) :
    RunFits t.tableEntries t.expnTableEntries s := by
  refine run.invariant _ (fun _ _ _ inv allowed stepped => inv.step allowed stepped) ?_
  exact ⟨rfl, rfl, ⟨_, _, created.fresh.ok hits base⟩, created.fresh.heldOk⟩

theorem runFits_of_small (created : Created t) (hits : t.tblAddrOffset = 0)
    (base : 2 ≤ t.tableEntries) (small : t.tableEntries ≤ 16384)
    (run : Run ruleStep Executed { tbl := t } ops s) :
    RunFits t.tableEntries t.expnTableEntries s := by
  refine run.invariant _ (fun s op s' inv allowed stepped => inv.step ?_ stepped)
    ⟨rfl, rfl, ⟨_, _, created.fresh.ok hits base⟩, created.fresh.heldOk⟩
  cases op with
  | add o c =>
    obtain ⟨_, _, ok⟩ := inv.table
    exact ⟨allowed.1, allowed.2, indexLinkFits_of_le ok.sized (inv.entries ▸ small) c⟩
  | del => trivial

/-! ### Calls that return -/

/-- A delete by a handle of at most 16 bits returns. -/
theorem RulesOk.del_returns (ok : RulesOk t chain) (o : DelOutcomes) {hdl : Nat}
    (range : 0 < hdl ∧ hdl < 65536) : ∃ r, ipaNatiDelIpv4Rule o t hdl = some r := by
  have small : hdl % 65536 = hdl := Nat.mod_eq_of_lt range.2
  by_cases stale : hdl < t.tableEntries + t.expnTableEntries → t.ruleId (hdl - 1) = 0
  · exact ⟨_, delIpv4Rule_stale o (small.symm ▸ range.1) (small.symm ▸ stale)⟩
  · obtain ⟨inside, used⟩ := Classical.not_imp.mp stale
    obtain ⟨r, live, id⟩ := ok.ids.decodes _ used
    have slot := ok.live_slot live
    rw [delIpv4Rule_live ok.sized o live slot.1 slot.2 ⟨range.1, inside⟩ id]
    split
    · exact ⟨_, rfl⟩
    · exact ⟨_, rfl⟩

/-- A delete by a handle the caller holds succeeds when its requests do. -/
theorem HeldOk.del_succeeds (h : HeldOk t held) (ok : RulesOk t chain) {hdl : Nat}
    {c : IpaNatIpv4Rule} (member : (hdl, c) ∈ held) :
    ∃ ws, ipaNatiDelIpv4Rule {} t hdl = some { ret := 0, writes := ws } := by
  obtain ⟨pos, r, live, id, _⟩ := (h.mem hdl c).mp member
  have slot := ok.live_slot live
  have used : t.ruleId (hdl - 1) ≠ 0 := by
    rw [id]
    exact idOfSlot_ne_zero ok.sized.entriesLe slot.1
  have inside := ok.ids.inside used
  rw [delIpv4Rule_live ok.sized {} live slot.1 slot.2 ⟨pos, by omega⟩ id]
  exact ⟨_, rfl⟩

/-- With both tables in order an add returns, whatever becomes of its requests. -/
theorem TableOk.add_returns (h : TableOk t chain ichain) (o : AddOutcomes) (c : IpaNatIpv4Rule) :
    ∃ r, ipaNatiAddIpv4Rule o t c = some r := by
  rcases addIpv4Rule_spec h.sized h.rows h.index o c with ⟨refused, _⟩ | ⟨r, _, _, _, _, returned, _⟩
  · exact ⟨_, refused⟩
  · exact ⟨r, returned⟩

/-- A TCP connection of a client, for the runs on fixed inputs. -/
def sampleRule : IpaNatIpv4Rule where
  targetIp := 0x08080808
  privateIp := 0xC0A80102
  targetPort := 443
  privatePort := 40000
  publicPort := 40000
  protocol := ipprotoTcp

/-- A connection of another client to the same server, with the same source hash. -/
def sampleClash : IpaNatIpv4Rule :=
  { sampleRule with privateIp := 0xC0A80103, privatePort := 40001, publicPort := 40001 }

/-- A connection of the same client whose rule goes to the same two buckets. -/
def sampleTwin : IpaNatIpv4Rule := { sampleRule with privatePort := 40004, publicPort := 40004 }

/-- The second rule goes to the expansion rows of both tables, and the head in front of it is deleted. -/
def sampleCollisions : List RuleOp := [.add {} sampleRule, .add {} sampleTwin, .del {} 1]

instance (s : TableState) : (op : RuleOp) → Decidable (ExecutedFits s op)
  | .add o c => inferInstanceAs (Decidable (o = {} ∧ c.protocol ≠ _ ∧ IndexLinkFits s.tbl c))
  | .del _ _ => inferInstanceAs (Decidable True)

/-- The dead head stays in its place, and the row behind the index head was copied into it. -/
theorem sampleCollisions_run : ∃ s, Run ruleStep ExecutedFits { tbl := createTable 5 } sampleCollisions s ∧
    (s.held, (s.tbl.rules 1).protocol, (s.tbl.rules 1).nextIndex, (s.tbl.index 3).tblEntry) =
      ([(2, sampleTwin)], ipaNatInvalidProtoFieldCmp, 5, 5) := by
  obtain ⟨s, ran, shown⟩ := Option.map_eq_some_iff.mp
    (show (checked ruleStep ExecutedFits sampleCollisions { tbl := createTable 5 }).map (fun s =>
        (s.held, (s.tbl.rules 1).protocol, (s.tbl.rules 1).nextIndex, (s.tbl.index 3).tblEntry)) =
      some ([(2, sampleTwin)], ipaNatInvalidProtoFieldCmp, 5, 5) by decide +kernel)
  exact ⟨s, .of_checked ran, shown⟩

theorem sampleCollisions_executed :
    ∃ s, Run ruleStep Executed { tbl := createTable 5 } sampleCollisions s ∧ s.held = [(2, sampleTwin)] := by
  obtain ⟨s, run, shown⟩ := sampleCollisions_run
  refine ⟨s, run.mono fun s op _ fits => ?_, congrArg Prod.fst shown⟩
  cases op with
  | add => exact ⟨fits.1, fits.2.1⟩
  | del => trivial

/-!
## The index table and the rules it names

The index table is the second way into the rule table. Where its offsets fit the driver's
types, each live rule is named by one index row, reachable from the bucket its source hashes
to, and each occupied index row names one live rule.
-/
variable {chain ichain : Nat → List Nat} {s : TableState}

/-- The rule an occupied index row belongs to is the only one that remembers the row. -/
theorem TableOk.unique_owner (h : TableOk t chain ichain) {x : Nat} (used : (t.index x).tblEntry ≠ 0) :
    ∃! r, Live t.rules r ∧ (t.rules r).indxTblEntry = x := by
  refine ⟨(t.index x).tblEntry, h.cross.owner x used, ?_⟩
  rintro r ⟨live, rfl⟩
  exact (h.cross.named r live).1.symm

/-- An occupied expansion row of the index table lies on one chain, behind the row that its
metadata names. -/
theorem TableOk.index_predecessor (h : TableOk t chain ichain) {x : Nat}
    (expn : t.tableEntries ≤ x) (used : (t.index x).tblEntry ≠ 0) :
    ∃ b < t.tableEntries, ∃ l m, ichain b = l ++ x :: m ∧
      t.prevIndexMeta (x - t.tableEntries) = l.getLastD b := by
  obtain ⟨b, hb, member⟩ := h.index.table.onChain x (Nat.not_lt.mpr expn) used
  obtain ⟨l, m, at_x⟩ := List.append_of_mem member
  have back := h.index.table.backward b hb
  rw [at_x, backLinked_split] at back
  exact ⟨b, hb, l, m, at_x, back.2.1⟩

/-- After any run of executed adds and deletes on a created table whose index offsets fit 16
bits: every live rule is named by the index row it remembers, which is reachable from the
bucket its source hashes to; every occupied index row belongs to exactly one live rule; the
index chains end; and the metadata of an occupied expansion row is the row before it in the
one chain it is on. -/
theorem index_rows_match_rules (created : Created t) (hits : t.tblAddrOffset = 0) (base : 2 ≤ t.tableEntries)
    (offsets : (t.tableEntries - 1) * ipaNatIndexTableEntrySize + ipaNatIndexRuleNextFieldOffset < 65536)
    (run : Run ruleStep Executed { tbl := t } ops s) :
    ∃ ichain : Nat → List Nat,
      (∀ b < t.tableEntries, Path (indexNext s.tbl.index) b (ichain b)) ∧
      (∀ r, Live s.tbl.rules r →
        (s.tbl.index (s.tbl.rules r).indxTblEntry).tblEntry = r ∧
        t.srcSlot (s.tbl.rules r).client < t.tableEntries ∧
        (s.tbl.rules r).indxTblEntry ∈
          t.srcSlot (s.tbl.rules r).client :: ichain (t.srcSlot (s.tbl.rules r).client)) ∧
      (∀ x, (s.tbl.index x).tblEntry ≠ 0 →
        ∃! r, Live s.tbl.rules r ∧ (s.tbl.rules r).indxTblEntry = x) ∧
      (∀ x, t.tableEntries ≤ x → (s.tbl.index x).tblEntry ≠ 0 →
        ∃ b < t.tableEntries, ∃ l m, ichain b = l ++ x :: m ∧
          s.tbl.prevIndexMeta (x - t.tableEntries) = l.getLastD b) ∧
      (∀ b < t.tableEntries, ∀ b' < t.tableEntries, ∀ x, x ∈ b :: ichain b →
        x ∈ b' :: ichain b' → b = b') := by
  unfold ipaNatIndexTableEntrySize ipaNatIndexRuleNextFieldOffset at offsets
  have inv := runFits_of_small created hits base (by omega) run
  obtain ⟨chain, ichain, ok⟩ := inv.table
  have home : s.tbl.srcSlot = t.srcSlot := by
    funext c
    simp only [IpaNatIp4TableCache.srcSlot, inv.entries]
  have entries : s.tbl.tableEntries = t.tableEntries := inv.entries
  refine ⟨ichain, fun b hb => ?_, fun r live => ?_, fun x used => ok.unique_owner used,
    fun x expn used => ?_, fun b hb b' hb' x member member' => ?_⟩
  · exact ok.index.table.forward.path b (entries.symm ▸ hb)
  · have named := ok.cross.named r live
    have bound := (ok.sized.srcSlot_bounds (s.tbl.rules r).client).2
    rw [home] at named bound
    rw [entries] at bound
    exact ⟨named.1, bound, named.2⟩
  · rw [← entries] at expn ⊢
    exact ok.index_predecessor expn used
  · rw [← entries] at hb hb'
    exact ok.index.table.forward.bucket_unique hb hb' member member'

theorem index_rows_match_rules_sample : ∃ (s : TableState) (ichain : Nat → List Nat),
    Run ruleStep Executed { tbl := createTable 5 } sampleCollisions s ∧ s.held = [(2, sampleTwin)] ∧
      ∀ b < 4, Path (indexNext s.tbl.index) b (ichain b) := by
  obtain ⟨s, run, held⟩ := sampleCollisions_executed
  obtain ⟨ichain, paths, _⟩ := index_rows_match_rules (createTable_created (by decide)) rfl
    (by decide) (by decide) run
  exact ⟨s, ichain, run, held, paths⟩

end Hima.Ipanat
