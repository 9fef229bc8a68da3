import Hima.Ipanat.IndexOffset
import Hima.Ipanat.DelView

/-!
# Updates under the eyes of the hardware

Whatever calls a table has seen, the hardware can walk it after every single write of the next
one, as long as the index links of the adds reach their rows.
-/
namespace Hima.Ipanat

open Chains Runs Prefixes

variable {t : IpaNatIp4TableCache} {ops : List RuleOp} {s : TableState}

/-- The slot a handle stands for. -/
def HandleOf (t : IpaNatIp4TableCache) (hdl row : Nat) : Prop :=
  t.ruleId (hdl - 1) = idOfSlot t.tableEntries row

theorem RulesOk.handleOf_iff {chain : Nat → List Nat} (ok : RulesOk t chain) {hdl r row : Nat}
    (live : Live t.rules row) (id : HandleOf t hdl row) (other : Live t.rules r) :
    HandleOf t hdl r ↔ r = row := by
  have small := ok.sized.entriesLe
  have expn := ok.sized.expnLe
  refine ⟨fun same => ?_, fun eq => eq ▸ id⟩
  exact idOfSlot_inj small (by omega) (ok.live_slot other).2.2 (ok.live_slot live).2.2 (same.symm.trans id)

/-- A refused call leaves a table that is safe to walk. -/
theorem TableOk.walkable {chain ichain : Nat → List Nat} (ok : TableOk t chain ichain)
    (but : Nat → Prop) : Intact t t but ∧ NothingStale t t := by
  have rows := ok.ruleView (fun _ => False)
  have irows := ok.indexView (fun _ => False)
  refine ⟨intact_of_views rows irows (fun r live _ => ⟨live, rfl, id⟩), ?_⟩
  exact nothingStale_of_views rows irows (fun r live => ⟨_, live, rfl, id⟩)

/-- After every prefix of the writes of an add or a delete the walks end and the other live
rules are found and named, and on the way of a delete no stale name is met. -/
theorem walks_survive_updates (created : Created t) (hits : t.tblAddrOffset = 0)
    (base : 2 ≤ t.tableEntries) (run : Run ruleStep ExecutedFits { tbl := t } ops s) :
    (∀ c, c.protocol ≠ ipaNatInvalidProtoFieldCmp → IndexLinkFits s.tbl c →
      ∃ r, ipaNatiAddIpv4Rule {} s.tbl c = some r ∧
        ∀ k, Intact s.tbl (s.tbl.writes (r.writes.take k)) (fun _ => False)) ∧
    ∀ hdl, (0 < hdl → hdl < 65536 → ∃ r, ipaNatiDelIpv4Rule {} s.tbl hdl = some r) ∧
      ∀ r, ipaNatiDelIpv4Rule {} s.tbl hdl = some r →
        ∀ k, Intact s.tbl (s.tbl.writes (r.writes.take k)) (HandleOf s.tbl hdl) ∧
          NothingStale s.tbl (s.tbl.writes (r.writes.take k)) := by
  obtain ⟨chain, ichain, ok⟩ := (runFits_of_created created hits base run).table
  constructor
  · intro c proto fits
    rcases addIpv4Rule_spec ok.sized ok.rows ok.index {} c with ⟨refused, _⟩ |
      ⟨r, e, p, x, q, returned, place, iplace, ended⟩
    · refine ⟨_, refused, fun k => ?_⟩
      rw [List.take_nil]
      exact (ok.walkable _).1
    · refine ⟨r, returned, ?_⟩
      cases ended with
      | notEnabled failed => exact absurd rfl failed
      | noHandle _ full => exact absurd full (ok.not_full place)
      | @added i => exact (everyPrefix_iff_take _ _).mp (ok.add_intact fits place iplace i)
  · refine fun hdl => ⟨fun pos small => ok.del_returns {} ⟨pos, small⟩, fun r returned => ?_⟩
    rcases delIpv4Rule_cases ok.idsOk returned with rfl | ⟨row, live, _, id, rfl⟩
    · intro k
      rw [List.take_nil]
      exact ok.walkable _
    · intro k
      obtain ⟨intact, clean⟩ := (everyPrefix_iff_take _ _).mp (ok.del_safe live hdl) k
      exact ⟨intact.congr fun r other => (ok.handleOf_iff live id other).symm, clean⟩

theorem walks_survive_updates_sample : ∃ (s : TableState),
    Run ruleStep ExecutedFits { tbl := createTable 5 } sampleCollisions s ∧
      ∃ r, ipaNatiDelIpv4Rule {} s.tbl 2 = some r ∧
        ∀ k, Intact s.tbl (s.tbl.writes (r.writes.take k)) (HandleOf s.tbl 2) ∧
          NothingStale s.tbl (s.tbl.writes (r.writes.take k)) := by
  obtain ⟨s, run, -⟩ := sampleCollisions_run
  obtain ⟨returns, safe⟩ := (walks_survive_updates (createTable_created (by decide)) rfl (by decide) run).2 2
  obtain ⟨r, returned⟩ := returns (by decide) (by decide)
  exact ⟨s, run, r, returned, safe r returned⟩

/-- The second rule of a stray pair is not named once the first write of a delete of the first
one is done. -/
theorem StrayPair.not_named (created : Created t) (hits : t.tblAddrOffset = 0)
    (base : 2 ≤ t.tableEntries) {a b : IpaNatIpv4Rule} {ha hb x : Nat}
    (pair : StrayPair t a b s ha hb x) (same : t.srcSlot b = t.srcSlot a) (apart : t.dstSlot b ≠ t.dstSlot a) :
    ∃ r, ipaNatiDelIpv4Rule {} s.tbl ha = some r ∧ r.ret = 0 ∧
      ¬Intact s.tbl (s.tbl.writes (r.writes.take 1)) (HandleOf s.tbl ha) := by
  have inv := runOk_of_created created hits base pair.run
  obtain ⟨chain, ok⟩ := inv.table
  have entries : s.tbl.tableEntries = t.tableEntries := inv.entries
  have src : ∀ c, s.tbl.srcSlot c = t.srcSlot c := fun c => by
    simp only [IpaNatIp4TableCache.srcSlot, entries]
  have bucket := (created.fresh.ok hits base).sized.srcSlot_bounds a
  obtain ⟨live_a, _, index_a⟩ := pair.ruleA
  obtain ⟨live_b, client_b, _⟩ := pair.ruleB
  have idA := pair.idA
  rw [← entries] at idA
  have slot := ok.live_slot live_a
  have pos := ((inv.held.mem ha a).mp (by
    rw [pair.held]
    exact List.mem_cons_of_mem _ List.mem_cons_self)).1
  have inside := ok.ids.inside (show s.tbl.ruleId (ha - 1) ≠ 0 by
    rw [idA]
    exact idOfSlot_ne_zero ok.sized.entriesLe slot.1)
  have deleted := delIpv4Rule_live ok.sized {} live_a slot.1 slot.2 ⟨pos, by omega⟩ idA
  rw [if_pos ⟨rfl, rfl⟩] at deleted
  -- the first write takes the name off the only row of the bucket
  have cmds : indexCmdsOf s.tbl (t.srcSlot a) = [indexEntryCmd s.tbl (t.srcSlot a) 0] := by
    rw [indexCmdsOf, findIndexRulePos_base (entries ▸ bucket.2), pair.head, if_pos rfl]
    rfl
  have first : (delWrites true s.tbl (t.dstSlot a) ha).take 1 =
      [.dma (indexEntryCmd s.tbl (t.srcSlot a) 0)] := by
    rw [delWrites, delStores, postedOf, reorderCmds_del, if_pos rfl,
      show indexOf s.tbl (t.dstSlot a) = t.srcSlot a from index_a, cmds]
    rfl
  refine ⟨_, deleted, rfl, fun intact => ?_⟩
  obtain ⟨l, path, y, member, names⟩ := intact.named (t.dstSlot b) live_b
    (fun id => apart ((ok.handleOf_iff live_a idA live_b).mp id))
  rw [first, IpaNatIp4TableCache.writes_cons, IpaNatIp4TableCache.writes_nil,
    dma_indexEntryCmd ok.sized.offset] at path names
  rw [client_b, src, same] at path member
  simp only [pair.head] at path names
  have ended : l = [] := by
    refine path_unique _ _ _ _ path ((path_nil _ _).mpr ?_)
    rw [indexNext, Function.update_self]
    rfl
  rw [ended, List.mem_singleton] at member
  rw [member, Function.update_self] at names
  exact (ok.live_slot live_b).1 names.symm

theorem stray_rule_not_named : ∃ s hdl r,
    Run ruleStep Executed { tbl := createTable 40000 } [.add {} sampleRule, .add {} sampleClash]
      s ∧
    ipaNatiDelIpv4Rule {} s.tbl hdl = some r ∧ r.ret = 0 ∧
    ¬Intact s.tbl (s.tbl.writes (r.writes.take 1)) (HandleOf s.tbl hdl) := by
  obtain ⟨s, ha, hb, x, pair⟩ := stray_pair_sample
  obtain ⟨r, deleted, ret, broken⟩ := pair.not_named (createTable_created (by decide)) rfl
    (by decide) (by decide) (by decide)
  exact ⟨s, ha, r, pair.run, deleted, ret, broken⟩

end Hima.Ipanat
