import Hima.Ipanat.TableRun

/-!
# Deletes by handle

The caller may pass any number as a handle, and any request of any call may fail. Failed requests
leave rows unlinked or linked twice, so the order of the chains is lost. What is left in every run
are the live rows and the entries of `rule_id_array` that stand for them, and that is what a delete
by handle goes by.
-/
namespace Hima.Ipanat

open Runs

variable {t : IpaNatIp4TableCache} {held : List (Nat × IpaNatIpv4Rule)} {c : IpaNatIpv4Rule}
  {s s' : TableState} {op : RuleOp} {ops : List RuleOp} {N M : Nat}

/-! ### The call -/

/-- `ipa_nat_del_ipv4_rule`, with the handle of the table. -/
def ipaNatDelIpv4Rule (outcomes : DelOutcomes) (t : IpaNatIp4TableCache) (ruleHdl : UInt32) :
    Option DelResult :=
  if ruleHdl.toNat = ipaNatInvalidNatEntry then some { ret := -EINVAL }
  else ipaNatiDelIpv4Rule outcomes t ruleHdl.toNat

/-- The delete fails and changes nothing, or it succeeds, and then the handle was live: the rule it
was issued for stops being live, no other does, and its entry of `rule_id_array` is cleared. -/
def ExactDelete (o : DelOutcomes) (s : TableState) (hdl : UInt32) : Prop :=
  ∃ r, ipaNatDelIpv4Rule o s.tbl hdl = some r ∧
    (r.ret ≠ 0 ∧ s.tbl.writes r.writes = s.tbl ∨
      r.ret = 0 ∧ ∃ c slot, (hdl.toNat, c) ∈ s.held ∧ Live s.tbl.rules slot ∧
        (s.tbl.rules slot).client = c ∧
        s.tbl.ruleId (hdl.toNat - 1) = idOfSlot s.tbl.tableEntries slot ∧
        Removed s.tbl (s.tbl.writes r.writes) slot hdl.toNat)

/-- The handle has 16 bits, or its lower 16 bits are those of no live rule, or a request of the
delete fails. -/
def HandleFits (o : DelOutcomes) (t : IpaNatIp4TableCache) (hdl : UInt32) : Prop :=
  hdl.toNat < 65536 ∨ hdl.toNat % 65536 ≠ 0 ∧
    (Issued t (hdl.toNat % 65536) → o.cmdMalloc = false ∨ o.ioctl = false)

instance (o : DelOutcomes) (t : IpaNatIp4TableCache) (hdl : UInt32) :
    Decidable (HandleFits o t hdl) :=
  inferInstanceAs (Decidable (_ ∨ _ ∧ (_ → _ ∨ _)))

/-- No rule is added that carries the driver's own marker of a dead head. -/
def Unmarked (_ : TableState) : RuleOp → Prop
  | .add _ c => c.protocol ≠ ipaNatInvalidProtoFieldCmp
  | .del _ _ => True

/-! ### Adds whose requests may fail -/

/-- The same rules are live, under the same handles. -/
structure SameLive (t t' : IpaNatIp4TableCache) : Prop where
  live_iff : ∀ s, Live t'.rules s ↔ Live t.rules s
  client : ∀ s, Live t.rules s → (t'.rules s).client = (t.rules s).client
  ids : t'.ruleId = t.ruleId

theorem SameLive.idsOk {ws : List Write} (same : SameLive t (t.writes ws)) (ok : IdsOk t) :
    IdsOk (t.writes ws) := by
  refine ⟨ok.sized.writes ws, fun s live => ?_, ?_⟩
  · rw [t.writes_tableEntries, t.writes_expnTableEntries]
    exact ok.live_slot s ((same.live_iff s).mp live)
  · rw [t.writes_tableEntries, t.writes_expnTableEntries, same.ids]
    refine ⟨fun i used => ?_, ok.ids.injective, fun s live => ?_⟩
    · obtain ⟨s, live, id⟩ := ok.ids.decodes i used
      exact ⟨s, (same.live_iff s).mpr live, id⟩
    · exact ok.ids.issued s ((same.live_iff s).mp live)

theorem SameLive.heldOk {ws : List Write} (same : SameLive t (t.writes ws)) (h : HeldOk t held) :
    HeldOk (t.writes ws) held := by
  refine ⟨h.nodup, fun hdl c => ?_⟩
  rw [h.mem, same.ids, t.writes_tableEntries]
  constructor
  · rintro ⟨pos, s, live, id, client⟩
    exact ⟨pos, s, (same.live_iff s).mpr live, id, (same.client s live).trans client⟩
  · rintro ⟨pos, s, live, id, client⟩
    have was := (same.live_iff s).mp live
    exact ⟨pos, s, was, id, (same.client s was).symm.trans client⟩

/-- The slot that is found for a rule is off, whatever the links of the table are. -/
theorem generateTblRule_slot (sized : WellSized t) {row : IpaNatRule} {e : Nat}
    (generated : ipaNatiGenerateTblRule t c = some (row, e)) (found : e ≠ 0) :
    (t.rules e).enable = false ∧ e ≠ t.tableEntries ∧ e < t.tableEntries + t.expnTableEntries ∧
      row = { swRuleOfClient t.publicAddr c with prevIndex := row.prevIndex } := by
  have slot := sized.dstSlot_bounds c
  unfold ipaNatiGenerateTblRule at generated
  dsimp only at generated
  split at generated
  next off =>
    cases generated
    exact ⟨off, by omega, by omega, rfl⟩
  next =>
    split at generated
    · cases generated
    · cases generated
      exact absurd rfl found
    · split at generated
      · cases generated
        exact absurd rfl found
      next free =>
        cases generated
        rcases expnTblFreeEntry_spec t.expnRules t.expnTableEntries with ⟨none, _⟩ | ⟨pos, lt, off⟩
        · exact absurd none free
        · refine ⟨?_, by omega, by omega, rfl⟩
          rw [Nat.add_comm]
          exact off

theorem addStores_same (offset : t.tblAddrOffset = 0) (o : AddOutcomes) (c : IpaNatIpv4Rule) (e p x q : Nat) :
    SameElsewhere e t.rules (t.writes (addStores o t c e p x q)).rules ∧
      SameRule (newRow t c p x) ((t.writes (addStores o t c e p x q)).rules e) := by
  have stored := (SameElsewhere.refl e t.rules).here (newRow t c p x)
  rw [addStores_rules offset]
  split
  · refine ⟨stored, ?_⟩
    rw [Function.update_self]
    exact ⟨rfl, rfl, rfl⟩
  · refine ⟨stored.store ⟨rfl, rfl, rfl⟩, ?_⟩
    -- the row may have been linked to itself
    by_cases eq : e = p
    · subst eq
      rw [Function.update_self, Function.update_self]
      exact ⟨rfl, rfl, rfl⟩
    · rw [Function.update_of_ne eq, Function.update_self]
      exact ⟨rfl, rfl, rfl⟩

/-- Whatever becomes of its requests, an add fails and leaves the same rules live, or its rule is
in, under a handle that was not in use. -/
theorem IdsOk.add (ok : IdsOk t) (proto : c.protocol ≠ ipaNatInvalidProtoFieldCmp)
    {o : AddOutcomes} {r : AddResult} (returned : ipaNatiAddIpv4Rule o t c = some r) :
    (r.ret ≠ 0 ∧ SameLive t (t.writes r.writes)) ∨
    ∃ e i, r.ret = 0 ∧ r.ruleHdl = i + 1 ∧ IdsOk (t.writes r.writes) ∧ Added t (t.writes r.writes) c e i := by
  have entries := ok.sized.entriesLe
  have expn := ok.sized.expnLe
  have two := ok.sized.twoEntries
  have twoExpn := ok.sized.twoExpn
  have refused : SameLive t t := ⟨fun _ => Iff.rfl, fun _ _ => rfl, rfl⟩
  cases rule : ipaNatiGenerateTblRule t c with
  | none => simp only [ipaNatiAddIpv4Rule, ipaNatiGenerateRule, rule, reduceCtorEq] at returned
  | some found =>
    obtain ⟨row, e⟩ := found
    by_cases he : e = 0
    · subst he
      rw [addIpv4Rule_of_none rule returned]
      exact Or.inl ⟨by decide, refused⟩
    obtain ⟨off, neN, inside, fields⟩ := generateTblRule_slot ok.sized rule he
    rw [fields] at rule
    rcases addIpv4Rule_of_slot rule he returned with rfl | ⟨x, q, ended⟩
    · exact Or.inl ⟨by decide, refused⟩
    obtain ⟨others, here⟩ := addStores_same ok.sized.offset o c e row.prevIndex x q
    have free : ¬Live t.rules e := fun live => Bool.false_ne_true (off.symm.trans live.1)
    have unfilled : ∀ i, (∀ j < i, t.ruleId j ≠ 0) → i + 1 < t.tableEntries + t.expnTableEntries :=
      fun i used => ok.ids.first_unused (by omega) (by omega) ok.live_slot free
        ⟨he, neN, inside⟩ ⟨by omega, by omega⟩ used
    cases ended with
    | notEnabled =>
      -- the row is stored, but it is off
      left
      have failed : - EIO ≠ 0 := by decide
      refine ⟨failed, fun s => ?_, fun s live => ?_, addStores_ruleId ..⟩
      · by_cases eq : s = e
        · subst eq
          refine iff_of_false (fun live => ?_) free
          exact Bool.false_ne_true (here.1.symm.trans live.1)
        · exact others.live_iff eq
      · exact (others s fun eq => free (eq ▸ live)).2.2
    | noHandle _ full =>
      -- there are fewer live rules than entries
      have := unfilled _ full
      omega
    | @added i _ _ unused first =>
      right
      obtain ⟨rules, _, _, ids⟩ := writes_added ok.sized o c e row.prevIndex x q i
      have others' := others.here (((t.writes (addStores o t c e row.prevIndex x q)).rules e).setFlags true)
      rw [← rules] at others'
      have new := congrFun rules e
      rw [Function.update_self] at new
      have live_e : Live (t.writes (addStores o t c e row.prevIndex x q ++
          [.dma (enableCmd t e), .ruleId i (idOfSlot t.tableEntries e)])).rules e := by
        rw [Live, new]
        exact ⟨rfl, here.2.1 ▸ proto⟩
      have added : Added t (t.writes (addStores o t c e row.prevIndex x q ++
          [.dma (enableCmd t e), .ruleId i (idOfSlot t.tableEntries e)])) c e i := by
        refine ⟨free, fun s => ?_, ?_, fun s ne => (others' s ne).2.2, unused, ids⟩
        · by_cases eq : s = e
          · exact iff_of_true (eq ▸ live_e) (Or.inr eq)
          · rw [others'.live_iff eq]
            exact ⟨Or.inl, fun live => live.elim id (fun same => absurd same eq)⟩
        · rw [new]
          exact here.2.2
      refine ⟨e, i, rfl, rfl, ⟨ok.sized.writes _, fun s live => ?_, ?_⟩, added⟩
      · rw [t.writes_tableEntries, t.writes_expnTableEntries]
        rcases (added.live_iff s).mp live with was | rfl
        · exact ok.live_slot s was
        · exact ⟨he, neN, inside⟩
      · rw [ids, t.writes_tableEntries, t.writes_expnTableEntries]
        exact ok.ids.add (by omega) (by omega)
          (fun s live => ⟨(ok.live_slot s live).1, (ok.live_slot s live).2.2⟩) free
          ⟨he, inside⟩ (unfilled i first) unused (fun s ne => others'.live_iff ne) live_e

/-! ### Runs -/

/-- Whatever becomes of the requests of a call, the live rows and their entries stay in step, and
with them the rules the caller holds. -/
theorem runIds_step (inv : RunInv IdsOk N M s) (allowed : Unmarked s op)
    (stepped : ruleStep s op = some s') : RunInv IdsOk N M s' := by
  have ok := inv.table
  cases op with
  | add o c =>
    obtain ⟨r, returned, rfl⟩ := Option.map_eq_some_iff.mp stepped
    rcases ok.add allowed returned with ⟨failed, same⟩ | ⟨e, i, ret, hdl, ok', added⟩
    · refine ⟨(s.tbl.writes_tableEntries _).trans inv.entries,
        (s.tbl.writes_expnTableEntries _).trans inv.expn, same.idsOk ok, ?_⟩
      rw [if_neg failed]
      exact same.heldOk inv.held
    · exact inv.added ok ok' ok' ret hdl added
  | del o hdl =>
    obtain ⟨r, returned, rfl⟩ := Option.map_eq_some_iff.mp stepped
    rcases delIpv4Rule_cases ok returned with rfl | ⟨slot, live, range, id, rfl⟩
    · exact inv.refused (by decide) _
    · refine ⟨(s.tbl.writes_tableEntries _).trans inv.entries,
        (s.tbl.writes_expnTableEntries _).trans inv.expn, ok.del live id o.reorderMalloc, ?_⟩
      exact inv.held.removed ok (s.tbl.writes_tableEntries _) live range.1 id
        (delWrites_removed ok.sized.offset o.reorderMalloc slot hdl)

theorem runIds_of_created (created : Created t) (offset : t.tblAddrOffset = 0)
    (base : 2 ≤ t.tableEntries) (run : Run ruleStep Unmarked { tbl := t } ops s) :
    RunInv IdsOk t.tableEntries t.expnTableEntries s := by
  refine run.invariant _ (fun _ _ _ inv allowed stepped => runIds_step inv allowed stepped) ?_
  have ok := (created.fresh.ok offset base).idsOk
  exact ⟨rfl, rfl, ok, created.fresh.heldOk⟩

/-! ### Deletes -/

/-- The rule that a handle in use was issued for is held. -/
theorem HeldOk.of_id (h : HeldOk t held) {hdl slot : Nat} (pos : 0 < hdl)
    (live : Live t.rules slot) (id : t.ruleId (hdl - 1) = idOfSlot t.tableEntries slot) :
    (hdl, (t.rules slot).client) ∈ held :=
  (h.mem hdl _).mpr ⟨pos, slot, live, id, rfl⟩

/-- A delete that is refused is exact. -/
theorem exactDelete_refused {o : DelOutcomes} {hdl : UInt32}
    (refused : ipaNatDelIpv4Rule o s.tbl hdl = some { ret := -EINVAL }) : ExactDelete o s hdl :=
  ⟨_, refused, Or.inl ⟨by decide, rfl⟩⟩

theorem not_exactDelete_of_none {o : DelOutcomes} {hdl : UInt32}
    (none : ipaNatDelIpv4Rule o s.tbl hdl = none) : ¬ExactDelete o s hdl := by
  rintro ⟨r, returned, _⟩
  rw [none] at returned
  cases returned

theorem exactDelete_iff (ok : IdsOk s.tbl) (heldOk : HeldOk s.tbl s.held) (o : DelOutcomes)
    (hdl : UInt32) : ExactDelete o s hdl ↔ HandleFits o s.tbl hdl := by
  have entries := ok.sized.entriesLe
  have expn := ok.sized.expnLe
  by_cases zero : hdl.toNat = 0
  · refine iff_of_true (exactDelete_refused ?_) (Or.inl (by omega))
    rw [ipaNatDelIpv4Rule, zero]
    rfl
  have call : ipaNatDelIpv4Rule o s.tbl hdl = ipaNatiDelIpv4Rule o s.tbl hdl.toNat := if_neg zero
  rcases ok.del_spec o hdl.toNat with ⟨low, none⟩ | ⟨low, stale, refused⟩ | ⟨slot, live, range, id, result⟩
  · -- the entry in front of the array is read
    refine iff_of_false (not_exactDelete_of_none (call.trans none)) ?_
    rintro (small | ⟨nonzero, _⟩)
    · omega
    · exact nonzero low
  · exact iff_of_true (exactDelete_refused (call.trans refused))
      (Or.inr ⟨low, fun issued => absurd issued stale⟩)
  · rw [delEnd] at result
    by_cases posted : o.cmdMalloc = true ∧ o.ioctl = true
    · rw [if_pos posted] at result
      by_cases small : hdl.toNat < 65536
      · -- the rule that was parsed is the one whose entry is cleared
        refine iff_of_true ?_ (Or.inl small)
        rw [Nat.mod_eq_of_lt small] at range id
        rw [if_pos (by omega)] at result
        exact ⟨_, call.trans result, Or.inr ⟨rfl, _, slot, heldOk.of_id range.1 live id, live, rfl,
          id, delWrites_removed ok.sized.offset o.reorderMalloc slot hdl.toNat⟩⟩
      · -- the rule is deleted, and a store behind the end of the array follows
        rw [if_neg (by omega)] at result
        refine iff_of_false (not_exactDelete_of_none (call.trans result)) ?_
        have issued : Issued s.tbl (hdl.toNat % 65536) := by
          refine ⟨range.2, ?_⟩
          rw [id]
          exact idOfSlot_ne_zero entries (ok.live_slot slot live).1
        rintro (narrow | ⟨_, fails⟩)
        · exact small narrow
        · rcases fails issued with failed | failed
          · exact Bool.false_ne_true (failed.symm.trans posted.1)
          · exact Bool.false_ne_true (failed.symm.trans posted.2)
    · rw [if_neg posted] at result
      refine iff_of_true (exactDelete_refused (call.trans result)) (Or.inr ⟨Nat.ne_of_gt range.1, fun _ => ?_⟩)
      rw [not_and_or, Bool.not_eq_true, Bool.not_eq_true] at posted
      exact posted

/-- In every state that adds and deletes lead to, whatever becomes of their requests and whatever
handles they are given, a delete is exact and atomic exactly when its handle fits. -/
theorem delete_by_handle_iff (created : Created t) (offset : t.tblAddrOffset = 0)
    (base : 2 ≤ t.tableEntries) (run : Run ruleStep Unmarked { tbl := t } ops s)
    (o : DelOutcomes) (hdl : UInt32) : ExactDelete o s hdl ↔ HandleFits o s.tbl hdl := by
  have inv := runIds_of_created created offset base run
  exact exactDelete_iff inv.table inv.held o hdl

theorem delete_by_handle_sample : ∃ s, Run ruleStep Unmarked { tbl := createTable 5 }
      [.add { enable := .ioctlFailed } sampleClash, .add {} sampleRule] s ∧
      ExactDelete {} s 1 := by
  have clash : sampleClash.protocol ≠ ipaNatInvalidProtoFieldCmp := by decide
  have rule : sampleRule.protocol ≠ ipaNatInvalidProtoFieldCmp := by decide
  have run : Run ruleStep Unmarked { tbl := createTable 5 }
      [.add { enable := .ioctlFailed } sampleClash, .add {} sampleRule] _ :=
    .cons clash rfl (.cons rule rfl (.nil _))
  exact ⟨_, run,
    (delete_by_handle_iff (createTable_created (by decide)) rfl (by decide) run {} 1).mpr (by decide)⟩

/-- The handle 65537 is parsed as handle 1, and the entry that is cleared is not in the array. -/
theorem wide_handle_not_exact : ∃ s, Run ruleStep Unmarked { tbl := createTable 5 } [.add {} sampleRule] s ∧
      ExactDelete {} s 1 ∧ ¬ExactDelete {} s 65537 := by
  have rule : sampleRule.protocol ≠ ipaNatInvalidProtoFieldCmp := by decide
  have run : Run ruleStep Unmarked { tbl := createTable 5 } [.add {} sampleRule] _ :=
    .cons rule rfl (.nil _)
  have inv := runIds_of_created (createTable_created (by decide)) rfl (by decide) run
  refine ⟨_, run, (exactDelete_iff inv.table inv.held {} 1).mpr (by decide), ?_⟩
  rw [exactDelete_iff inv.table inv.held {} 65537]
  decide

end Hima.Ipanat
