import Hima.Lib.Runs
import Hima.Ipanat.Lifecycle

/-!
# Sequences of table requests

The driver publishes a table before the steps that can fail, and takes its memory away before
the last step of a delete. The requests that keep the cache in order are those whose failures
come before either.
-/
namespace Hima.Ipanat

open Runs

inductive TblOp
  | add (outcomes : AddTblOutcomes) (publicIpAddr : UInt32) (numberOfEntries : UInt16)
  | del (outcomes : DelTblOutcomes) (tblHdl : Nat)

/-- One request; `none` is a fault. -/
def tblStep (cache : IpaNatCache) : TblOp → Option IpaNatCache
  | .add o addr n =>
    match ipaNatAddIpv4Tbl o cache addr n.toNat with
    | .ok (_, _, cache) => some cache
    | .error _ => none
  | .del o hdl =>
    match ipaNatDelIpv4Tbl o cache hdl with
    | .ok (_, cache) => some cache
    | .error _ => none

/-! ### The guarantee and its condition -/

/-- Both arrays are there, of the table's own sizes. -/
def ArraysOk (t : IpaNatIp4TableCache) : Prop :=
  t.indexExpnTableMeta = some t.expnTableEntries ∧
    t.ruleIdArray = some (t.tableEntries + t.expnTableEntries)

/-- A request stays inside `ip4_tbl` and returns. An add that fails leaves its slot not valid,
one that succeeds has its arrays; a delete that fails changes nothing. -/
def LifecycleOk (cache : IpaNatCache) : TblOp → Prop
  | .add o addr n => ∃ ret hdl cache',
    ipaNatAddIpv4Tbl o cache addr n.toNat = .ok (ret, hdl, cache') ∧
    (ret ≠ 0 → cache.tableCnt < ipaNatMaxIp4Tbls → cache'.ip4Tbl.valid = false) ∧
    (ret = 0 → cache'.ip4Tbl.valid = true ∧ ArraysOk cache'.ip4Tbl)
  | .del o hdl => ∃ ret cache', ipaNatDelIpv4Tbl o cache hdl = .ok (ret, cache') ∧
    (ret ≠ 0 → cache' = cache)

/-- An add gets no memory, or there is no table yet and all its calls succeed; a delete is
refused, or its calls succeed. -/
def TblOpSafe (cache : IpaNatCache) : TblOp → Prop
  | .add o _ n => n = 0 ∨ ¬AllocSucceeds o cache ∨ cache.tableCnt = 0 ∧ RestSucceeds o
  | .del o hdl => hdl ≠ 1 ∨ cache.ip4Tbl.valid = false ∨ o.close = true ∧ o.ioctl = true

/-- No table, or one as a successful add leaves it. -/
inductive CacheOk (cache : IpaNatCache) : Prop
  | empty : cache.tableCnt = 0 → cache.ip4Tbl = {} → CacheOk cache
  | created : cache.tableCnt = 1 → Created cache.ip4Tbl → CacheOk cache

variable {cache cache' : IpaNatCache} {op : TblOp} {ops : List TblOp}

theorem FreshTable.arraysOk {t : IpaNatIp4TableCache} (h : FreshTable t) : ArraysOk t :=
  ⟨h.indexMeta, h.idArray⟩

/-! ### Adds -/

/-- An add that fails to get memory leaves table and count alone. -/
theorem natAddIpv4Tbl_refused (o : AddTblOutcomes) (cache : IpaNatCache) (addr : UInt32)
    {n : UInt16} (failed : n = 0 ∨ ¬AllocSucceeds o cache) :
    ∃ cache', ipaNatAddIpv4Tbl o cache addr n.toNat = .ok (-EINVAL, 0, cache') ∧
      cache'.ip4Tbl = cache.ip4Tbl ∧ cache'.tableCnt = cache.tableCnt := by
  by_cases zero : n = 0
  · subst zero
    exact ⟨cache, rfl, rfl, rfl⟩
  · have nonzero : n.toNat ≠ 0 := fun eq => zero (UInt16.toNat_inj.mp eq)
    obtain ⟨cache', added, tbl, cnt⟩ :=
      addIpv4Tbl_refused o cache addr n.toNat_lt (failed.resolve_left zero)
    refine ⟨cache', ?_, tbl, cnt⟩
    simp [ipaNatAddIpv4Tbl, nonzero, added, ENOMEM]

/-- With memory at hand and no table yet, an add makes one or leaves it valid behind. -/
theorem natAddIpv4Tbl_first (o : AddTblOutcomes) (cache : IpaNatCache) (addr : UInt32)
    {n : UInt16} (nonzero : n ≠ 0) (alloc : AllocSucceeds o cache) (cnt : cache.tableCnt = 0)
    (clear : cache.ip4Tbl = {}) :
    (RestSucceeds o ∧ ∃ cache', ipaNatAddIpv4Tbl o cache addr n.toNat = .ok (0, 1, cache') ∧
      cache'.tableCnt = 1 ∧ Created cache'.ip4Tbl) ∨ (¬RestSucceeds o ∧ ∀ ret hdl cache',
      ipaNatAddIpv4Tbl o cache addr n.toNat = .ok (ret, hdl, cache') →
      ret ≠ 0 ∧ cache'.ip4Tbl.valid = true) := by
  have nonzero : n.toNat ≠ 0 := fun eq => nonzero (UInt16.toNat_inj.mp eq)
  rcases addIpv4Tbl_clear o cache addr n.toNat_lt clear cnt alloc with
    ⟨rest, cache', added, one, _⟩ | ⟨rest, failed⟩
  · left
    have start : cache = { ipaFd := cache.ipaFd } := by
      cases cache
      simp_all
    refine ⟨rest, cache', ?_, one, o, cache.ipaFd, addr, n.toNat, cache', n.toNat_lt, ?_, rfl⟩
    · simp [ipaNatAddIpv4Tbl, nonzero, added]
    · rw [← start]
      exact added
  · right
    refine ⟨rest, fun ret hdl cache' returned => ?_⟩
    cases added : ipaNatiAddIpv4Tbl o cache addr n.toNat with
    | error fault => simp [ipaNatAddIpv4Tbl, nonzero, added] at returned
    | ok result =>
      obtain ⟨ret', hdl', after⟩ := result
      obtain ⟨fails, valid⟩ := failed _ added
      have eq : (-EINVAL, hdl', after) = (ret, hdl, cache') := by
        simpa [ipaNatAddIpv4Tbl, nonzero, added, fails] using returned
      cases eq
      exact ⟨by decide, valid⟩

/-- With memory at hand and a table there, an add leaves `ip4_tbl`. -/
theorem natAddIpv4Tbl_second (o : AddTblOutcomes) (cache : IpaNatCache) (addr : UInt32)
    {n : UInt16} (nonzero : n ≠ 0) (alloc : AllocSucceeds o cache) (cnt : cache.tableCnt = 1) :
    ipaNatAddIpv4Tbl o cache addr n.toNat = .error (.tblIndex 1) := by
  have nonzero : n.toNat ≠ 0 := fun eq => nonzero (UInt16.toNat_inj.mp eq)
  obtain ⟨cache', _, _, ⟨failed, _⟩ | ⟨_, mem, taken, _⟩⟩ :=
    allocTable_cases o cache n.toNat_lt
  · exact absurd alloc failed
  · simp [ipaNatAddIpv4Tbl, nonzero, ipaNatiAddIpv4Tbl, taken, cnt, ipaNatMaxIp4Tbls]

theorem CacheOk.add_iff (ok : CacheOk cache) (o : AddTblOutcomes) (addr : UInt32) (n : UInt16) :
    LifecycleOk cache (.add o addr n) ↔ TblOpSafe cache (.add o addr n) := by
  by_cases refused : n = 0 ∨ ¬AllocSucceeds o cache
  · refine iff_of_true ?_ (refused.imp id Or.inl)
    obtain ⟨cache', added, tbl, _⟩ := natAddIpv4Tbl_refused o cache addr refused
    refine ⟨_, _, cache', added, fun _ room => ?_, fun success => absurd success (by decide)⟩
    cases ok with
    | empty _ clear => rw [tbl, clear]
    | created cnt _ => exact absurd room (by rw [cnt]; decide)
  · obtain ⟨nonzero, alloc⟩ : n ≠ 0 ∧ AllocSucceeds o cache := by
      simpa [not_or] using refused
    cases ok with
    | empty cnt clear =>
      rcases natAddIpv4Tbl_first o cache addr nonzero alloc cnt clear with
        ⟨rest, cache', added, _, created⟩ | ⟨rest, failed⟩
      · refine iff_of_true ?_ (Or.inr (Or.inr ⟨cnt, rest⟩))
        exact ⟨_, _, cache', added, fun failed => absurd rfl failed,
          fun _ => ⟨created.fresh.valid, created.fresh.arraysOk⟩⟩
      · constructor
        · rintro ⟨ret, hdl, cache', returned, invalid, _⟩
          have fails := failed ret hdl cache' returned
          have off := invalid fails.1 (by rw [cnt]; decide)
          exact absurd (fails.2.symm.trans off) (by decide)
        · rintro (zero | no_memory | ⟨_, all⟩)
          · exact absurd zero nonzero
          · exact absurd alloc no_memory
          · exact absurd all rest
    | created cnt _ =>
      have fault := natAddIpv4Tbl_second o cache addr nonzero alloc cnt
      constructor
      · rintro ⟨_, _, _, returned, _⟩
        rw [fault] at returned
        cases returned
      · rintro (zero | no_memory | ⟨none, _⟩)
        · exact absurd zero nonzero
        · exact absurd alloc no_memory
        · exact absurd (cnt.symm.trans none) (by decide)

/-! ### Deletes -/

/-- A delete by another handle than 1, or of a table that is not valid, changes nothing. -/
theorem natDelIpv4Tbl_refused (o : DelTblOutcomes) {hdl : Nat}
    (refused : hdl ≠ 1 ∨ cache.ip4Tbl.valid = false) :
    ipaNatDelIpv4Tbl o cache hdl = .ok (-EINVAL, cache) := by
  unfold ipaNatDelIpv4Tbl ipaNatMaxIp4Tbls ipaNatInvalidNatEntry
  by_cases outside : hdl = 0 ∨ 1 < hdl
  · simp [outside]
  · obtain rfl : hdl = 1 := by omega
    have invalid := refused.resolve_left (fun ne => ne rfl)
    simp [ipaNatiDelIpv4Table, ipaNatMaxIp4Tbls, invalid]

theorem natDelIpv4Tbl_valid (o : DelTblOutcomes) (valid : cache.ip4Tbl.valid = true) :
    (o.close = true ∧ o.ioctl = true ∧ ipaNatDelIpv4Tbl o cache 1 =
      .ok (0, { cache with ip4Tbl := {}, tableCnt := (cache.tableCnt + 255) % 256 })) ∨
    (¬(o.close = true ∧ o.ioctl = true) ∧ ∃ cache',
      ipaNatDelIpv4Tbl o cache 1 = .ok (-EINVAL, cache') ∧
      cache'.ip4Tbl.ipv4RulesAddr = cache.ip4Tbl.ipv4RulesAddr.munmap) := by
  simp only [ipaNatDelIpv4Tbl, ipaNatInvalidNatEntry, ipaNatMaxIp4Tbls, ipaNatiDelIpv4Table, valid]
  cases close : o.close with
  | false => simp
  | true =>
    cases ioctl : o.ioctl with
    | false => simp
    | true => simp

theorem CacheOk.del_iff (ok : CacheOk cache) (o : DelTblOutcomes) (hdl : Nat) :
    LifecycleOk cache (.del o hdl) ↔ TblOpSafe cache (.del o hdl) := by
  by_cases refused : hdl ≠ 1 ∨ cache.ip4Tbl.valid = false
  · refine iff_of_true ?_ (refused.imp id Or.inl)
    exact ⟨_, cache, natDelIpv4Tbl_refused o refused, fun _ => rfl⟩
  · obtain ⟨rfl, valid⟩ : hdl = 1 ∧ cache.ip4Tbl.valid = true := by
      simpa [not_or] using refused
    rcases natDelIpv4Tbl_valid o valid with ⟨close, ioctl, deleted⟩ | ⟨fails, cache', failed, addr⟩
    · refine iff_of_true ?_ (Or.inr (Or.inr ⟨close, ioctl⟩))
      exact ⟨0, _, deleted, fun failed => absurd rfl failed⟩
    · constructor
      · rintro ⟨ret, after, returned, same⟩
        rw [failed] at returned
        cases returned
        -- the mapping is gone, and there was one
        rw [same (by decide)] at addr
        cases ok with
        | empty _ clear =>
          rw [clear] at valid
          cases valid
        | created _ created =>
          rw [created.fresh.addr] at addr
          cases addr
      · rintro (other | invalid | all)
        · exact absurd rfl other
        · exact absurd (valid.symm.trans invalid) (by decide)
        · exact absurd all fails

/-! ### Runs -/

theorem CacheOk.step (ok : CacheOk cache) (safe : TblOpSafe cache op)
    (stepped : tblStep cache op = some cache') : CacheOk cache' := by
  cases op with
  | add o addr n =>
    -- a refused call leaves the cache as it is
    by_cases refused : n = 0 ∨ ¬AllocSucceeds o cache
    · obtain ⟨after, added, tbl, cnt⟩ := natAddIpv4Tbl_refused o cache addr refused
      simp only [tblStep, added, Option.some.injEq] at stepped
      subst stepped
      cases ok with
      | empty none clear => exact .empty (cnt.trans none) (tbl.trans clear)
      | created one created => exact .created (cnt.trans one) (tbl ▸ created)
    · obtain ⟨nonzero, alloc⟩ : n ≠ 0 ∧ AllocSucceeds o cache := by
        simpa [not_or] using refused
      -- an accepted one is safe only on the first table and when no system call fails
      rcases safe with zero | no_memory | ⟨none, rest⟩
      · exact absurd zero nonzero
      · exact absurd alloc no_memory
      · cases ok with
        | created one _ => exact absurd (one.symm.trans none) (by decide)
        | empty _ clear =>
          rcases natAddIpv4Tbl_first o cache addr nonzero alloc none clear with
            ⟨_, after, added, one, created⟩ | ⟨fails, _⟩
          · simp only [tblStep, added, Option.some.injEq] at stepped
            subst stepped
            exact .created one created
          · exact absurd rest fails
  | del o hdl =>
    by_cases refused : hdl ≠ 1 ∨ cache.ip4Tbl.valid = false
    · simp only [tblStep, natDelIpv4Tbl_refused o refused, Option.some.injEq] at stepped
      subst stepped
      exact ok
    · obtain ⟨rfl, valid⟩ : hdl = 1 ∧ cache.ip4Tbl.valid = true := by
        simpa [not_or] using refused
      rcases natDelIpv4Tbl_valid o valid with ⟨_, _, deleted⟩ | ⟨fails, _⟩
      · simp only [tblStep, deleted, Option.some.injEq] at stepped
        subst stepped
        cases ok with
        | empty _ clear =>
          rw [clear] at valid
          cases valid
        | created one _ => exact .empty (by simp [one]) rfl
      · rcases safe with other | invalid | all
        · exact absurd rfl other
        · exact absurd (valid.symm.trans invalid) (by decide)
        · exact absurd all fails

/-- After any sequence of safe requests a request keeps the guarantee exactly when it is safe. -/
theorem table_lifecycle_iff (run : Run tblStep TblOpSafe {} ops cache) (op : TblOp) :
    LifecycleOk cache op ↔ TblOpSafe cache op := by
  have ok : CacheOk cache := run.invariant CacheOk
    (fun _ _ _ ok safe stepped => ok.step safe stepped) (.empty rfl rfl)
  cases op with
  | add o addr n => exact ok.add_iff o addr n
  | del o hdl => exact ok.del_iff o hdl

theorem table_lifecycle_sample : ∃ cache, tblStep {} (.add {} 0 5) = some cache ∧
      (LifecycleOk cache (.del { ioctl := false } 1) ↔
        TblOpSafe cache (.del { ioctl := false } 1)) := by
  obtain ⟨cache, stepped⟩ := Option.isSome_iff_exists.mp (show (tblStep {} (.add {} 0 5)).isSome by decide)
  have run : Run tblStep TblOpSafe {} [.add {} 0 5] cache :=
    .cons (Or.inr (Or.inr ⟨rfl, by decide⟩)) stepped (.nil cache)
  exact ⟨cache, stepped, table_lifecycle_iff run _⟩

/-- The second of two adds that get their memory writes behind `ip4_tbl`. -/
theorem second_table_out_of_range : ∃ cache, ipaNatAddIpv4Tbl {} {} 0 5 = .ok (0, 1, cache) ∧
      ipaNatAddIpv4Tbl {} cache 0 5 = .error (.tblIndex 1) ∧ ¬LifecycleOk cache (.add {} 0 5) := by
  rcases natAddIpv4Tbl_first {} {} 0 (n := 5) (by decide) (by decide) rfl rfl with
    ⟨_, cache, added, one, _⟩ | ⟨fails, _⟩
  · have fault := natAddIpv4Tbl_second {} cache 0 (n := 5) (by decide) ⟨fun _ => rfl, rfl⟩ one
    refine ⟨cache, added, fault, ?_⟩
    rintro ⟨_, _, _, returned, _⟩
    rw [fault] at returned
    cases returned
  · exact absurd (by decide) fails

end Hima.Ipanat
