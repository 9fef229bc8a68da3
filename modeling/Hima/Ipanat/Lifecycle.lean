import Mathlib.Data.Nat.Log
import Hima.Ipanat.Table

/-!
# Creating and deleting the table

`ipa_nat_add_ipv4_tbl` and `ipa_nat_del_ipv4_tbl` with the functions they call. Every system
call may fail; what the calls return is an argument of the operation. An access that the
language gives no meaning, outside `ip4_tbl` or through an address nothing is mapped at, ends
the operation with a `Fault`.
-/
namespace Hima.Ipanat

/-- `IPA_NAT_MAX_IP4_TBLS`. -/
def ipaNatMaxIp4Tbls : Nat := 1

/-- `struct ipa_nat_cache`. Its array `ip4_tbl` has the one element. -/
structure IpaNatCache where
  ip4Tbl : IpaNatIp4TableCache := {}
  ipaFd : Nat := 0
  tableCnt : Nat := 0

inductive Fault
  | tblIndex (index : Nat)
  | badAddress
deriving DecidableEq, Repr

/-- What `mmap` returns. -/
inductive MmapOutcome
  | null
  | failed
  | mapped
deriving DecidableEq, Repr

/-- What the system calls of one `ipa_nat_add_ipv4_tbl` return: the descriptors, the offset of
the memory that `IPA_IOC_ALLOC_NAT_MEM` hands out, and success or failure of the others. -/
structure AddTblOutcomes where
  openDev : Option Nat := some 3
  allocMem : Option Nat := some 0
  metaMalloc : Bool := true
  idMalloc : Bool := true
  openNat : Option Nat := some 4
  mmap : MmapOutcome := .mapped
  init : Bool := true
deriving DecidableEq, Repr

/-- What the system calls of one `ipa_nat_del_ipv4_tbl` return. -/
structure DelTblOutcomes where
  close : Bool := true
  ioctl : Bool := true
deriving DecidableEq, Repr

/-! ### Sizes -/

/-- The loop of `GetNearest2Power`. -/
def getNearest2PowerLoop (number : Nat) : Nat → Nat → Nat → Option Nat
  | 0, _, _ => none
  | fuel + 1, num, tmp =>
    if num = 1 then some (if number ≠ tmp then tmp * 2 % 65536 else tmp)
    else getNearest2PowerLoop number fuel (num / 2) (tmp * 2 % 65536)

/-- `GetNearest2Power` of a nonzero argument. A `uint16_t` is shifted down to 1 in fewer steps
than it has bits. -/
def getNearest2Power (num : Nat) : Option Nat :=
  if num = 1 then some 2 else getNearest2PowerLoop num 16 num 1

theorem getNearest2PowerLoop_eq (number fuel num j : Nat) (pos : num ≠ 0) (enough : num < 2 ^ fuel)
    (small : j + num.log2 ≤ 15) :
    getNearest2PowerLoop number fuel num (2 ^ j) =
      some (if number ≠ 2 ^ (j + num.log2) then 2 ^ (j + num.log2 + 1) % 65536 else 2 ^ (j + num.log2)) := by
  induction fuel generalizing num j with
  | zero => omega
  | succ fuel ih =>
    unfold getNearest2PowerLoop
    by_cases one : num = 1
    · subst one
      rw [if_pos rfl, show Nat.log2 1 = 0 from rfl, Nat.add_zero, Nat.pow_succ]
    · have log : num.log2 = (num / 2).log2 + 1 := by rw [Nat.log2_def, if_pos (by omega)]
      have shift : 2 ^ j * 2 % 65536 = 2 ^ (j + 1) := by
        apply Nat.mod_eq_of_lt
        calc 2 ^ (j + 1) ≤ 2 ^ 15 := Nat.pow_le_pow_right (by omega) (by omega)
          _ < 65536 := by decide
      rw [if_neg one, shift, ih (num / 2) (j + 1) (by omega) (by rw [Nat.pow_succ] at enough; omega)
        (by omega), log, Nat.add_right_comm, Nat.add_assoc]

/-- The result is the least power of 2 that is at least 2 and not below the argument, as far as it
fits 16 bits. -/
theorem getNearest2Power_eq {num : Nat} (pos : num ≠ 0) (small : num < 65536) :
    getNearest2Power num = some (2 ^ Nat.clog 2 (max 2 num) % 65536) := by
  unfold getNearest2Power
  by_cases one : num = 1
  · subst one
    rfl
  · have log : num.log2 < 16 := (Nat.log2_lt pos).mpr small
    have below : 2 ^ num.log2 ≤ num := Nat.log2_self_le pos
    have above : num < 2 ^ (num.log2 + 1) := Nat.lt_log2_self
    have bound : 2 ^ num.log2 ≤ 2 ^ 15 := Nat.pow_le_pow_right (by omega) (by omega)
    rw [if_neg one, show (1 : Nat) = 2 ^ 0 from rfl,
      getNearest2PowerLoop_eq num 16 num 0 pos small (by omega), Nat.zero_add,
      max_eq_right (by omega : 2 ≤ num)]
    split
    next more =>
      have clog : Nat.clog 2 num = num.log2 + 1 := by
        apply Nat.le_antisymm (Nat.clog_le_of_le_pow above.le)
        exact (Nat.lt_clog_iff_pow_lt Nat.one_lt_two).mpr (Nat.lt_of_le_of_ne below (Ne.symm more))
      rw [clog]
    next power =>
      have clog : Nat.clog 2 num = num.log2 := by
        conv_lhs => rw [Classical.not_not.mp power]
        exact Nat.clog_pow 2 _ Nat.one_lt_two
      rw [clog, Nat.mod_eq_of_lt (by omega)]

/-- The power of 2 for an argument above 32768 does not fit and comes out as 0. -/
theorem getNearest2Power_cases {num : Nat} (pos : num ≠ 0) (small : num < 65536) :
    ∃ result, getNearest2Power num = some result ∧ (result = 0 ∨ ∃ k, 0 < k ∧ k ≤ 15 ∧ result = 2 ^ k) := by
  refine ⟨_, getNearest2Power_eq pos small, ?_⟩
  have le : Nat.clog 2 (max 2 num) ≤ 16 := Nat.clog_le_of_le_pow (by omega)
  have positive : 0 < Nat.clog 2 (max 2 num) := Nat.clog_pos Nat.one_lt_two (by omega)
  rcases Nat.lt_or_eq_of_le le with fits | last
  · have bound : 2 ^ Nat.clog 2 (max 2 num) ≤ 2 ^ 15 := Nat.pow_le_pow_right (by omega) (by omega)
    exact Or.inr ⟨_, positive, by omega, Nat.mod_eq_of_lt (by omega)⟩
  · left
    rw [last]
    rfl

/-- `GetNearestEven`. -/
def getNearestEven (num : Nat) : Nat :=
  if num < 2 then 2 else if num % 2 = 0 then num else num + 1

/-- The base entries for a requested number of entries: four fifths, at least one, rounded to a
power of 2. -/
def tableEntriesOf (numberOfEntries : Nat) : Option Nat :=
  getNearest2Power (if numberOfEntries * 4 / 5 = 0 then 1 else numberOfEntries * 4 / 5)

/-- The expansion entries: one fifth, rounded to an even number. -/
def expnTableEntriesOf (numberOfEntries : Nat) : Nat := getNearestEven (numberOfEntries / 5)

theorem tableEntriesOf_cases {n : Nat} (small : n < 65536) :
    ∃ entries, tableEntriesOf n = some entries ∧ (entries = 0 ∨ ∃ k, 0 < k ∧ k ≤ 15 ∧ entries = 2 ^ k) := by
  apply getNearest2Power_cases
  · split <;> omega
  · split <;> omega

theorem expnTableEntriesOf_bounds {n : Nat} (small : n < 65536) :
    2 ≤ expnTableEntriesOf n ∧ expnTableEntriesOf n ≤ 13108 := by
  unfold expnTableEntriesOf getNearestEven
  split
  · omega
  · split <;> omega

/-- `mem->size` for a number of entries. -/
def memSize (totalEntries : Nat) : Nat :=
  ipaNatTableEntrySize * totalEntries + ipaNatIndexTableEntrySize * totalEntries

/-! ### Creating the table -/

/-- `struct ipa_ioc_nat_alloc_mem`, with the sizes `ipa_nati_alloc_table` hands out beside it. -/
structure AllocMem where
  size : Nat
  offset : Nat
  tableEntries : Nat
  expnTableEntries : Nat

/-- `ipa_nati_alloc_table`. -/
def ipaNatiAllocTable (o : AddTblOutcomes) (cache : IpaNatCache) (numberOfEntries : Nat) :
    Except Int AllocMem × IpaNatCache :=
  match tableEntriesOf numberOfEntries with
  | none => (.error (-EINVAL), cache)
  | some tableEntries =>
    let expnTableEntries := expnTableEntriesOf numberOfEntries
    let size := memSize ((tableEntries + expnTableEntries) % 65536)
    let opened :=
      if cache.ipaFd = 0 then o.openDev.map fun fd => { cache with ipaFd := fd } else some cache
    match opened with
    | none => (.error (- EIO), cache)
    | some cache =>
      match o.allocMem with
      | none => (.error (-EINVAL), cache)
      | some offset => (.ok { size, offset, tableEntries, expnTableEntries }, cache)

/-- The fields `ipa_nati_update_cache` sets before anything can fail. -/
def publishTable (tbl : IpaNatIp4TableCache) (mem : AllocMem) (publicAddr : UInt32) :
    IpaNatIp4TableCache :=
  { tbl with
    valid := true
    publicAddr := publicAddr
    size := mem.size
    tblAddrOffset := mem.offset
    tableEntries := mem.tableEntries
    expnTableEntries := mem.expnTableEntries }

/-- The first `malloc` of `ipa_nati_update_cache`, when the array is not there yet. -/
def allocMeta (o : AddTblOutcomes) (tbl : IpaNatIp4TableCache) : Option IpaNatIp4TableCache :=
  if tbl.indexExpnTableMeta = none then
    if o.metaMalloc then
      some { tbl with
        indexExpnTableMeta := some tbl.expnTableEntries
        prevIndexMeta := fun _ => 0 }
    else none
  else some tbl

/-- The second one. -/
def allocRuleId (o : AddTblOutcomes) (tbl : IpaNatIp4TableCache) : Option IpaNatIp4TableCache :=
  if tbl.ruleIdArray = none then
    if o.idMalloc then
      some { tbl with
        ruleIdArray := some (tbl.tableEntries + tbl.expnTableEntries)
        ruleId := fun _ => 0 }
    else none
  else some tbl

/-- The rest of `ipa_nati_update_cache`: open the table's device and map it. -/
def mapTable (o : AddTblOutcomes) (tbl : IpaNatIp4TableCache) : Int × IpaNatIp4TableCache :=
  match o.openNat with
  | none => (- EIO, tbl)
  | some fd =>
    let tbl := { tbl with natFd := fd, natFdOpen := true }
    match o.mmap with
    | .null => (-EINVAL, tbl)
    | .failed => (0, { tbl with ipv4RulesAddr := .mapFailed })
    | .mapped => (0, { tbl with ipv4RulesAddr := .mapped tbl.size })

/-- `ipa_nati_update_cache` on the element of `ip4_tbl` it writes. When a `malloc` fails it
returns 0. -/
def ipaNatiUpdateCache (o : AddTblOutcomes) (tbl : IpaNatIp4TableCache) (mem : AllocMem)
    (publicAddr : UInt32) : Int × IpaNatIp4TableCache :=
  let tbl := publishTable tbl mem publicAddr
  match allocMeta o tbl with
  | none => (0, tbl)
  | some tbl =>
    match allocRuleId o tbl with
    | none => (0, tbl)
    | some tbl => mapTable o tbl

/-- `ipa_nati_reset_tbl`: the four `memset` calls cover every row of the table. Rows outside it
have no memory behind them and read as cleared. -/
def ipaNatiResetTbl (tbl : IpaNatIp4TableCache) : Except Fault IpaNatIp4TableCache :=
  match tbl.ipv4RulesAddr with
  | .null | .mapFailed | .unmapped => .error .badAddress
  | .mapped size =>
    if memSize (tbl.tableEntries + tbl.expnTableEntries) ≤ size then
      .ok { tbl with rules := fun _ => {}, index := fun _ => {} }
    else .error .badAddress

/-- The return value, the handle stored, and the cache. -/
abbrev TblResult := Int × Nat × IpaNatCache

/-- `ipa_nati_add_ipv4_tbl`. -/
def ipaNatiAddIpv4Tbl (o : AddTblOutcomes) (cache : IpaNatCache) (publicIpAddr : UInt32)
    (numberOfEntries : Nat) : Except Fault TblResult :=
  let tblIndx := cache.tableCnt
  match ipaNatiAllocTable o cache numberOfEntries with
  | (.error _, cache) => .ok (-ENOMEM, 0, cache)
  | (.ok mem, cache) =>
    if ipaNatMaxIp4Tbls ≤ tblIndx then .error (.tblIndex tblIndx)
    else
      match ipaNatiUpdateCache o cache.ip4Tbl mem publicIpAddr with
      | (ret, tbl) =>
        if ret ≠ 0 then .ok (-EINVAL, 0, { cache with ip4Tbl := tbl })
        else
          match ipaNatiResetTbl tbl with
          | .error fault => .error fault
          | .ok tbl =>
            if o.init = false then .ok (-EINVAL, 0, { cache with ip4Tbl := tbl })
            else
              let tableCnt := (cache.tableCnt + 1) % 256
              .ok (0, tableCnt, { cache with ip4Tbl := tbl, tableCnt := tableCnt })

/-- `ipa_nat_add_ipv4_tbl`. -/
def ipaNatAddIpv4Tbl (o : AddTblOutcomes) (cache : IpaNatCache) (publicIpAddr : UInt32)
    (numberOfEntries : Nat) : Except Fault TblResult :=
  if numberOfEntries = 0 then .ok (-EINVAL, 0, cache)
  else
    match ipaNatiAddIpv4Tbl o cache publicIpAddr numberOfEntries with
    | .error fault => .error fault
    | .ok (ret, hdl, cache) => .ok (if ret ≠ 0 then -EINVAL else ret, hdl, cache)

/-! ### Deleting the table -/

/-- `munmap`, whose result is not looked at. -/
def MapAddr.munmap : MapAddr → MapAddr
  | .mapped _ => .unmapped
  | addr => addr

/-- `ipa_nati_del_ipv4_table`. -/
def ipaNatiDelIpv4Table (o : DelTblOutcomes) (cache : IpaNatCache) (tblHdl : Nat) :
    Except Fault (Int × IpaNatCache) :=
  let index := (tblHdl + 255) % 256
  if ipaNatMaxIp4Tbls ≤ index then .error (.tblIndex index)
  else
    let tbl := cache.ip4Tbl
    if tbl.valid = false then .ok (-EINVAL, cache)
    else
      let tbl := { tbl with ipv4RulesAddr := tbl.ipv4RulesAddr.munmap }
      if o.close = false then .ok (-EINVAL, { cache with ip4Tbl := tbl })
      else
        let tbl := { tbl with natFdOpen := false }
        if o.ioctl = false then .ok (-EINVAL, { cache with ip4Tbl := tbl })
        else .ok (0, { cache with ip4Tbl := {}, tableCnt := (cache.tableCnt + 255) % 256 })

/-- `ipa_nat_del_ipv4_tbl`. -/
def ipaNatDelIpv4Tbl (o : DelTblOutcomes) (cache : IpaNatCache) (tblHdl : Nat) :
    Except Fault (Int × IpaNatCache) :=
  if tblHdl = ipaNatInvalidNatEntry ∨ ipaNatMaxIp4Tbls < tblHdl then .ok (-EINVAL, cache)
  else ipaNatiDelIpv4Table o cache tblHdl

/-- A table as a successful `ipa_nati_add_ipv4_tbl` leaves it in a clear `ip4_tbl`. -/
def Created (t : IpaNatIp4TableCache) : Prop :=
  ∃ (o : AddTblOutcomes) (ipaFd : Nat) (publicIpAddr : UInt32) (numberOfEntries : Nat)
    (cache : IpaNatCache), numberOfEntries < 65536 ∧
    ipaNatiAddIpv4Tbl o { ipaFd := ipaFd } publicIpAddr numberOfEntries = .ok (0, 1, cache) ∧
    cache.ip4Tbl = t

/-! ### What an add does -/

/-- The open and the ioctl of `ipa_nati_alloc_table` succeed. -/
def AllocSucceeds (o : AddTblOutcomes) (cache : IpaNatCache) : Prop :=
  (cache.ipaFd = 0 → o.openDev.isSome) ∧ o.allocMem.isSome

/-- Every system call after `ipa_nati_alloc_table` succeeds. -/
def RestSucceeds (o : AddTblOutcomes) : Prop :=
  o.metaMalloc = true ∧ o.idMalloc = true ∧ o.openNat.isSome ∧ o.mmap = .mapped ∧ o.init = true

instance (o : AddTblOutcomes) (cache : IpaNatCache) : Decidable (AllocSucceeds o cache) :=
  inferInstanceAs (Decidable (_ ∧ _))

instance (o : AddTblOutcomes) : Decidable (RestSucceeds o) :=
  inferInstanceAs (Decidable (_ ∧ _))

/-- The table is valid, mapped and open, with both arrays of its own sizes, and empty. -/
structure FreshTable (t : IpaNatIp4TableCache) : Prop where
  valid : t.valid = true
  entries : t.tableEntries = 0 ∨ ∃ k, 0 < k ∧ k ≤ 15 ∧ t.tableEntries = 2 ^ k
  expn : 2 ≤ t.expnTableEntries ∧ t.expnTableEntries ≤ 13108
  addr : t.ipv4RulesAddr = .mapped t.size
  natFd : t.natFdOpen = true
  indexMeta : t.indexExpnTableMeta = some t.expnTableEntries
  idArray : t.ruleIdArray = some (t.tableEntries + t.expnTableEntries)
  rules : t.rules = fun _ => {}
  index : t.index = fun _ => {}
  prevIndexMeta : t.prevIndexMeta = fun _ => 0
  ruleId : t.ruleId = fun _ => 0

theorem allocTable_cases (o : AddTblOutcomes) (cache : IpaNatCache) {n : Nat} (small : n < 65536) :
    ∃ cache', cache'.ip4Tbl = cache.ip4Tbl ∧ cache'.tableCnt = cache.tableCnt ∧
      ((¬AllocSucceeds o cache ∧ ∃ e, ipaNatiAllocTable o cache n = (.error e, cache')) ∨
        AllocSucceeds o cache ∧ ∃ mem, ipaNatiAllocTable o cache n = (.ok mem, cache') ∧
          tableEntriesOf n = some mem.tableEntries ∧ mem.expnTableEntries = expnTableEntriesOf n ∧
          mem.size = memSize ((mem.tableEntries + mem.expnTableEntries) % 65536)) := by
  obtain ⟨entries, sized, _⟩ := tableEntriesOf_cases small
  unfold ipaNatiAllocTable AllocSucceeds
  rw [sized]
  by_cases closed : cache.ipaFd = 0
  · cases opened : o.openDev with
    | none =>
      refine ⟨cache, rfl, rfl, Or.inl ⟨?_, - EIO, ?_⟩⟩
      · exact fun h => Bool.false_ne_true (h.1 closed)
      · simp only [closed, if_true, Option.map_none]
    | some fd =>
      refine ⟨{ cache with ipaFd := fd }, rfl, rfl, ?_⟩
      cases allocated : o.allocMem with
      | none =>
        refine Or.inl ⟨fun h => Bool.false_ne_true h.2, -EINVAL, ?_⟩
        simp only [closed, if_true, Option.map_some]
      | some offset =>
        refine Or.inr ⟨⟨fun _ => rfl, rfl⟩, ?_⟩
        simp only [closed, if_true, Option.map_some]
        exact ⟨_, rfl, rfl, rfl, rfl⟩
  · refine ⟨cache, rfl, rfl, ?_⟩
    cases allocated : o.allocMem with
    | none =>
      refine Or.inl ⟨fun h => Bool.false_ne_true h.2, -EINVAL, ?_⟩
      simp only [closed, if_false]
    | some offset =>
      refine Or.inr ⟨⟨fun zero => absurd zero closed, rfl⟩, ?_⟩
      simp only [closed, if_false]
      exact ⟨_, rfl, rfl, rfl, rfl⟩

/-- Nothing but the descriptor of the IPA device changes when the allocation fails. -/
theorem addIpv4Tbl_refused (o : AddTblOutcomes) (cache : IpaNatCache) (addr : UInt32) {n : Nat}
    (small : n < 65536) (failed : ¬AllocSucceeds o cache) :
    ∃ cache', ipaNatiAddIpv4Tbl o cache addr n = .ok (-ENOMEM, 0, cache') ∧
      cache'.ip4Tbl = cache.ip4Tbl ∧ cache'.tableCnt = cache.tableCnt := by
  obtain ⟨cache', tbl, cnt, ⟨_, e, alloc⟩ | ⟨ok, _⟩⟩ := allocTable_cases o cache small
  · refine ⟨cache', ?_, tbl, cnt⟩
    simp only [ipaNatiAddIpv4Tbl, alloc]
  · exact absurd ok failed

/-- An add to a clear `ip4_tbl` returns 0 exactly when every system call succeeds, and then
leaves a fresh table. When it fails the table is left valid. -/
theorem addIpv4Tbl_clear (o : AddTblOutcomes) (cache : IpaNatCache) (addr : UInt32) {n : Nat}
    (small : n < 65536) (clear : cache.ip4Tbl = {}) (cnt : cache.tableCnt = 0)
    (alloc_ok : AllocSucceeds o cache) :
    (RestSucceeds o ∧ ∃ cache', ipaNatiAddIpv4Tbl o cache addr n = .ok (0, 1, cache') ∧
      cache'.tableCnt = 1 ∧ FreshTable cache'.ip4Tbl) ∨
    (¬RestSucceeds o ∧ ∀ result, ipaNatiAddIpv4Tbl o cache addr n = .ok result →
      result.1 ≠ 0 ∧ result.2.2.ip4Tbl.valid = true) := by
  obtain ⟨entries, sized, power⟩ := tableEntriesOf_cases small
  have expn := expnTableEntriesOf_bounds small
  obtain ⟨cache', tbl, cnt', ⟨failed, _⟩ | ⟨_, mem, alloc, base, expn_eq, size⟩⟩ :=
    allocTable_cases o cache small
  · exact absurd alloc_ok failed
  rw [sized] at base
  have base := Option.some.inj base
  -- the number of entries does not wrap around in 16 bits
  have fits : (mem.tableEntries + mem.expnTableEntries) % 65536 = mem.tableEntries + mem.expnTableEntries := by
    apply Nat.mod_eq_of_lt
    rcases power with zero | ⟨k, _, le, eq⟩
    · omega
    · have := Nat.pow_le_pow_right (show 0 < 2 by decide) le
      omega
  rw [fits] at size
  have index : ¬ipaNatMaxIp4Tbls ≤ cache.tableCnt := by rw [cnt]; decide
  rw [clear] at tbl
  unfold RestSucceeds
  simp only [ipaNatiAddIpv4Tbl, alloc, index, if_false, tbl, ipaNatiUpdateCache, publishTable,
    allocMeta, allocRuleId]
  -- the calls in their order; every one that fails ends the function
  cases metaMalloc : o.metaMalloc with
  | false =>
    right
    simp [ipaNatiResetTbl]
  | true =>
    cases idMalloc : o.idMalloc with
    | false =>
      right
      simp [ipaNatiResetTbl]
    | true =>
      simp only [mapTable]
      cases opened : o.openNat with
      | none =>
        right
        simp [EINVAL, EIO]
      | some fd =>
        cases mapped : o.mmap with
        | null =>
          right
          simp [EINVAL]
        | failed =>
          right
          simp [ipaNatiResetTbl]
        | mapped =>
          have whole : memSize (mem.tableEntries + mem.expnTableEntries) ≤ mem.size :=
            Nat.le_of_eq size.symm
          cases init : o.init with
          | false =>
            right
            simp [ipaNatiResetTbl, whole, EINVAL]
          | true =>
            left
            refine ⟨⟨trivial, trivial, rfl, rfl, rfl⟩, ?_⟩
            simp only [ipaNatiResetTbl, whole, if_true, ne_eq, not_true_eq_false, if_false,
              reduceCtorEq, cnt', cnt]
            refine ⟨_, rfl, rfl, ?_⟩
            exact ⟨rfl, base ▸ power, expn_eq ▸ expn, rfl, rfl, rfl, rfl, rfl, rfl, rfl, rfl⟩

theorem Created.fresh {t : IpaNatIp4TableCache} (h : Created t) : FreshTable t := by
  obtain ⟨o, ipaFd, addr, n, cache, small, added, rfl⟩ := h
  by_cases alloc : AllocSucceeds o { ipaFd := ipaFd }
  · rcases addIpv4Tbl_clear o { ipaFd := ipaFd } addr small rfl rfl alloc with
      ⟨_, cache', eq, _, fresh⟩ | ⟨_, failed⟩
    · rw [added] at eq
      cases eq
      exact fresh
    · exact absurd rfl (failed _ added).1
  · obtain ⟨cache', eq, _⟩ := addIpv4Tbl_refused o { ipaFd := ipaFd } addr small alloc
    rw [added] at eq
    cases eq

/-- The table a first request for so many entries gets when every system call succeeds. -/
def createTable (numberOfEntries : Nat) : IpaNatIp4TableCache :=
  match ipaNatiAddIpv4Tbl {} {} 0 numberOfEntries with
  | .ok (_, _, cache) => cache.ip4Tbl
  | .error _ => {}

theorem createTable_created {n : Nat} (small : n < 65536) : Created (createTable n) := by
  have alloc : AllocSucceeds {} {} := by decide
  have rest : RestSucceeds {} := by decide
  rcases addIpv4Tbl_clear {} {} 0 small rfl rfl alloc with ⟨_, cache, added, _⟩ | ⟨failed, _⟩
  · exact ⟨{}, 0, 0, n, cache, small, added, by rw [createTable, added]⟩
  · exact absurd rest failed

end Hima.Ipanat
