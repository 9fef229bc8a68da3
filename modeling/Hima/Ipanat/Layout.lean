import Hima.Ipanat.Lifecycle
import Hima.Lib.Tiling

/-!
# Size and layout of the table

`ipa_nati_update_cache` lays the four tables out as addresses, `ipa_nati_post_ipv4_init_cmd` tells
the hardware the same layout as offsets. Both are computed from the numbers of entries that
`ipa_nati_alloc_table` asked memory for.
-/
namespace Hima.Ipanat

open Tiling

/-! ### The layout of the code -/

/-- The addresses that `ipa_nati_update_cache` stores, for what `mmap` returned. -/
def ipaNatiTableAddr (ipv4RulesAddr tblEntries expnTblEntries : Nat) : NatTableType → Nat
  | .baseTbl => ipv4RulesAddr
  | .expnTbl => ipv4RulesAddr + ipaNatTableEntrySize * tblEntries
  | .indxTbl => ipv4RulesAddr + ipaNatTableEntrySize * (tblEntries + expnTblEntries)
  | .indexExpnTbl =>
    ipv4RulesAddr + ipaNatTableEntrySize * (tblEntries + expnTblEntries) +
      ipaNatIndexTableEntrySize * tblEntries

/-- `struct ipa_ioc_v4_nat_init`; the table index is that of the only table. -/
structure IpaIocV4NatInit where
  ipv4RulesOffset : Nat
  expnRulesOffset : Nat
  indexOffset : Nat
  indexExpnOffset : Nat
  tableEntries : Nat
  expnTableEntries : Nat
  ipAddr : UInt32
deriving DecidableEq, Repr

/-- The command of `ipa_nati_post_ipv4_init_cmd`. The offsets are of the type `uint32_t`, as is
`tbl_addr_offset`. -/
def ipaNatiPostIpv4InitCmd (t : IpaNatIp4TableCache) : IpaIocV4NatInit :=
  let offset := t.tblAddrOffset % 2 ^ 32
  let expnRulesOffset := (offset + t.tableEntries * ipaNatTableEntrySize) % 2 ^ 32
  let indexOffset := (expnRulesOffset + t.expnTableEntries * ipaNatTableEntrySize) % 2 ^ 32
  let indexExpnOffset := (indexOffset + t.tableEntries * ipaNatIndexTableEntrySize) % 2 ^ 32
  { ipv4RulesOffset := offset
    expnRulesOffset := expnRulesOffset
    indexOffset := indexOffset
    indexExpnOffset := indexExpnOffset
    tableEntries := sub16 t.tableEntries 1
    expnTableEntries := t.expnTableEntries
    ipAddr := t.publicAddr }

/-- The offset that the command gives for a table. -/
def IpaIocV4NatInit.offset (cmd : IpaIocV4NatInit) : NatTableType → Nat
  | .baseTbl => cmd.ipv4RulesOffset
  | .expnTbl => cmd.expnRulesOffset
  | .indxTbl => cmd.indexOffset
  | .indexExpnTbl => cmd.indexExpnOffset

/-! ### What it is for -/

/-- The tables in the order of the memory. -/
def natTables : List NatTableType := [.baseTbl, .expnTbl, .indxTbl, .indexExpnTbl]

/-- The bytes that a table needs. -/
def tableBytes (tblEntries expnTblEntries : Nat) : NatTableType → Nat
  | .baseTbl => ipaNatTableEntrySize * tblEntries
  | .expnTbl => ipaNatTableEntrySize * expnTblEntries
  | .indxTbl => ipaNatIndexTableEntrySize * tblEntries
  | .indexExpnTbl => ipaNatIndexTableEntrySize * expnTblEntries

/-- The numbers of entries that a request is meant to get: a power of 2 that is at least 2 and not
below four fifths of the request, and an even number of at least 2. -/
structure SizedFor (numberOfEntries : Nat) (mem : AllocMem) : Prop where
  base : ∃ k, 1 ≤ k ∧ mem.tableEntries = 2 ^ k
  enough : numberOfEntries * 4 / 5 ≤ mem.tableEntries
  expn : 2 ≤ mem.expnTableEntries ∧ mem.expnTableEntries % 2 = 0

/-- The byte `p` belongs to a table of the memory mapped at `addr`. -/
def AllocMem.Has (mem : AllocMem) (addr : Nat) : NatTableType → Nat → Prop :=
  Holds (ipaNatiTableAddr addr mem.tableEntries mem.expnTableEntries)
    (tableBytes mem.tableEntries mem.expnTableEntries)

/-- The tables of the memory mapped at `addr` share it out, and the hardware is told where they are. -/
structure LaidOut (t : IpaNatIp4TableCache) (mem : AllocMem) (addr : Nat) : Prop where
  covers : ∀ p, (∃ tbl, mem.Has addr tbl p) ↔ addr ≤ p ∧ p < addr + mem.size
  disjoint : ∀ tbl tbl' p, mem.Has addr tbl p → mem.Has addr tbl' p → tbl = tbl'
  agree : ∀ tbl, (ipaNatiPostIpv4InitCmd t).offset tbl + addr =
    mem.offset + ipaNatiTableAddr addr mem.tableEntries mem.expnTableEntries tbl

/-- How far from the start of the memory the last table starts, for a request. -/
def lastTableStart (numberOfEntries : Nat) : Nat :=
  let tblEntries := 2 ^ Nat.clog 2 (max 2 (numberOfEntries * 4 / 5))
  let expnTblEntries := max 2 ((numberOfEntries / 5 + 1) / 2 * 2)
  ipaNatTableEntrySize * (tblEntries + expnTblEntries) + ipaNatIndexTableEntrySize * tblEntries

/-! ### Sizes -/

theorem mem_natTables (tbl : NatTableType) : tbl ∈ natTables := by
  cases tbl <;> decide

theorem getNearestEven_eq (num : Nat) : getNearestEven num = max 2 ((num + 1) / 2 * 2) := by
  unfold getNearestEven
  split
  · omega
  · split <;> omega

theorem tableEntriesOf_eq {n : Nat} (small : n < 65536) :
    tableEntriesOf n = some (2 ^ Nat.clog 2 (max 2 (n * 4 / 5)) % 65536) := by
  unfold tableEntriesOf
  split
  next zero =>
    rw [zero, getNearest2Power_eq one_ne_zero (by decide)]
    rfl
  next some => exact getNearest2Power_eq some (by omega)

/-- The base entries come out as 0 for a request of more than 40961 entries. -/
theorem base_entries {n : Nat} (small : n < 65536) :
    (n ≤ 40961 ∧ 2 ^ Nat.clog 2 (max 2 (n * 4 / 5)) ≤ 32768) ∨
      (40961 < n ∧ 2 ^ Nat.clog 2 (max 2 (n * 4 / 5)) = 65536) := by
  by_cases fits : n ≤ 40961
  · have le : Nat.clog 2 (max 2 (n * 4 / 5)) ≤ 15 := Nat.clog_le_of_le_pow (by omega)
    have := Nat.pow_le_pow_right (show 0 < 2 by decide) le
    exact Or.inl ⟨fits, this⟩
  · have le : Nat.clog 2 (max 2 (n * 4 / 5)) ≤ 16 := Nat.clog_le_of_le_pow (by omega)
    have lt : 15 < Nat.clog 2 (max 2 (n * 4 / 5)) :=
      (Nat.lt_clog_iff_pow_lt Nat.one_lt_two).mpr (by omega)
    have last : Nat.clog 2 (max 2 (n * 4 / 5)) = 16 := by omega
    exact Or.inr ⟨by omega, by rw [last]; rfl⟩

/-! ### The layout -/

/-- The tables lie one behind the other. -/
theorem tables_tile (mem : AllocMem) (addr : Nat) :
    Tiles (ipaNatiTableAddr addr mem.tableEntries mem.expnTableEntries)
      (tableBytes mem.tableEntries mem.expnTableEntries) natTables addr
      (addr + memSize (mem.tableEntries + mem.expnTableEntries)) := by
  simp only [natTables, Tiles, ipaNatiTableAddr, tableBytes, memSize, ipaNatTableEntrySize,
    ipaNatIndexTableEntrySize, true_and]
  omega

theorem tables_agree_iff (t : IpaNatIp4TableCache) (mem : AllocMem) (publicAddr : UInt32) (addr : Nat) :
    (∀ tbl, (ipaNatiPostIpv4InitCmd (publishTable t mem publicAddr)).offset tbl + addr =
      mem.offset + ipaNatiTableAddr addr mem.tableEntries mem.expnTableEntries tbl) ↔
    mem.offset + (ipaNatTableEntrySize * (mem.tableEntries + mem.expnTableEntries) +
      ipaNatIndexTableEntrySize * mem.tableEntries) < 2 ^ 32 := by
  simp only [ipaNatiPostIpv4InitCmd, publishTable, ipaNatTableEntrySize, ipaNatIndexTableEntrySize]
  constructor
  · intro agree
    have last := agree .indexExpnTbl
    simp only [IpaIocV4NatInit.offset, ipaNatiTableAddr, ipaNatTableEntrySize,
      ipaNatIndexTableEntrySize] at last
    omega
  · intro fits tbl
    cases tbl <;> simp only [IpaIocV4NatInit.offset, ipaNatiTableAddr, ipaNatTableEntrySize,
      ipaNatIndexTableEntrySize] <;> omega

/-- The table that a request gets has the size and the layout it is meant to have exactly when the
request is for at most 40961 entries and the offsets do not leave 32 bits. -/
theorem table_layout_iff {o : AddTblOutcomes} {cache cache' : IpaNatCache} {n : Nat} {mem : AllocMem}
    (small : n < 65536) (alloc : ipaNatiAllocTable o cache n = (.ok mem, cache'))
    (t : IpaNatIp4TableCache) (publicAddr : UInt32) (addr : Nat) :
    (SizedFor n mem ∧ LaidOut (publishTable t mem publicAddr) mem addr) ↔
      n ≤ 40961 ∧ mem.offset + lastTableStart n < 2 ^ 32 := by
  obtain ⟨_, _, _, ⟨_, e, failed⟩ | ⟨_, mem', alloc', base, expn, size⟩⟩ := allocTable_cases o cache small
  · rw [alloc] at failed
    cases failed
  rw [alloc] at alloc'
  cases alloc'
  rw [tableEntriesOf_eq small] at base
  have base := Option.some.inj base
  rw [expnTableEntriesOf, getNearestEven_eq] at expn
  rcases base_entries small with ⟨fits, le⟩ | ⟨beyond, eq⟩
  · rw [Nat.mod_eq_of_lt (by omega)] at base
    rw [Nat.mod_eq_of_lt (by omega)] at size
    -- the table is as large as it should be, and only the offsets can wrap around
    have start : lastTableStart n = ipaNatTableEntrySize * (mem.tableEntries + mem.expnTableEntries) +
        ipaNatIndexTableEntrySize * mem.tableEntries := by
      rw [lastTableStart, ← base, ← expn]
    rw [start, ← tables_agree_iff t mem publicAddr addr]
    have tiles := tables_tile mem addr
    constructor
    · rintro ⟨-, laid⟩
      exact ⟨fits, laid.agree⟩
    · rintro ⟨-, agree⟩
      refine ⟨⟨⟨_, ?_, base.symm⟩, ?_, ?_⟩, ⟨fun p => ?_, fun tbl tbl' p => ?_, agree⟩⟩
      · exact Nat.clog_pos Nat.one_lt_two (by omega)
      · rw [← base]
        exact (Nat.le_max_right _ _).trans (Nat.le_pow_clog Nat.one_lt_two _)
      · omega
      · rw [size, ← tiles.covers]
        exact ⟨fun ⟨tbl, has⟩ => ⟨tbl, mem_natTables tbl, has⟩, fun ⟨tbl, _, has⟩ => ⟨tbl, has⟩⟩
      · exact tiles.disjoint (mem_natTables tbl) (mem_natTables tbl')
  · -- the power of 2 is cut to 16 bits and comes out as 0
    have zero : mem.tableEntries = 0 := by rw [← base, eq]
    constructor
    · rintro ⟨⟨⟨k, _, power⟩, _, _⟩, _⟩
      have := Nat.two_pow_pos k
      omega
    · rintro ⟨le, _⟩
      omega

theorem default_table_laid_out :
    SizedFor 100 ⟨5328, 0, 128, 20⟩ ∧ LaidOut (publishTable {} ⟨5328, 0, 128, 20⟩ 0) ⟨5328, 0, 128, 20⟩ 4096 :=
  (table_layout_iff (by decide)
    (show ipaNatiAllocTable {} {} 100 = (.ok ⟨5328, 0, 128, 20⟩, { ipaFd := 3 }) from rfl)
    {} 0 4096).mpr (by decide +kernel)

/-- A request for 40962 entries gets a base table of none. -/
theorem large_table_empty :
    ipaNatiAllocTable {} {} 40962 = (.ok ⟨294912, 0, 0, 8192⟩, { ipaFd := 3 }) ∧
      ¬ SizedFor 40962 ⟨294912, 0, 0, 8192⟩ := by
  refine ⟨rfl, ?_⟩
  rintro ⟨-, enough, -⟩
  exact absurd enough (by decide)

end Hima.Ipanat
