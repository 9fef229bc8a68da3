import Hima.Ipacm.NatApp

/-!
# A driver that keeps a list

What a caller may expect of the NAT driver, and a driver of one table that does just this: it
keeps the rules of the table in a list and hands out the lowest handle that is not in use.
-/
namespace Hima.Ipacm

open Ipanat

/-- The rules of a table with their handles. -/
abbrev LiveRules := List (UInt32 × IpaNatIpv4Rule)

variable {σ : Type}

/-- The behaviour of a driver, told through the live table and its rules. A table is created
while there is none, calls on the live table and on live handles succeed, and only an added rule
may be refused. -/
structure NatDriver.Lawful (nat : NatDriver σ) (view : σ → Option (UInt32 × LiveRules)) :
    Prop where
  named : ∀ d hdl live, view d = some (hdl, live) → hdl ≠ 0
  addTbl : ∀ d pubIp n ret stored d', nat.addIpv4Tbl d pubIp n = (ret, stored, d') →
    (ret ≠ 0 ∧ stored = (if n = 0 then none else some 0) ∧ view d' = view d) ∨
    (ret = 0 ∧ n ≠ 0 ∧ view d = none ∧ ∃ hdl, stored = some hdl ∧ view d' = some (hdl, []))
  delTbl : ∀ d hdl live ret d', view d = some (hdl, live) →
    nat.delIpv4Tbl d hdl = (ret, d') → ret = 0 ∧ view d' = none
  addRule : ∀ d hdl live rule ret stored d', view d = some (hdl, live) →
    nat.addIpv4Rule d hdl rule = (ret, stored, d') →
    (ret < 0 ∧ view d' = view d) ∨
    (¬ret < 0 ∧ ∃ r, stored = some r ∧ r ∉ live.map Prod.fst ∧
      view d' = some (hdl, (r, rule) :: live))
  noTable : ∀ d rule ret stored d', nat.addIpv4Rule d 0 rule = (ret, stored, d') →
    ret < 0 ∧ view d' = view d
  delRule : ∀ d hdl live r ret d', view d = some (hdl, live) → r ∈ live.map Prod.fst →
    nat.delIpv4Rule d hdl r = (ret, d') →
    ¬ret < 0 ∧ view d' = some (hdl, live.filter fun rule => rule.1 ≠ r)

/-- The lowest handle that no rule has, or 0. -/
def freshHdl (live : LiveRules) : UInt32 :=
  (((List.range (live.length + 1)).map fun n => UInt32.ofNat (n + 1)).find?
    fun hdl => hdl ∉ live.map Prod.fst).getD 0

/-- The driver. Its only table has the handle 1. -/
def listDriver : NatDriver (Option LiveRules) where
  addIpv4Tbl d _ n :=
    if n = 0 then (-EINVAL, none, d)
    else
      match d with
      | some _ => (-EINVAL, some 0, d)
      | none => (0, some 1, some [])
  delIpv4Tbl d tblHdl := if tblHdl = 1 ∧ d.isSome then (0, none) else (-EINVAL, d)
  addIpv4Rule d tblHdl rule :=
    match d with
    | none => (-EINVAL, none, d)
    | some live =>
      let ruleHdl := freshHdl live
      if tblHdl ≠ 1 ∨ ruleHdl = 0 ∨ ruleHdl ∈ live.map Prod.fst then (-EINVAL, none, d)
      else (0, some ruleHdl, some ((ruleHdl, rule) :: live))
  delIpv4Rule d tblHdl ruleHdl :=
    match d with
    | none => (-EINVAL, d)
    | some live =>
      if tblHdl = 1 ∧ ruleHdl ∈ live.map Prod.fst then
        (0, some (live.filter fun rule => rule.1 ≠ ruleHdl))
      else (-EINVAL, d)

def listView (d : Option LiveRules) : Option (UInt32 × LiveRules) := d.map fun live => (1, live)

theorem listDriver_lawful : listDriver.Lawful listView := by
  constructor
  case named =>
    rintro (_ | live) hdl _ shown
    · cases shown
    · cases shown
      decide
  -- in every case the answer is computed; a table is there or not
  case addTbl =>
    intro d _ n ret stored d' call
    by_cases zero : n = 0
    · simp only [listDriver, zero, if_true, Prod.mk.injEq] at call
      obtain ⟨rfl, rfl, rfl⟩ := call
      exact Or.inl ⟨by decide, by simp [zero], rfl⟩
    · cases d with
      | none =>
        simp only [listDriver, zero, if_false, Prod.mk.injEq] at call
        obtain ⟨rfl, rfl, rfl⟩ := call
        exact Or.inr ⟨rfl, zero, rfl, 1, rfl, rfl⟩
      | some live =>
        simp only [listDriver, zero, if_false, Prod.mk.injEq] at call
        obtain ⟨rfl, rfl, rfl⟩ := call
        exact Or.inl ⟨by decide, by simp [zero], rfl⟩
  case delTbl =>
    rintro (_ | live) hdl _ ret d' shown call
    · cases shown
    · cases shown
      obtain ⟨rfl, rfl⟩ := call
      exact ⟨rfl, rfl⟩
  case addRule =>
    rintro (_ | live) hdl _ rule ret stored d' shown call
    · cases shown
    · cases shown
      simp only [listDriver] at call
      split at call
      next refused =>
        cases call
        exact Or.inl ⟨by decide, rfl⟩
      next accepted =>
        cases call
        simp only [not_or] at accepted
        exact Or.inr ⟨by decide, _, rfl, accepted.2.2, rfl⟩
  case noTable =>
    rintro (_ | live) rule ret stored d' call
    · cases call
      exact ⟨by decide, rfl⟩
    · simp only [listDriver] at call
      rw [if_pos (Or.inl (by decide))] at call
      cases call
      exact ⟨by decide, rfl⟩
  case delRule =>
    rintro (_ | live) hdl _ r ret d' shown member call
    · cases shown
    · cases shown
      simp only [listDriver, member, and_self, if_true, Prod.mk.injEq] at call
      obtain ⟨rfl, rfl⟩ := call
      exact ⟨by decide, rfl⟩

/-- Two TCP connections of two clients to one server. -/
def sampleEntry : NatTableEntry where
  privateIp := 0xC0A80102
  privatePort := 40000
  targetIp := 0x08080808
  targetPort := 443
  publicPort := 40000
  protocol := 6

def otherEntry : NatTableEntry :=
  { sampleEntry with privateIp := 0xC0A80103, privatePort := 40001, publicPort := 40001 }

end Hima.Ipacm

/-!
## The scan of `CacheEntry`

`AddEntry` looks for a free slot from the first one on. `CacheEntry` has the same loop, without an
initial value for its index: it starts wherever the index happens to stand.
-/
namespace Hima.Ipacm

open Ipanat Slots

/-- The slot holds the connection of the rule, without a rule of the driver. -/
structure CachedAs (rule slot : NatTableEntry) : Prop where
  connection : slot.connection = rule.connection
  publicPort : slot.publicPort = rule.publicPort
  dstNat : slot.dstNat = rule.dstNat
  enabled : slot.enabled = false
  ruleHdl : slot.ruleHdl = 0

/-- What `CacheEntry` is for: the rule gets a free slot while there is one, and the call touches
nothing else. -/
def Stores {σ : Type} (s : NatApp σ) (rule : NatTableEntry) (result : Option (NatApp σ)) : Prop :=
  ∃ s', result = some s' ∧
    ((∃ slot ∈ s.cache, slot.isFree = true) →
      ∃ pre slot stored post, s.cache = pre ++ slot :: post ∧ slot.isFree = true ∧
        s'.cache = pre ++ stored :: post ∧ CachedAs rule stored) ∧
    ((∀ slot ∈ s.cache, slot.isFree = false) → s'.cache = s.cache)

namespace NatApp

variable {σ : Type} {s : NatApp σ}

theorem filledSlot_cachedAs (slot rule : NatTableEntry) :
    CachedAs rule (filledSlot slot rule false 0) :=
  ⟨rfl, rfl, rfl, rfl, rfl⟩

/-- A scan that starts inside the table ends at the first free slot from there on. -/
theorem cacheEntry_inside {cnt : Int} {rule : NatTableEntry} (whole : rule.connection.Whole)
    (new : s.chkForDup rule = false) (low : 0 ≤ cnt) (high : cnt ≤ s.cache.length) :
    (∃ pre slot post, s.cache = pre ++ slot :: post ∧ slot.isFree = true ∧ cnt.toNat ≤ pre.length ∧
      s.cacheEntry cnt rule = some { s with
        cache := pre ++ filledSlot slot rule false 0 :: post
        curCnt := s.curCnt + 1 }) ∨
    ((∀ slot ∈ s.cache.drop cnt.toNat, slot.isFree = false) ∧ s.cacheEntry cnt rule = some s) := by
  have inside : ¬(cnt < 0 ∨ s.cache.length < cnt) := by omega
  unfold cacheEntry
  rw [if_neg (not_not.mpr whole), new, if_neg Bool.false_ne_true, if_neg inside]
  dsimp only
  cases found : (s.cache.drop cnt.toNat).find? NatTableEntry.isFree with
  | none =>
    refine Or.inr ⟨fun slot member => ?_, rfl⟩
    exact Bool.eq_false_iff.mpr (List.find?_eq_none.mp found slot member)
  | some slot =>
    obtain ⟨pre, post, scanned, free, -, set⟩ := find?_split found
    refine Or.inl ⟨s.cache.take cnt.toNat ++ pre, slot, post, ?_, free, ?_, ?_⟩
    · rw [List.append_assoc, ← scanned, List.take_append_drop]
    · rw [List.length_append, List.length_take]
      omega
    · simp only [set, List.append_assoc]

theorem cacheEntry_outside {cnt : Int} {rule : NatTableEntry} (whole : rule.connection.Whole)
    (new : s.chkForDup rule = false) (outside : cnt < 0 ∨ s.cache.length < cnt) :
    s.cacheEntry cnt rule = none := by
  unfold cacheEntry
  rw [if_neg (not_not.mpr whole), new, if_neg Bool.false_ne_true, if_pos outside]

/-- A rule is cached as it should be exactly when the scan starts inside the table and, if any slot
is free, at or before a free one. -/
theorem cacheEntry_stores_iff {cnt : Int} {rule : NatTableEntry} (whole : rule.connection.Whole)
    (new : s.chkForDup rule = false) :
    Stores s rule (s.cacheEntry cnt rule) ↔ 0 ≤ cnt ∧ cnt ≤ s.cache.length ∧
        ((∃ slot ∈ s.cache, slot.isFree = true) → ∃ slot ∈ s.cache.drop cnt.toNat, slot.isFree = true) := by
  by_cases outside : cnt < 0 ∨ s.cache.length < cnt
  · rw [cacheEntry_outside whole new outside]
    constructor
    · rintro ⟨s', returned, -⟩
      cases returned
    · omega
  have low : 0 ≤ cnt := by omega
  have high : cnt ≤ s.cache.length := by omega
  -- the scan ends at a free slot, or runs through
  rcases cacheEntry_inside whole new low high with
    ⟨pre, slot, post, cache, free, after, returned⟩ | ⟨full, returned⟩
  · rw [returned]
    constructor
    · refine fun _ => ⟨low, high, fun _ => ⟨slot, ?_, free⟩⟩
      rw [cache, List.drop_append_of_le_length after]
      simp
    · refine fun _ => ⟨_, rfl, fun _ => ?_, fun none_free => ?_⟩
      · exact ⟨pre, slot, _, post, cache, free, rfl, filledSlot_cachedAs slot rule⟩
      · have := none_free slot (by simp [cache])
        rw [free] at this
        cases this
  · -- the scan runs past the last slot and the rule is dropped
    rw [returned]
    constructor
    · rintro ⟨s', same, stored, -⟩
      cases same
      refine ⟨low, high, fun some_free => ?_⟩
      obtain ⟨pre, slot, stored, post, cache, free, kept, as⟩ := stored some_free
      have same : slot = stored := by
        rw [cache] at kept
        simpa using kept
      rw [NatTableEntry.isFree_iff, same, as.connection] at free
      exact absurd (congrArg Connection.privateIp free) whole.1
    · rintro ⟨-, -, later⟩
      refine ⟨s, rfl, fun some_free => ?_, fun _ => rfl⟩
      obtain ⟨slot, member, free⟩ := later some_free
      rw [full slot member] at free
      cases free

end NatApp

open NatApp

theorem sample_stored :
    Stores (NatApp.init 2 [] 0 [] ()) sampleEntry ((NatApp.init 2 [] 0 [] ()).cacheEntry 1 sampleEntry) :=
  (cacheEntry_stores_iff (by decide) (by decide)).mpr (by decide)

/-- A scan that starts behind the table drops the rule, although every slot is free. -/
theorem sample_dropped :
    ¬Stores (NatApp.init 2 [] 0 [] ()) sampleEntry ((NatApp.init 2 [] 0 [] ()).cacheEntry 2 sampleEntry) := by
  rintro ⟨s', returned, stored, -⟩
  cases returned
  obtain ⟨pre, slot, kept, post, -, -, cache, as⟩ := stored (by decide)
  have member : kept ∈ (NatApp.init 2 [] 0 [] ()).cache := by
    rw [cache]
    simp
  have empty : kept = {} := List.eq_of_mem_replicate member
  exact absurd as.connection (by rw [empty]; decide)

end Hima.Ipacm
