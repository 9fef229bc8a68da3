import Hima.Ipacm.ConntrackListener
import Hima.Lib.Compaction
import Hima.Lib.Runs

/-!
# The private subnet table

`IPACM_Config` takes its private subnets from the configuration file, each with a mask of its
own, and adds and deletes subnets of interfaces later. A deletion closes the gap by copying the
addresses of the entries behind it forward and leaves every mask in its slot.
-/
namespace Hima.Ipacm

open Compaction Runs

def IPA_MAX_PRIVATE_SUBNET_ENTRIES : Nat := 3

/-- `ipa_private_subnet`. -/
structure IpaPrivateSubnet where
  subnetAddr : UInt32
  subnetMask : UInt32
  deriving DecidableEq, Repr

namespace IpaPrivateSubnet

/-- The test of `isPrivateSubnet` on one entry. -/
def covers (e : IpaPrivateSubnet) (ipAddr : UInt32) : Bool := e.subnetAddr = e.subnetMask &&& ipAddr

/-- The compaction copies `subnet_addr` and nothing else. -/
def takeAddr (e next : IpaPrivateSubnet) : IpaPrivateSubnet := { e with subnetAddr := next.subnetAddr }

end IpaPrivateSubnet

/-- `private_subnet_config` of the configuration file. -/
structure PrivateSubnetConfig where
  privateSubnetEntries : List IpaPrivateSubnet
  fits : privateSubnetEntries.length ≤ IPA_MAX_PRIVATE_SUBNET_ENTRIES

/-- The part of `IPACM_Config` for private subnets, with the `if_index` of each
`IPA_PRIVATE_SUBNET_CHANGE_EVENT` posted so far, latest first. -/
structure SubnetTable where
  privateSubnetTable : List IpaPrivateSubnet
  ipaNumPrivateSubnet : Nat
  posted : List Int := []
  deriving DecidableEq, Repr

namespace SubnetTable

/-- What `Init` makes of the configuration: the array is cleared first. -/
def init (cfg : PrivateSubnetConfig) : SubnetTable where
  privateSubnetTable := cfg.privateSubnetEntries ++
    List.replicate (IPA_MAX_PRIVATE_SUBNET_ENTRIES - cfg.privateSubnetEntries.length) ⟨0, 0⟩
  ipaNumPrivateSubnet := cfg.privateSubnetEntries.length

variable (s : SubnetTable)

/-- The slots that the loops visit. -/
def entries : List IpaPrivateSubnet := s.privateSubnetTable.take s.ipaNumPrivateSubnet

def isPrivateSubnet (ipAddr : UInt32) : Bool := s.entries.any (·.covers ipAddr)

/-- A failed `malloc` is reported by `IPACM_FAILURE`, which reads as `true`. -/
def post (ipaIfIndex : Int) (allocated : Bool) : SubnetTable :=
  if allocated then { s with posted := ipaIfIndex :: s.posted } else s

/-- `(~0 >> 8) << 8`. -/
def addedMask : UInt32 := (~~~(0 : UInt32) >>> 8) <<< 8

def addPrivateSubnet (ipAddr : UInt32) (ipaIfIndex : Int) (allocated : Bool) : Bool × SubnetTable :=
  if s.entries.any (·.subnetAddr = ipAddr) then (true, s)
  else if s.ipaNumPrivateSubnet < IPA_MAX_PRIVATE_SUBNET_ENTRIES then
    (true, post { s with
      privateSubnetTable := s.privateSubnetTable.set s.ipaNumPrivateSubnet ⟨ipAddr, addedMask⟩
      ipaNumPrivateSubnet := s.ipaNumPrivateSubnet + 1 } ipaIfIndex allocated)
  else (false, s)

def delPrivateSubnet (ipAddr : UInt32) (ipaIfIndex : Int) (allocated : Bool) :
    Option (Bool × SubnetTable) :=
  match s.entries.findIdx? (·.subnetAddr = ipAddr) with
  | none => some (false, s)
  | some cnt => do
    let moved ← shiftDown IpaPrivateSubnet.takeAddr id s.privateSubnetTable cnt
      (s.ipaNumPrivateSubnet - 1 - cnt)
    return (true, post { s with
      privateSubnetTable := moved
      ipaNumPrivateSubnet := s.ipaNumPrivateSubnet - 1 } ipaIfIndex allocated)

end SubnetTable

/-- A call, with whether `malloc` succeeds if the call gets that far. -/
inductive SubnetCall
  | add (ipAddr : UInt32) (ipaIfIndex : Int) (allocated : Bool)
  | del (ipAddr : UInt32) (ipaIfIndex : Int) (allocated : Bool)
  deriving DecidableEq, Repr

namespace SubnetTable

def step (s : SubnetTable) : SubnetCall → Option SubnetTable
  | .add ipAddr ipaIfIndex allocated => some (s.addPrivateSubnet ipAddr ipaIfIndex allocated).2
  | .del ipAddr ipaIfIndex allocated => (s.delPrivateSubnet ipAddr ipaIfIndex allocated).map (·.2)

/-! ### The subnets in force -/

/-- What a call is for: an address that is there is not added again, a full table takes nothing,
and a deletion takes one pair away. -/
def inForce (pairs : List IpaPrivateSubnet) : SubnetCall → List IpaPrivateSubnet
  | .add ipAddr _ _ =>
    if pairs.any (·.subnetAddr = ipAddr) then pairs
    else if pairs.length < IPA_MAX_PRIVATE_SUBNET_ENTRIES then pairs ++ [⟨ipAddr, addedMask⟩]
    else pairs
  | .del ipAddr _ _ => pairs.eraseP (·.subnetAddr = ipAddr)

/-- The table holds the pairs in force, each address with the mask it came with. -/
structure Represents (pairs : List IpaPrivateSubnet) (s : SubnetTable) : Prop where
  bounded : s.ipaNumPrivateSubnet ≤ IPA_MAX_PRIVATE_SUBNET_ENTRIES
  size : s.privateSubnetTable.length = IPA_MAX_PRIVATE_SUBNET_ENTRIES
  kept : s.entries = pairs

variable {pairs : List IpaPrivateSubnet} {s : SubnetTable}

theorem Represents.num (represents : Represents pairs s) : pairs.length = s.ipaNumPrivateSubnet := by
  rw [← represents.kept, entries, List.length_take, represents.size]
  exact Nat.min_eq_left represents.bounded

theorem Represents.private_iff (represents : Represents pairs s) (ipAddr : UInt32) :
    s.isPrivateSubnet ipAddr = true ↔ ∃ p ∈ pairs, ipAddr &&& p.subnetMask = p.subnetAddr := by
  rw [isPrivateSubnet, represents.kept, List.any_eq_true]
  simp only [IpaPrivateSubnet.covers, decide_eq_true_eq, UInt32.and_comm ipAddr]
  exact exists_congr fun p => and_congr_right fun _ => eq_comm

theorem init_represents (cfg : PrivateSubnetConfig) :
    Represents cfg.privateSubnetEntries (init cfg) where
  bounded := cfg.fits
  size := by
    have := cfg.fits
    simp only [init, List.length_append, List.length_replicate]
    omega
  kept := by simp only [entries, init, List.take_left']

@[simp] theorem post_table (s : SubnetTable) (ipaIfIndex : Int) (allocated : Bool) :
    (s.post ipaIfIndex allocated).privateSubnetTable = s.privateSubnetTable := by
  unfold post
  split <;> rfl

@[simp] theorem post_num (s : SubnetTable) (ipaIfIndex : Int) (allocated : Bool) :
    (s.post ipaIfIndex allocated).ipaNumPrivateSubnet = s.ipaNumPrivateSubnet := by
  unfold post
  split <;> rfl

theorem Represents.add
    (represents : Represents pairs s) (ipAddr : UInt32) (ipaIfIndex : Int) (allocated : Bool) :
    Represents (inForce pairs (.add ipAddr ipaIfIndex allocated))
      (s.addPrivateSubnet ipAddr ipaIfIndex allocated).2 := by
  have num := represents.num
  simp only [inForce, addPrivateSubnet, represents.kept, num]
  split
  · exact represents
  · split
    next room =>
      -- the new entry goes to the first slot the loops did not visit before
      refine ⟨?_, ?_, ?_⟩
      · rw [post_num]
        exact room
      · rw [post_table, List.length_set, represents.size]
      · have inside : s.ipaNumPrivateSubnet < s.privateSubnetTable.length := represents.size ▸ room
        rw [entries, post_num, post_table, ← represents.kept, entries, List.take_add_one,
          List.getElem?_set_self inside, List.take_set_of_le (Nat.le_refl _)]
        rfl
    · exact represents

/-- The entry to go and those behind it. -/
def fromEntry (s : SubnetTable) (ipAddr : UInt32) : List IpaPrivateSubnet :=
  s.entries.dropWhile (·.subnetAddr ≠ ipAddr)

/-- A deletion finds one mask in the entry to go and all entries behind it. -/
def KeepsMasks (s : SubnetTable) : SubnetCall → Prop
  | .add .. => True
  | .del ipAddr _ _ =>
    ∀ e ∈ s.fromEntry ipAddr, ∀ e' ∈ s.fromEntry ipAddr, e.subnetMask = e'.subnetMask

instance (s : SubnetTable) : (call : SubnetCall) → Decidable (KeepsMasks s call)
  | .add .. => inferInstanceAs (Decidable True)
  | .del ipAddr _ _ => inferInstanceAs (Decidable (∀ e ∈ s.fromEntry ipAddr,
      ∀ e' ∈ s.fromEntry ipAddr, e.subnetMask = e'.subnetMask))

/-- Neighbours with one mask, all with one mask. -/
theorem one_mask_iff (l : List IpaPrivateSubnet) :
    (∀ k a b, l[k]? = some a → l[k + 1]? = some b → a.subnetMask = b.subnetMask) ↔
      ∀ e ∈ l, ∀ e' ∈ l, e.subnetMask = e'.subnetMask := by
  constructor
  · intro neighbours
    -- every entry has the mask of the first one
    have first : ∀ (k : Nat) (e f : IpaPrivateSubnet), l[k]? = some e → l[0]? = some f → e.subnetMask = f.subnetMask := by
      intro k
      induction k with
      | zero =>
        intro e f atK atZero
        rw [atK] at atZero
        rw [Option.some.inj atZero]
      | succ k ih =>
        intro e f atK atZero
        obtain ⟨inside, -⟩ := List.getElem?_eq_some_iff.mp atK
        have before : l[k]? = some l[k] := List.getElem?_eq_getElem (by omega)
        rw [← neighbours k _ e before atK]
        exact ih _ f before atZero
    intro e member e' member'
    obtain ⟨k, atK⟩ := List.mem_iff_getElem?.mp member
    obtain ⟨k', atK'⟩ := List.mem_iff_getElem?.mp member'
    obtain ⟨inside, -⟩ := List.getElem?_eq_some_iff.mp atK
    have atZero : l[0]? = some l[0] := List.getElem?_eq_getElem (by omega)
    rw [first k e _ atK atZero, first k' e' _ atK' atZero]
  · intro one k a b atK atNext
    exact one a (List.mem_of_getElem? atK) b (List.mem_of_getElem? atNext)

theorem fromEntry_eq_drop {ipAddr : UInt32} {cnt : Nat}
    (found : s.entries.findIdx? (·.subnetAddr = ipAddr) = some cnt) :
    s.fromEntry ipAddr = s.entries.drop cnt := by
  rw [fromEntry, List.dropWhile_eq_drop_findIdx_not]
  congr 1
  have := List.findIdx?_eq_some_iff_findIdx_eq.mp found
  simpa using this.2

/-- What a deletion does to the address it finds. -/
theorem Represents.del_found (represents : Represents pairs s) {ipAddr : UInt32} {cnt : Nat}
    (found : s.entries.findIdx? (·.subnetAddr = ipAddr) = some cnt) (ipaIfIndex : Int) (allocated : Bool) :
    cnt < s.ipaNumPrivateSubnet ∧ ∃ moved, shiftDown IpaPrivateSubnet.takeAddr id s.privateSubnetTable cnt
        (s.ipaNumPrivateSubnet - 1 - cnt) = some moved ∧
      s.delPrivateSubnet ipAddr ipaIfIndex allocated = some (true, post { s with
        privateSubnetTable := moved
        ipaNumPrivateSubnet := s.ipaNumPrivateSubnet - 1 } ipaIfIndex allocated) := by
  have bounded := represents.bounded
  have size := represents.size
  obtain ⟨below, -⟩ := List.findIdx?_eq_some_iff_getElem.mp found
  rw [entries, List.length_take, size, Nat.min_eq_left bounded] at below
  have inside : cnt + (s.ipaNumPrivateSubnet - 1 - cnt) < s.privateSubnetTable.length := by omega
  obtain ⟨moved, runs, -⟩ :=
    shiftDown_spec IpaPrivateSubnet.takeAddr id (fun _ _ => rfl) inside
  refine ⟨below, moved, runs, ?_⟩
  simp only [delPrivateSubnet, found, runs, Option.bind_eq_bind, Option.bind_some, Option.pure_def]

/-- The table after the gap is closed is the right one if and only if the entries from the gap on
have one mask. -/
theorem Represents.closed_iff
    (represents : Represents pairs s) {cnt : Nat} (below : cnt < s.ipaNumPrivateSubnet)
    {moved : List IpaPrivateSubnet} (runs : shiftDown IpaPrivateSubnet.takeAddr id s.privateSubnetTable cnt
      (s.ipaNumPrivateSubnet - 1 - cnt) = some moved) :
    moved.length = s.privateSubnetTable.length ∧ (moved.take (s.ipaNumPrivateSubnet - 1) = pairs.eraseIdx cnt ↔
        ∀ e ∈ s.entries.drop cnt, ∀ e' ∈ s.entries.drop cnt, e.subnetMask = e'.subnetMask) := by
  have bounded := represents.bounded
  have size := represents.size
  have inside : cnt + (s.ipaNumPrivateSubnet - 1 - cnt) < s.privateSubnetTable.length := by omega
  have last : cnt + (s.ipaNumPrivateSubnet - 1 - cnt) = s.ipaNumPrivateSubnet - 1 := by omega
  have forgets : ∀ a b : IpaPrivateSubnet, (id a).takeAddr b = a.takeAddr b := fun _ _ => rfl
  obtain ⟨_, same, length, -, between, -⟩ := shiftDown_spec _ _ forgets inside
  obtain rfl := Option.some.inj (runs.symm.trans same)
  have entryAt : ∀ k, k < s.ipaNumPrivateSubnet → s.entries[k]? = s.privateSubnetTable[k]? :=
    fun k inside => List.getElem?_take_of_lt inside
  refine ⟨length, ?_⟩
  rw [← one_mask_iff, ← represents.kept]
  constructor
  · -- an address that moved shows the mask of the slot it moved to
    intro result k a b atK atNext
    rw [List.getElem?_drop] at atK atNext
    rw [← Nat.add_assoc] at atNext
    obtain ⟨within, -⟩ := List.getElem?_eq_some_iff.mp atNext
    rw [entries, List.length_take, size, Nat.min_eq_left bounded] at within
    rw [entryAt _ (by omega)] at atK
    have shown := congrArg (·[cnt + k]?) result
    simp only [List.getElem?_eraseIdx_of_ge (Nat.le_add_right cnt k)] at shown
    rw [atNext, List.getElem?_take_of_lt (by omega),
      between (cnt + k) (by omega) (by omega) a b atK (by rw [← entryAt _ within]; exact atNext)] at shown
    rw [← Option.some.inj shown]
    rfl
  · intro one
    have closed := take_shiftDown _ _ forgets inside (fun k above below a b atK atNext => ?_) runs
    · rw [last, Nat.sub_add_cancel (by omega)] at closed
      exact closed
    · have mask := one (k - cnt) a b
        (by rw [List.getElem?_drop, Nat.add_sub_cancel' above, entryAt _ (by omega)]; exact atK)
        (by rw [List.getElem?_drop, ← Nat.add_assoc, Nat.add_sub_cancel' above, entryAt _ (by omega)]
            exact atNext)
      rw [IpaPrivateSubnet.takeAddr, mask]

/-- A deletion leaves the right table if and only if it keeps the masks. -/
theorem Represents.del_iff
    (represents : Represents pairs s) (ipAddr : UInt32) (ipaIfIndex : Int) (allocated : Bool) :
    ∃ r, s.delPrivateSubnet ipAddr ipaIfIndex allocated = some r ∧
      (Represents (inForce pairs (.del ipAddr ipaIfIndex allocated)) r.2 ↔
        KeepsMasks s (.del ipAddr ipaIfIndex allocated)) := by
  simp only [inForce, KeepsMasks]
  cases found : s.entries.findIdx? (·.subnetAddr = ipAddr) with
  | none =>
    have absent := List.findIdx?_eq_none_iff.mp found
    refine ⟨(false, s), by simp only [delPrivateSubnet, found], iff_of_true ?_ ?_⟩
    · rw [List.eraseP_of_forall_not]
      · exact represents
      · intro e member
        rw [absent e (represents.kept ▸ member)]
        exact Bool.false_ne_true
    · have nothing : s.fromEntry ipAddr = [] := by
        rw [fromEntry, List.dropWhile_eq_drop_findIdx_not, List.drop_eq_nil_iff]
        refine Nat.le_of_eq (List.findIdx_eq_length_of_false fun e member => ?_).symm
        simpa using absent e member
      rw [nothing]
      intro e member
      cases member
  | some cnt =>
    -- the entry goes, and the gap is closed by moving addresses without their masks
    obtain ⟨below, moved, runs, result⟩ := represents.del_found found ipaIfIndex allocated
    obtain ⟨length, closed⟩ := represents.closed_iff below runs
    have bounded := represents.bounded
    refine ⟨_, result, ?_⟩
    rw [fromEntry_eq_drop found, List.eraseP_eq_eraseIdx, ← represents.kept, found]
    rw [← represents.kept] at closed
    constructor
    · intro after
      have kept := after.kept
      simp only [entries, post_table, post_num] at kept
      exact closed.mp kept
    · intro one
      have kept := closed.mpr one
      refine ⟨?_, ?_, ?_⟩
      · rw [post_num]
        exact Nat.le_trans (Nat.sub_le _ _) bounded
      · rw [post_table]
        exact length.trans represents.size
      · simpa only [entries, post_table, post_num] using kept

theorem Represents.step (represents : Represents pairs s) (call : SubnetCall) :
    ∃ s', s.step call = some s' ∧ (Represents (inForce pairs call) s' ↔ KeepsMasks s call) := by
  cases call with
  | add ipAddr ipaIfIndex allocated =>
    exact ⟨_, rfl, iff_of_true (represents.add ipAddr ipaIfIndex allocated) trivial⟩
  | del ipAddr ipaIfIndex allocated =>
    obtain ⟨r, result, iff⟩ := represents.del_iff ipAddr ipaIfIndex allocated
    exact ⟨r.2, by simp only [SubnetTable.step, result, Option.map_some], iff⟩

theorem run_represents {s t : SubnetTable} {calls : List SubnetCall}
    (run : Run SubnetTable.step KeepsMasks s calls t) (represents : Represents pairs s) :
    Represents (calls.foldl inForce pairs) t := by
  induction run generalizing pairs with
  | nil => exact represents
  | cons allowed stepped _ ih =>
    obtain ⟨_, same, iff⟩ := represents.step _
    obtain rfl := Option.some.inj (same.symm.trans stepped)
    exact ih (iff.mpr allowed)

/-- In every run from the configuration whose deletions keep the masks, the table stays within
its array, an address is private if and only if a pair in force matches it, and each pair in
force stands in the table with its mask. Every further call is defined, and it leaves the table
so if and only if it keeps the masks as well. -/
theorem private_subnets_hold (cfg : PrivateSubnetConfig) {calls : List SubnetCall} {s : SubnetTable}
    (run : Run SubnetTable.step KeepsMasks (init cfg) calls s) :
    s.ipaNumPrivateSubnet ≤ IPA_MAX_PRIVATE_SUBNET_ENTRIES ∧
    s.entries = calls.foldl inForce cfg.privateSubnetEntries ∧ (∀ ipAddr, s.isPrivateSubnet ipAddr = true ↔
      ∃ p ∈ calls.foldl inForce cfg.privateSubnetEntries, ipAddr &&& p.subnetMask = p.subnetAddr) ∧
    ∀ call, ∃ s', s.step call = some s' ∧
      (Represents ((calls ++ [call]).foldl inForce cfg.privateSubnetEntries) s' ↔ KeepsMasks s call) := by
  have represents := run_represents run (init_represents cfg)
  refine ⟨represents.bounded, represents.kept, represents.private_iff, ?_⟩
  intro call
  rw [List.foldl_concat]
  exact represents.step call

/-- The subnets 10.0.0.0/8 and 192.168.225.0/24. -/
def twoMasks : PrivateSubnetConfig where
  privateSubnetEntries := [⟨0x0A000000, 0xFF000000⟩, ⟨0xC0A8E100, 0xFFFFFF00⟩]
  fits := by decide

/-- The last entry is deleted, and two others come after it. -/
theorem private_subnets_hold_sample :
    ∃ s, Run SubnetTable.step KeepsMasks (init twoMasks)
      [.del 0xC0A8E100 0 true, .add 0xC0A80100 1 false, .add 0xC0A80200 1 true] s ∧
      s.isPrivateSubnet 0x0A010203 = true ∧ s.isPrivateSubnet 0xC0A8E101 = false := by
  have run : Run SubnetTable.step KeepsMasks (init twoMasks)
      [.del 0xC0A8E100 0 true, .add 0xC0A80100 1 false, .add 0xC0A80200 1 true]
      ⟨[⟨0x0A000000, 0xFF000000⟩, ⟨0xC0A80100, 0xFFFFFF00⟩, ⟨0xC0A80200, 0xFFFFFF00⟩], 3, [1, 0]⟩ :=
    .of_checked (by decide)
  obtain ⟨-, -, private_iff, -⟩ := private_subnets_hold twoMasks run
  refine ⟨_, run, (private_iff _).mpr (by decide), ?_⟩
  decide

/-- After 10.0.0.0/8 is deleted, 192.168.225.0 stands in its slot and has its mask. An address
of 192.168.225.0/24 is no longer private. -/
theorem mask_left_behind :
    ∃ s, (init twoMasks).step (.del 0x0A000000 0 true) = some s ∧ s.isPrivateSubnet 0xC0A8E101 = false ∧
      ∃ p ∈ inForce twoMasks.privateSubnetEntries (.del 0x0A000000 0 true),
        (0xC0A8E101 : UInt32) &&& p.subnetMask = p.subnetAddr :=
  ⟨_, rfl, by decide, by decide⟩

end SubnetTable

end Hima.Ipacm
