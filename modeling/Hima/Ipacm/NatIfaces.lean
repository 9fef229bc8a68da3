import Hima.Lib.Compaction
import Hima.Lib.Runs

/-!
# The NAT interface list

`IPACM_Config` keeps the names of the interfaces whose connections are NATed in an array with one
slot for each IPA interface. An addition raises the counter before it looks whether the array is
full, and does not lower it again.
-/
namespace Hima.Ipacm

open Compaction Runs

def IPA_IFACE_NAME_LEN : Nat := 16

/-- The buffer of an interface name: a C string and what stands behind its end. -/
structure IfaceName where
  bytes : List UInt8
  size : bytes.length = IPA_IFACE_NAME_LEN
  terminated : 0 ∈ bytes
  deriving DecidableEq

namespace IfaceName

/-- The characters that `strcmp`, `strncmp` and the kernel see. -/
def text (name : IfaceName) : List UInt8 := name.bytes.takeWhile (· ≠ 0)

/-- The buffer after `memset` or `calloc`. -/
def cleared : IfaceName where
  bytes := List.replicate IPA_IFACE_NAME_LEN 0
  size := List.length_replicate
  terminated := by decide

end IfaceName

/-- The part of `IPACM_Config` for NAT interfaces. `ipa_num_ipa_interfaces` is the length of
the array that `Init` allocates. -/
structure NatIfaces where
  pNatIfaces : List IfaceName
  ipaNatIfaceEntries : Nat
  deriving DecidableEq

namespace NatIfaces

def init (ipaNumIpaInterfaces : Nat) : NatIfaces where
  pNatIfaces := List.replicate ipaNumIpaInterfaces .cleared
  ipaNatIfaceEntries := 0

variable (s : NatIfaces)

def ipaNumIpaInterfaces : Nat := s.pNatIfaces.length

/-- A loop over the first `n` slots of the array; a read past its end has no outcome. -/
def slots (n : Nat) : Option (List IfaceName) :=
  if n ≤ s.pNatIfaces.length then some (s.pNatIfaces.take n) else none

/-- `GetNatIfaces` with a buffer for `nIfaces` names. -/
def getNatIfaces (nIfaces : Nat) : Option (Int × List IfaceName) :=
  if nIfaces = 0 then some (-1, [])
  else (s.slots nIfaces).map fun ifaces => (0, ifaces)

/-- The connection listener looks an interface up among the names it gets from `GetNatIfaces`.
Without them it looks at none. -/
def isNatIface (ifrName : IfaceName) : Option Bool := do
  let (ret, ifaces) ← s.getNatIfaces s.ipaNatIfaceEntries
  return ret = 0 && ifaces.any (ifrName.text = ·.text)

def addNatIfaces (devName : IfaceName) : NatIfaces :=
  let s := { s with ipaNatIfaceEntries := s.ipaNatIfaceEntries + 1 }
  if s.ipaNatIfaceEntries < s.ipaNumIpaInterfaces then
    { s with pNatIfaces := s.pNatIfaces.set (s.ipaNatIfaceEntries - 1) devName }
  else s

/-- The search of `DelNatIfaces`, from slot `i` on with `n` turns left. -/
def findNatIface (devName : IfaceName) (i : Nat) : Nat → Option (Option Nat)
  | 0 => some none
  | n + 1 => do
    let iface ← s.pNatIfaces[i]?
    if devName.text = iface.text then return some i else findNatIface devName (i + 1) n

/-- The matched slot is cleared, each slot behind it is copied forward and cleared. -/
def delNatIfaces (devName : IfaceName) : Option NatIfaces := do
  match ← s.findNatIface devName 0 s.ipaNatIfaceEntries with
  | none => return s
  | some i =>
    let moved ← shiftDown (fun _ next => next) (fun _ => .cleared) (s.pNatIfaces.set i .cleared) i
      (s.ipaNatIfaceEntries - 1 - i)
    return { s with pNatIfaces := moved, ipaNatIfaceEntries := s.ipaNatIfaceEntries - 1 }

end NatIfaces

inductive NatIfaceCall
  | add (devName : IfaceName)
  | del (devName : IfaceName)
  deriving DecidableEq

namespace NatIfaces

def step (s : NatIfaces) : NatIfaceCall → Option NatIfaces
  | .add devName => some (s.addNatIfaces devName)
  | .del devName => s.delNatIfaces devName

/-! ### The names added and not deleted -/

/-- What a call is for, with room for `num` names: a deletion takes the first of equal names. -/
def listed (num : Nat) (names : List IfaceName) : NatIfaceCall → List IfaceName
  | .add devName => if names.length < num then names ++ [devName] else names
  | .del devName => names.eraseP (devName.text = ·.text)

/-- The front of the array is the list. -/
structure Holds (names : List IfaceName) (s : NatIfaces) : Prop where
  bounded : s.ipaNatIfaceEntries ≤ s.ipaNumIpaInterfaces
  front : s.pNatIfaces.take s.ipaNatIfaceEntries = names

/-- The slot an addition takes is not the last one of the array. -/
def LeavesSlot (s : NatIfaces) : NatIfaceCall → Prop
  | .add _ => s.ipaNatIfaceEntries + 1 < s.ipaNumIpaInterfaces
  | .del _ => True

instance (s : NatIfaces) : (call : NatIfaceCall) → Decidable (LeavesSlot s call)
  | .add _ => inferInstanceAs (Decidable (_ < _))
  | .del _ => inferInstanceAs (Decidable True)

variable {names : List IfaceName}

theorem Holds.num {s : NatIfaces} (holds : Holds names s) :
    names.length = s.ipaNatIfaceEntries := by
  rw [← holds.front, List.length_take]
  exact Nat.min_eq_left holds.bounded

theorem init_holds (num : Nat) : Holds [] (init num) where
  bounded := Nat.zero_le _
  front := rfl

/-- The names `GetNatIfaces` hands out. It takes no buffer without room for a name. -/
theorem Holds.getNatIfaces {s : NatIfaces} (holds : Holds names s) :
    s.getNatIfaces s.ipaNatIfaceEntries = some (if names = [] then -1 else 0, names) := by
  have num := holds.num
  have bounded : s.ipaNatIfaceEntries ≤ s.pNatIfaces.length := holds.bounded
  cases names with
  | nil =>
    rw [List.length_nil] at num
    rw [NatIfaces.getNatIfaces, if_pos num.symm, if_pos rfl]
  | cons name names =>
    have some_name : s.ipaNatIfaceEntries ≠ 0 := by
      rw [← num]
      exact Nat.succ_ne_zero _
    rw [NatIfaces.getNatIfaces, if_neg some_name, slots, if_pos bounded, holds.front,
      if_neg (List.cons_ne_nil _ _), Option.map_some]

theorem Holds.isNatIface {s : NatIfaces} (holds : Holds names s) (ifrName : IfaceName) :
    s.isNatIface ifrName = some (names.any (ifrName.text = ·.text)) := by
  simp only [NatIfaces.isNatIface, holds.getNatIfaces, Option.bind_eq_bind, Option.bind_some, Option.pure_def]
  cases names <;> simp

/-! ### The calls on the list -/

/-- The name goes to the first slot behind the list. -/
theorem Holds.add {s : NatIfaces} (holds : Holds names s)
    {devName : IfaceName} (room : LeavesSlot s (.add devName)) :
    (s.addNatIfaces devName).ipaNumIpaInterfaces = s.ipaNumIpaInterfaces ∧
      Holds (listed s.ipaNumIpaInterfaces names (.add devName)) (s.addNatIfaces devName) := by
  have num := holds.num
  have taken : s.ipaNatIfaceEntries + 1 < s.pNatIfaces.length := room
  have inside : s.ipaNatIfaceEntries < s.pNatIfaces.length := by omega
  simp only [listed, num, addNatIfaces, ipaNumIpaInterfaces, if_pos taken, if_pos inside,
    Nat.add_sub_cancel, List.length_set]
  refine ⟨trivial, ?_, ?_⟩
  · simp only [ipaNumIpaInterfaces, List.length_set]
    omega
  · rw [List.take_add_one, List.getElem?_set_self inside, List.take_set_of_le (Nat.le_refl _), holds.front]
    rfl

/-- The search is the first match among the slots it visits. -/
theorem findNatIface_eq (s : NatIfaces) (devName : IfaceName) (n : Nat) :
    ∀ i, i + n ≤ s.pNatIfaces.length → s.findNatIface devName i n =
      some ((((s.pNatIfaces.drop i).take n).findIdx? (devName.text = ·.text)).map (· + i)) := by
  induction n with
  | zero =>
    intro i _
    rfl
  | succ n ih =>
    intro i inside
    have here : s.pNatIfaces[i]? = some s.pNatIfaces[i] := List.getElem?_eq_getElem (by omega)
    have cut : s.pNatIfaces.drop i = s.pNatIfaces[i] :: s.pNatIfaces.drop (i + 1) :=
      List.drop_eq_getElem_cons (by omega)
    rw [findNatIface, here, cut, List.take_succ_cons, List.findIdx?_cons, Option.bind_eq_bind, Option.bind_some]
    by_cases matched : devName.text = s.pNatIfaces[i].text
    · simp [matched]
    · rw [if_neg matched, ih (i + 1) (by omega)]
      simp [matched, Function.comp_def, Nat.add_assoc, Nat.add_comm 1]

theorem Holds.del {s : NatIfaces} (holds : Holds names s) (devName : IfaceName) :
    ∃ s', s.delNatIfaces devName = some s' ∧ s'.ipaNumIpaInterfaces = s.ipaNumIpaInterfaces ∧
      Holds (listed s.ipaNumIpaInterfaces names (.del devName)) s' := by
  have bounded : s.ipaNatIfaceEntries ≤ s.pNatIfaces.length := holds.bounded
  have search := findNatIface_eq s devName s.ipaNatIfaceEntries 0 (by omega)
  rw [List.drop_zero, holds.front] at search
  simp only [delNatIfaces, search, listed, Option.bind_eq_bind, Option.bind_some]
  cases found : names.findIdx? (devName.text = ·.text) with
  | none =>
    refine ⟨s, rfl, rfl, ?_⟩
    rw [List.eraseP_of_forall_not]
    · exact holds
    · intro name member
      rw [List.findIdx?_eq_none_iff.mp found name member]
      exact Bool.false_ne_true
  | some i =>
    obtain ⟨below, -⟩ := List.findIdx?_eq_some_iff_getElem.mp found
    rw [holds.num] at below
    have inside : i + (s.ipaNatIfaceEntries - 1 - i) < (s.pNatIfaces.set i .cleared).length := by
      rw [List.length_set]
      omega
    have last : i + (s.ipaNatIfaceEntries - 1 - i) = s.ipaNatIfaceEntries - 1 := by omega
    obtain ⟨moved, runs, length, -⟩ := shiftDown_spec (fun _ next => next)
      (fun _ => IfaceName.cleared) (fun _ _ => rfl) inside
    have closed := take_shiftDown _ (fun _ => IfaceName.cleared) (fun _ _ => rfl) inside (fun _ _ _ _ _ _ _ => rfl) runs
    -- the slot that leaves is the one that was cleared first
    rw [last, Nat.sub_add_cancel (by omega), List.take_set, holds.front] at closed
    rw [List.length_set] at length
    refine ⟨{ s with pNatIfaces := moved, ipaNatIfaceEntries := s.ipaNatIfaceEntries - 1 }, ?_, length, ?_, ?_⟩
    · simp only [Option.map_some, Nat.add_zero, runs, Option.bind_some, Option.pure_def]
    · change s.ipaNatIfaceEntries - 1 ≤ moved.length
      omega
    · rw [List.eraseP_eq_eraseIdx, found]
      rw [List.eraseIdx_set_eq] at closed
      exact closed

/-! ### Runs -/

theorem Holds.step {s s' : NatIfaces} {call : NatIfaceCall}
    (holds : Holds names s) (room : LeavesSlot s call) (stepped : s.step call = some s') :
    s'.ipaNumIpaInterfaces = s.ipaNumIpaInterfaces ∧ Holds (listed s.ipaNumIpaInterfaces names call) s' := by
  cases call with
  | add devName =>
    obtain rfl := Option.some.inj stepped
    exact holds.add room
  | del devName =>
    obtain ⟨_, same, after⟩ := holds.del devName
    obtain rfl := Option.some.inj (same.symm.trans stepped)
    exact after

theorem run_holds {num : Nat} {s t : NatIfaces} {calls : List NatIfaceCall}
    (run : Run NatIfaces.step LeavesSlot s calls t) (size : s.ipaNumIpaInterfaces = num)
    (holds : Holds names s) :
    t.ipaNumIpaInterfaces = num ∧ Holds (calls.foldl (listed num) names) t := by
  induction run generalizing names with
  | nil => exact ⟨size, holds⟩
  | cons room stepped _ ih =>
    obtain ⟨kept, after⟩ := holds.step room stepped
    rw [size] at kept after
    exact ih kept after

theorem listed_added {num : Nat} {calls : List NatIfaceCall}
    {name : IfaceName} (member : name ∈ calls.foldl (listed num) names) :
    name ∈ names ∨ .add name ∈ calls := by
  induction calls generalizing names with
  | nil => exact .inl member
  | cons call calls ih =>
    rcases ih member with before | added
    · cases call with
      | add devName =>
        simp only [listed] at before
        split at before
        · rcases List.mem_append.mp before with old | new
          · exact .inl old
          · rw [List.mem_singleton.mp new]
            exact .inr List.mem_cons_self
        · exact .inl before
      | del devName => exact .inl (List.mem_of_mem_eraseP before)
    · exact .inr (List.mem_cons_of_mem _ added)

/-- In every run whose additions leave the last slot alone, the counter stays within the array,
the slots it counts are the names added and not deleted in the order of their additions, both
readers see exactly these, and the next call stays within the array as well. -/
theorem nat_ifaces_hold {num : Nat} {calls : List NatIfaceCall} {s : NatIfaces}
    (run : Run NatIfaces.step LeavesSlot (init num) calls s) :
    s.ipaNatIfaceEntries ≤ num ∧ s.pNatIfaces.take s.ipaNatIfaceEntries = calls.foldl (listed num) [] ∧
    (∀ name ∈ s.pNatIfaces.take s.ipaNatIfaceEntries, .add name ∈ calls) ∧
    (∃ ret, s.getNatIfaces s.ipaNatIfaceEntries = some (ret, calls.foldl (listed num) [])) ∧
    (∀ ifrName : IfaceName, s.isNatIface ifrName =
      some ((calls.foldl (listed num) []).any (ifrName.text = ·.text))) ∧ ∀ call, (s.step call).isSome := by
  obtain ⟨size, holds⟩ := run_holds run List.length_replicate (init_holds num)
  have bounded := holds.bounded
  rw [size] at bounded
  refine ⟨bounded, holds.front, ?_, ⟨_, holds.getNatIfaces⟩, holds.isNatIface, ?_⟩
  · rw [holds.front]
    intro name member
    rcases listed_added member with before | added
    · cases before
    · exact added
  · intro call
    cases call with
    | add devName => rfl
    | del devName =>
      obtain ⟨s', deleted, -⟩ := holds.del devName
      rw [NatIfaces.step, deleted]
      rfl

end NatIfaces

/-- A name of at most one character, for examples. -/
def letterName (c : UInt8) : IfaceName where
  bytes := c :: List.replicate 15 0
  size := by rw [List.length_cons, List.length_replicate]; rfl
  terminated := List.mem_cons_of_mem _ (by decide)

namespace NatIfaces

/-- An unknown name, a name from the middle and a name that is listed twice are deleted. -/
theorem nat_ifaces_hold_sample :
    ∃ s, Run NatIfaces.step LeavesSlot (init 5)
      [.add (letterName 97), .add (letterName 98), .add (letterName 99), .del (letterName 120),
        .del (letterName 98), .add (letterName 97), .del (letterName 97)] s ∧
      s.pNatIfaces.take s.ipaNatIfaceEntries = [letterName 99, letterName 97] := by
  have run : Run NatIfaces.step LeavesSlot (init 5)
      [.add (letterName 97), .add (letterName 98), .add (letterName 99), .del (letterName 120),
        .del (letterName 98), .add (letterName 97), .del (letterName 97)]
      ⟨[letterName 99, letterName 97, .cleared, .cleared, .cleared], 2⟩ :=
    .of_checked (by decide)
  exact ⟨_, run, (nat_ifaces_hold run).2.1.trans (by decide)⟩

/-- With room for two names the second one is counted and not stored, and the third one takes
the counter past the array. -/
theorem second_name_lost :
    ((init 2).addNatIfaces (letterName 97)).addNatIfaces (letterName 98) = ⟨[letterName 97, .cleared], 2⟩ ∧
      ((((init 2).addNatIfaces (letterName 97)).addNatIfaces (letterName 98)).addNatIfaces
        (letterName 99)).ipaNatIfaceEntries = 3 := by
  decide

end NatIfaces

end Hima.Ipacm
