import Hima.Lib.Handles
import Hima.Lib.Runs

/-!
# Resource manager dependencies

`IPACM_Config` asks the IPA driver for a dependency in both directions once both ends of an entry
of `ipa_rm_tbl` are up, and takes it back when one of them goes down. Three of the six entries
are filled in, and the loops visit these three.
-/
namespace Hima.Ipacm

open Handles Multiset

/-- `ipa_rm_resource_name`, as far as a client is mapped to one or an entry names it. -/
inductive IpaRmResourceName
  | q6Prod | usbProd | hsicProd | wlanProd | q6Cons | usbCons | wlanCons
  deriving DecidableEq, Repr

/-- `ipa_ioc_rm_dependency`. -/
structure IpaIocRmDependency where
  resource_name : IpaRmResourceName
  depends_on_name : IpaRmResourceName
  deriving DecidableEq, Repr

/-- A gain is `IPA_IOC_RM_ADD_DEPENDENCY`, a release is `IPA_IOC_RM_DEL_DEPENDENCY`. -/
abbrev RmRequest := Handles.Entry IpaIocRmDependency IpaIocRmDependency

structure IpaRmClient where
  producer_rm1 : IpaRmResourceName
  consumer_rm1 : IpaRmResourceName
  producer_rm2 : IpaRmResourceName
  consumer_rm2 : IpaRmResourceName
  /-- only monitor `producer_rm1`, not monitor `producer_rm2` -/
  producer1_up : Bool := false
  consumer1_up : Bool := false
  rm_set : Bool := false
  rx_bypass_ipa : Bool := false
  deriving DecidableEq, Repr

namespace IpaRmClient

variable (e : IpaRmClient)

def dep1 : IpaIocRmDependency := ⟨e.producer_rm1, e.consumer_rm1⟩

def dep2 : IpaIocRmDependency := ⟨e.producer_rm2, e.consumer_rm2⟩

/-- Add bi-directional dependency, if it is due. The caller has just set one of the two flags and the
source tests the other one. Requests are listed latest first. -/
def setUp (requests : List RmRequest) : IpaRmClient × List RmRequest :=
  if e.producer1_up && e.consumer1_up && !e.rm_set then
    let requests := if e.rx_bypass_ipa then requests else .gain e.dep1 :: requests
    ({ e with rm_set := true }, .gain e.dep2 :: requests)
  else (e, requests)

/-- Delete bi-directional dependency, if it is set. -/
def tearDown (requests : List RmRequest) : IpaRmClient × List RmRequest :=
  if e.rm_set then
    let requests := if e.rx_bypass_ipa then requests else .release e.dep1 :: requests
    ({ e with rm_set := false }, .release e.dep2 :: requests)
  else (e, requests)

def addProducer (rm1 : IpaRmResourceName) (bypass : Bool) (requests : List RmRequest) :
    IpaRmClient × List RmRequest :=
  if rm1 = e.producer_rm1 then
    setUp { e with producer1_up := true, rx_bypass_ipa := bypass } requests
  else (e, requests)

def addConsumer (rm1 : IpaRmResourceName) (requests : List RmRequest) :
    IpaRmClient × List RmRequest :=
  if rm1 = e.consumer_rm1 then setUp { e with consumer1_up := true } requests
  else (e, requests)

/-- The body of the loop of `AddRmDepend`. -/
def addRm (rm1 : IpaRmResourceName) (bypass : Bool) (requests : List RmRequest) :
    IpaRmClient × List RmRequest :=
  let first := e.addProducer rm1 bypass requests
  first.1.addConsumer rm1 first.2

def delProducer (rm1 : IpaRmResourceName) (requests : List RmRequest) :
    IpaRmClient × List RmRequest :=
  if rm1 = e.producer_rm1 then
    let torn := e.tearDown requests
    ({ torn.1 with producer1_up := false, rx_bypass_ipa := false }, torn.2)
  else (e, requests)

def delConsumer (rm1 : IpaRmResourceName) (a2_check : BitVec 32) (requests : List RmRequest) :
    IpaRmClient × List RmRequest :=
  if rm1 = e.consumer_rm1 then
    if e.consumer_rm1 = .q6Cons ∧ a2_check = 1 then (e, requests)
    else
      let torn := e.tearDown requests
      ({ torn.1 with consumer1_up := false }, torn.2)
  else (e, requests)

/-- The body of the loop of `DelRmDepend`. -/
def delRm (rm1 : IpaRmResourceName) (a2_check : BitVec 32) (requests : List RmRequest) :
    IpaRmClient × List RmRequest :=
  let first := e.delProducer rm1 requests
  first.1.delConsumer rm1 a2_check first.2

end IpaRmClient

/-- One loop over the table. -/
def walkRmTbl (body : IpaRmClient → List RmRequest → IpaRmClient × List RmRequest) :
    List IpaRmClient → List RmRequest → List IpaRmClient × List RmRequest
  | [], requests => ([], requests)
  | e :: tbl, requests =>
    let visited := body e requests
    let rest := walkRmTbl body tbl visited.2
    (visited.1 :: rest.1, rest.2)

/-- The part of `IPACM_Config` for the resource manager. `ipa_rm_a2_check` is an `int`. -/
structure RmConfig where
  ipa_rm_tbl : List IpaRmClient
  ipa_rm_a2_check : BitVec 32 := 0
  requests : List RmRequest := []

namespace RmConfig

/-- The entries that `Init` creates. -/
def init : RmConfig where
  ipa_rm_tbl :=
    [{ producer_rm1 := .wlanProd, consumer_rm1 := .q6Cons,
       producer_rm2 := .q6Prod, consumer_rm2 := .wlanCons },
     { producer_rm1 := .usbProd, consumer_rm1 := .q6Cons,
       producer_rm2 := .q6Prod, consumer_rm2 := .usbCons },
     { producer_rm1 := .wlanProd, consumer_rm1 := .usbCons,
       producer_rm2 := .usbProd, consumer_rm2 := .wlanCons }]

def addRmDepend (c : RmConfig) (rm1 : IpaRmResourceName) (rx_bypass_ipa : Bool) : RmConfig :=
  let walked := walkRmTbl (·.addRm rm1 rx_bypass_ipa) c.ipa_rm_tbl c.requests
  { ipa_rm_tbl := walked.1
    ipa_rm_a2_check := if rm1 = .q6Cons then c.ipa_rm_a2_check + 1 else c.ipa_rm_a2_check
    requests := walked.2 }

def delRmDepend (c : RmConfig) (rm1 : IpaRmResourceName) : RmConfig :=
  let a2_check := if rm1 = .q6Cons then c.ipa_rm_a2_check - 1 else c.ipa_rm_a2_check
  let walked := walkRmTbl (·.delRm rm1 a2_check) c.ipa_rm_tbl c.requests
  { ipa_rm_tbl := walked.1, ipa_rm_a2_check := a2_check, requests := walked.2 }

end RmConfig

/-! ### What the entries ask for -/

/-- The kernel holds `held`, and every request so far was for a dependency that it did not hold or to
give one up that it held. -/
structure Accounts (requests : List RmRequest) (held : Multiset IpaIocRmDependency) : Prop where
  fresh : Fresh id requests
  sound : Sound id requests
  live : live id requests = held

theorem Accounts.gain {requests : List RmRequest} {held : Multiset IpaIocRmDependency}
    {d : IpaIocRmDependency} (accounts : Accounts requests held) (new : d ∉ held) :
    Accounts (.gain d :: requests) (d ::ₘ held) where
  fresh := by
    refine ⟨?_, accounts.fresh⟩
    rwa [map_id, accounts.live]
  sound := accounts.sound
  live := by rw [live_gain, accounts.live]

theorem Accounts.release {requests : List RmRequest} {held : Multiset IpaIocRmDependency}
    {d : IpaIocRmDependency} (accounts : Accounts requests (d ::ₘ held)) :
    Accounts (.release d :: requests) held where
  fresh := accounts.fresh
  sound := by
    have sound := sound_release accounts.sound accounts.live
    exact sound
  live := by
    have live := live_release accounts.fresh accounts.live
    exact live

namespace IpaRmClient

variable {e : IpaRmClient} {rm1 : IpaRmResourceName} {requests : List RmRequest}
  {rest : Multiset IpaIocRmDependency}

/-- The dependencies that an entry with its `rm_set` true stands for. -/
def deps (e : IpaRmClient) : Multiset IpaIocRmDependency :=
  if e.rm_set then if e.rx_bypass_ipa then {e.dep2} else {e.dep2, e.dep1} else 0

/-- Those it could ever stand for. -/
def possible (e : IpaRmClient) : Multiset IpaIocRmDependency := {e.dep2, e.dep1}

/-- `rm_set` is true exactly when both ends are up. -/
def Fits (e : IpaRmClient) : Prop := e.rm_set = (e.producer1_up && e.consumer1_up)

instance (e : IpaRmClient) : Decidable e.Fits := inferInstanceAs (Decidable (_ = _))

theorem deps_le_possible (e : IpaRmClient) : e.deps ≤ e.possible := by
  rw [deps, possible]
  split
  · split
    · exact singleton_le.mpr (mem_cons_self _ _)
    · exact le_rfl
  · exact zero_le _

/-- The entry as `Init` creates it. -/
def registered (e : IpaRmClient) : IpaRmClient :=
  { e with producer1_up := false, consumer1_up := false, rm_set := false, rx_bypass_ipa := false }

theorem possible_registered (e : IpaRmClient) : e.registered.possible = e.possible := rfl

theorem setUp_fst (e : IpaRmClient) (requests : List RmRequest) :
    (e.setUp requests).1 = { e with rm_set := e.rm_set || (e.producer1_up && e.consumer1_up) } := by
  rw [setUp]
  split
  next due =>
    simp only [Bool.and_eq_true, Bool.not_eq_true'] at due
    simp only [due.1.1, due.1.2, Bool.and_self, Bool.or_true]
  next idle =>
    have set : (e.rm_set || (e.producer1_up && e.consumer1_up)) = e.rm_set := by
      cases set : e.rm_set with
      | true => rfl
      | false => simpa [set] using idle
    rw [set]

theorem tearDown_fst (e : IpaRmClient) (requests : List RmRequest) :
    (e.tearDown requests).1 = { e with rm_set := false } := by
  rw [tearDown]
  split
  next => rfl
  next unset => rw [← Bool.eq_false_iff.mpr unset]

theorem accounts_setUp (distinct : (e.possible + rest).Nodup) (accounts : Accounts requests (e.deps + rest)) :
    Accounts (e.setUp requests).2 ((e.setUp requests).1.deps + rest) := by
  rw [setUp]
  split
  next due =>
    have unset : e.rm_set = false := by
      rw [Bool.and_eq_true, Bool.not_eq_true'] at due
      exact due.2
    simp only [possible, insert_eq_cons, cons_add, singleton_add,
      Multiset.nodup_cons, Multiset.mem_cons, not_or] at distinct
    rw [deps, unset, if_neg Bool.false_ne_true, Multiset.zero_add] at accounts
    cases bypass : e.rx_bypass_ipa with
    | true =>
      have held := accounts.gain distinct.1.2
      simpa [deps, bypass, dep1, dep2] using held
    | false =>
      have other : e.dep2 ∉ e.dep1 ::ₘ rest := by simp [distinct.1.1, distinct.1.2]
      have held := (accounts.gain distinct.2.1).gain other
      simpa [deps, bypass, dep1, dep2] using held
  next => exact accounts

theorem accounts_tearDown (accounts : Accounts requests (e.deps + rest)) :
    Accounts (e.tearDown requests).2 rest := by
  rw [tearDown]
  rw [deps] at accounts
  split
  next set =>
    rw [if_pos set] at accounts
    cases bypass : e.rx_bypass_ipa with
    | true =>
      rw [if_pos bypass, singleton_add] at accounts
      exact accounts.release
    | false =>
      rw [if_neg (Bool.eq_false_iff.mp bypass), insert_eq_cons, cons_add, singleton_add, cons_swap] at accounts
      exact accounts.release.release
  next unset =>
    rw [if_neg unset, Multiset.zero_add] at accounts
    exact accounts

theorem addProducer_fst (e : IpaRmClient) (bypass : Bool) :
    (e.addProducer rm1 bypass requests).1 = if rm1 = e.producer_rm1 then
        { e with producer1_up := true, rx_bypass_ipa := bypass, rm_set := e.rm_set || e.consumer1_up }
      else e := by
  rw [addProducer]
  split
  · rw [setUp_fst, Bool.true_and]
  · rfl

theorem addConsumer_fst (e : IpaRmClient) :
    (e.addConsumer rm1 requests).1 = if rm1 = e.consumer_rm1 then
        { e with consumer1_up := true, rm_set := e.rm_set || e.producer1_up }
      else e := by
  rw [addConsumer]
  split
  · rw [setUp_fst, Bool.and_true]
  · rfl

theorem delProducer_fst (e : IpaRmClient) :
    (e.delProducer rm1 requests).1 = if rm1 = e.producer_rm1 then
        { e with producer1_up := false, rx_bypass_ipa := false, rm_set := false }
      else e := by
  rw [delProducer]
  split
  · dsimp only
    rw [tearDown_fst]
  · rfl

theorem delConsumer_fst (e : IpaRmClient) (a2_check : BitVec 32) :
    (e.delConsumer rm1 a2_check requests).1 =
      if rm1 = e.consumer_rm1 ∧ ¬ (e.consumer_rm1 = .q6Cons ∧ a2_check = 1) then
        { e with consumer1_up := false, rm_set := false }
      else e := by
  rw [delConsumer]
  by_cases named : rm1 = e.consumer_rm1
  · by_cases waits : e.consumer_rm1 = .q6Cons ∧ a2_check = 1
    · rw [if_pos named, if_pos waits, if_neg fun both => both.2 waits]
    · rw [if_pos named, if_neg waits, if_pos ⟨named, waits⟩]
      dsimp only
      rw [tearDown_fst]
  · rw [if_neg named, if_neg fun both => named both.1]

/-- A call that names no end of an entry passes it by, and one that does changes its flags. -/
theorem registered_addRm (e : IpaRmClient) (bypass : Bool) :
    (e.addRm rm1 bypass requests).1.registered = e.registered := by
  rw [addRm, addConsumer_fst, addProducer_fst]
  split
  · split <;> rfl
  · split <;> rfl

theorem registered_delRm (e : IpaRmClient) (a2_check : BitVec 32) :
    (e.delRm rm1 a2_check requests).1.registered = e.registered := by
  rw [delRm, delConsumer_fst, delProducer_fst]
  split
  · split <;> rfl
  · split <;> rfl

theorem Fits.addProducer (fits : e.Fits) (bypass : Bool) :
    (e.addProducer rm1 bypass requests).1.Fits := by
  rw [addProducer_fst]
  split
  · rw [Fits] at fits ⊢
    rw [fits, Bool.true_and, Bool.or_eq_right_iff_imp]
    exact fun both => (Bool.and_eq_true_iff.mp both).2
  · exact fits

theorem Fits.addConsumer (fits : e.Fits) : (e.addConsumer rm1 requests).1.Fits := by
  rw [addConsumer_fst]
  split
  · rw [Fits] at fits ⊢
    rw [fits, Bool.and_true, Bool.or_eq_right_iff_imp]
    exact fun both => (Bool.and_eq_true_iff.mp both).1
  · exact fits

theorem Fits.addRm (fits : e.Fits) (bypass : Bool) : (e.addRm rm1 bypass requests).1.Fits :=
  (fits.addProducer bypass).addConsumer

theorem Fits.delRm (fits : e.Fits) (a2_check : BitVec 32) :
    (e.delRm rm1 a2_check requests).1.Fits := by
  have producer : (e.delProducer rm1 requests).1.Fits := by
    rw [delProducer_fst]
    split
    · rfl
    · exact fits
  rw [IpaRmClient.delRm, delConsumer_fst]
  split
  · exact (Bool.and_false _).symm
  · exact producer

theorem consumer1_up_addRm (e : IpaRmClient) (bypass : Bool) :
    (e.addRm rm1 bypass requests).1.consumer1_up = (e.consumer1_up || decide (rm1 = e.consumer_rm1)) := by
  rw [addRm, addConsumer_fst, addProducer_fst]
  by_cases producer : rm1 = e.producer_rm1
  · rw [if_pos producer]
    by_cases consumer : rm1 = e.consumer_rm1
    · simp [consumer]
    · simp [consumer]
  · rw [if_neg producer]
    by_cases consumer : rm1 = e.consumer_rm1
    · simp [consumer]
    · simp [consumer]

theorem consumer1_up_delRm (e : IpaRmClient) (a2_check : BitVec 32) :
    (e.delRm rm1 a2_check requests).1.consumer1_up =
      if rm1 = e.consumer_rm1 ∧ ¬ (e.consumer_rm1 = .q6Cons ∧ a2_check = 1) then false else e.consumer1_up := by
  rw [delRm, delConsumer_fst, delProducer_fst]
  by_cases producer : rm1 = e.producer_rm1
  · rw [if_pos producer]
    exact apply_ite consumer1_up _ _ _
  · rw [if_neg producer]
    exact apply_ite consumer1_up _ _ _

/-- A repeated call for a producer whose dependency is set does not change what to bypass. -/
def Steady (rm1 : IpaRmResourceName) (bypass : Bool) (e : IpaRmClient) : Prop :=
  rm1 = e.producer_rm1 → e.rm_set = true → e.rx_bypass_ipa = bypass

instance (rm1 : IpaRmResourceName) (bypass : Bool) (e : IpaRmClient) : Decidable (Steady rm1 bypass e) :=
  inferInstanceAs (Decidable (_ → _))

theorem accounts_addRm {bypass : Bool} (steady : Steady rm1 bypass e)
    (distinct : (e.possible + rest).Nodup) (accounts : Accounts requests (e.deps + rest)) :
    Accounts (e.addRm rm1 bypass requests).2 ((e.addRm rm1 bypass requests).1.deps + rest) := by
  have producer : (e.addProducer rm1 bypass requests).1.possible = e.possible ∧
      Accounts (e.addProducer rm1 bypass requests).2
        ((e.addProducer rm1 bypass requests).1.deps + rest) := by
    constructor
    · rw [addProducer_fst]
      split <;> rfl
    · rw [addProducer]
      split
      next named =>
        have same : deps { e with producer1_up := true, rx_bypass_ipa := bypass } = e.deps := by
          rw [deps, deps]
          split
          next set =>
            rw [← steady named set]
            rfl
          next => rfl
        refine accounts_setUp (e := { e with producer1_up := true, rx_bypass_ipa := bypass }) distinct ?_
        rwa [same]
      next => exact accounts
  rw [addRm]
  generalize e.addProducer rm1 bypass requests = first at producer ⊢
  rw [addConsumer]
  split
  · refine accounts_setUp ?_ producer.2
    change (first.1.possible + rest).Nodup
    rwa [producer.1]
  · exact producer.2

theorem accounts_delRm {a2_check : BitVec 32} (accounts : Accounts requests (e.deps + rest)) :
    Accounts (e.delRm rm1 a2_check requests).2 ((e.delRm rm1 a2_check requests).1.deps + rest) := by
  have torn : ∀ {e : IpaRmClient} {requests : List RmRequest} {e' : IpaRmClient},
      Accounts requests (e.deps + rest) → e'.rm_set = false →
      Accounts (e.tearDown requests).2 (e'.deps + rest) := by
    intro e requests e' accounts unset
    rw [deps.eq_1 e', unset, if_neg Bool.false_ne_true, Multiset.zero_add]
    exact accounts_tearDown accounts
  have producer : Accounts (e.delProducer rm1 requests).2 ((e.delProducer rm1 requests).1.deps + rest) := by
    rw [delProducer]
    split
    · exact torn accounts (congrArg rm_set (tearDown_fst _ _))
    · exact accounts
  rw [delRm]
  generalize e.delProducer rm1 requests = first at producer ⊢
  rw [delConsumer]
  split
  · split
    · exact producer
    · exact torn producer (congrArg rm_set (tearDown_fst _ _))
  · exact producer

end IpaRmClient

/-! ### Whole tables -/

section

variable {body : IpaRmClient → List RmRequest → IpaRmClient × List RmRequest}

/-- The dependencies of a table, each as often as an entry stands for it. -/
def total (deps : IpaRmClient → Multiset IpaIocRmDependency) :
    List IpaRmClient → Multiset IpaIocRmDependency
  | [] => 0
  | e :: tbl => deps e + total deps tbl

theorem add_swap (a b c : Multiset IpaIocRmDependency) : a + (b + c) = b + (a + c) := by
  rw [← Multiset.add_assoc, Multiset.add_comm a, Multiset.add_assoc]

theorem walkRmTbl_forall {P Q : IpaRmClient → Prop} (visit : ∀ e requests, P e → Q (body e requests).1)
    {tbl : List IpaRmClient} (before : ∀ e ∈ tbl, P e) :
    ∀ requests, ∀ e ∈ (walkRmTbl body tbl requests).1, Q e := by
  induction tbl with
  | nil => exact fun _ e member => absurd member List.not_mem_nil
  | cons e tbl ih =>
    intro requests e' member
    rcases List.mem_cons.mp member with rfl | later
    · exact visit e requests (before e List.mem_cons_self)
    · exact ih (fun e' member => before e' (List.mem_cons_of_mem e member)) _ e' later

theorem walkRmTbl_map {β : Type} {f : IpaRmClient → β} (visit : ∀ e requests, f (body e requests).1 = f e)
    (tbl : List IpaRmClient) : ∀ requests, (walkRmTbl body tbl requests).1.map f = tbl.map f := by
  induction tbl with
  | nil => exact fun _ => rfl
  | cons e tbl ih =>
    intro requests
    rw [walkRmTbl, List.map_cons, List.map_cons, visit, ih]

theorem total_deps_le_possible (tbl : List IpaRmClient) :
    total IpaRmClient.deps tbl ≤ total IpaRmClient.possible tbl := by
  induction tbl with
  | nil => exact zero_le _
  | cons e tbl ih =>
    calc e.deps + total IpaRmClient.deps tbl
        ≤ e.deps + total IpaRmClient.possible tbl := Multiset.add_le_add_left ih
      _ ≤ e.possible + total IpaRmClient.possible tbl := Multiset.add_le_add_right e.deps_le_possible

/-- Entries that cannot stand for the same dependency keep each other's accounts. -/
theorem walkRmTbl_accounts {ok : IpaRmClient → Prop}
    (visit : ∀ {e requests rest}, ok e → (e.possible + rest).Nodup → Accounts requests (e.deps + rest) →
      Accounts (body e requests).2 ((body e requests).1.deps + rest))
    (registered : ∀ e requests, (body e requests).1.registered = e.registered)
    {tbl : List IpaRmClient} (each : ∀ e ∈ tbl, ok e) :
    ∀ {requests rest}, (total IpaRmClient.possible tbl + rest).Nodup →
      Accounts requests (total IpaRmClient.deps tbl + rest) → Accounts (walkRmTbl body tbl requests).2
        (total IpaRmClient.deps (walkRmTbl body tbl requests).1 + rest) := by
  induction tbl with
  | nil => exact fun _ accounts => accounts
  | cons e tbl ih =>
    intro requests rest distinct accounts
    rw [total, Multiset.add_assoc] at distinct accounts
    -- the entry, with what the later ones stand for as part of the rest
    have apart : (e.possible + (total IpaRmClient.deps tbl + rest)).Nodup := by
      refine nodup_of_le (Multiset.add_le_add_left ?_) distinct
      exact Multiset.add_le_add_right (total_deps_le_possible tbl)
    have visited := visit (each e List.mem_cons_self) apart accounts
    have same : (body e requests).1.possible = e.possible := by
      rw [← IpaRmClient.possible_registered, registered, IpaRmClient.possible_registered]
    rw [walkRmTbl]
    generalize body e requests = first at visited same ⊢
    -- the later ones, with what the entry stands for now as part of the rest
    have below : first.1.deps + rest ≤ e.possible + rest :=
      Multiset.add_le_add_right (same ▸ first.1.deps_le_possible)
    have apart' : (total IpaRmClient.possible tbl + (first.1.deps + rest)).Nodup := by
      refine nodup_of_le (Multiset.add_le_add_left below) ?_
      rwa [add_swap]
    rw [add_swap] at visited
    have walked := ih (fun e' member => each e' (List.mem_cons_of_mem e member)) apart' visited
    rw [add_swap, ← Multiset.add_assoc] at walked
    exact walked

end

/-! ### Whole runs -/

inductive RmCall
  | add (rm1 : IpaRmResourceName) (rx_bypass_ipa : Bool)
  | del (rm1 : IpaRmResourceName)
  deriving DecidableEq

/-- The configuration with what its callers know: how often a user of A2 was added and how often one
was deleted, and how many are left. A delete when none is left changes nothing about these. -/
structure RmSystem where
  config : RmConfig := .init
  added : Nat := 0
  deleted : Nat := 0
  users : Nat := 0

namespace RmSystem

def call (s : RmSystem) : RmCall → RmSystem
  | .add rm1 bypass =>
    { config := s.config.addRmDepend rm1 bypass
      added := if rm1 = .q6Cons then s.added + 1 else s.added
      deleted := s.deleted
      users := if rm1 = .q6Cons then s.users + 1 else s.users }
  | .del rm1 =>
    { config := s.config.delRmDepend rm1
      added := s.added
      deleted := if rm1 = .q6Cons then s.deleted + 1 else s.deleted
      users := if rm1 = .q6Cons then s.users - 1 else s.users }

/-- A repeated call for a producer whose dependency is set comes with the same flag, and when an A2
user leaves, the adds outnumber the deletes by two exactly if another one stays, in 32 bits. -/
def Expected (s : RmSystem) : RmCall → Prop
  | .add rm1 bypass => ∀ e ∈ s.config.ipa_rm_tbl, e.Steady rm1 bypass
  | .del rm1 => rm1 = .q6Cons → (s.added % 2 ^ 32 = (s.deleted + 2) % 2 ^ 32 ↔ 2 ≤ s.users)

instance (s : RmSystem) (call : RmCall) : Decidable (s.Expected call) :=
  match call with
  | .add rm1 bypass => inferInstanceAs (Decidable (∀ e ∈ s.config.ipa_rm_tbl, e.Steady rm1 bypass))
  | .del _ => inferInstanceAs (Decidable (_ → _))

/-- An entry for Q6 is up while there are users. -/
def Serves (users : Nat) (e : IpaRmClient) : Prop :=
  e.consumer_rm1 = .q6Cons → e.consumer1_up = decide (0 < users)

structure Balanced (s : RmSystem) : Prop where
  table : s.config.ipa_rm_tbl.map (·.registered) = RmConfig.init.ipa_rm_tbl
  fits : ∀ e ∈ s.config.ipa_rm_tbl, e.Fits
  serves : ∀ e ∈ s.config.ipa_rm_tbl, Serves s.users e
  counted : s.config.ipa_rm_a2_check = BitVec.ofNat 32 s.added - BitVec.ofNat 32 s.deleted
  accounts : Accounts s.config.requests (total IpaRmClient.deps s.config.ipa_rm_tbl)

theorem total_possible_registered (tbl : List IpaRmClient) :
    total IpaRmClient.possible (tbl.map (·.registered)) = total IpaRmClient.possible tbl := by
  induction tbl with
  | nil => rfl
  | cons e tbl ih => exact congrArg (e.possible + ·) ih

/-- No dependency belongs to two entries. -/
theorem Balanced.distinct {s : RmSystem} (balanced : s.Balanced) :
    (total IpaRmClient.possible s.config.ipa_rm_tbl).Nodup := by
  rw [← total_possible_registered, balanced.table]
  decide

theorem serves_addRm {users : Nat} {e : IpaRmClient} (serves : Serves users e)
    (rm1 : IpaRmResourceName) (bypass : Bool) (requests : List RmRequest) :
    Serves (if rm1 = .q6Cons then users + 1 else users) (e.addRm rm1 bypass requests).1 := by
  intro q6
  have same : (e.addRm rm1 bypass requests).1.consumer_rm1 = e.consumer_rm1 :=
    congrArg (·.consumer_rm1) (e.registered_addRm bypass)
  rw [same] at q6
  rw [e.consumer1_up_addRm, serves q6, q6]
  by_cases user : rm1 = .q6Cons
  · simp [user]
  · simp [user]

theorem serves_delRm {users : Nat} {e : IpaRmClient} (serves : Serves users e)
    {rm1 : IpaRmResourceName} {a2_check : BitVec 32}
    (counted : rm1 = .q6Cons → (a2_check = 2 ↔ 2 ≤ users)) (requests : List RmRequest) :
    Serves (if rm1 = .q6Cons then users - 1 else users)
      (e.delRm rm1 (if rm1 = .q6Cons then a2_check - 1 else a2_check) requests).1 := by
  intro q6
  have same : ∀ a2_check, (e.delRm rm1 a2_check requests).1.consumer_rm1 = e.consumer_rm1 :=
    fun a2_check => congrArg (·.consumer_rm1) (e.registered_delRm a2_check)
  rw [same] at q6
  rw [e.consumer1_up_delRm, serves q6, q6]
  by_cases user : rm1 = .q6Cons
  · have last : a2_check - 1 = 1 ↔ 2 ≤ users := by
      rw [← counted user]
      bv_omega
    rw [if_pos user, if_pos user]
    by_cases more : 2 ≤ users
    · have left : 0 < users - 1 := by omega
      have some : 0 < users := by omega
      rw [if_neg fun torn => torn.2 ⟨rfl, last.mpr more⟩, decide_eq_true some, decide_eq_true left]
    · have left : ¬ 0 < users - 1 := by omega
      rw [if_pos ⟨user, fun both => more (last.mp both.2)⟩, decide_eq_false left]
  · simp [user]

theorem Balanced.call {s : RmSystem} (balanced : s.Balanced) (call : RmCall)
    (expected : s.Expected call) : (s.call call).Balanced := by
  have distinct : (total IpaRmClient.possible s.config.ipa_rm_tbl + 0).Nodup := by
    rw [Multiset.add_zero]
    exact balanced.distinct
  have accounts : Accounts s.config.requests (total IpaRmClient.deps s.config.ipa_rm_tbl + 0) := by
    rw [Multiset.add_zero]
    exact balanced.accounts
  cases call with
  | add rm1 bypass =>
    refine ⟨?_, ?_, ?_, ?_, ?_⟩
    · rw [← balanced.table]
      exact walkRmTbl_map (fun e _ => e.registered_addRm bypass) _ _
    · exact walkRmTbl_forall (fun _ _ fits => fits.addRm bypass) balanced.fits _
    · exact walkRmTbl_forall (fun _ requests serves => serves_addRm serves rm1 bypass requests)
        balanced.serves _
    · have counted := balanced.counted
      dsimp only [RmSystem.call, RmConfig.addRmDepend]
      split
      · bv_omega
      · exact counted
    · have walked := walkRmTbl_accounts (fun steady apart => IpaRmClient.accounts_addRm steady apart)
        (fun e _ => e.registered_addRm bypass) expected distinct accounts
      rwa [Multiset.add_zero] at walked
  | del rm1 =>
    have counted := balanced.counted
    refine ⟨?_, ?_, ?_, ?_, ?_⟩
    · rw [← balanced.table]
      exact walkRmTbl_map (fun e _ => e.registered_delRm _) _ _
    · exact walkRmTbl_forall (fun _ _ fits => fits.delRm _) balanced.fits _
    · have due : rm1 = .q6Cons → (s.config.ipa_rm_a2_check = 2 ↔ 2 ≤ s.users) := by
        intro user
        rw [← expected user]
        bv_omega
      exact walkRmTbl_forall (fun _ requests serves => serves_delRm serves due requests) balanced.serves _
    · dsimp only [RmSystem.call, RmConfig.delRmDepend]
      split
      · bv_omega
      · exact counted
    · change Accounts (s.config.delRmDepend rm1).requests
        (total IpaRmClient.deps (s.config.delRmDepend rm1).ipa_rm_tbl)
      rw [RmConfig.delRmDepend]
      generalize (if rm1 = .q6Cons then _ else _ : BitVec 32) = a2_check
      have walked := @walkRmTbl_accounts (·.delRm rm1 a2_check) (fun _ => True)
        (fun _ _ accounts => IpaRmClient.accounts_delRm accounts)
        (fun e _ => e.registered_delRm a2_check) _ (fun _ _ => trivial) _ _ distinct accounts
      rwa [Multiset.add_zero] at walked

theorem balanced_init : ({} : RmSystem).Balanced where
  table := rfl
  fits := by decide
  serves := by
    intro e member _
    have down : ∀ e ∈ RmConfig.init.ipa_rm_tbl, e.consumer1_up = false := by decide
    exact down e member
  counted := rfl
  accounts := ⟨trivial, trivial, rfl⟩

end RmSystem

open Runs in
/-- After any calls that meet `Expected`: `rm_set` of an entry is true exactly when both its ends are
up; the entries for Q6 are up exactly while an added A2 user is left; and the kernel holds the
dependencies of the entries with `rm_set` true, each of them once. -/
theorem rm_dependencies_balance {calls : List RmCall} {s : RmSystem}
    (run : Run (fun s call => some (s.call call)) RmSystem.Expected {} calls s) :
    s.config.ipa_rm_tbl.map (·.registered) = RmConfig.init.ipa_rm_tbl ∧ (∀ e ∈ s.config.ipa_rm_tbl,
      (e.rm_set = true ↔ e.producer1_up = true ∧ e.consumer1_up = true) ∧
      (e.consumer_rm1 = .q6Cons → (e.consumer1_up = true ↔ 0 < s.users))) ∧
    Accounts s.config.requests (total IpaRmClient.deps s.config.ipa_rm_tbl) ∧
    (total IpaRmClient.deps s.config.ipa_rm_tbl).Nodup := by
  have balanced : s.Balanced := by
    apply run.invariant RmSystem.Balanced _ RmSystem.balanced_init
    intro s call s' balanced expected stepped
    obtain rfl := Option.some.inj stepped
    exact balanced.call call expected
  refine ⟨balanced.table, fun e member => ⟨?_, fun q6 => ?_⟩, balanced.accounts, ?_⟩
  · have fits := balanced.fits e member
    rw [fits, Bool.and_eq_true]
  · rw [balanced.serves e member q6, decide_eq_true_iff]
  · exact nodup_of_le (total_deps_le_possible _) balanced.distinct

/-- WLAN comes up with two A2 users, of which one leaves; WLAN goes down. -/
theorem rm_dependencies_balance_sample :
    let calls : List RmCall := [.add .q6Cons false, .add .wlanProd false, .add .q6Cons false,
      .del .q6Cons, .add .usbProd true, .del .wlanProd]
    let s := calls.foldl RmSystem.call {}
    s.users = 1 ∧ live id s.config.requests = {⟨.q6Prod, .usbCons⟩} ∧
      (total IpaRmClient.deps s.config.ipa_rm_tbl).Nodup := by
  intro calls s
  refine ⟨by decide, by decide, (@rm_dependencies_balance calls s ?_).2.2.2⟩
  iterate 6 refine .cons (by decide) rfl ?_
  exact .nil _

/-- Three A2 users: when the first of them leaves, the dependency of WLAN is taken back while two are
left. And a repeated call for WLAN with another flag: what is added is not what is deleted. -/
theorem rm_dependencies_unbalanced :
    let wlan := fun bypass => RmCall.add .wlanProd bypass
    let left := [wlan false, .add .q6Cons false, .add .q6Cons false, .add .q6Cons false,
      .del .q6Cons].foldl RmSystem.call {}
    let bypassed := [wlan false, .add .q6Cons false, wlan true, .del .wlanProd].foldl RmSystem.call {}
    (left.users = 2 ∧ ∀ e ∈ left.config.ipa_rm_tbl, e.consumer_rm1 = .q6Cons → e.consumer1_up = false) ∧
    (∀ e ∈ bypassed.config.ipa_rm_tbl, e.rm_set = false) ∧
      live id bypassed.config.requests = {⟨.wlanProd, .q6Cons⟩} := by
  decide

end Hima.Ipacm
