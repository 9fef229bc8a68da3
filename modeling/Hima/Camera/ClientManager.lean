import Mathlib.Data.List.Basic

/-!
# ClientManager

The list of active clients of the camera service and the eviction that makes room for a new one. A
descriptor stands for the `shared_ptr` to it: its `address` is what comparing two pointers compares.
-/
namespace Hima.ResourcePolicy

def INVALID_ADJ : Int := -10000
def UNKNOWN_ADJ : Int := 1001

structure ClientPriority where
  mScore : Int
  mState : Int
  mIsVendorClient : Bool
  mScoreOffset : Int
deriving DecidableEq, Repr

namespace ClientPriority

def setScore (p : ClientPriority) (score : Int) : ClientPriority :=
  if score = INVALID_ADJ then { p with mScore := UNKNOWN_ADJ }
  else { p with mScore := p.mScoreOffset + score }

def setState (p : ClientPriority) (state : Int) : ClientPriority := { p with mState := state }

/-- The constructor. -/
def construct (score state : Int) (isVendorClient : Bool) (scoreOffset : Int := 0) :
    ClientPriority :=
  ((⟨0, 0, isVendorClient, scoreOffset⟩ : ClientPriority).setScore score).setState state

/-- `operator==`: the vendor flag and the offset are not compared. -/
def sameAs (p rhs : ClientPriority) : Bool := p.mScore == rhs.mScore && p.mState == rhs.mState

/-- `operator<`. -/
def less (p rhs : ClientPriority) : Bool :=
  if p.mScore = rhs.mScore then p.mState < rhs.mState else p.mScore < rhs.mScore

/-- `operator<=`. -/
def lessOrSame (p rhs : ClientPriority) : Bool := !rhs.less p

/-- `operator>=`. -/
def greaterOrSame (p rhs : ClientPriority) : Bool := !p.less rhs

end ClientPriority

/-- The value of a client is left out. -/
structure ClientDescriptor (κ : Type) where
  address : Nat
  mKey : κ
  mCost : Int
  mConflicting : List κ
  mPriority : ClientPriority
  mOwnerId : Int
deriving DecidableEq, Repr

namespace ClientDescriptor

variable {κ : Type}

def isConflicting [DecidableEq κ] (d : ClientDescriptor κ) (key : κ) : Bool :=
  if key = d.mKey then true else d.mConflicting.any fun x => key = x

/-- A vendor client keeps the priority it was constructed with. -/
def setPriority (d : ClientDescriptor κ) (priority : ClientPriority) : ClientDescriptor κ :=
  if d.mPriority.mIsVendorClient then d
  else { d with mPriority := (d.mPriority.setScore priority.mScore).setState priority.mState }

end ClientDescriptor

structure ClientManager (κ : Type) where
  mMaxCost : Int
  /-- Least recently used first. -/
  mClients : List (ClientDescriptor κ)
deriving Repr

namespace ClientManager

variable {κ : Type}

/-- The constructor. -/
def construct (totalCost : Int) : ClientManager κ := ⟨totalCost, []⟩

def getCurrentCostLocked (m : ClientManager κ) : Int :=
  m.mClients.foldl (fun totalCost x => totalCost + x.mCost) 0

/-- The first loop of `wouldEvictLocked`: the highest priority and its owner. -/
def highestLoop (clients : List (ClientDescriptor κ)) (highest : ClientPriority × Int) :
    ClientPriority × Int :=
  clients.foldl (fun highest i =>
    if i.mPriority.lessOrSame highest.1 then (i.mPriority, i.mOwnerId) else highest) highest

def highestPriorityOwner (m : ClientManager κ) (client : ClientDescriptor κ) : Int :=
  let highest := highestLoop m.mClients (client.mPriority, client.mOwnerId)
  -- Switch back owner if the incoming client has the highest priority, as it is MRU
  if highest.1.sameAs client.mPriority then client.mOwnerId else highest.2

variable [DecidableEq κ]

/-- The second loop of `wouldEvictLocked`, with the eviction list and the total cost it ends with.
It is `none` where the source returns the incoming client alone. -/
def evictLoop (mMaxCost : Int) (client : ClientDescriptor κ) (highestPriorityOwner : Int)
    (returnIncompatibleClients : Bool) :
    List (ClientDescriptor κ) → List (ClientDescriptor κ) → Int → Option (List (ClientDescriptor κ) × Int)
  | [], evictList, totalCost => some (evictList, totalCost)
  | i :: rest, evictList, totalCost =>
    let next := evictLoop mMaxCost client highestPriorityOwner returnIncompatibleClients rest
    let conflicting := i.mKey = client.mKey ∨ i.isConflicting client.mKey ∨
      client.isConflicting i.mKey
    if ¬ returnIncompatibleClients then
      if conflicting ∧ i.mPriority.less client.mPriority then
        -- Pre-existing conflicting client with higher priority exists
        none
      else if conflicting ∧ client.mOwnerId = i.mOwnerId then
        -- Open the same device twice -> most recent open wins
        if i.mKey = client.mKey then next (evictList ++ [i]) (totalCost - i.mCost)
        else none
      else if conflicting ∨ ((totalCost > mMaxCost ∧ i.mCost > 0) ∧
          i.mPriority.greaterOrSame client.mPriority ∧
          ¬ (highestPriorityOwner = client.mOwnerId ∧ client.mOwnerId = i.mOwnerId)) then
        next (evictList ++ [i]) (totalCost - i.mCost)
      else next evictList totalCost
    else if i.mPriority.less client.mPriority ∧
        (conflicting ∨ (totalCost > mMaxCost ∧ i.mCost > 0)) then
      next (evictList ++ [i]) totalCost
    else next evictList totalCost

def wouldEvictLocked (m : ClientManager κ) (client : ClientDescriptor κ)
    (returnIncompatibleClients : Bool := false) : List (ClientDescriptor κ) :=
  let owner := m.highestPriorityOwner client
  match evictLoop m.mMaxCost client owner returnIncompatibleClients m.mClients []
      (m.getCurrentCostLocked + client.mCost) with
  | none => [client]
  | some (evictList, totalCost) =>
    if returnIncompatibleClients then evictList
    -- If the total cost is too high, return the input unless the input has the highest priority
    else if totalCost > m.mMaxCost ∧ owner ≠ client.mOwnerId then [client]
    else evictList

def wouldEvict (m : ClientManager κ) (client : ClientDescriptor κ) : List (ClientDescriptor κ) :=
  m.wouldEvictLocked client

/-- The `remove_if` of `addAndEvict` over the clients, with what `iter` has before it. The test of
a client reads `*iter`, also when `iter` has come to the end of the evicted clients: that is
`none`. -/
def removeEvicted : List (ClientDescriptor κ) → List (ClientDescriptor κ) → Option (List (ClientDescriptor κ))
  | [], _ => some []
  | _ :: _, [] => none
  | curClient :: rest, iter :: evicted =>
    if curClient.mKey = iter.mKey then removeEvicted rest evicted
    else (removeEvicted rest (iter :: evicted)).map (curClient :: ·)

def addAndEvict (m : ClientManager κ) (client : ClientDescriptor κ) :
    Option (ClientManager κ × List (ClientDescriptor κ)) :=
  match m.wouldEvictLocked client with
  | [] => some ({ m with mClients := m.mClients ++ [client] }, [])
  | it :: evicted =>
    if it.address = client.address then some (m, it :: evicted)
    else (removeEvicted m.mClients (it :: evicted)).map fun kept =>
      ({ m with mClients := kept ++ [client] }, it :: evicted)

/-- `remove` with a key, with the client it returns. -/
def remove (m : ClientManager κ) (key : κ) : ClientManager κ × Option (ClientDescriptor κ) :=
  ({ m with mClients := m.mClients.filter fun c => c.mKey ≠ key },
    (m.mClients.filter fun c => c.mKey = key).getLast?)

omit [DecidableEq κ]

/-- `remove` with a client. -/
def removeClient (m : ClientManager κ) (value : ClientDescriptor κ) : ClientManager κ :=
  { m with mClients := m.mClients.filter fun c => c.address ≠ value.address }

def removeAll (m : ClientManager κ) : ClientManager κ := { m with mClients := [] }

def updatePriorities (m : ClientManager κ) (ownerPriorityList : Int → Option ClientPriority) :
    ClientManager κ :=
  { m with mClients := m.mClients.map fun i =>
    match ownerPriorityList i.mOwnerId with
    | some priority => i.setPriority priority
    | none => i }

end ClientManager

/-- The calls that change the list of clients. -/
inductive Call (κ : Type) where
  | addAndEvict (client : ClientDescriptor κ)
  | remove (key : κ)
  | removeClient (value : ClientDescriptor κ)
  | removeAll
  | updatePriorities (ownerPriorityList : Int → Option ClientPriority)

def ClientManager.step {κ : Type} [DecidableEq κ] (m : ClientManager κ) :
    Call κ → Option (ClientManager κ)
  | .addAndEvict client => (m.addAndEvict client).map Prod.fst
  | .remove key => some (m.remove key).1
  | .removeClient value => some (m.removeClient value)
  | .removeAll => some m.removeAll
  | .updatePriorities ownerPriorityList => some (m.updatePriorities ownerPriorityList)

/-!
## What the listener hears of addAndEvict

The eviction list is announced by its first element only, before the walk that takes the evicted clients
out, and the walk compares every client that is still to come with the next one of the eviction list,
also behind the last.
-/
variable {κ : Type} [DecidableEq κ]

/-- The calls of a listener. -/
inductive ListenerCall (κ : Type) where
  | onClientRemoved (descriptor : ClientDescriptor κ)
  | onClientAdded (descriptor : ClientDescriptor κ)

/-- Whom the listener was told to be gone, and to be new. -/
def ListenerCall.removed : ListenerCall κ → Option (ClientDescriptor κ)
  | .onClientRemoved descriptor => some descriptor
  | .onClientAdded _ => none

def ListenerCall.added : ListenerCall κ → Option (ClientDescriptor κ)
  | .onClientRemoved _ => none
  | .onClientAdded descriptor => some descriptor

namespace ClientManager

/-- `addAndEvict` with a listener: what it returns and calls. -/
def announceAndEvict (m : ClientManager κ) (client : ClientDescriptor κ) :
    Option (ClientManager κ × List (ClientDescriptor κ) × List (ListenerCall κ)) :=
  match m.wouldEvictLocked client with
  | [] => some ({ m with mClients := m.mClients ++ [client] }, [], [.onClientAdded client])
  | it :: evicted =>
    if it.address = client.address then some (m, it :: evicted, [])
    else (removeEvicted m.mClients (it :: evicted)).map fun kept =>
      ({ m with mClients := kept ++ [client] }, it :: evicted, [.onClientRemoved it, .onClientAdded client])

/-! ### The eviction list -/

theorem mem_evictLoop {maxCost owner : Int} {client : ClientDescriptor κ} {incompatible : Bool}
    {clients evictList found : List (ClientDescriptor κ)} {totalCost total : Int}
    (ended : evictLoop maxCost client owner incompatible clients evictList totalCost = some (found, total)) :
    ∀ c ∈ found, c ∈ evictList ∨ c ∈ clients := by
  induction clients generalizing evictList totalCost with
  | nil =>
    cases ended
    exact fun c member => .inl member
  | cons i clients ih =>
    -- the loop goes on with `i` on the list, or without it
    have grown : ∀ {cost}, evictLoop maxCost client owner incompatible clients (evictList ++ [i]) cost =
        some (found, total) → ∀ c ∈ found, c ∈ evictList ∨ c ∈ i :: clients := by
      intro cost ended c member
      rcases ih ended c member with old | later
      · rcases List.mem_append.mp old with old | new
        · exact .inl old
        · exact .inr (List.mem_singleton.mp new ▸ List.mem_cons_self)
      · exact .inr (List.mem_cons_of_mem i later)
    have same : ∀ {cost}, evictLoop maxCost client owner incompatible clients evictList cost =
        some (found, total) → ∀ c ∈ found, c ∈ evictList ∨ c ∈ i :: clients :=
      fun ended c member => (ih ended c member).imp_right (List.mem_cons_of_mem i)
    rw [evictLoop] at ended
    split at ended
    · split at ended
      · cases ended
      · split at ended
        · split at ended
          · exact grown ended
          · cases ended
        · split at ended
          · exact grown ended
          · exact same ended
    · split at ended
      · exact grown ended
      · exact same ended

/-- Whoever is to be evicted is active, or is the client that asks. -/
theorem mem_wouldEvict {m : ClientManager κ} {client c : ClientDescriptor κ}
    (member : c ∈ m.wouldEvictLocked client) : c = client ∨ c ∈ m.mClients := by
  rw [wouldEvictLocked] at member
  split at member
  · exact .inl (List.mem_singleton.mp member)
  · rename_i evictList totalCost ended
    rw [if_neg (by decide)] at member
    split at member
    · exact .inl (List.mem_singleton.mp member)
    · exact .inr ((mem_evictLoop ended c member).resolve_left List.not_mem_nil)

/-! ### The walk -/

/-- For one evicted client the walk finds nobody with the key, or finds the first one at its end. -/
theorem removeEvicted_one {clients kept : List (ClientDescriptor κ)} {it : ClientDescriptor κ} :
    removeEvicted clients [it] = some kept ↔ ((∀ c ∈ clients, c.mKey ≠ it.mKey) ∧ kept = clients) ∨
        ∃ last, clients = kept ++ [last] ∧ last.mKey = it.mKey ∧ ∀ c ∈ kept, c.mKey ≠ it.mKey := by
  induction clients generalizing kept with
  | nil =>
    rw [removeEvicted, Option.some_inj]
    constructor
    · rintro rfl
      exact .inl ⟨nofun, rfl⟩
    · rintro (⟨-, rfl⟩ | ⟨last, none, -⟩)
      · rfl
      · exact absurd none.symm (List.append_ne_nil_of_right_ne_nil kept (List.cons_ne_nil last []))
  | cons c clients ih =>
    rw [removeEvicted]
    by_cases same : c.mKey = it.mKey
    · rw [if_pos same]
      constructor
      · intro walked
        cases clients with
        | nil =>
          cases walked
          exact .inr ⟨c, rfl, same, nofun⟩
        | cons next clients => cases walked
      · rintro (⟨none, -⟩ | ⟨last, split, -, none⟩)
        · exact absurd same (none c List.mem_cons_self)
        · cases kept with
          | nil =>
            cases split
            rfl
          | cons c' kept =>
            cases split
            exact absurd same (none c List.mem_cons_self)
    · rw [if_neg same, Option.map_eq_some_iff]
      constructor
      · rintro ⟨kept, walked, rfl⟩
        rcases ih.mp walked with ⟨none, rfl⟩ | ⟨last, rfl, key, none⟩
        · exact .inl ⟨List.forall_mem_cons.mpr ⟨same, none⟩, rfl⟩
        · exact .inr ⟨last, rfl, key, List.forall_mem_cons.mpr ⟨same, none⟩⟩
      · rintro (⟨none, rfl⟩ | ⟨last, split, key, none⟩)
        · exact ⟨clients, ih.mpr (.inl ⟨(List.forall_mem_cons.mp none).2, rfl⟩), rfl⟩
        · cases kept with
          | nil =>
            cases split
            exact absurd key same
          | cons c' kept =>
            cases split
            exact ⟨kept, ih.mpr (.inr ⟨last, rfl, key, (List.forall_mem_cons.mp none).2⟩), rfl⟩

/-- For an active client the walk goes through only if it is the last, and the first with its key. -/
theorem removeEvicted_active {clients kept : List (ClientDescriptor κ)} {it : ClientDescriptor κ}
    (active : it ∈ clients) :
    removeEvicted clients [it] = some kept ↔ clients = kept ++ [it] ∧ ∀ c ∈ kept, c.mKey ≠ it.mKey := by
  rw [removeEvicted_one]
  constructor
  · rintro (⟨none, -⟩ | ⟨last, split, -, none⟩)
    · exact absurd rfl (none it active)
    · rcases List.mem_append.mp (split ▸ active) with before | last_it
      · exact absurd rfl (none it before)
      · rw [← List.mem_singleton.mp last_it] at split
        exact ⟨split, none⟩
  · rintro ⟨split, none⟩
    exact .inr ⟨it, split, rfl, none⟩

/-! ### Announced and removed -/

/-- A client that is not admitted stands first in what is returned, and nothing else happens. For one that is
admitted the eviction list leaves the active clients, the listener hears of each that is gone and of the
new one, and the walk stays inside the eviction list. -/
def Announces (m : ClientManager κ) (client : ClientDescriptor κ) : Prop :=
  ∃ m' returned calls, m.announceAndEvict client = some (m', returned, calls) ∧
    returned = m.wouldEvictLocked client ∧
    if returned.head?.map ClientDescriptor.address = some client.address then m' = m ∧ calls = []
    else
      m'.mClients = m.mClients.filter (· ∉ returned) ++ [client] ∧
        calls.filterMap ListenerCall.removed = returned ∧ calls.filterMap ListenerCall.added = [client]

/-- All evicted clients are announced and taken out where there is none, or just one that is the last
active client with no other of its key before it. -/
theorem addAndEvict_announces_iff (m : ClientManager κ) (client : ClientDescriptor κ) :
    m.Announces client ↔ (m.wouldEvict client).head?.map ClientDescriptor.address = some client.address ∨
        m.wouldEvict client = [] ∨ ∃ front it, m.wouldEvict client = [it] ∧ m.mClients = front ++ [it] ∧
          ∀ c ∈ front, c.mKey ≠ it.mKey := by
  rw [wouldEvict, Announces, announceAndEvict]
  have inside : ∀ c ∈ m.wouldEvictLocked client, c = client ∨ c ∈ m.mClients := fun c => mem_wouldEvict
  generalize m.wouldEvictLocked client = found at inside ⊢
  cases found with
  | nil =>
    refine iff_of_true ⟨_, _, _, rfl, rfl, ?_⟩ (.inr (.inl rfl))
    rw [if_neg nofun]
    exact ⟨by simp, rfl, rfl⟩
  | cons it evicted =>
    have head : (it :: evicted).head?.map ClientDescriptor.address = some it.address := rfl
    rw [head, Option.some_inj]
    dsimp only
    by_cases rejected : it.address = client.address
    · rw [if_pos rejected]
      exact iff_of_true ⟨_, _, _, rfl, rfl, by rw [head, if_pos (congrArg some rejected)]; exact ⟨rfl, rfl⟩⟩
        (.inl rejected)
    · have active : it ∈ m.mClients :=
        (inside it List.mem_cons_self).resolve_left fun same => rejected (same ▸ rfl)
      rw [if_neg rejected, or_iff_right rejected, or_iff_right (List.cons_ne_nil it evicted)]
      constructor
      · -- the walk announces nobody but the first, so there may be no other
        rintro ⟨m', returned, calls, walked, rfl, good⟩
        obtain ⟨kept, removed, same⟩ := Option.map_eq_some_iff.mp walked
        cases same
        rw [head, if_neg (fun same => rejected (Option.some_inj.mp same))] at good
        obtain ⟨-, announced, -⟩ := good
        obtain rfl : evicted = [] := (List.cons_inj_right it).mp announced.symm
        obtain ⟨split, none⟩ := (removeEvicted_active active).mp removed
        exact ⟨kept, it, rfl, split, none⟩
      · rintro ⟨front, it', only, split, none⟩
        cases only
        have walked : removeEvicted m.mClients [it] = some front :=
          (removeEvicted_active active).mpr ⟨split, none⟩
        rw [walked]
        refine ⟨_, _, _, rfl, rfl, ?_⟩
        rw [head, if_neg (fun same => rejected (Option.some_inj.mp same))]
        refine ⟨?_, rfl, rfl⟩
        have kept : front.filter (· ∉ [it]) = front := List.filter_eq_self.mpr fun c member => by
          have other : c ≠ it := fun same => none c member (same ▸ rfl)
          simpa using other
        rw [split, List.filter_append, kept]
        simp

/-- Two clients make room for a third one that clashes with the first and costs as much as the second: of the
second the listener does not hear. -/
theorem addAndEvict_announces_one :
    ¬ ∀ (m : ClientManager Nat) (client : ClientDescriptor Nat), m.Announces client := by
  intro all
  let client (address : Nat) (cost : Int) (conflicting : List Nat) (score ownerId : Int) :
      ClientDescriptor Nat := ⟨address, address, cost, conflicting, .construct score 2 false, ownerId⟩
  let m : ClientManager Nat := ⟨100, [client 0 20 [] 100 7, client 1 60 [] 200 8]⟩
  obtain ⟨m', returned, calls, answer, -, good⟩ := all m (client 2 60 [0] 0 9)
  cases answer
  rw [if_neg (by decide)] at good
  exact absurd good.2.1 (by decide)

end ClientManager

end Hima.ResourcePolicy
