import Hima.Ipacm.Neighbor
import Hima.Lib.Runs

/-!
# What the neighbour cache holds

The cache has one entry for each client at most, and never more than there is room for. The IPv4
address of an entry is the one that the latest event brought, as long as there was memory for the
events. Nothing checks the interface that an event names: the name of an unknown one is read from
in front of the table.
-/
namespace Hima.Ipacm

open FirstMatch Slots Runs IpacmNeighbor
open Netlink (EventDataAll)

/-! ### Interfaces that are known -/

/-- An entry of the table has the index, or the name that the kernel has for it. -/
def Known (kernelName : UInt32 → Option String) (table : List IfaceEntry) (idx : UInt32) : Prop :=
  ∃ e ∈ table, e.netlinkInterfaceIndex = idx ∨ kernelName idx = some e.ifaceName

instance (kernelName : UInt32 → Option String) (table : List IfaceEntry) (idx : UInt32) :
    Decidable (Known kernelName table idx) := inferInstanceAs (Decidable (∃ e ∈ table, _))

section Query

variable (kernelName : UInt32 → Option String) (idx : UInt32) (table : List IfaceEntry)

theorem query_cases :
    (¬ Known kernelName table idx ∧ ifaceIpaIndexQuery kernelName idx table = (-1, table)) ∨
    (∃ i < table.length, Known kernelName table idx ∧
      ((ifaceIpaIndexQuery kernelName idx table = ((i : Int), table)) ∨
        ifaceIpaIndexQuery kernelName idx table =
          ((i : Int), table.modify i fun e => { e with netlinkInterfaceIndex := idx }))) := by
  rw [ifaceIpaIndexQuery]
  cases by_index : table.findIdx? (·.netlinkInterfaceIndex = idx) with
  | some i =>
    obtain ⟨below, same, -⟩ := List.findIdx?_eq_some_iff_getElem.mp by_index
    exact .inr ⟨i, below, ⟨_, List.getElem_mem below, .inl (by simpa using same)⟩, .inl rfl⟩
  | none =>
    have others : ∀ e ∈ table, e.netlinkInterfaceIndex ≠ idx := by
      simpa [List.findIdx?_eq_none_iff] using by_index
    cases named : kernelName idx with
    | none =>
      refine .inl ⟨?_, rfl⟩
      rintro ⟨e, member, is | is⟩
      · exact others e member is
      · simp [named] at is
    | some name =>
      cases by_name : table.findIdx? (·.ifaceName = name) with
      | none =>
        refine .inl ⟨?_, by simp [by_name]⟩
        rintro ⟨e, member, is | is⟩
        · exact others e member is
        · have other : e.ifaceName ≠ name := by
            simpa using List.findIdx?_eq_none_iff.mp by_name e member
          exact other (Option.some.inj (named.symm.trans is)).symm
      | some i =>
        obtain ⟨below, same, -⟩ := List.findIdx?_eq_some_iff_getElem.mp by_name
        have same : table[i].ifaceName = name := by simpa using same
        exact .inr ⟨i, below, ⟨_, List.getElem_mem below, .inr (by rw [named, same])⟩, .inr (by simp [by_name])⟩

/-- The name of the interface of an event is read inside the table when it is known. -/
theorem ifaceName_isSome :
    (ifaceName (ifaceIpaIndexQuery kernelName idx table).2
      (ifaceIpaIndexQuery kernelName idx table).1).isSome ↔ Known kernelName table idx := by
  rcases query_cases kernelName idx table with ⟨unknown, answer⟩ | ⟨i, below, known, answer | answer⟩
  · simp [answer, ifaceName, unknown]
  · simp [answer, ifaceName, known, below]
  · simp [answer, ifaceName, known, below]

/-- A query does not make an interface unknown. -/
theorem known_after (known : Known kernelName table idx) :
    Known kernelName (ifaceIpaIndexQuery kernelName idx table).2 idx := by
  rcases query_cases kernelName idx table with ⟨unknown, -⟩ | ⟨i, below, -, answer | answer⟩
  · exact absurd known unknown
  · rwa [answer]
  · rw [answer]
    have changed : (table.modify i fun e => { e with netlinkInterfaceIndex := idx })[i]? =
        some { table[i] with netlinkInterfaceIndex := idx } := by
      simp [below]
    exact ⟨_, List.mem_of_getElem? changed, .inl rfl⟩

end Query

/-! ### What an event does to the cache -/

/-- The client and the address that neighbour data bring, when it is an IPv4 address. -/
def broughtIpv4 (data : EventDataAll) : Option (Wlan.MacAddr × UInt32) :=
  if data.iptype = .v4 ∧ data.ipv4Addr ≠ 0 then some (data.macAddr, data.ipv4Addr) else none

def NeighborEvent.ipv4 : NeighborEvent → Option (Wlan.MacAddr × UInt32)
  | .clientAddEx _ _ => none
  | .newNeigh data | .delNeigh data => broughtIpv4 data

/-- The address that the latest of the events brought for a client. -/
def latestIpv4 (mac : Wlan.MacAddr) (events : List NeighborEvent) : Option UInt32 :=
  ((events.filterMap NeighborEvent.ipv4).filter (·.1 = mac)).getLast?.map Prod.snd

/-- The cache after an event that brings `ipv4`: an entry is written or added, under the address
that the event brings, or else with the address that it had or none. -/
inductive Updates (ipv4 : Option (Wlan.MacAddr × UInt32)) (l : List NeighborClient) :
    List NeighborClient → Prop
  | kept : (∀ mac a, ipv4 = some (mac, a) → l.find? (isClient mac) = none) → Updates ipv4 l l
  | stored {c new : NeighborClient} : l.find? (isClient new.macAddr) = some c →
      (ipv4 = none → new.v4Addr = c.v4Addr) →
      (∀ mac a, ipv4 = some (mac, a) → new.macAddr = mac ∧ new.v4Addr = a) →
      Updates ipv4 l (setFirst (isClient new.macAddr) new l)
  | inserted {new : NeighborClient} : l.find? (isClient new.macAddr) = none →
      l.length < ipaMaxNumNeighborClients → (ipv4 = none → new.v4Addr = 0) →
      (∀ mac a, ipv4 = some (mac, a) → new.macAddr = mac ∧ new.v4Addr = a) →
      Updates ipv4 l (l ++ [new])

/-- What holds of the cache after the events so far. -/
structure CacheSound (events : List NeighborEvent) (l : List NeighborClient) : Prop where
  bounded : l.length ≤ ipaMaxNumNeighborClients
  once : ∀ mac, l.countP (isClient mac) ≤ 1
  latest : ∀ mac c, l.find? (isClient mac) = some c →
    c.v4Addr = 0 ∨ latestIpv4 mac events = some c.v4Addr

theorem latestIpv4_snoc_none {e : NeighborEvent} (none' : e.ipv4 = none) (mac : Wlan.MacAddr)
    (events : List NeighborEvent) : latestIpv4 mac (events ++ [e]) = latestIpv4 mac events := by
  simp [latestIpv4, List.filterMap_append, none']

theorem latestIpv4_snoc {e : NeighborEvent} {mac : Wlan.MacAddr} {a : UInt32}
    (brings : e.ipv4 = some (mac, a)) (mac' : Wlan.MacAddr) (events : List NeighborEvent) :
    latestIpv4 mac' (events ++ [e]) = if mac = mac' then some a else latestIpv4 mac' events := by
  by_cases same : mac = mac' <;>
    simp [latestIpv4, List.filterMap_append, brings, same]

theorem CacheSound.updated {events : List NeighborEvent} {l l' : List NeighborClient}
    (sound : CacheSound events l) {e : NeighborEvent} (updates : Updates e.ipv4 l l') :
    CacheSound (events ++ [e]) l' := by
  -- an entry that stays as it is, of another client than the event's
  have other : ∀ mac c, l.find? (isClient mac) = some c → (∀ a, e.ipv4 ≠ some (mac, a)) →
      c.v4Addr = 0 ∨ latestIpv4 mac (events ++ [e]) = some c.v4Addr := by
    intro mac c found not_this
    cases brings : e.ipv4 with
    | none =>
      rw [latestIpv4_snoc_none brings]
      exact sound.latest mac c found
    | some addr =>
      obtain ⟨mac', a⟩ := addr
      have differs : mac' ≠ mac := fun same => not_this a (by rw [brings, same])
      rw [latestIpv4_snoc brings, if_neg differs]
      exact sound.latest mac c found
  cases updates with
  | kept unseen =>
    refine ⟨sound.bounded, sound.once, fun mac c found => other mac c found fun a brings => ?_⟩
    simp [unseen mac a brings] at found
  | @stored c new found same given =>
    refine ⟨by simpa using sound.bounded, fun mac => ?_, fun mac c' found' => ?_⟩
    · rw [countP_setFirst rfl]
      exact sound.once mac
    by_cases this : new.macAddr = mac
    · subst this
      rw [find?_setFirst_self found rfl] at found'
      obtain rfl := Option.some.inj found'
      cases brings : e.ipv4 with
      | none =>
        rw [latestIpv4_snoc_none brings, same brings]
        exact sound.latest _ c found
      | some addr =>
        obtain ⟨mac, a⟩ := addr
        obtain ⟨rfl, rfl⟩ := given mac a brings
        exact .inr (by rw [latestIpv4_snoc brings, if_pos rfl])
    · rw [find?_setFirst_ne rfl this] at found'
      exact other mac c' found' fun a brings => this (given mac a brings).1
  | @inserted new absent room zero given =>
    refine ⟨by rw [List.length_append]; exact room, fun mac => ?_, fun mac c' found' => ?_⟩
    · rw [countP_append_singleton]
      split
      next this =>
        subst this
        have none' : l.countP (isClient new.macAddr) = 0 :=
          countP_hasKey_eq_zero.mpr (by simpa using absent)
        rw [none']
      next => exact sound.once mac
    by_cases this : new.macAddr = mac
    · subst this
      rw [find?_append_singleton_self absent rfl] at found'
      obtain rfl := Option.some.inj found'
      cases brings : e.ipv4 with
      | none => exact .inl (zero brings)
      | some addr =>
        obtain ⟨mac, a⟩ := addr
        obtain ⟨rfl, rfl⟩ := given mac a brings
        exact .inr (by rw [latestIpv4_snoc brings, if_pos rfl])
    · rw [find?_append_singleton_ne l this] at found'
      exact other mac c' found' fun a brings => this (given mac a brings).1

/-! ### What the handlers do -/

section Handlers

variable (s : IpacmNeighbor) (virtualIface : String) (around : Surroundings)

/-- The interface of an event is the bridge. -/
def IpacmNeighbor.OnBridge (idx : UInt32) : Prop :=
  ifaceName (ifaceIpaIndexQuery around.kernelName idx s.ifaceTable).2
    (ifaceIpaIndexQuery around.kernelName idx s.ifaceTable).1 = some virtualIface

/-- The data have an address. -/
def HasAddr (data : EventDataAll) : Prop :=
  (data.iptype = .v4 ∧ data.ipv4Addr ≠ 0) ∨ (data.iptype = .v6 ∧ data.ipv6Addr ≠ .replicate 4 0)

/-- The interfaces that a neighbour event has to do with are known: its own, and on the bridge the
one that is kept for the client, which is looked up for the log. -/
def IpacmNeighbor.NeighKnown (data : EventDataAll) : Prop :=
  (data.iptype = .v4 → data.ipv4Addr ≠ 0) →
    Known around.kernelName s.ifaceTable data.ifIndex ∧
    (s.OnBridge virtualIface around data.ifIndex → HasAddr data → around.memory = true →
      ∀ c, s.client data.macAddr = some c →
        Known around.kernelName (ifaceIpaIndexQuery around.kernelName data.ifIndex s.ifaceTable).2
          c.ifaceIndex)

/-- There is memory to pass on the address of a client that is in the cache; on the bridge the
address is stored first. -/
def IpacmNeighbor.Saves (data : EventDataAll) : Prop :=
  (broughtIpv4 data).isSome → (s.client data.macAddr).isSome →
    around.memory = true ∨ s.OnBridge virtualIface around data.ifIndex

/-- What is posted when a client connects again: the address that is kept for it, on the interface
that the event names. -/
def FromCache (mac : Wlan.MacAddr) (ifIndex : UInt32) (posted : List NeighborPost) : Prop :=
  ∀ p ∈ posted, p.data.macAddr = mac ∧ p.data.ifIndex = ifIndex ∧
    ∃ c, s.client mac = some c ∧ p.data.ipv4Addr = c.v4Addr

variable {s virtualIface around}

/-- The interface is looked up in the table that an earlier query may have changed. -/
theorem logIface_isSome (s : IpacmNeighbor) (around : Surroundings) (idx : UInt32) :
    (s.logIface around idx).isSome ↔ Known around.kernelName s.ifaceTable idx := by
  rw [← ifaceName_isSome]
  cases named : ifaceName (ifaceIpaIndexQuery around.kernelName idx s.ifaceTable).2
      (ifaceIpaIndexQuery around.kernelName idx s.ifaceTable).1 with
  | none => simp [logIface, named]
  | some name => simp [logIface, named]

variable {s' : IpacmNeighbor}

theorem logIface_neighborClient {idx : UInt32}
    (logged : s.logIface around idx = some s') : s'.neighborClient = s.neighborClient := by
  obtain ⟨name, -, same⟩ := Option.bind_eq_some_iff.mp logged
  obtain rfl := Option.some.inj same
  rfl

theorem Updates.unchanged (l : List NeighborClient) : Updates none l l := .kept (by simp)

theorem stored_updates {ipv4 : Option (Wlan.MacAddr × UInt32)} {c new : NeighborClient}
    (found : s.client new.macAddr = some c) (same : ipv4 = none → new.v4Addr = c.v4Addr)
    (given : ∀ mac a, ipv4 = some (mac, a) → new.macAddr = mac ∧ new.v4Addr = a) :
    Updates ipv4 s.neighborClient (s.store new).neighborClient :=
  .stored found same given

theorem insert_updates {ipv4 : Option (Wlan.MacAddr × UInt32)} (new : NeighborClient)
    (absent : s.client new.macAddr = none) (zero : ipv4 = none → new.v4Addr = 0)
    (given : ∀ mac a, ipv4 = some (mac, a) → new.macAddr = mac ∧ new.v4Addr = a) :
    Updates ipv4 s.neighborClient (s.insert new).neighborClient := by
  rw [IpacmNeighbor.insert]
  split
  next room => exact .inserted absent room zero given
  next =>
    refine .kept fun mac a brings => ?_
    obtain ⟨rfl, -⟩ := given mac a brings
    exact absent

/-- A client that connects again on a known interface is handled. -/
theorem reconnect_isSome {ifIndex : UInt32} {ipaInterfaceIndex : Int} {c : NeighborClient}
    (known : Known around.kernelName s.ifaceTable ifIndex) :
    (s.reconnect around ifIndex ipaInterfaceIndex c).isSome := by
  have logged := (logIface_isSome (s.store { c with ifaceIndex := ifIndex }) around ifIndex).mpr known
  simp only [reconnect]
  split
  · rfl
  split
  · split
    · rw [Option.isSome_map]
      exact logged
    · rfl
  · rfl

/-- The entry gets the index of the event, and its address is what is posted. -/
theorem reconnect_updates {ifIndex : UInt32} {ipaInterfaceIndex : Int} {c : NeighborClient}
    (found : s.client c.macAddr = some c) {posted : List NeighborPost}
    (done : s.reconnect around ifIndex ipaInterfaceIndex c = some (s', posted)) :
    Updates none s.neighborClient s'.neighborClient ∧ FromCache s c.macAddr ifIndex posted := by
  have updates : Updates none s.neighborClient (s.store { c with ifaceIndex := ifIndex }).neighborClient :=
    stored_updates found (fun _ => rfl) (by simp)
  simp only [reconnect] at done
  split at done
  · cases done
    exact ⟨updates, by simp [FromCache]⟩
  split at done
  · split at done
    · obtain ⟨logged, looked, same⟩ := Option.map_eq_some_iff.mp done
      cases same
      rw [logIface_neighborClient looked]
      refine ⟨updates, fun p member => ?_⟩
      obtain rfl := List.mem_singleton.mp member
      exact ⟨rfl, rfl, c, found, rfl⟩
    · cases done
      exact ⟨updates, by simp [FromCache]⟩
  · cases done
    exact ⟨updates, by simp [FromCache]⟩

/-- The interface of the event is looked at when the client is in the cache. -/
theorem clientAddEx_isSome (s : IpacmNeighbor) (virtualIface : String) (around : Surroundings)
    (ifIndex : UInt32) (attribs : List Wlan.HdrAttrib) :
    (s.clientAddEx virtualIface around ifIndex attribs).isSome ↔
      ((s.client (attribs.foldl Wlan.HdrAttrib.takeMac around.clientMacAddr)).isSome →
        Known around.kernelName s.ifaceTable ifIndex) := by
  have named := ifaceName_isSome around.kernelName ifIndex s.ifaceTable
  have after := known_after around.kernelName ifIndex s.ifaceTable
  simp only [clientAddEx]
  generalize ifaceIpaIndexQuery around.kernelName ifIndex s.ifaceTable = q at named after ⊢
  generalize attribs.foldl Wlan.HdrAttrib.takeMac around.clientMacAddr = mac
  have same : client { s with ifaceTable := q.2 } mac = s.client mac := rfl
  rw [same]
  cases s.client mac with
  | none => simp
  | some c =>
    by_cases known : Known around.kernelName s.ifaceTable ifIndex
    · obtain ⟨name, named⟩ := Option.isSome_iff_exists.mp (named.mpr known)
      have handled : (reconnect { s with ifaceTable := q.2 } around ifIndex q.1 c).isSome :=
        reconnect_isSome (after known)
      simp only [named, known, Option.bind_eq_bind, Option.bind_some]
      split <;> simp [handled]
    · have unnamed : ifaceName q.2 q.1 = none := by simpa using mt named.mp known
      simp [unnamed, known]

theorem clientAddEx_updates {ifIndex : UInt32} {attribs : List Wlan.HdrAttrib} {posted : List NeighborPost}
    (done : s.clientAddEx virtualIface around ifIndex attribs = some (s', posted)) :
    Updates none s.neighborClient s'.neighborClient ∧
      FromCache s (attribs.foldl Wlan.HdrAttrib.takeMac around.clientMacAddr) ifIndex posted := by
  simp only [clientAddEx] at done
  generalize attribs.foldl Wlan.HdrAttrib.takeMac around.clientMacAddr = mac at done ⊢
  split at done
  next =>
    cases done
    exact ⟨.unchanged _, by simp [FromCache]⟩
  next c found =>
    obtain rfl : c.macAddr = mac := key_of_find? found
    obtain ⟨name, -, done⟩ := Option.bind_eq_some_iff.mp done
    split at done
    · exact reconnect_updates (s := { s with ifaceTable := _ }) found done
    · cases done
      exact ⟨.unchanged _, by simp [FromCache]⟩

/-- What is passed on to the interface of a client leaves the cache as it is. -/
theorem passOn_neighborClient {idx : UInt32} {sent posted : List NeighborPost}
    (done : (if around.memory then (s.logIface around idx).map (·, sent) else some (s, [])) =
      some (s', posted)) : s'.neighborClient = s.neighborClient := by
  split at done
  · obtain ⟨logged, looked, same⟩ := Option.map_eq_some_iff.mp done
    cases same
    exact logIface_neighborClient looked
  · cases done
    rfl

theorem passOn_isSome (s : IpacmNeighbor) (around : Surroundings) (idx : UInt32) (sent : List NeighborPost) :
    (if around.memory then (s.logIface around idx).map (·, sent) else some (s, [])).isSome ↔
      (around.memory = true → Known around.kernelName s.ifaceTable idx) := by
  split
  next memory => simp [logIface_isSome, memory]
  next memory => simp [memory]

/-- A neighbour event is handled exactly when its interfaces are known. -/
theorem neighEvent_isSome (s : IpacmNeighbor) (virtualIface : String) (around : Surroundings)
    (post : EventDataAll → NeighborPost) (data : EventDataAll) :
    (s.neighEvent virtualIface around post data).isSome ↔ s.NeighKnown virtualIface around data := by
  have named := ifaceName_isSome around.kernelName data.ifIndex s.ifaceTable
  have after := known_after around.kernelName data.ifIndex s.ifaceTable
  simp only [neighEvent, NeighKnown, OnBridge, HasAddr]
  generalize ifaceIpaIndexQuery around.kernelName data.ifIndex s.ifaceTable = q at named after ⊢
  have same : client { s with ifaceTable := q.2 } data.macAddr = s.client data.macAddr := rfl
  rw [same]
  by_cases own : Known around.kernelName s.ifaceTable data.ifIndex
  swap
  · -- no branch that looks at an unknown interface gets past its name
    have unnamed : ifaceName q.2 q.1 = none := by simpa using mt named.mp own
    cases data.iptype <;> simp [own, unnamed]
  obtain ⟨name, named⟩ := Option.isSome_iff_exists.mp (named.mpr own)
  have passed (s : IpacmNeighbor) := passOn_isSome s around
  have connected (c : NeighborClient) :
      (reconnect { s with ifaceTable := q.2 } around data.ifIndex q.1 c).isSome :=
    reconnect_isSome (after own)
  simp only [named, own, true_and, Option.bind_eq_bind, Option.bind_some, Option.some.injEq]
  -- the name is read: what is left to know are the interfaces of the clients that are posted
  cases family : data.iptype with
  | v4 =>
    by_cases address : data.ipv4Addr = 0
    · simp [address]
    cases found : s.client data.macAddr with
    | none => by_cases bridge : name = virtualIface <;> simp [address, bridge, apply_ite]
    | some c =>
      by_cases bridge : name = virtualIface
      · simp [address, bridge, passed, store]
      · simp [address, bridge, apply_ite]
  | v6 =>
    by_cases address : data.ipv6Addr = .replicate 4 0
    · cases found : s.client data.macAddr with
      | none => simp [address, apply_ite]
      | some c => simp [address, apply_ite, connected]
    cases found : s.client data.macAddr with
    | none => simp [address, apply_ite]
    | some c =>
      by_cases bridge : name = virtualIface
      · simp [address, bridge, passed]
      · simp [address, bridge, apply_ite]

/-- A neighbour event updates the cache when it saves the address that it brings, and without an
address it posts from the cache. -/
theorem neighEvent_updates {post : EventDataAll → NeighborPost} {data : EventDataAll}
    {posted : List NeighborPost} (done : s.neighEvent virtualIface around post data = some (s', posted)) :
    (s.Saves virtualIface around data → Updates (broughtIpv4 data) s.neighborClient s'.neighborClient) ∧
    (¬ HasAddr data → FromCache s data.macAddr data.ifIndex posted) := by
  have brought (ipv4 : data.iptype = .v4) (address : data.ipv4Addr ≠ 0) :
      broughtIpv4 data = some (data.macAddr, data.ipv4Addr) := if_pos ⟨ipv4, address⟩
  have brings (mac : Wlan.MacAddr) (a : UInt32) (same : some (data.macAddr, data.ipv4Addr) = some (mac, a)) :
      data.macAddr = mac ∧ data.ipv4Addr = a := Prod.mk.inj (Option.some.inj same)
  have missing {p : Prop} (lacks : some (data.macAddr, data.ipv4Addr) = none) : p := by cases lacks
  have nothing (ipv6 : data.iptype = .v6) : broughtIpv4 data = none := if_neg (by simp [ipv6])
  simp only [neighEvent] at done
  cases family : data.iptype with
  | v4 =>
    simp only [family] at done
    split at done
    next address =>
      have has : HasAddr data := .inl ⟨family, address⟩
      refine ⟨fun saves => ?_, fun lacks => absurd has lacks⟩
      rw [Saves, brought family address] at saves
      rw [brought family address]
      obtain ⟨name, named, done⟩ := Option.bind_eq_some_iff.mp done
      split at done
      next bridge =>
        split at done
        next absent =>
          cases done
          refine .kept fun mac a same => ?_
          obtain ⟨rfl, -⟩ := brings mac a same
          exact absent
        next c found =>
          obtain same : c.macAddr = data.macAddr := key_of_find? found
          rw [passOn_neighborClient done]
          exact stored_updates (s := { s with ifaceTable := _ }) (same ▸ found) missing (same ▸ brings)
      next off =>
        split at done
        next memory =>
          split at done
          next c found =>
            cases done
            exact stored_updates (s := { s with ifaceTable := _ }) found missing brings
          next absent =>
            cases done
            exact insert_updates (s := { s with ifaceTable := _ })
              ⟨data.macAddr, data.ifIndex, data.ipv4Addr, _⟩ absent missing brings
        next memory =>
          -- the address is lost, which does no harm when the client is not in the cache
          cases done
          refine .kept fun mac a same => ?_
          obtain ⟨rfl, -⟩ := brings mac a same
          by_contra cached
          have cached : (s.client data.macAddr).isSome := Option.isSome_iff_ne_none.mpr cached
          rcases saves rfl cached with enough | bridge
          · exact memory enough
          · exact off (Option.some.inj (named.symm.trans bridge))
    next zero =>
      cases done
      exact ⟨fun _ => .kept (by simp [broughtIpv4, not_not.mp zero]), by simp [FromCache]⟩
  | v6 =>
    simp only [family] at done
    rw [nothing family]
    split at done
    next address =>
      have has : HasAddr data := .inr ⟨family, address⟩
      refine ⟨fun _ => ?_, fun lacks => absurd has lacks⟩
      obtain ⟨name, -, done⟩ := Option.bind_eq_some_iff.mp done
      split at done
      next bridge =>
        split at done
        · cases done
          exact .unchanged _
        · rw [passOn_neighborClient done]
          exact .unchanged _
      next off =>
        split at done
        · cases done
          exact .unchanged _
        · cases done
          exact .unchanged _
    next zero =>
      obtain ⟨name, named, done⟩ := Option.bind_eq_some_iff.mp done
      split at done
      next c found =>
        obtain same : c.macAddr = data.macAddr := key_of_find? found
        split at done
        · obtain ⟨updates, posts⟩ := reconnect_updates (s := { s with ifaceTable := _ }) (same ▸ found) done
          exact ⟨fun _ => updates, fun _ => same ▸ posts⟩
        · cases done
          exact ⟨fun _ => .unchanged _, fun _ => by simp [FromCache]⟩
      next absent =>
        split at done
        · cases done
          refine ⟨fun _ => ?_, fun _ => by simp [FromCache]⟩
          exact insert_updates (s := { s with ifaceTable := _ }) ⟨data.macAddr, data.ifIndex, 0, _⟩ absent
            (fun _ => rfl) (by simp)
        · cases done
          exact ⟨fun _ => .unchanged _, fun _ => by simp [FromCache]⟩

end Handlers

end Hima.Ipacm
