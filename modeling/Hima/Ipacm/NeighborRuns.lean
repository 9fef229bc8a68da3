import Hima.Ipacm.NeighborCache

/-!
# Runs of the neighbour cache

The conditions under which an event is handled as it is meant to be, and what holds of the cache
in every state that such events lead to.
-/
namespace Hima.Ipacm

open FirstMatch Slots Runs
open Netlink (EventDataAll)

instance (data : EventDataAll) : Decidable (HasAddr data) := inferInstanceAs (Decidable (_ ∨ _))

/-! ### The client that an event names -/

def macAttrib (a : Wlan.HdrAttrib) : Option Wlan.MacAddr :=
  match a.val with
  | .macAddr mac => some mac
  | _ => none

/-- The last address among the attributes. -/
def namedMac (attribs : List Wlan.HdrAttrib) : Option Wlan.MacAddr :=
  (attribs.filterMap macAttrib).getLast?

/-- Without an address among the attributes the variable keeps what it contained before. -/
theorem foldl_takeMac (mac : Wlan.MacAddr) (attribs : List Wlan.HdrAttrib) :
    attribs.foldl Wlan.HdrAttrib.takeMac mac = (namedMac attribs).getD mac := by
  induction attribs using List.reverseRecOn with
  | nil => rfl
  | append_singleton attribs a ih =>
    rw [List.foldl_append, List.foldl_cons, List.foldl_nil, ih, namedMac, namedMac, List.filterMap_append]
    cases val : a.val with
    | macAddr mac => simp [macAttrib, val, Wlan.HdrAttrib.takeMac]
    | staId id => simp [macAttrib, val, Wlan.HdrAttrib.takeMac]
    | other => simp [macAttrib, val, Wlan.HdrAttrib.takeMac]

/-- For an event that says that a client has connected, the client and the interface it names. -/
def NeighborEvent.reconnecting : NeighborEvent → Option (Option Wlan.MacAddr × UInt32)
  | .clientAddEx ifIndex attribs => some (namedMac attribs, ifIndex)
  | .newNeigh data | .delNeigh data =>
    if HasAddr data then none else some (some data.macAddr, data.ifIndex)

/-! ### Conditions on a step -/

/-- The interfaces that the event has to do with are known. The interface of a client that connects
matters when the client is in the cache. -/
def IpacmNeighbor.IfacesKnown (s : IpacmNeighbor) (virtualIface : String) (around : Surroundings) :
    NeighborEvent → Prop
  | .clientAddEx ifIndex attribs =>
    (s.client (attribs.foldl Wlan.HdrAttrib.takeMac around.clientMacAddr)).isSome →
      Known around.kernelName s.ifaceTable ifIndex
  | .newNeigh data | .delNeigh data => s.NeighKnown virtualIface around data

/-- There is memory where an address would not get into the cache without. -/
def IpacmNeighbor.AddrSaved (s : IpacmNeighbor) (virtualIface : String) (around : Surroundings) :
    NeighborEvent → Prop
  | .clientAddEx _ _ => True
  | .newNeigh data | .delNeigh data => s.Saves virtualIface around data

/-- The event that says that a client has connected has its address among the attributes. -/
def NeighborEvent.NamesClient : NeighborEvent → Prop
  | .clientAddEx _ attribs => (namedMac attribs).isSome
  | .newNeigh _ | .delNeigh _ => True

/-- An event that is handled as it is meant to be. -/
structure Allowed (virtualIface : String) (s : IpacmNeighbor) (e : Surroundings × NeighborEvent) :
    Prop where
  known : s.IfacesKnown virtualIface e.1 e.2
  saved : s.AddrSaved virtualIface e.1 e.2
  named : e.2.NamesClient

/-- One call of `event_callback`, with what it meets. -/
def neighborStep (virtualIface : String) (s : IpacmNeighbor) (e : Surroundings × NeighborEvent) :
    Option IpacmNeighbor :=
  (s.eventCallback virtualIface e.1 e.2).map Prod.fst

/-- What is posted for a client that connects is the address in the cache, for the client and on the
interface that the event names. -/
def IpacmNeighbor.PostsNamed (s : IpacmNeighbor) (e : NeighborEvent) (posted : List NeighborPost) : Prop :=
  ∀ mac ifIndex, e.reconnecting = some (mac, ifIndex) → ∀ p ∈ posted,
    mac = some p.data.macAddr ∧ p.data.ifIndex = ifIndex ∧
      ∃ c, s.client p.data.macAddr = some c ∧ p.data.ipv4Addr = c.v4Addr

instance (s : IpacmNeighbor) (virtualIface : String) (around : Surroundings) (idx : UInt32) :
    Decidable (s.OnBridge virtualIface around idx) := inferInstanceAs (Decidable (_ = some _))

instance (s : IpacmNeighbor) (virtualIface : String) (around : Surroundings) (data : EventDataAll) :
    Decidable (s.NeighKnown virtualIface around data) :=
  inferInstanceAs (Decidable (_ → _ ∧ (_ → _ → _ → ∀ c ∈ s.client data.macAddr, Known _ _ _)))

instance (s : IpacmNeighbor) (virtualIface : String) (around : Surroundings) (data : EventDataAll) :
    Decidable (s.Saves virtualIface around data) := inferInstanceAs (Decidable (_ → _ → _ ∨ _))

instance (s : IpacmNeighbor) (virtualIface : String) (around : Surroundings) :
    ∀ e, Decidable (s.IfacesKnown virtualIface around e)
  | .clientAddEx _ _ => inferInstanceAs (Decidable (_ → Known _ _ _))
  | .newNeigh data | .delNeigh data => inferInstanceAs (Decidable (s.NeighKnown _ _ data))

instance (s : IpacmNeighbor) (virtualIface : String) (around : Surroundings) :
    ∀ e, Decidable (s.AddrSaved virtualIface around e)
  | .clientAddEx _ _ => inferInstanceAs (Decidable True)
  | .newNeigh data | .delNeigh data => inferInstanceAs (Decidable (s.Saves _ _ data))

instance : ∀ e : NeighborEvent, Decidable e.NamesClient
  | .clientAddEx _ _ => inferInstanceAs (Decidable (_ = true))
  | .newNeigh _ | .delNeigh _ => inferInstanceAs (Decidable True)

instance (virtualIface : String) (s : IpacmNeighbor) (e : Surroundings × NeighborEvent) :
    Decidable (Allowed virtualIface s e) :=
  decidable_of_iff (s.IfacesKnown virtualIface e.1 e.2 ∧ s.AddrSaved virtualIface e.1 e.2 ∧ e.2.NamesClient)
    ⟨fun ⟨known, saved, named⟩ => ⟨known, saved, named⟩, fun ⟨known, saved, named⟩ => ⟨known, saved, named⟩⟩

/-! ### One step -/

section Step

variable {s s' : IpacmNeighbor} {virtualIface : String} {around : Surroundings} {e : NeighborEvent}
  {posted : List NeighborPost}

/-- `iface_table` is read inside exactly when the interfaces are known. -/
theorem eventCallback_isSome (s : IpacmNeighbor) (virtualIface : String) (around : Surroundings)
    (e : NeighborEvent) :
    (s.eventCallback virtualIface around e).isSome ↔ s.IfacesKnown virtualIface around e := by
  cases e with
  | clientAddEx ifIndex attribs => exact clientAddEx_isSome s virtualIface around ifIndex attribs
  | newNeigh data => exact neighEvent_isSome s virtualIface around .ipAddrAdd data
  | delNeigh data => exact neighEvent_isSome s virtualIface around .ipAddrDel data

/-- A new and a deleted neighbour update the cache in the same way. -/
theorem eventCallback_updates (done : s.eventCallback virtualIface around e = some (s', posted))
    (saved : s.AddrSaved virtualIface around e) :
    Updates e.ipv4 s.neighborClient s'.neighborClient := by
  cases e with
  | clientAddEx ifIndex attribs => exact (clientAddEx_updates done).1
  | newNeigh data => exact (neighEvent_updates done).1 saved
  | delNeigh data => exact (neighEvent_updates done).1 saved

theorem FromCache.posts {mac : Wlan.MacAddr} {ifIndex : UInt32} (posts : FromCache s mac ifIndex posted) :
    ∀ p ∈ posted, some mac = some p.data.macAddr ∧ p.data.ifIndex = ifIndex ∧
      ∃ c, s.client p.data.macAddr = some c ∧ p.data.ipv4Addr = c.v4Addr := by
  intro p member
  obtain ⟨rfl, index, cached⟩ := posts p member
  exact ⟨rfl, index, cached⟩

theorem eventCallback_posts (done : s.eventCallback virtualIface around e = some (s', posted))
    (named : e.NamesClient) : s.PostsNamed e posted := by
  have neigh {post : EventDataAll → NeighborPost} {data : EventDataAll}
      (done : s.neighEvent virtualIface around post data = some (s', posted)) (mac : Option Wlan.MacAddr)
      (ifIndex : UInt32)
      (connects : (if HasAddr data then none else some (some data.macAddr, data.ifIndex)) =
        some (mac, ifIndex)) :
      ∀ p ∈ posted, mac = some p.data.macAddr ∧ p.data.ifIndex = ifIndex ∧
        ∃ c, s.client p.data.macAddr = some c ∧ p.data.ipv4Addr = c.v4Addr := by
    split at connects
    next => cases connects
    next lacks =>
      cases connects
      exact ((neighEvent_updates done).2 lacks).posts
  intro mac ifIndex connects
  cases e with
  | clientAddEx ifIndex' attribs =>
    obtain ⟨mac', here⟩ := Option.isSome_iff_exists.mp named
    have posts := (clientAddEx_updates done).2
    rw [foldl_takeMac, here, Option.getD_some] at posts
    have connects : some (namedMac attribs, ifIndex') = some (mac, ifIndex) := connects
    rw [here] at connects
    cases connects
    exact posts.posts
  | newNeigh data => exact neigh done mac ifIndex connects
  | delNeigh data => exact neigh done mac ifIndex connects

end Step

/-! ### Runs -/

theorem CacheSound.nil (l : List IfaceEntry) :
    CacheSound [] (IpacmNeighbor.mk l []).neighborClient where
  bounded := Nat.zero_le _
  once _ := Nat.zero_le _
  latest _ _ found := by simp at found

/-- The cache stays sound; the events of the run come behind those before it. -/
theorem CacheSound.run {virtualIface : String} {s t : IpacmNeighbor} {ops : List (Surroundings × NeighborEvent)}
    (run : Run (neighborStep virtualIface) (Allowed virtualIface) s ops t) {events : List NeighborEvent}
    (sound : CacheSound events s.neighborClient) :
    CacheSound (events ++ ops.map Prod.snd) t.neighborClient := by
  induction run generalizing events with
  | nil s => simpa using sound
  | @cons s s' t e ops allowed stepped _ ih =>
    obtain ⟨⟨s'', posted⟩, done, rfl⟩ := Option.map_eq_some_iff.mp stepped
    have next := ih (sound.updated (eventCallback_updates done allowed.saved))
    simpa using next

/-- In every state that allowed events lead to, the cache is within its bound, has one entry for each
client, and has no other IPv4 address than the latest. The next event reads inside `iface_table`
exactly when its interfaces are known, and a client that connects is posted under its own address. -/
theorem neighbor_cache_holds (virtualIface : String) {table : List IfaceEntry} {s : IpacmNeighbor}
    {ops : List (Surroundings × NeighborEvent)}
    (run : Run (neighborStep virtualIface) (Allowed virtualIface) { ifaceTable := table } ops s) :
    s.neighborClient.length ≤ ipaMaxNumNeighborClients ∧
    (s.neighborClient.map NeighborClient.macAddr).Nodup ∧
    (∀ c ∈ s.neighborClient,
      c.v4Addr = 0 ∨ latestIpv4 c.macAddr (ops.map Prod.snd) = some c.v4Addr) ∧
    ∀ around e,
      ((s.eventCallback virtualIface around e).isSome ↔ s.IfacesKnown virtualIface around e) ∧
      (e.NamesClient → ∀ s' posted, s.eventCallback virtualIface around e = some (s', posted) →
        s.PostsNamed e posted) := by
  have sound := CacheSound.run run (CacheSound.nil table)
  have distinct := nodup_of_countP_le_one sound.once
  refine ⟨sound.bounded, distinct, fun c member => ?_, fun around e =>
    ⟨eventCallback_isSome s virtualIface around e, fun named s' posted done =>
      eventCallback_posts done named⟩⟩
  exact sound.latest c.macAddr c (find?_of_mem distinct member)

/-! ### Samples -/

/-- The kernel has an interface that is not in the table. -/
def sampleAround : Surroundings where
  kernelName idx := if idx = 5 then some "wlan0" else if idx = 7 then some "bridge0" else some "eth3"
  memory := true
  clientMacAddr := #v[2, 0, 0, 0, 2, 1]
  ipv6Addr := .replicate 4 0

def sampleTable : List IfaceEntry := [⟨"wlan0", 5⟩, ⟨"bridge0", 7⟩]

/-- A client on an interface with an address. -/
def sampleNeigh (ifIndex ipv4Addr : UInt32) : EventDataAll where
  ifIndex := ifIndex
  ipv4Addr := ipv4Addr
  macAddr := #v[2, 0, 0, 0, 2, 1]

/-- The state after that client was seen on the first interface. -/
def sampleSeen : IpacmNeighbor where
  ifaceTable := sampleTable
  neighborClient := [⟨#v[2, 0, 0, 0, 2, 1], 5, 0xc0a80105, 0⟩]

theorem neighbor_cache_holds_sample :
    latestIpv4 #v[2, 0, 0, 0, 2, 1]
      [.newNeigh (sampleNeigh 5 0xc0a80105), .newNeigh (sampleNeigh 7 0xc0a80106)] = some 0xc0a80106 := by
  have run : Run (neighborStep "bridge0") (Allowed "bridge0") { ifaceTable := sampleTable }
      [(sampleAround, .newNeigh (sampleNeigh 5 0xc0a80105)),
        (sampleAround, .newNeigh (sampleNeigh 7 0xc0a80106))]
      ⟨sampleTable, [⟨#v[2, 0, 0, 0, 2, 1], 5, 0xc0a80106, 0⟩]⟩ :=
    .of_checked (by decide)
  have sound := (neighbor_cache_holds "bridge0" run).2.2.1 _ (List.mem_singleton_self _)
  exact sound.resolve_left (by decide)

/-- The name of an interface that is not in the table is read in front of it. A client that connects
without an address among the attributes is taken for the client of an earlier event. An address that
could not be passed on is not kept. -/
theorem iface_table_read_outside :
    (IpacmNeighbor.mk sampleTable []).eventCallback "bridge0" sampleAround
      (.newNeigh (sampleNeigh 9 0xc0a80105)) = none ∧
    neighborStep "bridge0" ⟨sampleTable, []⟩ (sampleAround, .newNeigh (sampleNeigh 5 0xc0a80105)) =
      some sampleSeen ∧ sampleSeen.eventCallback "bridge0" sampleAround (.clientAddEx 5 []) =
      some (sampleSeen, [.ipAddrAdd (sampleNeigh 5 0xc0a80105)]) ∧
    sampleSeen.eventCallback "bridge0" { sampleAround with memory := false }
      (.newNeigh (sampleNeigh 5 0xc0a80106)) = some (sampleSeen, []) := by
  decide

end Hima.Ipacm
