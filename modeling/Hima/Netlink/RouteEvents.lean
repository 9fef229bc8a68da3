import Hima.Netlink.Datagram

/-!
# The events for a route

A route is announced when the kernel adds it and when the kernel deletes it. The two messages
have the same body, but the masks are built by code of its own in each case, and so are the
decisions which events to post.
-/
namespace Hima.Netlink

open Bytes

/-! ### Masks -/

/-- The mask whose first `len` bits are set, in words like those of an address that went
through `ntohl`. -/
def prefixMask (len : Nat) : Vector UInt32 4 :=
  .ofFn fun i => .ofBitVec (~~~(BitVec.allOnes 32 >>> (len - 32 * i)))

theorem prefixMask_full {len : Nat} (full : 128 ≤ len) : prefixMask len = .replicate 4 0xffffffff := by
  have word : ∀ i : Fin 4, (BitVec.allOnes 32 >>> (len - 32 * (i : Nat))) = 0#32 := by
    intro i
    exact BitVec.ushiftRight_eq_zero (by omega)
  simp only [prefixMask, word]
  decide

theorem ntohl_ones : ntohl 0xffffffff = 0xffffffff := by decide

/-- Four whole words are written where they belong, whatever the slot for less than a word. -/
theorem routeMask_full (slot : Fin 4 → Fin 4) {len : Nat} (full : 128 ≤ len) :
    routeMask slot len = .replicate 4 (some 0xffffffff) := by
  have turns : List.finRange 4 = [0, 1, 2, 3] := rfl
  have third : ((3 : Fin 4) : Nat) = 3 := rfl
  simp only [routeMask, turns, List.foldl_cons, List.foldl_nil, if_pos (show 32 ≤ len by omega),
    if_pos (show 32 ≤ len - 32 by omega), if_pos (show 32 ≤ len - 32 - 32 by omega),
    if_pos (show 32 ≤ len - 32 - 32 - 32 by omega), maskV6, third]
  refine Vector.ext fun i inside => ?_
  have word : i = 0 ∨ i = 1 ∨ i = 2 ∨ i = 3 := by omega
  rcases word with rfl | rfl | rfl | rfl <;> simp [ntohl_ones]

/-- With less than four whole words left, the loop of the deletion never writes the last one. -/
theorem routeMask_last_unset {len : Nat} (short : len < 128) :
    (routeMask (fun _ => 0) len)[3] = none := by
  have turns : List.finRange 4 = [0, 1, 2, 3] := rfl
  -- the word in which the prefix ends
  have ends : len < 32 ∨ (32 ≤ len ∧ ¬ 32 ≤ len - 32) ∨ (32 ≤ len ∧ 32 ≤ len - 32 ∧ ¬ 32 ≤ len - 32 - 32) ∨
      (32 ≤ len ∧ 32 ≤ len - 32 ∧ 32 ≤ len - 32 - 32 ∧ ¬ 32 ≤ len - 32 - 32 - 32) := by omega
  rcases ends with first | ⟨one, second⟩ | ⟨one, two, third⟩ | ⟨one, two, three, fourth⟩
  · simp [routeMask, turns, Nat.not_le.mpr first]
  · simp [routeMask, turns, one, second]
  · simp [routeMask, turns, one, two, third]
  · simp [routeMask, turns, one, two, three, fourth]

/-! ### Events -/

def Event.routeAdd? : Event → Option EventDataAddr
  | .routeAdd data => some data
  | _ => none

def Event.routeDel? : Event → Option EventDataAddr
  | .routeDel data => some data
  | _ => none

/-- The deletion is announced as the addition was, and the mask of an IPv6 destination is the one
of its prefix length. -/
structure EventsAgree (r : RtMsg) (hasDst : Prop) (added deleted : List Event) : Prop where
  same : deleted.filterMap Event.routeDel? = added.filterMap Event.routeAdd?
  mask : r.family = afInet6 → hasDst → ∀ data ∈ added.filterMap Event.routeAdd?,
    data.ipv6AddrMask = (prefixMask r.dstLen.toNat).map some

/-- Nothing is announced of an interface without a name. Else no destination comes with a route
that a user made, and of a kernel route for IPv6 there is no gateway and only whole addresses
are destinations. -/
def EventsAlike (lookup : Lookup) (oif : UInt32) (r : RtMsg) (hasDst hasGateway : Prop) : Prop :=
  lookup oif = false ∨
    (r.isBoot → ¬ hasDst) ∧ (r.isKernelV6 → ¬ hasGateway ∧ (hasDst → 128 ≤ r.dstLen.toNat))

variable {lookup : Lookup} {info : RouteInfo}

/-- A route cannot be of both kinds. -/
theorem not_kernel_of_boot {r : RtMsg} (boot : r.isBoot) : ¬ r.isKernelV6 := by
  rintro ⟨-, -, kernel, -⟩
  have protocol := boot.2.1
  rw [kernel] at protocol
  exact absurd protocol (by decide)

theorem unnamed_agree (unnamed : lookup info.oifIndex = false) :
    EventsAgree info.metainfo (.dst ∈ info.paramMask) (newRoute lookup info 0).2.2
      (delRoute lookup info 0).2.2 := by
  have nothing : ∀ events, named lookup info.oifIndex events = (.leave false, []) := by
    intro events
    simp only [named, unnamed, Bool.false_eq_true, if_false]
  constructor <;>
    by_cases boot : info.metainfo.isBoot <;> by_cases kernel : info.metainfo.isKernelV6 <;>
      simp [newRoute, delRoute, nothing, boot, kernel, Flow.andThen]

/-- The route a user made: the mask of the addition is never set. -/
theorem boot_agree_iff (found : lookup info.oifIndex = true) (boot : info.metainfo.isBoot) :
    EventsAgree info.metainfo (.dst ∈ info.paramMask) (newRoute lookup info 0).2.2
      (delRoute lookup info 0).2.2 ↔ .dst ∉ info.paramMask := by
  have kernel := not_kernel_of_boot boot
  by_cases dst : .dst ∈ info.paramMask
  · refine iff_of_false ?_ (not_not.mpr dst)
    rintro ⟨same, -⟩
    simp [newRoute, delRoute, named, found, boot, kernel, dst, Flow.andThen, Event.routeAdd?,
      Event.routeDel?] at same
    exact absurd same (by decide)
  · refine iff_of_true ⟨?_, fun _ has => absurd has dst⟩ dst
    by_cases v6 : info.metainfo.family = afInet6 <;>
      simp [newRoute, delRoute, named, found, boot, kernel, dst, v6, Flow.andThen, Event.routeAdd?,
        Event.routeDel?, SockaddrStorage.v4]

theorem kernel_agree_iff (found : lookup info.oifIndex = true) (kernel : info.metainfo.isKernelV6) :
    EventsAgree info.metainfo (.dst ∈ info.paramMask) (newRoute lookup info 0).2.2
      (delRoute lookup info 0).2.2 ↔
    .gateway ∉ info.paramMask ∧ (.dst ∈ info.paramMask → 128 ≤ info.metainfo.dstLen.toNat) := by
  have boot : ¬ info.metainfo.isBoot := fun boot => not_kernel_of_boot boot kernel
  by_cases gateway : .gateway ∈ info.paramMask
  · -- the addition announces the gateway as well
    refine iff_of_false ?_ fun h => h.1 gateway
    rintro ⟨same, -⟩
    have lengths := congrArg List.length same
    by_cases dst : .dst ∈ info.paramMask <;>
      simp [newRoute, delRoute, named, found, boot, kernel, dst, gateway, Flow.andThen, Event.routeAdd?,
        Event.routeDel?] at lengths
  · by_cases dst : .dst ∈ info.paramMask
    · by_cases full : 128 ≤ info.metainfo.dstLen.toNat
      · refine iff_of_true ⟨?_, ?_⟩ ⟨gateway, fun _ => full⟩
        · simp [newRoute, delRoute, named, found, boot, kernel, dst, gateway, Flow.andThen,
            Event.routeAdd?, Event.routeDel?, routeMask_full _ full]
        · simp [newRoute, named, found, boot, kernel, dst, gateway, Flow.andThen, Event.routeAdd?,
            routeMask_full _ full, prefixMask_full full]
      · refine iff_of_false ?_ fun h => full (h.2 dst)
        rintro ⟨same, mask⟩
        -- the last word of the deletion's mask has no value
        simp [newRoute, delRoute, named, found, boot, kernel, dst, gateway, Flow.andThen,
          Event.routeAdd?, Event.routeDel?] at same mask
        have unset := routeMask_last_unset (Nat.not_le.mp full)
        rw [same, mask kernel.1, Vector.getElem_map] at unset
        cases unset
    · refine iff_of_true ⟨?_, fun _ has => absurd has dst⟩ ⟨gateway, fun has => absurd has dst⟩
      simp [newRoute, delRoute, named, found, boot, kernel, dst, gateway, Flow.andThen]

theorem agree_iff_alike : EventsAgree info.metainfo (.dst ∈ info.paramMask)
      (newRoute lookup info 0).2.2 (delRoute lookup info 0).2.2 ↔
    EventsAlike lookup info.oifIndex info.metainfo (.dst ∈ info.paramMask) (.gateway ∈ info.paramMask) := by
  unfold EventsAlike
  cases found : lookup info.oifIndex with
  | false => exact iff_of_true (unnamed_agree found) (.inl rfl)
  | true =>
    by_cases boot : info.metainfo.isBoot
    · rw [boot_agree_iff found boot]
      simp [boot, not_kernel_of_boot boot]
    · by_cases kernel : info.metainfo.isKernelV6
      · rw [kernel_agree_iff found kernel]
        simp [boot, kernel]
      · refine iff_of_true ⟨?_, ?_⟩ (.inr ⟨fun h => absurd h boot, fun h => absurd h kernel⟩) <;>
          simp [newRoute, delRoute, boot, kernel, Flow.andThen]

/-! ### A route in a message of its own -/

/-- A route as the kernel puts it into a message, with values as long as their types. -/
structure Route where
  body : Body
  sized : body.header.length = rtmsgSize
  fits : nlmsghdrSize + body.bytes.length ≤ ipaNlMsgMaxLen
  readable : ∀ a ∈ body.attrs,
    (a.type = rtaDst → addrSize (place body.bytes (fun _ => 0) 0) ≤ a.data.length) ∧
    (a.type = rtaOif → 4 ≤ a.data.length)

namespace Route

variable (r : Route)

/-- `RTM_NEWROUTE` or `RTM_DELROUTE` of the route. -/
def message (isNew : Bool) (flags seq pid : Nat) : Message where
  kind := .route
  isNew := isNew
  flags := flags
  seq := seq
  pid := pid
  body := r.body
  sized := r.sized

def rtm : RtMsg := rtMsg (place r.body.bytes fun _ => 0)

def HasDst : Prop := (lastOf rtaDst r.body.attrs).isSome

def HasGateway : Prop := (lastOf rtaGateway r.body.attrs).isSome

/-- The index of the output interface. -/
def oif : UInt32 :=
  match lastOf rtaOif r.body.attrs with
  | none => 0
  | some a => ((place a.data fun _ => 0).u32 0).toUInt32

theorem message_readable (isNew : Bool) (flags seq pid : Nat) :
    (r.message isNew flags seq pid).Readable := r.readable

theorem message_len (isNew : Bool) (flags seq pid : Nat) :
    (r.message isNew flags seq pid).len < 65536 :=
  Nat.lt_of_le_of_lt r.fits (by decide)

/-- A flag that the attributes of a type set. -/
theorem settled_flag {type : Nat} {attrs : List Attr} {P : Prop} [Decidable P]
    (settled : Settled type attrs (fun _ => true) false (decide P)) :
    P ↔ (lastOf type attrs).isSome := by
  rw [Settled] at settled
  cases last : lastOf type attrs with
  | none =>
    rw [last] at settled
    simpa using settled
  | some a =>
    rw [last] at settled
    obtain ⟨-, set⟩ := settled
    simpa using set

variable {r}

/-- What the decoder finds, read from the bytes of the route. -/
theorem holds_reads {isNew : Bool} {flags seq pid : Nat} {info : RouteInfo}
    (holds : RouteHolds (r.message isNew flags seq pid) info) :
    info.metainfo = r.rtm ∧ (.dst ∈ info.paramMask ↔ r.HasDst) ∧
      (.gateway ∈ info.paramMask ↔ r.HasGateway) ∧ info.oifIndex = r.oif := by
  refine ⟨holds.metainfo, settled_flag holds.dst, settled_flag holds.gateway, ?_⟩
  have settled := holds.oifIndex
  change Settled rtaOif r.body.attrs _ _ _ at settled
  rw [Settled] at settled
  unfold oif
  cases last : lastOf rtaOif r.body.attrs with
  | none =>
    rw [last] at settled
    exact settled
  | some a =>
    rw [last] at settled
    obtain ⟨rest, index⟩ := settled
    obtain ⟨member, typed⟩ := lastOf_mem last
    have long := (r.readable a member).2 typed
    have same : (place a.data rest).u32 0 = (place a.data fun _ => 0).u32 0 :=
      Mem.u32_congr fun i below => place_inside_congr rest _ (by omega)
    rw [index, same]

end Route

/-- A datagram of one message posts what the message is handled with. -/
theorem postedBy_single {lookup : Lookup} {m : Message} {tail : Mem} (small : m.len < 65536)
    {flow : Flow} {s : Run} {events : List Event} (posted : s.posted = events)
    (handled : handleNlmsg lookup m.type (place (datagramBytes [m]) tail) m.len {} = some (flow, s)) :
    postedBy lookup [m] tail = some events := by
  have bytes : datagramBytes [m] = m.bytes := by simp [datagramBytes]
  have length : (datagramBytes [m]).length = m.len := by rw [bytes, m.bytes_length]
  have positive := m.header_lt_len
  obtain ⟨n, len⟩ := Nat.exists_eq_add_one_of_ne_zero (Nat.ne_zero_of_lt positive)
  have ok : nlmsgOk (place (datagramBytes [m]) tail) m.len = true := by
    simp only [nlmsgOk, bytes, m.nlmsgLen_place _ small, Bool.and_eq_true, decide_eq_true_eq]
    simp only [Message.len, nlmsghdrSize]
    omega
  have type : nlmsgType (place (datagramBytes [m]) tail) = m.type := by
    rw [bytes, m.nlmsgType_place]
  have aligned : align (nlmsgLen (place (datagramBytes [m]) tail)) = m.len := by
    rw [bytes, m.nlmsgLen_place _ small, align_of_dvd m.len_mod]
  rw [← posted, postedBy, length, ipaNlDecodeNlmsg, nlmsgLoop, if_pos ok, type, handled]
  cases flow with
  | leave success => rfl
  | next =>
    -- nothing is left for the next turn of the loop
    have finished : ∀ nlh : Mem, nlmsgOk nlh 0 = false := fun _ => rfl
    dsimp only
    rw [aligned, if_pos (Nat.le_refl _), Nat.sub_self, len, nlmsgLoop, finished]
    rfl

variable {r : Route} {tail : Mem}

theorem Route.reads (quiet : rtaOk tail rtmsgSize = false) (isNew : Bool) (flags seq pid : Nat) :
    (r.message isNew flags seq pid).ReadAt (place (datagramBytes [r.message isNew flags seq pid]) tail)
      (r.message isNew flags seq pid).len := by
  refine readAt_datagram rfl (by simp) (Nat.le_refl _) (.inl ⟨?_, fun _ => quiet⟩)
  simp [datagramBytes, Message.bytes_length]

theorem Route.added (lookup : Lookup) (quiet : rtaOk tail rtmsgSize = false) (flags seq pid : Nat) :
    ∃ info, RouteHolds (r.message true flags seq pid) info ∧
      postedBy lookup [r.message true flags seq pid] tail = some (newRoute lookup info 0).2.2 := by
  obtain ⟨info, run, holds⟩ := decodeRtmRoute_holds (Route.reads quiet true flags seq pid) rfl {}
    (fun _ => rfl) fun _ => rfl
  have handled := handle_newRoute lookup (place (datagramBytes [r.message true flags seq pid]) tail)
    (r.message true flags seq pid).len {}
  rw [run, Option.map_some] at handled
  exact ⟨info, holds, postedBy_single (r.message_len true flags seq pid) (List.nil_append _) handled⟩

theorem Route.deleted (lookup : Lookup) (quiet : rtaOk tail rtmsgSize = false) (flags seq pid : Nat) :
    ∃ info, RouteHolds (r.message false flags seq pid) info ∧
      postedBy lookup [r.message false flags seq pid] tail = some (delRoute lookup info 0).2.2 := by
  obtain ⟨info, run, holds⟩ := decodeRtmRoute_holds (Route.reads quiet false flags seq pid) rfl {}
    (fun _ => rfl) fun _ => rfl
  have handled := handle_delRoute lookup (place (datagramBytes [r.message false flags seq pid]) tail)
    (r.message false flags seq pid).len {}
  rw [run, Option.map_some] at handled
  exact ⟨info, holds, postedBy_single (r.message_len false flags seq pid) (List.nil_append _) handled⟩

/-- For every route whose messages come alone, with bytes behind the datagrams that no decoder
takes for an attribute: the events of the two messages agree if and only if `EventsAlike` holds
of the route. -/
theorem route_events_agree_iff (lookup : Lookup) (r : Route) (flags seq pid flags' seq' pid' : Nat)
    (tail tail' : Mem) (quiet : rtaOk tail rtmsgSize = false) (quiet' : rtaOk tail' rtmsgSize = false) :
    ∃ added deleted, postedBy lookup [r.message true flags seq pid] tail = some added ∧
      postedBy lookup [r.message false flags' seq' pid'] tail' = some deleted ∧
      (EventsAgree r.rtm r.HasDst added deleted ↔ EventsAlike lookup r.oif r.rtm r.HasDst r.HasGateway) := by
  obtain ⟨info, holds, added⟩ := Route.added (r := r) lookup quiet flags seq pid
  obtain ⟨info', holds', deleted⟩ := Route.deleted (r := r) lookup quiet' flags' seq' pid'
  refine ⟨_, _, added, deleted, ?_⟩
  -- both messages carry the same body, so both decoders found the same
  have found : RouteHolds (r.message false flags' seq' pid') info :=
    ⟨holds.metainfo, holds.dst, holds.gateway, holds.dstAddr, holds.oifIndex⟩
  rw [delRoute_same rfl (r.message_readable false flags' seq' pid') holds' found 0 0]
  obtain ⟨header, dst, gateway, oif⟩ := Route.holds_reads holds
  have agree := @agree_iff_alike lookup info
  rw [header, oif] at agree
  simp only [dst, gateway] at agree
  exact agree

/-- An attribute whose data is short enough for its length field. -/
def shortAttr (type : Fin 256) (data : List UInt8) (short : data.length < 65532) : Attr where
  type := type
  data := data
  typed := Nat.lt_of_lt_of_le type.isLt (by decide)
  fits := Nat.add_lt_add_left short rtattrSize

/-- The kernel's route to fe80::1/128 over interface 3. -/
def wholeAddress : Route where
  body := {
    header := [10, 128, 0, 0, 254, 2, 0, 1, 0, 0, 0, 0]
    attrs := [shortAttr 1 [0xfe, 0x80, 0, 0, 0, 0, 0, 0, 0, 0, 0, 0, 0, 0, 0, 1] (by decide),
      shortAttr 4 [3, 0, 0, 0] (by decide)] }
  sized := rfl
  fits := by decide
  readable := by decide

theorem route_events_agree_iff_sample :
    ∃ added deleted, postedBy (fun _ => true) [wholeAddress.message true 0 1 0] (fun _ => 0) = some added ∧
      postedBy (fun _ => true) [wholeAddress.message false 0 2 0] (fun _ => 0) = some deleted ∧
      EventsAgree wholeAddress.rtm wholeAddress.HasDst added deleted := by
  obtain ⟨added, deleted, posted, posted', agree⟩ := route_events_agree_iff (fun _ => true) wholeAddress
    0 1 0 0 2 0 (fun _ => 0) (fun _ => 0) rfl rfl
  refine ⟨added, deleted, posted, posted', agree.mpr (.inr ⟨?_, ?_⟩)⟩
  · exact fun boot => absurd boot (by decide)
  · refine fun _ => ⟨?_, fun _ => by decide⟩
    change ¬ (lastOf rtaGateway wholeAddress.body.attrs).isSome
    decide

/-- The route to the host 10.0.0.2 over interface 3, which a user made. -/
def hostRoute : Route where
  body := {
    header := [2, 32, 0, 0, 254, 3, 0, 1, 0, 0, 0, 0]
    attrs := [shortAttr 1 [10, 0, 0, 2] (by decide), shortAttr 4 [3, 0, 0, 0] (by decide)] }
  sized := rfl
  fits := by decide
  readable := by decide

/-- The kernel's route to fe80::/64 over interface 3. -/
def linkLocalRoute : Route where
  body := {
    header := [10, 64, 0, 0, 254, 2, 0, 1, 0, 0, 0, 0]
    attrs := [shortAttr 1 [0xfe, 0x80, 0, 0, 0, 0, 0, 0, 0, 0, 0, 0, 0, 0, 0, 0] (by decide),
      shortAttr 4 [3, 0, 0, 0] (by decide)] }
  sized := rfl
  fits := by decide
  readable := by decide

/-- The host route is added with the mask 0 and deleted with the mask of a host, and the masks of
the kernel's route differ in the words behind the prefix. -/
theorem route_masks_differ :
    postedBy (fun _ => true) [hostRoute.message true 0 1 0] (fun _ => 0) =
      some [.routeAdd { iptype := .v4, ifIndex := 3, ipv4Addr := some 0x0A000002, ipv4AddrMask := some 0 }] ∧
    postedBy (fun _ => true) [hostRoute.message false 0 2 0] (fun _ => 0) =
      some [.routeDel { iptype := .v4, ifIndex := 3, ipv4Addr := some 0x0A000002,
                        ipv4AddrMask := some 0xffffffff }] ∧
    (postedBy (fun _ => true) [linkLocalRoute.message true 0 1 0] (fun _ => 0)).map
        (·.filterMap fun e => e.routeAdd?.map (·.ipv6AddrMask)) =
      some [#v[some 0xffffffff, some 0xffffffff, some 0, some 0]] ∧
    (postedBy (fun _ => true) [linkLocalRoute.message false 0 2 0] (fun _ => 0)).map
        (·.filterMap fun e => e.routeDel?.map (·.ipv6AddrMask)) =
      some [#v[some 0, some 0xffffffff, none, none]] := by
  decide +kernel

end Hima.Netlink
