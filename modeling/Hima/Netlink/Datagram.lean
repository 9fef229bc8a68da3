import Hima.Netlink.Content

/-!
# Message by message

What a message announces is read from its own bytes when it comes alone. In a datagram the decoders
read the first message, whatever message the loop has come to.
-/
namespace Hima.Netlink

open Bytes SockaddrStorage

/-! ### Announcements -/

/-- The bytes of an address of a family. -/
def addrSize (family : UInt8) : Nat := if family = afInet6 then 16 else 4

/-- The attributes whose values events carry are as long as what is copied of them. -/
def Message.Readable (m : Message) : Prop :=
  match m.kind with
  | .link => True
  | .addr => ∀ a ∈ m.body.attrs, a.type = ifaAddress → addrSize (m.content 0) ≤ a.data.length
  | .neigh => ∀ a ∈ m.body.attrs,
      (a.type = ndaDst → addrSize (m.content 0) ≤ a.data.length) ∧
      (a.type = ndaLladdr → 6 ≤ a.data.length)
  | .route => ∀ a ∈ m.body.attrs,
      (a.type = rtaDst → addrSize (m.content 0) ≤ a.data.length) ∧
      (a.type = rtaOif → 4 ≤ a.data.length)

theorem word_inside {family : UInt8} {data : List UInt8} {i : Nat} (inside : 4 * i + 4 ≤ data.length)
    (rest rest' : Mem) :
    (addrOf family (place data rest)).word i = (addrOf family (place data rest')).word i := by
  have same : (place data rest).u32 (4 * i) = (place data rest').u32 (4 * i) :=
    Mem.u32_congr fun j below => place_inside_congr rest rest' (by omega)
  simp [word, addrOf, same]

theorem v4_inside {family : UInt8} {data : List UInt8} (long : addrSize family ≤ data.length)
    (rest rest' : Mem) : (addrOf family (place data rest)).v4 = (addrOf family (place data rest')).v4 := by
  have inside : 4 * 0 + 4 ≤ data.length := by
    simp only [addrSize] at long
    split at long <;> omega
  rw [v4, v4, word_inside inside rest rest']

theorem v6_inside {family : UInt8} {data : List UInt8} (long : addrSize family ≤ data.length)
    (v6 : family = afInet6) (rest rest' : Mem) :
    (addrOf family (place data rest)).v6 = (addrOf family (place data rest')).v6 := by
  have words : ∀ i : Fin 4,
      (addrOf family (place data rest)).word i = (addrOf family (place data rest')).word i := by
    intro i
    refine word_inside ?_ rest rest'
    rw [addrSize, if_pos v6] at long
    omega
  simp [SockaddrStorage.v6, words]

section Same

variable {m : Message} {lookup : Lookup}

theorem newAddr_same (addr : m.kind = .addr) (readable : m.Readable) {info info' : AddrInfo}
    (holds : AddrHolds m info) (holds' : AddrHolds m info') : newAddr info = newAddr info' := by
  simp only [Message.Readable, addr] at readable
  have same_meta : info.metainfo = info'.metainfo := holds.metainfo.trans holds'.metainfo.symm
  have family : info.metainfo.family = m.content 0 := by rw [holds.metainfo]; rfl
  have settled := holds'.prefixAddr
  rw [← same_meta] at settled
  have same := holds.prefixAddr.same settled (fun addr => newAddr { info with prefixAddr := addr })
    fun a member typed rest rest' => by
      have long := readable a member typed
      rw [← family] at long
      by_cases v6 : info.metainfo.family = afInet6
      · have words := v6_inside long v6 rest rest'
        simp [newAddr, addrOf, v6] at words ⊢
        rw [words]
      · have v4 := v4_inside long rest rest'
        simp only [addrOf] at v4
        simp [newAddr, addrOf, v6, v4]
  have other : newAddr info' = newAddr { info with prefixAddr := info'.prefixAddr } := by
    simp [newAddr, same_meta]
  exact same.trans other.symm

theorem eventData_same (neigh : m.kind = .neigh) (readable : m.Readable) {info info' : NeighInfo}
    (holds : NeighHolds m info) (holds' : NeighHolds m info') : info.eventData = info'.eventData := by
  simp only [Message.Readable, neigh] at readable
  have same_meta : info.metainfo = info'.metainfo := holds.metainfo.trans holds'.metainfo.symm
  have family : info.metainfo.family = m.content 0 := by rw [holds.metainfo]; rfl
  have settled := holds'.localAddr
  rw [← same_meta] at settled
  have same := holds.localAddr.same settled (fun addr => NeighInfo.eventData { info with localAddr := addr })
    fun a member typed rest rest' => by
      have long := (readable a member).1 typed
      rw [← family] at long
      by_cases v6 : info.metainfo.family = afInet6
      · have words := v6_inside long v6 rest rest'
        simp [NeighInfo.eventData, addrOf, v6] at words ⊢
        exact words
      · have v4 := v4_inside long rest rest'
        simp only [addrOf] at v4
        dsimp only [NeighInfo.eventData, addrOf]
        rw [if_neg v6, if_neg v6, v4]
  have mac := holds.lladdrHwaddr.same holds'.lladdrHwaddr
    (fun data => (Vector.ofFn fun i : Fin 6 => data i : Vector UInt8 6))
    fun a member typed rest rest' => by
      have long := (readable a member).2 typed
      have bytes : ∀ i : Fin 6, place a.data rest i = place a.data rest' i := fun i =>
        place_inside_congr rest rest' (by omega)
      simp [bytes]
  have other : info'.eventData = NeighInfo.eventData { info with localAddr := info'.localAddr } := by
    simp only [NeighInfo.eventData, same_meta, mac]
  exact same.trans other.symm

theorem RouteHolds.same (route : m.kind = .route) (readable : m.Readable) {info info' : RouteInfo}
    (holds : RouteHolds m info) (holds' : RouteHolds m info') :
    info.metainfo = info'.metainfo ∧ (.dst ∈ info.paramMask ↔ .dst ∈ info'.paramMask) ∧
    (.gateway ∈ info.paramMask ↔ .gateway ∈ info'.paramMask) ∧ info.oifIndex = info'.oifIndex ∧
    info.dstAddr.word 0 = info'.dstAddr.word 0 ∧
    (info'.metainfo.family = afInet6 → info.dstAddr.v6 = info'.dstAddr.v6) := by
  simp only [Message.Readable, route] at readable
  have same_meta : info.metainfo = info'.metainfo := holds.metainfo.trans holds'.metainfo.symm
  have family : info.metainfo.family = m.content 0 := by rw [holds.metainfo]; rfl
  have settled := holds'.dstAddr
  rw [← same_meta] at settled
  have dst := holds.dst.same holds'.dst id fun _ _ _ _ _ => rfl
  have gateway := holds.gateway.same holds'.gateway id fun _ _ _ _ _ => rfl
  have long : ∀ a ∈ m.body.attrs, a.type = rtaDst → addrSize info.metainfo.family ≤ a.data.length :=
    fun a member typed => by rw [family]; exact (readable a member).1 typed
  refine ⟨same_meta, by simpa using dst, by simpa using gateway, ?_, ?_, fun v6 => ?_⟩
  · refine holds.oifIndex.same holds'.oifIndex id fun a member typed rest rest' => ?_
    have four := (readable a member).2 typed
    have same : (place a.data rest).u32 0 = (place a.data rest').u32 0 :=
      Mem.u32_congr fun i below => place_inside_congr rest rest' (by omega)
    simp [same]
  · refine holds.dstAddr.same settled (word · 0) fun a member typed => word_inside ?_
    have := long a member typed
    simp only [addrSize] at this
    split at this <;> omega
  · rw [← same_meta] at v6
    exact holds.dstAddr.same settled SockaddrStorage.v6 fun a member typed =>
      v6_inside (long a member typed) v6

theorem newRoute_same (route : m.kind = .route) (readable : m.Readable) {info info' : RouteInfo}
    (holds : RouteHolds m info) (holds' : RouteHolds m info') (mask : UInt32) :
    newRoute lookup info mask = newRoute lookup info' mask := by
  obtain ⟨same_meta, dst, gateway, oif, word, v6⟩ := holds.same route readable holds'
  by_cases family : info'.metainfo.family = afInet6
  · simp [newRoute, RouteInfo.defaultV6, v4, same_meta, dst, gateway, oif, word, family, v6 family]
  · have no_kernel : ¬ info'.metainfo.isKernelV6 := fun kernel => family kernel.1
    simp [newRoute, v4, same_meta, dst, oif, word, family, no_kernel]

theorem delRoute_same (route : m.kind = .route) (readable : m.Readable) {info info' : RouteInfo}
    (holds : RouteHolds m info) (holds' : RouteHolds m info') (mask mask' : UInt32) :
    (delRoute lookup info mask).2 = (delRoute lookup info' mask').2 := by
  obtain ⟨same_meta, dst, -, oif, word, v6⟩ := holds.same route readable holds'
  -- the mask is posted only where it has just been set
  cases answered : lookup info'.oifIndex <;> by_cases boot : info'.metainfo.isBoot <;>
    by_cases host : .dst ∈ info'.paramMask <;> by_cases family : info'.metainfo.family = afInet6 <;>
    simp [delRoute, named, RouteInfo.defaultV6, RtMsg.isKernelV6, v4, same_meta, dst, oif,
      word, answered, boot, host, family, v6]

end Same

/-! ### One message -/

/-- Fields that no attribute of the body sets are clear. -/
structure Run.Clear (s : Run) (attrs : List Attr) : Prop where
  prefixAddr : lastOf ifaAddress attrs = none → s.addrInfo.prefixAddr = {}
  localAddr : lastOf ndaDst attrs = none → s.neighInfo.localAddr = {}
  lladdrHwaddr : lastOf ndaLladdr attrs = none → s.neighInfo.lladdrHwaddr = fun _ => 0
  dstAddr : lastOf rtaDst attrs = none → s.routeInfo.dstAddr = {}
  oifIndex : lastOf rtaOif attrs = none → s.routeInfo.oifIndex = 0

theorem Run.clear_init (attrs : List Attr) : ({} : Run).Clear attrs :=
  ⟨fun _ => rfl, fun _ => rfl, fun _ => rfl, fun _ => rfl, fun _ => rfl⟩

/-- A link message of a bridge. -/
def Message.IsBridge (m : Message) : Prop := m.kind = .link ∧ m.content 0 = afBridge

/-- A deleted route to a host, from a user. -/
def Message.IsHostRouteDel (m : Message) : Prop :=
  m.type = rtmDelRoute ∧ (rtMsg m.content).isBoot ∧ (lastOf rtaDst m.body.attrs).isSome

/-- The message posts `events` wherever the decoders find its body. -/
def Message.Posts (m : Message) (lookup : Lookup) (events : List Event) : Prop :=
  ∀ (buffer : Mem) (buflen : Nat) (s : Run), m.ReadAt buffer buflen → s.Clear m.body.attrs →
    (s.ifIpipv4AddrMask = 0 ∨ m.type ≠ rtmNewRoute) →
    ∃ flow s', handleNlmsg lookup m.type buffer buflen s = some (flow, s') ∧
      s'.posted = s.posted ++ events ∧ s'.Clear m.body.attrs ∧
      (flow = .next ∨ flow = .leave true ∧ m.IsBridge) ∧
      (s.ifIpipv4AddrMask = 0 → s'.ifIpipv4AddrMask = 0 ∨ m.IsHostRouteDel)

section Handling

variable (lookup : Lookup) (buffer : Mem) (buflen : Nat) (s : Run)

theorem handle_newAddr : handleNlmsg lookup rtmNewAddr buffer buflen s =
    (ipaNlDecodeRtmAddr buffer buflen s.addrInfo).map fun info =>
      { s with addrInfo := info }.post (newAddr info) := rfl

theorem handle_newRoute : handleNlmsg lookup rtmNewRoute buffer buflen s =
    (ipaNlDecodeRtmRoute buffer buflen s.routeInfo).map fun info =>
      let answer := newRoute lookup info s.ifIpipv4AddrMask
      { s with routeInfo := info, ifIpipv4AddrMask := answer.1 }.post answer.2 := rfl

theorem handle_delRoute : handleNlmsg lookup rtmDelRoute buffer buflen s =
    (ipaNlDecodeRtmRoute buffer buflen s.routeInfo).map fun info =>
      let answer := delRoute lookup info s.ifIpipv4AddrMask
      { s with routeInfo := info, ifIpipv4AddrMask := answer.1 }.post answer.2 := rfl

theorem handle_newNeigh : handleNlmsg lookup rtmNewNeigh buffer buflen s =
    (ipaNlDecodeRtmNeigh buffer buflen s.neighInfo).map fun info =>
      { s with neighInfo := info }.post (newNeigh lookup info) := rfl

theorem handle_delNeigh : handleNlmsg lookup rtmDelNeigh buffer buflen s =
    (ipaNlDecodeRtmNeigh buffer buflen s.neighInfo).map fun info =>
      { s with neighInfo := info }.post (delNeigh lookup info) := rfl

end Handling

section Posting

variable {m : Message} {lookup : Lookup} (all : ∀ i, lookup i = true)

include all

theorem newLink_next (info : IfInfoMsg) :
    (newLink lookup info).1 = if info.family = afBridge then .leave true else .next := by
  by_cases bridge : info.family = afBridge
  · simp [newLink, bridge]
  · simp only [newLink, named, all, if_true, if_neg bridge]
    split_ifs <;> rfl

theorem link_posts (link : m.kind = .link) : ∃ events, m.Posts lookup events := by
  have family : (ifInfoMsg m.content).family = m.content 0 := rfl
  cases new : m.isNew with
  | true =>
    have type : m.type = rtmNewLink := by simp [Message.type, link, new]
    refine ⟨(newLink lookup (ifInfoMsg m.content)).2, fun buffer buflen s reads clear _ => ?_⟩
    rw [type]
    refine ⟨_, _, rfl, ?_, ⟨clear.1, clear.2, clear.3, clear.4, clear.5⟩, ?_, .inl⟩
    · simp [decodeRtmLink_reads reads link]
    · simp only [decodeRtmLink_reads reads link, newLink_next all, Message.IsBridge, family]
      split
      next bridge => exact .inr ⟨rfl, link, bridge⟩
      next => exact .inl rfl
  | false =>
    have type : m.type = rtmDelLink := by simp [Message.type, link, new]
    refine ⟨(delLink lookup (ifInfoMsg m.content)).2, fun buffer buflen s reads clear _ => ?_⟩
    rw [type]
    refine ⟨_, _, rfl, ?_, ⟨clear.1, clear.2, clear.3, clear.4, clear.5⟩, ?_, .inl⟩
    · simp [decodeRtmLink_reads reads link]
    · simp only [decodeRtmLink_reads reads link, delLink, named, all, Message.IsBridge, family]
      split
      next bridge => exact .inr ⟨rfl, link, bridge⟩
      next => exact .inl rfl

omit all in
theorem addr_posts (addr : m.kind = .addr) (readable : m.Readable) {info : AddrInfo}
    (holds : AddrHolds m info) : ∃ events, m.Posts lookup events := by
  cases new : m.isNew with
  | true =>
    have type : m.type = rtmNewAddr := by simp [Message.type, addr, new]
    refine ⟨(newAddr info).2, fun buffer buflen s reads clear _ => ?_⟩
    obtain ⟨info', run, holds'⟩ := decodeRtmAddr_holds reads addr _ clear.prefixAddr
    have next : (newAddr info').1 = .next := by
      simp only [newAddr]
      split <;> rfl
    rw [type, handle_newAddr, run]
    refine ⟨_, _, rfl, ?_, ⟨fun none_of => holds'.prefixAddr.clear none_of, clear.2, clear.3, clear.4,
      clear.5⟩, .inl next, .inl⟩
    simp [newAddr_same addr readable holds' holds]
  | false =>
    -- no case of the `switch`
    have type : m.type = rtmDelAddr := by simp [Message.type, addr, new]
    refine ⟨[], fun buffer buflen s reads clear _ => ?_⟩
    rw [type]
    exact ⟨.next, s, rfl, by simp, clear, .inl rfl, .inl⟩

theorem neigh_posts (neigh : m.kind = .neigh) (readable : m.Readable) {info : NeighInfo}
    (holds : NeighHolds m info) : ∃ events, m.Posts lookup events := by
  cases new : m.isNew with
  | true =>
    have type : m.type = rtmNewNeigh := by simp [Message.type, neigh, new]
    refine ⟨(newNeigh lookup info).2, fun buffer buflen s reads clear _ => ?_⟩
    obtain ⟨info', run, holds'⟩ := decodeRtmNeigh_holds reads neigh _ clear.localAddr clear.lladdrHwaddr
    have same_meta := holds'.metainfo.trans holds.metainfo.symm
    rw [type, handle_newNeigh, run]
    refine ⟨_, _, rfl, ?_, ⟨clear.1, fun none_of => holds'.localAddr.clear none_of,
      fun none_of => holds'.lladdrHwaddr.clear none_of, clear.4, clear.5⟩, .inl ?_, .inl⟩
    · simp [newNeigh, same_meta, eventData_same neigh readable holds' holds]
    · simp [newNeigh, named, all]
  | false =>
    have type : m.type = rtmDelNeigh := by simp [Message.type, neigh, new]
    refine ⟨(delNeigh lookup info).2, fun buffer buflen s reads clear _ => ?_⟩
    obtain ⟨info', run, holds'⟩ := decodeRtmNeigh_holds reads neigh _ clear.localAddr clear.lladdrHwaddr
    have same_meta := holds'.metainfo.trans holds.metainfo.symm
    rw [type, handle_delNeigh, run]
    refine ⟨_, _, rfl, ?_, ⟨clear.1, fun none_of => holds'.localAddr.clear none_of,
      fun none_of => holds'.lladdrHwaddr.clear none_of, clear.4, clear.5⟩, .inl ?_, .inl⟩
    · simp [delNeigh, same_meta, eventData_same neigh readable holds' holds]
    · simp [delNeigh, named, all]

theorem newRoute_next (info : RouteInfo) (mask : UInt32) : (newRoute lookup info mask).2.1 = .next := by
  simp only [newRoute, named, all, if_true]
  split_ifs <;> rfl

theorem delRoute_next (info : RouteInfo) (mask : UInt32) : (delRoute lookup info mask).2.1 = .next := by
  simp only [delRoute, named, all, if_true]
  split_ifs <;> rfl

theorem route_posts (route : m.kind = .route) (readable : m.Readable) {info : RouteInfo}
    (holds : RouteHolds m info) : ∃ events, m.Posts lookup events := by
  -- both decode the same attributes; they differ in the mask they leave behind
  cases new : m.isNew with
  | true =>
    have type : m.type = rtmNewRoute := by simp [Message.type, route, new]
    refine ⟨(newRoute lookup info 0).2.2, fun buffer buflen s reads clear fresh => ?_⟩
    have fresh : s.ifIpipv4AddrMask = 0 := fresh.resolve_right fun other => other type
    obtain ⟨info', run, holds'⟩ := decodeRtmRoute_holds reads route _ clear.dstAddr clear.oifIndex
    rw [type, handle_newRoute, run]
    refine ⟨_, _, rfl, ?_, ⟨clear.1, clear.2, clear.3, fun none_of => holds'.dstAddr.clear none_of,
      fun none_of => holds'.oifIndex.clear none_of⟩, .inl (newRoute_next all _ _), fun _ => .inl ?_⟩
    · simp [fresh, newRoute_same route readable holds' holds]
    · -- the mask is taken from a destination that no attribute has set
      simp only [newRoute, fresh]
      split
      next unset =>
        have none_of : lastOf rtaDst m.body.attrs = none := by
          have dst := holds'.dst
          rw [Settled] at dst
          cases last : lastOf rtaDst m.body.attrs with
          | none => rfl
          | some a =>
            rw [last] at dst
            obtain ⟨-, member⟩ := dst
            exact absurd (by simpa using member) unset.2.1
        rw [holds'.dstAddr.clear none_of]
        rfl
      next => rfl
  | false =>
    have type : m.type = rtmDelRoute := by simp [Message.type, route, new]
    refine ⟨(delRoute lookup info 0).2.2, fun buffer buflen s reads clear _ => ?_⟩
    obtain ⟨info', run, holds'⟩ := decodeRtmRoute_holds reads route _ clear.dstAddr clear.oifIndex
    rw [type, handle_delRoute, run]
    refine ⟨_, _, rfl, ?_, ⟨clear.1, clear.2, clear.3, fun none_of => holds'.dstAddr.clear none_of,
      fun none_of => holds'.oifIndex.clear none_of⟩, .inl (delRoute_next all _ _), fun was => ?_⟩
    · simp [delRoute_same route readable holds' holds s.ifIpipv4AddrMask 0]
    · simp only [delRoute, was]
      split
      next host =>
        refine .inr ⟨type, holds'.metainfo ▸ host.1, ?_⟩
        by_contra none_of
        have dst := holds'.dst.clear (by simpa using none_of)
        simp [host.2.1] at dst
      next => exact .inl rfl

/-- A message that can be read posts the same events wherever the decoders find it. -/
theorem posts_of_readable (readable : m.Readable) : ∃ events, m.Posts lookup events := by
  have alone : m.ReadAt (place (datagramBytes [m]) fun _ => 0) m.len := by
    refine readAt_datagram rfl (by simp) (Nat.le_refl _) (.inl ⟨?_, fun _ => ?_⟩)
    · simp [datagramBytes, m.bytes_length]
    · simp [rtaOk, rtaLen, Mem.u16, rtattrSize]
  cases kind : m.kind with
  | link => exact link_posts all kind
  | addr =>
    obtain ⟨info, -, holds⟩ := decodeRtmAddr_holds alone kind {} fun _ => rfl
    exact addr_posts kind readable holds
  | neigh =>
    obtain ⟨info, -, holds⟩ := decodeRtmNeigh_holds alone kind {} (fun _ => rfl) fun _ => rfl
    exact neigh_posts all kind readable holds
  | route =>
    obtain ⟨info, -, holds⟩ := decodeRtmRoute_holds alone kind {} (fun _ => rfl) fun _ => rfl
    exact route_posts all kind readable holds

end Posting

/-! ### Many messages -/

/-- The decoders find the body of every message of the rest of a datagram from where the loop is. -/
def ReadAll (buffer : Mem) : List Message → Prop
  | [] => True
  | m :: ms => m.ReadAt buffer (datagramBytes (m :: ms)).length ∧ ReadAll buffer ms

/-- What may come behind a message that is not decoded from its own bytes. -/
def Message.Before (m m' : Message) : Prop :=
  m'.body = m.body ∧ ¬ m.IsBridge ∧ (m.IsHostRouteDel → m'.type ≠ rtmNewRoute)

theorem nlmsgLoop_posts {lookup : Lookup} (events : Message → List Event) (buffer tail : Mem)
    (attrs : List Attr) (ms : List Message) : ∀ (fuel : Nat) (s : Run),
    (datagramBytes ms).length < fuel → (∀ m ∈ ms, m.len < 65536) → ReadAll buffer ms →
    (∀ m ∈ ms, m.Posts lookup (events m)) → (∀ m ∈ ms, m.body.attrs = attrs) →
    ms.Pairwise Message.Before → s.Clear attrs → (s.ifIpipv4AddrMask = 0 ∨ ∀ m ∈ ms, m.type ≠ rtmNewRoute) →
    ∃ s', nlmsgLoop lookup buffer fuel (place (datagramBytes ms) tail) (datagramBytes ms).length s =
      some (true, s') ∧ s'.posted = s.posted ++ ms.flatMap events := by
  -- over the messages; what one leaves for the next is in `Clear` and the mask
  induction ms with
  | nil =>
    intro fuel s enough _ _ _ _ _ _ _
    obtain ⟨fuel, rfl⟩ := Nat.exists_eq_add_one_of_ne_zero (Nat.ne_zero_of_lt enough)
    exact ⟨s, by simp [nlmsgLoop, nlmsgOk, datagramBytes, nlmsghdrSize], by simp⟩
  | cons m ms ih =>
    intro fuel s enough small reads posts bodies before clear fresh
    obtain ⟨reads_m, reads⟩ := reads
    obtain ⟨before_m, before⟩ := List.pairwise_cons.mp before
    have small_m := small m (by simp)
    have body := bodies m (by simp)
    obtain ⟨fuel, rfl⟩ := Nat.exists_eq_add_one_of_ne_zero (Nat.ne_zero_of_lt enough)
    obtain ⟨flow, s₁, handled, posted, clear₁, flows, fresh₁⟩ :=
      posts m (by simp) buffer _ s reads_m (body ▸ clear) (fresh.imp_right fun none_of => none_of m (by simp))
    have total : (datagramBytes (m :: ms)).length = m.len + (datagramBytes ms).length := by
      rw [datagramBytes_cons, List.length_append, m.bytes_length]
    -- the header that the loop reads is that of `m`, and the next one lies behind it
    have ok : nlmsgOk (place (datagramBytes (m :: ms)) tail) (datagramBytes (m :: ms)).length = true := by
      have := m.header_lt_len
      simp only [nlmsgOk, datagramBytes_cons, place_append, m.nlmsgLen_place _ small_m, Bool.and_eq_true,
        decide_eq_true_eq, List.length_append, m.bytes_length]
      simp only [Message.len, nlmsghdrSize]
      omega
    have type : nlmsgType (place (datagramBytes (m :: ms)) tail) = m.type := by
      rw [datagramBytes_cons, place_append, m.nlmsgType_place]
    have len : align (nlmsgLen (place (datagramBytes (m :: ms)) tail)) = m.len := by
      rw [datagramBytes_cons, place_append, m.nlmsgLen_place _ small_m, align_of_dvd m.len_mod]
    rcases flows with rfl | ⟨rfl, bridge⟩
    · have behind : (place (datagramBytes (m :: ms)) tail).drop m.len = place (datagramBytes ms) tail := by
        rw [datagramBytes_cons, place_append, drop_place_of_length m.bytes_length]
      have fresh' : s₁.ifIpipv4AddrMask = 0 ∨ ∀ m' ∈ ms, m'.type ≠ rtmNewRoute := by
        rcases fresh with zero | none_of
        · exact (fresh₁ zero).imp_right fun host m' member => (before_m m' member).2.2 host
        · exact .inr fun m' member => none_of m' (by simp [member])
      have positive := m.header_lt_len
      obtain ⟨s', runs, posted'⟩ := ih fuel s₁ (by omega) (fun m' member => small m' (by simp [member]))
        reads (fun m' member => posts m' (by simp [member])) (fun m' member => bodies m' (by simp [member]))
        before (body ▸ clear₁) fresh'
      refine ⟨s', ?_, by simp [posted', posted]⟩
      rw [nlmsgLoop, if_pos ok, type, handled, len]
      simp only
      rw [if_pos (by omega), behind, total, Nat.add_sub_cancel_left, runs]
    · -- nothing comes behind a bridge's message
      have last : ms = [] := by
        cases ms with
        | nil => rfl
        | cons m' ms => exact absurd bridge (before_m m' (by simp)).2.1
      subst last
      refine ⟨s₁, ?_, by simp [posted]⟩
      rw [nlmsgLoop, if_pos ok, type, handled]

/-! ### The datagram -/

/-- The events that a datagram posts, with `tail` behind it in the receive buffer. -/
def postedBy (lookup : Lookup) (ms : List Message) (tail : Mem) : Option (List Event) :=
  (ipaNlDecodeNlmsg lookup (place (datagramBytes ms) tail) (datagramBytes ms).length {}).map (·.2.posted)

theorem readAll_later {first : Message} {rest : List Message} {tail : Mem}
    (small : ∀ m ∈ rest, m.len < 65536) (ms : List Message) :
    (datagramBytes ms).length ≤ (datagramBytes rest).length → (∀ m ∈ ms, first.body = m.body) →
    ReadAll (place (datagramBytes (first :: rest)) tail) ms := by
  induction ms with
  | nil => exact fun _ _ => trivial
  | cons m ms ih =>
    intro inside like
    have total : (datagramBytes (m :: ms)).length = m.len + (datagramBytes ms).length := by
      rw [datagramBytes_cons, List.length_append, m.bytes_length]
    exact ⟨readAt_datagram (like m (by simp)) small (by omega) (.inr inside),
      ih (by omega) fun m' member => like m' (by simp [member])⟩

theorem postedBy_eq {lookup : Lookup} {events : Message → List Event} {ms : List Message} {tail : Mem}
    (small : ∀ m ∈ ms, m.len < 65536) (quiet : ∀ m ∈ ms.head?, m.Quiet tail)
    (posts : ∀ m ∈ ms, m.Posts lookup (events m)) (before : ms.Pairwise Message.Before) :
    postedBy lookup ms tail = some (ms.flatMap events) := by
  have finish : ∀ attrs, ReadAll (place (datagramBytes ms) tail) ms → (∀ m ∈ ms, m.body.attrs = attrs) →
      postedBy lookup ms tail = some (ms.flatMap events) := by
    intro attrs reads bodies
    obtain ⟨s', runs, posted⟩ := nlmsgLoop_posts events (place (datagramBytes ms) tail) tail attrs ms
      _ {} (Nat.lt_succ_self _) small reads posts bodies before (Run.clear_init attrs) (.inl rfl)
    simp only [postedBy, ipaNlDecodeNlmsg, runs, Option.map_some, posted]
    rfl
  cases ms with
  | nil => exact finish [] trivial (by simp)
  | cons first rest =>
    obtain ⟨before_first, -⟩ := List.pairwise_cons.mp before
    have like : ∀ m ∈ rest, first.body = m.body := fun m member => (before_first m member).1.symm
    have small_rest : ∀ m ∈ rest, m.len < 65536 := fun m member => small m (by simp [member])
    refine finish first.body.attrs ⟨?_, readAll_later small_rest rest (Nat.le_refl _) like⟩ ?_
    · refine readAt_datagram rfl small_rest ?_ (.inl ⟨rfl, quiet first (by simp)⟩)
      rw [datagramBytes_cons, List.length_append, first.bytes_length]
      omega
    · intro m member
      rcases List.mem_cons.mp member with rfl | later
      · rfl
      · rw [like m later]

/-- `IPA_NL_MSG_MAX_LEN` -/
def ipaNlMsgMaxLen : Nat := 2048

theorem len_le_datagram {m : Message} {ms : List Message} (member : m ∈ ms) :
    m.len ≤ (datagramBytes ms).length := by
  induction ms with
  | nil => simp at member
  | cons first ms ih =>
    rw [datagramBytes_cons, List.length_append, first.bytes_length]
    rcases List.mem_cons.mp member with rfl | later
    · omega
    · have := ih later
      omega

/-- A datagram posts what its messages post alone, one after the other, when the messages that
follow another one carry its body, and nothing that decides the events is read from behind an
attribute or behind the datagram. -/
theorem datagram_posts_its_messages (lookup : Lookup) (all : ∀ i, lookup i = true)
    (received : List (Message × Mem)) (tail : Mem)
    (fits : (datagramBytes (received.map Prod.fst)).length ≤ ipaNlMsgMaxLen)
    (before : (received.map Prod.fst).Pairwise Message.Before)
    (readable : ∀ r ∈ received, r.1.Readable) (quiet : ∀ m ∈ (received.map Prod.fst).head?, m.Quiet tail)
    (quiet_alone : ∀ r ∈ received, r.1.Quiet r.2) :
    ∃ alone, received.mapM (fun r => postedBy lookup [r.1] r.2) = some alone ∧
      postedBy lookup (received.map Prod.fst) tail = some alone.flatten := by
  have small : ∀ m ∈ received.map Prod.fst, m.len < 65536 := fun m member =>
    Nat.lt_of_le_of_lt (len_le_datagram member) (Nat.lt_of_le_of_lt fits (by decide))
  classical
  let events : Message → List Event := fun m =>
    if readable : m.Readable then (posts_of_readable all readable).choose else []
  have posts : ∀ m ∈ received.map Prod.fst, m.Posts lookup (events m) := by
    intro m member
    obtain ⟨r, received, rfl⟩ := List.mem_map.mp member
    simp only [events, dif_pos (readable r received)]
    exact (posts_of_readable all (readable r received)).choose_spec
  have one : ∀ r ∈ received, postedBy lookup [r.1] r.2 = some (events r.1) := by
    intro r member
    have listed : r.1 ∈ received.map Prod.fst := List.mem_map_of_mem member
    have run : postedBy lookup [r.1] r.2 = some ([r.1].flatMap events) :=
      postedBy_eq (by simpa using small _ listed) (by simpa using quiet_alone r member)
        (by simpa using posts _ listed) (by simp)
    simpa using run
  refine ⟨received.map fun r => events r.1, ?_, ?_⟩
  · clear small posts before quiet fits
    induction received with
    | nil => rfl
    | cons r received ih =>
      rw [List.mapM_cons, one r (by simp), ih (fun r member => readable r (by simp [member]))
        (fun r member => quiet_alone r (by simp [member])) fun r member => one r (by simp [member])]
      rfl
  · rw [postedBy_eq small quiet posts before, List.flatMap_def, List.map_map]
    rfl

/-! ### Samples -/

/-- A neighbour of interface 3 with address 10.0.0.2. -/
def sampleNeigh (isNew : Bool) : Message where
  kind := .neigh
  isNew := isNew
  body := {
    header := [2, 0, 0, 0, 3, 0, 0, 0, 2, 0, 0, 0]
    attrs := [{ type := ndaDst, data := [10, 0, 0, 2], typed := by decide, fits := by decide },
      { type := ndaLladdr, data := [2, 4, 6, 8, 10, 12], typed := by decide, fits := by decide }] }
  sized := rfl

theorem sampleNeigh_readable (isNew : Bool) : (sampleNeigh isNew).Readable := by
  simp [Message.Readable, sampleNeigh, ndaDst, ndaLladdr, addrSize, Message.content, Body.bytes, place, afInet6]

theorem datagram_posts_its_messages_sample :
    ∃ alone, [(sampleNeigh true, fun _ => 0), (sampleNeigh false, fun _ => 0)].mapM
        (fun r : Message × Mem => postedBy (fun _ => true) [r.1] r.2) = some alone ∧
      postedBy (fun _ => true) [sampleNeigh true, sampleNeigh false] (fun _ => 0) = some alone.flatten :=
  datagram_posts_its_messages (fun _ => true) (fun _ => rfl)
    [(sampleNeigh true, fun _ => 0), (sampleNeigh false, fun _ => 0)] (fun _ => 0) (by decide)
    (by simp [Message.Before, Message.IsBridge, Message.IsHostRouteDel, sampleNeigh, Message.type,
      rtmNewNeigh, rtmDelRoute])
    (by simp [sampleNeigh_readable]) (by simp [Message.Quiet, rtaOk, rtaLen, Mem.u16, rtattrSize])
    (by simp [Message.Quiet, rtaOk, rtaLen, Mem.u16, rtattrSize])

/-- Interface `index` has come up. -/
def sampleLinkUp (index : UInt8) : Message where
  kind := .link
  isNew := true
  body := { header := [0, 0, 1, 0, index, 0, 0, 0, 1, 0, 1, 0, 1, 0, 0, 0], attrs := [] }
  sized := rfl

/-- Two interfaces come up in one datagram: the first one is announced twice. -/
theorem second_link_read_as_first :
    ¬ ∀ ms : List Message, (datagramBytes ms).length ≤ ipaNlMsgMaxLen → (∀ m ∈ ms, m.Readable) →
      ∃ alone, ms.mapM (fun m => postedBy (fun _ => true) [m] fun _ => 0) = some alone ∧
        postedBy (fun _ => true) ms (fun _ => 0) = some alone.flatten := by
  intro always
  obtain ⟨alone, each, whole⟩ := always [sampleLinkUp 1, sampleLinkUp 2] (by decide)
    (by simp [Message.Readable, sampleLinkUp])
  have each' : [sampleLinkUp 1, sampleLinkUp 2].mapM
      (fun m => postedBy (fun _ => true) [m] fun _ => 0) = some [[.linkUp 1], [.linkUp 2]] := by decide
  have whole' : postedBy (fun _ => true) [sampleLinkUp 1, sampleLinkUp 2] (fun _ => 0) =
      some [.linkUp 1, .linkUp 1] := by decide
  rw [each'] at each
  obtain rfl := Option.some.inj each
  simp [whole'] at whole

end Hima.Netlink
