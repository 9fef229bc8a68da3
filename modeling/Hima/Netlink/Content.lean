import Hima.Netlink.Messages

/-!
# What a decoder finds

The result structures after decoding a message hold its content: of each attribute the last one of
its type. Bytes copied from behind an attribute's data are not part of it.
-/
namespace Hima.Netlink

open Bytes

/-- The attribute of a type that is handled last. -/
def lastOf (type : Nat) (attrs : List Attr) : Option Attr := attrs.reverse.find? (·.type = type)

theorem lastOf_cons (type : Nat) (a : Attr) (attrs : List Attr) :
    lastOf type (a :: attrs) = (lastOf type attrs).or (if a.type = type then some a else none) := by
  by_cases this : a.type = type <;> simp [lastOf, this]

theorem lastOf_mem {type : Nat} {attrs : List Attr} {a : Attr} (last : lastOf type attrs = some a) :
    a ∈ attrs ∧ a.type = type :=
  ⟨by simpa using List.mem_of_find?_eq_some last, by simpa using List.find?_some last⟩

section Settling

variable {S F G : Type}

/-- A field after the attributes: as it was when none is of the type, and else made from the last. -/
def Settled (type : Nat) (attrs : List Attr) (make : Mem → F) (old new : F) : Prop :=
  match lastOf type attrs with
  | none => new = old
  | some a => ∃ rest, new = make (place a.data rest)

theorem settled_views {handle : Nat → Mem → S → S} (field : S → F) {make : Mem → F} {P : S → Prop}
    {type : Nat} (keeps : ∀ type data s, P s → P (handle type data s))
    (sets : ∀ data s, P s → field (handle type data s) = make data)
    (skips : ∀ other data s, other ≠ type → field (handle other data s) = field s)
    (attrs : List Attr) (rest : Mem) : ∀ s, P s → Settled type attrs make (field s)
      (field ((views attrs rest).foldl (fun s view => handle view.1 view.2 s) s)) := by
  induction attrs with
  | nil => exact fun s _ => rfl
  | cons a attrs ih =>
    intro s holds
    have later := ih _ (keeps a.type (place a.data (place a.padding (place (attrBytes attrs) rest))) s holds)
    rw [Settled, lastOf_cons]
    rw [Settled] at later
    cases last : lastOf type attrs with
    | some b => rw [last] at later; exact later
    | none =>
      rw [last] at later
      rw [views, List.foldl_cons, later]
      by_cases this : a.type = type
      · subst this
        rw [if_pos rfl]
        exact ⟨_, sets _ s holds⟩
      · rw [if_neg this]
        exact skips _ _ s this

theorem views_keep {handle : Nat → Mem → S → S} {P : S → Prop}
    (keeps : ∀ type data s, P s → P (handle type data s)) (attrs : List Attr) (rest : Mem) :
    ∀ s, P s → P ((views attrs rest).foldl (fun s view => handle view.1 view.2 s) s) := by
  induction attrs with
  | nil => exact fun s holds => holds
  | cons a attrs ih => exact fun s holds => ih _ (keeps a.type _ s holds)

/-- A field that was clear unless the attributes set it settles as if it had been clear. -/
theorem Settled.of_clear {type : Nat} {attrs : List Attr} {make : Mem → F} {old new clear : F}
    (settled : Settled type attrs make old new) (was : lastOf type attrs = none → old = clear) :
    Settled type attrs make clear new := by
  rw [Settled] at settled ⊢
  cases last : lastOf type attrs with
  | none => rw [last] at settled; exact settled.trans (was last)
  | some a => rw [last] at settled; exact settled

theorem Settled.clear {type : Nat} {attrs : List Attr} {make : Mem → F} {clear new : F}
    (settled : Settled type attrs make clear new) (none_of : lastOf type attrs = none) : new = clear := by
  rw [Settled, none_of] at settled
  exact settled

/-- Two fields settled by the same attributes look the same to a reader of the attributes' data. -/
theorem Settled.same {type : Nat} {attrs : List Attr} {make : Mem → F} {clear x y : F}
    (settled_x : Settled type attrs make clear x) (settled_y : Settled type attrs make clear y)
    (read : F → G) (inside : ∀ a ∈ attrs, a.type = type → ∀ rest rest' : Mem,
      read (make (place a.data rest)) = read (make (place a.data rest'))) : read x = read y := by
  rw [Settled] at settled_x settled_y
  cases last : lastOf type attrs with
  | none =>
    rw [last] at settled_x settled_y
    rw [settled_x, settled_y]
  | some a =>
    rw [last] at settled_x settled_y
    obtain ⟨rest, rfl⟩ := settled_x
    obtain ⟨rest', rfl⟩ := settled_y
    obtain ⟨member, typed⟩ := lastOf_mem last
    exact inside a member typed rest rest'

end Settling

/-! ### Reading a message -/

/-- The decoders find the body of the message behind the header of `buffer`, and their walk ends
with its attributes. -/
def Message.ReadAt (m : Message) (buffer : Mem) (buflen : Nat) : Prop :=
  ∃ after, nlmsgData buffer = place m.body.bytes after ∧
    (m.kind ≠ .link → ∀ (S : Type) (handle : Nat → Mem → S → S), (∀ data s, handle 0 data s = s) → ∀ s,
      walkAttributes handle (buflen - nlmsghdrSize + 1)
          ((nlmsgData buffer).drop m.kind.headerSize) (buflen - nlmsghdrSize) s =
        some ((views m.body.attrs after).foldl (fun s view => handle view.1 view.2 s) s))

/-- The bytes behind the datagram do not go on as an attribute of the message, whose family header is
not subtracted from the length. -/
def Message.Quiet (m : Message) (tail : Mem) : Prop :=
  m.kind ≠ .link → rtaOk tail m.kind.headerSize = false

/-- In a datagram the first message is read, as long as its length is left: from the start with the
bytes behind the datagram in reach, later in front of them. -/
theorem readAt_datagram {m first : Message} {rest : List Message} {tail : Mem} {buflen : Nat}
    (like : first.body = m.body) (small : ∀ m' ∈ rest, m'.len < 65536) (long : m.len ≤ buflen)
    (left : buflen = (datagramBytes (first :: rest)).length ∧ m.Quiet tail ∨
      buflen ≤ (datagramBytes rest).length) :
    m.ReadAt (place (datagramBytes (first :: rest)) tail) buflen := by
  have data : nlmsgData (place (datagramBytes (first :: rest)) tail) =
      place m.body.bytes (place (datagramBytes rest) tail) := by
    rw [datagramBytes_cons, place_append, first.nlmsgData_place, like]
  refine ⟨_, data, fun walked S handle ignores s => ?_⟩
  have total : (datagramBytes (first :: rest)).length = m.len + (datagramBytes rest).length := by
    rw [datagramBytes_cons, List.length_append, first.bytes_length, Message.len, like, Message.len]
  have len : m.len = nlmsghdrSize + m.kind.headerSize + (attrBytes m.body.attrs).length := by
    rw [Message.len, Body.bytes, List.length_append, m.sized, Nat.add_assoc]
  have split : buflen - nlmsghdrSize = (attrBytes m.body.attrs).length +
      (buflen - nlmsghdrSize - (attrBytes m.body.attrs).length) := by omega
  obtain ⟨fuel, enough, walks⟩ := walk_attributes handle m.body.attrs (place (datagramBytes rest) tail)
    (buflen - nlmsghdrSize - (attrBytes m.body.attrs).length) (buflen - nlmsghdrSize + 1) s (by omega)
  rw [data, Body.bytes, place_append, drop_place_of_length m.sized]
  rw [← split] at walks
  rw [walks]
  refine walk_messages ignores _ tail rest _ fuel small enough fun past => ?_
  rcases left with ⟨whole, quiet⟩ | later
  · -- with the whole datagram left, the header of the family is not subtracted
    rw [show buflen - nlmsghdrSize - (attrBytes m.body.attrs).length - (datagramBytes rest).length =
      m.kind.headerSize by omega]
    exact quiet walked
  · have : 0 < nlmsghdrSize := by decide
    omega

/-! ### Headers -/

/-- The body with nothing behind it. -/
def Message.content (m : Message) : Mem := place m.body.bytes fun _ => 0

theorem Message.content_inside (m : Message) (after : Mem) {i : Nat} (inside : i < m.kind.headerSize) :
    place m.body.bytes after i = m.content i := by
  refine place_inside_congr _ _ ?_
  rw [Body.bytes, List.length_append, m.sized]
  omega

theorem ifInfoMsg_congr {data data' : Mem} (same : ∀ i < 16, data i = data' i) :
    ifInfoMsg data = ifInfoMsg data' := by
  simp only [ifInfoMsg, same 0 (by omega), Mem.u32_congr (n := 4) fun i below => same i (by omega),
    Mem.u32_congr (n := 8) fun i below => same i (by omega), Mem.u32_congr (n := 12) same]

theorem ifAddrMsg_congr {data data' : Mem} (same : ∀ i < 8, data i = data' i) :
    ifAddrMsg data = ifAddrMsg data' := by
  simp only [ifAddrMsg, same 0 (by omega), Mem.u32_congr (n := 4) same]

theorem ndMsg_congr {data data' : Mem} (same : ∀ i < 12, data i = data' i) :
    ndMsg data = ndMsg data' := by
  simp only [ndMsg, same 0 (by omega), Mem.u32_congr (n := 4) fun i below => same i (by omega)]

theorem rtMsg_congr {data data' : Mem} (same : ∀ i < 12, data i = data' i) :
    rtMsg data = rtMsg data' := by
  simp only [rtMsg, same 0 (by omega), same 1 (by omega), same 4 (by omega), same 5 (by omega),
    same 6 (by omega), same 7 (by omega)]

/-! ### Infos -/

/-- The address made from an attribute. -/
def addrOf (family : UInt8) (data : Mem) : SockaddrStorage := { ssFamily := family, data := data }

structure AddrHolds (m : Message) (info : AddrInfo) : Prop where
  metainfo : info.metainfo = ifAddrMsg m.content
  prefixAddr : Settled ifaAddress m.body.attrs (addrOf info.metainfo.family) {} info.prefixAddr

structure NeighHolds (m : Message) (info : NeighInfo) : Prop where
  metainfo : info.metainfo = ndMsg m.content
  localAddr : Settled ndaDst m.body.attrs (addrOf info.metainfo.family) {} info.localAddr
  lladdrHwaddr : Settled ndaLladdr m.body.attrs id (fun _ => 0) info.lladdrHwaddr

structure RouteHolds (m : Message) (info : RouteInfo) : Prop where
  metainfo : info.metainfo = rtMsg m.content
  dst : Settled rtaDst m.body.attrs (fun _ => true) false (decide (.dst ∈ info.paramMask))
  gateway : Settled rtaGateway m.body.attrs (fun _ => true) false (decide (.gateway ∈ info.paramMask))
  dstAddr : Settled rtaDst m.body.attrs (addrOf info.metainfo.family) {} info.dstAddr
  oifIndex : Settled rtaOif m.body.attrs (fun data => (data.u32 0).toUInt32) 0 info.oifIndex

section Decoding

variable {m : Message} {buffer : Mem} {buflen : Nat}

theorem decodeRtmLink_reads (reads : m.ReadAt buffer buflen) (link : m.kind = .link) :
    ipaNlDecodeRtmLink buffer = ifInfoMsg m.content := by
  obtain ⟨after, data, -⟩ := reads
  rw [ipaNlDecodeRtmLink, data]
  exact ifInfoMsg_congr fun i below => m.content_inside after (by rw [link]; exact below)

theorem decodeRtmAddr_holds (reads : m.ReadAt buffer buflen) (addr : m.kind = .addr) (info : AddrInfo)
    (clear : lastOf ifaAddress m.body.attrs = none → info.prefixAddr = {}) :
    ∃ info', ipaNlDecodeRtmAddr buffer buflen info = some info' ∧ AddrHolds m info' := by
  obtain ⟨after, data, walks⟩ := reads
  have header : ({ info with metainfo := ifAddrMsg (nlmsgData buffer), hasPrefixAddr := false } : AddrInfo).metainfo = ifAddrMsg m.content := by
    simp only [data]
    exact ifAddrMsg_congr fun i below => m.content_inside after (by rw [addr]; exact below)
  have run := walks (by simp [addr]) AddrInfo addrAttribute (fun _ _ => rfl)
    { info with metainfo := ifAddrMsg (nlmsgData buffer), hasPrefixAddr := false }
  rw [addr] at run
  have keeps : ∀ type data (info : AddrInfo), info.metainfo = ifAddrMsg m.content →
      (addrAttribute type data info).metainfo = ifAddrMsg m.content := by
    intro type data info same
    simp only [addrAttribute]
    split <;> exact same
  have metainfo := views_keep keeps m.body.attrs after _ header
  refine ⟨_, run, metainfo, Settled.of_clear ?_ clear⟩
  rw [metainfo]
  refine settled_views AddrInfo.prefixAddr keeps (fun data info same => ?_)
    (fun type data info other => ?_) m.body.attrs after _ header
  · rw [← same]
    rfl
  · simp [addrAttribute, other]

theorem decodeRtmNeigh_holds (reads : m.ReadAt buffer buflen) (neigh : m.kind = .neigh) (info : NeighInfo)
    (clear : lastOf ndaDst m.body.attrs = none → info.localAddr = {})
    (clear_mac : lastOf ndaLladdr m.body.attrs = none → info.lladdrHwaddr = fun _ => 0) :
    ∃ info', ipaNlDecodeRtmNeigh buffer buflen info = some info' ∧ NeighHolds m info' := by
  obtain ⟨after, data, walks⟩ := reads
  have header : ({ info with metainfo := ndMsg (nlmsgData buffer) } : NeighInfo).metainfo = ndMsg m.content := by
    simp only [data]
    exact ndMsg_congr fun i below => m.content_inside after (by rw [neigh]; exact below)
  have run := walks (by simp [neigh]) NeighInfo neighAttribute (fun _ _ => rfl)
    { info with metainfo := ndMsg (nlmsgData buffer) }
  rw [neigh] at run
  have keeps : ∀ type data (info : NeighInfo), info.metainfo = ndMsg m.content →
      (neighAttribute type data info).metainfo = ndMsg m.content := by
    intro type data info same
    simp only [neighAttribute]
    split_ifs <;> exact same
  have metainfo := views_keep keeps m.body.attrs after _ header
  refine ⟨_, run, metainfo, Settled.of_clear ?_ clear, Settled.of_clear ?_ clear_mac⟩
  · rw [metainfo]
    refine settled_views NeighInfo.localAddr keeps (fun data info same => ?_)
      (fun type data info other => ?_) m.body.attrs after _ header
    · rw [← same]
      rfl
    · simp only [neighAttribute, if_neg other]
      split <;> rfl
  · refine settled_views NeighInfo.lladdrHwaddr keeps (fun data info same => ?_)
      (fun type data info other => ?_) m.body.attrs after _ header
    · rfl
    · simp only [neighAttribute, if_neg other]
      split <;> rfl

theorem decodeRtmRoute_holds (reads : m.ReadAt buffer buflen) (route : m.kind = .route) (info : RouteInfo)
    (clear : lastOf rtaDst m.body.attrs = none → info.dstAddr = {})
    (clear_oif : lastOf rtaOif m.body.attrs = none → info.oifIndex = 0) :
    ∃ info', ipaNlDecodeRtmRoute buffer buflen info = some info' ∧ RouteHolds m info' := by
  obtain ⟨after, data, walks⟩ := reads
  have header : ({ info with metainfo := rtMsg (nlmsgData buffer), paramMask := ∅ } : RouteInfo).metainfo = rtMsg m.content := by
    simp only [data]
    exact rtMsg_congr fun i below => m.content_inside after (by rw [route]; exact below)
  have run := walks (by simp [route]) RouteInfo routeAttribute (fun _ _ => rfl)
    { info with metainfo := rtMsg (nlmsgData buffer), paramMask := ∅ }
  rw [route] at run
  -- no attribute touches the header, and each field has one that writes it
  have keeps : ∀ type data (info : RouteInfo), info.metainfo = rtMsg m.content →
      (routeAttribute type data info).metainfo = rtMsg m.content := by
    intro type data info same
    simp only [routeAttribute]
    split_ifs <;> exact same
  have metainfo := views_keep keeps m.body.attrs after _ header
  refine ⟨_, run, metainfo, ?_, ?_, Settled.of_clear ?_ clear, Settled.of_clear ?_ clear_oif⟩
  · refine settled_views (fun info : RouteInfo => decide (.dst ∈ info.paramMask)) keeps
      (fun data info same => ?_) (fun type data info other => ?_) m.body.attrs after _ header
    · simp [routeAttribute]
    · simp only [routeAttribute, if_neg other]
      split_ifs <;> simp
  · refine settled_views (fun info : RouteInfo => decide (.gateway ∈ info.paramMask)) keeps
      (fun data info same => ?_) (fun type data info other => ?_) m.body.attrs after _ header
    · simp [routeAttribute, rtaGateway, rtaDst, rtaSrc]
    · simp only [routeAttribute, if_neg other]
      split_ifs <;> simp
  · rw [metainfo]
    refine settled_views RouteInfo.dstAddr keeps (fun data info same => ?_)
      (fun type data info other => ?_) m.body.attrs after _ header
    · rw [← same]
      rfl
    · simp only [routeAttribute, if_neg other]
      split_ifs <;> rfl
  · refine settled_views RouteInfo.oifIndex keeps (fun data info same => ?_)
      (fun type data info other => ?_) m.body.attrs after _ header
    · rfl
    · simp only [routeAttribute, if_neg other]
      split_ifs <;> rfl

end Decoding

end Hima.Netlink
