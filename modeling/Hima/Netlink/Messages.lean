import Hima.Netlink.Nlmsg

/-!
# Well-formed netlink messages

Messages with their header, the header of their family and their attributes, as the kernel lays
them out. A walk over the attributes of a message sees them in order; the messages behind it look
like attributes of type 0.
-/
namespace Hima.Netlink

open Bytes

theorem align_of_dvd {n : Nat} (aligned : n % 4 = 0) : align n = n := by
  simp only [align]
  omega

theorem align_mod (n : Nat) : align n % 4 = 0 := by
  simp only [align]
  omega

theorem le_align (n : Nat) : n ≤ align n := by
  simp only [align]
  omega

/-! ### Attributes -/

structure Attr where
  type : Nat
  data : List UInt8
  typed : type < 65536
  fits : rtattrSize + data.length < 65536

def Attr.len (a : Attr) : Nat := rtattrSize + a.data.length

def Attr.padding (a : Attr) : List UInt8 := List.replicate (align a.len - a.len) 0

def Attr.bytes (a : Attr) : List UInt8 := (le16 a.len ++ le16 a.type) ++ (a.data ++ a.padding)

theorem Attr.bytes_length (a : Attr) : a.bytes.length = align a.len := by
  have := le_align a.len
  simp only [Attr.bytes, Attr.padding, List.length_append, List.length_replicate, le16_length]
  simp only [Attr.len, rtattrSize] at *
  omega

def attrBytes (attrs : List Attr) : List UInt8 := attrs.flatMap Attr.bytes

@[simp] theorem attrBytes_cons (a : Attr) (attrs : List Attr) :
    attrBytes (a :: attrs) = a.bytes ++ attrBytes attrs := List.flatMap_cons

theorem attrBytes_mod (attrs : List Attr) : (attrBytes attrs).length % 4 = 0 := by
  induction attrs with
  | nil => rfl
  | cons a attrs ih =>
    have := align_mod a.len
    rw [attrBytes_cons, List.length_append, Attr.bytes_length]
    omega

section Reading

variable (a : Attr) (rest : Mem)

theorem Attr.rtaLen_place : rtaLen (place a.bytes rest) = a.len := by
  rw [Attr.bytes, place_append, place_append]
  exact u16_place_le16 a.fits _

theorem Attr.rtaType_place : rtaType (place a.bytes rest) = a.type := by
  have behind : rtaType (place a.bytes rest) = ((place a.bytes rest).drop 2).u16 0 := by
    simp [rtaType, Mem.u16, Mem.drop]
  rw [behind, Attr.bytes, place_append, place_append, drop_place_of_length (le16_length _)]
  exact u16_place_le16 a.typed _

theorem Attr.rtaData_place : rtaData (place a.bytes rest) = place a.data (place a.padding rest) := by
  have header : (le16 a.len ++ le16 a.type).length = rtattrSize := rfl
  rw [rtaData, Attr.bytes, place_append, drop_place_of_length header, place_append]

end Reading

/-- What the handler of a walk is given for each attribute. -/
def views : List Attr → Mem → List (Nat × Mem)
  | [], _ => []
  | a :: attrs, rest =>
    (a.type, place a.data (place a.padding (place (attrBytes attrs) rest))) :: views attrs rest

variable {S : Type}

/-- The attributes are handled in order, and the walk goes on behind them. -/
theorem walk_attributes (handle : Nat → Mem → S → S) (attrs : List Attr) (rest : Mem) (left : Nat) :
    ∀ (fuel : Nat) (s : S), (attrBytes attrs).length + left < fuel → ∃ fuel', left < fuel' ∧
      walkAttributes handle fuel (place (attrBytes attrs) rest) ((attrBytes attrs).length + left) s =
        walkAttributes handle fuel' rest left
          ((views attrs rest).foldl (fun s view => handle view.1 view.2 s) s) := by
  induction attrs with
  | nil => exact fun fuel s enough => ⟨fuel, by simpa [attrBytes] using enough, by simp [attrBytes, views]⟩
  | cons a attrs ih =>
    intro fuel s enough
    rw [attrBytes_cons, List.length_append, Attr.bytes_length] at enough ⊢
    have covers := le_align a.len
    have header : rtattrSize ≤ a.len := Nat.le_add_right _ _
    match fuel, enough with
    | fuel + 1, enough =>
      obtain ⟨fuel', left_lt, walks⟩ := ih fuel (handle a.type
        (place a.data (place a.padding (place (attrBytes attrs) rest))) s) (by
          have : 0 < rtattrSize := by decide
          omega)
      refine ⟨fuel', left_lt, ?_⟩
      have ok : rtaOk (place a.bytes (place (attrBytes attrs) rest))
          (align a.len + (attrBytes attrs).length + left) = true := by
        simp only [rtaOk, Attr.rtaLen_place, Bool.and_eq_true, decide_eq_true_eq]
        omega
      rw [walkAttributes, place_append, if_pos ok, Attr.rtaLen_place, if_pos (by omega),
        Attr.rtaType_place, Attr.rtaData_place, drop_place_of_length (Attr.bytes_length a),
        show align a.len + (attrBytes attrs).length + left - align a.len =
          (attrBytes attrs).length + left by omega, walks]
      rfl

/-! ### Messages -/

/-- The kinds of messages whose types the loop handles. -/
inductive Kind where
  | link
  | addr
  | route
  | neigh
deriving DecidableEq

/-- The size of the header of the family. -/
def Kind.headerSize : Kind → Nat
  | .link => 16
  | .addr => ifaddrmsgSize
  | .route => rtmsgSize
  | .neigh => ndmsgSize

/-- The header of the family and the attributes. -/
structure Body where
  header : List UInt8
  attrs : List Attr

def Body.bytes (b : Body) : List UInt8 := b.header ++ attrBytes b.attrs

structure Message where
  kind : Kind
  /-- `RTM_NEW...` or `RTM_DEL...` -/
  isNew : Bool
  flags : Nat := 0
  seq : Nat := 0
  pid : Nat := 0
  body : Body
  sized : body.header.length = kind.headerSize

def Message.type (m : Message) : Nat :=
  match m.kind, m.isNew with
  | .link, true => rtmNewLink
  | .link, false => rtmDelLink
  | .addr, true => rtmNewAddr
  | .addr, false => rtmDelAddr
  | .route, true => rtmNewRoute
  | .route, false => rtmDelRoute
  | .neigh, true => rtmNewNeigh
  | .neigh, false => rtmDelNeigh

theorem Message.type_lt (m : Message) : m.type < 65536 := by
  simp only [Message.type]
  split <;> decide

def Message.len (m : Message) : Nat := nlmsghdrSize + m.body.bytes.length

def Message.bytes (m : Message) : List UInt8 :=
  le32 m.len ++ (le16 m.type ++ (le16 m.flags ++ (le32 m.seq ++ (le32 m.pid ++ m.body.bytes))))

def datagramBytes (ms : List Message) : List UInt8 := ms.flatMap Message.bytes

@[simp] theorem datagramBytes_cons (m : Message) (ms : List Message) :
    datagramBytes (m :: ms) = m.bytes ++ datagramBytes ms := List.flatMap_cons

theorem Message.bytes_length (m : Message) : m.bytes.length = m.len := by
  simp only [Message.bytes, List.length_append, le32_length, le16_length, Message.len, nlmsghdrSize]
  omega

theorem Message.len_mod (m : Message) : m.len % 4 = 0 := by
  have attrs := attrBytes_mod m.body.attrs
  have header : m.body.header.length % 4 = 0 := by
    rw [m.sized]
    cases m.kind <;> rfl
  simp only [Message.len, Body.bytes, List.length_append, nlmsghdrSize]
  omega

theorem Message.header_lt_len (m : Message) : m.kind.headerSize < m.len := by
  simp only [Message.len, Body.bytes, List.length_append, m.sized, nlmsghdrSize]
  omega

section Reading

variable (m : Message) (rest : Mem)

theorem Message.nlmsgLen_place (small : m.len < 65536) : nlmsgLen (place m.bytes rest) = m.len := by
  rw [Message.bytes, place_append]
  exact u32_place_le32 (by omega) _

theorem Message.nlmsgType_place : nlmsgType (place m.bytes rest) = m.type := by
  have behind : nlmsgType (place m.bytes rest) = ((place m.bytes rest).drop 4).u16 0 := by
    simp [nlmsgType, Mem.u16, Mem.drop]
  rw [behind, Message.bytes, place_append, drop_place_of_length (le32_length _), place_append]
  exact u16_place_le16 m.type_lt _

theorem Message.nlmsgData_place : nlmsgData (place m.bytes rest) = place m.body.bytes rest := by
  have split : m.bytes = (le32 m.len ++ le16 m.type ++ le16 m.flags ++ le32 m.seq ++ le32 m.pid) ++
      m.body.bytes := by simp [Message.bytes]
  have header : (le32 m.len ++ le16 m.type ++ le16 m.flags ++ le32 m.seq ++ le32 m.pid).length =
      nlmsghdrSize := rfl
  rw [nlmsgData, split, place_append, drop_place_of_length header]

/-- As an attribute, a message has its own length and the type 0. -/
theorem Message.rtaLen_place (small : m.len < 65536) : rtaLen (place m.bytes rest) = m.len := by
  have low := m.nlmsgLen_place rest small
  simp only [nlmsgLen, Mem.u32] at low
  have high : (place m.bytes rest).u16 (0 + 2) = 0 := by
    have behind : (place m.bytes rest).u16 (0 + 2) = ((place m.bytes rest).drop 2).u16 0 := by
      simp [Mem.u16, Mem.drop]
    rw [behind, Message.bytes, place_append, le32, place_append, drop_place_of_length (le16_length _),
      Nat.div_eq_of_lt small]
    exact u16_place_le16 (by omega) _
  rw [high] at low
  exact low

theorem Message.rtaType_place (small : m.len < 65536) : rtaType (place m.bytes rest) = 0 := by
  have behind : rtaType (place m.bytes rest) = ((place m.bytes rest).drop 2).u16 0 := by
    simp [rtaType, Mem.u16, Mem.drop]
  rw [behind, Message.bytes, place_append, le32, place_append, drop_place_of_length (le16_length _),
    Nat.div_eq_of_lt small]
  exact u16_place_le16 (by omega) _

end Reading

/-- A walk over whole messages handles nothing, and stops at the latest behind the last one. -/
theorem walk_messages {handle : Nat → Mem → S → S} (ignores : ∀ data s, handle 0 data s = s)
    (s : S) (tail : Mem) (ms : List Message) :
    ∀ left fuel : Nat, (∀ m ∈ ms, m.len < 65536) → left < fuel →
    ((datagramBytes ms).length ≤ left → rtaOk tail (left - (datagramBytes ms).length) = false) →
    walkAttributes handle fuel (place (datagramBytes ms) tail) left s = some s := by
  induction ms with
  | nil =>
    intro left fuel _ enough stops
    match fuel, enough with
    | fuel + 1, _ =>
      have stops : rtaOk tail left = false := by simpa [datagramBytes] using stops
      simp [walkAttributes, datagramBytes, stops]
  | cons m ms ih =>
    intro left fuel small enough stops
    have small_m : m.len < 65536 := small m (by simp)
    rw [datagramBytes_cons, List.length_append, m.bytes_length] at stops
    match fuel, enough with
    | fuel + 1, enough =>
      rw [datagramBytes_cons, place_append, walkAttributes, m.rtaLen_place _ small_m,
        m.rtaType_place _ small_m, ignores, align_of_dvd m.len_mod]
      by_cases ok : rtaOk (place m.bytes (place (datagramBytes ms) tail)) left
      · have inside : m.len ≤ left := by
          simp only [rtaOk, m.rtaLen_place _ small_m, Bool.and_eq_true, decide_eq_true_eq] at ok
          exact ok.2
        have positive := m.header_lt_len
        rw [if_pos ok, if_pos inside, drop_place_of_length m.bytes_length]
        refine ih _ _ (fun m' member => small m' (by simp [member])) (by omega) fun past => ?_
        rw [Nat.sub_sub]
        exact stops (by omega)
      · rw [if_neg ok]

end Hima.Netlink
