import Hima.Netlink.Datagram

/-!
# What the attribute loops read

The loops of the decoders start behind two headers, that of the message and that of its family,
with the length of which only the first is subtracted. They start from the beginning of the
datagram, whatever message is decoded, and copy as many bytes as the destination holds.
-/
namespace Hima.Netlink

open Bytes

/-- The decoders with an attribute loop. -/
inductive Decoder
  | addr
  | neigh
  | route
  deriving DecidableEq, Repr

namespace Decoder

def headerSize : Decoder → Nat
  | addr => ifaddrmsgSize
  | neigh => ndmsgSize
  | route => rtmsgSize

/-- `sizeof` of `__data` in `sockaddr_storage`. -/
def addrCopy : Nat := 126

/-- The bytes that are copied from an attribute of a type. -/
def copySize : Decoder → Nat → Nat
  | addr, type => if type = ifaAddress then addrCopy else 0
  | neigh, type => if type = ndaDst then addrCopy else if type = ndaLladdr then 14 else 0
  | route, type =>
    if type = rtaDst ∨ type = rtaSrc ∨ type = rtaGateway then addrCopy
    else if type = rtaIif ∨ type = rtaOif ∨ type = rtaPriority then 4
    else 0

end Decoder

/-- One evaluation of `RTA_OK` that looks at an attribute, and what follows if it holds. -/
structure Turn where
  pos : Nat
  rtaLen : Nat
  taken : Bool
  copied : Nat
  deriving DecidableEq, Repr

/-- The difference of two `unsigned int`. -/
def uintSub (a b : Nat) : Nat := (a + 4294967296 - b) % 4294967296

/-- The loop over the attributes at `pos` of the datagram, with `left` bytes to go. `RTA_OK` reads
`rta_len` only if there is room for an attribute header. -/
def attributeTurns (d : Decoder) (buffer : Mem) : Nat → Nat → Nat → Option (List Turn)
  | 0, _, _ => none
  | fuel + 1, pos, left =>
    let rta := buffer.drop pos
    if left < rtattrSize then some []
    else if rtaOk rta left then
      (attributeTurns d buffer fuel (pos + align (rtaLen rta)) (uintSub left (align (rtaLen rta)))).map
        (⟨pos, rtaLen rta, true, d.copySize (rtaType rta)⟩ :: ·)
    else some [⟨pos, rtaLen rta, false, 0⟩]

/-- The loop of a decoder that is called with `buflen` bytes left of the datagram. -/
def Decoder.turns (d : Decoder) (buffer : Mem) (buflen fuel : Nat) : Option (List Turn) :=
  attributeTurns d buffer fuel (nlmsghdrSize + d.headerSize) (buflen - nlmsghdrSize)

/-- These are the turns of the loop that fills the result structures. -/
theorem walkAttributes_turns {S : Type} (d : Decoder) (handle : Nat → Mem → S → S) (buffer : Mem)
    (fuel : Nat) : ∀ (pos left : Nat) (s s' : S), left < 4294967296 →
    walkAttributes handle fuel (buffer.drop pos) left s = some s' →
    ∃ turns, attributeTurns d buffer fuel pos left = some turns ∧
      s' = (turns.filter Turn.taken).foldl (fun s t =>
        handle (rtaType (buffer.drop t.pos)) (rtaData (buffer.drop t.pos)) s) s := by
  induction fuel with
  | zero =>
    intro pos left s s' _ walked
    cases walked
  | succ fuel ih =>
    intro pos left s s' bounded walked
    rw [walkAttributes] at walked
    rw [attributeTurns]
    -- both loops stop at the same attribute, the walk after a look at its length only
    split at walked
    next ok =>
      have room : ¬ left < rtattrSize := by
        simp only [rtaOk, Bool.and_eq_true, decide_eq_true_eq] at ok
        omega
      split at walked
      next inside =>
        have next : uintSub left (align (rtaLen (buffer.drop pos))) =
            left - align (rtaLen (buffer.drop pos)) := by
          rw [uintSub]
          omega
        have moved : (buffer.drop pos).drop (align (rtaLen (buffer.drop pos))) =
            buffer.drop (pos + align (rtaLen (buffer.drop pos))) := by
          funext i
          simp only [Mem.drop, Nat.add_assoc]
        rw [moved] at walked
        -- the rest of the walk starts behind the attribute, aligned
        obtain ⟨turns, later, result⟩ := ih _ _ _ _ (by omega) walked
        refine ⟨⟨pos, rtaLen (buffer.drop pos), true, d.copySize (rtaType (buffer.drop pos))⟩ :: turns, ?_, ?_⟩
        · simp only [if_neg room, ok, if_true, next, later, Option.map_some]
        · exact result
      next => cases walked
    next bad =>
      obtain rfl := Option.some.inj walked
      by_cases room : left < rtattrSize
      · exact ⟨[], by simp only [room, if_true], rfl⟩
      · exact ⟨[⟨pos, rtaLen (buffer.drop pos), false, 0⟩],
          by simp only [room, bad, if_false, Bool.false_eq_true], rfl⟩

/-! ### Staying inside the message -/

/-- The offsets in the datagram that a turn reads: the length, then the type and what is copied. -/
def Turn.Reads (t : Turn) (i : Nat) : Prop :=
  t.pos ≤ i ∧ i < t.pos + 2 ∨
    t.taken = true ∧ t.pos + 2 ≤ i ∧ i < t.pos + rtattrSize + t.copied

/-- A turn stays inside the message that begins at `off` and has `len` bytes, of a datagram of
`msglen` bytes. -/
structure Turn.Inside (t : Turn) (off len msglen : Nat) : Prop where
  examined : ∀ i, t.Reads i → off ≤ i ∧ i < off + len
  within : t.taken = true → off ≤ t.pos ∧ t.pos + t.rtaLen ≤ off + len
  payload : t.taken = true → t.copied ≤ t.rtaLen - rtattrSize
  received : ∀ i, t.Reads i → i < msglen

/-- An attribute lies at a position of the message that ends at `last`, not longer than what is left to
go and as long as what is copied of it. -/
def Fits (d : Decoder) (buffer : Mem) (off last : Nat) (c : Nat × Nat) : Prop :=
  off ≤ c.1 ∧ c.1 + rtaLen (buffer.drop c.1) ≤ last ∧ rtaLen (buffer.drop c.1) ≤ c.2 ∧
    rtattrSize + d.copySize (rtaType (buffer.drop c.1)) ≤ rtaLen (buffer.drop c.1)

/-- The attributes end at a position: too few bytes are left to look at one, or the message has a length
there that no attribute can have. -/
def Ends (buffer : Mem) (off last : Nat) (c : Nat × Nat) : Prop :=
  c.2 < rtattrSize ∨ off ≤ c.1 ∧ c.1 + 2 ≤ last ∧
    (rtaLen (buffer.drop c.1) < rtattrSize ∨ c.2 < rtaLen (buffer.drop c.1))

/-- Behind the attribute at a position, aligned. -/
def behind (buffer : Mem) (c : Nat × Nat) : Nat × Nat :=
  (c.1 + align (rtaLen (buffer.drop c.1)), uintSub c.2 (align (rtaLen (buffer.drop c.1))))

/-- From `pos` on the message that ends at `last` holds attributes, one behind the other, and then
they end. -/
def Stops (d : Decoder) (buffer : Mem) (off last pos left : Nat) : Prop :=
  ∃ n, (∀ k < n, Fits d buffer off last ((behind buffer)^[k] (pos, left))) ∧
    Ends buffer off last ((behind buffer)^[n] (pos, left))

instance (d : Decoder) (buffer : Mem) (off last : Nat) (c : Nat × Nat) :
    Decidable (Fits d buffer off last c) := inferInstanceAs (Decidable (_ ∧ _))

instance (buffer : Mem) (off last : Nat) (c : Nat × Nat) : Decidable (Ends buffer off last c) :=
  inferInstanceAs (Decidable (_ ∨ _))

theorem Turn.inside_taken_iff {pos rtaLen copied off len msglen : Nat} (received : off + len ≤ msglen)
    (header : rtattrSize ≤ rtaLen) :
    Turn.Inside ⟨pos, rtaLen, true, copied⟩ off len msglen ↔
      off ≤ pos ∧ pos + rtaLen ≤ off + len ∧ rtattrSize + copied ≤ rtaLen := by
  constructor
  · intro inside
    have within := inside.within rfl
    have payload := inside.payload rfl
    simp only at within payload
    omega
  · rintro ⟨front, back, fits⟩
    have reads : ∀ i, Turn.Reads ⟨pos, rtaLen, true, copied⟩ i → off ≤ i ∧ i < off + len := by
      intro i read
      simp only [Turn.Reads, true_and, rtattrSize] at read
      simp only [rtattrSize] at *
      omega
    refine ⟨reads, fun _ => ⟨front, back⟩, fun _ => ?_, fun i read => ?_⟩
    · change copied ≤ rtaLen - rtattrSize
      omega
    · have := (reads i read).2
      omega

theorem Turn.inside_left_iff {pos rtaLen off len msglen : Nat} (received : off + len ≤ msglen) :
    Turn.Inside ⟨pos, rtaLen, false, 0⟩ off len msglen ↔ off ≤ pos ∧ pos + 2 ≤ off + len := by
  constructor
  · intro inside
    -- both bytes of the length are read
    have first := inside.examined pos (.inl ⟨Nat.le_refl _, by simp only; omega⟩)
    have second := inside.examined (pos + 1) (.inl ⟨by simp only; omega, by simp only; omega⟩)
    omega
  · rintro ⟨front, back⟩
    have reads : ∀ i, Turn.Reads ⟨pos, rtaLen, false, 0⟩ i → off ≤ i ∧ i < off + len := by
      intro i read
      simp only [Turn.Reads, Bool.false_eq_true, false_and, or_false] at read
      omega
    refine ⟨reads, fun taken => absurd taken Bool.false_ne_true,
      fun taken => absurd taken Bool.false_ne_true, fun i read => ?_⟩
    have := (reads i read).2
    omega

theorem rtaOk_header {rta : Mem} {left : Nat} (ok : rtaOk rta left = true) : rtattrSize ≤ rtaLen rta := by
  simp only [rtaOk, Bool.and_eq_true, decide_eq_true_eq] at ok
  exact ok.1.2

theorem rtaOk_room {rta : Mem} {left : Nat} (ok : rtaOk rta left = true) : rtaLen rta ≤ left := by
  simp only [rtaOk, Bool.and_eq_true, decide_eq_true_eq] at ok
  exact ok.2

variable {d : Decoder} {buffer : Mem} {off len msglen : Nat}

theorem stops_iff {last pos left : Nat} : Stops d buffer off last pos left ↔
    Ends buffer off last (pos, left) ∨ Fits d buffer off last (pos, left) ∧
      Stops d buffer off last (behind buffer (pos, left)).1 (behind buffer (pos, left)).2 := by
  constructor
  · rintro ⟨n, fits, ends⟩
    cases n with
    | zero => exact .inl ends
    | succ n => exact .inr ⟨fits 0 n.succ_pos, n, fun k below => fits (k + 1) (Nat.succ_lt_succ below), ends⟩
  · rintro (ends | ⟨first, n, fits, ends⟩)
    · exact ⟨0, nofun, ends⟩
    · refine ⟨n + 1, fun k below => ?_, ends⟩
      cases k with
      | zero => exact first
      | succ k => exact fits k (Nat.lt_of_succ_lt_succ below)

theorem stops_of_inside (received : off + len ≤ msglen) (fuel : Nat) :
    ∀ (pos left : Nat) (turns : List Turn), attributeTurns d buffer fuel pos left = some turns →
      (∀ t ∈ turns, t.Inside off len msglen) → Stops d buffer off (off + len) pos left := by
  induction fuel with
  | zero =>
    intro pos left turns run _
    cases run
  | succ fuel ih =>
    intro pos left turns run inside
    simp only [attributeTurns] at run
    split at run
    next short => exact stops_iff.mpr (.inl (.inl short))
    next =>
      split at run
      next ok =>
        obtain ⟨later, rest, rfl⟩ := Option.map_eq_some_iff.mp run
        obtain ⟨front, back, fits⟩ :=
          (Turn.inside_taken_iff received (rtaOk_header ok)).mp (inside _ List.mem_cons_self)
        have room := rtaOk_room ok
        exact stops_iff.mpr (.inr ⟨⟨front, back, room, fits⟩,
          ih _ _ later rest fun t member => inside t (List.mem_cons_of_mem _ member)⟩)
      next bad =>
        obtain rfl := Option.some.inj run
        obtain ⟨front, back⟩ := (Turn.inside_left_iff received).mp (inside _ List.mem_cons_self)
        refine stops_iff.mpr (.inl (.inr ⟨front, back, ?_⟩))
        simp only [rtaOk, Bool.and_eq_true, decide_eq_true_eq] at bad
        dsimp only
        omega

theorem inside_of_stops (received : off + len ≤ msglen) {pos left : Nat}
    (stops : Stops d buffer off (off + len) pos left) :
    ∃ fuel turns, attributeTurns d buffer fuel pos left = some turns ∧
      ∀ t ∈ turns, t.Inside off len msglen := by
  obtain ⟨n, fits, ends⟩ := stops
  induction n generalizing pos left with
  | zero =>
    by_cases short : left < rtattrSize
    · exact ⟨1, [], by simp only [attributeTurns, short, if_true], nofun⟩
    · obtain ⟨front, back, length⟩ := ends.resolve_left short
      have bad : rtaOk (buffer.drop pos) left = false := by
        simp only [Function.iterate_zero_apply] at length
        rw [Bool.eq_false_iff]
        simp only [rtaOk, ne_eq, Bool.and_eq_true, decide_eq_true_eq]
        omega
      refine ⟨1, [⟨pos, rtaLen (buffer.drop pos), false, 0⟩],
        by simp only [attributeTurns, short, bad, if_false, Bool.false_eq_true], ?_⟩
      intro t member
      rw [List.mem_singleton.mp member]
      exact (Turn.inside_left_iff received).mpr ⟨front, back⟩
  | succ n ih =>
    obtain ⟨front, back, room, copied⟩ := fits 0 n.succ_pos
    obtain ⟨fuel, turns, run, inside⟩ :=
      ih (fun k below => fits (k + 1) (Nat.succ_lt_succ below)) ends
    simp only [Function.iterate_zero_apply] at front back room copied
    have header : rtattrSize ≤ rtaLen (buffer.drop pos) := by omega
    have ok : rtaOk (buffer.drop pos) left = true := by
      simp only [rtaOk, Bool.and_eq_true, decide_eq_true_eq]
      omega
    refine ⟨fuel + 1, ⟨pos, rtaLen (buffer.drop pos), true, d.copySize (rtaType (buffer.drop pos))⟩ :: turns,
      by simp only [attributeTurns, show ¬ left < rtattrSize by omega, ok, if_false, if_true, run,
        Option.map_some], ?_⟩
    intro t member
    rcases List.mem_cons.mp member with rfl | later
    · exact (Turn.inside_taken_iff received header).mpr ⟨front, back, copied⟩
    · exact inside t later

/-- For every datagram and every message in it: the loop of a decoder ends and stays inside the
message if and only if the attributes stop inside it. -/
theorem attribute_loop_inside_iff (d : Decoder) (buffer : Mem) (msglen off : Nat)
    (accepted : nlmsgOk (buffer.drop off) (msglen - off) = true) :
    (∃ fuel turns, d.turns buffer (msglen - off) fuel = some turns ∧
      ∀ t ∈ turns, t.Inside off (nlmsgLen (buffer.drop off)) msglen) ↔
    Stops d buffer off (off + nlmsgLen (buffer.drop off)) (nlmsghdrSize + d.headerSize)
      (msglen - off - nlmsghdrSize) := by
  have received : off + nlmsgLen (buffer.drop off) ≤ msglen := by
    have header : nlmsghdrSize = 16 := rfl
    simp only [nlmsgOk, Bool.and_eq_true, decide_eq_true_eq] at accepted
    omega
  constructor
  · rintro ⟨fuel, turns, run, inside⟩
    exact stops_of_inside received fuel _ _ turns run inside
  · exact inside_of_stops received

/-! ### Messages of the kernel -/

def Decoder.kind : Decoder → Kind
  | .addr => .addr
  | .neigh => .neigh
  | .route => .route

theorem Decoder.kind_headerSize (d : Decoder) : d.kind.headerSize = d.headerSize := by
  cases d <;> rfl

/-- Behind attributes that fill a message the loop has more than an attribute header left, and so
it looks at what comes there. -/
theorem not_stops_behind {last pos left : Nat} (attrs : List Attr) (rest : Mem)
    (layout : buffer.drop pos = place (attrBytes attrs) rest) (fills : pos + (attrBytes attrs).length = last)
    (room : (attrBytes attrs).length + rtattrSize ≤ left) (bounded : left < 4294967296) :
    ¬ Stops d buffer off last pos left := by
  induction attrs generalizing pos left with
  | nil =>
    intro stops
    simp only [attrBytes, List.flatMap_nil, List.length_nil, rtattrSize] at fills room
    rcases stops_iff.mp stops with (short | ⟨_, back, _⟩) | ⟨⟨_, back, _, copied⟩, _⟩
    · simp only [rtattrSize] at short
      omega
    · omega
    · simp only [rtattrSize] at back copied
      omega
  | cons a attrs ih =>
    intro stops
    rw [attrBytes_cons, List.length_append, Attr.bytes_length] at fills room
    rw [attrBytes_cons, place_append] at layout
    have len : rtaLen (buffer.drop pos) = a.len := by rw [layout, a.rtaLen_place]
    have covers := le_align a.len
    have header : rtattrSize ≤ a.len := Nat.le_add_right _ _
    rcases stops_iff.mp stops with (short | ⟨_, _, bad⟩) | ⟨_, later⟩
    · omega
    · simp only [len] at bad
      omega
    · rw [behind, len] at later
      have left' : uintSub left (align a.len) = left - align a.len := by
        rw [uintSub]
        omega
      rw [left'] at later
      refine ih ?_ (by omega) (by omega) (by omega) later
      have moved : buffer.drop (pos + align a.len) = (buffer.drop pos).drop (align a.len) := by
        funext i
        simp only [Mem.drop, Nat.add_assoc]
      rw [moved, layout, drop_place_of_length a.bytes_length]

/-- The loop leaves the first message of every datagram whose attributes are laid out as the kernel
lays them out, the last message too. -/
theorem wellFormed_left (d : Decoder) (m : Message) (rest : List Message) (tail : Mem)
    (kind : m.kind = d.kind) (small : (datagramBytes (m :: rest)).length ≤ ipaNlMsgMaxLen) :
    ¬ Stops d (place (datagramBytes (m :: rest)) tail) 0
      (0 + nlmsgLen ((place (datagramBytes (m :: rest)) tail).drop 0)) (nlmsghdrSize + d.headerSize)
      ((datagramBytes (m :: rest)).length - 0 - nlmsghdrSize) := by
  have total : (datagramBytes (m :: rest)).length = m.len + (datagramBytes rest).length := by
    rw [datagramBytes_cons, List.length_append, m.bytes_length]
  have shift : ∀ mem : Mem, mem.drop 0 = mem := by
    intro mem
    funext i
    simp only [Mem.drop, Nat.zero_add]
  have len : nlmsgLen (place (datagramBytes (m :: rest)) tail) = m.len := by
    rw [datagramBytes_cons, place_append]
    exact m.nlmsgLen_place _ (by simp only [ipaNlMsgMaxLen] at small; omega)
  have parts : m.len = nlmsghdrSize + d.headerSize + (attrBytes m.body.attrs).length := by
    rw [Message.len, Body.bytes, List.length_append, m.sized, kind, d.kind_headerSize, Nat.add_assoc]
  have header : rtattrSize ≤ d.headerSize := by cases d <;> decide
  rw [shift, len, Nat.sub_zero, Nat.zero_add]
  refine not_stops_behind m.body.attrs (place (datagramBytes rest) tail) ?_ parts.symm (by omega)
    (by simp only [ipaNlMsgMaxLen] at small; omega)
  have body : ((place (datagramBytes (m :: rest)) tail).drop nlmsghdrSize).drop d.headerSize =
      place (attrBytes m.body.attrs) (place (datagramBytes rest) tail) := by
    have data := m.nlmsgData_place (place (datagramBytes rest) tail)
    rw [nlmsgData] at data
    rw [datagramBytes_cons, place_append, data, Body.bytes, place_append,
      drop_place_of_length (by rw [m.sized, kind, d.kind_headerSize])]
  rw [← body]
  funext i
  simp only [Mem.drop, Nat.add_assoc]

/-- A route message with a priority, and an attribute header of zeros behind it. -/
def paddedRoute : Mem :=
  place ([40, 0, 0, 0, 24, 0] ++ List.replicate 22 0 ++ [8, 0, 6, 0, 1, 0, 0, 0, 0, 0, 0, 0]) fun _ => 0

theorem attribute_loop_inside_iff_sample :
    ∃ fuel turns, Decoder.route.turns paddedRoute (40 - 0) fuel = some turns ∧
      ∀ t ∈ turns, t.Inside 0 (nlmsgLen (paddedRoute.drop 0)) 40 :=
  (attribute_loop_inside_iff .route paddedRoute 40 0 (by decide)).mpr
    ⟨1, by decide, by decide⟩

/-- A neighbour with an IPv4 address and a MAC address: the copies take 126 bytes of an address of
four and 14 of an address of six, and the last turn looks at the two bytes behind the datagram. -/
theorem neighbour_read_past_end :
    (datagramBytes [sampleNeigh true]).length = 48 ∧
    Decoder.neigh.turns (place (datagramBytes [sampleNeigh true]) fun _ => 0) 48 4 =
      some [⟨28, 8, true, 126⟩, ⟨36, 10, true, 14⟩, ⟨48, 0, false, 0⟩] ∧
    Turn.Reads ⟨48, 0, false, 0⟩ 48 ∧ ¬ Turn.Inside ⟨28, 8, true, 126⟩ 0 48 48 := by
  refine ⟨by decide, by decide, .inl (by decide), fun inside => ?_⟩
  have payload := inside.payload rfl
  exact absurd payload (by decide)

end Hima.Netlink
