import Hima.Amplifier.Transfers

/-!
# tfa9887_write

A buffer goes to the device in messages of at most MAX_I2C_LENGTH bytes, the first of which is the
subaddress. The room for the payload is rounded down to the alignment before the subaddress takes a
byte of it, so that it is no multiple of the alignment.
-/
namespace Hima.Amplifier

open Hima.Fallible

/-! ### The messages of a write -/

/-- The payloads of the messages that the loop of tfa9887_write sends for what is left of a buffer. -/
def payloads (room : Nat) : (fuel : Nat) → List Byte → List (List Byte)
  | 0, _ => []
  | fuel + 1, buf =>
    buf.take room :: if buf.length ≤ room then [] else payloads room fuel (buf.drop room)

theorem payloads_succ (width fuel : Nat) (buf : List Byte) : payloads width (fuel + 1) buf =
    buf.take width :: if buf.length ≤ width then [] else payloads width fuel (buf.drop width) := rfl

/-- What a message has room for behind the subaddress. -/
def room (alignment : Nat) : Nat := roundDown MAX_I2C_LENGTH alignment - 1

def writeMessages (addr : Byte) (buf : List Byte) (alignment : Nat) : List (List Byte) :=
  (payloads (room alignment) (buf.length + 1) buf).map (addr :: ·)

section

variable (env : Env) (amp : Amp)

/-- Messages sent one after the other, until one fails. -/
def sendAll : List (List Byte) → Bus Unit
  | [] => pure ()
  | message :: messages => do
    writeConfig env amp message
    sendAll messages

theorem writeChunks_eq_sendAll (addr : Byte) (room fuel : Nat) (buf : List Byte) :
    writeChunks env amp addr room fuel buf = sendAll env amp ((payloads room fuel buf).map (addr :: ·)) := by
  induction fuel generalizing buf with
  | zero => rfl
  | succ fuel ih =>
    rw [writeChunks, payloads_succ, List.map_cons, sendAll]
    split
    · rfl
    · rw [ih]

/-- tfa9887_write sends these messages and no others. -/
theorem write_eq_sendAll (addr : Byte) (buf : List Byte) (alignment : Nat) :
    write env amp addr buf alignment = sendAll env amp (writeMessages addr buf alignment) :=
  writeChunks_eq_sendAll env amp addr _ _ buf

end

/-! ### The payloads -/

variable {width fuel : Nat} {buf : List Byte}

theorem payloads_flatten (positive : 0 < width) (enough : buf.length < fuel) :
    (payloads width fuel buf).flatten = buf := by
  induction fuel generalizing buf with
  | zero => exact absurd enough (Nat.not_lt_zero _)
  | succ fuel ih =>
    rw [payloads_succ, List.flatten_cons]
    split
    next short => rw [List.take_of_length_le short, List.flatten_nil, List.append_nil]
    next long =>
      rw [ih (by rw [List.length_drop]; omega), List.take_append_drop]

theorem length_payload_le {payload : List Byte} (member : payload ∈ payloads width fuel buf) :
    payload.length ≤ width := by
  induction fuel generalizing buf with
  | zero => cases member
  | succ fuel ih =>
    rcases List.mem_cons.mp member with rfl | member
    · exact List.length_take_le _ _
    · split at member
      · cases member
      · exact ih member

/-- All messages but the last are full. -/
theorem length_payload_dropLast {payload : List Byte}
    (member : payload ∈ (payloads width fuel buf).dropLast) : payload.length = width := by
  induction fuel generalizing buf with
  | zero => cases member
  | succ fuel ih =>
    rw [payloads_succ] at member
    split at member
    next short => cases member
    next long =>
      cases later : payloads width fuel (buf.drop width) with
      | nil =>
        rw [later] at member
        cases member
      | cons second rest =>
        rw [later, List.dropLast_cons_cons] at member
        rcases List.mem_cons.mp member with rfl | member
        · rw [List.length_take]
          omega
        · exact ih (later ▸ member)

/-- A buffer that does not fit fills a message that is not the last one. -/
theorem exists_full_payload (long : width < buf.length) (enough : buf.length < fuel) :
    buf.take width ∈ (payloads width fuel buf).dropLast := by
  obtain ⟨fuel, rfl⟩ := Nat.exists_eq_succ_of_ne_zero (Nat.ne_zero_of_lt enough)
  obtain ⟨fuel, rfl⟩ := Nat.exists_eq_succ_of_ne_zero (n := fuel) (by omega)
  rw [payloads_succ, if_neg (Nat.not_le.mpr long), payloads_succ, List.dropLast_cons_cons]
  exact List.mem_cons_self

theorem room_pos {alignment : Nat} (positive : 0 < alignment) (small : alignment ≤ MAX_I2C_LENGTH) :
    0 < room alignment ∧ room alignment < MAX_I2C_LENGTH := by
  have parts := Nat.div_add_mod' MAX_I2C_LENGTH alignment
  have rest := Nat.mod_lt MAX_I2C_LENGTH positive
  have one := Nat.mul_le_mul_right alignment (Nat.div_pos small positive)
  rw [room, roundDown]
  simp only [MAX_I2C_LENGTH] at parts rest one small ⊢
  omega

/-- Without their subaddress the messages are the buffer. -/
theorem writeMessages_payload (addr : Byte) (buf : List Byte) {alignment : Nat}
    (positive : 0 < alignment) (small : alignment ≤ MAX_I2C_LENGTH) :
    ((writeMessages addr buf alignment).map List.tail).flatten = buf := by
  have tails : (writeMessages addr buf alignment).map List.tail =
      payloads (room alignment) (buf.length + 1) buf := by
    rw [writeMessages, List.map_map]
    exact List.map_id _
  rw [tails]
  exact payloads_flatten (room_pos positive small).1 (Nat.lt_succ_self _)

/-- Messages that fit the bus, of the subaddress and a part of the buffer each, whose parts are the buffer;
none but the last ends inside a word. -/
structure WholeWords (addr : Byte) (buf : List Byte) (messages : List (List Byte)) : Prop where
  fit : ∀ message ∈ messages, message.length ≤ MAX_I2C_LENGTH
  addressed : ∀ message ∈ messages, message.head? = some addr
  complete : (messages.map List.tail).flatten = buf
  words : ∀ message ∈ messages.dropLast, 3 ∣ message.tail.length

/-- No word is split if and only if one message is enough or its room is one of words. -/
theorem write_wholeWords_iff (addr : Byte) (buf : List Byte) {alignment : Nat}
    (positive : 0 < alignment) (small : alignment ≤ MAX_I2C_LENGTH) :
    WholeWords addr buf (writeMessages addr buf alignment) ↔
      buf.length ≤ room alignment ∨ 3 ∣ room alignment := by
  obtain ⟨-, below⟩ := room_pos positive small
  constructor
  · -- the first of several messages is full, so its room has to be one of words
    intro whole
    by_contra both
    obtain ⟨long, unaligned⟩ := not_or.mp both
    have full := exists_full_payload (Nat.not_le.mp long) (Nat.lt_succ_self buf.length)
    have message : addr :: buf.take (room alignment) ∈ (writeMessages addr buf alignment).dropLast := by
      rw [writeMessages, ← List.map_dropLast]
      exact List.mem_map_of_mem full
    have words := whole.words _ message
    rw [List.tail_cons, length_payload_dropLast full] at words
    exact unaligned words
  · intro good
    refine ⟨?_, ?_, writeMessages_payload addr buf positive small, ?_⟩
    · intro message member
      obtain ⟨payload, sent, rfl⟩ := List.mem_map.mp member
      have bound := length_payload_le sent
      rw [List.length_cons]
      omega
    · intro message member
      obtain ⟨payload, -, rfl⟩ := List.mem_map.mp member
      rfl
    · intro message member
      rw [writeMessages, ← List.map_dropLast] at member
      obtain ⟨payload, sent, rfl⟩ := List.mem_map.mp member
      rw [List.tail_cons, length_payload_dropLast sent]
      -- a single message is the last one
      rcases good with short | aligned
      · rw [payloads, if_pos short] at sent
        cases sent
      · exact aligned

/-- Of 300 bytes with an alignment of 5 the first message takes 249. -/
theorem write_wholeWords_split : (writeMessages Reg.CF_MEM (List.replicate 300 0) 5).length = 2 ∧
    WholeWords Reg.CF_MEM (List.replicate 300 0) (writeMessages Reg.CF_MEM (List.replicate 300 0) 5) :=
  ⟨by decide +kernel, (write_wholeWords_iff Reg.CF_MEM _ (by decide) (by decide)).mpr (.inr (by decide))⟩

/-- 84 words: the first message takes 251 bytes. -/
theorem write_splits_word :
    ¬ ∀ (addr : Byte) (buf : List Byte), WholeWords addr buf (writeMessages addr buf 3) := by
  intro all
  let buf : List Byte := List.replicate 252 0
  have length : buf.length = 252 := List.length_replicate
  have full := exists_full_payload (by rw [length]; decide : 251 < buf.length) (Nat.lt_succ_self buf.length)
  have message : Reg.CF_MEM :: buf.take 251 ∈ (writeMessages Reg.CF_MEM buf 3).dropLast := by
    rw [writeMessages, ← List.map_dropLast]
    exact List.mem_map_of_mem full
  have words := (all Reg.CF_MEM buf).words _ message
  rw [List.tail_cons, length_payload_dropLast full] at words
  exact absurd words (by decide)

end Hima.Amplifier
