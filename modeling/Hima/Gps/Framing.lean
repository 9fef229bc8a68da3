import Hima.Lib.Bytes
import Mathlib.Tactic.Linarith

/-!
# Messages through the daemon's pipes

`loc_eng_dmn_conn_glue_msgsnd` writes a message whose first word is its size, and
`loc_eng_dmn_conn_glue_msgrcv` reads that word and then as many bytes as it says. Every call of
`read` is answered on its own, so that each can bring fewer bytes than it asks for.
-/
namespace Hima.Gps.ConnGlue

open Bytes

/-- The two data models Android builds for. -/
inductive Abi where
  | ilp32
  | lp64
  deriving DecidableEq

/-- `sizeof(size_t)`. -/
def Abi.sizeT : Abi → Nat
  | .ilp32 => 4
  | .lp64 => 8

/-- One more than the largest `size_t`. -/
def Abi.sizes (abi : Abi) : Nat := 256 ^ abi.sizeT

/-- A `size_t` as an `int`. -/
def toInt (n : Nat) : Int := (n : Int).bmod (2 ^ 32)

/-- `MAX_RW_COUNT`, above which no `read` or `write` transfers anything. -/
def maxRwCount : Nat := 0x7ffff000

/-- How a call of `read` or `write` goes: an error, or so many bytes at most. -/
inductive Answer where
  | error
  | upTo (most : Nat)

/-- The bytes an answer lets through. -/
def Answer.granted : Answer → Nat
  | .error => 0
  | .upTo most => min most maxRwCount

/-! ### Sending -/

def pipewrite (answer : Answer) (pipe buf : List UInt8) : Int × List UInt8 :=
  match answer with
  | .error => (-1, pipe)
  | .upTo _ => ((buf.take answer.granted).length, pipe ++ buf.take answer.granted)

/-- What `msgsnd` hands to `write`: the message with its size in place of its first word. -/
def framed (abi : Abi) (msg : List UInt8) : List UInt8 :=
  le abi.sizeT msg.length ++ msg.drop abi.sizeT

def msgsnd (abi : Abi) (answer : Answer) (pipe msg : List UInt8) : Int × List UInt8 :=
  let (result, pipe) := pipewrite answer pipe (framed abi msg)
  if result ≠ toInt msg.length then (-1, pipe) else (result, pipe)

/-- A message with room for the size, and the answer to a write that takes all of it. -/
structure Message (abi : Abi) where
  bytes : List UInt8
  answer : Answer
  room : abi.sizeT ≤ bytes.length
  complete : bytes.length ≤ answer.granted

def sendAll {abi : Abi} (msgs : List (Message abi)) (pipe : List UInt8) : List UInt8 :=
  msgs.foldl (fun pipe m => (msgsnd abi m.answer pipe m.bytes).2) pipe

/-! ### Receiving -/

/-- The bytes a call has stored from `msgp` on. -/
abbrev Buffer := Nat → Option UInt8

def Buffer.store (buf : Buffer) (offset : Nat) (bytes : List UInt8) : Buffer := fun i =>
  if offset ≤ i ∧ i < offset + bytes.length then bytes[i - offset]? else buf i

inductive Read where
  /-- The pipe is empty and the caller sleeps. -/
  | waits
  | returns (len : Int) (bytes pipe : List UInt8)

def piperead (answer : Answer) (pipe : List UInt8) (sz : Nat) : Read :=
  if sz = 0 then .returns 0 [] pipe
  else match answer with
    | .error => .returns (-1) [] pipe
    | .upTo most =>
      -- at the end of the file nothing is read, and nobody waits
      if pipe = [] ∧ most ≠ 0 then .waits
      else
        let bytes := pipe.take (min sz answer.granted)
        .returns bytes.length bytes (pipe.drop (min sz answer.granted))

/-- Where a call of `msgrcv` has come to. -/
structure Call where
  /-- `none` while it waits in `read`. -/
  result : Option Int
  buf : Buffer
  pipe : List UInt8

def untouched : Buffer := fun _ => none

/-- A `size_t` less the size of the size, as the code subtracts. -/
def bodySize (abi : Abi) (msgsz : Nat) : Nat := (abi.sizes + msgsz - abi.sizeT) % abi.sizes

def msgrcv (abi : Abi) (first second : Answer) (pipe : List UInt8) (msgbufsz : Nat) : Call :=
  match piperead first pipe abi.sizeT with
  | .waits => ⟨none, untouched, pipe⟩
  | .returns result bytes pipe =>
    let buf := untouched.store 0 bytes
    if result ≠ abi.sizeT then ⟨some (-1), buf, pipe⟩
    else
      let msgsz := readLE bytes
      -- the body of a message that does not fit stays in the pipe
      if msgbufsz < msgsz then ⟨some (-1), buf, pipe⟩
      else match piperead second pipe (bodySize abi msgsz) with
        | .waits => ⟨none, buf, pipe⟩
        | .returns result bytes pipe =>
          let buf := buf.store abi.sizeT bytes
          if result ≠ toInt (bodySize abi msgsz) then ⟨some (-1), buf, pipe⟩
          else ⟨some (toInt msgsz), buf, pipe⟩

/-- The answers to the two reads of one call. -/
abbrev Answers := Answer × Answer

/-- What successive calls should do with the messages in the pipe: hand out each that fits the buffer
with its length and bytes, reject the others, and leave the pipe at the next message. -/
def Delivers (abi : Abi) (msgbufsz : Nat) :
    List (Message abi) → List Answers → List UInt8 → Prop
  | m :: msgs, (first, second) :: answers, pipe =>
    let call := msgrcv abi first second pipe msgbufsz
    (if m.bytes.length ≤ msgbufsz then
      call.result = some (m.bytes.length : Int) ∧
        ∀ i, call.buf i = (framed abi m.bytes)[i]?
    else call.result = some (-1)) ∧
    call.pipe = sendAll msgs [] ∧ Delivers abi msgbufsz msgs answers call.pipe
  | _, _, _ => True

/-- No byte is stored at or past the buffer's end. -/
def Call.InBounds (call : Call) (msgbufsz : Nat) : Prop := ∀ i, msgbufsz ≤ i → call.buf i = none

/-- The size comes in one piece, and so does the body, which fits the buffer if there is one. -/
def Whole {abi : Abi} (msgbufsz : Nat) (m : Message abi) (answers : Answers) : Prop :=
  abi.sizeT ≤ answers.1.granted ∧
  (m.bytes.length = abi.sizeT ∨
    m.bytes.length ≤ msgbufsz ∧ m.bytes.length - abi.sizeT ≤ answers.2.granted)

/-- As many bytes of the size as come fit the buffer, and so does what comes after a size smaller
than itself. -/
def Contained (abi : Abi) (first second : Answer) (pipe : List UInt8) (msgbufsz : Nat) : Prop :=
  min (min abi.sizeT first.granted) pipe.length ≤ msgbufsz ∧
  (abi.sizeT ≤ first.granted → abi.sizeT ≤ pipe.length →
    readLE (pipe.take abi.sizeT) < abi.sizeT →
    abi.sizeT + min second.granted (pipe.length - abi.sizeT) ≤ msgbufsz)

/-!
## Framing

What successive calls of `msgrcv` make of a pipe full of messages, and where a call stores bytes
whatever the pipe holds.
-/
variable {abi : Abi}

theorem Answer.granted_le (answer : Answer) : answer.granted ≤ maxRwCount := by
  cases answer with
  | error => exact Nat.zero_le _
  | upTo most => exact Nat.min_le_right _ _

theorem sizeT_pos : 0 < abi.sizeT := by cases abi <;> decide

theorem sizeT_le : abi.sizeT ≤ 8 := by cases abi <;> decide

/-- Every count that `read` and `write` can return is a `size_t`. -/
theorem maxRwCount_lt_sizes : maxRwCount + 8 < abi.sizes := by cases abi <;> decide

theorem toInt_small {n : Nat} (small : n ≤ maxRwCount) : toInt n = n := by
  have bound : maxRwCount < 2 ^ 31 := by decide
  exact Int.bmod_eq_of_le (by omega) (by omega)

/-! ### The bytes in the pipe -/

theorem framed_length {msg : List UInt8} (room : abi.sizeT ≤ msg.length) :
    (framed abi msg).length = msg.length := by
  simp [framed]
  omega

theorem take_framed (msg rest : List UInt8) :
    (framed abi msg ++ rest).take abi.sizeT = le abi.sizeT msg.length := by
  rw [framed, List.append_assoc]
  exact List.take_left' (le_length _ _)

theorem drop_framed (msg rest : List UInt8) :
    (framed abi msg ++ rest).drop abi.sizeT = msg.drop abi.sizeT ++ rest := by
  rw [framed, List.append_assoc]
  exact List.drop_left' (le_length _ _)

namespace Message

variable (m : Message abi)

theorem small : m.bytes.length ≤ maxRwCount := m.complete.trans m.answer.granted_le

theorem size_eq : readLE (le abi.sizeT m.bytes.length) = m.bytes.length := by
  apply readLE_le
  have bound : maxRwCount + 8 < abi.sizes := maxRwCount_lt_sizes
  have small := m.small
  simp only [Abi.sizes] at bound
  omega

theorem bodySize_eq : bodySize abi m.bytes.length = m.bytes.length - abi.sizeT := by
  have bound : maxRwCount + 8 < abi.sizes := maxRwCount_lt_sizes
  have small := m.small
  have room := m.room
  rw [bodySize, show abi.sizes + m.bytes.length - abi.sizeT =
    (m.bytes.length - abi.sizeT) + abi.sizes by omega, Nat.add_mod_right, Nat.mod_eq_of_lt]
  omega

/-- A write that takes the whole message puts it behind what is there, its size in front. -/
theorem msgsnd_eq (pipe : List UInt8) :
    msgsnd abi m.answer pipe m.bytes = ((m.bytes.length : Int), pipe ++ framed abi m.bytes) := by
  have length := framed_length m.room
  have taken : (framed abi m.bytes).take m.answer.granted = framed abi m.bytes :=
    List.take_of_length_le (length ▸ m.complete)
  have written : pipewrite m.answer pipe (framed abi m.bytes) =
      ((m.bytes.length : Int), pipe ++ framed abi m.bytes) := by
    have complete := m.complete
    have room := m.room
    have pos : 0 < abi.sizeT := sizeT_pos
    cases answered : m.answer with
    | error =>
      rw [answered, Answer.granted] at complete
      omega
    | upTo most =>
      rw [answered] at taken
      simp only [pipewrite, taken, length]
  simp [msgsnd, written, toInt_small m.small]

end Message

theorem sendAll_eq (msgs : List (Message abi)) (pipe : List UInt8) :
    sendAll msgs pipe = pipe ++ sendAll msgs [] := by
  induction msgs generalizing pipe with
  | nil => simp [sendAll]
  | cons m msgs ih =>
    have step : ∀ pipe, sendAll (m :: msgs) pipe = sendAll msgs (pipe ++ framed abi m.bytes) := by
      intro pipe
      rw [sendAll, List.foldl_cons, m.msgsnd_eq]
      rfl
    rw [step, step, ih, ih ([] ++ _), List.nil_append, List.append_assoc]

theorem sendAll_cons (m : Message abi) (msgs : List (Message abi)) :
    sendAll (m :: msgs) [] = framed abi m.bytes ++ sendAll msgs [] := by
  rw [← sendAll_eq, sendAll, List.foldl_cons, m.msgsnd_eq]
  rfl

/-! ### One read -/

/-- A read that is granted all it asks for, with the bytes there. -/
theorem piperead_whole {answer : Answer} {pipe : List UInt8} {sz : Nat}
    (granted : sz ≤ answer.granted) (there : sz ≤ pipe.length) :
    piperead answer pipe sz = .returns sz (pipe.take sz) (pipe.drop sz) := by
  by_cases zero : sz = 0
  · simp [piperead, zero]
  cases answer with
  | error => exact absurd (Nat.le_zero.mp granted) zero
  | upTo most =>
    have some_bytes : pipe ≠ [] := by
      rintro rfl
      exact zero (Nat.le_zero.mp there)
    simp [piperead, zero, some_bytes, Nat.min_eq_left granted, there]

/-- The bytes a read brings, and where. -/
theorem piperead_cases (answer : Answer) (pipe : List UInt8) {sz : Nat} (asked : sz ≠ 0) :
    (piperead answer pipe sz = .waits ∧ pipe = []) ∨
    ∃ len, piperead answer pipe sz = .returns len (pipe.take (min sz answer.granted))
        (pipe.drop (min sz answer.granted)) ∧ (len = sz ↔ sz ≤ answer.granted ∧ sz ≤ pipe.length) := by
  cases answer with
  | error =>
    refine .inr ⟨-1, ?_, ?_⟩
    · simp [piperead, asked, Answer.granted]
    · simp only [Answer.granted]
      omega
  | upTo most =>
    by_cases empty : pipe = [] ∧ most ≠ 0
    · refine .inl ⟨?_, empty.1⟩
      simp only [piperead, asked, if_false, empty, and_self, if_true, ne_eq, not_false_eq_true]
    · refine .inr ⟨(pipe.take (min sz (Answer.upTo most).granted)).length, ?_, ?_⟩
      · simp only [piperead, asked, if_false, if_neg empty]
      · rw [List.length_take]
        omega

/-- A read that is granted less takes less, and does not return what was asked for. -/
theorem piperead_short {answer : Answer} {pipe : List UInt8} {sz : Nat}
    (short : answer.granted < sz) (there : sz ≤ pipe.length) :
    ∃ len bytes, piperead answer pipe sz = .returns len bytes (pipe.drop answer.granted) ∧ len ≠ sz := by
  have asked : sz ≠ 0 := by omega
  rcases piperead_cases answer pipe asked with ⟨-, rfl⟩ | ⟨len, read, complete⟩
  · exact absurd (Nat.le_zero.mp there) asked
  · rw [Nat.min_eq_right short.le] at read
    refine ⟨len, _, read, ?_⟩
    intro same
    exact Nat.not_le_of_lt short (complete.mp same).1

/-! ### Where bytes are stored -/

@[simp] theorem store_nil (buf : Buffer) (offset : Nat) : buf.store offset [] = buf := by
  funext i
  have nowhere : ¬ (offset ≤ i ∧ i < offset) := by omega
  simp [Buffer.store, nowhere]

theorem store_untouched (bytes : List UInt8) (i : Nat) :
    untouched.store 0 bytes i = bytes[i]? := by
  by_cases inside : i < bytes.length
  · simp [Buffer.store, inside]
  · simp [Buffer.store, inside, untouched]

/-- Bytes stored one after the other are stored as one. -/
theorem store_store (bytes more : List UInt8) :
    (untouched.store 0 bytes).store bytes.length more = untouched.store 0 (bytes ++ more) := by
  funext i
  rw [store_untouched, Buffer.store, store_untouched]
  by_cases front : i < bytes.length
  · rw [if_neg (by omega), List.getElem?_append_left front]
  · by_cases inside : i < bytes.length + more.length
    · rw [if_pos ⟨by omega, inside⟩, List.getElem?_append_right (by omega)]
    · rw [if_neg (by omega), List.getElem?_eq_none (by omega), List.getElem?_eq_none]
      rw [List.length_append]
      omega

/-- Bytes stored from the start on stay below a bound when they are no more than that. -/
theorem store_inBounds (bytes : List UInt8) (result : Option Int) (pipe : List UInt8) (msgbufsz : Nat) :
    Call.InBounds ⟨result, untouched.store 0 bytes, pipe⟩ msgbufsz ↔ bytes.length ≤ msgbufsz := by
  simp only [Call.InBounds, store_untouched, List.getElem?_eq_none_iff]
  constructor
  · intro inside
    exact inside msgbufsz (Nat.le_refl _)
  · intro fits i past
    exact fits.trans past

/-! ### One call on a message -/

section OneMessage

variable (m : Message abi) (rest : List UInt8) {first second : Answer} {msgbufsz : Nat}

/-- With the size in one piece, a message that is too long is rejected before its body is read. -/
theorem msgrcv_too_long (whole : abi.sizeT ≤ first.granted) (long : msgbufsz < m.bytes.length) :
    msgrcv abi first second (framed abi m.bytes ++ rest) msgbufsz =
      ⟨some (-1), untouched.store 0 (le abi.sizeT m.bytes.length), m.bytes.drop abi.sizeT ++ rest⟩ := by
  have there : abi.sizeT ≤ (framed abi m.bytes ++ rest).length := by
    rw [List.length_append, framed_length m.room]
    have room := m.room
    omega
  simp [msgrcv, piperead_whole whole there, take_framed, drop_framed, m.size_eq, long]

/-- With the size in one piece, a message that fits has its body read. -/
theorem msgrcv_fits (whole : abi.sizeT ≤ first.granted) (fits : m.bytes.length ≤ msgbufsz) :
    msgrcv abi first second (framed abi m.bytes ++ rest) msgbufsz =
      match piperead second (m.bytes.drop abi.sizeT ++ rest) (m.bytes.length - abi.sizeT) with
      | .waits => ⟨none, untouched.store 0 (le abi.sizeT m.bytes.length),
          m.bytes.drop abi.sizeT ++ rest⟩
      | .returns result bytes pipe =>
        if result ≠ ((m.bytes.length - abi.sizeT : Nat) : Int) then
          ⟨some (-1), (untouched.store 0 (le abi.sizeT m.bytes.length)).store abi.sizeT bytes, pipe⟩
        else ⟨some (m.bytes.length : Int),
          (untouched.store 0 (le abi.sizeT m.bytes.length)).store abi.sizeT bytes, pipe⟩ := by
  have there : abi.sizeT ≤ (framed abi m.bytes ++ rest).length := by
    rw [List.length_append, framed_length m.room]
    have room := m.room
    omega
  have body : toInt (m.bytes.length - abi.sizeT) = ((m.bytes.length - abi.sizeT : Nat) : Int) :=
    toInt_small ((Nat.sub_le _ _).trans m.small)
  rcases answer : piperead second (m.bytes.drop abi.sizeT ++ rest) (m.bytes.length - abi.sizeT) with
    _ | ⟨result, bytes, pipe⟩
  all_goals
    simp only [msgrcv, piperead_whole whole there, take_framed, drop_framed, m.size_eq,
      m.bodySize_eq, not_lt.mpr fits, body, toInt_small m.small, ne_eq, not_true_eq_false, if_false,
      answer]

/-- A whole message is handed out if it fits, and skipped if it does not. -/
theorem msgrcv_whole (whole : Whole msgbufsz m (first, second)) :
    let call := msgrcv abi first second (framed abi m.bytes ++ rest) msgbufsz
    (if m.bytes.length ≤ msgbufsz then
      call.result = some (m.bytes.length : Int) ∧ ∀ i, call.buf i = (framed abi m.bytes)[i]?
    else call.result = some (-1)) ∧ call.pipe = rest := by
  obtain ⟨size, body⟩ := whole
  have room := m.room
  by_cases fits : m.bytes.length ≤ msgbufsz
  · have granted : m.bytes.length - abi.sizeT ≤ second.granted := by
      rcases body with none | ⟨-, granted⟩
      · omega
      · exact granted
    have there : m.bytes.length - abi.sizeT ≤ (m.bytes.drop abi.sizeT ++ rest).length := by
      rw [List.length_append, List.length_drop]
      omega
    have taken : (m.bytes.drop abi.sizeT ++ rest).take (m.bytes.length - abi.sizeT) =
        m.bytes.drop abi.sizeT := List.take_left' (by simp)
    have left : (m.bytes.drop abi.sizeT ++ rest).drop (m.bytes.length - abi.sizeT) = rest :=
      List.drop_left' (by simp)
    have stored : (untouched.store 0 (le abi.sizeT m.bytes.length)).store abi.sizeT
        (m.bytes.drop abi.sizeT) = untouched.store 0 (framed abi m.bytes) := by
      have joined := store_store (le abi.sizeT m.bytes.length) (m.bytes.drop abi.sizeT)
      rwa [le_length] at joined
    simp only [msgrcv_fits m rest size fits, piperead_whole granted there, taken, left, stored,
      fits, if_true, ne_eq, not_true_eq_false, if_false, store_untouched, implies_true, and_self]
  · -- only a message without a body can be rejected as a whole
    have empty : m.bytes.length = abi.sizeT := by
      rcases body with none | ⟨fits', -⟩
      · exact none
      · exact absurd fits' fits
    rw [msgrcv_too_long m rest size (Nat.lt_of_not_le fits)]
    simp [fits, List.drop_of_length_le empty.le]

/-- Otherwise the call leaves some of the message in the pipe. -/
theorem msgrcv_not_whole (broken : ¬ Whole msgbufsz m (first, second)) :
    rest.length < (msgrcv abi first second (framed abi m.bytes ++ rest) msgbufsz).pipe.length := by
  have room := m.room
  by_cases size : abi.sizeT ≤ first.granted
  · have body : m.bytes.length ≠ abi.sizeT ∧
        (m.bytes.length ≤ msgbufsz → second.granted < m.bytes.length - abi.sizeT) := by
      constructor
      · intro none
        exact broken ⟨size, .inl none⟩
      · intro fits
        apply Nat.lt_of_not_le
        intro granted
        exact broken ⟨size, .inr ⟨fits, granted⟩⟩
    by_cases fits : m.bytes.length ≤ msgbufsz
    · have short := body.2 fits
      have there : m.bytes.length - abi.sizeT ≤ (m.bytes.drop abi.sizeT ++ rest).length := by
        rw [List.length_append, List.length_drop]
        omega
      obtain ⟨len, bytes, read, differs⟩ := piperead_short short there
      rw [msgrcv_fits m rest size fits, read]
      simp only [ne_eq, differs, not_false_eq_true, if_true, List.length_drop, List.length_append]
      omega
    · rw [msgrcv_too_long m rest size (Nat.lt_of_not_le fits)]
      simp only [List.length_append, List.length_drop]
      omega
  · -- a size in pieces: the call gives up with the rest of it still in the pipe
    have there : abi.sizeT ≤ (framed abi m.bytes ++ rest).length := by
      rw [List.length_append, framed_length m.room]
      omega
    obtain ⟨len, bytes, read, differs⟩ := piperead_short (Nat.lt_of_not_le size) there
    simp only [msgrcv, read, ne_eq, differs, not_false_eq_true, if_true, List.length_drop,
      List.length_append, framed_length m.room]
    omega

end OneMessage

/-- Successive calls hand the messages out as they should exactly if each of those they are made for
comes whole. -/
theorem delivers_iff (msgbufsz : Nat) (msgs : List (Message abi)) (answers : List Answers) :
    Delivers abi msgbufsz msgs answers (sendAll msgs []) ↔
      ∀ call ∈ msgs.zip answers, Whole msgbufsz call.1 call.2 := by
  induction msgs generalizing answers with
  | nil => simp [Delivers]
  | cons m msgs ih =>
    cases answers with
    | nil => simp [Delivers]
    | cons answer answers =>
      obtain ⟨first, second⟩ := answer
      rw [sendAll_cons, Delivers, List.zip_cons_cons, List.forall_mem_cons, ← ih]
      constructor
      · rintro ⟨-, left, delivers⟩
        constructor
        · by_contra broken
          have longer := msgrcv_not_whole m (sendAll msgs []) broken
          rw [left] at longer
          exact Nat.lt_irrefl _ longer
        · rwa [left] at delivers
      · rintro ⟨whole, delivers⟩
        have received := msgrcv_whole m (sendAll msgs []) whole
        refine ⟨received.1, received.2, ?_⟩
        rwa [received.2]

/-! ### One call on any bytes -/

theorem bodySize_of_lt {msgsz : Nat} (small : msgsz < abi.sizeT) :
    maxRwCount < bodySize abi msgsz := by
  have bound : maxRwCount + 8 < abi.sizes := maxRwCount_lt_sizes
  have word : abi.sizeT ≤ 8 := sizeT_le
  rw [bodySize, Nat.mod_eq_of_lt] <;> omega

theorem bodySize_of_le {msgsz : Nat} (large : abi.sizeT ≤ msgsz) :
    bodySize abi msgsz ≤ msgsz - abi.sizeT := by
  rw [bodySize, show abi.sizes + msgsz - abi.sizeT = (msgsz - abi.sizeT) + abi.sizes by omega,
    Nat.add_mod_right]
  exact Nat.mod_le _ _

/-- Whatever the pipe holds, a call stores no byte past the buffer exactly if the size fits it and no
size smaller than itself is followed by too many bytes. -/
theorem msgrcv_inBounds_iff (first second : Answer) (pipe : List UInt8) (msgbufsz : Nat) :
    (msgrcv abi first second pipe msgbufsz).InBounds msgbufsz ↔ Contained abi first second pipe msgbufsz := by
  have pos : 0 < abi.sizeT := sizeT_pos
  rcases piperead_cases first pipe pos.ne' with ⟨waits, rfl⟩ | ⟨len, read, complete⟩
  · have inside : (msgrcv abi first second [] msgbufsz).InBounds msgbufsz := by
      rw [msgrcv, waits]
      exact fun _ _ => rfl
    simp only [inside, Contained, List.length_nil, true_iff]
    omega
  -- the first read brings the whole size, or less and the call ends
  by_cases size : abi.sizeT ≤ first.granted ∧ abi.sizeT ≤ pipe.length
  · rw [Nat.min_eq_left size.1, complete.mpr size] at read
    have length : (pipe.take abi.sizeT).length = abi.sizeT := List.length_take_of_le size.2
    by_cases long : msgbufsz < readLE (pipe.take abi.sizeT)
    · rw [msgrcv, read]
      simp only [ne_eq, not_true_eq_false, if_false, long, if_true, store_inBounds, length, Contained]
      constructor
      · intro fits
        constructor <;> omega
      · intro contained
        omega
    · -- the second read is made, and stores right behind the size
      have stored : ∀ more : List UInt8, ((untouched.store 0 (pipe.take abi.sizeT)).store abi.sizeT
          more) = untouched.store 0 (pipe.take abi.sizeT ++ more) := by
        intro more
        have joined := store_store (pipe.take abi.sizeT) more
        rwa [length] at joined
      have bounds : (msgrcv abi first second pipe msgbufsz).InBounds msgbufsz ↔
          abi.sizeT + min (min (bodySize abi (readLE (pipe.take abi.sizeT))) second.granted)
            (pipe.length - abi.sizeT) ≤ msgbufsz := by
        rw [msgrcv, read]
        simp only [ne_eq, not_true_eq_false, if_false, long]
        by_cases none : bodySize abi (readLE (pipe.take abi.sizeT)) = 0
        · rw [none]
          simp only [piperead, if_true, store_nil]
          split <;> simp only [store_inBounds, length] <;> omega
        rcases piperead_cases second (pipe.drop abi.sizeT) none with ⟨waits, empty⟩ | ⟨len, read, -⟩
        · have nothing : pipe.length - abi.sizeT = 0 := by rw [← List.length_drop, empty]; rfl
          simp only [waits, store_inBounds, length, nothing]
          omega
        · rw [read]
          simp only [stored]
          split <;>
            simp only [store_inBounds, List.length_append, length, List.length_take, List.length_drop]
      rw [bounds, Contained]
      -- a size below its own width wraps: the body then takes whatever there is
      by_cases small : readLE (pipe.take abi.sizeT) < abi.sizeT
      · have wraps := bodySize_of_lt small
        have most := second.granted_le
        simp only [size, small, true_implies, Nat.min_eq_left, Nat.min_eq_right (most.trans wraps.le)]
        constructor
        · intro fits
          constructor <;> omega
        · exact And.right
      · have body := bodySize_of_le (Nat.le_of_not_lt small)
        omega
  · have short : len ≠ abi.sizeT := fun same => size (complete.mp same)
    rw [msgrcv, read]
    simp only [ne_eq, short, not_false_eq_true, if_true, store_inBounds, List.length_take, Contained]
    constructor
    · intro fits
      exact ⟨fits, fun granted there => absurd ⟨granted, there⟩ size⟩
    · exact And.left

/-- Whatever is sent, however the reads are answered: successive calls hand out the messages that fit,
and reject the others, exactly if every message comes whole; and a call on any bytes stores none past
the buffer exactly if the size and what follows a bad size fit it. -/
theorem framing_iff (abi : Abi) (msgbufsz : Nat) :
    (∀ (msgs : List (Message abi)) (answers : List Answers),
      Delivers abi msgbufsz msgs answers (sendAll msgs []) ↔
        ∀ call ∈ msgs.zip answers, Whole msgbufsz call.1 call.2) ∧
    ∀ first second pipe, (msgrcv abi first second pipe msgbufsz).InBounds msgbufsz ↔
      Contained abi first second pipe msgbufsz :=
  ⟨delivers_iff msgbufsz, fun first second pipe => msgrcv_inBounds_iff first second pipe msgbufsz⟩

/-- A message of zeros, written whole. -/
def zeros (n : Nat) (room : 8 ≤ n) (small : n ≤ maxRwCount) : Message .lp64 :=
  ⟨List.replicate n 0, .upTo n, by simpa [Abi.sizeT] using room,
    by simpa [Answer.granted] using small⟩

/-- A message too long for the buffer, a read that brings half a size, and a size smaller than
itself. -/
theorem framing_lost :
    ¬ Delivers .lp64 16 [zeros 24 (by decide) (by decide), zeros 16 (by decide) (by decide)]
      [(.upTo 100, .upTo 100), (.upTo 100, .upTo 100)]
      (sendAll [zeros 24 (by decide) (by decide), zeros 16 (by decide) (by decide)] []) ∧
    ¬ Delivers .lp64 16 [zeros 16 (by decide) (by decide)] [(.upTo 4, .upTo 100)]
      (sendAll [zeros 16 (by decide) (by decide)] []) ∧
    ¬ (msgrcv .ilp32 (.upTo 100) (.upTo 100) (le 4 3 ++ List.replicate 20 0) 16).InBounds 16 := by
  refine ⟨?_, ?_, ?_⟩
  · rw [delivers_iff]
    simp [Whole, zeros, Abi.sizeT]
  · rw [delivers_iff]
    simp [Whole, zeros, Abi.sizeT, Answer.granted]
  · rw [msgrcv_inBounds_iff]
    intro contained
    exact absurd (contained.2 (by decide) (by decide) (by decide)) (by decide)

end Hima.Gps.ConnGlue
