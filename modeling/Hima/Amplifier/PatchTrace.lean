import Hima.Amplifier.Bringup
import Hima.Amplifier.Chunks

/-!
# tfa9887_load_patch

A patch is a sequence of records: a length of 16 bits, low byte first, and so many bytes, of which the
first is a subaddress. The loader checks the announced length against the end of the patch and not
against its buffer, reads a header of which only the first byte is there, and writes one byte more than
a record has. Here are the messages it sends, if all go through, and how it ends.
-/
namespace Hima.Amplifier

open Hima.Fallible

/-- How the loader ends: it returns 0, -EINVAL, or -EIO for the status; `outside` when it accesses memory
outside the patch or its buffer. -/
inductive LoadEnd
  | done
  | invalid
  | notReady
  | outside
  deriving DecidableEq

structure LoadTrace where
  messages : List (List Byte) := []
  stop : LoadEnd
  deriving DecidableEq

/-- The loop over what is left of the patch, with the bytes in `buffer`. The access outside of a record
that fills the buffer comes with the second message of its write. -/
def patchTrace (buffer bytes : List Byte) : LoadTrace :=
  match bytes with
  | [] => { stop := .done }
  | [_] => { stop := .outside }
  | lo :: hi :: data =>
    let size := lo.toNat + hi.toNat * 256
    if data.length < size then { stop := .invalid }
    else if MAX_I2C_LENGTH < size then { stop := .outside }
    else
      let buffer := data.take size ++ buffer.drop size
      let messages := writeMessages (buffer.getD 0 0) ((buffer.drop 1).take size) 1
      if size = MAX_I2C_LENGTH then { messages := messages.take 1, stop := .outside }
      else
        let later := patchTrace buffer (data.drop size)
        { messages := messages ++ later.messages, stop := later.stop }
  termination_by bytes.length
  decreasing_by
    rw [List.length_drop, List.length_cons, List.length_cons]
    omega

/-- The outcome of tfa9887_read_reg for STATUS: its value, or what is in the variable when it could not be
read. -/
inductive StatusRead
  | value (status : BitVec 16)
  | unread (status : BitVec 16)

/-- tfa9887_load_patch, when its buffer holds `stack` at first. -/
def loadTrace (stack : List Byte) (status : StatusRead) (bytes : List Byte) : LoadTrace :=
  match status with
  | .unread status =>
    if status &&& statusOk ≠ statusOk then { stop := .notReady } else patchTrace stack bytes
  | .value _ => patchTrace stack bytes

/-! ### One record -/

section

variable {buffer data : List Byte} {lo hi : Byte}

theorem patchTrace_nil : patchTrace buffer [] = { stop := .done } := by
  rw [patchTrace]

theorem patchTrace_short (short : data.length < lo.toNat + hi.toNat * 256) :
    patchTrace buffer (lo :: hi :: data) = { stop := .invalid } := by
  rw [patchTrace]
  exact if_pos short

theorem patchTrace_outside (there : lo.toNat + hi.toNat * 256 ≤ data.length)
    (large : MAX_I2C_LENGTH ≤ lo.toNat + hi.toNat * 256) :
    (patchTrace buffer (lo :: hi :: data)).stop = .outside := by
  rw [patchTrace]
  simp only [if_neg (Nat.not_lt.mpr there)]
  split
  · rfl
  · rw [if_pos (by omega)]

/-- A record that leaves room in the buffer is sent, and the loader goes on. -/
theorem patchTrace_record {size : Nat} (announced : lo.toNat + hi.toNat * 256 = size)
    (there : size ≤ data.length) (small : size < MAX_I2C_LENGTH) :
    patchTrace buffer (lo :: hi :: data) =
      { messages := writeMessages ((data.take size ++ buffer.drop size).getD 0 0)
            (((data.take size ++ buffer.drop size).drop 1).take size) 1 ++
          (patchTrace (data.take size ++ buffer.drop size) (data.drop size)).messages
        stop := (patchTrace (data.take size ++ buffer.drop size) (data.drop size)).stop } := by
  subst announced
  rw [patchTrace]
  simp only [if_neg (Nat.not_lt.mpr there), if_neg (Nat.lt_asymm small), if_neg (Nat.ne_of_lt small)]

end

/-! ### The program sends the messages of the trace -/

section

variable (env : Env) (amp : Amp)

/-- The result of the loader for an end inside the memory. -/
def LoadEnd.result : LoadEnd → Except Failure Unit
  | .invalid => .error EINVAL.negated
  | .notReady => .error EIO.negated
  | .done | .outside => .ok ()

/-- A trace on the bus: a message that fails ends it with -EIO. -/
def replay (trace : LoadTrace) (p : Port) : Except Failure Unit × Port :=
  match (sendAll env amp trace.messages).run p with
  | (.error _, q) => (.error EIO.negated, q)
  | (.ok (), q) => (trace.stop.result, q)

theorem run_sendAll_append (first later : List (List Byte)) (p : Port) :
    (sendAll env amp (first ++ later)).run p = match (sendAll env amp first).run p with
      | (.error e, q) => (.error e, q)
      | (.ok (), q) => (sendAll env amp later).run q := by
  induction first generalizing p with
  | nil => rfl
  | cons message first ih =>
    rw [List.cons_append, sendAll, sendAll, Prog.run_bind, Prog.run_bind]
    cases (writeConfig env amp message).run p with
    | mk answer q =>
      cases answer with
      | error e => rfl
      | ok sent => exact ih q

theorem run_patchBlocks {fuel : Nat} {buffer bytes : List Byte} (enough : bytes.length ≤ fuel)
    (inside : (patchTrace buffer bytes).stop ≠ .outside) (p : Port) :
    (patchBlocks env amp fuel buffer bytes).run p = replay env amp (patchTrace buffer bytes) p := by
  induction fuel generalizing buffer bytes p with
  | zero =>
    rw [List.length_eq_zero_iff.mp (Nat.le_zero.mp enough), patchTrace_nil]
    rfl
  | succ fuel ih =>
    -- the cases of the loop: no header, half a header, and a header with what it announces
    match bytes with
    | [] =>
      rw [patchTrace_nil]
      rfl
    | [_] =>
      rw [patchTrace] at inside
      exact absurd rfl inside
    | lo :: hi :: data =>
      rw [patchBlocks]
      by_cases short : data.length < lo.toNat + hi.toNat * 256
      · rw [patchTrace_short short]
        simp only [if_pos short]
        rfl
      · have there := Nat.not_lt.mp short
        have small : lo.toNat + hi.toNat * 256 < MAX_I2C_LENGTH := by
          by_contra large
          exact inside (patchTrace_outside there (Nat.not_lt.mp large))
        rw [patchTrace_record rfl there small] at inside ⊢
        simp only [if_neg short, replay, write_eq_sendAll]
        rw [run_sendAll_append, Prog.run_bind, Prog.run_attempt]
        -- the loader goes on only if all messages of the record have gone through
        generalize (sendAll env amp _).run p = sent
        obtain ⟨answer, q⟩ := sent
        cases answer with
        | error e => rfl
        | ok all =>
          refine ih ?_ inside q
          rw [List.length_drop]
          rw [List.length_cons, List.length_cons] at enough
          omega

/-- The answer of tfa9887_read_reg; the variable starts with what is on the stack. -/
def StatusRead.of (stack : List Byte) : Except Failure (BitVec 16) → StatusRead
  | .ok status => .value status
  | .error _ => .unread (stack.getD 0 0 ++ stack.getD 1 0)

/-- The loader does what its trace says, up to the first message that fails. -/
theorem run_loadPatch {bytes : List Byte} {p q : Port} {answer : Except Failure (BitVec 16)}
    (read : (readReg env amp Reg.STATUS).run p = (answer, q)) {stack : List Byte}
    (found : garbage env MAX_I2C_LENGTH p.host = stack)
    (inside : (loadTrace stack (.of stack answer) bytes).stop ≠ .outside) :
    (loadPatch env amp bytes).run p = replay env amp (loadTrace stack (.of stack answer) bytes) q := by
  subst found
  rw [loadPatch, Prog.run_bind, Prog.run_inspect]
  simp only
  rw [Prog.run_bind, Prog.run_attempt, read]
  cases answer with
  | ok status => exact run_patchBlocks env amp (Nat.le_refl _) inside q
  | error e =>
    rw [StatusRead.of, loadTrace] at inside ⊢
    split at inside
    next missing =>
      rw [if_pos missing, if_pos missing]
      rfl
    next all =>
      rw [if_neg all, if_neg all]
      exact run_patchBlocks env amp (Nat.le_refl _) inside q

end

/-! ### Records -/

/-- The bytes of a record behind its length. -/
def record (r : List Byte) : List Byte := BitVec.ofNat 8 r.length :: BitVec.ofNat 8 (r.length / 256) :: r

theorem announced {r : List Byte} (small : r.length < 2 ^ 16) :
    (BitVec.ofNat 8 r.length).toNat + (BitVec.ofNat 8 (r.length / 256)).toNat * 256 = r.length := by
  rw [BitVec.toNat_ofNat, BitVec.toNat_ofNat]
  omega

/-- What a header announces, when it is there, is a record. -/
theorem record_take {lo hi : Byte} {data : List Byte} (there : lo.toNat + hi.toNat * 256 ≤ data.length) :
    lo :: hi :: data =
      record (data.take (lo.toNat + hi.toNat * 256)) ++ data.drop (lo.toNat + hi.toNat * 256) := by
  have length : (data.take (lo.toNat + hi.toNat * 256)).length = lo.toNat + hi.toNat * 256 := by
    rw [List.length_take]
    omega
  have low : BitVec.ofNat 8 (lo.toNat + hi.toNat * 256) = lo := by
    apply BitVec.eq_of_toNat_eq
    rw [BitVec.toNat_ofNat]
    omega
  have high : BitVec.ofNat 8 ((lo.toNat + hi.toNat * 256) / 256) = hi := by
    apply BitVec.eq_of_toNat_eq
    rw [BitVec.toNat_ofNat]
    omega
  rw [record, length, low, high, List.cons_append, List.cons_append, List.take_append_drop]

theorem patchTrace_append {r : List Byte} (small : r.length < MAX_I2C_LENGTH) (buffer rest : List Byte) :
    patchTrace buffer (record r ++ rest) =
      { messages := writeMessages ((r ++ buffer.drop r.length).getD 0 0)
            (((r ++ buffer.drop r.length).drop 1).take r.length) 1 ++
          (patchTrace (r ++ buffer.drop r.length) rest).messages
        stop := (patchTrace (r ++ buffer.drop r.length) rest).stop } := by
  have size : r.length < 2 ^ 16 := Nat.lt_trans small (by decide)
  have there : r.length ≤ (r ++ rest).length := by
    rw [List.length_append]
    exact Nat.le_add_right _ _
  rw [record, List.cons_append, List.cons_append, patchTrace_record (announced size) there small,
    List.take_left, List.drop_left]

theorem patchTrace_append_outside {r : List Byte} (size : r.length < 2 ^ 16)
    (large : MAX_I2C_LENGTH ≤ r.length) (buffer rest : List Byte) :
    (patchTrace buffer (record r ++ rest)).stop = .outside := by
  rw [record, List.cons_append, List.cons_append]
  refine patchTrace_outside ?_ ((announced size).symm ▸ large)
  rw [announced size, List.length_append]
  exact Nat.le_add_right _ _

/-- The bytes that a trace writes, without the subaddresses. -/
def LoadTrace.written (trace : LoadTrace) : List Byte := (trace.messages.map List.tail).flatten

variable {records : List (List Byte)}

/-- Records that all leave room in the buffer: as many bytes are written as they have, one for each more
than its payload. -/
theorem patchTrace_records (small : ∀ r ∈ records, r.length < MAX_I2C_LENGTH)
    {buffer : List Byte} (size : buffer.length = MAX_I2C_LENGTH) (rest : List Byte) :
    ∃ buffer', buffer'.length = MAX_I2C_LENGTH ∧
      (patchTrace buffer (records.flatMap record ++ rest)).stop = (patchTrace buffer' rest).stop ∧
      (patchTrace buffer (records.flatMap record ++ rest)).written.length =
        (records.map List.length).sum + (patchTrace buffer' rest).written.length := by
  induction records generalizing buffer with
  | nil => exact ⟨buffer, size, rfl, (Nat.zero_add _).symm⟩
  | cons r records ih =>
    obtain ⟨first, later⟩ := List.forall_mem_cons.mp small
    have full : (r ++ buffer.drop r.length).length = MAX_I2C_LENGTH := by
      rw [List.length_append, List.length_drop, size]
      omega
    obtain ⟨buffer', size', stop, written⟩ := ih later full
    refine ⟨buffer', size', ?_, ?_⟩
    · rw [List.flatMap_cons, List.append_assoc, patchTrace_append first]
      exact stop
    · -- the byte behind the record is written in place of its subaddress
      have payload : ((r ++ buffer.drop r.length).drop 1 |>.take r.length).length = r.length := by
        rw [List.length_take, List.length_drop, full]
        omega
      rw [List.flatMap_cons, List.append_assoc, patchTrace_append first, LoadTrace.written, List.map_append,
        List.flatten_append, List.length_append, writeMessages_payload _ _ Nat.one_pos (by decide), payload,
        List.map_cons, List.sum_cons, Nat.add_assoc]
      exact congrArg (r.length + ·) written

/-- Whole records of which each leaves room in the buffer, and a header that announces more than there
is. -/
def CutOff (bytes : List Byte) : Prop :=
  ∃ (records : List (List Byte)) (lo hi : Byte) (rest : List Byte), (∀ r ∈ records, r.length < MAX_I2C_LENGTH) ∧
    bytes = records.flatMap record ++ lo :: hi :: rest ∧ rest.length < lo.toNat + hi.toNat * 256

theorem patchTrace_stop (buffer bytes : List Byte) :
    (patchTrace buffer bytes).stop = .outside ∨ (patchTrace buffer bytes).stop = .invalid ∧ CutOff bytes ∨
      (patchTrace buffer bytes).stop = .done ∧ ∃ records : List (List Byte),
        (∀ r ∈ records, r.length < MAX_I2C_LENGTH) ∧ bytes = records.flatMap record := by
  induction buffer, bytes using patchTrace.induct with
  | case1 buffer =>
    rw [patchTrace_nil]
    exact .inr (.inr ⟨rfl, [], nofun, rfl⟩)
  | case2 buffer =>
    rw [patchTrace]
    exact .inl rfl
  | case3 buffer lo hi data size short =>
    rw [patchTrace_short short]
    exact .inr (.inl ⟨rfl, [], lo, hi, data, nofun, rfl, short⟩)
  | case4 buffer lo hi data size there large =>
    exact .inl (patchTrace_outside (Nat.not_lt.mp there) (Nat.le_of_lt large))
  | case5 buffer lo hi data size there large full =>
    exact .inl (patchTrace_outside (Nat.not_lt.mp there) (Nat.le_of_eq full.symm))
  | case6 buffer lo hi data size there large _ full ih =>
    have small : size < MAX_I2C_LENGTH := Nat.lt_of_le_of_ne (Nat.not_lt.mp large) full
    have first := record_take (Nat.not_lt.mp there)
    have length : (data.take size).length < MAX_I2C_LENGTH :=
      Nat.lt_of_le_of_lt (List.length_take_le _ _) small
    rw [patchTrace_record rfl (Nat.not_lt.mp there) small, first]
    rcases ih with outside | ⟨invalid, records, lo', hi', rest, fits, same, short⟩ | ⟨done, records, fits, same⟩
    · exact .inl outside
    · refine .inr (.inl ⟨invalid, data.take size :: records, lo', hi', rest,
        List.forall_mem_cons.mpr ⟨length, fits⟩, ?_, short⟩)
      rw [same, List.flatMap_cons, List.append_assoc]
    · refine .inr (.inr ⟨done, data.take size :: records, List.forall_mem_cons.mpr ⟨length, fits⟩, ?_⟩)
      rw [same, List.flatMap_cons]

/-- A patch that is cut off is refused when the loader gets there. -/
theorem CutOff.stop {bytes : List Byte} (cut : CutOff bytes) {buffer : List Byte}
    (size : buffer.length = MAX_I2C_LENGTH) : (patchTrace buffer bytes).stop = .invalid := by
  obtain ⟨records, lo, hi, rest, fits, rfl, short⟩ := cut
  obtain ⟨buffer', -, stop, -⟩ := patchTrace_records fits size (lo :: hi :: rest)
  rw [stop, patchTrace_short short]

/-! ### Exactly the well-formed patches -/

/-- A concatenation of records whose bytes fit the bus. -/
def PatchOf (records : List (List Byte)) (bytes : List Byte) : Prop :=
  bytes = records.flatMap record ∧ ∀ r ∈ records, 1 ≤ r.length ∧ r.length ≤ MAX_I2C_LENGTH

/-- STATUS was read, with all bits that the loader asks for. -/
def StatusRead.Ready : StatusRead → Prop
  | .value status => status &&& statusOk = statusOk
  | .unread _ => False

/-- The messages are writes for the records in order: to the subaddress of each, its payload. -/
def Writes (records : List (List Byte)) (messages : List (List Byte)) : Prop :=
  ∃ groups : List (List (List Byte)), messages = groups.flatten ∧
    List.Forall₂ (fun r group => (∀ message ∈ group, message.head? = r.head?) ∧
      (group.map List.tail).flatten = r.tail) records groups

/-- The loader sends a well-formed patch and returns 0 when the device is ready; it refuses every other
one, and stays inside its memory. -/
structure LoadsExactly (stack : List Byte) (status : StatusRead) (bytes : List Byte) : Prop where
  inside : (loadTrace stack status bytes).stop ≠ .outside
  loads : ∀ records, PatchOf records bytes → status.Ready →
    (loadTrace stack status bytes).stop = .done ∧ Writes records (loadTrace stack status bytes).messages
  refuses : ¬ ((∃ records, PatchOf records bytes) ∧ status.Ready) →
    (loadTrace stack status bytes).stop = .invalid ∨ (loadTrace stack status bytes).stop = .notReady

theorem Writes.length {records messages : List (List Byte)} (writes : Writes records messages) :
    (messages.map List.tail).flatten.length = (records.map fun r => r.length - 1).sum := by
  obtain ⟨groups, rfl, each⟩ := writes
  induction each with
  | nil => rfl
  | cons first later ih =>
    rw [List.flatten_cons, List.map_append, List.flatten_append, List.length_append, first.2, ih,
      List.length_tail, List.map_cons, List.sum_cons]

/-- A record that fills the buffer is reached. -/
theorem patchTrace_full (each : ∀ r ∈ records, r.length ≤ MAX_I2C_LENGTH)
    (full : ∃ r ∈ records, r.length = MAX_I2C_LENGTH) (buffer : List Byte) :
    (patchTrace buffer (records.flatMap record)).stop = .outside := by
  induction records generalizing buffer with
  | nil =>
    obtain ⟨r, member, -⟩ := full
    cases member
  | cons r records ih =>
    obtain ⟨first, later⟩ := List.forall_mem_cons.mp each
    rw [List.flatMap_cons]
    by_cases fills : r.length = MAX_I2C_LENGTH
    · exact patchTrace_append_outside (by rw [fills]; decide) (Nat.le_of_eq fills.symm) _ _
    · rw [patchTrace_append (Nat.lt_of_le_of_ne first fills)]
      obtain ⟨r', member, large⟩ := full
      rcases List.mem_cons.mp member with rfl | member
      · exact absurd large fills
      · exact ih later ⟨r', member, large⟩ _

theorem sum_payloads (each : ∀ r ∈ records, 1 ≤ r.length) :
    (records.map fun r => r.length - 1).sum + records.length = (records.map List.length).sum := by
  induction records with
  | nil => rfl
  | cons r records ih =>
    obtain ⟨first, later⟩ := List.forall_mem_cons.mp each
    have rest := ih later
    rw [List.map_cons, List.map_cons, List.sum_cons, List.sum_cons, List.length_cons]
    omega

/-- For records the loop writes every byte or leaves its memory. -/
theorem PatchOf.trace {bytes : List Byte} (patch : PatchOf records bytes)
    {buffer : List Byte} (size : buffer.length = MAX_I2C_LENGTH) :
    (patchTrace buffer bytes).stop = .outside ∨ (patchTrace buffer bytes).stop = .done ∧
      (patchTrace buffer bytes).written.length = (records.map List.length).sum := by
  obtain ⟨rfl, each⟩ := patch
  by_cases fits : ∀ r ∈ records, r.length < MAX_I2C_LENGTH
  · obtain ⟨buffer', -, stop, written⟩ := patchTrace_records fits size []
    rw [List.append_nil, patchTrace_nil] at stop written
    exact .inr ⟨stop, written⟩
  · obtain ⟨r, member, large⟩ : ∃ r ∈ records, ¬ r.length < MAX_I2C_LENGTH := by
      simpa using fits
    exact .inl (patchTrace_full (fun r member => (each r member).2)
      ⟨r, member, Nat.le_antisymm (each r member).2 (Nat.not_lt.mp large)⟩ buffer)

theorem loadsExactly_notReady {stack bytes : List Byte} {value : BitVec 16}
    (missing : value &&& statusOk ≠ statusOk) : LoadsExactly stack (.unread value) bytes := by
  have trace : loadTrace stack (.unread value) bytes = { stop := .notReady } := by
    rw [loadTrace, if_pos missing]
  refine ⟨?_, ?_, ?_⟩
  · rw [trace]
    decide
  · rintro records patch ⟨⟩
  · intro
    rw [trace]
    exact .inr rfl

section

variable {stack bytes : List Byte} {status : StatusRead}

theorem CutOff.loadsExactly (cut : CutOff bytes) (size : stack.length = MAX_I2C_LENGTH)
    (trace : loadTrace stack status bytes = patchTrace stack bytes) : LoadsExactly stack status bytes := by
  have invalid := cut.stop size
  refine ⟨by rw [trace, invalid]; decide, ?_, fun _ => .inl (by rw [trace, invalid])⟩
  intro records patch
  rcases patch.trace size with outside | ⟨done, -⟩
  · cases invalid.symm.trans outside
  · cases invalid.symm.trans done

theorem loadsExactly_nil (ready : status.Ready) (trace : loadTrace stack status [] = patchTrace stack []) :
    LoadsExactly stack status [] := by
  rw [patchTrace_nil] at trace
  refine ⟨by rw [trace]; decide, ?_, ?_⟩
  · rintro records ⟨empty, -⟩ -
    cases records with
    | nil => exact ⟨by rw [trace], by rw [trace]; exact ⟨[], rfl, .nil⟩⟩
    | cons r records => cases empty
  · intro bad
    exact absurd ⟨⟨[], rfl, nofun⟩, ready⟩ bad

/-- A loader that is right and ends by itself has refused a patch that is cut off, or had nothing to load:
each record makes it write one byte too many. -/
theorem LoadsExactly.cutOff_or_nil (exact : LoadsExactly stack status bytes)
    (size : stack.length = MAX_I2C_LENGTH) (trace : loadTrace stack status bytes = patchTrace stack bytes) :
    CutOff bytes ∨ bytes = [] ∧ status.Ready := by
  obtain ⟨inside, loads, refuses⟩ := exact
  rw [trace] at inside loads refuses
  rcases patchTrace_stop stack bytes with outside | ⟨-, cut⟩ | ⟨done, -⟩
  · exact absurd outside inside
  · exact .inl cut
  · have good : (∃ records, PatchOf records bytes) ∧ status.Ready := by
      by_contra bad
      rcases refuses bad with invalid | notReady
      · cases done.symm.trans invalid
      · cases done.symm.trans notReady
    obtain ⟨⟨records, patch⟩, ready⟩ := good
    obtain ⟨-, written⟩ := (patch.trace size).resolve_left inside
    have payloads := (loads records patch ready).2.length
    have sum := sum_payloads fun r member => (patch.2 r member).1
    rw [LoadTrace.written, payloads] at written
    have none : records = [] := List.length_eq_zero_iff.mp (by omega)
    exact .inr ⟨by rw [patch.1, none]; rfl, ready⟩

end

/-- The loader is right where it gives up on a status that it could not read, where the patch is cut off
behind a whole header, and where there is nothing to load. -/
theorem loadPatch_exact_iff {stack : List Byte} (size : stack.length = MAX_I2C_LENGTH)
    (status : StatusRead) (bytes : List Byte) :
    LoadsExactly stack status bytes ↔
      (∃ value, status = .unread value ∧ value &&& statusOk ≠ statusOk) ∨ CutOff bytes ∨
        bytes = [] ∧ status.Ready := by
  by_cases gone : ∃ value, status = .unread value ∧ value &&& statusOk ≠ statusOk
  · obtain ⟨value, rfl, missing⟩ := gone
    exact iff_of_true (loadsExactly_notReady missing) (.inl ⟨value, rfl, missing⟩)
  · have trace : loadTrace stack status bytes = patchTrace stack bytes := by
      cases status with
      | value value => rfl
      | unread value => exact if_neg fun missing => gone ⟨value, rfl, missing⟩
    rw [or_iff_right gone]
    constructor
    · exact fun exact => exact.cutOff_or_nil size trace
    · rintro (cut | ⟨rfl, ready⟩)
      · exact cut.loadsExactly size trace
      · exact loadsExactly_nil ready trace

/-- A record of two bytes is loaded, and the one behind it is cut off. -/
theorem loadPatch_exact_cutOff :
    LoadsExactly (List.replicate MAX_I2C_LENGTH 0) (.value statusOk) [2, 0, 0x70, 0x01, 5, 0, 0x70] :=
  (loadPatch_exact_iff List.length_replicate (.value statusOk) [2, 0, 0x70, 0x01, 5, 0, 0x70]).mpr
    (.inr (.inl ⟨[[0x70, 0x01]], 5, 0, [0x70], by decide, rfl, by decide⟩))

/-- Of the cold boot patch, a record of a subaddress and seven bytes, eight bytes are written. -/
theorem loadPatch_writes_more :
    ¬ ∀ (stack : List Byte) (status : StatusRead) (bytes : List Byte), stack.length = MAX_I2C_LENGTH →
      LoadsExactly stack status bytes := by
  intro all
  let stack : List Byte := List.replicate MAX_I2C_LENGTH 0
  let r : List Byte := [0x70, 0x00, 0x07, 0x81, 0x00, 0x00, 0x00, 0x01]
  have size : stack.length = MAX_I2C_LENGTH := List.length_replicate
  have patch : PatchOf [r] dspPatch := ⟨by decide, by decide⟩
  obtain ⟨-, writes⟩ := (all stack (.value statusOk) dspPatch size).loads [r] patch BitVec.and_self
  rcases patch.trace size with outside | ⟨-, written⟩
  · exact (all stack (.value statusOk) dspPatch size).inside outside
  · exact absurd (written.symm.trans writes.length) (by decide)

end Hima.Amplifier
