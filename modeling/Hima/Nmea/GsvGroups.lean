import Hima.Nmea.SatellitesInView

/-!
# The sentences of a constellation

The satellites of a constellation, in the order of the report, in groups of four: the numbers of a
sentence are short enough that none is ever cut off.
-/
namespace Hima.Nmea

open CText

variable {φ : Type} {f : Floats φ} {k : Constellation}

/-! ### Texts and their lengths -/

theorem plain_header (k : Constellation) (sentenceCount sentenceNumber count : Nat) :
    Plain (header k sentenceCount sentenceNumber count) := by
  apply plain_ascii
  simp only [List.forall_mem_append, List.forall_mem_cons]
  have marks : OneByte '$' ∧ OneByte 'G' ∧ OneByte 'S' ∧ OneByte 'V' ∧ OneByte ',' := by decide
  simpa [marks] using And.intro (And.intro (And.intro k.letters (oneByte_decimal 0 sentenceCount))
    (oneByte_decimal 0 sentenceNumber)) (oneByte_decimal 2 count)

theorem plain_blank (k : Constellation) : Plain (blank k) := by
  apply plain_ascii
  simp only [List.forall_mem_append, List.forall_mem_cons]
  have marks : OneByte '$' ∧ OneByte 'G' ∧ OneByte 'S' ∧ OneByte 'V' ∧ OneByte ',' := by decide
  have digits : OneByte '0' ∧ OneByte '1' := by decide
  simpa [marks, digits] using k.letters

theorem plain_position (sv : GpsSvInfo φ) : Plain (position f sv) := by
  apply plain_ascii
  simp only [List.forall_mem_append, List.forall_mem_cons]
  have mark : OneByte ',' := by decide
  simpa [mark] using And.intro (And.intro (oneByte_decimal 2 sv.prn.toInt)
    (oneByte_decimal 2 (f.rounded sv.elevation).toInt)) (oneByte_decimal 3 (f.rounded sv.azimuth).toInt)

theorem plain_strength (sv : GpsSvInfo φ) : Plain (strength f sv) := plain_ascii (oneByte_decimal _ _)

theorem length_header_le {sentenceCount sentenceNumber count : Nat} (sentences : sentenceCount < 10 ^ 9)
    (number : sentenceNumber < 10 ^ 9) (satellites : count < 10 ^ 10) :
    (header k sentenceCount sentenceNumber count).length ≤ 37 := by
  have first := length_decimal_natCast (by decide) sentences (Nat.zero_le 9)
  have second := length_decimal_natCast (by decide) number (Nat.zero_le 9)
  have third := length_decimal_natCast (by decide) satellites (by decide : 2 ≤ 10)
  rw [header, length_ascii]
  simp only [List.length_append, List.length_cons, List.length_nil, k.two_letters]
  omega

theorem length_blank (k : Constellation) : (blank k).length = 13 := by
  rw [blank, length_ascii]
  simp only [List.length_append, List.length_cons, List.length_nil, k.two_letters]

/-- What is written for a satellite. -/
def svText (f : Floats φ) (sv : GpsSvInfo φ) : List Byte :=
  position f sv ++ if f.positive sv.snr then strength f sv else []

theorem length_position_le {sv : GpsSvInfo φ} (member : k.has sv = true) :
    (position f sv).length ≤ 28 := by
  rw [Constellation.has, Bool.and_eq_true, decide_eq_true_eq, decide_eq_true_eq] at member
  have first := k.nonneg
  have last := k.two_digits
  have prn : (decimal 2 sv.prn.toInt).length = 2 := length_decimal (by decide) (by omega) (by omega)
  have elevation := length_decimal_le (by decide : 2 ≤ 11) (f.rounded sv.elevation)
  have azimuth := length_decimal_le (by decide : 3 ≤ 11) (f.rounded sv.azimuth)
  rw [position, length_ascii]
  simp only [List.length_append, List.length_cons, List.length_nil]
  omega

theorem length_strength_le (sv : GpsSvInfo φ) : (strength f sv).length ≤ 11 := by
  rw [strength, length_ascii]
  exact length_decimal_le (by decide) _

theorem length_svText_le {sv : GpsSvInfo φ} (member : k.has sv = true) : (svText f sv).length ≤ 39 := by
  have first := length_position_le (f := f) member
  have second := length_strength_le (f := f) sv
  rw [svText, List.length_append]
  split
  · omega
  · rw [List.length_nil]
    omega

/-! ### One sentence -/

/-- The buffer holds a text, with the marker at its end. -/
structure Cursor.Writes (c : Cursor) (text : List Byte) : Prop where
  holds : Holds c.sentence text
  marker : c.pMarker = text.length
  room : c.pMarker + c.lengthRemaining = sentenceMaxLength
  size : c.sentence.length = sentenceMaxLength

theorem put_start {buffer text : List Byte} (size : buffer.length = sentenceMaxLength) (plain : Plain text)
    (fits : text.length < sentenceMaxLength) :
    ∃ c, (⟨buffer, 0, sentenceMaxLength⟩ : Cursor).put text = some c ∧ c.Writes text := by
  have holds : Holds (store buffer 0 sentenceMaxLength text) (text.take (sentenceMaxLength - 1)) :=
    holds_store_zero (by decide) plain
  rw [List.take_of_length_le (by omega)] at holds
  refine ⟨_, if_pos fits, holds, Nat.zero_add _, ?_, ?_⟩
  · simp only
    omega
  · change (store buffer 0 sentenceMaxLength text).length = sentenceMaxLength
    rw [length_store (by omega), size]

theorem Cursor.Writes.put {c : Cursor} {text text' : List Byte} (writes : c.Writes text)
    (plain : Plain text') (fits : text.length + text'.length < sentenceMaxLength) :
    ∃ c', c.put text' = some c' ∧ c'.Writes (text ++ text') := by
  obtain ⟨holds, marker, room, size⟩ := writes
  have enough : text'.length < c.lengthRemaining := by omega
  have stored := holds.store_whole plain enough
  refine ⟨_, if_pos enough, by rwa [marker], ?_, ?_, ?_⟩
  · simp only [marker, List.length_append]
  · simp only
    omega
  · rw [length_store (by omega), size]

theorem Cursor.Writes.putSv {c : Cursor} {text : List Byte} {sv : GpsSvInfo φ} (writes : c.Writes text)
    (fits : text.length + (svText f sv).length < sentenceMaxLength) :
    ∃ c', c.putSv f sv = some c' ∧ c'.Writes (text ++ svText f sv) := by
  rw [svText, List.length_append] at fits
  obtain ⟨c₁, first, writes₁⟩ := writes.put (plain_position (f := f) sv) (by omega)
  rw [Cursor.putSv, first, Option.bind_some, svText]
  cases strong : f.positive sv.snr with
  | false =>
    refine ⟨c₁, rfl, ?_⟩
    rw [if_neg (by decide), List.append_nil]
    exact writes₁
  | true =>
    rw [strong, if_pos rfl] at fits
    obtain ⟨c₂, second, writes₂⟩ := writes₁.put (plain_strength (f := f) sv) (by rw [List.length_append]; omega)
    refine ⟨c₂, second, ?_⟩
    rw [if_pos rfl, ← List.append_assoc]
    exact writes₂

/-- The inner loop writes the next satellites of the constellation, at most `left`, and leaves the others
for the next sentence. -/
theorem fillSentence_writes {svs : List (GpsSvInfo φ)} {left : Nat} {c : Cursor} {text : List Byte}
    (writes : c.Writes text) (fits : text.length + 39 * left < sentenceMaxLength) :
    ∃ rest c', fillSentence f k left svs c = some (rest, c') ∧
      rest.filter k.has = (svs.filter k.has).drop left ∧
      c'.Writes (text ++ ((svs.filter k.has).take left).flatMap (svText f)) := by
  induction svs generalizing left c text with
  | nil =>
    refine ⟨[], c, by cases left <;> rfl, by simp, by simpa using writes⟩
  | cons sv svs ih =>
    cases left with
    | zero => exact ⟨sv :: svs, c, rfl, rfl, by simpa using writes⟩
    | succ left =>
      rw [fillSentence]
      -- a satellite of another constellation takes no place in the sentence
      by_cases member : k.has sv = true
      · have length := length_svText_le (f := f) member
        have here : text.length + (svText f sv).length < sentenceMaxLength := by omega
        have there : (text ++ svText f sv).length + 39 * left < sentenceMaxLength := by
          rw [List.length_append]
          omega
        obtain ⟨c₁, first, writes₁⟩ := writes.putSv here
        obtain ⟨rest, c₂, later, kept, writes₂⟩ := ih writes₁ there
        refine ⟨rest, c₂, ?_, ?_, ?_⟩
        · rw [if_pos member, first]
          exact later
        · rw [kept, List.filter_cons_of_pos member, List.drop_succ_cons]
        · rw [List.filter_cons_of_pos member, List.take_succ_cons, List.flatMap_cons, ← List.append_assoc]
          exact writes₂
      · rw [if_neg member, List.filter_cons_of_neg member]
        exact ih writes fits

/-- A sentence with its frame. -/
def framed (text : List Byte) : Sent := ⟨text ++ trailer (xorAll text.tail), text.length + 5⟩

/-- A sentence of at most 194 characters is sent whole. -/
theorem send_framed {buffer text : List Byte} {b : Byte} (holds : Holds buffer (b :: text))
    (size : buffer.length = sentenceMaxLength) (fits : text.length + 7 ≤ sentenceMaxLength) :
    ∃ buffer', buffer'.length = sentenceMaxLength ∧ send buffer = (framed (b :: text), buffer') := by
  obtain ⟨after, size', length⟩ := holds_putChecksum holds size
  have all : (trailer (xorAll text)).take (sentenceMaxLength - text.length - 2) = trailer (xorAll text) :=
    List.take_of_length_le (by simp only [trailer, List.length_cons, List.length_nil]; omega)
  rw [all] at after
  refine ⟨_, size', ?_⟩
  rw [send, after.cstr, length]
  rfl

/-! ### The sentences of a group -/

/-- The satellites of so many sentences. -/
def fours {α : Type} : (left : Nat) → List α → List (List α)
  | 0, _ => []
  | left + 1, l => l.take 4 :: fours left (l.drop 4)

theorem fours_flatten {α : Type} {left : Nat} {l : List α} (enough : l.length ≤ 4 * left) :
    (fours left l).flatten = l := by
  induction left generalizing l with
  | zero => exact (List.length_eq_zero_iff.mp (Nat.le_zero.mp enough)).symm
  | succ left ih =>
    rw [fours, List.flatten_cons, ih (by rw [List.length_drop]; omega), List.take_append_drop]

theorem length_fours {α : Type} (left : Nat) (l : List α) : (fours left l).length = left := by
  induction left generalizing l with
  | zero => rfl
  | succ left ih => rw [fours, List.length_cons, ih]

/-- As long as there are satellites for it no sentence is empty. -/
theorem length_of_mem_fours {α : Type} {left : Nat} {l part : List α} (used : 4 * left ≤ l.length + 3)
    (member : part ∈ fours left l) : 1 ≤ part.length ∧ part.length ≤ 4 := by
  induction left generalizing l with
  | zero => cases member
  | succ left ih =>
    rcases List.mem_cons.mp member with rfl | later
    · rw [List.length_take]
      omega
    · exact ih (by rw [List.length_drop]; omega) later

/-- The sentence with a number, for some satellites. -/
def gsvText (f : Floats φ) (k : Constellation) (sentenceCount count sentenceNumber : Nat)
    (part : List (GpsSvInfo φ)) : List Byte :=
  header k sentenceCount sentenceNumber count ++ part.flatMap (svText f)

theorem length_part_le {part : List (GpsSvInfo φ)} (members : ∀ sv ∈ part, k.has sv = true)
    (few : part.length ≤ 4) : (part.flatMap (svText f)).length ≤ 156 := by
  have each : (part.flatMap (svText f)).length ≤ 39 * part.length := by
    clear few
    induction part with
    | nil => exact Nat.le_refl 0
    | cons sv part ih =>
      obtain ⟨member, members⟩ := List.forall_mem_cons.mp members
      have first := length_svText_le (f := f) member
      have later := ih members
      rw [List.flatMap_cons, List.length_append, List.length_cons]
      omega
  omega

/-- The outer loop sends a sentence for each four satellites of the constellation. -/
theorem sentences_eq {sentenceCount count left sentenceNumber : Nat} (svs : List (GpsSvInfo φ))
    {buffer : List Byte} (size : buffer.length = sentenceMaxLength) (few : sentenceCount < 10 ^ 9)
    (satellites : count < 10 ^ 10) (numbers : sentenceNumber + left ≤ 10 ^ 9) :
    ∃ buffer', buffer'.length = sentenceMaxLength ∧
      sentences f k sentenceCount count left sentenceNumber svs buffer =
        (List.zipWith (fun number part => framed (gsvText f k sentenceCount count number part))
          (List.range' sentenceNumber left) (fours left (svs.filter k.has)), some buffer') := by
  -- the satellites that the inner loop has skipped are of no sentence, so `svs` shrinks by more than four
  induction left generalizing sentenceNumber svs buffer with
  | zero => exact ⟨buffer, size, rfl⟩
  | succ left ih =>
    have start := length_header_le (k := k) few (by omega : sentenceNumber < 10 ^ 9) satellites
    obtain ⟨c, headed, writes⟩ := put_start size (plain_header k sentenceCount sentenceNumber count)
      (by rw [sentenceMaxLength]; omega)
    have places : (header k sentenceCount sentenceNumber count).length + 39 * 4 < sentenceMaxLength := by
      rw [sentenceMaxLength]
      omega
    obtain ⟨rest, c', filled, kept, writes'⟩ : ∃ rest c', fillSentence f k 4 svs c = some (rest, c') ∧
          rest.filter k.has = (svs.filter k.has).drop 4 ∧
          c'.Writes (gsvText f k sentenceCount count sentenceNumber ((svs.filter k.has).take 4)) :=
      fillSentence_writes writes places
    have part : (((svs.filter k.has).take 4).flatMap (svText f)).length ≤ 156 :=
      length_part_le (fun sv member => (List.mem_filter.mp (List.mem_of_mem_take member)).2)
        (List.length_take_le _ _)
    obtain ⟨text, shape⟩ : ∃ text,
        gsvText f k sentenceCount count sentenceNumber ((svs.filter k.has).take 4) = 0x24 :: text :=
      ⟨_, rfl⟩
    have length : text.length + 7 ≤ sentenceMaxLength := by
      have whole := congrArg List.length shape
      rw [gsvText, List.length_append, List.length_cons] at whole
      rw [sentenceMaxLength]
      omega
    obtain ⟨buffer', size', sent⟩ := send_framed (shape ▸ writes'.holds) writes'.size length
    have next : sentenceNumber + 1 + left ≤ 10 ^ 9 := by omega
    obtain ⟨buffer'', size'', later⟩ := @ih (sentenceNumber + 1) rest buffer' size' next
    refine ⟨buffer'', size'', ?_⟩
    simp only [sentences, headed, Option.bind_some, filled, sent]
    rw [later, kept, ← shape]
    rfl

/-- The sentences of a constellation: its satellites in the order of the report, four in a sentence, with
the number of sentences, that of this one and that of satellites in each; or one without a satellite. -/
structure GsvGroup (f : Floats φ) (k : Constellation) (svs : List (GpsSvInfo φ)) (sent : List Sent) :
    Prop where
  none : svs.filter k.has = [] → sent = [framed (blank k)]
  some : svs.filter k.has ≠ [] → ∃ parts : List (List (GpsSvInfo φ)),
    parts.flatten = svs.filter k.has ∧ parts.length = ((svs.filter k.has).length + 3) / 4 ∧
      (∀ part ∈ parts, 1 ≤ part.length ∧ part.length ≤ 4) ∧
      sent = List.zipWith
        (fun number part =>
          framed (gsvText f k (((svs.filter k.has).length + 3) / 4) (svs.filter k.has).length number part))
        (List.range' 1 (((svs.filter k.has).length + 3) / 4)) parts

theorem group_spec (f : Floats φ) (k : Constellation) {svs : List (GpsSvInfo φ)} {buffer : List Byte}
    (size : buffer.length = sentenceMaxLength) (few : svs.length < 2 ^ 31) :
    ∃ sent buffer', buffer'.length = sentenceMaxLength ∧
      group f k (svs.filter k.has).length svs buffer = (sent, some buffer') ∧ GsvGroup f k svs sent := by
  have fewer := Nat.lt_of_le_of_lt (List.length_filter_le k.has svs) few
  rw [group]
  by_cases empty : svs.filter k.has = []
  · have holds : Holds (store buffer 0 sentenceMaxLength (blank k))
        ((blank k).take (sentenceMaxLength - 1)) := holds_store_zero (by decide) (plain_blank k)
    rw [List.take_of_length_le (by rw [length_blank]; decide)] at holds
    have whole : (store buffer 0 sentenceMaxLength (blank k)).length = sentenceMaxLength := by
      rw [length_store (by omega), size]
    obtain ⟨text, shape⟩ : ∃ text, blank k = 0x24 :: text := ⟨_, rfl⟩
    have length := congrArg List.length shape
    rw [length_blank, List.length_cons] at length
    have there : Holds (store buffer 0 sentenceMaxLength (blank k)) (0x24 :: text) := by
      rw [← shape]
      exact holds
    obtain ⟨buffer', size', sent⟩ := send_framed there whole (by rw [sentenceMaxLength]; omega)
    rw [if_pos (by rw [empty]; rfl), sent]
    exact ⟨_, _, size', rfl, fun _ => by rw [shape], fun some => absurd empty some⟩
  · -- the number of sentences, rounded up, is enough for all satellites and leaves none empty
    have some_sv : (svs.filter k.has).length ≠ 0 := mt List.length_eq_zero_iff.mp empty
    have ceiling : (svs.filter k.has).length / 4 + (if (svs.filter k.has).length % 4 ≠ 0 then 1 else 0) =
        ((svs.filter k.has).length + 3) / 4 := by
      split <;> omega
    simp only [if_neg some_sv, ceiling]
    obtain ⟨buffer', size', sent⟩ := sentences_eq (f := f) (k := k) svs size
      (by omega : ((svs.filter k.has).length + 3) / 4 < 10 ^ 9)
      (by omega : (svs.filter k.has).length < 10 ^ 10)
      (by omega : 1 + ((svs.filter k.has).length + 3) / 4 ≤ 10 ^ 9)
    refine ⟨_, buffer', size', sent, fun none => absurd none empty, fun _ => ⟨_, ?_, ?_, ?_, rfl⟩⟩
    · exact fours_flatten (by omega)
    · exact length_fours _ _
    · exact fun part member => length_of_mem_fours (by omega) member

theorem not_both {sv : GpsSvInfo φ} (inGps : gps.has sv = true) : ¬ glonass.has sv = true := by
  rw [Constellation.has, Bool.and_eq_true, decide_eq_true_eq, decide_eq_true_eq] at inGps ⊢
  simp only [gps, glonass] at inGps ⊢
  omega

/-- A satellite is counted for one constellation at most. -/
theorem foldl_countSv (svs : List (GpsSvInfo φ)) (counts : Nat × Nat) :
    svs.foldl countSv counts =
      (counts.1 + (svs.filter gps.has).length, counts.2 + (svs.filter glonass.has).length) := by
  induction svs generalizing counts with
  | nil => rfl
  | cons sv svs ih =>
    rw [List.foldl_cons, ih, countSv]
    by_cases inGps : gps.has sv = true
    · rw [if_pos inGps, List.filter_cons_of_pos inGps, List.filter_cons_of_neg (not_both inGps),
        List.length_cons, Nat.add_right_comm, Nat.add_assoc]
    · rw [if_neg inGps, List.filter_cons_of_neg inGps]
      by_cases inGln : glonass.has sv = true
      · rw [if_pos inGln, List.filter_cons_of_pos inGln, List.length_cons, Nat.add_right_comm counts.2,
          Nat.add_assoc counts.2]
      · rw [if_neg inGln, List.filter_cons_of_neg inGln]

theorem counts_eq (svs : List (GpsSvInfo φ)) :
    counts svs = ((svs.filter gps.has).length, (svs.filter glonass.has).length) := by
  rw [counts, foldl_countSv, Nat.zero_add, Nat.zero_add]

/-- Each constellation's satellites are reported once, in order and by no others, in sentences of four. -/
theorem generateSv_groups (f : Floats φ) (svStatus : QcomSvStatus φ)
    (locationExtended : GpsLocationExtended φ) (data : LocEngData φ)
    (num_svs : svStatus.svList.length < 2 ^ 31) :
    ∃ gpsSent glnSent, (generateSv f svStatus locationExtended data).1 = gpsSent ++ glnSent ∧
      GsvGroup f gps svStatus.svList gpsSent ∧ GsvGroup f glonass svStatus.svList glnSent := by
  have size : (List.replicate sentenceMaxLength (0 : Byte)).length = sentenceMaxLength :=
    List.length_replicate
  obtain ⟨gpsSent, buffer, size, first, gpsGroup⟩ := group_spec f gps size num_svs
  obtain ⟨glnSent, buffer', -, second, glnGroup⟩ := group_spec f glonass size num_svs
  refine ⟨gpsSent, glnSent, ?_, gpsGroup, glnGroup⟩
  simp only [generateSv, counts_eq, first, second]

/-- Numbers that are whole. -/
def wholeFloats : Floats (BitVec 32) where
  zero := 0
  positive x := BitVec.slt 0 x
  rounded x := x

/-- Two satellites that take no place in a sentence of GPS, among five that do. -/
theorem generateSv_groups_mixed :
    let svs : List (GpsSvInfo (BitVec 32)) := [4, 65, 7, 9, 11, 120, 32].map fun prn => ⟨prn, 30, 45, 90⟩
    ∃ gpsSent glnSent,
      (generateSv wholeFloats ⟨svs, 0, 0⟩ ⟨false, 0, 0, 0⟩ ⟨0, 0, 0, 0, 0⟩).1 = gpsSent ++ glnSent ∧
        GsvGroup wholeFloats gps svs gpsSent ∧ GsvGroup wholeFloats glonass svs glnSent :=
  generateSv_groups wholeFloats ⟨_, 0, 0⟩ ⟨false, 0, 0, 0⟩ ⟨0, 0, 0, 0, 0⟩ (by decide)

/-- Without a satellite there is a sentence for each constellation all the same. -/
theorem generateSv_sends_blank :
    ¬ ∀ svStatus : QcomSvStatus (BitVec 32), ∃ gpsSent glnSent,
      (generateSv wholeFloats svStatus ⟨false, 0, 0, 0⟩ ⟨0, 0, 0, 0, 0⟩).1 = gpsSent ++ glnSent ∧
        gpsSent.length = ((svStatus.svList.filter gps.has).length + 3) / 4 ∧
        glnSent.length = ((svStatus.svList.filter glonass.has).length + 3) / 4 := by
  intro all
  obtain ⟨gpsSent, glnSent, sent, gpsCount, glnCount⟩ := all ⟨[], 0, 0⟩
  have total := congrArg List.length sent
  rw [List.length_append, gpsCount, glnCount] at total
  exact absurd total (by decide)

end Hima.Nmea
