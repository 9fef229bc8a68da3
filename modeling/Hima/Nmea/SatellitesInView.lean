import Hima.Nmea.Format

/-!
# loc_eng_nmea_generate_sv

A report of satellites becomes the sentences $GPGSV and $GLGSV, four satellites in each. Both loops run
over the whole report: a sentence goes on where the one before it stopped, and satellites of other
constellations take no place in it.
-/
namespace Hima.Nmea

open CText

/-! ### The report -/

/-- Numbers of type `float`, with what the code computes from them: `x > 0` and `(int)(0.5 + x)`. -/
structure Floats (φ : Type) where
  zero : φ
  positive : φ → Bool
  rounded : φ → BitVec 32

/-- GpsSvInfo -/
structure GpsSvInfo (φ : Type) where
  prn : BitVec 32
  snr : φ
  elevation : φ
  azimuth : φ

/-- QcomSvStatus: `sv_list` up to `num_svs`. -/
structure QcomSvStatus (φ : Type) where
  svList : List (GpsSvInfo φ)
  gpsUsedInFixMask : BitVec 32
  gloUsedInFixMask : BitVec 32

/-- The dilutions of precision, where there are any. -/
structure GpsLocationExtended (φ : Type) where
  hasDop : Bool
  pdop : φ
  hdop : φ
  vdop : φ

/-- What loc_eng_data keeps for the position report. -/
structure LocEngData (φ : Type) where
  gpsUsedMask : BitVec 32
  gloUsedMask : BitVec 32
  pdop : φ
  hdop : φ
  vdop : φ

/-- A range of PRNs of two digits, with the two letters of its sentences. -/
structure Constellation where
  talker : List Char
  prnStart : Int
  prnEnd : Int
  nonneg : 0 ≤ prnStart := by decide
  two_digits : prnEnd < 100 := by decide
  two_letters : talker.length = 2 := by rfl
  letters : ∀ c ∈ talker, OneByte c := by simp [OneByte]

def gps : Constellation where
  talker := ['G', 'P']
  prnStart := 1
  prnEnd := 32

def glonass : Constellation where
  talker := ['G', 'L']
  prnStart := 65
  prnEnd := 96

variable {φ : Type}

def Constellation.has (k : Constellation) (sv : GpsSvInfo φ) : Bool :=
  k.prnStart ≤ sv.prn.toInt && sv.prn.toInt ≤ k.prnEnd

/-- The body of the first loop, on gpsCount and glnCount. -/
def countSv (counts : Nat × Nat) (sv : GpsSvInfo φ) : Nat × Nat :=
  if gps.has sv then (counts.1 + 1, counts.2)
  else if glonass.has sv then (counts.1, counts.2 + 1)
  else counts

def counts (svList : List (GpsSvInfo φ)) : Nat × Nat := svList.foldl countSv (0, 0)

/-! ### Sentences -/

/-- NMEA_SENTENCE_MAX_LENGTH -/
def sentenceMaxLength : Nat := 200

/-- The buffer of a sentence, with the place for the next text and the room there. -/
structure Cursor where
  sentence : List Byte
  pMarker : Nat
  lengthRemaining : Nat

/-- `snprintf` at the marker. Where the text does not fit the function returns. -/
def Cursor.put (c : Cursor) (text : List Byte) : Option Cursor :=
  if text.length < c.lengthRemaining then
    some ⟨store c.sentence c.pMarker c.lengthRemaining text, c.pMarker + text.length,
      c.lengthRemaining - text.length⟩
  else none

/-- `"$..GSV,%d,%d,%02d"` -/
def header (k : Constellation) (sentenceCount sentenceNumber count : Nat) : List Byte :=
  ascii ('$' :: k.talker ++ ['G', 'S', 'V', ','] ++ decimal 0 sentenceCount ++ [','] ++
    decimal 0 sentenceNumber ++ [','] ++ decimal 2 count)

/-- `"$..GSV,1,1,0,"` -/
def blank (k : Constellation) : List Byte :=
  ascii ('$' :: k.talker ++ ['G', 'S', 'V', ',', '1', ',', '1', ',', '0', ','])

/-- What the callback is given: the sentence in the buffer and its length. -/
structure Sent where
  sentence : List Byte
  length : Nat
  deriving DecidableEq

/-- The checksum is put and the sentence sent. -/
def send (sentence : List Byte) : Sent × List Byte :=
  (⟨cstr (putChecksum sentence sentenceMaxLength).1, (putChecksum sentence sentenceMaxLength).2⟩,
    (putChecksum sentence sentenceMaxLength).1)

variable (f : Floats φ)

/-- `",%02d,%02d,%03d,"` -/
def position (sv : GpsSvInfo φ) : List Byte :=
  ascii ([','] ++ decimal 2 sv.prn.toInt ++ [','] ++ decimal 2 (f.rounded sv.elevation).toInt ++ [','] ++
    decimal 3 (f.rounded sv.azimuth).toInt ++ [','])

/-- `"%02d"` -/
def strength (sv : GpsSvInfo φ) : List Byte := ascii (decimal 2 (f.rounded sv.snr).toInt)

def Cursor.putSv (c : Cursor) (sv : GpsSvInfo φ) : Option Cursor :=
  (c.put (position f sv)).bind fun c => if f.positive sv.snr then c.put (strength f sv) else some c

/-- The inner loop with `left` places in the sentence, from a satellite on: the satellites after it, and
the sentence. -/
def fillSentence (k : Constellation) :
    (left : Nat) → List (GpsSvInfo φ) → Cursor → Option (List (GpsSvInfo φ) × Cursor)
  | 0, svs, c => some (svs, c)
  | _ + 1, [], c => some ([], c)
  | left + 1, sv :: svs, c =>
    if k.has sv then (c.putSv f sv).bind (fillSentence k left svs)
    else fillSentence k (left + 1) svs c

/-- The outer loop with `left` sentences to go: what is sent, and the buffer, unless the function
returned. -/
def sentences (k : Constellation) (sentenceCount count : Nat) :
    (left sentenceNumber : Nat) → List (GpsSvInfo φ) → List Byte → List Sent × Option (List Byte)
  | 0, _, _, sentence => ([], some sentence)
  | left + 1, sentenceNumber, svs, sentence =>
    let start : Cursor := ⟨sentence, 0, sentenceMaxLength⟩
    match (start.put (header k sentenceCount sentenceNumber count)).bind (fillSentence f k 4 svs) with
    | none => ([], none)
    | some (svs, c) =>
      let later := sentences k sentenceCount count left (sentenceNumber + 1) svs (send c.sentence).2
      ((send c.sentence).1 :: later.1, later.2)

/-- The sentences of a constellation. -/
def group (k : Constellation) (count : Nat) (svs : List (GpsSvInfo φ)) (sentence : List Byte) :
    List Sent × Option (List Byte) :=
  if count = 0 then
    -- strlcpy
    let sent := send (store sentence 0 sentenceMaxLength (blank k))
    ([sent.1], some sent.2)
  else
    let sentenceCount := count / 4 + if count % 4 ≠ 0 then 1 else 0
    sentences f k sentenceCount count sentenceCount 1 svs sentence

/-- loc_eng_nmea_generate_sv: the sentences sent, and what is kept. -/
def generateSv (svStatus : QcomSvStatus φ) (locationExtended : GpsLocationExtended φ)
    (data : LocEngData φ) : List Sent × LocEngData φ :=
  let (gpsCount, glnCount) := counts svStatus.svList
  match group f gps gpsCount svStatus.svList (List.replicate sentenceMaxLength 0) with
  | (sent, none) => (sent, data)
  | (sent, some sentence) =>
    match group f glonass glnCount svStatus.svList sentence with
    | (later, none) => (sent ++ later, data)
    | (later, some _) =>
      (sent ++ later,
        { gpsUsedMask := svStatus.gpsUsedInFixMask
          gloUsedMask := svStatus.gloUsedInFixMask
          pdop := if locationExtended.hasDop then locationExtended.pdop else f.zero
          hdop := if locationExtended.hasDop then locationExtended.hdop else f.zero
          vdop := if locationExtended.hasDop then locationExtended.vdop else f.zero })

end Hima.Nmea
