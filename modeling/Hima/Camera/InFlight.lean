import Hima.Lib.KeyedVector
import Hima.Lib.Runs

/-!
# Requests in flight

The callbacks of the HAL in `Camera3OutputUtils`: capture results, shutters and errors. All of them
work under `inflightLock`, so that a run is a sequence of calls in any order. Metadata, the corrections
of a result before it is queued, and the streams that time out are arguments of the model.
-/
namespace Hima.Camera3Output

/-- Each kind of capture counts its frames for itself. -/
inductive FrameKind
  | regular
  | reprocess
  | zsl
deriving DecidableEq

/-- A counter for shutters, and one for final results. -/
inductive Callback
  | shutter
  | result
deriving DecidableEq

inductive BufferStatus
  | ok
  | error
deriving DecidableEq

/-- `camera_stream_buffer_t`. The handle may be missing. -/
structure StreamBuffer where
  streamId : Int
  buffer : Option Nat
  status : BufferStatus := .ok
deriving DecidableEq

inductive ErrorBufStrategy
  | bufCache
  | bufReturn
  | bufReturnNotify
deriving DecidableEq

/-- The error codes of `ICameraDeviceCallbacks`. -/
inductive ErrorCode
  | invalidError
  | cameraDevice
  | cameraRequest
  | cameraResult
  | cameraBuffer
deriving DecidableEq

structure CaptureResultExtras where
  frameNumber : Nat := 0
  partialResultCount : Nat := 0
  errorStreamId : Int := -1
  errorPhysicalCameraId : String := ""
  lastCompletedFrameNumber : FrameKind → Int := fun _ => -1

/-- What `registerInFlight` fixes for the life of a request. A stream of `outputSurfaces` is shared. -/
structure InFlightArgs where
  hasInputBuffer : Bool := false
  hasCallback : Bool := true
  stillCapture : Bool := false
  zslCapture : Bool := false
  rotateAndCropAuto : Bool := false
  cameraIdsWithZoom : List String := []
  outputSurfaces : List Int := []

def InFlightArgs.kind (a : InFlightArgs) : FrameKind :=
  if a.hasInputBuffer then .reprocess
  else if a.zslCapture && a.stillCapture then .zsl
  else .regular

/-- The fields of `InFlightRequest` that decide about its end. -/
structure Progress extends InFlightArgs where
  numBuffersLeft : Int
  shutterTimestamp : Int := 0
  requestStatus : Int := 0
  haveResultMetadata : Bool := false
  skipResultMetadata : Bool := false
  errorBufStrategy : ErrorBufStrategy := .bufCache
  pendingOutputBuffers : List StreamBuffer := []

structure InFlightRequest (M : Type) extends Progress where
  resultExtras : CaptureResultExtras
  physicalCameraIds : List (List String)
  pendingMetadata : M
  collectedPartialResult : M
  sensorTimestamp : Int := 0
  physicalMetadatas : List (String × M) := []

/-- The calls of `SET_ERR`. -/
inductive OutputError
  | noResultData
  | partialResultUnsupported
  | unknownFrame
  | partialResultRange
  | partialPhysicalResult
  | physicalMetadataCount
  | metadataTwice
  | unexpectedPhysicalResult
  | tooManyBuffers
  | timestampMismatch
  | resultOutOfOrder
  | noTimestamp
  | noPhysicalTimestamp
  | resultCorrection
  | shutterOutOfOrder
  | unknownShutter
  | deviceError
  | unknownError

/-- What the callbacks do to the outside: calls of the device, the listener and the streams, entries
of the result queue, and entries that leave the map. A buffer whose return has timed out is
cancelled. -/
inductive Output (M : Type)
  | setErrorState (e : OutputError)
  | notifyShutter (kind : FrameKind) (frameNumber : Nat) (extras : CaptureResultExtras)
      (timestamp : Int)
  | notifyError (errorCode : ErrorCode) (extras : CaptureResultExtras)
  | returnBuffer (b : StreamBuffer) (timestamp : Int) (timestampIncreasing : Bool)
  | cancelBuffer (b : StreamBuffer)
  | partialResult (frameNumber : Nat) (extras : CaptureResultExtras) (metadata : M)
  | result (kind : FrameKind) (frameNumber : Nat) (extras : CaptureResultExtras) (metadata : M)
      (physicalMetadatas : List (String × M))
  | removed (frameNumber : Nat) (request : Progress)

/-- The device, and what its metadata can do. `timestamps` is the entry
`ANDROID_SENSOR_TIMESTAMP`; `correctPartial` and `correctResult` are the mappers, the fix-ups and
the tags that are added on the way into the queue, `none` where one of them fails. -/
structure OutputEnv (M : Type) where
  usePartialResult : Bool
  numPartialResults : Nat
  hasListener : Bool
  emptyMetadata : M
  isEmpty : M → Bool
  append : M → M → M
  timestamps : M → List Int
  correctPartial : InFlightRequest M → M → Option M
  correctResult : InFlightRequest M → M → Option (M × List (String × M))

/-- `CaptureOutputStates`. The log has the latest output first. The last field is not the code's: the
buffers that were taken from the HAL. -/
structure OutputStates (M : Type) where
  inflightMap : KeyedVector Nat (InFlightRequest M) := {}
  nextFrameNum : Callback → FrameKind → Nat := fun _ _ => 0
  lastCompletedFrameNumber : FrameKind → Int := fun _ => -1
  log : List (Output M) := []
  taken : List StreamBuffer := []

namespace OutputStates

variable {M : Type}

def push (s : OutputStates M) (o : Output M) : OutputStates M := { s with log := o :: s.log }

def setErr (s : OutputStates M) (e : OutputError) : OutputStates M := s.push (.setErrorState e)

/-- The request in the map becomes `r`. -/
def put (s : OutputStates M) (f : Nat) (r : InFlightRequest M) : OutputStates M :=
  { s with inflightMap := s.inflightMap.setValueFor f r }

/-- The counter moves behind the frame, in 32 bits. -/
def advance (s : OutputStates M) (c : Callback) (kind : FrameKind) (f : Nat) : OutputStates M :=
  { s with nextFrameNum := fun c' k =>
      if c' = c ∧ k = kind then (f + 1) % 4294967296 else s.nextFrameNum c' k }

end OutputStates

namespace Progress

variable (r : Progress)

/-- The buffer stays with its request. -/
def caches (b : StreamBuffer) : Bool := r.errorBufStrategy = .bufCache ∧ b.status = .error

/-- All buffers, and the metadata and the shutter or an error instead, have arrived. -/
def Complete : Prop :=
  r.numBuffersLeft = 0 ∧
    (r.skipResultMetadata = true ∨ r.haveResultMetadata = true ∧ r.shutterTimestamp ≠ 0)

instance : Decidable r.Complete := inferInstanceAs (Decidable (_ ∧ _))

end Progress

section Streams

variable {M : Type} (env : OutputEnv M) (timesOut : StreamBuffer → Bool)

/-- The loop body of `returnOutputBuffers`. -/
def returnOutputBuffer (r : InFlightRequest M) (timestamp : Int) (increasing : Bool)
    (s : OutputStates M) (b : StreamBuffer) : OutputStates M :=
  let notify (s : OutputStates M) (p : Bool) :=
    if p && env.hasListener then
      s.push (.notifyError .cameraBuffer { r.resultExtras with errorStreamId := b.streamId })
    else s
  let s := notify s (b.status = .error ∧ r.errorBufStrategy = .bufReturnNotify)
  if b.buffer = none ∨ r.caches b then s
  else
    let s := s.push (.returnBuffer b timestamp increasing)
    if b.streamId ∈ r.outputSurfaces ∧ timesOut b ∧ b.status = .ok then
      notify (s.push (.cancelBuffer { b with status := .error })) true
    else s

/-- `returnOutputBuffers` for the buffers of a request. -/
def returnOutputBuffers (r : InFlightRequest M) (timestamp : Int) (increasing : Bool)
    (s : OutputStates M) : OutputStates M :=
  r.pendingOutputBuffers.foldl (returnOutputBuffer env timesOut r timestamp increasing) s

def returnAndRemovePendingOutputBuffers (s : OutputStates M) (r : InFlightRequest M) :
    OutputStates M × InFlightRequest M :=
  (returnOutputBuffers env timesOut r r.shutterTimestamp (r.kind = .regular) s,
    { r with pendingOutputBuffers := r.pendingOutputBuffers.filter r.caches })

/-! ### The map -/

/-- `removeInFlightRequestIfReadyLocked` for the request `r` of the frame. -/
def removeInFlightRequestIfReadyLocked (s : OutputStates M) (f : Nat) (r : InFlightRequest M) :
    OutputStates M :=
  if r.Complete then
    let s :=
      if r.hasCallback ∧ r.requestStatus = 0 ∧ r.sensorTimestamp ≠ r.shutterTimestamp then
        s.setErr .timestampMismatch
      else s
    let s := (returnOutputBuffers env timesOut r 0 true s).push (.removed f r.toProgress)
    { s with
      lastCompletedFrameNumber := fun k => if k = r.kind then f else s.lastCompletedFrameNumber k
      inflightMap := s.inflightMap.removeItem f }
  else s

def registerInFlight (s : OutputStates M) (f numBuffers : Nat) (extras : CaptureResultExtras)
    (physicalCameraIds : List (List String)) (args : InFlightArgs) : OutputStates M :=
  let request : InFlightRequest M :=
    { args with
      numBuffersLeft := numBuffers
      resultExtras := extras
      physicalCameraIds := physicalCameraIds
      pendingMetadata := env.emptyMetadata
      collectedPartialResult := env.emptyMetadata }
  { s with inflightMap := s.inflightMap.add f request }

end Streams

/-! ### Results -/

section Results

variable {M : Type} (env : OutputEnv M)

def sendPartialCaptureResult (s : OutputStates M) (f : Nat) (r : InFlightRequest M) (metadata : M) :
    OutputStates M :=
  match env.correctPartial r metadata with
  | none => s.setErr .resultCorrection
  | some metadata =>
    if env.isEmpty metadata then s else s.push (.partialResult f r.resultExtras metadata)

def sendCaptureResult (s : OutputStates M) (f : Nat) (r : InFlightRequest M)
    (metadata collected : M) : OutputStates M :=
  if env.isEmpty metadata then s
  else if f < s.nextFrameNum .result r.kind then s.setErr .resultOutOfOrder
  else
    let s := s.advance .result r.kind f
    let metadata :=
      if env.usePartialResult ∧ ¬env.isEmpty collected then env.append metadata collected
      else metadata
    if env.timestamps metadata = [] then s.setErr .noTimestamp
    else if r.physicalMetadatas.any fun p => env.timestamps p.2 = [] then
      s.setErr .noPhysicalTimestamp
    else
      match env.correctResult r metadata with
      | none => s.setErr .resultCorrection
      | some (metadata, physical) => s.push (.result r.kind f r.resultExtras metadata physical)

/-- `erasePhysicalCameraIdSet`, `none` where no set has the id. -/
def erasePhysicalCameraIdSet (ids : List (List String)) (id : String) :
    Option (List (List String)) :=
  if ids.any (id ∈ ·) then some (ids.eraseP (id ∈ ·)) else none

/-- `camera_capture_result_t`. The input buffer is there or not. -/
structure CaptureResult (M : Type) where
  frameNumber : Nat
  result : Option M := none
  outputBuffers : List StreamBuffer := []
  inputBuffer : Bool := false
  partialResult : Nat := 0
  physcam : List (String × M) := []

/-- `isPartialResult`. -/
def CaptureResult.isPartial (c : CaptureResult M) : Bool :=
  env.usePartialResult ∧ c.result.isSome ∧ c.partialResult < env.numPartialResults

/-- The checks of partial metadata. -/
def partialError (c : CaptureResult M) : Option OutputError :=
  if env.usePartialResult ∧ c.result.isSome then
    if env.numPartialResults < c.partialResult ∨ c.partialResult < 1 then some .partialResultRange
    else if c.isPartial env ∧ c.physcam ≠ [] then some .partialPhysicalResult
    else none
  else none

/-- The loop that looks for the cameras of a final result among those of the request: it ends at the
first one that is not there. -/
def takePhysicalIds : List (String × M) → InFlightRequest M → InFlightRequest M × Bool
  | [], r => (r, true)
  | (id, _) :: physcam, r =>
    match erasePhysicalCameraIdSet r.physicalCameraIds id with
    | none => (r, false)
    | some ids => takePhysicalIds physcam { r with physicalCameraIds := ids }

/-- The request when it gets its final metadata, with the partial results collected so far, or an
error. -/
def takeFinalMetadata (c : CaptureResult M) (r : InFlightRequest M) :
    InFlightRequest M × M × Option OutputError :=
  if r.physicalCameraIds.length ≠ c.physcam.length then
    (r, env.emptyMetadata, some .physicalMetadataCount)
  else if r.haveResultMetadata then (r, env.emptyMetadata, some .metadataTwice)
  else
    match takePhysicalIds c.physcam r with
    | (r, false) => (r, env.emptyMetadata, some .unexpectedPhysicalResult)
    | (r, true) =>
      let acquires := env.usePartialResult && !env.isEmpty r.collectedPartialResult
      ({ r with
          collectedPartialResult :=
            if acquires then env.emptyMetadata else r.collectedPartialResult
          haveResultMetadata := true
          errorBufStrategy := .bufReturnNotify },
        if acquires then r.collectedPartialResult else env.emptyMetadata, none)

/-- Final metadata waits for the shutter, or is sent. -/
def deliverMetadata (s : OutputStates M) (c : CaptureResult M) (r : InFlightRequest M)
    (collected : M) : OutputStates M × InFlightRequest M :=
  match c.result with
  | none => (s, r)
  | some metadata =>
    if c.isPartial env then (s, r)
    else
      let r : InFlightRequest M := { r with physicalMetadatas := r.physicalMetadatas ++ c.physcam }
      if r.shutterTimestamp = 0 then
        (s, { r with pendingMetadata := metadata, collectedPartialResult := collected })
      else if r.hasCallback then (sendCaptureResult env s c.frameNumber r metadata collected, r)
      else (s, r)

variable (timesOut : StreamBuffer → Bool)

/-- The latest count of partial results, unless there are only buffers. -/
def notePartialCount (c : CaptureResult M) (r : InFlightRequest M) : InFlightRequest M :=
  if c.partialResult = 0 then r
  else { r with resultExtras := { r.resultExtras with partialResultCount := c.partialResult } }

def countBuffers (c : CaptureResult M) (r : InFlightRequest M) : InFlightRequest M :=
  let returned := c.outputBuffers.length + if c.inputBuffer && r.hasInputBuffer then 1 else 0
  { r with numBuffersLeft := r.numBuffersLeft - returned }

def appendBuffers (c : CaptureResult M) (r : InFlightRequest M) : InFlightRequest M :=
  { r with
    sensorTimestamp := match c.result.map env.timestamps with
      | some [t] => t
      | _ => r.sensorTimestamp
    pendingOutputBuffers := r.pendingOutputBuffers ++ c.outputBuffers }

/-- Without a shutter the buffers stay. -/
def returnPending (s : OutputStates M) (r : InFlightRequest M) :
    OutputStates M × InFlightRequest M :=
  if r.shutterTimestamp ≠ 0 then returnAndRemovePendingOutputBuffers env timesOut s r else (s, r)

/-- The part of `processCaptureResult` that begins with the buffers. -/
def takeBuffers (s : OutputStates M) (c : CaptureResult M) (r : InFlightRequest M) (collected : M) :
    OutputStates M :=
  let f := c.frameNumber
  let r := countBuffers c r
  if r.numBuffersLeft < 0 then (s.put f r).setErr .tooManyBuffers
  else
    let s := { s with taken := c.outputBuffers ++ s.taken }
    let (s, r) := returnPending env timesOut s (appendBuffers env c r)
    let (s, r) := deliverMetadata env s c r collected
    removeInFlightRequestIfReadyLocked env timesOut (s.put f r) f r

def processCaptureResult (s : OutputStates M) (c : CaptureResult M) : OutputStates M :=
  if c.result.isNone ∧ c.outputBuffers = [] ∧ c.inputBuffer = false then s.setErr .noResultData
  else if env.usePartialResult = false ∧ c.result.isSome ∧ c.partialResult ≠ 1 then
    s.setErr .partialResultUnsupported
  else
    match s.inflightMap.lookup c.frameNumber with
    | none => s.setErr .unknownFrame
    | some r =>
      let r := notePartialCount c r
      match partialError env c with
      | some e => (s.put c.frameNumber r).setErr e
      | none =>
        match c.result with
        | none => takeBuffers env timesOut s c r env.emptyMetadata
        | some metadata =>
          if c.isPartial env then
            let r := { r with
              collectedPartialResult := env.append r.collectedPartialResult metadata }
            let s :=
              if r.hasCallback then sendPartialCaptureResult env s c.frameNumber r metadata else s
            takeBuffers env timesOut s c r env.emptyMetadata
          else
            match takeFinalMetadata env c r with
            | (r, _, some e) => (s.put c.frameNumber r).setErr e
            | (r, collected, none) => takeBuffers env timesOut s c r collected

def passOnShutter (s : OutputStates M) (f : Nat) (r : InFlightRequest M) :
    OutputStates M × InFlightRequest M :=
  if r.hasCallback && env.hasListener then
    let extras := { r.resultExtras with lastCompletedFrameNumber := s.lastCompletedFrameNumber }
    (s.push (.notifyShutter r.kind f extras r.shutterTimestamp), { r with resultExtras := extras })
  else (s, r)

def notifyShutter (s : OutputStates M) (f : Nat) (timestamp : Int) : OutputStates M :=
  match s.inflightMap.lookup f with
  | none => s.setErr .unknownShutter
  | some r =>
    if f < s.nextFrameNum .shutter r.kind then s.setErr .shutterOutOfOrder
    else
      let r : InFlightRequest M := { r with shutterTimestamp := timestamp }
      let (s, r) := passOnShutter env (s.advance .shutter r.kind f) f r
      let s :=
        if r.hasCallback then sendCaptureResult env s f r r.pendingMetadata r.collectedPartialResult
        else s
      let (s, r) := returnAndRemovePendingOutputBuffers env timesOut s r
      removeInFlightRequestIfReadyLocked env timesOut (s.put f r) f r

/-- `camera_error_msg_t`. The stream has an id and the name of its physical camera. -/
structure ErrorMsg where
  frameNumber : Nat
  errorStream : Option (Int × String) := none
  errorCode : Int

def halErrorMap (errorCode : Int) : ErrorCode :=
  if errorCode = 1 then .cameraDevice
  else if errorCode = 2 then .cameraRequest
  else if errorCode = 3 then .cameraResult
  else if errorCode = 4 then .cameraBuffer
  else .invalidError

/-- The part of `notifyError` for an error of a request or of its result. An error of a physical
camera that the request does not have is not passed on. -/
def notifyRequestError (s : OutputStates M) (msg : ErrorMsg) (error : ErrorCode) : OutputStates M :=
  let (streamId, physicalCameraId) := msg.errorStream.getD (0, "")
  let notify (s : OutputStates M) (extras : CaptureResultExtras) :=
    if env.hasListener then s.push (.notifyError error { extras with errorStreamId := streamId })
    else s
  match s.inflightMap.lookup msg.frameNumber with
  | none => notify s { frameNumber := msg.frameNumber }
  | some r =>
    let r := { r with requestStatus := msg.errorCode }
    if error = .cameraResult ∧ physicalCameraId ≠ "" then
      match erasePhysicalCameraIdSet r.physicalCameraIds physicalCameraId with
      | none => s.put msg.frameNumber r
      | some ids =>
        notify (s.put msg.frameNumber { r with physicalCameraIds := ids })
          { r.resultExtras with errorPhysicalCameraId := physicalCameraId }
    else
      let r := { r with
        skipResultMetadata := true
        errorBufStrategy := if error = .cameraResult then .bufReturnNotify else .bufReturn }
      notify
        (removeInFlightRequestIfReadyLocked env timesOut (s.put msg.frameNumber r) msg.frameNumber r)
        r.resultExtras

def notifyError (s : OutputStates M) (msg : ErrorMsg) : OutputStates M :=
  match halErrorMap msg.errorCode with
  | .cameraDevice => s.setErr .deviceError
  | .cameraBuffer => s
  | .invalidError => s.setErr .unknownError
  | error => notifyRequestError env timesOut s msg error

/-- A call, with the buffers whose return times out during it. -/
inductive OutputOp (M : Type)
  | registerInFlight (f numBuffers : Nat) (extras : CaptureResultExtras)
      (physicalCameraIds : List (List String)) (args : InFlightArgs)
  | processCaptureResult (timesOut : StreamBuffer → Bool) (c : CaptureResult M)
  | notifyShutter (timesOut : StreamBuffer → Bool) (f : Nat) (timestamp : Int)
  | notifyError (timesOut : StreamBuffer → Bool) (msg : ErrorMsg)

def outputStep (s : OutputStates M) : OutputOp M → Option (OutputStates M)
  | .registerInFlight f numBuffers extras ids args =>
    some (registerInFlight env s f numBuffers extras ids args)
  | .processCaptureResult timesOut c => some (processCaptureResult env timesOut s c)
  | .notifyShutter timesOut f timestamp => some (notifyShutter env timesOut s f timestamp)
  | .notifyError timesOut msg => some (notifyError env timesOut s msg)

/-- The request thread counts its frames up, below 2³² - 1. -/
def FrameFresh (s : OutputStates M) : OutputOp M → Prop
  | .registerInFlight f .. => f + 1 < 4294967296 ∧ ∀ item ∈ s.inflightMap.items, item.1 < f
  | _ => True

end Results

end Hima.Camera3Output
