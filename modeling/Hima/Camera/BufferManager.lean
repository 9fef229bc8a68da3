import Mathlib.Algebra.GroupWithZero.Nat
import Mathlib.Data.Prod.Lex
import Hima.Lib.KeyedVector
import Hima.Lib.Runs

/-!
# Camera3BufferManager

The buffer counts of the streams of a set. Every section under `mLock` is one step: whole calls, a
`getBufferForStream` up to where it drops the lock to detach a buffer of another stream, and what it
does after that. Buffers are those of Gralloc V0, for which `mGrallocVersion` is fixed.
-/
namespace Hima.BufferManager

open Runs

def CAMERA3_STREAM_ID_INVALID : Int := -1

def CAMERA3_STREAM_SET_ID_INVALID : Int := -1

def BUFFER_WATERMARK_DEC_THRESHOLD : Nat := 3

def BUFFER_FREE_THRESHOLD : Nat := 3

inductive StatusT where
  | ok
  | alreadyExists
  | badValue
  | invalidOperation
  /-- What `initCheck` returned for the buffer. -/
  | allocationFailed
  deriving DecidableEq

structure StreamInfo where
  streamId : Int
  streamSetId : Int
  totalBufferCount : Nat
  isConfigured : Bool
  isMultiRes : Bool

structure StreamSetKey where
  id : Int
  isMultiRes : Bool
  deriving DecidableEq

def StreamSetKey.toPair (key : StreamSetKey) : Bool ×ₗ Int := toLex (key.isMultiRes, key.id)

theorem StreamSetKey.toPair_injective : Function.Injective StreamSetKey.toPair := by
  rintro ⟨id, multi⟩ ⟨id', multi'⟩ same
  obtain ⟨rfl, rfl⟩ := Prod.mk.inj (toLex.injective same)
  rfl

/-- Keys for single resolutions come first, then the ids count. -/
instance : LinearOrder StreamSetKey :=
  LinearOrder.lift' StreamSetKey.toPair StreamSetKey.toPair_injective

structure StreamSet where
  allocatedBufferWaterMark : Nat := 0
  maxAllowedBufferCount : Nat := 0
  streamInfoMap : KeyedVector Int StreamInfo := {}
  handoutBufferCountMap : KeyedVector Int Nat := {}
  attachedBufferCountMap : KeyedVector Int Nat := {}

/-- A set without streams. -/
def StreamSet.empty : StreamSet := {}

/-- One registration of a stream, by its number. -/
structure Registration where
  key : StreamSetKey
  streamId : Int
  number : Nat
  deriving DecidableEq

/-- A `getBufferForStream` that has dropped the lock: the stream it is for, the stream it detaches a
buffer from, the storage that its `streamSet` refers to, and the checks it still has to make. -/
structure Detach where
  call : Registration
  other : Int
  storage : Nat
  checks : Nat
  deriving DecidableEq

/-- The manager and its callers. `storage` counts the changes of `mStreamSetMap` after which a reference
into it is no longer good. `registration` is the number of the latest registration of a stream,
`allowed` the `maxAllowedBufferCount` of its latest hand-out, `out` the buffers handed out under a
registration and not back yet, `toFree` those that the caller was told to free. -/
structure Camera3BufferManager where
  kMaxBufferCount : Nat
  mStreamSetMap : KeyedVector StreamSetKey StreamSet := {}
  mStreamMap : KeyedVector Int Unit := {}
  storage : Nat := 0
  detaching : List Detach := []
  registrations : Nat := 0
  registration : StreamSetKey → Int → Nat := fun _ _ => 0
  allowed : StreamSetKey → Int → Nat := fun _ _ => 0
  out : Registration → Nat := fun _ => 0
  toFree : StreamSetKey → Int → Nat := fun _ _ => 0

/-- What ends a step without a result: an entry of a stream or a stream set is accessed that is not
there any more, a counter falls below zero, a stream is missing in `mStreamMap`. -/
inductive Fault where
  | removedEntry
  | underflow
  | unknownStream

/-- A check that returns, or one that drops the lock to detach a buffer of a stream. -/
inductive Progress where
  | returns (rv : StatusT)
  | detaches (other : Int) (checks : Nat)

/-- `allocates` says whether the new buffer passes `initCheck`, `promotes` whether the streams to detach
from are still there, `freed` whether `detachBuffer` found a free buffer. -/
inductive Action where
  | registerStream (info : StreamInfo)
  | unregisterStream (key : StreamSetKey) (streamId : Int)
  | getBufferForStream (key : StreamSetKey) (streamId : Int)
      (noFreeBufferAtConsumer allocates promotes : Bool)
  /-- The call has the lock again. -/
  | resume (call : Detach) (freed promotes : Bool)
  | onBufferReleased (buffer : Registration)
  /-- The removed buffers, each with the registration it was handed out under. -/
  | onBuffersRemoved (key : StreamSetKey) (streamId : Int) (numbers : List Nat)
  | notifyBufferRemoved (key : StreamSetKey) (streamId : Int)

variable {κ ν : Type} [LinearOrder κ]

/-- The value of a key that has to be there. -/
def editValueFor (m : KeyedVector κ ν) (k : κ) : Except Fault ν :=
  match m.lookup k with
  | some v => .ok v
  | none => .error .removedEntry

def decrement : Nat → Except Fault Nat
  | 0 => .error .underflow
  | n + 1 => .ok n

def StreamSet.totalAllocatedBufferCount (set : StreamSet) : Nat :=
  (set.attachedBufferCountMap.items.map Prod.snd).sum

/-- Summed over the indices of the attached counts. -/
def StreamSet.totalHandOutBufferCount (set : StreamSet) : Nat :=
  ((set.handoutBufferCountMap.items.take set.attachedBufferCountMap.items.length).map Prod.snd).sum

/-- With more than enough buffers allocated the water mark goes down. -/
def StreamSet.lowerWaterMark (set : StreamSet) : StreamSet :=
  let newWaterMark := set.totalHandOutBufferCount + BUFFER_WATERMARK_DEC_THRESHOLD
  if set.totalAllocatedBufferCount > newWaterMark ∧ set.allocatedBufferWaterMark > newWaterMark then
    { set with allocatedBufferWaterMark := newWaterMark }
  else set

/-- The loop for the first other stream with a free buffer attached. -/
def StreamSet.firstOtherStream (set : StreamSet) (streamId : Int) :
    List (Int × StreamInfo) → Except Fault (Option Int)
  | [] => .ok none
  | (_, info) :: infos =>
    if info.streamId ≠ streamId then do
      let otherBufferCount ← editValueFor set.handoutBufferCountMap info.streamId
      let otherAttachedBufferCount ← editValueFor set.attachedBufferCountMap info.streamId
      if otherAttachedBufferCount > otherBufferCount then .ok (some info.streamId)
      else set.firstOtherStream streamId infos
    else set.firstOtherStream streamId infos

namespace Camera3BufferManager

variable (m : Camera3BufferManager)

def checkIfStreamRegisteredLocked (key : StreamSetKey) (streamId : Int) : Bool :=
  match m.mStreamSetMap.lookup key with
  | none => false
  | some set =>
    (set.streamInfoMap.lookup streamId).isSome && set.maxAllowedBufferCount ≠ 0 &&
      set.maxAllowedBufferCount ≤ m.kMaxBufferCount

def setStreamSet (key : StreamSetKey) (set : StreamSet) : Camera3BufferManager :=
  { m with mStreamSetMap := m.mStreamSetMap.setValueFor key set }

/-- Whether the stream is known with another stream set id and another `isMultiRes`. -/
def registeredElsewhere (info : StreamInfo) : Bool :=
  m.mStreamSetMap.items.any fun item =>
    match item.2.streamInfoMap.lookup info.streamId with
    | none => false
    | some known => known.streamSetId ≠ info.streamSetId && known.isMultiRes ≠ info.isMultiRes

def registerStream (info : StreamInfo) : StatusT × Camera3BufferManager :=
  let key : StreamSetKey := { id := info.streamSetId, isMultiRes := info.isMultiRes }
  if info.streamId = CAMERA3_STREAM_ID_INVALID ∨ key.id = CAMERA3_STREAM_SET_ID_INVALID then
    (.badValue, m)
  else if info.totalBufferCount > m.kMaxBufferCount ∨ info.totalBufferCount = 0 then (.badValue, m)
  else if info.isConfigured = false then (.badValue, m)
  else if m.registeredElsewhere info then (.badValue, m)
  else
    let (m, currentStreamSet) :=
      match m.mStreamSetMap.lookup key with
      | some set => (m, set)
      | none =>
        ({ m with mStreamSetMap := m.mStreamSetMap.add key {}, storage := m.storage + 1 }, {})
    match currentStreamSet.streamInfoMap.lookup info.streamId with
    | some _ => (.ok, m)
    | none =>
      (.ok,
        { m.setStreamSet key
            { currentStreamSet with
              streamInfoMap := currentStreamSet.streamInfoMap.add info.streamId info
              handoutBufferCountMap := currentStreamSet.handoutBufferCountMap.add info.streamId 0
              attachedBufferCountMap := currentStreamSet.attachedBufferCountMap.add info.streamId 0
              maxAllowedBufferCount :=
                max currentStreamSet.maxAllowedBufferCount info.totalBufferCount } with
          mStreamMap := m.mStreamMap.add info.streamId ()
          registrations := m.registrations + 1
          registration := fun k s =>
            if k = key ∧ s = info.streamId then m.registrations + 1 else m.registration k s })

def unregisterStream (key : StreamSetKey) (streamId : Int) :
    Except Fault (StatusT × Camera3BufferManager) :=
  if m.checkIfStreamRegisteredLocked key streamId = false then .ok (.badValue, m)
  else do
    let currentSet ← editValueFor m.mStreamSetMap key
    let infoMap := currentSet.streamInfoMap.removeItem streamId
    let handOutBufferCounts := currentSet.handoutBufferCountMap.removeItem streamId
    let m := m.setStreamSet key
      { allocatedBufferWaterMark := 0
        maxAllowedBufferCount := (infoMap.items.map (·.2.totalBufferCount)).foldl max 0
        streamInfoMap := infoMap
        handoutBufferCountMap := handOutBufferCounts
        attachedBufferCountMap := currentSet.attachedBufferCountMap.removeItem streamId }
    let m := { m with mStreamMap := m.mStreamMap.removeItem streamId }
    if handOutBufferCounts.items.length = 0 ∧ infoMap.items.length = 0 then
      .ok (.ok,
        { m with mStreamSetMap := m.mStreamSetMap.removeItem key, storage := m.storage + 1 })
    else .ok (.ok, m)

/-- The decrement of an attached count, by `notifyBufferRemoved` and after `detachBuffer`. -/
def bufferRemoved (key : StreamSetKey) (streamId : Int) : Except Fault Camera3BufferManager := do
  let streamSet ← editValueFor m.mStreamSetMap key
  let attachedBufferCount ← editValueFor streamSet.attachedBufferCountMap streamId
  let attachedBufferCount ← decrement attachedBufferCount
  .ok (m.setStreamSet key
    { streamSet with
      attachedBufferCountMap := streamSet.attachedBufferCountMap.setValueFor streamId
        attachedBufferCount })

def notifyBufferRemoved (key : StreamSetKey) (streamId : Int) : Except Fault Camera3BufferManager :=
  m.bufferRemoved key streamId

/-- Up to the point where the lock is dropped; nothing is changed before. -/
def checkAndFreeBufferOnOtherStreamsLocked (key : StreamSetKey) (streamId : Int) (promotes : Bool)
    (checks : Nat) : Except Fault Progress := do
  let streamSet ← editValueFor m.mStreamSetMap key
  if streamSet.streamInfoMap.items.length = 1 then .ok (.returns .ok)
  else
    match ← streamSet.firstOtherStream streamId streamSet.streamInfoMap.items with
    | none => .ok (.returns .ok)
    | some other =>
      if streamSet.totalAllocatedBufferCount > streamSet.allocatedBufferWaterMark then
        match m.mStreamMap.lookup other with
        | none => .error .unknownStream
        | some _ =>
          if promotes then .ok (.detaches other checks) else .ok (.returns .invalidOperation)
      else .ok (.returns .ok)

/-- The checks that are left, until one drops the lock or fails. -/
def freeOnOtherStreams (key : StreamSetKey) (streamId : Int) (promotes : Bool) :
    Nat → Except Fault Progress
  | 0 => .ok (.returns .ok)
  | checks + 1 => do
    match ← m.checkAndFreeBufferOnOtherStreamsLocked key streamId promotes checks with
    | .returns .ok => freeOnOtherStreams key streamId promotes checks
    | progress => .ok progress

/-- The count of hand-outs goes up. -/
def countHandout (key : StreamSetKey) (streamId : Int) (set : StreamSet) (bufferCount : Nat) :
    Camera3BufferManager :=
  { m.setStreamSet key
      { set with
        handoutBufferCountMap := set.handoutBufferCountMap.setValueFor streamId (bufferCount + 1) } with
    allowed := fun k s =>
      if k = key ∧ s = streamId then set.maxAllowedBufferCount else m.allowed k s }

def getBufferForStream (key : StreamSetKey) (streamId : Int)
    (noFreeBufferAtConsumer allocates promotes : Bool) :
    Except Fault (Progress × Camera3BufferManager) :=
  if m.checkIfStreamRegisteredLocked key streamId = false then .ok (.returns .badValue, m)
  else do
    let streamSet ← editValueFor m.mStreamSetMap key
    let bufferCount ← editValueFor streamSet.handoutBufferCountMap streamId
    let attached ← editValueFor streamSet.attachedBufferCountMap streamId
    let attachedBufferCount := if noFreeBufferAtConsumer then bufferCount else attached
    let streamSet : StreamSet :=
      { streamSet with
        attachedBufferCountMap := streamSet.attachedBufferCountMap.setValueFor streamId
          attachedBufferCount }
    if bufferCount ≥ streamSet.maxAllowedBufferCount then
      .ok (.returns .invalidOperation, m.setStreamSet key streamSet)
    else if attachedBufferCount > bufferCount then
      .ok (.returns .alreadyExists, m.countHandout key streamId streamSet bufferCount)
    else if allocates = false then
      .ok (.returns .allocationFailed, m.setStreamSet key streamSet)
    else
      let m := m.countHandout key streamId
        { streamSet with
          attachedBufferCountMap := streamSet.attachedBufferCountMap.setValueFor streamId
            (attachedBufferCount + 1)
          allocatedBufferWaterMark := max streamSet.allocatedBufferWaterMark (bufferCount + 2) }
        bufferCount
      let progress ← m.freeOnOtherStreams key streamId promotes 2
      .ok (progress, m)

/-- The lock is taken again after `detachBuffer`. The reference to the stream set is good if the map of
the stream sets has kept its entries. -/
def detached (call : Detach) (freed : Bool) : Except Fault Camera3BufferManager :=
  if freed then
    if call.storage = m.storage then m.bufferRemoved call.call.key call.other
    else .error .removedEntry
  else .ok m

/-- The rest of a `getBufferForStream` that has dropped the lock. -/
def resume (call : Detach) (freed promotes : Bool) :
    Except Fault (Progress × Camera3BufferManager) := do
  let m ← m.detached call freed
  let progress ← m.freeOnOtherStreams call.call.key call.call.streamId promotes call.checks
  .ok (progress, m)

/-- Whether the caller should free a buffer. -/
def onBufferReleased (key : StreamSetKey) (streamId : Int) :
    Except Fault (Bool × Camera3BufferManager) :=
  if m.checkIfStreamRegisteredLocked key streamId = false then .ok (false, m)
  else do
    let streamSet ← editValueFor m.mStreamSetMap key
    let bufferCount ← editValueFor streamSet.handoutBufferCountMap streamId
    let bufferCount ← decrement bufferCount
    let streamSet : StreamSet :=
      { streamSet with
        handoutBufferCountMap := streamSet.handoutBufferCountMap.setValueFor streamId bufferCount }
    let streamSet := streamSet.lowerWaterMark
    let attachedBufferCount ← editValueFor streamSet.attachedBufferCountMap streamId
    let freeBufferIsAttached := decide (attachedBufferCount > bufferCount)
    .ok (freeBufferIsAttached &&
        streamSet.totalAllocatedBufferCount > streamSet.allocatedBufferWaterMark &&
        attachedBufferCount > bufferCount + BUFFER_FREE_THRESHOLD,
      m.setStreamSet key streamSet)

def onBuffersRemoved (key : StreamSetKey) (streamId : Int) (count : Nat) :
    Except Fault (StatusT × Camera3BufferManager) :=
  if m.checkIfStreamRegisteredLocked key streamId = false then .ok (.ok, m)
  else do
    let streamSet ← editValueFor m.mStreamSetMap key
    let totalHandoutCount ← editValueFor streamSet.handoutBufferCountMap streamId
    let totalAttachedCount ← editValueFor streamSet.attachedBufferCountMap streamId
    if count > totalHandoutCount then .ok (.badValue, m)
    else if count > totalAttachedCount then .ok (.badValue, m)
    else
      .ok (.ok, m.setStreamSet key
        { streamSet with
          handoutBufferCountMap := streamSet.handoutBufferCountMap.setValueFor streamId
            (totalHandoutCount - count)
          attachedBufferCountMap := streamSet.attachedBufferCountMap.setValueFor streamId
            (totalAttachedCount - count) })

/-- The caller has its answer, with a buffer if it is a good one, or the call waits for the lock. -/
def proceed (call : Registration) : Progress → Camera3BufferManager
  | .returns rv =>
    if rv = .ok ∨ rv = .alreadyExists then
      { m with out := Function.update m.out call (m.out call + 1) }
    else m
  | .detaches other checks =>
    { m with
      detaching := { call := call, other := other, storage := m.storage, checks := checks } ::
        m.detaching }

def perform : Action → Except Fault Camera3BufferManager
  | .registerStream info => .ok (m.registerStream info).2
  | .unregisterStream key streamId => (m.unregisterStream key streamId).map Prod.snd
  | .getBufferForStream key streamId noFreeBufferAtConsumer allocates promotes =>
    (m.getBufferForStream key streamId noFreeBufferAtConsumer allocates promotes).map
      fun (progress, m) => m.proceed ⟨key, streamId, m.registration key streamId⟩ progress
  | .resume call freed promotes =>
    (m.resume call freed promotes).map fun (progress, m) =>
      { m with detaching := m.detaching.erase call }.proceed call.call progress
  | .onBufferReleased buffer =>
    (m.onBufferReleased buffer.key buffer.streamId).map fun (shouldFreeBuffer, m) =>
      { m with
        out := Function.update m.out buffer (m.out buffer - 1)
        toFree := fun k s =>
          if k = buffer.key ∧ s = buffer.streamId ∧ shouldFreeBuffer then m.toFree k s + 1
          else m.toFree k s }
  | .onBuffersRemoved key streamId numbers =>
    (m.onBuffersRemoved key streamId numbers.length).map fun (_, m) =>
      { m with
        out := fun buffer =>
          if buffer.key = key ∧ buffer.streamId = streamId then
            m.out buffer - numbers.count buffer.number
          else m.out buffer }
  | .notifyBufferRemoved key streamId =>
    (m.notifyBufferRemoved key streamId).map fun m =>
      { m with
        toFree := fun k s =>
          if k = key ∧ s = streamId then m.toFree k s - 1 else m.toFree k s }

/-- The faultless steps. -/
def step (a : Action) : Option Camera3BufferManager := (m.perform a).toOption

/-- A call resumes once, and releases, removals and notifications are about buffers that were handed out
or detached. -/
def Permitted : Action → Prop
  | .resume call _ _ => call ∈ m.detaching
  | .onBufferReleased buffer => 0 < m.out buffer
  | .onBuffersRemoved key streamId numbers =>
    ∀ number ∈ numbers, numbers.count number ≤ m.out ⟨key, streamId, number⟩
  | .notifyBufferRemoved key streamId => 0 < m.toFree key streamId
  | _ => True

instance (a : Action) : Decidable (m.Permitted a) := by
  cases a <;> unfold Permitted <;> infer_instance

end Camera3BufferManager

end Hima.BufferManager
