import Hima.Lib.PackedArray

/-!
# LocApiBase

The adapters of a location API, and its message task. An adapter is a pointer to a `LocAdapterBase` (`α`).
`addAdapter` and `removeAdapter` call `close` themselves, but they send a message for each `open`: the task calls it
when it comes to the message, between any two calls.
-/
namespace Hima.Gps

open SlotArray PackedArray

def MAX_ADAPTERS : Nat := 10

/-- `LOC_API_ADAPTER_EVENT_MASK_T` -/
abbrev EventMask := UInt32

structure LocOpenMsg where
  mMask : EventMask
  deriving DecidableEq

/-- What a call does but for the array. -/
inductive Request where
  | sendMsg (msg : LocOpenMsg)
  | close
  deriving DecidableEq

structure LocApiBase (α : Type) where
  mExcludedMask : EventMask
  mLocAdapters : Fin MAX_ADAPTERS → Option α := fun _ => none

/-- A call, with what `getEvtMask` of the adapters returns at the time. -/
inductive AdapterCall (α : Type) where
  | addAdapter (adapter : α) (getEvtMask : α → EventMask)
  | removeAdapter (adapter : α) (getEvtMask : α → EventMask)

variable {α β : Type}

def AdapterCall.adapter : AdapterCall α → α
  | addAdapter adapter _ => adapter
  | removeAdapter adapter _ => adapter

namespace LocApiBase

variable (api : LocApiBase α)

/-- `TO_ALL_LOCADAPTERS(call)` -/
def toAllLocAdapters (call : β → α → β) (b : β) : β :=
  walk (fun b adapter => (call b adapter, true)) (List.ofFn api.mLocAdapters) b

/-- `TO_1ST_HANDLING_LOCADAPTERS(call)`. The second part of what `call` returns says whether the adapter handles it. -/
def to1stHandlingLocAdapters (call : β → α → β × Bool) (b : β) : β :=
  walk (fun b adapter => ((call b adapter).1, !(call b adapter).2)) (List.ofFn api.mLocAdapters) b

def getEvtMask (getEvtMask : α → EventMask) : EventMask :=
  api.toAllLocAdapters (fun mask adapter => mask ||| getEvtMask adapter) 0 &&& ~~~api.mExcludedMask

variable [DecidableEq α]

/-- The loop stops at the adapter or at the first `NULL`. -/
def addAdapter (getEvtMask : α → EventMask) (adapter : α) : LocApiBase α × List Request :=
  match firstSlot (fun slot => slot = none || slot = some adapter) api.mLocAdapters with
  | none => (api, [])
  | some i =>
    if api.mLocAdapters i = none then
      ({ api with mLocAdapters := Function.update api.mLocAdapters i (some adapter) },
        [.sendMsg ⟨getEvtMask adapter⟩])
    else (api, [])

/-- The loop of `removeAdapter` from slot `i` on. -/
def removeFrom (getEvtMask : α → EventMask) (adapter : α) (api : LocApiBase α) (i : Nat) :
    LocApiBase α × List Request :=
  if inside : i < MAX_ADAPTERS then
    let j : Fin MAX_ADAPTERS := ⟨i, inside⟩
    if api.mLocAdapters j = none then (api, [])
    else if api.mLocAdapters j = some adapter then
      let closed := closeHole api.mLocAdapters j
      let moved : LocApiBase α := { api with mLocAdapters := closed.1 }
      let request := if closed.2.val = 0 then .close else .sendMsg ⟨moved.getEvtMask getEvtMask⟩
      let (api, requests) := removeFrom getEvtMask adapter moved (closed.2 + 1)
      (api, request :: requests)
    else removeFrom getEvtMask adapter api (i + 1)
  else (api, [])
termination_by MAX_ADAPTERS - i
decreasing_by
  · have further : i ≤ (closeHole api.mLocAdapters ⟨i, inside⟩).2 :=
      le_closeHole api.mLocAdapters ⟨i, inside⟩
    omega
  · omega

def removeAdapter (getEvtMask : α → EventMask) (adapter : α) : LocApiBase α × List Request :=
  removeFrom getEvtMask adapter api 0

def step : AdapterCall α → LocApiBase α × List Request
  | .addAdapter adapter getEvtMask => api.addAdapter getEvtMask adapter
  | .removeAdapter adapter getEvtMask => api.removeAdapter getEvtMask adapter

end LocApiBase

/-- The API and its message task. -/
structure LocApi (α : Type) where
  base : LocApiBase α
  /-- The messages of `mMsgTask` that are not taken yet. -/
  mQ : List LocOpenMsg := []
  /-- What the API is open with: the mask of the latest `open` that no `close` has followed. -/
  opened : Option EventMask := none

inductive ApiEvent (α : Type) where
  | call (call : AdapterCall α)
  /-- `MsgTask::run` goes round. -/
  | run

namespace LocApi

def request (s : LocApi α) : Request → LocApi α
  | .sendMsg msg => { s with mQ := s.mQ ++ [msg] }
  | .close => { s with opened := none }

/-- `MsgTask::run`, with `LocOpenMsg::proc`. Without a message it waits. -/
def run (s : LocApi α) : Option (LocApi α) :=
  match s.mQ with
  | [] => none
  | msg :: mQ => some { s with mQ, opened := some msg.mMask }

def step [DecidableEq α] (s : LocApi α) : ApiEvent α → Option (LocApi α)
  | .call call => some ((s.base.step call).2.foldl request { s with base := (s.base.step call).1 })
  | .run => s.run

end LocApi

end Hima.Gps
