import HdyUtils.Basket.Codec
import HdyUtils.Lib.Maps
import HdyUtils.Lib.Trace

/-! The request tasks of the basket service (`BasketService::process_request` in `dtnbasket.rs`).  Every
request that arrives is processed by a task of its own.  The tasks share `active_tasks`, which holds,
under the id of each request, the sender of a watch channel that cancels the request.  A step is what
one task does between two points at which another may run. -/

namespace HdyUtils.Basket

open Std Maps

abbrev Bytes := List UInt8

namespace CoapStatus

def changed : UInt8 := 66
def notFound : UInt8 := 132
def internalServerError : UInt8 := 160

end CoapStatus

/-- The receiving end of a watch channel: the value in it, whether the value was sent since it was last
awaited, and whether the sender is gone. -/
structure Watch where
  value : Bool
  unseen : Bool
  closed : Bool
deriving DecidableEq, Repr

def Watch.new : Watch := ⟨false, false, false⟩

/-- `changed` returns. -/
def Watch.changed (watch : Watch) : Bool := watch.unseen || watch.closed

/-- A content bundle to send after the response. -/
structure RawBundle where
  body : Bytes
  hash : Bytes
  lifetime : UInt64
deriving DecidableEq, Repr

/-- What a task does next: look at item `idx`, carry out item `idx`, or take itself off the active
tasks. -/
inductive Stage
  | looping (idx : Nat)
  | working (idx : Nat)
  | leaving
  | finished
deriving DecidableEq, Repr

structure Run (E : Type) where
  source : E
  request : BasketRequest
  stage : Stage := .looping 0
  cancelRx : Watch := .new
  itemResponses : List ItemResponse := []
  rawBundlesToSend : List RawBundle := []
  /-- An item was aborted, or answered "Operation cancelled". -/
  interrupted : Bool := false

/-- What comes of carrying out an item. -/
inductive Outcome
  /-- The resource was fetched, or could not be: the answer, and the content with its hash. -/
  | fetched (response : ItemResponse) (content : Option (Bytes × Bytes))
  | cancelled
  /-- The search ended, or saw that the request is cancelled and stopped. -/
  | searched (result : Except String (List ItemResponse × List RawBundle)) (stopped : Bool)
  | listed (result : Except String (ItemResponse × Option RawBundle))

/-- A CANCEL item that was processed: the request id that it names, whether it was answered CHANGED,
and the requests that were active under the id. -/
structure CancelRecord where
  target : String
  changed : Bool
  active : List Nat

/-- The tasks in the order in which their requests arrived. -/
structure Tasks (E : Type) where
  runs : List (Run E)
  /-- The task whose sender is held under a request id. -/
  activeTasks : TreeMap String Nat
  cancels : List CancelRecord

inductive Action (E : Type)
  /-- A bundle arrives with a payload. -/
  | arrive (source : E) (payload : List Cbor.Token)
  /-- A task goes on: to the next item, or off the active tasks. -/
  | proceed (i : Nat)
  /-- A task has carried out its item. -/
  | perform (i : Nat) (outcome : Outcome)

variable {E : Type}

namespace Run

variable (run : Run E)

/-- The task has not finished, and no CANCEL has signalled it. -/
def isActive : Bool := run.stage != .finished && !run.cancelRx.value

def defaultLifetime : UInt64 := run.request.defaultLifetime.getD 3600

/-- Adds what an item was answered with, and goes on to the next item. -/
def respond (idx : Nat) (responses : List ItemResponse) (raws : List RawBundle) : Run E :=
  { run with
    stage := .looping (idx + 1)
    itemResponses := run.itemResponses ++ responses
    rawBundlesToSend := run.rawBundlesToSend ++ raws }

def answer (idx : Nat) (coapStatus : UInt8) (diagnostic : String) : Run E :=
  run.respond idx [{ itemIdx := .ofNat idx, coapStatus, metadata := none,
                     diagnostic := some diagnostic }] []

/-- The item failed with an error. -/
def fail (idx : Nat) (error : String) : Run E := run.answer idx CoapStatus.internalServerError error

def rawOf (item : RequestItem) (content : Option (Bytes × Bytes)) : Option RawBundle :=
  content.map fun content =>
    ⟨content.1, content.2, item.lifetimeOverride.getD run.defaultLifetime⟩

/-- GET and CHECK, of which only the first keeps the content.  The fetch races with `changed`. -/
def handleFetch (item : RequestItem) (idx : Nat) (keep : Bool) : Outcome → Run E
  | .fetched response content =>
    run.respond idx [response] (if keep then (run.rawOf item content).toList else [])
  | .cancelled =>
    if run.cancelRx.changed then
      { run.fail idx "Operation cancelled" with
        cancelRx := { run.cancelRx with unseen := false }
        interrupted := true }
    else run
  | _ => run

/-- SEARCH, which looks at the channel before each of its results. -/
def handleSearch (idx : Nat) : Outcome → Run E
  | .searched result stopped =>
    if stopped && !run.cancelRx.value then run
    else
      let run := { run with interrupted := run.interrupted || stopped }
      match result with
      | .ok (responses, raws) => run.respond idx responses raws
      | .error error => run.fail idx error
  | _ => run

def handleList (idx : Nat) : Outcome → Run E
  | .listed (.ok (response, raw)) => run.respond idx [response] raw.toList
  | .listed (.error error) => run.fail idx error
  | _ => run

/-- The top of the loop over the items. -/
def nextItem (idx : Nat) : Run E :=
  match run.request.items[idx]? with
  | none => { run with stage := .leaving }
  | some _ =>
    if run.cancelRx.value then { run with stage := .leaving, interrupted := true }
    else { run with stage := .working idx }

def finish : Run E := { run with stage := .finished }

/-- The sender sends `true` and is dropped. -/
def signal : Run E := { run with cancelRx := ⟨true, true, true⟩ }

def dropSender : Run E := { run with cancelRx := { run.cancelRx with closed := true } }

end Run

namespace Tasks

variable (s : Tasks E)

def new : Tasks E := ⟨[], ∅, []⟩

def modify (i : Nat) (f : Run E → Run E) : Tasks E := { s with runs := s.runs.modify i f }

/-- The tasks that are active under a request id. -/
def activeUnder (reqId : String) : List Nat :=
  (List.range s.runs.length).filter fun i =>
    s.runs[i]?.any fun run => run.isActive && run.request.reqId == reqId

/-- Takes the sender under a request id off the active tasks and drops it. -/
def remove (reqId : String) : Tasks E :=
  match s.activeTasks[reqId]? with
  | some i => { s.modify i Run.dropSender with activeTasks := s.activeTasks.erase reqId }
  | none => s

/-- Registers a request; a sender that was held under its id is dropped. -/
def register (source : E) (request : BasketRequest) : Tasks E :=
  let s := s.remove request.reqId
  { s with
    runs := s.runs ++ [{ source, request }]
    activeTasks := s.activeTasks.insert request.reqId s.runs.length }

/-- A CANCEL item of task `i` that names `target`. -/
def cancel (i idx : Nat) (target : String) : Tasks E :=
  let found := s.activeTasks[target]?
  let signalled :=
    match found with
    | some j => { s.modify j Run.signal with activeTasks := s.activeTasks.erase target }
    | none => s
  let status := if found.isSome then CoapStatus.changed else CoapStatus.notFound
  { signalled.modify i fun run =>
      run.answer idx status ("Request " ++ target ++ " successfully cancelled") with
    cancels := s.cancels ++ [⟨target, found.isSome, s.activeUnder target⟩] }

/-- Task `i` carries out `item`. -/
def perform (i idx : Nat) (item : RequestItem) (outcome : Outcome) : Tasks E :=
  match item.op with
  | 0 => s.modify i fun run => run.handleFetch item idx true outcome
  | 1 => s.modify i fun run => run.handleFetch item idx false outcome
  | 2 => s.modify i fun run => run.handleSearch idx outcome
  | 3 => s.cancel i idx item.uri
  | 4 => s.modify i fun run => run.handleList idx outcome
  | _ => s.modify i fun run =>
      run.answer idx CoapStatus.notFound ("Unsupported operation: " ++ toString item.op)

def step : Action E → Tasks E
  | .arrive source payload =>
    match Cbor.decode BasketRequest.fromCbor payload with
    | .ok request => s.register source request
    | .error _ => s
  | .proceed i =>
    match s.runs[i]? with
    | some run =>
      match run.stage with
      | .looping idx => s.modify i fun run => run.nextItem idx
      | .leaving => (s.remove run.request.reqId).modify i Run.finish
      | .working _ | .finished => s
    | none => s
  | .perform i outcome =>
    match s.runs[i]? with
    | some run =>
      match run.stage with
      | .working idx =>
        match run.request.items[idx]? with
        | some item => s.perform i idx item outcome
        | none => s
      | .looping _ | .leaving | .finished => s
    | none => s

end Tasks

end HdyUtils.Basket
