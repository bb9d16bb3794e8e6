import MotuProxy.Model.Stack

/-! # The layers of a read

An HTTP read goes through `dispatch_datastore_request` and `DatastoreCoordinator.get`, which
`command_serve` passes as `run_get`, to the session. The threads and the session are those of
`Model.Stack`, writes and the poller among them.

`operations` and the index in `HttpRead.call` are ghosts: the operations that ran on the session, in
their order, and the thread that runs a call of `run_get`.
-/

namespace MotuProxy

open Py Protocol Responses

namespace ReadStack

open Datastore Coordinator Dispatch Stack

/-- The arguments of `run_get`. -/
structure ReadCall where
  path : Str
  client : Option Str
  ifNoneMatch : Option Str
  queryFields : List (Str × Str)
  deriving DecidableEq, Repr

/-- A `GET` that `dispatch_datastore_request` gets: the call of `run_get` that it has made, if any,
and what it has returned or raised. -/
structure HttpRead where
  args : DispatchArgs
  call : Option (ReadCall × Nat) := none
  result : Option (Except Exn DispatchResult) := none

/-- An operation on the session: its thread, whether it is a refresh of `poll_path` that nobody asked
for, the numbers that the session had for its request, and the frames handed to `bulk_write`. -/
structure Operation where
  caller : Caller
  background : Bool
  seq : Nat
  messageSeq : Nat
  frames : List Bytes
  deriving DecidableEq, Repr

structure ReadWorld where
  stack : StackWorld
  reads : List HttpRead := []
  operations : List Operation := []

/-! ## The dispatcher -/

/-- What `dispatch_datastore_request` does with a `GET` before it calls `run_get`; none if the status
is asked for. -/
def preparedRead (d : DatastoreDispatcher σ) (a : DispatchArgs) : Except Exn (Option ReadCall) := do
  let url ← parseRequestPath a.requestPath
  if (d.statusFor a url).isSome then return none
  else do
    let path ← Paths.normalizePath url.path
    let (queryFields, client) ← parseGetQueryFields a.requestPath
    return some { path, client, ifNoneMatch := a.ifNoneMatch.map strip, queryFields }

/-- What it returns for the payload that `run_get` returns. -/
def readAnswer (call : ReadCall) (p : DatastorePayload) : DispatchResult :=
  { response := p.body, path := call.path, etag := p.etag, contentType := p.contentType
    status := if p.notModified then 304 else 200 }

def statusAnswer (body : Bytes) : DispatchResult :=
  { response := body, path := STATUS_PATH, contentType := some (py "application/json") }

/-- `coordinator.get(path, client, etag, query_fields)`. -/
def ReadCall.action (call : ReadCall) : Coordinator.Action :=
  .get call.path (call.client.map .str) call.ifNoneMatch
    (some (call.queryFields.map fun field => (field.1, .str field.2)))

/-! ## The system -/

/-- The operation is the refresh after a write. -/
def IoCall.refreshes (c : IoCall) : Bool :=
  match c.pc with
  | .refreshing _ => true
  | _ => false

/-- The operation that the thread is in is a refresh after a write or for a waiter. -/
def Client.inBackground : Client → Bool
  | .io call => IoCall.refreshes call
  | .wait call => match call.pc with
    | .refresh _ => true
    | .read call => IoCall.refreshes call
    | _ => false

def inBackground (w : StackWorld) : Caller → Bool
  | .client i => w.world.clients[i]?.any Client.inBackground
  | .poller => true

inductive Action where
  /-- A step of a thread of the coordinator, of a write or of the environment. -/
  | stack (a : Stack.Action)
  /-- A read comes in. -/
  | read (a : DispatchArgs)
  /-- Its thread goes on; `provided` is what `status_provider` does if it is called. -/
  | http (h : Nat) (provided : Except Exn Bytes)

namespace ReadWorld

/-- The operation that ran in a step to `stack`. -/
def operated (w : ReadWorld) (stack : StackWorld) : Stack.Action → List Operation
  | .operate caller _ _ => [{
      caller
      background := inBackground w.stack caller
      seq := w.stack.session.hostSeq
      messageSeq := w.stack.session.currentMessageSeq
      frames := stack.session.wire.handed }]
  | _ => []

/-- A step of the thread of an HTTP read. -/
def httpStep (d : DatastoreDispatcher σ) (cfg : Config) (w : ReadWorld) (h : Nat) (x : HttpRead)
    (provided : Except Exn Bytes) : Option ReadWorld :=
  match x.result, x.call with
  | some _, _ => none
  | none, none => match preparedRead d x.args with
    | .error exc => some { w with reads := w.reads.set h { x with result := some (.error exc) } }
    | .ok none => some { w with
        reads := w.reads.set h { x with result := some (provided.map statusAnswer) } }
    | .ok (some call) => do
      let world ← Coordinator.step cfg w.stack.world call.action
      return { w with
        stack := { w.stack with world }
        reads := w.reads.set h { x with call := some (call, w.stack.world.clients.length) } }
  | none, some (call, i) => do
    let result ← w.stack.outcome i
    return { w with reads := w.reads.set h { x with result := some (result.map (readAnswer call)) } }

def step (d : DatastoreDispatcher σ) (cfg : Config) (w : ReadWorld) : Action → Option ReadWorld
  | .stack a => do
    let stack ← w.stack.step d cfg a
    return { w with stack, operations := w.operations ++ w.operated stack a }
  | .read a =>
    if a.method = .GET then some { w with reads := w.reads ++ [{ args := a }] } else none
  | .http h provided => do
    let x ← w.reads[h]?
    w.httpStep d cfg h x provided

/-- The layers over a managed datastore, before any request. -/
def init (managed : ManagedDatastore) (session : MotuUsbDatastore) : ReadWorld :=
  { stack := .init managed session }

end ReadWorld

end ReadStack

end MotuProxy
