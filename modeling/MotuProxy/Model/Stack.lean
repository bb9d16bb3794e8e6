import MotuProxy.Model.Dispatch
import MotuProxy.Model.Threads

/-! # The layers of a write

An HTTP write goes through `dispatch_datastore_request`, the coordinator, the managed datastore and
the USB session. In `Model.Threads` the environment chooses what a datastore operation comes to.
Here the operation is the method of the open session, and the environment writes the script of the
transport it runs on. The opener stays a choice of the environment: it raises, or it returns a
session with any sequence numbers.

`handed`, `attempts` and the index in `HttpWrite.call` are ghosts: the frames that each thread has
handed to `bulk_write`, the calls of the opener, and the thread that runs a call of `run_post`.
-/

namespace MotuProxy

open Py Protocol Responses

namespace Stack

open Datastore Coordinator Dispatch

/-- A thread that calls the managed datastore. -/
inductive Caller where
  | client (i : Nat)
  | poller
  deriving DecidableEq, Repr

def Caller.action (choice : Choice) : Caller → Coordinator.Action
  | .client i => .client i choice
  | .poller => .poller choice

structure Handed where
  caller : Caller
  generation : Nat
  frame : Bytes
  deriving DecidableEq, Repr

/-- A call of the opener; `refresh` tells the refresh after a write from the write itself. -/
structure OpenAttempt where
  caller : Caller
  refresh : Bool
  deriving DecidableEq, Repr

/-- A request that `dispatch_datastore_request` gets: the call of `run_post` that it has made, if
any, and what it has returned or raised. -/
structure HttpWrite where
  args : DispatchArgs
  call : Option (WriteCall × Nat) := none
  result : Option (Except Exn DispatchResult) := none

structure StackWorld where
  world : World
  /-- The session that the managed datastore holds, while it holds one. -/
  session : MotuUsbDatastore := {}
  handed : List Handed := []
  attempts : List OpenAttempt := []
  writes : List HttpWrite := []

/-! ## Datastore operations -/

/-- `ensureSession` comes to the opener. -/
def callsOpener (d : ManagedDatastore) (now : ℚ) : Bool :=
  !d.closed && d.datastore.isNone && !decide (now < d.nextRetryAt)

/-- The thread is about to call the managed datastore; the result says whether for the refresh after
a write. -/
def IoCall.begins (c : IoCall) : Option Bool :=
  match c.pc, c.job with
  | .owning, _ => some false
  | .payload _, .post _ => some true
  | _, _ => none

/-- The request that the session is working on for the thread. -/
def IoCall.operation (c : IoCall) : Option Request :=
  match c.pc with
  | .inCall => some c.job.request
  | .refreshing _ => some refreshArgs.request
  | _ => none

/-- The method of the session for a foreground request. -/
def Request.exec : Request → Proc Bytes
  | .get path etag client queryFields timeoutMs =>
    MotuUsbDatastore.get { path, etag, client, timeoutMs, queryFields }
  | .post path jsonBody client => MotuUsbDatastore.post { path, jsonBody, client }

/-- The `datastore.get` of `_poll_loop`. -/
def Capture.exec (cfg : Config) (c : Capture) : Proc Bytes :=
  MotuUsbDatastore.get {
    path := pollPath
    etag := c.etag
    timeoutMs :=
      if c.initialRefresh then DEFAULT_RESPONSE_TIMEOUT_MS else cfg.longPollTimeoutMs
    shouldCancel := true
    useCancellableRead := !c.initialRefresh }

namespace StackWorld

def begins (w : StackWorld) : Caller → Option Bool
  | .client i => do (← (← w.world.clients[i]?).call?) |> IoCall.begins
  | .poller => match w.world.poller with
    | .owning _ => some false
    | _ => none

def operation (cfg : Config) (w : StackWorld) : Caller → Option (Proc Bytes)
  | .client i => do
    let call ← (← w.world.clients[i]?).call?
    return Request.exec (← IoCall.operation call)
  | .poller => match w.world.poller with
    | .inCall c => some (Capture.exec cfg c)
    | _ => none

/-- The operation on a transport that has been handed nothing yet. -/
def operate (w : StackWorld) (op : Proc Bytes) (wire : Wire) (exit : Option Exn) :
    Choice × MotuUsbDatastore :=
  match op { w.session with wire := { wire with handed := [], delivered := [] } } with
  | .ok response session => (.respond response, session)
  | .error exc session => (.raise exc session.lastResponsePayload.isNone exit, session)

end StackWorld

/-! ## The dispatcher -/

/-- What `dispatch_datastore_request` returns for the payload that `run_post` returns. -/
def answer (call : WriteCall) (p : DatastorePayload) : DispatchResult :=
  { response := p.body, path := call.path, etag := p.etag, contentType := p.contentType }

/-- What the client thread `i` has returned or raised. -/
def StackWorld.outcome (w : StackWorld) (i : Nat) : Option (Except Exn DatastorePayload) :=
  w.world.clients[i]?.bind Client.outcome

/-! ## The system -/

inductive Action where
  /-- A step that is not part of a datastore operation. -/
  | step (a : Coordinator.Action)
  /-- A thread begins a datastore operation; `opened` are the sequence numbers of a new session. -/
  | begin (caller : Caller) (opened : Except Exn (Nat × Int)) (later : ℚ)
  /-- The operation of a thread runs; `exit` is what `__exit__` raises if the session is lost. -/
  | operate (caller : Caller) (wire : Wire) (exit : Option Exn)
  /-- A write comes in. -/
  | write (a : DispatchArgs)
  /-- Its thread goes on. -/
  | http (h : Nat)

/-- What the opener raises. -/
def raised : Except Exn α → Option Exn
  | .ok _ => none
  | .error exc => some exc

/-- The outcome of a datastore operation is not for the environment to choose. -/
def isPlain : Coordinator.Action → Bool
  | .client _ choice | .poller choice => match choice with
    | .go | .readStarted _ => true
    | _ => false
  | _ => true

namespace StackWorld

/-- A step of the thread of an HTTP write. -/
def httpStep (d : DatastoreDispatcher σ) (cfg : Config) (w : StackWorld) (h : Nat) (x : HttpWrite) :
    Option StackWorld :=
  match x.result, x.call with
  | some _, _ => none
  | none, none => match d.preparedCall x.args with
    | .error exc => some { w with writes := w.writes.set h { x with result := some (.error exc) } }
    | .ok call => do
      let world ← Coordinator.step cfg w.world (.post call.path call.body (call.client.map .str))
      return { w with
        world, writes := w.writes.set h { x with call := some (call, w.world.clients.length) } }
  | none, some (call, i) => do
    let result ← w.outcome i
    return { w with writes := w.writes.set h { x with result := some (result.map (answer call)) } }

def step (d : DatastoreDispatcher σ) (cfg : Config) (w : StackWorld) : Action → Option StackWorld
  | .step a =>
    if isPlain a then do
      let world ← Coordinator.step cfg w.world a
      return { w with world }
    else none
  | .begin caller opened later => do
    let refresh ← w.begins caller
    let world ← Coordinator.step cfg w.world (caller.action (.opener (raised opened) later))
    if callsOpener w.world.env.managed w.world.env.now then
      let session := match opened with
        | .ok (hostSeq, messageSeq) => { hostSeq, messageSeq }
        | .error _ => w.session
      return { w with world, session, attempts := w.attempts ++ [⟨caller, refresh⟩] }
    else return { w with world }
  | .operate caller wire exit => do
    let op ← w.operation cfg caller
    let (choice, session) := w.operate op wire exit
    let world ← Coordinator.step cfg w.world (caller.action choice)
    return { w with
      world
      session
      handed := w.handed ++
        session.wire.handed.map (⟨caller, w.world.env.managed.sessionGeneration, ·⟩) }
  | .write a =>
    if a.method = .GET then none else some { w with writes := w.writes ++ [{ args := a }] }
  | .http h => do
    let x ← w.writes[h]?
    w.httpStep d cfg h x

/-- The layers over a managed datastore, before any request. -/
def init (managed : ManagedDatastore) (session : MotuUsbDatastore) : StackWorld :=
  { world := .init managed, session }

end StackWorld

end Stack

end MotuProxy
