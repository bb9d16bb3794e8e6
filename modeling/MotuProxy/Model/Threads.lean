import MotuProxy.Lib.Run
import MotuProxy.Model.Coordinator

/-! # The threads of the coordinator

Every thread is a program counter, and `step` runs one thread from one critical section or
datastore operation to the next. An action says which thread moves and what the environment does:
what the opener and the datastore operation come to, how much time passes. A thread in a condition
wait may make its next pass at any time, so every notification, timeout and spurious wake-up is
covered.

A client thread runs one `get` or `post` of the coordinator; the poller thread runs `_poll_loop`.
`log` is a ghost: the requests, responses and publications, oldest first.
-/

namespace MotuProxy

open Py Protocol Responses

namespace Coordinator

open Datastore (ManagedDatastore)
open DatastoreCoordinator

/-- A request that is handed to the datastore. -/
inductive Request where
  | get (path etag : Str) (client : Option FieldValue) (queryFields : Option (List QueryField))
    (timeoutMs : Nat)
  | post (path : Str) (jsonBody : Bytes) (client : Option FieldValue)
  deriving DecidableEq, Repr

/-- What happened on the datastore, under the generation of the session. -/
inductive Event where
  | sent (generation : Nat) (request : Request)
  | received (generation : Nat) (request : Request) (response : Bytes)
  | published (generation : Nat) (request : Request) (payload : DatastorePayload)
  deriving DecidableEq, Repr

/-- What all threads share. -/
structure Env where
  now : ℚ := 0
  managed : ManagedDatastore
  shared : DatastoreCoordinator := {}
  log : List Event := []
  deriving DecidableEq, Repr

/-- What the environment does in a step. -/
inductive Choice where
  | go
  /-- The opener, if it is called: what it raises, and the time when it is done. -/
  | opener (exc : Option Exn) (later : ℚ)
  | respond (response : Bytes)
  /-- The datastore operation raises. -/
  | raise (exc : Exn) (cleared : Bool) (exit : Option Exn)
  /-- The transport registers a cancellable read, or its end. -/
  | readStarted (read : Option Nat)
  deriving DecidableEq, Repr

namespace Env

/-- The beginning of a datastore operation: the session, and the request on it. -/
def begin (e : Env) (request : Request) : Choice → Option (Except Exn Unit × Env)
  | .opener exc later =>
    if e.now ≤ later then
      match e.managed.ensureSession e.now later exc with
      | (.error exc, managed) => some (.error exc, { e with managed, now := later })
      | (.ok _, managed) => some (.ok (), { e with
          managed, now := later, log := e.log ++ [.sent managed.sessionGeneration request] })
    else none
  | _ => none

/-- The end of a datastore operation. -/
def finish (e : Env) (request : Request) : Choice → Option (Except Exn Bytes × Env)
  | .respond response => some (.ok response, { e with
      managed := e.managed.callReturned response
      log := e.log ++ [.received e.managed.sessionGeneration request response] })
  | .raise exc cleared exit =>
    let (exc, managed) := e.managed.callRaised e.now exc cleared exit
    some (.error exc, { e with managed })
  | _ => none

/-- `_payload_from_response`. -/
def payloadFromResponse (e : Env) (response : Bytes) : DatastorePayload × Env :=
  (rememberedPayload e.managed response,
    { e with shared := e.shared.resetIfSessionGenerationChanged e.managed.sessionGeneration })

/-- `_publish_payload` of the response to `request`; the log keeps what is really published. -/
def publish (e : Env) (cfg : Config) (request : Request) (payload : DatastorePayload)
    (originClient fromEtag : Option Str) (recordTransition : Bool) : Env :=
  { e with
    shared := e.shared.publishPayload cfg payload originClient fromEtag recordTransition
    log := if recordTransition ∧ payload.etag.isSome then
      e.log ++ [.published e.shared.datastoreSessionGeneration request payload] else e.log }

def release (e : Env) : Env := { e with shared := e.shared.releaseIo }

end Env

/-! ## Foreground operations -/

structure ReadArgs where
  path : Str
  etag : Str := py "0"
  client : Option FieldValue := none
  timeoutMs : Nat := Datastore.DEFAULT_RESPONSE_TIMEOUT_MS
  queryFields : Option (List QueryField) := none
  deriving DecidableEq, Repr

structure PostArgs where
  path : Str
  jsonBody : Bytes
  client : Option FieldValue := none
  deriving DecidableEq, Repr

/-- What a thread acquires the I/O for. -/
inductive Job where
  | read (a : ReadArgs)
  | post (a : PostArgs)
  deriving DecidableEq, Repr

/-- The `datastore.get` of a read. -/
def ReadArgs.request (a : ReadArgs) : Request :=
  match deviceQueryFields a.queryFields a.client with
  | none => .get a.path a.etag a.client none a.timeoutMs
  | some fields => .get a.path a.etag none (some fields) a.timeoutMs

def Job.request : Job → Request
  | .read a => a.request
  | .post a => .post a.path a.jsonBody a.client

/-- `_read_locked(poll_path, etag="0", client=None)`, the refresh after a write. -/
def refreshArgs : ReadArgs := { path := pollPath }

/-- `read` and `post`, from one shared step to the next. The I/O is owned from `owning` to
`releasing`; the states from `refreshing` to `refreshed` belong to `post`. -/
inductive IoPc where
  | start
  | acquiring (preemptionDeadline : Option ℚ)
  | owning
  | inCall
  | responded (response : Bytes)
  | payload (p : DatastorePayload)
  | refreshing (p : DatastorePayload)
  | refreshResponded (p : DatastorePayload) (response : Bytes)
  | refreshed (p : DatastorePayload) (refresh : DatastorePayload)
  | releasing (result : Except Exn DatastorePayload)
  | done (result : Except Exn DatastorePayload)
  deriving DecidableEq, Repr

/-- A foreground operation. `received` is a ghost: the response bytes of its own request. -/
structure IoCall where
  job : Job
  pc : IoPc := .start
  received : Option Bytes := none
  deriving DecidableEq, Repr

namespace IoCall

/-- A pass through `_acquire_foreground_io`. -/
def acquire (cfg : Config) (e : Env) (c : IoCall) (deadline : Option ℚ) : Env × IoCall :=
  match e.shared.acquireForegroundIo cfg e.now deadline with
  | (.acquired, shared) => ({ e with shared }, { c with pc := .owning })
  | (.exceeded, shared) => ({ e with shared }, { c with pc := .done (.error preemptionBudgetExceeded) })
  | (.wait deadline, shared) => ({ e with shared }, { c with pc := .acquiring deadline })

def step (cfg : Config) (e : Env) (c : IoCall) (choice : Choice) : Option (Env × IoCall) :=
  match c.pc with
  | .start =>
    let shared := { e.shared with foregroundWaiters := e.shared.foregroundWaiters + 1 }
    some (acquire cfg { e with shared } c none)
  | .acquiring deadline => some (acquire cfg e c deadline)
  | .owning => (e.begin c.job.request choice).map fun
    | (.ok _, e) => (e, { c with pc := .inCall })
    | (.error exc, e) => (e, { c with pc := .releasing (.error exc) })
  | .inCall => (e.finish c.job.request choice).map fun
    | (.ok response, e) => (e, { c with pc := .responded response, received := some response })
    | (.error exc, e) => (e, { c with pc := .releasing (.error exc) })
  | .responded response =>
    let (p, e) := e.payloadFromResponse response
    some (e, { c with pc := .payload p })
  | .payload p => match c.job with
    | .read a =>
      some (e.publish cfg a.request p none none (a.path = pollPath), { c with pc := .releasing (.ok p) })
    -- the refresh after a write: whatever goes wrong in it is only recorded
    | .post _ => (e.begin refreshArgs.request choice).map fun
      | (.ok _, e) => (e, { c with pc := .refreshing p })
      | (.error _, e) => (e, { c with pc := .releasing (.ok p) })
  | .refreshing p => (e.finish refreshArgs.request choice).map fun
    | (.ok response, e) => (e, { c with pc := .refreshResponded p response })
    | (.error _, e) => (e, { c with pc := .releasing (.ok p) })
  | .refreshResponded p response =>
    let (refresh, e) := e.payloadFromResponse response
    some (e, { c with pc := .refreshed p refresh })
  | .refreshed p refresh => match c.job with
    | .read _ => none
    | .post a => some (e.publish cfg refreshArgs.request refresh (clientString a.client) none true,
        { c with pc := .releasing (.ok p) })
  | .releasing result => some (e.release, { c with pc := .done result })
  | .done _ => none

end IoCall

/-! ## Client threads -/

/-- `wait_for_change`: the loop, the degraded refresh with its `finally`, the read at the end. -/
inductive WaitPc where
  | loop
  | refresh (call : IoCall)
  | refreshDone (result : Except Exn DatastorePayload)
  | read (call : IoCall)
  | done (payload : DatastorePayload)
  | failed (exc : Exn)
  deriving DecidableEq, Repr

structure WaitCall where
  args : WaitArgs
  deadline : ℚ
  pc : WaitPc := .loop
  deriving DecidableEq, Repr

/-- The exceptions of a degraded refresh that a waiter survives. -/
def isRefreshFailure (exc : Exn) : Bool :=
  exc.kind = .datastoreDeviceUnavailable ∨ exc.kind = .datastoreNoResponse ∨
    exc.kind = .datastoreTimeout

namespace WaitCall

def step (cfg : Config) (e : Env) (c : WaitCall) (choice : Choice) : Option (Env × WaitCall) :=
  match c.pc with
  | .loop =>
    match e.shared.waitForChange cfg e.now c.args c.deadline with
    | (.answer payload, shared) => some ({ e with shared }, { c with pc := .done payload })
    | (.read, shared) =>
      let job := .read { path := c.args.path, client := c.args.client, queryFields := c.args.queryFields }
      some ({ e with shared }, { c with pc := .read { job } })
    | (.refresh timeoutMs, shared) =>
      let job := .read { path := pollPath, timeoutMs }
      some ({ e with shared }, { c with pc := .refresh { job } })
    | (.wait, shared) => some ({ e with shared }, c)
  | .refresh call => match call.pc with
    | .done result => some (e, { c with pc := .refreshDone result })
    | _ => (call.step cfg e choice).map fun (e, call) => (e, { c with pc := .refresh call })
  | .refreshDone result =>
    let e := { e with shared := { e.shared with degradedRefreshInProgress := false } }
    match result with
    | .ok _ => some (e, { c with pc := .loop })
    | .error exc => some (e, { c with pc := if isRefreshFailure exc then .loop else .failed exc })
  | .read call => (call.step cfg e choice).map fun (e, call) => (e, { c with pc := .read call })
  | .done _ | .failed _ => none

end WaitCall

/-- A call of the coordinator by a client thread. -/
inductive Client where
  | io (call : IoCall)
  | wait (call : WaitCall)
  deriving DecidableEq, Repr

/-- The foreground operation that a client thread runs, or has finished as its last step. -/
def Client.call? : Client → Option IoCall
  | .io call => some call
  | .wait call => match call.pc with
    | .refresh call | .read call => some call
    | _ => none

/-- What a client thread has returned or raised. -/
def Client.outcome : Client → Option (Except Exn DatastorePayload)
  | .io call => match call.pc with
    | .done result => some result
    | _ => none
  | .wait call => match call.pc with
    | .done payload => some (.ok payload)
    | .failed exc => some (.error exc)
    | .read call => match call.pc with
      | .done result => some result
      | _ => none
    | _ => none

def Client.step (cfg : Config) (e : Env) (choice : Choice) : Client → Option (Env × Client)
  | .io call => (call.step cfg e choice).map fun (e, call) => (e, .io call)
  | .wait call => (call.step cfg e choice).map fun (e, call) => (e, .wait call)

/-- `DatastoreCoordinator.get`: a plain read, a read of the meters, or a long poll. -/
def get (cfg : Config) (now : ℚ) (path : Str) (client : Option FieldValue) (ifNoneMatch : Option Str)
    (queryFields : Option (List QueryField)) : Client :=
  match cleanEtag ifNoneMatch with
  | some etag =>
    if path = METERS_PATH then .io { job := .read { path, etag, client, queryFields } }
    else .wait {
      args := { path, etag, client, queryFields }, deadline := now + cfg.httpWaitTimeoutMs / 1000 }
  | none => .io { job := .read { path, client, queryFields } }

def post (path : Str) (jsonBody : Bytes) (client : Option FieldValue) : Client :=
  .io { job := .post { path, jsonBody, client } }

/-! ## The poller thread -/

/-- What a poll cycle captures before it acquires the I/O; `generation` is a ghost. -/
structure Capture where
  etag : Str
  initialRefresh : Bool
  generation : Nat
  deriving DecidableEq, Repr

def Capture.request (cfg : Config) (c : Capture) : Request :=
  .get pollPath c.etag none none
    (if c.initialRefresh then Datastore.DEFAULT_RESPONSE_TIMEOUT_MS else cfg.longPollTimeoutMs)

/-- `_poll_loop`, from one shared step to the next; `received` is a ghost as in `IoCall`. -/
inductive PollPc where
  | idle
  | top
  | acquiring (c : Capture)
  | owning (c : Capture)
  | inCall (c : Capture)
  | responded (c : Capture) (response : Bytes)
  | payload (c : Capture) (response : Bytes) (p : DatastorePayload)
  | releasing (exc : Option Exn)
  | handled (exc : Option Exn)
  | stopped
  deriving DecidableEq, Repr

namespace PollPc

def step (cfg : Config) (e : Env) (pc : PollPc) (choice : Choice) : Option (Env × PollPc) :=
  match pc with
  | .idle => if cfg.nativeLongPoll then some (e, .top) else none
  | .top =>
    if e.shared.closed then some (e, .stopped)
    else some (e, .acquiring {
      etag := (orElse e.shared.latestEtag none).getD (py "0")
      initialRefresh := e.shared.latestEtag.isNone
      generation := e.shared.datastoreSessionGeneration })
  | .acquiring c => match e.shared.acquirePollerIo with
    | (some true, shared) => some ({ e with shared }, .owning c)
    | (some false, shared) => some ({ e with shared }, .stopped)
    | (none, shared) => some ({ e with shared }, .acquiring c)
  | .owning c => (e.begin (c.request cfg) choice).map fun
    | (.ok _, e) => (e, .inCall c)
    | (.error exc, e) => (e, .releasing (some exc))
  | .inCall c => match choice with
    | .readStarted read =>
      if c.initialRefresh then none
      else some ({ e with shared := e.shared.setActivePollRead read }, .inCall c)
    | _ => (e.finish (c.request cfg) choice).map fun
      | (.ok response, e) => (e, .responded c response)
      | (.error exc, e) => (e, .releasing (some exc))
  | .responded c response =>
    let (p, e) := e.payloadFromResponse response
    some (e, .payload c response p)
  | .payload c _ p => some (e.publish cfg (c.request cfg) p none (some c.etag) true, .releasing none)
  | .releasing exc => some (e.release, .handled exc)
  -- the exception handlers, and the check before the pause
  | .handled _ => some (e, if e.shared.closed then .stopped else .top)
  | .stopped => none

end PollPc

/-! ## The system -/

structure World where
  env : Env
  clients : List Client := []
  poller : PollPc := .idle
  deriving DecidableEq, Repr

inductive Action where
  | tick (later : ℚ)
  | get (path : Str) (client : Option FieldValue) (ifNoneMatch : Option Str)
    (queryFields : Option (List QueryField))
  | post (path : Str) (jsonBody : Bytes) (client : Option FieldValue)
  | client (i : Nat) (choice : Choice)
  | poller (choice : Choice)
  | close
  /-- `ManagedDatastore.close`, which waits for the operation in progress. -/
  | closeDatastore (exit : Option Exn)
  deriving DecidableEq, Repr

/-- The thread is inside a datastore operation and holds the operation lock. -/
def IoCall.inOperation (c : IoCall) : Bool :=
  match c.pc with
  | .inCall | .refreshing _ => true
  | _ => false

def Client.inOperation : Client → Bool
  | .io call => call.inOperation
  | .wait call => match call.pc with
    | .refresh call | .read call => call.inOperation
    | _ => false

def PollPc.inOperation : PollPc → Bool
  | .inCall _ => true
  | _ => false

def World.inOperation (w : World) : Bool := w.poller.inOperation || w.clients.any Client.inOperation

def step (cfg : Config) (w : World) : Action → Option World
  | .tick later => if w.env.now ≤ later then some { w with env := { w.env with now := later } } else none
  | .get path client ifNoneMatch queryFields =>
    some { w with clients := w.clients ++ [get cfg w.env.now path client ifNoneMatch queryFields] }
  | .post path jsonBody client => some { w with clients := w.clients ++ [post path jsonBody client] }
  | .client i choice => do
    let c ← w.clients[i]?
    let (env, c) ← c.step cfg w.env choice
    return { w with env, clients := w.clients.set i c }
  | .poller choice => do
    let (env, poller) ← w.poller.step cfg w.env choice
    return { w with env, poller }
  | .close => some { w with env := { w.env with shared := w.env.shared.close } }
  | .closeDatastore exit =>
    if w.inOperation then none
    else some { w with env := { w.env with managed := w.env.managed.close exit } }

/-- A coordinator over a managed datastore, before any thread runs. -/
def World.init (managed : ManagedDatastore) : World :=
  { env := { managed, shared := { datastoreSessionGeneration := managed.sessionGeneration } } }

end Coordinator

end MotuProxy
