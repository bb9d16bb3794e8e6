import MotuProxy.Model.Managed

/-! # The coordinator's state and critical sections (`DatastoreCoordinator` of `datastore.py`)

The fields that the condition variable guards, and one function for each critical section. The
threads that run these sections are in `Model.Threads`. The coordinator polls `/datastore`; the
record of poller errors and its log are left out, since nothing but the status page reads them.
-/

namespace MotuProxy

open Py Protocol Responses

namespace Coordinator

open Datastore (ManagedDatastore)

def METERS_PATH : Str := py "/meters"

/-- `poll_path`, which is the default everywhere. -/
def pollPath : Str := py "/datastore"

structure Config where
  longPollTimeoutMs : Nat := 16000
  httpWaitTimeoutMs : Nat := 15500
  historySize : Nat := 64
  foregroundPreemptionBudgetMs : Nat := 500
  degradedRefreshInterval : ℚ := 1 / 2
  /-- `foreground_preemptive_native_long_poll_available`. -/
  nativeLongPoll : Bool := true

structure DatastoreTransition where
  fromEtag : Str
  toEtag : Str
  body : Bytes
  originClient : Option Str
  contentType : Str
  deriving DecidableEq, Repr

inductive Owner where
  | foreground | poller
  deriving DecidableEq, Repr

structure DatastoreCoordinator where
  ioBusy : Bool := false
  ioOwner : Option Owner := none
  foregroundWaiters : Int := 0
  /-- The registered read, by a number that names it. -/
  activePollRead : Option Nat := none
  activePollCancelRequested : Bool := false
  degradedRefreshInProgress : Bool := false
  nextDegradedRefresh : ℚ := 0
  /-- Oldest first. -/
  history : List DatastoreTransition := []
  latestEtag : Option Str := none
  datastoreSessionGeneration : Nat := 0
  closed : Bool := false
  deriving DecidableEq, Repr

/-! ## Helpers -/

def cleanEtag (value : Option Str) : Option Str :=
  match value.map strip with
  | some (c :: s) => some (c :: s)
  | _ => none

def clientString (value : Option FieldValue) : Option Str := value.map FieldValue.toStr

def deviceQueryFields (queryFields : Option (List QueryField)) (client : Option FieldValue) :
    Option (List QueryField) :=
  queryFields.map fun fields =>
    match client with
    | some c => if fields.any (·.1 = py "client") then fields else fields ++ [(py "client", c)]
    | none => fields

def longPollQueryFieldsCacheable : Option (List QueryField) → Bool
  | none | some [] => true
  | some [field] => field.1 = py "client"
  | some _ => false

/-- `content_type or datastore_body_content_type(body)`. -/
def contentTypeOf (p : DatastorePayload) : Str :=
  match p.contentType with
  | some (c :: s) => c :: s
  | _ => datastoreBodyContentType p.body

namespace DatastoreCoordinator

/-! ## Ownership of the I/O -/

/-- `_request_active_poll_cancel_locked`. -/
def requestActivePollCancelLocked (s : DatastoreCoordinator) : Option Nat × DatastoreCoordinator :=
  if s.activePollRead.isNone ∨ s.activePollCancelRequested then (none, s)
  else (s.activePollRead, { s with activePollCancelRequested := true })

/-- What a pass of the loop of `_acquire_foreground_io` comes to. -/
inductive Acquisition where
  | acquired
  | exceeded
  | wait (preemptionDeadline : Option ℚ)
  deriving DecidableEq, Repr

/-- One pass of the loop of `_acquire_foreground_io`; it is left with one waiter fewer. -/
def acquireForegroundIo (s : DatastoreCoordinator) (cfg : Config) (now : ℚ)
    (preemptionDeadline : Option ℚ) : Acquisition × DatastoreCoordinator :=
  if ¬s.ioBusy then
    (.acquired, { s with
      ioBusy := true
      ioOwner := some .foreground
      foregroundWaiters := s.foregroundWaiters - 1 })
  else if s.ioOwner = some .poller then
    let (activePollRead, s) := s.requestActivePollCancelLocked
    let preemptionDeadline :=
      if activePollRead.isSome ∧ preemptionDeadline.isNone then
        some (now + cfg.foregroundPreemptionBudgetMs / 1000)
      else preemptionDeadline
    match preemptionDeadline with
    | some deadline =>
      if deadline - now ≤ 0 then
        (.exceeded, { s with foregroundWaiters := s.foregroundWaiters - 1 })
      else (.wait (some deadline), s)
    | none => (.wait none, s)
  else (.wait preemptionDeadline, s)

def preemptionBudgetExceeded : Exn := ⟨.datastoreTimeout,
  py "foreground preemption budget exceeded while cancelling active long-poll read"⟩

/-- One pass of the loop of `_acquire_poller_io`: the result, or none to wait. -/
def acquirePollerIo (s : DatastoreCoordinator) : Option Bool × DatastoreCoordinator :=
  if s.ioBusy ∨ 0 < s.foregroundWaiters then
    if s.closed then (some false, s) else (none, s)
  else if s.closed then (some false, s)
  else (some true, { s with ioBusy := true, ioOwner := some .poller })

/-- `_release_io`. -/
def releaseIo (s : DatastoreCoordinator) : DatastoreCoordinator :=
  { s with
    ioBusy := false
    ioOwner := none
    activePollRead := none
    activePollCancelRequested := false }

/-- `_set_active_poll_read`. -/
def setActivePollRead (s : DatastoreCoordinator) (read : Option Nat) : DatastoreCoordinator :=
  let s := { s with activePollRead := read, activePollCancelRequested := false }
  if read.isSome ∧ 0 < s.foregroundWaiters then s.requestActivePollCancelLocked.2 else s

/-- The critical section of `close`. -/
def close (s : DatastoreCoordinator) : DatastoreCoordinator :=
  ({ s with closed := true } : DatastoreCoordinator).requestActivePollCancelLocked.2

/-! ## The history -/

/-- `deque.append` with a maximal length. -/
def appendBounded (size : Nat) (history : List DatastoreTransition) (t : DatastoreTransition) :
    List DatastoreTransition := (history ++ [t]).drop (history.length + 1 - size)

/-- `_reset_if_session_generation_changed`. -/
def resetIfSessionGenerationChanged (s : DatastoreCoordinator) (generation : Nat) :
    DatastoreCoordinator :=
  if generation = s.datastoreSessionGeneration then s
  else { s with datastoreSessionGeneration := generation, latestEtag := none, history := [] }

/-- What `_payload_from_response` returns: the payload that the datastore remembers. -/
def rememberedPayload (d : ManagedDatastore) (response : Bytes) : DatastorePayload :=
  let payload := (d.lastResponsePayload).getD (parseDatastoreResponse response)
  { body := payload.body
    etag := orElse payload.etag d.lastResponseEtag
    status := payload.status
    contentType := some (contentTypeOf payload) }

/-- `_publish_payload`. -/
def publishPayload (s : DatastoreCoordinator) (cfg : Config) (payload : DatastorePayload)
    (originClient fromEtag : Option Str) (recordTransition : Bool) : DatastoreCoordinator :=
  match payload.etag with
  | none => s
  | some etag =>
    if ¬recordTransition then s
    else if payload.notModified then { s with latestEtag := some etag }
    else
      let previous := if fromEtag.isSome then fromEtag else s.latestEtag
      let history := match previous with
        | some previous =>
          if previous ≠ etag then appendBounded cfg.historySize s.history {
            fromEtag := previous
            toEtag := etag
            body := payload.body
            originClient
            contentType := contentTypeOf payload }
          else s.history
        | none => s.history
      { s with history, latestEtag := some etag }

/-- The loop of `_find_wait_outcome_locked` over the history, newest first. -/
def findFrom (etag : Str) (client : Option Str) :
    Option DatastoreTransition → List DatastoreTransition →
    Option DatastoreTransition × Option DatastoreTransition
  | suppressed, [] => (none, suppressed)
  | suppressed, t :: ts =>
    if t.fromEtag ≠ etag then findFrom etag client suppressed ts
    else if client.isSome ∧ t.originClient = client then findFrom etag client (some t) ts
    else (some t, suppressed)

/-- `_find_wait_outcome_locked`. -/
def findWaitOutcomeLocked (s : DatastoreCoordinator) (etag : Str) (client : Option Str) :
    Option DatastoreTransition × Bool :=
  match findFrom etag client none s.history.reverse with
  | (some t, _) => (some t, false)
  | (none, some suppressed) => (none, s.latestEtag ≠ some suppressed.toEtag)
  | (none, none) => (none, s.latestEtag.isSome ∧ s.latestEtag ≠ some etag)

/-- The arguments of `wait_for_change`. -/
structure WaitArgs where
  path : Str
  etag : Str
  client : Option FieldValue := none
  queryFields : Option (List QueryField) := none
  deriving DecidableEq, Repr

/-- What a pass of the loop of `wait_for_change` comes to. -/
inductive WaitOutcome where
  | answer (payload : DatastorePayload)
  | read
  | refresh (timeoutMs : Nat)
  | wait
  deriving DecidableEq, Repr

/-- The critical section of a pass of `wait_for_change`. -/
def waitForChange (s : DatastoreCoordinator) (cfg : Config) (now : ℚ) (a : WaitArgs) (deadline : ℚ) :
    WaitOutcome × DatastoreCoordinator :=
  let (transition, shouldRefresh) := s.findWaitOutcomeLocked a.etag (clientString a.client)
  match transition with
  | some t =>
    if a.path = pollPath ∧ longPollQueryFieldsCacheable a.queryFields then
      (.answer { body := t.body, etag := some t.toEtag, contentType := some t.contentType }, s)
    else (.read, s)
  | none =>
    if shouldRefresh then (.read, s)
    else if deadline - now ≤ 0 ∨ s.closed then
      (.answer { body := [], etag := some a.etag, status := some 304 }, s)
    else if ¬cfg.nativeLongPoll then
      if s.degradedRefreshInProgress then (.wait, s)
      else if s.nextDegradedRefresh ≤ now then
        (.refresh (max 1 ((deadline - now) * 1000).floor.toNat), { s with
          degradedRefreshInProgress := true
          nextDegradedRefresh := now + cfg.degradedRefreshInterval })
      else (.wait, s)
    else (.wait, s)

end DatastoreCoordinator

end Coordinator

end MotuProxy
