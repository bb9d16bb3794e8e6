import MotuProxy.Lib.Run
import MotuProxy.Model.Managed

/-! # The locks and contexts of `ManagedDatastore`

`Model.Managed` runs a call of the managed datastore in one or two steps. Here the calls of `get`,
`post`, `status` and `close` are threads that interleave wherever the operation lock and the state
lock let them: the open is outside the state lock, `__exit__` is inside it, and `_context` and
`_datastore` are two fields. A context is named by a number, and so is the datastore that its
`__enter__` returns. `log` is a ghost: the contexts that were entered and exited, oldest first.

The response that the session remembers does not matter here and is left out.
-/

namespace MotuProxy

open Py Responses

namespace Datastore

/-! ## The fields -/

structure Lifecycle where
  initialDelay : ℚ
  maxDelay : ℚ
  configurationErrorRetryDelay : ℚ
  context : Option Nat := none
  datastore : Option Nat := none
  sessionGeneration : Nat := 0
  reconnectState : ReconnectState := .unavailable
  lastReconnectError : Option Exn := none
  retryDelay : ℚ
  scheduledRetryDelay : ℚ
  nextRetryAt : ℚ := 0
  closed : Bool := false
  deriving DecidableEq, Repr

namespace Lifecycle

open ManagedDatastore (temporaryUnavailable)

/-- The constructor, with the delays it is given. -/
def init (initialDelay maxDelay configurationErrorRetryDelay : ℚ) : Lifecycle :=
  let initial := max 0 initialDelay
  { initialDelay := initial
    maxDelay := max initial maxDelay
    configurationErrorRetryDelay := max 0 configurationErrorRetryDelay
    retryDelay := initial
    scheduledRetryDelay := initial }

/-- `_schedule_retry_locked`. -/
def scheduleRetry (s : Lifecycle) (now : ℚ) : Lifecycle :=
  { s with
    nextRetryAt := now + s.retryDelay
    scheduledRetryDelay := s.retryDelay
    retryDelay := min s.maxDelay (max s.initialDelay (s.retryDelay * 2))
    reconnectState := .backoff }

/-- `_schedule_configuration_error_retry_locked`. -/
def scheduleConfigurationErrorRetry (s : Lifecycle) (now : ℚ) : Lifecycle :=
  { s with
    nextRetryAt := now + s.configurationErrorRetryDelay
    scheduledRetryDelay := s.configurationErrorRetryDelay
    reconnectState := .configurationError }

/-- What the first critical section of `_ensure_session` comes to. -/
inductive Check where
  | unavailable
  | present (datastore : Nat)
  | reconnect
  deriving DecidableEq, Repr

def checkSession (s : Lifecycle) (now : ℚ) : Check × Lifecycle :=
  if s.closed then (.unavailable, s)
  else match s.datastore with
    | some datastore => (.present datastore, s)
    | none =>
      if now < s.nextRetryAt then
        (.unavailable, if s.reconnectState ≠ .configurationError then
          { s with reconnectState := .backoff } else s)
      else (.reconnect, { s with reconnectState := .reconnecting })

/-- The critical section after an open that failed, and what `_ensure_session` then raises. -/
def openFailed (s : Lifecycle) (now : ℚ) (exc : Exn) : Exn × Lifecycle :=
  let s := { s with lastReconnectError := some exc }
  if isReconnectableDeviceLoss exc true then (temporaryUnavailable, s.scheduleRetry now)
  else (exc, s.scheduleConfigurationErrorRetry now)

/-- The end of the last critical section of `_ensure_session`. -/
def install (s : Lifecycle) (now : ℚ) (context datastore : Nat) : Lifecycle :=
  { s with
    context := some context
    datastore := some datastore
    sessionGeneration := s.sessionGeneration + 1
    reconnectState := .available
    lastReconnectError := none
    retryDelay := s.initialDelay
    scheduledRetryDelay := s.initialDelay
    nextRetryAt := now }

/-- `_discard_session_locked` up to `__exit__`. -/
def dropSession (s : Lifecycle) : Lifecycle := { s with context := none, datastore := none }

/-- `_discard_session_locked` after `__exit__`, or when there is no context to exit. -/
def discarded (s : Lifecycle) (exit : Option Exn) : Lifecycle :=
  { s with
    lastReconnectError := if s.lastReconnectError.isNone then exit else s.lastReconnectError
    reconnectState :=
      if s.reconnectState = .closed ∨ s.reconnectState = .reconnecting then s.reconnectState
      else .backoff }

/-- What `status` reports. -/
structure Status where
  datastoreAvailable : Bool
  reconnectState : ReconnectState
  sessionGeneration : Nat
  lastReconnectError : Option Exn
  retryDelay : ℚ
  nextRetryIn : Option ℚ
  deriving DecidableEq, Repr

def status (s : Lifecycle) (now : ℚ) : Status where
  datastoreAvailable := s.datastore.isSome
  reconnectState := s.reconnectState
  sessionGeneration := s.sessionGeneration
  lastReconnectError := s.lastReconnectError
  retryDelay :=
    if s.reconnectState = .configurationError then s.configurationErrorRetryDelay
    else s.scheduledRetryDelay
  nextRetryIn := if s.datastore.isSome then none else some (max 0 (s.nextRetryAt - now))

end Lifecycle

/-! ## The threads -/

inductive Method where
  | get | post
  deriving DecidableEq, Repr

/-- `_call`, from one shared step or call of the environment to the next. The operation lock is held
from `ensuring` to `releasing`, the state lock in `rejecting` and `exiting`. -/
inductive CallPc where
  | start
  | ensuring
  | opening
  | entering (context : Nat)
  | openFailed (exc : Exn)
  | entered (context : Nat)
  /-- `_close_context` of a context that is not needed; the session to use instead, if there is one. -/
  | rejecting (context : Nat) (present : Option Nat)
  | operating (datastore : Nat)
  | lost (datastore : Nat) (exc : Exn)
  | exiting (context : Nat)
  | releasing (result : Except Exn Unit)
  | done (result : Except Exn Unit)
  deriving DecidableEq, Repr

inductive ClosePc where
  | start | locked
  | exiting (context : Nat)
  | done
  deriving DecidableEq, Repr

inductive LifecycleThread where
  | call (method : Method) (pc : CallPc)
  | close (pc : ClosePc)
  | status (result : Option Lifecycle.Status)
  deriving DecidableEq, Repr

inductive ContextEvent where
  | entered (context : Nat)
  | exited (context : Nat)
  deriving DecidableEq, Repr

/-- What the environment does: the outcome of the opener, of `__enter__`, of the datastore operation
or of `__exit__`, whichever is called. -/
inductive Outcome where
  | returned
  | raised (exc : Exn)
  deriving DecidableEq, Repr

def Outcome.exc? : Outcome → Option Exn
  | .returned => none
  | .raised exc => some exc

structure LifecycleWorld where
  now : ℚ := 0
  state : Lifecycle
  /-- The thread that holds the operation lock. -/
  operationLock : Option Nat := none
  stateLock : Option Nat := none
  nextContext : Nat := 0
  threads : List LifecycleThread := []
  log : List ContextEvent := []
  deriving DecidableEq, Repr

namespace LifecycleWorld

open ManagedDatastore (temporaryUnavailable)

/-- The session is dropped under the state lock, and `__exit__` is called if there is a context. -/
def discard (w : LifecycleWorld) (i : Nat) (state : Lifecycle) (exiting : Nat → LifecycleThread)
    (finished : LifecycleThread) (finish : Lifecycle → Lifecycle) : LifecycleWorld :=
  match state.context with
  | some context => { w with
      state := state.dropSession, stateLock := some i, threads := w.threads.set i (exiting context) }
  | none => { w with
      state := finish (state.dropSession.discarded none), threads := w.threads.set i finished }

/-- A step of a `_call`. A critical section of the state lock is one step, except that `__exit__` in
it is a step of its own. -/
def stepCall (w : LifecycleWorld) (i : Nat) (method : Method) (pc : CallPc) (outcome : Outcome) :
    Option LifecycleWorld :=
  let goto (w : LifecycleWorld) (pc : CallPc) := { w with threads := w.threads.set i (.call method pc) }
  match pc with
  | .start =>
    if w.operationLock.isNone then some (goto { w with operationLock := some i } .ensuring) else none
  | .ensuring =>
    if w.stateLock.isSome then none
    else match w.state.checkSession w.now with
      | (.unavailable, state) => some (goto { w with state } (.releasing (.error temporaryUnavailable)))
      | (.present datastore, state) => some (goto { w with state } (.operating datastore))
      | (.reconnect, state) => some (goto { w with state } .opening)
  | .opening => match outcome with
    | .raised exc => some (goto w (.openFailed exc))
    | .returned => some (goto { w with nextContext := w.nextContext + 1 } (.entering w.nextContext))
  | .entering context => match outcome with
    | .raised exc => some (goto w (.openFailed exc))
    | .returned => some (goto { w with log := w.log ++ [.entered context] } (.entered context))
  | .openFailed exc =>
    if w.stateLock.isSome then none
    else
      let (exc, state) := w.state.openFailed w.now exc
      some (goto { w with state } (.releasing (.error exc)))
  | .entered context =>
    if w.stateLock.isSome then none
    else if w.state.closed then some (goto { w with stateLock := some i } (.rejecting context none))
    else match w.state.datastore with
      | some datastore =>
        some (goto { w with stateLock := some i } (.rejecting context (some datastore)))
      | none => some (goto { w with state := w.state.install w.now context context } (.operating context))
  | .rejecting context present =>
    let w := { w with log := w.log ++ [.exited context], stateLock := none }
    match outcome, present with
    | .raised exc, _ => some (goto w (.releasing (.error exc)))
    | .returned, some datastore => some (goto w (.operating datastore))
    | .returned, none => some (goto w (.releasing (.error temporaryUnavailable)))
  | .operating datastore => match outcome with
    | .returned => some (goto w (.releasing (.ok ())))
    | .raised exc =>
      if isReconnectableDeviceLoss exc false then some (goto w (.lost datastore exc))
      else some (goto w (.releasing (.error exc)))
  | .lost datastore exc =>
    if w.stateLock.isSome then none
    else if w.state.datastore ≠ some datastore then
      some (goto w (.releasing (.error temporaryUnavailable)))
    else
      let state := { w.state with lastReconnectError := some exc }.scheduleRetry w.now
      some (w.discard i state (.call method ∘ .exiting)
        (.call method (.releasing (.error temporaryUnavailable))) id)
  | .exiting context =>
    let w := { w with
      state := w.state.discarded outcome.exc?, stateLock := none, log := w.log ++ [.exited context] }
    some (goto w (.releasing (.error temporaryUnavailable)))
  | .releasing result => some (goto { w with operationLock := none } (.done result))
  | .done _ => none

def stepClose (w : LifecycleWorld) (i : Nat) (pc : ClosePc) (outcome : Outcome) :
    Option LifecycleWorld :=
  match pc with
  | .start =>
    if w.operationLock.isNone then
      some { w with operationLock := some i, threads := w.threads.set i (.close .locked) }
    else none
  | .locked =>
    if w.stateLock.isSome then none
    else
      let w := w.discard i { w.state with closed := true } (.close ∘ .exiting) (.close .done)
        fun state => { state with reconnectState := .closed }
      -- without a context to exit, both locks are released at once
      some (if w.stateLock.isSome then w else { w with operationLock := none })
  | .exiting context => some { w with
      state := { w.state.discarded outcome.exc? with reconnectState := .closed }
      stateLock := none
      operationLock := none
      log := w.log ++ [.exited context]
      threads := w.threads.set i (.close .done) }
  | .done => none

inductive Action where
  | tick (later : ℚ)
  | call (method : Method)
  | status
  | close
  | thread (i : Nat) (outcome : Outcome)
  deriving DecidableEq, Repr

def step (w : LifecycleWorld) : Action → Option LifecycleWorld
  | .tick later => if w.now ≤ later then some { w with now := later } else none
  | .call method => some { w with threads := w.threads ++ [.call method .start] }
  | .status => some { w with threads := w.threads ++ [.status none] }
  | .close => some { w with threads := w.threads ++ [.close .start] }
  | .thread i outcome => match w.threads[i]? with
    | some (.call method pc) => w.stepCall i method pc outcome
    | some (.close pc) => w.stepClose i pc outcome
    | some (.status none) =>
      if w.stateLock.isSome then none
      else some { w with threads := w.threads.set i (.status (some (w.state.status w.now))) }
    | some (.status (some _)) | none => none

/-- A managed datastore, before any call. -/
def init (initialDelay maxDelay configurationErrorRetryDelay : ℚ) : LifecycleWorld :=
  { state := .init initialDelay maxDelay configurationErrorRetryDelay }

end LifecycleWorld

end Datastore

end MotuProxy
