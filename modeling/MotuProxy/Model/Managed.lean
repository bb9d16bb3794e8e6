import Mathlib.Data.Rat.Defs
import MotuProxy.Model.Session

/-! # The session that reopens itself (`ManagedDatastore` of `datastore.py`)

A call on the managed datastore holds the operation lock, makes sure that there is a session,
possibly by opening one, and runs the operation on it. An operation that fails because the device
is gone discards the session and schedules the next attempt. The opener, the operation and
`__exit__` are outcomes that the environment chooses. Times and delays are in seconds.

`close` takes the operation lock too, so the two re-checks after the open in `_ensure_session`
find what the check before it found, and are left out.
-/

namespace MotuProxy

open Py Responses

namespace Datastore

inductive ReconnectState where
  | unavailable | backoff | reconnecting | available | configurationError | closed
  deriving DecidableEq, Repr

/-- The fields of the open session that the managed datastore reads. -/
structure UsbSession where
  lastResponseEtag : Option Str := none
  lastResponsePayload : Option DatastorePayload := none
  deriving DecidableEq, Repr

structure ManagedDatastore where
  initialDelay : ℚ
  maxDelay : ℚ
  configurationErrorRetryDelay : ℚ
  /-- `_datastore`, which is set and cleared together with `_context`. -/
  datastore : Option UsbSession := none
  sessionGeneration : Nat := 0
  reconnectState : ReconnectState := .unavailable
  lastReconnectError : Option Exn := none
  retryDelay : ℚ
  scheduledRetryDelay : ℚ
  nextRetryAt : ℚ := 0
  closed : Bool := false
  rememberedEtag : Option Str := none
  rememberedPayload : Option DatastorePayload := none
  deriving DecidableEq, Repr

/-- `errno` values of a device that is gone: ENODEV, ENOENT, ENXIO, ECONNRESET, ESHUTDOWN, EPIPE. -/
def RECONNECTABLE_USB_ERRNOS : List Nat := [19, 2, 6, 104, 108, 32]

def isReconnectableDeviceLoss (exc : Exn) (duringOpen : Bool) : Bool :=
  match exc.kind with
  | .noDeviceFound | .noControlInterfaceFound | .multipleDevicesFound => true
  | .deviceDiscoveryError unreadable => !unreadable
  | .osError errno => errno ∈ RECONNECTABLE_USB_ERRNOS
  | .shortUsbWrite => true
  | .datastoreNoResponse | .datastoreTimeout => duringOpen
  | _ => false

namespace ManagedDatastore

def DEFAULT_RECONNECT_INITIAL_DELAY : ℚ := 1 / 4
def DEFAULT_RECONNECT_MAX_DELAY : ℚ := 5
def DEFAULT_CONFIGURATION_ERROR_RETRY_DELAY : ℚ := 30

/-- The constructor. -/
def init (initialDelay : ℚ := DEFAULT_RECONNECT_INITIAL_DELAY)
    (maxDelay : ℚ := DEFAULT_RECONNECT_MAX_DELAY)
    (configurationErrorRetryDelay : ℚ := DEFAULT_CONFIGURATION_ERROR_RETRY_DELAY) :
    ManagedDatastore :=
  let initial := max 0 initialDelay
  { initialDelay := initial
    maxDelay := max initial maxDelay
    configurationErrorRetryDelay := max 0 configurationErrorRetryDelay
    retryDelay := initial
    scheduledRetryDelay := initial }

def temporaryUnavailable : Exn :=
  ⟨.datastoreDeviceUnavailable, py "MOTU USB datastore is temporarily unavailable"⟩

/-- The property `last_response_etag`. -/
def lastResponseEtag (d : ManagedDatastore) : Option Str :=
  match d.datastore with
  | some session => session.lastResponseEtag
  | none => d.rememberedEtag

/-- The property `last_response_payload`. -/
def lastResponsePayload (d : ManagedDatastore) : Option DatastorePayload :=
  match d.datastore with
  | some session => session.lastResponsePayload
  | none => d.rememberedPayload

/-- `_schedule_retry_locked`. -/
def scheduleRetry (d : ManagedDatastore) (now : ℚ) : ManagedDatastore :=
  { d with
    nextRetryAt := now + d.retryDelay
    scheduledRetryDelay := d.retryDelay
    retryDelay := min d.maxDelay (max d.initialDelay (d.retryDelay * 2))
    reconnectState := .backoff }

/-- `_schedule_configuration_error_retry_locked`. -/
def scheduleConfigurationErrorRetry (d : ManagedDatastore) (now : ℚ) : ManagedDatastore :=
  { d with
    nextRetryAt := now + d.configurationErrorRetryDelay
    scheduledRetryDelay := d.configurationErrorRetryDelay
    reconnectState := .configurationError }

/-- `_discard_session_locked`; `exit` is what `__exit__` of the open context raises. -/
def discardSession (d : ManagedDatastore) (exit : Option Exn) : ManagedDatastore :=
  { d with
    datastore := none
    lastReconnectError :=
      if d.datastore.isSome ∧ d.lastReconnectError.isNone then exit else d.lastReconnectError
    reconnectState :=
      if d.reconnectState = .closed ∨ d.reconnectState = .reconnecting then d.reconnectState
      else .backoff }

/-- `close`. -/
def close (d : ManagedDatastore) (exit : Option Exn) : ManagedDatastore :=
  { discardSession { d with closed := true } exit with reconnectState := .closed }

/-- `_remember_response_state` of the session itself. -/
def rememberResponseState (d : ManagedDatastore) : ManagedDatastore :=
  match d.datastore with
  | some session => { d with
      rememberedEtag := session.lastResponseEtag, rememberedPayload := session.lastResponsePayload }
  | none => d

/-- `_ensure_session` at time `now`. If it calls the opener, `opener` is what that raises, and
`later` is the time when it is done. -/
def ensureSession (d : ManagedDatastore) (now later : ℚ) (opener : Option Exn) :
    Except Exn Unit × ManagedDatastore :=
  if d.closed then (.error temporaryUnavailable, d)
  else if d.datastore.isSome then (.ok (), d)
  else if now < d.nextRetryAt then
    (.error temporaryUnavailable, if d.reconnectState ≠ .configurationError then
      { d with reconnectState := .backoff } else d)
  else
    let d := { d with reconnectState := .reconnecting }
    match opener with
    | some exc =>
      let d := { d with lastReconnectError := some exc }
      if isReconnectableDeviceLoss exc true then (.error temporaryUnavailable, d.scheduleRetry later)
      else (.error exc, d.scheduleConfigurationErrorRetry later)
    | none => (.ok (), { d with
        datastore := some {}
        sessionGeneration := d.sessionGeneration + 1
        reconnectState := .available
        lastReconnectError := none
        retryDelay := d.initialDelay
        scheduledRetryDelay := d.initialDelay
        nextRetryAt := later })

/-- The rest of `_call` when the operation returns: the session has remembered the response, and the
managed datastore remembers it too. -/
def callReturned (d : ManagedDatastore) (response : Bytes) : ManagedDatastore :=
  rememberResponseState { d with datastore := d.datastore.map fun _ => {
    lastResponsePayload := some (parseDatastoreResponse response)
    lastResponseEtag := (parseDatastoreResponse response).etag } }

/-- The rest of `_call` when the operation raises. `cleared` says whether it had come to the
collection of a response, which forgets the one before. -/
def callRaised (d : ManagedDatastore) (now : ℚ) (exc : Exn) (cleared : Bool) (exit : Option Exn) :
    Exn × ManagedDatastore :=
  let d := rememberResponseState { d with datastore := d.datastore.map fun session =>
    if cleared then {} else session }
  if isReconnectableDeviceLoss exc false then
    (temporaryUnavailable, if d.datastore.isSome then
      discardSession (scheduleRetry { d with lastReconnectError := some exc } now) exit else d)
  else (exc, d)

end ManagedDatastore

end Datastore

end MotuProxy
