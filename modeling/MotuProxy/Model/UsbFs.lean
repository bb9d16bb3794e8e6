import MotuProxy.Lib.Bytes
import MotuProxy.Lib.Run
import MotuProxy.Model.Exn

/-! # Cancellable bulk reads (`UsbFsCancellableBulkRead` of `usbfs.py`)

One thread runs `read`, any number of others call `cancel` on the same object, and the kernel
completes URBs. The object has no lock around its flags, so a step is one access to a flag that
another thread writes, or one system call. The four flags that `_discard_pending_urb` looks at only
ever change from false to true, so looking at them one after the other is the same as looking at
them at once.

The ioctls of a device are serialized by the kernel, and a discard returns when the URB is
completed: it was stopped, or it was faster. The kernel fills in the fields of a URB when the URB is
reaped.
-/

namespace MotuProxy

namespace UsbFs

def EINTR : Nat := 4
def EIO : Nat := 5
def ENOENT : Nat := 2
def EAGAIN : Nat := 11
def ENODEV : Nat := 19
def EINVAL : Nat := 22
def ECONNRESET : Nat := 104
def ETIMEDOUT : Nat := 110
def ECANCELED : Nat := 125

/-- `OSError(errno, ...)`, whose constructor picks the subclass. -/
def osError (errno : Nat) : ExnKind :=
  if errno = EINTR then .interruptedError
  else if errno = ETIMEDOUT then .timeoutError
  else .osError errno

/-- `_CANCELLED_URB_STATUSES`. -/
def cancelledUrbStatuses : List Int := [-(ENOENT : Int), -(ECONNRESET : Int), -(ECANCELED : Int)]

/-! ## The kernel -/

/-- What the kernel fills in: the status, and the bytes received. -/
structure Completion where
  status : Int := 0
  data : Bytes := []
  deriving DecidableEq, Repr

/-- The URBs of a file descriptor, by the address of their structure. -/
structure Kernel where
  pending : List Nat := []
  completed : List (Nat × Completion) := []
  /-- The device is disconnected. -/
  gone : Bool := false
  deriving DecidableEq, Repr

/-- What is left open about a step: the error of a system call that may fail, and how a URB that is
discarded completes. -/
structure Choice where
  errno : Option Nat := none
  completion : Completion := {}
  deriving DecidableEq, Repr

namespace Kernel

def complete (k : Kernel) (urb : Nat) (c : Completion) : Kernel :=
  { k with pending := k.pending.erase urb, completed := k.completed ++ [(urb, c)] }

/-- `USBDEVFS_SUBMITURB`. -/
def submit (k : Kernel) (urb : Nat) (ch : Choice) : Except Nat Kernel :=
  match ch.errno with
  | some errno => .error errno
  | none => if k.gone then .error ENODEV else .ok { k with pending := k.pending ++ [urb] }

/-- `USBDEVFS_DISCARDURB`. -/
def discard (k : Kernel) (urb : Nat) (ch : Choice) : Except Nat Kernel :=
  if k.gone then .error ENODEV
  else if urb ∈ k.pending then .ok (k.complete urb ch.completion)
  else .error (if ch.errno = some ENOENT then ENOENT else EINVAL)

/-- `USBDEVFS_REAPURBNDELAY`: the first URB that has completed. -/
def reapNdelay (k : Kernel) : Except Nat ((Nat × Completion) × Kernel) :=
  match k.completed with
  | urb :: completed => .ok (urb, { k with completed })
  | [] => .error (if k.gone then ENODEV else EAGAIN)

/-- `USBDEVFS_REAPURB`: it blocks until there is one, unless a signal arrives. -/
def reap (k : Kernel) (ch : Choice) : Option (Except Nat ((Nat × Completion) × Kernel)) :=
  match k.completed with
  | urb :: completed => some (.ok (urb, { k with completed }))
  | [] =>
    if ch.errno = some EINTR then some (.error EINTR)
    else if k.gone then some (.error ENODEV)
    else none

end Kernel

/-! ## The object -/

structure UsbFsCancellableBulkRead where
  timeoutMs : Option Nat := none
  submitted : Bool := false
  reaped : Bool := false
  cancelRequested : Bool := false
  discardSubmitted : Bool := false
  discardFailedWithoutReap : Bool := false
  discardFailureErrno : Option Nat := none
  timedOut : Bool := false
  /-- `_urb.status`, and the first `_urb.actual_length` bytes of `_buffer`. -/
  urb : Completion := {}
  /-- The wake-up pipe, when it is open: whether there is something in it. -/
  wakeup : Option Bool := none
  deriving DecidableEq, Repr

/-- What all threads and the kernel share. `address` is the address of the URB. -/
structure Shared where
  address : Nat
  read : UsbFsCancellableBulkRead := {}
  kernel : Kernel := {}
  /-- Whether `time.monotonic()` has passed the deadline. -/
  expired : Bool := false
  /-- A ghost: whether a system call has reported that the device is gone. -/
  noDevice : Bool := false
  /-- A ghost: how the URB of this read has completed. -/
  completion : Option Completion := none
  deriving DecidableEq, Repr

namespace Shared

/-- Note an error that a system call returns. -/
def noted (s : Shared) (errno : Nat) : Shared :=
  { s with noDevice := s.noDevice || errno == ENODEV }

/-- The URB that was reaped: the kernel has filled it in, if it is this one. -/
def filled (s : Shared) (urb : Nat × Completion) (kernel : Kernel) : Shared :=
  { s with kernel, read := if urb.1 = s.address then { s.read with urb := urb.2 } else s.read }

end Shared

/-! ## `cancel` -/

inductive CancelPc where
  | request | check | discard | discarded
  | discardFailed (errno : Nat) | discardErrno (errno : Nat)
  | wake
  deriving DecidableEq, Repr

/-- One step of `cancel`; no program counter is its end. -/
def cancelStep (s : Shared) (ch : Choice) : CancelPc → Option CancelPc × Shared
  | .request => (some .check, { s with read := { s.read with cancelRequested := true } })
  | .check =>
    if ¬s.read.submitted ∨ s.read.reaped ∨ s.read.discardSubmitted ∨
      s.read.discardFailedWithoutReap then (some .wake, s) else (some .discard, s)
  | .discard =>
    match s.kernel.discard s.address ch with
    | .ok kernel => (some .discarded, { s with kernel, completion := some ch.completion })
    | .error errno => (some (.discardFailed errno), s.noted errno)
  | .discarded => (some .wake, { s with read := { s.read with discardSubmitted := true } })
  | .discardFailed errno =>
    (some (.discardErrno errno), { s with read := { s.read with discardFailedWithoutReap := true } })
  | .discardErrno errno =>
    (some .wake, { s with read := { s.read with discardFailureErrno := some errno } })
  -- A write to a pipe that is full or has just been closed is nothing.
  | .wake => (none, { s with read := { s.read with wakeup := s.read.wakeup.map fun _ => true } })

/-! ## `read` -/

/-- What `read` goes on with after its own call of `cancel`. -/
inductive AfterCancel where
  | deadline | finish
  deriving DecidableEq, Repr

inductive ReadPc where
  | start | submit | markSubmitted | checkCancel
  | cancelling (pc : CancelPc) (after : AfterCancel)
  | deadline | openWakeup
  | reap | checkRequested | checkDeadline | markTimedOut | wait | poll | drain
  | finish | finishErrno | giveUp | raceReap | reapBlocking
  | accept (urb : Nat) | markReaped
  | closeWakeup (exc : Option ExnKind)
  | checkTimedOut | checkCancelled
  | done (result : Except ExnKind Bytes)
  deriving DecidableEq, Repr

def AfterCancel.pc : AfterCancel → ReadPc
  | .deadline => .deadline
  | .finish => .finish

/-- One step of `read`; a system call that blocks is no step. -/
def readStep (s : Shared) (ch : Choice) : ReadPc → Option (ReadPc × Shared)
  | .start =>
    if s.read.cancelRequested then some (.done (.error .interruptedError), s) else some (.submit, s)
  | .submit =>
    if s.read.submitted then some (.checkCancel, s)
    else match s.kernel.submit s.address ch with
      | .ok kernel => some (.markSubmitted, { s with kernel })
      | .error errno => some (.done (.error (osError errno)), s.noted errno)
  | .markSubmitted => some (.checkCancel, { s with read := { s.read with submitted := true } })
  | .checkCancel =>
    if s.read.cancelRequested then some (.cancelling .request .deadline, s) else some (.deadline, s)
  | .cancelling pc after =>
    let (next, s) := cancelStep s ch pc
    some (next.elim after.pc fun pc => .cancelling pc after, s)
  | .deadline => some (.openWakeup, { s with expired := false })
  | .openWakeup =>
    match ch.errno with
    | some errno => some (.done (.error (osError errno)), s)
    | none => some (.reap, { s with read := { s.read with wakeup := some false } })
  | .reap =>
    match s.kernel.reapNdelay with
    | .ok (urb, kernel) => some (.accept urb.1, s.filled urb kernel)
    | .error errno =>
      if errno ≠ EAGAIN then some (.closeWakeup (some (osError errno)), s.noted errno)
      else some (.checkRequested, s)
  | .checkRequested =>
    if s.read.cancelRequested then some (.finish, s) else some (.checkDeadline, s)
  | .checkDeadline =>
    if s.read.timeoutMs.isSome ∧ s.expired then some (.markTimedOut, s) else some (.wait, s)
  | .markTimedOut =>
    some (.cancelling .request .finish, { s with read := { s.read with timedOut := true } })
  | .wait =>
    if s.read.timeoutMs.isSome ∧ s.expired then some (.reap, s) else some (.poll, s)
  | .poll =>
    match ch.errno with
    | some errno => some (.closeWakeup (some (osError errno)), s)
    | none =>
      -- ready, woken up, or timed out
      if s.kernel.completed ≠ [] ∨ s.kernel.gone ∨ s.read.wakeup = some true ∨
        s.read.timeoutMs.isSome then some (.drain, s) else none
  | .drain =>
    some (.reap, { s with read := { s.read with wakeup := s.read.wakeup.map fun _ => false } })
  | .finish =>
    if s.read.discardFailedWithoutReap then some (.finishErrno, s) else some (.reapBlocking, s)
  | .finishErrno =>
    if s.read.discardFailureErrno = some EINVAL ∨ s.read.discardFailureErrno = some ENOENT then
      some (.raceReap, s) else some (.giveUp, s)
  | .giveUp => some (.closeWakeup none, { s with read := { s.read with reaped := true } })
  | .raceReap =>
    match s.kernel.reapNdelay with
    | .ok (urb, kernel) => some (.accept urb.1, s.filled urb kernel)
    | .error errno =>
      if errno ≠ EAGAIN then some (.closeWakeup (some (osError errno)), s.noted errno)
      else some (.giveUp, s)
  | .reapBlocking =>
    match s.kernel.reap ch with
    | none => none
    | some (.ok (urb, kernel)) => some (.accept urb.1, s.filled urb kernel)
    | some (.error errno) => some (.closeWakeup (some (osError errno)), s.noted errno)
  | .accept urb =>
    if urb ≠ s.address then some (.closeWakeup (some (osError EIO)), s) else some (.markReaped, s)
  | .markReaped => some (.closeWakeup none, { s with read := { s.read with reaped := true } })
  | .closeWakeup exc =>
    some (exc.elim .checkTimedOut fun e => .done (.error e),
      { s with read := { s.read with wakeup := none } })
  | .checkTimedOut => if s.read.timedOut then some (.done (.ok []), s) else some (.checkCancelled, s)
  | .checkCancelled =>
    if s.read.cancelRequested ∨ s.read.urb.status ∈ cancelledUrbStatuses then
      some (.done (.error .interruptedError), s)
    else if s.read.urb.status ≠ 0 then
      some (.done (.error (osError s.read.urb.status.natAbs)), s)
    else some (.done (.ok s.read.urb.data), s)
  | .done _ => none

/-! ## All threads -/

/-- A read with the calls of `cancel` by other threads. -/
structure World where
  shared : Shared
  reader : ReadPc := .start
  cancels : List CancelPc := []
  deriving DecidableEq, Repr

inductive Action where
  | read (ch : Choice)
  /-- Another thread calls `cancel`. -/
  | call
  /-- The `i`-th of these calls makes a step. -/
  | cancel (i : Nat) (ch : Choice)
  /-- The kernel completes a URB. -/
  | complete (urb : Nat) (c : Completion)
  | disconnect
  /-- The deadline passes. -/
  | expire
  deriving DecidableEq, Repr

def World.step (w : World) : Action → Option World
  | .read ch => (readStep w.shared ch w.reader).map fun (reader, shared) => { w with reader, shared }
  | .call => some { w with cancels := w.cancels ++ [.request] }
  | .cancel i ch => (w.cancels[i]?).map fun pc =>
    let (next, shared) := cancelStep w.shared ch pc
    { w with shared, cancels := next.elim (w.cancels.eraseIdx i) fun pc => w.cancels.set i pc }
  | .complete urb c =>
    if urb ∈ w.shared.kernel.pending then
      some { w with shared := { w.shared with
        kernel := w.shared.kernel.complete urb c
        completion := if urb = w.shared.address then some c else w.shared.completion } }
    else none
  | .disconnect => some { w with shared := { w.shared with
      kernel := { w.shared.kernel with gone := true } } }
  | .expire => some { w with shared := { w.shared with expired := true } }

end UsbFs

end MotuProxy
