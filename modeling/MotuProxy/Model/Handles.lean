import MotuProxy.Model.Device
import MotuProxy.Model.Lifecycle

/-! # The device descriptors of the process

The context that the opener returns is `open_datastore`: it opens the device file, claims the
interface, and gives both back when it is exited. The environment chooses what each system call
comes to. A call of `os.close` frees an open descriptor, whatever it reports; `os.open` returns a
descriptor that is not open.

`stale` is a ghost: a system call was given a descriptor that is not open. The ioctl of
`UsbFsCancellableBulkRead.cancel` is left out: the coordinator calls it outside the locks of the
managed datastore, and `Model.UsbFs` has it.
-/

namespace MotuProxy

open Py

namespace Datastore

open Device

/-- The descriptors of the device file, and the interfaces claimed through them. -/
structure Descriptors where
  opened : List Nat := []
  claimed : List (Nat × Int) := []
  stale : Bool := false
  deriving DecidableEq, Repr

/-- What the system calls of a step come to, those that it makes. -/
structure SystemCalls where
  found : Except Exn UsbDeviceInfo := .error ⟨.runtimeError, []⟩
  opened : Except Exn Nat := .error ⟨.runtimeError, []⟩
  claimed : Option Exn := none
  /-- The constructor of `MotuUsbDatastore`, which checks the start of the sequence. -/
  constructed : Option Exn := none
  /-- The transfers of `init`, or of the operation. -/
  transferred : Option Exn := none
  released : Option Exn := none
  closed : Option Exn := none

/-- A procedure that makes system calls. -/
abbrev SystemProc := EStateM Exn Descriptors

namespace SystemProc

/-- A call on a descriptor; `apply` is what it does if it does not raise. -/
def onDescriptor (fd : Nat) (raised : Option Exn) (apply : Descriptors → Descriptors) :
    SystemProc Unit := fun k =>
  let k := if fd ∈ k.opened then k else { k with stale := true }
  match raised with
  | some exc => .error exc k
  | none => .ok () (apply k)

def raiseIf (raised : Option Exn) : SystemProc Unit :=
  match raised with
  | some exc => throw exc
  | none => pure ()

/-- `os.open(path, flags)`. -/
def osOpen (outcome : Except Exn Nat) : SystemProc Nat := fun k =>
  match outcome with
  | .error exc => .error exc k
  | .ok fd => .ok fd { k with opened := k.opened ++ [fd] }

/-- `os.close(fd)`. -/
def osClose (fd : Nat) (raised : Option Exn) : SystemProc Unit := do
  onDescriptor fd none fun k => { k with
    opened := k.opened.erase fd, claimed := k.claimed.filter (·.1 ≠ fd) }
  raiseIf raised

def claimInterface (fd : Nat) (interface : Int) (raised : Option Exn) : SystemProc Unit :=
  onDescriptor fd raised fun k => { k with claimed := k.claimed ++ [(fd, interface)] }

def releaseInterface (fd : Nat) (interface : Int) (raised : Option Exn) : SystemProc Unit :=
  onDescriptor fd raised fun k => { k with claimed := k.claimed.erase (fd, interface) }

end SystemProc

open SystemProc

structure UsbFsTransport where
  device : UsbDeviceInfo
  fd : Option Nat := none
  deriving DecidableEq, Repr

namespace UsbFsTransport

/-- `__enter__`. -/
def enter (t : UsbFsTransport) (sys : SystemCalls) : SystemProc UsbFsTransport := do
  let fd ← osOpen sys.opened
  try
    claimInterface fd t.device.interface sys.claimed
  catch exc =>
    osClose fd sys.closed
    throw exc
  return { t with fd := some fd }

/-- `__exit__`. -/
def exit (t : UsbFsTransport) (sys : SystemCalls) : SystemProc UsbFsTransport :=
  match t.fd with
  | none => return t
  | some fd => do
    try
      releaseInterface fd t.device.interface sys.released
    finally
      osClose fd sys.closed
    return { t with fd := none }

/-- A bulk transfer: `bulk_write`, `bulk_read` or a cancellable read. -/
def transfer (t : UsbFsTransport) (sys : SystemCalls) : SystemProc Unit :=
  match t.fd with
  | none => throw ⟨.runtimeError, py "transport is not open"⟩
  | some fd => onDescriptor fd sys.transferred id

end UsbFsTransport

def liftFound (found : Except Exn UsbDeviceInfo) : SystemProc UsbDeviceInfo :=
  match found with
  | .ok device => pure device
  | .error exc => throw exc

/-- `open_datastore` up to its `yield`. -/
def openDatastore (noInit : Bool) (sys : SystemCalls) : SystemProc UsbFsTransport := do
  let device ← liftFound sys.found
  let transport ← UsbFsTransport.enter { device } sys
  try
    raiseIf sys.constructed
    if !noInit then transport.transfer sys
  catch exc =>
    let _ ← transport.exit sys
    throw exc
  return transport

/-! ## The system -/

/-- What the thread calls of the environment. -/
inductive EnvironmentCall where
  | opener
  | enter (context : Nat)
  | operation (datastore : Nat)
  | exit (context : Nat)
  deriving DecidableEq, Repr

def LifecycleThread.environmentCall : LifecycleThread → Option EnvironmentCall
  | .call _ .opening => some .opener
  | .call _ (.entering context) => some (.enter context)
  | .call _ (.operating datastore) => some (.operation datastore)
  | .call _ (.rejecting context _) | .call _ (.exiting context) | .close (.exiting context) =>
    some (.exit context)
  | _ => none

/-- The managed datastore over the descriptors of the process; `transports` has that of each context
that was entered. -/
structure HandleWorld where
  noInit : Bool := false
  lifecycle : LifecycleWorld
  descriptors : Descriptors := {}
  transports : List (Nat × UsbFsTransport) := []
  deriving DecidableEq, Repr

namespace HandleWorld

/-- A system call procedure, as the managed datastore sees it. -/
def runCall (w : HandleWorld) (proc : SystemProc α) (keep : α → List (Nat × UsbFsTransport)) :
    Outcome × HandleWorld :=
  match proc w.descriptors with
  | .ok a descriptors => (.returned, { w with descriptors, transports := keep a ++ w.transports })
  | .error exc descriptors => (.raised exc, { w with descriptors })

/-- What the environment does for a thread. The opener only makes the context. -/
def environment (w : HandleWorld) (sys : SystemCalls) : EnvironmentCall → Option (Outcome × HandleWorld)
  | .opener => some (.returned, w)
  | .enter context => some (w.runCall (openDatastore w.noInit sys) fun t => [(context, t)])
  | .operation datastore => do
    let t ← w.transports.lookup datastore
    return w.runCall (t.transfer sys) fun _ => []
  | .exit context => do
    let t ← w.transports.lookup context
    return w.runCall (t.exit sys) fun t => [(context, t)]

/-- `os.open` returns a descriptor that is not open. -/
def Fresh (w : HandleWorld) (sys : SystemCalls) : Prop :=
  ∀ fd ∈ sys.opened.toOption, fd ∉ w.descriptors.opened

instance (w : HandleWorld) (sys : SystemCalls) : Decidable (w.Fresh sys) :=
  inferInstanceAs (Decidable (∀ fd ∈ sys.opened.toOption, fd ∉ w.descriptors.opened))

inductive Action where
  | tick (later : ℚ)
  | call (method : Method)
  | status
  | close
  | thread (i : Nat) (sys : SystemCalls)

/-- The request of a caller, or the time. -/
def Action.plain : Action → Option LifecycleWorld.Action
  | .tick later => some (.tick later)
  | .call method => some (.call method)
  | .status => some .status
  | .close => some .close
  | .thread _ _ => none

/-- The call of the environment that a thread is at, if it is at one. -/
def callOf (w : HandleWorld) (sys : SystemCalls) (t : LifecycleThread) :
    Option (Outcome × HandleWorld) :=
  match t.environmentCall with
  | some call => w.environment sys call
  | none => some (.returned, w)

def stepThread (w : HandleWorld) (i : Nat) (sys : SystemCalls) : Option HandleWorld := do
  let t ← w.lifecycle.threads[i]?
  let (outcome, w) ← w.callOf sys t
  let lifecycle ← w.lifecycle.step (.thread i outcome)
  return { w with lifecycle }

def step (w : HandleWorld) (a : Action) : Option HandleWorld :=
  match a with
  | .thread i sys => if w.Fresh sys then w.stepThread i sys else none
  | a => do
    let lifecycle ← w.lifecycle.step (← a.plain)
    return { w with lifecycle }

/-- A managed datastore, before any call, in a process that has no descriptor of the device. -/
def init (noInit : Bool) (initialDelay maxDelay configurationErrorRetryDelay : ℚ) : HandleWorld :=
  { noInit, lifecycle := .init initialDelay maxDelay configurationErrorRetryDelay }

end HandleWorld

end Datastore

end MotuProxy
