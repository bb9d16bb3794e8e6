import MotuProxy.Model.Threads

/-! # The condition variable of the coordinator

In `Model.Threads` a thread in a wait may make its next pass at any time. Here it is blocked until
another thread calls `notify_all` or the timeout of its wait is over. A step is a step of
`Model.Threads` by a thread that is not blocked; it wakes every other thread if the source notifies
in it, and it blocks its own thread if it ends in a wait.
-/

namespace MotuProxy

open Py Protocol Responses

namespace Coordinator

open DatastoreCoordinator

/-- Whether a thread is in `Condition.wait`, and when its timeout is over. -/
inductive Waiting where
  | running
  | blocked (expires : Option ℚ)
  deriving DecidableEq, Repr

/-- The thread may go on. -/
def Waiting.ready (now : ℚ) : Waiting → Bool
  | .running => true
  | .blocked none => false
  | .blocked (some expires) => expires ≤ now

/-! ## Notifications -/

/-- `_reset_if_session_generation_changed` notifies if it resets. -/
def Env.resets (e : Env) : Bool := e.managed.sessionGeneration ≠ e.shared.datastoreSessionGeneration

/-- A step of a foreground operation notifies: on entering and leaving `_acquire_foreground_io`, in
a reset, with a publication, and in `_release_io`. -/
def IoCall.notifies (e : Env) (c c' : IoCall) : Bool :=
  match c.pc with
  | .start | .releasing _ => true
  | .acquiring _ => match c'.pc with
    | .acquiring _ => false
    | _ => true
  | .responded _ | .refreshResponded .. => e.resets
  | .payload p => match c.job with
    | .read a => p.etag.isSome && decide (a.path = pollPath)
    | .post _ => false
  | .refreshed _ refresh => refresh.etag.isSome
  | .owning | .inCall | .refreshing _ | .done _ => false

/-- A waiter notifies when its degraded refresh is over; the rest is done by its operations. -/
def Client.notifies (e : Env) (c c' : Client) : Bool :=
  match c, c' with
  | .io call, .io call' => call.notifies e call'
  | .wait c, .wait c' => match c.pc, c'.pc with
    | .refresh call, .refresh call' | .read call, .read call' => call.notifies e call'
    | .refreshDone _, _ => true
    | _, _ => false
  | _, _ => false

def PollPc.notifies (e : Env) (choice : Choice) : PollPc → Bool
  | .inCall _ => match choice with
    | .readStarted _ => true
    | _ => false
  | .responded .. => e.resets
  | .payload _ _ p => p.etag.isSome
  | .releasing _ => true
  | _ => false

/-! ## Waits -/

/-- The wait of a pass through `_acquire_foreground_io`, which has a timeout only if the poller owns
the I/O. -/
def IoCall.waiting (e : Env) (c : IoCall) : Waiting :=
  match c.pc with
  | .acquiring deadline => .blocked (if e.shared.ioOwner = some .poller then deadline else none)
  | _ => .running

/-- The end of the wait of a pass of `wait_for_change`. -/
def WaitCall.expires (cfg : Config) (e : Env) (c : WaitCall) : ℚ :=
  if cfg.nativeLongPoll ∨ e.shared.degradedRefreshInProgress then c.deadline
  else e.now + min (c.deadline - e.now) (max (1 / 1000) (e.shared.nextDegradedRefresh - e.now))

/-- The thread is at the top of the loop of `wait_for_change`. -/
def Client.loops : Client → Bool
  | .wait c => match c.pc with
    | .loop => true
    | _ => false
  | .io _ => false

/-- The wait that a step of a client thread ends in; `e` is the environment after it. -/
def Client.waiting (cfg : Config) (e : Env) (c c' : Client) : Waiting :=
  match c' with
  | .io call => call.waiting e
  | .wait w => match w.pc with
    | .refresh call | .read call => call.waiting e
    -- a pass that neither answers nor reads; after a refresh the loop goes on at once
    | .loop => if c.loops then .blocked (some (w.expires cfg e)) else .running
    | _ => .running

/-- The wait that a step of the poller ends in: in `_acquire_poller_io` without a timeout, and
between two cycles for `poll_interval_s`. -/
def PollPc.waiting (pollInterval : ℚ) (e : Env) : PollPc → PollPc → Waiting
  | .acquiring _, .acquiring _ => .blocked none
  | .handled _, .top => .blocked (some (e.now + pollInterval))
  | _, _ => .running

/-! ## The system -/

structure WakeWorld where
  world : World
  /-- One for each client thread. -/
  clients : List Waiting := []
  poller : Waiting := .running
  deriving DecidableEq, Repr

namespace WakeWorld

/-- `notify_all`, if the step notifies. -/
def notifyAll (w : WakeWorld) (notifies : Bool) : WakeWorld :=
  { w with
    clients := if notifies then w.clients.map fun _ => .running else w.clients
    poller := if notifies then .running else w.poller }

def step (cfg : Config) (pollInterval : ℚ) (w : WakeWorld) (a : Action) : Option WakeWorld :=
  match a with
  | .client i _ => do
    let c ← w.world.clients[i]?
    let waiting ← w.clients[i]?
    if waiting.ready w.world.env.now then
      let world ← Coordinator.step cfg w.world a
      let c' ← world.clients[i]?
      let w' := { w with world }.notifyAll (c.notifies w.world.env c')
      return { w' with clients := w'.clients.set i (c.waiting cfg world.env c') }
    else none
  | .poller choice =>
    if w.poller.ready w.world.env.now then do
      let world ← Coordinator.step cfg w.world a
      let w' := { w with world }.notifyAll (w.world.poller.notifies w.world.env choice)
      return { w' with poller := w.world.poller.waiting pollInterval world.env world.poller }
    else none
  | .get .. | .post .. => do
    let world ← Coordinator.step cfg w.world a
    return { w with world, clients := w.clients ++ [.running] }
  | .close => do
    let world ← Coordinator.step cfg w.world a
    return { w with world }.notifyAll true
  | .tick _ | .closeDatastore _ => do
    let world ← Coordinator.step cfg w.world a
    return { w with world }

/-- Before any thread runs. -/
def init (managed : Datastore.ManagedDatastore) : WakeWorld := { world := .init managed }

end WakeWorld

end Coordinator

end MotuProxy
