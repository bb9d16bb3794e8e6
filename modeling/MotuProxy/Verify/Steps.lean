import MotuProxy.Lib.Proc
import MotuProxy.Model.Threads

/-! # What a step of a thread can do

`IoStep` lists the moves of a foreground operation, and `IoCall.step_cases` says that there are no
others. `Client.step_cases` reduces a step of a client thread to such a move or to a step that
touches nothing but the bookkeeping of degraded refreshes. `WorldStep` lists the moves of the whole
system. Invariants are proved from these lists.
-/

namespace MotuProxy

open Py Protocol Responses

namespace Coordinator

open Datastore (ManagedDatastore)
open DatastoreCoordinator

/-! ## Datastore operations -/

section
variable {e e' : Env} {request : Request} {choice : Choice}

theorem Env.begin_ok (h : e.begin request choice = some (.ok (), e')) :
    ∃ later exc, e.now ≤ later ∧ e.managed.ensureSession e.now later exc = (.ok (), e'.managed) ∧
      e'.shared = e.shared ∧ e'.log = e.log ++ [.sent e'.managed.sessionGeneration request] := by
  unfold Env.begin at h
  split at h
  · rename_i exc later
    split at h
    · rename_i hle
      cases hens : e.managed.ensureSession e.now later exc with
      | mk r managed =>
        rw [hens] at h
        cases r with
        | error exc => cases h
        | ok _ => cases h; exact ⟨later, exc, hle, hens, rfl, rfl⟩
    · cases h
  · cases h

theorem Env.begin_error (h : e.begin request choice = some (.error exc, e')) :
    ∃ later opener, e.managed.ensureSession e.now later opener = (.error exc, e'.managed) ∧
      e'.shared = e.shared ∧ e'.log = e.log := by
  unfold Env.begin at h
  split at h
  · rename_i opener later
    split at h
    · cases hens : e.managed.ensureSession e.now later opener with
      | mk r managed =>
        rw [hens] at h
        cases r with
        | error exc => cases h; exact ⟨later, opener, hens, rfl, rfl⟩
        | ok _ => cases h
    · cases h
  · cases h

theorem Env.finish_ok (h : e.finish request choice = some (.ok response, e')) :
    e' = { e with
      managed := e.managed.callReturned response
      log := e.log ++ [.received e.managed.sessionGeneration request response] } := by
  unfold Env.finish at h
  split at h
  · cases h; rfl
  · simp at h
  · cases h

theorem Env.finish_choice {e : Env} (h : e.finish request choice = some (.ok response, e')) :
    choice = .respond response := by
  unfold Env.finish at h
  split at h
  · cases h; rfl
  · simp at h
  · cases h

theorem Env.finish_error (h : e.finish request choice = some (.error exc, e')) :
    ∃ exc' cleared exit, e' = { e with managed := (e.managed.callRaised e.now exc' cleared exit).2 } := by
  unfold Env.finish at h
  split at h
  · cases h
  · rename_i exc' cleared exit
    simp only [Option.some.injEq, Prod.mk.injEq] at h
    exact ⟨exc', cleared, exit, h.2.symm⟩
  · cases h

end

/-! ## Foreground operations -/

/-- The coordinator as an operation finds it at a pass through `_acquire_foreground_io`. -/
def IoPc.entering (s : DatastoreCoordinator) : IoPc → Option (DatastoreCoordinator × Option ℚ)
  | .start => some ({ s with foregroundWaiters := s.foregroundWaiters + 1 }, none)
  | .acquiring deadline => some (s, deadline)
  | _ => none

/-- What becomes of the cancellation flag while a foreground operation waits: a read of the poller
is asked to stop. -/
def DatastoreCoordinator.Preempts (s : DatastoreCoordinator) (requested : Bool) : Prop :=
  s.ioOwner = some .poller → s.activePollRead ≠ none → requested = true

/-- The moves of a foreground operation. -/
inductive IoStep (cfg : Config) (e : Env) (c : IoCall) (choice : Choice) : Env → IoCall → Prop where
  | acquire (hpc : c.pc.entering e.shared = some (s, deadline)) (hfree : s.ioBusy = false) :
    IoStep cfg e c choice { e with shared := { s with
      ioBusy := true
      ioOwner := some .foreground
      foregroundWaiters := s.foregroundWaiters - 1 } } { c with pc := .owning }
  | exceed (hpc : c.pc.entering e.shared = some (s, deadline)) (hbusy : s.ioBusy = true)
      (hcancel : s.Preempts requested) :
    IoStep cfg e c choice { e with shared := { s with
      activePollCancelRequested := requested
      foregroundWaiters := s.foregroundWaiters - 1 } }
      { c with pc := .done (.error preemptionBudgetExceeded) }
  | wait (hpc : c.pc.entering e.shared = some (s, deadline)) (hbusy : s.ioBusy = true)
      (hcancel : s.Preempts requested) :
    IoStep cfg e c choice { e with shared := { s with activePollCancelRequested := requested } }
      { c with pc := .acquiring deadline' }
  | beginOk (hpc : c.pc = .owning) (hb : e.begin c.job.request choice = some (.ok (), e')) :
    IoStep cfg e c choice e' { c with pc := .inCall }
  | beginFail (hpc : c.pc = .owning) (hb : e.begin c.job.request choice = some (.error exc, e')) :
    IoStep cfg e c choice e' { c with pc := .releasing (.error exc) }
  | respond (hpc : c.pc = .inCall)
      (hf : e.finish c.job.request choice = some (.ok response, e')) :
    IoStep cfg e c choice e' { c with pc := .responded response, received := some response }
  | raise (hpc : c.pc = .inCall) (hf : e.finish c.job.request choice = some (.error exc, e')) :
    IoStep cfg e c choice e' { c with pc := .releasing (.error exc) }
  | payload (hpc : c.pc = .responded response) :
    IoStep cfg e c choice (e.payloadFromResponse response).2
      { c with pc := .payload (e.payloadFromResponse response).1 }
  | publishRead (hpc : c.pc = .payload p) (hjob : c.job = .read a) :
    IoStep cfg e c choice (e.publish cfg a.request p none none (a.path = pollPath))
      { c with pc := .releasing (.ok p) }
  | refreshBegin (hpc : c.pc = .payload p) (hjob : c.job = .post a)
      (hb : e.begin refreshArgs.request choice = some (.ok (), e')) :
    IoStep cfg e c choice e' { c with pc := .refreshing p }
  | refreshBeginFail (hpc : c.pc = .payload p) (hjob : c.job = .post a)
      (hb : e.begin refreshArgs.request choice = some (.error exc, e')) :
    IoStep cfg e c choice e' { c with pc := .releasing (.ok p) }
  | refreshRespond (hpc : c.pc = .refreshing p)
      (hf : e.finish refreshArgs.request choice = some (.ok response, e')) :
    IoStep cfg e c choice e' { c with pc := .refreshResponded p response }
  | refreshRaise (hpc : c.pc = .refreshing p)
      (hf : e.finish refreshArgs.request choice = some (.error exc, e')) :
    IoStep cfg e c choice e' { c with pc := .releasing (.ok p) }
  | refreshPayload (hpc : c.pc = .refreshResponded p response) :
    IoStep cfg e c choice (e.payloadFromResponse response).2
      { c with pc := .refreshed p (e.payloadFromResponse response).1 }
  | publishRefresh (hpc : c.pc = .refreshed p refresh) (hjob : c.job = .post a) :
    IoStep cfg e c choice (e.publish cfg refreshArgs.request refresh (clientString a.client) none true)
      { c with pc := .releasing (.ok p) }
  | release (hpc : c.pc = .releasing result) :
    IoStep cfg e c choice e.release { c with pc := .done result }

theorem DatastoreCoordinator.requestActivePollCancelLocked_cases (s : DatastoreCoordinator) :
    ∃ read requested, (s.activePollRead ≠ none → requested = true) ∧
      s.requestActivePollCancelLocked = (read, { s with activePollCancelRequested := requested }) := by
  unfold requestActivePollCancelLocked
  split
  · rename_i h
    refine ⟨none, s.activePollCancelRequested, fun hread => ?_, rfl⟩
    exact h.resolve_left fun hnone => hread (Option.isNone_iff_eq_none.mp hnone)
  · exact ⟨_, true, fun _ => rfl, rfl⟩

theorem acquireForegroundIo_cases (s : DatastoreCoordinator) (cfg : Config) (now : ℚ)
    (deadline : Option ℚ) :
    (s.ioBusy = false ∧ s.acquireForegroundIo cfg now deadline = (.acquired, { s with
      ioBusy := true
      ioOwner := some .foreground
      foregroundWaiters := s.foregroundWaiters - 1 })) ∨
    (s.ioBusy = true ∧ ∃ requested, s.Preempts requested ∧ s.acquireForegroundIo cfg now deadline =
      (.exceeded, { s with
        activePollCancelRequested := requested, foregroundWaiters := s.foregroundWaiters - 1 })) ∨
    (s.ioBusy = true ∧ ∃ requested deadline', s.Preempts requested ∧
      s.acquireForegroundIo cfg now deadline =
        (.wait deadline', { s with activePollCancelRequested := requested })) := by
  obtain ⟨r, b, hcancel, hreq⟩ := s.requestActivePollCancelLocked_cases
  unfold acquireForegroundIo
  by_cases hb : s.ioBusy = true
  · rw [if_neg (not_not_intro hb), hreq]
    refine .inr ?_
    simp only
    split
    · split
      · split
        · exact .inl ⟨hb, b, fun _ => hcancel, rfl⟩
        · exact .inr ⟨hb, b, _, fun _ => hcancel, rfl⟩
      · exact .inr ⟨hb, b, _, fun _ => hcancel, rfl⟩
    · rename_i howner
      exact .inr ⟨hb, s.activePollCancelRequested, _, fun h => absurd h howner, rfl⟩
  · rw [if_pos hb]
    exact .inl ⟨by simpa using hb, rfl⟩

theorem IoCall.acquire_step (cfg : Config) {e : Env} {c : IoCall}
    (hpc : c.pc.entering e.shared = some (s, deadline)) :
    ∃ e' c', IoCall.acquire cfg { e with shared := s } c deadline = (e', c') ∧ IoStep cfg e c choice e' c' := by
  unfold IoCall.acquire
  rcases acquireForegroundIo_cases s cfg e.now deadline with ⟨hb, hs⟩ |
    ⟨hb, requested, hcancel, hs⟩ | ⟨hb, requested, deadline', hcancel, hs⟩ <;> simp only [hs]
  · exact ⟨_, _, rfl, .acquire hpc hb⟩
  · exact ⟨_, _, rfl, .exceed hpc hb hcancel⟩
  · exact ⟨_, _, rfl, .wait hpc hb hcancel⟩

theorem IoCall.step_cases {e e' : Env} {c c' : IoCall} (h : c.step cfg e choice = some (e', c')) :
    IoStep cfg e c choice e' c' := by
  unfold IoCall.step at h
  split at h
  · rename_i hpc
    obtain ⟨e₁, c₁, heq, hstep⟩ := IoCall.acquire_step cfg (e := e) (c := c) (by rw [hpc]; rfl)
    cases heq.symm.trans (Option.some.inj h)
    exact hstep
  · rename_i deadline hpc
    obtain ⟨e₁, c₁, heq, hstep⟩ := IoCall.acquire_step cfg (e := e) (c := c) (by rw [hpc]; rfl)
    cases heq.symm.trans (Option.some.inj h)
    exact hstep
  · rename_i hpc
    obtain ⟨⟨r, e₁⟩, hb, hr⟩ := Option.map_eq_some_iff.mp h
    cases r <;> cases hr
    · exact .beginFail hpc hb
    · exact .beginOk hpc hb
  · rename_i hpc
    obtain ⟨⟨r, e₁⟩, hb, hr⟩ := Option.map_eq_some_iff.mp h
    cases r <;> cases hr
    · exact .raise hpc hb
    · exact .respond hpc hb
  · rename_i response hpc
    cases h
    exact .payload hpc
  · rename_i p hpc
    split at h
    · rename_i a hjob
      cases h
      exact .publishRead hpc hjob
    · rename_i a hjob
      obtain ⟨⟨r, e₁⟩, hb, hr⟩ := Option.map_eq_some_iff.mp h
      cases r <;> cases hr
      · exact .refreshBeginFail hpc hjob hb
      · exact .refreshBegin hpc hjob hb
  · rename_i p hpc
    obtain ⟨⟨r, e₁⟩, hb, hr⟩ := Option.map_eq_some_iff.mp h
    cases r <;> cases hr
    · exact .refreshRaise hpc hb
    · exact .refreshRespond hpc hb
  · rename_i p response hpc
    cases h
    exact .refreshPayload hpc
  · rename_i p refresh hpc
    split at h
    · cases h
    · rename_i a hjob
      cases h
      exact .publishRefresh hpc hjob
  · rename_i result hpc
    cases h
    exact .release hpc
  · cases h

/-! ## Client threads -/

/-- The environment changes in the bookkeeping of degraded refreshes only. -/
def Quiet (e e' : Env) : Prop :=
  ∃ inProgress next, e' = { e with shared := { e.shared with
    degradedRefreshInProgress := inProgress, nextDegradedRefresh := next } }

/-- A read that has not started yet; a waiter always asks for the full state. -/
structure IoCall.Fresh (call : IoCall) : Prop where
  pc : call.pc = .start
  received : call.received = none
  job : ∃ a, call.job = .read a ∧ a.etag = py "0"

theorem waitForChange_quiet (e : Env) (cfg : Config) (now : ℚ) (a : WaitArgs) (deadline : ℚ) :
    Quiet e { e with shared := (e.shared.waitForChange cfg now a deadline).2 } := by
  have hsame : Quiet e e := ⟨e.shared.degradedRefreshInProgress, e.shared.nextDegradedRefresh, rfl⟩
  unfold waitForChange
  simp only
  split
  · split <;> exact hsame
  · split
    · exact hsame
    · split
      · exact hsame
      · split
        · split
          · exact hsame
          · split
            · exact ⟨true, _, rfl⟩
            · exact hsame
        · exact hsame

theorem WaitCall.step_cases {e e' : Env} {c c' : WaitCall} (h : c.step cfg e choice = some (e', c')) :
    (∃ call call', Client.call? (.wait c) = some call ∧ Client.call? (.wait c') = some call' ∧
      IoStep cfg e call choice e' call') ∨
    (Quiet e e' ∧ (∀ call, Client.call? (.wait c) = some call → ∃ r, call.pc = .done r) ∧
      ∀ call, Client.call? (.wait c') = some call → call.Fresh) := by
  unfold WaitCall.step at h
  split at h
  · rename_i hpc
    have hq := waitForChange_quiet e cfg e.now c.args c.deadline
    have hnone : ∀ call, Client.call? (.wait c) = some call → ∃ r, call.pc = .done r := by
      intro call hcall
      simp [Client.call?, hpc] at hcall
    split at h <;> cases h <;> rename_i heq <;> rw [heq] at hq
    · exact .inr ⟨hq, hnone, fun call hcall => by simp [Client.call?] at hcall⟩
    · refine .inr ⟨hq, hnone, fun call hcall => ?_⟩
      simp only [Client.call?, Option.some.injEq] at hcall
      subst hcall
      exact ⟨rfl, rfl, _, rfl, rfl⟩
    · refine .inr ⟨hq, hnone, fun call hcall => ?_⟩
      simp only [Client.call?, Option.some.injEq] at hcall
      subst hcall
      exact ⟨rfl, rfl, _, rfl, rfl⟩
    · exact .inr ⟨hq, hnone, fun call hcall => by simp [Client.call?, hpc] at hcall⟩
  · rename_i call hpc
    split at h
    · rename_i result hdone
      cases h
      refine .inr ⟨⟨_, _, rfl⟩, fun call' hcall => ?_, fun call' hcall => ?_⟩
      · simp only [Client.call?, hpc, Option.some.injEq] at hcall
        exact ⟨result, hcall ▸ hdone⟩
      · simp [Client.call?] at hcall
    · obtain ⟨⟨e₁, call₁⟩, hstep, hr⟩ := Option.map_eq_some_iff.mp h
      cases hr
      exact .inl ⟨call, call₁, by simp [Client.call?, hpc], rfl, IoCall.step_cases hstep⟩
  · rename_i result hpc
    have hnone : ∀ call, Client.call? (.wait c) = some call → ∃ r, call.pc = .done r := by
      intro call hcall
      simp [Client.call?, hpc] at hcall
    split at h <;> cases h
    · exact .inr ⟨⟨_, _, rfl⟩, hnone, fun call hcall => by simp [Client.call?] at hcall⟩
    · rename_i exc
      refine .inr ⟨⟨_, _, rfl⟩, hnone, fun call hcall => ?_⟩
      by_cases hexc : isRefreshFailure exc = true <;> simp [Client.call?, hexc] at hcall
  · rename_i call hpc
    obtain ⟨⟨e₁, call₁⟩, hstep, hr⟩ := Option.map_eq_some_iff.mp h
    cases hr
    exact .inl ⟨call, call₁, by simp [Client.call?, hpc], rfl, IoCall.step_cases hstep⟩
  · cases h
  · cases h

/-- A step of a client thread is a move of its foreground operation, or it is quiet. -/
theorem Client.step_cases {e e' : Env} {c c' : Client} (h : c.step cfg e choice = some (e', c')) :
    (∃ call call', c.call? = some call ∧ c'.call? = some call' ∧ IoStep cfg e call choice e' call') ∨
    (Quiet e e' ∧ (∀ call, c.call? = some call → ∃ r, call.pc = .done r) ∧
      ∀ call, c'.call? = some call → call.Fresh) := by
  cases c with
  | io call =>
    obtain ⟨⟨e₁, call₁⟩, hstep, hr⟩ := Option.map_eq_some_iff.mp h
    cases hr
    exact .inl ⟨call, call₁, rfl, rfl, IoCall.step_cases hstep⟩
  | wait call =>
    obtain ⟨⟨e₁, call₁⟩, hstep, hr⟩ := Option.map_eq_some_iff.mp h
    cases hr
    exact WaitCall.step_cases hstep

/-! ## The poller thread -/

/-- What a poll cycle captures. -/
def Env.capture (e : Env) : Capture where
  etag := (orElse e.shared.latestEtag none).getD (py "0")
  initialRefresh := e.shared.latestEtag.isNone
  generation := e.shared.datastoreSessionGeneration

/-- The moves of the poller. -/
inductive PollStep (cfg : Config) (e : Env) : PollPc → Env → PollPc → Prop where
  | start (hnative : cfg.nativeLongPoll = true) : PollStep cfg e .idle e .top
  | capture (hopen : e.shared.closed = false) : PollStep cfg e .top e (.acquiring e.capture)
  | acquire {c : Capture} (hfree : e.shared.ioBusy = false) (hwaiters : e.shared.foregroundWaiters ≤ 0) :
    PollStep cfg e (.acquiring c)
      { e with shared := { e.shared with ioBusy := true, ioOwner := some .poller } } (.owning c)
  | wait {c : Capture} : PollStep cfg e (.acquiring c) e (.acquiring c)
  | beginOk {c : Capture} (hb : e.begin (c.request cfg) choice = some (.ok (), e')) :
    PollStep cfg e (.owning c) e' (.inCall c)
  | beginFail {c : Capture} (hb : e.begin (c.request cfg) choice = some (.error exc, e')) :
    PollStep cfg e (.owning c) e' (.releasing (some exc))
  | readStarted {c : Capture} {read : Option Nat} (hcapture : c.initialRefresh = false) : PollStep cfg e (.inCall c)
      { e with shared := e.shared.setActivePollRead read } (.inCall c)
  | respond {c : Capture} (hf : e.finish (c.request cfg) choice = some (.ok response, e')) :
    PollStep cfg e (.inCall c) e' (.responded c response)
  | raise {c : Capture} (hf : e.finish (c.request cfg) choice = some (.error exc, e')) :
    PollStep cfg e (.inCall c) e' (.releasing (some exc))
  | payload : PollStep cfg e (.responded c response) (e.payloadFromResponse response).2
      (.payload c response (e.payloadFromResponse response).1)
  | publish {c : Capture} : PollStep cfg e (.payload c response p)
      (e.publish cfg (c.request cfg) p none (some c.etag) true) (.releasing none)
  | release : PollStep cfg e (.releasing exc) e.release (.handled exc)
  | loop (hopen : e.shared.closed = false) : PollStep cfg e (.handled exc) e .top
  | stop (hclosed : e.shared.closed = true) (hpc : pc = .top ∨ (∃ c, pc = .acquiring c) ∨
      ∃ exc, pc = .handled exc) : PollStep cfg e pc e .stopped

theorem acquirePollerIo_cases (s : DatastoreCoordinator) :
    (s.acquirePollerIo = (some true, { s with ioBusy := true, ioOwner := some .poller }) ∧
      s.ioBusy = false ∧ s.foregroundWaiters ≤ 0) ∨
    (s.acquirePollerIo = (some false, s) ∧ s.closed = true) ∨ s.acquirePollerIo = (none, s) := by
  unfold acquirePollerIo
  by_cases hclosed : s.closed = true
  · rw [if_pos hclosed, if_pos hclosed, ite_self]
    exact .inr (.inl ⟨rfl, hclosed⟩)
  · rw [if_neg hclosed, if_neg hclosed]
    by_cases hbusy : s.ioBusy = true ∨ 0 < s.foregroundWaiters
    · rw [if_pos hbusy]
      exact .inr (.inr rfl)
    · rw [if_neg hbusy]
      have hfree : s.ioBusy = false := by
        cases hb : s.ioBusy with
        | false => rfl
        | true => exact absurd (.inl hb) hbusy
      have hwaiters : s.foregroundWaiters ≤ 0 := by
        by_contra hw
        exact hbusy (.inr (by omega))
      exact .inl ⟨rfl, hfree, hwaiters⟩

theorem PollPc.step_cases {e e' : Env} {pc pc' : PollPc} (h : pc.step cfg e choice = some (e', pc')) :
    PollStep cfg e pc e' pc' := by
  cases pc with
  | idle =>
    simp only [PollPc.step] at h
    split at h <;> cases h
    exact .start ‹_›
  | top =>
    simp only [PollPc.step] at h
    split at h <;> cases h
    · exact .stop ‹_› (.inl rfl)
    · exact .capture (Bool.not_eq_true _ ▸ ‹¬_›)
  | acquiring c =>
    simp only [PollPc.step] at h
    rcases acquirePollerIo_cases e.shared with ⟨heq, hbusy, hw⟩ | ⟨heq, hclosed⟩ | heq <;>
      rw [heq] at h <;> cases h
    · exact .acquire hbusy hw
    · exact .stop hclosed (.inr (.inl ⟨c, rfl⟩))
    · exact .wait
  | owning c =>
    obtain ⟨⟨r, e₁⟩, hb, hr⟩ := Option.map_eq_some_iff.mp h
    cases r <;> cases hr
    · exact .beginFail hb
    · exact .beginOk hb
  | inCall c =>
    simp only [PollPc.step] at h
    split at h
    · split at h <;> cases h
      exact .readStarted (Bool.not_eq_true _ ▸ ‹¬_›)
    · obtain ⟨⟨r, e₁⟩, hf, hr⟩ := Option.map_eq_some_iff.mp h
      cases r <;> cases hr
      · exact .raise hf
      · exact .respond hf
  | responded c response => cases h; exact .payload
  | payload c response p => cases h; exact .publish
  | releasing exc => cases h; exact .release
  | handled exc =>
    cases h
    by_cases hclosed : e.shared.closed = true
    · rw [if_pos hclosed]
      exact .stop hclosed (.inr (.inr ⟨exc, rfl⟩))
    · rw [if_neg hclosed]
      exact .loop (by simpa using hclosed)
  | stopped => cases h

/-! ## The system -/

/-- The moves of the system. -/
inductive WorldStep (cfg : Config) (w : World) : Action → World → Prop where
  | tick (hlater : w.env.now ≤ later) :
    WorldStep cfg w (.tick later) { w with env := { w.env with now := later } }
  | get : WorldStep cfg w (.get path client ifNoneMatch queryFields) { w with
      clients := w.clients ++ [Coordinator.get cfg w.env.now path client ifNoneMatch queryFields] }
  | post : WorldStep cfg w (.post path jsonBody client) { w with
      clients := w.clients ++ [Coordinator.post path jsonBody client] }
  | client {i : Nat} (hc : w.clients[i]? = some c)
      (hstep : c.step cfg w.env choice = some (env', c')) :
    WorldStep cfg w (.client i choice) { w with env := env', clients := w.clients.set i c' }
  | poller (hstep : w.poller.step cfg w.env choice = some (env', poller')) :
    WorldStep cfg w (.poller choice) { w with env := env', poller := poller' }
  | close : WorldStep cfg w .close { w with env := { w.env with shared := w.env.shared.close } }
  | closeDatastore (hidle : w.inOperation = false) : WorldStep cfg w (.closeDatastore exit) { w with
      env := { w.env with managed := w.env.managed.close exit } }

theorem World.step_cases {w w' : World} (h : step cfg w a = some w') : WorldStep cfg w a w' := by
  cases a with
  | tick later =>
    simp only [step] at h
    split at h <;> cases h
    exact .tick ‹_›
  | get path client ifNoneMatch queryFields => cases h; exact .get
  | post path jsonBody client => cases h; exact .post
  | client i choice =>
    simp only [step, Option.bind_eq_bind, Option.bind_eq_some_iff] at h
    obtain ⟨c, hc, ⟨env', c'⟩, hstep, h⟩ := h
    cases h
    exact .client hc hstep
  | poller choice =>
    simp only [step, Option.bind_eq_bind, Option.bind_eq_some_iff] at h
    obtain ⟨⟨env', poller'⟩, hstep, h⟩ := h
    cases h
    exact .poller hstep
  | close => cases h; exact .close
  | closeDatastore exit =>
    simp only [step] at h
    split at h <;> cases h
    exact .closeDatastore (Bool.not_eq_true _ ▸ ‹¬_›)

/-- What a step does to a client thread. -/
theorem WorldStep.client_after {w w' : World} {i : Nat} (h : WorldStep cfg w a w')
    (hi : w.clients[i]? = some c) : ∃ c', w'.clients[i]? = some c' ∧
      ((∀ choice, a ≠ .client i choice) ∧ c' = c ∨
        ∃ choice env', a = .client i choice ∧ c.step cfg w.env choice = some (env', c')) := by
  have hlt := (List.getElem?_eq_some_iff.mp hi).1
  cases h with
  | tick | poller | close | closeDatastore =>
    refine ⟨c, hi, .inl ⟨fun choice heq => ?_, rfl⟩⟩
    cases heq
  | get | post =>
    refine ⟨c, ?_, .inl ⟨fun choice heq => ?_, rfl⟩⟩
    · rw [List.getElem?_append_left hlt, hi]
    · cases heq
  | @client c₁ choice env' c' j hc hstep =>
    by_cases hij : j = i
    · subst hij
      cases hi.symm.trans hc
      exact ⟨c', List.getElem?_set_self hlt, .inr ⟨choice, env', rfl, hstep⟩⟩
    · refine ⟨c, ?_, .inl ⟨fun choice heq => ?_, rfl⟩⟩
      · rw [List.getElem?_set_ne hij, hi]
      · cases heq
        exact hij rfl

/-- A client thread was there before the step, or it is new. -/
theorem WorldStep.client_before {w w' : World} {i : Nat} (h : WorldStep cfg w a w')
    (hi : w'.clients[i]? = some c') : (∃ c, w.clients[i]? = some c) ∨
      i = w.clients.length ∧
        ((∃ path client ifNoneMatch queryFields,
            c' = Coordinator.get cfg w.env.now path client ifNoneMatch queryFields) ∨
          ∃ path jsonBody client, c' = Coordinator.post path jsonBody client) := by
  have hnew {c : Client} (hi : (w.clients ++ [c])[i]? = some c') :
      (∃ c, w.clients[i]? = some c) ∨ i = w.clients.length ∧ c' = c := by
    rcases Nat.lt_trichotomy i w.clients.length with hlt | heq | hgt
    · exact .inl ⟨_, List.getElem?_eq_getElem hlt⟩
    · rw [heq, List.getElem?_concat_length] at hi
      exact .inr ⟨heq, (Option.some.inj hi).symm⟩
    · have := (List.getElem?_eq_some_iff.mp hi).1
      simp only [List.length_append, List.length_singleton] at this
      omega
  cases h with
  | tick | poller | close | closeDatastore => exact .inl ⟨_, hi⟩
  | get => exact (hnew hi).imp_right fun ⟨heq, hc⟩ => ⟨heq, .inl ⟨_, _, _, _, hc⟩⟩
  | post => exact (hnew hi).imp_right fun ⟨heq, hc⟩ => ⟨heq, .inr ⟨_, _, _, hc⟩⟩
  | @client c choice env' c' j hc hstep =>
    rw [List.getElem?_set] at hi
    split at hi
    · rename_i hij
      exact .inl ⟨c, hij ▸ hc⟩
    · exact .inl ⟨_, hi⟩

/-- A client after a step was there before, is new, or is the one that has moved. -/
theorem step_client {w w' : World} (h : step cfg w a = some w') (hc : c' ∈ w'.clients) :
    c' ∈ w.clients ∨
    (∃ path client ifNoneMatch queryFields, a = .get path client ifNoneMatch queryFields ∧
      c' = get cfg w.env.now path client ifNoneMatch queryFields) ∨
    (∃ path jsonBody client, a = .post path jsonBody client ∧ c' = post path jsonBody client) ∨
    ∃ i choice c, a = .client i choice ∧ w.clients[i]? = some c ∧
      c.step cfg w.env choice = some (w'.env, c') := by
  cases World.step_cases h with
  | tick | poller | close | closeDatastore => exact .inl hc
  | get =>
    rcases List.mem_append.mp hc with hc | hc
    · exact .inl hc
    · exact .inr (.inl ⟨_, _, _, _, rfl, List.mem_singleton.mp hc⟩)
  | post =>
    rcases List.mem_append.mp hc with hc | hc
    · exact .inl hc
    · exact .inr (.inr (.inl ⟨_, _, _, rfl, List.mem_singleton.mp hc⟩))
  | client hi hstep =>
    rcases List.mem_or_eq_of_mem_set hc with hc | rfl
    · exact .inl hc
    · exact .inr (.inr (.inr ⟨_, _, _, rfl, hi, hstep⟩))

end Coordinator

end MotuProxy
