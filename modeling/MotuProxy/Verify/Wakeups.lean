import Mathlib.Tactic.Linarith
import MotuProxy.Model.Wakeups
import MotuProxy.Verify.Monitor

/-! # No wake-up is lost

A blocked thread waits for something that its last pass has read. `Keeps` says that a step without a
notification leaves alone whatever such a pass can depend on, so a thread that is still blocked
would only wait again. The one exception is time: a waiter of a degraded refresh sleeps for at least
a millisecond, so it may be that much late.
-/

namespace MotuProxy

open Py Protocol Responses

namespace Coordinator

open Datastore (ManagedDatastore)
open DatastoreCoordinator

/-! ## What a step without a notification keeps -/

/-- Nothing has happened that a blocked thread waits for. -/
structure Keeps (s s' : DatastoreCoordinator) : Prop where
  busy : s.ioBusy = true → s'.ioBusy = true ∧ s'.ioOwner = s.ioOwner
  waiters : 0 < s.foregroundWaiters → 0 < s'.foregroundWaiters
  active : s'.activePollRead = s.activePollRead
  cancel : s.activePollCancelRequested = true → s'.activePollCancelRequested = true
  history : s'.history = s.history
  latestEtag : s'.latestEtag = s.latestEtag
  closed : s'.closed = s.closed
  refresh : s.degradedRefreshInProgress = true → s'.degradedRefreshInProgress = true
  next : s'.degradedRefreshInProgress = true ∨ s'.nextDegradedRefresh = s.nextDegradedRefresh

theorem Keeps.refl {s : DatastoreCoordinator} : Keeps s s :=
  ⟨fun h => ⟨h, rfl⟩, id, rfl, id, rfl, rfl, rfl, id, .inr rfl⟩

theorem Keeps.of_eq {s s' : DatastoreCoordinator} (h : s' = s) : Keeps s s' := h ▸ .refl

/-- A wait for the I/O, and what its pass leaves behind. -/
theorem acquireForegroundIo_wait {s s' : DatastoreCoordinator}
    (h : s.acquireForegroundIo cfg now deadline = (.wait deadline', s')) :
    s.ioBusy = true ∧ ∃ requested, s' = { s with activePollCancelRequested := requested } ∧
      (s.activePollCancelRequested = true → requested = true) ∧
      (s.ioOwner = some .poller → s.activePollRead = none ∨ requested = true) := by
  unfold acquireForegroundIo requestActivePollCancelLocked at h
  split at h
  · cases h
  · rename_i hbusy
    refine ⟨by simpa using hbusy, ?_⟩
    split at h
    · rename_i howner
      by_cases hcancel : s.activePollRead.isNone ∨ s.activePollCancelRequested = true
      · simp only [if_pos hcancel] at h
        have hs : s' = s := by
          split at h
          · split at h <;> cases h
            rfl
          · cases h
            rfl
        exact ⟨s.activePollCancelRequested, hs, id,
          fun _ => hcancel.imp_left Option.isNone_iff_eq_none.mp⟩
      · simp only [if_neg hcancel] at h
        have hs : s' = { s with activePollCancelRequested := true } := by
          split at h
          · split at h <;> cases h
            rfl
          · cases h
            rfl
        exact ⟨true, hs, fun _ => rfl, fun _ => .inr rfl⟩
    · rename_i howner
      cases h
      exact ⟨s.activePollCancelRequested, rfl, id, fun h => absurd h howner⟩

theorem publishPayload_keeps {s : DatastoreCoordinator}
    (h : (payload.etag.isSome && recordTransition) = false) :
    Keeps s (s.publishPayload cfg payload originClient fromEtag recordTransition) := by
  refine .of_eq ?_
  unfold publishPayload
  split
  · rfl
  · rename_i hetag
    rw [hetag] at h
    exact if_pos (by simpa using h)

theorem Env.payloadFromResponse_keeps {e : Env} (response : Bytes) (h : e.resets = false) :
    Keeps e.shared (e.payloadFromResponse response).2.shared := by
  refine .of_eq (if_pos ?_)
  simpa [Env.resets] using h

theorem Env.begin_keeps {e e' : Env} {r : Except Exn Unit}
    (h : e.begin request choice = some (r, e')) : Keeps e.shared e'.shared := by
  cases r with
  | ok u =>
    obtain ⟨-, -, -, -, hs, -⟩ := Env.begin_ok h
    exact .of_eq hs
  | error exc =>
    obtain ⟨-, -, -, hs, -⟩ := Env.begin_error h
    exact .of_eq hs

theorem Env.finish_keeps {e e' : Env} {r : Except Exn Bytes}
    (h : e.finish request choice = some (r, e')) : Keeps e.shared e'.shared := by
  cases r with
  | ok response => cases Env.finish_ok h; exact .refl
  | error exc =>
    obtain ⟨_, _, _, rfl⟩ := Env.finish_error h
    exact .refl

/-- A pass through `_acquire_foreground_io` that ends in a wait. -/
theorem IoCall.acquire_wait {e e' : Env} {c c' : IoCall} {deadline' : Option ℚ}
    (h : IoCall.acquire cfg e c deadline = (e', c')) (hpc : c'.pc = .acquiring deadline') :
    e.shared.acquireForegroundIo cfg e.now deadline = (.wait deadline', e'.shared) ∧ e'.now = e.now := by
  unfold IoCall.acquire at h
  split at h <;> cases h
  · cases hpc
  · cases hpc
  · rename_i heq
    cases hpc
    exact ⟨heq, rfl⟩

theorem IoCall.step_keeps {e e' : Env} {c c' : IoCall} (h : c.step cfg e choice = some (e', c'))
    (hn : c.notifies e c' = false) : Keeps e.shared e'.shared := by
  unfold IoCall.notifies at hn
  unfold IoCall.step at h
  split at h <;> rename_i hpc <;> simp only [hpc] at hn
  · cases hn
  · cases hc : c'.pc with
    | acquiring deadline' =>
      obtain ⟨hacq, -⟩ := IoCall.acquire_wait (Option.some.inj h) hc
      obtain ⟨-, requested, hs, hcancel, -⟩ := acquireForegroundIo_wait hacq
      rw [hs]
      exact ⟨fun h => ⟨h, rfl⟩, id, rfl, hcancel, rfl, rfl, rfl, id, .inr rfl⟩
    | _ => simp [hc] at hn
  · obtain ⟨⟨r, e₁⟩, hb, hr⟩ := Option.map_eq_some_iff.mp h
    cases r <;> cases hr <;> exact Env.begin_keeps hb
  · obtain ⟨⟨r, e₁⟩, hf, hr⟩ := Option.map_eq_some_iff.mp h
    cases r <;> cases hr <;> exact Env.finish_keeps hf
  · rename_i response
    cases h
    exact Env.payloadFromResponse_keeps response hn
  · split at h <;> rename_i hjob <;> simp only [hjob] at hn
    · cases h
      exact publishPayload_keeps hn
    · obtain ⟨⟨r, e₁⟩, hb, hr⟩ := Option.map_eq_some_iff.mp h
      cases r <;> cases hr <;> exact Env.begin_keeps hb
  · obtain ⟨⟨r, e₁⟩, hf, hr⟩ := Option.map_eq_some_iff.mp h
    cases r <;> cases hr <;> exact Env.finish_keeps hf
  · rename_i response
    cases h
    exact Env.payloadFromResponse_keeps response hn
  · split at h
    · cases h
    · cases h
      exact publishPayload_keeps (by rw [hn]; rfl)
  · cases hn
  · cases h

theorem waitForChange_keeps (s : DatastoreCoordinator) (cfg : Config) (now : ℚ) (a : WaitArgs)
    (deadline : ℚ) :
    Keeps s (s.waitForChange cfg now a deadline).2 := by
  unfold waitForChange
  simp only
  split
  · split <;> exact .refl
  · split
    · exact .refl
    · split
      · exact .refl
      · split
        · split
          · exact .refl
          · split
            · exact ⟨fun h => ⟨h, rfl⟩, id, rfl, id, rfl, rfl, rfl, fun _ => rfl, .inl rfl⟩
            · exact .refl
        · exact .refl

theorem Client.step_keeps {e e' : Env} {c c' : Client} (h : c.step cfg e choice = some (e', c'))
    (hn : c.notifies e c' = false) : Keeps e.shared e'.shared := by
  cases c with
  | io call =>
    obtain ⟨⟨e₁, call₁⟩, hstep, hr⟩ := Option.map_eq_some_iff.mp h
    cases hr
    exact IoCall.step_keeps hstep hn
  | wait c =>
    obtain ⟨⟨e₁, c₁⟩, hstep, hr⟩ := Option.map_eq_some_iff.mp h
    cases hr
    unfold WaitCall.step at hstep
    split at hstep
    · have hkeeps := waitForChange_keeps e.shared cfg e.now c.args c.deadline
      split at hstep <;> cases hstep <;> rename_i heq <;> rw [heq] at hkeeps <;> exact hkeeps
    · rename_i call hpc
      split at hstep
      · cases hstep
        exact .refl
      · obtain ⟨⟨e₂, call₂⟩, hcall, hr⟩ := Option.map_eq_some_iff.mp hstep
        cases hr
        exact IoCall.step_keeps hcall (by simpa [Client.notifies, hpc] using hn)
    · rename_i result hpc
      simp [Client.notifies, hpc] at hn
    · rename_i call hpc
      obtain ⟨⟨e₂, call₂⟩, hcall, hr⟩ := Option.map_eq_some_iff.mp hstep
      cases hr
      exact IoCall.step_keeps hcall (by simpa [Client.notifies, hpc] using hn)
    · cases hstep
    · cases hstep

theorem PollPc.step_keeps {e e' : Env} {pc pc' : PollPc} (h : pc.step cfg e choice = some (e', pc'))
    (hn : pc.notifies e choice = false) : Keeps e.shared e'.shared := by
  have hstep := PollPc.step_cases h
  cases hstep with
  | start | capture | wait | loop | stop => exact .refl
  | acquire hfree =>
    refine ⟨fun hbusy => ?_, id, rfl, id, rfl, rfl, rfl, id, .inr rfl⟩
    cases hfree.symm.trans hbusy
  | beginOk hb | beginFail hb => exact Env.begin_keeps hb
  | respond hf | raise hf => exact Env.finish_keeps hf
  | readStarted =>
    cases choice with
    | readStarted read => cases hn
    | _ => simp [PollPc.step, Env.finish] at h
  | payload => exact Env.payloadFromResponse_keeps _ hn
  | publish =>
    rw [Env.publish_shared]
    exact publishPayload_keeps ((Bool.and_true _).trans hn)
  | release => cases hn

/-! ## Blocked threads -/

/-- What a blocked client thread waits for has not happened. -/
inductive Client.Blocked (cfg : Config) (s : DatastoreCoordinator) : Client → Option ℚ → Prop where
  | acquiring (hcall : c.call? = some call) (hpc : call.pc = .acquiring deadline)
    (hbusy : s.ioBusy = true)
    (hcancel : s.ioOwner = some .poller →
      s.activePollRead = none ∨ s.activePollCancelRequested = true) :
    Client.Blocked cfg s c (if s.ioOwner = some .poller then deadline else none)
  | loop {w : WaitCall} (hpc : w.pc = .loop)
    (hnone : s.findWaitOutcomeLocked w.args.etag (clientString w.args.client) = (none, false))
    (hopen : s.closed = false) (hle : expires ≤ w.deadline)
    (hrefresh : cfg.nativeLongPoll = true ∨ s.degradedRefreshInProgress = true ∨
      expires ≤ s.nextDegradedRefresh + 1 / 1000) :
    Client.Blocked cfg s (.wait w) (some expires)

theorem Client.Blocked.keeps {s s' : DatastoreCoordinator} {c : Client} {expires : Option ℚ}
    (h : c.Blocked cfg s expires) (hk : Keeps s s') : c.Blocked cfg s' expires := by
  cases h with
  | acquiring hcall hpc hbusy hcancel =>
    obtain ⟨hbusy', howner⟩ := hk.busy hbusy
    rw [← howner] at hcancel ⊢
    exact .acquiring hcall hpc hbusy' fun h => (hcancel h).imp hk.active.trans hk.cancel
  | loop hpc hnone hopen hle hrefresh =>
    refine .loop hpc ?_ (hk.closed.trans hopen) hle ?_
    · unfold findWaitOutcomeLocked at hnone ⊢
      rw [hk.history, hk.latestEtag]
      exact hnone
    · rcases hrefresh with hnative | hprogress | hle'
      · exact .inl hnative
      · exact .inr (.inl (hk.refresh hprogress))
      · refine .inr (hk.next.imp_right fun h => ?_)
        rw [h]
        exact hle'


theorem IoCall.step_of_entering {e : Env} {c : IoCall}
    (h : c.pc.entering e.shared = some (s, deadline)) :
    c.step cfg e choice = some (IoCall.acquire cfg { e with shared := s } c deadline) := by
  unfold IoCall.step
  cases hpc : c.pc with
  | start | acquiring deadline =>
    rw [hpc] at h
    cases h
    rfl
  | _ =>
    rw [hpc] at h
    cases h

/-- A step that leaves an operation in `_acquire_foreground_io` is a pass that waits. -/
theorem IoCall.step_acquiring {e e' : Env} {c c' : IoCall} (h : c.step cfg e choice = some (e', c'))
    (hpc : c'.pc = .acquiring deadline') : ∃ (s : DatastoreCoordinator) (deadline : Option ℚ),
      s.acquireForegroundIo cfg e.now deadline = (.wait deadline', e'.shared) := by
  have hstep := IoCall.step_cases h
  cases hstep with
  | wait hentering =>
    rw [IoCall.step_of_entering hentering] at h
    exact ⟨_, _, (IoCall.acquire_wait (Option.some.inj h) hpc).1⟩
  | _ => cases hpc

theorem IoCall.waiting_blocked {e e' : Env} {c c' : IoCall} {client : Client}
    (h : c.step cfg e choice = some (e', c')) (hw : c'.waiting e' = .blocked expires)
    (hcall : client.call? = some c') : client.Blocked cfg e'.shared expires := by
  unfold IoCall.waiting at hw
  split at hw
  · rename_i deadline hpc
    obtain ⟨s, d, hacq⟩ := IoCall.step_acquiring h hpc
    obtain ⟨hbusy, requested, hs, -, hcancel⟩ := acquireForegroundIo_wait hacq
    cases hw
    refine .acquiring hcall hpc ?_ ?_
    · rw [hs]
      exact hbusy
    · rw [hs]
      exact hcancel
  · cases hw

/-- A pass of `wait_for_change` that waits. -/
theorem waitForChange_wait {s s' : DatastoreCoordinator}
    (h : s.waitForChange cfg now a deadline = (.wait, s')) :
    s' = s ∧ s.findWaitOutcomeLocked a.etag (clientString a.client) = (none, false) ∧
      s.closed = false ∧ (cfg.nativeLongPoll = true ∨
        s.degradedRefreshInProgress = true ∨ now < s.nextDegradedRefresh) := by
  unfold waitForChange at h
  cases hfind : s.findWaitOutcomeLocked a.etag (clientString a.client) with
  | mk transition shouldRefresh =>
    simp only [hfind] at h
    split at h
    · split at h <;> cases h
    · split at h
      · cases h
      · rename_i hrefresh
        split at h
        · cases h
        · rename_i htime
          have hclosed := (not_or.mp htime).2
          have hnone : shouldRefresh = false := by simpa using hrefresh
          rw [hnone]
          split at h
          · split at h
            · rename_i hprogress
              cases h
              exact ⟨rfl, rfl, by simpa using hclosed, .inr (.inl hprogress)⟩
            · split at h
              · cases h
              · rename_i hnext
                cases h
                exact ⟨rfl, rfl, by simpa using hclosed, .inr (.inr (not_le.mp hnext))⟩
          · rename_i hnative
            cases h
            exact ⟨rfl, rfl, by simpa using hclosed, .inl (by simpa using hnative)⟩

/-- The timeout of a waiter's wait is over by its deadline, and without a degraded refresh in
progress at most a millisecond after the next one is due. -/
theorem WaitCall.expires_le {c : WaitCall} {e : Env}
    (hcase : cfg.nativeLongPoll = true ∨ e.shared.degradedRefreshInProgress = true ∨
      e.now < e.shared.nextDegradedRefresh) :
    c.expires cfg e ≤ c.deadline ∧ (cfg.nativeLongPoll = true ∨
      e.shared.degradedRefreshInProgress = true ∨
      c.expires cfg e ≤ e.shared.nextDegradedRefresh + 1 / 1000) := by
  unfold WaitCall.expires
  split
  · rename_i h
    exact ⟨le_rfl, h.imp_right .inl⟩
  · rename_i h
    obtain ⟨hnative, hprogress⟩ := not_or.mp h
    have hnext : e.now < e.shared.nextDegradedRefresh :=
      (hcase.resolve_left hnative).resolve_left hprogress
    have hleft := min_le_left (c.deadline - e.now)
      (max (1 / 1000) (e.shared.nextDegradedRefresh - e.now))
    have hright := min_le_right (c.deadline - e.now)
      (max (1 / 1000) (e.shared.nextDegradedRefresh - e.now))
    refine ⟨by linarith, .inr (.inr ?_)⟩
    rcases max_cases (1 / 1000 : ℚ) (e.shared.nextDegradedRefresh - e.now) with ⟨hmax, -⟩ | ⟨hmax, -⟩ <;>
      linarith

/-- A step of a client thread that ends in a wait leaves it waiting for something. -/
theorem Client.waiting_blocked {e e' : Env} {c c' : Client} (h : c.step cfg e choice = some (e', c'))
    (hw : Client.waiting cfg e' c c' = .blocked expires) : c'.Blocked cfg e'.shared expires := by
  cases c with
  | io call =>
    obtain ⟨⟨e₁, call₁⟩, hstep, hr⟩ := Option.map_eq_some_iff.mp h
    cases hr
    exact IoCall.waiting_blocked hstep hw rfl
  | wait c =>
    obtain ⟨⟨e₁, c₁⟩, hstep, hr⟩ := Option.map_eq_some_iff.mp h
    cases hr
    unfold WaitCall.step at hstep
    split at hstep
    · rename_i hpc
      split at hstep <;> cases hstep <;> rename_i heq
      · cases hw
      · cases hw
      · cases hw
      · obtain ⟨rfl, hnone, hopen, hcase⟩ := waitForChange_wait heq
        simp only [Client.waiting, Client.loops, hpc, if_true] at hw
        cases hw
        obtain ⟨hle, hrefresh⟩ := WaitCall.expires_le hcase
        exact .loop hpc hnone hopen hle hrefresh
    · rename_i call hpc
      split at hstep
      · cases hstep
        cases hw
      · obtain ⟨⟨e₂, call₂⟩, hcall, hr⟩ := Option.map_eq_some_iff.mp hstep
        cases hr
        exact IoCall.waiting_blocked hcall hw rfl
    · rename_i result hpc
      split at hstep <;> cases hstep
      · simp [Client.waiting, Client.loops, hpc] at hw
      · rename_i exc
        cases hexc : isRefreshFailure exc <;> simp [Client.waiting, Client.loops, hpc, hexc] at hw
    · rename_i call hpc
      obtain ⟨⟨e₂, call₂⟩, hcall, hr⟩ := Option.map_eq_some_iff.mp hstep
      cases hr
      exact IoCall.waiting_blocked hcall hw rfl
    · cases hstep
    · cases hstep

/-! ## The invariant -/

namespace WakeWorld

variable {cfg : Config} {pollInterval : ℚ} {w w' : WakeWorld} {a : Action}

/-- A step is one of `Model.Threads`. -/
theorem step_world (h : step cfg pollInterval w a = some w') :
    Coordinator.step cfg w.world a = some w'.world := by
  cases a with
  | client i choice =>
    simp only [step, Option.bind_eq_bind, Option.bind_eq_some_iff] at h
    obtain ⟨c, -, waiting, -, h⟩ := h
    split at h
    · obtain ⟨world, hworld, h⟩ := Option.bind_eq_some_iff.mp h
      obtain ⟨c', -, h⟩ := Option.bind_eq_some_iff.mp h
      cases h
      exact hworld
    · cases h
  | poller choice =>
    simp only [step] at h
    split at h
    · obtain ⟨world, hworld, h⟩ := Option.bind_eq_some_iff.mp h
      cases h
      exact hworld
    · cases h
  | get | post | close | tick | closeDatastore =>
    simp only [step, Option.bind_eq_bind, Option.bind_eq_some_iff] at h
    obtain ⟨world, hworld, h⟩ := h
    cases h
    exact hworld

theorem notifyAll_client {b : Bool} {i : Nat} {expires : Option ℚ}
    (h : (w.notifyAll b).clients[i]? = some (.blocked expires)) :
    b = false ∧ w.clients[i]? = some (.blocked expires) := by
  cases b with
  | false => exact ⟨rfl, h⟩
  | true =>
    obtain ⟨_, -, h⟩ := List.mem_map.mp (List.mem_of_getElem? h)
    cases h

theorem notifyAll_poller {b : Bool} {expires : Option ℚ}
    (h : (w.notifyAll b).poller = .blocked expires) : b = false ∧ w.poller = .blocked expires := by
  cases b with
  | false => exact ⟨rfl, h⟩
  | true => cases h

theorem step_client {i : Nat} {choice : Choice}
    (h : step cfg pollInterval w (.client i choice) = some w') :
    ∃ c c' waiting, w.world.clients[i]? = some c ∧ w.clients[i]? = some waiting ∧
      waiting.ready w.world.env.now = true ∧
      c.step cfg w.world.env choice = some (w'.world.env, c') ∧
      w'.world = { w.world with env := w'.world.env, clients := w.world.clients.set i c' } ∧
      w'.clients = (w.notifyAll (c.notifies w.world.env c')).clients.set i
        (Client.waiting cfg w'.world.env c c') ∧
      w'.poller = (w.notifyAll (c.notifies w.world.env c')).poller := by
  simp only [step, Option.bind_eq_bind, Option.bind_eq_some_iff] at h
  obtain ⟨c, hc, waiting, hwaiting, h⟩ := h
  split at h
  · rename_i hready
    obtain ⟨world, hworld, h⟩ := Option.bind_eq_some_iff.mp h
    obtain ⟨c', hc', h⟩ := Option.bind_eq_some_iff.mp h
    cases h
    cases World.step_cases hworld with
    | client hc₁ hstep =>
      cases hc.symm.trans hc₁
      rw [List.getElem?_set_self (List.getElem?_eq_some_iff.mp hc).1] at hc'
      cases hc'
      exact ⟨c, _, waiting, hc, hwaiting, hready, hstep, rfl, rfl, rfl⟩
  · cases h

theorem step_poller {choice : Choice} (h : step cfg pollInterval w (.poller choice) = some w') :
    w.poller.ready w.world.env.now = true ∧
      w.world.poller.step cfg w.world.env choice = some (w'.world.env, w'.world.poller) ∧
      w'.world.clients = w.world.clients ∧
      w'.clients = (w.notifyAll (w.world.poller.notifies w.world.env choice)).clients ∧
      w'.poller = PollPc.waiting pollInterval w'.world.env w.world.poller w'.world.poller := by
  simp only [step] at h
  split at h
  · rename_i hready
    obtain ⟨world, hworld, h⟩ := Option.bind_eq_some_iff.mp h
    cases h
    cases World.step_cases hworld with
    | poller hstep => exact ⟨hready, hstep, rfl, rfl, rfl⟩
  · cases h

/-- A client thread that is blocked after a step has just begun to wait, or it was blocked before
and nothing has happened that it waits for. -/
theorem client_blocked {i : Nat} {expires : Option ℚ} {c' : Client}
    (h : step cfg pollInterval w a = some w')
    (hlength : w.clients.length = w.world.clients.length)
    (hi : w'.clients[i]? = some (.blocked expires)) (hc' : w'.world.clients[i]? = some c') :
    (∃ choice c, c.step cfg w.world.env choice = some (w'.world.env, c') ∧
      Client.waiting cfg w'.world.env c c' = .blocked expires) ∨
    (w.clients[i]? = some (.blocked expires) ∧ w.world.clients[i]? = some c' ∧
      Keeps w.world.env.shared w'.world.env.shared) := by
  cases a with
  | tick later | closeDatastore exit =>
    simp only [step, Option.bind_eq_bind, Option.bind_eq_some_iff] at h
    obtain ⟨world, hworld, h⟩ := h
    cases h
    cases World.step_cases hworld
    exact .inr ⟨hi, hc', .refl⟩
  | get | post =>
    simp only [step, Option.bind_eq_bind, Option.bind_eq_some_iff] at h
    obtain ⟨world, hworld, h⟩ := h
    cases h
    cases World.step_cases hworld
    rw [List.getElem?_append] at hi hc'
    split at hi
    · rename_i hlt
      rw [if_pos (hlength ▸ hlt)] at hc'
      exact .inr ⟨hi, hc', .refl⟩
    · have := List.mem_singleton.mp (List.mem_of_getElem? hi)
      cases this
  | close =>
    simp only [step, Option.bind_eq_bind, Option.bind_eq_some_iff] at h
    obtain ⟨world, hworld, h⟩ := h
    cases h
    cases (notifyAll_client hi).1
  | poller choice =>
    obtain ⟨-, hstep, hclients, hflags, -⟩ := step_poller h
    rw [hflags] at hi
    obtain ⟨hn, hi⟩ := notifyAll_client hi
    exact .inr ⟨hi, hclients ▸ hc', PollPc.step_keeps hstep hn⟩
  | client j choice =>
    obtain ⟨c₁, c₁', waiting, hj, -, -, hstep, hworld, hflags, -⟩ := step_client h
    rw [hworld] at hc'
    rw [hflags] at hi
    by_cases hij : j = i
    · subst hij
      have hlt := (List.getElem?_eq_some_iff.mp hj).1
      rw [List.getElem?_set_self hlt] at hc'
      cases hc'
      have hlt' := (List.getElem?_eq_some_iff.mp hi).1
      rw [List.getElem?_set_self (by simpa using hlt')] at hi
      exact .inl ⟨choice, c₁, hstep, Option.some.inj hi⟩
    · rw [List.getElem?_set_ne hij] at hc' hi
      obtain ⟨hn, hi⟩ := notifyAll_client hi
      exact .inr ⟨hi, hc', Client.step_keeps hstep hn⟩

theorem acquirePollerIo_wait {s s' : DatastoreCoordinator} (h : s.acquirePollerIo = (none, s')) :
    (s.ioBusy = true ∨ 0 < s.foregroundWaiters) ∧ s.closed = false := by
  unfold acquirePollerIo at h
  split at h
  · rename_i hbusy
    split at h
    · cases h
    · rename_i hclosed
      exact ⟨hbusy, by simpa using hclosed⟩
  · split at h <;> cases h

/-- Every blocked thread waits for something that has not happened. -/
structure Awake (cfg : Config) (w : WakeWorld) : Prop where
  length : w.clients.length = w.world.clients.length
  client : ∀ (i : Nat) c expires, w.world.clients[i]? = some c →
    w.clients[i]? = some (.blocked expires) → c.Blocked cfg w.world.env.shared expires
  poller : ∀ expires, w.poller = .blocked expires →
    w.world.poller = .top ∧ expires.isSome = true ∨
    (∃ c, w.world.poller = .acquiring c) ∧ w.world.env.shared.closed = false ∧
      (w.world.env.shared.ioBusy = true ∨ 0 < w.world.env.shared.foregroundWaiters)

/-- A step of the poller that ends in a wait. -/
theorem PollPc.waiting_blocked {e e' : Env} {pc pc' : PollPc} {expires : Option ℚ}
    (h : pc.step cfg e choice = some (e', pc'))
    (hw : PollPc.waiting pollInterval e' pc pc' = .blocked expires) :
    pc' = .top ∧ expires.isSome = true ∨
    (∃ c, pc' = .acquiring c) ∧ e'.shared.closed = false ∧
      (e'.shared.ioBusy = true ∨ 0 < e'.shared.foregroundWaiters) := by
  unfold PollPc.waiting at hw
  split at hw
  · rename_i c c'
    simp only [PollPc.step] at h
    split at h <;> cases h
    rename_i heq
    obtain ⟨hbusy, hclosed⟩ := acquirePollerIo_wait heq
    have hsame : e.shared.acquirePollerIo = (none, e.shared) := by
      rcases acquirePollerIo_cases e.shared with ⟨h, -⟩ | ⟨h, -⟩ | h
      · cases h.symm.trans heq
      · cases h.symm.trans heq
      · exact h
    cases hsame.symm.trans heq
    exact .inr ⟨⟨_, rfl⟩, hclosed, hbusy⟩
  · cases hw
    exact .inl ⟨rfl, rfl⟩
  · cases hw

theorem poller_blocked {expires : Option ℚ} (h : step cfg pollInterval w a = some w')
    (hp : w'.poller = .blocked expires) :
    (∃ choice, w.world.poller.step cfg w.world.env choice = some (w'.world.env, w'.world.poller) ∧
      PollPc.waiting pollInterval w'.world.env w.world.poller w'.world.poller = .blocked expires) ∨
    (w.poller = .blocked expires ∧ w'.world.poller = w.world.poller ∧
      Keeps w.world.env.shared w'.world.env.shared) := by
  cases a with
  | tick | closeDatastore | get | post =>
    simp only [step, Option.bind_eq_bind, Option.bind_eq_some_iff] at h
    obtain ⟨world, hworld, h⟩ := h
    cases h
    cases World.step_cases hworld
    exact .inr ⟨hp, rfl, .refl⟩
  | close =>
    simp only [step, Option.bind_eq_bind, Option.bind_eq_some_iff] at h
    obtain ⟨world, hworld, h⟩ := h
    cases h
    cases (notifyAll_poller hp).1
  | poller choice =>
    obtain ⟨-, hstep, -, -, hflag⟩ := step_poller h
    exact .inl ⟨choice, hstep, hflag.symm.trans hp⟩
  | client i choice =>
    obtain ⟨c, c', waiting, -, -, -, hstep, hworld, -, hflag⟩ := step_client h
    obtain ⟨hn, hp⟩ := notifyAll_poller (hflag.symm.trans hp)
    exact .inr ⟨hp, by rw [hworld], Client.step_keeps hstep hn⟩

theorem length_step (h : step cfg pollInterval w a = some w')
    (hlength : w.clients.length = w.world.clients.length) :
    w'.clients.length = w'.world.clients.length := by
  have hnotify (b : Bool) : (w.notifyAll b).clients.length = w.clients.length := by
    cases b with
    | false => rfl
    | true => exact List.length_map _
  cases a with
  | tick | closeDatastore | get | post | close =>
    simp only [step, Option.bind_eq_bind, Option.bind_eq_some_iff] at h
    obtain ⟨world, hworld, h⟩ := h
    cases h
    cases World.step_cases hworld
    all_goals simpa [notifyAll] using hlength
  | poller choice =>
    obtain ⟨-, -, hclients, hflags, -⟩ := step_poller h
    rw [hflags, hclients, hnotify, hlength]
  | client i choice =>
    obtain ⟨c, c', waiting, -, -, -, -, hworld, hflags, -⟩ := step_client h
    rw [hflags, hworld, List.length_set, List.length_set, hnotify, hlength]

theorem Awake.step (hw : Awake cfg w) (h : step cfg pollInterval w a = some w') : Awake cfg w' := by
  refine ⟨length_step h hw.length, fun i c expires hc hi => ?_, fun expires hp => ?_⟩
  · rcases client_blocked h hw.length hi hc with ⟨choice, c₀, hstep, hwait⟩ | ⟨hi, hc, hkeeps⟩
    · exact Client.waiting_blocked hstep hwait
    · exact (hw.client i c expires hc hi).keeps hkeeps
  · rcases poller_blocked h hp with ⟨choice, hstep, hwait⟩ | ⟨hp, hpc, hkeeps⟩
    · exact PollPc.waiting_blocked hstep hwait
    · rw [hpc]
      refine (hw.poller expires hp).imp_right fun ⟨hacquiring, hopen, hbusy⟩ => ?_
      exact ⟨hacquiring, hkeeps.closed.trans hopen,
        hbusy.imp (fun hb => (hkeeps.busy hb).1) hkeeps.waiters⟩

theorem Awake.init (managed : ManagedDatastore) : Awake cfg (init managed) :=
  ⟨rfl, fun i c expires hc => by simp [WakeWorld.init, World.init] at hc, fun expires hp => by cases hp⟩

theorem awake_run {managed : ManagedDatastore} {as : List Action}
    (hrun : run (step cfg pollInterval) (init managed) as = some w) : Awake cfg w :=
  run_invariant_of_step (fun _ _ _ hw h => hw.step h) (.init managed) hrun

end WakeWorld

/-! ## What a blocked thread would do -/

/-- Another pass that finds the I/O busy and the cancellation asked for changes nothing. -/
theorem IoCall.acquire_again {e : Env} {c : IoCall} {deadline : Option ℚ}
    (hbusy : e.shared.ioBusy = true)
    (hcancel : e.shared.ioOwner = some .poller →
      e.shared.activePollRead = none ∨ e.shared.activePollCancelRequested = true)
    (htime : e.shared.ioOwner = some .poller → ∀ t, deadline = some t → e.now < t) :
    IoCall.acquire cfg e c deadline = (e, { c with pc := .acquiring deadline }) := by
  have hacq : e.shared.acquireForegroundIo cfg e.now deadline = (.wait deadline, e.shared) := by
    unfold acquireForegroundIo requestActivePollCancelLocked
    rw [if_neg (not_not_intro hbusy)]
    split
    · rename_i howner
      rw [if_pos ((hcancel howner).imp_left Option.isNone_iff_eq_none.mpr)]
      cases deadline with
      | none => rfl
      | some t =>
        have := htime howner t rfl
        simp [this]
    · rfl
  unfold IoCall.acquire
  rw [hacq]

/-- A thread that is still blocked would only wait again, unless it is a waiter whose degraded
refresh has come due within the last millisecond. -/
theorem Client.Blocked.wait_again {e : Env} {c : Client} {expires : Option ℚ}
    (h : c.Blocked cfg e.shared expires) (htime : ∀ t, expires = some t → e.now < t) :
    (∀ choice, c.step cfg e choice = some (e, c)) ∨
    c.loops = true ∧ cfg.nativeLongPoll = false ∧ e.shared.nextDegradedRefresh ≤ e.now ∧
      e.now < e.shared.nextDegradedRefresh + 1 / 1000 := by
  cases h with
  | acquiring hcall hpc hbusy hcancel =>
    rename_i call deadline
    refine .inl fun choice => ?_
    have hagain : call.step cfg e choice = some (e, call) := by
      have hpass : IoCall.acquire cfg e call deadline = (e, { call with pc := .acquiring deadline }) :=
        IoCall.acquire_again hbusy hcancel fun howner t ht =>
          htime t (by rw [if_pos howner]; exact ht)
      have hentering : call.pc.entering e.shared = some (e.shared, deadline) := by rw [hpc]; rfl
      rw [IoCall.step_of_entering hentering]
      refine (congrArg some hpass).trans ?_
      rw [← hpc]
    cases c with
    | io call' =>
      cases hcall
      simp [Client.step, hagain]
    | wait w =>
      cases hw : w.pc with
      | refresh call' | read call' =>
        simp only [Client.call?, hw, Option.some.injEq] at hcall
        subst hcall
        simp [Client.step, WaitCall.step, hw, hpc, hagain]
        rw [← hw]
      | _ => simp [Client.call?, hw] at hcall
  | loop hpc hnone hopen hle hrefresh =>
    rename_i expires w
    have hlt : e.now < expires := htime expires rfl
    have hpass (hwait : cfg.nativeLongPoll = true ∨ e.shared.degradedRefreshInProgress = true ∨
        e.now < e.shared.nextDegradedRefresh) :
        e.shared.waitForChange cfg e.now w.args w.deadline = (.wait, e.shared) := by
      have htime : ¬(w.deadline - e.now ≤ 0 ∨ e.shared.closed = true) := by
        rw [hopen]
        simp only [Bool.false_eq_true, or_false, not_le]
        linarith
      unfold waitForChange
      simp only [hnone, if_neg htime, Bool.false_eq_true, if_false]
      rcases hwait with hnative | hprogress | hnext
      · simp [hnative]
      · simp [hprogress]
      · simp [hnext]
    have hstep (hwait : cfg.nativeLongPoll = true ∨ e.shared.degradedRefreshInProgress = true ∨
        e.now < e.shared.nextDegradedRefresh) (choice : Choice) :
        (Client.wait w).step cfg e choice = some (e, .wait w) := by
      simp [Client.step, WaitCall.step, hpc, hpass hwait]
    rcases hrefresh with hnative | hprogress | hle'
    · exact .inl (hstep (.inl hnative))
    · exact .inl (hstep (.inr (.inl hprogress)))
    · by_cases hnative : cfg.nativeLongPoll = true
      · exact .inl (hstep (.inl hnative))
      · by_cases hnext : e.now < e.shared.nextDegradedRefresh
        · exact .inl (hstep (.inr (.inr hnext)))
        · refine .inr ⟨by simp [Client.loops, hpc], by simpa using hnative, not_lt.mp hnext, ?_⟩
          linarith

/-- No wake-up is lost: in every reachable state, a client thread that is blocked and whose timeout
is not over would only wait again if it looked, and so would a poller that waits for the I/O. -/
theorem no_lost_wakeup {cfg : Config} {pollInterval : ℚ} {managed : ManagedDatastore}
    {as : List Action} {w : WakeWorld}
    (hrun : run (WakeWorld.step cfg pollInterval) (.init managed) as = some w) :
    (∀ (i : Nat) c expires, w.world.clients[i]? = some c →
      w.clients[i]? = some (.blocked expires) → (∀ t, expires = some t → w.world.env.now < t) →
      (∀ choice, c.step cfg w.world.env choice = some (w.world.env, c)) ∨
      c.loops = true ∧ cfg.nativeLongPoll = false ∧
        w.world.env.shared.nextDegradedRefresh ≤ w.world.env.now ∧
        w.world.env.now < w.world.env.shared.nextDegradedRefresh + 1 / 1000) ∧
    (w.poller = .blocked none → ∀ choice,
      w.world.poller.step cfg w.world.env choice = some (w.world.env, w.world.poller)) := by
  have hw := WakeWorld.awake_run hrun
  refine ⟨fun i c expires hc hi htime => (hw.client i c expires hc hi).wait_again htime,
    fun hp choice => ?_⟩
  rcases hw.poller none hp with ⟨-, hnone⟩ | ⟨⟨capture, hpc⟩, hopen, hbusy⟩
  · cases hnone
  · have hpass : w.world.env.shared.acquirePollerIo = (none, w.world.env.shared) := by
      unfold acquirePollerIo
      rw [if_pos hbusy, hopen]
      rfl
    simp [hpc, PollPc.step, hpass]

/-- A read comes in while the poller holds the I/O. -/
def blockedRun : List Action :=
  [.poller .go, .poller .go, .poller .go, .get pollPath none none none, .client 0 .go]

theorem no_lost_wakeup_blocked :
    ∃ w c, run (WakeWorld.step {} (1 / 20)) (.init (.init 0 0 0)) blockedRun = some w ∧
      w.world.clients[0]? = some c ∧ w.clients[0]? = some (.blocked none) ∧
      ∀ choice, c.step {} w.world.env choice = some (w.world.env, c) := by
  have hfacts : (run (WakeWorld.step {} (1 / 20)) (.init (.init 0 0 0)) blockedRun).map
      (fun w => (w.clients[0]?, w.world.clients[0]?.map Client.loops)) =
      some (some (.blocked none), some false) := by decide +kernel
  obtain ⟨w, hw, hfacts⟩ := Option.map_eq_some_iff.mp hfacts
  obtain ⟨hflag, hloops⟩ := Prod.mk.inj hfacts
  obtain ⟨c, hc, hloops⟩ := Option.map_eq_some_iff.mp hloops
  refine ⟨w, c, hw, hc, hflag, ?_⟩
  refine ((no_lost_wakeup hw).1 0 c none hc hflag fun t ht => by cases ht).resolve_right ?_
  rintro ⟨h, -⟩
  cases hloops.symm.trans h

end Coordinator

end MotuProxy
