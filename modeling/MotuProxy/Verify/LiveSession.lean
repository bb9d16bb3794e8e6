import MotuProxy.Verify.Publication
import MotuProxy.Verify.WaitOutcome

/-! # Which session a waiter is served from

The generation of the session grows when a request opens a new one; the coordinator drops what it
has from the old session only once that request is answered. The last pass of a waiter is decided by
data of the session that is open if and only if the coordinator has caught up with the generation, or
has no data at all.
-/

namespace MotuProxy

open Py Protocol Responses

namespace Coordinator

open Datastore (ManagedDatastore)
open DatastoreCoordinator

/-! ## The generation never decreases -/

theorem ensureSession_generation_le (d : ManagedDatastore) :
    d.sessionGeneration ≤ (d.ensureSession now later opener).2.sessionGeneration := by
  unfold ManagedDatastore.ensureSession
  split
  · exact le_rfl
  · split
    · exact le_rfl
    · split
      · simp only
        split <;> exact le_rfl
      · simp only
        split
        · split <;> exact le_rfl
        · exact Nat.le_succ _

theorem rememberResponseState_generation (d : ManagedDatastore) :
    d.rememberResponseState.sessionGeneration = d.sessionGeneration := by
  unfold ManagedDatastore.rememberResponseState
  split <;> rfl

theorem callRaised_generation (d : ManagedDatastore) :
    (d.callRaised now exc cleared exit).2.sessionGeneration = d.sessionGeneration := by
  have hgen := rememberResponseState_generation { d with datastore := d.datastore.map fun session =>
    if cleared then {} else session }
  unfold ManagedDatastore.callRaised
  generalize ManagedDatastore.rememberResponseState _ = d' at hgen ⊢
  split
  · simp only
    split <;> exact hgen
  · exact hgen

section
variable {e e' : Env} {request : Request}

theorem Env.begin_generation_le (h : e.begin request choice = some (r, e')) :
    e.managed.sessionGeneration ≤ e'.managed.sessionGeneration := by
  cases r with
  | ok _ =>
    obtain ⟨later, exc, -, hens, -⟩ := Env.begin_ok h
    have := @ensureSession_generation_le e.now later exc e.managed
    rwa [hens] at this
  | error _ =>
    obtain ⟨later, exc, hens, -⟩ := Env.begin_error h
    have := @ensureSession_generation_le e.now later exc e.managed
    rwa [hens] at this

theorem Env.finish_generation (h : e.finish request choice = some (r, e')) :
    e'.managed.sessionGeneration = e.managed.sessionGeneration := by
  cases r with
  | ok _ =>
    rw [Env.finish_ok h]
    exact callReturned_generation _
  | error _ =>
    obtain ⟨_, _, _, rfl⟩ := Env.finish_error h
    exact callRaised_generation _

theorem IoStep.generation_le {c c' : IoCall} (h : IoStep cfg e c choice e' c') :
    e.managed.sessionGeneration ≤ e'.managed.sessionGeneration := by
  cases h with
  | acquire | exceed | wait | payload | publishRead | refreshPayload | publishRefresh | release =>
    exact le_rfl
  | beginOk _ hb | beginFail _ hb | refreshBegin _ _ hb | refreshBeginFail _ _ hb =>
    exact Env.begin_generation_le hb
  | respond _ hf | raise _ hf | refreshRespond _ hf | refreshRaise _ hf =>
    exact (Env.finish_generation hf).ge

theorem PollStep.generation_le {pc pc' : PollPc} (h : PollStep cfg e pc e' pc') :
    e.managed.sessionGeneration ≤ e'.managed.sessionGeneration := by
  cases h with
  | start | capture | acquire | wait | readStarted | payload | publish | release | loop | stop =>
    exact le_rfl
  | beginOk hb | beginFail hb => exact Env.begin_generation_le hb
  | respond hf | raise hf => exact (Env.finish_generation hf).ge

end

theorem step_generation_le {w w' : World} (h : step cfg w a = some w') :
    w.env.managed.sessionGeneration ≤ w'.env.managed.sessionGeneration := by
  cases a with
  | tick later =>
    simp only [step] at h
    split at h <;> cases h
    exact le_rfl
  | get path client ifNoneMatch queryFields => cases h; exact le_rfl
  | post path jsonBody client => cases h; exact le_rfl
  | client i choice =>
    simp only [step, Option.bind_eq_bind, Option.bind_eq_some_iff] at h
    obtain ⟨c, hc, ⟨env', c'⟩, hstep, h⟩ := h
    cases h
    rcases Client.step_cases hstep with ⟨call, call', -, -, hio⟩ | ⟨⟨_, _, rfl⟩, -, -⟩
    · exact hio.generation_le
    · exact le_rfl
  | poller choice =>
    simp only [step, Option.bind_eq_bind, Option.bind_eq_some_iff] at h
    obtain ⟨⟨env', poller'⟩, hstep, h⟩ := h
    cases h
    exact (PollPc.step_cases hstep).generation_le
  | close => cases h; exact le_rfl
  | closeDatastore exit =>
    simp only [step] at h
    split at h <;> cases h
    exact le_rfl

/-! ## Data of a session -/

/-- The payload of a response that was received and published on a session. -/
def PublishedOn (log : List Event) (generation : Nat) (p : DatastorePayload) : Prop :=
  ∃ request response, .received generation request response ∈ log ∧
    .published generation request p ∈ log ∧ p = finalPayload response

/-- A transition that was recorded on a session. -/
def DatastoreTransition.RecordedOn (t : DatastoreTransition) (log : List Event) (generation : Nat) :
    Prop := ∃ p, PublishedOn log generation p ∧ p.etag = some t.toEtag ∧ p.body = t.body

theorem PublishedOn.append (h : PublishedOn log generation p) :
    PublishedOn (log ++ events) generation p := by
  obtain ⟨request, response, hreceived, hpublished, hp⟩ := h
  exact ⟨request, response, List.mem_append_left _ hreceived, List.mem_append_left _ hpublished, hp⟩

theorem DatastoreTransition.RecordedOn.append {t : DatastoreTransition}
    (h : t.RecordedOn log generation) : t.RecordedOn (log ++ events) generation := by
  obtain ⟨p, hp, hetag, hbody⟩ := h
  exact ⟨p, hp.append, hetag, hbody⟩

/-- What decides a pass of a waiter is of the open session: the transition that is found, or else
the latest ETag that it is compared with. -/
def WaitCall.DecidedLive (e : Env) (call : WaitCall) : Prop :=
  match e.shared.findWaitOutcomeLocked call.args.etag (clientString call.args.client) with
  | (some t, _) => t.RecordedOn e.log e.managed.sessionGeneration
  | (none, _) => ∀ etag, e.shared.latestEtag = some etag →
    ∃ p, PublishedOn e.log e.managed.sessionGeneration p ∧ p.etag = some etag

/-- The waiter leaves the loop in its next pass: there is something for it, or its time is over. -/
def WaitCall.LastPass (e : Env) (call : WaitCall) : Prop :=
  call.pc = .loop ∧
    (e.shared.findWaitOutcomeLocked call.args.etag (clientString call.args.client) ≠ (none, false) ∨
      call.deadline - e.now ≤ 0 ∨ e.shared.closed = true)

/-- The passes that are the last are those that answer the waiter, or go on to the read that does. -/
theorem WaitCall.lastPass_iff {e : Env} {call : WaitCall} (hpc : call.pc = .loop) :
    call.LastPass e ↔
      (∃ p, (e.shared.waitForChange cfg e.now call.args call.deadline).1 = .answer p) ∨
      (e.shared.waitForChange cfg e.now call.args call.deadline).1 = .read := by
  unfold WaitCall.LastPass waitForChange
  rcases e.shared.findWaitOutcomeLocked call.args.etag (clientString call.args.client) with
    ⟨_ | t, shouldRefresh⟩
  · cases shouldRefresh with
    | true => simp [hpc]
    | false =>
      simp only [hpc, true_and, ne_eq, not_true_eq_false, false_or, Bool.false_eq_true, if_false]
      by_cases hover : call.deadline - e.now ≤ 0 ∨ e.shared.closed = true
      · rw [if_pos hover]
        exact ⟨fun _ => .inl ⟨_, rfl⟩, fun _ => hover⟩
      · rw [if_neg hover]
        refine ⟨fun h => absurd h hover, fun h => ?_⟩
        -- the waiter goes to sleep, or it starts a degraded refresh
        split at h
        · split at h
          · simp at h
          · split at h <;> simp at h
        · simp at h
  · by_cases hserved : call.args.path = pollPath ∧ longPollQueryFieldsCacheable call.args.queryFields
    · simp [hpc, hserved]
    · simp [hpc, hserved]

/-- If the action is the last pass of a waiter, it is decided by data of the open session. -/
def PassDecidedLive (w : World) (a : Action) : Prop :=
  ∀ i choice call, a = .client i choice → w.clients[i]? = some (.wait call) → call.LastPass w.env →
    call.DecidedLive w.env

/-- If the action is the last pass of a waiter, the coordinator knows the generation of the open
session, or has no ETag. -/
def PassInStep (w : World) (a : Action) : Prop :=
  ∀ i choice call, a = .client i choice → w.clients[i]? = some (.wait call) → call.LastPass w.env →
    w.env.shared.datastoreSessionGeneration = w.env.managed.sessionGeneration ∨
    w.env.shared.latestEtag = none

/-! ## The invariant -/

/-- The data of the coordinator are of the session that it has recorded, which is not later than the
open one. -/
structure OfSession (cfg : Config) (w : World) : Prop where
  sourced : Sourced cfg w
  behind : w.env.shared.datastoreSessionGeneration ≤ w.env.managed.sessionGeneration
  published : ∀ g request p, .published g request p ∈ w.env.log →
    g ≤ w.env.shared.datastoreSessionGeneration
  history : ∀ t ∈ w.env.shared.history,
    t.RecordedOn w.env.log w.env.shared.datastoreSessionGeneration
  latest : ∀ etag, w.env.shared.latestEtag = some etag →
    ∃ p, PublishedOn w.env.log w.env.shared.datastoreSessionGeneration p ∧ p.etag = some etag
  empty : w.env.shared.latestEtag = none → w.env.shared.history = []

section
variable {w w' : World}

theorem Pending.publishedOn {e : Env} (h : Pending e request p) (hetag : p.etag = some etag) :
    PublishedOn (e.publish cfg request p origin from' true).log
      (e.publish cfg request p origin from' true).shared.datastoreSessionGeneration p := by
  rcases publish_cases e cfg request p origin from' with ⟨hnone, -⟩ | ⟨_, -, -, hgen, hlog, -⟩
  · rw [hnone] at hetag
    cases hetag
  · obtain ⟨response, hreceived, hp⟩ := h.received
    rw [hgen, hlog]
    exact ⟨request, response, List.mem_append_left _ (h.generation ▸ hreceived),
      List.mem_append_right _ List.mem_cons_self, hp⟩

/-- The recorded generation after a step: the same, or that of the open session. -/
theorem DataStep.generation (h : DataStep cfg w w') :
    w'.env.shared.datastoreSessionGeneration = w.env.shared.datastoreSessionGeneration ∨
    w'.env.shared.datastoreSessionGeneration = w.env.managed.sessionGeneration := by
  cases h with
  | same hdata => exact .inl hdata.generation
  | reset hdata => exact .inr (hdata ▸ resetIfSessionGenerationChanged_generation _ _)
  | @publish request p origin from' hsource hp henv =>
    rw [henv]
    rcases publish_cases w.env cfg request p origin from' with ⟨-, heq⟩ | ⟨_, -, -, hgen, -⟩
    · exact .inl (by rw [heq])
    · exact .inl hgen

theorem OfSession.generation_le (hw : OfSession cfg w) (h : DataStep cfg w w') :
    w.env.shared.datastoreSessionGeneration ≤ w'.env.shared.datastoreSessionGeneration := by
  rcases h.generation with hgen | hgen
  · exact hgen.ge
  · exact hgen ▸ hw.behind

/-- A publication is logged under the recorded generation. -/
theorem DataStep.published (h : DataStep cfg w w') (hmem : .published g request p ∈ w'.env.log) :
    .published g request p ∈ w.env.log ∨ g = w'.env.shared.datastoreSessionGeneration := by
  cases h with
  | same hdata hlog =>
    obtain ⟨events, hlog, hexchange⟩ := hlog
    rw [hlog] at hmem
    rcases List.mem_append.mp hmem with hmem | hmem
    · exact .inl hmem
    · exact absurd (hexchange _ hmem) nofun
  | reset hdata hlog => exact .inl (hlog ▸ hmem)
  | @publish request' p' origin from' hsource hp henv =>
    rw [henv] at hmem ⊢
    rcases publish_cases w.env cfg request' p' origin from' with ⟨-, heq⟩ | ⟨_, -, -, hgen, hlog, -⟩
    · exact .inl (heq ▸ hmem)
    · rw [hlog] at hmem
      rcases List.mem_append.mp hmem with hmem | hmem
      · exact .inl hmem
      · cases List.mem_singleton.mp hmem
        exact .inr hgen.symm

/-- The data after a step: the same, or empty, or the latest ETag is that of the payload that has just
been published. -/
theorem DataStep.latest (h : DataStep cfg w w') :
    SameData w.env.shared w'.env.shared ∨
    (w'.env.shared.latestEtag = none ∧ w'.env.shared.history = [] ∧
      w'.env.shared.datastoreSessionGeneration ≠ w.env.shared.datastoreSessionGeneration) ∨
    ∃ request p origin from' etag, Publisher cfg w request p origin from' ∧ Pending w.env request p ∧
      w'.env = w.env.publish cfg request p origin from' true ∧ p.etag = some etag ∧
      w'.env.shared.latestEtag = some etag := by
  cases h with
  | same hdata => exact .inl hdata
  | reset hdata =>
    unfold resetIfSessionGenerationChanged at hdata
    split at hdata
    · exact .inl (hdata ▸ .rfl)
    · rename_i hne
      exact .inr (.inl (by rw [hdata]; exact ⟨rfl, rfl, hne⟩))
  | @publish request p origin from' hsource hp henv =>
    rcases publish_cases w.env cfg request p origin from' with ⟨-, heq⟩ | ⟨etag, hetag, hlatest, -⟩
    · exact .inl (by rw [henv, heq]; exact .rfl)
    · exact .inr (.inr ⟨request, p, origin, from', etag, hsource, hp, henv, hetag, henv ▸ hlatest⟩)

theorem OfSession.step (hw : OfSession cfg w) (h : Coordinator.step cfg w a = some w') :
    OfSession cfg w' := by
  have hdata := hw.sourced.dataStep h
  obtain ⟨events, hlog⟩ := hw.sourced.log_append h
  refine ⟨hw.sourced.step h, ?_, fun g request p hmem => ?_, ?_, fun etag hetag => ?_, fun hnone => ?_⟩
  · rcases hdata.generation with hgen | hgen
    · exact (hgen ▸ hw.behind).trans (step_generation_le h)
    · exact hgen ▸ step_generation_le h
  · rcases hdata.published hmem with hold | hnew
    · exact (hw.published g request p hold).trans (hw.generation_le hdata)
    · exact hnew.le
  · refine hdata.history (fun hgen t ht => ?_) (fun request p origin from' t _ hp henv _ hn => ?_)
      hw.history
    · rw [hgen, hlog]
      exact ht.append
    · rw [henv]
      exact ⟨p, hp.publishedOn hn.toEtag, hn.toEtag, hn.body.symm⟩
  · rcases hdata.latest with hsame | ⟨hreset, -, -⟩ | ⟨_, p, _, _, etag', -, hp, henv, hetag', hlatest⟩
    · rw [hsame.latestEtag] at hetag
      obtain ⟨p, hp, hpe⟩ := hw.latest etag hetag
      rw [hsame.generation, hlog]
      exact ⟨p, hp.append, hpe⟩
    · rw [hreset] at hetag
      cases hetag
    · cases hlatest.symm.trans hetag
      rw [henv]
      exact ⟨p, hp.publishedOn hetag', hetag'⟩
  · rcases hdata.latest with hsame | ⟨-, hempty, -⟩ | ⟨_, _, _, _, _, -, -, -, -, hlatest⟩
    · exact hsame.history.trans (hw.empty (hsame.latestEtag ▸ hnone))
    · exact hempty
    · rw [hlatest] at hnone
      cases hnone

theorem OfSession.init (managed : ManagedDatastore) : OfSession cfg (World.init managed) :=
  ⟨.init managed, le_rfl, nofun, nofun, nofun, fun _ => rfl⟩

/-- Nothing has been published on a session that the coordinator does not know. -/
theorem OfSession.publishedOn (hw : OfSession cfg w)
    (h : PublishedOn w.env.log w.env.managed.sessionGeneration p) :
    w.env.shared.datastoreSessionGeneration = w.env.managed.sessionGeneration := by
  obtain ⟨request, _, -, hpublished, -⟩ := h
  exact le_antisymm hw.behind (hw.published _ request p hpublished)

theorem OfSession.decidedLive_iff (hw : OfSession cfg w) (call : WaitCall) :
    call.DecidedLive w.env ↔
      w.env.shared.datastoreSessionGeneration = w.env.managed.sessionGeneration ∨
      w.env.shared.latestEtag = none := by
  unfold WaitCall.DecidedLive
  split
  · rename_i t _ hfound
    have ht := (findWaitOutcomeLocked_some hfound).1
    constructor
    · rintro ⟨p, hp, -⟩
      exact .inl (hw.publishedOn hp)
    · rintro (hgen | hnone)
      · exact hgen ▸ hw.history t ht
      · rw [hw.empty hnone] at ht
        cases ht
  · constructor
    · intro hlive
      cases hetag : w.env.shared.latestEtag with
      | none => exact .inr rfl
      | some etag =>
        obtain ⟨p, hp, -⟩ := hlive etag hetag
        exact .inl (hw.publishedOn hp)
    · rintro (hgen | hnone) etag hetag
      · exact hgen ▸ hw.latest etag hetag
      · rw [hnone] at hetag
        cases hetag

end

/-- Along a run every pass in which a waiter is answered, or goes on to its read, is decided by data of
the open session, if and only if at every such pass the coordinator knows the generation of that
session or has no ETag. -/
theorem live_session_iff {managed : ManagedDatastore} {as : List Action} :
    Along (step cfg) PassInStep (World.init managed) as ↔
      Along (step cfg) PassDecidedLive (World.init managed) as := by
  refine Along.congr (I := OfSession cfg) (fun _ _ _ hw _ h => hw.step h) (fun w a hw => ?_)
    (.init managed)
  exact forall₅_congr fun i choice call _ _ => imp_congr_right fun _ => (hw.decidedLive_iff call).symm

/-! ## A waiter that is served from a dead session -/

/-- Two reads record a transition, the device is lost in a third, and the fourth has opened a new
session and waits for its answer when a waiter arrives. -/
def reopenedRun : List Action :=
  [.get pollPath none none none, .client 0 .go, .client 0 (.opener none 0),
    .client 0 (.respond (bytesOf "HTTP/1.1 200 OK\r\nETag: 7\r\n\r\nA")), .client 0 .go, .client 0 .go,
    .client 0 .go,
    .get pollPath none none none, .client 1 .go, .client 1 (.opener none 0),
    .client 1 (.respond (bytesOf "HTTP/1.1 200 OK\r\nETag: 8\r\n\r\nB")), .client 1 .go, .client 1 .go,
    .client 1 .go,
    .get pollPath none none none, .client 2 .go, .client 2 (.opener none 0),
    .client 2 (.raise ⟨.osError 19, []⟩ true none), .client 2 .go,
    .get pollPath none none none, .client 3 .go, .client 3 (.opener none 0),
    .get pollPath none (some (py "7")) none]

/-- The waiter is answered a transition of the first session while the second one is open. -/
theorem live_session_stale :
    ∃ w w' call, run (step {}) (World.init (.init 0 0 0)) reopenedRun = some w ∧
      step {} w (.client 4 .go) = some w' ∧ w.env.managed.sessionGeneration = 2 ∧
      w'.clients[4]? = some (.wait call) ∧ call.answer?.map (·.body) = some (bytesOf "B") ∧
      ¬Along (step {}) PassDecidedLive (World.init (.init 0 0 0)) (reopenedRun ++ [.client 4 .go]) := by
  have hbefore : (run (step {}) (World.init (.init 0 0 0)) reopenedRun).map (fun w =>
      (w.env.managed.sessionGeneration, w.env.shared.datastoreSessionGeneration,
        w.env.shared.latestEtag, decide (w.env.shared.findWaitOutcomeLocked (py "7") none ≠ (none, false)),
        w.clients[4]?)) = some (2, 1, some (py "8"), true,
          some (.wait { args := { path := pollPath, etag := py "7" }, deadline := 31 / 2 })) := by
    decide +kernel
  have hafter : (run (step {}) (World.init (.init 0 0 0)) (reopenedRun ++ [.client 4 .go])).map
      (·.clients[4]?) = some (some (.wait {
        args := { path := pollPath, etag := py "7" }, deadline := 31 / 2
        pc := .done {
          body := bytesOf "B", etag := some (py "8")
          contentType := some (py "application/octet-stream") } })) := by decide +kernel
  obtain ⟨w, hw, hfacts⟩ := Option.map_eq_some_iff.mp hbefore
  obtain ⟨hgen, hfacts⟩ := Prod.mk.inj hfacts
  obtain ⟨hshared, hfacts⟩ := Prod.mk.inj hfacts
  obtain ⟨hlatest, hfacts⟩ := Prod.mk.inj hfacts
  obtain ⟨hfound, hwaiter⟩ := Prod.mk.inj hfacts
  obtain ⟨w', hrun, hanswer⟩ := Option.map_eq_some_iff.mp hafter
  obtain ⟨w₁, hw₁, hrun⟩ := run_append.mp hrun
  cases hw₁.symm.trans hw
  obtain ⟨w₂, hstep, hrun⟩ := run_cons.mp hrun
  cases hrun
  refine ⟨w, w', _, hw, hstep, hgen, hanswer, rfl, fun halong => ?_⟩
  have hofSession : OfSession {} w :=
    run_invariant_of_step (fun _ _ _ hw h => hw.step h) (.init _) hw
  rcases (hofSession.decidedLive_iff _).mp (halong.last hw 4 .go _ rfl hwaiter
    ⟨rfl, .inl (of_decide_eq_true hfound)⟩) with h | h
  · rw [hgen, hshared] at h
    cases h
  · rw [hlatest] at h
    cases h

end Coordinator

end MotuProxy
