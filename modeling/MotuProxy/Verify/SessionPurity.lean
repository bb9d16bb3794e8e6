import MotuProxy.Verify.Publication

/-! # The history is of one session

The ETags of the history belong to the session whose generation the coordinator has recorded, as
long as no poll cycle that is answered carries an ETag over a reopen: the ETag is captured before the
I/O is acquired, the session is opened inside `get`, and the publication uses the captured ETag.
-/

namespace MotuProxy

open Py Protocol Responses

namespace Coordinator

open Datastore (ManagedDatastore)
open DatastoreCoordinator

/-! ## ETags in the log -/

/-- A response with this ETag, received on a session. -/
def Event.carries (generation : Nat) (etag : Str) : Event → Bool
  | .received g _ response => g = generation ∧ (parseDatastoreResponse response).etag = some etag
  | _ => false

def Event.publishedOn (generation : Nat) : Event → Bool
  | .published g _ _ => g = generation
  | _ => false

def Heard (log : List Event) (generation : Nat) (etag : Str) : Prop :=
  ∃ event ∈ log, event.carries generation etag = true

instance : Decidable (Heard log generation etag) :=
  inferInstanceAs (Decidable (∃ event ∈ log, event.carries generation etag = true))

def Request.etag : Request → Option Str
  | .get _ etag _ _ _ => some etag
  | .post .. => none

/-- On every session the first publication answers a request for the full state. -/
def FullFirst (log : List Event) : Prop :=
  ∀ l₁ l₂ g request p, log = l₁ ++ .published g request p :: l₂ →
    (∀ event ∈ l₁, event.publishedOn g = false) → request.etag = some (py "0")

/-- The history, the latest ETag and the first publication are of the recorded session. -/
structure SessionPure (e : Env) : Prop where
  history : ∀ t ∈ e.shared.history,
    (t.fromEtag = py "0" ∨ Heard e.log e.shared.datastoreSessionGeneration t.fromEtag) ∧
    Heard e.log e.shared.datastoreSessionGeneration t.toEtag
  latest : ∀ etag, e.shared.latestEtag = some etag →
    Heard e.log e.shared.datastoreSessionGeneration etag
  first : FullFirst e.log

theorem Heard.append (h : Heard log generation etag) : Heard (log ++ events) generation etag :=
  h.imp fun _ h => ⟨List.mem_append_left _ h.1, h.2⟩

theorem Heard.mono {log log' : List Event} (h : Heard log generation etag)
    (hlog : ∀ event ∈ log, event ∈ log') : Heard log' generation etag :=
  h.imp fun _ h => ⟨hlog _ h.1, h.2⟩

theorem Pending.heard {e : Env} (h : Pending e request p) (hetag : p.etag = some etag) :
    Heard e.log e.shared.datastoreSessionGeneration etag := by
  obtain ⟨r, hr, rfl⟩ := h.received
  rw [h.generation]
  exact ⟨_, hr, by simpa [Event.carries, finalPayload] using hetag⟩

theorem FullFirst.append {log events : List Event} (h : FullFirst log)
    (hev : ∀ g request p, .published g request p ∈ events →
      (∀ event ∈ log, event.publishedOn g = false) → request.etag = some (py "0")) :
    FullFirst (log ++ events) := by
  intro l₁ l₂ g request p heq hfirst
  rcases List.append_eq_append_iff.mp heq with ⟨a, rfl, rfl⟩ | ⟨a, rfl, htail⟩
  · exact hev g request p (by simp) fun event hmem => hfirst event (List.mem_append_left _ hmem)
  · cases a with
    | nil =>
      cases htail
      exact hev g request p List.mem_cons_self fun event hmem => hfirst event (by simpa using hmem)
    | cons x a =>
      cases htail
      exact h l₁ a g request p rfl hfirst

/-! ## Polls that are answered -/

/-- If a poll that is not the first of its session is answered with an ETag, so that its response is
published, the open session is that of the captured ETag. -/
def PollKeepsSession (w : World) (a : Action) : Prop :=
  match w.poller, a with
  | .inCall c, .poller (.respond response) => c.initialRefresh = false →
    (parseDatastoreResponse response).etag.isSome = true →
      w.env.managed.sessionGeneration = c.generation
  | _, _ => True

instance : Decidable (PollKeepsSession w a) := by
  unfold PollKeepsSession
  split <;> infer_instance

/-! ## What a poll cycle knows -/

/-- The cycle has a response with an ETag, which it is going to publish. -/
def PollPc.publishes : PollPc → Bool
  | .responded _ response => (parseDatastoreResponse response).etag.isSome
  | .payload _ _ p => p.etag.isSome
  | _ => false

theorem PollPc.owns_of_publishes {pc : PollPc} (h : pc.publishes = true) : pc.owns = true := by
  cases pc <;> first | rfl | cases h

/-- A captured ETag is of the session that was recorded then, and that is the session of a response
that is published. -/
structure Held (e : Env) (pc : PollPc) : Prop where
  captured : ∀ c, pc.capture? = some c → c.initialRefresh = false →
    (c.etag = py "0" ∨ Heard e.log c.generation c.etag) ∧
    ∃ event ∈ e.log, event.publishedOn c.generation = true
  session : ∀ c, pc.capture? = some c → c.initialRefresh = false → pc.publishes = true →
    e.managed.sessionGeneration = c.generation

theorem Held.of_none {e : Env} {pc : PollPc} (hpc : pc.capture? = none) : Held e pc where
  captured c hc := by rw [hpc] at hc; cases hc
  session c hc := by rw [hpc] at hc; cases hc

theorem Held.of_not_publishes {e : Env} {pc : PollPc} (hpublishes : pc.publishes = false)
    (hcaptured : ∀ c, pc.capture? = some c → c.initialRefresh = false →
      (c.etag = py "0" ∨ Heard e.log c.generation c.etag) ∧
      ∃ event ∈ e.log, event.publishedOn c.generation = true) : Held e pc where
  captured := hcaptured
  session _ _ _ hb := by rw [hpublishes] at hb; cases hb

theorem Held.mono {e e' : Env} {pc : PollPc} (h : Held e pc)
    (hgen : e'.managed.sessionGeneration = e.managed.sessionGeneration ∨ pc.owns = false)
    (hlog : ∀ event ∈ e.log, event ∈ e'.log) : Held e' pc where
  captured c hc hinit := by
    obtain ⟨hetag, event, hmem, hpub⟩ := h.captured c hc hinit
    exact ⟨hetag.imp_right fun hh => hh.mono hlog, event, hlog _ hmem, hpub⟩
  session c hc hinit hpublishes := by
    rcases hgen with hgen | hown
    · rw [hgen]
      exact h.session c hc hinit hpublishes
    · rw [PollPc.owns_of_publishes hpublishes] at hown
      cases hown

/-- The invariant of the runs that keep the session of their polls. -/
structure Pure (cfg : Config) (w : World) : Prop where
  sourced : Sourced cfg w
  pure : SessionPure w.env
  published : ∀ etag, w.env.shared.latestEtag = some etag →
    ∃ event ∈ w.env.log, event.publishedOn w.env.shared.datastoreSessionGeneration = true
  held : Held w.env w.poller

section
variable {w w' : World}

/-- What the publishers say about the previous ETag and about the request. -/
theorem Publisher.etag (h : Publisher cfg w request p origin from') (hw : Pure cfg w)
    (hp : Pending w.env request p) (hetag : p.etag = some newEtag) :
    (∀ etag, (from' <|> w.env.shared.latestEtag) = some etag →
      etag = py "0" ∨ Heard w.env.log w.env.shared.datastoreSessionGeneration etag) ∧
    ((∀ event ∈ w.env.log, event.publishedOn w.env.shared.datastoreSessionGeneration = false) →
      request.etag = some (py "0")) := by
  cases h with
  | read hc hcall hjob hpath hzero =>
    refine ⟨fun etag h => .inr (hw.pure.latest etag h), fun _ => ?_⟩
    unfold ReadArgs.request
    split <;> simp [Request.etag, hzero]
  | refresh => exact ⟨fun etag h => .inr (hw.pure.latest etag h), fun _ => rfl⟩
  | @poll _ response c hpc =>
    have hcap : w.poller.capture? = some c := by rw [hpc]; rfl
    cases hinit : c.initialRefresh with
    | true =>
      have hzero := hw.sourced.poller.captured c hcap hinit
      exact ⟨fun etag h => .inl (by cases h; exact hzero), fun _ => congrArg some hzero⟩
    | false =>
      obtain ⟨hheard, event, hmem, hpub⟩ := hw.held.captured c hcap hinit
      have hgen : w.env.shared.datastoreSessionGeneration = c.generation :=
        hp.generation.trans (hw.held.session c hcap hinit (by rw [hpc]; simp [PollPc.publishes, hetag]))
      rw [hgen]
      exact ⟨fun etag h => (by cases h; exact hheard), fun hno => by simp [hno event hmem] at hpub⟩

/-- What the data part of a step keeps. -/
def PureData (e : Env) : Prop :=
  SessionPure e ∧ ∀ etag, e.shared.latestEtag = some etag →
    ∃ event ∈ e.log, event.publishedOn e.shared.datastoreSessionGeneration = true

theorem Pure.exchanged {events : List Event} (hw : Pure cfg w)
    (hdata : SameData w.env.shared w'.env.shared) (hlog : w'.env.log = w.env.log ++ events)
    (hexchange : ∀ event ∈ events, event.exchange = true) : PureData w'.env := by
  have hold : ∀ event ∈ w.env.log, event ∈ w'.env.log := fun _ h => hlog ▸ List.mem_append_left _ h
  refine ⟨⟨?_, ?_, ?_⟩, ?_⟩
  · rw [hdata.history, hdata.generation]
    intro t ht
    exact ⟨(hw.pure.history t ht).1.imp_right fun h => h.mono hold, (hw.pure.history t ht).2.mono hold⟩
  · rw [hdata.latestEtag, hdata.generation]
    exact fun etag h => (hw.pure.latest etag h).mono hold
  · rw [hlog]
    refine hw.pure.first.append fun g request p hmem => ?_
    cases hexchange _ hmem
  · rw [hdata.latestEtag, hdata.generation]
    intro etag h
    obtain ⟨event, hmem, hpub⟩ := hw.published etag h
    exact ⟨event, hold _ hmem, hpub⟩

/-- A reset drops all that was known, unless the session is still the recorded one. -/
theorem Pure.reset (hw : Pure cfg w) (hdata : w'.env.shared =
      w.env.shared.resetIfSessionGenerationChanged w.env.managed.sessionGeneration)
    (hlog : w'.env.log = w.env.log) : PureData w'.env := by
  unfold PureData
  unfold resetIfSessionGenerationChanged at hdata
  rw [hdata, hlog]
  split at hdata
  · rename_i hgen
    rw [if_pos hgen]
    refine ⟨⟨?_, ?_, hlog ▸ hw.pure.first⟩, hw.published⟩
    · rw [hdata, hlog]; exact hw.pure.history
    · rw [hdata, hlog]; exact hw.pure.latest
  · rename_i hgen
    rw [if_neg hgen]
    refine ⟨⟨?_, ?_, hlog ▸ hw.pure.first⟩, fun _ h => by cases h⟩
    · rw [hdata]
      intro t ht
      cases ht
    · rw [hdata]
      intro etag h
      cases h

theorem Pure.publish (hw : Pure cfg w) (hsource : Publisher cfg w request p origin from')
    (hp : Pending w.env request p) (henv : w'.env = w.env.publish cfg request p origin from' true) :
    PureData w'.env := by
  rw [henv]
  rcases publish_cases w.env cfg request p origin from' with ⟨-, heq⟩ |
    ⟨etag, hetag, hlatest, hgen, hlog, hhist⟩
  · rw [heq]
    exact ⟨hw.pure, hw.published⟩
  · obtain ⟨hprev, hfirst⟩ := hsource.etag hw hp hetag
    have hto := hp.heard hetag
    refine ⟨⟨?_, ?_, ?_⟩, ?_⟩
    · rw [hgen, hlog]
      intro t ht
      rcases hhist t ht with ht | ⟨-, hfrom, rfl, -⟩
      · exact ⟨(hw.pure.history t ht).1.imp_right .append, (hw.pure.history t ht).2.append⟩
      · exact ⟨(hprev _ hfrom).imp_right .append, hto.append⟩
    · rw [hlatest, hgen, hlog]
      intro etag' h
      cases h
      exact hto.append
    · rw [hlog]
      refine hw.pure.first.append fun g request' p' hmem hno => ?_
      cases List.mem_singleton.mp hmem
      exact hfirst hno
    · rw [hlog, hgen]
      exact fun _ _ => ⟨_, List.mem_append_right _ List.mem_cons_self, by simp [Event.publishedOn]⟩

/-- The data part of a step. -/
theorem Pure.data (hw : Pure cfg w) (h : DataStep cfg w w') : PureData w'.env := by
  cases h with
  | same hdata hlog =>
    obtain ⟨events, hlog, hexchange⟩ := hlog
    exact hw.exchanged hdata hlog hexchange
  | reset hdata hlog => exact hw.reset hdata hlog
  | publish hsource hp henv => exact hw.publish hsource hp henv

theorem PollStep.held {e e' : Env} {pc pc' : PollPc} (h : PollStep cfg e pc e' pc') (hheld : Held e pc)
    (hlatest : ∀ etag, e.shared.latestEtag = some etag →
      Heard e.log e.shared.datastoreSessionGeneration etag ∧
      ∃ event ∈ e.log, event.publishedOn e.shared.datastoreSessionGeneration = true)
    (hpayload : ∀ c response, pc = .responded c response →
      (e.payloadFromResponse response).1.etag = (parseDatastoreResponse response).etag)
    (hsession : ∀ c response, pc = .inCall c → pc' = .responded c response → c.initialRefresh = false →
      (parseDatastoreResponse response).etag.isSome = true →
        e.managed.sessionGeneration = c.generation) : Held e' pc' := by
  cases h with
  | start | beginFail | raise | publish | release | loop | stop => exact .of_none rfl
  | capture =>
    refine .of_not_publishes rfl fun c hc hinit => ?_
    cases hc
    cases hetag : e.shared.latestEtag with
    | none => simp [Env.capture, hetag] at hinit
    | some etag =>
      obtain ⟨hheard, hpub⟩ := hlatest etag hetag
      refine ⟨?_, hpub⟩
      cases etag with
      | nil => exact .inl (by simp [Env.capture, hetag, orElse])
      | cons x s => exact .inr (by simpa [Env.capture, hetag, orElse] using hheard)
  | acquire => exact .of_not_publishes rfl hheld.captured
  | wait => exact .of_not_publishes rfl hheld.captured
  | beginOk hb =>
    obtain ⟨_, _, -, -, -, hl⟩ := Env.begin_ok hb
    refine .of_not_publishes rfl fun c hc hinit => ?_
    obtain ⟨hetag, event, hmem, hpub⟩ := hheld.captured c hc hinit
    rw [hl]
    exact ⟨hetag.imp_right .append, event, List.mem_append_left _ hmem, hpub⟩
  | readStarted => exact .of_not_publishes rfl hheld.captured
  | respond hf =>
    cases Env.finish_ok hf
    refine ⟨fun c hc hinit => ?_, fun c hc hinit hpublishes => ?_⟩
    · obtain ⟨hetag, event, hmem, hpub⟩ := hheld.captured c hc hinit
      exact ⟨hetag.imp_right .append, event, List.mem_append_left _ hmem, hpub⟩
    · cases hc
      rw [callReturned_generation]
      exact hsession _ _ rfl rfl hinit hpublishes
  | payload =>
    refine ⟨hheld.captured, fun c hc hinit hpublishes => hheld.session c hc hinit ?_⟩
    cases hc
    exact (congrArg Option.isSome (hpayload _ _ rfl)).symm.trans hpublishes

/-- Only its response ends the request of a cycle that goes on to the payload. -/
theorem PollPc.responded_choice {e e' : Env}
    (h : PollPc.step cfg e (.inCall c) choice = some (e', .responded c' response)) :
    choice = .respond response := by
  cases choice with
  | readStarted read =>
    simp only [PollPc.step] at h
    split at h <;> cases h
  | _ =>
    simp only [PollPc.step] at h
    obtain ⟨⟨r, e₁⟩, hf, hr⟩ := Option.map_eq_some_iff.mp h
    cases r <;> cases hr
    exact Env.finish_choice hf

theorem Pure.step (hw : Pure cfg w) (hk : PollKeepsSession w a)
    (h : Coordinator.step cfg w a = some w') : Pure cfg w' := by
  obtain ⟨hpure, hpub⟩ := hw.data (hw.sourced.dataStep h)
  refine ⟨hw.sourced.step h, hpure, hpub, ?_⟩
  cases a with
  | tick later =>
    simp only [Coordinator.step] at h
    split at h <;> cases h
    exact ⟨hw.held.captured, hw.held.session⟩
  | get path client ifNoneMatch queryFields => cases h; exact hw.held
  | post path jsonBody client => cases h; exact hw.held
  | client i choice =>
    simp only [Coordinator.step, Option.bind_eq_bind, Option.bind_eq_some_iff] at h
    obtain ⟨c, hc, ⟨env', c'⟩, hstep, h⟩ := h
    cases h
    obtain ⟨hmanaged, hlog⟩ := Client.step_managed hstep
    refine hw.held.mono (hmanaged.imp (fun heq => by rw [heq]) fun hown => ?_) hlog
    exact hw.sourced.faithful.monitor.not_poller_of_foreground hc hown
  | poller choice =>
    simp only [Coordinator.step, Option.bind_eq_bind, Option.bind_eq_some_iff] at h
    obtain ⟨⟨env', poller'⟩, hstep, h⟩ := h
    cases h
    refine (PollPc.step_cases hstep).held hw.held
      (fun etag h => ⟨hw.pure.latest etag h, hw.published etag h⟩) (fun c response hpc => ?_)
      fun c response hpc hpc' hinit hetag => ?_
    · have hpayload : (w.env.payloadFromResponse response).1 = finalPayload response :=
        (hw.sourced.faithful.poller.pending c response hpc).1.rememberedPayload_eq
      rw [hpayload]
      rfl
    · rw [hpc, hpc'] at hstep
      cases PollPc.responded_choice hstep
      simp only [PollKeepsSession, hpc] at hk
      exact hk hinit hetag
  | close => cases h; exact ⟨hw.held.captured, hw.held.session⟩
  | closeDatastore exit =>
    simp only [Coordinator.step] at h
    split at h <;> cases h
    exact ⟨hw.held.captured, hw.held.session⟩

end

theorem Pure.init (managed : ManagedDatastore) : Pure cfg (World.init managed) := by
  refine ⟨.init managed, ⟨nofun, nofun, fun l₁ l₂ g request p h => ?_⟩, nofun, ⟨nofun, nofun⟩⟩
  exact absurd (congrArg List.length h) (by simp [World.init])

/-- In every run whose published polls are answered on the session of their ETag, the history is of one
session. -/
theorem session_pure {w : World} (hk : Along (step cfg) PollKeepsSession (World.init managed) as)
    (h : run (step cfg) (World.init managed) as = some w) : SessionPure w.env :=
  (run_invariant (fun _ _ _ hw hk hstep => Pure.step hw hk hstep) (Pure.init managed) hk h).pure

/-! A device that is lost and found again. -/

def response7 : Bytes := bytesOf "HTTP/1.1 200 OK\r\nETag: 7\r\n\r\n{}"
def response9 : Bytes := bytesOf "HTTP/1.1 200 OK\r\nETag: 9\r\n\r\n[]"

/-- The first poll of a session, and the loss of the device in the second. -/
def lossRun : List Action :=
  [.poller .go, .poller .go, .poller .go, .poller (.opener none 0), .poller (.respond response7),
    .poller .go, .poller .go, .poller .go, .poller .go, .poller .go, .poller .go,
    .poller (.opener none 0), .poller (.raise ⟨.osError 19, []⟩ true none), .poller .go, .poller .go]

/-- A read opens the new session, and the poller goes on with its ETag. -/
def recoveringRun : List Action :=
  lossRun ++ [.get pollPath none none none, .client 0 .go, .client 0 (.opener none 0),
    .client 0 (.respond response9), .client 0 .go, .client 0 .go, .client 0 .go, .poller .go,
    .poller .go, .poller (.opener none 0), .poller (.respond response7), .poller .go, .poller .go]

/-- The poller itself opens the new session, with the ETag of the old one. -/
def bridgingRun : List Action :=
  lossRun ++ [.poller .go, .poller .go, .poller (.opener none 0), .poller (.respond response9),
    .poller .go, .poller .go]

theorem session_pure_recovering : ∃ w, run (step {}) (World.init (.init 0 0 0)) recoveringRun = some w ∧
    w.env.shared.history.map (fun t => (t.fromEtag, t.toEtag)) = [(py "9", py "7")] ∧
    SessionPure w.env := by
  have hsome : (run (step {}) (World.init (.init 0 0 0)) recoveringRun).map
      (fun w => w.env.shared.history.map fun t => (t.fromEtag, t.toEtag)) =
      some [(py "9", py "7")] := by decide +kernel
  obtain ⟨w, hw, hhist⟩ := Option.map_eq_some_iff.mp hsome
  exact ⟨w, hw, hhist, session_pure (by decide +kernel) hw⟩

/-- The transition from `7` to `9` bridges two sessions, and the new session was asked for what
changed since `7`. -/
theorem session_bridged : ∃ w, run (step {}) (World.init (.init 0 0 0)) bridgingRun = some w ∧
    w.env.shared.datastoreSessionGeneration = 2 ∧
    (∃ t ∈ w.env.shared.history, t.fromEtag = py "7" ∧ Heard w.env.log 1 (py "7") ∧
      ¬Heard w.env.log 2 (py "7")) ∧
    (∃ p, w.env.log.find? (Event.publishedOn 2) =
      some (.published 2 (.get pollPath (py "7") none none 16000) p)) ∧ ¬SessionPure w.env := by
  have hsome : (run (step {}) (World.init (.init 0 0 0)) bridgingRun).map (fun w =>
      (w.env.shared.datastoreSessionGeneration, decide (∃ t ∈ w.env.shared.history,
        t.fromEtag = py "7" ∧ Heard w.env.log 1 (py "7") ∧ ¬Heard w.env.log 2 (py "7")),
        w.env.log.find? (Event.publishedOn 2))) =
      some (2, true, some (.published 2 (.get pollPath (py "7") none none 16000)
        (finalPayload response9))) := by decide +kernel
  obtain ⟨w, hw, hfacts⟩ := Option.map_eq_some_iff.mp hsome
  simp only [Prod.mk.injEq, decide_eq_true_eq] at hfacts
  obtain ⟨hgen, hbridge, hfirst⟩ := hfacts
  refine ⟨w, hw, hgen, hbridge, ⟨_, hfirst⟩, fun hpure => ?_⟩
  obtain ⟨t, ht, hfrom, -, hnot⟩ := hbridge
  rcases (hpure.history t ht).1 with hzero | hheard
  · exact absurd (hfrom.symm.trans hzero) (by decide)
  · rw [hgen, hfrom] at hheard
    exact hnot hheard

end Coordinator

end MotuProxy
