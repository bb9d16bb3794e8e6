import MotuProxy.Verify.OwnResponse

/-! # Where the shared history comes from

The history, the latest ETag and the recorded generation change in two ways only: a reset after a
response from a new session, and the publication of a response that the publishing thread has just
received on that session (`DataStep`). What the publishing threads know is the invariant `Sourced`,
and every invariant of the history is proved from these two.
-/

namespace MotuProxy

open Py Protocol Responses

namespace Coordinator

open Datastore (ManagedDatastore)
open DatastoreCoordinator

/-! ## The data of the coordinator -/

/-- The history, the latest ETag and the recorded generation are the same. -/
structure SameData (s s' : DatastoreCoordinator) : Prop where
  history : s'.history = s.history
  latestEtag : s'.latestEtag = s.latestEtag
  generation : s'.datastoreSessionGeneration = s.datastoreSessionGeneration

theorem SameData.rfl {s : DatastoreCoordinator} : SameData s s := ⟨Eq.refl _, Eq.refl _, Eq.refl _⟩

theorem entering_sameData {pc : IoPc} (h : pc.entering s = some (s', deadline)) : SameData s s' := by
  cases pc with
  | start | acquiring => cases h; exact ⟨rfl, rfl, rfl⟩
  | _ => cases h

theorem setActivePollRead_sameData (s : DatastoreCoordinator) (read : Option Nat) :
    SameData s (s.setActivePollRead read) := by
  unfold setActivePollRead requestActivePollCancelLocked
  simp only
  split
  · split <;> exact ⟨rfl, rfl, rfl⟩
  · exact ⟨rfl, rfl, rfl⟩

theorem close_sameData (s : DatastoreCoordinator) : SameData s s.close := by
  unfold DatastoreCoordinator.close requestActivePollCancelLocked
  split <;> exact ⟨rfl, rfl, rfl⟩

theorem resetIfSessionGenerationChanged_generation (s : DatastoreCoordinator) (generation : Nat) :
    (s.resetIfSessionGenerationChanged generation).datastoreSessionGeneration = generation := by
  unfold resetIfSessionGenerationChanged
  split
  · exact Eq.symm ‹_›
  · rfl

/-! ## Pending publications -/

/-- A payload that may be published: the answer to `request` on the session that the coordinator
has recorded. -/
structure Pending (e : Env) (request : Request) (p : DatastorePayload) : Prop where
  generation : e.shared.datastoreSessionGeneration = e.managed.sessionGeneration
  received : ∃ r, .received e.managed.sessionGeneration request r ∈ e.log ∧ p = finalPayload r

structure CallSourced (e : Env) (c : IoCall) : Prop where
  responded : ∀ r, c.pc = .responded r →
    .received e.managed.sessionGeneration c.job.request r ∈ e.log
  refreshResponded : ∀ p r, c.pc = .refreshResponded p r →
    .received e.managed.sessionGeneration refreshArgs.request r ∈ e.log
  payload : ∀ p, c.pc = .payload p → Pending e c.job.request p
  refreshed : ∀ p r, c.pc = .refreshed p r → Pending e refreshArgs.request r
  /-- A read asks for the full state, except for one of the meters. -/
  etag : ∀ a, c.job = .read a → a.path = METERS_PATH ∨ a.etag = py "0"

/-- The capture of a poll cycle that is under way. -/
def PollPc.capture? : PollPc → Option Capture
  | .acquiring c | .owning c | .inCall c | .responded c _ | .payload c _ _ => some c
  | _ => none

structure PollSourced (cfg : Config) (e : Env) (pc : PollPc) : Prop where
  captured : ∀ c, pc.capture? = some c → c.initialRefresh = true → c.etag = py "0"
  responded : ∀ c r, pc = .responded c r →
    .received e.managed.sessionGeneration (c.request cfg) r ∈ e.log
  payload : ∀ c r p, pc = .payload c r p → Pending e (c.request cfg) p

section
variable {e e' : Env}

theorem CallSourced.mono {c : IoCall} (h : CallSourced e c)
    (hd : (e'.managed = e.managed ∧ SameData e.shared e'.shared) ∨ c.pc.owns = false)
    (hlog : ∀ event ∈ e.log, event ∈ e'.log) : CallSourced e' c := by
  rcases hd with ⟨hm, hs⟩ | hown
  · have hpend {request p} (hp : Pending e request p) : Pending e' request p := by
      refine ⟨by rw [hs.generation, hm]; exact hp.generation, ?_⟩
      obtain ⟨r, hr, hpr⟩ := hp.received
      exact ⟨r, hlog _ (hm ▸ hr), hpr⟩
    exact ⟨fun r hr => hlog _ (hm ▸ h.responded r hr), fun p r hr => hlog _ (hm ▸ h.refreshResponded p r hr),
      fun p hp => hpend (h.payload p hp), fun p r hr => hpend (h.refreshed p r hr), h.etag⟩
  · refine ⟨fun r hr => ?_, fun p r hr => ?_, fun p hp => ?_, fun p r hr => ?_, h.etag⟩
    · rw [hr] at hown; cases hown
    · rw [hr] at hown; cases hown
    · rw [hp] at hown; cases hown
    · rw [hr] at hown; cases hown

theorem PollSourced.mono {pc : PollPc} (h : PollSourced cfg e pc)
    (hd : (e'.managed = e.managed ∧ SameData e.shared e'.shared) ∨ pc.owns = false)
    (hlog : ∀ event ∈ e.log, event ∈ e'.log) : PollSourced cfg e' pc := by
  refine ⟨h.captured, fun c r hr => ?_, fun c r p hp => ?_⟩
  · rcases hd with ⟨hm, hs⟩ | hown
    · exact hlog _ (hm ▸ h.responded c r hr)
    · rw [hr] at hown; cases hown
  · rcases hd with ⟨hm, hs⟩ | hown
    · obtain ⟨hg, r', hr', hpr⟩ := h.payload c r p hp
      exact ⟨by rw [hs.generation, hm]; exact hg, r', hlog _ (hm ▸ hr'), hpr⟩
    · rw [hp] at hown; cases hown

/-- A foreground operation touches the datastore and the data only while it owns the I/O. -/
theorem IoStep.sameData {c c' : IoCall} (h : IoStep cfg e c choice e' c') :
    (e'.managed = e.managed ∧ SameData e.shared e'.shared) ∨ c.pc.owns = true := by
  cases h with
  | acquire hpc | exceed hpc | wait hpc =>
    obtain ⟨h₁, h₂, h₃⟩ := entering_sameData hpc
    exact .inl ⟨rfl, h₁, h₂, h₃⟩
  | release hpc => exact .inl ⟨rfl, rfl, rfl, rfl⟩
  | beginOk hpc | beginFail hpc | respond hpc | raise hpc | payload hpc | publishRead hpc
  | refreshBegin hpc | refreshBeginFail hpc | refreshRespond hpc | refreshRaise hpc
  | refreshPayload hpc | publishRefresh hpc => exact .inr (by rw [hpc]; rfl)

theorem PollStep.sameData {pc pc' : PollPc} (h : PollStep cfg e pc e' pc') :
    (e'.managed = e.managed ∧ SameData e.shared e'.shared) ∨ pc.owns = true := by
  cases h with
  | start | capture | acquire | wait | release | loop | stop => exact .inl ⟨rfl, rfl, rfl, rfl⟩
  | readStarted => exact .inl ⟨rfl, setActivePollRead_sameData _ _⟩
  | beginOk | beginFail | respond | raise | payload | publish => exact .inr rfl

theorem callReturned_generation (d : ManagedDatastore) :
    (d.callReturned response).sessionGeneration = d.sessionGeneration := by
  unfold ManagedDatastore.callReturned ManagedDatastore.rememberResponseState
  split <;> rfl

theorem payloadFromResponse_pending (hrem : Remembers e.managed r)
    (hlog : .received e.managed.sessionGeneration request r ∈ e.log) :
    Pending (e.payloadFromResponse r).2 request (e.payloadFromResponse r).1 :=
  ⟨resetIfSessionGenerationChanged_generation _ _, r, hlog, hrem.rememberedPayload_eq⟩

theorem IoStep.sourced {c c' : IoCall} (h : IoStep cfg e c choice e' c') (ho : Own e.managed e.log c)
    (hc : CallSourced e c) : CallSourced e' c' := by
  cases h with
  | acquire | exceed | wait | beginOk | beginFail | raise | publishRead | refreshBegin
  | refreshBeginFail | refreshRaise | publishRefresh | release =>
    exact ⟨nofun, nofun, nofun, nofun, hc.etag⟩
  | respond hpc hf =>
    cases Env.finish_ok hf
    refine ⟨fun r hr => ?_, nofun, nofun, nofun, hc.etag⟩
    cases hr
    rw [callReturned_generation]
    exact List.mem_append_right _ List.mem_cons_self
  | payload hpc =>
    refine ⟨nofun, nofun, fun p hp => ?_, nofun, hc.etag⟩
    cases hp
    exact payloadFromResponse_pending (ho.pending _ hpc).2 (hc.responded _ hpc)
  | refreshRespond hpc hf =>
    cases Env.finish_ok hf
    refine ⟨nofun, fun p r hr => ?_, nofun, nofun, hc.etag⟩
    cases hr
    rw [callReturned_generation]
    exact List.mem_append_right _ List.mem_cons_self
  | refreshPayload hpc =>
    refine ⟨nofun, nofun, nofun, fun p r hr => ?_, hc.etag⟩
    cases hr
    exact payloadFromResponse_pending (ho.refresh _ _ hpc) (hc.refreshResponded _ _ hpc)

theorem PollStep.sourced {pc pc' : PollPc} (h : PollStep cfg e pc e' pc')
    (ho : PollOwn cfg e.managed e.log pc) (hp : PollSourced cfg e pc) : PollSourced cfg e' pc' := by
  cases h with
  | start | beginFail | raise | publish | release | loop | stop => exact ⟨nofun, nofun, nofun⟩
  | capture =>
    refine ⟨fun c hc hinit => ?_, nofun, nofun⟩
    cases hc
    have hnone : e.shared.latestEtag = none := by simpa [Env.capture] using hinit
    simp [Env.capture, hnone, orElse]
  | acquire | wait | beginOk | readStarted => exact ⟨hp.captured, nofun, nofun⟩
  | respond hf =>
    cases Env.finish_ok hf
    refine ⟨hp.captured, fun c r hr => ?_, nofun⟩
    cases hr
    rw [callReturned_generation]
    exact List.mem_append_right _ List.mem_cons_self
  | payload =>
    refine ⟨hp.captured, nofun, fun c r p hpc => ?_⟩
    cases hpc
    exact payloadFromResponse_pending (ho.pending _ _ rfl).1 (hp.responded _ _ rfl)

end

/-! ## The system -/

/-- Every thread that has a payload to publish has it from its own request on this session. -/
structure Sourced (cfg : Config) (w : World) : Prop where
  faithful : Faithful cfg w
  client : ∀ (i : Nat) (c : Client) (call : IoCall), w.clients[i]? = some c → c.call? = some call →
    CallSourced w.env call
  poller : PollSourced cfg w.env w.poller

theorem CallSourced.fresh {e : Env} {call : IoCall} (hpc : call.pc = .start)
    (hetag : ∀ a, call.job = .read a → a.path = METERS_PATH ∨ a.etag = py "0") :
    CallSourced e call := by
  refine ⟨fun r h => ?_, fun p r h => ?_, fun p h => ?_, fun p r h => ?_, hetag⟩ <;>
    rw [hpc] at h <;> cases h

theorem IoCall.Fresh.sourced {e : Env} {call : IoCall} (h : call.Fresh) : CallSourced e call := by
  obtain ⟨a, hjob, hetag⟩ := h.job
  refine .fresh h.pc fun a' ha' => .inr ?_
  cases hjob.symm.trans ha'
  exact hetag

theorem get_sourced {e : Env} (call : IoCall)
    (h : (get cfg now path client ifNoneMatch queryFields).call? = some call) :
    CallSourced e call := by
  refine .fresh (get_fresh call h).1 fun a ha => ?_
  unfold get at h
  split at h
  · split at h
    · rename_i hpath
      cases h
      cases ha
      exact .inl hpath
    · cases h
  · cases h
    cases ha
    exact .inr rfl

theorem Client.step_sameData {e e' : Env} {c c' : Client} (h : c.step cfg e choice = some (e', c')) :
    (e'.managed = e.managed ∧ SameData e.shared e'.shared) ∨ c.owns = true := by
  rcases Client.step_cases h with ⟨call, call', hc, -, hstep⟩ | ⟨⟨_, _, rfl⟩, -, -⟩
  · rw [Client.owns_of_call hc]
    exact hstep.sameData
  · exact .inl ⟨rfl, rfl, rfl, rfl⟩

/-- While another client is at work, an operation keeps its data or does not own the I/O. -/
theorem Monitor.client_other {w : World} {i j : Nat} {c cj : Client} {call : IoCall} (hw : Monitor w)
    (hc : w.clients[i]? = some c) (hstep : c.step cfg w.env choice = some (env', c')) (hij : i ≠ j)
    (hj : w.clients[j]? = some cj) (hcall : cj.call? = some call) :
    (env'.managed = w.env.managed ∧ SameData w.env.shared env'.shared) ∨ call.pc.owns = false := by
  refine (Client.step_sameData hstep).imp_right fun hown => ?_
  cases hown' : call.pc.owns with
  | false => rfl
  | true => exact absurd (hw.owner_unique hc hown hj ((Client.owns_of_call hcall).trans hown')) hij

theorem Monitor.poller_other {w : World} {j : Nat} {cj : Client} {call : IoCall} (hw : Monitor w)
    (hstep : PollStep cfg w.env w.poller env' pc') (hj : w.clients[j]? = some cj)
    (hcall : cj.call? = some call) :
    (env'.managed = w.env.managed ∧ SameData w.env.shared env'.shared) ∨ call.pc.owns = false := by
  refine hstep.sameData.imp_right fun hown => ?_
  cases hown' : call.pc.owns with
  | false => rfl
  | true =>
    have := hw.not_poller_of_foreground hj ((Client.owns_of_call hcall).trans hown')
    rw [hown] at this
    cases this

theorem Sourced.spawn {w : World} {c : Client} (hw : Sourced cfg w)
    (hf : Faithful cfg { w with clients := w.clients ++ [c] })
    (hc : ∀ call, c.call? = some call → CallSourced w.env call) :
    Sourced cfg { w with clients := w.clients ++ [c] } := by
  refine ⟨hf, fun i c' call hi hcall => ?_, hw.poller⟩
  rw [List.getElem?_append] at hi
  split at hi
  · exact hw.client i c' call hi hcall
  · cases List.mem_singleton.mp (List.mem_of_getElem? hi)
    exact hc call hcall

theorem Sourced.step {w w' : World} (hw : Sourced cfg w) (h : step cfg w a = some w') :
    Sourced cfg w' := by
  have hf := hw.faithful.step h
  have hmon := hw.faithful.monitor
  cases a with
  | tick later =>
    simp only [Coordinator.step] at h
    split at h <;> cases h
    exact ⟨hf, fun i c call hi hcall => (hw.client i c call hi hcall).mono (.inl ⟨rfl, .rfl⟩)
      fun _ h => h, hw.poller.mono (.inl ⟨rfl, .rfl⟩) fun _ h => h⟩
  | get path client ifNoneMatch queryFields => cases h; exact hw.spawn hf get_sourced
  | post path jsonBody client =>
    cases h
    refine hw.spawn hf fun call hc => ?_
    cases hc
    exact .fresh rfl fun a ha => by cases ha
  | client i choice =>
    simp only [Coordinator.step, Option.bind_eq_bind, Option.bind_eq_some_iff] at h
    obtain ⟨c, hc, ⟨env', c'⟩, hstep, h⟩ := h
    cases h
    have hdata := Client.step_sameData hstep
    have hlog := (Client.step_managed hstep).2
    refine ⟨hf, fun j cj call hj hcall => ?_, hw.poller.mono ?_ hlog⟩
    · by_cases hij : i = j
      · subst hij
        rw [List.getElem?_set_self (List.getElem?_eq_some_iff.mp hc).1] at hj
        cases hj
        rcases Client.step_cases hstep with ⟨call₁, call₂, hc₁, hc₂, hio⟩ | ⟨-, -, hfresh⟩
        · cases hc₂.symm.trans hcall
          exact hio.sourced (hw.faithful.client i c call₁ hc hc₁) (hw.client i c call₁ hc hc₁)
        · exact (hfresh call hcall).sourced
      · rw [List.getElem?_set_ne hij] at hj
        exact (hw.client j cj call hj hcall).mono (hmon.client_other hc hstep hij hj hcall) hlog
    · exact hdata.imp_right fun hown => hmon.not_poller_of_foreground hc hown
  | poller choice =>
    simp only [Coordinator.step, Option.bind_eq_bind, Option.bind_eq_some_iff] at h
    obtain ⟨⟨env', poller'⟩, hstep, h⟩ := h
    cases h
    have hstep := PollPc.step_cases hstep
    refine ⟨hf, fun j cj call hj hcall => ?_, hstep.sourced hw.faithful.poller hw.poller⟩
    exact (hw.client j cj call hj hcall).mono (hmon.poller_other hstep hj hcall) hstep.log
  | close =>
    cases h
    exact ⟨hf, fun i c call hi hcall => (hw.client i c call hi hcall).mono
      (.inl ⟨rfl, close_sameData _⟩) fun _ h => h,
      hw.poller.mono (.inl ⟨rfl, close_sameData _⟩) fun _ h => h⟩
  | closeDatastore exit =>
    simp only [Coordinator.step] at h
    split at h <;> cases h
    -- what was received stays received, and `close` keeps the generation
    have hpend {request p} (hp : Pending w.env request p) :
        Pending { w.env with managed := w.env.managed.close exit } request p :=
      ⟨hp.generation, hp.received⟩
    refine ⟨hf, fun i c call hi hcall => ?_, ?_⟩
    · have hc := hw.client i c call hi hcall
      exact ⟨hc.responded, hc.refreshResponded, fun p hp => hpend (hc.payload p hp),
        fun p r hr => hpend (hc.refreshed p r hr), hc.etag⟩
    · exact ⟨hw.poller.captured, hw.poller.responded, fun c r p hp => hpend (hw.poller.payload c r p hp)⟩

theorem Sourced.init (managed : ManagedDatastore) : Sourced cfg (World.init managed) :=
  ⟨.init managed, fun i c call hi => (by simp [World.init] at hi), ⟨nofun, nofun, nofun⟩⟩

/-! ## The changes of the data -/

/-- Who publishes the payload of a request, with what origin and under which previous ETag. -/
inductive Publisher (cfg : Config) (w : World) :
    Request → DatastorePayload → Option Str → Option Str → Prop where
  | read {c : Client} {call : IoCall} {a : ReadArgs} (hc : c ∈ w.clients) (hcall : c.call? = some call)
    (hjob : call.job = .read a) (hpath : a.path = pollPath) (hetag : a.etag = py "0")
    (hpc : call.pc = .payload p) : Publisher cfg w a.request p none none
  | refresh {c : Client} {call : IoCall} {a : PostArgs} (hc : c ∈ w.clients) (hcall : c.call? = some call)
    (hjob : call.job = .post a) (hpc : call.pc = .refreshed p' p) :
    Publisher cfg w refreshArgs.request p (clientString a.client) none
  | poll {c : Capture} (hpc : w.poller = .payload c response p) :
    Publisher cfg w (c.request cfg) p none (some c.etag)

/-- The event says nothing about publications. -/
def Event.exchange : Event → Bool
  | .published .. => false
  | _ => true

/-- What a step does to the history, the latest ETag and the recorded generation. -/
inductive DataStep (cfg : Config) (w w' : World) : Prop where
  | same (hdata : SameData w.env.shared w'.env.shared)
    (hlog : ∃ events, w'.env.log = w.env.log ++ events ∧ ∀ event ∈ events, event.exchange = true)
  | reset (hdata : w'.env.shared =
      w.env.shared.resetIfSessionGenerationChanged w.env.managed.sessionGeneration)
    (hlog : w'.env.log = w.env.log)
  | publish (hsource : Publisher cfg w request p origin from') (hp : Pending w.env request p)
    (henv : w'.env = w.env.publish cfg request p origin from' true)

theorem DataStep.unchanged {w w' : World} (hdata : SameData w.env.shared w'.env.shared)
    (hlog : w'.env.log = w.env.log) : DataStep cfg w w' :=
  .same hdata ⟨[], by rw [hlog, List.append_nil], nofun⟩

theorem DataStep.exchanged {w w' : World} (hdata : w'.env.shared = w.env.shared)
    (hlog : w'.env.log = w.env.log ++ [event]) (hevent : event.exchange = true) : DataStep cfg w w' := by
  refine .same (hdata ▸ .rfl) ⟨[event], hlog, fun event' hmem => ?_⟩
  rw [List.mem_singleton.mp hmem]
  exact hevent

section
variable {w w' : World}

theorem DataStep.of_begin (hb : w.env.begin request choice = some (.ok (), w'.env)) :
    DataStep cfg w w' := by
  obtain ⟨_, _, -, -, hs, hl⟩ := Env.begin_ok hb
  exact .exchanged hs hl rfl

theorem DataStep.of_begin_error (hb : w.env.begin request choice = some (.error exc, w'.env)) :
    DataStep cfg w w' := by
  obtain ⟨_, _, -, hs, hl⟩ := Env.begin_error hb
  exact .unchanged (hs ▸ .rfl) hl

theorem DataStep.of_finish (hf : w.env.finish request choice = some (.ok response, w'.env)) :
    DataStep cfg w w' := by
  have henv := Env.finish_ok hf
  exact .exchanged (by rw [henv]) (by rw [henv]) rfl

theorem DataStep.of_finish_error (hf : w.env.finish request choice = some (.error exc, w'.env)) :
    DataStep cfg w w' := by
  obtain ⟨_, _, _, henv⟩ := Env.finish_error hf
  exact .unchanged (by rw [henv]; exact .rfl) (by rw [henv])

theorem publish_unrecorded (e : Env) : e.publish cfg request p origin from' false = e := by
  unfold Env.publish publishPayload
  cases p.etag <;> simp

theorem IoStep.dataStep {c : Client} {call call' : IoCall} (h : IoStep cfg w.env call choice w'.env call')
    (hc : c ∈ w.clients) (hcall : c.call? = some call) (hs : CallSourced w.env call) :
    DataStep cfg w w' := by
  generalize henv : w'.env = env' at h
  cases h with
  | acquire hpc | exceed hpc | wait hpc =>
    obtain ⟨h₁, h₂, h₃⟩ := entering_sameData hpc
    exact .unchanged (by rw [henv]; exact ⟨h₁, h₂, h₃⟩) (by rw [henv])
  | release => exact .unchanged (by rw [henv]; exact ⟨rfl, rfl, rfl⟩) (by rw [henv]; rfl)
  | beginOk _ hb | refreshBegin _ _ hb => exact .of_begin (henv ▸ hb)
  | beginFail _ hb | refreshBeginFail _ _ hb => exact .of_begin_error (henv ▸ hb)
  | respond _ hf | refreshRespond _ hf => exact .of_finish (henv ▸ hf)
  | raise _ hf | refreshRaise _ hf => exact .of_finish_error (henv ▸ hf)
  | payload | refreshPayload => exact .reset (by rw [henv]; rfl) (by rw [henv]; rfl)
  | @publishRead p a hpc hjob =>
    by_cases hpath : a.path = pollPath
    · have hetag : a.etag = py "0" :=
        (hs.etag a hjob).resolve_left fun hm => by rw [hm] at hpath; exact absurd hpath (by decide)
      have hp := hs.payload _ hpc
      rw [hjob] at hp
      exact .publish (.read hc hcall hjob hpath hetag hpc) hp (by rw [henv, decide_eq_true hpath])
    · rw [decide_eq_false hpath, publish_unrecorded] at henv
      exact .unchanged (henv ▸ .rfl) (by rw [henv])
  | publishRefresh hpc hjob =>
    exact .publish (.refresh hc hcall hjob hpc) (hs.refreshed _ _ hpc) henv

theorem PollStep.dataStep (h : PollStep cfg w.env w.poller w'.env pc')
    (hs : PollSourced cfg w.env w.poller) : DataStep cfg w w' := by
  generalize henv : w'.env = env' at h
  generalize hpoll : w.poller = pc at h
  cases h with
  | start | capture | wait | loop | stop => exact .unchanged (henv ▸ .rfl) (by rw [henv])
  | acquire => exact .unchanged (by rw [henv]; exact ⟨rfl, rfl, rfl⟩) (by rw [henv])
  | release => exact .unchanged (by rw [henv]; exact ⟨rfl, rfl, rfl⟩) (by rw [henv]; rfl)
  | readStarted =>
    exact .unchanged (by rw [henv]; exact setActivePollRead_sameData _ _) (by rw [henv])
  | beginOk hb => exact .of_begin (henv ▸ hb)
  | beginFail hb => exact .of_begin_error (henv ▸ hb)
  | respond hf => exact .of_finish (henv ▸ hf)
  | raise hf => exact .of_finish_error (henv ▸ hf)
  | payload => exact .reset (by rw [henv]; rfl) (by rw [henv]; rfl)
  | publish => exact .publish (.poll hpoll) (hs.payload _ _ _ hpoll) henv

/-- The data change in no other way. -/
theorem Sourced.dataStep (hw : Sourced cfg w) (h : Coordinator.step cfg w a = some w') :
    DataStep cfg w w' := by
  cases a with
  | tick later =>
    simp only [Coordinator.step] at h
    split at h <;> cases h
    exact .unchanged .rfl rfl
  | get path client ifNoneMatch queryFields => cases h; exact .unchanged .rfl rfl
  | post path jsonBody client => cases h; exact .unchanged .rfl rfl
  | client i choice =>
    simp only [Coordinator.step, Option.bind_eq_bind, Option.bind_eq_some_iff] at h
    obtain ⟨c, hc, ⟨env', c'⟩, hstep, h⟩ := h
    cases h
    rcases Client.step_cases hstep with ⟨call, call', hcall, -, hio⟩ | ⟨⟨_, _, rfl⟩, -, -⟩
    · exact IoStep.dataStep hio (List.mem_of_getElem? hc) hcall (hw.client i c call hc hcall)
    · exact .unchanged ⟨rfl, rfl, rfl⟩ rfl
  | poller choice =>
    simp only [Coordinator.step, Option.bind_eq_bind, Option.bind_eq_some_iff] at h
    obtain ⟨⟨env', poller'⟩, hstep, h⟩ := h
    cases h
    exact PollStep.dataStep (PollPc.step_cases hstep) hw.poller
  | close => cases h; exact .unchanged (close_sameData _) rfl
  | closeDatastore exit =>
    simp only [Coordinator.step] at h
    split at h <;> cases h
    exact .unchanged .rfl rfl

end

/-! ## One publication -/

/-- What the publication of a payload does to the data, and to the log. -/
theorem publish_cases (e : Env) (cfg : Config) (request : Request) (p : DatastorePayload)
    (origin from' : Option Str) :
    (p.etag = none ∧ e.publish cfg request p origin from' true = e) ∨
    ∃ etag, p.etag = some etag ∧
      (e.publish cfg request p origin from' true).shared.latestEtag = some etag ∧
      (e.publish cfg request p origin from' true).shared.datastoreSessionGeneration =
        e.shared.datastoreSessionGeneration ∧
      (e.publish cfg request p origin from' true).log =
        e.log ++ [.published e.shared.datastoreSessionGeneration request p] ∧
      ∀ t ∈ (e.publish cfg request p origin from' true).shared.history, t ∈ e.shared.history ∨
        (p.notModified = false ∧ (from' <|> e.shared.latestEtag) = some t.fromEtag ∧
          t.toEtag = etag ∧ t.body = p.body ∧ t.originClient = origin ∧ t.fromEtag ≠ etag) := by
  cases hetag : p.etag with
  | none => exact .inl ⟨rfl, by simp [Env.publish, publishPayload, hetag]⟩
  | some etag =>
    refine .inr ⟨etag, rfl, ?_⟩
    cases hmod : p.notModified with
    | true =>
      simp only [Env.publish, publishPayload, hetag, hmod]
      exact ⟨rfl, rfl, rfl, fun t ht => .inl ht⟩
    | false =>
      have hprev : (if from'.isSome then from' else e.shared.latestEtag) =
          (from' <|> e.shared.latestEtag) := by cases from' <;> rfl
      simp only [Env.publish, publishPayload, hetag, hmod, hprev]
      refine ⟨rfl, rfl, rfl, fun t ht => ?_⟩
      simp only [not_true_eq_false, if_false, Bool.false_eq_true] at ht
      split at ht
      · rename_i previous hprevious
        split at ht
        · rename_i hne
          rcases List.mem_append.mp (List.mem_of_mem_drop ht) with ht | ht
          · exact .inl ht
          · cases List.mem_singleton.mp ht
            exact .inr ⟨trivial, hprevious, rfl, rfl, rfl, hne⟩
        · exact .inl ht
      · exact .inl ht

section
variable {w w' : World}

theorem Sourced.log_append (hw : Sourced cfg w) (h : Coordinator.step cfg w a = some w') :
    ∃ events, w'.env.log = w.env.log ++ events := by
  cases hw.dataStep h with
  | same hdata hlog => exact hlog.imp fun _ h => h.1
  | reset hdata hlog => exact ⟨[], by rw [hlog, List.append_nil]⟩
  | @publish request p origin from' hsource hp henv =>
    rw [henv]
    rcases publish_cases w.env cfg request p origin from' with ⟨-, heq⟩ | ⟨_, -, -, -, hlog, -⟩
    · exact ⟨[], by rw [heq, List.append_nil]⟩
    · exact ⟨_, hlog⟩

/-- A transition that a publication has just recorded. -/
structure Recorded (e : Env) (p : DatastorePayload) (origin from' : Option Str)
    (t : DatastoreTransition) : Prop where
  previous : (from' <|> e.shared.latestEtag) = some t.fromEtag
  toEtag : p.etag = some t.toEtag
  body : t.body = p.body
  origin : t.originClient = origin
  new : t.fromEtag ≠ t.toEtag

/-- The history after a step: as long as the generation stays, a transition was there before, or it
has just been recorded. -/
theorem DataStep.history {T T' : DatastoreTransition → Prop} (h : DataStep cfg w w')
    (hold : w'.env.shared.datastoreSessionGeneration = w.env.shared.datastoreSessionGeneration →
      ∀ t, T t → T' t)
    (hnew : ∀ request p origin from' t, Publisher cfg w request p origin from' →
      Pending w.env request p → w'.env = w.env.publish cfg request p origin from' true →
      p.notModified = false → Recorded w.env p origin from' t → T' t)
    (hw : ∀ t ∈ w.env.shared.history, T t) : ∀ t ∈ w'.env.shared.history, T' t := by
  cases h with
  | same hdata hlog =>
    rw [hdata.history]
    exact fun t ht => hold hdata.generation t (hw t ht)
  | reset hdata hlog =>
    rw [hdata] at hold ⊢
    unfold resetIfSessionGenerationChanged at hold ⊢
    split
    · rename_i hgen
      rw [if_pos hgen] at hold
      exact fun t ht => hold rfl t (hw t ht)
    · exact fun t ht => (by cases ht)
  | @publish request p origin from' hsource hp henv =>
    have hnew := hnew request p origin from'
    rw [henv] at hold hnew ⊢
    rcases publish_cases w.env cfg request p origin from' with ⟨-, heq⟩ |
      ⟨etag, hetag, -, hgen, -, hhist⟩
    · rw [heq] at hold ⊢
      exact fun t ht => hold rfl t (hw t ht)
    · intro t ht
      rcases hhist t ht with ht | ⟨hmod, hfrom, rfl, hbody, horigin, hne⟩
      · exact hold hgen t (hw t ht)
      · exact hnew t hsource hp rfl hmod ⟨hfrom, hetag, hbody, horigin, hne⟩

end

end Coordinator

end MotuProxy
