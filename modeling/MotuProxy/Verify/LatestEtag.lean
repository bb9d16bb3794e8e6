import MotuProxy.Verify.LiveSession

/-! # The latest ETag follows the device

A thread that owns the I/O publishes the response that it has received before it lets another thread
at the datastore. Between the two the latest ETag lags behind by exactly that response (`Owing`);
whenever no response is owed, it is the ETag of the last response to a read of `/datastore` on the
recorded session (`Settled`).
-/

namespace MotuProxy

open Py Protocol Responses

namespace Coordinator

open Datastore (ManagedDatastore)
open DatastoreCoordinator

/-! ## The ETags of a session -/

/-- A read of `/datastore`. -/
def Request.polls : Request → Bool
  | .get path _ _ _ _ => path = pollPath
  | .post .. => false

/-- The ETag that an event brings: that of a response to a read of `/datastore` on the session. -/
def Event.pollEtag? (generation : Nat) : Event → Option Str
  | .received g request response =>
    if g = generation ∧ request.polls then (parseDatastoreResponse response).etag else none
  | _ => none

/-- The ETags of the responses to reads of `/datastore` on a session, in the order of the I/O. -/
def heardEtags (generation : Nat) (log : List Event) : List Str :=
  log.filterMap (Event.pollEtag? generation)

theorem heardEtags_append (generation : Nat) (log events : List Event) :
    heardEtags generation (log ++ events) = heardEtags generation log ++ heardEtags generation events :=
  List.filterMap_append

theorem ReadArgs.request_polls {a : ReadArgs} : a.request.polls = decide (a.path = pollPath) := by
  unfold ReadArgs.request
  split <;> rfl

/-- Every response so far is of a session that the coordinator knows. -/
def Known (log : List Event) (generation : Nat) : Prop :=
  ∀ g request response, .received g request response ∈ log → g ≤ generation

theorem Known.heard_nil (h : Known log generation) (hlt : generation < later) :
    heardEtags later log = [] := by
  refine List.filterMap_eq_nil_iff.mpr fun event hmem => ?_
  cases event with
  | received g request response =>
    have hne : g ≠ later := ((h g request response hmem).trans_lt hlt).ne
    simp [Event.pollEtag?, hne]
  | sent | published => rfl

/-! ## Owed responses -/

/-- The latest ETag is that of the last response. -/
structure Settled (e : Env) : Prop where
  latest : e.shared.latestEtag = (heardEtags e.shared.datastoreSessionGeneration e.log).getLast?
  known : Known e.log e.shared.datastoreSessionGeneration

/-- The last response, whose payload is `p`, is not published yet. -/
structure Owing (e : Env) (request : Request) (p : DatastorePayload)
    (earlier : List Event) (response : Bytes) : Prop where
  last : e.log = earlier ++ [.received e.managed.sessionGeneration request response]
  payload : p = finalPayload response
  latest : e.shared.latestEtag = (heardEtags e.shared.datastoreSessionGeneration earlier).getLast?
  known : Known earlier e.shared.datastoreSessionGeneration

/-- For some log before the response. -/
def Owes (e : Env) (request : Request) (p : DatastorePayload) : Prop :=
  ∃ earlier response, Owing e request p earlier response

section
variable {e e' : Env} {request : Request} {p : DatastorePayload}

theorem Settled.congr (h : Settled e) (hdata : SameData e.shared e'.shared) (hlog : e'.log = e.log) :
    Settled e' := by
  refine ⟨?_, ?_⟩
  · rw [hdata.latestEtag, hdata.generation, hlog]
    exact h.latest
  · rw [hdata.generation, hlog]
    exact h.known

theorem Owes.congr (h : Owes e request p) (hdata : SameData e.shared e'.shared)
    (hgen : e'.managed.sessionGeneration = e.managed.sessionGeneration) (hlog : e'.log = e.log) :
    Owes e' request p := by
  obtain ⟨earlier, response, h⟩ := h
  refine ⟨earlier, response, ?_, h.payload, ?_, ?_⟩
  · rw [hlog, hgen]
    exact h.last
  · rw [hdata.latestEtag, hdata.generation]
    exact h.latest
  · rw [hdata.generation]
    exact h.known

theorem Settled.begin_ok (h : Settled e) (hb : e.begin request choice = some (.ok (), e')) :
    Settled e' := by
  obtain ⟨_, _, -, -, hs, hl⟩ := Env.begin_ok hb
  refine ⟨?_, ?_⟩
  · rw [hs, hl, heardEtags_append]
    exact h.latest.trans (by simp [heardEtags, Event.pollEtag?])
  · rw [hs, hl]
    intro g request response hmem
    refine h.known g request response ((List.mem_append.mp hmem).resolve_right fun hmem => ?_)
    cases List.mem_singleton.mp hmem

theorem Settled.begin_error (h : Settled e) (hb : e.begin request choice = some (.error exc, e')) :
    Settled e' := by
  obtain ⟨_, _, -, hs, hl⟩ := Env.begin_error hb
  exact h.congr (hs ▸ .rfl) hl

theorem Settled.finish_ok (h : Settled e) (hf : e.finish request choice = some (.ok response, e')) :
    Owes e' request (finalPayload response) := by
  cases Env.finish_ok hf
  exact ⟨e.log, response, by rw [callReturned_generation], rfl, h.latest, h.known⟩

theorem Settled.finish_error (h : Settled e) (hf : e.finish request choice = some (.error exc, e')) :
    Settled e' := by
  obtain ⟨_, _, _, rfl⟩ := Env.finish_error hf
  exact h.congr .rfl rfl

/-- The reset before the publication: on a new session there is no ETag yet. -/
theorem Owes.reset (h : Owes e request p)
    (hbehind : e.shared.datastoreSessionGeneration ≤ e.managed.sessionGeneration) (response : Bytes) :
    Owes (e.payloadFromResponse response).2 request p := by
  obtain ⟨earlier, last, h⟩ := h
  refine ⟨earlier, last, h.last, h.payload, ?_, ?_⟩
  · unfold Env.payloadFromResponse resetIfSessionGenerationChanged
    split
    · exact h.latest
    · rename_i hne
      simp [h.known.heard_nil (lt_of_le_of_ne hbehind (Ne.symm hne))]
  · intro g request response hmem
    have hle := (h.known g request response hmem).trans hbehind
    exact hle.trans (resetIfSessionGenerationChanged_generation _ _).ge

/-- The ETags heard, with the response that is owed. -/
theorem Owing.heard (h : Owing e request p earlier response)
    (hgen : e.shared.datastoreSessionGeneration = e.managed.sessionGeneration) :
    heardEtags e.shared.datastoreSessionGeneration e.log =
      heardEtags e.shared.datastoreSessionGeneration earlier ++
        if request.polls then p.etag.toList else [] := by
  rw [h.last, heardEtags_append, hgen, h.payload]
  cases hpolls : request.polls with
  | false => simp [heardEtags, Event.pollEtag?, hpolls]
  | true =>
    cases hetag : (parseDatastoreResponse response).etag <;>
      simp [heardEtags, Event.pollEtag?, hpolls, hetag, finalPayload]

theorem Owing.known_all (h : Owing e request p earlier response)
    (hgen : e.shared.datastoreSessionGeneration = e.managed.sessionGeneration) :
    Known e.log e.shared.datastoreSessionGeneration := by
  intro g request' response' hmem
  rw [h.last] at hmem
  rcases List.mem_append.mp hmem with hmem | hmem
  · exact h.known g request' response' hmem
  · cases List.mem_singleton.mp hmem
    exact hgen.ge

/-- A response that brings no ETag changes nothing. -/
theorem Owes.settled (h : Owes e request p)
    (hgen : e.shared.datastoreSessionGeneration = e.managed.sessionGeneration)
    (hnone : request.polls = false ∨ p.etag = none) : Settled e := by
  obtain ⟨earlier, response, h⟩ := h
  refine ⟨?_, h.known_all hgen⟩
  rw [h.heard hgen, h.latest]
  rcases hnone with hnone | hnone <;> simp [hnone]

theorem Owes.publish (h : Owes e request p)
    (hgen : e.shared.datastoreSessionGeneration = e.managed.sessionGeneration)
    (hpolls : request.polls = true) : Settled (e.publish cfg request p origin from' true) := by
  rcases publish_cases e cfg request p origin from' with ⟨hnone, heq⟩ |
    ⟨etag, hetag, hlatest, hsame, hlog, -⟩
  · rw [heq]
    exact h.settled hgen (.inr hnone)
  · obtain ⟨earlier, response, h⟩ := h
    refine ⟨?_, ?_⟩
    · have hnil : heardEtags e.shared.datastoreSessionGeneration
          [.published e.shared.datastoreSessionGeneration request p] = [] := rfl
      rw [hlatest, hsame, hlog, heardEtags_append, hnil, h.heard hgen, hpolls, hetag]
      simp
    · rw [hsame, hlog]
      intro g request' response' hmem
      refine h.known_all hgen g request' response' ((List.mem_append.mp hmem).resolve_right fun hmem => ?_)
      cases List.mem_singleton.mp hmem

end

/-! ## The threads -/

/-- The thread has received a response that it has not published. -/
def IoPc.owes : IoPc → Bool
  | .responded _ | .payload _ | .refreshResponded .. | .refreshed .. => true
  | _ => false

def PollPc.owes : PollPc → Bool
  | .responded .. | .payload .. => true
  | _ => false

def Client.owes (c : Client) : Bool := c.call?.any (·.pc.owes)

structure CallOwes (e : Env) (c : IoCall) : Prop where
  responded : ∀ r, c.pc = .responded r → Owes e c.job.request (finalPayload r)
  payload : ∀ p, c.pc = .payload p → Owes e c.job.request p
  refreshResponded : ∀ p r, c.pc = .refreshResponded p r → Owes e refreshArgs.request (finalPayload r)
  refreshed : ∀ p r, c.pc = .refreshed p r → Owes e refreshArgs.request r

structure PollOwes (cfg : Config) (e : Env) (pc : PollPc) : Prop where
  responded : ∀ c r, pc = .responded c r → Owes e (c.request cfg) (finalPayload r)
  payload : ∀ c r p, pc = .payload c r p → Owes e (c.request cfg) p

theorem IoPc.not_owes {pc : IoPc} (h : pc.owns = false) : pc.owes = false := by
  cases pc <;> first | rfl | cases h

theorem PollPc.not_owes {pc : PollPc} (h : pc.owns = false) : pc.owes = false := by
  cases pc <;> first | rfl | cases h

theorem CallOwes.of_not {e : Env} {c : IoCall} (h : c.pc.owes = false) : CallOwes e c := by
  refine ⟨fun r hpc => ?_, fun p hpc => ?_, fun p r hpc => ?_, fun p r hpc => ?_⟩ <;>
    rw [hpc] at h <;> cases h

theorem PollOwes.of_not {e : Env} {pc : PollPc} (h : pc.owes = false) : PollOwes cfg e pc := by
  refine ⟨fun c r hpc => ?_, fun c r p hpc => ?_⟩ <;> rw [hpc] at h <;> cases h

/-- The log, the generation of the session and the data are the same. -/
structure SameRecord (e e' : Env) : Prop where
  data : SameData e.shared e'.shared
  generation : e'.managed.sessionGeneration = e.managed.sessionGeneration
  log : e'.log = e.log

section
variable {e e' : Env}

theorem CallOwes.congr {c : IoCall} (h : CallOwes e c) (hsame : SameRecord e e') : CallOwes e' c where
  responded r hpc := (h.responded r hpc).congr hsame.data hsame.generation hsame.log
  payload p hpc := (h.payload p hpc).congr hsame.data hsame.generation hsame.log
  refreshResponded p r hpc := (h.refreshResponded p r hpc).congr hsame.data hsame.generation hsame.log
  refreshed p r hpc := (h.refreshed p r hpc).congr hsame.data hsame.generation hsame.log

theorem PollOwes.congr {pc : PollPc} (h : PollOwes cfg e pc) (hsame : SameRecord e e') :
    PollOwes cfg e' pc where
  responded c r hpc := (h.responded c r hpc).congr hsame.data hsame.generation hsame.log
  payload c r p hpc := (h.payload c r p hpc).congr hsame.data hsame.generation hsame.log

/-- A thread that does not own the I/O adds nothing to the record. -/
theorem IoStep.sameRecord {c c' : IoCall} (h : IoStep cfg e c choice e' c') (hown : c.pc.owns = false) :
    SameRecord e e' ∧ c'.pc.owes = false := by
  cases h with
  | acquire hpc | exceed hpc | wait hpc =>
    obtain ⟨h₁, h₂, h₃⟩ := entering_sameData hpc
    exact ⟨⟨⟨h₁, h₂, h₃⟩, rfl, rfl⟩, rfl⟩
  | beginOk hpc | beginFail hpc | respond hpc | raise hpc | payload hpc | publishRead hpc
  | refreshBegin hpc | refreshBeginFail hpc | refreshRespond hpc | refreshRaise hpc
  | refreshPayload hpc | publishRefresh hpc | release hpc => rw [hpc] at hown; cases hown

theorem PollStep.sameRecord {pc pc' : PollPc} (h : PollStep cfg e pc e' pc') (hown : pc.owns = false) :
    SameRecord e e' ∧ pc'.owes = false := by
  cases h with
  | start | capture | acquire | wait | loop | stop => exact ⟨⟨⟨rfl, rfl, rfl⟩, rfl, rfl⟩, rfl⟩
  | beginOk | beginFail | readStarted | respond | raise | payload | publish | release => cases hown

/-- A thread that receives a response owes it, until it has published it. -/
theorem IoStep.owes {c c' : IoCall} (h : IoStep cfg e c choice e' c') (hown : Own e.managed e.log c)
    (hsourced : CallSourced e c) (hc : CallOwes e c) (hsettled : c.pc.owes = false → Settled e)
    (hbehind : e.shared.datastoreSessionGeneration ≤ e.managed.sessionGeneration) :
    CallOwes e' c' ∧ (c'.pc.owes = false → Settled e') := by
  cases h with
  | acquire hpc | exceed hpc | wait hpc =>
    obtain ⟨h₁, h₂, h₃⟩ := entering_sameData hpc
    have hs : Settled e := hsettled (IoPc.not_owes (entering_cases hpc).1)
    exact ⟨.of_not rfl, fun _ => hs.congr ⟨h₁, h₂, h₃⟩ rfl⟩
  | beginOk hpc hb => exact ⟨.of_not rfl, fun _ => (hsettled (by rw [hpc]; rfl)).begin_ok hb⟩
  | beginFail hpc hb => exact ⟨.of_not rfl, fun _ => (hsettled (by rw [hpc]; rfl)).begin_error hb⟩
  | respond hpc hf =>
    have howes := (hsettled (by rw [hpc]; rfl)).finish_ok hf
    refine ⟨⟨fun r hr => ?_, nofun, nofun, nofun⟩, nofun⟩
    cases hr
    exact howes
  | raise hpc hf => exact ⟨.of_not rfl, fun _ => (hsettled (by rw [hpc]; rfl)).finish_error hf⟩
  | @payload response hpc =>
    have hp : (e.payloadFromResponse response).1 = finalPayload response :=
      (hown.pending _ hpc).2.rememberedPayload_eq
    refine ⟨⟨nofun, fun p hpc' => ?_, nofun, nofun⟩, nofun⟩
    cases hpc'
    rw [hp]
    exact (hc.responded _ hpc).reset hbehind response
  | @publishRead p a hpc hjob =>
    have hgen := (hsourced.payload _ hpc).generation
    have howes := hc.payload _ hpc
    rw [hjob] at howes
    refine ⟨.of_not rfl, fun _ => ?_⟩
    by_cases hpath : a.path = pollPath
    · rw [decide_eq_true hpath]
      exact howes.publish hgen (by rw [Job.request, ReadArgs.request_polls, decide_eq_true hpath])
    · rw [decide_eq_false hpath, publish_unrecorded]
      exact howes.settled hgen (.inl (by rw [Job.request, ReadArgs.request_polls, decide_eq_false hpath]))
  | refreshBegin hpc hjob hb =>
    have hs : Settled e := (hc.payload _ hpc).settled (hsourced.payload _ hpc).generation
      (.inl (by rw [hjob]; rfl))
    exact ⟨.of_not rfl, fun _ => hs.begin_ok hb⟩
  | refreshBeginFail hpc hjob hb =>
    have hs : Settled e := (hc.payload _ hpc).settled (hsourced.payload _ hpc).generation
      (.inl (by rw [hjob]; rfl))
    exact ⟨.of_not rfl, fun _ => hs.begin_error hb⟩
  | refreshRespond hpc hf =>
    have howes := (hsettled (by rw [hpc]; rfl)).finish_ok hf
    refine ⟨⟨nofun, nofun, fun p r hr => ?_, nofun⟩, nofun⟩
    cases hr
    exact howes
  | refreshRaise hpc hf => exact ⟨.of_not rfl, fun _ => (hsettled (by rw [hpc]; rfl)).finish_error hf⟩
  | @refreshPayload _ response hpc =>
    have hp : (e.payloadFromResponse response).1 = finalPayload response :=
      (hown.refresh _ _ hpc).rememberedPayload_eq
    refine ⟨⟨nofun, nofun, nofun, fun p r hpc' => ?_⟩, nofun⟩
    cases hpc'
    rw [hp]
    exact (hc.refreshResponded _ _ hpc).reset hbehind response
  | publishRefresh hpc hjob =>
    exact ⟨.of_not rfl, fun _ => (hc.refreshed _ _ hpc).publish (hsourced.refreshed _ _ hpc).generation rfl⟩
  | release hpc =>
    exact ⟨.of_not rfl, fun _ => (hsettled (by rw [hpc]; rfl)).congr ⟨rfl, rfl, rfl⟩ rfl⟩

theorem PollStep.owes {pc pc' : PollPc} (h : PollStep cfg e pc e' pc')
    (hown : PollOwn cfg e.managed e.log pc) (hsourced : PollSourced cfg e pc) (hc : PollOwes cfg e pc)
    (hsettled : pc.owes = false → Settled e)
    (hbehind : e.shared.datastoreSessionGeneration ≤ e.managed.sessionGeneration) :
    PollOwes cfg e' pc' ∧ (pc'.owes = false → Settled e') := by
  cases h with
  | start | capture | acquire | wait | loop | release =>
    exact ⟨.of_not rfl, fun _ => (hsettled rfl).congr ⟨rfl, rfl, rfl⟩ rfl⟩
  | stop _ hpc =>
    obtain rfl | ⟨c, rfl⟩ | ⟨exc, rfl⟩ := hpc <;> exact ⟨.of_not rfl, fun _ => hsettled rfl⟩
  | beginOk hb => exact ⟨.of_not rfl, fun _ => (hsettled rfl).begin_ok hb⟩
  | beginFail hb => exact ⟨.of_not rfl, fun _ => (hsettled rfl).begin_error hb⟩
  | readStarted =>
    exact ⟨.of_not rfl, fun _ => (hsettled rfl).congr (setActivePollRead_sameData _ _) rfl⟩
  | respond hf =>
    refine ⟨⟨fun c r hr => ?_, nofun⟩, nofun⟩
    cases hr
    exact (hsettled rfl).finish_ok hf
  | raise hf => exact ⟨.of_not rfl, fun _ => (hsettled rfl).finish_error hf⟩
  | @payload c response =>
    have hp : (e.payloadFromResponse response).1 = finalPayload response :=
      (hown.pending _ _ rfl).1.rememberedPayload_eq
    refine ⟨⟨nofun, fun c r p hpc => ?_⟩, nofun⟩
    cases hpc
    rw [hp]
    exact (hc.responded _ _ rfl).reset hbehind response
  | publish =>
    exact ⟨.of_not rfl, fun _ =>
      (hc.payload _ _ _ rfl).publish (hsourced.payload _ _ _ rfl).generation rfl⟩

end

/-! ## The system -/

/-- Whoever owes a response owes the last one, and if nobody does, the latest ETag is up to date. -/
structure Follows (cfg : Config) (w : World) : Prop where
  ofSession : OfSession cfg w
  client : ∀ (i : Nat) (c : Client) (call : IoCall), w.clients[i]? = some c → c.call? = some call →
    CallOwes w.env call
  poller : PollOwes cfg w.env w.poller
  settled : (∀ c ∈ w.clients, c.owes = false) → w.poller.owes = false → Settled w.env

section
variable {w w' : World}

theorem Client.owes_of_call {c : Client} {call : IoCall} (h : c.call? = some call) :
    c.owes = call.pc.owes := by
  simp [Client.owes, h]

theorem Client.not_owes {c : Client} (h : c.owns = false) : c.owes = false := by
  cases hc : c.call? with
  | none => simp [Client.owes, hc]
  | some call =>
    rw [Client.owes_of_call hc]
    rw [Client.owns_of_call hc] at h
    exact IoPc.not_owes h

/-- A step that adds nothing to the record and keeps who owes. -/
theorem Follows.congr (hw : Follows cfg w) (hs : OfSession cfg w') (hsame : SameRecord w.env w'.env)
    (hclients : ∀ c ∈ w'.clients, c ∈ w.clients ∨ c.owes = false)
    (hclients' : ∀ c ∈ w.clients, c.owes = true → c ∈ w'.clients)
    (hpoller : w'.poller = w.poller ∨ (w.poller.owes = false ∧ w'.poller.owes = false)) :
    Follows cfg w' := by
  refine ⟨hs, fun i c call hi hcall => ?_, ?_, fun hc hp => ?_⟩
  · rcases hclients c (List.mem_of_getElem? hi) with hmem | hnot
    · obtain ⟨j, hj⟩ := List.getElem?_of_mem hmem
      exact (hw.client j c call hj hcall).congr hsame
    · exact .of_not (Client.owes_of_call hcall ▸ hnot)
  · rcases hpoller with hpoller | ⟨-, hnot⟩
    · exact hpoller ▸ hw.poller.congr hsame
    · exact .of_not hnot
  · have hpoll : w.poller.owes = false := by
      rcases hpoller with hpoller | ⟨hnot, -⟩
      · exact hpoller ▸ hp
      · exact hnot
    refine (hw.settled (fun c hmem => ?_) hpoll).congr hsame.data hsame.log
    cases howes : c.owes with
    | false => rfl
    | true => rw [hc c (hclients' c hmem howes)] at howes; cases howes

theorem mem_set_of_ne {l : List α} {p : α → Bool} (hi : l[i]? = some a) (ha : p a = false)
    (hb : b ∈ l) (hp : p b = true) : b ∈ l.set i a' := by
  obtain ⟨j, hj⟩ := List.getElem?_of_mem hb
  have hij : i ≠ j := by
    rintro rfl
    cases hi.symm.trans hj
    rw [ha] at hp
    cases hp
  refine List.mem_of_getElem? (i := j) ?_
  rw [List.getElem?_set_ne hij]
  exact hj

/-- A step of a client that owes nothing before and after. -/
theorem Follows.client_idle {c c' : Client} (hw : Follows cfg w) (hi : w.clients[i]? = some c)
    (hs : OfSession cfg { w with env := env', clients := w.clients.set i c' })
    (hsame : SameRecord w.env env') (hc : c.owes = false) (hc' : c'.owes = false) :
    Follows cfg { w with env := env', clients := w.clients.set i c' } := by
  refine hw.congr hs hsame (fun c₁ hmem => ?_) (fun c₁ hmem howes => ?_) (.inl rfl)
  · refine (List.mem_or_eq_of_mem_set hmem).imp_right fun heq => ?_
    rw [heq]
    exact hc'
  · exact mem_set_of_ne hi hc hmem howes

theorem Follows.client_owner {c c' : Client} {call call' : IoCall} (hw : Follows cfg w)
    (hi : w.clients[i]? = some c) (hcall : c.call? = some call) (hcall' : c'.call? = some call')
    (hstep : IoStep cfg w.env call choice env' call') (hown : call.pc.owns = true)
    (hs : OfSession cfg { w with env := env', clients := w.clients.set i c' }) :
    Follows cfg { w with env := env', clients := w.clients.set i c' } := by
  have hmon := hw.ofSession.sourced.faithful.monitor
  have hcown : c.owns = true := (Client.owns_of_call hcall).trans hown
  have hpoller : w.poller.owns = false := hmon.not_poller_of_foreground hi hcown
  -- nobody else owns the I/O, so nobody else owes a response
  have hothers (j : Nat) (c₁ : Client) (hj : w.clients[j]? = some c₁) (hij : i ≠ j) :
      c₁.owes = false := by
    refine Client.not_owes ?_
    cases hown₁ : c₁.owns with
    | false => rfl
    | true => exact absurd (hmon.owner_unique hi hcown hj hown₁) hij
  have hsettled (howes : call.pc.owes = false) : Settled w.env := by
    refine hw.settled (fun c₁ hmem => ?_) (PollPc.not_owes hpoller)
    obtain ⟨j, hj⟩ := List.getElem?_of_mem hmem
    by_cases hij : i = j
    · subst hij
      cases hi.symm.trans hj
      exact (Client.owes_of_call hcall).trans howes
    · exact hothers j c₁ hj hij
  obtain ⟨hnew, hnew'⟩ := hstep.owes (hw.ofSession.sourced.faithful.client i c call hi hcall)
    (hw.ofSession.sourced.client i c call hi hcall) (hw.client i c call hi hcall) hsettled
    hw.ofSession.behind
  have hset : (w.clients.set i c')[i]? = some c' :=
    List.getElem?_set_self (List.getElem?_eq_some_iff.mp hi).1
  refine ⟨hs, fun j c₁ call₁ hj hcall₁ => ?_, .of_not (PollPc.not_owes hpoller), fun hc _ => ?_⟩
  · by_cases hij : i = j
    · subst hij
      cases hset.symm.trans hj
      cases hcall'.symm.trans hcall₁
      exact hnew
    · simp only [List.getElem?_set_ne hij] at hj
      exact .of_not (Client.owes_of_call hcall₁ ▸ hothers j c₁ hj hij)
  · exact hnew' ((Client.owes_of_call hcall').symm.trans (hc c' (List.mem_of_getElem? hset)))

theorem Follows.poller_owner (hw : Follows cfg w) (hstep : PollStep cfg w.env w.poller env' poller')
    (hown : w.poller.owns = true) (hs : OfSession cfg { w with env := env', poller := poller' }) :
    Follows cfg { w with env := env', poller := poller' } := by
  have hmon := hw.ofSession.sourced.faithful.monitor
  have hothers (c : Client) (hmem : c ∈ w.clients) : c.owes = false := by
    obtain ⟨j, hj⟩ := List.getElem?_of_mem hmem
    refine Client.not_owes ?_
    cases hown₁ : c.owns with
    | false => rfl
    | true => rw [hmon.not_poller_of_foreground hj hown₁] at hown; cases hown
  obtain ⟨hnew, hnew'⟩ := hstep.owes hw.ofSession.sourced.faithful.poller hw.ofSession.sourced.poller
    hw.poller (hw.settled hothers) hw.ofSession.behind
  refine ⟨hs, fun j c call hj hcall => ?_, hnew, fun _ hp => hnew' hp⟩
  exact .of_not (Client.owes_of_call hcall ▸ hothers c (List.mem_of_getElem? hj))

theorem Follows.step (hw : Follows cfg w) (h : Coordinator.step cfg w a = some w') : Follows cfg w' := by
  have hs := hw.ofSession.step h
  cases a with
  | tick later =>
    simp only [Coordinator.step] at h
    split at h <;> cases h
    exact hw.congr hs ⟨.rfl, rfl, rfl⟩ (fun _ h => .inl h) (fun _ h _ => h) (.inl rfl)
  | get path client ifNoneMatch queryFields =>
    cases h
    refine hw.congr hs ⟨.rfl, rfl, rfl⟩ (fun c hmem => ?_) (fun _ h _ => List.mem_append_left _ h)
      (.inl rfl)
    refine (List.mem_append.mp hmem).imp_right fun hmem => ?_
    rw [List.mem_singleton.mp hmem]
    exact Client.not_owes get_idle.1
  | post path jsonBody client =>
    cases h
    refine hw.congr hs ⟨.rfl, rfl, rfl⟩ (fun c hmem => ?_) (fun _ h _ => List.mem_append_left _ h)
      (.inl rfl)
    refine (List.mem_append.mp hmem).imp_right fun hmem => ?_
    rw [List.mem_singleton.mp hmem]
    rfl
  | client i choice =>
    simp only [Coordinator.step, Option.bind_eq_bind, Option.bind_eq_some_iff] at h
    obtain ⟨c, hi, ⟨env', c'⟩, hstep, h⟩ := h
    cases h
    rcases Client.step_cases hstep with ⟨call, call', hcall, hcall', hio⟩ | ⟨⟨_, _, rfl⟩, hdone, hfresh⟩
    · cases hown : call.pc.owns with
      | true => exact hw.client_owner hi hcall hcall' hio hown hs
      | false =>
        obtain ⟨hsame, hnot⟩ := hio.sameRecord hown
        exact hw.client_idle hi hs hsame ((Client.owes_of_call hcall).trans (IoPc.not_owes hown))
          ((Client.owes_of_call hcall').trans hnot)
    · refine hw.client_idle hi hs ⟨⟨rfl, rfl, rfl⟩, rfl, rfl⟩ ?_ ?_
      · cases hcall : c.call? with
        | none => simp [Client.owes, hcall]
        | some call =>
          obtain ⟨r, hr⟩ := hdone call hcall
          rw [Client.owes_of_call hcall, hr]
          rfl
      · cases hcall : c'.call? with
        | none => simp [Client.owes, hcall]
        | some call =>
          rw [Client.owes_of_call hcall, (hfresh call hcall).pc]
          rfl
  | poller choice =>
    simp only [Coordinator.step, Option.bind_eq_bind, Option.bind_eq_some_iff] at h
    obtain ⟨⟨env', poller'⟩, hstep, h⟩ := h
    cases h
    have hstep := PollPc.step_cases hstep
    cases hown : w.poller.owns with
    | true => exact hw.poller_owner hstep hown hs
    | false =>
      obtain ⟨hsame, hnot⟩ := hstep.sameRecord hown
      exact hw.congr hs hsame (fun _ h => .inl h) (fun _ h _ => h) (.inr ⟨PollPc.not_owes hown, hnot⟩)
  | close =>
    cases h
    exact hw.congr hs ⟨close_sameData _, rfl, rfl⟩ (fun _ h => .inl h) (fun _ h _ => h) (.inl rfl)
  | closeDatastore exit =>
    simp only [Coordinator.step] at h
    split at h <;> cases h
    exact hw.congr hs ⟨.rfl, rfl, rfl⟩ (fun _ h => .inl h) (fun _ h _ => h) (.inl rfl)

theorem Follows.init (managed : ManagedDatastore) : Follows cfg (World.init managed) := by
  refine ⟨.init managed, fun i c call hi => ?_, .of_not rfl, fun _ _ => ⟨rfl, nofun⟩⟩
  simp [World.init] at hi

/-- What is published is what is owed, and answers a read of `/datastore`. -/
theorem Follows.publisher (hw : Follows cfg w) (h : Publisher cfg w request p origin from') :
    request.polls = true ∧ Owes w.env request p := by
  cases h with
  | read hc hcall hjob hpath hetag hpc =>
    obtain ⟨i, hi⟩ := List.getElem?_of_mem hc
    have howes := (hw.client i _ _ hi hcall).payload _ hpc
    rw [hjob] at howes
    exact ⟨ReadArgs.request_polls.trans (decide_eq_true hpath), howes⟩
  | refresh hc hcall hjob hpc =>
    obtain ⟨i, hi⟩ := List.getElem?_of_mem hc
    exact ⟨rfl, (hw.client i _ _ hi hcall).refreshed _ _ hpc⟩
  | poll hpc => exact ⟨rfl, hw.poller.payload _ _ _ hpc⟩

end

/-! ## Versions -/

section
variable {V : Type} [Preorder V] {version : Str → V} {w w' w₁ w₂ w₃ : World}

/-- The versions never decrease. -/
def NeverDecrease (version : Str → V) (etags : List Str) : Prop :=
  etags.Pairwise fun x y => version x ≤ version y

/-- What the two ends of a run have to do with each other: within a session the latest ETag does not
go back if the device does not. -/
structure Onward (version : Str → V) (w w' : World) : Prop where
  generation : w.env.shared.datastoreSessionGeneration ≤ w'.env.shared.datastoreSessionGeneration
  log : ∃ events, w'.env.log = w.env.log ++ events
  latest : w'.env.shared.datastoreSessionGeneration = w.env.shared.datastoreSessionGeneration →
    NeverDecrease version (heardEtags w'.env.shared.datastoreSessionGeneration w'.env.log) →
    ∀ etag, w.env.shared.latestEtag = some etag →
      ∃ etag', w'.env.shared.latestEtag = some etag' ∧ version etag ≤ version etag'

theorem Onward.refl (w : World) : Onward version w w :=
  ⟨le_rfl, ⟨[], by rw [List.append_nil]⟩, fun _ _ etag h => ⟨etag, h, le_rfl⟩⟩

theorem Onward.trans (h₁ : Onward version w₁ w₂) (h₂ : Onward version w₂ w₃) : Onward version w₁ w₃ := by
  obtain ⟨events₁, hlog₁⟩ := h₁.log
  obtain ⟨events₂, hlog₂⟩ := h₂.log
  refine ⟨h₁.generation.trans h₂.generation, ⟨events₁ ++ events₂, ?_⟩, fun hgen hsorted etag hetag => ?_⟩
  · rw [hlog₂, hlog₁, List.append_assoc]
  · have hgen₂ : w₃.env.shared.datastoreSessionGeneration = w₂.env.shared.datastoreSessionGeneration :=
      le_antisymm (hgen.le.trans h₁.generation) h₂.generation
    have hsorted₂ : NeverDecrease version
        (heardEtags w₂.env.shared.datastoreSessionGeneration w₂.env.log) := by
      rw [hgen₂, hlog₂, heardEtags_append] at hsorted
      exact (List.pairwise_append.mp hsorted).1
    obtain ⟨etag₂, hetag₂, hle₂⟩ := h₁.latest (hgen₂.symm.trans hgen) hsorted₂ etag hetag
    obtain ⟨etag₃, hetag₃, hle₃⟩ := h₂.latest hgen₂ hsorted etag₂ hetag₂
    exact ⟨etag₃, hetag₃, hle₂.trans hle₃⟩

theorem Follows.onward (hw : Follows cfg w) (h : Coordinator.step cfg w a = some w') : Onward version w w' := by
  have hdata := hw.ofSession.sourced.dataStep h
  refine ⟨hw.ofSession.generation_le hdata, hw.ofSession.sourced.log_append h,
    fun hgen hsorted etag hetag => ?_⟩
  rcases hdata.latest with hsame | ⟨-, -, hne⟩ |
    ⟨request, p, _, _, etag', hsource, hp, -, hetag', hlatest⟩
  · exact ⟨etag, hsame.latestEtag.trans hetag, le_rfl⟩
  · exact absurd hgen hne
  · -- the ETag before is the last one that was heard before this response
    obtain ⟨hpolls, earlier, response, howes⟩ := hw.publisher hsource
    refine ⟨etag', hlatest, ?_⟩
    have hheard := howes.heard hp.generation
    obtain ⟨events, hlog⟩ := hw.ofSession.sourced.log_append h
    rw [hgen, hlog, heardEtags_append, hheard, hpolls, hetag'] at hsorted
    have hpair := (List.pairwise_append.mp (List.pairwise_append.mp hsorted).1).2.2
    have hmem : etag ∈ heardEtags w.env.shared.datastoreSessionGeneration earlier :=
      List.mem_of_getLast? (howes.latest.symm.trans hetag)
    exact hpair etag hmem etag' List.mem_cons_self

end

/-- Whenever no thread owns the I/O, the latest ETag is that of the last response to a read of
`/datastore` on the recorded session. It changes only with such a response, or to none with the
session, and it does not go back within a session if the device does not. -/
theorem latest_etag_follows {w : World} (h : run (step cfg) (World.init managed) as = some w) :
    ((∀ c ∈ w.clients, c.owns = false) → w.poller.owns = false →
      w.env.shared.latestEtag =
        (heardEtags w.env.shared.datastoreSessionGeneration w.env.log).getLast?) ∧
    (∀ a w', step cfg w a = some w' → w'.env.shared.latestEtag ≠ w.env.shared.latestEtag →
      (w'.env.shared.datastoreSessionGeneration ≠ w.env.shared.datastoreSessionGeneration ∧
        w'.env.shared.latestEtag = none) ∨
      ∃ request response, request.polls = true ∧
        .received w.env.shared.datastoreSessionGeneration request response ∈ w.env.log ∧
        w'.env.shared.latestEtag = (parseDatastoreResponse response).etag) ∧
    ∀ (V : Type) [Preorder V] (version : Str → V) bs w', run (step cfg) w bs = some w' →
      w'.env.shared.datastoreSessionGeneration = w.env.shared.datastoreSessionGeneration →
      NeverDecrease version (heardEtags w'.env.shared.datastoreSessionGeneration w'.env.log) →
      ∀ etag, w.env.shared.latestEtag = some etag →
        ∃ etag', w'.env.shared.latestEtag = some etag' ∧ version etag ≤ version etag' := by
  have hw : Follows cfg w := run_invariant_of_step (fun _ _ _ hw h => hw.step h) (.init managed) h
  refine ⟨fun hclients hpoller => ?_, fun a w' hstep hne => ?_, fun V _ version bs w' hrun => ?_⟩
  · exact (hw.settled (fun c hc => Client.not_owes (hclients c hc)) (PollPc.not_owes hpoller)).latest
  · rcases (hw.ofSession.sourced.dataStep hstep).latest with hsame | ⟨hnone, -, hgen⟩ |
      ⟨request, p, _, _, etag, hsource, hp, -, hetag, hlatest⟩
    · exact absurd hsame.latestEtag hne
    · exact .inl ⟨hgen, hnone⟩
    · obtain ⟨response, hreceived, rfl⟩ := hp.received
      refine .inr ⟨request, response, (hw.publisher hsource).1, hp.generation ▸ hreceived, ?_⟩
      exact hlatest.trans hetag.symm
  · exact (run_relation (R := Onward version) Onward.refl (fun _ _ _ => Onward.trans)
      (fun _ _ _ hw h => ⟨Follows.step hw h, hw.onward h⟩) hw hrun).latest

theorem latest_etag_follows_reads :
    ∃ w, run (step {}) (World.init (.init 0 0 0)) (reopenedRun.take 14) = some w ∧
      w.env.shared.latestEtag = some (py "8") ∧
      (heardEtags 1 w.env.log).getLast? = some (py "8") := by
  have hfacts : (run (step {}) (World.init (.init 0 0 0)) (reopenedRun.take 14)).map (fun w =>
      (w.env.shared.latestEtag, w.env.shared.datastoreSessionGeneration,
        w.clients.any Client.owns || w.poller.owns)) = some (some (py "8"), 1, false) := by
    decide +kernel
  obtain ⟨w, hw, hfacts⟩ := Option.map_eq_some_iff.mp hfacts
  obtain ⟨hlatest, hfacts⟩ := Prod.mk.inj hfacts
  obtain ⟨hgen, hidle⟩ := Prod.mk.inj hfacts
  obtain ⟨hclients, hpoller⟩ := Bool.or_eq_false_iff.mp hidle
  have hheard := (latest_etag_follows hw).1 (by simpa using hclients) hpoller
  rw [hlatest, hgen] at hheard
  exact ⟨w, hw, hlatest, hheard.symm⟩

end Coordinator

end MotuProxy
