import MotuProxy.Verify.Monitor

/-! # A thread gets its own response

The payload that `_payload_from_response` returns is the one that the datastore remembers. While a
thread owns the I/O no other thread runs a datastore operation, so what is remembered is the
response of the thread's own request. `Own` says this of one foreground operation, `PollOwn` of the
poller, and `Faithful` of the whole system.
-/

namespace MotuProxy

open Py Protocol Responses

namespace Coordinator

open Datastore (ManagedDatastore)
open DatastoreCoordinator

/-- The payload of a response, with the content type of its body. -/
def finalPayload (response : Bytes) : DatastorePayload :=
  { parseDatastoreResponse response with
    contentType := some (contentTypeOf (parseDatastoreResponse response)) }

/-! ## What the datastore remembers -/

/-- The datastore remembers the response, also once its session is closed. -/
structure Remembers (d : ManagedDatastore) (response : Bytes) : Prop where
  payload : d.lastResponsePayload = some (parseDatastoreResponse response)
  etag : d.lastResponseEtag = (parseDatastoreResponse response).etag
  rememberedPayload : d.rememberedPayload = some (parseDatastoreResponse response)
  rememberedEtag : d.rememberedEtag = (parseDatastoreResponse response).etag

theorem callReturned_remembers {d : ManagedDatastore} (h : d.datastore.isSome = true) :
    Remembers (d.callReturned response) response := by
  obtain ⟨session, hs⟩ := Option.isSome_iff_exists.mp h
  unfold ManagedDatastore.callReturned ManagedDatastore.rememberResponseState
  rw [hs]
  exact ⟨rfl, rfl, rfl, rfl⟩

theorem Remembers.close {d : ManagedDatastore} (h : Remembers d response) :
    Remembers (d.close exit) response :=
  ⟨h.rememberedPayload, h.rememberedEtag, h.rememberedPayload, h.rememberedEtag⟩

theorem orElse_self (a : Option Str) : orElse a a = a := by
  match a with
  | none => rfl
  | some [] => rfl
  | some (_ :: _) => rfl

theorem Remembers.rememberedPayload_eq {d : ManagedDatastore} (h : Remembers d response) :
    DatastoreCoordinator.rememberedPayload d response = finalPayload response := by
  unfold DatastoreCoordinator.rememberedPayload finalPayload
  rw [h.payload, h.etag]
  simp only [Option.getD_some, orElse_self]

theorem ensureSession_isSome {d d' : ManagedDatastore}
    (h : d.ensureSession now later opener = (.ok (), d')) : d'.datastore.isSome = true := by
  unfold ManagedDatastore.ensureSession at h
  split at h
  · cases h
  split at h
  · rename_i hs
    cases h
    exact hs
  split at h
  · cases h
  split at h
  · split at h <;> cases h
  · cases h
    rfl

/-! ## One foreground operation -/

/-- The payload that the operation has got so far. -/
def IoPc.payload? : IoPc → Option DatastorePayload
  | .payload p | .refreshing p | .refreshResponded p _ | .refreshed p _ => some p
  | .releasing (.ok p) | .done (.ok p) => some p
  | _ => none

structure Own (d : ManagedDatastore) (log : List Event) (c : IoCall) : Prop where
  logged : ∀ r, c.received = some r → ∃ generation, .received generation c.job.request r ∈ log
  session : c.inOperation = true → d.datastore.isSome = true
  pending : ∀ r, c.pc = .responded r → c.received = some r ∧ Remembers d r
  refresh : ∀ p r, c.pc = .refreshResponded p r → Remembers d r
  payload : ∀ p, c.pc.payload? = some p → ∃ r, c.received = some r ∧ p = finalPayload r

section
variable {d d' : ManagedDatastore} {log log' : List Event} {c : IoCall}

/-- An operation that does not own the I/O does not depend on the datastore. -/
theorem Own.mono (h : Own d log c) (hd : d' = d ∨ c.pc.owns = false)
    (hlog : ∀ event ∈ log, event ∈ log') : Own d' log' c where
  logged r hr := (h.logged r hr).imp fun _ hg => hlog _ hg
  session hop := by
    rcases hd with rfl | hown
    · exact h.session hop
    · unfold IoCall.inOperation at hop
      split at hop <;> simp_all [IoPc.owns]
  pending r hr := by
    rcases hd with rfl | hown
    · exact h.pending r hr
    · rw [hr] at hown; cases hown
  refresh p r hr := by
    rcases hd with rfl | hown
    · exact h.refresh p r hr
    · rw [hr] at hown; cases hown
  payload := h.payload

theorem Own.close (h : Own d log c) (hop : c.inOperation = false) : Own (d.close exit) log c where
  logged := h.logged
  session hop' := by rw [hop] at hop'; cases hop'
  pending r hr := ⟨(h.pending r hr).1, (h.pending r hr).2.close⟩
  refresh p r hr := (h.refresh p r hr).close
  payload := h.payload

theorem Own.fresh (hpc : c.pc = .start) (hr : c.received = none) : Own d log c where
  logged r h := by rw [hr] at h; cases h
  session hop := by simp [IoCall.inOperation, hpc] at hop
  pending r h := by rw [hpc] at h; cases h
  refresh p r h := by rw [hpc] at h; cases h
  payload p h := by rw [hpc] at h; cases h

/-- An operation in a state in which it waits for nothing from the datastore. -/
theorem Own.plain (hlogged : ∀ r, c.received = some r →
      ∃ generation, .received generation c.job.request r ∈ log)
    (hpay : ∀ p, c.pc.payload? = some p → ∃ r, c.received = some r ∧ p = finalPayload r)
    (hop : c.inOperation = false) (hpc : ∀ r, c.pc ≠ .responded r)
    (hpc' : ∀ p r, c.pc ≠ .refreshResponded p r) : Own d log c where
  logged := hlogged
  session h := by rw [hop] at h; cases h
  pending r h := absurd h (hpc r)
  refresh p r h := absurd h (hpc' p r)
  payload := hpay

end

/-- A foreground operation touches the datastore only while it owns the I/O. -/
theorem IoStep.managed {e e' : Env} {c c' : IoCall} (h : IoStep cfg e c choice e' c') :
    e'.managed = e.managed ∨ c.pc.owns = true := by
  cases h with
  | acquire | exceed | wait | payload | publishRead | refreshPayload | publishRefresh | release =>
    exact .inl rfl
  | beginOk hpc | beginFail hpc | respond hpc | raise hpc | refreshBegin hpc | refreshBeginFail hpc
  | refreshRespond hpc | refreshRaise hpc => exact .inr (by rw [hpc]; rfl)

theorem Env.publish_log {e : Env} (h : event ∈ e.log) :
    event ∈ (e.publish cfg request payload originClient fromEtag recordTransition).log := by
  unfold Env.publish
  simp only
  split
  · exact List.mem_append_left _ h
  · exact h

theorem IoStep.log {e e' : Env} {c c' : IoCall} (h : IoStep cfg e c choice e' c') :
    ∀ event ∈ e.log, event ∈ e'.log := by
  intro event hev
  cases h with
  | acquire | exceed | wait | payload | refreshPayload | release => exact hev
  | beginOk _ hb =>
    obtain ⟨-, -, -, -, -, hl⟩ := Env.begin_ok hb
    exact hl ▸ List.mem_append_left _ hev
  | refreshBegin _ _ hb =>
    obtain ⟨-, -, -, -, -, hl⟩ := Env.begin_ok hb
    exact hl ▸ List.mem_append_left _ hev
  | beginFail _ hb =>
    obtain ⟨-, -, -, -, hl⟩ := Env.begin_error hb
    exact hl ▸ hev
  | refreshBeginFail _ _ hb =>
    obtain ⟨-, -, -, -, hl⟩ := Env.begin_error hb
    exact hl ▸ hev
  | respond _ hf | refreshRespond _ hf =>
    cases Env.finish_ok hf
    exact List.mem_append_left _ hev
  | raise _ hf | refreshRaise _ hf =>
    obtain ⟨_, _, _, rfl⟩ := Env.finish_error hf
    exact hev
  | publishRead | publishRefresh => exact Env.publish_log hev

theorem IoStep.own {e e' : Env} {c c' : IoCall} (h : IoStep cfg e c choice e' c')
    (ho : Own e.managed e.log c) : Own e'.managed e'.log c' := by
  have hlog := h.log
  have hlogged (r : Bytes) (hr : c.received = some r) :
      ∃ generation, Event.received generation c.job.request r ∈ e'.log :=
    (ho.logged r hr).imp fun _ hg => hlog _ hg
  have hsame {pc : IoPc} (p : DatastorePayload) (hpc : c.pc.payload? = some p)
      (hpc' : pc.payload? = some p) (q : DatastorePayload) (hq : pc.payload? = some q) :
      ∃ r, c.received = some r ∧ q = finalPayload r := by
    cases hpc'.symm.trans hq
    exact ho.payload p hpc
  cases h with
  | acquire | exceed | wait | beginFail | raise =>
    exact .plain hlogged nofun rfl nofun nofun
  | beginOk hpc hb =>
    obtain ⟨_, _, -, hens, -, -⟩ := Env.begin_ok hb
    exact ⟨hlogged, fun _ => ensureSession_isSome hens, nofun,
      nofun, nofun⟩
  | respond hpc hf =>
    cases Env.finish_ok hf
    have hsome := ho.session (by rw [IoCall.inOperation, hpc])
    refine ⟨fun r hr => ?_, nofun, fun r hr => ?_, nofun,
      nofun⟩
    · cases hr
      exact ⟨_, List.mem_append_right _ List.mem_cons_self⟩
    · cases hr
      exact ⟨rfl, callReturned_remembers hsome⟩
  | payload hpc =>
    obtain ⟨hr, hrem⟩ := ho.pending _ hpc
    refine .plain hlogged (fun p hp => ?_) rfl nofun nofun
    cases hp
    exact ⟨_, hr, hrem.rememberedPayload_eq⟩
  | publishRead hpc hjob =>
    exact .plain hlogged (hsame _ (by rw [hpc]; rfl) rfl) rfl nofun
      nofun
  | refreshBegin hpc hjob hb =>
    obtain ⟨_, _, -, hens, -, -⟩ := Env.begin_ok hb
    exact ⟨hlogged, fun _ => ensureSession_isSome hens, nofun,
      nofun, hsame _ (by rw [hpc]; rfl) rfl⟩
  | refreshBeginFail hpc hjob hb =>
    exact .plain hlogged (hsame _ (by rw [hpc]; rfl) rfl) rfl nofun
      nofun
  | refreshRespond hpc hf =>
    cases Env.finish_ok hf
    have hsome := ho.session (by rw [IoCall.inOperation, hpc])
    refine ⟨hlogged, nofun, nofun, fun p r hr => ?_,
      hsame _ (by rw [hpc]; rfl) rfl⟩
    cases hr
    exact callReturned_remembers hsome
  | refreshRaise hpc hf =>
    exact .plain hlogged (hsame _ (by rw [hpc]; rfl) rfl) rfl nofun
      nofun
  | refreshPayload hpc =>
    exact .plain hlogged (hsame _ (by rw [hpc]; rfl) rfl) rfl nofun
      nofun
  | publishRefresh hpc hjob =>
    exact .plain hlogged (hsame _ (by rw [hpc]; rfl) rfl) rfl nofun
      nofun
  | @release result hpc =>
    refine .plain hlogged (fun p hp => ?_) rfl nofun nofun
    cases result with
    | error exc => cases hp
    | ok q => exact hsame q (by rw [hpc]; rfl) rfl p hp

/-! ## The poller -/

structure PollOwn (cfg : Config) (d : ManagedDatastore) (log : List Event) (pc : PollPc) : Prop where
  session : pc.inOperation = true → d.datastore.isSome = true
  pending : ∀ c r, pc = .responded c r →
    Remembers d r ∧ ∃ generation, .received generation (c.request cfg) r ∈ log
  payload : ∀ c r p, pc = .payload c r p →
    p = finalPayload r ∧ ∃ generation, .received generation (c.request cfg) r ∈ log

section
variable {d d' : ManagedDatastore} {log log' : List Event} {pc : PollPc}

theorem PollOwn.mono (h : PollOwn cfg d log pc) (hd : d' = d ∨ pc.owns = false)
    (hlog : ∀ event ∈ log, event ∈ log') : PollOwn cfg d' log' pc where
  session hop := by
    rcases hd with rfl | hown
    · exact h.session hop
    · cases pc <;> simp_all [PollPc.inOperation, PollPc.owns]
  pending c r hr := by
    rcases hd with rfl | hown
    · exact ⟨(h.pending c r hr).1, (h.pending c r hr).2.imp fun _ hg => hlog _ hg⟩
    · rw [hr] at hown; cases hown
  payload c r p hp := ⟨(h.payload c r p hp).1, (h.payload c r p hp).2.imp fun _ hg => hlog _ hg⟩

theorem PollOwn.close (h : PollOwn cfg d log pc) (hop : pc.inOperation = false) :
    PollOwn cfg (d.close exit) log pc where
  session hop' := by rw [hop] at hop'; cases hop'
  pending c r hr := ⟨(h.pending c r hr).1.close, (h.pending c r hr).2⟩
  payload := h.payload

end

theorem PollStep.managed {e e' : Env} {pc pc' : PollPc} (h : PollStep cfg e pc e' pc') :
    e'.managed = e.managed ∨ pc.owns = true := by
  cases h with
  | start | capture | acquire | wait | readStarted | payload | publish | release | loop | stop =>
    exact .inl rfl
  | beginOk | beginFail | respond | raise => exact .inr rfl

theorem PollStep.log {e e' : Env} {pc pc' : PollPc} (h : PollStep cfg e pc e' pc') :
    ∀ event ∈ e.log, event ∈ e'.log := by
  intro event hev
  cases h with
  | start | capture | acquire | wait | readStarted | payload | release | loop | stop => exact hev
  | beginOk hb =>
    obtain ⟨-, -, -, -, -, hl⟩ := Env.begin_ok hb
    exact hl ▸ List.mem_append_left _ hev
  | beginFail hb =>
    obtain ⟨-, -, -, -, hl⟩ := Env.begin_error hb
    exact hl ▸ hev
  | respond hf => cases Env.finish_ok hf; exact List.mem_append_left _ hev
  | raise hf => obtain ⟨_, _, _, rfl⟩ := Env.finish_error hf; exact hev
  | publish => exact Env.publish_log hev

theorem PollStep.own {e e' : Env} {pc pc' : PollPc} (h : PollStep cfg e pc e' pc')
    (ho : PollOwn cfg e.managed e.log pc) : PollOwn cfg e'.managed e'.log pc' := by
  cases h with
  | start | capture | acquire | wait | beginFail | raise | publish | release | loop | stop =>
    exact ⟨nofun, nofun, nofun⟩
  | beginOk hb =>
    obtain ⟨_, _, -, hens, -, -⟩ := Env.begin_ok hb
    exact ⟨fun _ => ensureSession_isSome hens, nofun, nofun⟩
  | readStarted => exact ⟨ho.session, nofun, nofun⟩
  | respond hf =>
    cases Env.finish_ok hf
    refine ⟨nofun, fun c r hr => ?_, nofun⟩
    cases hr
    exact ⟨callReturned_remembers (ho.session rfl), _, List.mem_append_right _ List.mem_cons_self⟩
  | payload =>
    refine ⟨nofun, nofun, fun c r p hp => ?_⟩
    cases hp
    obtain ⟨hrem, hlog⟩ := ho.pending _ _ rfl
    exact ⟨hrem.rememberedPayload_eq, hlog⟩

/-! ## The system -/

/-- Every thread has what its own request was answered. -/
structure Faithful (cfg : Config) (w : World) : Prop where
  monitor : Monitor w
  client : ∀ (i : Nat) (c : Client) (call : IoCall), w.clients[i]? = some c → c.call? = some call →
    Own w.env.managed w.env.log call
  poller : PollOwn cfg w.env.managed w.env.log w.poller

theorem Client.owns_of_call {c : Client} (h : c.call? = some call) : c.owns = call.pc.owns := by
  simp [Client.owns, h]

theorem Client.step_managed {e e' : Env} {c c' : Client} (h : c.step cfg e choice = some (e', c')) :
    (e'.managed = e.managed ∨ c.owns = true) ∧ ∀ event ∈ e.log, event ∈ e'.log := by
  rcases Client.step_cases h with ⟨call, call', hc, -, hstep⟩ | ⟨⟨_, _, rfl⟩, -, -⟩
  · rw [Client.owns_of_call hc]
    exact ⟨hstep.managed, hstep.log⟩
  · exact ⟨.inl rfl, fun _ h => h⟩

theorem Client.step_own {e e' : Env} {c c' : Client} (h : c.step cfg e choice = some (e', c'))
    (ho : ∀ call, c.call? = some call → Own e.managed e.log call) :
    ∀ call, c'.call? = some call → Own e'.managed e'.log call := by
  intro call' hcall'
  rcases Client.step_cases h with ⟨call, call₁, hc, hc', hstep⟩ | ⟨-, -, hfresh⟩
  · cases hc'.symm.trans hcall'
    exact hstep.own (ho call hc)
  · exact .fresh (hfresh call' hcall').pc (hfresh call' hcall').received

theorem Faithful.spawn {w : World} {c : Client} (hw : Faithful cfg w) (hidle : c.owns = false ∧ c.waits = false)
    (hc : ∀ call, c.call? = some call → call.pc = .start ∧ call.received = none) :
    Faithful cfg { w with clients := w.clients ++ [c] } := by
  refine ⟨hw.monitor.spawn hidle, fun i c' call hi hcall => ?_, hw.poller⟩
  rw [List.getElem?_append] at hi
  split at hi
  · exact hw.client i c' call hi hcall
  · cases List.mem_singleton.mp (List.mem_of_getElem? hi)
    exact .fresh (hc call hcall).1 (hc call hcall).2

theorem get_fresh (call : IoCall)
    (h : (get cfg now path client ifNoneMatch queryFields).call? = some call) :
    call.pc = .start ∧ call.received = none := by
  unfold get at h
  split at h
  · split at h
    · cases h; exact ⟨rfl, rfl⟩
    · cases h
  · cases h; exact ⟨rfl, rfl⟩

theorem Client.inOperation_of_call {c : Client} (h : c.call? = some call) :
    c.inOperation = call.inOperation := by
  cases c with
  | io call' => cases h; rfl
  | wait call' =>
    cases hpc : call'.pc with
    | refresh io | read io =>
      simp only [Client.call?, hpc, Option.some.injEq] at h
      simp only [Client.inOperation, hpc, h]
    | _ => simp [Client.call?, hpc] at h

theorem Faithful.step {w w' : World} (hw : Faithful cfg w) (h : step cfg w a = some w') :
    Faithful cfg w' := by
  have hmon := hw.monitor.step h
  cases a with
  | tick later =>
    simp only [Coordinator.step] at h
    split at h <;> cases h
    exact ⟨hmon, hw.client, hw.poller⟩
  | get path client ifNoneMatch queryFields => cases h; exact hw.spawn get_idle get_fresh
  | post path jsonBody client =>
    cases h
    exact hw.spawn ⟨rfl, rfl⟩ fun call hc => by cases hc; exact ⟨rfl, rfl⟩
  | client i choice =>
    simp only [Coordinator.step, Option.bind_eq_bind, Option.bind_eq_some_iff] at h
    obtain ⟨c, hc, ⟨env', c'⟩, hstep, h⟩ := h
    cases h
    obtain ⟨hmanaged, hlog⟩ := Client.step_managed hstep
    refine ⟨hmon, fun j cj call hj hcall => ?_, hw.poller.mono ?_ hlog⟩
    · by_cases hij : i = j
      · subst hij
        rw [List.getElem?_set_self (List.getElem?_eq_some_iff.mp hc).1] at hj
        cases hj
        exact Client.step_own hstep (fun call hcall => hw.client i c call hc hcall) call hcall
      · rw [List.getElem?_set_ne hij] at hj
        refine (hw.client j cj call hj hcall).mono (hmanaged.imp_right fun hown => ?_) hlog
        cases hown' : call.pc.owns with
        | false => rfl
        | true =>
          exact absurd (hw.monitor.owner_unique hc hown hj
            ((Client.owns_of_call hcall).trans hown')) hij
    · exact hmanaged.imp_right fun hown => hw.monitor.not_poller_of_foreground hc hown
  | poller choice =>
    simp only [Coordinator.step, Option.bind_eq_bind, Option.bind_eq_some_iff] at h
    obtain ⟨⟨env', poller'⟩, hstep, h⟩ := h
    cases h
    have hstep := PollPc.step_cases hstep
    refine ⟨hmon, fun j cj call hj hcall => ?_, hstep.own hw.poller⟩
    refine (hw.client j cj call hj hcall).mono (hstep.managed.imp_right fun hown => ?_) hstep.log
    cases hown' : call.pc.owns with
    | false => rfl
    | true =>
      have := hw.monitor.not_poller_of_foreground hj ((Client.owns_of_call hcall).trans hown')
      rw [hown] at this
      cases this
  | close => cases h; exact ⟨hmon, hw.client, hw.poller⟩
  | closeDatastore exit =>
    simp only [Coordinator.step] at h
    split at h <;> cases h
    rename_i hop
    simp only [World.inOperation, Bool.or_eq_true, List.any_eq_true, not_or, not_exists, not_and,
      Bool.not_eq_true] at hop
    refine ⟨hmon, fun i c call hi hcall => ?_, hw.poller.close hop.1⟩
    refine (hw.client i c call hi hcall).close ?_
    rw [← Client.inOperation_of_call hcall]
    exact hop.2 c (List.mem_of_getElem? hi)

theorem Faithful.init (managed : ManagedDatastore) : Faithful cfg (World.init managed) :=
  ⟨.init managed, fun i c call hi => (by simp [World.init] at hi), ⟨nofun, nofun, nofun⟩⟩

theorem Faithful.of_run {w : World} (h : run (Coordinator.step cfg) (World.init managed) as = some w) :
    Faithful cfg w :=
  run_invariant_of_step (fun _ _ _ hw hstep => hw.step hstep) (.init managed) h

/-- The USB ownership monitor, in every state that a run reaches: the fields name the only owner and
count the waiters, every step takes or gives back exactly the contribution of its own thread, the
poller does not acquire past a waiter, and a thread holds the payload of its own response. -/
theorem usb_ownership_monitor {w : World}
    (h : run (step cfg) (World.init managed) as = some w) :
    w.clients.countP Client.owns + w.poller.owns.toNat ≤ 1 ∧
    (w.env.shared.ioBusy = true ↔ w.clients.countP Client.owns + w.poller.owns.toNat = 1) ∧
    (w.env.shared.ioOwner = some .foreground ↔ w.clients.countP Client.owns = 1) ∧
    (w.env.shared.ioOwner = some .poller ↔ w.poller.owns = true) ∧
    (w.env.shared.ioOwner = none ↔ w.clients.countP Client.owns + w.poller.owns.toNat = 0) ∧
    w.env.shared.foregroundWaiters = w.clients.countP Client.waits ∧
    (w.env.shared.activePollRead ≠ none → w.poller.owns = true) ∧
    (∀ (i : Nat) (c : Client) choice env' c', w.clients[i]? = some c → c.step cfg w.env choice = some (env', c') →
      Turn w.env.shared env'.shared c.waits c.owns c'.waits c'.owns) ∧
    (∀ choice env' pc', w.poller.step cfg w.env choice = some (env', pc') →
      PollTurn w.env.shared env'.shared w.poller.owns pc'.owns ∧
      (w.poller.owns = false → pc'.owns = true → w.env.shared.foregroundWaiters = 0)) ∧
    (∀ c ∈ w.clients, ∀ call, c.call? = some call → ∀ p, call.pc.payload? = some p →
      ∃ response generation, .received generation call.job.request response ∈ w.env.log ∧
        call.received = some response ∧ p = finalPayload response) ∧
    ∀ c response p, w.poller = .payload c response p → p = finalPayload response ∧
      ∃ generation, .received generation (c.request cfg) response ∈ w.env.log := by
  have hw := Faithful.of_run h
  have hm := hw.monitor
  have hbusy := hm.busy
  refine ⟨?_, ?_, ?_, hm.poller.symm, ?_, hm.waiters, hm.active, fun i c choice env' c' hi hs =>
    Client.turn hs, fun choice env' pc' hs => ?_, fun c hc call hcall p hp => ?_, hw.poller.payload⟩
  iterate 4 rcases hm.owners with ⟨ho, hc, hp⟩ | ⟨ho, hc, hp⟩ | ⟨ho, hc, hp⟩ <;>
    simp [hbusy, ho, hc, hp]
  · have ht := (PollPc.step_cases hs).turn
    refine ⟨ht, fun hown hown' => ?_⟩
    have hnonneg := hm.waiters
    rcases ht.io with ⟨hsame, -⟩ | ⟨-, -, -, hle, -⟩ | ⟨hown'', -⟩
    · rw [hown, hown'] at hsame; cases hsame
    · omega
    · rw [hown] at hown''; cases hown''
  · obtain ⟨i, hi⟩ := List.getElem?_of_mem hc
    have hown := hw.client i c call hi hcall
    obtain ⟨r, hr, hpr⟩ := hown.payload p hp
    obtain ⟨generation, hlog⟩ := hown.logged r hr
    exact ⟨r, generation, hlog, hr, hpr⟩

/-! A read that preempts a long poll. -/

def bytesOf (s : String) : Bytes := (py s).map UInt8.ofNat

/-- The first poll fills the cache, the second one is cancelled for a read. -/
def preemptingRun : List Action :=
  [.poller .go, .poller .go, .poller .go, .poller (.opener none 0),
    .poller (.respond (bytesOf "HTTP/1.1 200 OK\r\nETag: 7\r\n\r\n{}")), .poller .go, .poller .go,
    .poller .go, .poller .go, .poller .go, .poller .go, .poller (.opener none 0),
    .poller (.readStarted (some 1)), .get pollPath none none none, .client 0 .go,
    .poller (.raise ⟨.datastoreCancelled, []⟩ true none), .poller .go, .client 0 .go,
    .client 0 (.opener none 0),
    .client 0 (.respond (bytesOf "HTTP/1.1 200 OK\r\nETag: 8\r\n\r\n[]")), .client 0 .go]

theorem usb_ownership_monitor_preempted :
    ∃ w, run (step {}) (World.init (.init 0 0 0)) preemptingRun = some w ∧
      w.clients.countP Client.owns = 1 ∧ w.env.shared.ioOwner = some .foreground := by
  have hsome : (run (step {}) (World.init (.init 0 0 0)) preemptingRun).isSome = true := by
    decide +kernel
  obtain ⟨w, hw⟩ := Option.isSome_iff_exists.mp hsome
  have hone : ((run (step {}) (World.init (.init 0 0 0)) preemptingRun).map
      fun w => w.clients.countP Client.owns) = some 1 := by decide +kernel
  rw [hw] at hone
  obtain ⟨-, -, hiff, -⟩ := usb_ownership_monitor hw
  exact ⟨w, hw, Option.some.inj hone, hiff.mpr (Option.some.inj hone)⟩

end Coordinator

end MotuProxy
