import MotuProxy.Verify.PlainHistory
import MotuProxy.Verify.QueryFidelity

/-! # What a read is answered

The proxy makes up no data. A `GET` that succeeds is answered the status, the device's response to
its own request, a transition of the history that starts at its `ETag` and whose body is a response
of the device to a read of `/datastore`, or that nothing has changed.
-/

namespace MotuProxy

open Py Protocol Responses

namespace Coordinator

open Datastore (ManagedDatastore)
open DatastoreCoordinator

/-! ## The history -/

def Request.path : Request → Str
  | .get path .. | .post path .. => path

/-- The transition is the device's response to a read of `/datastore`. -/
structure DatastoreTransition.FromDevice (log : List Event) (t : DatastoreTransition) : Prop where
  received : ∃ generation request response, .received generation request response ∈ log ∧
    request.path = pollPath ∧ (parseDatastoreResponse response).body = t.body ∧
    (parseDatastoreResponse response).etag = some t.toEtag
  contentType : t.contentType = datastoreBodyContentType t.body

theorem DatastoreTransition.FromDevice.append {t : DatastoreTransition} (h : t.FromDevice log) :
    t.FromDevice (log ++ events) := by
  obtain ⟨⟨generation, request, response, hmem, hrest⟩, hcontent⟩ := h
  exact ⟨⟨generation, request, response, List.mem_append_left _ hmem, hrest⟩, hcontent⟩

theorem parseDatastoreResponse_contentType (response : Bytes) :
    (parseDatastoreResponse response).contentType = none := by
  unfold parseDatastoreResponse
  split <;> rfl

/-- The content type of a payload is that of its body. -/
theorem contentTypeOf_parse (response : Bytes) : contentTypeOf (parseDatastoreResponse response) =
    datastoreBodyContentType (parseDatastoreResponse response).body := by
  unfold contentTypeOf
  rw [parseDatastoreResponse_contentType]

theorem contentTypeOf_finalPayload (response : Bytes) :
    contentTypeOf (finalPayload response) = datastoreBodyContentType (finalPayload response).body := by
  unfold finalPayload
  rw [contentTypeOf_parse, contentTypeOf]
  split
  · rename_i hcontent
    exact (Option.some.inj hcontent).symm
  · rfl

theorem publishPayload_contentType {s : DatastoreCoordinator}
    (hs : ∀ t ∈ s.history, t.contentType = datastoreBodyContentType t.body)
    (hp : contentTypeOf payload = datastoreBodyContentType payload.body) :
    ∀ t ∈ (s.publishPayload cfg payload originClient fromEtag recordTransition).history,
      t.contentType = datastoreBodyContentType t.body := by
  unfold publishPayload
  split
  · exact hs
  · split
    · exact hs
    · split
      · exact hs
      · intro t ht
        simp only at ht
        split at ht
        · split at ht
          · rcases List.mem_append.mp (List.mem_of_mem_drop ht) with ht | ht
            · exact hs t ht
            · cases List.mem_singleton.mp ht
              exact hp
          · exact hs t ht
        · exact hs t ht

theorem Publisher.path {w : World} (h : Publisher cfg w request p origin from') :
    request.path = pollPath := by
  cases h with
  | read _ _ _ hpath =>
    unfold ReadArgs.request
    split <;> exact hpath
  | refresh | poll => rfl

/-! ## The answers of the coordinator -/

/-- Everything in the history and every answer from it is a response of the device. -/
structure Answering (cfg : Config) (w : World) : Prop where
  sourced : Sourced cfg w
  contentType : ∀ t ∈ w.env.shared.history, t.contentType = datastoreBodyContentType t.body
  history : ∀ t ∈ w.env.shared.history, t.FromDevice w.env.log
  answers : ∀ call p, .wait call ∈ w.clients → call.pc = .done p → p = unchanged call.args.etag ∨
    call.args.path = pollPath ∧ ∃ t : DatastoreTransition, t.FromDevice w.env.log ∧
      t.fromEtag = call.args.etag ∧
      p = { body := t.body, etag := some t.toEtag, contentType := some t.contentType }

theorem Answering.step {w w' : World} (hw : Answering cfg w) (h : Coordinator.step cfg w a = some w') :
    Answering cfg w' := by
  obtain ⟨events, hlog⟩ := hw.sourced.log_append h
  have hdata := hw.sourced.dataStep h
  have hcontent : ∀ t ∈ w'.env.shared.history, t.contentType = datastoreBodyContentType t.body := by
    cases hdata with
    | same hsame => exact hsame.history ▸ hw.contentType
    | reset hreset =>
      rw [hreset]
      unfold resetIfSessionGenerationChanged
      split
      · exact hw.contentType
      · exact fun t ht => (by cases ht)
    | publish _ hp henv =>
      rw [henv, Env.publish_shared]
      obtain ⟨r, -, rfl⟩ := hp.received
      exact publishPayload_contentType hw.contentType (contentTypeOf_finalPayload r)
  have hreceived : ∀ t ∈ w'.env.shared.history, ∃ generation request response,
      .received generation request response ∈ w'.env.log ∧ request.path = pollPath ∧
      (parseDatastoreResponse response).body = t.body ∧
      (parseDatastoreResponse response).etag = some t.toEtag := by
    refine hdata.history (fun _ t ht => ?_) (fun request p origin from' t hsource hp _ _ hn => ?_)
      fun t ht => (hw.history t ht).received
    · obtain ⟨generation, request, response, hmem, hrest⟩ := ht
      exact ⟨generation, request, response, hlog ▸ List.mem_append_left _ hmem, hrest⟩
    · obtain ⟨r, hmem, rfl⟩ := hp.received
      exact ⟨_, request, r, hlog ▸ List.mem_append_left _ hmem, hsource.path, hn.body.symm, hn.toEtag⟩
  refine ⟨hw.sourced.step h, hcontent, fun t ht => ⟨hreceived t ht, hcontent t ht⟩,
    fun call p hmem hpc => ?_⟩
  rw [hlog]
  rcases step_wait_done h hmem hpc with hmem | ⟨call₀, -, hargs, hans⟩
  · refine (hw.answers call p hmem hpc).imp_right fun ⟨hpath, t, ht, hfrom, hp⟩ => ?_
    exact ⟨hpath, t, ht.append, hfrom, hp⟩
  · rw [hargs]
    rcases waitForChange_answer hans with ⟨t, ht, hfrom, hpath, rfl⟩ | ⟨-, rfl⟩
    · exact .inr ⟨hpath, t, (hw.history t ht).append, hfrom, rfl⟩
    · exact .inl rfl

theorem Answering.init (managed : ManagedDatastore) : Answering cfg (World.init managed) :=
  ⟨.init managed, fun _ ht => (by cases ht), fun _ ht => (by cases ht), fun _ _ hmem => (by cases hmem)⟩

end Coordinator

namespace ReadStack

open Datastore Coordinator Dispatch Stack

variable {σ : Type} {d : DatastoreDispatcher σ} {cfg : Config} {w w' : ReadWorld}

/-! ## The waiters -/

/-- If the call waits, then for its path to change from its `ETag`. -/
def Asks (call : ReadCall) : Client → Prop
  | .io _ => True
  | .wait c => c.args.path = call.path ∧ cleanEtag call.ifNoneMatch = some c.args.etag

theorem asks_get {call : ReadCall} : Asks call (Coordinator.get cfg now call.path client
    call.ifNoneMatch queryFields) := by
  unfold Coordinator.get
  split
  · rename_i hetag
    split
    · trivial
    · exact ⟨rfl, hetag⟩
  · trivial

theorem Asks.step {e e' : Env} {c c' : Client} {call : ReadCall}
    (h : c.step cfg e choice = some (e', c')) (hc : Asks call c) : Asks call c' := by
  cases c with
  | io io =>
    obtain ⟨⟨e₁, io₁⟩, -, hr⟩ := Option.map_eq_some_iff.mp h
    cases hr
    trivial
  | wait c =>
    obtain ⟨⟨e₁, c₁⟩, hstep, hr⟩ := Option.map_eq_some_iff.mp h
    cases hr
    have hargs : c₁.args = c.args := (WaitCall.step_outcome hstep).1
    exact ⟨hargs ▸ hc.1, hargs ▸ hc.2⟩

/-- The threads of the calls ask for what the calls ask for. -/
def Asked (world : World) (reads : List HttpRead) : Prop :=
  ∀ x ∈ reads, ∀ call i, x.call = some (call, i) → ∃ c, world.clients[i]? = some c ∧ Asks call c

theorem Asked.world_step {world world' : World} (hs : Asked world reads)
    (h : WorldStep cfg world b world') : Asked world' reads := by
  intro x hx call i hcall
  obtain ⟨c, hc, hasks⟩ := hs x hx call i hcall
  obtain ⟨c', hc', ⟨-, rfl⟩ | ⟨_, _, -, hstep⟩⟩ := h.client_after hc
  · exact ⟨c', hc', hasks⟩
  · exact ⟨c', hc', hasks.step hstep⟩

theorem Asked.same_calls {world : World} (hs : Asked world reads) (hsame : SameCalls reads reads') :
    Asked world reads' := by
  intro x' hx' call i hcall
  obtain ⟨x, hx, -, hcall⟩ := hsame x' hx' _ hcall
  exact hs x hx call i hcall

theorem Asked.step {a : ReadStack.Action} (hs : Asked w.stack.world w.reads)
    (h : w.step d cfg a = some w') : Asked w'.stack.world w'.reads := by
  cases ReadWorld.step_cases h with
  | quiet hworld =>
    rcases hworld with hworld | ⟨b, -, hworld⟩
    · rw [hworld]
      exact hs
    · exact hs.world_step hworld
  | operate _ _ hworld => exact hs.world_step hworld
  | read => exact hs.same_calls sameCalls_read
  | finish hx => exact hs.same_calls (sameCalls_finish hx)
  | call hx hp hw =>
    have hworld := hs.world_step hw
    intro x' hx' call' i hcall
    rcases List.mem_or_eq_of_mem_set hx' with hx' | rfl
    · exact hworld x' hx' call' i hcall
    · cases hcall
      unfold ReadCall.action at hw
      cases hw
      exact ⟨_, List.getElem?_concat_length, asks_get⟩

/-! ## The answers -/

/-- What the read `a` may be answered, by what the device has sent. -/
inductive Answers (d : DatastoreDispatcher σ) (log : List Event) (a : DispatchArgs) :
    DispatchResult → Prop where
  | status (hp : preparedRead d a = .ok none) : Answers d log a (statusAnswer body)
  | own (hp : preparedRead d a = .ok (some call))
      (hmem : .received generation call.readArgs.request response ∈ log) :
    Answers d log a (readAnswer call (finalPayload response))
  | cached {t : DatastoreTransition} (hp : preparedRead d a = .ok (some call))
      (hpath : call.path = pollPath) (ht : t.FromDevice log)
      (hetag : cleanEtag call.ifNoneMatch = some t.fromEtag) :
    Answers d log a (readAnswer call
      { body := t.body, etag := some t.toEtag, contentType := some t.contentType })
  | notModified (hp : preparedRead d a = .ok (some call))
      (hetag : cleanEtag call.ifNoneMatch = some etag) :
    Answers d log a (readAnswer call (unchanged etag))

theorem Answers.append {a : DispatchArgs} (h : Answers d log a r) : Answers d (log ++ events) a r := by
  cases h with
  | status hp => exact .status hp
  | own hp hmem => exact .own hp (List.mem_append_left _ hmem)
  | cached hp hpath ht hetag => exact .cached hp hpath ht.append hetag
  | notModified hp hetag => exact .notModified hp hetag

/-- What a thread returns to a call. -/
theorem outcome_answers {world : World} {c : Client} {call : ReadCall} {i : Nat} {a : DispatchArgs}
    (hw : Answering cfg world) (hp : preparedRead d a = .ok (some call))
    (hi : world.clients[i]? = some c) (hserves : Serves call c) (hasks : Asks call c)
    (hout : Client.outcome c = some (.ok p)) : Answers d world.env.log a (readAnswer call p) := by
  have hown {io : IoCall} (hcall : c.call? = some io) (hjob : io.job = .read call.readArgs)
      (hpc : io.pc = .done (.ok p)) : Answers d world.env.log a (readAnswer call p) := by
    have hown := hw.sourced.faithful.client i c io hi hcall
    obtain ⟨r, hr, rfl⟩ := hown.payload p (by rw [hpc]; rfl)
    obtain ⟨g, hlog⟩ := hown.logged r hr
    rw [hjob] at hlog
    exact .own hp hlog
  cases c with
  | io io =>
    cases hpc : io.pc with
    | done result =>
      simp only [Client.outcome, hpc, Option.some.injEq] at hout
      exact hown rfl hserves.1 (hout ▸ hpc)
    | _ => simp [Client.outcome, hpc] at hout
  | wait c =>
    cases hpc : c.pc with
    | done p' =>
      simp only [Client.outcome, hpc, Option.some.injEq, Except.ok.injEq] at hout
      subst hout
      rcases hw.answers c p' (List.mem_of_getElem? hi) hpc with rfl | ⟨hpath, t, ht, hfrom, rfl⟩
      · exact .notModified hp hasks.2
      · exact .cached hp (hasks.1.symm.trans hpath) ht (hfrom ▸ hasks.2)
    | read io =>
      cases hio : io.pc with
      | done result =>
        simp only [Client.outcome, hpc, hio, Option.some.injEq] at hout
        exact hown (by simp [Client.call?, hpc]) (hserves.2.2 io hpc) (hout ▸ hio)
      | _ => simp [Client.outcome, hpc, hio] at hout
    | failed exc => simp [Client.outcome, hpc] at hout
    | _ => simp [Client.outcome, hpc] at hout

/-- A read that has an answer had it before, or the step of its thread has just given it. -/
theorem step_results {a : ReadStack.Action} {x' : HttpRead} (h : w.step d cfg a = some w')
    (hx' : x' ∈ w'.reads) (hr : x'.result = some (.ok r)) :
    (∃ x ∈ w.reads, x.args = x'.args ∧ x.result = some (.ok r)) ∨
    w'.stack = w.stack ∧
      ((∃ body, preparedRead d x'.args = .ok none ∧ r = statusAnswer body) ∨
      ∃ x ∈ w.reads, ∃ call i c p, x.args = x'.args ∧ x.call = some (call, i) ∧
        w.stack.world.clients[i]? = some c ∧ Client.outcome c = some (.ok p) ∧
        r = readAnswer call p) := by
  cases a with
  | stack a =>
    simp only [ReadWorld.step, Option.bind_eq_bind, Option.bind_eq_some_iff] at h
    obtain ⟨stack, -, h⟩ := h
    cases h
    exact .inl ⟨x', hx', rfl, hr⟩
  | read a =>
    simp only [ReadWorld.step] at h
    split at h <;> cases h
    rcases List.mem_append.mp hx' with hx' | hx'
    · exact .inl ⟨x', hx', rfl, hr⟩
    · cases List.mem_singleton.mp hx'
      cases hr
  | http k provided =>
    simp only [ReadWorld.step, Option.bind_eq_bind, Option.bind_eq_some_iff] at h
    obtain ⟨x, hx, h⟩ := h
    have hmem := List.mem_of_getElem? hx
    unfold ReadWorld.httpStep at h
    split at h
    · cases h
    · rename_i hresult hnone
      split at h
      · cases h
        rcases List.mem_or_eq_of_mem_set hx' with hx' | rfl
        · exact .inl ⟨x', hx', rfl, hr⟩
        · cases hr
      · rename_i hp
        cases h
        rcases List.mem_or_eq_of_mem_set hx' with hx' | rfl
        · exact .inl ⟨x', hx', rfl, hr⟩
        · cases provided with
          | ok body =>
            cases hr
            exact .inr ⟨rfl, .inl ⟨body, hp, rfl⟩⟩
          | error exc => cases hr
      · simp only [Option.bind_eq_bind, Option.bind_eq_some_iff] at h
        obtain ⟨world, -, h⟩ := h
        cases h
        rcases List.mem_or_eq_of_mem_set hx' with hx' | rfl
        · exact .inl ⟨x', hx', rfl, hr⟩
        · cases hresult.symm.trans hr
    · rename_i call i hresult hcall
      simp only [Option.bind_eq_bind, Option.bind_eq_some_iff] at h
      obtain ⟨result, hresult', h⟩ := h
      obtain ⟨c, hc, hout⟩ := Option.bind_eq_some_iff.1 hresult'
      cases h
      rcases List.mem_or_eq_of_mem_set hx' with hx' | rfl
      · exact .inl ⟨x', hx', rfl, hr⟩
      · cases result with
        | ok p =>
          cases hr
          exact .inr ⟨rfl, .inr ⟨x, hmem, call, i, c, p, rfl, hcall, hc, hout, rfl⟩⟩
        | error exc => cases hr

/-! ## The system -/

/-- A step of the layers is a step of the coordinator, or it does not touch it. -/
theorem ReadWorld.step_world {a : ReadStack.Action} (h : w.step d cfg a = some w') :
    w'.stack.world = w.stack.world ∨ ∃ b, Coordinator.step cfg w.stack.world b = some w'.stack.world := by
  cases a with
  | stack a =>
    simp only [ReadWorld.step, Option.bind_eq_bind, Option.bind_eq_some_iff] at h
    obtain ⟨stack, hstack, h⟩ := h
    cases h
    exact Stack.step_world hstack
  | read a =>
    simp only [ReadWorld.step] at h
    split at h <;> cases h
    exact .inl rfl
  | http k provided =>
    simp only [ReadWorld.step, Option.bind_eq_bind, Option.bind_eq_some_iff] at h
    obtain ⟨x, -, h⟩ := h
    unfold ReadWorld.httpStep at h
    split at h
    · cases h
    · split at h
      · cases h
        exact .inl rfl
      · cases h
        exact .inl rfl
      · simp only [Option.bind_eq_bind, Option.bind_eq_some_iff] at h
        obtain ⟨world, hworld, h⟩ := h
        cases h
        exact .inr ⟨_, hworld⟩
    · simp only [Option.bind_eq_bind, Option.bind_eq_some_iff] at h
      obtain ⟨result, -, h⟩ := h
      cases h
      exact .inl rfl

structure Integrity (d : DatastoreDispatcher σ) (cfg : Config) (w : ReadWorld) : Prop where
  answering : Answering cfg w.stack.world
  served : Served d w.stack.world w.reads
  asked : Asked w.stack.world w.reads
  answers : ∀ x ∈ w.reads, ∀ r, x.result = some (.ok r) → Answers d w.stack.world.env.log x.args r

theorem Integrity.step {a : ReadStack.Action} (hw : Integrity d cfg w) (h : w.step d cfg a = some w') :
    Integrity d cfg w' := by
  have hworld : Answering cfg w'.stack.world ∧
      ∃ events, w'.stack.world.env.log = w.stack.world.env.log ++ events := by
    rcases ReadWorld.step_world h with hworld | ⟨b, hstep⟩
    · rw [hworld]
      exact ⟨hw.answering, [], (List.append_nil _).symm⟩
    · exact ⟨hw.answering.step hstep, hw.answering.sourced.log_append hstep⟩
  obtain ⟨hanswering, events, hlog⟩ := hworld
  refine ⟨hanswering, hw.served.step h, hw.asked.step h, fun x' hx' r hr => ?_⟩
  rw [hlog]
  rcases step_results h hx' hr with ⟨x, hx, hargs, hr⟩ |
    ⟨-, ⟨body, hp, rfl⟩ | ⟨x, hx, call, i, c, p, hargs, hcall, hc, hout, rfl⟩⟩
  · exact hargs ▸ (hw.answers x hx r hr).append
  · exact .status hp
  · obtain ⟨c₁, hc₁, hserves⟩ := hw.served.serves x hx call i hcall
    obtain ⟨c₂, hc₂, hasks⟩ := hw.asked x hx call i hcall
    cases hc.symm.trans hc₁
    cases hc.symm.trans hc₂
    have hp := hw.served.prepared x hx call i hcall
    exact hargs ▸ (outcome_answers hw.answering hp hc hserves hasks hout).append

theorem Integrity.of_run {managed : ManagedDatastore} {session : MotuUsbDatastore}
    {as : List ReadStack.Action}
    (hrun : run (ReadWorld.step d cfg) (.init managed session) as = some w) : Integrity d cfg w := by
  refine run_invariant_of_step (fun _ _ _ hw h => hw.step h) ?_ hrun
  have hserved := (served_run (show run (ReadWorld.step d cfg) (.init managed session) [] =
    some (.init managed session) from rfl)).1
  exact ⟨.init managed, hserved, fun x hx => absurd hx List.not_mem_nil,
    fun x hx => absurd hx List.not_mem_nil⟩

end ReadStack

end MotuProxy
