import MotuProxy.Verify.Replica

/-! # Parameterised responses and the shared history

A waiter is served a transition of the history only if its own query fields are empty or the single
field `client`, but a transition is recorded for every read of `/datastore`. The history is free of
parameterised responses in the runs in which no read of `/datastore` with another field comes to a
transition.
-/

namespace MotuProxy

open Py Protocol Responses

namespace Coordinator

open Datastore (ManagedDatastore)
open DatastoreCoordinator

/-- A read of `/datastore` with no query field on the wire, or with the single field `client`. -/
def Request.Plain : Request → Prop
  | .get path _ client fields _ => path = pollPath ∧
    (normalizeQueryFields fields client = [] ∨
      ∃ value, normalizeQueryFields fields client = [(py "client", value)])
  | .post .. => False

/-- The body of a response to a request with `R`. -/
def BodyOf (R : Request → Prop) (log : List Event) (body : Bytes) : Prop :=
  ∃ generation request response, .received generation request response ∈ log ∧ R request ∧
    body = (parseDatastoreResponse response).body

theorem BodyOf.append (h : BodyOf R log body) : BodyOf R (log ++ events) body := by
  obtain ⟨generation, request, response, hmem, hR, hbody⟩ := h
  exact ⟨generation, request, response, List.mem_append_left _ hmem, hR, hbody⟩

theorem Pending.bodyOf {e : Env} (h : Pending e request p) (hR : R request) : BodyOf R e.log p.body := by
  obtain ⟨r, hr, rfl⟩ := h.received
  exact ⟨_, request, r, hr, hR, rfl⟩

/-- The code's own test of the fields of a read. -/
abbrev Cacheable (fields : Option (List QueryField)) : Prop :=
  longPollQueryFieldsCacheable fields = true

theorem ReadArgs.plain {a : ReadArgs} (hpath : a.path = pollPath) (h : Cacheable a.queryFields) :
    a.request.Plain := by
  unfold ReadArgs.request deviceQueryFields
  cases hfields : a.queryFields with
  | none =>
    refine ⟨hpath, ?_⟩
    cases hclient : a.client with
    | none => exact .inl rfl
    | some c => exact .inr ⟨_, rfl⟩
  | some fields =>
    rw [Cacheable, hfields] at h
    match fields, h with
    | [], _ =>
      refine ⟨hpath, ?_⟩
      cases hclient : a.client with
      | none => exact .inl rfl
      | some c => exact .inr ⟨_, rfl⟩
    | [(name, value)], h =>
      obtain rfl : name = py "client" := of_decide_eq_true h
      refine ⟨hpath, .inr ⟨value.toStr, ?_⟩⟩
      cases hclient : a.client with
      | none => rfl
      | some c => simp [normalizeQueryFields]

/-- A payload whose publication by a read adds a transition: it is new, under a new ETag. -/
def Recordable (s : DatastoreCoordinator) (p : DatastorePayload) : Prop :=
  p.notModified = false ∧ ∃ previous ∈ s.latestEtag, ∃ etag ∈ p.etag, previous ≠ etag

instance : Decidable (Recordable s p) := by
  unfold Recordable
  infer_instance

/-- If the thread is about to publish a read of `/datastore` that adds a transition, the fields of the
read are empty or the single field `client`. -/
def Client.RecordsPlain (s : DatastoreCoordinator) (c : Client) : Prop :=
  match c.call? with
  | some { job := .read args, pc := .payload p, received := _ } =>
    args.path = pollPath → Recordable s p → Cacheable args.queryFields
  | _ => True

instance {c : Client} : Decidable (c.RecordsPlain s) := by
  unfold Client.RecordsPlain
  split <;> infer_instance

def RecordsPlain (w : World) (_ : Action) : Prop := ∀ c ∈ w.clients, c.RecordsPlain w.env.shared

instance : Decidable (RecordsPlain w a) :=
  inferInstanceAs (Decidable (∀ c ∈ w.clients, c.RecordsPlain w.env.shared))

/-- What adds a transition is plain. -/
theorem Publisher.plain {w : World} (h : Publisher cfg w request p origin from')
    (hw : ∀ c ∈ w.clients, c.RecordsPlain w.env.shared) (hmod : p.notModified = false)
    (ht : Recorded w.env p origin from' t) : request.Plain := by
  cases h with
  | @read _ c call args hc hcall hjob hpath _ hpc =>
    obtain ⟨job, pc, received⟩ := call
    cases hjob
    cases hpc
    have hplain := hw c hc
    simp only [Client.RecordsPlain, hcall] at hplain
    exact ReadArgs.plain hpath (hplain hpath ⟨hmod, _, ht.previous, _, ht.toEtag, ht.new⟩)
  | refresh => exact ⟨rfl, .inl rfl⟩
  | poll => exact ⟨rfl, .inl rfl⟩

structure Unparameterised (cfg : Config) (w : World) : Prop where
  sourced : Sourced cfg w
  last : ∀ c ∈ w.clients, c.EndsInRead
  history : ∀ t ∈ w.env.shared.history, BodyOf Request.Plain w.env.log t.body
  answers : ∀ call p, .wait call ∈ w.clients → call.pc = .done p →
    p = unchanged call.args.etag ∨ BodyOf Request.Plain w.env.log p.body

theorem Unparameterised.step {w w' : World} (hw : Unparameterised cfg w)
    (hplain : RecordsPlain w a) (h : Coordinator.step cfg w a = some w') :
    Unparameterised cfg w' := by
  obtain ⟨events, hlog⟩ := hw.sourced.log_append h
  refine ⟨hw.sourced.step h, endsInRead_step hw.last h, ?_, fun call p hmem hpc => ?_⟩
  · refine (hw.sourced.dataStep h).history (fun _ t ht => ?_) (fun request p origin from' t hsource hp _
      hmod hn => ?_) hw.history
    · rw [hlog]
      exact ht.append
    · rw [hlog, hn.body]
      exact (hp.bodyOf (hsource.plain hplain hmod hn)).append
  · rw [hlog]
    rcases step_wait_done h hmem hpc with hmem | ⟨call₀, -, hargs, hans⟩
    · exact (hw.answers call p hmem hpc).imp_right BodyOf.append
    · rw [hargs]
      rcases waitForChange_answer hans with ⟨t, ht, -, -, rfl⟩ | ⟨-, rfl⟩
      · exact .inr (hw.history t ht).append
      · exact .inl rfl

theorem Unparameterised.init (managed : ManagedDatastore) :
    Unparameterised cfg (World.init managed) :=
  ⟨.init managed, fun _ hc => (by cases hc), fun _ ht => (by cases ht), fun _ _ hmem => (by cases hmem)⟩

/-- If no read of `/datastore` with a query field but the client comes to a transition, the history
holds no parameterised response, and a waiter is answered a plain response or one to its own read. -/
theorem history_unparameterised {w : World} (h : run (step cfg) (World.init managed) as = some w)
    (hplain : Along (step cfg) RecordsPlain (World.init managed) as) :
    (∀ t ∈ w.env.shared.history, BodyOf Request.Plain w.env.log t.body) ∧
    ∀ call p, .wait call ∈ w.clients → call.answer? = some p →
      p = unchanged call.args.etag ∨
      BodyOf (fun request => request.Plain ∨ request = call.args.read.request) w.env.log p.body := by
  have hw : Unparameterised cfg w :=
    run_invariant (fun _ _ _ hw hplain hstep => Unparameterised.step hw hplain hstep) (.init managed)
      hplain h
  refine ⟨hw.history, fun call p hmem hans => ?_⟩
  rcases call.answer?_cases hans with hpc | ⟨io, hpc, hdone⟩
  · refine (hw.answers call p hmem hpc).imp_right ?_
    rintro ⟨generation, request, response, hrec, hplain, hbody⟩
    exact ⟨generation, request, response, hrec, .inl hplain, hbody⟩
  · -- the read at the end of the wait returns the response to its own request
    obtain ⟨i, hi⟩ := List.getElem?_of_mem hmem
    have hcall : Client.call? (.wait call) = some io := by simp [Client.call?, hpc]
    have hown := hw.sourced.faithful.client i _ io hi hcall
    obtain ⟨r, hr, rfl⟩ := hown.payload p (by rw [hdone]; rfl)
    obtain ⟨g, hlog⟩ := hown.logged r hr
    rw [hw.last _ hmem call io rfl hpc] at hlog
    exact .inr ⟨g, _, r, hlog, .inr rfl, rfl⟩

def rawResponse : Bytes := bytesOf "HTTP/1.1 200 OK\r\nETag: 8\r\n\r\nX"

/-- A read with the field `future`, which records nothing, and a plain read. -/
def unrecordedRun : List Action :=
  [.get pollPath none none (some [(py "future", .str (py "raw"))]), .client 0 .go,
    .client 0 (.opener none 0), .client 0 (.respond rawResponse), .client 0 .go, .client 0 .go,
    .client 0 .go,
    .get pollPath none none (some []), .client 1 .go, .client 1 (.opener none 0),
    .client 1 (.respond fullResponse), .client 1 .go, .client 1 .go, .client 1 .go]

theorem history_unparameterised_first :
    ∃ w, run (step {}) (World.init (.init 0 0 0)) unrecordedRun = some w ∧
      w.env.shared.history.map (·.body) = [(parseDatastoreResponse fullResponse).body] ∧
      BodyOf Request.Plain w.env.log (parseDatastoreResponse fullResponse).body := by
  have hbodies : (run (step {}) (World.init (.init 0 0 0)) unrecordedRun).map
      (·.env.shared.history.map (·.body)) = some [(parseDatastoreResponse fullResponse).body] := by
    decide +kernel
  obtain ⟨w, hw, hbodies⟩ := Option.map_eq_some_iff.mp hbodies
  obtain ⟨t, ht, hbody⟩ := List.map_eq_singleton_iff.mp hbodies
  refine ⟨w, hw, hbodies, ?_⟩
  rw [← hbody]
  exact (history_unparameterised hw (by decide +kernel)).1 t (ht ▸ List.mem_singleton_self t)

/-! ## A parameterised read that a waiter is served -/

/-- A plain read, a read with the field `future`, and a waiter of a third client. -/
def parameterisedRun : List Action :=
  [.get pollPath none none (some []), .client 0 .go, .client 0 (.opener none 0),
    .client 0 (.respond fullResponse), .client 0 .go, .client 0 .go, .client 0 .go,
    .get pollPath none none (some [(py "future", .str (py "raw"))]), .client 1 .go,
    .client 1 (.opener none 0), .client 1 (.respond rawResponse), .client 1 .go, .client 1 .go,
    .client 1 .go, .get pollPath none (some (py "7")) (some []), .client 2 .go]

/-- The waiter is answered the body that the device returned for the field `future` of another
client, and that no plain read was answered. -/
theorem history_parameterised :
    ∃ w, run (step {}) (World.init (.init 0 0 0)) parameterisedRun = some w ∧
      w.env.shared.history.map (·.body) = [bytesOf "X"] ∧
      (∃ call, .wait call ∈ w.clients ∧ call.args.queryFields = some [] ∧
        call.answer?.map (·.body) = some (bytesOf "X")) ∧
      ¬BodyOf Request.Plain w.env.log (bytesOf "X") := by
  have hfacts : (run (step {}) (World.init (.init 0 0 0)) parameterisedRun).map (fun w =>
      (w.env.shared.history.map (·.body), w.clients[2]?, w.env.log.filterMap Event.exchange?)) =
      some ([bytesOf "X"],
        some (.wait {
          args := { path := pollPath, etag := py "7", queryFields := some [] }, deadline := 31 / 2
          pc := .done {
            body := bytesOf "X", etag := some (py "8")
            contentType := some (py "application/octet-stream") } }),
        [(.get pollPath (py "0") none (some []) 1200, fullResponse),
          (.get pollPath (py "0") none (some [(py "future", .str (py "raw"))]) 1200, rawResponse)]) := by
    decide +kernel
  obtain ⟨w, hw, hfacts⟩ := Option.map_eq_some_iff.mp hfacts
  obtain ⟨hbodies, hfacts⟩ := Prod.mk.inj hfacts
  obtain ⟨hclient, hlog⟩ := Prod.mk.inj hfacts
  refine ⟨w, hw, hbodies, ⟨_, List.mem_of_getElem? hclient, rfl, rfl⟩, ?_⟩
  rintro ⟨generation, request, response, hmem, hplain, hbody⟩
  have hmem := hlog ▸ mem_exchange hmem
  simp only [List.mem_cons, Prod.mk.injEq, List.not_mem_nil, or_false] at hmem
  rcases hmem with ⟨rfl, rfl⟩ | ⟨rfl, rfl⟩
  · exact absurd hbody (by decide +kernel)
  · obtain ⟨-, hempty | ⟨value, hvalue⟩⟩ := hplain
    · exact absurd hempty (by decide)
    · cases hvalue

end Coordinator

end MotuProxy
