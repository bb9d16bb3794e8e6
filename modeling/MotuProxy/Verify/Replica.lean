import MotuProxy.Verify.Publication
import MotuProxy.Verify.WaitOutcome

/-! # Replicas stay faithful

A client keeps a replica of the datastore and applies to it the bodies that it is answered. What
the device promises of its answers is `DeviceContract`; then every transition of the history leads
from the state of its first ETag to the state of its second, and so does every answer of a long
poll. Nothing is asked of an answer 304, and nothing of the times at which the ETags are captured.
-/

namespace MotuProxy

open Py Protocol Responses

namespace Coordinator

open Datastore (ManagedDatastore)
open DatastoreCoordinator

/-- No query field but the client. -/
def OnlyClientFields (fields : Option (List QueryField)) : Prop :=
  ∀ field ∈ fields.getD [], field.1 = py "client"

instance : Decidable (OnlyClientFields fields) :=
  inferInstanceAs (Decidable (∀ field ∈ fields.getD [], field.1 = py "client"))

theorem deviceQueryFields_onlyClient (h : OnlyClientFields fields) (client : Option FieldValue) :
    OnlyClientFields (deviceQueryFields fields client) := by
  cases fields with
  | none => exact h
  | some fs =>
    cases client with
    | none => exact h
    | some c =>
      intro field hfield
      simp only [deviceQueryFields, Option.map_some, Option.getD_some] at hfield
      split at hfield
      · exact h field hfield
      · rcases List.mem_append.mp hfield with hfield | hfield
        · exact h field hfield
        · rw [List.mem_singleton.mp hfield]

/-! ## The device -/

section
variable {State : Type} (apply : Bytes → State → State) (stateAt : Str → State)

/-- The body, applied to the state of the first ETag, gives the state of the second. -/
def Carries (from' : Str) (p : DatastorePayload) : Prop :=
  ∃ etag, p.etag = some etag ∧ apply p.body (stateAt from') = stateAt etag

/-- What the device promises of its answer to a read of `/datastore` with an ETag: the full state
for `0`, else the changes since that ETag, or 304. -/
structure Answers (etag : Str) (p : DatastorePayload) : Prop where
  full : etag = py "0" → p.notModified = false ∧ ∀ from', Carries apply stateAt from' p
  delta : etag ≠ py "0" → p.notModified = false → Carries apply stateAt etag p

/-- The device keeps its promise in every answer so far. -/
def DeviceContract (log : List Event) : Prop :=
  ∀ generation etag client fields timeoutMs response,
    .received generation (.get pollPath etag client fields timeoutMs) response ∈ log →
    OnlyClientFields fields → Answers apply stateAt etag (parseDatastoreResponse response)

variable {apply stateAt}

theorem DeviceContract.of_append (h : DeviceContract apply stateAt (log ++ events)) :
    DeviceContract apply stateAt log :=
  fun g etag client fields timeoutMs response hmem =>
    h g etag client fields timeoutMs response (List.mem_append_left _ hmem)

theorem Answers.carries (h : Answers apply stateAt etag p) (hmod : p.notModified = false) :
    Carries apply stateAt etag p := by
  by_cases hetag : etag = py "0"
  · exact (h.full hetag).2 etag
  · exact h.delta hetag hmod

theorem DeviceContract.read {log : List Event} (h : DeviceContract apply stateAt log) {a : ReadArgs}
    (hrec : .received generation a.request response ∈ log) (hpath : a.path = pollPath)
    (hfields : OnlyClientFields a.queryFields) :
    Answers apply stateAt a.etag (parseDatastoreResponse response) := by
  have honly := deviceQueryFields_onlyClient hfields a.client
  unfold ReadArgs.request at hrec
  split at hrec
  · exact h _ _ _ none _ _ (hpath ▸ hrec) nofun
  · rename_i fields heq
    exact h _ _ _ (some fields) _ _ (hpath ▸ hrec) (heq ▸ honly)

end

/-! ## The clients -/

/-- A client whose reads of `/datastore` have no query field but the client. -/
abbrev Client.Plain (c : Client) : Prop := c.ReadsWith OnlyClientFields

/-- An action that reads `/datastore` without other query fields, if it reads it. -/
def PlainRead : Action → Prop
  | .get path _ _ fields => path = pollPath → OnlyClientFields fields
  | _ => True

/-! ## The invariant -/

section
variable {State : Type} {apply : Bytes → State → State} {stateAt : Str → State}

structure Replicated (apply : Bytes → State → State) (stateAt : Str → State) (cfg : Config)
    (w : World) : Prop where
  sourced : Sourced cfg w
  plain : ∀ c ∈ w.clients, c.Plain
  history : DeviceContract apply stateAt w.env.log → ∀ t ∈ w.env.shared.history,
    apply t.body (stateAt t.fromEtag) = stateAt t.toEtag
  answers : DeviceContract apply stateAt w.env.log → ∀ call p, .wait call ∈ w.clients →
    call.pc = .done p → p.notModified = false → Carries apply stateAt call.args.etag p

variable {w w' : World}

theorem Publisher.carries (h : Publisher cfg w request p origin from') (hp : Pending w.env request p)
    (hplain : ∀ c ∈ w.clients, c.Plain) (hd : DeviceContract apply stateAt w.env.log)
    (hmod : p.notModified = false) (hprev : (from' <|> w.env.shared.latestEtag) = some previous) :
    Carries apply stateAt previous p := by
  obtain ⟨r, hr, rfl⟩ := hp.received
  cases h with
  | read hc hcall hjob hpath hetag =>
    exact ((hd.read hr hpath ((hplain _ hc).job _ _ hcall hjob hpath)).full hetag).2 previous
  | refresh => exact ((hd.read hr rfl nofun).full rfl).2 previous
  | poll =>
    cases hprev
    exact (hd _ _ _ _ _ _ hr nofun).carries hmod

theorem Replicated.data (hw : Replicated apply stateAt cfg w) (h : DataStep cfg w w')
    (hd : DeviceContract apply stateAt w.env.log) : ∀ t ∈ w'.env.shared.history,
      apply t.body (stateAt t.fromEtag) = stateAt t.toEtag := by
  refine h.history (fun _ _ ht => ht) (fun request p origin from' t hsource hp _ hmod hn => ?_)
    (hw.history hd)
  obtain ⟨etag, hetag, hcarries⟩ := hsource.carries hp hw.plain hd hmod hn.previous
  cases hn.toEtag.symm.trans hetag
  rw [hn.body]
  exact hcarries

theorem Replicated.step (hw : Replicated apply stateAt cfg w) (hread : PlainRead a)
    (h : Coordinator.step cfg w a = some w') : Replicated apply stateAt cfg w' := by
  obtain ⟨events, hlog⟩ := hw.sourced.log_append h
  have hold (hd : DeviceContract apply stateAt w'.env.log) : DeviceContract apply stateAt w.env.log :=
    (hlog ▸ hd).of_append
  refine ⟨hw.sourced.step h, step_readsWith nofun ?_ h hw.plain,
    fun hd => hw.data (hw.sourced.dataStep h) (hold hd), fun hd call p hmem hpc hmod => ?_⟩
  · cases a with
    | get => exact hread
    | _ => trivial
  · -- a waiter that gets its answer from the history gets a transition that leaves its ETag
    rcases step_wait_done h hmem hpc with hmem | ⟨call₀, -, hargs, hans⟩
    · exact hw.answers (hold hd) call p hmem hpc hmod
    · rw [hargs]
      rcases waitForChange_answer hans with ⟨t, ht, hfrom, -, rfl⟩ | ⟨-, rfl⟩
      · exact ⟨t.toEtag, rfl, hfrom ▸ hw.history (hold hd) t ht⟩
      · cases hmod

theorem Replicated.init (managed : ManagedDatastore) :
    Replicated apply stateAt cfg (World.init managed) :=
  ⟨.init managed, fun _ hc => (by cases hc), fun _ _ ht => (by cases ht),
    fun _ _ _ hmem => (by cases hmem)⟩

/-- Replicas stay faithful, in every run whose reads of `/datastore` have no other query field and
whose device keeps its promise. -/
theorem replicas_faithful {w : World} (h : run (step cfg) (World.init managed) as = some w)
    (hreads : ∀ a ∈ as, PlainRead a) (hdevice : DeviceContract apply stateAt w.env.log) :
    (∀ t ∈ w.env.shared.history, apply t.body (stateAt t.fromEtag) = stateAt t.toEtag) ∧
    ∀ call p, .wait call ∈ w.clients → call.args.path = pollPath → call.answer? = some p →
      p.notModified = false →
      ∃ etag, p.etag = some etag ∧ apply p.body (stateAt call.args.etag) = stateAt etag := by
  have hw : Replicated apply stateAt cfg w :=
    run_invariant (C := fun _ a => PlainRead a) (fun _ _ _ hw hread hstep => hw.step hread hstep)
      (.init managed) (Along.of_forall fun a ha _ => hreads a ha) h
  refine ⟨hw.history hdevice, fun call p hmem hpath hans hmod => ?_⟩
  rcases call.answer?_cases hans with hpc | ⟨io, hpc, hdone⟩
  · exact hw.answers hdevice call p hmem hpc hmod
  · -- the read at the end is a full read, and its payload is its own
    obtain ⟨i, hi⟩ := List.getElem?_of_mem hmem
    have hcall : Client.call? (.wait call) = some io := by simp [Client.call?, hpc]
    have hown := hw.sourced.faithful.client i _ io hi hcall
    obtain ⟨r, hr, rfl⟩ := hown.payload p (by rw [hdone]; rfl)
    obtain ⟨g, hlog⟩ := hown.logged r hr
    rw [(hw.plain _ hmem).last call io rfl hpc] at hlog
    exact ((hdevice.read hlog hpath ((hw.plain _ hmem).args call rfl hpath)).full rfl).2 _

end

/-! A long poll that is answered a change. -/

/-- Bodies that start with a plus sign are changes: the rest is appended. -/
def appendChange : Bytes → Bytes → Bytes
  | 0x2b :: change, state => state ++ change
  | body, _ => body

def stateOf (etag : Str) : Bytes := if etag = py "7" then bytesOf "A" else bytesOf "AB"

def fullResponse : Bytes := bytesOf "HTTP/1.1 200 OK\r\nETag: 7\r\n\r\nA"
def changeResponse : Bytes := bytesOf "HTTP/1.1 200 OK\r\nETag: 8\r\n\r\n+B"

def longPollRun : List Action :=
  [.poller .go, .poller .go, .poller .go, .poller (.opener none 0), .poller (.respond fullResponse),
    .poller .go, .poller .go, .poller .go, .poller .go, .get pollPath none (some (py "7")) none,
    .client 0 .go, .poller .go, .poller .go, .poller (.opener none 0),
    .poller (.respond changeResponse), .poller .go, .poller .go, .client 0 .go]

def Event.exchange? : Event → Option (Request × Bytes)
  | .received _ request response => some (request, response)
  | _ => none

theorem mem_exchange {log : List Event} (h : .received generation request response ∈ log) :
    (request, response) ∈ log.filterMap Event.exchange? :=
  List.mem_filterMap.mpr ⟨_, h, rfl⟩

theorem fullResponse_answers : Answers appendChange stateOf (py "0") (parseDatastoreResponse fullResponse) := by
  have hparse : parseDatastoreResponse fullResponse =
      { body := bytesOf "A", etag := some (py "7"), status := some 200 } := by decide +kernel
  rw [hparse]
  exact ⟨fun _ => ⟨by decide, fun _ => ⟨py "7", rfl, rfl⟩⟩, fun h => absurd rfl h⟩

theorem changeResponse_answers :
    Answers appendChange stateOf (py "7") (parseDatastoreResponse changeResponse) := by
  have hparse : parseDatastoreResponse changeResponse =
      { body := bytesOf "+B", etag := some (py "8"), status := some 200 } := by decide +kernel
  rw [hparse]
  exact ⟨fun h => absurd h (by decide), fun _ _ => ⟨py "8", rfl, by decide⟩⟩

theorem replicas_faithful_longPoll :
    ∃ w call p, run (step {}) (World.init (.init 0 0 0)) longPollRun = some w ∧
      .wait call ∈ w.clients ∧ call.answer? = some p ∧ p.body = bytesOf "+B" ∧
      ∃ etag, p.etag = some etag ∧ appendChange p.body (stateOf (py "7")) = stateOf etag := by
  have hfacts : (run (step {}) (World.init (.init 0 0 0)) longPollRun).map (fun w =>
      (w.clients, w.env.log.filterMap Event.exchange?)) =
      some ([.wait {
        args := { path := pollPath, etag := py "7" }, deadline := 31 / 2
        pc := .done {
          body := bytesOf "+B", etag := some (py "8")
          contentType := some (py "application/octet-stream") } }],
        [(.get pollPath (py "0") none none 1200, fullResponse),
          (.get pollPath (py "7") none none 16000, changeResponse)]) := by decide +kernel
  obtain ⟨w, hw, hfacts⟩ := Option.map_eq_some_iff.mp hfacts
  obtain ⟨hclients, hlog⟩ := Prod.mk.inj hfacts
  have hdevice : DeviceContract appendChange stateOf w.env.log := by
    intro generation etag client fields timeoutMs response hmem _
    have hmem := hlog ▸ mem_exchange hmem
    simp only [List.mem_cons, Prod.mk.injEq, Request.get.injEq, List.not_mem_nil, or_false] at hmem
    rcases hmem with ⟨⟨-, rfl, -⟩, rfl⟩ | ⟨⟨-, rfl, -⟩, rfl⟩
    · exact fullResponse_answers
    · exact changeResponse_answers
  have hreads : ∀ a ∈ longPollRun, PlainRead a := by
    simp [longPollRun, PlainRead, OnlyClientFields]
  have hmem := hclients ▸ List.mem_cons_self
  exact ⟨w, _, _, hw, hmem, rfl, rfl,
    (replicas_faithful hw hreads hdevice).2 _ _ hmem rfl rfl rfl⟩

end Coordinator

end MotuProxy
