import MotuProxy.Verify.Replica

/-! # Whose change it was

A device is put beside the coordinator: it counts its changes, with who made each of them, and
every version has an ETag of its own. `post` attributes to its client everything between the ETag
that the coordinator knew and the ETag of the refresh. As long as nobody else has changed the device
between these for a POST of its own client, a waiter that is not told of a change has made it itself.
-/

namespace MotuProxy

open Py Protocol Responses

namespace Coordinator

open Datastore (ManagedDatastore)
open DatastoreCoordinator

/-! ## The device -/

/-- Who makes a change: somebody else, or a POST of a client through this coordinator. -/
inductive Cause where
  | foreign
  | post (client : Option Str)
  deriving DecidableEq, Repr

/-- The coordinator and the changes of the device, oldest first: version `n` is the state after the
first `n` changes. -/
structure DeviceWorld where
  world : World
  changes : List Cause := []

inductive DeviceAction where
  | change (cause : Cause)
  | act (a : Action)

/-- A POST of the client that was sent to the device. -/
def Event.postOf (client : Option Str) : Event → Bool
  | .sent _ (.post _ _ c) => clientString c = client
  | _ => false

def DeviceWorld.step (cfg : Config) (d : DeviceWorld) : DeviceAction → Option DeviceWorld
  | .change .foreign => some { d with changes := d.changes ++ [.foreign] }
  | .change (.post client) =>
    if d.world.env.log.any (Event.postOf client) then
      some { d with changes := d.changes ++ [.post client] }
    else none
  | .act a => (Coordinator.step cfg d.world a).map fun world => { d with world }

/-- All changes from the version of the first ETag to the version of the second were made by POSTs
of the client. -/
def OwnChanges (etagOf : Nat → Str) (changes : List Cause) (from' to' client : Option Str) : Prop :=
  ∀ v u, from' = some (etagOf v) → to' = some (etagOf u) →
    ∀ k, v ≤ k → k < u → changes[k]? = some (.post client)

section
variable {etagOf : Nat → Str}

theorem OwnChanges.append (h : OwnChanges etagOf changes from' to' client) :
    OwnChanges etagOf (changes ++ more) from' to' client := by
  intro v u hv hu k hvk hku
  have hk := h v u hv hu k hvk hku
  rw [List.getElem?_append_left (List.getElem?_eq_some_iff.mp hk).1, hk]

theorem OwnChanges.of_drop (hinj : Function.Injective etagOf)
    (h : ∀ v, from' = some (etagOf v) → ∀ cause ∈ changes.drop v, cause = .post client) :
    OwnChanges etagOf changes from' (some (etagOf changes.length)) client := by
  intro v u hv hu k hvk hku
  cases hinj (Option.some.inj hu)
  have hmem : changes[k] ∈ changes.drop v := by
    rw [List.mem_iff_getElem]
    refine ⟨k - v, by rw [List.length_drop]; omega, ?_⟩
    simp only [List.getElem_drop, Nat.add_sub_cancel' hvk]
  rw [List.getElem?_eq_getElem hku, h v hv _ hmem]

end

/-! ## What is assumed -/

/-- The response to a request for the full state of `/datastore`. -/
def Event.fullResponse? : Event → Option Bytes
  | .received _ (.get path etag _ fields _) response =>
    if path = pollPath ∧ etag = py "0" ∧ OnlyClientFields fields then some response else none
  | _ => none

def FullAnswer (log : List Event) (response : Bytes) : Prop :=
  response ∈ log.filterMap Event.fullResponse?

theorem onlyClientFields_none : OnlyClientFields none := by
  intro fields h
  cases h

theorem FullAnswer.read {log : List Event} {a : ReadArgs} (hpath : a.path = pollPath)
    (hetag : a.etag = py "0") (hfields : OnlyClientFields a.queryFields)
    (hmem : .received generation a.request response ∈ log) : FullAnswer log response := by
  refine List.mem_filterMap.mpr ⟨_, hmem, ?_⟩
  have honly := deviceQueryFields_onlyClient hfields a.client
  unfold ReadArgs.request
  split
  · simp [Event.fullResponse?, hpath, hetag, onlyClientFields_none]
  · rename_i fields heq
    rw [heq] at honly
    simp [Event.fullResponse?, hpath, hetag, honly]

section
variable (cfg : Config) (etagOf : Nat → Str) (client : Str)

/-- The device answers a request for the full state with the state, and with the current ETag. -/
def AnswersCurrent (d : DeviceWorld) (a : DeviceAction) : Prop :=
  ∀ d' ∈ d.step cfg a, ∀ response ∈ (d'.world.env.log.drop d.world.env.log.length).filterMap
      Event.fullResponse?,
    (parseDatastoreResponse response).notModified = false ∧
    (parseDatastoreResponse response).etag = some (etagOf d.changes.length)

instance : Decidable (AnswersCurrent cfg etagOf d a) := by
  unfold AnswersCurrent
  infer_instance

/-- When the refresh of a POST of the client is answered, all changes since the latest ETag are by the
client. -/
def OwnRefresh (d : DeviceWorld) (a : DeviceAction) : Prop :=
  match a with
  | .act (.client i (.respond _)) => match d.world.clients[i]?.bind Client.call? with
    | some { job := .post args, pc := .refreshing _, received := _ } =>
      clientString args.client = some client → ∀ v < d.changes.length,
        d.world.env.shared.latestEtag = some (etagOf v) →
          ∀ cause ∈ d.changes.drop v, cause = .post (some client)
    | _ => True
  | _ => True

instance : Decidable (OwnRefresh etagOf client d a) := by
  unfold OwnRefresh
  split
  · split <;> infer_instance
  · infer_instance

variable {etagOf} {client}

theorem AnswersCurrent.full {d d' : DeviceWorld} (h : AnswersCurrent cfg etagOf d a)
    (hstep : d.step cfg a = some d') (hlog : d'.world.env.log = d.world.env.log ++ events)
    (hfull : FullAnswer events response) : (parseDatastoreResponse response).notModified = false ∧
      (parseDatastoreResponse response).etag = some (etagOf d.changes.length) :=
  h d' hstep response (by rw [hlog, List.drop_left]; exact hfull)

theorem OwnRefresh.changes {d : DeviceWorld} {i : Nat} {c : Client} {call : IoCall}
    (h : OwnRefresh etagOf client d (.act (.client i (.respond r))))
    (hc : d.world.clients[i]? = some c) (hcall : c.call? = some call)
    (hpc : call.pc = .refreshing p) (hjob : call.job = .post args)
    (hclient : clientString args.client = some client) :
    ∀ v, d.world.env.shared.latestEtag = some (etagOf v) →
      ∀ cause ∈ d.changes.drop v, cause = .post (some client) := by
  obtain ⟨job, pc, received⟩ := call
  cases hpc
  cases hjob
  simp only [OwnRefresh, hc, Option.bind_some, hcall] at h
  intro v hv
  by_cases hlt : v < d.changes.length
  · exact h hclient v hlt hv
  · rw [List.drop_eq_nil_of_le (by omega)]
    exact fun _ hmem => by cases hmem

end

/-! ## The invariant -/

/-- If the refresh that an operation is about to publish is attributed to the client, it is so
rightly. -/
structure OwnPending (etagOf : Nat → Str) (client : Str) (changes : List Cause) (latest : Option Str)
    (call : IoCall) : Prop where
  responded : ∀ p r a, call.pc = .refreshResponded p r → call.job = .post a →
    clientString a.client = some client →
      OwnChanges etagOf changes latest (parseDatastoreResponse r).etag (some client)
  refreshed : ∀ p q a, call.pc = .refreshed p q → call.job = .post a →
    clientString a.client = some client → OwnChanges etagOf changes latest q.etag (some client)

structure Attributed (etagOf : Nat → Str) (client : Str) (cfg : Config) (d : DeviceWorld) : Prop where
  sourced : Sourced cfg d.world
  last : ∀ c ∈ d.world.clients, c.EndsInRead
  full : ∀ response, FullAnswer d.world.env.log response →
    (parseDatastoreResponse response).notModified = false
  posts : ∀ client, .post client ∈ d.changes → d.world.env.log.any (Event.postOf client) = true
  pending : ∀ c ∈ d.world.clients, ∀ call, c.call? = some call →
    OwnPending etagOf client d.changes d.world.env.shared.latestEtag call
  history : ∀ t ∈ d.world.env.shared.history, t.originClient = some client →
    OwnChanges etagOf d.changes (some t.fromEtag) (some t.toEtag) (some client)

section
variable {etagOf : Nat → Str} {client : Str} {d d' : DeviceWorld}

theorem OwnPending.of_not_owns {call : IoCall} (h : call.pc.owns = false) :
    OwnPending etagOf client changes latest call := by
  refine ⟨fun p r a hpc => ?_, fun p q a hpc => ?_⟩ <;> rw [hpc] at h <;> cases h

theorem OwnPending.none {call : IoCall} : OwnPending etagOf client changes none call :=
  ⟨fun _ _ _ _ _ _ _ _ h => (by cases h), fun _ _ _ _ _ _ _ _ h => (by cases h)⟩

/-- An operation that does not come to a refresh has nothing to attribute. -/
theorem OwnPending.plain {call : IoCall} (h₁ : ∀ p r, call.pc ≠ .refreshResponded p r)
    (h₂ : ∀ p q, call.pc ≠ .refreshed p q) : OwnPending etagOf client changes latest call :=
  ⟨fun p r _ hpc => absurd hpc (h₁ p r), fun p q _ hpc => absurd hpc (h₂ p q)⟩

theorem reset_latestEtag (s : DatastoreCoordinator) (generation : Nat) :
    (s.resetIfSessionGenerationChanged generation).latestEtag = s.latestEtag ∨
    (s.resetIfSessionGenerationChanged generation).latestEtag = none := by
  unfold resetIfSessionGenerationChanged
  split
  · exact .inl rfl
  · exact .inr rfl

theorem IoStep.ownPending {e e' : Env} {call call' : IoCall} (h : IoStep cfg e call choice e' call')
    (ho : Own e.managed e.log call) (hp : OwnPending etagOf client changes e.shared.latestEtag call)
    (hrefresh : ∀ p a r, call.pc = .refreshing p → call.job = .post a →
      clientString a.client = some client → choice = .respond r →
      e'.log = e.log ++ [.received e.managed.sessionGeneration refreshArgs.request r] →
      OwnChanges etagOf changes e.shared.latestEtag (parseDatastoreResponse r).etag (some client)) :
    OwnPending etagOf client changes e'.shared.latestEtag call' := by
  cases h with
  | acquire | exceed | wait | beginOk | beginFail | respond | raise | payload | publishRead
  | refreshBegin | refreshBeginFail | refreshRaise | publishRefresh | release =>
    exact .plain (fun p r hpc => by cases hpc) fun p q hpc => by cases hpc
  | refreshRespond hpc hf =>
    have hchoice := Env.finish_choice hf
    cases Env.finish_ok hf
    refine ⟨fun p r a hpc' hjob hclient => ?_, fun p q a hpc' => by cases hpc'⟩
    cases hpc'
    exact hrefresh _ a _ hpc hjob hclient hchoice rfl
  | @refreshPayload p r hpc =>
    rcases reset_latestEtag e.shared e.managed.sessionGeneration with hsame | hnone
    · refine ⟨fun p r a hpc' => (by cases hpc'), fun p' q a hpc' hjob hclient => ?_⟩
      cases hpc'
      have hpayload : (e.payloadFromResponse r).1 = finalPayload r :=
        (ho.refresh p r hpc).rememberedPayload_eq
      have := hp.responded p r a hpc hjob hclient
      rw [hpayload]
      exact hsame ▸ this
    · have : (e.payloadFromResponse r).2.shared.latestEtag = none := hnone
      rw [this]
      exact .none

theorem IoStep.done_payload {e e' : Env} {call call' : IoCall} (h : IoStep cfg e call choice e' call')
    (hdone : call'.pc = .done (.ok p)) : call.pc.payload? = some p := by
  cases h with
  | release hpc =>
    cases hdone
    rw [hpc]
    rfl
  | _ => cases hdone

theorem SameData.ownPending {s s' : DatastoreCoordinator} {call : IoCall} (h : SameData s s')
    (hp : OwnPending etagOf client changes s.latestEtag call) :
    OwnPending etagOf client changes s'.latestEtag call := by
  rw [h.latestEtag]
  exact hp

/-- The history after a step of the coordinator. -/
theorem Attributed.data {w' : World} (hd : Attributed etagOf client cfg d) (h : DataStep cfg d.world w') :
    ∀ t ∈ w'.env.shared.history, t.originClient = some client →
      OwnChanges etagOf d.changes (some t.fromEtag) (some t.toEtag) (some client) := by
  cases h with
  | same hdata hlog =>
    rw [hdata.history]
    exact hd.history
  | reset hdata hlog =>
    rw [hdata]
    unfold resetIfSessionGenerationChanged
    split
    · exact hd.history
    · exact fun t ht => by cases ht
  | @publish request p origin from' hsource hp henv =>
    rw [henv]
    rcases publish_cases d.world.env cfg request p origin from' with ⟨-, heq⟩ |
      ⟨etag, hetag, -, -, -, hhist⟩
    · rw [heq]
      exact hd.history
    · intro t ht hclient
      rcases hhist t ht with ht | ⟨-, hfrom, hto, -, horigin, -⟩
      · exact hd.history t ht hclient
      · rw [hclient] at horigin
        cases hsource with
        | read => cases horigin
        | poll => cases horigin
        | refresh hc hcall hjob hpc =>
          rw [← hfrom, hto, ← hetag]
          exact (hd.pending _ hc _ hcall).refreshed _ _ _ hpc hjob horigin.symm

/-- A step of a client thread: after a refresh that answers with the current ETag, all changes are
the client's own. -/
theorem Attributed.pending_client {w' : World} {i : Nat} (hinj : Function.Injective etagOf)
    (hd : Attributed etagOf client cfg d) (hcur : AnswersCurrent cfg etagOf d (.act (.client i choice)))
    (hown : OwnRefresh etagOf client d (.act (.client i choice)))
    (h : Coordinator.step cfg d.world (.client i choice) = some w') :
    ∀ c ∈ w'.clients, ∀ call, c.call? = some call →
      OwnPending etagOf client d.changes w'.env.shared.latestEtag call := by
  have hmon := hd.sourced.faithful.monitor
  have hstepW := h
  simp only [Coordinator.step, Option.bind_eq_bind, Option.bind_eq_some_iff] at h
  obtain ⟨c, hc, ⟨env', c'⟩, hstep, h⟩ := h
  cases h
  intro cj hcj call hcall
  obtain ⟨j, hj⟩ := List.getElem?_of_mem hcj
  by_cases hij : i = j
  · subst hij
    rw [List.getElem?_set_self (List.getElem?_eq_some_iff.mp hc).1] at hj
    cases hj
    rcases Client.step_cases hstep with ⟨call₁, call₂, hc₁, hc₂, hio⟩ | ⟨-, -, hfresh⟩
    · cases hc₂.symm.trans hcall
      refine hio.ownPending (hd.sourced.faithful.client i c call₁ hc hc₁)
        (hd.pending c (List.mem_of_getElem? hc) call₁ hc₁) fun p args r hpc hjob hclient hr hlog => ?_
      cases hr
      have hanswer : FullAnswer [.received d.world.env.managed.sessionGeneration refreshArgs.request r]
          r := .read (a := refreshArgs) rfl rfl onlyClientFields_none List.mem_cons_self
      have hdevice := congrArg (Option.map fun world => ({ d with world } : DeviceWorld)) hstepW
      rw [(hcur.full _ hdevice hlog hanswer).2]
      exact .of_drop hinj (hown.changes hc hc₁ hpc hjob hclient)
    · exact .of_not_owns (by rw [(hfresh call hcall).pc]; rfl)
  · rw [List.getElem?_set_ne hij] at hj
    have hpend := hd.pending cj (List.mem_of_getElem? hj) call hcall
    rcases hmon.client_other hc hstep hij hj hcall with ⟨-, hdata⟩ | hnot
    · exact hdata.ownPending hpend
    · exact .of_not_owns hnot

theorem Attributed.pending_step {w' : World} (hinj : Function.Injective etagOf)
    (hd : Attributed etagOf client cfg d) (hcur : AnswersCurrent cfg etagOf d (.act a))
    (hown : OwnRefresh etagOf client d (.act a)) (h : Coordinator.step cfg d.world a = some w') :
    ∀ c ∈ w'.clients, ∀ call, c.call? = some call →
      OwnPending etagOf client d.changes w'.env.shared.latestEtag call := by
  have hmon := hd.sourced.faithful.monitor
  have hspawn (c' : Client) (hidle : ∀ call, c'.call? = some call → call.pc = .start) :
      ∀ c ∈ d.world.clients ++ [c'], ∀ call, c.call? = some call →
        OwnPending etagOf client d.changes d.world.env.shared.latestEtag call := by
    intro c hc call hcall
    rcases List.mem_append.mp hc with hc | hc
    · exact hd.pending c hc call hcall
    · rw [List.mem_singleton.mp hc] at hcall
      exact .of_not_owns (by rw [hidle call hcall]; rfl)
  cases a with
  | tick later =>
    simp only [Coordinator.step] at h
    split at h <;> cases h
    exact hd.pending
  | get path client ifNoneMatch queryFields =>
    cases h
    exact hspawn _ fun call hcall => (get_fresh call hcall).1
  | post path jsonBody client =>
    cases h
    refine hspawn _ fun call hcall => ?_
    cases hcall
    rfl
  | client i choice => exact hd.pending_client hinj hcur hown h
  | poller choice =>
    simp only [Coordinator.step, Option.bind_eq_bind, Option.bind_eq_some_iff] at h
    obtain ⟨⟨env', poller'⟩, hstep, h⟩ := h
    cases h
    intro cj hcj call hcall
    obtain ⟨j, hj⟩ := List.getElem?_of_mem hcj
    rcases hmon.poller_other (PollPc.step_cases hstep) hj hcall with ⟨-, hdata⟩ | hnot
    · exact hdata.ownPending (hd.pending cj hcj call hcall)
    · exact .of_not_owns hnot
  | close =>
    cases h
    exact fun c hc call hcall => (close_sameData _).ownPending (hd.pending c hc call hcall)
  | closeDatastore exit =>
    simp only [Coordinator.step] at h
    split at h <;> cases h
    exact hd.pending

theorem Attributed.change (hd : Attributed etagOf client cfg d)
    (hcause : ∀ client, cause = .post client → d.world.env.log.any (Event.postOf client) = true) :
    Attributed etagOf client cfg { d with changes := d.changes ++ [cause] } := by
  refine ⟨hd.sourced, hd.last, hd.full, fun client hmem => ?_, fun c hc call hcall => ?_,
    fun t ht hclient => (hd.history t ht hclient).append⟩
  · rcases List.mem_append.mp hmem with hmem | hmem
    · exact hd.posts client hmem
    · exact hcause client (List.mem_singleton.mp hmem).symm
  · have hp := hd.pending c hc call hcall
    exact ⟨fun p r a hpc hjob hclient => (hp.responded p r a hpc hjob hclient).append,
      fun p q a hpc hjob hclient => (hp.refreshed p q a hpc hjob hclient).append⟩

theorem Attributed.step (hinj : Function.Injective etagOf) (hd : Attributed etagOf client cfg d)
    (hcur : AnswersCurrent cfg etagOf d a) (hown : OwnRefresh etagOf client d a)
    (h : d.step cfg a = some d') : Attributed etagOf client cfg d' := by
  cases a with
  | change cause =>
    cases cause with
    | foreign => cases h; exact hd.change nofun
    | post client =>
      simp only [DeviceWorld.step] at h
      split at h <;> cases h
      rename_i hsent
      exact hd.change fun client' heq => by cases heq; exact hsent
  | act a =>
    obtain ⟨w', hw', hr⟩ := Option.map_eq_some_iff.mp h
    cases hr
    obtain ⟨events, hlog⟩ := hd.sourced.log_append hw'
    have hpending := hd.pending_step hinj hcur hown hw'
    refine ⟨hd.sourced.step hw', endsInRead_step hd.last hw', fun response hfull => ?_,
      fun client hmem => ?_, hpending, hd.data (hd.sourced.dataStep hw')⟩
    · simp only [FullAnswer, hlog, List.filterMap_append, List.mem_append] at hfull
      rcases hfull with hfull | hfull
      · exact hd.full response hfull
      · exact (hcur.full _ h hlog hfull).1
    · simp only [hlog, List.any_append, hd.posts client hmem, Bool.true_or]

theorem Attributed.init (managed : ManagedDatastore) (changes : List Cause)
    (hforeign : ∀ cause ∈ changes, cause = .foreign) :
    Attributed etagOf client cfg { world := World.init managed, changes } := by
  refine ⟨.init managed, fun c hc => (by cases hc), fun r hr => ?_, fun client hmem => ?_,
    fun c hc => (by cases hc), fun t ht => (by cases ht)⟩
  · cases hr
  · cases hforeign _ hmem

end

/-- A foreign change is never hidden from a waiter, in every run in which nobody else changes the
device between the latest ETag and the refresh of a POST of the waiter's client. -/
theorem foreign_change_not_hidden {etagOf : Nat → Str} (hinj : Function.Injective etagOf)
    {changes : List Cause} (hforeign : ∀ cause ∈ changes, cause = .foreign) {d : DeviceWorld}
    {client latest : Str} (hC : Along (DeviceWorld.step cfg) (fun d a => AnswersCurrent cfg etagOf d a ∧
      OwnRefresh etagOf client d a) { world := World.init managed, changes } as)
    (hrun : run (DeviceWorld.step cfg) { world := World.init managed, changes } as = some d)
    {i : Nat} {call call' : WaitCall} {p : DatastorePayload}
    (hi : d.world.clients[i]? = some (.wait call)) (hpath : call.args.path = pollPath)
    (hfields : OnlyClientFields call.args.queryFields)
    (hclient : clientString call.args.client = some client)
    (hstep : call.step cfg d.world.env choice = some (env', call'))
    (hans : call'.answer? = some p) (hmod : p.notModified = true)
    (hlatest : d.world.env.shared.latestEtag = some latest) (hne : latest ≠ call.args.etag) :
    ∀ v u, call.args.etag = etagOf v → latest = etagOf u → ∀ k, v ≤ k → k < u →
      d.changes[k]? = some (.post (some client)) ∧
      ∃ generation path jsonBody client', clientString client' = some client ∧
        .sent generation (.post path jsonBody client') ∈ d.world.env.log := by
  have hd : Attributed etagOf client cfg d :=
    run_invariant (fun _ _ _ hd hC hstep => Attributed.step hinj hd hC.1 hC.2 hstep)
      (.init managed changes hforeign) hC hrun
  intro v u hv hu k hvk hku
  have hown : OwnChanges etagOf d.changes (some call.args.etag) (some latest) (some client) := by
    obtain ⟨-, hdone, -, hread⟩ := WaitCall.step_outcome hstep
    rcases call'.answer?_cases hans with hpc | ⟨io, hpc, hio⟩
    · rcases waitForChange_answer (hdone p hpc).2 with ⟨t, -, -, -, rfl⟩ | ⟨hidle, -⟩
      · cases hmod
      · -- the waiter is left alone because of a transition of its own
        obtain ⟨t, ht, hfrom, hto, -, horigin⟩ := findWaitOutcomeLocked_idle hidle hlatest hne
        rw [← hfrom, ← hto]
        exact hd.history t ht (horigin.trans hclient)
    · -- the read at the end asks for the full state, which is never 304
      rcases hread io hpc with rfl | ⟨io₀, hpc₀, hio₀⟩
      · cases hio
      · have hcall : Client.call? (.wait call) = some io₀ := by simp [Client.call?, hpc₀]
        have howns := hd.sourced.faithful.client i _ io₀ hi hcall
        obtain ⟨r, hr, rfl⟩ := howns.payload p (IoStep.done_payload (IoCall.step_cases hio₀) hio)
        obtain ⟨g, hlog⟩ := howns.logged r hr
        rw [hd.last _ (List.mem_of_getElem? hi) call io₀ rfl hpc₀] at hlog
        have hfull := hd.full r (.read (a := call.args.read) hpath rfl hfields hlog)
        exact absurd (hfull.symm.trans hmod) (by decide)
  have hk := hown v u (congrArg some hv) (congrArg some hu) k hvk hku
  refine ⟨hk, ?_⟩
  obtain ⟨event, hmem, hpost⟩ := List.any_eq_true.mp (hd.posts _ (List.mem_of_getElem? hk))
  unfold Event.postOf at hpost
  split at hpost
  · exact ⟨_, _, _, _, of_decide_eq_true hpost, hmem⟩
  · cases hpost

/-! A write that follows a change at the front panel. -/

/-- Version `n` has `n + 1` strokes for its ETag. -/
def tally (n : Nat) : Str := List.replicate (n + 1) 0x31

theorem tally_injective : Function.Injective tally := by
  intro m n h
  simpa [tally] using congrArg List.length h

def tallyResponse (etag : String) : Bytes :=
  bytesOf "HTTP/1.1 200 OK\r\nETag: " ++ bytesOf etag ++ bytesOf "\r\n\r\n{}"

/-- A poll that finds version 0, a write by client 9, and a long poll of client 9 from there. Before
the write reaches the device, somebody else makes the changes `before`. -/
def writeRun (before : List Cause) (refreshed : String) : List DeviceAction :=
  [.act (.poller .go), .act (.poller .go), .act (.poller .go), .act (.poller (.opener none 0)),
    .act (.poller (.respond (tallyResponse "1"))), .act (.poller .go), .act (.poller .go),
    .act (.poller .go), .act (.post (py "/datastore/uid") (bytesOf "{}") (some (.str (py "9")))),
    .act (.client 0 .go)] ++ before.map .change ++
  [.act (.client 0 (.opener none 0)), .change (.post (some (py "9"))),
    .act (.client 0 (.respond (bytesOf "HTTP/1.1 204 No Content\r\n\r\n"))), .act (.client 0 .go),
    .act (.client 0 (.opener none 0)), .act (.client 0 (.respond (tallyResponse refreshed))),
    .act (.client 0 .go), .act (.client 0 .go), .act (.client 0 .go),
    .act (.get pollPath (some (.str (py "9"))) (some (py "1")) none), .act (.tick 16)]

def deviceStart : DeviceWorld := { world := World.init (.init 0 0 0) }

/-- The waiter in a state, its next step, and the latest ETag. -/
def DeviceWorld.waiter (d : DeviceWorld) : Option (WaitCall × WaitCall × Option Str) :=
  match d.world.clients[(1 : Nat)]? with
  | some (.wait call) => (call.step {} d.world.env .go).map fun (_, call') =>
      (call, call', d.world.env.shared.latestEtag)
  | _ => none

theorem DeviceWorld.waiter_some {d : DeviceWorld} {call call' : WaitCall} (h : d.waiter = some (call, call', latest)) :
    d.world.clients[1]? = some (.wait call) ∧ d.world.env.shared.latestEtag = latest ∧
      ∃ env', call.step {} d.world.env .go = some (env', call') := by
  unfold DeviceWorld.waiter at h
  split at h
  · rename_i hi
    obtain ⟨⟨env', call₁⟩, hstep, hr⟩ := Option.map_eq_some_iff.mp h
    cases hr
    exact ⟨hi, rfl, env', hstep⟩
  · cases h

/-- The waiter of `writeRun`, before and after it gives up. -/
def idleWaiter (pc : WaitPc) : WaitCall where
  args := { path := pollPath, etag := py "1", client := some (.str (py "9")) }
  deadline := 31 / 2
  pc := pc

theorem foreign_change_not_hidden_write :
    ∃ d, run (DeviceWorld.step {}) deviceStart (writeRun [] "11") = some d ∧
      d.waiter = some (idleWaiter .loop, idleWaiter (.done (unchanged (py "1"))), some (py "11")) ∧
      d.changes[0]? = some (.post (some (py "9"))) := by
  have hwaiter : (run (DeviceWorld.step {}) deviceStart (writeRun [] "11")).bind DeviceWorld.waiter =
      some (idleWaiter .loop, idleWaiter (.done (unchanged (py "1"))), some (py "11")) := by
    decide +kernel
  obtain ⟨d, hrun, hwaiter⟩ := Option.bind_eq_some_iff.mp hwaiter
  obtain ⟨hi, hlatest, env', hstep⟩ := DeviceWorld.waiter_some hwaiter
  have hown : d.changes[0]? = some (.post (some (py "9"))) ∧ _ :=
    foreign_change_not_hidden tally_injective (List.forall_mem_nil _) (by decide +kernel) hrun hi rfl
      nofun rfl hstep rfl rfl hlatest (by decide) 0 1 rfl rfl 0 (by decide) (by decide)
  exact ⟨d, hrun, hwaiter, hown.1⟩

/-- The waiter is told that nothing happened, although the first change was made by somebody else. -/
theorem foreign_change_hidden :
    Along (DeviceWorld.step {}) (AnswersCurrent {} tally) deviceStart (writeRun [.foreign] "111") ∧
    ∃ d, run (DeviceWorld.step {}) deviceStart (writeRun [.foreign] "111") = some d ∧
      d.waiter = some (idleWaiter .loop, idleWaiter (.done (unchanged (py "1"))), some (py "111")) ∧
      py "1" = tally 0 ∧ py "111" = tally 2 ∧ d.changes[0]? = some .foreign := by
  have hwaiter : (run (DeviceWorld.step {}) deviceStart (writeRun [.foreign] "111")).bind
      DeviceWorld.waiter =
      some (idleWaiter .loop, idleWaiter (.done (unchanged (py "1"))), some (py "111")) := by
    decide +kernel
  have hchanges : (run (DeviceWorld.step {}) deviceStart (writeRun [.foreign] "111")).map
      DeviceWorld.changes = some [.foreign, .post (some (py "9"))] := by decide +kernel
  obtain ⟨d, hrun, hwaiter⟩ := Option.bind_eq_some_iff.mp hwaiter
  rw [hrun] at hchanges
  refine ⟨by decide +kernel, d, hrun, hwaiter, rfl, rfl, ?_⟩
  rw [Option.some.inj hchanges]
  rfl

end Coordinator

end MotuProxy
