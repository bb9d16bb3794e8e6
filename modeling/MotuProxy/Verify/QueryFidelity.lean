import MotuProxy.Model.ReadStack
import MotuProxy.Verify.ClientQuery
import MotuProxy.Verify.NoReplay
import MotuProxy.Verify.WaitOutcome

/-! # The query of a read on the wire

The fields of a `GET` pass through the dispatcher, the coordinator and the session, and two of these
can add a client to them. `Serves` says which operation the client thread of a call of `run_get` runs,
and `Recorded` that what the operations on the session have sent is the frame of that operation's
request, once.
-/

namespace MotuProxy

open Py Protocol Responses

namespace Py

/-! ## ASCII text in UTF-8 -/

end Py

/-! ## The frame of an operation -/

namespace Datastore

open MotuUsbDatastore

/-- The frame is a request with the method `GET`. -/
def isGetFrame (frame : Bytes) : Bool := (decodeFrame frame).any (·.method = ascii "GET")

theorem isGetFrame_get (h : buildGetFrame seq ms path etag header client fields = .ok frame) :
    isGetFrame frame = true := by
  obtain ⟨r, hwire, rfl, hfits⟩ := get_layout h
  simp only [RequestArgs.wire, bind, Option.bind_eq_some_iff, pure, Option.some.injEq] at hwire
  obtain ⟨_, -, _, -, _, -, _, -, rfl⟩ := hwire
  simp [isGetFrame, hfits.decodeFrame_frame]

theorem isGetFrame_ack : isGetFrame (buildAck seq) = false := by
  have hdecode : decodeFrame (buildAck seq) = none := rfl
  simp [isGetFrame, hdecode]

/-- The reads among the frames handed to the transport. -/
def Gets (frames : List Bytes) (s : MotuUsbDatastore) : Prop :=
  s.wire.handed.filter isGetFrame = frames

theorem Gets.collectorInvariant : CollectorInvariant (Gets frames) where
  reads _ _ h := h
  cancels _ _ h := h
  clock _ _ _ h := h
  results _ _ _ _ h := h
  acknowledge := by
    have htake : Triple (Gets frames) MotuUsbDatastore.nextHostSeq (fun _ => Gets frames)
        (fun _ => Gets frames) := fun _ h => h
    refine Triple.bind htake fun seq => writeFrame_handed fun s w h hw => ?_
    rw [Gets, hw, List.filter_append, List.filter_singleton, isGetFrame_ack]
    exact (List.append_nil _).trans h

/-- The numbers that a session has for its next request, on a transport that was handed nothing. -/
def Unsent (seq ms : Nat) (s : MotuUsbDatastore) : Prop :=
  s.wire.handed = [] ∧ s.hostSeq = seq ∧ s.currentMessageSeq = ms

/-- An operation that reads hands its frame to the transport, once, if the frame can be built. -/
theorem exchange_gets {build : Nat → Nat → Except Exn Bytes} {collect : Nat → CollectArgs}
    (hget : ∀ frame, build seq ms = .ok frame → isGetFrame frame = true) :
    Leads (Unsent seq ms) (exchange build collect) (Gets (build seq ms).toOption.toList) := by
  have htake {E : Exn → MotuUsbDatastore → Prop} : Triple (Unsent seq ms)
      MotuUsbDatastore.nextHostSeq (fun n s => s.wire.handed = [] ∧ n = seq) E :=
    fun s hs => ⟨hs.1, hs.2.1⟩
  refine Triple.bind (Q := fun s₀ s => Unsent seq ms s ∧ s₀.currentMessageSeq = ms)
    (Triple.get fun _ hs => ⟨hs, hs.2.2⟩) fun s₀ => Triple.assume fun hms => ?_
  rw [hms]
  refine Triple.bind htake fun n => Triple.assume fun hn => ?_
  subst hn
  cases hb : build n ms with
  | error exc =>
    refine Triple.bind (Q := fun _ _ => False) (Triple.throw fun s hs => ?_) fun _ _ hs => hs.elim
    rw [Gets, hs]
    rfl
  | ok frame =>
    refine Triple.bind (Q := fun f s => s.wire.handed = [] ∧ f = frame)
      (Triple.pure fun _ hs => ⟨hs, rfl⟩) fun f => Triple.assume fun hf => ?_
    subst hf
    have hwrite : Triple (fun s => s.wire.handed = []) (writeFrame f) (fun _ => Gets [f])
        (fun _ => Gets [f]) := by
      refine writeFrame_handed fun s w hs hw => ?_
      rw [Gets, hw, hs, List.nil_append, List.filter_singleton, hget f hb]
      rfl
    exact Triple.bind hwrite fun _ => Triple.bind (Triple.modify fun _ h => h) fun _ =>
      Gets.collectorInvariant.collectResponse_preserves

theorem get_gets (g : GetArgs) : Leads (Unsent seq ms) (MotuUsbDatastore.get g)
    (Gets (buildGetFrame seq ms g.path g.etag (py "NREK") g.client g.queryFields).toOption.toList) :=
  exchange_gets fun _ => isGetFrame_get

end Datastore

namespace ReadStack

open Datastore Coordinator Dispatch Stack

variable {σ : Type} {d : DatastoreDispatcher σ} {cfg : Config}

section

variable {a : DispatchArgs} {call : ReadCall} {pairs : List (Str × Str)}

/-! ## The request of a call -/

namespace ReadCall

/-- The fields, as `run_get` gets them. -/
def fields (call : ReadCall) : List QueryField :=
  call.queryFields.map fun field => (field.1, .str field.2)

/-- Only the meters are asked for under the ETag of the request. -/
def etag (call : ReadCall) : Str :=
  if call.path = METERS_PATH then (cleanEtag call.ifNoneMatch).getD (py "0") else py "0"

/-- The one `read` of the coordinator that the call can come to. -/
def readArgs (call : ReadCall) : ReadArgs :=
  { path := call.path, etag := call.etag, client := call.client.map .str, queryFields := some call.fields }

def frame (call : ReadCall) (seq messageSeq : Nat) : Except Exn Bytes :=
  buildGetFrame seq messageSeq call.path call.etag (py "NREK") none (some call.fields)

/-- A client is one of the fields. -/
def Listed (call : ReadCall) : Prop :=
  call.client.isSome → ∃ field ∈ call.queryFields, field.1 = py "client"

/-- The coordinator adds no client to the fields. -/
theorem readArgs_request (h : call.Listed) : call.readArgs.request =
    .get call.path call.etag none (some call.fields) DEFAULT_RESPONSE_TIMEOUT_MS := by
  have hfields : deviceQueryFields (some call.fields) (call.client.map .str) = some call.fields := by
    cases hc : call.client with
    | none => rfl
    | some c =>
      obtain ⟨field, hfield, hname⟩ := h (by rw [hc]; rfl)
      have hany : call.fields.any (·.1 = py "client") = true :=
        List.any_eq_true.2 ⟨_, List.mem_map_of_mem hfield, decide_eq_true hname⟩
      simp only [deviceQueryFields, Option.map_some, hany, if_true]
  rw [ReadArgs.request]
  simp only [readArgs, hfields]

end ReadCall

theorem preparedRead_eq_ok (h : preparedRead d a = .ok (some call)) :
    ∃ url pairs, parseRequestPath a.requestPath = .ok url ∧
      Paths.normalizePath url.path = .ok call.path ∧ parseQsl none url.query = some pairs ∧
      Passed 0 pairs ∧ call.queryFields = pairs.map canonicalField ∧
      call.client = (firstValue (py "client") pairs).map canonicalClient ∧
      call.ifNoneMatch = a.ifNoneMatch.map strip := by
  simp only [preparedRead, except_bind_eq_ok] at h
  obtain ⟨url, hurl, h⟩ := h
  split at h
  · cases h
  · simp only [except_bind_eq_ok] at h
    obtain ⟨path, hpath, ⟨fields, client⟩, hget, h⟩ := h
    cases h
    obtain ⟨pairs, hpairs, hpassed, hfields, hclient⟩ := parseGetQueryFields_eq_ok hurl hget
    exact ⟨url, pairs, hurl, hpath, hpairs, hpassed, hfields, hclient, rfl⟩

theorem firstValue_mem {name value : Str} (h : firstValue name pairs = some value) :
    ∃ pair ∈ pairs, pair.1 = name := by
  obtain ⟨pair, hpair, -⟩ := Option.map_eq_some_iff.1 h
  exact ⟨pair, List.mem_of_find?_eq_some hpair, by simpa using List.find?_some hpair⟩

theorem canonicalField_name (field : Str × Str) : (canonicalField field).1 = field.1 := by
  unfold canonicalField
  split <;> rfl

theorem preparedRead_listed (h : preparedRead d a = .ok (some call)) : call.Listed := by
  obtain ⟨_, pairs, -, -, -, -, hfields, hclient, -⟩ := preparedRead_eq_ok h
  intro hsome
  rw [hclient, Option.isSome_map] at hsome
  obtain ⟨value, hvalue⟩ := Option.isSome_iff_exists.1 hsome
  obtain ⟨pair, hpair, hname⟩ := firstValue_mem hvalue
  exact ⟨_, hfields ▸ List.mem_map_of_mem hpair, (canonicalField_name pair).trans hname⟩

/-- The trimmed `If-None-Match` of a request for the meters, or `"0"`. -/
def sentEtag (path : Str) (ifNoneMatch : Option Str) : Str :=
  if path = METERS_PATH then match ifNoneMatch.map strip with
    | some (c :: s) => c :: s
    | _ => py "0"
  else py "0"

/-- What a request on the wire says: the path, the ETag and the fields, whose client is canonical and
stands there once if the query has one. -/
structure Carries (r : WireRequest) (path etag : Str) (pairs : List (Str × Str)) : Prop where
  method : r.method = ascii "GET"
  path : utf8Encode path = some r.path
  etag : r.httpHeader.1 = ascii "If-None-Match" ∧ utf8Encode etag = some r.httpHeader.2
  fields : (pairs.map canonicalField).mapM fieldBytes = some r.fields
  canonical : ∀ field ∈ pairs.map canonicalField, field.1 = py "client" → CanonicalText field.2
  client : r.fields.countP (·.1 = ascii "client") =
    if ∃ pair ∈ pairs, pair.1 = py "client" then 1 else 0

end

/-! ## The client threads -/

/-- The foreground operation that a client thread runs for its own call. -/
def Client.own : Client → Option IoCall
  | .io call => some call
  | .wait call => match call.pc with
    | .read call => some call
    | _ => none

/-- That operation has been on the session, or never will be. -/
def Client.ownEnded (c : Client) : Bool := (Client.own c).any (·.pc.ended)

/-- What a waiter runs before its own read is a refresh of `poll_path`. -/
def Client.Refreshes : Client → Prop
  | .io _ => True
  | .wait c => ∀ io, c.pc = .refresh io →
      ∃ timeoutMs, io.job = .read { path := pollPath, timeoutMs }

/-- The client thread of a call of `run_get`: it runs the call's `read`, at once or after a wait. -/
def Serves (call : ReadCall) : Client → Prop
  | .io io => io.job = .read call.readArgs ∧ IoCall.refreshes io = false
  | .wait c => call.path ≠ METERS_PATH ∧ c.args.read = call.readArgs ∧
      ∀ io, c.pc = .read io → io.job = .read call.readArgs

section
variable {e e' : Env} {c c' : Client} {io io' : IoCall} {choice : Choice} {request : Request}
  {call : ReadCall}

theorem own_step (h : c.step cfg e choice = some (e', c')) (ho : Client.own c = some io) :
    ∃ io', Client.own c' = some io' ∧ IoStep cfg e io choice e' io' := by
  cases c with
  | io call =>
    cases ho
    obtain ⟨⟨e₁, io'⟩, hstep, hr⟩ := Option.map_eq_some_iff.mp h
    cases hr
    exact ⟨io', rfl, IoCall.step_cases hstep⟩
  | wait call =>
    have hpc : call.pc = .read io := by
      simp only [Client.own] at ho
      split at ho
      · rename_i hpc
        cases ho
        exact hpc
      · cases ho
    obtain ⟨⟨e₁, call'⟩, hwait, hr⟩ := Option.map_eq_some_iff.mp h
    cases hr
    simp only [WaitCall.step, hpc] at hwait
    obtain ⟨⟨e₁, io'⟩, hstep, hr⟩ := Option.map_eq_some_iff.mp hwait
    cases hr
    exact ⟨io', rfl, IoCall.step_cases hstep⟩

/-- Only its outcome ends an operation. -/
theorem IoStep.concludes_of_inCall (h : IoStep cfg e io choice e' io') (hpc : io.pc = .inCall) :
    (∃ response, choice = .respond response) ∨ ∃ exc cleared exit, choice = .raise exc cleared exit := by
  have hfinish {r : Except Exn Bytes × Env} (hf : e.finish io.job.request choice = some r) :
      (∃ response, choice = .respond response) ∨
        ∃ exc cleared exit, choice = .raise exc cleared exit := by
    unfold Env.finish at hf
    split at hf
    · exact .inl ⟨_, rfl⟩
    · exact .inr ⟨_, _, _, rfl⟩
    · cases hf
  cases h with
  | acquire he | exceed he | wait he => rw [hpc] at he; cases he
  | respond _ hf | raise _ hf => exact hfinish hf
  | beginOk hpc' | beginFail hpc' | payload hpc' | publishRead hpc' | refreshBegin hpc'
  | refreshBeginFail hpc' | refreshRespond hpc' | refreshRaise hpc' | refreshPayload hpc'
  | publishRefresh hpc' | release hpc' => cases hpc.symm.trans hpc'

theorem ownEnded_step (h : c.step cfg e choice = some (e', c')) (hended : Client.ownEnded c = true) :
    Client.ownEnded c' = true := by
  obtain ⟨io, ho, hpc⟩ := (Option.any_eq_true _ _).1 hended
  obtain ⟨io', ho', hstep⟩ := own_step h ho
  rw [Client.ownEnded, ho']
  exact hstep.forward.ended hpc

/-- An operation of its own is the last that a thread runs for itself. -/
theorem ownEnded_inCall (h : c.step cfg e choice = some (e', c')) (ho : Client.own c = some io)
    (hpc : io.pc = .inCall) : Client.ownEnded c = false ∧ Client.ownEnded c' = true := by
  obtain ⟨io', ho', hstep⟩ := own_step h ho
  refine ⟨?_, ?_⟩
  · rw [Client.ownEnded, ho, Option.any_some, hpc]
    rfl
  · rw [Client.ownEnded, ho']
    exact hstep.forward.inCall hpc

/-- A read has no refresh after it. -/
theorem IoStep.refreshes_eq {a : ReadArgs} (h : IoStep cfg e io choice e' io') (hjob : io.job = .read a) :
    IoCall.refreshes io' = false := by
  cases h with
  | refreshBegin _ hpost => cases hjob.symm.trans hpost
  | _ => rfl

theorem Client.Refreshes.step (h : c.step cfg e choice = some (e', c')) (hc : Client.Refreshes c) :
    Client.Refreshes c' := by
  cases c with
  | io call =>
    obtain ⟨_, -, hr⟩ := Option.map_eq_some_iff.mp h
    cases hr
    trivial
  | wait call =>
    obtain ⟨⟨e₁, call'⟩, hwait, hr⟩ := Option.map_eq_some_iff.mp h
    cases hr
    obtain ⟨-, -, hrefresh, -⟩ := WaitCall.step_outcome hwait
    intro io hpc
    rcases hrefresh io hpc with ⟨timeoutMs, rfl⟩ | ⟨io₀, hpc₀, hstep⟩
    · exact ⟨timeoutMs, rfl⟩
    · rw [(IoCall.step_cases hstep).forward.job]
      exact hc io₀ hpc₀

theorem Serves.step (h : c.step cfg e choice = some (e', c')) (hc : Serves call c) :
    Serves call c' := by
  cases c with
  | io io =>
    obtain ⟨⟨e₁, io'⟩, hio, hr⟩ := Option.map_eq_some_iff.mp h
    cases hr
    have hstep := IoCall.step_cases hio
    exact ⟨hstep.forward.job.trans hc.1, IoStep.refreshes_eq hstep hc.1⟩
  | wait wait =>
    obtain ⟨⟨e₁, wait'⟩, hwait, hr⟩ := Option.map_eq_some_iff.mp h
    cases hr
    obtain ⟨hargs, -, -, hread⟩ := WaitCall.step_outcome hwait
    obtain ⟨hpath, hsame, hjob⟩ := hc
    refine ⟨hpath, hargs ▸ hsame, fun io hpc => ?_⟩
    rcases hread io hpc with rfl | ⟨io₀, hpc₀, hstep⟩
    · rw [hsame]
    · rw [(IoCall.step_cases hstep).forward.job]
      exact hjob io₀ hpc₀

theorem refreshes_get {path : Str} {client : Option FieldValue} {ifNoneMatch : Option Str}
    {queryFields : Option (List QueryField)} :
    Client.Refreshes (Coordinator.get cfg now path client ifNoneMatch queryFields) := by
  unfold Coordinator.get
  split
  · split
    · trivial
    · intro io hpc
      cases hpc
  · trivial

/-- `DatastoreCoordinator.get` starts a thread that serves the call. -/
theorem serves_get : Serves call (Coordinator.get cfg now call.path (call.client.map .str)
    call.ifNoneMatch (some call.fields)) := by
  unfold Coordinator.get
  cases hetag : cleanEtag call.ifNoneMatch with
  | none =>
    have : call.etag = py "0" := by
      rw [ReadCall.etag, hetag]
      exact ite_self _
    refine ⟨?_, rfl⟩
    rw [ReadCall.readArgs, this]
  | some etag =>
    simp only
    split
    · rename_i hpath
      refine ⟨?_, rfl⟩
      rw [ReadCall.readArgs, ReadCall.etag, if_pos hpath, hetag]
      rfl
    · rename_i hpath
      refine ⟨hpath, ?_, fun io hpc => ?_⟩
      · rw [ReadCall.readArgs, ReadCall.etag, if_neg hpath]
        rfl
      · cases hpc

/-- The operation that a thread is in is its own, once it is not a refresh. -/
theorem operation_own (hcall : c.call? = some io) (hop : IoCall.operation io = some request)
    (hb : Client.inBackground c = false) :
    Client.own c = some io ∧ io.pc = .inCall ∧ request = io.job.request := by
  have hown : Client.own c = some io ∧ IoCall.refreshes io = false := by
    cases c with
    | io call => cases hcall; exact ⟨rfl, hb⟩
    | wait call =>
      simp only [Client.call?] at hcall
      split at hcall
      · rename_i hpc
        simp only [Client.inBackground, hpc, reduceCtorEq] at hb
      · rename_i hpc
        cases hcall
        simp only [Client.inBackground, hpc] at hb
        exact ⟨by simp only [Client.own, hpc], hb⟩
      · cases hcall
  refine ⟨hown.1, ?_⟩
  unfold IoCall.operation at hop
  split at hop
  · rename_i hpc
    exact ⟨hpc, (Option.some.inj hop).symm⟩
  · rename_i hpc
    simp only [IoCall.refreshes, hpc, reduceCtorEq] at hown
    exact absurd hown.2 (by simp)
  · cases hop

theorem inBackground_of_inCall (ho : Client.own c = some io) (hpc : io.pc = .inCall) :
    Client.inBackground c = false := by
  have hno : IoCall.refreshes io = false := by rw [IoCall.refreshes, hpc]
  cases c with
  | io call => cases ho; exact hno
  | wait call =>
    simp only [Client.own] at ho
    split at ho
    · rename_i hread
      cases ho
      simp only [Client.inBackground, hread]
      exact hno
    · cases ho

/-- A refresh asks for `poll_path`, without fields. -/
theorem operation_background (hcall : c.call? = some io)
    (hop : IoCall.operation io = some request) (hb : Client.inBackground c = true)
    (hc : Client.Refreshes c) :
    ∃ timeoutMs, request = .get pollPath (py "0") none none timeoutMs := by
  have hrefresh (h : IoCall.refreshes io = true) :
      ∃ timeoutMs, request = .get pollPath (py "0") none none timeoutMs := by
    unfold IoCall.operation at hop
    split at hop
    · rename_i hpc
      simp [IoCall.refreshes, hpc] at h
    · exact ⟨_, (Option.some.inj hop).symm⟩
    · cases hop
  cases c with
  | io call => cases hcall; exact hrefresh hb
  | wait call =>
    simp only [Client.call?] at hcall
    split at hcall
    · rename_i hpc
      cases hcall
      obtain ⟨timeoutMs, hjob⟩ := hc _ hpc
      unfold IoCall.operation at hop
      split at hop
      · rw [hjob] at hop
        exact ⟨timeoutMs, (Option.some.inj hop).symm⟩
      · exact ⟨_, (Option.some.inj hop).symm⟩
      · cases hop
    · rename_i hpc
      cases hcall
      simp only [Client.inBackground, hpc] at hb
      exact hrefresh hb
    · cases hcall

end

/-! ## The moves of the layers -/

variable {w w' : ReadWorld}

/-- The action says what a datastore operation comes to. -/
def concludes : Coordinator.Action → Bool
  | .client _ choice | .poller choice => match choice with
    | .respond _ | .raise _ _ _ => true
    | _ => false
  | _ => false

/-- The coordinator makes no move, or one outside the operations on the session. -/
def Quiet (cfg : Config) (world world' : World) : Prop :=
  world' = world ∨ ∃ b, concludes b = false ∧ WorldStep cfg world b world'

inductive ReadStep (d : DatastoreDispatcher σ) (cfg : Config) (w : ReadWorld) : ReadWorld → Prop where
  | quiet (h : Quiet cfg w.stack.world stack.world) : ReadStep d cfg w { w with stack }
  | operate (hop : w.stack.operation cfg caller = some op)
      (hr : w.stack.operate op wire exit = (choice, stack.session))
      (h : WorldStep cfg w.stack.world (caller.action choice) stack.world) :
    ReadStep d cfg w { w with stack, operations := w.operations ++ [{
      caller
      background := inBackground w.stack caller
      seq := w.stack.session.hostSeq
      messageSeq := w.stack.session.currentMessageSeq
      frames := stack.session.wire.handed }] }
  | read : ReadStep d cfg w { w with reads := w.reads ++ [{ args := a }] }
  | finish {h : Nat} (hx : w.reads[h]? = some x) :
    ReadStep d cfg w { w with reads := w.reads.set h { x with result := some r } }
  | call {h : Nat} (hx : w.reads[h]? = some x) (hp : preparedRead d x.args = .ok (some call))
      (hw : WorldStep cfg w.stack.world call.action world) :
    ReadStep d cfg w { w with
      stack := { w.stack with world }
      reads := w.reads.set h { x with call := some (call, w.stack.world.clients.length) } }

theorem concludes_of_isPlain {b : Coordinator.Action} (h : isPlain b = true) : concludes b = false := by
  cases b with
  | client i choice => cases choice <;> first | rfl | cases h
  | poller choice => cases choice <;> first | rfl | cases h
  | _ => rfl

theorem ReadWorld.step_cases {a : ReadStack.Action} (h : w.step d cfg a = some w') :
    ReadStep d cfg w w' := by
  cases a with
  | stack a =>
    simp only [ReadWorld.step, Option.bind_eq_bind, Option.bind_eq_some_iff] at h
    obtain ⟨stack, hstack, h⟩ := h
    cases h
    have hquiet (hworld : Quiet cfg w.stack.world stack.world) :
        ReadStep d cfg w { w with stack, operations := w.operations ++ [] } := by
      rw [List.append_nil]
      exact .quiet hworld
    cases a with
    | step a =>
      simp only [StackWorld.step] at hstack
      split at hstack
      · rename_i hplain
        simp only [Option.bind_eq_bind, Option.bind_eq_some_iff] at hstack
        obtain ⟨world, hworld, hstack⟩ := hstack
        cases hstack
        exact hquiet (.inr ⟨a, concludes_of_isPlain hplain, World.step_cases hworld⟩)
      · cases hstack
    | begin caller opened later =>
      simp only [StackWorld.step, Option.bind_eq_bind, Option.bind_eq_some_iff] at hstack
      obtain ⟨refresh, -, world, hworld, hstack⟩ := hstack
      have hnone : concludes (caller.action (.opener (raised opened) later)) = false := by
        cases caller <;> rfl
      split at hstack <;> cases hstack <;>
        exact hquiet (.inr ⟨_, hnone, World.step_cases hworld⟩)
    | operate caller wire exit =>
      cases StackWorld.step_cases hstack with
      | operate hop hr hworld => exact .operate hop hr (World.step_cases hworld)
    | write a =>
      cases StackWorld.step_cases hstack with
      | write => exact hquiet (.inl rfl)
    | http i =>
      cases StackWorld.step_cases hstack with
      | call _ _ _ _ hworld => exact hquiet (.inr ⟨_, rfl, World.step_cases hworld⟩)
      | refuse | answer => exact hquiet (.inl rfl)
  | read a =>
    simp only [ReadWorld.step] at h
    split at h <;> cases h
    exact .read
  | http i provided =>
    simp only [ReadWorld.step, Option.bind_eq_bind, Option.bind_eq_some_iff] at h
    obtain ⟨x, hx, h⟩ := h
    unfold ReadWorld.httpStep at h
    split at h
    · cases h
    · split at h
      · cases h
        exact .finish hx
      · cases h
        exact .finish hx
      · rename_i call hp
        simp only [Option.bind_eq_bind, Option.bind_eq_some_iff] at h
        obtain ⟨world, hworld, h⟩ := h
        cases h
        exact .call hx hp (World.step_cases hworld)
    · simp only [Option.bind_eq_bind, Option.bind_eq_some_iff] at h
      obtain ⟨result, -, h⟩ := h
      cases h
      exact .finish hx

/-! ## Who serves a call -/

/-- Every call of `run_get` has its thread, and waiters refresh `poll_path` only. -/
structure Served (d : DatastoreDispatcher σ) (world : World) (reads : List HttpRead) : Prop where
  refreshes : ∀ (i : Nat) c, world.clients[i]? = some c → Client.Refreshes c
  prepared : ∀ x ∈ reads, ∀ call i, x.call = some (call, i) → preparedRead d x.args = .ok (some call)
  serves : ∀ x ∈ reads, ∀ call i, x.call = some (call, i) →
    ∃ c, world.clients[i]? = some c ∧ Serves call c

section
variable {world world' : World} {reads reads' : List HttpRead} {call : ReadCall}

theorem Served.world_step (hs : Served d world reads) (h : WorldStep cfg world b world') :
    Served d world' reads := by
  refine ⟨fun i c' hi => ?_, hs.prepared, fun x hx call i hcall => ?_⟩
  · rcases h.client_before hi with ⟨c, hc⟩ | ⟨-, ⟨_, _, _, _, rfl⟩ | ⟨_, _, _, rfl⟩⟩
    · obtain ⟨c₁, hc₁, ⟨-, rfl⟩ | ⟨_, _, -, hstep⟩⟩ := h.client_after hc
      · cases hi.symm.trans hc₁
        exact hs.refreshes i c' hc
      · cases hi.symm.trans hc₁
        exact (hs.refreshes i c hc).step hstep
    · exact refreshes_get
    · trivial
  · obtain ⟨c, hc, hserves⟩ := hs.serves x hx call i hcall
    obtain ⟨c', hc', ⟨-, rfl⟩ | ⟨_, _, -, hstep⟩⟩ := h.client_after hc
    · exact ⟨c', hc', hserves⟩
    · exact ⟨c', hc', hserves.step hstep⟩

/-- Requests that come in, and answers, change no call. -/
def SameCalls (reads reads' : List HttpRead) : Prop :=
  ∀ x' ∈ reads', ∀ p, x'.call = some p → ∃ x ∈ reads, x.args = x'.args ∧ x.call = some p

theorem sameCalls_read : SameCalls reads (reads ++ [{ args := a }]) := by
  intro x' hx' p hp
  rcases List.mem_append.mp hx' with hx' | hx'
  · exact ⟨x', hx', rfl, hp⟩
  · cases List.mem_singleton.mp hx'
    cases hp

theorem sameCalls_finish {x : HttpRead} {h : Nat} (hx : reads[h]? = some x) :
    SameCalls reads (reads.set h { x with result := some r }) := by
  intro x' hx' p hp
  rcases List.mem_or_eq_of_mem_set hx' with hx' | rfl
  · exact ⟨x', hx', rfl, hp⟩
  · exact ⟨x, List.mem_of_getElem? hx, rfl, hp⟩

theorem Served.same_calls (hs : Served d world reads) (hsame : SameCalls reads reads') :
    Served d world reads' := by
  refine ⟨hs.refreshes, fun x' hx' call i hcall => ?_, fun x' hx' call i hcall => ?_⟩
  · obtain ⟨x, hx, hargs, hcall⟩ := hsame x' hx' _ hcall
    exact hargs ▸ hs.prepared x hx call i hcall
  · obtain ⟨x, hx, -, hcall⟩ := hsame x' hx' _ hcall
    exact hs.serves x hx call i hcall

theorem Served.new_call {x : HttpRead} {h : Nat} (hs : Served d world reads)
    (hp : preparedRead d x.args = .ok (some call)) (hw : WorldStep cfg world call.action world') :
    Served d world' (reads.set h { x with call := some (call, world.clients.length) }) := by
  have hworld := hs.world_step hw
  have hnew : ∃ c, world'.clients[world.clients.length]? = some c ∧ Serves call c := by
    unfold ReadCall.action at hw
    cases hw
    exact ⟨_, List.getElem?_concat_length, serves_get⟩
  refine ⟨hworld.refreshes, fun x' hx' call' i hcall => ?_, fun x' hx' call' i hcall => ?_⟩
  · rcases List.mem_or_eq_of_mem_set hx' with hx' | rfl
    · exact hs.prepared x' hx' call' i hcall
    · cases hcall
      exact hp
  · rcases List.mem_or_eq_of_mem_set hx' with hx' | rfl
    · exact hworld.serves x' hx' call' i hcall
    · cases hcall
      exact hnew

end

theorem Served.step {a : ReadStack.Action} (hs : Served d w.stack.world w.reads)
    (h : w.step d cfg a = some w') : Served d w'.stack.world w'.reads := by
  cases ReadWorld.step_cases h with
  | quiet hworld =>
    rcases hworld with hworld | ⟨b, -, hworld⟩
    · rw [hworld]
      exact hs
    · exact hs.world_step hworld
  | operate _ _ hworld => exact hs.world_step hworld
  | read => exact hs.same_calls sameCalls_read
  | finish hx => exact hs.same_calls (sameCalls_finish hx)
  | call _ hp hw => exact hs.new_call hp hw

/-! ## What was sent -/

/-- The operations that a client thread ran for its own call. -/
def ownOps (i : Nat) (operations : List Operation) : List Operation :=
  operations.filter fun op => op.caller = .client i ∧ op.background = false

theorem mem_ownOps {operations : List Operation} {op : Operation} {i : Nat} :
    op ∈ ownOps i operations ↔
      op ∈ operations ∧ op.caller = .client i ∧ op.background = false := by
  simp [ownOps]

/-- The frame of a refresh. -/
def refreshFrame (seq messageSeq : Nat) (etag : Str) : Except Exn Bytes :=
  buildGetFrame seq messageSeq pollPath etag (py "NREK") none none

/-- What the operations so far have sent: a thread ran one for its own call at most, whose read is
that of the call, and the others are refreshes. -/
structure Sent (world : World) (reads : List HttpRead) (operations : List Operation) : Prop where
  known : ∀ op ∈ operations, ∀ i, op.caller = .client i → i < world.clients.length
  once : ∀ (i : Nat) c, world.clients[i]? = some c →
    (ownOps i operations).length ≤ (Client.ownEnded c).toNat
  own : ∀ x ∈ reads, ∀ call i, x.call = some (call, i) → ∀ op ∈ ownOps i operations,
    op.frames.filter isGetFrame = (call.frame op.seq op.messageSeq).toOption.toList
  meters : ∀ x ∈ reads, ∀ call i, x.call = some (call, i) → call.path = METERS_PATH →
    ∀ op ∈ operations, op.caller = .client i → op.background = false
  background : ∀ op ∈ operations, op.background = true → ∃ etag,
    op.frames.filter isGetFrame = (refreshFrame op.seq op.messageSeq etag).toOption.toList

section
variable {world world' : World} {reads reads' : List HttpRead} {operations : List Operation}
  {call : ReadCall}

theorem Sent.ownOps_nil (hs : Sent world reads operations) {i : Nat}
    (hi : world.clients.length ≤ i) : ownOps i operations = [] := by
  refine List.eq_nil_iff_forall_not_mem.mpr fun op hop => ?_
  obtain ⟨hmem, hcaller, -⟩ := mem_ownOps.mp hop
  exact absurd (hs.known op hmem i hcaller) (Nat.not_lt.mpr hi)

/-- The threads go on, and `more` operations are recorded: by a thread that is in its own operation
at most one of its own. -/
theorem Sent.once_step {more : List Operation} (hs : Sent world reads operations)
    (h : WorldStep cfg world b world')
    (hknown : ∀ op ∈ more, ∀ i, op.caller = .client i → i < world.clients.length)
    (hmore : ∀ (i : Nat) c, world.clients[i]? = some c → (ownOps i more).length = 0 ∨
      (∃ io, Client.own c = some io ∧ io.pc = .inCall) ∧ (∃ choice, b = .client i choice) ∧
        (ownOps i more).length ≤ 1) (i : Nat) (c' : Client) (hi : world'.clients[i]? = some c') :
    (ownOps i (operations ++ more)).length ≤ (Client.ownEnded c').toNat := by
  have happend : (ownOps i (operations ++ more)).length =
      (ownOps i operations).length + (ownOps i more).length := by
    rw [ownOps, List.filter_append, List.length_append]
    rfl
  rw [happend]
  rcases h.client_before hi with ⟨c, hc⟩ | ⟨hnew, -⟩
  · obtain ⟨c₁, hc₁, hmove⟩ := h.client_after hc
    cases hi.symm.trans hc₁
    refine add_le_toNat (hs.once i c hc) ?_ ((hmore i c hc).imp_right ?_)
    · rcases hmove with ⟨-, rfl⟩ | ⟨_, _, -, hstep⟩
      · exact id
      · exact ownEnded_step hstep
    · rintro ⟨⟨io, ho, hpc⟩, ⟨choice, hb⟩, hone⟩
      rcases hmove with ⟨hno, -⟩ | ⟨_, _, -, hstep⟩
      · exact absurd hb (hno choice)
      · obtain ⟨hbefore, hafter⟩ := ownEnded_inCall hstep ho hpc
        exact ⟨hbefore, hafter, hone⟩
  · have hnone : ownOps i more = [] := by
      refine List.eq_nil_iff_forall_not_mem.mpr fun op hop => ?_
      obtain ⟨hmem, hcaller, -⟩ := mem_ownOps.mp hop
      exact absurd (hknown op hmem i hcaller) (by omega)
    rw [hs.ownOps_nil (by omega), hnone]
    exact Nat.zero_le _

theorem Sent.world_step (hs : Sent world reads operations) (h : WorldStep cfg world b world') :
    Sent world' reads operations := by
  refine ⟨fun op hop i hcaller => Nat.lt_of_lt_of_le (hs.known op hop i hcaller)
    (WorldStep.length_le h), fun i c' hi => ?_, hs.own, hs.meters, hs.background⟩
  rw [← List.append_nil operations]
  exact hs.once_step h (fun op hop => absurd hop List.not_mem_nil) (fun _ _ _ => .inl rfl) i c' hi

theorem Sent.same_calls (hs : Sent world reads operations) (hsame : SameCalls reads reads') :
    Sent world reads' operations := by
  refine ⟨hs.known, hs.once, fun x' hx' call i hcall => ?_, fun x' hx' call i hcall => ?_,
    hs.background⟩
  · obtain ⟨x, hx, -, hcall⟩ := hsame x' hx' _ hcall
    exact hs.own x hx call i hcall
  · obtain ⟨x, hx, -, hcall⟩ := hsame x' hx' _ hcall
    exact hs.meters x hx call i hcall

/-- A new call has sent nothing. -/
theorem Sent.new_call {x : HttpRead} {h : Nat} (hs : Sent world reads operations)
    (hw : WorldStep cfg world call.action world') : Sent world'
      (reads.set h { x with call := some (call, world.clients.length) }) operations := by
  have hworld := hs.world_step hw
  refine ⟨hworld.known, hworld.once, fun x' hx' call' i hcall => ?_, fun x' hx' call' i hcall => ?_,
    hworld.background⟩
  · rcases List.mem_or_eq_of_mem_set hx' with hx' | rfl
    · exact hs.own x' hx' call' i hcall
    · cases hcall
      rw [hs.ownOps_nil (Nat.le_refl _)]
      exact fun op hop => absurd hop List.not_mem_nil
  · rcases List.mem_or_eq_of_mem_set hx' with hx' | rfl
    · exact hs.meters x' hx' call' i hcall
    · cases hcall
      exact fun _ op hop hcaller => absurd (hs.known op hop _ hcaller) (Nat.lt_irrefl _)

end

/-! ## An operation on the session -/

section
variable {stack : StackWorld} {op : Proc Bytes} {i : Nat} {call : ReadCall}

theorem operation_client (hop : stack.operation cfg (.client i) = some op) :
    ∃ c io request, stack.world.clients[i]? = some c ∧ c.call? = some io ∧
      IoCall.operation io = some request ∧ op = Request.exec request := by
  simp only [StackWorld.operation, Option.bind_eq_bind, Option.bind_eq_some_iff] at hop
  obtain ⟨c, hc, io, hcall, request, hrequest, hop⟩ := hop
  exact ⟨c, io, request, hc, hcall, hrequest, (Option.some.inj hop).symm⟩

theorem operate_gets {g : MotuUsbDatastore.GetArgs}
    (hr : stack.operate (MotuUsbDatastore.get g) wire exit = (choice, session)) :
    session.wire.handed.filter isGetFrame =
      (buildGetFrame stack.session.hostSeq stack.session.currentMessageSeq g.path g.etag (py "NREK")
        g.client g.queryFields).toOption.toList :=
  operate_leads (get_gets g) ⟨rfl, rfl, rfl⟩ hr

/-- The operation of a thread that serves a call, unless it is a refresh. -/
theorem operate_own {c : Client} (hi : stack.world.clients[i]? = some c) (hc : Serves call c)
    (hlisted : call.Listed) (hop : stack.operation cfg (.client i) = some op)
    (hb : Client.inBackground c = false)
    (hr : stack.operate op wire exit = (choice, session)) :
    session.wire.handed.filter isGetFrame =
      (call.frame stack.session.hostSeq stack.session.currentMessageSeq).toOption.toList := by
  obtain ⟨c', io, request, hc', hcall, hrequest, rfl⟩ := operation_client hop
  cases hi.symm.trans hc'
  obtain ⟨ho, -, rfl⟩ := operation_own hcall hrequest hb
  have hjob : io.job = .read call.readArgs := by
    cases c with
    | io io' => cases ho; exact hc.1
    | wait wait =>
      simp only [Client.own] at ho
      split at ho
      · rename_i hpc
        cases ho
        exact hc.2.2 _ hpc
      · cases ho
  rw [hjob, Job.request, ReadCall.readArgs_request hlisted] at hr
  exact operate_gets hr

/-- A refresh, of the poller or of a client thread. -/
theorem operate_background {caller : Caller} (hop : stack.operation cfg caller = some op)
    (hb : inBackground stack caller = true)
    (hrefreshes : ∀ (i : Nat) c, stack.world.clients[i]? = some c → Client.Refreshes c)
    (hr : stack.operate op wire exit = (choice, session)) : ∃ etag,
    session.wire.handed.filter isGetFrame = (refreshFrame stack.session.hostSeq
      stack.session.currentMessageSeq etag).toOption.toList := by
  cases caller with
  | poller =>
    simp only [StackWorld.operation] at hop
    split at hop
    · rename_i c _
      cases hop
      exact ⟨c.etag, operate_gets hr⟩
    · cases hop
  | client i =>
    obtain ⟨c, io, request, hc, hcall, hrequest, rfl⟩ := operation_client hop
    rw [inBackground, hc] at hb
    obtain ⟨timeoutMs, rfl⟩ := operation_background hcall hrequest hb (hrefreshes i c hc)
    have hgets := operate_gets hr
    exact ⟨py "0", hgets⟩

end

theorem Sent.operate {w : ReadWorld} {caller : Caller} {op : Proc Bytes}
    {session : MotuUsbDatastore} (hs : Sent w.stack.world w.reads w.operations)
    (hserved : Served d w.stack.world w.reads) (hop : w.stack.operation cfg caller = some op)
    (hr : w.stack.operate op wire exit = (choice, session))
    (h : WorldStep cfg w.stack.world (caller.action choice) world') :
    Sent world' w.reads (w.operations ++ [{
      caller
      background := inBackground w.stack caller
      seq := w.stack.session.hostSeq
      messageSeq := w.stack.session.currentMessageSeq
      frames := session.wire.handed }]) := by
  have hlt (i : Nat) (hcaller : caller = .client i) : i < w.stack.world.clients.length := by
    subst hcaller
    obtain ⟨c, -, -, hc, -⟩ := operation_client hop
    exact (List.getElem?_eq_some_iff.mp hc).1
  refine ⟨fun op' hop' i hcaller => ?_, hs.once_step h (fun op' hop' i hcaller => ?_) fun i c hi => ?_,
    fun x hx call i hcall op' hop' => ?_, fun x hx call i hcall hmeters op' hop' hcaller => ?_,
    fun op' hop' hb => ?_⟩
  · refine Nat.lt_of_lt_of_le ?_ (WorldStep.length_le h)
    rcases List.mem_append.mp hop' with hop' | hop'
    · exact hs.known op' hop' i hcaller
    · cases List.mem_singleton.mp hop'
      exact hlt i hcaller
  · cases List.mem_singleton.mp hop'
    exact hlt i hcaller
  · by_cases hown : caller = .client i ∧ inBackground w.stack caller = false
    · -- the thread is in its own operation
      obtain ⟨rfl, hb⟩ := hown
      obtain ⟨c', io, request, hc', hcall, hrequest, -⟩ := operation_client hop
      cases hi.symm.trans hc'
      rw [inBackground, hi] at hb
      obtain ⟨ho, hpc, -⟩ := operation_own hcall hrequest hb
      exact .inr ⟨⟨io, ho, hpc⟩, ⟨choice, rfl⟩, List.length_filter_le _ _⟩
    · refine .inl ?_
      rw [List.length_eq_zero_iff, ownOps, List.filter_eq_nil_iff]
      intro op' hop' hboth
      cases List.mem_singleton.mp hop'
      exact hown (of_decide_eq_true hboth)
  · obtain ⟨hmem, hcaller, hb⟩ := mem_ownOps.mp hop'
    rcases List.mem_append.mp hmem with hmem | hmem
    · exact hs.own x hx call i hcall op' (mem_ownOps.mpr ⟨hmem, hcaller, hb⟩)
    · cases List.mem_singleton.mp hmem
      cases hcaller
      obtain ⟨c, hc, hserves⟩ := hserved.serves x hx call i hcall
      simp only [inBackground, hc] at hb
      exact operate_own hc hserves (preparedRead_listed (hserved.prepared x hx call i hcall)) hop hb hr
  · rcases List.mem_append.mp hop' with hop' | hop'
    · exact hs.meters x hx call i hcall hmeters op' hop' hcaller
    · cases List.mem_singleton.mp hop'
      cases hcaller
      obtain ⟨c, hc, hserves⟩ := hserved.serves x hx call i hcall
      simp only [inBackground, hc]
      cases c with
      | io io => exact hserves.2
      | wait wait => exact absurd hmeters hserves.1
  · rcases List.mem_append.mp hop' with hop' | hop'
    · exact hs.background op' hop' hb
    · cases List.mem_singleton.mp hop'
      exact operate_background hop hb hserved.refreshes hr

theorem Sent.step {a : ReadStack.Action} (hs : Sent w.stack.world w.reads w.operations)
    (hserved : Served d w.stack.world w.reads) (h : w.step d cfg a = some w') :
    Sent w'.stack.world w'.reads w'.operations := by
  cases ReadWorld.step_cases h with
  | quiet hworld =>
    rcases hworld with hworld | ⟨b, -, hworld⟩
    · rw [hworld]
      exact hs
    · exact hs.world_step hworld
  | operate hop hr hworld => exact hs.operate hserved hop hr hworld
  | read => exact hs.same_calls sameCalls_read
  | finish hx => exact hs.same_calls (sameCalls_finish hx)
  | call _ _ hw => exact hs.new_call hw

/-- The threads and what they have sent, in every state of every run. -/
theorem served_run {managed : ManagedDatastore} {session : MotuUsbDatastore}
    {as : List ReadStack.Action}
    (hrun : run (ReadWorld.step d cfg) (.init managed session) as = some w) :
    Served d w.stack.world w.reads ∧ Sent w.stack.world w.reads w.operations := by
  refine run_invariant_of_step (I := fun w => Served d w.stack.world w.reads ∧
    Sent w.stack.world w.reads w.operations) (fun w a w' hw h => ⟨hw.1.step h, hw.2.step hw.1 h⟩) ?_ hrun
  have hnone {i : Nat} {c : Client}
      (hi : (ReadWorld.init managed session).stack.world.clients[i]? = some c) : False := by
    simp [ReadWorld.init, StackWorld.init, World.init] at hi
  refine ⟨⟨fun i c hi => (hnone hi).elim, fun x hx => absurd hx List.not_mem_nil,
    fun x hx => absurd hx List.not_mem_nil⟩, fun op hop => absurd hop List.not_mem_nil,
    fun i c hi => (hnone hi).elim, fun x hx => absurd hx List.not_mem_nil,
    fun x hx => absurd hx List.not_mem_nil, fun op hop => absurd hop List.not_mem_nil⟩

/-! ## The dispatcher -/

/-- The reads that a client thread has sent for its own call. -/
def ownGets (i : Nat) (operations : List Operation) : List Bytes :=
  (ownOps i operations).flatMap fun op => op.frames.filter isGetFrame

/-- The frame of the call's request can be built. -/
def ReadCall.Fits (call : ReadCall) : Prop := ∃ seq messageSeq frame, call.frame seq messageSeq = .ok frame

/-- What the thread `i` sends for a request, from what it has sent until the state `w`: each of its
reads, its refreshes of `poll_path` apart, says what the request asks for, and there is at most one,
and one if the thread has the I/O and a session and the frame can be built. -/
structure Faithful (d : DatastoreDispatcher σ) (cfg : Config) (w : ReadWorld) (x : HttpRead)
    (call : ReadCall) (i : Nat) (pairs : List (Str × Str)) : Prop where
  carries : ∀ frame ∈ ownGets i w.operations, ∃ r, decodeFrame frame = some r ∧
    Carries r call.path (sentEtag call.path x.args.ifNoneMatch) pairs
  once : (ownGets i w.operations).length ≤ 1
  meters : call.path = METERS_PATH → ∀ op ∈ w.operations, op.caller = .client i → op.background = false
  obtained : ∀ c io, w.stack.world.clients[i]? = some c → Client.own c = some io → io.pc = .inCall →
    call.Fits → ∀ a w', w.step d cfg a = some w' → w'.stack.world.clients[i]? ≠ some c →
      (ownGets i w'.operations).length = 1

theorem currentMessageSeq_lt {s : MotuUsbDatastore} : s.currentMessageSeq < 2 ^ 32 := by
  unfold MotuUsbDatastore.currentMessageSeq
  omega

section
variable {x : HttpRead} {call : ReadCall} {i : Nat}

theorem Sent.ownGets_eq (hs : Sent w.stack.world w.reads w.operations) (hx : x ∈ w.reads)
    (hcall : x.call = some (call, i)) : ownGets i w.operations =
      (ownOps i w.operations).flatMap fun op => (call.frame op.seq op.messageSeq).toOption.toList := by
  unfold ownGets
  rw [List.flatMap_def, List.flatMap_def]
  congr 1
  exact List.map_congr_left fun op hop => hs.own x hx call i hcall op hop

/-- A thread that has the I/O and a session sends its read in its next step. -/
theorem Sent.obtained {a : ReadStack.Action} {c : Client} {io : IoCall}
    (hs : Sent w.stack.world w.reads w.operations) (hserved : Served d w.stack.world w.reads)
    (hx : x ∈ w.reads) (hcall : x.call = some (call, i)) (hc : w.stack.world.clients[i]? = some c)
    (ho : Client.own c = some io) (hpc : io.pc = .inCall) (hfits : call.Fits)
    (h : w.step d cfg a = some w') (hmoved : w'.stack.world.clients[i]? ≠ some c) :
    (ownGets i w'.operations).length = 1 := by
  have hs' := hs.step hserved h
  have hstays {b : Coordinator.Action} {world : World} (hw : WorldStep cfg w.stack.world b world)
      (hb : ∀ choice, b ≠ .client i choice) : world.clients[i]? = some c := by
    obtain ⟨c', hc', ⟨-, rfl⟩ | ⟨choice, _, rfl, -⟩⟩ := hw.client_after hc
    · exact hc'
    · exact absurd rfl (hb choice)
  cases ReadWorld.step_cases h with
  | quiet hquiet =>
    rcases hquiet with hworld | ⟨b, hnone, hworld⟩
    · exact absurd (hworld ▸ hc) hmoved
    · obtain ⟨c', hc', ⟨-, rfl⟩ | ⟨choice, _, rfl, hstep⟩⟩ := hworld.client_after hc
      · exact absurd hc' hmoved
      · obtain ⟨io', -, hio⟩ := own_step hstep ho
        rcases IoStep.concludes_of_inCall hio hpc with ⟨_, rfl⟩ | ⟨_, _, _, rfl⟩ <;> cases hnone
  | read | finish => exact absurd hc hmoved
  | call _ _ hw => exact absurd (hstays hw fun _ heq => by cases heq) hmoved
  | @operate caller op wire exit choice stack hop hr hworld =>
    have hcaller : caller = .client i := by
      by_contra hne
      refine hmoved (hstays hworld fun choice' heq => hne ?_)
      cases caller with
      | client j => cases heq; rfl
      | poller => cases heq
    subst hcaller
    have hb : inBackground w.stack (.client i) = false := by
      rw [inBackground, hc]
      exact inBackground_of_inCall ho hpc
    -- it has not sent anything for its call before
    have hnil : ownOps i w.operations = [] := by
      have honce := hs.once i c hc
      rw [Client.ownEnded, ho, Option.any_some, hpc] at honce
      exact List.length_eq_zero_iff.mp (Nat.le_zero.mp honce)
    obtain ⟨seq, messageSeq, frame, hframe⟩ := hfits
    obtain ⟨frame', hframe'⟩ : ∃ frame', call.frame w.stack.session.hostSeq
        w.stack.session.currentMessageSeq = .ok frame' :=
      buildGetFrame_renumber hframe currentMessageSeq_lt
    rw [hs'.ownGets_eq hx hcall]
    simp only [ownOps] at hnil ⊢
    rw [List.filter_append, hnil, List.nil_append, List.filter_singleton, hb]
    simp [hframe', Except.toOption]

end

/-- A dispatcher that reads only. -/
def readOnly : DatastoreDispatcher Unit where
  allowWrites := false
  runGet _ _ _ _ := pure (.bytes [])
  runPost _ := pure (.bytes [])

end ReadStack

end MotuProxy
