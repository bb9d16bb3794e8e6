import MotuProxy.Verify.Accounting
import MotuProxy.Verify.Attribution
import MotuProxy.Verify.Publication
import MotuProxy.Verify.WriteFrames

/-! # Where a response comes from

A response is joined from packets that arrived while its own request was in progress and that carry
the message sequence of the frame its request was sent in. What an HTTP write is answered is such a
response to the one frame it was sent in.
-/

namespace MotuProxy

open Py Protocol Responses

namespace Datastore

open MotuUsbDatastore

/-! ## The frames of a response -/

/-- The frame of the message sequence that a packet is. -/
def frameOf (messageSeq : Nat) (packet : Bytes) : Option ResponseFrame :=
  (parseResponseFrame packet messageSeq).toOption

/-- The packets arrive at the next reads, and their frames of the message sequence make up the
response. -/
structure Joined (reads : List ReadEvent) (messageSeq : Nat) (packets : List Bytes)
    (response : Bytes) : Prop where
  arrived : ∃ b rest, nextReads b packets.length reads = (packets.map .ok, rest)
  response : joinParsedResponseFrames (packets.filterMap (frameOf messageSeq)) = .ok response

section
variable {a : CollectArgs} {c : Collect} {packet : Bytes} {packets : List Bytes}
  {reads : List ReadEvent} {b : Bool} {E : Exn → MotuUsbDatastore → Prop}

theorem frameOf_eq_none (h : responseMessageSeq packet ≠ some seq) : frameOf seq packet = none := by
  unfold frameOf
  cases hp : parseResponseFrame packet seq with
  | error e => rfl
  | ok f => exact absurd (responseMessageSeq_of_parse hp) h

theorem react_gathers (hearly : (react a c packet).early = none) : (react a c packet).next.frames =
    c.frames ++ (frameOf a.expectedMessageSeq packet).toList := by
  have hcase := react_cases a c packet
  generalize react a c packet = r at hearly hcase
  have hother (h : responseMessageSeq packet ≠ some a.expectedMessageSeq) :
      c.frames = c.frames ++ (frameOf a.expectedMessageSeq packet).toList := by
    rw [frameOf_eq_none h]
    exact (List.append_nil _).symm
  cases hcase with
  | deviceAck hack =>
    refine hother fun hseq => ?_
    cases hack.symm.trans (responseMessageSeq_eq_some hseq).2
  | damaged => cases hearly
  | current hp => rw [currentFrame_frames, frameOf, hp]; rfl
  | otherDamaged hseq hne => exact hother fun h => hne (Option.some.inj (hseq.symm.trans h))
  | stale hseq hne =>
    rw [staleFrame_frames]
    exact hother fun h => hne (Option.some.inj (hseq.symm.trans h))
  | unknown hack hseq => exact hother fun h => by cases hseq.symm.trans h

/-- The packets that the call has read so far. -/
def Arrived (reads : List ReadEvent) (b : Bool) (packets : List Bytes) (s : MotuUsbDatastore) : Prop :=
  nextReads b packets.length reads = (packets.map .ok, s.wire.reads)

theorem Arrived.clockInvariant : ClockInvariant (Arrived reads b packets) where
  cancels _ _ h := h
  clock _ _ _ h := h
  stats _ _ h := h

/-- A failure does not return. -/
theorem failWith_silent {P : MotuUsbDatastore → Prop} {Q : α → MotuUsbDatastore → Prop} :
    Triple P (failWith a started c e) Q (fun _ _ => True) := by
  have hI : ClockInvariant fun _ => True :=
    ⟨fun _ _ _ => trivial, fun _ _ _ _ => trivial, fun _ _ _ => trivial⟩
  exact hI.failWith_raises.conseq (fun _ _ => trivial) (fun _ _ hs => hs) fun _ _ _ => trivial

theorem writeFrame_arrived {frame : Bytes} : Triple (Arrived reads b packets) (writeFrame frame)
    (fun _ => Arrived reads b packets) (fun _ _ => True) := by
  intro s hs
  have hwrite := @writeFrame_sent frame s s rfl
  cases hx : writeFrame frame s with
  | ok _ s' =>
    rw [hx] at hwrite
    subst hwrite
    exact hs
  | error e s' => trivial

theorem acknowledge_arrived {ack : Bool} : Triple (Arrived reads b packets) (acknowledge ack)
    (fun _ => Arrived reads b packets) (fun _ _ => True) := by
  cases ack with
  | false => exact Triple.pure fun _ hs => hs
  | true =>
    refine Triple.bind (Q := fun _ => Arrived reads b packets) (fun _ hs => hs) fun _ => ?_
    exact writeFrame_arrived

/-- A method whose exceptions do not matter. -/
theorem Preserves.quiet {I : MotuUsbDatastore → Prop} {x : Proc α} (h : Preserves I x) :
    Triple I x (fun _ => I) (fun _ _ => True) :=
  h.conseq (fun _ hs => hs) (fun _ _ hs => hs) fun _ _ _ => trivial

theorem readPacket_arrived : Triple (Arrived reads a.useCancellableRead packets)
    (readPacket a started c)
    (fun packet => Arrived reads a.useCancellableRead (packets ++ [packet])) (fun _ _ => True) := by
  intro s hs
  cases hr : readLogicalFrame a.useCancellableRead s.wire.reads with
  | mk r rest =>
    cases r with
    | ok packet =>
      simp only [readPacket, readFrame, hr]
      simpa [Arrived] using nextReads_succ hs hr
    | error e =>
      simp only [readPacket, readFrame, hr]
      by_cases hk : e.kind = .datastoreCancelled
      · rw [if_pos hk]
        exact failWith_silent (P := fun _ => True) _ trivial
      · rw [if_neg hk]
        trivial

/-- The frames that the collector has accepted are those of its message sequence that arrived. -/
def Gathered (a : CollectArgs) (packets : List Bytes) (c : Collect) : Prop :=
  c.frames = packets.filterMap (frameOf a.expectedMessageSeq)

theorem handlePacket_gathered (h : Gathered a packets c) :
    Triple (Arrived reads b (packets ++ [packet]))
      (handlePacket a started deadline { c with reads := n } packet)
      (fun r s => Arrived reads b (packets ++ [packet]) s ∧ Gathered a (packets ++ [packet]) r.1)
      (fun _ _ => True) := by
  have hframes : (packets ++ [packet]).filterMap (frameOf a.expectedMessageSeq) =
      c.frames ++ (frameOf a.expectedMessageSeq packet).toList := by
    rw [List.filterMap_append, ← h]
    rfl
  refine Triple.ite (fun hempty => ?_) fun _ => ?_
  · subst hempty
    have hnone : frameOf a.expectedMessageSeq [] = none := frameOf_eq_none (by simp [responseMessageSeq])
    rw [hnone, Option.toList_none, List.append_nil] at hframes
    refine Triple.bind Arrived.clockInvariant.sliceOnly_preserves fun again =>
      Triple.pure fun _ hs => ⟨hs, ?_⟩
    cases again <;> exact hframes.symm
  · unfold perform
    cases hearly : (react a { c with reads := n } packet).early with
    | some e =>
      exact Triple.bind (Q := fun _ _ => False) failWith_silent fun _ _ hf => hf.elim
    | none =>
      refine Triple.bind (Triple.pure fun _ hs => hs) fun _ => Triple.bind acknowledge_arrived fun _ =>
        Triple.bind (Preserves.quiet Arrived.clockInvariant.raiseIf_preserves) fun _ =>
        Triple.pure fun _ hs => ⟨hs, ?_⟩
      exact (react_gathers hearly).trans hframes.symm

theorem collectLoop_gathered (h : Gathered a packets c) :
    Triple (Arrived reads a.useCancellableRead packets) (collectLoop a started deadline n c)
      (fun c s => ∃ packets, Arrived reads a.useCancellableRead packets s ∧ Gathered a packets c)
      (fun _ _ => True) := by
  have hbefore {packets : List Bytes} {c : Collect} :
      Triple (Arrived reads a.useCancellableRead packets) (beforeRead a started deadline c)
        (fun _ => Arrived reads a.useCancellableRead packets) (fun _ _ => True) :=
    Preserves.quiet Arrived.clockInvariant.beforeRead_preserves
  induction n generalizing c packets with
  | zero =>
    exact Triple.ite (fun _ => Triple.pure fun _ hs => ⟨packets, hs, h⟩) fun _ =>
      Triple.bind hbefore fun _ => Triple.pure fun _ hs => ⟨packets, hs, h⟩
  | succ n ih =>
    refine Triple.ite (fun _ => Triple.pure fun _ hs => ⟨packets, hs, h⟩) fun _ =>
      Triple.bind hbefore fun _ => Triple.bind readPacket_arrived fun packet =>
      Triple.bind (handlePacket_gathered h) fun r => Triple.assume fun hr => ?_
    exact Triple.ite (fun _ => Triple.pure fun _ hs => ⟨_, hs, hr⟩) fun _ => ih hr

theorem finish_joined (h : Gathered a packets c) :
    Triple (Arrived reads b packets) (finish a started c)
      (fun response _ => ∃ packets, Joined reads a.expectedMessageSeq packets response)
      (fun _ _ => True) := by
  refine Triple.ite (fun _ => failWith_silent) fun _ => ?_
  cases hj : joinParsedResponseFrames c.frames with
  | error e => exact failWith_silent
  | ok response =>
    refine Triple.bind (Q := fun _ => Arrived reads b packets) (Triple.modify fun _ hs => hs) fun _ =>
      Triple.bind Arrived.clockInvariant.recordResponseStats_preserves fun _ =>
      Triple.pure fun _ hs => ⟨packets, ⟨_, _, hs⟩, ?_⟩
    rw [← h, hj]

theorem collectResponse_joined : Triple (fun s => s.wire.reads = reads) (collectResponse a)
    (fun response _ => ∃ packets, Joined reads a.expectedMessageSeq packets response)
    (fun _ _ => True) := by
  refine Triple.bind (Q := fun _ => Arrived reads a.useCancellableRead [])
    (Triple.modify fun s hs => by simp [Arrived, nextReads, hs]) fun _ =>
    Triple.bind Arrived.clockInvariant.monotonic_preserves fun _ =>
    Triple.bind Arrived.clockInvariant.monotonic_preserves fun _ =>
    Triple.bind (collectLoop_gathered (c := {}) rfl) fun c => ?_
  rintro s ⟨packets, hs, hc⟩
  exact finish_joined hc s hs

/-! ## The response of an operation -/

/-- The operation has handed over a frame that `build` builds, and the response is joined from what
has arrived under the message sequence of the frame. -/
structure Exchanged (build : Nat → Nat → Except Exn Bytes) (reads : List ReadEvent)
    (handed : List Bytes) (response : Bytes) : Prop where
  exchanged : ∃ seq messageSeq frame packets, build seq messageSeq = .ok frame ∧ frame ∈ handed ∧
    Joined reads messageSeq packets response

theorem handed_collectorInvariant (frame : Bytes) :
    CollectorInvariant (fun s => frame ∈ s.wire.handed) where
  reads _ _ h := h
  cancels _ _ h := h
  clock _ _ _ h := h
  results _ _ _ _ h := h
  acknowledge := by
    have htake : Triple (fun s => frame ∈ s.wire.handed) MotuUsbDatastore.nextHostSeq
        (fun _ s => frame ∈ s.wire.handed) (fun _ s => frame ∈ s.wire.handed) := fun _ hs => hs
    refine Triple.bind htake fun seq => writeFrame_handed fun s w hs hw => ?_
    rw [hw]
    exact List.mem_append_left _ hs

theorem exchange_exchanged {build : Nat → Nat → Except Exn Bytes} {collect : Nat → CollectArgs}
    (hcollect : ∀ messageSeq, (collect messageSeq).expectedMessageSeq = messageSeq) :
    Triple (fun s => s.wire.reads = reads) (exchange build collect)
      (fun response s => Exchanged build reads s.wire.handed response) (fun _ _ => True) := by
  have htake : Triple (fun s => s.wire.reads = reads) MotuUsbDatastore.nextHostSeq
      (fun _ s => s.wire.reads = reads) (fun _ _ => True) := fun _ hs => hs
  refine Triple.bind (Q := fun _ s => s.wire.reads = reads) (Triple.get fun _ hs => hs) fun s₀ =>
    Triple.bind htake fun seq => ?_
  cases hb : build seq s₀.currentMessageSeq with
  | error exc =>
    exact Triple.bind (Triple.throw (Q := fun _ _ => False) fun _ _ => trivial) fun _ _ hf => hf.elim
  | ok frame =>
    refine Triple.bind (Q := fun f s => s.wire.reads = reads ∧ f = frame)
      (Triple.pure fun _ hs => ⟨hs, rfl⟩) fun f => Triple.assume fun hf => ?_
    subst hf
    have hwrite : Triple (fun s => s.wire.reads = reads) (writeFrame f)
        (fun _ s => s.wire.reads = reads ∧ f ∈ s.wire.handed) (fun _ _ => True) := by
      intro s hs
      have hsent := @writeFrame_sent f s s rfl
      cases hx : writeFrame f s with
      | error e s' => trivial
      | ok _ s' =>
        rw [hx] at hsent
        subst hsent
        exact ⟨hs, List.mem_append_right _ (List.mem_singleton.mpr rfl)⟩
    refine Triple.bind hwrite fun _ => Triple.bind
      (Q := fun _ s => s.wire.reads = reads ∧ f ∈ s.wire.handed) (Triple.modify fun _ hs => hs)
      fun _ => ?_
    have hjoined : Triple (fun s => s.wire.reads = reads) (collectResponse (collect s₀.currentMessageSeq))
        _ _ := collectResponse_joined
    have hboth := hjoined.and (Preserves.quiet (handed_collectorInvariant f).collectResponse_preserves)
    refine hboth.conseq (fun _ hs => hs) (fun response s hs => ?_) fun _ _ _ => trivial
    obtain ⟨⟨packets, hjoined⟩, hmem⟩ := hs
    rw [hcollect] at hjoined
    exact ⟨seq, _, f, packets, hb, hmem, hjoined⟩

theorem get_exchanged (g : GetArgs) : Triple (fun s => s.wire.reads = reads) (MotuUsbDatastore.get g)
    (fun response s => Exchanged (fun seq messageSeq => buildGetFrame seq messageSeq g.path g.etag
      (py "NREK") g.client g.queryFields) reads s.wire.handed response) (fun _ _ => True) := by
  unfold MotuUsbDatastore.get
  exact exchange_exchanged fun _ => rfl

theorem post_exchanged (p : PostArgs) : Triple (fun s => s.wire.reads = reads) (MotuUsbDatastore.post p)
    (fun response s => Exchanged (fun seq messageSeq => buildPostFrame seq messageSeq p.path p.jsonBody
      (py "NREK") p.client) reads s.wire.handed response) (fun _ _ => True) := by
  unfold MotuUsbDatastore.post
  exact exchange_exchanged fun _ => rfl

end

end Datastore

/-! ## The responses of the coordinator -/

namespace Coordinator

/-- The frame that a request is sent in. -/
def Request.build : Request → Nat → Nat → Except Exn Bytes
  | .get path etag client queryFields _, seq, messageSeq =>
    buildGetFrame seq messageSeq path etag (py "NREK") client queryFields
  | .post path jsonBody client, seq, messageSeq =>
    buildPostFrame seq messageSeq path jsonBody (py "NREK") client

section
variable {e e' : Env} {c c' : IoCall} {choice : Choice} {request : Request} {response : Bytes}
  {generation : Nat}

/-- A step adds one event to the log at most, and a response only under a condition. -/
def Logs (e e' : Env) (P : Nat → Request → Bytes → Prop) : Prop :=
  e'.log = e.log ∨ ∃ event, e'.log = e.log ++ [event] ∧
    ∀ generation request response, event = .received generation request response →
      P generation request response

theorem Logs.imp {P Q : Nat → Request → Bytes → Prop} (h : Logs e e' P)
    (hPQ : ∀ generation request response, P generation request response → Q generation request response) :
    Logs e e' Q := by
  rcases h with hlog | ⟨event, hlog, hevent⟩
  · exact .inl hlog
  · exact .inr ⟨event, hlog, fun _ _ _ heq => hPQ _ _ _ (hevent _ _ _ heq)⟩

/-- A response of the log was there before, or it is the event that has just been added. -/
theorem Logs.getElem? {P : Nat → Request → Bytes → Prop} (h : Logs e e' P)
    (hk : e'.log[k]? = some (.received generation request response)) :
    e.log[k]? = some (.received generation request response) ∨
    e.log.length = k ∧ e'.log = e.log ++ [.received generation request response] ∧
      P generation request response := by
  rcases h with hlog | ⟨event, hlog, hevent⟩
  · exact .inl (hlog ▸ hk)
  · rw [hlog, List.getElem?_append] at hk
    split at hk
    · exact .inl hk
    · rename_i hlt
      obtain ⟨hlength, hget⟩ := List.getElem?_eq_some_iff.mp hk
      have hzero : k - e.log.length = 0 := by simpa using hlength
      simp only [hzero, List.getElem_cons_zero] at hget
      subst hget
      exact .inr ⟨by omega, hlog, hevent _ _ _ rfl⟩

theorem Env.begin_logs {P : Nat → Request → Bytes → Prop} (h : e.begin request choice = some (r, e')) :
    Logs e e' P := by
  cases r with
  | ok _ =>
    obtain ⟨_, _, -, -, -, hlog⟩ := Env.begin_ok h
    exact .inr ⟨_, hlog, fun _ _ _ heq => by cases heq⟩
  | error exc =>
    obtain ⟨_, _, -, -, hlog⟩ := Env.begin_error h
    exact .inl hlog

theorem Env.publish_logs {P : Nat → Request → Bytes → Prop} {recordTransition : Bool} :
    Logs e (e.publish cfg request p origin etag recordTransition) P := by
  unfold Logs Env.publish
  dsimp only
  split
  · exact .inr ⟨_, rfl, fun _ _ _ heq => by cases heq⟩
  · exact .inl rfl

/-- A response is received by the end of an operation only. -/
theorem Env.finish_logs (h : e.finish request choice = some (r, e')) :
    Logs e e' fun generation request' response => choice = .respond response ∧
      generation = e.managed.sessionGeneration ∧ request' = request := by
  cases r with
  | ok response =>
    have hlog : e'.log = e.log ++ [.received e.managed.sessionGeneration request response] := by
      rw [Env.finish_ok h]
    refine .inr ⟨_, hlog, fun _ _ _ heq => ?_⟩
    cases heq
    exact ⟨Env.finish_choice h, rfl, rfl⟩
  | error exc =>
    obtain ⟨_, _, _, rfl⟩ := Env.finish_error h
    exact .inl rfl

theorem IoStep.logs (h : IoStep cfg e c choice e' c') :
    Logs e e' fun generation request response => choice = .respond response ∧
      generation = e.managed.sessionGeneration ∧ Stack.IoCall.operation c = some request := by
  cases h with
  | acquire | exceed | wait | payload | refreshPayload | release => exact .inl rfl
  | beginOk _ hb | beginFail _ hb => exact Env.begin_logs hb
  | refreshBegin _ _ hb | refreshBeginFail _ _ hb => exact Env.begin_logs hb
  | publishRead | publishRefresh => exact Env.publish_logs
  | respond hpc hf | raise hpc hf | refreshRespond hpc hf | refreshRaise hpc hf =>
    refine (Env.finish_logs hf).imp ?_
    rintro _ _ _ ⟨hchoice, hgeneration, rfl⟩
    exact ⟨hchoice, hgeneration, by simp [Stack.IoCall.operation, hpc]⟩

theorem IoStep.newly_received (h : IoStep cfg e c choice e' c') (hr : c'.received = some response) :
    c'.job = c.job ∧ (c.received = some response ∨ choice = .respond response ∧ c.pc = .inCall ∧
      e'.log = e.log ++ [.received e.managed.sessionGeneration c.job.request response]) := by
  cases h with
  | respond hpc hf =>
    cases hr
    exact ⟨rfl, .inr ⟨Env.finish_choice hf, hpc, by rw [Env.finish_ok hf]⟩⟩
  | _ => exact ⟨rfl, .inl hr⟩

theorem PollPc.logs {pc pc' : PollPc} (h : pc.step cfg e choice = some (e', pc')) :
    Logs e e' fun generation request response => choice = .respond response ∧
      generation = e.managed.sessionGeneration ∧
      ∃ capture, pc = .inCall capture ∧ request = capture.request cfg := by
  cases PollPc.step_cases h with
  | start | capture | acquire | wait | readStarted | payload | release | loop | stop => exact .inl rfl
  | beginOk hb | beginFail hb => exact Env.begin_logs hb
  | publish => exact Env.publish_logs
  | respond | raise =>
    -- here the operation ends, unless its read only registers
    simp only [PollPc.step] at h
    split at h
    · split at h
      · cases h
      · cases h
    · obtain ⟨⟨r, e₁⟩, hfinish, hr⟩ := Option.map_eq_some_iff.mp h
      have henv : e₁ = e' := by
        cases r <;> exact (Prod.mk.inj hr).1
      subst henv
      refine (Env.finish_logs hfinish).imp ?_
      rintro _ _ _ ⟨hchoice, hgeneration, hrequest⟩
      exact ⟨hchoice, hgeneration, _, rfl, hrequest⟩

/-- A response that a step adds to the log is the end of an operation on the session. -/
theorem step_logs {w w' : World} (h : Coordinator.step cfg w a = some w') :
    Logs w.env w'.env fun generation request response =>
      generation = w.env.managed.sessionGeneration ∧
      ((∃ (i : Nat) (c : Client) (io : IoCall), a = .client i (.respond response) ∧
        w.clients[i]? = some c ∧ c.call? = some io ∧ Stack.IoCall.operation io = some request) ∨
      ∃ capture, a = .poller (.respond response) ∧ w.poller = .inCall capture ∧
        request = capture.request cfg) := by
  cases World.step_cases h with
  | tick | get | post | close | closeDatastore => exact .inl rfl
  | poller hstep =>
    refine (PollPc.logs hstep).imp ?_
    rintro _ _ _ ⟨rfl, hgeneration, capture, hpc, hr⟩
    exact ⟨hgeneration, .inr ⟨capture, rfl, hpc, hr⟩⟩
  | @client c choice env' c' i hc hstep =>
    rcases Client.step_cases hstep with ⟨io, io', hio, -, hmove⟩ | ⟨⟨_, _, rfl⟩, -, -⟩
    · refine hmove.logs.imp ?_
      rintro _ _ _ ⟨rfl, hgeneration, hop⟩
      exact ⟨hgeneration, .inl ⟨i, c, io, rfl, hc, hio, hop⟩⟩
    · exact .inl rfl

end

end Coordinator

/-! ## The layers -/

namespace Stack

open Datastore Coordinator Dispatch

variable {σ : Type} {d : DatastoreDispatcher σ} {cfg : Config} {start w w' : StackWorld}
  {as : List Action} {a : Action} {caller : Caller} {generation k : Nat} {request : Request}
  {response frame : Bytes}

/-- Where the response comes from that the log has at `k`: the thread has run an operation that has
handed over the frame, one of the request, the packets that arrived in the same operation under the
message sequence of the frame make up the response, and the end of the operation is the event. -/
inductive Origin (d : DatastoreDispatcher σ) (cfg : Config) (start : StackWorld) (as : List Action)
    (k : Nat) (caller : Caller) (generation : Nat) (request : Request) (frame response : Bytes) : Prop where
  | operation {before after : List Action} {wire : Wire} {exit : Option Exn} {w w' : StackWorld}
      {seq messageSeq : Nat} {frames packets : List Bytes}
      (hsplit : as = before ++ .operate caller wire exit :: after)
      (hbefore : run (StackWorld.step d cfg) start before = some w)
      (hstep : w.step d cfg (.operate caller wire exit) = some w')
      (hhanded : w'.handed = w.handed ++ frames.map (⟨caller, generation, ·⟩)) (hframe : frame ∈ frames)
      (hbuild : request.build seq messageSeq = .ok frame)
      (hjoined : Joined wire.reads messageSeq packets response)
      (hlength : w.world.env.log.length = k)
      (hlog : w'.world.env.log = w.world.env.log ++ [.received generation request response])

theorem Origin.later (h : Origin d cfg start as k caller generation request frame response) :
    Origin d cfg start (as ++ bs) k caller generation request frame response := by
  obtain ⟨rfl, hbefore, hstep, hhanded, hframe, hbuild, hjoined, hlength, hlog⟩ := h
  exact .operation (List.append_assoc ..) hbefore hstep hhanded hframe hbuild hjoined hlength hlog

/-- The response has its origin, in a frame that the session has been handed. -/
def Backed (d : DatastoreDispatcher σ) (cfg : Config) (start : StackWorld) (as : List Action)
    (w : StackWorld) (k : Nat) (caller : Caller) (generation : Nat) (request : Request)
    (response : Bytes) : Prop :=
  ∃ frame, ⟨caller, generation, frame⟩ ∈ w.handed ∧
    Origin d cfg start as k caller generation request frame response

theorem Backed.later (h : Backed d cfg start as w k caller generation request response)
    (hsub : ∀ e ∈ w.handed, e ∈ w'.handed) :
    Backed d cfg start (as ++ bs) w' k caller generation request response := by
  obtain ⟨frame, hmem, horigin⟩ := h
  exact ⟨frame, hsub _ hmem, horigin.later⟩

theorem exec_exchanged (request : Request) {reads : List ReadEvent} :
    Triple (fun s => s.wire.reads = reads) (Request.exec request)
      (fun response s => Exchanged request.build reads s.wire.handed response) (fun _ _ => True) := by
  cases request with
  | get => exact get_exchanged _
  | post => exact post_exchanged _

theorem capture_exchanged (c : Capture) {reads : List ReadEvent} :
    Triple (fun s => s.wire.reads = reads) (Capture.exec cfg c)
      (fun response s => Exchanged (c.request cfg).build reads s.wire.handed response)
      (fun _ _ => True) :=
  get_exchanged _

theorem operate_respond {op : Proc Bytes} {wire : Wire}
    (h : Triple (fun s => s.wire.reads = wire.reads) op
      (fun response s => Exchanged build wire.reads s.wire.handed response) (fun _ _ => True))
    (hr : w.operate op wire exit = (.respond response, session)) :
    Exchanged build wire.reads session.wire.handed response := by
  unfold StackWorld.operate at hr
  split at hr
  · rename_i hop
    cases hr
    exact h.ok rfl hop
  · cases hr

/-- A step of the layers is no step of the coordinator, one that ends no operation, or an operation on
the session. -/
inductive Moved (cfg : Config) (w : StackWorld) (w' : StackWorld) : Action → Prop where
  | still {a : Action} (hworld : w'.world = w.world) (hhanded : w'.handed = w.handed) : Moved cfg w w' a
  | step {a : Action} (hstep : Coordinator.step cfg w.world b = some w'.world)
      (hhanded : w'.handed = w.handed)
      (hplain : ∀ caller response, b ≠ Caller.action (.respond response) caller) : Moved cfg w w' a
  | operate {caller : Caller} (hop : w.operation cfg caller = some op)
      (hr : w.operate op wire exit = (choice, session))
      (hstep : Coordinator.step cfg w.world (caller.action choice) = some w'.world)
      (hhanded : w'.handed = w.handed ++
        session.wire.handed.map (⟨caller, w.world.env.managed.sessionGeneration, ·⟩)) :
    Moved cfg w w' (.operate caller wire exit)

theorem StackWorld.step_moved (h : w.step d cfg a = some w') : Moved cfg w w' a := by
  cases a with
  | step b =>
    simp only [StackWorld.step] at h
    split at h
    · rename_i hplain
      simp only [Option.bind_eq_bind, Option.bind_eq_some_iff] at h
      obtain ⟨world, hstep, h⟩ := h
      cases h
      refine .step hstep rfl ?_
      rintro (_ | _) response rfl <;> cases hplain
    · cases h
  | begin caller opened later =>
    simp only [StackWorld.step, Option.bind_eq_bind, Option.bind_eq_some_iff] at h
    obtain ⟨refresh, -, world, hstep, h⟩ := h
    have hplain : ∀ caller' response, caller.action (.opener (raised opened) later) ≠
        Caller.action (.respond response) caller' := by
      rintro (_ | _) response heq <;> cases caller <;> cases heq
    split at h <;> cases h <;> exact .step hstep rfl hplain
  | operate caller wire exit =>
    simp only [StackWorld.step, Option.bind_eq_bind, Option.bind_eq_some_iff] at h
    obtain ⟨op, hop, world, hstep, h⟩ := h
    cases h
    exact .operate hop rfl hstep rfl
  | write args =>
    simp only [StackWorld.step] at h
    split at h <;> cases h
    exact .still rfl rfl
  | http i =>
    simp only [StackWorld.step, Option.bind_eq_bind, Option.bind_eq_some_iff] at h
    obtain ⟨x, hx, h⟩ := h
    unfold StackWorld.httpStep at h
    split at h
    · cases h
    · split at h
      · cases h
        exact .still rfl rfl
      · simp only [Option.bind_eq_bind, Option.bind_eq_some_iff] at h
        obtain ⟨world, hstep, h⟩ := h
        cases h
        refine .step hstep rfl ?_
        rintro (_ | _) response heq <;> cases heq
    · simp only [Option.bind_eq_bind, Option.bind_eq_some_iff] at h
      obtain ⟨result, -, h⟩ := h
      cases h
      exact .still rfl rfl

/-- Every response of the log has its origin, and a thread that has one has sent its request for it. -/
structure Traceable (d : DatastoreDispatcher σ) (cfg : Config) (start : StackWorld) (as : List Action)
    (w : StackWorld) : Prop where
  sourced : Sourced cfg w.world
  run : run (StackWorld.step d cfg) start as = some w
  log : ∀ {k generation request response},
    w.world.env.log[k]? = some (.received generation request response) →
      ∃ caller, Backed d cfg start as w k caller generation request response
  client : ∀ {i : Nat} {c io response}, w.world.clients[i]? = some c → c.call? = some io →
    io.received = some response → ∃ k generation,
      w.world.env.log[k]? = some (.received generation io.job.request response) ∧
      Backed d cfg start as w k (.client i) generation io.job.request response

theorem get_unreceived {io : IoCall} (h : (Coordinator.get cfg now path client etag fields).call? = some io) :
    io.received = none := by
  unfold Coordinator.get at h
  split at h
  · split at h <;> cases h
    rfl
  · cases h
    rfl

theorem getElem?_log_append {e e' : Env} {event : Event} (hlog : e'.log = e.log ++ events)
    (hk : e.log[k]? = some event) : e'.log[k]? = some event := by
  rw [hlog, List.getElem?_append_left (List.getElem?_eq_some_iff.mp hk).1, hk]

/-- The step of the coordinator under a step of the layers. -/
theorem Traceable.move {b : Coordinator.Action} (hw : Traceable d cfg start as w)
    (hrun : w.step d cfg a = some w')
    (hstep : Coordinator.step cfg w.world b = some w'.world) (hsub : ∀ e ∈ w.handed, e ∈ w'.handed)
    (hclient : ∀ {i c io request response}, b = .client i (.respond response) →
      w.world.clients[i]? = some c → c.call? = some io → IoCall.operation io = some request →
      w'.world.env.log = w.world.env.log ++
        [.received w.world.env.managed.sessionGeneration request response] →
      Backed d cfg start (as ++ [a]) w' w.world.env.log.length (.client i)
        w.world.env.managed.sessionGeneration request response)
    (hpoller : ∀ {capture response}, b = .poller (.respond response) →
      w.world.poller = .inCall capture →
      w'.world.env.log = w.world.env.log ++
        [.received w.world.env.managed.sessionGeneration (capture.request cfg) response] →
      Backed d cfg start (as ++ [a]) w' w.world.env.log.length .poller
        w.world.env.managed.sessionGeneration (capture.request cfg) response) :
    Traceable d cfg start (as ++ [a]) w' where
  sourced := hw.sourced.step hstep
  run := run_append.mpr ⟨w, hw.run, run_cons.mpr ⟨w', hrun, rfl⟩⟩
  log hk := by
    rcases (step_logs hstep).getElem? hk with hk |
      ⟨rfl, hlog, rfl, ⟨i, c, io, hb, hc, hio, hop⟩ | ⟨capture, hb, hpc, rfl⟩⟩
    · obtain ⟨caller, hbacked⟩ := hw.log hk
      exact ⟨caller, hbacked.later hsub⟩
    · exact ⟨_, hclient hb hc hio hop hlog⟩
    · exact ⟨_, hpoller hb hpc hlog⟩
  client {i c' io' response} hi hio' hr := by
    have hworld := World.step_cases hstep
    obtain ⟨events, hevents⟩ := hw.sourced.log_append hstep
    have hbefore {c io} (hc : w.world.clients[i]? = some c) (hio : c.call? = some io)
        (hjob : io'.job = io.job) (hr : io.received = some response) : ∃ k generation,
          w'.world.env.log[k]? = some (.received generation io'.job.request response) ∧
          Backed d cfg start (as ++ [a]) w' k (.client i) generation io'.job.request response := by
      obtain ⟨k, generation, hk, hbacked⟩ := hw.client hc hio hr
      rw [hjob]
      exact ⟨k, generation, getElem?_log_append hevents hk, hbacked.later hsub⟩
    rcases hworld.client_before hi with ⟨c, hc⟩ | ⟨-, ⟨path, client, etag, fields, rfl⟩ | ⟨path, body, client, rfl⟩⟩
    · obtain ⟨c₁, hc₁, ⟨-, rfl⟩ | ⟨choice, env', hb, hclientStep⟩⟩ :=
        hworld.client_after hc
      · cases hi.symm.trans hc₁
        exact hbefore hc hio' rfl hr
      · cases hi.symm.trans hc₁
        rcases Client.step_cases hclientStep with ⟨io, io₁, hio, hio₁, hmove⟩ | ⟨-, -, hfresh⟩
        · cases hio'.symm.trans hio₁
          obtain ⟨hjob, hr | ⟨rfl, hpc, hlog⟩⟩ := hmove.newly_received hr
          · exact hbefore hc hio hjob hr
          · have henv : env' = w'.world.env := by
              rw [hb] at hstep
              simp only [Coordinator.step, Option.bind_eq_bind, Option.bind_eq_some_iff] at hstep
              obtain ⟨c₂, hc₂, ⟨e₂, c₃⟩, hstep, hworld⟩ := hstep
              cases hc.symm.trans hc₂
              cases hclientStep.symm.trans hstep
              exact congrArg World.env (Option.some.inj hworld)
            rw [henv] at hlog
            rw [hjob]
            refine ⟨w.world.env.log.length, _, ?_,
              hclient hb hc hio (by simp [IoCall.operation, hpc]) hlog⟩
            rw [hlog, List.getElem?_concat_length]
        · cases (hfresh io' hio').received.symm.trans hr
    · cases (get_unreceived hio').symm.trans hr
    · cases hio'
      cases hr

theorem Traceable.step (hw : Traceable d cfg start as w) (h : w.step d cfg a = some w') :
    Traceable d cfg start (as ++ [a]) w' := by
  cases StackWorld.step_moved h with
  | still hworld hhanded =>
    have hsub : ∀ e ∈ w.handed, e ∈ w'.handed := fun e he => hhanded ▸ he
    refine ⟨hworld ▸ hw.sourced, run_append.mpr ⟨w, hw.run, run_cons.mpr ⟨w', h, rfl⟩⟩,
      fun hk => ?_, fun hi hio hr => ?_⟩
    · rw [hworld] at hk
      obtain ⟨caller, hbacked⟩ := hw.log hk
      exact ⟨caller, hbacked.later hsub⟩
    · rw [hworld] at hi ⊢
      obtain ⟨k, generation, hk, hbacked⟩ := hw.client hi hio hr
      exact ⟨k, generation, hk, hbacked.later hsub⟩
  | step hstep hhanded hplain =>
    refine hw.move h hstep (fun e he => hhanded ▸ he) (fun {i _ _ _ response} hb _ _ _ _ => ?_)
      fun {_ response} hb _ _ => ?_
    · exact (hplain (.client i) response hb).elim
    · exact (hplain .poller response hb).elim
  | @operate op wire exit choice session caller hop hr hstep hhanded =>
    -- what the operation has handed over and received is the origin of its response
    have hbacked {request : Request} {response : Bytes}
        (hx : Exchanged request.build wire.reads session.wire.handed response)
        (hlog : w'.world.env.log = w.world.env.log ++
          [.received w.world.env.managed.sessionGeneration request response]) :
        Backed d cfg start (as ++ [.operate caller wire exit]) w' w.world.env.log.length caller
          w.world.env.managed.sessionGeneration request response := by
      obtain ⟨seq, messageSeq, frame, packets, hbuild, hframe, hjoined⟩ := hx.exchanged
      refine ⟨frame, ?_, .operation rfl hw.run h hhanded hframe hbuild hjoined rfl hlog⟩
      rw [hhanded]
      exact List.mem_append_right _ (List.mem_map_of_mem hframe)
    refine hw.move h hstep (fun e he => hhanded ▸ List.mem_append_left _ he)
      (fun {i c io request response} hb hc hio hrequest hlog => ?_) fun {capture response} hb hpc hlog => ?_
    · cases caller with
      | poller => cases hb
      | client j =>
        cases hb
        have hexec : op = Request.exec request := by
          simp only [StackWorld.operation, hc, Option.bind_eq_bind, Option.bind_some,
            hio, hrequest, pure, Option.some.injEq] at hop
          exact hop.symm
        subst hexec
        exact hbacked (operate_respond (exec_exchanged request) hr) hlog
    · cases caller with
      | client j => cases hb
      | poller =>
        cases hb
        simp only [StackWorld.operation, hpc, Option.some.injEq] at hop
        subst hop
        exact hbacked (operate_respond (capture_exchanged capture) hr) hlog

theorem Traceable.init (managed : ManagedDatastore) (session : MotuUsbDatastore) :
    Traceable d cfg (.init managed session) [] (.init managed session) where
  sourced := .init managed
  run := rfl
  log hk := by cases hk
  client hi := by simp [StackWorld.init, World.init] at hi

/-- No response is attributed to another request: in every run, whatever the transport delivers,
every response that the coordinator has received, for a read, a write, a refresh or a poll, was
joined from the frames that arrived in the operation of its own thread under the message sequence of
a frame of its own request, handed to the transport in that operation. -/
theorem response_origin {managed : ManagedDatastore} {session : MotuUsbDatastore}
    (hrun : run (StackWorld.step d cfg) (.init managed session) as = some w)
    (hk : w.world.env.log[k]? = some (.received generation request response)) :
    ∃ caller frame, ⟨caller, generation, frame⟩ ∈ w.handed ∧
      Origin d cfg (.init managed session) as k caller generation request frame response :=
  (run_history (I := Traceable d cfg (.init managed session)) (fun _ _ _ _ hw h => hw.step h)
    (.init managed session) hrun).log hk

theorem response_origin_after_loss :
    ∃ w request, run (StackWorld.step permissive {}) (.init (.init 0 0 0) {}) lostRefreshRun = some w ∧
      w.world.env.log[1]? = some (.received 1 request firstAnswer) ∧
      ∃ caller frame, ⟨caller, 1, frame⟩ ∈ w.handed ∧
        Origin permissive {} (.init (.init 0 0 0) {}) lostRefreshRun 1 caller 1 request frame firstAnswer := by
  have hfacts : (run (StackWorld.step permissive {}) (.init (.init 0 0 0) {}) lostRefreshRun).map
      (fun w => w.world.env.log[1]?) = some (some (.received 1
        (.post (py "/datastore/x") [0x7b, 0x7d] none) firstAnswer)) := by decide +kernel
  obtain ⟨w, hw, hlog⟩ := Option.map_eq_some_iff.mp hfacts
  exact ⟨w, _, hw, hlog, response_origin hw hlog⟩

theorem Origin.isPostFrame (h : Origin d cfg start as k caller generation (.post path body client) frame
    response) : isPostFrame frame = true := by
  obtain ⟨-, -, -, -, -, hbuild, -, -, -⟩ := h
  exact isPostFrame_post hbuild

/-- What stands behind the answer to a write: the thread has handed one write to the transport, the
frame of the call, and the answer is made of what arrived in that operation under its message
sequence. -/
inductive Acknowledged (d : DatastoreDispatcher σ) (cfg : Config) (start : StackWorld)
    (as : List Action) (handed : List Handed) (call : WriteCall) (i : Nat) : DispatchResult → Prop where
  | post {generation k : Nat} {frame response : Bytes}
      (horigin : Origin d cfg start as k (.client i) generation
        (.post call.path call.body (call.client.map .str)) frame response)
      (honce : postsBy i handed = [⟨.client i, generation, frame⟩]) :
    Acknowledged d cfg start as handed call i (answer call (finalPayload response))

/-- A write that succeeds has reached the device: in every run, the thread of a write that is answered
has handed its frame to the transport exactly once, and the answer is the device's response to it. -/
theorem write_acknowledged {managed : ManagedDatastore} {session : MotuUsbDatastore}
    {x : HttpWrite} {call : WriteCall} {h i : Nat} {r : DispatchResult}
    (hrun : run (StackWorld.step d cfg) (.init managed session) as = some w)
    (hx : w.writes[h]? = some x) (hcall : x.call = some (call, i)) (hr : x.result = some (.ok r)) :
    Acknowledged d cfg (.init managed session) as w.handed call i r := by
  have hlayered : Layered cfg w :=
    run_invariant_of_step (fun _ _ _ hw h => hw.step h) (.init managed session) hrun
  have htraceable : Traceable d cfg (.init managed session) as w :=
    run_history (I := Traceable d cfg (.init managed session)) (fun _ _ _ _ hw h => hw.step h) (.init managed session) hrun
  obtain ⟨c, hc, hjob, hdone⟩ := hlayered.traced.call h x call i hx hcall
  obtain ⟨result, hpc, hresult⟩ := hdone _ hr
  cases result with
  | error exc => cases hresult
  | ok p =>
    cases hresult
    -- the payload is that of the response that the thread has received
    have hown := hlayered.faithful.client i (.io c) c hc rfl
    obtain ⟨response, hreceived, rfl⟩ := hown.payload p (by rw [hpc]; rfl)
    obtain ⟨k, generation, -, frame, hhanded, horigin⟩ := htraceable.client hc rfl hreceived
    rw [hjob] at horigin
    have hmem := mem_postsBy.mpr ⟨hhanded, rfl, horigin.isPostFrame⟩
    have hlength := Nat.le_trans (hlayered.sent.posts i c _ hc hjob) (Bool.toNat_le _)
    obtain ⟨e, hposts⟩ := List.length_eq_one_iff.mp
      (Nat.le_antisymm hlength (List.length_pos_of_mem hmem))
    rw [hposts, List.mem_singleton] at hmem
    exact .post horigin (hmem ▸ hposts)

/-- The refresh after the write loses the device, and the write is answered all the same. -/
theorem write_acknowledged_after_loss :
    ∃ w x call r,
      run (StackWorld.step permissive {}) (.init (.init 0 0 0) {}) lostRefreshRun = some w ∧
      w.writes[0]? = some x ∧ x.call = some (call, 0) ∧ x.result = some (.ok r) ∧
      r.response = bytesOf "\x7b\x7d" ∧
      Acknowledged permissive {} (.init (.init 0 0 0) {}) lostRefreshRun w.handed call 0 r := by
  have hfacts : (run (StackWorld.step permissive {}) (.init (.init 0 0 0) {}) lostRefreshRun).map
      (fun w => w.writes[0]?.map fun x =>
        (x.call.map Prod.snd, x.result.map fun r => r.toOption.map (·.response))) =
        some (some (some 0, some (some (bytesOf "\x7b\x7d")))) := by decide +kernel
  obtain ⟨w, hw, hfacts⟩ := Option.map_eq_some_iff.mp hfacts
  obtain ⟨x, hx, hfacts⟩ := Option.map_eq_some_iff.mp hfacts
  obtain ⟨hcall, hresult⟩ := Prod.mk.inj hfacts
  obtain ⟨⟨call, i⟩, hcall, rfl⟩ := Option.map_eq_some_iff.mp hcall
  obtain ⟨result, hresult, hok⟩ := Option.map_eq_some_iff.mp hresult
  cases result with
  | error exc => cases hok
  | ok r =>
    exact ⟨w, x, call, r, hw, hx, hcall, hresult, Option.some.inj hok,
      write_acknowledged hw hx hcall hresult⟩

end Stack

end MotuProxy
