import MotuProxy.Model.Stack
import MotuProxy.Verify.HostSequence
import MotuProxy.Verify.Lifecycle
import MotuProxy.Verify.OwnResponse
import MotuProxy.Verify.RequestFormat
import MotuProxy.Verify.WriteGate

/-! # A write is not replayed

No layer of the proxy sends a write twice. A session hands at most one request frame to the
transport in an operation (`exchange_posted`), a foreground operation of the coordinator runs the
operation of its own request once (`IoStep.progress`), a call of the managed datastore passes the
opener and the operation at most once (`CoreStep.rank_lt`), and a thread of the HTTP server makes at
most one call of `run_post`. `SentOnce` is the invariant of the layers together.
-/

namespace MotuProxy

open Py Protocol Responses

/-! ## The frames of an operation -/

namespace Datastore

open MotuUsbDatastore

/-- The frame is a request with the method `POST`. -/
def isPostFrame (frame : Bytes) : Bool := (decodeFrame frame).any (·.method = ascii "POST")

theorem isPostFrame_post (h : buildPostFrame seq ms path body header client = .ok frame) :
    isPostFrame frame = true := by
  obtain ⟨r, hwire, rfl, hfits⟩ := post_layout h
  simp only [RequestArgs.wire, bind, Option.bind_eq_some_iff, pure, Option.some.injEq] at hwire
  obtain ⟨_, -, _, -, _, -, rfl⟩ := hwire
  simp [isPostFrame, hfits.decodeFrame_frame]

theorem isPostFrame_get (h : buildGetFrame seq ms path etag header client fields = .ok frame) :
    isPostFrame frame = false := by
  obtain ⟨r, hwire, rfl, hfits⟩ := get_layout h
  simp only [RequestArgs.wire, bind, Option.bind_eq_some_iff, pure, Option.some.injEq] at hwire
  obtain ⟨_, -, _, -, _, -, _, -, rfl⟩ := hwire
  have hne : ascii "GET" ≠ ascii "POST" := by decide
  simp [isPostFrame, hfits.decodeFrame_frame, hne]

theorem isPostFrame_ack : isPostFrame (buildAck seq) = false := by
  have hdecode : decodeFrame (buildAck seq) = none := rfl
  simp [isPostFrame, hdecode]

/-- At most one of the frames handed to the transport is a write, and it is one that `build`
builds. -/
structure Posted (build : Nat → Nat → Except Exn Bytes) (s : MotuUsbDatastore) : Prop where
  once : (s.wire.handed.filter isPostFrame).length ≤ 1
  built : ∀ frame ∈ s.wire.handed, isPostFrame frame = true → ∃ seq ms, build seq ms = .ok frame

theorem Posted.collectorInvariant : CollectorInvariant (Posted build) where
  reads _ _ h := ⟨h.once, h.built⟩
  cancels _ _ h := ⟨h.once, h.built⟩
  clock _ _ _ h := ⟨h.once, h.built⟩
  results _ _ _ _ h := ⟨h.once, h.built⟩
  acknowledge := by
    have htake : Triple (Posted build) MotuUsbDatastore.nextHostSeq (fun _ => Posted build)
        (fun _ => Posted build) := fun _ h => ⟨h.once, h.built⟩
    refine Triple.bind htake fun seq => writeFrame_handed fun s w h hw => ⟨?_, ?_⟩
    · simpa [hw, isPostFrame_ack] using h.once
    · intro frame hframe hpost
      rcases List.mem_append.mp (hw ▸ hframe) with hmem | hmem
      · exact h.built frame hmem hpost
      · rw [List.mem_singleton.mp hmem, isPostFrame_ack] at hpost
        cases hpost

/-- An operation on a session hands at most one write to the transport. -/
theorem exchange_posted {build : Nat → Nat → Except Exn Bytes} {collect : Nat → CollectArgs} :
    Leads (fun s => s.wire.handed = []) (exchange build collect) (Posted build) := by
  have hnone {s : MotuUsbDatastore} (h : s.wire.handed = []) : Posted build s :=
    ⟨by simp [h], by simp [h]⟩
  have htake : Triple (fun s => s.wire.handed = []) MotuUsbDatastore.nextHostSeq
      (fun _ s => s.wire.handed = []) (fun _ => Posted build) := fun _ hs => hs
  refine Triple.bind (Q := fun _ s => s.wire.handed = []) (Triple.get fun _ hs => hs) fun s₀ =>
    Triple.bind htake fun seq => ?_
  cases hb : build seq s₀.currentMessageSeq with
  | error exc =>
    exact Triple.bind (Triple.throw (Q := fun _ _ => False) fun _ => hnone) fun _ _ hs => hs.elim
  | ok frame =>
    refine Triple.bind (Q := fun f s => s.wire.handed = [] ∧ f = frame)
      (Triple.pure fun _ hs => ⟨hs, rfl⟩) fun f => Triple.assume fun hf => ?_
    subst hf
    have hwrite : Triple (fun s => s.wire.handed = []) (writeFrame f) (fun _ => Posted build)
        (fun _ => Posted build) := by
      refine writeFrame_handed fun s w hs hw => ⟨?_, fun frame hframe _ => ?_⟩
      · rw [hw, hs]
        exact List.length_filter_le _ _
      · rw [hw, hs, List.nil_append, List.mem_singleton] at hframe
        exact ⟨seq, _, hframe ▸ hb⟩
    exact Triple.bind hwrite fun _ =>
      Triple.bind (Triple.modify fun _ h => ⟨h.once, h.built⟩) fun _ =>
      Posted.collectorInvariant.collectResponse_preserves

theorem get_posted (g : GetArgs) : Leads (fun s => s.wire.handed = []) (MotuUsbDatastore.get g)
    (Posted fun seq ms => buildGetFrame seq ms g.path g.etag (py "NREK") g.client g.queryFields) :=
  exchange_posted

theorem post_posted (p : PostArgs) : Leads (fun s => s.wire.handed = []) (MotuUsbDatastore.post p)
    (Posted fun seq ms => buildPostFrame seq ms p.path p.jsonBody (py "NREK") p.client) :=
  exchange_posted

/-- The method `get` sends no write. -/
theorem get_posts_nothing (h : Posted (fun seq ms =>
      buildGetFrame seq ms path etag header client fields) s) :
    s.wire.handed.filter isPostFrame = [] := by
  refine List.filter_eq_nil_iff.mpr fun frame hframe hpost => ?_
  obtain ⟨seq, ms, hb⟩ := h.built frame hframe hpost
  rw [isPostFrame_get hb] at hpost
  cases hpost

end Datastore

/-! ## A foreground operation -/

namespace Coordinator

/-- The call of the managed datastore for the operation's own request has begun. -/
def IoPc.begun : IoPc → Bool
  | .start | .acquiring _ | .owning => false
  | _ => true

/-- It has returned or raised. -/
def IoPc.ended : IoPc → Bool
  | .start | .acquiring _ | .owning | .inCall => false
  | _ => true

theorem entering_not_begun {pc : IoPc} (h : pc.entering s = some (s', deadline)) :
    pc.begun = false ∧ pc.ended = false ∧ pc ≠ .owning ∧ pc ≠ .inCall := by
  cases pc with
  | start | acquiring => exact ⟨rfl, rfl, nofun, nofun⟩
  | _ => cases h

/-- A foreground operation goes forward: it calls the managed datastore for its request once. -/
structure Forward (c c' : IoCall) : Prop where
  job : c'.job = c.job
  begun : c.pc.begun = true → c'.pc.begun = true
  ended : c.pc.ended = true → c'.pc.ended = true
  owning : c.pc = .owning → c'.pc.begun = true
  inCall : c.pc = .inCall → c'.pc.ended = true

theorem IoStep.forward {e e' : Env} {c c' : IoCall} (h : IoStep cfg e c choice e' c') :
    Forward c c' := by
  cases h with
  | acquire hpc | exceed hpc | wait hpc =>
    obtain ⟨hb, he, ho, hi⟩ := entering_not_begun hpc
    exact ⟨rfl, fun h => by simp [hb] at h, fun h => by simp [he] at h, fun h => absurd h ho,
      fun h => absurd h hi⟩
  | beginOk hpc => exact ⟨rfl, fun _ => rfl, fun h => by simp [hpc, IoPc.ended] at h, fun _ => rfl,
      fun h => by simp [hpc] at h⟩
  | _ => exact ⟨rfl, fun _ => rfl, fun _ => rfl, fun _ => rfl, fun _ => rfl⟩

/-- Once it has the response, an operation does not raise any more. -/
def IoCall.Answered (c : IoCall) : Prop :=
  ∀ r, c.received = some r → c.pc = .responded r ∨ c.pc.payload?.isSome = true

theorem IoStep.answered {e e' : Env} {c c' : IoCall} (h : IoStep cfg e c choice e' c')
    (hc : c.Answered) : c'.Answered := by
  intro r hr
  cases h with
  | acquire hpc | exceed hpc | wait hpc =>
    cases hcpc : c.pc with
    | start | acquiring => rcases hc r hr with h | h <;> simp [hcpc, IoPc.payload?] at h
    | _ => rw [hcpc] at hpc; cases hpc
  | beginOk hpc | beginFail hpc | raise hpc =>
    rcases hc r hr with h | h <;> simp [hpc, IoPc.payload?] at h
  | respond => cases hr; exact .inl rfl
  | release hpc =>
    rename_i result
    cases result with
    | ok p => exact .inr rfl
    | error exc => rcases hc r hr with h | h <;> simp [hpc, IoPc.payload?] at h
  | _ => exact .inr rfl

theorem IoStep.not_done {e e' : Env} {c c' : IoCall} (h : IoStep cfg e c choice e' c') :
    c.pc ≠ .done result := by
  intro hdone
  cases h with
  | acquire hpc | exceed hpc | wait hpc => rw [hdone] at hpc; cases hpc
  | beginOk hpc | beginFail hpc | respond hpc | raise hpc | payload hpc | publishRead hpc
  | refreshBegin hpc | refreshBeginFail hpc | refreshRespond hpc | refreshRaise hpc
  | refreshPayload hpc | publishRefresh hpc | release hpc => rw [hdone] at hpc; cases hpc

/-- What a step does to a foreground operation of a client thread. -/
theorem WorldStep.io {w w' : World} {i : Nat} {call : IoCall} (h : WorldStep cfg w a w')
    (hi : w.clients[i]? = some (.io call)) : ∃ call', w'.clients[i]? = some (.io call') ∧
      ((∀ choice, a ≠ .client i choice) ∧ call' = call ∨
        ∃ choice env', a = .client i choice ∧ IoStep cfg w.env call choice env' call') := by
  obtain ⟨c', hc', ⟨hno, rfl⟩ | ⟨choice, env', ha, hstep⟩⟩ := h.client_after hi
  · exact ⟨call, hc', .inl ⟨hno, rfl⟩⟩
  · obtain ⟨⟨e₁, call₁⟩, hcall, hr⟩ := Option.map_eq_some_iff.mp hstep
    cases hr
    exact ⟨call₁, hc', .inr ⟨choice, _, ha, IoCall.step_cases hcall⟩⟩

/-- A foreground operation of a client thread was there before the step, or it is new. -/
theorem WorldStep.io_of {w w' : World} {i : Nat} {call' : IoCall} (h : WorldStep cfg w a w')
    (hi : w'.clients[i]? = some (.io call')) :
    (∃ call, w.clients[i]? = some (.io call)) ∨
      i = w.clients.length ∧ call'.pc = .start ∧ call'.received = none := by
  rcases h.client_before hi with ⟨c, hc⟩ | ⟨hnew, ⟨_, _, _, _, hget⟩ | ⟨_, _, _, hpost⟩⟩
  · cases c with
    | io call => exact .inl ⟨call, hc⟩
    | wait call =>
      -- a waiter stays one
      obtain ⟨c', hc', ⟨-, rfl⟩ | ⟨choice, env', -, hstep⟩⟩ := h.client_after hc
      · cases hi.symm.trans hc'
      · obtain ⟨_, -, hr⟩ := Option.map_eq_some_iff.mp hstep
        cases hr
        cases hi.symm.trans hc'
  · exact .inr ⟨hnew, get_fresh call' (by rw [← hget]; rfl)⟩
  · cases hpost
    exact .inr ⟨hnew, rfl, rfl⟩

/-- The inner operations of a waiter are reads. -/
theorem WaitCall.step_reads {e e' : Env} {c c' : WaitCall} (h : c.step cfg e choice = some (e', c'))
    (hc : ∀ call, Client.call? (.wait c) = some call → ∃ a, call.job = .read a)
    (hcall : Client.call? (.wait c') = some call) : ∃ a, call.job = .read a := by
  rcases WaitCall.step_cases h with ⟨call₀, call₁, h₀, h₁, hstep⟩ | ⟨-, -, hfresh⟩
  · cases h₁.symm.trans hcall
    rw [hstep.forward.job]
    exact hc call₀ h₀
  · obtain ⟨a, ha, -⟩ := (hfresh call hcall).job
    exact ⟨a, ha⟩

end Coordinator

/-! ## The moves of the layers -/

namespace Stack

open Datastore Coordinator Dispatch

variable {σ : Type} {d : DatastoreDispatcher σ} {cfg : Config} {w w' : StackWorld}

inductive StackStep (d : DatastoreDispatcher σ) (cfg : Config) (w : StackWorld) :
    Action → StackWorld → Prop where
  | step (h : Coordinator.step cfg w.world a = some world) :
    StackStep d cfg w (.step a) { w with world }
  | begin (hb : w.begins caller = some refresh)
      (h : Coordinator.step cfg w.world (caller.action choice) = some world)
      (hattempts : attempts = [] ∨ attempts = [⟨caller, refresh⟩]) :
    StackStep d cfg w (.begin caller opened later)
      { w with world, session, attempts := w.attempts ++ attempts }
  | operate (hop : w.operation cfg caller = some op)
      (hr : w.operate op wire exit = (choice, session))
      (h : Coordinator.step cfg w.world (caller.action choice) = some world) :
    StackStep d cfg w (.operate caller wire exit) { w with
      world
      session
      handed := w.handed ++
        session.wire.handed.map (⟨caller, w.world.env.managed.sessionGeneration, ·⟩) }
  | write : StackStep d cfg w (.write a) { w with writes := w.writes ++ [{ args := a }] }
  | refuse {h : Nat} (hx : w.writes[h]? = some x) (hcall : x.call = none)
      (hresult : x.result = none) :
    StackStep d cfg w (.http h)
      { w with writes := w.writes.set h { x with result := some (.error exc) } }
  | call {h : Nat} (hx : w.writes[h]? = some x) (hcall : x.call = none) (hresult : x.result = none)
      (hp : d.preparedCall x.args = .ok call)
      (h' : Coordinator.step cfg w.world (.post call.path call.body (call.client.map .str)) =
        some world) :
    StackStep d cfg w (.http h) { w with
      world, writes := w.writes.set h { x with call := some (call, w.world.clients.length) } }
  | answer {h : Nat} (hx : w.writes[h]? = some x) (hcall : x.call = some (call, i))
      (hresult : x.result = none) (ho : w.outcome i = some result) :
    StackStep d cfg w (.http h)
      { w with writes := w.writes.set h { x with result := some (result.map (answer call)) } }

theorem StackWorld.step_cases (h : w.step d cfg a = some w') : StackStep d cfg w a w' := by
  cases a with
  | step a =>
    simp only [StackWorld.step] at h
    split at h
    · simp only [Option.bind_eq_bind, Option.bind_eq_some_iff] at h
      obtain ⟨world, hstep, h⟩ := h
      cases h
      exact .step hstep
    · cases h
  | begin caller opened later =>
    simp only [StackWorld.step, Option.bind_eq_bind, Option.bind_eq_some_iff] at h
    obtain ⟨refresh, hb, world, hstep, h⟩ := h
    split at h <;> cases h
    · exact .begin hb hstep (.inr rfl)
    · have hsame : w.attempts = w.attempts ++ [] := (List.append_nil _).symm
      rw [hsame]
      exact .begin hb hstep (.inl rfl)
  | operate caller wire exit =>
    simp only [StackWorld.step, Option.bind_eq_bind, Option.bind_eq_some_iff] at h
    obtain ⟨op, hop, world, hstep, h⟩ := h
    cases h
    exact .operate hop rfl hstep
  | write a =>
    simp only [StackWorld.step] at h
    split at h <;> cases h
    exact .write
  | http i =>
    simp only [StackWorld.step, Option.bind_eq_bind, Option.bind_eq_some_iff] at h
    obtain ⟨x, hx, h⟩ := h
    unfold StackWorld.httpStep at h
    split at h
    · cases h
    · rename_i hresult hcall
      split at h
      · cases h
        exact .refuse hx hcall hresult
      · rename_i call hp
        simp only [Option.bind_eq_bind, Option.bind_eq_some_iff] at h
        obtain ⟨world, hstep, h⟩ := h
        cases h
        exact .call hx hcall hresult hp hstep
    · rename_i call i hresult hcall
      simp only [Option.bind_eq_bind, Option.bind_eq_some_iff] at h
      obtain ⟨result, ho, h⟩ := h
      cases h
      exact .answer hx hcall hresult ho

/-! ## The frames and the attempts of a write -/

/-- The writes among the frames that the client thread `i` has handed to `bulk_write`. -/
def postsBy (i : Nat) (frames : List Handed) : List Handed :=
  frames.filter fun e => e.caller = .client i ∧ isPostFrame e.frame

/-- How often the client thread `i` has called the opener, its refresh after a write apart. -/
def attemptsBy (i : Nat) (attempts : List OpenAttempt) : Nat :=
  attempts.countP (· = ⟨.client i, false⟩)

theorem postsBy_append : postsBy i (frames ++ frames') = postsBy i frames ++ postsBy i frames' :=
  List.filter_append ..

theorem attemptsBy_append :
    attemptsBy i (attempts ++ attempts') = attemptsBy i attempts + attemptsBy i attempts' :=
  List.countP_append

theorem mem_postsBy : e ∈ postsBy i frames ↔
    e ∈ frames ∧ e.caller = .client i ∧ isPostFrame e.frame = true := by
  simp [postsBy]

/-- The frames that one thread hands on. -/
theorem postsBy_map {caller : Caller} {handed : List Bytes} :
    (postsBy i (handed.map (⟨caller, generation, ·⟩))).length =
      if caller = .client i then (handed.filter isPostFrame).length else 0 := by
  unfold postsBy
  rw [List.filter_map, List.length_map]
  split
  · rename_i h
    congr 1
    refine List.filter_congr fun frame _ => ?_
    simp [h]
  · rename_i h
    rw [List.length_eq_zero_iff, List.filter_eq_nil_iff]
    intro frame _
    simp [h]

/-- A frame that is the one of a write of its thread. -/
def BuiltBy (w : World) (e : Handed) : Prop :=
  ∃ (i : Nat) (call : IoCall) (a : PostArgs), e.caller = .client i ∧
    w.clients[i]? = some (.io call) ∧ call.job = .post a ∧
    ∃ seq ms, buildPostFrame seq ms a.path a.jsonBody (py "NREK") a.client = .ok e.frame

theorem BuiltBy.step {w w' : World} (h : BuiltBy w e) (hstep : WorldStep cfg w b w') :
    BuiltBy w' e := by
  obtain ⟨i, call, a, hcaller, hcall, hjob, hframe⟩ := h
  obtain ⟨call', hcall', hmove⟩ := hstep.io hcall
  refine ⟨i, call', a, hcaller, hcall', ?_, hframe⟩
  rcases hmove with ⟨-, rfl⟩ | ⟨_, _, -, hio⟩
  · exact hjob
  · rw [hio.forward.job]
    exact hjob

/-- A thread that is not there has handed on no write. -/
theorem postsBy_fresh {w : World} {frames : List Handed}
    (h : ∀ e ∈ frames, isPostFrame e.frame = true → BuiltBy w e) :
    postsBy w.clients.length frames = [] := by
  refine List.eq_nil_iff_forall_not_mem.mpr fun e he => ?_
  obtain ⟨hmem, hcaller, hpost⟩ := mem_postsBy.mp he
  obtain ⟨j, call, _, hj, hcall, -⟩ := h e hmem hpost
  cases hcaller.symm.trans hj
  exact absurd (List.getElem?_eq_some_iff.mp hcall).1 (Nat.lt_irrefl _)

/-- A thread that is not there has not called the opener. -/
theorem attemptsBy_fresh {n : Nat} {tries : List OpenAttempt}
    (h : ∀ t ∈ tries, ∀ i, t.caller = .client i → i < n) : attemptsBy n tries = 0 := by
  refine List.countP_eq_zero.mpr fun t ht htry => ?_
  simp only [decide_eq_true_eq] at htry
  exact absurd (h t ht _ (by rw [htry])) (Nat.lt_irrefl _)

/-- What the threads have done for their writes so far. -/
structure SentOnce (w : StackWorld) : Prop where
  posts : ∀ (i : Nat) call a, w.world.clients[i]? = some (.io call) → call.job = .post a →
    (postsBy i w.handed).length ≤ call.pc.ended.toNat
  attempts : ∀ (i : Nat) call a, w.world.clients[i]? = some (.io call) → call.job = .post a →
    attemptsBy i w.attempts ≤ call.pc.begun.toNat
  built : ∀ e ∈ w.handed, isPostFrame e.frame = true → BuiltBy w.world e
  known : ∀ t ∈ w.attempts, ∀ i, t.caller = .client i → i < w.world.clients.length
  reads : ∀ (i : Nat) c call, w.world.clients[i]? = some (.wait c) →
    Client.call? (.wait c) = some call → ∃ a, call.job = .read a

theorem WorldStep.length_le {w w' : World} (h : WorldStep cfg w a w') :
    w.clients.length ≤ w'.clients.length := by
  cases h <;> simp

theorem WorldStep.reads {w w' : World} (h : WorldStep cfg w a w')
    (hw : ∀ (i : Nat) c call, w.clients[i]? = some (.wait c) → Client.call? (.wait c) = some call →
      ∃ a, call.job = .read a) (i : Nat) (c : WaitCall) (call : IoCall)
    (hi : w'.clients[i]? = some (.wait c)) (hcall : Client.call? (.wait c) = some call) :
    ∃ a, call.job = .read a := by
  rcases h.client_before hi with ⟨c₀, hc₀⟩ | ⟨-, ⟨_, _, _, _, hget⟩ | ⟨_, _, _, hpost⟩⟩
  · obtain ⟨c', hc', ⟨-, rfl⟩ | ⟨choice, env', -, hstep⟩⟩ := h.client_after hc₀
    · cases hi.symm.trans hc'
      exact hw i c call hc₀ hcall
    · cases hi.symm.trans hc'
      cases c₀ with
      | io call =>
        obtain ⟨_, -, hr⟩ := Option.map_eq_some_iff.mp hstep
        cases hr
      | wait c₀ =>
        obtain ⟨⟨e₁, c₁⟩, hwait, hr⟩ := Option.map_eq_some_iff.mp hstep
        cases hr
        exact WaitCall.step_reads hwait (fun call => hw i c₀ call hc₀) hcall
  · unfold Coordinator.get at hget
    split at hget
    · split at hget
      · cases hget
      · cases hget
        cases hcall
    · cases hget
  · cases hpost

/-- A thread was there before and went forward, or it is new. -/
theorem WorldStep.io_before {w w' : World} {i : Nat} (h : WorldStep cfg w b w')
    (hi : w'.clients[i]? = some (.io call')) :
    (∃ call, w.clients[i]? = some (.io call) ∧ call'.job = call.job ∧
      ((∀ choice, b ≠ .client i choice) ∧ call' = call ∨ Forward call call')) ∨
      i = w.clients.length := by
  rcases h.io_of hi with ⟨call, hcall⟩ | ⟨hnew, -⟩
  · obtain ⟨call₁, h₁, hmove⟩ := h.io hcall
    cases hi.symm.trans h₁
    rcases hmove with ⟨hno, rfl⟩ | ⟨choice, env', -, hio⟩
    · exact .inl ⟨call', hcall, rfl, .inl ⟨hno, rfl⟩⟩
    · exact .inl ⟨call, hcall, hio.forward.job, .inr hio.forward⟩
  · exact .inr hnew

/-- What a flag bounds, and is added to only when the flag is set. -/
theorem add_le_toNat {n m : Nat} {b b' : Bool} (h : n ≤ b.toNat) (hmono : b = true → b' = true)
    (hadd : m = 0 ∨ b = false ∧ b' = true ∧ m ≤ 1) : n + m ≤ b'.toNat := by
  rcases hadd with rfl | ⟨rfl, rfl, hm⟩
  · cases b with
    | false => exact Nat.le_trans h (Nat.zero_le _)
    | true => rw [hmono rfl]; exact h
  · rw [Nat.le_zero.mp h, Nat.zero_add]
    exact hm

/-- What a flag of a thread bounds, and is added to only in the step of the thread that sets it. -/
theorem bounded_move {b : Coordinator.Action} {flag : IoPc → Bool} {pc : IoPc} {i n m : Nat}
    {call call' : IoCall}
    (h : n ≤ (flag call.pc).toNat) (hunset : flag pc = false)
    (hmove : (∀ choice, b ≠ .client i choice) ∧ call' = call ∨ Forward call call')
    (hmono : Forward call call' → flag call.pc = true → flag call'.pc = true)
    (hset : Forward call call' → call.pc = pc → flag call'.pc = true)
    (hadd : m = 0 ∨ call.pc = pc ∧ (∃ choice, b = .client i choice) ∧ m ≤ 1) :
    n + m ≤ (flag call'.pc).toNat := by
  refine add_le_toNat h ?_ (hadd.imp_right fun ⟨hpc, hb, hone⟩ => ?_)
  · rcases hmove with ⟨-, rfl⟩ | hforward
    · exact id
    · exact hmono hforward
  · rcases hmove with ⟨hno, -⟩ | hforward
    · exact absurd hb.choose_spec (hno _)
    · exact ⟨by rw [hpc]; exact hunset, hset hforward hpc, hone⟩

/-- A thread adds to the frames only while it is in the operation of its write, and to the attempts
only when it begins it. -/
theorem SentOnce.move {frames : List Handed} {tries : List OpenAttempt} (hw : SentOnce w)
    (hstep : WorldStep cfg w.world b w'.world)
    (hhanded : w'.handed = w.handed ++ frames) (hattempts : w'.attempts = w.attempts ++ tries)
    (hframes : ∀ (i : Nat) call a, w.world.clients[i]? = some (.io call) → call.job = .post a →
      (postsBy i frames).length = 0 ∨
        call.pc = .inCall ∧ (∃ choice, b = .client i choice) ∧ (postsBy i frames).length ≤ 1)
    (htries : ∀ (i : Nat) call a, w.world.clients[i]? = some (.io call) → call.job = .post a →
      attemptsBy i tries = 0 ∨
        call.pc = .owning ∧ (∃ choice, b = .client i choice) ∧ attemptsBy i tries ≤ 1)
    (hbuilt : ∀ e ∈ frames, isPostFrame e.frame = true → BuiltBy w.world e)
    (hknown : ∀ t ∈ tries, ∀ i, t.caller = .client i → i < w.world.clients.length) :
    SentOnce w' := by
  have hbuilt' : ∀ e ∈ w'.handed, isPostFrame e.frame = true → BuiltBy w.world e := by
    intro e he
    rcases List.mem_append.mp (hhanded ▸ he) with he | he
    · exact hw.built e he
    · exact hbuilt e he
  have hknown' : ∀ t ∈ w'.attempts, ∀ i, t.caller = .client i → i < w.world.clients.length := by
    intro t ht
    rcases List.mem_append.mp (hattempts ▸ ht) with ht | ht
    · exact hw.known t ht
    · exact hknown t ht
  refine ⟨fun i call' a hi hjob => ?_, fun i call' a hi hjob => ?_,
    fun e he hpost => (hbuilt' e he hpost).step hstep,
    fun t ht i hi => Nat.lt_of_lt_of_le (hknown' t ht i hi) (WorldStep.length_le hstep),
    WorldStep.reads hstep hw.reads⟩
  · rcases WorldStep.io_before hstep hi with ⟨call, hcall, hsame, hmove⟩ | rfl
    · rw [hhanded, postsBy_append, List.length_append]
      exact bounded_move (hw.posts i call a hcall (hsame ▸ hjob)) rfl hmove Forward.ended
        Forward.inCall (hframes i call a hcall (hsame ▸ hjob))
    · rw [postsBy_fresh hbuilt']
      exact Nat.zero_le _
  · rcases WorldStep.io_before hstep hi with ⟨call, hcall, hsame, hmove⟩ | rfl
    · rw [hattempts, attemptsBy_append]
      exact bounded_move (hw.attempts i call a hcall (hsame ▸ hjob)) rfl hmove Forward.begun
        Forward.owning (htries i call a hcall (hsame ▸ hjob))
    · rw [attemptsBy_fresh hknown']
      exact Nat.zero_le _

/-! ## The operations of the threads -/

theorem operation_eq_post {call : IoCall}
    (h : IoCall.operation call = some (.post path body client)) :
    call.pc = .inCall ∧ call.job = .post ⟨path, body, client⟩ := by
  unfold IoCall.operation at h
  split at h
  · rename_i hpc
    cases hjob : call.job with
    | read a =>
      simp only [hjob, Job.request, ReadArgs.request, Option.some.injEq] at h
      split at h <;> cases h
    | post a =>
      rw [hjob] at h
      cases h
      exact ⟨hpc, rfl⟩
  · cases h
  · cases h

/-- What an operation leads to from its start, on a transport that has been handed nothing. -/
theorem operate_leads {P Q : MotuUsbDatastore → Prop} {op : Proc Bytes} (h : Leads P op Q)
    (hP : P { w.session with wire := { wire with handed := [], delivered := [] } })
    (hr : w.operate op wire exit = (choice, session)) : Q session := by
  unfold StackWorld.operate at hr
  have hQ := h.finalState hP
  split at hr <;> rename_i hx <;> rw [hx] at hQ <;> cases hr <;> exact hQ

/-- Only the operation of a write of the coordinator sends a write, and it sends one. -/
theorem operation_posts {caller : Caller} {op : Proc Bytes} (hw : SentOnce w)
    (hop : w.operation cfg caller = some op) (hr : w.operate op wire exit = (choice, session)) :
    session.wire.handed.filter isPostFrame = [] ∨
    ∃ (i : Nat) (call : IoCall) (a : PostArgs), caller = .client i ∧
      w.world.clients[i]? = some (.io call) ∧ call.job = .post a ∧ call.pc = .inCall ∧
      (session.wire.handed.filter isPostFrame).length ≤ 1 ∧
      ∀ frame ∈ session.wire.handed, isPostFrame frame = true →
        ∃ seq ms, buildPostFrame seq ms a.path a.jsonBody (py "NREK") a.client = .ok frame := by
  cases caller with
  | poller =>
    unfold StackWorld.operation at hop
    simp only at hop
    split at hop <;> cases hop
    exact .inl (get_posts_nothing (operate_leads (get_posted _) rfl hr))
  | client i =>
    simp only [StackWorld.operation, Option.bind_eq_bind, Option.bind_eq_some_iff] at hop
    obtain ⟨c, hc, call, hcall, request, hrequest, hop⟩ := hop
    cases hop
    cases request with
    | get path etag client fields timeoutMs =>
      exact .inl (get_posts_nothing (operate_leads (get_posted _) rfl hr))
    | post path body client =>
      -- only the thread's own request can be a write
      have hown : call.pc = .inCall ∧ call.job = .post ⟨path, body, client⟩ :=
        operation_eq_post hrequest
      have hposted := operate_leads (post_posted _) rfl hr
      cases c with
      | io call' =>
        cases hcall
        exact .inr ⟨i, call, _, rfl, hc, hown.2, hown.1, hposted.once, hposted.built⟩
      | wait c =>
        obtain ⟨a, ha⟩ := hw.reads i c call hc hcall
        cases hown.2.symm.trans ha

theorem begins_eq_false {i : Nat} {call : IoCall} (hi : w.world.clients[i]? = some (.io call))
    (h : w.begins (.client i) = some false) : call.pc = .owning := by
  simp only [StackWorld.begins, hi, Option.bind_eq_bind, Option.bind_some, Client.call?] at h
  unfold IoCall.begins at h
  split at h
  · assumption
  · cases h
  · cases h

theorem lt_of_begins {i : Nat} (h : w.begins (.client i) = some refresh) :
    i < w.world.clients.length := by
  simp only [StackWorld.begins, Option.bind_eq_bind, Option.bind_eq_some_iff] at h
  obtain ⟨c, hc, -⟩ := h
  exact (List.getElem?_eq_some_iff.mp hc).1

/-- A step of the coordinator outside the datastore operations. -/
theorem SentOnce.plain (hw : SentOnce w) (h : WorldStep cfg w.world b w'.world)
    (hhanded : w'.handed = w.handed) (hattempts : w'.attempts = w.attempts) : SentOnce w' :=
  hw.move h (by rw [hhanded, List.append_nil]) (by rw [hattempts, List.append_nil])
    (fun _ _ _ _ _ => .inl rfl) (fun _ _ _ _ _ => .inl rfl) (fun _ he => absurd he List.not_mem_nil)
    fun _ ht => absurd ht List.not_mem_nil

theorem SentOnce.step (hw : SentOnce w) (hstep : w.step d cfg a = some w') :
    SentOnce w' := by
  cases StackWorld.step_cases hstep with
  | step hworld => exact hw.plain (World.step_cases hworld) rfl rfl
  | call _ _ _ _ hworld => exact hw.plain (World.step_cases hworld) rfl rfl
  | write => exact ⟨hw.posts, hw.attempts, hw.built, hw.known, hw.reads⟩
  | refuse => exact ⟨hw.posts, hw.attempts, hw.built, hw.known, hw.reads⟩
  | answer => exact ⟨hw.posts, hw.attempts, hw.built, hw.known, hw.reads⟩
  | @begin caller refresh choice world attempts opened later session hb hworld hattempts =>
    refine hw.move (World.step_cases hworld) (List.append_nil _).symm rfl
      (fun _ _ _ _ _ => .inl rfl) (fun i call a hi hjob => ?_)
      (fun _ he => absurd he List.not_mem_nil) fun t ht i hcaller => ?_
    · rcases hattempts with rfl | rfl
      · exact .inl rfl
      · by_cases heq : (⟨caller, refresh⟩ : OpenAttempt) = ⟨.client i, false⟩
        · cases heq
          exact .inr ⟨begins_eq_false hi hb, ⟨choice, rfl⟩, List.countP_le_length⟩
        · exact .inl (by simp [attemptsBy, heq])
    · rcases hattempts with rfl | rfl
      · cases ht
      · cases List.mem_singleton.mp ht
        cases hcaller
        exact lt_of_begins hb
  | @operate caller op wire exit choice session world hop hr hworld =>
    have hposts := operation_posts hw hop hr
    refine hw.move (World.step_cases hworld) rfl (List.append_nil _).symm
      (fun i call a hi hjob => ?_)
      (fun _ _ _ _ _ => .inl rfl) (fun e he hpost => ?_) fun _ ht => absurd ht List.not_mem_nil
    · rw [postsBy_map]
      split
      · rename_i hcaller
        subst hcaller
        rcases hposts with hnone | ⟨j, call', a', hj, hcall', -, hpc, hone, -⟩
        · exact .inl (by rw [hnone]; rfl)
        · cases hj
          cases hi.symm.trans hcall'
          exact .inr ⟨hpc, ⟨choice, rfl⟩, hone⟩
      · exact .inl rfl
    · obtain ⟨frame, hframe, rfl⟩ := List.mem_map.mp he
      rcases hposts with hnone | ⟨i, call, a, rfl, hcall, hjob, -, -, hbuilt⟩
      · exact absurd hpost (List.filter_eq_nil_iff.mp hnone frame hframe)
      · exact ⟨i, call, a, rfl, hcall, hjob, hbuilt frame hframe hpost⟩

theorem SentOnce.init (managed : ManagedDatastore) (session : MotuUsbDatastore) :
    SentOnce (.init managed session) := by
  refine ⟨fun i call a hi => ?_, fun i call a hi => ?_, fun e he => ?_, fun t ht => ?_,
    fun i c call hi => ?_⟩
  · simp [StackWorld.init, World.init] at hi
  · simp [StackWorld.init, World.init] at hi
  · cases he
  · cases ht
  · simp [StackWorld.init, World.init] at hi

/-! ## The threads of the HTTP server -/

/-- A call of `run_post` is a foreground operation of its own, and its thread returns what that
comes to. -/
structure Traced (w : StackWorld) : Prop where
  call : ∀ (h : Nat) x call i, w.writes[h]? = some x → x.call = some (call, i) →
    ∃ c, w.world.clients[i]? = some (.io c) ∧
      c.job = .post ⟨call.path, call.body, call.client.map .str⟩ ∧
      ∀ r, x.result = some r → ∃ result, c.pc = .done result ∧ r = result.map (answer call)
  unique : ∀ (h h' : Nat) x x' call call' i, w.writes[h]? = some x → w.writes[h']? = some x' →
    x.call = some (call, i) → x'.call = some (call', i) → h = h'

theorem Traced.world (hw : Traced w) (h : WorldStep cfg w.world b w'.world)
    (hwrites : w'.writes = w.writes) : Traced w' := by
  refine ⟨fun j x call i hx hcall => ?_, by rw [hwrites]; exact hw.unique⟩
  rw [hwrites] at hx
  obtain ⟨c, hc, hjob, hdone⟩ := hw.call j x call i hx hcall
  obtain ⟨c', hc', hmove⟩ := h.io hc
  rcases hmove with ⟨-, rfl⟩ | ⟨_, _, -, hio⟩
  · exact ⟨c', hc', hjob, hdone⟩
  · refine ⟨c', hc', hio.forward.job.trans hjob, fun r hr => ?_⟩
    -- a thread that is done does not move
    obtain ⟨result, hpc, -⟩ := hdone r hr
    exact absurd hpc hio.not_done

/-- An HTTP thread after an update of the thread `j`. -/
theorem getElem?_set_cases {l : List α} {x x' y : α} {j k : Nat} (hx : l[j]? = some x)
    (hk : (l.set j x')[k]? = some y) : k = j ∧ y = x' ∨ k ≠ j ∧ l[k]? = some y := by
  by_cases hkj : k = j
  · subst hkj
    rw [List.getElem?_set_self (List.getElem?_eq_some_iff.mp hx).1] at hk
    exact .inl ⟨rfl, (Option.some.inj hk).symm⟩
  · rw [List.getElem?_set_ne (Ne.symm hkj)] at hk
    exact .inr ⟨hkj, hk⟩

/-- A thread that finishes returns what its call has come to, if it has made one. -/
theorem Traced.finish {x : HttpWrite} {r : Except Exn DispatchResult} {j : Nat} (hw : Traced w)
    (hx : w.writes[j]? = some x)
    (hresult : ∀ call i c, x.call = some (call, i) → w.world.clients[i]? = some (.io c) →
      ∃ result, c.pc = .done result ∧ r = result.map (answer call)) :
    Traced { w with writes := w.writes.set j { x with result := some r } } := by
  have hold {k : Nat} {y : HttpWrite}
      (hk : (w.writes.set j { x with result := some r })[k]? = some y) :
      ∃ y₀, w.writes[k]? = some y₀ ∧ y.call = y₀.call := by
    rcases getElem?_set_cases hx hk with ⟨rfl, rfl⟩ | ⟨-, hk⟩
    · exact ⟨x, hx, rfl⟩
    · exact ⟨y, hk, rfl⟩
  refine ⟨fun k y call i hk hcall => ?_, fun k k' y y' call call' i hk hk' hy hy' => ?_⟩
  · rcases getElem?_set_cases hx hk with ⟨rfl, rfl⟩ | ⟨-, hk⟩
    · obtain ⟨c, hc, hjob, -⟩ := hw.call k x call i hx hcall
      refine ⟨c, hc, hjob, fun r' hr => ?_⟩
      cases hr
      exact hresult call i c hcall hc
    · exact hw.call k y call i hk hcall
  · obtain ⟨y₀, h₀, hcall₀⟩ := hold hk
    obtain ⟨y₁, h₁, hcall₁⟩ := hold hk'
    exact hw.unique k k' y₀ y₁ call call' i h₀ h₁ (hcall₀ ▸ hy) (hcall₁ ▸ hy')

theorem Traced.lt {x : HttpWrite} {call : WriteCall} {i j : Nat} (hw : Traced w)
    (hx : w.writes[j]? = some x)
    (hcall : x.call = some (call, i)) : i < w.world.clients.length := by
  obtain ⟨c, hc, -⟩ := hw.call j x call i hx hcall
  exact (List.getElem?_eq_some_iff.mp hc).1

/-- A thread makes its call: a new foreground operation. -/
theorem Traced.post {world : World} {x : HttpWrite} {call : WriteCall} {j : Nat} (hw : Traced w)
    (hx : w.writes[j]? = some x) (hresult : x.result = none)
    (h : WorldStep cfg w.world (.post call.path call.body (call.client.map .str)) world) :
    Traced { w with
      world, writes := w.writes.set j { x with call := some (call, w.world.clients.length) } } := by
  have hworld : Traced { w with world } := hw.world h rfl
  have hnew : world.clients[w.world.clients.length]? =
      some (.io { job := .post ⟨call.path, call.body, call.client.map .str⟩ }) := by
    cases h
    simp [Coordinator.post]
  refine ⟨fun k y call' i hk hcall => ?_, fun k k' y y' call₁ call₂ i hk hk' hy hy' => ?_⟩
  · rcases getElem?_set_cases hx hk with ⟨rfl, rfl⟩ | ⟨-, hk⟩
    · cases hcall
      refine ⟨_, hnew, rfl, fun r hr => ?_⟩
      cases hresult.symm.trans hr
    · exact hworld.call k y call' i hk hcall
  · rcases getElem?_set_cases hx hk with ⟨rfl, rfl⟩ | ⟨-, hk₀⟩ <;>
      rcases getElem?_set_cases hx hk' with ⟨rfl, rfl⟩ | ⟨-, hk₁⟩
    · rfl
    · cases hy
      exact absurd (hw.lt hk₁ hy') (Nat.lt_irrefl _)
    · cases hy'
      exact absurd (hw.lt hk₀ hy) (Nat.lt_irrefl _)
    · exact hw.unique k k' y y' call₁ call₂ i hk₀ hk₁ hy hy'

theorem Traced.step (hw : Traced w) (hstep : w.step d cfg a = some w') : Traced w' := by
  cases StackWorld.step_cases hstep with
  | step hworld => exact hw.world (World.step_cases hworld) rfl
  | begin _ hworld => exact hw.world (World.step_cases hworld) rfl
  | operate _ _ hworld => exact hw.world (World.step_cases hworld) rfl
  | @write args =>
    have hold {k : Nat} {y : HttpWrite} {p : WriteCall × Nat}
        (hk : (w.writes ++ [{ args := args }])[k]? = some y) (hy : y.call = some p) :
        w.writes[k]? = some y := by
      rw [List.getElem?_append] at hk
      split at hk
      · exact hk
      · cases List.mem_singleton.mp (List.mem_of_getElem? hk)
        cases hy
    exact ⟨fun k y call i hk hy => hw.call k y call i (hold hk hy) hy,
      fun k k' y y' call call' i hk hk' hy hy' =>
        hw.unique k k' y y' call call' i (hold hk hy) (hold hk' hy') hy hy'⟩
  | refuse hx hcall _ =>
    refine hw.finish hx fun call i c h => ?_
    cases hcall.symm.trans h
  | call hx _ hresult _ hworld => exact hw.post hx hresult (World.step_cases hworld)
  | answer hx hcall _ ho =>
    refine hw.finish hx fun call i c h hc => ?_
    cases hcall.symm.trans h
    simp only [StackWorld.outcome, hc, Option.bind_some, Client.outcome] at ho
    split at ho
    · rename_i hpc
      cases ho
      exact ⟨_, hpc, rfl⟩
    · cases ho

theorem Traced.init (managed : ManagedDatastore) (session : MotuUsbDatastore) :
    Traced (.init managed session) := by
  refine ⟨fun h x call i hx => ?_, fun h h' x x' call call' i hx => ?_⟩
  · simp [StackWorld.init] at hx
  · simp [StackWorld.init] at hx

/-! ## The dispatcher -/

theorem prepareWrite_path {path : Str} (h : d.prepareWrite a path = .ok call) :
    call.path = path := by
  simp only [DatastoreDispatcher.prepareWrite, except_bind_eq_ok, pure, Except.pure,
    Except.ok.injEq] at h
  obtain ⟨_, -, _, -, _, -, _, -, _, -, _, -, _, -, _, -, _, -, _, -, rfl⟩ := h
  rfl

/-- The dispatch of a write, in the order of the steps of its thread. -/
theorem dispatch_write_eq (hm : a.method ≠ .GET) : d.dispatchDatastoreRequest a = (do
    let call ← DatastoreDispatcher.liftExcept (d.preparedCall a)
    d.log a.method call
    let raw ← d.runPost call
    return answer call (coerceDatastorePayload raw)) := by
  funext s
  cases hurl : parseRequestPath a.requestPath with
  | error exc =>
    have hp : d.preparedCall a = .error exc := by simp [DatastoreDispatcher.preparedCall, hurl, bind, Except.bind]
    rw [DatastoreDispatcher.dispatchDatastoreRequest, hurl, hp]
    rfl
  | ok url =>
    have hstatus : d.statusFor a url = none := if_neg fun h => hm h.1
    have hp : d.preparedCall a = Paths.normalizePath url.path >>= d.prepareWrite a := by
      rw [DatastoreDispatcher.preparedCall, hurl]
      rfl
    rw [DatastoreDispatcher.dispatchDatastoreRequest, hurl, hp]
    simp only [DatastoreDispatcher.liftExcept, pure_bind, hstatus]
    cases hpath : Paths.normalizePath url.path with
    | error exc => rfl
    | ok path =>
      change (if a.method = .GET then d.dispatchGet a path else d.dispatchWrite a path) s = _
      rw [if_neg hm, DatastoreDispatcher.dispatchWrite]
      change _ = (DatastoreDispatcher.liftExcept (d.prepareWrite a path) >>= _ :
        EStateM Exn σ DispatchResult) s
      cases hcall : d.prepareWrite a path with
      | error exc => rfl
      | ok call =>
        obtain rfl := prepareWrite_path hcall
        rfl

/-! ## No replay -/

theorem answered_step {w w' : World} (h : WorldStep cfg w b w')
    (hw : ∀ (i : Nat) c, w.clients[i]? = some (.io c) → c.Answered) (i : Nat) (c' : IoCall)
    (hi : w'.clients[i]? = some (.io c')) : c'.Answered := by
  rcases h.io_of hi with ⟨c, hc⟩ | ⟨-, -, hnone⟩
  · obtain ⟨c₁, h₁, hmove⟩ := h.io hc
    cases hi.symm.trans h₁
    rcases hmove with ⟨-, rfl⟩ | ⟨_, _, -, hio⟩
    · exact hw i c' hc
    · exact hio.answered (hw i c hc)
  · intro r hr
    cases hnone.symm.trans hr

/-- The layers together. -/
structure Layered (cfg : Config) (w : StackWorld) : Prop where
  sent : SentOnce w
  traced : Traced w
  faithful : Faithful cfg w.world
  answered : ∀ (i : Nat) c, w.world.clients[i]? = some (.io c) → c.Answered

/-- A step of the layers is a step of the coordinator, or it does not touch it. -/
theorem step_world (h : w.step d cfg a = some w') :
    w'.world = w.world ∨ ∃ b, Coordinator.step cfg w.world b = some w'.world := by
  cases StackWorld.step_cases h with
  | step hworld | begin _ hworld | operate _ _ hworld => exact .inr ⟨_, hworld⟩
  | call _ _ _ _ hworld => exact .inr ⟨_, hworld⟩
  | write | refuse | answer => exact .inl rfl

theorem Layered.step (hw : Layered cfg w) (h : w.step d cfg a = some w') : Layered cfg w' := by
  have hsent := hw.sent.step h
  have htraced := hw.traced.step h
  rcases step_world h with hworld | ⟨b, hstep⟩
  · exact ⟨hsent, htraced, hworld ▸ hw.faithful, hworld ▸ hw.answered⟩
  · exact ⟨hsent, htraced, hw.faithful.step hstep,
      answered_step (World.step_cases hstep) hw.answered⟩

theorem Layered.init (managed : ManagedDatastore) (session : MotuUsbDatastore) :
    Layered cfg (.init managed session) := by
  refine ⟨.init managed session, .init managed session, .init managed, fun i c hi => ?_⟩
  simp [StackWorld.init, World.init] at hi

/-- What a foreground operation that has its response returns. -/
theorem Layered.returns {i : Nat} {c : IoCall} (hw : Layered cfg w)
    (hi : w.world.clients[i]? = some (.io c)) (hreceived : c.received = some response)
    (hdone : c.pc = .done result) : result = .ok (finalPayload response) := by
  have hown := hw.faithful.client i (.io c) c hi rfl
  rcases hw.answered i c hi response hreceived with hpc | hpay
  · cases hdone.symm.trans hpc
  · obtain ⟨p, hp⟩ := Option.isSome_iff_exists.mp hpay
    obtain ⟨r, hr, rfl⟩ := hown.payload p hp
    cases hreceived.symm.trans hr
    rw [hdone] at hp
    cases result with
    | ok q => cases hp; rfl
    | error exc => cases hp

theorem IoStep.received {e e' : Env} {c c' : IoCall} (h : IoStep cfg e c choice e' c')
    (hc : c.Answered) (hr : c.received = some response) : c'.received = some response := by
  cases h with
  | respond hpc => rcases hc response hr with h | h <;> simp [hpc, IoPc.payload?] at h
  | _ => exact hr

/-- The response that a thread has collected stays with it. -/
theorem received_stays {as : List Action} {i : Nat} {c : IoCall} (hw : Layered cfg w)
    (hi : w.world.clients[i]? = some (.io c)) (hr : c.received = some response)
    (hrun : run (StackWorld.step d cfg) w as = some w') : Layered cfg w' ∧
      ∃ c', w'.world.clients[i]? = some (.io c') ∧ c'.received = some response := by
  refine run_invariant_of_step (I := fun w => Layered cfg w ∧
    ∃ c', w.world.clients[i]? = some (.io c') ∧ c'.received = some response) ?_ ⟨hw, c, hi, hr⟩ hrun
  rintro v a v' ⟨hv, c₁, h₁, hr₁⟩ hstep
  refine ⟨hv.step hstep, ?_⟩
  rcases step_world hstep with hworld | ⟨b, hworld⟩
  · exact ⟨c₁, hworld ▸ h₁, hr₁⟩
  · obtain ⟨c₂, h₂, hmove⟩ := (World.step_cases hworld).io h₁
    rcases hmove with ⟨-, rfl⟩ | ⟨_, _, -, hio⟩
    · exact ⟨c₂, h₂, hr₁⟩
    · exact ⟨c₂, h₂, IoStep.received hio (hv.answered i c₁ h₁) hr₁⟩

/-! ## A write that has its response is answered -/

/-- The HTTP thread `h` waits for the write that the client thread `i` runs. -/
structure Posting (w : StackWorld) (h i : Nat) (x : HttpWrite) (c : IoCall) : Prop where
  write : w.writes[h]? = some x
  call : ∃ call, x.call = some (call, i)
  unfinished : x.result = none
  client : w.world.clients[i]? = some (.io c)
  job : ∃ a, c.job = .post a

/-- Some of the actions `allowed`, at most `n`, finish the HTTP thread `h`. -/
def Finishes (d : DatastoreDispatcher σ) (cfg : Config) (allowed : List Action) (n : Nat)
    (w : StackWorld) (h : Nat) (x : HttpWrite) : Prop :=
  ∃ as w', (∀ a ∈ as, a ∈ allowed) ∧ as.length ≤ n ∧ run (StackWorld.step d cfg) w as = some w' ∧
    ∃ r, w'.writes[h]? = some { x with result := some r }

section
variable {allowed : List Action} {n h i : Nat} {x : HttpWrite} {c c' : IoCall}

theorem Finishes.cons (ha : a ∈ allowed) (hstep : w.step d cfg a = some w')
    (hf : Finishes d cfg allowed n w' h x) : Finishes d cfg allowed (n + 1) w h x := by
  obtain ⟨as, v, hall, hlen, hrun, hx⟩ := hf
  refine ⟨a :: as, v, fun b hb => ?_, Nat.succ_le_succ hlen, run_cons.mpr ⟨w', hstep, hrun⟩, hx⟩
  rcases List.mem_cons.mp hb with rfl | hb
  · exact ha
  · exact hall b hb

theorem Finishes.mono (hf : Finishes d cfg allowed n w h x) (hle : n ≤ m) :
    Finishes d cfg allowed m w h x := by
  obtain ⟨as, v, hall, hlen, hrest⟩ := hf
  exact ⟨as, v, hall, Nat.le_trans hlen hle, hrest⟩

theorem Posting.moved (hp : Posting w h i x c) (hwrites : w'.writes = w.writes)
    (hclients : w'.world.clients = w.world.clients.set i (.io c')) (hjob : c'.job = c.job) :
    Posting w' h i x c' := by
  refine ⟨hwrites ▸ hp.write, hp.call, hp.unfinished, ?_, hjob ▸ hp.job⟩
  rw [hclients]
  exact List.getElem?_set_self (List.getElem?_eq_some_iff.mp hp.client).1

theorem Posting.finishes_done (hp : Posting w h i x c) (hpc : c.pc = .done result)
    (ha : .http h ∈ allowed) : Finishes d cfg allowed 1 w h x := by
  obtain ⟨call, hcall⟩ := hp.call
  have ho : w.outcome i = some result := by
    simp [StackWorld.outcome, hp.client, Client.outcome, hpc]
  have hstep : w.step d cfg (.http h) = some { w with
      writes := w.writes.set h { x with result := some (result.map (answer call)) } } := by
    simp [StackWorld.step, hp.write, StackWorld.httpStep, hcall, hp.unfinished, ho]
  refine Finishes.cons ha hstep ⟨[], _, fun a ha => ?_, Nat.le_refl _, rfl,
    result.map (answer call), ?_⟩
  · cases ha
  · exact List.getElem?_set_self (List.getElem?_eq_some_iff.mp hp.write).1

/-- The steps of a write after it has its response, and the answer of its HTTP thread; the
environment chooses what the opener and the transport do. -/
def finishing (h i : Nat) (opened : Except Exn (Nat × Int)) (later : ℚ) (wire : Wire)
    (exit : Option Exn) : List Action :=
  [.step (.client i .go), .begin (.client i) opened later, .operate (.client i) wire exit, .http h]

variable {opened : Except Exn (Nat × Int)} {later : ℚ} {wire : Wire} {exit : Option Exn}

/-- A step of the client thread outside the datastore. -/
theorem Posting.go (hp : Posting w h i x c) (hstep : c.step cfg w.world.env .go = some (env', c'))
    (hjob : c'.job = c.job) (hrest : ∀ w', Posting w' h i x c' → w'.world.env.now = env'.now →
      Finishes d cfg (finishing h i opened later wire exit) n w' h x) :
    Finishes d cfg (finishing h i opened later wire exit) (n + 1) w h x := by
  have hworld : w.step d cfg (.step (.client i .go)) = some { w with
      world := { w.world with env := env', clients := w.world.clients.set i (.io c') } } := by
    simp [StackWorld.step, isPlain, Coordinator.step, hp.client, Client.step, hstep]
  exact Finishes.cons (by simp [finishing]) hworld (hrest _ (hp.moved rfl rfl hjob) rfl)

theorem Posting.finishes_releasing (hp : Posting w h i x c) (hpc : c.pc = .releasing result) :
    Finishes d cfg (finishing h i opened later wire exit) 2 w h x := by
  have hstep : c.step cfg w.world.env .go =
      some (w.world.env.release, { c with pc := .done result }) := by simp [IoCall.step, hpc]
  exact hp.go hstep rfl fun _ hp' _ => hp'.finishes_done rfl (by simp [finishing])

theorem Posting.finishes_refreshed (hp : Posting w h i x c) (hpc : c.pc = .refreshed p refresh) :
    Finishes d cfg (finishing h i opened later wire exit) 3 w h x := by
  obtain ⟨a, hjob⟩ := hp.job
  have hstep : c.step cfg w.world.env .go = some
      (w.world.env.publish cfg refreshArgs.request refresh (clientString a.client) none true,
        { c with pc := .releasing (.ok p) }) := by
    simp [IoCall.step, hpc, hjob]
  exact hp.go hstep rfl fun _ hp' _ => hp'.finishes_releasing rfl

theorem Posting.finishes_refreshResponded (hp : Posting w h i x c)
    (hpc : c.pc = .refreshResponded p response) :
    Finishes d cfg (finishing h i opened later wire exit) 4 w h x := by
  have hstep : c.step cfg w.world.env .go = some ((w.world.env.payloadFromResponse response).2,
      { c with pc := .refreshed p (w.world.env.payloadFromResponse response).1 }) := by
    simp [IoCall.step, hpc]
  exact hp.go hstep rfl fun _ hp' _ => hp'.finishes_refreshed rfl

/-- The refresh comes to its end, and its failure is only recorded. -/
theorem refreshing_step (cfg : Config) (e : Env) (hpc : c.pc = .refreshing p)
    (hchoice : (∃ r, choice = .respond r) ∨ ∃ exc cleared exit, choice = .raise exc cleared exit) :
    ∃ env' c', c.step cfg e choice = some (env', c') ∧ c'.job = c.job ∧
      ((∃ r, c'.pc = .refreshResponded p r) ∨ c'.pc = .releasing (.ok p)) := by
  obtain ⟨r, rfl⟩ | ⟨exc, cleared, exit, rfl⟩ := hchoice
  · refine ⟨{ e with
      managed := e.managed.callReturned r
      log := e.log ++ [.received e.managed.sessionGeneration refreshArgs.request r] },
      { c with pc := .refreshResponded p r }, ?_, rfl, .inl ⟨r, rfl⟩⟩
    simp [IoCall.step, hpc, Env.finish]
  · refine ⟨{ e with managed := (e.managed.callRaised e.now exc cleared exit).2 },
      { c with pc := .releasing (.ok p) }, ?_, rfl, .inr rfl⟩
    simp [IoCall.step, hpc, Env.finish]

theorem operate_choice (w : StackWorld) (op : Proc Bytes) (wire : Wire) (exit : Option Exn) :
    (∃ r, (w.operate op wire exit).1 = .respond r) ∨
      ∃ exc cleared exit', (w.operate op wire exit).1 = .raise exc cleared exit' := by
  unfold StackWorld.operate
  split
  · exact .inl ⟨_, rfl⟩
  · exact .inr ⟨_, _, _, rfl⟩

theorem Posting.finishes_refreshing (hp : Posting w h i x c) (hpc : c.pc = .refreshing p) :
    Finishes d cfg (finishing h i opened later wire exit) 5 w h x := by
  have hop : w.operation cfg (.client i) = some (Request.exec refreshArgs.request) := by
    simp [StackWorld.operation, hp.client, Client.call?, IoCall.operation, hpc]
  obtain ⟨env', c', hstep, hjob, hpc'⟩ := refreshing_step cfg w.world.env hpc
    (operate_choice w (Request.exec refreshArgs.request) wire exit)
  obtain ⟨w', hworld, hp'⟩ : ∃ w', w.step d cfg (.operate (.client i) wire exit) = some w' ∧
      Posting w' h i x c' := by
    refine ⟨{ w with
      world := { w.world with env := env', clients := w.world.clients.set i (.io c') }
      session := (w.operate (Request.exec refreshArgs.request) wire exit).2
      handed := w.handed ++
        (w.operate (Request.exec refreshArgs.request) wire exit).2.wire.handed.map
          (⟨.client i, w.world.env.managed.sessionGeneration, ·⟩) }, ?_, hp.moved rfl rfl hjob⟩
    simp [StackWorld.step, hop, Caller.action, Coordinator.step, hp.client, Client.step, hstep]
  refine Finishes.cons (by simp [finishing]) hworld ?_
  rcases hpc' with ⟨response, hpc'⟩ | hpc'
  · exact hp'.finishes_refreshResponded hpc'
  · exact (hp'.finishes_releasing hpc').mono (by omega)

/-- The refresh gets a session or none, and a failure is only recorded. -/
theorem payload_step (cfg : Config) (e : Env) (exc : Option Exn) (hpc : c.pc = .payload p)
    (hjob : c.job = .post a)
    (hlater : e.now ≤ later) : ∃ env' c', c.step cfg e (.opener exc later) = some (env', c') ∧
      c'.job = c.job ∧ (c'.pc = .refreshing p ∨ c'.pc = .releasing (.ok p)) := by
  cases hens : e.managed.ensureSession e.now later exc with
  | mk r managed =>
    cases r with
    | ok u =>
      refine ⟨{ e with
        managed
        now := later
        log := e.log ++ [.sent managed.sessionGeneration refreshArgs.request] },
        { c with pc := .refreshing p }, ?_, rfl, .inl rfl⟩
      simp [IoCall.step, hpc, hjob, Env.begin, hlater, hens]
    | error exc' =>
      refine ⟨{ e with managed, now := later }, { c with pc := .releasing (.ok p) }, ?_, rfl,
        .inr rfl⟩
      simp [IoCall.step, hpc, hjob, Env.begin, hlater, hens]

theorem begin_step {caller : Caller} (hb : w.begins caller = some refresh)
    (hstep : Coordinator.step cfg w.world (caller.action (.opener (raised opened) later)) =
      some world) :
    ∃ w', w.step d cfg (.begin caller opened later) = some w' ∧ w'.world = world ∧
      w'.writes = w.writes := by
  simp only [StackWorld.step, hb, hstep, Option.bind_eq_bind, Option.bind_some]
  split
  · exact ⟨_, rfl, rfl, rfl⟩
  · exact ⟨_, rfl, rfl, rfl⟩

theorem Posting.finishes_payload (hp : Posting w h i x c) (hpc : c.pc = .payload p)
    (hlater : w.world.env.now ≤ later) :
    Finishes d cfg (finishing h i opened later wire exit) 6 w h x := by
  obtain ⟨a, hjob⟩ := hp.job
  have hb : w.begins (.client i) = some true := by
    simp [StackWorld.begins, hp.client, Client.call?, IoCall.begins, hpc, hjob]
  obtain ⟨env', c', hstep, hjob', hpc'⟩ :=
    payload_step cfg w.world.env (raised opened) hpc hjob hlater
  have hmove : Coordinator.step cfg w.world (.client i (.opener (raised opened) later)) =
      some { w.world with env := env', clients := w.world.clients.set i (.io c') } := by
    simp [Coordinator.step, hp.client, Client.step, hstep]
  obtain ⟨w', hworld, hw, hwrites⟩ := begin_step hb hmove
  have hp' : Posting w' h i x c' := hp.moved hwrites (by rw [hw]) hjob'
  refine Finishes.cons (by simp [finishing]) hworld ?_
  rcases hpc' with hpc' | hpc'
  · exact hp'.finishes_refreshing hpc'
  · exact (hp'.finishes_releasing hpc').mono (by omega)

theorem Posting.finishes_responded (hp : Posting w h i x c) (hpc : c.pc = .responded response)
    (hlater : w.world.env.now ≤ later) :
    Finishes d cfg (finishing h i opened later wire exit) 7 w h x := by
  have hstep : c.step cfg w.world.env .go = some ((w.world.env.payloadFromResponse response).2,
      { c with pc := .payload (w.world.env.payloadFromResponse response).1 }) := by
    simp [IoCall.step, hpc]
  exact hp.go hstep rfl fun _ hp' hnow => hp'.finishes_payload rfl (hnow ▸ hlater)

/-- A write that has its response is answered, whatever the opener and the transport do. -/
theorem Posting.finishes (hp : Posting w h i x c) (hc : c.Answered)
    (hr : c.received = some response)
    (hlater : w.world.env.now ≤ later) :
    Finishes d cfg (finishing h i opened later wire exit) 7 w h x := by
  rcases hc response hr with hpc | hpay
  · exact hp.finishes_responded hpc hlater
  · cases hpc : c.pc with
    | payload p => exact (hp.finishes_payload hpc hlater).mono (by omega)
    | refreshing p => exact (hp.finishes_refreshing hpc).mono (by omega)
    | refreshResponded p r => exact (hp.finishes_refreshResponded hpc).mono (by omega)
    | refreshed p q => exact (hp.finishes_refreshed hpc).mono (by omega)
    | releasing r => exact (hp.finishes_releasing hpc).mono (by omega)
    | done r => exact (hp.finishes_done hpc (by simp [finishing])).mono (by omega)
    | _ => simp [hpc, IoPc.payload?] at hpay

end

/-- The HTTP thread `h` is answered `result`: nothing else, and in a few steps of its own threads,
whatever the opener and the transport do. -/
structure IsAnswered (d : DatastoreDispatcher σ) (cfg : Config) (w : StackWorld) (h i : Nat)
    (x : HttpWrite) (result : Except Exn DispatchResult) : Prop where
  only : ∀ r, x.result = some r → r = result
  soon : x.result = none → ∀ opened later wire exit, w.world.env.now ≤ later → ∃ as w',
    (∀ a ∈ as, a ∈ finishing h i opened later wire exit) ∧ as.length ≤ 7 ∧
    run (StackWorld.step d cfg) w as = some w' ∧
    w'.writes[h]? = some { x with result := some result }

theorem Layered.isAnswered {h i : Nat} {x : HttpWrite} {c : IoCall} (hw : Layered cfg w)
    (hx : w.writes[h]? = some x) (hcall : x.call = some (call, i))
    (hi : w.world.clients[i]? = some (.io c)) (hr : c.received = some response) :
    IsAnswered d cfg w h i x (.ok (answer call (finalPayload response))) := by
  have honly {w : StackWorld} {x : HttpWrite} {c : IoCall} {r : Except Exn DispatchResult}
      (hw : Layered cfg w) (hx : w.writes[h]? = some x) (hcall : x.call = some (call, i))
      (hi : w.world.clients[i]? = some (.io c)) (hr : c.received = some response)
      (hresult : x.result = some r) : r = .ok (answer call (finalPayload response)) := by
    obtain ⟨c', hc', -, hdone⟩ := hw.traced.call h x call i hx hcall
    cases hi.symm.trans hc'
    obtain ⟨result, hpc, rfl⟩ := hdone r hresult
    rw [hw.returns hi hr hpc]
    rfl
  refine ⟨fun r => honly hw hx hcall hi hr, fun hnone opened later wire exit hlater => ?_⟩
  obtain ⟨c', hc', hjob, -⟩ := hw.traced.call h x call i hx hcall
  cases hi.symm.trans hc'
  have hp : Posting w h i x c := ⟨hx, ⟨call, hcall⟩, hnone, hi, _, hjob⟩
  obtain ⟨as, w', hall, hlen, hrun, r, hx'⟩ := hp.finishes (d := d) (hw.answered i c hi) hr hlater
  obtain ⟨hw', c', hc', hr'⟩ := received_stays hw hi hr hrun
  rw [honly hw' hx' hcall hc' hr' rfl] at hx'
  exact ⟨as, w', hall, hlen, hrun, hx'⟩

/-- No layer replays a write. In every state of every run, at most one write has been handed to
`bulk_write` for a request, by the thread of its one call of `run_post` and built from that call,
and that thread has called the opener at most once; a response that was collected is what the
request is answered. The other facts are the layers' own: who sends writes, how a write is
dispatched, and that a call of the managed datastore comes to the opener and to the operation of a
session once. -/
theorem write_not_replayed {managed : ManagedDatastore} {session : MotuUsbDatastore}
    {as : List Action} (hrun : run (StackWorld.step d cfg) (.init managed session) as = some w) :
    (∀ (h : Nat) x call i, w.writes[h]? = some x → x.call = some (call, i) →
      (postsBy i w.handed).length ≤ 1 ∧
      (∀ e ∈ postsBy i w.handed, ∃ seq ms, buildPostFrame seq ms call.path call.body (py "NREK")
        (call.client.map .str) = .ok e.frame) ∧
      attemptsBy i w.attempts ≤ 1 ∧
      (∀ (h' : Nat) x' call', w.writes[h']? = some x' → x'.call = some (call', i) → h' = h) ∧
      ∀ c response, w.world.clients[i]? = some (.io c) → c.received = some response →
        IsAnswered d cfg w h i x (.ok (answer call (finalPayload response)))) ∧
    (∀ e ∈ w.handed, isPostFrame e.frame = true → ∃ (i : Nat) (c : IoCall) (a : PostArgs),
      e.caller = .client i ∧ w.world.clients[i]? = some (.io c) ∧ c.job = .post a) ∧
    (∀ a : DispatchArgs, a.method ≠ .GET → d.dispatchDatastoreRequest a = (do
      let call ← DatastoreDispatcher.liftExcept (d.preparedCall a)
      d.log a.method call
      let raw ← d.runPost call
      return answer call (coerceDatastorePayload raw))) ∧
    (∀ (v v₁ v' : LifecycleWorld) (j : Nat) outcome bs,
      v.threads[j]? = some (.call .post .opening) → v.step (.thread j outcome) = some v₁ →
      run LifecycleWorld.step v₁ bs = some v' → v'.threads[j]? ≠ some (.call .post .opening)) ∧
    ∀ (v v₁ v' : LifecycleWorld) (j : Nat) datastore outcome bs,
      v.threads[j]? = some (.call .post (.operating datastore)) →
      v.step (.thread j outcome) = some v₁ → run LifecycleWorld.step v₁ bs = some v' →
      ∀ datastore', v'.threads[j]? ≠ some (.call .post (.operating datastore')) := by
  have hw : Layered cfg w :=
    run_invariant_of_step (fun _ _ _ hw h => hw.step h) (.init managed session) hrun
  refine ⟨fun h x call i hx hcall => ?_, fun e he hpost => ?_, fun a => dispatch_write_eq,
    fun v v₁ v' j outcome bs hj hstep hrun hback => ?_,
    fun v v₁ v' j datastore outcome bs hj hstep hrun datastore' hback => ?_⟩
  · obtain ⟨c, hc, hjob, -⟩ := hw.traced.call h x call i hx hcall
    refine ⟨Nat.le_trans (hw.sent.posts i c _ hc hjob) (Bool.toNat_le _), fun e he => ?_,
      Nat.le_trans (hw.sent.attempts i c _ hc hjob) (Bool.toNat_le _),
      fun h' x' call' hx' hcall' => hw.traced.unique h' h x' x call' call i hx' hx hcall' hcall,
      fun c' response hc' hreceived => hw.isAnswered hx hcall hc' hreceived⟩
    · obtain ⟨hmem, hcaller, hpost⟩ := mem_postsBy.mp he
      obtain ⟨j, c', a, hj, hc', hjob', hframe⟩ := hw.sent.built e hmem hpost
      cases hcaller.symm.trans hj
      cases hc.symm.trans hc'
      cases hjob.symm.trans hjob'
      exact hframe
  · obtain ⟨i, c, a, hcaller, hc, hjob, -⟩ := hw.sent.built e he hpost
    exact ⟨i, c, a, hcaller, hc, hjob⟩
  · obtain ⟨pc', hpc', hrank⟩ := LifecycleWorld.call_goes_on hj hstep hrun
    cases hback.symm.trans hpc'
    exact absurd hrank (Nat.lt_irrefl _)
  · obtain ⟨pc', hpc', hrank⟩ := LifecycleWorld.call_goes_on hj hstep hrun
    cases hback.symm.trans hpc'
    exact absurd hrank (Nat.lt_irrefl _)

/-- A dispatcher that allows writes and leaves their values alone. -/
def permissive : DatastoreDispatcher Unit where
  allowWrites := true
  runGet _ _ _ _ := pure (.bytes [])
  runPost _ := pure (.bytes [])
  allowRemoteWrites := true
  validateWrites := false

/-- What the device answers the first request of a session with message sequence 2. -/
def firstAnswer : Bytes := bytesOf "HTTP/1.1 200 OK\r\nETag: 7\r\n\r\n\x7b\x7d"

/-- The frame of that answer. -/
def firstAnswerFrame : Bytes := encode {
  header := NREK, wrapperSeq := 0x21, wrapperType := 0, wrapperLen := 28 + firstAnswer.length
  messageSeq := 2, final := true, segmentIndex := 0, payload := firstAnswer }

/-- A write is answered, and the device is lost in the refresh after it. -/
def lostRefreshRun : List Action :=
  [.write { method := .POST, requestPath := py "/datastore/x", rawBody := py "\x7b\x7d" }, .http 0,
    .step (.client 0 .go), .begin (.client 0) (.ok (0x20, 2)) 0,
    .operate (.client 0) { reads := [.data firstAnswerFrame] } none,
    .step (.client 0 .go), .begin (.client 0) (.ok (0x20, 2)) 0,
    .operate (.client 0) { writes := [.raise ⟨.osError 19, []⟩] } none,
    .step (.client 0 .go), .http 0]

theorem write_not_replayed_after_loss :
    ∃ w x call c,
      run (StackWorld.step permissive {}) (.init (.init 0 0 0) {}) lostRefreshRun = some w ∧
      w.writes[0]? = some x ∧ x.call = some (call, 0) ∧ w.world.clients[0]? = some (.io c) ∧
      c.received = some firstAnswer ∧ w.world.env.managed.datastore = none ∧
      (postsBy 0 w.handed).length ≤ 1 ∧ attemptsBy 0 w.attempts ≤ 1 ∧
      x.result = some (.ok (answer call (finalPayload firstAnswer))) := by
  have hfacts : (run (StackWorld.step permissive {}) (.init (.init 0 0 0) {}) lostRefreshRun).map
      (fun w => (w.writes[0]?.map fun x => (x.call.map Prod.snd, x.result.isSome),
        (w.world.clients[0]?.bind Client.call?).map IoCall.received, w.world.env.managed.datastore)) =
        some (some (some 0, true), some (some firstAnswer), none) := by decide +kernel
  obtain ⟨w, hw, hfacts⟩ := Option.map_eq_some_iff.mp hfacts
  simp only [Prod.mk.injEq] at hfacts
  obtain ⟨hwrites, hclients, hlost⟩ := hfacts
  obtain ⟨x, hx₀, hfacts⟩ := Option.map_eq_some_iff.mp hwrites
  obtain ⟨hcall, hresult⟩ := Prod.mk.inj hfacts
  obtain ⟨⟨call, i⟩, hcall, rfl⟩ := Option.map_eq_some_iff.mp hcall
  obtain ⟨r, hr⟩ := Option.isSome_iff_exists.mp hresult
  have hlayered : Layered {} w :=
    run_invariant_of_step (fun _ _ _ hw h => hw.step h) (.init (.init 0 0 0) {}) hw
  obtain ⟨c, hc₀, -, -⟩ := hlayered.traced.call 0 x call 0 hx₀ hcall
  rw [hc₀] at hclients
  have hreceived : c.received = some firstAnswer := Option.some.inj hclients
  obtain ⟨hone, -, hattempts, -, hanswered⟩ := (write_not_replayed hw).1 0 x call 0 hx₀ hcall
  refine ⟨w, x, call, c, hw, hx₀, hcall, hc₀, hreceived, hlost, hone, hattempts, ?_⟩
  rw [hr, (hanswered c firstAnswer hc₀ hreceived).only r hr]

end Stack

end MotuProxy
