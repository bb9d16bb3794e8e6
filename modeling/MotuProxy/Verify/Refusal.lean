import MotuProxy.Model.Handler
import MotuProxy.Verify.NoReplay

/-! # A refused write has not reached the device

The handler answers some exceptions with the status of a client error, and the others as a failure of
the backend. Of those that come from the coordinator, only the size check of the frame is a client
error, and it is made before the frame is handed to the transport.
-/

namespace MotuProxy

open Py Protocol Responses

namespace Datastore

open MotuUsbDatastore

/-- The exceptions that the exchange of frames raises itself. -/
def exchangeKinds : List ExnKind :=
  [.datastoreTimeout, .datastoreNoResponse, .datastoreResponseLimit, .datastoreCancelled,
    .responseFrameError, .shortUsbFrame, .shortUsbWrite]

/-! ## What the collector raises for a packet -/

/-- What the reaction raises is an exception of the exchange. -/
def Reaction.Own (r : Reaction) : Prop :=
  ∀ e, r.early = some e ∨ r.late = some e → e.kind ∈ exchangeKinds

section
variable {r r' : Reaction} {next : Collect} {ack stop : Bool} {e : Exn}

theorem Reaction.Own.ite {p : Prop} [Decidable p] (h : r.Own) (h' : r'.Own) :
    (if p then r else r').Own := by
  split
  · exact h
  · exact h'

theorem own_silent : Reaction.Own { next, ack, stop } := by
  rintro e (h | h) <;> cases h

theorem own_early (he : e.kind ∈ exchangeKinds) : Reaction.Own { next, ack, stop, early := some e } := by
  rintro e' (h | h) <;> cases h
  exact he

theorem own_late (he : e.kind ∈ exchangeKinds) : Reaction.Own { next, ack, stop, late := some e } := by
  rintro e' (h | h) <;> cases h
  exact he

end

theorem responseLimit_kind (message : Str) : (responseLimit message).kind ∈ exchangeKinds := by
  simp [responseLimit, exchangeKinds]

theorem ignorePacket_own {ack : Bool} : (ignorePacket a c ack).Own := by
  unfold ignorePacket
  intro e h
  rcases h with h | h
  · cases h
  · simp only at h
    split at h <;> cases h
    simp [ignoredLimit, exchangeKinds]

theorem currentFrame_own : (currentFrame a c packet parsed).Own := by
  unfold currentFrame
  refine .ite (own_early (responseLimit_kind _)) ?_
  exact .ite (own_late (responseLimit_kind _)) own_silent

theorem staleFrame_own : (staleFrame a c seq packet parsed).Own := by
  unfold staleFrame
  refine .ite (own_late (responseLimit_kind _)) ?_
  refine .ite (own_late (responseLimit_kind _)) ?_
  exact .ite own_silent own_silent

theorem react_exchangeKind : (react a c packet).Own := by
  unfold react
  refine .ite own_silent (.ite ?_ ignorePacket_own)
  simp only
  split
  · refine .ite ?_ ?_
    · split
      · exact ignorePacket_own
      · exact staleFrame_own
    · split
      · rename_i hparse
        refine own_early ?_
        rw [responseFrameError_of_error hparse]
        simp [exchangeKinds]
      · exact currentFrame_own
  · split
    · exact ignorePacket_own
    · exact currentFrame_own

theorem joinFrom_raised {frames : List ResponseFrame} {n : Nat} {e : Exn}
    (h : joinFrom n frames = .error e) : e.kind = .responseFrameError := by
  induction frames generalizing n with
  | nil => cases h
  | cons frame frames ih =>
    unfold joinFrom at h
    refine kind_of_ite_error h rfl fun h => kind_of_ite_error h rfl fun h =>
      kind_of_ite_error h rfl fun h => ?_
    cases hrest : joinFrom (n + 1) frames with
    | ok data => rw [hrest] at h; cases h
    | error e' =>
      rw [hrest] at h
      cases h
      exact ih hrest

/-! ## What a session raises -/

/-- What the transport raises has `P`. -/
structure TransportRaises (P : Exn → Prop) (s : MotuUsbDatastore) : Prop where
  reads : ∀ e, .raise e ∈ s.wire.reads → P e
  writes : ∀ e, .raise e ∈ s.wire.writes → P e

/-- On a transport whose exceptions have `P`, every exception of `x` has `P`. -/
abbrev Raises (P : Exn → Prop) (x : Proc α) : Prop :=
  Triple (TransportRaises P) x (fun _ => TransportRaises P) (fun e _ => P e)

section
variable {P : Exn → Prop}

theorem TransportRaises.clockInvariant : ClockInvariant (TransportRaises P) where
  cancels _ _ h := ⟨h.reads, h.writes⟩
  clock _ _ _ h := ⟨h.reads, h.writes⟩
  stats _ _ h := ⟨h.reads, h.writes⟩

theorem failWith_raised {Q : α → MotuUsbDatastore → Prop} {e : Exn} (he : P e) :
    Triple (TransportRaises P) (failWith a started c e) Q (fun e _ => P e) :=
  TransportRaises.clockInvariant.failWith_raises.conseq (fun _ hs => hs) (fun _ _ hs => hs)
    fun _ _ hs => hs.1 ▸ he

theorem raiseIf_raised {e : Option Exn} (he : ∀ exc, e = some exc → P exc) :
    Raises P (raiseIf a started c e) := by
  cases e with
  | none => exact Triple.pure fun _ hs => hs
  | some exc => exact failWith_raised (he exc rfl)

theorem readChunks_raised {got : Bytes} {reads reads' : List ReadEvent}
    (h : readChunks b expected got reads = (r, reads')) :
    (∀ event ∈ reads', event ∈ reads) ∧ ∀ e, r = .error e →
      e.kind ∈ exchangeKinds ∨ .raise e ∈ reads := by
  induction reads generalizing got with
  | nil =>
    unfold readChunks at h
    split at h <;> cases h
    · exact ⟨fun _ h => h, fun e he => by cases he; exact .inl (by simp [exchangeKinds, shortUsbFrame])⟩
    · exact ⟨fun _ h => h, fun e he => by cases he⟩
  | cons event reads ih =>
    unfold readChunks at h
    split at h
    · split at h
      · cases h
        refine ⟨fun _ h => List.mem_cons_of_mem _ h, fun e he => ?_⟩
        cases he
        exact .inl (by simp [exchangeKinds, shortUsbFrame])
      · obtain ⟨hsub, hkind⟩ := ih h
        exact ⟨fun event h => List.mem_cons_of_mem _ (hsub event h),
          fun e he => (hkind e he).imp_right (List.mem_cons_of_mem _)⟩
      · cases h
        refine ⟨fun _ h => List.mem_cons_of_mem _ h, fun e he => ?_⟩
        cases he
        unfold readError
        split
        · exact .inl (by simp [exchangeKinds])
        · exact .inr List.mem_cons_self
    · cases h
      exact ⟨fun _ h => h, fun e he => by cases he⟩

theorem readLogicalFrame_raised {reads reads' : List ReadEvent}
    (h : readLogicalFrame b reads = (r, reads')) :
    (∀ event ∈ reads', event ∈ reads) ∧ ∀ e, r = .error e →
      e.kind ∈ exchangeKinds ∨ .raise e ∈ reads := by
  unfold readLogicalFrame at h
  cases reads with
  | nil =>
    simp only [bulkRead, if_true] at h
    cases h
    exact ⟨fun _ h => h, fun e he => by cases he⟩
  | cons event reads =>
    have hrest {r : Except Exn Bytes} {reads' : List ReadEvent}
        (h : (∀ event ∈ reads', event ∈ reads) ∧ ∀ e, r = .error e →
          e.kind ∈ exchangeKinds ∨ .raise e ∈ reads) :
        (∀ event' ∈ reads', event' ∈ event :: reads) ∧ ∀ e, r = .error e →
          e.kind ∈ exchangeKinds ∨ .raise e ∈ event :: reads :=
      ⟨fun event h' => List.mem_cons_of_mem _ (h.1 event h'),
        fun e he => (h.2 e he).imp_right (List.mem_cons_of_mem _)⟩
    cases event with
    | data chunk =>
      simp only [bulkRead] at h
      refine hrest ?_
      split at h
      · cases h
        exact ⟨fun _ h => h, fun e he => by cases he⟩
      · split at h
        · cases h
          exact ⟨fun _ h => h, fun e he => by cases he; exact .inl (by simp [exchangeKinds])⟩
        · split at h
          · cases h
            exact ⟨fun _ h => h, fun e he => by cases he; exact .inl (by simp [exchangeKinds])⟩
          · exact readChunks_raised h
    | raise exc =>
      simp only [bulkRead] at h
      cases h
      refine ⟨fun _ h => List.mem_cons_of_mem _ h, fun e he => ?_⟩
      cases he
      unfold readError
      split
      · exact .inl (by simp [exchangeKinds])
      · exact .inr List.mem_cons_self

section
variable (hown : ∀ e : Exn, e.kind ∈ exchangeKinds → P e)
include hown

theorem readFrame_raised : Raises P (readFrame b) := by
  intro s hs
  cases hr : readLogicalFrame b s.wire.reads with
  | mk r reads =>
    obtain ⟨hsub, hkind⟩ := readLogicalFrame_raised hr
    cases r with
    | ok packet =>
      simp only [readFrame, hr]
      exact ⟨fun e he => hs.reads e (hsub _ he), hs.writes⟩
    | error e =>
      simp only [readFrame, hr]
      exact (hkind e rfl).elim (hown e) (hs.reads e)

theorem readPacket_raised : Raises P (readPacket a started c) := by
  intro s hs
  have hread := readFrame_raised hown (b := a.useCancellableRead) s hs
  cases hr : readLogicalFrame a.useCancellableRead s.wire.reads with
  | mk r reads =>
    obtain ⟨hsub, -⟩ := readLogicalFrame_raised hr
    cases r with
    | ok packet =>
      simp only [readFrame, hr] at hread
      simp only [readPacket, readFrame, hr]
      exact hread
    | error e =>
      simp only [readFrame, hr] at hread
      simp only [readPacket, readFrame, hr]
      by_cases hk : e.kind = .datastoreCancelled
      · rw [if_pos hk]
        have hs' : TransportRaises P { s with wire := { s.wire with reads } } :=
          ⟨fun e he => hs.reads e (hsub _ he), hs.writes⟩
        exact failWith_raised hread _ hs'
      · rw [if_neg hk]
        exact hread

theorem writeFrame_raised : Raises P (writeFrame frame) := by
  have hshort (n : Nat) : Triple (TransportRaises P)
      (if n ≠ frame.length then throw ⟨.shortUsbWrite, py "short USB write: wrote " ++ strNat n ++
        py " of " ++ strNat frame.length ++ py " bytes"⟩ else pure () : Proc Unit)
      (fun _ => TransportRaises P) (fun e _ => P e) :=
    Triple.ite (fun _ => Triple.throw fun _ _ => hown _ (by simp [exchangeKinds]))
      fun _ => Triple.pure fun _ hs => hs
  have hwrite : Triple (TransportRaises P) (bulkWrite frame) (fun _ => TransportRaises P)
      (fun e _ => P e) := by
    intro s hs
    have htail : ∀ e, .raise e ∈ s.wire.writes.tail → P e :=
      fun e he => hs.writes e (List.mem_of_mem_tail he)
    unfold bulkWrite
    cases hw : s.wire.writes with
    | nil => exact ⟨hs.reads, hw ▸ htail⟩
    | cons event writes =>
      cases event with
      | full => exact ⟨hs.reads, hw ▸ htail⟩
      | count n =>
        simp only
        split <;> exact ⟨hs.reads, hw ▸ htail⟩
      | raise e => exact hs.writes e (hw ▸ List.mem_cons_self)
  exact Triple.bind hwrite hshort

theorem acknowledge_raised : Raises P (acknowledge b) := by
  cases b with
  | false => exact Triple.pure fun _ hs => hs
  | true =>
    have htake : Triple (TransportRaises P) nextHostSeq (fun _ => TransportRaises P) (fun e _ => P e) :=
      fun _ hs => ⟨hs.reads, hs.writes⟩
    exact Triple.bind htake fun seq => writeFrame_raised hown

theorem perform_raised (hr : ∀ e, r.early = some e ∨ r.late = some e → P e) :
    Raises P (perform a started r) :=
  Triple.bind (raiseIf_raised fun e he => hr e (.inl he)) fun _ =>
    Triple.bind (acknowledge_raised hown) fun _ =>
      Triple.bind (raiseIf_raised fun e he => hr e (.inr he)) fun _ => Triple.pure fun _ hs => hs

theorem handlePacket_raised : Raises P (handlePacket a started deadline c packet) :=
  Triple.ite (fun _ => Triple.bind TransportRaises.clockInvariant.sliceOnly_preserves fun _ =>
    Triple.pure fun _ hs => hs) fun _ =>
      perform_raised hown fun e he => hown e (react_exchangeKind e he)

theorem timedOut_raised : P (timedOut a c) := by
  refine hown _ ?_
  unfold timedOut
  split <;> simp [exchangeKinds]

theorem beforeRead_raised : Raises P (beforeRead a started deadline c) := by
  have hclock := TransportRaises.clockInvariant (P := P)
  refine Triple.bind hclock.shouldCancel_preserves fun cancelled =>
    Triple.bind (raiseIf_raised fun e he => ?_) fun _ =>
      Triple.bind (raiseIf_raised fun e he => ?_) fun _ =>
        Triple.bind hclock.monotonic_preserves fun _ => raiseIf_raised fun e he => ?_
  · split at he <;> cases he
    exact hown _ (by simp [exchangeKinds, collectionCancelled])
  · split at he <;> cases he
    exact hown _ (by simp [exchangeKinds, readLimit])
  · split at he <;> cases he
    exact timedOut_raised hown

theorem collectLoop_raised : Raises P (collectLoop a started deadline n c) := by
  induction n generalizing c with
  | zero =>
    exact Triple.ite (fun _ => Triple.pure fun _ hs => hs) fun _ =>
      Triple.bind (beforeRead_raised hown) fun _ => Triple.pure fun _ hs => hs
  | succ n ih =>
    refine Triple.ite (fun _ => Triple.pure fun _ hs => hs) fun _ =>
      Triple.bind (beforeRead_raised hown) fun _ => Triple.bind (readPacket_raised hown) fun _ =>
        Triple.bind (handlePacket_raised hown) fun r => ?_
    exact Triple.ite (fun _ => Triple.pure fun _ hs => hs) fun _ => ih

theorem finish_raised : Raises P (finish a started c) := by
  refine Triple.ite (fun _ => failWith_raised (timedOut_raised hown)) fun _ => ?_
  cases hj : joinParsedResponseFrames c.frames with
  | error e =>
    refine failWith_raised (hown e ?_)
    rw [joinFrom_raised hj]
    simp [exchangeKinds]
  | ok response =>
    exact Triple.bind (Triple.modify fun s hs => ⟨hs.reads, hs.writes⟩) fun _ =>
      Triple.bind TransportRaises.clockInvariant.recordResponseStats_preserves fun _ =>
        Triple.pure fun _ hs => hs

theorem collectResponse_raised : Raises P (collectResponse a) := by
  have hclock := TransportRaises.clockInvariant (P := P)
  exact Triple.bind (Triple.modify fun s hs => ⟨hs.reads, hs.writes⟩) fun _ =>
    Triple.bind hclock.monotonic_preserves fun _ => Triple.bind hclock.monotonic_preserves fun _ =>
      Triple.bind (collectLoop_raised hown) fun _ => finish_raised hown

/-- An operation that raises something else than the transport and the exchange of frames has handed
nothing to the transport. -/
theorem exchange_raised {build : Nat → Nat → Except Exn Bytes} {collect : Nat → CollectArgs} :
    Triple (fun s => TransportRaises P s ∧ s.wire.handed = []) (exchange build collect)
      (fun _ _ => True) (fun e s => P e ∨ s.wire.handed = []) := by
  have htake : Triple (fun s => TransportRaises P s ∧ s.wire.handed = []) nextHostSeq
      (fun _ s => TransportRaises P s ∧ s.wire.handed = []) (fun e s => P e ∨ s.wire.handed = []) :=
    fun _ hs => ⟨⟨hs.1.reads, hs.1.writes⟩, hs.2⟩
  refine Triple.bind (Q := fun _ s => TransportRaises P s ∧ s.wire.handed = [])
    (Triple.get fun _ hs => hs) fun s₀ => Triple.bind htake fun seq => ?_
  cases build seq s₀.currentMessageSeq with
  | error exc =>
    exact Triple.bind (Triple.throw (Q := fun _ _ => False) fun _ hs => .inr hs.2) fun _ _ hs => hs.elim
  | ok frame =>
    have hrest : Raises P (do
        writeFrame frame
        advanceMessageSeq
        collectResponse (collect s₀.currentMessageSeq)) :=
      Triple.bind (writeFrame_raised hown) fun _ =>
        Triple.bind (Triple.modify fun _ hs => ⟨hs.reads, hs.writes⟩) fun _ => collectResponse_raised hown
    refine Triple.bind (Q := fun f s => TransportRaises P s ∧ f = frame)
      (Triple.pure fun _ hs => ⟨hs.1, rfl⟩) fun f => Triple.assume fun hf => ?_
    subst hf
    exact hrest.conseq (fun _ hs => hs) (fun _ _ _ => trivial) fun _ _ he => Or.inl he

end

end

end Datastore

/-! ## The exceptions of a foreground operation -/

namespace Coordinator

/-- The operation is on its way out with the exception. -/
def IoPc.Raised (exc : Exn) (pc : IoPc) : Prop :=
  pc = .releasing (.error exc) ∨ pc = .done (.error exc)

/-- Where the exception of an operation comes from: its own request, or before that. -/
theorem IoStep.raised {e e' : Env} {c c' : IoCall} (h : IoStep cfg e c choice e' c')
    (hexc : c'.pc.Raised exc) : c.pc = .releasing (.error exc) ∨
      (c.pc.ended = false ∧ c.pc ≠ .inCall) ∨
      (c.pc = .inCall ∧ e.finish c.job.request choice = some (.error exc, e')) := by
  cases h with
  | acquire hpc | exceed hpc | wait hpc =>
    obtain ⟨-, hended, -, hcall⟩ := entering_not_begun hpc
    exact .inr (.inl ⟨hended, hcall⟩)
  | beginOk hpc | beginFail hpc => exact .inr (.inl (by simp [hpc, IoPc.ended]))
  | raise hpc hf =>
    rcases hexc with h | h <;> cases h
    exact .inr (.inr ⟨hpc, hf⟩)
  | release hpc =>
    rcases hexc with h | h <;> cases h
    exact .inl hpc
  | respond | payload | publishRead | refreshBegin | refreshBeginFail | refreshRespond | refreshRaise
  | refreshPayload | publishRefresh => rcases hexc with h | h <;> cases h

end Coordinator

namespace Stack

open Datastore Coordinator Dispatch

variable {σ : Type} {d : DatastoreDispatcher σ} {cfg : Config} {w w' : StackWorld}

/-- The handler answers the exception as a failure of the backend. -/
def isBackendError (exc : Exn) : Bool :=
  match MotuProxyHandler.replyTo exc.kind with
  | .backend .. => true
  | .json _ => false

theorem isBackendError_exchange {exc : Exn} (h : exc.kind ∈ exchangeKinds) :
    isBackendError exc = true := by
  simp only [exchangeKinds, List.mem_cons, List.not_mem_nil, or_false] at h
  unfold isBackendError
  rcases h with h | h | h | h | h | h | h <;> rw [h] <;> rfl

/-- The transport raises nothing that the handler takes for an error of the client. -/
def TransportFails (_ : StackWorld) : Action → Prop
  | .operate _ wire _ => (∀ e, .raise e ∈ wire.reads → isBackendError e = true) ∧
    ∀ e, .raise e ∈ wire.writes → isBackendError e = true
  | _ => True

/-- The client thread `i` has handed nothing to the transport. -/
def Untouched (i : Nat) (handed : List Handed) : Prop := ∀ e ∈ handed, e.caller ≠ .client i

theorem Untouched.append (h : Untouched i handed) (h' : Untouched i handed') :
    Untouched i (handed ++ handed') := by
  intro e he
  rcases List.mem_append.mp he with he | he
  · exact h e he
  · exact h' e he

/-- A foreground operation that raises an error of the client has handed nothing to the transport. -/
structure Refusing (w : StackWorld) : Prop where
  known : ∀ e ∈ w.handed, ∀ i, e.caller = .client i → i < w.world.clients.length
  before : ∀ (i : Nat) c, w.world.clients[i]? = some (.io c) → c.pc.ended = false →
    Untouched i w.handed
  raised : ∀ (i : Nat) c exc, w.world.clients[i]? = some (.io c) → c.pc.Raised exc →
    isBackendError exc = true ∨ Untouched i w.handed

/-- Frames are added by a thread that is in an operation. -/
theorem Refusing.move {frames : List Handed} (hw : Refusing w)
    (hstep : WorldStep cfg w.world b w'.world) (hhanded : w'.handed = w.handed ++ frames)
    (hframes : ∀ e ∈ frames, ∀ i, e.caller = .client i → i < w.world.clients.length ∧
      (∃ choice, b = .client i choice) ∧ ∀ c, w.world.clients[i]? = some (.io c) →
        c.pc = .inCall ∨ ∃ p, c.pc = .refreshing p)
    (hraise : ∀ (i : Nat) c exc choice env', w.world.clients[i]? = some (.io c) →
      b = .client i choice → c.pc = .inCall →
      w.world.env.finish c.job.request choice = some (.error exc, env') →
      isBackendError exc = true ∨ Untouched i frames) : Refusing w' := by
  have hlength := WorldStep.length_le hstep
  have hknown : ∀ e ∈ w'.handed, ∀ i, e.caller = .client i → i < w.world.clients.length := by
    intro e he i hi
    rcases List.mem_append.mp (hhanded ▸ he) with he | he
    · exact hw.known e he i hi
    · exact (hframes e he i hi).1
  have hother {i : Nat} {c : IoCall} (hi : w.world.clients[i]? = some (.io c))
      (hpc : (∀ choice, b ≠ .client i choice) ∨ c.pc ≠ .inCall ∧ ∀ p, c.pc ≠ .refreshing p) :
      Untouched i frames := by
    intro e he hcaller
    obtain ⟨-, ⟨choice, hb⟩, hop⟩ := hframes e he i hcaller
    rcases hpc with hno | ⟨hcall, hrefresh⟩
    · exact hno choice hb
    · rcases hop c hi with h | ⟨p, h⟩
      · exact hcall h
      · exact hrefresh p h
  refine ⟨fun e he i hi => Nat.lt_of_lt_of_le (hknown e he i hi) hlength, fun i c' hi hended => ?_,
    fun i c' exc hi hexc => ?_⟩
  · rcases hstep.io_of hi with ⟨c, hc⟩ | ⟨rfl, -⟩
    · obtain ⟨c₁, h₁, hmove⟩ := hstep.io hc
      cases hi.symm.trans h₁
      rw [hhanded]
      rcases hmove with ⟨hno, rfl⟩ | ⟨choice, env', -, hio⟩
      · exact (hw.before i c' hc hended).append (hother hc (.inl hno))
      · -- the operation has not been on the session in this step either
        have hbefore : c.pc.ended = false := by
          cases h : c.pc.ended with
          | false => rfl
          | true => exact (hended.symm.trans (hio.forward.ended h)).symm
        refine (hw.before i c hc hbefore).append (hother hc (.inr ⟨fun hcall => ?_, fun p hp => ?_⟩))
        · cases hended.symm.trans (hio.forward.inCall hcall)
        · rw [hp] at hbefore
          cases hbefore
    · exact fun e he hcaller => absurd (hknown e he _ hcaller) (Nat.lt_irrefl _)
  · rcases hstep.io_of hi with ⟨c, hc⟩ | ⟨rfl, hpc, -⟩
    · obtain ⟨c₁, h₁, hmove⟩ := hstep.io hc
      cases hi.symm.trans h₁
      rw [hhanded]
      rcases hmove with ⟨hno, rfl⟩ | ⟨choice, env', hb, hio⟩
      · exact (hw.raised i c' exc hc hexc).imp_right (·.append (hother hc (.inl hno)))
      · rcases hio.raised hexc with hpc | ⟨hended, hcall⟩ | ⟨hcall, hfinish⟩
        · refine (hw.raised i c exc hc (.inl hpc)).imp_right (·.append (hother hc (.inr ?_)))
          simp [hpc]
        · refine .inr ((hw.before i c hc hended).append (hother hc (.inr ⟨hcall, fun p hp => ?_⟩)))
          rw [hp] at hended
          cases hended
        · exact (hraise i c exc choice env' hc hb hcall hfinish).imp_right
            ((hw.before i c hc (by rw [hcall]; rfl)).append ·)
    · rcases hexc with h | h <;> cases hpc.symm.trans h

/-- What the managed datastore makes of an exception is a failure of the backend if that was. -/
theorem callRaised_isBackendError {m : ManagedDatastore} {exc : Exn} {now : ℚ}
    {cleared : Bool} {exit : Option Exn} (h : isBackendError exc = true) :
    isBackendError (m.callRaised now exc cleared exit).1 = true := by
  unfold ManagedDatastore.callRaised
  simp only
  split
  · rfl
  · exact h

theorem operation_pc {i : Nat} {c : IoCall} (hi : w.world.clients[i]? = some (.io c))
    (hop : w.operation cfg (.client i) = some op) :
    (c.pc = .inCall ∧ op = Request.exec c.job.request) ∨ ∃ p, c.pc = .refreshing p := by
  simp only [StackWorld.operation, hi, Option.bind_eq_bind, Option.bind_some, Client.call?,
    Option.bind_eq_some_iff] at hop
  obtain ⟨request, hrequest, hop⟩ := hop
  cases hop
  unfold IoCall.operation at hrequest
  split at hrequest <;> rename_i hpc <;> cases hrequest
  · exact .inl ⟨hpc, rfl⟩
  · exact .inr ⟨_, hpc⟩

theorem exec_raised {P : Exn → Prop} (hown : ∀ e : Exn, e.kind ∈ exchangeKinds → P e)
    (request : Request) : Triple (fun s => TransportRaises P s ∧ s.wire.handed = [])
      (Request.exec request) (fun _ _ => True) (fun e s => P e ∨ s.wire.handed = []) := by
  cases request with
  | get =>
    rw [Request.exec, MotuUsbDatastore.get]
    exact exchange_raised hown
  | post =>
    rw [Request.exec, MotuUsbDatastore.post]
    exact exchange_raised hown

theorem Refusing.step (hw : Refusing w) (htransport : TransportFails w a)
    (hstep : w.step d cfg a = some w') : Refusing w' := by
  have hplain {w' : StackWorld} {b : Coordinator.Action} (h : WorldStep cfg w.world b w'.world)
      (hhanded : w'.handed = w.handed) : Refusing w' :=
    hw.move h (by rw [hhanded, List.append_nil]) (fun e he => absurd he List.not_mem_nil)
      fun _ _ _ _ _ _ _ _ _ => .inr fun e he => absurd he List.not_mem_nil
  cases StackWorld.step_cases hstep with
  | step hworld => exact hplain (World.step_cases hworld) rfl
  | begin _ hworld => exact hplain (World.step_cases hworld) rfl
  | call _ _ _ _ hworld => exact hplain (World.step_cases hworld) rfl
  | write => exact ⟨hw.known, hw.before, hw.raised⟩
  | refuse => exact ⟨hw.known, hw.before, hw.raised⟩
  | answer => exact ⟨hw.known, hw.before, hw.raised⟩
  | @operate caller op wire exit choice session world hop hr hworld =>
    refine hw.move (World.step_cases hworld) rfl (fun e he i hi => ?_)
      fun i c exc choice' env' hi hb hpc hfinish => ?_
    · obtain ⟨frame, -, rfl⟩ := List.mem_map.mp he
      obtain rfl : caller = .client i := hi
      refine ⟨?_, ⟨choice, rfl⟩, fun c hc => (operation_pc hc hop).imp_left And.left⟩
      simp only [StackWorld.operation, Option.bind_eq_bind, Option.bind_eq_some_iff] at hop
      obtain ⟨c, hc, -⟩ := hop
      exact (List.getElem?_eq_some_iff.mp hc).1
    · obtain ⟨rfl, rfl⟩ : caller = .client i ∧ choice' = choice := by
        cases caller with
        | client j =>
          simp only [Caller.action, Coordinator.Action.client.injEq] at hb
          exact ⟨by rw [hb.1], hb.2.symm⟩
        | poller => simp [Caller.action] at hb
      rcases operation_pc hi hop with ⟨-, rfl⟩ | ⟨p, hp⟩
      · unfold StackWorld.operate at hr
        have hraised := exec_raised (P := fun e => isBackendError e = true)
          (fun e he => isBackendError_exchange he) c.job.request
          { w.session with wire := { wire with handed := [], delivered := [] } }
          ⟨⟨htransport.1, htransport.2⟩, rfl⟩
        split at hr
        · cases hr
          simp [Env.finish] at hfinish
        · rename_i exc₀ session₀ hexec
          rw [hexec] at hraised
          cases hr
          simp only [Env.finish, Option.some.injEq, Prod.mk.injEq, Except.error.injEq] at hfinish
          rcases hraised with hbackend | hnone
          · exact .inl (hfinish.1 ▸ callRaised_isBackendError hbackend)
          · refine .inr fun e he => ?_
            rw [hnone] at he
            cases he
      · cases hpc.symm.trans hp

/-- A write that is answered with the status of a client error has handed no frame to the transport,
in every run whose transport raises no such error itself. -/
theorem refused_write_untouched {managed : ManagedDatastore} {session : MotuUsbDatastore}
    {as : List Action} {h : Nat} {x : HttpWrite} {exc : Exn} {status : Nat}
    (hrun : run (StackWorld.step d cfg) (.init managed session) as = some w)
    (htransport : Along (StackWorld.step d cfg) TransportFails (.init managed session) as)
    (hx : w.writes[h]? = some x) (hr : x.result = some (.error exc))
    (hstatus : MotuProxyHandler.replyTo exc.kind = .json status) :
    ∀ call i, x.call = some (call, i) → ∀ e ∈ w.handed, e.caller ≠ .client i := by
  have hw : Refusing w := run_invariant (fun _ _ _ hw htransport h => hw.step htransport h)
    ⟨fun e he => (by cases he), fun i c hi => (by simp [StackWorld.init, World.init] at hi),
      fun i c exc hi => (by simp [StackWorld.init, World.init] at hi)⟩ htransport hrun
  have htraced : Traced w :=
    run_invariant_of_step (fun _ _ _ hw h => hw.step h) (.init managed session) hrun
  intro call i hcall
  obtain ⟨c, hc, -, hdone⟩ := htraced.call h x call i hx hcall
  obtain ⟨result, hpc, hresult⟩ := hdone _ hr
  cases result with
  | ok p => cases hresult
  | error exc' =>
    cases hresult
    refine (hw.raised i c exc hc (.inr hpc)).resolve_left fun hbackend => ?_
    unfold isBackendError at hbackend
    rw [hstatus] at hbackend
    cases hbackend

/-- A body that is no JSON object comes after a write that is on the device. -/
def refusedRun : List Action :=
  lostRefreshRun ++
    [.write { method := .POST, requestPath := py "/datastore/x", rawBody := py "x" }, .http 1]

theorem refused_write_untouched_body :
    ∃ w x exc, run (StackWorld.step permissive {}) (.init (.init 0 0 0) {}) refusedRun = some w ∧
      w.writes[1]? = some x ∧ x.result = some (.error exc) ∧ w.handed ≠ [] ∧
      ∀ call i, x.call = some (call, i) → ∀ e ∈ w.handed, e.caller ≠ .client i := by
  have hfacts : (run (StackWorld.step permissive {}) (.init (.init 0 0 0) {}) refusedRun).map
      (fun w => (w.writes[1]?.map fun x => x.result.map fun r => (raised r).map Exn.kind,
        w.handed.isEmpty)) = some (some (some (some .invalidJsonBody)), false) := by decide +kernel
  obtain ⟨w, hw, hfacts⟩ := Option.map_eq_some_iff.mp hfacts
  obtain ⟨hwrite, hhanded⟩ := Prod.mk.inj hfacts
  obtain ⟨x, hx, hresult⟩ := Option.map_eq_some_iff.mp hwrite
  obtain ⟨r, hr, hraised⟩ := Option.map_eq_some_iff.mp hresult
  have htransport : Along (StackWorld.step permissive {}) TransportFails (.init (.init 0 0 0) {})
      refusedRun := by
    refine Along.of_forall fun a ha w => ?_
    simp only [refusedRun, lostRefreshRun, List.mem_append, List.mem_cons, List.not_mem_nil,
      or_false] at ha
    rcases ha with ((rfl | rfl | rfl | rfl | rfl | rfl | rfl | rfl | rfl | rfl) | rfl | rfl) <;>
      simp [TransportFails, isBackendError, MotuProxyHandler.replyTo]
  cases r with
  | ok r => cases hraised
  | error exc =>
    have hstatus : MotuProxyHandler.replyTo exc.kind = .json 400 := by
      rw [show exc.kind = .invalidJsonBody from Option.some.inj hraised]
      rfl
    refine ⟨w, x, exc, hw, hx, hr, fun h => ?_, refused_write_untouched hw htransport hx hr hstatus⟩
    rw [h] at hhanded
    cases hhanded

end Stack

end MotuProxy
