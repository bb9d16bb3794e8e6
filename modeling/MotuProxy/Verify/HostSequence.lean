import Mathlib.Data.List.Induction
import MotuProxy.Verify.CollectorInvariant
import MotuProxy.Verify.RequestFormat

/-! # The host sequence on the wire

Requests, acknowledgements and the init frame take their host sequence numbers from one sequencer.
`InStep` says that the frames handed to the transport are numbered without a gap, and that the
sequencer is at the number after them. A request that cannot be built breaks it, since it has used
up its number before.
-/

namespace MotuProxy

open Py Protocol

namespace Protocol

/-- The number of the `k`-th frame. -/
def hostSeqAt (start k : Nat) : Nat := nextHostSeq^[k] start

theorem hostSeqAt_succ : hostSeqAt start (k + 1) = nextHostSeq (hostSeqAt start k) :=
  Function.iterate_succ_apply' _ _ _

/-- A number that the sequencer may be at. -/
def ValidHostSeq (seq : Nat) : Prop := HOST_SEQ_MIN ≤ seq ∧ seq < HOST_SEQ_MAX_EXCLUSIVE

theorem validHostSeq_next : ValidHostSeq (nextHostSeq seq) := by
  simp only [ValidHostSeq, nextHostSeq, HOST_SEQ_MIN, HOST_SEQ_COUNT, HOST_SEQ_MAX_EXCLUSIVE]
  omega

theorem validHostSeq_hostSeqAt (h : ValidHostSeq start) : ValidHostSeq (hostSeqAt start k) := by
  cases k with
  | zero => exact h
  | succ k => rw [hostSeqAt_succ]; exact validHostSeq_next

theorem nextHostSeq_ne (h : ValidHostSeq seq) : nextHostSeq seq ≠ seq := by
  simp only [ValidHostSeq, HOST_SEQ_MIN, HOST_SEQ_COUNT, HOST_SEQ_MAX_EXCLUSIVE] at h
  simp only [nextHostSeq, HOST_SEQ_MIN, HOST_SEQ_COUNT]
  omega

theorem validateHostSeq_eq_ok : validateHostSeq seq = .ok seq' ↔ ValidHostSeq seq ∧ seq' = seq := by
  unfold validateHostSeq ValidHostSeq
  split
  · rename_i h
    simp [h, eq_comm]
  · rename_i h
    simp [h]

/-! ## Building a request -/

theorem head_buildMotuFrame (h : buildMotuFrame seq header messageSeq payload = .ok frame) :
    frame.head? = some (UInt8.ofNat seq) := by
  simp only [buildMotuFrame, except_bind_eq_ok, ite_error_eq_ok, pure, Except.pure,
    Except.ok.injEq] at h
  obtain ⟨_, -, _, -, -, _, -, _, -, _, -, _, -, _, -, _, -, rfl⟩ := h
  rfl

theorem head_build {q : RequestArgs} (h : q.build = .ok frame) :
    frame.head? = some (UInt8.ofNat (match q with | .get seq .. | .post seq .. => seq)) := by
  cases q with
  | get =>
    simp only [RequestArgs.build, buildGetFrame, except_bind_eq_ok] at h
    obtain ⟨_, -, _, -, _, -, _, -, _, -, _, -, _, -, h⟩ := h
    exact head_buildMotuFrame h
  | post =>
    simp only [RequestArgs.build, buildPostFrame, except_bind_eq_ok] at h
    obtain ⟨_, -, _, -, _, -, _, -, _, -, _, -, _, -, _, -, _, -, _, -, _, -, h⟩ := h
    exact head_buildMotuFrame h

/-- Whether a frame can be built does not depend on its numbers. -/
theorem buildMotuFrame_renumber (h : buildMotuFrame seq header messageSeq payload = .ok frame)
    (hseq : messageSeq' < 2 ^ 32) : ∃ frame', buildMotuFrame seq' header messageSeq' payload = .ok frame' := by
  simp only [buildMotuFrame, except_bind_eq_ok, ite_error_eq_ok, pure, Except.pure,
    Except.ok.injEq] at h ⊢
  obtain ⟨hdr, hhdr, maxLen, hmax, hle, crc, hcrc, ms, hms, fin, hfin, idx, hidx, len, hlen, total,
    htotal, rfl⟩ := h
  obtain ⟨rfl, -⟩ := u32_eq_ok hms
  refine ⟨_, hdr, hhdr, maxLen, hmax, hle, crc, hcrc, leBytes 4 messageSeq', if_pos hseq, fin, hfin,
    idx, hidx, len, hlen, total, ?_, rfl⟩
  simpa using htotal

theorem buildGetFrame_renumber
    (h : buildGetFrame seq messageSeq path etag header client fields = .ok frame)
    (hseq : messageSeq' < 2 ^ 32) :
    ∃ frame', buildGetFrame seq' messageSeq' path etag header client fields = .ok frame' := by
  simp only [buildGetFrame, except_bind_eq_ok] at h ⊢
  obtain ⟨a₁, h₁, a₂, h₂, a₃, h₃, a₄, h₄, a₅, h₅, a₆, h₆, a₇, h₇, h⟩ := h
  obtain ⟨frame', h'⟩ := buildMotuFrame_renumber h hseq
  exact ⟨frame', a₁, h₁, a₂, h₂, a₃, h₃, a₄, h₄, a₅, h₅, a₆, h₆, a₇, h₇, h'⟩

theorem buildPostFrame_renumber
    (h : buildPostFrame seq messageSeq path jsonBody header client = .ok frame)
    (hseq : messageSeq' < 2 ^ 32) :
    ∃ frame', buildPostFrame seq' messageSeq' path jsonBody header client = .ok frame' := by
  simp only [buildPostFrame, except_bind_eq_ok] at h ⊢
  obtain ⟨a₁, h₁, a₂, h₂, a₃, h₃, a₄, h₄, a₅, h₅, a₆, h₆, a₇, h₇, a₈, h₈, a₉, h₉, a₁₀, h₁₀, a₁₁,
    h₁₁, h⟩ := h
  obtain ⟨frame', h'⟩ := buildMotuFrame_renumber h hseq
  exact ⟨frame', a₁, h₁, a₂, h₂, a₃, h₃, a₄, h₄, a₅, h₅, a₆, h₆, a₇, h₇, a₈, h₈, a₉, h₉, a₁₀, h₁₀,
    a₁₁, h₁₁, h'⟩

end Protocol

namespace Datastore

open MotuUsbDatastore

/-! ## Frames in step -/

/-- The first bytes of the frames handed to the transport, in order. -/
def handedSeqs (s : MotuUsbDatastore) : List (Option UInt8) := s.wire.handed.map List.head?

/-- The numbers of `n` frames without a gap. -/
def hostSeqs (start n : Nat) : List (Option UInt8) :=
  (List.range n).map fun k => some (UInt8.ofNat (hostSeqAt start k))

theorem hostSeqs_succ : hostSeqs start (n + 1) =
    hostSeqs start n ++ [some (UInt8.ofNat (hostSeqAt start n))] := by
  simp [hostSeqs, List.range_succ]

/-- The frames handed to the transport are numbered without a gap, and the sequencer is at the next
number. -/
structure InStep (start : Nat) (s : MotuUsbDatastore) : Prop where
  handed : handedSeqs s = hostSeqs start s.wire.handed.length
  next : s.hostSeq = hostSeqAt start s.wire.handed.length

/-- The number `seq` has been taken for the next frame. -/
structure Taken (start seq : Nat) (s : MotuUsbDatastore) : Prop where
  handed : handedSeqs s = hostSeqs start s.wire.handed.length
  taken : seq = hostSeqAt start s.wire.handed.length
  next : s.hostSeq = hostSeqAt start (s.wire.handed.length + 1)

theorem nextHostSeq_taken : Triple (InStep start) MotuUsbDatastore.nextHostSeq
    (fun seq => Taken start seq) (fun _ => InStep start) :=
  fun s h => ⟨h.handed, h.next, by
    change Protocol.nextHostSeq s.hostSeq = _
    rw [h.next, hostSeqAt_succ]⟩

/-- Whatever comes of the write, the frame has been handed to the transport. -/
theorem writeFrame_handed {P I : MotuUsbDatastore → Prop}
    (hI : ∀ s (w : Wire), P s → w.handed = s.wire.handed ++ [frame] → I { s with wire := w }) :
    Triple P (writeFrame frame) (fun _ => I) (fun _ => I) := by
  have hwrite : Triple P (bulkWrite frame) (fun _ => I) (fun _ => I) := by
    intro s hs
    cases hw : s.wire.writes with
    | nil => simp only [bulkWrite, hw]; exact hI s _ hs rfl
    | cons event writes =>
      cases event with
      | full => simp only [bulkWrite, hw]; exact hI s _ hs rfl
      | count written =>
        simp only [bulkWrite, hw]
        refine hI s _ hs ?_
        split <;> rfl
      | raise e => simp only [bulkWrite, hw]; exact hI s _ hs rfl
  exact Triple.bind hwrite fun _ =>
    Triple.ite (fun _ => Triple.throw fun _ h => h) fun _ => Triple.pure fun _ h => h

theorem writeFrame_inStep (h : frame.head? = some (UInt8.ofNat seq)) :
    Triple (Taken start seq) (writeFrame frame) (fun _ => InStep start) (fun _ => InStep start) := by
  refine writeFrame_handed fun s w hs hw => ⟨?_, ?_⟩
  · have := hs.handed
    simp only [handedSeqs] at this ⊢
    rw [hw, List.map_append, this, List.length_append, List.length_singleton, hostSeqs_succ,
      ← hs.taken]
    simp [h]
  · change s.hostSeq = hostSeqAt start w.handed.length
    rw [hw, hs.next, List.length_append, List.length_singleton]

theorem InStep.collectorInvariant : CollectorInvariant (InStep start) where
  reads _ _ h := ⟨h.handed, h.next⟩
  cancels _ _ h := ⟨h.handed, h.next⟩
  clock _ _ _ h := ⟨h.handed, h.next⟩
  results _ _ _ _ h := ⟨h.handed, h.next⟩
  acknowledge := Triple.bind nextHostSeq_taken fun _ => writeFrame_inStep rfl

/-- The frames `h` were handed to the transport first. -/
def Extends (h : List Bytes) (s : MotuUsbDatastore) : Prop := h <+: s.wire.handed

theorem writeFrame_extends {h : List Bytes} :
    Triple (fun s => h <+: s.wire.handed ++ [frame]) (writeFrame frame) (fun _ => Extends h)
      (fun _ => Extends h) :=
  writeFrame_handed fun s w hs hw => by
    rw [← hw] at hs
    exact hs

theorem Extends.collectorInvariant {h : List Bytes} : CollectorInvariant (Extends h) where
  reads _ _ hs := hs
  cancels _ _ hs := hs
  clock _ _ _ hs := hs
  results _ _ _ _ hs := hs
  acknowledge :=
    have htake : Triple (Extends h) MotuUsbDatastore.nextHostSeq (fun _ => Extends h)
      (fun _ => Extends h) := fun _ hs => hs
    Triple.bind htake fun _ => writeFrame_extends.conseq
      (fun _ hs => hs.trans (List.prefix_append _ _)) (fun _ _ hs => hs) fun _ _ hs => hs

/-! ## Operations -/

/-- An operation on a session. -/
inductive Operation where
  | init
  | get (g : GetArgs)
  | post (p : PostArgs)

namespace Operation

def exec : Operation → Proc Unit
  | init => MotuUsbDatastore.init
  | get g => discard (MotuUsbDatastore.get g)
  | post p => discard (MotuUsbDatastore.post p)

/-- The session after the operation, however it ends. -/
def after (s : MotuUsbDatastore) (op : Operation) : MotuUsbDatastore :=
  match op.exec s with
  | .ok _ s => s
  | .error _ s => s

/-- The frame of the request can be built: the texts can be encoded, and it is not too large. -/
def Buildable : Operation → Prop
  | init => True
  | get g => ∃ frame, buildGetFrame HOST_SEQ_MIN 0 g.path g.etag (py "NREK") g.client g.queryFields =
      .ok frame
  | post p => ∃ frame, buildPostFrame HOST_SEQ_MIN 0 p.path p.jsonBody (py "NREK") p.client = .ok frame

end Operation

def afterOperations (s : MotuUsbDatastore) (ops : List Operation) : MotuUsbDatastore :=
  ops.foldl Operation.after s

theorem currentMessageSeq_lt (s : MotuUsbDatastore) : s.currentMessageSeq < 2 ^ 32 := by
  unfold currentMessageSeq
  omega

section
variable {build : Nat → Nat → Except Exn Bytes} {collect : Nat → CollectArgs}

/-- A request that can be built keeps the frames in step. -/
theorem exchange_inStep (hbuild : ∀ seq ms, ms < 2 ^ 32 →
      ∃ frame, build seq ms = .ok frame ∧ frame.head? = some (UInt8.ofNat seq)) :
    Preserves (InStep start) (exchange build collect) := by
  refine Triple.bind (Q := fun s₀ s => InStep start s ∧ s₀.currentMessageSeq < 2 ^ 32)
    (Triple.get fun s h => ⟨h, currentMessageSeq_lt s⟩) fun s₀ => Triple.assume fun hms =>
      Triple.bind nextHostSeq_taken fun seq => ?_
  obtain ⟨frame, hb, hhead⟩ := hbuild seq s₀.currentMessageSeq hms
  rw [hb]
  refine Triple.bind (Q := fun f s => Taken start seq s ∧ f = frame)
    (Triple.pure fun _ h => ⟨h, rfl⟩) fun f => Triple.assume fun hf => ?_
  subst hf
  exact Triple.bind (writeFrame_inStep hhead) fun _ =>
    Triple.bind (Triple.modify fun _ h => ⟨h.handed, h.next⟩) fun _ =>
      InStep.collectorInvariant.collectResponse_preserves

/-- A request that can be built is handed to the transport. -/
theorem exchange_hands {h : List Bytes} (hbuild : ∀ seq ms, ms < 2 ^ 32 →
      ∃ frame, build seq ms = .ok frame ∧ frame.head? = some (UInt8.ofNat seq)) :
    Triple (fun s => s.wire.handed = h) (exchange build collect)
      (fun _ s => ∃ frame, Extends (h ++ [frame]) s)
      (fun _ s => ∃ frame, Extends (h ++ [frame]) s) := by
  refine Triple.bind (Q := fun s₀ s => s.wire.handed = h ∧ s₀.currentMessageSeq < 2 ^ 32)
    (Triple.get fun s hs => ⟨hs, currentMessageSeq_lt s⟩) fun s₀ => Triple.assume fun hms => ?_
  have htake : Triple (fun s => s.wire.handed = h) MotuUsbDatastore.nextHostSeq
      (fun _ s => s.wire.handed = h) (fun _ s => ∃ frame, Extends (h ++ [frame]) s) := fun _ hs => hs
  refine Triple.bind htake fun seq => ?_
  obtain ⟨frame, hb, -⟩ := hbuild seq s₀.currentMessageSeq hms
  rw [hb]
  have hrest : Triple (fun s => h ++ [frame] <+: s.wire.handed ++ [frame])
      (do writeFrame frame; advanceMessageSeq; collectResponse (collect s₀.currentMessageSeq))
      (fun _ => Extends (h ++ [frame])) (fun _ => Extends (h ++ [frame])) :=
    Triple.bind writeFrame_extends fun _ => Triple.bind (Triple.modify fun _ hs => hs) fun _ =>
      Extends.collectorInvariant.collectResponse_preserves
  refine Triple.bind (Q := fun f s => s.wire.handed = h ∧ f = frame)
    (Triple.pure fun _ hs => ⟨hs, rfl⟩) fun f => Triple.assume fun hf => ?_
  subst hf
  exact hrest.conseq (fun s hs => ⟨[], by rw [hs, List.append_nil]⟩) (fun _ _ hs => ⟨_, hs⟩)
    fun _ _ hs => ⟨_, hs⟩

/-- A request that cannot be built hands nothing to the transport, and moves the sequencer on. -/
theorem exchange_unbuildable
    (hbuild : ∀ frame, build s.hostSeq s.currentMessageSeq ≠ .ok frame) :
    ∃ e, exchange build collect s = .error e { s with hostSeq := Protocol.nextHostSeq s.hostSeq } := by
  cases hb : build s.hostSeq s.currentMessageSeq with
  | ok frame => exact absurd hb (hbuild frame)
  | error e =>
    refine ⟨e, ?_⟩
    have hget : (MonadState.get : Proc MotuUsbDatastore) s = .ok s s := rfl
    have htake : MotuUsbDatastore.nextHostSeq s =
      .ok s.hostSeq { s with hostSeq := Protocol.nextHostSeq s.hostSeq } := rfl
    refine (EStateM.bind_ok hget).trans ((EStateM.bind_ok htake).trans ?_)
    rw [hb]
    exact EStateM.bind_error rfl

end

namespace Operation

theorem Buildable.get {g : GetArgs} (h : (get g).Buildable) (seq ms : Nat) (hms : ms < 2 ^ 32) :
    ∃ frame, buildGetFrame seq ms g.path g.etag (py "NREK") g.client g.queryFields = .ok frame ∧
      frame.head? = some (UInt8.ofNat seq) := by
  obtain ⟨_, hframe⟩ := h
  obtain ⟨frame, h⟩ : ∃ frame, buildGetFrame seq ms g.path g.etag (py "NREK") g.client
    g.queryFields = .ok frame := buildGetFrame_renumber hframe hms
  exact ⟨frame, h, head_build (q := .get seq ms g.path g.etag (py "NREK") g.client g.queryFields) h⟩

theorem Buildable.post {p : PostArgs} (h : (post p).Buildable) (seq ms : Nat) (hms : ms < 2 ^ 32) :
    ∃ frame, buildPostFrame seq ms p.path p.jsonBody (py "NREK") p.client = .ok frame ∧
      frame.head? = some (UInt8.ofNat seq) := by
  obtain ⟨_, hframe⟩ := h
  obtain ⟨frame, h⟩ : ∃ frame, buildPostFrame seq ms p.path p.jsonBody (py "NREK") p.client =
    .ok frame := buildPostFrame_renumber hframe hms
  exact ⟨frame, h, head_build (q := .post seq ms p.path p.jsonBody (py "NREK") p.client) h⟩

/-- What every end of an operation has, the session after it has. -/
theorem after_of_triple {op : Operation} {P I : MotuUsbDatastore → Prop}
    (h : Triple P op.exec (fun _ => I) (fun _ => I)) (hs : P s) : I (op.after s) := by
  have := h s hs
  unfold after
  cases hx : op.exec s with
  | ok a s' => rw [hx] at this; exact this
  | error e s' => rw [hx] at this; exact this

/-- All frames of an operation whose request can be built are in step. -/
theorem Buildable.inStep {op : Operation} (h : op.Buildable) (hs : InStep start s) :
    InStep start (op.after s) := by
  refine after_of_triple ?_ hs
  cases op with
  | init =>
    exact Triple.bind nextHostSeq_taken fun _ => Triple.bind (writeFrame_inStep rfl) fun _ =>
      Triple.bind InStep.collectorInvariant.drainLoop_preserves fun _ => Triple.pure fun _ h => h
  | get g => exact Triple.bind (exchange_inStep h.get) fun _ => Triple.pure fun _ h => h
  | post p => exact Triple.bind (exchange_inStep h.post) fun _ => Triple.pure fun _ h => h

theorem Buildable.hands {op : Operation} (h : op.Buildable) :
    (op.after s).wire.handed ≠ s.wire.handed := by
  have hsome : ∃ frame, Extends (s.wire.handed ++ [frame]) (op.after s) := by
    refine after_of_triple (P := (·.wire.handed = s.wire.handed))
      (I := fun s' => ∃ frame, Extends (s.wire.handed ++ [frame]) s') ?_ rfl
    cases op with
    | init =>
      have hinit : Triple (fun s' => s'.wire.handed = s.wire.handed) MotuUsbDatastore.nextHostSeq
          (fun _ s' => s'.wire.handed = s.wire.handed)
          (fun _ s' => ∃ frame, Extends (s.wire.handed ++ [frame]) s') := fun _ hs => hs
      refine Triple.bind hinit fun seq => ?_
      have hrest : Triple (Extends (s.wire.handed ++ [buildInit seq])) (discard (drainQuiet 1 16))
          (fun _ => Extends (s.wire.handed ++ [buildInit seq]))
          (fun _ => Extends (s.wire.handed ++ [buildInit seq])) :=
        Triple.bind Extends.collectorInvariant.drainLoop_preserves fun _ => Triple.pure fun _ h => h
      refine (Triple.bind writeFrame_extends fun _ => hrest).conseq (fun s' hs => ?_)
        (fun _ _ hs => ⟨_, hs⟩) fun _ _ hs => ⟨_, hs⟩
      exact ⟨[], by rw [hs, List.append_nil]⟩
    | get g => exact Triple.bind (exchange_hands h.get) fun _ => Triple.pure fun _ h => h
    | post p => exact Triple.bind (exchange_hands h.post) fun _ => Triple.pure fun _ h => h
  obtain ⟨frame, hsome⟩ := hsome
  intro heq
  have hlen := hsome.length_le
  rw [heq] at hlen
  simp at hlen

/-- An operation whose request cannot be built only moves the sequencer on. -/
theorem after_of_not_buildable {op : Operation} (h : ¬op.Buildable) :
    op.after s = { s with hostSeq := Protocol.nextHostSeq s.hostSeq } := by
  have hexec {x : Proc Bytes} {s' : MotuUsbDatastore} (hx : ∃ e, x s = .error e s') :
      ∃ e, (discard x : Proc Unit) s = .error e s' := by
    obtain ⟨e, hx⟩ := hx
    exact ⟨e, EStateM.bind_error hx⟩
  have hraise : ∃ e, op.exec s = .error e { s with hostSeq := Protocol.nextHostSeq s.hostSeq } := by
    cases op with
    | init => exact absurd trivial h
    | get g => exact hexec (exchange_unbuildable fun frame hframe =>
        h (buildGetFrame_renumber hframe (Nat.two_pow_pos 32)))
    | post p => exact hexec (exchange_unbuildable fun frame hframe =>
        h (buildPostFrame_renumber hframe (Nat.two_pow_pos 32)))
  obtain ⟨e, he⟩ := hraise
  rw [after, he]

end Operation

/-! ## Runs -/

/-- The numbers on the wire have no gap and no repeat and lie in their range, and an operation that
hands nothing to the transport leaves both sequences alone. -/
structure ContinuousRun (start : Nat) (s : MotuUsbDatastore) (ops : List Operation) : Prop where
  handed : handedSeqs (afterOperations s ops) =
    hostSeqs start (afterOperations s ops).wire.handed.length
  range : ∀ k, 0x20 ≤ hostSeqAt start k ∧ hostSeqAt start k ≤ 0x3F
  unsent : ∀ pre op post, ops = pre ++ op :: post →
    (op.after (afterOperations s pre)).wire.handed = (afterOperations s pre).wire.handed →
    (op.after (afterOperations s pre)).hostSeq = (afterOperations s pre).hostSeq ∧
    (op.after (afterOperations s pre)).messageSeq = (afterOperations s pre).messageSeq

theorem InStep.afterOperations (hs : InStep start s) (h : ∀ op ∈ ops, Operation.Buildable op) :
    InStep start (afterOperations s ops) := by
  induction ops generalizing s with
  | nil => exact hs
  | cons op ops ih =>
    exact ih ((h op List.mem_cons_self).inStep hs) fun o ho => h o (List.mem_cons_of_mem _ ho)

theorem InStep.new {wire : Wire} {messageSeq : Int}
    (h : MotuUsbDatastore.new wire start messageSeq = .ok s) (hwire : wire.handed = []) :
    ValidHostSeq start ∧ InStep start s := by
  simp only [MotuUsbDatastore.new, except_bind_eq_ok, pure, Except.pure, Except.ok.injEq] at h
  obtain ⟨seq, hseq, rfl⟩ := h
  obtain ⟨hvalid, rfl⟩ := validateHostSeq_eq_ok.mp hseq
  exact ⟨hvalid, by simp [handedSeqs, hostSeqs, hwire], by simp [hostSeqAt, hwire]⟩

/-- Up to its first request that cannot be built, a run is in step, and that request is not. -/
theorem ContinuousRun.buildable (hvalid : ValidHostSeq start) (hs : InStep start s)
    (h : ContinuousRun start s ops) {pre post : List Operation} (hops : ops = pre ++ post) :
    ∀ op ∈ pre, op.Buildable := by
  induction pre using List.reverseRecOn generalizing post with
  | nil => exact List.forall_mem_nil _
  | append_singleton pre op ih =>
    rw [List.append_assoc] at hops
    have hpre := ih hops
    refine List.forall_mem_append.mpr ⟨hpre, List.forall_mem_singleton.mpr ?_⟩
    by_contra hop
    have hunsent := h.unsent pre op post hops
    rw [Operation.after_of_not_buildable hop] at hunsent
    have hnext := (hunsent rfl).1
    rw [(hs.afterOperations hpre).next] at hnext
    exact nextHostSeq_ne (validHostSeq_hostSeqAt hvalid) hnext

/-- The numbers on the wire are continuous if and only if every request of the run can be built. -/
theorem host_sequence_iff {start : Nat} {messageSeq : Int} {wire : Wire} {s : MotuUsbDatastore}
    (hnew : MotuUsbDatastore.new wire start messageSeq = .ok s) (hwire : wire.handed = [])
    (ops : List Operation) :
    ContinuousRun start s ops ↔ ∀ op ∈ ops, op.Buildable := by
  obtain ⟨hvalid, hs⟩ := InStep.new hnew hwire
  constructor
  · intro h
    exact h.buildable hvalid hs (List.append_nil ops).symm
  · intro h
    refine ⟨(hs.afterOperations h).handed, fun k => ?_, fun pre op post hops hunsent => ?_⟩
    · have := validHostSeq_hostSeqAt (k := k) hvalid
      simp only [ValidHostSeq, HOST_SEQ_MIN, HOST_SEQ_MAX_EXCLUSIVE, HOST_SEQ_COUNT] at this
      omega
    · refine absurd hunsent (h op ?_).hands
      rw [hops]
      exact List.mem_append_right _ List.mem_cons_self

/-- A session over a transport that writes everything and reads nothing. -/
def freshSession : MotuUsbDatastore := {}

theorem host_sequence_init_get :
    MotuUsbDatastore.new {} 0x20 2 = .ok freshSession ∧
      ContinuousRun 0x20 freshSession [.init, .get { path := py "/datastore" }] := by
  have hnew : MotuUsbDatastore.new {} 0x20 2 = .ok freshSession := rfl
  refine ⟨hnew, (host_sequence_iff hnew rfl _).mpr fun op hop => ?_⟩
  rcases List.mem_cons.mp hop with rfl | hop
  · trivial
  · cases List.mem_singleton.mp hop
    exact ok_of_isOk (by decide +kernel)

/-! ## A path that does not fit -/

theorem length_le_utf8Encode (h : utf8Encode s = some data) : s.length ≤ data.length := by
  induction s generalizing data with
  | nil => exact Nat.zero_le _
  | cons c s ih =>
    unfold utf8Encode at h
    split at h
    · cases h
    · obtain ⟨tail, htail, rfl⟩ := Option.map_eq_some_iff.mp h
      have hchar : 0 < (utf8Char c).length := by
        unfold utf8Char
        split <;> (try split) <;> (try split) <;> simp
      have := ih htail
      rw [List.length_cons, List.length_append]
      omega

/-- A path that goes into a frame leaves room for the rest of it. -/
theorem length_path_le (h : buildGetFrame seq ms path etag header client fields = .ok frame) :
    path.length + 61 < 256 ^ 2 := by
  obtain ⟨r, hwire, -, hfits⟩ := get_layout h
  have hpay := hfits.payload
  simp only [RequestArgs.wire, Option.pure_def, Option.bind_eq_bind, Option.bind_eq_some_iff,
    Option.some.injEq] at hwire
  obtain ⟨_, -, data, hdata, _, -, _, -, rfl⟩ := hwire
  have hlen := length_le_utf8Encode hdata
  simp only [WireRequest.payload, WireRequest.request, List.length_append, length_sizedBytes,
    length_pairBytes, length_leBytes] at hpay
  have hname : (ascii "If-None-Match").length = 13 := by decide
  have hmethod : (ascii "GET").length = 3 := by decide
  have hutom : UTOM.length = 4 := by decide
  omega

/-- A path that a request line can hold, but a frame cannot. -/
def longPath : Str := py "/datastore/" ++ List.replicate 65480 0x61

theorem longPath_not_buildable : ¬(Operation.get { path := longPath }).Buildable := by
  rintro ⟨frame, h⟩
  have hle : longPath.length + 61 < 256 ^ 2 := length_path_le h
  have hlen : longPath.length = 65491 := by
    rw [longPath, List.length_append, List.length_replicate]
    rfl
  omega

/-- After a request that cannot be built, the first frame on the wire carries the number 0x21. -/
theorem handedSeqs_of_not_buildable {op : Operation} (h : ¬op.Buildable) :
    handedSeqs (afterOperations freshSession [op, .get { path := py "/datastore" }]) = [some 0x21] := by
  have hafter : afterOperations freshSession [op, .get { path := py "/datastore" }] =
      Operation.after { hostSeq := 0x21 } (.get { path := py "/datastore" }) := by
    have hs : { freshSession with hostSeq := Protocol.nextHostSeq freshSession.hostSeq } =
      { hostSeq := 0x21 } := by decide
    rw [afterOperations, List.foldl_cons, List.foldl_cons, List.foldl_nil,
      Operation.after_of_not_buildable h, hs]
  rw [hafter]
  decide +kernel

/-- The request for the long path raises and uses up the number 0x20, so the next request is the
first frame on the wire and carries 0x21. -/
theorem host_sequence_gap :
    ¬ContinuousRun 0x20 freshSession [.get { path := longPath }, .get { path := py "/datastore" }] ∧
    handedSeqs (afterOperations freshSession
      [.get { path := longPath }, .get { path := py "/datastore" }]) = [some 0x21] := by
  refine ⟨fun h => ?_, handedSeqs_of_not_buildable longPath_not_buildable⟩
  have hnew : MotuUsbDatastore.new {} 0x20 2 = .ok freshSession := rfl
  obtain ⟨hvalid, hs⟩ := InStep.new hnew rfl
  exact longPath_not_buildable (h.buildable hvalid hs (List.append_nil _).symm _ List.mem_cons_self)

end Datastore

end MotuProxy
