import MotuProxy.Verify.Collector
import MotuProxy.Verify.HostSequence

/-! # The accounts of the collector

A call of `_collect_response` reads packets, whatever they are, and counts each of them once. It
answers the frames that it accepts and the packets under another message sequence with an
acknowledgement each, and it answers nothing else. `Counted` is the account that the variables of
the loop keep of the packets read so far, and `Answered` the account on the wire. One pass keeps
both or raises (`handlePacket_counted`), so the loop does (`collectLoop_counted`).

The model bounds the passes of the loop. With fewer passes than the collector may read, it stops
just before the read that follows them, so the accounts hold before each read of a call.
-/

namespace MotuProxy

open Py Protocol Responses

namespace Datastore

/-! ## Packets -/

/-- The results of the next `n` reads of a logical frame, and the reads that they leave. -/
def nextReads (b : Bool) : Nat → List ReadEvent → List (Except Exn Bytes) × List ReadEvent
  | 0, reads => ([], reads)
  | n + 1, reads =>
    let r := readLogicalFrame b reads
    let rest := nextReads b n r.2
    (r.1 :: rest.1, rest.2)

/-- A frame of the expected message sequence. -/
def accepted (a : CollectArgs) (packet : Bytes) : Bool :=
  (parseResponseFrame packet a.expectedMessageSeq).isOk

/-- A packet with the header of a response and a message sequence, which is not the expected one. -/
def otherSequence (a : CollectArgs) (packet : Bytes) : Bool :=
  (responseMessageSeq packet).any (· ≠ a.expectedMessageSeq)

/-- A packet that the collector acknowledges. -/
def answered (a : CollectArgs) (packet : Bytes) : Bool :=
  accepted a packet || otherSequence a packet

/-- A packet under the expected message sequence that is not a valid frame. -/
def damaged (a : CollectArgs) (packet : Bytes) : Bool :=
  responseMessageSeq packet = some a.expectedMessageSeq && !accepted a packet

/-- Acknowledgements under consecutive host sequences. -/
def hostAcks (start n : Nat) : List Bytes :=
  (List.range n).map fun k => buildAck (hostSeqAt start k)

theorem nextReads_succ (h : nextReads b n reads = (rs, reads₁))
    (hr : readLogicalFrame b reads₁ = (r, reads₂)) :
    nextReads b (n + 1) reads = (rs ++ [r], reads₂) := by
  induction n generalizing reads rs with
  | zero =>
    cases h
    simp [nextReads, hr]
  | succ n ih =>
    cases h
    have := ih rfl
    rw [nextReads, this]
    simp

theorem hostAcks_succ : hostAcks start (n + 1) =
    hostAcks start n ++ [buildAck (hostSeqAt start n)] := by
  simp [hostAcks, List.range_succ]

section
variable {a : CollectArgs} {packet : Bytes}

theorem accepted_of_parse (h : parseResponseFrame packet a.expectedMessageSeq = .ok f) :
    accepted a packet = true := by
  simp [accepted, h, Except.isOk, Except.toBool]

theorem not_accepted_of_seq (h : responseMessageSeq packet ≠ some a.expectedMessageSeq) :
    accepted a packet = false := by
  cases hp : parseResponseFrame packet a.expectedMessageSeq with
  | ok f => exact absurd (responseMessageSeq_of_parse hp) h
  | error e => simp [accepted, hp, Except.isOk, Except.toBool]

/-- The parts that a packet can have in the accounts. -/
structure Part (a : CollectArgs) (packet : Bytes) (acc ack ans : Bool) : Prop where
  damaged : damaged a packet = false
  accepted : accepted a packet = acc
  deviceAck : isDeviceAck packet = ack
  answered : answered a packet = ans

theorem part_accepted (h : parseResponseFrame packet a.expectedMessageSeq = .ok f) :
    Part a packet true false true where
  damaged := by simp [Datastore.damaged, accepted_of_parse h]
  accepted := accepted_of_parse h
  deviceAck := (responseMessageSeq_eq_some (responseMessageSeq_of_parse h)).2
  answered := by simp [Datastore.answered, accepted_of_parse h]

theorem part_otherSequence (h : responseMessageSeq packet = some seq)
    (hne : seq ≠ a.expectedMessageSeq) : Part a packet false false true where
  damaged := by simp [Datastore.damaged, h, hne]
  accepted := not_accepted_of_seq (by simp [h, hne])
  deviceAck := (responseMessageSeq_eq_some h).2
  answered := by simp [Datastore.answered, otherSequence, h, hne]

theorem part_none (h : responseMessageSeq packet = none) :
    Part a packet false (isDeviceAck packet) false where
  damaged := by simp [Datastore.damaged, h]
  accepted := not_accepted_of_seq (by simp [h])
  deviceAck := rfl
  answered := by simp [Datastore.answered, otherSequence, h, not_accepted_of_seq (a := a)]

end

/-! ## One packet -/

/-- The account that the variables keep of the packets read. -/
structure Counted (a : CollectArgs) (packets : List Bytes) (c : Collect) : Prop where
  reads : c.reads = packets.length
  frames : c.frames.length = packets.countP (accepted a)
  total : c.total = ((packets.filter (accepted a)).map List.length).sum
  deviceAcks : c.ackPackets = packets.countP isDeviceAck
  sum : c.reads = c.frames.length + c.ignoredPackets + c.ackPackets + packets.countP List.isEmpty
  undamaged : ∀ packet ∈ packets, damaged a packet = false

/-- What one packet adds to the variables. -/
structure Books (a : CollectArgs) (c : Collect) (packet : Bytes) (c' : Collect) : Prop where
  reads : c'.reads = c.reads
  frames : c'.frames.length = c.frames.length + (accepted a packet).toNat
  total : c'.total = c.total + if accepted a packet then packet.length else 0
  deviceAcks : c'.ackPackets = c.ackPackets + (isDeviceAck packet).toNat
  sum : c'.frames.length + c'.ignoredPackets + c'.ackPackets =
    c.frames.length + c.ignoredPackets + c.ackPackets + 1

section
variable {a : CollectArgs} {c : Collect} {packet : Bytes}

theorem ignorePacket_books {ack : Bool} (hacc : accepted a packet = false)
    (hack : isDeviceAck packet = false) :
    Books a c packet (ignorePacket a { c with quietReads := 0 } ack).next where
  reads := rfl
  frames := by simp [hacc, ignorePacket]
  total := by simp [hacc, ignorePacket]
  deviceAcks := by simp [hack, ignorePacket]
  sum := by simp only [ignorePacket]; omega

theorem currentFrame_books (hp : parseResponseFrame packet a.expectedMessageSeq = .ok f) :
    Books a c packet (currentFrame a { c with quietReads := 0 } packet f).next := by
  have hpart := part_accepted hp
  refine ⟨?_, ?_, ?_, ?_, ?_⟩
  · rw [currentFrame_next]
  · simp [currentFrame_next, hpart.accepted]
  · simp [currentFrame_next, hpart.accepted]
  · simp [currentFrame_next, hpart.deviceAck]
  · simp only [currentFrame_next, List.length_append, List.length_singleton]; omega

theorem currentFrame_ack (h : (currentFrame a c packet f).early = none) :
    (currentFrame a c packet f).ack = true := by
  unfold currentFrame at h ⊢
  simp only at h ⊢
  split at h
  · cases h
  · rw [if_neg ‹_›]
    split <;> rfl

theorem staleFrame_books (hseq : responseMessageSeq packet = some seq)
    (hne : seq ≠ a.expectedMessageSeq) :
    Books a c packet (staleFrame a { c with quietReads := 0 } seq packet f).next := by
  have hpart := part_otherSequence hseq hne
  obtain ⟨m, n, t, hnext⟩ := staleFrame_next (a := a) (c := { c with quietReads := 0 }) (m := seq)
    (f := f)
  refine ⟨?_, ?_, ?_, ?_, ?_⟩
  · rw [hnext]
  · simp [hnext, hpart.accepted]
  · simp [hnext, hpart.accepted]
  · simp [hnext, hpart.deviceAck]
  · simp only [hnext]; omega

theorem staleFrame_ack : (staleFrame a c seq packet f).ack = true := by
  unfold staleFrame
  simp only
  split <;> split <;> try split <;> try split
  all_goals rfl

/-- A damaged packet under the expected sequence raises before anything is written. Any other packet
is booked, and acknowledged if it is to be answered and nothing is raised before. -/
theorem react_books (a : CollectArgs) (c : Collect) (packet : Bytes) :
    (damaged a packet = true ∧ ∃ e, (react a c packet).early = some e ∧
      e.kind = .responseFrameError) ∨
    (damaged a packet = false ∧ Books a c packet (react a c packet).next ∧
      ((react a c packet).early = none → (react a c packet).ack = answered a packet)) := by
  have hcase := react_cases a c packet
  generalize react a c packet = r at hcase ⊢
  cases hcase with
  | deviceAck hack =>
    have hnone : responseMessageSeq packet = none := by
      cases hseq : responseMessageSeq packet with
      | none => rfl
      | some seq => simp [(responseMessageSeq_eq_some hseq).2] at hack
    have hpart := part_none (a := a) hnone
    refine .inr ⟨hpart.damaged, ⟨rfl, ?_, ?_, ?_, ?_⟩, fun _ => hpart.answered.symm⟩
    · simp [hpart.accepted]
    · simp [hpart.accepted]
    · simp [hack]
    · simp only; omega
  | damaged hseq hp =>
    refine .inl ⟨?_, _, rfl, responseFrameError_of_error hp⟩
    simp [damaged, accepted, hseq, hp, Except.isOk, Except.toBool]
  | current hp =>
    have hpart := part_accepted hp
    exact .inr ⟨hpart.damaged, currentFrame_books hp, fun hearly => by
      rw [hpart.answered, currentFrame_ack hearly]⟩
  | otherDamaged hseq hne =>
    have hpart := part_otherSequence hseq hne
    exact .inr ⟨hpart.damaged, ignorePacket_books hpart.accepted hpart.deviceAck,
      fun _ => hpart.answered.symm⟩
  | stale hseq hne =>
    have hpart := part_otherSequence hseq hne
    exact .inr ⟨hpart.damaged, staleFrame_books hseq hne, fun _ => by
      rw [hpart.answered, staleFrame_ack]⟩
  | unknown hack hnone =>
    have hpart := part_none (a := a) hnone
    exact .inr ⟨hpart.damaged, ignorePacket_books hpart.accepted hack,
      fun _ => hpart.answered.symm⟩

theorem Counted.book (h : Counted a packets c) (hne : packet ≠ []) (hd : damaged a packet = false)
    (hb : Books a { c with reads := c.reads + 1 } packet c') : Counted a (packets ++ [packet]) c' where
  reads := by rw [hb.reads, h.reads, List.length_append, List.length_singleton]
  frames := by
    rw [hb.frames, h.frames, List.countP_append, List.countP_singleton]
    cases accepted a packet <;> rfl
  total := by
    rw [hb.total, h.total, List.filter_append, List.map_append, List.sum_append]
    cases hacc : accepted a packet <;> simp [hacc]
  deviceAcks := by
    rw [hb.deviceAcks, h.deviceAcks, List.countP_append, List.countP_singleton]
    cases isDeviceAck packet <;> rfl
  sum := by
    have hempty : packet.isEmpty = false := by cases packet with
      | nil => exact absurd rfl hne
      | cons => rfl
    have hsum := hb.sum
    have := h.sum
    rw [hb.reads, List.countP_append, List.countP_singleton, hempty]
    simp only at hsum ⊢
    simp only [Bool.false_eq_true, if_false]
    omega
  undamaged := by
    intro p hp
    rcases List.mem_append.mp hp with hp | hp
    · exact h.undamaged p hp
    · rwa [List.mem_singleton.mp hp]

/-- An empty read is counted as such, whether or not it is a quiet one. -/
theorem Counted.empty (h : Counted a packets c) (hreads : c'.reads = c.reads + 1)
    (hframes : c'.frames = c.frames) (htotal : c'.total = c.total)
    (hacks : c'.ackPackets = c.ackPackets) (hignored : c'.ignoredPackets = c.ignoredPackets) :
    Counted a (packets ++ [[]]) c' where
  reads := by rw [hreads, h.reads, List.length_append, List.length_singleton]
  frames := by rw [hframes, h.frames, List.countP_append]; rfl
  total := by
    have hempty : accepted a [] = false := rfl
    rw [htotal, h.total, List.filter_append]
    simp [hempty]
  deviceAcks := by rw [hacks, h.deviceAcks, List.countP_append]; rfl
  sum := by
    have := h.sum
    rw [hreads, hframes, hacks, hignored, List.countP_append, List.countP_singleton]
    simp only [List.isEmpty_nil, if_true]
    omega
  undamaged := by
    intro p hp
    rcases List.mem_append.mp hp with hp | hp
    · exact h.undamaged p hp
    · rw [List.mem_singleton.mp hp]; rfl

end

/-! ## The wire -/

/-- The reads of the call so far, which leave the remembered response alone. -/
structure Heard (a : CollectArgs) (s₀ : MotuUsbDatastore) (packets : List Bytes)
    (s : MotuUsbDatastore) : Prop where
  reads : nextReads a.useCancellableRead packets.length s₀.wire.reads =
    (packets.map .ok, s.wire.reads)
  payload : s.lastResponsePayload = s₀.lastResponsePayload
  etag : s.lastResponseEtag = s₀.lastResponseEtag

/-- The frames handed to the transport are `k` acknowledgements, all of them written. -/
structure Acked (s₀ : MotuUsbDatastore) (k : Nat) (s : MotuUsbDatastore) : Prop where
  handed : s.wire.handed = s₀.wire.handed ++ hostAcks s₀.hostSeq k
  delivered : s.wire.delivered = s₀.wire.delivered ++ hostAcks s₀.hostSeq k
  hostSeq : s.hostSeq = hostSeqAt s₀.hostSeq k

/-- What is left after the call has raised `e`: the remembered response is the one before the call,
and if a packet read is damaged, it is the last one, the exception says so, and only the packets
before it are acknowledged. -/
structure Failure (a : CollectArgs) (s₀ : MotuUsbDatastore) (e : Exn) (s : MotuUsbDatastore) :
    Prop where
  payload : s.lastResponsePayload = s₀.lastResponsePayload
  etag : s.lastResponseEtag = s₀.lastResponseEtag
  damaged : ∃ packets rest,
    nextReads a.useCancellableRead packets.length s₀.wire.reads = (packets.map .ok, rest) ∧
    (s.wire.reads = rest ∨
      ∃ e', readLogicalFrame a.useCancellableRead rest = (.error e', s.wire.reads)) ∧
    ∀ packet ∈ packets, damaged a packet = true → e.kind = .responseFrameError ∧
      ∃ earlier, packets = earlier ++ [packet] ∧
        s.wire.handed = s₀.wire.handed ++ hostAcks s₀.hostSeq (earlier.countP (answered a))

section
variable {a : CollectArgs} {c : Collect} {packet : Bytes} {packets : List Bytes}
  {s₀ s : MotuUsbDatastore}

open MotuUsbDatastore

theorem Heard.failure (h : Heard a s₀ packets s)
    (hd : ∀ packet ∈ packets, damaged a packet = false) : Failure a s₀ e s where
  payload := h.payload
  etag := h.etag
  damaged := ⟨packets, s.wire.reads, h.reads, .inl rfl, fun p hp hbad => by simp [hd p hp] at hbad⟩

/-- The account on the wire. -/
abbrev Accounted (a : CollectArgs) (s₀ : MotuUsbDatastore) (packets : List Bytes) (k : Nat)
    (s : MotuUsbDatastore) : Prop := Heard a s₀ packets s ∧ Acked s₀ k s

theorem Accounted.clockInvariant : ClockInvariant (Accounted a s₀ packets k) where
  cancels _ _ h := ⟨⟨h.1.reads, h.1.payload, h.1.etag⟩, ⟨h.2.handed, h.2.delivered, h.2.hostSeq⟩⟩
  clock _ _ _ h := ⟨⟨h.1.reads, h.1.payload, h.1.etag⟩, ⟨h.2.handed, h.2.delivered, h.2.hostSeq⟩⟩
  stats _ _ h := ⟨⟨h.1.reads, h.1.payload, h.1.etag⟩, ⟨h.2.handed, h.2.delivered, h.2.hostSeq⟩⟩

/-- A frame is written completely or the write raises. -/
theorem writeFrame_sent (frame : Bytes) {s₁ : MotuUsbDatastore} : Triple (· = s₁) (writeFrame frame)
    (fun _ s => s = sent s₁ frame)
    (fun _ s => ∃ w : Wire, s = { s₁ with wire := w } ∧ w.reads = s₁.wire.reads) := by
  rintro s rfl
  cases hw : s.wire.writes with
  | nil =>
    rw [writeFrame, EStateM.bind_ok (by simp only [bulkWrite, hw]; rfl), if_neg (by simp)]
    simp [sent, hw, pure, EStateM.pure]
  | cons event writes =>
    cases event with
    | full =>
      rw [writeFrame, EStateM.bind_ok (by simp only [bulkWrite, hw]; rfl), if_neg (by simp)]
      simp [sent, hw, pure, EStateM.pure]
    | count written =>
      rw [writeFrame, EStateM.bind_ok (by simp only [bulkWrite, hw]; rfl)]
      by_cases hc : written = frame.length
      · rw [if_neg (by simp [hc])]
        simp [sent, hw, hc, pure, EStateM.pure]
      · rw [if_pos hc]
        rw [if_neg hc]
        exact ⟨_, rfl, rfl⟩
    | raise e =>
      rw [writeFrame, EStateM.bind_error (by simp only [bulkWrite, hw]; rfl)]
      exact ⟨_, rfl, rfl⟩

theorem acknowledge_accounted : Triple (Accounted a s₀ packets k) (acknowledge b)
    (fun _ => Accounted a s₀ packets (k + b.toNat)) (fun _ => Heard a s₀ packets) := by
  cases b with
  | false => exact Triple.pure fun _ h => h
  | true =>
    intro s ⟨hh, hk⟩
    have hwrite := writeFrame_sent (buildAck s.hostSeq)
      { s with hostSeq := Protocol.nextHostSeq s.hostSeq } rfl
    have hack : acknowledge true s = writeFrame (buildAck s.hostSeq)
        { s with hostSeq := Protocol.nextHostSeq s.hostSeq } := rfl
    rw [hack]
    cases hx : writeFrame (buildAck s.hostSeq) { s with hostSeq := Protocol.nextHostSeq s.hostSeq } with
    | ok u s' =>
      rw [hx] at hwrite
      subst hwrite
      refine ⟨⟨hh.reads, hh.payload, hh.etag⟩, ?_, ?_, ?_⟩
      · simp only [sent, Bool.toNat_true, hostAcks_succ, hk.handed, hk.hostSeq, List.append_assoc]
      · simp only [sent, Bool.toNat_true, hostAcks_succ, hk.delivered, hk.hostSeq, List.append_assoc]
      · simp only [sent, Bool.toNat_true, hostSeqAt_succ, hk.hostSeq]
    | error e s' =>
      rw [hx] at hwrite
      obtain ⟨w, rfl, hw⟩ := hwrite
      exact ⟨by rw [hh.reads, hw], hh.payload, hh.etag⟩

theorem readPacket_accounted (hd : ∀ packet ∈ packets, damaged a packet = false) :
    Triple (Accounted a s₀ packets k) (readPacket a started c)
      (fun packet => Accounted a s₀ (packets ++ [packet]) k) (Failure a s₀) := by
  intro s ⟨hh, hk⟩
  cases hr : readLogicalFrame a.useCancellableRead s.wire.reads with
  | mk r reads =>
    cases r with
    | ok packet =>
      simp only [readPacket, readFrame, hr]
      refine ⟨⟨?_, hh.payload, hh.etag⟩, ⟨hk.handed, hk.delivered, hk.hostSeq⟩⟩
      simpa using nextReads_succ hh.reads hr
    | error e =>
      have hfail {s' : MotuUsbDatastore} {e' : Exn} (hreads : s'.wire.reads = reads)
          (hpay : s'.lastResponsePayload = s.lastResponsePayload)
          (hetag : s'.lastResponseEtag = s.lastResponseEtag) : Failure a s₀ e' s' :=
        ⟨hpay.trans hh.payload, hetag.trans hh.etag, packets, s.wire.reads, hh.reads,
          .inr ⟨e, by rw [hr, hreads]⟩, fun p hp hbad => by simp [hd p hp] at hbad⟩
      simp only [readPacket, readFrame, hr]
      by_cases hkind : e.kind = .datastoreCancelled
      · rw [if_pos hkind]
        have hI : ClockInvariant fun s' : MotuUsbDatastore => s'.wire.reads = reads ∧
            s'.lastResponsePayload = s.lastResponsePayload ∧
            s'.lastResponseEtag = s.lastResponseEtag := ⟨fun _ _ h => h, fun _ _ _ h => h, fun _ _ h => h⟩
        exact (hI.failWith_preserves.conseq (fun _ h => h) (fun _ _ h => h) fun e' s' h =>
          hfail h.1 h.2.1 h.2.2) _ ⟨rfl, rfl, rfl⟩
      · rw [if_neg hkind]
        exact hfail rfl rfl rfl

/-- One packet is counted and answered, or the call fails. -/
theorem handlePacket_counted (h : Counted a packets c) :
    Triple (Accounted a s₀ (packets ++ [packet]) (packets.countP (answered a)))
      (handlePacket a started deadline { c with reads := c.reads + 1 } packet)
      (fun x s => Accounted a s₀ (packets ++ [packet]) ((packets ++ [packet]).countP (answered a)) s ∧
        Counted a (packets ++ [packet]) x.1) (Failure a s₀) := by
  refine Triple.ite (fun hempty => ?_) fun hne => ?_
  · subst hempty
    have hcount : (packets ++ [[]]).countP (answered a) = packets.countP (answered a) := by
      rw [List.countP_append]
      rfl
    rw [hcount]
    refine Triple.bind Accounted.clockInvariant.sliceOnly_preserves fun again =>
      Triple.pure fun _ hs => ⟨hs, ?_⟩
    cases again <;> exact h.empty rfl rfl rfl rfl rfl
  · have hcount : (packets ++ [packet]).countP (answered a) =
        packets.countP (answered a) + (answered a packet).toNat := by
      rw [List.countP_append, List.countP_singleton]
      cases answered a packet <;> rfl
    have hundamaged (hd : damaged a packet = false) :
        ∀ p ∈ packets ++ [packet], damaged a p = false := by
      intro p hp
      rcases List.mem_append.mp hp with hp | hp
      · exact h.undamaged p hp
      · rwa [List.mem_singleton.mp hp]
    rcases react_books a { c with reads := c.reads + 1 } packet with
      ⟨hd, e, hearly, hkind⟩ | ⟨hd, hb, hack⟩
    · -- the exception comes before the acknowledgement
      unfold perform
      rw [hearly]
      refine Triple.bind (Q := fun _ _ => False) ?_ fun _ _ hf => hf.elim
      refine Accounted.clockInvariant.failWith_raises.conseq (fun _ hs => hs) (fun _ _ hs => hs)
        fun e' s' ⟨he, hs⟩ => ?_
      refine ⟨hs.1.payload, hs.1.etag, _, _, hs.1.reads, .inl rfl, fun p hp hbad => ?_⟩
      rw [he]
      refine ⟨hkind, packets, ?_, hs.2.handed⟩
      rcases List.mem_append.mp hp with hp | hp
      · simp [h.undamaged p hp] at hbad
      · rw [List.mem_singleton.mp hp]
    · have hfail (e : Exn) (s : MotuUsbDatastore) (hs : Heard a s₀ (packets ++ [packet]) s) :
          Failure a s₀ e s := hs.failure (hundamaged hd)
      unfold perform
      cases hearly : (react a { c with reads := c.reads + 1 } packet).early with
      | some e =>
        refine Triple.bind (Q := fun _ _ => False) ?_ fun _ _ hf => hf.elim
        exact Accounted.clockInvariant.failWith_preserves.conseq (fun _ hs => hs) (fun _ _ hs => hs)
          fun e s hs => hfail e s hs.1
      | none =>
        rw [hack hearly, hcount]
        refine Triple.bind (Triple.pure fun _ hs => hs) fun _ => Triple.bind
          (acknowledge_accounted.conseq (fun _ hs => hs) (fun _ _ hs => hs) hfail) fun _ =>
          Triple.bind (Accounted.clockInvariant.raiseIf_preserves.conseq (fun _ hs => hs)
            (fun _ _ hs => hs) fun e s hs => hfail e s hs.1) fun _ => Triple.pure fun _ hs => ?_
        exact ⟨hs, h.book hne hd hb⟩

/-- The account of the packets read so far. -/
def Balanced (a : CollectArgs) (s₀ : MotuUsbDatastore) (c : Collect) (s : MotuUsbDatastore) : Prop :=
  ∃ packets, Accounted a s₀ packets (packets.countP (answered a)) s ∧ Counted a packets c

theorem beforeRead_accounted (h : Counted a packets c) :
    Triple (Accounted a s₀ packets k) (beforeRead a started deadline c)
      (fun _ => Accounted a s₀ packets k) (Failure a s₀) :=
  Accounted.clockInvariant.beforeRead_preserves.conseq (fun _ hs => hs) (fun _ _ hs => hs)
    fun _ _ hs => hs.1.failure h.undamaged

theorem collectLoop_counted (h : Counted a packets c) :
    Triple (Accounted a s₀ packets (packets.countP (answered a)))
      (collectLoop a started deadline n c) (Balanced a s₀) (Failure a s₀) := by
  induction n generalizing c packets with
  | zero =>
    exact Triple.ite (fun _ => Triple.pure fun _ hs => ⟨packets, hs, h⟩) fun _ =>
      Triple.bind (beforeRead_accounted h) fun _ => Triple.pure fun _ hs => ⟨packets, hs, h⟩
  | succ n ih =>
    refine Triple.ite (fun _ => Triple.pure fun _ hs => ⟨packets, hs, h⟩) fun _ =>
      Triple.bind (beforeRead_accounted h) fun _ =>
      Triple.bind (readPacket_accounted h.undamaged) fun packet =>
      Triple.bind (handlePacket_counted h) fun r => Triple.assume fun hr => ?_
    exact Triple.ite (fun _ => Triple.pure fun _ hs => ⟨_, hs, hr⟩) fun _ => ih hr

/-- What the call has recorded when it returns. -/
structure Recorded (a : CollectArgs) (s₀ s : MotuUsbDatastore) (stats : ResponseStats)
    (packets : List Bytes) : Prop where
  recorded : s.lastResponseStats = some stats
  reads : nextReads a.useCancellableRead stats.reads s₀.wire.reads =
    (packets.map .ok, s.wire.reads)
  handed : s.wire.handed = s₀.wire.handed ++ hostAcks s₀.hostSeq (packets.countP (answered a))
  delivered : s.wire.delivered =
    s₀.wire.delivered ++ hostAcks s₀.hostSeq (packets.countP (answered a))
  undamaged : ∀ packet ∈ packets, damaged a packet = false
  sum : stats.reads = stats.acceptedFrames + stats.ignoredPackets + stats.ackPackets +
    packets.countP List.isEmpty
  acceptedFrames : stats.acceptedFrames = packets.countP (accepted a)
  ackPackets : stats.ackPackets = packets.countP isDeviceAck
  responseBytes : stats.responseBytes = ((packets.filter (accepted a)).map List.length).sum

theorem Counted.recorded (h : Counted a packets c) {started : Nat} :
    Triple (fun s => nextReads a.useCancellableRead packets.length s₀.wire.reads =
        (packets.map .ok, s.wire.reads) ∧ Acked s₀ (packets.countP (answered a)) s)
      (recordResponseStats a.timeoutMs started c)
      (fun _ s => ∃ stats, Recorded a s₀ s stats packets) (Failure a s₀) := by
  have hI : ClockInvariant fun s => nextReads a.useCancellableRead packets.length s₀.wire.reads =
      (packets.map .ok, s.wire.reads) ∧ Acked s₀ (packets.countP (answered a)) s :=
    ⟨fun _ _ h => ⟨h.1, h.2.handed, h.2.delivered, h.2.hostSeq⟩,
      fun _ _ _ h => ⟨h.1, h.2.handed, h.2.delivered, h.2.hostSeq⟩,
      fun _ _ h => ⟨h.1, h.2.handed, h.2.delivered, h.2.hostSeq⟩⟩
  refine Triple.bind hI.monotonic_preserves fun now => Triple.modify fun s hs => ⟨_, {
    recorded := rfl
    reads := by rw [h.reads]; exact hs.1
    handed := hs.2.handed
    delivered := hs.2.delivered
    undamaged := h.undamaged
    sum := h.sum
    acceptedFrames := h.frames
    ackPackets := h.deviceAcks
    responseBytes := h.total }⟩

theorem finish_recorded : Triple (Balanced a s₀ c) (finish a started c)
    (fun _ s => ∃ stats packets, Recorded a s₀ s stats packets) (Failure a s₀) := by
  intro s ⟨packets, hs, hc⟩
  have hfail {Q : Bytes → MotuUsbDatastore → Prop} {e : Exn} :
      Triple (Accounted a s₀ packets (packets.countP (answered a))) (failWith a started c e) Q
        (Failure a s₀) :=
    Accounted.clockInvariant.failWith_preserves.conseq (fun _ hs => hs) (fun _ _ hs => hs)
      fun _ _ hs => hs.1.failure hc.undamaged
  refine Triple.ite (fun _ => hfail) (fun _ => ?_) s hs
  cases joinParsedResponseFrames c.frames with
  | error e => exact hfail
  | ok response =>
    refine Triple.bind (Triple.modify (Q := fun _ s => nextReads a.useCancellableRead packets.length
      s₀.wire.reads = (packets.map .ok, s.wire.reads) ∧ Acked s₀ (packets.countP (answered a)) s)
      fun s hs => ⟨hs.1.reads, hs.2.handed, hs.2.delivered, hs.2.hostSeq⟩) fun _ =>
      Triple.bind hc.recorded fun _ => Triple.pure fun s ⟨stats, hr⟩ => ⟨stats, packets, hr⟩

theorem accounted_start (s : MotuUsbDatastore) : Accounted a s [] 0 s :=
  ⟨⟨rfl, rfl, rfl⟩, ⟨by simp [hostAcks], by simp [hostAcks], rfl⟩⟩

theorem counted_start : Counted a [] {} := ⟨rfl, rfl, rfl, rfl, rfl, by simp⟩

/-- The session with the remembered response dropped. -/
def cleared (s : MotuUsbDatastore) : MotuUsbDatastore :=
  { s with lastResponseStats := none, lastResponseEtag := none, lastResponsePayload := none }

theorem collectResponse_recorded : Triple (· = s) (collectResponse a)
    (fun _ s' => ∃ stats packets, Recorded a (cleared s) s' stats packets)
    (Failure a (cleared s)) := by
  have hI : ClockInvariant (Accounted a (cleared s) [] 0) := Accounted.clockInvariant
  refine Triple.bind (Triple.modify (Q := fun _ => Accounted a (cleared s) [] 0) ?_) fun _ =>
    Triple.bind hI.monotonic_preserves fun _ => Triple.bind hI.monotonic_preserves fun _ =>
      Triple.bind (collectLoop_counted counted_start) fun _ => finish_recorded
  intro s' hs
  rw [hs]
  exact accounted_start (cleared s)

/-- A loop that returns after at most `n` passes has made each of its first passes. -/
theorem collectLoop_passes (h : collectLoop a started deadline n c s = .ok c' s') (hk : k ≤ n) :
    ∃ c₁ s₁, collectLoop a started deadline k c s = .ok c₁ s₁ := by
  induction n generalizing k c s with
  | zero => exact ⟨c', s', by rwa [Nat.le_zero.mp hk]⟩
  | succ n ih =>
    by_cases hq : 2 ≤ c.quietReads
    · cases k <;> exact ⟨c, s, by rw [collectLoop, if_pos hq]; rfl⟩
    · rw [collectLoop, if_neg hq] at h
      obtain ⟨_, s₁, hb, h⟩ := EStateM.bind_eq_ok h
      cases k with
      | zero => exact ⟨c, s₁, by rw [collectLoop, if_neg hq, EStateM.bind_ok hb]; rfl⟩
      | succ k =>
        obtain ⟨packet, s₂, hr, h⟩ := EStateM.bind_eq_ok h
        obtain ⟨r, s₃, hp, h⟩ := EStateM.bind_eq_ok h
        rw [collectLoop, if_neg hq, EStateM.bind_ok hb, EStateM.bind_ok hr, EStateM.bind_ok hp]
        by_cases hstop : r.2 = true
        · exact ⟨r.1, s₃, by rw [if_pos hstop]; rfl⟩
        · rw [if_neg hstop] at h ⊢
          exact ih h (by omega)

/-- The accounts of `_collect_response`. A call that returns has acknowledged the frames it accepted
and the packets under another message sequence, in the order of their arrival: before each read the
acknowledgements of the packets read so far are on the wire, and no other frame. Its statistics count
every read once. A call that raises remembers no response, and it raises on a damaged packet under
the expected sequence without an acknowledgement of it. -/
theorem collector_accounts (a : CollectArgs) (s : MotuUsbDatastore) :
    (∀ response s', collectResponse a s = .ok response s' →
      ∃ stats packets, Recorded a s s' stats packets) ∧
    (∀ started deadline n c s', collectLoop a started deadline n {} s = .ok c s' → ∀ k ≤ n,
      ∃ c₁ s₁, ∃ packets : List Bytes, collectLoop a started deadline k {} s = .ok c₁ s₁ ∧
        nextReads a.useCancellableRead c₁.reads s.wire.reads = (packets.map .ok, s₁.wire.reads) ∧
        s₁.wire.handed = s.wire.handed ++ hostAcks s.hostSeq (packets.countP (answered a)) ∧
        s₁.wire.delivered = s.wire.delivered ++ hostAcks s.hostSeq (packets.countP (answered a))) ∧
    ∀ e s', collectResponse a s = .error e s' →
      s'.lastResponsePayload = none ∧ s'.lastResponseEtag = none ∧
      ∃ (packets : List Bytes) (rest : List ReadEvent),
        nextReads a.useCancellableRead packets.length s.wire.reads = (packets.map .ok, rest) ∧
        (s'.wire.reads = rest ∨
          ∃ e', readLogicalFrame a.useCancellableRead rest = (.error e', s'.wire.reads)) ∧
        ∀ packet ∈ packets, damaged a packet = true → e.kind = .responseFrameError ∧
          ∃ earlier, packets = earlier ++ [packet] ∧
            s'.wire.handed = s.wire.handed ++ hostAcks s.hostSeq (earlier.countP (answered a)) := by
  refine ⟨fun response s' h => ?_, fun started deadline n c s' h k hk => ?_, fun e s' h => ?_⟩
  · obtain ⟨stats, packets, hr⟩ := collectResponse_recorded.ok rfl h
    exact ⟨stats, packets, hr.recorded, hr.reads, hr.handed, hr.delivered, hr.undamaged, hr.sum,
      hr.acceptedFrames, hr.ackPackets, hr.responseBytes⟩
  · obtain ⟨c₁, s₁, hx⟩ := collectLoop_passes h hk
    obtain ⟨packets, hs, hc⟩ := (collectLoop_counted counted_start).ok (accounted_start s) hx
    exact ⟨c₁, s₁, packets, hx, by rw [hc.reads]; exact hs.1.reads, hs.2.handed, hs.2.delivered⟩
  · have hf := collectResponse_recorded.error rfl h
    exact ⟨hf.payload, hf.etag, hf.damaged⟩

/-- An acknowledgement of the device, a byte sequence that is no frame, and a response of one frame. -/
def answeredSession : MotuUsbDatastore :=
  { wire := { reads := [.data [1, 0, 8, 0, 1, 0, 8, 0], .data [2, 0, 5, 0, 0xff], .data
    [0x21, 0, 28, 0, 0x4e, 0x52, 0x45, 0x4b, 0, 0, 0, 0, 7, 0, 0, 0, 1, 0, 0, 0, 0, 0, 0, 0,
      0x21, 0, 28, 0]] } }

theorem collector_accounts_answered :
    ∃ s', collectResponse { expectedMessageSeq := 7 } answeredSession = .ok [] s' ∧
      ∃ stats packets, Recorded { expectedMessageSeq := 7 } answeredSession s' stats packets := by
  obtain ⟨s', h⟩ : ∃ s', collectResponse { expectedMessageSeq := 7 } answeredSession = .ok [] s' :=
    ⟨_, rfl⟩
  exact ⟨s', h, (collector_accounts _ _).1 [] s' h⟩

end

end Datastore

end MotuProxy
