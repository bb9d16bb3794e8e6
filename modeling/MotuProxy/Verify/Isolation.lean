import MotuProxy.Verify.CollectorInvariant
import MotuProxy.Verify.Reactions

/-! # Response isolation across a session

The device sends logical frames, each in one or more chunks, and every call ends between two of
them (`Delivery`). It tags each frame of a response with the message sequence of the request
(`Tagged`), and it may send the frames of a request late, more than once, truncated or damaged.

`Kept` is what the collector keeps: it stays between two deliveries, it does not touch the message
sequence, and it writes no request. What it accepts is a frame of the device with the expected
message sequence (`Accepted`). Both go through every step of the loop (`collectLoop_kept`), and the
join of accepted frames is the complete response (`Response.join_eq`).
-/

namespace MotuProxy

open Py Protocol Responses

namespace Datastore

/-! ## Deliveries -/

/-- One thing that a read of a logical frame meets on the IN pipe. -/
inductive Delivery where
  /-- A logical frame, in chunks. -/
  | frame (first : Bytes) (chunks : List Bytes)
  /-- A logical frame whose remainder never arrives: the read times out or raises. -/
  | truncated (first : Bytes) (chunks : List Bytes) (e : Option Exn)
  /-- A chunk that does not start a logical frame. -/
  | runt (chunk : Bytes)
  /-- Nothing before the read times out. -/
  | quiet
  /-- The read raises. -/
  | failed (e : Exn)

namespace Delivery

/-- The read that ends a truncated frame. -/
def stop : Option Exn → ReadEvent
  | none => .data []
  | some e => .raise e

def events : Delivery → List ReadEvent
  | frame first chunks => .data first :: chunks.map .data
  | truncated first chunks e => .data first :: (chunks.map .data ++ [stop e])
  | runt chunk => [.data chunk]
  | quiet => [.data []]
  | failed e => [.raise e]

/-- The bytes `got` lack the chunks `chunks`, the last of which completes the announced length. -/
def Completes (expected : Nat) : Bytes → List Bytes → Prop
  | got, [] => expected ≤ got.length
  | got, chunk :: chunks => got.length < expected ∧ chunk ≠ [] ∧ Completes expected (got ++ chunk) chunks

/-- The chunks `chunks` are not enough for the announced length. -/
def FallsShort (expected : Nat) : Bytes → List Bytes → Prop
  | got, [] => got.length < expected
  | got, chunk :: chunks => got.length < expected ∧ chunk ≠ [] ∧ FallsShort expected (got ++ chunk) chunks

/-- The first chunk of a logical frame holds its header, which announces at least the header. -/
def Starts (first : Bytes) : Prop := 4 ≤ first.length ∧ 4 ≤ first.word 2 2

def WF : Delivery → Prop
  | frame first chunks => Starts first ∧ Completes (first.word 2 2) first chunks
  | truncated first chunks _ => Starts first ∧ FallsShort (first.word 2 2) first chunks
  | runt chunk => chunk ≠ [] ∧ ¬Starts chunk
  | quiet => True
  | failed _ => True

/-- The packet that a complete frame is. -/
def packet? : Delivery → Option Bytes
  | frame first chunks => some (first ++ chunks.flatten)
  | _ => none

end Delivery

section
open Delivery

theorem readChunks_completes {chunks : List Bytes} {got : Bytes}
    (h : Completes expected got chunks) :
    readChunks b expected got (chunks.map .data ++ rest) = (.ok (got ++ chunks.flatten), rest) := by
  induction chunks generalizing got with
  | nil =>
    have hlen : ¬got.length < expected := Nat.not_lt.mpr h
    cases rest <;> simp [readChunks, hlen]
  | cons chunk chunks ih =>
    obtain ⟨hlt, hne, h⟩ := h
    cases chunk with
    | nil => exact absurd rfl hne
    | cons x xs =>
      have := ih h
      simp only [List.append_assoc] at this
      simpa [readChunks, hlt] using this

theorem readChunks_fallsShort {chunks : List Bytes} {got : Bytes}
    (h : FallsShort expected got chunks) (last : Option Exn) :
    ∃ e, readChunks b expected got (chunks.map .data ++ stop last :: t) = (.error e, t) := by
  induction chunks generalizing got with
  | nil =>
    have hlt : got.length < expected := h
    cases last with
    | none => exact ⟨shortUsbFrame got.length expected, by simp [readChunks, stop, hlt]⟩
    | some e => exact ⟨readError b e, by simp [readChunks, stop, hlt]⟩
  | cons chunk chunks ih =>
    obtain ⟨hlt, hne, h⟩ := h
    cases chunk with
    | nil => exact absurd rfl hne
    | cons x xs =>
      obtain ⟨e, he⟩ := ih h
      exact ⟨e, by simpa [readChunks, hlt] using he⟩

/-- A first chunk with a header goes on to the loop. -/
theorem readLogicalFrame_first {first : Bytes} (h : Starts first) :
    readLogicalFrame b (.data first :: reads) = readChunks b (first.word 2 2) first reads := by
  obtain ⟨hlen, hword⟩ := h
  have hne : first ≠ [] := by rintro rfl; simp at hlen
  simp [readLogicalFrame, bulkRead, hne, Nat.not_lt.mpr hlen, Nat.not_lt.mpr hword]

/-- Bytes that do not start a logical frame. -/
theorem readLogicalFrame_runt {first : Bytes} (hne : first ≠ []) (h : ¬Starts first) :
    ∃ message, readLogicalFrame b (.data first :: reads) =
      (.error ⟨.shortUsbFrame, message⟩, reads) := by
  by_cases hlen : first.length < 4
  · exact ⟨_, by simp only [readLogicalFrame, bulkRead, hne, hlen, if_false, if_true]; rfl⟩
  · have hword : first.word 2 2 < 4 := by
      by_contra hw
      exact h ⟨by omega, by omega⟩
    exact ⟨_, by simp only [readLogicalFrame, bulkRead, hne, hlen, hword, if_false, if_true]; rfl⟩

/-- A read that starts between two deliveries takes exactly the next one. -/
theorem readLogicalFrame_delivery {d : Delivery} (b : Bool) (rest : List ReadEvent) (h : d.WF) :
    ∃ r, readLogicalFrame b (d.events ++ rest) = (r, rest) ∧
      ∀ packet, r = .ok packet → packet = [] ∨ d.packet? = some packet := by
  cases d with
  | frame first chunks =>
    obtain ⟨hstart, hc⟩ := h
    refine ⟨.ok (first ++ chunks.flatten), ?_, fun packet hp => .inr (by cases hp; rfl)⟩
    rw [events, List.cons_append, readLogicalFrame_first hstart]
    exact readChunks_completes hc
  | truncated first chunks last =>
    obtain ⟨hstart, hc⟩ := h
    obtain ⟨e, he⟩ := readChunks_fallsShort (b := b) (t := rest) hc last
    refine ⟨.error e, ?_, fun _ hp => by cases hp⟩
    rw [events, List.cons_append, List.append_assoc, List.singleton_append,
      readLogicalFrame_first hstart]
    exact he
  | runt chunk =>
    obtain ⟨hne, hs⟩ := h
    obtain ⟨message, hm⟩ := readLogicalFrame_runt (b := b) hne hs
    exact ⟨_, hm, fun _ hp => by cases hp⟩
  | quiet =>
    exact ⟨.ok [], by simp [events, readLogicalFrame, bulkRead], fun _ hp => .inl (by cases hp; rfl)⟩
  | failed e =>
    exact ⟨.error (readError b e), by simp [events, readLogicalFrame, bulkRead],
      fun _ hp => by cases hp⟩

/-- The pipe stands between two deliveries, and every complete frame in it satisfies `G`. -/
def Aligned (G : Bytes → Prop) (reads : List ReadEvent) : Prop :=
  ∃ ds : List Delivery, reads = ds.flatMap events ∧
    ∀ d ∈ ds, d.WF ∧ ∀ packet, d.packet? = some packet → G packet

theorem readLogicalFrame_aligned {G : Bytes → Prop} (h : Aligned G reads)
    (hr : readLogicalFrame b reads = (r, reads')) :
    Aligned G reads' ∧ ∀ packet, r = .ok packet → packet = [] ∨ G packet := by
  obtain ⟨ds, rfl, hds⟩ := h
  cases ds with
  | nil =>
    simp only [List.flatMap_nil, readLogicalFrame, bulkRead, if_true, Prod.mk.injEq] at hr
    obtain ⟨rfl, rfl⟩ := hr
    exact ⟨⟨[], rfl, by simp⟩, fun _ hp => .inl (by cases hp; rfl)⟩
  | cons d ds =>
    obtain ⟨hwf, hG⟩ := hds d List.mem_cons_self
    obtain ⟨r', hread, hr'⟩ := readLogicalFrame_delivery b (ds.flatMap events) hwf
    rw [List.flatMap_cons, hread] at hr
    cases hr
    refine ⟨⟨ds, rfl, fun d' hd' => hds d' (List.mem_cons_of_mem _ hd')⟩, fun packet hp => ?_⟩
    exact (hr' packet hp).imp_right (hG packet)

end

/-! ## What the collector keeps -/

/-- A frame of the host that is a request, by the second byte of its wrapper. -/
def isRequest (frame : Bytes) : Bool := frame.slice 1 2 = [0x80]

/-- The requests that were written completely, oldest first. -/
def MotuUsbDatastore.requests (s : MotuUsbDatastore) : List Bytes := s.wire.delivered.filter isRequest

/-- A read from a pipe with `A` leaves a pipe with `A`, and what it returns satisfies `G`. -/
def Pipe (A : List ReadEvent → Prop) (G : Bytes → Prop) : Prop :=
  ∀ b reads r reads', A reads → readLogicalFrame b reads = (r, reads') →
    A reads' ∧ ∀ packet, r = .ok packet → packet = [] ∨ G packet

/-- The pipe has `A`, the message sequence is `m` and the requests written are `q`. -/
structure Kept (A : List ReadEvent → Prop) (m : Int) (q : List Bytes) (s : MotuUsbDatastore) :
    Prop where
  pipe : A s.wire.reads
  messageSeq : s.messageSeq = m
  requests : s.requests = q

section
variable {A : List ReadEvent → Prop} {G : Bytes → Prop} {m : Int} {q : List Bytes}

/-- A method that keeps `Kept`, however it ends. -/
abbrev Keeps (A : List ReadEvent → Prop) (m : Int) (q : List Bytes) (x : Proc α) : Prop :=
  Preserves (Kept A m q) x

open MotuUsbDatastore

theorem isRequest_buildAck : isRequest (buildAck seq) = false := rfl

theorem bulkWrite_kept (h : isRequest frame = false) : Keeps A m q (bulkWrite frame) := by
  intro s hs
  have hq : (s.wire.delivered ++ [frame]).filter isRequest = q := by
    have := hs.requests
    simpa [MotuUsbDatastore.requests, h] using this
  cases hw : s.wire.writes with
  | nil => simp only [bulkWrite, hw]; exact ⟨hs.pipe, hs.messageSeq, hq⟩
  | cons event writes =>
    cases event with
    | full => simp only [bulkWrite, hw]; exact ⟨hs.pipe, hs.messageSeq, hq⟩
    | count written =>
      simp only [bulkWrite, hw]
      by_cases hc : written = frame.length
      · rw [if_pos hc]; exact ⟨hs.pipe, hs.messageSeq, hq⟩
      · rw [if_neg hc]; exact ⟨hs.pipe, hs.messageSeq, hs.requests⟩
    | raise e => simp only [bulkWrite, hw]; exact ⟨hs.pipe, hs.messageSeq, hs.requests⟩

theorem writeFrame_kept (h : isRequest frame = false) : Keeps A m q (writeFrame frame) := by
  refine Triple.bind (bulkWrite_kept h) fun written => ?_
  exact Triple.ite (fun _ => Triple.throw fun _ h => h) fun _ => Triple.pure fun _ h => h

theorem nextHostSeq_kept : Keeps A m q MotuUsbDatastore.nextHostSeq :=
  fun _ hs => ⟨hs.pipe, hs.messageSeq, hs.requests⟩

theorem Kept.clockInvariant : ClockInvariant (Kept A m q) where
  cancels _ _ h := ⟨h.pipe, h.messageSeq, h.requests⟩
  clock _ _ _ h := ⟨h.pipe, h.messageSeq, h.requests⟩
  stats _ _ h := ⟨h.pipe, h.messageSeq, h.requests⟩

theorem acknowledge_kept : Keeps A m q (acknowledge b) := by
  cases b with
  | false => exact Triple.pure fun _ h => h
  | true => exact Triple.bind nextHostSeq_kept fun _ => writeFrame_kept isRequest_buildAck

theorem perform_kept : Triple (Kept A m q) (perform a started r)
    (fun x s => Kept A m q s ∧ x.1 = r.next) (fun _ => Kept A m q) :=
  Triple.bind Kept.clockInvariant.raiseIf_preserves fun _ => Triple.bind acknowledge_kept fun _ =>
    Triple.bind Kept.clockInvariant.raiseIf_preserves fun _ => Triple.pure fun _ h => ⟨h, rfl⟩

theorem readPacket_kept (hA : Pipe A G) : Triple (Kept A m q) (readPacket a started c)
    (fun packet s => Kept A m q s ∧ (packet = [] ∨ G packet)) (fun _ => Kept A m q) := by
  intro s hs
  cases hr : readLogicalFrame a.useCancellableRead s.wire.reads with
  | mk r reads =>
    obtain ⟨hal, hG⟩ := hA _ _ _ _ hs.pipe hr
    have hs' : Kept A m q { s with wire := { s.wire with reads } } := ⟨hal, hs.messageSeq, hs.requests⟩
    cases r with
    | ok packet =>
      simp only [readPacket, readFrame, hr]
      exact ⟨hs', hG packet rfl⟩
    | error e =>
      simp only [readPacket, readFrame, hr]
      by_cases hk : e.kind = .datastoreCancelled
      · rw [if_pos hk]
        exact Kept.clockInvariant.failWith_preserves _ hs'
      · rw [if_neg hk]
        exact hs'

/-- Every frame collected comes from a packet that satisfies `G` and has the expected sequence. -/
def Accepted (G : Bytes → Prop) (a : CollectArgs) (c : Collect) : Prop :=
  ∀ f ∈ c.frames, ∃ packet, G packet ∧ parseResponseFrame packet a.expectedMessageSeq = .ok f

/-- A packet adds no frame, or the frame it parses to under the expected sequence. -/
theorem react_frames (a : CollectArgs) (c : Collect) (packet : Bytes) :
    (react a c packet).next.frames = c.frames ∨
      ∃ f, parseResponseFrame packet a.expectedMessageSeq = .ok f ∧
        (react a c packet).next.frames = c.frames ++ [f] := by
  have hcase := react_cases a c packet
  generalize react a c packet = r at hcase ⊢
  cases hcase with
  | current hf => exact .inr ⟨_, hf, currentFrame_frames⟩
  | stale => exact .inl staleFrame_frames
  | deviceAck | damaged | otherDamaged | unknown => exact .inl rfl

theorem Accepted.react (h : Accepted G a c) (hG : G packet) :
    Accepted G a (react a c packet).next := by
  intro f hf
  rcases react_frames a c packet with hr | ⟨f', hp, hr⟩ <;> rw [hr] at hf
  · exact h f hf
  · rcases List.mem_append.mp hf with hf | hf
    · exact h f hf
    · cases List.mem_singleton.mp hf
      exact ⟨packet, hG, hp⟩

theorem handlePacket_kept (hc : Accepted G a c) (hp : packet = [] ∨ G packet) :
    Triple (Kept A m q) (handlePacket a started deadline c packet)
      (fun x s => Kept A m q s ∧ Accepted G a x.1) (fun _ => Kept A m q) := by
  refine Triple.ite (fun _ => ?_) fun hne => ?_
  · refine Triple.bind Kept.clockInvariant.sliceOnly_preserves fun again =>
      Triple.pure fun _ h => ⟨h, ?_⟩
    cases again <;> exact hc
  · have hr := hc.react (hp.resolve_left hne)
    exact perform_kept.conseq (fun _ h => h) (fun _ _ h => ⟨h.1, by rw [h.2]; exact hr⟩)
      fun _ _ h => h

theorem collectLoop_kept (hA : Pipe A G) (hc : Accepted G a c) :
    Triple (Kept A m q) (collectLoop a started deadline n c)
      (fun c' s => Kept A m q s ∧ Accepted G a c') (fun _ => Kept A m q) := by
  induction n generalizing c with
  | zero =>
    exact Triple.ite (fun _ => Triple.pure fun _ h => ⟨h, hc⟩) fun _ =>
      Triple.bind Kept.clockInvariant.beforeRead_preserves fun _ => Triple.pure fun _ h => ⟨h, hc⟩
  | succ n ih =>
    refine Triple.ite (fun _ => Triple.pure fun _ h => ⟨h, hc⟩) fun _ =>
      Triple.bind Kept.clockInvariant.beforeRead_preserves fun _ => Triple.bind (readPacket_kept hA) fun packet => ?_
    refine Triple.assume fun hG => Triple.bind (handlePacket_kept (c := { c with reads := c.reads + 1 })
      hc hG) fun r => Triple.assume fun hr => ?_
    exact Triple.ite (fun _ => Triple.pure fun _ h => ⟨h, hr⟩) fun _ => ih hr

/-- The collector returns the join of frames that satisfy `G` and have the expected sequence. -/
theorem collectResponse_kept (hA : Pipe A G) : Triple (Kept A m q) (collectResponse a)
    (fun response s => Kept A m q s ∧ ∃ c, Accepted G a c ∧ c.frames ≠ [] ∧
      joinParsedResponseFrames c.frames = .ok response) (fun _ => Kept A m q) := by
  refine Triple.bind (Triple.modify fun _ h => ⟨h.pipe, h.messageSeq, h.requests⟩) fun _ =>
    Triple.bind Kept.clockInvariant.monotonic_preserves fun _ => Triple.bind Kept.clockInvariant.monotonic_preserves fun _ =>
      Triple.bind (collectLoop_kept hA (c := {}) fun _ h => by cases h) fun c =>
        Triple.assume fun hc => ?_
  refine Triple.ite (fun _ => Kept.clockInvariant.failWith_preserves) fun hne => ?_
  cases hj : joinParsedResponseFrames c.frames with
  | error e => exact Kept.clockInvariant.failWith_preserves
  | ok response =>
    refine Triple.bind (Triple.modify (Q := fun _ => Kept A m q)
      fun _ h => ⟨h.pipe, h.messageSeq, h.requests⟩) fun _ =>
      Triple.bind Kept.clockInvariant.recordResponseStats_preserves fun _ => Triple.pure fun _ h => ⟨h, c, hc, hne, hj⟩

end

/-! ## Requests -/

/-- The message sequence that a request carries. -/
def frameMessageSeq (frame : Bytes) : Nat := frame.word 4 12

theorem buildMotuFrame_eq_ok (h : buildMotuFrame seq header messageSeq payload = .ok frame) :
    isRequest frame = true ∧ frameMessageSeq frame = messageSeq := by
  simp only [buildMotuFrame, except_bind_eq_ok, ite_error_eq_ok, pure, Except.pure,
    Except.ok.injEq] at h
  obtain ⟨hdr, hhdr, maxLen, -, -, crc, hcrc, ms, hms, fin, hfin, idx, hidx, len, hlen, total,
    htotal, rfl⟩ := h
  have hlen₄ := headerBytes_length hhdr
  obtain ⟨rfl, -⟩ := u32_eq_ok hcrc
  obtain ⟨rfl, hlt⟩ := u32_eq_ok hms
  obtain ⟨rfl, -⟩ := u16_eq_ok htotal
  refine ⟨?_, ?_⟩
  · simp [isRequest, Bytes.slice]
  · have hword (t : Nat) : Bytes.word 4 ([UInt8.ofNat seq, 0x80] ++ leBytes 2 t ++ (hdr ++
        leBytes 4 (crc32 payload) ++ leBytes 4 messageSeq ++ fin ++ idx ++ len ++ payload)) 12 =
        messageSeq := by
      have := Bytes.word_middle (p := [UInt8.ofNat seq, 0x80] ++ leBytes 2 t ++ hdr ++
        leBytes 4 (crc32 payload)) (q := fin ++ idx ++ len ++ payload) (i := 12) (w := 4)
        (n := messageSeq) (by simp [hlen₄]) hlt
      simpa using this
    exact hword _

theorem buildGetFrame_eq_ok
    (h : buildGetFrame seq messageSeq path etag header client fields = .ok frame) :
    isRequest frame = true ∧ frameMessageSeq frame = messageSeq := by
  simp only [buildGetFrame, except_bind_eq_ok] at h
  obtain ⟨_, -, _, -, _, -, _, -, _, -, _, -, _, -, h⟩ := h
  exact buildMotuFrame_eq_ok h

theorem buildPostFrame_eq_ok
    (h : buildPostFrame seq messageSeq path body header client = .ok frame) :
    isRequest frame = true ∧ frameMessageSeq frame = messageSeq := by
  simp only [buildPostFrame, except_bind_eq_ok] at h
  obtain ⟨_, -, _, -, _, -, _, -, _, -, _, -, _, -, _, -, _, -, _, -, _, -, h⟩ := h
  exact buildMotuFrame_eq_ok h

section
variable {A : List ReadEvent → Prop} {G : Bytes → Prop} {m : Int} {q : List Bytes}

open MotuUsbDatastore

/-- A request counts as written exactly when the write succeeds. -/
theorem writeFrame_request (h : isRequest frame = true) :
    Triple (Kept A m q) (writeFrame frame) (fun _ => Kept A m (q ++ [frame]))
      (fun _ => Kept A m q) := by
  intro s hs
  have hq : (s.wire.delivered ++ [frame]).filter isRequest = q ++ [frame] := by
    have := hs.requests
    simpa [MotuUsbDatastore.requests, h] using this
  have hkeep (w : Wire) (hr : w.reads = s.wire.reads) (hd : w.delivered = s.wire.delivered) :
      Kept A m q { s with wire := w } :=
    ⟨hr ▸ hs.pipe, hs.messageSeq, by rw [← hs.requests]; simp [MotuUsbDatastore.requests, hd]⟩
  have hsent (w : Wire) (hr : w.reads = s.wire.reads) (hd : w.delivered = s.wire.delivered ++ [frame]) :
      Kept A m (q ++ [frame]) { s with wire := w } :=
    ⟨hr ▸ hs.pipe, hs.messageSeq, by rw [← hq]; simp [MotuUsbDatastore.requests, hd]⟩
  cases hw : s.wire.writes with
  | nil =>
    rw [writeFrame, EStateM.bind_ok (by simp only [bulkWrite, hw]; rfl), if_neg (by simp)]
    exact hsent _ rfl rfl
  | cons event writes =>
    cases event with
    | full =>
      rw [writeFrame, EStateM.bind_ok (by simp only [bulkWrite, hw]; rfl), if_neg (by simp)]
      exact hsent _ rfl rfl
    | count written =>
      rw [writeFrame, EStateM.bind_ok (by simp only [bulkWrite, hw]; rfl)]
      by_cases hc : written = frame.length
      · rw [if_neg (by simp [hc]), if_pos hc]
        exact hsent _ rfl rfl
      · rw [if_pos hc, if_neg hc]
        exact hkeep _ rfl rfl
    | raise e =>
      rw [writeFrame, EStateM.bind_error (by simp only [bulkWrite, hw]; rfl)]
      exact hkeep _ rfl rfl

/-- The message sequence after a request. -/
def nextMessageSeq (m : Int) : Int := (((m % 2 ^ 32).toNat + 1) % 2 ^ 32 : Nat)

/-- A call that leaves the request `frame` behind. -/
def Requested (A : List ReadEvent → Prop) (m : Int) (q : List Bytes) (s : MotuUsbDatastore) :
    Prop :=
  ∃ frame, frameMessageSeq frame = (m % 2 ^ 32).toNat ∧ Kept A (nextMessageSeq m) (q ++ [frame]) s

/-- A call returns after its request was written, with the join of frames under its sequence. It
raises before the request was written, and then it keeps everything, or after it. -/
theorem exchange_spec {build : Nat → Nat → Except Exn Bytes} {collect : Nat → CollectArgs}
    (hbuild : ∀ {seq ms frame}, build seq ms = .ok frame →
      isRequest frame = true ∧ frameMessageSeq frame = ms)
    (hcollect : ∀ ms, (collect ms).expectedMessageSeq = ms) (hA : Pipe A G) :
    Triple (Kept A m q) (exchange build collect)
      (fun response s => Requested A m q s ∧ ∃ frames ≠ [],
        (∀ f ∈ frames, ∃ packet, G packet ∧
          parseResponseFrame packet (m % 2 ^ 32).toNat = .ok f) ∧
        joinParsedResponseFrames frames = .ok response)
      (fun _ s => Kept A m q s ∨ Requested A m q s) := by
  refine Triple.bind (Q := fun s₀ s => Kept A m q s ∧ s₀.currentMessageSeq = (m % 2 ^ 32).toNat)
    (Triple.get fun s h => ⟨h, by rw [currentMessageSeq, h.messageSeq]⟩) fun s₀ =>
    Triple.assume fun hms => Triple.bind (nextHostSeq_kept.conseq (fun _ h => h) (fun _ _ h => h)
      fun _ _ h => .inl h) fun seq => ?_
  rw [hms]
  cases hb : build seq (m % 2 ^ 32).toNat with
  | error e =>
    have hraise : Triple (Kept A m q) (MotuUsbDatastore.liftExcept (.error e))
        (fun (_ : Bytes) _ => False) (fun _ s => Kept A m q s ∨ Requested A m q s) := fun s h => Or.inl h
    exact Triple.bind hraise fun _ _ h => h.elim
  | ok frame =>
    obtain ⟨hreq, hseq⟩ := hbuild hb
    have hadvance : Triple (Kept A m (q ++ [frame])) advanceMessageSeq
        (fun _ => Kept A (nextMessageSeq m) (q ++ [frame])) (fun _ s => Requested A m q s) :=
      Triple.modify fun s h => ⟨h.pipe, by
        rw [currentMessageSeq, h.messageSeq, nextMessageSeq], h.requests⟩
    refine Triple.bind (Q := fun f s => Kept A m q s ∧ f = frame)
      (Triple.pure fun _ h => ⟨h, rfl⟩) fun f => Triple.assume fun hf => ?_
    subst hf
    refine Triple.bind ((writeFrame_request hreq).conseq (fun _ h => h) (fun _ _ h => h)
      fun _ _ h => .inl h) fun _ => Triple.bind (hadvance.conseq (fun _ h => h) (fun _ _ h => h)
        fun _ _ h => .inr h) fun _ => ?_
    refine (collectResponse_kept hA).conseq (fun _ h => h) (fun response s h => ?_)
      fun _ s h => .inr ⟨f, hseq, h⟩
    obtain ⟨hkept, c, hacc, hne, hjoin⟩ := h
    refine ⟨⟨f, hseq, hkept⟩, c.frames, hne, fun fr hfr => ?_, hjoin⟩
    obtain ⟨packet, hG, hp⟩ := hacc fr hfr
    rw [hcollect] at hp
    exact ⟨packet, hG, hp⟩

end

/-! ## Sessions -/

/-- The response that the device builds for a request: the payload of each segment. -/
structure Response where
  payloads : List Bytes
  deriving DecidableEq, Repr

namespace Response

/-- `f` is a frame of the response: it carries its own segment, the last one with the final flag. -/
structure IsFrame (r : Response) (f : ResponseFrame) : Prop where
  payload : r.payloads[f.segmentIndex]? = some f.payload
  final : f.final = true ↔ f.segmentIndex + 1 = r.payloads.length

def bytes (r : Response) : Bytes := r.payloads.flatten

/-- Frames of one response join to the complete response only. -/
theorem join_eq {r : Response} {frames : List ResponseFrame} (hne : frames ≠ [])
    (h : ∀ f ∈ frames, r.IsFrame f) (hjoin : joinParsedResponseFrames frames = .ok response) :
    response = r.bytes := by
  obtain ⟨rfl, hall⟩ := joinFrom_eq_ok.mp hjoin
  have hpos : 0 < frames.length := List.length_pos_iff.mpr hne
  have hget (i : Nat) (hi : i < frames.length) : r.payloads[i]? = some frames[i].payload := by
    have hsome : frames[i]? = some frames[i] := List.getElem?_eq_getElem hi
    have hf := (h frames[i] (List.getElem_mem hi)).payload
    rwa [(hall i _ hsome).1, Nat.zero_add] at hf
  -- the frame with the final flag is the last one of the list and of the response
  have hlen : frames.length = r.payloads.length := by
    have hi : frames.length - 1 < frames.length := by omega
    obtain ⟨hidx, hfin⟩ := hall _ _ (List.getElem?_eq_getElem hi)
    have := (h _ (List.getElem_mem hi)).final.mp (hfin.mpr (by omega))
    omega
  have heq : frames.map (·.payload) = r.payloads := by
    refine List.ext_getElem? fun i => ?_
    by_cases hi : i < frames.length
    · rw [hget i hi, List.getElem?_map, List.getElem?_eq_getElem hi]
      rfl
    · rw [List.getElem?_eq_none (by simpa using hi), List.getElem?_eq_none (by omega)]
  rw [heq, bytes]

end Response

/-- The message sequence of the `k`-th request of a session that starts at `start`. -/
def seqOf (start : Int) (k : Nat) : Nat := ((start + k) % 2 ^ 32).toNat

theorem seqOf_injective (hj : j < 2 ^ 32) (hk : k < 2 ^ 32) (h : seqOf a j = seqOf a k) :
    j = k := by
  unfold seqOf at h
  omega

/-- A packet that parses is a frame of the response to one of the first `n` requests, under the
sequence of that request. -/
def Tagged (start : Int) (n : Nat) (resp : Nat → Response) (packet : Bytes) : Prop :=
  ∀ seq f, parseResponseFrame packet seq = .ok f →
    ∃ j < n, seq = seqOf start j ∧ (resp j).IsFrame f

/-- A call on a session. -/
inductive Call where
  | get (g : MotuUsbDatastore.GetArgs)
  | post (p : MotuUsbDatastore.PostArgs)

namespace Call

def exec : Call → Proc Bytes
  | get g => MotuUsbDatastore.get g
  | post p => MotuUsbDatastore.post p

/-- The session after the call, however it ends. -/
def after (s : MotuUsbDatastore) (call : Call) : MotuUsbDatastore :=
  match call.exec s with
  | .ok _ s => s
  | .error _ s => s

end Call

def afterCalls (s : MotuUsbDatastore) (calls : List Call) : MotuUsbDatastore := calls.foldl Call.after s

/-- The requests of a session so far carry the sequences from `start` on, and the next one is due. -/
structure Numbered (A : List ReadEvent → Prop) (start : Int) (s : MotuUsbDatastore) : Prop where
  pipe : A s.wire.reads
  next : (s.messageSeq % 2 ^ 32).toNat = seqOf start s.requests.length
  requests : ∀ k frame, s.requests[k]? = some frame → frameMessageSeq frame = seqOf start k

section
variable {A : List ReadEvent → Prop} {G : Bytes → Prop} {start : Int}

theorem Numbered.kept (h : Numbered A start s) : Kept A s.messageSeq s.requests s :=
  ⟨h.pipe, rfl, rfl⟩

theorem Kept.numbered (h : Numbered A start s) (hk : Kept A s.messageSeq s.requests s') :
    Numbered A start s' :=
  ⟨hk.pipe, by rw [hk.messageSeq, hk.requests, h.next], by rw [hk.requests]; exact h.requests⟩

theorem Requested.numbered (h : Numbered A start s)
    (hr : Requested A s.messageSeq s.requests s') :
    Numbered A start s' ∧ ∃ frame, s'.requests = s.requests ++ [frame] := by
  obtain ⟨frame, hseq, hk⟩ := hr
  have hnext := h.next
  rw [hnext] at hseq
  refine ⟨⟨hk.pipe, ?_, fun k fr hfr => ?_⟩, frame, hk.requests⟩
  · rw [hk.messageSeq, hk.requests, nextMessageSeq, hnext, List.length_append,
      List.length_singleton]
    unfold seqOf
    omega
  · rw [hk.requests, List.getElem?_append] at hfr
    split at hfr
    · exact h.requests k fr hfr
    · have : k = s.requests.length := by
        by_contra hne
        rw [List.getElem?_eq_none (by simp; omega)] at hfr
        cases hfr
      subst this
      simp only [Nat.sub_self, List.getElem?_cons_zero, Option.some.injEq] at hfr
      rw [← hfr, hseq]

theorem Call.exec_spec {m : Int} {q : List Bytes} (hA : Pipe A G) (call : Call) :
    Triple (Kept A m q) call.exec
    (fun response s => Requested A m q s ∧ ∃ frames ≠ [],
      (∀ f ∈ frames, ∃ packet, G packet ∧
        parseResponseFrame packet (m % 2 ^ 32).toNat = .ok f) ∧
      joinParsedResponseFrames frames = .ok response)
    (fun _ s => Kept A m q s ∨ Requested A m q s) := by
  cases call with
  | get g =>
    rw [Call.exec, MotuUsbDatastore.get]
    exact exchange_spec (fun h => buildGetFrame_eq_ok h) (fun _ => rfl) hA
  | post p =>
    rw [Call.exec, MotuUsbDatastore.post]
    exact exchange_spec (fun h => buildPostFrame_eq_ok h) (fun _ => rfl) hA

/-- A call numbers its request, if it writes one. -/
theorem Numbered.after (hA : Pipe A G) (h : Numbered A start s) (call : Call) :
    Numbered A start (call.after s) ∧ (call.after s).requests.length ≤ s.requests.length + 1 := by
  have hdone {s'} (hr : Kept A s.messageSeq s.requests s' ∨
      Requested A s.messageSeq s.requests s') :
      Numbered A start s' ∧ s'.requests.length ≤ s.requests.length + 1 := by
    rcases hr with hk | hr
    · exact ⟨hk.numbered h, by rw [hk.requests]; omega⟩
    · obtain ⟨hn, frame, hreq⟩ := hr.numbered h
      exact ⟨hn, by rw [hreq]; simp⟩
  unfold Call.after
  cases hx : call.exec s with
  | ok response s' => exact hdone (.inr ((call.exec_spec hA).ok h.kept hx).1)
  | error e s' => exact hdone ((call.exec_spec hA).error h.kept hx)

theorem Numbered.afterCalls (hA : Pipe A G) (h : Numbered A start s) (calls : List Call) :
    Numbered A start (afterCalls s calls) ∧
      (Datastore.afterCalls s calls).requests.length ≤ s.requests.length + calls.length := by
  induction calls generalizing s with
  | nil => exact ⟨h, Nat.le_refl _⟩
  | cons call calls ih =>
    obtain ⟨hn, hlen⟩ := h.after hA call
    obtain ⟨hn', hlen'⟩ := ih hn
    refine ⟨hn', ?_⟩
    rw [List.length_cons]
    exact Nat.le_trans hlen' (by omega)

end

/-- Response isolation. The device sends deliveries `ds`, and what parses in them is tagged with the
sequence of the request it answers. Then a call that returns, returns the complete response to the
request that this very call wrote, and the `k`-th request carries the sequence `start + k`. -/
theorem response_isolation (s : MotuUsbDatastore) (calls : List Call) (hcalls : calls.length < 2 ^ 32)
    (hs : s.requests = []) (ds : List Delivery) (hreads : s.wire.reads = ds.flatMap Delivery.events)
    (resp : Nat → Response)
    (hds : ∀ d ∈ ds, d.WF ∧ ∀ packet, d.packet? = some packet →
      Tagged s.messageSeq calls.length resp packet) :
    (∀ pre call post response s', calls = pre ++ call :: post →
      call.exec (afterCalls s pre) = .ok response s' →
      response = (resp (afterCalls s pre).requests.length).bytes ∧
      ∃ frame, s'.requests = (afterCalls s pre).requests ++ [frame]) ∧
    ∀ k frame, (afterCalls s calls).requests[k]? = some frame →
      frameMessageSeq frame = seqOf s.messageSeq k := by
  have hA : Pipe (Aligned (Tagged s.messageSeq calls.length resp)) _ :=
    fun _ _ _ _ h => readLogicalFrame_aligned h
  have hnum : Numbered (Aligned (Tagged s.messageSeq calls.length resp)) s.messageSeq s :=
    ⟨⟨ds, hreads, hds⟩, by simp [hs, seqOf], fun k frame h => by simp [hs] at h⟩
  refine ⟨?_, (hnum.afterCalls hA calls).1.requests⟩
  rintro pre call post response s' hpre hx
  obtain ⟨hn, hlen⟩ := hnum.afterCalls hA pre
  obtain ⟨hreq, frames, hne, hframes, hjoin⟩ := (call.exec_spec hA).ok hn.kept hx
  refine ⟨Response.join_eq hne (fun f hf => ?_) hjoin, (hreq.numbered hn).2⟩
  obtain ⟨packet, htag, hparse⟩ := hframes f hf
  rw [hn.next] at hparse
  obtain ⟨j, hj, hseq, hframe⟩ := htag _ f hparse
  rw [hs, List.length_nil, Nat.zero_add] at hlen
  have hpre' : pre.length < calls.length := by rw [hpre]; simp
  have hk : (afterCalls s pre).requests.length = j := by
    refine seqOf_injective (a := s.messageSeq) ?_ ?_ hseq
    · omega
    · omega
  rw [hk]
  exact hframe

/-! A session in which the first request times out, and its response arrives before that of the
second one. -/

/-- A response of one segment. -/
def soleFrame (messageSeq : Nat) (payload : Bytes) : ResponseFrame where
  header := NREK
  wrapperSeq := 0
  wrapperType := 0
  wrapperLen := 28 + payload.length
  messageSeq := messageSeq
  final := true
  segmentIndex := 0
  payload := payload

theorem fits_soleFrame {p : Bytes} (hseq : messageSeq < 256 ^ 4) (hlen : p.length ≤ 65507) :
    FrameFits (soleFrame messageSeq p) :=
  ⟨.inl rfl, Nat.two_pow_pos 8, rfl, rfl, hlen, hseq, Nat.two_pow_pos 16⟩

/-- An encoded frame in one chunk is a delivery. -/
theorem wf_encode (h : FrameFits f) : (Delivery.frame (encode f) []).WF := by
  have hlen := h.length_encode
  have hword : (encode f).word 2 2 = 28 + f.payload.length := h.word_wrapper
  exact ⟨⟨by omega, by omega⟩, Nat.le_of_eq (hword.trans hlen.symm)⟩

/-- An encoded frame is tagged if its own sequence is that of the request it answers. -/
theorem tagged_encode {resp : Nat → Response} (h : FrameFits f) (hj : j < n)
    (hseq : f.messageSeq = seqOf start j) (hf : (resp j).IsFrame f) :
    Tagged start n resp (encode f) := by
  intro seq f' hparse
  rw [← List.append_nil (encode f)] at hparse
  obtain ⟨-, hword, rfl⟩ := parseResponseFrame_eq_ok.mp hparse
  rw [h.frameBody_encode, h.word_messageSeq] at hword
  exact ⟨j, hj, by rw [← hword, hseq], by rw [h.frameOf_encode]; exact hf⟩

def lateDeliveries : List Delivery :=
  [.quiet, .quiet, .frame (encode (soleFrame 2 [1])) [], .frame (encode (soleFrame 3 [2])) []]

def lateSession : MotuUsbDatastore := { wire := { reads := lateDeliveries.flatMap Delivery.events } }

def datastoreGet : Call := .get { path := py "/datastore" }

theorem response_isolation_late :
    (∀ response s', datastoreGet.exec (afterCalls lateSession [datastoreGet]) = .ok response s' →
      response = [2]) ∧
    ((match datastoreGet.exec (afterCalls lateSession [datastoreGet]) with
      | .ok response _ => some response
      | .error _ _ => none) = some [2]) := by
  have hframe (j : Nat) (seq : Nat) (h : seq = seqOf 2 j) (hj : j < 2) :
      Tagged 2 2 (fun j => ⟨[[UInt8.ofNat (j + 1)]]⟩) (encode (soleFrame seq [UInt8.ofNat (j + 1)])) :=
    tagged_encode (fits_soleFrame (by rw [h, seqOf]; omega) (by simp)) hj h ⟨rfl, by simp [soleFrame]⟩
  refine ⟨fun response s' hx => ?_, by decide +kernel⟩
  have hreq : (afterCalls lateSession [datastoreGet]).requests.length = 1 := by decide +kernel
  have := ((response_isolation lateSession [datastoreGet, datastoreGet] (by decide) rfl
    lateDeliveries rfl (fun j => ⟨[[UInt8.ofNat (j + 1)]]⟩) (fun d hd => ?_)).1
    [datastoreGet] datastoreGet [] response s' rfl hx).1
  · rw [hreq] at this
    exact this
  · simp only [lateDeliveries, List.mem_cons, List.not_mem_nil, or_false] at hd
    rcases hd with rfl | rfl | rfl | rfl
    · exact ⟨trivial, fun _ h => by cases h⟩
    · exact ⟨trivial, fun _ h => by cases h⟩
    · exact ⟨wf_encode (fits_soleFrame (by decide) (by decide)),
        fun _ h => by cases h; exact hframe 0 2 rfl (by decide)⟩
    · exact ⟨wf_encode (fits_soleFrame (by decide) (by decide)),
        fun _ h => by cases h; exact hframe 1 3 rfl (by decide)⟩

end Datastore

end MotuProxy
