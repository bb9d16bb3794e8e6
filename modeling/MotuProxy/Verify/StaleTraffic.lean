import MotuProxy.Verify.Accounting

/-! # Stale traffic before a response

The pipe may bring acknowledgements, frames of other responses and packets of no use between the
frames of the response that a request waits for. `Traffic` is such a stream within the limits of the
collector. Each kind of packet has a limit of its own, and the limit on the reads is their sum; but
a stale frame also counts as an ignored packet, and an ignorable packet fails the request when more
packets than its own limit have been ignored. `stale_traffic_iff` says when that does not happen.
-/

namespace MotuProxy

open Py Protocol Responses

namespace Datastore

/-! ## Streams -/

/-- A well-formed frame of a message sequence. -/
def frameOfSeq (seq : Nat) (packet : Bytes) : Bool := (parseResponseFrame packet seq).isOk

/-- A well-formed frame of another response. -/
def staleFrameOf (a : CollectArgs) (packet : Bytes) : Bool :=
  (responseMessageSeq packet).any fun seq =>
    seq ≠ a.expectedMessageSeq && frameOfSeq seq packet

/-- A packet that is counted as ignored. -/
def skipped (a : CollectArgs) (packet : Bytes) : Bool :=
  !packet.isEmpty && !isDeviceAck packet && !accepted a packet

/-- A packet of no use: unknown, or a damaged frame of another sequence. -/
def ignorable (a : CollectArgs) (packet : Bytes) : Bool :=
  skipped a packet && !staleFrameOf a packet

/-- The bytes of the packets that `p` picks. -/
def bytesOf (p : Bytes → Bool) (packets : List Bytes) : Nat :=
  ((packets.filter p).map List.length).sum

/-- The limits are the default ones. -/
structure DefaultLimits (a : CollectArgs) : Prop where
  maxBytes : a.maxBytes = DEFAULT_MAX_BYTES
  maxReads : a.maxReads = DEFAULT_MAX_RESPONSE_READS
  maxIgnoredPackets : a.maxIgnoredPackets = DEFAULT_MAX_IGNORED_PACKETS
  maxResponseFrames : a.maxResponseFrames = DEFAULT_MAX_RESPONSE_FRAMES

/-- The frames of the response `fs`, in order, among other packets. -/
structure Traffic (a : CollectArgs) (stream : List Bytes) (fs : List ResponseFrame) : Prop where
  nonempty : ∀ packet ∈ stream, packet ≠ []
  undamaged : ∀ packet ∈ stream, damaged a packet = false
  response : stream.filterMap
    (fun packet => (parseResponseFrame packet a.expectedMessageSeq).toOption) = fs
  complete : fs ≠ []
  segments : ∀ i f, fs[i]? = some f → f.segmentIndex = i ∧ (f.final = true ↔ i + 1 = fs.length)
  frames : fs.length ≤ 256
  bytes : bytesOf (accepted a) stream ≤ 1024 * 1024
  staleFrames : ∀ seq ≠ a.expectedMessageSeq, stream.countP (frameOfSeq seq) ≤ 256
  staleBytes : ∀ seq ≠ a.expectedMessageSeq, bytesOf (frameOfSeq seq) stream ≤ 1024 * 1024
  ignorable : stream.countP (ignorable a) ≤ 32
  packets : stream.length ≤ 546

/-- Up to each ignorable packet that comes before the end of the response, at most 32 packets were
stale frames or ignorable. -/
def WithinBudget (a : CollectArgs) (stream : List Bytes) (fs : List ResponseFrame) : Prop :=
  ∀ pre packet post, stream = pre ++ packet :: post → ignorable a packet = true →
    pre.countP (accepted a) < fs.length → (pre ++ [packet]).countP (skipped a) ≤ 32

/-! ## Counting packets -/

section
variable {a : CollectArgs} {packet : Bytes} {packets : List Bytes} {p : Bytes → Bool}

theorem bytesOf_append : bytesOf p (packets ++ packets') = bytesOf p packets + bytesOf p packets' := by
  simp [bytesOf]

theorem bytesOf_singleton : bytesOf p [packet] = if p packet then packet.length else 0 := by
  by_cases h : p packet = true <;> simp [bytesOf, h]

theorem countP_snoc : (packets ++ [packet]).countP p = packets.countP p + (p packet).toNat := by
  rw [List.countP_append, List.countP_singleton]
  cases p packet <;> rfl

/-- Every packet has exactly one part in the accounts. -/
theorem countP_skipped (a : CollectArgs) (packets : List Bytes) :
    packets.countP (accepted a) + packets.countP (skipped a) + packets.countP isDeviceAck +
      packets.countP List.isEmpty = packets.length := by
  induction packets with
  | nil => rfl
  | cons packet packets ih =>
    have hone : (accepted a packet).toNat + (skipped a packet).toNat + (isDeviceAck packet).toNat +
        packet.isEmpty.toNat = 1 := by
      cases packet with
      | nil => rfl
      | cons x xs =>
        cases hp : parseResponseFrame (x :: xs) a.expectedMessageSeq with
        | ok f =>
          have hpart := part_accepted hp
          simp [skipped, hpart.accepted, hpart.deviceAck]
        | error e =>
          have hacc : accepted a (x :: xs) = false := by
            simp [accepted, hp, Except.isOk, Except.toBool]
          cases hack : isDeviceAck (x :: xs) <;> simp [skipped, hacc, hack]
    have hcount (p : Bytes → Bool) :
        (packet :: packets).countP p = packets.countP p + (p packet).toNat := by
      rw [List.countP_cons]
      cases p packet <;> rfl
    rw [hcount, hcount, hcount, hcount, List.length_cons]
    omega

theorem Counted.ignored (h : Counted a packets c) : c.ignoredPackets = packets.countP (skipped a) := by
  have hall := countP_skipped a packets
  have := h.sum
  have := h.reads
  have := h.frames
  have := h.deviceAcks
  omega

end

/-! ## The collector on a stream -/

/-- The variables after the packets `pre`: what has been counted, the frames of the response, and an
account of one stale response that holds no more than the stream has brought of it. -/
structure Progress (a : CollectArgs) (pre : List Bytes) (c : Collect) : Prop where
  counted : Counted a pre c
  quietReads : c.quietReads = 0
  frames : c.frames = pre.filterMap
    fun packet => (parseResponseFrame packet a.expectedMessageSeq).toOption
  stale : ∀ seq, c.staleMessageSeq = some seq → seq ≠ a.expectedMessageSeq ∧
    c.staleFrames ≤ pre.countP (frameOfSeq seq) ∧ c.staleTotal ≤ bytesOf (frameOfSeq seq) pre

section
variable {a : CollectArgs} {c : Collect} {packet : Bytes} {pre post stream : List Bytes}
  {fs : List ResponseFrame}

/-- The stale frames and bytes of a stream bound those of its first packets. -/
theorem Traffic.bounds (h : Traffic a stream fs) (hstream : stream = pre ++ packet :: post)
    (hne : seq ≠ a.expectedMessageSeq) :
    (pre ++ [packet]).countP (frameOfSeq seq) ≤ 256 ∧
      bytesOf (frameOfSeq seq) (pre ++ [packet]) ≤ 1024 * 1024 := by
  have hsplit : stream = (pre ++ [packet]) ++ post := by simp [hstream]
  have hf := h.staleFrames seq hne
  have hb := h.staleBytes seq hne
  rw [hsplit, List.countP_append] at hf
  rw [hsplit, bytesOf_append] at hb
  exact ⟨by omega, by omega⟩

/-- The account of a stale response after one more frame. -/
theorem staleFrame_account (hf : frameOfSeq seq packet = true) (hne : seq ≠ a.expectedMessageSeq)
    (hstale : ∀ q, c.staleMessageSeq = some q → q ≠ a.expectedMessageSeq ∧
      c.staleFrames ≤ pre.countP (frameOfSeq q) ∧ c.staleTotal ≤ bytesOf (frameOfSeq q) pre)
    (hframes : (pre ++ [packet]).countP (frameOfSeq seq) ≤ a.maxResponseFrames)
    (hbytes : bytesOf (frameOfSeq seq) (pre ++ [packet]) ≤ a.maxBytes) :
    (staleFrame a c seq packet f).quiet = true ∧ (staleFrame a c seq packet f).stop = false ∧
    ∀ q, (staleFrame a c seq packet f).next.staleMessageSeq = some q → q ≠ a.expectedMessageSeq ∧
      (staleFrame a c seq packet f).next.staleFrames ≤ (pre ++ [packet]).countP (frameOfSeq q) ∧
      (staleFrame a c seq packet f).next.staleTotal ≤ bytesOf (frameOfSeq q) (pre ++ [packet]) := by
  -- the account before the frame is booked: a new one is empty
  obtain ⟨c₁, hc₁, hseq, hfr, hto⟩ : ∃ c₁ : Collect,
      c₁ = (if c.staleMessageSeq ≠ some seq then
        { c with staleMessageSeq := some seq, staleFrames := 0, staleTotal := 0 } else c) ∧
      c₁.staleMessageSeq = some seq ∧ c₁.staleFrames ≤ pre.countP (frameOfSeq seq) ∧
      c₁.staleTotal ≤ bytesOf (frameOfSeq seq) pre := by
    refine ⟨_, rfl, ?_⟩
    by_cases hnew : c.staleMessageSeq = some seq
    · rw [if_neg (not_not_intro hnew)]
      exact ⟨hnew, (hstale seq hnew).2⟩
    · rw [if_pos hnew]
      exact ⟨rfl, Nat.zero_le _, Nat.zero_le _⟩
  have hcount : (pre ++ [packet]).countP (frameOfSeq seq) = pre.countP (frameOfSeq seq) + 1 := by
    rw [countP_snoc, hf]
    rfl
  have hbyte : bytesOf (frameOfSeq seq) (pre ++ [packet]) =
      bytesOf (frameOfSeq seq) pre + packet.length := by
    rw [bytesOf_append, bytesOf_singleton, hf, if_pos rfl]
  unfold staleFrame
  simp only [← hc₁]
  rw [if_neg (by omega), if_neg (by omega)]
  split
  · exact ⟨rfl, rfl, fun q hq => by cases hq⟩
  · refine ⟨rfl, rfl, fun q hq => ?_⟩
    have hq' : c₁.staleMessageSeq = some q := hq
    cases hseq.symm.trans hq'
    exact ⟨hne, by rw [hcount]; exact Nat.succ_le_succ hfr, by
      rw [hbyte]; exact Nat.add_le_add_right hto _⟩

/-- An ignorable packet is counted, and it raises when the count passes the limit. -/
theorem ignorePacket_quiet {ack : Bool} (ha : DefaultLimits a) (hc : Counted a pre c)
    (hskip : skipped a packet = true) :
    (ignorePacket a { c with reads := c.reads + 1, quietReads := 0 } ack).quiet = true ↔
      (pre ++ [packet]).countP (skipped a) ≤ 32 := by
  have hignored := hc.ignored
  have hlimit : a.maxIgnoredPackets = 32 := ha.maxIgnoredPackets
  rw [countP_snoc, hskip, ← hignored]
  simp only [ignorePacket, Reaction.quiet, Option.isNone_none, Bool.true_and, hlimit]
  by_cases hlt : 32 < c.ignoredPackets + 1
  · simp only [hlt, if_true]
    simp
    omega
  · simp only [hlt, if_false]
    simp
    omega

/-- The frame that a packet adds to the response. -/
theorem Traffic.frame (h : Traffic a stream fs) (hstream : stream = pre ++ packet :: post)
    (hf : parseResponseFrame packet a.expectedMessageSeq = .ok f) (hc : Progress a pre c) :
    fs[c.frames.length]? = some f ∧ c.frames.length < fs.length := by
  have hfs := h.response
  rw [hstream, List.filterMap_append, ← hc.frames, List.filterMap_cons] at hfs
  simp only [hf, Except.toOption] at hfs
  rw [← hfs]
  exact ⟨by simp, by simp⟩

/-- What one packet of a stream does. -/
structure Step (a : CollectArgs) (fs : List ResponseFrame) (pre : List Bytes) (packet : Bytes)
    (r : Reaction) : Prop where
  quiet : r.quiet = true ↔
    (ignorable a packet = true → (pre ++ [packet]).countP (skipped a) ≤ 32)
  progress : Progress a (pre ++ [packet]) r.next
  stop : r.stop = true ↔
    accepted a packet = true ∧ (pre ++ [packet]).countP (accepted a) = fs.length

/-- A packet that is not accepted adds no frame to the response. -/
theorem filterMap_refused (hacc : accepted a packet = false) :
    (pre ++ [packet]).filterMap
      (fun packet => (parseResponseFrame packet a.expectedMessageSeq).toOption) =
    pre.filterMap fun packet => (parseResponseFrame packet a.expectedMessageSeq).toOption := by
  cases hf : parseResponseFrame packet a.expectedMessageSeq with
  | ok f => simp [accepted_of_parse hf] at hacc
  | error e => simp [List.filterMap_append, hf, Except.toOption]

/-- A packet without a part in the open account leaves it within its bounds. -/
theorem Progress.account (hc : Progress a pre c) {q : Nat} (hq : c.staleMessageSeq = some q) :
    q ≠ a.expectedMessageSeq ∧ c.staleFrames ≤ (pre ++ [packet]).countP (frameOfSeq q) ∧
      c.staleTotal ≤ bytesOf (frameOfSeq q) (pre ++ [packet]) := by
  obtain ⟨hne, hframes, htotal⟩ := hc.stale q hq
  rw [countP_snoc, bytesOf_append]
  exact ⟨hne, by omega, by omega⟩

/-- A packet that is not accepted and only counted. -/
theorem Progress.passed {m i k : Nat} (hc : Progress a pre c) (hacc : accepted a packet = false)
    (hcounted : Counted a (pre ++ [packet])
      { c with reads := m, quietReads := 0, ignoredPackets := i, ackPackets := k }) :
    Progress a (pre ++ [packet])
      { c with reads := m, quietReads := 0, ignoredPackets := i, ackPackets := k } where
  counted := hcounted
  quietReads := rfl
  frames := hc.frames.trans (filterMap_refused hacc).symm
  stale _ hq := hc.account hq

theorem Progress.deviceAck (hc : Progress a pre c) (hack : isDeviceAck packet = true)
    (hcounted : Counted a (pre ++ [packet])
      { c with reads := c.reads + 1, quietReads := 0, ackPackets := c.ackPackets + 1 }) :
    Step a fs pre packet { next :=
      { c with reads := c.reads + 1, quietReads := 0, ackPackets := c.ackPackets + 1 } } := by
  have hacc : accepted a packet = false := by
    cases hf : parseResponseFrame packet a.expectedMessageSeq with
    | ok f => simp [(part_accepted hf).deviceAck] at hack
    | error e => simp [accepted, hf, Except.isOk, Except.toBool]
  refine ⟨?_, hc.passed hacc hcounted, ?_⟩
  · simp [Reaction.quiet, ignorable, skipped, hack]
  · simp [hacc]

theorem Progress.ignored {ack : Bool} (hc : Progress a pre c) (ha : DefaultLimits a)
    (hskip : skipped a packet = true) (hign : ignorable a packet = true)
    (hcounted : Counted a (pre ++ [packet])
      (ignorePacket a { c with reads := c.reads + 1, quietReads := 0 } ack).next) :
    Step a fs pre packet (ignorePacket a { c with reads := c.reads + 1, quietReads := 0 } ack) := by
  have hacc : accepted a packet = false := by
    cases hacc : accepted a packet with
    | true => simp [skipped, hacc] at hskip
    | false => rfl
  refine ⟨?_, hc.passed hacc hcounted, ?_⟩
  · rw [hign]
    simp only [true_imp_iff]
    exact ignorePacket_quiet ha hc.counted hskip
  · simp [ignorePacket, hacc]

/-- The bytes of the response are within their limit up to an accepted packet. -/
theorem Progress.bytes (hc : Progress a pre c) (h : Traffic a stream fs)
    (hstream : stream = pre ++ packet :: post) (hacc : accepted a packet = true) :
    c.total + packet.length ≤ 1024 * 1024 := by
  have hall := h.bytes
  have htotal : c.total = bytesOf (accepted a) pre := hc.counted.total
  have hsplit : stream = (pre ++ [packet]) ++ post := by simp [hstream]
  rw [hsplit, bytesOf_append, bytesOf_append, bytesOf_singleton, hacc] at hall
  simp only [if_true] at hall
  omega

theorem Progress.current (hc : Progress a pre c) (h : Traffic a stream fs) (ha : DefaultLimits a)
    (hstream : stream = pre ++ packet :: post)
    (hf : parseResponseFrame packet a.expectedMessageSeq = .ok f)
    (hcounted : Counted a (pre ++ [packet])
      (currentFrame a { c with reads := c.reads + 1, quietReads := 0 } packet f).next) :
    Step a fs pre packet
      (currentFrame a { c with reads := c.reads + 1, quietReads := 0 } packet f) := by
  have hpart := part_accepted hf
  obtain ⟨hget, hlt⟩ := h.frame hstream hf hc
  have hlimit : a.maxResponseFrames = 256 := ha.maxResponseFrames
  have hmax : a.maxBytes = 1024 * 1024 := ha.maxBytes
  have hlen := h.frames
  have hbytes := hc.bytes h hstream hpart.accepted
  have hcount : (pre ++ [packet]).countP (accepted a) = c.frames.length + 1 := by
    rw [countP_snoc, hpart.accepted, hc.counted.frames]
    rfl
  have hfinal := (h.segments _ _ hget).2
  rw [currentFrame_within (by simp only; omega) (by simp only; omega)] at hcounted ⊢
  refine ⟨?_, ⟨hcounted, rfl, ?_, fun _ hq => hc.account hq⟩, ?_⟩
  · simp [Reaction.quiet, ignorable, skipped, hpart.accepted]
  · simp only [List.filterMap_append, hc.frames]
    simp [hf, Except.toOption]
  · rw [hpart.accepted, hcount]
    simp only [true_and]
    exact hfinal

theorem Progress.staleFrame (hc : Progress a pre c) (h : Traffic a stream fs) (ha : DefaultLimits a)
    (hstream : stream = pre ++ packet :: post) (hseq : responseMessageSeq packet = some seq)
    (hdiff : seq ≠ a.expectedMessageSeq) (hp : parseResponseFrame packet seq = .ok f)
    (hcounted : Counted a (pre ++ [packet])
      (staleFrame a { c with reads := c.reads + 1, quietReads := 0 } seq packet f).next)
    (hquiet : (staleFrame a { c with reads := c.reads + 1, quietReads := 0 } seq
      packet f).next.quietReads = 0) :
    Step a fs pre packet
      (staleFrame a { c with reads := c.reads + 1, quietReads := 0 } seq packet f) := by
  have hpart := part_otherSequence hseq hdiff
  have hof : frameOfSeq seq packet = true := by simp [frameOfSeq, hp, Except.isOk, Except.toBool]
  have hnot : staleFrameOf a packet = true := by simp [staleFrameOf, hseq, hdiff, hof]
  obtain ⟨hframes, hbytes⟩ := h.bounds hstream hdiff
  obtain ⟨hq, hstop, haccount⟩ := staleFrame_account (f := f)
    (c := { c with reads := c.reads + 1, quietReads := 0 }) hof hdiff hc.stale
    (hframes.trans (Nat.le_of_eq ha.maxResponseFrames.symm))
    (hbytes.trans (Nat.le_of_eq ha.maxBytes.symm))
  refine ⟨?_, ⟨hcounted, hquiet, ?_, haccount⟩, ?_⟩
  · simp [hq, ignorable, hnot]
  · rw [staleFrame_frames, filterMap_refused hpart.accepted]
    exact hc.frames
  · simp [hstop, hpart.accepted]

/-- One packet of a stream, by the branches of `react`. -/
theorem Progress.step (hc : Progress a pre c) (h : Traffic a stream fs) (ha : DefaultLimits a)
    (hstream : stream = pre ++ packet :: post) :
    Step a fs pre packet (react a { c with reads := c.reads + 1 } packet) := by
  have hmem : packet ∈ stream := by simp [hstream]
  have hne := h.nonempty packet hmem
  have hempty : packet.isEmpty = false := by
    cases packet with
    | nil => exact absurd rfl hne
    | cons => rfl
  have hundamaged := h.undamaged packet hmem
  have hcounted : Counted a (pre ++ [packet])
      (react a { c with reads := c.reads + 1 } packet).next := by
    rcases react_books a { c with reads := c.reads + 1 } packet with ⟨hd, -⟩ | ⟨hd, hb, -⟩
    · simp [hundamaged] at hd
    · exact hc.counted.book hne hd hb
  have hquiet := react_quietReads a { c with reads := c.reads + 1 } packet
  have hcase := react_cases a { c with reads := c.reads + 1 } packet
  generalize react a { c with reads := c.reads + 1 } packet = r at hcase hcounted hquiet ⊢
  cases hcase with
  | deviceAck hack => exact hc.deviceAck hack hcounted
  | damaged hseq hp =>
    simp [damaged, accepted, hseq, hp, Except.isOk, Except.toBool] at hundamaged
  | current hf => exact hc.current h ha hstream hf hcounted
  | stale hseq hdiff hp => exact hc.staleFrame h ha hstream hseq hdiff hp hcounted hquiet
  | otherDamaged hseq hdiff hp =>
    have hpart := part_otherSequence hseq hdiff
    have hskip : skipped a packet = true := by simp [skipped, hempty, hpart.deviceAck, hpart.accepted]
    exact hc.ignored ha hskip (by
      simp [ignorable, hskip, staleFrameOf, hseq, frameOfSeq, hp, Except.isOk, Except.toBool])
      hcounted
  | unknown hack hseq =>
    have hpart := part_none (a := a) hseq
    have hskip : skipped a packet = true := by simp [skipped, hempty, hack, hpart.accepted]
    exact hc.ignored ha hskip (by simp [ignorable, hskip, staleFrameOf, hseq]) hcounted

end

/-! ## Runs that are not disturbed -/

/-- Every write succeeds, the clock stays before the deadline, and the callback does not cancel. -/
structure Serene (a : CollectArgs) (deadline : Nat) (s : MotuUsbDatastore) : Prop extends
    Calm deadline s where
  cancels : a.shouldCancel = true → ∀ b ∈ s.wire.cancels, b = false

/-- The method returns `v`, leaves `reads` in the pipe, and what comes is not disturbed either. -/
def Goes (a : CollectArgs) (deadline : Nat) (x : Proc α) (s : MotuUsbDatastore) (v : α)
    (reads : List ReadEvent) : Prop :=
  ∃ s', x s = .ok v s' ∧ Serene a deadline s' ∧ s'.wire.reads = reads

section
variable {a : CollectArgs} {c : Collect} {deadline : Nat} {s : MotuUsbDatastore}

open MotuUsbDatastore

theorem Goes.pure (hs : Serene a deadline s) : Goes a deadline (pure v) s v s.wire.reads :=
  ⟨s, rfl, hs, rfl⟩

theorem Goes.bind {x : Proc α} {f : α → Proc β} (hx : Goes a deadline x s v reads)
    (hf : ∀ s', Serene a deadline s' → s'.wire.reads = reads → Goes a deadline (f v) s' w reads') :
    Goes a deadline (x >>= f) s w reads' := by
  obtain ⟨s', hx, hs, hr⟩ := hx
  obtain ⟨s'', hf, hs', hr'⟩ := hf s' hs hr
  exact ⟨s'', by rw [EStateM.bind_ok hx, hf], hs', hr'⟩

theorem monotonic_goes (hs : Serene a deadline s) :
    ∃ t < deadline, Goes a deadline monotonic s t s.wire.reads := by
  cases hc : s.wire.clock with
  | nil =>
    exact ⟨s.wire.now, hs.clock _ List.mem_cons_self, s, by simp [monotonic, hc], hs, rfl⟩
  | cons t clock =>
    have ht (u : Nat) (hu : u ∈ t :: clock) : u < deadline :=
      hs.clock u (List.mem_cons_of_mem _ (hc ▸ hu))
    exact ⟨t, ht t List.mem_cons_self, { s with wire := { s.wire with now := t, clock } },
      by simp [monotonic, hc], ⟨⟨hs.writes, ht⟩, hs.cancels⟩, rfl⟩

theorem shouldCancel_goes (hs : Serene a deadline s) :
    Goes a deadline (MotuUsbDatastore.shouldCancel a.shouldCancel) s false s.wire.reads := by
  cases hgiven : a.shouldCancel with
  | false => exact ⟨s, rfl, hs, rfl⟩
  | true =>
    cases hc : s.wire.cancels with
    | nil => exact ⟨s, by simp [MotuUsbDatastore.shouldCancel, hc], hs, rfl⟩
    | cons b cancels =>
      have hall := hs.cancels hgiven
      have hb : b = false := hall b (hc ▸ List.mem_cons_self)
      refine ⟨{ s with wire := { s.wire with cancels } },
        by simp [MotuUsbDatastore.shouldCancel, hc, hb], ⟨⟨hs.writes, hs.clock⟩, fun _ b' hb' => ?_⟩, rfl⟩
      exact hall b' (hc ▸ List.mem_cons_of_mem _ hb')

theorem acknowledge_goes (hs : Serene a deadline s) :
    Goes a deadline (acknowledge b) s () s.wire.reads := by
  cases b with
  | false => exact .pure hs
  | true =>
    have hw : acknowledge true s = .ok () _ :=
      writeFrame_eq (s := { s with hostSeq := Protocol.nextHostSeq s.hostSeq }) hs.writes
    exact ⟨_, hw, ⟨⟨fun w h => hs.writes w (List.mem_of_mem_tail h), hs.clock⟩, hs.cancels⟩, rfl⟩

theorem perform_goes (hs : Serene a deadline s) (h : r.quiet = true) :
    Goes a deadline (perform a started r) s (r.next, r.stop) s.wire.reads := by
  simp only [Reaction.quiet, Bool.and_eq_true, Option.isNone_iff_eq_none] at h
  unfold perform
  rw [h.1, h.2]
  refine Goes.bind (.pure hs) fun s₁ hs₁ h₁ => ?_
  refine Goes.bind (acknowledge_goes hs₁) fun s₂ hs₂ h₂ => ?_
  refine Goes.bind (.pure hs₂) fun s₃ hs₃ h₃ => ?_
  rw [← h₁, ← h₂, ← h₃]
  exact .pure hs₃

theorem beforeRead_goes (hs : Serene a deadline s) (hlt : c.reads < a.maxReads) :
    Goes a deadline (beforeRead a started deadline c) s () s.wire.reads := by
  refine Goes.bind (shouldCancel_goes hs) fun s₁ hs₁ h₁ => ?_
  refine Goes.bind (.pure hs₁) fun s₂ hs₂ h₂ => ?_
  rw [if_neg (by omega)]
  refine Goes.bind (.pure hs₂) fun s₃ hs₃ h₃ => ?_
  obtain ⟨t, ht, hmono⟩ := monotonic_goes hs₃
  refine Goes.bind hmono fun s₄ hs₄ h₄ => ?_
  rw [if_neg (Nat.not_le.mpr ht), ← h₁, ← h₂, ← h₃, ← h₄]
  exact .pure hs₄

/-- One pass over a packet that raises nothing. -/
theorem collectLoop_pass (hs : Serene a deadline s) (hq : c.quietReads = 0)
    (hlt : c.reads < a.maxReads)
    (hread : readLogicalFrame a.useCancellableRead s.wire.reads = (.ok packet, reads))
    (hne : packet ≠ []) (hquiet : (react a { c with reads := c.reads + 1 } packet).quiet = true) :
    ∃ s', Serene a deadline s' ∧ s'.wire.reads = reads ∧
      collectLoop a started deadline (n + 1) c s =
        (if (react a { c with reads := c.reads + 1 } packet).stop then
          pure (react a { c with reads := c.reads + 1 } packet).next
        else collectLoop a started deadline n
          (react a { c with reads := c.reads + 1 } packet).next) s' := by
  obtain ⟨s₁, hb, hs₁, h₁⟩ := beforeRead_goes hs hlt
  have hr : readPacket a started c s₁ = .ok packet { s₁ with wire := { s₁.wire with reads } } := by
    simp [readPacket, readFrame, h₁, hread]
  have hs₂ : Serene a deadline { s₁ with wire := { s₁.wire with reads } } :=
    ⟨⟨hs₁.writes, hs₁.clock⟩, hs₁.cancels⟩
  obtain ⟨s₃, hp, hs₃, h₃⟩ := perform_goes hs₂ hquiet
  refine ⟨s₃, hs₃, h₃, ?_⟩
  rw [collectLoop, if_neg (by omega), EStateM.bind_ok hb, EStateM.bind_ok hr, handlePacket,
    if_neg hne, EStateM.bind_ok hp]

/-- A pass that does not raise was over a packet that raises nothing. -/
theorem collectLoop_quiet (hs : Serene a deadline s) (hq : c.quietReads = 0)
    (hlt : c.reads < a.maxReads)
    (hread : readLogicalFrame a.useCancellableRead s.wire.reads = (.ok packet, reads))
    (hne : packet ≠ []) (h : collectLoop a started deadline (n + 1) c s = .ok c' s') :
    (react a { c with reads := c.reads + 1 } packet).quiet = true := by
  obtain ⟨s₁, hb, hs₁, h₁⟩ := beforeRead_goes hs hlt
  have hr : readPacket a started c s₁ = .ok packet { s₁ with wire := { s₁.wire with reads } } := by
    simp [readPacket, readFrame, h₁, hread]
  rw [collectLoop, if_neg (by omega), EStateM.bind_ok hb, EStateM.bind_ok hr, handlePacket,
    if_neg hne] at h
  obtain ⟨_, _, hp, -⟩ := EStateM.bind_eq_ok h
  generalize react a { c with reads := c.reads + 1 } packet = r at hp ⊢
  have hraise {c : Collect} {e : Option Exn} {s s' : MotuUsbDatastore}
      (h : raiseIf a started c e s = .ok () s') : e = none := by
    cases e with
    | none => rfl
    | some e =>
      obtain ⟨_, _, -, h⟩ := EStateM.bind_eq_ok h
      cases h
  obtain ⟨_, _, hearly, hp⟩ := EStateM.bind_eq_ok hp
  obtain ⟨_, _, -, hp⟩ := EStateM.bind_eq_ok hp
  obtain ⟨_, _, hlate, -⟩ := EStateM.bind_eq_ok hp
  simp [Reaction.quiet, hraise hearly, hraise hlate]

end

/-! ## A stream to its end -/

/-- `WithinBudget` for the rest of a stream. -/
def BudgetFrom (a : CollectArgs) (fs : List ResponseFrame) (pre : List Bytes) : List Bytes → Prop
  | [] => True
  | packet :: post =>
    (ignorable a packet = true → pre.countP (accepted a) < fs.length →
      (pre ++ [packet]).countP (skipped a) ≤ 32) ∧ BudgetFrom a fs (pre ++ [packet]) post

section
variable {a : CollectArgs} {c : Collect} {deadline : Nat} {s : MotuUsbDatastore}
  {pre post stream : List Bytes} {fs : List ResponseFrame}

open MotuUsbDatastore

theorem budgetFrom_iff : BudgetFrom a fs pre post ↔ ∀ mid packet rest, post = mid ++ packet :: rest →
    ignorable a packet = true → (pre ++ mid).countP (accepted a) < fs.length →
    (pre ++ mid ++ [packet]).countP (skipped a) ≤ 32 := by
  induction post generalizing pre with
  | nil => simp [BudgetFrom]
  | cons packet post ih =>
    rw [BudgetFrom, ih]
    constructor
    · rintro ⟨hhead, htail⟩ mid p rest heq hign hopen
      cases mid with
      | nil =>
        cases heq
        simp only [List.append_nil] at hopen ⊢
        exact hhead hign hopen
      | cons x mid =>
        cases heq
        have := htail mid p rest rfl hign (by simpa using hopen)
        simpa using this
    · intro h
      refine ⟨fun hign hopen => ?_, fun mid p rest heq hign hopen => ?_⟩
      · have := h [] packet post rfl hign (by simpa using hopen)
        simpa using this
      · have := h (packet :: mid) p rest (by rw [heq]; rfl) hign (by simpa using hopen)
        simpa using this

/-- After the end of the response nothing is read. -/
theorem budgetFrom_of_complete (h : fs.length ≤ pre.countP (accepted a)) : BudgetFrom a fs pre post := by
  rw [budgetFrom_iff]
  intro mid packet rest _ _ hopen
  rw [List.countP_append] at hopen
  omega

theorem nextReads_cons (h : nextReads b (packet :: post).length reads =
    ((packet :: post).map .ok, rest)) : ∃ reads₁, readLogicalFrame b reads = (.ok packet, reads₁) ∧
      nextReads b post.length reads₁ = (post.map .ok, rest) := by
  simp only [List.length_cons, nextReads, List.map_cons, Prod.mk.injEq, List.cons.injEq] at h
  obtain ⟨⟨hfirst, hrest⟩, hlast⟩ := h
  exact ⟨(readLogicalFrame b reads).2, by rw [← hfirst], by rw [← hrest, ← hlast]⟩

/-- The end of the stream is not before the end of the response. -/
theorem Traffic.length_eq (h : Traffic a stream fs) (hc : Progress a stream c) : c.frames = fs := by
  rw [← h.response, hc.frames]

/-- The frames counted are never more than those of the response. -/
theorem Traffic.count_le (h : Traffic a stream fs) (hstream : stream = pre ++ post)
    (hc : Progress a pre c) : pre.countP (accepted a) ≤ fs.length := by
  rw [← hc.counted.frames, hc.frames, ← h.response, hstream, List.filterMap_append,
    List.length_append]
  omega

/-- The limit on the reads leaves room for the whole stream. -/
theorem Traffic.reads_lt (h : Traffic a stream fs) (ha : DefaultLimits a) (hc : Progress a pre c)
    (hstream : stream = pre ++ packet :: post) : c.reads < a.maxReads := by
  have hlen := h.packets
  have hmax : a.maxReads = 546 := ha.maxReads
  rw [hstream, List.length_append, List.length_cons] at hlen
  have := hc.counted.reads
  omega

/-- After a packet that does not end the response there is more to come. -/
theorem Step.open_of_not_stop {r : Reaction} (hst : Step a fs pre packet r) (h : Traffic a stream fs)
    (hstream : stream = pre ++ packet :: post) (hopen : pre.countP (accepted a) < fs.length)
    (hstop : ¬r.stop = true) : (pre ++ [packet]).countP (accepted a) < fs.length := by
  have hcut : stream = (pre ++ [packet]) ++ post := by simp [hstream]
  have hle := h.count_le hcut hst.progress
  have hne : accepted a packet = true → (pre ++ [packet]).countP (accepted a) ≠ fs.length :=
    fun hacc heq => hstop (hst.stop.mpr ⟨hacc, heq⟩)
  rw [countP_snoc] at hle hne ⊢
  cases hacc : accepted a packet with
  | false =>
    simp only [Bool.toNat_false]
    omega
  | true =>
    have := hne hacc
    simp only [hacc, Bool.toNat_true] at this hle ⊢
    omega

/-- Within its budget a stream is collected to the end of the response. -/
theorem collectLoop_returns (h : Traffic a stream fs) (ha : DefaultLimits a)
    (hs : Serene a deadline s) (hc : Progress a pre c) (hstream : stream = pre ++ post)
    (hopen : pre.countP (accepted a) < fs.length)
    (hreads : nextReads a.useCancellableRead post.length s.wire.reads = (post.map .ok, rest))
    (hn : c.reads + n = a.maxReads) (hbudget : BudgetFrom a fs pre post) :
    ∃ c' s', collectLoop a started deadline n c s = .ok c' s' ∧ Serene a deadline s' ∧
      c'.frames = fs := by
  induction post generalizing pre c s n with
  | nil =>
    rw [List.append_nil] at hstream
    have := h.length_eq (hstream ▸ hc)
    have := hc.counted.frames
    simp_all
  | cons packet post ih =>
    have hst := hc.step h ha hstream
    obtain ⟨reads₁, hread, hreads⟩ := nextReads_cons hreads
    have hne := h.nonempty packet (by simp [hstream])
    have hpos := h.reads_lt ha hc hstream
    obtain ⟨n, rfl⟩ : ∃ m, n = m + 1 := ⟨n - 1, by omega⟩
    have hquiet := hst.quiet.mpr fun hign => hbudget.1 hign hopen
    obtain ⟨s₁, hs₁, h₁, hloop⟩ := collectLoop_pass (n := n) hs hc.quietReads
      hpos hread hne hquiet
    rw [hloop]
    by_cases hstop : (react a { c with reads := c.reads + 1 } packet).stop = true
    · rw [if_pos hstop]
      refine ⟨_, s₁, rfl, hs₁, ?_⟩
      have hprefix : (react a { c with reads := c.reads + 1 } packet).next.frames <+: fs := by
        rw [hst.progress.frames, ← h.response]
        exact ⟨_, by rw [← List.filterMap_append, List.append_assoc, List.singleton_append, hstream]⟩
      refine hprefix.eq_of_length ?_
      rw [hst.progress.counted.frames]
      exact (hst.stop.mp hstop).2
    · rw [if_neg hstop]
      refine ih hs₁ hst.progress (by simp [hstream]) (hst.open_of_not_stop h hstream hopen hstop)
        (by rw [h₁]; exact hreads) ?_ hbudget.2
      rw [react_reads]
      simp only
      omega

/-- A stream that is collected to an end is within its budget. -/
theorem budgetFrom_of_collectLoop (h : Traffic a stream fs) (ha : DefaultLimits a)
    (hs : Serene a deadline s) (hc : Progress a pre c) (hstream : stream = pre ++ post)
    (hopen : pre.countP (accepted a) < fs.length)
    (hreads : nextReads a.useCancellableRead post.length s.wire.reads = (post.map .ok, rest))
    (hn : c.reads + n = a.maxReads) (hx : collectLoop a started deadline n c s = .ok c' s') :
    BudgetFrom a fs pre post := by
  induction post generalizing pre c s n with
  | nil => trivial
  | cons packet post ih =>
    have hst := hc.step h ha hstream
    obtain ⟨reads₁, hread, hreads⟩ := nextReads_cons hreads
    have hne := h.nonempty packet (by simp [hstream])
    have hpos := h.reads_lt ha hc hstream
    obtain ⟨n, rfl⟩ : ∃ m, n = m + 1 := ⟨n - 1, by omega⟩
    have hquiet := collectLoop_quiet hs hc.quietReads hpos hread hne hx
    refine ⟨fun hign _ => hst.quiet.mp hquiet hign, ?_⟩
    obtain ⟨s₁, hs₁, h₁, hloop⟩ := collectLoop_pass (n := n) hs hc.quietReads
      hpos hread hne hquiet
    by_cases hstop : (react a { c with reads := c.reads + 1 } packet).stop = true
    · exact budgetFrom_of_complete (Nat.le_of_eq (hst.stop.mp hstop).2.symm)
    · rw [hloop, if_neg hstop] at hx
      refine ih hs₁ hst.progress (by simp [hstream]) (hst.open_of_not_stop h hstream hopen hstop)
        (by rw [h₁]; exact hreads) ?_ hx
      rw [react_reads]
      simp only
      omega

/-- No write fails, the deadline does not pass, and the callback does not cancel. -/
structure Undisturbed (a : CollectArgs) (s : MotuUsbDatastore) : Prop extends
    Ready a.timeoutMs s where
  cancels : a.shouldCancel = true → ∀ b ∈ s.wire.cancels, b = false

/-- A reading of the clock between two bounds. -/
theorem monotonic_between (h : ∀ t ∈ s.wire.now :: s.wire.clock, lo ≤ t ∧ t < hi) :
    ∃ t now clock, lo ≤ t ∧ (∀ t ∈ now :: clock, lo ≤ t ∧ t < hi) ∧
      monotonic s = .ok t { s with wire := { s.wire with now, clock } } := by
  cases hc : s.wire.clock with
  | nil =>
    have hx : monotonic s = .ok s.wire.now s := by simp [monotonic, hc]
    exact ⟨s.wire.now, s.wire.now, s.wire.clock, (h _ List.mem_cons_self).1, h, hx⟩
  | cons t clock =>
    have hmem (u : Nat) (hu : u ∈ t :: clock) : u ∈ s.wire.now :: s.wire.clock :=
      List.mem_cons_of_mem _ (hc ▸ hu)
    exact ⟨t, t, clock, (h t (hmem t List.mem_cons_self)).1, fun u hu => h u (hmem u hu),
      by simp [monotonic, hc]⟩

/-- The call is its loop and what comes after it, on a session that is not disturbed. -/
theorem collectResponse_eq (hs : Undisturbed a s) : ∃ started deadline s₁,
    Serene a deadline s₁ ∧ s₁.wire.reads = s.wire.reads ∧
    collectResponse a s = (collectLoop a started deadline a.maxReads {} >>= finish a started) s₁ := by
  obtain ⟨lo, hlo⟩ := hs.clock
  obtain ⟨started, now₁, clock₁, -, hlo₁, hx₁⟩ := monotonic_between (s := cleared s) hlo
  obtain ⟨t, now₂, clock₂, ht, hlo₂, hx₂⟩ := monotonic_between
    (s := { cleared s with wire := { s.wire with now := now₁, clock := clock₁ } }) hlo₁
  refine ⟨started, t + a.timeoutMs,
    { cleared s with wire := { s.wire with now := now₂, clock := clock₂ } }, ?_, rfl, ?_⟩
  · exact ⟨⟨hs.writes, fun u hu => by have := hlo₂ u hu; omega⟩, hs.cancels⟩
  · have hx : (modify cleared : Proc _) s = .ok () (cleared s) := rfl
    unfold collectResponse
    exact (EStateM.bind_ok hx).trans ((EStateM.bind_ok hx₁).trans (EStateM.bind_ok hx₂))

/-- The join of the frames of a well-formed response. -/
theorem Traffic.join_eq (h : Traffic a stream fs) :
    joinParsedResponseFrames fs = .ok (fs.map (·.payload)).flatten := by
  refine joinFrom_eq_ok.mpr ⟨rfl, fun i f hf => ?_⟩
  rw [Nat.zero_add]
  exact h.segments i f hf

theorem finish_returns (hs : Serene a deadline s) (h : Traffic a stream fs) (hc : c.frames = fs) :
    ∃ s', finish a started c s = .ok (fs.map (·.payload)).flatten s' := by
  subst hc
  obtain ⟨response, hr⟩ : ∃ response, response = (c.frames.map (·.payload)).flatten := ⟨_, rfl⟩
  have hremember : remember response s = .ok () { s with
      lastResponsePayload := some (parseDatastoreResponse response)
      lastResponseEtag := (parseDatastoreResponse response).etag } := rfl
  have hs₁ : Serene a deadline { s with
      lastResponsePayload := some (parseDatastoreResponse response)
      lastResponseEtag := (parseDatastoreResponse response).etag } :=
    ⟨⟨hs.writes, hs.clock⟩, hs.cancels⟩
  obtain ⟨t, -, s₂, hx, -⟩ := monotonic_goes hs₁
  have hrecord : recordResponseStats a.timeoutMs started c _ = .ok () _ := EStateM.bind_ok hx
  unfold finish
  rw [if_neg h.complete, h.join_eq, ← hr]
  exact ⟨_, (EStateM.bind_ok hremember).trans (EStateM.bind_ok hrecord)⟩

/-- The request gets its response exactly if the stream is within its budget: whenever an unknown
packet or a damaged frame of another sequence comes before the end of the response, the stale frames
and the packets of no use so far, itself included, are at most 32. -/
theorem stale_traffic_iff {a : CollectArgs} {s : MotuUsbDatastore} {stream : List Bytes}
    {fs : List ResponseFrame} {rest : List ReadEvent} (ha : DefaultLimits a)
    (hs : Undisturbed a s) (h : Traffic a stream fs)
    (hreads : nextReads a.useCancellableRead stream.length s.wire.reads = (stream.map .ok, rest)) :
    (∃ s', collectResponse a s = .ok (fs.map (·.payload)).flatten s') ↔
      WithinBudget a stream fs := by
  have hbudget : WithinBudget a stream fs ↔ BudgetFrom a fs [] stream := by
    rw [budgetFrom_iff]
    exact Iff.rfl
  have hstart : Progress a [] {} := ⟨counted_start, rfl, rfl, fun _ h => by cases h⟩
  have hopen : ([] : List Bytes).countP (accepted a) < fs.length := List.length_pos_iff.mpr h.complete
  obtain ⟨started, deadline, s₁, hs₁, h₁, hx⟩ := collectResponse_eq hs
  rw [← h₁] at hreads
  rw [hbudget, hx]
  constructor
  · rintro ⟨s', hret⟩
    obtain ⟨c, s₂, hloop, -⟩ := EStateM.bind_eq_ok hret
    exact budgetFrom_of_collectLoop h ha hs₁ hstart rfl hopen hreads (Nat.zero_add _) hloop
  · intro hb
    obtain ⟨c, s₂, hloop, hs₂, hframes⟩ := collectLoop_returns h ha hs₁ hstart rfl
      hopen hreads (Nat.zero_add _) hb
    obtain ⟨s', hf⟩ := finish_returns hs₂ h hframes
    exact ⟨s', (EStateM.bind_ok hloop).trans hf⟩

/-! ## Short streams -/

theorem bytesOf_le (p : Bytes → Bool) (packets : List Bytes) :
    bytesOf p packets ≤ packets.flatten.length := by
  induction packets with
  | nil => exact Nat.le_refl _
  | cons packet packets ih =>
    rw [← List.singleton_append, bytesOf_append, bytesOf_singleton, List.flatten_append,
      List.length_append, List.flatten_singleton]
    split <;> omega

/-- A short stream is within the limits on frames and bytes. -/
theorem Traffic.of_short {f : ResponseFrame} (hne : ∀ packet ∈ stream, packet ≠ [])
    (hdamaged : ∀ packet ∈ stream, damaged a packet = false)
    (hresponse : stream.filterMap
      (fun packet => (parseResponseFrame packet a.expectedMessageSeq).toOption) = [f])
    (hsegment : f.segmentIndex = 0) (hfinal : f.final = true) (hlen : stream.length ≤ 256)
    (hbytes : stream.flatten.length ≤ 1024 * 1024)
    (hign : stream.countP (Datastore.ignorable a) ≤ 32) : Traffic a stream [f] where
  nonempty := hne
  undamaged := hdamaged
  response := hresponse
  complete := List.cons_ne_nil _ _
  segments i f' hf := by
    cases i with
    | zero => cases hf; simp [hsegment, hfinal]
    | succ i => cases hf
  frames := by simp
  bytes := (bytesOf_le _ _).trans hbytes
  staleFrames _ _ := List.countP_le_length.trans hlen
  staleBytes _ _ := (bytesOf_le _ _).trans hbytes
  ignorable := hign
  packets := by omega

/-- An empty segment of a response. -/
def emptyFrame (seq segment : Nat) (final : Bool) : ResponseFrame where
  header := NREK
  wrapperSeq := 0x21
  wrapperType := 0
  wrapperLen := 28
  messageSeq := seq
  final := final
  segmentIndex := segment
  payload := []

/-- A stale response of `n` frames, a packet that is no frame, and the response. -/
def staleBurst (n : Nat) : List Bytes :=
  (List.range n).map (fun i => encode (emptyFrame 1 i (i + 1 = n))) ++
    [[0x21, 0, 5, 0, 0xff], encode (emptyFrame 2 0 true)]

def burstSession (n : Nat) : MotuUsbDatastore := { wire := { reads := (staleBurst n).map .data } }

theorem burstSession_undisturbed :
    Undisturbed { expectedMessageSeq := 2 } (burstSession n) where
  writes _ h := nomatch h
  clock := ⟨0, fun t ht => by
    cases List.mem_singleton.mp ht
    exact ⟨Nat.le_refl 0, Nat.zero_lt_succ 1199⟩⟩
  cancels h := nomatch h

/-- A stale response of two frames is drained. -/
theorem stale_traffic_drained :
    Traffic { expectedMessageSeq := 2 } (staleBurst 2) [emptyFrame 2 0 true] ∧
    ∃ s', collectResponse { expectedMessageSeq := 2 } (burstSession 2) = .ok [] s' := by
  have h : Traffic { expectedMessageSeq := 2 } (staleBurst 2) [emptyFrame 2 0 true] :=
    .of_short (by decide +kernel) (by decide +kernel) (by decide +kernel) rfl rfl
      (by decide +kernel) (by decide +kernel) (by decide +kernel)
  refine ⟨h, (stale_traffic_iff ⟨rfl, rfl, rfl, rfl⟩ burstSession_undisturbed h rfl).mpr ?_⟩
  intro pre packet post heq _ _
  have hlen : (pre ++ [packet]).length ≤ (staleBurst 2).length := by
    simp only [heq, List.length_append, List.length_cons, List.length_nil]
    omega
  exact (List.countP_le_length.trans hlen).trans (by decide +kernel)

/-- The packet that is no frame is the only ignorable one, but after 32 stale frames it fails the
request. -/
theorem stale_burst_fails :
    Traffic { expectedMessageSeq := 2 } (staleBurst 32) [emptyFrame 2 0 true] ∧
    DefaultLimits { expectedMessageSeq := 2 } ∧
    Undisturbed { expectedMessageSeq := 2 } (burstSession 32) ∧
    nextReads false (staleBurst 32).length (burstSession 32).wire.reads =
      ((staleBurst 32).map .ok, []) ∧
    ¬∃ response s', collectResponse { expectedMessageSeq := 2 } (burstSession 32) =
      .ok response s' := by
  refine ⟨.of_short (by decide +kernel) (by decide +kernel) (by decide +kernel) rfl rfl
      (by decide +kernel) (by decide +kernel) (by decide +kernel), ⟨rfl, rfl, rfl, rfl⟩,
    burstSession_undisturbed, rfl, ?_⟩
  rintro ⟨response, s', h⟩
  have hkind : raisedKind (collectResponse { expectedMessageSeq := 2 } (burstSession 32)) =
      some .datastoreTimeout := by decide +kernel
  rw [h] at hkind
  cases hkind

end

end Datastore

end MotuProxy
