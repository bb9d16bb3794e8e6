import MotuProxy.Verify.Collector

/-! # Preemption of a long poll

A cancelled poll leaves the unread chunks of its response in the pipe, and the response to the
foreground request comes after them. The quarantine by message sequence works on logical frames:
`foreground_iff` says that every foreground response comes back intact exactly if the unread chunks
are whole logical frames, none of them under the sequence of the foreground request. A cut on a
frame boundary leaves such chunks; a cut inside a frame need not.
-/

namespace MotuProxy

open Py Protocol Responses

namespace Datastore

open Delivery

/-! ## Reactions to whole packets -/

section
variable {a : CollectArgs} {c : Collect} {packet : Bytes}

/-- A packet under the expected sequence is a frame of the response, or the collector raises. -/
theorem react_own (h : responseMessageSeq packet = some a.expectedMessageSeq) :
    (react a c packet).quiet = false ∨ ∃ f, parseResponseFrame packet a.expectedMessageSeq = .ok f := by
  obtain ⟨hhead, hack⟩ := responseMessageSeq_eq_some h
  cases hp : parseResponseFrame packet a.expectedMessageSeq with
  | error e => exact .inl (by simp [react, hack, hhead, h, hp, Reaction.quiet])
  | ok f => exact .inr ⟨f, rfl⟩

/-- What a packet of another sequence costs: at most one ignored packet, and the frame and its bytes
on the account of the stale response. -/
structure Skips (a : CollectArgs) (c : Collect) (packet : Bytes) (r : Reaction) : Prop where
  stop : r.stop = false
  frames : r.next.frames = c.frames
  total : r.next.total = c.total
  quietReads : r.next.quietReads = 0
  ignored : r.next.ignoredPackets ≤ c.ignoredPackets + 1
  staleFrames : r.next.staleFrames ≤ c.staleFrames + 1
  staleTotal : r.next.staleTotal ≤ c.staleTotal + packet.length
  quiet : c.staleFrames + 1 ≤ a.maxResponseFrames → c.staleTotal + packet.length ≤ a.maxBytes →
    (Valid packet ∨ isDeviceAck packet = true ∨ c.ignoredPackets + 1 ≤ a.maxIgnoredPackets) →
    r.quiet = true

theorem ignorePacket_skips {ack : Bool} (hack : ¬isDeviceAck packet = true) (hp : ¬Valid packet) :
    Skips a c packet (ignorePacket a { c with quietReads := 0 } ack) where
  stop := rfl
  frames := rfl
  total := rfl
  quietReads := rfl
  ignored := Nat.le_refl _
  staleFrames := Nat.le_succ _
  staleTotal := Nat.le_add_right _ _
  quiet _ _ h := by
    have hlim : ¬a.maxIgnoredPackets < c.ignoredPackets + 1 :=
      Nat.not_lt.mpr ((h.resolve_left hp).resolve_left hack)
    simp [ignorePacket, Reaction.quiet, hlim]

/-- A stale frame opens an account for its sequence, or is booked on the open one. -/
theorem staleFrame_skips : Skips a c packet (staleFrame a { c with quietReads := 0 } seq packet f) := by
  unfold staleFrame
  by_cases hnew : c.staleMessageSeq ≠ some seq
  · simp only [hnew, if_true, ne_eq, not_false_eq_true]
    constructor <;> (try split) <;> (try split) <;> try split
    all_goals simp_all [Reaction.quiet]
    all_goals omega
  · simp only [hnew, if_false]
    constructor <;> (try split) <;> (try split) <;> try split
    all_goals simp_all [Reaction.quiet]

theorem react_foreign (h : responseMessageSeq packet ≠ some a.expectedMessageSeq) :
    Skips a c packet (react a c packet) := by
  have hcase := react_cases a c packet
  generalize react a c packet = r at hcase ⊢
  cases hcase with
  | deviceAck =>
    exact ⟨rfl, rfl, rfl, rfl, Nat.le_succ _, Nat.le_succ _, Nat.le_add_right _ _, fun _ _ _ => rfl⟩
  | damaged hseq => exact absurd hseq h
  | current hf => exact absurd (responseMessageSeq_of_parse hf) h
  | otherDamaged hseq _ hp =>
    exact ignorePacket_skips (by simp [(responseMessageSeq_eq_some hseq).2]) (not_valid hseq hp)
  | stale => exact staleFrame_skips
  | unknown hack hnone =>
    refine ignorePacket_skips (by simp [hack]) fun ⟨seq, f, hf⟩ => ?_
    cases hnone.symm.trans (responseMessageSeq_of_parse hf)

end

/-! ## Whole logical frames -/

/-- The chunks are whole logical frames, namely the packets `ps`. -/
inductive Frames : List Bytes → List Bytes → Prop
  | nil : Frames [] []
  | cons (hstart : Starts first) (hrest : Completes (first.word 2 2) first chunks)
      (h : Frames rest ps) : Frames (first :: (chunks ++ rest)) ((first ++ chunks.flatten) :: ps)

/-- The packets stay within the limits on frames, bytes, reads and ignored packets. -/
structure WithinLimits (ps : List Bytes) : Prop where
  frames : ps.length ≤ DEFAULT_MAX_RESPONSE_FRAMES
  bytes : ps.flatten.length ≤ DEFAULT_MAX_BYTES
  ignored : (∀ p ∈ ps, Valid p ∨ isDeviceAck p = true) ∨ ps.length ≤ DEFAULT_MAX_IGNORED_PACKETS

section
variable {a : CollectArgs} {c : Collect}

theorem readLogicalFrame_frame (hstart : Starts first) (hrest : Completes (first.word 2 2) first chunks) :
    readLogicalFrame b (.data first :: (chunks.map .data ++ reads)) =
      (.ok (first ++ chunks.flatten), reads) := by
  rw [readLogicalFrame_first hstart]
  exact readChunks_completes hrest

/-- One pass of the collector over a whole frame. -/
theorem collectPure_frame (hq : c.quietReads < 2) (hstart : Starts first)
    (hrest : Completes (first.word 2 2) first chunks) (r : Reaction)
    (hr : r = react a { c with reads := c.reads + 1 } (first ++ chunks.flatten)) :
    collectPure a (n + 1) c (.data first :: (chunks.map .data ++ l)) =
      if r.quiet then if r.stop then some (r.next, l) else collectPure a n r.next l
      else none := by
  have hne : first ++ chunks.flatten ≠ [] := by
    intro h
    have := hstart.1
    rw [(List.append_eq_nil_iff.mp h).1] at this
    exact absurd this (by decide)
  rw [collectPure, if_neg (by omega), readLogicalFrame_frame hstart hrest, hr]
  simp only [hne, if_false]

/-- The collector skips whole frames of other sequences. -/
theorem collectPure_skip (h : Frames rest ps) (hn : ps.length ≤ n) (hq : c.quietReads < 2)
    (hforeign : ∀ p ∈ ps, responseMessageSeq p ≠ some a.expectedMessageSeq)
    (hframes : c.staleFrames + ps.length ≤ a.maxResponseFrames)
    (hbytes : c.staleTotal + ps.flatten.length ≤ a.maxBytes)
    (hignored : (∀ p ∈ ps, Valid p ∨ isDeviceAck p = true) ∨
      c.ignoredPackets + ps.length ≤ a.maxIgnoredPackets) :
    ∃ c', c'.frames = c.frames ∧ c'.total = c.total ∧ c'.quietReads < 2 ∧
      collectPure a n c (rest.map .data ++ l) = collectPure a (n - ps.length) c' l := by
  induction h generalizing n c with
  | nil => exact ⟨c, rfl, rfl, hq, rfl⟩
  | @cons first chunks rest ps hstart hrest _ ih =>
    simp only [List.length_cons, List.flatten_cons, List.length_append] at hn hframes hbytes hignored
    have hskip := react_foreign (a := a) (c := { c with reads := c.reads + 1 })
      (hforeign _ List.mem_cons_self)
    have hquiet := hskip.quiet (by simp only; omega) (by simp only [List.length_append]; omega)
      (or_assoc.mp (hignored.imp (fun h => h _ List.mem_cons_self) fun h => by simp only; omega))
    have hif := hskip.ignored
    have hsf := hskip.staleFrames
    have hst := hskip.staleTotal
    simp only [List.length_append] at hif hsf hst
    obtain ⟨n, rfl⟩ : ∃ m, n = m + 1 := ⟨n - 1, by omega⟩
    obtain ⟨c', hf, ht, hq', heq⟩ := ih (n := n) (c := (react a { c with reads := c.reads + 1 }
      (first ++ chunks.flatten)).next) (by omega) (by rw [hskip.quietReads]; decide)
      (fun p hp => hforeign p (List.mem_cons_of_mem _ hp)) (by omega) (by omega)
      (hignored.imp (fun h p hp => h p (List.mem_cons_of_mem _ hp)) fun h => by omega)
    refine ⟨c', hf.trans hskip.frames, ht.trans hskip.total, hq', ?_⟩
    rw [List.map_cons, List.map_append, List.cons_append, List.append_assoc,
      collectPure_frame hq hstart hrest _ rfl, hquiet, hskip.stop, if_pos rfl, if_neg (by decide),
      heq, List.length_cons, Nat.add_sub_add_right]

end

/-! ## The response to the foreground request -/

/-- A response of the device under a message sequence, within the limits. -/
structure IsResponse (seq : Nat) (fs : List ResponseFrame) : Prop where
  nonempty : fs ≠ []
  fits : ∀ f ∈ fs, FrameFits f ∧ f.messageSeq = seq
  segments : ∀ i f, fs[i]? = some f → f.segmentIndex = i ∧ (f.final = true ↔ i + 1 = fs.length)
  frames : fs.length ≤ DEFAULT_MAX_RESPONSE_FRAMES
  bytes : (fs.map encode).flatten.length ≤ DEFAULT_MAX_BYTES

/-- Packets sent in chunks: each starts in a fresh chunk, which holds its header. -/
inductive Chunked (maxPacketSize : Nat) : List Bytes → List Bytes → Prop
  | nil : Chunked maxPacketSize [] []
  | cons {first : Bytes} {chunks ps rest : List Bytes} (hfirst : 4 ≤ first.length)
      (hchunks : ∀ chunk ∈ first :: chunks, chunk ≠ [] ∧ chunk.length ≤ maxPacketSize)
      (h : Chunked maxPacketSize ps rest) :
      Chunked maxPacketSize ((first ++ chunks.flatten) :: ps) (first :: (chunks ++ rest))

section
variable {a : CollectArgs} {c : Collect}

theorem completes_of_length {got : Bytes} (h : (got ++ chunks.flatten).length = expected)
    (hne : ∀ chunk ∈ chunks, chunk ≠ []) : Completes expected got chunks := by
  induction chunks generalizing got with
  | nil => exact Nat.le_of_eq (by simpa using h.symm)
  | cons chunk chunks ih =>
    have hpos : 0 < chunk.length := List.length_pos_iff.mpr (hne chunk List.mem_cons_self)
    refine ⟨?_, hne chunk List.mem_cons_self, ih ?_ fun x hx => hne x (List.mem_cons_of_mem _ hx)⟩
    · rw [← h]
      simp only [List.flatten_cons, List.length_append]
      omega
    · rw [← h]
      simp

/-- The chunks of encoded frames are whole logical frames. -/
theorem Chunked.frames (h : Chunked maxPacketSize ps chunks)
    (hps : ∀ p ∈ ps, ∃ f, FrameFits f ∧ p = encode f) : Frames chunks ps := by
  induction h with
  | nil => exact .nil
  | @cons first chunks ps rest hfirst hchunks _ ih =>
    obtain ⟨f, hf, heq⟩ := hps _ List.mem_cons_self
    have hword : Bytes.word 2 first 2 = (first ++ chunks.flatten).length := by
      have hleft : Bytes.word 2 (first ++ chunks.flatten) 2 = Bytes.word 2 first 2 := by
        rw [Bytes.word, Bytes.word, Bytes.slice_append_left hfirst]
      rw [← hleft, heq, hf.length_encode, encode, hf.word_wrapper]
    refine .cons ⟨hfirst, ?_⟩ (completes_of_length hword.symm fun chunk hc =>
      (hchunks chunk (List.mem_cons_of_mem _ hc)).1) (ih fun p hp => hps p (List.mem_cons_of_mem _ hp))
    rw [hword, List.length_append]
    omega

/-- The collector accepts the frames of the response, up to the one with the final flag. -/
theorem collectPure_response (h : Frames chunks ps) (hps : ps = fs.map encode) (hne : fs ≠ [])
    (hfs : ∀ f ∈ fs, FrameFits f ∧ f.messageSeq = a.expectedMessageSeq)
    (hfinal : ∀ i f, fs[i]? = some f → (f.final = true ↔ i + 1 = fs.length))
    (hn : fs.length ≤ n) (hq : c.quietReads < 2)
    (hframes : c.frames.length + fs.length ≤ a.maxResponseFrames)
    (hbytes : c.total + ps.flatten.length ≤ a.maxBytes) :
    ∃ c', c'.frames = c.frames ++ fs ∧
      collectPure a n c (chunks.map .data ++ l) = some (c', l) := by
  induction h generalizing fs n c with
  | nil => exact absurd (List.map_eq_nil_iff.mp hps.symm) hne
  | @cons first chunks rest ps hstart hrest _ ih =>
    obtain ⟨f, fs, rfl, hpacket, rfl⟩ := List.map_eq_cons_iff.mp hps.symm
    obtain ⟨hf, hseq⟩ := hfs f List.mem_cons_self
    simp only [List.length_cons, List.flatten_cons] at hn hframes hbytes
    rw [List.length_append] at hbytes
    obtain ⟨n, rfl⟩ : ∃ m, n = m + 1 := ⟨n - 1, by omega⟩
    have hparse : parseResponseFrame (first ++ chunks.flatten) a.expectedMessageSeq = .ok f := by
      rw [← hpacket, ← hseq]
      simpa using hf.parseResponseFrame_encode (q := [])
    have hreact := react_current (c := { c with reads := c.reads + 1 }) hparse
    have hcurrent : react a { c with reads := c.reads + 1 } (first ++ chunks.flatten) = {
        next := { c with
          reads := c.reads + 1
          quietReads := 0
          frames := c.frames ++ [f]
          total := c.total + (first ++ chunks.flatten).length }
        ack := true
        stop := f.final } := by
      rw [hreact, currentFrame_within (by simp only; omega) (by simp only; omega)]
    rw [List.map_cons, List.map_append, List.cons_append, List.append_assoc,
      collectPure_frame hq hstart hrest _ hcurrent.symm]
    simp only [Reaction.quiet, Option.isNone_none, Bool.and_self, if_true]
    have hlast := hfinal 0 f rfl
    cases fs with
    | nil =>
      have : rest = [] := by
        rename_i hr
        cases hr
        rfl
      rw [this, if_pos (hlast.mpr rfl)]
      exact ⟨_, rfl, rfl⟩
    | cons f' fs =>
      have hnot : ¬f.final = true := by
        rw [hlast]
        simp
      rw [if_neg hnot]
      obtain ⟨c', hc', heq⟩ := ih (n := n) (c := { c with
          reads := c.reads + 1
          quietReads := 0
          frames := c.frames ++ [f]
          total := c.total + (first ++ chunks.flatten).length }) rfl (List.cons_ne_nil f' fs)
        (fun g hg => hfs g (List.mem_cons_of_mem _ hg))
        (fun i g hg => by rw [hfinal (i + 1) g hg]; simp) (by omega) Nat.two_pos
        (by simp only [List.length_append, List.length_singleton]; omega)
        (by simp only [List.length_append] at *; omega)
      exact ⟨c', by rw [hc']; simp, heq⟩

theorem IsResponse.join (h : IsResponse seq fs) :
    joinParsedResponseFrames fs = .ok (fs.map (·.payload)).flatten :=
  joinFrom_eq_ok.mpr ⟨rfl, fun i f hf => by
    obtain ⟨hidx, hfin⟩ := h.segments i f hf
    exact ⟨by omega, hfin⟩⟩

/-- Whole frames of other sequences before the response do not change what is returned. -/
theorem responsePure_of_frames (hrest : Frames rest ps) (hlim : WithinLimits ps)
    (hforeign : ∀ p ∈ ps, responseMessageSeq p ≠ some seq) (hfs : IsResponse seq fs)
    (hchunks : Chunked maxPacketSize (fs.map encode) chunks) :
    responsePure { expectedMessageSeq := seq } (rest.map .data ++ chunks.map .data) =
      some (fs.map (·.payload)).flatten := by
  have hl₁ := hlim.frames
  have hl₂ := hfs.frames
  have hl₃ := hfs.bytes
  have hb := hlim.bytes
  have hframes : Frames chunks (fs.map encode) := hchunks.frames fun p hp => by
    obtain ⟨f, hf, rfl⟩ := List.mem_map.mp hp
    exact ⟨f, (hfs.fits f hf).1, rfl⟩
  have hreads : DEFAULT_MAX_RESPONSE_READS = DEFAULT_MAX_RESPONSE_FRAMES * 2 + 34 := rfl
  obtain ⟨c, hcf, hct, hq, hskip⟩ := collectPure_skip (a := { expectedMessageSeq := seq })
    (c := {}) (n := DEFAULT_MAX_RESPONSE_READS) (l := chunks.map .data) hrest (by omega)
    (by decide) hforeign (by simpa using hl₁) (by simpa using hb) (by simpa using hlim.ignored)
  obtain ⟨c', hcf', hrun⟩ := collectPure_response (a := { expectedMessageSeq := seq }) (c := c)
    (n := DEFAULT_MAX_RESPONSE_READS - ps.length) (l := []) hframes rfl hfs.nonempty
    hfs.fits (fun i f hf => (hfs.segments i f hf).2) (by omega) hq
    (by rw [hcf]; simpa using hl₂) (by rw [hct]; simpa using hl₃)
  rw [List.append_nil] at hrun
  rw [hcf] at hcf'
  have hcf' : c'.frames = fs := hcf'
  rw [responsePure, collected, hskip, hrun, Option.bind_some, conclude, hcf', if_neg hfs.nonempty, hfs.join]
  rfl

end

/-! ## What the unread chunks have to be

Two responses tell the unread chunks apart: one with an empty payload and one with a single byte.
As long as the collector reads unread chunks only, it does the same before both. When a frame
swallows the chunk of the response, the length of what it contributes is announced by its first
chunk, so the results cannot differ by one byte. -/

section
variable {a : CollectArgs} {c : Collect}

theorem completes_or_fallsShort (expected : Nat) (got : Bytes) (hne : ∀ chunk ∈ chunks, chunk ≠ []) :
    (∃ pre post, chunks = pre ++ post ∧ Completes expected got pre) ∨
      FallsShort expected got chunks := by
  induction chunks generalizing got with
  | nil =>
    by_cases h : got.length < expected
    · exact .inr h
    · exact .inl ⟨[], [], rfl, Nat.not_lt.mp h⟩
  | cons chunk chunks ih =>
    by_cases h : got.length < expected
    · have hc := hne chunk List.mem_cons_self
      rcases ih (got ++ chunk) fun x hx => hne x (List.mem_cons_of_mem _ hx) with
        ⟨pre, post, rfl, hp⟩ | hs
      · exact .inl ⟨chunk :: pre, post, rfl, h, hc, hp⟩
      · exact .inr ⟨h, hc, hs⟩
    · exact .inl ⟨[], chunk :: chunks, rfl, Nat.not_lt.mp h⟩

/-- A frame that the unread chunks leave incomplete takes the next chunk too. -/
theorem readChunks_swallow {got : Bytes} (h : FallsShort expected got chunks) (hx : x ≠ []) :
    (∃ e, readChunks b expected got (chunks.map .data ++ [.data x]) = (.error e, [])) ∨
      readChunks b expected got (chunks.map .data ++ [.data x]) =
        (.ok (got ++ chunks.flatten ++ x), []) := by
  induction chunks generalizing got with
  | nil =>
    have hlt : got.length < expected := h
    cases x with
    | nil => exact absurd rfl hx
    | cons y ys =>
      by_cases hl : (got ++ (y :: ys)).length < expected
      · exact .inl ⟨_, by simp only [List.map_nil, List.nil_append, readChunks, hlt, hl, if_true]; rfl⟩
      · refine .inr ?_
        simp only [List.map_nil, List.nil_append, readChunks, hlt, hl, if_true, if_false]
        simp
  | cons chunk chunks ih =>
    obtain ⟨hlt, hne, h⟩ := h
    cases chunk with
    | nil => exact absurd rfl hne
    | cons y ys =>
      have := ih h
      simpa [readChunks, hlt] using this

theorem readLogicalFrame_swallow (hstart : Starts first)
    (h : FallsShort (first.word 2 2) first chunks) (hx : x ≠ []) :
    (∃ e, readLogicalFrame b (.data first :: (chunks.map .data ++ [.data x])) = (.error e, [])) ∨
      readLogicalFrame b (.data first :: (chunks.map .data ++ [.data x])) =
        (.ok (first ++ chunks.flatten ++ x), []) := by
  rw [readLogicalFrame_first hstart]
  exact readChunks_swallow h hx

/-- Nothing is accepted from an empty pipe. -/
theorem collectPure_nil (h : collectPure a n c [] = some p) : p.1.frames = c.frames := by
  induction n generalizing c with
  | zero =>
    rw [collectPure] at h
    split at h
    · cases h; rfl
    · cases h
  | succ n ih =>
    rw [collectPure] at h
    split at h
    · cases h; rfl
    · simp only [readLogicalFrame, bulkRead, if_true] at h
      have := ih (c := { c with reads := c.reads + 1, quietReads := c.quietReads + 1 }) h
      exact this

/-- The last packet decides: what it leaves is joined. -/
theorem conclude_last {r : Reaction}
    (h : ((if r.quiet then if r.stop then some (r.next, []) else collectPure a n r.next []
      else none).bind fun p => conclude p.1) = some response) :
    r.next.frames ≠ [] ∧ joinParsedResponseFrames r.next.frames = .ok response := by
  obtain ⟨p, hp, hc⟩ := Option.bind_eq_some_iff.mp h
  have hframes : p.1.frames = r.next.frames := by
    split at hp
    · split at hp
      · cases hp; rfl
      · exact collectPure_nil hp
    · cases hp
  unfold conclude at hc
  rw [hframes] at hc
  split at hc
  · cases hc
  · rename_i hne
    refine ⟨hne, ?_⟩
    cases hj : joinParsedResponseFrames r.next.frames with
    | error e => rw [hj] at hc; cases hc
    | ok resp => rw [hj] at hc; cases hc; rfl

/-- The frame with the final flag is the last one, so frames that join do not join with one more. -/
theorem not_join_append (hne : frames ≠ []) (h : joinParsedResponseFrames frames = .ok r) :
    joinParsedResponseFrames (frames ++ [f]) ≠ .ok r' := by
  intro h'
  have hi : frames.length - 1 < frames.length := by
    have := List.length_pos_iff.mpr hne
    omega
  have hget : frames[frames.length - 1]? = some frames[frames.length - 1] :=
    List.getElem?_eq_getElem hi
  have h₁ := ((joinFrom_eq_ok.mp h).2 _ _ hget).2
  have h₂ := ((joinFrom_eq_ok.mp h').2 (frames.length - 1) _
    ((List.getElem?_append_left hi).trans hget)).2
  have := h₂.mp (h₁.mpr (by omega))
  rw [List.length_append, List.length_singleton] at this
  omega

/-- The lengths of a join in which the last packet may have a part. -/
theorem length_of_react {first : Bytes} (hlen : 4 ≤ first.length)
    (h : joinParsedResponseFrames (react a c (first ++ tail)).next.frames = .ok response) :
    (react a c (first ++ tail)).next.frames = c.frames ∨
      response.length + 28 = (c.frames.map (·.payload)).flatten.length + first.word 2 2 := by
  rcases react_frames a c (first ++ tail) with hr | ⟨f, hp, hr⟩
  · exact .inl hr
  · refine .inr ?_
    obtain ⟨hwf, -, rfl⟩ := parseResponseFrame_eq_ok.mp hp
    have hpay := hwf.length_payload
    have hleft : Bytes.word 2 (first ++ tail) 2 = first.word 2 2 := by
      rw [Bytes.word, Bytes.word, Bytes.slice_append_left hlen]
    rw [hleft] at hpay
    rw [hr] at h
    obtain ⟨rfl, -⟩ := joinFrom_eq_ok.mp h
    rw [List.map_append, List.flatten_append, List.length_append, List.map_singleton,
      List.flatten_singleton]
    omega

/-- A frame that swallows the response leaves no trace of its payload. -/
theorem not_swallowed {first : Bytes} (hq : c.quietReads = 0) (hstart : Starts first)
    (h : FallsShort (first.word 2 2) first chunks) (hx : x ≠ []) (hy : y ≠ [])
    (hA : collected a n c (.data first :: (chunks.map .data ++ [.data x])) = some [])
    (hB : collected a n c (.data first :: (chunks.map .data ++ [.data y])) = some [0]) : False := by
  have hne : first ≠ [] := by rintro rfl; exact absurd hstart.1 (by decide)
  cases n with
  | zero => rw [collected, collectPure, if_neg (by omega)] at hA; cases hA
  | succ n =>
    have hlast {z response : Bytes} (hz : z ≠ [])
        (hr : collected a (n + 1) c (.data first :: (chunks.map .data ++ [.data z])) =
          some response) :
        (react a { c with reads := c.reads + 1 } (first ++ (chunks.flatten ++ z))).next.frames ≠ [] ∧
        joinParsedResponseFrames (react a { c with reads := c.reads + 1 }
          (first ++ (chunks.flatten ++ z))).next.frames = .ok response := by
      rw [collected, collectPure, if_neg (by omega)] at hr
      rcases readLogicalFrame_swallow (b := a.useCancellableRead) hstart h hz with ⟨e, he⟩ | he
      · rw [he] at hr
        cases hr
      · rw [he] at hr
        simp only [List.append_eq_nil_iff, hne, false_and, if_false, List.append_assoc] at hr
        exact conclude_last hr
    obtain ⟨hneA, hjA⟩ := hlast hx hA
    obtain ⟨hneB, hjB⟩ := hlast hy hB
    have hlenA := length_of_react hstart.1 hjA
    have hlenB := length_of_react hstart.1 hjB
    simp only [List.length_nil, List.length_singleton] at hlenA hlenB
    rcases react_frames a { c with reads := c.reads + 1 } (first ++ (chunks.flatten ++ x)) with
      hfA | ⟨fA, -, hfA⟩ <;>
    rcases react_frames a { c with reads := c.reads + 1 } (first ++ (chunks.flatten ++ y)) with
      hfB | ⟨fB, -, hfB⟩ <;> rw [hfA] at hjA hneA hlenA <;> rw [hfB] at hjB hneB hlenB
    · rw [hjA] at hjB
      cases hjB
    · exact not_join_append hneA hjA hjB
    · exact not_join_append hneB hjB hjA
    · have hA' := hlenA.resolve_left (by simp)
      have hB' := hlenB.resolve_left (by simp)
      omega

theorem wf_soleFrame (hseq : seq < 256 ^ 4) (hlen : p.length ≤ 65507) :
    Starts (encode (soleFrame seq p)) ∧ Completes ((encode (soleFrame seq p)).word 2 2)
      (encode (soleFrame seq p)) [] := wf_encode (fits_soleFrame hseq hlen)

/-- The response of one frame comes back alone if no frame was there before. -/
theorem frames_of_sole (hseq : a.expectedMessageSeq < 256 ^ 4) (hq : c.quietReads = 0)
    (h : collected a (n + 1) c [.data (encode (soleFrame a.expectedMessageSeq []))] = some []) :
    c.frames = [] := by
  obtain ⟨hstart, hcompl⟩ := wf_soleFrame (p := []) hseq (by decide)
  have hparse := (fits_soleFrame (p := []) hseq (by decide)).parseResponseFrame_encode (q := [])
  rw [List.append_nil] at hparse
  have hrun := collectPure_frame (a := a) (c := c) (n := n) (l := []) (by omega) hstart hcompl _ rfl
  simp only [List.flatten_nil, List.append_nil, List.map_nil] at hrun
  rw [collected, hrun] at h
  obtain ⟨-, hjoin⟩ := conclude_last h
  rw [react_current hparse, currentFrame_frames] at hjoin
  have hindex := ((joinFrom_eq_ok.mp hjoin).2 c.frames.length (soleFrame a.expectedMessageSeq [])
    (by simp)).1
  exact List.length_eq_zero_iff.mp (by simpa [soleFrame] using hindex.symm)

/-- A whole frame before two different responses is not the last of the response. -/
theorem collected_frame {first : Bytes} (hq : c.quietReads = 0) (hstart : Starts first)
    (hcompl : Completes (first.word 2 2) first chunks) (hdiff : x ≠ y)
    (hA : collected a (n + 1) c (.data first :: (chunks.map .data ++ l)) = some x)
    (hB : collected a (n + 1) c (.data first :: (chunks.map .data ++ l')) = some y) :
    (react a { c with reads := c.reads + 1 } (first ++ chunks.flatten)).quiet = true ∧
    collected a n (react a { c with reads := c.reads + 1 } (first ++ chunks.flatten)).next l =
      some x ∧
    collected a n (react a { c with reads := c.reads + 1 } (first ++ chunks.flatten)).next l' =
      some y := by
  rw [collected, collectPure_frame (by omega) hstart hcompl _ rfl] at hA hB
  cases hquiet : (react a { c with reads := c.reads + 1 } (first ++ chunks.flatten)).quiet with
  | false => rw [hquiet] at hA; cases hA
  | true =>
    cases hstop : (react a { c with reads := c.reads + 1 } (first ++ chunks.flatten)).stop with
    | true =>
      simp only [hquiet, hstop, if_true, Option.bind_some] at hA hB
      exact absurd (Option.some.inj (hA.symm.trans hB)) hdiff
    | false =>
      simp only [hquiet, hstop, if_true, if_false, Bool.false_eq_true] at hA hB
      exact ⟨rfl, hA, hB⟩

/-- A packet that leaves no frame behind is of another sequence. -/
theorem foreign_of_no_frames (hquiet : (react a c p).quiet = true)
    (hnil : (react a c p).next.frames = []) :
    c.frames = [] ∧ responseMessageSeq p ≠ some a.expectedMessageSeq := by
  refine ⟨?_, fun hown => ?_⟩
  · rcases react_frames a c p with hr | ⟨f, -, hr⟩
    · rw [hr] at hnil; exact hnil
    · rw [hr] at hnil; simp at hnil
  · rcases react_own (c := c) hown with hnq | ⟨f, hf⟩
    · rw [hquiet] at hnq; cases hnq
    · rw [react_current hf, currentFrame_frames] at hnil
      simp at hnil

/-- If both responses come back intact, the unread chunks are whole frames of other sequences. -/
theorem frames_of_returns {r : List Bytes} (hseq : a.expectedMessageSeq < 256 ^ 4)
    (hne : ∀ chunk ∈ r, chunk ≠ []) (hq : c.quietReads = 0)
    (hA : collected a n c (r.map .data ++
      [.data (encode (soleFrame a.expectedMessageSeq []))]) = some [])
    (hB : collected a n c (r.map .data ++
      [.data (encode (soleFrame a.expectedMessageSeq [0]))]) = some [0]) :
    c.frames = [] ∧
      ∃ ps, Frames r ps ∧ ∀ p ∈ ps, responseMessageSeq p ≠ some a.expectedMessageSeq := by
  induction hl : r.length using Nat.strong_induction_on generalizing r n c with
  | _ len ih =>
  cases n with
  | zero =>
    rw [collected, collectPure, if_neg (by omega)] at hA
    cases hA
  | succ n =>
  cases r with
  | nil => exact ⟨frames_of_sole hseq hq hA, [], .nil, fun _ h => by cases h⟩
  | cons first r =>
    have hfirst := hne first List.mem_cons_self
    by_cases hstart : Starts first
    · rcases completes_or_fallsShort (first.word 2 2) first
        (fun x hx => hne x (List.mem_cons_of_mem _ hx)) with ⟨chunks, r, rfl, hcompl⟩ | hshort
      · -- a whole frame: the rest of the chunks is shorter
        simp only [List.map_cons, List.map_append, List.cons_append, List.append_assoc] at hA hB
        obtain ⟨hquiet, hA, hB⟩ := collected_frame hq hstart hcompl (by decide) hA hB
        obtain ⟨hnil, ps, hframes, hforeign⟩ := ih r.length
          (by rw [← hl, List.length_cons, List.length_append]; omega)
          (fun x hx => hne x (List.mem_cons_of_mem _ (List.mem_append_right _ hx)))
          (react_quietReads _ _ _) hA hB rfl
        obtain ⟨hc, hother⟩ := foreign_of_no_frames hquiet hnil
        refine ⟨hc, _, .cons hstart hcompl hframes, fun p hp => ?_⟩
        rcases List.mem_cons.mp hp with rfl | hp
        · exact hother
        · exact hforeign p hp
      · -- a frame cut short: it would swallow both responses
        simp only [List.map_cons, List.cons_append] at hA hB
        refine (not_swallowed hq hstart hshort ?_ ?_ hA hB).elim
        · exact fun h => by have := (wf_soleFrame (p := []) hseq (by decide)).1.1; simp [h] at this
        · exact fun h => by have := (wf_soleFrame (p := [0]) hseq (by decide)).1.1; simp [h] at this
    · obtain ⟨e, he⟩ := readLogicalFrame_runt (b := a.useCancellableRead) hfirst hstart
      simp only [List.map_cons, List.cons_append] at hA
      rw [collected, collectPure, if_neg (by omega), he] at hA
      cases hA

end

/-! ## The foreground request after a cancelled poll -/

section
open MotuUsbDatastore

/-- The session after the device has queued more chunks. -/
def queue (s : MotuUsbDatastore) (chunks : List Bytes) : MotuUsbDatastore :=
  { s with wire := { s.wire with reads := s.wire.reads ++ chunks.map .data } }

/-- The poll left `get` because its read was cancelled. -/
def Cancelled (poll : GetArgs) (s s₁ : MotuUsbDatastore) : Prop :=
  ∃ e, get poll s = .error e s₁ ∧ e.kind = .datastoreCancelled

/-- The unread chunks are whole logical frames, and none of them has the sequence `seq`. -/
def Quarantined (seq : Nat) (rest : List Bytes) : Prop :=
  ∃ ps, Frames rest ps ∧ ∀ p ∈ ps, responseMessageSeq p ≠ some seq

/-- A poll whose request was written leaves the next message sequence behind. -/
theorem currentMessageSeq_of_sent (hpoll : get poll s = .error e s₁)
    (hsent : s₁.requests.length = s.requests.length + 1) :
    s₁.currentMessageSeq = (s.currentMessageSeq + 1) % 2 ^ 32 := by
  have hspec := (Call.exec_spec (A := fun _ => True) (G := fun _ => True) (m := s.messageSeq)
    (q := s.requests) (fun _ _ _ _ _ _ => ⟨trivial, fun _ _ => .inr trivial⟩) (.get poll)).error
    ⟨trivial, rfl, rfl⟩ hpoll
  rcases hspec with hkept | ⟨frame, -, hreq⟩
  · rw [hkept.requests] at hsent
    omega
  · rw [currentMessageSeq, hreq.messageSeq, nextMessageSeq, currentMessageSeq]
    omega

/-- The chunks of frames of one sequence are quarantined from every other sequence. -/
theorem quarantined_of_chunked {fs : List ResponseFrame}
    (hfs : ∀ f ∈ fs, FrameFits f ∧ f.messageSeq = seq)
    (hchunks : Chunked maxPacketSize (fs.map encode) rest) (hne : seq ≠ seq') :
    Quarantined seq' rest := by
  refine ⟨fs.map encode, hchunks.frames fun p hp => ?_, fun p hp => ?_⟩ <;>
    obtain ⟨f, hf, rfl⟩ := List.mem_map.mp hp <;> obtain ⟨henc, hseq⟩ := hfs f hf
  · exact ⟨f, henc, rfl⟩
  · have hparse := henc.parseResponseFrame_encode (q := [])
    rw [List.append_nil] at hparse
    rw [responseMessageSeq_of_parse hparse, hseq]
    exact fun h => hne (Option.some.inj h)

theorem isResponse_soleFrame (hseq : seq < 256 ^ 4) (hlen : p.length ≤ 65507) :
    IsResponse seq [soleFrame seq p] := by
  have henc := fits_soleFrame hseq hlen
  refine ⟨by simp, fun f hf => ?_, fun i f hf => ?_, Nat.succ_le_succ (Nat.zero_le _), ?_⟩
  · cases List.mem_singleton.mp hf
    exact ⟨henc, rfl⟩
  · cases i with
    | zero => cases hf; exact ⟨rfl, by simp [soleFrame]⟩
    | succ i => cases hf
  · have hmax : DEFAULT_MAX_BYTES = 1048576 := rfl
    have hpay : (soleFrame seq p).payload = p := rfl
    rw [List.map_singleton, List.flatten_singleton, henc.length_encode, hmax, hpay]
    omega

theorem chunked_soleFrame (hseq : seq < 256 ^ 4) (hlen : payload.length ≤ 65507)
    (hmax : 28 + payload.length ≤ maxPacketSize) :
    Chunked maxPacketSize ([soleFrame seq payload].map encode) [encode (soleFrame seq payload)] := by
  have hpay : (soleFrame seq payload).payload = payload := rfl
  have hlen' := (fits_soleFrame hseq hlen).length_encode
  rw [hpay] at hlen'
  have hchunk : Chunked maxPacketSize ((encode (soleFrame seq payload) ++ [].flatten) :: [])
      (encode (soleFrame seq payload) :: ([] ++ [])) := .cons (by omega) (fun chunk hc => ?_) .nil
  · simpa using hchunk
  · cases List.mem_singleton.mp hc
    refine ⟨fun h => ?_, by omega⟩
    rw [h, List.length_nil] at hlen'
    omega

/-- After a cancelled poll, every foreground response comes back intact exactly if the unread chunks
are quarantined. They are if the cut falls on a frame boundary of the poll response. -/
theorem foreground_iff (hmax : 28 < maxPacketSize) (hpoll : Cancelled poll s s₁)
    (hsent : s₁.requests.length = s.requests.length + 1)
    (hrest : s₁.wire.reads = rest.map .data) (hne : ∀ chunk ∈ rest, chunk ≠ [])
    (hlim : ∀ ps, Frames rest ps → WithinLimits ps) (hready : Ready DEFAULT_RESPONSE_TIMEOUT_MS s₁)
    (hbuild : buildGetFrame s₁.hostSeq s₁.currentMessageSeq path etag (py "NREK") client fields =
      .ok request) :
    ((∀ fs chunks, IsResponse s₁.currentMessageSeq fs →
        Chunked maxPacketSize (fs.map encode) chunks →
        ∃ s₂, get (foregroundGet path etag client fields) (queue s₁ chunks) =
          .ok (fs.map (·.payload)).flatten s₂) ↔ Quarantined s₁.currentMessageSeq rest) ∧
    ∀ fs : List ResponseFrame, (∀ f ∈ fs, FrameFits f ∧ f.messageSeq = s.currentMessageSeq) →
      Chunked maxPacketSize (fs.map encode) rest → Quarantined s₁.currentMessageSeq rest := by
  have hseq : s₁.currentMessageSeq < 256 ^ 4 := by
    unfold currentMessageSeq
    omega
  have hget (chunks : List Bytes) (response : Bytes) :
      (∃ s₂, get (foregroundGet path etag client fields) (queue s₁ chunks) = .ok response s₂) ↔
        responsePure { expectedMessageSeq := s₁.currentMessageSeq }
          (rest.map .data ++ chunks.map .data) = some response := by
    have hreads : (queue s₁ chunks).wire.reads = rest.map .data ++ chunks.map .data := by
      rw [queue, hrest]
    have hcur : (queue s₁ chunks).currentMessageSeq = s₁.currentMessageSeq := rfl
    rw [get_iff (s := queue s₁ chunks) ⟨hready.writes, hready.clock⟩ hbuild, hreads, hcur]
  refine ⟨⟨fun h => ?_, fun ⟨ps, hframes, hforeign⟩ fs chunks hfs hchunks => ?_⟩, fun fs hfs hchunks => ?_⟩
  · have hsole (payload : Bytes) (hlen : payload.length ≤ 1) :
        responsePure { expectedMessageSeq := s₁.currentMessageSeq } (rest.map .data ++
          [.data (encode (soleFrame s₁.currentMessageSeq payload))]) = some payload := by
      have hret := h _ _ (isResponse_soleFrame (p := payload) hseq (by omega))
        (chunked_soleFrame hseq (by omega) (by omega))
      rw [List.map_singleton, List.flatten_singleton] at hret
      exact (hget _ _).mp hret
    obtain ⟨-, hq⟩ := frames_of_returns (a := { expectedMessageSeq := s₁.currentMessageSeq })
      (c := {}) hseq hne rfl (hsole [] (by decide)) (hsole [0] (by decide))
    exact hq
  · exact (hget _ _).mpr (responsePure_of_frames hframes (hlim ps hframes) hforeign hfs hchunks)
  · obtain ⟨e, hx, -⟩ := hpoll
    have hnext := currentMessageSeq_of_sent hx hsent
    exact quarantined_of_chunked hfs hchunks (by rw [hnext]; unfold currentMessageSeq; omega)

/-! Two cancelled polls: one before the first chunk of a response, one between its two chunks. -/

/-- The long poll of the background poller. -/
def longPoll : GetArgs :=
  { path := py "/datastore", etag := py "1", shouldCancel := true, useCancellableRead := true }

/-- A session whose cancellable read is cancelled after the chunks `before`. -/
def cutSession (before after : List Bytes) : MotuUsbDatastore :=
  { wire := { reads := before.map .data ++ .raise ⟨.interruptedError, []⟩ :: after.map .data } }

/-- The session that the cancelled poll leaves. -/
def cancelledSession (before after : List Bytes) : MotuUsbDatastore :=
  (Call.get longPoll).after (cutSession before after)

theorem cancelled_after (h : raisedKind (get poll s) = some .datastoreCancelled) :
    Cancelled poll s ((Call.get poll).after s) := by
  rw [Call.after, Call.exec]
  cases hx : get poll s with
  | ok response s' => rw [hx] at h; cases h
  | error e s' => rw [hx] at h; exact ⟨e, hx, Option.some.inj h⟩

theorem Frames.length_le (h : Frames rest ps) : ps.length ≤ rest.length := by
  induction h with
  | nil => exact Nat.le_refl _
  | cons _ _ _ ih =>
    simp only [List.length_cons, List.length_append]
    omega

theorem Frames.flatten_eq (h : Frames rest ps) : ps.flatten = rest.flatten := by
  induction h with
  | nil => rfl
  | cons _ _ _ ih => simp [ih]

/-- A poll cancelled before the first chunk of its response does no harm. -/
theorem foreground_after_boundary :
    (cancelledSession [] [encode (soleFrame 2 [9])]).currentMessageSeq = 3 ∧
    ∀ fs chunks, IsResponse 3 fs → Chunked 64 (fs.map encode) chunks →
      ∃ s₂, get (foregroundGet (py "/datastore") (py "0") none none)
        (queue (cancelledSession [] [encode (soleFrame 2 [9])]) chunks) =
          .ok (fs.map (·.payload)).flatten s₂ := by
  have hcur : (cancelledSession [] [encode (soleFrame 2 [9])]).currentMessageSeq = 3 := by
    decide +kernel
  have hbuild : ∃ request, buildGetFrame (cancelledSession [] [encode (soleFrame 2 [9])]).hostSeq
      (cancelledSession [] [encode (soleFrame 2 [9])]).currentMessageSeq (py "/datastore") (py "0")
      (py "NREK") none none = .ok request := ok_of_isOk (by decide +kernel)
  obtain ⟨request, hbuild⟩ := hbuild
  have hlim (ps : List Bytes) (hps : Frames [encode (soleFrame 2 [9])] ps) : WithinLimits ps := by
    have hlen : ps.length ≤ 1 := hps.length_le
    have hbytes : ps.flatten.length = 29 := by rw [hps.flatten_eq]; decide +kernel
    exact ⟨Nat.le_trans hlen (by decide), by rw [hbytes]; decide, .inr (Nat.le_trans hlen (by decide))⟩
  have hpoll : Cancelled longPoll (cutSession [] [encode (soleFrame 2 [9])])
      (cancelledSession [] [encode (soleFrame 2 [9])]) := cancelled_after (by decide +kernel)
  have hmax : 28 < 64 := by decide
  obtain ⟨hiff, hboundary⟩ := foreground_iff hmax hpoll (by decide +kernel) (by decide +kernel)
    (by decide +kernel) hlim ⟨by decide +kernel, 0, by decide +kernel⟩ hbuild
  have hfs (f : ResponseFrame) (hf : f ∈ [soleFrame 2 [9]]) : FrameFits f ∧
      f.messageSeq = (cutSession [] [encode (soleFrame 2 [9])]).currentMessageSeq := by
    cases List.mem_singleton.mp hf
    exact ⟨fits_soleFrame (by decide) (by decide), by decide +kernel⟩
  have hall := hiff.mpr (hboundary _ hfs (chunked_soleFrame (by decide) (by decide) (by decide)))
  refine ⟨hcur, ?_⟩
  rw [← hcur]
  exact hall

/-- A response of 128 bytes, which takes two chunks. -/
def cutFrame : ResponseFrame := soleFrame 2 (List.replicate 100 0)

/-- A poll cancelled between the two chunks of its response: the rest of the response is read as a
logical frame of its own, and the foreground request raises. -/
theorem foreground_lost_inside_frame :
    IsResponse 2 [cutFrame] ∧
    Chunked 64 ([cutFrame].map encode) [(encode cutFrame).take 64, (encode cutFrame).drop 64] ∧
    IsResponse 3 [soleFrame 3 [7]] ∧
    Chunked 64 ([soleFrame 3 [7]].map encode) [encode (soleFrame 3 [7])] ∧
    Cancelled longPoll (cutSession [(encode cutFrame).take 64] [(encode cutFrame).drop 64])
      (cancelledSession [(encode cutFrame).take 64] [(encode cutFrame).drop 64]) ∧
    (cancelledSession [(encode cutFrame).take 64] [(encode cutFrame).drop 64]).wire.reads =
      [.data ((encode cutFrame).drop 64)] ∧
    ∀ response s₂, get (foregroundGet (py "/datastore") (py "0") none none)
      (queue (cancelledSession [(encode cutFrame).take 64] [(encode cutFrame).drop 64])
        [encode (soleFrame 3 [7])]) ≠ .ok response s₂ := by
  refine ⟨isResponse_soleFrame (by decide) (by simp), ?_, isResponse_soleFrame (by decide) (by decide),
    chunked_soleFrame (by decide) (by decide) (by decide), cancelled_after (by decide +kernel),
    by decide +kernel, fun response s₂ hx => ?_⟩
  · have hchunks : ∀ chunk ∈ [(encode cutFrame).take 64, (encode cutFrame).drop 64],
        chunk ≠ [] ∧ chunk.length ≤ 64 := by decide +kernel
    have hchunked : Chunked 64
        (((encode cutFrame).take 64 ++ [(encode cutFrame).drop 64].flatten) :: [])
        ((encode cutFrame).take 64 :: ([(encode cutFrame).drop 64] ++ [])) :=
      .cons (by decide +kernel) hchunks .nil
    simpa using hchunked
  · have hraise : raisedKind (get (foregroundGet (py "/datastore") (py "0") none none)
        (queue (cancelledSession [(encode cutFrame).take 64] [(encode cutFrame).drop 64])
          [encode (soleFrame 3 [7])])) = some .shortUsbFrame := by decide +kernel
    rw [hx] at hraise
    cases hraise

end

end Datastore

end MotuProxy
