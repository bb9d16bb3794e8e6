import MotuProxy.Lib.Proc
import MotuProxy.Model.Session

/-! # Response frames

What it takes for a packet to parse (`parseResponseFrame_eq_ok`), the frame layout of the device
(`encode`) with the round trip `parseResponseFrame_encode` and its converse `response_format`, and
what a successful join says about its frames (`joinFrom_eq_ok`).
-/

namespace MotuProxy

open Py Protocol

namespace Protocol

theorem headerBytes_length (h : headerBytes header = .ok data) : data.length = 4 := by
  unfold headerBytes at h
  simp only [ite_error_eq_ok, Except.ok.injEq] at h
  obtain ⟨-, hlen, rfl⟩ := h
  simpa using hlen

theorem u32_eq_ok (h : u32 n = .ok data) : data = leBytes 4 n ∧ n < 256 ^ 4 := by
  unfold u32 at h
  split at h
  · cases h; exact ⟨rfl, by omega⟩
  · cases h

theorem u16_eq_ok (h : u16 n = .ok data) : data = leBytes 2 n ∧ n < 256 ^ 2 := by
  unfold u16 at h
  split at h
  · cases h; exact ⟨rfl, by omega⟩
  · cases h

end Protocol

namespace Responses

/-- `packet[:wrapper_len][4:]`. -/
def frameBody (packet : Bytes) : Bytes := (packet.slice 0 (packet.word 2 2)).drop 4

/-- The frame that the fields of a packet stand for. -/
def frameOf (packet : Bytes) : ResponseFrame where
  header := (frameBody packet).slice 0 4
  wrapperSeq := packet.word 1 0
  wrapperType := packet.word 1 1
  wrapperLen := packet.word 2 2
  messageSeq := (frameBody packet).word 4 8
  final := (frameBody packet).word 4 12 ≠ 0
  segmentIndex := (frameBody packet).word 2 16
  payload := (frameBody packet).slice 20 (20 + (frameBody packet).word 2 18)

/-- The checks of `parse_response_frame`. -/
structure WellFormed (packet : Bytes) : Prop where
  length : 28 ≤ packet.length
  type : packet.word 1 1 = 0
  wrapper : 28 ≤ packet.word 2 2
  complete : packet.word 2 2 ≤ packet.length
  header : (frameBody packet).slice 0 4 = NREK ∨ (frameBody packet).slice 0 4 = PTTH
  final : (frameBody packet).word 4 12 = 0 ∨ (frameBody packet).word 4 12 = 1
  payload : 20 + (frameBody packet).word 2 18 + 4 = (frameBody packet).length
  crc : (frameBody packet).word 4 4 = crc32 (frameOf packet).payload
  trailer : (frameBody packet).slice (20 + (frameBody packet).word 2 18)
    (20 + (frameBody packet).word 2 18 + 4) = (packet.slice 0 (packet.word 2 2)).slice 0 4

theorem parseResponseFrame_eq_ok :
    parseResponseFrame packet seq = .ok frame ↔
      WellFormed packet ∧ (frameBody packet).word 4 8 = seq ∧ frame = frameOf packet := by
  unfold parseResponseFrame
  simp only [ite_error_eq_ok, Except.ok.injEq]
  constructor
  · rintro ⟨hlen, htype, hwrap, hcompl, hhead, hseq, hfin, hpay, hpay', hcrc, htrail, rfl⟩
    refine ⟨⟨by omega, of_not_not htype, by omega, by omega, ?_, ?_, of_not_not hpay',
      of_not_not hcrc, of_not_not htrail⟩, of_not_not hseq, rfl⟩
    · rw [frameBody]; tauto
    · rw [frameBody]; tauto
  · rintro ⟨⟨hlen, htype, hwrap, hcompl, hhead, hfin, hpay, hcrc, htrail⟩, hseq, rfl⟩
    rw [frameBody] at hhead hfin
    exact ⟨by omega, not_not_intro htype, by omega, by omega, by tauto, not_not_intro hseq,
      by tauto, Nat.not_lt.mpr (Nat.le_of_eq hpay), not_not_intro hpay, not_not_intro hcrc,
      not_not_intro htrail, rfl⟩

theorem WellFormed.length_frameBody (h : WellFormed packet) :
    (frameBody packet).length = packet.word 2 2 - 4 := by
  have := h.complete
  simp [frameBody, Bytes.length_slice this]

/-- The payload of a frame is what its wrapper leaves of it. -/
theorem WellFormed.length_payload (h : WellFormed packet) :
    (frameOf packet).payload.length + 28 = packet.word 2 2 := by
  have hlen := h.length_frameBody
  have hpay := h.payload
  have hwrap := h.wrapper
  have hsl : (frameOf packet).payload.length = (frameBody packet).word 2 18 := by
    have := Bytes.length_slice (d := frameBody packet) (i := 20)
      (j := 20 + (frameBody packet).word 2 18) (by omega)
    simpa [frameOf] using this
  omega

/-! ## The device's side -/

/-- The four bytes that a frame starts and ends with. -/
def wrapperBytes (f : ResponseFrame) : Bytes :=
  leBytes 1 f.wrapperSeq ++ (leBytes 1 0 ++ leBytes 2 (28 + f.payload.length))

def encodeBody (f : ResponseFrame) : Bytes :=
  f.header ++ (leBytes 4 (crc32 f.payload) ++ (leBytes 4 f.messageSeq ++
    (leBytes 4 (if f.final then 1 else 0) ++ (leBytes 2 f.segmentIndex ++
      (leBytes 2 f.payload.length ++ (f.payload ++ wrapperBytes f))))))

/-- The layout of a response frame on the wire. -/
def encode (f : ResponseFrame) : Bytes := wrapperBytes f ++ encodeBody f

/-- The fields of a frame fit their words. -/
structure FrameFits (f : ResponseFrame) : Prop where
  header : f.header = NREK ∨ f.header = PTTH
  wrapperSeq : f.wrapperSeq < 256 ^ 1
  wrapperType : f.wrapperType = 0
  wrapperLen : f.wrapperLen = 28 + f.payload.length
  payload : f.payload.length ≤ 65507
  messageSeq : f.messageSeq < 256 ^ 4
  segmentIndex : f.segmentIndex < 256 ^ 2

@[simp] theorem length_wrapperBytes : (wrapperBytes f).length = 4 := by simp [wrapperBytes]

namespace FrameFits

variable {f : ResponseFrame}

theorem length_header (h : FrameFits f) : f.header.length = 4 := by
  rcases h.header with h | h <;> rw [h] <;> rfl

theorem length_encodeBody (h : FrameFits f) : (encodeBody f).length = 24 + f.payload.length := by
  simp [encodeBody, h.length_header]
  omega

theorem length_encode (h : FrameFits f) : (encode f).length = 28 + f.payload.length := by
  simp [encode, h.length_encodeBody]
  omega

theorem word_wrapper (h : FrameFits f) : (wrapperBytes f ++ rest : Bytes).word 2 2 =
    28 + f.payload.length := by
  have hp := h.payload
  have := Bytes.word_middle (p := leBytes 1 f.wrapperSeq ++ leBytes 1 0) (q := rest)
    (i := 2) (w := 2) (n := 28 + f.payload.length) (by simp) (by omega)
  simpa [wrapperBytes] using this

theorem frameBody_encode (h : FrameFits f) : frameBody (encode f ++ padding) = encodeBody f := by
  have hw : (encode f ++ padding).word 2 2 = (encode f).length := by
    rw [h.length_encode, encode, List.append_assoc, h.word_wrapper]
  rw [frameBody, hw, Bytes.slice_append_left (Nat.le_refl _), Bytes.slice_zero_length, encode,
    List.drop_append_of_le_length (by simp), List.drop_of_length_le (by simp), List.nil_append]

/-- A word of the body stands where the words before it end. -/
theorem word_encodeBody {p q : Bytes} {w n : Nat}
    (heq : encodeBody f = p ++ (leBytes w n ++ q)) (hi : i = p.length)
    (hn : n < 256 ^ w) : (encodeBody f).word w i = n := by
  rw [heq, Bytes.word_middle hi hn]

theorem word_final (h : FrameFits f) :
    (encodeBody f).word 4 12 = if f.final then 1 else 0 := by
  refine word_encodeBody (p := f.header ++ (leBytes 4 (crc32 f.payload) ++ leBytes 4 f.messageSeq))
    (by simp [encodeBody]; rfl) (by simp [h.length_header]) ?_
  split <;> decide

theorem word_messageSeq (h : FrameFits f) : (encodeBody f).word 4 8 = f.messageSeq :=
  word_encodeBody (p := f.header ++ leBytes 4 (crc32 f.payload)) (by simp [encodeBody]; rfl)
    (by simp [h.length_header]) h.messageSeq

theorem word_segmentIndex (h : FrameFits f) : (encodeBody f).word 2 16 = f.segmentIndex :=
  word_encodeBody (p := f.header ++ (leBytes 4 (crc32 f.payload) ++ (leBytes 4 f.messageSeq ++
    leBytes 4 (if f.final then 1 else 0)))) (by simp [encodeBody]; rfl)
    (by simp [h.length_header]) h.segmentIndex

theorem word_payloadLen (h : FrameFits f) : (encodeBody f).word 2 18 = f.payload.length := by
  have hp := h.payload
  exact word_encodeBody (p := f.header ++ (leBytes 4 (crc32 f.payload) ++
    (leBytes 4 f.messageSeq ++ (leBytes 4 (if f.final then 1 else 0) ++ leBytes 2 f.segmentIndex))))
    (by simp [encodeBody]; rfl) (by simp [h.length_header]) (by omega)

theorem slice_payload (h : FrameFits f) :
    (encodeBody f).slice 20 (20 + f.payload.length) = f.payload := by
  have heq : encodeBody f = (f.header ++ (leBytes 4 (crc32 f.payload) ++ (leBytes 4 f.messageSeq ++
      (leBytes 4 (if f.final then 1 else 0) ++ (leBytes 2 f.segmentIndex ++
        leBytes 2 f.payload.length))))) ++ (f.payload ++ wrapperBytes f) := by
    simp [encodeBody]
  rw [heq]
  exact Bytes.slice_middle (by simp [h.length_header]) rfl

theorem slice_trailer (h : FrameFits f) : (encodeBody f).slice (20 + f.payload.length)
    (20 + f.payload.length + 4) = wrapperBytes f := by
  have heq : encodeBody f = (f.header ++ (leBytes 4 (crc32 f.payload) ++ (leBytes 4 f.messageSeq ++
      (leBytes 4 (if f.final then 1 else 0) ++ (leBytes 2 f.segmentIndex ++
        (leBytes 2 f.payload.length ++ f.payload)))))) ++ (wrapperBytes f ++ []) := by
    simp [encodeBody]
  rw [heq]
  refine Bytes.slice_middle ?_ (by simp)
  simp [h.length_header]
  omega

theorem slice_header (h : FrameFits f) : (encodeBody f).slice 0 4 = f.header :=
  Bytes.slice_middle (p := []) rfl (by simp [h.length_header])

theorem word_crc (h : FrameFits f) : (encodeBody f).word 4 4 = crc32 f.payload :=
  word_encodeBody (p := f.header) rfl (by simp [h.length_header]) (crc32_lt _)

theorem slice_wrapper (h : FrameFits f) : ((encode f ++ padding).slice 0
    ((encode f ++ padding).word 2 2)).slice 0 4 = wrapperBytes f := by
  have hlen := h.length_encode
  have hw : (encode f ++ padding).word 2 2 = (encode f).length := by
    rw [hlen, encode, List.append_assoc, h.word_wrapper]
  rw [hw, Bytes.slice_append_left (Nat.le_refl _), Bytes.slice_zero_length]
  exact Bytes.slice_middle (p := []) (m := wrapperBytes f) rfl (by simp)

theorem frameOf_encode (h : FrameFits f) : frameOf (encode f ++ padding) = f := by
  have hseq : (encode f ++ padding).word 1 0 = f.wrapperSeq := by
    have := Bytes.word_middle (p := []) (q := leBytes 1 0 ++ (leBytes 2 (28 + f.payload.length) ++
      (encodeBody f ++ padding))) (i := 0) (w := 1) rfl h.wrapperSeq
    simpa [encode, wrapperBytes] using this
  have htype : (encode f ++ padding).word 1 1 = 0 := by
    have := Bytes.word_middle (p := leBytes 1 f.wrapperSeq) (q := leBytes 2
      (28 + f.payload.length) ++ (encodeBody f ++ padding)) (i := 1) (w := 1) (n := 0)
      (by simp) (by decide)
    simpa [encode, wrapperBytes] using this
  have hlen : (encode f ++ padding).word 2 2 = 28 + f.payload.length := by
    rw [encode, List.append_assoc, h.word_wrapper]
  have hfin : decide ((if f.final then 1 else 0) ≠ 0) = f.final := by
    cases f.final <;> rfl
  rw [frameOf, hseq, htype, hlen, h.frameBody_encode, h.slice_header, h.word_messageSeq,
    h.word_final, h.word_segmentIndex, h.word_payloadLen, h.slice_payload, hfin,
    ← h.wrapperType, ← h.wrapperLen]

theorem wellFormed_encode (h : FrameFits f) : WellFormed (encode f ++ padding) := by
  have hframe : frameOf (encode f ++ padding) = f := h.frameOf_encode
  have hlen := h.length_encode
  have hw : (encode f ++ padding).word 2 2 = 28 + f.payload.length := by
    rw [encode, List.append_assoc, h.word_wrapper]
  refine ⟨by simp; omega, ?_, by omega, by simp; omega, ?_, ?_, ?_, ?_, ?_⟩
  · rw [← h.wrapperType, ← hframe]; rfl
  · rw [h.frameBody_encode, h.slice_header]; exact h.header
  · rw [h.frameBody_encode, h.word_final]; split <;> simp
  · rw [h.frameBody_encode, h.word_payloadLen, h.length_encodeBody]; omega
  · rw [hframe, h.frameBody_encode, h.word_crc]
  · rw [h.slice_wrapper, h.frameBody_encode, h.word_payloadLen, h.slice_trailer]

/-- The round trip: the layout of the device parses to the frame, with any padding after it. -/
theorem parseResponseFrame_encode (h : FrameFits f) :
    parseResponseFrame (encode f ++ q) f.messageSeq = .ok f := by
  refine parseResponseFrame_eq_ok.mpr ⟨h.wellFormed_encode, ?_, h.frameOf_encode.symm⟩
  rw [h.frameBody_encode, h.word_messageSeq]

end FrameFits

/-! ## The packets that parse -/

namespace WellFormed

variable {packet : Bytes}

/-- The payload length that the body states is the length of the payload. -/
theorem word_payloadLen (h : WellFormed packet) :
    (frameBody packet).word 2 18 = (frameOf packet).payload.length := by
  have hpay := h.payload
  have := Bytes.length_slice (d := frameBody packet) (i := 20)
    (j := 20 + (frameBody packet).word 2 18) (by omega)
  rw [frameOf, this]
  omega

theorem fits (h : WellFormed packet) : FrameFits (frameOf packet) where
  header := h.header
  wrapperSeq := Bytes.word_lt 1 _ _
  wrapperType := h.type
  wrapperLen := by
    have := h.length_payload
    have hlen : (frameOf packet).wrapperLen = packet.word 2 2 := rfl
    omega
  payload := by
    have := h.length_payload
    have : packet.word 2 2 < 65536 := Bytes.word_lt 2 _ _
    omega
  messageSeq := Bytes.word_lt 4 _ _
  segmentIndex := Bytes.word_lt 2 _ _

theorem wrapperBytes_eq (h : WellFormed packet) :
    wrapperBytes (frameOf packet) = packet.slice 0 4 := by
  have hlen := h.length
  have hpay := h.length_payload
  have htype : leBytes 1 0 = packet.slice 1 2 := by rw [← h.type, Bytes.leBytes_word (by omega)]
  have htotal : 28 + (frameOf packet).payload.length = packet.word 2 2 := by omega
  have hseq : (frameOf packet).wrapperSeq = packet.word 1 0 := rfl
  rw [wrapperBytes, htotal, hseq, htype, Bytes.leBytes_word (by omega), Bytes.leBytes_word (by omega),
    Bytes.slice_append_slice (by omega) (by omega), Bytes.slice_append_slice (by omega) (by omega)]

theorem encodeBody_eq (h : WellFormed packet) : encodeBody (frameOf packet) = frameBody packet := by
  have hpay := h.payload
  have hlen := h.word_payloadLen
  have hwrap : (packet.slice 0 (packet.word 2 2)).slice 0 4 = packet.slice 0 4 :=
    Bytes.slice_slice (by have := h.wrapper; omega)
  have hfinal : (if (frameOf packet).final then 1 else 0) = (frameBody packet).word 4 12 := by
    rcases h.final with hf | hf <;> simp [frameOf, hf]
  have hsegment : (frameOf packet).segmentIndex = (frameBody packet).word 2 16 := rfl
  have hseq : (frameOf packet).messageSeq = (frameBody packet).word 4 8 := rfl
  have hheader : (frameOf packet).header = (frameBody packet).slice 0 4 := rfl
  have hpayload : (frameOf packet).payload =
    (frameBody packet).slice 20 (20 + (frameBody packet).word 2 18) := rfl
  rw [encodeBody, h.wrapperBytes_eq, ← h.crc, ← hlen, hfinal, hsegment, hseq, hheader, hpayload,
    ← hwrap, ← h.trailer, Bytes.leBytes_word (by omega), Bytes.leBytes_word (by omega),
    Bytes.leBytes_word (by omega), Bytes.leBytes_word (by omega), Bytes.leBytes_word (by omega)]
  iterate 7 rw [Bytes.slice_append_slice (by omega) (by omega)]
  rw [hpay, Bytes.slice_zero_length]

/-- A packet that parses is the frame and its padding. -/
theorem eq_encode (h : WellFormed packet) :
    packet = encode (frameOf packet) ++ packet.drop (packet.word 2 2) := by
  have hwrap := h.wrapper
  have hwrapper : wrapperBytes (frameOf packet) = (packet.slice 0 (packet.word 2 2)).take 4 := by
    rw [h.wrapperBytes_eq, Bytes.slice, Bytes.slice, List.take_take]
    simp only [List.drop_zero, Nat.sub_zero]
    congr 1
    omega
  rw [encode, h.encodeBody_eq, hwrapper, frameBody, List.take_append_drop]
  simp [Bytes.slice]

end WellFormed

/-- The fields of a frame and the padding after it can be read off the packet. -/
theorem encode_injective (hf : FrameFits f) (hg : FrameFits g) (h : encode f ++ p = encode g ++ q) :
    f = g ∧ p = q := by
  have heq : f = g := by
    have hfields : frameOf (encode f ++ p) = f := hf.frameOf_encode
    rw [← hfields, h]
    exact hg.frameOf_encode
  subst heq
  exact ⟨rfl, List.append_cancel_left h⟩

/-- A chain of checks that all raise errors of one kind. -/
theorem kind_of_ite_error {c : Prop} [Decidable c] {x : Except Exn α}
    (h : (if c then .error e else x) = .error e') (he : e.kind = k)
    (hx : x = .error e' → e'.kind = k) : e'.kind = k := by
  by_cases hc : c
  · rw [if_pos hc] at h
    cases h
    exact he
  · rw [if_neg hc] at h
    exact hx h

theorem responseFrameError_of_error (h : parseResponseFrame packet seq = .error e) :
    e.kind = .responseFrameError := by
  unfold parseResponseFrame at h
  iterate 11 refine kind_of_ite_error h rfl fun h => ?_
  cases h

theorem unpackFrom_ok {data : Bytes} (h : i + w ≤ data.length) :
    unpackFrom w data i = .ok (data.word w i) := if_pos h

theorem byteAt_ok {data : Bytes} (h : i < data.length) : byteAt data i = .ok (data.word 1 i) :=
  if_pos h

/-- No read of `parse_response_frame` lies outside the packet. -/
theorem parseResponseFrameChecked_eq :
    parseResponseFrameChecked packet seq = parseResponseFrame packet seq := by
  unfold parseResponseFrameChecked parseResponseFrame
  by_cases hlen : packet.length < 28
  · rw [if_pos hlen, if_pos hlen]
    rfl
  rw [if_neg hlen, if_neg hlen, byteAt_ok (by omega), byteAt_ok (by omega), unpackFrom_ok (by omega)]
  by_cases htype : packet.word 1 1 ≠ 0
  · simp only [if_pos htype, Except.bind, bind, pure, Except.pure, throw, throwThe, MonadExceptOf.throw]
  simp only [if_neg htype, Except.bind, bind, pure, Except.pure, throw, throwThe, MonadExceptOf.throw]
  by_cases hwrap : packet.word 2 2 < 28
  · simp only [if_pos hwrap]
  by_cases hcompl : packet.length < packet.word 2 2
  · simp only [if_neg hwrap, if_pos hcompl]
  have hbody : ((packet.slice 0 (packet.word 2 2)).drop 4).length = packet.word 2 2 - 4 := by
    simp [Bytes.length_slice (Nat.not_lt.mp hcompl)]
  simp only [if_neg hwrap, if_neg hcompl]
  rw [unpackFrom_ok (by omega), unpackFrom_ok (by omega), unpackFrom_ok (by omega),
    unpackFrom_ok (by omega), unpackFrom_ok (by omega)]

/-- The format in both directions: what parses is the layout of a frame of the expected sequence, with
any padding after it, and everything else raises `ResponseFrameError`. -/
theorem response_format (p : Bytes) (s : Nat) :
    (∀ f, parseResponseFrameChecked p s = .ok f ↔
      FrameFits f ∧ f.messageSeq = s ∧ ∃ padding, p = encode f ++ padding) ∧
    (∀ f g padding padding', FrameFits f → FrameFits g → p = encode f ++ padding →
      p = encode g ++ padding' → f = g ∧ padding = padding') ∧
    ((¬∃ f padding, FrameFits f ∧ f.messageSeq = s ∧ p = encode f ++ padding) →
      ∃ e, parseResponseFrameChecked p s = .error e ∧ e.kind = .responseFrameError) := by
  have hiff (f : ResponseFrame) : parseResponseFrameChecked p s = .ok f ↔
      FrameFits f ∧ f.messageSeq = s ∧ ∃ padding, p = encode f ++ padding := by
    rw [parseResponseFrameChecked_eq]
    constructor
    · intro h
      obtain ⟨hwf, hseq, rfl⟩ := parseResponseFrame_eq_ok.mp h
      exact ⟨hwf.fits, hseq, _, hwf.eq_encode⟩
    · rintro ⟨hfits, rfl, padding, rfl⟩
      exact hfits.parseResponseFrame_encode
  refine ⟨hiff, fun f g padding padding' hf hg hp hp' => encode_injective hf hg (hp ▸ hp'), fun h => ?_⟩
  cases hparse : parseResponseFrameChecked p s with
  | ok f =>
    obtain ⟨hfits, hseq, padding, hp⟩ := (hiff f).mp hparse
    exact absurd ⟨f, padding, hfits, hseq, hp⟩ h
  | error e =>
    rw [parseResponseFrameChecked_eq] at hparse
    exact ⟨e, rfl, responseFrameError_of_error hparse⟩

/-! ## Joining -/

theorem joinFrom_eq_ok {frames : List ResponseFrame} {n : Nat} :
    joinFrom n frames = .ok response ↔
      response = (frames.map (·.payload)).flatten ∧ ∀ i f, frames[i]? = some f →
        f.segmentIndex = n + i ∧ (f.final = true ↔ i + 1 = frames.length) := by
  induction frames generalizing n response with
  | nil =>
    constructor
    · rintro ⟨⟩
      exact ⟨rfl, fun _ _ h => by cases h⟩
    · rintro ⟨rfl, -⟩
      rfl
  | cons frame frames ih =>
    simp only [joinFrom, ite_error_eq_ok, not_not]
    constructor
    · rintro ⟨hidx, hfin, hlast, h⟩
      cases hj : joinFrom (n + 1) frames with
      | error e => rw [hj] at h; cases h
      | ok tail =>
        obtain ⟨rfl, hall⟩ := ih.mp hj
        rw [hj] at h
        cases h
        refine ⟨rfl, fun i f hf => ?_⟩
        cases i with
        | zero =>
          cases hf
          refine ⟨hidx, fun hf => ?_, fun hl => ?_⟩
          · have : frames = [] := by tauto
            simp [this]
          · have : frames = [] := by simpa using hl
            tauto
        | succ i =>
          obtain ⟨h1, h2⟩ := hall i f hf
          exact ⟨by omega, by rw [h2, List.length_cons]; omega⟩
    · rintro ⟨rfl, hall⟩
      obtain ⟨h1, h2⟩ := hall 0 frame rfl
      have htail : joinFrom (n + 1) frames = .ok (frames.map (·.payload)).flatten := by
        refine ih.mpr ⟨rfl, fun i f hf => ?_⟩
        obtain ⟨h3, h4⟩ := hall (i + 1) f hf
        exact ⟨by omega, by rw [h4, List.length_cons]; omega⟩
      have hnil : frames = [] ↔ 0 + 1 = (frame :: frames).length := by simp
      rw [← hnil] at h2
      refine ⟨h1, fun h => h.2 (h2.mp h.1), fun h => h.1 (h2.mpr h.2), ?_⟩
      rw [htail]
      rfl

end Responses

end MotuProxy
