import MotuProxy.Lib.Reader
import MotuProxy.Verify.FrameLemmas

/-! # Request frames

The layout of a request on the wire (`WireRequest.frame`), a decoder for it (`decodeFrame`) with its
round trip, and that `build_get_frame` and `build_post_frame` return frames of this layout.
-/

namespace MotuProxy

open Py

namespace Protocol

def UTOM : Bytes := [0x55, 0x54, 0x4F, 0x4D]

/-- The bytes of an ASCII text. -/
def ascii (s : String) : Bytes := (py s).map UInt8.ofNat

/-- A request, as it can be read off the frame. -/
structure WireRequest where
  seq : UInt8
  messageSeq : Nat
  header : Bytes
  method : Bytes
  path : Bytes
  /-- Name and value of the one HTTP header. -/
  httpHeader : Bytes × Bytes
  fields : List (Bytes × Bytes)
  /-- Name and content of the body. -/
  body : Option (Bytes × Bytes)
  deriving DecidableEq, Repr

/-! ## The layout -/

def sizedBytes (data : Bytes) : Bytes := leBytes 4 data.length ++ data

/-- A name and a value, each with its length. -/
def pairBytes (p : Bytes × Bytes) : Bytes := sizedBytes p.1 ++ sizedBytes p.2

namespace WireRequest

/-- The part that the request length counts. -/
def request (r : WireRequest) : Bytes :=
  sizedBytes r.method ++ (sizedBytes r.path ++ (leBytes 4 1 ++ (pairBytes r.httpHeader ++
    (leBytes 4 r.fields.length ++ (r.fields.map pairBytes).flatten))))

/-- The body with its length. -/
def bodyBytes (r : WireRequest) : Bytes :=
  match r.body with
  | none => []
  | some body => sizedBytes (pairBytes body)

def payload (r : WireRequest) : Bytes :=
  UTOM ++ (leBytes 4 8 ++ (leBytes 4 1 ++ (leBytes 4 0 ++ (sizedBytes r.request ++ r.bodyBytes))))

/-- The layout of a request on the wire. -/
def frame (r : WireRequest) : Bytes :=
  leBytes 1 r.seq.toNat ++ ([0x80] ++ (leBytes 2 (24 + r.payload.length) ++ (r.header ++
    (leBytes 4 (crc32 r.payload) ++ (leBytes 4 r.messageSeq ++ (leBytes 4 1 ++ (leBytes 2 0 ++
      (leBytes 2 r.payload.length ++ r.payload))))))))

/-- The fields fit their words, and a request has a body unless it is a `GET`. -/
structure Fits (r : WireRequest) : Prop where
  messageSeq : r.messageSeq < 256 ^ 4
  header : r.header.length = 4
  payload : 24 + r.payload.length < 256 ^ 2
  body : r.body = none ↔ r.method = ascii "GET"

end WireRequest

/-! ## The decoder -/

open Reader

def decodePair : Reader (Bytes × Bytes) := do return (← blob, ← blob)

/-- The request without its sequence numbers, its frame header and its body. -/
def decodeRequest : Reader (Bytes × Bytes × (Bytes × Bytes) × List (Bytes × Bytes)) := do
  let method ← blob
  let path ← blob
  expect (leBytes 4 1)
  let httpHeader ← decodePair
  let count ← word 4
  let fields ← times decodePair count
  return (method, path, httpHeader, fields)

def decodeBody (method : Bytes) : Reader (Option (Bytes × Bytes)) :=
  if method = ascii "GET" then pure none else do return some (← sized decodePair)

/-- The payload, given the fields of the frame before it. -/
def decodePayload (seq : UInt8) (messageSeq : Nat) (header : Bytes) : Reader WireRequest := do
  expect UTOM
  expect (leBytes 4 8)
  expect (leBytes 4 1)
  expect (leBytes 4 0)
  let (method, path, httpHeader, fields) ← sized decodeRequest
  let body ← decodeBody method
  return { seq, messageSeq, header, method, path, httpHeader, fields, body }

/-- The frame of `total` bytes: the lengths and the checksum have to be right. -/
def decodeMessage (total : Nat) : Reader WireRequest := do
  let seq ← word 1
  expect [0x80]
  let stated ← word 2
  require (stated = total)
  let header ← bytes 4
  let crc ← word 4
  let messageSeq ← word 4
  expect (leBytes 4 1)
  expect (leBytes 2 0)
  let payloadLen ← word 2
  let payload ← bytes payloadLen
  require (crc = crc32 payload)
  match decodePayload (UInt8.ofNat seq) messageSeq header payload with
  | some (r, []) => return r
  | _ => failure

def decodeFrame (frame : Bytes) : Option WireRequest :=
  match decodeMessage frame.length frame with
  | some (r, []) => some r
  | _ => none

/-! ## The round trip -/

theorem length_sizedBytes : (sizedBytes data).length = 4 + data.length := by simp [sizedBytes]

theorem length_pairBytes : (pairBytes p).length = 8 + p.1.length + p.2.length := by
  simp [pairBytes, length_sizedBytes]
  omega

theorem decodePair_reads (h : (pairBytes p).length < 256 ^ 4) : Reads decodePair (pairBytes p) p := by
  rw [length_pairBytes] at h
  exact (Reads.blob (by omega)).bind (Reads.map (f := fun b => (p.1, b)) (Reads.blob (by omega)))

theorem length_fields_le (fields : List (Bytes × Bytes)) :
    8 * fields.length ≤ (fields.map pairBytes).flatten.length := by
  induction fields with
  | nil => exact Nat.zero_le _
  | cons p fields ih =>
    simp only [List.length_cons, List.map_cons, List.flatten_cons, List.length_append,
      length_pairBytes]
    omega

theorem length_pairBytes_le {fields : List (Bytes × Bytes)} (h : p ∈ fields) :
    (pairBytes p).length ≤ (fields.map pairBytes).flatten.length := by
  obtain ⟨s, t, rfl⟩ := List.append_of_mem h
  simp
  omega

namespace WireRequest

variable {r : WireRequest}

theorem decodeRequest_reads (h : r.request.length < 256 ^ 4) :
    Reads decodeRequest r.request (r.method, r.path, r.httpHeader, r.fields) := by
  have hfields := length_fields_le r.fields
  simp only [request, List.length_append, length_sizedBytes, length_leBytes] at h
  refine (Reads.blob (by omega)).bind ((Reads.blob (by omega)).bind (Reads.expect.bind
    ((decodePair_reads (by omega)).bind ((Reads.word (by omega)).bind ?_))))
  refine Reads.map (f := fun fields => (r.method, r.path, r.httpHeader, fields))
    (Reads.times fun p hp => decodePair_reads ?_)
  have := length_pairBytes_le hp
  omega

theorem decodeBody_reads (hbody : r.body = none ↔ r.method = ascii "GET")
    (h : r.bodyBytes.length < 256 ^ 4) : Reads (decodeBody r.method) r.bodyBytes r.body := by
  unfold decodeBody
  cases hb : r.body with
  | none =>
    rw [if_pos (hbody.mp hb), bodyBytes, hb]
    exact Reads.pure
  | some body =>
    have hmethod : r.method ≠ ascii "GET" := fun h => by simp [hbody.mpr h] at hb
    rw [bodyBytes, hb] at h ⊢
    rw [length_sizedBytes] at h
    rw [if_neg hmethod]
    exact Reads.map (f := some) (Reads.sized (decodePair_reads (by omega)) (by omega))

theorem Fits.decodePayload_reads (h : r.Fits) :
    Reads (decodePayload r.seq r.messageSeq r.header) r.payload r := by
  have hlen := h.payload
  rw [WireRequest.payload] at hlen ⊢
  simp only [List.length_append, length_sizedBytes, length_leBytes] at hlen
  refine Reads.expect.bind (Reads.expect.bind (Reads.expect.bind (Reads.expect.bind
    ((Reads.sized (decodeRequest_reads (by omega)) (by omega)).bind ?_))))
  exact Reads.map (decodeBody_reads h.body (by omega)) (f := fun body => { r with body })

theorem Fits.length_frame (h : r.Fits) : r.frame.length = 24 + r.payload.length := by
  have := h.header
  simp only [frame, List.length_append, length_leBytes, List.length_singleton]
  omega

theorem Fits.decodeMessage_reads (h : r.Fits) : Reads (decodeMessage r.frame.length) r.frame r := by
  have hlen := h.payload
  have hseq : r.seq.toNat < 256 ^ 1 := r.seq.toNat_lt
  have hpayload : decodePayload (UInt8.ofNat r.seq.toNat) r.messageSeq r.header r.payload =
      some (r, []) := by
    have := h.decodePayload_reads []
    rwa [List.append_nil, ← UInt8.ofNat_toNat (x := r.seq)] at this
  rw [h.length_frame]
  refine (Reads.word hseq).bind (Reads.expect.bind ((Reads.word hlen).bind ?_))
  refine @Reads.bind _ _ _ [] _ _ _ _ (Reads.require rfl) ?_
  refine (Reads.bytes h.header).bind ((Reads.word (crc32_lt _)).bind ((Reads.word h.messageSeq).bind
    (Reads.expect.bind (Reads.expect.bind ((Reads.word (by omega)).bind ?_)))))
  rw [← List.append_nil r.payload]
  refine (Reads.bytes (by simp)).bind (@Reads.bind _ _ _ [] _ _ _ _ (Reads.require (by simp)) ?_)
  rw [hpayload]
  exact Reads.pure

/-- The round trip: the decoder reads a request off its frame. -/
theorem Fits.decodeFrame_frame (h : r.Fits) : decodeFrame r.frame = some r := by
  have := h.decodeMessage_reads []
  rw [List.append_nil] at this
  rw [decodeFrame, this]

end WireRequest

/-! ## The frames of `protocol.py` -/

/-- The arguments of `build_get_frame` and of `build_post_frame`. -/
inductive RequestArgs where
  | get (seq messageSeq : Nat) (path etag header : Str) (client : Option FieldValue)
    (queryFields : Option (List QueryField))
  | post (seq messageSeq : Nat) (path : Str) (jsonBody : Bytes) (header : Str)
    (client : Option FieldValue)

def RequestArgs.build : RequestArgs → Except Exn Bytes
  | .get seq messageSeq path etag header client queryFields =>
    buildGetFrame seq messageSeq path etag header client queryFields
  | .post seq messageSeq path jsonBody header client =>
    buildPostFrame seq messageSeq path jsonBody header client

/-- Name and value of a query field, in UTF-8. -/
def fieldBytes (f : Str × Str) : Option (Bytes × Bytes) := do
  return (← utf8Encode f.1, ← utf8Encode f.2)

/-- What the frame is to be decoded to: the arguments as bytes, and the client after the fields. -/
def RequestArgs.wire : RequestArgs → Option WireRequest
  | .get seq messageSeq path etag header client queryFields => do
    return {
      seq := UInt8.ofNat seq
      messageSeq
      header := ← (headerBytes header).toOption
      method := ascii "GET"
      path := ← utf8Encode path
      httpHeader := (ascii "If-None-Match", ← utf8Encode etag)
      fields := ← (normalizeQueryFields queryFields client).mapM fieldBytes
      body := none }
  | .post seq messageSeq path jsonBody header client => do
    return {
      seq := UInt8.ofNat seq
      messageSeq
      header := ← (headerBytes header).toOption
      method := ascii "POST"
      path := ← utf8Encode path
      httpHeader := (ascii "Unsecure-Auth-MOTU", ascii "unicorn666")
      fields := ← (normalizeQueryFields (clientFields client) none).mapM fieldBytes
      body := some (ascii "json", jsonBody) }

theorem sizedWord_text_eq_ok (h : sizedWord (.text s) = .ok data) :
    ∃ b, utf8Encode s = some b ∧ data = sizedBytes b := by
  simp only [sizedWord, valueBytes, except_bind_eq_ok, pure, Except.pure, Except.ok.injEq] at h
  obtain ⟨b, hb, size, hsize, rfl⟩ := h
  obtain ⟨rfl, -⟩ := u32_eq_ok hsize
  cases hs : utf8Encode s with
  | none => rw [hs] at hb; cases hb
  | some b' =>
    rw [hs] at hb
    cases hb
    exact ⟨b, rfl, rfl⟩

theorem sizedWord_raw_eq_ok (h : sizedWord (.raw b) = .ok data) : data = sizedBytes b := by
  simp only [sizedWord, valueBytes, except_bind_eq_ok, pure, Except.pure, Except.ok.injEq] at h
  obtain ⟨b', rfl, size, hsize, rfl⟩ := h
  obtain ⟨rfl, -⟩ := u32_eq_ok hsize
  rfl

/-- A literal word. -/
theorem sizedWord_literal_eq_ok (h : sizedWord (.text (py s)) = .ok data)
    (hs : utf8Encode (py s) = some (ascii s)) : data = sizedBytes (ascii s) := by
  obtain ⟨b, hb, rfl⟩ := sizedWord_text_eq_ok h
  rw [Option.some.inj (hs.symm.trans hb)]

theorem words_eq_ok {fields : List (Str × Str)} {words : List Bytes}
    (h : (fields.mapM fun f => do
      return (← sizedWord (.text f.1)) ++ (← sizedWord (.text f.2))) = Except.ok words) :
    ∃ fs, fields.mapM fieldBytes = some fs ∧ words.flatten = (fs.map pairBytes).flatten ∧
      fs.length = fields.length := by
  induction fields generalizing words with
  | nil =>
    cases h
    exact ⟨[], rfl, rfl, rfl⟩
  | cons f fields ih =>
    simp only [List.mapM_cons, except_bind_eq_ok, pure, Except.pure, Except.ok.injEq] at h
    obtain ⟨_, ⟨name, hname, value, hvalue, rfl⟩, words, hwords, rfl⟩ := h
    obtain ⟨b, hb, rfl⟩ := sizedWord_text_eq_ok hname
    obtain ⟨b', hb', rfl⟩ := sizedWord_text_eq_ok hvalue
    obtain ⟨fs, hfs, hflat, hlen⟩ := ih hwords
    refine ⟨(b, b') :: fs, ?_, ?_, by simp [hlen]⟩
    · have hf : fieldBytes f = some (b, b') := by simp [fieldBytes, hb, hb']
      simp [List.mapM_cons, hf, hfs]
    · rw [List.flatten_cons, hflat]
      rfl

theorem encodeQueryFields_eq_ok (h : encodeQueryFields fields client = .ok data) :
    ∃ fs, (normalizeQueryFields fields client).mapM fieldBytes = some fs ∧
      data = leBytes 4 fs.length ++ (fs.map pairBytes).flatten := by
  simp only [encodeQueryFields, except_bind_eq_ok, pure, Except.pure, Except.ok.injEq] at h
  obtain ⟨count, hcount, words, hwords, rfl⟩ := h
  obtain ⟨rfl, -⟩ := u32_eq_ok hcount
  obtain ⟨fs, hfs, hflat, hlen⟩ := words_eq_ok hwords
  exact ⟨fs, hfs, by rw [hflat, hlen]⟩

theorem utomRequest_eq_ok (h : utomRequest request = .ok data) :
    data = UTOM ++ (leBytes 4 8 ++ (leBytes 4 1 ++ (leBytes 4 0 ++ sizedBytes request))) := by
  simp only [utomRequest, except_bind_eq_ok, pure, Except.pure, Except.ok.injEq] at h
  obtain ⟨_, h8, _, h1, _, h0, _, hlen, rfl⟩ := h
  obtain ⟨rfl, -⟩ := u32_eq_ok h8
  obtain ⟨rfl, -⟩ := u32_eq_ok h1
  obtain ⟨rfl, -⟩ := u32_eq_ok h0
  obtain ⟨rfl, -⟩ := u32_eq_ok hlen
  simp [UTOM, sizedBytes]

/-- A frame around the payload of a request is the frame of the request. -/
theorem buildMotuFrame_layout {r : WireRequest} (hseq : r.seq = UInt8.ofNat seq)
    (hheader : headerBytes header = .ok r.header) (hbody : r.body = none ↔ r.method = ascii "GET")
    (h : buildMotuFrame seq header r.messageSeq r.payload = .ok frame) :
    frame = r.frame ∧ r.Fits := by
  simp only [buildMotuFrame, except_bind_eq_ok, ite_error_eq_ok, pure, Except.pure,
    Except.ok.injEq] at h
  obtain ⟨hdr, hhdr, maxLen, -, -, crc, hcrc, ms, hms, fin, hfin, idx, hidx, len, hlen, total,
    htotal, rfl⟩ := h
  have hlen₄ := headerBytes_length hhdr
  cases hheader.symm.trans hhdr
  obtain ⟨rfl, -⟩ := u32_eq_ok hcrc
  obtain ⟨rfl, hseq₄⟩ := u32_eq_ok hms
  obtain ⟨rfl, -⟩ := u32_eq_ok hfin
  obtain ⟨rfl, -⟩ := u16_eq_ok hidx
  obtain ⟨rfl, -⟩ := u16_eq_ok hlen
  obtain ⟨rfl, hfit⟩ := u16_eq_ok htotal
  have hsize : (r.header ++ leBytes 4 (crc32 r.payload) ++ leBytes 4 r.messageSeq ++ leBytes 4 1 ++
      leBytes 2 0 ++ leBytes 2 r.payload.length ++ r.payload).length + 4 = 24 + r.payload.length := by
    simp only [List.length_append, length_leBytes, hlen₄]
    omega
  rw [hsize] at hfit ⊢
  have hbyte : leBytes 1 r.seq.toNat = [UInt8.ofNat seq] := by
    rw [← hseq]
    simp [leBytes]
  refine ⟨?_, hseq₄, hlen₄, hfit, hbody⟩
  simp [WireRequest.frame, hbyte]

/-- The numbers of a frame are the true sizes and the true checksum. -/
structure LengthFields (frame : Bytes) (r : WireRequest) : Prop where
  total : frame.word 2 2 = frame.length
  crc : frame.word 4 8 = crc32 (frame.drop 24)
  payload : frame.word 2 22 = (frame.drop 24).length
  request : frame.word 4 40 = r.request.length
  body : ∀ b, r.body = some b → frame.word 4 (44 + r.request.length) = (pairBytes b).length
  /-- The sizes of the words and the count of the fields stand where the layout has them. -/
  layout : frame = r.frame
  words : r.request.length < 256 ^ 4 ∧ r.bodyBytes.length < 256 ^ 4

namespace WireRequest

variable {r : WireRequest}

/-- The part of the frame before the payload. -/
def frameHead (r : WireRequest) : Bytes :=
  leBytes 1 r.seq.toNat ++ ([0x80] ++ (leBytes 2 (24 + r.payload.length) ++ (r.header ++
    (leBytes 4 (crc32 r.payload) ++ (leBytes 4 r.messageSeq ++ (leBytes 4 1 ++ (leBytes 2 0 ++
      leBytes 2 r.payload.length)))))))

theorem frame_eq : r.frame = r.frameHead ++ r.payload := by simp [frame, frameHead]

theorem Fits.length_frameHead (h : r.Fits) : r.frameHead.length = 24 := by
  simp [frameHead, h.header]

theorem Fits.drop_frame (h : r.Fits) : r.frame.drop 24 = r.payload := by
  rw [frame_eq, ← h.length_frameHead, List.drop_left]

/-- A word of the frame stands where the part before it ends. -/
theorem word_frame {p q : Bytes} (heq : r.frame = p ++ (leBytes w n ++ q)) (hi : i = p.length)
    (hn : n < 256 ^ w) : r.frame.word w i = n := by
  rw [heq, Bytes.word_middle hi hn]

theorem Fits.lengthFields (h : r.Fits) : LengthFields r.frame r := by
  have hpay := h.payload
  have hlen : r.request.length + r.bodyBytes.length ≤ r.payload.length := by
    simp only [WireRequest.payload, sizedBytes, List.length_append]
    omega
  refine ⟨?_, ?_, ?_, ?_, fun b hb => ?_, rfl, by omega, by omega⟩
  · rw [h.length_frame]
    exact word_frame (p := leBytes 1 r.seq.toNat ++ [0x80]) (by simp [frame]; rfl) (by simp) hpay
  · rw [h.drop_frame]
    exact word_frame (p := leBytes 1 r.seq.toNat ++ ([0x80] ++ (leBytes 2 (24 + r.payload.length) ++
      r.header))) (by simp [frame]; rfl) (by simp [h.header]) (crc32_lt _)
  · rw [h.drop_frame]
    exact word_frame (p := leBytes 1 r.seq.toNat ++ ([0x80] ++ (leBytes 2 (24 + r.payload.length) ++
      (r.header ++ (leBytes 4 (crc32 r.payload) ++ (leBytes 4 r.messageSeq ++ (leBytes 4 1 ++
        leBytes 2 0))))))) (by simp [frame]; rfl) (by simp [h.header]) (by omega)
  · refine word_frame (p := r.frameHead ++ (UTOM ++ (leBytes 4 8 ++ (leBytes 4 1 ++ leBytes 4 0))))
      (q := r.request ++ r.bodyBytes) ?_ ?_ (by omega)
    · simp [frame_eq, WireRequest.payload, sizedBytes]
    · simp [h.length_frameHead, UTOM]
  · have hbytes : r.bodyBytes = leBytes 4 (pairBytes b).length ++ pairBytes b := by
      simp [bodyBytes, hb, sizedBytes]
    have hsize : (pairBytes b).length ≤ r.bodyBytes.length := by simp [hbytes]
    refine word_frame (p := r.frameHead ++ (UTOM ++ (leBytes 4 8 ++ (leBytes 4 1 ++ (leBytes 4 0 ++
      sizedBytes r.request))))) (q := pairBytes b) ?_ ?_ (by omega)
    · simp [frame_eq, WireRequest.payload, hbytes]
    · simp [h.length_frameHead, UTOM, length_sizedBytes]
      omega

end WireRequest

theorem get_layout (h : buildGetFrame seq messageSeq path etag header client fields = .ok frame) :
    ∃ r, (RequestArgs.get seq messageSeq path etag header client fields).wire = some r ∧
      frame = r.frame ∧ r.Fits := by
  simp only [buildGetFrame, except_bind_eq_ok] at h
  obtain ⟨_, hmethod, _, hpath, _, hone, _, hname, _, hetag, _, hfields, _, hutom, h⟩ := h
  obtain ⟨b, hb, rfl⟩ := sizedWord_text_eq_ok hpath
  obtain ⟨v, hv, rfl⟩ := sizedWord_text_eq_ok hetag
  obtain ⟨fs, hfs, rfl⟩ := encodeQueryFields_eq_ok hfields
  obtain ⟨rfl, -⟩ := u32_eq_ok hone
  rw [sizedWord_literal_eq_ok hmethod (by decide), sizedWord_literal_eq_ok hname (by decide)] at hutom
  rw [utomRequest_eq_ok hutom] at h
  cases hh : headerBytes header with
  | error e => simp [buildMotuFrame, hh, bind, Except.bind] at h
  | ok hb' =>
    refine ⟨⟨UInt8.ofNat seq, messageSeq, hb', ascii "GET", b, (ascii "If-None-Match", v), fs, none⟩,
      ?_, ?_⟩
    · simp [RequestArgs.wire, hh, hb, hv, hfs, Except.toOption]
    · refine buildMotuFrame_layout rfl hh (by simp) ?_
      rw [← h]
      simp [WireRequest.payload, WireRequest.request, WireRequest.bodyBytes, pairBytes]

theorem post_layout (h : buildPostFrame seq messageSeq path jsonBody header client = .ok frame) :
    ∃ r, (RequestArgs.post seq messageSeq path jsonBody header client).wire = some r ∧
      frame = r.frame ∧ r.Fits := by
  simp only [buildPostFrame, except_bind_eq_ok] at h
  obtain ⟨_, hmethod, _, hpath, _, hone, _, hname, _, hauth, _, hfields, _, -, _, hjson, _, hbody, _,
    hutom, _, hlen, h⟩ := h
  obtain ⟨b, hb, rfl⟩ := sizedWord_text_eq_ok hpath
  obtain ⟨fs, hfs, rfl⟩ := encodeQueryFields_eq_ok hfields
  obtain ⟨rfl, -⟩ := u32_eq_ok hone
  obtain ⟨rfl, -⟩ := u32_eq_ok hlen
  rw [sizedWord_literal_eq_ok hmethod (by decide), sizedWord_literal_eq_ok hname (by decide),
    sizedWord_literal_eq_ok hauth (by decide)] at hutom
  rw [utomRequest_eq_ok hutom, sizedWord_literal_eq_ok hjson (by decide), sizedWord_raw_eq_ok hbody] at h
  cases hh : headerBytes header with
  | error e => simp [buildMotuFrame, hh, bind, Except.bind] at h
  | ok hb' =>
    refine ⟨⟨UInt8.ofNat seq, messageSeq, hb', ascii "POST", b, (ascii "Unsecure-Auth-MOTU",
      ascii "unicorn666"), fs, some (ascii "json", jsonBody)⟩, ?_, ?_⟩
    · simp [RequestArgs.wire, hh, hb, hfs, Except.toOption]
    · refine buildMotuFrame_layout rfl hh (by simp; decide) ?_
      rw [← h]
      simp [WireRequest.payload, WireRequest.request, WireRequest.bodyBytes, pairBytes, sizedBytes]

/-- What `build_get_frame` or `build_post_frame` returns can be decoded, its numbers are true, and
no other request has the same frame. -/
theorem request_format {q : RequestArgs} (h : q.build = .ok frame) :
    ∃ r, q.wire = some r ∧ decodeFrame frame = some r ∧ LengthFields frame r ∧
      ∀ q' : RequestArgs, q'.build = .ok frame → q'.wire = some r := by
  have hlayout {q : RequestArgs} (h : q.build = .ok frame) :
      ∃ r, q.wire = some r ∧ frame = r.frame ∧ r.Fits := by
    cases q with
    | get => exact get_layout h
    | post => exact post_layout h
  obtain ⟨r, hwire, rfl, hfits⟩ := hlayout h
  refine ⟨r, hwire, hfits.decodeFrame_frame, hfits.lengthFields, fun q' h' => ?_⟩
  obtain ⟨r', hwire', hframe, hfits'⟩ := hlayout h'
  rw [hwire', ← hfits'.decodeFrame_frame, ← hframe, hfits.decodeFrame_frame]

/-- `GET /datastore` with a query field and a client. -/
theorem request_format_get :
    ∃ frame, buildGetFrame 0x20 2 (py "/datastore") (py "0") (py "NREK") (some (.int 7))
        (some [(py "a", .str (py "b"))]) = .ok frame ∧
      decodeFrame frame = some {
        seq := 0x20, messageSeq := 2, header := NREK, method := ascii "GET"
        path := ascii "/datastore", httpHeader := (ascii "If-None-Match", ascii "0")
        fields := [(ascii "a", ascii "b"), (ascii "client", ascii "7")], body := none } := by
  have hbuild : ∃ frame, (RequestArgs.get 0x20 2 (py "/datastore") (py "0") (py "NREK")
      (some (.int 7)) (some [(py "a", .str (py "b"))])).build = .ok frame :=
    ok_of_isOk (by decide +kernel)
  obtain ⟨frame, hbuild⟩ := hbuild
  obtain ⟨r, hwire, hdecode, -⟩ := request_format hbuild
  refine ⟨frame, hbuild, ?_⟩
  rw [hdecode, ← hwire]
  decide +kernel

end Protocol

end MotuProxy
