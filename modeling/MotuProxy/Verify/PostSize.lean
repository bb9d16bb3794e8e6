import MotuProxy.Verify.HostSequence
import MotuProxy.Verify.WritePath

/-! # The size of a `POST` frame

`validate_post_frame_size` computes the length that a frame is going to have from the lengths of its
parts. The frame that would result is the layout `WireRequest.frame`, whether or not it fits: the
limit is exact, and whatever passes it can be built.
-/

namespace MotuProxy

open Py

namespace Protocol

variable {seq messageSeq : Nat} {path header s : Str} {body b : Bytes} {client : Option FieldValue}

/-! ## The parts -/

theorem u32_of_lt {n : Nat} (h : n < 2 ^ 32) : u32 n = .ok (leBytes 4 n) := if_pos h

theorem u16_of_lt {n : Nat} (h : n < 2 ^ 16) : u16 n = .ok (leBytes 2 n) := if_pos h

theorem valueBytes_text (h : utf8Encode s = some b) : valueBytes (.text s) = .ok b := by
  rw [valueBytes, h]

theorem sizedWordLen_text (h : utf8Encode s = some b) :
    sizedWordLen (.text s) = .ok (sizedBytes b).length := by
  rw [sizedWordLen, valueBytes_text h, length_sizedBytes]
  rfl

theorem sizedWord_text (h : utf8Encode s = some b) (hb : b.length < 2 ^ 32) :
    sizedWord (.text s) = .ok (sizedBytes b) := by
  rw [sizedWord, valueBytes_text h]
  exact except_bind_eq_ok.2 ⟨b, rfl, except_bind_eq_ok.2 ⟨_, u32_of_lt hb, rfl⟩⟩

theorem sizedWord_raw (hb : b.length < 2 ^ 32) : sizedWord (.raw b) = .ok (sizedBytes b) :=
  except_bind_eq_ok.2 ⟨_, rfl, except_bind_eq_ok.2 ⟨_, u32_of_lt hb, rfl⟩⟩

/-- The fields that a client adds. -/
def clientBytes (client : Option FieldValue) : Option (List (Bytes × Bytes)) :=
  (normalizeQueryFields (clientFields client) none).mapM fieldBytes

theorem clientBytes_cases {fs : List (Bytes × Bytes)} (h : clientBytes client = some fs) :
    client = none ∧ fs = [] ∨
      ∃ c b, client = some c ∧ utf8Encode c.toStr = some b ∧ fs = [(ascii "client", b)] := by
  cases client with
  | none =>
    cases h
    exact .inl ⟨rfl, rfl⟩
  | some c =>
    have hname : utf8Encode (py "client") = some (ascii "client") := by decide
    cases hb : utf8Encode c.toStr with
    | none => simp [clientBytes, normalizeQueryFields, clientFields, fieldBytes, hb] at h
    | some b =>
      refine .inr ⟨c, b, rfl, hb, ?_⟩
      simpa [clientBytes, normalizeQueryFields, clientFields, fieldBytes, hname, hb, eq_comm] using h

theorem queryFieldsLen_client {fs : List (Bytes × Bytes)} (h : clientBytes client = some fs) :
    queryFieldsLen (clientFields client) none = .ok (4 + (fs.map pairBytes).flatten.length) := by
  have hname : utf8Encode (py "client") = some (ascii "client") := by decide
  obtain ⟨rfl, rfl⟩ | ⟨c, b, rfl, hb, rfl⟩ := clientBytes_cases h
  · rfl
  · simp [queryFieldsLen, normalizeQueryFields, clientFields, sizedWordLen_text hname,
      sizedWordLen_text hb, bind, Except.bind, pure, Except.pure, pairBytes]

theorem encodeQueryFields_client {fs : List (Bytes × Bytes)} (h : clientBytes client = some fs)
    (hfs : (fs.map pairBytes).flatten.length < 2 ^ 32) :
    encodeQueryFields (clientFields client) none =
      .ok (leBytes 4 fs.length ++ (fs.map pairBytes).flatten) := by
  have hname : utf8Encode (py "client") = some (ascii "client") := by decide
  obtain ⟨rfl, rfl⟩ | ⟨c, b, rfl, hb, rfl⟩ := clientBytes_cases h
  · rfl
  · have hlen : b.length < 2 ^ 32 := by
      simp [length_pairBytes] at hfs
      omega
    simp [encodeQueryFields, normalizeQueryFields, clientFields, sizedWord_text hname (by decide),
      sizedWord_text hb hlen, u32_of_lt, bind, Except.bind, pure, Except.pure, pairBytes]

/-! ## The limit -/

/-- The frame that a `POST` would have. -/
def postWire (seq messageSeq : Nat) (path : Str) (body : Bytes) (header : Str)
    (client : Option FieldValue) : Option WireRequest :=
  (RequestArgs.post seq messageSeq path body header client).wire

variable {r : WireRequest}

theorem postWire_eq_some (h : postWire seq messageSeq path body header client = some r) :
    ∃ hb p fs, headerBytes header = .ok hb ∧ utf8Encode path = some p ∧ clientBytes client = some fs ∧
      r = ⟨UInt8.ofNat seq, messageSeq, hb, ascii "POST", p,
        (ascii "Unsecure-Auth-MOTU", ascii "unicorn666"), fs, some (ascii "json", body)⟩ := by
  cases hh : headerBytes header with
  | error e => simp [postWire, RequestArgs.wire, hh, Except.toOption] at h
  | ok hb =>
    cases hp : utf8Encode path with
    | none => simp [postWire, RequestArgs.wire, hp] at h
    | some p =>
      cases hfs : clientBytes client with
      | none =>
        unfold clientBytes at hfs
        simp [postWire, RequestArgs.wire, hfs] at h
      | some fs =>
        refine ⟨hb, p, fs, rfl, rfl, rfl, ?_⟩
        unfold clientBytes at hfs
        simpa [postWire, RequestArgs.wire, hh, hp, hfs, Except.toOption, eq_comm] using h

theorem length_payload_post (h : postWire seq messageSeq path body header client = some r) :
    r.payload.length = 36 + r.request.length + body.length := by
  obtain ⟨hb, p, fs, -, -, -, rfl⟩ := postWire_eq_some h
  have hjson : (ascii "json").length = 4 := by decide
  have hutom : UTOM.length = 4 := rfl
  simp only [WireRequest.payload, WireRequest.bodyBytes, List.length_append, length_leBytes,
    length_sizedBytes, length_pairBytes, hjson, hutom]
  omega

theorem length_frame_post (h : postWire seq messageSeq path body header client = some r) :
    r.frame.length = 24 + r.payload.length := by
  obtain ⟨hb, p, fs, hh, -, -, rfl⟩ := postWire_eq_some h
  have hlen := headerBytes_length hh
  simp only [WireRequest.frame, List.length_append, length_leBytes, List.length_singleton, hlen]
  omega

theorem maxMotuPayloadBytes_eq (h : headerBytes header = .ok b) :
    maxMotuPayloadBytes header = .ok 65511 := by
  rw [maxMotuPayloadBytes, h]
  change Except.ok (MAX_U16 - USB_LOGICAL_HEADER_BYTES - b.length - MOTU_FRAME_CONTROL_BYTES) = _
  rw [headerBytes_length h]
  rfl

/-- The lengths of the parts add up to the length of the request. -/
theorem maxPostJsonBodyBytes_eq (h : postWire seq messageSeq path body header client = some r) :
    maxPostJsonBodyBytes path header client = .ok (65511 - (36 + r.request.length) : Int) := by
  obtain ⟨hb, p, fs, hh, hp, hfs, rfl⟩ := postWire_eq_some h
  have hpost : utf8Encode (py "POST") = some (ascii "POST") := by decide
  have hauth : utf8Encode (py "Unsecure-Auth-MOTU") = some (ascii "Unsecure-Auth-MOTU") := by decide
  have hsecret : utf8Encode (py "unicorn666") = some (ascii "unicorn666") := by decide
  have hmax := maxMotuPayloadBytes_eq hh
  unfold maxPostJsonBodyBytes
  rw [sizedWordLen_text hpost, sizedWordLen_text hp, sizedWordLen_text hauth, sizedWordLen_text hsecret,
    queryFieldsLen_client hfs, hmax]
  simp only [bind, Except.bind, pure, Except.pure, WireRequest.request, List.length_append,
    length_leBytes, pairBytes, UTOM_REQUEST_PREFIX_BYTES, POST_BODY_PREFIX_BYTES, Except.ok.injEq]
  omega

theorem validatePostFrameSize_eq {maxBodyLen : Int}
    (h : maxPostJsonBodyBytes path header client = .ok maxBodyLen) :
    validatePostFrameSize path body header client =
      if maxBodyLen < body.length then .error (postFrameTooLarge path body.length maxBodyLen)
      else .ok () := by
  rw [validatePostFrameSize, h]
  rfl

/-- The check is whether the frame fits. -/
theorem validatePostFrameSize_iff (h : postWire seq messageSeq path body header client = some r) :
    validatePostFrameSize path body header client = .ok () ↔ r.frame.length ≤ 65535 := by
  rw [validatePostFrameSize_eq (maxPostJsonBodyBytes_eq h), length_frame_post h,
    length_payload_post h, ite_error_eq_ok]
  simp only [and_true]
  omega

theorem validatePostFrameSize_error {exc : Exn}
    (h : postWire seq messageSeq path body header client = some r)
    (herror : validatePostFrameSize path body header client = .error exc) :
    exc.kind = .protocolFrameTooLarge := by
  rw [validatePostFrameSize_eq (maxPostJsonBodyBytes_eq h)] at herror
  split at herror
  · cases herror
    rfl
  · cases herror

/-! ## Building the frame -/

theorem buildMotuFrame_fits (hh : headerBytes header = .ok b) (hm : messageSeq < 2 ^ 32)
    {payload : Bytes} (hlen : payload.length ≤ 65511) :
    ∃ frame, buildMotuFrame seq header messageSeq payload = .ok frame := by
  have hheader := headerBytes_length hh
  simp only [buildMotuFrame, except_bind_eq_ok, ite_error_eq_ok, pure, Except.pure, Except.ok.injEq]
  refine ⟨_, b, hh, 65511, maxMotuPayloadBytes_eq hh, by omega, _, u32_of_lt (crc32_lt payload), _,
    u32_of_lt hm, _, u32_of_lt (by decide), _, u16_of_lt (by decide), _, u16_of_lt (by omega), _,
    u16_of_lt ?_, rfl⟩
  simp only [List.length_append, length_leBytes, hheader]
  omega

theorem utomRequest_of_lt {request : Bytes} (h : request.length < 2 ^ 32) : utomRequest request =
    .ok (UTOM ++ (leBytes 4 8 ++ (leBytes 4 1 ++ (leBytes 4 0 ++ sizedBytes request)))) := by
  simp [utomRequest, u32_of_lt h, u32_of_lt, bind, Except.bind, pure, Except.pure, UTOM, sizedBytes]

/-- A frame that fits is built. -/
theorem buildPostFrame_fits (h : postWire seq messageSeq path body header client = some r)
    (hm : messageSeq < 2 ^ 32) (hfits : r.frame.length ≤ 65535) :
    ∃ frame, buildPostFrame seq messageSeq path body header client = .ok frame := by
  have hvalid := (validatePostFrameSize_iff h).2 hfits
  have hpayload := length_payload_post h
  rw [length_frame_post h] at hfits
  have hrequest : r.request.length < 2 ^ 32 := by omega
  obtain ⟨hb, p, fs, hh, hp, hfs, heq⟩ := postWire_eq_some h
  obtain ⟨frame, hframe⟩ := @buildMotuFrame_fits seq messageSeq header hb hh hm r.payload (by omega)
  have hpost : utf8Encode (py "POST") = some (ascii "POST") := by decide
  have hauth : utf8Encode (py "Unsecure-Auth-MOTU") = some (ascii "Unsecure-Auth-MOTU") := by decide
  have hsecret : utf8Encode (py "unicorn666") = some (ascii "unicorn666") := by decide
  have hjson : utf8Encode (py "json") = some (ascii "json") := by decide
  have hjsonLen : (ascii "json").length = 4 := by decide
  have hparts : p.length + (fs.map pairBytes).flatten.length ≤ r.request.length := by
    rw [heq]
    simp only [WireRequest.request, List.length_append, length_sizedBytes]
    omega
  have hutom := utomRequest_of_lt hrequest
  rw [heq, WireRequest.request] at hutom
  refine ⟨frame, ?_⟩
  unfold buildPostFrame
  rw [sizedWord_text hpost (by decide), sizedWord_text hp (by omega), u32_of_lt (by decide : 1 < 2 ^ 32),
    sizedWord_text hauth (by decide), sizedWord_text hsecret (by decide),
    encodeQueryFields_client hfs (by omega), hvalid, sizedWord_text hjson (by decide),
    sizedWord_raw (by omega)]
  have hbodyLen : (sizedBytes (ascii "json") ++ sizedBytes body).length < 2 ^ 32 := by
    simp only [List.length_append, length_sizedBytes, hjsonLen]
    omega
  simp only [bind, Except.bind, List.append_assoc, u32_of_lt hbodyLen, pairBytes] at hutom ⊢
  rw [hutom]
  rw [heq, WireRequest.payload, WireRequest.bodyBytes, WireRequest.request] at hframe
  simpa [sizedBytes, pairBytes] using hframe

/-- What the check refuses is refused with the same exception. -/
theorem buildPostFrame_refused {exc : Exn} {p : Bytes} {fs : List (Bytes × Bytes)}
    (hp : utf8Encode path = some p) (hfs : clientBytes client = some fs) (hplen : p.length < 2 ^ 32)
    (hflen : (fs.map pairBytes).flatten.length < 2 ^ 32)
    (h : validatePostFrameSize path body header client = .error exc) :
    buildPostFrame seq messageSeq path body header client = .error exc := by
  have hpost : utf8Encode (py "POST") = some (ascii "POST") := by decide
  have hauth : utf8Encode (py "Unsecure-Auth-MOTU") = some (ascii "Unsecure-Auth-MOTU") := by decide
  have hsecret : utf8Encode (py "unicorn666") = some (ascii "unicorn666") := by decide
  unfold buildPostFrame
  rw [sizedWord_text hpost (by decide), sizedWord_text hp hplen, u32_of_lt (by decide : 1 < 2 ^ 32),
    sizedWord_text hauth (by decide), sizedWord_text hsecret (by decide),
    encodeQueryFields_client hfs hflen, h]
  rfl

/-- What passes the check can be encoded. -/
theorem postWire_of_valid (h : validatePostFrameSize path body header client = .ok ()) :
    ∃ r, postWire seq messageSeq path body header client = some r := by
  have hsome {w : Str} {n : Nat} (hw : sizedWordLen (.text w) = .ok n) :
      ∃ b, utf8Encode w = some b := by
    cases hb : utf8Encode w with
    | some b => exact ⟨b, rfl⟩
    | none =>
      simp [sizedWordLen, valueBytes, hb, bind, Except.bind] at hw
  simp only [validatePostFrameSize, maxPostJsonBodyBytes, maxMotuPayloadBytes,
    except_bind_eq_ok] at h
  obtain ⟨_, ⟨_, -, _, hpath, _, -, _, -, _, hclient, _, ⟨hb, hheader, -⟩, -⟩, -⟩ := h
  obtain ⟨p, hp⟩ := hsome hpath
  have hfs : ∃ fs, clientBytes client = some fs := by
    cases client with
    | none => exact ⟨[], rfl⟩
    | some c =>
      have hname : utf8Encode (py "client") = some (ascii "client") := by decide
      simp only [queryFieldsLen, normalizeQueryFields, clientFields, Option.map_some, Option.getD_some,
        List.map_cons, List.map_nil, Option.toList_none, List.append_nil, List.mapM_cons,
        List.mapM_nil, except_bind_eq_ok] at hclient
      obtain ⟨_, ⟨_, ⟨_, -, _, hvalue, -⟩, -⟩, -⟩ := hclient
      obtain ⟨b, hb⟩ := hsome hvalue
      exact ⟨[(ascii "client", b)], by
        simp [clientBytes, normalizeQueryFields, clientFields, fieldBytes, hname, hb]⟩
  obtain ⟨fs, hfs⟩ := hfs
  unfold clientBytes at hfs
  exact ⟨_, by simp [postWire, RequestArgs.wire, hheader, hp, hfs, Except.toOption]; rfl⟩

/-- Path and client can be encoded, each in fewer than `2 ^ 31` bytes. -/
structure Encodable (path : Str) (client : Option FieldValue) : Prop where
  path : ∃ b, utf8Encode path = some b ∧ b.length < 2 ^ 31
  client : ∀ c ∈ client, ∃ b, utf8Encode c.toStr = some b ∧ b.length < 2 ^ 31

theorem Encodable.clientBytes (h : Encodable path client) :
    ∃ fs, Protocol.clientBytes client = some fs ∧ (fs.map pairBytes).flatten.length < 2 ^ 32 := by
  cases client with
  | none => exact ⟨[], rfl, by decide⟩
  | some c =>
    have hname : utf8Encode (py "client") = some (ascii "client") := by decide
    have hlen : (ascii "client").length = 6 := by decide
    obtain ⟨b, hb, hlt⟩ := h.client c rfl
    refine ⟨[(ascii "client", b)], ?_, ?_⟩
    · simp [Protocol.clientBytes, normalizeQueryFields, clientFields, fieldBytes, hname, hb]
    · simp [length_pairBytes, hlen]
      omega

theorem Encodable.postWire (h : Encodable path client) (hheader : headerBytes header = .ok b) :
    ∃ r, Protocol.postWire seq messageSeq path body header client = some r := by
  obtain ⟨p, hp, -⟩ := h.path
  obtain ⟨fs, hfs, -⟩ := h.clientBytes
  unfold Protocol.clientBytes at hfs
  exact ⟨_, by simp [Protocol.postWire, RequestArgs.wire, hheader, hp, hfs, Except.toOption]; rfl⟩

theorem headerBytes_ascii (hlen : header.length = 4) (hascii : ∀ c ∈ header, c < 0x80) :
    headerBytes header = .ok (header.map UInt8.ofNat) := by
  have hany : ¬header.any (0x80 ≤ ·) = true := by simpa using hascii
  rw [headerBytes, if_neg hany, if_neg (not_not.2 hlen)]

/-- The check before a `POST` is exact: it passes if and only if the frame is built, if and only if
the frame that would result fits. -/
structure SizeExact (seq messageSeq : Nat) (path : Str) (body : Bytes) (header : Str)
    (client : Option FieldValue) (r : WireRequest) (maxBodyLen : Int) : Prop where
  wire : postWire seq messageSeq path body header client = some r
  limit : maxPostJsonBodyBytes path header client = .ok maxBodyLen
  built_iff : validatePostFrameSize path body header client = .ok () ↔
    ∃ frame, buildPostFrame seq messageSeq path body header client = .ok frame
  fits_iff : validatePostFrameSize path body header client = .ok () ↔ r.frame.length ≤ 65535
  length : ∀ frame, buildPostFrame seq messageSeq path body header client = .ok frame →
    frame = r.frame ∧ (frame.length : Int) = 65535 - (maxBodyLen - body.length)
  refused : ∀ exc, buildPostFrame seq messageSeq path body header client = .error exc →
    exc.kind = .protocolFrameTooLarge

theorem Encodable.sizeExact (h : Encodable path client) (hheader : headerBytes header = .ok b)
    (hm : messageSeq < 2 ^ 32) :
    ∃ r maxBodyLen, SizeExact seq messageSeq path body header client r maxBodyLen := by
  obtain ⟨r, hr⟩ := @Encodable.postWire seq messageSeq _ _ body _ _ h hheader
  have hfits := validatePostFrameSize_iff hr
  have hbuilt : validatePostFrameSize path body header client = .ok () ↔
      ∃ frame, buildPostFrame seq messageSeq path body header client = .ok frame := by
    refine ⟨fun hv => buildPostFrame_fits hr hm (hfits.1 hv), fun ⟨frame, hframe⟩ => ?_⟩
    obtain ⟨r', hr', rfl, hlen⟩ := post_layout hframe
    cases hr.symm.trans hr'
    have := hlen.payload
    exact hfits.2 (by rw [hlen.length_frame]; omega)
  refine ⟨r, _, hr, maxPostJsonBodyBytes_eq hr, hbuilt, hfits, fun frame hframe => ?_, fun exc hexc => ?_⟩
  · obtain ⟨r', hr', rfl, -⟩ := post_layout hframe
    cases hr.symm.trans hr'
    refine ⟨rfl, ?_⟩
    rw [length_frame_post hr, length_payload_post hr]
    push_cast
    ring
  · cases hv : validatePostFrameSize path body header client with
    | ok u =>
      obtain ⟨frame, hframe⟩ := hbuilt.1 hv
      cases hframe.symm.trans hexc
    | error exc' =>
      obtain ⟨p, hp, hplen⟩ := h.path
      obtain ⟨fs, hfs, hflen⟩ := h.clientBytes
      cases (buildPostFrame_refused hp hfs (by omega) hflen hv).symm.trans hexc
      exact validatePostFrameSize_error hr hv

open Datastore Dispatch in
/-- The size check is exact, so a write that the dispatcher admits is never too large for the
datastore: `post` builds its frame, in whatever state the session is. -/
theorem post_size_exact :
    (∀ (seq messageSeq : Nat) (path header : Str) (body : Bytes) (client : Option FieldValue),
      Encodable path client → header.length = 4 → (∀ c ∈ header, c < 0x80) → messageSeq < 2 ^ 32 →
      ∃ r maxBodyLen, SizeExact seq messageSeq path body header client r maxBodyLen) ∧
    (∀ {σ : Type} (d : DatastoreDispatcher σ) (a : DispatchArgs) (s : σ) (call : WriteCall)
      (u : MotuUsbDatastore), call ∈ d.forwarded a s →
      ∃ frame, buildPostFrame u.hostSeq u.currentMessageSeq call.path call.body (py "NREK")
        (call.client.map .str) = .ok frame ∧ frame.length ≤ 65535) := by
  constructor
  · intro seq messageSeq path header body client h hlen hascii hm
    exact h.sizeExact (headerBytes_ascii hlen hascii) hm
  · intro σ d a s call u hcall
    obtain ⟨hm, hcall⟩ := DatastoreDispatcher.mem_forwarded.1 hcall
    obtain ⟨-, -, -, hbody⟩ := (DatastoreDispatcher.preparedCall_eq_ok hm).1 hcall
    obtain ⟨r, hr⟩ := @postWire_of_valid u.hostSeq u.currentMessageSeq _ _ _ _ hbody.fits
    have hfits := (validatePostFrameSize_iff hr).1 hbody.fits
    obtain ⟨frame, hframe⟩ := buildPostFrame_fits hr (currentMessageSeq_lt u) hfits
    obtain ⟨r', hr', rfl, -⟩ := post_layout hframe
    cases hr.symm.trans hr'
    exact ⟨_, hframe, hfits⟩

/-- A path of more than one byte for each code point, and an integer client. -/
theorem post_size_exact_utf8 : ∃ r maxBodyLen,
    SizeExact 0x20 2 [0x2F, 0xE9, 0x20AC] (ascii "\x7b\x7d") (py "NREK") (some (.int 7)) r maxBodyLen := by
  refine post_size_exact.1 0x20 2 [0x2F, 0xE9, 0x20AC] (py "NREK") (ascii "\x7b\x7d") (some (.int 7))
    ⟨⟨[0x2F, 0xC3, 0xA9, 0xE2, 0x82, 0xAC], by decide, by decide⟩, ?_⟩ (by decide) (by decide) (by decide)
  intro c hc
  cases hc
  exact ⟨[0x37], by decide, by decide⟩

end Protocol

end MotuProxy
