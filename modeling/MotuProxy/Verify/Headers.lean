import MotuProxy.Verify.ReadIntegrity
import MotuProxy.Verify.TextResponse

/-! # The headers of a response

Whatever bytes the device sends, an `ETag` that is read off them is one line of ISO-8859-1 without
space around it (`HeaderValue`). So a response to a `GET` cannot be split by the device, and the
`ETag` that a client gets and sends back as `If-None-Match` is read as the same one.
-/

namespace MotuProxy

open Py

namespace Responses

/-- The text is one line of a header as `send_header` writes it, and `strip` leaves it alone. -/
structure HeaderValue (s : Str) : Prop where
  nonempty : s ≠ []
  stripped : strip s = s
  line : ∀ c ∈ s, c ≠ 0x0D ∧ c ≠ 0x0A ∧ c < 256

/-! ## Characters -/

theorem mem_strip {s : Str} (h : c ∈ strip s) : c ∈ s := by
  have hright : c ∈ lstripBy isSpace s := by
    have hrev := List.mem_reverse.mp h
    exact List.mem_reverse.mp ((List.dropWhile_suffix _).mem hrev)
  exact (List.dropWhile_suffix _).mem hright

theorem mem_splitOn {sep : Nat} {s w : Str} (hw : w ∈ splitOn sep s) (hc : c ∈ w) : c ∈ s ∧ c ≠ sep := by
  induction s generalizing w with
  | nil =>
    rw [splitOn, List.mem_singleton] at hw
    subst hw
    cases hc
  | cons a s ih =>
    by_cases ha : a = sep
    · subst ha
      rw [splitOn_sep] at hw
      rcases List.mem_cons.mp hw with rfl | hw
      · cases hc
      · exact (ih hw hc).imp_left (List.mem_cons_of_mem _)
    · obtain ⟨w₀, ws, hs, hcons⟩ := splitOn_cons_ne (s := s) ha
      rw [hcons] at hw
      rw [hs] at ih
      rcases List.mem_cons.mp hw with rfl | hw
      · rcases List.mem_cons.mp hc with rfl | hc
        · exact ⟨List.mem_cons_self, ha⟩
        · exact (ih List.mem_cons_self hc).imp_left (List.mem_cons_of_mem _)
      · exact (ih (List.mem_cons_of_mem _ hw) hc).imp_left (List.mem_cons_of_mem _)

theorem mem_normalizeNewlines {s : Str} (h : c ∈ normalizeNewlines s) :
    c ≠ 0x0D ∧ (c = 0x0A ∨ c ∈ s) := by
  induction s using normalizeNewlines.induct with
  | case1 s ih | case2 s hne ih =>
    simp only [normalizeNewlines] at h
    rcases List.mem_cons.mp h with rfl | h
    · exact ⟨by decide, .inl rfl⟩
    · exact (ih h).imp_right fun h => h.imp_right fun h => by simp [h]
  | case3 c' s hcrlf hcr ih =>
    rw [normalizeNewlines] at h
    · rcases List.mem_cons.mp h with rfl | h
      · exact ⟨hcr, .inr List.mem_cons_self⟩
      · exact (ih h).imp_right fun h => h.imp_right (List.mem_cons_of_mem _)
    · exact hcrlf
    · exact hcr
  | case4 => cases h

theorem mem_partition {sep : Nat} {s : Str} (h : c ∈ (partition sep s).2.2) : c ∈ s := by
  rw [partition_eq] at h
  exact (List.dropWhile_suffix _).mem (List.mem_of_mem_drop h)

/-! ## The two envelopes -/

theorem lt_of_mem_latin1Decode {data : Bytes} (h : c ∈ latin1Decode data) : c < 256 := by
  obtain ⟨b, -, rfl⟩ := List.mem_map.mp h
  exact b.toNat_lt

/-- What is left of a line after stripping, if anything. -/
theorem headerValue_strip {s e : Str} (hs : strip s = e) (hne : e ≠ [])
    (hline : ∀ c ∈ s, c ≠ 0x0D ∧ c ≠ 0x0A ∧ c < 256) : HeaderValue e := by
  subst hs
  exact ⟨hne, strip_strip s, fun c hc => hline c (mem_strip hc)⟩

theorem decodeHeaderValue_value {value : Bytes} (h : decodeHeaderValue value = some e) :
    HeaderValue e := by
  unfold decodeHeaderValue at h
  split at h
  · cases h
  next hprintable =>
    split at h
    · cases h
    next c s hs =>
      cases h
      refine headerValue_strip hs (List.cons_ne_nil _ _) fun c hc => ?_
      obtain ⟨b, hb, rfl⟩ := List.mem_map.mp hc
      have hlow : ¬(b < 0x20 || 0x7E < b) = true := fun hbad =>
        hprintable (List.any_eq_true.mpr ⟨b, hb, hbad⟩)
      simp only [Bool.or_eq_true, decide_eq_true_eq, not_or, UInt8.not_lt, UInt8.le_iff_toNat_le,
        UInt8.reduceToNat] at hlow
      omega

/-- The loop over the headers of a `UTOM` envelope keeps values that were decoded. -/
theorem utomEtag_value {response : Bytes} {metadataEnd count offset : Nat} {etag : Option Str}
    (hetag : ∀ e ∈ etag, HeaderValue e) :
    ∀ e ∈ utomEtag response metadataEnd count offset etag, HeaderValue e := by
  induction count generalizing offset etag with
  | zero => exact hetag
  | succ count ih =>
    rw [utomEtag]
    dsimp only
    split
    · refine ih fun e he => ?_
      split at he
      · exact decodeHeaderValue_value he
      · exact hetag e he
    · exact hetag

/-- The `ETag` of a text response stands on one of its lines. -/
theorem textEtag_value {lines : List Str}
    (hlines : ∀ line ∈ lines, ∀ c ∈ line, c ≠ 0x0D ∧ c ≠ 0x0A ∧ c < 256) :
    ∀ e ∈ textEtag lines, HeaderValue e := by
  unfold textEtag
  refine List.foldlRecOn (motive := fun etag : Option Str => ∀ e ∈ etag, HeaderValue e) lines _
    (fun e he => (by cases he)) fun etag hetag line hline => ?_
  dsimp only
  split
  · split
    · exact fun e he => (by cases he)
    · next c s hs =>
      intro e he
      cases he
      exact headerValue_strip hs (List.cons_ne_nil _ _) fun c hc =>
        hlines line hline c (mem_partition hc)
  · exact hetag

theorem parseUtomResponse_etag {response : Bytes}
    (h : parseUtomResponse response = some (body, some e, status)) : HeaderValue e := by
  unfold parseUtomResponse at h
  split at h
  · cases h
  · dsimp only at h
    split at h
    · cases h
    · simp only [Option.some.injEq, Prod.mk.injEq] at h
      exact utomEtag_value (by simp) e h.2.1

theorem parseTextHttpResponse_etag {response : Bytes}
    (h : parseTextHttpResponse response = some (body, some e, status)) : HeaderValue e := by
  simp only [parseTextHttpResponse, Option.bind_eq_bind, Option.bind_eq_some_iff, pure,
    Option.some.injEq, Prod.mk.injEq] at h
  obtain ⟨⟨headerBlock, body'⟩, -, -, hetag, -⟩ := h
  refine textEtag_value (fun line hline c hc => ?_) e hetag
  obtain ⟨hmem, hne⟩ := mem_splitOn (List.mem_of_mem_tail hline) hc
  obtain ⟨hcr, hmem⟩ := mem_normalizeNewlines hmem
  exact ⟨hcr, hne, lt_of_mem_latin1Decode (hmem.resolve_left hne)⟩

/-- The `ETag` of any response is one line of a header. -/
theorem parseDatastoreResponse_etag {response : Bytes}
    (h : (parseDatastoreResponse response).etag = some e) : HeaderValue e := by
  unfold parseDatastoreResponse at h
  split at h
  · next body etag status hr =>
    subst h
    rcases Option.or_eq_some_iff.mp hr with hr | ⟨-, hr⟩
    · exact parseUtomResponse_etag hr
    · exact parseTextHttpResponse_etag hr
  · cases h

end Responses

/-! ## The answers of the proxy -/

namespace ReadStack

open Datastore Coordinator Dispatch Stack Responses

variable {σ : Type} {d : DatastoreDispatcher σ} {cfg : Config} {w : ReadWorld}

theorem cleanEtag_eq_some {value : Option Str} :
    cleanEtag value = some e ↔ value.map strip = some e ∧ e ≠ [] := by
  unfold cleanEtag
  rcases hs : value.map strip with _ | _ | ⟨c, s⟩
  · simp
  · simp [eq_comm]
  · simp only [Option.some.injEq, iff_self_and]
    rintro rfl
    exact List.cons_ne_nil c s

theorem cleanEtag_headerValue (h : HeaderValue e) : cleanEtag (some e) = some e :=
  cleanEtag_eq_some.2 ⟨congrArg some h.stripped, h.nonempty⟩

theorem cleanEtag_cleanEtag {value : Option Str} (h : cleanEtag value = some e) :
    cleanEtag (some e) = some e := by
  obtain ⟨hs, hne⟩ := cleanEtag_eq_some.1 h
  obtain ⟨s, -, rfl⟩ := Option.map_eq_some_iff.1 hs
  exact cleanEtag_eq_some.2 ⟨congrArg some (strip_strip s), hne⟩

/-- The dispatcher has stripped the header already. -/
theorem cleanEtag_prepared {a : DispatchArgs} {call : ReadCall}
    (hp : preparedRead d a = .ok (some call)) :
    cleanEtag call.ifNoneMatch = cleanEtag a.ifNoneMatch := by
  obtain ⟨_, _, -, -, -, -, -, -, hmatch⟩ := preparedRead_eq_ok hp
  rw [hmatch]
  simp only [cleanEtag, Option.map_map, Function.comp_def, strip_strip]

theorem datastoreBodyContentType_cases (body : Bytes) :
    datastoreBodyContentType body = py "application/json" ∨
      datastoreBodyContentType body = py "application/octet-stream" := by
  unfold datastoreBodyContentType
  split
  · exact .inl rfl
  · exact .inr rfl

/-- The headers of the answers to a `GET`, in every run and for every device: the content type is one
of the two of the proxy; an `ETag` is one line without space around it, or it is the `If-None-Match`
of the request itself and nothing has changed; and sent back, it is read as the same `ETag`. -/
theorem read_headers {managed : ManagedDatastore} {session : MotuUsbDatastore}
    {as : List ReadStack.Action} {x : HttpRead} {r : DispatchResult}
    (hrun : run (ReadWorld.step d cfg) (.init managed session) as = some w) (hx : x ∈ w.reads)
    (hr : x.result = some (.ok r)) :
    (∀ contentType, r.contentType = some contentType →
      contentType = py "application/json" ∨ contentType = py "application/octet-stream") ∧
    ∀ e, r.etag = some e → cleanEtag (some e) = some e ∧
      (HeaderValue e ∨ r.status = 304 ∧ cleanEtag x.args.ifNoneMatch = some e) := by
  have hanswers := (Integrity.of_run hrun).answers x hx r hr
  have hvalue {e : Str} (h : HeaderValue e) : cleanEtag (some e) = some e ∧
      (HeaderValue e ∨ r.status = 304 ∧ cleanEtag x.args.ifNoneMatch = some e) :=
    ⟨cleanEtag_headerValue h, .inl h⟩
  cases hanswers with
  | status =>
    refine ⟨fun contentType h => ?_, fun e he => (by cases he)⟩
    cases h
    exact .inl rfl
  | @own call response =>
    refine ⟨fun contentType h => ?_, fun e he => hvalue (parseDatastoreResponse_etag he)⟩
    cases h
    rw [contentTypeOf_parse]
    exact datastoreBodyContentType_cases _
  | cached hp hpath ht =>
    obtain ⟨-, -, response, -, -, -, hetag⟩ := ht.received
    refine ⟨fun contentType h => ?_, fun e he => ?_⟩
    · cases h
      exact ht.contentType ▸ datastoreBodyContentType_cases _
    · cases he
      exact hvalue (parseDatastoreResponse_etag hetag)
  | notModified hp hetag =>
    refine ⟨fun contentType h => (by cases h), fun e he => ?_⟩
    cases he
    exact ⟨cleanEtag_cleanEtag hetag, .inr ⟨rfl, (cleanEtag_prepared hp).symm.trans hetag⟩⟩

/-- The frame of a response `HTTP/1.1 200 OK` with `ETag: 5`. -/
def etagFrame : Bytes := [
  0x21, 0x00, 0x37, 0x00, 0x4e, 0x52, 0x45, 0x4b, 0x3c, 0x77, 0xb1, 0x35, 0x02, 0x00, 0x00,
  0x00, 0x01, 0x00, 0x00, 0x00, 0x00, 0x00, 0x1b, 0x00, 0x48, 0x54, 0x54, 0x50, 0x2f, 0x31,
  0x2e, 0x31, 0x20, 0x32, 0x30, 0x30, 0x20, 0x4f, 0x4b, 0x0a, 0x45, 0x54, 0x61, 0x67, 0x3a,
  0x20, 0x35, 0x0a, 0x0a, 0x7b, 0x7d, 0x21, 0x00, 0x37, 0x00]

/-- A read of `/x` that the device answers under an `ETag`. -/
def etagRun : List ReadStack.Action :=
  [.read { method := .GET, requestPath := py "/x" }, .http 0 (.ok []),
    .stack (.step (.client 0 .go)), .stack (.begin (.client 0) (.ok (0x20, 2)) 0),
    .stack (.operate (.client 0) { reads := [.data etagFrame] } none),
    .stack (.step (.client 0 .go)), .stack (.step (.client 0 .go)), .stack (.step (.client 0 .go)),
    .http 0 (.ok [])]

theorem read_headers_etag : ∃ w x r,
    run (ReadWorld.step readOnly {}) (.init (.init 0 0 0) {}) etagRun = some w ∧ x ∈ w.reads ∧
      x.result = some (.ok r) ∧ r.etag = some (py "5") ∧ cleanEtag (some (py "5")) = some (py "5") := by
  have hfacts : (run (ReadWorld.step readOnly {}) (.init (.init 0 0 0) {}) etagRun).map
      (fun w => w.reads.map fun x => x.result.map fun r => r.toOption.map (·.etag)) =
      some [some (some (some (py "5")))] := by decide +kernel
  obtain ⟨w, hw, hreads⟩ := Option.map_eq_some_iff.mp hfacts
  obtain ⟨x, hx, hresult⟩ := List.map_eq_singleton_iff.mp hreads
  obtain ⟨result, hresult, hok⟩ := Option.map_eq_some_iff.mp hresult
  have hmem : x ∈ w.reads := by rw [hx]; exact List.mem_singleton_self _
  cases result with
  | error exc => cases hok
  | ok r =>
    have hetag : r.etag = some (py "5") := Option.some.inj hok
    exact ⟨w, x, r, hw, hmem, hresult, hetag, ((read_headers hw hmem hresult).2 _ hetag).1⟩

end ReadStack

end MotuProxy
