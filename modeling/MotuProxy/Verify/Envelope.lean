import MotuProxy.Verify.RequestFormat

/-! # The UTOM envelope of a datastore response

`utomEnvelope` builds an envelope with the words of `protocol.py`, and the parser reads it back
(`parseUtomResponse_envelope`). On any other bytes the header loop stays inside the metadata, so no
read leaves the response (`utomEtagChecked_eq`) and none sees the body (`utomEtag_append`).
-/

namespace MotuProxy

open Py Protocol

namespace Responses

/-! ## Looking for bytes -/

section

variable {sub data : Bytes}

theorem find_of_prefix (h : sub <+: data) : find sub data = some 0 := by
  cases data with
  | nil => rw [List.prefix_nil.mp h]; rfl
  | cons b data => rw [find, if_pos (List.isPrefixOf_iff_prefix.mpr h)]

/-- Bytes that do not hold the first byte of the pattern are passed over. -/
theorem find_append {a rest : Bytes} {c : UInt8} (h : c ∉ a) :
    find (c :: sub) (a ++ rest) = (find (c :: sub) rest).map (· + a.length) := by
  induction a with
  | nil => simp
  | cons b a ih =>
    have hb : ¬(c :: sub).isPrefixOf (b :: (a ++ rest)) = true := by
      rw [List.isPrefixOf_iff_prefix, List.cons_prefix_cons]
      exact fun hcb => h (hcb.1 ▸ List.mem_cons_self ..)
    rw [List.cons_append, find, if_neg hb, ih fun ha => h (List.mem_cons_of_mem _ ha),
      Option.map_map]
    rfl

theorem find_eq_none_iff : find sub data = none ↔ ¬sub <:+: data := by
  induction data with
  | nil =>
    rw [find, List.infix_nil]
    cases sub <;> simp
  | cons b data ih =>
    rw [find, List.infix_cons_iff, ← List.isPrefixOf_iff_prefix]
    split
    · simp [*]
    · simp [*]

/-- The first place of a byte. -/
theorem find_singleton {c : UInt8} :
    find [c] data = some i ↔ ∃ p rest, data = p ++ c :: rest ∧ c ∉ p ∧ p.length = i := by
  constructor
  · intro h
    induction data generalizing i with
    | nil => cases h
    | cons b data ih =>
      rw [find] at h
      split at h
      · next hb =>
        cases h
        obtain ⟨rfl, -⟩ := List.cons_prefix_cons.mp (List.isPrefixOf_iff_prefix.mp hb)
        exact ⟨[], data, rfl, List.not_mem_nil, rfl⟩
      · next hb =>
        obtain ⟨j, hj, rfl⟩ := Option.map_eq_some_iff.mp h
        obtain ⟨p, rest, rfl, hp, rfl⟩ := ih hj
        refine ⟨b :: p, rest, rfl, fun hc => ?_, rfl⟩
        rcases List.mem_cons.mp hc with rfl | hc
        · exact hb (List.isPrefixOf_iff_prefix.mpr (List.prefix_append [c] _))
        · exact hp hc
  · rintro ⟨p, rest, rfl, hp, rfl⟩
    have hhere : find [c] (c :: rest) = some 0 := find_of_prefix (List.prefix_append [c] rest)
    rw [find_append hp, hhere]
    simp

end

/-! ## The last entry of a list that a loop keeps -/

/-- A loop that keeps the value of the last item with a property. -/
theorem foldl_ite_eq_getLast? (p : α → Bool) (f : α → β) (l : List α) (b : β) :
    l.foldl (fun b a => if p a then f a else b) b = ((l.filter p).getLast?.map f).getD b := by
  induction l generalizing b with
  | nil => rfl
  | cons a l ih =>
    rw [List.foldl_cons, ih, List.filter_cons]
    cases p a with
    | false => rfl
    | true => cases h : (l.filter p).getLast? <;> simp [List.getLast?_cons, h]

/-! ## The UTOM envelope -/

/-- A header of the metadata: its name and its value. -/
def sizedHeader (h : Bytes × Bytes) : Except Exn Bytes := do
  return (← sizedWord (.raw h.1)) ++ (← sizedWord (.raw h.2))

/-- The status, the number of headers, and the headers. -/
def utomMetadata (status : Nat) (headers : List (Bytes × Bytes)) : Except Exn Bytes := do
  let status ← u32 status
  let count ← u32 headers.length
  return status ++ count ++ (← headers.mapM sizedHeader).flatten

/-- A response in the UTOM envelope; the device fills the three words before the length. -/
def utomEnvelope (word₁ word₂ word₃ status : Nat) (headers : List (Bytes × Bytes)) (body : Bytes) :
    Except Exn Bytes := do
  let metadata ← utomMetadata status headers
  return [0x55, 0x54, 0x4F, 0x4D] ++ (← u32 word₁) ++ (← u32 word₂) ++ (← u32 word₃) ++
    (← u32 metadata.length) ++ metadata ++ body

/-- The bytes are printable ASCII. -/
def Printable (data : Bytes) : Prop := ∀ b ∈ data, 0x20 ≤ b ∧ b ≤ 0x7E

instance (data : Bytes) : Decidable (Printable data) := inferInstanceAs (Decidable (∀ _ ∈ _, _))

/-- The name of a header is `etag`, but for case and surrounding space. -/
def IsEtagName (name : Bytes) : Prop :=
  Printable name ∧ lower (strip (latin1Decode name)) = py "etag"

instance (name : Bytes) : Decidable (IsEtagName name) := inferInstanceAs (Decidable (_ ∧ _))

/-- The stripped value of a header, if it is printable ASCII and not blank. -/
def headerText (value : Bytes) : Option Str :=
  if Printable value ∧ strip (latin1Decode value) ≠ [] then some (strip (latin1Decode value))
  else none

/-- The value of the last header with the name `etag`. -/
def lastEtag (headers : List (Bytes × Bytes)) : Option Str :=
  (headers.filter fun h => IsEtagName h.1).getLast?.bind fun h => headerText h.2

theorem decodeHeaderValue_eq (value : Bytes) : decodeHeaderValue value = headerText value := by
  have hprintable : (value.any fun b => b < 0x20 || 0x7E < b) = true ↔ ¬Printable value := by
    simp only [List.any_eq_true, Bool.or_eq_true, decide_eq_true_eq, Printable, not_forall,
      not_and_or, UInt8.not_le, exists_prop]
  unfold decodeHeaderValue headerText
  by_cases h : Printable value
  · rw [if_neg (by rw [hprintable]; exact not_not.mpr h)]
    cases hs : strip (latin1Decode value) with
    | nil => simp
    | cons c s => simp [h]
  · rw [if_pos (hprintable.mpr h), if_neg fun h' => h h'.1]

theorem isEtag_eq (name : Bytes) :
    ((decodeHeaderValue name).any fun n => lower n = py "etag") = decide (IsEtagName name) := by
  rw [decodeHeaderValue_eq, headerText]
  by_cases h : Printable name
  · by_cases hs : strip (latin1Decode name) = []
    · have hblank : lower [] ≠ py "etag" := by decide
      simp [IsEtagName, h, hs, hblank]
    · simp [IsEtagName, h, hs]
  · simp [IsEtagName, h]

/-- The loop over the headers keeps the last `etag`. -/
theorem foldl_headers (headers : List (Bytes × Bytes)) :
    headers.foldl (fun etag h => if (decodeHeaderValue h.1).any fun n => lower n = py "etag" then
      decodeHeaderValue h.2 else etag) none = lastEtag headers := by
  simp only [isEtag_eq]
  simp only [decodeHeaderValue_eq]
  rw [foldl_ite_eq_getLast? (fun h : Bytes × Bytes => decide (IsEtagName h.1))
    (fun h => headerText h.2), lastEtag]
  cases (headers.filter fun h => IsEtagName h.1).getLast? <;> rfl

/-! ### Reading an envelope back -/

theorem readSizedValue_sizedBytes {p value q : Bytes} (hsize : value.length ≤ 4096)
    (hstop : p.length + 4 + value.length ≤ stop) :
    readSizedValue (p ++ (sizedBytes value ++ q)) p.length stop =
      (some value, p.length + 4 + value.length) := by
  have hword : Bytes.word 4 (p ++ (sizedBytes value ++ q)) p.length = value.length := by
    rw [sizedBytes, List.append_assoc]
    exact Bytes.word_middle rfl (by omega)
  have hslice : Bytes.slice (p ++ (sizedBytes value ++ q)) (p.length + 4)
      (p.length + 4 + value.length) = value := by
    rw [sizedBytes, List.append_assoc, ← List.append_assoc]
    exact Bytes.slice_middle (by simp) rfl
  rw [readSizedValue, if_neg (by omega), hword, if_neg (by omega), hslice]

/-- The header loop over the headers of an envelope, from the one that stands after `p` on. -/
theorem utomEtag_headers {p q : Bytes} {headers : List (Bytes × Bytes)} {etag : Option Str}
    (hsize : ∀ h ∈ headers, h.1.length ≤ 4096 ∧ h.2.length ≤ 4096)
    (hstop : stop = p.length + (headers.map pairBytes).flatten.length) :
    utomEtag (p ++ ((headers.map pairBytes).flatten ++ q)) stop headers.length p.length etag =
      headers.foldl (fun etag h => if (decodeHeaderValue h.1).any fun n => lower n = py "etag" then
        decodeHeaderValue h.2 else etag) etag := by
  induction headers generalizing p etag with
  | nil => rfl
  | cons h headers ih =>
    obtain ⟨name, value⟩ := h
    obtain ⟨⟨hname, hvalue⟩, hrest⟩ := List.forall_mem_cons.mp hsize
    dsimp only at hname hvalue
    have hlen : stop = p.length + 8 + name.length + value.length +
        (headers.map pairBytes).flatten.length := by
      simp only [hstop, List.map_cons, List.flatten_cons, List.length_append, length_pairBytes]
      omega
    have hread₁ := readSizedValue_sizedBytes (p := p)
      (q := sizedBytes value ++ ((headers.map pairBytes).flatten ++ q)) hname
      (show _ ≤ stop by omega)
    have hread₂ := readSizedValue_sizedBytes (p := p ++ sizedBytes name)
      (q := (headers.map pairBytes).flatten ++ q) hvalue
      (show _ ≤ stop by simp only [List.length_append, length_sizedBytes]; omega)
    have hnext := @ih (p ++ sizedBytes name ++ sizedBytes value)
      (if (decodeHeaderValue name).any fun n => lower n = py "etag" then
        decodeHeaderValue value else etag) hrest
      (by simp only [List.length_append, length_sizedBytes]; omega)
    simp only [List.append_assoc, List.length_append, length_sizedBytes,
      ← Nat.add_assoc] at hread₂ hnext
    simp only [List.map_cons, List.flatten_cons, pairBytes, List.append_assoc, List.length_cons,
      utomEtag, hread₁, hread₂, hnext, List.foldl_cons]

theorem sizedHeaders_eq_ok {headers : List (Bytes × Bytes)}
    (h : headers.mapM sizedHeader = .ok words) : words = headers.map pairBytes := by
  induction headers generalizing words with
  | nil => cases h; rfl
  | cons header headers ih =>
    simp only [List.mapM_cons, sizedHeader, except_bind_eq_ok, pure, Except.pure,
      Except.ok.injEq] at h
    obtain ⟨_, ⟨name, hname, value, hvalue, rfl⟩, words, hwords, rfl⟩ := h
    rw [sizedWord_raw_eq_ok hname, sizedWord_raw_eq_ok hvalue, ih hwords]
    rfl

/-- The layout of an envelope: twenty bytes with the length of the metadata at their end, and then
the metadata and the body. -/
theorem utomEnvelope_eq_ok (h : utomEnvelope word₁ word₂ word₃ status headers body = .ok response) :
    ∃ p : Bytes, p.length = 20 ∧ [0x55, 0x54, 0x4F, 0x4D] <+: p ∧
      Bytes.word 4 p 16 = 8 + (headers.map pairBytes).flatten.length ∧
      response = p ++ (leBytes 4 status ++ (leBytes 4 headers.length ++
        ((headers.map pairBytes).flatten ++ body))) ∧
      status < 256 ^ 4 ∧ headers.length < 256 ^ 4 := by
  simp only [utomEnvelope, utomMetadata, except_bind_eq_ok, pure, Except.pure,
    Except.ok.injEq] at h
  obtain ⟨_, ⟨_, hstatus, _, hcount, _, hwords, rfl⟩, _, h₁, _, h₂, _, h₃, _, hlen, rfl⟩ := h
  obtain ⟨rfl, hstatusLt⟩ := u32_eq_ok hstatus
  obtain ⟨rfl, hcountLt⟩ := u32_eq_ok hcount
  obtain ⟨rfl, -⟩ := u32_eq_ok h₁
  obtain ⟨rfl, -⟩ := u32_eq_ok h₂
  obtain ⟨rfl, -⟩ := u32_eq_ok h₃
  obtain ⟨rfl, hlenLt⟩ := u32_eq_ok hlen
  obtain rfl := sizedHeaders_eq_ok hwords
  generalize hm : (leBytes 4 status ++ leBytes 4 headers.length ++
    (headers.map pairBytes).flatten).length = m at hlenLt ⊢
  have hm' : m = 8 + (headers.map pairBytes).flatten.length := by
    rw [← hm]
    simp only [List.length_append, length_leBytes]
  refine ⟨[0x55, 0x54, 0x4F, 0x4D] ++ leBytes 4 word₁ ++ leBytes 4 word₂ ++ leBytes 4 word₃ ++
    leBytes 4 m, ?_, ?_, ?_, ?_, hstatusLt, hcountLt⟩
  · simp only [List.length_append, length_leBytes, List.length_cons, List.length_nil]
  · simp only [List.append_assoc]
    exact List.prefix_append _ _
  · rw [← hm', ← List.append_nil (leBytes 4 m)]
    exact Bytes.word_middle (by simp only [List.length_append, length_leBytes, List.length_cons,
      List.length_nil]) hlenLt
  · simp only [List.append_assoc]

theorem parseUtomResponse_envelope
    (hsize : ∀ h ∈ headers, h.1.length ≤ 4096 ∧ h.2.length ≤ 4096)
    (h : utomEnvelope word₁ word₂ word₃ status headers body = .ok response) :
    parseUtomResponse response = some (body, lastEtag headers, httpStatus status) := by
  obtain ⟨p, hp, hutom, hdeclared, rfl, hstatus, hcount⟩ := utomEnvelope_eq_ok h
  generalize hwords : (headers.map pairBytes).flatten = words at hdeclared
  have hmetadata : Bytes.word 4 (p ++ (leBytes 4 status ++ (leBytes 4 headers.length ++
      (words ++ body)))) 16 = 8 + words.length := by
    rw [Bytes.word_append_left (by omega), hdeclared]
  have hstatus' : Bytes.word 4 (p ++ (leBytes 4 status ++ (leBytes 4 headers.length ++
      (words ++ body)))) 20 = status := Bytes.word_middle hp.symm hstatus
  have hcount' : Bytes.word 4 (p ++ (leBytes 4 status ++ (leBytes 4 headers.length ++
      (words ++ body)))) 24 = headers.length := by
    rw [← List.append_assoc p]
    exact Bytes.word_middle (by simp [hp]) hcount
  have hbody : (p ++ (leBytes 4 status ++ (leBytes 4 headers.length ++ (words ++ body)))).drop
      (20 + (8 + words.length)) = body := by
    simp only [← List.append_assoc]
    exact List.drop_left' (by simp only [List.length_append, length_leBytes, hp]; omega)
  have hetag := @utomEtag_headers _ (p ++ leBytes 4 status ++ leBytes 4 headers.length) body headers
    none hsize rfl
  rw [hwords, foldl_headers] at hetag
  simp only [List.length_append, length_leBytes, hp, List.append_assoc] at hetag
  unfold parseUtomResponse
  rw [if_neg, hmetadata, if_neg, hstatus', hcount', hbody]
  · simp only [← Nat.add_assoc, Nat.reduceAdd, hetag]
  · simp only [List.length_append, length_leBytes, hp]
    omega
  · simp only [List.length_append, length_leBytes, hp, not_or, not_not]
    exact ⟨by omega, hutom.trans (List.prefix_append _ _)⟩

/-! ### Any other bytes -/

theorem readSizedValueChecked_eq {data : Bytes} (h : stop ≤ data.length) :
    readSizedValueChecked data offset stop = .ok (readSizedValue data offset stop) := by
  unfold readSizedValueChecked readSizedValue
  by_cases hstop : stop < offset + 4
  · rw [if_pos hstop, if_pos hstop]; rfl
  · rw [if_neg hstop, if_neg hstop, unpackFrom_ok (by omega)]
    simp only [bind, Except.bind, pure, Except.pure]
    split_ifs <;> rfl

/-- Inside the metadata no read leaves the response. -/
theorem utomEtagChecked_eq {response : Bytes} (h : metadataEnd ≤ response.length) :
    utomEtagChecked response metadataEnd count offset etag =
      .ok (utomEtag response metadataEnd count offset etag) := by
  induction count generalizing offset etag with
  | zero => rfl
  | succ count ih =>
    simp only [utomEtagChecked, utomEtag, readSizedValueChecked_eq h, bind, Except.bind]
    cases (readSizedValue response offset metadataEnd).1 with
    | none => rfl
    | some name =>
      generalize readSizedValue response (readSizedValue response offset metadataEnd).2
        metadataEnd = read
      cases read.1 with
      | none => rfl
      | some value => exact ih

theorem parseUtomResponseChecked_eq (response : Bytes) :
    parseUtomResponseChecked response = .ok (parseUtomResponse response) := by
  unfold parseUtomResponseChecked parseUtomResponse
  split
  · rfl
  rename_i h
  rw [unpackFrom_ok (by omega)]
  simp only [bind, Except.bind, pure, Except.pure]
  split
  · rfl
  rename_i h'
  rw [unpackFrom_ok (by omega), unpackFrom_ok (by omega)]
  simp only [utomEtagChecked_eq (Nat.le_of_not_lt (not_or.mp h').1)]

theorem parseDatastoreResponseChecked_eq (response : Bytes) :
    parseDatastoreResponseChecked response = .ok (parseDatastoreResponse response) := by
  rw [parseDatastoreResponseChecked, parseUtomResponseChecked_eq, parseDatastoreResponse]
  simp only [bind, Except.bind, pure, Except.pure]
  cases (parseUtomResponse response).or (parseTextHttpResponse response) <;> rfl

/-- The bytes after the limit do not matter to a sized value. -/
theorem readSizedValue_append {p q : Bytes} (h : stop ≤ p.length) :
    readSizedValue (p ++ q) offset stop = readSizedValue p offset stop := by
  unfold readSizedValue
  by_cases hstop : stop < offset + 4
  · rw [if_pos hstop, if_pos hstop]
  · rw [if_neg hstop, if_neg hstop, Bytes.word_append_left (by omega)]
    by_cases hend : 4096 < p.word 4 offset ∨ stop < offset + 4 + p.word 4 offset
    · rw [if_pos hend, if_pos hend]
    · rw [if_neg hend, if_neg hend, Bytes.slice_append_left (by omega)]

theorem utomEtag_append {p q : Bytes} (h : metadataEnd ≤ p.length) :
    utomEtag (p ++ q) metadataEnd count offset etag = utomEtag p metadataEnd count offset etag := by
  induction count generalizing offset etag with
  | zero => rfl
  | succ count ih => simp only [utomEtag, readSizedValue_append h, ih]

theorem parseTextHttpResponse_utom {response : Bytes}
    (h : [0x55, 0x54, 0x4F, 0x4D] <+: response) : parseTextHttpResponse response = none := by
  obtain ⟨rest, rfl⟩ := h
  rfl

/-- What the parser makes of a response that starts with `UTOM`. -/
theorem parseDatastoreResponse_utom {response : Bytes}
    (h : [0x55, 0x54, 0x4F, 0x4D] <+: response) :
    parseDatastoreResponse response =
      if response.length < 28 ∨ response.length < 20 + response.word 4 16 ∨
        response.word 4 16 < 8 then { body := response }
      else {
        body := response.drop (20 + response.word 4 16)
        etag := utomEtag response (20 + response.word 4 16) (response.word 4 24) 28 none
        status := httpStatus (response.word 4 20) } := by
  rw [parseDatastoreResponse, parseTextHttpResponse_utom h, Option.or_none, parseUtomResponse]
  by_cases hshort : response.length < 28
  · rw [if_pos (.inl hshort), if_pos (.inl hshort)]
  · rw [if_neg (not_or.mpr ⟨hshort, not_not.mpr h⟩)]
    by_cases hfits : response.length < 20 + response.word 4 16 ∨ response.word 4 16 < 8
    · rw [if_pos hfits, if_pos (.inr hfits)]
    · rw [if_neg hfits, if_neg (not_or.mpr ⟨hshort, hfits⟩)]

/-- The `etag` is read in the bytes up to the end of the metadata. -/
theorem etag_append {p q : Bytes} (h : [0x55, 0x54, 0x4F, 0x4D] <+: p)
    (hlen : p.length = 20 + p.word 4 16) :
    (parseDatastoreResponse (p ++ q)).etag =
      if p.word 4 16 < 8 then none else utomEtag p p.length (p.word 4 24) 28 none := by
  have hword : Bytes.word 4 (p ++ q) 16 = p.word 4 16 := Bytes.word_append_left (by omega)
  rw [parseDatastoreResponse_utom (h.trans (List.prefix_append _ _)), hword, ← hlen,
    List.length_append]
  by_cases h8 : p.word 4 16 < 8
  · rw [if_pos (.inr (.inr h8)), if_pos h8]
  · rw [if_neg (by omega), if_neg h8, Bytes.word_append_left (by omega)]
    exact utomEtag_append (Nat.le_refl _)

/-- The parser reads an envelope back: the body, the status where it is one of HTTP, and the last
`etag`. On all bytes that start with `UTOM` it returns, with the bytes after the declared metadata
as the body, or with all of them where no metadata fits; what follows the metadata does not change
the `etag`. -/
theorem utom_envelope_parsed :
    (∀ word₁ word₂ word₃ status headers body response,
      (∀ h ∈ headers, h.1.length ≤ 4096 ∧ h.2.length ≤ 4096) →
      utomEnvelope word₁ word₂ word₃ status headers body = .ok response →
      parseDatastoreResponseChecked response = .ok {
        body
        etag := lastEtag headers
        status := if 100 ≤ status ∧ status ≤ 599 then some status else none }) ∧
    (∀ response : Bytes, [0x55, 0x54, 0x4F, 0x4D] <+: response →
      ∃ payload, parseDatastoreResponseChecked response = .ok payload ∧
        payload.body =
          if response.length < 28 ∨ response.length < 20 + response.word 4 16 ∨
            response.word 4 16 < 8 then response
          else response.drop (20 + response.word 4 16)) ∧
    (∀ metadata body body' : Bytes, [0x55, 0x54, 0x4F, 0x4D] <+: metadata →
      metadata.length = 20 + metadata.word 4 16 →
      (parseDatastoreResponse (metadata ++ body)).etag =
        (parseDatastoreResponse (metadata ++ body')).etag) := by
  refine ⟨fun word₁ word₂ word₃ status headers body response hsize h => ?_, fun response h => ?_,
    fun metadata body body' h hlen => ?_⟩
  · rw [parseDatastoreResponseChecked_eq, parseDatastoreResponse,
      parseUtomResponse_envelope hsize h]
    rfl
  · refine ⟨_, parseDatastoreResponseChecked_eq response, ?_⟩
    rw [parseDatastoreResponse_utom h]
    split <;> rfl
  · rw [etag_append h hlen, etag_append h hlen]

/-- Three headers, one of them with a value that is not text; the last has the name `etag`. -/
def threeHeaders : List (Bytes × Bytes) :=
  [(ascii "ETag", ascii "1"), (ascii "X-Other", [0xFF]), (ascii " eTag ", ascii "5678 ")]

theorem utom_envelope_parsed_three : ∃ response,
    utomEnvelope 8 1 0 200 threeHeaders [0x7B, 0x7D] = .ok response ∧
      parseDatastoreResponseChecked response =
        .ok { body := [0x7B, 0x7D], etag := some (py "5678"), status := some 200 } := by
  obtain ⟨response, h⟩ : ∃ response,
    utomEnvelope 8 1 0 200 threeHeaders [0x7B, 0x7D] = .ok response := ⟨_, rfl⟩
  have hetag : lastEtag threeHeaders = some (py "5678") := by decide +kernel
  refine ⟨response, h, ?_⟩
  rw [utom_envelope_parsed.1 _ _ _ _ _ _ _ (by decide +kernel) h, hetag]
  rfl

end Responses

end MotuProxy
