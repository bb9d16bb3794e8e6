import MotuProxy.Lib.Proc
import MotuProxy.Model.Handler

/-! # The framing of a persistent connection

`handle_datastore_request` decides by `close_connection` whether the connection serves another
request. The next request is read from the right place only if this one's body was consumed to its
end, and the client finds the next response only if this one delimits itself.

The proofs follow a response through `_headers_buffer`: a status line and header fields are
collected (`Collecting`; no items before `send_response`), and then they are sent (`Sent`).
-/

namespace MotuProxy.MotuProxyHandler

open Py Responses

variable {σ : Type} {server : MotuProxyServer σ} {r : HttpRequest} {method : Method}

/-! ## What is claimed -/

def isStatus : Item → Bool
  | .status _ => true
  | _ => false

def statusLines (items : List Item) : Nat := items.countP isStatus

def contentLengths (fields : List (Str × Str)) : List Str :=
  (fields.filter fun f => lower f.1 = py "content-length").map (·.2)

def fieldItem (f : Str × Str) : Item := .header f.1 f.2

/-- One response that tells where it ends. -/
def SelfDelimiting (items : List Item) : Prop :=
  ∃ (code : Nat) (fields : List (Str × Str)) (chunks : List Bytes),
    items = .status code :: fields.map fieldItem ++ .blank :: chunks.map Item.data ∧
    (contentLengths fields = [strNat chunks.flatten.length] ∨
      code = 304 ∧ chunks.flatten = [] ∧ contentLengths fields = [])

/-- `n` is the length of the body that the request announces and the handler reads. -/
def Announces (method : Method) (r : HttpRequest) (n : Nat) : Prop :=
  match method with
  | .GET => n = 0
  | _ => contentLength (r.header (py "Content-Length")) = some (n : Int)

/-- The state in which `handle_datastore_request` is called. -/
structure Fresh (s : MotuProxyHandler σ) : Prop where
  buffer : s.headersBuffer = []
  wfile : s.wfile = []
  consumed : s.consumed = 0

/-- After a normal return that keeps the connection, both directions stand at the next message. -/
def Framed (method : Method) (r : HttpRequest) (s : MotuProxyHandler σ) : Prop :=
  s.closeConnection = false → Announces method r s.consumed ∧ SelfDelimiting s.wfile

def InStep (server : MotuProxyServer σ) (r : HttpRequest) (method : Method)
    (s : MotuProxyHandler σ) : Prop :=
  match handleDatastoreRequest server r method s with
  | .ok _ s => statusLines s.wfile ≤ 1 ∧ Framed method r s
  | .error _ s => statusLines s.wfile ≤ 1

/-- The handler reads, or need not read, the whole body that the request announces. -/
def FramingAccepted (method : Method) (r : HttpRequest) : Prop :=
  match method with
  | .GET => orElse (r.header (py "Transfer-Encoding")) none = none ∧
      contentLength (r.header (py "Content-Length")) = some 0
  | _ => (∀ encoding, orElse (r.header (py "Transfer-Encoding")) none = some encoding →
      lower encoding = py "identity") ∧
      ∃ n : Nat, contentLength (r.header (py "Content-Length")) = some (n : Int)

/-- For every server, dispatcher, body stream and failure of the socket. -/
def KeepsInStep (method : Method) (r : HttpRequest) (close : Bool) : Prop :=
  ∀ (σ : Type) (server : MotuProxyServer σ) (s : MotuProxyHandler σ), Fresh s →
    s.closeConnection = close → InStep server r method s

/-! ## Collecting and sending a response -/

/-- What is collected for a request of this version. -/
def visible (r : HttpRequest) (items : List Item) : List Item :=
  if r.requestVersion = HTTP_0_9 then [] else items

/-- `items` are collected and nothing is sent. -/
structure Collecting (r : HttpRequest) (close : Bool) (n : Nat) (started : Bool)
    (items : List Item) (s : MotuProxyHandler σ) : Prop where
  buffer : s.headersBuffer = visible r items
  wfile : s.wfile = []
  close : s.closeConnection = close
  consumed : s.consumed = n
  started : s.responseStarted = started

/-- `items` are sent, and then the chunks of a body. -/
structure Sent (r : HttpRequest) (close : Bool) (n : Nat) (started : Bool) (items : List Item)
    (chunks : List Bytes) (s : MotuProxyHandler σ) : Prop where
  wfile : s.wfile = visible r items ++ chunks.map Item.data
  close : s.closeConnection = close
  consumed : s.consumed = n
  started : s.responseStarted = started

/-- A response was begun and could not be finished. -/
structure Broken (started : Bool) (s : MotuProxyHandler σ) : Prop where
  once : statusLines s.wfile ≤ 1
  started : s.responseStarted = started

theorem statusLines_append (a b : List Item) :
    statusLines (a ++ b) = statusLines a + statusLines b := List.countP_append

theorem statusLines_map {f : α → Item} (hf : ∀ a, isStatus (f a) = false) (as : List α) :
    statusLines (as.map f) = 0 := by
  refine List.countP_eq_zero.2 fun item h => ?_
  obtain ⟨a, -, rfl⟩ := List.mem_map.1 h
  simp [hf a]

theorem statusLines_visible_le (items : List Item) :
    statusLines (visible r items) ≤ statusLines items := by
  unfold visible
  split
  · exact Nat.zero_le _
  · exact Nat.le_refl _

theorem statusLines_take_le (k : Nat) (items : List Item) :
    statusLines (items.take k) ≤ statusLines items :=
  (List.take_sublist k items).countP_le

/-- The items of a header. -/
def headerItems (code : Nat) (fields : List (Str × Str)) : List Item :=
  .status code :: fields.map fieldItem

theorem statusLines_header (code : Nat) (fields : List (Str × Str)) :
    statusLines (headerItems code fields ++ [.blank]) = 1 := by
  rw [headerItems, ← List.singleton_append, statusLines_append, statusLines_append,
    statusLines_map (fun _ => rfl)]
  rfl

section
variable {code n : Nat} {close started : Bool} {items : List Item} {chunks : List Bytes}
  {s : MotuProxyHandler σ}

theorem Collecting.broken (h : Collecting r close n started items s) : Broken started s :=
  ⟨by rw [h.wfile]; exact Nat.zero_le 1, h.started⟩

theorem Sent.once (h : Sent r close n started items chunks s) (hitems : statusLines items ≤ 1) :
    statusLines s.wfile ≤ 1 := by
  rw [h.wfile, statusLines_append, statusLines_map (fun _ => rfl)]
  exact Nat.le_trans (statusLines_visible_le items) hitems

theorem buffer_spec (item : Item) :
    Triple (Collecting (σ := σ) r close n started items) (buffer r item)
      (fun _ => Collecting r close n started (items ++ [item])) E := by
  apply Triple.modify
  intro s hs
  have hb := hs.buffer
  unfold visible at hb
  split
  · next hv =>
    rw [if_pos hv] at hb
    exact ⟨by rw [visible, if_pos hv]; exact hb, hs.wfile, hs.close, hs.consumed, hs.started⟩
  · next hv =>
    rw [if_neg hv] at hb
    refine ⟨?_, hs.wfile, hs.close, hs.consumed, hs.started⟩
    rw [visible, if_neg hv]
    simp [hb]

theorem checkEncodable_spec (keyword value : Str) {P : MotuProxyHandler σ → Prop} :
    Triple P (checkEncodable r keyword value) (fun _ => P) (fun _ => P) :=
  Triple.ite (fun _ => Triple.pure fun _ hs => hs) (fun _ => Triple.throw fun _ hs => hs)

/-- A field that is not about the connection is collected, or is refused and leaves all as it was. -/
theorem sendHeader_spec {keyword value : Str} (h : lower keyword ≠ py "connection") :
    Triple (Collecting (σ := σ) r close n started items) (sendHeader r keyword value)
      (fun _ => Collecting r close n started (items ++ [.header keyword value]))
      (fun _ => Collecting r close n started items) := by
  refine Triple.bind (checkEncodable_spec keyword value) fun _ => ?_
  refine Triple.bind (buffer_spec (.header keyword value)) fun _ => ?_
  apply Triple.modify
  intro s hs
  rwa [if_neg h]

theorem sendHeaders_spec {fields : List (Str × Str)}
    (h : ∀ f ∈ fields, lower f.1 ≠ py "connection") :
    Triple (Collecting (σ := σ) r close n started items) (sendHeaders r fields)
      (fun _ => Collecting r close n started (items ++ fields.map fieldItem))
      (fun _ => Broken started) := by
  induction fields generalizing items with
  | nil => exact Triple.pure fun s hs => by rwa [List.map_nil, List.append_nil]
  | cons f fields ih =>
    refine Triple.bind (Triple.conseq (sendHeader_spec (h f (List.mem_cons_self ..)))
      (fun _ hs => hs) (fun _ _ hs => hs) (fun _ _ hs => hs.broken)) fun _ => ?_
    rw [List.map_cons, List.append_cons items (fieldItem f)]
    exact ih fun f hf => h f (List.mem_cons_of_mem _ hf)

/-- The field that announces the end of the connection. -/
def connectionFields (close : Bool) : List (Str × Str) :=
  if close then [(py "Connection", py "close")] else []

theorem sendConnection_spec :
    Triple (Collecting (σ := σ) r close n started items) (sendConnection r)
      (fun _ => Collecting r close n started (items ++ (connectionFields close).map fieldItem))
      (fun _ => Broken started) := by
  refine Triple.bind (Q := fun a s => a.closeConnection = close ∧
    Collecting r close n started items s) (Triple.get fun s hs => ⟨hs.close, hs⟩) fun a => ?_
  cases close with
  | false =>
    refine Triple.ite (fun ha s hs => ?_) (fun _ => Triple.pure fun s hs => ?_)
    · exact absurd (ha.symm.trans hs.1) Bool.true_eq_false.mp
    · simpa [connectionFields] using hs.2
  | true =>
    refine Triple.ite (fun _ => ?_) (fun ha s hs => absurd hs.1 ha)
    refine Triple.bind (Q := fun _ => Collecting r true n started items)
      (Triple.conseq (checkEncodable_spec (P := Collecting r true n started items) _ _)
        (fun _ hs => hs.2) (fun _ _ hs => hs) (fun _ _ hs => hs.broken)) fun _ => ?_
    refine Triple.bind (buffer_spec (.header (py "Connection") (py "close"))) fun _ => ?_
    apply Triple.modify
    intro s hs
    exact ⟨hs.buffer, hs.wfile, rfl, hs.consumed, hs.started⟩

theorem writeItems_cases (items : List Item) (s : MotuProxyHandler σ) :
    writeItems items s = .ok () { s with sends := s.sends.tail, wfile := s.wfile ++ items } ∨
    ∃ exc k, writeItems items s =
      .error exc { s with sends := s.sends.tail, wfile := s.wfile ++ items.take k } := by
  unfold writeItems
  split
  · next exc before _ _ => exact .inr ⟨exc, before, rfl⟩
  · exact .inl rfl

theorem writeData_cases (bytes : Bytes) (s : MotuProxyHandler σ) :
    writeData bytes s = .ok () { s with sends := s.sends.tail, wfile := s.wfile ++ [.data bytes] } ∨
    ∃ exc k, writeData bytes s =
      .error exc { s with sends := s.sends.tail, wfile := s.wfile ++ [.data (bytes.take k)] } := by
  unfold writeData
  split
  · next exc before _ _ => exact .inr ⟨exc, before, rfl⟩
  · exact .inl rfl

/-- `end_headers` sends what is collected and the blank line, or some of it before it raises. -/
theorem endHeaders_spec (hitems : statusLines (items ++ [.blank]) ≤ 1) :
    Triple (Collecting (σ := σ) r close n started items) (endHeaders r)
      (fun _ => Sent r close n started (items ++ [.blank]) []) (fun _ => Broken started) := by
  refine Triple.ite (fun hv => Triple.pure fun s hs => ?_) (fun hv => ?_)
  · exact ⟨by simp [visible, hv, hs.wfile], hs.close, hs.consumed, hs.started⟩
  · refine Triple.bind (buffer_spec .blank) fun _ => ?_
    refine Triple.bind (Q := fun a s => a = s ∧ Collecting r close n started (items ++ [.blank]) s)
      (Triple.get fun s hs => ⟨rfl, hs⟩) fun a => ?_
    refine Triple.bind (Q := fun _ => Sent r close n started (items ++ [.blank]) []) ?_
      fun _ => Triple.modify fun s hs => ⟨hs.wfile, hs.close, hs.consumed, hs.started⟩
    rintro s ⟨rfl, hs⟩
    rcases writeItems_cases a.headersBuffer a with h | ⟨exc, k, h⟩
    · rw [h]
      exact ⟨by simp [hs.wfile, hs.buffer], hs.close, hs.consumed, hs.started⟩
    · rw [h]
      refine ⟨?_, hs.started⟩
      rw [hs.wfile, hs.buffer, List.nil_append]
      exact Nat.le_trans (statusLines_take_le k _)
        (Nat.le_trans (statusLines_visible_le _) hitems)

theorem writeData_spec (bytes : Bytes) (hitems : statusLines items ≤ 1) :
    Triple (Sent (σ := σ) r close n started items []) (writeData bytes)
      (fun _ => Sent r close n started items [bytes]) (fun _ => Broken started) := by
  intro s hs
  rcases writeData_cases bytes s with h | ⟨exc, k, h⟩
  · rw [h]
    exact ⟨by simp [hs.wfile], hs.close, hs.consumed, hs.started⟩
  · rw [h]
    refine ⟨?_, hs.started⟩
    change statusLines (s.wfile ++ [.data (bytes.take k)]) ≤ 1
    rw [statusLines_append]
    exact hs.once hitems

theorem writeBody_spec (body : Bytes) (hitems : statusLines items ≤ 1) :
    Triple (Sent (σ := σ) r close n started items []) (writeBody body)
      (fun _ => Sent r close n started items (if body = [] then [] else [body]))
      (fun _ => Broken started) := by
  unfold writeBody
  split
  · exact Triple.pure fun s hs => hs
  · exact writeData_spec body hitems

theorem printStderr_spec :
    Triple (Collecting (σ := σ) r close n started items) printStderr
      (fun _ => Collecting r close n started items)
      (fun _ => Collecting r close n started items) := by
  intro s hs
  unfold printStderr
  rcases s.stderr with _ | ⟨_ | exc, rest⟩
  all_goals exact ⟨hs.buffer, hs.wfile, hs.close, hs.consumed, hs.started⟩

theorem sendHeader_latin1 {keyword value : Str} (h : lower keyword ≠ py "connection")
    (hk : isLatin1 keyword) (hv : isLatin1 value) :
    Triple (Collecting (σ := σ) r close n started items) (sendHeader r keyword value)
      (fun _ => Collecting r close n started (items ++ [.header keyword value])) E := by
  refine Triple.bind (Q := fun _ => Collecting r close n started items)
    (Triple.ite (fun _ => Triple.pure fun _ hs => hs) (fun hc => absurd (.inr ⟨hk, hv⟩) hc))
    fun _ => ?_
  refine Triple.bind (buffer_spec (.header keyword value)) fun _ => ?_
  apply Triple.modify
  intro s hs
  rwa [if_neg h]

/-- The fields that `send_response` itself adds. -/
def standardFields (server : MotuProxyServer σ) : List (Str × Str) :=
  [(py "Server", server.versionString), (py "Date", server.dateTimeString)]

/-- `send_response` collects the status line and two fields; it raises only if the log does. -/
theorem sendResponse_spec :
    Triple (Collecting (σ := σ) r close n false []) (sendResponse server r code)
      (fun _ => Collecting r close n false (headerItems code (standardFields server)))
      (fun _ => Collecting r close n false []) := by
  refine Triple.bind (Q := fun _ => Collecting r close n false []) ?_ fun _ => ?_
  · exact Triple.ite (fun _ => printStderr_spec) (fun _ => Triple.pure fun _ hs => hs)
  · refine Triple.bind (buffer_spec (.status code)) fun _ => ?_
    refine Triple.bind (sendHeader_latin1 (by decide) (by decide) server.version_latin1) fun _ => ?_
    exact sendHeader_latin1 (by decide) (by decide) server.date_latin1

/-- From the status line to the end of the header. -/
theorem finishHeader_spec {fields more : List (Str × Str)}
    (h : ∀ f ∈ more, lower f.1 ≠ py "connection") (k : Handling σ Unit)
    {Q : Unit → MotuProxyHandler σ → Prop}
    (hk : Triple (Sent r close n started
      (headerItems code (fields ++ more ++ connectionFields close) ++ [.blank]) []) k Q
      (fun _ => Broken started)) :
    Triple (Collecting (σ := σ) r close n started (headerItems code fields))
      (do sendHeaders r more; sendConnection r; endHeaders r; k) Q (fun _ => Broken started) := by
  refine Triple.bind (sendHeaders_spec h) fun _ => ?_
  refine Triple.bind sendConnection_spec fun _ => ?_
  have heq : headerItems code fields ++ more.map fieldItem ++
      (connectionFields close).map fieldItem =
      headerItems code (fields ++ more ++ connectionFields close) := by
    simp [headerItems]
  rw [heq]
  exact Triple.bind (endHeaders_spec (Nat.le_of_eq (statusLines_header ..))) fun _ => hk

/-- The keywords that the handler itself sends. -/
def keywords : List Str :=
  [py "Content-Type", py "Cache-Control", py "ETag", py "Content-Length"]

theorem ne_connection {keyword : Str} (h : keyword ∈ keywords) :
    lower keyword ≠ py "connection" := by
  revert keyword
  decide

theorem mem_etagFields {etag : Option Str} (h : f ∈ etagFields method etag) : f.1 = py "ETag" := by
  unfold etagFields at h
  split at h
  · split at h
    · rw [List.mem_singleton.1 h]
    · cases h
  · cases h

theorem resultHeaders_keyword (result : DispatchResult) :
    ∀ f ∈ resultHeaders method result, f.1 ∈ keywords := by
  intro f hf
  simp only [resultHeaders, List.mem_append, List.mem_singleton] at hf
  rcases hf with ((hf | rfl) | hf) | hf
  · split at hf
    · rw [List.mem_singleton.1 hf]; exact .head _
    · cases hf
  · exact .tail _ (.head _)
  · rw [mem_etagFields hf]; exact .tail _ (.tail _ (.head _))
  · split at hf
    · rw [List.mem_singleton.1 hf]; exact .tail _ (.tail _ (.tail _ (.head _)))
    · cases hf

theorem errorHeaders_keyword (body : Bytes) : ∀ f ∈ errorHeaders body, f.1 ∈ keywords := by
  intro f hf
  rcases List.mem_cons.1 hf with rfl | hf
  · exact .head _
  · rw [List.mem_singleton.1 hf]
    exact .tail _ (.tail _ (.tail _ (.head _)))

/-- The chunks of a body that `sendResult` writes. -/
def bodyChunks (body : Bytes) : List Bytes := if body = [] then [] else [body]

def resultFields (server : MotuProxyServer σ) (method : Method) (close : Bool)
    (result : DispatchResult) : List (Str × Str) :=
  standardFields server ++ resultHeaders method result ++ connectionFields close

def errorFields (server : MotuProxyServer σ) (close : Bool) (message : Str) : List (Str × Str) :=
  standardFields server ++ errorHeaders (errorBody message) ++ connectionFields close

theorem sendResult_spec (result : DispatchResult) :
    Triple (Collecting (σ := σ) r close n false []) (sendResult server r method result)
      (fun _ => Sent r close n true
        (headerItems result.status (resultFields server method close result) ++ [.blank])
        (bodyChunks (resultBody result)))
      (fun _ s => Collecting r close n false [] s ∨ Broken true s) := by
  refine Triple.bind (Triple.conseq sendResponse_spec (fun _ hs => hs) (fun _ _ hs => hs)
    (fun _ _ hs => .inl hs)) fun _ => ?_
  refine Triple.bind (Triple.modify (Q := fun _ => Collecting r close n true _) fun s hs =>
    ⟨hs.buffer, hs.wfile, hs.close, hs.consumed, rfl⟩) fun _ => ?_
  refine Triple.conseq (finishHeader_spec (fun f hf => ne_connection (resultHeaders_keyword result f hf)) _
    (writeBody_spec _ (Nat.le_of_eq (statusLines_header ..)))) (fun _ hs => hs)
    (fun _ _ hs => hs) (fun _ _ hs => .inr hs)

theorem sendJsonError_spec (status : Nat) (message : Str) :
    Triple (Collecting (σ := σ) r close n false []) (sendJsonError server r status message)
      (fun _ => Sent r close n false
        (headerItems status (errorFields server close message) ++ [.blank]) [errorBody message])
      (fun _ => Broken false) := by
  refine Triple.bind (Triple.conseq sendResponse_spec (fun _ hs => hs) (fun _ _ hs => hs)
    (fun _ _ hs => hs.broken)) fun _ => ?_
  exact finishHeader_spec (fun f hf => ne_connection (errorHeaders_keyword _ f hf)) _
    (writeData_spec _ (Nat.le_of_eq (statusLines_header ..)))

/-! ## The length that a response announces -/

theorem contentLengths_append (a b : List (Str × Str)) :
    contentLengths (a ++ b) = contentLengths a ++ contentLengths b := by
  simp [contentLengths]

theorem contentLengths_other {keyword value : Str} (h : lower keyword ≠ py "content-length") :
    contentLengths ((keyword, value) :: fields) = contentLengths fields := by
  simp [contentLengths, h]

theorem contentLengths_length (value : Str) :
    contentLengths [(py "Content-Length", value)] = [value] := by
  have h : lower (py "Content-Length") = py "content-length" := by decide
  simp [contentLengths, h]

theorem contentLengths_standardFields : contentLengths (standardFields server) = [] := by
  rw [standardFields, contentLengths_other (by decide), contentLengths_other (by decide)]
  rfl

theorem contentLengths_connectionFields : contentLengths (connectionFields close) = [] := by
  cases close <;> decide

theorem contentLengths_resultHeaders (result : DispatchResult) :
    contentLengths (resultHeaders method result) =
      if result.status = 304 then [] else [strNat (resultBody result).length] := by
  have hetag : contentLengths (etagFields method result.etag) = [] := by
    rw [contentLengths, List.filter_eq_nil_iff.2]
    · rfl
    · intro f hf
      rw [mem_etagFields hf]
      decide
  have hcache : contentLengths [(py "Cache-Control", py "no-cache")] = [] := by decide
  rw [resultHeaders, contentLengths_append, contentLengths_append, contentLengths_append, hetag,
    hcache]
  by_cases h : result.status = 304
  · rw [if_neg (not_not_intro h), if_neg (not_not_intro h), if_pos h]
    rfl
  · rw [if_pos h, if_pos h, if_neg h, contentLengths_other (by decide), contentLengths_length]
    rfl

theorem contentLengths_errorHeaders (body : Bytes) :
    contentLengths (errorHeaders body) = [strNat body.length] := by
  rw [errorHeaders, contentLengths_other (by decide), contentLengths_length]

theorem Sent.selfDelimiting {fields : List (Str × Str)} (hv : r.requestVersion ≠ HTTP_0_9)
    (h : Sent r close n started (headerItems code fields ++ [.blank]) chunks s)
    (hlength : contentLengths fields = [strNat chunks.flatten.length] ∨
      code = 304 ∧ chunks.flatten = [] ∧ contentLengths fields = []) : SelfDelimiting s.wfile := by
  refine ⟨code, fields, chunks, ?_, hlength⟩
  rw [h.wfile, visible, if_neg hv, headerItems, List.append_assoc, List.singleton_append]

theorem flatten_bodyChunks (body : Bytes) : (bodyChunks body).flatten = body := by
  unfold bodyChunks
  split
  · next h => exact h.symm
  · simp

theorem resultFields_delimit (result : DispatchResult) :
    contentLengths (resultFields server method close result) =
        [strNat (bodyChunks (resultBody result)).flatten.length] ∨
      result.status = 304 ∧ (bodyChunks (resultBody result)).flatten = [] ∧
        contentLengths (resultFields server method close result) = [] := by
  rw [flatten_bodyChunks, resultFields, contentLengths_append, contentLengths_append,
    contentLengths_standardFields, contentLengths_connectionFields, contentLengths_resultHeaders]
  by_cases h : result.status = 304
  · exact .inr ⟨h, by rw [resultBody, if_pos h], by rw [if_pos h]; rfl⟩
  · exact .inl (by rw [if_neg h]; rfl)

theorem errorFields_delimit (message : Str) :
    contentLengths (errorFields server close message) =
      [strNat [errorBody message].flatten.length] := by
  rw [errorFields, contentLengths_append, contentLengths_append, contentLengths_standardFields,
    contentLengths_connectionFields, contentLengths_errorHeaders]
  simp

end

/-! ## Before the response -/

/-- No response was begun. -/
def Pending (r : HttpRequest) (s : MotuProxyHandler σ) : Prop :=
  ∃ n close, Collecting r close n false [] s

/-- No response was begun, `n` bytes are consumed, and the connection will close if `c`. -/
def Unanswered (r : HttpRequest) (c : Prop) (n : Nat) (s : MotuProxyHandler σ) : Prop :=
  ∃ close, Collecting r close n false [] s ∧ (c → close = true)

section
variable {n : Nat} {close : Bool}

theorem setCloseConnection_spec :
    Triple (Collecting (σ := σ) r close n false []) setCloseConnection
      (fun _ => Collecting r true n false []) E :=
  Triple.modify fun _ hs => ⟨hs.buffer, hs.wfile, rfl, hs.consumed, hs.started⟩

theorem liftExcept_spec {P : MotuProxyHandler σ → Prop} (x : Except Exn α) :
    Triple P (liftExcept x) (fun a s => P s ∧ x = .ok a) (fun _ => P) := by
  cases x with
  | ok a => exact Triple.pure fun _ hs => ⟨hs, rfl⟩
  | error exc => exact Triple.throw fun _ hs => hs

/-- The connection of a `GET` with a body will close. -/
theorem closeGetConnectionIfBodyAnnounced_spec :
    Triple (Collecting (σ := σ) r close n false []) (closeGetConnectionIfBodyAnnounced r)
      (fun _ => Unanswered r (close = true ∨ ¬FramingAccepted .GET r) n)
      (fun _ => Unanswered r (close = true ∨ ¬FramingAccepted .GET r) n) := by
  have hclose : Triple (Collecting (σ := σ) r close n false []) setCloseConnection
      (fun _ => Unanswered r (close = true ∨ ¬FramingAccepted .GET r) n)
      (fun _ => Unanswered r (close = true ∨ ¬FramingAccepted .GET r) n) :=
    Triple.conseq setCloseConnection_spec (fun _ hs => hs) (fun _ _ hs => ⟨true, hs, fun _ => rfl⟩)
      (fun _ _ hs => hs)
  have hraise : Triple (Collecting (σ := σ) r close n false [])
      (do setCloseConnection; throw invalidContentLength : Handling σ Unit)
      (fun _ => Unanswered r (close = true ∨ ¬FramingAccepted .GET r) n)
      (fun _ => Unanswered r (close = true ∨ ¬FramingAccepted .GET r) n) :=
    Triple.bind setCloseConnection_spec fun _ => Triple.throw fun _ hs => ⟨true, hs, fun _ => rfl⟩
  have hkeep (h : FramingAccepted .GET r) : Triple (Collecting (σ := σ) r close n false [])
      (pure () : Handling σ Unit)
      (fun _ => Unanswered r (close = true ∨ ¬FramingAccepted .GET r) n)
      (fun _ => Unanswered r (close = true ∨ ¬FramingAccepted .GET r) n) :=
    Triple.pure fun _ hs => ⟨close, hs, fun hc => hc.resolve_right (not_not_intro h)⟩
  unfold closeGetConnectionIfBodyAnnounced
  split
  · exact hclose
  · next hencoding =>
    have hencoding := Option.not_isSome_iff_eq_none.1 hencoding
    split
    · next hlength => exact hkeep ⟨hencoding, by rw [hlength]; decide⟩
    · next text hlength =>
      split
      · exact hraise
      · next length hint =>
        refine Triple.ite (fun _ => hraise) fun hneg => Triple.ite (fun _ => hclose) fun hpos => ?_
        have hzero : length = 0 := by omega
        exact hkeep ⟨hencoding, by rw [hlength, hint, hzero]⟩

theorem settimeout_spec (timeout : Option ℚ) :
    Triple (Collecting (σ := σ) r close n false []) (settimeout timeout)
      (fun _ => Collecting r close n false []) (fun _ => Pending r) := by
  intro s hs
  unfold settimeout
  rcases s.settimeouts with _ | ⟨_ | exc, rest⟩
  · exact ⟨hs.buffer, hs.wfile, hs.close, hs.consumed, hs.started⟩
  · exact ⟨hs.buffer, hs.wfile, hs.close, hs.consumed, hs.started⟩
  · exact ⟨n, close, hs.buffer, hs.wfile, hs.close, hs.consumed, hs.started⟩

theorem settimeout_pending (timeout : Option ℚ) :
    Triple (Pending (σ := σ) r) (settimeout timeout) (fun _ => Pending r) (fun _ => Pending r) := by
  rintro s ⟨n, close, hs⟩
  exact Triple.conseq (settimeout_spec timeout) (fun _ hs => hs) (fun _ _ hs => ⟨n, close, hs⟩)
    (fun _ _ hs => hs) s hs

theorem read_cases (length : Nat) (s : MotuProxyHandler σ) :
    let raw := s.arrived.take length
    let s' := { s with arrived := s.arrived.drop length, consumed := s.consumed + raw.length }
    read length s = .ok raw s' ∨ ∃ exc, read length s = .error exc s' := by
  intro raw s'
  by_cases hlen : raw.length = length
  · exact .inl (if_pos hlen)
  · have h : read length s = _ := if_neg hlen
    rw [h]
    split
    · exact .inl rfl
    · next exc _ => exact .inr ⟨exc, rfl⟩

/-- `rfile.read` consumes what it returns. -/
theorem read_spec (length : Nat) :
    Triple (Collecting (σ := σ) r close 0 false []) (read length)
      (fun raw => Collecting r close raw.length false []) (fun _ => Pending r) := by
  intro s hs
  have hread : Collecting r close (s.arrived.take length).length false []
      { s with arrived := s.arrived.drop length,
               consumed := s.consumed + (s.arrived.take length).length } :=
    ⟨hs.buffer, hs.wfile, hs.close, by simp [hs.consumed], hs.started⟩
  rcases read_cases length s with h | ⟨exc, h⟩
  · rw [h]
    exact hread
  · rw [h]
    exact ⟨_, close, hread⟩

theorem readOrTimeOut_spec (length : Nat) :
    Triple (Collecting (σ := σ) r close 0 false []) (readOrTimeOut length)
      (fun raw => Collecting r close raw.length false []) (fun _ => Pending r) := by
  intro s hs
  unfold readOrTimeOut
  cases hx : read length s with
  | ok raw s' => exact (read_spec length).ok hs hx
  | error exc s' =>
    obtain ⟨n, close', hs'⟩ := (read_spec length).error hs hx
    by_cases hexc : exc.kind = .timeoutError
    · simp only [if_pos hexc]
      exact ⟨n, true, hs'.buffer, hs'.wfile, rfl, hs'.consumed, hs'.started⟩
    · simp only [if_neg hexc]
      exact ⟨n, close', hs'⟩

theorem finallyDo_spec {P F : MotuProxyHandler σ → Prop} {x : Handling σ α} {y : Handling σ Unit}
    {Q : α → MotuProxyHandler σ → Prop} (hx : Triple P x Q fun _ => F)
    (hok : ∀ a, Triple (Q a) y (fun _ => Q a) fun _ => F)
    (herror : Triple F y (fun _ => F) fun _ => F) : Triple P (finallyDo x y) Q fun _ => F := by
  intro s hs
  unfold finallyDo
  cases hxs : x s with
  | ok a s₁ =>
    have h₁ := hx.ok hs hxs
    cases hys : y s₁ with
    | ok u s₂ => simpa only [hys] using (hok a).ok h₁ hys
    | error exc s₂ => simpa only [hys] using (hok a).error h₁ hys
  | error exc s₁ =>
    have h₁ := hx.error hs hxs
    cases hys : y s₁ with
    | ok u s₂ => simpa only [hys] using herror.ok h₁ hys
    | error exc' s₂ => simpa only [hys] using herror.error h₁ hys

theorem readExactBodyBytes_spec (length : Nat) :
    Triple (Collecting (σ := σ) r close 0 false []) (readExactBodyBytes server length)
      (fun raw => Collecting r close raw.length false []) (fun _ => Pending r) := by
  unfold readExactBodyBytes
  split
  · exact Triple.pure fun _ hs => hs
  · split
    · exact readOrTimeOut_spec length
    · refine Triple.bind (Q := fun _ => Collecting r close 0 false [])
        (Triple.get fun _ hs => hs) fun s => ?_
      refine Triple.bind (settimeout_spec _) fun _ => ?_
      exact finallyDo_spec (readOrTimeOut_spec length) (fun _ => settimeout_spec _)
        (settimeout_pending _)

theorem checkComplete_spec (raw : Bytes) (length : Nat) :
    Triple (Collecting (σ := σ) r close raw.length false []) (checkComplete raw length)
      (fun _ => Collecting r close length false []) (fun _ => Pending r) := by
  refine Triple.ite (fun _ => ?_) fun h => Triple.pure fun _ hs => ?_
  · exact Triple.bind setCloseConnection_spec fun _ => Triple.throw fun _ hs => ⟨_, true, hs⟩
  · rwa [← not_not.1 h]

theorem announcedLength_length_eq_ok (h : announcedLength.length server r = .ok n) :
    contentLength (r.header (py "Content-Length")) = some (n : Int) := by
  unfold announcedLength.length at h
  split at h
  · cases h
  · next length hl =>
    obtain ⟨hnonneg, h⟩ := ite_error_eq_ok.1 h
    obtain ⟨-, h⟩ := ite_error_eq_ok.1 h
    cases h
    rw [hl, Int.toNat_of_nonneg (Int.not_lt.1 hnonneg)]

theorem announcedLength_eq_ok (h : announcedLength server r = .ok n) :
    (∀ encoding, orElse (r.header (py "Transfer-Encoding")) none = some encoding →
      lower encoding = py "identity") ∧
    contentLength (r.header (py "Content-Length")) = some (n : Int) := by
  unfold announcedLength at h
  split at h
  · next encoding hencoding =>
    obtain ⟨hidentity, h⟩ := ite_error_eq_ok.1 h
    refine ⟨fun encoding' h' => ?_, announcedLength_length_eq_ok h⟩
    cases hencoding.symm.trans h'
    exact not_not.1 hidentity
  · next hencoding =>
    exact ⟨fun encoding' h' => absurd (hencoding.symm.trans h') nofun,
      announcedLength_length_eq_ok h⟩

/-- A body that is read is consumed to its announced end. -/
theorem readRawBody_spec :
    Triple (Collecting (σ := σ) r close 0 false []) (readRawBody server r)
      (fun _ s => ∃ n, Collecting r close n false [] s ∧ announcedLength server r = .ok n)
      (fun _ => Pending r) := by
  refine Triple.bind (Triple.conseq (liftExcept_spec _) (fun _ hs => hs) (fun _ _ hs => hs)
    fun _ _ hs => ⟨0, close, hs⟩) fun length => Triple.assume fun hlength => ?_
  refine Triple.bind (readExactBodyBytes_spec length) fun raw => ?_
  refine Triple.bind (checkComplete_spec raw length) fun _ => ?_
  exact Triple.conseq (liftExcept_spec _) (fun _ hs => hs)
    (fun _ _ hs => ⟨length, hs.1, hlength⟩) fun _ _ hs => ⟨length, close, hs⟩

end

/-- The connection is not kept: it was not to be kept, or the body is not read. -/
def MustClose (r : HttpRequest) (method : Method) (close : Bool) : Prop :=
  close = true ∨ ¬FramingAccepted method r

section
variable {c : Prop}

/-- The state when the response is sent. -/
def Ready (r : HttpRequest) (method : Method) (c : Prop) (s : MotuProxyHandler σ) : Prop :=
  ∃ n, Unanswered r c n s ∧ Announces method r n

/-- The state when an exception is handled. -/
def Failed (r : HttpRequest) (method : Method) (c : Prop) (s : MotuProxyHandler σ) : Prop :=
  (method = .GET ∧ Unanswered r c 0 s) ∨ (method ≠ .GET ∧ Pending r s) ∨ Broken true s

/-- The state after a response was sent. -/
structure Done (r : HttpRequest) (method : Method) (c : Prop) (s : MotuProxyHandler σ) : Prop where
  once : statusLines s.wfile ≤ 1
  framed : r.requestVersion ≠ HTTP_0_9 → Framed method r s
  closes : c → s.closeConnection = true

theorem checkHeaders_spec {close : Bool} :
    Triple (Collecting (σ := σ) r close 0 false []) (checkHeaders server r method)
      (fun _ => Unanswered r (close = true ∨ method = .GET ∧ ¬FramingAccepted method r) 0)
      (fun _ => Failed r method (MustClose r method close)) := by
  refine Triple.ite (fun hm => ?_) fun hm => ?_
  · subst hm
    refine Triple.conseq closeGetConnectionIfBodyAnnounced_spec (fun _ hs => hs) (fun _ s hs => ?_)
      fun _ _ hs => .inl ⟨rfl, hs⟩
    obtain ⟨close', hs, hc⟩ := hs
    exact ⟨close', hs, fun h => hc (h.imp_right And.right)⟩
  · have hkeep : close = true ∨ method = .GET ∧ ¬FramingAccepted method r → close = true :=
      fun h => h.resolve_right fun h => hm h.1
    split
    · exact Triple.pure fun _ hs => ⟨close, hs, hkeep⟩
    · exact Triple.conseq (liftExcept_spec _) (fun _ hs => hs)
        (fun _ _ hs => ⟨close, hs.1, hkeep⟩) fun _ _ hs => .inr (.inl ⟨hm, 0, close, hs⟩)

theorem rawBody_spec {close : Bool} :
    Triple (Unanswered (σ := σ) r (close = true ∨ method = .GET ∧ ¬FramingAccepted method r) 0)
      (rawBody server r method) (fun _ => Ready r method (MustClose r method close))
      (fun _ => Failed r method (MustClose r method close)) := by
  rintro s ⟨close', hs, hc⟩
  revert s
  change Triple (Collecting r close' 0 false []) _ _ _
  refine Triple.ite (fun hm => Triple.pure fun s hs => ?_) fun hm => ?_
  · subst hm
    exact ⟨0, ⟨close', hs, fun h => hc (h.imp_right fun h => ⟨rfl, h⟩)⟩, rfl⟩
  · refine Triple.conseq readRawBody_spec (fun _ hs => hs) (fun _ s hs => ?_)
      fun _ s hs => .inr (.inl ⟨hm, hs⟩)
    obtain ⟨n, hs, hn⟩ := hs
    obtain ⟨hencoding, hlength⟩ := announcedLength_eq_ok hn
    have haccepted : FramingAccepted method r ∧ Announces method r n := by
      cases method with
      | GET => exact absurd rfl hm
      | POST | PATCH => exact ⟨⟨hencoding, n, hlength⟩, hlength⟩
    exact ⟨n, ⟨close', hs, fun h => hc (.inl (h.resolve_right (not_not_intro haccepted.1)))⟩,
      haccepted.2⟩

theorem Ready.failed {s : MotuProxyHandler σ} (h : Ready r method c s) : Failed r method c s := by
  obtain ⟨n, hs, hn⟩ := h
  by_cases hm : method = .GET
  · subst hm
    cases hn
    exact .inl ⟨rfl, hs⟩
  · obtain ⟨close, hs, -⟩ := hs
    exact .inr (.inl ⟨hm, n, close, hs⟩)

theorem dispatch_spec (args : DispatchArgs) :
    Triple (Ready (σ := σ) r method c) (dispatch server args)
      (fun _ => Ready r method c) (fun _ => Failed r method c) := by
  rintro s ⟨n, ⟨close, hs, hc⟩, hn⟩
  have hs' (backend : σ) : Ready r method c { s with backend } :=
    ⟨n, ⟨close, ⟨hs.buffer, hs.wfile, hs.close, hs.consumed, hs.started⟩, hc⟩, hn⟩
  unfold dispatch
  cases server.dispatcher.dispatch args s.backend with
  | ok result backend => exact hs' backend
  | error exc backend => exact (hs' backend).failed

theorem sendResult_done (result : DispatchResult) :
    Triple (Ready (σ := σ) r method c) (sendResult server r method result)
      (fun _ => Done r method c) (fun _ => Failed r method c) := by
  rintro s ⟨n, ⟨close, hs, hc⟩, hn⟩
  refine Triple.conseq (sendResult_spec result) (fun _ hs => hs) (fun _ s hs => ?_)
    (fun _ s hs => ?_) s hs
  · refine ⟨hs.once (Nat.le_of_eq (statusLines_header ..)), fun hv _ => ⟨?_, ?_⟩, fun h => ?_⟩
    · rwa [hs.consumed]
    · exact hs.selfDelimiting hv (resultFields_delimit result)
    · rw [hs.close, hc h]
  · rcases hs with hs | hs
    · exact Ready.failed ⟨n, ⟨close, hs, hc⟩, hn⟩
    · exact .inr (.inr hs)

theorem respond_spec {close : Bool} :
    Triple (Collecting (σ := σ) r close 0 false []) (respond server r method)
      (fun _ => Done r method (MustClose r method close))
      (fun _ => Failed r method (MustClose r method close)) := by
  refine Triple.bind checkHeaders_spec fun _ => ?_
  refine Triple.bind rawBody_spec fun rawBody => ?_
  refine Triple.bind (dispatch_spec _) fun result => ?_
  exact sendResult_done result

/-! ## Handling an exception -/

theorem sendReply_spec {close : Bool} {n : Nat} (exc : Exn)
    (hn : close = false → Announces method r n) (hc : c → close = true) :
    Triple (Collecting (σ := σ) r close n false []) (sendReply server r exc)
      (fun _ => Done r method c) (fun _ s => statusLines s.wfile ≤ 1) := by
  have hjson (status : Nat) (message : Str) :
      Triple (Collecting (σ := σ) r close n false []) (sendJsonError server r status message)
        (fun _ => Done r method c) (fun _ s => statusLines s.wfile ≤ 1) := by
    refine Triple.conseq (sendJsonError_spec status message) (fun _ hs => hs) (fun _ s hs => ?_)
      fun _ _ hs => hs.once
    refine ⟨hs.once (Nat.le_of_eq (statusLines_header ..)), fun hv hclose => ⟨?_, ?_⟩, fun h => ?_⟩
    · rw [hs.consumed]
      exact hn (hs.close.symm.trans hclose)
    · exact hs.selfDelimiting hv (.inl (errorFields_delimit message))
    · rw [hs.close, hc h]
  unfold sendReply
  split
  · exact hjson _ _
  · refine Triple.ite (fun _ => hjson _ _) fun _ => ?_
    exact Triple.bind (Triple.conseq printStderr_spec (fun _ hs => hs) (fun _ _ hs => hs)
      fun _ _ hs => hs.broken.once) fun _ => hjson _ _

/-- The state when it is decided whether the connection is kept. -/
def Decided (r : HttpRequest) (method : Method) (c : Prop) (s : MotuProxyHandler σ) : Prop :=
  ∃ close n, Collecting r close n false [] s ∧ (close = false → Announces method r n) ∧
    (c → close = true)

theorem closeWriteConnection_spec :
    Triple (Failed (σ := σ) r method c) (closeWriteConnection method)
      (fun _ s => Decided r method c s ∨ Broken true s) E := by
  refine Triple.ite (fun hm => Triple.pure fun s hs => ?_) fun hm => Triple.modify fun s hs => ?_
  · rcases hs with ⟨-, close, hs, hc⟩ | ⟨hm', -⟩ | hs
    · subst hm
      exact .inl ⟨close, 0, hs, fun _ => rfl, hc⟩
    · exact absurd hm hm'
    · exact .inr hs
  · rcases hs with ⟨hm', -⟩ | ⟨-, n, close, hs⟩ | hs
    · exact absurd hm' hm
    · exact .inl ⟨true, n, ⟨hs.buffer, hs.wfile, rfl, hs.consumed, hs.started⟩,
        fun h => absurd h Bool.true_eq_false.mp, fun _ => rfl⟩
    · exact .inr ⟨hs.once, hs.started⟩

theorem canSendErrorResponse_spec :
    Triple (fun s : MotuProxyHandler σ => Decided r method c s ∨ Broken true s) canSendErrorResponse
      (fun canSend s => if canSend then Decided r method c s else Done r method c s) E := by
  refine Triple.bind (Q := fun a s => a = s ∧ (Decided r method c s ∨ Broken true s))
    (Triple.get fun _ hs => ⟨rfl, hs⟩) fun a => ?_
  refine Triple.ite (fun ha => ?_) fun ha => Triple.pure ?_
  · refine Triple.bind (Q := fun _ => Done r method c) (Triple.modify ?_) fun _ =>
      Triple.pure fun _ hs => hs
    rintro s ⟨rfl, ⟨close, n, hs, -⟩ | hs⟩
    · exact absurd (hs.started.symm.trans ha) Bool.false_ne_true
    · exact ⟨hs.once, fun _ h => absurd h Bool.true_eq_false.mp, fun _ => rfl⟩
  · rintro s ⟨rfl, hs | hs⟩
    · exact hs
    · exact absurd hs.started ha

theorem handleError_spec (exc : Exn) :
    Triple (Failed (σ := σ) r method c) (handleError server r method exc)
      (fun _ => Done r method c) (fun _ s => statusLines s.wfile ≤ 1) := by
  refine Triple.bind closeWriteConnection_spec fun _ => ?_
  refine Triple.bind canSendErrorResponse_spec fun canSend => ?_
  cases canSend with
  | false => exact Triple.pure fun _ hs => hs
  | true =>
    rintro s ⟨close, n, hs, hn, hc⟩
    exact sendReply_spec exc hn hc s hs

end

/-- Whatever happens, at most one status line is sent, and a connection that is kept stands at the
next message unless the request's version has no header. -/
theorem handleDatastoreRequest_spec {close : Bool} :
    Triple (fun s : MotuProxyHandler σ => Fresh s ∧ s.closeConnection = close)
      (handleDatastoreRequest server r method)
      (fun _ => Done r method (MustClose r method close)) (fun _ s => statusLines s.wfile ≤ 1) := by
  rintro s ⟨hs, hclose⟩
  have hstart : Collecting r close 0 false [] { s with responseStarted := false } :=
    ⟨by simp [hs.buffer, visible], hs.wfile, hclose, hs.consumed, rfl⟩
  unfold handleDatastoreRequest
  cases hx : respond server r method { s with responseStarted := false } with
  | ok u s' => exact respond_spec.ok hstart hx
  | error exc s' => exact handleError_spec exc s' (respond_spec.error hstart hx)

/-! ## A request whose version has no header -/

section
variable {s : MotuProxyHandler σ} (hv : r.requestVersion = HTTP_0_9)
include hv

theorem buffer_silent (item : Item) : buffer r item s = .ok () s := by
  change EStateM.Result.ok () (if r.requestVersion = HTTP_0_9 then s else _) = .ok () s
  rw [if_pos hv]

theorem sendHeader_silent {keyword value : Str} (h : lower keyword ≠ py "connection") :
    sendHeader r keyword value s = .ok () s := by
  have hcheck : checkEncodable r keyword value s = .ok () s := by
    rw [checkEncodable, if_pos (.inl hv)]
    rfl
  have hnote : noteConnection keyword value s = .ok () s := by
    change EStateM.Result.ok () (if lower keyword = py "connection" then _ else s) = .ok () s
    rw [if_neg h]
  exact (EStateM.bind_ok hcheck).trans ((EStateM.bind_ok (buffer_silent hv _)).trans hnote)

theorem sendHeaders_silent {fields : List (Str × Str)} (h : ∀ f ∈ fields, f.1 ∈ keywords) :
    sendHeaders r fields s = .ok () s := by
  induction fields with
  | nil => rfl
  | cons f fields ih =>
    refine (EStateM.bind_ok (sendHeader_silent hv
      (ne_connection (h f (List.mem_cons_self ..))))).trans ?_
    exact ih fun f hf => h f (List.mem_cons_of_mem _ hf)

/-- A result without a body is answered by nothing at all. -/
theorem sendResult_silent {result : DispatchResult} (hdebug : server.debug = false)
    (hclose : s.closeConnection = false) (hbody : resultBody result = []) :
    sendResult server r method result s = .ok () { s with responseStarted := true } := by
  have hlog : logRequest server s = .ok () s := by rw [logRequest, hdebug]; rfl
  have hresponse : sendResponse server r result.status s = .ok () s :=
    (EStateM.bind_ok hlog).trans ((EStateM.bind_ok (buffer_silent hv _)).trans
      ((EStateM.bind_ok (sendHeader_silent hv (by decide))).trans
        (sendHeader_silent hv (by decide))))
  have hconnection : sendConnection r { s with responseStarted := true } =
      .ok () { s with responseStarted := true } := by
    change (if s.closeConnection = true then _ else pure () : Handling σ Unit) _ = _
    rw [hclose]
    rfl
  have hend : endHeaders r { s with responseStarted := true } =
      .ok () { s with responseStarted := true } := by
    rw [endHeaders, if_pos hv]
    rfl
  refine (EStateM.bind_ok hresponse).trans ((EStateM.bind_ok rfl).trans ?_)
  refine (EStateM.bind_ok (sendHeaders_silent hv (resultHeaders_keyword result))).trans ?_
  refine (EStateM.bind_ok hconnection).trans ((EStateM.bind_ok hend).trans ?_)
  rw [hbody]
  rfl

end

/-- A server that answers every request with an empty body, and takes bodies up to `n` bytes. -/
def emptyServer (n : Nat) : MotuProxyServer Unit where
  debug := false
  maxWriteBodyBytes := n
  writeBodyReadTimeoutS := none
  versionString := py "MotuProxy/0.1"
  dateTimeString := []
  dispatcher := {
    validateWriteHeaders := none
    dispatch := fun args => pure { response := [], path := args.requestPath } }
  version_latin1 := by decide
  date_latin1 := by decide

/-- A connection to be kept, on which a body of `n` blanks has arrived. -/
def arrivedBlanks (n : Nat) : MotuProxyHandler Unit where
  closeConnection := false
  arrived := List.replicate n 0x20
  streamEnd := .eof
  backend := ()

theorem utf8DecodeStrict_blanks (n : Nat) :
    utf8DecodeStrict (List.replicate n 0x20) = some (List.replicate n 0x20) := by
  induction n with
  | zero => rfl
  | succ n ih =>
    rw [List.replicate_succ, List.replicate_succ]
    change (utf8DecodeStrict (List.replicate n 0x20)).bind _ = _
    rw [ih]
    rfl

theorem closeGet_accepted {s : MotuProxyHandler σ} (h : FramingAccepted .GET r) :
    closeGetConnectionIfBodyAnnounced r s = .ok () s := by
  obtain ⟨hencoding, hlength⟩ := h
  rw [closeGetConnectionIfBodyAnnounced, hencoding]
  cases htext : r.header (py "Content-Length") with
  | none => rfl
  | some text =>
    rw [htext] at hlength
    simp only [hlength]
    rfl

theorem announcedLength_accepted {n : Nat}
    (hencoding : ∀ encoding, orElse (r.header (py "Transfer-Encoding")) none = some encoding →
      lower encoding = py "identity")
    (hlength : contentLength (r.header (py "Content-Length")) = some (n : Int)) :
    announcedLength (emptyServer n) r = .ok n := by
  have h : announcedLength.length (emptyServer n) r = .ok n := by
    rw [announcedLength.length, hlength]
    change (if (n : Int) < 0 then _ else if (n : Int) < n then _ else Except.ok (n : Int).toNat) = _
    rw [if_neg (by omega), if_neg (Int.lt_irrefl _), Int.toNat_natCast]
  unfold announcedLength
  split
  · next encoding he => rw [if_neg (not_not_intro (hencoding encoding he)), h]
  · exact h

theorem readRawBody_accepted {n : Nat} (h : announcedLength (emptyServer n) r = .ok n) :
    readRawBody (emptyServer n) r (arrivedBlanks n) = .ok (List.replicate n 0x20)
      { arrivedBlanks n with arrived := [], consumed := n } := by
  have hread : readExactBodyBytes (emptyServer n) n (arrivedBlanks n) =
      .ok (List.replicate n 0x20) { arrivedBlanks n with arrived := [], consumed := n } := by
    have hread : read n (arrivedBlanks n) =
        .ok (List.replicate n 0x20) { arrivedBlanks n with arrived := [], consumed := n } := by
      simp [read, arrivedBlanks]
    cases n with
    | zero => rfl
    | succ n =>
      change readOrTimeOut (n + 1) _ = _
      rw [readOrTimeOut, hread]
  have hcomplete : checkComplete (List.replicate n 0x20) n
      { arrivedBlanks n with arrived := [], consumed := n } =
      .ok () { arrivedBlanks n with arrived := [], consumed := n } := by
    rw [checkComplete, if_neg (by simp)]
    rfl
  rw [readRawBody, h]
  refine (EStateM.bind_ok rfl).trans ((EStateM.bind_ok hread).trans ?_)
  refine (EStateM.bind_ok hcomplete).trans ?_
  rw [decodeBody, utf8DecodeStrict_blanks]
  rfl

/-- A request that gets no header and whose body is read leaves the connection open. -/
theorem not_inStep (hv : r.requestVersion = HTTP_0_9) (h : FramingAccepted method r) :
    ∃ n, ¬InStep (emptyServer n) r method (arrivedBlanks n) := by
  have hbefore : ∃ n text consumed arrived,
      checkHeaders (emptyServer n) r method (arrivedBlanks n) = .ok () (arrivedBlanks n) ∧
      rawBody (emptyServer n) r method (arrivedBlanks n) =
        .ok text { arrivedBlanks n with arrived, consumed } := by
    cases method with
    | GET => exact ⟨0, [], 0, [], closeGet_accepted h, rfl⟩
    | POST | PATCH =>
      obtain ⟨hencoding, n, hlength⟩ := h
      exact ⟨n, _, n, [], rfl, readRawBody_accepted (announcedLength_accepted hencoding hlength)⟩
  obtain ⟨n, text, consumed, arrived, hcheck, hbody⟩ := hbefore
  have hrespond : respond (emptyServer n) r method (arrivedBlanks n) =
      .ok () { arrivedBlanks n with arrived, consumed, responseStarted := true } :=
    (EStateM.bind_ok hcheck).trans ((EStateM.bind_ok hbody).trans ((EStateM.bind_ok rfl).trans
      (sendResult_silent hv rfl rfl rfl)))
  refine ⟨n, fun hstep => ?_⟩
  have hstart : { arrivedBlanks n with responseStarted := false } = arrivedBlanks n := rfl
  rw [InStep, handleDatastoreRequest, hstart, hrespond] at hstep
  obtain ⟨-, code, fields, chunks, hitems, -⟩ := hstep.2 rfl
  cases hitems

/-- A connection stays in step with its client whatever the server, the dispatcher, the body and
the socket do, exactly if responses to the request have a header, or the connection was not to be
kept, or the handler does not accept the framing of the request. -/
theorem keeps_in_step_iff (method : Method) (r : HttpRequest) (close : Bool) :
    KeepsInStep method r close ↔
      r.requestVersion ≠ HTTP_0_9 ∨ close = true ∨ ¬FramingAccepted method r := by
  constructor
  · intro h
    by_contra hc
    simp only [not_or, not_not, Bool.not_eq_true] at hc
    obtain ⟨hv, rfl, haccepted⟩ := hc
    obtain ⟨n, hn⟩ := not_inStep hv haccepted
    exact hn (h Unit (emptyServer n) (arrivedBlanks n) ⟨rfl, rfl, rfl⟩ rfl)
  · intro h σ server s hs hclose
    have hspec := @handleDatastoreRequest_spec σ server r method close s ⟨hs, hclose⟩
    unfold InStep
    cases hx : handleDatastoreRequest server r method s with
    | error exc s' =>
      rw [hx] at hspec
      exact hspec
    | ok u s' =>
      rw [hx] at hspec
      refine ⟨hspec.once, ?_⟩
      rcases h with hv | h
      · exact hspec.framed hv
      · exact fun hkept => absurd ((hspec.closes h).symm.trans hkept) Bool.true_eq_false.mp

/-- A server whose datastore is an empty object. -/
def objectServer : MotuProxyServer Unit :=
  { emptyServer 0 with
    dispatcher := {
      validateWriteHeaders := none
      dispatch := fun args => pure { response := [0x7B, 0x7D], path := args.requestPath } } }

/-- `GET /datastore HTTP/0.9` with `Connection: keep-alive`. -/
def keepAliveSimpleRequest : HttpRequest where
  requestVersion := HTTP_0_9
  path := py "/datastore"
  headers := [(py "Connection", py "keep-alive")]

/-- The body is sent alone on a connection that is kept. -/
theorem simple_request_not_in_step :
    ¬InStep objectServer keepAliveSimpleRequest .GET (arrivedBlanks 0) := by
  have hx : handleDatastoreRequest objectServer keepAliveSimpleRequest .GET (arrivedBlanks 0) =
      .ok () { arrivedBlanks 0 with wfile := [.data [0x7B, 0x7D]], responseStarted := true } := by
    rfl
  rw [InStep, hx]
  rintro ⟨-, hframed⟩
  obtain ⟨-, code, fields, chunks, hitems, -⟩ := hframed rfl
  cases hitems

end MotuProxy.MotuProxyHandler
