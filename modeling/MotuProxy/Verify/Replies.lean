import MotuProxy.Verify.ClientQuery
import MotuProxy.Verify.Headers
import MotuProxy.Verify.WriteGate

/-! # What a request is answered with

A request comes to a result of the dispatcher or to an exception (`Handled`), and the response is made
of that (`Replied`). The handler sends it completely, or something has failed and the connection is not
kept (`handleDatastoreRequest_answered`); if no write fails it never raises
(`handleDatastoreRequest_succeeds`).
-/

namespace MotuProxy

open Py Responses

namespace MotuProxyHandler

variable {σ : Type}

/-! ## What a request comes to -/

/-- The text of the body that comes with a request. -/
def BodyText (method : Method) (r : HttpRequest) (arrived : Bytes) (text : Str) : Prop :=
  if method = .GET then text = []
  else ∃ n : Nat, contentLength (r.header (py "Content-Length")) = some (n : Int) ∧
    n ≤ arrived.length ∧ utf8DecodeStrict (arrived.take n) = some text

/-- What is done before the dispatcher is asked raises the exception. -/
def Refuses (server : MotuProxyServer σ) (method : Method) (r : HttpRequest) (arrived : Bytes)
    (exc : Exn) : Prop :=
  ∃ s s' : MotuProxyHandler σ, s.arrived = arrived ∧
    (checkHeaders server r method >>= fun _ => rawBody server r method) s = .error exc s'

/-- What is made of a request, and of the state of the dispatcher. -/
inductive Handled (server : MotuProxyServer σ) (method : Method) (r : HttpRequest) (arrived : Bytes) :
    σ → Except Exn DispatchResult → σ → Prop
  | refused {b : σ} {exc : Exn} (h : Refuses server method r arrived exc) :
    Handled server method r arrived b (.error exc) b
  | returned {b b' : σ} {text : Str} {result : DispatchResult} (ht : BodyText method r arrived text)
      (h : server.dispatcher.dispatch (dispatchArgs r method text) b = .ok result b') :
    Handled server method r arrived b (.ok result) b'
  | raised {b b' : σ} {text : Str} {exc : Exn} (ht : BodyText method r arrived text)
      (h : server.dispatcher.dispatch (dispatchArgs r method text) b = .error exc b') :
    Handled server method r arrived b (.error exc) b'
  /-- The log raises before anything is sent. -/
  | unlogged {b b' : σ} {text : Str} {result : DispatchResult} {exc : Exn}
      (hdebug : server.debug = true) (ht : BodyText method r arrived text)
      (h : server.dispatcher.dispatch (dispatchArgs r method text) b = .ok result b') :
    Handled server method r arrived b (.error exc) b'

/-- The status and the text that an exception is answered with. -/
def replyText (server : MotuProxyServer σ) (exc : Exn) : Nat × Str :=
  match replyTo exc.kind with
  | .json status => (status, exc.message)
  | .backend status publicMessage => (status, if server.debug then exc.message else publicMessage)

def answerStatus (server : MotuProxyServer σ) : Except Exn DispatchResult → Nat
  | .ok result => result.status
  | .error exc => (replyText server exc).1

def answerFields (server : MotuProxyServer σ) (method : Method) (close : Bool) :
    Except Exn DispatchResult → List (Str × Str)
  | .ok result => resultFields server method close result
  | .error exc => errorFields server close (replyText server exc).2

def answerBody (server : MotuProxyServer σ) : Except Exn DispatchResult → Bytes
  | .ok result => resultBody result
  | .error exc => errorBody (replyText server exc).2

/-- What is sent for it. -/
def answerItems (server : MotuProxyServer σ) (method : Method) (close : Bool)
    (outcome : Except Exn DispatchResult) : List Item :=
  headerItems (answerStatus server outcome) (answerFields server method close outcome) ++ [.blank] ++
    (bodyChunks (answerBody server outcome)).map Item.data

/-- The response is sent, and nothing is left in the buffer. -/
structure Replied (server : MotuProxyServer σ) (method : Method)
    (outcome : Except Exn DispatchResult) (s : MotuProxyHandler σ) : Prop where
  buffer : s.headersBuffer = []
  wfile : s.wfile = answerItems server method s.closeConnection outcome

variable {server : MotuProxyServer σ} {r : HttpRequest} {method : Method}

/-! ## The buffer is emptied -/

section
variable (hv : r.requestVersion ≠ HTTP_0_9)
include hv

theorem endHeaders_empties :
    Triple (fun _ : MotuProxyHandler σ => True) (endHeaders r) (fun _ s => s.headersBuffer = [])
      (fun _ _ => True) := by
  refine Triple.ite (fun h => absurd h hv) fun _ => ?_
  refine Triple.bind Triple.any fun _ => Triple.bind Triple.any fun _ => ?_
  exact Triple.bind Triple.any fun _ => Triple.modify fun _ _ => rfl

theorem finishHeader_empties {k : Handling σ Unit} (fields : List (Str × Str))
    (hk : Triple (fun s : MotuProxyHandler σ => s.headersBuffer = []) k
      (fun _ s => s.headersBuffer = []) (fun _ _ => True)) :
    Triple (fun _ : MotuProxyHandler σ => True)
      (do sendHeaders r fields; sendConnection r; endHeaders r; k)
      (fun _ s => s.headersBuffer = []) (fun _ _ => True) :=
  Triple.bind Triple.any fun _ => Triple.bind Triple.any fun _ =>
    Triple.bind (endHeaders_empties hv) fun _ => hk

end

theorem writeData_empties (bytes : Bytes) :
    Triple (fun s : MotuProxyHandler σ => s.headersBuffer = []) (writeData bytes)
      (fun _ s => s.headersBuffer = []) (fun _ _ => True) := by
  intro s hs
  rcases writeData_cases bytes s with h | ⟨exc, k, h⟩
  · rw [h]
    exact hs
  · rw [h]
    trivial

/-! ## Replying -/

section
variable {close : Bool} {n : Nat}

/-- Nothing is collected when the log raises, and it is written in debug mode only. -/
theorem sendResponse_unlogged {code : Nat} :
    Triple (Collecting (σ := σ) r close n false []) (sendResponse server r code)
      (fun _ => Collecting r close n false (headerItems code (standardFields server)))
      (fun _ s => server.debug = true ∧ Collecting r close n false [] s) := by
  refine Triple.bind (Q := fun _ => Collecting r close n false []) ?_ fun _ => ?_
  · refine Triple.ite (fun hdebug => ?_) fun _ => Triple.pure fun _ hs => hs
    exact Triple.conseq printStderr_spec (fun _ hs => hs) (fun _ _ hs => hs)
      fun _ _ hs => ⟨hdebug, hs⟩
  · refine Triple.bind (buffer_spec (.status code)) fun _ => ?_
    refine Triple.bind (sendHeader_latin1 (by decide) (by decide) server.version_latin1) fun _ => ?_
    exact sendHeader_latin1 (by decide) (by decide) server.date_latin1

theorem Sent.replied {started : Bool} {s : MotuProxyHandler σ} (outcome : Except Exn DispatchResult)
    (h : Sent r close n started
      (headerItems (answerStatus server outcome) (answerFields server method close outcome) ++ [.blank])
      (bodyChunks (answerBody server outcome)) s)
    (hv : r.requestVersion ≠ HTTP_0_9) (hbuffer : s.headersBuffer = []) :
    Replied server method outcome s := by
  refine ⟨hbuffer, ?_⟩
  rw [h.wfile, visible, if_neg hv, h.close]
  rfl

theorem sendResult_replied (hv : r.requestVersion ≠ HTTP_0_9) (result : DispatchResult) :
    Triple (Collecting (σ := σ) r close n false []) (sendResult server r method result)
      (fun _ => Replied server method (.ok result))
      (fun _ s => server.debug = true ∧ Pending r s ∨ Broken true s) := by
  refine Triple.bind (Triple.conseq sendResponse_unlogged (fun _ hs => hs) (fun _ _ hs => hs)
    fun _ _ hs => .inl ⟨hs.1, n, close, hs.2⟩) fun _ => ?_
  refine Triple.bind (Triple.modify (Q := fun _ => Collecting r close n true _) fun s hs =>
    ⟨hs.buffer, hs.wfile, hs.close, hs.consumed, rfl⟩) fun _ => ?_
  have hsent : Triple (Collecting (σ := σ) r close n true
      (headerItems result.status (standardFields server)))
      (do sendHeaders r (resultHeaders method result); sendConnection r; endHeaders r
          writeBody (resultBody result)) _ _ :=
    finishHeader_spec (fun f hf => ne_connection (resultHeaders_keyword result f hf)) _
      (writeBody_spec _ (Nat.le_of_eq (statusLines_header ..)))
  have hbody : Triple (fun s : MotuProxyHandler σ => s.headersBuffer = [])
      (writeBody (resultBody result)) (fun _ s => s.headersBuffer = []) (fun _ _ => True) :=
    Triple.ite (fun _ => Triple.pure fun _ hs => hs) fun _ => writeData_empties _
  exact Triple.conseq (hsent.and (finishHeader_empties hv _ hbody)) (fun _ hs => ⟨hs, trivial⟩)
    (fun _ _ hs => hs.1.replied (.ok result) hv hs.2) fun _ _ hs => .inr hs.1

theorem sendJsonError_replied (hv : r.requestVersion ≠ HTTP_0_9) {exc : Exn} {status : Nat}
    {message : Str} (h : replyText server exc = (status, message)) :
    Triple (Pending (σ := σ) r) (sendJsonError server r status message)
      (fun _ => Replied server method (.error exc)) (fun _ _ => True) := by
  rintro s ⟨n, close, hs⟩
  have hempty : Triple (fun _ : MotuProxyHandler σ => True) (sendJsonError server r status message)
      (fun _ s => s.headersBuffer = []) (fun _ _ => True) :=
    Triple.bind Triple.any fun _ => finishHeader_empties hv _ (writeData_empties _)
  refine Triple.conseq ((sendJsonError_spec status message).and hempty) (fun _ hs => ⟨hs, trivial⟩)
    (fun _ s hs => ?_) (fun _ _ _ => trivial) s hs
  have hchunks : bodyChunks (errorBody message) = [errorBody message] :=
    if_neg (by simp [errorBody, py])
  have hsent := hs.1
  rw [← hchunks] at hsent
  exact Sent.replied (.error exc) (by simpa only [answerStatus, answerFields, answerBody, h] using hsent)
    hv hs.2

theorem printStderr_pending : Triple (Pending (σ := σ) r) printStderr (fun _ => Pending r)
    (fun _ => Pending r) := by
  rintro s ⟨n, close, hs⟩
  exact Triple.conseq printStderr_spec (fun _ hs => hs) (fun _ _ hs => ⟨n, close, hs⟩)
    (fun _ _ hs => ⟨n, close, hs⟩) s hs

theorem sendReply_replied (hv : r.requestVersion ≠ HTTP_0_9) (exc : Exn) :
    Triple (Pending (σ := σ) r) (sendReply server r exc)
      (fun _ => Replied server method (.error exc)) (fun _ _ => True) := by
  unfold sendReply
  cases hreply : replyTo exc.kind with
  | json status => exact sendJsonError_replied hv (by rw [replyText, hreply])
  | backend status publicMessage =>
    refine Triple.ite (fun hdebug => ?_) fun hdebug => ?_
    · exact sendJsonError_replied hv (by simp only [replyText, hreply, if_pos hdebug])
    · refine Triple.bind (Triple.conseq printStderr_pending (fun _ hs => hs) (fun _ _ hs => hs)
        fun _ _ _ => trivial) fun _ => ?_
      exact sendJsonError_replied hv (by simp only [replyText, hreply, if_neg hdebug])

end

/-! ## Deciding about the connection -/

theorem closeWriteConnection_pending :
    Triple (Pending (σ := σ) r) (closeWriteConnection method) (fun _ => Pending r) E := by
  refine Triple.ite (fun _ => Triple.pure fun _ hs => hs) fun _ => Triple.modify ?_
  rintro s ⟨n, close, hs⟩
  exact ⟨n, true, hs.buffer, hs.wfile, rfl, hs.consumed, hs.started⟩

/-- An exception before the response is begun is answered. -/
theorem handleError_replied (hv : r.requestVersion ≠ HTTP_0_9) (exc : Exn) :
    Triple (Pending (σ := σ) r) (handleError server r method exc)
      (fun _ => Replied server method (.error exc)) (fun _ _ => True) := by
  refine Triple.bind closeWriteConnection_pending fun _ => ?_
  refine Triple.bind (Q := fun canSend s => canSend = true ∧ Pending r s) ?_ fun canSend => ?_
  · refine Triple.bind (Q := fun a s => a = s ∧ Pending r s) (Triple.get fun _ hs => ⟨rfl, hs⟩)
      fun a => Triple.ite (fun ha => ?_) fun _ => Triple.pure fun _ hs => ⟨rfl, hs.2⟩
    rintro s ⟨rfl, n, close, hs⟩
    exact absurd (hs.started.symm.trans ha) Bool.false_ne_true
  · rintro s ⟨rfl, hs⟩
    exact sendReply_replied hv exc s hs

/-- After an exception in the middle of a response the connection is closed. -/
theorem handleError_closes (exc : Exn) :
    Triple (Broken (σ := σ) true) (handleError server r method exc)
      (fun _ s => s.closeConnection = true) (fun _ _ => True) := by
  refine Triple.bind (Q := fun _ => Broken true) (Triple.ite (fun _ => Triple.pure fun _ hs => hs)
    fun _ => Triple.modify fun _ hs => ⟨hs.once, hs.started⟩) fun _ => ?_
  refine Triple.bind (Q := fun canSend s => canSend = false ∧ s.closeConnection = true) ?_
    fun canSend => ?_
  · refine Triple.bind (Q := fun a s => a = s ∧ Broken true s) (Triple.get fun _ hs => ⟨rfl, hs⟩)
      fun a => Triple.ite (fun _ => ?_) fun ha => ?_
    · exact Triple.bind (Q := fun _ s => s.closeConnection = true) (Triple.modify fun _ _ => rfl)
        fun _ => Triple.pure fun _ hs => ⟨rfl, hs⟩
    · rintro s ⟨rfl, hs⟩
      exact absurd hs.started ha
  · rintro s ⟨rfl, hs⟩
    exact hs

/-! ## What the server promises -/

/-- The result of the dispatcher can be sent; an `ETag` may be that of the request. -/
structure PresentableResult (args : DispatchArgs) (result : DispatchResult) : Prop where
  status : result.status = 200 ∨ result.status = 304
  contentType : ∀ t, result.contentType = some t → HeaderValue t
  etag : args.method = .GET → ∀ e, result.etag = some e →
    HeaderValue e ∨ Coordinator.cleanEtag args.ifNoneMatch = some e

structure Presentable (server : MotuProxyServer σ) : Prop where
  version : HeaderValue server.versionString
  date : HeaderValue server.dateTimeString
  results : ∀ args b result b', server.dispatcher.dispatch args b = .ok result b' →
    PresentableResult args result

/-- The request gets a header, and a header of its own can be sent back. -/
structure Plain (r : HttpRequest) : Prop where
  version : r.requestVersion ≠ HTTP_0_9
  line : ∀ e, r.header (py "If-None-Match") = some e → ∀ c ∈ e, c ≠ 0x0D ∧ c ≠ 0x0A ∧ c < 256

/-- The keywords of all fields that are sent. -/
def sentKeywords : List Str := [py "Server", py "Date"] ++ keywords ++ [py "Connection"]

theorem headerValue_strNat (n : Nat) : HeaderValue (strNat n) := by
  have hdigit {c : Nat} (h : c ∈ strNat n) : 0x30 ≤ c ∧ c ≤ 0x39 := by
    simpa [isAsciiDigit] using strNat_digits h
  refine ⟨strNat_ne_nil, strip_eq_self fun c hc => ?_, fun c hc => ?_⟩
  · have hspace : ∀ c ≤ 0x39, 0x30 ≤ c → isSpace c = false := by decide
    exact hspace c (hdigit hc).2 (hdigit hc).1
  · have := hdigit hc
    omega

/-- What makes a text the value of a header can be evaluated. -/
theorem headerValue_of {s : Str}
    (h : s ≠ [] ∧ strip s = s ∧ ∀ c ∈ s, c ≠ 0x0D ∧ c ≠ 0x0A ∧ c < 256) : HeaderValue s :=
  ⟨h.1, h.2.1, h.2.2⟩

theorem headerValue_texts : ∀ s ∈ [py "application/json", py "application/octet-stream",
    py "no-cache", py "close"], HeaderValue s := by
  intro s hs
  apply headerValue_of
  revert s
  decide

/-- A field whose keyword the handler sends and whose value is one line. -/
def Sendable (f : Str × Str) : Prop := f.1 ∈ sentKeywords ∧ HeaderValue f.2

theorem sendable {keyword value : Str} (hk : keyword ∈ sentKeywords)
    (hv : HeaderValue value) : Sendable (keyword, value) := ⟨hk, hv⟩

theorem sendable_standardFields (hp : Presentable server) : ∀ f ∈ standardFields server, Sendable f := by
  rw [standardFields, List.forall_mem_cons, List.forall_mem_singleton]
  exact ⟨sendable (by decide) hp.version, sendable (by decide) hp.date⟩

theorem sendable_connectionFields (close : Bool) : ∀ f ∈ connectionFields close, Sendable f := by
  cases close with
  | false => exact fun f hf => (by cases hf)
  | true =>
    intro f hf
    cases List.mem_singleton.mp hf
    exact ⟨by decide, headerValue_texts _ (by decide)⟩

theorem sendable_contentLength (body : Bytes) : Sendable (py "Content-Length", strNat body.length) :=
  sendable (by decide) (headerValue_strNat _)

theorem sendable_resultHeaders {text : Str} {result : DispatchResult}
    (hr : PresentableResult (dispatchArgs r method text) result) (hline : Plain r) :
    ∀ f ∈ resultHeaders method result, Sendable f := by
  intro f hf
  simp only [resultHeaders, List.mem_append, List.mem_singleton] at hf
  rcases hf with ((hf | rfl) | hf) | hf
  · split at hf
    · rw [List.mem_singleton.mp hf]
      refine sendable (by decide) ?_
      cases ht : result.contentType with
      | none =>
        rcases ReadStack.datastoreBodyContentType_cases (resultBody result) with h | h
        · exact h ▸ headerValue_texts _ (by decide)
        · exact h ▸ headerValue_texts _ (by decide)
      | some t =>
        have hvalue := hr.contentType t ht
        have horElse : orElse (some t) none = some t := by
          cases t with
          | nil => exact absurd rfl hvalue.nonempty
          | cons c t => rfl
        rwa [horElse]
    · cases hf
  · exact ⟨by decide, headerValue_texts _ (by decide)⟩
  · refine ⟨by rw [mem_etagFields hf]; decide, ?_⟩
    unfold etagFields at hf
    split at hf
    · next e he =>
      split at hf
      · next hm =>
        rw [List.mem_singleton.mp hf]
        rcases hr.etag hm e he with hvalue | hclean
        · exact hvalue
        · obtain ⟨hstrip, hne⟩ := ReadStack.cleanEtag_eq_some.mp hclean
          obtain ⟨e', he', hs⟩ := Option.map_eq_some_iff.mp hstrip
          exact headerValue_strip hs hne (hline.line e' ((if_pos hm).symm.trans he'))
      · cases hf
    · cases hf
  · split at hf
    · rw [List.mem_singleton.mp hf]
      exact sendable_contentLength _
    · cases hf

theorem sendable_errorHeaders (body : Bytes) : ∀ f ∈ errorHeaders body, Sendable f := by
  rw [errorHeaders, List.forall_mem_cons, List.forall_mem_singleton]
  exact ⟨sendable (by decide) (headerValue_texts _ (by decide)), sendable_contentLength body⟩

theorem sendable_answerFields {arrived : Bytes} {b b' : σ} {outcome : Except Exn DispatchResult}
    (hp : Presentable server) (hline : Plain r) (h : Handled server method r arrived b outcome b')
    (close : Bool) : ∀ f ∈ answerFields server method close outcome, Sendable f := by
  have herror (message : Str) : ∀ f ∈ errorFields server close message, Sendable f := by
    intro f hf
    rw [errorFields, List.mem_append, List.mem_append] at hf
    rcases hf with (hf | hf) | hf
    · exact sendable_standardFields hp f hf
    · exact sendable_errorHeaders _ f hf
    · exact sendable_connectionFields close f hf
  cases h with
  | refused h => exact herror _
  | raised ht h => exact herror _
  | unlogged hdebug ht h => exact herror _
  | returned ht h =>
    intro f hf
    rw [answerFields, resultFields, List.mem_append, List.mem_append] at hf
    rcases hf with (hf | hf) | hf
    · exact sendable_standardFields hp f hf
    · exact sendable_resultHeaders (hp.results _ _ _ _ h) hline f hf
    · exact sendable_connectionFields close f hf

theorem replyText_status (exc : Exn) : 400 ≤ (replyText server exc).1 := by
  unfold replyText
  generalize exc.kind = kind
  cases kind
  all_goals exact Nat.le_of_ble_eq_true rfl

/-- A final status; the body is as long as the fields say, or there is none. -/
theorem answer_delimited {arrived : Bytes} {b b' : σ} {outcome : Except Exn DispatchResult}
    (hp : Presentable server) (h : Handled server method r arrived b outcome b') (close : Bool) :
    200 ≤ answerStatus server outcome ∧ answerStatus server outcome ≠ 204 ∧
      (answerStatus server outcome = 304 ∧ answerBody server outcome = [] ∨
        answerStatus server outcome ≠ 304 ∧ contentLengths (answerFields server method close outcome) =
          [strNat (answerBody server outcome).length]) := by
  have herror (exc : Exn) : 200 ≤ answerStatus server (.error exc) ∧
      answerStatus server (.error exc) ≠ 204 ∧ answerStatus server (.error exc) ≠ 304 := by
    have hstatus : 400 ≤ (replyText server exc).1 := replyText_status exc
    rw [answerStatus]
    omega
  cases outcome with
  | error exc =>
    refine ⟨(herror exc).1, (herror exc).2.1, .inr ⟨(herror exc).2.2, ?_⟩⟩
    rw [answerFields, answerBody, errorFields_delimit]
    simp
  | ok result =>
    cases h with
    | returned ht h =>
      obtain hstatus | hstatus := (hp.results _ _ _ _ h).status
      · refine ⟨?_, ?_, .inr ⟨?_, ?_⟩⟩
        · rw [answerStatus, hstatus]
        · rw [answerStatus, hstatus]; decide
        · rw [answerStatus, hstatus]; decide
        · have hne : result.status ≠ 304 := by rw [hstatus]; decide
          rcases @resultFields_delimit σ server method close result with hlength | ⟨h304, -⟩
          · rw [answerFields, answerBody, hlength, flatten_bodyChunks]
          · exact absurd h304 hne
      · refine ⟨?_, ?_, .inl ⟨hstatus, if_pos hstatus⟩⟩
        · rw [answerStatus, hstatus]; decide
        · rw [answerStatus, hstatus]; decide

/-! ## Without failures -/

/-- Every write succeeds, and so does every line of the log. -/
structure Reliable (s : MotuProxyHandler σ) : Prop where
  sends : s.sends = []
  stderr : s.stderr = []

/-- `x` raises only under the condition. -/
def Succeeds (c : Prop) (x : Handling σ α) : Prop :=
  Triple Reliable x (fun _ => Reliable) (fun _ s => c ∧ Reliable s)

namespace Succeeds

variable {c : Prop}

theorem pure (a : α) : Succeeds c (pure a : Handling σ α) := Triple.pure fun _ hs => hs

theorem throw (hc : c) (exc : Exn) : Succeeds c (throw exc : Handling σ α) :=
  Triple.throw fun _ hs => ⟨hc, hs⟩

theorem get : Succeeds c (get : Handling σ (MotuProxyHandler σ)) := Triple.get fun _ hs => hs

theorem modify {f : MotuProxyHandler σ → MotuProxyHandler σ}
    (h : ∀ s, (f s).sends = s.sends ∧ (f s).stderr = s.stderr) : Succeeds c (modify f) :=
  Triple.modify fun s hs => ⟨(h s).1.trans hs.sends, (h s).2.trans hs.stderr⟩

theorem bind {x : Handling σ α} {f : α → Handling σ β} (hx : Succeeds c x)
    (hf : ∀ a, Succeeds c (f a)) : Succeeds c (x >>= f) := Triple.bind hx hf

theorem ite {p : Prop} [Decidable p] {x y : Handling σ α} (hx : p → Succeeds c x)
    (hy : ¬p → Succeeds c y) : Succeeds c (if p then x else y) := Triple.ite hx hy

theorem liftExcept (hc : c) (x : Except Exn α) : Succeeds c (liftExcept (σ := σ) x) := by
  cases x with
  | ok a => exact pure a
  | error exc => exact throw hc exc

end Succeeds

section
variable {c : Prop}

theorem succeeds_setCloseConnection : Succeeds (σ := σ) c setCloseConnection :=
  Succeeds.modify fun _ => ⟨rfl, rfl⟩

theorem succeeds_printStderr : Succeeds (σ := σ) c printStderr := by
  intro s hs
  rw [printStderr, hs.stderr]
  exact ⟨hs.sends, rfl⟩

theorem succeeds_writeItems (items : List Item) : Succeeds (σ := σ) c (writeItems items) := by
  intro s hs
  rw [writeItems, hs.sends]
  exact ⟨rfl, hs.stderr⟩

theorem succeeds_writeData (bytes : Bytes) : Succeeds (σ := σ) c (writeData bytes) := by
  intro s hs
  rw [writeData, hs.sends]
  exact ⟨rfl, hs.stderr⟩

theorem succeeds_buffer (item : Item) : Succeeds (σ := σ) c (buffer r item) :=
  Succeeds.modify fun s => by split <;> exact ⟨rfl, rfl⟩

theorem succeeds_sendHeader {keyword value : Str} (hk : isLatin1 keyword) (hv : isLatin1 value) :
    Succeeds (σ := σ) c (sendHeader r keyword value) := by
  refine Succeeds.bind (Succeeds.ite (fun _ => Succeeds.pure _)
    fun h => absurd (.inr ⟨hk, hv⟩) h) fun _ => ?_
  refine Succeeds.bind (succeeds_buffer _) fun _ => Succeeds.modify fun s => ?_
  split
  · split
    · exact ⟨rfl, rfl⟩
    · split <;> exact ⟨rfl, rfl⟩
  · exact ⟨rfl, rfl⟩

theorem Sendable.latin1 {f : Str × Str} (h : Sendable f) : isLatin1 f.1 ∧ isLatin1 f.2 := by
  refine ⟨?_, List.all_eq_true.mpr fun c hc => decide_eq_true (h.2.line c hc).2.2⟩
  have hkeyword : ∀ k ∈ sentKeywords, isLatin1 k := by decide
  exact hkeyword _ h.1

theorem succeeds_sendHeaders {fields : List (Str × Str)} (h : ∀ f ∈ fields, Sendable f) :
    Succeeds (σ := σ) c (sendHeaders r fields) := by
  induction fields with
  | nil => exact Succeeds.pure _
  | cons f fields ih =>
    rw [List.forall_mem_cons] at h
    exact Succeeds.bind (succeeds_sendHeader h.1.latin1.1 h.1.latin1.2) fun _ => ih h.2

theorem succeeds_sendResponse (code : Nat) : Succeeds c (sendResponse server r code) := by
  refine Succeeds.bind (Succeeds.ite (fun _ => succeeds_printStderr) fun _ => Succeeds.pure _)
    fun _ => Succeeds.bind (succeeds_buffer _) fun _ => ?_
  exact Succeeds.bind (succeeds_sendHeader (by decide) server.version_latin1) fun _ =>
    succeeds_sendHeader (by decide) server.date_latin1

theorem succeeds_endHeaders : Succeeds (σ := σ) c (endHeaders r) := by
  refine Succeeds.ite (fun _ => Succeeds.pure _) fun _ => Succeeds.bind (succeeds_buffer _) fun _ => ?_
  exact Succeeds.bind Succeeds.get fun _ => Succeeds.bind (succeeds_writeItems _) fun _ =>
    Succeeds.modify fun _ => ⟨rfl, rfl⟩

/-- From the fields to the body. -/
theorem succeeds_finishHeader {fields : List (Str × Str)} (h : ∀ f ∈ fields, Sendable f)
    {k : Handling σ Unit} (hk : Succeeds c k) :
    Succeeds c (do sendHeaders r fields; sendConnection r; endHeaders r; k) := by
  refine Succeeds.bind (succeeds_sendHeaders h) fun _ => Succeeds.bind ?_ fun _ =>
    Succeeds.bind succeeds_endHeaders fun _ => hk
  exact Succeeds.bind Succeeds.get fun _ => Succeeds.ite
    (fun _ => succeeds_sendHeader (by decide) (by decide)) fun _ => Succeeds.pure _

theorem succeeds_sendResult {text : Str} {result : DispatchResult}
    (hr : PresentableResult (dispatchArgs r method text) result) (hline : Plain r) :
    Succeeds c (sendResult server r method result) := by
  refine Succeeds.bind (succeeds_sendResponse _) fun _ => ?_
  refine Succeeds.bind (Succeeds.modify fun _ => ⟨rfl, rfl⟩) fun _ => ?_
  exact succeeds_finishHeader (sendable_resultHeaders hr hline)
    (Succeeds.ite (fun _ => Succeeds.pure _) fun _ => succeeds_writeData _)

theorem succeeds_handleError (exc : Exn) : Succeeds c (handleError server r method exc) := by
  have hjson (status : Nat) (message : Str) : Succeeds c (sendJsonError server r status message) :=
    Succeeds.bind (succeeds_sendResponse _) fun _ =>
      succeeds_finishHeader (sendable_errorHeaders _) (succeeds_writeData _)
  refine Succeeds.bind (Succeeds.ite (fun _ => Succeeds.pure _)
    fun _ => succeeds_setCloseConnection) fun _ => ?_
  refine Succeeds.bind (Succeeds.bind Succeeds.get fun _ => Succeeds.ite
    (fun _ => Succeeds.bind succeeds_setCloseConnection fun _ => Succeeds.pure _)
    fun _ => Succeeds.pure _) fun _ => ?_
  refine Succeeds.ite (fun _ => ?_) fun _ => Succeeds.pure _
  unfold sendReply
  split
  · exact hjson _ _
  · exact Succeeds.ite (fun _ => hjson _ _) fun _ =>
      Succeeds.bind succeeds_printStderr fun _ => hjson _ _

end

/-! What comes before the response may raise. -/

theorem succeeds_checkHeaders : Succeeds True (checkHeaders server r method) := by
  have hraise : Succeeds (σ := σ) True
      (do setCloseConnection; throw invalidContentLength : Handling σ Unit) :=
    Succeeds.bind succeeds_setCloseConnection fun _ => Succeeds.throw trivial _
  refine Succeeds.ite (fun _ => Succeeds.ite (fun _ => succeeds_setCloseConnection) fun _ => ?_)
    fun _ => ?_
  · split
    · exact Succeeds.pure _
    · split
      · exact hraise
      · exact Succeeds.ite (fun _ => hraise) fun _ => Succeeds.ite
          (fun _ => succeeds_setCloseConnection) fun _ => Succeeds.pure _
  · split
    · exact Succeeds.pure _
    · exact Succeeds.liftExcept trivial _

theorem succeeds_settimeout (timeout : Option ℚ) : Succeeds (σ := σ) True (settimeout timeout) := by
  intro s hs
  unfold settimeout
  rcases s.settimeouts with _ | ⟨_ | exc, rest⟩
  · exact ⟨hs.sends, hs.stderr⟩
  · exact ⟨hs.sends, hs.stderr⟩
  · exact ⟨trivial, hs.sends, hs.stderr⟩

theorem succeeds_readOrTimeOut (length : Nat) : Succeeds (σ := σ) True (readOrTimeOut length) := by
  intro s hs
  unfold readOrTimeOut
  rcases read_cases length s with h | ⟨exc, h⟩
  · rw [h]
    exact ⟨hs.sends, hs.stderr⟩
  · rw [h]
    dsimp only
    by_cases hexc : exc.kind = .timeoutError
    · rw [if_pos hexc]
      exact ⟨trivial, hs.sends, hs.stderr⟩
    · rw [if_neg hexc]
      exact ⟨trivial, hs.sends, hs.stderr⟩

theorem succeeds_rawBody : Succeeds True (rawBody server r method) := by
  refine Succeeds.ite (fun _ => Succeeds.pure _) fun _ => ?_
  refine Succeeds.bind (Succeeds.liftExcept trivial _) fun length => ?_
  refine Succeeds.bind (Succeeds.ite (fun _ => Succeeds.pure _) fun _ => ?_) fun raw =>
    Succeeds.bind ?_ fun _ => Succeeds.liftExcept trivial _
  · split
    · exact succeeds_readOrTimeOut length
    · refine Succeeds.bind Succeeds.get fun _ => Succeeds.bind (succeeds_settimeout _) fun _ => ?_
      have hagain (timeout : Option ℚ) :
          Triple (fun s : MotuProxyHandler σ => True ∧ Reliable s) (settimeout timeout)
          (fun _ s => True ∧ Reliable s) (fun _ s => True ∧ Reliable s) :=
        Triple.conseq (succeeds_settimeout _) (fun _ hs => hs.2) (fun _ _ hs => ⟨trivial, hs⟩)
          fun _ _ hs => hs
      exact finallyDo_spec (succeeds_readOrTimeOut length) (fun _ => succeeds_settimeout _) (hagain _)
  · exact Succeeds.ite (fun _ => Succeeds.bind succeeds_setCloseConnection fun _ =>
      Succeeds.throw trivial _) fun _ => Succeeds.pure _

theorem succeeds_dispatch (hp : Presentable server) (args : DispatchArgs) :
    Triple Reliable (dispatch server args) (fun result s => Reliable s ∧ PresentableResult args result)
      (fun _ s => True ∧ Reliable s) := by
  intro s hs
  unfold dispatch
  cases hx : server.dispatcher.dispatch args s.backend with
  | ok result b' => exact ⟨⟨hs.sends, hs.stderr⟩, hp.results _ _ _ _ hx⟩
  | error exc b' => exact ⟨trivial, hs.sends, hs.stderr⟩

theorem succeeds_respond (hp : Presentable server) (hline : Plain r) :
    Succeeds True (respond server r method) := by
  refine Succeeds.bind succeeds_checkHeaders fun _ => Succeeds.bind succeeds_rawBody fun text => ?_
  exact Triple.bind (succeeds_dispatch hp _) fun result =>
    Triple.assume fun hr => succeeds_sendResult hr hline

/-- Without failures the handler returns from every request. -/
theorem handleDatastoreRequest_succeeds (hp : Presentable server) (hline : Plain r) :
    Succeeds False (handleDatastoreRequest server r method) := by
  intro s hs
  have hstart : Reliable { s with responseStarted := false } := ⟨hs.sends, hs.stderr⟩
  unfold handleDatastoreRequest
  cases hx : respond server r method { s with responseStarted := false } with
  | ok u s₁ => exact (succeeds_respond hp hline).ok hstart hx
  | error exc s₁ =>
    exact succeeds_handleError exc s₁ ((succeeds_respond hp hline).error hstart hx).2

/-! ## A request -/

section
variable {close : Bool} {s s' : MotuProxyHandler σ}

theorem checkHeaders_pending :
    Triple (Collecting (σ := σ) r close 0 false []) (checkHeaders server r method)
      (fun _ s => ∃ close', Collecting r close' 0 false [] s) (fun _ => Pending r) := by
  refine Triple.ite (fun _ => ?_) fun _ => ?_
  · refine Triple.conseq closeGetConnectionIfBodyAnnounced_spec (fun _ hs => hs) ?_ ?_
    · rintro _ s ⟨close', hs, -⟩
      exact ⟨close', hs⟩
    · rintro _ s ⟨close', hs, -⟩
      exact ⟨0, close', hs⟩
  · split
    · exact Triple.pure fun _ hs => ⟨close, hs⟩
    · exact Triple.conseq (liftExcept_spec _) (fun _ hs => hs) (fun _ _ hs => ⟨close, hs.1⟩)
        fun _ _ hs => ⟨0, close, hs⟩

theorem rawBody_pending :
    Triple (fun s : MotuProxyHandler σ => ∃ close, Collecting r close 0 false [] s)
      (rawBody server r method) (fun _ => Pending r) (fun _ => Pending r) := by
  rintro s ⟨close, hs⟩
  refine Triple.ite (fun _ => Triple.pure fun _ hs => ⟨0, close, hs⟩) (fun _ => ?_) s hs
  refine Triple.conseq readRawBody_spec (fun _ hs => hs) ?_ fun _ _ hs => hs
  rintro _ s ⟨n, hs, -⟩
  exact ⟨n, close, hs⟩

theorem Pending.backend (h : Pending r s) (b : σ) : Pending r { s with backend := b } := by
  obtain ⟨n, close, hs⟩ := h
  exact ⟨n, close, hs.buffer, hs.wfile, hs.close, hs.consumed, hs.started⟩

theorem bodyText_of_read {s₁ s₂ : MotuProxyHandler σ}
    (h₁ : checkHeaders server r method s = .ok u s₁)
    (h₂ : rawBody server r method s₁ = .ok text s₂) : BodyText method r s.arrived text := by
  by_cases hm : method = .GET
  · rw [rawBody, if_pos hm] at h₂
    cases h₂
    rw [BodyText, if_pos hm]
  · have hs : s₁ = s := by
      rw [checkHeaders, if_neg hm] at h₁
      cases hvalidator : server.dispatcher.validateWriteHeaders with
      | none => rw [hvalidator] at h₁; cases h₁; rfl
      | some validator =>
        rw [hvalidator] at h₁
        dsimp only at h₁
        cases hx : validator method (r.header (py "Origin")) (r.header (py "Host"))
            (readWriteToken r) with
        | ok u => rw [hx] at h₁; cases h₁; rfl
        | error exc => rw [hx] at h₁; cases h₁
    subst hs
    rw [rawBody, if_neg hm] at h₂
    obtain ⟨n, hlength, -, harrived, hdecode⟩ := (readRawBody_iff.mp ⟨s₂, h₂⟩).read
    rw [BodyText, if_neg hm]
    refine ⟨n, hlength, ?_, hdecode⟩
    rcases harrived with rfl | ⟨hle, -⟩
    · exact Nat.zero_le _
    · exact hle

theorem dispatch_eq_ok {args : DispatchArgs} (h : dispatch server args s = .ok result s') :
    ∃ b', server.dispatcher.dispatch args s.backend = .ok result b' ∧ s' = { s with backend := b' } := by
  unfold dispatch at h
  cases hx : server.dispatcher.dispatch args s.backend with
  | ok result' b' => rw [hx] at h; cases h; exact ⟨b', rfl, rfl⟩
  | error exc b' => rw [hx] at h; cases h

theorem dispatch_eq_error {args : DispatchArgs} (h : dispatch server args s = .error exc s') :
    ∃ b', server.dispatcher.dispatch args s.backend = .error exc b' ∧ s' = { s with backend := b' } := by
  unfold dispatch at h
  cases hx : server.dispatcher.dispatch args s.backend with
  | ok result b' => rw [hx] at h; cases h
  | error exc' b' => rw [hx] at h; cases h; exact ⟨b', rfl, rfl⟩

/-- The request is answered with what it has come to, or something has failed and the connection is
not kept. -/
def Answered (server : MotuProxyServer σ) (method : Method) (r : HttpRequest)
    (s s' : MotuProxyHandler σ) : Prop :=
  ∃ outcome, Handled server method r s.arrived s.backend outcome s'.backend ∧
    (Replied server method outcome s' ∨ s'.closeConnection = true ∧ ¬Reliable s)

theorem respond_ok (hline : Plain r) (hs : Collecting r close 0 false [] s)
    (h : respond server r method s = .ok u s') : Answered server method r s s' := by
  obtain ⟨u, s₁, h₁, h⟩ := EStateM.bind_eq_ok h
  obtain ⟨text, s₂, h₂, h⟩ := EStateM.bind_eq_ok h
  obtain ⟨result, s₃, h₃, h⟩ := EStateM.bind_eq_ok h
  have hs₂ := rawBody_pending.ok (checkHeaders_pending.ok hs h₁) h₂
  obtain ⟨b', hb, rfl⟩ := dispatch_eq_ok h₃
  obtain ⟨n, close', hs₃⟩ := hs₂.backend b'
  rw [keeps_rawBody.ok h₂, keeps_checkHeaders.ok h₁] at hb
  refine ⟨.ok result, ?_, .inl ((sendResult_replied hline.version result).ok hs₃ h)⟩
  rw [(keeps_sendResult result).ok h]
  exact .returned (bodyText_of_read h₁ h₂) hb

/-- The request has come to the exception and nothing is sent yet, or sending the result has failed. -/
theorem respond_error (hp : Presentable server) (hline : Plain r)
    (hs : Collecting r close 0 false [] s) (h : respond server r method s = .error exc s') :
    ∃ outcome, Handled server method r s.arrived s.backend outcome s'.backend ∧
      (outcome = .error exc ∧ Pending r s' ∨ Broken true s' ∧ ¬Reliable s) := by
  rcases EStateM.bind_eq_error h with h₁ | ⟨u, s₁, h₁, h⟩
  · refine ⟨_, ?_, .inl ⟨rfl, checkHeaders_pending.error hs h₁⟩⟩
    rw [keeps_checkHeaders.error h₁]
    exact .refused ⟨s, s', rfl, EStateM.bind_error h₁⟩
  have hs₁ := checkHeaders_pending.ok hs h₁
  rcases EStateM.bind_eq_error h with h₂ | ⟨text, s₂, h₂, h⟩
  · refine ⟨_, ?_, .inl ⟨rfl, rawBody_pending.error hs₁ h₂⟩⟩
    rw [keeps_rawBody.error h₂, keeps_checkHeaders.ok h₁]
    exact .refused ⟨s, s', rfl, (EStateM.bind_ok h₁).trans h₂⟩
  have hs₂ := rawBody_pending.ok hs₁ h₂
  have htext := bodyText_of_read h₁ h₂
  have hbackend := (keeps_rawBody.ok h₂).trans (keeps_checkHeaders.ok h₁)
  rcases EStateM.bind_eq_error h with h₃ | ⟨result, s₃, h₃, h⟩
  · obtain ⟨b', hb, rfl⟩ := dispatch_eq_error h₃
    rw [hbackend] at hb
    exact ⟨_, .raised htext hb, .inl ⟨rfl, hs₂.backend b'⟩⟩
  have hreliable (hs : Reliable s) : Reliable s₃ := ((succeeds_dispatch hp _).ok
    (succeeds_rawBody.ok (succeeds_checkHeaders.ok hs h₁) h₂) h₃).1
  obtain ⟨b', hb, rfl⟩ := dispatch_eq_ok h₃
  rw [hbackend] at hb
  rw [(keeps_sendResult result).error h]
  obtain ⟨n, close', hs₃⟩ := hs₂.backend b'
  rcases (sendResult_replied hline.version result).error hs₃ h with ⟨hdebug, hpending⟩ | hbroken
  · exact ⟨_, .unlogged hdebug htext hb, .inl ⟨rfl, hpending⟩⟩
  · refine ⟨_, .returned htext hb, .inr ⟨hbroken, fun hs => ?_⟩⟩
    exact ((succeeds_sendResult (c := False) (hp.results _ _ _ _ hb) hline).error (hreliable hs) h).1

/-- A request that the handler returns from is answered. -/
theorem handleDatastoreRequest_answered (hp : Presentable server) (hline : Plain r) (hs : Fresh s)
    (h : handleDatastoreRequest server r method s = .ok u s') : Answered server method r s s' := by
  have hstart : Collecting r s.closeConnection 0 false [] { s with responseStarted := false } :=
    ⟨by simp [hs.buffer, visible], hs.wfile, rfl, hs.consumed, rfl⟩
  unfold handleDatastoreRequest at h
  cases hx : respond server r method { s with responseStarted := false } with
  | ok u s₁ =>
    rw [hx] at h
    cases h
    obtain ⟨outcome, hmade, hs'⟩ := respond_ok hline hstart hx
    exact ⟨outcome, hmade, hs'.imp_right fun hs' => ⟨hs'.1, fun hs => hs'.2 ⟨hs.sends, hs.stderr⟩⟩⟩
  | error exc s₁ =>
    rw [hx] at h
    obtain ⟨outcome, hmade, hs₁⟩ := respond_error hp hline hstart hx
    refine ⟨outcome, ?_, ?_⟩
    · rwa [(keeps_handleError exc).ok h]
    · rcases hs₁ with ⟨rfl, hpending⟩ | ⟨hbroken, hfailed⟩
      · exact .inl ((handleError_replied hline.version exc).ok hpending h)
      · exact .inr ⟨(handleError_closes exc).ok hbroken h, fun hs => hfailed ⟨hs.sends, hs.stderr⟩⟩

end

end MotuProxyHandler

end MotuProxy
