import MotuProxy.Lib.HttpMessage
import MotuProxy.Lib.Run
import MotuProxy.Model.Connection
import MotuProxy.Verify.Replies

/-! # What a client reads on a connection

While the connection is kept, the bytes sent on it are read as one response for each request, in the
order of the requests, and nothing is left over (`connection_in_step`). The responses are those of a
sequential server (`Served`): for each request in turn the dispatcher is asked at most once, with the
body that has come with it, and what it returns or raises is what the response says.
-/

namespace MotuProxy

open Py Responses

/-! ## The bytes of a response -/

namespace Connection

open MotuProxyHandler

def encodeField (f : Str × Str) : Bytes × Bytes := (latin1 f.1, latin1 f.2)

/-- The response as a client finds it. -/
def response (code : Nat) (fields : List (Str × Str)) (body : Bytes) : Http.Response :=
  ⟨code, fields.map encodeField, body⟩

theorem latin1_append (s t : Str) : latin1 (s ++ t) = latin1 s ++ latin1 t := List.map_append

theorem latin1_strNat (n : Nat) : latin1 (strNat n) = Http.decimal n := by
  rw [latin1, strNat, List.map_map]
  rfl

theorem latin1_crlf : latin1 (py "\r\n") = Http.crlf := by decide

theorem itemBytes_status (code : Nat) :
    itemBytes (.status code) = Http.statusLine code (latin1 (phrase code)) ++ Http.crlf := by
  have hversion : latin1 PROTOCOL_VERSION ++ [0x20] = Http.version := by decide
  have hblank : latin1 (py " ") = [0x20] := by decide
  simp only [itemBytes, latin1_append, latin1_strNat, latin1_crlf, hversion, hblank, Http.statusLine]

theorem itemBytes_header (f : Str × Str) :
    itemBytes (fieldItem f) = Http.fieldBytes (encodeField f) ++ Http.crlf := by
  have hcolon : latin1 (py ": ") = [0x3A, 0x20] := by decide
  simp only [fieldItem, itemBytes, latin1_append, latin1_crlf, hcolon, Http.fieldBytes, encodeField]

theorem fieldLines_eq (fields : List (Str × Str)) :
    (fields.map fieldItem).flatMap itemBytes = Http.fieldLines (fields.map encodeField) := by
  simp only [Http.fieldLines, List.flatMap_map, itemBytes_header]

theorem bodyChunks_bytes (body : Bytes) :
    ((bodyChunks body).map Item.data).flatMap itemBytes = body := by
  rw [List.flatMap_map]
  change (bodyChunks body).flatMap id = body
  rw [List.flatMap_id, flatten_bodyChunks]

/-- The items of a header and of a body are the bytes of a response. -/
theorem bytes_items (code : Nat) (fields : List (Str × Str)) (body : Bytes) :
    (headerItems code fields ++ [Item.blank] ++ (bodyChunks body).map Item.data).flatMap itemBytes =
      (response code fields body).bytes (latin1 (phrase code)) := by
  have hblank : [Item.blank].flatMap itemBytes = Http.crlf := by
    rw [List.flatMap_singleton]
    exact latin1_crlf
  rw [List.flatMap_append, List.flatMap_append, hblank, bodyChunks_bytes, headerItems,
    List.flatMap_cons, itemBytes_status, fieldLines_eq]
  rfl

/-! ## Well-formed fields -/

theorem isLine_latin1 {s : Str} (h : ∀ c ∈ s, c ≠ 0x0D ∧ c ≠ 0x0A ∧ c < 256) :
    Http.IsLine (latin1 s) := by
  intro b hb
  obtain ⟨c, hc, rfl⟩ := List.mem_map.mp hb
  obtain ⟨hcr, hlf, hlt⟩ := h c hc
  have hval : (UInt8.ofNat c).toNat = c := UInt8.toNat_ofNat_of_lt hlt
  constructor
  · intro heq
    exact hcr (hval.symm.trans (congrArg UInt8.toNat heq))
  · intro heq
    exact hlf (hval.symm.trans (congrArg UInt8.toNat heq))

/-- What `strip` leaves alone has no blank at its ends. -/
theorem trim_latin1 {s : Str} (hs : strip s = s) (hlt : ∀ c ∈ s, c < 256) :
    Http.trim (latin1 s) = latin1 s := by
  have hblank {c : Nat} (hc : c ∈ s) (hspace : isSpace c = false) :
      Http.isBlank (UInt8.ofNat c) = false := by
    have hval : (UInt8.ofNat c).toNat = c := UInt8.toNat_ofNat_of_lt (hlt c hc)
    by_contra h
    simp only [Http.isBlank, Bool.not_eq_false, Bool.or_eq_true, decide_eq_true_eq] at h
    rcases h with h | h
    all_goals
      rw [h] at hval
      rw [← hval] at hspace
      cases hspace
  refine Http.trim_eq_self (fun b hb => ?_) fun b hb => ?_
  · rw [latin1, List.head?_map] at hb
    obtain ⟨c, hc, rfl⟩ := Option.map_eq_some_iff.mp hb
    refine hblank (List.mem_of_mem_head? hc) ?_
    rw [← hs, strip] at hc
    have hhead := List.head?_dropWhile_not isSpace s
    rwa [show (s.dropWhile isSpace).head? = some c from head?_rstripBy hc] at hhead
  · rw [latin1, List.getLast?_map] at hb
    obtain ⟨c, hc, rfl⟩ := Option.map_eq_some_iff.mp hb
    refine hblank (List.mem_of_mem_getLast? hc) ?_
    rw [← hs, strip, rstripBy, List.getLast?_reverse] at hc
    have hhead := List.head?_dropWhile_not isSpace (lstripBy isSpace s).reverse
    rwa [hc] at hhead

theorem isField_encode {f : Str × Str} (hk : f.1 ∈ sentKeywords) (hv : HeaderValue f.2) :
    Http.IsField (encodeField f) := by
  have hkeywords : ∀ k ∈ sentKeywords, latin1 k ≠ [] ∧
      ((latin1 k).all fun b => b ≠ 0x3A ∧ b ≠ 0x0D ∧ b ≠ 0x0A) = true := by decide
  obtain ⟨hne, hall⟩ := hkeywords f.1 hk
  have hkeyword : ∀ b ∈ latin1 f.1, b ≠ 0x3A ∧ b ≠ 0x0D ∧ b ≠ 0x0A :=
    fun b hb => of_decide_eq_true (List.all_eq_true.mp hall b hb)
  exact ⟨hne, fun b hb => (hkeyword b hb).1, fun b hb => (hkeyword b hb).2,
    isLine_latin1 hv.line, trim_latin1 hv.stripped fun c hc => (hv.line c hc).2.2⟩

/-! ## A response on the connection -/

variable {σ : Type} {server : MotuProxyServer σ} {r : HttpRequest} {method : Method}
  {closeConnection : Bool} {arrived : Bytes} {c c₁ c' : Connection σ}

theorem isLine_phrase (code : Nat) : Http.IsLine (latin1 (phrase code)) := by
  have hall : ∀ p ∈ responses, ((latin1 p.2).all fun b => b ≠ 0x0D ∧ b ≠ 0x0A) = true := by
    decide +kernel
  unfold phrase
  cases h : responses.find? (·.1 = code) with
  | none => exact fun b hb => (by cases hb)
  | some p => exact Http.isLine_of_all (hall p (List.mem_of_find?_eq_some h))

/-- The length of the body is that of the single field about it. -/
theorem bodyLength_fields {code n : Nat} {fields : List (Str × Str)} (hs : ∀ f ∈ fields, Sendable f)
    (hlength : contentLengths fields = [strNat n]) (hcode : 200 ≤ code ∧ code ≠ 204 ∧ code ≠ 304) :
    Http.bodyLength code (fields.map encodeField) = some n := by
  have hkey : ∀ k ∈ sentKeywords,
      (latin1 k).map Http.lowerByte = Http.contentLengthName ↔ lower k = py "content-length" := by
    decide
  have hfilter : (fields.map encodeField).filter
      (fun f => f.1.map Http.lowerByte = Http.contentLengthName) =
      (fields.filter fun f => lower f.1 = py "content-length").map encodeField := by
    rw [List.filter_map]
    refine congrArg _ (List.filter_congr fun f hf => ?_)
    exact decide_eq_decide.mpr (hkey f.1 (hs f hf).1)
  obtain ⟨f, hf, hvalue⟩ := List.map_eq_singleton_iff.mp hlength
  rw [Http.bodyLength, if_neg (by omega), hfilter, hf]
  change Http.readDecimal (latin1 f.2) = some n
  rw [hvalue, latin1_strNat, Http.readDecimal_decimal]

/-- The response that a request is answered with. -/
def answer (server : MotuProxyServer σ) (method : Method) (close : Bool)
    (outcome : Except Exn DispatchResult) : Http.Response :=
  response (answerStatus server outcome) (answerFields server method close outcome)
    (answerBody server outcome)

theorem answer_wellFormed {b b' : σ} {outcome : Except Exn DispatchResult} (hp : Presentable server)
    (hline : Plain r) (h : Handled server method r arrived b outcome b') (close : Bool) :
    (answer server method close outcome).WellFormed := by
  have hs := sendable_answerFields hp hline h close
  obtain ⟨hfinal, h204, hbody⟩ := answer_delimited hp h close
  refine ⟨fun f hf => ?_, ?_⟩
  · obtain ⟨f, hmem, rfl⟩ := List.mem_map.mp hf
    exact isField_encode (hs f hmem).1 (hs f hmem).2
  · rcases hbody with ⟨h304, hbody⟩ | ⟨h304, hlength⟩
    · refine (if_pos (.inr (.inr h304))).trans ?_
      change some 0 = some (answerBody server outcome).length
      rw [hbody]
      rfl
    · exact bodyLength_fields hs hlength ⟨hfinal, h204, h304⟩

/-- The bytes that are sent from one state to another are those of the responses. -/
structure Sends (c c' : Connection σ) (rs : List (Http.Response × Bytes)) : Prop where
  bytes : c'.bytes = c.bytes ++ rs.flatMap fun r => r.1.bytes r.2
  wellFormed : ∀ r ∈ rs, r.1.WellFormed ∧ Http.IsLine r.2

theorem Sends.append {rs₁ rs₂ : List (Http.Response × Bytes)} (h₁ : Sends c c₁ rs₁)
    (h₂ : Sends c₁ c' rs₂) : Sends c c' (rs₁ ++ rs₂) := by
  refine ⟨?_, fun r hr => ?_⟩
  · rw [h₂.bytes, h₁.bytes, List.flatMap_append, List.append_assoc]
  · rcases List.mem_append.mp hr with hr | hr
    · exact h₁.wellFormed r hr
    · exact h₂.wellFormed r hr

/-- The items of a response on the wire. -/
theorem Sends.of_wire {code : Nat} {fields : List (Str × Str)} {body : Bytes}
    (hwire : c'.wire = c.wire ++ (headerItems code fields ++ [Item.blank] ++
      (bodyChunks body).map Item.data))
    (h : (response code fields body).WellFormed) :
    Sends c c' [(response code fields body, latin1 (phrase code))] := by
  refine ⟨?_, List.forall_mem_singleton.mpr ⟨h, isLine_phrase code⟩⟩
  rw [Connection.bytes, hwire, List.flatMap_append, bytes_items, List.flatMap_singleton]
  rfl

/-! ## Running a method -/

/-- The handler when a method is called. -/
def called (c : Connection σ) : MotuProxyHandler σ := { c.handler with wfile := [], consumed := 0 }

theorem perform_ok {x : Handling σ Unit} {s : MotuProxyHandler σ} (h : x c.called = .ok () s) :
    c.perform x = (true, { c with handler := s, wire := c.wire ++ s.wfile }) := by
  unfold perform
  rw [show x { c.handler with wfile := [], consumed := 0 } = .ok () s from h]

theorem perform_error {x : Handling σ Unit} {s : MotuProxyHandler σ} (h : x c.called = .error exc s) :
    c.perform x = (false, { c with handler := s, wire := c.wire ++ s.wfile }) := by
  unfold perform
  rw [show x { c.handler with wfile := [], consumed := 0 } = .error exc s from h]

theorem called_fresh (h : c.handler.headersBuffer = []) : Fresh c.called := ⟨h, rfl, rfl⟩

theorem called_reliable (h : Reliable c.handler) : Reliable c.called := ⟨h.sends, h.stderr⟩

theorem handleExpect100_continues (hv : r.requestVersion ≠ HTTP_0_9) {b : σ} :
    Triple (fun s => Fresh s ∧ s.arrived = arrived ∧ s.backend = b) (handleExpect100 r)
      (fun _ s => s.headersBuffer = [] ∧ s.wfile = [.status 100, .blank] ∧ s.arrived = arrived ∧
        s.backend = b) (fun _ _ => True) := by
  refine Triple.bind (Q := fun _ s => s.headersBuffer = [.status 100] ∧ s.wfile = [] ∧
    s.arrived = arrived ∧ s.backend = b) (Triple.modify ?_) fun _ => Triple.ite (fun h => absurd h hv)
    fun _ => ?_
  · rintro s ⟨hs, harrived, hb⟩
    rw [if_neg hv]
    exact ⟨by simp [hs.buffer], hs.wfile, harrived, hb⟩
  refine Triple.bind (Q := fun _ s => s.headersBuffer = [.status 100, .blank] ∧ s.wfile = [] ∧
    s.arrived = arrived ∧ s.backend = b) (Triple.modify ?_) fun _ => ?_
  · rintro s ⟨hs, hw, harrived, hb⟩
    rw [if_neg hv]
    exact ⟨by simp [hs], hw, harrived, hb⟩
  refine Triple.bind (Q := fun a s => a = s ∧ s.headersBuffer = [.status 100, .blank] ∧ s.wfile = [] ∧
    s.arrived = arrived ∧ s.backend = b) (Triple.get fun _ hs => ⟨rfl, hs⟩) fun a => ?_
  refine Triple.bind (Q := fun _ s => s.wfile = [.status 100, .blank] ∧ s.arrived = arrived ∧
    s.backend = b) ?_ fun _ => Triple.modify fun _ hs => ⟨rfl, hs⟩
  rintro s ⟨rfl, hs, hw, harrived, hb⟩
  rcases writeItems_cases a.headersBuffer a with h | ⟨exc, k, h⟩
  · rw [h]
    exact ⟨by simp [hs, hw], harrived, hb⟩
  · rw [h]
    trivial

theorem succeeds_handleExpect100 {p : Prop} : Succeeds (σ := σ) p (handleExpect100 r) :=
  Succeeds.bind (succeeds_buffer _) fun _ => succeeds_endHeaders

/-- An interim response has no body. -/
theorem continue_wellFormed : (response 100 [] []).WellFormed :=
  ⟨fun f hf => (by cases hf), rfl⟩

/-! ## A sequential server -/

/-- A request is answered for what it has come to. -/
inductive Exchange (server : MotuProxyServer σ) : σ → Turn → Http.Response → σ → Prop
  | mk {b b' : σ} {method : Method} {r : HttpRequest} {closeConnection : Bool} {arrived : Bytes}
      {outcome : Except Exn DispatchResult} (close : Bool)
      (h : Handled server method r arrived b outcome b') :
    Exchange server b (.request method r closeConnection arrived) (answer server method close outcome) b'

/-- The requests are answered one after the other, each in the state that the one before has left. -/
inductive Served (server : MotuProxyServer σ) : σ → List Turn → List Http.Response → σ → Prop
  | nil {b : σ} : Served server b [] [] b
  | cons {b b₁ b' : σ} {turn : Turn} {turns : List Turn} {x : Http.Response} {xs : List Http.Response}
      (h : Exchange server b turn x b₁) (hrest : Served server b₁ turns xs b') :
    Served server b (turn :: turns) (x :: xs) b'

/-- Not an interim response. -/
def isFinal (x : Http.Response) : Bool := 200 ≤ x.status

/-- A method that returns and keeps the connection, or that nothing fails in, answers the request. -/
theorem perform_request {returned : Bool} (hp : Presentable server) (hline : Plain r)
    (hbuffer : c.handler.headersBuffer = [])
    (h : c.perform (handleDatastoreRequest server r method) = (returned, c'))
    (hkept : returned = true ∧ c'.handler.closeConnection = false ∨ Reliable c.handler) :
    c'.handler.headersBuffer = [] ∧ (Reliable c.handler → Reliable c'.handler) ∧ ∃ close outcome,
      Handled server method r c.handler.arrived c.handler.backend outcome c'.handler.backend ∧
      Sends c c' [(answer server method close outcome,
        latin1 (phrase (answerStatus server outcome)))] := by
  have hsucceeds : Succeeds False (handleDatastoreRequest server r method) :=
    handleDatastoreRequest_succeeds hp hline
  cases hx : handleDatastoreRequest server r method c.called with
  | error exc s =>
    rw [perform_error hx] at h
    cases h
    rcases hkept with ⟨hreturned, -⟩ | hreliable
    · cases hreturned
    · exact (hsucceeds.error (called_reliable hreliable) hx).1.elim
  | ok u s =>
    rw [perform_ok hx] at h
    cases h
    obtain ⟨outcome, hmade, hs⟩ := handleDatastoreRequest_answered hp hline (called_fresh hbuffer) hx
    have hreplied : Replied server method outcome s := by
      refine hs.resolve_right ?_
      rintro ⟨hclose, hfailed⟩
      rcases hkept with ⟨-, hkept⟩ | hreliable
      · exact Bool.false_ne_true (hkept.symm.trans hclose)
      · exact hfailed (called_reliable hreliable)
    refine ⟨hreplied.buffer, fun hreliable => hsucceeds.ok (called_reliable hreliable) hx,
      s.closeConnection, outcome, hmade, ?_⟩
    refine Sends.of_wire ?_ (answer_wellFormed hp hline hmade _)
    change c.wire ++ s.wfile = _
    rw [hreplied.wfile]
    rfl

/-! ## A turn -/

/-- The connection when a request has been read. -/
def received (c : Connection σ) (closeConnection : Bool) (arrived : Bytes) : Connection σ :=
  { c with handler := { c.handler with closeConnection, arrived } }

theorem step_open {turn : Turn} (h : step server c turn = some c') : c.ended = false := by
  cases hended : c.ended with
  | false => rfl
  | true =>
    cases turn with
    | request method r closeConnection arrived =>
      rw [step, if_pos hended] at h
      cases h
    | refused sent =>
      rw [step, if_pos hended] at h
      cases h

/-- The method is run, and the connection is kept if it says so. -/
def finish (server : MotuProxyServer σ) (method : Method) (r : HttpRequest) (c : Connection σ) :
    Connection σ :=
  { (c.perform (handleDatastoreRequest server r method)).2 with
    ended := !(c.perform (handleDatastoreRequest server r method)).1 ||
      (c.perform (handleDatastoreRequest server r method)).2.handler.closeConnection }

theorem step_eq (hopen : c.ended = false) :
    step server c (.request method r closeConnection arrived) =
      some (if expectsContinue r then
        if ((c.received closeConnection arrived).perform (handleExpect100 r)).1 then
          finish server method r ((c.received closeConnection arrived).perform (handleExpect100 r)).2
        else { ((c.received closeConnection arrived).perform (handleExpect100 r)).2 with ended := true }
      else finish server method r (c.received closeConnection arrived)) := by
  rw [step, if_neg (by simp [hopen])]
  cases expectsContinue r with
  | false => rfl
  | true =>
    obtain ⟨continued, c₁, hperform⟩ : ∃ continued c₁,
        (c.received closeConnection arrived).perform (handleExpect100 r) = (continued, c₁) := ⟨_, _, rfl⟩
    have hperform' : perform (handleExpect100 r)
        { c with handler := { c.handler with closeConnection, arrived } } = (continued, c₁) := hperform
    rw [hperform, if_pos rfl]
    simp only [if_pos, hperform']
    cases continued <;> rfl

theorem finish_request (hp : Presentable server) (hline : Plain r)
    (hbuffer : c.handler.headersBuffer = [])
    (hkept : (finish server method r c).ended = false ∨ Reliable c.handler) :
    (finish server method r c).handler.headersBuffer = [] ∧
      (Reliable c.handler → Reliable (finish server method r c).handler) ∧ ∃ close outcome,
      Handled server method r c.handler.arrived c.handler.backend outcome
        (finish server method r c).handler.backend ∧
      Sends c (finish server method r c) [(answer server method close outcome,
        latin1 (phrase (answerStatus server outcome)))] := by
  obtain ⟨returned, c₂, hperform⟩ : ∃ returned c₂,
      c.perform (handleDatastoreRequest server r method) = (returned, c₂) := ⟨_, _, rfl⟩
  have hfinish : finish server method r c =
      { c₂ with ended := !returned || c₂.handler.closeConnection } := by rw [finish, hperform]
  rw [hfinish] at hkept ⊢
  obtain ⟨hbuffer', hreliable, close, outcome, hmade, hsends⟩ :=
    perform_request hp hline hbuffer hperform (hkept.imp_left fun hkept => by simpa using hkept)
  exact ⟨hbuffer', hreliable, close, outcome, hmade, hsends.bytes, hsends.wellFormed⟩

theorem isFinal_answer {b b' : σ} {outcome : Except Exn DispatchResult} (hp : Presentable server)
    (h : Handled server method r arrived b outcome b') (close : Bool) :
    isFinal (answer server method close outcome) = true :=
  decide_eq_true (answer_delimited hp h close).1

/-- A request that keeps the connection, or that nothing fails in, is answered; an interim response may
come before. -/
theorem step_request (hp : Presentable server) (hline : Plain r)
    (hbuffer : c.handler.headersBuffer = [])
    (h : step server c (.request method r closeConnection arrived) = some c')
    (hkept : c'.ended = false ∨ Reliable c.handler) :
    c'.handler.headersBuffer = [] ∧ (Reliable c.handler → Reliable c'.handler) ∧ ∃ rs x,
      Sends c c' rs ∧ (rs.map (·.1)).filter isFinal = [x] ∧
      Exchange server c.handler.backend (.request method r closeConnection arrived) x
        c'.handler.backend := by
  have hreceived : Reliable c.handler → Reliable (c.received closeConnection arrived).handler :=
    fun hs => ⟨hs.sends, hs.stderr⟩
  rw [step_eq (step_open h)] at h
  cases hexpects : expectsContinue r with
  | false =>
    rw [hexpects, if_neg Bool.false_ne_true, Option.some.injEq] at h
    subst h
    obtain ⟨hbuffer', hreliable, close, outcome, hmade, hsends⟩ :=
      finish_request (c := c.received closeConnection arrived) hp hline hbuffer
        (hkept.imp_right hreceived)
    refine ⟨hbuffer', fun hs => hreliable (hreceived hs), _, _, ⟨hsends.bytes, hsends.wellFormed⟩, ?_,
      .mk close hmade⟩
    simp [isFinal_answer hp hmade]
  | true =>
    rw [hexpects, if_pos rfl] at h
    cases hx : handleExpect100 r (c.received closeConnection arrived).called with
    | error exc s =>
      rw [perform_error hx, if_neg Bool.false_ne_true, Option.some.injEq] at h
      subst h
      rcases hkept with hkept | hreliable
      · cases hkept
      · have hreliable := called_reliable (hreceived hreliable)
        exact ((succeeds_handleExpect100 (p := False)).error hreliable hx).1.elim
    | ok u s =>
      rw [perform_ok hx, if_pos rfl, Option.some.injEq] at h
      subst h
      have hfresh : Fresh (c.received closeConnection arrived).called := called_fresh hbuffer
      obtain ⟨hs, hwire, harrived, hb⟩ := (handleExpect100_continues hline.version).ok
        ⟨hfresh, rfl, rfl⟩ hx
      have hcontinues (hs : Reliable c.handler) : Reliable s :=
        (succeeds_handleExpect100 (p := False)).ok (called_reliable (hreceived hs)) hx
      obtain ⟨hbuffer', hreliable, close, outcome, hmade, hsends⟩ :=
        finish_request hp hline hs (hkept.imp_right hcontinues)
      have hinterim : Sends c { c.received closeConnection arrived with
          handler := s, wire := c.wire ++ s.wfile } [(response 100 [] [], latin1 (phrase 100))] :=
        Sends.of_wire (congrArg (c.wire ++ ·) hwire) continue_wellFormed
      refine ⟨hbuffer', fun hs => hreliable (hcontinues hs), _, answer server method close outcome,
        hinterim.append hsends, ?_, ?_⟩
      · have hnot : isFinal (response 100 [] []) = false := rfl
        simp [hnot, isFinal_answer hp hmade]
      · dsimp only at hmade
        rw [harrived, hb] at hmade
        exact .mk close hmade

/-! ## A run -/

/-- The turn is a request that is plain. -/
def IsPlain : Turn → Prop
  | .request _ r _ _ => Plain r
  | .refused _ => False

theorem run_open {turns : List Turn} (hrun : run (step server) c turns = some c')
    (hopen : c'.ended = false) : c.ended = false := by
  cases turns with
  | nil =>
    cases hrun
    exact hopen
  | cons turn turns =>
    obtain ⟨c₁, hstep, -⟩ := run_cons.mp hrun
    exact step_open hstep

/-- Every request of a run is answered, in the order of the requests. -/
theorem run_served (hp : Presentable server) {turns : List Turn} (hturns : ∀ turn ∈ turns, IsPlain turn)
    (hbuffer : c.handler.headersBuffer = []) (hrun : run (step server) c turns = some c')
    (hkept : c'.ended = false ∨ Reliable c.handler) :
    ∃ rs, Sends c c' rs ∧
      Served server c.handler.backend turns ((rs.map (·.1)).filter isFinal) c'.handler.backend := by
  induction turns generalizing c with
  | nil =>
    cases hrun
    exact ⟨[], ⟨by simp, fun r hr => (by cases hr)⟩, .nil⟩
  | cons turn turns ih =>
    obtain ⟨c₁, hstep, hrest⟩ := run_cons.mp hrun
    rw [List.forall_mem_cons] at hturns
    cases turn with
    | refused sent => exact hturns.1.elim
    | request method r closeConnection arrived =>
      obtain ⟨hbuffer₁, hreliable, rs₁, x, hsends₁, hfinal, hx⟩ :=
        step_request hp hturns.1 hbuffer hstep (hkept.imp_left (run_open hrest))
      obtain ⟨rs₂, hsends₂, hserved⟩ := ih hturns.2 hbuffer₁ hrest (hkept.imp_right hreliable)
      refine ⟨rs₁ ++ rs₂, hsends₁.append hsends₂, ?_⟩
      rw [List.map_append, List.filter_append, hfinal]
      exact .cons hx hserved

/-- What is sent on a connection in any run of requests, whatever the dispatcher, the bodies and the
socket do, is read as responses with nothing left over, as long as the connection is kept, or up to its
end if nothing fails in writing. Interim responses apart, they are those of a server that takes the
requests one after the other. -/
theorem connection_in_step (hp : Presentable server) {handler : MotuProxyHandler σ} {turns : List Turn}
    (hbuffer : handler.headersBuffer = []) (hturns : ∀ turn ∈ turns, IsPlain turn)
    (hrun : run (step server) { handler } turns = some c)
    (hkept : c.ended = false ∨ Reliable handler) :
    ∃ rs, Http.readStream c.bytes.length c.bytes = some rs ∧
      Served server handler.backend turns (rs.filter isFinal) c.handler.backend := by
  obtain ⟨rs, hsends, hserved⟩ := run_served hp hturns hbuffer hrun hkept
  have hbytes : c.bytes = rs.flatMap fun r => r.1.bytes r.2 := hsends.bytes
  refine ⟨rs.map (·.1), ?_, hserved⟩
  rw [hbytes]
  exact Http.readStream_bytes hsends.wellFormed (Http.length_le_bytes rs)

/-- A server whose datastore is an empty object, at a fixed time. -/
def datedServer : MotuProxyServer Unit :=
  { objectServer with
    maxWriteBodyBytes := 2
    dateTimeString := py "Wed, 18 Nov 2026 12:00:00 GMT"
    date_latin1 := by decide }

def datedRequest (path : Str) (headers : List (Str × Str)) : HttpRequest where
  requestVersion := py "HTTP/1.1"
  path
  headers

/-- A read, a write that waits for `100 Continue`, and a write whose length is none. -/
def threeTurns : List Turn :=
  [.request .GET (datedRequest (py "/datastore") []) false [],
    .request .POST (datedRequest (py "/datastore/x")
      [(py "Expect", py "100-continue"), (py "Content-Length", py "2")]) false [0x7B, 0x7D],
    .request .POST (datedRequest (py "/datastore/x") [(py "Content-Length", py "x")]) false []]

theorem datedServer_presentable : Presentable datedServer where
  version := headerValue_of (by decide)
  date := headerValue_of (by decide)
  results args b result b' h := by
    cases h
    exact ⟨.inl rfl, fun t ht => (by cases ht), fun _ e he => (by cases he)⟩

theorem connection_in_step_three : ∃ c rs,
    run (step datedServer) { handler := arrivedBlanks 0 } threeTurns = some c ∧ c.ended = true ∧
    Http.readStream c.bytes.length c.bytes = some rs ∧ rs.map (·.status) = [200, 100, 200, 400] ∧
    Served datedServer () threeTurns (rs.filter isFinal) () := by
  have hfacts : (run (step datedServer) { handler := arrivedBlanks 0 } threeTurns).map (fun c =>
      (c.ended, (Http.readStream c.bytes.length c.bytes).map (·.map (·.status)))) =
      some (true, some [200, 100, 200, 400]) := by decide +kernel
  obtain ⟨c, hrun, hc⟩ := Option.map_eq_some_iff.mp hfacts
  obtain ⟨hended, hstatus⟩ := Prod.mk.inj hc
  have hplain (path : Str) {headers : List (Str × Str)}
      (h : (datedRequest path headers).header (py "If-None-Match") = none) :
      Plain (datedRequest path headers) :=
    ⟨show py "HTTP/1.1" ≠ HTTP_0_9 by decide, fun e he => by rw [h] at he; cases he⟩
  have hturns : ∀ turn ∈ threeTurns, IsPlain turn := by
    simp only [threeTurns, List.forall_mem_cons]
    exact ⟨hplain _ (by decide), hplain _ (by decide), hplain _ (by decide),
      fun _ h => absurd h List.not_mem_nil⟩
  obtain ⟨rs, hread, hserved⟩ := connection_in_step datedServer_presentable rfl hturns hrun
    (.inr ⟨rfl, rfl⟩)
  rw [hread] at hstatus
  exact ⟨c, rs, hrun, hended, hread, Option.some.inj hstatus, hserved⟩

end Connection

end MotuProxy
