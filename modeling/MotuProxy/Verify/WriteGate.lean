import MotuProxy.Model.Dispatch
import MotuProxy.Verify.KeepAlive

/-! # What has to hold before a write reaches `run_post`

The handler checks the headers, reads the body and dispatches, and the dispatcher checks the headers
again, with everything else. `recorded` is a dispatcher with a ghost: the list of the calls of
`run_post`. The dispatcher calls it exactly if `prepareWrite` succeeds, and once then; the rest is
what `prepareWrite` and the reading of the body need.
-/

namespace MotuProxy

open Py Protocol Responses Paths Schema Dispatch

variable {σ : Type}

/-- The state in which a procedure ends. -/
def finalState : EStateM.Result ε σ α → σ
  | .ok _ s => s
  | .error _ s => s

/-- However it ends, `x` leads from `P` to `Q`. -/
def Leads (P : σ → Prop) (x : EStateM ε σ α) (Q : σ → Prop) : Prop :=
  Triple P x (fun _ => Q) (fun _ => Q)

theorem Leads.finalState {P Q : σ → Prop} {x : EStateM ε σ α} (h : Leads P x Q) (hs : P s) :
    Q (finalState (x s)) := by
  have hx := h s hs
  cases hxs : x s with
  | ok a s' => rw [hxs] at hx; exact hx
  | error e s' => rw [hxs] at hx; exact hx

theorem Schema.require_eq_ok {c : Bool} {exc : Exn} {u : Unit} : require c exc = .ok u ↔ c = true := by
  unfold require
  split <;> simp_all

namespace Dispatch.DatastoreDispatcher

/-! ## Recording the calls -/

/-- Run a procedure on the first component of the state. -/
def lifted (x : EStateM Exn σ α) : EStateM Exn (σ × List WriteCall) α := fun s =>
  match x s.1 with
  | .ok a st => .ok a (st, s.2)
  | .error exc st => .error exc (st, s.2)

/-- The dispatcher that records the calls of `run_post`. -/
def recorded (d : DatastoreDispatcher σ) : DatastoreDispatcher (σ × List WriteCall) where
  allowWrites := d.allowWrites
  runGet path client etag fields := lifted (d.runGet path client etag fields)
  runPost call := fun s => lifted (d.runPost call) (s.1, s.2 ++ [call])
  writeToken := d.writeToken
  allowRemoteWrites := d.allowRemoteWrites
  logWrite := d.logWrite.map fun logWrite method path body s => (logWrite method path body s.1, s.2)
  validateWrites := d.validateWrites
  allowUnknownWrites := d.allowUnknownWrites
  statusProvider := d.statusProvider.map lifted
  recursionDepth := d.recursionDepth

variable {d : DatastoreDispatcher σ} {a : DispatchArgs} {calls : List WriteCall}

/-- The calls so far. -/
def Made (calls : List WriteCall) (s : σ × List WriteCall) : Prop := s.2 = calls

theorem lifted_made (x : EStateM Exn σ α) : Leads (Made calls) (lifted x) (Made calls) := by
  intro s hs
  unfold lifted
  cases x s.1 with
  | ok a st => exact hs
  | error exc st => exact hs

theorem liftExcept_made (x : Except Exn α) :
    Triple (Made (σ := σ) calls) (liftExcept x) (fun a s => Made calls s ∧ x = .ok a)
      (fun exc s => Made calls s ∧ x = .error exc) := by
  cases x with
  | ok a => exact Triple.pure fun _ hs => ⟨hs, rfl⟩
  | error exc => exact Triple.throw fun _ hs => ⟨hs, rfl⟩

theorem log_made (method : Method) (call : WriteCall) :
    Triple (Made calls) (d.recorded.log method call) (fun _ => Made calls) E := by
  unfold log
  cases hlog : d.recorded.logWrite with
  | none => exact Triple.pure fun _ hs => hs
  | some logWrite =>
    refine Triple.modify fun s hs => ?_
    obtain ⟨logWrite', -, rfl⟩ := Option.map_eq_some_iff.1 hlog
    exact hs

/-- The calls of `run_post` that the dispatch of a request makes. -/
def callsOf (d : DatastoreDispatcher σ) (a : DispatchArgs) : List WriteCall :=
  if a.method = .GET then [] else (d.preparedCall a).toOption.toList

theorem dispatchWrite_made {path : Str} :
    Leads (Made calls) (d.recorded.dispatchWrite a path)
      (Made (calls ++ (d.prepareWrite a path).toOption.toList)) := by
  cases hcall : d.prepareWrite a path with
  | error exc =>
    refine Triple.bind (Triple.conseq (liftExcept_made _) (fun _ hs => hs) (fun _ _ hs => hs)
      fun _ s hs => ?_) fun call => Triple.assume fun h => ?_
    · exact hs.1.trans (List.append_nil _).symm
    · cases hcall.symm.trans h
  | ok call =>
    refine Triple.bind (Triple.conseq (liftExcept_made _) (fun _ hs => hs) (fun _ _ hs => hs)
      fun _ s hs => ?_) fun call' => Triple.assume fun h => ?_
    · cases hcall.symm.trans hs.2
    · cases hcall.symm.trans h
      refine Triple.bind (log_made a.method call) fun _ => ?_
      refine Triple.bind (Q := fun _ => Made (calls ++ [call])) (fun s hs => ?_) fun _ =>
        Triple.pure fun _ hs => hs
      exact lifted_made _ _ (congrArg (· ++ [call]) hs)

theorem dispatchGet_made {path : Str} :
    Leads (Made calls) (d.recorded.dispatchGet a path) (Made calls) := by
  refine Triple.bind (Triple.conseq (liftExcept_made _) (fun _ hs => hs) (fun _ _ hs => hs.1)
    fun _ _ hs => hs.1) fun _ => ?_
  exact Triple.bind (lifted_made _) fun _ => Triple.pure fun _ hs => hs

theorem dispatch_get_made (hm : a.method = .GET) :
    Leads (Made calls) (d.recorded.dispatchDatastoreRequest a) (Made calls) := by
  refine Triple.bind (Triple.conseq (liftExcept_made _) (fun _ hs => hs) (fun _ _ hs => hs.1)
    fun _ _ hs => hs.1) fun url => ?_
  split
  · next provider hprovider =>
    have hlifted : ∃ x : EStateM Exn σ Bytes, provider = lifted x := by
      unfold statusFor at hprovider
      split at hprovider
      · obtain ⟨x, -, rfl⟩ := Option.map_eq_some_iff.1 hprovider
        exact ⟨x, rfl⟩
      · cases hprovider
    obtain ⟨x, rfl⟩ := hlifted
    exact Triple.bind (lifted_made x) fun _ => Triple.pure fun _ hs => hs
  · refine Triple.bind (Triple.conseq (liftExcept_made _) (fun _ hs => hs) (fun _ _ hs => hs.1)
      fun _ _ hs => hs.1) fun path => ?_
    rw [if_pos hm]
    exact dispatchGet_made

theorem dispatch_write_made (hm : a.method ≠ .GET) :
    Leads (Made calls) (d.recorded.dispatchDatastoreRequest a)
      (Made (calls ++ (d.preparedCall a).toOption.toList)) := by
  have hraise {β : Type} {x : Except Exn β} {f : β → Except Exn WriteCall} {exc : Exn} (h : x = .error exc)
      (s : σ × List WriteCall) (hs : Made calls s) :
      Made (calls ++ (x >>= f).toOption.toList) s := by
    rw [h]
    exact hs.trans (List.append_nil _).symm
  refine Triple.bind (Triple.conseq (liftExcept_made _) (fun _ hs => hs) (fun _ _ hs => hs)
    fun _ s hs => hraise hs.2 s hs.1) fun url => Triple.assume fun hurl => ?_
  have hstatus : d.recorded.statusFor a url = none := if_neg fun h => hm h.1
  rw [hstatus]
  have hcall : d.preparedCall a = normalizePath url.path >>= d.prepareWrite a := by
    rw [preparedCall, hurl]
    rfl
  rw [hcall]
  refine Triple.bind (Triple.conseq (liftExcept_made _) (fun _ hs => hs) (fun _ _ hs => hs)
    fun _ s hs => hraise hs.2 s hs.1) fun path => Triple.assume fun hpath => ?_
  rw [if_neg hm, hpath]
  exact dispatchWrite_made

/-- The dispatch of a request makes the calls `callsOf`. -/
theorem dispatchDatastoreRequest_made :
    Leads (Made calls) (d.recorded.dispatchDatastoreRequest a) (Made (calls ++ d.callsOf a)) := by
  unfold callsOf
  split
  · next hm =>
    rw [List.append_nil]
    exact dispatch_get_made hm
  · next hm => exact dispatch_write_made hm

/-! ## The checks of the headers -/

/-- The `Origin` is absent or empty, or it is the `http` origin of the `Host`. -/
def OriginAllowed (origin host : Option Str) : Prop :=
  orElse origin none = none ∨
    ∃ o h u, orElse origin none = some o ∧ o ≠ py "null" ∧ orElse host none = some h ∧
      urlparse o true = some u ∧ u.scheme = py "http" ∧ u.netloc ≠ [] ∧ lower u.netloc = lower h

/-- No token is configured, or the request carries a token that is not empty and the same. -/
def TokenAllowed (expected request : Option Str) : Prop :=
  expected = none ∨
    ∃ e t bytes, expected = some e ∧ request = some t ∧ t ≠ [] ∧ utf8EncodeEscape e = some bytes ∧
      utf8EncodeEscape t = some bytes

structure HeadersAllowed (d : DatastoreDispatcher σ) (origin host token : Option Str) : Prop where
  writesAllowed : d.allowWrites = true
  hostAllowed : d.allowRemoteWrites = true ∨ isLoopbackHost host = .ok true
  originAllowed : OriginAllowed origin host
  tokenAllowed : TokenAllowed d.writeToken token

theorem validateWriteHost_eq_ok {method : Method} {host : Option Str} (hm : method ≠ .GET)
    (hw : d.allowWrites = true) :
    validateWriteHost method d.allowWrites host d.allowRemoteWrites = .ok u ↔
      d.allowRemoteWrites = true ∨ isLoopbackHost host = .ok true := by
  unfold validateWriteHost
  cases d.allowRemoteWrites with
  | true => simp [hw]
  | false =>
    rw [if_neg (by simp [hm, hw]), except_bind_eq_ok]
    simp [require_eq_ok]

theorem originMatchesHost_eq_ok {origin host : Str} :
    originMatchesHost origin host = .ok true ↔
      ∃ u, urlparse origin true = some u ∧ u.scheme = py "http" ∧ u.netloc ≠ [] ∧
        lower u.netloc = lower host := by
  unfold originMatchesHost parseRequestPath
  rw [except_bind_eq_ok]
  cases urlparse origin true with
  | none => simp
  | some u => simp [pure, Except.pure]

theorem validateWriteOrigin_eq_ok {method : Method} {origin host : Option Str}
    (hm : method ≠ .GET) (hw : d.allowWrites = true) :
    validateWriteOrigin method d.allowWrites origin host = .ok u ↔ OriginAllowed origin host := by
  unfold validateWriteOrigin OriginAllowed
  cases orElse origin none with
  | none => simp
  | some o =>
    dsimp only
    rw [if_neg (by simp [hm, hw]), ite_error_eq_ok]
    cases orElse host none with
    | none => simp
    | some h =>
      dsimp only
      rw [except_bind_eq_ok]
      simp only [require_eq_ok, exists_eq_right, originMatchesHost_eq_ok]
      simp

theorem tokenBytes_eq_ok {token : Str} {bytes : Bytes} :
    tokenBytes token = .ok bytes ↔ utf8EncodeEscape token = some bytes := by
  unfold tokenBytes
  cases utf8EncodeEscape token <;> simp

theorem validateWriteToken_eq_ok {method : Method} {token : Option Str} (hm : method ≠ .GET)
    (hw : d.allowWrites = true) :
    validateWriteToken method d.allowWrites d.writeToken token = .ok u ↔
      TokenAllowed d.writeToken token := by
  unfold validateWriteToken TokenAllowed
  cases d.writeToken with
  | none => simp
  | some expected =>
    dsimp only
    rw [if_neg (by simp [hm, hw])]
    rcases token with _ | _ | ⟨c, t⟩
    · simp [orElse]
    · simp [orElse]
    · simp only [orElse, except_bind_eq_ok, tokenBytes_eq_ok, require_eq_ok, decide_eq_true_eq]
      constructor
      · rintro ⟨e, he, b, hb, rfl⟩
        exact .inr ⟨expected, c :: t, e, rfl, rfl, List.cons_ne_nil c t, he, hb⟩
      · rintro (h | ⟨_, _, bytes, ⟨⟩, ⟨⟩, -, he, ht⟩)
        · cases h
        · exact ⟨bytes, he, bytes, ht, rfl⟩

/-- The four checks that the pre-check and the dispatcher make. -/
theorem headersAllowed_iff {method : Method} {origin host token : Option Str} (hm : method ≠ .GET) :
    HeadersAllowed d origin host token ↔ d.allowWrites = true ∧
      validateWriteHost method d.allowWrites host d.allowRemoteWrites = .ok () ∧
      validateWriteOrigin method d.allowWrites origin host = .ok () ∧
      validateWriteToken method d.allowWrites d.writeToken token = .ok () := by
  constructor
  · rintro ⟨hw, hhost, horigin, htoken⟩
    exact ⟨hw, (validateWriteHost_eq_ok hm hw).2 hhost, (validateWriteOrigin_eq_ok hm hw).2 horigin,
      (validateWriteToken_eq_ok hm hw).2 htoken⟩
  · rintro ⟨hw, hhost, horigin, htoken⟩
    exact ⟨hw, (validateWriteHost_eq_ok hm hw).1 hhost, (validateWriteOrigin_eq_ok hm hw).1 horigin,
      (validateWriteToken_eq_ok hm hw).1 htoken⟩

theorem validateWriteHeaders_eq_ok {method : Method} {origin host token : Option Str}
    (hm : method ≠ .GET) :
    d.validateWriteHeaders method origin host token = .ok () ↔
      HeadersAllowed d origin host token := by
  rw [headersAllowed_iff hm, validateWriteHeaders, if_neg hm]
  simp only [check_bind_eq_ok, require_eq_ok]

/-! ## The checks of the body -/

/-- The extracted text of the body is an object that may be written, and fits a frame. -/
structure BodyAllowed (d : DatastoreDispatcher σ) (rawBody contentType : Str) (call : WriteCall) :
    Prop where
  accepted : ∃ text object, parseWriteBody rawBody contentType = .ok text ∧
    loadJsonObject d.recursionDepth text = .ok object ∧ utf8Encode text = some call.body ∧
    (d.validateWrites = true →
      validateDatastoreWriteObject call.path object d.allowUnknownWrites = .ok ())
  fits : validatePostFrameSize call.path call.body (py "NREK") (call.client.map .str) = .ok ()

theorem encodeBody_eq_ok {text : Str} {bytes : Bytes} :
    encodeBody text = .ok bytes ↔ utf8Encode text = some bytes := by
  unfold encodeBody
  cases utf8Encode text <;> simp

theorem prepareWrite_eq_ok {path : Str} {call : WriteCall} (hm : a.method ≠ .GET) :
    d.prepareWrite a path = .ok call ↔ call.path = path ∧
      parseClientQuery a.requestPath = .ok call.client ∧
      HeadersAllowed d a.origin a.host a.requestToken ∧ BodyAllowed d a.rawBody a.contentType call := by
  rw [headersAllowed_iff hm]
  unfold prepareWrite
  simp only [except_bind_eq_ok, require_eq_ok, encodeBody_eq_ok]
  constructor
  · rintro ⟨client, hclient, _, hw, _, hhost, _, horigin, _, htoken, text, htext, object, hobject,
      body, hbody, _, hvalid, _, hfits, hcall⟩
    cases hcall
    refine ⟨rfl, hclient, ⟨hw, hhost, horigin, htoken⟩, ⟨text, object, htext, hobject, hbody, ?_⟩,
      hfits⟩
    intro hv
    rwa [checkObject, if_pos hv] at hvalid
  · rintro ⟨rfl, hclient, ⟨hw, hhost, horigin, htoken⟩, ⟨text, object, htext, hobject, hbody, hvalid⟩,
      hfits⟩
    refine ⟨call.client, hclient, (), hw, (), hhost, (), horigin, (), htoken, text, htext, object,
      hobject, call.body, hbody, (), ?_, (), hfits, rfl⟩
    unfold checkObject
    split
    · next hv => exact hvalid hv
    · rfl

/-- What the dispatch of a write hands to `run_post`. -/
theorem preparedCall_eq_ok {call : WriteCall} (hm : a.method ≠ .GET) :
    d.preparedCall a = .ok call ↔
      (∃ url, urlparse a.requestPath true = some url ∧ normalizePath url.path = .ok call.path) ∧
      parseClientQuery a.requestPath = .ok call.client ∧
      HeadersAllowed d a.origin a.host a.requestToken ∧ BodyAllowed d a.rawBody a.contentType call := by
  unfold preparedCall
  simp only [except_bind_eq_ok, prepareWrite_eq_ok hm, parseRequestPath]
  constructor
  · rintro ⟨url, hurl, path, hpath, rfl, h⟩
    refine ⟨⟨url, ?_, hpath⟩, h⟩
    split at hurl
    · next hsome =>
      cases hurl
      exact hsome
    · cases hurl
  · rintro ⟨⟨url, hurl, hpath⟩, h⟩
    exact ⟨url, by rw [hurl], call.path, hpath, rfl, h⟩

end Dispatch.DatastoreDispatcher

/-! ## The handler around the dispatcher -/

namespace MotuProxyHandler

variable {server : MotuProxyServer σ} {r : HttpRequest} {method : Method}

/-- `x` does not touch the state of the dispatcher. -/
def KeepsBackend (x : Handling σ α) : Prop :=
  ∀ b, Leads (fun s : MotuProxyHandler σ => s.backend = b) x fun s => s.backend = b

namespace KeepsBackend

theorem pure (a : α) : KeepsBackend (pure a : Handling σ α) :=
  fun _ => Triple.pure fun _ hs => hs

theorem throw (exc : Exn) : KeepsBackend (throw exc : Handling σ α) :=
  fun _ => Triple.throw fun _ hs => hs

theorem get : KeepsBackend (get : Handling σ (MotuProxyHandler σ)) :=
  fun _ => Triple.get fun _ hs => hs

theorem modify {f : MotuProxyHandler σ → MotuProxyHandler σ} (h : ∀ s, (f s).backend = s.backend) :
    KeepsBackend (modify f) :=
  fun _ => Triple.modify fun s hs => (h s).trans hs

theorem bind {x : Handling σ α} {f : α → Handling σ β} (hx : KeepsBackend x)
    (hf : ∀ a, KeepsBackend (f a)) : KeepsBackend (x >>= f) :=
  fun b => Triple.bind (hx b) fun a => hf a b

theorem ite {c : Prop} [Decidable c] {x y : Handling σ α} (hx : KeepsBackend x)
    (hy : KeepsBackend y) : KeepsBackend (if c then x else y) :=
  fun b => Triple.ite (fun _ => hx b) fun _ => hy b

theorem liftExcept (x : Except Exn α) : KeepsBackend (liftExcept (σ := σ) x) := by
  cases x with
  | ok a => exact pure a
  | error exc => exact throw exc

theorem ok {x : Handling σ α} (h : KeepsBackend x) (hx : x s = .ok a s') : s'.backend = s.backend := by
  have h' := h s.backend s rfl
  rwa [hx] at h'

theorem error {x : Handling σ α} (h : KeepsBackend x) (hx : x s = .error exc s') :
    s'.backend = s.backend := by
  have h' := h s.backend s rfl
  rwa [hx] at h'

end KeepsBackend

theorem keeps_printStderr : KeepsBackend (σ := σ) printStderr := by
  intro b s hs
  unfold printStderr
  rcases s.stderr with _ | ⟨_ | exc, rest⟩
  all_goals exact hs

theorem keeps_writeItems (items : List Item) : KeepsBackend (σ := σ) (writeItems items) := by
  intro b s hs
  unfold writeItems
  rcases s.sends with _ | ⟨_ | ⟨exc, before⟩, rest⟩
  all_goals exact hs

theorem keeps_writeData (bytes : Bytes) : KeepsBackend (σ := σ) (writeData bytes) := by
  intro b s hs
  unfold writeData
  rcases s.sends with _ | ⟨_ | ⟨exc, before⟩, rest⟩
  all_goals exact hs

theorem keeps_buffer (item : Item) : KeepsBackend (σ := σ) (buffer r item) :=
  KeepsBackend.modify fun s => by split <;> rfl

theorem keeps_sendHeader (keyword value : Str) : KeepsBackend (σ := σ) (sendHeader r keyword value) := by
  refine KeepsBackend.bind ?_ fun _ => KeepsBackend.bind (keeps_buffer _) fun _ => ?_
  · exact KeepsBackend.ite (KeepsBackend.pure _) (KeepsBackend.throw _)
  · refine KeepsBackend.modify fun s => ?_
    split
    · split
      · rfl
      · split <;> rfl
    · rfl

theorem keeps_sendHeaders (fields : List (Str × Str)) :
    KeepsBackend (σ := σ) (sendHeaders r fields) := by
  induction fields with
  | nil => exact KeepsBackend.pure _
  | cons f fields ih => exact KeepsBackend.bind (keeps_sendHeader _ _) fun _ => ih

theorem keeps_sendResponse (code : Nat) : KeepsBackend (sendResponse server r code) := by
  refine KeepsBackend.bind ?_ fun _ => KeepsBackend.bind (keeps_buffer _) fun _ =>
    KeepsBackend.bind (keeps_sendHeader _ _) fun _ => keeps_sendHeader _ _
  exact KeepsBackend.ite keeps_printStderr (KeepsBackend.pure _)

theorem keeps_sendConnection : KeepsBackend (σ := σ) (sendConnection r) :=
  KeepsBackend.bind KeepsBackend.get fun _ =>
    KeepsBackend.ite (keeps_sendHeader _ _) (KeepsBackend.pure _)

theorem keeps_endHeaders : KeepsBackend (σ := σ) (endHeaders r) := by
  refine KeepsBackend.ite (KeepsBackend.pure _) (KeepsBackend.bind (keeps_buffer _) fun _ => ?_)
  exact KeepsBackend.bind KeepsBackend.get fun s => KeepsBackend.bind (keeps_writeItems _)
    fun _ => KeepsBackend.modify fun _ => rfl

theorem keeps_sendResult (result : DispatchResult) :
    KeepsBackend (sendResult server r method result) := by
  refine KeepsBackend.bind (keeps_sendResponse _) fun _ => ?_
  refine KeepsBackend.bind (KeepsBackend.modify fun _ => rfl) fun _ => ?_
  refine KeepsBackend.bind (keeps_sendHeaders _) fun _ => ?_
  refine KeepsBackend.bind keeps_sendConnection fun _ => KeepsBackend.bind keeps_endHeaders fun _ => ?_
  exact KeepsBackend.ite (KeepsBackend.pure _) (keeps_writeData _)

theorem keeps_sendJsonError (status : Nat) (message : Str) :
    KeepsBackend (sendJsonError server r status message) := by
  refine KeepsBackend.bind (keeps_sendResponse _) fun _ => ?_
  refine KeepsBackend.bind (keeps_sendHeaders _) fun _ => ?_
  exact KeepsBackend.bind keeps_sendConnection fun _ => KeepsBackend.bind keeps_endHeaders fun _ =>
    keeps_writeData _

theorem keeps_handleError (exc : Exn) : KeepsBackend (handleError server r method exc) := by
  have hclose : KeepsBackend (σ := σ) setCloseConnection := KeepsBackend.modify fun _ => rfl
  refine KeepsBackend.bind (KeepsBackend.ite (KeepsBackend.pure _) hclose) fun _ => ?_
  refine KeepsBackend.bind (KeepsBackend.bind KeepsBackend.get fun s => KeepsBackend.ite
    (KeepsBackend.bind hclose fun _ => KeepsBackend.pure _) (KeepsBackend.pure _)) fun canSend => ?_
  refine KeepsBackend.ite ?_ (KeepsBackend.pure _)
  unfold sendReply
  split
  · exact keeps_sendJsonError _ _
  · exact KeepsBackend.ite (keeps_sendJsonError _ _)
      (KeepsBackend.bind keeps_printStderr fun _ => keeps_sendJsonError _ _)

theorem keeps_checkHeaders : KeepsBackend (checkHeaders server r method) := by
  have hclose : KeepsBackend (σ := σ) setCloseConnection := KeepsBackend.modify fun _ => rfl
  have hraise : KeepsBackend (σ := σ)
      (do setCloseConnection; throw invalidContentLength : Handling σ Unit) :=
    KeepsBackend.bind hclose fun _ => KeepsBackend.throw _
  refine KeepsBackend.ite ?_ ?_
  · refine KeepsBackend.ite hclose ?_
    split
    · exact KeepsBackend.pure _
    · split
      · exact hraise
      · exact KeepsBackend.ite hraise (KeepsBackend.ite hclose (KeepsBackend.pure _))
  · split
    · exact KeepsBackend.pure _
    · exact KeepsBackend.liftExcept _

theorem keeps_settimeout (timeout : Option ℚ) : KeepsBackend (σ := σ) (settimeout timeout) := by
  intro b s hs
  unfold settimeout
  rcases s.settimeouts with _ | ⟨_ | exc, rest⟩
  all_goals exact hs

theorem keeps_readOrTimeOut (length : Nat) : KeepsBackend (σ := σ) (readOrTimeOut length) := by
  intro b s hs
  unfold readOrTimeOut
  rcases read_cases length s with h | ⟨exc, h⟩
  · rw [h]
    exact hs
  · rw [h]
    dsimp only
    by_cases hexc : exc.kind = .timeoutError
    · rw [if_pos hexc]
      exact hs
    · rw [if_neg hexc]
      exact hs

theorem keeps_rawBody : KeepsBackend (rawBody server r method) := by
  refine KeepsBackend.ite (KeepsBackend.pure _) ?_
  refine KeepsBackend.bind (KeepsBackend.liftExcept _) fun length => ?_
  refine KeepsBackend.bind ?_ fun raw => KeepsBackend.bind ?_ fun _ => KeepsBackend.liftExcept _
  · refine KeepsBackend.ite (KeepsBackend.pure _) ?_
    split
    · exact keeps_readOrTimeOut length
    · exact KeepsBackend.bind KeepsBackend.get fun s => KeepsBackend.bind (keeps_settimeout _)
        fun _ b => finallyDo_spec (keeps_readOrTimeOut length b) (fun _ => keeps_settimeout _ b)
          (keeps_settimeout _ b)
  · exact KeepsBackend.ite (KeepsBackend.bind (KeepsBackend.modify fun _ => rfl) fun _ =>
      KeepsBackend.throw _) (KeepsBackend.pure _)

/-! ## Reading the body -/

/-- The calls of `settimeout` around the read do not raise. -/
def SocketAnswers (server : MotuProxyServer σ) (s : MotuProxyHandler σ) : Prop :=
  server.writeBodyReadTimeoutS = none ∨ ∀ exc, some exc ∉ s.settimeouts.take 2

/-- The body has the encoding `identity`, its announced length fits, it is read completely and it is
the UTF-8 of `text`. -/
structure BodyRead (server : MotuProxyServer σ) (r : HttpRequest) (s : MotuProxyHandler σ)
    (text : Str) : Prop where
  encoding : ∀ encoding, orElse (r.header (py "Transfer-Encoding")) none = some encoding →
    lower encoding = py "identity"
  read : ∃ n : Nat, contentLength (r.header (py "Content-Length")) = some (n : Int) ∧
    (n : Int) ≤ server.maxWriteBodyBytes ∧
    (n = 0 ∨ n ≤ s.arrived.length ∧ SocketAnswers server s) ∧
    utf8DecodeStrict (s.arrived.take n) = some text

theorem announcedLength_length_iff {n : Nat} :
    announcedLength.length server r = .ok n ↔
      contentLength (r.header (py "Content-Length")) = some (n : Int) ∧
      (n : Int) ≤ server.maxWriteBodyBytes := by
  unfold announcedLength.length
  cases contentLength (r.header (py "Content-Length")) with
  | none => simp
  | some length =>
    simp only [ite_error_eq_ok, Except.ok.injEq, Option.some.injEq, Int.not_lt]
    constructor
    · rintro ⟨hnonneg, hmax, rfl⟩
      exact ⟨(Int.toNat_of_nonneg hnonneg).symm, by rwa [Int.toNat_of_nonneg hnonneg]⟩
    · rintro ⟨rfl, hmax⟩
      exact ⟨Int.natCast_nonneg n, hmax, rfl⟩

theorem announcedLength_iff {n : Nat} :
    announcedLength server r = .ok n ↔
      (∀ encoding, orElse (r.header (py "Transfer-Encoding")) none = some encoding →
        lower encoding = py "identity") ∧
      contentLength (r.header (py "Content-Length")) = some (n : Int) ∧
      (n : Int) ≤ server.maxWriteBodyBytes := by
  unfold announcedLength
  cases orElse (r.header (py "Transfer-Encoding")) none with
  | none => simp [announcedLength_length_iff]
  | some encoding =>
    simp only [ite_error_eq_ok, announcedLength_length_iff, not_not, Option.some.injEq, forall_eq']

/-- A read of bytes that have all arrived. -/
theorem readOrTimeOut_ok {n : Nat} {s : MotuProxyHandler σ} (h : n ≤ s.arrived.length) :
    readOrTimeOut n s = .ok (s.arrived.take n)
      { s with arrived := s.arrived.drop n, consumed := s.consumed + (s.arrived.take n).length } := by
  have hread : read n s = .ok (s.arrived.take n)
      { s with arrived := s.arrived.drop n, consumed := s.consumed + (s.arrived.take n).length } :=
    if_pos (List.length_take_of_le h)
  rw [readOrTimeOut, hread]

theorem readOrTimeOut_eq_ok {n : Nat} {raw : Bytes} {s s' : MotuProxyHandler σ}
    (h : readOrTimeOut n s = .ok raw s') :
    raw = s.arrived.take n ∧ s'.settimeouts = s.settimeouts := by
  unfold readOrTimeOut at h
  rcases read_cases n s with hread | ⟨exc, hread⟩
  · rw [hread] at h
    cases h
    exact ⟨rfl, rfl⟩
  · rw [hread] at h
    dsimp only at h
    split at h <;> cases h

theorem settimeout_ok {timeout : Option ℚ} {s : MotuProxyHandler σ}
    (h : ∀ exc, s.settimeouts.head? ≠ some (some exc)) :
    settimeout timeout s = .ok () { s with settimeouts := s.settimeouts.tail, timeout } := by
  unfold settimeout
  split
  · next exc _ hexc => exact absurd (by rw [hexc]; rfl) (h exc)
  · rfl

theorem settimeout_eq_ok {timeout : Option ℚ} {u : Unit} {s s' : MotuProxyHandler σ}
    (h : settimeout timeout s = .ok u s') : (∀ exc, s.settimeouts.head? ≠ some (some exc)) ∧
      s' = { s with settimeouts := s.settimeouts.tail, timeout } := by
  unfold settimeout at h
  split at h
  · cases h
  · next hne =>
    cases h
    refine ⟨fun exc hexc => ?_, rfl⟩
    obtain ⟨rest, hrest⟩ := List.head?_eq_some_iff.1 hexc
    exact hne exc rest hrest

theorem finallyDo_ok {x : Handling σ α} {y : Handling σ Unit} {a : α} {u : Unit}
    {s s₁ s₂ : MotuProxyHandler σ} (hx : x s = .ok a s₁) (hy : y s₁ = .ok u s₂) :
    finallyDo x y s = .ok a s₂ := by
  rw [finallyDo, hx]
  dsimp only
  rw [hy]

theorem finallyDo_eq_ok {x : Handling σ α} {y : Handling σ Unit} {a : α} {s s' : MotuProxyHandler σ}
    (h : finallyDo x y s = .ok a s') : ∃ s₁ u, x s = .ok a s₁ ∧ y s₁ = .ok u s' := by
  unfold finallyDo at h
  cases hx : x s with
  | error exc s₁ =>
    simp only [hx] at h
    split at h <;> cases h
  | ok b s₁ =>
    simp only [hx] at h
    cases hy : y s₁ with
    | error exc s₂ =>
      simp only [hy] at h
      cases h
    | ok u s₂ =>
      simp only [hy] at h
      cases h
      exact ⟨s₁, u, rfl, hy⟩

theorem mem_take_two {α : Type} {x : α} {l : List α} :
    x ∈ l.take 2 ↔ l.head? = some x ∨ l.tail.head? = some x := by
  rcases l with _ | ⟨a, _ | ⟨b, l⟩⟩ <;> simp [eq_comm]

theorem readExactBodyBytes_ok {n : Nat} {s : MotuProxyHandler σ}
    (h : n = 0 ∨ n ≤ s.arrived.length ∧ SocketAnswers server s) :
    ∃ s', readExactBodyBytes server n s = .ok (s.arrived.take n) s' := by
  unfold readExactBodyBytes
  by_cases hn : n = 0
  · subst hn
    exact ⟨s, rfl⟩
  · obtain ⟨hlen, hsocket⟩ := h.resolve_left hn
    rw [if_neg hn]
    cases htimeout : server.writeBodyReadTimeoutS with
    | none => exact ⟨_, readOrTimeOut_ok hlen⟩
    | some timeoutS =>
      have hanswers := hsocket.resolve_left fun hnone => nomatch htimeout.symm.trans hnone
      have hfirst : settimeout (some timeoutS) s =
          .ok () { s with settimeouts := s.settimeouts.tail, timeout := some timeoutS } :=
        settimeout_ok fun exc hexc => hanswers exc (mem_take_two.2 (.inl hexc))
      exact ⟨_, (EStateM.bind_ok rfl).trans ((EStateM.bind_ok hfirst).trans
        (finallyDo_ok (readOrTimeOut_ok hlen)
          (settimeout_ok fun exc hexc => hanswers exc (mem_take_two.2 (.inr hexc)))))⟩

theorem readExactBodyBytes_eq_ok {n : Nat} {raw : Bytes} {s s' : MotuProxyHandler σ}
    (h : readExactBodyBytes server n s = .ok raw s') :
    raw = s.arrived.take n ∧ (n = 0 ∨ SocketAnswers server s) := by
  unfold readExactBodyBytes at h
  by_cases hn : n = 0
  · subst hn
    cases h
    exact ⟨rfl, .inl rfl⟩
  · rw [if_neg hn] at h
    cases htimeout : server.writeBodyReadTimeoutS with
    | none =>
      rw [htimeout] at h
      exact ⟨(readOrTimeOut_eq_ok h).1, .inr (.inl htimeout)⟩
    | some timeoutS =>
      rw [htimeout] at h
      obtain ⟨s₁, s₂, hget, h⟩ := EStateM.bind_eq_ok h
      cases hget
      obtain ⟨u, s₃, hfirst, h⟩ := EStateM.bind_eq_ok h
      obtain ⟨hhead, rfl⟩ := settimeout_eq_ok hfirst
      obtain ⟨s₄, v, hread, hsecond⟩ := finallyDo_eq_ok h
      obtain ⟨rfl, hrest⟩ := readOrTimeOut_eq_ok hread
      have htail := (settimeout_eq_ok hsecond).1
      rw [hrest] at htail
      refine ⟨rfl, .inr (.inr fun exc hexc => ?_)⟩
      exact (mem_take_two.1 hexc).elim (hhead exc) (htail exc)

theorem readRawBody_iff {text : Str} {s : MotuProxyHandler σ} :
    (∃ s', readRawBody server r s = .ok text s') ↔ BodyRead server r s text := by
  constructor
  · rintro ⟨s', h⟩
    obtain ⟨n, s₁, hlift, h₁⟩ := EStateM.bind_eq_ok h
    have hn : announcedLength server r = .ok n ∧ s₁ = s := by
      cases hlength : announcedLength server r with
      | error exc => rw [hlength] at hlift; cases hlift
      | ok n' => rw [hlength] at hlift; cases hlift; exact ⟨rfl, rfl⟩
    obtain ⟨hn, rfl⟩ := hn
    obtain ⟨hencoding, hlength, hmax⟩ := announcedLength_iff.1 hn
    obtain ⟨raw, s₂, hread, h₂⟩ := EStateM.bind_eq_ok h₁
    obtain ⟨rfl, hsocket⟩ := readExactBodyBytes_eq_ok hread
    obtain ⟨u, s₃, hcomplete, h₃⟩ := EStateM.bind_eq_ok h₂
    have hlen : (s₁.arrived.take n).length = n := by
      by_contra hne
      rw [checkComplete, if_pos hne] at hcomplete
      cases hcomplete
    refine ⟨hencoding, n, hlength, hmax, hsocket.imp_right fun hsocket => ⟨?_, hsocket⟩, ?_⟩
    · rw [← hlen, List.length_take]
      exact Nat.min_le_right _ _
    · cases hdecode : utf8DecodeStrict (s₁.arrived.take n) with
      | none => rw [decodeBody, hdecode] at h₃; cases h₃
      | some text' => rw [decodeBody, hdecode] at h₃; cases h₃; rfl
  · rintro ⟨hencoding, n, hlength, hmax, hread, hdecode⟩
    obtain ⟨s₁, hs₁⟩ := readExactBodyBytes_ok hread
    have hlen : (s.arrived.take n).length = n := by
      rcases hread with rfl | ⟨hle, -⟩
      · rfl
      · exact List.length_take_of_le hle
    have hcomplete : checkComplete (s.arrived.take n) n s₁ = .ok () s₁ := by
      rw [checkComplete, if_neg (not_not_intro hlen)]
      rfl
    refine ⟨s₁, ?_⟩
    rw [readRawBody, announcedLength_iff.2 ⟨hencoding, hlength, hmax⟩]
    refine (EStateM.bind_ok rfl).trans ((EStateM.bind_ok hs₁).trans ?_)
    refine (EStateM.bind_ok hcomplete).trans ?_
    rw [decodeBody, hdecode]
    rfl

/-! ## The whole request -/

/-- The server around a dispatcher whose calls of `run_post` are recorded. -/
def recording (server : MotuProxyServer σ) (d : DatastoreDispatcher σ) :
    MotuProxyServer (σ × List WriteCall) :=
  { server with dispatcher := d.recorded.toDispatcher }

/-- The handler before any call of `run_post`. -/
def unrecorded (s : MotuProxyHandler σ) : MotuProxyHandler (σ × List WriteCall) :=
  { s with backend := (s.backend, []) }

/-- The calls of `run_post` while a request is handled. -/
def runPostCalls (server : MotuProxyServer σ) (d : DatastoreDispatcher σ) (r : HttpRequest)
    (method : Method) (s : MotuProxyHandler σ) : List WriteCall :=
  (finalState (handleDatastoreRequest (recording server d) r method s.unrecorded)).backend.2

/-- The text that is dispatched, if the request comes so far. -/
def dispatchedText (server : MotuProxyServer σ) (r : HttpRequest) (method : Method)
    (s : MotuProxyHandler σ) : Option Str :=
  match checkHeaders server r method s with
  | .error _ _ => none
  | .ok _ s => match rawBody server r method s with
    | .error _ _ => none
    | .ok text _ => some text

section
variable {d : DatastoreDispatcher σ} {s : MotuProxyHandler σ}

theorem dispatch_final (args : DispatchArgs) (s : MotuProxyHandler σ) :
    (finalState (dispatch server args s)).backend =
      finalState (server.dispatcher.dispatch args s.backend) := by
  unfold dispatch
  cases server.dispatcher.dispatch args s.backend <;> rfl

/-- The calls of `run_post` are those of the dispatch. -/
theorem respond_made {s : MotuProxyHandler (σ × List WriteCall)} (hs : s.backend.2 = []) :
    (finalState (respond (recording server d) r method s)).backend.2 =
      ((dispatchedText (recording server d) r method s).map fun text =>
        d.callsOf (dispatchArgs r method text)).getD [] := by
  unfold dispatchedText
  cases h₁ : checkHeaders (recording server d) r method s with
  | error exc s₁ =>
    rw [respond, EStateM.bind_error h₁]
    exact (congrArg Prod.snd (keeps_checkHeaders.error h₁)).trans hs
  | ok u s₁ =>
    have hs₁ : s₁.backend.2 = [] := (congrArg Prod.snd (keeps_checkHeaders.ok h₁)).trans hs
    rw [respond, EStateM.bind_ok h₁]
    dsimp only
    cases h₂ : rawBody (recording server d) r method s₁ with
    | error exc s₂ =>
      rw [EStateM.bind_error h₂]
      exact (congrArg Prod.snd (keeps_rawBody.error h₂)).trans hs₁
    | ok text s₂ =>
      have hs₂ : s₂.backend.2 = [] := (congrArg Prod.snd (keeps_rawBody.ok h₂)).trans hs₁
      rw [EStateM.bind_ok h₂]
      have hcalls : (finalState (dispatch (recording server d) (dispatchArgs r method text)
          s₂)).backend.2 = d.callsOf (dispatchArgs r method text) := by
        rw [dispatch_final]
        exact d.dispatchDatastoreRequest_made.finalState (s := s₂.backend) hs₂
      cases h₃ : dispatch (recording server d) (dispatchArgs r method text) s₂ with
      | error exc s₃ =>
        rw [h₃] at hcalls
        rw [EStateM.bind_error h₃]
        exact hcalls
      | ok result s₃ =>
        rw [h₃] at hcalls
        rw [EStateM.bind_ok h₃]
        rw [(keeps_sendResult result s₃.backend).finalState rfl]
        exact hcalls

/-- Handling an exception makes no call of `run_post`. -/
theorem runPostCalls_eq :
    runPostCalls server d r method s =
      ((dispatchedText (recording server d) r method
        { s.unrecorded with responseStarted := false }).map fun text =>
          d.callsOf (dispatchArgs r method text)).getD [] := by
  rw [← respond_made rfl, runPostCalls, handleDatastoreRequest]
  cases h : respond (recording server d) r method { s.unrecorded with responseStarted := false } with
  | ok u s₁ => rfl
  | error exc s₁ =>
    dsimp only
    rw [(keeps_handleError exc s₁.backend).finalState rfl]
    rfl

/-- When a write is handed to `run_post`, and what it gets. -/
structure WriteAllowed (server : MotuProxyServer σ) (d : DatastoreDispatcher σ) (r : HttpRequest)
    (s : MotuProxyHandler σ) (call : WriteCall) : Prop where
  path : ∃ url, urlparse r.path true = some url ∧ normalizePath url.path = .ok call.path
  client : parseClientQuery r.path = .ok call.client
  headers : d.HeadersAllowed (r.header (py "Origin")) (r.header (py "Host")) (readWriteToken r)
  body : ∃ text, BodyRead server r s text ∧
    d.BodyAllowed text ((r.header (py "Content-Type")).getD []) call

theorem dispatchedText_write (hm : method ≠ .GET) {text : Str} :
    dispatchedText (recording server d) r method { s.unrecorded with responseStarted := false } =
      some text ↔
      d.HeadersAllowed (r.header (py "Origin")) (r.header (py "Host")) (readWriteToken r) ∧
      BodyRead server r s text := by
  have hbody : (∃ s', readRawBody (recording server d) r
      { s.unrecorded with responseStarted := false } = .ok text s') ↔ BodyRead server r s text :=
    readRawBody_iff.trans ⟨fun h => ⟨h.encoding, h.read⟩, fun h => ⟨h.encoding, h.read⟩⟩
  have hcheck : checkHeaders (recording server d) r method
      { s.unrecorded with responseStarted := false } =
      liftExcept (d.validateWriteHeaders method (r.header (py "Origin")) (r.header (py "Host"))
        (readWriteToken r)) { s.unrecorded with responseStarted := false } := by
    rw [checkHeaders, if_neg hm]
    rfl
  rw [← hbody, ← DatastoreDispatcher.validateWriteHeaders_eq_ok hm, dispatchedText, hcheck]
  cases d.validateWriteHeaders method (r.header (py "Origin")) (r.header (py "Host"))
      (readWriteToken r) with
  | error exc => simp [liftExcept, throw_eq]
  | ok u =>
    have hraw : rawBody (recording server d) r method = readRawBody (recording server d) r :=
      if_neg hm
    simp only [liftExcept, pure, EStateM.pure, hraw, true_and]
    cases readRawBody (recording server d) r { s.unrecorded with responseStarted := false } <;> simp

theorem mem_callsOf_write (hm : method ≠ .GET) {text : Str} {call : WriteCall} :
    call ∈ d.callsOf (dispatchArgs r method text) ↔
      (∃ url, urlparse r.path true = some url ∧ normalizePath url.path = .ok call.path) ∧
      parseClientQuery r.path = .ok call.client ∧
      d.HeadersAllowed (r.header (py "Origin")) (r.header (py "Host")) (readWriteToken r) ∧
      d.BodyAllowed text ((r.header (py "Content-Type")).getD []) call := by
  have hm' : (dispatchArgs r method text).method ≠ .GET := hm
  have htoken : (dispatchArgs r method text).requestToken = readWriteToken r := if_neg hm
  have h := @DatastoreDispatcher.preparedCall_eq_ok σ d (dispatchArgs r method text) call hm'
  rw [htoken] at h
  refine Iff.trans ?_ h
  rw [DatastoreDispatcher.callsOf, if_neg hm']
  cases d.preparedCall (dispatchArgs r method text) <;> simp [Except.toOption, eq_comm]

theorem mem_runPostCalls (hm : method ≠ .GET) {call : WriteCall} :
    call ∈ runPostCalls server d r method s ↔ WriteAllowed server d r s call := by
  rw [runPostCalls_eq]
  constructor
  · intro h
    cases htext : dispatchedText (recording server d) r method
        { s.unrecorded with responseStarted := false } with
    | none =>
      rw [htext] at h
      cases h
    | some text =>
      rw [htext] at h
      obtain ⟨hheaders, hread⟩ := (dispatchedText_write hm).1 htext
      obtain ⟨hpath, hclient, -, hbody⟩ := (mem_callsOf_write hm).1 h
      exact ⟨hpath, hclient, hheaders, text, hread, hbody⟩
  · rintro ⟨hpath, hclient, hheaders, text, hread, hbody⟩
    rw [(dispatchedText_write hm).2 ⟨hheaders, hread⟩]
    exact (mem_callsOf_write hm).2 ⟨hpath, hclient, hheaders, hbody⟩

end

end MotuProxyHandler

end MotuProxy
