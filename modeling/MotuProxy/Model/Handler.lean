import Mathlib.Data.Rat.Init
import MotuProxy.Model.Parser

/-! # One HTTP request on a connection (`MotuProxyHandler` of `http_server.py`)

The state of the handler holds its mutable attributes, the local variable `response_started` of
`handle_datastore_request`, and the socket. The socket is a script: `arrived` are the bytes that
follow the request's headers, `streamEnd` says what a read that wants more than these does, and
`sends`, `settimeouts` and `stderr` are the outcomes of the coming calls; a script that has run out
succeeds. The dispatcher is a parameter with a state of its own.

`BaseHTTPRequestHandler` is embedded as far as the handler uses it. The status line and the header
fields are collected in `_headers_buffer` and sent by `end_headers`; a request whose version is
`HTTP/0.9` gets neither. What is sent is a list of items, so a status line is an item and not a run
of bytes.
-/

namespace MotuProxy

open Py Responses

inductive Method where
  | GET | POST | PATCH
  deriving DecidableEq, Repr

structure DispatchResult where
  response : Bytes
  path : Str
  etag : Option Str := none
  status : Nat := 200
  contentType : Option Str := none
  deriving DecidableEq, Repr

structure DispatchArgs where
  method : Method
  requestPath : Str
  rawBody : Str := []
  contentType : Str := []
  origin : Option Str := none
  host : Option Str := none
  requestToken : Option Str := none
  ifNoneMatch : Option Str := none
  deriving DecidableEq, Repr

/-- `server.dispatcher`: `validate_write_headers`, which it may lack, takes the method, the origin,
the host and the token. -/
structure Dispatcher (σ : Type) where
  validateWriteHeaders : Option (Method → Option Str → Option Str → Option Str → Except Exn Unit)
  dispatch : DispatchArgs → EStateM Exn σ DispatchResult

/-- The text can be encoded as ISO-8859-1. -/
def isLatin1 (s : Str) : Bool := s.all (· < 0x100)

structure MotuProxyServer (σ : Type) where
  debug : Bool
  maxWriteBodyBytes : Int
  writeBodyReadTimeoutS : Option ℚ
  versionString : Str
  dateTimeString : Str
  dispatcher : Dispatcher σ
  version_latin1 : isLatin1 versionString
  date_latin1 : isLatin1 dateTimeString

/-- What `parse_request` has read. -/
structure HttpRequest where
  requestVersion : Str
  path : Str
  headers : List (Str × Str)
  deriving DecidableEq, Repr

/-- `headers.get(name)`: the first field of that name. -/
def HttpRequest.header (r : HttpRequest) (name : Str) : Option Str :=
  (r.headers.find? fun field => lower field.1 = lower name).map (·.2)

/-! ## The socket -/

/-- What is sent: a status line, a header field, the blank line after the header, or data. -/
inductive Item where
  | status (code : Nat)
  | header (keyword value : Str)
  | blank
  | data (bytes : Bytes)
  deriving DecidableEq, Repr

/-- What a read does that wants more bytes than arrive. -/
inductive StreamEnd where
  | eof
  | raises (exc : Exn)
  deriving DecidableEq, Repr

/-- The outcome of `wfile.write`: an exception comes after some number of items or bytes were sent. -/
inductive SendEvent where
  | sent
  | raises (exc : Exn) (before : Nat)
  deriving DecidableEq, Repr

structure MotuProxyHandler (σ : Type) where
  closeConnection : Bool
  arrived : Bytes
  streamEnd : StreamEnd
  consumed : Nat := 0
  timeout : Option ℚ := none
  settimeouts : List (Option Exn) := []
  sends : List SendEvent := []
  stderr : List (Option Exn) := []
  headersBuffer : List Item := []
  wfile : List Item := []
  responseStarted : Bool := false
  backend : σ

/-- A method of the handler. -/
abbrev Handling (σ : Type) := EStateM Exn (MotuProxyHandler σ)

namespace MotuProxyHandler

variable {σ : Type}

/-- `connection.settimeout`. -/
def settimeout (timeout : Option ℚ) : Handling σ Unit := fun s =>
  let s' := { s with settimeouts := s.settimeouts.tail }
  match s.settimeouts with
  | some exc :: _ => .error exc s'
  | _ => .ok () { s' with timeout }

/-- `print(.., file=sys.stderr)`; only whether it raises matters. -/
def printStderr : Handling σ Unit := fun s =>
  let s' := { s with stderr := s.stderr.tail }
  match s.stderr with
  | some exc :: _ => .error exc s'
  | _ => .ok () s'

/-- `wfile.write` of the collected header. -/
def writeItems (items : List Item) : Handling σ Unit := fun s =>
  let s' := { s with sends := s.sends.tail }
  match s.sends with
  | .raises exc before :: _ => .error exc { s' with wfile := s.wfile ++ items.take before }
  | _ => .ok () { s' with wfile := s.wfile ++ items }

/-- `wfile.write` of a body. -/
def writeData (bytes : Bytes) : Handling σ Unit := fun s =>
  let s' := { s with sends := s.sends.tail }
  match s.sends with
  | .raises exc before :: _ => .error exc { s' with wfile := s.wfile ++ [.data (bytes.take before)] }
  | _ => .ok () { s' with wfile := s.wfile ++ [.data bytes] }

/-- `rfile.read(length)`. -/
def read (length : Nat) : Handling σ Bytes := fun s =>
  let raw := s.arrived.take length
  let s' := { s with arrived := s.arrived.drop length, consumed := s.consumed + raw.length }
  if raw.length = length then .ok raw s'
  else match s.streamEnd with
    | .eof => .ok raw s'
    | .raises exc => .error exc s'

def setCloseConnection : Handling σ Unit := modify fun s => { s with closeConnection := true }

/-! ## `BaseHTTPRequestHandler` -/

section
variable (server : MotuProxyServer σ) (r : HttpRequest)

def HTTP_0_9 : Str := py "HTTP/0.9"

/-- `log_request`, through the overridden `log_message`. -/
def logRequest : Handling σ Unit := if server.debug then printStderr else pure ()

/-- Append to `_headers_buffer`, unless the version has no header. -/
def buffer (item : Item) : Handling σ Unit := modify fun s =>
  if r.requestVersion = HTTP_0_9 then s else { s with headersBuffer := s.headersBuffer ++ [item] }

/-- `send_response_only`. -/
def sendResponseOnly (code : Nat) : Handling σ Unit := buffer r (.status code)

def latin1EncodeError : Exn := ⟨.unicodeEncodeError, py "ordinal not in range(256)"⟩

/-- `.encode("latin-1", "strict")` of a field, unless the version has no header. -/
def checkEncodable (keyword value : Str) : Handling σ Unit :=
  if r.requestVersion = HTTP_0_9 ∨ (isLatin1 keyword ∧ isLatin1 value) then pure ()
  else throw latin1EncodeError

/-- What `send_header` does besides collecting the field. -/
def noteConnection (keyword value : Str) : Handling σ Unit := modify fun s =>
  if lower keyword = py "connection" then
    if lower value = py "close" then { s with closeConnection := true }
    else if lower value = py "keep-alive" then { s with closeConnection := false }
    else s
  else s

/-- `send_header`. -/
def sendHeader (keyword value : Str) : Handling σ Unit := do
  checkEncodable r keyword value
  buffer r (.header keyword value)
  noteConnection keyword value

/-- `send_response`. -/
def sendResponse (code : Nat) : Handling σ Unit := do
  logRequest server
  sendResponseOnly r code
  sendHeader r (py "Server") server.versionString
  sendHeader r (py "Date") server.dateTimeString

/-- Several calls of `send_header`. -/
def sendHeaders : List (Str × Str) → Handling σ Unit
  | [] => pure ()
  | (keyword, value) :: fields => do sendHeader r keyword value; sendHeaders fields

/-- `flush_headers`. -/
def flushHeaders : Handling σ Unit := do
  writeItems (← get).headersBuffer
  modify fun s => { s with headersBuffer := [] }

/-- `end_headers`. -/
def endHeaders : Handling σ Unit :=
  if r.requestVersion = HTTP_0_9 then pure () else do buffer r .blank; flushHeaders

/-- `if getattr(self, "close_connection", False): self.send_header("Connection", "close")`. -/
def sendConnection : Handling σ Unit := do
  if (← get).closeConnection then sendHeader r (py "Connection") (py "close") else pure ()

end

/-! ## Reading the request -/

section
variable (server : MotuProxyServer σ) (r : HttpRequest)

def badRequest (message : Str) : Exn := ⟨.badRequest, message⟩

def invalidContentLength : Exn := badRequest (py "invalid Content-Length")

/-- `int(content_length or "0")`. -/
def contentLength (text : Option Str) : Option Int :=
  int10 ((orElse text none).getD (py "0"))

def closeGetConnectionIfBodyAnnounced : Handling σ Unit :=
  if (orElse (r.header (py "Transfer-Encoding")) none).isSome then setCloseConnection
  else match r.header (py "Content-Length") with
    | none => pure ()
    | some text => match contentLength (some text) with
      | none => do setCloseConnection; throw invalidContentLength
      | some length =>
        if length < 0 then do setCloseConnection; throw invalidContentLength
        else if 0 < length then setCloseConnection
        else pure ()

def WRITE_TOKEN_HEADER : Str := py "X-Motu-Proxy-Token"

def readWriteToken : Option Str :=
  match orElse (r.header WRITE_TOKEN_HEADER) none with
  | some token => some (strip token)
  | none =>
    let (scheme, _, value) := partition 0x20 ((r.header (py "Authorization")).getD [])
    if lower scheme = py "bearer" ∧ value ≠ [] then some (strip value) else none

/-- The `try` of `_read_exact_body_bytes`. -/
def readOrTimeOut (length : Nat) : Handling σ Bytes := fun s =>
  match read length s with
  | .ok raw s => .ok raw s
  | .error exc s =>
    if exc.kind = .timeoutError then
      .error ⟨.requestBodyTimeout, py "request body read timed out"⟩ { s with closeConnection := true }
    else .error exc s

/-- `try: x finally: y`. -/
def finallyDo (x : Handling σ α) (y : Handling σ Unit) : Handling σ α := fun s =>
  match x s with
  | .ok a s => match y s with
    | .ok _ s => .ok a s
    | .error exc s => .error exc s
  | .error exc s => match y s with
    | .ok _ s => .error exc s
    | .error exc s => .error exc s

/-- `_read_exact_body_bytes`; a handler has a `connection`. -/
def readExactBodyBytes (length : Nat) : Handling σ Bytes :=
  if length = 0 then pure []
  else match server.writeBodyReadTimeoutS with
    | none => readOrTimeOut length
    | some timeoutS => do
      let previousTimeout := (← get).timeout
      settimeout (some timeoutS)
      finallyDo (readOrTimeOut length) (settimeout previousTimeout)

/-- The length that a write announces, once its framing is accepted. -/
def announcedLength : Except Exn Nat :=
  match orElse (r.header (py "Transfer-Encoding")) none with
  | some encoding =>
    if lower encoding ≠ py "identity" then
      .error (badRequest (py "Transfer-Encoding is not supported"))
    else length
  | none => length
where
  length : Except Exn Nat :=
    match contentLength (r.header (py "Content-Length")) with
    | none => .error invalidContentLength
    | some length =>
      if length < 0 then .error invalidContentLength
      else if server.maxWriteBodyBytes < length then
        .error ⟨.requestBodyTooLarge, py "request body exceeds " ++ strInt server.maxWriteBodyBytes ++
          py " bytes"⟩
      else .ok length.toNat

def liftExcept : Except Exn α → Handling σ α
  | .ok a => pure a
  | .error exc => throw exc

def decodeBody (raw : Bytes) : Except Exn Str :=
  match utf8DecodeStrict raw with
  | some text => .ok text
  | none => .error (badRequest (py "request body must be valid UTF-8"))

/-- `if len(raw) != length`. -/
def checkComplete (raw : Bytes) (length : Nat) : Handling σ Unit :=
  if raw.length ≠ length then do
    setCloseConnection
    throw (badRequest (py "request body ended before Content-Length bytes"))
  else pure ()

def readRawBody : Handling σ Str := do
  let length ← liftExcept (announcedLength server r)
  let raw ← readExactBodyBytes server length
  checkComplete raw length
  liftExcept (decodeBody raw)

end

/-! ## `handle_datastore_request` -/

section
variable (server : MotuProxyServer σ) (r : HttpRequest) (method : Method)

/-- What is done before the body is read. -/
def checkHeaders : Handling σ Unit :=
  if method = .GET then closeGetConnectionIfBodyAnnounced r
  else match server.dispatcher.validateWriteHeaders with
    | none => pure ()
    | some validator => liftExcept (validator method (r.header (py "Origin")) (r.header (py "Host"))
        (readWriteToken r))

/-- `self.read_raw_body() if method != "GET" else ""`. -/
def rawBody : Handling σ Str := if method = .GET then pure [] else readRawBody server r

def dispatchArgs (rawBody : Str) : DispatchArgs where
  method
  requestPath := r.path
  rawBody
  contentType := (r.header (py "Content-Type")).getD []
  origin := r.header (py "Origin")
  host := r.header (py "Host")
  requestToken := if method = .GET then none else readWriteToken r
  ifNoneMatch := if method = .GET then r.header (py "If-None-Match") else none

/-- `self.server.dispatcher.dispatch(..)`. -/
def dispatch (args : DispatchArgs) : Handling σ DispatchResult := fun s =>
  match server.dispatcher.dispatch args s.backend with
  | .ok result backend => .ok result { s with backend }
  | .error exc backend => .error exc { s with backend }

def resultBody (result : DispatchResult) : Bytes :=
  if result.status = 304 then [] else result.response

/-- `if method == "GET" and result.etag is not None`. -/
def etagFields : Option Str → List (Str × Str)
  | some etag => if method = .GET then [(py "ETag", etag)] else []
  | none => []

/-- The header fields of a result that do not depend on the connection. -/
def resultHeaders (result : DispatchResult) : List (Str × Str) :=
  let body := resultBody result
  (if result.status ≠ 304 then
    [(py "Content-Type", (orElse result.contentType none).getD (datastoreBodyContentType body))]
  else []) ++
  [(py "Cache-Control", py "no-cache")] ++
  etagFields method result.etag ++
  (if result.status ≠ 304 then [(py "Content-Length", strNat body.length)] else [])

/-- `if body: self.wfile.write(body)`. -/
def writeBody (body : Bytes) : Handling σ Unit := if body = [] then pure () else writeData body

def startResponse : Handling σ Unit := modify fun s => { s with responseStarted := true }

def sendResult (result : DispatchResult) : Handling σ Unit := do
  sendResponse server r result.status
  startResponse
  sendHeaders r (resultHeaders method result)
  sendConnection r
  endHeaders r
  writeBody (resultBody result)

/-- The `try` of `handle_datastore_request`. -/
def respond : Handling σ Unit := do
  checkHeaders server r method
  let rawBody ← rawBody server r method
  let result ← dispatch server (dispatchArgs r method rawBody)
  sendResult server r method result

def closeWriteConnection : Handling σ Unit :=
  if method = .GET then pure () else setCloseConnection

def canSendErrorResponse : Handling σ Bool := do
  if (← get).responseStarted then do
    setCloseConnection
    return false
  else return true

/-- The text of `json.dumps` for one code point; what it prints is ASCII. -/
def dumpsChar (c : Nat) : Str :=
  if c = 0x22 then py "\\\""
  else if c = 0x5C then py "\\\\"
  else if c = 0x0A then py "\\n"
  else if c = 0x0D then py "\\r"
  else if c = 0x09 then py "\\t"
  else if c = 0x0C then py "\\f"
  else if c = 0x08 then py "\\b"
  else if 0x20 ≤ c ∧ c ≤ 0x7E then [c]
  else if c < 0x10000 then py "\\u" ++ strHex 4 c
  else
    let v := c - 0x10000
    py "\\u" ++ strHex 4 (0xD800 + v / 0x400) ++ py "\\u" ++ strHex 4 (0xDC00 + v % 0x400)

/-- `json.dumps({"error": message}).encode("utf-8")`. -/
def errorBody (message : Str) : Bytes :=
  (py "\x7b\"error\": \"" ++ message.flatMap dumpsChar ++ py "\"\x7d").map UInt8.ofNat

def errorHeaders (body : Bytes) : List (Str × Str) :=
  [(py "Content-Type", py "application/json"), (py "Content-Length", strNat body.length)]

def sendJsonError (status : Nat) (message : Str) : Handling σ Unit := do
  sendResponse server r status
  sendHeaders r (errorHeaders (errorBody message))
  sendConnection r
  endHeaders r
  writeData (errorBody message)

def sendBackendError (status : Nat) (publicMessage : Str) (exc : Exn) : Handling σ Unit :=
  if server.debug then sendJsonError server r status exc.message
  else do
    printStderr
    sendJsonError server r status publicMessage

/-- How an `except` branch answers: with the text of the exception or as a backend error. -/
inductive Reply where
  | json (status : Nat)
  | backend (status : Nat) (publicMessage : Str)
  deriving DecidableEq, Repr

/-- The `except` branches. -/
def replyTo : ExnKind → Reply
  | .writesDisabled | .crossOriginWrite | .hostNotAllowed | .writeTokenRequired
  | .datastorePermissionError => .json 403
  | .datastoreValidationError => .json 422
  | .requestBodyTooLarge => .json 413
  | .protocolFrameTooLarge => .json 413
  | .requestBodyTimeout => .json 408
  | .badRequest | .invalidJsonBody => .json 400
  | .datastoreDeviceUnavailable | .deviceDiscoveryError _ | .noDeviceFound
  | .noControlInterfaceFound | .multipleDevicesFound =>
    .backend 503 (py "MOTU USB device is not available")
  | .datastoreNoResponse | .datastoreTimeout =>
    .backend 504 (py "MOTU USB datastore did not respond")
  | .responseFrameError | .datastoreResponseLimit | .shortUsbFrame | .shortUsbWrite =>
    .backend 502 (py "MOTU USB datastore returned an invalid response")
  | _ => .backend 502 (py "MOTU USB datastore request failed")

def sendReply (exc : Exn) : Handling σ Unit :=
  match replyTo exc.kind with
  | .json status => sendJsonError server r status exc.message
  | .backend status publicMessage => sendBackendError server r status publicMessage exc

def handleError (exc : Exn) : Handling σ Unit := do
  closeWriteConnection method
  if ← canSendErrorResponse then sendReply server r exc else pure ()

def handleDatastoreRequest : Handling σ Unit := fun s =>
  match respond server r method { s with responseStarted := false } with
  | .ok _ s => .ok () s
  | .error exc s => handleError server r method exc s

end

end MotuProxyHandler

end MotuProxy
