import MotuProxy.Model.Handler
import MotuProxy.Model.Protocol
import MotuProxy.Model.Schema

/-! # Dispatching a request (`http_server.py`, `json_body.py`)

`run_get`, `run_post`, `log_write` and `status_provider` are parameters that act on a state of
their own. Everything that `dispatch_datastore_request` does with a write before it logs it is
`prepareWrite`, which has no effect. `recursionDepth` is the number of recursive calls that the
interpreter allows when a body is decoded.
-/

namespace MotuProxy

open Py Protocol Responses Paths Schema
open MotuProxyHandler (badRequest)

namespace Dispatch

/-! ## The body of a write -/

def invalidJsonBody (message : Str) : Exn := ⟨.invalidJsonBody, message⟩

/-- The exception of `json.loads`, as `load_json_object` passes it on. -/
def jsonExn (doc : Str) : JsonError → Exn
  | .decode msg rest =>
    invalidJsonBody (py "write body must be valid JSON: " ++ decodeErrorText doc msg rest)
  | .valueError msg => invalidJsonBody (py "write body must be valid JSON: " ++ msg)
  | .recursionError msg => ⟨.recursionError, msg⟩
  | .exhausted => ⟨.runtimeError, []⟩

/-- The members of the object that a body is, as they are written. -/
def loadMembers (depth : Nat) (body : Str) : Except Exn (List (Str × Json)) :=
  match loads depth body with
  | .error e => .error (jsonExn body e)
  | .ok (.obj members) => .ok members
  | .ok _ => .error (invalidJsonBody (py "write body must be a JSON object"))

def loadJsonObject (depth : Nat) (body : Str) : Except Exn (List (Str × Json)) :=
  (loadMembers depth body).map dict

def invalidUtf8Body : Exn := badRequest (py "request body must be valid UTF-8")

def parseWriteBody (raw contentType : Str) : Except Exn Str :=
  if contains (py "application/x-www-form-urlencoded") contentType ∨ (py "json=").isPrefixOf raw then
    match parseQsl none raw with
    | none => .error invalidUtf8Body
    | some fields => .ok ((firstValue (py "json") fields).getD raw)
  else .ok raw

/-! ## The query -/

def MAX_CLIENT_ID : Nat := 0xFFFFFFFF

def STATUS_PATH : Str := py "/__motu_proxy/status"

def invalidClient : Exn := badRequest (py "client must be a 32-bit unsigned integer")

def validateClientQueryValue (value : Str) : Except Exn Str :=
  let value := strip value
  if !isDecimal value then .error invalidClient
  else match int10 value with
    | none => .error ⟨.valueError, py "Exceeds the limit for integer string conversion"⟩
    | some client => if MAX_CLIENT_ID < client then .error invalidClient else .ok (strInt client)

/-- `urlparse(request_path)`. -/
def parseRequestPath (requestPath : Str) : Except Exn Url :=
  match urlparse requestPath true with
  | some url => .ok url
  | none => .error invalidUrl

def parseClientQuery (requestPath : Str) : Except Exn (Option Str) := do
  let url ← parseRequestPath requestPath
  match firstValue (py "client") ((parseQsl (some [0xFFFD]) url.query).getD []) with
  | none => return none
  | some value => return some (← validateClientQueryValue value)

/-- The loop of `parse_get_query_fields`. -/
def getQueryFields : List (Str × Str) → List (Str × Str) → Option Str →
    Except Exn (List (Str × Str) × Option Str)
  | [], fields, client => .ok (fields, client)
  | (name, value) :: pairs, fields, client =>
    if name = [] then .error (badRequest (py "query field name must not be empty"))
    else if name = py "client" then do
      let value ← validateClientQueryValue value
      if client.isSome then .error (badRequest (py "client query field must not be repeated"))
      else getQueryFields pairs (fields ++ [(name, value)]) (some value)
    else getQueryFields pairs (fields ++ [(name, value)]) client

def parseGetQueryFields (requestPath : Str) : Except Exn (List (Str × Str) × Option Str) := do
  let url ← parseRequestPath requestPath
  match parseQsl none url.query with
  | none => .error (badRequest (py "query string must be valid UTF-8"))
  | some pairs => getQueryFields pairs [] none

/-! ## Who may write -/

/-- `_origin_matches_host`. -/
def originMatchesHost (origin host : Str) : Except Exn Bool := do
  let parsed ← parseRequestPath origin
  return parsed.scheme = py "http" ∧ parsed.netloc ≠ [] ∧ lower parsed.netloc = lower host

/-- `_host_name`. -/
def hostName (host : Option Str) : Except Exn Str :=
  match orElse host none with
  | none => .ok []
  | some host => match urlparse (py "//" ++ host) false with
    | none => .error invalidUrl
    | some parsed => .ok (lower (parsed.hostname.getD []))

/-- `_is_loopback_host`. -/
def isLoopbackHost (host : Option Str) : Except Exn Bool :=
  (hostName host).map fun name =>
    if name = py "localhost" then true
    else match ipAddress name with
      | some address => address.isLoopback
      | none => false

def hostNotAllowed : Exn := ⟨.hostNotAllowed, py "write requests require a loopback Host header"⟩

def crossOriginWrite : Exn := ⟨.crossOriginWrite, py "cross-origin writes are blocked"⟩

def writeTokenRequired : Exn := ⟨.writeTokenRequired, py "valid write token required"⟩

def writesDisabled : Exn := ⟨.writesDisabled, py "writes require --allow-writes"⟩

def validateWriteHost (method : Method) (allowWrites : Bool) (host : Option Str)
    (allowRemoteWrites : Bool) : Except Exn Unit :=
  if method = .GET ∨ !allowWrites ∨ allowRemoteWrites then .ok ()
  else do require (← isLoopbackHost host) hostNotAllowed

def validateWriteOrigin (method : Method) (allowWrites : Bool) (origin host : Option Str) :
    Except Exn Unit :=
  match orElse origin none with
  | none => .ok ()
  | some origin =>
    if method = .GET ∨ !allowWrites then .ok ()
    else if origin = py "null" then .error crossOriginWrite
    else match orElse host none with
      | none => .error crossOriginWrite
      | some host => do require (← originMatchesHost origin host) crossOriginWrite

/-- `_token_bytes`. -/
def tokenBytes (token : Str) : Except Exn Bytes :=
  match utf8EncodeEscape token with
  | some bytes => .ok bytes
  | none => .error unicodeEncodeError

def validateWriteToken (method : Method) (allowWrites : Bool) (expectedToken requestToken : Option Str) :
    Except Exn Unit :=
  match expectedToken with
  | none => .ok ()
  | some expected =>
    if method = .GET ∨ !allowWrites then .ok ()
    else match orElse requestToken none with
      | none => .error writeTokenRequired
      | some token => do
        require ((← tokenBytes expected) = (← tokenBytes token)) writeTokenRequired

/-! ## The dispatcher -/

/-- What `run_get` and `run_post` return. -/
inductive RawPayload where
  | bytes (body : Bytes)
  | payload (p : DatastorePayload)
  deriving DecidableEq, Repr

/-- `_coerce_datastore_payload`. -/
def coerceDatastorePayload : RawPayload → DatastorePayload
  | .bytes body => { body, etag := none, status := none, contentType := none }
  | .payload p => p

/-- The arguments of `run_post`. -/
structure WriteCall where
  path : Str
  body : Bytes
  client : Option Str
  deriving DecidableEq, Repr

structure DatastoreDispatcher (σ : Type) where
  allowWrites : Bool
  runGet : Str → Option Str → Option Str → List (Str × Str) → EStateM Exn σ RawPayload
  runPost : WriteCall → EStateM Exn σ RawPayload
  writeToken : Option Str := none
  allowRemoteWrites : Bool := false
  logWrite : Option (Method → Str → Bytes → σ → σ) := none
  validateWrites : Bool := true
  allowUnknownWrites : Bool := false
  /-- The JSON text of what it provides. -/
  statusProvider : Option (EStateM Exn σ Bytes) := none
  recursionDepth : Nat := 900

namespace DatastoreDispatcher

variable {σ : Type} (d : DatastoreDispatcher σ)

def validateWriteHeaders (method : Method) (origin host requestToken : Option Str) :
    Except Exn Unit :=
  if method = .GET then .ok ()
  else do
    require d.allowWrites writesDisabled
    validateWriteHost method d.allowWrites host d.allowRemoteWrites
    validateWriteOrigin method d.allowWrites origin host
    validateWriteToken method d.allowWrites d.writeToken requestToken

def encodeBody (text : Str) : Except Exn Bytes :=
  match utf8Encode text with
  | some bytes => .ok bytes
  | none => .error unicodeEncodeError

/-- `if validate_writes`. -/
def checkObject (path : Str) (writeObject : List (Str × Json)) : Except Exn Unit :=
  if d.validateWrites then validateDatastoreWriteObject path writeObject d.allowUnknownWrites
  else .ok ()

/-- A write, up to the point where it is logged and handed to `run_post`. -/
def prepareWrite (a : DispatchArgs) (path : Str) : Except Exn WriteCall := do
  let client ← parseClientQuery a.requestPath
  require d.allowWrites writesDisabled
  validateWriteHost a.method d.allowWrites a.host d.allowRemoteWrites
  validateWriteOrigin a.method d.allowWrites a.origin a.host
  validateWriteToken a.method d.allowWrites d.writeToken a.requestToken
  let writeBody ← parseWriteBody a.rawBody a.contentType
  let writeObject ← loadJsonObject d.recursionDepth writeBody
  let body ← encodeBody writeBody
  d.checkObject path writeObject
  validatePostFrameSize path body (py "NREK") (client.map .str)
  return { path, body, client }

/-- The call of `run_post` that a write comes to. -/
def preparedCall (a : DispatchArgs) : Except Exn WriteCall := do
  let url ← parseRequestPath a.requestPath
  let path ← normalizePath url.path
  d.prepareWrite a path

def liftExcept : Except Exn α → EStateM Exn σ α
  | .ok a => pure a
  | .error exc => throw exc

/-- `status_provider`, if the request is for its path and there is one. -/
def statusFor (a : DispatchArgs) (url : Url) : Option (EStateM Exn σ Bytes) :=
  if a.method = .GET ∧ url.path = STATUS_PATH then d.statusProvider else none

/-- A read of `dispatch_datastore_request`. -/
def dispatchGet (a : DispatchArgs) (path : Str) : EStateM Exn σ DispatchResult := do
  let (queryFields, client) ← liftExcept (parseGetQueryFields a.requestPath)
  let payload := coerceDatastorePayload
    (← d.runGet path client (a.ifNoneMatch.map strip) queryFields)
  return {
    response := payload.body, path, etag := payload.etag, contentType := payload.contentType
    status := if payload.notModified then 304 else 200 }

def log (method : Method) (call : WriteCall) : EStateM Exn σ Unit :=
  match d.logWrite with
  | none => pure ()
  | some logWrite => modify (logWrite method call.path call.body)

/-- A write of `dispatch_datastore_request`. -/
def dispatchWrite (a : DispatchArgs) (path : Str) : EStateM Exn σ DispatchResult := do
  let call ← liftExcept (d.prepareWrite a path)
  d.log a.method call
  let payload := coerceDatastorePayload (← d.runPost call)
  return { response := payload.body, path, etag := payload.etag, contentType := payload.contentType }

/-- `dispatch_datastore_request`. -/
def dispatchDatastoreRequest (a : DispatchArgs) : EStateM Exn σ DispatchResult := do
  let url ← liftExcept (parseRequestPath a.requestPath)
  match d.statusFor a url with
  | some provider =>
    return { response := ← provider, path := STATUS_PATH, contentType := some (py "application/json") }
  | none =>
    let path ← liftExcept (normalizePath url.path)
    if a.method = .GET then d.dispatchGet a path else d.dispatchWrite a path

/-- The dispatcher, as the handler sees it. -/
def toDispatcher : Dispatcher σ where
  validateWriteHeaders := some d.validateWriteHeaders
  dispatch := d.dispatchDatastoreRequest

end DatastoreDispatcher

end Dispatch

end MotuProxy
