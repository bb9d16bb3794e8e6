import MotuProxy.Model.Device
import MotuProxy.Model.Handler

/-! # A connection and what is sent on it (`MotuProxyHandler` under `BaseHTTPRequestHandler.handle`)

`handle` serves one request after the other until `close_connection` is set. A turn is what
`handle_one_request` finds on the connection: a request that `parse_request` accepts, with the value
it gives to `close_connection` and the bytes that follow the header, or one that the base class
refuses through `send_error`, which closes the connection here. `itemBytes` is what
`send_response_only`, `send_header` and `end_headers` write for an item.
-/

namespace MotuProxy

open Py

/-! ## Bytes -/

namespace Connection

/-- `.encode("latin-1")` of text that can be encoded. -/
def latin1 (s : Str) : Bytes := s.map UInt8.ofNat

/-- `BaseHTTPRequestHandler.responses`, without the long texts. -/
def responses : List (Nat × Str) :=
  [(100, py "Continue"), (101, py "Switching Protocols"), (102, py "Processing"),
    (103, py "Early Hints"), (200, py "OK"), (201, py "Created"), (202, py "Accepted"),
    (203, py "Non-Authoritative Information"), (204, py "No Content"), (205, py "Reset Content"),
    (206, py "Partial Content"), (207, py "Multi-Status"), (208, py "Already Reported"),
    (226, py "IM Used"), (300, py "Multiple Choices"), (301, py "Moved Permanently"),
    (302, py "Found"), (303, py "See Other"), (304, py "Not Modified"), (305, py "Use Proxy"),
    (307, py "Temporary Redirect"), (308, py "Permanent Redirect"), (400, py "Bad Request"),
    (401, py "Unauthorized"), (402, py "Payment Required"), (403, py "Forbidden"),
    (404, py "Not Found"), (405, py "Method Not Allowed"), (406, py "Not Acceptable"),
    (407, py "Proxy Authentication Required"), (408, py "Request Timeout"), (409, py "Conflict"),
    (410, py "Gone"), (411, py "Length Required"), (412, py "Precondition Failed"),
    (413, py "Request Entity Too Large"), (414, py "Request-URI Too Long"),
    (415, py "Unsupported Media Type"), (416, py "Requested Range Not Satisfiable"),
    (417, py "Expectation Failed"), (418, py "I'm a Teapot"), (421, py "Misdirected Request"),
    (422, py "Unprocessable Entity"), (423, py "Locked"), (424, py "Failed Dependency"),
    (425, py "Too Early"), (426, py "Upgrade Required"), (428, py "Precondition Required"),
    (429, py "Too Many Requests"), (431, py "Request Header Fields Too Large"),
    (451, py "Unavailable For Legal Reasons"), (500, py "Internal Server Error"),
    (501, py "Not Implemented"), (502, py "Bad Gateway"), (503, py "Service Unavailable"),
    (504, py "Gateway Timeout"), (505, py "HTTP Version Not Supported"),
    (506, py "Variant Also Negotiates"), (507, py "Insufficient Storage"),
    (508, py "Loop Detected"), (510, py "Not Extended"),
    (511, py "Network Authentication Required")]

/-- The phrase of a status line. -/
def phrase (code : Nat) : Str := ((responses.find? (·.1 = code)).map (·.2)).getD []

def PROTOCOL_VERSION : Str := py "HTTP/1.1"

def itemBytes : Item → Bytes
  | .status code =>
    latin1 (PROTOCOL_VERSION ++ py " " ++ strNat code ++ py " " ++ phrase code ++ py "\r\n")
  | .header keyword value => latin1 (keyword ++ py ": " ++ value ++ py "\r\n")
  | .blank => latin1 (py "\r\n")
  | .data bytes => bytes

end Connection

/-! ## The connection -/

inductive Turn where
  | request (method : Method) (r : HttpRequest) (closeConnection : Bool) (arrived : Bytes)
  /-- The items are what `send_error` of the base class sends. -/
  | refused (sent : List Item)
  deriving DecidableEq, Repr

structure Connection (σ : Type) where
  handler : MotuProxyHandler σ
  /-- Everything sent so far. -/
  wire : List Item := []
  ended : Bool := false

namespace Connection

open MotuProxyHandler

variable {σ : Type}

/-- `Expect: 100-continue` on a version that knows it. -/
def expectsContinue (r : HttpRequest) : Bool :=
  lower ((r.header (py "Expect")).getD []) = py "100-continue" &&
    Device.strLe (py "HTTP/1.1") r.requestVersion

/-- `handle_expect_100`. -/
def handleExpect100 (r : HttpRequest) : Handling σ Unit := do
  sendResponseOnly r 100
  endHeaders r

/-- Run a method of the handler; the result says whether it has returned. -/
def perform (x : Handling σ Unit) (c : Connection σ) : Bool × Connection σ :=
  match x { c.handler with wfile := [], consumed := 0 } with
  | .ok _ s => (true, { c with handler := s, wire := c.wire ++ s.wfile })
  | .error _ s => (false, { c with handler := s, wire := c.wire ++ s.wfile })

/-- `handle_one_request`, while the connection is open. -/
def step (server : MotuProxyServer σ) (c : Connection σ) : Turn → Option (Connection σ)
  | .refused sent => if c.ended then none else some { c with wire := c.wire ++ sent, ended := true }
  | .request method r closeConnection arrived =>
    if c.ended then none
    else
      let c := { c with handler := { c.handler with closeConnection, arrived } }
      let (continued, c) :=
        if expectsContinue r then c.perform (handleExpect100 r) else (true, c)
      if continued then
        let (returned, c) := c.perform (handleDatastoreRequest server r method)
        some { c with ended := !returned || c.handler.closeConnection }
      else some { c with ended := true }

/-- The bytes sent so far. -/
def bytes (c : Connection σ) : Bytes := c.wire.flatMap itemBytes

end Connection

end MotuProxy
