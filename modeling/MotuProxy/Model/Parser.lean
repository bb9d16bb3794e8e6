import MotuProxy.Model.Protocol

/-! # Response parsing (`parser.py`)

The response frame with its checks, the join of the segments of one response, and the datastore
payload of a joined response: the UTOM envelope, the textual HTTP envelope, or the bare body.
-/

namespace MotuProxy

open Py Protocol

namespace Responses

structure ResponseFrame where
  header : Bytes
  wrapperSeq : Nat
  wrapperType : Nat
  wrapperLen : Nat
  messageSeq : Nat
  final : Bool
  segmentIndex : Nat
  payload : Bytes
  deriving DecidableEq, Repr

structure DatastorePayload where
  body : Bytes
  etag : Option Str := none
  status : Option Nat := none
  contentType : Option Str := none
  deriving DecidableEq, Repr

def DatastorePayload.notModified (p : DatastorePayload) : Bool := p.status = some 304

def isDeviceAck (packet : Bytes) : Bool :=
  packet.length = 8 && packet.slice 0 4 = packet.slice 4 8 && packet.slice 1 2 = [0x00] &&
    packet.slice 2 4 = [0x08, 0x00]

def responseFrameError (message : Str) : Exn := ⟨.responseFrameError, message⟩

/-- The checks stand in the order of the source; the fields are read at the offsets of the packet. -/
def parseResponseFrame (packet : Bytes) (expectedMessageSeq : Nat) : Except Exn ResponseFrame :=
  if packet.length < 28 then
    .error (responseFrameError (py "short response frame: got " ++ strNat packet.length ++
      py " bytes"))
  else
  let wrapperSeq := packet.word 1 0
  let wrapperType := packet.word 1 1
  let wrapperLen := packet.word 2 2
  if wrapperType ≠ 0 then
    .error (responseFrameError (py "unexpected response wrapper type 0x" ++ strHex 2 wrapperType))
  else if wrapperLen < 28 then
    .error (responseFrameError (py "invalid response wrapper length " ++ strNat wrapperLen))
  else if packet.length < wrapperLen then
    .error (responseFrameError (py "short response frame: got " ++ strNat packet.length ++
      py " of " ++ strNat wrapperLen ++ py " bytes"))
  else
  let logicalPacket := packet.slice 0 wrapperLen
  let wrapper := logicalPacket.slice 0 4
  let body : Bytes := logicalPacket.drop 4
  let header := body.slice 0 4
  if header ≠ NREK ∧ header ≠ PTTH then
    .error (responseFrameError (py "unexpected response header " ++ reprBytes header))
  else
  let storedCrc := body.word 4 4
  let messageSeq := body.word 4 8
  let finalField := body.word 4 12
  let segmentIndex := body.word 2 16
  let payloadLen := body.word 2 18
  let payloadEnd := 20 + payloadLen
  let trailerEnd := payloadEnd + 4
  if messageSeq ≠ expectedMessageSeq then
    .error (responseFrameError (py "response message sequence " ++ strNat messageSeq ++
      py " != expected " ++ strNat expectedMessageSeq))
  else if finalField ≠ 0 ∧ finalField ≠ 1 then
    .error (responseFrameError (py "unexpected response final field " ++ strNat finalField))
  else if body.length < trailerEnd then
    .error (responseFrameError (py "response payload length " ++ strNat payloadLen ++
      py " exceeds frame body"))
  else if trailerEnd ≠ body.length then
    .error (responseFrameError (py "unexpected response body trailer length " ++
      strNat (body.length - payloadEnd)))
  else
  let payload := body.slice 20 payloadEnd
  let computedCrc := crc32 payload
  if storedCrc ≠ computedCrc then
    .error (responseFrameError (py "response CRC mismatch: stored=0x" ++ strHex 8 storedCrc ++
      py " computed=0x" ++ strHex 8 computedCrc))
  else
  let trailer := body.slice payloadEnd trailerEnd
  if trailer ≠ wrapper then
    .error (responseFrameError (py "response trailer " ++ hex trailer ++ py " != wrapper " ++
      hex wrapper))
  else .ok {
    header, wrapperSeq, wrapperType, wrapperLen, messageSeq, segmentIndex, payload
    final := finalField ≠ 0 }

/-- `data[i]`. -/
def byteAt (data : Bytes) (i : Nat) : Except Exn Nat :=
  if i < data.length then .ok (data.word 1 i) else .error ⟨.indexError, py "index out of range"⟩

/-- `struct.unpack_from` of one little-endian word of `w` bytes, `_u16` and `_u32`. -/
def unpackFrom (w : Nat) (data : Bytes) (offset : Nat) : Except Exn Nat :=
  if offset + w ≤ data.length then .ok (data.word w offset)
  else .error ⟨.structError, py "unpack_from requires a buffer of at least " ++
    strNat (offset + w) ++ py " bytes"⟩

/-- `parse_response_frame` with the reads as the source makes them: a read outside the packet would
raise an exception of its own. `parseResponseFrame` is what is left when none does. -/
def parseResponseFrameChecked (packet : Bytes) (expectedMessageSeq : Nat) :
    Except Exn ResponseFrame := do
  if packet.length < 28 then
    throw (responseFrameError (py "short response frame: got " ++ strNat packet.length ++
      py " bytes"))
  let wrapperSeq ← byteAt packet 0
  let wrapperType ← byteAt packet 1
  let wrapperLen ← unpackFrom 2 packet 2
  if wrapperType ≠ 0 then
    throw (responseFrameError (py "unexpected response wrapper type 0x" ++ strHex 2 wrapperType))
  if wrapperLen < 28 then
    throw (responseFrameError (py "invalid response wrapper length " ++ strNat wrapperLen))
  if packet.length < wrapperLen then
    throw (responseFrameError (py "short response frame: got " ++ strNat packet.length ++
      py " of " ++ strNat wrapperLen ++ py " bytes"))
  let logicalPacket := packet.slice 0 wrapperLen
  let wrapper := logicalPacket.slice 0 4
  let body : Bytes := logicalPacket.drop 4
  let header := body.slice 0 4
  if header ≠ NREK ∧ header ≠ PTTH then
    throw (responseFrameError (py "unexpected response header " ++ reprBytes header))
  let storedCrc ← unpackFrom 4 body 4
  let messageSeq ← unpackFrom 4 body 8
  let finalField ← unpackFrom 4 body 12
  let segmentIndex ← unpackFrom 2 body 16
  let payloadLen ← unpackFrom 2 body 18
  let payloadEnd := 20 + payloadLen
  let trailerEnd := payloadEnd + 4
  if messageSeq ≠ expectedMessageSeq then
    throw (responseFrameError (py "response message sequence " ++ strNat messageSeq ++
      py " != expected " ++ strNat expectedMessageSeq))
  if finalField ≠ 0 ∧ finalField ≠ 1 then
    throw (responseFrameError (py "unexpected response final field " ++ strNat finalField))
  if body.length < trailerEnd then
    throw (responseFrameError (py "response payload length " ++ strNat payloadLen ++
      py " exceeds frame body"))
  if trailerEnd ≠ body.length then
    throw (responseFrameError (py "unexpected response body trailer length " ++
      strNat (body.length - payloadEnd)))
  let payload := body.slice 20 payloadEnd
  let computedCrc := crc32 payload
  if storedCrc ≠ computedCrc then
    throw (responseFrameError (py "response CRC mismatch: stored=0x" ++ strHex 8 storedCrc ++
      py " computed=0x" ++ strHex 8 computedCrc))
  let trailer := body.slice payloadEnd trailerEnd
  if trailer ≠ wrapper then
    throw (responseFrameError (py "response trailer " ++ hex trailer ++ py " != wrapper " ++
      hex wrapper))
  return {
    header, wrapperSeq, wrapperType, wrapperLen, messageSeq, segmentIndex, payload
    final := finalField ≠ 0 }

/-- The loop of `join_parsed_response_frames` from segment `expectedIndex` on: the last frame of
the list is the one that has to carry the final flag. -/
def joinFrom (expectedIndex : Nat) : List ResponseFrame → Except Exn Bytes
  | [] => .ok []
  | frame :: frames =>
    if frame.segmentIndex ≠ expectedIndex then
      .error (responseFrameError (py "response segment index " ++ strNat frame.segmentIndex ++
        py " != expected " ++ strNat expectedIndex))
    else if frame.final ∧ frames ≠ [] then
      .error (responseFrameError (py "response final flag set before last segment " ++
        strNat expectedIndex))
    else if ¬frame.final ∧ frames = [] then
      .error (responseFrameError (py "response missing final segment flag"))
    else (joinFrom (expectedIndex + 1) frames).map (frame.payload ++ ·)

def joinParsedResponseFrames (frames : List ResponseFrame) : Except Exn Bytes := joinFrom 0 frames

def joinResponseFrames (frames : List Bytes) (expectedMessageSeq : Nat) : Except Exn Bytes := do
  joinParsedResponseFrames (← frames.mapM (parseResponseFrame · expectedMessageSeq))

/-! ## The datastore payload -/

/-- `data.find(sub)`. -/
def find (sub : Bytes) : Bytes → Option Nat
  | [] => if sub.isEmpty then some 0 else none
  | b :: data => if sub.isPrefixOf (b :: data) then some 0 else (find sub data).map (· + 1)

/-- The loop of `extract_json_bytes`: how many bytes it reads up to and including the brace that
brings the depth to zero. -/
def scanObject : Int → Bool → Bool → Bytes → Option Nat
  | _, _, _, [] => none
  | depth, true, escape, b :: rest =>
    Option.map (· + 1) <|
      if escape then scanObject depth true false rest
      else if b = 0x5C then scanObject depth true true rest
      else if b = 0x22 then scanObject depth false false rest
      else scanObject depth true false rest
  | depth, false, escape, b :: rest =>
    if b = 0x7D ∧ depth - 1 = 0 then some 1
    else Option.map (· + 1) <|
      if b = 0x22 then scanObject depth true escape rest
      else if b = 0x7B then scanObject (depth + 1) false escape rest
      else if b = 0x7D then scanObject (depth - 1) false escape rest
      else scanObject depth false escape rest

/-- `extract_json_bytes`. -/
def extractJsonBytes (response : Bytes) : Option Bytes := do
  let start ← find [0x7B] response
  let count ← scanObject 0 false false (response.drop start)
  return response.slice start (start + count)

example : extractJsonBytes ((py "prefix \x7b\"value\":\"\x7d\"\x7d suffix").map UInt8.ofNat) =
    some ((py "\x7b\"value\":\"\x7d\"\x7d").map UInt8.ofNat) := by
  decide +kernel

/-- `_read_sized_value`. -/
def readSizedValue (data : Bytes) (offset stop : Nat) : Option Bytes × Nat :=
  if stop < offset + 4 then (none, offset)
  else
    let size := data.word 4 offset
    let valueStart := offset + 4
    let valueEnd := valueStart + size
    if 4096 < size ∨ stop < valueEnd then (none, offset)
    else (some (data.slice valueStart valueEnd), valueEnd)

/-- `_decode_header_value`. -/
def decodeHeaderValue (value : Bytes) : Option Str :=
  if value.any fun b => b < 0x20 || 0x7E < b then none
  else match strip (latin1Decode value) with
    | [] => none
    | c :: s => some (c :: s)

/-- The header loop of `_parse_utom_response`, which ends early on a malformed word. -/
def utomEtag (response : Bytes) (metadataEnd : Nat) : Nat → Nat → Option Str → Option Str
  | 0, _, etag => etag
  | count + 1, offset, etag =>
    let (name, offset) := readSizedValue response offset metadataEnd
    let (value, offset) := readSizedValue response offset metadataEnd
    match name, value with
    | some name, some value =>
      let isEtag := (decodeHeaderValue name).any fun n => lower n = py "etag"
      utomEtag response metadataEnd count offset (if isEtag then decodeHeaderValue value else etag)
    | _, _ => etag

def httpStatus (status : Nat) : Option Nat :=
  if 100 ≤ status ∧ status ≤ 599 then some status else none

/-- `_parse_utom_response`. -/
def parseUtomResponse (response : Bytes) : Option (Bytes × Option Str × Option Nat) :=
  if response.length < 28 ∨ ¬[0x55, 0x54, 0x4F, 0x4D] <+: response then none
  else
    let metadataLen := response.word 4 16
    let metadataEnd := 20 + metadataLen
    if response.length < metadataEnd ∨ metadataLen < 8 then none
    else
      let status := httpStatus (response.word 4 20)
      let etag := utomEtag response metadataEnd (response.word 4 24) 28 none
      some (response.drop metadataEnd, etag, status)

/-- `_read_sized_value` with its read as the source makes it. -/
def readSizedValueChecked (data : Bytes) (offset stop : Nat) : Except Exn (Option Bytes × Nat) := do
  if stop < offset + 4 then return (none, offset)
  let size ← unpackFrom 4 data offset
  let valueStart := offset + 4
  let valueEnd := valueStart + size
  if 4096 < size ∨ stop < valueEnd then return (none, offset)
  return (some (data.slice valueStart valueEnd), valueEnd)

def utomEtagChecked (response : Bytes) (metadataEnd : Nat) :
    Nat → Nat → Option Str → Except Exn (Option Str)
  | 0, _, etag => return etag
  | count + 1, offset, etag => do
    let (name, offset) ← readSizedValueChecked response offset metadataEnd
    let (value, offset) ← readSizedValueChecked response offset metadataEnd
    match name, value with
    | some name, some value =>
      let isEtag := (decodeHeaderValue name).any fun n => lower n = py "etag"
      utomEtagChecked response metadataEnd count offset
        (if isEtag then decodeHeaderValue value else etag)
    | _, _ => return etag

/-- `_parse_utom_response` with the reads as the source makes them: a read outside the response would
raise an exception. `parseUtomResponse` is what is left when none does. -/
def parseUtomResponseChecked (response : Bytes) :
    Except Exn (Option (Bytes × Option Str × Option Nat)) := do
  if response.length < 28 ∨ ¬[0x55, 0x54, 0x4F, 0x4D] <+: response then return none
  let metadataLen ← unpackFrom 4 response 16
  let metadataEnd := 20 + metadataLen
  if response.length < metadataEnd ∨ metadataLen < 8 then return none
  let status := httpStatus (← unpackFrom 4 response 20)
  let headerCount ← unpackFrom 4 response 24
  let etag ← utomEtagChecked response metadataEnd headerCount 28 none
  return some (response.drop metadataEnd, etag, status)

def CRLF : Bytes := [0x0D, 0x0A]

/-- `_split_text_http_response`: CRLF separators are looked for in the whole response first. -/
def splitTextHttpResponse (response : Bytes) : Option (Bytes × Bytes) :=
  if ¬[0x48, 0x54, 0x54, 0x50, 0x2F] <+: response then none
  else match find (CRLF ++ CRLF) response with
    | some index => some (response.take index, response.drop (index + 4))
    | none => match find [0x0A, 0x0A] response with
      | some index => some (response.take index, response.drop (index + 2))
      | none => none

/-- `text.replace("\r\n", "\n").replace("\r", "\n")`. -/
def normalizeNewlines : Str → Str
  | 0x0D :: 0x0A :: s => 0x0A :: normalizeNewlines s
  | 0x0D :: s => 0x0A :: normalizeNewlines s
  | c :: s => c :: normalizeNewlines s
  | [] => []

/-- `_parse_text_status`: the second word of the line. -/
def parseTextStatus (statusLine : Str) : Option Nat :=
  let afterFirst := lstripBy isSpace ((strip statusLine).dropWhile fun c => !isSpace c)
  let second := afterFirst.takeWhile fun c => !isSpace c
  if second.isEmpty then none
  else match int10 second with
    | some (.ofNat status) => httpStatus status
    | _ => none

def textEtag (lines : List Str) : Option Str :=
  lines.foldl (fun etag line =>
    let (name, separator, value) := partition 0x3A line
    if separator && lower (strip name) = py "etag" then
      match strip value with
      | [] => none
      | c :: s => some (c :: s)
    else etag) none

/-- `_parse_text_http_response`. -/
def parseTextHttpResponse (response : Bytes) : Option (Bytes × Option Str × Option Nat) := do
  let (headerBlock, body) ← splitTextHttpResponse response
  let lines := splitOn 0x0A (normalizeNewlines (latin1Decode headerBlock))
  return (body, textEtag lines.tail, parseTextStatus (lines.headD []))

def isJsonSpace (b : UInt8) : Bool := b == 0x20 || b == 0x09 || b == 0x0D || b == 0x0A

/-- The scanner of `is_single_json_container` after the opening bracket: the stack holds the closing
brackets still owed, and the container has to end with the text. -/
def scanContainer : List UInt8 → Bool → Bool → Bytes → Bool
  | _, _, _, [] => false
  | stack, true, escaped, b :: rest =>
    if escaped then scanContainer stack true false rest
    else if b = 0x5C then scanContainer stack true true rest
    else if b = 0x22 then scanContainer stack false false rest
    else scanContainer stack true false rest
  | stack, false, escaped, b :: rest =>
    if b = 0x22 then scanContainer stack true escaped rest
    else if b = 0x7B then scanContainer (0x7D :: stack) false escaped rest
    else if b = 0x5B then scanContainer (0x5D :: stack) false escaped rest
    else if b = 0x7D ∨ b = 0x5D then
      match stack with
      | [] => false
      | top :: stack =>
        if b ≠ top then false
        else if stack = [] then rest = []
        else scanContainer stack false escaped rest
    else scanContainer stack false escaped rest

/-- `is_single_json_container`. -/
def isSingleJsonContainer (body : Bytes) : Bool :=
  let text := ((body.dropWhile isJsonSpace).reverse.dropWhile isJsonSpace).reverse
  match text with
  | 0x7B :: rest => scanContainer [0x7D] false false rest
  | 0x5B :: rest => scanContainer [0x5D] false false rest
  | _ => false

def datastoreBodyContentType (body : Bytes) : Str :=
  if isSingleJsonContainer body then py "application/json" else py "application/octet-stream"

/-- `parse_datastore_response` without the classification of the body. -/
def parseDatastoreResponse (response : Bytes) : DatastorePayload :=
  match (parseUtomResponse response).or (parseTextHttpResponse response) with
  | some (body, etag, status) => { body, etag, status }
  | none => { body := response }

/-- `parse_datastore_response` with the exceptions that its reads could raise. -/
def parseDatastoreResponseChecked (response : Bytes) : Except Exn DatastorePayload := do
  match (← parseUtomResponseChecked response).or (parseTextHttpResponse response) with
  | some (body, etag, status) => return { body, etag, status }
  | none => return { body := response }

example : parseDatastoreResponse ((py "HTTP/1.1 304 Not Modified\r\nETag: 42\r\n\r\n").map UInt8.ofNat) =
    { body := [], etag := some (py "42"), status := some 304 } := by
  decide +kernel

end Responses

end MotuProxy
