import MotuProxy.Model.Exn
import MotuProxy.Py.Codec

/-! # Frame construction (`protocol.py`)

Requests, acknowledgements and the init frame, as the byte strings that the host writes. `struct`
raises when a value does not fit its field, so the word builders are partial.
-/

namespace MotuProxy

open Py

namespace Protocol

def HOST_SEQ_MIN : Nat := 0x20
def HOST_SEQ_COUNT : Nat := 0x20
def MAX_U16 : Nat := 0xFFFF
def USB_LOGICAL_HEADER_BYTES : Nat := 4
def MOTU_FRAME_CONTROL_BYTES : Nat := 16
def UTOM_REQUEST_PREFIX_BYTES : Nat := 20
def POST_BODY_PREFIX_BYTES : Nat := 12

def structError : Exn := ⟨.structError, py "argument out of range"⟩

/-- `struct.pack("<H", value)`. -/
def u16 (value : Nat) : Except Exn Bytes :=
  if value < 2 ^ 16 then .ok (leBytes 2 value) else .error structError

/-- `struct.pack("<I", value)`. -/
def u32 (value : Nat) : Except Exn Bytes :=
  if value < 2 ^ 32 then .ok (leBytes 4 value) else .error structError

/-- A word given as text is encoded in UTF-8. -/
inductive Word where
  | text (s : Str)
  | raw (data : Bytes)

def unicodeEncodeError : Exn := ⟨.unicodeEncodeError, py "surrogates not allowed"⟩

def valueBytes : Word → Except Exn Bytes
  | .text s => match utf8Encode s with
    | some data => .ok data
    | none => .error unicodeEncodeError
  | .raw data => .ok data

def sizedWord (value : Word) : Except Exn Bytes := do
  let value ← valueBytes value
  return (← u32 value.length) ++ value

def sizedWordLen (value : Word) : Except Exn Nat := do
  return 4 + (← valueBytes value).length

/-- `str | int`. -/
inductive FieldValue where
  | str (s : Str)
  | int (n : Int)
  deriving DecidableEq, Repr

/-- `str(value)`. -/
def FieldValue.toStr : FieldValue → Str
  | .str s => s
  | .int n => strInt n

abbrev QueryField := Str × FieldValue

/-- `_normalize_query_fields` for a tuple of fields or none. -/
def normalizeQueryFields (fields : Option (List QueryField)) (client : Option FieldValue) :
    List (Str × Str) :=
  (fields.getD []).map (fun f => (f.1, f.2.toStr)) ++
    (client.toList.map fun c => (py "client", c.toStr))

/-- `encode_query_fields`. -/
def encodeQueryFields (fields : Option (List QueryField)) (client : Option FieldValue) :
    Except Exn Bytes := do
  let normalized := normalizeQueryFields fields client
  let count ← u32 normalized.length
  let words ← normalized.mapM fun f => do
    return (← sizedWord (.text f.1)) ++ (← sizedWord (.text f.2))
  return count ++ words.flatten

/-- `query_fields_len`. -/
def queryFieldsLen (fields : Option (List QueryField)) (client : Option FieldValue) :
    Except Exn Nat := do
  let lens ← (normalizeQueryFields fields client).mapM fun f => do
    return (← sizedWordLen (.text f.1)) + (← sizedWordLen (.text f.2))
  return 4 + lens.sum

/-- `query_fields(client)`: a client given in the place of the fields is the only field. -/
def clientFields (client : Option FieldValue) : Option (List QueryField) :=
  client.map fun c => [(py "client", c)]

def HOST_SEQ_MAX_EXCLUSIVE : Nat := HOST_SEQ_MIN + HOST_SEQ_COUNT

def validateHostSeq (seq : Nat) : Except Exn Nat :=
  if HOST_SEQ_MIN ≤ seq ∧ seq < HOST_SEQ_MAX_EXCLUSIVE then .ok seq
  else .error ⟨.invalidHostSequence, py "host sequence must be in range 0x" ++ strHex 2 HOST_SEQ_MIN ++
    py "..0x" ++ strHex 2 (HOST_SEQ_MAX_EXCLUSIVE - 1)⟩

def nextHostSeq (seq : Nat) : Nat := (seq + 1 - HOST_SEQ_MIN) % HOST_SEQ_COUNT + HOST_SEQ_MIN

/-- The two headers of a frame that carries a datastore message. -/
def NREK : Bytes := [0x4E, 0x52, 0x45, 0x4B]

def PTTH : Bytes := [0x50, 0x54, 0x54, 0x48]

/-- `_header_bytes`. -/
def headerBytes (header : Str) : Except Exn Bytes :=
  if header.any (0x80 ≤ ·) then .error ⟨.unicodeEncodeError, py "ordinal not in range(128)"⟩
  else if header.length ≠ 4 then
    .error ⟨.valueError, py "MOTU frame header must be exactly four ASCII bytes"⟩
  else .ok (header.map UInt8.ofNat)

def maxMotuPayloadBytes (header : Str) : Except Exn Nat := do
  let headerLen := (← headerBytes header).length
  return MAX_U16 - USB_LOGICAL_HEADER_BYTES - headerLen - MOTU_FRAME_CONTROL_BYTES

/-- `max_post_json_body_bytes`; it is negative when the path alone does not fit. -/
def maxPostJsonBodyBytes (path header : Str) (client : Option FieldValue) : Except Exn Int := do
  let requestLen := (← sizedWordLen (.text (py "POST"))) + (← sizedWordLen (.text path)) + 4 +
    (← sizedWordLen (.text (py "Unsecure-Auth-MOTU"))) + (← sizedWordLen (.text (py "unicorn666"))) +
    (← queryFieldsLen (clientFields client) none)
  let fixedPayloadLen := UTOM_REQUEST_PREFIX_BYTES + requestLen + 4 + POST_BODY_PREFIX_BYTES
  return (← maxMotuPayloadBytes header) - fixedPayloadLen

def postFrameTooLarge (path : Str) (bodyLen : Nat) (maxBodyLen : Int) : Exn :=
  ⟨.protocolFrameTooLarge, py "POST JSON body is " ++ strNat bodyLen ++
    py " bytes; maximum single-frame body for " ++ path ++ py " is " ++ strInt maxBodyLen ++
    py " bytes"⟩

def validatePostFrameSize (path : Str) (jsonBody : Bytes) (header : Str)
    (client : Option FieldValue) : Except Exn Unit := do
  let maxBodyLen ← maxPostJsonBodyBytes path header client
  if maxBodyLen < jsonBody.length then .error (postFrameTooLarge path jsonBody.length maxBodyLen)
  else .ok ()

def payloadTooLarge (payloadLen maxPayloadLen : Nat) : Exn :=
  ⟨.protocolFrameTooLarge, py "MOTU payload is " ++ strNat payloadLen ++
    py " bytes; maximum single-frame payload is " ++ strNat maxPayloadLen ++ py " bytes"⟩

def buildMotuFrame (seq : Nat) (header : Str) (messageSeq : Nat) (motuPayload : Bytes) :
    Except Exn Bytes := do
  let encodedHeader ← headerBytes header
  let maxPayloadLen ← maxMotuPayloadBytes header
  if maxPayloadLen < motuPayload.length then
    .error (payloadTooLarge motuPayload.length maxPayloadLen)
  else
    let body := encodedHeader ++ (← u32 (crc32 motuPayload)) ++ (← u32 messageSeq) ++ (← u32 1) ++
      (← u16 0) ++ (← u16 motuPayload.length) ++ motuPayload
    return [UInt8.ofNat seq, 0x80] ++ (← u16 (body.length + 4)) ++ body

/-- `b"UTOM" + u32(8) + u32(1) + u32(0) + u32(len(request)) + request`. -/
def utomRequest (request : Bytes) : Except Exn Bytes := do
  return [0x55, 0x54, 0x4F, 0x4D] ++ (← u32 8) ++ (← u32 1) ++ (← u32 0) ++
    (← u32 request.length) ++ request

def buildGetFrame (seq messageSeq : Nat) (path etag header : Str) (client : Option FieldValue)
    (queryFields : Option (List QueryField)) : Except Exn Bytes := do
  let request := (← sizedWord (.text (py "GET"))) ++ (← sizedWord (.text path)) ++ (← u32 1) ++
    (← sizedWord (.text (py "If-None-Match"))) ++ (← sizedWord (.text etag)) ++
    (← encodeQueryFields queryFields client)
  buildMotuFrame seq header messageSeq (← utomRequest request)

def buildPostFrame (seq messageSeq : Nat) (path : Str) (jsonBody : Bytes) (header : Str)
    (client : Option FieldValue) : Except Exn Bytes := do
  let request := (← sizedWord (.text (py "POST"))) ++ (← sizedWord (.text path)) ++ (← u32 1) ++
    (← sizedWord (.text (py "Unsecure-Auth-MOTU"))) ++ (← sizedWord (.text (py "unicorn666"))) ++
    (← encodeQueryFields (clientFields client) none)
  validatePostFrameSize path jsonBody header client
  let body := (← sizedWord (.text (py "json"))) ++ (← sizedWord (.raw jsonBody))
  buildMotuFrame seq header messageSeq ((← utomRequest request) ++ (← u32 body.length) ++ body)

def buildAck (seq : Nat) : Bytes := [UInt8.ofNat seq, 0x81, 0x04, 0x00]

def buildInit (seq : Nat) : Bytes := [UInt8.ofNat seq, 0x82, 0x04, 0x00]

end Protocol

end MotuProxy
