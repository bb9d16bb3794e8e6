import MotuProxy.Model.Parser

/-! # The live validation of response frames (`live_validate_response_frames.py`)

The tool reads a response off the device and checks its frames with code of its own, which goes on
after an error. The capture loop and the report are left out.
-/

namespace MotuProxy

open Py Protocol Responses

namespace LiveValidate

/-- What is found in a packet. A number that is not in the packet is `-1` or zero. -/
structure FrameCheck where
  path : Str
  index : Nat
  packetLen : Nat
  wrapperSeq : Int
  wrapperType : Int
  wrapperLen : Nat
  trailingPadding : Nat
  header : Str
  storedCrc : Nat
  computedCrc : Nat
  messageSeq : Int
  expectedMessageSeq : Nat
  finalField : Nat
  segmentIndex : Nat
  payloadLen : Nat
  actualPayloadLen : Nat
  trailer : Bytes
  errors : List Str
  deriving DecidableEq, Repr

/-- `errors.append(message)` under a condition. -/
def note (c : Prop) [Decidable c] (message : Str) : List Str := if c then [message] else []

/-- `repr` of an ASCII text: that of its bytes, less the `b`. -/
def reprAscii (s : Str) : Str := (reprBytes (s.map UInt8.ofNat)).drop 1

/-- `packet[:wrapper_len]`, or all of a packet that is shorter. -/
def logicalPacket (packet : Bytes) : Bytes :=
  if packet.length < packet.word 2 2 then packet else packet.slice 0 (packet.word 2 2)

def isAscii (data : Bytes) : Bool := data.all (· < 0x80)

/-- The header as it is reported, in hexadecimal if it is not ASCII. -/
def headerText (headerBytes : Bytes) : Str :=
  if isAscii headerBytes then latin1Decode headerBytes else hex headerBytes

def payloadOf (body : Bytes) : Bytes :=
  if 20 + body.word 2 18 ≤ body.length then body.slice 20 (20 + body.word 2 18) else body.drop 20

def trailerOf (body : Bytes) : Bytes :=
  if 20 + body.word 2 18 ≤ body.length then body.drop (20 + body.word 2 18) else []

/-- The errors of the wrapper and of the header's encoding. -/
def wrapperErrors (packet : Bytes) : List Str :=
  let wrapperType := packet.word 1 1
  let wrapperLen := packet.word 2 2
  let headerBytes := Bytes.slice ((logicalPacket packet).drop 4) 0 4
  note (wrapperType ≠ 0) (py "unexpected response wrapper type 0x" ++ strHex 2 wrapperType) ++
  note (wrapperLen < 28) (py "invalid response wrapper length " ++ strNat wrapperLen) ++
  note (packet.length < wrapperLen) (py "wrapper length " ++ strNat wrapperLen ++
    py " > packet length " ++ strNat packet.length) ++
  note (¬isAscii headerBytes) (py "non-ascii MOTU header " ++ hex headerBytes)

/-- The errors of the fields after the wrapper. -/
def fieldErrors (wrapperHeader body : Bytes) (expectedMessageSeq : Nat) : List Str :=
  let header := headerText (body.slice 0 4)
  let storedCrc := body.word 4 4
  let messageSeq := body.word 4 8
  let finalField := body.word 4 12
  let payloadLen := body.word 2 18
  let payload := payloadOf body
  let trailer := trailerOf body
  let computedCrc := crc32 payload
  note (¬20 + payloadLen ≤ body.length) (py "payload length " ++ strNat payloadLen ++
    py " exceeds available " ++ strNat payload.length ++ py " bytes") ++
  note (header ≠ py "NREK" ∧ header ≠ py "PTTH")
    (py "unexpected MOTU header " ++ reprAscii header) ++
  note (storedCrc ≠ computedCrc) (py "crc mismatch stored=0x" ++ strHex 8 storedCrc ++
    py " computed=0x" ++ strHex 8 computedCrc) ++
  note (messageSeq ≠ expectedMessageSeq) (py "message sequence " ++ strNat messageSeq ++
    py " != expected " ++ strNat expectedMessageSeq) ++
  note (finalField ≠ 0 ∧ finalField ≠ 1) (py "unexpected final field " ++ strNat finalField) ++
  note (payloadLen ≠ payload.length) (py "payload length " ++ strNat payloadLen ++
    py " != actual " ++ strNat payload.length) ++
  if trailer.length ≠ 4 then
    [py "response trailer length " ++ strNat trailer.length ++ py " != 4"]
  else note (trailer ≠ wrapperHeader) (py "response trailer " ++ hex trailer ++
    py " != wrapper " ++ hex wrapperHeader)

/-- The words are read at offsets inside the packet: it has 24 bytes at least, and 20 after the
wrapper where they are read from there. -/
def validateResponsePacket (path : Str) (index : Nat) (packet : Bytes) (expectedMessageSeq : Nat) :
    FrameCheck :=
  if packet.length < 24 then
    { path, index, expectedMessageSeq
      packetLen := packet.length
      wrapperSeq := if 0 < packet.length then packet.word 1 0 else -1
      wrapperType := if 1 < packet.length then packet.word 1 1 else -1
      wrapperLen := (packet ++ [0, 0, 0, 0]).word 2 2
      trailingPadding := 0
      header := []
      storedCrc := 0
      computedCrc := 0
      messageSeq := -1
      finalField := 0
      segmentIndex := 0
      payloadLen := 0
      actualPayloadLen := 0
      trailer := []
      errors := [py "packet too short for wrapper plus MOTU header: " ++ strNat packet.length ++
        py " bytes"] }
  else
  let wrapperSeq := packet.word 1 0
  let wrapperType := packet.word 1 1
  let wrapperLen := packet.word 2 2
  let trailingPadding := if packet.length < wrapperLen then 0 else packet.length - wrapperLen
  let wrapperHeader := (logicalPacket packet).slice 0 4
  let body : Bytes := (logicalPacket packet).drop 4
  let header := headerText (body.slice 0 4)
  if body.length < 20 then
    { path, index, wrapperLen, trailingPadding, header, expectedMessageSeq
      packetLen := packet.length
      wrapperSeq := wrapperSeq
      wrapperType := wrapperType
      storedCrc := 0
      computedCrc := 0
      messageSeq := -1
      finalField := 0
      segmentIndex := 0
      payloadLen := 0
      actualPayloadLen := 0
      trailer := []
      errors := wrapperErrors packet ++ [py "response body too short for MOTU fields: " ++
        strNat body.length ++ py " bytes"] }
  else
    { path, index, wrapperLen, trailingPadding, header, expectedMessageSeq
      packetLen := packet.length
      wrapperSeq := wrapperSeq
      wrapperType := wrapperType
      storedCrc := body.word 4 4
      computedCrc := crc32 (payloadOf body)
      messageSeq := body.word 4 8
      finalField := body.word 4 12
      segmentIndex := body.word 2 16
      payloadLen := body.word 2 18
      actualPayloadLen := (payloadOf body).length
      trailer := trailerOf body
      errors := wrapperErrors packet ++ fieldErrors wrapperHeader body expectedMessageSeq }

/-- What `validate_response_sequence` finds in a check, the last one or not. -/
def sequenceErrors (expectedIndex : Nat) (isLast : Bool) (check : FrameCheck) : List Str :=
  note (check.segmentIndex ≠ expectedIndex) (py "segment index " ++ strNat check.segmentIndex ++
    py " != expected " ++ strNat expectedIndex) ++
  if check.finalField ≠ 0 ∧ check.finalField ≠ 1 then []
  else
    note (check.finalField = 1 ∧ ¬isLast) (py "final flag set before last segment " ++
      strNat expectedIndex) ++
    note (check.finalField = 0 ∧ isLast) (py "missing final segment flag")

/-- The loop of `validate_response_sequence`, from the check at `expectedIndex` on. -/
def validateFrom (expectedIndex : Nat) : List FrameCheck → List FrameCheck
  | [] => []
  | check :: checks =>
    { check with errors := check.errors ++ sequenceErrors expectedIndex checks.isEmpty check } ::
      validateFrom (expectedIndex + 1) checks

def validateResponseSequence (checks : List FrameCheck) : List FrameCheck := validateFrom 0 checks

def responsePayload (packet : Bytes) : Bytes :=
  if packet.length < 24 then []
  else
  let wrapperLen := min (packet.word 2 2) packet.length
  let body : Bytes := (packet.slice 0 wrapperLen).drop 4
  if body.length < 20 then []
  else body.slice 20 (20 + body.word 2 18)

/-- The `frame_checks` of a capture. -/
def frameChecks (path : Str) (packets : List Bytes) (messageSeq : Nat) : List FrameCheck :=
  validateResponseSequence ((packets.zipIdx 1).map fun (packet, index) =>
    validateResponsePacket path index packet messageSeq)

/-- The `joined_response` of a capture. -/
def joinedResponse (packets : List Bytes) : Bytes := (packets.map responsePayload).flatten

end LiveValidate

end MotuProxy
