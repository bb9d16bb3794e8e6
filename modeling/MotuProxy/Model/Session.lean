import MotuProxy.Model.Parser

/-! # One USB session (`MotuUsbDatastore` of `datastore.py`)

The state of a session holds its object fields and the transport it talks to. The transport is a
script: `reads` are the outcomes of the coming bulk reads, `writes` those of the coming bulk
writes, `clock` and `cancels` the coming results of `time.monotonic` (in milliseconds) and of
`should_cancel`. A script that has run out reads nothing, writes everything, keeps the time and
cancels nothing. Quantifying over the script is quantifying over everything that the device, the
kernel and the other threads can do.

The decision that the collector makes on one packet is the pure function `react`: which counters
it updates, whether it writes an acknowledgement, and what it raises before or after that.
-/

namespace MotuProxy

open Py Protocol Responses

namespace Datastore

def DEFAULT_TIMEOUT_MS : Nat := 600
def DEFAULT_RESPONSE_TIMEOUT_MS : Nat := DEFAULT_TIMEOUT_MS * 2
def DEFAULT_MAX_RESPONSE_FRAMES : Nat := 256
def DEFAULT_MAX_IGNORED_PACKETS : Nat := 32
def DEFAULT_MAX_RESPONSE_READS : Nat :=
  DEFAULT_MAX_RESPONSE_FRAMES * 2 + DEFAULT_MAX_IGNORED_PACKETS + 2
def DEFAULT_MAX_BYTES : Nat := 1024 * 1024

/-! ## The transport -/

/-- The outcome of a bulk read; no data is a read that timed out. -/
inductive ReadEvent where
  | data (chunk : Bytes)
  | raise (e : Exn)
  deriving DecidableEq, Repr

/-- The outcome of a bulk write: the whole frame, some count, or an exception. -/
inductive WriteEvent where
  | full
  | count (written : Nat)
  | raise (e : Exn)
  deriving DecidableEq, Repr

structure Wire where
  reads : List ReadEvent := []
  writes : List WriteEvent := []
  cancels : List Bool := []
  clock : List Nat := []
  now : Nat := 0
  /-- The frames handed to `bulk_write`, oldest first. -/
  handed : List Bytes := []
  /-- Those of them that were written completely. -/
  delivered : List Bytes := []
  deriving DecidableEq, Repr

structure ResponseStats where
  timeoutMs : Nat
  elapsedMs : Nat
  reads : Nat
  acceptedFrames : Nat
  ignoredPackets : Nat
  ackPackets : Nat
  responseBytes : Nat
  deriving DecidableEq, Repr

structure MotuUsbDatastore where
  hostSeq : Nat := 0x20
  messageSeq : Int := 2
  lastResponseStats : Option ResponseStats := none
  lastResponseEtag : Option Str := none
  lastResponsePayload : Option DatastorePayload := none
  wire : Wire := {}
  deriving DecidableEq, Repr

/-- The constructor, on a transport. -/
def MotuUsbDatastore.new (wire : Wire) (seqStart : Nat) (messageSeq : Int) :
    Except Exn MotuUsbDatastore := do
  return { wire, messageSeq, hostSeq := ← validateHostSeq seqStart }

/-- A method of a session. -/
abbrev Proc := EStateM Exn MotuUsbDatastore

/-! ## Framing -/

/-- What `_bulk_read` raises: a cancelled cancellable read raises `DatastoreCancelled`. -/
def readError (useCancellableRead : Bool) (e : Exn) : Exn :=
  if useCancellableRead ∧ e.kind = .interruptedError then
    ⟨.datastoreCancelled, py "cancellable datastore read cancelled"⟩
  else e

/-- `_bulk_read`. -/
def bulkRead (useCancellableRead : Bool) : List ReadEvent → Except Exn Bytes × List ReadEvent
  | [] => (.ok [], [])
  | .data chunk :: reads => (.ok chunk, reads)
  | .raise e :: reads => (.error (readError useCancellableRead e), reads)

def shortUsbFrame (got expected : Nat) : Exn :=
  ⟨.shortUsbFrame, py "short USB logical frame: got " ++ strNat got ++ py " of " ++
    strNat expected ++ py " bytes"⟩

/-- The loop of `_read_logical_frame`: chunks are read until the announced length is there. -/
def readChunks (useCancellableRead : Bool) (expected : Nat) :
    Bytes → List ReadEvent → Except Exn Bytes × List ReadEvent
  | got, [] => if got.length < expected then (.error (shortUsbFrame got.length expected), [])
    else (.ok got, [])
  | got, event :: reads =>
    if got.length < expected then
      match event with
      | .data [] => (.error (shortUsbFrame got.length expected), reads)
      | .data chunk => readChunks useCancellableRead expected (got ++ chunk) reads
      | .raise e => (.error (readError useCancellableRead e), reads)
    else (.ok got, event :: reads)

def readLogicalFrame (useCancellableRead : Bool) (reads : List ReadEvent) :
    Except Exn Bytes × List ReadEvent :=
  match bulkRead useCancellableRead reads with
  | (.error e, reads) => (.error e, reads)
  | (.ok first, reads) =>
    if first = [] then (.ok [], reads)
    else if first.length < 4 then
      (.error ⟨.shortUsbFrame, py "short USB logical frame header: got " ++ strNat first.length ++
        py " bytes"⟩, reads)
    else
      let expected := first.word 2 2
      if expected < 4 then
        (.error ⟨.shortUsbFrame, py "invalid USB logical frame length " ++ strNat expected⟩, reads)
      else readChunks useCancellableRead expected first reads

/-! ## The collector -/

/-- `_response_message_seq`. -/
def responseMessageSeq (packet : Bytes) : Option Nat :=
  if packet.length < 16 then none
  else
    let wrapperLen := packet.word 2 2
    if wrapperLen < 16 ∨ packet.length < wrapperLen then none
    else
      let body : Bytes := packet.slice 4 wrapperLen
      if body.length < 12 ∨ (body.slice 0 4 ≠ NREK ∧ body.slice 0 4 ≠ PTTH) then none
      else some (body.word 4 8)

/-- The arguments of `_collect_response`; `shouldCancel` says whether a callback is given. -/
structure CollectArgs where
  expectedMessageSeq : Nat
  maxBytes : Nat := DEFAULT_MAX_BYTES
  timeoutMs : Nat := DEFAULT_RESPONSE_TIMEOUT_MS
  maxReads : Nat := DEFAULT_MAX_RESPONSE_READS
  maxIgnoredPackets : Nat := DEFAULT_MAX_IGNORED_PACKETS
  maxResponseFrames : Nat := DEFAULT_MAX_RESPONSE_FRAMES
  shouldCancel : Bool := false
  readTimeoutSliceMs : Option Nat := none
  useCancellableRead : Bool := false

/-- The local variables of `_collect_response`. -/
structure Collect where
  frames : List ResponseFrame := []
  total : Nat := 0
  quietReads : Nat := 0
  reads : Nat := 0
  ignoredPackets : Nat := 0
  ackPackets : Nat := 0
  staleMessageSeq : Option Nat := none
  staleFrames : Nat := 0
  staleTotal : Nat := 0

/-- `_response_wait_message`. -/
def responseWaitMessage (reason : Str) (timeoutMs : Nat) (c : Collect) : Str :=
  reason ++ py "; timeout_ms=" ++ strNat timeoutMs ++ py " reads=" ++ strNat c.reads ++
    py " accepted=" ++ strNat c.frames.length ++ py " ignored=" ++ strNat c.ignoredPackets ++
    py " ack=" ++ strNat c.ackPackets

def ignoredLimit (a : CollectArgs) (c : Collect) : Exn :=
  ⟨.datastoreTimeout, responseWaitMessage (py "response ignored packet limit exceeded after " ++
    strNat a.maxIgnoredPackets ++ py " packets") a.timeoutMs c⟩

def responseLimit (message : Str) : Exn := ⟨.datastoreResponseLimit, message⟩

/-- What the collector does with a packet: the variables afterwards, an exception raised before the
acknowledgement, whether one is written, an exception raised after it, and the `break`. -/
structure Reaction where
  next : Collect
  early : Option Exn := none
  ack : Bool := false
  late : Option Exn := none
  stop : Bool := false

/-- A packet that is counted as ignored. -/
def ignorePacket (a : CollectArgs) (c : Collect) (ack : Bool) : Reaction :=
  let c := { c with ignoredPackets := c.ignoredPackets + 1 }
  { next := c, ack, late := if a.maxIgnoredPackets < c.ignoredPackets then some (ignoredLimit a c) else none }

/-- A valid frame of another message sequence. -/
def staleFrame (a : CollectArgs) (c : Collect) (messageSeq : Nat) (packet : Bytes)
    (parsedStale : ResponseFrame) : Reaction :=
  let c := if c.staleMessageSeq ≠ some messageSeq then
      { c with staleMessageSeq := some messageSeq, staleFrames := 0, staleTotal := 0 } else c
  let c := { c with
    staleFrames := c.staleFrames + 1
    staleTotal := c.staleTotal + packet.length
    ignoredPackets := c.ignoredPackets + 1 }
  if a.maxResponseFrames < c.staleFrames then
    { next := c, ack := true, late := some (responseLimit (py "stale response exceeded " ++
      strNat a.maxResponseFrames ++ py " frames")) }
  else if a.maxBytes < c.staleTotal then
    { next := c, ack := true, late := some (responseLimit (py "stale response exceeded " ++
      strNat a.maxBytes ++ py " bytes")) }
  else if parsedStale.final then
    { next := { c with staleMessageSeq := none, staleFrames := 0, staleTotal := 0 }, ack := true }
  else { next := c, ack := true }

/-- A valid frame of the expected message sequence. -/
def currentFrame (a : CollectArgs) (c : Collect) (packet : Bytes) (parsed : ResponseFrame) :
    Reaction :=
  let c := { c with frames := c.frames ++ [parsed], total := c.total + packet.length }
  if a.maxResponseFrames < c.frames.length then
    { next := c, early := some (responseLimit (py "response exceeded " ++
      strNat a.maxResponseFrames ++ py " frames")) }
  else if a.maxBytes < c.total then
    { next := c, ack := true, late := some (responseLimit (py "response exceeded " ++
      strNat a.maxBytes ++ py " bytes")) }
  else { next := c, ack := true, stop := parsed.final }

/-- `packet[4:] if len(packet) >= 4 else packet` starts with `NREK` or `PTTH`. -/
def hasResponseHeader (packet : Bytes) : Bool :=
  let body := if 4 ≤ packet.length then packet.drop 4 else packet
  NREK.isPrefixOf body || PTTH.isPrefixOf body

/-- The body of the collector's loop for a packet that is not empty. -/
def react (a : CollectArgs) (c : Collect) (packet : Bytes) : Reaction :=
  let c := { c with quietReads := 0 }
  if isDeviceAck packet then { next := { c with ackPackets := c.ackPackets + 1 } }
  else if hasResponseHeader packet then
    let messageSeq := responseMessageSeq packet
    match messageSeq with
    | some seq =>
      if seq ≠ a.expectedMessageSeq then
        match parseResponseFrame packet seq with
        | .error _ => ignorePacket a c true
        | .ok parsedStale => staleFrame a c seq packet parsedStale
      else match parseResponseFrame packet a.expectedMessageSeq with
        | .error e => { next := c, early := some e }
        | .ok parsed => currentFrame a c packet parsed
    | none => match parseResponseFrame packet a.expectedMessageSeq with
      | .error _ => ignorePacket a c false
      | .ok parsed => currentFrame a c packet parsed
  else ignorePacket a c false

namespace MotuUsbDatastore

/-- `_next_host_seq`. -/
def nextHostSeq : Proc Nat :=
  modifyGet fun s => (s.hostSeq, { s with hostSeq := Protocol.nextHostSeq s.hostSeq })

/-- `_current_message_seq`. -/
def currentMessageSeq (s : MotuUsbDatastore) : Nat := (s.messageSeq % 2 ^ 32).toNat

/-- `_advance_message_seq`. -/
def advanceMessageSeq : Proc Unit :=
  modify fun s => { s with messageSeq := ((s.currentMessageSeq + 1) % 2 ^ 32 : Nat) }

/-- `transport.bulk_write`: only a frame that is written completely reaches the device. -/
def bulkWrite (frame : Bytes) : Proc Nat := fun s =>
  let w := { s.wire with writes := s.wire.writes.tail, handed := s.wire.handed ++ [frame] }
  let sent := { w with delivered := w.delivered ++ [frame] }
  match s.wire.writes with
  | [] | .full :: _ => .ok frame.length { s with wire := sent }
  | .count written :: _ =>
    .ok written { s with wire := if written = frame.length then sent else w }
  | .raise e :: _ => .error e { s with wire := w }

def writeFrame (frame : Bytes) : Proc Unit := do
  let written ← bulkWrite frame
  if written ≠ frame.length then
    throw ⟨.shortUsbWrite, py "short USB write: wrote " ++ strNat written ++ py " of " ++
      strNat frame.length ++ py " bytes"⟩

/-- `time.monotonic()`, in milliseconds. -/
def monotonic : Proc Nat := fun s =>
  match s.wire.clock with
  | [] => .ok s.wire.now s
  | t :: clock => .ok t { s with wire := { s.wire with now := t, clock } }

/-- The callback `should_cancel`, if one is given. -/
def shouldCancel (given : Bool) : Proc Bool := fun s =>
  if given then match s.wire.cancels with
    | [] => .ok false s
    | b :: cancels => .ok b { s with wire := { s.wire with cancels } }
  else .ok false s

/-- `_read_logical_frame` on the transport. -/
def readFrame (useCancellableRead : Bool) : Proc Bytes := fun s =>
  match readLogicalFrame useCancellableRead s.wire.reads with
  | (.ok packet, reads) => .ok packet { s with wire := { s.wire with reads } }
  | (.error e, reads) => .error e { s with wire := { s.wire with reads } }

/-- `_record_response_stats`. -/
def recordResponseStats (timeoutMs started : Nat) (c : Collect) : Proc Unit := do
  let now ← monotonic
  modify fun s => { s with lastResponseStats := some {
    timeoutMs
    elapsedMs := now - started
    reads := c.reads
    acceptedFrames := c.frames.length
    ignoredPackets := c.ignoredPackets
    ackPackets := c.ackPackets
    responseBytes := c.total } }

/-- Record the statistics and raise. -/
def failWith (a : CollectArgs) (started : Nat) (c : Collect) (e : Exn) : Proc α := do
  recordResponseStats a.timeoutMs started c
  throw e

def raiseIf (a : CollectArgs) (started : Nat) (c : Collect) : Option Exn → Proc Unit
  | none => pure ()
  | some e => failWith a started c e

def acknowledge : Bool → Proc Unit
  | false => pure ()
  | true => do writeFrame (buildAck (← nextHostSeq))

/-- Carry out a reaction: what it raises, its acknowledgement, and whether the loop stops. -/
def perform (a : CollectArgs) (started : Nat) (r : Reaction) : Proc (Collect × Bool) := do
  raiseIf a started r.next r.early
  acknowledge r.ack
  raiseIf a started r.next r.late
  return (r.next, r.stop)

/-- `read_timeout_slice_ms is not None and time.monotonic() < deadline`. -/
def sliceOnly (a : CollectArgs) (deadline : Nat) : Proc Bool :=
  if a.readTimeoutSliceMs.isSome then do return (← monotonic) < deadline else pure false

/-- One packet of the loop; an empty one is a quiet read, unless the read was only a slice of the
time that is left. -/
def handlePacket (a : CollectArgs) (started deadline : Nat) (c : Collect) (packet : Bytes) :
    Proc (Collect × Bool) :=
  if packet = [] then do
    let again ← sliceOnly a deadline
    return (if again then c else { c with quietReads := c.quietReads + 1 }, false)
  else perform a started (react a c packet)

def timedOut (a : CollectArgs) (c : Collect) : Exn :=
  if c.frames ≠ [] then
    ⟨.datastoreTimeout, responseWaitMessage (py "response timed out after " ++ strNat a.timeoutMs ++
      py " ms") a.timeoutMs c⟩
  else
    ⟨.datastoreNoResponse, responseWaitMessage (py "no datastore response after " ++
      strNat a.timeoutMs ++ py " ms") a.timeoutMs c⟩

def readLimit (a : CollectArgs) (c : Collect) : Exn :=
  ⟨.datastoreTimeout, responseWaitMessage (py "response read limit exceeded after " ++
    strNat a.maxReads ++ py " reads") a.timeoutMs c⟩

def collectionCancelled : Exn :=
  ⟨.datastoreCancelled, py "datastore response collection cancelled"⟩

/-- What comes before the read in the loop: cancellation, the read limit, the deadline. -/
def beforeRead (a : CollectArgs) (started deadline : Nat) (c : Collect) : Proc Unit := do
  let cancelled ← shouldCancel a.shouldCancel
  raiseIf a started c (if cancelled then some collectionCancelled else none)
  raiseIf a started c (if a.maxReads ≤ c.reads then some (readLimit a c) else none)
  let now ← monotonic
  raiseIf a started c (if deadline ≤ now then some (timedOut a c) else none)

/-- The read itself; a cancelled read records the statistics. -/
def readPacket (a : CollectArgs) (started : Nat) (c : Collect) : Proc Bytes := fun s =>
  match readFrame a.useCancellableRead s with
  | .ok packet s => .ok packet s
  | .error e s => if e.kind = .datastoreCancelled then failWith a started c e s else .error e s

/-- The loop of `_collect_response`. The first argument bounds the reads still allowed: every pass
reads once, and a pass with none left raises in `beforeRead`. -/
def collectLoop (a : CollectArgs) (started deadline : Nat) : Nat → Collect → Proc Collect
  | 0, c =>
    if 2 ≤ c.quietReads then pure c
    else do
      beforeRead a started deadline c
      return c
  | n + 1, c =>
    if 2 ≤ c.quietReads then pure c
    else do
      beforeRead a started deadline c
      let packet ← readPacket a started c
      let r ← handlePacket a started deadline { c with reads := c.reads + 1 } packet
      if r.2 then pure r.1 else collectLoop a started deadline n r.1

/-- Remember the payload of a response. -/
def remember (response : Bytes) : Proc Unit :=
  modify fun s => { s with
    lastResponsePayload := some (parseDatastoreResponse response)
    lastResponseEtag := (parseDatastoreResponse response).etag }

/-- What comes after the loop. -/
def finish (a : CollectArgs) (started : Nat) (c : Collect) : Proc Bytes :=
  if c.frames = [] then failWith a started c (timedOut a c)
  else match joinParsedResponseFrames c.frames with
    | .error e => failWith a started c e
    | .ok response => do
      remember response
      recordResponseStats a.timeoutMs started c
      return response

def collectResponse (a : CollectArgs) : Proc Bytes := do
  modify fun s => { s with
    lastResponseStats := none, lastResponseEtag := none, lastResponsePayload := none }
  let started ← monotonic
  let deadline := (← monotonic) + a.timeoutMs
  let c ← collectLoop a started deadline a.maxReads {}
  finish a started c

def liftExcept : Except Exn α → Proc α
  | .ok a => pure a
  | .error e => throw e

/-- What `get` and `post` have in common: a request under the current message sequence, which is
used up by a complete write only, and the collection of its response. -/
def exchange (build : Nat → Nat → Except Exn Bytes) (collect : Nat → CollectArgs) : Proc Bytes := do
  let messageSeq := (← MonadState.get).currentMessageSeq
  let seq ← nextHostSeq
  let frame ← liftExcept (build seq messageSeq)
  writeFrame frame
  advanceMessageSeq
  collectResponse (collect messageSeq)

/-- The loop of `_drain_quiet`, with the number of reads that are left. -/
def drainLoop (quietReads maxReads : Nat) : Nat → Nat → List Bytes → Proc (List Bytes)
  | 0, quiet, packets =>
    if quietReads ≤ quiet then pure packets
    else throw ⟨.datastoreTimeout, py "USB drain did not become quiet after " ++ strNat maxReads ++
      py " reads"⟩
  | n + 1, quiet, packets =>
    if quietReads ≤ quiet then pure packets
    else do
      let packet ← readFrame false
      if packet ≠ [] then drainLoop quietReads maxReads n 0 (packets ++ [packet])
      else drainLoop quietReads maxReads n (quiet + 1) packets

/-- `_drain_quiet`; the timeout of its reads belongs to the transport. -/
def drainQuiet (quietReads maxReads : Nat) : Proc (List Bytes) :=
  drainLoop quietReads maxReads maxReads 0 []

def init : Proc Unit := do
  writeFrame (buildInit (← nextHostSeq))
  discard (drainQuiet 1 16)

structure GetArgs where
  path : Str
  etag : Str := py "0"
  client : Option FieldValue := none
  timeoutMs : Nat := DEFAULT_RESPONSE_TIMEOUT_MS
  shouldCancel : Bool := false
  readTimeoutSliceMs : Option Nat := none
  useCancellableRead : Bool := false
  queryFields : Option (List QueryField) := none

def get (g : GetArgs) : Proc Bytes :=
  exchange
    (fun seq messageSeq =>
      buildGetFrame seq messageSeq g.path g.etag (py "NREK") g.client g.queryFields)
    fun messageSeq => {
      expectedMessageSeq := messageSeq
      timeoutMs := g.timeoutMs
      shouldCancel := g.shouldCancel
      readTimeoutSliceMs := g.readTimeoutSliceMs
      useCancellableRead := g.useCancellableRead }

structure PostArgs where
  path : Str
  jsonBody : Bytes
  client : Option FieldValue := none
  timeoutMs : Nat := DEFAULT_RESPONSE_TIMEOUT_MS

def post (p : PostArgs) : Proc Bytes :=
  exchange
    (fun seq messageSeq => buildPostFrame seq messageSeq p.path p.jsonBody (py "NREK") p.client)
    fun messageSeq => { expectedMessageSeq := messageSeq, timeoutMs := p.timeoutMs }

end MotuUsbDatastore

end Datastore

end MotuProxy
