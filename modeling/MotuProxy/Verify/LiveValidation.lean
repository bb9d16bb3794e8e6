import MotuProxy.Model.LiveValidate
import MotuProxy.Verify.FrameLemmas

/-! # The live validation agrees with the parser

A packet passes `validate_response_packet` exactly if `parse_response_frame` accepts it
(`errors_eq_nil_iff`), and the checks of a capture are free of errors exactly if the packets can be
joined.
-/

namespace MotuProxy

open Py Protocol Responses

namespace LiveValidate

variable {path : Str} {index seq : Nat} {packet : Bytes}

@[simp] theorem note_eq_nil {c : Prop} [Decidable c] {message : Str} : note c message = [] ↔ ¬c := by
  unfold note
  split <;> simp_all

theorem latin1Decode_inj {a b : Bytes} : latin1Decode a = latin1Decode b ↔ a = b :=
  List.map_inj_right fun _ _ => UInt8.toNat.inj

/-- The text of an ASCII header is one of the two exactly if its bytes are. -/
theorem headerText_iff {headerBytes : Bytes} (h : isAscii headerBytes = true) :
    ¬(headerText headerBytes ≠ py "NREK" ∧ headerText headerBytes ≠ py "PTTH") ↔
      headerBytes = NREK ∨ headerBytes = PTTH := by
  have hNREK : py "NREK" = latin1Decode NREK := by decide
  have hPTTH : py "PTTH" = latin1Decode PTTH := by decide
  rw [headerText, if_pos h, hNREK, hPTTH, not_and_or, not_not, not_not]
  exact or_congr latin1Decode_inj latin1Decode_inj

theorem wrapperErrors_eq_nil : wrapperErrors packet = [] ↔
    packet.word 1 1 = 0 ∧ 28 ≤ packet.word 2 2 ∧ packet.word 2 2 ≤ packet.length ∧
      isAscii (Bytes.slice ((logicalPacket packet).drop 4) 0 4) = true := by
  simp only [wrapperErrors, List.append_eq_nil_iff, note_eq_nil, not_not, not_lt, ne_eq, and_assoc]

/-- The payload and the trailer of a body that holds both. -/
theorem trailerOf_eq {body : Bytes} (h : 20 + body.word 2 18 ≤ body.length) :
    trailerOf body = body.drop (20 + body.word 2 18) := if_pos h

theorem payloadOf_eq {body : Bytes} (h : 20 + body.word 2 18 ≤ body.length) :
    payloadOf body = body.slice 20 (20 + body.word 2 18) := if_pos h

theorem length_payloadOf {body : Bytes} (h : 20 + body.word 2 18 ≤ body.length) :
    (payloadOf body).length = body.word 2 18 := by
  rw [payloadOf_eq h, Bytes.length_slice h]
  omega

/-- The checks of the payload's length and of the trailer, which stand apart in the tool. -/
theorem trailer_iff {wrapperHeader body : Bytes} :
    (20 + body.word 2 18 ≤ body.length ∧ (trailerOf body).length = 4 ∧
        trailerOf body = wrapperHeader) ↔
      20 + body.word 2 18 + 4 = body.length ∧
        body.slice (20 + body.word 2 18) (20 + body.word 2 18 + 4) = wrapperHeader := by
  constructor
  · rintro ⟨hle, hlen, htrailer⟩
    rw [trailerOf_eq hle] at hlen htrailer
    have hbody : 20 + body.word 2 18 + 4 = body.length := by
      rw [List.length_drop] at hlen
      omega
    refine ⟨hbody, ?_⟩
    rw [Bytes.slice, Nat.add_sub_cancel_left, List.take_of_length_le (Nat.le_of_eq hlen), htrailer]
  · rintro ⟨hbody, htrailer⟩
    have hle : 20 + body.word 2 18 ≤ body.length := by omega
    have hlen : (body.drop (20 + body.word 2 18)).length = 4 := by
      rw [List.length_drop]
      omega
    rw [trailerOf_eq hle]
    refine ⟨hle, hlen, ?_⟩
    rw [← htrailer, Bytes.slice, Nat.add_sub_cancel_left,
      List.take_of_length_le (Nat.le_of_eq hlen)]

theorem fieldErrors_eq_nil {wrapperHeader body : Bytes} (h : isAscii (body.slice 0 4) = true) :
    fieldErrors wrapperHeader body seq = [] ↔
      (body.slice 0 4 = NREK ∨ body.slice 0 4 = PTTH) ∧
      body.word 4 8 = seq ∧ (body.word 4 12 = 0 ∨ body.word 4 12 = 1) ∧
      20 + body.word 2 18 + 4 = body.length ∧
      body.word 4 4 = crc32 (body.slice 20 (20 + body.word 2 18)) ∧
      body.slice (20 + body.word 2 18) (20 + body.word 2 18 + 4) = wrapperHeader := by
  have hif {a b : Str} : (if (trailerOf body).length ≠ 4 then [a] else
      note (trailerOf body ≠ wrapperHeader) b) = [] ↔
        (trailerOf body).length = 4 ∧ trailerOf body = wrapperHeader := by
    split <;> simp_all
  simp only [fieldErrors, List.append_eq_nil_iff, note_eq_nil, headerText_iff h, hif, not_not, ne_eq,
    and_assoc]
  constructor
  · rintro ⟨hle, hheader, hcrc, hseq, hfinal, -, htrailer⟩
    obtain ⟨hbody, htrailer⟩ := trailer_iff.1 ⟨hle, htrailer⟩
    exact ⟨hheader, hseq, by tauto, hbody, payloadOf_eq hle ▸ hcrc, htrailer⟩
  · rintro ⟨hheader, hseq, hfinal, hbody, hcrc, htrailer⟩
    obtain ⟨hle, htrailer⟩ := trailer_iff.2 ⟨hbody, htrailer⟩
    exact ⟨hle, hheader, (payloadOf_eq hle).symm ▸ hcrc, hseq, by tauto,
      (length_payloadOf hle).symm, htrailer⟩

theorem logicalPacket_eq (h : packet.word 2 2 ≤ packet.length) :
    logicalPacket packet = packet.slice 0 (packet.word 2 2) := if_neg (Nat.not_lt.2 h)

theorem isAscii_of_magic {data : Bytes} (h : data = NREK ∨ data = PTTH) : isAscii data = true := by
  rcases h with rfl | rfl <;> decide +kernel

/-- A packet passes the tool's checks exactly if it passes those of the parser. -/
theorem errors_eq_nil_iff : (validateResponsePacket path index packet seq).errors = [] ↔
    WellFormed packet ∧ (frameBody packet).word 4 8 = seq := by
  constructor
  · intro h
    unfold validateResponsePacket at h
    split at h
    · simp at h
    · dsimp only at h
      split at h
      · simp at h
      · obtain ⟨hwrapper, hfields⟩ := List.append_eq_nil_iff.1 h
        obtain ⟨htype, hlen, hcomplete, hascii⟩ := wrapperErrors_eq_nil.1 hwrapper
        rw [logicalPacket_eq hcomplete] at hfields hascii
        obtain ⟨hheader, hseq, hfinal, hbody, hcrc, htrailer⟩ := (fieldErrors_eq_nil hascii).1 hfields
        exact ⟨⟨hlen.trans hcomplete, htype, hlen, hcomplete, hheader, hfinal, hbody, hcrc, htrailer⟩,
          hseq⟩
  · rintro ⟨h, hseq⟩
    have hlen := h.length_frameBody
    have hascii := isAscii_of_magic h.header
    have hlogical := logicalPacket_eq h.complete
    have h24 : ¬packet.length < 24 := by have := h.length; omega
    have h20 : ¬(frameBody packet).length < 20 := by have := h.wrapper; omega
    unfold validateResponsePacket
    rw [if_neg h24]
    dsimp only
    rw [hlogical, ← frameBody, if_neg h20]
    refine List.append_eq_nil_iff.2 ⟨wrapperErrors_eq_nil.2 ⟨h.type, h.wrapper, h.complete, ?_⟩,
      (fieldErrors_eq_nil hascii).2 ⟨h.header, hseq, h.final, h.payload, h.crc, h.trailer⟩⟩
    rw [hlogical]
    exact hascii

/-- What the tool reports of a well-formed packet is in the frame that is parsed. -/
theorem check_of_wellFormed (h : WellFormed packet) :
    (validateResponsePacket path index packet seq).messageSeq = (frameOf packet).messageSeq ∧
      (validateResponsePacket path index packet seq).finalField =
        (if (frameOf packet).final then 1 else 0) ∧
      (validateResponsePacket path index packet seq).segmentIndex = (frameOf packet).segmentIndex ∧
      (validateResponsePacket path index packet seq).payloadLen = (frameOf packet).payload.length := by
  have hlen := h.length_frameBody
  have h24 : ¬packet.length < 24 := by have := h.length; omega
  have h20 : ¬(frameBody packet).length < 20 := by have := h.wrapper; omega
  have hpayload : (frameOf packet).payload.length = (frameBody packet).word 2 18 := by
    have := h.length_payload
    have := h.payload
    omega
  unfold validateResponsePacket
  rw [if_neg h24]
  dsimp only
  rw [logicalPacket_eq h.complete, ← frameBody, if_neg h20]
  refine ⟨rfl, ?_, rfl, hpayload.symm⟩
  rcases h.final with hfinal | hfinal <;> simp [frameOf, hfinal]

theorem responsePayload_of_wellFormed (h : WellFormed packet) :
    responsePayload packet = (frameOf packet).payload := by
  have hlen := h.length_frameBody
  have h24 : ¬packet.length < 24 := by have := h.length; omega
  have h20 : ¬(frameBody packet).length < 20 := by have := h.wrapper; omega
  unfold responsePayload
  rw [if_neg h24]
  dsimp only
  rw [Nat.min_eq_left h.complete, ← frameBody, if_neg h20]
  rfl

/-! ## The packets of a response -/

variable {packets : List Bytes} {n m : Nat}

/-- The parser accepts the packet as one of the message `seq`. -/
def Accepted (seq : Nat) (packet : Bytes) : Prop :=
  WellFormed packet ∧ (frameBody packet).word 4 8 = seq

theorem mapM_parse_eq_ok {frames : List ResponseFrame} :
    packets.mapM (parseResponseFrame · seq) = .ok frames ↔
      (∀ packet ∈ packets, Accepted seq packet) ∧ frames = packets.map frameOf := by
  induction packets generalizing frames with
  | nil => simp [pure, Except.pure, eq_comm]
  | cons packet packets ih =>
    simp only [List.mapM_cons, except_bind_eq_ok, parseResponseFrame_eq_ok, ih, pure, Except.pure,
      Except.ok.injEq, List.forall_mem_cons, List.map_cons]
    constructor
    · rintro ⟨_, ⟨hw, hseq, rfl⟩, _, ⟨hall, rfl⟩, rfl⟩
      exact ⟨⟨⟨hw, hseq⟩, hall⟩, rfl⟩
    · rintro ⟨⟨⟨hw, hseq⟩, hall⟩, rfl⟩
      exact ⟨_, ⟨hw, hseq, rfl⟩, _, ⟨hall, rfl⟩, rfl⟩

/-- The checks of the packets before their order is looked at. -/
def packetChecks (path : Str) (seq m : Nat) (packets : List Bytes) : List FrameCheck :=
  (packets.zipIdx m).map fun (packet, index) => validateResponsePacket path index packet seq

theorem accepted_of_checks
    (h : ∀ check ∈ validateFrom n (packetChecks path seq m packets), check.errors = []) :
    ∀ packet ∈ packets, Accepted seq packet := by
  induction packets generalizing n m with
  | nil => simp
  | cons packet packets ih =>
    obtain ⟨hfirst, hrest⟩ := List.forall_mem_cons.1 h
    exact List.forall_mem_cons.2 ⟨errors_eq_nil_iff.1 (List.append_eq_nil_iff.1 hfirst).1, ih hrest⟩

/-- The tool and the parser make the same demands on the order of the frames. -/
theorem sequenceErrors_eq_nil {isLast : Bool} (h : WellFormed packet) :
    sequenceErrors n isLast (validateResponsePacket path index packet seq) = [] ↔
      (frameOf packet).segmentIndex = n ∧ (frameOf packet).final = isLast := by
  obtain ⟨-, hfinal, hindex, -⟩ := @check_of_wellFormed path index seq packet h
  unfold sequenceErrors
  rw [hfinal, hindex]
  cases (frameOf packet).final <;> cases isLast <;> simp

theorem checks_iff_joins (h : ∀ packet ∈ packets, Accepted seq packet) :
    (∀ check ∈ validateFrom n (packetChecks path seq m packets), check.errors = []) ↔
      ∃ response, joinFrom n (packets.map frameOf) = .ok response := by
  induction packets generalizing n m with
  | nil => simp [packetChecks, validateFrom, joinFrom]
  | cons packet packets ih =>
    obtain ⟨hp, hps⟩ := List.forall_mem_cons.1 h
    have hchecks : packetChecks path seq m (packet :: packets) =
        validateResponsePacket path m packet seq :: packetChecks path seq (m + 1) packets := rfl
    have hempty : (packetChecks path seq (m + 1) packets).isEmpty = packets.isEmpty := by
      cases packets <;> rfl
    have hflag : (¬((frameOf packet).final = true ∧ packets.map frameOf ≠ []) ∧
        ¬(¬(frameOf packet).final = true ∧ packets.map frameOf = [])) ↔
        (frameOf packet).final = packets.isEmpty := by
      cases packets <;> cases (frameOf packet).final <;> simp
    rw [hchecks, validateFrom, List.forall_mem_cons, ih hps, List.append_eq_nil_iff,
      errors_eq_nil_iff, sequenceErrors_eq_nil hp.1, hempty, ← hflag]
    simp only [List.map_cons, joinFrom, ite_error_eq_ok, except_map_eq_ok, not_not]
    constructor
    · rintro ⟨⟨-, hindex, hbefore, hlast⟩, response, hjoin⟩
      exact ⟨_, hindex, hbefore, hlast, response, hjoin, rfl⟩
    · rintro ⟨_, hindex, hbefore, hlast, response, hjoin, -⟩
      exact ⟨⟨hp, hindex, hbefore, hlast⟩, response, hjoin⟩

theorem joinResponseFrames_eq_ok {response : Bytes} :
    joinResponseFrames packets seq = .ok response ↔
      (∀ packet ∈ packets, Accepted seq packet) ∧ joinFrom 0 (packets.map frameOf) = .ok response := by
  simp only [joinResponseFrames, joinParsedResponseFrames, except_bind_eq_ok, mapM_parse_eq_ok]
  constructor
  · rintro ⟨_, ⟨hall, rfl⟩, hjoin⟩
    exact ⟨hall, hjoin⟩
  · rintro ⟨hall, hjoin⟩
    exact ⟨_, ⟨hall, rfl⟩, hjoin⟩

/-- The payloads that the tool joins are those of the frames. -/
theorem joinedResponse_eq {response : Bytes} (h : joinResponseFrames packets seq = .ok response) :
    joinedResponse packets = response := by
  obtain ⟨hall, hjoin⟩ := joinResponseFrames_eq_ok.1 h
  rw [(joinFrom_eq_ok.1 hjoin).1, joinedResponse, List.map_map]
  congr 1
  exact List.map_congr_left fun packet hp => responsePayload_of_wellFormed (hall packet hp).1

/-- The tool finds no error in the packets of a response exactly if the parser joins them, and then
joins the same bytes; of one packet it finds what the parser finds. -/
theorem live_validation_agrees (path : Str) (seq : Nat) (packets : List Bytes) :
    ((∀ check ∈ frameChecks path packets seq, check.errors = []) ↔
        ∃ response, joinResponseFrames packets seq = .ok response) ∧
      (∀ response, joinResponseFrames packets seq = .ok response →
        joinedResponse packets = response) ∧
      ∀ (index : Nat) (packet : Bytes),
        ((validateResponsePacket path index packet seq).errors = [] ↔
          ∃ frame, parseResponseFrame packet seq = .ok frame) ∧
        ∀ frame, parseResponseFrame packet seq = .ok frame →
          (validateResponsePacket path index packet seq).messageSeq = frame.messageSeq ∧
          (validateResponsePacket path index packet seq).finalField =
            (if frame.final then 1 else 0) ∧
          (validateResponsePacket path index packet seq).segmentIndex = frame.segmentIndex ∧
          (validateResponsePacket path index packet seq).payloadLen = frame.payload.length := by
  refine ⟨?_, fun _ => joinedResponse_eq, fun index packet => ⟨?_, ?_⟩⟩
  · simp only [joinResponseFrames_eq_ok, exists_and_left]
    constructor
    · intro h
      have hall := accepted_of_checks h
      exact ⟨hall, (checks_iff_joins hall).1 h⟩
    · rintro ⟨hall, hjoin⟩
      exact (checks_iff_joins hall).2 hjoin
  · rw [errors_eq_nil_iff]
    simp only [parseResponseFrame_eq_ok]
    constructor
    · rintro ⟨hw, hseq⟩
      exact ⟨_, hw, hseq, rfl⟩
    · rintro ⟨_, hw, hseq, -⟩
      exact ⟨hw, hseq⟩
  · intro frame hparse
    obtain ⟨hw, -, rfl⟩ := parseResponseFrame_eq_ok.1 hparse
    exact check_of_wellFormed hw

end LiveValidate

end MotuProxy
