import MotuProxy.Verify.FrameLemmas

/-! # What the collector makes of a packet

`ReactCase` says once what `react` can do with a packet: a case for each branch, with what the
branch has found out about the packet. What a packet does to the variables of the collector and to
the wire is read off the case.
-/

namespace MotuProxy

open Py Protocol Responses

namespace Datastore

variable {a : CollectArgs} {c : Collect} {packet : Bytes}

/-! ## The message sequence of a packet -/

theorem responseMessageSeq_eq_some (h : responseMessageSeq packet = some seq) :
    hasResponseHeader packet = true ∧ isDeviceAck packet = false := by
  unfold responseMessageSeq at h
  simp only at h
  split at h
  · cases h
  split at h
  · cases h
  split at h
  · cases h
  rename_i hlen hwrap hbody
  have hfour : (packet.slice 4 (packet.word 2 2)).slice 0 4 = (packet.drop 4).take 4 := by
    simp only [Bytes.slice, List.drop_zero, Nat.sub_zero, List.take_take]
    congr 1
    omega
  rw [hfour] at hbody
  refine ⟨?_, ?_⟩
  · have hpre {h : Bytes} (hh : (packet.drop 4).take 4 = h) : h.isPrefixOf (packet.drop 4) = true := by
      rw [List.isPrefixOf_iff_prefix, ← hh]
      exact List.take_prefix _ _
    unfold hasResponseHeader
    rw [if_pos (by omega)]
    simp only [Bool.or_eq_true]
    by_cases hn : (packet.drop 4).take 4 = NREK
    · exact .inl (hpre hn)
    · exact .inr (hpre (by tauto))
  · unfold isDeviceAck
    have : ¬packet.length = 8 := by omega
    simp [this]

theorem responseMessageSeq_of_wellFormed (h : WellFormed packet) :
    responseMessageSeq packet = some ((frameBody packet).word 4 8) := by
  have hlen := h.length
  have hwrap := h.wrapper
  have hcompl := h.complete
  have hbody : packet.slice 4 (packet.word 2 2) = frameBody packet := by
    simp only [frameBody, Bytes.slice, List.drop_take, List.drop_zero, Nat.sub_zero]
  have hblen := h.length_frameBody
  have hhead := h.header
  unfold responseMessageSeq
  simp only [hbody]
  rw [if_neg (by omega), if_neg (by omega), if_neg]
  rintro (hshort | hother)
  · omega
  · tauto

/-- A packet is a valid response frame, of whatever sequence. -/
def Valid (packet : Bytes) : Prop := ∃ seq f, parseResponseFrame packet seq = .ok f

theorem responseMessageSeq_of_parse (h : parseResponseFrame packet seq = .ok f) :
    responseMessageSeq packet = some seq := by
  obtain ⟨hwf, hseq, -⟩ := parseResponseFrame_eq_ok.mp h
  rw [responseMessageSeq_of_wellFormed hwf, hseq]

theorem not_valid (hseq : responseMessageSeq packet = some seq)
    (hp : parseResponseFrame packet seq = .error e) : ¬Valid packet := by
  rintro ⟨seq', f, hf⟩
  cases hseq.symm.trans (responseMessageSeq_of_parse hf)
  cases hp.symm.trans hf

theorem react_current (h : parseResponseFrame packet a.expectedMessageSeq = .ok f) :
    react a c packet = currentFrame a { c with quietReads := 0 } packet f := by
  have hseq := responseMessageSeq_of_parse h
  obtain ⟨hhead, hack⟩ := responseMessageSeq_eq_some hseq
  simp [react, hack, hhead, hseq, h]

/-! ## The branches -/

/-- The branches of `react`. -/
inductive ReactCase (a : CollectArgs) (c : Collect) (packet : Bytes) : Reaction → Prop
  /-- An acknowledgement of the device. -/
  | deviceAck (hack : isDeviceAck packet = true) :
    ReactCase a c packet { next := { c with quietReads := 0, ackPackets := c.ackPackets + 1 } }
  /-- A damaged frame of the expected sequence. -/
  | damaged (hseq : responseMessageSeq packet = some a.expectedMessageSeq)
      (hp : parseResponseFrame packet a.expectedMessageSeq = .error e) :
    ReactCase a c packet { next := { c with quietReads := 0 }, early := some e }
  /-- A frame of the expected sequence. -/
  | current (hp : parseResponseFrame packet a.expectedMessageSeq = .ok f) :
    ReactCase a c packet (currentFrame a { c with quietReads := 0 } packet f)
  /-- A damaged frame of another sequence. -/
  | otherDamaged (hseq : responseMessageSeq packet = some seq) (hne : seq ≠ a.expectedMessageSeq)
      (hp : parseResponseFrame packet seq = .error e) :
    ReactCase a c packet (ignorePacket a { c with quietReads := 0 } true)
  /-- A frame of another sequence. -/
  | stale (hseq : responseMessageSeq packet = some seq) (hne : seq ≠ a.expectedMessageSeq)
      (hp : parseResponseFrame packet seq = .ok f) :
    ReactCase a c packet (staleFrame a { c with quietReads := 0 } seq packet f)
  /-- Anything else. -/
  | unknown (hack : isDeviceAck packet = false) (hseq : responseMessageSeq packet = none) :
    ReactCase a c packet (ignorePacket a { c with quietReads := 0 } false)

theorem react_cases (a : CollectArgs) (c : Collect) (packet : Bytes) :
    ReactCase a c packet (react a c packet) := by
  cases hack : isDeviceAck packet with
  | true =>
    simp only [react, hack, if_true]
    exact .deviceAck hack
  | false =>
    cases hseq : responseMessageSeq packet with
    | none =>
      have hparse : ∃ e, parseResponseFrame packet a.expectedMessageSeq = .error e := by
        cases hp : parseResponseFrame packet a.expectedMessageSeq with
        | error e => exact ⟨e, rfl⟩
        | ok f => cases hseq.symm.trans (responseMessageSeq_of_parse hp)
      obtain ⟨e, hp⟩ := hparse
      have hr : react a c packet = ignorePacket a { c with quietReads := 0 } false := by
        cases hhead : hasResponseHeader packet <;> simp [react, hack, hhead, hseq, hp]
      rw [hr]
      exact .unknown hack hseq
    | some seq =>
      have hhead := (responseMessageSeq_eq_some hseq).1
      by_cases hne : seq = a.expectedMessageSeq
      · subst hne
        cases hp : parseResponseFrame packet a.expectedMessageSeq with
        | error e =>
          have hr : react a c packet = { next := { c with quietReads := 0 }, early := some e } := by
            simp [react, hack, hhead, hseq, hp]
          rw [hr]
          exact .damaged hseq hp
        | ok f =>
          rw [react_current hp]
          exact .current hp
      · cases hp : parseResponseFrame packet seq with
        | error e =>
          have hr : react a c packet = ignorePacket a { c with quietReads := 0 } true := by
            simp [react, hack, hhead, hseq, hne, hp]
          rw [hr]
          exact .otherDamaged hseq hne hp
        | ok f =>
          have hr : react a c packet = staleFrame a { c with quietReads := 0 } seq packet f := by
            simp [react, hack, hhead, hseq, hne, hp]
          rw [hr]
          exact .stale hseq hne hp

/-! ## The variables afterwards -/

/-- What a stale frame leaves alone. -/
theorem staleFrame_next : ∃ seq frames total, (staleFrame a c m packet f).next =
    { c with
      staleMessageSeq := seq
      staleFrames := frames
      staleTotal := total
      ignoredPackets := c.ignoredPackets + 1 } := by
  unfold staleFrame
  simp only
  split <;> split <;> try split <;> try split
  all_goals exact ⟨_, _, _, rfl⟩

theorem currentFrame_next : (currentFrame a c packet f).next =
    { c with frames := c.frames ++ [f], total := c.total + packet.length } := by
  unfold currentFrame
  simp only
  split
  · rfl
  · split <;> rfl

/-- A frame of the response within the limits. -/
theorem currentFrame_within (hframes : c.frames.length + 1 ≤ a.maxResponseFrames)
    (hbytes : c.total + packet.length ≤ a.maxBytes) : currentFrame a c packet f =
      { next := { c with frames := c.frames ++ [f], total := c.total + packet.length }
        ack := true
        stop := f.final } := by
  rw [currentFrame]
  simp only
  rw [if_neg (by simp only [List.length_append, List.length_singleton]; omega), if_neg (by omega)]

theorem staleFrame_frames : (staleFrame a c seq packet f).next.frames = c.frames := by
  obtain ⟨_, _, _, h⟩ := staleFrame_next (a := a) (c := c) (m := seq) (f := f)
  rw [h]

theorem currentFrame_frames : (currentFrame a c packet f).next.frames = c.frames ++ [f] := by
  rw [currentFrame_next]

theorem react_reads (a : CollectArgs) (c : Collect) (packet : Bytes) :
    (react a c packet).next.reads = c.reads := by
  have hcase := react_cases a c packet
  generalize react a c packet = r at hcase ⊢
  cases hcase with
  | current => rw [currentFrame_next]
  | @stale seq f =>
    obtain ⟨_, _, _, h⟩ := staleFrame_next (a := a) (c := { c with quietReads := 0 }) (m := seq)
      (f := f)
    rw [h]
  | deviceAck | damaged | otherDamaged | unknown => rfl

theorem react_quietReads (a : CollectArgs) (c : Collect) (packet : Bytes) :
    (react a c packet).next.quietReads = 0 := by
  have hcase := react_cases a c packet
  generalize react a c packet = r at hcase ⊢
  cases hcase with
  | current => rw [currentFrame_next]
  | @stale seq f =>
    obtain ⟨_, _, _, h⟩ := staleFrame_next (a := a) (c := { c with quietReads := 0 }) (m := seq)
      (f := f)
    rw [h]
  | deviceAck | damaged | otherDamaged | unknown => rfl

end Datastore

end MotuProxy
