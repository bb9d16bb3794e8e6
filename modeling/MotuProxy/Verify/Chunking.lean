import MotuProxy.Verify.Isolation

/-! # Chunks of a logical frame

A bulk read ends wherever the device ends a transfer, so a logical frame arrives in chunks that say
nothing about it but their bytes. A `Cutting` of a frame is any list of chunks that the device may
make of it; the transfer of the last one may be filled up with padding.

The read stops at the chunk that completes the announced length: before it the bytes fall short of
that length, whatever the chunks are (`completes_of_flatten`).
-/

namespace MotuProxy

open Py Protocol Responses

namespace Datastore

/-- The length field of a logical frame is its length. -/
structure Announced (frame : Bytes) : Prop where
  header : 4 ≤ frame.length
  length : frame.word 2 2 = frame.length

/-- A frame cut into chunks, the first of which holds the length field. -/
structure Cutting (frame : Bytes) where
  first : Bytes
  others : List Bytes
  header : 4 ≤ first.length
  nonempty : ∀ chunk ∈ others, chunk ≠ []
  flatten : first ++ others.flatten = frame

/-- Padding after the last chunk. -/
def padLast (padding : Bytes) : List Bytes → List Bytes
  | [] => []
  | [chunk] => [chunk ++ padding]
  | chunk :: chunk' :: chunks => chunk :: padLast padding (chunk' :: chunks)

/-- The reads that bring a frame. -/
def Cutting.reads (c : Cutting frame) (padding : Bytes) : List ReadEvent :=
  (padLast padding (c.first :: c.others)).map .data

/-! ## The loop -/

theorem flatten_padLast {chunks : List Bytes} (h : chunks ≠ []) :
    (padLast padding chunks).flatten = chunks.flatten ++ padding := by
  induction chunks with
  | nil => exact absurd rfl h
  | cons chunk chunks ih =>
    cases chunks with
    | nil => simp [padLast]
    | cons chunk' chunks =>
      rw [padLast, List.flatten_cons, ih (by simp), List.flatten_cons (l := chunk), List.append_assoc]

/-- The chunks before the last fall short of the frame, and the last one completes it. -/
theorem completes_of_flatten {chunks : List Bytes} {got : Bytes}
    (hne : ∀ chunk ∈ chunks, chunk ≠ []) (h : (got ++ chunks.flatten).length = n) :
    Delivery.Completes n got (padLast padding chunks) := by
  induction chunks generalizing got with
  | nil => exact Nat.le_of_eq (by simpa using h.symm)
  | cons chunk chunks ih =>
    have hchunk : 0 < chunk.length := List.length_pos_iff.mpr (hne chunk List.mem_cons_self)
    have hlen : got.length + chunk.length + chunks.flatten.length = n := by
      simpa [Nat.add_assoc] using h
    have hlt : got.length < n := by omega
    cases chunks with
    | nil =>
      refine ⟨hlt, ?_, ?_⟩
      · exact List.append_ne_nil_of_left_ne_nil (hne chunk List.mem_cons_self) padding
      · show n ≤ (got ++ (chunk ++ padding)).length
        simp only [List.length_append]
        simp only [List.flatten_nil, List.length_nil] at hlen
        omega
    | cons chunk' chunks =>
      refine ⟨hlt, hne chunk List.mem_cons_self, ih (fun c hc => hne c (List.mem_cons_of_mem _ hc)) ?_⟩
      simpa [Nat.add_assoc] using h

/-- Without its end a frame stays short, however many chunks have come. -/
theorem fallsShort_of_flatten {chunks : List Bytes} {got : Bytes}
    (hne : ∀ chunk ∈ chunks, chunk ≠ []) (h : (got ++ chunks.flatten).length < n) :
    Delivery.FallsShort n got chunks := by
  induction chunks generalizing got with
  | nil => simpa [Delivery.FallsShort] using h
  | cons chunk chunks ih =>
    have hlen : got.length + chunk.length + chunks.flatten.length < n := by
      simpa [Nat.add_assoc] using h
    refine ⟨by omega, hne chunk List.mem_cons_self, ih (fun c hc => hne c (List.mem_cons_of_mem _ hc)) ?_⟩
    simpa [Nat.add_assoc] using h

/-- An empty read before the announced length is there. -/
theorem readChunks_emptyRead {chunks : List Bytes} {got : Bytes}
    (h : Delivery.FallsShort n got chunks) :
    readChunks b n got (chunks.map .data ++ .data [] :: rest) =
      (.error (shortUsbFrame (got ++ chunks.flatten).length n), rest) := by
  induction chunks generalizing got with
  | nil =>
    have hlt : got.length < n := h
    simp [readChunks, hlt]
  | cons chunk chunks ih =>
    obtain ⟨hlt, hne, h⟩ := h
    cases chunk with
    | nil => exact absurd rfl hne
    | cons x xs =>
      have := ih h
      simp only [List.append_assoc] at this
      simpa [readChunks, hlt] using this

/-- The length field is read from the first chunk. -/
theorem Announced.word_first {first : Bytes} (h : Announced frame)
    (hfirst : first <+: frame) (hlen : 4 ≤ first.length) : first.word 2 2 = frame.length := by
  obtain ⟨tail, rfl⟩ := hfirst
  rw [← h.length, Bytes.word_append_left hlen]

/-! ## Whole frames -/

theorem readLogicalFrame_cutting (h : Announced frame) (c : Cutting frame) (padding : Bytes) :
    readLogicalFrame b (c.reads padding ++ rest) = (.ok (frame ++ padding), rest) := by
  obtain ⟨first, others, hlen, hne, rfl⟩ := c
  have hword := h.word_first (List.prefix_append first _) hlen
  have hheader := h.header
  cases others with
  | nil =>
    -- The only chunk is the last one: the padding comes with the header.
    have hfull : (first ++ padding).word 2 2 = first.length := by
      rw [Bytes.word_append_left (by omega), hword, List.flatten_nil, List.append_nil]
    have hstart : Delivery.Starts (first ++ padding) :=
      ⟨by rw [List.length_append]; omega, by omega⟩
    have hdone : Delivery.Completes ((first ++ padding).word 2 2) (first ++ padding) [] := by
      rw [hfull]
      exact Nat.le_trans (Nat.le_add_right _ _) (Nat.le_of_eq List.length_append.symm)
    have hread : readChunks b ((first ++ padding).word 2 2) (first ++ padding)
        (([] : List Bytes).map .data ++ rest) = _ := readChunks_completes hdone
    simpa [Cutting.reads, padLast, readLogicalFrame_first hstart] using hread
  | cons chunk chunks =>
    have hstart : Delivery.Starts first := ⟨hlen, by omega⟩
    have hdone : Delivery.Completes (first.word 2 2) first (padLast padding (chunk :: chunks)) :=
      completes_of_flatten hne hword.symm
    have hpad : (padLast padding (chunk :: chunks)).flatten = (chunk :: chunks).flatten ++ padding :=
      flatten_padLast (by simp)
    show readLogicalFrame b (.data first :: (padLast padding (chunk :: chunks)).map .data ++ rest) = _
    rw [List.cons_append, readLogicalFrame_first hstart, readChunks_completes hdone, hpad,
      List.append_assoc]

/-- What follows a valid frame in its packet does not change what it parses to. -/
theorem parseResponseFrame_padding (h : Announced frame)
    (hparse : parseResponseFrame frame seq = .ok parsed) (padding : Bytes) :
    parseResponseFrame (frame ++ padding) seq = .ok parsed := by
  obtain ⟨hwf, hseq, rfl⟩ := parseResponseFrame_eq_ok.mp hparse
  have heq : frame = encode (frameOf frame) := by
    have hall := hwf.eq_encode
    rwa [h.length, List.drop_length, List.append_nil] at hall
  have hpadded := hwf.fits.parseResponseFrame_encode (q := padding)
  rw [← heq] at hpadded
  rw [← hseq]
  exact hpadded

/-- A frame that breaks off. -/
theorem readLogicalFrame_brokenOff (h : Announced frame) {first : Bytes} {others : List Bytes}
    (hfirst : first ≠ []) (hne : ∀ chunk ∈ others, chunk ≠ [])
    (hpre : first ++ others.flatten <+: frame) (hlt : (first ++ others.flatten).length < frame.length) :
    ∃ message reads, readLogicalFrame b (.data first :: (others.map .data ++ .data [] :: rest)) =
      (.error ⟨.shortUsbFrame, message⟩, reads) := by
  by_cases hlen : first.length < 4
  · obtain ⟨message, hm⟩ := readLogicalFrame_runt (b := b) hfirst fun h => by have := h.1; omega
    exact ⟨message, _, hm⟩
  · have hword := h.word_first ((List.prefix_append first _).trans hpre) (by omega)
    have hstart : Delivery.Starts first := ⟨by omega, by have := h.header; omega⟩
    rw [← hword] at hlt
    rw [readLogicalFrame_first hstart, readChunks_emptyRead (fallsShort_of_flatten hne hlt)]
    exact ⟨_, _, rfl⟩

/-- The read of a logical frame does not depend on its chunks: the frame comes whole with its
padding, the reads after it are left, and a valid response parses to the same frame. What breaks off
or does not start a frame raises. -/
theorem reassembly_of_chunks (b : Bool) :
    (∀ (frame : Bytes), Announced frame → ∀ (c : Cutting frame) (padding : Bytes)
      (rest : List ReadEvent),
      readLogicalFrame b (c.reads padding ++ rest) = (.ok (frame ++ padding), rest) ∧
      ∀ seq parsed, parseResponseFrame frame seq = .ok parsed →
        parseResponseFrame (frame ++ padding) seq = .ok parsed) ∧
    (∀ (frame : Bytes), Announced frame → ∀ (first : Bytes) (others : List Bytes)
      (rest : List ReadEvent), first ≠ [] → (∀ chunk ∈ others, chunk ≠ []) →
      first ++ others.flatten <+: frame → (first ++ others.flatten).length < frame.length →
      ∃ message reads, readLogicalFrame b (.data first :: (others.map .data ++ .data [] :: rest)) =
        (.error ⟨.shortUsbFrame, message⟩, reads)) ∧
    ∀ (first : Bytes) (rest : List ReadEvent), first ≠ [] →
      first.length < 4 ∨ first.word 2 2 < 4 →
      ∃ message, readLogicalFrame b (.data first :: rest) =
        (.error ⟨.shortUsbFrame, message⟩, rest) := by
  refine ⟨fun frame h c padding rest => ⟨readLogicalFrame_cutting h c padding, ?_⟩, ?_, ?_⟩
  · intro seq parsed hparse
    exact parseResponseFrame_padding h hparse padding
  · intro frame h first others rest hfirst hne hpre hlt
    exact readLogicalFrame_brokenOff h hfirst hne hpre hlt
  · intro first rest hne h
    exact readLogicalFrame_runt hne fun hs => by have := hs.1; have := hs.2; omega

/-- A frame of six bytes in two chunks, the second with a byte of padding, before a quiet read. -/
theorem reassembly_of_two_chunks :
    readLogicalFrame false [.data [0x21, 0, 6, 0], .data [1, 2, 0xff], .data []] =
      (.ok [0x21, 0, 6, 0, 1, 2, 0xff], [.data []]) := by
  refine (((reassembly_of_chunks false).1 [0x21, 0, 6, 0, 1, 2] ⟨by decide, by decide⟩
    { first := [0x21, 0, 6, 0]
      others := [[1, 2]]
      header := by decide
      nonempty := by decide
      flatten := by decide } [0xff] [.data []])).1

end Datastore

end MotuProxy
