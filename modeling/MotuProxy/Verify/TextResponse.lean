import Mathlib.Data.List.Basic
import MotuProxy.Verify.Envelope
import MotuProxy.Verify.Text

/-! # The textual envelope

A textual response is header lines, a blank line and a body. `_split_text_http_response` looks for
the two newline conventions one after the other in the whole response, so that lines which end in LF
are told from the body only while the body holds no CRLF pair (`text_response_split_iff`).
-/

namespace MotuProxy

open Py Protocol

namespace Responses

/-! ## Header lines -/

inductive Newline where
  | crlf | lf
  deriving DecidableEq, Repr

def Newline.bytes : Newline → Bytes
  | .crlf => CRLF
  | .lf => [0x0A]

/-- The header lines of a textual response. -/
structure HeaderLines where
  lines : List Bytes
  nonempty : lines ≠ []
  plain : ∀ l ∈ lines, l ≠ [] ∧ 0x0D ∉ l ∧ 0x0A ∉ l
  http : [0x48, 0x54, 0x54, 0x50, 0x2F] <+: lines.head nonempty

/-- The line is a header with the name `etag`. -/
def IsEtagLine (line : Str) : Prop :=
  0x3A ∈ line ∧ lower (strip (line.takeWhile (· ≠ 0x3A))) = py "etag"

instance (line : Str) : Decidable (IsEtagLine line) := inferInstanceAs (Decidable (_ ∧ _))

/-- The value of a header line, if it is not blank. -/
def lineText (line : Str) : Option Str :=
  let value := strip ((line.dropWhile (· ≠ 0x3A)).drop 1)
  if value = [] then none else some value

/-- The value of the last header line with the name `etag`. -/
def lastEtagLine (lines : List Str) : Option Str :=
  (lines.filter (IsEtagLine ·)).getLast?.bind lineText

namespace HeaderLines

def response (head : HeaderLines) (nl : Newline) (body : Bytes) : Bytes :=
  nl.bytes.intercalate head.lines ++ nl.bytes ++ nl.bytes ++ body

/-- What the response stands for: the body, and the status and the last `etag` of the lines. -/
def payload (head : HeaderLines) (body : Bytes) : DatastorePayload where
  body := body
  etag := lastEtagLine (head.lines.map latin1Decode)
  status := parseTextStatus (latin1Decode (head.lines.head head.nonempty))

end HeaderLines

/-! ## The lines of the header block -/

theorem partition_eq (sep : Nat) (s : Str) :
    partition sep s =
      (s.takeWhile (· ≠ sep), decide (sep ∈ s), (s.dropWhile (· ≠ sep)).drop 1) := by
  induction s with
  | nil => simp [partition]
  | cons c s ih =>
    by_cases h : c = sep
    · simp [partition, h]
    · simp [partition, h, ih, Ne.symm h]

theorem textEtag_eq (lines : List Str) : textEtag lines = lastEtagLine lines := by
  have hloop : textEtag lines = lines.foldl
      (fun etag line => if decide (IsEtagLine line) then lineText line else etag) none := by
    refine List.foldl_ext _ _ _ fun etag line _ => ?_
    simp only [partition_eq, IsEtagLine, lineText]
    generalize strip ((line.dropWhile (· ≠ 0x3A)).drop 1) = value
    cases value <;> simp
  rw [hloop, foldl_ite_eq_getLast?, lastEtagLine]
  cases (lines.filter (IsEtagLine ·)).getLast? <;> rfl

/-- The status line is no header. -/
theorem not_isEtagLine_http {line : Bytes} (h : [0x48, 0x54, 0x54, 0x50, 0x2F] <+: line) :
    ¬IsEtagLine (latin1Decode line) := by
  obtain ⟨rest, rfl⟩ := h
  rintro ⟨-, hname⟩
  obtain ⟨name, hline⟩ : ∃ name, (latin1Decode ([0x48, 0x54, 0x54, 0x50, 0x2F] ++ rest)).takeWhile
      (· ≠ 0x3A) = 0x48 :: name := ⟨_, rfl⟩
  have hstrip : strip (0x48 :: name) = 0x48 :: rstripBy isSpace name := by
    rw [strip, lstripBy_eq_self (by rintro c ⟨⟩; decide)]
    exact @rstripBy_append isSpace [] name 0x48 (by decide)
  rw [hline, hstrip] at hname
  have hhead : some 0x68 = (py "etag").head? := congrArg List.head? hname
  exact absurd hhead (by decide)

theorem normalizeNewlines_append {l s : Str} (h : 0x0D ∉ l) :
    normalizeNewlines (l ++ s) = l ++ normalizeNewlines s := by
  induction l with
  | nil => rfl
  | cons c l ih =>
    obtain ⟨hc, hl⟩ := not_or.mp (mt List.mem_cons.mpr h)
    rw [List.cons_append, normalizeNewlines, ih hl, List.cons_append]
    · exact fun _ heq _ => hc heq.symm
    · exact fun heq => hc heq.symm

theorem mem_latin1Decode (b : UInt8) (data : Bytes) : b.toNat ∈ latin1Decode data ↔ b ∈ data :=
  List.mem_map_of_injective fun _ _ => UInt8.toNat_inj.mp

/-- The lines come back, whichever newline stands between them. -/
theorem splitOn_header_lines {nl : Newline} {lines : List Bytes} (hne : lines ≠ [])
    (hplain : ∀ l ∈ lines, l ≠ [] ∧ 0x0D ∉ l ∧ 0x0A ∉ l) :
    splitOn 0x0A (normalizeNewlines (latin1Decode (nl.bytes.intercalate lines))) =
      lines.map latin1Decode := by
  induction lines with
  | nil => exact absurd rfl hne
  | cons l lines ih =>
    obtain ⟨⟨-, hcr, hlf⟩, hrest⟩ := List.forall_mem_cons.mp hplain
    have hcr' : 0x0D ∉ latin1Decode l := mt (mem_latin1Decode 0x0D l).mp hcr
    have hlf' : 0x0A ∉ latin1Decode l := mt (mem_latin1Decode 0x0A l).mp hlf
    cases lines with
    | nil =>
      have hself := normalizeNewlines_append (s := []) hcr'
      rw [List.append_nil, normalizeNewlines, List.append_nil] at hself
      rw [List.intercalate_singleton, hself, splitOn_eq_self hlf']
      rfl
    | cons l' lines =>
      have hdecode (rest : Bytes) : normalizeNewlines (latin1Decode (l ++ nl.bytes ++ rest)) =
          latin1Decode l ++ 0x0A :: normalizeNewlines (latin1Decode rest) := by
        rw [List.append_assoc, latin1Decode, List.map_append, ← latin1Decode,
          normalizeNewlines_append hcr']
        cases nl <;> rfl
      rw [List.intercalate_cons_cons, hdecode, splitOn_append_sep, splitOn_eq_self hlf',
        ih (List.cons_ne_nil _ _) hrest]
      rfl

/-! ## The blank line -/

/-- A newline before a line is not a blank line. -/
theorem find_newline {nl : Newline} {b : UInt8} {rest : Bytes} (hcr : b ≠ 0x0D) (hlf : b ≠ 0x0A) :
    find (nl.bytes ++ nl.bytes) (nl.bytes ++ b :: rest) =
      (find (nl.bytes ++ nl.bytes) (b :: rest)).map (· + nl.bytes.length) := by
  cases nl with
  | crlf =>
    have h₁ : ¬(CRLF ++ CRLF).isPrefixOf (0x0D :: 0x0A :: b :: rest) = true := by
      simp [CRLF, List.isPrefixOf, hcr.symm]
    have h₂ : ¬(CRLF ++ CRLF).isPrefixOf (0x0A :: b :: rest) = true := by
      simp [CRLF, List.isPrefixOf]
    change find (CRLF ++ CRLF) (0x0D :: 0x0A :: b :: rest) = _
    rw [find, if_neg h₁, find, if_neg h₂, Option.map_map]
    rfl
  | lf =>
    have h₁ : ¬([0x0A] ++ [0x0A] : Bytes).isPrefixOf (0x0A :: b :: rest) = true := by
      simp [List.isPrefixOf, hlf.symm]
    change find ([0x0A] ++ [0x0A]) (0x0A :: b :: rest) = _
    rw [find, if_neg h₁]
    rfl

theorem find_blank_line {nl : Newline} {lines : List Bytes} {body : Bytes} (hne : lines ≠ [])
    (hplain : ∀ l ∈ lines, l ≠ [] ∧ 0x0D ∉ l ∧ 0x0A ∉ l) :
    find (nl.bytes ++ nl.bytes) (nl.bytes.intercalate lines ++ (nl.bytes ++ nl.bytes ++ body)) =
      some (nl.bytes.intercalate lines).length := by
  have hskip {l rest : Bytes} (hl : 0x0D ∉ l ∧ 0x0A ∉ l) : find (nl.bytes ++ nl.bytes) (l ++ rest) =
      (find (nl.bytes ++ nl.bytes) rest).map (· + l.length) := by
    cases nl with
    | crlf => exact find_append hl.1
    | lf => exact find_append hl.2
  induction lines with
  | nil => exact absurd rfl hne
  | cons l lines ih =>
    obtain ⟨⟨-, hl⟩, hrest⟩ := List.forall_mem_cons.mp hplain
    cases lines with
    | nil =>
      rw [List.intercalate_singleton, hskip hl, find_of_prefix (List.prefix_append _ _)]
      simp
    | cons l' lines =>
      obtain ⟨⟨hl'ne, hl'⟩, -⟩ := List.forall_mem_cons.mp hrest
      obtain ⟨b, t, rfl⟩ := List.exists_cons_of_ne_nil hl'ne
      have hb : b ≠ 0x0D ∧ b ≠ 0x0A :=
        ⟨fun h => hl'.1 (h ▸ List.mem_cons_self ..), fun h => hl'.2 (h ▸ List.mem_cons_self ..)⟩
      have ih := ih (List.cons_ne_nil _ _) hrest
      rw [List.intercalate_cons_cons]
      rw [List.intercalate_cons_cons_left] at ih ⊢
      rw [List.cons_append] at ih
      rw [List.append_assoc, List.append_assoc, hskip hl, List.cons_append,
        find_newline hb.1 hb.2, ih]
      simp only [Option.map_some, List.length_append, List.length_cons]
      congr 1
      omega

/-! ## Splitting a response -/

section

variable {response block rest : Bytes}

theorem parseDatastoreResponse_of_split (hhttp : [0x48, 0x54, 0x54, 0x50, 0x2F] <+: response)
    (h : splitTextHttpResponse response = some (block, rest)) :
    parseDatastoreResponse response = {
      body := rest
      etag := lastEtagLine (splitOn 0x0A (normalizeNewlines (latin1Decode block))).tail
      status := parseTextStatus
        ((splitOn 0x0A (normalizeNewlines (latin1Decode block))).headD []) } := by
  have hutom : parseUtomResponse response = none := by
    obtain ⟨t, rfl⟩ := hhttp
    refine if_pos (.inr fun hutom => ?_)
    exact absurd (List.cons_prefix_cons.mp hutom).1 (by decide)
  rw [parseDatastoreResponse, hutom, Option.none_or, parseTextHttpResponse, h]
  simp only [Option.bind_eq_bind, Option.bind_some, textEtag_eq]
  rfl

theorem splitTextHttpResponse_crlf (hhttp : [0x48, 0x54, 0x54, 0x50, 0x2F] <+: response)
    (h : find (CRLF ++ CRLF) response = some i) :
    splitTextHttpResponse response = some (response.take i, response.drop (i + 4)) := by
  rw [splitTextHttpResponse, if_neg (not_not.mpr hhttp), h]

theorem splitTextHttpResponse_lf (hhttp : [0x48, 0x54, 0x54, 0x50, 0x2F] <+: response)
    (hcrlf : find (CRLF ++ CRLF) response = none) (h : find [0x0A, 0x0A] response = some i) :
    splitTextHttpResponse response = some (response.take i, response.drop (i + 2)) := by
  rw [splitTextHttpResponse, if_neg (not_not.mpr hhttp), hcrlf, h]

end

namespace HeaderLines

variable (head : HeaderLines) (nl : Newline) (body : Bytes)

def block : Bytes := nl.bytes.intercalate head.lines

theorem response_eq : head.response nl body = head.block nl ++ (nl.bytes ++ nl.bytes ++ body) := by
  simp only [response, block, List.append_assoc]

theorem take_response : (head.response nl body).take (head.block nl).length = head.block nl := by
  rw [response_eq]
  exact List.take_left' rfl

theorem drop_response (n : Nat) :
    (head.response nl body).drop (n + (head.block nl).length + (nl.bytes ++ nl.bytes).length) =
      body.drop n := by
  rw [response_eq, ← List.append_assoc, Nat.add_assoc, Nat.add_comm n, ← List.drop_drop]
  congr 1
  exact List.drop_left' (by simp)

theorem http_response : [0x48, 0x54, 0x54, 0x50, 0x2F] <+: head.response nl body := by
  obtain ⟨l, lines, hlines⟩ := List.exists_cons_of_ne_nil head.nonempty
  have hhttp := head.http
  simp only [hlines, List.head_cons] at hhttp
  have hblock : l <+: head.block nl := by
    rw [block, hlines]
    cases lines with
    | nil => simp
    | cons l' lines =>
      rw [List.intercalate_cons_cons, List.append_assoc]
      exact List.prefix_append _ _
  rw [response_eq]
  exact (hhttp.trans hblock).trans (List.prefix_append _ _)

/-- What the parser returns once the header block is split off. -/
theorem parse_of_split {rest : Bytes}
    (h : splitTextHttpResponse (head.response nl body) = some (head.block nl, rest)) :
    parseDatastoreResponse (head.response nl body) = head.payload rest := by
  rw [parseDatastoreResponse_of_split (head.http_response nl body) h, block,
    splitOn_header_lines head.nonempty head.plain, payload]
  obtain ⟨l, lines, hlines⟩ := List.exists_cons_of_ne_nil head.nonempty
  have hhttp := head.http
  simp only [hlines, List.head_cons] at hhttp
  have hfirst : lastEtagLine (latin1Decode l :: lines.map latin1Decode) =
      lastEtagLine (lines.map latin1Decode) := by
    rw [lastEtagLine, List.filter_cons_of_neg (by simpa using not_isEtagLine_http hhttp),
      lastEtagLine]
  simp [hlines, hfirst]

theorem find_block :
    find (nl.bytes ++ nl.bytes) (head.response nl body) = some (head.block nl).length := by
  rw [response_eq]
  exact find_blank_line head.nonempty head.plain

theorem cr_notMem_block : 0x0D ∉ head.block .lf := by
  have hcr {lines : List Bytes} (h : ∀ l ∈ lines, (0x0D : UInt8) ∉ l) :
      (0x0D : UInt8) ∉ List.intercalate [0x0A] lines := by
    induction lines with
    | nil => simp
    | cons l lines ih =>
      obtain ⟨hl, hrest⟩ := List.forall_mem_cons.mp h
      cases lines with
      | nil => simpa using hl
      | cons l' lines =>
        rw [List.intercalate_cons_cons]
        simpa [hl] using ih hrest
  exact hcr fun l hl => (head.plain l hl).2.1

/-- In a response with LF newlines the CRLF pairs are those of the body. -/
theorem find_crlf_body : find (CRLF ++ CRLF) (head.response .lf body) =
    (find (CRLF ++ CRLF) body).map (· + (head.block .lf).length + 2) := by
  have hcr : (0x0D : UInt8) ∉ head.block .lf ++ [0x0A, 0x0A] := by
    simp [head.cr_notMem_block]
  have hfind : find (CRLF ++ CRLF) ((head.block .lf ++ [0x0A, 0x0A]) ++ body) =
      (find (CRLF ++ CRLF) body).map (· + (head.block .lf ++ [0x0A, 0x0A]).length) :=
    find_append hcr
  rw [List.append_assoc, List.length_append] at hfind
  rw [response_eq]
  exact hfind

end HeaderLines

/-- A textual response is read as its lines and its body, whatever the newline, unless the lines end
in LF and the body holds a CRLF pair: then the body is cut after that pair. -/
theorem text_response_split_iff (head : HeaderLines) (nl : Newline) (body : Bytes) :
    parseDatastoreResponse (head.response nl body) = head.payload body ↔
      nl = .crlf ∨ ¬CRLF ++ CRLF <:+: body := by
  have hhttp := head.http_response nl body
  have hfind := head.find_block nl body
  have htake := head.take_response nl body
  have hdrop := head.drop_response nl body
  cases nl with
  | crlf =>
    refine iff_of_true (head.parse_of_split .crlf body ?_) (.inl rfl)
    rw [splitTextHttpResponse_crlf hhttp hfind, htake]
    exact congrArg (fun rest => some (_, rest)) (by simpa [Newline.bytes, CRLF] using hdrop 0)
  | lf =>
    have hcrlf := head.find_crlf_body body
    simp only [reduceCtorEq, false_or, ← find_eq_none_iff]
    cases hbody : find (CRLF ++ CRLF) body with
    | none =>
      refine iff_of_true (head.parse_of_split .lf body ?_) rfl
      rw [hbody] at hcrlf
      rw [splitTextHttpResponse_lf hhttp hcrlf hfind, htake]
      exact congrArg (fun rest => some (_, rest)) (by simpa [Newline.bytes] using hdrop 0)
    | some i =>
      refine iff_of_false (fun hparse => ?_) nofun
      rw [hbody] at hcrlf
      rw [parseDatastoreResponse_of_split hhttp (splitTextHttpResponse_crlf hhttp hcrlf)] at hparse
      -- the body that comes back is a proper part of the body that was sent
      have hcut : body.drop (i + 4) = body := by
        have hrest := congrArg DatastorePayload.body hparse
        have hstart :
            i + 4 + (head.block .lf).length + (Newline.lf.bytes ++ Newline.lf.bytes).length =
              i + (head.block .lf).length + 2 + 4 := by
          simp only [Newline.bytes, List.length_append, List.length_singleton]
          omega
        rw [← hdrop (i + 4), hstart]
        exact hrest
      have hlen := congrArg List.length hcut
      rw [List.length_drop] at hlen
      have hempty : body = [] := List.length_eq_zero_iff.mp (by omega)
      rw [hempty] at hbody
      cases hbody

/-- The header lines of a response without an `etag`. -/
def statusOnly : HeaderLines where
  lines := [(py "HTTP/1.1 200 OK").map UInt8.ofNat]
  nonempty := List.cons_ne_nil _ _
  plain := by decide +kernel
  http := by decide +kernel

/-- The first line of this body is taken for a header, and only its last line for the body. -/
theorem text_response_split_in_body :
    parseDatastoreResponse (statusOnly.response .lf ((py "ETag: 7\r\n\r\nb").map UInt8.ofNat)) ≠
        statusOnly.payload ((py "ETag: 7\r\n\r\nb").map UInt8.ofNat) ∧
      parseDatastoreResponse (statusOnly.response .lf ((py "ETag: 7\r\n\r\nb").map UInt8.ofNat)) =
        { body := [0x62], etag := some (py "7"), status := some 200 } := by
  decide +kernel

end Responses

end MotuProxy
