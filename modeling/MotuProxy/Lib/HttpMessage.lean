import MotuProxy.Lib.Bytes

/-! # Responses of HTTP/1.1 on a connection

How a client finds the responses in the bytes that a server sends: a line ends at the next LF, the
fields end at an empty line, and a body has the length that the fields announce, or none. The bytes
of well-formed responses, one after the other, are read as these responses.
-/

namespace MotuProxy

namespace Http

/-- A response; what stands in its status line besides the status is not kept. -/
structure Response where
  status : Nat
  fields : List (Bytes × Bytes)
  body : Bytes
  deriving DecidableEq, Repr

/-! ## Numbers -/

def decimal (n : Nat) : Bytes := (Nat.toDigits 10 n).map fun c => UInt8.ofNat c.toNat

def isDigit (b : UInt8) : Bool := 0x30 ≤ b && b ≤ 0x39

def readDecimal (bs : Bytes) : Option Nat :=
  if bs ≠ [] ∧ bs.all isDigit then
    some (Nat.ofDigitChars 10 (bs.map fun b => Char.ofNat b.toNat) 0)
  else none

theorem decimal_digits (h : b ∈ decimal n) : isDigit b = true := by
  obtain ⟨c, hc, rfl⟩ := List.mem_map.mp h
  have hdigit := Nat.isDigit_of_mem_toDigits (by decide) (by decide) hc
  simp only [Char.isDigit, Bool.and_eq_true, decide_eq_true_eq, UInt32.le_iff_toNat_le] at hdigit
  have hlo : 0x30 ≤ c.toNat := hdigit.1
  have hhi : c.toNat ≤ 0x39 := hdigit.2
  have hval : (UInt8.ofNat c.toNat).toNat = c.toNat := by
    simp only [UInt8.toNat_ofNat']
    omega
  simp only [isDigit, Bool.and_eq_true, decide_eq_true_eq, UInt8.le_iff_toNat_le, hval]
  exact ⟨hlo, hhi⟩

theorem decimal_ne_nil : decimal n ≠ [] := by simp [decimal]

theorem readDecimal_decimal (n : Nat) : readDecimal (decimal n) = some n := by
  have hchars : (decimal n).map (fun b => Char.ofNat b.toNat) = Nat.toDigits 10 n := by
    rw [decimal, List.map_map]
    refine (List.map_congr_left fun c hc => ?_).trans (List.map_id _)
    have hdigit := Nat.isDigit_of_mem_toDigits (by decide) (by decide) hc
    simp only [Char.isDigit, Bool.and_eq_true, decide_eq_true_eq, UInt32.le_iff_toNat_le] at hdigit
    have hhi : c.toNat ≤ 0x39 := hdigit.2
    have hval : (UInt8.ofNat c.toNat).toNat = c.toNat := by
      simp only [UInt8.toNat_ofNat']
      omega
    simp [hval]
  rw [readDecimal, if_pos ⟨decimal_ne_nil, List.all_eq_true.mpr fun b hb => decimal_digits hb⟩,
    hchars, Nat.ofDigitChars_ten_toDigits]

/-! ## Lines -/

def crlf : Bytes := [0x0D, 0x0A]

/-- Neither CR nor LF. -/
def IsLine (l : Bytes) : Prop := ∀ b ∈ l, b ≠ 0x0D ∧ b ≠ 0x0A

theorem isLine_of_all {l : Bytes} (h : l.all fun b => b ≠ 0x0D ∧ b ≠ 0x0A) : IsLine l :=
  fun b hb => of_decide_eq_true (List.all_eq_true.mp h b hb)

/-- Up to the next LF. -/
def splitLine : Bytes → Option (Bytes × Bytes)
  | [] => none
  | b :: bs => if b = 0x0A then some ([], bs) else (splitLine bs).map fun p => (b :: p.1, p.2)

def dropCr (l : Bytes) : Bytes := if l.getLast? = some 0x0D then l.dropLast else l

/-- The next line, without its end. -/
def readLine (bs : Bytes) : Option (Bytes × Bytes) := (splitLine bs).map fun p => (dropCr p.1, p.2)

theorem splitLine_append {l rest : Bytes} (h : ∀ b ∈ l, b ≠ 0x0A) :
    splitLine (l ++ 0x0A :: rest) = some (l, rest) := by
  induction l with
  | nil => simp [splitLine]
  | cons b l ih =>
    rw [List.forall_mem_cons] at h
    rw [List.cons_append, splitLine, if_neg h.1, ih h.2]
    rfl

theorem readLine_append {l rest : Bytes} (h : IsLine l) :
    readLine (l ++ crlf ++ rest) = some (l, rest) := by
  have hsplit : splitLine (l ++ [0x0D] ++ 0x0A :: rest) = some (l ++ [0x0D], rest) := by
    refine splitLine_append fun b hb => ?_
    rcases List.mem_append.mp hb with hb | hb
    · exact (h b hb).2
    · rw [List.mem_singleton.mp hb]
      decide
  have hbytes : l ++ crlf ++ rest = l ++ [0x0D] ++ 0x0A :: rest := by simp [crlf]
  rw [readLine, hbytes, hsplit]
  simp [dropCr]

/-! ## Fields -/

/-- Optional white space. -/
def isBlank (b : UInt8) : Bool := b = 0x20 || b = 0x09

def trim (bs : Bytes) : Bytes := ((bs.dropWhile isBlank).reverse.dropWhile isBlank).reverse

def fieldBytes (f : Bytes × Bytes) : Bytes := f.1 ++ [0x3A, 0x20] ++ f.2

def fieldLines (fields : List (Bytes × Bytes)) : Bytes := fields.flatMap fun f => fieldBytes f ++ crlf

/-- A line of the header: the name before the first colon, and the value without the space around. -/
def readField (l : Bytes) : Option (Bytes × Bytes) :=
  let name := l.takeWhile (· ≠ 0x3A)
  if name = [] ∨ name.length = l.length then none
  else some (name, trim (l.drop (name.length + 1)))

/-- The lines up to an empty one; the number bounds how many there are. -/
def readFields : Nat → Bytes → Option (List (Bytes × Bytes) × Bytes)
  | 0, _ => none
  | n + 1, bs => do
    let (l, rest) ← readLine bs
    if l = [] then some ([], rest)
    else
      let f ← readField l
      let (fields, rest) ← readFields n rest
      some (f :: fields, rest)

/-- A field that a line of the header can hold. -/
structure IsField (f : Bytes × Bytes) : Prop where
  nonempty : f.1 ≠ []
  name : ∀ b ∈ f.1, b ≠ 0x3A
  nameLine : IsLine f.1
  valueLine : IsLine f.2
  trimmed : trim f.2 = f.2

theorem IsField.line {f : Bytes × Bytes} (h : IsField f) : IsLine (fieldBytes f) := by
  intro b hb
  simp only [fieldBytes, List.mem_append, List.mem_cons, List.not_mem_nil, or_false] at hb
  rcases hb with (hb | rfl | rfl) | hb
  · exact h.nameLine b hb
  · decide
  · decide
  · exact h.valueLine b hb

theorem trim_eq_self {bs : Bytes} (hhead : ∀ b ∈ bs.head?, isBlank b = false)
    (hlast : ∀ b ∈ bs.getLast?, isBlank b = false) : trim bs = bs := by
  have hdrop {l : Bytes} (h : ∀ b ∈ l.head?, isBlank b = false) : l.dropWhile isBlank = l := by
    cases l with
    | nil => rfl
    | cons b l => exact List.dropWhile_cons_of_neg (by simp [h b rfl])
  rw [trim, hdrop hhead, hdrop (by rwa [List.head?_reverse]), List.reverse_reverse]

theorem trim_blank (bs : Bytes) : trim (0x20 :: bs) = trim bs := by
  simp [trim, isBlank]

theorem readField_fieldBytes {f : Bytes × Bytes} (h : IsField f) : readField (fieldBytes f) = some f := by
  have hname : (fieldBytes f).takeWhile (· ≠ 0x3A) = f.1 := by
    rw [fieldBytes, List.append_assoc, List.takeWhile_append_of_pos fun b hb => by simpa using h.name b hb]
    simp
  have hdrop : (fieldBytes f).drop (f.1.length + 1) = 0x20 :: f.2 := by
    rw [fieldBytes, List.append_assoc, List.drop_append, Nat.add_sub_cancel_left]
    simp
  rw [readField]
  simp only [hname, hdrop, trim_blank, h.trimmed]
  rw [if_neg]
  rintro (hnil | hlength)
  · exact h.nonempty hnil
  · simp [fieldBytes] at hlength

theorem readFields_append {fields : List (Bytes × Bytes)} {rest : Bytes} (h : ∀ f ∈ fields, IsField f)
    (hn : fields.length < n) :
    readFields n (fieldLines fields ++ crlf ++ rest) = some (fields, rest) := by
  induction fields generalizing n with
  | nil =>
    obtain ⟨n, rfl⟩ := Nat.exists_eq_add_one_of_ne_zero (Nat.ne_of_gt hn)
    have hline := @readLine_append [] rest fun _ hb => by cases hb
    rw [List.nil_append] at hline
    simp [readFields, fieldLines, hline]
  | cons f fields ih =>
    obtain ⟨n, rfl⟩ := Nat.exists_eq_add_one_of_ne_zero (Nat.ne_of_gt (Nat.zero_lt_of_lt hn))
    rw [List.forall_mem_cons] at h
    have hne : fieldBytes f ≠ [] := by simp [fieldBytes]
    have hbytes : fieldLines (f :: fields) ++ crlf ++ rest =
        fieldBytes f ++ crlf ++ (fieldLines fields ++ crlf ++ rest) := by
      simp [fieldLines]
    rw [hbytes, readFields, readLine_append h.1.line]
    simp only [Option.bind_eq_bind, Option.bind_some]
    rw [if_neg hne, readField_fieldBytes h.1, Option.bind_some,
      ih h.2 (Nat.lt_of_succ_lt_succ hn)]
    rfl

/-! ## Responses -/

def version : Bytes := [0x48, 0x54, 0x54, 0x50, 0x2F, 0x31, 0x2E, 0x31, 0x20]

def statusLine (status : Nat) (reason : Bytes) : Bytes := version ++ decimal status ++ [0x20] ++ reason

def readStatus (l : Bytes) : Option Nat :=
  if l.take 9 = version then readDecimal ((l.drop 9).takeWhile (· ≠ 0x20)) else none

def lowerByte (b : UInt8) : UInt8 := if 0x41 ≤ b ∧ b ≤ 0x5A then b + 0x20 else b

def contentLengthName : Bytes :=
  [0x63, 0x6F, 0x6E, 0x74, 0x65, 0x6E, 0x74, 0x2D, 0x6C, 0x65, 0x6E, 0x67, 0x74, 0x68]

/-- The status says that there is no body, or a single field says how long it is. -/
def bodyLength (status : Nat) (fields : List (Bytes × Bytes)) : Option Nat :=
  if status < 200 ∨ status = 204 ∨ status = 304 then some 0
  else match fields.filter fun f => f.1.map lowerByte = contentLengthName with
    | [f] => readDecimal f.2
    | _ => none

/-- The next response; the rest of the bytes is left for the ones after it. -/
def readResponse (bs : Bytes) : Option (Response × Bytes) := do
  let (l, rest) ← readLine bs
  let status ← readStatus l
  let (fields, rest) ← readFields bs.length rest
  let length ← bodyLength status fields
  if length ≤ rest.length then
    some ({ status, fields, body := rest.take length }, rest.drop length)
  else none

/-- All the responses on the connection; the number bounds how many there are. -/
def readStream : Nat → Bytes → Option (List Response)
  | 0, bs => if bs = [] then some [] else none
  | n + 1, bs =>
    if bs = [] then some []
    else do
      let (r, rest) ← readResponse bs
      return r :: (← readStream n rest)

/-- The bytes of a response with a reason in its status line. -/
def Response.bytes (r : Response) (reason : Bytes) : Bytes :=
  statusLine r.status reason ++ crlf ++ fieldLines r.fields ++ crlf ++ r.body

/-- A response that can be sent: its fields are lines, and they announce its body. -/
structure Response.WellFormed (r : Response) : Prop where
  fields : ∀ f ∈ r.fields, IsField f
  body : bodyLength r.status r.fields = some r.body.length

theorem isLine_statusLine {status : Nat} {reason : Bytes} (h : IsLine reason) :
    IsLine (statusLine status reason) := by
  have hversion : IsLine version := isLine_of_all (by decide)
  intro b hb
  simp only [statusLine, List.mem_append, List.mem_cons, List.not_mem_nil, or_false] at hb
  rcases hb with ((hb | hb) | rfl) | hb
  · exact hversion b hb
  · have hdigit := decimal_digits hb
    constructor <;> rintro rfl <;> cases hdigit
  · decide
  · exact h b hb

theorem readStatus_statusLine (status : Nat) (reason : Bytes) :
    readStatus (statusLine status reason) = some status := by
  have htake : (statusLine status reason).take 9 = version := by simp [statusLine, version]
  have hdrop : (statusLine status reason).drop 9 = decimal status ++ 0x20 :: reason := by
    simp [statusLine, version]
  have hcode : (decimal status ++ 0x20 :: reason).takeWhile (· ≠ 0x20) = decimal status := by
    rw [List.takeWhile_append_of_pos fun b hb => ?_]
    · simp
    · have hdigit := decimal_digits hb
      simp only [decide_eq_true_eq]
      rintro rfl
      cases hdigit
  rw [readStatus, if_pos htake, hdrop, hcode, readDecimal_decimal]

theorem length_le_fieldLines (fields : List (Bytes × Bytes)) :
    fields.length ≤ (fieldLines fields).length := by
  induction fields with
  | nil => exact Nat.zero_le _
  | cons f fields ih =>
    have hcons : fieldLines (f :: fields) = fieldBytes f ++ crlf ++ fieldLines fields := by
      simp [fieldLines]
    simp only [hcons, List.length_append, List.length_cons, crlf, List.length_nil]
    omega

theorem readResponse_bytes {r : Response} {reason rest : Bytes} (h : r.WellFormed)
    (hreason : IsLine reason) : readResponse (r.bytes reason ++ rest) = some (r, rest) := by
  have hbytes : r.bytes reason ++ rest = statusLine r.status reason ++ crlf ++
      (fieldLines r.fields ++ crlf ++ (r.body ++ rest)) := by
    simp [Response.bytes]
  have hcount : r.fields.length < (r.bytes reason ++ rest).length := by
    have hfields := length_le_fieldLines r.fields
    simp only [hbytes, List.length_append, crlf, List.length_cons, List.length_nil]
    omega
  rw [readResponse, hbytes, readLine_append (isLine_statusLine hreason)]
  simp only [Option.bind_eq_bind, Option.bind_some, readStatus_statusLine]
  rw [← hbytes, readFields_append h.fields hcount]
  simp only [Option.bind_some, h.body]
  rw [if_pos (by simp)]
  simp

theorem length_le_bytes (rs : List (Response × Bytes)) :
    rs.length ≤ (rs.flatMap fun r => r.1.bytes r.2).length := by
  induction rs with
  | nil => exact Nat.zero_le _
  | cons r rs ih =>
    simp only [List.flatMap_cons, List.length_append, List.length_cons, Response.bytes, crlf,
      List.length_nil]
    simp only [Response.bytes, crlf] at ih
    omega

/-- The bytes of well-formed responses are read as these responses, in their order. -/
theorem readStream_bytes {rs : List (Response × Bytes)}
    (h : ∀ r ∈ rs, r.1.WellFormed ∧ IsLine r.2) (hn : rs.length ≤ n) :
    readStream n (rs.flatMap fun r => r.1.bytes r.2) = some (rs.map (·.1)) := by
  induction rs generalizing n with
  | nil => cases n <;> rfl
  | cons r rs ih =>
    obtain ⟨n, rfl⟩ := Nat.exists_eq_add_one_of_ne_zero (Nat.ne_of_gt (Nat.zero_lt_of_lt hn))
    rw [List.forall_mem_cons] at h
    rw [List.flatMap_cons]
    have hne : r.1.bytes r.2 ++ (rs.flatMap fun r => r.1.bytes r.2) ≠ [] := by
      simp [Response.bytes, crlf]
    rw [readStream, if_neg hne, readResponse_bytes h.1.1 h.1.2]
    simp only [Option.bind_eq_bind, Option.bind_some, ih h.2 (Nat.le_of_succ_le_succ hn)]
    rfl

end Http

end MotuProxy
