import Mathlib.Algebra.Order.Field.Rat
import MotuProxy.Lib.Bytes

/-! # JSON texts

The grammar of RFC 8259 over bytes: `Serialises (.value v) s` says that `s` is a text of the value
`v`, with white space wherever the grammar has it and strings in UTF-8. `Serialises.closed` is the
rule for scanners, which see of a text only its strings, brackets and braces: a property of byte
strings that is kept by these, by the other bytes and by concatenation holds of all texts.
-/

namespace MotuProxy.JsonText

/-! ## Values -/

/-- A JSON value. A string is its code points; an escape may write a lone surrogate. -/
inductive Value where
  | null
  | bool (b : Bool)
  | number (q : ℚ)
  | string (s : List Nat)
  | array (items : List Value)
  | object (members : List (List Nat × Value))

def Value.IsObject : Value → Prop
  | .object _ => True
  | _ => False

def Value.IsContainer : Value → Prop
  | .array _ | .object _ => True
  | _ => False

/-! ## Tokens -/

def IsBlank (b : UInt8) : Prop := b = 0x20 ∨ b = 0x09 ∨ b = 0x0A ∨ b = 0x0D

instance (b : UInt8) : Decidable (IsBlank b) := inferInstanceAs (Decidable (_ ∨ _))

/-- White space. -/
def Blank (s : Bytes) : Prop := ∀ b ∈ s, IsBlank b

instance (s : Bytes) : Decidable (Blank s) := inferInstanceAs (Decidable (∀ _ ∈ _, _))

def digits (ds : List (Fin 10)) : Bytes := ds.map fun d => 0x30 + UInt8.ofNat d.val

def digitsValue (ds : List (Fin 10)) : Nat := ds.foldl (fun n d => 10 * n + d.val) 0

structure Exponent where
  marker : UInt8
  marker_eq : marker = 0x65 ∨ marker = 0x45
  sign : Option Bool
  digits : List (Fin 10)
  nonempty : digits ≠ []

namespace Exponent

def text (e : Exponent) : Bytes :=
  e.marker :: (match e.sign with
    | none => []
    | some false => [0x2B]
    | some true => [0x2D]) ++ JsonText.digits e.digits

def value (e : Exponent) : Int :=
  if e.sign = some true then -(digitsValue e.digits : Int) else digitsValue e.digits

end Exponent

/-- A number as it is written; no digits in `frac` stand for no fraction. -/
structure Numeral where
  minus : Bool
  int : List (Fin 10)
  int_ok : int = [0] ∨ (int ≠ [] ∧ int.head? ≠ some 0)
  frac : List (Fin 10)
  exp : Option Exponent

namespace Numeral

def text (n : Numeral) : Bytes :=
  (if n.minus then [0x2D] else []) ++ digits n.int ++
    (if n.frac = [] then [] else 0x2E :: digits n.frac) ++ (n.exp.map Exponent.text).getD []

def value (n : Numeral) : ℚ :=
  (if n.minus then -1 else 1) * digitsValue (n.int ++ n.frac) *
    (10 : ℚ) ^ ((n.exp.map Exponent.value).getD 0 - n.frac.length)

end Numeral

/-- The value of a hexadecimal digit. -/
def hexDigit (b : UInt8) : Option Nat :=
  if 0x30 ≤ b ∧ b ≤ 0x39 then some (b.toNat - 0x30)
  else if 0x41 ≤ b ∧ b ≤ 0x46 then some (b.toNat - 0x37)
  else if 0x61 ≤ b ∧ b ≤ 0x66 then some (b.toNat - 0x57)
  else none

/-- The code unit that four hexadecimal digits write. -/
def hexUnit (a b c d : UInt8) : Option Nat := do
  return (((← hexDigit a) * 16 + (← hexDigit b)) * 16 + (← hexDigit c)) * 16 + (← hexDigit d)

/-- What stands after the backslash of a short escape, and the code point that it writes. -/
def shortEscapes : List (UInt8 × Nat) :=
  [(0x22, 0x22), (0x5C, 0x5C), (0x2F, 0x2F), (0x62, 0x08), (0x66, 0x0C), (0x6E, 0x0A), (0x72, 0x0D),
    (0x74, 0x09)]

/-- `CharText c s`: the text `s` writes the code point `c` in a string. -/
inductive CharText : Nat → Bytes → Prop where
  | unescaped (c : Char) (hcontrol : 0x20 ≤ c.toNat) (hquote : c ≠ '"') (hslash : c ≠ '\\') :
    CharText c.toNat (String.utf8EncodeChar c)
  | short (h : (b, c) ∈ shortEscapes) : CharText c [0x5C, b]
  | unit (h : hexUnit a b c d = some u) : CharText u [0x5C, 0x75, a, b, c, d]
  | pair (hhigh : hexUnit a b c d = some high) (hhigh' : 0xD800 ≤ high ∧ high < 0xDC00)
      (hlow : hexUnit a' b' c' d' = some low) (hlow' : 0xDC00 ≤ low ∧ low < 0xE000) :
    CharText (0x10000 + (high - 0xD800) * 0x400 + (low - 0xDC00))
      [0x5C, 0x75, a, b, c, d, 0x5C, 0x75, a', b', c', d']

/-- What stands between the quotes of a string. -/
inductive CharsText : List Nat → Bytes → Prop where
  | nil : CharsText [] []
  | cons (hc : CharText c s) (hcs : CharsText cs t) : CharsText (c :: cs) (s ++ t)

inductive StringText : List Nat → Bytes → Prop where
  | mk (h : CharsText cs s) : StringText cs (0x22 :: s ++ [0x22])

/-! ## The grammar -/

/-- What a text can stand for: a value, or a part of an array or of an object. -/
inductive Node where
  | value (v : Value)
  | element (v : Value)
  | elements (vs : List Value)
  | member (m : List Nat × Value)
  | members (ms : List (List Nat × Value))

/-- The text `s` is a serialisation of the node. -/
inductive Serialises : Node → Bytes → Prop where
  | null : Serialises (.value .null) [0x6E, 0x75, 0x6C, 0x6C]
  | true : Serialises (.value (.bool true)) [0x74, 0x72, 0x75, 0x65]
  | false : Serialises (.value (.bool false)) [0x66, 0x61, 0x6C, 0x73, 0x65]
  | number (n : Numeral) : Serialises (.value (.number n.value)) n.text
  | string (h : StringText cs s) : Serialises (.value (.string cs)) s
  | emptyArray (hw : Blank w) : Serialises (.value (.array [])) (0x5B :: w ++ [0x5D])
  | array (h : Serialises (.elements vs) s) :
    Serialises (.value (.array vs)) (0x5B :: s ++ [0x5D])
  | emptyObject (hw : Blank w) : Serialises (.value (.object [])) (0x7B :: w ++ [0x7D])
  | object (h : Serialises (.members ms) s) :
    Serialises (.value (.object ms)) (0x7B :: s ++ [0x7D])
  | element (hw : Blank w) (hv : Serialises (.value v) s) (hw' : Blank w') :
    Serialises (.element v) (w ++ s ++ w')
  | oneElement (hv : Serialises (.element v) s) : Serialises (.elements [v]) s
  | elements (hv : Serialises (.element v) s) (hvs : Serialises (.elements vs) t) :
    Serialises (.elements (v :: vs)) (s ++ 0x2C :: t)
  | member (hw : Blank w) (hname : StringText name s) (hw' : Blank w')
      (hv : Serialises (.element v) t) : Serialises (.member (name, v)) (w ++ s ++ w' ++ 0x3A :: t)
  | oneMember (hm : Serialises (.member m) s) : Serialises (.members [m]) s
  | members (hm : Serialises (.member m) s) (hms : Serialises (.members ms) t) :
    Serialises (.members (m :: ms)) (s ++ 0x2C :: t)

/-- Texts of values one after the other, with white space between them and around them. -/
inductive Sequence : List Value → Bytes → Prop where
  | one (hv : Serialises (.element v) s) : Sequence [v] s
  | cons (hv : Serialises (.element v) s) (hvs : Sequence vs t) : Sequence (v :: vs) (s ++ t)

/-! ## What a scanner sees -/

/-- A byte that stands for itself in a string. -/
def IsPlainChar (b : UInt8) : Prop := b ≠ 0x22 ∧ b ≠ 0x5C

theorem isPlainChar_ofNat (h : n % 256 ≠ 0x22 ∧ n % 256 ≠ 0x5C) : IsPlainChar (UInt8.ofNat n) := by
  constructor
  · exact fun heq => h.1 (by simpa using congrArg UInt8.toNat heq)
  · exact fun heq => h.2 (by simpa using congrArg UInt8.toNat heq)

theorem utf8EncodeChar_plain {c : Char} (hquote : c ≠ '"') (hslash : c ≠ '\\') :
    ∀ b ∈ String.utf8EncodeChar c, IsPlainChar b := by
  have hne : c.val.toNat ≠ 0x22 ∧ c.val.toNat ≠ 0x5C :=
    ⟨fun h => hquote (Char.toNat_inj.mp h), fun h => hslash (Char.toNat_inj.mp h)⟩
  generalize hv : c.val.toNat = v at hne
  unfold String.utf8EncodeChar
  simp only [hv]
  -- a byte of a longer code has its highest bit set
  split
  · exact List.forall_mem_singleton.mpr (isPlainChar_ofNat (by omega))
  · split
    · simp only [List.forall_mem_cons, List.not_mem_nil, false_imp_iff, implies_true, and_true]
      exact ⟨isPlainChar_ofNat (by omega), isPlainChar_ofNat (by omega)⟩
    · split
      · simp only [List.forall_mem_cons, List.not_mem_nil, false_imp_iff, implies_true, and_true]
        exact ⟨isPlainChar_ofNat (by omega), isPlainChar_ofNat (by omega),
          isPlainChar_ofNat (by omega)⟩
      · simp only [List.forall_mem_cons, List.not_mem_nil, false_imp_iff, implies_true, and_true]
        exact ⟨isPlainChar_ofNat (by omega), isPlainChar_ofNat (by omega),
          isPlainChar_ofNat (by omega), isPlainChar_ofNat (by omega)⟩

theorem isPlainChar_hexDigit (h : hexDigit b = some n) : IsPlainChar b := by
  constructor <;> rintro rfl <;> cases h

theorem isPlainChar_hexUnit (h : hexUnit a b c d = some u) :
    ∀ x ∈ [a, b, c, d], IsPlainChar x := by
  simp only [hexUnit, Option.bind_eq_bind, Option.bind_eq_some_iff] at h
  obtain ⟨_, ha, _, hb, _, hc, _, hd, -⟩ := h
  simp only [List.forall_mem_cons, List.not_mem_nil, false_imp_iff, implies_true, and_true]
  exact ⟨isPlainChar_hexDigit ha, isPlainChar_hexDigit hb, isPlainChar_hexDigit hc,
    isPlainChar_hexDigit hd⟩

/-- A property that the bytes between the quotes of a string keep: those that stand for themselves,
and a backslash with the byte after it. -/
structure CharsClosed (Q : Bytes → Prop) : Prop where
  nil : Q []
  append : Q s → Q t → Q (s ++ t)
  plain : IsPlainChar b → Q [b]
  escape (b : UInt8) : Q [0x5C, b]

namespace CharsClosed

variable {Q : Bytes → Prop}

theorem of_plain (hQ : CharsClosed Q) (h : ∀ b ∈ s, IsPlainChar b) : Q s := by
  induction s with
  | nil => exact hQ.nil
  | cons b s ih =>
    obtain ⟨hb, hs⟩ := List.forall_mem_cons.mp h
    exact hQ.append (s := [b]) (hQ.plain hb) (ih hs)

theorem of_hexUnit (hQ : CharsClosed Q) (h : hexUnit a b c d = some u) :
    Q [0x5C, 0x75, a, b, c, d] :=
  hQ.append (s := [0x5C, 0x75]) (hQ.escape 0x75) (hQ.of_plain (isPlainChar_hexUnit h))

theorem of_charText (hQ : CharsClosed Q) (h : CharText c s) : Q s := by
  cases h with
  | unescaped c _ hquote hslash => exact hQ.of_plain (utf8EncodeChar_plain hquote hslash)
  | short _ => exact hQ.escape _
  | unit h => exact hQ.of_hexUnit h
  | pair hhigh _ hlow _ => exact hQ.append (hQ.of_hexUnit hhigh) (hQ.of_hexUnit hlow)

theorem of_charsText (hQ : CharsClosed Q) (h : CharsText cs s) : Q s := by
  induction h with
  | nil => exact hQ.nil
  | cons hc _ ih => exact hQ.append (hQ.of_charText hc) ih

end CharsClosed

/-- A byte that is neither a quote nor a bracket nor a brace. -/
def IsPlain (b : UInt8) : Prop := b ≠ 0x22 ∧ b ≠ 0x5B ∧ b ≠ 0x5D ∧ b ≠ 0x7B ∧ b ≠ 0x7D

theorem IsBlank.plain (h : IsBlank b) : IsPlain b := by
  rcases h with rfl | rfl | rfl | rfl <;> simp [IsPlain]

theorem plain_digits : ∀ b ∈ digits ds, IsPlain b := by
  have hdigit : ∀ d : Fin 10, IsPlain (0x30 + UInt8.ofNat d.val) := by
    unfold IsPlain
    decide
  intro b hb
  obtain ⟨d, -, rfl⟩ := List.mem_map.mp hb
  exact hdigit d

theorem Exponent.plain (e : Exponent) : ∀ b ∈ e.text, IsPlain b := by
  have hmarker : IsPlain e.marker := by
    rcases e.marker_eq with h | h <;> rw [h] <;> simp [IsPlain]
  unfold Exponent.text
  simp only [List.cons_append, List.forall_mem_cons, List.forall_mem_append]
  refine ⟨hmarker, ?_, plain_digits⟩
  split
  · simp
  · simp [IsPlain]
  · simp [IsPlain]

theorem Numeral.plain (n : Numeral) : ∀ b ∈ n.text, IsPlain b := by
  unfold Numeral.text
  simp only [List.forall_mem_append]
  refine ⟨⟨⟨?_, plain_digits⟩, ?_⟩, ?_⟩
  · split <;> simp [IsPlain]
  · split
    · simp
    · exact List.forall_mem_cons.mpr ⟨by simp [IsPlain], plain_digits⟩
  · cases n.exp with
    | none => simp
    | some e => exact e.plain

/-- A property that the strings, brackets, braces and other bytes of a text keep. -/
structure Closed (P : Bytes → Prop) : Prop where
  nil : P []
  append : P s → P t → P (s ++ t)
  plain : IsPlain b → P [b]
  string : StringText cs s → P s
  brackets : P s → P (0x5B :: s ++ [0x5D])
  braces : P s → P (0x7B :: s ++ [0x7D])

namespace Closed

variable {P : Bytes → Prop}

theorem of_plain (hP : Closed P) (h : ∀ b ∈ s, IsPlain b) : P s := by
  induction s with
  | nil => exact hP.nil
  | cons b s ih =>
    obtain ⟨hb, hs⟩ := List.forall_mem_cons.mp h
    exact hP.append (s := [b]) (hP.plain hb) (ih hs)

theorem of_blank (hP : Closed P) (h : Blank w) : P w := hP.of_plain fun b hb => (h b hb).plain

theorem separated (hP : Closed P) (hb : IsPlain b) (hs : P s) (ht : P t) : P (s ++ b :: t) :=
  hP.append hs (hP.append (s := [b]) (hP.plain hb) ht)

theorem of_serialises (hP : Closed P) (h : Serialises node s) : P s := by
  induction h with
  | null | true | false => exact hP.of_plain (by unfold IsPlain; decide +kernel)
  | number n => exact hP.of_plain n.plain
  | string h => exact hP.string h
  | emptyArray hw => exact hP.brackets (hP.of_blank hw)
  | array _ ih => exact hP.brackets ih
  | emptyObject hw => exact hP.braces (hP.of_blank hw)
  | object _ ih => exact hP.braces ih
  | element hw _ hw' ih => exact hP.append (hP.append (hP.of_blank hw) ih) (hP.of_blank hw')
  | oneElement _ ih | oneMember _ ih => exact ih
  | elements _ _ ih₁ ih₂ | members _ _ ih₁ ih₂ =>
    exact hP.separated (by unfold IsPlain; decide +kernel) ih₁ ih₂
  | member hw hname hw' _ ih =>
    exact hP.separated (by unfold IsPlain; decide +kernel)
      (hP.append (hP.append (hP.of_blank hw) (hP.string hname)) (hP.of_blank hw')) ih

/-- The text of an object: its braces, and between them what the property holds of. -/
theorem of_object (hP : Closed P) (h : Serialises (.value v) s) (hv : v.IsObject) :
    ∃ t, P t ∧ s = 0x7B :: t ++ [0x7D] := by
  cases h with
  | emptyObject hw => exact ⟨_, hP.of_blank hw, rfl⟩
  | object h => exact ⟨_, hP.of_serialises h, rfl⟩
  | _ => cases hv

theorem of_container (hP : Closed P) (h : Serialises (.value v) s) (hv : v.IsContainer) :
    ∃ t, P t ∧ (s = 0x5B :: t ++ [0x5D] ∨ s = 0x7B :: t ++ [0x7D]) := by
  cases h with
  | emptyArray hw => exact ⟨_, hP.of_blank hw, .inl rfl⟩
  | array h => exact ⟨_, hP.of_serialises h, .inl rfl⟩
  | emptyObject hw => exact ⟨_, hP.of_blank hw, .inr rfl⟩
  | object h => exact ⟨_, hP.of_serialises h, .inr rfl⟩
  | _ => cases hv

end Closed

/-- A text does not consist of white space. -/
theorem Serialises.not_blank (h : Serialises (.value v) s) : ¬Blank s := by
  have hfirst {b s} (hb : ¬IsBlank b) : ¬Blank (b :: s) := fun h => hb (h b (List.mem_cons_self ..))
  cases h with
  | number n =>
    have hdigit : ∀ d : Fin 10, ¬IsBlank (0x30 + UInt8.ofNat d.val) := by decide
    obtain ⟨d, ds, hint⟩ : ∃ d ds, n.int = d :: ds := by
      rcases n.int_ok with h | h
      · exact ⟨_, _, h⟩
      · exact List.exists_cons_of_ne_nil h.1
    intro h
    exact hdigit d (h _ (by simp [Numeral.text, hint, digits]))
  | string h => cases h with | mk _ => exact hfirst (by decide)
  | _ => exact hfirst (by decide)

theorem Sequence.not_blank (h : Sequence vs s) : ¬Blank s := by
  have helement {v s} (h : Serialises (.element v) s) : ¬Blank s := by
    cases h with
    | element _ hv _ => exact fun hs => hv.not_blank fun b hb => hs b (by simp [hb])
  cases h with
  | one hv => exact helement hv
  | cons hv _ => exact fun hs => helement hv fun b hb => hs b (by simp [hb])

end MotuProxy.JsonText
