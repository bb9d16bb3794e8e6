import MotuProxy.Py.Str

/-! # Text encodings

UTF-8 with the error handlers `strict`, `replace` and `surrogateescape`, and ISO-8859-1. A decoding
error is an invalid start byte or the longest valid prefix of a sequence, as in CPython: `replace`
puts one U+FFFD in its place.
-/

namespace MotuProxy.Py

/-- `str(n)` of an integer. -/
def strInt : Int → Str
  | .ofNat n => strNat n
  | .negSucc n => 0x2D :: strNat (n + 1)

def isSurrogate (c : Nat) : Bool := 0xD800 ≤ c && c < 0xE000

/-- The UTF-8 sequence of a code point. -/
def utf8Char (c : Nat) : Bytes :=
  if c < 0x80 then [UInt8.ofNat c]
  else if c < 0x800 then [UInt8.ofNat (0xC0 + c / 64), UInt8.ofNat (0x80 + c % 64)]
  else if c < 0x10000 then
    [UInt8.ofNat (0xE0 + c / 4096), UInt8.ofNat (0x80 + c / 64 % 64), UInt8.ofNat (0x80 + c % 64)]
  else
    [UInt8.ofNat (0xF0 + c / 262144), UInt8.ofNat (0x80 + c / 4096 % 64),
      UInt8.ofNat (0x80 + c / 64 % 64), UInt8.ofNat (0x80 + c % 64)]

/-- `s.encode("utf-8")`, where `none` is a `UnicodeEncodeError`. -/
def utf8Encode : Str → Option Bytes
  | [] => some []
  | c :: s => if isSurrogate c then none else (utf8Encode s).map (utf8Char c ++ ·)

/-- `s.encode("utf-8", "surrogateescape")`. -/
def utf8EncodeEscape : Str → Option Bytes
  | [] => some []
  | c :: s =>
    if 0xDC80 ≤ c ∧ c ≤ 0xDCFF then (utf8EncodeEscape s).map (UInt8.ofNat (c - 0xDC00) :: ·)
    else if isSurrogate c then none
    else (utf8EncodeEscape s).map (utf8Char c ++ ·)

/-- A byte of the form `10xxxxxx`. -/
def isTail (b : UInt8) : Bool := 0x80 ≤ b && b ≤ 0xBF

/-- The second byte that a three-byte or four-byte sequence may have after its first. -/
def isSecond (b₀ b₁ : UInt8) : Bool :=
  if b₀ = 0xE0 then 0xA0 ≤ b₁ && b₁ ≤ 0xBF
  else if b₀ = 0xED then 0x80 ≤ b₁ && b₁ ≤ 0x9F
  else if b₀ = 0xF0 then 0x90 ≤ b₁ && b₁ ≤ 0xBF
  else if b₀ = 0xF4 then 0x80 ≤ b₁ && b₁ ≤ 0x8F
  else isTail b₁

/-- The code point that a byte string starts with, or `none` for a decoding error, and the number of
bytes it takes up. -/
def utf8Next : Bytes → Option Nat × Nat
  | [] => (none, 1)
  | b₀ :: rest =>
    let v := b₀.toNat
    if b₀ < 0x80 then (some v, 1)
    else if b₀ < 0xC2 ∨ 0xF4 < b₀ then (none, 1)
    else if b₀ < 0xE0 then match rest with
      | b₁ :: _ => if isTail b₁ then (some (v % 32 * 64 + b₁.toNat % 64), 2) else (none, 1)
      | [] => (none, 1)
    else if b₀ < 0xF0 then match rest with
      | b₁ :: b₂ :: _ =>
        if !isSecond b₀ b₁ then (none, 1)
        else if !isTail b₂ then (none, 2)
        else (some (v % 16 * 4096 + b₁.toNat % 64 * 64 + b₂.toNat % 64), 3)
      | [b₁] => if isSecond b₀ b₁ then (none, 2) else (none, 1)
      | [] => (none, 1)
    else match rest with
      | b₁ :: b₂ :: b₃ :: _ =>
        if !isSecond b₀ b₁ then (none, 1)
        else if !isTail b₂ then (none, 2)
        else if !isTail b₃ then (none, 3)
        else (some (v % 8 * 262144 + b₁.toNat % 64 * 4096 + b₂.toNat % 64 * 64 +
          b₃.toNat % 64), 4)
      | [b₁, b₂] => if !isSecond b₀ b₁ then (none, 1) else if isTail b₂ then (none, 3) else (none, 2)
      | [b₁] => if isSecond b₀ b₁ then (none, 2) else (none, 1)
      | [] => (none, 1)

/-- The decoding loop: `skip` bytes belong to the code point before, and `bad` stands for a decoding
error, which it replaces (`some r`) or which makes the decoding fail (`none`). -/
def utf8DecodeFrom (bad : Option Str) : Nat → Bytes → Option Str
  | _, [] => some []
  | skip + 1, _ :: rest => utf8DecodeFrom bad skip rest
  | 0, b :: rest => do
    let (c, n) := utf8Next (b :: rest)
    let here ← match c with
      | some c => some [c]
      | none => bad
    return here ++ (← utf8DecodeFrom bad (n - 1) rest)

/-- `data.decode("utf-8", errors="strict")`. -/
def utf8DecodeStrict (data : Bytes) : Option Str := utf8DecodeFrom none 0 data

/-- `data.decode("iso-8859-1")`. -/
def latin1Decode (data : Bytes) : Str := data.map UInt8.toNat

example : utf8Encode (py "é€") = some [0xC3, 0xA9, 0xE2, 0x82, 0xAC] := by decide
example : utf8DecodeStrict [0xE2, 0x82, 0xAC] = some [0x20AC] := by decide
example : utf8DecodeFrom (some [0xFFFD]) 0 [0xE2, 0x82, 0x41] = some [0xFFFD, 0x41] := by decide

end MotuProxy.Py
