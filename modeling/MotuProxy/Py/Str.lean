import MotuProxy.Lib.Bytes

/-! # Python text

A Python `str` is a list of code points: it may hold a lone surrogate, so it is not a `String`. The
operations follow the documented behaviour of CPython 3.11.10 (Unicode 14): `strip` removes the code
points with `isspace`, `int` skips fewer of them, `isdecimal` is the category `Nd`, and `lower` is
exact on Latin-1 text, which is all that an HTTP header or request line decodes to.
-/

namespace MotuProxy.Py

abbrev Str := List Nat

instance : LawfulBEq Str := inferInstanceAs (LawfulBEq (List Nat))

/-- A text literal. -/
def py (s : String) : Str := s.toList.map Char.toNat

/-- `str(n)`. -/
def strNat (n : Nat) : Str := (Nat.toDigits 10 n).map Char.toNat

/-- `f"{n:0{w}x}"`. -/
def strHex (w n : Nat) : Str :=
  let digits := (Nat.toDigits 16 n).map Char.toNat
  List.replicate (w - digits.length) 0x30 ++ digits

/-- `bytes.hex()`. -/
def hex (data : Bytes) : Str := data.flatMap fun b => strHex 2 b.toNat

/-- `repr` of a byte string. -/
def reprBytes (data : Bytes) : Str :=
  let quote := if 0x27 ∈ data ∧ 0x22 ∉ data then 0x22 else 0x27
  let shown (b : UInt8) : Str :=
    if b.toNat = quote ∨ b = 0x5C then [0x5C, b.toNat]
    else if b = 0x09 then py "\\t"
    else if b = 0x0A then py "\\n"
    else if b = 0x0D then py "\\r"
    else if b < 0x20 ∨ 0x7F ≤ b then py "\\x" ++ strHex 2 b.toNat
    else [b.toNat]
  0x62 :: quote :: data.flatMap shown ++ [quote]

/-! ## Character classes -/

/-- `str.isspace` of one code point. -/
def isSpace (c : Nat) : Bool :=
  (0x09 ≤ c && c ≤ 0x0D) || (0x1C ≤ c && c ≤ 0x20) || c == 0x85 || c == 0xA0 || c == 0x1680 ||
    (0x2000 ≤ c && c ≤ 0x200A) || c == 0x2028 || c == 0x2029 || c == 0x202F || c == 0x205F ||
    c == 0x3000

/-- The code points of the decimal digit zero, one for each run of ten digits. -/
def decimalZeros : List Nat :=
  [0x30, 0x660, 0x6F0, 0x7C0, 0x966, 0x9E6, 0xA66, 0xAE6, 0xB66, 0xBE6, 0xC66, 0xCE6, 0xD66, 0xDE6,
   0xE50, 0xED0, 0xF20, 0x1040, 0x1090, 0x17E0, 0x1810, 0x1946, 0x19D0, 0x1A80, 0x1A90, 0x1B50,
   0x1BB0, 0x1C40, 0x1C50, 0xA620, 0xA8D0, 0xA900, 0xA9D0, 0xA9F0, 0xAA50, 0xABF0, 0xFF10, 0x104A0,
   0x10D30, 0x11066, 0x110F0, 0x11136, 0x111D0, 0x112F0, 0x11450, 0x114D0, 0x11650, 0x116C0,
   0x11730, 0x118E0, 0x11950, 0x11C50, 0x11D50, 0x11DA0, 0x16A60, 0x16AC0, 0x16B50, 0x1D7CE,
   0x1D7D8, 0x1D7E2, 0x1D7EC, 0x1D7F6, 0x1E140, 0x1E2F0, 0x1E950, 0x1FBF0]

/-- The value of a decimal digit (category `Nd`). -/
def decimalValue (c : Nat) : Option Nat :=
  (decimalZeros.find? fun z => z ≤ c && c < z + 10).map (c - ·)

/-- `str.isdecimal`. -/
def isDecimal (s : Str) : Bool := !s.isEmpty && s.all fun c => (decimalValue c).isSome

def isAsciiDigit (c : Nat) : Bool := 0x30 ≤ c && c ≤ 0x39

/-- The value of an ASCII hexadecimal digit. -/
def hexValue (c : Nat) : Option Nat :=
  if 0x30 ≤ c ∧ c ≤ 0x39 then some (c - 0x30)
  else if 0x41 ≤ c ∧ c ≤ 0x46 then some (c - 0x37)
  else if 0x61 ≤ c ∧ c ≤ 0x66 then some (c - 0x57)
  else none

def lowerChar (c : Nat) : Nat :=
  if (0x41 ≤ c ∧ c ≤ 0x5A) ∨ (0xC0 ≤ c ∧ c ≤ 0xDE ∧ c ≠ 0xD7) then c + 32 else c

/-- `str.lower` on Latin-1 text. -/
def lower (s : Str) : Str := s.map lowerChar

/-! ## Stripping and splitting -/

def lstripBy (p : Nat → Bool) (s : Str) : Str := s.dropWhile p

def rstripBy (p : Nat → Bool) (s : Str) : Str := (s.reverse.dropWhile p).reverse

/-- `str.strip()`. -/
def strip (s : Str) : Str := rstripBy isSpace (lstripBy isSpace s)

/-- `str.split(sep)` for a separator of one code point. -/
def splitOn (sep : Nat) : Str → List Str
  | [] => [[]]
  | c :: s =>
    if c = sep then [] :: splitOn sep s
    else match splitOn sep s with
      | [] => [[c]]
      | w :: ws => (c :: w) :: ws

/-- `str.partition(sep)`: the text before the separator, whether it occurs, the text after it. -/
def partition (sep : Nat) : Str → Str × Bool × Str
  | [] => ([], false, [])
  | c :: s =>
    if c = sep then ([], true, s)
    else let (a, f, b) := partition sep s; (c :: a, f, b)

/-- `str.rpartition(sep)`. -/
def rpartition (sep : Nat) (s : Str) : Str × Bool × Str :=
  let (a, f, b) := partition sep s.reverse
  (b.reverse, f, a.reverse)

/-- `sub in s`. -/
def contains (sub : Str) : Str → Bool
  | [] => sub.isEmpty
  | c :: s => sub.isPrefixOf (c :: s) || contains sub s

/-- `a or b` of an optional text: `None` and the empty text are false. -/
def orElse (a b : Option Str) : Option Str :=
  match a with
  | some (c :: s) => some (c :: s)
  | _ => b

example : strip (py " \t/mix ") = py "/mix" := by decide
example : splitOn 0x2F (py "a//b/") = [py "a", [], py "b", []] := by decide

/-! ## Numbers -/

/-- The number of digits that `int` converts before it raises `ValueError`. -/
def maxStrDigits : Nat := 4300

/-- The digits of `int(s, 10)`: single underscores may stand between digits. -/
def intDigits : Str → Option (List Nat)
  | [] => none
  | [c] => (decimalValue c).map ([·])
  | c :: 0x5F :: s => do return (← decimalValue c) :: (← intDigits s)
  | c :: s => do return (← decimalValue c) :: (← intDigits s)

/-- The space that `int` skips: U+001C to U+001F have `isspace`, but they are no C whitespace. -/
def isIntSpace (c : Nat) : Bool := isSpace c && !(0x1C ≤ c && c ≤ 0x1F)

/-- The text between the space that `int` skips on both sides. -/
def intStrip (s : Str) : Str := rstripBy isIntSpace (lstripBy isIntSpace s)

/-- `int(s, 10)`, where `none` is a `ValueError`. -/
def int10 (s : Str) : Option Int :=
  let s := intStrip s
  let (neg, digits) := match s with
    | 0x2D :: s => (true, s)
    | 0x2B :: s => (false, s)
    | s => (false, s)
  match intDigits digits with
  | none => none
  | some ds =>
    if maxStrDigits < ds.length then none
    else
      let n : Int := (ds.foldl (fun n d => 10 * n + d) 0 : Nat)
      some (if neg then -n else n)

example : int10 (py " -1_0 ") = some (-10) := by decide
example : int10 (py "1__0") = none := by decide
example : int10 [0x1C, 0x35] = none ∧ int10 [0x85, 0x35, 0x0B] = some 5 := by decide

end MotuProxy.Py
