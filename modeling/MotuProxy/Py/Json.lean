import Mathlib.Algebra.Order.Field.Rat
import Mathlib.Data.Nat.Log
import MotuProxy.Py.Codec

/-! # JSON

`json.loads` with a `parse_constant` that raises, as the C scanner of CPython 3.11 reads a text:
strict strings, numbers with backtracking before a bad fraction or exponent, and one level of
recursion for each array or object. A value keeps the members of an object as they are written;
`dict` is what Python builds from them.

The scanner works on the rest of the text, so an error carries the length of the rest and its
position is found from that. `depth` is the number of recursive calls that the interpreter allows.
-/

namespace MotuProxy.Py

/-! ## Floating point -/

/-- A `float` that is not a NaN; the sign of a zero is never looked at. -/
inductive PyFloat where
  | finite (q : ℚ)
  | inf (negative : Bool)
  deriving DecidableEq, Repr

/-- Round to an integer, ties to even. -/
def roundHalfEven (q : ℚ) : Int :=
  let n := q.floor
  let r := q - n
  if r < 1 / 2 then n
  else if 1 / 2 < r then n + 1
  else if n % 2 = 0 then n else n + 1

/-- The exponent `e` with `2 ^ e ≤ q < 2 ^ (e + 1)`, for a positive `q`. -/
def log2 (q : ℚ) : Int :=
  let e : Int := (Nat.log2 q.num.natAbs : Int) - Nat.log2 q.den
  if (2 : ℚ) ^ e ≤ q then e else e - 1

/-- The binary64 number closest to `q`. -/
def roundDouble (q : ℚ) : PyFloat :=
  if q = 0 then .finite 0
  else
    let e := max (log2 |q|) (-1022)
    let ulp : ℚ := (2 : ℚ) ^ (e - 52)
    let x := roundHalfEven (q / ulp) * ulp
    if (2 : ℚ) ^ (1024 : Nat) ≤ |x| then .inf (q < 0) else .finite x

example : roundDouble (1 / 100) = .finite (5764607523034235 / 576460752303423488) := by
  decide +kernel
example : roundDouble (10 ^ 400) = .inf false := by decide +kernel

/-! ## Values -/

inductive Json where
  | null
  | bool (b : Bool)
  | int (n : Int)
  | float (x : PyFloat)
  | str (s : Str)
  | arr (items : List Json)
  | obj (members : List (Str × Json))
  deriving Repr

/-- The items of the `dict` that the members make: a repeated key keeps its place and takes the
last value. -/
def dict {α : Type} (members : List (Str × α)) : List (Str × α) :=
  members.foldl (fun items (key, value) =>
    if items.any (·.1 = key) then items.map fun item => if item.1 = key then (key, value) else item
    else items ++ [(key, value)]) []

example : dict [(py "a", 1), (py "b", 2), (py "a", 3)] = [(py "a", 3), (py "b", 2)] := by decide

inductive JsonError where
  /-- `JSONDecodeError(msg, doc, pos)`, with `rest` code points from `pos` to the end. -/
  | decode (msg : Str) (rest : Nat)
  | valueError (msg : Str)
  | recursionError (msg : Str)
  /-- A loop of the scanner got more rounds than the text has code points. -/
  | exhausted
  deriving DecidableEq, Repr

abbrev Scan (α : Type) := Except JsonError (α × Str)

def expectingValue (rest : Str) : JsonError := .decode (py "Expecting value") rest.length

def isJsonSpaceChar (c : Nat) : Bool := c == 0x20 || c == 0x09 || c == 0x0A || c == 0x0D

def skipSpace (s : Str) : Str := s.dropWhile isJsonSpaceChar

/-! ## Strings -/

def hex4 (a b c d : Nat) : Option Nat := do
  return (((← hexValue a) * 16 + (← hexValue b)) * 16 + (← hexValue c)) * 16 + (← hexValue d)

def simpleEscape (c : Nat) : Option Nat :=
  if c = 0x22 ∨ c = 0x5C ∨ c = 0x2F then some c
  else if c = 0x62 then some 0x08
  else if c = 0x66 then some 0x0C
  else if c = 0x6E then some 0x0A
  else if c = 0x72 then some 0x0D
  else if c = 0x74 then some 0x09
  else none

def isHighSurrogate (c : Nat) : Bool := 0xD800 ≤ c && c < 0xDC00

def isLowSurrogate (c : Nat) : Bool := 0xDC00 ≤ c && c < 0xE000

def joinSurrogates (hi lo : Nat) : Nat := 0x10000 + (hi - 0xD800) * 0x400 + (lo - 0xDC00)

def invalidUnicodeEscape (rest : Nat) : JsonError := .decode (py "Invalid \\uXXXX escape") rest

def Scan.cons (c : Nat) (x : Scan Str) : Scan Str := x.map fun (text, rest) => (c :: text, rest)

/-- `scanstring`, after the opening quote; `start` is the length of the rest at that quote. -/
def scanString (start : Nat) : Str → Scan Str
  | [] => .error (.decode (py "Unterminated string starting at") start)
  | 0x22 :: rest => .ok ([], rest)
  | [0x5C] => .error (.decode (py "Unterminated string starting at") start)
  | 0x5C :: 0x75 :: a :: b :: c :: d :: e :: rest =>
    match hex4 a b c d with
    | none => .error (invalidUnicodeEscape (rest.length + 6))
    | some hi =>
      -- a second escape is looked at only if something follows it
      match e, rest with
      | 0x5C, 0x75 :: a :: b :: c :: d :: f :: rest =>
        if isHighSurrogate hi then
          match hex4 a b c d with
          | none => .error (invalidUnicodeEscape (rest.length + 6))
          | some lo =>
            if isLowSurrogate lo then
              Scan.cons (joinSurrogates hi lo) (scanString start (f :: rest))
            else Scan.cons hi (scanString start (0x5C :: 0x75 :: a :: b :: c :: d :: f :: rest))
        else Scan.cons hi (scanString start (0x5C :: 0x75 :: a :: b :: c :: d :: f :: rest))
      | e, rest => Scan.cons hi (scanString start (e :: rest))
  | 0x5C :: 0x75 :: rest => .error (invalidUnicodeEscape (rest.length + 1))
  | 0x5C :: c :: rest =>
    match simpleEscape c with
    | none => .error (.decode (py "Invalid \\escape") (rest.length + 2))
    | some c => Scan.cons c (scanString start rest)
  | c :: rest =>
    if c ≤ 0x1F then .error (.decode (py "Invalid control character at") (rest.length + 1))
    else Scan.cons c (scanString start rest)

example : scanString 9 (py "a\\n\\ud83d\\ude00\"x") = .ok ([0x61, 0x0A, 0x1F600], py "x") := by decide
example : scanString 6 (py "\\u12\"") = .error (.decode (py "Invalid \\uXXXX escape") 4) := by
  decide

/-! ## Numbers -/

/-- The value of a run of ASCII digits. -/
def digitsValue (digits : Str) : Nat := digits.foldl (fun n c => 10 * n + (c - 0x30)) 0

def spanDigits (s : Str) : Str × Str := s.span isAsciiDigit

/-- The digits of the integer part: `0`, or digits that do not start with it. -/
def scanInteger : Str → Option (Str × Str)
  | 0x30 :: rest => some ([0x30], rest)
  | c :: rest => if isAsciiDigit c then some (spanDigits (c :: rest)) else none
  | [] => none

/-- A point and digits after it. -/
def scanFraction : Str → Option (Str × Str)
  | 0x2E :: c :: rest => if isAsciiDigit c then some (spanDigits (c :: rest)) else none
  | _ => none

/-- The digits of an exponent, and whether it is negative. -/
def scanExponent (s : Str) : Option (Bool × Str × Str) :=
  match s with
  | e :: rest =>
    if e = 0x65 ∨ e = 0x45 then
      let (negative, rest) := match rest with
        | 0x2D :: rest => (true, rest)
        | 0x2B :: rest => (false, rest)
        | rest => (false, rest)
      let (digits, rest) := spanDigits rest
      if digits.isEmpty then none else some (negative, digits, rest)
    else none
  | [] => none

def exceedsDigitLimit (digits : Nat) : JsonError :=
  .valueError (py "Exceeds the limit (" ++ strNat maxStrDigits ++
    py " digits) for integer string conversion: value has " ++ strNat digits ++
    py " digits; use sys.set_int_max_str_digits() to increase the limit")

/-- `float` of a literal with these digits before and after the point. -/
def floatLiteral (negative : Bool) (integer fraction : Str) (exponent : Int) : PyFloat :=
  let magnitude : ℚ := digitsValue (integer ++ fraction) * (10 : ℚ) ^ (exponent - fraction.length)
  roundDouble (if negative then -magnitude else magnitude)

/-- `_match_number_unicode`. -/
def scanNumber (s : Str) : Scan Json :=
  let (negative, unsigned) := match s with
    | 0x2D :: rest => (true, rest)
    | rest => (false, rest)
  match scanInteger unsigned with
  | none => .error (expectingValue s)
  | some (integer, rest) =>
    let (fraction, rest) := match scanFraction rest with
      | some (digits, rest) => (some digits, rest)
      | none => (none, rest)
    match fraction, scanExponent rest with
    | none, none =>
      if maxStrDigits < integer.length then .error (exceedsDigitLimit integer.length)
      else
        let n : Int := digitsValue integer
        .ok (.int (if negative then -n else n), rest)
    | fraction, none => .ok (.float (floatLiteral negative integer (fraction.getD []) 0), rest)
    | fraction, some (expNegative, digits, rest) =>
      let e : Int := digitsValue digits
      .ok (.float (floatLiteral negative integer (fraction.getD [])
        (if expNegative then -e else e)), rest)

/-! ## Arrays and objects -/

/-- The loop of `_parse_array_unicode`, where `scan` reads a value. -/
def arrayLoop (scan : Str → Scan Json) : Nat → Str → Except JsonError (List Json × Str)
  | 0, _ => .error .exhausted
  | n + 1, s => do
    let (item, rest) ← scan s
    match skipSpace rest with
    | 0x5D :: rest => .ok ([item], rest)
    | 0x2C :: rest =>
      let (items, rest) ← arrayLoop scan n (skipSpace rest)
      .ok (item :: items, rest)
    | rest => .error (.decode (py "Expecting ',' delimiter") rest.length)

/-- `_parse_array_unicode`, after the bracket. -/
def scanArray (scan : Str → Scan Json) (s : Str) : Scan (List Json) :=
  match skipSpace s with
  | 0x5D :: rest => .ok ([], rest)
  | rest => arrayLoop scan rest.length.succ rest

/-- A member of an object: the key, the colon, the value. -/
def scanMember (scan : Str → Scan Json) (s : Str) : Except JsonError ((Str × Json) × Str) :=
  match s with
  | 0x22 :: rest => do
    let (key, rest) ← scanString (rest.length + 1) rest
    match skipSpace rest with
    | 0x3A :: rest =>
      let (value, rest) ← scan (skipSpace rest)
      .ok ((key, value), rest)
    | rest => .error (.decode (py "Expecting ':' delimiter") rest.length)
  | rest => .error (.decode (py "Expecting property name enclosed in double quotes") rest.length)

/-- The loop of `_parse_object_unicode`. -/
def objectLoop (scan : Str → Scan Json) : Nat → Str → Except JsonError (List (Str × Json) × Str)
  | 0, _ => .error .exhausted
  | n + 1, s => do
    let (member, rest) ← scanMember scan s
    match skipSpace rest with
    | 0x7D :: rest => .ok ([member], rest)
    | 0x2C :: rest =>
      let (members, rest) ← objectLoop scan n (skipSpace rest)
      .ok (member :: members, rest)
    | rest => .error (.decode (py "Expecting ',' delimiter") rest.length)

/-- `_parse_object_unicode`, after the brace. -/
def scanObject (scan : Str → Scan Json) (s : Str) : Scan (List (Str × Json)) :=
  match skipSpace s with
  | 0x7D :: rest => .ok ([], rest)
  | rest => objectLoop scan rest.length.succ rest

/-! ## Values -/

def tooDeep (what : Str) : JsonError :=
  .recursionError (py "maximum recursion depth exceeded while decoding a JSON " ++ what ++
    py " from a unicode string")

/-- `parse_constant`, which raises. -/
def rejectConstant (name : Str) : JsonError := .valueError (py "invalid JSON constant " ++ name)

/-- The literals of `scan_once`, and what each is; a constant is rejected. -/
def literals : List (Str × Except JsonError Json) :=
  [(py "null", .ok .null), (py "true", .ok (.bool true)), (py "false", .ok (.bool false)),
   (py "NaN", .error (rejectConstant (py "NaN"))),
   (py "Infinity", .error (rejectConstant (py "Infinity"))),
   (py "-Infinity", .error (rejectConstant (py "-Infinity")))]

def scanLiteral (s : Str) : Option (Scan Json) :=
  (literals.find? fun l => l.1.isPrefixOf s).map fun l =>
    l.2.map fun value => (value, s.drop l.1.length)

/-- `_scan_once_unicode`. -/
def scanOnce : Nat → Str → Scan Json
  | _, [] => .error (expectingValue [])
  | _, 0x22 :: rest =>
    (scanString (rest.length + 1) rest).map fun (text, rest) => (.str text, rest)
  | 0, 0x7B :: _ => .error (tooDeep (py "object"))
  | depth + 1, 0x7B :: rest =>
    (scanObject (scanOnce depth) rest).map fun (members, rest) => (.obj members, rest)
  | 0, 0x5B :: _ => .error (tooDeep (py "array"))
  | depth + 1, 0x5B :: rest =>
    (scanArray (scanOnce depth) rest).map fun (items, rest) => (.arr items, rest)
  | _, s => (scanLiteral s).getD (scanNumber s)

/-- The text of a `JSONDecodeError`. -/
def decodeErrorText (doc msg : Str) (rest : Nat) : Str :=
  let pos := doc.length - rest
  let before := doc.take pos
  let column := pos - (before.length - (before.reverse.takeWhile (· ≠ 0x0A)).length) + 1
  msg ++ py ": line " ++ strNat (before.count 0x0A + 1) ++ py " column " ++ strNat column ++
    py " (char " ++ strNat pos ++ py ")"

/-- `json.loads(doc, parse_constant=..)`. -/
def loads (depth : Nat) (doc : Str) : Except JsonError Json :=
  match doc with
  | 0xFEFF :: _ =>
    .error (.decode (py "Unexpected UTF-8 BOM (decode using utf-8-sig)") doc.length)
  | _ => do
    let (value, rest) ← scanOnce depth (skipSpace doc)
    match skipSpace rest with
    | [] => .ok value
    | rest => .error (.decode (py "Extra data") rest.length)

end MotuProxy.Py
