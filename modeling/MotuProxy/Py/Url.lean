import MotuProxy.Py.Codec

/-! # URLs and addresses

`urllib.parse` and `ipaddress` as far as the proxy uses them: `unquote`, `urlparse`, `parse_qsl`
and `ip_address(..).is_loopback`. A `ValueError` or `UnicodeDecodeError` is `none`. The checks on a
network location are those of CPython 3.11.10; later patch levels check a bracketed host further.
-/

namespace MotuProxy.Py

/-! ## Percent escapes -/

/-- The bytes of `unquote_to_bytes` for ASCII text. -/
def percentBytes : Str → Bytes
  | [] => []
  | 0x25 :: a :: b :: s => match hexValue a, hexValue b with
    | some x, some y => UInt8.ofNat (16 * x + y) :: percentBytes s
    | _, _ => 0x25 :: percentBytes (a :: b :: s)
  | c :: s => UInt8.ofNat c :: percentBytes s

/-- The loop of `unquote` over the runs of ASCII text; `run` is the current one, in reverse. -/
def unquoteRuns (bad : Option Str) (run : Str) : Str → Option Str
  | [] => utf8DecodeFrom bad 0 (percentBytes run.reverse)
  | c :: s =>
    if c < 0x80 then unquoteRuns bad (c :: run) s
    else do return (← utf8DecodeFrom bad 0 (percentBytes run.reverse)) ++ c :: (← unquoteRuns bad [] s)

/-- `unquote(s, errors=..)`: `bad` replaces a decoding error, or is `none` for `strict`. -/
def unquoteWith (bad : Option Str) (s : Str) : Option Str :=
  if 0x25 ∈ s then unquoteRuns bad [] s else some s

/-- `unquote(s)`. -/
def unquote (s : Str) : Str := (unquoteWith (some [0xFFFD]) s).getD []

/-- `unquote_plus`. -/
def unquotePlus (bad : Option Str) (s : Str) : Option Str :=
  unquoteWith bad (s.map fun c => if c = 0x2B then 0x20 else c)

example : unquote (py "a%2Fb%%41%zz") = py "a/b%A%zz" := by decide

/-! ## IP addresses -/

/-- `IPv4Address._parse_octet`. -/
def parseOctet (s : Str) : Option Nat :=
  if s.isEmpty ∨ ¬s.all isAsciiDigit ∨ 3 < s.length ∨ (s ≠ py "0" ∧ s.head? = some 0x30) then none
  else
    let n := s.foldl (fun n c => 10 * n + (c - 0x30)) 0
    if 255 < n then none else some n

/-- `IPv4Address(s)`, as an integer. -/
def ipv4Address (s : Str) : Option Nat :=
  match splitOn 0x2E s with
  | [a, b, c, d] => do
    return (((← parseOctet a) * 256 + (← parseOctet b)) * 256 + (← parseOctet c)) * 256 + (← parseOctet d)
  | _ => none

/-- `IPv6Address._parse_hextet`. -/
def parseHextet (s : Str) : Option Nat :=
  if s.isEmpty ∨ 4 < s.length then none
  else (s.mapM hexValue).map fun ds => ds.foldl (fun n d => 16 * n + d) 0

/-- A last part in dotted notation counts for two. -/
def ipv6Parts (s : Str) : Option (List Str) :=
  let parts := splitOn 0x3A s
  if parts.length < 3 then none
  else match parts.getLast? with
    | some last =>
      if 0x2E ∈ last then
        (ipv4Address last).map fun n => parts.dropLast ++ [strHex 0 (n / 65536), strHex 0 (n % 65536)]
      else some parts
    | none => none

/-- `IPv6Address._ip_int_from_string`. -/
def ipv6Int (s : Str) : Option Nat := do
  let parts ← ipv6Parts s
  if 9 < parts.length then none
  else
    let hextets (ps : List Str) (n : Nat) : Option Nat :=
      ps.foldlM (fun n p => (parseHextet p).map (65536 * n + ·)) n
    let first := parts.head?.getD []
    let last := parts.getLast?.getD []
    let skips := (List.range' 1 (parts.length - 2)).filter fun i => (parts.getD i []).isEmpty
    match skips with
    | [] => if parts.length ≠ 8 ∨ first.isEmpty ∨ last.isEmpty then none else hextets parts 0
    | [skip] =>
      let hi := if first.isEmpty then skip - 1 else skip
      let lo := if last.isEmpty then parts.length - skip - 2 else parts.length - skip - 1
      if (first.isEmpty ∧ 0 < hi) ∨ (last.isEmpty ∧ 0 < lo) ∨ 8 ≤ hi + lo then none
      else do
        let n ← hextets (parts.take hi) 0
        hextets (parts.drop (parts.length - lo)) (n * 65536 ^ (8 - (hi + lo)))
    | _ => none

/-- `IPv6Address(s)`, as an integer; a scope may follow a percent sign. -/
def ipv6Address (s : Str) : Option Nat :=
  let (addr, percent, scope) := partition 0x25 s
  if percent ∧ (scope.isEmpty ∨ 0x25 ∈ scope) then none else ipv6Int addr

inductive IpAddress where
  | v4 (n : Nat)
  | v6 (n : Nat)
  deriving DecidableEq, Repr

/-- `ip_address(s)`. -/
def ipAddress (s : Str) : Option IpAddress :=
  if 0x2F ∈ s then none
  else match ipv4Address s with
    | some n => some (.v4 n)
    | none => (ipv6Address s).map .v6

/-- `is_loopback`. -/
def IpAddress.isLoopback : IpAddress → Bool
  | .v4 n => n / 2 ^ 24 = 127
  | .v6 n => n = 1

example : (ipAddress (py "127.0.0.1")).map IpAddress.isLoopback = some true := by decide
example : ipAddress (py "::ffff:1.2.3.4") = some (.v6 0xFFFF01020304) := by decide
example : ipAddress (py "1::2::3") = none := by decide

/-! ## Splitting a URL -/

structure Url where
  scheme : Str
  netloc : Str
  path : Str
  query : Str
  deriving DecidableEq, Repr

def isAsciiAlpha (c : Nat) : Bool := (0x41 ≤ c && c ≤ 0x5A) || (0x61 ≤ c && c ≤ 0x7A)

/-- `scheme_chars`. -/
def isSchemeChar (c : Nat) : Bool :=
  isAsciiAlpha c || isAsciiDigit c || c == 0x2B || c == 0x2D || c == 0x2E

/-- The code points whose NFKC form holds one of `/?#@:`. -/
def netlocBreakers : List Nat :=
  [0x2047, 0x2048, 0x2049, 0x2100, 0x2101, 0x2105, 0x2106, 0x2A74, 0xFE13, 0xFE16, 0xFE55, 0xFE56,
   0xFE5F, 0xFE6B, 0xFF03, 0xFF0F, 0xFF1A, 0xFF1F, 0xFF20]

/-- `_check_bracketed_host`. -/
def bracketedHostOk (host : Str) : Bool :=
  match host with
  | 0x76 :: rest =>
    let (digits, dot, tail) := partition 0x2E rest
    dot && !digits.isEmpty && digits.all (fun c => (hexValue c).isSome) && !tail.isEmpty &&
      0x0A ∉ tail
  | _ => match ipAddress host with
    | some (.v6 _) => true
    | _ => false

/-- The checks of `urlsplit` on the network location. -/
def netlocOk (netloc : Str) : Bool :=
  (decide (0x5B ∈ netloc) == decide (0x5D ∈ netloc)) &&
  (0x5B ∉ netloc || bracketedHostOk (partition 0x5D (partition 0x5B netloc).2.2).1) &&
  netloc.all (· ∉ netlocBreakers)

/-- The schemes that have parameters (`uses_params`). -/
def usesParams : List Str :=
  [[], py "ftp", py "hdl", py "prospero", py "http", py "https", py "shttp", py "rtsp", py "rtspu",
   py "sip", py "sips", py "mms", py "sftp", py "tel"]

/-- `_splitparams`, less the parameters: they end the last segment of the path. -/
def splitParams (path : Str) : Str :=
  let (dir, slash, name) := rpartition 0x2F path
  let name := (partition 0x3B name).1
  if slash then dir ++ 0x2F :: name else name

/-- `urlparse(url, allow_fragments=..)`; the parameters and the fragment are not used. -/
def urlparse (url : Str) (allowFragments : Bool) : Option Url :=
  let url := (lstripBy (· ≤ 0x20) url).filter fun c => c ≠ 0x09 ∧ c ≠ 0x0D ∧ c ≠ 0x0A
  let (before, colon, after) := partition 0x3A url
  let (scheme, url) :=
    if colon ∧ before.head?.any isAsciiAlpha ∧ before.all isSchemeChar then (lower before, after)
    else ([], url)
  let (netloc, url) := match url with
    | 0x2F :: 0x2F :: rest => rest.span fun c => c ≠ 0x2F ∧ c ≠ 0x3F ∧ c ≠ 0x23
    | _ => ([], url)
  if ¬netlocOk netloc then none
  else
    let url := if allowFragments then (partition 0x23 url).1 else url
    let (path, _, query) := partition 0x3F url
    some { scheme, netloc, query, path := if scheme ∈ usesParams then splitParams path else path }

/-- The property `hostname`; `none` if there is no host. -/
def Url.hostname (u : Url) : Option Str :=
  let (_, _, hostinfo) := rpartition 0x40 u.netloc
  let (_, bracket, bracketed) := partition 0x5B hostinfo
  let host := if bracket then (partition 0x5D bracketed).1 else (partition 0x3A hostinfo).1
  if host.isEmpty then none
  else
    let (name, percent, zone) := partition 0x25 host
    some (lower name ++ if percent then 0x25 :: zone else [])

/-- `parse_qsl(query, keep_blank_values=True, errors=..)`. -/
def parseQsl (bad : Option Str) (query : Str) : Option (List (Str × Str)) :=
  ((splitOn 0x26 query).filter (!·.isEmpty)).mapM fun field => do
    let (name, _, value) := partition 0x3D field
    return (← unquotePlus bad name, ← unquotePlus bad value)

/-- `parse_qs(..).get(name)`, where no value at all is `none`, and of the values the first. -/
def firstValue (name : Str) (fields : List (Str × Str)) : Option Str :=
  (fields.find? (·.1 = name)).map (·.2)

example : (urlparse (py "http://u@[::1%25a]:8/a;b/c;d?x=1#f") true) = some {
    scheme := py "http", netloc := py "u@[::1%25a]:8", path := py "/a;b/c", query := py "x=1" } := by
  decide
example : parseQsl none (py "a=1&&b=%20+&c") =
    some [(py "a", py "1"), (py "b", py "  "), (py "c", [])] := by decide

end MotuProxy.Py
