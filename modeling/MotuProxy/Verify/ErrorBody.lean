import Mathlib.Data.List.Chain
import MotuProxy.Model.Handler
import MotuProxy.Py.Json
import MotuProxy.Py.Utf8

/-! # The body of an error

`send_json_error` writes `json.dumps({"error": message})`. What `json.dumps` prints for a text is
ASCII, and `json.loads` reads the text back from it (`scanString_dumps`). The exception is a high
surrogate that a low one follows: each is escaped on its own, and the reader joins the two.
-/

namespace MotuProxy

open Py

namespace MotuProxyHandler

/-! ## Escapes -/

/-- The hexadecimal digit as a code point. -/
def hexChar (d : Nat) : Nat := (Nat.digitChar d).toNat

theorem hexValue_hexChar : ∀ d < 16, hexValue (hexChar d) = some d := by decide

theorem printable_hexChar : ∀ d < 16, 0x20 ≤ hexChar d ∧ hexChar d ≤ 0x7E := by decide

theorem toDigits_step (h : 16 ≤ n) : (Nat.toDigits 16 n).map Char.toNat =
    (Nat.toDigits 16 (n / 16)).map Char.toNat ++ [hexChar (n % 16)] := by
  rw [Nat.toDigits_of_base_le (by decide) h, List.map_append]
  rfl

theorem toDigits_last (h : n < 16) : (Nat.toDigits 16 n).map Char.toNat = [hexChar n] := by
  rw [Nat.toDigits_of_lt_base h]
  rfl

theorem strHex_four (h : n < 0x10000) : strHex 4 n =
    [hexChar (n / 4096), hexChar (n / 256 % 16), hexChar (n / 16 % 16), hexChar (n % 16)] := by
  have hzero : hexChar 0 = 0x30 := rfl
  unfold strHex
  by_cases h₁ : n < 16
  · rw [toDigits_last h₁, show n / 4096 = 0 by omega, show n / 256 = 0 by omega,
      show n / 16 = 0 by omega, show n % 16 = n by omega]
    rfl
  rw [toDigits_step (by omega)]
  by_cases h₂ : n / 16 < 16
  · rw [toDigits_last h₂, show n / 4096 = 0 by omega, show n / 256 = 0 by omega,
      show n / 16 % 16 = n / 16 by omega]
    rfl
  rw [toDigits_step (by omega), Nat.div_div_eq_div_mul]
  by_cases h₃ : n / 256 < 16
  · rw [toDigits_last h₃, show n / 4096 = 0 by omega, show n / 256 % 16 = n / 256 by omega]
    rfl
  rw [toDigits_step (by omega), Nat.div_div_eq_div_mul, toDigits_last (by omega)]
  rfl

theorem hex4_strHex (h : n < 0x10000) :
    hex4 (hexChar (n / 4096)) (hexChar (n / 256 % 16)) (hexChar (n / 16 % 16)) (hexChar (n % 16)) =
      some n := by
  simp only [hex4, hexValue_hexChar _ (show n / 4096 < 16 by omega),
    hexValue_hexChar _ (show n / 256 % 16 < 16 by omega),
    hexValue_hexChar _ (show n / 16 % 16 < 16 by omega),
    hexValue_hexChar _ (show n % 16 < 16 by omega), Option.bind_eq_bind, Option.bind_some, pure,
    Option.some.injEq]
  omega

/-- The escape of a code unit. -/
def unitEscape (n : Nat) : Str := py "\\u" ++ strHex 4 n

/-- The text does not start with the escape of a low surrogate. -/
def NoLow (text : Str) : Prop := ∀ a b c d e rest, text = 0x5C :: 0x75 :: a :: b :: c :: d :: e :: rest →
  ∃ unit, hex4 a b c d = some unit ∧ isLowSurrogate unit = false

theorem unitEscape_append (h : n < 0x10000) (text : Str) : unitEscape n ++ text =
    0x5C :: 0x75 :: hexChar (n / 4096) :: hexChar (n / 256 % 16) :: hexChar (n / 16 % 16) ::
      hexChar (n % 16) :: text := by
  rw [unitEscape, strHex_four h]
  rfl

theorem scanString_unit {text : Str} (h : n < 0x10000) (hne : text ≠ [])
    (hlow : isHighSurrogate n = true → NoLow text) :
    scanString start (unitEscape n ++ text) = Scan.cons n (scanString start text) := by
  rw [unitEscape_append h]
  obtain ⟨e, rest, rfl⟩ := List.exists_cons_of_ne_nil hne
  rw [scanString, hex4_strHex h]
  dsimp only
  split
  · next a b c d f rest =>
    split
    · next hhi =>
      obtain ⟨unit, hunit, hnot⟩ := hlow hhi a b c d f rest rfl
      rw [hunit]
      dsimp only
      rw [if_neg (by rw [hnot]; exact Bool.false_ne_true)]
    · rfl
  · rfl

theorem scanString_pair {hi lo : Nat} {text : Str} (hhi : isHighSurrogate hi = true)
    (hlo : isLowSurrogate lo = true) (hne : text ≠ []) :
    scanString start (unitEscape hi ++ (unitEscape lo ++ text)) =
      Scan.cons (joinSurrogates hi lo) (scanString start text) := by
  have hhi' : hi < 0x10000 := by simp [isHighSurrogate] at hhi; omega
  have hlo' : lo < 0x10000 := by simp [isLowSurrogate] at hlo; omega
  obtain ⟨e, rest, rfl⟩ := List.exists_cons_of_ne_nil hne
  rw [unitEscape_append hhi', unitEscape_append hlo', scanString, hex4_strHex hhi']
  dsimp only
  split
  · next heq =>
    simp only [List.cons.injEq] at heq
    obtain ⟨-, rfl, rfl, rfl, rfl, rfl, rfl⟩ := heq
    rw [if_pos hhi, hex4_strHex hlo']
    dsimp only
    rw [if_pos hlo]
  · next hne => exact absurd rfl (hne _ _ _ _ _ _ rfl)

theorem scanString_simple {text : Str} (hx : x ≠ 0x75) (h : simpleEscape x = some c) :
    scanString start (0x5C :: x :: text) = Scan.cons c (scanString start text) := by
  rw [scanString]
  · rw [h]
  · rintro _ _ _ _ _ _ rfl
    exact absurd rfl hx
  · exact fun heq => hx heq

theorem scanString_plain {text : Str} (hquote : c ≠ 0x22) (hslash : c ≠ 0x5C) (hc : 0x20 ≤ c) :
    scanString start (c :: text) = Scan.cons c (scanString start text) := by
  rw [scanString]
  · exact if_neg (by omega)
  all_goals intros; simp_all

/-! ## The text of a code point -/

theorem isHighSurrogate_iff : isHighSurrogate c = true ↔ 0xD800 ≤ c ∧ c < 0xDC00 := by
  simp [isHighSurrogate]

theorem isLowSurrogate_iff : isLowSurrogate c = true ↔ 0xDC00 ≤ c ∧ c < 0xE000 := by
  simp [isLowSurrogate]

theorem joinSurrogates_split (h : 0x10000 ≤ c) :
    joinSurrogates (0xD800 + (c - 0x10000) / 0x400) (0xDC00 + (c - 0x10000) % 0x400) = c := by
  unfold joinSurrogates
  omega

/-- What `json.dumps` prints for a code point. -/
inductive Dumped (c : Nat) : Str → Prop where
  | simple (hx : x ≠ 0x75) (hp : 0x20 ≤ x ∧ x ≤ 0x7E) (h : simpleEscape x = some c) :
    Dumped c [0x5C, x]
  | plain (hquote : c ≠ 0x22) (hslash : c ≠ 0x5C) (hp : 0x20 ≤ c ∧ c ≤ 0x7E) : Dumped c [c]
  | unit (h : c < 0x10000) : Dumped c (unitEscape c)
  | pair (hhi : isHighSurrogate hi = true) (hlo : isLowSurrogate lo = true)
    (h : joinSurrogates hi lo = c) : Dumped c (unitEscape hi ++ unitEscape lo)

theorem dumped (h : c < 0x110000) : Dumped c (dumpsChar c) := by
  unfold dumpsChar
  split
  · next hc => subst hc; exact .simple (x := 0x22) (by decide) (by decide) rfl
  split
  · next hc => subst hc; exact .simple (x := 0x5C) (by decide) (by decide) rfl
  split
  · next hc => subst hc; exact .simple (x := 0x6E) (by decide) (by decide) rfl
  split
  · next hc => subst hc; exact .simple (x := 0x72) (by decide) (by decide) rfl
  split
  · next hc => subst hc; exact .simple (x := 0x74) (by decide) (by decide) rfl
  split
  · next hc => subst hc; exact .simple (x := 0x66) (by decide) (by decide) rfl
  split
  · next hc => subst hc; exact .simple (x := 0x62) (by decide) (by decide) rfl
  split
  · next hc => exact .plain ‹_› ‹_› hc
  split
  · next hc => exact .unit hc
  · next hc =>
    dsimp only
    rw [List.append_assoc]
    exact .pair (isHighSurrogate_iff.2 (by omega)) (isLowSurrogate_iff.2 (by omega))
      (joinSurrogates_split (by omega))

/-- What is printed for a code point starts with the escape of a low surrogate only if it is one. -/
theorem Dumped.noLow {printed : Str} (h : Dumped c printed) (hc : isLowSurrogate c = false)
    (text : Str) : NoLow (printed ++ text) := by
  have hunit {n : Nat} (hn : n < 0x10000) (hlow : isLowSurrogate n = false) (text : Str) :
      NoLow (unitEscape n ++ text) := by
    intro a b c d e rest heq
    rw [unitEscape_append hn] at heq
    simp only [List.cons.injEq, true_and] at heq
    obtain ⟨rfl, rfl, rfl, rfl, -⟩ := heq
    exact ⟨n, hex4_strHex hn, hlow⟩
  cases h with
  | simple hx =>
    intro a b c d e rest heq
    exact absurd (List.cons.inj (List.cons.inj heq).2).1 hx
  | plain _ hslash =>
    intro a b c d e rest heq
    exact absurd (List.cons.inj heq).1 hslash
  | unit h => exact hunit h hc text
  | pair hhi =>
    rw [List.append_assoc]
    rw [isHighSurrogate_iff] at hhi
    refine hunit (by omega) (Bool.eq_false_iff.2 fun hlow => ?_) _
    rw [isLowSurrogate_iff] at hlow
    omega

theorem noLow_quote (text : Str) : NoLow (0x22 :: text) := by
  intro a b c d e rest heq
  cases heq

/-! ## Texts -/

/-- No low surrogate follows a high one. -/
def NoPairs (s : Str) : Prop :=
  s.IsChain fun a b => ¬(isHighSurrogate a = true ∧ isLowSurrogate b = true)

instance (s : Str) : Decidable (NoPairs s) := inferInstanceAs (Decidable (List.IsChain _ s))

theorem scanString_dumps {s rest : Str} (hs : ∀ c ∈ s, c < 0x110000) (hpairs : NoPairs s) :
    scanString start (s.flatMap dumpsChar ++ 0x22 :: rest) = .ok (s, rest) := by
  induction s with
  | nil => rfl
  | cons c s ih =>
    have ⟨hc, hs⟩ := List.forall_mem_cons.1 hs
    obtain ⟨hnext, hpairs⟩ := List.isChain_cons.1 hpairs
    have ih := ih hs hpairs
    rw [List.flatMap_cons, List.append_assoc]
    have hne : s.flatMap dumpsChar ++ 0x22 :: rest ≠ [] := by simp
    have hcons : scanString start (dumpsChar c ++ (s.flatMap dumpsChar ++ 0x22 :: rest)) =
        Scan.cons c (scanString start (s.flatMap dumpsChar ++ 0x22 :: rest)) := by
      have hd := dumped hc
      revert hd
      generalize dumpsChar c = printed
      intro hd
      cases hd with
      | simple hx _ h => exact scanString_simple hx h
      | plain hquote hslash hp => exact scanString_plain hquote hslash hp.1
      | unit h =>
        refine scanString_unit h hne fun hhi => ?_
        cases s with
        | nil => exact noLow_quote rest
        | cons c' s =>
          rw [List.flatMap_cons, List.append_assoc]
          refine (dumped (hs c' List.mem_cons_self)).noLow (Bool.eq_false_iff.2 fun hlow => ?_) _
          exact hnext c' rfl ⟨hhi, hlow⟩
      | pair hhi hlo h =>
        rw [List.append_assoc, scanString_pair hhi hlo hne, h]
    rw [hcons, ih]
    rfl

/-! ## The body -/

theorem Dumped.printable {printed : Str} (h : Dumped c printed) :
    ∀ d ∈ printed, 0x20 ≤ d ∧ d ≤ 0x7E := by
  have hunit {n : Nat} (hn : n < 0x10000) : ∀ d ∈ unitEscape n, 0x20 ≤ d ∧ d ≤ 0x7E := by
    have heq := unitEscape_append hn []
    rw [List.append_nil] at heq
    rw [heq]
    simp only [List.forall_mem_cons]
    exact ⟨by decide, by decide, printable_hexChar _ (by omega), printable_hexChar _ (by omega),
      printable_hexChar _ (by omega), printable_hexChar _ (by omega), by simp⟩
  cases h with
  | simple _ hp => simp [hp]
  | plain _ _ hp => simp [hp]
  | unit h => exact hunit h
  | pair hhi hlo =>
    rw [isHighSurrogate_iff] at hhi
    rw [isLowSurrogate_iff] at hlo
    exact List.forall_mem_append.2 ⟨hunit (by omega), hunit (by omega)⟩

theorem utf8Encode_of_ascii {s : Str} (hs : ∀ c ∈ s, c < 0x80) :
    utf8Encode s = some (s.map UInt8.ofNat) := by
  induction s with
  | nil => rfl
  | cons c s ih =>
    have ⟨hc, hs⟩ := List.forall_mem_cons.1 hs
    have hsurrogate : isSurrogate c = false := isSurrogate_eq_false.2 (.inl (by omega))
    rw [utf8Encode, hsurrogate, if_neg Bool.false_ne_true, ih hs, utf8Char, if_pos hc]
    rfl

/-- The text of the body. -/
def errorText (message : Str) : Str :=
  py "\x7b\"error\": \"" ++ message.flatMap dumpsChar ++ py "\"\x7d"

theorem errorText_printable {message : Str} (hs : ∀ c ∈ message, c < 0x110000) :
    ∀ d ∈ errorText message, 0x20 ≤ d ∧ d ≤ 0x7E := by
  refine List.forall_mem_append.2 ⟨List.forall_mem_append.2 ⟨by decide, fun d hd => ?_⟩, by decide⟩
  obtain ⟨c, hc, hd⟩ := List.mem_flatMap.1 hd
  exact (dumped (hs c hc)).printable d hd

/-! ## What a client decodes -/

theorem skipSpace_cons (h : isJsonSpaceChar c = false) (s : Str) : skipSpace (c :: s) = c :: s :=
  List.dropWhile_cons_of_neg (by simp [h])

/-- The member of the body, before its value. -/
theorem scanMember_error {scan : Str → Scan Json} {value : Str}
    (hvalue : scan (0x22 :: value) = .ok (v, rest)) :
    scanMember scan (0x22 :: (py "error" ++ 0x22 :: 0x3A :: 0x20 :: 0x22 :: value)) =
      .ok ((py "error", v), rest) := by
  have hsame : (py "error").flatMap dumpsChar = py "error" := by decide
  have hkey (start : Nat) (rest : Str) :
      scanString start (py "error" ++ 0x22 :: rest) = .ok (py "error", rest) := by
    have h := @scanString_dumps start (py "error") rest (by decide) (by decide)
    rwa [hsame] at h
  have hblank : skipSpace (0x20 :: 0x22 :: value) = 0x22 :: value := by
    rw [skipSpace, List.dropWhile_cons_of_pos (by decide)]
    exact skipSpace_cons (by decide) value
  rw [scanMember, hkey]
  simp only [bind, Except.bind, skipSpace_cons (show isJsonSpaceChar 0x3A = false by decide), hblank,
    hvalue]

theorem scanObject_error {scan : Str → Scan Json} {value : Str}
    (hvalue : scan (0x22 :: value) = .ok (v, [0x7D])) :
    scanObject scan (0x22 :: (py "error" ++ 0x22 :: 0x3A :: 0x20 :: 0x22 :: value)) =
      .ok ([(py "error", v)], []) := by
  rw [scanObject, skipSpace_cons (by decide)]
  simp only [List.length_cons, Nat.succ_eq_add_one]
  rw [objectLoop, scanMember_error hvalue]
  simp only [bind, Except.bind, skipSpace_cons (show isJsonSpaceChar 0x7D = false by decide)]

theorem errorText_eq (message : Str) : errorText message =
    0x7B :: 0x22 :: (py "error" ++ 0x22 :: 0x3A :: 0x20 :: 0x22 ::
      (message.flatMap dumpsChar ++ 0x22 :: [0x7D])) := by
  have hhead : py "\x7b\"error\": \"" = 0x7B :: 0x22 :: (py "error" ++ [0x22, 0x3A, 0x20, 0x22]) := by
    decide
  have hlast : py "\"\x7d" = [0x22, 0x7D] := by decide
  rw [errorText, hhead, hlast]
  simp only [List.cons_append, List.append_assoc, List.nil_append]

theorem loads_errorText {message : Str} (hs : ∀ c ∈ message, c < 0x110000)
    (hpairs : NoPairs message) (depth : Nat) :
    loads (depth + 1) (errorText message) = .ok (.obj [(py "error", .str message)]) := by
  have hvalue : scanOnce depth (0x22 :: (message.flatMap dumpsChar ++ 0x22 :: [0x7D])) =
      .ok (.str message, [0x7D]) := by
    rw [scanOnce, scanString_dumps hs hpairs]
    rfl
  rw [errorText_eq, loads, skipSpace_cons (by decide), scanOnce, scanObject_error hvalue]
  · rfl
  · intro rest h
    exact absurd (List.cons.inj h).1 (by decide)

/-- The body of every error is printable ASCII, and a client that decodes it finds the message under
`error` and nothing else, whatever the message is made of. -/
theorem error_body_decoded {message : Str} (hs : ∀ c ∈ message, c < 0x110000)
    (hpairs : NoPairs message) (depth : Nat) :
    (∀ b ∈ errorBody message, 0x20 ≤ b ∧ b ≤ 0x7E) ∧
    ∃ text, utf8DecodeStrict (errorBody message) = some text ∧
      loads (depth + 1) text = .ok (.obj [(py "error", .str message)]) := by
  have hprintable := errorText_printable hs
  refine ⟨fun b hb => ?_, errorText message, ?_, loads_errorText hs hpairs depth⟩
  · obtain ⟨c, hc, rfl⟩ := List.mem_map.1 hb
    have hp := hprintable c hc
    rw [UInt8.le_iff_toNat_le, UInt8.le_iff_toNat_le, toNat_ofNat_of_lt (by omega)]
    exact hp
  · have hencode : utf8Encode (errorText message) = some (errorBody message) :=
      utf8Encode_of_ascii fun c hc => Nat.lt_of_le_of_lt (hprintable c hc).2 (by decide)
    refine utf8DecodeFrom_utf8Encode none (fun c hc => ?_) hencode
    exact Nat.lt_of_le_of_lt (hprintable c hc).2 (by decide)

/-- A message with a quote, a backslash, a control character, a letter beyond ASCII and one beyond
the basic plane. -/
theorem error_body_decoded_mixed : ∃ text,
    utf8DecodeStrict (errorBody [0x22, 0x5C, 0x01, 0xE9, 0x1F600]) = some text ∧
      loads 1 text = .ok (.obj [(py "error", .str [0x22, 0x5C, 0x01, 0xE9, 0x1F600])]) :=
  (error_body_decoded (by decide) (by decide) 0).2

end MotuProxyHandler

end MotuProxy
