import MotuProxy.Model.Coordinator
import MotuProxy.Verify.SchemaLanguage

/-! # The client of a read and of a write

`parse_get_query_fields` and `parse_client_query` read the same query with different strictness. What
they return agrees, because a query that decodes strictly decodes to the same fields with
replacements (`parseQsl_strict`). They raise something else than `BadRequest` exactly if they get to a
client of more digits than `int` converts.
-/

namespace MotuProxy

open Py Dispatch

namespace Py

/-! ## Strict decoding and decoding with replacements -/

variable {s t bad : Str} {data : Bytes}

theorem utf8DecodeFrom_strict {k : Nat} (h : utf8DecodeFrom none k data = some s) :
    utf8DecodeFrom (some bad) k data = some s := by
  induction data generalizing k s with
  | nil => cases k <;> exact h
  | cons b data ih =>
    cases k with
    | succ k => exact ih h
    | zero =>
      unfold utf8DecodeFrom at h ⊢
      cases hnext : (utf8Next (b :: data)).1 with
      | none => simp [hnext] at h
      | some c =>
        simp only [hnext, bind, Option.bind_some, Option.bind_eq_some_iff, pure,
          Option.some.injEq] at h ⊢
        obtain ⟨rest, hrest, rfl⟩ := h
        exact ⟨rest, ih hrest, rfl⟩

theorem unquoteRuns_strict {run : Str} (h : unquoteRuns none run s = some t) :
    unquoteRuns (some bad) run s = some t := by
  induction s generalizing run t with
  | nil => exact utf8DecodeFrom_strict h
  | cons c s ih =>
    unfold unquoteRuns at h ⊢
    split
    · next hc => exact ih (by rwa [if_pos hc] at h)
    · next hc =>
      rw [if_neg hc] at h
      simp only [bind, Option.bind_eq_some_iff, pure, Option.some.injEq] at h ⊢
      obtain ⟨before, hbefore, rest, hrest, rfl⟩ := h
      exact ⟨before, utf8DecodeFrom_strict hbefore, rest, ih hrest, rfl⟩

theorem unquotePlus_strict (h : unquotePlus none s = some t) : unquotePlus (some bad) s = some t := by
  unfold unquotePlus unquoteWith at *
  split
  · next hp => exact unquoteRuns_strict (by rwa [if_pos hp] at h)
  · next hp => rwa [if_neg hp] at h

/-- A query that decodes strictly decodes to the same fields with replacements. -/
theorem parseQsl_strict {query : Str} {pairs : List (Str × Str)} (h : parseQsl none query = some pairs) :
    parseQsl (some bad) query = some pairs := by
  unfold parseQsl at *
  generalize (splitOn 0x26 query).filter (!·.isEmpty) = items at *
  induction items generalizing pairs with
  | nil => exact h
  | cons item items ih =>
    simp only [List.mapM_cons, bind, Option.bind_eq_some_iff, pure, Option.some.injEq] at h ⊢
    obtain ⟨_, ⟨name, hname, value, hvalue, rfl⟩, rest, hrest, rfl⟩ := h
    exact ⟨_, ⟨name, unquotePlus_strict hname, value, unquotePlus_strict hvalue, rfl⟩, rest, ih hrest,
      rfl⟩

/-! ## Decimal texts -/

/-- The number that the digits of a text stand for. -/
def decimalNumber (s : Str) : Nat := (s.filterMap decimalValue).foldl (fun n d => 10 * n + d) 0

theorem isDecimal_iff : isDecimal s = true ↔ s ≠ [] ∧ ∀ c ∈ s, (decimalValue c).isSome = true := by
  simp [isDecimal]

theorem intDigits_decimal (h : isDecimal s = true) : intDigits s = some (s.filterMap decimalValue) := by
  obtain ⟨hne, hall⟩ := isDecimal_iff.1 h
  clear h
  induction s with
  | nil => exact absurd rfl hne
  | cons c s ih =>
    obtain ⟨hc, hrest⟩ := List.forall_mem_cons.1 hall
    obtain ⟨d, hd⟩ := Option.isSome_iff_exists.1 hc
    cases s with
    | nil => simp [intDigits, hd]
    | cons c' s =>
      have hne' : c' ≠ 0x5F := by
        rintro rfl
        have := hrest 0x5F (List.mem_cons_self ..)
        revert this
        decide
      have htail := ih (List.cons_ne_nil _ _) hrest
      unfold intDigits
      simp [hd, htail, hne']

theorem length_filterMap_decimal (h : ∀ c ∈ s, (decimalValue c).isSome = true) :
    (s.filterMap decimalValue).length = s.length := by
  rw [List.length_filterMap_eq_countP, List.countP_eq_length]
  exact h

theorem isSpace_of_decimal {c : Nat} (h : (decimalValue c).isSome = true) : isSpace c = false := by
  have := Schema.plainChar_of_decimal h
  simp only [Schema.plainChar, Bool.and_eq_true, Bool.not_eq_true'] at this
  exact this.2

/-- `int` of a text of decimal digits. -/
theorem int10_decimal (h : isDecimal s = true) :
    int10 s = if maxStrDigits < s.length then none else some (decimalNumber s : Int) := by
  obtain ⟨hne, hall⟩ := isDecimal_iff.1 h
  have hstrip : intStrip s = s := intStrip_eq_self fun c hc => isSpace_of_decimal (hall c hc)
  have hdigits := intDigits_decimal h
  have hlen := length_filterMap_decimal hall
  unfold int10
  rw [hstrip]
  match s, hne with
  | c :: s, _ =>
    -- A sign is not a digit.
    have hminus : c ≠ 0x2D := by
      rintro rfl
      exact absurd (hall 0x2D (List.mem_cons_self ..)) (by decide)
    have hplus : c ≠ 0x2B := by
      rintro rfl
      exact absurd (hall 0x2B (List.mem_cons_self ..)) (by decide)
    simp only [List.cons.injEq, hminus, hplus, false_and, imp_self, implies_true, hdigits, hlen]
    rfl

/-! ## The canonical text of a number -/

theorem strNat_digits {n c : Nat} (h : c ∈ strNat n) : isAsciiDigit c = true := by
  obtain ⟨ch, hch, rfl⟩ := List.mem_map.1 h
  have hdigit := Nat.isDigit_of_mem_toDigits (by decide) (by decide) hch
  simp only [Char.isDigit, Bool.and_eq_true, decide_eq_true_eq] at hdigit
  simp only [isAsciiDigit, Bool.and_eq_true, decide_eq_true_eq]
  exact ⟨hdigit.1, hdigit.2⟩

theorem strNat_ne_nil {n : Nat} : strNat n ≠ [] := by
  simp [strNat]

/-- No zeros stand before the number. -/
theorem strNat_head {n : Nat} (h : (strNat n).head? = some 0x30) : n = 0 := by
  induction n using Nat.strongRecOn with
  | ind n ih =>
    by_cases hn : n < 10
    · have hfew : ∀ n < 10, (strNat n).head? = some 0x30 → n = 0 := by decide
      exact hfew n hn h
    · have hsplit : strNat n = strNat (n / 10) ++ [(n % 10).digitChar.toNat] := by
        rw [strNat, Nat.toDigits_of_base_le (by decide) (by omega), List.map_append]
        rfl
      rw [hsplit, List.head?_append, Option.or_of_isSome (by simpa using strNat_ne_nil)] at h
      have := ih (n / 10) (by omega) h
      omega

end Py

namespace Dispatch

/-! ## A client -/

variable {value : Str} {pairs before fields : List (Str × Str)} {client : Option Str}

/-- A client of more decimal digits than `int` converts. -/
def Overlong (value : Str) : Prop :=
  isDecimal (strip value) = true ∧ maxStrDigits < (strip value).length

/-- A decimal number of 32 bits, of as many digits as `int` converts. -/
def ValidClient (value : Str) : Prop :=
  isDecimal (strip value) = true ∧ (strip value).length ≤ maxStrDigits ∧
    decimalNumber (strip value) < 2 ^ 32

/-- The canonical text of a client. -/
def canonicalClient (value : Str) : Str := strNat (decimalNumber (strip value))

theorem ValidClient.not_overlong (h : ValidClient value) : ¬Overlong value :=
  fun hlong => Nat.not_lt.2 h.2.1 hlong.2

/-- What `validate_client_query_value` does with a value. -/
inductive Validated (value : Str) : Except Exn Str → Prop
  | valid (h : ValidClient value) : Validated value (.ok (canonicalClient value))
  | overlong (h : Overlong value) (e : Exn) (he : e.kind = .valueError) : Validated value (.error e)
  | invalid (hno : ¬ValidClient value) (hshort : ¬Overlong value) : Validated value (.error invalidClient)

theorem validated (value : Str) : Validated value (validateClientQueryValue value) := by
  unfold validateClientQueryValue
  by_cases hdec : isDecimal (strip value) = true
  · simp only [hdec, Bool.not_true, Bool.false_eq_true, if_false, int10_decimal hdec]
    by_cases hlong : maxStrDigits < (strip value).length
    · simp only [if_pos hlong]
      exact .overlong ⟨hdec, hlong⟩ _ rfl
    · simp only [if_neg hlong]
      by_cases hmax : decimalNumber (strip value) < 2 ^ 32
      · rw [if_neg (by unfold MAX_CLIENT_ID; omega)]
        exact .valid ⟨hdec, Nat.not_lt.1 hlong, hmax⟩
      · rw [if_pos (by unfold MAX_CLIENT_ID; omega)]
        exact .invalid (fun h => hmax h.2.2) fun h => hlong h.2
  · simp only [hdec, Bool.not_false, if_true]
    exact .invalid (fun h => hdec h.1) fun h => hdec h.1

theorem validateClientQueryValue_eq_ok {c : Str} :
    validateClientQueryValue value = .ok c ↔ ValidClient value ∧ c = canonicalClient value := by
  cases hv : validateClientQueryValue value with
  | ok c' =>
    cases hv ▸ validated value with
    | valid h => simp [h, eq_comm]
  | error e =>
    simp only [false_iff, not_and, reduceCtorEq]
    intro h
    cases hv ▸ validated value with
    | overlong hlong => exact absurd hlong h.not_overlong
    | invalid hno => exact absurd h hno

/-! ## The fields of a read -/

/-- The field as it is sent to the device: a client in its canonical text. -/
def canonicalField (field : Str × Str) : Str × Str :=
  if field.1 = py "client" then (field.1, canonicalClient field.2) else field

/-- Fields that the loop of `parse_get_query_fields` gets past after `seen` clients: each has a name,
and together with those there is at most one client, a valid one. -/
structure Passed (seen : Nat) (fields : List (Str × Str)) : Prop where
  named : ∀ field ∈ fields, field.1 ≠ []
  valid : ∀ field ∈ fields, field.1 = py "client" → ValidClient field.2
  once : seen + fields.countP (·.1 = py "client") ≤ 1

def seen (client : Option Str) : Nat := if client.isSome then 1 else 0

theorem passed_nil : Passed (seen client) [] := by
  refine ⟨by simp, by simp, ?_⟩
  cases client <;> simp [seen]

theorem passed_cons {n : Nat} {field : Str × Str} : Passed n (field :: fields) ↔
    field.1 ≠ [] ∧ (field.1 = py "client" → ValidClient field.2) ∧
      Passed (n + if field.1 = py "client" then 1 else 0) fields := by
  constructor
  · rintro ⟨hnamed, hvalid, honce⟩
    obtain ⟨hname, hnamed⟩ := List.forall_mem_cons.1 hnamed
    obtain ⟨hv, hvalid⟩ := List.forall_mem_cons.1 hvalid
    refine ⟨hname, hv, hnamed, hvalid, ?_⟩
    rw [List.countP_cons] at honce
    simp only [decide_eq_true_eq] at honce
    omega
  · rintro ⟨hname, hv, hnamed, hvalid, honce⟩
    refine ⟨List.forall_mem_cons.2 ⟨hname, hnamed⟩, List.forall_mem_cons.2 ⟨hv, hvalid⟩, ?_⟩
    rw [List.countP_cons]
    simp only [decide_eq_true_eq]
    omega

theorem firstValue_cons {name : Str} {field : Str × Str} : firstValue name (field :: fields) =
    if field.1 = name then some field.2 else firstValue name fields := by
  by_cases h : field.1 = name <;> simp [firstValue, h]

theorem getQueryFields_eq_ok {r : List (Str × Str) × Option Str} :
    getQueryFields pairs fields client = .ok r ↔ Passed (seen client) pairs ∧
      r = (fields ++ pairs.map canonicalField,
        client.or (firstValue (py "client") (pairs.map canonicalField))) := by
  induction pairs generalizing fields client with
  | nil =>
    have hnone : client.or none = client := by cases client <;> rfl
    simp [getQueryFields, passed_nil, firstValue, hnone, eq_comm]
  | cons field pairs ih =>
    obtain ⟨name, value⟩ := field
    rw [getQueryFields, passed_cons]
    by_cases hname : name = []
    · simp [hname]
    · by_cases hclient : name = py "client"
      · subst hclient
        simp only [if_neg hname, if_true, except_bind_eq_ok, validateClientQueryValue_eq_ok]
        cases client with
        | some c =>
          simp only [Option.isSome_some, if_true, reduceCtorEq, and_false, exists_false, false_iff]
          rintro ⟨⟨-, -, h⟩, -⟩
          have := h.once
          simp only [seen, Option.isSome_some, if_true] at this
          omega
        | none =>
          simp only [Option.isSome_none, Bool.false_eq_true, if_false, ih]
          constructor
          · rintro ⟨c, ⟨hvalid, rfl⟩, hpassed, rfl⟩
            refine ⟨⟨hname, fun _ => hvalid, hpassed⟩, ?_⟩
            simp [canonicalField, firstValue_cons]
          · rintro ⟨⟨-, hvalid, hpassed⟩, rfl⟩
            refine ⟨_, ⟨hvalid trivial, rfl⟩, hpassed, ?_⟩
            simp [canonicalField, firstValue_cons]
      · simp [hname, hclient, ih, canonicalField, firstValue_cons]

/-- The loop gets to a client of too many digits. -/
def Reaches (seen : Nat) (pairs : List (Str × Str)) : Prop :=
  ∃ before value after, pairs = before ++ (py "client", value) :: after ∧ Passed seen before ∧
    Overlong value

theorem reaches_cons {n : Nat} {field : Str × Str} : Reaches n (field :: pairs) ↔
    (n ≤ 1 ∧ field.1 = py "client" ∧ Overlong field.2) ∨
      (field.1 ≠ [] ∧ (field.1 = py "client" → ValidClient field.2) ∧
        Reaches (n + if field.1 = py "client" then 1 else 0) pairs) := by
  constructor
  · rintro ⟨before, value, after, heq, hpassed, hlong⟩
    cases before with
    | nil =>
      cases heq
      exact .inl ⟨hpassed.once, rfl, hlong⟩
    | cons first before =>
      cases heq
      obtain ⟨hname, hvalid, hpassed⟩ := passed_cons.1 hpassed
      exact .inr ⟨hname, hvalid, before, value, after, rfl, hpassed, hlong⟩
  · rintro (⟨hn, hname, hlong⟩ | ⟨hname, hvalid, before, value, after, rfl, hpassed, hlong⟩)
    · refine ⟨[], field.2, pairs, ?_, ⟨by simp, by simp, by simpa using hn⟩, hlong⟩
      rw [← hname]
      rfl
    · exact ⟨field :: before, value, after, rfl, passed_cons.2 ⟨hname, hvalid, hpassed⟩, hlong⟩

/-- The loop raises something else than `BadRequest` exactly if it gets to a client of too many
digits. -/
theorem getQueryFields_error : (∃ e, getQueryFields pairs fields client = .error e ∧
    e.kind ≠ .badRequest) ↔ Reaches (seen client) pairs := by
  induction pairs generalizing fields client with
  | nil =>
    simp [getQueryFields, Reaches]
  | cons field pairs ih =>
    obtain ⟨name, value⟩ := field
    have hseen : seen client ≤ 1 := by cases client <;> simp [seen]
    rw [getQueryFields, reaches_cons]
    by_cases hname : name = []
    · have hno : [] ≠ py "client" := by decide
      simp [hname, hno, MotuProxyHandler.badRequest]
    · by_cases hclient : name = py "client"
      · subst hclient
        simp only [if_neg hname, if_true, hseen, true_and]
        have hvalidated := validated value
        cases hv : validateClientQueryValue value with
        | ok c =>
          have hvalid := (validateClientQueryValue_eq_ok.1 hv).1
          simp only [bind, Except.bind, hvalid.not_overlong, hvalid, false_or, implies_true, true_and,
            hname, ne_eq, not_false_eq_true]
          cases client with
          | some c =>
            have hlost : ¬Reaches (seen (some c) + 1) pairs := by
              rintro ⟨before, value, after, -, hpassed, -⟩
              have := hpassed.once
              simp only [seen, Option.isSome_some, if_true] at this
              omega
            simp [MotuProxyHandler.badRequest, hlost]
          | none => exact @ih _ (some c)
        | error e =>
          rw [hv] at hvalidated
          cases hvalidated with
          | overlong hlong _ he => simp [bind, Except.bind, hlong, he]
          | invalid hno hshort =>
            simp [bind, Except.bind, hno, hshort, invalidClient, MotuProxyHandler.badRequest]
      · simpa [hname, hclient] using ih

/-! ## Reads and writes -/

/-- The canonical decimal of a number of 32 bits. -/
def CanonicalText (c : Str) : Prop :=
  ∃ n < 2 ^ 32, c = strNat n ∧ (∀ d ∈ c, isAsciiDigit d = true) ∧ (c.head? = some 0x30 → c = py "0")

/-- The client of a read and that of a write with the same path. -/
structure ClientsAgree (requestPath : Str) : Prop where
  read : ∀ e, parseGetQueryFields requestPath = .error e → e.kind = .badRequest
  write : ∀ e, parseClientQuery requestPath = .error e → e.kind = .badRequest
  readText : ∀ fields c, parseGetQueryFields requestPath = .ok (fields, some c) → CanonicalText c
  writeText : ∀ c, parseClientQuery requestPath = .ok (some c) → CanonicalText c
  same : ∀ fields c c', parseGetQueryFields requestPath = .ok (fields, c) →
    parseClientQuery requestPath = .ok c' → c = c' ∧ Coordinator.clientString (c.map .str) = c'

/-- `parse_client_query` gets to a client of too many digits. -/
def WriteReaches (query : Str) : Prop :=
  ∃ value, firstValue (py "client") ((parseQsl (some [0xFFFD]) query).getD []) = some value ∧
    Overlong value

/-- `parse_get_query_fields` gets to a client of too many digits. -/
def ReadReaches (query : Str) : Prop :=
  ∃ pairs, parseQsl none query = some pairs ∧ Reaches 0 pairs

variable {requestPath : Str} {url : Url}

theorem canonicalText (h : ValidClient value) : CanonicalText (canonicalClient value) := by
  refine ⟨_, h.2.2, rfl, fun _ => strNat_digits, fun hhead => ?_⟩
  rw [canonicalClient, strNat_head hhead]
  decide

theorem parseGetQueryFields_eq (h : parseRequestPath requestPath = .ok url)
    (hpairs : parseQsl none url.query = some pairs) :
    parseGetQueryFields requestPath = getQueryFields pairs [] none := by
  simp only [parseGetQueryFields, h, bind, Except.bind, hpairs]

theorem parseClientQuery_none (h : parseRequestPath requestPath = .ok url)
    (hvalue : firstValue (py "client") ((parseQsl (some [0xFFFD]) url.query).getD []) = none) :
    parseClientQuery requestPath = .ok none := by
  simp only [parseClientQuery, h, bind, Except.bind, hvalue, pure, Except.pure]

theorem parseClientQuery_some (h : parseRequestPath requestPath = .ok url)
    (hvalue : firstValue (py "client") ((parseQsl (some [0xFFFD]) url.query).getD []) = some value) :
    parseClientQuery requestPath = (validateClientQueryValue value).map some := by
  simp only [parseClientQuery, h, bind, Except.bind, hvalue, pure, Except.pure, Except.map]

theorem firstValue_canonical : firstValue (py "client") (pairs.map canonicalField) =
    (firstValue (py "client") pairs).map canonicalClient := by
  induction pairs with
  | nil => rfl
  | cons field pairs ih =>
    rw [List.map_cons, firstValue_cons, firstValue_cons, ih]
    by_cases hname : field.1 = py "client" <;> simp [canonicalField, hname]

theorem Passed.valid_first {n : Nat} (h : Passed n pairs)
    (hvalue : firstValue (py "client") pairs = some value) : ValidClient value := by
  obtain ⟨field, hfield, rfl⟩ := Option.map_eq_some_iff.1 hvalue
  exact h.valid field (List.mem_of_find?_eq_some hfield) (by simpa using List.find?_some hfield)

/-- A read that is accepted has the fields of its query, and the first client of them. -/
theorem parseGetQueryFields_eq_ok (h : parseRequestPath requestPath = .ok url)
    (hget : parseGetQueryFields requestPath = .ok (fields, client)) :
    ∃ pairs, parseQsl none url.query = some pairs ∧ Passed 0 pairs ∧
      fields = pairs.map canonicalField ∧
      client = (firstValue (py "client") pairs).map canonicalClient := by
  cases hpairs : parseQsl none url.query with
  | none => simp [parseGetQueryFields, h, bind, Except.bind, hpairs] at hget
  | some pairs =>
    rw [parseGetQueryFields_eq h hpairs, getQueryFields_eq_ok, firstValue_canonical] at hget
    obtain ⟨hpassed, heq⟩ := hget
    cases heq
    exact ⟨pairs, rfl, hpassed, rfl, rfl⟩

/-- A write that is accepted has the first client of its query, decoded with replacements. -/
theorem parseClientQuery_eq_ok (h : parseRequestPath requestPath = .ok url)
    (hclient : parseClientQuery requestPath = .ok client) :
    (∀ value ∈ firstValue (py "client") ((parseQsl (some [0xFFFD]) url.query).getD []),
        ValidClient value) ∧
      client = (firstValue (py "client") ((parseQsl (some [0xFFFD]) url.query).getD [])).map
        canonicalClient := by
  cases hvalue : firstValue (py "client") ((parseQsl (some [0xFFFD]) url.query).getD []) with
  | none =>
    rw [parseClientQuery_none h hvalue] at hclient
    cases hclient
    exact ⟨fun _ h => (by cases h), rfl⟩
  | some value =>
    rw [parseClientQuery_some h hvalue, except_map_eq_ok] at hclient
    obtain ⟨c, hc, rfl⟩ := hclient
    obtain ⟨hvalid, rfl⟩ := validateClientQueryValue_eq_ok.1 hc
    refine ⟨?_, rfl⟩
    rintro _ ⟨⟩
    exact hvalid

theorem parseGetQueryFields_error (h : parseRequestPath requestPath = .ok url) :
    (∃ e, parseGetQueryFields requestPath = .error e ∧ e.kind ≠ .badRequest) ↔
      ReadReaches url.query := by
  unfold ReadReaches
  cases hpairs : parseQsl none url.query with
  | none => simp [parseGetQueryFields, h, bind, Except.bind, hpairs, MotuProxyHandler.badRequest]
  | some pairs =>
    rw [parseGetQueryFields_eq h hpairs, getQueryFields_error]
    simp [seen]

theorem parseClientQuery_error (h : parseRequestPath requestPath = .ok url) :
    (∃ e, parseClientQuery requestPath = .error e ∧ e.kind ≠ .badRequest) ↔
      WriteReaches url.query := by
  unfold WriteReaches
  cases hvalue : firstValue (py "client") ((parseQsl (some [0xFFFD]) url.query).getD []) with
  | none => simp [parseClientQuery_none h hvalue]
  | some value =>
    rw [parseClientQuery_some h hvalue]
    simp only [Option.some.injEq, exists_eq_left']
    have hvalidated := validated value
    cases hv : validateClientQueryValue value with
    | ok c => simp [Except.map, (validateClientQueryValue_eq_ok.1 hv).1.not_overlong]
    | error e =>
      rw [hv] at hvalidated
      cases hvalidated with
      | overlong hlong _ he => simp [Except.map, hlong, he]
      | invalid _ hshort => simp [Except.map, hshort, invalidClient, MotuProxyHandler.badRequest]

/-- The two clients agree, in all that the parsers do, exactly if neither parser gets to a client of
more digits than `int` converts. -/
theorem clients_agree_iff (requestPath : Str) (url : Url)
    (h : parseRequestPath requestPath = .ok url) :
    ClientsAgree requestPath ↔ ¬ReadReaches url.query ∧ ¬WriteReaches url.query := by
  rw [← parseGetQueryFields_error h, ← parseClientQuery_error h]
  constructor
  · rintro ⟨hread, hwrite, -, -, -⟩
    exact ⟨fun ⟨e, he, hne⟩ => hne (hread e he), fun ⟨e, he, hne⟩ => hne (hwrite e he)⟩
  · rintro ⟨hread, hwrite⟩
    refine ⟨fun e he => of_not_not fun hne => hread ⟨e, he, hne⟩,
      fun e he => of_not_not fun hne => hwrite ⟨e, he, hne⟩, ?_, ?_, ?_⟩
    · intro fields c hget
      obtain ⟨pairs, -, hpassed, -, hclient⟩ := parseGetQueryFields_eq_ok h hget
      obtain ⟨value, hvalue, rfl⟩ := Option.map_eq_some_iff.1 hclient.symm
      exact canonicalText (hpassed.valid_first hvalue)
    · intro c hclient
      obtain ⟨hvalid, hc⟩ := parseClientQuery_eq_ok h hclient
      obtain ⟨value, hvalue, rfl⟩ := Option.map_eq_some_iff.1 hc.symm
      exact canonicalText (hvalid value hvalue)
    · intro fields c c' hget hclient
      obtain ⟨pairs, hpairs, -, -, rfl⟩ := parseGetQueryFields_eq_ok h hget
      obtain ⟨-, rfl⟩ := parseClientQuery_eq_ok h hclient
      rw [parseQsl_strict hpairs, Option.getD_some]
      refine ⟨rfl, ?_⟩
      cases firstValue (py "client") pairs <;> rfl

theorem clients_agree_padded : ClientsAgree (py "/datastore?client=007&x=1") := by
  have hpairs : parseQsl none (py "client=007&x=1") =
      some [(py "client", py "007"), (py "x", py "1")] := by decide
  have hshort : ∀ field ∈ [(py "client", py "007"), (py "x", py "1")], ¬Overlong field.2 := by
    unfold Overlong
    decide
  refine (clients_agree_iff _ ⟨[], [], py "/datastore", py "client=007&x=1"⟩ (by decide)).2 ⟨?_, ?_⟩
  · rintro ⟨pairs, hread, before, value, after, rfl, -, hlong⟩
    rw [hpairs] at hread
    refine hshort (py "client", value) ?_ hlong
    rw [Option.some.inj hread]
    exact List.mem_append_right _ (List.mem_cons_self ..)
  · rintro ⟨value, hvalue, hlong⟩
    rw [parseQsl_strict hpairs, Option.getD_some, firstValue_cons] at hvalue
    cases hvalue
    exact hshort _ (List.mem_cons_self ..) hlong

/-! ## A client of too many digits -/

section

variable {digits : Str} (hdigits : ∀ c ∈ digits, isAsciiDigit c = true)
include hdigits

theorem notMem_digits {c : Nat} {s : Str} (hc : isAsciiDigit c = false) (hs : c ∉ s) :
    c ∉ s ++ digits := by
  intro h
  rcases List.mem_append.1 h with h | h
  · exact hs h
  · rw [hdigits c h] at hc
    cases hc

theorem parseRequestPath_digits : parseRequestPath (py "/datastore?client=" ++ digits) =
    .ok ⟨[], [], py "/datastore", py "client=" ++ digits⟩ := by
  have hlstrip : lstripBy (· ≤ 0x20) (py "/datastore?client=" ++ digits) =
      py "/datastore?client=" ++ digits := by
    refine lstripBy_eq_self fun c hc => ?_
    cases (show some 0x2F = some c from hc)
    rfl
  have hfilter : (py "/datastore?client=" ++ digits).filter
      (fun c => decide (c ≠ 0x09 ∧ c ≠ 0x0D ∧ c ≠ 0x0A)) = py "/datastore?client=" ++ digits := by
    refine List.filter_eq_self.2 fun c hc => decide_eq_true ⟨?_, ?_, ?_⟩ <;> rintro rfl <;>
      exact notMem_digits hdigits (by decide) (by decide) hc
  have hcolon := partition_notMem (notMem_digits hdigits (c := 0x3A) (s := py "/datastore?client=")
    (by decide) (by decide))
  have hhash := partition_notMem (notMem_digits hdigits (c := 0x23) (s := py "/datastore?client=")
    (by decide) (by decide))
  have hquery : partition 0x3F (py "/datastore?client=" ++ digits) =
      (py "/datastore", true, py "client=" ++ digits) :=
    partition_append (s := py "/datastore") (t := py "client=" ++ digits) (by decide)
  have hmatch : py "/datastore?client=" ++ digits = 0x2F :: 0x64 :: (py "atastore?client=" ++ digits) :=
    rfl
  have hnetloc : netlocOk [] = true := by decide
  have hparams : [] ∈ usesParams := by decide
  have hpath : splitParams (py "/datastore") = py "/datastore" := by decide
  rw [hmatch] at hlstrip hfilter hcolon hhash hquery ⊢
  unfold parseRequestPath urlparse
  simp only [hlstrip, hfilter, hcolon, Bool.false_eq_true, false_and, if_false, hhash, hquery, hnetloc,
    hparams, hpath, not_true, if_true]

theorem parseQsl_digits :
    parseQsl none (py "client=" ++ digits) = some [(py "client", digits)] := by
  have hsplit : splitOn 0x26 (py "client=" ++ digits) = [py "client=" ++ digits] :=
    splitOn_eq_self (notMem_digits hdigits (by decide) (by decide))
  have hfield : partition 0x3D (py "client=" ++ digits) = (py "client", true, digits) :=
    partition_append (s := py "client") (t := digits) (by decide)
  have hplain : unquotePlus none digits = some digits := by
    have hmap : digits.map (fun c => if c = 0x2B then 0x20 else c) = digits := by
      refine (List.map_congr_left fun c hc => if_neg ?_).trans (List.map_id _)
      rintro rfl
      cases hdigits _ hc
    have hpercent : 0x25 ∉ digits := fun h => by cases hdigits _ h
    rw [unquotePlus, hmap, unquoteWith, if_neg hpercent]
  have hname : unquotePlus none (py "client") = some (py "client") := by decide
  have hkeep : (!(py "client=" ++ digits).isEmpty) = true := rfl
  simp [parseQsl, hsplit, hfield, hplain, hname, hkeep]

end

/-- A client of 4301 digits. -/
def manyDigits : Str := List.replicate 4301 0x31

theorem clients_disagree : ¬ClientsAgree (py "/datastore?client=" ++ manyDigits) := by
  have hdigits : ∀ c ∈ manyDigits, isAsciiDigit c = true := by
    intro c hc
    rw [(List.mem_replicate.1 hc).2]
    decide
  have hlength : manyDigits.length = 4301 := List.length_replicate
  have hdecimal := Schema.isDecimal_of_asciiDigits (List.ne_nil_of_length_pos (by omega)) hdigits
  have hstrip : strip manyDigits = manyDigits :=
    strip_eq_self fun c hc => isSpace_of_decimal ((isDecimal_iff.1 hdecimal).2 c hc)
  have hlong : Overlong manyDigits := by
    rw [Overlong, hstrip, hlength]
    exact ⟨hdecimal, by decide⟩
  have hreaches : WriteReaches (py "client=" ++ manyDigits) := by
    refine ⟨manyDigits, ?_, hlong⟩
    rw [parseQsl_strict (parseQsl_digits hdigits), Option.getD_some, firstValue_cons, if_pos rfl]
  obtain ⟨e, he, hne⟩ := (parseClientQuery_error (parseRequestPath_digits hdigits)).2 hreaches
  exact fun h => hne (h.write e he)

end Dispatch

end MotuProxy
