import Mathlib.Algebra.Order.Field.Basic
import Mathlib.Algebra.Order.Ring.Cast
import Mathlib.Algebra.Order.Ring.Abs
import Mathlib.Tactic.Linarith
import MotuProxy.Verify.WriteBody

/-! # What the validation of a write decides

`Denotes` is what a type of the schema stands for, on its own terms. The validation accepts exactly
the writes whose targets are known and whose values are denoted, or whose targets are unknown and
may be. What it rejects it reports as such, unless one of two exceptions of the standard library gets
through: `urlparse` on a key of the root, and `math.isfinite` on an integer.
-/

namespace MotuProxy

open Py Paths Schema

/-! ## Integers that a `float` can hold -/

namespace Py

theorem abs_roundHalfEven_le (q : ℚ) : |(roundHalfEven q : ℚ)| ≤ |q| + 1 := by
  have hle : (q.floor : ℚ) ≤ q := Rat.floor_le q
  have hlt : q < q.floor + 1 := by exact_mod_cast Rat.lt_floor_add_one q
  have hcases : roundHalfEven q = q.floor ∨ roundHalfEven q = q.floor + 1 := by
    unfold roundHalfEven
    dsimp only
    split
    · exact .inl rfl
    · split
      · exact .inr rfl
      · split
        · exact .inl rfl
        · exact .inr rfl
  have hq := abs_le.1 (le_refl |q|)
  rcases hcases with h | h
  · rw [h, abs_le]
    constructor <;> linarith
  · rw [h, abs_le]
    push_cast
    constructor <;> linarith

theorem log2_intCast_le {n : Int} : log2 |(n : ℚ)| ≤ Nat.log2 n.natAbs := by
  have hnum : (|(n : ℚ)|).num.natAbs = n.natAbs := by
    rw [← Int.cast_abs, Rat.num_intCast, Int.natAbs_abs]
  have hden : (|(n : ℚ)|).den = 1 := by
    rw [← Int.cast_abs, Rat.den_intCast]
  have hlog : Nat.log2 1 = 0 := by decide
  unfold log2
  rw [hnum, hden, hlog]
  dsimp only
  split <;> simp

/-- A small integer is not too large. -/
theorem roundDouble_intCast {n : Int} (h : n.natAbs < 2 ^ 52) : ∃ q, roundDouble n = .finite q := by
  unfold roundDouble
  split
  · exact ⟨_, rfl⟩
  · next hne =>
    have hlog : log2 |(n : ℚ)| ≤ 52 := by
      have hlt : Nat.log2 n.natAbs < 52 := by
        rw [Nat.log2_lt (by simpa using hne)]
        exact h
      have := @log2_intCast_le n
      omega
    -- An ulp of a number below `2 ^ 52` is at most one, and the rounding is off by at most an ulp.
    have hulp : (2 : ℚ) ^ (max (log2 |(n : ℚ)|) (-1022) - 52) ≤ 1 :=
      zpow_le_one_of_nonpos₀ (by norm_num) (by omega)
    have hpos : (0 : ℚ) < (2 : ℚ) ^ (max (log2 |(n : ℚ)|) (-1022) - 52) :=
      zpow_pos (by norm_num) _
    have hn : |(n : ℚ)| < 2 ^ 52 := by
      rw [← Int.cast_abs, Int.abs_eq_natAbs]
      exact_mod_cast h
    dsimp only
    refine ⟨_, if_neg (not_le.2 ?_)⟩
    generalize (2 : ℚ) ^ (max (log2 |(n : ℚ)|) (-1022) - 52) = ulp at hulp hpos
    calc |(roundHalfEven (n / ulp) : ℚ) * ulp| = |(roundHalfEven (n / ulp) : ℚ)| * ulp := by
          rw [abs_mul, abs_of_pos hpos]
      _ ≤ (|(n : ℚ) / ulp| + 1) * ulp :=
          mul_le_mul_of_nonneg_right (abs_roundHalfEven_le _) hpos.le
      _ = |(n : ℚ)| + ulp := by
          rw [abs_div, abs_of_pos hpos, add_mul, div_mul_cancel₀ _ hpos.ne', one_mul]
      _ < 2 ^ 52 + 1 + 1 := by linarith
      _ ≤ 2 ^ 53 := by norm_num
      _ ≤ 2 ^ (1024 : Nat) := pow_le_pow_right₀ (by norm_num) (by norm_num)

end Py

namespace Schema

variable {entry : PathSchema} {value : Json} {path base baseType key : Str} {u : Bool}

/-! ## The denotation of a type -/

/-- What a base type stands for. -/
inductive HasType : Str → Json → Prop
  | string (s : Str) : HasType (py "string") (.str s)
  | semver (s : Str) (h : isSemver s = true) : HasType (py "semver") (.str s)
  | int (n : Int) : HasType (py "int") (.int n)
  | realInt (n : Int) : HasType (py "real") (.int n)
  | real (q : ℚ) : HasType (py "real") (.float (.finite q))

/-- A single value of the type, the enumeration and the range of an entry. -/
structure SingleDenotes (entry : PathSchema) (value : Json) : Prop where
  type : HasType (splitType entry.valueType).1 value
  enum : py "enum" ∈ (splitType entry.valueType).2 → ∀ values ∈ entry.enumValues,
    ∃ v ∈ values, EnumConforms value v
  bool : py "bool" ∈ (splitType entry.valueType).2 → number value = some 0 ∨ number value = some 1
  minimum : ∀ bound ∈ entry.minimum, ∃ q, number value = some q ∧ bound.value ≤ q
  maximum : ∀ bound ∈ entry.maximum, ∃ q, number value = some q ∧ q ≤ bound.value

/-- The value is in the denotation of the type of the entry. -/
def Denotes (entry : PathSchema) (value : Json) : Prop :=
  if py "opt" ∈ (splitType entry.valueType).2 ∧ isNull value then True
  else if py "list" ∈ (splitType entry.valueType).2 then
    PartsConform (splitType entry.valueType).1 (fun _ => True) value
  else if py "pair" ∈ (splitType entry.valueType).2 then
    PartsConform (splitType entry.valueType).1 (· = 2) value
  else SingleDenotes entry value

theorem ScalarConforms.hasType (h : ScalarConforms baseType value) : HasType baseType value := by
  cases h with
  | string s => exact .string s
  | semver s h => exact .semver s h
  | int n => exact .int n
  | realInt n q h => exact .realInt n
  | real q => exact .real q

/-- A real value is bounded: by a range, or as a switch, or as a value of an enumeration. -/
def smallReal (entry : PathSchema) : Bool :=
  (splitType entry.valueType).1 != py "real" ||
    (entry.minimum.any (-4096 ≤ ·.value) && entry.maximum.any (·.value ≤ 4096)) ||
    (splitType entry.valueType).2.contains (py "bool") ||
    ((splitType entry.valueType).2.contains (py "enum") && entry.enumValues.any fun values =>
      values.all fun
        | .int n => n.natAbs ≤ 4096
        | .str _ => true)

theorem schema_smallReal : ∀ e ∈ SCHEMA, smallReal e = true := by
  rw [schemaTable.2]
  decide +kernel

/-- An integer that a real entry of the table admits is small. -/
theorem SingleDenotes.small {n : Int} (he : entry ∈ SCHEMA)
    (hreal : (splitType entry.valueType).1 = py "real") (h : SingleDenotes entry (.int n)) :
    n.natAbs < 2 ^ 52 := by
  have hsmall := schema_smallReal entry he
  simp only [smallReal, hreal, bne_self_eq_false, Bool.false_or, Bool.or_eq_true, Bool.and_eq_true,
    List.contains_iff_mem, Option.any_eq_true, decide_eq_true_eq, List.all_eq_true] at hsmall
  rcases hsmall with (⟨⟨lo, hlo, hlo'⟩, ⟨hi, hhi, hhi'⟩⟩ | hbool) | ⟨henum, values, hvalues, hall⟩
  · obtain ⟨q, hq, hle⟩ := h.minimum lo hlo
    obtain ⟨q', hq', hle'⟩ := h.maximum hi hhi
    cases hq
    cases hq'
    have hge : (-4096 : ℚ) ≤ n := hlo'.trans hle
    have hle4096 : (n : ℚ) ≤ 4096 := hle'.trans hhi'
    have hge' : (-4096 : Int) ≤ n := by exact_mod_cast hge
    have hle'' : n ≤ 4096 := by exact_mod_cast hle4096
    omega
  · rcases h.bool hbool with h0 | h1
    · have : n = 0 := by exact_mod_cast Option.some.inj h0
      omega
    · have : n = 1 := by exact_mod_cast Option.some.inj h1
      omega
  · obtain ⟨v, hv, hmatch⟩ := h.enum henum values hvalues
    cases v with
    | int m =>
      have : n = m := by exact_mod_cast Option.some.inj hmatch
      have := hall _ hv
      simp only [decide_eq_true_eq] at this
      omega
    | str s => cases hmatch

/-- For the entries of the table, an integer that is too large is out of range anyway. -/
theorem conforms_iff_denotes (he : entry ∈ SCHEMA) : Conforms entry value ↔ Denotes entry value := by
  have hsingle : SingleConforms entry value ↔ SingleDenotes entry value := by
    constructor
    · rintro ⟨htype, henum, hbool, hmin, hmax⟩
      exact ⟨htype.hasType, henum, hbool, hmin, hmax⟩
    · intro h
      refine ⟨?_, h.enum, h.bool, h.minimum, h.maximum⟩
      have htype := h.type
      generalize hbase : (splitType entry.valueType).1 = baseType at htype
      cases htype with
      | string s => exact .string s
      | semver s hs => exact .semver s hs
      | int n => exact .int n
      | realInt n =>
        obtain ⟨q, hq⟩ := roundDouble_intCast (h.small he hbase)
        exact .realInt n q hq
      | real q => exact .real q
  unfold Conforms Denotes
  rw [hsingle]

/-! ## The verdict -/

/-- A path of the datastore. -/
def UnderDatastore (path : Str) : Prop := ∃ relative, relativeDatastorePath path = .ok (some relative)

/-- What `_iter_write_values` makes of a member may be written. -/
def MayWrite (base : Str) (u : Bool) (m : Str × Json) : Prop :=
  ∃ target, writeTarget base m.1 = .ok target ∧
    ((∃ entry, findPathSchema target = .ok (some entry) ∧ entry.permission = .rw ∧ Denotes entry m.2) ∨
      (findPathSchema target = .ok none ∧ u = true ∧ UnderDatastore target))

theorem findPathSchema_mem {target : Str} (h : findPathSchema target = .ok (some entry)) :
    entry ∈ SCHEMA := by
  obtain ⟨relative, -, hentry⟩ := findPathSchema_eq_some.1 h
  exact (findEntry_matches hentry).2

theorem validateMember_iff_mayWrite {m : Str × Json} :
    validateMember base u m.1 m.2 = .ok () ↔ MayWrite base u m := by
  unfold validateMember MayWrite
  rw [except_bind_eq_ok]
  refine exists_congr fun target => and_congr_right fun _ => ?_
  rw [except_bind_eq_ok]
  constructor
  · rintro ⟨found, hfound, h⟩
    cases found with
    | none =>
      cases u with
      | false => cases h
      | true =>
        have hknown : (relativeDatastorePath target >>= fun known =>
          require known.isSome (notInSchema target)) = .ok () := h
        obtain ⟨known, hknown, hrequire⟩ := except_bind_eq_ok.1 hknown
        obtain ⟨relative, rfl⟩ := Option.isSome_iff_exists.1 (require_eq_ok.1 hrequire)
        exact .inr ⟨hfound, rfl, relative, hknown⟩
    | some entry =>
      obtain ⟨hrw, hvalue⟩ := check_bind_eq_ok.1 h
      refine .inl ⟨entry, hfound, of_decide_eq_true (require_eq_ok.1 hrw), ?_⟩
      exact (conforms_iff_denotes (findPathSchema_mem hfound)).1 (validateValue_eq_ok.1 hvalue)
  · rintro (⟨entry, hfound, hrw, hvalue⟩ | ⟨hfound, rfl, relative, hrelative⟩)
    · refine ⟨some entry, hfound, check_bind_eq_ok.2 ⟨require_eq_ok.2 (decide_eq_true hrw), ?_⟩⟩
      exact validateValue_eq_ok.2 ((conforms_iff_denotes (findPathSchema_mem hfound)).2 hvalue)
    · exact ⟨none, hfound, except_bind_eq_ok.2 ⟨some relative, hrelative, rfl⟩⟩

/-- The validation accepts a write if and only if its base path and all that it writes may be
written, in whatever order the members come. -/
theorem validation_decides (path : Str) (body : List (Str × Json)) (u : Bool) :
    (validateDatastoreWriteObject path body u = .ok () ↔
      UnderDatastore path ∧ ∃ base, writeBase path = .ok base ∧ ∀ m ∈ body, MayWrite base u m) ∧
    ∀ body', body.Perm body' → (validateDatastoreWriteObject path body u = .ok () ↔
      validateDatastoreWriteObject path body' u = .ok ()) := by
  have hiff (body : List (Str × Json)) : validateDatastoreWriteObject path body u = .ok () ↔
      UnderDatastore path ∧ ∃ base, writeBase path = .ok base ∧ ∀ m ∈ body, MayWrite base u m := by
    rw [validateDatastoreWriteObject_eq_ok]
    simp only [validateMember_iff_mayWrite]
    constructor
    · rintro ⟨relative, base, hrelative, hbase, h⟩
      exact ⟨⟨relative, hrelative⟩, base, hbase, h⟩
    · rintro ⟨⟨relative, hrelative⟩, base, hbase, h⟩
      exact ⟨relative, base, hrelative, hbase, h⟩
  refine ⟨hiff body, fun body' hperm => ?_⟩
  rw [hiff body, hiff body']
  simp only [hperm.mem_iff]

end Schema

/-! ## Paths that are normalized without an exception -/

namespace Py

theorem strip_slash (t : Str) : ∃ t', strip (0x2F :: t) = 0x2F :: t' := by
  have hl : lstripBy isSpace (0x2F :: t) = 0x2F :: t := lstripBy_eq_self fun c hc => by
    cases hc
    decide
  rw [strip, hl]
  exact ⟨_, @rstripBy_append isSpace [] t 0x2F (by decide)⟩

theorem unquoteRuns_slash {bad : Option Str} {run s r : Str} {x : Str}
    (hrun : run.reverse = 0x2F :: x) (h : unquoteRuns bad run s = some r) : ∃ r', r = 0x2F :: r' := by
  have hhead {d : Str} {x : Str} (hd : utf8DecodeFrom bad 0 (percentBytes (0x2F :: x)) = some d) :
      ∃ d', d = 0x2F :: d' := by
    have hp : percentBytes (0x2F :: x) = 0x2F :: percentBytes x := by simp [percentBytes]
    rw [hp, utf8DecodeFrom] at hd
    cases hy : utf8DecodeFrom bad 0 (percentBytes x) with
    | none => simp [utf8Next, hy] at hd
    | some y =>
      refine ⟨y, ?_⟩
      simpa [utf8Next, hy, eq_comm] using hd
  induction s generalizing run r x with
  | nil =>
    rw [unquoteRuns, hrun] at h
    exact hhead h
  | cons c s ih =>
    unfold unquoteRuns at h
    split at h
    · exact @ih (c :: run) r (x ++ [c]) (by rw [List.reverse_cons, hrun]; rfl) h
    · rw [hrun] at h
      simp only [Option.pure_def, Option.bind_eq_bind, Option.bind_eq_some_iff, Option.some.injEq] at h
      obtain ⟨d, hd, y, -, rfl⟩ := h
      obtain ⟨d', rfl⟩ := hhead hd
      exact ⟨_, rfl⟩

theorem unquote_slash (t : Str) : unquote (0x2F :: t) = [] ∨ ∃ t', unquote (0x2F :: t) = 0x2F :: t' := by
  unfold unquote unquoteWith
  split
  · cases h : unquoteRuns (some [0xFFFD]) [] (0x2F :: t) with
    | none => exact .inl rfl
    | some r =>
      rw [unquoteRuns, if_pos (by decide)] at h
      obtain ⟨r', rfl⟩ := unquoteRuns_slash (x := []) rfl h
      exact .inr ⟨r', rfl⟩
  · exact .inr ⟨t, rfl⟩

end Py

namespace Paths

/-- A path that starts with a slash is never taken for a URL. -/
theorem normalizePath_slash (t : Str) : ∃ path, normalizePath (0x2F :: t) = .ok path := by
  obtain ⟨t', ht'⟩ := strip_slash t
  unfold normalizePath
  rw [ht']
  dsimp only
  split
  · exact ⟨_, rfl⟩
  · next hne =>
    obtain ⟨t'', ht''⟩ := (unquote_slash t').resolve_left hne
    rw [ht'', stripUrl_eq_self]
    · exact ⟨_, rfl⟩
    · intro c hc
      cases hc
      decide

theorem slash_of_normalizePath {s path : Str} (h : normalizePath s = .ok path) :
    ∃ t, path = 0x2F :: t := by
  rcases normalizePath_cases h with rfl | ⟨t, rfl⟩ | rfl | rfl
  · exact ⟨_, rfl⟩
  · exact ⟨_, below_eq t⟩
  · exact ⟨_, rfl⟩
  · exact ⟨_, rfl⟩

end Paths

namespace Schema

variable {entry : PathSchema} {value : Json} {path base target baseType key : Str} {u : Bool} {exc : Exn}

theorem slash_of_writeBase (h : writeBase path = .ok base) : ∃ t, base = 0x2F :: t := by
  obtain ⟨normal, hnormal, rfl⟩ := except_map_eq_ok.1 h
  -- The second code point is a letter, so that stripping ends there at the latest.
  have hletter : ∃ c t, normal = [0x2F] ++ c :: t ∧ decide (c = 0x2F) = false := by
    rcases normalizePath_cases hnormal with rfl | ⟨t, rfl⟩ | rfl | rfl
    · exact ⟨0x64, py "atastore", rfl, rfl⟩
    · exact ⟨0x64, _, rfl, rfl⟩
    · exact ⟨0x61, py "piversion", rfl, rfl⟩
    · exact ⟨0x6D, py "eters", rfl, rfl⟩
  obtain ⟨c, t, rfl, hc⟩ := hletter
  rw [rstripBy_append hc]
  exact ⟨_, rfl⟩

theorem slash_of_writeTarget (hbase : ∃ t, base = 0x2F :: t) (h : writeTarget base key = .ok target) :
    ∃ t, target = 0x2F :: t := by
  unfold writeTarget at h
  split at h
  · cases h
    exact hbase
  · split at h
    · exact slash_of_normalizePath h
    · split at h <;> exact slash_of_normalizePath h

theorem relativeDatastorePath_slash (t : Str) : ∃ r, relativeDatastorePath (0x2F :: t) = .ok r := by
  obtain ⟨normal, hnormal⟩ := normalizePath_slash t
  exact ⟨_, except_map_eq_ok.2 ⟨normal, hnormal, rfl⟩⟩

theorem findPathSchema_slash (t : Str) : ∃ found, findPathSchema (0x2F :: t) = .ok found := by
  obtain ⟨r, hr⟩ := relativeDatastorePath_slash t
  exact ⟨_, except_map_eq_ok.2 ⟨r, hr, rfl⟩⟩

/-! ## What a check raises -/

/-- The exceptions that stand for an invalid write. -/
def Reported (exc : Exn) : Prop :=
  exc.kind = .datastorePermissionError ∨ exc.kind = .datastoreValidationError

theorem require_error {c : Bool} {exc' : Exn} (h : require c exc' = .error exc) : exc = exc' := by
  unfold require at h
  split at h
  · cases h
  · cases h
    rfl

/-- An exception of a sequence is that of its first part, or of the rest. -/
theorem check_bind_eq_error {ε β : Type} {x : Except ε Unit} {f : Unit → Except ε β} {e : ε} :
    (x >>= f) = .error e ↔ x = .error e ∨ (x = .ok () ∧ f () = .error e) := by
  cases x <;> simp [bind, Except.bind]

/-- An integer that `math.isfinite` cannot convert. -/
def TooLarge (value : Json) : Prop := ∃ n negative, value = .int n ∧ roundDouble n = .inf negative

theorem isFinite_error (h : isFinite value = .error exc) : exc = intTooLarge ∧ TooLarge value := by
  cases value with
  | int n =>
    dsimp only [isFinite] at h
    cases hn : roundDouble n with
    | finite q =>
      rw [hn] at h
      cases h
    | inf negative =>
      rw [hn] at h
      cases h
      exact ⟨rfl, n, negative, rfl, hn⟩
  | float x => cases x <;> cases h
  | _ => cases h

theorem validateScalar_error (h : validateScalar path value baseType = .error exc) :
    Reported exc ∨ (baseType = py "real" ∧ TooLarge value) := by
  have hreport {c : Bool} {message : Str}
      (h : require c (validationError message) = .error exc) : Reported exc := by
    rw [require_error h]
    exact .inr rfl
  unfold validateScalar at h
  split at h
  · exact .inl (hreport h)
  · split at h
    · exact .inl (hreport h)
    · split at h
      · exact .inl (hreport h)
      · split at h
        · next hreal =>
          rcases check_bind_eq_error.1 h with h | ⟨-, h⟩
          · exact .inl (hreport h)
          · cases hfinite : isFinite value with
            | ok b =>
              rw [hfinite] at h
              exact .inl (hreport h)
            | error exc' => exact .inr ⟨hreal, (isFinite_error hfinite).2⟩
        · cases h
          exact .inl (.inr rfl)

theorem validateParts_error {parts : List Str} (h : validateParts path baseType parts = .error exc) :
    Reported exc := by
  induction parts with
  | nil => cases h
  | cons part parts ih =>
    unfold validateParts at h
    cases hpart : parsePart path baseType part with
    | error exc' =>
      rw [hpart] at h
      cases h
      unfold parsePart at hpart
      split at hpart
      · split at hpart
        · cases hpart
        · cases hpart
          exact .inr rfl
      · cases hpart
    | ok v =>
      rw [hpart] at h
      rcases check_bind_eq_error.1 h with h | ⟨-, h⟩
      · rcases validateScalar_error h with h | ⟨rfl, n, negative, rfl, -⟩
        · exact h
        · -- A part is an integer only for the base type `int`.
          cases hpart
      · exact ih h

theorem validateStringParts_error {valueType : Str} {minParts : Nat} {maxParts : Option Nat}
    (h : validateStringParts path valueType value baseType minParts maxParts = .error exc) :
    Reported exc := by
  unfold validateStringParts at h
  split at h
  · rcases check_bind_eq_error.1 h with h | ⟨-, h⟩
    · rw [require_error h]
      exact .inr rfl
    · exact validateParts_error h
  · cases h
    exact .inr rfl

/-- A range is one of numbers, and a real value is a single one. -/
def plainNumbers (entry : PathSchema) : Bool :=
  ((entry.minimum.isNone && entry.maximum.isNone) ||
    (splitType entry.valueType).1 == py "int" || (splitType entry.valueType).1 == py "real") &&
  ((splitType entry.valueType).1 != py "real" ||
    (!(splitType entry.valueType).2.contains (py "list") &&
      !(splitType entry.valueType).2.contains (py "pair")))

theorem schema_plainNumbers : ∀ e ∈ SCHEMA, plainNumbers e = true := by
  rw [schemaTable.2]
  decide +kernel

/-- The `assert` of the code holds for every entry of the table. -/
theorem checkRange_error (he : entry ∈ SCHEMA)
    (hvalue : ScalarConforms (splitType entry.valueType).1 value)
    (h : checkRange path entry value = .error exc) : Reported exc := by
  have hnumbers := schema_plainNumbers entry he
  unfold checkRange at h
  split at h
  · next hsome =>
    have hreal : isRealOrBool value = true := by
      have hbase : (splitType entry.valueType).1 = py "int" ∨
          (splitType entry.valueType).1 = py "real" := by
        simp only [plainNumbers, Bool.and_eq_true, Bool.or_eq_true, beq_iff_eq,
          Option.isNone_iff_eq_none] at hnumbers
        rcases hnumbers.1 with (⟨hmin, hmax⟩ | hint) | hreal
        · rw [hmin, hmax] at hsome
          simp at hsome
        · exact .inl hint
        · exact .inr hreal
      generalize (splitType entry.valueType).1 = baseType at hvalue hbase
      cases hvalue with
      | string s | semver s hs => rcases hbase with hbase | hbase <;> cases hbase
      | int n | realInt n q hq | real q => rfl
    have hok : require (isRealOrBool value) ⟨.assertionError, []⟩ = .ok () := require_eq_ok.2 hreal
    rw [hok] at h
    rcases check_bind_eq_error.1 h with h | ⟨-, h⟩
    · cases h
    rcases check_bind_eq_error.1 h with h | ⟨-, h⟩
    · unfold checkMinimum at h
      split at h
      · cases h
      · rw [require_error h]
        exact .inr rfl
    · unfold checkMaximum at h
      split at h
      · cases h
      · rw [require_error h]
        exact .inr rfl
  · cases h

theorem checkEnum_error {modifiers : List Str} (h : checkEnum path entry modifiers value = .error exc) :
    Reported exc := by
  unfold checkEnum at h
  split at h
  · cases h
  · rw [require_error h]
    exact .inr rfl

theorem validateValue_error (he : entry ∈ SCHEMA) (h : validateValue path entry value = .error exc) :
    Reported exc ∨ ((splitType entry.valueType).1 = py "real" ∧ TooLarge value) := by
  unfold validateValue at h
  dsimp only at h
  split at h
  · cases h
  · split at h
    · exact .inl (validateStringParts_error h)
    · split at h
      · exact .inl (validateStringParts_error h)
      · rcases check_bind_eq_error.1 h with h | ⟨hscalar, h⟩
        · exact validateScalar_error h
        rcases check_bind_eq_error.1 h with h | ⟨-, h⟩
        · exact .inl (checkEnum_error h)
        rcases check_bind_eq_error.1 h with h | ⟨-, h⟩
        · rw [require_error h]
          exact .inl (.inr rfl)
        · exact .inl (checkRange_error he (validateScalar_eq_ok.1 hscalar) h)

/-- An integer that is too large gets through as an `OverflowError`. -/
theorem validateValue_tooLarge (he : entry ∈ SCHEMA)
    (hreal : (splitType entry.valueType).1 = py "real") (h : TooLarge value) :
    validateValue path entry value = .error intTooLarge := by
  obtain ⟨n, negative, rfl, hn⟩ := h
  have hnumbers := schema_plainNumbers entry he
  simp only [plainNumbers, hreal, Bool.and_eq_true, bne_self_eq_false, Bool.false_or, Bool.not_eq_true',
    ← Bool.not_eq_true, List.contains_iff_mem] at hnumbers
  obtain ⟨-, hlist, hpair⟩ := hnumbers
  have hscalar : validateScalar path (.int n) (py "real") = .error intTooLarge := by
    have hfinite : isFinite (.int n) = .error intTooLarge := by
      dsimp only [isFinite]
      rw [hn]
    change (require _ _ >>= fun _ => isFinite (.int n) >>= _) = _
    rw [hfinite]
    rfl
  unfold validateValue
  dsimp only
  rw [if_neg (fun h => Bool.false_ne_true h.2), if_neg hlist, if_neg hpair, hreal, hscalar]
  rfl

/-- A member whose check raises another exception: `normalize_path` raises on the key, or the value is
an integer that does not fit the `float` of a real entry. -/
def Escapes (base : Str) (m : Str × Json) : Prop :=
  (∃ exc, writeTarget base m.1 = .error exc) ∨
    ∃ target entry, writeTarget base m.1 = .ok target ∧ findPathSchema target = .ok (some entry) ∧
      entry.permission = .rw ∧ (splitType entry.valueType).1 = py "real" ∧ TooLarge m.2

theorem writeTarget_error (h : writeTarget base key = .error exc) : exc = invalidUrl := by
  have hnormal {s : Str} (h : normalizePath s = .error exc) : exc = invalidUrl := by
    unfold normalizePath at h
    dsimp only at h
    split at h
    · cases h
    · unfold stripUrl at h
      split at h
      · split at h
        · cases h
        · cases h
          rfl
      · cases h
  unfold writeTarget at h
  split at h
  · cases h
  · split at h
    · exact hnormal h
    · split at h <;> exact hnormal h

/-- A member whose path no row covers is reported. -/
theorem validateMember_unknown {t : Str} (htarget : writeTarget base key = .ok (0x2F :: t))
    (hfound : findPathSchema (0x2F :: t) = .ok none)
    (h : validateMember base u key value = .error exc) : Reported exc := by
  obtain ⟨known, hknown⟩ := relativeDatastorePath_slash t
  unfold validateMember at h
  rw [htarget] at h
  change (findPathSchema (0x2F :: t) >>= _) = _ at h
  rw [hfound] at h
  cases u with
  | false =>
    cases h
    exact .inr rfl
  | true =>
    change (relativeDatastorePath (0x2F :: t) >>= fun known => require known.isSome _) = _ at h
    rw [hknown] at h
    rw [require_error h]
    exact .inr rfl

/-- A member of a row is reported, unless its value is an integer too large for the row. -/
theorem validateMember_known {t : Str} (htarget : writeTarget base key = .ok (0x2F :: t))
    (hfound : findPathSchema (0x2F :: t) = .ok (some entry))
    (h : validateMember base u key value = .error exc) :
    Reported exc ↔ ¬(entry.permission = .rw ∧ (splitType entry.valueType).1 = py "real" ∧
      TooLarge value) := by
  have he := findPathSchema_mem hfound
  unfold validateMember at h
  rw [htarget] at h
  change (findPathSchema (0x2F :: t) >>= _) = _ at h
  rw [hfound] at h
  change (require _ _ >>= fun _ => validateValue _ entry value) = _ at h
  rcases check_bind_eq_error.1 h with h | ⟨hrw, h⟩
  · have hread : entry.permission ≠ .rw := by
      intro hrw
      rw [hrw] at h
      cases h
    rw [require_error h]
    exact iff_of_true (.inl rfl) fun hno => hread hno.1
  · have hrw := of_decide_eq_true (require_eq_ok.1 hrw)
    constructor
    · rintro hreport ⟨-, hreal, hlarge⟩
      rw [validateValue_tooLarge he hreal hlarge] at h
      cases h
      rcases hreport with h | h <;> cases h
    · intro hno
      exact (validateValue_error he h).resolve_right fun hlarge => hno ⟨hrw, hlarge⟩

theorem validateMember_error {m : Str × Json} (hbase : ∃ t, base = 0x2F :: t)
    (h : validateMember base u m.1 m.2 = .error exc) : Reported exc ↔ ¬Escapes base m := by
  cases htarget : writeTarget base m.1 with
  | error exc' =>
    unfold validateMember at h
    rw [htarget] at h
    cases h
    refine iff_of_false ?_ (not_not.2 (.inl ⟨exc, htarget⟩))
    rw [writeTarget_error htarget]
    rintro (h | h) <;> cases h
  | ok target =>
    obtain ⟨t, rfl⟩ := slash_of_writeTarget hbase htarget
    obtain ⟨found, hfound⟩ := findPathSchema_slash t
    have hescapes : Escapes base m ↔ ∃ entry, found = some entry ∧ entry.permission = .rw ∧
        (splitType entry.valueType).1 = py "real" ∧ TooLarge m.2 := by
      unfold Escapes
      simp [htarget, hfound]
    rw [hescapes]
    cases found with
    | none =>
      refine iff_of_true (validateMember_unknown htarget hfound h) ?_
      rintro ⟨_, heq, -⟩
      cases heq
    | some entry =>
      rw [validateMember_known htarget hfound h]
      simp

/-- A member that escapes is not accepted. -/
theorem Escapes.not_ok {m : Str × Json} (h : Escapes base m) :
    validateMember base u m.1 m.2 ≠ .ok () := by
  rw [Ne, validateMember_iff_mayWrite]
  rintro ⟨target, htarget, hmay⟩
  rcases h with ⟨exc, hexc⟩ | ⟨target', entry, htarget', hfound, -, hreal, hlarge⟩
  · cases htarget.symm.trans hexc
  · cases htarget.symm.trans htarget'
    rcases hmay with ⟨entry', hfound', -, hvalue⟩ | ⟨hfound', -⟩
    · cases hfound.symm.trans hfound'
      have he := findPathSchema_mem hfound
      have hok := @validateValue_eq_ok entry m.2 []
      rw [validateValue_tooLarge he hreal hlarge, conforms_iff_denotes he] at hok
      cases hok.2 hvalue
    · cases hfound.symm.trans hfound'

/-- The exception that a body raises is that of its first member which is not accepted. -/
theorem validateMembers_reported_iff {body : List (Str × Json)} (hbase : ∃ t, base = 0x2F :: t) :
    (∀ exc, validateMembers base u body = .error exc → Reported exc) ↔
      ∀ before m after, body = before ++ m :: after →
        (∀ p ∈ before, validateMember base u p.1 p.2 = .ok ()) → ¬Escapes base m := by
  induction body with
  | nil =>
    refine iff_of_true (fun exc h => by cases h) fun before m after h => ?_
    simp at h
  | cons x body ih =>
    have hstep : (∀ exc, validateMembers base u (x :: body) = .error exc → Reported exc) ↔
        (∀ exc, validateMember base u x.1 x.2 = .error exc → Reported exc) ∧
        (validateMember base u x.1 x.2 = .ok () →
          ∀ exc, validateMembers base u body = .error exc → Reported exc) := by
      have hcons : validateMembers base u (x :: body) =
          validateMember base u x.1 x.2 >>= fun _ => validateMembers base u body := rfl
      simp only [hcons, check_bind_eq_error]
      constructor
      · intro h
        exact ⟨fun exc hx => h exc (.inl hx), fun hx exc hb => h exc (.inr ⟨hx, hb⟩)⟩
      · rintro ⟨hhead, hrest⟩ exc (hx | ⟨hx, hb⟩)
        · exact hhead exc hx
        · exact hrest hx exc hb
    have hhead : (∀ exc, validateMember base u x.1 x.2 = .error exc → Reported exc) ↔
        ¬Escapes base x := by
      cases hx : validateMember base u x.1 x.2 with
      | ok v => exact iff_of_true (fun exc h => by cases h) fun h => h.not_ok (u := u) hx
      | error exc =>
        rw [← validateMember_error hbase hx]
        exact ⟨fun h => h exc rfl, fun h exc' heq => by cases heq; exact h⟩
    rw [hstep, hhead, ih]
    constructor
    · rintro ⟨hx, hrest⟩ before m after heq hbefore
      cases before with
      | nil =>
        cases heq
        exact hx
      | cons y before =>
        cases heq
        exact hrest (hbefore x (List.mem_cons_self ..)) before m after rfl
          fun p hp => hbefore p (List.mem_cons_of_mem _ hp)
    · intro h
      refine ⟨h [] x body rfl nofun, fun hx before m after heq hbefore => ?_⟩
      refine h (x :: before) m after (by rw [heq]; rfl) fun p hp => ?_
      rcases List.mem_cons.1 hp with rfl | hp
      · exact hx
      · exact hbefore p hp

theorem validateDatastoreWriteObject_eq {relative : Option Str} {body : List (Str × Json)} {normal : Str}
    (hrelative : relativeDatastorePath path = .ok relative) (hpath : normalizePath path = .ok normal)
    (hbase : writeBase path = .ok base) : validateDatastoreWriteObject path body u =
      relative.elim (.error (notInSchema normal)) fun _ => validateMembers base u body := by
  unfold validateDatastoreWriteObject
  rw [hrelative, hpath, hbase]
  cases relative <;> rfl

/-- What is not accepted is reported as an invalid write, and answered with 403 or 422, if and only if
no member that follows accepted members only raises another exception. -/
theorem invalid_writes_reported_iff {normal : Str} {body : List (Str × Json)}
    (hpath : normalizePath path = .ok normal) :
    ((∀ exc, validateDatastoreWriteObject path body u = .error exc → Reported exc) ↔
      (UnderDatastore path → ∀ base, writeBase path = .ok base → ∀ before m after,
        body = before ++ m :: after →
        (∀ p ∈ before, validateMember base u p.1 p.2 = .ok ()) → ¬Escapes base m)) ∧
    ∀ exc, Reported exc → MotuProxyHandler.replyTo exc.kind = .json 403 ∨
      MotuProxyHandler.replyTo exc.kind = .json 422 := by
  constructor
  · have hbase : writeBase path = .ok (rstripBy (· = 0x2F) normal) :=
      except_map_eq_ok.2 ⟨normal, hpath, rfl⟩
    obtain ⟨relative, hrelative⟩ : ∃ r, relativeDatastorePath path = .ok r :=
      ⟨_, except_map_eq_ok.2 ⟨normal, hpath, rfl⟩⟩
    rw [validateDatastoreWriteObject_eq hrelative hpath hbase]
    cases relative with
    | none =>
      refine iff_of_true (fun exc h => ?_) fun ⟨r, hr⟩ => ?_
      · cases h
        exact .inr rfl
      · cases hrelative.symm.trans hr
    | some r =>
      rw [Option.elim_some, validateMembers_reported_iff (slash_of_writeBase hbase)]
      constructor
      · intro h _ base hbase'
        cases hbase.symm.trans hbase'
        exact h
      · intro h
        exact h ⟨r, hrelative⟩ _ hbase
  · rintro exc (h | h)
    · rw [h]
      exact .inl rfl
    · rw [h]
      exact .inr rfl

theorem validateMember_of_entry (htarget : writeTarget base key = .ok target)
    (hentry : findPathSchema target = .ok (some entry)) (hrw : entry.permission = .rw) :
    validateMember base u key value = validateValue target entry value := by
  unfold validateMember
  rw [htarget]
  change (findPathSchema target >>= _) = _
  rw [hentry]
  change (require (decide (entry.permission = .rw)) _ >>= _) = _
  rw [hrw]
  rfl

theorem validateObject_value_fader {n : Int} :
    validateDatastoreWriteObject (py "/datastore/mix/chan/0/matrix/fader") [(py "value", .int n)] false =
      validateValue (py "/datastore/mix/chan/0/matrix/fader")
        (rangeRow "mix/chan/<index>/matrix/fader" "real" .rw 0 4) (.int n) := by
  rw [@validateDatastoreWriteObject_eq _ (py "/datastore/mix/chan/0/matrix/fader") _
    (some (py "mix/chan/0/matrix/fader")) _ (py "/datastore/mix/chan/0/matrix/fader")
    (by decide +kernel) (by decide +kernel) (by decide +kernel), Option.elim_some]
  unfold validateMembers validateMembers
  rw [validateMember_of_entry (if_pos rfl) findPathSchema_fader rfl]
  generalize validateValue _ _ _ = verdict
  cases verdict <;> rfl

/-- A value that is out of range is rejected as an invalid one. -/
theorem invalid_fader_reported : ∃ exc,
    validateDatastoreWriteObject (py "/datastore/mix/chan/0/matrix/fader") [(py "value", .int 99)] false =
      .error exc ∧ Reported exc := by
  have hnormal : normalizePath (py "/datastore/mix/chan/0/matrix/fader") =
      .ok (py "/datastore/mix/chan/0/matrix/fader") := by decide +kernel
  have hreported := (@invalid_writes_reported_iff _ false _ [(py "value", .int 99)] hnormal).1.2 ?_
  · cases h : validateDatastoreWriteObject (py "/datastore/mix/chan/0/matrix/fader")
        [(py "value", .int 99)] false with
    | error exc => exact ⟨exc, rfl, hreported exc h⟩
    | ok v =>
      rw [validateObject_value_fader] at h
      have hrejected : (validateValue (py "/datastore/mix/chan/0/matrix/fader")
        (rangeRow "mix/chan/<index>/matrix/fader" "real" .rw 0 4) (.int 99)).isOk = false := by
        decide +kernel
      rw [h] at hrejected
      cases hrejected
  · rintro - base - before m after heq -
    have hm : m ∈ [(py "value", Json.int 99)] := by
      rw [heq]
      exact List.mem_append_right _ (List.mem_cons_self ..)
    rw [List.mem_singleton.1 hm]
    rintro (⟨exc, h⟩ | ⟨-, -, -, -, -, -, n, negative, hn, hlarge⟩)
    · cases h
    · cases hn
      obtain ⟨q, hq⟩ := @roundDouble_intCast 99 (by decide)
      cases hq.symm.trans hlarge

/-- `math.isfinite` raises `OverflowError` on an integer of 401 digits. -/
theorem huge_fader_not_reported :
    ¬∀ (path normal : Str) (body : List (Str × Json)) (u : Bool), normalizePath path = .ok normal →
      ∀ exc, validateDatastoreWriteObject path body u = .error exc → Reported exc := by
  intro h
  have hnormal : normalizePath (py "/datastore/mix/chan/0/matrix/fader") =
      .ok (py "/datastore/mix/chan/0/matrix/fader") := by decide +kernel
  have hlarge : TooLarge (.int (10 ^ 400)) := ⟨10 ^ 400, false, rfl, by decide +kernel⟩
  have hraise : validateDatastoreWriteObject (py "/datastore/mix/chan/0/matrix/fader")
      [(py "value", .int (10 ^ 400))] false = .error intTooLarge := by
    rw [validateObject_value_fader]
    exact validateValue_tooLarge (findPathSchema_mem findPathSchema_fader) (by decide +kernel) hlarge
  rcases h _ _ _ _ hnormal _ hraise with h | h <;> cases h

end Schema

end MotuProxy
