import Mathlib.Data.List.Forall2
import MotuProxy.Verify.WritePath

/-! # The language of the schema

The paths that the schema documents are those whose segments instantiate a pattern. The code also
takes a pattern for its own instance, and a digit of any script for an index, so it finds an entry for
more paths. `Loose` says which segments these are.
-/

namespace MotuProxy

open Py Paths

namespace Schema

/-! ## The documented language -/

/-- The values of a placeholder. -/
def InClass (name value : Str) : Prop :=
  if name = py "index" then value ≠ [] ∧ ∀ c ∈ value, isAsciiDigit c = true
  else if name = py "uid" then value.length = 16 ∧ ∀ c ∈ value, isHexDigit c = true
  else if name = py "ibank_or_obank" then value = py "ibank" ∨ value = py "obank"
  else if name = py "input_or_output" then value = py "input" ∨ value = py "output"
  else value ≠ []

/-- The segment is the pattern, with a value in the place of its placeholder if it has one. -/
def Instantiates (pattern segment : Str) : Prop :=
  match searchPlaceholder pattern with
  | none => pattern = segment
  | some (before, name, suffix) => ∃ value, segment = before ++ value ++ suffix ∧ InClass name value

/-- The entry documents the path with these segments. -/
def Documents (entry : PathSchema) (segments : List Str) : Prop :=
  List.Forall₂ Instantiates entry.segments segments

/-- The segment is the text of a placeholder of a narrower class than "anything", or an index in digits
that are not ASCII. -/
def Loose (pattern segment : Str) : Prop :=
  (pattern = segment ∧ (searchPlaceholder pattern).isSome = true ∧ pattern ≠ py "<effect_resource>") ∨
    (pattern = py "<index>" ∧ isDecimal segment = true ∧ ∃ c ∈ segment, isAsciiDigit c = false)

/-! ## The patterns of the table -/

/-- What is checked of a segment of the table: it is ASCII text, and its placeholder is at its beginning
and a known one, with text after it only if its class is a pair of words. -/
def knownPattern (p : Str) : Bool :=
  p.all (· < 0x80) && match searchPlaceholder p with
    | none => true
    | some (before, name, suffix) => p = 0x3C :: name ++ 0x3E :: suffix && before.isEmpty &&
        (((name = py "index" || name = py "uid" || name = py "effect_resource") && suffix.isEmpty) ||
          name = py "ibank_or_obank" || name = py "input_or_output")

theorem schema_known : ∀ e ∈ SCHEMA, ∀ p ∈ e.segments, knownPattern p = true := by
  rw [schemaTable.2]
  decide +kernel

variable {p q segment name suffix : Str}

/-- The placeholders of the table, and what may follow them. -/
inductive KnownName : Str → Str → Prop
  | index : KnownName (py "index") []
  | uid : KnownName (py "uid") []
  | effect : KnownName (py "effect_resource") []
  | bank (suffix : Str) : KnownName (py "ibank_or_obank") suffix
  | stream (suffix : Str) : KnownName (py "input_or_output") suffix

theorem knownPattern_cases (h : knownPattern p = true) :
    searchPlaceholder p = none ∨ ∃ name suffix, searchPlaceholder p = some ([], name, suffix) ∧
      p = 0x3C :: name ++ 0x3E :: suffix ∧ KnownName name suffix := by
  unfold knownPattern at h
  cases hsearch : searchPlaceholder p with
  | none => exact .inl rfl
  | some found =>
    obtain ⟨before, name, suffix⟩ := found
    rw [hsearch] at h
    simp only [Bool.and_eq_true, Bool.or_eq_true, decide_eq_true_eq, List.isEmpty_iff] at h
    obtain ⟨-, ⟨hp, rfl⟩, hname⟩ := h
    refine .inr ⟨name, suffix, rfl, hp, ?_⟩
    rcases hname with (⟨(rfl | rfl) | rfl, rfl⟩ | rfl) | rfl
    · exact .index
    · exact .uid
    · exact .effect
    · exact .bank suffix
    · exact .stream suffix

/-- With nothing before the placeholder, the value is the segment without what follows it. -/
theorem placeholderMatches_iff (h : searchPlaceholder p = some ([], name, suffix)) :
    placeholderMatches p segment = true ↔
      ∃ value, segment = value ++ suffix ∧ placeholderValueMatches name value = true := by
  unfold placeholderMatches
  rw [h]
  simp only [List.isPrefixOf, Bool.true_and, List.length_nil, List.drop_zero, Bool.and_eq_true,
    List.isSuffixOf_iff_suffix]
  constructor
  · rintro ⟨⟨value, rfl⟩, hvalue⟩
    refine ⟨value, rfl, ?_⟩
    simpa using hvalue
  · rintro ⟨value, rfl, hvalue⟩
    refine ⟨List.suffix_append _ _, ?_⟩
    simpa using hvalue

theorem isDecimal_of_asciiDigits {value : Str} (hne : value ≠ [])
    (h : ∀ c ∈ value, isAsciiDigit c = true) : isDecimal value = true := by
  have htable : ∀ c < 0x80, isAsciiDigit c = true → (decimalValue c).isSome = true := by decide +kernel
  simp only [isDecimal, Bool.and_eq_true, Bool.not_eq_true', List.isEmpty_eq_false_iff,
    List.all_eq_true]
  refine ⟨hne, fun c hc => htable c ?_ (h c hc)⟩
  have hrange := h c hc
  simp only [isAsciiDigit, Bool.and_eq_true, decide_eq_true_eq] at hrange
  omega

/-- The code knows the class of a placeholder, except for an index. -/
theorem placeholderValueMatches_iff {value : Str} (hname : KnownName name suffix)
    (hindex : name ≠ py "index") : placeholderValueMatches name value = true ↔ InClass name value := by
  cases hname with
  | index => exact absurd rfl hindex
  | uid =>
    have hl : placeholderValueMatches (py "uid") value = isUid value := rfl
    have hr : InClass (py "uid") value ↔
      value.length = 16 ∧ ∀ c ∈ value, isHexDigit c = true := Iff.rfl
    rw [hl, hr]
    simp [isUid]
  | effect =>
    have hl : placeholderValueMatches (py "effect_resource") value = !value.isEmpty := rfl
    have hr : InClass (py "effect_resource") value ↔ value ≠ [] := Iff.rfl
    rw [hl, hr]
    simp
  | bank =>
    have hl : placeholderValueMatches (py "ibank_or_obank") value =
      decide (value ∈ [py "ibank", py "obank"]) := rfl
    have hr : InClass (py "ibank_or_obank") value ↔ value = py "ibank" ∨ value = py "obank" := Iff.rfl
    rw [hl, hr]
    simp
  | stream =>
    have hl : placeholderValueMatches (py "input_or_output") value =
      decide (value ∈ [py "input", py "output"]) := rfl
    have hr : InClass (py "input_or_output") value ↔ value = py "input" ∨ value = py "output" := Iff.rfl
    rw [hl, hr]
    simp

theorem instantiates_of_search (h : searchPlaceholder p = some ([], name, suffix)) :
    Instantiates p segment ↔ ∃ value, segment = value ++ suffix ∧ InClass name value := by
  unfold Instantiates
  rw [h]
  rfl

theorem search_index : searchPlaceholder (py "<index>") = some ([], py "index", []) := by decide

theorem search_effect :
    searchPlaceholder (py "<effect_resource>") = some ([], py "effect_resource", []) := by decide

/-- An index, as the code sees it. -/
theorem index_segment_iff :
    (py "<index>" = segment ∨ isDecimal segment = true) ↔
      InClass (py "index") segment ∨ Loose (py "<index>") segment := by
  have hclass : InClass (py "index") segment ↔
    segment ≠ [] ∧ ∀ c ∈ segment, isAsciiDigit c = true := Iff.rfl
  rw [hclass]
  constructor
  · rintro (h | h)
    · exact .inr (.inl ⟨h, by rw [search_index]; rfl, by decide⟩)
    · by_cases hall : ∀ c ∈ segment, isAsciiDigit c = true
      · refine .inl ⟨?_, hall⟩
        rintro rfl
        cases h
      · refine .inr (.inr ⟨rfl, h, ?_⟩)
        simpa using hall
  · rintro (⟨hne, hall⟩ | ⟨h, -⟩ | ⟨-, h, -⟩)
    · exact .inr (isDecimal_of_asciiDigits hne hall)
    · exact .inl h
    · exact .inr h

/-- What the code takes for an instance is one, or is loose. -/
theorem segment_iff (hp : knownPattern p = true) :
    (p = segment ∨ placeholderMatches p segment = true) ↔
      Instantiates p segment ∨ Loose p segment := by
  rcases knownPattern_cases hp with hnone | ⟨name, suffix, hsearch, hp', hname⟩
  · have hmatches : placeholderMatches p segment = false := by rw [placeholderMatches, hnone]
    have hinst : Instantiates p segment ↔ p = segment := by rw [Instantiates, hnone]
    have hloose : ¬Loose p segment := by
      rintro (⟨-, hsome, -⟩ | ⟨rfl, -⟩)
      · rw [hnone] at hsome
        cases hsome
      · rw [search_index] at hnone
        cases hnone
    rw [hmatches, hinst]
    simp [hloose]
  · rw [placeholderMatches_iff hsearch, instantiates_of_search hsearch]
    by_cases hindex : name = py "index"
    · subst hindex
      cases hname
      have hvalue (value : Str) : placeholderValueMatches (py "index") value = isDecimal value := rfl
      have hpattern : p = py "<index>" := hp'
      simp only [hvalue, List.append_nil, exists_eq_left', hpattern]
      exact index_segment_iff
    · simp only [placeholderValueMatches_iff hname hindex]
      constructor
      · rintro (h | h)
        · by_cases heffect : p = py "<effect_resource>"
          · have hsearch' := search_effect
            rw [← heffect, hsearch] at hsearch'
            cases hsearch'
            refine .inl ⟨segment, (List.append_nil _).symm, ?_⟩
            have hclass : InClass (py "effect_resource") segment ↔ segment ≠ [] := Iff.rfl
            rw [hclass, ← h, hp']
            exact List.cons_ne_nil _ _
          · exact .inr (.inl ⟨h, by rw [hsearch]; rfl, heffect⟩)
        · exact .inl h
      · rintro (h | ⟨h, -⟩ | ⟨rfl, -⟩)
        · exact .inr h
        · exact .inl h
        · cases hsearch.symm.trans search_index
          exact absurd rfl hindex

/-! ## A loose segment is documented as an effect only -/

theorem isHexDigit_lt {c : Nat} (h : isHexDigit c = true) : c < 0x80 := by
  unfold isHexDigit hexValue at h
  split at h
  · omega
  · split at h
    · omega
    · split at h
      · omega
      · cases h

/-- A loose segment starts with the bracket of a placeholder, or is a number with a digit that is not
ASCII. -/
theorem Loose.cases (h : Loose p segment) (hp : knownPattern p = true) :
    (p = segment ∧ (searchPlaceholder p).isSome = true ∧ segment.head? = some 0x3C) ∨
      ((∀ c ∈ segment, (decimalValue c).isSome = true) ∧ ∃ c ∈ segment, 0x80 ≤ c) := by
  rcases h with ⟨rfl, hsome, -⟩ | ⟨-, hdecimal, c, hc, hno⟩
  · refine .inl ⟨rfl, hsome, ?_⟩
    rcases knownPattern_cases hp with hnone | ⟨name, suffix, -, hp', -⟩
    · rw [hnone] at hsome
      cases hsome
    · rw [hp']
      rfl
  · simp only [isDecimal, Bool.and_eq_true, List.all_eq_true] at hdecimal
    refine .inr ⟨hdecimal.2, c, hc, ?_⟩
    have htable : ∀ c < 0x80, (decimalValue c).isSome = true → isAsciiDigit c = true := by
      decide +kernel
    by_contra hlt
    rw [htable c (not_le.1 hlt) (hdecimal.2 c hc)] at hno
    cases hno

/-- A loose segment does not start like a word. -/
theorem Loose.head (h : Loose p segment) (hp : knownPattern p = true) {c : Nat} {rest : Str}
    (hs : segment = c :: rest) : c = 0x3C ∨ (decimalValue c).isSome = true := by
  rcases h.cases hp with ⟨-, -, hhead⟩ | ⟨hdecimal, -⟩
  · rw [hs] at hhead
    exact .inl (Option.some.inj hhead)
  · exact .inr (hdecimal c (by rw [hs]; exact List.mem_cons_self ..))

/-- A loose segment is not made of hexadecimal digits. -/
theorem Loose.not_hex (h : Loose p segment) (hp : knownPattern p = true)
    (hhex : ∀ c ∈ segment, isHexDigit c = true) : False := by
  rcases h.cases hp with ⟨-, -, hhead⟩ | ⟨-, c, hc, hge⟩
  · have hbracket := hhex 0x3C (List.mem_of_mem_head? hhead)
    cases hbracket
  · have := isHexDigit_lt (hhex c hc)
    omega

theorem Loose.effect (h : Loose p segment) (hp : knownPattern p = true) (hq : knownPattern q = true)
    (hinst : Instantiates q segment) : q = py "<effect_resource>" := by
  rcases knownPattern_cases hq with hnone | ⟨name, suffix, hsearch, hq', hname⟩
  · -- A literal segment is ASCII and has no placeholder.
    have heq : q = segment := by rwa [Instantiates, hnone] at hinst
    rcases h.cases hp with ⟨rfl, hsome, -⟩ | ⟨-, c, hc, hge⟩
    · rw [← heq, hnone] at hsome
      cases hsome
    · rw [← heq] at hc
      simp only [knownPattern, Bool.and_eq_true, List.all_eq_true, decide_eq_true_eq] at hq
      have := hq.1 c hc
      omega
  · obtain ⟨value, hs, hclass⟩ := (instantiates_of_search hsearch).1 hinst
    have hdigit_hex : ∀ c < 0x80, isAsciiDigit c = true → isHexDigit c = true := by decide +kernel
    have hword {w : Str} {c : Nat} {rest : Str} (hw : value = w) (hcons : w = c :: rest)
        (hno : ¬(c = 0x3C ∨ (decimalValue c).isSome = true)) : False := by
      rw [hw, hcons] at hs
      exact hno (h.head hp hs)
    cases hname with
    | index =>
      rw [List.append_nil] at hs
      subst hs
      obtain ⟨-, hall⟩ : segment ≠ [] ∧ ∀ c ∈ segment, isAsciiDigit c = true := hclass
      refine (h.not_hex hp fun c hc => hdigit_hex c ?_ (hall c hc)).elim
      have hrange := hall c hc
      simp only [isAsciiDigit, Bool.and_eq_true, decide_eq_true_eq] at hrange
      omega
    | uid =>
      rw [List.append_nil] at hs
      subst hs
      obtain ⟨-, hall⟩ : segment.length = 16 ∧ ∀ c ∈ segment, isHexDigit c = true := hclass
      exact (h.not_hex hp hall).elim
    | effect => exact hq'
    | bank =>
      have hwords : value = py "ibank" ∨ value = py "obank" := hclass
      rcases hwords with hw | hw
      · exact (hword hw rfl (by decide +kernel)).elim
      · exact (hword hw rfl (by decide +kernel)).elim
    | stream =>
      have hwords : value = py "input" ∨ value = py "output" := hclass
      rcases hwords with hw | hw
      · exact (hword hw rfl (by decide +kernel)).elim
      · exact (hword hw rfl (by decide +kernel)).elim

/-! ## Looking up a path -/

variable {entry : PathSchema} {segments : List Str}

theorem matches_iff : Matches entry segments ↔
    List.Forall₂ (fun p s => p = s ∨ placeholderMatches p s = true) entry.segments segments := by
  unfold Matches
  generalize entry.segments = patterns
  induction patterns generalizing segments with
  | nil => cases segments <;> simp [matchScore]
  | cons p patterns ih =>
    cases segments with
    | nil => simp [matchScore]
    | cons s segments =>
      rw [List.forall₂_cons, ← ih, matchScore]
      by_cases heq : p = s
      · simp [heq]
      · by_cases hmatch : placeholderMatches p s = true
        · simp [heq, hmatch]
        · simp [heq, hmatch]

theorem bestMatch_isSome {requested : List Str} {entries : List PathSchema}
    {best : Option ((Nat × Nat) × PathSchema)}
    (h : best.isSome = true ∨ ∃ e ∈ entries, Matches e requested) :
    (bestMatch requested entries best).isSome = true := by
  induction entries generalizing best with
  | nil =>
    rcases h with h | ⟨e, he, -⟩
    · exact h
    · cases he
  | cons e entries ih =>
    unfold bestMatch
    cases hscore : matchScore e.segments requested with
    | none =>
      refine ih ?_
      rcases h with h | ⟨e', he', hmatch⟩
      · exact .inl h
      · rcases List.mem_cons.1 he' with rfl | he'
        · rw [Matches, hscore] at hmatch
          cases hmatch
        · exact .inr ⟨e', he', hmatch⟩
    | some score =>
      refine ih (.inl ?_)
      cases best with
      | none => rfl
      | some b =>
        dsimp only
        split <;> rfl

theorem findEntry_isSome (he : entry ∈ SCHEMA) (h : Matches entry segments) :
    ∃ e, findEntry segments = some e := by
  have hlen : entry.segments.length = segments.length := (matches_iff.1 h).length_eq
  have hmem : entry ∈ schemaBySegmentCount segments.length :=
    List.mem_filter.2 ⟨he, decide_eq_true hlen⟩
  obtain ⟨found, hfound⟩ := Option.isSome_iff_exists.1 (bestMatch_isSome (.inr ⟨entry, hmem, h⟩))
  exact ⟨found.2, by rw [findEntry, hfound]; rfl⟩

theorem Documents.matches (h : Documents entry segments) (he : entry ∈ SCHEMA) :
    Matches entry segments := by
  rw [matches_iff, List.forall₂_iff_zip]
  obtain ⟨hlen, hzip⟩ := List.forall₂_iff_zip.1 h
  refine ⟨hlen, fun {p s} hps => ?_⟩
  have hp := schema_known entry he p (List.of_mem_zip hps).1
  exact (segment_iff hp).2 (.inl (hzip hps))

/-- An entry that matches without a loose segment documents the path. -/
theorem Matches.documents (h : Matches entry segments) (he : entry ∈ SCHEMA)
    (hloose : ∀ x ∈ entry.segments.zip segments, ¬Loose x.1 x.2) : Documents entry segments := by
  obtain ⟨hlen, hzip⟩ := List.forall₂_iff_zip.1 (matches_iff.1 h)
  refine List.forall₂_iff_zip.2 ⟨hlen, fun {p s} hps => ?_⟩
  have hp := schema_known entry he p (List.of_mem_zip hps).1
  exact ((segment_iff hp).1 (hzip hps)).resolve_right (hloose (p, s) hps)

theorem schema_effect : ∀ e ∈ SCHEMA, py "<effect_resource>" ∈ e.segments →
    e.segments = [py "mix", py "ctrls", py "<effect_resource>", py "avail"] := by
  rw [schemaTable.2]
  decide +kernel

/-- Beside the effects, no path of four segments below `mix/ctrls` has a placeholder third. -/
def noControl : List Str → Bool
  | [a, b, c, _] => !((a = py "mix" || placeholderMatches a (py "mix")) &&
      (b = py "ctrls" || placeholderMatches b (py "ctrls"))) ||
      (searchPlaceholder c).isNone || c = py "<effect_resource>"
  | _ => true

theorem noControl_third {a b c d : Str} (h : noControl [a, b, c, d] = true)
    (ha : a = py "mix" ∨ placeholderMatches a (py "mix") = true)
    (hb : b = py "ctrls" ∨ placeholderMatches b (py "ctrls") = true) :
    searchPlaceholder c = none ∨ c = py "<effect_resource>" := by
  have hmix : (decide (a = py "mix") || placeholderMatches a (py "mix")) = true := by simpa using ha
  have hctrls : (decide (b = py "ctrls") || placeholderMatches b (py "ctrls")) = true := by
    simpa using hb
  simpa [noControl, hmix, hctrls] using h

theorem schema_noControl : ∀ e ∈ SCHEMA, noControl e.segments = true := by
  rw [schemaTable.2]
  decide +kernel

theorem forall₂_exists {α β : Type} {R : α → β → Prop} {l₁ : List α} {l₂ : List β}
    (h : List.Forall₂ R l₁ l₂) {b : β} (hb : b ∈ l₂) : ∃ a ∈ l₁, R a b := by
  induction h with
  | nil => cases hb
  | cons hab _ ih =>
    rcases List.mem_cons.1 hb with rfl | hb
    · exact ⟨_, List.mem_cons_self .., hab⟩
    · obtain ⟨a, ha, hR⟩ := ih hb
      exact ⟨a, List.mem_cons_of_mem _ ha, hR⟩

/-- The path of an effect. -/
theorem documents_effect (h : List.Forall₂ Instantiates
    [py "mix", py "ctrls", py "<effect_resource>", py "avail"] segments) :
    ∃ s, segments = [py "mix", py "ctrls", s, py "avail"] := by
  have hword {w s : Str} (hw : searchPlaceholder w = none) (hs : Instantiates w s) : s = w := by
    rw [Instantiates, hw] at hs
    exact hs.symm
  rcases h with _ | ⟨hmix, h⟩
  rcases h with _ | ⟨hctrls, h⟩
  rcases h with _ | ⟨-, h⟩
  rcases h with _ | ⟨havail, h⟩
  cases h
  rw [hword (by decide) hmix, hword (by decide) hctrls, hword (by decide) havail]
  exact ⟨_, rfl⟩

/-- No path has a loose segment and is documented. -/
theorem Documents.not_loose {e : PathSchema} (h : Documents e segments) (he : e ∈ SCHEMA)
    (hmatch : Matches entry segments) (hentry : entry ∈ SCHEMA) {x : Str × Str}
    (hx : x ∈ entry.segments.zip segments) (hloose : Loose x.1 x.2) : False := by
  have hx' := List.of_mem_zip (show (x.1, x.2) ∈ _ from hx)
  have hknown := schema_known entry hentry x.1 hx'.1
  -- The segment is an effect of the documented path, which leaves one pattern for that path.
  have heffect : py "<effect_resource>" ∈ e.segments := by
    obtain ⟨q, hq, hinst⟩ := forall₂_exists h hx'.2
    rw [← hloose.effect hknown (schema_known e he q hq) hinst]
    exact hq
  have hshape := h
  rw [Documents, schema_effect e he heffect] at hshape
  obtain ⟨s, rfl⟩ := documents_effect hshape
  have hcontrol := schema_noControl entry hentry
  have hcode := matches_iff.1 hmatch
  generalize entry.segments = patterns at hcode hx hcontrol
  rcases hcode with _ | ⟨ha, hcode⟩
  rcases hcode with _ | ⟨hb, hcode⟩
  rcases hcode with _ | ⟨-, hcode⟩
  rcases hcode with _ | ⟨-, hcode⟩
  cases hcode
  have hplain {c : Nat} {rest : Str} (hs : x.2 = c :: rest)
      (hno : ¬(c = 0x3C ∨ (decimalValue c).isSome = true)) : False := hno (hloose.head hknown hs)
  simp only [List.zip_cons_cons, List.zip_nil_right, List.mem_cons, List.not_mem_nil, or_false] at hx
  rcases hx with rfl | rfl | rfl | rfl
  · exact hplain rfl (by decide +kernel)
  · exact hplain rfl (by decide +kernel)
  · have hthird := noControl_third hcontrol ha hb
    rcases hloose with ⟨-, hsome, hne⟩ | ⟨hindex, -⟩
    · rcases hthird with hnone | heq
      · rw [hnone] at hsome
        cases hsome
      · exact hne heq
    · dsimp only at hindex
      rw [hindex, search_index] at hthird
      rcases hthird with hnone | heq
      · cases hnone
      · exact absurd heq (by decide)
  · exact hplain rfl (by decide +kernel)

/-- For a path in normal form, the lookup finds an entry for the documented paths only, if and only if
no entry matches the path with a loose segment. -/
theorem language_iff {t : Str} (hsegments : ∀ s ∈ splitOn 0x2F t, s ≠ [])
    (hnormal : normalizePath (DATASTORE_PREFIX ++ t) = .ok (DATASTORE_PREFIX ++ t)) :
    ((∃ e, findPathSchema (DATASTORE_PREFIX ++ t) = .ok (some e)) ↔
      ∃ e ∈ SCHEMA, Documents e (splitOn 0x2F t)) ↔
    ∀ e ∈ SCHEMA, Matches e (splitOn 0x2F t) →
      ∀ x ∈ e.segments.zip (splitOn 0x2F t), ¬Loose x.1 x.2 := by
  simp only [findPathSchema_normal hsegments hnormal, Except.ok.injEq]
  constructor
  · intro h e he hmatch x hx hloose
    obtain ⟨e', he', hdoc⟩ := h.1 (findEntry_isSome he hmatch)
    exact hdoc.not_loose he' hmatch he hx hloose
  · intro h
    constructor
    · rintro ⟨e, hfound⟩
      obtain ⟨hmatch, he⟩ := findEntry_matches hfound
      exact ⟨e, he, hmatch.documents he (h e he hmatch)⟩
    · rintro ⟨e, he, hdoc⟩
      exact findEntry_isSome he (hdoc.matches he)

theorem language_fader :
    (∃ e, findPathSchema (py "/datastore/mix/chan/12/matrix/fader") = .ok (some e)) ↔
      ∃ e ∈ SCHEMA, Documents e (splitOn 0x2F (py "mix/chan/12/matrix/fader")) := by
  refine (@language_iff (py "mix/chan/12/matrix/fader") (by decide +kernel) (by decide +kernel)).2 ?_
  intro e he hmatch x hx hloose
  have hx' := List.of_mem_zip (show (x.1, x.2) ∈ _ from hx)
  have hknown := schema_known e he x.1 hx'.1
  have hsegment : x.2 ∈ [py "mix", py "chan", py "12", py "matrix", py "fader"] := hx'.2
  have hword {c : Nat} {rest : Str} (hs : x.2 = c :: rest)
      (hno : ¬(c = 0x3C ∨ (decimalValue c).isSome = true)) : False := hno (hloose.head hknown hs)
  simp only [List.mem_cons, List.not_mem_nil, or_false] at hsegment
  rcases hsegment with hs | hs | hs | hs | hs
  · exact hword hs (by decide +kernel)
  · exact hword hs (by decide +kernel)
  · exact hloose.not_hex hknown (by rw [hs]; decide +kernel)
  · exact hword hs (by decide +kernel)
  · exact hword hs (by decide +kernel)

/-- The text of a pattern is found as if it were one of its instances. -/
theorem placeholder_text_found :
    ¬∀ t : Str, (∀ s ∈ splitOn 0x2F t, s ≠ []) →
      normalizePath (DATASTORE_PREFIX ++ t) = .ok (DATASTORE_PREFIX ++ t) →
      ((∃ e, findPathSchema (DATASTORE_PREFIX ++ t) = .ok (some e)) ↔
        ∃ e ∈ SCHEMA, Documents e (splitOn 0x2F t)) := by
  intro h
  have hiff := h (py "mix/chan/<index>/matrix/fader") (by decide +kernel) (by decide +kernel)
  have hfound : findPathSchema (DATASTORE_PREFIX ++ py "mix/chan/<index>/matrix/fader") =
      .ok (some (rangeRow "mix/chan/<index>/matrix/fader" "real" .rw 0 4)) := by
    rw [findPathSchema_eq]
    decide +kernel
  obtain ⟨e, he, hdoc⟩ := hiff.1 ⟨_, hfound⟩
  obtain ⟨q, hq, hinst⟩ := forall₂_exists hdoc
    (show py "<index>" ∈ splitOn 0x2F (py "mix/chan/<index>/matrix/fader") by decide +kernel)
  have hloose : Loose (py "<index>") (py "<index>") := .inl ⟨rfl, by decide, by decide⟩
  have heffect := hloose.effect (by decide +kernel) (schema_known e he q hq) hinst
  rw [heffect] at hq
  rw [Documents, schema_effect e he hq] at hdoc
  obtain ⟨s, hs⟩ := documents_effect hdoc
  have hlen : (splitOn 0x2F (py "mix/chan/<index>/matrix/fader")).length = 4 := congrArg List.length hs
  exact absurd hlen (by decide +kernel)

end Schema

end MotuProxy
