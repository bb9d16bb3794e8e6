import MotuProxy.Verify.SchemaTable
import MotuProxy.Verify.Text
import MotuProxy.Verify.WriteGate

/-! # The path that is validated and the path that is sent

`dispatch_datastore_request` normalizes the path of a write once and sends the result, which the
device matches literally. The validation normalizes it again, together with the keys of the body,
and looks up what comes out without its empty segments. The two agree exactly if there is nothing
left to normalize (`Unaltered`): an rw entry of the schema matches plain segments only.
-/

namespace MotuProxy

open Py Paths Schema Dispatch

namespace Schema

/-! ## What an entry matches -/

variable {entry : PathSchema} {requested : List Str}

/-- The entry matches the segments, one by one. -/
def Matches (entry : PathSchema) (segments : List Str) : Prop :=
  (matchScore entry.segments segments).isSome = true

theorem bestMatch_matches {entries : List PathSchema} {best : Option ((Nat × Nat) × PathSchema)}
    {score : Nat × Nat} (hbest : ∀ b ∈ best, Matches b.2 requested ∧ b.2 ∈ SCHEMA)
    (hentries : ∀ e ∈ entries, e ∈ SCHEMA)
    (h : bestMatch requested entries best = some (score, entry)) :
    Matches entry requested ∧ entry ∈ SCHEMA := by
  induction entries generalizing best with
  | nil => exact hbest _ h
  | cons e entries ih =>
    have hrest : ∀ e ∈ entries, e ∈ SCHEMA := fun e he => hentries e (List.mem_cons_of_mem _ he)
    unfold bestMatch at h
    cases hscore : matchScore e.segments requested with
    | none =>
      rw [hscore] at h
      exact ih hbest hrest h
    | some score' =>
      rw [hscore] at h
      have he : Matches e requested ∧ e ∈ SCHEMA :=
        ⟨by rw [Matches, hscore]; rfl, hentries e (List.mem_cons_self ..)⟩
      refine ih ?_ hrest h
      intro b hb
      cases best with
      | none => cases hb; exact he
      | some b' =>
        dsimp only at hb
        split at hb
        · cases hb; exact he
        · cases hb; exact hbest _ rfl

theorem findEntry_matches (h : findEntry requested = some entry) :
    Matches entry requested ∧ entry ∈ SCHEMA := by
  obtain ⟨⟨score, e⟩, hbest, rfl⟩ := Option.map_eq_some_iff.1 h
  refine bestMatch_matches (fun b hb => by cases hb) (fun e he => ?_) hbest
  exact (List.mem_filter.1 he).1

/-- A code point that normalizing leaves alone, wherever it stands. -/
def plainChar (c : Nat) : Bool := c != 0x25 && !isSpace c

/-- A segment of plain code points, and not empty. -/
def PlainSegment (s : Str) : Prop := s ≠ [] ∧ ∀ c ∈ s, plainChar c = true

/-- What is checked of the table: a segment of an rw entry is plain, and if it has a placeholder it is
that placeholder, and a known one. -/
def plainPattern (p : Str) : Bool :=
  !p.isEmpty && p.all plainChar && match searchPlaceholder p with
    | none => true
    | some (before, name, suffix) => before.isEmpty && suffix.isEmpty &&
        (name = py "index" || name = py "uid" || (placeholderValues.lookup name).isSome)

theorem schema_plain : ∀ e ∈ SCHEMA, e.permission = .rw → ∀ p ∈ e.segments, plainPattern p = true := by
  rw [schemaTable.2]
  decide +kernel

theorem plainChar_of_decimal {c : Nat} (h : (decimalValue c).isSome = true) :
    plainChar c = true := by
  have htable : ∀ z ∈ decimalZeros, ∀ i < 10, plainChar (z + i) = true := by decide +kernel
  obtain ⟨v, hv⟩ := Option.isSome_iff_exists.1 h
  obtain ⟨z, hz, -⟩ := Option.map_eq_some_iff.1 hv
  have hrange := List.find?_some hz
  simp only [Bool.and_eq_true, decide_eq_true_eq] at hrange
  have h' := htable z (List.mem_of_find?_eq_some hz) (c - z) (by omega)
  rwa [Nat.add_sub_cancel' hrange.1] at h'

theorem plainChar_of_hex {c : Nat} (h : isHexDigit c = true) : plainChar c = true := by
  have htable : ∀ c < 0x80, isHexDigit c = true → plainChar c = true := by decide +kernel
  refine htable c ?_ h
  unfold isHexDigit hexValue at h
  split at h
  · omega
  · split at h
    · omega
    · split at h
      · omega
      · cases h

theorem plain_of_placeholderValue {name value : Str} (h : placeholderValueMatches name value = true)
    (hname : name = py "index" ∨ name = py "uid" ∨ (placeholderValues.lookup name).isSome = true) :
    PlainSegment value := by
  unfold placeholderValueMatches at h
  split at h
  · simp only [isDecimal, Bool.and_eq_true, List.all_eq_true, Bool.not_eq_true',
      List.isEmpty_eq_false_iff] at h
    exact ⟨h.1, fun c hc => plainChar_of_decimal (h.2 c hc)⟩
  · next hindex =>
    split at h
    · simp only [isUid, Bool.and_eq_true, decide_eq_true_eq, List.all_eq_true] at h
      refine ⟨fun hnil => ?_, fun c hc => plainChar_of_hex (h.2 c hc)⟩
      rw [hnil] at h
      cases h.1
    · next huid =>
      obtain ⟨allowed, hallowed⟩ := Option.isSome_iff_exists.1
        ((hname.resolve_left hindex).resolve_left huid)
      rw [hallowed] at h
      have htable : ∀ e ∈ placeholderValues, ∀ v ∈ e.2, v ≠ [] ∧ ∀ c ∈ v, plainChar c = true := by
        decide +kernel
      obtain ⟨before, after, hvalues, -⟩ := List.lookup_eq_some_iff.1 hallowed
      have hmem : (name, allowed) ∈ placeholderValues := by
        rw [hvalues]
        exact List.mem_append_right _ (List.mem_cons_self ..)
      exact htable (name, allowed) hmem value (of_decide_eq_true h)

theorem plain_of_pattern {p segment : Str} (hp : plainPattern p = true)
    (h : p = segment ∨ placeholderMatches p segment = true) : PlainSegment segment := by
  simp only [plainPattern, Bool.and_eq_true, Bool.not_eq_true', List.isEmpty_eq_false_iff,
    List.all_eq_true] at hp
  rcases h with rfl | h
  · exact hp.1
  · unfold placeholderMatches at h
    cases hsearch : searchPlaceholder p with
    | none =>
      rw [hsearch] at h
      cases h
    | some found =>
      obtain ⟨before, name, suffix⟩ := found
      rw [hsearch] at h hp
      simp only [Bool.and_eq_true, Bool.or_eq_true, decide_eq_true_eq, List.isEmpty_iff] at hp h
      obtain ⟨-, ⟨rfl, rfl⟩, hname⟩ := hp
      have hvalue : placeholderValueMatches name segment = true := by simpa using h.2
      exact plain_of_placeholderValue hvalue (or_assoc.1 hname)

/-- An rw entry matches plain segments only, and never none at all. -/
theorem Matches.plain {segments : List Str} (h : Matches entry segments) (he : entry ∈ SCHEMA)
    (hrw : entry.permission = .rw) : ∀ s ∈ segments, PlainSegment s := by
  have hpatterns := schema_plain entry he hrw
  unfold Matches at h
  generalize entry.segments = patterns at h hpatterns
  induction patterns generalizing segments with
  | nil =>
    cases segments with
    | nil => nofun
    | cons s segments => cases h
  | cons p patterns ih =>
    cases segments with
    | nil => cases h
    | cons s segments =>
      have hp := hpatterns p (List.mem_cons_self ..)
      have htail : ∀ q ∈ patterns, plainPattern q = true :=
        fun q hq => hpatterns q (List.mem_cons_of_mem _ hq)
      unfold matchScore at h
      split at h
      · next heq =>
        rw [Option.isSome_map] at h
        exact List.forall_mem_cons.2 ⟨plain_of_pattern hp (.inl heq), ih h htail⟩
      · split at h
        · next hmatch =>
          rw [Option.isSome_map] at h
          exact List.forall_mem_cons.2 ⟨plain_of_pattern hp (.inr hmatch), ih h htail⟩
        · cases h

/-- No rw entry matches a path that begins with `datastore`. -/
theorem Matches.not_datastore {segments : List Str} (h : Matches entry (py "datastore" :: segments))
    (he : entry ∈ SCHEMA) (hrw : entry.permission = .rw) : False := by
  have htable : ∀ e ∈ SCHEMA, e.permission = .rw → ∀ p ∈ e.segments.head?,
      p ≠ py "datastore" ∧ placeholderMatches p (py "datastore") = false := by
    rw [schemaTable.2]
    decide +kernel
  have hhead := htable entry he hrw
  unfold Matches at h
  generalize entry.segments = patterns at h hhead
  cases patterns with
  | nil => cases h
  | cons p patterns =>
    obtain ⟨hne, hmatch⟩ := hhead p rfl
    rw [matchScore, if_neg hne, hmatch, if_neg Bool.false_ne_true] at h
    cases h

end Schema

/-! ## Paths that normalizing leaves alone -/

namespace Py

theorem unquote_eq_self {s : Str} (h : 0x25 ∉ s) : unquote s = s := by
  rw [unquote, unquoteWith, if_neg h, Option.getD_some]

end Py

namespace Paths

/-- Text without a percent sign and without white space. -/
def PlainText (s : Str) : Prop := ∀ c ∈ s, plainChar c = true

theorem PlainText.normalized {s : Str} (h : PlainText s) : unquote (strip s) = s := by
  simp only [PlainText, plainChar, Bool.and_eq_true, bne_iff_ne, Bool.not_eq_true'] at h
  rw [strip_eq_self fun c hc => (h c hc).2, unquote_eq_self fun hc => (h _ hc).1 rfl]

theorem PlainText.append {s t : Str} : PlainText (s ++ t) ↔ PlainText s ∧ PlainText t :=
  List.forall_mem_append

theorem plainText_root : PlainText DATASTORE_PREFIX := by
  unfold PlainText
  decide +kernel

theorem below_eq (t : Str) : DATASTORE_PREFIX ++ t =
    0x2F :: 0x64 :: 0x61 :: 0x74 :: 0x61 :: 0x73 :: 0x74 :: 0x6F :: 0x72 :: 0x65 :: 0x2F :: t := rfl

theorem stripUrl_eq_self {s : Str} (h : ∀ c ∈ s.head?, c ≠ 0x68) : stripUrl s = .ok s := by
  cases s with
  | nil => rfl
  | cons c s =>
    have hc : ¬0x68 = c := fun he => h c rfl he.symm
    refine if_neg ?_
    rintro (hp | hp) <;>
    exact hc (List.cons_prefix_cons.1 (List.isPrefixOf_iff_prefix.1 hp)).1

/-- `t` is no hexadecimal digit. -/
theorem dropUidPrefix_below (t : Str) : dropUidPrefix (DATASTORE_PREFIX ++ t) = DATASTORE_PREFIX ++ t := by
  rw [below_eq]
  unfold dropUidPrefix
  split
  · next rest heq =>
    cases heq
    dsimp only
    split
    · refine if_neg fun h => ?_
      have ht : isHexDigit 0x74 = true := List.all_eq_true.1 h.1 _ (by simp)
      cases ht
    · rfl
  · rfl

theorem addDatastore_below (t : Str) : addDatastore (DATASTORE_PREFIX ++ t) = DATASTORE_PREFIX ++ t := by
  have hprefix : (py "/datastore/").isPrefixOf (DATASTORE_PREFIX ++ t) = true :=
    List.isPrefixOf_iff_prefix.2 (List.prefix_append _ _)
  have hslash : (py "/").isPrefixOf (DATASTORE_PREFIX ++ t) = true := rfl
  unfold addDatastore
  rw [if_pos hslash]
  dsimp only
  split
  · next h => cases h
  · exact if_pos (.inr (.inl hprefix))

/-- A plain path below `/datastore/` is left as it is. -/
theorem normalizePath_below {t : Str} (h : PlainText t) :
    normalizePath (DATASTORE_PREFIX ++ t) = .ok (DATASTORE_PREFIX ++ t) := by
  have htext : PlainText (DATASTORE_PREFIX ++ t) := PlainText.append.2 ⟨plainText_root, h⟩
  have hhead : ∀ c ∈ (DATASTORE_PREFIX ++ t).head?, c ≠ 0x68 := by
    intro c hc
    cases hc
    decide
  unfold normalizePath
  rw [htext.normalized]
  dsimp only
  rw [if_neg (by rw [below_eq]; exact List.cons_ne_nil _ _), stripUrl_eq_self hhead, Except.map,
    dropUidPrefix_below, addDatastore_below]

theorem addDatastore_cases (s : Str) :
    addDatastore s = py "/datastore" ∨ (∃ t, addDatastore s = DATASTORE_PREFIX ++ t) ∨
      addDatastore s = py "/apiversion" ∨ addDatastore s = py "/meters" := by
  have hslash : ∃ t, (if (py "/").isPrefixOf s then s else 0x2F :: s) = 0x2F :: t := by
    split
    · next h =>
      obtain ⟨t, rfl⟩ := List.isPrefixOf_iff_prefix.1 h
      exact ⟨t, rfl⟩
    · exact ⟨s, rfl⟩
  obtain ⟨t, ht⟩ := hslash
  unfold addDatastore
  rw [ht]
  dsimp only
  split
  · exact .inl rfl
  · split
    · next h =>
      rcases h with h | h | h
      · exact .inl h
      · obtain ⟨u, hu⟩ := List.isPrefixOf_iff_prefix.1 h
        exact .inr (.inl ⟨u, hu.symm⟩)
      · exact .inr (.inr h)
    · exact .inr (.inl ⟨t, rfl⟩)

/-- What is normalized is below `/datastore`, or one of two paths that are not. -/
theorem normalizePath_cases {s path : Str} (h : normalizePath s = .ok path) :
    path = py "/datastore" ∨ (∃ t, path = DATASTORE_PREFIX ++ t) ∨ path = py "/apiversion" ∨
      path = py "/meters" := by
  unfold normalizePath at h
  dsimp only at h
  split at h
  · cases h
    exact .inl rfl
  · obtain ⟨url, -, rfl⟩ := except_map_eq_ok.1 h
    exact addDatastore_cases _

end Paths

namespace Schema

/-! ## The target of a member -/

/-- The path that the device writes, as it stands in the frame and in the body. -/
def literalTarget (path key : Str) : Str := if key = py "value" then path else path ++ 0x2F :: key

/-- The segments of the literal target after `/datastore/`. -/
def literalSegments (path key : Str) : List Str :=
  splitOn 0x2F ((literalTarget path key).drop DATASTORE_PREFIX.length)

/-- The entry that the value of a member is checked against. -/
def checkedEntry (path key : Str) : Except Exn (Option PathSchema) := do
  let target ← writeTarget (← writeBase path) key
  findPathSchema target

/-- An rw entry matches the literal target, and is the one that the value is checked against. -/
def SentAsChecked (path key : Str) : Prop :=
  ∃ entry ∈ SCHEMA, entry.permission = .rw ∧
    DATASTORE_PREFIX <+: literalTarget path key ∧ Matches entry (literalSegments path key) ∧
    checkedEntry path key = .ok (some entry)

/-- There is nothing to normalize in the literal target: no percent sign, no white space, no empty
segment, and no second `/datastore/`. -/
structure Unaltered (path key : Str) : Prop where
  plain : PlainText (literalTarget path key)
  segments : ∀ s ∈ literalSegments path key, s ≠ []
  once : ¬DATASTORE_PREFIX ++ py "datastore/" <+: literalTarget path key

theorem SentAsChecked.unaltered {path key : Str} (h : SentAsChecked path key) :
    Unaltered path key := by
  obtain ⟨entry, he, hrw, hprefix, hmatch, -⟩ := h
  have hplain := hmatch.plain he hrw
  obtain ⟨t, ht⟩ := hprefix
  have hsegments : literalSegments path key = splitOn 0x2F t := by
    rw [literalSegments, ← ht, List.drop_left]
  rw [hsegments] at hplain hmatch
  refine ⟨?_, fun s hs => (hplain s (hsegments ▸ hs)).1, ?_⟩
  · rw [← ht]
    refine PlainText.append.2 ⟨plainText_root, fun c hc => ?_⟩
    by_cases hslash : c = 0x2F
    · subst hslash
      decide +kernel
    · obtain ⟨w, hw, hcw⟩ := mem_splitOn_of_mem hc hslash
      exact (hplain w hw).2 c hcw
  · rw [← ht, List.prefix_append_right_inj]
    rintro ⟨u, rfl⟩
    have hsplit : splitOn 0x2F (py "datastore/" ++ u) = py "datastore" :: splitOn 0x2F u := by
      have h := @splitOn_append_sep 0x2F (py "datastore") u
      exact h
    rw [hsplit] at hmatch
    exact hmatch.not_datastore he hrw

theorem findPathSchema_eq_some {target : Str} :
    findPathSchema target = .ok (some entry) ↔ ∃ relative,
      relativeDatastorePath target = .ok (some relative) ∧
      findEntry (requestedSegments relative) = some entry := by
  unfold findPathSchema
  rw [except_map_eq_ok]
  constructor
  · rintro ⟨relative, hrelative, h⟩
    cases relative with
    | none => cases h
    | some relative => exact ⟨relative, hrelative, h⟩
  · rintro ⟨relative, hrelative, h⟩
    exact ⟨some relative, hrelative, h⟩

/-- A member passes if its target has an rw entry, which its value conforms to. -/
theorem validateMember_eq_ok {base key : Str} {value : Json} :
    validateMember base false key value = .ok () ↔ ∃ target entry,
      writeTarget base key = .ok target ∧ findPathSchema target = .ok (some entry) ∧
      entry.permission = .rw ∧ validateValue target entry value = .ok () := by
  unfold validateMember
  rw [except_bind_eq_ok]
  refine exists_congr fun target => ?_
  rw [except_bind_eq_ok]
  constructor
  · rintro ⟨htarget, found, hfound, h⟩
    cases found with
    | none => cases h
    | some entry =>
      obtain ⟨hrw, hvalue⟩ := check_bind_eq_ok.1 h
      exact ⟨entry, htarget, hfound, of_decide_eq_true (require_eq_ok.1 hrw), hvalue⟩
  · rintro ⟨entry, htarget, hfound, hrw, hvalue⟩
    refine ⟨htarget, some entry, hfound, check_bind_eq_ok.2 ⟨?_, hvalue⟩⟩
    exact require_eq_ok.2 (decide_eq_true hrw)

theorem validateMembers_eq_ok {base : Str} {allowUnknown : Bool} {members : List (Str × Json)} :
    validateMembers base allowUnknown members = .ok () ↔
      ∀ m ∈ members, validateMember base allowUnknown m.1 m.2 = .ok () := by
  induction members with
  | nil => exact ⟨fun _ => nofun, fun _ => rfl⟩
  | cons m members ih =>
    rw [List.forall_mem_cons, ← ih]
    exact check_bind_eq_ok

theorem validateDatastoreWriteObject_eq_ok {path : Str} {allowUnknown : Bool}
    {members : List (Str × Json)} :
    validateDatastoreWriteObject path members allowUnknown = .ok () ↔ ∃ relative base,
      relativeDatastorePath path = .ok (some relative) ∧ writeBase path = .ok base ∧
      ∀ m ∈ members, validateMember base allowUnknown m.1 m.2 = .ok () := by
  unfold validateDatastoreWriteObject
  rw [except_bind_eq_ok]
  constructor
  · rintro ⟨relative, hrelative, h⟩
    cases relative with
    | none =>
      obtain ⟨normal, -, h⟩ := except_bind_eq_ok.1 h
      cases h
    | some relative =>
      obtain ⟨base, hbase, h⟩ := except_bind_eq_ok.1 h
      exact ⟨relative, base, hrelative, hbase, validateMembers_eq_ok.1 h⟩
  · rintro ⟨relative, base, hrelative, hbase, h⟩
    exact ⟨some relative, hrelative, except_bind_eq_ok.2 ⟨base, hbase, validateMembers_eq_ok.2 h⟩⟩

/-! ## A target with nothing to normalize -/

/-- The lookup of a path in normal form, if no segment is empty. -/
theorem findPathSchema_normal {t : Str} (hsegments : ∀ s ∈ splitOn 0x2F t, s ≠ [])
    (hnormal : normalizePath (DATASTORE_PREFIX ++ t) = .ok (DATASTORE_PREFIX ++ t)) :
    findPathSchema (DATASTORE_PREFIX ++ t) = .ok (findEntry (splitOn 0x2F t)) := by
  have hbelow : relativeDatastorePath (DATASTORE_PREFIX ++ t) = .ok (some t) := by
    have hprefix : DATASTORE_PREFIX.isPrefixOf (DATASTORE_PREFIX ++ t) = true :=
      List.isPrefixOf_iff_prefix.2 (List.prefix_append _ _)
    unfold relativeDatastorePath
    rw [hnormal, Except.map, hprefix, List.drop_left]
    refine congrArg _ (if_neg ?_)
    rw [below_eq]
    nofun
  have hall : requestedSegments t = splitOn 0x2F t :=
    List.filter_eq_self.2 fun s hs => by simpa using hsegments s hs
  rw [findPathSchema, hbelow, Except.map]
  dsimp only
  rw [hall]

/-- The entry that is found for a plain path matches its segments, if none is empty. -/
theorem matches_of_find {t : Str} (hplain : PlainText t) (hsegments : ∀ s ∈ splitOn 0x2F t, s ≠ [])
    (h : findPathSchema (DATASTORE_PREFIX ++ t) = .ok (some entry)) :
    Matches entry (splitOn 0x2F t) ∧ entry ∈ SCHEMA := by
  rw [findPathSchema_normal hsegments (normalizePath_below hplain)] at h
  exact findEntry_matches (Except.ok.inj h)

/-- A path without empty segments does not end with a slash. -/
theorem writeBase_below {t : Str} (hplain : PlainText t) (hsegments : ∀ s ∈ splitOn 0x2F t, s ≠ []) :
    writeBase (DATASTORE_PREFIX ++ t) = .ok (DATASTORE_PREFIX ++ t) := by
  have hlast : ∀ c ∈ (DATASTORE_PREFIX ++ t).getLast?, decide (c = 0x2F) = false := by
    intro c hc
    refine decide_eq_false ?_
    rintro rfl
    rcases List.eq_nil_or_concat t with rfl | ⟨u, d, rfl⟩
    · exact hsegments [] (List.mem_singleton_self _) rfl
    · rw [List.concat_eq_append, ← List.append_assoc, List.getLast?_concat] at hc
      cases hc
      refine hsegments [] ?_ rfl
      rw [List.concat_eq_append, splitOn_append_sep]
      exact List.mem_append_right _ (List.mem_singleton_self _)
  rw [writeBase, normalizePath_below hplain, Except.map, rstripBy_eq_self hlast]

/-- Below `/datastore/`, the target is the literal one. -/
theorem Unaltered.target_below {t key base target : Str}
    (h : Unaltered (DATASTORE_PREFIX ++ t) key) (hkey : ¬(py "/").isPrefixOf key = true)
    (hbase : writeBase (DATASTORE_PREFIX ++ t) = .ok base)
    (htarget : writeTarget base key = .ok target) :
    target = literalTarget (DATASTORE_PREFIX ++ t) key ∧
      DATASTORE_PREFIX <+: literalTarget (DATASTORE_PREFIX ++ t) key := by
  obtain ⟨hplain, hsegments, -⟩ := h
  unfold literalSegments literalTarget at hsegments
  unfold literalTarget at hplain ⊢
  unfold writeTarget at htarget
  by_cases hvalue : key = py "value"
  · rw [if_pos hvalue] at htarget hplain hsegments ⊢
    rw [List.drop_left] at hsegments
    rw [writeBase_below (PlainText.append.1 hplain).2 hsegments] at hbase
    cases hbase
    cases htarget
    exact ⟨rfl, List.prefix_append _ _⟩
  · rw [if_neg hvalue, List.append_assoc] at hplain hsegments ⊢
    rw [if_neg hvalue] at htarget
    rw [List.drop_left, splitOn_append_sep] at hsegments
    have hrest := (PlainText.append.1 hplain).2
    rw [writeBase_below (PlainText.append.1 hrest).1
      fun s hs => hsegments s (List.mem_append_left _ hs)] at hbase
    cases hbase
    have hroot : ¬DATASTORE_PREFIX ++ t = py "/datastore" := nofun
    rw [if_neg hkey, if_neg hroot, List.append_assoc, normalizePath_below hrest] at htarget
    cases htarget
    exact ⟨rfl, List.prefix_append _ _⟩

/-- A key of the root, written out. -/
theorem normalizePath_key {key : Str} (hplain : PlainText key)
    (hsegments : ∀ s ∈ splitOn 0x2F key, s ≠ []) (hkey : ¬(py "/").isPrefixOf key = true)
    (honce : ¬py "datastore/" <+: key) :
    normalizePath key = .ok (DATASTORE_PREFIX ++ key) ∨
      normalizePath key ∈ [.ok (py "/datastore"), .ok (py "/apiversion"), .ok (py "/meters")] := by
  have hne : key ≠ [] := by
    rintro rfl
    exact hsegments [] (List.mem_singleton_self _) rfl
  have hurl : stripUrl key = .ok key := by
    refine if_neg ?_
    have hempty {u v : Str} (he : key = u ++ 0x2F :: 0x2F :: v) : False := by
      refine hsegments [] ?_ rfl
      rw [he, splitOn_append_sep, splitOn_sep]
      exact List.mem_append_right _ (List.mem_cons_self ..)
    rintro (h | h)
    · obtain ⟨v, hv⟩ := List.isPrefixOf_iff_prefix.1 h
      exact @hempty (py "http:") v hv.symm
    · obtain ⟨v, hv⟩ := List.isPrefixOf_iff_prefix.1 h
      exact @hempty (py "https:") v hv.symm
  have huid : dropUidPrefix key = key := by
    unfold dropUidPrefix
    split
    · exact absurd rfl hkey
    · rfl
  unfold normalizePath
  rw [hplain.normalized]
  dsimp only
  rw [if_neg hne, hurl, Except.map, huid, addDatastore, if_neg hkey]
  have hslash : ¬0x2F :: key = py "/" := fun h => hne (List.cons.inj h).2
  rw [if_neg hslash]
  split
  · next h =>
    rcases h with h | h | h | h
    · exact .inr (by rw [h]; decide)
    · exact absurd (List.cons_prefix_cons.1 (List.isPrefixOf_iff_prefix.1 h)).2 honce
    · exact .inr (by rw [h]; decide)
    · exact .inr (by rw [h]; decide)
  · exact .inl rfl

/-- In the root, it is the literal one too, unless there is no entry for it. -/
theorem Unaltered.target_root {key base target : Str} (h : Unaltered (py "/datastore") key)
    (hkey : ¬(py "/").isPrefixOf key = true) (hbase : writeBase (py "/datastore") = .ok base)
    (htarget : writeTarget base key = .ok target)
    (hentry : findPathSchema target = .ok (some entry)) :
    target = literalTarget (py "/datastore") key ∧
      DATASTORE_PREFIX <+: literalTarget (py "/datastore") key := by
  have hnone : ∀ path ∈ [py "/datastore", py "/apiversion", py "/meters"],
      findPathSchema path = .ok none := by
    simp only [findPathSchema_eq]
    decide +kernel
  have habsurd {path : Str} (hpath : path ∈ [py "/datastore", py "/apiversion", py "/meters"])
      (heq : target = path) : False := by
    rw [heq, hnone path hpath] at hentry
    cases hentry
  obtain ⟨hplain, hsegments, honce⟩ := h
  unfold literalSegments literalTarget at hsegments
  unfold literalTarget at hplain honce ⊢
  have hroot : writeBase (py "/datastore") = .ok (py "/datastore") := by decide
  cases hroot.symm.trans hbase
  unfold writeTarget at htarget
  by_cases hvalue : key = py "value"
  · rw [if_pos hvalue] at htarget
    cases htarget
    exact (habsurd (by decide) rfl).elim
  · have hliteral : py "/datastore" ++ 0x2F :: key = DATASTORE_PREFIX ++ key := rfl
    rw [if_neg hvalue, hliteral] at hplain hsegments honce ⊢
    rw [List.drop_left] at hsegments
    rw [List.prefix_append_right_inj] at honce
    rw [if_neg hvalue, if_neg hkey, if_pos rfl] at htarget
    rcases normalizePath_key (PlainText.append.1 hplain).2 hsegments hkey honce with hn | hn
    · cases hn.symm.trans htarget
      exact ⟨rfl, List.prefix_append _ _⟩
    · rw [htarget] at hn
      simp only [List.mem_cons, Except.ok.injEq, List.not_mem_nil, or_false] at hn
      rcases hn with hn | hn | hn <;> exact (habsurd (by simp) hn).elim

/-- A member that passed is checked as it is sent, if there is nothing to normalize. -/
theorem Unaltered.sentAsChecked {request path key base relative : Str} {value : Json}
    (h : Unaltered path key) (hpath : normalizePath request = .ok path)
    (hrelative : relativeDatastorePath path = .ok (some relative))
    (hkey : ¬(py "/").isPrefixOf key = true) (hbase : writeBase path = .ok base)
    (hmember : validateMember base false key value = .ok ()) : SentAsChecked path key := by
  obtain ⟨target, entry, htarget, hentry, hrw, -⟩ := validateMember_eq_ok.1 hmember
  have hnone : ∀ path ∈ [py "/apiversion", py "/meters"],
      relativeDatastorePath path = .ok none := by decide
  have hliteral : target = literalTarget path key ∧ DATASTORE_PREFIX <+: literalTarget path key := by
    rcases normalizePath_cases hpath with rfl | ⟨t, rfl⟩ | hother
    · exact h.target_root hkey hbase htarget hentry
    · exact h.target_below hkey hbase htarget
    · cases (hnone path (by simpa using hother)).symm.trans hrelative
  obtain ⟨rfl, hprefix⟩ := hliteral
  have hchecked : checkedEntry path key = .ok (some entry) := by
    exact except_bind_eq_ok.2 ⟨base, hbase, except_bind_eq_ok.2 ⟨_, htarget, hentry⟩⟩
  obtain ⟨hplain, hsegments, -⟩ := h
  obtain ⟨t, ht⟩ := hprefix
  have hsplit : literalSegments path key = splitOn 0x2F t := by
    rw [literalSegments, ← ht, List.drop_left]
  rw [← ht] at hplain hentry
  rw [hsplit] at hsegments
  obtain ⟨hmatch, he⟩ := matches_of_find (PlainText.append.1 hplain).2 hsegments hentry
  exact ⟨entry, he, hrw, ⟨t, ht⟩, hsplit ▸ hmatch, hchecked⟩

end Schema

namespace Dispatch.DatastoreDispatcher

/-! ## What is sent -/

variable {σ : Type} {d : DatastoreDispatcher σ} {a : DispatchArgs} {s : σ} {call : WriteCall}

/-- The calls of `run_post` that a dispatch makes. -/
def forwarded (d : DatastoreDispatcher σ) (a : DispatchArgs) (s : σ) : List WriteCall :=
  (finalState (d.recorded.dispatchDatastoreRequest a (s, []))).2

/-- The object that the body of a write decodes to. -/
def writeObject (d : DatastoreDispatcher σ) (a : DispatchArgs) : Except Exn (List (Str × Json)) :=
  parseWriteBody a.rawBody a.contentType >>= loadJsonObject d.recursionDepth

/-- The path that a write is forwarded with. -/
def writePath (a : DispatchArgs) : Except Exn Str :=
  parseRequestPath a.requestPath >>= fun url => normalizePath url.path

/-- The members whose target is below the path. -/
def relativeKey (key : Str) : Prop := key = py "value" ∨ ¬(py "/").isPrefixOf key = true

theorem relativeKey_iff {key : Str} : relativeKey key ↔ ¬(py "/").isPrefixOf key = true := by
  refine ⟨?_, .inr⟩
  rintro (rfl | h)
  · decide
  · exact h

theorem forwarded_eq (s : σ) : d.forwarded a s = d.callsOf a :=
  (@dispatchDatastoreRequest_made σ d a []).finalState (s := (s, [])) rfl

theorem mem_forwarded :
    call ∈ d.forwarded a s ↔ a.method ≠ .GET ∧ d.preparedCall a = .ok call := by
  rw [forwarded_eq, callsOf]
  split
  · next hm => simp [hm]
  · next hm => cases d.preparedCall a <;> simp [hm, Except.toOption, eq_comm]

/-- A write that is forwarded has been validated. -/
theorem validated_of_forwarded (hv : d.validateWrites = true) (hcall : call ∈ d.forwarded a s) :
    writePath a = .ok call.path ∧ ∃ object, d.writeObject a = .ok object ∧
      validateDatastoreWriteObject call.path object d.allowUnknownWrites = .ok () := by
  obtain ⟨hm, hcall⟩ := mem_forwarded.1 hcall
  obtain ⟨⟨url, hurl, hpath⟩, -, -, hbody⟩ := (preparedCall_eq_ok hm).1 hcall
  obtain ⟨text, object, htext, hobject, -, hvalid⟩ := hbody.accepted
  refine ⟨except_bind_eq_ok.2 ⟨url, ?_, hpath⟩, object,
    except_bind_eq_ok.2 ⟨text, htext, hobject⟩, hvalid hv⟩
  rw [parseRequestPath, hurl]

/-- The path that is validated is the path that is sent exactly if there is nothing to normalize in
the path and the keys of the request. -/
theorem sentAsChecked_iff (d : DatastoreDispatcher σ) (a : DispatchArgs) (s : σ) (call : WriteCall)
    (hv : d.validateWrites = true) (hu : d.allowUnknownWrites = false)
    (hcall : call ∈ d.forwarded a s) :
    (∀ object, d.writeObject a = .ok object → ∀ m ∈ object, relativeKey m.1 →
      SentAsChecked call.path m.1) ↔
    (∀ path object, writePath a = .ok path → d.writeObject a = .ok object → ∀ m ∈ object,
      relativeKey m.1 → Unaltered path m.1) := by
  obtain ⟨hpath, object, hobject, hvalid⟩ := validated_of_forwarded hv hcall
  rw [hu, validateDatastoreWriteObject_eq_ok] at hvalid
  obtain ⟨relative, base, hrelative, hbase, hmembers⟩ := hvalid
  constructor
  · intro h path object' hpath' hobject' m hm hkey
    cases hpath.symm.trans hpath'
    exact (h object' hobject' m hm hkey).unaltered
  · intro h object' hobject' m hm hkey
    cases hobject.symm.trans hobject'
    obtain ⟨url, -, hnormal⟩ := except_bind_eq_ok.1 hpath
    exact (h call.path object hpath hobject m hm hkey).sentAsChecked hnormal hrelative
      (relativeKey_iff.1 hkey) hbase (hmembers m hm)

/-- A dispatcher that allows writes. -/
def writable : DatastoreDispatcher Unit where
  allowWrites := true
  runGet _ _ _ _ := pure (.bytes [])
  runPost _ := pure (.bytes [])

/-- A write to a fader. -/
def faderWrite (requestPath rawBody : String) : DispatchArgs where
  method := .POST
  requestPath := py requestPath
  rawBody := py rawBody
  host := some (py "localhost:1280")

/-- The call that a write comes to. -/
def faderCall (path rawBody : String) : WriteCall where
  path := py path
  body := (py rawBody).map UInt8.ofNat
  client := none

/-- A write that would be forwarded without validation is forwarded if it passes. -/
theorem mem_forwarded_of_unvalidated {object : List (Str × Json)} (hm : a.method ≠ .GET)
    (h : { d with validateWrites := false }.preparedCall a = .ok call)
    (hobject : d.writeObject a = .ok object)
    (hvalid : validateDatastoreWriteObject call.path object d.allowUnknownWrites = .ok ()) :
    call ∈ d.forwarded a s := by
  obtain ⟨hpath, hclient, hheaders, hbody⟩ := (preparedCall_eq_ok hm).1 h
  obtain ⟨text, object', htext, hobject', hbytes, -⟩ := hbody.accepted
  have heq : d.writeObject a = .ok object' := except_bind_eq_ok.2 ⟨text, htext, hobject'⟩
  cases hobject.symm.trans heq
  refine mem_forwarded.2 ⟨hm, (preparedCall_eq_ok hm).2 ⟨hpath, hclient, ⟨hheaders.1, hheaders.2,
    hheaders.3, hheaders.4⟩, ⟨text, object, htext, hobject', hbytes, fun _ => hvalid⟩, hbody.fits⟩⟩

theorem validateMember_fader {base key : Str} {n : Int}
    (htarget : writeTarget base key = .ok (py "/datastore/mix/chan/0/matrix/fader"))
    (hvalue : validateValue (py "/datastore/mix/chan/0/matrix/fader")
      (rangeRow "mix/chan/<index>/matrix/fader" "real" .rw 0 4) (.int n) = .ok ()) :
    validateMember base false key (.int n) = .ok () :=
  validateMember_eq_ok.2 ⟨_, _, htarget, findPathSchema_fader, rfl, hvalue⟩

theorem forwarded_fader : faderCall "/datastore/mix/chan/0/matrix" "\x7b\"fader\": 1\x7d" ∈
    writable.forwarded (faderWrite "/datastore/mix/chan/0/matrix" "\x7b\"fader\": 1\x7d") () := by
  refine @mem_forwarded_of_unvalidated _ _ _ _ _ [(py "fader", .int 1)] (by decide)
    (by decide +kernel) rfl ?_
  refine validateDatastoreWriteObject_eq_ok.2 ⟨py "mix/chan/0/matrix", py "/datastore/mix/chan/0/matrix",
    by decide +kernel, by decide +kernel, List.forall_mem_singleton.2 ?_⟩
  exact validateMember_fader (by decide +kernel) (by decide +kernel)

theorem sentAsChecked_fader :
    faderCall "/datastore/mix/chan/0/matrix" "\x7b\"fader\": 1\x7d" ∈
      writable.forwarded (faderWrite "/datastore/mix/chan/0/matrix" "\x7b\"fader\": 1\x7d") () ∧
    ∀ object, writable.writeObject (faderWrite "/datastore/mix/chan/0/matrix" "\x7b\"fader\": 1\x7d") =
      .ok object → ∀ m ∈ object, relativeKey m.1 →
        SentAsChecked (py "/datastore/mix/chan/0/matrix") m.1 := by
  refine ⟨forwarded_fader, (sentAsChecked_iff writable _ () _ rfl rfl forwarded_fader).2 ?_⟩
  intro path object hpath hobject m hm _
  have hpath' : writePath (faderWrite "/datastore/mix/chan/0/matrix" "\x7b\"fader\": 1\x7d") =
      .ok (py "/datastore/mix/chan/0/matrix") := by decide +kernel
  have hobject' : writable.writeObject (faderWrite "/datastore/mix/chan/0/matrix"
      "\x7b\"fader\": 1\x7d") = .ok [(py "fader", .int 1)] := rfl
  cases hpath'.symm.trans hpath
  cases hobject'.symm.trans hobject
  rw [List.mem_singleton.1 hm]
  refine ⟨?_, by decide +kernel, by decide +kernel⟩
  unfold PlainText
  decide +kernel

/-- The path is decoded once before it is sent and twice before it is checked. -/
theorem double_encoded_not_sentAsChecked :
    ¬∀ (d : DatastoreDispatcher Unit) (a : DispatchArgs) (s : Unit) (call : WriteCall),
      d.validateWrites = true → d.allowUnknownWrites = false → call ∈ d.forwarded a s →
      ∀ object, d.writeObject a = .ok object → ∀ m ∈ object, relativeKey m.1 →
        SentAsChecked call.path m.1 := by
  intro h
  have hobject : writable.writeObject (faderWrite "/datastore/mix/chan/0/matrix/fad%2565r"
      "\x7b\"value\": 1\x7d") = .ok [(py "value", .int 1)] := rfl
  have hforward : faderCall "/datastore/mix/chan/0/matrix/fad%65r" "\x7b\"value\": 1\x7d" ∈
      writable.forwarded (faderWrite "/datastore/mix/chan/0/matrix/fad%2565r"
        "\x7b\"value\": 1\x7d") () := by
    refine mem_forwarded_of_unvalidated (by decide) (by decide +kernel) hobject ?_
    refine validateDatastoreWriteObject_eq_ok.2 ⟨py "mix/chan/0/matrix/fader",
      py "/datastore/mix/chan/0/matrix/fader", by decide +kernel, by decide +kernel,
      List.forall_mem_singleton.2 ?_⟩
    exact validateMember_fader (by decide +kernel) (by decide +kernel)
  have hsent := h writable _ () _ rfl rfl hforward _ hobject _ (List.mem_singleton_self _) (.inl rfl)
  have hplain := hsent.unaltered.plain 0x25 (by decide +kernel)
  cases hplain

end Dispatch.DatastoreDispatcher

end MotuProxy
