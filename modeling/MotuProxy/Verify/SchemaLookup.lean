import MotuProxy.Verify.SchemaLanguage

/-! # The lookup is unambiguous

No two entries of the schema match the same segments: at some position one of the two has a literal
that the other does not accept (`schema_apart`). What `find_path_schema` finds is then the only entry
that matches, in whatever order the entries stand and whichever of two matches it would prefer.
-/

namespace MotuProxy

open Py Paths

namespace Schema

/-! ## Patterns that no segments match both -/

variable {p q segment : Str} {segments : List Str}

/-- The segment is the pattern or fills its placeholder. -/
def accepts (pattern segment : Str) : Bool := pattern = segment || placeholderMatches pattern segment

def isLiteral (pattern : Str) : Bool := (searchPlaceholder pattern).isNone

/-- One of the patterns is a literal, and the other does not accept it. -/
def disjoint (p q : Str) : Bool := (!accepts q p && isLiteral p) || (!accepts p q && isLiteral q)

/-- The lists differ in length, or are disjoint at some position. -/
def apart : List Str → List Str → Bool
  | p :: ps, q :: qs => disjoint p q || apart ps qs
  | [], [] => false
  | _, _ => true

theorem eq_of_isLiteral (hp : isLiteral p = true) (h : accepts p segment = true) : p = segment := by
  rw [isLiteral, Option.isNone_iff_eq_none] at hp
  have hno : placeholderMatches p segment = false := by rw [placeholderMatches, hp]
  simpa [accepts, hno] using h

theorem disjoint_sound (h : disjoint p q = true) (hp : accepts p segment = true)
    (hq : accepts q segment = true) : False := by
  simp only [disjoint, Bool.or_eq_true, Bool.and_eq_true, Bool.not_eq_true'] at h
  rcases h with ⟨hno, hlit⟩ | ⟨hno, hlit⟩
  · rw [eq_of_isLiteral hlit hp, hq] at hno
    cases hno
  · rw [eq_of_isLiteral hlit hq, hp] at hno
    cases hno

theorem apart_sound {ps qs : List Str} (h : apart ps qs = true)
    (hp : List.Forall₂ (accepts · · = true) ps segments)
    (hq : List.Forall₂ (accepts · · = true) qs segments) : False := by
  induction hp generalizing qs with
  | nil =>
    cases hq
    cases h
  | cons hp _ ih =>
    cases hq with
    | cons hq hqs =>
      rcases Bool.or_eq_true_iff.1 h with h | h
      · exact disjoint_sound h hp hq
      · exact ih h hqs

theorem accepts_of_matches {entry : PathSchema} (h : Matches entry segments) :
    List.Forall₂ (accepts · · = true) entry.segments segments := by
  refine (matches_iff.1 h).imp fun p s hps => ?_
  simpa [accepts] using hps

/-! ## The entries of the table -/

/-- Each list is apart from those after it. -/
def allApart : List (List Str) → Bool
  | [] => true
  | ps :: rest => rest.all (apart ps) && allApart rest

theorem pairwise_of_allApart {lists : List (List Str)} (h : allApart lists = true) :
    lists.Pairwise (apart · · = true) := by
  induction lists with
  | nil => exact .nil
  | cons ps rest ih =>
    simp only [allApart, Bool.and_eq_true, List.all_eq_true] at h
    exact .cons h.1 (ih h.2)

theorem schema_apart : SCHEMA.Pairwise fun e e' => apart e.segments e'.segments = true := by
  have htable : allApart (SCHEMA.map PathSchema.segments) = true := by
    rw [schemaTable.2]
    decide +kernel
  exact List.pairwise_map.1 (pairwise_of_allApart htable)

/-- The entry has a match score for the segments. -/
def isMatch (segments : List Str) (entry : PathSchema) : Bool :=
  (matchScore entry.segments segments).isSome

theorem length_matches_le_one (segments : List Str) :
    (SCHEMA.filter (isMatch segments)).length ≤ 1 := by
  have happart := schema_apart.filter (isMatch segments)
  have hmatch : ∀ e ∈ SCHEMA.filter (isMatch segments), Matches e segments :=
    fun e he => (List.mem_filter.1 he).2
  match hfound : SCHEMA.filter (isMatch segments) with
  | [] => exact Nat.zero_le 1
  | [_] => exact Nat.le_refl 1
  | e :: e' :: rest =>
    rw [hfound] at happart hmatch
    have h := List.rel_of_pairwise_cons happart (List.mem_cons_self ..)
    exact (apart_sound h (accepts_of_matches (hmatch e (by simp)))
      (accepts_of_matches (hmatch e' (by simp)))).elim

/-! ## Another order and another preference -/

/-- The loop of `find_path_schema`, with the scores compared by `better`. -/
def selectMatch (better : Nat × Nat → Nat × Nat → Bool) (requested : List Str) :
    List PathSchema → Option ((Nat × Nat) × PathSchema) → Option ((Nat × Nat) × PathSchema)
  | [], best => best
  | entry :: entries, best =>
    match matchScore entry.segments requested with
    | none => selectMatch better requested entries best
    | some score =>
      selectMatch better requested entries <| match best with
        | none => some (score, entry)
        | some (bestScore, bestEntry) =>
          if better bestScore score then some (score, entry) else some (bestScore, bestEntry)

/-- `find_path_schema`, over the entries of `table` and with the scores compared by `better`. -/
def findPathSchemaBy (table : List PathSchema) (better : Nat × Nat → Nat × Nat → Bool) (path : Str) :
    Except Exn (Option PathSchema) :=
  (relativeDatastorePath path).map fun
    | none => none
    | some relative =>
      let requested := requestedSegments relative
      (selectMatch better requested (table.filter fun entry =>
        entry.segments.length = requested.length) none).map (·.2)

variable {table entries : List PathSchema} {better : Nat × Nat → Nat × Nat → Bool}
  {best : Option ((Nat × Nat) × PathSchema)} {requested : List Str}

theorem bestMatch_eq_selectMatch :
    bestMatch requested entries best = selectMatch scoreLt requested entries best := by
  induction entries generalizing best with
  | nil => rfl
  | cons e entries ih =>
    rw [bestMatch, selectMatch]
    cases matchScore e.segments requested with
    | none => exact ih
    | some score => exact ih

theorem findPathSchema_eq_by (path : Str) :
    findPathSchema path = findPathSchemaBy SCHEMA scoreLt path := by
  rw [findPathSchema, findPathSchemaBy]
  congr 1
  funext relative
  cases relative with
  | none => rfl
  | some relative =>
    change findEntry (requestedSegments relative) = _
    rw [findEntry, schemaBySegmentCount, bestMatch_eq_selectMatch]

theorem selectMatch_filter : selectMatch better requested entries best =
    selectMatch better requested (entries.filter (isMatch requested)) best := by
  induction entries generalizing best with
  | nil => rfl
  | cons e entries ih =>
    cases hscore : matchScore e.segments requested with
    | none =>
      have hno : ¬isMatch requested e = true := by simp [isMatch, hscore]
      rw [List.filter_cons_of_neg hno, selectMatch, hscore]
      exact ih
    | some score =>
      have hyes : isMatch requested e = true := by simp [isMatch, hscore]
      rw [List.filter_cons_of_pos hyes, selectMatch, selectMatch, hscore]
      exact ih

/-- Where at most one entry matches, that one is selected. -/
theorem selectMatch_eq_head? (h : (entries.filter (isMatch requested)).length ≤ 1) :
    (selectMatch better requested entries none).map (·.2) =
      (entries.filter (isMatch requested)).head? := by
  rw [selectMatch_filter]
  match hfound : entries.filter (isMatch requested) with
  | [] => rfl
  | [e] =>
    have hmatch : isMatch requested e = true :=
      (List.mem_filter.1 (hfound ▸ List.mem_singleton_self e)).2
    obtain ⟨score, hscore⟩ := Option.isSome_iff_exists.1 hmatch
    rw [selectMatch, hscore]
    rfl
  | _ :: _ :: _ =>
    rw [hfound] at h
    simp at h

theorem eq_of_perm {l l' : List PathSchema} (h : l.Perm l') (hlen : l'.length ≤ 1) : l = l' := by
  match l', hlen with
  | [], _ => exact h.eq_nil
  | [_], _ => exact h.eq_singleton

theorem findPathSchemaBy_perm (h : table.Perm SCHEMA) (path : Str) :
    findPathSchemaBy table better path = findPathSchema path := by
  rw [findPathSchema_eq_by, findPathSchemaBy, findPathSchemaBy]
  congr 1
  funext relative
  cases relative with
  | none => rfl
  | some relative =>
    dsimp only
    generalize requestedSegments relative = requested
    have hfilter := (h.filter fun entry : PathSchema =>
      entry.segments.length = requested.length).filter (isMatch requested)
    have hlen : ((SCHEMA.filter fun entry : PathSchema => entry.segments.length =
        requested.length).filter (isMatch requested)).length ≤ 1 := by
      rw [List.filter_comm]
      exact (List.length_filter_le _ _).trans (length_matches_le_one requested)
    rw [selectMatch_eq_head? hlen, selectMatch_eq_head? (hfilter.length_eq.trans_le hlen)]
    rw [eq_of_perm hfilter hlen]

/-- At most one entry of the schema has a score for the segments of a path, so neither the order of the
entries nor the comparison of the scores matters to what is found. -/
theorem lookup_unambiguous :
    (∀ segments : List Str, (SCHEMA.filter (isMatch segments)).length ≤ 1) ∧
      ∀ (table : List PathSchema) (better : Nat × Nat → Nat × Nat → Bool) (path : Str),
        table.Perm SCHEMA → findPathSchemaBy table better path = findPathSchema path :=
  ⟨length_matches_le_one, fun _ _ path h => findPathSchemaBy_perm h path⟩

theorem lookup_unambiguous_reversed :
    findPathSchemaBy SCHEMA.reverse (fun _ _ => true) (py "/datastore/mix/chan/0/matrix/fader") =
      .ok (some (rangeRow "mix/chan/<index>/matrix/fader" "real" .rw 0 4)) :=
  (lookup_unambiguous.2 _ _ _ SCHEMA.reverse_perm).trans findPathSchema_fader

end Schema

end MotuProxy
