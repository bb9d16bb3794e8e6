import Mathlib.Data.List.TakeWhile
import MotuProxy.Lib.JsonText
import MotuProxy.Verify.Envelope

/-! # The JSON scanners

`is_single_json_container` and `extract_json_bytes` find the end of a container without parsing it.
Each leaves a text inside a container behind in the state in which it reached it (`balanced_closed`,
`skipped_closed`), by the rule `JsonText.Closed.of_serialises` for the grammar.
-/

namespace MotuProxy

open JsonText Protocol

namespace Responses

/-! ## One container -/

section

variable {stack : List UInt8} {rest : Bytes}

attribute [local simp] scanContainer

theorem scanContainer_quote :
    scanContainer stack false false (0x22 :: rest) = scanContainer stack true false rest := by
  simp

theorem scanContainer_unquote :
    scanContainer stack true false (0x22 :: rest) = scanContainer stack false false rest := by
  simp

theorem scanContainer_bracket :
    scanContainer stack false false (0x5B :: rest) =
      scanContainer (0x5D :: stack) false false rest := by
  simp

theorem scanContainer_brace :
    scanContainer stack false false (0x7B :: rest) =
      scanContainer (0x7D :: stack) false false rest := by
  simp

/-- The closing bracket that is owed; with none left, the text has to end here. -/
theorem scanContainer_close (h : b = 0x5D ∨ b = 0x7D) :
    scanContainer (b :: stack) false false (b :: rest) =
      if stack = [] then decide (rest = []) else scanContainer stack false false rest := by
  rcases h with rfl | rfl <;> simp

end

/-- Between quotes, the text does not end the string. -/
def InsideString (t : Bytes) : Prop := ∀ stack rest,
  scanContainer stack true false (t ++ rest) = scanContainer stack true false rest

/-- Inside a container, the text leaves the stack as it was. -/
def Balanced (s : Bytes) : Prop := ∀ stack rest, stack ≠ [] →
  scanContainer stack false false (s ++ rest) = scanContainer stack false false rest

theorem insideString_closed : CharsClosed InsideString where
  nil _ _ := rfl
  append hs ht stack rest := by rw [List.append_assoc, hs, ht]
  plain hb stack rest := by simp [scanContainer, hb.1, hb.2]
  escape b stack rest := by simp [scanContainer]

theorem balanced_string (h : StringText cs s) : Balanced s := by
  cases h with
  | mk hcs =>
    intro stack rest _
    rw [List.cons_append, List.cons_append, List.append_assoc, scanContainer_quote,
      insideString_closed.of_charsText hcs]
    exact scanContainer_unquote

theorem balanced_closed : Closed Balanced where
  nil _ _ _ := rfl
  append hs ht stack rest hstack := by rw [List.append_assoc, hs _ _ hstack, ht _ _ hstack]
  plain hb stack rest hstack := by
    obtain ⟨hquote, hopen, hclose, hopen', hclose'⟩ := hb
    simp [scanContainer, hquote, hopen, hclose, hopen', hclose']
  string := balanced_string
  brackets hs stack rest hstack := by
    rw [List.cons_append, List.cons_append, List.append_assoc, scanContainer_bracket,
      hs _ _ (List.cons_ne_nil _ _)]
    exact (scanContainer_close (.inl rfl)).trans (if_neg hstack)
  braces hs stack rest hstack := by
    rw [List.cons_append, List.cons_append, List.append_assoc, scanContainer_brace,
      hs _ _ (List.cons_ne_nil _ _)]
    exact (scanContainer_close (.inr rfl)).trans (if_neg hstack)

theorem isJsonSpace_iff : isJsonSpace b = true ↔ IsBlank b := by
  simp only [isJsonSpace, IsBlank, Bool.or_eq_true, beq_iff_eq]
  tauto

/-- White space before a text is passed over. -/
theorem dropWhile_blank {w s : Bytes} (hw : Blank w) (hs : ∀ b ∈ s.head?, ¬IsBlank b) :
    (w ++ s).dropWhile isJsonSpace = s := by
  rw [List.dropWhile_append_of_pos fun b hb => isJsonSpace_iff.mpr (hw b hb)]
  cases s with
  | nil => rfl
  | cons b s => exact List.dropWhile_cons_of_neg fun h => hs b rfl (isJsonSpace_iff.mp h)

/-- A text between two bytes that are no white space, without the white space around it. -/
theorem trim_text {t tail : Bytes} {o c : UInt8} (hw : Blank w) (ho : ¬IsBlank o)
    (hc : ¬IsBlank c) :
    ∃ tail', (((w ++ (o :: t ++ [c] ++ tail)).dropWhile isJsonSpace).reverse.dropWhile
        isJsonSpace).reverse = o :: (t ++ ([c] ++ tail')) ∧ (tail' = [] ↔ Blank tail) := by
  have hstop : ([c] ++ (o :: t).reverse).dropWhile isJsonSpace = [c] ++ (o :: t).reverse :=
    List.dropWhile_cons_of_neg fun h => hc (isJsonSpace_iff.mp h)
  refine ⟨(tail.reverse.dropWhile isJsonSpace).reverse, ?_, ?_⟩
  · rw [dropWhile_blank hw (by rintro b ⟨⟩; exact ho), List.reverse_append, List.reverse_append,
      List.reverse_singleton, List.dropWhile_append, hstop]
    split
    · next hempty => simp [List.isEmpty_iff.mp hempty]
    · simp
  · rw [List.reverse_eq_nil_iff, List.dropWhile_eq_nil_iff]
    simp only [List.mem_reverse, isJsonSpace_iff, Blank]

theorem Balanced.scan (ht : Balanced t) (hc : c = 0x5D ∨ c = 0x7D) (tail : Bytes) :
    scanContainer [c] false false (t ++ ([c] ++ tail)) = decide (tail = []) := by
  rw [ht _ _ (List.cons_ne_nil _ _), List.singleton_append, scanContainer_close hc, if_pos rfl]

/-- A container with bytes after it is a single container if these are white space. -/
theorem isSingleJsonContainer_iff {tail : Bytes} (hw : Blank w) (h : Serialises (.value v) s)
    (hv : v.IsContainer) : isSingleJsonContainer (w ++ (s ++ tail)) = true ↔ Blank tail := by
  obtain ⟨t, ht, rfl | rfl⟩ := balanced_closed.of_container h hv
  · obtain ⟨tail', htrim, hblank⟩ := @trim_text w t tail 0x5B 0x5D hw (by decide) (by decide)
    rw [isSingleJsonContainer, htrim, ← hblank]
    change scanContainer [0x5D] false false _ = true ↔ _
    rw [ht.scan (.inl rfl), decide_eq_true_eq]
  · obtain ⟨tail', htrim, hblank⟩ := @trim_text w t tail 0x7B 0x7D hw (by decide) (by decide)
    rw [isSingleJsonContainer, htrim, ← hblank]
    change scanContainer [0x7D] false false _ = true ↔ _
    rw [ht.scan (.inr rfl), decide_eq_true_eq]

/-- Of values one after the other, the first of them a container, one alone is a single
container. -/
theorem single_container_iff (hv : v.IsContainer) (h : Sequence (v :: vs) s) :
    isSingleJsonContainer s = true ↔ vs = [] := by
  cases h with
  | one hone =>
    cases hone with
    | element hw hs hw' =>
      rw [List.append_assoc, isSingleJsonContainer_iff hw hs hv]
      exact iff_of_true hw' rfl
  | cons hone hvs =>
    cases hone with
    | element hw hs hw' =>
      rw [List.append_assoc, List.append_assoc, isSingleJsonContainer_iff hw hs hv]
      refine iff_of_false (fun hblank => ?_) ?_
      · exact hvs.not_blank fun b hb => hblank b (by simp [hb])
      · rintro rfl
        cases hvs

/-- An object with a brace and an escaped quote in its strings. -/
def bracesInStrings : Bytes := ascii "\x7b \"\x7d\": \"\\\"\" \x7d"

def bracesValue : Value := .object [([0x7D], .string [0x22])]

theorem bracesInStrings_serialises : Serialises (.value bracesValue) bracesInStrings := by
  have hspace : Blank [0x20] := by decide +kernel
  have hname : StringText [0x7D] [0x22, 0x7D, 0x22] :=
    .mk (.cons (.unescaped '\x7d' (by decide) (by decide) (by decide)) .nil)
  have hvalue : StringText [0x22] [0x22, 0x5C, 0x22, 0x22] := .mk (.cons (.short (by decide)) .nil)
  exact .object (.oneMember (.member hspace hname (show Blank [] by decide +kernel)
    (.element hspace (.string hvalue) hspace)))

theorem single_container_braces :
    isSingleJsonContainer bracesInStrings = true ∧
      isSingleJsonContainer (bracesInStrings ++ bracesInStrings) = false := by
  have helement : Serialises (.element bracesValue) bracesInStrings := by
    have hnone : Blank [] := by decide +kernel
    simpa using Serialises.element hnone bracesInStrings_serialises hnone
  refine ⟨(single_container_iff (v := bracesValue) trivial (.one helement)).mpr rfl, ?_⟩
  rw [← Bool.not_eq_true, single_container_iff (v := bracesValue) trivial
    (.cons helement (.one helement))]
  exact List.cons_ne_nil _ _

/-! ## The first object -/

section

variable {depth : Int} {rest : Bytes}

attribute [local simp] scanObject

theorem scanObject_quote : scanObject depth false false (0x22 :: rest) =
    (scanObject depth true false rest).map (· + 1) := by
  simp

theorem scanObject_unquote : scanObject depth true false (0x22 :: rest) =
    (scanObject depth false false rest).map (· + 1) := by
  simp

theorem scanObject_brace : scanObject depth false false (0x7B :: rest) =
    (scanObject (depth + 1) false false rest).map (· + 1) := by
  simp

theorem scanObject_close : scanObject (depth + 1) false false (0x7D :: rest) =
    if depth = 0 then some 1 else (scanObject depth false false rest).map (· + 1) := by
  by_cases h : depth = 0 <;> simp [h]

theorem scanObject_plain (h : IsPlain b ∨ b = 0x5B ∨ b = 0x5D) :
    scanObject depth false false (b :: rest) =
      (scanObject depth false false rest).map (· + 1) := by
  rcases h with ⟨hquote, -, -, hopen, hclose⟩ | rfl | rfl
  · simp [hquote, hopen, hclose]
  · simp
  · simp

end

/-- The scanner passes over the bytes and reaches the rest in the state in which it was. -/
def Passes (depth : Int) (inString : Bool) (s : Bytes) : Prop := ∀ rest,
  scanObject depth inString false (s ++ rest) =
    (scanObject depth inString false rest).map (· + s.length)

theorem Passes.append (hs : Passes depth q s) (ht : Passes depth q t) :
    Passes depth q (s ++ t) := by
  intro rest
  rw [List.append_assoc, hs, ht, Option.map_map, List.length_append]
  congr 1
  funext n
  simp only [Function.comp_apply]
  omega

theorem Passes.nil : Passes depth q [] := fun rest => by simp

theorem passes_chars (depth : Int) : CharsClosed (Passes depth true) where
  nil := .nil
  append := .append
  plain hb rest := by simp [scanObject, hb.1, hb.2]
  escape b rest := by simp [scanObject, Option.map_map, Function.comp_def]

theorem passes_string (h : StringText cs s) : Passes depth false s := by
  cases h with
  | mk hcs =>
    intro rest
    rw [List.cons_append, List.cons_append, List.append_assoc, scanObject_quote,
      (passes_chars depth).of_charsText hcs, List.singleton_append, scanObject_unquote]
    simp only [Option.map_map, Function.comp_def, List.length_append, List.length_cons,
      List.length_nil]
    congr 1
    funext n
    omega

/-- Inside an object, at any depth, a text is passed over. -/
def Skipped (s : Bytes) : Prop := ∀ depth : Int, 1 ≤ depth → Passes depth false s

theorem skipped_closed : Closed Skipped where
  nil _ _ := .nil
  append hs ht depth hdepth := (hs depth hdepth).append (ht depth hdepth)
  plain hb depth _ rest := scanObject_plain (.inl hb)
  string h depth _ := passes_string h
  brackets {s} hs depth hdepth := by
    have hopen : Passes depth false [0x5B] := fun _ => scanObject_plain (.inr (.inl rfl))
    have hclose : Passes depth false [0x5D] := fun _ => scanObject_plain (.inr (.inr rfl))
    exact (hopen.append (hs depth hdepth)).append hclose
  braces {s} hs depth hdepth rest := by
    rw [List.cons_append, List.cons_append, List.append_assoc, scanObject_brace,
      hs (depth + 1) (by omega), List.singleton_append, scanObject_close, if_neg (by omega)]
    simp only [Option.map_map, Function.comp_def, List.length_append, List.length_cons,
      List.length_nil]
    congr 1
    funext n
    omega

/-- The scanner stops after the text of the object that it starts at. -/
theorem scanObject_object (h : Serialises (.value v) s) (hv : v.IsObject) (rest : Bytes) :
    scanObject 0 false false (s ++ rest) = some s.length := by
  obtain ⟨t, ht, rfl⟩ := skipped_closed.of_object h hv
  rw [List.cons_append, List.cons_append, List.append_assoc, scanObject_brace,
    ht (0 + 1) (by omega), List.singleton_append, scanObject_close, if_pos rfl]
  simp [Nat.add_comm]

/-- The scanner stops at a closing brace. -/
theorem scanObject_eq_some (h : scanObject depth q escape data = some n) :
    ∃ t rest, data = t ++ 0x7D :: rest ∧ n = t.length + 1 := by
  induction data generalizing depth q escape n with
  | nil => cases h
  | cons b data ih =>
    have hnext {depth' q' escape'}
        (hscan : (scanObject depth' q' escape' data).map (· + 1) = some n) :
        ∃ t rest, b :: data = t ++ 0x7D :: rest ∧ n = t.length + 1 := by
      obtain ⟨m, hm, rfl⟩ := Option.map_eq_some_iff.mp hscan
      obtain ⟨t, rest, rfl, rfl⟩ := ih hm
      exact ⟨b :: t, rest, rfl, rfl⟩
    cases q with
    | true =>
      rw [scanObject] at h
      split at h
      · exact hnext h
      · split at h
        · exact hnext h
        · split at h <;> exact hnext h
    | false =>
      rw [scanObject] at h
      split at h
      · next hclose =>
        cases h
        exact ⟨[], data, by rw [hclose.1]; rfl, rfl⟩
      · split at h
        · exact hnext h
        · split at h
          · exact hnext h
          · split at h <;> exact hnext h

/-- The first object is found, whatever stands before it without a brace and whatever follows. -/
theorem extractJsonBytes_object (h : Serialises (.value v) s) (hv : v.IsObject) (hp : 0x7B ∉ p)
    (q : Bytes) : extractJsonBytes (p ++ s ++ q) = some s := by
  obtain ⟨t, -, hs⟩ := skipped_closed.of_object h hv
  have hfind : find [0x7B] (p ++ s ++ q) = some p.length :=
    find_singleton.mpr ⟨p, t ++ [0x7D] ++ q, by simp [hs], hp, rfl⟩
  have hdrop : (p ++ s ++ q).drop p.length = s ++ q := by
    rw [List.append_assoc]
    exact List.drop_left' rfl
  have hslice : Bytes.slice (p ++ s ++ q) p.length (p.length + s.length) = s := by
    rw [List.append_assoc]
    exact Bytes.slice_middle rfl rfl
  simp only [extractJsonBytes, hfind, hdrop, scanObject_object h hv, hslice, Option.bind_eq_bind,
    Option.bind_some]
  rfl

/-- What is found starts at the first opening brace and ends with a closing one. -/
theorem extractJsonBytes_slice (h : extractJsonBytes response = some s) :
    ∃ p t q, response = p ++ s ++ q ∧ s = 0x7B :: t ++ [0x7D] ∧ 0x7B ∉ p := by
  simp only [extractJsonBytes, Option.bind_eq_bind, Option.bind_eq_some_iff] at h
  obtain ⟨start, hstart, count, hcount, hs⟩ := h
  obtain ⟨p, rest, rfl, hp, rfl⟩ := find_singleton.mp hstart
  rw [List.drop_left' rfl] at hcount
  obtain ⟨t, q, hrest, rfl⟩ := scanObject_eq_some hcount
  cases t with
  | nil => cases hrest
  | cons b t =>
    cases hrest
    have hslice : Bytes.slice (p ++ ((0x7B :: t ++ [0x7D]) ++ q)) p.length
        (p.length + (t.length + 1 + 1)) = 0x7B :: t ++ [0x7D] :=
      Bytes.slice_middle rfl (by simp)
    have hs' : s = 0x7B :: t ++ [0x7D] := by
      cases hs
      simpa using hslice
    exact ⟨p, t, q, by simp [hs'], hs', hp⟩

/-- `extract_json_bytes` finds the first object, and only slices of the response. -/
theorem first_object_extracted :
    (∀ v s p q, v.IsObject → Serialises (.value v) s → 0x7B ∉ p →
      extractJsonBytes (p ++ s ++ q) = some s) ∧
    (∀ response s, extractJsonBytes response = some s →
      ∃ p t q, response = p ++ s ++ q ∧ s = 0x7B :: t ++ [0x7D] ∧ 0x7B ∉ p) :=
  ⟨fun _ _ _ q hv h hp => extractJsonBytes_object h hv hp q, fun _ _ h => extractJsonBytes_slice h⟩

theorem first_object_extracted_strings :
    extractJsonBytes (ascii "UTOM" ++ bracesInStrings ++ ascii " \x7d") = some bracesInStrings :=
  first_object_extracted.1 bracesValue _ _ _ trivial bracesInStrings_serialises (by decide)

end Responses

end MotuProxy
