import Mathlib.Data.List.DropRight
import MotuProxy.Py.Str

/-! # Lemmas about Python text

Splitting at a separator and stripping.
-/

namespace MotuProxy

namespace Py

/-! ## Splitting -/

section

variable {sep c : Nat} {s t w : Str}

theorem splitOn_ne_nil (sep : Nat) (s : Str) : splitOn sep s ≠ [] := by
  induction s with
  | nil => exact List.cons_ne_nil _ _
  | cons c s ih =>
    unfold splitOn
    split
    · exact List.cons_ne_nil _ _
    · split <;> exact List.cons_ne_nil _ _

theorem splitOn_cons_ne (h : c ≠ sep) :
    ∃ w ws, splitOn sep s = w :: ws ∧ splitOn sep (c :: s) = (c :: w) :: ws := by
  cases hs : splitOn sep s with
  | nil => exact absurd hs (splitOn_ne_nil sep s)
  | cons w ws =>
    refine ⟨w, ws, rfl, ?_⟩
    rw [splitOn, if_neg h, hs]

theorem splitOn_sep (t : Str) : splitOn sep (sep :: t) = [] :: splitOn sep t := by
  rw [splitOn, if_pos rfl]

theorem splitOn_append_sep (s t : Str) :
    splitOn sep (s ++ sep :: t) = splitOn sep s ++ splitOn sep t := by
  induction s with
  | nil => exact splitOn_sep t
  | cons c s ih =>
    by_cases hc : c = sep
    · subst hc
      rw [List.cons_append, splitOn_sep, splitOn_sep, ih, List.cons_append]
    · obtain ⟨w, ws, hs, hcs⟩ := splitOn_cons_ne (s := s) hc
      obtain ⟨w', ws', hs', hcs'⟩ := splitOn_cons_ne (s := s ++ sep :: t) hc
      rw [hs, hs', List.cons_append] at ih
      cases ih
      rw [List.cons_append, hcs, hcs', List.cons_append]

/-- A code point of a text is the separator or stands in a part. -/
theorem mem_splitOn_of_mem (hc : c ∈ s) (hne : c ≠ sep) : ∃ w ∈ splitOn sep s, c ∈ w := by
  induction s with
  | nil => cases hc
  | cons d s ih =>
    by_cases hd : d = sep
    · subst hd
      rw [splitOn_sep]
      obtain ⟨w, hw, hcw⟩ := ih ((List.mem_cons.1 hc).resolve_left hne)
      exact ⟨w, List.mem_cons_of_mem _ hw, hcw⟩
    · obtain ⟨w, ws, hs, hds⟩ := splitOn_cons_ne (s := s) hd
      rw [hds]
      rcases List.mem_cons.1 hc with rfl | hc
      · exact ⟨_, List.mem_cons_self .., List.mem_cons_self ..⟩
      · obtain ⟨v, hv, hcv⟩ := ih hc
        rw [hs] at hv
        rcases List.mem_cons.1 hv with rfl | hv
        · exact ⟨_, List.mem_cons_self .., List.mem_cons_of_mem _ hcv⟩
        · exact ⟨v, List.mem_cons_of_mem _ hv, hcv⟩

/-- Text without the separator is one part. -/
theorem splitOn_eq_self (h : sep ∉ s) : splitOn sep s = [s] := by
  induction s with
  | nil => rfl
  | cons c s ih =>
    have hc : c ≠ sep := fun hc => h (hc ▸ List.mem_cons_self ..)
    rw [splitOn, if_neg hc, ih fun hs => h (List.mem_cons_of_mem _ hs)]

theorem partition_notMem (h : sep ∉ s) : partition sep s = (s, false, []) := by
  induction s with
  | nil => rfl
  | cons c s ih =>
    rw [List.mem_cons, not_or] at h
    simp [partition, Ne.symm h.1, ih h.2]

theorem partition_append (h : sep ∉ s) :
    partition sep (s ++ sep :: t) = (s, true, t) := by
  induction s with
  | nil => simp [partition]
  | cons c s ih =>
    rw [List.mem_cons, not_or] at h
    simp [partition, Ne.symm h.1, ih h.2]

end

/-! ## Stripping -/

theorem lstripBy_eq_self {p : Nat → Bool} {s : Str} (h : ∀ c ∈ s.head?, p c = false) :
    lstripBy p s = s := by
  cases s with
  | nil => rfl
  | cons c s => exact List.dropWhile_cons_of_neg (by simp [h c rfl])

theorem rstripBy_eq_self {p : Nat → Bool} {s : Str} (h : ∀ c ∈ s.getLast?, p c = false) :
    rstripBy p s = s := by
  have hrev := @lstripBy_eq_self p s.reverse (by rwa [List.head?_reverse])
  rw [rstripBy, show s.reverse.dropWhile p = s.reverse from hrev, List.reverse_reverse]

theorem strip_eq_self {s : Str} (h : ∀ c ∈ s, isSpace c = false) : strip s = s := by
  rw [strip, lstripBy_eq_self fun c hc => h c (List.mem_of_mem_head? hc),
    rstripBy_eq_self fun c hc => h c (List.mem_of_mem_getLast? hc)]

theorem isIntSpace_of_isSpace {c : Nat} (h : isSpace c = false) : isIntSpace c = false := by
  simp [isIntSpace, h]

theorem intStrip_eq_self {s : Str} (h : ∀ c ∈ s, isSpace c = false) : intStrip s = s := by
  have hnone : ∀ c ∈ s, isIntSpace c = false := fun c hc => isIntSpace_of_isSpace (h c hc)
  rw [intStrip, lstripBy_eq_self fun c hc => hnone c (List.mem_of_mem_head? hc),
    rstripBy_eq_self fun c hc => hnone c (List.mem_of_mem_getLast? hc)]

theorem rstripBy_append {p : Nat → Bool} {a b : Str} {c : Nat} (h : p c = false) :
    rstripBy p (a ++ c :: b) = a ++ c :: rstripBy p b := by
  have hdrop : (b.reverse ++ (c :: a.reverse)).dropWhile p =
      b.reverse.dropWhile p ++ (c :: a.reverse) := by
    rw [List.dropWhile_append]
    split
    · next hempty =>
      rw [List.isEmpty_iff.1 hempty, List.dropWhile_cons_of_neg (by simp [h])]
      rfl
    · rfl
  unfold rstripBy
  rw [List.reverse_append, List.reverse_cons, List.append_assoc, List.singleton_append, hdrop]
  simp

theorem head?_rstripBy {p : Nat → Bool} {s : Str} (h : (rstripBy p s).head? = some c) :
    s.head? = some c := by
  obtain ⟨t, ht⟩ := List.rdropWhile_prefix p s
  change rstripBy p s ++ t = s at ht
  rw [← ht, List.head?_append, h, Option.some_or]

theorem strip_strip (s : Str) : strip (strip s) = strip s := by
  have hleft : lstripBy isSpace (rstripBy isSpace (lstripBy isSpace s)) =
      rstripBy isSpace (lstripBy isSpace s) := by
    refine lstripBy_eq_self fun c hc => ?_
    have hhead := List.head?_dropWhile_not isSpace s
    rw [show (s.dropWhile isSpace).head? = some c from head?_rstripBy hc] at hhead
    exact hhead
  have hright (t : Str) : rstripBy isSpace (rstripBy isSpace t) = rstripBy isSpace t :=
    List.rdropWhile_idempotent isSpace t
  unfold strip
  rw [hleft, hright]

end Py

end MotuProxy
