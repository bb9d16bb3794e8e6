import MotuProxy.Py.Codec

/-! # UTF-8 as a code

`utf8Encode` and `utf8DecodeStrict` are inverse to each other on the strings that have an encoding.
Both directions come from one statement about a single code point: `utf8Next` reads a code point
exactly where its sequence stands.
-/

namespace MotuProxy.Py

/-- A code point with a UTF-8 sequence. -/
def IsScalar (c : Nat) : Prop := c < 0x110000 ∧ isSurrogate c = false

theorem isSurrogate_eq_false : isSurrogate c = false ↔ c < 0xD800 ∨ 0xE000 ≤ c := by
  simp only [isSurrogate, Bool.and_eq_false_iff, decide_eq_false_iff_not]
  omega

theorem isTail_iff {b : UInt8} : isTail b = true ↔ 0x80 ≤ b.toNat ∧ b.toNat ≤ 0xBF := by
  simp [isTail, UInt8.le_iff_toNat_le]

/-- The second bytes that do not make the sequence overlong, a surrogate or too large. -/
theorem isSecond_iff {b₀ b₁ : UInt8} : isSecond b₀ b₁ = true ↔
    0x80 ≤ b₁.toNat ∧ b₁.toNat ≤ 0xBF ∧ (b₀.toNat = 0xE0 → 0xA0 ≤ b₁.toNat) ∧
      (b₀.toNat = 0xED → b₁.toNat ≤ 0x9F) ∧ (b₀.toNat = 0xF0 → 0x90 ≤ b₁.toNat) ∧
      (b₀.toNat = 0xF4 → b₁.toNat ≤ 0x8F) := by
  unfold isSecond isTail
  simp only [← UInt8.toNat_inj]
  split
  · next h => simp [UInt8.le_iff_toNat_le] at *; omega
  · split
    · next h => simp [UInt8.le_iff_toNat_le] at *; omega
    · split
      · next h => simp [UInt8.le_iff_toNat_le] at *; omega
      · split
        · next h => simp [UInt8.le_iff_toNat_le] at *; omega
        · simp [UInt8.le_iff_toNat_le] at *; omega

theorem ofNat_eq {b : UInt8} (h : n = b.toNat) : UInt8.ofNat n = b := by
  rw [h, UInt8.ofNat_toNat]

theorem toNat_ofNat_of_lt (h : n < 256) : (UInt8.ofNat n).toNat = n := by
  rw [UInt8.toNat_ofNat', Nat.mod_eq_of_lt h]

/-! ## One code point -/

theorem utf8Char_one {b : UInt8} (h : b.toNat < 0x80) : utf8Char b.toNat = [b] := by
  rw [utf8Char, if_pos h, UInt8.ofNat_toNat]

theorem utf8Char_two {b₀ b₁ : UInt8} (h₀ : 0xC2 ≤ b₀.toNat) (h₀' : b₀.toNat < 0xE0)
    (h₁ : isTail b₁ = true) : utf8Char (b₀.toNat % 32 * 64 + b₁.toNat % 64) = [b₀, b₁] := by
  have ⟨_, _⟩ := isTail_iff.1 h₁
  rw [utf8Char, if_neg (by omega), if_pos (by omega)]
  congr
  · exact ofNat_eq (by omega)
  · exact ofNat_eq (by omega)

theorem utf8Char_three {b₀ b₁ b₂ : UInt8} (h₀ : 0xE0 ≤ b₀.toNat) (h₀' : b₀.toNat < 0xF0)
    (h₁ : isSecond b₀ b₁ = true) (h₂ : isTail b₂ = true) :
    utf8Char (b₀.toNat % 16 * 4096 + b₁.toNat % 64 * 64 + b₂.toNat % 64) = [b₀, b₁, b₂] := by
  have ⟨_, _⟩ := isTail_iff.1 h₂
  have ⟨_, _, _, _, _, _⟩ := isSecond_iff.1 h₁
  rw [utf8Char, if_neg (by omega), if_neg (by omega), if_pos (by omega)]
  congr
  · exact ofNat_eq (by omega)
  · exact ofNat_eq (by omega)
  · exact ofNat_eq (by omega)

theorem utf8Char_four {b₀ b₁ b₂ b₃ : UInt8} (h₀ : 0xF0 ≤ b₀.toNat) (h₀' : b₀.toNat ≤ 0xF4)
    (h₁ : isSecond b₀ b₁ = true) (h₂ : isTail b₂ = true) (h₃ : isTail b₃ = true) :
    utf8Char (b₀.toNat % 8 * 262144 + b₁.toNat % 64 * 4096 + b₂.toNat % 64 * 64 + b₃.toNat % 64) =
      [b₀, b₁, b₂, b₃] := by
  have ⟨_, _⟩ := isTail_iff.1 h₂
  have ⟨_, _⟩ := isTail_iff.1 h₃
  have ⟨_, _, _, _, _, _⟩ := isSecond_iff.1 h₁
  rw [utf8Char, if_neg (by omega), if_neg (by omega), if_neg (by omega)]
  congr
  · exact ofNat_eq (by omega)
  · exact ofNat_eq (by omega)
  · exact ofNat_eq (by omega)
  · exact ofNat_eq (by omega)

/-- What `utf8Next` reads is the sequence of a code point. -/
theorem utf8Next_eq_some {data : Bytes} (h : utf8Next data = (some c, n)) :
    IsScalar c ∧ ∃ rest, data = utf8Char c ++ rest ∧ n = (utf8Char c).length := by
  rcases data with _ | ⟨b₀, rest⟩
  · cases h
  simp only [utf8Next, UInt8.lt_iff_toNat_lt, UInt8.reduceToNat] at h
  split at h
  · next h₀ =>
    cases h
    rw [utf8Char_one h₀]
    exact ⟨⟨by omega, isSurrogate_eq_false.2 (by omega)⟩, rest, rfl, rfl⟩
  split at h
  · cases h
  split at h
  · rcases rest with _ | ⟨b₁, rest⟩
    · cases h
    dsimp only at h
    split at h
    · next h₁ =>
      cases h
      rw [utf8Char_two (by omega) (by omega) h₁]
      exact ⟨⟨by omega, isSurrogate_eq_false.2 (by omega)⟩, rest, rfl, rfl⟩
    · cases h
  split at h
  · rcases rest with _ | ⟨b₁, _ | ⟨b₂, rest⟩⟩
    · cases h
    · dsimp only at h
      split at h <;> cases h
    dsimp only at h
    split at h
    · cases h
    split at h
    · cases h
    next h₁ h₂ =>
      simp only [Bool.not_eq_true', Bool.not_eq_false] at h₁ h₂
      have ⟨_, _, _, _, _, _⟩ := isSecond_iff.1 h₁
      cases h
      rw [utf8Char_three (by omega) (by omega) h₁ h₂]
      exact ⟨⟨by omega, isSurrogate_eq_false.2 (by omega)⟩, rest, rfl, rfl⟩
  · rcases rest with _ | ⟨b₁, _ | ⟨b₂, _ | ⟨b₃, rest⟩⟩⟩
    · cases h
    · dsimp only at h
      split at h <;> cases h
    · dsimp only at h
      split at h
      · cases h
      split at h <;> cases h
    dsimp only at h
    split at h
    · cases h
    split at h
    · cases h
    split at h
    · cases h
    next h₁ h₂ h₃ =>
      simp only [Bool.not_eq_true', Bool.not_eq_false] at h₁ h₂ h₃
      have ⟨_, _, _, _, _, _⟩ := isSecond_iff.1 h₁
      cases h
      rw [utf8Char_four (by omega) (by omega) h₁ h₂ h₃]
      exact ⟨⟨by omega, isSurrogate_eq_false.2 (by omega)⟩, rest, rfl, rfl⟩

/-- A code point is read where its sequence stands. -/
theorem utf8Next_utf8Char (h : IsScalar c) (rest : Bytes) :
    utf8Next (utf8Char c ++ rest) = (some c, (utf8Char c).length) := by
  obtain ⟨hc, hs⟩ := h
  rw [isSurrogate_eq_false] at hs
  unfold utf8Char
  split
  · next h₀ =>
    have hb := toNat_ofNat_of_lt (n := c) (by omega)
    simp only [List.cons_append, utf8Next, UInt8.lt_iff_toNat_lt, UInt8.reduceToNat, hb]
    rw [if_pos h₀]
    rfl
  split
  · next h₀ h₁ =>
    have hb := toNat_ofNat_of_lt (n := 0xC0 + c / 64) (by omega)
    have hb₁ := toNat_ofNat_of_lt (n := 0x80 + c % 64) (by omega)
    have ht : isTail (UInt8.ofNat (0x80 + c % 64)) = true := isTail_iff.2 (by omega)
    simp only [List.cons_append, utf8Next, UInt8.lt_iff_toNat_lt, UInt8.reduceToNat, hb, hb₁, ht,
      if_true]
    rw [if_neg (by omega), if_neg (by omega), if_pos (by omega)]
    simp only [List.length_cons, Prod.mk.injEq, Option.some.injEq]
    exact ⟨by omega, rfl⟩
  split
  · next h₀ h₁ h₂ =>
    have hb := toNat_ofNat_of_lt (n := 0xE0 + c / 4096) (by omega)
    have hb₁ := toNat_ofNat_of_lt (n := 0x80 + c / 64 % 64) (by omega)
    have hb₂ := toNat_ofNat_of_lt (n := 0x80 + c % 64) (by omega)
    have hsecond : isSecond (UInt8.ofNat (0xE0 + c / 4096)) (UInt8.ofNat (0x80 + c / 64 % 64)) = true :=
      isSecond_iff.2 (by omega)
    have ht : isTail (UInt8.ofNat (0x80 + c % 64)) = true := isTail_iff.2 (by omega)
    simp only [List.cons_append, utf8Next, UInt8.lt_iff_toNat_lt, UInt8.reduceToNat, hb, hb₁, hb₂,
      hsecond, ht, Bool.not_true, Bool.false_eq_true, if_false]
    rw [if_neg (by omega), if_neg (by omega), if_neg (by omega), if_pos (by omega)]
    simp only [List.length_cons, Prod.mk.injEq, Option.some.injEq]
    exact ⟨by omega, rfl⟩
  · next h₀ h₁ h₂ =>
    have hb := toNat_ofNat_of_lt (n := 0xF0 + c / 262144) (by omega)
    have hb₁ := toNat_ofNat_of_lt (n := 0x80 + c / 4096 % 64) (by omega)
    have hb₂ := toNat_ofNat_of_lt (n := 0x80 + c / 64 % 64) (by omega)
    have hb₃ := toNat_ofNat_of_lt (n := 0x80 + c % 64) (by omega)
    have hsecond : isSecond (UInt8.ofNat (0xF0 + c / 262144))
        (UInt8.ofNat (0x80 + c / 4096 % 64)) = true := isSecond_iff.2 (by omega)
    have ht₂ : isTail (UInt8.ofNat (0x80 + c / 64 % 64)) = true := isTail_iff.2 (by omega)
    have ht₃ : isTail (UInt8.ofNat (0x80 + c % 64)) = true := isTail_iff.2 (by omega)
    simp only [List.cons_append, utf8Next, UInt8.lt_iff_toNat_lt, UInt8.reduceToNat, hb, hb₁, hb₂,
      hb₃, hsecond, ht₂, ht₃, Bool.not_true, Bool.false_eq_true, if_false]
    rw [if_neg (by omega), if_neg (by omega), if_neg (by omega), if_neg (by omega)]
    simp only [List.length_cons, Prod.mk.injEq, Option.some.injEq]
    exact ⟨by omega, rfl⟩

/-! ## Strings -/

theorem utf8Char_ne_nil : utf8Char c ≠ [] := by
  unfold utf8Char
  split
  · exact List.cons_ne_nil _ _
  split
  · exact List.cons_ne_nil _ _
  split <;> exact List.cons_ne_nil _ _

/-- The bytes of the code point before are passed over. -/
theorem utf8DecodeFrom_skip (bad : Option Str) (head rest : Bytes) :
    utf8DecodeFrom bad head.length (head ++ rest) = utf8DecodeFrom bad 0 rest := by
  induction head with
  | nil => rfl
  | cons b head ih => exact ih

/-- The decoding of a string that starts with the sequence of a code point. -/
theorem utf8DecodeFrom_utf8Char (bad : Option Str) (h : IsScalar c) (rest : Bytes) :
    utf8DecodeFrom bad 0 (utf8Char c ++ rest) = (utf8DecodeFrom bad 0 rest).map (c :: ·) := by
  have hnext := utf8Next_utf8Char h rest
  have hlen : 0 < (utf8Char c).length := List.length_pos_iff.2 utf8Char_ne_nil
  obtain ⟨b, head, hc⟩ := List.exists_cons_of_ne_nil (utf8Char_ne_nil (c := c))
  rw [hc] at hnext ⊢
  rw [List.cons_append] at hnext ⊢
  rw [utf8DecodeFrom, hnext]
  simp only [List.length_cons, Nat.add_sub_cancel, utf8DecodeFrom_skip, Option.bind_eq_bind,
    Option.bind_some]
  cases utf8DecodeFrom bad 0 rest <;> rfl

/-- Decoding undoes encoding. -/
theorem utf8DecodeFrom_utf8Encode (bad : Option Str) (hs : ∀ c ∈ s, c < 0x110000)
    (h : utf8Encode s = some data) : utf8DecodeFrom bad 0 data = some s := by
  induction s generalizing data with
  | nil => cases h; rfl
  | cons c s ih =>
    have ⟨hc, hs⟩ := List.forall_mem_cons.1 hs
    rw [utf8Encode] at h
    split at h
    · cases h
    next hsurrogate =>
      obtain ⟨rest, hrest, rfl⟩ := Option.map_eq_some_iff.1 h
      have hscalar : IsScalar c := ⟨hc, Bool.not_eq_true _ ▸ hsurrogate⟩
      rw [utf8DecodeFrom_utf8Char bad hscalar, ih hs hrest]
      rfl

/-- Encoding undoes strict decoding: no byte is lost, added or changed. -/
theorem utf8Encode_of_decode (h : utf8DecodeStrict data = some s) : utf8Encode s = some data := by
  unfold utf8DecodeStrict at h
  induction hn : data.length using Nat.strongRecOn generalizing data s with
  | ind n ih =>
    subst hn
    rcases data with _ | ⟨b, rest⟩
    · cases h
      rfl
    have hall := h
    rw [utf8DecodeFrom] at h
    cases hnext : (utf8Next (b :: rest)).1 with
    | none => simp [hnext] at h
    | some c =>
      obtain ⟨hscalar, tail, htail, -⟩ :=
        utf8Next_eq_some (n := (utf8Next (b :: rest)).2) (Prod.ext hnext rfl)
      rw [htail, utf8DecodeFrom_utf8Char none hscalar] at hall
      obtain ⟨s', hs', rfl⟩ := Option.map_eq_some_iff.1 hall
      have hlt : tail.length < (b :: rest).length := by
        have hpos := List.length_pos_iff.2 (utf8Char_ne_nil (c := c))
        rw [htail, List.length_append]
        omega
      rw [utf8Encode, if_neg (by simp [hscalar.2]), ih tail.length hlt hs' rfl, htail]
      rfl

end MotuProxy.Py
