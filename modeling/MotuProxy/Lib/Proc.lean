/-! # Procedures that raise and keep their state

`EStateM ε σ` is the semantics of a method that updates its object and may raise: the updates made
before the exception stay. `Triple P x Q E` is a partial-correctness triple with one postcondition
for a normal return and one for an exception, and the rules below are its proof system.
-/

namespace MotuProxy

/-- From a state with `P`, `x` either returns with `Q` or raises with `E`. -/
def Triple (P : σ → Prop) (x : EStateM ε σ α) (Q : α → σ → Prop) (E : ε → σ → Prop) : Prop :=
  ∀ s, P s → match x s with
    | .ok a s' => Q a s'
    | .error e s' => E e s'

namespace Triple

variable {P P' : σ → Prop} {Q Q' : α → σ → Prop} {E E' : ε → σ → Prop} {x : EStateM ε σ α}

theorem ok (h : Triple P x Q E) (hP : P s) (hx : x s = .ok a s') : Q a s' := by
  have := h s hP
  rwa [hx] at this

theorem error (h : Triple P x Q E) (hP : P s) (hx : x s = .error e s') : E e s' := by
  have := h s hP
  rwa [hx] at this

theorem conseq (h : Triple P x Q E) (hP : ∀ s, P' s → P s) (hQ : ∀ a s, Q a s → Q' a s)
    (hE : ∀ e s, E e s → E' e s) : Triple P' x Q' E' := by
  intro s hs
  have := h s (hP s hs)
  cases hx : x s with
  | ok a s' => rw [hx] at this; exact hQ a s' this
  | error e s' => rw [hx] at this; exact hE e s' this

theorem pure {a : α} (h : ∀ s, P s → Q a s) : Triple P (pure a) Q E := fun s hs => h s hs

theorem throw {e : ε} (h : ∀ s, P s → E e s) : Triple P (throw e) Q E := fun s hs => h s hs

/-- Nothing is said about a procedure. -/
theorem any : Triple P x (fun _ _ => True) (fun _ _ => True) := by
  intro s hs
  cases x s <;> trivial

theorem bind {R : β → σ → Prop} {f : α → EStateM ε σ β} (hx : Triple P x Q E)
    (hf : ∀ a, Triple (Q a) (f a) R E) : Triple P (x >>= f) R E := by
  intro s hs
  have h := hx s hs
  change match EStateM.bind x f s with | .ok b s' => R b s' | .error e s' => E e s'
  unfold EStateM.bind
  cases hxs : x s with
  | ok a s' => rw [hxs] at h; exact hf a s' h
  | error e s' => rw [hxs] at h; exact h

theorem ite {c : Prop} [Decidable c] {y : EStateM ε σ α} (ht : c → Triple P x Q E)
    (hf : ¬c → Triple P y Q E) : Triple P (if c then x else y) Q E := by
  split
  · exact ht ‹_›
  · exact hf ‹_›

/-- Two specifications of one procedure. -/
theorem and (h : Triple P x Q E) (h' : Triple P' x Q' E') :
    Triple (fun s => P s ∧ P' s) x (fun a s => Q a s ∧ Q' a s) (fun e s => E e s ∧ E' e s) := by
  intro s hs
  have hr := h s hs.1
  have hr' := h' s hs.2
  cases hx : x s with
  | ok a s' => rw [hx] at hr hr'; exact ⟨hr, hr'⟩
  | error e s' => rw [hx] at hr hr'; exact ⟨hr, hr'⟩

/-- A fact that the precondition carries is a hypothesis. -/
theorem assume {p : Prop} (h : p → Triple P x Q E) : Triple (fun s => P s ∧ p) x Q E :=
  fun s hs => h hs.2 s hs.1

/-- `try`: the handler starts in the state in which the exception was raised. -/
theorem catching {R : ε → σ → Prop} {h : ε → EStateM ε σ α} (hx : Triple P x Q R)
    (hh : ∀ e, Triple (R e) (h e) Q E) : Triple P (tryCatch x h) Q E := by
  intro s hs
  have hr := hx s hs
  simp only [tryCatch, tryCatchThe, MonadExceptOf.tryCatch]
  delta EStateM.tryCatch
  dsimp only
  cases hxs : x s with
  | ok a s' => rw [hxs] at hr; exact hr
  | error e s' => rw [hxs] at hr; exact hh e s' hr

/-- `finally`: an exception of the last part takes the place of an earlier one. -/
theorem finalizing {R : ε → σ → Prop} {f : EStateM ε σ β} (hx : Triple P x Q R)
    (hok : ∀ a, Triple (Q a) f (fun _ => Q' a) E) (herr : ∀ e, Triple (R e) f (fun _ => E e) E) :
    Triple P (tryFinally x f) Q' E := by
  intro s hs
  have hr := hx s hs
  simp only [tryFinally, tryFinally', Functor.map, EStateM.map]
  cases hxs : x s with
  | ok a s' =>
    rw [hxs] at hr
    have hf := hok a s' hr
    dsimp only
    cases hfs : f s' with
    | ok b s'' => rw [hfs] at hf; exact hf
    | error e s'' => rw [hfs] at hf; exact hf
  | error e s' =>
    rw [hxs] at hr
    have hf := herr e s' hr
    dsimp only
    cases hfs : f s' with
    | ok b s'' => rw [hfs] at hf; exact hf
    | error e' s'' => rw [hfs] at hf; exact hf

theorem get {Q : σ → σ → Prop} (h : ∀ s, P s → Q s s) : Triple P (get : EStateM ε σ σ) Q E :=
  fun s hs => h s hs

theorem modify {f : σ → σ} {Q : PUnit → σ → Prop} (h : ∀ s, P s → Q ⟨⟩ (f s)) :
    Triple P (modify f : EStateM ε σ PUnit) Q E := fun s hs => h s hs

end Triple

theorem throw_eq (e : ε) (s : σ) : (throw e : EStateM ε σ α) s = .error e s := rfl

/-! ## Checks that raise -/

theorem ite_error_eq_ok {c : Prop} [Decidable c] {e : ε} {x : Except ε α} {a : α} :
    (if c then .error e else x) = .ok a ↔ ¬c ∧ x = .ok a := by
  by_cases h : c <;> simp [h]

theorem except_bind_eq_ok {x : Except ε α} {f : α → Except ε β} {b : β} :
    (x >>= f) = .ok b ↔ ∃ a, x = .ok a ∧ f a = .ok b := by
  cases x <;> simp [bind, Except.bind]

theorem except_map_eq_ok {x : Except ε α} {f : α → β} {b : β} :
    x.map f = .ok b ↔ ∃ a, x = .ok a ∧ f a = b := by
  cases x <;> simp [Except.map]

/-- A check is passed before what follows it. -/
theorem check_bind_eq_ok {x : Except ε Unit} {f : Unit → Except ε β} {b : β} :
    (x >>= f) = .ok b ↔ x = .ok () ∧ f () = .ok b := by
  rw [except_bind_eq_ok]
  exact ⟨fun ⟨_, hx, hf⟩ => ⟨hx, hf⟩, fun ⟨hx, hf⟩ => ⟨(), hx, hf⟩⟩

theorem ok_of_isOk {x : Except ε α} (h : x.isOk = true) : ∃ a, x = .ok a := by
  cases x with
  | ok a => exact ⟨a, rfl⟩
  | error e => cases h

/-! ## Executing a procedure -/

namespace EStateM

variable {x : EStateM ε σ α} {f : α → EStateM ε σ β}

theorem bind_ok (h : x s = .ok a s') : (x >>= f) s = f a s' := by
  change EStateM.bind x f s = _
  simp only [EStateM.bind, h]

theorem bind_error (h : x s = .error e s') : (x >>= f) s = .error e s' := by
  change EStateM.bind x f s = _
  simp only [EStateM.bind, h]

theorem bind_eq_ok (h : (x >>= f) s = .ok b s') : ∃ a s₁, x s = .ok a s₁ ∧ f a s₁ = .ok b s' := by
  cases hx : x s with
  | ok a s₁ => exact ⟨a, s₁, rfl, by rwa [bind_ok hx] at h⟩
  | error e s₁ => rw [bind_error hx] at h; cases h

theorem bind_eq_error (h : (x >>= f) s = .error e s') :
    x s = .error e s' ∨ ∃ a s₁, x s = .ok a s₁ ∧ f a s₁ = .error e s' := by
  cases hx : x s with
  | ok a s₁ => exact .inr ⟨a, s₁, rfl, by rwa [bind_ok hx] at h⟩
  | error e₁ s₁ => rw [bind_error hx] at h; cases h; exact .inl rfl

end EStateM

end MotuProxy
