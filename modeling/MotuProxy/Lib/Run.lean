import Mathlib.Data.List.Basic

/-! # Runs of a transition system

A system is given by a partial step function `step : σ → α → Option σ`: the action carries every
choice of the environment, so that a run is a list of actions. `Along C s as` says that `C` holds
of every state and action that the run of `as` from `s` passes, and `run_invariant` is the
induction rule: what holds initially and is preserved by every admitted step holds at the end of
every admitted run.
-/

namespace MotuProxy

section
variable {σ α : Type} (step : σ → α → Option σ)

/-- The state after the actions `as`, if each of them is enabled. -/
def run (s : σ) : List α → Option σ
  | [] => some s
  | a :: as => (step s a).bind fun s' => run s' as

/-- `C` holds of every state and action of the run. -/
def Along (C : σ → α → Prop) (s : σ) : List α → Prop
  | [] => True
  | a :: as => C s a ∧ ∀ s', step s a = some s' → Along C s' as

/-- `P` holds of every state of the run, the first and the last included. -/
def Always (P : σ → Prop) (s : σ) : List α → Prop
  | [] => P s
  | a :: as => P s ∧ ∀ s', step s a = some s' → Always P s' as

end

section
variable {σ α : Type} {step : σ → α → Option σ}

@[simp] theorem run_nil {s : σ} : run step s [] = some s := rfl

theorem run_cons {s s' : σ} {a : α} {as : List α} :
    run step s (a :: as) = some s' ↔ ∃ s₁, step s a = some s₁ ∧ run step s₁ as = some s' := by
  simp [run, Option.bind_eq_some_iff]

theorem run_append {s s' : σ} {as bs : List α} :
    run step s (as ++ bs) = some s' ↔ ∃ s₁, run step s as = some s₁ ∧ run step s₁ bs = some s' := by
  induction as generalizing s with
  | nil => simp
  | cons a as ih =>
    simp only [List.cons_append, run_cons, ih]
    constructor
    · rintro ⟨s₁, h₁, s₂, h₂, h₃⟩
      exact ⟨s₂, ⟨s₁, h₁, h₂⟩, h₃⟩
    · rintro ⟨s₂, ⟨s₁, h₁, h₂⟩, h₃⟩
      exact ⟨s₁, h₁, s₂, h₂, h₃⟩

/-- An invariant that every admitted step preserves holds at the end of every admitted run. -/
theorem run_invariant {C : σ → α → Prop} {I : σ → Prop}
    (hstep : ∀ s a s', I s → C s a → step s a = some s' → I s')
    {s s' : σ} {as : List α} (h : I s) (hC : Along step C s as)
    (hrun : run step s as = some s') : I s' := by
  induction as generalizing s with
  | nil => cases hrun; exact h
  | cons a as ih =>
    obtain ⟨s₁, h₁, hrun⟩ := run_cons.mp hrun
    exact ih (hstep s a s₁ h hC.1 h₁) (hC.2 s₁ h₁) hrun

theorem Along.true : ∀ {s : σ} {as : List α}, Along step (fun _ _ => True) s as
  | _, [] => trivial
  | _, _ :: _ => ⟨trivial, fun _ _ => Along.true⟩

theorem Along.of_forall {C : σ → α → Prop} : ∀ {s : σ} {as : List α},
    (∀ a ∈ as, ∀ s, C s a) → Along step C s as
  | _, [], _ => trivial
  | s, a :: _, h => ⟨h a List.mem_cons_self s, fun _ _ =>
      Along.of_forall fun b hb => h b (List.mem_cons_of_mem _ hb)⟩

/-- Two conditions that say the same wherever the invariant holds, in a system that keeps the
invariant as long as the first one is met, are met along the same runs. -/
theorem Along.congr {C D : σ → α → Prop} {I : σ → Prop}
    (hstep : ∀ s a s', I s → C s a → step s a = some s' → I s')
    (hiff : ∀ s a, I s → (C s a ↔ D s a)) {s : σ} {as : List α} (h : I s) :
    Along step C s as ↔ Along step D s as := by
  induction as generalizing s with
  | nil => exact Iff.rfl
  | cons a as ih =>
    constructor
    · rintro ⟨hC, hrest⟩
      exact ⟨(hiff s a h).mp hC, fun s' hs => (ih (hstep s a s' h hC hs)).mp (hrest s' hs)⟩
    · rintro ⟨hD, hrest⟩
      have hC := (hiff s a h).mpr hD
      exact ⟨hC, fun s' hs => (ih (hstep s a s' h hC hs)).mpr (hrest s' hs)⟩

/-- The rule for an exact condition: the invariant is kept as long as the condition is met, and a
step after which `P` holds meets it. -/
theorem along_iff_always {C : σ → α → Prop} {P I : σ → Prop}
    (hstep : ∀ s a s', I s → C s a → step s a = some s' → I s') (hP : ∀ s, I s → P s)
    (hC : ∀ s a, I s → (∀ s', step s a = some s' → P s') → C s a) {s : σ} {as : List α}
    (h : I s) : Along step C s as ↔ Always step P s as := by
  have hhead {s' : σ} {bs : List α} (halways : Always step P s' bs) : P s' := by
    cases bs with
    | nil => exact halways
    | cons b bs => exact halways.1
  induction as generalizing s with
  | nil => exact ⟨fun _ => hP s h, fun _ => trivial⟩
  | cons a as ih =>
    constructor
    · rintro ⟨hCa, hrest⟩
      exact ⟨hP s h, fun s' hs => (ih (hstep s a s' h hCa hs)).mp (hrest s' hs)⟩
    · rintro ⟨-, hrest⟩
      have hCa := hC s a h fun s' hs => hhead (hrest s' hs)
      exact ⟨hCa, fun s' hs => (ih (hstep s a s' h hCa hs)).mpr (hrest s' hs)⟩

theorem Always.final {P : σ → Prop} {s s' : σ} {as : List α} (h : Always step P s as)
    (hrun : run step s as = some s') : P s' := by
  induction as generalizing s with
  | nil => cases hrun; exact h
  | cons a as ih =>
    obtain ⟨s₁, h₁, hrun⟩ := run_cons.mp hrun
    exact ih (h.2 s₁ h₁) hrun

theorem Along.last {C : σ → α → Prop} {s s' : σ} {as : List α} {a : α}
    (h : Along step C s (as ++ [a])) (hrun : run step s as = some s') : C s' a := by
  induction as generalizing s with
  | nil => cases hrun; exact h.1
  | cons b as ih =>
    obtain ⟨s₁, h₁, hrun⟩ := run_cons.mp hrun
    exact ih (h.2 s₁ h₁) hrun

theorem Along.of_append {C : σ → α → Prop} {s : σ} {as bs : List α}
    (h : Along step C s (as ++ bs)) : Along step C s as := by
  induction as generalizing s with
  | nil => trivial
  | cons a as ih => exact ⟨h.1, fun s' hs => ih (h.2 s' hs)⟩

/-- The condition of a concrete run can be evaluated. -/
instance Along.decidable {C : σ → α → Prop} [∀ s a, Decidable (C s a)] :
    ∀ (s : σ) (as : List α), Decidable (Along step C s as)
  | _, [] => isTrue trivial
  | s, a :: as => match h : step s a with
    | none => decidable_of_iff (C s a) ⟨fun hc => ⟨hc, fun _ hs => nomatch h.symm.trans hs⟩, And.left⟩
    | some s₁ =>
      have : Decidable (Along step C s₁ as) := Along.decidable s₁ as
      decidable_of_iff (C s a ∧ Along step C s₁ as)
        ⟨fun hc => ⟨hc.1, fun _ hs => Option.some.inj (h.symm.trans hs) ▸ hc.2⟩,
          fun hc => ⟨hc.1, hc.2 s₁ h⟩⟩

/-- What every step relates, under an invariant, the two ends of a run are related by. -/
theorem run_relation {R : σ → σ → Prop} {I : σ → Prop} (hrefl : ∀ s, R s s)
    (htrans : ∀ s₁ s₂ s₃, R s₁ s₂ → R s₂ s₃ → R s₁ s₃)
    (hstep : ∀ s a s', I s → step s a = some s' → I s' ∧ R s s') {s s' : σ} {as : List α}
    (h : I s) (hrun : run step s as = some s') : R s s' := by
  induction as generalizing s with
  | nil => cases hrun; exact hrefl _
  | cons a as ih =>
    obtain ⟨s₁, h₁, hrun⟩ := run_cons.mp hrun
    obtain ⟨hinv, hR⟩ := hstep s a s₁ h h₁
    exact htrans _ _ _ hR (ih hinv hrun)

/-- The rule for a system whose every run is admitted. -/
theorem run_invariant_of_step {I : σ → Prop}
    (hstep : ∀ s a s', I s → step s a = some s' → I s') {s s' : σ} {as : List α} (h : I s)
    (hrun : run step s as = some s') : I s' :=
  run_invariant (C := fun _ _ => True) (fun s a s' hi _ => hstep s a s' hi) h .true hrun

/-- An invariant that also speaks of the actions so far. -/
theorem run_history {I : List α → σ → Prop}
    (hstep : ∀ as s a s', I as s → step s a = some s' → I (as ++ [a]) s') {s s' : σ} {as : List α}
    (h : I [] s) (hrun : run step s as = some s') : I as s' := by
  suffices hall : ∀ bs (s : σ), I bs s → run step s as = some s' → I (bs ++ as) s' by
    exact hall [] s h hrun
  clear h hrun
  induction as with
  | nil =>
    intro bs s h hrun
    cases hrun
    rwa [List.append_nil]
  | cons a as ih =>
    intro bs s h hrun
    obtain ⟨s₁, hs, hrun⟩ := run_cons.mp hrun
    have := ih (bs ++ [a]) s₁ (hstep bs s a s₁ h hs) hrun
    rwa [List.append_assoc, List.singleton_append] at this

/-! ## Progress -/

/-- Some run that meets `C` leads from `s` to `s'`. -/
def LeadsTo (step : σ → α → Option σ) (C : σ → α → Prop) (s s' : σ) : Prop :=
  ∃ as, run step s as = some s' ∧ Along step C s as

section
variable {C : σ → α → Prop} {I P : σ → Prop} {s s₁ s' : σ} {a : α}

theorem LeadsTo.refl : LeadsTo step C s s := ⟨[], rfl, trivial⟩

theorem LeadsTo.cons (h : step s a = some s₁) (hC : C s a) (hrest : LeadsTo step C s₁ s') :
    LeadsTo step C s s' := by
  obtain ⟨as, hrun, halong⟩ := hrest
  refine ⟨a :: as, run_cons.mpr ⟨s₁, h, hrun⟩, hC, fun s₂ h₂ => ?_⟩
  cases h.symm.trans h₂
  exact halong

theorem LeadsTo.trans (h : LeadsTo step C s s₁) (h' : LeadsTo step C s₁ s') : LeadsTo step C s s' := by
  obtain ⟨as, hrun, halong⟩ := h
  induction as generalizing s with
  | nil => cases hrun; exact h'
  | cons a as ih =>
    obtain ⟨s₂, h₂, hrun⟩ := run_cons.mp hrun
    exact .cons h₂ halong.1 (ih hrun (halong.2 s₂ h₂))

theorem LeadsTo.invariant (hstep : ∀ s a s', I s → C s a → step s a = some s' → I s')
    (h : LeadsTo step C s s') (hI : I s) : I s' := by
  obtain ⟨as, hrun, halong⟩ := h
  exact run_invariant hstep hI halong hrun

/-- The rule for progress: while `P` does not hold, the system can go on to a state that keeps the
invariant and has a lower measure. -/
theorem LeadsTo.of_measure (measure : σ → Nat)
    (hstep : ∀ s, I s → ¬P s → ∃ s', LeadsTo step C s s' ∧ I s' ∧ measure s' < measure s) (h : I s) :
    ∃ s', LeadsTo step C s s' ∧ I s' ∧ P s' := by
  induction hn : measure s using Nat.strongRecOn generalizing s with
  | ind n ih =>
    subst hn
    by_cases hP : P s
    · exact ⟨s, .refl, h, hP⟩
    · obtain ⟨s₁, hlead₁, hI, hlt⟩ := hstep s h hP
      obtain ⟨s', hlead, hs'⟩ := ih _ hlt hI rfl
      exact ⟨s', hlead₁.trans hlead, hs'⟩

end

end

end MotuProxy
