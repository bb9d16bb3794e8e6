import Mathlib.Algebra.Order.Field.Rat
import Mathlib.Data.List.Induction
import Mathlib.Tactic.Linarith
import MotuProxy.Verify.Lifecycle

/-! # When a managed datastore reconnects

`Delays.attemptAt` is the schedule that the reconnects follow: a function of the failures and of the
successful opens that have happened. `Scheduled` says that the fields are what the schedule asks
for, `CoreStep.scheduled` that every move keeps this.
-/

namespace MotuProxy

open Py Responses

namespace Datastore

open ManagedDatastore (temporaryUnavailable)

/-! ## The schedule -/

/-- What the schedule depends on, with the clock reading when it is handled: a failure after which
the device may come back, a failure of the configuration, and a successful open. -/
inductive ReconnectEvent where
  | failure (now : ℚ)
  | configurationError (now : ℚ)
  | opened
  deriving DecidableEq, Repr

/-- The failures since the last successful open. A history has its newest event first. -/
def failures : List ReconnectEvent → Nat
  | [] | .opened :: _ => 0
  | .failure _ :: history => failures history + 1
  | .configurationError _ :: history => failures history

/-- The delays that a managed datastore works with. -/
structure Delays where
  initial : ℚ
  maximum : ℚ
  configuration : ℚ
  initial_nonneg : 0 ≤ initial
  initial_le : initial ≤ maximum

namespace Delays

/-- The delays for the arguments of the constructor. -/
def of (initialDelay maxDelay configurationErrorRetryDelay : ℚ) : Delays where
  initial := max 0 initialDelay
  maximum := max (max 0 initialDelay) maxDelay
  configuration := max 0 configurationErrorRetryDelay
  initial_nonneg := le_max_left _ _
  initial_le := le_max_left _ _

/-- The delay after the `k`-th failure in a row. -/
def backoff (d : Delays) (k : Nat) : ℚ := min d.maximum (d.initial * 2 ^ (k - 1))

/-- The time of the next attempt, as it was last scheduled. -/
def attemptAt (d : Delays) : List ReconnectEvent → Option ℚ
  | [] => none
  | .failure now :: history => some (now + d.backoff (failures history + 1))
  | .configurationError now :: _ => some (now + d.configuration)
  | .opened :: history => d.attemptAt history

theorem backoff_one (d : Delays) : d.backoff 1 = d.initial := by
  rw [backoff, Nat.sub_self, pow_zero, mul_one, min_eq_right d.initial_le]

/-- Doubling up to the maximum is the closed form. -/
theorem backoff_succ (d : Delays) (k : Nat) :
    min d.maximum (max d.initial (d.backoff (k + 1) * 2)) = d.backoff (k + 1 + 1) := by
  have hinitial := d.initial_nonneg
  have hmaximum := d.initial_le
  have hx : d.initial ≤ d.initial * 2 ^ k :=
    le_mul_of_one_le_right hinitial (one_le_pow₀ (by norm_num))
  simp only [backoff, Nat.add_sub_cancel, pow_succ, ← mul_assoc]
  generalize d.initial * 2 ^ k = x at hx
  rcases le_total d.maximum x with h | h
  · rw [min_eq_left h, max_eq_right (by linarith), min_eq_left (by linarith),
      min_eq_left (by linarith)]
  · rw [min_eq_right h, max_eq_right (by linarith)]

end Delays

/-! ## What the fields have to do with the schedule -/

namespace LifecycleThread

/-- The event that the next step of the thread handles. -/
def event (now : ℚ) : LifecycleThread → Option ReconnectEvent
  | .call _ (.openFailed exc) =>
    some (if isReconnectableDeviceLoss exc true then .failure now else .configurationError now)
  | .call _ (.lost _ _) => some (.failure now)
  | .call _ (.entered _) => some .opened
  | _ => none

/-- The thread has found that the time of the next attempt has come. -/
def reconnecting : LifecycleThread → Bool
  | .call _ .opening | .call _ (.entering _) | .call _ (.entered _)
  | .call _ (.openFailed _) => true
  | _ => false

/-- Only the holder of the operation lock handles an event. -/
theorem event_eq_none (t : LifecycleThread) (h : t.holds = false) : t.event now = none := by
  unfold LifecycleThread.event
  split
  · cases h
  · cases h
  · cases h
  · rfl

end LifecycleThread

section
variable {k k' : Core} {t' : LifecycleThread}

theorem CoreStep.of_releasing (h : CoreStep now outcome k (.call m (.releasing r)) k' t') :
    t' = .call m (.done r) := by
  cases h
  rfl

theorem CoreStep.not_done (h : CoreStep now outcome k (.call m (.done r)) k' t') : False := by
  cases h

end

/-- The fields are what the schedule asks for after the events of the history. -/
structure Scheduled (d : Delays) (history : List ReconnectEvent) (now : ℚ) (s : Lifecycle)
    (owner : Option LifecycleThread) : Prop where
  initial : s.initialDelay = d.initial
  maximum : s.maxDelay = d.maximum
  configuration : s.configurationErrorRetryDelay = d.configuration
  retry : s.retryDelay = d.backoff (failures history + 1)
  attempt : ∀ time, d.attemptAt history = some time → time ≤ s.nextRetryAt
  pending : s.closed = false → s.datastore = none → ∀ time, d.attemptAt history = some time →
    s.nextRetryAt = time
  due : ∀ t, owner = some t → t.reconnecting = true → s.nextRetryAt ≤ now

section
variable {d : Delays} {history : List ReconnectEvent} {now : ℚ} {s s' : Lifecycle}
  {owner owner' : Option LifecycleThread}

/-- A step that schedules nothing. -/
theorem Scheduled.update (h : Scheduled d history now s owner)
    (hinitial : s'.initialDelay = s.initialDelay) (hmaximum : s'.maxDelay = s.maxDelay)
    (hconfiguration : s'.configurationErrorRetryDelay = s.configurationErrorRetryDelay)
    (hretry : s'.retryDelay = s.retryDelay) (hnext : s'.nextRetryAt = s.nextRetryAt)
    (hsession : s'.closed = false → s'.datastore = none → s.closed = false ∧ s.datastore = none)
    (hdue : ∀ t, owner' = some t → t.reconnecting = true → s.nextRetryAt ≤ now) :
    Scheduled d history now s' owner' where
  initial := hinitial.trans h.initial
  maximum := hmaximum.trans h.maximum
  configuration := hconfiguration.trans h.configuration
  retry := hretry.trans h.retry
  attempt time ht := hnext ▸ h.attempt time ht
  pending hopen hnone time ht := by
    obtain ⟨hopen, hnone⟩ := hsession hopen hnone
    rw [hnext, h.pending hopen hnone time ht]
  due t ht hr := hnext ▸ hdue t ht hr

/-- A step of the holder that leaves the fields alone. -/
theorem Scheduled.move (h : Scheduled d history now s owner)
    (hdue : ∀ t, owner' = some t → t.reconnecting = true → s.nextRetryAt ≤ now) :
    Scheduled d history now s owner' :=
  h.update rfl rfl rfl rfl rfl (fun hopen hnone => ⟨hopen, hnone⟩) hdue

/-- A step that handles a failure. -/
theorem Scheduled.failure (h : Scheduled d history now s owner)
    (hinitial : s'.initialDelay = s.initialDelay) (hmaximum : s'.maxDelay = s.maxDelay)
    (hconfiguration : s'.configurationErrorRetryDelay = s.configurationErrorRetryDelay)
    (hretry : s'.retryDelay = min s.maxDelay (max s.initialDelay (s.retryDelay * 2)))
    (hnext : s'.nextRetryAt = now + s.retryDelay)
    (hdue : ∀ t, owner' = some t → t.reconnecting = false) :
    Scheduled d (.failure now :: history) now s' owner' := by
  rw [h.retry] at hnext
  refine ⟨hinitial.trans h.initial, hmaximum.trans h.maximum, hconfiguration.trans h.configuration,
    ?_, fun time ht => ?_, fun _ _ time ht => ?_, fun t ht hr => ?_⟩
  · rw [hretry, h.initial, h.maximum, h.retry]
    exact d.backoff_succ _
  · cases ht
    exact hnext.ge
  · cases ht
    exact hnext
  · rw [hdue t ht] at hr
    cases hr

theorem Scheduled.configurationError (h : Scheduled d history now s owner)
    (hinitial : s'.initialDelay = s.initialDelay) (hmaximum : s'.maxDelay = s.maxDelay)
    (hconfiguration : s'.configurationErrorRetryDelay = s.configurationErrorRetryDelay)
    (hretry : s'.retryDelay = s.retryDelay)
    (hnext : s'.nextRetryAt = now + s.configurationErrorRetryDelay)
    (hdue : ∀ t, owner' = some t → t.reconnecting = false) :
    Scheduled d (.configurationError now :: history) now s' owner' := by
  rw [h.configuration] at hnext
  refine ⟨hinitial.trans h.initial, hmaximum.trans h.maximum, hconfiguration.trans h.configuration,
    hretry.trans h.retry, fun time ht => ?_, fun _ _ time ht => ?_, fun t ht hr => ?_⟩
  · cases ht
    exact hnext.ge
  · cases ht
    exact hnext
  · rw [hdue t ht] at hr
    cases hr

end

section
variable {d : Delays} {k : Core} {m : Method}

/-- The check for a session leaves the delays alone; a session is opened when it is due. -/
theorem Scheduled.checked {t : LifecycleThread}
    (hs : Scheduled d history now k.state (LifecycleThread.owner (.call m .ensuring)))
    (h : k.state.checkSession now = (check, s)) (hdue : ∀ t', t.owner = some t' → t'.reconnecting = true →
      s.nextRetryAt ≤ now) : Scheduled d history now s t.owner := by
  rcases checkSession_cases h with ⟨-, rfl⟩ | ⟨-, -, -, -, -, rfl⟩ | ⟨_, -, -, rfl⟩ | ⟨-, -, -, -, rfl⟩ <;>
    exact hs.update rfl rfl rfl rfl rfl (fun hopen hnone => ⟨hopen, hnone⟩) hdue

/-- An attempt has failed, and the next one is due after the delay of its kind. -/
theorem Scheduled.failed
    (hs : Scheduled d history now k.state (LifecycleThread.owner (.call m (.openFailed exc)))) :
    Scheduled d (((LifecycleThread.call m (.openFailed exc)).event now).toList ++ history) now
      (k.state.openFailed now exc).2 (LifecycleThread.owner (.call m (.releasing r))) := by
  simp only [LifecycleThread.event, Lifecycle.openFailed]
  split
  · refine hs.failure rfl rfl rfl rfl rfl fun t ht => ?_
    cases ht
    rfl
  · refine hs.configurationError rfl rfl rfl rfl rfl fun t ht => ?_
    cases ht
    rfl

/-- A session is open, and the delays start anew. -/
theorem Scheduled.install
    (hs : Scheduled d history now k.state (LifecycleThread.owner (.call m (.entered context)))) :
    Scheduled d (((LifecycleThread.call m (.entered context)).event now).toList ++ history) now
      (k.state.install now context context) (LifecycleThread.owner (.call m (.operating context))) := by
  refine ⟨hs.initial, hs.maximum, hs.configuration, ?_, fun time ht => ?_, fun _ hnone => ?_,
    fun t ht hr => ?_⟩
  · exact hs.initial.trans d.backoff_one.symm
  · exact (hs.attempt time ht).trans (hs.due _ rfl rfl)
  · cases hnone
  · cases ht
    cases hr

end

theorem CoreStep.scheduled {d : Delays} {k k' : Core} (h : CoreStep now outcome k t k' t')
    (hk : Sound k t.owner) (hs : Scheduled d history now k.state t.owner) :
    Scheduled d ((t.event now).toList ++ history) now k'.state t'.owner := by
  cases h with
  | acquire | returned | lost | acquireClose =>
    refine hs.move fun t ht hr => ?_
    cases ht
    cases hr
  | release | status =>
    refine hs.move fun t ht hr => ?_
    cases ht
  | unavailable h | present h =>
    refine hs.checked h fun t ht hr => ?_
    cases ht
    cases hr
  | reconnect h =>
    refine hs.checked h fun _ _ _ => ?_
    obtain ⟨-, -, hdue, rfl⟩ := checkSession_reconnect h
    exact hdue
  | openRaised | opened | enterRaised | entered =>
    exact hs.move fun _ _ _ => hs.due _ rfl rfl
  | failed => exact hs.failed
  | reject h => exact absurd h hk.not_reject
  | install => exact hs.install
  | rejected => exact (hk.fits _ rfl).elim
  | stale h => exact absurd (hk.fits _ rfl).1 h
  | discard =>
    refine hs.failure rfl rfl rfl rfl rfl fun t ht => ?_
    cases ht
    rfl
  | discardNone _ hcontext => cases hk.context_of_lost.symm.trans hcontext
  | exited =>
    refine hs.update rfl rfl rfl rfl rfl (fun hopen hnone => ⟨hopen, hnone⟩) fun t ht hr => ?_
    cases ht
    cases hr
  | closeDrop =>
    refine hs.update rfl rfl rfl rfl rfl (fun hopen => ?_) fun t ht hr => ?_
    · cases hopen
    · cases ht
      cases hr
  | closeDone =>
    refine hs.update rfl rfl rfl rfl rfl (fun hopen => ?_) fun t ht => ?_
    · cases hopen
    · cases ht
  | closeExited =>
    refine hs.update rfl rfl rfl rfl rfl (fun hopen hnone => ⟨hopen, hnone⟩) fun t ht => ?_
    cases ht

/-! ## Runs -/

namespace LifecycleWorld

/-- The event that the action handles. -/
def event (w : LifecycleWorld) : Action → Option ReconnectEvent
  | .thread i _ => w.threads[i]?.bind (·.event w.now)
  | _ => none

/-- The events of a run, the newest first. -/
def history (w : LifecycleWorld) : List Action → List ReconnectEvent
  | [] => []
  | a :: as => match w.step a with
    | some w' => w'.history as ++ (w.event a).toList
    | none => []

theorem history_concat {w w' : LifecycleWorld} (h : run step w as = some w')
    (hstep : w'.step a = some w'') :
    w.history (as ++ [a]) = (w'.event a).toList ++ w.history as := by
  induction as generalizing w with
  | nil =>
    cases h
    simp [history, hstep]
  | cons b as ih =>
    obtain ⟨w₁, h₁, h⟩ := run_cons.mp h
    simp [history, h₁, ih h]

/-- A managed datastore before any call, at some reading of the clock. -/
def initAt (now initialDelay maxDelay configurationErrorRetryDelay : ℚ) : LifecycleWorld :=
  { init initialDelay maxDelay configurationErrorRetryDelay with now }

variable {w w' : LifecycleWorld}

theorem Valid.scheduled_moves {d : Delays} (hw : w.Valid) (hi : w.threads[i]? = some t)
    (hm : Moves w i outcome t w' t') (hs : Scheduled d events w.now w.state w.owner) :
    Scheduled d ((t.event w.now).toList ++ events) w'.now w'.state w'.owner := by
  rw [hm.now]
  by_cases hlock : t.holds = true ∨ t'.holds = true
  · obtain ⟨howner, howner'⟩ := hw.owner_moves hi hm hlock
    rw [howner']
    exact hm.core.scheduled (howner ▸ hw.sound) (howner ▸ hs)
  · obtain ⟨ht, ht'⟩ : t.holds = false ∧ t'.holds = false := by simpa using hlock
    have hstate : w'.state = w.state := congrArg Core.state (hm.core.idle ht ht').1
    rw [hw.owner_idle hi hm ht ht', hstate, t.event_eq_none ht]
    exact hs

theorem Valid.scheduled_step {d : Delays} (hw : w.Valid)
    (hs : Scheduled d events w.now w.state w.owner) (h : w.step a = some w') :
    Scheduled d ((w.event a).toList ++ events) w'.now w'.state w'.owner := by
  cases a with
  | tick later =>
    simp only [LifecycleWorld.step] at h
    split at h <;> cases h
    rename_i hle
    exact ⟨hs.initial, hs.maximum, hs.configuration, hs.retry, hs.attempt, hs.pending,
      fun t ht hr => (hs.due t ht hr).trans hle⟩
  | call | status | close =>
    cases h
    rw [hw.owner_spawn]
    exact hs
  | thread i outcome =>
    obtain ⟨t, t', hi, hm⟩ := step_thread h
    have hevent : w.event (.thread i outcome) = t.event w.now := by
      rw [event, hi]
      rfl
    rw [hevent]
    exact hw.scheduled_moves hi hm hs

theorem Valid.initAt (now initialDelay maxDelay configurationErrorRetryDelay : ℚ) :
    (LifecycleWorld.initAt now initialDelay maxDelay configurationErrorRetryDelay).Valid := by
  have h := Valid.init initialDelay maxDelay configurationErrorRetryDelay
  exact ⟨h.holder, h.bound, h.sound, h.finished⟩

theorem scheduled_initAt (now initialDelay maxDelay configurationErrorRetryDelay : ℚ) :
    Scheduled (.of initialDelay maxDelay configurationErrorRetryDelay) [] now
      (LifecycleWorld.initAt now initialDelay maxDelay configurationErrorRetryDelay).state
      none := by
  refine ⟨rfl, rfl, rfl, ?_, fun time ht => ?_, fun _ _ time ht => ?_, fun t ht => ?_⟩
  · exact (Delays.of initialDelay maxDelay configurationErrorRetryDelay).backoff_one.symm
  · cases ht
  · cases ht
  · cases ht

variable {start initialDelay maxDelay configurationErrorRetryDelay : ℚ} {as : List Action}

/-- In every run, the fields are what the schedule asks for. -/
theorem scheduled_run
    (hrun : run LifecycleWorld.step
      (initAt start initialDelay maxDelay configurationErrorRetryDelay) as = some w) :
    w.Valid ∧ Scheduled (.of initialDelay maxDelay configurationErrorRetryDelay)
      ((initAt start initialDelay maxDelay configurationErrorRetryDelay).history as)
      w.now w.state w.owner := by
  induction as using List.reverseRecOn generalizing w with
  | nil =>
    cases hrun
    exact ⟨.initAt .., scheduled_initAt ..⟩
  | append_singleton as a ih =>
    obtain ⟨w₁, h₁, hstep⟩ := run_append.mp hrun
    obtain ⟨_, hstep, hlast⟩ := run_cons.mp hstep
    cases hlast
    obtain ⟨hw, hs⟩ := ih h₁
    rw [history_concat h₁ hstep]
    exact ⟨(hw.step hstep).1, hw.scheduled_step hs hstep⟩

/-! ## The backoff -/

/-- What holds of the reconnects after the events of a run, in the state that it ends in. -/
structure BacksOff (d : Delays) (events : List ReconnectEvent) (w : LifecycleWorld) : Prop where
  /-- The next attempt after the `k`-th failure. -/
  failure : ∀ a w' now, w.step a = some w' → w.event a = some (.failure now) → now = w.now ∧
    w'.state.nextRetryAt =
      now + min d.maximum (d.initial * 2 ^ (failures (.failure now :: events) - 1))
  configurationError : ∀ a w' now, w.step a = some w' → w.event a = some (.configurationError now) →
    now = w.now ∧ w'.state.nextRetryAt = now + d.configuration ∧
    w'.state.retryDelay = w.state.retryDelay
  /-- The opener is not called too early. -/
  due : ∀ (i : Nat) m time, w.threads[i]? = some (.call m .opening) →
    d.attemptAt events = some time → time ≤ w.now
  /-- A call calls the opener once. -/
  once : ∀ (i : Nat) m outcome (w₁ : LifecycleWorld) bs w',
    w.threads[i]? = some (.call m .opening) →
    w.step (.thread i outcome) = some w₁ → run LifecycleWorld.step w₁ bs = some w' →
    w'.threads[i]? ≠ some (LifecycleThread.call m .opening)
  /-- A call that comes too early raises, and changes the reconnect state at most. -/
  early : ∀ (i : Nat) m outcome w' time, w.threads[i]? = some (.call m .ensuring) →
    w.state.datastore = none → d.attemptAt events = some time → w.now < time →
    w.step (.thread i outcome) = some w' →
    w' = { w with
      state := { w.state with reconnectState := w'.state.reconnectState }
      threads := w.threads.set i (.call m (.releasing (.error temporaryUnavailable))) } ∧
    ∀ bs (v : LifecycleWorld), run LifecycleWorld.step w' bs = some v →
      v.threads[i]? = some (.call m (.releasing (.error temporaryUnavailable))) ∨
      v.threads[i]? = some (.call m (.done (.error temporaryUnavailable)))

theorem event_thread (h : w.event a = some e) :
    ∃ i outcome t, a = .thread i outcome ∧ w.threads[i]? = some t ∧ t.event w.now = some e := by
  unfold event at h
  split at h
  · obtain ⟨t, ht, he⟩ := Option.bind_eq_some_iff.mp h
    exact ⟨_, _, t, rfl, ht, he⟩
  · cases h

/-- A call that is about to raise does. -/
theorem step_finishing {j : Nat} (h : w.step a = some w')
    (hj : w.threads[j]? = some (.call m (.releasing r)) ∨
      w.threads[j]? = some (.call m (.done r))) :
    w'.threads[j]? = some (.call m (.releasing r)) ∨ w'.threads[j]? = some (.call m (.done r)) := by
  have hlt : j < w.threads.length := by
    rcases hj with hj | hj <;> exact (List.getElem?_eq_some_iff.mp hj).1
  cases a with
  | tick later =>
    simp only [LifecycleWorld.step] at h
    split at h <;> cases h
    exact hj
  | call | status | close =>
    cases h
    simpa only [List.getElem?_append_left hlt] using hj
  | thread i outcome =>
    obtain ⟨t, t', ht, hmoves⟩ := step_thread h
    rw [hmoves.threads]
    by_cases hij : i = j
    · subst hij
      rw [List.getElem?_set_self hlt]
      rcases hj with hj | hj <;> cases hj.symm.trans ht
      · exact .inr (congrArg some hmoves.core.of_releasing)
      · exact hmoves.core.not_done.elim
    · rwa [List.getElem?_set_ne hij]

end LifecycleWorld

section
variable {k k' : Core} {t t' : LifecycleThread}

/-- The time of the next attempt after a failure was handled. -/
theorem CoreStep.failure (h : CoreStep now outcome k t k' t') (hk : Sound k t.owner)
    (he : t.event now = some (.failure time)) :
    time = now ∧ k'.state.nextRetryAt = now + k.state.retryDelay := by
  cases h with
  | failed =>
    simp only [LifecycleThread.event] at he
    split at he <;> cases he
    rename_i hloss
    refine ⟨rfl, ?_⟩
    simp only [Lifecycle.openFailed, hloss]
    rfl
  | discard => cases he; exact ⟨rfl, rfl⟩
  | stale h => exact absurd (hk.fits _ rfl).1 h
  | discardNone h hcontext =>
    rw [hk.paired, h] at hcontext
    cases hcontext
  | _ => cases he

theorem CoreStep.configurationError (h : CoreStep now outcome k t k' t')
    (he : t.event now = some (.configurationError time)) :
    time = now ∧ k'.state.nextRetryAt = now + k.state.configurationErrorRetryDelay ∧
      k'.state.retryDelay = k.state.retryDelay := by
  cases h with
  | failed =>
    simp only [LifecycleThread.event] at he
    split at he <;> cases he
    rename_i hloss
    refine ⟨rfl, ?_⟩
    simp only [Lifecycle.openFailed, hloss]
    exact ⟨rfl, rfl⟩
  | _ => cases he

end

theorem Lifecycle.checkSession_early {s : Lifecycle} (hnone : s.datastore = none)
    (h : s.closed = false → now < s.nextRetryAt) :
    ∃ state, s.checkSession now = (.unavailable, { s with reconnectState := state }) := by
  unfold Lifecycle.checkSession
  by_cases hclosed : s.closed = true
  · exact ⟨s.reconnectState, if_pos hclosed⟩
  · rw [if_neg hclosed]
    split
    · next hsome => rw [hnone] at hsome; cases hsome
    · rw [if_pos (h (Bool.eq_false_iff.mpr hclosed))]
      split
      · exact ⟨.backoff, rfl⟩
      · exact ⟨s.reconnectState, rfl⟩

namespace LifecycleWorld

variable {w : LifecycleWorld} {start initialDelay maxDelay configurationErrorRetryDelay : ℚ}
  {as : List Action}

/-- The reconnects of a managed datastore follow the schedule, in every interleaving of its calls
and at any readings of the clock. -/
theorem reconnect_backoff
    (hrun : run LifecycleWorld.step
      (initAt start initialDelay maxDelay configurationErrorRetryDelay) as = some w) :
    BacksOff (.of initialDelay maxDelay configurationErrorRetryDelay)
      ((initAt start initialDelay maxDelay configurationErrorRetryDelay).history as) w := by
  obtain ⟨hw, hs⟩ := scheduled_run hrun
  generalize (initAt start initialDelay maxDelay configurationErrorRetryDelay).history as =
    events at hs
  have hsound {i t t' w' outcome e} (hi : w.threads[i]? = some t) (hm : Moves w i outcome t w' t')
      (he : t.event w.now = some e) : Sound w.core t.owner := by
    have hholds : t.holds = true := by
      cases hholds : t.holds with
      | true => rfl
      | false => rw [t.event_eq_none hholds] at he; cases he
    exact (hw.owner_moves hi hm (.inl hholds)).1 ▸ hw.sound
  refine ⟨fun a w' now hstep he => ?_, fun a w' now hstep he => ?_, fun i m time hi htime => ?_,
    fun i m outcome w₁ bs w' hi hstep hrun' => ?_,
    fun i m outcome w' time hi hnone htime hearly hstep => ?_⟩
  · obtain ⟨i, outcome, t, rfl, hi, he⟩ := event_thread he
    obtain ⟨_, t', hi', hm⟩ := step_thread hstep
    cases hi.symm.trans hi'
    obtain ⟨rfl, hnext⟩ := hm.core.failure (hsound hi hm he) he
    exact ⟨rfl, hnext.trans (congrArg (w.now + ·) hs.retry)⟩
  · obtain ⟨i, outcome, t, rfl, hi, he⟩ := event_thread he
    obtain ⟨_, t', hi', hm⟩ := step_thread hstep
    cases hi.symm.trans hi'
    obtain ⟨rfl, hnext, hretry⟩ := hm.core.configurationError he
    exact ⟨rfl, hnext.trans (congrArg (w.now + ·) hs.configuration), hretry⟩
  · exact (hs.attempt time htime).trans (hs.due _ (hw.owner_eq hi rfl) rfl)
  · obtain ⟨pc, hpc, hrank⟩ := call_goes_on hi hstep hrun'
    rw [hpc]
    rintro ⟨⟩
    exact Nat.lt_irrefl _ hrank
  · have hbefore (hopen : w.state.closed = false) : w.now < w.state.nextRetryAt := by
      rw [hs.pending hopen hnone time htime]
      exact hearly
    obtain ⟨state, hcheck⟩ := Lifecycle.checkSession_early hnone hbefore
    have hw' : w' = { w with
        state := { w.state with reconnectState := state }
        threads := w.threads.set i (.call m (.releasing (.error temporaryUnavailable))) } := by
      simp only [LifecycleWorld.step, hi, stepCall, hcheck] at hstep
      split at hstep <;> cases hstep
      rfl
    subst hw'
    refine ⟨rfl, fun bs v hrun' => ?_⟩
    refine run_invariant_of_step (I := fun v : LifecycleWorld =>
      v.threads[i]? = some (.call m (.releasing (.error temporaryUnavailable))) ∨
      v.threads[i]? = some (.call m (.done (.error temporaryUnavailable))))
      (fun _ _ _ hv hstep => step_finishing hstep hv) (.inl ?_) hrun'
    exact List.getElem?_set_self (List.getElem?_eq_some_iff.mp hi).1

/-- Two failed opens with an error of the configuration between them, and the third failure before
it is handled. -/
def thirdFailureRun : List Action :=
  [.call .get, .thread 0 .returned, .thread 0 .returned, .thread 0 (.raised ⟨.noDeviceFound, []⟩),
    .thread 0 .returned, .thread 0 .returned, .tick 1,
    .call .get, .thread 1 .returned, .thread 1 .returned, .thread 1 (.raised ⟨.valueError, []⟩),
    .thread 1 .returned, .thread 1 .returned, .tick 11,
    .call .get, .thread 2 .returned, .thread 2 .returned, .thread 2 (.raised ⟨.osError 19, []⟩),
    .thread 2 .returned, .thread 2 .returned, .tick 13,
    .call .post, .thread 3 .returned, .thread 3 .returned, .thread 3 (.raised ⟨.noDeviceFound, []⟩),
    .tick 14]

theorem reconnect_backoff_third :
    ∃ w w', run LifecycleWorld.step (initAt 0 1 3 10) thirdFailureRun = some w ∧
      w.step (.thread 3 .returned) = some w' ∧ w.now = 14 ∧ w'.state.nextRetryAt = 14 + 3 := by
  have hfacts : (run LifecycleWorld.step (initAt 0 1 3 10) thirdFailureRun).map (fun w =>
      ((w.step (.thread 3 .returned)).isSome, w.event (.thread 3 .returned), w.now)) =
      some (true, some (.failure 14), 14) := by decide +kernel
  have hevents : (initAt 0 1 3 10).history thirdFailureRun =
      [.failure 11, .configurationError 1, .failure 0] := by decide +kernel
  obtain ⟨w, hw, hfacts⟩ := Option.map_eq_some_iff.mp hfacts
  simp only [Prod.mk.injEq] at hfacts
  obtain ⟨hstep, hevent, hnow⟩ := hfacts
  obtain ⟨w', hstep⟩ := Option.isSome_iff_exists.mp hstep
  refine ⟨w, w', hw, hstep, hnow, ?_⟩
  rw [((reconnect_backoff hw).failure _ _ _ hstep hevent).2, hevents]
  decide +kernel

end LifecycleWorld

end Datastore

end MotuProxy
