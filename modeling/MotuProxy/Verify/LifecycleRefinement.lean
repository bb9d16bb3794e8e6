import Mathlib.Logic.Relation
import MotuProxy.Verify.Lifecycle

/-! # The threads refine the calls

`Model.Managed` takes a call of the managed datastore in one step up to the operation, and in one
step after it. The threads of `Model.Lifecycle` do the same to the fields, in smaller steps: whatever
they do is a run of those calls, and where no thread holds the operation lock the fields agree. So
what the calls keep holds of the fields between the calls, in every interleaving.
-/

namespace MotuProxy

open Py Responses

namespace Datastore

open ManagedDatastore (temporaryUnavailable)

/-- A part of a call of the managed datastore, as `Model.Managed` has it. -/
inductive ManagedStep (d : ManagedDatastore) : ManagedDatastore → Prop where
  | ensure (hle : now ≤ later) : ManagedStep d (d.ensureSession now later opener).2
  | raised (hsession : d.datastore.isSome = true) : ManagedStep d (d.callRaised now exc cleared exit).2
  | close : ManagedStep d (d.close exit)

/-- The fields agree; sessions are compared by whether they are there. -/
structure SameFields (s : Lifecycle) (d : ManagedDatastore) : Prop where
  initialDelay : d.initialDelay = s.initialDelay
  maxDelay : d.maxDelay = s.maxDelay
  configurationErrorRetryDelay : d.configurationErrorRetryDelay = s.configurationErrorRetryDelay
  session : d.datastore.isSome = s.datastore.isSome
  generation : d.sessionGeneration = s.sessionGeneration
  state : d.reconnectState = s.reconnectState
  error : d.lastReconnectError = s.lastReconnectError
  retryDelay : d.retryDelay = s.retryDelay
  scheduledRetryDelay : d.scheduledRetryDelay = s.scheduledRetryDelay
  nextRetryAt : d.nextRetryAt = s.nextRetryAt
  closed : d.closed = s.closed

/-- The fields agreed before a thread went to open a session, and the check that sent it there is not
undone. -/
def Reconnecting (k : Core) (now : ℚ) (d : ManagedDatastore) : Prop :=
  ∃ s earlier, SameFields s d ∧ s.closed = false ∧ s.datastore = none ∧ earlier ≤ now ∧
    s.nextRetryAt ≤ earlier ∧ k.state = { s with reconnectState := .reconnecting }

/-- What the fields have to do with those of `Model.Managed`, by the place of the thread that holds
the lock: they agree, or they did before this thread began to change them. -/
def Simulates (k : Core) (now : ℚ) (d : ManagedDatastore) : Option LifecycleThread → Prop
  | some (.call _ .opening) | some (.call _ (.entering _)) | some (.call _ (.openFailed _))
  | some (.call _ (.entered _)) => Reconnecting k now d
  | some (.call _ (.exiting _)) => ∃ s exc earlier, SameFields s d ∧ s.datastore.isSome = true ∧
    isReconnectableDeviceLoss exc false = true ∧
    k.state = ({ s with lastReconnectError := some exc }.scheduleRetry earlier).dropSession
  | some (.close (.exiting _)) => ∃ s, SameFields s d ∧ s.datastore.isSome = true ∧
    k.state = { s with closed := true }.dropSession
  | _ => SameFields k.state d

section
variable {s : Lifecycle} {d : ManagedDatastore}

theorem SameFields.scheduleRetry (h : SameFields s d) (now : ℚ) :
    SameFields (s.scheduleRetry now) (d.scheduleRetry now) := by
  refine ⟨h.initialDelay, h.maxDelay, h.configurationErrorRetryDelay, h.session, h.generation, rfl,
    h.error, ?_, h.retryDelay, ?_, h.closed⟩
  · simp only [ManagedDatastore.scheduleRetry, Lifecycle.scheduleRetry, h.maxDelay, h.initialDelay,
      h.retryDelay]
  · simp only [ManagedDatastore.scheduleRetry, Lifecycle.scheduleRetry, h.retryDelay]

theorem SameFields.scheduleConfigurationErrorRetry (h : SameFields s d) (now : ℚ) :
    SameFields (s.scheduleConfigurationErrorRetry now) (d.scheduleConfigurationErrorRetry now) := by
  refine ⟨h.initialDelay, h.maxDelay, h.configurationErrorRetryDelay, h.session, h.generation, rfl,
    h.error, h.retryDelay, h.configurationErrorRetryDelay, ?_, h.closed⟩
  simp only [ManagedDatastore.scheduleConfigurationErrorRetry,
    Lifecycle.scheduleConfigurationErrorRetry, h.configurationErrorRetryDelay]

theorem SameFields.setError (h : SameFields s d) (exc : Option Exn) :
    SameFields { s with lastReconnectError := exc } { d with lastReconnectError := exc } :=
  ⟨h.initialDelay, h.maxDelay, h.configurationErrorRetryDelay, h.session, h.generation, h.state, rfl,
    h.retryDelay, h.scheduledRetryDelay, h.nextRetryAt, h.closed⟩

theorem SameFields.setState (h : SameFields s d) (state : ReconnectState) :
    SameFields { s with reconnectState := state } { d with reconnectState := state } :=
  ⟨h.initialDelay, h.maxDelay, h.configurationErrorRetryDelay, h.session, h.generation, rfl, h.error,
    h.retryDelay, h.scheduledRetryDelay, h.nextRetryAt, h.closed⟩

/-- The session and `__exit__` in one step, or in two. -/
theorem SameFields.discard (h : SameFields s d) (hsession : s.datastore.isSome = true)
    (exit : Option Exn) : SameFields (s.dropSession.discarded exit) (d.discardSession exit) := by
  have hd : d.datastore.isSome = true := h.session.trans hsession
  refine ⟨h.initialDelay, h.maxDelay, h.configurationErrorRetryDelay, rfl, h.generation, ?_, ?_,
    h.retryDelay, h.scheduledRetryDelay, h.nextRetryAt, h.closed⟩
  · simp only [ManagedDatastore.discardSession, Lifecycle.discarded, Lifecycle.dropSession]
    rw [h.state]
    rfl
  · simp [ManagedDatastore.discardSession, Lifecycle.discarded, Lifecycle.dropSession, h.error, hd]

theorem SameFields.discard_none (h : SameFields s d) (hnone : s.datastore = none) :
    SameFields (s.dropSession.discarded none) (d.discardSession none) := by
  have hd : d.datastore.isSome = false := by rw [h.session, hnone]; rfl
  refine ⟨h.initialDelay, h.maxDelay, h.configurationErrorRetryDelay, rfl, h.generation, ?_, ?_,
    h.retryDelay, h.scheduledRetryDelay, h.nextRetryAt, h.closed⟩
  · simp only [ManagedDatastore.discardSession, Lifecycle.discarded, Lifecycle.dropSession]
    rw [h.state]
    rfl
  · cases herror : s.lastReconnectError <;>
      simp [ManagedDatastore.discardSession, Lifecycle.discarded, Lifecycle.dropSession, h.error, hd,
        herror]

theorem SameFields.setClosed (h : SameFields s d) :
    SameFields { s with closed := true } { d with closed := true } :=
  ⟨h.initialDelay, h.maxDelay, h.configurationErrorRetryDelay, h.session, h.generation, h.state, h.error,
    h.retryDelay, h.scheduledRetryDelay, h.nextRetryAt, rfl⟩

theorem SameFields.no_session (h : SameFields s d) (hopen : s.closed = false)
    (hnone : s.datastore = none) : ¬d.closed = true ∧ ¬d.datastore.isSome = true := by
  rw [h.closed, hopen, h.session, hnone]
  exact ⟨Bool.false_ne_true, Bool.false_ne_true⟩

/-- An open that fails: the check before it and the bookkeeping after it are one call. -/
theorem SameFields.openFailed (h : SameFields s d) (hopen : s.closed = false) (hnone : s.datastore = none)
    (hretry : s.nextRetryAt ≤ now) (later : ℚ) (exc : Exn) :
    SameFields ({ s with reconnectState := .reconnecting }.openFailed later exc).2
      (d.ensureSession now later (some exc)).2 := by
  have hsame := (h.setState .reconnecting).setError (some exc)
  obtain ⟨hclosed, hd⟩ := h.no_session hopen hnone
  have hnot : ¬now < d.nextRetryAt := by rw [h.nextRetryAt]; exact not_lt.mpr hretry
  unfold ManagedDatastore.ensureSession Lifecycle.openFailed
  rw [if_neg hclosed, if_neg hd, if_neg hnot]
  simp only
  split
  · exact hsame.scheduleRetry later
  · exact hsame.scheduleConfigurationErrorRetry later

theorem SameFields.install (h : SameFields s d) (hopen : s.closed = false) (hnone : s.datastore = none)
    (hretry : s.nextRetryAt ≤ now) (later : ℚ) (context : Nat) :
    SameFields ({ s with reconnectState := .reconnecting }.install later context context)
      (d.ensureSession now later none).2 := by
  obtain ⟨hclosed, hd⟩ := h.no_session hopen hnone
  have hnot : ¬now < d.nextRetryAt := by rw [h.nextRetryAt]; exact not_lt.mpr hretry
  unfold ManagedDatastore.ensureSession Lifecycle.install
  rw [if_neg hclosed, if_neg hd, if_neg hnot]
  exact ⟨h.initialDelay, h.maxDelay, h.configurationErrorRetryDelay, rfl,
    congrArg (· + 1) h.generation, rfl, rfl, h.initialDelay, h.initialDelay, rfl, h.closed⟩

theorem SameFields.tooEarly (h : SameFields s d) (hopen : s.closed = false) (hnone : s.datastore = none)
    (hearly : now < s.nextRetryAt) (hstate : s.reconnectState ≠ .configurationError) :
    SameFields { s with reconnectState := .backoff } (d.ensureSession now now none).2 := by
  obtain ⟨hclosed, hd⟩ := h.no_session hopen hnone
  have hearly : now < d.nextRetryAt := by rw [h.nextRetryAt]; exact hearly
  have hstate : d.reconnectState ≠ .configurationError := by rw [h.state]; exact hstate
  unfold ManagedDatastore.ensureSession
  rw [if_neg hclosed, if_neg hd, if_pos hearly, if_pos hstate]
  exact h.setState .backoff

theorem SameFields.callRaised (h : SameFields s d) (hsession : s.datastore.isSome = true)
    (hexc : isReconnectableDeviceLoss exc false = true) (now : ℚ) (exit : Option Exn) :
    SameFields (({ s with lastReconnectError := some exc }.scheduleRetry now).dropSession.discarded exit)
      (d.callRaised now exc false exit).2 := by
  obtain ⟨session, hd⟩ := Option.isSome_iff_exists.mp (h.session.trans hsession)
  have hsame : SameFields s (ManagedDatastore.rememberResponseState { d with
      datastore := d.datastore.map fun session => session }) := by
    unfold ManagedDatastore.rememberResponseState
    rw [hd]
    exact ⟨h.initialDelay, h.maxDelay, h.configurationErrorRetryDelay, hsession.symm, h.generation,
      h.state, h.error, h.retryDelay, h.scheduledRetryDelay, h.nextRetryAt, h.closed⟩
  have hsome := hsame.session.trans hsession
  unfold ManagedDatastore.callRaised
  simp only [Bool.false_eq_true, if_false, hexc, if_true, hsome]
  exact ((hsame.setError (some exc)).scheduleRetry now).discard hsession exit

/-- Every move of a thread is a part of a call, or it is seen only in the threads. -/
theorem CoreStep.simulates {k k' : Core} {t t' : LifecycleThread} (h : CoreStep now outcome k t k' t')
    (hk : Sound k t.owner) (hsim : Simulates k now d t.owner) :
    ∃ d', (d' = d ∨ ManagedStep d d') ∧ Simulates k' now d' t'.owner := by
  cases h with
  | acquire | acquireClose | returned | lost | release | status | openRaised | opened | enterRaised
  | entered => exact ⟨d, .inl rfl, hsim⟩
  | unavailable h =>
    rcases checkSession_unavailable h with rfl | ⟨hopen, hnone, hearly, hstate, rfl⟩
    · exact ⟨d, .inl rfl, hsim⟩
    · exact ⟨_, .inr (.ensure le_rfl), SameFields.tooEarly hsim hopen hnone hearly hstate⟩
  | present h =>
    obtain ⟨-, rfl⟩ := checkSession_present h
    exact ⟨d, .inl rfl, hsim⟩
  | reconnect h =>
    obtain ⟨hopen, hnone, hretry, rfl⟩ := checkSession_reconnect h
    exact ⟨d, .inl rfl, k.state, now, hsim, hopen, hnone, le_rfl, hretry, rfl⟩
  | @failed _ exc =>
    obtain ⟨s, earlier, hsame, hopen, hnone, hle, hretry, hstate⟩ := hsim
    have hsame' := hsame.openFailed hopen hnone hretry now exc
    rw [← hstate] at hsame'
    exact ⟨_, .inr (.ensure hle), hsame'⟩
  | @install _ context =>
    obtain ⟨s, earlier, hsame, hopen, hnone, hle, hretry, hstate⟩ := hsim
    have hsame' := hsame.install hopen hnone hretry now context
    rw [← hstate] at hsame'
    exact ⟨_, .inr (.ensure hle), hsame'⟩
  | reject h => exact absurd h hk.not_reject
  | rejected => exact (hk.fits _ rfl).elim
  | stale h => exact absurd (hk.fits _ rfl).1 h
  | discard h hcontext =>
    exact ⟨d, .inl rfl, k.state, _, now, hsim, by rw [h]; rfl, (hk.fits _ rfl).2, rfl⟩
  | discardNone _ hcontext => cases hk.context_of_lost.symm.trans hcontext
  | @exited _ _ exit =>
    obtain ⟨s, exc, earlier, hsame, hsession, hexc, hstate⟩ := hsim
    have hsame' := hsame.callRaised hsession hexc earlier exit
    rw [← hstate] at hsame'
    exact ⟨_, .inr (.raised (hsame.session.trans hsession)), hsame'⟩
  | closeDrop hcontext =>
    exact ⟨d, .inl rfl, k.state, hsim, by rw [← hk.paired, hcontext]; rfl, rfl⟩
  | closeDone hcontext =>
    have hsame := SameFields.discard_none (SameFields.setClosed hsim) (hk.paired.symm.trans hcontext)
    exact ⟨_, .inr .close, hsame.setState .closed⟩
  | @closeExited _ exit =>
    obtain ⟨s, hsame, hsession, hstate⟩ := hsim
    have hsame' := (hsame.setClosed.discard hsession exit).setState .closed
    rw [← hstate] at hsame'
    exact ⟨_, .inr .close, hsame'⟩

end

/-! ## The system -/

theorem Simulates.mono {k : Core} {owner : Option LifecycleThread} (h : Simulates k now d owner)
    (hle : now ≤ later) : Simulates k later d owner := by
  have hreconnecting (h : Reconnecting k now d) : Reconnecting k later d := by
    obtain ⟨s, earlier, hsame, hopen, hnone, hnow, hrest⟩ := h
    exact ⟨s, earlier, hsame, hopen, hnone, hnow.trans hle, hrest⟩
  unfold Simulates at h ⊢
  split
  · exact hreconnecting h
  · exact hreconnecting h
  · exact hreconnecting h
  · exact hreconnecting h
  · exact h
  · exact h
  · simpa using h

/-- The world is one that the calls of `d` explain. -/
structure LifecycleWorld.Refines (w : LifecycleWorld) (d : ManagedDatastore) : Prop where
  valid : LifecycleWorld.Valid w
  simulates : Simulates w.core w.now d w.owner

theorem LifecycleWorld.Refines.step {w w' : LifecycleWorld} {d : ManagedDatastore} (hw : w.Refines d)
    (h : w.step a = some w') : ∃ d', (d' = d ∨ ManagedStep d d') ∧ w'.Refines d' := by
  have hvalid := (hw.valid.step h).1
  cases a with
  | tick later =>
    simp only [LifecycleWorld.step] at h
    split at h <;> cases h
    exact ⟨d, .inl rfl, hvalid, hw.simulates.mono ‹_›⟩
  | call method =>
    cases h
    exact ⟨d, .inl rfl, hvalid, hw.valid.owner_spawn _ ▸ hw.simulates⟩
  | status =>
    cases h
    exact ⟨d, .inl rfl, hvalid, hw.valid.owner_spawn _ ▸ hw.simulates⟩
  | close =>
    cases h
    exact ⟨d, .inl rfl, hvalid, hw.valid.owner_spawn _ ▸ hw.simulates⟩
  | thread i outcome =>
    obtain ⟨t, t', hi, hm⟩ := LifecycleWorld.step_thread h
    by_cases hlock : t.holds = true ∨ t'.holds = true
    · obtain ⟨howner, howner'⟩ := hw.valid.owner_moves hi hm hlock
      obtain ⟨d', hd', hsim⟩ := hm.core.simulates (howner ▸ hw.valid.sound) (howner ▸ hw.simulates)
      refine ⟨d', hd', hvalid, ?_⟩
      rw [howner', hm.now]
      exact hsim
    · obtain ⟨ht, ht'⟩ : t.holds = false ∧ t'.holds = false := by simpa using hlock
      refine ⟨d, .inl rfl, hvalid, ?_⟩
      rw [hw.valid.owner_idle hi hm ht ht', (hm.core.idle ht ht').1, hm.now]
      exact hw.simulates

/-- Whatever the threads do is a run of the calls of `Model.Managed`, and outside the calls the fields
are the same. -/
theorem lifecycle_refines {w : LifecycleWorld}
    (h : run LifecycleWorld.step (.init initialDelay maxDelay configurationErrorRetryDelay) as = some w) :
    ∃ d, Relation.ReflTransGen ManagedStep
        (.init initialDelay maxDelay configurationErrorRetryDelay) d ∧
      ((∀ t ∈ w.threads, t.holds = false) → SameFields w.state d) := by
  obtain ⟨d, hd, hw⟩ : ∃ d, Relation.ReflTransGen ManagedStep
      (.init initialDelay maxDelay configurationErrorRetryDelay) d ∧ w.Refines d := by
    refine run_invariant_of_step (I := fun w => ∃ d, Relation.ReflTransGen ManagedStep
      (.init initialDelay maxDelay configurationErrorRetryDelay) d ∧ w.Refines d)
      (fun _ _ _ hw hstep => ?_) ⟨_, .refl, .init _ _ _, ?_⟩ h
    · obtain ⟨d, hd, hw⟩ := hw
      obtain ⟨d', rfl | hd', hw'⟩ := hw.step hstep
      · exact ⟨d', hd, hw'⟩
      · exact ⟨d', hd.tail hd', hw'⟩
    · exact ⟨rfl, rfl, rfl, rfl, rfl, rfl, rfl, rfl, rfl, rfl, rfl⟩
  refine ⟨d, hd, fun hout => ?_⟩
  have howner : w.owner = none := by
    cases ho : w.owner with
    | none => rfl
    | some t =>
      obtain ⟨i, hlock, hi⟩ := Option.bind_eq_some_iff.mp ho
      have hholds := (hw.valid.holder i t hi).mpr hlock
      rw [hout t (List.mem_of_getElem? hi)] at hholds
      cases hholds
  have hsim := hw.simulates
  rw [howner] at hsim
  exact hsim

/-! ## Between the calls -/

/-- There is a session exactly if the state is `available`, the state is `closed` exactly after
`close`, and the next delay is in its range. -/
structure Consistent (d : ManagedDatastore) : Prop where
  session : d.datastore.isSome = true ↔ d.reconnectState = .available
  closed : d.closed = true ↔ d.reconnectState = .closed
  range : d.initialDelay ≤ d.maxDelay
  initialDelay_le : d.initialDelay ≤ d.retryDelay
  le_maxDelay : d.retryDelay ≤ d.maxDelay

section
variable {d : ManagedDatastore}

theorem Consistent.init : Consistent (.init initialDelay maxDelay configurationErrorRetryDelay) := by
  refine ⟨?_, ?_, le_max_left _ _, le_refl _, le_max_left _ _⟩
  · simp [ManagedDatastore.init]
  · simp [ManagedDatastore.init]

/-- The next delay after an attempt that failed. -/
theorem Consistent.next_delay (hd : Consistent d) :
    d.initialDelay ≤ min d.maxDelay (max d.initialDelay (d.retryDelay * 2)) ∧
      min d.maxDelay (max d.initialDelay (d.retryDelay * 2)) ≤ d.maxDelay :=
  ⟨le_min hd.range (le_max_left _ _), min_le_left _ _⟩

theorem Consistent.ensureSession (hd : Consistent d) :
    Consistent (d.ensureSession now later opener).2 := by
  obtain ⟨hlow, hhigh⟩ := hd.next_delay
  unfold ManagedDatastore.ensureSession
  split
  · exact hd
  rename_i hopen
  split
  · exact hd
  rename_i hnone
  split
  · simp only
    split
    · exact ⟨by simp [hnone], by simp [hopen], hd.range, hd.initialDelay_le, hd.le_maxDelay⟩
    · exact hd
  · split
    · simp only
      split
      · exact ⟨by simp [hnone, ManagedDatastore.scheduleRetry],
          by simp [hopen, ManagedDatastore.scheduleRetry], hd.range, hlow, hhigh⟩
      · exact ⟨by simp [hnone, ManagedDatastore.scheduleConfigurationErrorRetry],
          by simp [hopen, ManagedDatastore.scheduleConfigurationErrorRetry], hd.range,
          hd.initialDelay_le, hd.le_maxDelay⟩
    · exact ⟨by simp, by simp [hopen], hd.range, le_refl _, hd.range⟩

/-- What a session remembers plays no part. -/
theorem Consistent.remember (hd : Consistent d) (session : Option UsbSession)
    (hsession : session.isSome = d.datastore.isSome) :
    Consistent (ManagedDatastore.rememberResponseState { d with datastore := session }) := by
  have hsame : Consistent { d with datastore := session } :=
    ⟨hsession ▸ hd.session, hd.closed, hd.range, hd.initialDelay_le, hd.le_maxDelay⟩
  unfold ManagedDatastore.rememberResponseState
  split
  · exact ⟨hsame.session, hsame.closed, hsame.range, hsame.initialDelay_le, hsame.le_maxDelay⟩
  · exact hsame

theorem Consistent.callRaised (hd : Consistent d) :
    Consistent (d.callRaised now exc cleared exit).2 := by
  have hremember := hd.remember (d.datastore.map fun session => if cleared then {} else session)
    (Option.isSome_map ..)
  unfold ManagedDatastore.callRaised
  generalize ManagedDatastore.rememberResponseState _ = d' at hremember ⊢
  split
  · simp only
    split
    · rename_i hsome
      -- the session is given up, and the state is that of a retry
      have hstate : d'.reconnectState = .available := hremember.session.mp hsome
      have hopen : d'.closed = false := by
        have hclosed := hremember.closed
        rw [hstate] at hclosed
        simpa using hclosed
      obtain ⟨hlow, hhigh⟩ := hremember.next_delay
      refine ⟨?_, ?_, hremember.range, hlow, hhigh⟩
      · simp [ManagedDatastore.discardSession, ManagedDatastore.scheduleRetry]
      · simp [ManagedDatastore.discardSession, ManagedDatastore.scheduleRetry, hopen]
    · exact hremember
  · exact hremember

theorem Consistent.close (hd : Consistent d) : Consistent (d.close exit) := by
  refine ⟨?_, ?_, hd.range, hd.initialDelay_le, hd.le_maxDelay⟩
  · simp [ManagedDatastore.close, ManagedDatastore.discardSession]
  · simp [ManagedDatastore.close, ManagedDatastore.discardSession]

theorem ManagedStep.consistent {d' : ManagedDatastore} (h : ManagedStep d d') (hd : Consistent d) :
    Consistent d' := by
  cases h with
  | ensure => exact hd.ensureSession
  | raised => exact hd.callRaised
  | close => exact hd.close

theorem Consistent.of_calls
    (h : Relation.ReflTransGen ManagedStep (.init initialDelay maxDelay configurationErrorRetryDelay) d) :
    Consistent d := by
  induction h with
  | refl => exact .init
  | tail _ hstep ih => exact hstep.consistent ih

end

/-- What `status` sees between the calls, in every interleaving. -/
theorem lifecycle_consistent {w : LifecycleWorld}
    (h : run LifecycleWorld.step (.init initialDelay maxDelay configurationErrorRetryDelay) as = some w)
    (hout : ∀ t ∈ w.threads, t.holds = false) :
    (w.state.datastore.isSome = true ↔ w.state.reconnectState = .available) ∧
    (w.state.closed = true ↔ w.state.reconnectState = .closed) ∧
    w.state.initialDelay ≤ w.state.retryDelay ∧ w.state.retryDelay ≤ w.state.maxDelay := by
  obtain ⟨d, hd, hsame⟩ := lifecycle_refines h
  have hsame := hsame hout
  have hconsistent := Consistent.of_calls hd
  rw [← hsame.session, ← hsame.state, ← hsame.closed, ← hsame.initialDelay, ← hsame.retryDelay,
    ← hsame.maxDelay]
  exact ⟨hconsistent.session, hconsistent.closed, hconsistent.initialDelay_le, hconsistent.le_maxDelay⟩

end Datastore

end MotuProxy
