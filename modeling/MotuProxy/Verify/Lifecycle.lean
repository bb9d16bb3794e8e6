import MotuProxy.Model.Lifecycle

/-! # The life of a session

Only the thread that holds the operation lock changes the fields of the managed datastore. `CoreStep`
lists its moves; `Sound` says what the fields and the log of contexts have to do with the place where
that thread is, and `CoreStep.sound` that every move keeps it.
-/

namespace MotuProxy

open Py Responses

namespace Datastore

open ManagedDatastore (temporaryUnavailable)

/-! ## The moves -/

/-- The thread holds the operation lock. -/
def LifecycleThread.holds : LifecycleThread → Bool
  | .call _ .start | .call _ (.done _) | .close .start | .close .done | .status _ => false
  | _ => true

/-- What the holder of the operation lock works on. -/
structure Core where
  state : Lifecycle
  nextContext : Nat
  log : List ContextEvent

def LifecycleWorld.core (w : LifecycleWorld) : Core := ⟨w.state, w.nextContext, w.log⟩

/-- The moves of a thread, when the environment does `outcome`. -/
inductive CoreStep (now : ℚ) (outcome : Outcome) (k : Core) : LifecycleThread → Core → LifecycleThread → Prop where
  | acquire : CoreStep now outcome k (.call m .start) k (.call m .ensuring)
  | unavailable (h : k.state.checkSession now = (.unavailable, s)) :
    CoreStep now outcome k (.call m .ensuring) { k with state := s } (.call m (.releasing r))
  | present (h : k.state.checkSession now = (.present datastore, s)) :
    CoreStep now outcome k (.call m .ensuring) { k with state := s } (.call m (.operating datastore))
  | reconnect (h : k.state.checkSession now = (.reconnect, s)) :
    CoreStep now outcome k (.call m .ensuring) { k with state := s } (.call m .opening)
  | openRaised : CoreStep now outcome k (.call m .opening) k (.call m (.openFailed exc))
  | opened : CoreStep now outcome k (.call m .opening) { k with nextContext := k.nextContext + 1 }
      (.call m (.entering k.nextContext))
  | enterRaised : CoreStep now outcome k (.call m (.entering context)) k (.call m (.openFailed exc))
  | entered : CoreStep now outcome k (.call m (.entering context))
      { k with log := k.log ++ [.entered context] } (.call m (.entered context))
  | failed : CoreStep now outcome k (.call m (.openFailed exc))
      { k with state := (k.state.openFailed now exc).2 } (.call m (.releasing r))
  | reject (h : k.state.closed = true ∨ k.state.datastore.isSome = true) :
    CoreStep now outcome k (.call m (.entered context)) k (.call m (.rejecting context present))
  | install (hopen : k.state.closed = false) (hnone : k.state.datastore = none) :
    CoreStep now outcome k (.call m (.entered context))
      { k with state := k.state.install now context context } (.call m (.operating context))
  | rejected (hpc : (∃ d, pc = .operating d) ∨ ∃ r, pc = .releasing r) :
    CoreStep now outcome k (.call m (.rejecting context present))
      { k with log := k.log ++ [.exited context] } (.call m pc)
  | returned : CoreStep now outcome k (.call m (.operating datastore)) k (.call m (.releasing r))
  | lost (hraised : outcome = .raised exc) (h : isReconnectableDeviceLoss exc false = true) :
    CoreStep now outcome k (.call m (.operating datastore)) k (.call m (.lost datastore exc))
  | stale (h : k.state.datastore ≠ some datastore) :
    CoreStep now outcome k (.call m (.lost datastore exc)) k (.call m (.releasing r))
  | discard (h : k.state.datastore = some datastore) (hcontext : k.state.context = some context) :
    CoreStep now outcome k (.call m (.lost datastore exc))
      { k with state :=
        ({ k.state with lastReconnectError := some exc }.scheduleRetry now).dropSession }
      (.call m (.exiting context))
  | discardNone (h : k.state.datastore = some datastore) (hcontext : k.state.context = none) :
    CoreStep now outcome k (.call m (.lost datastore exc)) { k with state := s } (.call m (.releasing r))
  | exited : CoreStep now outcome k (.call m (.exiting context))
      { k with state := k.state.discarded exit, log := k.log ++ [.exited context] }
      (.call m (.releasing r))
  | release : CoreStep now outcome k (.call m (.releasing r)) k (.call m (.done r))
  | acquireClose : CoreStep now outcome k (.close .start) k (.close .locked)
  | closeDrop (hcontext : k.state.context = some context) : CoreStep now outcome k (.close .locked)
      { k with state := { k.state with closed := true }.dropSession } (.close (.exiting context))
  | closeDone (hcontext : k.state.context = none) : CoreStep now outcome k (.close .locked)
      { k with state := { ({ k.state with closed := true }.dropSession).discarded none with
          reconnectState := .closed } } (.close .done)
  | closeExited : CoreStep now outcome k (.close (.exiting context))
      { k with
        state := { k.state.discarded exit with reconnectState := .closed }
        log := k.log ++ [.exited context] } (.close .done)
  | status : CoreStep now outcome k (.status none) k (.status (some r))

namespace LifecycleWorld

variable {w w' : LifecycleWorld}

/-- The step takes thread `i` from `t` to `t'` by a move, with the operation lock as these say. -/
structure Moves (w : LifecycleWorld) (i : Nat) (outcome : Outcome) (t : LifecycleThread)
    (w' : LifecycleWorld) (t' : LifecycleThread) : Prop where
  threads : w'.threads = w.threads.set i t'
  now : w'.now = w.now
  core : CoreStep w.now outcome w.core t w'.core t'
  free : t.holds = false → t'.holds = true → w.operationLock = none
  lock : w'.operationLock =
    if t.holds = t'.holds then w.operationLock else if t'.holds then some i else none

theorem Moves.within (hthreads : w'.threads = w.threads.set i t') (hnow : w'.now = w.now)
    (hcore : CoreStep w.now outcome w.core t w'.core t') (hlock : w'.operationLock = w.operationLock)
    (hholds : t.holds = t'.holds) : Moves w i outcome t w' t' :=
  ⟨hthreads, hnow, hcore, fun h h' => (by rw [← hholds, h] at h'; cases h'), by rw [if_pos hholds, hlock]⟩

theorem Moves.release (hthreads : w'.threads = w.threads.set i t') (hnow : w'.now = w.now)
    (hcore : CoreStep w.now outcome w.core t w'.core t') (hlock : w'.operationLock = none)
    (ht : t.holds = true) (ht' : t'.holds = false) : Moves w i outcome t w' t' :=
  ⟨hthreads, hnow, hcore, fun h => (by rw [ht] at h; cases h), by rw [ht, ht', hlock]; rfl⟩

/-- The check for a session, under both locks. -/
theorem ensuring_moves (h : w.stepCall i method .ensuring outcome = some w') :
    ∃ t', Moves w i outcome (.call method .ensuring) w' t' := by
  simp only [stepCall] at h
  split at h
  · cases h
  · split at h <;> cases h <;> rename_i hcheck
    · exact ⟨_, .within rfl rfl (.unavailable hcheck) rfl rfl⟩
    · exact ⟨_, .within rfl rfl (.present hcheck) rfl rfl⟩
    · exact ⟨_, .within rfl rfl (.reconnect hcheck) rfl rfl⟩

/-- The opener, `__enter__` and the datastore operation are up to the environment. -/
theorem opening_moves (h : w.stepCall i method .opening outcome = some w') :
    ∃ t', Moves w i outcome (.call method .opening) w' t' := by
  cases outcome <;> cases h
  · exact ⟨_, .within rfl rfl .opened rfl rfl⟩
  · exact ⟨_, .within rfl rfl .openRaised rfl rfl⟩

theorem entering_moves (h : w.stepCall i method (.entering context) outcome = some w') :
    ∃ t', Moves w i outcome (.call method (.entering context)) w' t' := by
  cases outcome <;> cases h
  · exact ⟨_, .within rfl rfl .entered rfl rfl⟩
  · exact ⟨_, .within rfl rfl .enterRaised rfl rfl⟩

theorem operating_moves (h : w.stepCall i method (.operating datastore) outcome = some w') :
    ∃ t', Moves w i outcome (.call method (.operating datastore)) w' t' := by
  cases outcome with
  | returned => cases h; exact ⟨_, .within rfl rfl .returned rfl rfl⟩
  | raised exc =>
    simp only [stepCall] at h
    split at h <;> cases h
    · exact ⟨_, .within rfl rfl (.lost rfl ‹_›) rfl rfl⟩
    · exact ⟨_, .within rfl rfl .returned rfl rfl⟩

/-- The session is put in its place, unless the check after the open finds another one. -/
theorem entered_moves (h : w.stepCall i method (.entered context) outcome = some w') :
    ∃ t', Moves w i outcome (.call method (.entered context)) w' t' := by
  simp only [stepCall] at h
  split at h
  · cases h
  · split at h
    · rename_i hclosed
      cases h
      exact ⟨_, .within rfl rfl (.reject (.inl hclosed)) rfl rfl⟩
    · rename_i hopen
      split at h <;> cases h <;> rename_i hdatastore
      · exact ⟨_, .within rfl rfl (.reject (.inr (by rw [LifecycleWorld.core, hdatastore]; rfl))) rfl rfl⟩
      · exact ⟨_, .within rfl rfl (.install (Bool.eq_false_iff.mpr hopen) hdatastore) rfl rfl⟩

/-- The session that was lost is given up, if it is still the open one. -/
theorem lost_moves (h : w.stepCall i method (.lost datastore exc) outcome = some w') :
    ∃ t', Moves w i outcome (.call method (.lost datastore exc)) w' t' := by
  simp only [stepCall] at h
  split at h
  · cases h
  · split at h
    · rename_i hstale
      cases h
      exact ⟨_, .within rfl rfl (.stale hstale) rfl rfl⟩
    · rename_i hcurrent
      unfold discard at h
      split at h <;> cases h <;> rename_i hcontext
      · exact ⟨_, .within rfl rfl (.discard (not_not.mp hcurrent) hcontext) rfl rfl⟩
      · exact ⟨_, .within rfl rfl (.discardNone (not_not.mp hcurrent) hcontext) rfl rfl⟩

theorem stepCall_moves (h : w.stepCall i method pc outcome = some w') :
    ∃ t', Moves w i outcome (.call method pc) w' t' := by
  cases pc with
  | start =>
    simp only [stepCall] at h
    split at h <;> cases h
    rename_i hfree
    exact ⟨_, rfl, rfl, .acquire, fun _ _ => Option.isNone_iff_eq_none.mp hfree, rfl⟩
  | ensuring => exact ensuring_moves h
  | opening => exact opening_moves h
  | entering context => exact entering_moves h
  | openFailed exc =>
    simp only [stepCall] at h
    split at h <;> cases h
    exact ⟨_, .within rfl rfl .failed rfl rfl⟩
  | entered context => exact entered_moves h
  | rejecting context present =>
    simp only [stepCall] at h
    split at h <;> cases h
    · exact ⟨_, .within rfl rfl (.rejected (.inr ⟨_, rfl⟩)) rfl rfl⟩
    · exact ⟨_, .within rfl rfl (.rejected (.inl ⟨_, rfl⟩)) rfl rfl⟩
    · exact ⟨_, .within rfl rfl (.rejected (.inr ⟨_, rfl⟩)) rfl rfl⟩
  | operating datastore => exact operating_moves h
  | lost datastore exc => exact lost_moves h
  | exiting context => cases h; exact ⟨_, .within rfl rfl .exited rfl rfl⟩
  | releasing result => cases h; exact ⟨_, .release rfl rfl .release rfl rfl rfl⟩
  | done result => cases h

theorem stepClose_moves (h : w.stepClose i pc outcome = some w') :
    ∃ t', Moves w i outcome (.close pc) w' t' := by
  cases pc with
  | start =>
    simp only [stepClose] at h
    split at h <;> cases h
    rename_i hfree
    exact ⟨_, rfl, rfl, .acquireClose, fun _ _ => Option.isNone_iff_eq_none.mp hfree, rfl⟩
  | locked =>
    simp only [stepClose] at h
    split at h
    · cases h
    · rename_i hfree
      unfold discard at h
      split at h <;> cases h <;> rename_i hcontext
      · exact ⟨_, .within rfl rfl (.closeDrop hcontext) rfl rfl⟩
      · simp only [hfree]
        exact ⟨_, .release rfl rfl (.closeDone hcontext) rfl rfl rfl⟩
  | exiting context => cases h; exact ⟨_, .release rfl rfl .closeExited rfl rfl rfl⟩
  | done => cases h

theorem step_thread (h : w.step (.thread i outcome) = some w') :
    ∃ t t', w.threads[i]? = some t ∧ Moves w i outcome t w' t' := by
  simp only [step] at h
  split at h
  · rename_i ht
    obtain ⟨t', hmoves⟩ := stepCall_moves h
    exact ⟨_, t', ht, hmoves⟩
  · rename_i ht
    obtain ⟨t', hmoves⟩ := stepClose_moves h
    exact ⟨_, t', ht, hmoves⟩
  · rename_i ht
    split at h <;> cases h
    exact ⟨_, _, ht, .within rfl rfl .status rfl rfl⟩
  · cases h
  · cases h

end LifecycleWorld

/-! ## The contexts -/

def ContextEvent.isEntered : ContextEvent → Bool
  | .entered _ => true
  | .exited _ => false

/-- Every context was exited once after it was entered, but for the live one. -/
structure Accounts (log : List ContextEvent) (next : Nat) (live : Option Nat) : Prop where
  fresh : ∀ c, .entered c ∈ log → c < next
  exits : ∀ c, log.count (.exited c) = if .entered c ∈ log ∧ live ≠ some c then 1 else 0
  entered : ∀ c, live = some c → .entered c ∈ log

section
variable {log : List ContextEvent} {next : Nat} {live : Option Nat} {c : Nat}

theorem Accounts.init : Accounts [] 0 none := ⟨nofun, fun _ => rfl, nofun⟩

theorem Accounts.open (h : Accounts log next live) : Accounts log (next + 1) live :=
  ⟨fun c hc => (h.fresh c hc).trans (Nat.lt_succ_self _), h.exits, h.entered⟩

theorem Accounts.enter (h : Accounts log next none) (hnext : c < next) (hnew : .entered c ∉ log) :
    Accounts (log ++ [.entered c]) next (some c) := by
  refine ⟨fun c' hc' => ?_, fun c' => ?_, fun c' hlive => ?_⟩
  · rcases List.mem_append.mp hc' with hc' | hc'
    · exact h.fresh c' hc'
    · cases List.mem_singleton.mp hc'
      exact hnext
  · rw [List.count_append, h.exits c']
    by_cases hc : c' = c
    · subst hc
      simp [hnew]
    · have hne : c ≠ c' := fun heq => hc heq.symm
      simp [hc, hne]
  · cases hlive
    exact List.mem_append_right _ List.mem_cons_self

theorem Accounts.exit (h : Accounts log next (some c)) : Accounts (log ++ [.exited c]) next none := by
  have hentered := h.entered c rfl
  refine ⟨fun c' hc' => ?_, fun c' => ?_, nofun⟩
  · refine h.fresh c' ((List.mem_append.mp hc').resolve_right fun hc' => ?_)
    cases List.mem_singleton.mp hc'
  · rw [List.count_append, h.exits c']
    by_cases hc : c' = c
    · subst hc
      simp [hentered]
    · have hne : c ≠ c' := fun heq => hc heq.symm
      simp [hne]

end

/-! ## The invariant of the holder -/

namespace LifecycleThread

/-- The entered context that the thread has in a local variable. -/
def context? : LifecycleThread → Option Nat
  | .call _ (.entered context) | .call _ (.rejecting context _) | .call _ (.exiting context)
  | .close (.exiting context) => some context
  | _ => none

/-- The thread has entered a context that is not installed yet. -/
def hasEntered : LifecycleThread → Bool
  | .call _ (.entered _) => true
  | _ => false

/-- The thread is inside the `__exit__` of `close`. -/
def closing : LifecycleThread → Bool
  | .close (.exiting _) => true
  | _ => false

/-- What the fields are while the thread is at its place. -/
def Fits (k : Core) : LifecycleThread → Prop
  | .call _ .opening | .call _ (.openFailed _) | .call _ (.entered _) =>
    k.state.closed = false ∧ k.state.datastore = none ∧ k.state.reconnectState = .reconnecting
  | .call _ (.entering c) => (k.state.closed = false ∧ k.state.datastore = none ∧
    k.state.reconnectState = .reconnecting) ∧ c < k.nextContext ∧ .entered c ∉ k.log
  | .call _ (.rejecting _ _) => False
  | .call _ (.operating d) => k.state.datastore = some d
  | .call _ (.lost d exc) => k.state.datastore = some d ∧ isReconnectableDeviceLoss exc false = true
  | .call _ (.exiting _) =>
    k.state.closed = false ∧ k.state.datastore = none ∧ k.state.reconnectState = .backoff
  | .close (.exiting _) => k.state.closed = true ∧ k.state.datastore = none
  | _ => True

end LifecycleThread

/-- What the fields and the log have to do with the thread that holds the operation lock. -/
structure Sound (k : Core) (owner : Option LifecycleThread) : Prop where
  paired : k.state.context = k.state.datastore
  fits : ∀ t, owner = some t → t.Fits k
  available : owner.any (·.closing) = false →
    (k.state.reconnectState = .available ↔ k.state.datastore.isSome = true)
  closed : k.state.closed = true → k.state.datastore = none ∧
    (owner.any (·.closing) = false → k.state.reconnectState = .closed)
  accounts : Accounts k.log k.nextContext ((owner.bind (·.context?)).or k.state.context)
  generation : k.state.sessionGeneration + (owner.any (·.hasEntered)).toNat =
    k.log.countP (·.isEntered)

/-- The thread as a holder. -/
def LifecycleThread.owner (t : LifecycleThread) : Option LifecycleThread :=
  if t.holds then some t else none

section
variable {k : Core} {owner owner' : Option LifecycleThread}

/-- A step that leaves the session alone. -/
theorem Sound.update {s : Lifecycle} (hk : Sound k owner) (hcontext : s.context = k.state.context)
    (hdatastore : s.datastore = k.state.datastore)
    (hgeneration : s.sessionGeneration = k.state.sessionGeneration)
    (hfits : ∀ t, owner' = some t → t.Fits { k with state := s })
    (havailable : owner'.any (·.closing) = false →
      (s.reconnectState = .available ↔ s.datastore.isSome = true))
    (hclosed : s.closed = true → s.datastore = none ∧
      (owner'.any (·.closing) = false → s.reconnectState = .closed))
    (hlive : owner'.bind (·.context?) = owner.bind (·.context?))
    (hentered : owner'.any (·.hasEntered) = owner.any (·.hasEntered)) :
    Sound { k with state := s } owner' := by
  refine ⟨?_, hfits, havailable, hclosed, ?_, ?_⟩
  · simp only [hcontext, hdatastore]
    exact hk.paired
  · simp only [hcontext, hlive]
    exact hk.accounts
  · simp only [hgeneration, hentered]
    exact hk.generation

/-- A step that leaves the fields alone. -/
theorem Sound.move (hk : Sound k owner) (hfits : ∀ t, owner' = some t → t.Fits k)
    (hlive : owner'.bind (·.context?) = owner.bind (·.context?))
    (hentered : owner'.any (·.hasEntered) = owner.any (·.hasEntered))
    (hclosing : owner'.any (·.closing) = owner.any (·.closing)) : Sound k owner' :=
  hk.update rfl rfl rfl hfits (hclosing ▸ hk.available) (hclosing ▸ hk.closed) hlive hentered

/-- While nobody is closing, an open session means that the datastore is not closed. -/
theorem Sound.open_of_session (hk : Sound k owner) (h : k.state.datastore = some d) :
    k.state.closed = false := by
  cases hclosed : k.state.closed with
  | false => rfl
  | true => rw [(hk.closed hclosed).1] at h; cases h

/-- A state other than `available` while there is no session. -/
theorem Sound.without_session {s : Lifecycle} (hk : Sound k owner)
    (hcontext : s.context = k.state.context) (hdatastore : s.datastore = k.state.datastore)
    (hgeneration : s.sessionGeneration = k.state.sessionGeneration)
    (hnone : k.state.datastore = none) (hopen : s.closed = false)
    (hstate : s.reconnectState ≠ .available)
    (hfits : ∀ t, owner' = some t → t.Fits { k with state := s })
    (hlive : owner'.bind (·.context?) = owner.bind (·.context?))
    (hentered : owner'.any (·.hasEntered) = owner.any (·.hasEntered)) :
    Sound { k with state := s } owner' := by
  refine hk.update hcontext hdatastore hgeneration hfits (fun _ => ?_) (fun hclosed => ?_) hlive hentered
  · rw [hdatastore, hnone]
    exact iff_of_false hstate Bool.false_ne_true
  · rw [hopen] at hclosed
    cases hclosed

theorem openFailed_fields (s : Lifecycle) (now : ℚ) (exc : Exn) :
    (s.openFailed now exc).2.context = s.context ∧ (s.openFailed now exc).2.datastore = s.datastore ∧
    (s.openFailed now exc).2.sessionGeneration = s.sessionGeneration ∧
    (s.openFailed now exc).2.closed = s.closed ∧
    (s.openFailed now exc).2.reconnectState ≠ .available := by
  unfold Lifecycle.openFailed
  simp only
  split
  · exact ⟨rfl, rfl, rfl, rfl, ReconnectState.noConfusion⟩
  · exact ⟨rfl, rfl, rfl, rfl, ReconnectState.noConfusion⟩

theorem checkSession_cases {s s' : Lifecycle} (h : s.checkSession now = (check, s')) :
    (check = .unavailable ∧ s' = s) ∨
    (check = .unavailable ∧ s.closed = false ∧ s.datastore = none ∧ now < s.nextRetryAt ∧
      s.reconnectState ≠ .configurationError ∧ s' = { s with reconnectState := .backoff }) ∨
    (∃ d, check = .present d ∧ s.datastore = some d ∧ s' = s) ∨
    (check = .reconnect ∧ s.closed = false ∧ s.datastore = none ∧ s.nextRetryAt ≤ now ∧
      s' = { s with reconnectState := .reconnecting }) := by
  unfold Lifecycle.checkSession at h
  split at h
  · cases h
    exact .inl ⟨rfl, rfl⟩
  · rename_i hopen
    have hopen : s.closed = false := Bool.eq_false_iff.mpr hopen
    split at h
    · rename_i d hd
      cases h
      exact .inr (.inr (.inl ⟨d, rfl, hd, rfl⟩))
    · rename_i hnone
      split at h
      · rename_i hearly
        split at h <;> cases h
        · exact .inr (.inl ⟨rfl, hopen, hnone, hearly, ‹_›, rfl⟩)
        · exact .inl ⟨rfl, rfl⟩
      · rename_i hretry
        cases h
        exact .inr (.inr (.inr ⟨rfl, hopen, hnone, not_lt.mp hretry, rfl⟩))

theorem checkSession_unavailable {s s' : Lifecycle} (h : s.checkSession now = (.unavailable, s')) :
    s' = s ∨ s.closed = false ∧ s.datastore = none ∧ now < s.nextRetryAt ∧
      s.reconnectState ≠ .configurationError ∧ s' = { s with reconnectState := .backoff } := by
  rcases checkSession_cases h with ⟨-, hs⟩ | ⟨-, hs⟩ | ⟨_, hcheck, -⟩ | ⟨hcheck, -⟩
  · exact .inl hs
  · exact .inr hs
  · cases hcheck
  · cases hcheck

theorem checkSession_present {s s' : Lifecycle} (h : s.checkSession now = (.present d, s')) :
    s.datastore = some d ∧ s' = s := by
  rcases checkSession_cases h with ⟨hcheck, -⟩ | ⟨hcheck, -⟩ | ⟨_, hcheck, hd, hs⟩ | ⟨hcheck, -⟩ <;>
    cases hcheck
  exact ⟨hd, hs⟩

theorem checkSession_reconnect {s s' : Lifecycle} (h : s.checkSession now = (.reconnect, s')) :
    s.closed = false ∧ s.datastore = none ∧ s.nextRetryAt ≤ now ∧
      s' = { s with reconnectState := .reconnecting } := by
  rcases checkSession_cases h with ⟨hcheck, -⟩ | ⟨hcheck, -⟩ | ⟨_, hcheck, -⟩ | ⟨-, hs⟩
  · cases hcheck
  · cases hcheck
  · cases hcheck
  · exact hs

end

/-! ## What a call does to the holder's invariant -/

section
variable {k : Core} {m : Method}

theorem Sound.unavailable (hk : Sound k (LifecycleThread.owner (.call m .ensuring)))
    (h : k.state.checkSession now = (.unavailable, s)) :
    Sound { k with state := s } (LifecycleThread.owner (.call m (.releasing r))) := by
  rcases checkSession_unavailable h with rfl | ⟨hopen, hnone, -, -, rfl⟩
  · refine hk.move (fun t ht => ?_) rfl rfl rfl
    cases ht
    trivial
  · refine hk.without_session rfl rfl rfl hnone hopen (by simp) (fun t ht => ?_) rfl rfl
    cases ht
    trivial

theorem Sound.present (hk : Sound k (LifecycleThread.owner (.call m .ensuring)))
    (h : k.state.checkSession now = (.present d, s)) :
    Sound { k with state := s } (LifecycleThread.owner (.call m (.operating d))) := by
  obtain ⟨hd, rfl⟩ := checkSession_present h
  refine hk.move (fun t ht => ?_) rfl rfl rfl
  cases ht
  exact hd

theorem Sound.reconnect (hk : Sound k (LifecycleThread.owner (.call m .ensuring)))
    (h : k.state.checkSession now = (.reconnect, s)) :
    Sound { k with state := s } (LifecycleThread.owner (.call m .opening)) := by
  obtain ⟨hopen, hnone, -, rfl⟩ := checkSession_reconnect h
  refine hk.without_session rfl rfl rfl hnone hopen (by simp) (fun t ht => ?_) rfl rfl
  cases ht
  exact ⟨hopen, hnone, rfl⟩

theorem Sound.opened (hk : Sound k (LifecycleThread.owner (.call m .opening))) :
    Sound { k with nextContext := k.nextContext + 1 }
      (LifecycleThread.owner (.call m (.entering k.nextContext))) := by
  have hplace := hk.fits _ rfl
  refine ⟨hk.paired, fun t ht => ?_, hk.available, hk.closed, hk.accounts.open, hk.generation⟩
  cases ht
  refine ⟨hplace, Nat.lt_succ_self _, fun hmem => ?_⟩
  exact absurd (hk.accounts.fresh _ hmem) (lt_irrefl _)

theorem Sound.entered (hk : Sound k (LifecycleThread.owner (.call m (.entering context)))) :
    Sound { k with log := k.log ++ [.entered context] }
      (LifecycleThread.owner (.call m (.entered context))) := by
  obtain ⟨⟨hopen, hnone, hstate⟩, hnext, hnew⟩ := hk.fits _ rfl
  have hcontext : k.state.context = none := hk.paired.trans hnone
  have haccounts := hk.accounts
  simp only [LifecycleThread.owner, LifecycleThread.holds, LifecycleThread.context?, hcontext] at haccounts
  refine ⟨hk.paired, fun t ht => ?_, hk.available, hk.closed, ?_, ?_⟩
  · cases ht
    exact ⟨hopen, hnone, hstate⟩
  · exact haccounts.enter hnext hnew
  · have hgen := hk.generation
    simp only [LifecycleThread.owner, LifecycleThread.holds, LifecycleThread.hasEntered] at hgen ⊢
    simp [ContextEvent.isEntered] at hgen ⊢
    exact hgen

theorem Sound.failed (hk : Sound k (LifecycleThread.owner (.call m (.openFailed exc)))) :
    Sound { k with state := (k.state.openFailed now exc).2 }
      (LifecycleThread.owner (.call m (.releasing r))) := by
  obtain ⟨hopen, hnone, -⟩ := hk.fits _ rfl
  obtain ⟨hcontext, hdatastore, hgeneration, hclosed, hstate⟩ := openFailed_fields k.state now exc
  refine hk.without_session hcontext hdatastore hgeneration hnone (hclosed.trans hopen) hstate
    (fun t ht => ?_) rfl rfl
  cases ht
  trivial

theorem Sound.install (hk : Sound k (LifecycleThread.owner (.call m (.entered context))))
    (hopen : k.state.closed = false) : Sound { k with state := k.state.install now context context }
      (LifecycleThread.owner (.call m (.operating context))) := by
  refine ⟨rfl, fun t ht => ?_, fun _ => iff_of_true rfl rfl, fun hclosed => ?_, hk.accounts,
    hk.generation⟩
  · cases ht
    rfl
  · exact absurd (hopen.symm.trans hclosed) Bool.false_ne_true

/-- Nothing has closed the datastore or opened a session while the opener was at work. -/
theorem Sound.not_reject (hk : Sound k (LifecycleThread.owner (.call m (.entered context)))) :
    ¬(k.state.closed = true ∨ k.state.datastore.isSome = true) := by
  obtain ⟨hopen, hnone, -⟩ := hk.fits _ rfl
  simp [hopen, hnone]

/-- The session that was lost is the open one, and it has a context. -/
theorem Sound.context_of_lost (hk : Sound k (LifecycleThread.owner (.call m (.lost d exc)))) :
    k.state.context = some d :=
  hk.paired.trans (hk.fits _ rfl).1

theorem Sound.discard (hk : Sound k (LifecycleThread.owner (.call m (.lost d exc))))
    (h : k.state.datastore = some d) (hcontext : k.state.context = some context) :
    Sound { k with state :=
        ({ k.state with lastReconnectError := some exc }.scheduleRetry now).dropSession }
      (LifecycleThread.owner (.call m (.exiting context))) := by
  have hopen := hk.open_of_session h
  have haccounts := hk.accounts
  rw [hcontext] at haccounts
  refine ⟨rfl, fun t ht => ?_, fun _ => iff_of_false ReconnectState.noConfusion Bool.false_ne_true,
    fun hclosed => ?_, haccounts, hk.generation⟩
  · cases ht
    exact ⟨hopen, rfl, rfl⟩
  · exact absurd (hopen.symm.trans hclosed) Bool.false_ne_true

theorem Sound.exited (hk : Sound k (LifecycleThread.owner (.call m (.exiting context)))) :
    Sound { k with state := k.state.discarded exit, log := k.log ++ [.exited context] }
      (LifecycleThread.owner (.call m (.releasing r))) := by
  obtain ⟨hopen, hnone, hstate⟩ := hk.fits _ rfl
  have hcontext : k.state.context = none := hk.paired.trans hnone
  have hbackoff : (k.state.discarded exit).reconnectState ≠ .available := by
    simp [Lifecycle.discarded, hstate]
  refine ⟨hk.paired, fun t ht => ?_, fun _ => ?_, fun hclosed => ?_, ?_, ?_⟩
  · cases ht
    trivial
  · exact iff_of_false hbackoff (by simp [Lifecycle.discarded, hnone])
  · exact absurd (hopen.symm.trans hclosed) Bool.false_ne_true
  · have haccounts := hk.accounts.exit
    rwa [← hcontext] at haccounts
  · simp only [List.countP_append]
    exact hk.generation

end

/-! ## What `close` does to it -/

section
variable {k : Core}

theorem Sound.closeDrop (hk : Sound k (LifecycleThread.owner (.close .locked)))
    (hcontext : k.state.context = some context) :
    Sound { k with state := { k.state with closed := true }.dropSession }
      (LifecycleThread.owner (.close (.exiting context))) := by
  have haccounts := hk.accounts
  rw [hcontext] at haccounts
  refine ⟨rfl, fun t ht => ?_, fun h => absurd h.symm Bool.false_ne_true,
    fun _ => ⟨rfl, fun h => absurd h.symm Bool.false_ne_true⟩, haccounts, hk.generation⟩
  cases ht
  exact ⟨rfl, rfl⟩

theorem Sound.closeDone (hk : Sound k (LifecycleThread.owner (.close .locked)))
    (hcontext : k.state.context = none) :
    Sound { k with state := { ({ k.state with closed := true }.dropSession).discarded none with
      reconnectState := .closed } } (LifecycleThread.owner (.close .done)) := by
  have haccounts := hk.accounts
  rw [hcontext] at haccounts
  refine ⟨rfl, fun t ht => ?_, fun _ => iff_of_false (by simp) Bool.false_ne_true,
    fun _ => ⟨rfl, fun _ => rfl⟩, haccounts, hk.generation⟩
  cases ht

theorem Sound.closeExited (hk : Sound k (LifecycleThread.owner (.close (.exiting context)))) :
    Sound { k with
      state := { k.state.discarded exit with reconnectState := .closed }
      log := k.log ++ [.exited context] } (LifecycleThread.owner (.close .done)) := by
  obtain ⟨hclosed, hnone⟩ := hk.fits _ rfl
  have hcontext : k.state.context = none := hk.paired.trans hnone
  refine ⟨hk.paired, fun t ht => (by cases ht), fun _ => ?_, fun _ => ⟨hnone, fun _ => rfl⟩, ?_, ?_⟩
  · exact iff_of_false ReconnectState.noConfusion (by simp [Lifecycle.discarded, hnone])
  · have haccounts := hk.accounts.exit
    rwa [← hcontext] at haccounts
  · simp only [List.countP_append]
    exact hk.generation

end

theorem CoreStep.sound {k k' : Core} (h : CoreStep now outcome k t k' t') (hk : Sound k t.owner) :
    Sound k' t'.owner := by
  cases h with
  | acquire | acquireClose | returned =>
    refine hk.move (fun t ht => ?_) rfl rfl rfl
    cases ht
    trivial
  | unavailable h => exact hk.unavailable h
  | present h => exact hk.present h
  | reconnect h => exact hk.reconnect h
  | openRaised =>
    have hplace := hk.fits _ rfl
    refine hk.move (fun t ht => ?_) rfl rfl rfl
    cases ht
    exact hplace
  | opened => exact hk.opened
  | enterRaised =>
    have hplace := hk.fits _ rfl
    refine hk.move (fun t ht => ?_) rfl rfl rfl
    cases ht
    exact hplace.1
  | entered => exact hk.entered
  | failed => exact hk.failed
  | reject h => exact absurd h hk.not_reject
  | install hopen => exact hk.install hopen
  | rejected => exact (hk.fits _ rfl).elim
  | lost _ h =>
    have hplace := hk.fits _ rfl
    refine hk.move (fun t ht => ?_) rfl rfl rfl
    cases ht
    exact ⟨hplace, h⟩
  | stale h => exact absurd (hk.fits _ rfl).1 h
  | discard h hcontext => exact hk.discard h hcontext
  | discardNone h hcontext => cases hk.context_of_lost.symm.trans hcontext
  | exited => exact hk.exited
  | release => exact hk.move (fun t ht => (by cases ht)) rfl rfl rfl
  | closeDrop hcontext => exact hk.closeDrop hcontext
  | closeDone hcontext => exact hk.closeDone hcontext
  | closeExited => exact hk.closeExited
  | status => exact hk

/-- Closed for good. -/
def Lifecycle.Shut (s : Lifecycle) : Prop := s.closed = true ∧ s.reconnectState = .closed

theorem Sound.not_session {k : Core} {owner : Option LifecycleThread} (hk : Sound k owner)
    (hshut : k.state.Shut) (hd : k.state.datastore = some d) : False := by
  rw [(hk.closed hshut.1).1] at hd
  cases hd

/-- Nothing is opened any more. -/
theorem CoreStep.shut {k k' : Core} (h : CoreStep now outcome k t k' t') (hk : Sound k t.owner)
    (hshut : k.state.Shut) : k'.state.Shut ∧ k'.nextContext = k.nextContext ∧
      k'.log.countP (·.isEntered) = k.log.countP (·.isEntered) := by
  have hopen : k.state.closed ≠ false := by simp [hshut.1]
  cases h with
  | acquire | returned | lost | stale | release | acquireClose | status | openRaised | enterRaised
  | reject => exact ⟨hshut, rfl, rfl⟩
  | unavailable h =>
    rcases checkSession_unavailable h with rfl | ⟨h, -⟩
    · exact ⟨hshut, rfl, rfl⟩
    · exact absurd h hopen
  | present h => exact (hk.not_session hshut (checkSession_present h).1).elim
  | reconnect h => exact absurd (checkSession_reconnect h).1 hopen
  | opened | failed | exited => exact absurd (hk.fits _ rfl).1 hopen
  | entered => exact absurd (hk.fits _ rfl).1.1 hopen
  | install h => exact absurd h hopen
  | rejected => exact (hk.fits _ rfl).elim
  | discard h | discardNone h => exact (hk.not_session hshut h).elim
  | closeDrop hcontext => exact (hk.not_session hshut (hk.paired ▸ hcontext)).elim
  | closeDone => exact ⟨⟨rfl, rfl⟩, rfl, rfl⟩
  | closeExited =>
    refine ⟨⟨hshut.1, rfl⟩, rfl, ?_⟩
    rw [List.countP_append]
    rfl

/-- When `close` returns, it has closed for good. -/
theorem CoreStep.close_done {k k' : Core} (h : CoreStep now outcome k t k' (.close .done))
    (hk : Sound k t.owner) : k'.state.Shut := by
  cases h with
  | closeDone => exact ⟨rfl, rfl⟩
  | closeExited => exact ⟨(hk.fits _ rfl).1, rfl⟩

/-! ## The system -/

/-- The thread that holds the operation lock. -/
def LifecycleWorld.owner (w : LifecycleWorld) : Option LifecycleThread :=
  w.operationLock.bind (w.threads[·]?)

structure LifecycleWorld.Valid (w : LifecycleWorld) : Prop where
  holder : ∀ i t, w.threads[i]? = some t → (t.holds = true ↔ w.operationLock = some i)
  bound : ∀ i, w.operationLock = some i → i < w.threads.length
  sound : Sound w.core w.owner
  /-- Once a call of `close` has returned. -/
  finished : .close .done ∈ w.threads → w.state.closed = true ∧ w.state.reconnectState = .closed

section
variable {w w' : LifecycleWorld} {i : Nat} {t t' : LifecycleThread}

theorem LifecycleWorld.Valid.owner_eq (hw : LifecycleWorld.Valid w) (ht : w.threads[i]? = some t) (hholds : t.holds = true) :
    w.owner = some t := by
  rw [LifecycleWorld.owner, (hw.holder i t ht).mp hholds]
  exact ht

theorem owner_none (h : w.operationLock = none) : w.owner = none := by
  rw [LifecycleWorld.owner, h]
  rfl

/-- The lock after the move of a thread. -/
theorem LifecycleWorld.Valid.moves_holder (hw : LifecycleWorld.Valid w) (hi : w.threads[i]? = some t)
    (hm : LifecycleWorld.Moves w i outcome t w' t') :
    ∀ j u, w'.threads[j]? = some u → (u.holds = true ↔ w'.operationLock = some j) := by
  intro j u hj
  have hlock := hm.lock
  rw [hm.threads] at hj
  by_cases hij : i = j
  · subst hij
    rw [List.getElem?_set_self (List.getElem?_eq_some_iff.mp hi).1] at hj
    cases hj
    rw [hlock]
    split
    · rename_i hsame
      rw [← hsame]
      exact hw.holder i t hi
    · cases hholds : t'.holds <;> simp
  · rw [List.getElem?_set_ne hij] at hj
    have hu := hw.holder j u hj
    rw [hu, hlock]
    split
    · rfl
    · rename_i hdiff
      cases hholds : t'.holds with
      | true =>
        have hfree := hm.free (by cases ht : t.holds <;> simp_all) hholds
        simp [hfree, hij]
      | false =>
        have hheld : w.operationLock = some i :=
          (hw.holder i t hi).mp (by cases ht : t.holds <;> simp_all)
        simp [hheld, hij]

/-- A step of a thread that neither holds nor takes the operation lock reads the status. -/
theorem CoreStep.idle {k k' : Core} (h : CoreStep now outcome k t k' t') (ht : t.holds = false)
    (ht' : t'.holds = false) : k' = k ∧ t' ≠ .close .done := by
  cases h with
  | status => exact ⟨rfl, LifecycleThread.noConfusion⟩
  | acquire | acquireClose => cases ht'
  | _ => cases ht

theorem LifecycleWorld.Valid.owner_moves (hw : LifecycleWorld.Valid w) (hi : w.threads[i]? = some t)
    (hm : LifecycleWorld.Moves w i outcome t w' t') (hlock : t.holds = true ∨ t'.holds = true) :
    w.owner = t.owner ∧ w'.owner = t'.owner := by
  have hset : w'.threads[i]? = some t' := by
    rw [hm.threads]
    exact List.getElem?_set_self (List.getElem?_eq_some_iff.mp hi).1
  have hheld (h : t.holds = true) : w.operationLock = some i := (hw.holder i t hi).mp h
  have howner (w : LifecycleWorld) (h : w.operationLock = some i) : w.owner = w.threads[i]? := by
    rw [LifecycleWorld.owner, h]
    rfl
  have hl := hm.lock
  unfold LifecycleThread.owner
  cases ht : t.holds <;> cases ht' : t'.holds <;> simp only [ht, ht'] at hl hlock hheld ⊢
  · simp at hlock
  · exact ⟨owner_none (hm.free ht ht'), (howner w' (by simpa using hl)).trans (by simpa using hset)⟩
  · exact ⟨(howner w (hheld trivial)).trans (by simpa using hi), owner_none (by simpa using hl)⟩
  · have hl : w'.operationLock = some i := by simpa [hheld] using hl
    exact ⟨(howner w (hheld trivial)).trans (by simpa using hi), (howner w' hl).trans (by simpa using hset)⟩

theorem LifecycleWorld.Valid.owner_idle (hw : LifecycleWorld.Valid w) (hi : w.threads[i]? = some t)
    (hm : LifecycleWorld.Moves w i outcome t w' t') (ht : t.holds = false) (ht' : t'.holds = false) :
    w'.owner = w.owner := by
  unfold LifecycleWorld.owner
  rw [hm.lock, if_pos (ht.trans ht'.symm)]
  cases hown : w.operationLock with
  | none => rfl
  | some j =>
    have hij : i ≠ j := by
      rintro rfl
      rw [(hw.holder i t hi).mpr hown] at ht
      cases ht
    simp only [Option.bind_some, hm.threads, List.getElem?_set_ne hij]

theorem LifecycleWorld.Valid.moves (hw : LifecycleWorld.Valid w) (hi : w.threads[i]? = some t)
    (hm : LifecycleWorld.Moves w i outcome t w' t') :
    LifecycleWorld.Valid w' ∧ (w.state.Shut → w'.state.Shut ∧ w'.nextContext = w.nextContext ∧
      w'.log.countP (·.isEntered) = w.log.countP (·.isEntered)) := by
  have hmem (h : .close .done ∈ w'.threads) : .close .done ∈ w.threads ∨ t' = .close .done := by
    rw [hm.threads] at h
    exact (List.mem_or_eq_of_mem_set h).imp_right Eq.symm
  have hbound (j : Nat) (hj : w'.operationLock = some j) : j < w'.threads.length := by
    rw [hm.threads, List.length_set]
    rw [hm.lock] at hj
    split at hj
    · exact hw.bound j hj
    · split at hj <;> cases hj
      exact (List.getElem?_eq_some_iff.mp hi).1
  by_cases hlock : t.holds = true ∨ t'.holds = true
  · obtain ⟨howner, howner'⟩ := hw.owner_moves hi hm hlock
    have hsound : Sound w.core t.owner := howner ▸ hw.sound
    refine ⟨⟨hw.moves_holder hi hm, hbound, howner' ▸ hm.core.sound hsound, fun h => ?_⟩,
      hm.core.shut hsound⟩
    rcases hmem h with h | rfl
    · exact (hm.core.shut hsound (hw.finished h)).1
    · exact hm.core.close_done hsound
  · obtain ⟨ht, ht'⟩ : t.holds = false ∧ t'.holds = false := by simpa using hlock
    obtain ⟨hcore, hne⟩ := hm.core.idle ht ht'
    have howner := hw.owner_idle hi hm ht ht'
    have hstate : w'.state = w.state := congrArg Core.state hcore
    refine ⟨⟨hw.moves_holder hi hm, hbound, ?_, fun h => ?_⟩, fun hshut => ?_⟩
    · rw [hcore, howner]
      exact hw.sound
    · rw [hstate]
      exact hw.finished ((hmem h).resolve_right hne)
    · rw [hstate]
      exact ⟨hshut, congrArg Core.nextContext hcore,
        congrArg (·.log.countP (·.isEntered)) hcore⟩

theorem LifecycleWorld.Valid.owner_spawn (hw : LifecycleWorld.Valid w) (t : LifecycleThread) :
    LifecycleWorld.owner { w with threads := w.threads ++ [t] } = w.owner := by
  unfold LifecycleWorld.owner
  cases hlock : w.operationLock with
  | none => rfl
  | some j => exact List.getElem?_append_left (hw.bound j hlock)

/-- A new thread does not hold the lock. -/
theorem LifecycleWorld.Valid.spawn (hw : LifecycleWorld.Valid w) (ht : t.holds = false) (hne : t ≠ .close .done) :
    LifecycleWorld.Valid { w with threads := w.threads ++ [t] } := by
  have howner := hw.owner_spawn t
  refine ⟨fun i u hi => ?_, fun i hi => ?_, howner ▸ hw.sound, fun h => ?_⟩
  · rw [List.getElem?_append] at hi
    split at hi
    · exact hw.holder i u hi
    · rename_i hge
      cases List.mem_singleton.mp (List.mem_of_getElem? hi)
      refine iff_of_false (by simp [ht]) fun hlock => hge (hw.bound i hlock)
  · exact (hw.bound i hi).trans_le (by simp)
  · exact hw.finished ((List.mem_append.mp h).resolve_right fun h => hne (List.mem_singleton.mp h).symm)

theorem LifecycleWorld.Valid.step (hw : LifecycleWorld.Valid w) (h : w.step a = some w') :
    LifecycleWorld.Valid w' ∧ (w.state.Shut → w'.state.Shut ∧ w'.nextContext = w.nextContext ∧
      w'.log.countP (·.isEntered) = w.log.countP (·.isEntered)) := by
  cases a with
  | tick later =>
    simp only [LifecycleWorld.step] at h
    split at h <;> cases h
    exact ⟨⟨hw.holder, hw.bound, hw.sound, hw.finished⟩, fun hshut => ⟨hshut, rfl, rfl⟩⟩
  | call method =>
    cases h
    exact ⟨hw.spawn rfl LifecycleThread.noConfusion, fun hshut => ⟨hshut, rfl, rfl⟩⟩
  | status =>
    cases h
    exact ⟨hw.spawn rfl LifecycleThread.noConfusion, fun hshut => ⟨hshut, rfl, rfl⟩⟩
  | close =>
    cases h
    exact ⟨hw.spawn rfl (by simp), fun hshut => ⟨hshut, rfl, rfl⟩⟩
  | thread i outcome =>
    obtain ⟨t, t', hi, hm⟩ := LifecycleWorld.step_thread h
    exact hw.moves hi hm

theorem LifecycleWorld.Valid.init (initialDelay maxDelay configurationErrorRetryDelay : ℚ) :
    LifecycleWorld.Valid (.init initialDelay maxDelay configurationErrorRetryDelay) := by
  refine ⟨fun i t hi => ?_, fun i hi => ?_, ⟨rfl, fun t ht => ?_, fun _ => ?_, fun h => ?_, .init, rfl⟩,
    fun h => ?_⟩
  · simp [LifecycleWorld.init] at hi
  · cases hi
  · cases ht
  · exact iff_of_false ReconnectState.noConfusion Bool.false_ne_true
  · cases h
  · cases h

/-! ## What a reader of the fields sees -/

/-- The context has been entered and not yet exited. -/
def LifecycleWorld.Unexited (w : LifecycleWorld) (c : Nat) : Prop :=
  .entered c ∈ w.log ∧ .exited c ∉ w.log

/-- The context has been entered, and neither the fields nor a thread has it any more. -/
def LifecycleWorld.Dropped (w : LifecycleWorld) (c : Nat) : Prop :=
  .entered c ∈ w.log ∧ w.state.context ≠ some c ∧ ∀ t ∈ w.threads, t.context? ≠ some c

/-- The action is the step in which `close` discards the session, or the one in which a call does
whose operation on it has raised a device loss. -/
def LifecycleWorld.Discards (w : LifecycleWorld) (a : Action) (d : Nat) : Prop :=
  ∃ i outcome, a = .thread i outcome ∧ (w.threads[i]? = some (.close .locked) ∨
    ∃ m exc, w.threads[i]? = some (.call m (.lost d exc)) ∧ isReconnectableDeviceLoss exc false = true)

/-- The live context, if there is one. -/
def LifecycleWorld.live (w : LifecycleWorld) : Option Nat :=
  (w.owner.bind (·.context?)).or w.state.context

theorem LifecycleWorld.Valid.unexited (hw : LifecycleWorld.Valid w) (h : w.Unexited c) : w.live = some c := by
  by_contra hne
  have hcount : w.log.count (.exited c) = 1 :=
    (hw.sound.accounts.exits c).trans (if_pos ⟨h.1, hne⟩)
  exact h.2 (List.count_pos_iff.mp (by rw [hcount]; exact Nat.one_pos))

theorem LifecycleWorld.Valid.dropped (hw : LifecycleWorld.Valid w) (h : w.Dropped c) : w.log.count (.exited c) = 1 := by
  obtain ⟨hentered, hcontext, hthreads⟩ := h
  have hlive : w.live ≠ some c := by
    intro hlive
    rcases Option.or_eq_some_iff.mp hlive with hlive | ⟨-, hlive⟩
    · obtain ⟨t, ht, hc⟩ := Option.bind_eq_some_iff.mp hlive
      obtain ⟨i, -, hi⟩ := Option.bind_eq_some_iff.mp ht
      exact hthreads t (List.mem_of_getElem? hi) hc
    · exact hcontext hlive
  exact (hw.sound.accounts.exits c).trans (if_pos ⟨hentered, hlive⟩)

theorem LifecycleWorld.Valid.owner_any (hw : LifecycleWorld.Valid w) {p : LifecycleThread → Bool}
    (hp : ∀ t, p t = true → t.holds = true) : w.owner.any p = w.threads.any p := by
  rw [Bool.eq_iff_iff, List.any_eq_true]
  constructor
  · intro h
    obtain ⟨t, ht, hpt⟩ := (Option.any_eq_true _ _).mp h
    obtain ⟨i, -, hi⟩ := Option.bind_eq_some_iff.mp ht
    exact ⟨t, List.mem_of_getElem? hi, hpt⟩
  · rintro ⟨t, hmem, hpt⟩
    obtain ⟨i, hi⟩ := List.getElem?_of_mem hmem
    rw [hw.owner_eq hi (hp t hpt)]
    exact hpt

/-- A move that takes the session away. -/
theorem CoreStep.discards {k k' : Core} (h : CoreStep now outcome k t k' t')
    (hd : k.state.datastore = some d) (hk : ∀ u, t.owner = some u → u.Fits k) :
    k'.state.datastore = some d ∨ t = .close .locked ∨
      ∃ m exc, t = .call m (.lost d exc) ∧ isReconnectableDeviceLoss exc false = true := by
  cases h with
  | acquire | openRaised | opened | enterRaised | entered | reject | rejected | returned | lost
  | stale | release | acquireClose | status => exact .inl hd
  | unavailable h | present h | reconnect h =>
    rcases checkSession_cases h with ⟨-, rfl⟩ | ⟨-, -, -, -, -, rfl⟩ | ⟨_, -, -, rfl⟩ | ⟨-, -, -, -, rfl⟩ <;>
      exact .inl hd
  | failed => exact .inl ((openFailed_fields k.state now _).2.1.trans hd)
  | install _ hnone => rw [hnone] at hd; cases hd
  | discard h | discardNone h =>
    cases h.symm.trans hd
    exact .inr (.inr ⟨_, _, rfl, (hk _ rfl).2⟩)
  | exited => exact .inl hd
  | closeDrop | closeDone => exact .inr (.inl rfl)
  | closeExited => exact .inl hd

theorem LifecycleThread.holds_of_closing {t : LifecycleThread} (h : t.closing = true) :
    t.holds = true := by
  unfold LifecycleThread.closing at h
  split at h
  · rfl
  · cases h

theorem LifecycleThread.holds_of_hasEntered {t : LifecycleThread} (h : t.hasEntered = true) :
    t.holds = true := by
  unfold LifecycleThread.hasEntered at h
  split at h
  · rfl
  · cases h

/-- Only an operation that raises loses a session. -/
theorem CoreStep.lost_of_raised {k k' : Core}
    (h : CoreStep now outcome k t k' (.call m (.lost d exc))) :
    t = .call m (.operating d) ∧ outcome = .raised exc := by
  cases h with
  | lost hraised => exact ⟨rfl, hraised⟩
  | rejected hpc => rcases hpc with ⟨_, hpc⟩ | ⟨_, hpc⟩ <;> cases hpc

/-- Once a call of `close` has returned, there is no session and none is opened, whatever follows. -/
theorem LifecycleWorld.Valid.after_close (hw : LifecycleWorld.Valid w) (hdone : .close .done ∈ w.threads)
    (hrun : run LifecycleWorld.step w bs = some w') :
    w'.state.context = none ∧ w'.state.datastore = none ∧ w'.state.reconnectState = .closed ∧
      w'.nextContext = w.nextContext ∧ w'.log.countP (·.isEntered) = w.log.countP (·.isEntered) := by
  obtain ⟨hw', hshut, hnext, hlog⟩ : LifecycleWorld.Valid w' ∧ w'.state.Shut ∧ w'.nextContext = w.nextContext ∧
      w'.log.countP (·.isEntered) = w.log.countP (·.isEntered) := by
    refine run_invariant_of_step (I := fun v => LifecycleWorld.Valid v ∧ v.state.Shut ∧
      v.nextContext = w.nextContext ∧ v.log.countP (·.isEntered) = w.log.countP (·.isEntered))
      (fun v a v' hv hstep => ?_) ⟨hw, hw.finished hdone, rfl, rfl⟩ hrun
    obtain ⟨hv, hshut, hnext, hlog⟩ := hv
    obtain ⟨hv', hstays⟩ := hv.step hstep
    obtain ⟨hshut', hnext', hlog'⟩ := hstays hshut
    exact ⟨hv', hshut', hnext'.trans hnext, hlog'.trans hlog⟩
  have hnone := (hw'.sound.closed hshut.1).1
  exact ⟨hw'.sound.paired.trans hnone, hnone, hshut.2, hnext, hlog⟩

end

/-! ## A call goes on -/

/-- How far a call has come. -/
def CallPc.rank : CallPc → Nat
  | .start => 0
  | .ensuring => 1
  | .opening => 2
  | .entering _ => 3
  | .openFailed _ | .entered _ => 4
  | .rejecting .. => 5
  | .operating _ => 6
  | .lost .. => 7
  | .exiting _ => 8
  | .releasing _ => 9
  | .done _ => 10

theorem CoreStep.rank_lt {k k' : Core} (h : CoreStep now outcome k (.call m pc) k' t') :
    ∃ pc', t' = .call m pc' ∧ pc.rank < pc'.rank := by
  cases h with
  | rejected hpc =>
    obtain ⟨_, rfl⟩ | ⟨_, rfl⟩ := hpc <;> exact ⟨_, rfl, by simp [CallPc.rank]⟩
  | _ => exact ⟨_, rfl, by simp [CallPc.rank]⟩

/-- A step leaves a call where it is, or the call goes on. -/
theorem LifecycleWorld.step_call {w w' : LifecycleWorld} {j : Nat} (h : w.step a = some w')
    (hj : w.threads[j]? = some (.call m pc)) :
    ∃ pc', w'.threads[j]? = some (.call m pc') ∧ pc.rank ≤ pc'.rank ∧
      ∀ outcome, a = .thread j outcome → pc.rank < pc'.rank := by
  have hlt := (List.getElem?_eq_some_iff.mp hj).1
  cases a with
  | tick later =>
    simp only [LifecycleWorld.step] at h
    split at h <;> cases h
    exact ⟨pc, hj, Nat.le_refl _, nofun⟩
  | call | status | close =>
    cases h
    exact ⟨pc, by rw [List.getElem?_append_left hlt, hj], Nat.le_refl _, nofun⟩
  | thread i outcome =>
    obtain ⟨t, t', ht, hmoves⟩ := LifecycleWorld.step_thread h
    rw [hmoves.threads]
    by_cases hij : i = j
    · subst hij
      cases hj.symm.trans ht
      obtain ⟨pc', rfl, hrank⟩ := hmoves.core.rank_lt
      exact ⟨pc', List.getElem?_set_self hlt, Nat.le_of_lt hrank, fun _ _ => hrank⟩
    · refine ⟨pc, by rw [List.getElem?_set_ne hij, hj], Nat.le_refl _, fun _ h => ?_⟩
      cases h
      exact absurd rfl hij

/-- A call never comes back to where it was. -/
theorem LifecycleWorld.call_goes_on {w w₁ w' : LifecycleWorld} {j : Nat}
    (hj : w.threads[j]? = some (.call m pc)) (h : w.step (.thread j outcome) = some w₁)
    (hrun : run LifecycleWorld.step w₁ as = some w') :
    ∃ pc', w'.threads[j]? = some (.call m pc') ∧ pc.rank < pc'.rank := by
  obtain ⟨pc₁, h₁, -, hlt⟩ := LifecycleWorld.step_call h hj
  have hI : ∃ pc', w₁.threads[j]? = some (.call m pc') ∧ pc.rank < pc'.rank :=
    ⟨pc₁, h₁, hlt outcome rfl⟩
  refine run_invariant_of_step (I := fun w : LifecycleWorld =>
    ∃ pc', w.threads[j]? = some (.call m pc') ∧ pc.rank < pc'.rank) ?_ hI hrun
  rintro s a s' ⟨pc₂, h₂, hlt₂⟩ hstep
  obtain ⟨pc₃, h₃, hle, -⟩ := LifecycleWorld.step_call hstep h₂
  exact ⟨pc₃, h₃, Nat.lt_of_lt_of_le hlt₂ hle⟩

/-- The life of the sessions of a managed datastore, in every interleaving of its calls. -/
theorem session_lifecycle {w : LifecycleWorld}
    (h : run LifecycleWorld.step (.init initialDelay maxDelay configurationErrorRetryDelay) as = some w) :
    (∀ c c', w.Unexited c → w.Unexited c' → c = c') ∧
    (∀ c, w.log.count (.exited c) ≤ 1 ∧ (w.Dropped c → w.log.count (.exited c) = 1)) ∧
    w.state.context.isSome = w.state.datastore.isSome ∧
    ((∀ t ∈ w.threads, t.holds = false) →
      (w.state.reconnectState = .available ↔ w.state.datastore.isSome = true)) ∧
    w.state.sessionGeneration + (w.threads.any (·.hasEntered)).toNat =
      w.log.countP (·.isEntered) ∧
    (∀ a w' d, w.step a = some w' → w.state.datastore = some d →
      w'.state.datastore = some d ∨ w.Discards a d) ∧
    (∀ i outcome w' m d exc, w.step (.thread i outcome) = some w' →
      w'.threads[i]? = some (.call m (.lost d exc)) →
      w.threads[i]? = some (.call m (.operating d)) ∧ outcome = .raised exc) ∧
    (.close .done ∈ w.threads → ∀ bs w', run LifecycleWorld.step w bs = some w' →
      w'.state.context = none ∧ w'.state.datastore = none ∧ w'.state.reconnectState = .closed ∧
      w'.nextContext = w.nextContext ∧
      w'.log.countP (·.isEntered) = w.log.countP (·.isEntered)) := by
  have hw : LifecycleWorld.Valid w := run_invariant_of_step (fun _ _ _ hw h => (hw.step h).1) (.init _ _ _) h
  refine ⟨fun c c' hc hc' => ?_, fun c => ⟨?_, hw.dropped⟩, ?_, fun hout => ?_, ?_,
    fun a w' d hstep hd => ?_, fun i outcome w' m d exc hstep hlost => ?_,
    fun hdone bs w' => hw.after_close hdone⟩
  · exact Option.some.inj ((hw.unexited hc).symm.trans (hw.unexited hc'))
  · have hcount : w.log.count (.exited c) = _ := hw.sound.accounts.exits c
    rw [hcount]
    split <;> simp
  · exact congrArg Option.isSome hw.sound.paired
  · refine hw.sound.available ?_
    rw [hw.owner_any fun _ => LifecycleThread.holds_of_closing, List.any_eq_false]
    intro t hmem hclosing
    have hholds := LifecycleThread.holds_of_closing hclosing
    rw [hout t hmem] at hholds
    cases hholds
  · rw [← hw.owner_any fun _ => LifecycleThread.holds_of_hasEntered]
    exact hw.sound.generation
  · cases a with
    | thread i outcome =>
      obtain ⟨t, t', hi, hm⟩ := LifecycleWorld.step_thread hstep
      have hfits (u : LifecycleThread) (hu : t.owner = some u) : u.Fits w.core := by
        unfold LifecycleThread.owner at hu
        split at hu <;> cases hu
        exact hw.sound.fits t (hw.owner_eq hi ‹_›)
      rcases hm.core.discards hd hfits with hsame | rfl | ⟨m, exc, rfl, hexc⟩
      · exact .inl hsame
      · exact .inr ⟨i, outcome, rfl, .inl hi⟩
      · exact .inr ⟨i, outcome, rfl, .inr ⟨m, exc, hi, hexc⟩⟩
    | tick later =>
      simp only [LifecycleWorld.step] at hstep
      split at hstep <;> cases hstep
      exact .inl hd
    | call | status | close => cases hstep; exact .inl hd
  · obtain ⟨t, t', hi, hm⟩ := LifecycleWorld.step_thread hstep
    rw [hm.threads, List.getElem?_set_self (List.getElem?_eq_some_iff.mp hi).1] at hlost
    cases hlost
    obtain ⟨rfl, hraised⟩ := hm.core.lost_of_raised
    exact ⟨hi, hraised⟩

/-! A device that is lost in its first session, with an `__exit__` that fails, and the end of the
second session. -/

def hotplugRun : List LifecycleWorld.Action :=
  [.call .get, .thread 0 .returned, .thread 0 .returned, .thread 0 .returned, .thread 0 .returned,
    .thread 0 .returned, .thread 0 (.raised ⟨.osError 19, []⟩), .status, .thread 0 .returned,
    .thread 0 (.raised ⟨.osError 5, []⟩), .thread 0 .returned, .thread 1 .returned,
    .call .post, .thread 2 .returned, .thread 2 .returned, .thread 2 .returned, .thread 2 .returned,
    .thread 2 .returned, .close, .thread 2 .returned, .thread 2 .returned, .thread 3 .returned,
    .thread 3 .returned, .thread 3 .returned]

theorem session_lifecycle_hotplug :
    ∃ w, run LifecycleWorld.step (.init 0 0 0) hotplugRun = some w ∧
      w.log = [.entered 0, .exited 0, .entered 1, .exited 1] ∧
      (∀ bs w', run LifecycleWorld.step w bs = some w' →
        w'.state.datastore = none ∧ w'.state.reconnectState = .closed) := by
  have hfacts : (run LifecycleWorld.step (.init 0 0 0) hotplugRun).map (fun w =>
      (w.log, w.threads[3]?)) =
      some ([.entered 0, .exited 0, .entered 1, .exited 1], some (.close .done)) := by decide +kernel
  obtain ⟨w, hw, hfacts⟩ := Option.map_eq_some_iff.mp hfacts
  obtain ⟨hlog, hdone⟩ := Prod.mk.inj hfacts
  obtain ⟨-, -, -, -, -, -, -, hclosed⟩ := session_lifecycle hw
  refine ⟨w, hw, hlog, fun bs w' hrun => ?_⟩
  obtain ⟨-, hnone, hstate, -⟩ := hclosed (List.mem_of_getElem? hdone) bs w' hrun
  exact ⟨hnone, hstate⟩

end Datastore

end MotuProxy
