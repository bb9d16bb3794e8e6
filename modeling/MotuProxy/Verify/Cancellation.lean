import MotuProxy.Verify.OwnResponse

/-! # A held read is told to stop

The poller's read is held by the device for seconds, so it has to be cancelled when a foreground
thread waits for the I/O or the coordinator is closed. Cancellation is requested by `close`, by the
foreground thread, and by the registration of a read, which looks at the foreground threads only: a
read that is registered after `close` is told nothing.
-/

namespace MotuProxy

open Py Protocol Responses

namespace Coordinator

open Datastore (ManagedDatastore)
open DatastoreCoordinator

/-- If the coordinator is closed or a thread waits in `_acquire_foreground_io`, the cancellation of
the registered read has been requested. -/
def HeldReadTold (w : World) : Prop :=
  w.env.shared.activePollRead ≠ none →
  (w.env.shared.closed = true ∨ ∃ c ∈ w.clients, c.waits = true) →
  w.env.shared.activePollCancelRequested = true

/-- If the poller registers a read, then before `close` or while a foreground thread waits. -/
def RegistersInTime (w : World) (a : Action) : Prop :=
  ∀ r c, a = .poller (.readStarted (some r)) → w.poller = .inCall c → c.initialRefresh = false →
    w.env.shared.closed = false ∨ ∃ c ∈ w.clients, c.waits = true

/-! ## The fields -/

/-- `HeldReadTold` on the fields of the coordinator. -/
def Told (s : DatastoreCoordinator) : Prop :=
  s.activePollRead ≠ none → s.closed = true ∨ 0 < s.foregroundWaiters →
    s.activePollCancelRequested = true

theorem Monitor.waiters_pos {w : World} (hw : Monitor w) :
    0 < w.env.shared.foregroundWaiters ↔ ∃ c ∈ w.clients, c.waits = true := by
  rw [hw.waiters, Int.natCast_pos]
  exact List.countP_pos_iff

theorem Monitor.told_iff {w : World} (hw : Monitor w) : HeldReadTold w ↔ Told w.env.shared := by
  unfold HeldReadTold Told
  rw [hw.waiters_pos]

/-- The fields that `Told` reads are the same. -/
structure SameCancel (s s' : DatastoreCoordinator) : Prop where
  active : s'.activePollRead = s.activePollRead
  requested : s'.activePollCancelRequested = s.activePollCancelRequested
  closed : s'.closed = s.closed
  waiters : s'.foregroundWaiters = s.foregroundWaiters

section
variable {s s' : DatastoreCoordinator}

theorem SameCancel.rfl : SameCancel s s := ⟨Eq.refl _, Eq.refl _, Eq.refl _, Eq.refl _⟩

theorem SameCancel.told (h : SameCancel s s') (hs : Told s) : Told s' := by
  unfold Told
  rw [h.active, h.requested, h.closed, h.waiters]
  exact hs

theorem Told.of_none (h : s.activePollRead = none) : Told s := fun hactive => absurd h hactive

theorem publishPayload_sameCancel :
    SameCancel s (s.publishPayload cfg payload originClient fromEtag recordTransition) := by
  unfold publishPayload
  split
  · exact .rfl
  · split
    · exact .rfl
    · split <;> exact ⟨rfl, rfl, rfl, rfl⟩

theorem resetIfSessionGenerationChanged_sameCancel :
    SameCancel s (s.resetIfSessionGenerationChanged generation) := by
  unfold resetIfSessionGenerationChanged
  split <;> exact ⟨rfl, rfl, rfl, rfl⟩

theorem close_told : Told s.close := by
  unfold DatastoreCoordinator.close
  obtain ⟨read, requested, hcancel, heq⟩ :=
    DatastoreCoordinator.requestActivePollCancelLocked_cases { s with closed := true }
  rw [heq]
  exact fun hactive _ => hcancel hactive

/-- The registration of a read looks at the waiters, and not at `closed`. -/
theorem setActivePollRead_told {read : Option Nat} :
    Told (s.setActivePollRead read) ↔ (read ≠ none → s.closed = true → 0 < s.foregroundWaiters) := by
  cases read with
  | none =>
    refine iff_of_true (.of_none ?_) fun h => absurd rfl h
    simp [setActivePollRead]
  | some r =>
    by_cases hwaiters : 0 < s.foregroundWaiters
    · refine iff_of_true (fun _ _ => ?_) fun _ _ => hwaiters
      simp [setActivePollRead, requestActivePollCancelLocked, hwaiters]
    · simp [Told, setActivePollRead, hwaiters]

end

/-! ## The threads -/

/-- A foreground operation that waits has told the read of the poller. -/
theorem IoStep.told {e e' : Env} {c c' : IoCall} (h : IoStep cfg e c choice e' c')
    (hactive : e.shared.activePollRead ≠ none → e.shared.ioBusy = true ∧ e.shared.ioOwner = some .poller)
    (hs : Told e.shared) : Told e'.shared := by
  cases h with
  | acquire hpc hfree =>
    obtain ⟨-, hbusy, -, hread, -⟩ := entering_cases hpc
    refine fun hne => absurd (hactive (hread ▸ hne)).1 ?_
    rw [← hbusy, hfree]
    exact Bool.false_ne_true
  | exceed hpc hbusy hcancel | wait hpc hbusy hcancel =>
    obtain ⟨-, -, howner, hread, -⟩ := entering_cases hpc
    exact fun hne _ => hcancel (howner.trans (hactive (hread ▸ hne)).2) hne
  | beginOk hpc hb | refreshBegin hpc hjob hb =>
    obtain ⟨-, -, -, -, hshared, -⟩ := Env.begin_ok hb
    exact hshared ▸ hs
  | beginFail hpc hb | refreshBeginFail hpc hjob hb =>
    obtain ⟨-, -, -, hshared, -⟩ := Env.begin_error hb
    exact hshared ▸ hs
  | respond hpc hf | refreshRespond hpc hf =>
    cases Env.finish_ok hf
    exact hs
  | raise hpc hf | refreshRaise hpc hf =>
    obtain ⟨_, _, _, rfl⟩ := Env.finish_error hf
    exact hs
  | payload hpc | refreshPayload hpc => exact resetIfSessionGenerationChanged_sameCancel.told hs
  | publishRead hpc hjob | publishRefresh hpc hjob => exact publishPayload_sameCancel.told hs
  | release hpc => exact .of_none rfl

theorem Client.step_told {e e' : Env} {c c' : Client} (h : c.step cfg e choice = some (e', c'))
    (hactive : e.shared.activePollRead ≠ none → e.shared.ioBusy = true ∧ e.shared.ioOwner = some .poller)
    (hs : Told e.shared) : Told e'.shared := by
  rcases Client.step_cases h with ⟨call, call', -, -, hstep⟩ | ⟨⟨_, _, rfl⟩, -, -⟩
  · exact hstep.told hactive hs
  · exact SameCancel.told ⟨rfl, rfl, rfl, rfl⟩ hs

/-- The poller registers a read, or leaves the fields alone, or drops its read. -/
theorem PollPc.step_registers {e e' : Env} {pc pc' : PollPc}
    (h : pc.step cfg e choice = some (e', pc')) :
    (∃ read c, choice = .readStarted read ∧ pc = .inCall c ∧ c.initialRefresh = false ∧
      e'.shared = e.shared.setActivePollRead read) ∨
    SameCancel e.shared e'.shared ∨ e'.shared.activePollRead = none := by
  cases PollPc.step_cases h with
  | start | capture | wait | loop | stop => exact .inr (.inl .rfl)
  | acquire => exact .inr (.inl ⟨rfl, rfl, rfl, rfl⟩)
  | beginOk hb =>
    obtain ⟨-, -, -, -, hshared, -⟩ := Env.begin_ok hb
    exact .inr (.inl (hshared ▸ .rfl))
  | beginFail hb =>
    obtain ⟨-, -, -, hshared, -⟩ := Env.begin_error hb
    exact .inr (.inl (hshared ▸ .rfl))
  | readStarted hinit =>
    simp only [PollPc.step] at h
    split at h
    · rename_i read
      split at h
      · cases h
      · have henv := (Prod.mk.inj (Option.some.inj h)).1
        exact .inl ⟨read, _, rfl, rfl, hinit, congrArg Env.shared henv.symm⟩
    · -- an operation that ends leaves the state `inCall`
      obtain ⟨⟨r, e₁⟩, -, hr⟩ := Option.map_eq_some_iff.mp h
      cases r <;> cases (Prod.mk.inj hr).2
  | respond hf =>
    cases Env.finish_ok hf
    exact .inr (.inl .rfl)
  | raise hf =>
    obtain ⟨_, _, _, rfl⟩ := Env.finish_error hf
    exact .inr (.inl .rfl)
  | payload => exact .inr (.inl resetIfSessionGenerationChanged_sameCancel)
  | publish =>
    rw [Env.publish_shared]
    exact .inr (.inl publishPayload_sameCancel)
  | release => exact .inr (.inr rfl)

/-! ## The system -/

structure Preempting (w : World) : Prop where
  monitor : Monitor w
  told : Told w.env.shared

section
variable {w w' : World}

theorem Monitor.active_poller (hw : Monitor w) (h : w.env.shared.activePollRead ≠ none) :
    w.env.shared.ioBusy = true ∧ w.env.shared.ioOwner = some .poller := by
  have howner := hw.poller.mp (hw.active h)
  refine ⟨?_, howner⟩
  rw [hw.busy, howner]
  rfl

theorem Preempting.step (hw : Preempting w) (ha : RegistersInTime w a)
    (h : Coordinator.step cfg w a = some w') : Preempting w' := by
  refine ⟨hw.monitor.step h, ?_⟩
  have hs := hw.told
  cases a with
  | tick later =>
    simp only [Coordinator.step] at h
    split at h <;> cases h
    exact hs
  | get path client ifNoneMatch queryFields => cases h; exact hs
  | post path jsonBody client => cases h; exact hs
  | client i choice =>
    simp only [Coordinator.step, Option.bind_eq_bind, Option.bind_eq_some_iff] at h
    obtain ⟨c, hc, ⟨env', c'⟩, hstep, h⟩ := h
    cases h
    exact Client.step_told hstep hw.monitor.active_poller hs
  | poller choice =>
    simp only [Coordinator.step, Option.bind_eq_bind, Option.bind_eq_some_iff] at h
    obtain ⟨⟨env', poller'⟩, hstep, h⟩ := h
    cases h
    rcases PollPc.step_registers hstep with ⟨read, c, rfl, hpc, hinit, hshared⟩ | hsame | hnone
    · simp only [hshared, setActivePollRead_told]
      intro hread hclosed
      obtain ⟨r, rfl⟩ := Option.ne_none_iff_exists'.mp hread
      rcases ha r c rfl hpc hinit with hopen | hwaits
      · rw [hopen] at hclosed
        cases hclosed
      · exact hw.monitor.waiters_pos.mpr hwaits
    · exact hsame.told hs
    · exact .of_none hnone
  | close => cases h; exact close_told
  | closeDatastore exit =>
    simp only [Coordinator.step] at h
    split at h <;> cases h
    exact hs

theorem Preempting.init (managed : ManagedDatastore) : Preempting (World.init managed) :=
  ⟨.init managed, .of_none rfl⟩

/-- A step after which every held read has been told registers its read in time. -/
theorem registersInTime_of_told (hw : Preempting w)
    (h : ∀ w', Coordinator.step cfg w a = some w' → HeldReadTold w') : RegistersInTime w a := by
  rintro r c rfl hpc hinit
  have hstep : Coordinator.step cfg w (.poller (.readStarted (some r))) = some { w with
      env := { w.env with shared := w.env.shared.setActivePollRead (some r) }, poller := .inCall c } := by
    simp [Coordinator.step, PollPc.step, hpc, hinit]
  have htold := setActivePollRead_told.mp ((hw.monitor.step hstep).told_iff.mp (h _ hstep))
  cases hclosed : w.env.shared.closed with
  | false => exact .inl rfl
  | true => exact .inr (hw.monitor.waiters_pos.mp (htold (Option.some_ne_none r) hclosed))

end

/-- In the states of a run every held read has been told, if and only if no read is registered after
`close` while no foreground thread waits. -/
theorem held_read_told_iff {managed : ManagedDatastore} {as : List Action} :
    Along (step cfg) RegistersInTime (World.init managed) as ↔
      Always (step cfg) HeldReadTold (World.init managed) as :=
  along_iff_always (I := Preempting) (fun _ _ _ hw ha h => hw.step ha h)
    (fun _ hw => hw.monitor.told_iff.mpr hw.told) (fun _ _ hw h => registersInTime_of_told hw h)
    (.init managed)

/-! ## A read that is registered after `close` -/

/-- The poller has an ETag and is inside its second request; it finds the coordinator open, begins
its read, and registers it only after `close`. -/
def lateRegistrationRun : List Action :=
  [.poller .go, .poller .go, .poller .go, .poller (.opener none 0),
    .poller (.respond (bytesOf "HTTP/1.1 200 OK\r\nETag: 7\r\n\r\n{}")), .poller .go, .poller .go,
    .poller .go, .poller .go, .poller .go, .poller .go, .poller (.opener none 0), .close,
    .poller (.readStarted (some 1))]

theorem held_read_not_told :
    ∃ w, run (step {}) (World.init (.init 0 0 0)) lateRegistrationRun = some w ∧
      w.env.shared.activePollRead = some 1 ∧ w.env.shared.closed = true ∧ ¬HeldReadTold w := by
  have hfacts : (run (step {}) (World.init (.init 0 0 0)) lateRegistrationRun).map (fun w =>
      (w.env.shared.activePollRead, w.env.shared.closed, w.env.shared.activePollCancelRequested)) =
      some (some 1, true, false) := by decide +kernel
  obtain ⟨w, hw, hfacts⟩ := Option.map_eq_some_iff.mp hfacts
  obtain ⟨hactive, hclosed, hrequested⟩ : w.env.shared.activePollRead = some 1 ∧
      w.env.shared.closed = true ∧ w.env.shared.activePollCancelRequested = false := by
    simpa using hfacts
  refine ⟨w, hw, hactive, hclosed, fun htold => ?_⟩
  rw [htold (by rw [hactive]; exact Option.some_ne_none 1) (.inl hclosed)] at hrequested
  cases hrequested

end Coordinator

end MotuProxy
