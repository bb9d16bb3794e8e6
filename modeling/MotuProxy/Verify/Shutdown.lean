import MotuProxy.Verify.Cancellation
import MotuProxy.Verify.Progress

/-! # The poller stops

`close` joins the thread of the poller. Once the coordinator is closed the poller is never blocked,
and each of its steps but the registration of a read brings it nearer to its end.
-/

namespace MotuProxy

open Py Protocol Responses

namespace Coordinator

open Datastore (ManagedDatastore)
open DatastoreCoordinator

/-- A bound on the steps of the poller of a closed coordinator. -/
def PollPc.shutdownRank : PollPc → Nat
  | .owning _ => 6
  | .inCall _ => 5
  | .responded .. => 4
  | .payload .. => 3
  | .idle | .releasing _ => 2
  | .top | .acquiring _ | .handled _ => 1
  | .stopped => 0

/-- The step is the registration of a read, or of its end. -/
def Choice.registers : Choice → Bool
  | .readStarted _ => true
  | _ => false

/-- A step of the poller other than a registration. -/
def Action.pollerWorks : Action → Bool
  | .poller choice => !choice.registers
  | _ => false

theorem PollPc.shutdownRank_le (pc : PollPc) : pc.shutdownRank ≤ 6 := by
  cases pc <;> simp [PollPc.shutdownRank]

/-! ## The coordinator stays closed -/

theorem setActivePollRead_closed (s : DatastoreCoordinator) (read : Option Nat) :
    (s.setActivePollRead read).closed = s.closed := by
  cases read with
  | none => rfl
  | some r =>
    simp only [setActivePollRead, requestActivePollCancelLocked]
    split
    · split <;> rfl
    · rfl

theorem IoStep.closed {e e' : Env} {c c' : IoCall} (h : IoStep cfg e c choice e' c') :
    e'.shared.closed = e.shared.closed := by
  have hentering {s : DatastoreCoordinator} {deadline : Option ℚ}
      (hpc : c.pc.entering e.shared = some (s, deadline)) : s.closed = e.shared.closed := by
    unfold IoPc.entering at hpc
    split at hpc <;> cases hpc <;> rfl
  cases h with
  | acquire hpc | exceed hpc | wait hpc =>
    have hsame := hentering hpc
    exact hsame
  | beginOk hpc hb | refreshBegin hpc hjob hb =>
    obtain ⟨-, -, -, -, hshared, -⟩ := Env.begin_ok hb
    rw [hshared]
  | beginFail hpc hb | refreshBeginFail hpc hjob hb =>
    obtain ⟨-, -, -, hshared, -⟩ := Env.begin_error hb
    rw [hshared]
  | respond hpc hf | refreshRespond hpc hf => cases Env.finish_ok hf; rfl
  | raise hpc hf | refreshRaise hpc hf =>
    obtain ⟨_, _, _, rfl⟩ := Env.finish_error hf
    rfl
  | payload | refreshPayload => exact SameCancel.closed resetIfSessionGenerationChanged_sameCancel
  | publishRead | publishRefresh => exact SameCancel.closed publishPayload_sameCancel
  | release => rfl

theorem PollStep.closed {e e' : Env} {pc pc' : PollPc} (h : PollStep cfg e pc e' pc') :
    e'.shared.closed = e.shared.closed := by
  cases h with
  | start | capture | wait | loop | stop | acquire | release => rfl
  | beginOk hb =>
    obtain ⟨-, -, -, -, hshared, -⟩ := Env.begin_ok hb
    rw [hshared]
  | beginFail hb =>
    obtain ⟨-, -, -, hshared, -⟩ := Env.begin_error hb
    rw [hshared]
  | respond hf => cases Env.finish_ok hf; rfl
  | raise hf =>
    obtain ⟨_, _, _, rfl⟩ := Env.finish_error hf
    rfl
  | readStarted => exact setActivePollRead_closed _ _
  | payload => exact SameCancel.closed resetIfSessionGenerationChanged_sameCancel
  | publish =>
    rw [Env.publish_shared]
    exact SameCancel.closed publishPayload_sameCancel

theorem closed_step {w w' : World} (h : step cfg w a = some w')
    (hclosed : w.env.shared.closed = true) : w'.env.shared.closed = true := by
  cases World.step_cases h with
  | tick | get | post | closeDatastore => exact hclosed
  | client hc hstep =>
    rcases Client.step_cases hstep with ⟨_, _, -, -, hstep⟩ | ⟨⟨_, _, rfl⟩, -, -⟩
    · exact hstep.closed.trans hclosed
    · exact hclosed
  | poller hstep => exact (PollPc.step_cases hstep).closed.trans hclosed
  | close =>
    obtain ⟨read, requested, -, heq⟩ :=
      requestActivePollCancelLocked_cases { w.env.shared with closed := true }
    show w.env.shared.close.closed = true
    unfold DatastoreCoordinator.close
    rw [heq]

/-! ## The poller of a closed coordinator -/

theorem acquirePollerIo_closed {s : DatastoreCoordinator} (h : s.closed = true) :
    s.acquirePollerIo = (some false, s) := by
  unfold acquirePollerIo
  rw [h]
  exact ite_self _

/-- A step of the poller of a closed coordinator brings it nearer to its end, unless it is a
registration, and it does not end in a wait. -/
theorem PollPc.step_shutdown (pollInterval : ℚ) {e e' : Env} {pc pc' : PollPc} (hclosed : e.shared.closed = true)
    (h : pc.step cfg e choice = some (e', pc')) :
    pc'.shutdownRank + (if choice.registers then 0 else 1) ≤ pc.shutdownRank ∧
      PollPc.waiting pollInterval e' pc pc' = .running := by
  have hone : (if choice.registers then 0 else 1) ≤ 1 := by split <;> omega
  have hcases := PollPc.step_cases h
  cases hcases with
  | capture hopen | loop hopen => cases hclosed.symm.trans hopen
  | acquire | wait => simp [PollPc.step, acquirePollerIo_closed hclosed] at h
  | readStarted =>
    cases choice with
    | readStarted read => exact ⟨Nat.le_refl 5, rfl⟩
    | _ => simp [PollPc.step, Env.finish] at h
  | stop _ hpc =>
    rcases hpc with rfl | ⟨c, rfl⟩ | ⟨exc, rfl⟩ <;> exact ⟨by simpa [shutdownRank] using hone, rfl⟩
  | start | beginOk | beginFail | respond | raise | payload | publish | release =>
    exact ⟨by simp only [shutdownRank]; omega, rfl⟩

/-- The next step of the poller of a closed coordinator. -/
theorem PollPc.shutdown_advance (b : Backend) (w : World) (cfg : Config) {pc : PollPc}
    (hclosed : w.env.shared.closed = true) (hidle : pc ≠ .idle) (hstopped : pc ≠ .stopped) :
    ∃ choice e' pc', b.Chooses w choice ∧ pc.step cfg w.env choice = some (e', pc') ∧
      pc' ≠ .idle ∧ pc'.shutdownRank < pc.shutdownRank := by
  have hdown {choice : Choice} {e' : Env} {pc' : PollPc} (hchoice : b.Chooses w choice)
      (h : pc.step cfg w.env choice = some (e', pc')) :
      pc' ≠ .idle ∧ pc'.shutdownRank < pc.shutdownRank := by
    have hregisters : choice.registers = false := by
      rcases hchoice with rfl | rfl | rfl
      · rfl
      · rfl
      · rcases b.answers w with ⟨response, h⟩ | ⟨exc, cleared, exit, h⟩ <;> rw [h] <;> rfl
    obtain ⟨hrank, -⟩ := PollPc.step_shutdown 0 hclosed h
    rw [hregisters] at hrank
    refine ⟨fun h' => ?_, hrank⟩
    subst h'
    cases PollPc.step_cases h
  by_cases howns : pc.owns = true
  · obtain ⟨choice, e', pc', hchoice, hstep, -⟩ := PollPc.advance b w cfg howns
    exact ⟨choice, e', pc', hchoice, hstep, hdown hchoice hstep⟩
  · have hgo : pc.step cfg w.env .go = some (w.env, .stopped) := by
      cases pc with
      | idle => exact absurd rfl hidle
      | stopped => exact absurd rfl hstopped
      | top | handled => simp [PollPc.step, hclosed]
      | acquiring => simp [PollPc.step, acquirePollerIo_closed hclosed]
      | _ => exact absurd rfl howns
    exact ⟨.go, w.env, .stopped, .inl rfl, hgo, hdown (.inl rfl) hgo⟩

namespace WakeWorld

variable {cfg : Config} {pollInterval : ℚ} {w w' : WakeWorld} {a : Action} {b : Backend}

/-- The poller of a closed coordinator is not blocked. -/
def Released (w : WakeWorld) : Prop := w.world.env.shared.closed = true → w.poller = .running

theorem Released.step (hw : Released w) (h : step cfg pollInterval w a = some w') : Released w' := by
  intro hclosed
  cases hp : w'.poller with
  | running => rfl
  | blocked expires =>
    rcases poller_blocked h hp with ⟨choice, hstep, hwait⟩ | ⟨hp, -, hkeeps⟩
    · have hbefore := (PollPc.step_cases hstep).closed.symm.trans hclosed
      cases (PollPc.step_shutdown _ hbefore hstep).2.symm.trans hwait
    · cases (hw (hkeeps.closed.symm.trans hclosed)).symm.trans hp

theorem released_run {managed : ManagedDatastore} {as : List Action}
    (hrun : run (WakeWorld.step cfg pollInterval) (.init managed) as = some w) : Released w :=
  run_invariant_of_step (fun _ _ _ hw h => hw.step h) (fun _ => rfl) hrun

/-- What one step does to the poller of a closed coordinator. -/
theorem shutdown_step (hclosed : w.world.env.shared.closed = true)
    (h : step cfg pollInterval w a = some w') :
    w'.world.poller.shutdownRank + (if a.pollerWorks then 1 else 0) ≤ w.world.poller.shutdownRank := by
  obtain ⟨world', hworld⟩ : ∃ world', w'.world = world' := ⟨_, rfl⟩
  have hw := step_world h
  rw [hworld] at hw ⊢
  cases World.step_cases hw with
  | poller hstep =>
    refine le_trans (Nat.add_le_add_left ?_ _) (PollPc.step_shutdown 0 hclosed hstep).1
    rename_i choice _ _
    cases hregisters : choice.registers <;> simp [Action.pollerWorks, hregisters]
  | _ => exact le_rfl

theorem shutdown_run {as : List Action} (hclosed : w.world.env.shared.closed = true)
    (hrun : run (WakeWorld.step cfg pollInterval) w as = some w') :
    as.countP Action.pollerWorks + w'.world.poller.shutdownRank ≤ w.world.poller.shutdownRank := by
  induction as generalizing w with
  | nil => cases hrun; simp
  | cons a as ih =>
    obtain ⟨w₁, h₁, hrun⟩ := run_cons.mp hrun
    have hrest := ih (closed_step (step_world h₁) hclosed) hrun
    have hstep := shutdown_step hclosed h₁
    rw [List.countP_cons]
    omega

/-- The poller alone brings itself to its end. -/
theorem poller_ends (pollInterval : ℚ) (b : Backend) (hw : Released w)
    (hclosed : w.world.env.shared.closed = true) (hidle : w.world.poller ≠ .idle) :
    ∃ w', MotuProxy.LeadsTo (WakeWorld.step cfg pollInterval)
      (fun w a => b.Serves w a ∧ ∃ choice, a = .poller choice) w w' ∧ w'.world.poller = .stopped := by
  have hprogress : ∃ w', MotuProxy.LeadsTo (WakeWorld.step cfg pollInterval)
      (fun w a => b.Serves w a ∧ ∃ choice, a = .poller choice) w w' ∧
      (Released w' ∧ w'.world.env.shared.closed = true ∧ w'.world.poller ≠ .idle) ∧
      w'.world.poller = .stopped := by
    refine LeadsTo.of_measure (fun w => w.world.poller.shutdownRank) ?_ ⟨hw, hclosed, hidle⟩
    rintro w₁ ⟨hw₁, hclosed₁, hidle₁⟩ hstopped
    obtain ⟨choice, e', pc', hchoice, hstep, hidle', hrank⟩ :=
      PollPc.shutdown_advance b w₁.world cfg hclosed₁ hidle₁ hstopped
    obtain ⟨w₂, h₂⟩ : ∃ w₂, WakeWorld.step cfg pollInterval w₁ (.poller choice) = some w₂ := by
      simp [WakeWorld.step, Coordinator.step, hw₁ hclosed₁, Waiting.ready, hstep]
    obtain ⟨-, hstep₂, -⟩ := step_poller h₂
    cases hstep.symm.trans hstep₂
    exact ⟨w₂, .cons h₂ ⟨hchoice, choice, rfl⟩ .refl,
      ⟨hw₁.step h₂, closed_step (step_world h₂) hclosed₁, hidle'⟩, hrank⟩
  obtain ⟨w', hlead, -, hend⟩ := hprogress
  exact ⟨w', hlead, hend⟩

end WakeWorld

/-- `close` can join the poller: once the coordinator is closed, the poller is never blocked again,
it makes at most six steps beside the registrations of its read, and by steps of its own it comes to
its end, whatever the backend answers. -/
theorem poller_stops {cfg : Config} {pollInterval : ℚ} {managed : ManagedDatastore}
    {as : List Action} {w : WakeWorld}
    (hrun : run (WakeWorld.step cfg pollInterval) (.init managed) as = some w)
    (hclosed : w.world.env.shared.closed = true) :
    (∀ bs w', run (WakeWorld.step cfg pollInterval) w bs = some w' →
      w'.poller = .running ∧ bs.countP Action.pollerWorks ≤ 6) ∧
    (w.world.poller ≠ .idle → ∀ b : Backend, ∃ bs w',
      run (WakeWorld.step cfg pollInterval) w bs = some w' ∧
      Along (WakeWorld.step cfg pollInterval)
        (fun w a => b.Serves w a ∧ ∃ choice, a = .poller choice) w bs ∧
      w'.world.poller = .stopped) := by
  have hreleased := WakeWorld.released_run hrun
  refine ⟨fun bs w' hrun' => ⟨?_, ?_⟩, fun hidle b => ?_⟩
  · have hstays : w'.world.env.shared.closed = true := run_invariant_of_step
      (I := fun w => w.world.env.shared.closed = true)
      (fun _ _ _ hclosed h => closed_step (WakeWorld.step_world h) hclosed) hclosed hrun'
    exact run_invariant_of_step (I := WakeWorld.Released) (fun _ _ _ hw h => hw.step h) hreleased hrun'
      hstays
  · have hcount := WakeWorld.shutdown_run hclosed hrun'
    have := w.world.poller.shutdownRank_le
    omega
  · obtain ⟨w', ⟨bs, hrun', halong⟩, hend⟩ :=
      WakeWorld.poller_ends pollInterval b hreleased hclosed hidle
    exact ⟨bs, w', hrun', halong, hend⟩

/-- The coordinator is closed while the poller holds a read. -/
def closingRun : List Action :=
  [.poller .go, .poller .go, .poller .go, .poller (.opener none 0), .close]

theorem poller_stops_closing :
    ∃ w, run (WakeWorld.step {} (1 / 20)) (.init (.init 0 0 0)) closingRun = some w ∧
      ∃ bs w', run (WakeWorld.step {} (1 / 20)) w bs = some w' ∧ w'.world.poller = .stopped ∧
        bs.countP Action.pollerWorks ≤ 6 := by
  have hfacts : (run (WakeWorld.step {} (1 / 20)) (.init (.init 0 0 0)) closingRun).map
      (fun w => (w.world.env.shared.closed, decide (w.world.poller = .idle))) =
      some (true, false) := by decide +kernel
  obtain ⟨w, hw, hfacts⟩ := Option.map_eq_some_iff.mp hfacts
  obtain ⟨hclosed, hidle⟩ := Prod.mk.inj hfacts
  obtain ⟨hbound, hends⟩ := poller_stops hw hclosed
  obtain ⟨bs, w', hrun, -, hend⟩ := hends (of_decide_eq_false hidle) .silent
  exact ⟨w, hw, bs, w', hrun, hend, (hbound bs w' hrun).2⟩

end Coordinator

end MotuProxy
