import MotuProxy.Model.ReadStack
import MotuProxy.Verify.Wakeups

/-! # No thread is stuck

A thread that owns the I/O is never blocked, and every step that it takes brings it nearer to
`_release_io`, whatever the datastore does (`rank`). So the I/O can always be freed, and with it
every thread that waits for it can go on; a waiter of a long poll goes on by its deadline. The
backend is any function that answers the opener and the operations.
-/

namespace MotuProxy

open Py Protocol Responses

namespace Coordinator

open Datastore (ManagedDatastore)
open DatastoreCoordinator

/-! ## Ranks -/

/-- A bound on the steps of an owner up to the release. -/
def IoPc.rank : IoPc → Nat
  | .owning => 9
  | .inCall => 8
  | .responded _ => 7
  | .payload _ => 6
  | .refreshing _ => 5
  | .refreshResponded .. => 4
  | .refreshed .. => 3
  | .releasing _ => 2
  | _ => 0

def PollPc.rank : PollPc → Nat
  | .owning _ => 6
  | .inCall _ => 5
  | .responded .. => 4
  | .payload .. => 3
  | .releasing _ => 2
  | _ => 0

/-- The states of the refresh after a write. -/
def IoPc.afterWrite : IoPc → Bool
  | .refreshing _ | .refreshResponded .. | .refreshed .. => true
  | _ => false

/-- Only a write refreshes. -/
def IoCall.Sound (c : IoCall) : Prop := c.pc.afterWrite = true → ∃ a, c.job = .post a

def Client.Sound (c : Client) : Prop := ∀ call, c.call? = some call → call.Sound

theorem IoStep.sound {e e' : Env} {c c' : IoCall} (h : IoStep cfg e c choice e' c') (hc : c.Sound) :
    c'.Sound := by
  cases h with
  | refreshBegin hpc hjob => exact fun _ => ⟨_, hjob⟩
  | refreshRespond hpc | refreshPayload hpc =>
    intro _
    exact hc (by rw [hpc]; rfl)
  | _ => intro hafter; cases hafter

theorem Client.sound_step {e e' : Env} {c c' : Client} (h : c.step cfg e choice = some (e', c'))
    (hc : c.Sound) : c'.Sound := by
  intro call' hcall'
  rcases Client.step_cases h with ⟨call, call₁, hcall, hcall₁, hstep⟩ | ⟨-, -, hfresh⟩
  · cases hcall'.symm.trans hcall₁
    exact hstep.sound (hc call hcall)
  · intro hafter
    rw [(hfresh call' hcall').pc] at hafter
    cases hafter

theorem get_sound : (get cfg now path client ifNoneMatch queryFields).Sound := by
  intro call hcall hafter
  unfold get at hcall
  split at hcall
  · split at hcall <;> cases hcall
    cases hafter
  · cases hcall
    cases hafter

theorem sound_step {w w' : World} (hw : ∀ c ∈ w.clients, c.Sound) (h : step cfg w a = some w') :
    ∀ c ∈ w'.clients, c.Sound := by
  intro c' hc'
  rcases step_client h hc' with hc | ⟨_, _, _, _, -, rfl⟩ | ⟨_, _, _, -, rfl⟩ |
    ⟨i, choice, c, -, hi, hstep⟩
  · exact hw c' hc
  · exact get_sound
  · intro call hcall hafter
    cases hcall
    cases hafter
  · exact Client.sound_step hstep (hw c (List.mem_of_getElem? hi))

/-! ## The backend -/

/-- What the opener and the operations of the datastore come to. -/
structure Backend where
  opener : World → Option Exn
  answer : World → Choice
  answers : ∀ w, (∃ response, answer w = .respond response) ∨
    ∃ exc cleared exit, answer w = .raise exc cleared exit

/-- The opener succeeds, and every operation times out. -/
def Backend.silent : Backend where
  opener _ := none
  answer _ := .raise { kind := .datastoreTimeout, message := [] } false none
  answers _ := .inr ⟨_, _, _, rfl⟩

/-- The outcome of a step is that of the backend. -/
def Backend.Chooses (b : Backend) (w : World) (choice : Choice) : Prop :=
  choice = .go ∨ choice = .opener (b.opener w) w.env.now ∨ choice = b.answer w

/-- A step of a thread that the backend serves, or the passing of time. -/
def Backend.Serves (b : Backend) (w : WakeWorld) : Action → Prop
  | .client _ choice | .poller choice => b.Chooses w.world choice
  | .tick _ => True
  | _ => False

section
variable (b : Backend) (w : World)

theorem Backend.begin (request : Request) : ∃ choice r e', b.Chooses w choice ∧
    w.env.begin request choice = some (r, e') ∧ e'.shared = w.env.shared := by
  cases hens : w.env.managed.ensureSession w.env.now w.env.now (b.opener w) with
  | mk r managed =>
    cases r with
    | error exc =>
      refine ⟨_, .error exc, { w.env with managed }, .inr (.inl rfl), ?_, rfl⟩
      simp [Env.begin, hens]
    | ok u =>
      refine ⟨_, .ok (), { w.env with managed, log := w.env.log ++
        [.sent managed.sessionGeneration request] }, .inr (.inl rfl), ?_, rfl⟩
      simp [Env.begin, hens]

theorem Backend.finish (request : Request) : ∃ r e', b.Chooses w (b.answer w) ∧
    w.env.finish request (b.answer w) = some (r, e') ∧ e'.shared = w.env.shared := by
  rcases b.answers w with ⟨response, h⟩ | ⟨exc, cleared, exit, h⟩
  · refine ⟨.ok response, { w.env with
      managed := w.env.managed.callReturned response
      log := w.env.log ++ [.received w.env.managed.sessionGeneration request response] },
      .inr (.inr rfl), ?_, rfl⟩
    rw [h]
    rfl
  · cases hraised : w.env.managed.callRaised w.env.now exc cleared exit with
    | mk exc' managed =>
      refine ⟨.error exc', { w.env with managed }, .inr (.inr rfl), ?_, rfl⟩
      rw [h]
      simp [Env.finish, hraised]

/-- The next step of a foreground operation that owns the I/O. -/
theorem IoCall.advance (cfg : Config) {c : IoCall} (hs : c.Sound) (howns : c.pc.owns = true) :
    ∃ choice e' c', b.Chooses w choice ∧ c.step cfg w.env choice = some (e', c') ∧
      (c'.pc.owns = true ∧ c'.pc.rank < c.pc.rank ∨
        (∃ r, c'.pc = .done r) ∧ e'.shared.ioBusy = false) := by
  unfold IoCall.step
  cases hpc : c.pc with
  | start | acquiring | done =>
    rw [hpc] at howns
    cases howns
  | owning =>
    obtain ⟨choice, r, e', hchoice, hb, -⟩ := b.begin w c.job.request
    cases r with
    | ok u =>
      exact ⟨choice, e', { c with pc := .inCall }, hchoice, by simp [hb],
        .inl ⟨rfl, by simp [IoPc.rank]⟩⟩
    | error exc =>
      exact ⟨choice, e', { c with pc := .releasing (.error exc) }, hchoice, by simp [hb],
        .inl ⟨rfl, by simp [IoPc.rank]⟩⟩
  | inCall =>
    obtain ⟨r, e', hchoice, hf, -⟩ := b.finish w c.job.request
    cases r with
    | ok response =>
      exact ⟨_, e', { c with pc := .responded response, received := some response }, hchoice,
        by simp [hf], .inl ⟨rfl, by simp [IoPc.rank]⟩⟩
    | error exc =>
      exact ⟨_, e', { c with pc := .releasing (.error exc) }, hchoice, by simp [hf],
        .inl ⟨rfl, by simp [IoPc.rank]⟩⟩
  | responded response =>
    exact ⟨.go, _, { c with pc := .payload _ }, .inl rfl, rfl, .inl ⟨rfl, by simp [IoPc.rank]⟩⟩
  | payload p =>
    cases hjob : c.job with
    | read a =>
      exact ⟨.go, _, { c with job := .read a, pc := .releasing (.ok p) }, .inl rfl, rfl,
        .inl ⟨rfl, by simp [IoPc.rank]⟩⟩
    | post a =>
      obtain ⟨choice, r, e', hchoice, hb, -⟩ := b.begin w refreshArgs.request
      cases r with
      | ok u =>
        exact ⟨choice, e', { c with job := .post a, pc := .refreshing p }, hchoice, by simp [hb],
          .inl ⟨rfl, by simp [IoPc.rank]⟩⟩
      | error exc =>
        exact ⟨choice, e', { c with job := .post a, pc := .releasing (.ok p) }, hchoice, by simp [hb],
          .inl ⟨rfl, by simp [IoPc.rank]⟩⟩
  | refreshing p =>
    obtain ⟨r, e', hchoice, hf, -⟩ := b.finish w refreshArgs.request
    cases r with
    | ok response =>
      exact ⟨_, e', { c with pc := .refreshResponded p response }, hchoice, by simp [hf],
        .inl ⟨rfl, by simp [IoPc.rank]⟩⟩
    | error exc =>
      exact ⟨_, e', { c with pc := .releasing (.ok p) }, hchoice, by simp [hf],
        .inl ⟨rfl, by simp [IoPc.rank]⟩⟩
  | refreshResponded p response =>
    exact ⟨.go, _, { c with pc := .refreshed p _ }, .inl rfl, rfl, .inl ⟨rfl, by simp [IoPc.rank]⟩⟩
  | refreshed p refresh =>
    obtain ⟨a, hjob⟩ := hs (by rw [hpc]; rfl)
    simp only [hjob]
    exact ⟨.go, _, { c with job := .post a, pc := .releasing (.ok p) }, .inl rfl, rfl,
      .inl ⟨rfl, by simp [IoPc.rank]⟩⟩
  | releasing result => exact ⟨.go, _, { c with pc := .done result }, .inl rfl, rfl, .inr ⟨⟨_, rfl⟩, rfl⟩⟩

/-- The poller after its operation. -/
def PollPc.afterOperation (c : Capture) : Except Exn Bytes → PollPc
  | .ok response => .responded c response
  | .error exc => .releasing (some exc)

theorem PollPc.step_finish {e e' : Env} {c : Capture} {r : Except Exn Bytes}
    (hchoice : ∀ read, choice ≠ .readStarted read)
    (h : e.finish (c.request cfg) choice = some (r, e')) :
    (PollPc.inCall c).step cfg e choice = some (e', .afterOperation c r) := by
  cases choice with
  | readStarted read => exact absurd rfl (hchoice read)
  | _ => cases r <;> simp [PollPc.step, h, PollPc.afterOperation]

/-- The next step of a poller that owns the I/O. -/
theorem PollPc.advance (cfg : Config) {pc : PollPc} (howns : pc.owns = true) :
    ∃ choice e' pc', b.Chooses w choice ∧ pc.step cfg w.env choice = some (e', pc') ∧
      pc'.rank < pc.rank ∧ (pc'.owns = true ∨ e'.shared.ioBusy = false) := by
  cases pc with
  | idle | top | acquiring | handled | stopped => cases howns
  | owning c =>
    obtain ⟨choice, r, e', hchoice, hb, -⟩ := b.begin w (c.request cfg)
    cases r with
    | ok u =>
      exact ⟨choice, e', .inCall c, hchoice, by simp [PollPc.step, hb], by simp [PollPc.rank], .inl rfl⟩
    | error exc =>
      exact ⟨choice, e', .releasing (some exc), hchoice, by simp [PollPc.step, hb],
        by simp [PollPc.rank], .inl rfl⟩
  | inCall c =>
    obtain ⟨r, e', hchoice, hf, -⟩ := b.finish w (c.request cfg)
    refine ⟨b.answer w, e', .afterOperation c r, hchoice, step_finish (fun read hread => ?_) hf, ?_⟩
    · rcases b.answers w with ⟨response, h⟩ | ⟨exc, cleared, exit, h⟩ <;> cases h.symm.trans hread
    · cases r <;> exact ⟨by simp [PollPc.rank, PollPc.afterOperation], .inl rfl⟩
  | responded c response =>
    exact ⟨.go, _, .payload c response _, .inl rfl, rfl, by simp [PollPc.rank], .inl rfl⟩
  | payload c response p =>
    exact ⟨.go, _, .releasing none, .inl rfl, rfl, by simp [PollPc.rank], .inl rfl⟩
  | releasing exc => exact ⟨.go, _, .handled exc, .inl rfl, rfl, by simp [PollPc.rank], .inr rfl⟩

end

/-! ## Steps of the system -/

/-- The client thread with another foreground operation in the place of its own. -/
def Client.place (call : IoCall) : Client → Client
  | .io _ => .io call
  | .wait w => match w.pc with
    | .refresh _ => .wait { w with pc := .refresh call }
    | .read _ => .wait { w with pc := .read call }
    | _ => .wait w

theorem Client.place_call {c : Client} {call call' : IoCall} (h : c.call? = some call) :
    (c.place call').call? = some call' ∧ ∀ call'', (c.place call').place call'' = c.place call'' := by
  cases c with
  | io call => exact ⟨rfl, fun _ => rfl⟩
  | wait w =>
    cases hpc : w.pc with
    | refresh call | read call => simp [Client.place, Client.call?, hpc]
    | _ => simp [Client.call?, hpc] at h

theorem Client.place_self {c : Client} {call : IoCall} (h : c.call? = some call) : c.place call = c := by
  cases c with
  | io call => cases h; rfl
  | wait w =>
    cases hpc : w.pc with
    | refresh call | read call =>
      simp only [Client.call?, hpc, Option.some.injEq] at h
      subst h
      simp only [Client.place, hpc]
      rw [← hpc]
    | _ => simp [Client.call?, hpc] at h

/-- A client thread steps with its foreground operation. -/
theorem Client.step_place {e e' : Env} {c : Client} {call call' : IoCall} (h : c.call? = some call)
    (hpc : ∀ r, call.pc ≠ .done r) (hstep : call.step cfg e choice = some (e', call')) :
    c.step cfg e choice = some (e', c.place call') := by
  cases c with
  | io call =>
    cases h
    simp [Client.step, hstep, Client.place]
  | wait w =>
    cases hw : w.pc with
    | read call =>
      simp only [Client.call?, hw, Option.some.injEq] at h
      subst h
      simp [Client.step, WaitCall.step, hw, hstep, Client.place]
    | refresh call =>
      simp only [Client.call?, hw, Option.some.injEq] at h
      subst h
      have hwait : w.step cfg e choice = some (e', { w with pc := .refresh call' }) := by
        unfold WaitCall.step
        simp [hw, hstep]
      simp [Client.step, hwait, Client.place, hw]
    | _ => simp [Client.call?, hw] at h

namespace WakeWorld

variable {cfg : Config} {pollInterval : ℚ} {w w' : WakeWorld} {a : Action} {b : Backend} {i j : Nat}
  {c c' : Client}

/-- The invariants that keep the threads going. -/
structure Live (cfg : Config) (w : WakeWorld) : Prop where
  awake : Awake cfg w
  monitor : Monitor w.world
  sound : ∀ c ∈ w.world.clients, c.Sound

theorem Live.step (hw : Live cfg w) (h : step cfg pollInterval w a = some w') : Live cfg w' :=
  ⟨hw.awake.step h, hw.monitor.step (step_world h), sound_step hw.sound (step_world h)⟩

theorem live_run {managed : ManagedDatastore} {as : List Action}
    (hrun : run (WakeWorld.step cfg pollInterval) (.init managed) as = some w) : Live cfg w :=
  run_invariant_of_step (fun _ _ _ hw h => hw.step h)
    ⟨.init managed, .init managed, fun c hc => by cases hc⟩ hrun

/-- A client thread that waits for nothing may go on. -/
theorem client_goes (pollInterval : ℚ) (hw : Awake cfg w) (hi : w.world.clients[i]? = some c)
    (hfree : ∀ expires, c.Blocked cfg w.world.env.shared expires → ∃ t, expires = some t ∧ t ≤ w.world.env.now)
    (hstep : c.step cfg w.world.env choice = some (e', c')) :
    ∃ w', WakeWorld.step cfg pollInterval w (.client i choice) = some w' ∧
      w'.world = { w.world with env := e', clients := w.world.clients.set i c' } := by
  have hlt := (List.getElem?_eq_some_iff.mp hi).1
  obtain ⟨waiting, hwaiting⟩ : ∃ waiting, w.clients[i]? = some waiting :=
    ⟨_, List.getElem?_eq_getElem (hw.length ▸ hlt)⟩
  have hready : waiting.ready w.world.env.now = true := by
    cases waiting with
    | running => rfl
    | blocked expires =>
      obtain ⟨t, rfl, ht⟩ := hfree expires (hw.client i c expires hi hwaiting)
      simpa [Waiting.ready] using ht
  have hworld : Coordinator.step cfg w.world (.client i choice) =
      some { w.world with env := e', clients := w.world.clients.set i c' } := by
    simp [Coordinator.step, hi, hstep]
  obtain ⟨w', hw'⟩ : ∃ w', WakeWorld.step cfg pollInterval w (.client i choice) = some w' := by
    simp [WakeWorld.step, hi, hwaiting, hworld, hready, List.getElem?_set_self hlt]
  exact ⟨w', hw', Option.some.inj ((step_world hw').symm.trans hworld)⟩

/-- The poller may go on unless it waits. -/
theorem poller_goes (pollInterval : ℚ) (hw : Awake cfg w) (howns : w.world.poller.owns = true)
    (hstep : w.world.poller.step cfg w.world.env choice = some (e', pc')) :
    ∃ w', WakeWorld.step cfg pollInterval w (.poller choice) = some w' ∧
      w'.world = { w.world with env := e', poller := pc' } := by
  have hready : w.poller.ready w.world.env.now = true := by
    cases hp : w.poller with
    | running => rfl
    | blocked expires =>
      rcases hw.poller expires hp with ⟨hpc, -⟩ | ⟨⟨c, hpc⟩, -⟩ <;> rw [hpc] at howns <;> cases howns
  have hworld : Coordinator.step cfg w.world (.poller choice) =
      some { w.world with env := e', poller := pc' } := by
    simp [Coordinator.step, hstep]
  obtain ⟨w', hw'⟩ : ∃ w', WakeWorld.step cfg pollInterval w (.poller choice) = some w' := by
    simp [WakeWorld.step, hworld, hready]
  exact ⟨w', hw', Option.some.inj ((step_world hw').symm.trans hworld)⟩

/-! ## The I/O can be freed -/

/-- The backend serves a run from `w` to `w'`. -/
abbrev LeadsTo (cfg : Config) (pollInterval : ℚ) (b : Backend) : WakeWorld → WakeWorld → Prop :=
  MotuProxy.LeadsTo (WakeWorld.step cfg pollInterval) b.Serves

theorem Live.leadsTo (hw : Live cfg w) (h : LeadsTo cfg pollInterval b w w') : Live cfg w' :=
  h.invariant (fun _ _ _ hw _ h => hw.step h) hw

/-- A foreground operation that owns the I/O can go on to its end, and the other threads stay where
they are. -/
theorem owner_finishes (hw : Live cfg w) (hi : w.world.clients[i]? = some c) (howns : c.owns = true) :
    ∃ w' call r, LeadsTo cfg pollInterval b w w' ∧ w'.world.env.shared.ioBusy = false ∧
      w'.world.clients = w.world.clients.set i (c.place call) ∧ call.pc = .done r := by
  obtain ⟨call, hcall, hpc⟩ : ∃ call, c.call? = some call ∧ call.pc.owns = true := by
    simpa [Client.owns, Option.any_eq_true] using howns
  induction hn : call.pc.rank using Nat.strong_induction_on generalizing w c call with
  | _ n ih =>
    subst hn
    obtain ⟨choice, e', call', hchoice, hstep, hnext⟩ := IoCall.advance b w.world cfg
      (hw.sound c (List.mem_of_getElem? hi) call hcall) hpc
    have hdone (r : Except Exn DatastorePayload) : call.pc ≠ .done r := by
      intro h
      rw [h] at hpc
      cases hpc
    obtain ⟨w₁, h₁, hworld⟩ := client_goes pollInterval hw.awake hi
      (fun expires hblocked => by
        cases hblocked with
        | acquiring hcall' hpc' =>
          cases hcall.symm.trans hcall'
          rw [hpc'] at hpc
          cases hpc
        | loop hloop => simp [Client.call?, hloop] at hcall)
      (Client.step_place hcall hdone hstep)
    have hlead : LeadsTo cfg pollInterval b w w₁ := .cons h₁ hchoice .refl
    have hlt := (List.getElem?_eq_some_iff.mp hi).1
    rcases hnext with ⟨howns', hrank⟩ | ⟨⟨r, hr⟩, hfree⟩
    · have hi₁ : w₁.world.clients[i]? = some (c.place call') := by
        rw [hworld]
        exact List.getElem?_set_self hlt
      obtain ⟨w', call'', r, hlead', hfree, hclients, hr⟩ := ih _ hrank (hw.step h₁) hi₁
        (by simpa [Client.owns, (Client.place_call hcall).1] using howns') call'
        (Client.place_call hcall).1 howns' rfl
      refine ⟨w', call'', r, hlead.trans hlead', hfree, ?_, hr⟩
      rw [hclients, hworld, List.set_set, (Client.place_call hcall).2]
    · exact ⟨w₁, call', r, hlead, by rw [hworld]; exact hfree, by rw [hworld], hr⟩

theorem poller_finishes (hw : Live cfg w) (howns : w.world.poller.owns = true) :
    ∃ w', LeadsTo cfg pollInterval b w w' ∧ w'.world.env.shared.ioBusy = false ∧
      w'.world.clients = w.world.clients := by
  have hprogress : ∃ w', LeadsTo cfg pollInterval b w w' ∧
      (Live cfg w' ∧ w'.world.clients = w.world.clients ∧
        (w'.world.poller.owns = true ∨ w'.world.env.shared.ioBusy = false)) ∧
      w'.world.env.shared.ioBusy = false := by
    refine LeadsTo.of_measure (fun w => w.world.poller.rank) ?_ ⟨hw, rfl, .inl howns⟩
    rintro w₁ ⟨hw₁, hclients, hnext⟩ hbusy
    have howns₁ := hnext.resolve_right hbusy
    obtain ⟨choice, e', pc', hchoice, hstep, hrank, hnext'⟩ := PollPc.advance b w₁.world cfg howns₁
    obtain ⟨w₂, h₂, hworld⟩ := poller_goes pollInterval hw₁.awake howns₁ hstep
    refine ⟨w₂, .cons h₂ hchoice .refl, ⟨hw₁.step h₂, ?_, ?_⟩, ?_⟩ <;> rw [hworld]
    · exact hclients
    · exact hnext'
    · exact hrank
  obtain ⟨w', hlead, ⟨-, hclients, -⟩, hfree⟩ := hprogress
  exact ⟨w', hlead, hfree, hclients⟩

/-- The I/O can be freed by its owner alone. -/
theorem io_freed (pollInterval : ℚ) (b : Backend) (hw : Live cfg w) : ∃ w', LeadsTo cfg pollInterval b w w' ∧
    w'.world.env.shared.ioBusy = false ∧ ∀ (i : Nat) c, w.world.clients[i]? = some c →
      c.owns = false → w'.world.clients[i]? = some c := by
  rcases hw.monitor.owners with ⟨hnone, -, -⟩ | ⟨-, hone, -⟩ | ⟨-, -, hpoller⟩
  · refine ⟨w, .refl, ?_, fun i c hi _ => hi⟩
    rw [hw.monitor.busy, hnone]
    rfl
  · obtain ⟨c, hc, howns⟩ := List.countP_pos_iff.mp (hone ▸ Nat.one_pos)
    obtain ⟨j, hj⟩ := List.getElem?_of_mem hc
    obtain ⟨w', call, r, hlead, hfree, hclients, -⟩ := owner_finishes hw hj howns
    refine ⟨w', hlead, hfree, fun i c' hi hidle => ?_⟩
    have hne : j ≠ i := by
      rintro rfl
      cases hi.symm.trans hj
      cases hidle.symm.trans howns
    rw [hclients, List.getElem?_set_ne hne]
    exact hi
  · obtain ⟨w', hlead, hfree, hclients⟩ := poller_finishes hw hpoller
    exact ⟨w', hlead, hfree, fun i c hi _ => by rw [hclients]; exact hi⟩

/-! ## Every call can end -/

/-- A foreground operation can be brought to its end. -/
theorem call_finishes (hw : Live cfg w) (hi : w.world.clients[i]? = some c)
    (hcall : c.call? = some call) : ∃ w' call' r, LeadsTo cfg pollInterval b w w' ∧
      w'.world.clients[i]? = some (c.place call') ∧ call'.pc = .done r := by
  have howner {w : WakeWorld} {c : Client} (hw : Live cfg w) (hi : w.world.clients[i]? = some c)
      (howns : c.owns = true) : ∃ w' call' r, LeadsTo cfg pollInterval b w w' ∧
        w'.world.clients[i]? = some (c.place call') ∧ call'.pc = .done r := by
    obtain ⟨w', call', r, hlead, -, hclients, hr⟩ := owner_finishes hw hi howns
    refine ⟨w', call', r, hlead, ?_, hr⟩
    rw [hclients]
    exact List.getElem?_set_self (List.getElem?_eq_some_iff.mp hi).1
  by_cases howns : call.pc.owns = true
  · exact howner hw hi (by simpa [Client.owns, hcall] using howns)
  by_cases hdone : ∃ r, call.pc = .done r
  · obtain ⟨r, hr⟩ := hdone
    exact ⟨w, call, r, .refl, by rw [Client.place_self hcall]; exact hi, hr⟩
  -- the operation is in `_acquire_foreground_io`, and gets the I/O once that is free
  obtain ⟨w₁, hlead₁, hfree, hkept⟩ := io_freed pollInterval b hw
  have hi₁ := hkept i c hi (by simpa [Client.owns, hcall] using howns)
  obtain ⟨s, deadline, hentering, hbusy⟩ : ∃ s deadline,
      call.pc.entering w₁.world.env.shared = some (s, deadline) ∧ s.ioBusy = false := by
    cases hpc : call.pc with
    | start | acquiring => exact ⟨_, _, rfl, hfree⟩
    | done r => exact absurd ⟨r, hpc⟩ hdone
    | _ =>
      rw [hpc] at howns
      exact absurd rfl howns
  have hacq : s.acquireForegroundIo cfg w₁.world.env.now deadline = (.acquired, { s with
      ioBusy := true
      ioOwner := some .foreground
      foregroundWaiters := s.foregroundWaiters - 1 }) := by
    unfold acquireForegroundIo
    rw [hbusy]
    rfl
  have hstep : call.step cfg w₁.world.env .go = some ({ w₁.world.env with shared := { s with
      ioBusy := true
      ioOwner := some .foreground
      foregroundWaiters := s.foregroundWaiters - 1 } }, { call with pc := .owning }) := by
    rw [IoCall.step_of_entering hentering]
    unfold IoCall.acquire
    simp only [hacq]
  obtain ⟨w₂, h₂, hworld⟩ := client_goes pollInterval (hw.leadsTo hlead₁).awake hi₁
    (fun expires hblocked => by
      cases hblocked with
      | acquiring _ _ hbusy' => cases hfree.symm.trans hbusy'
      | loop hloop => simp [Client.call?, hloop] at hcall)
    (Client.step_place hcall (fun r hr => hdone ⟨r, hr⟩) hstep)
  have hlead₂ : LeadsTo cfg pollInterval b w w₂ := hlead₁.trans (.cons h₂ (.inl rfl) .refl)
  have hi₂ : w₂.world.clients[i]? = some (c.place { call with pc := .owning }) := by
    rw [hworld]
    exact List.getElem?_set_self (List.getElem?_eq_some_iff.mp hi₁).1
  obtain ⟨w', call', r, hlead, hi', hr⟩ := howner (hw.leadsTo hlead₂) hi₂
    (by simp [Client.owns, (Client.place_call hcall).1, IoPc.owns])
  refine ⟨w', call', r, hlead₂.trans hlead, ?_, hr⟩
  rw [hi', (Client.place_call hcall).2]

/-- A waiter at the top of its loop stops waiting when its time is over. -/
theorem loop_ends (pollInterval : ℚ) (b : Backend) {call : WaitCall} (hw : Live cfg w) (hi : w.world.clients[i]? = some (.wait call))
    (hpc : call.pc = .loop) : ∃ w' pc, LeadsTo cfg pollInterval b w w' ∧
      w'.world.clients[i]? = some (.wait { call with pc }) ∧
      ((∃ p, pc = .done p) ∨ ∃ job, pc = .read { job }) := by
  -- first the deadline passes
  obtain ⟨w₁, h₁, hworld₁⟩ : ∃ w₁, WakeWorld.step cfg pollInterval w
      (.tick (max w.world.env.now call.deadline)) = some w₁ ∧ w₁.world =
        { w.world with env := { w.world.env with now := max w.world.env.now call.deadline } } := by
    simp [WakeWorld.step, Coordinator.step]
  have hlive₁ := hw.step h₁
  have hi₁ : w₁.world.clients[i]? = some (.wait call) := by
    rw [hworld₁]
    exact hi
  have hlate : call.deadline ≤ w₁.world.env.now := by
    rw [hworld₁]
    exact le_max_right _ _
  have hlead₁ : LeadsTo cfg pollInterval b w w₁ := .cons h₁ trivial .refl
  have hgoes (e' : Env) (c' : WaitCall)
      (hstep : call.step cfg w₁.world.env .go = some (e', c')) : ∃ w', LeadsTo cfg pollInterval b w w' ∧
        w'.world.clients[i]? = some (.wait c') := by
    obtain ⟨w₂, h₂, hworld₂⟩ := client_goes pollInterval hlive₁.awake hi₁
      (fun expires hblocked => by
        cases hblocked with
        | acquiring hcall => simp [Client.call?, hpc] at hcall
        | loop _ _ _ hle => exact ⟨_, rfl, hle.trans hlate⟩)
      (show Client.step cfg w₁.world.env .go (.wait call) = some (e', .wait c') by
        simp [Client.step, hstep])
    refine ⟨w₂, hlead₁.trans (.cons h₂ (.inl rfl) .refl), ?_⟩
    rw [hworld₂]
    exact List.getElem?_set_self (List.getElem?_eq_some_iff.mp hi₁).1
  -- a pass at that time answers or reads
  have hout : (∃ p s, w₁.world.env.shared.waitForChange cfg w₁.world.env.now call.args call.deadline =
      (.answer p, s)) ∨ ∃ s, w₁.world.env.shared.waitForChange cfg w₁.world.env.now call.args
        call.deadline = (.read, s) := by
    unfold waitForChange
    simp only
    split
    · split
      · exact .inl ⟨_, _, rfl⟩
      · exact .inr ⟨_, rfl⟩
    · split
      · exact .inr ⟨_, rfl⟩
      · rw [if_pos (.inl (by linarith))]
        exact .inl ⟨_, _, rfl⟩
  rcases hout with ⟨p, s, hout⟩ | ⟨s, hout⟩
  · obtain ⟨w', hlead, hi'⟩ := hgoes { w₁.world.env with shared := s }
      { call with pc := .done p } (by simp [WaitCall.step, hpc, hout])
    exact ⟨w', .done p, hlead, hi', .inl ⟨p, rfl⟩⟩
  · obtain ⟨w', hlead, hi'⟩ := hgoes { w₁.world.env with shared := s }
      { call with pc := .read { job := .read {
        path := call.args.path, client := call.args.client, queryFields := call.args.queryFields } } }
      (by simp [WaitCall.step, hpc, hout])
    exact ⟨w', _, hlead, hi', .inr ⟨_, rfl⟩⟩

/-- What a waiter does in one step, if it is not blocked. -/
theorem waiter_goes (pollInterval : ℚ) (b : Backend) {call call' : WaitCall} (hw : Live cfg w)
    (hi : w.world.clients[i]? = some (.wait call)) (hloop : call.pc ≠ .loop)
    (hidle : ∀ c, (Client.wait call).call? = some c → ∃ r, c.pc = .done r)
    (hstep : call.step cfg w.world.env .go = some (e', call')) : ∃ w', LeadsTo cfg pollInterval b w w' ∧
      w'.world.clients[i]? = some (.wait call') := by
  obtain ⟨w₁, h₁, hworld⟩ := client_goes pollInterval hw.awake hi
    (fun expires hblocked => by
      cases hblocked with
      | acquiring hcall hpc =>
        obtain ⟨r, hr⟩ := hidle _ hcall
        cases hr.symm.trans hpc
      | loop hpc => exact absurd hpc hloop)
    (show Client.step cfg w.world.env .go (.wait call) = some (e', .wait call') by
      simp [Client.step, hstep])
  refine ⟨w₁, .cons h₁ (.inl rfl) .refl, ?_⟩
  rw [hworld]
  exact List.getElem?_set_self (List.getElem?_eq_some_iff.mp hi).1

/-- A waiter at the top of its loop can be brought to its end. -/
theorem loop_finishes {call : WaitCall} (hw : Live cfg w)
    (hi : w.world.clients[i]? = some (.wait call)) (hpc : call.pc = .loop) :
    ∃ w' c' r, LeadsTo cfg pollInterval b w w' ∧ w'.world.clients[i]? = some c' ∧
      Client.outcome c' = some r := by
  obtain ⟨w₁, pc, hlead, hi₁, ⟨p, rfl⟩ | ⟨job, rfl⟩⟩ := loop_ends pollInterval b hw hi hpc
  · exact ⟨w₁, _, .ok p, hlead, hi₁, rfl⟩
  · obtain ⟨w₂, call', r, hlead₂, hi₂, hr⟩ := call_finishes (hw.leadsTo hlead) hi₁ rfl
    refine ⟨w₂, _, r, hlead.trans hlead₂, hi₂, ?_⟩
    simp [Client.place, Client.outcome, hr]

/-- A waiter whose refresh is over can be brought to its end. -/
theorem refreshDone_finishes {call : WaitCall} (hw : Live cfg w)
    (hi : w.world.clients[i]? = some (.wait call)) (hpc : call.pc = .refreshDone result) :
    ∃ w' c' r, LeadsTo cfg pollInterval b w w' ∧ w'.world.clients[i]? = some c' ∧
      Client.outcome c' = some r := by
  obtain ⟨e', call', hstep, hcase⟩ : ∃ e' call', call.step cfg w.world.env .go = some (e', call') ∧
      (call'.pc = .loop ∨ ∃ exc, call'.pc = .failed exc) := by
    unfold WaitCall.step
    rw [hpc]
    cases result with
    | ok p => exact ⟨_, _, rfl, .inl rfl⟩
    | error exc =>
      refine ⟨_, _, rfl, ?_⟩
      cases isRefreshFailure exc
      · exact .inr ⟨exc, rfl⟩
      · exact .inl rfl
  obtain ⟨w₁, hlead, hi₁⟩ := waiter_goes pollInterval b hw hi
    (fun hloop => by cases hpc.symm.trans hloop) (fun c hc => by simp [Client.call?, hpc] at hc) hstep
  rcases hcase with hloop | ⟨exc, hfailed⟩
  · obtain ⟨w₂, c', r, hlead₂, hi₂, hr⟩ := loop_finishes (hw.leadsTo hlead) hi₁ hloop
    exact ⟨w₂, c', r, hlead.trans hlead₂, hi₂, hr⟩
  · exact ⟨w₁, _, .error exc, hlead, hi₁, by simp [Client.outcome, hfailed]⟩

/-- Every call can be brought to its end. -/
theorem client_finishes (pollInterval : ℚ) (b : Backend) (hw : Live cfg w)
    (hi : w.world.clients[i]? = some c) : ∃ w' c' r, LeadsTo cfg pollInterval b w w' ∧
      w'.world.clients[i]? = some c' ∧ Client.outcome c' = some r := by
  cases c with
  | io call =>
    obtain ⟨w', call', r, hlead, hi', hr⟩ := call_finishes hw hi rfl
    exact ⟨w', _, r, hlead, hi', by simp [Client.place, Client.outcome, hr]⟩
  | wait call =>
    cases hpc : call.pc with
    | loop => exact loop_finishes hw hi hpc
    | refreshDone result => exact refreshDone_finishes hw hi hpc
    | read io =>
      have hcall : (Client.wait call).call? = some io := by simp [Client.call?, hpc]
      obtain ⟨w', call', r, hlead, hi', hr⟩ := call_finishes hw hi hcall
      exact ⟨w', _, r, hlead, hi', by simp [Client.place, hpc, Client.outcome, hr]⟩
    | refresh io =>
      -- the refresh ends, its waiter notices, and goes on with the loop
      have hcall : (Client.wait call).call? = some io := by simp [Client.call?, hpc]
      obtain ⟨w₁, call', r, hlead₁, hi₁, hr⟩ := call_finishes hw hi hcall
      have hplace : (Client.wait call).place call' = .wait { call with pc := .refresh call' } := by
        simp [Client.place, hpc]
      rw [hplace] at hi₁
      obtain ⟨w₂, hlead₂, hi₂⟩ := waiter_goes pollInterval b (hw.leadsTo hlead₁) hi₁
        (fun hloop => by cases hloop) (fun c hc => by cases hc; exact ⟨r, hr⟩)
        (show WaitCall.step cfg w₁.world.env { call with pc := .refresh call' } .go =
          some (w₁.world.env, { call with pc := .refreshDone r }) by simp [WaitCall.step, hr])
      obtain ⟨w', c', r', hlead, hi', hr'⟩ := refreshDone_finishes
        (hw.leadsTo (hlead₁.trans hlead₂)) hi₂ rfl
      exact ⟨w', c', r', (hlead₁.trans hlead₂).trans hlead, hi', hr'⟩
    | done p => exact ⟨w, _, .ok p, .refl, hi, by simp [Client.outcome, hpc]⟩
    | failed exc => exact ⟨w, _, .error exc, .refl, hi, by simp [Client.outcome, hpc]⟩

end WakeWorld

end Coordinator

end MotuProxy
