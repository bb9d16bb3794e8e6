import MotuProxy.Verify.DegradedRefresh
import MotuProxy.Verify.Shutdown

/-! # The coordinator comes to rest

Without new calls every call returns, whatever the backend answers, and leaves nothing behind in the
monitor. Then the poller gets the I/O: foreground calls only delay it.
-/

namespace MotuProxy

open Py Protocol Responses

namespace Coordinator

open Datastore (ManagedDatastore)
open DatastoreCoordinator

/-- Nobody is using the coordinator. -/
structure AtRest (s : DatastoreCoordinator) : Prop where
  free : s.ioBusy = false
  owner : s.ioOwner = none
  waiters : s.foregroundWaiters = 0
  active : s.activePollRead = none
  refresh : s.degradedRefreshInProgress = false

/-! ## Calls that have returned -/

/-- The call has returned or raised. -/
def Client.returned (c : Client) : Bool := (Client.outcome c).isSome

theorem Client.returned_iff {c : Client} :
    c.returned = true ↔ (∃ call r, c = .io call ∧ call.pc = .done r) ∨ ∃ call, c = .wait call ∧
      ((∃ p, call.pc = .done p) ∨ (∃ exc, call.pc = .failed exc) ∨
        ∃ io r, call.pc = .read io ∧ io.pc = .done r) := by
  cases c with
  | io call => cases hpc : call.pc <;> simp [returned, Client.outcome, hpc]
  | wait call =>
    cases hpc : call.pc with
    | read io => cases hio : io.pc <;> simp [returned, Client.outcome, hpc, hio]
    | _ => simp [returned, Client.outcome, hpc]

/-- A call that has returned makes no more steps. -/
theorem Client.returned_step {e : Env} {c : Client} (h : c.returned = true) :
    c.step cfg e choice = none := by
  rcases Client.returned_iff.mp h with ⟨call, r, rfl, hpc⟩ |
    ⟨call, rfl, ⟨p, hpc⟩ | ⟨exc, hpc⟩ | ⟨io, r, hpc, hio⟩⟩
  · simp [Client.step, IoCall.step, hpc]
  · simp [Client.step, WaitCall.step, hpc]
  · simp [Client.step, WaitCall.step, hpc]
  · simp [Client.step, WaitCall.step, IoCall.step, hpc, hio]

/-- A call that has returned holds nothing of the monitor. -/
theorem Client.returned_idle {c : Client} (h : c.returned = true) :
    c.owns = false ∧ c.waits = false ∧ c.refreshing = false := by
  rcases Client.returned_iff.mp h with ⟨call, r, rfl, hpc⟩ |
    ⟨call, rfl, ⟨p, hpc⟩ | ⟨exc, hpc⟩ | ⟨io, r, hpc, hio⟩⟩
  · simp [Client.owns, Client.waits, Client.refreshing, Client.call?, hpc, IoPc.owns, IoPc.waits]
  · simp [Client.owns, Client.waits, Client.refreshing, Client.call?, hpc]
  · simp [Client.owns, Client.waits, Client.refreshing, Client.call?, hpc]
  · simp [Client.owns, Client.waits, Client.refreshing, Client.call?, hpc, hio, IoPc.owns, IoPc.waits]

namespace WakeWorld

variable {cfg : Config} {pollInterval : ℚ} {w w' : WakeWorld} {a : Action} {b : Backend} {i : Nat}
  {c c' : Client}

theorem step_tick {later : ℚ} (h : step cfg pollInterval w (.tick later) = some w') :
    w'.world = { w.world with env := { w.world.env with now := later } } ∧ w'.poller = w.poller := by
  simp only [step, Option.bind_eq_bind, Option.bind_eq_some_iff] at h
  obtain ⟨world, hworld, h⟩ := h
  cases h
  cases World.step_cases hworld
  exact ⟨rfl, rfl⟩

/-- The threads of a served run are those of its start, and a call that has returned stays so. -/
theorem served_step (hserves : b.Serves w a) (h : step cfg pollInterval w a = some w') :
    w'.world.clients.length = w.world.clients.length ∧ ∀ (i : Nat) c,
      w.world.clients[i]? = some c → c.returned = true → w'.world.clients[i]? = some c := by
  cases a with
  | get | post | close | closeDatastore => cases hserves
  | tick later =>
    rw [(step_tick h).1]
    exact ⟨rfl, fun i c hi _ => hi⟩
  | poller choice =>
    obtain ⟨-, -, hclients, -⟩ := step_poller h
    rw [hclients]
    exact ⟨rfl, fun i c hi _ => hi⟩
  | client j choice =>
    obtain ⟨c₀, c₁, -, hj, -, -, hstep, hclients, -⟩ := step_client h
    rw [hclients]
    refine ⟨List.length_set, fun i c hi hreturned => ?_⟩
    have hne : j ≠ i := by
      rintro rfl
      cases hi.symm.trans hj
      cases (Client.returned_step hreturned).symm.trans hstep
    rw [List.getElem?_set_ne hne]
    exact hi

theorem served_leadsTo (h : LeadsTo cfg pollInterval b w w') :
    w'.world.clients.length = w.world.clients.length ∧ ∀ (i : Nat) c,
      w.world.clients[i]? = some c → c.returned = true → w'.world.clients[i]? = some c :=
  h.invariant (I := fun w' => w'.world.clients.length = w.world.clients.length ∧ ∀ (i : Nat) c,
      w.world.clients[i]? = some c → c.returned = true → w'.world.clients[i]? = some c)
    (fun s a s' ⟨hlength, hkept⟩ hserves h => by
      obtain ⟨hlength', hkept'⟩ := served_step hserves h
      exact ⟨hlength'.trans hlength, fun i c hi hr => hkept' i c (hkept i c hi hr) hr⟩)
    ⟨rfl, fun i c hi _ => hi⟩

/-- One call after the other can be brought to its end. -/
theorem first_finish (pollInterval : ℚ) (b : Backend) (hw : Live cfg w) (n : Nat)
    (hn : n ≤ w.world.clients.length) : ∃ w', LeadsTo cfg pollInterval b w w' ∧
      ∀ i < n, ∃ c, w'.world.clients[i]? = some c ∧ c.returned = true := by
  induction n with
  | zero => exact ⟨w, .refl, fun i hi => absurd hi (Nat.not_lt_zero i)⟩
  | succ n ih =>
    obtain ⟨w₁, hlead₁, hdone⟩ := ih (by omega)
    have hlt : n < w₁.world.clients.length := by
      rw [(served_leadsTo hlead₁).1]
      omega
    obtain ⟨w', c', r, hlead, hi', hr⟩ :=
      client_finishes pollInterval b (hw.leadsTo hlead₁) (List.getElem?_eq_getElem hlt)
    refine ⟨w', hlead₁.trans hlead, fun i hi => ?_⟩
    by_cases hin : i = n
    · subst hin
      exact ⟨c', hi', by rw [Client.returned, hr]; rfl⟩
    · obtain ⟨c, hc, hreturned⟩ := hdone i (by omega)
      exact ⟨c, (served_leadsTo hlead).2 i c hc hreturned, hreturned⟩

/-! ## Rest -/

theorem singleFlight_run {managed : ManagedDatastore} {as : List Action}
    (hrun : run (WakeWorld.step cfg pollInterval) (.init managed) as = some w) :
    SingleFlight w.world :=
  run_invariant_of_step (I := fun w => SingleFlight w.world)
    (fun _ _ _ hw h => hw.step (step_world h)) (SingleFlight.init managed []) hrun

/-- When every call has returned and the poller does not own the I/O, the coordinator is at rest. -/
theorem atRest_of_returned (hw : Live cfg w) (hflight : SingleFlight w.world)
    (hreturned : ∀ c ∈ w.world.clients, c.returned = true)
    (hfree : w.world.env.shared.ioBusy = false) : AtRest w.world.env.shared := by
  have howner := hw.monitor.owner_none hfree
  refine ⟨hfree, howner, ?_, ?_, ?_⟩
  · have hzero : w.world.clients.countP Client.waits = 0 :=
      List.countP_eq_zero.mpr fun c hc => by simp [(Client.returned_idle (hreturned c hc)).2.1]
    rw [hw.monitor.waiters, hzero]
    rfl
  · by_contra hactive
    cases howner.symm.trans (hw.monitor.poller.mp (hw.monitor.active hactive))
  · have hzero : w.world.clients.countP Client.refreshing = 0 :=
      List.countP_eq_zero.mpr fun c hc => by simp [(Client.returned_idle (hreturned c hc)).2.2]
    unfold SingleFlight at hflight
    rw [hzero] at hflight
    cases hdegraded : w.world.env.shared.degradedRefreshInProgress with
    | false => rfl
    | true => rw [hdegraded] at hflight; cases hflight

/-- Every call returns, and the coordinator comes to rest. -/
theorem drains (pollInterval : ℚ) (b : Backend) (hw : Live cfg w) (hflight : SingleFlight w.world) :
    ∃ w', LeadsTo cfg pollInterval b w w' ∧ (∀ c ∈ w'.world.clients, c.returned = true) ∧
      AtRest w'.world.env.shared := by
  obtain ⟨w₁, hlead₁, hdone⟩ := first_finish pollInterval b hw _ le_rfl
  have hlive₁ := hw.leadsTo hlead₁
  have hreturned₁ {i : Nat} {c : Client} (hi : w₁.world.clients[i]? = some c) : c.returned = true := by
    have hlt := (List.getElem?_eq_some_iff.mp hi).1
    obtain ⟨c', hi', hreturned⟩ := hdone i (by rw [← (served_leadsTo hlead₁).1]; exact hlt)
    cases hi.symm.trans hi'
    exact hreturned
  -- the poller may still own the I/O
  obtain ⟨w', hlead, hfree, hkept⟩ := io_freed pollInterval b hlive₁
  have hreturned : ∀ c ∈ w'.world.clients, c.returned = true := by
    intro c hc
    obtain ⟨i, hi⟩ := List.getElem?_of_mem hc
    have hlt : i < w₁.world.clients.length := by
      rw [← (served_leadsTo hlead).1]
      exact (List.getElem?_eq_some_iff.mp hi).1
    have hi₁ := List.getElem?_eq_getElem hlt
    cases hi.symm.trans ((served_leadsTo hlead).2 i _ hi₁ (hreturned₁ hi₁))
    exact hreturned₁ hi₁
  refine ⟨w', hlead₁.trans hlead, hreturned, atRest_of_returned (hlive₁.leadsTo hlead) ?_ hreturned hfree⟩
  exact (hlead₁.trans hlead).invariant (I := fun w => SingleFlight w.world)
    (fun _ _ _ hs _ h => hs.step (step_world h)) hflight

/-! ## The turn of the poller -/

/-- The poller stops only when the coordinator is closed. -/
def StopsClosed (w : World) : Prop := w.poller = .stopped → w.env.shared.closed = true

theorem StopsClosed.step {w w' : World} (hw : StopsClosed w) (h : Coordinator.step cfg w a = some w') :
    StopsClosed w' := by
  intro hstopped
  cases World.step_cases h with
  | poller hstep =>
    rename_i env' choice poller'
    obtain rfl : poller' = .stopped := hstopped
    obtain ⟨pc, hpc⟩ : ∃ pc, w.poller = pc := ⟨_, rfl⟩
    rw [hpc] at hstep
    cases PollPc.step_cases hstep with
    | stop hclosed => exact hclosed
  | tick | get | post | close | closeDatastore | client => exact closed_step h (hw hstopped)

/-- Served steps leave the coordinator open. -/
theorem served_open (hserves : b.Serves w a) (h : step cfg pollInterval w a = some w')
    (hopen : w.world.env.shared.closed = false) : w'.world.env.shared.closed = false := by
  cases a with
  | get | post | close | closeDatastore => cases hserves
  | tick later =>
    rw [(step_tick h).1]
    exact hopen
  | poller choice =>
    obtain ⟨-, hstep, -⟩ := step_poller h
    exact (PollPc.step_cases hstep).closed.trans hopen
  | client j choice =>
    obtain ⟨c₀, c₁, -, -, -, -, hstep, -⟩ := step_client h
    rcases Client.step_cases hstep with ⟨_, _, -, -, hio⟩ | ⟨⟨_, _, heq⟩, -, -⟩
    · exact hio.closed.trans hopen
    · rw [heq]
      exact hopen

/-- How far the poller is from its turn. -/
def turnRank : PollPc → Nat
  | .idle | .handled _ => 2
  | .top => 1
  | _ => 0

/-- The poller can go on when the coordinator is at rest. -/
theorem poller_ready (pollInterval : ℚ) (b : Backend) (hw : Live cfg w)
    (hrest : AtRest w.world.env.shared) : ∃ w₁, LeadsTo cfg pollInterval b w w₁ ∧
      w₁.poller.ready w₁.world.env.now = true ∧ w₁.world.poller = w.world.poller ∧
      w₁.world.env.shared = w.world.env.shared := by
  cases hp : w.poller with
  | running => exact ⟨w, .refl, by rw [hp]; rfl, rfl, rfl⟩
  | blocked expires =>
    cases expires with
    | none =>
      rcases hw.awake.poller none hp with ⟨-, hnone⟩ | ⟨-, -, hbusy | hwaiters⟩
      · cases hnone
      · cases hrest.free.symm.trans hbusy
      · rw [hrest.waiters] at hwaiters
        exact absurd hwaiters (lt_irrefl 0)
    | some t =>
      -- the pause passes
      obtain ⟨w₁, h₁, hworld, hpoller⟩ : ∃ w₁, WakeWorld.step cfg pollInterval w
          (.tick (max w.world.env.now t)) = some w₁ ∧
          w₁.world = { w.world with env := { w.world.env with now := max w.world.env.now t } } ∧
          w₁.poller = w.poller := by
        simp [WakeWorld.step, Coordinator.step]
      refine ⟨w₁, .cons h₁ trivial .refl, ?_, by rw [hworld], by rw [hworld]⟩
      rw [hpoller, hp, hworld]
      simp [Waiting.ready]

/-- A step of a poller that is ready. -/
theorem ready_goes (pollInterval : ℚ) (b : Backend)
    (hready : w.poller.ready w.world.env.now = true)
    (hstep : w.world.poller.step cfg w.world.env .go = some (e', pc')) :
    ∃ w', LeadsTo cfg pollInterval b w w' ∧ w'.world = { w.world with env := e', poller := pc' } := by
  have hworld : Coordinator.step cfg w.world (.poller .go) =
      some { w.world with env := e', poller := pc' } := by
    simp [Coordinator.step, hstep]
  obtain ⟨w', hw'⟩ : ∃ w', WakeWorld.step cfg pollInterval w (.poller .go) = some w' := by
    simp [WakeWorld.step, hready, hworld]
  exact ⟨w', .cons hw' (.inl rfl) .refl, Option.some.inj ((step_world hw').symm.trans hworld)⟩

/-- The state in which the poller is on its way to its turn. -/
structure Turning (cfg : Config) (w : WakeWorld) : Prop where
  live : Live cfg w
  rest : AtRest w.world.env.shared
  isOpen : w.world.env.shared.closed = false
  stops : StopsClosed w.world

theorem Turning.pc (hw : Turning cfg w) : w.world.poller = .idle ∨ w.world.poller = .top ∨
    (∃ exc, w.world.poller = .handled exc) ∨ ∃ c, w.world.poller = .acquiring c := by
  have howns (h : w.world.poller.owns = true) : False := by
    cases hw.rest.owner.symm.trans (hw.live.monitor.poller.mp h)
  cases hpc : w.world.poller with
  | idle => exact .inl rfl
  | top => exact .inr (.inl rfl)
  | handled exc => exact .inr (.inr (.inl ⟨exc, rfl⟩))
  | acquiring c => exact .inr (.inr (.inr ⟨c, rfl⟩))
  | stopped => cases hw.isOpen.symm.trans (hw.stops hpc)
  | owning | inCall | responded | payload | releasing => exact absurd (by rw [hpc]; rfl) howns

theorem Turning.leadsTo (hw : Turning cfg w) (hlead : LeadsTo cfg pollInterval b w w')
    (hshared : w'.world.env.shared = w.world.env.shared) : Turning cfg w' := by
  refine ⟨hw.live.leadsTo hlead, by rw [hshared]; exact hw.rest, by rw [hshared]; exact hw.isOpen, ?_⟩
  exact hlead.invariant (I := fun w => StopsClosed w.world)
    (fun _ _ _ hs _ h => hs.step (step_world h)) hw.stops

/-- At rest, the poller of an open coordinator comes to own the I/O. -/
theorem poller_turn (pollInterval : ℚ) (b : Backend) (hnative : cfg.nativeLongPoll = true)
    (hw : Turning cfg w) : ∃ w' c, LeadsTo cfg pollInterval b w w' ∧ w'.world.poller = .owning c := by
  have hprogress : ∃ w', LeadsTo cfg pollInterval b w w' ∧ Turning cfg w' ∧
      ∃ c, w'.world.poller = .acquiring c := by
    refine LeadsTo.of_measure (fun w => turnRank w.world.poller) ?_ hw
    intro w₁ hw₁ hnot
    obtain ⟨w₂, hlead₂, hready, hpc₂, hshared₂⟩ := poller_ready pollInterval b hw₁.live hw₁.rest
    have hopen₂ : w₂.world.env.shared.closed = false := by rw [hshared₂]; exact hw₁.isOpen
    obtain ⟨pc', hstep, hrank⟩ : ∃ pc', w₂.world.poller.step cfg w₂.world.env .go =
        some (w₂.world.env, pc') ∧ turnRank pc' < turnRank w₁.world.poller := by
      rw [hpc₂]
      rcases hw₁.pc with hpc | hpc | ⟨exc, hpc⟩ | ⟨c, hpc⟩ <;> rw [hpc]
      · exact ⟨.top, by simp [PollPc.step, hnative], by simp [turnRank]⟩
      · exact ⟨.acquiring w₂.world.env.capture, by simp [PollPc.step, hopen₂, Env.capture],
          by simp [turnRank]⟩
      · exact ⟨.top, by simp [PollPc.step, hopen₂], by simp [turnRank]⟩
      · exact absurd ⟨c, hpc⟩ hnot
    obtain ⟨w₃, hlead₃, hworld₃⟩ := ready_goes pollInterval b hready hstep
    refine ⟨w₃, hlead₂.trans hlead₃, hw₁.leadsTo (hlead₂.trans hlead₃) ?_, ?_⟩ <;> rw [hworld₃]
    · exact hshared₂
    · exact hrank
  obtain ⟨w₁, hlead₁, hw₁, c, hpc⟩ := hprogress
  obtain ⟨w₂, hlead₂, hready, hpc₂, hshared₂⟩ := poller_ready pollInterval b hw₁.live hw₁.rest
  have hacquire : w₂.world.env.shared.acquirePollerIo = (some true, { w₂.world.env.shared with
      ioBusy := true, ioOwner := some .poller }) := by
    unfold acquirePollerIo
    rw [hshared₂, if_neg (by simp [hw₁.rest.free, hw₁.rest.waiters]), if_neg (by simp [hw₁.isOpen])]
  obtain ⟨w₃, hlead₃, hworld₃⟩ := ready_goes pollInterval b hready
    (show w₂.world.poller.step cfg w₂.world.env .go = some (_, .owning c) by
      rw [hpc₂, hpc, PollPc.step, hacquire])
  exact ⟨w₃, c, hlead₁.trans (hlead₂.trans hlead₃), by rw [hworld₃]⟩

end WakeWorld

/-- No call is stuck: from every reachable state, whatever the backend answers, a run without new
calls leads to a state in which every call has returned and nothing is left behind in the monitor. -/
theorem calls_drain {cfg : Config} {pollInterval : ℚ} {managed : ManagedDatastore}
    {as : List Action} {w : WakeWorld}
    (hrun : run (WakeWorld.step cfg pollInterval) (.init managed) as = some w) (b : Backend) :
    ∃ bs w', run (WakeWorld.step cfg pollInterval) w bs = some w' ∧
      Along (WakeWorld.step cfg pollInterval) b.Serves w bs ∧
      (∀ c ∈ w'.world.clients, ∃ r, Client.outcome c = some r) ∧
      w'.world.clients.length = w.world.clients.length ∧ AtRest w'.world.env.shared := by
  obtain ⟨w', hlead, hreturned, hrest⟩ := WakeWorld.drains pollInterval b (WakeWorld.live_run hrun)
    (WakeWorld.singleFlight_run hrun)
  have hlength := (WakeWorld.served_leadsTo hlead).1
  obtain ⟨bs, hrun', halong⟩ := hlead
  exact ⟨bs, w', hrun', halong, fun c hc => Option.isSome_iff_exists.mp (hreturned c hc), hlength, hrest⟩

/-- The read that waits for the poller comes to its end. -/
theorem calls_drain_blocked :
    ∃ w, run (WakeWorld.step {} (1 / 20)) (.init (.init 0 0 0)) blockedRun = some w ∧
      w.clients[0]? = some (.blocked none) ∧
      ∃ bs w' c r, run (WakeWorld.step {} (1 / 20)) w bs = some w' ∧
        w'.world.clients[0]? = some c ∧ Client.outcome c = some r := by
  have hfacts : (run (WakeWorld.step {} (1 / 20)) (.init (.init 0 0 0)) blockedRun).map
      (fun w => (w.clients[0]?, w.world.clients.length)) = some (some (.blocked none), 1) := by
    decide +kernel
  obtain ⟨w, hw, hfacts⟩ := Option.map_eq_some_iff.mp hfacts
  obtain ⟨hblocked, hone⟩ := Prod.mk.inj hfacts
  obtain ⟨bs, w', hrun, -, hreturned, hlength, -⟩ := calls_drain hw .silent
  have hi := List.getElem?_eq_getElem (l := w'.world.clients) (i := 0) (by omega)
  obtain ⟨r, hr⟩ := hreturned _ (List.mem_of_getElem? hi)
  exact ⟨w, hw, hblocked, bs, w', _, r, hrun, hi, hr⟩

/-- The poller is not starved: from every reachable state of an open coordinator, whatever the
backend answers, a run without new calls leads to a state in which the poller owns the I/O. -/
theorem poller_gets_io {cfg : Config} {pollInterval : ℚ} {managed : ManagedDatastore}
    {as : List Action} {w : WakeWorld}
    (hrun : run (WakeWorld.step cfg pollInterval) (.init managed) as = some w)
    (hnative : cfg.nativeLongPoll = true) (hopen : w.world.env.shared.closed = false) (b : Backend) :
    ∃ bs w' c, run (WakeWorld.step cfg pollInterval) w bs = some w' ∧
      Along (WakeWorld.step cfg pollInterval) b.Serves w bs ∧ w'.world.poller = .owning c := by
  have hlive := WakeWorld.live_run hrun
  have hstops : WakeWorld.StopsClosed w.world := run_invariant_of_step
    (I := fun w => WakeWorld.StopsClosed w.world) (fun _ _ _ hs h => hs.step (WakeWorld.step_world h))
    (fun hstopped => by cases hstopped) hrun
  obtain ⟨w₁, hlead₁, -, hrest⟩ := WakeWorld.drains pollInterval b hlive (WakeWorld.singleFlight_run hrun)
  have hturning : WakeWorld.Turning cfg w₁ := {
    live := hlive.leadsTo hlead₁
    rest := hrest
    isOpen := hlead₁.invariant (I := fun w => w.world.env.shared.closed = false)
      (fun _ _ _ hopen hserves h => WakeWorld.served_open hserves h hopen) hopen
    stops := hlead₁.invariant (I := fun w => WakeWorld.StopsClosed w.world)
      (fun _ _ _ hs _ h => hs.step (WakeWorld.step_world h)) hstops }
  obtain ⟨w', c, hlead, hpc⟩ := WakeWorld.poller_turn pollInterval b hnative hturning
  obtain ⟨bs, hrun', halong⟩ := hlead₁.trans hlead
  exact ⟨bs, w', c, hrun', halong, hpc⟩

/-- A read has the I/O before the poller. -/
def overtakenRun : List Action :=
  [.poller .go, .poller .go, .get pollPath none none none, .client 0 .go]

theorem poller_gets_io_overtaken :
    ∃ w, run (WakeWorld.step {} (1 / 20)) (.init (.init 0 0 0)) overtakenRun = some w ∧
      ∃ bs w' c, run (WakeWorld.step {} (1 / 20)) w bs = some w' ∧ w'.world.poller = .owning c := by
  have hfacts : (run (WakeWorld.step {} (1 / 20)) (.init (.init 0 0 0)) overtakenRun).map
      (fun w => w.world.env.shared.closed) = some false := by decide +kernel
  obtain ⟨w, hw, hopen⟩ := Option.map_eq_some_iff.mp hfacts
  obtain ⟨bs, w', c, hrun, -, hpc⟩ := poller_gets_io hw rfl hopen .silent
  exact ⟨w, hw, bs, w', c, hrun, hpc⟩

end Coordinator

end MotuProxy
