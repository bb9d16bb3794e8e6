import Mathlib.Data.List.Chain
import MotuProxy.Verify.Monitor

/-! # Degraded refreshes

Without cancellable reads there is no poller, and a waiter refreshes `poll_path` itself. The flag
`_degraded_refresh_in_progress` and the time `_next_degraded_refresh` are touched by the waiters
alone: `RefreshTurn` lists what a step of a thread does to them. The flag counts the threads that
are refreshing, and a decision to refresh moves the next one by the interval.
-/

namespace MotuProxy

open Py Protocol Responses

namespace Coordinator

open Datastore (ManagedDatastore)
open DatastoreCoordinator

/-- From the decision to refresh to the `finally` that takes the flag back. -/
def Client.refreshing : Client → Bool
  | .io _ => false
  | .wait call => match call.pc with
    | .refresh _ | .refreshDone _ => true
    | _ => false

/-- The next pass of the thread decides to refresh. -/
def Client.decides (cfg : Config) (e : Env) : Client → Bool
  | .io _ => false
  | .wait call => match call.pc with
    | .loop => match (e.shared.waitForChange cfg e.now call.args call.deadline).1 with
      | .refresh _ => true
      | _ => false
    | _ => false

/-- The step is a pass of a waiter that decides to refresh. -/
def decidesRefresh (cfg : Config) (w : World) : Action → Bool
  | .client i _ => w.clients[i]?.any (·.decides cfg w.env)
  | _ => false

/-- The times of the decisions to refresh in a run, in their order. -/
def decisionTimes (cfg : Config) (w : World) : List Action → List ℚ
  | [] => []
  | a :: as => match step cfg w a with
    | none => []
    | some w' =>
      let later := decisionTimes cfg w' as
      if decidesRefresh cfg w a then w.env.now :: later else later

/-- A new coordinator on which threads have called `wait_for_change`, with any arguments and
deadlines; they make their first pass at any time, and others come later. -/
def World.initWaiting (managed : ManagedDatastore) (calls : List (WaitArgs × ℚ)) : World :=
  { World.init managed with clients := calls.map fun (args, deadline) => .wait { args, deadline } }

/-! ## What leaves the bookkeeping alone -/

structure SameRefresh (s s' : DatastoreCoordinator) : Prop where
  inProgress : s'.degradedRefreshInProgress = s.degradedRefreshInProgress
  next : s'.nextDegradedRefresh = s.nextDegradedRefresh

theorem publishPayload_sameRefresh {s : DatastoreCoordinator} :
    SameRefresh s (s.publishPayload cfg payload originClient fromEtag recordTransition) := by
  unfold publishPayload
  split
  · exact ⟨rfl, rfl⟩
  · split
    · exact ⟨rfl, rfl⟩
    · split <;> exact ⟨rfl, rfl⟩

theorem resetIfSessionGenerationChanged_sameRefresh {s : DatastoreCoordinator} :
    SameRefresh s (s.resetIfSessionGenerationChanged generation) := by
  unfold resetIfSessionGenerationChanged
  split <;> exact ⟨rfl, rfl⟩

theorem requestActivePollCancelLocked_sameRefresh {s : DatastoreCoordinator} :
    SameRefresh s s.requestActivePollCancelLocked.2 := by
  obtain ⟨_, _, -, h⟩ := s.requestActivePollCancelLocked_cases
  rw [h]
  exact ⟨rfl, rfl⟩

theorem setActivePollRead_sameRefresh {s : DatastoreCoordinator} {read : Option Nat} :
    SameRefresh s (s.setActivePollRead read) := by
  unfold setActivePollRead
  simp only
  split
  · have h := requestActivePollCancelLocked_sameRefresh
      (s := { s with activePollRead := read, activePollCancelRequested := false })
    exact ⟨h.inProgress, h.next⟩
  · exact ⟨rfl, rfl⟩

theorem close_sameRefresh {s : DatastoreCoordinator} : SameRefresh s s.close := by
  have h := requestActivePollCancelLocked_sameRefresh (s := { s with closed := true })
  exact ⟨h.inProgress, h.next⟩

theorem entering_sameRefresh {pc : IoPc} (h : pc.entering s = some (s', deadline)) :
    SameRefresh s s' := by
  cases pc with
  | start | acquiring => cases h; exact ⟨rfl, rfl⟩
  | _ => cases h

/-- A foreground operation does not touch the bookkeeping. -/
theorem IoStep.sameRefresh {e e' : Env} {c c' : IoCall} (h : IoStep cfg e c choice e' c') :
    SameRefresh e.shared e'.shared := by
  cases h with
  | acquire hpc | exceed hpc | wait hpc =>
    have h := entering_sameRefresh hpc
    exact ⟨h.inProgress, h.next⟩
  | beginOk _ hb | refreshBegin _ _ hb =>
    obtain ⟨-, -, -, -, hs, -⟩ := Env.begin_ok hb
    rw [hs]
    exact ⟨rfl, rfl⟩
  | beginFail _ hb | refreshBeginFail _ _ hb =>
    obtain ⟨-, -, -, hs, -⟩ := Env.begin_error hb
    rw [hs]
    exact ⟨rfl, rfl⟩
  | respond _ hf | refreshRespond _ hf => cases Env.finish_ok hf; exact ⟨rfl, rfl⟩
  | raise _ hf | refreshRaise _ hf =>
    obtain ⟨_, _, _, rfl⟩ := Env.finish_error hf
    exact ⟨rfl, rfl⟩
  | payload | refreshPayload => exact resetIfSessionGenerationChanged_sameRefresh
  | publishRead | publishRefresh => exact publishPayload_sameRefresh
  | release => exact ⟨rfl, rfl⟩

theorem PollStep.sameRefresh {e e' : Env} {pc pc' : PollPc} (h : PollStep cfg e pc e' pc') :
    SameRefresh e.shared e'.shared := by
  cases h with
  | start | capture | acquire | wait | loop | stop | release => exact ⟨rfl, rfl⟩
  | beginOk hb =>
    obtain ⟨-, -, -, -, hs, -⟩ := Env.begin_ok hb
    rw [hs]
    exact ⟨rfl, rfl⟩
  | beginFail hb =>
    obtain ⟨-, -, -, hs, -⟩ := Env.begin_error hb
    rw [hs]
    exact ⟨rfl, rfl⟩
  | readStarted => exact setActivePollRead_sameRefresh
  | respond hf => cases Env.finish_ok hf; exact ⟨rfl, rfl⟩
  | raise hf => obtain ⟨_, _, _, rfl⟩ := Env.finish_error hf; exact ⟨rfl, rfl⟩
  | payload => exact resetIfSessionGenerationChanged_sameRefresh
  | publish =>
    rw [Env.publish_shared]
    exact publishPayload_sameRefresh

/-! ## The steps of a client thread -/

/-- What a step of a client thread does to the bookkeeping. -/
inductive RefreshTurn (cfg : Config) (e : Env) (c : Client) (e' : Env) (c' : Client) : Prop where
  | same (hsame : SameRefresh e.shared e'.shared) (hc : c'.refreshing = c.refreshing)
      (hdecides : c.decides cfg e = false)
  | start (hc : c.refreshing = false) (hc' : c'.refreshing = true)
      (hdecides : c.decides cfg e = true) (hfree : e.shared.degradedRefreshInProgress = false)
      (hdue : e.shared.nextDegradedRefresh ≤ e.now)
      (hset : e'.shared.degradedRefreshInProgress = true)
      (hnext : e'.shared.nextDegradedRefresh = e.now + cfg.degradedRefreshInterval)
  | finish (hc : c.refreshing = true) (hc' : c'.refreshing = false)
      (hdecides : c.decides cfg e = false) (hclear : e'.shared.degradedRefreshInProgress = false)
      (hnext : e'.shared.nextDegradedRefresh = e.shared.nextDegradedRefresh)

/-- A pass decides to refresh when no refresh is in progress and the interval is over, and it books
the refresh; any other pass leaves the bookkeeping alone. -/
theorem waitForChange_bookkeeping (s : DatastoreCoordinator) (cfg : Config) (now : ℚ) (a : WaitArgs)
    (deadline : ℚ) :
    (∃ timeoutMs, s.degradedRefreshInProgress = false ∧ s.nextDegradedRefresh ≤ now ∧
      s.waitForChange cfg now a deadline = (.refresh timeoutMs, { s with
        degradedRefreshInProgress := true
        nextDegradedRefresh := now + cfg.degradedRefreshInterval })) ∨
    ∃ outcome, (∀ timeoutMs, outcome ≠ .refresh timeoutMs) ∧
      s.waitForChange cfg now a deadline = (outcome, s) := by
  unfold waitForChange
  simp only
  split
  · split <;> exact .inr ⟨_, fun _ => WaitOutcome.noConfusion, rfl⟩
  · split
    · exact .inr ⟨_, fun _ => WaitOutcome.noConfusion, rfl⟩
    · split
      · exact .inr ⟨_, fun _ => WaitOutcome.noConfusion, rfl⟩
      · split
        · split
          · exact .inr ⟨_, fun _ => WaitOutcome.noConfusion, rfl⟩
          · rename_i hfree
            split
            · rename_i hdue
              exact .inl ⟨_, by simpa using hfree, hdue, rfl⟩
            · exact .inr ⟨_, fun _ => WaitOutcome.noConfusion, rfl⟩
        · exact .inr ⟨_, fun _ => WaitOutcome.noConfusion, rfl⟩

theorem WaitCall.refreshTurn {e e' : Env} {c c' : WaitCall}
    (h : c.step cfg e choice = some (e', c')) : RefreshTurn cfg e (.wait c) e' (.wait c') := by
  unfold WaitCall.step at h
  split at h
  · rename_i hpc
    rcases waitForChange_bookkeeping e.shared cfg e.now c.args c.deadline with
      ⟨timeoutMs, hfree, hdue, heq⟩ | ⟨outcome, hno, heq⟩ <;> simp only [heq] at h
    · cases h
      exact .start (by simp [Client.refreshing, hpc]) rfl (by simp [Client.decides, hpc, heq]) hfree
        hdue rfl rfl
    · have hc : Client.refreshing (.wait c) = false := by simp [Client.refreshing, hpc]
      have hdecides : Client.decides cfg e (.wait c) = false := by
        cases outcome with
        | refresh timeoutMs => exact absurd rfl (hno timeoutMs)
        | _ => simp only [Client.decides, hpc, heq]
      cases outcome with
      | refresh timeoutMs => exact absurd rfl (hno timeoutMs)
      | wait => cases h; exact .same ⟨rfl, rfl⟩ rfl hdecides
      | _ => cases h; exact .same ⟨rfl, rfl⟩ hc.symm hdecides
  · rename_i call hpc
    have hc : Client.refreshing (.wait c) = true := by simp [Client.refreshing, hpc]
    have hdecides : Client.decides cfg e (.wait c) = false := by simp [Client.decides, hpc]
    split at h
    · cases h
      exact .same ⟨rfl, rfl⟩ hc.symm hdecides
    · obtain ⟨⟨e₁, call₁⟩, hstep, hr⟩ := Option.map_eq_some_iff.mp h
      cases hr
      exact .same (IoCall.step_cases hstep).sameRefresh hc.symm hdecides
  · -- the `finally`, whatever the refresh has come to
    rename_i result hpc
    have hc : Client.refreshing (.wait c) = true := by simp [Client.refreshing, hpc]
    have hdecides : Client.decides cfg e (.wait c) = false := by simp [Client.decides, hpc]
    split at h <;> cases h
    · exact .finish hc rfl hdecides rfl rfl
    · rename_i exc
      refine .finish hc ?_ hdecides rfl rfl
      by_cases hexc : isRefreshFailure exc = true <;> simp [Client.refreshing, hexc]
  · rename_i call hpc
    obtain ⟨⟨e₁, call₁⟩, hstep, hr⟩ := Option.map_eq_some_iff.mp h
    cases hr
    exact .same (IoCall.step_cases hstep).sameRefresh (by simp [Client.refreshing, hpc])
      (by simp [Client.decides, hpc])
  · cases h
  · cases h

theorem Client.refreshTurn {e e' : Env} {c c' : Client} (h : c.step cfg e choice = some (e', c')) :
    RefreshTurn cfg e c e' c' := by
  cases c with
  | io call =>
    obtain ⟨⟨e₁, call₁⟩, hstep, hr⟩ := Option.map_eq_some_iff.mp h
    cases hr
    exact .same (IoCall.step_cases hstep).sameRefresh rfl rfl
  | wait call =>
    obtain ⟨⟨e₁, call₁⟩, hstep, hr⟩ := Option.map_eq_some_iff.mp h
    cases hr
    exact WaitCall.refreshTurn hstep

/-! ## The steps of the system -/

theorem get_not_refreshing :
    (get cfg now path client ifNoneMatch queryFields).refreshing = false := by
  unfold get
  split
  · split <;> rfl
  · rfl

/-- A step is a turn of a client thread, or it leaves the bookkeeping and the threads alone; new
threads do not refresh. -/
theorem step_refreshTurn {w w' : World} (h : step cfg w a = some w') :
    (∃ i choice c c', a = .client i choice ∧ w.clients[i]? = some c ∧
      w'.clients = w.clients.set i c' ∧ RefreshTurn cfg w.env c w'.env c') ∨
    (SameRefresh w.env.shared w'.env.shared ∧ decidesRefresh cfg w a = false ∧
      ∃ new, w'.clients = w.clients ++ new ∧ ∀ c ∈ new, c.refreshing = false) := by
  have hnone {c : Client} (hc : c ∈ []) : c.refreshing = false := by cases hc
  cases a with
  | tick later =>
    simp only [Coordinator.step] at h
    split at h <;> cases h
    exact .inr ⟨⟨rfl, rfl⟩, rfl, [], by simp, fun _ => hnone⟩
  | get path client ifNoneMatch queryFields =>
    cases h
    refine .inr ⟨⟨rfl, rfl⟩, rfl, _, rfl, fun c hc => ?_⟩
    rw [List.mem_singleton.mp hc]
    exact get_not_refreshing
  | post path jsonBody client =>
    cases h
    refine .inr ⟨⟨rfl, rfl⟩, rfl, _, rfl, fun c hc => ?_⟩
    rw [List.mem_singleton.mp hc]
    rfl
  | client i choice =>
    simp only [Coordinator.step, Option.bind_eq_bind, Option.bind_eq_some_iff] at h
    obtain ⟨c, hc, ⟨env', c'⟩, hstep, h⟩ := h
    cases h
    exact .inl ⟨i, choice, c, c', rfl, hc, rfl, Client.refreshTurn hstep⟩
  | poller choice =>
    simp only [Coordinator.step, Option.bind_eq_bind, Option.bind_eq_some_iff] at h
    obtain ⟨⟨env', poller'⟩, hstep, h⟩ := h
    cases h
    exact .inr ⟨(PollPc.step_cases hstep).sameRefresh, rfl, [], by simp, fun _ => hnone⟩
  | close =>
    cases h
    exact .inr ⟨close_sameRefresh, rfl, [], by simp, fun _ => hnone⟩
  | closeDatastore exit =>
    simp only [Coordinator.step] at h
    split at h <;> cases h
    exact .inr ⟨⟨rfl, rfl⟩, rfl, [], by simp, fun _ => hnone⟩

/-! ## One refresh at a time -/

/-- The flag counts the threads that are refreshing. -/
def SingleFlight (w : World) : Prop :=
  w.clients.countP Client.refreshing = w.env.shared.degradedRefreshInProgress.toNat

theorem SingleFlight.step {w w' : World} (hw : SingleFlight w) (h : step cfg w a = some w') :
    SingleFlight w' := by
  unfold SingleFlight at hw ⊢
  rcases step_refreshTurn h with ⟨i, choice, c, c', rfl, hc, hclients, hturn⟩ |
    ⟨hsame, -, new, hclients, hnew⟩
  · have hcount := countP_set (p := Client.refreshing) (b := c') hc
    rw [← hclients] at hcount
    cases hturn with
    | same hsame hrefreshing =>
      rw [hrefreshing] at hcount
      rw [hsame.inProgress]
      omega
    | start hidle hrefreshing _ hfree _ hset =>
      rw [hidle, hrefreshing, hw, hfree] at hcount
      rw [hset]
      exact hcount
    | finish hrefreshing hidle _ hclear =>
      -- the thread is refreshing, so the flag was set
      have hle := hw ▸ Bool.toNat_le w.env.shared.degradedRefreshInProgress
      rw [hrefreshing, hidle] at hcount
      rw [hclear]
      simp only [Bool.toNat_true, Bool.toNat_false] at hcount ⊢
      omega
  · have hzero : new.countP Client.refreshing = 0 :=
      List.countP_eq_zero.mpr fun c hc => by simp [hnew c hc]
    rw [hclients, List.countP_append, hzero, hsame.inProgress]
    exact hw

theorem SingleFlight.init (managed : ManagedDatastore) (calls : List (WaitArgs × ℚ)) :
    SingleFlight (World.initWaiting managed calls) := by
  refine List.countP_eq_zero.mpr fun c hc => ?_
  obtain ⟨⟨args, deadline⟩, -, rfl⟩ := List.mem_map.mp hc
  exact Bool.false_ne_true

/-- The thread that stops refreshing takes the flag back. -/
theorem flag_cleared {w w' : World} {i : Nat} {c c' : Client}
    (h : step cfg w a = some w') (hc : w.clients[i]? = some c)
    (hc' : w'.clients[i]? = some c') (hbefore : c.refreshing = true)
    (hafter : c'.refreshing = false) :
    w'.env.shared.degradedRefreshInProgress = false := by
  have hmoved : c' ≠ c := by
    rintro rfl
    rw [hbefore] at hafter
    cases hafter
  rcases step_refreshTurn h with ⟨j, choice, d, d', rfl, hd, hclients, hturn⟩ |
    ⟨-, -, new, hclients, -⟩
  · rw [hclients] at hc'
    by_cases hij : j = i
    · subst hij
      rw [hc] at hd
      cases hd
      rw [List.getElem?_set_self (List.getElem?_eq_some_iff.mp hc).1] at hc'
      cases hc'
      cases hturn with
      | same _ hsame => rw [hafter, hbefore] at hsame; cases hsame
      | start hidle => rw [hbefore] at hidle; cases hidle
      | finish _ _ _ hclear => exact hclear
    · rw [List.getElem?_set_ne hij, hc] at hc'
      exact absurd (Option.some.inj hc').symm hmoved
  · rw [hclients, List.getElem?_append_left (List.getElem?_eq_some_iff.mp hc).1, hc] at hc'
    exact absurd (Option.some.inj hc').symm hmoved

/-! ## The interval between two decisions -/

/-- A step that decides to refresh comes when it is due, and books the next one. -/
theorem step_decides {w w' : World} (h : step cfg w a = some w')
    (hdecides : decidesRefresh cfg w a = true) :
    w.env.shared.nextDegradedRefresh ≤ w.env.now ∧
      w'.env.shared.nextDegradedRefresh = w.env.now + cfg.degradedRefreshInterval := by
  rcases step_refreshTurn h with ⟨i, choice, c, c', rfl, hc, -, hturn⟩ | ⟨-, hnot, -⟩
  · simp only [decidesRefresh, hc, Option.any_some] at hdecides
    cases hturn with
    | start _ _ _ _ hdue _ hnext => exact ⟨hdue, hnext⟩
    | same _ _ hnot => rw [hnot] at hdecides; cases hdecides
    | finish _ _ hnot => rw [hnot] at hdecides; cases hdecides
  · rw [hnot] at hdecides
    cases hdecides

theorem step_not_decides {w w' : World} (h : step cfg w a = some w')
    (hnot : decidesRefresh cfg w a = false) :
    w'.env.shared.nextDegradedRefresh = w.env.shared.nextDegradedRefresh := by
  rcases step_refreshTurn h with ⟨i, choice, c, c', rfl, hc, -, hturn⟩ | ⟨hsame, -⟩
  · simp only [decidesRefresh, hc, Option.any_some] at hnot
    cases hturn with
    | start _ _ hdecides => rw [hdecides] at hnot; cases hnot
    | same hsame => exact hsame.next
    | finish _ _ _ _ hnext => exact hnext
  · exact hsame.next

/-- The first decision of a run comes when it is due, and any other an interval after the one
before it. -/
theorem decisionTimes_spaced (cfg : Config) (w : World) (as : List Action) :
    (∀ t ∈ (decisionTimes cfg w as).head?, w.env.shared.nextDegradedRefresh ≤ t) ∧
      (decisionTimes cfg w as).IsChain fun t t' => t + cfg.degradedRefreshInterval ≤ t' := by
  induction as generalizing w with
  | nil => exact ⟨fun _ ht => (by cases ht), .nil⟩
  | cons a as ih =>
    unfold decisionTimes
    split
    · exact ⟨fun _ ht => (by cases ht), .nil⟩
    · rename_i w' hstep
      obtain ⟨hfirst, hchain⟩ := ih w'
      split
      · rename_i hdecides
        obtain ⟨hdue, hnext⟩ := step_decides hstep hdecides
        refine ⟨fun t ht => ?_, List.isChain_cons.mpr ⟨fun t ht => ?_, hchain⟩⟩
        · cases ht
          exact hdue
        · rw [← hnext]
          exact hfirst t ht
      · rename_i hnot
        rw [← step_not_decides hstep (Bool.not_eq_true _ ▸ hnot)]
        exact ⟨hfirst, hchain⟩

/-- At most one thread refreshes, namely one while the flag is set; a thread that stops refreshing
takes the flag back, and two successive decisions are an interval apart. -/
theorem degraded_refresh_single_flight {cfg : Config} {managed : ManagedDatastore}
    {calls : List (WaitArgs × ℚ)} {as : List Action} {w : World}
    (hrun : run (step cfg) (World.initWaiting managed calls) as = some w) :
    w.clients.countP Client.refreshing ≤ 1 ∧
    (w.clients.countP Client.refreshing = 1 ↔ w.env.shared.degradedRefreshInProgress = true) ∧
    (∀ a w' (i : Nat) c c', step cfg w a = some w' → w.clients[i]? = some c →
      w'.clients[i]? = some c' → c.refreshing = true → c'.refreshing = false →
        w'.env.shared.degradedRefreshInProgress = false) ∧
    (decisionTimes cfg (World.initWaiting managed calls) as).IsChain fun t t' =>
      t + cfg.degradedRefreshInterval ≤ t' := by
  have hflight : w.clients.countP Client.refreshing =
      w.env.shared.degradedRefreshInProgress.toNat :=
    run_invariant_of_step (I := SingleFlight) (fun _ _ _ hw => hw.step) (.init managed calls) hrun
  refine ⟨hflight ▸ Bool.toNat_le _, ?_, fun a w' i c c' h hc hc' => flag_cleared h hc hc',
    (decisionTimes_spaced cfg _ as).2⟩
  rw [hflight]
  cases w.env.shared.degradedRefreshInProgress <;> simp

def degraded : Config := { nativeLongPoll := false }

def twoWaiters : World :=
  .initWaiting (.init 0 0 0) (List.replicate 2 ({ path := pollPath, etag := py "1" }, 15))

/-- The first waiter refreshes, the second waits for it; the refresh ends in an exception that the
waiter does not handle, and half a second later the second waiter refreshes. -/
def failedRefreshRun : List Action :=
  [.client 0 .go, .client 1 .go, .client 0 .go, .client 0 (.opener none 0),
    .client 0 (.raise ⟨.responseFrameError, []⟩ true none), .client 0 .go, .client 0 .go,
    .client 0 .go, .client 1 .go, .tick (1 / 2), .client 1 .go]

theorem degraded_refresh_after_failure :
    ∃ w, run (step degraded) twoWaiters failedRefreshRun = some w ∧
      w.env.shared.degradedRefreshInProgress = true ∧ w.clients.countP Client.refreshing = 1 ∧
      decisionTimes degraded twoWaiters failedRefreshRun = [0, 1 / 2] ∧
      (decisionTimes degraded twoWaiters failedRefreshRun).IsChain fun t t' => t + 1 / 2 ≤ t' := by
  have hfacts : (run (step degraded) twoWaiters failedRefreshRun).map
      (·.env.shared.degradedRefreshInProgress) = some true := by decide +kernel
  have htimes : decisionTimes degraded twoWaiters failedRefreshRun = [0, 1 / 2] := by
    decide +kernel
  obtain ⟨w, hw, hflag⟩ := Option.map_eq_some_iff.mp hfacts
  obtain ⟨-, hone, -, hchain⟩ := degraded_refresh_single_flight hw
  exact ⟨w, hw, hflag, hone.mpr hflag, htimes, hchain⟩

end Coordinator

end MotuProxy
