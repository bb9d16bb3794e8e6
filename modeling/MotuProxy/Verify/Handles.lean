import MotuProxy.Lib.Proc
import MotuProxy.Model.Handles
import MotuProxy.Verify.Lifecycle

/-! # No descriptor is leaked or used after it was closed

The descriptors that the proxy has open are those of the context that was entered and not exited, of
which there is at most one (`Handled`). A context that cannot be entered leaves none behind,
whatever step of it fails, and so does one that is exited.
-/

namespace MotuProxy

open Py

namespace Datastore

open Device SystemProc

/-! ## The contexts -/

/-- The transport has the one descriptor that is open, and the claim of its interface. -/
def Holds (t : UsbFsTransport) (k : Descriptors) : Prop :=
  ∃ fd, t.fd = some fd ∧ k = { opened := [fd], claimed := [(fd, t.device.interface)] }

/-- No descriptor but this one is open, and no claim goes through another. -/
structure Only (fd : Nat) (k : Descriptors) : Prop where
  opened : k.opened = [fd]
  claimed : ∀ c ∈ k.claimed, c.1 = fd
  stale : k.stale = false

section
variable {t : UsbFsTransport} {sys : SystemCalls} {fd : Nat} {interface : Int}
  {E : Exn → Descriptors → Prop}

theorem Holds.only (h : Holds t k) (hfd : t.fd = some fd) : Only fd k := by
  obtain ⟨fd', hfd', rfl⟩ := h
  cases hfd.symm.trans hfd'
  exact ⟨rfl, by simp, rfl⟩

/-- A call on the one open descriptor. -/
theorem onDescriptor_only {P : Descriptors → Prop} {apply : Descriptors → Descriptors}
    {Q : Descriptors → Prop} (hP : ∀ k, P k → Only fd k) (hQ : ∀ k, P k → Q (apply k))
    (hE : ∀ exc k, raised = some exc → P k → E exc k) :
    Triple P (onDescriptor fd raised apply) (fun _ => Q) E := by
  intro k hk
  have hopen : fd ∈ k.opened := by simp [(hP k hk).opened]
  unfold onDescriptor
  simp only [hopen, if_true]
  cases raised with
  | none => exact hQ k hk
  | some exc => exact hE exc k rfl hk

theorem raiseIf_keeps {P : Descriptors → Prop} (raised : Option Exn) :
    Triple P (raiseIf raised) (fun _ => P) (fun _ => P) := by
  cases raised with
  | none => exact Triple.pure fun _ h => h
  | some exc => exact Triple.throw fun _ h => h

/-- `os.close` gives back the descriptor and the claims through it, whatever it reports. -/
theorem osClose_only (raised : Option Exn) :
    Triple (Only fd) (osClose fd raised) (fun _ k => k = {}) (fun _ k => k = {}) := by
  refine Triple.bind (Q := fun _ k => k = {}) ?_ fun _ => raiseIf_keeps raised
  refine onDescriptor_only (fun _ h => h) (fun k h => ?_) fun _ _ hraised => by cases hraised
  have hclaimed : k.claimed.filter (·.1 ≠ fd) = [] :=
    List.filter_eq_nil_iff.2 fun c hc => by simp [h.claimed c hc]
  simp only [h.opened, hclaimed, h.stale, List.erase_cons_head]

theorem osOpen_only (outcome : Except Exn Nat) :
    Triple (· = {}) (osOpen outcome) (fun fd k => k = { opened := [fd] }) (fun _ k => k = {}) := by
  rintro _ rfl
  cases outcome <;> rfl

/-- `__enter__` gets the descriptor with the claim of the interface, or leaves nothing behind. -/
theorem enter_holds :
    Triple (· = {}) (t.enter sys) (fun t' k => Holds t' k) (fun _ k => k = {}) := by
  refine Triple.bind (osOpen_only sys.opened) fun fd => ?_
  refine Triple.bind (Q := fun _ k => k = { opened := [fd], claimed := [(fd, t.device.interface)] })
    ?_ fun _ => Triple.pure fun k hk => ⟨fd, rfl, hk⟩
  have honly : ∀ k : Descriptors, k = { opened := [fd] } → Only fd k := by
    rintro _ rfl
    exact ⟨rfl, by simp, rfl⟩
  refine Triple.catching (R := fun _ k => k = { opened := [fd] }) ?_ fun exc => ?_
  · refine onDescriptor_only honly (fun k hk => ?_) fun _ _ _ hk => hk
    rw [hk]
    rfl
  · refine Triple.bind (Q := fun _ k => k = {}) ?_ fun _ => Triple.throw fun _ hk => hk
    exact (osClose_only sys.closed).conseq honly (fun _ _ hk => hk) fun _ _ hk => hk

/-- `__exit__` leaves nothing behind, whatever it raises. -/
theorem exit_holds : Triple (Holds t) (t.exit sys) (fun _ k => k = {}) (fun _ k => k = {}) := by
  unfold UsbFsTransport.exit
  cases hfd : t.fd with
  | none =>
    rintro k ⟨fd, hfd', -⟩
    cases hfd.symm.trans hfd'
  | some fd =>
    refine Triple.bind (Q := fun _ k => k = {}) ?_ fun _ => Triple.pure fun _ hk => hk
    refine Triple.finalizing (Q := fun _ => Only fd) (R := fun _ => Only fd) ?_
      (fun _ => osClose_only sys.closed) fun _ => osClose_only sys.closed
    refine onDescriptor_only (fun k hk => hk.only hfd) (fun k hk => ?_) fun _ k _ hk => hk.only hfd
    have honly := hk.only hfd
    exact ⟨honly.opened, fun c hc => honly.claimed c (List.mem_of_mem_erase hc), honly.stale⟩

/-- The transfers of an operation are on the descriptor of its transport. -/
theorem transfer_holds : Triple (Holds t) (t.transfer sys) (fun _ => Holds t) (fun _ => Holds t) := by
  unfold UsbFsTransport.transfer
  cases hfd : t.fd with
  | none =>
    rintro k ⟨fd, hfd', -⟩
    cases hfd.symm.trans hfd'
  | some fd => exact onDescriptor_only (fun k hk => hk.only hfd) (fun _ hk => hk) fun _ _ _ hk => hk

/-- The context is entered with its descriptor, or it leaves nothing behind. -/
theorem openDatastore_holds {noInit : Bool} :
    Triple (· = {}) (openDatastore noInit sys) (fun t k => Holds t k) (fun _ k => k = {}) := by
  have hfound : Triple (· = ({} : Descriptors)) (liftFound sys.found) (fun _ k => k = {})
      (fun _ k => k = {}) := by
    cases h : sys.found with
    | error exc => exact Triple.throw fun _ hk => hk
    | ok device => exact Triple.pure fun _ hk => hk
  refine Triple.bind hfound fun device => Triple.bind enter_holds fun transport => ?_
  refine Triple.bind (Q := fun _ => Holds transport) ?_ fun _ => Triple.pure fun _ hk => hk
  refine Triple.catching (R := fun _ => Holds transport) ?_ fun exc => ?_
  · refine Triple.bind (raiseIf_keeps sys.constructed) fun _ => ?_
    exact Triple.ite (fun _ => transfer_holds) fun _ => Triple.pure fun _ hk => hk
  · exact Triple.bind exit_holds fun _ => Triple.throw fun _ hk => hk

end

/-! ## The live context -/

/-- The live context of a holder of the operation lock. -/
def Core.live (k : Core) (owner : Option LifecycleThread) : Option Nat :=
  (owner.bind (·.context?)).or k.state.context

section
variable {k k' : Core} {t t' : LifecycleThread}

/-- Nothing is entered or exited but by a call of the environment. -/
theorem CoreStep.live_plain (h : CoreStep now outcome k t k' t') (hk : Sound k t.owner)
    (hcall : t.environmentCall = none ∨ t.environmentCall = some .opener) :
    k'.live t'.owner = k.live t.owner := by
  cases h with
  | unavailable h | reconnect h | present h =>
    rcases checkSession_cases h with ⟨-, rfl⟩ | ⟨-, -, -, -, -, rfl⟩ | ⟨_, -, -, rfl⟩ |
      ⟨-, -, -, -, rfl⟩ <;> rfl
  | @failed _ exc =>
    obtain ⟨hcontext, -⟩ := openFailed_fields k.state now exc
    exact hcontext
  | install =>
    obtain ⟨-, hnone, -⟩ := hk.fits _ rfl
    rfl
  | discard _ hcontext | closeDrop hcontext => exact hcontext.symm
  | discardNone _ hcontext => cases hk.context_of_lost.symm.trans hcontext
  | closeDone hcontext => exact hcontext.symm
  | entered | enterRaised | rejected | exited | closeExited | returned | lost =>
    rcases hcall with hcall | hcall <;> cases hcall
  | _ => rfl

/-- No context is live while one is being entered. -/
theorem Sound.live_entering (hk : Sound k (LifecycleThread.call m (.entering c)).owner) :
    k.live (LifecycleThread.call m (.entering c)).owner = none := by
  obtain ⟨⟨-, hnone, -⟩, -⟩ := hk.fits _ rfl
  exact hk.paired.trans hnone

/-- The operation of a call is on the live context. -/
theorem Sound.live_operating (hk : Sound k (LifecycleThread.call m (.operating d)).owner) :
    k.live (LifecycleThread.call m (.operating d)).owner = some d :=
  hk.paired.trans (hk.fits _ rfl)

theorem CoreStep.live_operating (h : CoreStep now outcome k (.call m (.operating d)) k' t') :
    k'.live t'.owner = k.live (LifecycleThread.call m (.operating d)).owner := by
  cases h <;> rfl

/-- It is the live context that is exited, and then there is none. -/
theorem CoreStep.live_exit (h : CoreStep now outcome k t k' t') (hk : Sound k t.owner)
    (hcall : t.environmentCall = some (.exit c)) :
    k.live t.owner = some c ∧ k'.live t'.owner = none := by
  cases h with
  | rejected => exact (hk.fits _ rfl).elim
  | exited =>
    obtain ⟨-, hnone, -⟩ := hk.fits _ rfl
    cases hcall
    exact ⟨rfl, hk.paired.trans hnone⟩
  | closeExited =>
    obtain ⟨-, hnone⟩ := hk.fits _ rfl
    cases hcall
    exact ⟨rfl, hk.paired.trans hnone⟩
  | _ => cases hcall

end

namespace LifecycleWorld

variable {w w' : LifecycleWorld} {i : Nat} {t : LifecycleThread}

theorem live_eq (w : LifecycleWorld) : w.live = w.core.live w.owner := rfl

/-- A step of a thread, seen from the operation lock. -/
theorem step_owner (hw : w.Valid) (hi : w.threads[i]? = some t) (hcall : t.environmentCall.isSome)
    (h : w.step (.thread i outcome) = some w') : ∃ t', w'.threads[i]? = some t' ∧
      CoreStep w.now outcome w.core t w'.core t' ∧ w.live = w.core.live t.owner ∧
      w'.live = w'.core.live t'.owner ∧ Sound w.core t.owner := by
  obtain ⟨t₀, t', h₀, hm⟩ := step_thread h
  cases hi.symm.trans h₀
  have hholds : t.holds = true := by
    cases t with
    | call m pc => cases pc <;> first | rfl | cases hcall
    | close pc => cases pc <;> first | rfl | cases hcall
    | status r => cases hcall
  obtain ⟨howner, howner'⟩ := hw.owner_moves hi hm (.inl hholds)
  refine ⟨t', ?_, hm.core, by rw [live_eq, howner], by rw [live_eq, howner'], howner ▸ hw.sound⟩
  rw [hm.threads]
  exact List.getElem?_set_self (List.getElem?_eq_some_iff.mp hi).1

theorem live_plain (hw : w.Valid) (hi : w.threads[i]? = some t)
    (hcall : t.environmentCall = none ∨ t.environmentCall = some .opener)
    (h : w.step (.thread i outcome) = some w') : w'.live = w.live := by
  obtain ⟨t₀, t', h₀, hm⟩ := step_thread h
  cases hi.symm.trans h₀
  by_cases hlock : t.holds = true ∨ t'.holds = true
  · obtain ⟨howner, howner'⟩ := hw.owner_moves hi hm hlock
    rw [live_eq, live_eq, howner, howner']
    exact hm.core.live_plain (howner ▸ hw.sound) hcall
  · obtain ⟨ht, ht'⟩ : t.holds = false ∧ t'.holds = false := by simpa using hlock
    rw [live_eq, live_eq, hw.owner_idle hi hm ht ht', (hm.core.idle ht ht').1]

/-- What entering a context makes of the live one. -/
theorem live_enter (hw : w.Valid) (hi : w.threads[i]? = some t)
    (hcall : t.environmentCall = some (.enter c)) (h : w.step (.thread i outcome) = some w') :
    w.live = none ∧ w'.live = if outcome = .returned then some c else none := by
  obtain ⟨m, rfl⟩ : ∃ m, t = .call m (.entering c) := by
    cases t with
    | call m pc => cases pc <;> first | (cases hcall; done) | (cases hcall; exact ⟨m, rfl⟩)
    | close pc => cases pc <;> cases hcall
    | status r => cases hcall
  obtain ⟨t', ht', -, hlive, hlive', hsound⟩ := step_owner hw hi (by rw [hcall]; rfl) h
  have hlt := (List.getElem?_eq_some_iff.mp hi).1
  refine ⟨hlive.trans hsound.live_entering, ?_⟩
  simp only [step, hi, stepCall] at h
  cases outcome with
  | returned =>
    cases h
    rw [List.getElem?_set_self hlt] at ht'
    cases ht'
    exact hlive'
  | raised exc =>
    cases h
    rw [List.getElem?_set_self hlt] at ht'
    cases ht'
    exact hlive'.trans hsound.live_entering

theorem live_operation (hw : w.Valid) (hi : w.threads[i]? = some t)
    (hcall : t.environmentCall = some (.operation d)) (h : w.step (.thread i outcome) = some w') :
    w.live = some d ∧ w'.live = some d := by
  obtain ⟨m, rfl⟩ : ∃ m, t = .call m (.operating d) := by
    cases t with
    | call m pc => cases pc <;> first | (cases hcall; done) | (cases hcall; exact ⟨m, rfl⟩)
    | close pc => cases pc <;> cases hcall
    | status r => cases hcall
  obtain ⟨t', -, hcore, hlive, hlive', hsound⟩ := step_owner hw hi (by rw [hcall]; rfl) h
  have hd := hsound.live_operating
  exact ⟨hlive.trans hd, hlive'.trans (hcore.live_operating.trans hd)⟩

theorem live_exit (hw : w.Valid) (hi : w.threads[i]? = some t)
    (hcall : t.environmentCall = some (.exit c)) (h : w.step (.thread i outcome) = some w') :
    w.live = some c ∧ w'.live = none := by
  obtain ⟨t', -, hcore, hlive, hlive', hsound⟩ := step_owner hw hi (by rw [hcall]; rfl) h
  obtain ⟨h₁, h₂⟩ := hcore.live_exit hsound hcall
  exact ⟨hlive.trans h₁, hlive'.trans h₂⟩

end LifecycleWorld

/-! ## The system -/

namespace HandleWorld

variable {w w' : HandleWorld} {i : Nat} {sys : SystemCalls} {t : LifecycleThread}

/-- The live context has the one open descriptor, and without one no descriptor is open. -/
structure Handled (w : HandleWorld) : Prop where
  valid : w.lifecycle.Valid
  idle : w.lifecycle.live = none → w.descriptors = {}
  held : ∀ c, w.lifecycle.live = some c →
    ∃ t, w.transports.lookup c = some t ∧ Holds t w.descriptors

theorem environment_lifecycle {call : EnvironmentCall}
    (h : w.environment sys call = some (outcome, w₁)) : w₁.lifecycle = w.lifecycle := by
  have hrun {α : Type} {proc : SystemProc α} {keep : α → List (Nat × UsbFsTransport)}
      (h : w.runCall proc keep = (outcome, w₁)) : w₁.lifecycle = w.lifecycle := by
    unfold runCall at h
    split at h <;> cases h <;> rfl
  cases call with
  | opener => cases h; rfl
  | enter c => exact hrun (Option.some.inj h)
  | operation d | exit c =>
    simp only [environment, Option.bind_eq_bind, Option.bind_eq_some_iff, pure,
      Option.some.injEq] at h
    obtain ⟨t, -, h⟩ := h
    exact hrun h

/-- A step with a call of the environment. -/
theorem Handled.environment {call : EnvironmentCall} {lifecycle : LifecycleWorld} (hw : Handled w)
    (hi : w.lifecycle.threads[i]? = some t) (hcall : t.environmentCall = some call)
    (h : w.environment sys call = some (outcome, w₁))
    (hstep : w.lifecycle.step (.thread i outcome) = some lifecycle) :
    Handled { w₁ with lifecycle } := by
  have hvalid := (hw.valid.step hstep).1
  cases call with
  | opener =>
    cases h
    have hlive := LifecycleWorld.live_plain hw.valid hi (.inr hcall) hstep
    exact ⟨hvalid, fun hnone => hw.idle (hlive.symm.trans hnone),
      fun c hc => hw.held c (hlive.symm.trans hc)⟩
  | enter c =>
    obtain ⟨hnone, hlive⟩ := LifecycleWorld.live_enter hw.valid hi hcall hstep
    have hopen := @openDatastore_holds sys w.noInit w.descriptors (hw.idle hnone)
    simp only [HandleWorld.environment, runCall] at h
    split at h
    · next t k hr =>
      rw [hr] at hopen
      cases h
      rw [if_pos rfl] at hlive
      refine ⟨hvalid, fun hnone => (by cases hlive.symm.trans hnone), fun c' hc' => ?_⟩
      cases hlive.symm.trans hc'
      exact ⟨t, by simp, hopen⟩
    · next exc k hr =>
      rw [hr] at hopen
      cases h
      rw [if_neg (by simp)] at hlive
      exact ⟨hvalid, fun _ => hopen, fun c' hc' => (by cases hlive.symm.trans hc')⟩
  | operation d =>
    obtain ⟨hlive, hlive'⟩ := LifecycleWorld.live_operation hw.valid hi hcall hstep
    obtain ⟨t, ht, hheld⟩ := hw.held d hlive
    have htransfer := @transfer_holds t sys w.descriptors hheld
    simp only [HandleWorld.environment, ht, Option.bind_eq_bind, Option.bind_some, pure,
      Option.some.injEq, runCall] at h
    split at h <;> next hr =>
      rw [hr] at htransfer
      cases h
      refine ⟨hvalid, fun hnone => (by cases hlive'.symm.trans hnone), fun c' hc' => ?_⟩
      cases hlive'.symm.trans hc'
      exact ⟨t, ht, htransfer⟩
  | exit c =>
    obtain ⟨hlive, hlive'⟩ := LifecycleWorld.live_exit hw.valid hi hcall hstep
    obtain ⟨t, ht, hheld⟩ := hw.held c hlive
    have hexit := @exit_holds t sys w.descriptors hheld
    simp only [HandleWorld.environment, ht, Option.bind_eq_bind, Option.bind_some, pure,
      Option.some.injEq, runCall] at h
    split at h <;> next hr =>
      rw [hr] at hexit
      cases h
      exact ⟨hvalid, fun _ => hexit, fun c' hc' => (by cases hlive'.symm.trans hc')⟩

theorem Handled.thread (hw : Handled w) (h : w.stepThread i sys = some w') : Handled w' := by
  simp only [stepThread, Option.bind_eq_bind, Option.bind_eq_some_iff, pure,
    Option.some.injEq] at h
  obtain ⟨t, hi, ⟨outcome, w₁⟩, henv, lifecycle, hstep, rfl⟩ := h
  unfold callOf at henv
  cases hcall : t.environmentCall with
  | none =>
    simp only [hcall, Option.some.injEq, Prod.mk.injEq] at henv
    obtain ⟨rfl, rfl⟩ := henv
    have hlive := LifecycleWorld.live_plain hw.valid hi (.inl hcall) hstep
    exact ⟨(hw.valid.step hstep).1, fun hnone => hw.idle (hlive.symm.trans hnone),
      fun c hc => hw.held c (hlive.symm.trans hc)⟩
  | some call =>
    simp only [hcall] at henv
    rw [environment_lifecycle henv] at hstep
    exact hw.environment hi hcall henv hstep

/-- A request, or the time, makes no system call. -/
theorem Handled.plain {a : LifecycleWorld.Action} {lifecycle : LifecycleWorld} (hw : Handled w)
    (h : w.lifecycle.step a = some lifecycle) (hlive : lifecycle.live = w.lifecycle.live) :
    Handled { w with lifecycle } :=
  ⟨(hw.valid.step h).1, fun hnone => hw.idle (hlive.symm.trans hnone),
    fun c hc => hw.held c (hlive.symm.trans hc)⟩

theorem live_request {a : Action} {b : LifecycleWorld.Action} {v v' : LifecycleWorld}
    (hv : v.Valid) (hplain : a.plain = some b) (h : v.step b = some v') : v'.live = v.live := by
  have hspawn (t : LifecycleThread) :
      LifecycleWorld.live { v with threads := v.threads ++ [t] } = v.live := by
    rw [LifecycleWorld.live, LifecycleWorld.live, hv.owner_spawn t]
  cases a with
  | tick later =>
    cases hplain
    simp only [LifecycleWorld.step] at h
    split at h <;> cases h
    rfl
  | call | status | close =>
    cases hplain
    cases h
    exact hspawn _
  | thread => cases hplain

theorem Handled.step {a : Action} (hw : Handled w) (h : w.step a = some w') : Handled w' := by
  have hrequest (h : (do
      let lifecycle ← w.lifecycle.step (← a.plain)
      return { w with lifecycle }) = some w') : Handled w' := by
    simp only [Option.bind_eq_bind, Option.bind_eq_some_iff, pure, Option.some.injEq] at h
    obtain ⟨b, hplain, lifecycle, hstep, rfl⟩ := h
    exact hw.plain hstep (live_request hw.valid hplain hstep)
  cases a with
  | thread i sys =>
    simp only [HandleWorld.step] at h
    split at h
    · exact hw.thread h
    · cases h
  | _ => exact hrequest h

theorem Handled.init (noInit : Bool) (initialDelay maxDelay configurationErrorRetryDelay : ℚ) :
    Handled (.init noInit initialDelay maxDelay configurationErrorRetryDelay) :=
  ⟨.init _ _ _, fun _ => rfl, fun c hc => (by cases hc)⟩

/-- The descriptors of the device, in every interleaving of the calls of the managed datastore and
for every outcome of every system call: none is used or closed after it was closed; those open are
the one of the context that was entered and not exited, with the claim of its interface and of
nothing else; a thread in an operation works on that one; and between the calls none is open
without a session, so none at all once `close` has returned. Not among these uses is
`UsbFsCancellableBulkRead.cancel`, which `DatastoreCoordinator.close` calls outside the locks of the
managed datastore. -/
theorem usb_handles {noInit : Bool} (hrun : run HandleWorld.step
      (.init noInit initialDelay maxDelay configurationErrorRetryDelay) as = some w) :
    w.descriptors.stale = false ∧
    (∀ c, w.lifecycle.live = some c → ∃ t fd, w.transports.lookup c = some t ∧ t.fd = some fd ∧
      w.descriptors.opened = [fd] ∧ w.descriptors.claimed = [(fd, t.device.interface)]) ∧
    (w.lifecycle.live = none → w.descriptors.opened = [] ∧ w.descriptors.claimed = []) ∧
    (∀ m d, .call m (.operating d) ∈ w.lifecycle.threads → w.lifecycle.live = some d) ∧
    ((∀ t ∈ w.lifecycle.threads, t.holds = false) →
      (w.descriptors.opened = [] ↔ w.lifecycle.state.datastore = none) ∧
      (.close .done ∈ w.lifecycle.threads → w.descriptors.opened = [])) := by
  have hw : Handled w := run_invariant_of_step (fun _ _ _ hw h => hw.step h) (.init _ _ _ _) hrun
  have hheld {c : Nat} (hc : w.lifecycle.live = some c) : ∃ t fd, w.transports.lookup c = some t ∧
      t.fd = some fd ∧ w.descriptors.opened = [fd] ∧
      w.descriptors.claimed = [(fd, t.device.interface)] := by
    obtain ⟨t, ht, fd, hfd, hk⟩ := hw.held c hc
    exact ⟨t, fd, ht, hfd, by rw [hk], by rw [hk]⟩
  have hidle (hnone : w.lifecycle.live = none) :
      w.descriptors.opened = [] ∧ w.descriptors.claimed = [] := by
    rw [hw.idle hnone]
    exact ⟨rfl, rfl⟩
  refine ⟨?_, fun c => hheld, hidle, fun m d hmem => ?_, fun hfree => ?_⟩
  · cases hlive : w.lifecycle.live with
    | none => rw [hw.idle hlive]
    | some c =>
      obtain ⟨t, -, fd, -, hk⟩ := hw.held c hlive
      rw [hk]
  · obtain ⟨i, hi⟩ := List.getElem?_of_mem hmem
    have howner := hw.valid.owner_eq hi rfl
    have hfits := hw.valid.sound.fits _ howner
    rw [LifecycleWorld.live, howner]
    exact hw.valid.sound.paired.trans hfits
  · have howner : w.lifecycle.owner = none := by
      cases hlock : w.lifecycle.operationLock with
      | none => exact owner_none hlock
      | some i =>
        have hlt := hw.valid.bound i hlock
        have hi := List.getElem?_eq_getElem hlt
        have hholds := (hw.valid.holder i _ hi).2 hlock
        rw [hfree _ (List.getElem_mem hlt)] at hholds
        cases hholds
    have hlive : w.lifecycle.live = w.lifecycle.state.datastore := by
      rw [LifecycleWorld.live, howner]
      exact hw.valid.sound.paired
    have hiff : w.descriptors.opened = [] ↔ w.lifecycle.state.datastore = none := by
      constructor
      · intro hnil
        cases hd : w.lifecycle.state.datastore with
        | none => rfl
        | some d =>
          obtain ⟨t, fd, -, -, hopened, -⟩ := hheld (hlive.trans hd)
          cases hnil.symm.trans hopened
      · exact fun hnone => (hidle (hlive.trans hnone)).1
    exact ⟨hiff, fun hdone => hiff.2 (hw.valid.sound.closed (hw.valid.finished hdone).1).1⟩

/-- A session whose device is lost, with a release that fails, an interface that is busy, and the
end. -/
def busyRun : List Action :=
  let device : UsbDeviceInfo :=
    { sysfsPath := [], devfsPath := [], serial := [], product := [], interface := 2, epOut := 1
      epIn := 1, maxPacketSize := 512 }
  [.call .get, .thread 0 {}, .thread 0 {}, .thread 0 {},
    .thread 0 { found := .ok device, opened := .ok 7 }, .thread 0 {},
    .thread 0 { transferred := some ⟨.osError 19, []⟩ }, .thread 0 {},
    .thread 0 { released := some ⟨.osError 19, []⟩ }, .thread 0 {},
    .call .post, .thread 1 {}, .thread 1 {}, .thread 1 {},
    .thread 1 { found := .ok device, opened := .ok 7, claimed := some ⟨.osError 16, []⟩ },
    .thread 1 {}, .thread 1 {}, .close, .thread 2 {}, .thread 2 {}]

theorem usb_handles_busy : ∃ w, run HandleWorld.step (.init true 0 0 0) busyRun = some w ∧
    w.lifecycle.log = [.entered 0, .exited 0] ∧ w.descriptors.stale = false ∧
    w.descriptors.opened = [] := by
  have hfacts : (run HandleWorld.step (.init true 0 0 0) busyRun).map (fun w =>
      (w.lifecycle.log, w.lifecycle.threads.all (!·.holds), w.lifecycle.threads[2]?)) =
      some ([.entered 0, .exited 0], true, some (.close .done)) := by decide +kernel
  obtain ⟨w, hw, hfacts⟩ := Option.map_eq_some_iff.mp hfacts
  simp only [Prod.mk.injEq] at hfacts
  obtain ⟨hlog, hfree, hdone⟩ := hfacts
  obtain ⟨hstale, -, -, -, hbetween⟩ := usb_handles hw
  refine ⟨w, hw, hlog, hstale, ?_⟩
  refine (hbetween fun t ht => ?_).2 (List.mem_of_getElem? hdone)
  simpa using List.all_eq_true.mp hfree t ht

end HandleWorld

end Datastore

end MotuProxy
