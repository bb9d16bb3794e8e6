import MotuProxy.Model.UsbFs

/-! # The URB of a cancellable read

From the submission on, the URB of a read is pending in the kernel or completed, until the reader
reaps it: `At` says for each program counter of the reader where the URB is. What the other threads,
the kernel and the clock do (`Rely`) does not disturb this, since only the reader reaps. The reader
leaves a URB behind at four places: the wake-up pipe cannot be made, `poll` fails, a signal arrives
in the blocking reap, or the reader looks at the error of a failed discard before the canceller has
stored it. `urb_reaped_iff` says that there are no others.
-/

namespace MotuProxy

namespace UsbFs

/-! ## Where the URB is -/

/-- There is no URB on the file descriptor. -/
structure Kernel.Idle (k : Kernel) : Prop where
  pending : k.pending = []
  completed : k.completed = []

/-- The one URB on the file descriptor is that of the read. -/
def Live (s : Shared) : Prop :=
  s.kernel.pending = [s.address] ∧ s.kernel.completed = [] ∨
    s.kernel.pending = [] ∧ ∃ c, s.kernel.completed = [(s.address, c)]

/-- The URB of the read is still in the kernel. -/
def Left (s : Shared) : Prop :=
  s.address ∈ s.kernel.pending ∨ ∃ c, (s.address, c) ∈ s.kernel.completed

/-- An error of a discard: the device is gone, or the URB is not pending any more. -/
def ErrnoOk (s : Shared) (errno : Nat) : Prop :=
  errno = ENODEV ∧ s.noDevice = true ∨
    (errno = EINVAL ∨ errno = ENOENT) ∧ s.read.submitted = true ∧ s.kernel.pending = []

/-- What a call of `cancel` knows. -/
def CancelAt (s : Shared) : CancelPc → Prop
  | .discard => s.read.submitted = true
  | .discardFailed errno | .discardErrno errno => ErrnoOk s errno
  | _ => True

/-- What the reader knows, as long as it takes no step that leaves the URB behind. -/
def At (s : Shared) : ReadPc → Prop
  | .start | .submit => s.kernel.Idle ∧ s.read.submitted = false
  | .markSubmitted => Live s ∧ s.read.submitted = false
  | .cancelling pc _ => Live s ∧ CancelAt s pc
  | .checkCancel | .deadline | .openWakeup | .reap | .checkRequested | .checkDeadline
  | .markTimedOut | .wait | .poll | .drain | .finish | .finishErrno | .reapBlocking => Live s
  | .raceReap => Live s ∧ s.kernel.pending = []
  | .giveUp => s.noDevice = true
  | .accept urb => s.kernel.Idle ∧ urb = s.address
  | .closeWakeup (some _) => s.noDevice = true
  | .markReaped | .closeWakeup none | .checkTimedOut | .checkCancelled | .done _ =>
    s.kernel.Idle ∨ s.noDevice = true

theorem not_left_of_idle (h : s.kernel.Idle) : ¬Left s := by
  rintro (hp | ⟨c, hc⟩)
  · simp [h.pending] at hp
  · simp [h.completed] at hc

theorem Live.left (h : Live s) : Left s := by
  rcases h with ⟨hp, -⟩ | ⟨-, c, hc⟩
  · exact .inl (by simp [hp])
  · exact .inr ⟨c, by simp [hc]⟩

/-- A URB that is not pending can be reaped at once. -/
theorem Live.reapNdelay (h : Live s) (hp : s.kernel.pending = []) :
    ∃ c, s.kernel.reapNdelay = .ok ((s.address, c), { s.kernel with completed := [] }) := by
  rcases h with ⟨hpend, -⟩ | ⟨-, c, hc⟩
  · simp [hp] at hpend
  · exact ⟨c, by simp [Kernel.reapNdelay, hc]⟩

/-! ## What the others may do -/

/-- A step of the other threads, the kernel or the clock. -/
structure Rely (s s' : Shared) : Prop where
  address : s'.address = s.address
  submitted : s'.read.submitted = s.read.submitted
  idle : s.kernel.Idle → s'.kernel.Idle
  live : Live s → Live s'
  settled : s.kernel.pending = [] → s'.kernel.pending = []
  noDevice : s.noDevice = true → s'.noDevice = true

/-- What no step takes back. -/
structure Grows (s s' : Shared) : Prop where
  submitted : s.read.submitted = true → s'.read.submitted = true
  settled : s.read.submitted = true → s.kernel.pending = [] → s'.kernel.pending = []
  noDevice : s.noDevice = true → s'.noDevice = true

theorem Rely.grows (h : Rely s s') : Grows s s' :=
  ⟨fun hs => h.submitted.trans hs, fun _ => h.settled, h.noDevice⟩

theorem ErrnoOk.grows (h : ErrnoOk s errno) (hg : Grows s s') : ErrnoOk s' errno := by
  rcases h with ⟨he, hn⟩ | ⟨he, hs, hp⟩
  · exact .inl ⟨he, hg.noDevice hn⟩
  · exact .inr ⟨he, hg.submitted hs, hg.settled hs hp⟩

theorem CancelAt.grows (h : CancelAt s pc) (hg : Grows s s') : CancelAt s' pc := by
  cases pc with
  | discard => exact hg.submitted h
  | discardFailed errno | discardErrno errno => exact ErrnoOk.grows h hg
  | request | check | discarded | wake => trivial

theorem At.rely (h : At s pc) (hr : Rely s s') : At s' pc := by
  cases pc with
  | start | submit => exact ⟨hr.idle h.1, hr.submitted.trans h.2⟩
  | markSubmitted => exact ⟨hr.live h.1, hr.submitted.trans h.2⟩
  | cancelling pc after => exact ⟨hr.live h.1, h.2.grows hr.grows⟩
  | checkCancel | deadline | openWakeup | reap | checkRequested | checkDeadline | markTimedOut
  | wait | poll | drain | finish | finishErrno | reapBlocking => exact hr.live h
  | raceReap => exact ⟨hr.live h.1, hr.settled h.2⟩
  | giveUp => exact hr.noDevice h
  | accept urb => exact ⟨hr.idle h.1, h.2.trans hr.address.symm⟩
  | closeWakeup exc =>
    cases exc with
    | none => exact Or.imp hr.idle hr.noDevice h
    | some e => exact hr.noDevice h
  | markReaped | checkTimedOut | checkCancelled | done => exact Or.imp hr.idle hr.noDevice h

/-- A step that leaves the kernel and the ghosts alone. -/
theorem Rely.of_eq (ha : s'.address = s.address) (hs : s'.read.submitted = s.read.submitted)
    (hk : s'.kernel = s.kernel) (hn : s'.noDevice = s.noDevice) : Rely s s' where
  address := ha
  submitted := hs
  idle h := hk ▸ h
  live h := by rw [Live, ha, hk]; exact h
  settled h := hk ▸ h
  noDevice h := hn.trans h

/-- The kernel completes the URB of the read. -/
theorem Live.complete (h : Live s) (hmem : s.address ∈ s.kernel.pending) (c : Completion) :
    (s.kernel.complete s.address c).pending = [] ∧
      (s.kernel.complete s.address c).completed = [(s.address, c)] := by
  rcases h with ⟨hp, hc⟩ | ⟨hp, -⟩
  · simp [Kernel.complete, hp, hc]
  · simp [hp] at hmem

/-- A step of the kernel on the URB of the read. -/
theorem Rely.complete (hmem : s.address ∈ s.kernel.pending) (ha : s'.address = s.address)
    (hs : s'.read.submitted = s.read.submitted) (hk : s'.kernel = s.kernel.complete s.address c)
    (hn : s'.noDevice = s.noDevice) : Rely s s' where
  address := ha
  submitted := hs
  idle h := by simp [h.pending] at hmem
  live h := by
    rw [Live, ha, hk]
    exact .inr ⟨(h.complete hmem c).1, c, (h.complete hmem c).2⟩
  settled h := by simp [h] at hmem
  noDevice h := hn.trans h

theorem discard_eq (k : Kernel) (urb : Nat) (ch : Choice) :
    (∃ errno, k.discard urb ch = .error errno ∧
      (errno = ENODEV ∨ (errno = EINVAL ∨ errno = ENOENT) ∧ urb ∉ k.pending)) ∨
    urb ∈ k.pending ∧ k.discard urb ch = .ok (k.complete urb ch.completion) := by
  unfold Kernel.discard
  split
  · exact .inl ⟨_, rfl, .inl rfl⟩
  · split
    · exact .inr ⟨‹_›, rfl⟩
    · refine .inl ⟨_, rfl, .inr ⟨?_, ‹_›⟩⟩
      split <;> simp

/-- One step of `cancel`, by whichever thread. -/
theorem cancelStep_spec (hshape : s.kernel.Idle ∨ Live s) (hpc : CancelAt s pc)
    (herrno : ∀ errno, s.read.discardFailureErrno = some errno → ErrnoOk s errno) :
    Rely s (cancelStep s ch pc).2 ∧
    (∀ next, (cancelStep s ch pc).1 = some next → CancelAt (cancelStep s ch pc).2 next) ∧
    ∀ errno, (cancelStep s ch pc).2.read.discardFailureErrno = some errno →
      ErrnoOk (cancelStep s ch pc).2 errno := by
  have hkeep {s' : Shared} (hr : Rely s s')
      (he : s'.read.discardFailureErrno = s.read.discardFailureErrno) :
      ∀ errno, s'.read.discardFailureErrno = some errno → ErrnoOk s' errno :=
    fun errno h => (herrno errno (he ▸ h)).grows hr.grows
  cases pc with
  | request =>
    have hr : Rely s (cancelStep s ch .request).2 := .of_eq rfl rfl rfl rfl
    exact ⟨hr, fun next h => by cases h; trivial, hkeep hr rfl⟩
  | check =>
    by_cases hflags : ¬s.read.submitted ∨ s.read.reaped ∨ s.read.discardSubmitted ∨
      s.read.discardFailedWithoutReap
    · have hx : cancelStep s ch .check = (some .wake, s) := if_pos hflags
      rw [hx]
      exact ⟨.of_eq rfl rfl rfl rfl, fun next h => by cases h; trivial, herrno⟩
    · have hx : cancelStep s ch .check = (some .discard, s) := if_neg hflags
      rw [hx]
      refine ⟨.of_eq rfl rfl rfl rfl, fun next h => ?_, herrno⟩
      cases h
      simp only [not_or, not_not] at hflags
      exact hflags.1
  | discard =>
    rcases discard_eq s.kernel s.address ch with ⟨errno, hd, he⟩ | ⟨hmem, hd⟩
    · have hr : Rely s (s.noted errno) :=
        ⟨rfl, rfl, fun h => h, fun h => h, fun h => h, fun h => by simp [Shared.noted, h]⟩
      simp only [cancelStep, hd]
      refine ⟨hr, fun next h => ?_, hkeep hr rfl⟩
      cases h
      rcases he with rfl | ⟨he, hnot⟩
      · exact .inl ⟨rfl, by simp [Shared.noted]⟩
      · refine .inr ⟨he, hpc, ?_⟩
        rcases hshape with hidle | ⟨hp, -⟩ | ⟨hp, -⟩
        · exact hidle.pending
        · simp [hp] at hnot
        · exact hp
    · simp only [cancelStep, hd]
      have hr : Rely s { s with
          kernel := s.kernel.complete s.address ch.completion
          completion := some ch.completion } := .complete hmem rfl rfl rfl rfl
      exact ⟨hr, fun next h => by cases h; trivial, hkeep hr rfl⟩
  | discarded =>
    have hr : Rely s (cancelStep s ch .discarded).2 := .of_eq rfl rfl rfl rfl
    exact ⟨hr, fun next h => by cases h; trivial, hkeep hr rfl⟩
  | discardFailed errno =>
    have hr : Rely s (cancelStep s ch (.discardFailed errno)).2 := .of_eq rfl rfl rfl rfl
    exact ⟨hr, fun next h => by cases h; exact ErrnoOk.grows hpc hr.grows, hkeep hr rfl⟩
  | discardErrno errno =>
    have hr : Rely s (cancelStep s ch (.discardErrno errno)).2 := .of_eq rfl rfl rfl rfl
    refine ⟨hr, fun next h => by cases h; trivial, fun e h => ?_⟩
    cases h
    exact ErrnoOk.grows hpc hr.grows
  | wake =>
    have hr : Rely s (cancelStep s ch .wake).2 := .of_eq rfl rfl rfl rfl
    exact ⟨hr, fun _ h => absurd h (by simp [cancelStep]), hkeep hr rfl⟩

/-! ## The reader -/

/-- A step that does not leave the URB behind: the pipe can be made, `poll` does not fail, no signal
arrives in the blocking reap, and the error of a failed discard is stored before it is looked at. -/
def Sound (w : World) : Action → Prop
  | .read ch => match w.reader with
    | .openWakeup | .poll => ch.errno = none
    | .reapBlocking => w.shared.kernel.completed = [] → ch.errno ≠ some EINTR
    | .finishErrno => w.shared.read.discardFailureErrno ≠ none
    | _ => True
  | _ => True

instance : Decidable (Sound w a) := by
  unfold Sound
  split
  · split <;> infer_instance
  · infer_instance

/-- What a step of the reader keeps. -/
structure Kept (s s' : Shared) (pc : ReadPc) : Prop where
  at_ : At s' pc
  shape : s'.kernel.Idle ∨ Live s'
  grows : Grows s s'
  errno : ∀ errno, s'.read.discardFailureErrno = some errno → ErrnoOk s' errno

theorem Kept.of_rely (h : At s' pc) (hshape : s.kernel.Idle ∨ Live s) (hr : Rely s s')
    (he : s'.read.discardFailureErrno = s.read.discardFailureErrno)
    (herrno : ∀ errno, s.read.discardFailureErrno = some errno → ErrnoOk s errno) :
    Kept s s' pc where
  at_ := h
  shape := hshape.imp hr.idle hr.live
  grows := hr.grows
  errno e h := (herrno e (he ▸ h)).grows hr.grows

/-- The URB is reaped by the reader. -/
theorem Kept.reaped (h : Live s) (hreap : s.kernel.completed = [(s.address, c)])
    (herrno : ∀ errno, s.read.discardFailureErrno = some errno → ErrnoOk s errno) :
    Kept s (s.filled (s.address, c) { s.kernel with completed := [] }) (.accept s.address) := by
  have hp : s.kernel.pending = [] := by
    rcases h with ⟨-, hc⟩ | ⟨hp, -⟩
    · simp [hc] at hreap
    · exact hp
  have hg : Grows s (s.filled (s.address, c) { s.kernel with completed := [] }) :=
    ⟨fun hs => by simpa [Shared.filled] using hs, fun _ _ => hp, fun hn => hn⟩
  refine ⟨⟨⟨hp, rfl⟩, rfl⟩, .inl ⟨hp, rfl⟩, hg, fun e he => (herrno e ?_).grows hg⟩
  simpa [Shared.filled] using he

/-- A reap that does not block. -/
theorem reapNdelay_cases (h : Live s) :
    (∃ c, s.kernel.completed = [(s.address, c)] ∧
      s.kernel.reapNdelay = .ok ((s.address, c), { s.kernel with completed := [] })) ∨
    s.kernel.pending = [s.address] ∧ s.kernel.completed = [] ∧
      s.kernel.reapNdelay = .error (if s.kernel.gone then ENODEV else EAGAIN) := by
  rcases h with ⟨hp, hc⟩ | ⟨-, c, hc⟩
  · exact .inr ⟨hp, hc, by simp [Kernel.reapNdelay, hc]⟩
  · exact .inl ⟨c, hc, by simp [Kernel.reapNdelay, hc]⟩

theorem noted_rely : Rely s (s.noted errno) :=
  ⟨rfl, rfl, fun h => h, fun h => h, fun h => h, fun h => by simp [Shared.noted, h]⟩

/-- What a step of the reader needs to know about the shared state. -/
structure Known (s : Shared) (pc : ReadPc) : Prop where
  at_ : At s pc
  shape : s.kernel.Idle ∨ Live s
  errno : ∀ errno, s.read.discardFailureErrno = some errno → ErrnoOk s errno

section
variable {s s' : Shared} {ch : Choice} {pc pc' : ReadPc}

/-- A step that changes no more than flags of the reader. -/
theorem Known.kept (h : Known s pc) (hat : At s' pc') (ha : s'.address = s.address)
    (hs : s'.read.submitted = s.read.submitted) (hk : s'.kernel = s.kernel)
    (hn : s'.noDevice = s.noDevice)
    (he : s'.read.discardFailureErrno = s.read.discardFailureErrno) : Kept s s' pc' :=
  .of_rely hat h.shape (.of_eq ha hs hk hn) he h.errno

/-- A step that changes nothing. -/
theorem Known.same (h : Known s pc) (hat : At s pc') : Kept s s pc' := h.kept hat rfl rfl rfl rfl rfl

/-- A system call reports that the device is gone. -/
theorem Known.noted (h : Known s pc) {e : Nat} (hat : At (s.noted e) pc') : Kept s (s.noted e) pc' :=
  .of_rely hat h.shape noted_rely rfl h.errno

theorem submit_kept (h : Known s .submit) (hx : readStep s ch .submit = some (pc', s')) :
    Kept s s' pc' := by
  obtain ⟨⟨hidle, hsub⟩, -, -⟩ := id h
  simp only [readStep, hsub, Bool.false_eq_true, if_false] at hx
  cases hk : s.kernel.submit s.address ch with
  | error errno =>
    rw [hk] at hx
    cases hx
    exact h.noted (.inl hidle)
  | ok kernel =>
    rw [hk] at hx
    cases hx
    have hpend : kernel = { s.kernel with pending := s.kernel.pending ++ [s.address] } := by
      unfold Kernel.submit at hk
      split at hk
      · cases hk
      · split at hk
        · cases hk
        · cases hk; rfl
    have hlive : Live { s with kernel } := .inl (by simp [hpend, hidle.pending, hidle.completed])
    have hg : Grows s { s with kernel } :=
      ⟨fun hs => hs, fun hs => by simp [hsub] at hs, fun hn => hn⟩
    exact ⟨⟨hlive, hsub⟩, .inr hlive, hg, fun e he => (h.errno e he).grows hg⟩

theorem reap_kept (h : Known s .reap) (hx : readStep s ch .reap = some (pc', s')) :
    Kept s s' pc' := by
  have hlive : Live s := h.at_
  rcases reapNdelay_cases hlive with ⟨c, hc, hr⟩ | ⟨-, -, hr⟩
  · simp only [readStep, hr] at hx
    cases hx
    exact .reaped hlive hc h.errno
  · simp only [readStep, hr] at hx
    split at hx
    · cases hx
      refine h.noted ?_
      by_cases hg : s.kernel.gone = true
      · simp [At, Shared.noted]
      · simp [hg, EAGAIN] at *
    · cases hx
      exact h.same hlive

theorem raceReap_kept (h : Known s .raceReap) (hx : readStep s ch .raceReap = some (pc', s')) :
    Kept s s' pc' := by
  obtain ⟨hlive, hpend⟩ : Live s ∧ s.kernel.pending = [] := h.at_
  rcases reapNdelay_cases hlive with ⟨c, hc, hr⟩ | ⟨hp, -, -⟩
  · simp only [readStep, hr] at hx
    cases hx
    exact .reaped hlive hc h.errno
  · simp [hpend] at hp

theorem reapBlocking_kept (h : Known s .reapBlocking)
    (hsound : s.kernel.completed = [] → ch.errno ≠ some EINTR)
    (hx : readStep s ch .reapBlocking = some (pc', s')) : Kept s s' pc' := by
  have hlive : Live s := h.at_
  rcases id hlive with ⟨-, hc⟩ | ⟨-, c, hc⟩
  · have hne : ch.errno ≠ some EINTR := hsound hc
    by_cases hg : s.kernel.gone = true
    · simp only [readStep, Kernel.reap, hc, hne, hg, if_true, if_false] at hx
      cases hx
      exact h.noted (by simp [At, Shared.noted])
    · simp [readStep, Kernel.reap, hc, hne, hg] at hx
  · simp only [readStep, Kernel.reap, hc] at hx
    cases hx
    exact .reaped hlive hc h.errno

theorem markSubmitted_kept (h : Known s .markSubmitted)
    (hx : readStep s ch .markSubmitted = some (pc', s')) : Kept s s' pc' := by
  have hat := h.at_
  simp only [readStep] at hx
  cases hx
  have hlive : Live { s with read := { s.read with submitted := true } } := hat.1
  have hg : Grows s { s with read := { s.read with submitted := true } } :=
    ⟨fun _ => rfl, fun _ hp => hp, fun hn => hn⟩
  exact ⟨hlive, .inr hlive, hg, fun e he => (h.errno e he).grows hg⟩

theorem cancelling_kept {p : CancelPc} {after : AfterCancel} {pc' : ReadPc}
    (h : Known s (.cancelling p after))
    (hx : readStep s ch (.cancelling p after) = some (pc', s')) : Kept s s' pc' := by
  have hat := h.at_
  simp only [readStep, Option.some.injEq, Prod.mk.injEq] at hx
  obtain ⟨rfl, rfl⟩ := hx
  obtain ⟨hrely, hnext, herrno⟩ := @cancelStep_spec s p ch h.shape hat.2 h.errno
  refine ⟨?_, h.shape.imp hrely.idle hrely.live, hrely.grows, herrno⟩
  cases hn : (cancelStep s ch p).1 with
  | none => cases after <;> exact hrely.live hat.1
  | some next => exact ⟨hrely.live hat.1, hnext next hn⟩

/-- The error that the discard reported decides whether the URB is still to be reaped. -/
theorem finishErrno_kept (h : Known s .finishErrno) (hstored : s.read.discardFailureErrno ≠ none)
    (hx : readStep s ch .finishErrno = some (pc', s')) : Kept s s' pc' := by
  have hat := h.at_
  obtain ⟨errno, he⟩ := Option.ne_none_iff_exists'.mp hstored
  simp only [readStep, he, Option.some.injEq] at hx
  rcases h.errno errno he with ⟨rfl, hn⟩ | ⟨hinval, -, hp⟩
  · rw [if_neg (by decide)] at hx
    cases hx
    exact h.same hn
  · rw [if_pos hinval] at hx
    cases hx
    exact h.same ⟨hat, hp⟩

theorem checkCancelled_kept (h : Known s .checkCancelled)
    (hx : readStep s ch .checkCancelled = some (pc', s')) : Kept s s' pc' := by
  have hat := h.at_
  simp only [readStep] at hx
  split at hx
  · cases hx; exact h.same hat
  · split at hx
    · cases hx; exact h.same hat
    · cases hx; exact h.same hat

theorem readStep_kept (h : Known s pc) (hsound : Sound ⟨s, pc, cancels⟩ (.read ch))
    (hx : readStep s ch pc = some (pc', s')) : Kept s s' pc' := by
  have hat := h.at_
  cases pc with
  | submit => exact submit_kept h hx
  | markSubmitted => exact markSubmitted_kept h hx
  | cancelling => exact cancelling_kept h hx
  | reap => exact reap_kept h hx
  | raceReap => exact raceReap_kept h hx
  | reapBlocking => exact reapBlocking_kept h hsound hx
  | finishErrno => exact finishErrno_kept h hsound hx
  | checkCancelled => exact checkCancelled_kept h hx
  | start =>
    simp only [readStep] at hx
    split at hx
    · cases hx; exact h.same (.inl hat.1)
    · cases hx; exact h.same hat
  | checkCancel =>
    simp only [readStep] at hx
    split at hx
    · cases hx; exact h.same ⟨hat, trivial⟩
    · cases hx; exact h.same hat
  | openWakeup =>
    have herr : ch.errno = none := hsound
    simp only [readStep, herr] at hx
    cases hx
    exact h.kept hat rfl rfl rfl rfl rfl
  | poll =>
    have herr : ch.errno = none := hsound
    simp only [readStep, herr] at hx
    split at hx
    · cases hx; exact h.same hat
    · cases hx
  | checkRequested | checkDeadline | wait | finish | checkTimedOut =>
    simp only [readStep] at hx
    split at hx
    · cases hx; exact h.same hat
    · cases hx; exact h.same hat
  | markTimedOut => cases hx; exact h.kept ⟨hat, trivial⟩ rfl rfl rfl rfl rfl
  | deadline | drain | markReaped => cases hx; exact h.kept hat rfl rfl rfl rfl rfl
  | giveUp => cases hx; exact h.kept (.inr hat) rfl rfl rfl rfl rfl
  | accept urb =>
    obtain ⟨hidle, hown⟩ : s.kernel.Idle ∧ urb = s.address := hat
    simp only [readStep, hown, ne_eq, not_true_eq_false, if_false] at hx
    cases hx
    exact h.same (.inl hidle)
  | closeWakeup exc =>
    cases hx
    cases exc with
    | none => exact h.kept hat rfl rfl rfl rfl rfl
    | some e => exact h.kept (.inr hat) rfl rfl rfl rfl rfl
  | done r => cases hx

end

/-! ## All threads -/

structure Inv (w : World) : Prop extends Known w.shared w.reader where
  cancels : ∀ pc ∈ w.cancels, CancelAt w.shared pc

/-- A step of anything but the reader. -/
theorem Inv.of_rely {w w' : World} (h : Inv w) (hreader : w'.reader = w.reader)
    (hr : Rely w.shared w'.shared)
    (herrno : ∀ e, w'.shared.read.discardFailureErrno = some e → ErrnoOk w'.shared e)
    (hcancels : ∀ pc ∈ w'.cancels, CancelAt w'.shared pc) : Inv w' where
  at_ := hreader ▸ h.at_.rely hr
  shape := h.shape.imp hr.idle hr.live
  errno := herrno
  cancels := hcancels

/-- A step that leaves the flags alone. -/
theorem Inv.of_kernel {w : World} {s : Shared} (h : Inv w) (hr : Rely w.shared s)
    (hread : s.read = w.shared.read) : Inv { w with shared := s } :=
  h.of_rely rfl hr (fun e he => (h.errno e (hread ▸ he)).grows hr.grows)
    fun pc hpc => (h.cancels pc hpc).grows hr.grows

/-- Every URB on the file descriptor is that of the read. -/
theorem Inv.urb_eq {w : World} (h : Inv w) (hmem : urb ∈ w.shared.kernel.pending) :
    urb = w.shared.address := by
  rcases h.shape with hidle | ⟨hp, -⟩ | ⟨hp, -⟩
  · simp [hidle.pending] at hmem
  · simpa [hp] using hmem
  · simp [hp] at hmem

theorem step_cancel {w w' : World} (hx : w.step (.cancel i ch) = some w') :
    ∃ pc, w.cancels[i]? = some pc ∧ w'.reader = w.reader ∧
      w'.shared = (cancelStep w.shared ch pc).2 ∧
      ∀ pc' ∈ w'.cancels, pc' ∈ w.cancels ∨ (cancelStep w.shared ch pc).1 = some pc' := by
  simp only [World.step, Option.map_eq_some_iff] at hx
  obtain ⟨pc, hpc, rfl⟩ := hx
  refine ⟨pc, hpc, rfl, rfl, fun pc' hmem => ?_⟩
  cases hn : (cancelStep w.shared ch pc).1 with
  | none =>
    rw [hn] at hmem
    exact .inl (List.mem_of_mem_eraseIdx hmem)
  | some next =>
    rw [hn] at hmem
    rcases List.mem_or_eq_of_mem_set hmem with hmem | rfl
    · exact .inl hmem
    · exact .inr rfl

theorem Inv.step {w w' : World} (h : Inv w) (hsound : Sound w a) (hx : w.step a = some w') :
    Inv w' := by
  cases a with
  | read ch =>
    simp only [World.step, Option.map_eq_some_iff] at hx
    obtain ⟨⟨pc', s'⟩, hstep, rfl⟩ := hx
    have hk := readStep_kept h.toKnown hsound hstep
    exact ⟨⟨hk.at_, hk.shape, hk.errno⟩, fun pc hpc => (h.cancels pc hpc).grows hk.grows⟩
  | call =>
    cases hx
    refine h.of_rely rfl (.of_eq rfl rfl rfl rfl) h.errno fun pc hpc => ?_
    rcases List.mem_append.mp hpc with hpc | hpc
    · exact h.cancels pc hpc
    · cases List.mem_singleton.mp hpc
      trivial
  | cancel i ch =>
    obtain ⟨pc, hpc, hreader, hshared, hcancels⟩ := step_cancel hx
    obtain ⟨hrely, hnext, herrno⟩ := cancelStep_spec h.shape
      (h.cancels pc (List.mem_of_getElem? hpc)) h.errno
    rw [← hshared] at hrely hnext herrno
    refine h.of_rely hreader hrely herrno fun pc' hpc' => ?_
    rcases hcancels pc' hpc' with hmem | hnew
    · exact (h.cancels pc' hmem).grows hrely.grows
    · exact hnext pc' hnew
  | complete urb c =>
    simp only [World.step] at hx
    split at hx
    · rename_i hmem
      cases hx
      cases h.urb_eq hmem
      exact h.of_kernel (.complete hmem rfl rfl rfl rfl) rfl
    · cases hx
  | disconnect =>
    cases hx
    exact h.of_kernel ⟨rfl, rfl, fun hi => ⟨hi.pending, hi.completed⟩, fun hl => hl, fun hp => hp,
      fun hn => hn⟩ rfl
  | expire =>
    cases hx
    exact h.of_kernel (.of_eq rfl rfl rfl rfl) rfl

/-! ## A URB that is left behind -/

/-- The reader is on its way out. -/
def ReadPc.leaving : ReadPc → Bool
  | .giveUp | .closeWakeup _ | .checkTimedOut | .checkCancelled | .done _ => true
  | _ => false

/-- The reader is on its way out, and the URB is still in the kernel. -/
structure Abandoned (w : World) : Prop where
  leaving : w.reader.leaving = true
  live : Live w.shared

theorem cancelStep_live (h : Live s) : Live (cancelStep s ch pc).2 := by
  cases pc with
  | check =>
    unfold cancelStep
    simp only
    split <;> exact h
  | discard =>
    rcases discard_eq s.kernel s.address ch with ⟨errno, hd, -⟩ | ⟨hmem, hd⟩
    · simp only [cancelStep, hd]
      exact h
    · simp only [cancelStep, hd]
      exact .inr ⟨(h.complete hmem _).1, _, (h.complete hmem _).2⟩
  | request | discarded | discardFailed | discardErrno | wake => exact h

/-- Nobody reaps a URB that the reader has left behind. -/
theorem Abandoned.step {w w' : World} (h : Abandoned w) (hx : w.step a = some w') : Abandoned w' := by
  obtain ⟨hleaving, hlive⟩ := h
  cases a with
  | read ch =>
    simp only [World.step, Option.map_eq_some_iff] at hx
    obtain ⟨⟨pc', s'⟩, hstep, rfl⟩ := hx
    cases hpc : w.reader with
    | giveUp =>
      rw [hpc] at hstep
      cases hstep
      exact ⟨rfl, hlive⟩
    | closeWakeup exc =>
      rw [hpc] at hstep
      cases hstep
      cases exc <;> exact ⟨rfl, hlive⟩
    | checkTimedOut =>
      rw [hpc] at hstep
      simp only [readStep] at hstep
      split at hstep <;> cases hstep <;> exact ⟨rfl, hlive⟩
    | checkCancelled =>
      rw [hpc] at hstep
      simp only [readStep] at hstep
      split at hstep
      · cases hstep; exact ⟨rfl, hlive⟩
      · split at hstep <;> cases hstep <;> exact ⟨rfl, hlive⟩
    | done r => rw [hpc] at hstep; cases hstep
    | _ => rw [hpc] at hleaving; cases hleaving
  | call => cases hx; exact ⟨hleaving, hlive⟩
  | cancel i ch =>
    obtain ⟨pc, -, hreader, hshared, -⟩ := step_cancel hx
    exact ⟨hreader ▸ hleaving, hshared ▸ cancelStep_live hlive⟩
  | complete urb c =>
    simp only [World.step] at hx
    split at hx
    · rename_i hmem
      cases hx
      have hurb : urb = w.shared.address := by
        rcases id hlive with ⟨hp, -⟩ | ⟨hp, -⟩
        · simpa [hp] using hmem
        · simp [hp] at hmem
      subst hurb
      exact ⟨hleaving, .inr ⟨(hlive.complete hmem c).1, c, (hlive.complete hmem c).2⟩⟩
    · cases hx
  | disconnect => cases hx; exact ⟨hleaving, hlive⟩
  | expire => cases hx; exact ⟨hleaving, hlive⟩

/-- A step that is not sound leaves the URB behind. -/
theorem Inv.abandoned {w w' : World} (h : Inv w) (hsound : ¬Sound w a) (hx : w.step a = some w') :
    Abandoned w' := by
  cases a with
  | read ch =>
    have hat := h.at_
    simp only [World.step, Option.map_eq_some_iff] at hx
    obtain ⟨⟨pc', s'⟩, hstep, rfl⟩ := hx
    simp only [Sound] at hsound
    cases hpc : w.reader with
    | openWakeup =>
      rw [hpc] at hsound hat hstep
      obtain ⟨errno, he⟩ := Option.ne_none_iff_exists'.mp hsound
      simp only [readStep, he] at hstep
      cases hstep
      exact ⟨rfl, hat⟩
    | poll =>
      rw [hpc] at hsound hat hstep
      obtain ⟨errno, he⟩ := Option.ne_none_iff_exists'.mp hsound
      simp only [readStep, he] at hstep
      cases hstep
      exact ⟨rfl, hat⟩
    | reapBlocking =>
      rw [hpc] at hsound hat hstep
      simp only [ne_eq, Classical.not_imp, not_not] at hsound
      simp only [readStep, Kernel.reap, hsound.1, hsound.2, if_true] at hstep
      cases hstep
      exact ⟨rfl, hat⟩
    | finishErrno =>
      rw [hpc] at hsound hat hstep
      simp only [ne_eq, not_not] at hsound
      simp only [readStep, hsound] at hstep
      cases hstep
      exact ⟨rfl, hat⟩
    | _ => rw [hpc] at hsound; exact absurd trivial hsound
  | call | cancel | complete | disconnect | expire => exact absurd trivial hsound

theorem Abandoned.run {w w' : World} (h : Abandoned w) (hx : run World.step w as = some w') :
    Abandoned w' :=
  run_invariant_of_step (fun _ _ _ h hx => h.step hx) h hx

/-! ## Whole reads -/

/-- A read that has not begun. -/
structure Begins (w : World) : Prop where
  reader : w.reader = .start
  cancels : w.cancels = []
  read : ∃ timeoutMs, w.shared.read = { timeoutMs }
  noDevice : w.shared.noDevice = false
  completion : w.shared.completion = none

/-- A call of `read` from its beginning to its end, with what the others do meanwhile. -/
structure FinishedRead where
  first : World
  actions : List Action
  last : World
  result : Except ExnKind Bytes
  begins : Begins first
  runs : run World.step first actions = some last
  finished : last.reader = .done result

/-- Reads one after the other on a file descriptor: each finds the URBs that the one before left. -/
def Successive : Kernel → List FinishedRead → Prop
  | _, [] => True
  | kernel, r :: reads => r.first.shared.kernel = kernel ∧ Successive r.last.shared.kernel reads

theorem Begins.inv (h : Begins w) (hidle : w.shared.kernel.Idle) : Inv w := by
  obtain ⟨timeoutMs, hread⟩ := h.read
  refine ⟨⟨?_, .inl hidle, fun e he => ?_⟩, fun pc hpc => ?_⟩
  · rw [h.reader]
    exact ⟨hidle, by rw [hread]⟩
  · simp [hread] at he
  · simp [h.cancels] at hpc

theorem sound_of_not_left {w w' : World} (h : Inv w) (hx : run World.step w as = some w')
    (hleft : ¬Left w'.shared) : Along World.step Sound w as := by
  induction as generalizing w with
  | nil => trivial
  | cons a as ih =>
    obtain ⟨w₁, hstep, hrest⟩ := run_cons.mp hx
    have hsound : Sound w a := by
      by_contra hs
      exact hleft (((h.abandoned hs hstep).run hrest).live.left)
    refine ⟨hsound, fun w₂ h₂ => ?_⟩
    cases hstep.symm.trans h₂
    exact ih (h.step hsound hstep) hrest

theorem FinishedRead.inv (r : FinishedRead) (hidle : r.first.shared.kernel.Idle)
    (hsound : Along World.step Sound r.first r.actions) : Inv r.last :=
  run_invariant (fun _ _ _ h hs hx => h.step hs hx) (r.begins.inv hidle) hsound r.runs

/-- A sound read leaves no URB on the file descriptor, unless the device is gone. -/
theorem FinishedRead.idle (r : FinishedRead) (hidle : r.first.shared.kernel.Idle)
    (hdevice : r.last.shared.noDevice = false)
    (hsound : Along World.step Sound r.first r.actions) : r.last.shared.kernel.Idle := by
  have hat := (r.inv hidle hsound).at_
  rw [r.finished] at hat
  rcases hat with hidle' | hgone
  · exact hidle'
  · simp [hdevice] at hgone

/-- Sound reads reap their own URBs only. -/
theorem own_urb_of_successive {reads : List FinishedRead} {kernel : Kernel} (hidle : kernel.Idle)
    (hreads : Successive kernel reads)
    (hsound : ∀ r ∈ reads, Along World.step Sound r.first r.actions ∧
      r.last.shared.noDevice = false) :
    ∀ r ∈ reads, ∀ pre post w urb, r.actions = pre ++ post →
      run World.step r.first pre = some w → w.reader = .accept urb → urb = w.shared.address := by
  induction reads generalizing kernel with
  | nil => exact fun _ hr => nomatch hr
  | cons r reads ih =>
    obtain ⟨rfl, hrest⟩ := hreads
    obtain ⟨hs, hdevice⟩ := hsound r List.mem_cons_self
    intro r' hr'
    rcases List.mem_cons.mp hr' with rfl | hr'
    · intro pre post w urb hsplit hx hpc
      have hpre : Along World.step Sound r'.first pre := by
        rw [hsplit] at hs
        exact hs.of_append
      have hinv : Inv w :=
        run_invariant (fun _ _ _ h hs hx => h.step hs hx) (r'.begins.inv hidle) hpre hx
      have hat := hinv.at_
      rw [hpc] at hat
      exact hat.2
    · exact ih (r.idle hidle hdevice hs) hrest (fun x hx => hsound x (List.mem_cons_of_mem _ hx)) r' hr'

/-- A read leaves no URB behind, unless the device is gone, exactly if all its steps are sound. Reads
that are sound, one after the other, never reap the URB of another one. -/
theorem urb_reaped_iff {kernel : Kernel} (hidle : kernel.Idle) :
    (∀ r : FinishedRead, r.first.shared.kernel = kernel → r.last.shared.noDevice = false →
      (¬Left r.last.shared ↔ Along World.step Sound r.first r.actions)) ∧
    ∀ reads : List FinishedRead, Successive kernel reads →
      (∀ r ∈ reads, Along World.step Sound r.first r.actions ∧ r.last.shared.noDevice = false) →
      ∀ r ∈ reads, ∀ pre post w urb, r.actions = pre ++ post →
        run World.step r.first pre = some w → w.reader = .accept urb → urb = w.shared.address := by
  refine ⟨fun r hkernel hdevice => ?_, fun reads => own_urb_of_successive hidle⟩
  rw [← hkernel] at hidle
  constructor
  · exact fun hleft => sound_of_not_left (r.begins.inv hidle) r.runs hleft
  · exact fun hsound => not_left_of_idle (r.idle hidle hdevice hsound)

/-! ## Four steps -/

/-- A read that has not begun, on a file descriptor without URBs. -/
def newRead : World := { shared := { address := 0 } }

/-- Steps of the reader without a failure. -/
def readSteps (n : Nat) : List Action := List.replicate n (.read {})

/-- The URB completes while the reader polls. -/
def polledRead : FinishedRead where
  first := newRead
  actions := readSteps 7 ++ [.complete 0 { data := [1, 2, 3] }] ++ readSteps 11
  last := {
    shared := {
      address := 0
      read := { submitted := true, reaped := true, urb := { data := [1, 2, 3] } }
      completion := some { data := [1, 2, 3] } }
    reader := .done (.ok [1, 2, 3]) }
  result := .ok [1, 2, 3]
  begins := ⟨rfl, rfl, ⟨none, rfl⟩, rfl, rfl⟩
  runs := by decide
  finished := rfl

theorem urb_reaped_polled : ¬Left polledRead.last.shared := by
  refine ((urb_reaped_iff ⟨rfl, rfl⟩).1 polledRead rfl rfl).mpr ?_
  decide

/-- The wake-up pipe cannot be made, and the URB stays pending. -/
def pipelessRead : FinishedRead where
  first := newRead
  actions := readSteps 5 ++ [.read { errno := some 24 }]
  last := {
    shared := {
      address := 0
      read := { submitted := true }
      kernel := { pending := [0] } }
    reader := .done (.error (.osError 24)) }
  result := .error (.osError 24)
  begins := ⟨rfl, rfl, ⟨none, rfl⟩, rfl, rfl⟩
  runs := by decide
  finished := rfl

/-- The URB completes, the discard of a canceller fails, and the reader looks at the error before it
is stored: it takes the device for gone, and the completed URB stays on the file descriptor. -/
def racedRead : FinishedRead where
  first := newRead
  actions := readSteps 7 ++ [.complete 0 { data := [1, 2, 3] }, .call, .cancel 0 {}, .cancel 0 {},
    .cancel 0 {}, .cancel 0 {}] ++ readSteps 7
  last := {
    shared := {
      address := 0
      read := {
        submitted := true, reaped := true, cancelRequested := true,
        discardFailedWithoutReap := true }
      kernel := { completed := [(0, { data := [1, 2, 3] })] }
      completion := some { data := [1, 2, 3] } }
    reader := .done (.error .interruptedError)
    cancels := [.discardErrno EINVAL] }
  result := .error .interruptedError
  begins := ⟨rfl, rfl, ⟨none, rfl⟩, rfl, rfl⟩
  runs := by decide
  finished := rfl

theorem urb_left_behind :
    (pipelessRead.last.shared.noDevice = false ∧ Left pipelessRead.last.shared) ∧
    (racedRead.last.shared.noDevice = false ∧ Left racedRead.last.shared) :=
  ⟨⟨rfl, .inl (by decide)⟩, rfl, .inr ⟨{ data := [1, 2, 3] }, by decide⟩⟩

end UsbFs

end MotuProxy
