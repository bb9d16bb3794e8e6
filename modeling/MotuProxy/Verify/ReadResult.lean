import MotuProxy.Verify.Urbs

/-! # What becomes of a completed transfer

A URB that completes with data is reaped by its reader, but the reader looks at its flags before it
looks at the data. `data_returned_iff` says when the data comes back: nobody cancels the read before
it has looked for the last time, and the reader does not find the deadline passed. `Tells` is what
the reader knows about the completion as long as nothing hinders it, and `Spoiled` is what it cannot
recover from.
-/

namespace MotuProxy

namespace UsbFs

def ReadPc.isDone : ReadPc → Bool
  | .done _ => true
  | _ => false

/-- A step that does not keep the reader from returning the data: no call of `cancel` comes before
the end, the deadline is not found passed, and no system call fails. -/
def Unhindered (w : World) : Action → Prop
  | .read ch => match w.reader with
    | .openWakeup | .poll => ch.errno = none
    | .reap => w.shared.kernel.completed = [] → w.shared.kernel.gone = false
    | .checkDeadline => ¬(w.shared.read.timeoutMs.isSome ∧ w.shared.expired)
    | _ => True
  | .cancel i _ => w.cancels[i]? = some .request → w.reader.isDone = true
  | _ => True

instance : Decidable (Unhindered w a) := by
  obtain ⟨shared, reader, cancels⟩ := w
  apply Action.casesOn (motive := fun a => Decidable (Unhindered ⟨shared, reader, cancels⟩ a)) a
  · intro ch
    apply ReadPc.casesOn
      (motive := fun pc => Decidable (Unhindered ⟨shared, pc, cancels⟩ (.read ch))) reader <;>
      intros <;> unfold Unhindered <;> infer_instance
  all_goals intros; unfold Unhindered; infer_instance

/-! ## Nothing hinders the reader -/

/-- The URB is on the file descriptor, and the kernel knows how it has completed, if it has. -/
def Waiting (s : Shared) : Prop :=
  s.kernel.pending = [s.address] ∧ s.kernel.completed = [] ∧ s.completion = none ∨
    s.kernel.pending = [] ∧ ∃ c, s.kernel.completed = [(s.address, c)] ∧ s.completion = some c

/-- The reader has the completion of its URB. -/
structure Reaped (s : Shared) : Prop where
  idle : s.kernel.Idle
  completion : s.completion = some s.read.urb

/-- What a reader that nothing has hindered knows about the completion of its URB. -/
def Tells (s : Shared) : ReadPc → Prop
  | .start | .submit => s.kernel.Idle ∧ s.completion = none ∧ s.read.submitted = false
  | .markSubmitted | .checkCancel | .deadline | .openWakeup | .reap | .checkRequested
  | .checkDeadline | .wait | .poll | .drain => Waiting s
  | .accept urb => Reaped s ∧ urb = s.address
  | .markReaped | .closeWakeup none | .checkTimedOut | .checkCancelled => Reaped s
  | .done result => s.kernel.Idle ∧
    ∀ data, data ≠ [] → s.completion = some ⟨0, data⟩ → result = .ok data
  | _ => False

/-- Nothing has hindered the reader so far. -/
structure Clear (w : World) : Prop where
  tells : Tells w.shared w.reader
  quiet : w.reader.isDone = false → w.shared.read.cancelRequested = false ∧
    w.shared.read.timedOut = false ∧ ∀ pc ∈ w.cancels, pc = .request

section
variable {s s' : Shared} {ch : Choice} {pc pc' : ReadPc}

theorem Waiting.reap (h : Waiting s) :
    (∃ c, s.kernel.reapNdelay = .ok ((s.address, c), { s.kernel with completed := [] }) ∧
      Reaped (s.filled (s.address, c) { s.kernel with completed := [] })) ∨
    s.kernel.completed = [] := by
  rcases h with ⟨-, hc, -⟩ | ⟨hp, c, hc, hcomp⟩
  · exact .inr hc
  · refine .inl ⟨c, by simp [Kernel.reapNdelay, hc], ⟨hp, rfl⟩, ?_⟩
    simp [Shared.filled, hcomp]

theorem submit_tells (h : Tells s .submit) (hx : readStep s ch .submit = some (pc', s')) :
    Tells s' pc' ∧ s'.read = s.read := by
  obtain ⟨hidle, hcomp, hsub⟩ := h
  simp only [readStep, hsub, Bool.false_eq_true, if_false] at hx
  cases hk : s.kernel.submit s.address ch with
  | error errno =>
    rw [hk] at hx
    cases hx
    refine ⟨⟨hidle, fun data _ hc => ?_⟩, rfl⟩
    cases hcomp.symm.trans hc
  | ok kernel =>
    rw [hk] at hx
    cases hx
    refine ⟨.inl ?_, rfl⟩
    unfold Kernel.submit at hk
    split at hk
    · cases hk
    · split at hk
      · cases hk
      · cases hk
        simp [hidle.pending, hidle.completed, hcomp]

theorem filled_flags {urb : Nat × Completion} {kernel : Kernel} :
    (s.filled urb kernel).read.cancelRequested = s.read.cancelRequested ∧
      (s.filled urb kernel).read.timedOut = s.read.timedOut := by
  unfold Shared.filled
  simp only
  split <;> exact ⟨rfl, rfl⟩

/-- The device is there, so that the reader goes on to wait if nothing has completed. -/
theorem reap_tells (h : Waiting s) (hdevice : s.kernel.completed = [] → s.kernel.gone = false)
    (hx : readStep s ch .reap = some (pc', s')) :
    Tells s' pc' ∧ s'.read.cancelRequested = s.read.cancelRequested ∧
      s'.read.timedOut = s.read.timedOut := by
  rcases h.reap with ⟨c, hr, hreaped⟩ | hc
  · simp only [readStep, hr] at hx
    cases hx
    exact ⟨⟨hreaped, by simp [Shared.filled]⟩, filled_flags⟩
  · simp only [readStep, Kernel.reapNdelay, hc, hdevice hc, Bool.false_eq_true, if_false, ne_eq,
      not_true_eq_false] at hx
    cases hx
    exact ⟨h, rfl, rfl⟩

/-- What the reader returns is the status or the data of its completion. -/
theorem checkCancelled_tells (h : Reaped s) (hreq : s.read.cancelRequested = false)
    (hx : readStep s ch .checkCancelled = some (pc', s')) : Tells s' pc' ∧ s'.read = s.read := by
  have hfail {e : ExnKind} (hstatus : s.read.urb.status ≠ 0) : Tells s (.done (.error e)) := by
    refine ⟨h.idle, fun data _ hc => ?_⟩
    have hurb := Option.some.inj (h.completion.symm.trans hc)
    exact absurd (by rw [hurb]) hstatus
  simp only [readStep, hreq, Bool.false_eq_true, false_or] at hx
  split at hx
  · cases hx
    rename_i hmem
    exact ⟨hfail fun hz => by simp [hz, cancelledUrbStatuses, ENOENT, ECONNRESET, ECANCELED] at hmem, rfl⟩
  · split at hx
    · cases hx
      rename_i hstatus
      exact ⟨hfail hstatus, rfl⟩
    · cases hx
      refine ⟨⟨h.idle, fun data _ hc => ?_⟩, rfl⟩
      have hurb := Option.some.inj (h.completion.symm.trans hc)
      rw [hurb]

/-- A step of the reader that nothing hinders. -/
theorem readStep_tells (h : Tells s pc) (hreq : s.read.cancelRequested = false)
    (htime : s.read.timedOut = false) (hun : Unhindered ⟨s, pc, cancels⟩ (.read ch))
    (hx : readStep s ch pc = some (pc', s')) :
    Tells s' pc' ∧ s'.read.cancelRequested = false ∧ s'.read.timedOut = false := by
  cases pc with
  | submit =>
    obtain ⟨htells, hread⟩ := submit_tells h hx
    exact ⟨htells, hread ▸ hreq, hread ▸ htime⟩
  | reap =>
    obtain ⟨htells, hreq', htime'⟩ := reap_tells h hun hx
    exact ⟨htells, hreq'.trans hreq, htime'.trans htime⟩
  | checkCancelled =>
    obtain ⟨htells, hread⟩ := checkCancelled_tells h hreq hx
    exact ⟨htells, hread ▸ hreq, hread ▸ htime⟩
  | start | checkCancel | checkRequested =>
    simp only [readStep, hreq, Bool.false_eq_true, if_false] at hx
    cases hx
    exact ⟨h, hreq, htime⟩
  | markSubmitted | deadline | drain => cases hx; exact ⟨h, hreq, htime⟩
  | openWakeup =>
    have herr : ch.errno = none := hun
    simp only [readStep, herr] at hx
    cases hx
    exact ⟨h, hreq, htime⟩
  | checkDeadline =>
    have hopen : ¬(s.read.timeoutMs.isSome ∧ s.expired) := hun
    simp only [readStep, if_neg hopen] at hx
    cases hx
    exact ⟨h, hreq, htime⟩
  | wait =>
    simp only [readStep] at hx
    split at hx <;> cases hx <;> exact ⟨h, hreq, htime⟩
  | poll =>
    have herr : ch.errno = none := hun
    simp only [readStep, herr] at hx
    split at hx
    · cases hx; exact ⟨h, hreq, htime⟩
    · cases hx
  | accept urb =>
    obtain ⟨hreaped, hown⟩ : Reaped s ∧ urb = s.address := h
    simp only [readStep, hown, ne_eq, not_true_eq_false, if_false] at hx
    cases hx
    exact ⟨hreaped, hreq, htime⟩
  | markReaped =>
    obtain ⟨hidle, hcomp⟩ : Reaped s := h
    cases hx
    exact ⟨⟨hidle, hcomp⟩, hreq, htime⟩
  | closeWakeup exc =>
    cases exc with
    | none =>
      obtain ⟨hidle, hcomp⟩ : Reaped s := h
      cases hx
      exact ⟨⟨hidle, hcomp⟩, hreq, htime⟩
    | some e => exact h.elim
  | checkTimedOut =>
    simp only [readStep, htime, Bool.false_eq_true, if_false] at hx
    cases hx
    exact ⟨h, hreq, htime⟩
  | cancelling | markTimedOut | finish | finishErrno | giveUp | raceReap | reapBlocking =>
    exact h.elim
  | done r => cases hx

/-- A step of the kernel or the clock that completes no URB. -/
theorem Tells.of_eq (h : Tells s pc) (ha : s'.address = s.address) (hr : s'.read = s.read)
    (hp : s'.kernel.pending = s.kernel.pending) (hk : s'.kernel.completed = s.kernel.completed)
    (hc : s'.completion = s.completion) : Tells s' pc := by
  have hidle (h : s.kernel.Idle) : s'.kernel.Idle := ⟨hp.trans h.pending, hk.trans h.completed⟩
  have hreaped (h : Reaped s) : Reaped s' := ⟨hidle h.idle, by rw [hc, hr, h.completion]⟩
  have hwaiting (h : Waiting s) : Waiting s' := by
    unfold Waiting
    rw [ha, hp, hk, hc]
    exact h
  cases pc with
  | start | submit => exact ⟨hidle h.1, hc.trans h.2.1, by rw [hr]; exact h.2.2⟩
  | markSubmitted | checkCancel | deadline | openWakeup | reap | checkRequested | checkDeadline
  | wait | poll | drain => exact hwaiting h
  | accept urb => exact ⟨hreaped h.1, by rw [ha]; exact h.2⟩
  | closeWakeup exc =>
    cases exc with
    | none => exact hreaped h
    | some e => exact h.elim
  | markReaped | checkTimedOut | checkCancelled => exact hreaped h
  | done r => exact ⟨hidle h.1, fun data hd hcomp => h.2 data hd (hc ▸ hcomp)⟩
  | cancelling | markTimedOut | finish | finishErrno | giveUp | raceReap | reapBlocking =>
    exact h.elim

/-- Without a URB in the kernel, `cancel` does nothing to it. -/
theorem cancelStep_idle {pc : CancelPc} (h : s.kernel.Idle) :
    (cancelStep s ch pc).2.kernel = s.kernel ∧ (cancelStep s ch pc).2.completion = s.completion := by
  cases pc with
  | check =>
    unfold cancelStep
    simp only
    split <;> exact ⟨rfl, rfl⟩
  | discard =>
    rcases discard_eq s.kernel s.address ch with ⟨errno, hd, -⟩ | ⟨hmem, -⟩
    · simp only [cancelStep, hd]
      exact ⟨rfl, rfl⟩
    · simp [h.pending] at hmem
  | request | discarded | discardFailed | discardErrno | wake => exact ⟨rfl, rfl⟩

/-- The kernel completes the URB of a reader that nothing has hindered. -/
theorem Tells.complete (h : Tells s pc) (hmem : urb ∈ s.kernel.pending) (c : Completion) :
    Tells { s with
      kernel := s.kernel.complete urb c
      completion := if urb = s.address then some c else s.completion } pc := by
  have hnone (hidle : s.kernel.Idle) : False := by simp [hidle.pending] at hmem
  have hwaiting (hw : Waiting s) : Waiting { s with
      kernel := s.kernel.complete urb c
      completion := if urb = s.address then some c else s.completion } := by
    rcases hw with ⟨hp, hc, -⟩ | ⟨hp, -⟩
    · have hurb : urb = s.address := by simpa [hp] using hmem
      exact .inr ⟨by simp [Kernel.complete, hp, hurb], c, by simp [Kernel.complete, hc, hurb],
        by simp [hurb]⟩
    · simp [hp] at hmem
  cases pc with
  | start | submit => exact (hnone h.1).elim
  | markSubmitted | checkCancel | deadline | openWakeup | reap | checkRequested | checkDeadline
  | wait | poll | drain => exact hwaiting h
  | accept urb => exact (hnone h.1.idle).elim
  | closeWakeup exc =>
    cases exc with
    | none => exact (hnone (Reaped.idle h)).elim
    | some e => exact h.elim
  | markReaped | checkTimedOut | checkCancelled => exact (hnone (Reaped.idle h)).elim
  | done r => exact (hnone h.1).elim
  | cancelling | markTimedOut | finish | finishErrno | giveUp | raceReap | reapBlocking =>
    exact h.elim

end

theorem Clear.step {w w' : World} (h : Clear w) (hun : Unhindered w a) (hx : w.step a = some w') :
    Clear w' := by
  cases a with
  | read ch =>
    simp only [World.step, Option.map_eq_some_iff] at hx
    obtain ⟨⟨pc', s'⟩, hstep, rfl⟩ := hx
    have hopen : w.reader.isDone = false := by
      cases hpc : w.reader with
      | done r => rw [hpc] at hstep; cases hstep
      | _ => rfl
    obtain ⟨hreq, htime, hcancels⟩ := h.quiet hopen
    obtain ⟨ht, hreq', htime'⟩ := readStep_tells h.tells hreq htime hun hstep
    exact ⟨ht, fun _ => ⟨hreq', htime', hcancels⟩⟩
  | call =>
    cases hx
    refine ⟨h.tells, fun hopen => ?_⟩
    obtain ⟨hreq, htime, hcancels⟩ := h.quiet hopen
    refine ⟨hreq, htime, fun pc hpc => ?_⟩
    rcases List.mem_append.mp hpc with hpc | hpc
    · exact hcancels pc hpc
    · exact List.mem_singleton.mp hpc
  | cancel i ch =>
    obtain ⟨pc, hpc, hreader, hshared, -⟩ := step_cancel hx
    -- a call that is still in its first step may make it after the end only
    have hdone : w.reader.isDone = true := by
      by_contra hopen
      have hquiet := h.quiet (by simpa using hopen)
      have hfirst : pc = .request := hquiet.2.2 pc (List.mem_of_getElem? hpc)
      exact hopen (hun (hfirst ▸ hpc))
    cases hr : w.reader with
    | done r =>
      have ht := h.tells
      rw [hr] at ht
      obtain ⟨hkernel, hcomp⟩ := cancelStep_idle ht.1
      refine ⟨?_, fun hopen => by simp [hreader, hr, ReadPc.isDone] at hopen⟩
      rw [hreader, hr, hshared]
      exact ⟨by rw [hkernel]; exact ht.1, fun data hd hc => ht.2 data hd (by rw [← hcomp]; exact hc)⟩
    | _ => rw [hr] at hdone; cases hdone
  | complete urb c =>
    simp only [World.step] at hx
    split at hx
    · cases hx
      exact ⟨h.tells.complete ‹_› c, h.quiet⟩
    · cases hx
  | disconnect => cases hx; exact ⟨h.tells.of_eq rfl rfl rfl rfl rfl, h.quiet⟩
  | expire => cases hx; exact ⟨h.tells.of_eq rfl rfl rfl rfl rfl, h.quiet⟩

/-! ## Something hinders the reader -/

/-- The reader will not return data. -/
def SpoiledAt (s : Shared) : ReadPc → Prop
  | .done result => ∀ data, result = .ok data → data = []
  | .closeWakeup (some _) | .markTimedOut => True
  | .checkCancelled => s.read.cancelRequested = true
  | _ => s.read.cancelRequested = true ∨ s.read.timedOut = true

theorem cancelStep_flags (s : Shared) (ch : Choice) (pc : CancelPc) :
    (s.read.cancelRequested = true →
      (cancelStep s ch pc).2.read.cancelRequested = true) ∧
    (cancelStep s ch pc).2.read.timedOut = s.read.timedOut := by
  cases pc with
  | check =>
    unfold cancelStep
    simp only
    split <;> exact ⟨fun h => h, rfl⟩
  | discard =>
    rcases discard_eq s.kernel s.address ch with ⟨errno, hd, -⟩ | ⟨-, hd⟩
    · simp only [cancelStep, hd]
      exact ⟨fun h => h, rfl⟩
    · simp only [cancelStep, hd]
      exact ⟨fun h => h, trivial⟩
  | request => exact ⟨fun _ => rfl, rfl⟩
  | discarded | discardFailed | discardErrno | wake => exact ⟨fun h => h, rfl⟩

/-- The flags are never reset. -/
theorem SpoiledAt.mono (h : SpoiledAt s pc)
    (hreq : s.read.cancelRequested = true → s'.read.cancelRequested = true)
    (htime : s.read.timedOut = true → s'.read.timedOut = true) : SpoiledAt s' pc := by
  cases pc with
  | done r => exact h
  | markTimedOut => trivial
  | closeWakeup exc =>
    cases exc with
    | none => exact Or.imp hreq htime h
    | some e => trivial
  | checkCancelled => exact hreq h
  | _ => exact Or.imp hreq htime h

theorem SpoiledAt.raised {e : ExnKind} : SpoiledAt s (.done (.error e)) := by
  intro data hd
  cases hd

/-- The completion of a URB leaves the flags alone. -/
theorem SpoiledAt.filled {urb : Nat × Completion} {kernel : Kernel} (h : SpoiledAt s pc) :
    SpoiledAt (s.filled urb kernel) pc :=
  h.mono (fun hr => filled_flags.1.trans hr) fun ht => filled_flags.2.trans ht

theorem submit_spoiled (h : SpoiledAt s .submit) (hx : readStep s ch .submit = some (pc', s')) :
    SpoiledAt s' pc' := by
  simp only [readStep] at hx
  split at hx
  · cases hx; exact h
  · split at hx
    · cases hx; exact h
    · cases hx; exact .raised

theorem cancelling_spoiled (h : SpoiledAt s (.cancelling pc after))
    (hx : readStep s ch (.cancelling pc after) = some (pc', s')) : SpoiledAt s' pc' := by
  simp only [readStep] at hx
  cases hx
  have hflags := cancelStep_flags s ch pc
  have hs : (cancelStep s ch pc).2.read.cancelRequested = true ∨
      (cancelStep s ch pc).2.read.timedOut = true :=
    Or.imp hflags.1 (fun ht => hflags.2.trans ht) h
  cases (cancelStep s ch pc).1 with
  | none => cases after <;> exact hs
  | some next => exact hs

theorem reap_spoiled (h : SpoiledAt s pc) (hpc : pc = .reap ∨ pc = .raceReap)
    (hx : readStep s ch pc = some (pc', s')) : SpoiledAt s' pc' := by
  rcases hpc with rfl | rfl <;>
  · simp only [readStep] at hx
    split at hx
    · cases hx; exact h.filled
    · split at hx
      · cases hx; trivial
      · cases hx; exact h

theorem reapBlocking_spoiled (h : SpoiledAt s .reapBlocking)
    (hx : readStep s ch .reapBlocking = some (pc', s')) : SpoiledAt s' pc' := by
  simp only [readStep] at hx
  split at hx
  · cases hx
  · cases hx; exact h.filled
  · cases hx; trivial

theorem readStep_spoiled (h : SpoiledAt s pc) (hx : readStep s ch pc = some (pc', s')) :
    SpoiledAt s' pc' := by
  cases pc with
  | submit => exact submit_spoiled h hx
  | cancelling => exact cancelling_spoiled h hx
  | reap => exact reap_spoiled h (.inl rfl) hx
  | raceReap => exact reap_spoiled h (.inr rfl) hx
  | reapBlocking => exact reapBlocking_spoiled h hx
  | start =>
    simp only [readStep] at hx
    split at hx
    · cases hx; exact .raised
    · cases hx; exact h
  | checkCancel | checkRequested | wait | finish | finishErrno =>
    simp only [readStep] at hx
    split at hx <;> cases hx <;> exact h
  | openWakeup =>
    simp only [readStep] at hx
    split at hx
    · cases hx; exact .raised
    · cases hx; exact h
  | checkDeadline | accept =>
    simp only [readStep] at hx
    split at hx
    · cases hx; trivial
    · cases hx; exact h
  | markTimedOut => cases hx; exact .inr rfl
  | poll =>
    simp only [readStep] at hx
    split at hx
    · cases hx; trivial
    · split at hx
      · cases hx; exact h
      · cases hx
  | closeWakeup exc =>
    cases hx
    cases exc with
    | none => exact h
    | some e => exact .raised
  | checkTimedOut =>
    simp only [readStep] at hx
    split at hx
    · cases hx; exact fun data hd => by cases hd; rfl
    · cases hx
      exact Or.resolve_right h ‹_›
  | checkCancelled =>
    have hreq : s.read.cancelRequested = true := h
    simp only [readStep, hreq, true_or, if_true] at hx
    cases hx
    exact .raised
  | markSubmitted | deadline | drain | giveUp | markReaped => cases hx; exact h
  | done r => cases hx

theorem spoiled_step {w w' : World} (h : SpoiledAt w.shared w.reader) (hx : w.step a = some w') :
    SpoiledAt w'.shared w'.reader := by
  cases a with
  | read ch =>
    simp only [World.step, Option.map_eq_some_iff] at hx
    obtain ⟨⟨pc', s'⟩, hstep, rfl⟩ := hx
    exact readStep_spoiled h hstep
  | cancel i ch =>
    obtain ⟨pc, -, hreader, hshared, -⟩ := step_cancel hx
    have hflags := cancelStep_flags w.shared ch pc
    rw [hreader, hshared]
    exact h.mono hflags.1 fun ht => hflags.2.trans ht
  | complete urb c =>
    simp only [World.step] at hx
    split at hx <;> cases hx
    exact h.mono (fun hr => hr) fun ht => ht
  | call | disconnect | expire => cases hx; exact h.mono (fun hr => hr) fun ht => ht

/-- What hinders a reader, it cannot recover from. -/
theorem spoiled_of_hindered {w w' : World} (hun : ¬Unhindered w a) (hx : w.step a = some w') :
    SpoiledAt w'.shared w'.reader := by
  cases a with
  | read ch =>
    simp only [World.step, Option.map_eq_some_iff] at hx
    obtain ⟨⟨pc', s'⟩, hstep, rfl⟩ := hx
    simp only [Unhindered] at hun
    cases hpc : w.reader with
    | openWakeup =>
      rw [hpc] at hun hstep
      obtain ⟨errno, he⟩ := Option.ne_none_iff_exists'.mp hun
      simp only [readStep, he] at hstep
      cases hstep
      exact fun data hd => by cases hd
    | poll =>
      rw [hpc] at hun hstep
      obtain ⟨errno, he⟩ := Option.ne_none_iff_exists'.mp hun
      simp only [readStep, he] at hstep
      cases hstep
      trivial
    | reap =>
      rw [hpc] at hun hstep
      simp only [Classical.not_imp, Bool.not_eq_false] at hun
      simp only [readStep, Kernel.reapNdelay, hun.1, hun.2, if_true] at hstep
      cases hstep
      trivial
    | checkDeadline =>
      rw [hpc] at hun hstep
      simp only [readStep, if_pos (not_not.mp hun)] at hstep
      cases hstep
      trivial
    | _ => rw [hpc] at hun; exact absurd trivial hun
  | cancel i ch =>
    obtain ⟨pc, hpc, hreader, hshared, -⟩ := step_cancel hx
    simp only [Unhindered, Classical.not_imp, Bool.not_eq_true] at hun
    obtain ⟨hfirst, hopen⟩ := hun
    have hrequest : pc = .request := Option.some.inj (hpc.symm.trans hfirst)
    have hreq : w'.shared.read.cancelRequested = true := by
      rw [hshared, hrequest]
      rfl
    rw [hreader]
    cases hr : w.reader with
    | done r => rw [hr] at hopen; cases hopen
    | markTimedOut => trivial
    | closeWakeup exc =>
      cases exc with
      | none => exact .inl hreq
      | some e => trivial
    | checkCancelled => exact hreq
    | _ => exact .inl hreq
  | call | complete | disconnect | expire => exact absurd trivial hun

theorem unhindered_of_data {w w' : World} (hx : run World.step w as = some w')
    (hdone : w'.reader = .done (.ok data)) (hdata : data ≠ []) :
    Along World.step Unhindered w as := by
  induction as generalizing w with
  | nil => trivial
  | cons a as ih =>
    obtain ⟨w₁, hstep, hrest⟩ := run_cons.mp hx
    have hun : Unhindered w a := by
      by_contra hun
      have hend : SpoiledAt w'.shared w'.reader :=
        run_invariant_of_step (I := fun w => SpoiledAt w.shared w.reader)
          (fun _ _ _ h hx => spoiled_step h hx) (spoiled_of_hindered hun hstep) hrest
      rw [hdone] at hend
      exact hdata (hend data rfl)
    refine ⟨hun, fun w₂ h₂ => ?_⟩
    cases hstep.symm.trans h₂
    exact ih hrest

theorem Begins.clear (h : Begins w) (hidle : w.shared.kernel.Idle) : Clear w := by
  obtain ⟨timeoutMs, hread⟩ := h.read
  refine ⟨?_, fun _ => ⟨by rw [hread], by rw [hread], fun pc hpc => ?_⟩⟩
  · rw [h.reader]
    exact ⟨hidle, h.completion, by rw [hread]⟩
  · simp [h.cancels] at hpc

theorem clear_of_run {w w' : World} (h : Begins w) (hidle : w.shared.kernel.Idle)
    (hun : Along World.step Unhindered w as) (hx : run World.step w as = some w') : Clear w' :=
  run_invariant (fun _ _ _ h hs hx => h.step hs hx) (h.clear hidle) hun hx

/-! ## The reader gets to its end -/

/-- The steps that the reader still makes once its URB has completed. -/
def ReadPc.remaining : ReadPc → Nat
  | .checkRequested => 11
  | .checkDeadline | .markSubmitted => 10
  | .wait | .checkCancel => 9
  | .poll | .deadline => 8
  | .drain | .openWakeup => 7
  | .reap => 6
  | .accept _ => 5
  | .markReaped => 4
  | .closeWakeup _ => 3
  | .checkTimedOut => 2
  | .checkCancelled => 1
  | _ => 0

/-- The URB has completed with data, nothing has hindered the reader, and there is time left. -/
structure Completed (w : World) (data : Bytes) : Prop extends Clear w where
  completion : w.shared.completion = some ⟨0, data⟩
  time : ¬(w.shared.read.timeoutMs.isSome ∧ w.shared.expired)

theorem Completed.waiting {w : World} (h : Completed w data) (hw : Waiting w.shared) :
    w.shared.kernel.completed = [(w.shared.address, ⟨0, data⟩)] := by
  rcases hw with ⟨-, -, hnone⟩ | ⟨-, c, hc, hsome⟩
  · cases hnone.symm.trans h.completion
  · cases Option.some.inj (hsome.symm.trans h.completion)
    exact hc

/-- The reader can step: it keeps the completion and the time left, and comes closer to its end. -/
theorem Completed.advance {w : World} (h : Completed w data) (hopen : w.reader.isDone = false) :
    ∃ pc s, readStep w.shared {} w.reader = some (pc, s) ∧
      s.completion = w.shared.completion ∧ ¬(s.read.timeoutMs.isSome ∧ s.expired) ∧
      pc.remaining < w.reader.remaining := by
  obtain ⟨hreq, htime, -⟩ := h.quiet hopen
  have htells := h.tells
  have htime' := h.time
  cases hpc : w.reader with
  | done r => rw [hpc] at hopen; cases hopen
  | start | submit =>
    rw [hpc] at htells
    cases htells.2.1.symm.trans h.completion
  | reap =>
    rw [hpc] at htells
    have hx : readStep w.shared {} .reap = some (.accept w.shared.address, w.shared.filled
        (w.shared.address, ⟨0, data⟩) { w.shared.kernel with completed := [] }) := by
      simp [readStep, Kernel.reapNdelay, h.waiting htells]
    exact ⟨_, _, hx, rfl, by simpa [Shared.filled] using htime', by simp [ReadPc.remaining]⟩
  | poll =>
    rw [hpc] at htells
    refine ⟨.drain, w.shared, ?_, rfl, htime', by decide⟩
    simp [readStep, h.waiting htells]
  | markSubmitted => exact ⟨_, _, rfl, rfl, htime', by decide⟩
  | checkCancel =>
    exact ⟨.deadline, w.shared, by simp [readStep, hreq], rfl, htime', by decide⟩
  | deadline => exact ⟨_, _, rfl, rfl, by simp, by decide⟩
  | openWakeup => exact ⟨_, _, rfl, rfl, htime', by decide⟩
  | checkRequested =>
    exact ⟨.checkDeadline, w.shared, by simp [readStep, hreq], rfl, htime', by decide⟩
  | checkDeadline =>
    exact ⟨.wait, w.shared, by simp only [readStep, if_neg htime'], rfl, htime', by decide⟩
  | wait => exact ⟨.poll, w.shared, by simp only [readStep, if_neg htime'], rfl, htime', by decide⟩
  | drain => exact ⟨_, _, rfl, rfl, htime', by decide⟩
  | accept urb =>
    rw [hpc] at htells
    exact ⟨.markReaped, w.shared, by simp [readStep, htells.2], rfl, htime', by simp [ReadPc.remaining]⟩
  | markReaped => exact ⟨_, _, rfl, rfl, htime', by decide⟩
  | closeWakeup exc =>
    rw [hpc] at htells
    cases exc with
    | none => exact ⟨_, _, rfl, rfl, htime', by simp [ReadPc.remaining]⟩
    | some e => exact htells.elim
  | checkTimedOut =>
    exact ⟨.checkCancelled, w.shared, by simp [readStep, htime], rfl, htime', by decide⟩
  | checkCancelled =>
    rw [hpc] at htells
    have hurb := Option.some.inj ((Reaped.completion htells).symm.trans h.completion)
    refine ⟨.done (.ok data), w.shared, ?_, rfl, htime', by simp [ReadPc.remaining]⟩
    simp [readStep, hreq, hurb, cancelledUrbStatuses, ENOENT, ECONNRESET, ECANCELED]
  | cancelling | markTimedOut | finish | finishErrno | giveUp | raceReap | reapBlocking =>
    rw [hpc] at htells
    exact htells.elim

/-- The reader makes a step towards its end. -/
theorem Completed.step {w : World} (h : Completed w data) (hopen : w.reader.isDone = false) :
    ∃ w', w.step (.read {}) = some w' ∧ Completed w' data ∧
      w'.reader.remaining < w.reader.remaining := by
  obtain ⟨pc, s, hx, hc, ht, hless⟩ := h.advance hopen
  have hw : w.step (.read {}) = some { w with reader := pc, shared := s } := by
    simp [World.step, hx]
  refine ⟨_, hw, ⟨h.toClear.step ?_ hw, hc.trans h.completion, ht⟩, hless⟩
  have htells := h.tells
  cases hpc : w.reader with
  | reap =>
    rw [hpc] at htells
    simp [Unhindered, hpc, h.waiting htells]
  | checkDeadline => simp only [Unhindered, hpc]; exact h.time
  | _ => simp only [Unhindered, hpc]

/-- Once the URB has completed, at most eleven steps of the reader return the data. -/
theorem Completed.returns {w : World} (h : Completed w data) (hdata : data ≠ []) :
    ∃ n ≤ w.reader.remaining, ∃ w', run World.step w (readSteps n) = some w' ∧
      w'.reader = .done (.ok data) := by
  induction hn : w.reader.remaining using Nat.strongRecOn generalizing w with
  | _ n ih =>
    cases hopen : w.reader.isDone with
    | true =>
      cases hr : w.reader with
      | done result =>
        have htells := h.tells
        rw [hr] at htells
        exact ⟨0, Nat.zero_le _, w, rfl, by rw [hr, htells.2 data hdata h.completion]⟩
      | _ => rw [hr] at hopen; cases hopen
    | false =>
      obtain ⟨w₁, hstep, h₁, hless⟩ := h.step hopen
      obtain ⟨m, hm, w', hrun, hend⟩ := ih _ (by omega) h₁ rfl
      exact ⟨m + 1, by omega, w', run_cons.mpr ⟨w₁, hstep, hrun⟩, hend⟩

/-! ## The result -/

/-- The data of a transfer that has completed comes back exactly if nothing hinders the reader: no
call of `cancel` before its end, no deadline found passed, no system call that fails. If nothing has
hindered it and there is time left when the URB completes, at most eleven of its own steps return the
data. -/
theorem data_returned_iff {data : Bytes} (hdata : data ≠ []) :
    (∀ r : FinishedRead, r.first.shared.kernel.Idle →
      r.last.shared.completion = some ⟨0, data⟩ →
      (r.result = .ok data ↔ Along World.step Unhindered r.first r.actions)) ∧
    ∀ (w w' : World) (as : List Action), Begins w → w.shared.kernel.Idle →
      Along World.step Unhindered w as → run World.step w as = some w' →
      w'.shared.completion = some ⟨0, data⟩ →
      ¬(w'.shared.read.timeoutMs.isSome ∧ w'.shared.expired) →
      ∃ n ≤ 11, ∃ w'', run World.step w' (readSteps n) = some w'' ∧
        w''.reader = .done (.ok data) := by
  refine ⟨fun r hidle hc => ⟨fun hr => ?_, fun hun => ?_⟩, fun w w' as hb hidle hun hx hc ht => ?_⟩
  · exact unhindered_of_data r.runs (by rw [r.finished, hr]) hdata
  · have htells := (clear_of_run r.begins hidle hun r.runs).tells
    rw [r.finished] at htells
    exact htells.2 data hdata hc
  · have hcompleted : Completed w' data := ⟨clear_of_run hb hidle hun hx, hc, ht⟩
    obtain ⟨n, hn, w'', hrun, hend⟩ := hcompleted.returns hdata
    refine ⟨n, hn.trans ?_, w'', hrun, hend⟩
    cases w'.reader <;> simp [ReadPc.remaining]

theorem data_returned_polled : polledRead.result = .ok [1, 2, 3] := by
  refine ((data_returned_iff (by decide)).1 polledRead ⟨rfl, rfl⟩ rfl).mpr ?_
  decide

/-- The URB completes after a reap that found nothing, and then the deadline passes. -/
def lateRead : FinishedRead where
  first := { shared := { address := 0, read := { timeoutMs := some 1000 } } }
  actions := readSteps 7 ++ [.complete 0 { data := [1, 2, 3] }, .expire] ++ readSteps 16
  last := {
    shared := {
      address := 0
      read := {
        timeoutMs := some 1000, submitted := true, reaped := true, cancelRequested := true,
        discardFailedWithoutReap := true, discardFailureErrno := some EINVAL, timedOut := true,
        urb := { data := [1, 2, 3] } }
      expired := true
      completion := some { data := [1, 2, 3] } }
    reader := .done (.ok []) }
  result := .ok []
  begins := ⟨rfl, rfl, ⟨some 1000, rfl⟩, rfl, rfl⟩
  runs := by decide
  finished := rfl

/-- The URB completes, and then another thread cancels the read. -/
def cancelledRead : FinishedRead where
  first := newRead
  actions := readSteps 6 ++ [.complete 0 { data := [1, 2, 3] }, .call, .cancel 0 {}] ++ readSteps 6
  last := {
    shared := {
      address := 0
      read := {
        submitted := true, reaped := true, cancelRequested := true, urb := { data := [1, 2, 3] } }
      completion := some { data := [1, 2, 3] } }
    reader := .done (.error .interruptedError)
    cancels := [.check] }
  result := .error .interruptedError
  begins := polledRead.begins
  runs := by decide
  finished := rfl

/-- Both reads have reaped three bytes: one reports a timeout, the other a cancellation. -/
theorem data_thrown_away :
    (lateRead.last.shared.completion = some ⟨0, [1, 2, 3]⟩ ∧ lateRead.result = .ok []) ∧
    (cancelledRead.last.shared.completion = some ⟨0, [1, 2, 3]⟩ ∧
      cancelledRead.result = .error .interruptedError) :=
  ⟨⟨rfl, rfl⟩, rfl, rfl⟩

end UsbFs

end MotuProxy
