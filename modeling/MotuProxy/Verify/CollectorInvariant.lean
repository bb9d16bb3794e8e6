import MotuProxy.Lib.Proc
import MotuProxy.Model.Session

/-! # What the collection of a response cannot disturb

An invariant of the session that reads, the clock and the remembered response do not touch, and that
an acknowledgement keeps, is kept by the whole of `_collect_response` and `_drain_quiet`.
-/

namespace MotuProxy

namespace Datastore

/-- A method that keeps `I`, however it ends. -/
abbrev Preserves (I : MotuUsbDatastore → Prop) (x : Proc α) : Prop :=
  Triple I x (fun _ => I) (fun _ => I)

/-- An invariant that the clock, the callback and the statistics do not touch. -/
structure ClockInvariant (I : MotuUsbDatastore → Prop) : Prop where
  cancels : ∀ s cancels, I s → I { s with wire := { s.wire with cancels } }
  clock : ∀ s now clock, I s → I { s with wire := { s.wire with now, clock } }
  stats : ∀ s stats, I s → I { s with lastResponseStats := stats }

/-- An invariant that reads, the clock and the remembered response do not touch, and that an
acknowledgement keeps. -/
structure CollectorInvariant (I : MotuUsbDatastore → Prop) : Prop where
  reads : ∀ s reads, I s → I { s with wire := { s.wire with reads } }
  cancels : ∀ s cancels, I s → I { s with wire := { s.wire with cancels } }
  clock : ∀ s now clock, I s → I { s with wire := { s.wire with now, clock } }
  results : ∀ s stats etag payload, I s → I { s with
    lastResponseStats := stats, lastResponseEtag := etag, lastResponsePayload := payload }
  acknowledge : Preserves I (MotuUsbDatastore.acknowledge true)

open MotuUsbDatastore

namespace ClockInvariant

variable {I : MotuUsbDatastore → Prop} {E : Exn → MotuUsbDatastore → Prop}

theorem monotonic_preserves (h : ClockInvariant I) : Triple I monotonic (fun _ => I) E := by
  intro s hs
  cases hc : s.wire.clock with
  | nil => simp only [monotonic, hc]; exact hs
  | cons t clock => simp only [monotonic, hc]; exact h.clock s t clock hs

theorem shouldCancel_preserves (h : ClockInvariant I) :
    Triple I (shouldCancel given) (fun _ => I) E := by
  intro s hs
  cases given with
  | false => exact hs
  | true =>
    cases hc : s.wire.cancels with
    | nil => simp only [shouldCancel, hc, if_true]; exact hs
    | cons b cancels => simp only [shouldCancel, hc, if_true]; exact h.cancels s cancels hs

theorem recordResponseStats_preserves (h : ClockInvariant I) :
    Triple I (recordResponseStats timeoutMs started c) (fun _ => I) E :=
  Triple.bind h.monotonic_preserves fun _ => Triple.modify fun s hs => h.stats s _ hs

/-- The exception is the one given. -/
theorem failWith_raises (h : ClockInvariant I) {Q : α → MotuUsbDatastore → Prop} :
    Triple I (failWith a started c e) Q (fun e' s => e' = e ∧ I s) :=
  Triple.bind h.recordResponseStats_preserves fun _ => Triple.throw fun _ hs => ⟨rfl, hs⟩

theorem failWith_preserves (h : ClockInvariant I) {Q : α → MotuUsbDatastore → Prop} :
    Triple I (failWith a started c e) Q (fun _ => I) :=
  h.failWith_raises.conseq (fun _ hs => hs) (fun _ _ hs => hs) fun _ _ hs => hs.2

theorem raiseIf_preserves (h : ClockInvariant I) : Preserves I (raiseIf a started c e) := by
  cases e with
  | none => exact Triple.pure fun _ hs => hs
  | some e => exact h.failWith_preserves

theorem beforeRead_preserves (h : ClockInvariant I) :
    Preserves I (beforeRead a started deadline c) :=
  Triple.bind h.shouldCancel_preserves fun _ => Triple.bind h.raiseIf_preserves fun _ =>
    Triple.bind h.raiseIf_preserves fun _ => Triple.bind h.monotonic_preserves fun _ =>
      h.raiseIf_preserves

theorem sliceOnly_preserves (h : ClockInvariant I) :
    Triple I (sliceOnly a deadline) (fun _ => I) E :=
  Triple.ite (fun _ => Triple.bind h.monotonic_preserves fun _ => Triple.pure fun _ hs => hs)
    fun _ => Triple.pure fun _ hs => hs

end ClockInvariant

namespace CollectorInvariant

variable {I : MotuUsbDatastore → Prop}

theorem clockInvariant (h : CollectorInvariant I) : ClockInvariant I where
  cancels := h.cancels
  clock := h.clock
  stats s stats := h.results s stats s.lastResponseEtag s.lastResponsePayload

theorem acknowledge_preserves (h : CollectorInvariant I) :
    Preserves I (MotuUsbDatastore.acknowledge b) := by
  cases b with
  | false => exact Triple.pure fun _ hs => hs
  | true => exact h.acknowledge

theorem perform_preserves (h : CollectorInvariant I) : Preserves I (perform a started r) :=
  Triple.bind h.clockInvariant.raiseIf_preserves fun _ => Triple.bind h.acknowledge_preserves fun _ =>
    Triple.bind h.clockInvariant.raiseIf_preserves fun _ => Triple.pure fun _ hs => hs

theorem readFrame_preserves (h : CollectorInvariant I) : Preserves I (readFrame b) := by
  intro s hs
  cases hr : readLogicalFrame b s.wire.reads with
  | mk r reads =>
    cases r with
    | ok packet => simp only [readFrame, hr]; exact h.reads s reads hs
    | error e => simp only [readFrame, hr]; exact h.reads s reads hs

theorem readPacket_preserves (h : CollectorInvariant I) : Preserves I (readPacket a started c) := by
  intro s hs
  have hread := h.readFrame_preserves (b := a.useCancellableRead) s hs
  cases hr : readFrame a.useCancellableRead s with
  | ok packet s' =>
    rw [hr] at hread
    simp only [readPacket, hr]
    exact hread
  | error e s' =>
    rw [hr] at hread
    simp only [readPacket, hr]
    by_cases hk : e.kind = .datastoreCancelled
    · rw [if_pos hk]
      exact h.clockInvariant.failWith_preserves _ hread
    · rw [if_neg hk]
      exact hread

theorem handlePacket_preserves (h : CollectorInvariant I) :
    Preserves I (handlePacket a started deadline c packet) := by
  exact Triple.ite (fun _ => Triple.bind h.clockInvariant.sliceOnly_preserves fun _ =>
    Triple.pure fun _ hs => hs) fun _ => h.perform_preserves

theorem collectLoop_preserves (h : CollectorInvariant I) :
    Preserves I (collectLoop a started deadline n c) := by
  induction n generalizing c with
  | zero =>
    exact Triple.ite (fun _ => Triple.pure fun _ hs => hs) fun _ =>
      Triple.bind h.clockInvariant.beforeRead_preserves fun _ => Triple.pure fun _ hs => hs
  | succ n ih =>
    refine Triple.ite (fun _ => Triple.pure fun _ hs => hs) fun _ =>
      Triple.bind h.clockInvariant.beforeRead_preserves fun _ => Triple.bind h.readPacket_preserves fun _ =>
        Triple.bind h.handlePacket_preserves fun r => ?_
    exact Triple.ite (fun _ => Triple.pure fun _ hs => hs) fun _ => ih

theorem finish_preserves (h : CollectorInvariant I) : Preserves I (finish a started c) := by
  refine Triple.ite (fun _ => h.clockInvariant.failWith_preserves) fun _ => ?_
  cases Responses.joinParsedResponseFrames c.frames with
  | error e => exact h.clockInvariant.failWith_preserves
  | ok response =>
    exact Triple.bind (Triple.modify fun s hs => h.results s _ _ _ hs) fun _ =>
      Triple.bind h.clockInvariant.recordResponseStats_preserves fun _ => Triple.pure fun _ hs => hs

theorem collectResponse_preserves (h : CollectorInvariant I) : Preserves I (collectResponse a) :=
  Triple.bind (Triple.modify fun s hs => h.results s _ _ _ hs) fun _ =>
    Triple.bind h.clockInvariant.monotonic_preserves fun _ => Triple.bind h.clockInvariant.monotonic_preserves fun _ =>
      Triple.bind h.collectLoop_preserves fun _ => h.finish_preserves

theorem drainLoop_preserves (h : CollectorInvariant I) :
    Preserves I (drainLoop quietReads maxReads n quiet packets) := by
  induction n generalizing quiet packets with
  | zero => exact Triple.ite (fun _ => Triple.pure fun _ hs => hs) fun _ => Triple.throw fun _ hs => hs
  | succ n ih =>
    refine Triple.ite (fun _ => Triple.pure fun _ hs => hs) fun _ =>
      Triple.bind h.readFrame_preserves fun _ => ?_
    exact Triple.ite (fun _ => ih) fun _ => ih

end CollectorInvariant

end Datastore

end MotuProxy
