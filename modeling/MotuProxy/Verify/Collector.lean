import MotuProxy.Verify.Isolation

/-! # The collector on a calm transport

While every write succeeds and the deadline is not reached, what the collector returns depends on
the pipe alone. `collectPure` is the loop as a function of the coming reads, `Yields` the
simulation of a method by such a function, and `get_iff` says that a foreground `get` returns what
the pure collector returns.
-/

namespace MotuProxy

open Py Protocol Responses

namespace Datastore

/-- What a method raises. -/
def raisedKind : EStateM.Result Exn MotuUsbDatastore α → Option ExnKind
  | .ok _ _ => none
  | .error e _ => some e.kind

/-! ## Simulation by a function of the pipe -/

/-- Every write succeeds, and every coming clock reading is before the deadline. -/
structure Calm (deadline : Nat) (s : MotuUsbDatastore) : Prop where
  writes : ∀ w ∈ s.wire.writes, w = .full
  clock : ∀ t ∈ s.wire.now :: s.wire.clock, t < deadline

/-- The method does what the function of the pipe does: it returns `a` and leaves `reads`, or it
raises. -/
def Yields (deadline : Nat) (x : Proc α) (s : MotuUsbDatastore) (o : Option (α × List ReadEvent)) :
    Prop :=
  match x s, o with
  | .ok a s', some (b, reads) => a = b ∧ Calm deadline s' ∧ s'.wire.reads = reads
  | .error _ _, none => True
  | _, _ => False

section
variable {deadline : Nat} {s : MotuUsbDatastore}

theorem Yields.returns {x : Proc α} (h : Yields deadline x s (some (a, reads))) :
    ∃ s', x s = .ok a s' ∧ Calm deadline s' ∧ s'.wire.reads = reads := by
  unfold Yields at h
  cases hx : x s with
  | ok b s' =>
    rw [hx] at h
    obtain ⟨rfl, h⟩ := h
    exact ⟨s', rfl, h⟩
  | error e s' => rw [hx] at h; exact h.elim

theorem Yields.raises {x : Proc α} (h : Yields deadline x s none) : ∃ e s', x s = .error e s' := by
  unfold Yields at h
  cases hx : x s with
  | ok b s' => rw [hx] at h; exact h.elim
  | error e s' => exact ⟨e, s', rfl⟩

theorem Yields.of_ok {x : Proc α} (hx : x s = .ok a s') (hs : Calm deadline s')
    (hr : s'.wire.reads = reads) : Yields deadline x s (some (a, reads)) := by
  unfold Yields
  rw [hx]
  exact ⟨rfl, hs, hr⟩

theorem Yields.of_error {x : Proc α} (hx : x s = .error e s') : Yields deadline x s none := by
  unfold Yields
  rw [hx]
  trivial

theorem Yields.pure (hs : Calm deadline s) :
    Yields deadline (pure a : Proc α) s (some (a, s.wire.reads)) := .of_ok rfl hs rfl

theorem Yields.bind {x : Proc α} {f : α → Proc β} {g : α × List ReadEvent → Option (β × List ReadEvent)}
    (hx : Yields deadline x s o)
    (hf : ∀ a s', o = some (a, s'.wire.reads) → Calm deadline s' →
      Yields deadline (f a) s' (g (a, s'.wire.reads))) :
    Yields deadline (x >>= f) s (o.bind g) := by
  cases o with
  | none =>
    obtain ⟨e, s', hx⟩ := hx.raises
    exact .of_error (EStateM.bind_error hx)
  | some p =>
    obtain ⟨a, reads⟩ := p
    obtain ⟨s', hret, hs, rfl⟩ := hx.returns
    have := hf a s' rfl hs
    unfold Yields at this
    unfold Yields
    rw [EStateM.bind_ok hret]
    exact this

/-- A method that always returns and leaves the pipe alone. -/
theorem Yields.bind_some {x : Proc α} {f : α → Proc β}
    (hx : Yields deadline x s (some (a, s.wire.reads)))
    (hf : ∀ s', s'.wire.reads = s.wire.reads → Calm deadline s' → Yields deadline (f a) s' o) :
    Yields deadline (x >>= f) s o := by
  obtain ⟨s', hx, hs, hreads⟩ := hx.returns
  have := hf s' hreads hs
  unfold Yields at this ⊢
  rwa [EStateM.bind_ok hx]

open MotuUsbDatastore

theorem monotonic_yields (hs : Calm deadline s) :
    ∃ t < deadline, Yields deadline monotonic s (some (t, s.wire.reads)) := by
  cases hc : s.wire.clock with
  | nil =>
    exact ⟨s.wire.now, hs.clock _ List.mem_cons_self, .of_ok (by simp [monotonic, hc]) hs rfl⟩
  | cons t clock =>
    have ht (u : Nat) (hu : u ∈ t :: clock) : u < deadline :=
      hs.clock u (List.mem_cons_of_mem _ (hc ▸ hu))
    refine ⟨t, ht t List.mem_cons_self, ?_⟩
    have hx : monotonic s = .ok t { s with wire := { s.wire with now := t, clock } } := by
      simp [monotonic, hc]
    exact .of_ok hx ⟨hs.writes, ht⟩ rfl

/-- The session after a frame was written completely. -/
def sent (s : MotuUsbDatastore) (frame : Bytes) : MotuUsbDatastore :=
  { s with wire := { s.wire with
    writes := s.wire.writes.tail
    handed := s.wire.handed ++ [frame]
    delivered := s.wire.delivered ++ [frame] } }

theorem writeFrame_eq (hw : ∀ w ∈ s.wire.writes, w = .full) :
    writeFrame frame s = .ok () (sent s frame) := by
  have hx : bulkWrite frame s = .ok frame.length (sent s frame) := by
    cases hws : s.wire.writes with
    | nil => simp [bulkWrite, sent, hws]
    | cons event writes =>
      have he : event = .full := hw event (hws ▸ List.mem_cons_self)
      simp [bulkWrite, sent, hws, he]
  rw [writeFrame, EStateM.bind_ok hx, if_neg (by simp)]
  rfl

theorem writeFrame_yields (hs : Calm deadline s) :
    Yields deadline (writeFrame frame) s (some ((), s.wire.reads)) :=
  .of_ok (writeFrame_eq hs.writes)
    ⟨fun w h => hs.writes w (List.mem_of_mem_tail h), hs.clock⟩ rfl

theorem acknowledge_yields (hs : Calm deadline s) :
    Yields deadline (acknowledge b) s (some ((), s.wire.reads)) := by
  cases b with
  | false => exact .pure hs
  | true =>
    refine Yields.bind_some (a := s.hostSeq) (.of_ok rfl ⟨hs.writes, hs.clock⟩ rfl) fun s' hr hs' => ?_
    rw [← hr]
    exact writeFrame_yields hs'

theorem recordResponseStats_yields (hs : Calm deadline s) :
    Yields deadline (recordResponseStats timeoutMs started c) s (some ((), s.wire.reads)) := by
  obtain ⟨t, -, ht⟩ := monotonic_yields hs
  refine Yields.bind_some ht fun s' hr hs' => ?_
  rw [← hr]
  exact .of_ok rfl ⟨hs'.writes, hs'.clock⟩ rfl

theorem failWith_yields (hs : Calm deadline s) :
    Yields deadline (failWith a started c e : Proc α) s none := by
  refine Yields.bind_some (recordResponseStats_yields hs) fun s' _ _ => ?_
  exact .of_error rfl

theorem raiseIf_yields {e : Option Exn} (hs : Calm deadline s) : Yields deadline (raiseIf a started c e) s
    (if e.isSome then none else some ((), s.wire.reads)) := by
  cases e with
  | none => exact .pure hs
  | some e => exact failWith_yields hs

/-! ## The pure collector -/

/-- A reaction without an exception. -/
def Reaction.quiet (r : Reaction) : Bool := r.early.isNone && r.late.isNone

/-- The loop of the collector as a function of the pipe. -/
def collectPure (a : CollectArgs) : Nat → Collect → List ReadEvent → Option (Collect × List ReadEvent)
  | 0, c, reads => if 2 ≤ c.quietReads then some (c, reads) else none
  | n + 1, c, reads =>
    if 2 ≤ c.quietReads then some (c, reads)
    else match readLogicalFrame a.useCancellableRead reads with
      | (.error _, _) => none
      | (.ok packet, reads) =>
        let c := { c with reads := c.reads + 1 }
        if packet = [] then collectPure a n { c with quietReads := c.quietReads + 1 } reads
        else
          let r := react a c packet
          if r.quiet then if r.stop then some (r.next, reads) else collectPure a n r.next reads
          else none

theorem perform_yields (hs : Calm deadline s) : Yields deadline (perform a started r) s
    (if r.quiet then some ((r.next, r.stop), s.wire.reads) else none) := by
  unfold perform Reaction.quiet
  cases he : r.early with
  | some e =>
    exact (raiseIf_yields (e := some e) hs).bind (g := fun _ => none) fun _ _ h _ => by cases h
  | none =>
    refine Yields.bind_some (raiseIf_yields (e := none) hs) fun s₁ h₁ hs₁ => ?_
    refine Yields.bind_some (acknowledge_yields hs₁) fun s₂ h₂ hs₂ => ?_
    cases hl : r.late with
    | some e =>
      exact (raiseIf_yields (e := some e) hs₂).bind (g := fun _ => none) fun _ _ h _ => by cases h
    | none =>
      refine Yields.bind_some (raiseIf_yields (e := none) hs₂) fun s₃ h₃ hs₃ => ?_
      rw [← h₁, ← h₂, ← h₃]
      exact .pure hs₃

theorem beforeRead_yields (hs : Calm deadline s) (ha : a.shouldCancel = false) :
    Yields deadline (beforeRead a started deadline c) s
      (if a.maxReads ≤ c.reads then none else some ((), s.wire.reads)) := by
  refine Yields.bind_some (a := false) (.of_ok (by simp [MotuUsbDatastore.shouldCancel, ha]) hs rfl)
    fun s₁ h₁ hs₁ => ?_
  refine Yields.bind_some (raiseIf_yields (e := none) hs₁) fun s₂ h₂ hs₂ => ?_
  by_cases hr : a.maxReads ≤ c.reads
  · simp only [hr, if_true]
    exact (raiseIf_yields (e := some _) hs₂).bind (g := fun _ => none) fun _ _ h _ => by cases h
  · simp only [hr, if_false]
    refine Yields.bind_some (raiseIf_yields (e := none) hs₂) fun s₃ h₃ hs₃ => ?_
    obtain ⟨t, ht, hmono⟩ := monotonic_yields hs₃
    refine Yields.bind_some hmono fun s₄ h₄ hs₄ => ?_
    rw [if_neg (Nat.not_le.mpr ht), ← h₁, ← h₂, ← h₃, ← h₄]
    exact .pure hs₄

theorem readPacket_yields (hs : Calm deadline s) : Yields deadline (readPacket a started c) s
    (match readLogicalFrame a.useCancellableRead s.wire.reads with
      | (.error _, _) => none
      | (.ok packet, reads) => some (packet, reads)) := by
  cases hr : readLogicalFrame a.useCancellableRead s.wire.reads with
  | mk r reads =>
    cases r with
    | ok packet =>
      have hx : readPacket a started c s =
          .ok packet { s with wire := { s.wire with reads } } := by simp [readPacket, readFrame, hr]
      exact .of_ok hx ⟨hs.writes, hs.clock⟩ rfl
    | error e =>
      have hs' : Calm deadline { s with wire := { s.wire with reads } } := ⟨hs.writes, hs.clock⟩
      by_cases hk : e.kind = .datastoreCancelled
      · have hfail : Yields deadline (failWith a started c e : Proc Bytes) _ none := failWith_yields hs'
        obtain ⟨e', s', hx⟩ := hfail.raises
        have hread : readPacket a started c s = .error e' s' := by simp [readPacket, readFrame, hr, hk, hx]
        exact .of_error hread
      · have hread : readPacket a started c s = .error e { s with wire := { s.wire with reads } } := by
          simp [readPacket, readFrame, hr, hk]
        exact .of_error hread

theorem handlePacket_yields (hs : Calm deadline s) (ha : a.readTimeoutSliceMs = none) :
    Yields deadline (handlePacket a started deadline c packet) s
      (if packet = [] then some (({ c with quietReads := c.quietReads + 1 }, false), s.wire.reads)
      else if (react a c packet).quiet then
        some (((react a c packet).next, (react a c packet).stop), s.wire.reads) else none) := by
  unfold handlePacket
  by_cases hp : packet = []
  · rw [if_pos hp, if_pos hp]
    refine Yields.bind_some (a := false) ?_ fun s' hr hs' => ?_
    · rw [sliceOnly, if_neg (by simp [ha])]
      exact .pure hs
    · rw [← hr]
      exact .pure hs'
  · rw [if_neg hp, if_neg hp]
    exact perform_yields hs

theorem collectLoop_yields (ha : a.shouldCancel = false) (hslice : a.readTimeoutSliceMs = none)
    (hs : Calm deadline s) (hn : c.reads + n = a.maxReads) :
    Yields deadline (collectLoop a started deadline n c) s (collectPure a n c s.wire.reads) := by
  induction n generalizing c s with
  | zero =>
    unfold collectLoop collectPure
    by_cases hq : 2 ≤ c.quietReads
    · rw [if_pos hq, if_pos hq]
      exact .pure hs
    · rw [if_neg hq, if_neg hq]
      have hb : Yields deadline (beforeRead a started deadline c) s _ := beforeRead_yields hs ha
      rw [if_pos (by omega)] at hb
      exact hb.bind (g := fun _ => none) fun _ _ h _ => by cases h
  | succ n ih =>
    unfold collectLoop collectPure
    by_cases hq : 2 ≤ c.quietReads
    · rw [if_pos hq, if_pos hq]
      exact .pure hs
    · rw [if_neg hq, if_neg hq]
      have hb : Yields deadline (beforeRead a started deadline c) s _ := beforeRead_yields hs ha
      rw [if_neg (by omega)] at hb
      refine Yields.bind_some hb fun s₁ h₁ hs₁ => ?_
      have hread : Yields deadline (readPacket a started c) s₁ _ := readPacket_yields hs₁
      rw [h₁] at hread
      cases hr : readLogicalFrame a.useCancellableRead s.wire.reads with
      | mk r reads =>
        rw [hr] at hread
        cases r with
        | error e => exact hread.bind (g := fun _ => none) fun _ _ h _ => by cases h
        | ok packet =>
          obtain ⟨s₂, hx₂, hs₂, hr₂⟩ := hread.returns
          unfold Yields
          rw [EStateM.bind_ok hx₂]
          change Yields deadline _ s₂ _
          have hh : Yields deadline (handlePacket a started deadline { c with reads := c.reads + 1 }
            packet) s₂ _ := handlePacket_yields hs₂ hslice
          simp only
          by_cases hp : packet = []
          · rw [if_pos hp] at hh ⊢
            refine Yields.bind_some hh fun s₃ h₃ hs₃ => ?_
            rw [if_neg (by simp), ← hr₂, ← h₃]
            exact ih hs₃ (by simp only; omega)
          · rw [if_neg hp] at hh ⊢
            by_cases hquiet : (react a { c with reads := c.reads + 1 } packet).quiet = true
            · rw [if_pos hquiet] at hh ⊢
              refine Yields.bind_some hh fun s₃ h₃ hs₃ => ?_
              simp only
              by_cases hstop : (react a { c with reads := c.reads + 1 } packet).stop = true
              · rw [if_pos hstop, if_pos hstop, ← hr₂, ← h₃]
                exact .pure hs₃
              · rw [if_neg hstop, if_neg hstop, ← hr₂, ← h₃]
                exact ih hs₃ (by rw [react_reads]; simp only; omega)
            · rw [if_neg hquiet] at hh ⊢
              exact hh.bind (g := fun _ => none) fun _ _ h _ => by cases h

end

/-! ## A request on a calm transport -/

/-- What comes after the loop. -/
def conclude (c : Collect) : Option Bytes :=
  if c.frames = [] then none else (joinParsedResponseFrames c.frames).toOption

/-- The loop and what comes after it. -/
def collected (a : CollectArgs) (n : Nat) (c : Collect) (reads : List ReadEvent) : Option Bytes :=
  (collectPure a n c reads).bind fun p => conclude p.1

/-- What `_collect_response` returns, as a function of the pipe. -/
def responsePure (a : CollectArgs) (reads : List ReadEvent) : Option Bytes :=
  collected a a.maxReads {} reads

/-- Every write succeeds, and the coming clock readings are less than the timeout apart. -/
structure Ready (timeoutMs : Nat) (s : MotuUsbDatastore) : Prop where
  writes : ∀ w ∈ s.wire.writes, w = .full
  clock : ∃ lo, ∀ t ∈ s.wire.now :: s.wire.clock, lo ≤ t ∧ t < lo + timeoutMs

section
variable {s : MotuUsbDatastore}

open MotuUsbDatastore

theorem Calm.mono (hs : Calm deadline s) (h : deadline ≤ deadline') : Calm deadline' s :=
  ⟨hs.writes, fun t ht => Nat.lt_of_lt_of_le (hs.clock t ht) h⟩

/-- Reading the clock keeps a lower bound of the coming readings. -/
theorem monotonic_ge (hs : Calm deadline s) (hlo : ∀ t ∈ s.wire.now :: s.wire.clock, lo ≤ t) :
    ∃ t s', monotonic s = .ok t s' ∧ lo ≤ t ∧ Calm deadline s' ∧ s'.wire.reads = s.wire.reads ∧
      ∀ t ∈ s'.wire.now :: s'.wire.clock, lo ≤ t := by
  cases hc : s.wire.clock with
  | nil =>
    exact ⟨s.wire.now, s, by simp [monotonic, hc], hlo _ List.mem_cons_self, hs, rfl, hlo⟩
  | cons t clock =>
    have hmem (u : Nat) (hu : u ∈ t :: clock) : u ∈ s.wire.now :: s.wire.clock :=
      List.mem_cons_of_mem _ (hc ▸ hu)
    exact ⟨t, { s with wire := { s.wire with now := t, clock } }, by simp [monotonic, hc],
      hlo t (hmem t List.mem_cons_self), ⟨hs.writes, fun u hu => hs.clock u (hmem u hu)⟩, rfl,
      fun u hu => hlo u (hmem u hu)⟩

theorem finish_yields (hs : Calm deadline s) : Yields deadline (finish a started c) s
    (if c.frames = [] then none
      else (joinParsedResponseFrames c.frames).toOption.map fun r => (r, s.wire.reads)) := by
  unfold finish
  by_cases hf : c.frames = []
  · rw [if_pos hf, if_pos hf]
    exact failWith_yields hs
  · rw [if_neg hf, if_neg hf]
    cases hj : joinParsedResponseFrames c.frames with
    | error e => exact failWith_yields hs
    | ok response =>
      refine Yields.bind_some (a := ()) (.of_ok rfl ⟨hs.writes, hs.clock⟩ rfl) fun s₁ h₁ hs₁ => ?_
      refine Yields.bind_some (recordResponseStats_yields hs₁) fun s₂ h₂ hs₂ => ?_
      exact .of_ok rfl hs₂ (by rw [h₂, h₁])

theorem collectResponse_iff (hs : Ready a.timeoutMs s) (ha : a.shouldCancel = false)
    (hslice : a.readTimeoutSliceMs = none) :
    (∃ s', collectResponse a s = .ok response s') ↔ responsePure a s.wire.reads = some response := by
  obtain ⟨lo, hlo⟩ := hs.clock
  obtain ⟨s₁, hs₁⟩ : ∃ s₁, s₁ = { s with
    lastResponseStats := none, lastResponseEtag := none, lastResponsePayload := none } := ⟨_, rfl⟩
  have hcalm : Calm (lo + a.timeoutMs) s₁ := by
    rw [hs₁]
    exact ⟨hs.writes, fun t ht => (hlo t ht).2⟩
  have hge : ∀ t ∈ s₁.wire.now :: s₁.wire.clock, lo ≤ t := by
    rw [hs₁]
    exact fun t ht => (hlo t ht).1
  obtain ⟨started, s₂, hx₂, -, hcalm₂, hr₂, hge₂⟩ := monotonic_ge hcalm hge
  obtain ⟨t, s₃, hx₃, ht, hcalm₃, hr₃, -⟩ := monotonic_ge hcalm₂ hge₂
  -- the deadline is set no earlier than the lower bound plus the timeout
  have hs₃ : Calm (t + a.timeoutMs) s₃ := hcalm₃.mono (by omega)
  have hreads : s₃.wire.reads = s.wire.reads := by rw [hr₃, hr₂, hs₁]
  have heq : collectResponse a s = (collectLoop a started (t + a.timeoutMs) a.maxReads {} >>=
      finish a started) s₃ := by
    unfold collectResponse
    have hx₁ : (modify fun s : MotuUsbDatastore => { s with
      lastResponseStats := none, lastResponseEtag := none, lastResponsePayload := none } : Proc _) s =
        .ok () s₁ := by rw [hs₁]; rfl
    rw [EStateM.bind_ok hx₁, EStateM.bind_ok hx₂, EStateM.bind_ok hx₃]
  have hloop : Yields (t + a.timeoutMs) (collectLoop a started (t + a.timeoutMs) a.maxReads {}) s₃ _ :=
    collectLoop_yields ha hslice hs₃ (Nat.zero_add _)
  have hall := hloop.bind (f := finish a started)
    (g := fun p => if p.1.frames = [] then none
      else (joinParsedResponseFrames p.1.frames).toOption.map fun r => (r, p.2))
    fun c s' _ hs' => finish_yields hs'
  rw [heq, responsePure, collected, ← hreads]
  cases hp : collectPure a a.maxReads {} s₃.wire.reads with
  | none =>
    rw [hp] at hall
    obtain ⟨e, s', hx⟩ := hall.raises
    simp [hx]
  | some p =>
    rw [hp] at hall
    simp only [Option.bind_some, conclude] at hall ⊢
    by_cases hf : p.1.frames = []
    · rw [if_pos hf] at hall ⊢
      obtain ⟨e, s', hx⟩ := hall.raises
      simp [hx]
    · rw [if_neg hf] at hall ⊢
      cases hj : joinParsedResponseFrames p.1.frames with
      | error e =>
        rw [hj] at hall
        obtain ⟨e', s', hx⟩ := hall.raises
        simp [hx, Except.toOption]
      | ok r =>
        rw [hj] at hall
        obtain ⟨s', hx, -⟩ := hall.returns
        simp [hx, Except.toOption]

/-- The request of a foreground read, as the coordinator makes it. -/
def foregroundGet (path etag : Str) (client : Option FieldValue)
    (queryFields : Option (List QueryField)) : GetArgs := { path, etag, client, queryFields }

/-- On a calm transport a foreground `get` returns what the pure collector makes of the pipe. -/
theorem get_iff (hs : Ready DEFAULT_RESPONSE_TIMEOUT_MS s)
    (hbuild : buildGetFrame s.hostSeq s.currentMessageSeq path etag (py "NREK") client fields =
      .ok frame) :
    (∃ s', get (foregroundGet path etag client fields) s = .ok response s') ↔
      responsePure { expectedMessageSeq := s.currentMessageSeq } s.wire.reads = some response := by
  have hx : get (foregroundGet path etag client fields) s =
      collectResponse { expectedMessageSeq := s.currentMessageSeq }
        { sent { s with hostSeq := Protocol.nextHostSeq s.hostSeq } frame with
          messageSeq := ((s.currentMessageSeq + 1) % 2 ^ 32 : Nat) } := by
    have hg : (MonadState.get : Proc _) s = .ok s s := rfl
    have hn : nextHostSeq s = .ok s.hostSeq { s with hostSeq := Protocol.nextHostSeq s.hostSeq } := rfl
    have hw : writeFrame frame { s with hostSeq := Protocol.nextHostSeq s.hostSeq } =
        .ok () (sent { s with hostSeq := Protocol.nextHostSeq s.hostSeq } frame) :=
      writeFrame_eq hs.writes
    unfold MotuUsbDatastore.get exchange
    rw [EStateM.bind_ok hg, EStateM.bind_ok hn]
    simp only [foregroundGet, hbuild]
    have hl : MotuUsbDatastore.liftExcept (.ok frame)
        { s with hostSeq := Protocol.nextHostSeq s.hostSeq } = .ok frame _ := rfl
    have ha : advanceMessageSeq (sent { s with hostSeq := Protocol.nextHostSeq s.hostSeq } frame) =
        .ok () _ := rfl
    rw [EStateM.bind_ok hl, EStateM.bind_ok hw, EStateM.bind_ok ha]
    rfl
  rw [hx]
  exact collectResponse_iff (a := { expectedMessageSeq := s.currentMessageSeq })
    ⟨fun w h => hs.writes w (List.mem_of_mem_tail h), hs.clock⟩ rfl rfl

end

end Datastore

end MotuProxy
