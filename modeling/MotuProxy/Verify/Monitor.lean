import MotuProxy.Verify.Steps

/-! # The I/O monitor

`Monitor` says what the shared fields have to do with the program counters: at most one thread owns
the I/O, the fields name it, and the waiters are counted. A step of a thread changes the fields and
its own program counter together (`Turn`, `PollTurn`), so the invariant holds in every run.

While a thread owns the I/O no other thread runs a datastore operation, so the response that the
datastore remembers is the thread's own (`Faithful`).
-/

namespace MotuProxy

open Py Protocol Responses

namespace Coordinator

open Datastore (ManagedDatastore)
open DatastoreCoordinator

@[simp] theorem Env.publish_shared {e : Env} :
    (e.publish cfg request payload originClient fromEtag recordTransition).shared =
      e.shared.publishPayload cfg payload originClient fromEtag recordTransition := rfl

/-! ## Owners and waiters -/

/-- Between acquiring and releasing the I/O. -/
def IoPc.owns : IoPc → Bool
  | .start | .acquiring _ | .done _ => false
  | _ => true

/-- Inside `_acquire_foreground_io`. -/
def IoPc.waits : IoPc → Bool
  | .acquiring _ => true
  | _ => false

def Client.owns (c : Client) : Bool := c.call?.any (·.pc.owns)

def Client.waits (c : Client) : Bool := c.call?.any (·.pc.waits)

def PollPc.owns : PollPc → Bool
  | .owning _ | .inCall _ | .responded .. | .payload .. | .releasing _ => true
  | _ => false

/-- The fields of the monitor are the same. -/
structure SameIo (s s' : DatastoreCoordinator) : Prop where
  busy : s'.ioBusy = s.ioBusy
  owner : s'.ioOwner = s.ioOwner
  waiters : s'.foregroundWaiters = s.foregroundWaiters
  active : s'.activePollRead = s.activePollRead

theorem publishPayload_sameIo {s : DatastoreCoordinator} :
    SameIo s (s.publishPayload cfg payload originClient fromEtag recordTransition) := by
  unfold publishPayload
  split
  · exact ⟨rfl, rfl, rfl, rfl⟩
  · split
    · exact ⟨rfl, rfl, rfl, rfl⟩
    · split <;> exact ⟨rfl, rfl, rfl, rfl⟩

theorem resetIfSessionGenerationChanged_sameIo {s : DatastoreCoordinator} :
    SameIo s (s.resetIfSessionGenerationChanged generation) := by
  unfold resetIfSessionGenerationChanged
  split <;> exact ⟨rfl, rfl, rfl, rfl⟩

theorem Quiet.sameIo {e e' : Env} (h : Quiet e e') : SameIo e.shared e'.shared := by
  obtain ⟨_, _, rfl⟩ := h
  exact ⟨rfl, rfl, rfl, rfl⟩

/-- The fields change by the contribution of one foreground operation. -/
structure Turn (s s' : DatastoreCoordinator) (waits owns waits' owns' : Bool) : Prop where
  waiters : s'.foregroundWaiters + waits.toNat = s.foregroundWaiters + waits'.toNat
  io : (owns' = owns ∧ s'.ioBusy = s.ioBusy ∧ s'.ioOwner = s.ioOwner ∧
      s'.activePollRead = s.activePollRead) ∨
    (owns = false ∧ owns' = true ∧ s.ioBusy = false ∧ s'.ioBusy = true ∧
      s'.ioOwner = some .foreground ∧ s'.activePollRead = s.activePollRead) ∨
    (owns = true ∧ owns' = false ∧ s'.ioBusy = false ∧ s'.ioOwner = none ∧ s'.activePollRead = none)

theorem SameIo.turn {s s' : DatastoreCoordinator} (h : SameIo s s') : Turn s s' waits owns waits owns :=
  ⟨by rw [h.waiters], .inl ⟨rfl, h.busy, h.owner, h.active⟩⟩

theorem entering_cases {pc : IoPc} (h : pc.entering s = some (s', deadline)) :
    pc.owns = false ∧ s'.ioBusy = s.ioBusy ∧ s'.ioOwner = s.ioOwner ∧
      s'.activePollRead = s.activePollRead ∧
      s'.foregroundWaiters + pc.waits.toNat = s.foregroundWaiters + 1 := by
  cases pc with
  | start => cases h; exact ⟨rfl, rfl, rfl, rfl, by simp [IoPc.waits]⟩
  | acquiring d => cases h; exact ⟨rfl, rfl, rfl, rfl, by simp [IoPc.waits]⟩
  | _ => cases h

/-- The calls of the managed datastore leave the monitor alone. -/
theorem begin_sameIo {e e' : Env} (h : e.begin request choice = some (r, e')) :
    SameIo e.shared e'.shared := by
  have hs : e'.shared = e.shared := by
    cases r with
    | ok =>
      obtain ⟨-, -, -, -, hs, -⟩ := Env.begin_ok h
      exact hs
    | error exc =>
      obtain ⟨-, -, -, hs, -⟩ := Env.begin_error h
      exact hs
  rw [hs]
  exact ⟨rfl, rfl, rfl, rfl⟩

theorem finish_sameIo {e e' : Env} (h : e.finish request choice = some (r, e')) :
    SameIo e.shared e'.shared := by
  cases r with
  | ok response =>
    cases Env.finish_ok h
    exact ⟨rfl, rfl, rfl, rfl⟩
  | error exc =>
    obtain ⟨_, _, _, rfl⟩ := Env.finish_error h
    exact ⟨rfl, rfl, rfl, rfl⟩

/-- A thread takes the monitor, waits for it or gives it up; its other steps leave it alone. -/
theorem IoStep.turn {e e' : Env} {c c' : IoCall} (h : IoStep cfg e c choice e' c') :
    Turn e.shared e'.shared c.pc.waits c.pc.owns c'.pc.waits c'.pc.owns := by
  cases h with
  | acquire hpc hfree =>
    obtain ⟨howns, hbusy, -, hactive, hw⟩ := entering_cases hpc
    refine ⟨?_, .inr (.inl ⟨howns, rfl, hbusy ▸ hfree, rfl, rfl, hactive⟩)⟩
    simp only [IoPc.waits, Bool.toNat_false] at hw ⊢
    omega
  | exceed hpc hbusy' =>
    obtain ⟨howns, hbusy, howner, hactive, hw⟩ := entering_cases hpc
    refine ⟨?_, .inl ⟨howns.symm, hbusy, howner, hactive⟩⟩
    simp only [IoPc.waits, Bool.toNat_false] at hw ⊢
    omega
  | wait hpc hbusy' =>
    obtain ⟨howns, hbusy, howner, hactive, hw⟩ := entering_cases hpc
    refine ⟨?_, .inl ⟨howns.symm, hbusy, howner, hactive⟩⟩
    simp only [IoPc.waits, Bool.toNat_true] at hw ⊢
    omega
  | beginOk hpc hb | beginFail hpc hb =>
    rw [hpc]
    exact (begin_sameIo hb).turn
  | refreshBegin hpc hjob hb | refreshBeginFail hpc hjob hb =>
    rw [hpc]
    exact (begin_sameIo hb).turn
  | respond hpc hf | raise hpc hf | refreshRespond hpc hf | refreshRaise hpc hf =>
    rw [hpc]
    exact (finish_sameIo hf).turn
  | payload hpc | refreshPayload hpc =>
    rw [hpc]
    exact resetIfSessionGenerationChanged_sameIo.turn
  | publishRead hpc hjob | publishRefresh hpc hjob =>
    rw [hpc]
    exact publishPayload_sameIo.turn
  | release hpc =>
    rw [hpc]
    exact ⟨rfl, .inr (.inr ⟨rfl, rfl, rfl, rfl, rfl⟩)⟩

theorem not_owns_of_none {c : Client} (h : c.call? = none) : c.owns = false ∧ c.waits = false := by
  simp [Client.owns, Client.waits, h]

/-- A step of a client thread changes the fields by the thread's own contribution. -/
theorem Client.turn {e e' : Env} {c c' : Client} (h : c.step cfg e choice = some (e', c')) :
    Turn e.shared e'.shared c.waits c.owns c'.waits c'.owns := by
  rcases Client.step_cases h with ⟨call, call', hc, hc', hstep⟩ | ⟨hq, hdone, hfresh⟩
  · have := hstep.turn
    simpa [Client.owns, Client.waits, hc, hc'] using this
  · have hidle : c.waits = false ∧ c.owns = false := by
      cases hc : c.call? with
      | none => exact ⟨(not_owns_of_none hc).2, (not_owns_of_none hc).1⟩
      | some call =>
        obtain ⟨r, hr⟩ := hdone call hc
        simp [Client.owns, Client.waits, hc, hr, IoPc.owns, IoPc.waits]
    have hidle' : c'.waits = false ∧ c'.owns = false := by
      cases hc : c'.call? with
      | none => exact ⟨(not_owns_of_none hc).2, (not_owns_of_none hc).1⟩
      | some call => simp [Client.owns, Client.waits, hc, (hfresh call hc).pc, IoPc.owns, IoPc.waits]
    rw [hidle.1, hidle.2, hidle'.1, hidle'.2]
    exact hq.sameIo.turn

/-- The fields change by the contribution of the poller. -/
structure PollTurn (s s' : DatastoreCoordinator) (owns owns' : Bool) : Prop where
  waiters : s'.foregroundWaiters = s.foregroundWaiters
  io : (owns' = owns ∧ s'.ioBusy = s.ioBusy ∧ s'.ioOwner = s.ioOwner ∧
      (s'.activePollRead ≠ none → owns = true ∨ s.activePollRead ≠ none)) ∨
    (owns = false ∧ owns' = true ∧ s.ioBusy = false ∧ s.foregroundWaiters ≤ 0 ∧ s'.ioBusy = true ∧
      s'.ioOwner = some .poller) ∨
    (owns = true ∧ owns' = false ∧ s'.ioBusy = false ∧ s'.ioOwner = none ∧ s'.activePollRead = none)

theorem SameIo.pollTurn {s s' : DatastoreCoordinator} (h : SameIo s s') : PollTurn s s' owns owns :=
  ⟨h.waiters, .inl ⟨rfl, h.busy, h.owner, fun ha => .inr (h.active ▸ ha)⟩⟩

theorem setActivePollRead_io (s : DatastoreCoordinator) (read : Option Nat) :
    (s.setActivePollRead read).ioBusy = s.ioBusy ∧ (s.setActivePollRead read).ioOwner = s.ioOwner ∧
      (s.setActivePollRead read).foregroundWaiters = s.foregroundWaiters := by
  unfold setActivePollRead requestActivePollCancelLocked
  simp only
  split
  · split <;> exact ⟨rfl, rfl, rfl⟩
  · exact ⟨rfl, rfl, rfl⟩

theorem PollStep.turn {e e' : Env} {pc pc' : PollPc} (h : PollStep cfg e pc e' pc') :
    PollTurn e.shared e'.shared pc.owns pc'.owns := by
  have hsame {owns} {e : Env} : PollTurn e.shared e.shared owns owns :=
    SameIo.pollTurn ⟨rfl, rfl, rfl, rfl⟩
  cases h with
  | start | capture | wait | loop => exact hsame
  | stop _ hpc => obtain rfl | ⟨c, rfl⟩ | ⟨exc, rfl⟩ := hpc <;> exact hsame
  | acquire hfree hwaiters => exact ⟨rfl, .inr (.inl ⟨rfl, rfl, hfree, hwaiters, rfl, rfl⟩)⟩
  | beginOk hb =>
    obtain ⟨-, -, -, -, hs, -⟩ := Env.begin_ok hb
    rw [hs]
    exact hsame
  | beginFail hb =>
    obtain ⟨-, -, -, hs, -⟩ := Env.begin_error hb
    rw [hs]
    exact hsame
  | readStarted hcapture =>
    obtain ⟨hb, ho, hw⟩ := setActivePollRead_io e.shared _
    exact ⟨hw, .inl ⟨rfl, hb, ho, fun _ => .inl rfl⟩⟩
  | respond hf => cases Env.finish_ok hf; exact hsame
  | raise hf => obtain ⟨_, _, _, rfl⟩ := Env.finish_error hf; exact hsame
  | payload => exact resetIfSessionGenerationChanged_sameIo.pollTurn
  | publish =>
    rw [Env.publish_shared]
    exact publishPayload_sameIo.pollTurn
  | release => exact ⟨rfl, .inr (.inr ⟨rfl, rfl, rfl, rfl, rfl⟩)⟩

/-! ## The invariant -/

structure Monitor (w : World) : Prop where
  waiters : w.env.shared.foregroundWaiters = w.clients.countP Client.waits
  busy : w.env.shared.ioBusy = w.env.shared.ioOwner.isSome
  foreground : w.clients.countP Client.owns =
    if w.env.shared.ioOwner = some .foreground then 1 else 0
  poller : w.poller.owns = true ↔ w.env.shared.ioOwner = some .poller
  active : w.env.shared.activePollRead ≠ none → w.poller.owns = true

theorem countP_set {p : α → Bool} {l : List α} (h : l[i]? = some a) :
    (l.set i b).countP p + (p a).toNat = l.countP p + (p b).toNat := by
  obtain ⟨hi, rfl⟩ := List.getElem?_eq_some_iff.mp h
  have hpos : (p l[i]).toNat ≤ l.countP p := by
    cases hp : p l[i] with
    | false => exact Nat.zero_le _
    | true => exact List.countP_pos_iff.mpr ⟨l[i], List.getElem_mem hi, hp⟩
  rw [List.countP_set hi]
  cases hp : p l[i] <;> cases hq : p b <;> simp_all

namespace Monitor

variable {w : World} {c c' : Client} {i j : Nat}

theorem owner_none (hw : Monitor w) (hfree : w.env.shared.ioBusy = false) :
    w.env.shared.ioOwner = none := by
  have := hw.busy
  rw [hfree] at this
  cases ho : w.env.shared.ioOwner with
  | none => rfl
  | some o => rw [ho] at this; cases this

theorem owner_foreground (hw : Monitor w) (hc : w.clients[i]? = some c) (howns : c.owns = true) :
    w.env.shared.ioOwner = some .foreground ∧ w.clients.countP Client.owns = 1 := by
  have hpos : 0 < w.clients.countP Client.owns :=
    List.countP_pos_iff.mpr ⟨c, List.mem_of_getElem? hc, howns⟩
  have hfg := hw.foreground
  by_cases ho : w.env.shared.ioOwner = some .foreground
  · rw [if_pos ho] at hfg
    exact ⟨ho, hfg⟩
  · rw [if_neg ho] at hfg
    omega

/-- Two client threads never own the I/O together. -/
theorem owner_unique (hw : Monitor w) (hi : w.clients[i]? = some c) (hc : c.owns = true)
    (hj : w.clients[j]? = some c') (hc' : c'.owns = true) : i = j := by
  by_contra hne
  have hone := (hw.owner_foreground hi hc).2
  have hidle : (Client.io { job := .read refreshArgs }).owns = false := rfl
  have hset := countP_set (p := Client.owns) (b := .io { job := .read refreshArgs }) hi
  rw [hone, hc, hidle] at hset
  have hzero : (w.clients.set i (.io { job := .read refreshArgs })).countP Client.owns = 0 := by
    simpa using hset
  have hmem : c' ∈ w.clients.set i (.io { job := .read refreshArgs }) := by
    refine List.mem_of_getElem? (i := j) ?_
    rw [List.getElem?_set_ne hne]
    exact hj
  exact List.countP_eq_zero.mp hzero c' hmem hc'

theorem not_poller_of_foreground (hw : Monitor w) (hi : w.clients[i]? = some c)
    (hc : c.owns = true) : w.poller.owns = false := by
  cases hp : w.poller.owns with
  | false => rfl
  | true =>
    have := hw.poller.mp hp
    rw [(hw.owner_foreground hi hc).1] at this
    cases this

/-- The three states of the I/O. -/
theorem owners (hw : Monitor w) :
    (w.env.shared.ioOwner = none ∧ w.clients.countP Client.owns = 0 ∧ w.poller.owns = false) ∨
    (w.env.shared.ioOwner = some .foreground ∧ w.clients.countP Client.owns = 1 ∧
      w.poller.owns = false) ∨
    (w.env.shared.ioOwner = some .poller ∧ w.clients.countP Client.owns = 0 ∧
      w.poller.owns = true) := by
  have hfg := hw.foreground
  have hpoll : w.env.shared.ioOwner ≠ some .poller → w.poller.owns = false := fun h =>
    Bool.eq_false_iff.mpr fun hp => h (hw.poller.mp hp)
  cases ho : w.env.shared.ioOwner with
  | none => exact .inl ⟨rfl, by rw [hfg, ho]; rfl, hpoll (by simp [ho])⟩
  | some o => cases o with
    | foreground => exact .inr (.inl ⟨rfl, by rw [hfg, ho]; rfl, hpoll (by simp [ho])⟩)
    | poller => exact .inr (.inr ⟨rfl, by rw [hfg, ho]; rfl, hw.poller.mpr ho⟩)

theorem client_step (hw : Monitor w) (hc : w.clients[i]? = some c)
    (ht : Turn w.env.shared env'.shared c.waits c.owns c'.waits c'.owns) :
    Monitor { w with env := env', clients := w.clients.set i c' } := by
  have hwaiters : env'.shared.foregroundWaiters =
      ((w.clients.set i c').countP Client.waits : Nat) := by
    have hset := countP_set (p := Client.waits) (b := c') hc
    have := ht.waiters
    have := hw.waiters
    omega
  have howns := countP_set (p := Client.owns) (b := c') hc
  rcases ht.io with ⟨hown, hbusy, howner, hact⟩ | ⟨hown, hown', hfree, hbusy, howner, hact⟩ |
    ⟨hown, hown', hbusy, howner, hact⟩
  · -- the thread neither acquires nor releases
    rw [hown] at howns
    refine ⟨hwaiters, by rw [hbusy, howner]; exact hw.busy, ?_, by rw [howner]; exact hw.poller,
      by rw [hact]; exact hw.active⟩
    rw [howner, ← hw.foreground]
    simp only
    omega
  · -- it acquires the free I/O
    have hnone := hw.owner_none hfree
    have hpoller : w.poller.owns = false := by
      cases hp : w.poller.owns with
      | false => rfl
      | true => have := hw.poller.mp hp; rw [hnone] at this; cases this
    rw [hown, hown', hw.foreground, hnone] at howns
    refine ⟨hwaiters, by rw [hbusy, howner]; rfl, ?_, by rw [howner]; simp [hpoller],
      by rw [hact]; exact hw.active⟩
    rw [howner]
    simpa using howns
  · -- it releases the I/O
    rw [hown, hown', (hw.owner_foreground hc hown).2] at howns
    refine ⟨hwaiters, by rw [hbusy, howner]; rfl, ?_, ?_, by rw [hact]; exact fun h => absurd rfl h⟩
    · rw [howner]
      simpa using howns
    · rw [howner]
      simp [hw.not_poller_of_foreground hc hown]

theorem poller_step (hw : Monitor w)
    (ht : PollTurn w.env.shared env'.shared w.poller.owns poller'.owns) :
    Monitor { w with env := env', poller := poller' } := by
  have hwaiters : env'.shared.foregroundWaiters = (w.clients.countP Client.waits : Nat) := by
    rw [ht.waiters]
    exact hw.waiters
  rcases ht.io with ⟨hown, hbusy, howner, hact⟩ | ⟨hown, hown', hfree, -, hbusy, howner⟩ |
    ⟨hown, hown', hbusy, howner, hact⟩
  · refine ⟨hwaiters, by rw [hbusy, howner]; exact hw.busy, by rw [howner]; exact hw.foreground,
      by rw [hown, howner]; exact hw.poller, fun ha => ?_⟩
    rw [hown]
    exact (hact ha).elim id hw.active
  · have hfg := hw.foreground
    rw [hw.owner_none hfree] at hfg
    refine ⟨hwaiters, by rw [hbusy, howner]; rfl, ?_, by rw [howner]; simp [hown'], fun _ => hown'⟩
    rw [howner]
    simpa using hfg
  · have hfg := hw.foreground
    rw [hw.poller.mp hown] at hfg
    refine ⟨hwaiters, by rw [hbusy, howner]; rfl, ?_, by rw [howner]; simp [hown'], ?_⟩
    · rw [howner]
      simpa using hfg
    · rw [hact]
      exact fun h => absurd rfl h

/-- A change of the environment that leaves the fields alone. -/
theorem env_step (hw : Monitor w) (h : SameIo w.env.shared env'.shared) :
    Monitor { w with env := env' } :=
  ⟨by rw [h.waiters]; exact hw.waiters, by rw [h.busy, h.owner]; exact hw.busy,
    by rw [h.owner]; exact hw.foreground, by rw [h.owner]; exact hw.poller,
    by rw [h.active]; exact hw.active⟩

/-- A new client thread has not started. -/
theorem spawn (hw : Monitor w) (hc : c.owns = false ∧ c.waits = false) :
    Monitor { w with clients := w.clients ++ [c] } :=
  ⟨by simp [hc.2, hw.waiters], hw.busy, by simp [hc.1, hw.foreground], hw.poller, hw.active⟩

end Monitor

theorem get_idle : (get cfg now path client ifNoneMatch queryFields).owns = false ∧
    (get cfg now path client ifNoneMatch queryFields).waits = false := by
  unfold get
  split
  · split <;> exact ⟨rfl, rfl⟩
  · exact ⟨rfl, rfl⟩

theorem close_sameIo (s : DatastoreCoordinator) : SameIo s s.close := by
  unfold DatastoreCoordinator.close requestActivePollCancelLocked
  split <;> exact ⟨rfl, rfl, rfl, rfl⟩

theorem Monitor.step {w w' : World} (hw : Monitor w) (h : step cfg w a = some w') : Monitor w' := by
  cases a with
  | tick later =>
    simp only [Coordinator.step] at h
    split at h <;> cases h
    exact hw.env_step ⟨rfl, rfl, rfl, rfl⟩
  | get path client ifNoneMatch queryFields => cases h; exact hw.spawn get_idle
  | post path jsonBody client => cases h; exact hw.spawn ⟨rfl, rfl⟩
  | client i choice =>
    simp only [Coordinator.step, Option.bind_eq_bind, Option.bind_eq_some_iff] at h
    obtain ⟨c, hc, ⟨env', c'⟩, hstep, h⟩ := h
    cases h
    exact hw.client_step hc (Client.turn hstep)
  | poller choice =>
    simp only [Coordinator.step, Option.bind_eq_bind, Option.bind_eq_some_iff] at h
    obtain ⟨⟨env', poller'⟩, hstep, h⟩ := h
    cases h
    exact hw.poller_step (PollPc.step_cases hstep).turn
  | close => cases h; exact hw.env_step (close_sameIo _)
  | closeDatastore exit =>
    simp only [Coordinator.step] at h
    split at h <;> cases h
    exact hw.env_step ⟨rfl, rfl, rfl, rfl⟩

theorem Monitor.init (managed : ManagedDatastore) : Monitor (World.init managed) :=
  ⟨rfl, rfl, rfl, by simp [World.init, PollPc.owns], fun h => absurd rfl h⟩

end Coordinator

end MotuProxy
