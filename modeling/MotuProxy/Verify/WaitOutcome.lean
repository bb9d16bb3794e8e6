import MotuProxy.Verify.Steps

/-! # What a waiter is told

`_find_wait_outcome_locked` looks at the transitions that leave the waiter's ETag, newest first. A
transition of another client answers the waiter; if all of them are its own, the oldest one decides
whether the waiter has to read again.
-/

namespace MotuProxy

open Py Protocol Responses

namespace Coordinator

open DatastoreCoordinator

/-! ## The search -/

section
variable {etag : Str} {client : Option Str} {ts : List DatastoreTransition}

theorem findFrom_some (h : (findFrom etag client suppressed ts).1 = some t) :
    t ∈ ts ∧ t.fromEtag = etag := by
  induction ts generalizing suppressed with
  | nil => cases h
  | cons u ts ih =>
    unfold findFrom at h
    split at h
    · exact (ih h).imp_left (List.mem_cons_of_mem _)
    · rename_i hfrom
      split at h
      · exact (ih h).imp_left (List.mem_cons_of_mem _)
      · cases h
        exact ⟨List.mem_cons_self, not_not.mp hfrom⟩

/-- If nothing answers the waiter, then whatever leaves its ETag is its own, and the oldest of that
is kept. -/
theorem findFrom_none (h : (findFrom etag client suppressed ts).1 = none) :
    (∀ t ∈ ts, t.fromEtag = etag → client.isSome = true ∧ t.originClient = client) ∧
    (findFrom etag client suppressed ts).2 =
      (ts.reverse.find? (fun t => t.fromEtag = etag)).or suppressed := by
  induction ts generalizing suppressed with
  | nil => exact ⟨nofun, rfl⟩
  | cons u ts ih =>
    rw [List.reverse_cons, List.find?_append]
    unfold findFrom at h ⊢
    split at h
    · rename_i hfrom
      obtain ⟨hown, hlast⟩ := ih h
      rw [if_pos hfrom, hlast]
      refine ⟨fun t ht hetag => ?_, by simp [hfrom]⟩
      rcases List.mem_cons.mp ht with rfl | ht
      · exact absurd hetag hfrom
      · exact hown t ht hetag
    · rename_i hfrom
      split at h
      · rename_i hu
        obtain ⟨hown, hlast⟩ := ih h
        rw [if_neg hfrom, if_pos hu, hlast]
        refine ⟨fun t ht hetag => ?_, ?_⟩
        · rcases List.mem_cons.mp ht with rfl | ht
          · exact hu
          · exact hown t ht hetag
        · cases ts.reverse.find? (fun t => t.fromEtag = etag) <;> simp [not_not.mp hfrom]
      · cases h

theorem findFrom_own (h : ∀ t ∈ ts, t.fromEtag = etag → t.originClient = client)
    (hclient : client.isSome = true) : (findFrom etag client suppressed ts).1 = none := by
  induction ts generalizing suppressed with
  | nil => rfl
  | cons u ts ih =>
    have hts : ∀ t ∈ ts, t.fromEtag = etag → t.originClient = client :=
      fun t ht => h t (List.mem_cons_of_mem _ ht)
    unfold findFrom
    split
    · exact ih hts
    · rename_i hfrom
      rw [if_pos ⟨hclient, h u List.mem_cons_self (not_not.mp hfrom)⟩]
      exact ih hts

end

section
variable {s : DatastoreCoordinator} {etag : Str} {client : Option Str}

theorem findWaitOutcomeLocked_some (h : s.findWaitOutcomeLocked etag client = (some t, refresh)) :
    t ∈ s.history ∧ t.fromEtag = etag := by
  unfold findWaitOutcomeLocked at h
  split at h <;> cases h
  rename_i hfind
  have := findFrom_some (by rw [hfind])
  exact this.imp_left List.mem_reverse.mp

/-- A waiter is left waiting with an outdated ETag only after a transition of its own that leads to
the latest one. -/
theorem findWaitOutcomeLocked_idle (h : s.findWaitOutcomeLocked etag client = (none, false))
    (hlatest : s.latestEtag = some latest) (hne : latest ≠ etag) :
    ∃ t ∈ s.history, t.fromEtag = etag ∧ t.toEtag = latest ∧ client.isSome = true ∧
      t.originClient = client := by
  unfold findWaitOutcomeLocked at h
  split at h
  · cases h
  · rename_i suppressed hfind
    obtain ⟨hown, hlast⟩ := findFrom_none (by rw [hfind])
    rw [hfind, List.reverse_reverse, Option.or_none] at hlast
    have hmem : suppressed ∈ s.history := List.mem_of_find?_eq_some hlast.symm
    have hfrom : suppressed.fromEtag = etag := by simpa using List.find?_some hlast.symm
    simp only [hlatest, Prod.mk.injEq, true_and, decide_eq_false_iff_not, ne_eq, not_not,
      Option.some.injEq] at h
    have hto : suppressed.toEtag = latest := h.symm
    exact ⟨suppressed, hmem, hfrom, hto, hown suppressed (List.mem_reverse.mpr hmem) hfrom⟩
  · simp [hlatest, hne] at h

/-- A waiter all of whose transitions are its own is left waiting if and only if the oldest one
leads to the latest ETag. -/
theorem findWaitOutcomeLocked_own (hown : ∀ t ∈ s.history, t.fromEtag = etag → t.originClient = client)
    (hclient : client.isSome = true) (hsome : ∃ t ∈ s.history, t.fromEtag = etag) :
    s.findWaitOutcomeLocked etag client = (none, false) ↔
      (s.history.find? (fun t => t.fromEtag = etag)).map (·.toEtag) = s.latestEtag := by
  have hnone : (findFrom etag client none s.history.reverse).1 = none :=
    findFrom_own (fun t ht => hown t (List.mem_reverse.mp ht)) hclient
  obtain ⟨-, hlast⟩ := findFrom_none hnone
  rw [List.reverse_reverse, Option.or_none] at hlast
  obtain ⟨oldest, hfind⟩ : ∃ t, s.history.find? (fun t => t.fromEtag = etag) = some t := by
    obtain ⟨t, ht, hfrom⟩ := hsome
    exact Option.isSome_iff_exists.mp (List.find?_isSome.mpr ⟨t, ht, by simpa using hfrom⟩)
  have hsearch : findFrom etag client none s.history.reverse = (none, some oldest) :=
    Prod.ext hnone (hlast.trans hfind)
  unfold findWaitOutcomeLocked
  simp only [hsearch, hfind, Prod.mk.injEq, true_and, decide_eq_false_iff_not, ne_eq, not_not,
    Option.map_some]
  exact eq_comm

end

/-! ## The answer of a waiter -/

/-- The answer when nothing happened. -/
def unchanged (etag : Str) : DatastorePayload := { body := [], etag := some etag, status := some 304 }

theorem waitForChange_answer {s : DatastoreCoordinator} {a : WaitArgs}
    (h : (s.waitForChange cfg now a deadline).1 = .answer p) :
    (∃ t ∈ s.history, t.fromEtag = a.etag ∧ a.path = pollPath ∧
      p = { body := t.body, etag := some t.toEtag, contentType := some t.contentType }) ∨
    (s.findWaitOutcomeLocked a.etag (clientString a.client) = (none, false) ∧ p = unchanged a.etag) := by
  unfold waitForChange at h
  cases hout : s.findWaitOutcomeLocked a.etag (clientString a.client) with
  | mk transition shouldRefresh =>
    simp only [hout] at h
    cases transition with
    | some t =>
      obtain ⟨hmem, hfrom⟩ := findWaitOutcomeLocked_some hout
      simp only at h
      split at h
      · rename_i hpath
        cases h
        exact .inl ⟨t, hmem, hfrom, hpath.1, rfl⟩
      · cases h
    | none =>
      cases shouldRefresh with
      | true => cases h
      | false =>
        simp only [Bool.false_eq_true, if_false] at h
        split at h
        · cases h
          exact .inr ⟨rfl, rfl⟩
        · split at h
          · split at h
            · cases h
            · split at h <;> cases h
          · cases h

/-- The read at the end of `wait_for_change`. -/
def DatastoreCoordinator.WaitArgs.read (a : WaitArgs) : ReadArgs :=
  { path := a.path, client := a.client, queryFields := a.queryFields }

/-- How a waiter comes to its answer, or to the operation that it runs. -/
theorem WaitCall.step_outcome {e e' : Env} {c c' : WaitCall} (h : c.step cfg e choice = some (e', c')) :
    c'.args = c.args ∧
    (∀ p, c'.pc = .done p → c.pc = .loop ∧
      (e.shared.waitForChange cfg e.now c.args c.deadline).1 = .answer p) ∧
    (∀ call, c'.pc = .refresh call →
      (∃ timeoutMs, call = { job := .read { path := pollPath, timeoutMs } }) ∨
      ∃ call₀, c.pc = .refresh call₀ ∧ call₀.step cfg e choice = some (e', call)) ∧
    ∀ call, c'.pc = .read call → call = { job := .read c.args.read } ∨
      ∃ call₀, c.pc = .read call₀ ∧ call₀.step cfg e choice = some (e', call) := by
  unfold WaitCall.step at h
  split at h
  · rename_i hpc
    split at h <;> cases h
    · rename_i hans
      refine ⟨rfl, fun p hp => ?_, fun call hp => ?_, fun call hp => ?_⟩ <;> cases hp
      exact ⟨hpc, by rw [hans]⟩
    · refine ⟨rfl, fun p hp => ?_, fun call hp => ?_, fun call hp => ?_⟩ <;> cases hp
      exact .inl rfl
    · refine ⟨rfl, fun p hp => ?_, fun call hp => ?_, fun call hp => ?_⟩ <;> cases hp
      exact .inl ⟨_, rfl⟩
    · refine ⟨rfl, fun p hp => ?_, fun call hp => ?_, fun call hp => ?_⟩ <;> rw [hpc] at hp <;> cases hp
  · rename_i call hpc
    split at h
    · cases h
      refine ⟨rfl, fun p hp => ?_, fun call hp => ?_, fun call hp => ?_⟩ <;> cases hp
    · obtain ⟨⟨e₁, call₁⟩, hstep, hr⟩ := Option.map_eq_some_iff.mp h
      cases hr
      refine ⟨rfl, fun p hp => ?_, fun call hp => ?_, fun call hp => ?_⟩ <;> cases hp
      exact .inr ⟨call, hpc, hstep⟩
  · split at h <;> cases h
    · refine ⟨rfl, fun p hp => ?_, fun call hp => ?_, fun call hp => ?_⟩ <;> cases hp
    · rename_i exc _
      refine ⟨rfl, fun p hp => ?_, fun call hp => ?_, fun call hp => ?_⟩ <;>
        cases hexc : isRefreshFailure exc <;> simp [hexc] at hp
  · rename_i call hpc
    obtain ⟨⟨e₁, call₁⟩, hstep, hr⟩ := Option.map_eq_some_iff.mp h
    cases hr
    refine ⟨rfl, fun p hp => ?_, fun call hp => ?_, fun call hp => ?_⟩ <;> cases hp
    exact .inr ⟨call, hpc, hstep⟩
  · cases h
  · cases h

/-- The read that ends a wait is the one that its arguments ask for. -/
def Client.EndsInRead (c : Client) : Prop :=
  ∀ call io, c = .wait call → call.pc = .read io → io.job = .read call.args.read

theorem IoStep.job {e e' : Env} {c c' : IoCall} (h : IoStep cfg e c choice e' c') : c'.job = c.job := by
  cases h <;> rfl

theorem Client.EndsInRead.io {call : IoCall} : Client.EndsInRead (.io call) := by
  intro call' io heq
  cases heq

theorem get_endsInRead : (get cfg now path client ifNoneMatch queryFields).EndsInRead := by
  unfold get
  split
  · split
    · exact .io
    · intro call io heq hpc
      cases heq
      cases hpc
  · exact .io

theorem Client.step_endsInRead {e e' : Env} {c c' : Client} (hc : c.EndsInRead)
    (h : c.step cfg e choice = some (e', c')) : c'.EndsInRead := by
  cases c with
  | io call =>
    obtain ⟨_, -, hr⟩ := Option.map_eq_some_iff.mp h
    cases hr
    exact .io
  | wait call =>
    obtain ⟨⟨e₁, call₁⟩, hstep, hr⟩ := Option.map_eq_some_iff.mp h
    cases hr
    obtain ⟨hargs, -, -, hread⟩ := WaitCall.step_outcome hstep
    intro call' io heq hio
    cases heq
    rw [hargs]
    rcases hread io hio with rfl | ⟨io₀, hio₀, hstep⟩
    · rfl
    · exact (IoCall.step_cases hstep).job.trans (hc call io₀ rfl hio₀)

theorem endsInRead_step {w w' : World} (hlast : ∀ c ∈ w.clients, c.EndsInRead)
    (h : step cfg w a = some w') : ∀ c ∈ w'.clients, c.EndsInRead := by
  have hspawn (c' : Client) (hnew : c'.EndsInRead) : ∀ c ∈ w.clients ++ [c'], c.EndsInRead := by
    intro c hc
    rcases List.mem_append.mp hc with hc | hc
    · exact hlast c hc
    · rw [List.mem_singleton.mp hc]
      exact hnew
  cases a with
  | tick later =>
    simp only [step] at h
    split at h <;> cases h
    exact hlast
  | get path client ifNoneMatch queryFields => cases h; exact hspawn _ get_endsInRead
  | post path jsonBody client => cases h; exact hspawn _ .io
  | client i choice =>
    simp only [step, Option.bind_eq_bind, Option.bind_eq_some_iff] at h
    obtain ⟨c, hc, ⟨env', c'⟩, hstep, h⟩ := h
    cases h
    intro cj hcj
    rcases List.mem_or_eq_of_mem_set hcj with hcj | rfl
    · exact hlast cj hcj
    · exact Client.step_endsInRead (hlast c (List.mem_of_getElem? hc)) hstep
  | poller choice =>
    simp only [step, Option.bind_eq_bind, Option.bind_eq_some_iff] at h
    obtain ⟨⟨env', poller'⟩, hstep, h⟩ := h
    cases h
    exact hlast
  | close => cases h; exact hlast
  | closeDatastore exit =>
    simp only [step] at h
    split at h <;> cases h
    exact hlast

/-- What `wait_for_change` has returned. -/
def WaitCall.answer? (c : WaitCall) : Option DatastorePayload :=
  match c.pc with
  | .done p => some p
  | .read call => match call.pc with
    | .done (.ok p) => some p
    | _ => none
  | _ => none

theorem WaitCall.answer?_cases {c : WaitCall} (h : c.answer? = some p) :
    c.pc = .done p ∨ ∃ call, c.pc = .read call ∧ call.pc = .done (.ok p) := by
  unfold WaitCall.answer? at h
  split at h
  · rename_i hpc
    cases h
    exact .inl hpc
  · rename_i call hpc
    split at h
    · rename_i hdone
      cases h
      exact .inr ⟨call, hpc, hdone⟩
    · cases h
  · cases h

/-- A waiter that is answered in a step makes a pass of its loop. -/
theorem step_wait_done {w w' : World} {call' : WaitCall} (h : step cfg w a = some w')
    (hmem : .wait call' ∈ w'.clients) (hpc : call'.pc = .done p) :
    .wait call' ∈ w.clients ∨ ∃ call, .wait call ∈ w.clients ∧ call'.args = call.args ∧
      (w.env.shared.waitForChange cfg w.env.now call.args call.deadline).1 = .answer p := by
  rcases step_client h hmem with hmem | ⟨_, _, _, _, -, hget⟩ | ⟨_, _, _, -, hpost⟩ |
    ⟨i, choice, c, -, hi, hstep⟩
  · exact .inl hmem
  · exfalso
    unfold get at hget
    split at hget
    · split at hget <;> cases hget
      cases hpc
    · cases hget
  · cases hpost
  · cases c with
    | io call =>
      obtain ⟨_, -, hr⟩ := Option.map_eq_some_iff.mp hstep
      cases (Prod.mk.inj hr).2
    | wait call =>
      obtain ⟨⟨_, call₁⟩, hwait, hr⟩ := Option.map_eq_some_iff.mp hstep
      cases (Prod.mk.inj hr).2
      obtain ⟨hargs, hdone, -, -⟩ := WaitCall.step_outcome hwait
      exact .inr ⟨call, List.mem_of_getElem? hi, hargs, (hdone p hpc).2⟩

/-! ## The query fields of the reads -/

/-- A client whose reads of `/datastore` have query fields with `P`. -/
structure Client.ReadsWith (P : Option (List QueryField) → Prop) (c : Client) : Prop where
  job : ∀ call a, c.call? = some call → call.job = .read a → a.path = pollPath → P a.queryFields
  args : ∀ call, c = .wait call → call.args.path = pollPath → P call.args.queryFields
  last : c.EndsInRead

section
variable {P : Option (List QueryField) → Prop}

theorem Client.ReadsWith.io {call : IoCall}
    (h : ∀ a, call.job = .read a → a.path = pollPath → P a.queryFields) :
    Client.ReadsWith P (.io call) := by
  refine ⟨fun call' a hcall => ?_, fun call' heq => ?_, .io⟩
  · cases hcall
    exact h a
  · cases heq

theorem get_readsWith (h : path = pollPath → P queryFields) :
    (get cfg now path client ifNoneMatch queryFields).ReadsWith P := by
  have hlast : (get cfg now path client ifNoneMatch queryFields).EndsInRead := get_endsInRead
  unfold get at hlast ⊢
  split
  · split
    · refine .io fun a hjob hpath => ?_
      cases hjob
      exact h hpath
    · refine ⟨fun call a hcall => ?_, fun call heq hpath => ?_, ?_⟩
      · cases hcall
      · cases heq
        exact h hpath
      · simpa [*] using hlast
  · refine .io fun a hjob hpath => ?_
    cases hjob
    exact h hpath

/-- The degraded refresh reads `/datastore` without any field. -/
theorem Client.step_readsWith {e e' : Env} {c c' : Client} (hnone : P none) (hc : c.ReadsWith P)
    (h : c.step cfg e choice = some (e', c')) : c'.ReadsWith P := by
  cases c with
  | io call =>
    obtain ⟨⟨e₁, call₁⟩, hstep, hr⟩ := Option.map_eq_some_iff.mp h
    cases hr
    exact .io fun a hjob => hc.job call a rfl ((IoCall.step_cases hstep).job ▸ hjob)
  | wait call =>
    obtain ⟨⟨e₁, call₁⟩, hstep, hr⟩ := Option.map_eq_some_iff.mp h
    cases hr
    obtain ⟨hargs, -, hrefresh, -⟩ := WaitCall.step_outcome hstep
    have hlast := Client.step_endsInRead hc.last h
    refine ⟨fun io a hcall hjob hpath => ?_, fun call' heq hpath => ?_, hlast⟩
    · unfold Client.call? at hcall
      simp only at hcall
      split at hcall <;> cases hcall <;> rename_i hpc
      · rcases hrefresh io hpc with ⟨timeoutMs, rfl⟩ | ⟨io₀, hio₀, hstep⟩
        · cases hjob
          exact hnone
        · exact hc.job io₀ a (by simp [Client.call?, hio₀]) ((IoCall.step_cases hstep).job ▸ hjob) hpath
      · have hjob' := hlast call₁ io rfl hpc
        rw [hargs] at hjob'
        cases hjob'.symm.trans hjob
        exact hc.args call rfl hpath
    · cases heq
      rw [hargs] at hpath ⊢
      exact hc.args call rfl hpath

/-- An action whose read of `/datastore`, if it is one, has query fields with `P`. -/
def ReadsWith (P : Option (List QueryField) → Prop) : Action → Prop
  | .get path _ _ fields => path = pollPath → P fields
  | _ => True

theorem step_readsWith {w w' : World} (hnone : P none) (ha : ReadsWith P a)
    (h : step cfg w a = some w') (hw : ∀ c ∈ w.clients, c.ReadsWith P) :
    ∀ c ∈ w'.clients, c.ReadsWith P := by
  intro c hc
  rcases step_client h hc with hc | ⟨_, _, _, _, rfl, rfl⟩ | ⟨_, _, _, rfl, rfl⟩ |
    ⟨i, choice, c₀, rfl, hi, hstep⟩
  · exact hw c hc
  · exact get_readsWith ha
  · refine .io fun a hjob => ?_
    cases hjob
  · exact Client.step_readsWith hnone (hw c₀ (List.mem_of_getElem? hi)) hstep

end

/-! ## Chains of own changes -/

/-- The transitions lead from one ETag to the other, each from where the one before ends. -/
def Leads (etag : Str) : List DatastoreTransition → Str → Prop
  | [], latest => etag = latest
  | t :: ts, latest => t.fromEtag = etag ∧ Leads t.toEtag ts latest

/-- An unbroken chain of a client's own transitions in the history, which holds no others that leave
an ETag of the chain. -/
structure OwnChain (history : List DatastoreTransition) (client etag latest : Str)
    (chain : List DatastoreTransition) : Prop where
  nonempty : chain ≠ []
  leads : Leads etag chain latest
  mem : ∀ t ∈ chain, t ∈ history
  own : ∀ t ∈ chain, t.originClient = some client
  only : ∀ t ∈ history, (∃ u ∈ chain, t.fromEtag = u.fromEtag) → t ∈ chain

/-- After a chain of own changes the waiter is left alone if and only if the oldest transition that
leaves its ETag already leads to the latest one; for distinct ETags that is a chain of length one. -/
theorem own_chain_iff {s : DatastoreCoordinator} (h : OwnChain s.history client etag latest chain)
    (hlatest : s.latestEtag = some latest) :
    (s.findWaitOutcomeLocked etag (some client) = (none, false) ↔
      (s.history.find? (fun t => t.fromEtag = etag)).map (·.toEtag) = some latest) ∧
    ((chain.map (·.fromEtag) ++ [latest]).Nodup →
      (s.findWaitOutcomeLocked etag (some client) = (none, false) ↔ chain.length = 1)) := by
  obtain ⟨first, rest, rfl⟩ := List.exists_cons_of_ne_nil h.nonempty
  obtain ⟨hfrom, hrest⟩ := h.leads
  have hchain {t : DatastoreTransition} (ht : t ∈ s.history) (hetag : t.fromEtag = etag) :
      t ∈ first :: rest :=
    h.only t ht ⟨first, List.mem_cons_self, hetag.trans hfrom.symm⟩
  have hiff := findWaitOutcomeLocked_own (s := s)
    (fun t ht (hetag : t.fromEtag = etag) => h.own t (hchain ht hetag)) rfl
    ⟨first, h.mem first List.mem_cons_self, hfrom⟩
  rw [hlatest] at hiff
  refine ⟨hiff, fun hnodup => hiff.trans ?_⟩
  -- with distinct ETags, the first transition of the chain is the only one that leaves `etag`
  have honly {t : DatastoreTransition} (ht : t ∈ first :: rest) (hetag : t.fromEtag = etag) :
      t = first := by
    rcases List.mem_cons.mp ht with rfl | ht
    · rfl
    · have hnot : first.fromEtag ∉ rest.map (·.fromEtag) ++ [latest] :=
        (List.nodup_cons.mp hnodup).1
      exact absurd (List.mem_append_left _ (List.mem_map.mpr ⟨t, ht, hetag.trans hfrom.symm⟩)) hnot
  obtain ⟨oldest, hfind⟩ : ∃ t, s.history.find? (fun t => t.fromEtag = etag) = some t :=
    Option.isSome_iff_exists.mp (List.find?_isSome.mpr
      ⟨first, h.mem first List.mem_cons_self, by simpa using hfrom⟩)
  have heq : oldest = first :=
    honly (hchain (List.mem_of_find?_eq_some hfind) (by simpa using List.find?_some hfind))
      (by simpa using List.find?_some hfind)
  rw [hfind, heq, Option.map_some, Option.some.injEq]
  cases rest with
  | nil => exact ⟨fun _ => rfl, fun _ => hrest⟩
  | cons second rest =>
    refine ⟨fun hto => ?_, fun hlen => by simp at hlen⟩
    -- the second transition would leave the latest ETag
    have hsecond : second.fromEtag = latest := hrest.1.trans hto
    simp [hsecond] at hnodup

/-! Two changes of one client. -/

def ownWrite (from' to' : String) : DatastoreTransition where
  fromEtag := py from'
  toEtag := py to'
  body := []
  originClient := some (py "9")
  contentType := py "application/json"

theorem own_chain_of_one :
    OwnChain [ownWrite "1" "2"] (py "9") (py "1") (py "2") [ownWrite "1" "2"] ∧
    findWaitOutcomeLocked { history := [ownWrite "1" "2"], latestEtag := some (py "2") } (py "1")
      (some (py "9")) = (none, false) := by
  have h : OwnChain [ownWrite "1" "2"] (py "9") (py "1") (py "2") [ownWrite "1" "2"] :=
    ⟨by simp, ⟨rfl, rfl⟩, fun _ h => h, by simp [ownWrite], fun _ h _ => h⟩
  exact ⟨h, ((own_chain_iff (s := { history := [ownWrite "1" "2"], latestEtag := some (py "2") }) h
    rfl).2 (by decide)).mpr rfl⟩

/-- The second own change wakes the waiter. -/
theorem own_chain_echoed :
    OwnChain [ownWrite "1" "2", ownWrite "2" "3"] (py "9") (py "1") (py "3")
      [ownWrite "1" "2", ownWrite "2" "3"] ∧
    findWaitOutcomeLocked
      { history := [ownWrite "1" "2", ownWrite "2" "3"], latestEtag := some (py "3") } (py "1")
      (some (py "9")) = (none, true) :=
  ⟨⟨by simp, ⟨rfl, rfl, rfl⟩, fun _ h => h, by simp [ownWrite], fun _ h _ => h⟩, by decide⟩

end Coordinator

end MotuProxy
