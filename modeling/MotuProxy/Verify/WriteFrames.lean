import MotuProxy.Py.Utf8
import MotuProxy.Verify.KeepAlive
import MotuProxy.Verify.NoReplay

/-! # The bytes of a write

The body that `run_post` gets is, byte for byte, what has come in over HTTP, or the `json` field of a
form (`write_body_verbatim`). What its thread then hands to the transport is the frame of that write,
host ACKs and the refresh of `/datastore`, and nothing else (`WriteFrame`).
-/

namespace MotuProxy

open Py Protocol Responses

/-! ## The body -/

namespace Dispatch

/-- The body is read as a form. -/
def IsForm (contentType raw : Str) : Prop :=
  contains (py "application/x-www-form-urlencoded") contentType ∨ (py "json=").isPrefixOf raw

theorem parseWriteBody_plain (h : ¬IsForm contentType raw) :
    parseWriteBody raw contentType = .ok raw := if_neg h

theorem parseWriteBody_form (h : IsForm contentType raw)
    (ht : parseWriteBody raw contentType = .ok text) :
    ∃ fields, parseQsl none raw = some fields ∧ text = (firstValue (py "json") fields).getD raw := by
  unfold parseWriteBody at ht
  rw [if_pos (by exact h)] at ht
  cases hfields : parseQsl none raw with
  | none => simp [hfields] at ht
  | some fields =>
    simp only [hfields, Except.ok.injEq] at ht
    exact ⟨fields, rfl, ht.symm⟩

/-- The body is what has come in, or the `json` field of a form. -/
def FromBody (contentType : Str) (raw body : Bytes) : Prop :=
  ∃ s, utf8Encode s = some raw ∧ (¬IsForm contentType s → body = raw) ∧
    (IsForm contentType s → ∃ fields, parseQsl none s = some fields ∧
      utf8Encode ((firstValue (py "json") fields).getD s) = some body)

theorem fromBody (hraw : utf8DecodeStrict raw = some s)
    (ht : parseWriteBody s contentType = .ok text) (hb : utf8Encode text = some body) :
    FromBody contentType raw body := by
  have hencode := utf8Encode_of_decode hraw
  refine ⟨s, hencode, fun hplain => ?_, fun hform => ?_⟩
  · rw [parseWriteBody_plain hplain, Except.ok.injEq] at ht
    rw [← ht, hencode] at hb
    exact (Option.some.inj hb).symm
  · obtain ⟨fields, hfields, rfl⟩ := parseWriteBody_form hform ht
    exact ⟨fields, hfields, hb⟩

end Dispatch

namespace MotuProxyHandler

open Dispatch

variable {σ : Type} {server : MotuProxyServer σ} {d : DatastoreDispatcher σ} {r : HttpRequest}
  {method : Method} {s : MotuProxyHandler σ}

/-- What `run_post` gets is made of the announced bytes of the body and of no others: they are there,
they are the encoding of a string, and the body is these bytes themselves or the `json` field of a
form. -/
theorem write_body_verbatim (hm : method ≠ .GET) (hcall : call ∈ runPostCalls server d r method s) :
    ∃ n : Nat, contentLength (r.header (py "Content-Length")) = some (n : Int) ∧
      n ≤ s.arrived.length ∧
      FromBody ((r.header (py "Content-Type")).getD []) (s.arrived.take n) call.body := by
  obtain ⟨-, -, -, text, hread, hbody⟩ := (mem_runPostCalls hm).1 hcall
  obtain ⟨n, hlength, -, harrived, hdecode⟩ := hread.read
  obtain ⟨text', -, hparse, -, hencode, -⟩ := hbody.accepted
  refine ⟨n, hlength, ?_, fromBody hdecode hparse hencode⟩
  rcases harrived with rfl | ⟨hle, -⟩
  · exact Nat.zero_le _
  · exact hle

def objectWrite : HttpRequest where
  requestVersion := py "HTTP/1.1"
  path := py "/datastore/x"
  headers := [(py "Content-Length", py "2")]

/-- The body and the first byte of the next request. -/
def arrivedObject : MotuProxyHandler Unit :=
  { arrivedBlanks 0 with arrived := [0x7B, 0x7D, 0x47] }

theorem write_body_verbatim_object : ∃ (call : WriteCall) (n : Nat),
    call ∈ runPostCalls (emptyServer 9) Stack.permissive objectWrite .POST arrivedObject ∧
    call.body = [0x7B, 0x7D] ∧
    contentLength (objectWrite.header (py "Content-Length")) = some (n : Int) ∧
    n ≤ arrivedObject.arrived.length ∧
    FromBody ((objectWrite.header (py "Content-Type")).getD []) (arrivedObject.arrived.take n)
      call.body := by
  have hcalls : runPostCalls (emptyServer 9) Stack.permissive objectWrite .POST arrivedObject =
      [⟨py "/datastore/x", [0x7B, 0x7D], none⟩] := by decide +kernel
  have hcall := hcalls ▸ List.mem_singleton_self _
  have hm : Method.POST ≠ .GET := by decide
  obtain ⟨n, hn⟩ := write_body_verbatim hm hcall
  exact ⟨_, n, hcall, rfl, hn⟩

end MotuProxyHandler

/-! ## The frames of an operation -/

namespace Datastore

open MotuUsbDatastore

/-- Every frame handed to the transport satisfies `P`. -/
def Hands (P : Bytes → Prop) (s : MotuUsbDatastore) : Prop := ∀ frame ∈ s.wire.handed, P frame

theorem Hands.collectorInvariant (hack : ∀ seq, P (buildAck seq)) : CollectorInvariant (Hands P) where
  reads _ _ h := h
  cancels _ _ h := h
  clock _ _ _ h := h
  results _ _ _ _ h := h
  acknowledge := by
    have htake : Triple (Hands P) MotuUsbDatastore.nextHostSeq (fun _ => Hands P)
        (fun _ => Hands P) := fun _ h => h
    refine Triple.bind htake fun seq => writeFrame_handed fun s w h hw frame hframe => ?_
    rcases List.mem_append.mp (hw ▸ hframe) with hmem | hmem
    · exact h frame hmem
    · exact List.mem_singleton.mp hmem ▸ hack seq

/-- An operation hands host ACKs and the frame that it has built to the transport. -/
theorem exchange_handed_only {build : Nat → Nat → Except Exn Bytes} {collect : Nat → CollectArgs}
    (hack : ∀ seq, P (buildAck seq)) (hbuild : ∀ seq ms frame, build seq ms = .ok frame → P frame) :
    Leads (fun s => s.wire.handed = []) (exchange build collect) (Hands P) := by
  have hnone {s : MotuUsbDatastore} (h : s.wire.handed = []) : Hands P s := by simp [Hands, h]
  have htake : Triple (fun s => s.wire.handed = []) MotuUsbDatastore.nextHostSeq
      (fun _ s => s.wire.handed = []) (fun _ => Hands P) := fun _ hs => hs
  refine Triple.bind (Q := fun _ s => s.wire.handed = []) (Triple.get fun _ hs => hs) fun s₀ =>
    Triple.bind htake fun seq => ?_
  cases hb : build seq s₀.currentMessageSeq with
  | error exc =>
    exact Triple.bind (Triple.throw (Q := fun _ _ => False) fun _ => hnone) fun _ _ hs => hs.elim
  | ok frame =>
    refine Triple.bind (Q := fun f s => s.wire.handed = [] ∧ f = frame)
      (Triple.pure fun _ hs => ⟨hs, rfl⟩) fun f => Triple.assume fun hf => ?_
    subst hf
    have hwrite : Triple (fun s => s.wire.handed = []) (writeFrame f) (fun _ => Hands P)
        (fun _ => Hands P) := by
      refine writeFrame_handed fun s w hs hw frame hframe => ?_
      rw [hw, hs, List.nil_append, List.mem_singleton] at hframe
      exact hframe ▸ hbuild seq _ f hb
    exact Triple.bind hwrite fun _ => Triple.bind (Triple.modify fun _ h => h) fun _ =>
      (Hands.collectorInvariant hack).collectResponse_preserves

theorem get_handed_only (g : GetArgs) (hack : ∀ seq, P (buildAck seq))
    (hbuild : ∀ seq ms frame,
      buildGetFrame seq ms g.path g.etag (py "NREK") g.client g.queryFields = .ok frame → P frame) :
    Leads (fun s => s.wire.handed = []) (MotuUsbDatastore.get g) (Hands P) :=
  exchange_handed_only hack hbuild

theorem post_handed_only (p : PostArgs) (hack : ∀ seq, P (buildAck seq))
    (hbuild : ∀ seq ms frame,
      buildPostFrame seq ms p.path p.jsonBody (py "NREK") p.client = .ok frame → P frame) :
    Leads (fun s => s.wire.handed = []) (MotuUsbDatastore.post p) (Hands P) :=
  exchange_handed_only hack hbuild

end Datastore

/-! ## The frames of a write -/

namespace Stack

open Datastore Coordinator Dispatch

variable {σ : Type} {d : DatastoreDispatcher σ} {cfg : Config} {w w' : StackWorld}

/-- The decoded frame is the write: its path, its client and its body, byte for byte. -/
structure CarriesWrite (path : Str) (body : Bytes) (client : Option Str) (r : WireRequest) : Prop where
  method : r.method = ascii "POST"
  path : utf8Encode path = some r.path
  fields : (client.map fun c => (py "client", c)).toList.mapM fieldBytes = some r.fields
  body : r.body = some (ascii "json", body)

/-- The decoded frame is the refresh after a write. -/
structure IsRefresh (r : WireRequest) : Prop where
  method : r.method = ascii "GET"
  path : r.path = ascii "/datastore"
  etag : r.httpHeader = (ascii "If-None-Match", ascii "0")
  fields : r.fields = []
  body : r.body = none

/-- What the thread of a write may hand to the transport. -/
inductive WriteFrame (path : Str) (body : Bytes) (client : Option Str) (frame : Bytes) : Prop where
  | ack (h : frame = buildAck seq)
  | write (hr : decodeFrame frame = some r) (h : CarriesWrite path body client r)
  | refresh (hr : decodeFrame frame = some r) (h : IsRefresh r)

theorem writeFrame_ack : WriteFrame path body client (buildAck seq) := .ack rfl

theorem writeFrame_post
    (h : buildPostFrame seq ms path body (py "NREK") (client.map .str) = .ok frame) :
    WriteFrame path body client frame := by
  obtain ⟨r, hwire, rfl, hfits⟩ := post_layout h
  simp only [RequestArgs.wire, bind, Option.bind_eq_some_iff, pure, Option.some.injEq] at hwire
  obtain ⟨_, -, p, hp, fields, hfields, rfl⟩ := hwire
  refine .write hfits.decodeFrame_frame ⟨rfl, hp, ?_, rfl⟩
  cases client <;> exact hfields

theorem writeFrame_refresh (h : buildGetFrame seq ms pollPath (py "0") (py "NREK") none none = .ok frame) :
    WriteFrame path body client frame := by
  obtain ⟨r, hwire, rfl, hfits⟩ := get_layout h
  simp only [RequestArgs.wire, bind, Option.bind_eq_some_iff, pure, Option.some.injEq] at hwire
  obtain ⟨_, -, p, hp, etag, hetag, words, hwords, rfl⟩ := hwire
  have hpoll : utf8Encode pollPath = some (ascii "/datastore") := by decide
  have hzero : utf8Encode (py "0") = some (ascii "0") := by decide
  refine .refresh hfits.decodeFrame_frame ⟨rfl, Option.some.inj (hp.symm.trans hpoll), ?_,
    (Option.some.inj hwords).symm, rfl⟩
  rw [Option.some.inj (hetag.symm.trans hzero)]

/-! ## The thread of a write -/

/-- The frames of a thread that posts are those of its own write. -/
structure OwnFrames (w : StackWorld) : Prop where
  known : ∀ e ∈ w.handed, ∀ i, e.caller = .client i → i < w.world.clients.length
  own : ∀ e ∈ w.handed, ∀ i c path body client, e.caller = .client i →
    w.world.clients[i]? = some (.io c) → c.job = .post ⟨path, body, client.map .str⟩ →
    WriteFrame path body client e.frame

theorem post_frames (path : Str) (body : Bytes) (client : Option Str) :
    Leads (fun s => s.wire.handed = []) (Request.exec (.post path body (client.map .str)))
      (Hands (WriteFrame path body client)) :=
  post_handed_only _ (fun _ => writeFrame_ack) fun _ _ _ h => writeFrame_post h

theorem refresh_frames (timeoutMs : Nat) (path : Str) (body : Bytes) (client : Option Str) :
    Leads (fun s => s.wire.handed = [])
      (Request.exec (.get pollPath (py "0") none none timeoutMs))
      (Hands (WriteFrame path body client)) :=
  get_handed_only _ (fun _ => writeFrame_ack) fun _ _ _ h => writeFrame_refresh h

/-- A thread that posts is given its own operation, or the refresh after it. -/
theorem operation_frames {i : Nat} {c : IoCall} (hi : w.world.clients[i]? = some (.io c))
    (hjob : c.job = .post ⟨path, body, client.map .str⟩)
    (hop : w.operation cfg (.client i) = some op)
    (hr : w.operate op wire exit = (choice, session)) :
    ∀ frame ∈ session.wire.handed, WriteFrame path body client frame := by
  simp only [StackWorld.operation, hi, Option.bind_eq_bind, Option.bind_some, Client.call?,
    Option.bind_eq_some_iff] at hop
  obtain ⟨request, hrequest, hop⟩ := hop
  cases hop
  unfold IoCall.operation at hrequest
  split at hrequest
  · rw [hjob] at hrequest
    cases hrequest
    exact operate_leads (post_frames path body client) rfl hr
  · obtain ⟨timeoutMs, hrefresh⟩ : ∃ timeoutMs,
        refreshArgs.request = .get pollPath (py "0") none none timeoutMs := ⟨_, rfl⟩
    rw [hrefresh] at hrequest
    cases hrequest
    exact operate_leads (refresh_frames timeoutMs path body client) rfl hr
  · cases hrequest

/-- Frames are added by the thread that is in an operation. -/
theorem OwnFrames.move {frames : List Handed} (hw : OwnFrames w)
    (hstep : WorldStep cfg w.world b w'.world) (hhanded : w'.handed = w.handed ++ frames)
    (hknown : ∀ e ∈ frames, ∀ i, e.caller = .client i → i < w.world.clients.length)
    (hown : ∀ e ∈ frames, ∀ i c path body client, e.caller = .client i →
      w.world.clients[i]? = some (.io c) → c.job = .post ⟨path, body, client.map .str⟩ →
      WriteFrame path body client e.frame) : OwnFrames w' := by
  have hall : ∀ e ∈ w'.handed, ∀ i, e.caller = .client i → i < w.world.clients.length := by
    intro e he i hi
    rcases List.mem_append.mp (hhanded ▸ he) with he | he
    · exact hw.known e he i hi
    · exact hknown e he i hi
  refine ⟨fun e he i hi => Nat.lt_of_lt_of_le (hall e he i hi) (WorldStep.length_le hstep),
    fun e he i c' path body client hcaller hi hjob => ?_⟩
  rcases hstep.io_of hi with ⟨c, hc⟩ | ⟨rfl, -⟩
  · -- the request of a thread does not change
    obtain ⟨c₁, h₁, hmove⟩ := hstep.io hc
    cases hi.symm.trans h₁
    have hjob₀ : c.job = .post ⟨path, body, client.map .str⟩ := by
      rcases hmove with ⟨-, rfl⟩ | ⟨_, _, -, hio⟩
      · exact hjob
      · exact hio.forward.job.symm.trans hjob
    rcases List.mem_append.mp (hhanded ▸ he) with he | he
    · exact hw.own e he i c path body client hcaller hc hjob₀
    · exact hown e he i c path body client hcaller hc hjob₀
  · exact absurd (hall e he _ hcaller) (Nat.lt_irrefl _)

theorem OwnFrames.step (hw : OwnFrames w) (hstep : w.step d cfg a = some w') : OwnFrames w' := by
  have hplain {w' : StackWorld} {b : Coordinator.Action} (h : WorldStep cfg w.world b w'.world)
      (hhanded : w'.handed = w.handed) : OwnFrames w' :=
    hw.move h (by rw [hhanded, List.append_nil]) (fun e he => absurd he List.not_mem_nil)
      fun e he => absurd he List.not_mem_nil
  cases StackWorld.step_cases hstep with
  | step hworld => exact hplain (World.step_cases hworld) rfl
  | begin _ hworld => exact hplain (World.step_cases hworld) rfl
  | call _ _ _ _ hworld => exact hplain (World.step_cases hworld) rfl
  | write => exact ⟨hw.known, hw.own⟩
  | refuse => exact ⟨hw.known, hw.own⟩
  | answer => exact ⟨hw.known, hw.own⟩
  | @operate caller op wire exit choice session world hop hr hworld =>
    refine hw.move (World.step_cases hworld) rfl (fun e he i hi => ?_)
      fun e he i c path body client hcaller hi hjob => ?_
    · obtain ⟨frame, -, rfl⟩ := List.mem_map.mp he
      obtain rfl : caller = .client i := hi
      simp only [StackWorld.operation, Option.bind_eq_bind, Option.bind_eq_some_iff] at hop
      obtain ⟨c, hc, -⟩ := hop
      exact (List.getElem?_eq_some_iff.mp hc).1
    · obtain ⟨frame, hframe, rfl⟩ := List.mem_map.mp he
      obtain rfl : caller = .client i := hcaller
      exact operation_frames hi hjob hop hr frame hframe

theorem OwnFrames.init (managed : ManagedDatastore) (session : MotuUsbDatastore) :
    OwnFrames (.init managed session) :=
  ⟨fun e he => (by cases he), fun e he => (by cases he)⟩

/-! ## The gate -/

/-- The calls of `run_post` are those that the dispatcher has prepared. -/
def Prepared (d : DatastoreDispatcher σ) (w : StackWorld) : Prop :=
  ∀ x ∈ w.writes, x.args.method ≠ .GET ∧
    ∀ call i, x.call = some (call, i) → d.preparedCall x.args = .ok call

theorem Prepared.set {x x' : HttpWrite} {j : Nat} (hw : Prepared d w) (hx : w.writes[j]? = some x)
    (hargs : x'.args = x.args)
    (hcall : ∀ call i, x'.call = some (call, i) → d.preparedCall x.args = .ok call) :
    ∀ y ∈ w.writes.set j x', y.args.method ≠ .GET ∧
      ∀ call i, y.call = some (call, i) → d.preparedCall y.args = .ok call := by
  intro y hy
  rcases List.mem_or_eq_of_mem_set hy with hy | rfl
  · exact hw y hy
  · rw [hargs]
    exact ⟨(hw x (List.mem_of_getElem? hx)).1, hcall⟩

theorem step_write (h : w.step d cfg (.write a) = some w') :
    a.method ≠ .GET ∧ w'.writes = w.writes ++ [{ args := a }] := by
  simp only [StackWorld.step] at h
  split at h
  · cases h
  · next hm =>
    cases h
    exact ⟨hm, rfl⟩

theorem Prepared.step (hw : Prepared d w) (hstep : w.step d cfg a = some w') : Prepared d w' := by
  cases StackWorld.step_cases hstep with
  | step => exact hw
  | begin => exact hw
  | operate => exact hw
  | @write args =>
    intro x hx
    rcases List.mem_append.mp hx with hx | hx
    · exact hw x hx
    · obtain rfl := List.mem_singleton.mp hx
      exact ⟨(step_write hstep).1, fun call i h => (by cases h)⟩
  | refuse hx hcall _ => exact hw.set hx rfl fun call i h => by cases hcall.symm.trans h
  | call hx _ _ hp _ =>
    refine hw.set hx rfl fun call i h => ?_
    cases h
    exact hp
  | answer hx hcall _ _ =>
    exact hw.set hx rfl fun call i h => (hw _ (List.mem_of_getElem? hx)).2 call i h

end Stack

end MotuProxy
