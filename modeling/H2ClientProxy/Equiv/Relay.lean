import H2ClientProxy.RelayHttp2.Relay
import H2ClientProxy.Equiv.Session

/-!
# The operations of `relay_http2.c`

One specification for each operation that sends, in terms of `Effect`:

* `relayWriteBody_spec`, `relayResumeRead_spec`, `relayClose_spec`: what is left after the call;
* `relaySendRequest_spec`: the request is submitted (`submitted`), then the session sends.

After sending, an operation writes a field of its relay without looking whether the relay is still
there; `Wrote` has both cases.  `Quiet` is the coarse effect of everything that leaves the control
state alone: which relay and which request a client is at, and where in its life a relay is.
-/

namespace H2ClientProxy

open Wp SendQueue

variable {D : StreamId → Prop} {w w' : World}

/-! ### Quiet effects -/

/-- The control state of a client is kept; its send side and the texts of its headers may change. -/
structure CtlKept (cl cl' : Client) : Prop where
  relaySys : cl'.relaySys = cl.relaySys
  relay : cl'.relay = cl.relay
  requestHeader : cl'.requestHeader.map Header.id = cl.requestHeader.map Header.id
  pendingRequestHeader :
    cl'.pendingRequestHeader.map Header.id = cl.pendingRequestHeader.map Header.id
  parser : cl'.parser = cl.parser
  reqNo : cl'.reqNo = cl.reqNo
  listRequestBodyBuffer : cl'.listRequestBodyBuffer = cl.listRequestBodyBuffer

/-- The control state of a relay is kept. -/
structure RelayKept (rel rel' : Relay) : Prop where
  session : rel'.session = rel.session
  args : rel'.args = rel.args
  tmrConnectd : rel'.tmrConnectd = rel.tmrConnectd
  isAttached : rel'.isAttached = rel.isAttached
  relayStatus : rel'.relayStatus = rel.relayStatus

/-- The effect of a call that leaves the control state alone. -/
abbrev Quiet := Effect CtlKept RelayKept fun _ _ => True

instance : Std.Refl CtlKept := ⟨fun _ => ⟨rfl, rfl, rfl, rfl, rfl, rfl, rfl⟩⟩

instance : IsTrans Client CtlKept :=
  ⟨fun _ _ _ h h' => ⟨h'.relaySys.trans h.relaySys, h'.relay.trans h.relay,
    h'.requestHeader.trans h.requestHeader, h'.pendingRequestHeader.trans h.pendingRequestHeader,
    h'.parser.trans h.parser, h'.reqNo.trans h.reqNo,
    h'.listRequestBodyBuffer.trans h.listRequestBodyBuffer⟩⟩

instance : Std.Refl RelayKept := ⟨fun _ => ⟨rfl, rfl, rfl, rfl, rfl⟩⟩

instance : IsTrans Relay RelayKept :=
  ⟨fun _ _ _ h h' => ⟨h'.session.trans h.session, h'.args.trans h.args,
    h'.tmrConnectd.trans h.tmrConnectd, h'.isAttached.trans h.isAttached,
    h'.relayStatus.trans h.relayStatus⟩⟩

instance anyRefl {α : Type} : Std.Refl fun _ _ : α => True := ⟨fun _ => trivial⟩

instance anyTrans {α : Type} : IsTrans α fun _ _ => True := ⟨fun _ _ _ _ _ => trivial⟩

/-- Sending is quiet. -/
theorem Sent.quiet (h : Sent D w w') : Quiet D w w' :=
  h.mono (by rintro a _ rfl; exact Std.Refl.refl a)
    (by rintro a _ ⟨q, rfl⟩; exact ⟨rfl, rfl, rfl, rfl, rfl⟩) (fun _ _ _ => trivial) (fun _ => id)

/-! ### Writing a field of a relay -/

/-- `w'` is `w` after a write to a field of `r`, which may have been freed. -/
def Wrote (r : RelayId) (f : Relay → Relay) (w w' : World) : Prop :=
  (∃ rel, w.relays r = some rel ∧ w' = w.setRelay r (f rel)) ∨
    (w.relays r = none ∧ w' = w.log (.wildWrite r))

theorem writeRelay_spec (r : RelayId) (f : Relay → Relay) {E : Fault → World → Prop} :
    wp (writeRelay r f) (fun _ => Wrote r f w) E w := by
  simp only [writeRelay, wp_bind, wp_get]
  cases hr : w.relays r with
  | none => exact Or.inr ⟨hr, rfl⟩
  | some rel => exact Or.inl ⟨rel, hr, rfl⟩

/-! ### The operations -/

/-- The faults of an operation on the relay `r`. -/
def RelayFault (w : World) (r : RelayId) : Fault → Prop
  | .relayFreed r' => (r' = r ∧ w.relays r = none) ∨
      (¬ StreamsOk w ∧ ∃ rel, w.relays r = some rel ∧ rel.session = true)
  | .nullSession => ∃ rel, w.relays r = some rel ∧ (rel.session = false ∨ ¬ SessionsOk w)
  | .assertFailed => True
  | _ => False

theorem SendFault.relayFault {e : Fault} {r : RelayId} {rel : Relay} (h : SendFault w e)
    (hr : w.relays r = some rel) (hs : rel.session = true) : RelayFault w r e := by
  cases e with
  | relayFreed r' => exact Or.inr ⟨h, rel, hr, hs⟩
  | nullSession => exact ⟨rel, hr, Or.inr h⟩
  | _ => exact h.elim

/-- `sessionSend` of a session that may be `NULL`. -/
theorem sessionSend_spec_of (session : Bool) :
    wp (sessionSend session) (fun _ w' => Sent (· ∈ w.closeOnSend) w w')
      (fun e w' => Sent (· ∈ w.closeOnSend) w w' ∧
        (e = .nullSession ∧ session = false ∨ session = true ∧ SendFault w e)) w := by
  cases session with
  | true => exact wp_mono (sessionSend_spec rfl) (fun _ _ => id) (fun _ _ h => ⟨h.1, .inr ⟨rfl, h.2⟩⟩)
  | false =>
    simp only [sessionSend, wp_bind, wp_needSession]
    exact ⟨.refl _ _, Or.inl ⟨trivial, trivial⟩⟩

/-- `relay_write_body`. -/
theorem relayWriteBody_spec (r : RelayId) (data : Bytes) :
    wp (relayWriteBody r data) (fun _ => Sent (· ∈ w.closeOnSend) w)
      (fun e w' => Sent (· ∈ w.closeOnSend) w w' ∧ RelayFault w r e) w := by
  simp only [relayWriteBody, wp_ite, wp_throw, wp_bind, wp_getRelay, wp_putRelay, wp_needSession,
    resumeData, wp_modify, wp_pure]
  split_ifs
  · exact ⟨.refl _ _, trivial⟩
  cases hr : w.relays r with
  | none => exact ⟨.refl _ _, Or.inl ⟨rfl, hr⟩⟩
  | some rel =>
    dsimp only
    have h1 : Sent (· ∈ w.closeOnSend) w
        (w.setRelay r { rel with listWriteBuf := rel.listWriteBuf ++ [Buf.fresh data] }) :=
      effect_setRelay hr rfl ⟨_, rfl⟩
    split_ifs with hs
    · have h2 := h1.trans (effect_mapStream rel.streamId ({ · with deferred := false })
        fun st => ⟨⟨rfl, rfl, Or.inl rfl⟩, rfl, rfl⟩)
      refine wp_mono (sessionSend_spec hs) (fun _ _ h => h2.trans h) (fun e w' h => ⟨h2.trans h.1, ?_⟩)
      exact (h.2.of_sent h2).relayFault hr hs
    · exact h1
    · rw [Bool.not_eq_true] at hs
      exact ⟨h1, rel, hr, Or.inl hs⟩

/-- `nghttp2_submit_rst_stream`: the stream is doomed from now on. -/
theorem addRstStream_spec (s : StreamId) {E : Fault → World → Prop} :
    wp (addRstStream s) (fun _ => Sent (· = s) w) E w := by
  simp only [addRstStream, wp_bind, wp_get, wp_ite, wp_pure, wp_modify]
  have h1 : Sent (· = s) w (w.mapStream s ({ · with closing := true })) :=
    effect_mapStream s _ fun st => ⟨⟨rfl, rfl, Or.inl rfl⟩, rfl, rfl⟩
  split_ifs
  · exact .refl _ _
  · exact h1
  · refine h1.trans { (Effect.refl _ _ : Sent _ _ _) with closeOnSend := fun s' hs' => ?_ }
    simpa using hs'

/-- `relay_close` on a live relay: its stream is reset, then the relay is detached. -/
theorem relayClose_spec {r : RelayId} {rel : Relay} (hr : w.relays r = some rel) :
    wp (relayClose r)
      (fun _ w' => ∃ w1, Sent (fun s => s ∈ w.closeOnSend ∨ s = rel.streamId) (w.log (.close r)) w1 ∧
        Wrote r (fun rel => { rel with isAttached := false }) w1 w')
      (fun e w' => w'.trace = w.trace ++ [Obs.close r] ∧ RelayFault w r e) w := by
  simp only [relayClose, wp_bind, wp_note, wp_getRelay, World.log_relays, hr]
  have hrst : wp (submitRstStream rel.session rel.streamId)
      (fun _ w' => Sent (· = rel.streamId) (w.log (.close r)) w')
      (fun e w' => w' = w.log (.close r) ∧ e = .nullSession ∧ rel.session = false)
      (w.log (.close r)) := by
    simp only [submitRstStream, wp_ite, wp_pure, wp_bind, wp_needSession]
    split_ifs with _ hs
    · exact .refl _ _
    · exact addRstStream_spec _
    · exact ⟨trivial, trivial, Bool.not_eq_true _ ▸ hs⟩
  refine wp_mono hrst ?_ ?_
  rotate_left
  · rintro e w' ⟨rfl, rfl, hs⟩
    exact ⟨rfl, rel, hr, Or.inl hs⟩
  intro _ w1 h1
  have h1' : Sent (fun s => s ∈ w.closeOnSend ∨ s = rel.streamId) (w.log (.close r)) w1 :=
    h1.mono (fun _ _ => id) (fun _ _ => id) (fun _ _ => id) (fun _ => Or.inr)
  have hd : ∀ s, s ∈ w1.closeOnSend → s ∈ w.closeOnSend ∨ s = rel.streamId := h1.closeOnSend
  refine wp_mono (sessionSend_spec_of _) ?_ ?_
  · intro _ w2 h2
    refine wp_mono (writeRelay_spec r _) (fun _ w3 h3 => ⟨w2, h1'.trans ?_, h3⟩) (fun _ _ => id)
    exact h2.mono (fun _ _ => id) (fun _ _ => id) (fun _ _ => id) hd
  · rintro e w2 ⟨h2, he⟩
    refine ⟨h2.trace.trans h1.trace, ?_⟩
    rcases he with ⟨rfl, hs⟩ | ⟨hs, he⟩
    · exact ⟨rel, hr, Or.inl hs⟩
    · have he' : SendFault (w.log (.close r)) e := he.of_sent h1
      exact SendFault.relayFault (w := w) he' hr hs

/-- The stream of a window update ends up with nothing unacknowledged. -/
theorem mapStream_recvLen {s : StreamId} {st : Stream} (hs : w.streams s = some st) :
    w.mapStream s (fun st' => { st' with recvLen := st'.recvLen - ((st.recvLen : ℤ)).toNat })
      = w.mapStream s ({ · with recvLen := 0 }) := by
  simp only [World.mapStream, hs, Option.map_some, Int.toNat_natCast, Nat.sub_self]

/-- What `relay_resume_read` leaves: a suspended relay with more than 30000 bytes unacknowledged has
acknowledged them. -/
def Resumed (r : RelayId) (w w' : World) : Prop :=
  ∃ rel w1, w.relays r = some rel ∧
    ((w1 = w ∧ (rel.isResponseReadSuspend = true →
        ∀ st, w.streams rel.streamId = some st → st.recvLen ≤ 30000)) ∨
      Sent (· ∈ w.closeOnSend) (w.mapStream rel.streamId ({ · with recvLen := 0 })) w1) ∧
    Wrote r (fun rel => { rel with isResponseReadSuspend := false }) w1 w'

theorem relayResumeRead_spec (r : RelayId) :
    wp (relayResumeRead r) (fun _ => Resumed r w)
      (fun e w' => w'.trace = w.trace ∧ RelayFault w r e) w := by
  simp only [relayResumeRead, wp_bind, wp_getRelay, getRecvLen, wp_needSession, wp_get, wp_pure,
    wp_ite, submitWindowUpdate, wp_modify]
  cases hr : w.relays r with
  | none => exact ⟨trivial, Or.inl ⟨rfl, hr⟩⟩
  | some rel =>
    dsimp only
    split_ifs with hsess hcond
    · rw [Bool.and_eq_true, decide_eq_true_eq] at hcond
      cases hst : w.streams rel.streamId with
      | none => rw [hst] at hcond; exact absurd hcond.2 (by simp)
      | some st =>
        rw [Option.map_some, Option.getD_some, mapStream_recvLen hst]
        refine wp_mono (sessionSend_spec hsess) ?_ ?_
        · intro _ w1 h1
          exact wp_mono (writeRelay_spec r _) (fun _ w2 h2 => ⟨rel, w1, hr, Or.inr h1, h2⟩)
            (fun _ _ => id)
        · rintro e w1 ⟨h1, he⟩
          have hq : Quiet (fun _ => False) w (w.mapStream rel.streamId ({ · with recvLen := 0 })) :=
            effect_mapStream _ _ fun _ => ⟨⟨rfl, rfl, Or.inl rfl⟩, trivial, rfl⟩
          exact ⟨h1.trace, (he.of_effect (fun _ _ => RelayKept.session) hq).relayFault hr hsess⟩
    · refine wp_mono (writeRelay_spec r _) (fun _ w2 h2 => ⟨rel, w, hr, Or.inl ⟨rfl, ?_⟩, h2⟩)
        (fun _ _ => id)
      intro hsus st hst
      rw [hsus, hst, Bool.true_and, decide_eq_true_eq] at hcond
      simp only [Option.map_some, Option.getD_some] at hcond
      omega
    · rw [Bool.not_eq_true] at hsess
      exact ⟨trivial, rel, hr, Or.inl hsess⟩

/-- Resuming is quiet, up to the write at its end. -/
theorem Resumed.quiet {r : RelayId} (h : Resumed r w w') :
    ∃ w1, Quiet (· ∈ w.closeOnSend) w w1 ∧
      Wrote r (fun rel => { rel with isResponseReadSuspend := false }) w1 w' := by
  obtain ⟨rel, w1, _, h1, h2⟩ := h
  refine ⟨w1, ?_, h2⟩
  rcases h1 with ⟨rfl, _⟩ | h1
  · exact .refl _ _
  · have h0 : Quiet (· ∈ w.closeOnSend) w (w.mapStream rel.streamId ({ · with recvLen := 0 })) :=
      effect_mapStream _ _ fun _ => ⟨⟨rfl, rfl, Or.inl rfl⟩, trivial, rfl⟩
    exact h0.trans h1.quiet

/-- `relay_free` on a live relay. -/
theorem relayFree_spec {r : RelayId} {rel : Relay} (hr : w.relays r = some rel) :
    wp (relayFree r)
      (fun _ w' => w' = (w.mapStream rel.streamId ({ · with userData := none })).removeRelay r)
      (fun e w' => w' = w ∧ e = .nullSession ∧ rel.session = false) w := by
  simp only [relayFree, wp_bind, wp_getRelay, hr, setStreamUserData, wp_needSession, wp_modify]
  split_ifs with hs
  exact ⟨trivial, trivial, Bool.not_eq_true _ ▸ hs⟩

/-! ### Submitting a request -/

/-- The world after `nghttp2_submit_request` for the relay `r`. -/
def submitted (w : World) (r : RelayId) (rel : Relay) (h : Header) : World :=
  let w1 := w.addStream (requestStream (requestHasProvider h) r w.refusesRequests)
  let w2 := if w.refusesRequests then w1.setCloseOnSend (w.closeOnSend ++ [w.nextStreamId]) else w1
  w2.setRelay r { rel with requestHeader := some h, streamId := w.nextStreamId }

section Submitted

variable (r : RelayId) (rel : Relay) (h : Header)

@[simp]
theorem submitted_relays : (submitted w r rel h).relays
    = Function.update w.relays r
        (some { rel with requestHeader := some h, streamId := w.nextStreamId }) := by
  unfold submitted
  split_ifs <;> rfl

@[simp]
theorem submitted_streams : (submitted w r rel h).streams
    = Function.update w.streams w.nextStreamId
        (some (requestStream (requestHasProvider h) r w.refusesRequests)) := by
  unfold submitted
  split_ifs <;> rfl

@[simp]
theorem submitted_clients : (submitted w r rel h).clients = w.clients := by
  unfold submitted
  split_ifs <;> rfl

@[simp]
theorem submitted_nextClient : (submitted w r rel h).nextClient = w.nextClient := by
  unfold submitted
  split_ifs <;> rfl

@[simp]
theorem submitted_nextRelay : (submitted w r rel h).nextRelay = w.nextRelay := by
  unfold submitted
  split_ifs <;> rfl

@[simp]
theorem submitted_nextStreamId : (submitted w r rel h).nextStreamId = w.nextStreamId + 2 := by
  unfold submitted
  split_ifs <;> rfl

@[simp]
theorem submitted_sListRelays : (submitted w r rel h).sListRelays = w.sListRelays := by
  unfold submitted
  split_ifs <;> rfl

@[simp]
theorem submitted_tunnel : (submitted w r rel h).tunnel = w.tunnel := by
  unfold submitted
  split_ifs <;> rfl

@[simp]
theorem submitted_sSession : (submitted w r rel h).sSession = w.sSession := by
  unfold submitted
  split_ifs <;> rfl

@[simp]
theorem submitted_trace : (submitted w r rel h).trace = w.trace := by
  unfold submitted
  split_ifs <;> rfl

theorem submitted_closeOnSend (hg : w.refusesRequests = false) :
    (submitted w r rel h).closeOnSend = w.closeOnSend := by
  unfold submitted
  rw [hg]
  rfl

end Submitted

theorem submitted_relays_eq_some {r r1 : RelayId} {rel rel1 : Relay} {h : Header}
    (hr : (submitted w r rel h).relays r1 = some rel1) :
    r1 = r ∧ rel1 = { rel with requestHeader := some h, streamId := w.nextStreamId } ∨
      r1 ≠ r ∧ w.relays r1 = some rel1 := by
  rw [submitted_relays, Function.update_apply] at hr
  split_ifs at hr with he
  · exact Or.inl ⟨he, (Option.some.inj hr).symm⟩
  · exact Or.inr ⟨he, hr⟩

theorem submitted_streams_eq_some {r : RelayId} {rel : Relay} {h : Header} {s : StreamId} {st : Stream}
    (hs : (submitted w r rel h).streams s = some st) :
    s = w.nextStreamId ∧ st = requestStream (requestHasProvider h) r w.refusesRequests ∨
      s ≠ w.nextStreamId ∧ w.streams s = some st := by
  rw [submitted_streams, Function.update_apply] at hs
  split_ifs at hs with he
  · exact Or.inl ⟨he, (Option.some.inj hs).symm⟩
  · exact Or.inr ⟨he, hs⟩

theorem submitRequest_spec (session provider : Bool) (r : RelayId) :
    wp (submitRequest session provider r)
      (fun sid w' => session = true ∧ sid = w.nextStreamId ∧ w' =
        if w.refusesRequests then (w.addStream (requestStream provider r w.refusesRequests)).setCloseOnSend
          (w.closeOnSend ++ [w.nextStreamId])
        else w.addStream (requestStream provider r w.refusesRequests))
      (fun e w' => w' = w ∧ e = .nullSession ∧ session = false) w := by
  simp only [submitRequest, wp_bind, wp_needSession, wp_get, wp_modify, wp_ite, wp_pure]
  split_ifs with hs
  · exact ⟨hs, trivial, rfl⟩
  · exact ⟨hs, trivial, rfl⟩
  · exact ⟨trivial, trivial, Bool.not_eq_true _ ▸ hs⟩

/-- The faults of `relay_send_request` for the relay `r`. -/
def SubmitFault (w : World) (r : RelayId) (header : Option Header) : Fault → Prop
  | .relayFreed _ => w.relays r = none ∨ ∃ h rel, header = some h ∧ w.relays r = some rel ∧
      w.sSession = true ∧ ¬ StreamsOk (submitted w r rel h)
  | .nullSession => w.sSession = false ∨ ∃ h rel, header = some h ∧ w.relays r = some rel ∧
      ¬ SessionsOk (submitted w r rel h)
  | .nullHeader => True
  | _ => False

theorem SendFault.submitFault {e : Fault} {r : RelayId} {rel : Relay} {h : Header}
    (he : SendFault (submitted w r rel h) e) (hr : w.relays r = some rel)
    (hs : w.sSession = true) : SubmitFault w r (some h) e := by
  cases e with
  | relayFreed r' => exact Or.inr ⟨h, rel, rfl, hr, hs, he⟩
  | nullSession => exact Or.inr ⟨h, rel, rfl, hr, he⟩
  | _ => exact he.elim

/-- `relay_send_request`: the request is submitted and the session sends. -/
theorem relaySendRequest_spec (r : RelayId) (header : Option Header) :
    wp (relaySendRequest r header)
      (fun _ w' => ∃ h rel w1, header = some h ∧ w.relays r = some rel ∧ w.sSession = true ∧
        Sent (· ∈ (submitted w r rel h).closeOnSend) (submitted w r rel h) w1 ∧
        Wrote r (fun rel => { rel with relayStatus := .requestSent }) w1 w')
      (fun e w' => w'.trace = w.trace ∧ SubmitFault w r header e) w := by
  cases header with
  | none => exact ⟨rfl, trivial⟩
  | some h =>
    simp only [relaySendRequest, wp_ite, wp_throw, wp_bind, wp_getRelay, wp_get]
    split_ifs with hurl
    · exact ⟨trivial, trivial⟩
    cases hr : w.relays r with
    | none => exact ⟨trivial, Or.inl hr⟩
    | some rel =>
      refine wp_mono (submitRequest_spec _ _ r) ?_ ?_
      · rintro _ w1 ⟨hs, rfl, rfl⟩
        rw [wp_putRelay]
        refine wp_mono (sessionSend_spec (w := submitted w r rel h) hs) ?_ ?_
        · intro _ w1 h1
          exact wp_mono (writeRelay_spec r _)
            (fun _ w2 h2 => ⟨h, rel, w1, rfl, rfl, hs, h1, h2⟩) (fun _ _ => id)
        · rintro e w1 ⟨h1, he⟩
          exact ⟨by rw [h1.trace, submitted_trace], he.submitFault hr hs⟩
      · rintro e w1 ⟨rfl, rfl, hs⟩
        exact ⟨rfl, Or.inl hs⟩

end H2ClientProxy
