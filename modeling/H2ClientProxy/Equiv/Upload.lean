import H2ClientProxy.Lib.Machine
import H2ClientProxy.Equiv.Relay

/-!
# When an upload ends

The body of a request reaches nghttp2 through `relay_data_source_read_callback`.  A provider that has
nothing to give is deferred, and is asked again only after `nghttp2_session_resume_data`.
`relay_write_body` resumes it; `relay_complete_request` only sets a flag.

* `UploadAct`: the calls that a submitted relay sees, in any order and with any choice of what nghttp2
  asks for.
* `wp_run_endIsSent`: as long as `relay_complete_request` does not come while the provider is deferred
  with nothing left to send, a complete request with an empty list is never stuck: the provider is not
  deferred, and the next time it is asked our side of the stream ends.
* `not_endIsSent`: otherwise it is stuck.
-/

namespace H2ClientProxy

open Wp Machine SendQueue

/-! ### A relay and the calls it sees -/

/-- The session with one relay, which has not been submitted yet.  `isRequestComplete` and `bufs` are
what `relay_complete_request` and `relay_write_body` have left in it. -/
def uploadWorld (isRequestComplete : Bool) (bufs : List Bytes) : World :=
  let w : World := { tunnel := .connected, sSession := true }
  w.addRelay
    { session := true, args := 0, isRequestComplete := isRequestComplete
      listWriteBuf := bufs.map Buf.fresh }

/-- `relay_send_request`, whose `nghttp2_session_send` asks for `pulls`. -/
def submit (header : Header) (pulls : List (StreamId × ℕ)) : SysM Unit := do
  modify (·.setPulls [pulls])
  relaySendRequest 0 (some header)

/-- The world after the submission. -/
def submittedUpload (header : Header) (isRequestComplete : Bool) (bufs : List Bytes)
    (pulls : List (StreamId × ℕ)) : World :=
  finalState (submit header pulls (uploadWorld isRequestComplete bufs))

/-- What happens to a submitted relay. -/
inductive UploadAct where
  /-- `relay_write_body`, whose `nghttp2_session_send` asks for `pulls`. -/
  | writeBody (data : Bytes) (pulls : List (StreamId × ℕ))
  /-- `relay_complete_request`. -/
  | completeRequest
  /-- nghttp2 sends, and asks for `pulls`. -/
  | send (pulls : List (StreamId × ℕ))
  deriving DecidableEq, Repr

/-- One call. -/
def uploadStep : UploadAct → SysM Unit
  | .writeBody data pulls => do
    modify (·.setPulls [pulls])
    relayWriteBody 0 data
  | .completeRequest => relayCompleteRequest 0
  | .send pulls => do
    modify (·.setPulls [pulls])
    sessionSend true

/-! ### What is claimed of it -/

/-- The stream of the relay. -/
def uploadStream (w : World) : Option Stream :=
  (w.relays 0).bind fun rel => w.streams rel.streamId

/-- The list of the relay is empty and the end has not been signalled. -/
def drained (w : World) : Bool :=
  (w.relays 0).any (·.listWriteBuf.isEmpty) && (uploadStream w).any (!·.shutWr)

/-- The request is complete, nothing is left to send and the end has not been signalled. -/
def endDue (w : World) : Bool := (w.relays 0).any Relay.isRequestComplete && drained w

/-- If the end is due, nghttp2 will ask the provider again, and the answer ends our side of the
stream. -/
def EndIsSent (w : World) : Prop :=
  endDue w = true → (uploadStream w).any Stream.deferred = false ∧
    ∀ length, wp (pull 1 length) (fun _ w' => (uploadStream w').any Stream.shutWr = true)
      (fun _ _ => False) w

/-- `relay_complete_request` does not come while the provider is deferred with nothing to send. -/
def completesInTime (w : World) : UploadAct → Bool
  | .completeRequest => !(drained w && (uploadStream w).any Stream.deferred)
  | _ => true

/-! ### The invariant -/

/-- The relay `rel` and its stream `st`, which is open and the only one. -/
structure Uploading (w : World) (rel : Relay) (st : Stream) : Prop where
  relay : w.relays 0 = some rel
  session : rel.session = true
  streamId : rel.streamId = 1
  stream : w.streams 1 = some st
  only : ∀ s, s ≠ 1 → w.streams s = none
  provider : st.provider = some 0
  unclosed : st.closing = false ∧ st.shutRd = false
  queue : w.closeOnSend = []
  asked : rel.isRequestComplete = true → rel.listWriteBuf = [] → st.shutWr = false →
    st.deferred = false

variable {w : World} {rel : Relay} {st : Stream}

theorem Uploading.uploadStream_eq (h : Uploading w rel st) : uploadStream w = some st := by
  rw [uploadStream, h.relay, Option.bind_some, h.streamId, h.stream]

/-- What nghttp2 asks for does not matter to the invariant. -/
theorem Uploading.setPulls (h : Uploading w rel st) (pulls : List (List (StreamId × ℕ))) :
    Uploading (w.setPulls pulls) rel st :=
  ⟨h.relay, h.session, h.streamId, h.stream, h.only, h.provider, h.unclosed, h.queue, h.asked⟩

/-- A change of the relay and of its stream. -/
theorem Uploading.update (h : Uploading w rel st) {r : Relay} (f : Stream → Stream)
    (hs : r.session = rel.session) (hid : r.streamId = rel.streamId)
    (hp : (f st).provider = st.provider) (hc : (f st).closing = st.closing)
    (hr : (f st).shutRd = st.shutRd)
    (hasked : r.isRequestComplete = true → r.listWriteBuf = [] → (f st).shutWr = false →
      (f st).deferred = false) :
    Uploading ((w.setRelay 0 r).mapStream 1 f) r (f st) where
  relay := by
    show Function.update w.relays 0 (some r) 0 = some r
    exact Function.update_self ..
  session := hs.trans h.session
  streamId := hid.trans h.streamId
  stream := by
    rw [World.mapStream_streams, Function.update_self, World.setRelay_streams, h.stream,
      Option.map_some]
  only := by
    intro s hne
    rw [World.mapStream_streams, Function.update_of_ne hne]
    exact h.only s hne
  provider := hp.trans h.provider
  unclosed := ⟨hc.trans h.unclosed.1, hr.trans h.unclosed.2⟩
  queue := h.queue
  asked := hasked

/-- A change of the relay alone. -/
theorem Uploading.setRelay (h : Uploading w rel st) {rel' : Relay}
    (hs : rel'.session = rel.session) (hid : rel'.streamId = rel.streamId)
    (hasked : rel'.isRequestComplete = true → rel'.listWriteBuf = [] → st.shutWr = false →
      st.deferred = false) :
    Uploading (w.setRelay 0 rel') rel' st where
  relay := by
    show Function.update w.relays 0 (some rel') 0 = some rel'
    exact Function.update_self ..
  session := hs.trans h.session
  streamId := hid.trans h.streamId
  stream := h.stream
  only := h.only
  provider := h.provider
  unclosed := h.unclosed
  queue := h.queue
  asked := hasked

/-! ### nghttp2 asks -/

/-- The relay after the provider has been asked: only its list is shorter. -/
def Asked (rel : Relay) (w' : World) : Prop :=
  ∃ q st', Uploading w' { rel with listWriteBuf := q } st'

/-- A provider that is not deferred is asked. -/
theorem Uploading.pullFrom (h : Uploading w rel st) (hdef : st.deferred = false) (length : ℕ) :
    wp (pullFrom 1 st 0 length) (fun _ => Asked rel) (fun _ _ => False) w := by
  simp only [H2ClientProxy.pullFrom, relayDataSourceRead, wp_bind, wp_getRelay, h.relay,
    wp_putRelay]
  by_cases hempty : (copyOut rel.listWriteBuf length).1.isEmpty = true
  · rw [if_pos hempty, wp_pure]
    by_cases heof : (rel.isRequestComplete && (copyOut rel.listWriteBuf length).2.isEmpty) = true
    · -- the end is signalled
      simp only [heof, if_true, wp_bind, wp_modify, h.unclosed.2, Bool.false_eq_true, if_false,
        wp_pure]
      exact ⟨_, _, h.update ({ · with shutWr := true }) rfl rfl rfl rfl rfl
        fun _ _ hwr => Bool.noConfusion hwr⟩
    · -- nothing to give: the request is not complete, or the list is not empty
      simp only [heof]
      refine ⟨_, _, h.update ({ · with deferred := true }) rfl rfl rfl rfl rfl ?_⟩
      intro hcomp hnil
      dsimp only at hcomp hnil
      rw [hcomp, hnil] at heof
      exact absurd rfl heof
  · rw [if_neg hempty, wp_pure]
    exact ⟨_, _, h.setRelay rfl rfl fun _ _ _ => hdef⟩

theorem Uploading.pull (h : Uploading w rel st) (s : StreamId) (length : ℕ) :
    wp (pull s length) (fun _ => Asked rel) (fun _ _ => False) w := by
  have hkept : Asked rel w := ⟨rel.listWriteBuf, st, h⟩
  simp only [H2ClientProxy.pull, wp_bind, wp_get]
  by_cases hs : s = 1
  · subst hs
    simp only [h.stream, h.provider, wp_ite, wp_pure]
    split_ifs with hopen
    · exact hkept
    · simp only [Bool.or_eq_true, not_or, Bool.not_eq_true] at hopen
      exact h.pullFrom hopen.1.1 length
  · rw [h.only s hs]
    exact hkept

theorem Uploading.pullAll (h : Uploading w rel st) (pulls : List (StreamId × ℕ)) :
    wp (pullAll pulls) (fun _ => Asked rel) (fun _ _ => False) w := by
  induction pulls generalizing w rel st with
  | nil => exact ⟨rel.listWriteBuf, st, h⟩
  | cons p pulls ih =>
    rw [H2ClientProxy.pullAll, wp_bind]
    refine wp_mono (h.pull p.1 p.2) ?_ (fun _ _ => id)
    rintro - w1 ⟨q, st1, h1⟩
    exact wp_mono (ih h1) (fun _ _ h2 => h2) (fun _ _ => id)

/-- `nghttp2_session_send`: no stream is closed here. -/
theorem Uploading.sessionSend (h : Uploading w rel st) :
    wp (sessionSend true) (fun _ => Asked rel) (fun _ _ => False) w := by
  simp only [H2ClientProxy.sessionSend, wp_bind, wp_needSession, if_true, wp_get, wp_modify, h.queue,
    closeStreams, wp_pure]
  have h0 : Uploading ((w.setCloseOnSend []).setPulls w.pulls.tail) rel st :=
    ⟨h.relay, h.session, h.streamId, h.stream, h.only, h.provider, h.unclosed, rfl, h.asked⟩
  exact h0.pullAll _

/-! ### The calls -/

/-- The states between two calls: the request has been sent. -/
def Between (w : World) : Prop :=
  ∃ rel st, Uploading w rel st ∧ RelayStatus.requestSent.toNat ≤ rel.relayStatus.toNat

/-- `relay_send_request` leaves a submitted relay. -/
theorem submit_spec {header : Header} (hurl : header.url.isSome = true)
    (hprov : requestHasProvider header = true) (isRequestComplete : Bool) (bufs : List Bytes)
    (pulls : List (StreamId × ℕ)) :
    wp (submit header pulls) (fun _ => Between) (fun _ _ => False)
      (uploadWorld isRequestComplete bufs) := by
  have hnone : header.url.isNone = false := by
    rw [← Option.not_isSome, hurl]
    rfl
  -- the relay and its stream when `nghttp2_session_send` is called
  let rel : Relay :=
    { session := true, args := 0, isRequestComplete := isRequestComplete
      listWriteBuf := bufs.map Buf.fresh, requestHeader := some header, streamId := 1 }
  let st : Stream := requestStream true 0 false
  let w1 := (((uploadWorld isRequestComplete bufs).setPulls [pulls]).addStream st).setRelay 0 rel
  have h1 : Uploading w1 rel st := by
    refine ⟨rfl, rfl, rfl, rfl, ?_, rfl, ⟨rfl, rfl⟩, rfl, ?_⟩
    · intro s hs
      exact Function.update_of_ne hs _ _
    · exact fun _ _ _ => rfl
  have hsend : wp (sessionSend true)
      (fun _ => wp (writeRelay 0 fun rel => { rel with relayStatus := .requestSent })
        (fun _ => Between) (fun _ _ => False)) (fun _ _ => False) w1 := by
    refine wp_mono h1.sessionSend ?_ (fun _ _ => id)
    rintro - w' ⟨q, st', h'⟩
    simp only [writeRelay, wp_bind, wp_get, h'.relay, wp_putRelay]
    exact ⟨_, st', h'.setRelay rfl rfl h'.asked, le_rfl⟩
  simp only [submit, relaySendRequest, hnone, Bool.false_eq_true, if_false, wp_bind, wp_modify,
    wp_getRelay, wp_get, submitRequest, hprov]
  exact hsend

/-- `relay_write_body` resumes the provider. -/
theorem Between.writeBody (h : Between w) (data : Bytes) (pulls : List (StreamId × ℕ)) :
    wp (uploadStep (.writeBody data pulls)) (fun _ => Between)
      (fun e w' => e = .assertFailed ∧ Between w') w := by
  obtain ⟨rel, st, h, hst⟩ := h
  have h0 := h.setPulls [pulls]
  simp only [uploadStep, relayWriteBody, wp_bind, wp_modify, wp_ite, wp_throw, wp_getRelay, h0.relay,
    wp_putRelay]
  split_ifs with hdata
  · exact ⟨trivial, rel, st, h0, hst⟩
  · have h1 := h0.update (r := { rel with listWriteBuf := rel.listWriteBuf ++ [Buf.fresh data] })
      ({ · with deferred := false }) rfl rfl rfl rfl rfl (fun _ _ _ => rfl)
    have hst1 : RelayStatus.requestSent.toNat ≤ ({ rel with
        listWriteBuf := rel.listWriteBuf ++ [Buf.fresh data] } : Relay).relayStatus.toNat := hst
    generalize ({ rel with listWriteBuf := rel.listWriteBuf ++ [Buf.fresh data] } : Relay) = rel1
      at h1 hst1 ⊢
    simp only [wp_needSession, h.session, if_true, resumeData, wp_bind, wp_modify, h.streamId]
    refine wp_mono h1.sessionSend ?_ (fun _ _ => False.elim)
    rintro - w' ⟨q, st', h'⟩
    exact ⟨_, st', h', hst1⟩

/-- `relay_complete_request` sets the flag; here the condition is needed. -/
theorem Between.completeRequest (h : Between w) (hG : completesInTime w .completeRequest = true) :
    wp (uploadStep .completeRequest) (fun _ => Between) (fun _ _ => False) w := by
  obtain ⟨rel, st, h, hst⟩ := h
  simp only [uploadStep, relayCompleteRequest, writeRelay, wp_bind, wp_get, h.relay, wp_putRelay]
  refine ⟨{ rel with isRequestComplete := true }, st, h.setRelay rfl rfl ?_, hst⟩
  intro _ hnil hwr
  rw [completesInTime, drained, h.uploadStream_eq, h.relay] at hG
  dsimp only at hnil
  simpa [hnil, hwr] using hG

theorem Between.send (h : Between w) (pulls : List (StreamId × ℕ)) :
    wp (uploadStep (.send pulls)) (fun _ => Between) (fun _ _ => False) w := by
  obtain ⟨rel, st, h, hst⟩ := h
  simp only [uploadStep, wp_bind, wp_modify]
  refine wp_mono (h.setPulls [pulls]).sessionSend ?_ (fun _ _ => id)
  rintro - w' ⟨q, st', h'⟩
  exact ⟨_, st', h', hst⟩

theorem Between.step (h : Between w) {a : UploadAct} (hG : completesInTime w a = true) :
    wp (uploadStep a) (fun _ => Between) (fun e w' => e = .assertFailed ∧ Between w') w := by
  cases a with
  | writeBody data pulls => exact h.writeBody data pulls
  | completeRequest => exact wp_mono (h.completeRequest hG) (fun _ _ => id) (fun _ _ => False.elim)
  | send pulls => exact wp_mono (h.send pulls) (fun _ _ => id) (fun _ _ => False.elim)

/-- What the invariant says of a request whose end is due. -/
theorem Between.endIsSent (h : Between w) : EndIsSent w := by
  obtain ⟨rel, st, h, -⟩ := h
  intro hdue
  simp only [endDue, drained, h.relay, h.uploadStream_eq, Option.any_some, Bool.and_eq_true,
    List.isEmpty_iff, Bool.not_eq_true'] at hdue
  obtain ⟨hcomp, hnil, hwr⟩ := hdue
  have hdef := h.asked hcomp hnil hwr
  refine ⟨by rw [h.uploadStream_eq, Option.any_some, hdef], fun length => ?_⟩
  -- the list is empty, so the answer is the end
  have hopen : (st.deferred || st.shutWr || st.closing) = false := by
    rw [hdef, hwr, h.unclosed.1]
    rfl
  simp only [H2ClientProxy.pull, wp_bind, wp_get, h.stream, h.provider, hopen, Bool.false_eq_true,
    if_false, pullFrom, relayDataSourceRead, wp_getRelay, h.relay, wp_putRelay, hnil, copyOut,
    List.isEmpty_nil, if_true, hcomp, Bool.and_self, wp_pure, wp_modify, h.unclosed.2]
  have h1 := h.update (r := { rel with isRequestComplete := true, listWriteBuf := [] })
    ({ · with shutWr := true }) rfl rfl rfl rfl rfl fun _ _ hwr' => Bool.noConfusion hwr'
  rw [h1.uploadStream_eq]
  rfl

/-! ### Every order of the calls -/

/-- **The end of an upload.**  Let the request be submitted with its data provider, whatever was
written before, and let `relay_write_body`, `relay_complete_request` and nghttp2's sends follow in any
order, with `relay_complete_request` never called while the provider is deferred with nothing left to
send.  Then in every state a request whose end is due is not deferred, and its end is sent. -/
theorem wp_run_endIsSent {header : Header} (hurl : header.url.isSome = true)
    (hprov : requestHasProvider header = true) (isRequestComplete : Bool) (bufs : List Bytes)
    (pulls : List (StreamId × ℕ)) (acts : List UploadAct)
    (hG : Meets uploadStep (fun w a => completesInTime w a = true) acts
      (submittedUpload header isRequestComplete bufs pulls)) :
    wp (run uploadStep acts) (fun _ => EndIsSent) (fun e w => e = .assertFailed ∧ EndIsSent w)
      (submittedUpload header isRequestComplete bufs pulls) := by
  have hstart : Between (submittedUpload header isRequestComplete bufs pulls) := by
    apply finalState_of_wp
    exact wp_mono (submit_spec hurl hprov isRequestComplete bufs pulls) (fun _ _ => id)
      (fun _ _ => False.elim)
  refine wp_mono (run_wp (fun w a h hG => h.step hG) acts _ hstart hG) ?_ ?_
  · exact fun _ _ => Between.endIsSent
  · exact fun _ _ h => ⟨h.1, h.2.endIsSent⟩

/-- A `POST` request. -/
def postHeader : Header := { method := bytes "POST", url := some (bytes "/") }

/-- A body of two bytes is written and sent, and nghttp2 asks for more before the request is
complete; it is deferred until the last byte is written. -/
theorem wp_run_endIsSent_post :
    Meets uploadStep (fun w a => completesInTime w a = true)
      [.writeBody (bytes "ab") [(1, 100), (1, 100)], .writeBody (bytes "c") [], .completeRequest]
      (submittedUpload postHeader false [] [(1, 100)]) ∧
    wp (run uploadStep
      [.writeBody (bytes "ab") [(1, 100), (1, 100)], .writeBody (bytes "c") [], .completeRequest])
      (fun _ => EndIsSent) (fun e w => e = .assertFailed ∧ EndIsSent w)
      (submittedUpload postHeader false [] [(1, 100)]) :=
  ⟨by decide +kernel, wp_run_endIsSent rfl (by decide +kernel) _ _ _ _ (by decide +kernel)⟩

/-- The condition is needed: a body that was sent before the request is complete is never ended. -/
theorem not_endIsSent : ¬ ∀ (header : Header), header.url.isSome = true →
    requestHasProvider header = true → ∀ acts : List UploadAct,
    wp (run uploadStep acts) (fun _ => EndIsSent) (fun e w => e = .assertFailed ∧ EndIsSent w)
      (submittedUpload header false [] []) := by
  intro h
  have h1 := h postHeader rfl (by decide +kernel)
    [.writeBody (bytes "ab") [(1, 100), (1, 100)], .completeRequest]
  have h2 : wp (run uploadStep [.writeBody (bytes "ab") [(1, 100), (1, 100)], .completeRequest])
      (fun _ w => endDue w = true → (uploadStream w).any Stream.deferred = false)
      (fun e _ => e = .assertFailed) (submittedUpload postHeader false [] []) :=
    wp_mono h1 (fun _ _ h hdue => (h hdue).1) (fun _ _ h => h.1)
  revert h2
  decide +kernel

end H2ClientProxy
