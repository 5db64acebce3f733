import H2ClientProxy.Client
import H2ClientProxy.Equiv.Relay
import Mathlib.Logic.Relation

/-!
# The handlers of `client.c`

One specification for each handler that the relay or the socket calls.  A handler that writes to
the client leaves its control state alone (`Writes`, `Written`); a handler that ends a response
leaves the client dropped, idle or at its next request (`Next`).  `ClientFault` says which faults a
handler of a client can end in: a `NULL` relay only if the client has none, a freed relay only if
the client's relay has been freed or a stream points to a freed one.  Only the handlers of the
socket events use the session of the client's relay (`SocketFault`).
-/

namespace H2ClientProxy

open Wp SendQueue

variable {D : StreamId → Prop} {w w' : World}

/-- The faults of a handler of the client `c`. -/
def ClientFault (w : World) (c : ClientId) : Fault → Prop
  | .nullRelay _ => ∃ cl, w.clients c = some cl ∧ cl.relay = none
  | .nullRelaySys => ∃ cl, w.clients c = some cl ∧ cl.relaySys = false
  | .relayFreed _ => ∃ cl r, w.clients c = some cl ∧ cl.relay = some r ∧
      (w.relays r = none ∨ ∃ rel, w.relays r = some rel ∧ rel.session = true ∧ ¬ StreamsOk w)
  | .nullSession => False
  | _ => True

/-- The relay of the client `c` has no session, or sending uses one that is `NULL`. -/
def NoSession (w : World) (c : ClientId) : Prop :=
  ∃ cl r rel, w.clients c = some cl ∧ cl.relay = some r ∧ w.relays r = some rel ∧
    (rel.session = false ∨ ¬ SessionsOk w)

/-- The faults of a handler of the client `c` that uses the session. -/
def SocketFault (w : World) (c : ClientId) (e : Fault) : Prop :=
  ClientFault w c e ∨ e = .nullSession ∧ NoSession w c

/-- A fault of an operation on the client's own relay. -/
theorem RelayFault.socketFault {c : ClientId} {cl : Client} {r : RelayId} {e : Fault}
    (h : RelayFault w r e) (hc : w.clients c = some cl) (hr : cl.relay = some r) :
    SocketFault w c e := by
  cases e with
  | relayFreed r' =>
    refine Or.inl ⟨cl, r, hc, hr, ?_⟩
    rcases h with ⟨_, h⟩ | ⟨hs, rel, hrel, hsess⟩
    · exact Or.inl h
    · exact Or.inr ⟨rel, hrel, hsess, hs⟩
  | nullSession =>
    obtain ⟨rel, hrel, hs⟩ := h
    exact Or.inr ⟨rfl, cl, r, rel, hc, hr, hrel, hs⟩
  | assertFailed => exact Or.inl trivial
  | _ => exact h.elim

@[simp]
theorem wp_clientRelay (cl : Client) (op : RelayOp) {Q : RelayId → World → Prop}
    {E : Fault → World → Prop} :
    wp (clientRelay cl op) Q E = fun w =>
      if cl.relaySys then
        match cl.relay with
        | some r => Q r w
        | none => E (.nullRelay op) w
      else E .nullRelaySys w := by
  unfold clientRelay
  cases cl.relaySys <;> cases cl.relay <;> rfl

/-- The client and the relay that a handler of `c` begins with. -/
theorem clientRelay_spec {c : ClientId} {cl : Client} (op : RelayOp) (hc : w.clients c = some cl) :
    wp (clientRelay cl op) (fun r w' => w' = w ∧ cl.relaySys = true ∧ cl.relay = some r)
      (fun e w' => w' = w ∧ ClientFault w c e) w := by
  rw [wp_clientRelay]
  dsimp only
  split_ifs with hs
  · cases hr : cl.relay with
    | some r => exact ⟨rfl, hs, rfl⟩
    | none => exact ⟨rfl, cl, hc, hr⟩
  · exact ⟨rfl, cl, hc, by simpa using hs⟩

/-! ### Writing to the client -/

/-- One call of `client_write`, on the client and the answers of `send()`. -/
def Write1 (p p' : Client × List SendResult) : Prop :=
  ∃ data, p' = ((writeClient p.1 p.2 data).client, (writeClient p.1 p.2 data).sends)

/-- Any number of calls of `client_write`. -/
abbrev Writes := Relation.ReflTransGen Write1

theorem writeClient_ctl (cl : Client) (sends : List SendResult) (data : Bytes) :
    CtlKept cl (writeClient cl sends data).client := by
  unfold writeClient
  dsimp only
  split_ifs
  · split
    · split_ifs <;> exact ⟨rfl, rfl, rfl, rfl, rfl, rfl, rfl⟩
    · split_ifs <;> exact ⟨rfl, rfl, rfl, rfl, rfl, rfl, rfl⟩
  · exact ⟨rfl, rfl, rfl, rfl, rfl, rfl, rfl⟩

/-- Writing keeps the control state of a client. -/
theorem Writes.ctl {p p' : Client × List SendResult} (h : Writes p p') : CtlKept p.1 p'.1 := by
  induction h with
  | refl => exact Std.Refl.refl _
  | tail _ h ih =>
    obtain ⟨data, rfl⟩ := h
    exact IsTrans.trans _ _ _ ih (writeClient_ctl _ _ data)

/-- The world after a call of `client_write`. -/
def wroteTo (w : World) (c : ClientId) (cl : Client) (data : Bytes) : World :=
  (w.setSends (writeClient cl w.sends data).sends).setClient c
    (some (writeClient cl w.sends data).client)

@[simp]
theorem wp_clientWrite (c : ClientId) (data : Bytes) {Q : ℤ → World → Prop}
    {E : Fault → World → Prop} :
    wp (clientWrite c data) Q E = fun w =>
      match w.clients c with
      | some cl => Q (writeClient cl w.sends data).ret (wroteTo w c cl data)
      | none => E (.clientFreed c) w := by
  funext w
  simp only [clientWrite, wp_bind, wp_getClient, wp_get, wp_modify, wp_putClient, wp_pure]
  cases w.clients c <;> rfl

/-- The world after some calls of `client_write` for the client `c`. -/
def Written (c : ClientId) (cl cl' : Client) (w w' : World) : Prop :=
  ∃ sends, w.clients c = some cl ∧ Writes (cl, w.sends) (cl', sends) ∧
    w' = (w.setSends sends).setClient c (some cl')

theorem written_wroteTo {c : ClientId} {cl : Client} (hc : w.clients c = some cl) (data : Bytes) :
    Written c cl (writeClient cl w.sends data).client w (wroteTo w c cl data) :=
  ⟨_, hc, .single ⟨data, rfl⟩, rfl⟩

/-- The client after the calls. -/
theorem Written.clients_self {c : ClientId} {cl cl' : Client} (h : Written c cl cl' w w') :
    w'.clients c = some cl' := by
  obtain ⟨sends, _, _, rfl⟩ := h
  exact Function.update_self ..

theorem Written.trans {c : ClientId} {cl cl1 cl2 : Client} {w1 w2 : World}
    (h : Written c cl cl1 w w1) (h' : Written c cl1 cl2 w1 w2) : Written c cl cl2 w w2 := by
  obtain ⟨s1, hc, hw, rfl⟩ := h
  obtain ⟨s2, _, hw', rfl⟩ := h'
  refine ⟨s2, hc, hw.trans hw', ?_⟩
  simp only [World.setClient, World.setSends, Function.update_idem]

theorem Written.ctl {c : ClientId} {cl cl' : Client} (h : Written c cl cl' w w') :
    CtlKept cl cl' := by
  obtain ⟨_, _, hw, _⟩ := h
  exact hw.ctl

theorem Written.relays {c : ClientId} {cl cl' : Client} (h : Written c cl cl' w w') :
    w'.relays = w.relays := by
  obtain ⟨_, _, _, rfl⟩ := h
  rfl

/-- Writing is quiet. -/
theorem Written.quiet {c : ClientId} {cl cl' : Client} (h : Written c cl cl' w w') :
    Quiet D w w' := by
  obtain ⟨sends, hc, hw, rfl⟩ := h
  have h1 : Quiet D w (w.setSends sends) := effect_setSends sends
  exact h1.trans (effect_setClient hc hw.ctl)

/-! ### The events of the relay -/

/-- `client_handle_relay_hdr_complete` writes the head of the response as one block. -/
theorem clientHandleRelayHdrComplete_spec (c : ClientId) :
    wp (clientHandleRelayHdrComplete c)
      (fun _ w' => ∃ cl r rel data, w.clients c = some cl ∧ cl.relay = some r ∧
        w.relays r = some rel ∧ responseHead rel.responseHeader = some data ∧
        w' = wroteTo w c cl data)
      (fun e w' => w' = w ∧ ClientFault w c e) w := by
  simp only [clientHandleRelayHdrComplete, wp_bind, wp_getClient]
  cases hc : w.clients c with
  | none => exact ⟨trivial, trivial⟩
  | some cl =>
    refine wp_mono (clientRelay_spec _ hc) ?_ (fun _ _ => id)
    rintro r w ⟨rfl, _, hr⟩
    simp only [relayGetHeader, wp_bind, wp_getRelay, wp_pure, wp_ite, wp_throw]
    cases hrel : w.relays r with
    | none => exact ⟨trivial, cl, r, hc, hr, Or.inl hrel⟩
    | some rel =>
      dsimp only
      split_ifs
      · exact ⟨trivial, trivial⟩
      · cases hb : responseHead rel.responseHeader with
        | none => exact ⟨rfl, trivial⟩
        | some buf =>
          simp only [wp_bind, wp_clientWrite, hc, wp_pure]
          exact ⟨cl, r, rel, buf, rfl, hr, hrel, hb, rfl⟩

/-- What `client_handle_relay_body` leaves: the chunk is written, and the relay is suspended when
more than 30000 bytes are queued then. -/
def BodyDone (c : ClientId) (w w' : World) : Prop :=
  ∃ cl r rel cl1 w1, cl.relay = some r ∧ w.relays r = some rel ∧ Written c cl cl1 w w1 ∧
    ((30000 < cl1.pendingWrite ∧ w' = w1.setRelay r { rel with isResponseReadSuspend := true }) ∨
      (cl1.pendingWrite ≤ 30000 ∧ w' = w1))

/-- The end of `client_handle_relay_body`, once the chunk has been written. -/
theorem suspend_spec {c : ClientId} {cl cl1 : Client} {r : RelayId} {rel : Relay} {w1 : World}
    {E : Fault → World → Prop} (hw : Written c cl cl1 w w1) (hsys : cl.relaySys = true)
    (hr : cl.relay = some r) (hrel : w.relays r = some rel) :
    wp (do
        let cl ← getClient c
        if cl.pendingWrite > 30000 then
          let r ← clientRelay cl .suspendRead
          relaySuspendRead r
        else pure ())
      (fun _ => BodyDone c w) E w1 := by
  have hr1 : cl1.relay = some r := hw.ctl.relay.trans hr
  have hsys1 : cl1.relaySys = true := hw.ctl.relaySys.trans hsys
  simp only [wp_bind, wp_getClient, hw.clients_self, wp_ite, wp_clientRelay, hsys1, hr1,
    relaySuspendRead, writeRelay, wp_get, hw.relays, hrel, wp_putRelay, wp_pure, if_true]
  split_ifs with hp
  · exact ⟨cl, r, rel, cl1, w1, hr, hrel, hw, Or.inl ⟨hp, rfl⟩⟩
  · exact ⟨cl, r, rel, cl1, w1, hr, hrel, hw, Or.inr ⟨not_lt.mp hp, rfl⟩⟩

/-- `client_handle_relay_body`. -/
theorem clientHandleRelayBody_spec (c : ClientId) :
    wp (clientHandleRelayBody c) (fun _ => BodyDone c w)
      (fun e w' => w' = w ∧ ClientFault w c e) w := by
  simp only [clientHandleRelayBody, wp_bind, wp_getClient]
  cases hc : w.clients c with
  | none => exact ⟨trivial, trivial⟩
  | some cl =>
    refine wp_mono (clientRelay_spec _ hc) ?_ (fun _ _ => id)
    rintro r w ⟨rfl, hsys, hr⟩
    simp only [relayGetHeader, relayGetBody, wp_bind, wp_getRelay, wp_pure]
    cases hrel : w.relays r with
    | none => exact ⟨trivial, cl, r, hc, hr, Or.inl hrel⟩
    | some rel =>
      dsimp only
      rw [wp_ite]
      dsimp only
      split_ifs
      · have h1 := written_wroteTo hc (chunkSizeLine rel.bodyData.length)
        have h2 := h1.trans (written_wroteTo h1.clients_self rel.bodyData)
        have h3 := h2.trans (written_wroteTo h2.clients_self crlf)
        simpa only [wp_bind, wp_clientWrite, hc, h1.clients_self, h2.clients_self]
          using suspend_spec h3 hsys hr hrel
      · have h1 := written_wroteTo hc rel.bodyData
        simpa only [wp_bind, wp_clientWrite, hc] using suspend_spec h1 hsys hr hrel

/-- The last chunk of a chunked response. -/
def lastChunk : Bytes := bytes "0" ++ crlf ++ crlf

/-- The response has a length the client can know, so that the connection is kept after it. -/
def keepsClient (hdr : Header) : Bool :=
  (headerValue hdr (bytes "Transfer-Encoding")).isSome ||
    (headerValue hdr (bytes "Content-Length")).isSome

/-- The client `c` leaves its relay: it is idle, or goes on with the pending request. -/
inductive Next (c : ClientId) (w : World) : World → Prop
  | idle {cl : Client} : w.clients c = some cl → cl.pendingRequestHeader = none →
      Next c w (w.setClient c (some { cl with relay := none, requestHeader := none }))
  | next {cl : Client} {h : Header} : w.clients c = some cl → cl.pendingRequestHeader = some h →
      Next c w (((w.addRelay { session := w.sSession, args := c }).log
        (.create w.nextRelay c h.id)).setClient c
          (some { cl with
            relay := some w.nextRelay, requestHeader := some h, pendingRequestHeader := none }))

/-- What `client_handle_relay_msg_complete` leaves: the last chunk of a chunked response has been
written, and then the client is dropped or leaves its relay. -/
def MsgDone (c : ClientId) (w w' : World) : Prop :=
  ∃ cl r rel w1, w.clients c = some cl ∧ cl.relay = some r ∧ w.relays r = some rel ∧
    ((isChunked rel.responseHeader = false ∧ w1 = w) ∨
      (isChunked rel.responseHeader = true ∧ w1 = wroteTo w c cl lastChunk)) ∧
    ((keepsClient rel.responseHeader = false ∧ w' = w.setClient c none) ∨
      (keepsClient rel.responseHeader = true ∧ Next c w1 w'))

/-- A chunked response keeps its client. -/
theorem keepsClient_of_isChunked {hdr : Header} (h : isChunked hdr = true) :
    keepsClient hdr = true := by
  unfold isChunked at h
  unfold keepsClient
  cases hte : headerValue hdr (bytes "Transfer-Encoding") with
  | none => simp only [hte, Bool.false_eq_true] at h
  | some te => rfl

/-- The end of `client_handle_relay_msg_complete`. -/
theorem leaveRelay_spec {c : ClientId} {cl : Client} (hdr : Header) (hc : w.clients c = some cl) :
    wp (do
        let cl ← getClient c
        putClient c { cl with relay := none }
        if (headerValue hdr (bytes "Transfer-Encoding")).isNone
            && (headerValue hdr (bytes "Content-Length")).isNone then clientDrop c
        else nextRequest c)
      (fun _ w' => (keepsClient hdr = false ∧ w' = w.setClient c none) ∨
        (keepsClient hdr = true ∧ Next c w w'))
      (fun e w' => w'.trace = w.trace ∧ e = .nullHeader) w := by
  have hkeep : ((headerValue hdr (bytes "Transfer-Encoding")).isNone
      && (headerValue hdr (bytes "Content-Length")).isNone) = !keepsClient hdr := by
    unfold keepsClient
    rw [Bool.not_or, Option.not_isSome, Option.not_isSome]
  simp only [wp_bind, wp_getClient, hc, wp_putClient, wp_ite, hkeep]
  cases hk : keepsClient hdr with
  | false =>
    simp only [Bool.not_false, if_true, clientDrop, wp_bind, wp_getClient, World.setClient_clients,
      Function.update_self, Option.isSome_none, Bool.false_eq_true, if_false, wp_modify]
    refine Or.inl ⟨trivial, ?_⟩
    simp only [World.setClient, Function.update_idem, Function.update_self, hc]
    rfl
  | true =>
    simp only [Bool.not_true, Bool.false_eq_true, if_false, nextRequest, wp_bind, wp_getClient,
      World.setClient_clients, Function.update_self]
    cases hp : cl.pendingRequestHeader with
    | none =>
      refine Or.inr ⟨trivial, ?_⟩
      convert Next.idle hc hp using 1
      simp only [World.setClient, Function.update_idem, hp]
    | some h =>
      simp only [createRelay, wp_bind, wp_ite, wp_throw, relayCreate, wp_get, wp_modify, wp_pure,
        wp_note, wp_putClient]
      split_ifs with hurl
      · exact ⟨rfl, trivial⟩
      · refine Or.inr ⟨trivial, ?_⟩
        convert Next.next hc hp using 1
        simp only [World.setClient, World.addRelay, World.log, Function.update_idem]

theorem leaveRelay_msgDone {c : ClientId} {cl : Client} {r : RelayId} {rel : Relay} {w1 : World}
    (hc : w.clients c = some cl) (hr : cl.relay = some r) (hrel : w.relays r = some rel)
    (h1 : w1 = if isChunked rel.responseHeader then wroteTo w c cl lastChunk else w) :
    wp (do
        let cl ← getClient c
        putClient c { cl with relay := none }
        if (headerValue rel.responseHeader (bytes "Transfer-Encoding")).isNone
            && (headerValue rel.responseHeader (bytes "Content-Length")).isNone then clientDrop c
        else nextRequest c)
      (fun _ => MsgDone c w) (fun e w' => w'.trace = w.trace ∧ ClientFault w c e) w1 := by
  obtain ⟨cl1, hc1, ht⟩ : ∃ cl1, w1.clients c = some cl1 ∧ w1.trace = w.trace := by
    split_ifs at h1 <;> subst h1
    · exact ⟨_, (written_wroteTo hc lastChunk).clients_self, rfl⟩
    · exact ⟨cl, hc, rfl⟩
  refine wp_mono (leaveRelay_spec rel.responseHeader hc1) ?_ ?_
  · rintro _ w' (⟨hk, rfl⟩ | ⟨hk, hn⟩)
    · -- a response that drops its client is not chunked
      have hch : isChunked rel.responseHeader = false := by
        by_contra hch
        rw [keepsClient_of_isChunked (Bool.eq_true_of_not_eq_false hch)] at hk
        exact absurd hk (by simp)
      rw [hch, if_neg Bool.false_ne_true] at h1
      exact ⟨cl, r, rel, w1, hc, hr, hrel, Or.inl ⟨hch, h1⟩, Or.inl ⟨hk, by rw [h1]⟩⟩
    · refine ⟨cl, r, rel, w1, hc, hr, hrel, ?_, Or.inr ⟨hk, hn⟩⟩
      split_ifs at h1 with hch
      · exact Or.inr ⟨hch, h1⟩
      · exact Or.inl ⟨Bool.eq_false_of_not_eq_true hch, h1⟩
  · rintro e w' ⟨ht', rfl⟩
    exact ⟨ht'.trans ht, trivial⟩

/-- `client_handle_relay_msg_complete`. -/
theorem clientHandleRelayMsgComplete_spec (c : ClientId) :
    wp (clientHandleRelayMsgComplete c) (fun _ => MsgDone c w)
      (fun e w' => w'.trace = w.trace ∧ ClientFault w c e) w := by
  simp only [clientHandleRelayMsgComplete, wp_bind, wp_getClient]
  cases hc : w.clients c with
  | none => exact ⟨trivial, trivial⟩
  | some cl =>
    refine wp_mono (clientRelay_spec _ hc) ?_ (fun _ _ h => ⟨by rw [h.1], h.2⟩)
    rintro r w ⟨rfl, hsys, hr⟩
    simp only [relayGetHeader, wp_bind, wp_getRelay, wp_pure]
    cases hrel : w.relays r with
    | none => exact ⟨trivial, cl, r, hc, hr, Or.inl hrel⟩
    | some rel =>
      by_cases hch : isChunked rel.responseHeader = true
      · have h1 := leaveRelay_msgDone hc hr hrel rfl
        simp only [hch, if_true, wp_bind, wp_clientWrite, hc] at h1 ⊢
        exact h1
      · have h1 := leaveRelay_msgDone hc hr hrel rfl
        simp only [hch, Bool.false_eq_true, if_false, wp_bind] at h1 ⊢
        exact h1

/-- The error events drop the client without closing its relay. -/
theorem clientHandleRelayErr_spec (c : ClientId) :
    wp (clientHandleRelayErr c) (fun _ w' => w.clients c ≠ none ∧ w' = w.setClient c none)
      (fun e w' => w' = w ∧ e = .clientFreed c) w := by
  simp only [clientHandleRelayErr, wp_bind, wp_getClient, wp_putClient, clientDrop,
    World.setClient_clients, Function.update_self, Option.isSome_none, wp_ite, wp_modify,
    Bool.false_eq_true, if_false]
  cases hc : w.clients c with
  | none => exact ⟨trivial, trivial⟩
  | some cl =>
    refine ⟨by simp, ?_⟩
    simp only [World.setClient, Function.update_idem, Function.update_self, hc]
    rfl

/-! ### The relay is connected -/

/-- The bytes that came before the relay was connected are written, one buffer after the other. -/
inductive BodiesWritten (c : ClientId) (r : RelayId) : List BodyBuffer → World → World → Prop
  | nil {w : World} : BodiesWritten c r [] w w
  | cons {b : BodyBuffer} {bs : List BodyBuffer} {w w1 w' : World} :
      Sent (· ∈ w.closeOnSend) (w.log (.writeBody r c b.req b.data)) w1 →
      BodiesWritten c r bs w1 w' → BodiesWritten c r (b :: bs) w w'

theorem writeBodies_spec (c : ClientId) (r : RelayId) (bs : List BodyBuffer) :
    wp (writeBodies c r bs) (fun _ => BodiesWritten c r bs w)
      (fun e w' => ∃ written b rest w1, bs = written ++ b :: rest ∧
        BodiesWritten c r written w w1 ∧ w'.trace = w1.trace ++ [.writeBody r c b.req b.data] ∧
        RelayFault w1 r e) w := by
  induction bs generalizing w with
  | nil => exact .nil
  | cons b bs ih =>
    simp only [writeBodies, wp_bind, wp_note]
    refine wp_mono (relayWriteBody_spec r b.data) ?_ ?_
    · intro _ w1 h1
      refine wp_mono ih (fun _ w2 h2 => .cons h1 h2) ?_
      rintro e w' ⟨written, b', rest, w2, rfl, h2, ht, he⟩
      exact ⟨b :: written, b', rest, w2, rfl, .cons h1 h2, ht, he⟩
    · rintro e w1 ⟨h1, he⟩
      exact ⟨[], b, bs, w, rfl, .nil, h1.trace, he⟩

/-- The world in which `client_handle_relay_connected` submits the request. -/
def connecting (w : World) (c : ClientId) (cl : Client) (r : RelayId) (h : Header) : World :=
  (w.setClient c (some { cl with
    file := epFileDetect cl.file EP_READ (-1), listRequestBodyBuffer := [] })).log
      (.sendRequest r c h.id)

/-- The client `c` submits its request to its relay `r`. -/
structure Submits (c : ClientId) (cl : Client) (r : RelayId) (h : Header) (rel : Relay)
    (w w' : World) : Prop where
  client : w.clients c = some cl
  current : cl.relay = some r
  header : cl.requestHeader = some h
  relay : w.relays r = some rel
  sSession : w.sSession = true
  sent : ∃ w1, Sent (· ∈ (submitted (connecting w c cl r h) r rel h).closeOnSend)
      (submitted (connecting w c cl r h) r rel h) w1 ∧
    Wrote r (fun rel => { rel with relayStatus := .requestSent }) w1 w'

/-- Where `client_handle_relay_connected` can fault: before it does anything, while it submits, or
while it writes the body bytes. -/
inductive ConnectFault (c : ClientId) (w : World) (e : Fault) (w' : World) : Prop
  | early (ht : w'.trace = w.trace) (he : e = .clientFreed c ∨ e = .assertFailed ∨ e = .nullHeader)
  | submit {cl : Client} {r : RelayId} {h : Header} (hc : w.clients c = some cl)
      (hr : cl.relay = some r) (hh : cl.requestHeader = some h)
      (ht : w'.trace = w.trace ++ [.sendRequest r c h.id])
      (he : SubmitFault (connecting w c cl r h) r (some h) e)
  | bodies {cl : Client} {r : RelayId} {h : Header} {rel : Relay} {w1 w2 : World}
      {written rest : List BodyBuffer} {b : BodyBuffer} (hs : Submits c cl r h rel w w1)
      (hb : cl.listRequestBodyBuffer = written ++ b :: rest)
      (hw : BodiesWritten c r written w1 w2)
      (ht : w'.trace = w2.trace ++ [.writeBody r c b.req b.data]) (he : RelayFault w2 r e)

/-- `client_handle_relay_connected`. -/
theorem clientHandleRelayConnected_spec (c : ClientId) :
    wp (clientHandleRelayConnected c)
      (fun _ w' => ∃ cl r h rel w1, Submits c cl r h rel w w1 ∧
        BodiesWritten c r cl.listRequestBodyBuffer w1 w')
      (ConnectFault c w) w := by
  simp only [clientHandleRelayConnected, wp_bind, wp_getClient]
  cases hc : w.clients c with
  | none => exact .early rfl (Or.inl rfl)
  | some cl =>
    dsimp only
    cases hr : cl.relay with
    | none => exact .early rfl (Or.inr (Or.inl rfl))
    | some r =>
      simp only [wp_bind, wp_putClient]
      cases hh : cl.requestHeader with
      | none => exact .early rfl (Or.inr (Or.inr rfl))
      | some h =>
        suffices hgoal : wp (relaySendRequest r (some h)) (fun _ =>
            wp (writeBodies c r cl.listRequestBodyBuffer) (fun _ w' => ∃ cl r h rel w1,
              Submits c cl r h rel w w1 ∧ BodiesWritten c r cl.listRequestBodyBuffer w1 w')
              (ConnectFault c w)) (ConnectFault c w) (connecting w c cl r h) by
          simpa only [wp_bind, wp_note, connecting, hr, hh] using hgoal
        refine wp_mono (relaySendRequest_spec r (some h)) ?_ ?_
        · rintro _ w1 ⟨h', rel, w0, hh', hrel, hs, h0, h1⟩
          obtain rfl := Option.some.inj hh'
          have hsub : Submits c cl r h rel w w1 := ⟨hc, hr, hh, hrel, hs, w0, h0, h1⟩
          refine wp_mono (writeBodies_spec c r _) (fun _ w2 h2 => ⟨cl, r, h, rel, w1, hsub, h2⟩) ?_
          rintro e w' ⟨written, b, rest, w2, hb, h2, ht, he⟩
          exact .bodies hsub hb h2 ht he
        · exact fun e w1 he => .submit hc hr hh he.1 he.2

/-! ### The socket events -/

/-- What `client_drop` leaves of a world: the client is gone, and its relay has been closed. -/
def Dropped (c : ClientId) (w w' : World) : Prop :=
  ∃ cl, w.clients c = some cl ∧
    ((cl.relay = none ∧ w' = w.setClient c none) ∨
      ∃ r rel w1 w2, cl.relay = some r ∧ w.relays r = some rel ∧
        Sent (fun s => s ∈ w.closeOnSend ∨ s = rel.streamId) (w.log (.close r)) w1 ∧
        Wrote r (fun rel => { rel with isAttached := false }) w1 w2 ∧ w' = w2.setClient c none)

/-- The trace at a fault: at most the closing of a relay has been noted. -/
def FaultTrace (w w' : World) : Prop :=
  w'.trace = w.trace ∨ ∃ r, w'.trace = w.trace ++ [.close r]

/-- `client_drop`; it asks whether there is a relay before it closes it. -/
theorem clientDrop_spec (c : ClientId) :
    wp (clientDrop c) (fun _ => Dropped c w)
      (fun e w' => FaultTrace w w' ∧ SocketFault w c e ∧ (∀ op, e ≠ .nullRelay op) ∧
        (e = .nullRelaySys → ∃ cl, w.clients c = some cl ∧ cl.relay ≠ none ∧ cl.relaySys = false))
      w := by
  simp only [clientDrop, wp_bind, wp_getClient, wp_ite, wp_modify]
  cases hc : w.clients c with
  | none => exact ⟨Or.inl rfl, Or.inl trivial, by simp, by simp⟩
  | some cl =>
    -- `relay_close` is called through `client->relay_sys`, which is not checked
    dsimp only
    split_ifs with hsome
    · refine wp_mono (clientRelay_spec _ hc) ?_ ?_
      · rintro r w ⟨rfl, hsys, hr⟩
        cases hrel : w.relays r with
        | none =>
          simp only [relayClose, wp_bind, wp_note, wp_getRelay, World.log_relays, hrel]
          exact ⟨Or.inr ⟨r, rfl⟩, Or.inl ⟨cl, r, hc, hr, Or.inl hrel⟩, by simp, by simp⟩
        | some rel =>
          refine wp_mono (relayClose_spec hrel) ?_ ?_
          · rintro _ w2 ⟨w1, h1, h2⟩
            exact ⟨cl, hc, Or.inr ⟨r, rel, w1, w2, hr, hrel, h1, h2, rfl⟩⟩
          · rintro e w2 ⟨ht, he⟩
            refine ⟨Or.inr ⟨r, ht⟩, he.socketFault hc hr, ?_, ?_⟩
            · rintro op rfl
              exact he
            · rintro rfl
              exact he.elim
      · rintro e w' ⟨rfl, he⟩
        refine ⟨Or.inl rfl, Or.inl he, ?_, ?_⟩
        · rintro op rfl
          obtain ⟨cl', hc', hr'⟩ := he
          rw [hc] at hc'
          obtain rfl := Option.some.inj hc'
          rw [hr'] at hsome
          exact absurd hsome (by simp)
        · rintro rfl
          obtain ⟨cl', hc', hsys⟩ := he
          rw [hc] at hc'
          obtain rfl := Option.some.inj hc'
          refine ⟨cl, rfl, fun hnone => ?_, hsys⟩
          rw [hnone] at hsome
          exact absurd hsome (by simp)
    · rw [Option.not_isSome_iff_eq_none] at hsome
      exact ⟨cl, hc, Or.inl ⟨hsome, rfl⟩⟩

/-- A change of the client that keeps its control state makes no new faults. -/
theorem SocketFault.of_setClient {c : ClientId} {cl cl' : Client} {sends : List SendResult}
    {e : Fault} (hc : w.clients c = some cl) (hk : CtlKept cl cl')
    (h : SocketFault ((w.setSends sends).setClient c (some cl')) c e) : SocketFault w c e := by
  have hself : ((w.setSends sends).setClient c (some cl')).clients c = some cl' :=
    Function.update_self ..
  rcases h with h | ⟨rfl, cl1, r, rel, h1, hr, hrel, hs⟩
  · refine Or.inl ?_
    cases e with
    | nullRelay op =>
      obtain ⟨cl1, h1, hr⟩ := h
      rw [hself] at h1
      obtain rfl := Option.some.inj h1
      exact ⟨cl, hc, hk.relay ▸ hr⟩
    | nullRelaySys =>
      obtain ⟨cl1, h1, hr⟩ := h
      rw [hself] at h1
      obtain rfl := Option.some.inj h1
      exact ⟨cl, hc, hk.relaySys ▸ hr⟩
    | relayFreed r' =>
      obtain ⟨cl1, r, h1, hr, hf⟩ := h
      rw [hself] at h1
      obtain rfl := Option.some.inj h1
      exact ⟨cl, r, hc, hk.relay ▸ hr, hf⟩
    | nullSession => exact h.elim
    | _ => trivial
  · rw [hself] at h1
    obtain rfl := Option.some.inj h1
    exact Or.inr ⟨rfl, cl, r, rel, hc, hk.relay ▸ hr, hrel, hs⟩

theorem drainedClient_ctl (cl : Client) (out : DrainOut) : CtlKept cl (drainedClient cl out) :=
  ⟨rfl, rfl, rfl, rfl, rfl, rfl, rfl⟩

theorem afterDrain_ctl (cl : Client) (out : DrainOut) : CtlKept cl (afterDrain cl out) := by
  unfold afterDrain
  split_ifs <;> exact ⟨rfl, rfl, rfl, rfl, rfl, rfl, rfl⟩

/-- What `client_writecb` leaves.  With `out` the outcome of its loop: the client is dropped after a
fatal error; otherwise the relay is resumed when less than 30000 bytes are left. -/
inductive WritableDone (c : ClientId) (w w' : World) : Prop
  | empty {cl : Client} {r : RelayId} (hc : w.clients c = some cl)
      (hq : cl.listResponseWriteBuffer = []) (hr : cl.relay = some r) (hres : Resumed r w w')
  | error {cl : Client} {out : DrainOut} (hc : w.clients c = some cl)
      (hq : cl.listResponseWriteBuffer ≠ [])
      (hout : out = drain cl.listResponseWriteBuffer w.sends) (herr : out.isError = true)
      (hdrop : Dropped c ((w.setSends out.sends).setClient c (some (drainedClient cl out))) w')
  | full {cl : Client} {out : DrainOut} (hc : w.clients c = some cl)
      (hq : cl.listResponseWriteBuffer ≠ [])
      (hout : out = drain cl.listResponseWriteBuffer w.sends) (herr : out.isError = false)
      (hlen : 30000 ≤ (afterDrain cl out).pendingWrite)
      (hw : w' = (w.setSends out.sends).setClient c (some (afterDrain cl out)))
  | resumed {cl : Client} {out : DrainOut} {r : RelayId} (hc : w.clients c = some cl)
      (hq : cl.listResponseWriteBuffer ≠ [])
      (hout : out = drain cl.listResponseWriteBuffer w.sends) (herr : out.isError = false)
      (hlen : (afterDrain cl out).pendingWrite < 30000) (hr : cl.relay = some r)
      (hres : Resumed r ((w.setSends out.sends).setClient c (some (afterDrain cl out))) w')

/-- `client_writecb`. -/
theorem clientWritecb_spec (c : ClientId) :
    wp (clientWritecb c) (fun _ => WritableDone c w)
      (fun e w' => FaultTrace w w' ∧ SocketFault w c e) w := by
  simp only [clientWritecb, wp_bind, wp_getClient, wp_ite, wp_throw, wp_get, wp_modify,
    wp_putClient, wp_pure]
  cases hc : w.clients c with
  | none => exact ⟨Or.inl rfl, Or.inl trivial⟩
  | some cl =>
    dsimp only
    split_ifs with hmask hq herr hlen
    · exact ⟨Or.inl rfl, Or.inl trivial⟩
    · rw [List.isEmpty_iff] at hq
      refine wp_mono (clientRelay_spec _ hc) ?_ (fun _ _ h => ⟨Or.inl (by rw [h.1]), Or.inl h.2⟩)
      rintro r w ⟨rfl, _, hr⟩
      refine wp_mono (relayResumeRead_spec r) (fun _ w' h => .empty hc hq hr h) ?_
      exact fun e w' h => ⟨Or.inl h.1, h.2.socketFault hc hr⟩
    · rw [List.isEmpty_iff] at hq
      refine wp_mono (clientDrop_spec c) (fun _ w' h => .error hc hq rfl herr h) ?_
      exact fun e w' h => ⟨h.1, h.2.1.of_setClient hc (drainedClient_ctl _ _)⟩
    · rw [List.isEmpty_iff] at hq
      rw [Bool.not_eq_true] at herr
      refine wp_mono (clientRelay_spec _ (Function.update_self ..)) ?_ ?_
      · rintro r w1 ⟨rfl, _, hr⟩
        have hr' : cl.relay = some r := (afterDrain_ctl _ _).relay ▸ hr
        refine wp_mono (relayResumeRead_spec r)
          (fun _ w' h => .resumed hc hq rfl herr hlen hr' h) ?_
        intro e w' h
        have he := h.2.socketFault (c := c) (Function.update_self ..) hr
        exact ⟨Or.inl h.1, he.of_setClient hc (afterDrain_ctl _ _)⟩
      · rintro e w1 ⟨rfl, he⟩
        exact ⟨Or.inl rfl, SocketFault.of_setClient hc (afterDrain_ctl _ _) (Or.inl he)⟩
    · rw [List.isEmpty_iff] at hq
      rw [Bool.not_eq_true] at herr
      exact .full hc hq rfl herr (not_lt.mp hlen) rfl

end H2ClientProxy
