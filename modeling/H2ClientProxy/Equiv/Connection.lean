import H2ClientProxy.Equiv.Clients
import H2ClientProxy.HttpParser.Requests

/-!
# The parser callbacks of a client, and the requests of its connection

`Connection.recv` says what the callbacks of one read make of the requests of a connection;
`Client.lean` has the callbacks themselves, which work on the headers of a client.  The header that they
work on is the one of the last request (`Delivered`).

* `updateReqHeader_delivered`, `clientMsgBegin_delivered`, `clientHeadersCompletecb_delivered`: what the
  callbacks do to a header is what `Callback.onRequests` does.
* `wp_run_delivered`: so do the callbacks of a read, one after the other.
* `wp_run_recv`: a read leaves the client at the last request of `Connection.recv`.
-/

namespace H2ClientProxy

open Wp Machine

variable {w : World} {c : ClientId} {cl : Client} {reqs : List ParsedRequest}

/-! ### The callbacks as events -/

/-- The event of the proxy that a callback of the parser of `c` is. -/
def Callback.event (c : ClientId) : Callback → Event
  | .messageBegin => .msgBegin c
  | .url data => .url c data
  | .headerField data => .headerField c data
  | .headerValue data => .headerValue c data
  | .headersComplete method => .headersComplete c method.str
  | .body data => .body c data
  | .messageComplete => .messageComplete c

/-- Where the parser is when it makes the callback. -/
def Callback.comesIn : Callback → ParserPhase → Bool
  | .messageBegin, p => p = .idle
  | .url _, p | .headersComplete _, p => p = .head
  | .headerField _, p | .headerValue _, p => p ≠ .idle
  | .body _, p | .messageComplete, p => p = .body

/-! ### The requests -/

/-- The client is at the last of the requests. -/
structure DeliveredTo (cl : Client) (reqs : List ParsedRequest) : Prop where
  reqNo : cl.reqNo = reqs.length
  pending : cl.relay = none → cl.pendingRequestHeader = none
  last : cl.parser ≠ .idle → ∃ req, reqs.getLast? = some req ∧ reqHeader cl = some req.header ∧
    (req.complete = true ↔ cl.parser = .body)

/-- The client `c` is there, and at the last of the requests. -/
def Delivered (w : World) (c : ClientId) (reqs : List ParsedRequest) : Prop :=
  ∃ cl, w.clients c = some cl ∧ DeliveredTo cl reqs

/-- A client that has just been accepted has no requests. -/
theorem Delivered.accepted (w : World) :
    Delivered (w.addClient { file := epFileDetect epFileCreate EP_READ (30 * 1000) })
      w.nextClient [] := by
  refine ⟨_, Function.update_self .., rfl, fun _ => rfl, ?_⟩
  exact fun hp => absurd rfl hp

/-- What a callback makes of the last request. -/
theorem onRequests_last {cb : Callback} {req : ParsedRequest} {h : Header} (hcb : cb ≠ .messageBegin)
    (hlast : reqs.getLast? = some req) (hh : cb.onHeader req.header = some h) :
    ∃ req' reqs', cb.onRequests reqs = some reqs' ∧ reqs'.length = reqs.length ∧
      reqs'.getLast? = some req' ∧ req'.header = h ∧
      (req'.complete = true ↔ req.complete = true ∨ ∃ method, cb = .headersComplete method) := by
  have hne : reqs ≠ [] := by
    rintro rfl
    exact absurd hlast (by simp)
  have hlen : 0 < reqs.length := List.length_pos_of_ne_nil hne
  have hall : ∀ req', (reqs.dropLast ++ [req']).length = reqs.length := by
    intro req'
    rw [List.length_append, List.length_dropLast, List.length_singleton]
    omega
  cases cb with
  | messageBegin => exact absurd rfl hcb
  | _ =>
    rw [Callback.onRequests, hlast]
    · dsimp only [Callback.onRequest]
      rw [hh, Option.map_some, Option.map_some]
      exact ⟨_, _, rfl, hall _, List.getLast?_concat, rfl, by simp⟩
    · exact hcb

/-! ### The callbacks -/

/-- `client_msg_begin`. -/
theorem clientMsgBegin_delivered (hc : w.clients c = some cl) (h : DeliveredTo cl reqs) :
    wp (clientMsgBegin c)
      (fun _ w' => ∃ reqs', Callback.messageBegin.onRequests reqs = some reqs' ∧ Delivered w' c reqs')
      (fun _ _ => True) w := by
  refine wp_mono (clientMsgBegin_spec hc) ?_ fun _ _ _ => trivial
  rintro ⟨⟩ _ ⟨cl', hb, rfl⟩
  have hlast : ∀ req : ParsedRequest, (reqs ++ [req]).getLast? = some req :=
    fun req => List.getLast?_concat
  refine ⟨_, rfl, cl', Function.update_self .., ?_⟩
  cases hb with
  | pending hr hh =>
    refine ⟨?_, ?_, fun _ => ⟨_, hlast _, ?_, by simp⟩⟩
    · rw [List.length_append, List.length_singleton, ← h.reqNo]
    · intro hnone
      rw [hnone] at hr
      exact absurd hr Bool.false_ne_true
    · rw [← h.reqNo]
      rfl
  | current hr hh =>
    refine ⟨?_, h.pending, fun _ => ⟨_, hlast _, ?_, by simp⟩⟩
    · rw [List.length_append, List.length_singleton, ← h.reqNo]
    · simp only [reqHeader, h.pending hr, h.reqNo]

/-- A callback changes the header of the request that it is about. -/
theorem onHeader_id {cb : Callback} {h h' : Header} (hh : cb.onHeader h = some h') : h'.id = h.id := by
  cases cb with
  | headerField data => exact headerAppendField_id hh
  | headersComplete method => exact headerAppendComplete_id (h := headerSetMethod h method.str) hh
  | _ =>
    obtain rfl := Option.some.inj hh
    rfl

/-- The client stays at the last request when both get the same header. -/
theorem DeliveredTo.of_header {cl' : Client} {reqs' : List ParsedRequest} {req' : ParsedRequest}
    (h : DeliveredTo cl reqs) (hk : CtlKept cl cl') (hlen : reqs'.length = reqs.length)
    (hlast : reqs'.getLast? = some req') (hhead : reqHeader cl' = some req'.header)
    (hcomplete : req'.complete = true ↔ cl.parser = .body) : DeliveredTo cl' reqs' where
  reqNo := by rw [hk.reqNo, h.reqNo, hlen]
  pending hnone := by
    rw [hk.relay] at hnone
    have hmap := hk.pendingRequestHeader
    rw [h.pending hnone] at hmap
    exact Option.map_eq_none_iff.mp hmap
  last _ := ⟨req', hlast, hhead, by rw [hk.parser]; exact hcomplete⟩

/-- A callback that leaves the header as it is. -/
theorem DeliveredTo.onRequests_same (h : DeliveredTo cl reqs) (cb : Callback) (hp : cl.parser ≠ .idle)
    (hcb : cb ≠ .messageBegin) (hm : ∀ method, cb ≠ .headersComplete method)
    (hsame : ∀ h, cb.onHeader h = some h) :
    ∃ reqs', cb.onRequests reqs = some reqs' ∧ DeliveredTo cl reqs' := by
  obtain ⟨req, hlast, hreq, hcomplete⟩ := h.last hp
  obtain ⟨req', reqs', hon, hlen, hlast', hhead, hcomp⟩ := onRequests_last hcb hlast (hsame _)
  refine ⟨reqs', hon, h.of_header (Std.Refl.refl _) hlen hlast' (by rw [hhead, hreq]) ?_⟩
  rw [hcomp, ← hcomplete]
  exact or_iff_left fun hex => hm _ hex.choose_spec

/-- The callbacks that only change the header. -/
theorem updateReqHeader_delivered (hc : w.clients c = some cl) (h : DeliveredTo cl reqs)
    (cb : Callback) (hp : cl.parser ≠ .idle) (hcb : cb ≠ .messageBegin)
    (hm : ∀ method, cb ≠ .headersComplete method) :
    wp (updateReqHeader c fun h => cb.onHeader h)
      (fun _ w' => ∃ reqs', cb.onRequests reqs = some reqs' ∧ Delivered w' c reqs')
      (fun _ _ => True) w := by
  obtain ⟨req, hlast, hreq, hcomplete⟩ := h.last hp
  simp only [updateReqHeader, wp_bind, wp_getClient, hc, hreq]
  cases hh : cb.onHeader req.header with
  | none => trivial
  | some h' =>
    have hk : CtlKept cl (setReqHeader cl h') := setReqHeader_ctl hreq (onHeader_id hh)
    obtain ⟨req', reqs', hon, hlen, hlast', hhead, hcomp⟩ := onRequests_last hcb hlast hh
    refine ⟨reqs', hon, setReqHeader cl h', Function.update_self .., ?_⟩
    refine h.of_header hk hlen hlast' (by rw [reqHeader_setReqHeader, hhead]) ?_
    rw [hcomp, ← hcomplete]
    exact or_iff_left fun hex => hm _ hex.choose_spec

/-- `client_headers_completecb`. -/
theorem clientHeadersCompletecb_delivered {method : HttpMethod} (hc : w.clients c = some cl)
    (h : DeliveredTo cl reqs) (hp : cl.parser ≠ .idle) :
    wp (clientHeadersCompletecb c method.str)
      (fun _ w' => ∃ reqs', (Callback.headersComplete method).onRequests reqs = some reqs' ∧
        Delivered w' c reqs')
      (fun _ _ => True) w := by
  obtain ⟨req, hlast, hreq, hcomplete⟩ := h.last hp
  simp only [clientHeadersCompletecb, wp_bind, wp_getClient, hc, hreq]
  cases hh : headerAppendComplete (headerSetMethod req.header method.str) with
  | none => trivial
  | some h' =>
    have hk : CtlKept cl (setReqHeader cl h') := setReqHeader_ctl hreq (headerAppendComplete_id
      (h := headerSetMethod req.header method.str) hh)
    obtain ⟨req', reqs', hon, hlen, hlast', hhead, hcomp⟩ :=
      onRequests_last (Callback.noConfusion : Callback.headersComplete method ≠ .messageBegin) hlast hh
    have hdone : req'.complete = true := hcomp.2 (.inr ⟨method, rfl⟩)
    -- the header is complete, and the relay is the only thing that may still change
    have hto : ∀ cl', cl'.reqNo = cl.reqNo → reqHeader cl' = some h' → cl'.parser = .body →
        (cl'.relay = none → cl'.pendingRequestHeader = none) → DeliveredTo cl' reqs' := by
      intro cl' hno hreq' hbody hpending
      refine ⟨by rw [hno, h.reqNo, hlen], hpending, fun _ => ⟨req', hlast', ?_, ?_⟩⟩
      · rw [hreq', hhead]
      · exact iff_of_true hdone hbody
    have hset : reqHeader (completed cl h') = some h' := reqHeader_setReqHeader cl h'
    have hpend : (completed cl h').pendingRequestHeader.isNone = _ := completed_pending_isNone h'
    simp only [wp_bind, wp_note, wp_putClient, wp_ite, wp_pure]
    unfold completed at hpend hset
    rw [hpend]
    split_ifs with hnone
    · -- a relay is created for the current request
      simp only [createRelay, wp_bind, wp_ite, wp_throw, relayCreate, wp_get, wp_modify, wp_pure,
        wp_note]
      split_ifs
      exact ⟨reqs', hon, _, Function.update_self .., hto _ hk.reqNo hset rfl fun hr =>
        absurd hr (Option.some_ne_none _)⟩
    · -- the request waits for the relay that is at work
      refine ⟨reqs', hon, _, Function.update_self .., hto _ hk.reqNo hset rfl fun hr => ?_⟩
      have hr' : cl.relay = none := hk.relay.symm.trans hr
      rw [h.pending hr'] at hnone
      exact absurd rfl hnone

/-- `client_bodycb` touches nothing of the client but its list of early body bytes. -/
theorem clientBodycb_client (hc : w.clients c = some cl) (data : Bytes) :
    wp (clientBodycb c data)
      (fun _ w' => ∃ buffers, w'.clients c = some { cl with listRequestBodyBuffer := buffers })
      (fun _ _ => True) w := by
  simp only [clientBodycb, wp_bind, wp_getClient, hc]
  refine wp_mono (clientRelay_spec _ hc) ?_ fun _ _ _ => trivial
  rintro r w ⟨rfl, _, hr⟩
  simp only [relayGetStatus, wp_bind, wp_getRelay, wp_pure]
  cases w.relays r with
  | none => trivial
  | some rel =>
    simp only [wp_ite, wp_throw, wp_putClient, wp_bind, wp_note]
    split_ifs
    · exact ⟨_, Function.update_self ..⟩
    · refine wp_mono (relayWriteBody_spec r data) (fun _ w' hsent => ?_) fun _ _ _ => trivial
      exact ⟨cl.listRequestBodyBuffer, (congrFun hsent.clients_eq c).trans hc⟩

/-- `client_message_completecb` ends the request. -/
theorem clientMessageCompletecb_client (hc : w.clients c = some cl) :
    wp (clientMessageCompletecb c) (fun _ w' => w'.clients c = some { cl with parser := .idle })
      (fun _ _ => True) w := by
  simp only [clientMessageCompletecb, wp_bind, wp_getClient, hc, wp_putClient, wp_clientRelay]
  split_ifs
  cases hr : cl.relay with
  | none => trivial
  | some r =>
    simp only [wp_note, relayCompleteRequest]
    refine wp_mono (writeRelay_spec (E := fun _ _ => True) r _) (fun _ w' hw => ?_) fun _ _ => id
    rw [hw.clients_eq, ← hr]
    exact Function.update_self ..

/-! ### The callbacks of a read -/

theorem wp_onClient_self {possible : Client → Bool} {f : SysM Unit} {Q : Unit → World → Prop}
    {E : Fault → World → Prop} (hc : w.clients c = some cl) (hp : possible cl = true)
    (h : wp f Q E w) : wp (onClient c possible f) Q E w := by
  simp only [onClient, wp_bind, wp_get, hc, hp, if_true]
  exact h

/-- The parser of the client is where it makes the callback. -/
def comesNow (w : World) (c : ClientId) (cb : Callback) : Bool :=
  (w.clients c).all fun cl => cb.comesIn cl.parser

/-- **One callback**: what the proxy does at the event is what the callback does to the requests. -/
theorem step_delivered {cb : Callback} {i : Input} (hi : i.event = cb.event c) (h : Delivered w c reqs)
    (hcb : comesNow w c cb = true) :
    wp (step i)
      (fun _ w' => ∃ reqs', cb.onRequests reqs = some reqs' ∧ Delivered w' c reqs')
      (fun _ _ => True) w := by
  obtain ⟨cl, hc, hd⟩ := h
  have hc0 : (prepared w i).clients c = some cl := hc
  have hcomes : cb.comesIn cl.parser = true := by simpa [comesNow, hc] using hcb
  -- the handler runs, since the parser is where the callback can come
  have hhandle : wp (handle (cb.event c))
      (fun _ w' => ∃ reqs', cb.onRequests reqs = some reqs' ∧ Delivered w' c reqs')
      (fun _ _ => True) (prepared w i) := by
    cases cb with
    | messageBegin => exact wp_onClient_self hc0 hcomes (clientMsgBegin_delivered hc0 hd)
    | url data =>
      have hp : cl.parser = .head := of_decide_eq_true hcomes
      exact wp_onClient_self hc0 hcomes
        (updateReqHeader_delivered hc0 hd (.url data) (by simp [hp]) (by simp) (by simp))
    | headerField data =>
      have hp : cl.parser ≠ .idle := of_decide_eq_true hcomes
      exact wp_onClient_self hc0 hcomes
        (updateReqHeader_delivered hc0 hd (.headerField data) hp (by simp) (by simp))
    | headerValue data =>
      have hp : cl.parser ≠ .idle := of_decide_eq_true hcomes
      exact wp_onClient_self hc0 hcomes
        (updateReqHeader_delivered hc0 hd (.headerValue data) hp (by simp) (by simp))
    | headersComplete method =>
      have hp : cl.parser = .head := of_decide_eq_true hcomes
      exact wp_onClient_self hc0 hcomes
        (clientHeadersCompletecb_delivered hc0 hd (by simp [hp]))
    | body data =>
      have hp : cl.parser = .body := of_decide_eq_true hcomes
      -- the body leaves the header alone
      obtain ⟨reqs', hon, hd'⟩ := hd.onRequests_same (.body data) (by simp [hp]) (by simp) (by simp)
        fun _ => rfl
      refine wp_onClient_self hc0 hcomes ?_
      refine wp_mono (clientBodycb_client hc0 data) ?_ fun _ _ _ => trivial
      rintro ⟨⟩ w' ⟨buffers, hc'⟩
      exact ⟨reqs', hon, _, hc', ⟨hd'.reqNo, hd'.pending, hd'.last⟩⟩
    | messageComplete =>
      have hp : cl.parser = .body := of_decide_eq_true hcomes
      obtain ⟨reqs', hon, hd'⟩ := hd.onRequests_same .messageComplete (by simp [hp]) (by simp)
        (by simp) fun _ => rfl
      refine wp_onClient_self hc0 hcomes ?_
      refine wp_mono (clientMessageCompletecb_client hc0) ?_ fun _ _ _ => trivial
      intro _ w' hc'
      exact ⟨reqs', hon, _, hc', ⟨hd'.reqNo, hd'.pending, fun hidle => absurd rfl hidle⟩⟩
  rw [← hi] at hhandle
  simp only [step, wp_bind, wp_modify]
  exact hhandle

/-- **The callbacks of a read**, with whatever `send()` and nghttp2 answer meanwhile: the client is at
the last of the requests that they make of those before. -/
theorem wp_run_delivered (is : List (Callback × Input)) (h : Delivered w c reqs)
    (hG : Meets (fun p => step p.2)
      (fun w p => p.2.event = p.1.event c ∧ comesNow w c p.1 = true) is w) :
    wp (run (fun p => step p.2) is)
      (fun _ w' => ∃ reqs', (is.map Prod.fst).foldlM Callback.onRequests reqs = some reqs' ∧
        Delivered w' c reqs')
      (fun _ _ => True) w := by
  refine run_inputs_wp (I := fun done w' => ∃ reqs',
    (done.map Prod.fst).foldlM Callback.onRequests reqs = some reqs' ∧ Delivered w' c reqs')
    ?_ is [] w ⟨reqs, rfl, h⟩ hG
  rintro done w p ⟨reqs1, hfold, h1⟩ ⟨hevent, hcomes⟩
  refine wp_mono (step_delivered hevent h1 hcomes) ?_ fun _ _ _ => trivial
  rintro ⟨⟩ w' ⟨reqs', hon, h'⟩
  refine ⟨reqs', ?_, h'⟩
  rw [List.map_append, List.foldlM_append, hfold]
  simp [hon]

/-- A read leaves the client at the last request of `Connection.recv`. -/
theorem wp_run_recv {k : Connection} {data : Bytes} (is : List (Callback × Input))
    (his : is.map Prod.fst = (httpParserExecute k.parser data).2) (h : Delivered w c k.requests)
    (hG : Meets (fun p => step p.2)
      (fun w p => p.2.event = p.1.event c ∧ comesNow w c p.1 = true) is w) :
    wp (run (fun p => step p.2) is)
      (fun _ w' => ∃ k', k.recv data = some k' ∧ Delivered w' c k'.requests) (fun _ _ => True) w := by
  refine wp_mono (wp_run_delivered is h hG) ?_ fun _ _ _ => trivial
  rintro ⟨⟩ w' ⟨reqs', hfold, h'⟩
  refine ⟨⟨(httpParserExecute k.parser data).1, reqs'⟩, ?_, h'⟩
  rw [his] at hfold
  simp only [Connection.recv, hfold, Option.map_some]

/-- A whole request in one read: each callback comes when the client is at it, and none faults. -/
example :
    let w := World.init.addClient { file := epFileDetect epFileCreate EP_READ (30 * 1000) }
    let is := (httpParserExecute .init (bytes "PUT /a HTTP/1.1\r\nContent-Length: 1\r\n\r\nb")).2.map
      fun cb => (cb, ({ event := cb.event 0 } : Input))
    Delivered w 0 [] ∧
      Meets (fun p => step p.2)
        (fun w p => p.2.event = p.1.event 0 ∧ comesNow w 0 p.1 = true) is w ∧
      wp (run (fun p => step p.2) is) (fun _ _ => is.length = 7) (fun _ _ => False) w :=
  ⟨Delivered.accepted World.init, by decide +kernel, by decide +kernel⟩

end H2ClientProxy
