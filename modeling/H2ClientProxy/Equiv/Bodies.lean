import H2ClientProxy.Equiv.Clients

/-!
# Where the bytes of a request body go

The body and completion callbacks of the parser carry no request: `client.c` passes what they bring
to whatever relay is current, at once or, while that relay is connecting, through
`list_request_body_buffer`.  With pipelining the parser is in request `k + 1` while the relay is
still the one of request `k`.

* `Directs`: a relay receives body bytes and completions only of the request it was created for;
* `BodiesCurrent`: the condition; the callbacks come when the request is no longer the pending one,
  and no response ends while body bytes are waiting;
* `Directed`: the invariant, about the clients and the trace alone;
* `wp_run_directs`: under the condition every run directs the bytes as it should.
-/

namespace H2ClientProxy

open Wp Machine SendQueue

variable {D : StreamId → Prop} {w w' : World} {r : RelayId} {c : ClientId}

/-! ### The property -/

/-- The relay, the client and the request of a call that passes body bytes or a completion on. -/
def Obs.target : Obs → Option (RelayId × ClientId × ℕ)
  | .writeBody r c req _ => some (r, c, req)
  | .completeRequest r c req => some (r, c, req)
  | _ => none

/-- `relay_create` made a relay for a request. -/
def Obs.creates : Obs → Option (RelayId × ClientId × ℕ)
  | .create r c req => some (r, c, req)
  | _ => none

/-- Body bytes and completions go to a relay that was created for their request, and a relay is
created for one request only. -/
structure Directs (trace : List Obs) : Prop where
  received : ∀ o ∈ trace, ∀ r c req, o.target = some (r, c, req) → .create r c req ∈ trace
  once : ∀ r c req c' req', Obs.create r c req ∈ trace → Obs.create r c' req' ∈ trace →
    c = c' ∧ req = req'

/-! ### The condition -/

/-- The body and completion callbacks come when there is no pending request; a frame that ends a
response finds no body bytes waiting in `list_request_body_buffer` of the client. -/
def BodiesCurrent (w : World) : Event → Bool
  | .body c _ => (w.clients c).all fun cl => cl.parser ≠ .body || cl.pendingRequestHeader.isNone
  | .messageComplete c =>
    (w.clients c).all fun cl => cl.parser ≠ .body || cl.pendingRequestHeader.isNone
  | .recvFrame s frame => w.tunnel ≠ .connected || (w.streams s).all fun st =>
    st.shutRd || st.closing || (st.userData.bind w.relays).all fun rel =>
      !rel.isAttached || !frame.completes ||
        (w.clients rel.args).all fun cl => cl.listRequestBodyBuffer.isEmpty
  | _ => true

/-! ### The invariant -/

/-- What holds of a client: the pending request is the one the parser is in; otherwise the current
relay is the one of that request, from the end of its header block on; and body bytes that wait are
for the current relay. -/
structure DirectedClient (trace : List Obs) (c : ClientId) (cl : Client) : Prop where
  pending_relay : cl.pendingRequestHeader.map Header.id ≠ none → cl.relay ≠ none
  pending_id : ∀ req, cl.pendingRequestHeader.map Header.id = some req → req = cl.reqNo
  head_id : ∀ req, cl.parser = .head → cl.pendingRequestHeader.map Header.id = none →
    cl.requestHeader.map Header.id = some req → req = cl.reqNo
  head_buffer : cl.parser = .head → cl.pendingRequestHeader.map Header.id = none →
    cl.listRequestBodyBuffer = []
  current : ∀ r, cl.parser = .body → cl.pendingRequestHeader.map Header.id = none →
    cl.relay = some r → .create r c cl.reqNo ∈ trace
  waiting : ∀ b ∈ cl.listRequestBodyBuffer, ∃ r, cl.relay = some r ∧ .create r c b.req ∈ trace

structure Directed (w : World) : Prop where
  client : ∀ c cl, w.clients c = some cl → DirectedClient w.trace c cl
  directs : Directs w.trace
  fresh : ∀ r c req, .create r c req ∈ w.trace → r < w.nextRelay

theorem directed_init : Directed World.init := by
  constructor
  · intro c cl hc
    exact absurd hc (by simp [World.init])
  · constructor <;> simp [World.init]
  · simp [World.init]

/-! ### Elementary changes -/

theorem DirectedClient.mono {t t' : List Obs} {cl : Client} (h : DirectedClient t c cl)
    (ht : ∀ o ∈ t, o ∈ t') : DirectedClient t' c cl where
  pending_relay := h.pending_relay
  pending_id := h.pending_id
  head_id := h.head_id
  head_buffer := h.head_buffer
  current := fun r hp hn hr => ht _ (h.current r hp hn hr)
  waiting := by
    intro b hb
    obtain ⟨r, hr, hcr⟩ := h.waiting b hb
    exact ⟨r, hr, ht _ hcr⟩

/-- Only the control state matters. -/
theorem DirectedClient.ctl {t : List Obs} {cl cl' : Client} (h : DirectedClient t c cl)
    (hk : CtlKept cl cl') : DirectedClient t c cl' := by
  obtain ⟨h1, h2, h3, h4, h5, h6⟩ := h
  constructor <;>
    simp only [hk.relay, hk.parser, hk.reqNo, hk.requestHeader, hk.pendingRequestHeader,
      hk.listRequestBodyBuffer]
  · exact h1
  · exact h2
  · exact h3
  · exact h4
  · exact h5
  · exact h6

theorem Directed.of_eq (h : Directed w) (hc : w'.clients = w.clients) (ht : w'.trace = w.trace)
    (hn : w'.nextRelay = w.nextRelay) : Directed w' := by
  obtain ⟨h1, h2, h3⟩ := h
  constructor
  · rw [hc, ht]
    exact h1
  · rw [ht]
    exact h2
  · rw [ht, hn]
    exact h3

theorem Directed.sent (h : Directed w) (hs : Sent D w w') : Directed w' :=
  h.of_eq hs.clients_eq hs.trace hs.nextRelay

/-- The next observation is backed by the trace. -/
theorem Directs.concat {t : List Obs} {o : Obs} (h : Directs t)
    (ht : ∀ r c req, o.target = some (r, c, req) → .create r c req ∈ t)
    (ho : ∀ r c req, o ≠ .create r c req) : Directs (t ++ [o]) := by
  have hold : ∀ r c req, Obs.create r c req ∈ t ++ [o] → Obs.create r c req ∈ t := by
    intro r c req hmem
    rcases List.mem_append.mp hmem with hmem | hmem
    · exact hmem
    · exact absurd (List.mem_singleton.mp hmem).symm (ho r c req)
  constructor
  · intro o' ho' r c req htar
    refine List.mem_append_left _ ?_
    rcases List.mem_append.mp ho' with ho' | ho'
    · exact h.received o' ho' r c req htar
    · rw [List.mem_singleton.mp ho'] at htar
      exact ht r c req htar
  · intro r c req c' req' hmem hmem'
    exact h.once r c req c' req' (hold _ _ _ hmem) (hold _ _ _ hmem')

/-- An observation that neither creates a relay nor passes something on. -/
def Obs.idle (o : Obs) : Bool := o.target.isNone && o.creates.isNone

theorem Directs.concat_idle {t : List Obs} {o : Obs} (h : Directs t) (ho : o.idle = true) :
    Directs (t ++ [o]) := by
  refine h.concat ?_ ?_
  · intro r c req htar
    rw [Obs.idle, htar] at ho
    exact absurd ho (by simp)
  · rintro r c req rfl
    exact absurd ho (by simp [Obs.idle, Obs.creates])

/-- An observation is noted that does not create a relay. -/
theorem Directed.log {o : Obs} (h : Directed w)
    (ht : ∀ r c req, o.target = some (r, c, req) → .create r c req ∈ w.trace)
    (ho : ∀ r c req, o ≠ .create r c req) : Directed (w.log o) := by
  constructor
  · intro c cl hc
    exact (h.client c cl hc).mono fun o' ho' => List.mem_append_left _ ho'
  · exact h.directs.concat ht ho
  · intro r c req hmem
    rcases List.mem_append.mp hmem with hmem | hmem
    · exact h.fresh r c req hmem
    · exact absurd (List.mem_singleton.mp hmem).symm (ho r c req)

theorem Directed.log_idle {o : Obs} (h : Directed w) (ho : o.idle = true) :
    Directed (w.log o) := by
  refine h.log ?_ ?_
  · intro r c req htar
    rw [Obs.idle, htar] at ho
    exact absurd ho (by simp)
  · rintro r c req rfl
    exact absurd ho (by simp [Obs.idle, Obs.creates])

theorem Directed.setClient {cl : Client} (h : Directed w) (hcl : DirectedClient w.trace c cl) :
    Directed (w.setClient c (some cl)) := by
  constructor
  · intro c' cl' hc'
    rw [World.setClient_clients, Function.update_apply] at hc'
    split_ifs at hc' with he
    · obtain rfl := Option.some.inj hc'
      exact he ▸ hcl
    · exact h.client c' cl' hc'
  · exact h.directs
  · exact h.fresh

theorem Directed.dropClient (h : Directed w) (c : ClientId) : Directed (w.setClient c none) := by
  constructor
  · intro c' cl' hc'
    rw [World.setClient_clients, Function.update_apply] at hc'
    split_ifs at hc'
    exact h.client c' cl' hc'
  · exact h.directs
  · exact h.fresh

theorem Directed.ctl {cl cl' : Client} (h : Directed w) (hc : w.clients c = some cl)
    (hk : CtlKept cl cl') : Directed (w.setClient c (some cl')) :=
  h.setClient ((h.client c cl hc).ctl hk)

theorem Directed.written {cl cl' : Client} (h : Directed w) (hw : Written c cl cl' w w') :
    Directed w' := by
  obtain ⟨sends, hc, hws, rfl⟩ := hw
  have h1 : Directed (w.setSends sends) := h.of_eq rfl rfl rfl
  exact h1.ctl hc hws.ctl

theorem Directed.wrote {f : Relay → Relay} (h : Directed w) (hw : Wrote r f w w') :
    Directed w' := by
  rcases hw with ⟨rel, _, rfl⟩ | ⟨_, rfl⟩
  · exact h.of_eq rfl rfl rfl
  · exact h.log_idle rfl

/-- A client gets a new relay for the request the parser is in, with no body bytes waiting. -/
theorem Directed.createRelay {cl : Client} {req : ℕ} (h : Directed w) (b : Bool)
    (hcl : DirectedClient (w.trace ++ [Obs.create w.nextRelay c req]) c cl) :
    Directed (((w.addRelay { session := b, args := c }).log
      (.create w.nextRelay c req)).setClient c (some cl)) := by
  have h1 : Directed ((w.addRelay { session := b, args := c }).log
      (.create w.nextRelay c req)) := by
    constructor
    · intro c' cl' hc'
      exact (h.client c' cl' hc').mono fun o ho => List.mem_append_left _ ho
    · constructor
      · intro o ho r' c' req' htar
        refine List.mem_append_left _ ?_
        rcases List.mem_append.mp ho with ho | ho
        · exact h.directs.received o ho r' c' req' htar
        · rw [List.mem_singleton.mp ho] at htar
          exact absurd htar (by simp [Obs.target])
      · intro r1 c1 q1 c2 q2 h1 h2
        rcases List.mem_append.mp h1 with h1 | h1 <;> rcases List.mem_append.mp h2 with h2 | h2
        · exact h.directs.once r1 c1 q1 c2 q2 h1 h2
        -- an identity that is new is in no earlier creation
        · have hlt : r1 < w.nextRelay := h.fresh r1 c1 q1 h1
          have he := List.mem_singleton.mp h2
          rw [Obs.create.injEq] at he
          exact absurd he.1 hlt.ne
        · have hlt : r1 < w.nextRelay := h.fresh r1 c2 q2 h2
          have he := List.mem_singleton.mp h1
          rw [Obs.create.injEq] at he
          exact absurd he.1 hlt.ne
        · have he1 := List.mem_singleton.mp h1
          have he2 := List.mem_singleton.mp h2
          rw [Obs.create.injEq] at he1 he2
          exact ⟨he1.2.1.trans he2.2.1.symm, he1.2.2.trans he2.2.2.symm⟩
    · intro r1 c1 q1 hmem
      show r1 < w.nextRelay + 1
      rcases List.mem_append.mp hmem with hmem | hmem
      · exact Nat.lt_succ_of_lt (h.fresh r1 c1 q1 hmem)
      · have he := List.mem_singleton.mp hmem
        rw [Obs.create.injEq] at he
        rw [he.1]
        exact Nat.lt_succ_self _
  exact h1.setClient hcl

/-! ### The handlers -/

/-- The client leaves its relay with no body bytes waiting. -/
theorem Directed.next (h : Directed w) (hn : Next c w w')
    (hb : ∀ cl, w.clients c = some cl → cl.listRequestBodyBuffer = []) : Directed w' := by
  cases hn with
  | @idle cl hc hp =>
    refine h.setClient ?_
    constructor
    case waiting => simp [hb cl hc]
    case head_buffer => exact fun _ _ => hb cl hc
    all_goals simp [hp]
  | @next cl hd hc hp =>
    have hid : hd.id = cl.reqNo := (h.client c cl hc).pending_id hd.id (by rw [hp]; rfl)
    refine h.createRelay _ ?_
    constructor
    case waiting => simp [hb cl hc]
    case head_buffer => exact fun _ _ => hb cl hc
    case current => simp [hid]
    all_goals simp [hid]

theorem Directed.msgDone (h : Directed w) (hm : MsgDone c w w')
    (hb : ∀ cl, w.clients c = some cl → cl.listRequestBodyBuffer = []) : Directed w' := by
  obtain ⟨cl, r, rel, w1, hc, hr, hrel, hw1, hend⟩ := hm
  rcases hend with ⟨_, rfl⟩ | ⟨_, hn⟩
  · exact h.dropClient c
  · rcases hw1 with ⟨_, rfl⟩ | ⟨_, rfl⟩
    · exact h.next hn hb
    · have hw := written_wroteTo hc lastChunk
      refine (h.written hw).next hn fun cl' hc' => ?_
      obtain rfl := Option.some.inj (hw.clients_self.symm.trans hc')
      exact hw.ctl.listRequestBodyBuffer.trans (hb cl hc)

theorem Directed.msgPhase (h : Directed w) (hm : MsgPhase r w w')
    (hb : ∀ rel cl, w.relays r = some rel → w.clients rel.args = some cl →
      cl.listRequestBodyBuffer = []) : Directed w' := by
  obtain ⟨rel, hr, hd⟩ := hm
  have h0 : Directed (w.setRelay r { rel with relayStatus := .msgComplete }) := h.of_eq rfl rfl rfl
  have h1 : Directed (ending w r rel) := h0.log_idle rfl
  exact h1.msgDone hd fun cl hc => hb rel cl hr hc

theorem Directed.heading (h : Directed w) (rel : Relay) : Directed (heading w r rel) := by
  have h0 : Directed (w.setRelay r { rel with relayStatus := .headerComplete }) :=
    h.of_eq rfl rfl rfl
  exact h0.log_idle rfl

theorem Directed.hdrPhase {ends : Bool} (h : Directed w) (hp : HdrPhase ends r w w') :
    Directed w' := by
  obtain ⟨rel, rel1, cl, r1, data, hr, hk, hc, _, _, _, rfl⟩ := hp
  exact (h.heading rel1).written (written_wroteTo (w := H2ClientProxy.heading w r rel1) hc data)

/-- Announcing a header leaves the owner of the relay and the body bytes of its client. -/
theorem HdrPhase.buffer {ends : Bool} {rel : Relay} {cl : Client} (hp : HdrPhase ends r w w')
    (hr : w'.relays r = some rel) (hc : w'.clients rel.args = some cl) :
    ∃ rel0 cl0, w.relays r = some rel0 ∧ w.clients rel0.args = some cl0 ∧
      cl.listRequestBodyBuffer = cl0.listRequestBodyBuffer := by
  obtain ⟨rel0, rel1, cl0, r1, data, hr0, hk, hc0, _, _, _, rfl⟩ := hp
  have hself : (wroteTo (heading w r rel1) rel0.args cl0 data).relays r
      = some { rel1 with relayStatus := .headerComplete } := Function.update_self ..
  rw [hself, Option.some.injEq] at hr
  have hargs : rel.args = rel0.args := by
    rw [← hr]
    exact hk.kept.1.args
  have hcself : (wroteTo (heading w r rel1) rel0.args cl0 data).clients rel0.args
      = some (writeClient cl0 w.sends data).client := Function.update_self ..
  rw [hargs, hcself, Option.some.injEq] at hc
  refine ⟨rel0, cl0, hr0, hc0, ?_⟩
  rw [← hc]
  exact (writeClient_ctl cl0 w.sends data).listRequestBodyBuffer

theorem Directed.reported {userData : Option RelayId} {frame : Frame} (h : Directed w)
    (hb : ∀ r rel cl, userData = some r → w.relays r = some rel → rel.isAttached = true →
      frame.completes = true → w.clients rel.args = some cl → cl.listRequestBodyBuffer = [])
    (hr : Reported w userData frame w') : Directed w' := by
  cases hr with
  | ignored => exact h
  | @phases r rel w1 _ hu hr ha h1 h2 =>
    have hw1 : Directed w1 := by
      split_ifs at h1
      · exact h.hdrPhase h1
      · exact h1 ▸ h
    split_ifs at h2 with hcomp
    · refine hw1.msgPhase h2 fun rel1 cl1 hr1 hc1 => ?_
      split_ifs at h1
      · obtain ⟨rel0, cl0, hr0, hc0, he⟩ := h1.buffer hr1 hc1
        obtain rfl : rel = rel0 := Option.some.inj (hr.symm.trans hr0)
        rw [he]
        exact hb r rel cl0 hu hr ha hcomp hc0
      · subst h1
        obtain rfl : rel = rel1 := Option.some.inj (hr.symm.trans hr1)
        exact hb r rel cl1 hu hr ha hcomp hc1
    · exact h2 ▸ hw1

theorem Directed.shutRd {s : StreamId} (h : Directed w) (hs : ShutRd s w w') : Directed w' := by
  have h1 : Directed (w.mapStream s ({ · with shutRd := true })) := h.of_eq rfl rfl rfl
  exact h1.sent hs

/-- The client of a relay that failed is dropped, and the relay freed. -/
theorem Directed.failed {rel : Relay} (h : Directed w) : Directed
    (freed ((w.log (.event r .errConnFailed rel.responseHeader rel.bodyData)).setClient
      rel.args none) r rel) :=
  ((h.log_idle rfl).dropClient rel.args).of_eq rfl rfl rfl

theorem Directed.dropClients {rs : List RelayId} (h : Directed w) (hd : DropClients rs w w') :
    Directed w' := by
  induction hd with
  | nil => exact h
  | cons h1 _ ih =>
    refine ih ?_
    cases h1 with
    | attached hr ha hc => exact h.failed
    | detached hr ha => exact h.of_eq rfl rfl rfl

theorem Directed.dropped (h : Directed w) (hd : Dropped c w w') : Directed w' := by
  obtain ⟨cl, hc, ⟨_, rfl⟩ | ⟨r, rel, w1, w2, hr, hrel, h1, h2, rfl⟩⟩ := hd
  · exact h.dropClient c
  · exact (((h.log_idle rfl).sent h1).wrote h2).dropClient c

theorem Directed.resumed (h : Directed w) (hr : Resumed r w w') : Directed w' := by
  obtain ⟨rel, w1, _, h1, h2⟩ := hr
  have hw1 : Directed w1 := by
    rcases h1 with ⟨rfl, _⟩ | h1
    · exact h
    · have h0 : Directed (w.mapStream rel.streamId ({ · with recvLen := 0 })) := h.of_eq rfl rfl rfl
      exact h0.sent h1
  exact hw1.wrote h2

theorem Directed.writable (h : Directed w) (hd : WritableDone c w w') : Directed w' := by
  have hsend : ∀ sends cl cl', w.clients c = some cl → CtlKept cl cl' →
      Directed ((w.setSends sends).setClient c (some cl')) := by
    intro sends cl cl' hc hk
    have h1 : Directed (w.setSends sends) := h.of_eq rfl rfl rfl
    exact h1.ctl hc hk
  cases hd with
  | empty hc hq hr hres => exact h.resumed hres
  | error hc hq hout herr hdrop => exact (hsend _ _ _ hc (drainedClient_ctl _ _)).dropped hdrop
  | full hc hq hout herr hlen hw => exact hw ▸ hsend _ _ _ hc (afterDrain_ctl _ _)
  | resumed hc hq hout herr hlen hr hres =>
    exact (hsend _ _ _ hc (afterDrain_ctl _ _)).resumed hres

/-- The client submits its request; its body bytes are no longer waiting. -/
theorem Directed.submits {cl : Client} {hd : Header} {rel : Relay} (h : Directed w)
    (hs : Submits c cl r hd rel w w') : Directed w' := by
  obtain ⟨w1, h1, h2⟩ := hs.sent
  obtain ⟨p1, p2, p3, p4, p5, p6⟩ := h.client c cl hs.client
  have h0 : Directed (w.setClient c (some { cl with
      file := epFileDetect cl.file EP_READ (-1), listRequestBodyBuffer := [] })) :=
    h.setClient ⟨p1, p2, p3, fun _ _ => rfl, p5, by simp⟩
  have hc : Directed (connecting w c cl r hd) := h0.log_idle rfl
  have hsub : Directed (submitted (connecting w c cl r hd) r rel hd) :=
    hc.of_eq (submitted_clients ..) (submitted_trace ..) (submitted_nextRelay ..)
  exact (hsub.sent h1).wrote h2

theorem Submits.trace_mem {cl : Client} {hd : Header} {rel : Relay} {o : Obs}
    (hs : Submits c cl r hd rel w w') (ho : o ∈ w.trace) : o ∈ w'.trace := by
  obtain ⟨w1, h1, h2⟩ := hs.sent
  have hw1 : o ∈ w1.trace := by
    rw [h1.trace, submitted_trace]
    exact List.mem_append_left _ ho
  rcases h2 with ⟨_, _, rfl⟩ | ⟨_, rfl⟩
  · exact hw1
  · exact List.mem_append_left _ hw1

/-- The body bytes that waited go to the relay that was created for their requests. -/
theorem Directed.bodiesWritten {bs : List BodyBuffer} (h : Directed w)
    (hb : BodiesWritten c r bs w w') (hc : ∀ b ∈ bs, .create r c b.req ∈ w.trace) :
    Directed w' := by
  induction hb with
  | nil => exact h
  | @cons b bs w w1 w' h1 _ ih =>
    have h0 : Directed (w.log (.writeBody r c b.req b.data)) := by
      refine h.log ?_ (by simp)
      rintro r' c' req' ⟨⟩
      exact hc b (List.mem_cons_self ..)
    refine ih (h0.sent h1) fun b' hb' => ?_
    rw [h1.trace]
    exact List.mem_append_left _ (hc b' (List.mem_cons_of_mem b hb'))

theorem Directed.chunked {rel : Relay} (h : Directed w) (s : StreamId) (data : Bytes) :
    Directed (chunked w s r rel data) := by
  have h1 : Directed ((w.mapStream s fun st =>
      { st with recvLen := st.recvLen + data.length }).setRelay r { rel with bodyData := data }) :=
    h.of_eq rfl rfl rfl
  exact h1.log_idle rfl

theorem Directed.bodyDone (h : Directed w) (hb : BodyDone c w w') : Directed w' := by
  obtain ⟨cl, r, rel, cl1, w1, hr, hrel, hw, hend⟩ := hb
  have h1 := h.written hw
  rcases hend with ⟨_, rfl⟩ | ⟨_, rfl⟩
  · exact h1.of_eq rfl rfl rfl
  · exact h1

theorem Directed.chunkDone {s : StreamId} {st : Stream} {data : Bytes} (h : Directed w)
    (hc : ChunkDone w s st data w') : Directed w' := by
  cases hc with
  | ignored => exact h.of_eq rfl rfl rfl
  | @written r rel rel1 w1 w2 _ hu hr ha h1 hr1 h2 h3 =>
    have hw1 : Directed w1 := (h.chunked s data).bodyDone h1
    have hw2 : Directed w2 := by
      split_ifs at h2
      · exact h2 ▸ hw1.of_eq rfl rfl rfl
      · exact h2 ▸ hw1
    exact hw2.sent h3

/-! ### The parser callbacks -/

/-- `client_msg_begin`: the new header is for the request that the parser enters. -/
theorem Directed.begun {cl cl' : Client} (h : Directed w) (hc : w.clients c = some cl)
    (hb : Begun cl cl') : Directed (w.setClient c (some cl')) := by
  obtain ⟨h1, h2, h3, h4, h5, h6⟩ := h.client c cl hc
  refine h.setClient ?_
  cases hb with
  | pending hr hh =>
    constructor
    case pending_relay => simpa [Option.isSome_iff_ne_none] using hr
    case waiting => exact h6
    all_goals simp [headerNew]
  | current hr hh =>
    -- without a relay no body bytes are waiting
    have hbuf : cl.listRequestBodyBuffer = [] := by
      rw [List.eq_nil_iff_forall_not_mem]
      intro b hb
      obtain ⟨r, hr', _⟩ := h6 b hb
      rw [hr] at hr'
      exact absurd hr' (by simp)
    constructor
    case pending_relay => exact h1
    case pending_id =>
      intro req hreq
      exact absurd hr (h1 (by rw [hreq]; simp))
    case head_buffer => exact fun _ _ => hbuf
    case waiting => exact h6
    all_goals simp [headerNew]

theorem Directed.headersDone {cl : Client} (h : Directed w) (hc : w.clients c = some cl)
    (hp : cl.parser = .head) (hd : HeadersDone c cl w w') : Directed w' := by
  cases hd with
  | @pending hd hd' hh hid hpend =>
    have hl : Directed (w.log (.headersComplete c hd'.id)) := h.log_idle rfl
    have hk : CtlKept cl (setReqHeader cl hd') := setReqHeader_ctl hh hid
    obtain ⟨h1, h2, _, _, _, h6⟩ := (hl.client c cl hc).ctl hk
    have hmap : (setReqHeader cl hd').pendingRequestHeader.map Header.id ≠ none := by
      rw [hk.pendingRequestHeader]
      simpa [Option.isSome_iff_ne_none] using hpend
    refine hl.setClient ⟨h1, h2, ?_, ?_, ?_, h6⟩
    · exact fun _ hhead => absurd hhead (by simp [completed])
    · exact fun hhead => absurd hhead (by simp [completed])
    · exact fun _ _ hnone => absurd hnone hmap
  | @create hd hd' hh hid hpend =>
    have hl : Directed (w.log (.headersComplete c hd'.id)) := h.log_idle rfl
    have hk : CtlKept cl (setReqHeader cl hd') := setReqHeader_ctl hh hid
    have hnone : cl.pendingRequestHeader.map Header.id = none := by
      rw [hpend]
      rfl
    -- the header that is complete is the one of the request the parser is in
    have hreq : hd'.id = cl.reqNo := by
      refine (h.client c cl hc).head_id _ hp hnone ?_
      simp only [reqHeader, hpend] at hh
      rw [hh, Option.map_some, hid]
    have hbuf : (setReqHeader cl hd').listRequestBodyBuffer = [] :=
      hk.listRequestBodyBuffer.trans ((h.client c cl hc).head_buffer hp hnone)
    have hpend' : (setReqHeader cl hd').pendingRequestHeader.map Header.id = none :=
      hk.pendingRequestHeader.trans hnone
    refine hl.createRelay _ ?_
    constructor
    case pending_relay => simp
    case pending_id => exact fun req hreq => absurd (hpend'.symm.trans hreq) (by simp)
    case head_id => exact fun _ hhead => absurd hhead (by simp [completed])
    case head_buffer => exact fun _ _ => hbuf
    case waiting =>
      intro b hb
      exact absurd (hbuf ▸ hb : b ∈ []) (by simp)
    case current =>
      rintro r - - ⟨⟩
      refine List.mem_append_right _ ?_
      show Obs.create w.nextRelay c (setReqHeader cl hd').reqNo ∈ _
      rw [hk.reqNo, hreq]
      exact List.mem_singleton.mpr rfl

/-- Under the condition the parser has no pending request when a body or a completion comes. -/
theorem DirectedClient.not_pending {cl : Client}
    (hg : (cl.parser ≠ .body || cl.pendingRequestHeader.isNone) = true) (hp : cl.parser = .body) :
    cl.pendingRequestHeader.map Header.id = none := by
  simpa [hp] using hg

theorem Directed.bodyQueued {cl : Client} (h : Directed w) (data : Bytes)
    (hc : w.clients c = some cl) (hp : cl.parser = .body) (hr : cl.relay = some r)
    (hn : cl.pendingRequestHeader.map Header.id = none) :
    Directed (w.setClient c (some { cl with listRequestBodyBuffer := [⟨cl.reqNo, data⟩] })) := by
  obtain ⟨h1, h2, h3, _, h5, _⟩ := h.client c cl hc
  refine h.setClient ⟨h1, h2, h3, ?_, h5, ?_⟩
  · exact fun hhead => absurd (hhead.symm.trans hp) (by simp)
  · intro b hb
    obtain rfl := List.mem_singleton.mp hb
    exact ⟨r, hr, h5 r hp hn hr⟩

theorem Directed.messageComplete {cl : Client} (h : Directed w) (hc : w.clients c = some cl)
    (hp : cl.parser = .body) (hr : cl.relay = some r)
    (hn : cl.pendingRequestHeader.map Header.id = none) :
    Directed ((w.setClient c (some { cl with parser := .idle })).log
      (.completeRequest r c cl.reqNo)) := by
  obtain ⟨h1, h2, _, _, h5, h6⟩ := h.client c cl hc
  have h0 : Directed (w.setClient c (some { cl with parser := .idle })) :=
    h.setClient ⟨h1, h2, by simp, by simp, by simp, h6⟩
  refine h0.log ?_ (by simp)
  rintro r' c' req' ⟨⟩
  exact h5 r hp hn hr

/-- The timer of a relay has fired, and its client is told. -/
theorem Directed.timed (h : Directed w) (rel : Relay) (what : RelayWhat) :
    Directed (timed w r rel what) := by
  have h0 : Directed (w.setRelay r { rel with tmrConnectd := false }) := h.of_eq rfl rfl rfl
  exact h0.log_idle rfl

/-- The body bytes that wait are for the current relay. -/
theorem Directed.waiting {cl : Client} {b : BodyBuffer} (h : Directed w)
    (hc : w.clients c = some cl) (hr : cl.relay = some r) (hb : b ∈ cl.listRequestBodyBuffer) :
    .create r c b.req ∈ w.trace := by
  obtain ⟨r', hr', hmem⟩ := (h.client c cl hc).waiting b hb
  rw [hr, Option.some.injEq] at hr'
  exact hr' ▸ hmem

/-- A frame that ends a response finds no body bytes waiting. -/
theorem BodiesCurrent.frame {s : StreamId} {st : Stream} {frame : Frame} {rel : Relay}
    {cl : Client} (hg : BodiesCurrent w (.recvFrame s frame) = true) (ht : w.tunnel = .connected)
    (hs : w.streams s = some st) (hopen : (st.shutRd || st.closing) = false)
    (hu : st.userData = some r) (hr : w.relays r = some rel) (ha : rel.isAttached = true)
    (hcomp : frame.completes = true) (hc : w.clients rel.args = some cl) :
    cl.listRequestBodyBuffer = [] := by
  rw [Bool.or_eq_false_iff] at hopen
  simpa [BodiesCurrent, ht, hs, hopen, hu, hr, ha, hcomp, hc] using hg

/-- **Every event that meets the condition keeps the invariant.** -/
theorem Directed.handled {e : Event} (h : Directed w) (hg : BodiesCurrent w e = true)
    (hh : Handled w e w') : Directed w' := by
  cases hh with
  | skip => exact h
  | accept =>
    constructor
    · intro c cl hc
      rw [World.addClient_clients, Function.update_apply] at hc
      split_ifs at hc
      · obtain rfl := Option.some.inj hc
        constructor <;> simp
      · exact h.client c cl hc
    · exact h.directs
    · exact h.fresh
  | msgBegin hc hp hb => exact h.begun hc hb
  | reqHeader hc hk hs he => exact h.ctl hc hk
  | headersComplete hc hp hd => exact h.headersDone hc hp hd
  | @bodyQueued c data cl r rel hc hp hr hrel hst =>
    -- no request is pending, so the body is for the current relay
    simp only [BodiesCurrent, hc, Option.all_some] at hg
    exact h.bodyQueued data hc hp hr (DirectedClient.not_pending hg hp)
  | @bodyWritten c data cl r rel _ hc hp hr hrel hst hs =>
    simp only [BodiesCurrent, hc, Option.all_some] at hg
    have hn := DirectedClient.not_pending hg hp
    have h0 : Directed (w.log (.writeBody r c cl.reqNo data)) := by
      refine h.log ?_ (by simp)
      rintro r' c' req' ⟨⟩
      exact (h.client c cl hc).current r hp hn hr
    exact h0.sent hs
  | @messageComplete c cl r _ hc hp hr hw =>
    simp only [BodiesCurrent, hc, Option.all_some] at hg
    exact (h.messageComplete hc hp hr (DirectedClient.not_pending hg hp)).wrote hw
  | clientGone hd => exact h.dropped hd
  | writable hc hm hd => exact h.writable hd
  | @timerConnected r rel cl r1 hd rel1 w1 _ hr ht hs h1 h2 =>
    -- what waited is written now, to the relay of the request that it came with
    have h0 : Directed (H2ClientProxy.timed w r rel .connected) := h.timed rel .connected
    refine (h0.submits h1).bodiesWritten h2 fun b hb => ?_
    exact h1.trace_mem (h0.waiting h1.client h1.current hb)
  | @timerFailed r rel hr ht hs hc => exact (h.timed rel .errConnFailed).dropClient rel.args
  | tunnelConnected ht => exact h.of_eq rfl rfl rfl
  | tunnelFailed ht hd =>
    have h0 : Directed (w.setTunnel .closed w.sSession) := h.of_eq rfl rfl rfl
    exact (h0.dropClients hd).of_eq rfl rfl rfl
  | recvHeader ht hs hu hr hdr => exact h.of_eq rfl rfl rfl
  | frame ht hs hopen h1 h2 =>
    -- a response that ends finds no body waiting for a relay
    have hw1 := h.reported
      (fun r rel cl hu hr ha hcomp hc => BodiesCurrent.frame hg ht hs hopen hu hr ha hcomp hc) h1
    split_ifs at h2
    · exact hw1.shutRd h2
    · exact h2 ▸ hw1
  | rst ht hs h1 h2 h3 =>
    refine Directed.sent ?_ h2
    cases h1 with
    | ignored => exact h
    | dropped hu hr ha hc => exact h.failed
  | recvData ht hs hopen hd => exact h.chunkDone hd
  | protocolError ht hs h1 h2 =>
    split_ifs at h2
    · exact (h.sent h1).shutRd h2
    · exact h2 ▸ h.sent h1
  | goaway ht hs hq =>
    have h0 : Directed w.setGoaway := h.of_eq rfl rfl rfl
    exact h0.sent hs
  | connectionError ht => exact h.of_eq rfl rfl rfl
  | sessionSend ht hs => exact h.sent hs

/-! ### Faults -/

theorem FaultTrace.directs (hf : FaultTrace w w') (h : Directs w.trace) : Directs w'.trace := by
  obtain ht | ⟨r, ht⟩ := hf <;> rw [ht]
  · exact h
  · exact h.concat_idle rfl

theorem HeadersFault.directs {err : Fault} (hf : HeadersFault r w err w') (h : Directed w) :
    Directs w'.trace := by
  cases hf with
  | noHeader _ ht => exact ht ▸ h.directs
  | @heading ends rel rel1 hr hk he ht => exact ht ▸ (h.heading rel1).directs
  | @ending rel1 w1 h1 hr1 he ht =>
    have hw1 : Directed w1 := by
      rcases h1 with rfl | ⟨_, hp⟩
      · exact h
      · exact h.hdrPhase hp
    rw [ht]
    exact hw1.directs.concat_idle rfl

theorem BodiesWritten.trace_mem {bs : List BodyBuffer} {o : Obs} (hb : BodiesWritten c r bs w w')
    (ho : o ∈ w.trace) : o ∈ w'.trace := by
  induction hb with
  | nil => exact ho
  | cons h1 _ ih =>
    apply ih
    rw [h1.trace]
    exact List.mem_append_left _ ho

/-- The request is noted, and the body bytes that are written belong to the current relay. -/
theorem ConnectFault.directs {err : Fault} (hf : ConnectFault c w err w') (h : Directed w) :
    Directs w'.trace := by
  cases hf with
  | early ht _ => exact ht ▸ h.directs
  | submit hc hr hh ht _ =>
    rw [ht]
    exact h.directs.concat_idle rfl
  | @bodies cl r hd rel w1 w2 done rest b hs hb hw ht _ =>
    have hmem : ∀ b' ∈ cl.listRequestBodyBuffer, .create r c b'.req ∈ w1.trace :=
      fun b' hb' => hs.trace_mem (h.waiting hs.client hs.current hb')
    rw [hb] at hmem
    have hw2 : Directed w2 :=
      (h.submits hs).bodiesWritten hw fun b' hb' => hmem b' (List.mem_append_left _ hb')
    rw [ht]
    refine hw2.directs.concat ?_ (by simp)
    rintro r' c' req' ⟨⟩
    refine hw.trace_mem (hmem b ?_)
    exact List.mem_append_right _ (List.mem_cons_self ..)

/-- **A fault leaves the bytes where they were.** -/
theorem Directed.handleFault {e : Event} {err : Fault} (h : Directed w)
    (hg : BodiesCurrent w e = true) (hf : HandleFault w e err w') : Directs w'.trace := by
  cases hf with
  | plain _ ht => exact ht ▸ h.directs
  | headers _ _ _ _ ht =>
    rw [ht]
    exact h.directs.concat_idle rfl
  | body _ _ _ ht => exact ht ▸ h.directs
  | @bodyWrite c data cl r rel _ _ hc hp hr hrel hst _ ht =>
    -- the fault comes behind the record of the write
    simp only [BodiesCurrent, hc, Option.all_some] at hg
    rw [ht]
    refine h.directs.concat ?_ (by simp)
    rintro r' c' req' ⟨⟩
    exact (h.client c cl hc).current r hp (DirectedClient.not_pending hg hp) hr
  | messageComplete _ _ _ ht => exact ht ▸ h.directs
  | clientGone _ _ _ ht => exact ht.directs h.directs
  | writable _ _ _ ht => exact ht.directs h.directs
  | timerConnected _ _ _ hc => exact hc.directs (h.timed _ _)
  | timerFailed _ _ _ ht => exact ht ▸ (h.timed _ _).directs
  | @tunnelFailed dropped rest r _ w1 _ ht hrs h1 h2 =>
    -- the clients of the relays before the bad one are dropped by then
    have h0 : Directed (w.setTunnel .closed w.sSession) := h.of_eq rfl rfl rfl
    have hw1 : Directed w1 := h0.dropClients h1
    cases h2 with
    | stale _ _ htr => exact htr ▸ hw1.directs
    | attached _ _ _ htr =>
      rw [htr]
      exact hw1.directs.concat_idle rfl
    | detached _ _ _ htr => exact htr ▸ hw1.directs
  | stale _ _ _ _ _ htr => exact htr ▸ h.directs
  | frame _ _ _ _ _ _ _ hf => exact hf.directs h
  | frameEnd ht hs hopen h1 _ _ htr =>
    rw [htr]
    exact (h.reported
      (fun r rel cl hu hr ha hcomp hc => BodiesCurrent.frame hg ht hs hopen hu hr ha hcomp hc)
      h1).directs
  | rst _ _ _ _ _ _ htr =>
    rw [htr]
    exact h.directs.concat_idle rfl
  | rstClose _ _ h1 _ _ htr =>
    rw [htr]
    cases h1 with
    | ignored => exact h.directs
    | dropped _ _ _ _ => exact h.directs.concat_idle rfl
  | recvData _ _ _ hc =>
    cases hc with
    | stale _ _ _ htr => exact htr ▸ h.directs
    | body _ _ _ _ htr => exact htr ▸ (h.chunked _ _).directs
    | send _ _ _ h1 _ htr => exact htr ▸ ((h.chunked _ _).bodyDone h1).directs
  | send _ _ htr => exact htr ▸ h.directs

/-! ### Runs -/

theorem Directed.prepared (h : Directed w) (i : Input) : Directed (prepared w i) :=
  h.of_eq rfl rfl rfl

/-- **Body bytes go where they belong.**  In a run in which the body callbacks find no pending
request and the responses end with no body bytes waiting, every relay receives only the bytes and
the completion of the request it was created for. -/
theorem wp_run_directs (is : List Input)
    (hG : Meets step (fun w i => BodiesCurrent w i.event = true) is World.init) :
    wp (run step is) (fun _ w => Directs w.trace) (fun _ w => Directs w.trace) World.init := by
  have hstep : ∀ (w : World) (i : Input), Directed w → BodiesCurrent w i.event = true →
      wp (step i) (fun _ => Directed) (fun _ w => Directs w.trace) w := by
    intro w i h hg
    have hg' : BodiesCurrent (H2ClientProxy.prepared w i) i.event = true := hg
    apply step_spec i
    · exact fun w' hh => (h.prepared i).handled hg' hh
    · exact fun err w' hf => (h.prepared i).handleFault hg' hf
  have hrun := run_wp hstep is World.init directed_init hG
  exact wp_mono hrun (fun _ _ h => h.directs) fun _ _ => id

/-- A request whose body comes before its relay is connected, its response, and then a request
whose body comes afterwards. -/
theorem wp_run_directs_uploads :
    Meets step (fun w i => BodiesCurrent w i.event = true)
      (inputs (opening ++ requestHead 0 (bytes "POST") ++ [.body 0 (bytes "a"), .timer 0,
        .messageComplete 0] ++ emptyResponse 1 ++ requestHead 0 (bytes "POST") ++ [.timer 1,
        .body 0 (bytes "b"), .messageComplete 0])) World.init ∧
    wp (run step
        (inputs (opening ++ requestHead 0 (bytes "POST") ++ [.body 0 (bytes "a"), .timer 0,
          .messageComplete 0] ++ emptyResponse 1 ++ requestHead 0 (bytes "POST") ++ [.timer 1,
          .body 0 (bytes "b"), .messageComplete 0])))
      (fun _ w => Directs w.trace) (fun _ w => Directs w.trace) World.init :=
  ⟨by decide +kernel, wp_run_directs _ (by decide +kernel)⟩

/-- Two pipelined requests: the body and the completion of the second go to the relay of the
first. -/
theorem not_directs : ¬ ∀ is : List Input,
    wp (run step is) (fun _ w => Directs w.trace) (fun _ w => Directs w.trace) World.init := by
  intro h
  have h1 := h (inputs (opening ++ getRequest 0 ++ [Event.timer 0] ++ requestHead 0 (bytes "POST") ++
    [Event.body 0 (bytes "x"), .messageComplete 0]))
  have h2 : wp (run step (inputs (opening ++ getRequest 0 ++ [Event.timer 0] ++
        requestHead 0 (bytes "POST") ++ [Event.body 0 (bytes "x"), .messageComplete 0])))
      (fun _ w => .writeBody 0 0 2 (bytes "x") ∈ w.trace ∧ .create 0 0 2 ∉ w.trace)
      (fun _ _ => False) World.init := by
    decide +kernel
  obtain ⟨_, w, hd, hmem, hnot⟩ := exists_of_wp (Q := fun _ w => Directs w.trace ∧
      .writeBody 0 0 2 (bytes "x") ∈ w.trace ∧ .create 0 0 2 ∉ w.trace)
    (wp_mono (wp_and h1 h2) (fun _ _ => id) fun _ _ he => he.2)
  exact hnot (hd.received _ hmem 0 0 2 rfl)

end H2ClientProxy
