import H2ClientProxy.Equiv.Linked

/-!
# Which relays hold their session

`relay_create` copies `s_session` into `relay->session`, and `relay_send_request` submits on the
`s_session` of a later moment.  A relay that is created while the tunnel is still being connected
therefore keeps a `NULL` session for good, also when its request is submitted after the tunnel has
come up; closing it, resuming it or freeing it then hands that `NULL` to nghttp2.

* `usedRelays`: the relays whose session the handler of an event needs;
* `Held`: the invariant; a relay without a session has no stream and has not been used;
* `wp_run_held`: in a run in which every relay that is used holds its session, nghttp2 is never
  called with a `NULL` session, and every relay that was submitted holds the session of its stream.
-/

namespace H2ClientProxy

open Wp Machine SendQueue

variable {D : StreamId → Prop} {w w' : World} {r : RelayId} {c : ClientId}

/-! ### The condition -/

/-- The relays whose session is needed when an event is handled: the relay of a client that is
dropped or resumed, the relay of the client that submits its request, and all relays when the tunnel
fails. -/
def usedRelays (w : World) : Event → List RelayId
  | .clientGone c => ((w.clients c).bind Client.relay).toList
  | .writable c =>
    if (w.clients c).any fun cl => wantsWrite cl.file.mask then
      ((w.clients c).bind Client.relay).toList
    else []
  | .timer r =>
    match w.relays r with
    | some rel =>
      if rel.tmrConnectd && w.sSession then ((w.clients rel.args).bind Client.relay).toList else []
    | none => []
  | .tunnelFailed => if w.tunnel = .closed then [] else w.sListRelays
  | _ => []

/-- Each of them holds its session. -/
def UsesHeld (w : World) (e : Event) : Bool :=
  (usedRelays w e).all fun r => (w.relays r).all Relay.session

/-- The relay `r`, if it is there, holds its session. -/
def Holds (w : World) (r : RelayId) : Prop := ∀ rel, w.relays r = some rel → rel.session = true

theorem UsesHeld.holds {e : Event} (h : UsesHeld w e = true) (hr : r ∈ usedRelays w e) :
    Holds w r := by
  intro rel hrel
  have h1 := List.all_eq_true.mp h r hr
  rw [hrel] at h1
  exact h1

/-- The current relay of a client is among them if the client is dropped or resumed. -/
theorem UsesHeld.current {e : Event} {cl : Client} (h : UsesHeld w e = true)
    (he : usedRelays w e = ((w.clients c).bind Client.relay).toList)
    (hc : w.clients c = some cl) (hcr : cl.relay = some r) : Holds w r := by
  apply UsesHeld.holds h
  rw [he, hc, Option.bind_some, hcr]
  exact List.mem_singleton_self r

/-! ### The invariant -/

/-- A relay without a session has no stream and has not been used. -/
structure Held (w : World) : Prop where
  sessions : SessionsOk w
  unused : ∀ r rel, w.relays r = some rel → rel.session = false →
    rel.streamId = 0 ∧ rel.relayStatus = .connecting

/-- The relay of an open stream holds its session. -/
theorem Held.holds {s : StreamId} {st : Stream} (h : Held w) (hs : w.streams s = some st)
    (hu : st.userData = some r) : Holds w r :=
  fun rel hr => h.sessions s st r rel hs hu hr

/-- So does a relay that has been used. -/
theorem Held.session_of_used {rel : Relay} (h : Held w) (hr : w.relays r = some rel)
    (hst : rel.relayStatus ≠ .connecting) : rel.session = true := by
  by_contra hs
  rw [Bool.not_eq_true] at hs
  exact hst (h.unused r rel hr hs).2

/-! ### Elementary changes -/

theorem Held.of_eq (h : Held w) (hs : w'.streams = w.streams) (hr : w'.relays = w.relays) :
    Held w' := by
  constructor
  · intro s st r rel
    rw [hs, hr]
    exact h.sessions s st r rel
  · rw [hr]
    exact h.unused

theorem Held.quiet (h : Held w) (hq : Quiet D w w') : Held w' := by
  constructor
  · exact h.sessions.effect (fun _ _ => RelayKept.session) hq
  · intro r rel' hr' hsess
    obtain ⟨rel, hr, hid, hk⟩ := hq.relays r rel' hr'
    have h1 := h.unused r rel hr (hk.session ▸ hsess)
    exact ⟨hid.trans h1.1, hk.relayStatus.trans h1.2⟩

theorem Holds.quiet (h : Holds w r) (hq : Quiet D w w') : Holds w' r := by
  intro rel' hr'
  obtain ⟨rel, hr, _, hk⟩ := hq.relays r rel' hr'
  rw [hk.session]
  exact h rel hr

/-- A relay may change if its session stays, and if it holds one or is left unused. -/
theorem Held.setRelay {rel rel' : Relay} (h : Held w) (hr : w.relays r = some rel)
    (hsess : rel'.session = rel.session)
    (hun : rel.session = true ∨
      rel'.streamId = rel.streamId ∧ rel'.relayStatus = rel.relayStatus) :
    Held (w.setRelay r rel') := by
  constructor
  · intro s st r1 rel1 hs hu hr1
    rw [World.setRelay_relays, Function.update_apply] at hr1
    split_ifs at hr1 with he
    · obtain rfl := Option.some.inj hr1
      rw [hsess]
      exact h.sessions s st r rel hs (he ▸ hu) hr
    · exact h.sessions s st r1 rel1 hs hu hr1
  · intro r1 rel1 hr1 hs1
    rw [World.setRelay_relays, Function.update_apply] at hr1
    split_ifs at hr1
    · obtain rfl := Option.some.inj hr1
      rw [hsess] at hs1
      have h1 := h.unused r rel hr hs1
      rcases hun with hun | ⟨hid, hst⟩
      · rw [hun] at hs1
        exact absurd hs1 (by simp)
      · exact ⟨hid.trans h1.1, hst.trans h1.2⟩
    · exact h.unused r1 rel1 hr1 hs1

/-- The same for a relay that may have been freed. -/
theorem Held.wrote {f : Relay → Relay} (h : Held w) (hw : Wrote r f w w')
    (hf : ∀ rel, (f rel).session = rel.session)
    (hun : Holds w r ∨
      ∀ rel, (f rel).streamId = rel.streamId ∧ (f rel).relayStatus = rel.relayStatus) :
    Held w' := by
  rcases hw with ⟨rel, hr, rfl⟩ | ⟨_, rfl⟩
  · exact h.setRelay hr (hf rel) (hun.imp (fun h1 => h1 rel hr) fun h1 => h1 rel)
  · exact h.of_eq rfl rfl

theorem Holds.wrote {f : Relay → Relay} (h : Holds w r) (hw : Wrote r f w w')
    (hf : ∀ rel, (f rel).session = rel.session) : Holds w' r := by
  intro rel' hr'
  rcases hw with ⟨rel, hr, rfl⟩ | ⟨hr, rfl⟩
  · rw [World.setRelay_relays, Function.update_self, Option.some.injEq] at hr'
    rw [← hr', hf]
    exact h rel hr
  · exact h rel' hr'

/-- A new relay is named by no stream, and unused. -/
theorem Held.addRelay (h : Held w) (hl : Linked w) (b : Bool) (c : ClientId) :
    Held (w.addRelay { session := b, args := c }) := by
  constructor
  · intro s st r rel hs hu hr
    rw [World.addRelay_relays, Function.update_apply] at hr
    split_ifs at hr with he
    · have hlt : r < w.nextRelay := (hl.stream_lt s st hs).2.2 r hu
      exact absurd he hlt.ne
    · exact h.sessions s st r rel hs hu hr
  · intro r rel hr hsess
    rw [World.addRelay_relays, Function.update_apply] at hr
    split_ifs at hr
    · obtain rfl := Option.some.inj hr
      exact ⟨rfl, rfl⟩
    · exact h.unused r rel hr hsess

theorem Held.mapStream {s : StreamId} {f : Stream → Stream} (h : Held w)
    (hf : ∀ st, (f st).userData = st.userData) : Held (w.mapStream s f) :=
  ⟨h.sessions.mapStream hf, h.unused⟩

/-- A request is submitted for a relay that holds its session. -/
theorem Held.submitted {rel : Relay} (h : Held w) (hsess : rel.session = true) (hd : Header) :
    Held (submitted w r rel hd) := by
  constructor
  · intro s st r1 rel1 hs hu hr1
    rw [submitted_relays, Function.update_apply] at hr1
    rw [submitted_streams, Function.update_apply] at hs
    split_ifs at hr1 with he
    · obtain rfl := Option.some.inj hr1
      exact hsess
    · split_ifs at hs with hes
      · obtain rfl := Option.some.inj hs
        exact absurd (Option.some.inj hu).symm he
      · exact h.sessions s st r1 rel1 hs hu hr1
  · intro r1 rel1 hr1 hs1
    rw [submitted_relays, Function.update_apply] at hr1
    split_ifs at hr1
    · obtain rfl := Option.some.inj hr1
      rw [hsess] at hs1
      exact absurd hs1 (by simp)
    · exact h.unused r1 rel1 hr1 hs1

theorem Held.freed {rel : Relay} (h : Held w) : Held (freed w r rel) := by
  constructor
  · intro s st r1 rel1 hs hu hr1
    have hs' : (w.mapStream rel.streamId ({ · with userData := none })).streams s = some st := hs
    obtain ⟨st0, hst0, rfl⟩ := World.mapStream_eq_some hs'
    split_ifs at hu
    exact h.sessions s st0 r1 rel1 hst0 hu (freed_relays_eq_some hr1).2
  · intro r1 rel1 hr1
    exact h.unused r1 rel1 (freed_relays_eq_some hr1).2

/-! ### The handlers -/

theorem Held.setClient {cl : Option Client} (h : Held w) : Held (w.setClient c cl) :=
  h.of_eq rfl rfl

theorem Held.timed {rel : Relay} (h : Held w) (hr : w.relays r = some rel) (what : RelayWhat) :
    Held (timed w r rel what) := by
  have h1 : Held (w.setRelay r { rel with tmrConnectd := false }) :=
    h.setRelay hr rfl (Or.inr ⟨rfl, rfl⟩)
  exact h1.of_eq rfl rfl

theorem Held.ending {rel : Relay} (h : Held w) (hh : Holds w r) (hr : w.relays r = some rel) :
    Held (ending w r rel) := by
  have h1 : Held (w.setRelay r { rel with relayStatus := .msgComplete }) :=
    h.setRelay hr rfl (Or.inl (hh rel hr))
  exact h1.of_eq rfl rfl

theorem Held.heading {ends : Bool} {rel rel1 : Relay} (h : Held w) (hh : Holds w r)
    (hr : w.relays r = some rel) (hk : Checked ends rel rel1) : Held (heading w r rel1) := by
  have h1 : Held (w.setRelay r { rel1 with relayStatus := .headerComplete }) :=
    h.setRelay hr hk.kept.1.session (Or.inl (hh rel hr))
  exact h1.of_eq rfl rfl

theorem Held.chunked {rel : Relay} (h : Held w) (hr : w.relays r = some rel) (s : StreamId)
    (data : Bytes) : Held (chunked w s r rel data) := by
  have h1 : Held (w.mapStream s fun st => { st with recvLen := st.recvLen + data.length }) :=
    h.mapStream fun _ => rfl
  have h2 : Held ((w.mapStream s fun st => { st with recvLen := st.recvLen + data.length }).setRelay
      r { rel with bodyData := data }) := h1.setRelay hr rfl (Or.inr ⟨rfl, rfl⟩)
  exact h2.of_eq rfl rfl

theorem Held.msgDone (h : Held w) (hl : Linked w) (hm : MsgDone c w w') : Held w' := by
  obtain ⟨cl, r, rel, w1, hc, hr, hrel, hw1, hend⟩ := hm
  obtain ⟨h1, hl1⟩ : Held w1 ∧ Linked w1 := by
    rcases hw1 with ⟨_, rfl⟩ | ⟨_, rfl⟩
    · exact ⟨h, hl⟩
    · have hq : Quiet (fun _ => False) w (wroteTo w c cl lastChunk) :=
        (written_wroteTo hc lastChunk).quiet
      exact ⟨h.quiet hq, hl.quiet hq⟩
  rcases hend with ⟨_, rfl⟩ | ⟨_, hn⟩
  · exact h.setClient
  · cases hn with
    | idle hc1 hp => exact h1.setClient
    | next hc1 hp => exact (h1.addRelay hl1 w1.sSession c).of_eq rfl rfl

theorem Held.msgPhase (h : Held w) (hl : Linked w) (hh : Holds w r) (hm : MsgPhase r w w') :
    Held w' := by
  obtain ⟨rel, hr, hd⟩ := hm
  exact (h.ending hh hr).msgDone (hl.ending hr) hd

theorem Held.hdrPhase {ends : Bool} (h : Held w) (hh : Holds w r) (hp : HdrPhase ends r w w') :
    Held w' ∧ Holds w' r := by
  obtain ⟨rel, rel1, cl, r1, data, hr, hk, hc, _, _, _, rfl⟩ := hp
  have hq : Quiet (fun _ => False) (H2ClientProxy.heading w r rel1)
      (wroteTo (H2ClientProxy.heading w r rel1) rel.args cl data) :=
    (written_wroteTo (w := H2ClientProxy.heading w r rel1) hc data).quiet
  refine ⟨(h.heading hh hr hk).quiet hq, Holds.quiet ?_ hq⟩
  intro rel' hr'
  rw [H2ClientProxy.heading, World.log_relays, World.setRelay_relays, Function.update_self,
    Option.some.injEq] at hr'
  rw [← hr']
  exact hk.kept.1.session.trans (hh rel hr)

theorem Held.reported {userData : Option RelayId} {frame : Frame} (h : Held w) (hl : Linked w)
    (hh : ∀ r, userData = some r → Holds w r) (hr : Reported w userData frame w') : Held w' := by
  cases hr with
  | ignored => exact h
  | @phases r rel w1 _ hu hr ha h1 h2 =>
    obtain ⟨hh1, hhold1, hl1⟩ : Held w1 ∧ Holds w1 r ∧ Linked w1 := by
      split_ifs at h1
      · obtain ⟨ha1, hb1⟩ := h.hdrPhase (hh r hu) h1
        exact ⟨ha1, hb1, hl.hdrPhase h1⟩
      · exact h1 ▸ ⟨h, hh r hu, hl⟩
    split_ifs at h2
    · exact hh1.msgPhase hl1 hhold1 h2
    · exact h2 ▸ hh1

theorem Held.shutRd {s : StreamId} (h : Held w) (hs : ShutRd s w w') : Held w' := by
  have h1 : Held (w.mapStream s ({ · with shutRd := true })) := h.mapStream fun _ => rfl
  exact h1.quiet hs.quiet

theorem Held.dropClients {rs : List RelayId} (h : Held w) (hd : DropClients rs w w') :
    Held w' := by
  induction hd with
  | nil => exact h
  | @cons r rs w w1 w' h1 _ ih =>
    refine ih ?_
    cases h1 with
    | @attached rel hr ha hc =>
      have h2 : Held ((w.log (.event r .errConnFailed rel.responseHeader rel.bodyData)).setClient
          rel.args none) := h.of_eq rfl rfl
      exact h2.freed
    | detached hr ha => exact h.freed

/-- Dropping relays leaves no relay that was not there. -/
theorem DropClients.relays_of_some {rs : List RelayId} {rel : Relay} (hd : DropClients rs w w')
    (hr : w'.relays r = some rel) : w.relays r = some rel := by
  induction hd with
  | nil => exact hr
  | cons h1 _ ih => exact h1.relays (ih hr)

theorem Held.dropped (h : Held w) (hd : Dropped c w w') : Held w' := by
  obtain ⟨cl, hc, ⟨_, rfl⟩ | ⟨r, rel, w1, w2, hr, hrel, h1, h2, rfl⟩⟩ := hd
  · exact h.setClient
  · have h0 : Held (w.log (.close r)) := h.of_eq rfl rfl
    have hw2 : Held w2 := (h0.quiet h1.quiet).wrote h2 (fun _ => rfl) (Or.inr fun _ => ⟨rfl, rfl⟩)
    exact hw2.setClient

theorem Held.resumed (h : Held w) (hr : Resumed r w w') : Held w' := by
  obtain ⟨w1, h1, h2⟩ := hr.quiet
  exact (h.quiet h1).wrote h2 (fun _ => rfl) (Or.inr fun _ => ⟨rfl, rfl⟩)

theorem Held.writable (h : Held w) (hd : WritableDone c w w') : Held w' := by
  have hsend : ∀ sends cl, Held ((w.setSends sends).setClient c cl) := fun _ _ => h.of_eq rfl rfl
  cases hd with
  | empty hc hq hr hres => exact h.resumed hres
  | error hc hq hout herr hdrop => exact (hsend _ _).dropped hdrop
  | full hc hq hout herr hlen hw => exact hw ▸ hsend _ _
  | resumed hc hq hout herr hlen hr hres => exact (hsend _ _).resumed hres

/-- The request is submitted by a client whose relay holds its session. -/
theorem Held.submits {cl : Client} {hd : Header} {rel : Relay} (h : Held w)
    (hs : Submits c cl r hd rel w w') (hsess : rel.session = true) : Held w' ∧ Holds w' r := by
  obtain ⟨w1, h1, h2⟩ := hs.sent
  have h0 : Held (connecting w c cl r hd) := h.of_eq rfl rfl
  have hsub := h0.submitted (r := r) hsess hd
  have hhold : Holds (H2ClientProxy.submitted (connecting w c cl r hd) r rel hd) r := by
    intro rel' hr'
    rw [submitted_relays, Function.update_self, Option.some.injEq] at hr'
    rw [← hr']
    exact hsess
  have hhold1 : Holds w1 r := hhold.quiet h1.quiet
  refine ⟨(hsub.quiet h1.quiet).wrote h2 (fun _ => rfl) (Or.inl hhold1), ?_⟩
  exact hhold1.wrote h2 fun _ => rfl

theorem Held.bodiesWritten {bs : List BodyBuffer} (h : Held w) (hh : Holds w r)
    (hb : BodiesWritten c r bs w w') : Held w' ∧ Holds w' r := by
  induction hb with
  | nil => exact ⟨h, hh⟩
  | @cons b bs w w1 w' h1 _ ih =>
    have h0 : Held (w.log (.writeBody r c b.req b.data)) := h.of_eq rfl rfl
    have hh0 : Holds (w.log (.writeBody r c b.req b.data)) r := hh
    exact ih (h0.quiet h1.quiet) (hh0.quiet h1.quiet)

theorem Held.chunkDone {s : StreamId} {st : Stream} {data : Bytes} (h : Held w)
    (hc : ChunkDone w s st data w') : Held w' := by
  cases hc with
  | ignored => exact h.mapStream fun _ => rfl
  | @written r rel rel1 w1 w2 _ hu hr ha h1 hr1 h2 h3 =>
    have hl1 : Held w1 := (h.chunked hr s data).quiet (D := fun _ => False) h1.quiet
    have hl2 : Held w2 := by
      split_ifs at h2
      · exact h2 ▸ hl1.mapStream fun _ => rfl
      · exact h2 ▸ hl1
    exact hl2.quiet h3.quiet

/-- The relay of the client whose timer fires holds its session. -/
theorem UsesHeld.timer {rel : Relay} {cl : Client} {r1 : RelayId}
    (h : UsesHeld w (.timer r) = true) (hr : w.relays r = some rel) (ht : rel.tmrConnectd = true)
    (hs : w.sSession = true) (hc : w.clients rel.args = some cl) (hcr : cl.relay = some r1) :
    Holds w r1 := by
  refine UsesHeld.current h ?_ hc hcr
  simp only [usedRelays, hr, ht, hs, Bool.and_self, if_true]

/-- The timer that has fired leaves the sessions alone. -/
theorem Holds.timed {rel : Relay} {r1 : RelayId} (h : Holds w r1) (hr : w.relays r = some rel)
    (what : RelayWhat) : Holds (timed w r rel what) r1 := by
  intro rel1 hr1
  rw [H2ClientProxy.timed, World.log_relays, World.setRelay_relays, Function.update_apply] at hr1
  split_ifs at hr1 with he
  · obtain rfl := Option.some.inj hr1
    exact h rel (he ▸ hr)
  · exact h rel1 hr1

/-- **Every event that uses only relays that hold their session keeps the invariant.** -/
theorem Held.handled {e : Event} (h : Held w) (hl : Linked w) (hg : UsesHeld w e = true)
    (hh : Handled w e w') : Held w' := by
  cases hh with
  | skip => exact h
  | accept => exact h.of_eq rfl rfl
  | msgBegin hc hp hb => exact h.setClient
  | reqHeader hc hk hs => exact h.setClient
  | @headersComplete c method cl _ hc hp hd =>
    cases hd with
    | pending hh hid hp => exact h.of_eq rfl rfl
    | create hh hid hp => exact (h.addRelay hl w.sSession c).of_eq rfl rfl
  | bodyQueued hc hp hr hrel hst => exact h.setClient
  | @bodyWritten c data cl r rel _ hc hp hr hrel hst hs =>
    have h0 : Held (w.log (.writeBody r c cl.reqNo data)) := h.of_eq rfl rfl
    exact h0.quiet hs.quiet
  | @messageComplete c cl r _ hc hp hr hw =>
    have h0 : Held ((w.setClient c (some { cl with parser := .idle })).log
        (.completeRequest r c cl.reqNo)) := h.of_eq rfl rfl
    exact h0.wrote hw (fun _ => rfl) (Or.inr fun _ => ⟨rfl, rfl⟩)
  | clientGone hd => exact h.dropped hd
  | writable hc hm hd => exact h.writable hd
  | @timerConnected r rel cl r1 hd rel1 w1 _ hr ht hs h1 h2 =>
    -- the condition gives the session to the relay that submits, not to the one whose timer fired
    have hhold : Holds w r1 := UsesHeld.timer hg hr ht hs h1.client h1.current
    have hsess := (hhold.timed hr .connected) rel1 h1.relay
    obtain ⟨hw1, hh1⟩ := (h.timed hr _).submits h1 hsess
    exact (hw1.bodiesWritten hh1 h2).1
  | timerFailed hr ht hs hc => exact (h.timed hr _).setClient
  | tunnelConnected ht => exact h.of_eq rfl rfl
  | tunnelFailed ht hd =>
    have h0 : Held (w.setTunnel .closed w.sSession) := h.of_eq rfl rfl
    exact (h0.dropClients hd).of_eq rfl rfl
  | recvHeader ht hs hu hr hdr => exact h.setRelay hr rfl (Or.inr ⟨rfl, rfl⟩)
  | frame ht hs hopen h1 h2 =>
    have hw1 := h.reported hl (fun r hu => h.holds hs hu) h1
    split_ifs at h2
    · exact hw1.shutRd h2
    · exact h2 ▸ hw1
  | rst ht hs h1 h2 h3 =>
    refine Held.quiet ?_ h2.quiet
    cases h1 with
    | ignored => exact h
    | @dropped r rel hu hr ha hc =>
      -- the client is dropped before its relay is freed
      have h0 : Held ((w.log (.event r .errConnFailed rel.responseHeader rel.bodyData)).setClient
          rel.args none) := h.of_eq rfl rfl
      exact h0.freed
  | recvData ht hs hopen hd => exact h.chunkDone hd
  | protocolError ht hs h1 h2 =>
    split_ifs at h2
    · exact (h.quiet h1.quiet).shutRd h2
    · exact h2 ▸ h.quiet h1.quiet
  | goaway ht hs hq =>
    have h0 : Held w.setGoaway := h.of_eq rfl rfl
    exact h0.quiet hs.quiet
  | connectionError ht => exact h.of_eq rfl rfl
  | sessionSend ht hs => exact h.quiet hs.quiet

/-! ### Faults -/

theorem Held.sendFault {err : Fault} (h : Held w) (he : SendFault w err) : err ≠ .nullSession := by
  rintro rfl
  exact he h.sessions

theorem ClientFault.ne_nullSession {err : Fault} (he : ClientFault w c err) :
    err ≠ .nullSession := by
  rintro rfl
  exact he

theorem Held.relayFault {err : Fault} (h : Held w) (hh : Holds w r) (he : RelayFault w r err) :
    err ≠ .nullSession := by
  rintro rfl
  obtain ⟨rel, hr, hs | hs⟩ := he
  · rw [hh rel hr] at hs
    exact absurd hs (by simp)
  · exact hs h.sessions

theorem Held.socketFault {e : Event} {err : Fault} (h : Held w) (hg : UsesHeld w e = true)
    (hu : usedRelays w e = ((w.clients c).bind Client.relay).toList) (he : SocketFault w c err) :
    err ≠ .nullSession := by
  rcases he with he | ⟨rfl, cl, r, rel, hc, hcr, hr, hs⟩
  · exact he.ne_nullSession
  · have hhold : Holds w r := UsesHeld.current hg hu hc hcr
    rcases hs with hs | hs
    · rw [hhold rel hr] at hs
      exact absurd hs (by simp)
    · exact absurd h.sessions hs

theorem Held.connectFault {err : Fault} (h : Held w)
    (hh : ∀ cl r, w.clients c = some cl → cl.relay = some r → Holds w r) (hs : w.sSession = true)
    (hf : ConnectFault c w err w') : err ≠ .nullSession := by
  cases hf with
  | early ht he => rcases he with rfl | rfl | rfl <;> simp
  | @submit cl r hd hc hr hhd ht he =>
    rintro rfl
    have h0 : Held (connecting w c cl r hd) := h.of_eq rfl rfl
    rcases he with he | ⟨hd', rel, _, hrel, he⟩
    · have hs' : w.sSession = false := he
      rw [hs] at hs'
      exact absurd hs' (by simp)
    · exact he (h0.submitted (hh cl r hc hr rel hrel) hd').sessions
  | @bodies cl r hd rel w1 w2 written rest b hsub hb hw ht he =>
    obtain ⟨h1, hh1⟩ := h.submits hsub (hh cl r hsub.client hsub.current rel hsub.relay)
    obtain ⟨h2, hh2⟩ := h1.bodiesWritten hh1 hw
    exact h2.relayFault hh2 he

theorem HeadersFault.ne_nullSession {err : Fault} (hf : HeadersFault r w err w') :
    err ≠ .nullSession := by
  cases hf with
  | noHeader he ht => simp [he]
  | heading hr hk he ht => exact he.ne_nullSession
  | ending h1 hr1 he ht => exact he.ne_nullSession

/-- The failure of the tunnel frees relays that hold their session. -/
theorem DropFault.ne_nullSession {err : Fault} (hd : DropFault r w err w') (hh : Holds w r) :
    err ≠ .nullSession := by
  cases hd with
  | stale hr he ht => simp [he]
  | @attached rel hr ha he ht =>
    rcases he with rfl | ⟨_, hs⟩
    · simp
    · rw [hh rel hr] at hs
      exact absurd hs (by simp)
  | @detached rel hr ha he ht =>
    have hs := he.2
    rw [hh rel hr] at hs
    exact absurd hs (by simp)

/-- **No event that uses only relays that hold their session calls nghttp2 without one.** -/
theorem Held.handleFault {e : Event} {err : Fault} (h : Held w) (hl : Linked w)
    (hg : UsesHeld w e = true) (hf : HandleFault w e err w') : err ≠ .nullSession := by
  cases hf with
  | plain hp ht => exact hp.2.2.2
  | headers _ _ _ hp ht => exact hp.2.2.2
  | body _ _ he ht => exact he.ne_nullSession
  | bodyWrite hc hp hr hrel hst he ht =>
    -- body bytes go to a relay that is past its connection
    refine h.relayFault (fun rel' hr' => ?_) he
    rw [hrel] at hr'
    obtain rfl := Option.some.inj hr'
    exact h.session_of_used hrel hst
  | messageComplete _ _ he ht => exact he.ne_nullSession
  | clientGone he hne hsys ht => exact h.socketFault hg rfl he
  | @writable c cl _ _ hc hm he ht =>
    refine h.socketFault (c := c) hg ?_ he
    rw [usedRelays, hc, Option.any_some, if_pos hm]
  | @timerConnected r rel _ _ hr htmr hs hcf =>
    refine (h.timed hr _).connectFault (fun cl r1 hc hcr => ?_) hs hcf
    exact (UsesHeld.timer hg hr htmr hs hc hcr).timed hr _
  | timerFailed hr htmr hp ht => exact hp.2.2.2
  | @tunnelFailed dropped rest r _ w1 _ ht hrs h1 h2 =>
    refine h2.ne_nullSession fun rel hr => ?_
    refine UsesHeld.holds hg ?_ rel (h1.relays_of_some hr)
    rw [usedRelays, if_neg ht, hrs]
    simp
  | stale ht hs hu hr he htr => simp [he]
  | frame ht hs hopen hu hr ha hcb hf => exact hf.ne_nullSession
  | @frameEnd s frame st _ w1 _ ht hs hopen h1 hend he htr =>
    have hw1 : Held w1 := h.reported hl (fun r hu => h.holds hs hu) h1
    have h2 : Held (w1.mapStream s ({ · with shutRd := true })) := hw1.mapStream fun _ => rfl
    exact h2.sendFault he
  | @rst s st r rel _ _ ht hs hu hr ha he htr =>
    rcases he with rfl | ⟨_, hsess⟩
    · simp
    · rw [h.holds hs hu rel hr] at hsess
      exact absurd hsess (by simp)
  | @rstClose s st _ w1 _ ht hs h1 he hne htr =>
    refine Held.sendFault (w := w1) ?_ he
    cases h1 with
    | ignored => exact h
    | @dropped r rel hu hr ha hc =>
      have h0 : Held ((w.log (.event r .errConnFailed rel.responseHeader rel.bodyData)).setClient
          rel.args none) := h.of_eq rfl rfl
      exact h0.freed
  | @recvData s data st _ _ ht hs hopen hc =>
    cases hc with
    | stale _ _ he _ => simp [he]
    | body hu hr ha he htr => exact he.ne_nullSession
    | send hu hr ha h1 he htr =>
      exact ((h.chunked hr s data).quiet (D := fun _ => False) h1.quiet).sendFault he
  | send ht he htr => exact h.sendFault he

/-! ### Runs -/

theorem Held.prepared (h : Held w) (i : Input) : Held (prepared w i) := h.of_eq rfl rfl

end H2ClientProxy
