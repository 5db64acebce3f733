import H2ClientProxy.Equiv.Clients

/-!
# Relays that have been freed

`relay_free` is called by the failure of the tunnel, after a `RST_STREAM` was reported, and by
`relay_on_stream_close_callback`, which runs inside nghttp2 and tells nobody.  A relay therefore dies
under its client whenever nghttp2 closes the stream of a request that is still being answered, and
`relay_close` brings this about itself: it queues a `RST_STREAM`, sends, and then writes to the relay.

* `RelaysLive`: the client's relays are live, and no freed relay has been written to;
* `KeepsRelays`: the condition under which nghttp2 closes no stream of a current relay;
* `Owned`: which streams can be closed, and what the streams point to;
* `wp_run_relaysLive`: in every run that meets the condition the relays that are used are live;
* `not_relaysLive`: in general they are not.
-/

namespace H2ClientProxy

open Wp Machine SendQueue

/-! ### The property -/

/-- No freed relay has been written to. -/
def NoWildWrite (trace : List Obs) : Prop := ∀ r, .wildWrite r ∉ trace

/-- The relay of a client has not been freed, and no freed relay has been written to. -/
def RelaysLive (w : World) : Prop :=
  (∀ c cl r, w.clients c = some cl → cl.relay = some r → w.relays r ≠ none) ∧ NoWildWrite w.trace

/-! ### The condition -/

/-- The request of the client has not been submitted to its relay. -/
def unsubmitted (w : World) (cl : Client) : Bool :=
  cl.relay.all fun r => (w.relays r).all fun rel => rel.streamId = 0

/-- The relay that a stream belongs to is not the one its client is at. -/
def notCurrent (w : World) (s : StreamId) : Bool :=
  (w.streams s).all fun st => st.userData.all fun r => (w.relays r).all fun rel =>
    (w.clients rel.args).all fun cl => cl.relay ≠ some r

/-- A client goes away, or is dropped by `client_writecb`, only before its request is submitted; the
connect timer reports a connection only to a client whose request has not been submitted, and neither
after a `GOAWAY` nor after a connection error; protocol errors and `GOAWAY`s hit no stream of a current
relay. -/
def KeepsRelays (w : World) (i : Input) : Bool :=
  match i.event with
  | .clientGone c => (w.clients c).all (unsubmitted w)
  | .writable c => (w.clients c).all fun cl =>
      !wantsWrite cl.file.mask || !(drain cl.listResponseWriteBuffer i.sends).isError || unsubmitted w cl
  | .timer r => (w.relays r).all fun rel => !rel.tmrConnectd || !w.sSession ||
      (w.clients rel.args).all fun cl => cl.relay.isNone || (unsubmitted w cl && !w.refusesRequests)
  | .protocolError s _ => w.tunnel ≠ .connected || notCurrent w s
  | .goaway sids => w.tunnel ≠ .connected || sids.all (notCurrent w)
  | _ => true

/-! ### The invariant -/

variable {D : StreamId → Prop} {w w' : World} {c : ClientId} {r : RelayId} {s : StreamId}

/-- Current relays are live, and neither what nghttp2 has received nor what it has queued closes
their streams.  While there is a session its streams point to live relays. -/
structure Owned (w : World) : Prop where
  live : ∀ c cl r, w.clients c = some cl → cl.relay = some r → w.relays r ≠ none
  tame : NoWildWrite w.trace
  owner : ∀ s st r rel, w.streams s = some st → st.userData = some r → w.relays r = some rel →
    rel.streamId = s
  alive : w.sSession = true → ∀ s st r, w.streams s = some st → st.userData = some r →
    w.relays r ≠ none
  provided : w.sSession = true → ∀ s st r, w.streams s = some st → st.provider = some r →
    st.userData = some r
  session : ∀ r rel, w.relays r = some rel → rel.session = true → w.sSession = true
  connected : w.tunnel = .connected → w.sSession = true
  unopened : w.tunnel = .connecting → w.sSession = false ∧ ∀ s, w.streams s = none
  safe : ∀ c cl r rel st, w.clients c = some cl → cl.relay = some r → w.relays r = some rel →
    w.streams rel.streamId = some st → st.shutRd = false ∧ rel.streamId ∉ w.closeOnSend
  queued_lt : ∀ s ∈ w.closeOnSend, s < w.nextStreamId

/-- No current relay has the stream `s`. -/
def Spare (w : World) (s : StreamId) : Prop :=
  ∀ c cl r rel st, w.clients c = some cl → cl.relay = some r → w.relays r = some rel →
    w.streams s = some st → rel.streamId ≠ s

theorem owned_init : Owned World.init := by
  constructor <;> simp [World.init, NoWildWrite]

theorem Owned.relaysLive (h : Owned w) : RelaysLive w := ⟨h.live, h.tame⟩

/-- The streams are as sending needs them. -/
theorem Owned.streamsOk (h : Owned w) (hs : w.sSession = true) : StreamsOk w := by
  intro s st hst
  refine ⟨fun r hu => ?_, fun r => h.provided hs s st r hst⟩
  obtain ⟨rel, hr⟩ := Option.ne_none_iff_exists'.mp (h.alive hs s st r hst hu)
  exact ⟨rel, hr, h.owner s st r rel hst hu hr⟩

/-- What is queued for closing is no stream of a current relay. -/
theorem Owned.spare_queued (h : Owned w) (hq : s ∈ w.closeOnSend) : Spare w s := by
  rintro c cl r rel st hc hcr hr hs rfl
  exact (h.safe c cl r rel st hc hcr hr hs).2 hq

/-- A stream whose user data is not a current relay. -/
theorem Linked.spare (hl : Linked w) (hu : ∀ st r, w.streams s = some st → st.userData = some r →
    ∀ c cl, w.clients c = some cl → cl.relay ≠ some r) : Spare w s := by
  rintro c cl r rel st hc hcr hr hs rfl
  exact hu st r hs (hl.own r rel st hr hs) c cl hc hcr

/-- A spare stream stays spare. -/
theorem Spare.quiet (hsp : Spare w s) (hq : Quiet D w w') : Spare w' s := by
  intro c cl r rel st hc hcr hr hs
  obtain ⟨cl0, hc0, hk⟩ := hq.client_of hc
  obtain ⟨rel0, hr0, hid, _⟩ := hq.relays r rel hr
  obtain ⟨st0, hs0, _⟩ := hq.streams s st hs
  rw [hid]
  exact hsp c cl0 r rel0 st0 hc0 (hk.relay ▸ hcr) hr0 hs0

/-! ### Elementary changes -/

/-- A quiet call keeps the invariant if it closes no stream of a current relay. -/
theorem Owned.quiet (h : Owned w) (hq : Quiet D w w') (hD : ∀ s, D s → Spare w s)
    (hlt : ∀ s ∈ w'.closeOnSend, s < w.nextStreamId) : Owned w' where
  live := by
    intro c cl r hc hcr hnone
    obtain ⟨cl0, hc0, hk⟩ := hq.client_of hc
    have hcr0 : cl0.relay = some r := hk.relay ▸ hcr
    obtain ⟨rel, hr⟩ := Option.ne_none_iff_exists'.mp (h.live c cl0 r hc0 hcr0)
    -- the relay was freed through its own stream, which had neither ended nor been doomed
    obtain ⟨s, st, hs, hu, hd⟩ := hq.freed r rel hr hnone
    have hid := h.owner s st r rel hs hu hr
    rcases hd with hrd | hd
    · have hsafe := (h.safe c cl0 r rel st hc0 hcr0 hr (hid ▸ hs)).1
      rw [hrd] at hsafe
      exact absurd hsafe (by decide)
    · exact hD s hd c cl0 r rel st hc0 hcr0 hr hs hid
  tame := by
    rw [hq.trace]
    exact h.tame
  owner := by
    intro s st r rel hs hu hr
    obtain ⟨st0, hs0, hk, _⟩ := hq.streams s st hs
    obtain ⟨rel0, hr0, hid, _⟩ := hq.relays r rel hr
    rw [hid]
    exact h.owner s st0 r rel0 hs0 (hk.userData_of_some hu) hr0
  alive := by
    intro hsess s st r hs hu
    rw [hq.sSession] at hsess
    obtain ⟨rel, hr, _⟩ := (hq.streamsOk (h.streamsOk hsess) s st hs).1 r hu
    rw [hr]
    simp
  provided := by
    intro hsess s st r hs
    rw [hq.sSession] at hsess
    exact (hq.streamsOk (h.streamsOk hsess) s st hs).2 r
  session := by
    intro r rel hr hsess
    obtain ⟨rel0, hr0, _, hk⟩ := hq.relays r rel hr
    rw [hq.sSession]
    exact h.session r rel0 hr0 (hk.session ▸ hsess)
  connected := by
    rw [hq.tunnel, hq.sSession]
    exact h.connected
  unopened := by
    rw [hq.tunnel, hq.sSession]
    intro ht
    refine ⟨(h.unopened ht).1, fun s => ?_⟩
    cases hs : w'.streams s with
    | none => rfl
    | some st =>
      obtain ⟨st0, hs0, _⟩ := hq.streams s st hs
      rw [(h.unopened ht).2 s] at hs0
      exact absurd hs0 (by simp)
  safe := by
    intro c cl r rel st hc hcr hr hs
    obtain ⟨cl0, hc0, hkc⟩ := hq.client_of hc
    obtain ⟨rel0, hr0, hid, _⟩ := hq.relays r rel hr
    obtain ⟨st0, hs0, hk, _⟩ := hq.streams _ st hs
    have hcr0 : cl0.relay = some r := hkc.relay ▸ hcr
    rw [hid] at hs0
    obtain ⟨hrd, hnq⟩ := h.safe c cl0 r rel0 st0 hc0 hcr0 hr0 hs0
    rw [hk.shutRd, hid]
    refine ⟨hrd, fun hmem => ?_⟩
    rcases hq.closeOnSend _ hmem with hmem | hd
    · exact hnq hmem
    · exact hD _ hd c cl0 r rel0 st0 hc0 hcr0 hr0 hs0 rfl
  queued_lt := by
    rw [hq.nextStreamId]
    exact hlt

/-- What is queued for closing may be closed. -/
theorem Owned.sent (h : Owned w) (hs : Sent (· ∈ w.closeOnSend) w w') : Owned w' := by
  refine h.quiet hs.quiet (fun s hq => h.spare_queued hq) fun s hq => ?_
  rcases hs.closeOnSend s hq with hq | hq <;> exact h.queued_lt s hq

/-- A quiet call that closes nothing. -/
theorem Owned.quiet_false (h : Owned w) (hq : Quiet (fun _ => False) w w') : Owned w' := by
  refine h.quiet hq (fun s hf => hf.elim) fun s hs => ?_
  exact h.queued_lt s ((hq.closeOnSend s hs).resolve_right id)

theorem Owned.log (h : Owned w) {o : Obs} (ho : ∀ r, o ≠ .wildWrite r) : Owned (w.log o) :=
  { h with
    tame := by
      intro r hmem
      rw [World.log_trace, List.mem_append, List.mem_singleton] at hmem
      rcases hmem with hmem | hmem
      · exact h.tame r hmem
      · exact ho r hmem.symm }

/-- The clients may change as long as whoever is at a relay was at it before, or the relay is there and
has no open stream. -/
theorem Owned.withClients {clients : ClientId → Option Client} {next : ClientId}
    {released : List Release} (h : Owned w)
    (hcur : ∀ c cl r, clients c = some cl → cl.relay = some r →
      (∃ cl0, w.clients c = some cl0 ∧ cl0.relay = some r) ∨
        ∃ rel, w.relays r = some rel ∧ w.streams rel.streamId = none) :
    Owned { w with clients := clients, nextClient := next, released := released } :=
  { h with
    live := by
      intro c cl r hc hcr
      rcases hcur c cl r hc hcr with ⟨cl0, hc0, hcr0⟩ | ⟨rel, hr, -⟩
      · exact h.live c cl0 r hc0 hcr0
      · exact Option.ne_none_iff_exists'.mpr ⟨rel, hr⟩
    safe := by
      intro c cl r rel st hc hcr hr hs
      rcases hcur c cl r hc hcr with ⟨cl0, hc0, hcr0⟩ | ⟨rel0, hr0, hnone⟩
      · exact h.safe c cl0 r rel st hc0 hcr0 hr hs
      · obtain rfl : rel0 = rel := Option.some.inj (hr0.symm.trans hr)
        exact absurd (hs.symm.trans hnone) (Option.some_ne_none st) }

theorem Owned.setClient {cl cl' : Client} (h : Owned w) (hc : w.clients c = some cl)
    (hr : cl'.relay = cl.relay ∨ cl'.relay = none) : Owned (w.setClient c (some cl')) :=
  h.withClients fun c' cl1 r hc' hcr => Or.inl (fewerCurrent_setClient hc hr c' cl1 r hc' hcr)

theorem Owned.dropClient (h : Owned w) (c : ClientId) : Owned (w.setClient c none) :=
  h.withClients fun c' cl1 r hc' hcr => Or.inl (fewerCurrent_dropClient w c c' cl1 r hc' hcr)

theorem Owned.addClient (h : Owned w) {cl : Client} (hr : cl.relay = none) :
    Owned (w.addClient cl) :=
  h.withClients fun c' cl1 r hc' hcr => Or.inl (fewerCurrent_addClient w hr c' cl1 r hc' hcr)

/-- A relay may change as long as its session and its stream stay. -/
theorem Owned.setRelay {rel rel' : Relay} (h : Owned w) (hr : w.relays r = some rel)
    (hs : rel'.session = rel.session) (hid : rel'.streamId = rel.streamId) :
    Owned (w.setRelay r rel') :=
  -- what a relay was before
  have hof : ∀ r' rel1, (w.setRelay r rel').relays r' = some rel1 → ∃ rel0, w.relays r' = some rel0 ∧
      rel1.session = rel0.session ∧ rel1.streamId = rel0.streamId := by
    intro r' rel1 hr'
    rw [World.setRelay_relays, Function.update_apply] at hr'
    split_ifs at hr' with he
    · obtain rfl := Option.some.inj hr'
      exact ⟨rel, he ▸ hr, hs, hid⟩
    · exact ⟨rel1, hr', rfl, rfl⟩
  have hlive : ∀ r', w.relays r' ≠ none → (w.setRelay r rel').relays r' ≠ none := by
    intro r' hr'
    rw [World.setRelay_relays, Function.update_apply]
    split_ifs
    · exact Option.some_ne_none rel'
    · exact hr'
  { h with
    live := fun c cl r' hc hcr => hlive r' (h.live c cl r' hc hcr)
    owner := by
      intro s st r' rel1 hst hu hr'
      obtain ⟨rel0, hr0, -, hid0⟩ := hof r' rel1 hr'
      rw [hid0]
      exact h.owner s st r' rel0 hst hu hr0
    alive := fun hsess s st r' hst hu => hlive r' (h.alive hsess s st r' hst hu)
    session := by
      intro r' rel1 hr' hsess
      obtain ⟨rel0, hr0, hs0, -⟩ := hof r' rel1 hr'
      exact h.session r' rel0 hr0 (hs0 ▸ hsess)
    safe := by
      intro c cl r' rel1 st hc hcr hr' hst
      obtain ⟨rel0, hr0, -, hid0⟩ := hof r' rel1 hr'
      rw [hid0] at hst ⊢
      exact h.safe c cl r' rel0 st hc hcr hr0 hst }

/-- The same, for a relay that a client is at. -/
theorem Owned.wrote {cl : Client} {f : Relay → Relay} (h : Owned w) (hc : w.clients c = some cl)
    (hcr : cl.relay = some r) (hw : Wrote r f w w')
    (hf : ∀ rel, (f rel).session = rel.session ∧ (f rel).streamId = rel.streamId) : Owned w' := by
  rcases hw with ⟨rel, hr, rfl⟩ | ⟨hn, _⟩
  · exact h.setRelay hr (hf rel).1 (hf rel).2
  · exact absurd hn (h.live c cl r hc hcr)

/-- A stream may change as long as its relays stay; only a spare one may end. -/
theorem Owned.mapStream (h : Owned w) (s : StreamId) (f : Stream → Stream)
    (hf : ∀ st, (f st).userData = st.userData ∧ (f st).provider = st.provider)
    (hrd : Spare w s ∨ ∀ st, (f st).shutRd = st.shutRd) : Owned (w.mapStream s f) :=
  -- what a stream was before
  have hof : ∀ s' st', (w.mapStream s f).streams s' = some st' →
      ∃ st, w.streams s' = some st ∧ st'.userData = st.userData ∧ st'.provider = st.provider ∧
        (s' ≠ s ∨ (∀ st, (f st).shutRd = st.shutRd) → st'.shutRd = st.shutRd) := by
    intro s' st' hs'
    obtain ⟨st, hst, rfl⟩ := World.mapStream_eq_some hs'
    refine ⟨st, hst, ?_⟩
    split_ifs with he
    · refine ⟨(hf st).1, (hf st).2, ?_⟩
      rintro (hne | hall)
      · exact absurd he hne
      · exact hall st
    · exact ⟨rfl, rfl, fun _ => rfl⟩
  { h with
    owner := by
      intro s' st' r rel hs' hu
      obtain ⟨st, hst, hu0, _⟩ := hof s' st' hs'
      exact h.owner s' st r rel hst (hu0 ▸ hu)
    alive := by
      intro hsess s' st' r hs' hu
      obtain ⟨st, hst, hu0, _⟩ := hof s' st' hs'
      exact h.alive hsess s' st r hst (hu0 ▸ hu)
    provided := by
      intro hsess s' st' r hs' hp
      obtain ⟨st, hst, hu0, hp0, _⟩ := hof s' st' hs'
      rw [hu0]
      exact h.provided hsess s' st r hst (hp0 ▸ hp)
    unopened := by
      intro ht
      refine ⟨(h.unopened ht).1, fun s' => ?_⟩
      cases hs : (w.mapStream s f).streams s' with
      | none => rfl
      | some st' =>
        obtain ⟨st, hst, _⟩ := hof s' st' hs
        rw [(h.unopened ht).2 s'] at hst
        exact absurd hst (by simp)
    safe := by
      intro c cl r rel st' hc hcr hr hs'
      obtain ⟨st, hst, _, _, hsh⟩ := hof _ st' hs'
      have hkeep : rel.streamId ≠ s ∨ ∀ st, (f st).shutRd = st.shutRd := by
        rcases hrd with hsp | hall
        · refine Or.inl ?_
          intro he
          exact hsp c cl r rel st hc hcr hr (he ▸ hst) he
        · exact Or.inr hall
      rw [hsh hkeep]
      exact h.safe c cl r rel st hc hcr hr hst }

theorem Owned.addRelay {rel : Relay} (h : Owned w) (hl : Linked w)
    (hs : rel.session = w.sSession) : Owned (w.addRelay rel) :=
  have hold : ∀ r', r' < w.nextRelay → (w.addRelay rel).relays r' = w.relays r' :=
    fun r' hlt => Function.update_of_ne (ne_of_lt hlt) _ _
  have hused : ∀ s st r', w.streams s = some st → st.userData = some r' → r' < w.nextRelay :=
    fun s st r' hst hu => (hl.stream_lt s st hst).2.2 r' hu
  { h with
    live := by
      intro c cl r' hc hcr
      rw [hold r' (hl.current c cl r' hc hcr).1]
      exact h.live c cl r' hc hcr
    owner := by
      intro s st r' rel1 hst hu hr'
      rw [hold r' (hused s st r' hst hu)] at hr'
      exact h.owner s st r' rel1 hst hu hr'
    alive := by
      intro hsess s st r' hst hu
      rw [hold r' (hused s st r' hst hu)]
      exact h.alive hsess s st r' hst hu
    session := by
      intro r' rel1 hr' hsess
      rw [World.addRelay_relays, Function.update_apply] at hr'
      split_ifs at hr'
      · obtain rfl := Option.some.inj hr'
        exact hs.symm.trans hsess
      · exact h.session r' rel1 hr' hsess
    safe := by
      intro c cl r' rel1 st hc hcr hr' hst
      rw [hold r' (hl.current c cl r' hc hcr).1] at hr'
      exact h.safe c cl r' rel1 st hc hcr hr' hst }

/-- A client gets a new relay. -/
theorem Owned.createRelay {cl' : Client} {req : ℕ} (h : Owned w) (hl : Linked w)
    (hr : cl'.relay = some w.nextRelay) :
    Owned (((w.addRelay { session := w.sSession, args := c }).log
      (.create w.nextRelay c req)).setClient c (some cl')) := by
  have h0 : Owned (w.addRelay { session := w.sSession, args := c }) := h.addRelay hl rfl
  have h1 := h0.log (o := .create w.nextRelay c req) (by simp)
  refine h1.withClients fun c' cl1 r hc' hcr => ?_
  rw [Function.update_apply] at hc'
  split_ifs at hc'
  · -- the new relay has no stream yet
    obtain rfl := Option.some.inj hc'
    obtain rfl : w.nextRelay = r := Option.some.inj (hr.symm.trans hcr)
    refine Or.inr ⟨_, Function.update_self .., ?_⟩
    show w.streams 0 = none
    cases hs : w.streams 0 with
    | none => rfl
    | some st => exact absurd (hl.stream_lt 0 st hs).1 (lt_irrefl _)
  · exact Or.inl ⟨cl1, hc', hcr⟩

/-- A request is submitted to a relay that has no stream. -/
theorem Owned.submitted {rel : Relay} (h : Owned w) (hl : Linked w) (hr : w.relays r = some rel)
    (hid : rel.streamId = 0) (hg : w.refusesRequests = false) (hs : w.sSession = true) (hd : Header) :
    Owned (submitted w r rel hd) where
  live := by
    intro c cl r1 hc hcr
    rw [submitted_clients] at hc
    rw [submitted_relays, Function.update_apply]
    split_ifs
    · exact Option.some_ne_none _
    · exact h.live c cl r1 hc hcr
  tame := by
    rw [submitted_trace]
    exact h.tame
  owner := by
    intro s st r1 rel1 hst hu hr1
    rcases submitted_streams_eq_some hst with ⟨rfl, rfl⟩ | ⟨-, hst0⟩
    · obtain rfl := Option.some.inj hu
      rcases submitted_relays_eq_some hr1 with ⟨-, rfl⟩ | ⟨hne, -⟩
      · rfl
      · exact absurd rfl hne
    · rcases submitted_relays_eq_some hr1 with ⟨rfl, -⟩ | ⟨-, hr1⟩
      · -- no stream was the relay's before
        have hzero := h.owner s st r1 rel hst0 hu hr
        rw [hid] at hzero
        exact absurd (hzero ▸ (hl.stream_lt s st hst0).1) (lt_irrefl _)
      · exact h.owner s st r1 rel1 hst0 hu hr1
  alive := by
    intro hsess s st r1 hst hu
    rw [submitted_relays, Function.update_apply]
    split_ifs with he
    · exact Option.some_ne_none _
    · rcases submitted_streams_eq_some hst with ⟨-, rfl⟩ | ⟨-, hst⟩
      · exact absurd (Option.some.inj hu).symm he
      · exact h.alive hs s st r1 hst hu
  provided := by
    intro hsess s st r1 hst hp
    rcases submitted_streams_eq_some hst with ⟨-, rfl⟩ | ⟨-, hst⟩
    · rw [requestStream] at hp ⊢
      dsimp only at hp
      split_ifs at hp
      exact hp
    · exact h.provided hs s st r1 hst hp
  session := by
    intro r1 rel1 hr1 hsess
    rw [submitted_sSession]
    exact hs
  connected := by
    rw [submitted_tunnel, submitted_sSession]
    exact h.connected
  unopened := by
    intro ht
    rw [submitted_tunnel] at ht
    exact absurd ((h.unopened ht).1.symm.trans hs) Bool.false_ne_true
  safe := by
    intro c cl r1 rel1 st hc hcr hr1 hst
    rw [submitted_clients] at hc
    rw [submitted_closeOnSend r rel hd hg]
    rcases submitted_relays_eq_some hr1 with ⟨-, rfl⟩ | ⟨-, hr1⟩
    · rcases submitted_streams_eq_some hst with ⟨-, rfl⟩ | ⟨hne, -⟩
      · exact ⟨rfl, fun hmem => lt_irrefl _ (h.queued_lt _ hmem)⟩
      · exact absurd rfl hne
    · rcases submitted_streams_eq_some hst with ⟨he, -⟩ | ⟨-, hst⟩
      · exact absurd he (ne_of_lt (hl.relay_lt r1 rel1 hr1).2)
      · exact h.safe c cl r1 rel1 st hc hcr hr1 hst
  queued_lt := by
    rw [submitted_closeOnSend r rel hd hg, submitted_nextStreamId]
    exact fun s hmem => Nat.lt_add_right 2 (h.queued_lt s hmem)

/-! ### The handlers -/

theorem Owned.hdrPhase {ends : Bool} (h : Owned w) (hp : HdrPhase ends r w w') : Owned w' := by
  obtain ⟨rel, rel1, cl, r1, data, hr, hk, hc, _, _, _, rfl⟩ := hp
  have h0 : Owned (heading w r rel1) := by
    refine Owned.log ?_ (by simp)
    exact Owned.setRelay h hr hk.kept.1.session hk.kept.2
  exact h0.quiet_false (written_wroteTo (w := heading w r rel1) hc data).quiet

theorem Owned.msgDone (h : Owned w) (hl : Linked w) (hm : MsgDone c w w') : Owned w' := by
  obtain ⟨cl, r, rel, w1, hc, hr, hrel, hw1, hend⟩ := hm
  obtain ⟨h1, hl1⟩ : Owned w1 ∧ Linked w1 := by
    rcases hw1 with ⟨_, rfl⟩ | ⟨_, rfl⟩
    · exact ⟨h, hl⟩
    · have hw := written_wroteTo hc lastChunk
      exact ⟨h.quiet_false hw.quiet, hl.quiet (D := fun _ => False) hw.quiet⟩
  rcases hend with ⟨_, rfl⟩ | ⟨_, hn⟩
  · exact h.dropClient c
  · cases hn with
    | idle hc1 hp => exact h1.setClient hc1 (Or.inr rfl)
    | next hc1 hp => exact h1.createRelay hl1 rfl

theorem Owned.msgPhase (h : Owned w) (hl : Linked w) (hm : MsgPhase r w w') : Owned w' := by
  obtain ⟨rel, hr, hd⟩ := hm
  have h1 : Owned (ending w r rel) := by
    refine Owned.log ?_ (by simp)
    exact Owned.setRelay h hr rfl rfl
  exact h1.msgDone (hl.ending hr) hd

/-- Neither the announcement of a header nor the end of a response touches the session. -/
theorem HdrPhase.streams_eq {ends : Bool} (hp : HdrPhase ends r w w') :
    w'.streams = w.streams ∧ w'.sSession = w.sSession := by
  obtain ⟨rel, rel1, cl, r1, data, _, _, _, _, _, _, rfl⟩ := hp
  exact ⟨rfl, rfl⟩

theorem MsgPhase.streams_eq (hm : MsgPhase r w w') :
    w'.streams = w.streams ∧ w'.sSession = w.sSession := by
  obtain ⟨rel, _, cl, r1, rel1, w1, _, _, _, hw1, hend⟩ := hm
  have h1 : w1.streams = w.streams ∧ w1.sSession = w.sSession := by
    rcases hw1 with ⟨_, rfl⟩ | ⟨_, rfl⟩ <;> exact ⟨rfl, rfl⟩
  rcases hend with ⟨_, rfl⟩ | ⟨_, hn⟩
  · exact ⟨rfl, rfl⟩
  · cases hn <;> exact h1

theorem Reported.streams_eq {userData : Option RelayId} {frame : Frame}
    (hr : Reported w userData frame w') : w'.streams = w.streams ∧ w'.sSession = w.sSession := by
  cases hr with
  | ignored => exact ⟨rfl, rfl⟩
  | @phases r rel w1 _ hu hr ha h1 h2 =>
    have hs1 : w1.streams = w.streams ∧ w1.sSession = w.sSession := by
      split_ifs at h1
      · exact h1.streams_eq
      · exact h1 ▸ ⟨rfl, rfl⟩
    split_ifs at h2
    · exact ⟨h2.streams_eq.1.trans hs1.1, h2.streams_eq.2.trans hs1.2⟩
    · exact h2 ▸ hs1

/-- The client of a relay whose response has ended is not at it any more. -/
theorem MsgPhase.left (hl : Linked w) (hm : MsgPhase r w w') {cl : Client}
    (hc : w'.clients c = some cl) : cl.relay ≠ some r := by
  have hl' := hl.msgPhase hm
  obtain ⟨rel, hr, hd⟩ := hm
  have hlt : r < (ending w r rel).nextRelay := (hl.relay_lt r rel hr).1
  have hr' : w'.relays r = some { rel with relayStatus := .msgComplete } :=
    (hd.relays_of_lt hlt).trans (Function.update_self ..)
  intro hcr
  have hargs := hl'.client_eq_args hr' hc hcr
  exact absurd (hd.relay_fresh (hargs ▸ hc) hcr) hlt.ne

/-- A frame is reported.  If it ends the stream, the stream is spare afterwards. -/
theorem Owned.reported {st : Stream} {frame : Frame} (h : Owned w) (hl : Linked w)
    (hs : w.streams s = some st) (hr : Reported w st.userData frame w') :
    Owned w' ∧ (frame.completes = true → Spare w' s) := by
  have hl' := hl.reported hr
  have hstreams := hr.streams_eq.1
  cases hr with
  | ignored hdet =>
    -- the relay is detached, and a current one is not
    refine ⟨h, fun _ => hl.spare ?_⟩
    intro st' r hs' hu c cl hc hcr
    obtain rfl := Option.some.inj (hs.symm.trans hs')
    obtain ⟨rel, hr, hd⟩ := hdet r hu
    have ha := ((hl.current c cl r hc hcr).2 rel hr).2
    rw [hd] at ha
    exact absurd ha (by decide)
  | @phases r rel w1 _ hu hr ha h1 h2 =>
    obtain ⟨ho1, hl1⟩ : Owned w1 ∧ Linked w1 := by
      split_ifs at h1
      · exact ⟨h.hdrPhase h1, hl.hdrPhase h1⟩
      · exact h1 ▸ ⟨h, hl⟩
    by_cases hcomp : frame.completes = true
    · -- the end of the response takes the relay from its client
      rw [if_pos hcomp] at h2
      refine ⟨ho1.msgPhase hl1 h2, fun _ => hl'.spare ?_⟩
      intro st' r' hs' hu' c cl hc
      rw [hstreams, hs, Option.some.injEq] at hs'
      rw [← hs', hu, Option.some.injEq] at hu'
      exact hu' ▸ h2.left hl1 hc
    · rw [if_neg hcomp] at h2
      exact ⟨h2 ▸ ho1, fun hc => absurd hc hcomp⟩

theorem Owned.shutRd (h : Owned w) (hsp : Spare w s) (hs : ShutRd s w w') : Owned w' :=
  (h.mapStream s ({ · with shutRd := true }) (fun _ => ⟨rfl, rfl⟩) (Or.inl hsp)).quiet_false hs.quiet

theorem Owned.resumed {cl : Client} (h : Owned w) (hc : w.clients c = some cl)
    (hcr : cl.relay = some r) (hr : Resumed r w w') : Owned w' := by
  obtain ⟨rel, w1, _, h1, h2⟩ := hr
  obtain ⟨ho1, hc1⟩ : Owned w1 ∧ w1.clients = w.clients := by
    rcases h1 with ⟨rfl, _⟩ | h1
    · exact ⟨h, rfl⟩
    · have h0 := h.mapStream rel.streamId ({ · with recvLen := 0 }) (fun _ => ⟨rfl, rfl⟩)
        (Or.inr fun _ => rfl)
      exact ⟨h0.sent h1, h1.clients_eq⟩
  exact ho1.wrote (by rw [hc1]; exact hc) hcr h2 fun _ => ⟨rfl, rfl⟩

/-- A client without a submitted request is dropped. -/
theorem Owned.dropped {cl : Client} (h : Owned w) (hl : Linked w) (hc : w.clients c = some cl)
    (hu : unsubmitted w cl = true) (hd : Dropped c w w') : Owned w' := by
  obtain ⟨cl', hc', ⟨_, rfl⟩ | ⟨r, rel, w1, w2, hcr, hr, h1, h2, rfl⟩⟩ := hd
  · exact h.dropClient c
  obtain rfl := Option.some.inj (hc.symm.trans hc')
  have hid : rel.streamId = 0 := by
    simpa [unsubmitted, hcr, hr] using hu
  have h0 : Owned (w.log (.close r)) := h.log (by simp)
  -- no `RST_STREAM` is queued for stream 0
  have hclosed : ∀ st, w.streams 0 ≠ some st := fun st hs => lt_irrefl _ (hl.stream_lt 0 st hs).1
  have ho1 : Owned w1 := by
    refine h0.quiet h1.quiet ?_ ?_
    · rintro s (hq | rfl)
      · exact h0.spare_queued hq
      · exact fun c cl r' rel' st _ _ _ hs _ => hclosed st (hid ▸ hs)
    · intro s hq
      rcases h1.closeOnSend s hq with hq | hq | rfl
      · exact h.queued_lt s hq
      · exact h.queued_lt s hq
      · rw [hid]
        exact hl.stream_pos
  have hc1 : w1.clients c = some cl := by
    rw [h1.clients_eq]
    exact hc
  exact (ho1.wrote hc1 hcr h2 fun _ => ⟨rfl, rfl⟩).dropClient c

theorem Owned.setSendSide {cl cl' : Client} (h : Owned w) (hc : w.clients c = some cl)
    (hk : CtlKept cl cl') (sends : List SendResult) :
    Owned ((w.setSends sends).setClient c (some cl')) :=
  have h1 : Owned (w.setSends sends) := { h with }
  h1.setClient hc (Or.inl hk.relay)

theorem Owned.writable {cl : Client} (h : Owned w) (hl : Linked w) (hc : w.clients c = some cl)
    (hu : (drain cl.listResponseWriteBuffer w.sends).isError = true → unsubmitted w cl = true)
    (hd : WritableDone c w w') : Owned w' := by
  cases hd with
  | empty hc' hq hr hres => exact h.resumed hc' hr hres
  | error hc' hq hout herr hdrop =>
    obtain rfl := Option.some.inj (hc.symm.trans hc')
    have hk := drainedClient_ctl cl
    refine (h.setSendSide hc (hk _) _).dropped (hl.setSendSide hc (hk _) _)
      (Function.update_self ..) ?_ hdrop
    exact hu (hout ▸ herr)
  | full hc' hq hout herr hlen hw => exact hw ▸ h.setSendSide hc' (afterDrain_ctl _ _) _
  | resumed hc' hq hout herr hlen hr hres =>
    refine (h.setSendSide hc' (afterDrain_ctl _ _) _).resumed (Function.update_self ..) ?_ hres
    exact (afterDrain_ctl _ _).relay.trans hr

/-- The clients after a submission: the bytes that came early are no longer kept. -/
theorem Submits.clients_eq {cl : Client} {hd : Header} {rel : Relay}
    (hs : Submits c cl r hd rel w w') : w'.clients = (connecting w c cl r hd).clients := by
  obtain ⟨w1, h1, h2⟩ := hs.sent
  rw [h2.clients_eq, h1.clients_eq, submitted_clients]

theorem BodiesWritten.clients_eq {bs : List BodyBuffer} (hb : BodiesWritten c r bs w w') :
    w'.clients = w.clients := by
  induction hb with
  | nil => rfl
  | cons h1 _ ih => rw [ih, h1.clients_eq, World.log_clients]

theorem Owned.connecting {cl : Client} (h : Owned w) (hc : w.clients c = some cl) (hd : Header) :
    Owned (connecting w c cl r hd) := by
  refine Owned.log ?_ (by simp)
  exact Owned.setClient h hc (Or.inl rfl)

theorem Owned.submits {cl : Client} {hd : Header} {rel : Relay} (h : Owned w) (hl : Linked w)
    (hid : rel.streamId = 0) (hg : w.refusesRequests = false) (hs : Submits c cl r hd rel w w') :
    Owned w' := by
  have hclients := hs.clients_eq
  obtain ⟨w1, h1, h2⟩ := hs.sent
  have h0 : Owned (H2ClientProxy.submitted (H2ClientProxy.connecting w c cl r hd) r rel hd) :=
    (h.connecting hs.client hd).submitted (hl.connecting hs.client r hd) hs.relay hid hg hs.sSession hd
  have hc1 : w1.clients c = (H2ClientProxy.connecting w c cl r hd).clients c := by
    rw [h1.clients_eq, submitted_clients]
  have hself : (H2ClientProxy.connecting w c cl r hd).clients c = some
      { cl with file := epFileDetect cl.file EP_READ (-1), listRequestBodyBuffer := [] } :=
    Function.update_self ..
  exact (h0.sent h1).wrote (hc1.trans hself) hs.current h2 fun _ => ⟨rfl, rfl⟩

theorem Owned.bodiesWritten {bs : List BodyBuffer} (h : Owned w)
    (hb : BodiesWritten c r bs w w') : Owned w' := by
  induction hb with
  | nil => exact h
  | cons h1 _ ih =>
    refine ih (Owned.sent (h.log ?_) h1)
    simp

theorem Owned.chunked {rel : Relay} (h : Owned w) (hr : w.relays r = some rel) (s : StreamId)
    (data : Bytes) : Owned (chunked w s r rel data) := by
  have h1 := h.mapStream s (fun st => { st with recvLen := st.recvLen + data.length })
    (fun _ => ⟨rfl, rfl⟩) (Or.inr fun _ => rfl)
  refine Owned.log ?_ (by simp)
  exact Owned.setRelay h1 hr rfl rfl

theorem Owned.chunkDone {st : Stream} {data : Bytes} (h : Owned w)
    (hc : ChunkDone w s st data w') : Owned w' := by
  cases hc with
  | ignored =>
    exact Owned.mapStream h s (fun st => { st with recvLen := st.recvLen + data.length })
      (fun _ => ⟨rfl, rfl⟩) (Or.inr fun _ => rfl)
  | @written r rel rel1 w1 w2 _ hu hr ha h1 hr1 h2 h3 =>
    have ho1 : Owned w1 := (h.chunked hr s data).quiet_false h1.quiet
    have ho2 : Owned w2 := by
      split_ifs at h2
      · exact h2 ▸ ho1.mapStream s ({ · with recvLen := 0 }) (fun _ => ⟨rfl, rfl⟩)
          (Or.inr fun _ => rfl)
      · exact h2 ▸ ho1
    exact ho2.sent h3

/-! ### Relays that are dropped -/

/-- The relays that are left are untouched, and the one that was dropped is gone. -/
theorem DropOne.relays_eq (hd : DropOne r w w') :
    w'.relays = Function.update w.relays r none ∧ w'.closeOnSend = w.closeOnSend ∧
      w'.nextStreamId = w.nextStreamId := by
  cases hd <;> exact ⟨rfl, rfl, rfl⟩

theorem DropClients.relays_eq {rs : List RelayId} (hd : DropClients rs w w') :
    (∀ r, w'.relays r = if r ∈ rs then none else w.relays r) ∧ w'.closeOnSend = w.closeOnSend ∧
      w'.nextStreamId = w.nextStreamId := by
  induction hd with
  | nil => exact ⟨fun _ => rfl, rfl, rfl⟩
  | @cons r rs w w1 w' h1 _ ih =>
    obtain ⟨h2, hq, hn⟩ := ih
    obtain ⟨h3, hq', hn'⟩ := h1.relays_eq
    refine ⟨fun r' => ?_, hq.trans hq', hn.trans hn'⟩
    rw [h2, h3, Function.update_apply]
    simp only [List.mem_cons]
    split_ifs <;> tauto

/-- A relay is dropped together with the client that is at it. -/
theorem DropOne.relaysLive (hl : Linked w) (h : RelaysLive w) (hd : DropOne r w w') :
    RelaysLive w' := by
  obtain ⟨hlive, htame⟩ := h
  cases hd with
  | @attached rel hr ha hc =>
    have hargs : ∀ c cl, w.clients c = some cl → cl.relay = some r → c = rel.args :=
      fun c cl => hl.client_eq_args hr
    constructor
    · intro c cl r' hc' hcr'
      simp only [freed, World.removeRelay, World.mapStream, World.setClient, World.log,
        Function.update_apply] at hc' ⊢
      grind
    · intro r' hmem
      rcases List.mem_append.mp hmem with hmem | hmem
      · exact htame r' hmem
      · exact absurd hmem (by simp)
  | detached hr ha =>
    have hcur := hl.current
    refine ⟨?_, htame⟩
    intro c cl r' hc' hcr'
    simp only [freed, World.removeRelay, World.mapStream, Function.update_apply] at hc' ⊢
    grind

theorem DropClients.relaysLive {rs : List RelayId} (hl : Linked w) (h : RelaysLive w)
    (hd : DropClients rs w w') : RelaysLive w' := by
  induction hd with
  | nil => exact h
  | cons h1 _ ih => exact ih (hl.dropOne h1) (h1.relaysLive hl h)

/-- When the tunnel fails all relays are freed, and no client is at one. -/
theorem Owned.tunnelFailed (h : Owned w) (hl : Linked w)
    (hd : DropClients w.sListRelays (w.setTunnel .closed w.sSession) w') :
    Owned (w'.setTunnel .closed false) := by
  have h0 : RelaysLive (w.setTunnel .closed w.sSession) := h.relaysLive
  have hlive : RelaysLive w' := hd.relaysLive (hl.setTunnel _ _) h0
  obtain ⟨hrelays, hq, hn⟩ := hd.relays_eq
  have hnone : ∀ r, w'.relays r = none := by
    intro r
    rw [hrelays]
    split_ifs with hmem
    · rfl
    · by_contra hne
      exact hmem ((hl.listed r).mpr hne)
  constructor
  case live => exact hlive.1
  case tame => exact hlive.2
  case queued_lt =>
    show ∀ s ∈ w'.closeOnSend, s < w'.nextStreamId
    rw [hq, hn]
    exact h.queued_lt
  all_goals
    simp only [World.setTunnel, hnone]
    simp

theorem Owned.rst {st : Stream} {w1 : World} (h : Owned w) (hl : Linked w)
    (hs : w.streams s = some st) (h1 : RstReported w st.userData w1) (h2 : Sent (· = s) w1 w')
    (h3 : (∀ st, w1.streams s = some st → st.userData = none) → w' = w1.removeStream s) :
    Owned w' := by
  cases h1 with
  | ignored hdet =>
    have hsp : Spare w s := by
      refine hl.spare fun st' r hs' hu c cl hc hcr => ?_
      obtain rfl := Option.some.inj (hs.symm.trans hs')
      obtain ⟨rel, hr, hd⟩ := hdet r hu
      have ha := ((hl.current c cl r hc hcr).2 rel hr).2
      rw [hd] at ha
      exact absurd ha (by decide)
    refine h.quiet h2.quiet ?_ ?_
    · rintro s' rfl
      exact hsp
    · intro s' hq
      rcases h2.closeOnSend s' hq with hq | rfl
      · exact h.queued_lt s' hq
      · exact (hl.stream_lt s' st hs).2.1
  | @dropped r rel hu hr ha hc =>
    -- the relay is freed, then its stream is unlinked
    have hid := h.owner s st r rel hs hu hr
    have h0 : Owned ((w.log (.event r .errConnFailed rel.responseHeader rel.bodyData)).setClient
        rel.args none) := (h.log (by simp)).dropClient _
    have hl0 : Linked ((w.log (.event r .errConnFailed rel.responseHeader rel.bodyData)).setClient
        rel.args none) := (hl.log _).dropClient _
    have heff : Sent (· = s) _ ((freed ((w.log (.event r .errConnFailed rel.responseHeader
        rel.bodyData)).setClient rel.args none) r rel).removeStream s) :=
      effect_removeRelay hs hu (Or.inr rfl) hr fun _ => rfl
    rw [h3]
    · refine h0.quiet heff.quiet ?_ h0.queued_lt
      rintro s' rfl
      refine hl0.spare fun st' r' hs' hu' c cl hc' hcr => ?_
      obtain rfl := Option.some.inj (hs.symm.trans hs')
      obtain rfl := Option.some.inj (hu.symm.trans hu')
      change Function.update w.clients rel.args none c = some cl at hc'
      rw [Function.update_apply] at hc'
      split_ifs at hc' with hne
      exact absurd (hl.client_eq_args hr hc' hcr) hne
    · intro st' hs'
      obtain ⟨st0, _, rfl⟩ := World.mapStream_eq_some hs'
      rw [if_pos hid.symm]

/-! ### Steps -/

theorem Owned.spare_of_notCurrent (h : Owned w) (hl : Linked w) (hg : notCurrent w s = true) :
    Spare w s := by
  refine hl.spare fun st r hs hu c cl hc hcr => ?_
  obtain ⟨rel, hr⟩ := Option.ne_none_iff_exists'.mp (h.live c cl r hc hcr)
  rw [notCurrent, hs, Option.all_some, hu, Option.all_some, hr, Option.all_some,
    ← hl.client_eq_args hr hc hcr, hc, Option.all_some, decide_eq_true_eq] at hg
  exact hg hcr

/-- What `KeepsRelays` says of the connect timer. -/
theorem KeepsRelays.timer {i : Input} {rel rel1 : Relay} {cl : Client} {r1 : RelayId}
    (hg : KeepsRelays w i = true) (hi : i.event = .timer r) (hr : w.relays r = some rel)
    (ht : rel.tmrConnectd = true) (hs : w.sSession = true) (hc : w.clients rel.args = some cl)
    (hcr : cl.relay = some r1) (hr1 : w.relays r1 = some rel1) :
    rel1.streamId = 0 ∧ w.refusesRequests = false := by
  simpa [KeepsRelays, hi, hr, ht, hs, hc, hcr, unsubmitted, hr1] using hg

/-- A relay after its timer has fired. -/
theorem timed_relays {rel rel1 : Relay} {r1 : RelayId} {what : RelayWhat}
    (hr : w.relays r = some rel) (hr1 : (timed w r rel what).relays r1 = some rel1) :
    ∃ rel0, w.relays r1 = some rel0 ∧ rel1.streamId = rel0.streamId := by
  change Function.update w.relays r _ r1 = some rel1 at hr1
  rw [Function.update_apply] at hr1
  split_ifs at hr1 with he
  · obtain rfl := Option.some.inj hr1
    exact ⟨rel, he ▸ hr, rfl⟩
  · exact ⟨rel1, hr1, rfl⟩

theorem Owned.timed {rel : Relay} (h : Owned w) (hr : w.relays r = some rel) (what : RelayWhat) :
    Owned (timed w r rel what) := by
  refine Owned.log ?_ (by simp)
  exact Owned.setRelay h hr rfl rfl

/-- **An input that meets `KeepsRelays` keeps the invariant.** -/
theorem Owned.handled {i : Input} (h : Owned w) (hl : Linked w) (hg : KeepsRelays w i = true)
    (hsends : i.sends = w.sends) (hh : Handled w i.event w') : Owned w' := by
  generalize he : i.event = e at hh
  cases hh with
  | skip => exact h
  | accept => exact h.addClient rfl
  | msgBegin hc hp hb =>
    refine h.setClient hc (Or.inl ?_)
    cases hb <;> rfl
  | reqHeader hc hk hs => exact h.setClient hc (Or.inl hk.relay)
  | headersComplete hc hp hd =>
    cases hd with
    | pending hh hid hp =>
      exact Owned.setClient (h.log (by simp)) hc (Or.inl (setReqHeader_ctl hh hid).relay)
    | create hh hid hp => exact Owned.createRelay (h.log (by simp)) (hl.log _) rfl
  | bodyQueued hc hp hr hrel hst => exact h.setClient hc (Or.inl rfl)
  | bodyWritten hc hp hr hrel hst hs => exact Owned.sent (h.log (by simp)) hs
  | @messageComplete c cl r _ hc hp hr hw =>
    have h1 : Owned (w.setClient c (some { cl with parser := .idle })) :=
      h.setClient hc (Or.inl rfl)
    have h2 := h1.log (o := .completeRequest r c cl.reqNo) (by simp)
    have hself : (w.setClient c (some { cl with parser := .idle })).clients c = _ :=
      Function.update_self ..
    exact h2.wrote hself hr hw fun _ => ⟨rfl, rfl⟩
  | clientGone hd =>
    obtain ⟨cl, hc, hd'⟩ := hd
    have hu : unsubmitted w cl = true := by
      simpa [KeepsRelays, he, hc] using hg
    exact h.dropped hl hc hu ⟨cl, hc, hd'⟩
  | @writable c cl _ hc hm hd =>
    refine h.writable hl hc (fun herr => ?_) hd
    rw [← hsends] at herr
    simpa [KeepsRelays, he, hc, hm, herr] using hg
  | @timerConnected r rel cl r1 hd rel1 w1 _ hr ht hs h1 h2 =>
    obtain ⟨rel0, hr0, hid⟩ := timed_relays hr h1.relay
    obtain ⟨hz, hgo⟩ := KeepsRelays.timer hg he hr ht hs h1.client h1.current hr0
    exact ((h.timed hr _).submits (hl.timed hr _) (hid.trans hz) hgo h1).bodiesWritten h2
  | timerFailed hr ht hs hc => exact (h.timed hr _).dropClient _
  | tunnelConnected ht =>
    obtain ⟨_, hnone⟩ := h.unopened ht
    constructor
    case live => exact h.live
    case tame => exact h.tame
    case queued_lt => exact h.queued_lt
    all_goals
      simp only [World.setTunnel, hnone]
      simp
  | tunnelFailed ht hd => exact h.tunnelFailed hl hd
  | recvHeader ht hs hu hr hdr => exact Owned.setRelay h hr rfl rfl
  | @frame s frame st w1 _ ht hs hopen h1 h2 =>
    obtain ⟨ho1, hsp⟩ := h.reported hl hs h1
    split_ifs at h2 with hend
    · exact ho1.shutRd (hsp (Frame.completes_of_endStream hend)) h2
    · exact h2 ▸ ho1
  | rst ht hs h1 h2 h3 => exact h.rst hl hs h1 h2 h3
  | recvData ht hs hopen hd => exact h.chunkDone hd
  | @protocolError s shutRd st w1 _ ht hs h1 h2 =>
    have hsp : Spare w s := by
      refine h.spare_of_notCurrent hl ?_
      simpa [KeepsRelays, he, ht] using hg
    have ho1 : Owned w1 := by
      refine h.quiet h1.quiet (fun s' hd => hd ▸ hsp) fun s' hq => ?_
      rcases h1.closeOnSend s' hq with hq | rfl
      · exact h.queued_lt s' hq
      · exact (hl.stream_lt s' st hs).2.1
    split_ifs at h2
    · exact ho1.shutRd (hsp.quiet h1.quiet) h2
    · exact h2 ▸ ho1
  | @goaway sids _ ht hs hq =>
    have h0 : Owned w.setGoaway := { h with }
    have hall : ∀ s ∈ sids, notCurrent w s = true := by
      simpa [KeepsRelays, he, ht] using hg
    refine h0.quiet hs.quiet (fun s hd => h.spare_of_notCurrent hl (hall s hd)) ?_
    rw [hq]
    exact h.queued_lt
  | connectionError ht =>
    -- the queue is empty then
    refine { h with safe := fun c cl r rel st hc hcr hr hs => ?_, queued_lt := fun _ hq => ?_ }
    · exact ⟨(h.safe c cl r rel st hc hcr hr hs).1, List.not_mem_nil⟩
    · exact absurd hq List.not_mem_nil
  | sessionSend ht hs => exact h.sent hs

/-! ### Faults -/

/-- A fault that is not the use of a freed relay, without a write to one before it. -/
def Benign (err : Fault) (w : World) : Prop := (∀ r, err ≠ .relayFreed r) ∧ NoWildWrite w.trace

theorem Owned.tame_concat (h : Owned w) {o : Obs} (ho : ∀ r, o ≠ .wildWrite r)
    (ht : w'.trace = w.trace ++ [o]) : NoWildWrite w'.trace := by
  rw [ht]
  exact (h.log ho).tame

/-- A handler of a client uses no freed relay. -/
theorem Owned.clientFault {err : Fault} (h : Owned w) (he : ClientFault w c err) (r : RelayId) :
    err ≠ .relayFreed r := by
  rintro rfl
  obtain ⟨cl, r1, hc, hcr, hnone | ⟨rel, hr, hsess, hso⟩⟩ := he
  · exact h.live c cl r1 hc hcr hnone
  · exact hso (h.streamsOk (h.session r1 rel hr hsess))

theorem Owned.socketFault {err : Fault} (h : Owned w) (he : SocketFault w c err) (r : RelayId) :
    err ≠ .relayFreed r := by
  rcases he with he | ⟨rfl, _⟩
  · exact h.clientFault he r
  · simp

/-- Nor does an operation on the relay of a client. -/
theorem Owned.relayFault {cl : Client} {err : Fault} (h : Owned w) (hc : w.clients c = some cl)
    (hcr : cl.relay = some r) (he : RelayFault w r err) (r' : RelayId) : err ≠ .relayFreed r' :=
  h.socketFault (he.socketFault hc hcr) r'

/-- Nor does sending. -/
theorem Owned.sendFault {err : Fault} (h : Owned w) (hs : w.sSession = true)
    (he : SendFault w err) (r : RelayId) : err ≠ .relayFreed r := by
  rintro rfl
  exact he (h.streamsOk hs)

theorem Owned.faultTrace (h : Owned w) (ht : FaultTrace w w') : NoWildWrite w'.trace := by
  rcases ht with ht | ⟨r, ht⟩
  · exact ht ▸ h.tame
  · exact h.tame_concat (by simp) ht

theorem Owned.connectFault {err : Fault} (h : Owned w) (hl : Linked w)
    (hz : ∀ cl r rel, w.clients c = some cl → cl.relay = some r → w.relays r = some rel →
      rel.streamId = 0 ∧ w.refusesRequests = false) (hs : w.sSession = true)
    (hf : ConnectFault c w err w') : Benign err w' := by
  cases hf with
  | early ht he =>
    refine ⟨fun r => ?_, ht ▸ h.tame⟩
    rcases he with rfl | rfl | rfl <;> simp
  | @submit cl r hd hc hcr hh ht he =>
    refine ⟨fun r' hr' => ?_, h.tame_concat (by simp) ht⟩
    subst hr'
    rcases he with hnone | ⟨hd', rel, hd1, hr, _, hso⟩
    · exact h.live c cl r hc hcr hnone
    · -- the request is not refused, so that sending it closes no stream of a current relay
      obtain rfl := Option.some.inj hd1
      obtain ⟨hid, hg⟩ := hz cl r rel hc hcr hr
      have h1 := (h.connecting (r := r) hc hd).submitted (hl.connecting hc r hd) hr hid hg hs hd
      exact hso (h1.streamsOk (by rw [submitted_sSession]; exact hs))
  | @bodies cl r hd rel w1 w2 written rest b hsub hb hw ht he =>
    obtain ⟨hid, hg⟩ := hz cl r rel hsub.client hsub.current hsub.relay
    have h2 : Owned w2 := (h.submits hl hid hg hsub).bodiesWritten hw
    refine ⟨?_, h2.tame_concat (by simp) ht⟩
    have hself : w2.clients c = (H2ClientProxy.connecting w c cl r hd).clients c := by
      rw [hw.clients_eq, hsub.clients_eq]
    exact h2.relayFault (hself.trans (Function.update_self ..)) hsub.current he

theorem Owned.headersFault {err : Fault} (h : Owned w) (hf : HeadersFault r w err w') :
    Benign err w' := by
  cases hf with
  | noHeader he ht => exact ⟨by simp [he], ht ▸ h.tame⟩
  | @heading _ rel rel1 hr hk he ht =>
    have h1 : Owned (heading w r rel1) := by
      refine Owned.log ?_ (by simp)
      exact Owned.setRelay h hr hk.kept.1.session hk.kept.2
    exact ⟨h1.clientFault he, ht ▸ h1.tame⟩
  | @ending rel1 w1 h1 hr1 he ht =>
    have ho1 : Owned w1 := by
      rcases h1 with rfl | ⟨_, h1⟩
      · exact h
      · exact h.hdrPhase h1
    have h2 : Owned (ending w1 r rel1) := by
      refine Owned.log ?_ (by simp)
      exact Owned.setRelay ho1 hr1 rfl rfl
    exact ⟨h2.clientFault he, ht ▸ h2.tame⟩

/-- The failure of the tunnel drops live relays only. -/
theorem Owned.dropFault {dropped rest : List RelayId} {err : Fault} {w1 : World} (h : Owned w)
    (hl : Linked w) (hrs : w.sListRelays = dropped ++ r :: rest)
    (h1 : DropClients dropped (w.setTunnel .closed w.sSession) w1) (h2 : DropFault r w1 err w') :
    Benign err w' := by
  have h0 : RelaysLive (w.setTunnel .closed w.sSession) := h.relaysLive
  have htame : NoWildWrite w1.trace := (h1.relaysLive (hl.setTunnel _ _) h0).2
  cases h2 with
  | stale hr he ht =>
    -- the list has no relay twice, and holds live relays only
    have hnd := hl.nodup
    rw [hrs, List.nodup_append] at hnd
    rw [h1.relays_eq.1, if_neg] at hr
    · exact absurd hr ((hl.listed r).mp (by simp [hrs]))
    · exact fun hmem => hnd.2.2 r hmem r (by simp) rfl
  | attached hr ha he ht =>
    refine ⟨fun r' => by rcases he with rfl | ⟨rfl, _⟩ <;> simp, ?_⟩
    rw [ht]
    intro r' hmem
    rcases List.mem_append.mp hmem with hmem | hmem
    · exact htame r' hmem
    · exact absurd hmem (by simp)
  | detached hr ha he ht => exact ⟨by simp [he.1], ht ▸ htame⟩

/-- **No fault is the use of a freed relay.** -/
theorem Owned.handleFault {i : Input} {err : Fault} (h : Owned w) (hl : Linked w)
    (hg : KeepsRelays w i = true) (hf : HandleFault w i.event err w') : Benign err w' := by
  generalize he : i.event = e at hf
  cases hf with
  | plain hp ht => exact ⟨hp.1, ht ▸ h.tame⟩
  | headers _ _ _ hp ht => exact ⟨hp.1, h.tame_concat (by simp) ht⟩
  | body _ _ hcf ht => exact ⟨h.clientFault hcf, ht ▸ h.tame⟩
  | bodyWrite hc _ hr _ _ hrf ht => exact ⟨h.relayFault hc hr hrf, h.tame_concat (by simp) ht⟩
  | messageComplete _ _ hcf ht => exact ⟨h.clientFault hcf, ht ▸ h.tame⟩
  | clientGone hcf _ _ ht => exact ⟨h.socketFault hcf, h.faultTrace ht⟩
  | writable _ _ hcf ht => exact ⟨h.socketFault hcf, h.faultTrace ht⟩
  | timerConnected hr htmr hs hcf =>
    refine (h.timed hr _).connectFault (hl.timed hr _) (fun cl r1 rel1 hc hcr hr1 => ?_) hs hcf
    obtain ⟨rel0, hr0, hid⟩ := timed_relays hr hr1
    obtain ⟨hz, hgo⟩ := KeepsRelays.timer hg he hr htmr hs hc hcr hr0
    exact ⟨hid.trans hz, hgo⟩
  | timerFailed hr _ hp ht => exact ⟨hp.1, ht ▸ (h.timed hr _).tame⟩
  | tunnelFailed ht hrs h1 h2 => exact h.dropFault hl hrs h1 h2
  | stale ht hs hu hr _ htr => exact absurd hr (h.alive (h.connected ht) _ _ _ hs hu)
  | frame ht hs hopen hu hr ha hcb hf => exact h.headersFault hf
  | @frameEnd s frame st _ w1 _ ht hs hopen h1 hend hsf htr =>
    have ho1 := (h.reported hl hs h1).1
    have hsess : w1.sSession = true := h1.streams_eq.2.trans (h.connected ht)
    have hsf1 : SendFault w1 err :=
      hsf.of_mapStream (f := ({ · with shutRd := true })) fun _ => ⟨rfl, rfl⟩
    exact ⟨ho1.sendFault hsess hsf1, htr ▸ ho1.tame⟩
  | rst _ _ _ _ _ herr htr =>
    exact ⟨fun r' => by rcases herr with rfl | ⟨rfl, _⟩ <;> simp, h.tame_concat (by simp) htr⟩
  | rstClose ht hs h1 hsf hne htr =>
    cases h1 with
    | ignored => exact ⟨h.sendFault (h.connected ht) hsf, htr ▸ h.tame⟩
    | dropped hu hr ha hc =>
      -- the relay that was freed has left its stream
      refine absurd (fun st' hs' => ?_) hne
      obtain ⟨st0, _, rfl⟩ := World.mapStream_eq_some hs'
      rw [if_pos (h.owner _ _ _ _ hs hu hr).symm]
  | @recvData s data st _ _ ht hs hopen hc =>
    cases hc with
    | stale hu hr _ _ => exact absurd hr (h.alive (h.connected ht) _ _ _ hs hu)
    | body hu hr ha hcf htr =>
      have h1 := h.chunked hr s data
      exact ⟨h1.clientFault hcf, htr ▸ h1.tame⟩
    | @send r rel w1 hu hr ha h1 hsf htr =>
      have ho1 := (h.chunked hr s data).quiet_false h1.quiet
      have hsess : w1.sSession = (H2ClientProxy.chunked w s r rel data).sSession :=
        (h1.quiet (D := fun _ => False)).sSession
      exact ⟨ho1.sendFault (hsess.trans (h.connected ht)) hsf, htr ▸ ho1.tame⟩
  | send ht hsf htr => exact ⟨h.sendFault (h.connected ht) hsf, htr ▸ h.tame⟩

/-- The invariant holds before the event of an input is handled if it holds before the input. -/
theorem Owned.prepared (h : Owned w) (i : Input) : Owned (prepared w i) := { h with }

/-! ### Runs -/

/-- **A relay that is used has not been freed** in a run that meets `KeepsRelays`: in every state it
reaches the clients' relays are live, and no freed relay is read or written, faults included. -/
theorem wp_run_relaysLive (is : List Input)
    (hG : Meets step (fun w i => KeepsRelays w i = true) is World.init) :
    wp (run step is) (fun _ => RelaysLive) Benign World.init := by
  have hrun : wp (run step is) (fun _ w => Linked w ∧ Owned w) Benign World.init := by
    refine run_wp (I := fun w => Linked w ∧ Owned w) ?_ is World.init ⟨linked_init, owned_init⟩ hG
    rintro w i ⟨hl, h⟩ hg
    have hg' : KeepsRelays (H2ClientProxy.prepared w i) i = true := hg
    refine step_spec i ?_ ?_
    · intro w' hh
      exact ⟨(hl.prepared i).handled hh, (h.prepared i).handled (hl.prepared i) hg' rfl hh⟩
    · exact fun err w' hf => (h.prepared i).handleFault (hl.prepared i) hg' hf
  exact wp_mono hrun (fun _ _ hw => hw.2.relaysLive) fun _ _ => id

/-- A request and its response, after which the client goes away, meet the condition. -/
theorem wp_run_relaysLive_answered :
    Meets step (fun w i => KeepsRelays w i = true)
        (inputs (opening ++ getRequest 0 ++ .timer 0 :: emptyResponse 1 ++ [.clientGone 0]))
        World.init ∧
      wp (run step
        (inputs (opening ++ getRequest 0 ++ .timer 0 :: emptyResponse 1 ++ [.clientGone 0])))
        (fun _ => RelaysLive) Benign World.init :=
  ⟨by decide +kernel, wp_run_relaysLive _ (by decide +kernel)⟩

/-- In general a freed relay is used: a client goes away while its request is being answered. -/
theorem not_relaysLive :
    ¬ ∀ is : List Input, wp (run step is) (fun _ => RelaysLive) Benign World.init := by
  intro h
  have hnot : ¬ wp (run step (inputs (opening ++ getRequest 0 ++ [Event.timer 0, .clientGone 0])))
      (fun _ w => .wildWrite 0 ∉ w.trace) (fun _ _ => True) World.init := by
    decide +kernel
  exact hnot (wp_mono (h _) (fun _ w hw => hw.2 0) fun _ _ _ => trivial)

/-- A request that is submitted after a connection error loses its relay in `relay_send_request`. -/
example : wp (run step (inputs (opening ++ getRequest 0 ++ [Event.connectionError, .timer 0])))
    (fun _ w => w.relays 0 = none ∧ .wildWrite 0 ∈ w.trace ∧
      (w.clients 0).any (fun cl => cl.relay = some 0) = true) (fun _ _ => False) World.init := by
  decide +kernel

end H2ClientProxy
