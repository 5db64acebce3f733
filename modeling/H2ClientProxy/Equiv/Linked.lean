import H2ClientProxy.Equiv.Step

/-!
# How clients, relays and streams are linked

`Linked` collects what holds in every reachable state, whatever happens: identities are never used
twice, a client's live relay was created for that client and is attached, an open stream that a
live relay calls its own carries that relay as its user data, and `s_list_relays` holds the live
relays.

* `Linked.quiet`, `Linked.setClient`, … : what the elementary changes of the world do to it;
* `Linked.handled`: every event keeps it;
* `linked_run`: it holds in every state that a run reaches.
-/

namespace H2ClientProxy

open Wp Machine SendQueue

/-- Clients, relays and streams are linked as they should be. -/
structure Linked (w : World) : Prop where
  client_lt : ∀ c cl, w.clients c = some cl → c < w.nextClient
  relay_lt : ∀ r rel, w.relays r = some rel → r < w.nextRelay ∧ rel.streamId < w.nextStreamId
  current : ∀ c cl r, w.clients c = some cl → cl.relay = some r → r < w.nextRelay ∧
    ∀ rel, w.relays r = some rel → rel.args = c ∧ rel.isAttached = true
  stream_lt : ∀ s st, w.streams s = some st → 0 < s ∧ s < w.nextStreamId ∧
    ∀ r, st.userData = some r → r < w.nextRelay
  stream_pos : 0 < w.nextStreamId
  own : ∀ r rel st, w.relays r = some rel → w.streams rel.streamId = some st →
    st.userData = some r
  nodup : w.sListRelays.Nodup
  listed : ∀ r, r ∈ w.sListRelays ↔ w.relays r ≠ none

variable {D : StreamId → Prop} {w w' : World}

theorem linked_init : Linked World.init := by
  constructor <;> simp [World.init]

/-- A live relay is the current one of one client at most, the one it was created for. -/
theorem Linked.client_eq_args {c : ClientId} {cl : Client} {r : RelayId} {rel : Relay}
    (h : Linked w) (hr : w.relays r = some rel) (hc : w.clients c = some cl)
    (hcr : cl.relay = some r) : c = rel.args :=
  ((h.current c cl r hc hcr).2 rel hr).1.symm

/-! ### Elementary changes -/

/-- A quiet call keeps the links. -/
theorem Linked.quiet (h : Linked w) (hq : Quiet D w w') : Linked w' where
  client_lt := by
    intro c cl hc
    obtain ⟨cl0, hc0, _⟩ := hq.client_of hc
    rw [hq.nextClient]
    exact h.client_lt c cl0 hc0
  relay_lt := by
    intro r rel hr
    obtain ⟨rel0, hr0, hid, _⟩ := hq.relays r rel hr
    rw [hq.nextRelay, hq.nextStreamId, hid]
    exact h.relay_lt r rel0 hr0
  current := by
    intro c cl r hc hr
    obtain ⟨cl0, hc0, hk⟩ := hq.client_of hc
    have h0 := h.current c cl0 r hc0 (hk.relay ▸ hr)
    rw [hq.nextRelay]
    refine ⟨h0.1, fun rel hrel => ?_⟩
    obtain ⟨rel0, hr0, _, hkr⟩ := hq.relays r rel hrel
    rw [hkr.args, hkr.isAttached]
    exact h0.2 rel0 hr0
  stream_lt := by
    intro s st hs
    obtain ⟨st0, hs0, hk, _⟩ := hq.streams s st hs
    rw [hq.nextStreamId, hq.nextRelay]
    obtain ⟨h1, h2, h3⟩ := h.stream_lt s st0 hs0
    exact ⟨h1, h2, fun r hu => h3 r (hk.userData_of_some hu)⟩
  stream_pos := by
    rw [hq.nextStreamId]
    exact h.stream_pos
  own := by
    intro r rel st hr hs
    obtain ⟨rel0, hr0, hid, _⟩ := hq.relays r rel hr
    rw [hid] at hs
    obtain ⟨st0, hs0, hk, _⟩ := hq.streams _ st hs
    have h0 := h.own r rel0 st0 hr0 hs0
    by_contra hne
    -- the user data was cleared, so the relay it named was freed; but that relay was `r`
    obtain ⟨r1, rel1, hr1, hid1, hf⟩ := hq.cleared _ st0 st hs0 hs (by rw [h0]; exact hne)
    have h1 := h.own r1 rel1 st0 hr1 (by rw [hid1]; exact hs0)
    rw [h0, Option.some.injEq] at h1
    rw [← h1, hr] at hf
    exact absurd hf (by simp)
  nodup := (hq.listed h.nodup).1
  listed := by
    intro r
    rw [(hq.listed h.nodup).2, h.listed]
    constructor
    · exact fun h1 h2 => h1.1 (h1.2 h2)
    · exact fun h1 => ⟨fun h2 => h1 (hq.relays_none h2), fun h2 => absurd h2 h1⟩

/-- What a note, the tunnel and the answers to come are does not matter. -/
theorem Linked.log (h : Linked w) (o : Obs) : Linked (w.log o) := { h with }

theorem Linked.setTunnel (h : Linked w) (t : Tunnel) (b : Bool) : Linked (w.setTunnel t b) :=
  { h with }

theorem Linked.setGoaway (h : Linked w) : Linked w.setGoaway := { h with }

/-- Who is at a relay in `w'` is at it in `w`. -/
def FewerCurrent (w w' : World) : Prop :=
  ∀ c cl r, w'.clients c = some cl → cl.relay = some r →
    ∃ cl0, w.clients c = some cl0 ∧ cl0.relay = some r

theorem fewerCurrent_setClient {c : ClientId} {cl cl' : Client} (hc : w.clients c = some cl)
    (hr : cl'.relay = cl.relay ∨ cl'.relay = none) : FewerCurrent w (w.setClient c (some cl')) := by
  intro c' cl1 r hc' hcr
  rw [World.setClient_clients, Function.update_apply] at hc'
  split_ifs at hc' with he
  · obtain rfl := Option.some.inj hc'
    rcases hr with hr | hr
    · exact ⟨cl, he ▸ hc, hr ▸ hcr⟩
    · exact absurd (hcr.symm.trans hr) (Option.some_ne_none r)
  · exact ⟨cl1, hc', hcr⟩

theorem fewerCurrent_dropClient (w : World) (c : ClientId) :
    FewerCurrent w (w.setClient c none) := by
  intro c' cl1 r hc' hcr
  rw [World.setClient_clients, Function.update_apply] at hc'
  split_ifs at hc'
  exact ⟨cl1, hc', hcr⟩

theorem fewerCurrent_addClient (w : World) {cl : Client} (hr : cl.relay = none) :
    FewerCurrent w (w.addClient cl) := by
  intro c' cl1 r hc' hcr
  rw [World.addClient_clients, Function.update_apply] at hc'
  split_ifs at hc'
  · obtain rfl := Option.some.inj hc'
    exact absurd (hcr.symm.trans hr) (Option.some_ne_none r)
  · exact ⟨cl1, hc', hcr⟩

/-- A client may change as long as it does not get another relay. -/
theorem Linked.setClient {c : ClientId} {cl cl' : Client} (h : Linked w)
    (hc : w.clients c = some cl) (hr : cl'.relay = cl.relay ∨ cl'.relay = none) :
    Linked (w.setClient c (some cl')) :=
  { h with
    client_lt := by
      intro c' cl1 hc'
      rw [World.setClient_clients, Function.update_apply] at hc'
      split_ifs at hc' with he
      · exact he ▸ h.client_lt c cl hc
      · exact h.client_lt c' cl1 hc'
    current := by
      intro c' cl1 r hc' hcr
      obtain ⟨cl0, hc0, hcr0⟩ := fewerCurrent_setClient hc hr c' cl1 r hc' hcr
      exact h.current c' cl0 r hc0 hcr0 }

theorem Linked.dropClient (h : Linked w) (c : ClientId) : Linked (w.setClient c none) :=
  { h with
    client_lt := by
      intro c' cl1 hc'
      rw [World.setClient_clients, Function.update_apply] at hc'
      split_ifs at hc'
      exact h.client_lt c' cl1 hc'
    current := by
      intro c' cl1 r hc' hcr
      obtain ⟨cl0, hc0, hcr0⟩ := fewerCurrent_dropClient w c c' cl1 r hc' hcr
      exact h.current c' cl0 r hc0 hcr0 }

theorem Linked.addClient (h : Linked w) {cl : Client} (hr : cl.relay = none) :
    Linked (w.addClient cl) :=
  { h with
    client_lt := by
      intro c' cl1 hc'
      show c' < w.nextClient + 1
      rw [World.addClient_clients, Function.update_apply] at hc'
      split_ifs at hc' with he
      · exact he ▸ Nat.lt_succ_self _
      · exact Nat.lt_succ_of_lt (h.client_lt c' cl1 hc')
    current := by
      intro c' cl1 r hc' hcr
      obtain ⟨cl0, hc0, hcr0⟩ := fewerCurrent_addClient w hr c' cl1 r hc' hcr
      exact h.current c' cl0 r hc0 hcr0 }

/-- The next relay is not there yet. -/
theorem Linked.nextRelay_none (h : Linked w) : w.relays w.nextRelay = none := by
  cases hn : w.relays w.nextRelay with
  | none => rfl
  | some rel => exact absurd (h.relay_lt _ _ hn).1 (lt_irrefl _)

theorem Linked.addRelay (h : Linked w) {rel : Relay} (hid : rel.streamId = 0) :
    Linked (w.addRelay rel) :=
  -- what a relay was before
  have hof : ∀ r rel1, (w.addRelay rel).relays r = some rel1 →
      r = w.nextRelay ∧ rel1 = rel ∨ r ≠ w.nextRelay ∧ w.relays r = some rel1 := by
    intro r rel1 hr
    rw [World.addRelay_relays, Function.update_apply] at hr
    split_ifs at hr with he
    · exact Or.inl ⟨he, (Option.some.inj hr).symm⟩
    · exact Or.inr ⟨he, hr⟩
  { h with
    relay_lt := by
      intro r rel1 hr
      show r < w.nextRelay + 1 ∧ rel1.streamId < w.nextStreamId
      rcases hof r rel1 hr with ⟨rfl, rfl⟩ | ⟨-, hr⟩
      · rw [hid]
        exact ⟨Nat.lt_succ_self _, h.stream_pos⟩
      · exact ⟨Nat.lt_succ_of_lt (h.relay_lt r rel1 hr).1, (h.relay_lt r rel1 hr).2⟩
    current := by
      intro c cl r hc hcr
      obtain ⟨hlt, hown⟩ := h.current c cl r hc hcr
      refine ⟨Nat.lt_succ_of_lt hlt, fun rel1 hr => ?_⟩
      rcases hof r rel1 hr with ⟨rfl, -⟩ | ⟨-, hr⟩
      · exact absurd hlt (lt_irrefl _)
      · exact hown rel1 hr
    stream_lt := by
      intro s st hs
      obtain ⟨hpos, hlt, hu⟩ := h.stream_lt s st hs
      exact ⟨hpos, hlt, fun r hur => Nat.lt_succ_of_lt (hu r hur)⟩
    own := by
      intro r rel1 st hr hs
      rcases hof r rel1 hr with ⟨-, rfl⟩ | ⟨-, hr⟩
      · rw [hid] at hs
        exact absurd (h.stream_lt 0 st hs).1 (lt_irrefl _)
      · exact h.own r rel1 st hr hs
    nodup := by
      show (w.sListRelays ++ [w.nextRelay]).Nodup
      rw [List.nodup_append]
      refine ⟨h.nodup, by simp, ?_⟩
      rintro r hr1 r' hr' rfl
      rw [List.mem_singleton] at hr'
      rw [h.listed, hr', h.nextRelay_none] at hr1
      exact hr1 rfl
    listed := by
      intro r
      show r ∈ w.sListRelays ++ [w.nextRelay] ↔ Function.update w.relays w.nextRelay (some rel) r ≠ none
      rw [List.mem_append, List.mem_singleton, h.listed, Function.update_apply]
      split_ifs with he
      · exact iff_of_true (Or.inr he) (Option.some_ne_none rel)
      · exact or_iff_left he }

/-- A client gets a new relay. -/
theorem Linked.createRelay {c : ClientId} {cl cl' : Client} (h : Linked w)
    (hc : w.clients c = some cl) (hr : cl'.relay = some w.nextRelay) (b : Bool) (o : Obs) :
    Linked (((w.addRelay { session := b, args := c }).log o).setClient c (some cl')) :=
  have h0 : Linked ((w.addRelay { session := b, args := c }).log o) := (h.addRelay rfl).log o
  { h0 with
    client_lt := by
      intro c' cl1 hc'
      rw [World.setClient_clients, Function.update_apply] at hc'
      split_ifs at hc' with he
      · exact he ▸ h.client_lt c cl hc
      · exact h.client_lt c' cl1 hc'
    current := by
      intro c' cl1 r hc' hcr
      rw [World.setClient_clients, Function.update_apply] at hc'
      split_ifs at hc' with he
      · obtain rfl := Option.some.inj hc'
        obtain rfl : w.nextRelay = r := Option.some.inj (hr.symm.trans hcr)
        refine ⟨Nat.lt_succ_self _, fun rel hrel => ?_⟩
        have hrel : Function.update w.relays w.nextRelay (some _) w.nextRelay = some rel := hrel
        rw [Function.update_self] at hrel
        obtain rfl := Option.some.inj hrel
        exact ⟨he.symm, rfl⟩
      · exact h0.current c' cl1 r hc' hcr }

/-- A relay may change as long as its stream stays, and its owner if a client is at it. -/
theorem Linked.changeRelay {r : RelayId} {rel rel' : Relay} (h : Linked w)
    (hr : w.relays r = some rel) (hid : rel'.streamId = rel.streamId)
    (hown : ∀ c cl, w.clients c = some cl → cl.relay = some r →
      rel'.args = rel.args ∧ rel'.isAttached = rel.isAttached) : Linked (w.setRelay r rel') :=
  -- what a relay was before
  have hof : ∀ r' rel1, (w.setRelay r rel').relays r' = some rel1 → ∃ rel0, w.relays r' = some rel0 ∧
      rel1.streamId = rel0.streamId ∧ ∀ c cl, w.clients c = some cl → cl.relay = some r' →
        rel1.args = rel0.args ∧ rel1.isAttached = rel0.isAttached := by
    intro r' rel1 hr'
    rw [World.setRelay_relays, Function.update_apply] at hr'
    split_ifs at hr' with he
    · obtain rfl := Option.some.inj hr'
      rw [he]
      exact ⟨rel, hr, hid, hown⟩
    · exact ⟨rel1, hr', rfl, fun _ _ _ _ => ⟨rfl, rfl⟩⟩
  { h with
    relay_lt := by
      intro r' rel1 hr'
      obtain ⟨rel0, hr0, hid0, -⟩ := hof r' rel1 hr'
      rw [hid0]
      exact h.relay_lt r' rel0 hr0
    current := by
      intro c cl r' hc hcr
      refine ⟨(h.current c cl r' hc hcr).1, fun rel1 hr' => ?_⟩
      obtain ⟨rel0, hr0, -, hown0⟩ := hof r' rel1 hr'
      rw [(hown0 c cl hc hcr).1, (hown0 c cl hc hcr).2]
      exact (h.current c cl r' hc hcr).2 rel0 hr0
    own := by
      intro r' rel1 st hr' hs
      obtain ⟨rel0, hr0, hid0, -⟩ := hof r' rel1 hr'
      rw [hid0] at hs
      exact h.own r' rel0 st hr0 hs
    listed := by
      intro r'
      rw [World.setRelay_relays, World.setRelay_sListRelays, h.listed, Function.update_apply]
      split_ifs with he
      · rw [he, hr]
        exact iff_of_true (Option.some_ne_none rel) (Option.some_ne_none rel')
      · rfl }

theorem Linked.setRelay {r : RelayId} {rel rel' : Relay} (h : Linked w) (hr : w.relays r = some rel)
    (ha : rel'.args = rel.args) (hat : rel'.isAttached = rel.isAttached)
    (hid : rel'.streamId = rel.streamId) : Linked (w.setRelay r rel') :=
  h.changeRelay hr hid fun _ _ _ _ => ⟨ha, hat⟩

/-- The same, for a relay that may have been freed. -/
theorem Linked.wrote {r : RelayId} {f : Relay → Relay} (h : Linked w) (hw : Wrote r f w w')
    (hf : ∀ rel, (f rel).args = rel.args ∧ (f rel).isAttached = rel.isAttached ∧
      (f rel).streamId = rel.streamId) : Linked w' := by
  rcases hw with ⟨rel, hr, rfl⟩ | ⟨_, rfl⟩
  · exact h.setRelay hr (hf rel).1 (hf rel).2.1 (hf rel).2.2
  · exact h.log _

/-- A client is dropped after its relay was detached. -/
theorem Linked.detach {c : ClientId} {r : RelayId} (h : Linked w)
    (hcur : ∀ c' cl, w.clients c' = some cl → cl.relay = some r → c' = c)
    (hw : Wrote r (fun rel => { rel with isAttached := false }) w w') :
    Linked (w'.setClient c none) := by
  rcases hw with ⟨rel, hr, rfl⟩ | ⟨_, rfl⟩
  · -- nobody is at the relay any more
    show Linked ((w.setClient c none).setRelay r { rel with isAttached := false })
    refine (h.dropClient c).changeRelay hr rfl fun c' cl hc hcr => ?_
    obtain ⟨cl0, hc0, hcr0⟩ := fewerCurrent_dropClient w c c' cl r hc hcr
    obtain rfl := hcur c' cl0 hc0 hcr0
    rw [World.setClient_clients, Function.update_self] at hc
    exact absurd hc.symm (Option.some_ne_none cl)
  · exact (h.log _).dropClient c

/-- A stream may change as long as its user data stays. -/
theorem Linked.mapStream (h : Linked w) (s : StreamId) (f : Stream → Stream)
    (hf : ∀ st, (f st).userData = st.userData) : Linked (w.mapStream s f) :=
  have hof : ∀ s' st', (w.mapStream s f).streams s' = some st' →
      ∃ st, w.streams s' = some st ∧ st'.userData = st.userData := by
    intro s' st' hs'
    obtain ⟨st, hst, rfl⟩ := World.mapStream_eq_some hs'
    refine ⟨st, hst, ?_⟩
    split_ifs
    · exact hf st
    · rfl
  { h with
    stream_lt := by
      intro s' st' hs'
      obtain ⟨st, hst, hu⟩ := hof s' st' hs'
      rw [hu]
      exact h.stream_lt s' st hst
    own := by
      intro r rel st' hr hs'
      obtain ⟨st, hst, hu⟩ := hof _ st' hs'
      rw [hu]
      exact h.own r rel st hr hst }

/-- A request is submitted. -/
theorem Linked.submitted {r : RelayId} {rel : Relay} (h : Linked w) (hr : w.relays r = some rel)
    (hd : Header) : Linked (submitted w r rel hd) where
  client_lt := by
    rw [submitted_clients, submitted_nextClient]
    exact h.client_lt
  relay_lt := by
    intro r1 rel1 hr1
    rw [submitted_nextRelay, submitted_nextStreamId]
    rcases submitted_relays_eq_some hr1 with ⟨rfl, rfl⟩ | ⟨-, hr1⟩
    · exact ⟨(h.relay_lt r1 rel hr).1, by simp⟩
    · obtain ⟨hlt, hid⟩ := h.relay_lt r1 rel1 hr1
      exact ⟨hlt, Nat.lt_add_right 2 hid⟩
  current := by
    intro c cl r1 hc hcr
    rw [submitted_clients] at hc
    rw [submitted_nextRelay]
    refine ⟨(h.current c cl r1 hc hcr).1, fun rel1 hr1 => ?_⟩
    rcases submitted_relays_eq_some hr1 with ⟨rfl, rfl⟩ | ⟨-, hr1⟩
    · exact (h.current c cl r1 hc hcr).2 rel hr
    · exact (h.current c cl r1 hc hcr).2 rel1 hr1
  stream_lt := by
    intro s st hs
    rw [submitted_nextStreamId, submitted_nextRelay]
    rcases submitted_streams_eq_some hs with ⟨rfl, rfl⟩ | ⟨-, hs⟩
    · refine ⟨h.stream_pos, by simp, fun r1 hu => ?_⟩
      obtain rfl := Option.some.inj hu
      exact (h.relay_lt r rel hr).1
    · obtain ⟨hpos, hlt, hu⟩ := h.stream_lt s st hs
      exact ⟨hpos, Nat.lt_add_right 2 hlt, hu⟩
  stream_pos := by
    rw [submitted_nextStreamId]
    exact Nat.succ_pos _
  own := by
    intro r1 rel1 st hr1 hs
    rcases submitted_relays_eq_some hr1 with ⟨rfl, rfl⟩ | ⟨-, hr1⟩
    · rcases submitted_streams_eq_some hs with ⟨-, rfl⟩ | ⟨hne, -⟩
      · rfl
      · exact absurd rfl hne
    · rcases submitted_streams_eq_some hs with ⟨he, -⟩ | ⟨-, hs⟩
      · exact absurd he (ne_of_lt (h.relay_lt r1 rel1 hr1).2)
      · exact h.own r1 rel1 st hr1 hs
  nodup := by
    rw [submitted_sListRelays]
    exact h.nodup
  listed := by
    intro r1
    rw [submitted_sListRelays, submitted_relays, h.listed, Function.update_apply]
    split_ifs with he
    · rw [he, hr]
      exact iff_of_true (Option.some_ne_none rel) (Option.some_ne_none _)
    · rfl

theorem freed_relays_eq_some {r r1 : RelayId} {rel rel1 : Relay}
    (h : (freed w r rel).relays r1 = some rel1) : r1 ≠ r ∧ w.relays r1 = some rel1 := by
  rw [freed, World.removeRelay_relays, World.mapStream_relays, Function.update_apply] at h
  split_ifs at h with he
  exact ⟨he, h⟩

/-- A relay is freed. -/
theorem Linked.freed {r : RelayId} {rel : Relay} (h : Linked w) (hr : w.relays r = some rel) :
    Linked (freed w r rel) :=
  -- what a stream was before
  have hstreams : ∀ s' st', (H2ClientProxy.freed w r rel).streams s' = some st' →
      ∃ st, w.streams s' = some st ∧
        st' = if s' = rel.streamId then { st with userData := none } else st :=
    fun s' st' hs' => World.mapStream_eq_some hs'
  { client_lt := h.client_lt
    relay_lt := fun r1 rel1 hr1 => h.relay_lt r1 rel1 (freed_relays_eq_some hr1).2
    current := fun c cl r1 hc hcr =>
      ⟨(h.current c cl r1 hc hcr).1,
        fun rel1 hr1 => (h.current c cl r1 hc hcr).2 rel1 (freed_relays_eq_some hr1).2⟩
    stream_lt := by
      intro s' st' hs'
      obtain ⟨st, hst, rfl⟩ := hstreams s' st' hs'
      obtain ⟨hpos, hlt, hu⟩ := h.stream_lt s' st hst
      refine ⟨hpos, hlt, fun r1 hu1 => ?_⟩
      split_ifs at hu1
      exact hu r1 hu1
    stream_pos := h.stream_pos
    own := by
      intro r1 rel1 st' hr1 hs'
      obtain ⟨hne, hr1⟩ := freed_relays_eq_some hr1
      obtain ⟨st, hst, rfl⟩ := hstreams _ st' hs'
      have hown := h.own r1 rel1 st hr1 hst
      split_ifs with he
      · -- the stream of the freed relay is nobody else's
        rw [he] at hst
        exact absurd (Option.some.inj (hown.symm.trans (h.own r rel st hr hst))) hne
      · exact hown
    nodup := h.nodup.erase r
    listed := by
      intro r1
      show r1 ∈ w.sListRelays.erase r ↔ Function.update w.relays r none r1 ≠ none
      rw [h.nodup.mem_erase_iff, h.listed, Function.update_apply]
      split_ifs with he
      · exact iff_of_false (fun h1 => h1.1 he) fun h1 => h1 rfl
      · exact and_iff_right he }

/-! ### The handlers -/

theorem Linked.ending {r : RelayId} {rel : Relay} (h : Linked w) (hr : w.relays r = some rel) :
    Linked (ending w r rel) := by
  apply Linked.log
  exact Linked.setRelay h hr rfl rfl rfl

theorem Linked.heading {ends : Bool} {r : RelayId} {rel rel1 : Relay} (h : Linked w)
    (hr : w.relays r = some rel) (hk : Checked ends rel rel1) : Linked (heading w r rel1) := by
  apply Linked.log
  exact Linked.setRelay h hr hk.kept.1.args hk.kept.1.isAttached hk.kept.2

theorem Linked.timed {r : RelayId} {rel : Relay} (h : Linked w) (hr : w.relays r = some rel)
    (what : RelayWhat) : Linked (timed w r rel what) := by
  apply Linked.log
  exact Linked.setRelay h hr rfl rfl rfl

theorem Linked.connecting {c : ClientId} {cl : Client} (h : Linked w) (hc : w.clients c = some cl)
    (r : RelayId) (hd : Header) : Linked (connecting w c cl r hd) := by
  apply Linked.log
  exact Linked.setClient h hc (Or.inl rfl)

theorem Linked.chunked {r : RelayId} {rel : Relay} (h : Linked w) (hr : w.relays r = some rel)
    (s : StreamId) (data : Bytes) : Linked (chunked w s r rel data) := by
  apply Linked.log
  have h1 := h.mapStream s (fun st => { st with recvLen := st.recvLen + data.length }) fun _ => rfl
  exact Linked.setRelay h1 hr rfl rfl rfl

/-- The socket has taken some bytes. -/
theorem Linked.setSendSide {c : ClientId} {cl cl' : Client} (h : Linked w)
    (hc : w.clients c = some cl) (hk : CtlKept cl cl') (sends : List SendResult) :
    Linked ((w.setSends sends).setClient c (some cl')) :=
  have h1 : Linked (w.setSends sends) := { h with }
  h1.setClient hc (Or.inl hk.relay)

theorem Linked.next {c : ClientId} (h : Linked w) (hn : Next c w w') : Linked w' := by
  cases hn with
  | idle hc hp => exact h.setClient hc (Or.inr rfl)
  | next hc hp => exact h.createRelay hc rfl _ _

/-- The client leaves its relay: it is at none afterwards, or at a new one. -/
theorem MsgDone.relay_fresh {c : ClientId} {cl : Client} {r : RelayId} (hm : MsgDone c w w')
    (hc : w'.clients c = some cl) (hr : cl.relay = some r) : r = w.nextRelay := by
  obtain ⟨cl0, r0, rel0, w1, hc0, _, _, hw1, hend⟩ := hm
  have hnext : w1.nextRelay = w.nextRelay := by
    rcases hw1 with ⟨_, rfl⟩ | ⟨_, rfl⟩ <;> rfl
  rcases hend with ⟨_, rfl⟩ | ⟨_, hn⟩
  · rw [World.setClient_clients, Function.update_self] at hc
    exact absurd hc (by simp)
  · cases hn with
    | idle hc1 hp =>
      rw [World.setClient_clients, Function.update_self, Option.some.injEq] at hc
      rw [← hc] at hr
      exact absurd hr (by simp)
    | next hc1 hp =>
      rw [World.setClient_clients, Function.update_self, Option.some.injEq] at hc
      rw [← hc, Option.some.injEq] at hr
      rw [← hr, hnext]

/-- It does not touch the relays that are there. -/
theorem MsgDone.relays_of_lt {c : ClientId} {r : RelayId} (hm : MsgDone c w w')
    (hr : r < w.nextRelay) : w'.relays r = w.relays r := by
  obtain ⟨cl0, r0, rel0, w1, hc0, _, _, hw1, hend⟩ := hm
  obtain ⟨hnext, hrelays⟩ : w1.nextRelay = w.nextRelay ∧ w1.relays = w.relays := by
    rcases hw1 with ⟨_, rfl⟩ | ⟨_, rfl⟩ <;> exact ⟨rfl, rfl⟩
  rcases hend with ⟨_, rfl⟩ | ⟨_, hn⟩
  · rw [World.setClient_relays]
  · cases hn with
    | idle hc1 hp => rw [World.setClient_relays, hrelays]
    | next hc1 hp =>
      rw [World.setClient_relays, World.log_relays, World.addRelay_relays, hnext, hrelays,
        Function.update_of_ne hr.ne]

theorem Linked.msgDone {c : ClientId} (h : Linked w) (hm : MsgDone c w w') : Linked w' := by
  obtain ⟨cl, r, rel, w1, hc, hr, hrel, hw1, hend⟩ := hm
  have h1 : Linked w1 := by
    rcases hw1 with ⟨_, rfl⟩ | ⟨_, rfl⟩
    · exact h
    · exact h.quiet (D := fun _ => False) (written_wroteTo hc lastChunk).quiet
  rcases hend with ⟨_, rfl⟩ | ⟨_, hn⟩
  · exact h.dropClient c
  · exact h1.next hn

/-- Writing a chunk to the client is quiet. -/
theorem BodyDone.quiet {c : ClientId} (h : BodyDone c w w') : Quiet D w w' := by
  obtain ⟨cl, r, rel, cl1, w1, hr, hrel, hw, hend⟩ := h
  have h1 : Quiet D w w1 := hw.quiet
  rcases hend with ⟨_, rfl⟩ | ⟨_, rfl⟩
  · have hrel1 : w1.relays r = some rel := by
      rw [hw.relays]
      exact hrel
    exact h1.trans (effect_setRelay hrel1 rfl ⟨rfl, rfl, rfl, rfl, rfl⟩)
  · exact h1

theorem Linked.msgPhase {r : RelayId} (h : Linked w) (hm : MsgPhase r w w') : Linked w' := by
  obtain ⟨rel, hr, hd⟩ := hm
  exact (h.ending hr).msgDone hd

theorem Linked.hdrPhase {ends : Bool} {r : RelayId} (h : Linked w) (hp : HdrPhase ends r w w') :
    Linked w' := by
  obtain ⟨rel, rel1, cl, r1, data, hr, hk, hc, _, _, _, rfl⟩ := hp
  have hw := written_wroteTo (w := H2ClientProxy.heading w r rel1) hc data
  exact (h.heading hr hk).quiet (D := fun _ => False) hw.quiet

theorem Linked.reported {userData : Option RelayId} {frame : Frame} (h : Linked w)
    (hr : Reported w userData frame w') : Linked w' := by
  cases hr with
  | ignored => exact h
  | phases hu hr ha h1 h2 =>
    rename_i r rel w1
    have hl1 : Linked w1 := by
      split_ifs at h1
      · exact h.hdrPhase h1
      · exact h1 ▸ h
    split_ifs at h2
    · exact hl1.msgPhase h2
    · exact h2 ▸ hl1

theorem Linked.shutRd {s : StreamId} (h : Linked w) (hs : ShutRd s w w') : Linked w' :=
  (h.mapStream s ({ · with shutRd := true }) fun _ => rfl).quiet hs.quiet

theorem DropOne.relays {r r' : RelayId} {rel : Relay} (hd : DropOne r w w')
    (hr : w'.relays r' = some rel) : w.relays r' = some rel := by
  cases hd with
  | @attached rel0 _ _ _ =>
    exact (freed_relays_eq_some (w := (w.log (.event r .errConnFailed rel0.responseHeader
      rel0.bodyData)).setClient rel0.args none) hr).2
  | detached _ _ => exact (freed_relays_eq_some hr).2

theorem Linked.dropOne {r : RelayId} (h : Linked w) (hd : DropOne r w w') : Linked w' := by
  cases hd with
  | attached hr ha hc => exact Linked.freed ((h.log _).dropClient _) hr
  | detached hr ha => exact h.freed hr

theorem Linked.dropClients {rs : List RelayId} (h : Linked w) (hd : DropClients rs w w') :
    Linked w' := by
  induction hd with
  | nil => exact h
  | cons h1 _ ih => exact ih (h.dropOne h1)

theorem Linked.dropped {c : ClientId} (h : Linked w) (hd : Dropped c w w') : Linked w' := by
  obtain ⟨cl, hc, ⟨_, rfl⟩ | ⟨r, rel, w1, w2, hr, hrel, h1, h2, rfl⟩⟩ := hd
  · exact h.dropClient c
  · have hl1 : Linked w1 := (h.log _).quiet h1.quiet
    refine hl1.detach ?_ h2
    intro c' cl' hc' hr'
    -- the relay is live before, so it belongs to `c` alone
    obtain ⟨cl0, hc0, hk⟩ := h1.client_of hc'
    subst hk
    rw [h.client_eq_args hrel hc0 hr', h.client_eq_args hrel hc hr]

theorem Linked.resumed {r : RelayId} (h : Linked w) (hr : Resumed r w w') : Linked w' := by
  obtain ⟨w1, h1, h2⟩ := hr.quiet
  exact (h.quiet h1).wrote h2 fun _ => ⟨rfl, rfl, rfl⟩

theorem Linked.writable {c : ClientId} (h : Linked w) (hd : WritableDone c w w') : Linked w' := by
  cases hd with
  | empty hc hq hr hres => exact h.resumed hres
  | error hc hq hout herr hdrop => exact (h.setSendSide hc (drainedClient_ctl _ _) _).dropped hdrop
  | full hc hq hout herr hlen hw => exact hw ▸ h.setSendSide hc (afterDrain_ctl _ _) _
  | resumed hc hq hout herr hlen hr hres =>
    exact (h.setSendSide hc (afterDrain_ctl _ _) _).resumed hres

theorem Linked.submits {c : ClientId} {cl : Client} {r : RelayId} {hd : Header} {rel : Relay}
    (h : Linked w) (hs : Submits c cl r hd rel w w') : Linked w' := by
  obtain ⟨w1, h1, h2⟩ := hs.sent
  have h0 : Linked (H2ClientProxy.connecting w c cl r hd) := h.connecting hs.client r hd
  have hl1 : Linked w1 := (h0.submitted hs.relay hd).quiet h1.quiet
  exact hl1.wrote h2 fun _ => ⟨rfl, rfl, rfl⟩

theorem Linked.bodiesWritten {c : ClientId} {r : RelayId} {bs : List BodyBuffer} (h : Linked w)
    (hb : BodiesWritten c r bs w w') : Linked w' := by
  induction hb with
  | nil => exact h
  | cons h1 _ ih => exact ih (Linked.quiet (h.log _) h1.quiet)

theorem Linked.chunkDone {s : StreamId} {st : Stream} {data : Bytes} (h : Linked w)
    (hc : ChunkDone w s st data w') : Linked w' := by
  cases hc with
  | ignored =>
    exact Linked.mapStream h s (fun st => { st with recvLen := st.recvLen + data.length }) fun _ => rfl
  | written hu hr ha h1 hr1 h2 h3 =>
    rename_i r rel rel1 w1 w2
    have hl1 : Linked w1 := (h.chunked hr s data).quiet (D := fun _ => False) h1.quiet
    have hl2 : Linked w2 := by
      split_ifs at h2
      · exact h2 ▸ hl1.mapStream s ({ · with recvLen := 0 }) fun _ => rfl
      · exact h2 ▸ hl1
    exact hl2.quiet h3.quiet

theorem Linked.rstReported {userData : Option RelayId} (h : Linked w)
    (hr : RstReported w userData w') : Linked w' := by
  cases hr with
  | ignored => exact h
  | dropped hu hr ha hc => exact Linked.freed ((h.log _).dropClient _) hr

/-- **Every event keeps the links.** -/
theorem Linked.handled {e : Event} (h : Linked w) (hh : Handled w e w') : Linked w' := by
  cases hh with
  | skip => exact h
  | accept => exact h.addClient rfl
  | msgBegin hc hp hb =>
    refine h.setClient hc (Or.inl ?_)
    cases hb <;> rfl
  | reqHeader hc hk hs => exact h.setClient hc (Or.inl hk.relay)
  | headersComplete hc hp hd =>
    cases hd with
    | pending hh hid hp => exact (h.log _).setClient hc (Or.inl (setReqHeader_ctl hh hid).relay)
    | create hh hid hp => exact (h.log _).createRelay hc rfl _ _
  | bodyQueued hc hp hr hrel hst => exact h.setClient hc (Or.inl rfl)
  | bodyWritten hc hp hr hrel hst hs => exact (h.log _).quiet hs.quiet
  | messageComplete hc hp hr hw =>
    refine Linked.wrote (Linked.log ?_ _) hw fun _ => ⟨rfl, rfl, rfl⟩
    exact Linked.setClient h hc (Or.inl rfl)
  | clientGone hd => exact h.dropped hd
  | writable hc hm hd => exact h.writable hd
  | timerConnected hr ht hs h1 h2 =>
    exact ((h.timed hr _).submits h1).bodiesWritten h2
  | timerFailed hr ht hs hc => exact (h.timed hr _).dropClient _
  | tunnelConnected ht => exact h.setTunnel _ _
  | tunnelFailed ht hd => exact (Linked.dropClients (h.setTunnel _ _) hd).setTunnel _ _
  | recvHeader ht hs hu hr hdr => exact Linked.setRelay h hr rfl rfl rfl
  | frame ht hs hopen h1 h2 =>
    split_ifs at h2
    · exact (h.reported h1).shutRd h2
    · exact h2 ▸ h.reported h1
  | rst ht hs h1 h2 h3 => exact (h.rstReported h1).quiet h2.quiet
  | recvData ht hs hopen hd => exact h.chunkDone hd
  | protocolError ht hs h1 h2 =>
    split_ifs at h2
    · exact (h.quiet h1.quiet).shutRd h2
    · exact h2 ▸ h.quiet h1.quiet
  | goaway ht hs hq => exact h.setGoaway.quiet hs.quiet
  | connectionError ht => exact { h with }
  | sessionSend ht hs => exact h.quiet hs.quiet

/-- The links hold before the event of an input is handled if they hold before the input. -/
theorem Linked.prepared (h : Linked w) (i : Input) : Linked (prepared w i) := { h with }

/-- The links hold in every state that a run reaches. -/
theorem linked_run (is : List Input) :
    wp (run step is) (fun _ => Linked) (fun _ _ => True) World.init :=
  run_wp (G := fun _ _ => True)
    (fun _ i h _ => step_spec i (fun _ hh => (h.prepared i).handled hh) fun _ _ _ => trivial) is
    World.init linked_init (meets_true is World.init)

end H2ClientProxy
